import LodgeOps.Payments.Checkouts

namespace IssueDirectBookingPaymentRequest
open Schema Transaction DirectBookingOrderState DirectBookingTransitionAuthority
open DirectBookingStateMachine

section Deposits

def quotedSchedule (q : BookingQuote) : String :=
  if q.depositPolicySnapshot.isNone then "deposit_50" else "deposit"

def quotedAmount (q : BookingQuote) : ℤ :=
  match (q.depositPolicySnapshot.map DepositPolicy.requirement).getD (.percentage 5000) with
  | .fixed amount => min q.totalMinor amount
  | .percentage basisPoints => (q.totalMinor * basisPoints + 9999).tdiv 10000

def dueDeposit (q : BookingQuote) (r : Reservation) (now : ℤ) (i : ℕ) : Deposit where
  id := i
  reservationId := r.id
  scheduleType := quotedSchedule q
  status := .due
  currency := q.currency
  amountMinor := quotedAmount q
  dueAt := now

theorem names_dueDeposit (q : BookingQuote) (r : Reservation) (now : ℤ) :
    Names (dueDeposit q r now) := fun _ => rfl

def scheduled (db : Database) (q : BookingQuote) (r : Reservation) : Database :=
  { db with
    deposits := db.deposits.insert (dueDeposit q r db.clock) (names_dueDeposit _ _ _) }

def deposit? (db : Database) (q : BookingQuote) (r : Reservation) : Option Deposit :=
  db.deposits.first? fun d => d.reservationId == r.id && d.scheduleType == quotedSchedule q

def payableDeposit (q : BookingQuote) (r : Reservation) : Tx ℕ := do
  let db ← get
  match deposit? db q r with
  | none => do
    set (scheduled db q r)
    pure db.deposits.next
  | some d => do
    reject (d.status ≠ .due ∨ d.currency ≠ q.currency ∨ d.amountMinor ≠ quotedAmount q)
      (.directBooking .conflict "The reservation deposit no longer matches the immutable quote.")
    pure d.id

end Deposits

section Provisioning

-- The public identity and the hash of the access token, as they are drawn.
structure Secrets where
  publicId : String
  accessTokenHash : String

def paying (requestId : ℕ) (o : DirectBookingOrder) : DirectBookingOrder :=
  { o with paymentRequestId := some requestId }

theorem keeps_paying (requestId : ℕ) : Keeps (paying requestId) := fun _ => rfl

def issued (o : DirectBookingOrder) (q : BookingQuote) (r : Reservation) (depositId : ℕ)
    (expiresAt : ℤ) (supersedes : Option ℕ) (secrets : Secrets) (i : ℕ) : PaymentRequest where
  id := i
  propertyId := o.propertyId
  reservationId := r.id
  depositId := some depositId
  publicId := secrets.publicId
  state := .opened
  sourceAmountMinor := quotedAmount q
  sourceCurrency := q.currency
  chargeCurrency := some q.currency
  expiresAt := expiresAt
  supersedesId := supersedes
  accessTokenHash := secrets.accessTokenHash

def provision (o : DirectBookingOrder) (q : BookingQuote) (r : Reservation)
    (supersedes : Option ℕ) (secrets : Secrets) : Tx PaymentRequest := do
  reject (quotedAmount q ≤ 0 ∨ r.totalMinor < quotedAmount q)
    (.directBooking .validation "The quoted deposit is not payable.")
  let depositId ← payableDeposit q r
  let db ← get
  reject (PaymentService.outstanding db r < quotedAmount q) (.directBooking .conflict
    "The quoted deposit exceeds the authoritative outstanding balance.")
  let expiresAt ← orFail r.holdExpiresAt (.runtime "hold_expires_at")
  set { db with
    paymentRequests := db.paymentRequests.insert
      (issued o q r depositId expiresAt supersedes secrets)
    orders := db.orders.update o.id (paying db.paymentRequests.next) (keeps_paying _) }
  pure (issued o q r depositId expiresAt supersedes secrets db.paymentRequests.next)

def lockedQuote (i : Option ℕ) : Tx BookingQuote := do
  let db ← get
  orFail (i.bind db.quotes.find?) .modelNotFound

def provisionHeld (orderId quoteId reservationId : ℕ) (secrets : Secrets) : Tx PaymentRequest := do
  let locked ← lockedOrder orderId
  let quote ← lockedQuote (some quoteId)
  let r ← lockedReservation reservationId
  match locked.paymentRequestId with
  | some i => PaymentService.lockedRequest i
  | none => do
    reject (locked.state ≠ quoted ∨ locked.bookingQuoteId ≠ some quote.id ∨
        locked.reservationId ≠ some r.id)
      (.directBooking .conflict "The held payment seam does not match the quoted order.")
    provision locked quote r none secrets

end Provisioning

section Issuing

def disagreement : Failure := .directBooking .holdExpired
  "The quote, deposit schedule, and authoritative hold no longer agree."

def agrees (db : Database) (o : DirectBookingOrder) (r : Reservation) : Bool :=
  r.status == .hold && r.holdExpiresAt.any db.isFuture && r.holdExpiresAt == o.holdExpiresAt

def superseded (now : ℤ) (q : PaymentRequest) : PaymentRequest :=
  { q with
    state := .superseded
    revokedAt := some now
    revocationReason := some "Guest requested a replacement direct-booking checkout." }

def detached (o : DirectBookingOrder) : DirectBookingOrder :=
  { o with paymentRequestId := none, checkoutExpiresAt := none }

theorem keeps_superseded (now : ℤ) : Keeps (superseded now) := fun _ => rfl

theorem keeps_detached : Keeps detached := fun _ => rfl

def supersede (o : DirectBookingOrder) (request : PaymentRequest) : Tx Unit := do
  reject (request.state = .paid)
    (.directBooking .paidNeedsReview "A paid request cannot be replaced.")
  modify fun db => { db with
    paymentRequests := db.paymentRequests.update request.id (superseded db.clock)
      (keeps_superseded _) }
  RevokeOrSupersedePaymentRequest.expireAttempts request.id
    "Payment request superseded by direct-booking retry."
  modify fun db => { db with orders := db.orders.update o.id detached keeps_detached }

structure Issued where
  request : PaymentRequest
  replayed : Bool

def referring (request : PaymentRequest) : SafeMetadata :=
  [("payment_request_reference", .string request.publicId)]

def startPayment (o : DirectBookingOrder) (request : PaymentRequest) (expectedVersion : ℤ)
    (identity : String) : Tx Issued := do
  let result ← transition o.id paymentPending paymentOrchestrator expectedVersion identity
    (referring request)
  pure { request, replayed := result.replayed }

def payableUntilHoldEnds (expiresAt : Option ℤ) (o : DirectBookingOrder) : DirectBookingOrder :=
  { o with checkoutExpiresAt := expiresAt }

theorem keeps_payableUntilHoldEnds (expiresAt : Option ℤ) :
    Keeps (payableUntilHoldEnds expiresAt) := fun _ => rfl

def issue (o : DirectBookingOrder) (supersedes : Option ℕ) (expectedVersion : ℤ)
    (identity : String) (secrets : Secrets) : Tx Issued := do
  reject (¬ (o.state = held ∨ o.state = paymentFailed) ∨ o.stateVersion ≠ expectedVersion)
    (.directBooking .conflict "A current held order is required to issue direct-booking payment.")
  let quote ← lockedQuote o.bookingQuoteId
  let db ← get
  let r ← orFail (o.reservationId.bind db.reservation?) .modelNotFound
  reject (quote.propertyId ≠ o.propertyId ∨ r.propertyId ≠ o.propertyId ∨
    r.bookingQuoteId ≠ some quote.id ∨ agrees db o r = false ∨
      r.depositPolicy ≠ quote.depositPolicySnapshot) disagreement
  let request ← provision o quote r supersedes secrets
  modify fun db => { db with
    orders := db.orders.update o.id (payableUntilHoldEnds r.holdExpiresAt)
      (keeps_payableUntilHoldEnds _) }
  startPayment o request expectedVersion identity

def handle (orderId : ℕ) (expectedVersion : ℤ) (identity : String) (secrets : Secrets) :
    Tx Issued := do
  let locked ← lockedOrder orderId
  let db ← get
  reject (locked.state = expired ∨ locked.holdExpiresAt.any db.isFuture = false) disagreement
  let r ← orFail (locked.reservationId.bind db.reservation?) disagreement
  reject (agrees db locked r = false) disagreement
  match locked.paymentRequestId with
  | none => issue locked none expectedVersion identity secrets
  | some i => do
    let request ← PaymentService.lockedRequest i
    if locked.state = paymentFailed then do
      supersede locked request
      issue (detached locked) (some request.id) expectedVersion identity secrets
    else startPayment locked request expectedVersion identity

end Issuing
end IssueDirectBookingPaymentRequest
