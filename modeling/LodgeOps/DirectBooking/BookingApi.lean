import LodgeOps.DirectBooking.PaymentRequests
import LodgeOps.Inventory.Suggestions
import LodgeOps.Booking.Commitment

namespace DirectBookingTokenService
open Schema Transaction

def unauthenticated : Failure := .runtime "Unauthenticated."

def recoverable (db : Database) (propertyId : ℕ) (o : DirectBookingOrder) : Bool :=
  o.propertyId == propertyId && o.revokedAt.isNone &&
    o.recoveryExpiresAt.any fun t => decide (db.clock ≤ t)

def rotated (session : Session) (now : ℤ) (o : DirectBookingOrder) : DirectBookingOrder :=
  { o with
    tokenHash := session.token
    recoveryTokenHash := some session.recoveryToken
    sessionExpiresAt := now + 60 * 120
    recoveryExpiresAt := some (now + 60 * 10080) }

theorem keeps_rotated (session : Session) (now : ℤ) : Keeps (rotated session now) := fun _ => rfl

def recover (recoveryToken : String) (propertyId : ℕ) (session : Session) :
    Tx DirectBookingOrder := do
  let db ← get
  let locked ← orFail (db.orders.first? fun o => o.recoveryTokenHash == some recoveryToken)
    unauthenticated
  reject (recoverable db propertyId locked = false) unauthenticated
  set { db with orders := db.orders.update locked.id (rotated session db.clock) (keeps_rotated _ _) }
  pure (rotated session db.clock locked)

end DirectBookingTokenService

namespace DirectBookingApiService
open Schema Transaction DirectBookingOrderState DirectBookingTransitionAuthority
open DirectBookingStateMachine
open IssueDirectBookingPaymentRequest (Secrets Issued lockedQuote quotedSchedule scheduled deposit?)
open ProgramRequirement (partySize program? quantityForParty)

section Failures

def publicMessage : DirectBookingErrorCode → String
  | .validation => "The request did not satisfy the booking contract."
  | .unavailable => "The requested item is not available for these dates."
  | .quoteStale => "The authoritative quote has expired and must be refreshed."
  | .holdExpired => "The inventory hold has expired."
  | .conflict => "The booking state changed; refresh before retrying."
  | .idempotencyConflict => "This idempotency key was already used for different request facts."
  | .rateLimited => "Too many booking requests were received. Retry after the advertised delay."
  | .botRejected => "Bot verification could not be completed."
  | .paymentPending => "Payment is still pending authoritative provider confirmation."
  | .paymentFailed => "The authoritative payment attempt failed and may be retried."
  | .paidNeedsReview => "Payment was received but the reservation requires Finance review."
  | .notFound => "The requested booking resource was not found."
  | .bookingUnavailable => "Direct booking is temporarily unavailable for this property."

def refusal (code : DirectBookingErrorCode) : Failure := .directBooking code (publicMessage code)

def throwUnavailableQuote : Failure → Failure
  | .validation field m =>
    if ["resource_category_id", "resource_id", "rate_plan_id", "program_id", "adults",
      "ends_at"].contains field then refusal .unavailable else .validation field m
  | e => e

def throwUnavailableOrStaleHold : Failure → Failure
  | .validation _ m =>
    if ProcessProviderEvent.strContains m "expired" || ProcessProviderEvent.strContains m "integrity"
    then refusal .quoteStale else refusal .unavailable
  | .allocationConflict _ _ _ => refusal .unavailable
  | e => e

def missingHold : Failure := .directBooking .holdExpired
  "The authoritative reservation hold is missing or expired."

end Failures

section Quoting

def linkedQuote (quoteId : ℕ) (o : DirectBookingOrder) : DirectBookingOrder :=
  { o with bookingQuoteId := some quoteId }

theorem keeps_linkedQuote (quoteId : ℕ) : Keeps (linkedQuote quoteId) := fun _ => rfl

def saveOrder (i : ℕ) (f : DirectBookingOrder → DirectBookingOrder) (hf : Keeps f) : Tx Unit :=
  modify fun db => { db with orders := db.orders.update i f hf }

def quote (order : DirectBookingOrder) (input : BookingQuoteService.BookingInput)
    (expectedVersion : ℤ) (retryIdentity : String) : Tx TransitionResult := do
  reject (order.state ≠ started ∨ order.stateVersion ≠ expectedVersion)
    (.directBooking .conflict "Refresh the booking before requesting another quote.")
  let q ← rethrow throwUnavailableQuote (BookingQuoteService.create input)
  saveOrder order.id (linkedQuote q.id) (keeps_linkedQuote _)
  transition order.id quoted pricing expectedVersion ("quote:" ++ retryIdentity)

end Quoting

section Guests

inductive GuestType
  | adult | child | infant
deriving DecidableEq

structure Companion where
  firstName : String
  lastName : Option String
  guestType : GuestType

def companionGuest (c : Companion) (i : ℕ) : Guest where
  id := i
  firstName := trim c.firstName
  lastName := trimmed? c.lastName
  email := none
  phone := none
  language := none
  dietary := none

def counted (companions : List Companion) (type : GuestType) : ℤ :=
  (companions.filter fun c => c.guestType == type).length

def assertCompanionOccupancy (q : BookingQuote) (companions : List Companion) :
    Except Failure Unit :=
  refuse (companions.isEmpty = false ∧ ¬ (counted companions .adult = max 0 (q.adults - 1) ∧
      counted companions .child = q.children ∧ counted companions .infant = q.infants))
    (.validation "companions" ("Companion types must exactly match the quoted occupancy when " ++
      "companion details are supplied."))

def createCompanions : List Companion → Tx (List ℕ)
  | [] => pure []
  | c :: companions => do
    let db ← get
    set { db with guests := db.guests.insert (companionGuest c) }
    let ids ← createCompanions companions
    pure (db.guests.next :: ids)

end Guests

section Requirements

def hasTraits (q : ProgramResourceRequirement) : Bool :=
  ResourceSuggestionService.traits q.capabilities != [] ||
    ResourceSuggestionService.traits q.languages != []

def suggested? (db : Database) (r : Reservation) (q : ProgramResourceRequirement)
    (required : ℕ) : Option ℕ :=
  (db.catalogue.category? q.resourceCategoryId).bind fun category =>
    (ResourceSuggestionService.suggest db category r.startsAt r.endsAt required
      (ResourceSuggestionService.traits q.capabilities)
      (ResourceSuggestionService.traits q.languages) r.propertyId).head?.map Resource.id

def requiredAllocation (r : Reservation) (q : ProgramResourceRequirement) (resourceId : Option ℕ)
    (required : ℕ) : Allocation where
  id := 0
  reservationId := r.id
  requestedCategoryId := if hasTraits q then none else some q.resourceCategoryId
  resourceId := resourceId
  serviceOccurrenceId := none
  status := .tentative
  startsAt := r.startsAt
  endsAt := r.endsAt
  quantity := required

def requiredResource (r : Reservation) (q : ProgramResourceRequirement) (required : ℕ) :
    Tx (Option ℕ) := do
  if hasTraits q then do
    let db ← get
    let resourceId ← orFail (suggested? db r q required)
      (.directBooking .unavailable "The selected program is unavailable.")
    pure (some resourceId)
  else pure none

def widened (quantity : ℕ) (a : Allocation) : Allocation := { a with quantity := quantity }

def widen (a : Allocation) (required : ℕ) : Tx Unit :=
  if a.quantity < required then do
    AllocationWorkflow.saveAllocation (widened required a)
    check fun db => Availability.assertAvailable db (widened required a)
  else pure ()

-- The loaded allocations are those from before the loop; one that was widened stays widened.
def provisionRequirement (r : Reservation) (loaded : List Allocation)
    (q : ProgramResourceRequirement) : Tx (List Allocation) := do
  let required := quantityForParty q (partySize r)
  match loaded.find? fun a => a.requestedCategoryId == some q.resourceCategoryId with
  | some existing => do
    reject (hasTraits q = true) (.directBooking .unavailable
      "The selected program cannot be allocated through public booking.")
    widen existing required
    pure (loaded.map fun a => if a.id = existing.id then widened (max a.quantity required) a else a)
  | none => do
    let resourceId ← requiredResource r q required
    let a ← AllocationWorkflow.insertAllocation (requiredAllocation r q resourceId required)
    check fun db => Availability.assertAvailable db a
    pure loaded

def provisionProgramRequirements (r : Reservation) : Tx Unit := do
  let db ← get
  match program? db r with
  | none => pure ()
  | some program => do
    let _ ← program.requirements.foldlM (provisionRequirement r) (db.allocationsOf r.id)

end Requirements

section Holding

structure HoldInput where
  guest : CommitBookingQuote.GuestData
  companions : List Companion := []
  contact : String
  contactChecksum : String
  secrets : Secrets

def assertCurrentQuote (q : BookingQuote) : Tx Unit := do
  let db ← get
  reject (db.isFuture q.expiresAt = false ∨ q.checksum ≠ BookingQuoteService.checksumFor q)
    (refusal .quoteStale)

def holdMinutes (setting : DirectBookingPropertySetting) : ℤ :=
  max 1 (min setting.initialHoldMinutes setting.maximumHoldMinutes)

def linkedReservation (reservationId : ℕ) (input : HoldInput) (o : DirectBookingOrder) :
    DirectBookingOrder :=
  { o with
    reservationId := some reservationId
    guestContact := some input.contact
    guestContactChecksum := some input.contactChecksum }

theorem keeps_linkedReservation (reservationId : ℕ) (input : HoldInput) :
    Keeps (linkedReservation reservationId input) := fun _ => rfl

def holdReservation (setting : DirectBookingPropertySetting) (quoteId : ℕ) (input : HoldInput)
    (companionIds : List ℕ) : Tx Reservation := do
  let r ← rethrow throwUnavailableOrStaleHold
    (CommitBookingQuote.handle quoteId none input.guest companionIds none)
  let db ← get
  let expiresAt := db.clock + 60 * holdMinutes setting
  set { db with reservations := db.reservations.update r.id (heldUntil expiresAt) }
  provisionProgramRequirements r
  pure r

def hold (setting : DirectBookingPropertySetting) (order : DirectBookingOrder) (input : HoldInput)
    (expectedVersion : ℤ) (retryIdentity : String) : Tx TransitionResult := do
  reject (order.state ≠ quoted)
    (.directBooking .conflict "Refresh the booking before committing the hold.")
  reject (order.stateVersion ≠ expectedVersion) (refusal .quoteStale)
  let locked ← lockedOrder order.id
  let q ← lockedQuote locked.bookingQuoteId
  assertCurrentQuote q
  check fun _ => assertCompanionOccupancy q input.companions
  let companionIds ← createCompanions input.companions
  let r ← holdReservation setting q.id input companionIds
  saveOrder locked.id (linkedReservation r.id input) (keeps_linkedReservation _ _)
  let _ ← IssueDirectBookingPaymentRequest.provisionHeld locked.id q.id r.id input.secrets
  transition locked.id held inventory expectedVersion ("hold:" ++ retryIdentity)

end Holding

section Checkout

-- The order and its reservation agree on a hold that is still live.
def assertLiveHold (o : DirectBookingOrder) : Tx Reservation := do
  let db ← get
  let r ← orFail (o.reservationId.bind db.reservation?) .modelNotFound
  reject (r.status ≠ .hold ∨ r.holdExpiresAt.any db.isFuture = false ∨
    o.holdExpiresAt.any db.isFuture = false ∨ r.holdExpiresAt ≠ o.holdExpiresAt) missingHold
  pure r

def assertCheckoutOpen (order : DirectBookingOrder) : Tx Unit := do
  let db ← get
  let r ← orFail (order.reservationId.bind db.reservation?) (refusal .holdExpired)
  reject (order.state = expired ∨ order.holdExpiresAt.any db.isFuture = false ∨
    r.status ≠ .hold ∨ r.holdExpiresAt.any db.isFuture = false) (refusal .holdExpired)

def ensureDeposit (q : BookingQuote) (r : Reservation) : Tx Unit := do
  let db ← get
  if (deposit? db q r).isSome then pure ()
  else set (scheduled db q r)

def manualCheckout (order : DirectBookingOrder) (expectedVersion : ℤ) (retryIdentity : String) :
    Tx TransitionResult := do
  assertCheckoutOpen order
  let locked ← lockedOrder order.id
  let q ← lockedQuote locked.bookingQuoteId
  let r ← assertLiveHold locked
  ensureDeposit q r
  transition locked.id awaitingManualPayment paymentOrchestrator expectedVersion
    ("manual:" ++ retryIdentity)

def hostedCheckout (order : DirectBookingOrder) (expectedVersion : ℤ) (retryIdentity : String)
    (secrets : Secrets) : Tx Issued := do
  assertCheckoutOpen order
  IssueDirectBookingPaymentRequest.handle order.id expectedVersion ("request:" ++ retryIdentity)
    secrets

def wholeMinutes (seconds : ℤ) : ℤ := max 0 (seconds.tdiv 60)

def extension (setting : DirectBookingPropertySetting) (current : DirectBookingOrder)
    (checkoutExpiresAt : Option ℤ) : ℤ :=
  match checkoutExpiresAt, current.holdExpiresAt, current.heldAt with
  | some checkout, some holdExpiresAt, some heldAt =>
    if holdExpiresAt < checkout ∧ current.holdExtendedAt = none then
      min setting.checkoutExtensionMinutes
        (min (wholeMinutes (heldAt + 60 * setting.maximumHoldMinutes - holdExpiresAt))
          (wholeMinutes (checkout - holdExpiresAt)))
    else 0
  | _, _, _ => 0

-- The order is read after the provider has answered, before this transaction.
def extendHold (setting : DirectBookingPropertySetting) (current : DirectBookingOrder)
    (checkoutExpiresAt : Option ℤ) (retryIdentity : String) : Tx Unit :=
  if 0 < extension setting current checkoutExpiresAt then do
    let _ ← transition current.id paymentPending paymentOrchestrator current.stateVersion
      ("extend:" ++ retryIdentity)
      [("hold_extension_minutes", .int (extension setting current checkoutExpiresAt))]
  else pure ()

def retryManually (order : DirectBookingOrder) (expectedVersion : ℤ) (retryIdentity : String) :
    Tx TransitionResult := do
  reject (order.state ≠ evidenceRejected)
    (.directBooking .conflict "This payment cannot be retried from its current state.")
  let locked ← lockedOrder order.id
  let _ ← assertLiveHold locked
  transition locked.id awaitingManualPayment paymentOrchestrator expectedVersion
    ("retry-manual:" ++ retryIdentity)

def retryPayment (order : DirectBookingOrder) (expectedVersion : ℤ) (retryIdentity : String)
    (secrets : Secrets) : Tx Issued := do
  reject (order.state ≠ paymentFailed)
    (.directBooking .conflict "This payment cannot be retried from its current state.")
  IssueDirectBookingPaymentRequest.handle order.id expectedVersion
    ("retry-request:" ++ retryIdentity) secrets

-- What the transaction of a submitted transfer proof does besides storing the proof.
def evidenceAccepted (order : DirectBookingOrder) (expectedVersion : ℤ) (retryIdentity : String) :
    Tx Deposit := do
  reject (order.state ≠ awaitingManualPayment ∨ order.stateVersion ≠ expectedVersion)
    (.directBooking .conflict "Manual evidence is not accepted from the current booking state.")
  let locked ← lockedOrder order.id
  let r ← assertLiveHold locked
  let db ← get
  let deposit ← orFail (db.deposits.oldest?
    (fun d => d.reservationId == r.id && d.status == .due) Deposit.dueAt) .modelNotFound
  let _ ← transition locked.id evidencePending guestEvidence expectedVersion
    ("evidence:" ++ retryIdentity) [("reason_code", .string "private_evidence_accepted")]
  pure deposit

end Checkout

section Recovery

def repriced (q : BookingQuote) (propertyId : ℕ) (arrival departure : ℤ) :
    BookingQuoteService.BookingInput where
  propertyId := some propertyId
  ratePlanId := some q.ratePlanId
  resourceCategoryId := some q.resourceCategoryId
  resourceId := q.resourceId
  programId := q.programId
  startsAt := some arrival
  endsAt := some departure
  adults := q.adults
  children := q.children
  infants := q.infants
  optionalServices := q.inputs.optionalServices
  voucherId := q.inputs.voucherId
  promotionSessionHash := q.calculationSnapshot.promotionSessionHash
  amendmentOfReservationId := q.inputs.amendmentOfReservationId

def reprice (o : DirectBookingOrder) (propertyId : ℕ) (arrival departure : ℤ) :
    Tx (Option BookingQuote) := do
  match o.bookingQuoteId with
  | none => pure none
  | some i => do
    let db ← get
    let source ← orFail ((db.quotes.find? i).filter fun q => q.propertyId == propertyId)
      (refusal .unavailable)
    some <$> rethrow throwUnavailableQuote
      (BookingQuoteService.create (repriced source propertyId arrival departure))

-- Dates come together or not at all.
def repriceFor (o : DirectBookingOrder) (propertyId : ℕ) (arrival departure : Option ℤ) :
    Tx (Option BookingQuote) :=
  match arrival, departure with
  | some a, some d => reprice o propertyId a d
  | none, none => pure none
  | _, _ => throw (.validation "arrival_date"
    "Arrival and departure are required together when changing recovery dates.")

def reopened (q : Option BookingQuote) (o : DirectBookingOrder) : DirectBookingOrder :=
  { o with
    bookingQuoteId := (q.map BookingQuote.id).orElse fun _ => o.bookingQuoteId
    paymentRequestId := none
    quoteExpiresAt := q.map BookingQuote.expiresAt
    holdExpiresAt := none
    checkoutExpiresAt := none }

theorem keeps_reopened (q : Option BookingQuote) : Keeps (reopened q) := fun _ => rfl

def recover (propertyId : ℕ) (reference recoveryToken : String) (expectedVersion : ℤ)
    (retryIdentity : String) (arrival departure : Option ℤ)
    (session : DirectBookingTokenService.Session) : Tx TransitionResult := do
  let order ← DirectBookingTokenService.recover recoveryToken propertyId session
  reject (reference ≠ order.publicReference ∨ order.state ≠ expired)
    DirectBookingTokenService.unauthenticated
  let q ← repriceFor order propertyId arrival departure
  saveOrder order.id (reopened q) (keeps_reopened _)
  transition order.id started recovery expectedVersion ("recover:" ++ retryIdentity)
    [("reason_code", .string "session_recovered_for_repricing")]

end Recovery
end DirectBookingApiService

namespace MaintainDirectBookingOrders
open Schema Transaction DirectBookingOrderState DirectBookingTransitionAuthority
open DirectBookingStateMachine

def lapsed (now : ℤ) (t : Option ℤ) : Bool := t.any fun e => decide (e ≤ now)

def due (now : ℤ) (o : DirectBookingOrder) : Bool :=
  match o.state with
  | started => decide (o.sessionExpiresAt ≤ now)
  | quoted => lapsed now o.quoteExpiresAt
  | held | paymentPending | awaitingManualPayment | paymentFailed | evidenceRejected
  | evidencePending => lapsed now o.holdExpiresAt
  | _ => false

def outcome (o : DirectBookingOrder) : DirectBookingOrderState × String :=
  if o.state = evidencePending then (financeReview, "late_manual_evidence_review")
  else (expired, "lifecycle_expired")

-- One order of the batch, as it was read at `readAt`.
def expire (readAt : ℤ) (order : DirectBookingOrder) : Tx Unit :=
  if due readAt order then do
    let _ ← transition order.id (outcome order).1 scheduler order.stateVersion
      ("expire:" ++ order.publicReference ++ ":" ++ toString order.stateVersion)
      [("scheduler_outcome", .string (outcome order).2)]
  else pure ()

def scrub (order : DirectBookingOrder) (purged : String) : Tx Unit := do
  let locked ← lockedOrder order.id
  let db ← get
  if scrubbable db locked then do
    let _ ← recordPiiScrubbed locked.id
      ("cleanup:" ++ locked.publicReference ++ ":" ++ toString locked.stateVersion) purged
  else pure ()

end MaintainDirectBookingOrders
