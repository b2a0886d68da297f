import LodgeOps.DirectBooking.BookingApi
import LodgeOps.Payments.Evidence

namespace DirectBookingManualReviewReconciler
open Schema Transaction DirectBookingOrderState DirectBookingTransitionAuthority
open DirectBookingStateMachine
open ReviewPaymentEvidence (PaymentEvidence)
open DirectBookingPaymentReconciler (reasoned)

def order? (db : Database) (evidence : PaymentEvidence) : Option DirectBookingOrder :=
  PaymentService.orderOf? db evidence.reservationId

def prepareApproval (evidence : PaymentEvidence) : Tx Unit := do
  let db ← get
  match order? db evidence with
  | none => pure ()
  | some order =>
    if order.state ≠ evidencePending then pure ()
    else do
      let _ ← transition order.id financeReview evidenceScanner order.stateVersion
        ("evidence-scanned:" ++ uuidText evidence.id) (reasoned "private_evidence_scanned")
      pure ()

-- A request that is still open is paid by the transfer.
def settleRequest (order : DirectBookingOrder) (payment : Option Payment) : Tx Unit := do
  let db ← get
  match payment, order.paymentRequestId.bind db.paymentRequests.find? with
  | some p, some request =>
    if request.state = .opened ∨ request.state = .processing then
      PaymentService.settleRequest request.id p.id (p.processedAt.getD db.clock)
    else pure ()
  | _, _ => pure ()

def lateTask (db : Database) (order : DirectBookingOrder) (i : ℕ) : OperationalTask where
  id := i
  propertyId := order.propertyId
  reservationId := order.reservationId
  title := "Review late manual payment " ++ order.publicReference
  priority := 100
  description := "Finance accepted bank-transfer evidence after the inventory hold ended. " ++
    "Recover inventory or execute and record a refund."
  dueAt := db.clock
  generatedFrom := "direct_booking_late_manual_payment"

def reviewLate (order : DirectBookingOrder) : Tx Unit := do
  let db ← get
  if (db.operationalTasks.first? fun t => t.propertyId == order.propertyId &&
      t.reservationId == order.reservationId &&
      t.title == "Review late manual payment " ++ order.publicReference).isSome
  then pure ()
  else set { db with operationalTasks := db.operationalTasks.insert (lateTask db order) }

def confirmable (db : Database) (order : DirectBookingOrder) (r : Reservation) : Bool :=
  r.status == .hold && r.holdExpiresAt.any db.isFuture && order.holdExpiresAt.any db.isFuture

def documents (order : DirectBookingOrder) (reservationId : ℕ) (payment : Option Payment) :
    Tx Unit := do
  let r ← lockedReservation reservationId
  PaymentService.requestDocument r .reservationConfirmation
    ("direct-booking-confirmation:" ++ toString order.id) none
  match payment with
  | none => pure ()
  | some p =>
    PaymentService.requestDocument r .paymentReceipt
      ("manual-payment-receipt:" ++ toString p.id) (some p.id)

def confirm (order : DirectBookingOrder) (evidence : PaymentEvidence) (r : Reservation)
    (payment : Option Payment) : Tx Unit := do
  ReservationService.confirm r.id
  let _ ← transition order.id confirmed finance order.stateVersion
    ("manual-confirmed:" ++ uuidText evidence.id)
    (reasoned "finance_approved_payment_and_inventory")
  documents order r.id payment

def approved (evidence : PaymentEvidence) : Tx Unit := do
  let db ← get
  match order? db evidence with
  | none => pure ()
  | some order =>
    if order.state ≠ financeReview then pure ()
    else do
      let payment := evidence.paymentId.bind db.payments.find?
      settleRequest order payment
      let db ← get
      match (order.reservationId.bind db.reservation?).filter (confirmable db order) with
      | none => reviewLate order
      | some r => confirm order evidence r payment

def rejected (evidence : PaymentEvidence) : Tx Unit := do
  let db ← get
  match order? db evidence with
  | none => pure ()
  | some order =>
    if ¬ (order.state = evidencePending ∨ order.state = financeReview) then pure ()
    else do
      let _ ← transition order.id evidenceRejected
        (if order.state = evidencePending then evidenceScanner else finance) order.stateVersion
        ("manual-rejected:" ++ uuidText evidence.id) (reasoned "finance_rejected_evidence")
      pure ()

end DirectBookingManualReviewReconciler

namespace DirectBookingApiService
open Schema Transaction
open ReviewPaymentEvidence (PaymentEvidence ReviewTx onBooks)

def submitted (deposit : Deposit) (i : ℕ) : PaymentEvidence where
  id := i
  reservationId := deposit.reservationId
  amountMinor := some deposit.amountMinor
  currency := some deposit.currency

theorem names_submitted (deposit : Deposit) : Names (submitted deposit) := fun _ => rfl

def manualEvidence (order : DirectBookingOrder) (expectedVersion : ℤ) (retryIdentity : String) :
    ReviewTx Unit := do
  let deposit ← onBooks (evidenceAccepted order expectedVersion retryIdentity)
  modify fun s => { s with
    submissions := s.submissions.insert (submitted deposit) (names_submitted _) }

end DirectBookingApiService
