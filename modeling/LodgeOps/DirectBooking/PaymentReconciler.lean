import LodgeOps.Payments.Frames

namespace DirectBookingPaymentReconciler
open Schema Transaction DirectBookingOrderState DirectBookingTransitionAuthority
open DirectBookingStateMachine

section Operations

def lockedOrder? (attempt : PaymentAttempt) : Tx (Option DirectBookingOrder) := do
  let db ← get
  pure (PaymentService.orderOf? db attempt.reservationId)

def paymentOf? (db : Database) (attemptId : ℕ) : Option ℕ :=
  (db.payments.first? fun p => p.metadata.paymentAttemptId == some attemptId).map Payment.id

def task (db : Database) (o : DirectBookingOrder) (attempt : PaymentAttempt) (reason : String)
    (i : ℕ) : OperationalTask where
  id := i
  propertyId := o.propertyId
  reservationId := o.reservationId
  title := "Review paid direct booking " ++ o.publicReference
  priority := 100
  description := "Finance must reconcile or refund an authoritative provider payment that could " ++
    "not safely confirm inventory."
  dueAt := db.clock
  generatedFrom := "direct_booking_paid_needs_review"
  paymentAttemptId := some attempt.id
  paymentId := paymentOf? db attempt.id
  safeReasonCode := some reason

def financeTask (o : DirectBookingOrder) (attempt : PaymentAttempt) (reason : String) : Tx Unit := do
  let db ← get
  if (db.operationalTasks.first? fun t => t.propertyId == o.propertyId &&
      t.reservationId == o.reservationId &&
      t.title == "Review paid direct booking " ++ o.publicReference).isSome
  then pure ()
  else set { db with operationalTasks := db.operationalTasks.insert (task db o attempt reason) }

def reasoned (reason : String) : SafeMetadata := [("reason_code", .string reason)]

def normalized (o : DirectBookingOrder) (attempt : PaymentAttempt) : Tx DirectBookingOrder :=
  if o.state = paymentFailed then
    TransitionResult.order <$> transition o.id paymentPending paymentOrchestrator o.stateVersion
      ("late-payment-normalize:" ++ uuidText attempt.id)
      (reasoned "authoritative_late_payment_detected")
  else pure o

def flagged (o : DirectBookingOrder) (attempt : PaymentAttempt) (reason : String) :
    Tx DirectBookingOrder :=
  if o.state = paymentPending ∨ o.state = expired then
    TransitionResult.order <$> transition o.id paidNeedsReview providerLookup o.stateVersion
      ("provider-review:" ++ uuidText attempt.id) (reasoned reason)
  else pure o

def markNeedsReview (o : DirectBookingOrder) (attempt : PaymentAttempt) (reason : String) :
    Tx Unit := do
  let o ← normalized o attempt
  let o ← flagged o attempt reason
  financeTask o attempt reason

-- The order and the attempt agree on a hold that is still live.
def confirmable (db : Database) (o : DirectBookingOrder) (attempt : PaymentAttempt)
    (r : Reservation) : Bool :=
  o.state == paymentPending && o.paymentRequestId == some attempt.paymentRequestId &&
    r.status == .hold && r.holdExpiresAt.any db.isFuture && o.holdExpiresAt.any db.isFuture &&
      r.holdExpiresAt == o.holdExpiresAt

def documents (o : DirectBookingOrder) (attempt : PaymentAttempt) (reservationId : ℕ) :
    Tx Unit := do
  let r ← lockedReservation reservationId
  PaymentService.requestDocument r .reservationConfirmation
    ("direct-booking-confirmation:" ++ toString o.id) none
  let request ← PaymentService.lockedRequest attempt.paymentRequestId
  let db ← get
  match request.paymentId.bind db.payments.find? with
  | none => pure ()
  | some payment =>
    PaymentService.requestDocument r .paymentReceipt
      ("provider-payment-receipt:" ++ toString payment.id) (some payment.id)

def settle (o : DirectBookingOrder) (attempt' : PaymentAttempt) (r : Reservation) : Tx Unit := do
  let paid ← transition o.id paidPendingConfirmation providerLookup o.stateVersion
    ("provider-paid:" ++ uuidText attempt'.id) (reasoned "authoritative_provider_approval")
  match ← attempt (ReservationService.confirm r.id) with
  | .error _ => do
    let _ ← transition paid.order.id paidNeedsReview reservation paid.order.stateVersion
      ("confirmation-review:" ++ uuidText attempt'.id) (reasoned "reservation_confirmation_failed")
    financeTask paid.order attempt' "reservation_confirmation_failed"
  | .ok _ => do
    let _ ← transition paid.order.id confirmed reservation paid.order.stateVersion
      ("provider-confirmed:" ++ uuidText attempt'.id)
      (reasoned "authoritative_payment_and_inventory_confirmed")
    documents o attempt' r.id

def approved (attempt : PaymentAttempt) : Tx Unit := do
  match ← lockedOrder? attempt with
  | none => pure ()
  | some o =>
    if o.state = confirmed then pure ()
    else do
      let db ← get
      match (o.reservationId.bind db.reservation?).filter (confirmable db o attempt) with
      | none => markNeedsReview o attempt "late_or_inventory_unavailable"
      | some r => settle o attempt r

def needsReview (attempt : PaymentAttempt) (reason : String) : Tx Unit := do
  match ← lockedOrder? attempt with
  | none => pure ()
  | some o => markNeedsReview o attempt reason

def failed (attempt : PaymentAttempt) (reason : String) : Tx Unit := do
  match ← lockedOrder? attempt with
  | none => pure ()
  | some o =>
    if o.state ≠ paymentPending then pure ()
    else do
      let _ ← transition o.id paymentFailed providerLookup o.stateVersion
        ("provider-failed:" ++ uuidText attempt.id ++ ":" ++ reason) (reasoned reason)
      pure ()

def refunded (refund' : ProviderRefund) : Tx Unit := do
  let db ← get
  let change ← orFail (db.changes.find? refund'.reservationChangeId) .modelNotFound
  match PaymentService.orderOf? db change.reservationId with
  | none => pure ()
  | some o =>
    if o.state = .refunded ∨ ¬ (o.state = confirmed ∨ o.state = paidNeedsReview) then pure ()
    else if (db.payments.find? refund'.paymentId).any (fun p => p.status == .refunded) then do
      let _ ← transition o.id .refunded refund o.stateVersion
        ("provider-refunded:" ++ uuidText refund'.id)
        (reasoned "authoritative_provider_refund_recovered")
      pure ()
    else pure ()

end Operations

section Frames
variable {γ : Type} {g : Database → γ} {db : Database} {o : DirectBookingOrder}
variable {attempt' : PaymentAttempt} {reason : String} {r : Reservation}

-- What `g` sees lies outside of what the reconciler writes.
structure Overlooks (g : Database → γ) : Prop extends Blind g where
  stay : ∀ t u, t.besidesStay = u.besidesStay → g t = g u
  documents : ∀ db ds, g { db with documentRequests := ds } = g db
  tasks : ∀ db ts, g { db with operationalTasks := ts } = g db

theorem financeTask_spares (hg : Overlooks g) : Spares g (financeTask o attempt' reason) db :=
  Spares.get_bind (Spares.ite (fun _ => Spares.pure) fun _ => Spares.set (hg.tasks _ _))

theorem markNeedsReview_spares (hg : Overlooks g) :
    Spares g (markNeedsReview o attempt' reason) db := by
  refine Spares.bind (Spares.ite (fun _ => ?_) fun _ => Spares.pure) fun _ _ _ => ?_
  · exact Spares.map (transition_spares hg.toBlind)
  · refine Spares.bind (Spares.ite (fun _ => ?_) fun _ => Spares.pure) fun _ _ _ => ?_
    · exact Spares.map (transition_spares hg.toBlind)
    · exact financeTask_spares hg

theorem documents_spares (hg : Overlooks g) {i : ℕ} : Spares g (documents o attempt' i) db := by
  refine Spares.read_bind reads_lockedReservation fun _ =>
    Spares.bind (PaymentService.requestDocument_spares hg.documents) fun _ _ _ =>
      Spares.read_bind PaymentService.reads_lockedRequest fun _ => Spares.get_bind ?_
  split
  · exact Spares.pure
  · exact PaymentService.requestDocument_spares hg.documents

theorem settle_spares (hg : Overlooks g) : Spares g (settle o attempt' r) db := by
  refine Spares.bind (transition_spares hg.toBlind) fun paid _ _ => Spares.bind
    (Spares.attempt (ReservationService.confirm_spares.mono hg.stay)) fun x _ _ => ?_
  cases x with
  | error e => exact Spares.bind (transition_spares hg.toBlind) fun _ _ _ => financeTask_spares hg
  | ok u => exact Spares.bind (transition_spares hg.toBlind) fun _ _ _ => documents_spares hg

theorem lockedOrder?_bind {f : Option DirectBookingOrder → Tx Unit}
    (h : Spares g (f (PaymentService.orderOf? db attempt'.reservationId)) db) :
    Spares g (lockedOrder? attempt' >>= f) db := by
  intro u t hc
  obtain ⟨_, _, hr, hf⟩ := commits_bind.mp hc
  simp only [lockedOrder?, commits_bind, commits_get, commits_pure] at hr
  obtain ⟨_, _, ⟨rfl, rfl⟩, rfl, rfl⟩ := hr
  exact h u t hf

theorem approved_spares (hg : Overlooks g) : Spares g (approved attempt') db := by
  refine lockedOrder?_bind ?_
  split
  · exact Spares.pure
  · refine Spares.ite (fun _ => Spares.pure) fun _ => Spares.get_bind ?_
    split
    · exact markNeedsReview_spares hg
    · exact settle_spares hg

theorem needsReview_spares (hg : Overlooks g) : Spares g (needsReview attempt' reason) db := by
  refine lockedOrder?_bind ?_
  split
  · exact Spares.pure
  · exact markNeedsReview_spares hg

theorem failed_spares (hg : Overlooks g) : Spares g (failed attempt' reason) db := by
  refine lockedOrder?_bind ?_
  split
  · exact Spares.pure
  · exact Spares.ite (fun _ => Spares.pure) fun _ =>
      Spares.bind (transition_spares hg.toBlind) fun _ _ _ => Spares.pure

end Frames
end DirectBookingPaymentReconciler
