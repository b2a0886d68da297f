import LodgeOps.Ledger.Refunds
import LodgeOps.Inventory.AllocationWorkflow

namespace CloseReservationWithPolicy
open Schema Transaction AllocationWorkflow

section Fees

def localDay (db : Database) (propertyId : ℕ) (t : ℤ) : ℤ :=
  (t + db.catalogue.timezone propertyId t) / 86400

def daysBeforeArrival (db : Database) (r : Reservation) : ℤ :=
  max 0 (localDay db r.propertyId r.startsAt - localDay db r.propertyId db.clock)

def tier? (db : Database) (r : Reservation) : Option CancellationTier :=
  (r.cancellationTiers.insertionSort fun a b => a.daysBeforeArrival ≤ b.daysBeforeArrival).find?
    fun t => decide (daysBeforeArrival db r ≤ t.daysBeforeArrival)

def tierFee (r : Reservation) (t : CancellationTier) : ℤ :=
  max ((r.totalMinor * t.retainedBasisPoints + 9999).tdiv 10000) t.minimumFeeMinor

def feeMinor (db : Database) (r : Reservation) : ℤ :=
  min r.totalMinor (max 0 (((tier? db r).map (tierFee r)).getD 0))

end Fees

def closureLabel (target : ReservationStatus) : String :=
  if target = .noShow then "No-show" else "Cancellation"

def waiverReason (target : ReservationStatus) (reason : String) : String :=
  (target.value.replace "_" " ").capitalize ++ ": " ++ reason

def adjustFolio (r : Reservation) (target : ReservationStatus) (fee : ℤ)
    (metadata : LineMetadata) (actorId : Option ℕ) : Tx Unit :=
  if 0 < r.totalMinor - fee then do
    let _ ← Folio.append r .adjustment (closureLabel target ++ " policy adjustment") 1000
      (fee - r.subtotalMinor) actorId metadata (-r.taxMinor)
    pure ()
  else pure ()

def tierMetadata (db : Database) (r : Reservation) : LineMetadata where
  policyTier := tier? db r
  daysBeforeArrival := some (daysBeforeArrival db r)

def closed (target : ReservationStatus) (reason : String) (r : Reservation) : Reservation :=
  { r with
    status := target
    closureReason := some reason
    holdExpiresAt := none
    revision := r.revision + 1 }

def releasedOf (i : ℕ) (allocations : Table Allocation) : Table Allocation :=
  allocations.updateWhere (fun a => a.reservationId == i && a.status != .released) fun a =>
    { a with status := .released }

def openDeposit (i : ℕ) (d : Deposit) : Bool := d.reservationId == i && d.status == .due

def waivedOf (i : ℕ) (reason : String) (deposits : Table Deposit) : Table Deposit :=
  deposits.updateWhere (openDeposit i) fun d =>
    { d with status := .waived, waiverReason := some reason }

def paidMinor (db : Database) (i : ℕ) : ℤ :=
  db.payments.total fun p =>
    if p.reservationId = i ∧ p.status = .succeeded then p.amountMinor else 0

def completedRefunds (db : Database) (i : ℕ) : ℤ :=
  db.changes.total fun c =>
    if c.reservationId = i ∧ RequestRefund.isCompletion c = true then c.amountMinor else 0

def refundRequirement (db : Database) (r : Reservation) : ℤ :=
  max 0 (paidMinor db r.id - completedRefunds db r.id - feeMinor db r)

def closureMetadata (db : Database) (r : Reservation) : ClosureMetadata where
  policyTier := tier? db r
  daysBeforeArrival := daysBeforeArrival db r
  releasedValueMinor := r.totalMinor - feeMinor db r
  waivedDeposits := (db.deposits.select (openDeposit r.id)).length
  paidMinor := paidMinor db r.id
  refundRequirementMinor := refundRequirement db r

def closingChange (r : Reservation) (target : ReservationStatus) (fee : ℤ) (reason : String)
    (metadata : ClosureMetadata) (now : ℤ) (i : ℕ) : ReservationChange where
  id := i
  reservationId := r.id
  type := if target = .noShow then .noShow else .cancellation
  status := .completed
  currency := r.currency
  amountMinor := fee
  reason := some reason
  closure := some metadata
  occurredAt := now

def handle (reservationId : ℕ) (target : ReservationStatus) (reason : String)
    (actorId : Option ℕ) : Tx Unit := do
  reject (¬ (target = .cancelled ∨ target = .noShow))
    (.logic "Policy closure only supports cancellation and no-show.")
  let locked ← lockedReservation reservationId
  if locked.status = target then pure ()
  else do
    reject (locked.status.canTransitionTo target = false) (.validation "status"
      ("The reservation cannot transition from " ++ locked.status.value ++ " to " ++
        target.value ++ "."))
    reject (trim reason = "") (.commercialWorkflow
      "A reason is required when cancelling a reservation or recording a no-show.")
    let db ← get
    adjustFolio locked target (feeMinor db locked) (tierMetadata db locked) actorId
    modify fun s => { s with
      reservations := s.reservations.update locked.id (closed target (trim reason))
      allocations := releasedOf locked.id s.allocations
      deposits := waivedOf locked.id (waiverReason target (trim reason)) s.deposits
      changes := s.changes.insert (closingChange locked target (feeMinor db locked) (trim reason)
        (closureMetadata db locked) db.clock) }

section Commits
variable {db db' : Database} {r : Reservation} {target : ReservationStatus} {fee : ℤ} {i : ℕ}
variable {metadata : LineMetadata} {actorId : Option ℕ} {reason : String}

def policyDraft (r : Reservation) (target : ReservationStatus) (fee : ℤ) (metadata : LineMetadata)
    (actorId : Option ℕ) : Folio.LineDraft where
  type := .adjustment
  description := closureLabel target ++ " policy adjustment"
  unitAmountMinor := fee - r.subtotalMinor
  actorId := actorId
  taxAmountMinor := -r.taxMinor
  metadata := { metadata with includedInBookedTotal := false }

theorem commits_adjustFolio (h : Commits (adjustFolio r target fee metadata actorId) db () db') :
    (fee < r.totalMinor ∧ r.folioStatus ≠ .closed ∧
        db' = Folio.posted db r (policyDraft r target fee metadata actorId)) ∨
      (r.totalMinor ≤ fee ∧ db' = db) := by
  simp only [adjustFolio, Folio.append, commits_ite, commits_bind, commits_check, commits_reject,
    commits_pure, Folio.commits_createLine, Folio.assertOpen, refuse_eq_ok] at h
  obtain ⟨hlt, _, _, ⟨_, _, ⟨ho, rfl⟩, _, _, ⟨_, rfl⟩, _, rfl⟩, _, rfl⟩ | ⟨hle, _, rfl⟩ := h
  · exact Or.inl ⟨by omega, ho, rfl⟩
  · exact Or.inr ⟨by omega, rfl⟩

def settledState (db t : Database) (r : Reservation) (target : ReservationStatus)
    (reason : String) : Database :=
  { t with
    reservations := t.reservations.update r.id (closed target reason)
    allocations := releasedOf r.id t.allocations
    deposits := waivedOf r.id (waiverReason target reason) t.deposits
    changes := t.changes.insert
      (closingChange r target (feeMinor db r) reason (closureMetadata db r) db.clock) }

structure Closes (db db' : Database) (r : Reservation) (target : ReservationStatus)
    (reason : String) (actorId : Option ℕ) : Prop where
  fresh : r.status ≠ target
  allowed : r.status.canTransitionTo target = true
  spoken : reason ≠ ""
  writes : ∃ t, Commits (adjustFolio r target (feeMinor db r) (tierMetadata db r) actorId) db () t ∧
    db' = settledState db t r target reason

theorem commits_handle (h : Commits (handle i target reason actorId) db () db') :
    (target = .cancelled ∨ target = .noShow) ∧ ∃ r, db.reservation? i = some r ∧
      ((r.status = target ∧ db' = db) ∨ Closes db db' r target (trim reason) actorId) := by
  simp only [handle, commits_bind, commits_reject, commits_lockedReservation, commits_ite,
    commits_pure, commits_get, commits_modify] at h
  obtain ⟨_, _, ⟨htarget, rfl⟩, r, _, ⟨hr, rfl⟩, h⟩ := h
  refine ⟨not_not.mp htarget, r, hr, ?_⟩
  rcases h with ⟨hs, _, rfl⟩ | ⟨hs, _, _, ⟨hok, rfl⟩, _, _, ⟨hreason, rfl⟩, _, _, ⟨rfl, rfl⟩, _, t,
    hfolio, rfl⟩
  · exact Or.inl ⟨hs, rfl⟩
  · exact Or.inr ⟨hs, by simpa using hok, hreason, t, hfolio, rfl⟩

end Commits
end CloseReservationWithPolicy
