import LodgeOps.Booking.Commitment
import LodgeOps.Booking.PaymentSchedule

namespace AmendReservation
open Schema Transaction BookingQuoteService AllocationWorkflow

section Guards

def assertAmendable (db : Database) (r : Reservation) (q : BookingQuote) : Except Failure Unit := do
  refuse (¬ (r.status = .hold ∨ r.status = .confirmed))
    (.validation "status" "Only held or confirmed reservations may be amended.")
  refuse (q.status ≠ .pending ∨ db.isFuture q.expiresAt = false)
    (rateFailure "The amendment quote expired. Refresh it and try again.")
  refuse (q.propertyId ≠ r.propertyId ∨ q.currency ≠ r.currency)
    (rateFailure "An amendment cannot change property or currency.")
  refuse (q.checksum ≠ checksumFor q)
    (rateFailure "The amendment quote failed its integrity check.")

def standing (db : Database) (r : Reservation) : List Allocation :=
  (db.allocationsOf r.id).filter fun a => a.status != .released

def isStay (db : Database) (a : Allocation) : Bool :=
  (a.requestedCategoryId.bind db.catalogue.category?).any ResourceCategory.countsAsStay

def assertContained (db : Database) (r : Reservation) (q : BookingQuote) : Except Failure Unit := do
  refuse (((standing db r).filter (isStay db)).length ≠ 1) (.validation "reservation"
    "A guarded amendment requires exactly one active stay allocation.")
  refuse (((standing db r).filter fun a => !isStay db a).any (fun a =>
      decide (a.startsAt < q.startsAt ∨ q.endsAt < a.endsAt)) = true)
    (.validation "starts_at" "The amended stay must contain every retained activity allocation.")

end Guards

section Writes

def releaseStay (a : Allocation) : Tx Unit := saveAllocation { a with status := .released }

def replaceStay (r : Reservation) (q : BookingQuote) : Tx Allocation := do
  let db ← get
  check fun _ => assertContained db r q
  ((standing db r).filter (isStay db)).forM releaseStay
  CommitBookingQuote.allocate q r (if r.status = .confirmed then .confirmed else .tentative)

def postDelta (r : Reservation) (q : BookingQuote) (actorId : Option ℕ) : Tx Unit :=
  if q.totalMinor - r.totalMinor ≠ 0 then do
    let _ ← Folio.append r .adjustment "Reservation amendment · re-priced stay" 1000
      (q.subtotalMinor - r.subtotalMinor) actorId { amendmentQuoteId := some q.id }
      (q.taxMinor - r.taxMinor) true
    pure ()
  else pure ()

def amended (q : BookingQuote) (r : Reservation) : Reservation :=
  { r with
    programId := q.programId
    bookingQuoteId := some q.id
    startsAt := q.startsAt
    endsAt := q.endsAt
    adults := q.adults.toNat
    children := q.children.toNat
    infants := q.infants.toNat
    subtotalMinor := q.subtotalMinor
    taxMinor := q.taxMinor
    totalMinor := q.totalMinor
    depositPolicy := q.depositPolicySnapshot
    cancellationTiers := q.cancellationPolicySnapshot.getD []
    revision := r.revision + 1 }

def amendmentChange (r : Reservation) (q : BookingQuote) (replacementId : ℕ)
    (effects : PaymentEffects) (now : ℤ) (i : ℕ) : ReservationChange where
  id := i
  reservationId := r.id
  type := .amendment
  status := .completed
  currency := r.currency
  amountMinor := q.totalMinor - r.totalMinor
  amendment := some ⟨q.id, replacementId, q.totalMinor - r.totalMinor, effects⟩
  occurredAt := now

def supersededReason : String := "Superseded by reservation amendment"

end Writes

def amend (reservationId quoteId : ℕ) (actorId : Option ℕ) : Tx Reservation := do
  let locked ← lockedReservation reservationId
  let db ← get
  let lockedQuote ← orFail (db.quotes.find? quoteId) .modelNotFound
  check fun _ => assertAmendable db locked lockedQuote
  let replacement ← replaceStay locked lockedQuote
  postDelta locked lockedQuote actorId
  CommitBookingQuote.assertProgram lockedQuote.programId locked.propertyId
  modify fun s => { s with
    reservations := s.reservations.update locked.id (amended lockedQuote) }
  CommitBookingQuote.markCommitted lockedQuote.id locked.id
  let effects ← ReservationPaymentScheduleService.rebuild (amended lockedQuote locked)
    supersededReason
  modify fun s => { s with
    changes := s.changes.insert
      (amendmentChange locked lockedQuote replacement.id effects db.clock) }
  pure (amended lockedQuote locked)

def handle (reservationId : ℕ) (input : BookingInput) (actorId : Option ℕ) : Tx Reservation := do
  let r ← lockedReservation reservationId
  let quote ← createAmendment r input
  amend r.id quote.id actorId

section Commits
variable {db db' : Database} {r s : Reservation} {q : BookingQuote} {actor : Option ℕ} {i j : ℕ}

theorem assertAmendable_ok (h : assertAmendable db r q = .ok ()) :
    (r.status = .hold ∨ r.status = .confirmed) ∧ q.status = .pending ∧
      q.propertyId = r.propertyId ∧ q.currency = r.currency ∧ q.checksum = checksumFor q := by
  simp only [assertAmendable, bind_eq_ok, refuse_eq_ok] at h
  obtain ⟨_, hs, _, hp, _, hc, hsum⟩ := h
  rw [not_or, not_not, not_not] at hc
  exact ⟨not_not.mp hs, not_not.mp (not_or.mp hp).1, hc.1, hc.2, not_not.mp hsum⟩

theorem commits_releaseStay {a : Allocation} (h : Commits (releaseStay a) db () db') :
    db' = { db with allocations := db'.allocations } := by
  obtain ⟨_, _, rfl⟩ := Soundness.commits_saveAllocation.mp h
  rfl

theorem releaseStays_frame {as : List Allocation}
    (h : Commits (as.forM releaseStay) db () db') :
    db' = { db with allocations := db'.allocations } := by
  refine forM_invariant (I := fun s => s = { db with allocations := s.allocations }) ?_ rfl h
  intro a _ s s' hs hc
  rw [commits_releaseStay hc, hs]

theorem commits_replaceStay {a : Allocation} (h : Commits (replaceStay r q) db a db') :
    db' = { db with allocations := db'.allocations } := by
  simp only [replaceStay, commits_bind, commits_get, commits_check] at h
  obtain ⟨_, _, ⟨rfl, rfl⟩, _, _, ⟨_, rfl⟩, _, t, hrel, h⟩ := h
  have ht := releaseStays_frame hrel
  rw [CommitBookingQuote.commits_allocate h, ht]

def deltaDraft (r : Reservation) (q : BookingQuote) (actor : Option ℕ) : Folio.LineDraft where
  type := .adjustment
  description := "Reservation amendment · re-priced stay"
  unitAmountMinor := q.subtotalMinor - r.subtotalMinor
  actorId := actor
  taxAmountMinor := q.taxMinor - r.taxMinor
  metadata := { amendmentQuoteId := some q.id, includedInBookedTotal := true }

theorem commits_postDelta (h : Commits (postDelta r q actor) db () db') :
    (q.totalMinor ≠ r.totalMinor ∧ db' = Folio.posted db r (deltaDraft r q actor)) ∨
      (q.totalMinor = r.totalMinor ∧ db' = db) := by
  simp only [postDelta, Folio.append, commits_ite, commits_bind, commits_check, commits_reject,
    commits_pure, Folio.commits_createLine] at h
  obtain ⟨hne, _, _, ⟨_, _, ⟨_, rfl⟩, _, _, ⟨_, rfl⟩, _, rfl⟩, _, rfl⟩ | ⟨he, _, rfl⟩ := h
  · exact Or.inl ⟨fun he => hne (by omega), rfl⟩
  · exact Or.inr ⟨by omega, rfl⟩

-- An amendment re-prices the reservation, posts the difference and rebuilds the schedule.
structure Amended (db db' : Database) (r : Reservation) (q : BookingQuote)
    (actor : Option ℕ) : Prop where
  found : db.reservation? r.id = some r
  quoted : db.quotes.find? q.id = some q
  amendable : assertAmendable db r q = .ok ()
  lines : ∃ t, Commits (postDelta r q actor) { db with allocations := db'.allocations } () t ∧
    db'.folioLines = t.folioLines
  reservations : db'.reservations = db.reservations.update r.id (amended q)
  quotes : db'.quotes = db.quotes.update q.id (CommitBookingQuote.committed r.id db.clock)
  deposits : db'.deposits = ReservationPaymentScheduleService.rescheduled (amended q r)
    (CloseReservationWithPolicy.paidMinor db r.id) db.clock
    (CloseReservationWithPolicy.waivedOf r.id supersededReason db.deposits)
  payments : db'.payments = db.payments
  changes : ∃ k effects, Table.Appends db.changes db'.changes
    (amendmentChange r q k effects db.clock db.changes.next)

theorem commits_amend (h : Commits (amend i j actor) db s db') :
    ∃ r q, r.id = i ∧ q.id = j ∧ s = amended q r ∧ Amended db db' r q actor := by
  unfold amend at h
  obtain ⟨r, _, hlock, h⟩ := commits_bind.mp h
  obtain ⟨hr, rfl⟩ := commits_lockedReservation.mp hlock
  obtain ⟨q, hq, h⟩ := commits_orFail_bind.mp (commits_get_bind.mp h)
  obtain ⟨_, hok, h⟩ := commits_check_bind.mp h
  obtain ⟨a, t₁, hstay, h⟩ := commits_bind.mp h
  obtain ⟨_, t₂, hdelta, h⟩ := commits_bind.mp h
  obtain ⟨_, _, hprogram, h⟩ := commits_bind.mp h
  obtain ⟨_, rfl⟩ := commits_check.mp hprogram
  obtain ⟨_, _, hmark, h⟩ := commits_bind.mp (commits_modify_bind.mp h)
  obtain rfl := commits_modify.mp hmark
  obtain ⟨effects, t₃, hrebuild, h⟩ := commits_bind.mp h
  rw [commits_modify_bind] at h
  obtain ⟨rfl, rfl⟩ := commits_pure.mp h
  have hid : r.id = i := Folio.reservation_id_eq hr
  have hqid : q.id = j := (Table.find?_eq_some.mp hq).2
  have h₁ := commits_replaceStay hstay
  obtain ⟨_, hdep, h₃⟩ := ReservationPaymentScheduleService.commits_rebuild hrebuild
  have h₂ : t₂ = { t₁ with folioLines := t₂.folioLines } := by
    rcases commits_postDelta hdelta with ⟨_, rfl⟩ | ⟨_, rfl⟩
    · rfl
    · rfl
  have hal : t₃.allocations = t₁.allocations := by rw [h₃, h₂]
  refine ⟨r, q, hid, hqid, rfl, hid ▸ hr, hqid ▸ hq, hok, ⟨t₂, ?_, ?_⟩, ?_, ?_, ?_, ?_, ?_⟩
  · show Commits _ { db with allocations := t₃.allocations } () t₂
    rw [hal, ← h₁]
    exact hdelta
  · show t₃.folioLines = _
    rw [h₃]
  · show t₃.reservations = _
    rw [h₃, h₂, h₁]
  · show t₃.quotes = _
    rw [h₃, h₂, h₁]
  · show t₃.deposits = _
    rw [hdep, h₂, h₁]
    rfl
  · show t₃.payments = _
    rw [h₃, h₂, h₁]
  · have hc : t₃.changes = db.changes := by rw [h₃, h₂, h₁]
    refine ⟨a.id, effects, ?_⟩
    show Table.Appends db.changes (t₃.changes.insert _) _
    rw [hc]
    exact Table.appends_insert

theorem commits_handle {input : BookingInput} (h : Commits (handle i input actor) db s db') :
    ∃ r q t, db.reservation? i = some r ∧ Commits (createAmendment r input) db q t ∧
      Commits (amend r.id q.id actor) t s db' := by
  simp only [handle, commits_bind, commits_lockedReservation] at h
  obtain ⟨r, _, ⟨hr, rfl⟩, q, t, hq, h⟩ := h
  exact ⟨r, q, t, hr, hq, h⟩

end Commits
end AmendReservation
