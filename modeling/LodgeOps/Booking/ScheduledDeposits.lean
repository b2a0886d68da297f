import LodgeOps.Booking.ProvisionedDeposits

namespace ScheduledDeposits
open Schema Transaction BookingQuoteService ReservationService
open CloseReservationWithPolicy (waivedOf paidMinor)
open ReservationPaymentScheduleService (rescheduled schedule)
open MoneyReceived (dueShare dueMinor due_amended)
open BookedTotals (mem_of_reservation drafted_create)

section Operations

inductive Operation
  | quote (input : BookingInput)
  | quoteAmendment (reservationId : ℕ) (input : BookingInput)
  | commit (quoteId : ℕ) (guestId : Option ℕ) (data : CommitBookingQuote.GuestData)
      (companionIds : List ℕ) (actorId : Option ℕ)
  | amend (reservationId : ℕ) (input : BookingInput) (actorId : Option ℕ)
  | confirm (reservationId : ℕ)
  | elsewhere (result : Database)

def Operation.run : Operation → Tx Unit
  | quote input => LedgerRuns.quietly (create input)
  | quoteAmendment i input =>
    LedgerRuns.quietly (lockedReservation i >>= fun r => createAmendment r input)
  | commit i guestId data companions actor =>
    LedgerRuns.quietly (CommitBookingQuote.handle i guestId data companions actor)
  | amend i input actor => LedgerRuns.quietly (AmendReservation.handle i input actor)
  | confirm i => ReservationService.confirm i
  | elsewhere result => set result

-- The rest of the system: no payment is deleted, and no schedule of an unpaid stay is touched.
structure Leaves (db result : Database) : Prop where
  payments : ∀ i, Unpaid result i → Unpaid db i
  deposits : ∀ i, Unpaid result i → depositsOf i result.deposits = depositsOf i db.deposits
  known : ∀ d ∈ result.deposits.rows, d.reservationId < result.reservations.next
  grows : db.reservations.next ≤ result.reservations.next
  reservations : ∀ r ∈ result.reservations.rows,
    (∃ p ∈ db.reservations.rows, p.id = r.id ∧ p.totalMinor = r.totalMinor ∧
      p.depositPolicy = r.depositPolicy ∧ (r.status = .confirmed → p.status = .confirmed)) ∨
    (db.reservations.next ≤ r.id ∧ r.status ≠ .confirmed ∧ 0 ≤ r.totalMinor)

def Operation.Honest (op : Operation) (db : Database) : Prop :=
  match op with
  | elsewhere result => Leaves db result
  | _ => True

def Operation.Careful (op : Operation) (db : Database) : Prop :=
  match op with
  | commit i _ _ _ _ => ∀ q, db.quotes.find? i = some q → 0 ≤ q.totalMinor
  | amend i input _ => ∀ r c, db.reservation? i = some r →
      preview db (amendmentInput db r input) = .ok c → 0 ≤ c.totalMinor
  | confirm i => ∀ r, db.reservation? i = some r → Unpaid db i → Regular r → Whole db r
  | op => op.Honest db

structure Opening (db : Database) : Prop where
  reservations : db.reservations.rows = []
  deposits : db.deposits.rows = []

structure Covered (db : Database) (r : Reservation) : Prop where
  within : dueMinor db r.id ≤ r.totalMinor
  whole : r.status = .confirmed → dueMinor db r.id = r.totalMinor
  parts : ∀ d ∈ depositsOf r.id db.deposits, d.status = .due → 0 ≤ d.amountMinor

end Operations

section Invariant
variable {db db' t u : Database} {r r' : Reservation} {q : BookingQuote} {actor : Option ℕ}
variable {deposits : Table Deposit} {now : ℤ} {i : ℕ} {d : Deposit}

structure Scheduled (db : Database) (r : Reservation) : Prop where
  total : 0 ≤ r.totalMinor
  due : (Unscheduled db r.id ∧ r.status ≠ .confirmed) ∨ dueMinor db r.id = r.totalMinor
  parts : ∀ d ∈ depositsOf r.id db.deposits, d.status = .due → 0 ≤ d.amountMinor

-- What carries the schedule through a run: every deposit has its stay, every unpaid stay its sum.
structure Orderly (db : Database) : Prop where
  known : ∀ d ∈ db.deposits.rows, d.reservationId < db.reservations.next
  scheduled : ∀ r ∈ db.reservations.rows, Unpaid db r.id → Regular r → Scheduled db r

theorem Scheduled.covered (h : Scheduled db r) : Covered db r := by
  rcases h.due with ⟨hnone, hst⟩ | hdue
  · have hz := due_unscheduled hnone
    exact ⟨hz ▸ h.total, fun hc => absurd hc hst, h.parts⟩
  · exact ⟨hdue.le, fun _ => hdue, h.parts⟩

theorem Scheduled.congr (h : Scheduled db r)
    (hd : depositsOf r.id db'.deposits = depositsOf r.id db.deposits) (hid : r'.id = r.id)
    (ht : r'.totalMinor = r.totalMinor) (hs : r'.status = .confirmed → r.status = .confirmed) :
    Scheduled db' r' where
  total := ht ▸ h.total
  due := by
    rw [hid, ht]
    rcases h.due with ⟨hnone, hst⟩ | hdue
    · exact Or.inl ⟨hd.trans hnone, fun hc => hst (hs hc)⟩
    · exact Or.inr ((due_congr hd).trans hdue)
  parts := by
    rw [hid, hd]
    exact h.parts

theorem orderly_of_opening (h : Opening db) : Orderly db where
  known d hd := by
    rw [h.deposits] at hd
    cases hd
  scheduled r hr := by
    rw [h.reservations] at hr
    cases hr

theorem orderly_same (ho : Orderly db) (hr : db'.reservations = db.reservations)
    (hd : db'.deposits = db.deposits) (hp : db'.payments = db.payments) : Orderly db' where
  known := by
    rw [hd, hr]
    exact ho.known
  scheduled r hm hpaid hreg := by
    rw [hr] at hm
    unfold Unpaid at hpaid
    rw [hp] at hpaid
    exact (ho.scheduled r hm hpaid hreg).congr (by rw [hd]) rfl rfl id

theorem orderly_left (ho : Orderly db) (h : Leaves db db') : Orderly db' where
  known := h.known
  scheduled r hr hpaid hreg := by
    have hd := h.deposits r.id hpaid
    rcases h.reservations r hr with ⟨p, hp, hid, ht, hpol, hst⟩ | ⟨hnew, hst, ht⟩
    · have hpreg : Regular p := by
        unfold Regular requirement at hreg ⊢
        rwa [hpol]
      have hs := ho.scheduled p hp (hid ▸ h.payments r.id hpaid) hpreg
      exact hs.congr (hid ▸ hd) hid.symm ht.symm hst
    · have hnone : depositsOf r.id db'.deposits = [] :=
        hd.trans (unscheduled_below fun d hm => lt_of_lt_of_le (ho.known d hm) hnew)
      refine ⟨ht, Or.inl ⟨hnone, hst⟩, fun d hm => ?_⟩
      rw [hnone] at hm
      cases hm

theorem commit_leaves_deposits {guestId : Option ℕ} {data : CommitBookingQuote.GuestData}
    {companions : List ℕ}
    (h : Commits (CommitBookingQuote.commit q guestId data companions actor) db r db') :
    db'.deposits = db.deposits := by
  obtain ⟨_, _, guest, a, t₁, t₂, t₃, t₄, t₅, hs⟩ := CommitBookingQuote.commits_commit_staged h
  have h₁ := CommitBookingQuote.commits_guestFor hs.found
  obtain ⟨_, _, h₂⟩ := CommitBookingQuote.commits_createReservation hs.create
  have h₃ := CommitBookingQuote.commits_allocate hs.allocate
  have h₄ := CommitBookingQuote.party_frame hs.party
  have h₅ := CommitBookingQuote.postLines_frame hs.lines
  obtain rfl := hs.mark
  show t₅.deposits = _
  rw [h₅, h₄, h₃, h₂, h₁]

theorem orderly_committed (ho : Orderly db) (hq : 0 ≤ q.totalMinor)
    (h : CommitBookingQuote.Committed db db' q r actor) (hd : db'.deposits = db.deposits) :
    Orderly db' where
  known d hm := by
    rw [hd] at hm
    have hn : db'.reservations.next = db.reservations.next + 1 := h.reservations.next
    have hlt := ho.known d hm
    omega
  scheduled p hp hpaid hreg := by
    unfold Unpaid at hpaid
    rw [h.payments] at hpaid
    rcases h.reservations.mem.mp hp with hp | rfl
    · exact (ho.scheduled p hp hpaid hreg).congr (by rw [hd]) rfl rfl id
    · obtain ⟨guest, hrow⟩ := h.row
      have hid : p.id = db.reservations.next := h.reservations.id
      have hnone : depositsOf p.id db'.deposits = [] := by
        rw [hd]
        exact unscheduled_below fun d hm => hid ▸ ho.known d hm
      refine ⟨?_, Or.inl ⟨hnone, ?_⟩, fun d hm => ?_⟩
      · rw [hrow]
        exact hq
      · rw [hrow]
        simp [CommitBookingQuote.booked]
      · rw [hnone] at hm
        cases hm

theorem paid_of_unpaid (h : Unpaid db i) : paidMinor db i = 0 := by
  refine Table.total_eq_zero fun p hp => if_neg ?_
  intro hc
  exact h p hp hc.1

theorem mem_scheduled {kind : String} {amount dueAt : ℤ}
    (h : d ∈ (schedule r kind amount dueAt deposits).rows) :
    d ∈ deposits.rows ∨ (d.reservationId = r.id ∧ 0 ≤ d.amountMinor) := by
  unfold schedule at h
  split_ifs at h with hz
  · exact Or.inl h
  · rcases (Table.mem_insert).mp h with h | rfl
    · exact Or.inl h
    · exact Or.inr ⟨rfl, (not_le.mp hz).le⟩

theorem mem_rescheduled {paid : ℤ} (h : d ∈ (rescheduled r paid now deposits).rows) :
    d ∈ deposits.rows ∨ (d.reservationId = r.id ∧ 0 ≤ d.amountMinor) := by
  unfold rescheduled at h
  split_ifs at h with hr
  · rcases mem_scheduled h with h | h
    · exact mem_scheduled h
    · exact Or.inr h
  · exact Or.inl h

theorem reservation_of_waived {reason : String} (h : d ∈ (waivedOf i reason deposits).rows) :
    ∃ e ∈ deposits.rows, e.reservationId = d.reservationId := by
  rcases (Table.mem_updateWhere).mp h with ⟨hd, _⟩ | ⟨e, he, _, rfl⟩
  · exact ⟨d, hd, rfl⟩
  · exact ⟨e, he, rfl⟩

theorem scheduled_amended (ha : AmendReservation.Amended db db' r q actor)
    (hq : 0 ≤ q.totalMinor) (hpaid : Unpaid db r.id) :
    Scheduled db' (AmendReservation.amended q r) where
  total := hq
  due := by
    refine Or.inr ?_
    have hdue := due_amended ha
    rw [paid_of_unpaid hpaid, sub_zero, max_eq_right hq] at hdue
    exact hdue
  parts d hd hst := by
    rw [ha.deposits] at hd
    obtain ⟨hm, hi⟩ := mem_depositsOf.mp hd
    rcases mem_rescheduled hm with hm | ⟨_, hpos⟩
    · exact absurd hst (Cancellation.none_due_after hm hi)
    · exact hpos

theorem orderly_amended (ho : Orderly db) (ha : AmendReservation.Amended db db' r q actor)
    (hq : 0 ≤ q.totalMinor) : Orderly db' where
  known d hd := by
    have hn : db'.reservations.next = db.reservations.next := by rw [ha.reservations]; rfl
    rw [ha.deposits] at hd
    rw [hn]
    rcases mem_rescheduled hd with hd | ⟨hi, _⟩
    · obtain ⟨e, he, hed⟩ := reservation_of_waived hd
      exact hed ▸ ho.known e he
    · rw [hi]
      exact Table.id_lt_next (mem_of_reservation ha.found)
  scheduled p hp hpaid hreg := by
    unfold Unpaid at hpaid
    rw [ha.payments] at hpaid
    rw [ha.reservations] at hp
    rcases (Table.mem_update).mp hp with ⟨hp, hne⟩ | ⟨s, hs, hid, rfl⟩
    · have hother : p.id ≠ r.id := hne
      refine (ho.scheduled p hp hpaid hreg).congr ?_ rfl rfl id
      rw [ha.deposits, depositsOf_rescheduled (r := AmendReservation.amended q r) hother,
        depositsOf_waived hother]
    · obtain rfl : s = r := Table.eq_of_id hs (mem_of_reservation ha.found) hid
      exact scheduled_amended ha hq hpaid

theorem due_whole (hs : Scheduled db r) (hreg : Regular r) :
    (provisioned r now db.deposits).total (dueShare r.id) = r.totalMinor ↔ Whole db r := by
  by_cases hnone : Unscheduled db r.id
  · exact iff_of_true (due_provisioned_fresh hnone) (Or.inl hnone)
  · have hdue := hs.due.resolve_left fun hf => hnone hf.1
    have hshare : db.deposits.total (dueShare r.id) = r.totalMinor := hdue
    rw [← hshare]
    refine Iff.trans (due_provisioned_iff hs.total hreg) ?_
    exact ⟨Or.inr, fun hw => hw.resolve_left hnone⟩

theorem scheduled_provisioned (hs : Scheduled db r) (hreg : Regular r)
    (hd : db'.deposits = provisioned r now db.deposits) (hid : r'.id = r.id)
    (ht : r'.totalMinor = r.totalMinor) (hw : Whole db r) : Scheduled db' r' where
  total := ht ▸ hs.total
  due := by
    refine Or.inr ?_
    unfold dueMinor
    rw [hid, ht, hd]
    exact (due_whole hs hreg).mpr hw
  parts d hm hst := by
    obtain ⟨hlow, hhigh⟩ := amount_bounds hs.total hreg
    rw [hid, hd] at hm
    obtain ⟨hrow, hi⟩ := mem_depositsOf.mp hm
    rcases mem_provisioned hrow with hrow | ⟨_, hamount | hamount⟩
    · exact hs.parts d (mem_depositsOf.mpr ⟨hrow, hi⟩) hst
    · omega
    · omega

theorem scheduled_beside (h : Provisions db db' r) (hs : Scheduled db r') (hne : r'.id ≠ r.id) :
    Scheduled db' r' := by
  refine hs.congr ?_ rfl rfl id
  rw [h.deposits, depositsOf_provisioned hne]

theorem orderly_confirmed (ho : Orderly db) (h : Provisions db db' r)
    (hw : Unpaid db r.id → Regular r → Whole db r) : Orderly db' where
  known d hd := by
    have hn : db'.reservations.next = db.reservations.next := by
      rcases h.reservations with ⟨he, _⟩ | he
      · rw [he]
      · rw [he]; rfl
    rw [h.deposits] at hd
    rw [hn]
    rcases mem_provisioned hd with hd | ⟨hi, _⟩
    · exact ho.known d hd
    · rw [hi]
      exact Table.id_lt_next (mem_of_reservation h.found)
  scheduled p hp hpaid hreg := by
    have hr := mem_of_reservation h.found
    unfold Unpaid at hpaid
    rw [h.payments] at hpaid
    rcases h.reservations with ⟨he, _⟩ | he
    · rw [he] at hp
      have hs := ho.scheduled p hp hpaid hreg
      by_cases hid : p.id = r.id
      · obtain rfl : p = r := Table.eq_of_id hp hr hid
        exact scheduled_provisioned hs hreg h.deposits rfl rfl (hw hpaid hreg)
      · exact scheduled_beside h hs hid
    · rw [he] at hp
      rcases (Table.mem_update).mp hp with ⟨hp, hne⟩ | ⟨s, hs, hid, rfl⟩
      · exact scheduled_beside h (ho.scheduled p hp hpaid hreg) hne
      · obtain rfl : s = r := Table.eq_of_id hs hr hid
        exact scheduled_provisioned (ho.scheduled s hs hpaid hreg) hreg h.deposits rfl rfl
          (hw hpaid hreg)

end Invariant

section Runs
variable {s t u : Database} {op : Operation} {r : Reservation} {i : ℕ}

theorem orderly_quoted {input : BookingInput} {q : BookingQuote} (ho : Orderly s)
    (h : Commits (create input) s q t) : Orderly t := by
  have hf := (drafted_create h).frame
  exact orderly_same ho (by rw [hf]) (by rw [hf]) (by rw [hf])

theorem orderly_step (ho : Orderly s) (ha : op.Careful s) (h : Commits op.run s () t) :
    Orderly t := by
  cases op with
  | quote input =>
    obtain ⟨_, h⟩ := LedgerRuns.commits_quietly h
    exact orderly_quoted ho h
  | quoteAmendment i input =>
    obtain ⟨_, h⟩ := LedgerRuns.commits_quietly h
    simp only [commits_bind, commits_lockedReservation] at h
    obtain ⟨r, _, ⟨_, rfl⟩, h⟩ := h
    exact orderly_quoted ho (commits_createAmendment h)
  | commit i guestId data companions actor =>
    obtain ⟨r, h⟩ := LedgerRuns.commits_quietly h
    simp only [CommitBookingQuote.handle, commits_bind, commits_get, commits_orFail] at h
    obtain ⟨_, _, ⟨rfl, rfl⟩, q, _, ⟨hq, rfl⟩, h⟩ := h
    split at h
    · exact CommitBookingQuote.commits_committedTo h ▸ ho
    · exact orderly_committed ho (ha q hq) (CommitBookingQuote.commits_commit h)
        (commit_leaves_deposits h)
  | amend i input actor =>
    obtain ⟨_, h⟩ := LedgerRuns.commits_quietly h
    obtain ⟨r, q, v, hr, hq, _, hm⟩ := BookingRuns.amended_handle h
    have hcreate := commits_createAmendment hq
    obtain ⟨c, hc, rfl, _⟩ := commits_create hcreate
    exact orderly_amended (orderly_quoted ho hcreate) hm (ha r c hr hc)
  | confirm i =>
    obtain ⟨r, rfl, hp⟩ := commits_confirm h
    exact orderly_confirmed ho hp (ha r hp.found)
  | elsewhere result =>
    obtain rfl := commits_set.mp h
    exact orderly_left ho ha

theorem orderly_run (hs : Opening s) (h : Reaches Operation.run Operation.Careful s t) :
    Orderly t :=
  h.invariant (orderly_of_opening hs) fun _ _ _ => orderly_step

theorem confirmation_covers_iff (ho : Orderly t) (hr : t.reservation? i = some r)
    (hpaid : Unpaid t i) (hreg : Regular r) (h : Commits (confirm i) t () u) :
    dueMinor u i = r.totalMinor ↔ Whole t r := by
  obtain ⟨p, rfl, hp⟩ := commits_confirm h
  obtain rfl : r = p := Option.some.inj (hr.symm.trans hp.found)
  unfold dueMinor
  rw [hp.deposits]
  exact due_whole (ho.scheduled r (mem_of_reservation hr) hpaid hreg) hreg

theorem careful_runs_cover (hs : Opening s) (h : Reaches Operation.run Operation.Careful s t) :
    (∀ r ∈ t.reservations.rows, Unpaid t r.id → Regular r → Covered t r) ∧
      ∀ i r u, t.reservation? i = some r → Unpaid t i → Regular r →
        Commits (confirm i) t () u → (dueMinor u i = r.totalMinor ↔ Whole t r) := by
  have ho := orderly_run hs h
  constructor
  · intro r hr hpaid hreg
    exact (ho.scheduled r hr hpaid hreg).covered
  · intro i r u hr hpaid hreg hc
    exact confirmation_covers_iff ho hr hpaid hreg hc

end Runs

section Scenario
open BookedTotals (season nightsFrom)
open MoneyReceived (afterwards of_afterwards)

-- No payment is looked for: in a run of these operations nobody pays.
def carefully (op : Operation) (db : Database) : Bool :=
  match op with
  | .commit i _ _ _ _ => (db.quotes.find? i).all fun q => decide (0 ≤ q.totalMinor)
  | .amend i input _ => (db.reservation? i).all fun r =>
      (preview db (amendmentInput db r input)).toOption.all fun c => decide (0 ≤ c.totalMinor)
  | .confirm i => (db.reservation? i).all fun r => (depositsOf i db.deposits).isEmpty ||
      (decide (Listed db.deposits i (scheduleType r)) && decide (Listed db.deposits i "balance"))
  | .elsewhere _ => false
  | _ => true

theorem careful_of_carefully {op : Operation} {db : Database} (h : carefully op db = true) :
    op.Careful db := by
  cases op with
  | commit i =>
    intro q hq
    simpa [carefully, hq] using h
  | amend i input =>
    intro r c hr hc
    simpa [carefully, hr, hc, Except.toOption] using h
  | confirm i =>
    intro r hr _ _
    obtain rfl : r.id = i := Folio.reservation_id_eq hr
    simp only [carefully, hr, Option.all_some, Bool.or_eq_true, List.isEmpty_iff,
      Bool.and_eq_true, decide_eq_true_eq] at h
    exact h.imp id fun hl => ⟨Or.inl hl.1, Or.inl hl.2⟩
  | elsewhere => cases h
  | _ => trivial

def plainly : Operation → Bool
  | .elsewhere _ => false
  | _ => true

theorem honest_of_plainly {op : Operation} {db : Database} (h : plainly op = true) :
    op.Honest db := by
  cases op with
  | elsewhere => cases h
  | _ => trivial

instance (db : Database) (i : ℕ) : Decidable (Unpaid db i) :=
  inferInstanceAs (Decidable (∀ p ∈ _, _))

instance : DecidablePred Bounded
  | .fixed amountMinor => inferInstanceAs (Decidable (0 ≤ amountMinor))
  | .percentage basisPoints => inferInstanceAs (Decidable (0 ≤ basisPoints ∧ basisPoints ≤ 10000))

instance : DecidablePred Regular := fun r => inferInstanceAs (Decidable (Bounded (requirement r)))

theorem opening_season : Opening season := ⟨rfl, rfl⟩

def heldStay : List Operation :=
  [.quote (nightsFrom 10 1), .commit 0 none { firstName := "Ana" } [] none]

-- Confirmed first, then a night longer, then confirmed once more.
theorem confirmed_stay_is_covered : ∃ t r u, Reaches Operation.run Operation.Careful season t ∧
    t.reservation? 0 = some r ∧ r.totalMinor = 20000 ∧ Covered t r ∧
      Commits (confirm 0) t () u ∧ (dueMinor u 0 = r.totalMinor ↔ Whole t r) := by
  obtain ⟨t, ht, hp⟩ : ∃ t, Reaches Operation.run Operation.Careful season t ∧
      ((t.reservation? 0).any fun r => decide (r.totalMinor = 20000) && decide (Unpaid t 0) &&
        decide (Regular r) && afterwards (confirm 0) (fun _ _ => true) t) = true :=
    Reaches.exists_of_execute (fun _ _ => careful_of_carefully)
      (heldStay ++ [.confirm 0, .amend 0 (nightsFrom 10 2) none]) (by decide +kernel)
  obtain ⟨r, hr, hp⟩ := (Option.any_eq_true _ _).mp hp
  simp only [Bool.and_eq_true, decide_eq_true_eq] at hp
  obtain ⟨⟨⟨htotal, hpaid⟩, hreg⟩, hc⟩ := hp
  obtain ⟨_, u, hc, _⟩ := of_afterwards hc
  obtain ⟨hcovered, hiff⟩ := careful_runs_cover opening_season ht
  have hid : r.id = 0 := Folio.reservation_id_eq hr
  exact ⟨t, r, u, ht, hr, htotal, hcovered r (mem_of_reservation hr) (hid ▸ hpaid) hreg, hc,
    hiff 0 r u hr hpaid hreg hc⟩

-- Amended while on hold, the stay is asked for twice its price once it is confirmed.
theorem amended_hold_is_due_twice : Opening season ∧
    ∃ t, Reaches Operation.run Operation.Honest season t ∧
      ∃ r ∈ t.reservations.rows, Unpaid t r.id ∧ Regular r ∧ r.status = .confirmed ∧
        dueMinor t r.id = 2 * r.totalMinor ∧ ¬ Covered t r := by
  refine ⟨opening_season, ?_⟩
  obtain ⟨t, ht, hp⟩ : ∃ t, Reaches Operation.run Operation.Honest season t ∧
      decide (∃ r ∈ t.reservations.rows, Unpaid t r.id ∧ Regular r ∧ r.status = .confirmed ∧
        dueMinor t r.id = 2 * r.totalMinor ∧ r.totalMinor = 20000) = true :=
    Reaches.exists_of_execute (fun op s => @honest_of_plainly op s)
      (heldStay ++ [.amend 0 (nightsFrom 10 2) none, .confirm 0]) (by decide +kernel)
  obtain ⟨r, hr, hpaid, hreg, hst, hdue, htotal⟩ := of_decide_eq_true hp
  refine ⟨t, ht, r, hr, hpaid, hreg, hst, hdue, fun hc => ?_⟩
  have hle := hc.within
  omega

end Scenario
end ScheduledDeposits
