import LodgeOps.Booking.MoneyReceived
import LodgeOps.Payments.Frames

namespace ReservationService
open Schema Transaction

section Schedule
variable {db db' : Database} {r : Reservation} {kind : String} {amount dueAt now : ℤ} {i : ℕ}

def scheduleType (r : Reservation) : String :=
  if r.depositPolicy.isNone then "deposit_50" else "deposit"

def depositDueAt (r : Reservation) (now : ℤ) : ℤ :=
  now + 86400 * (r.depositPolicy.map DepositPolicy.depositDueOffsetDays).getD 0

def balanceDueAt (r : Reservation) (now : ℤ) : ℤ :=
  max now (r.startsAt - 86400 * (r.depositPolicy.map DepositPolicy.balanceDueOffsetDays).getD 30)

def scheduled (r : Reservation) (kind : String) (amount dueAt : ℤ) (i : ℕ) : Deposit where
  id := i
  reservationId := r.id
  scheduleType := kind
  status := .due
  currency := r.currency
  amountMinor := amount
  dueAt := dueAt

def isScheduled (i : ℕ) (kind : String) (d : Deposit) : Bool :=
  d.reservationId == i && d.scheduleType == kind

def created (r : Reservation) (kind : String) (amount dueAt : ℤ) (deposits : Table Deposit) :
    Table Deposit :=
  if (deposits.first? (isScheduled r.id kind)).isSome then deposits
  else deposits.insert (scheduled r kind amount dueAt)

def provisioned (r : Reservation) (now : ℤ) (deposits : Table Deposit) : Table Deposit :=
  created r "balance" (r.totalMinor - depositAmount r) (balanceDueAt r now)
    (created r (scheduleType r) (depositAmount r) (depositDueAt r now) deposits)

theorem commits_firstOrCreateDeposit
    (h : Commits (firstOrCreateDeposit r kind amount dueAt) db () db') :
    db' = { db with deposits := created r kind amount dueAt db.deposits } := by
  simp only [firstOrCreateDeposit, commits_bind, commits_get, commits_ite, commits_pure,
    commits_set] at h
  unfold created
  obtain ⟨_, _, ⟨rfl, rfl⟩, ⟨hsome, _, rfl⟩ | ⟨hnone, rfl⟩⟩ := h
  · have hs : (db.deposits.first? (isScheduled r.id kind)).isSome = true := hsome
    rw [if_pos hs]
  · have hs : ¬ (db.deposits.first? (isScheduled r.id kind)).isSome = true := hnone
    rw [if_neg hs]
    rfl

theorem commits_paymentSchedule (h : Commits (paymentSchedule r) db () db') :
    db' = { db with deposits := provisioned r db.clock db.deposits } := by
  simp only [paymentSchedule, commits_bind, commits_get] at h
  obtain ⟨_, _, ⟨rfl, rfl⟩, _, t, hdeposit, hbalance⟩ := h
  rw [commits_firstOrCreateDeposit hbalance, commits_firstOrCreateDeposit hdeposit]
  rfl

-- What the schedule of deposits is made from, and what it is written beside.
def bookings (db : Database) : Table Reservation × Table Deposit × Table Payment × ℤ :=
  (db.reservations, db.deposits, db.payments, db.clock)

theorem apart_bookings : Apart bookings := ⟨fun _ _ => rfl, fun _ _ => rfl⟩

theorem commits_provision (h : Commits (provision i) db () db') :
    ∃ r, db.reservation? i = some r ∧ bookings db' = (db.reservations,
      provisioned r db.clock db.deposits, db.payments, db.clock) := by
  simp only [provision, commits_bind, commits_lockedReservation] at h
  obtain ⟨r, _, ⟨hr, rfl⟩, _, t, hservice, hschedule⟩ := h
  have ht : bookings t = bookings db := serviceOccurrence_spares apart_bookings _ _ hservice
  simp only [bookings, Prod.mk.injEq] at ht
  obtain ⟨hres, hdep, hpay, hclock⟩ := ht
  refine ⟨r, hr, ?_⟩
  rw [commits_paymentSchedule hschedule, hdep, hclock]
  simp only [bookings, hres, hpay]

-- A confirmation provisions the schedule of the figures that the reservation already has.
structure Provisions (db db' : Database) (r : Reservation) : Prop where
  found : db.reservation? r.id = some r
  reservations : db'.reservations = db.reservations ∧ r.status = .confirmed ∨
    db'.reservations = db.reservations.update r.id confirmed
  deposits : db'.deposits = provisioned r db.clock db.deposits
  payments : db'.payments = db.payments

theorem provisioned_confirmed {deposits : Table Deposit} :
    provisioned (confirmed r) now deposits = provisioned r now deposits := rfl

theorem commits_confirm (h : Commits (confirm i) db () db') :
    ∃ r, r.id = i ∧ Provisions db db' r := by
  simp only [confirm, commits_bind, commits_lockedReservation, commits_ite, commits_reject,
    commits_get, commits_check, commits_modify] at h
  obtain ⟨r, _, ⟨hr, rfl⟩, ⟨hconfirmed, hc⟩ | ⟨_, _, _, ⟨_, rfl⟩, _, _, ⟨rfl, rfl⟩, _, _, ⟨_, rfl⟩,
    _, _, ⟨_, rfl⟩, _, _, ⟨_, rfl⟩, _, t, hsave, _, u, rfl, hc⟩⟩ := h
  · have hid : r.id = i := Folio.reservation_id_eq hr
    obtain ⟨p, hp, hb⟩ := commits_provision hc
    rw [hid, hr] at hp
    obtain rfl := Option.some.inj hp
    simp only [bookings, Prod.mk.injEq] at hb
    exact ⟨r, hid, hid ▸ hr, Or.inl ⟨hb.1, hconfirmed⟩, hb.2.1, hb.2.2.1⟩
  · have hid : r.id = i := Folio.reservation_id_eq hr
    have ht : bookings t = bookings db :=
      (Spares.forM (g := bookings) (fun _ _ _ =>
        AllocationWorkflow.saveAllocation_spares fun _ _ => rfl) _).eq hsave
    simp only [bookings, Prod.mk.injEq] at ht
    obtain ⟨hres, hdep, hpay, hclock⟩ := ht
    obtain ⟨p, hp, hb⟩ := commits_provision hc
    have hself : (t.reservations.update r.id confirmed).find? r.id = some (confirmed r) := by
      rw [hres]
      exact Table.find?_update_self (hid ▸ hr)
    obtain rfl : confirmed r = p := Option.some.inj (hself.symm.trans hp)
    simp only [bookings, Prod.mk.injEq, provisioned_confirmed, hres, hdep, hpay, hclock] at hb
    exact ⟨r, hid, hid ▸ hr, Or.inr hb.1, hb.2.1, hb.2.2.1⟩

end Schedule
end ReservationService

namespace ScheduledDeposits
open Schema Transaction ReservationService
open CloseReservationWithPolicy (openDeposit waivedOf)
open ReservationPaymentScheduleService (rescheduled schedule)
open MoneyReceived (dueShare dueMinor)

section Policies

def depositsOf (i : ℕ) (deposits : Table Deposit) : List Deposit :=
  deposits.select fun d => d.reservationId == i

def Unscheduled (db : Database) (i : ℕ) : Prop := depositsOf i db.deposits = []

def Unpaid (db : Database) (i : ℕ) : Prop := ∀ p ∈ db.payments.rows, p.reservationId ≠ i

def Bounded : DepositRequirement → Prop
  | .fixed amountMinor => 0 ≤ amountMinor
  | .percentage basisPoints => 0 ≤ basisPoints ∧ basisPoints ≤ 10000

def requirement (r : Reservation) : DepositRequirement :=
  (r.depositPolicy.map DepositPolicy.requirement).getD (.percentage 5000)

-- The policy leaves nothing to pay with the deposit, or nothing to pay with the balance.
def AsksNothing (r : Reservation) : Prop :=
  match requirement r with
  | .fixed amountMinor => r.totalMinor = 0 ∨ amountMinor = 0
  | .percentage basisPoints => r.totalMinor = 0 ∨ basisPoints = 0

def AsksAll (r : Reservation) : Prop :=
  match requirement r with
  | .fixed amountMinor => r.totalMinor ≤ amountMinor
  | .percentage basisPoints => r.totalMinor * (10000 - basisPoints) < 10000

def Listed (deposits : Table Deposit) (i : ℕ) (kind : String) : Prop :=
  ∃ d ∈ depositsOf i deposits, d.scheduleType = kind

instance (deposits : Table Deposit) (i : ℕ) (kind : String) : Decidable (Listed deposits i kind) :=
  inferInstanceAs (Decidable (∃ d ∈ _, _))

-- A confirmation writes the whole schedule or nothing of it.
def Whole (db : Database) (r : Reservation) : Prop :=
  Unscheduled db r.id ∨
    ((Listed db.deposits r.id (scheduleType r) ∨ AsksNothing r) ∧
      (Listed db.deposits r.id "balance" ∨ AsksAll r))

-- The deposit policies that a schedule is made from.
def Regular (r : Reservation) : Prop := Bounded (requirement r)

end Policies

section Shares
variable {db db' : Database} {r : Reservation} {deposits deposits' : Table Deposit} {i j : ℕ}
variable {kind : String} {amount dueAt now paid : ℤ} {d : Deposit}

theorem mem_depositsOf : d ∈ depositsOf i deposits ↔ d ∈ deposits.rows ∧ d.reservationId = i := by
  simp [depositsOf, Table.mem_select]

theorem due_of_list : deposits.total (dueShare i) =
    ((depositsOf i deposits).map (dueShare i)).sum := by
  unfold Table.total depositsOf Table.select
  induction deposits.rows with
  | nil => rfl
  | cons d ds ih =>
    by_cases hd : d.reservationId = i
    · simp [hd, ih]
    · have hz : dueShare i d = 0 := by simp [dueShare, openDeposit, hd]
      simp [hd, hz, ih]

theorem due_congr (h : depositsOf i deposits' = depositsOf i deposits) :
    deposits'.total (dueShare i) = deposits.total (dueShare i) := by
  rw [due_of_list, due_of_list, h]

theorem due_unscheduled (h : Unscheduled db i) : dueMinor db i = 0 := by
  unfold dueMinor
  rw [due_of_list, h]
  rfl

theorem depositsOf_insert {mk : ℕ → Deposit} {hk : Names mk} (h : ∀ n, (mk n).reservationId = i)
    (hne : j ≠ i) : depositsOf j (deposits.insert mk hk) = depositsOf j deposits := by
  have hmk : ((mk deposits.next).reservationId == j) = false := by simp [h, hne.symm]
  simp [depositsOf, Table.select, Table.insert, List.filter_append, hmk]

theorem depositsOf_waived {reason : String} (hne : j ≠ i) :
    depositsOf j (waivedOf i reason deposits) = depositsOf j deposits := by
  unfold depositsOf Table.select waivedOf Table.updateWhere
  simp only
  induction deposits.rows with
  | nil => rfl
  | cons d ds ih =>
    by_cases hj : d.reservationId = j
    · have hi : openDeposit i d = false := by simp [openDeposit, hj, hne]
      simp [hi, hj, ih]
    · by_cases hi : openDeposit i d = true
      · simp [hi, hj, ih]
      · simp [hi, hj, ih]

theorem depositsOf_scheduled (hne : j ≠ r.id) :
    depositsOf j (schedule r kind amount dueAt deposits) = depositsOf j deposits := by
  unfold schedule
  split_ifs with hz
  · rfl
  · exact depositsOf_insert (fun _ => rfl) hne

theorem depositsOf_rescheduled (hne : j ≠ r.id) :
    depositsOf j (rescheduled r paid now deposits) = depositsOf j deposits := by
  unfold rescheduled
  split_ifs with hr
  · rw [depositsOf_scheduled hne, depositsOf_scheduled hne]
  · rfl

theorem depositsOf_created (hne : j ≠ r.id) :
    depositsOf j (created r kind amount dueAt deposits) = depositsOf j deposits := by
  unfold created
  split_ifs with hs
  · rfl
  · exact depositsOf_insert (fun _ => rfl) hne

theorem depositsOf_provisioned (hne : j ≠ r.id) :
    depositsOf j (provisioned r now deposits) = depositsOf j deposits := by
  unfold provisioned
  rw [depositsOf_created hne, depositsOf_created hne]

theorem unscheduled_below (h : ∀ d ∈ db.deposits.rows, d.reservationId < j) : Unscheduled db j := by
  refine List.eq_nil_iff_forall_not_mem.mpr fun d hd => ?_
  obtain ⟨hm, hj⟩ := mem_depositsOf.mp hd
  have hlt := h d hm
  omega

theorem first_isSome_iff :
    (deposits.first? (isScheduled i kind)).isSome = true ↔ Listed deposits i kind := by
  constructor
  · intro h
    obtain ⟨d, hd⟩ := Option.isSome_iff_exists.mp h
    obtain ⟨hm, hp⟩ := Table.first?_some hd
    simp only [isScheduled, Bool.and_eq_true, beq_iff_eq] at hp
    exact ⟨d, mem_depositsOf.mpr ⟨hm, hp.1⟩, hp.2⟩
  · rintro ⟨d, hd, hk⟩
    obtain ⟨hm, hi⟩ := mem_depositsOf.mp hd
    by_contra hnone
    have hf := Table.first?_eq_none.mp (Option.not_isSome_iff_eq_none.mp hnone) d hm
    simp [isScheduled, hi, hk] at hf

theorem created_listed (h : Listed deposits r.id kind) :
    created r kind amount dueAt deposits = deposits := if_pos (first_isSome_iff.mpr h)

theorem created_unlisted (h : ¬ Listed deposits r.id kind) :
    created r kind amount dueAt deposits = deposits.insert (scheduled r kind amount dueAt) :=
  if_neg fun hs => h (first_isSome_iff.mp hs)

theorem mem_created (h : d ∈ (created r kind amount dueAt deposits).rows) :
    d ∈ deposits.rows ∨ d = scheduled r kind amount dueAt deposits.next := by
  by_cases hl : Listed deposits r.id kind
  · rw [created_listed hl] at h
    exact Or.inl h
  · rw [created_unlisted hl] at h
    exact (Table.mem_insert).mp h

theorem due_created : (created r kind amount dueAt deposits).total (dueShare r.id) =
    deposits.total (dueShare r.id) + if Listed deposits r.id kind then 0 else amount := by
  split_ifs with hl
  · rw [created_listed hl, add_zero]
  · rw [created_unlisted hl, Table.total_insert]
    simp [dueShare, openDeposit, scheduled]

theorem listed_created {kind' : String} (hk : kind' ≠ kind) :
    Listed (created r kind amount dueAt deposits) r.id kind' ↔ Listed deposits r.id kind' := by
  by_cases hl : Listed deposits r.id kind
  · rw [created_listed hl]
  · rw [created_unlisted hl]
    constructor
    · rintro ⟨d, hd, rfl⟩
      obtain ⟨hm, hi⟩ := mem_depositsOf.mp hd
      rcases (Table.mem_insert).mp hm with hm | rfl
      · exact ⟨d, mem_depositsOf.mpr ⟨hm, hi⟩, rfl⟩
      · exact absurd rfl hk
    · rintro ⟨d, hd, rfl⟩
      obtain ⟨hm, hi⟩ := mem_depositsOf.mp hd
      exact ⟨d, mem_depositsOf.mpr ⟨(Table.mem_insert).mpr (Or.inl hm), hi⟩, rfl⟩

end Shares

section Amounts
variable {r : Reservation}

theorem depositAmount_eq : depositAmount r = match requirement r with
    | .fixed amountMinor => min r.totalMinor amountMinor
    | .percentage basisPoints => (r.totalMinor * basisPoints + 9999).tdiv 10000 := rfl

theorem amount_bounds (ht : 0 ≤ r.totalMinor) (hr : Regular r) :
    0 ≤ depositAmount r ∧ depositAmount r ≤ r.totalMinor := by
  unfold Regular at hr
  rw [depositAmount_eq]
  cases hq : requirement r with
  | fixed amountMinor =>
    rw [hq] at hr
    exact ⟨le_min ht hr, min_le_left _ _⟩
  | percentage basisPoints =>
    rw [hq] at hr
    have hz : 0 ≤ r.totalMinor * basisPoints := mul_nonneg ht hr.1
    have hle : r.totalMinor * basisPoints ≤ r.totalMinor * 10000 :=
      mul_le_mul_of_nonneg_left hr.2 ht
    simp only
    rw [Int.tdiv_eq_ediv_of_nonneg (by omega)]
    omega

theorem amount_zero_iff (ht : 0 ≤ r.totalMinor) (hr : Regular r) :
    depositAmount r = 0 ↔ AsksNothing r := by
  unfold Regular at hr
  unfold AsksNothing
  rw [depositAmount_eq]
  cases hq : requirement r with
  | fixed amountMinor =>
    rw [hq] at hr
    have ha : 0 ≤ amountMinor := hr
    simp only
    omega
  | percentage basisPoints =>
    rw [hq] at hr
    have hz : 0 ≤ r.totalMinor * basisPoints := mul_nonneg ht hr.1
    simp only
    rw [Int.tdiv_eq_ediv_of_nonneg (by omega), ← mul_eq_zero]
    omega

theorem amount_all_iff (ht : 0 ≤ r.totalMinor) (hr : Regular r) :
    depositAmount r = r.totalMinor ↔ AsksAll r := by
  unfold Regular at hr
  unfold AsksAll
  rw [depositAmount_eq]
  cases hq : requirement r with
  | fixed amountMinor => exact min_eq_left_iff
  | percentage basisPoints =>
    rw [hq] at hr
    have hz : 0 ≤ r.totalMinor * basisPoints := mul_nonneg ht hr.1
    have hle : r.totalMinor * basisPoints ≤ r.totalMinor * 10000 :=
      mul_le_mul_of_nonneg_left hr.2 ht
    simp only
    rw [Int.tdiv_eq_ediv_of_nonneg (by omega), mul_sub]
    omega

end Amounts

section Provisioned
variable {r : Reservation} {deposits : Table Deposit} {now : ℤ} {d : Deposit}

theorem balance_ne_scheduleType : "balance" ≠ scheduleType r := by
  unfold scheduleType
  split_ifs with hp
  · decide
  · decide

theorem due_provisioned : (provisioned r now deposits).total (dueShare r.id) =
    deposits.total (dueShare r.id) +
      (if Listed deposits r.id (scheduleType r) then 0 else depositAmount r) +
      if Listed deposits r.id "balance" then 0 else r.totalMinor - depositAmount r := by
  unfold provisioned
  rw [due_created, due_created]
  simp only [listed_created balance_ne_scheduleType]

theorem due_provisioned_fresh (h : depositsOf r.id deposits = []) :
    (provisioned r now deposits).total (dueShare r.id) = r.totalMinor := by
  have hnone : ∀ kind, ¬ Listed deposits r.id kind := by
    rintro kind ⟨d, hd, _⟩
    rw [h] at hd
    cases hd
  rw [due_provisioned, if_neg (hnone _), if_neg (hnone _), due_of_list, h]
  simp

theorem due_provisioned_iff (ht : 0 ≤ r.totalMinor) (hr : Regular r) :
    (provisioned r now deposits).total (dueShare r.id) = deposits.total (dueShare r.id) ↔
      (Listed deposits r.id (scheduleType r) ∨ AsksNothing r) ∧
        (Listed deposits r.id "balance" ∨ AsksAll r) := by
  obtain ⟨hlow, hhigh⟩ := amount_bounds ht hr
  rw [due_provisioned, ← amount_zero_iff ht hr, ← amount_all_iff ht hr]
  split_ifs with hdeposit hbalance hbalance
  · simp [hdeposit, hbalance]
  · simp only [hdeposit, hbalance, true_or, false_or, true_and]
    omega
  · simp only [hdeposit, hbalance, true_or, false_or, and_true]
    omega
  · simp only [hdeposit, hbalance, false_or]
    omega

theorem mem_provisioned (h : d ∈ (provisioned r now deposits).rows) : d ∈ deposits.rows ∨
    (d.reservationId = r.id ∧
      (d.amountMinor = depositAmount r ∨ d.amountMinor = r.totalMinor - depositAmount r)) := by
  rcases mem_created h with h | rfl
  · rcases mem_created h with h | rfl
    · exact Or.inl h
    · exact Or.inr ⟨rfl, Or.inl rfl⟩
  · exact Or.inr ⟨rfl, Or.inr rfl⟩

end Provisioned
end ScheduledDeposits
