import LodgeOps.Inventory.InHouse

namespace ReallocationPlan
open Schema Transaction AllocationWorkflow ReallocateResource Soundness InHouse

section Plans
variable {db db' : Database} {a b : Allocation} {i j k : ℕ} {r : Reservation}

-- The resource, the interval, the quantity and the service occurrence of an allocation.
abbrev Span := Option ℕ × ℤ × ℤ × ℕ × Option ℕ

def onResource (i : Option ℕ) (a : Allocation) : Span :=
  (i, a.startsAt, a.endsAt, a.quantity, a.serviceOccurrenceId)

def span (a : Allocation) : Span := onResource a.resourceId a

def held (j : ℕ) (a : Allocation) : Multiset Span :=
  if a.reservationId = j ∧ a.status ≠ .released then {span a} else 0

def plan (db : Database) (j : ℕ) : Multiset Span := db.allocations.total (held j)

theorem held_of_released (h : a.status = .released) : held j a = 0 := by simp [held, h]

theorem held_own (h : a.status ≠ .released) : held a.reservationId a = {span a} := by
  simp [held, h]

theorem held_other (h : a.reservationId ≠ j) : held j a = 0 := by simp [held, h]

theorem span_filedAs (c : Catalogue) : span (filedAs c a) = span a := by
  unfold filedAs
  split <;> rfl

theorem held_filedAs (c : Catalogue) : held j (filedAs c a) = held j a := by
  unfold held
  rw [filedAs_reservationId, filedAs_status, span_filedAs]

-- The row of `a` is released where it stands; nothing else changes.
structure Releases (db db' : Database) (a : Allocation) : Prop where
  reservations : db'.reservations = db.reservations
  plan : ∀ j, plan db' j + held j a = plan db j
  kept : ∀ b ∈ db.allocations.rows, b.id ≠ a.id → b ∈ db'.allocations.rows
  released : ∃ b ∈ db'.allocations.rows, b.id = a.id ∧ b.reservationId = a.reservationId ∧
    b.status = .released ∧ span b = span a

theorem releases_of_commits (ha : a ∈ db.allocations.rows)
    (h : Commits (releaseSource a) db () db') : Releases db db' a := by
  obtain ⟨x, hx, rfl⟩ := commits_saveAllocation.mp h
  obtain ⟨rfl, _, _⟩ := saving_eq hx
  generalize hc : filedAs db.catalogue { a with status := .released } = x
  have hid : x.id = a.id := by rw [← hc, filedAs_id]
  have hstatus : x.status = .released := by rw [← hc, filedAs_status]
  have hown : x.reservationId = a.reservationId := by rw [← hc, filedAs_reservationId]
  have hspan : span x = span a := by
    rw [← hc, span_filedAs]
    rfl
  have hkeeps : Keeps fun b : Allocation => { x with id := b.id } := fun _ => rfl
  have hrow : { x with id := a.id } ∈
      (db.allocations.update x.id (fun b => { x with id := b.id }) hkeeps).rows :=
    (Table.mem_update hkeeps).mpr (Or.inr ⟨a, ha, hid.symm, rfl⟩)
  refine ⟨rfl, fun j => ?_, fun b hb hne => ?_, ⟨_, hrow, rfl, hown, hstatus, hspan⟩⟩
  · have htotal := Table.total_update (g := held j) ha hid.symm hkeeps
    rw [held_of_released (a := { x with id := a.id }) hstatus, add_zero] at htotal
    exact htotal
  · exact (Table.mem_update hkeeps).mpr (Or.inl ⟨hb, hid ▸ hne⟩)

-- One allocation more for the reservation `i`.
structure Adds (db db' : Database) (i : ℕ) (s : Span) : Prop where
  reservations : db'.reservations = db.reservations
  plan : ∀ j, plan db' j = plan db j + if i = j then {s} else 0
  kept : ∀ b ∈ db.allocations.rows, b ∈ db'.allocations.rows

theorem held_replacement {s : Resource} : held j { replacementDraft r a s with id := k } =
    if r.id = j then {onResource (some s.id) a} else 0 := by
  have hstatus : { replacementDraft r a s with id := k }.status ≠ .released := by
    unfold replacementDraft
    split_ifs <;> simp
  simp only [held, hstatus, ne_eq, not_false_eq_true, and_true]
  rfl

theorem adds_of_replace {resourceId : Option ℕ} (h : Commits (replace r a resourceId) db () db') :
    Adds db db' r.id (onResource resourceId a) := by
  unfold replace at h
  obtain ⟨x, t, hr, h⟩ := commits_bind.mp h
  obtain ⟨_, rfl⟩ := commits_check.mp h
  unfold replacement at hr
  have hr := commits_get_bind.mp hr
  obtain ⟨i, hi, hr⟩ := commits_orFail_bind.mp hr
  obtain ⟨s, hs, hr⟩ := commits_orFail_bind.mp hr
  obtain ⟨hsave, rfl⟩ := commits_insertAllocation.mp hr
  obtain ⟨rfl, _, _⟩ := saving_eq hsave
  obtain ⟨_, rfl⟩ := Catalogue.resource?_eq_some.mp hs
  rw [hi]
  have hnames : Names fun i => { filedAs db.catalogue { replacementDraft r a s with
      id := db.allocations.next } with id := i } := fun _ => rfl
  refine ⟨rfl, fun j => ?_, fun b hb => (Table.mem_insert hnames).mpr (Or.inl hb)⟩
  have htotal := Table.total_insert (t := db.allocations) (g := held j) hnames
  have hid : { filedAs db.catalogue { replacementDraft r a s with id := db.allocations.next } with
      id := db.allocations.next } =
        filedAs db.catalogue { replacementDraft r a s with id := db.allocations.next } := by
    unfold filedAs
    split <;> rfl
  rw [hid, held_filedAs, held_replacement] at htotal
  exact htotal

end Plans

section Steps
variable {db db' : Database} {a current : Allocation} {r : Reservation} {target : Resource}
variable {swap : Option (Allocation × Reservation)} {swapWith actorId : Option ℕ}
variable {reason : Option String} {i j k : ℕ}

theorem soil_frame {resourceId : Option ℕ}
    (h : Commits (soilWhenInHouse r resourceId actorId) db () db') :
    db'.allocations = db.allocations ∧ db'.reservations = db.reservations := by
  simp only [soilWhenInHouse, commits_ite, commits_pure] at h
  rcases h with ⟨_, h⟩ | ⟨_, _, rfl⟩
  · have h := commits_get_bind.mp h
    obtain ⟨s, _, h⟩ := commits_orFail_bind.mp h
    have h := commits_get_bind.mp h
    obtain ⟨_, h⟩ := commits_reject_bind.mp h
    rw [← commits_set.mp h]
    exact ⟨rfl, rfl⟩
  · exact ⟨rfl, rfl⟩

theorem bump_frame (h : Commits (bumpRevision i) db () db') :
    db'.allocations = db.allocations ∧ db'.reservations = db.reservations.update i revised := by
  rw [← commits_modify.mp h]
  exact ⟨rfl, rfl⟩

theorem record_frame {type : ChangeType} (h : Commits (recordChange r type reason) db () db') :
    db'.allocations = db.allocations ∧ db'.reservations = db.reservations := by
  rw [← commits_modify.mp h]
  exact ⟨rfl, rfl⟩

theorem partner_cases (h : Commits (partner current target swapWith) db swap db') :
    db' = db ∧ swap.map Prod.fst = swapWith.bind db.allocations.find? ∧
      (swap = none → swapWith = none) ∧ ∀ p ∈ swap, p.1.status ≠ .released ∧
        db.reservation? p.1.reservationId = some p.2 := by
  cases swapWith with
  | none =>
    obtain ⟨rfl, rfl⟩ := commits_pure.mp h
    exact ⟨rfl, rfl, fun _ => rfl, by simp⟩
  | some j =>
    unfold partner swapPartner at h
    obtain ⟨p, hpair, hp⟩ := commits_map.mp h
    subst hp
    have hpair := commits_get_bind.mp hpair
    obtain ⟨other, hother, h⟩ := commits_orFail_bind.mp hpair
    obtain ⟨otherReservation, hres, h⟩ := commits_orFail_bind.mp h
    obtain ⟨hactive, h⟩ := commits_reject_bind.mp h
    obtain ⟨_, _, h⟩ := commits_check_bind.mp h
    obtain ⟨_, h⟩ := commits_reject_bind.mp h
    obtain ⟨rfl, rfl⟩ := commits_pure.mp h
    refine ⟨rfl, hother.symm, by simp, fun p hp => ?_⟩
    obtain rfl := Option.some.inj hp
    exact ⟨fun hs => hactive (Or.inl hs), hres⟩

theorem handle_cases (h : Commits (handle i j k actorId swapWith reason) db () db') :
    ∃ r current target swap, db.reservation? i = some r ∧ db.allocations.find? j = some current ∧
      current.reservationId = r.id ∧ current.status ≠ .released ∧
        db.catalogue.resource? k = some target ∧
          Commits (partner current target swapWith) db swap db ∧
            ((current.resourceId = some target.id ∧ swap = none ∧ db' = db) ∨
              (¬ (current.resourceId = some target.id ∧ swap = none) ∧
                Commits (exchange r current target swap actorId reason) db () db')) := by
  unfold handle at h
  obtain ⟨r, _, hlocked, h⟩ := commits_bind.mp h
  obtain ⟨hr, rfl⟩ := commits_lockedReservation.mp hlocked
  obtain ⟨_, _, h⟩ := commits_check_bind.mp h
  have h := commits_get_bind.mp h
  obtain ⟨current, hcurrent, h⟩ := commits_orFail_bind.mp h
  obtain ⟨hactive, h⟩ := commits_reject_bind.mp h
  obtain ⟨target, htarget, h⟩ := commits_orFail_bind.mp h
  obtain ⟨_, _, h⟩ := commits_check_bind.mp h
  obtain ⟨swap, t, hswap, hrest⟩ := commits_bind.mp h
  obtain rfl := (partner_cases hswap).1
  push Not at hactive
  refine ⟨r, current, target, swap, hr, hcurrent, hactive.1, hactive.2, htarget, hswap, ?_⟩
  rcases commits_ite.mp hrest with ⟨⟨hsame, hnone⟩, h⟩ | ⟨hne, h⟩
  · exact Or.inl ⟨hsame, Option.isNone_iff_eq_none.mp hnone, (commits_pure.mp h).2.symm⟩
  · exact Or.inr ⟨fun hc => hne ⟨hc.1, Option.isNone_iff_eq_none.mpr hc.2⟩, h⟩

end Steps

section Reallocation
variable {db db' : Database} {current other : Allocation} {r otherReservation : Reservation}
variable {target : Resource} {swapWith actorId : Option ℕ} {reason : Option String} {i j k : ℕ}

def replaced (current : Allocation) (other : Option Allocation) : List Allocation :=
  current :: other.toList

def involved (current : Allocation) (other : Option Allocation) : List ℕ :=
  (replaced current other).map Allocation.reservationId

structure Reallocated (db db' : Database) (current : Allocation) (target : ℕ)
    (other : Option Allocation) : Prop where
  moved : plan db' current.reservationId + {span current} =
    plan db current.reservationId + {onResource (some target) current}
  swapped : ∀ o ∈ other, plan db' o.reservationId + {span o} =
    plan db o.reservationId + {onResource current.resourceId o}
  elsewhere : ∀ j, j ∉ involved current other → plan db' j = plan db j
  released : ∀ a ∈ replaced current other, ∃ b ∈ db'.allocations.rows, b.id = a.id ∧
    b.reservationId = a.reservationId ∧ b.status = .released ∧ span b = span a
  kept : ∀ b ∈ db.allocations.rows, b.id ∉ (replaced current other).map Allocation.id →
    b ∈ db'.allocations.rows
  revised : ∀ j r, db.reservation? j = some r → db'.reservation? j =
    some (if j ∈ involved current other then revised r else r)

theorem plan_congr (h : db'.allocations = db.allocations) : plan db' j = plan db j := by
  unfold plan
  rw [h]

theorem find?_revised {t : Table Reservation} (h : t.find? j = some r) :
    (t.update i revised).find? j = some (if j = i then revised r else r) := by
  rw [Table.find?_update, h]
  split_ifs <;> rfl

theorem moved_of_commits (hc : current ∈ db.allocations.rows)
    (hown : current.reservationId = r.id) (hactive : current.status ≠ .released)
    (h : Commits (exchange r current target none actorId reason) db () db') :
    Reallocated db db' current target.id none := by
  unfold exchange at h
  obtain ⟨_, t, hrelease, h⟩ := commits_bind.mp h
  obtain ⟨_, v, hreplace, h⟩ := commits_bind.mp h
  obtain ⟨_, w, hbump, h⟩ := commits_bind.mp h
  obtain ⟨_, x, hrecord, hsoil⟩ := commits_bind.mp h
  have hr := releases_of_commits hc hrelease
  have ha := adds_of_replace hreplace
  obtain ⟨hsa, hsr⟩ := soil_frame hsoil
  obtain ⟨hra, hrr⟩ := record_frame hrecord
  obtain ⟨hba, hbr⟩ := bump_frame hbump
  have halloc : db'.allocations = v.allocations := (hsa.trans hra).trans hba
  have hres : db'.reservations = db.reservations.update r.id revised := by
    rw [hsr, hrr, hbr, ha.reservations, hr.reservations]
  have hplan : ∀ j, plan db' j + held j current =
      plan db j + if r.id = j then {onResource (some target.id) current} else 0 := by
    intro j
    rw [plan_congr halloc, ha.plan, ← hr.plan j]
    abel
  have hin : ∀ j, j ∈ involved current none ↔ j = r.id := by
    intro j
    simp [involved, replaced, hown]
  constructor
  · have hmoved := hplan current.reservationId
    rwa [held_own hactive, if_pos hown.symm] at hmoved
  · simp
  · intro j hj
    have hne : j ≠ r.id := fun he => hj ((hin j).mpr he)
    have hsame := hplan j
    rwa [held_other fun he => hne (he.symm.trans hown), if_neg hne.symm, add_zero, add_zero] at hsame
  · intro a hm
    obtain rfl : a = current := by simpa [replaced] using hm
    obtain ⟨b, hb, hrow⟩ := hr.released
    exact ⟨b, halloc ▸ ha.kept b hb, hrow⟩
  · intro b hb hne
    have hid : b.id ≠ current.id := by simpa [replaced] using hne
    exact halloc ▸ ha.kept b (hr.kept b hb hid)
  · intro j q hq
    rw [Database.reservation?, hres, find?_revised hq]
    simp only [hin j]

theorem swapped_of_commits (hc : current ∈ db.allocations.rows) (ho : other ∈ db.allocations.rows)
    (hown : current.reservationId = r.id) (hother : other.reservationId = otherReservation.id)
    (hne : otherReservation.id ≠ r.id) (hactive : current.status ≠ .released)
    (hactive' : other.status ≠ .released)
    (h : Commits (exchange r current target (some (other, otherReservation)) actorId reason)
      db () db') : Reallocated db db' current target.id (some other) := by
  unfold exchange at h
  obtain ⟨_, t, hrelease, h⟩ := commits_bind.mp h
  obtain ⟨_, t', hrelease', h⟩ := commits_bind.mp h
  obtain ⟨_, v, hreplace, h⟩ := commits_bind.mp h
  obtain ⟨_, v', hreplace', h⟩ := commits_bind.mp h
  obtain ⟨_, w, hbump, h⟩ := commits_bind.mp h
  obtain ⟨_, x, hrecord, h⟩ := commits_bind.mp h
  obtain ⟨_, w', hbump', h⟩ := commits_bind.mp h
  obtain ⟨_, x', hrecord', h⟩ := commits_bind.mp h
  obtain ⟨_, u, hsoil', hsoil⟩ := commits_bind.mp h
  have hdistinct : other.id ≠ current.id := fun he => by
    obtain rfl := Table.eq_of_id ho hc he
    exact hne (hother.symm.trans hown)
  have hr := releases_of_commits hc hrelease
  have hr' := releases_of_commits (hr.kept other ho hdistinct) hrelease'
  have ha := adds_of_replace hreplace
  have ha' := adds_of_replace hreplace'
  obtain ⟨hsa, hsr⟩ := soil_frame hsoil
  obtain ⟨hsa', hsr'⟩ := soil_frame hsoil'
  obtain ⟨hra, hrr⟩ := record_frame hrecord
  obtain ⟨hra', hrr'⟩ := record_frame hrecord'
  obtain ⟨hba, hbr⟩ := bump_frame hbump
  obtain ⟨hba', hbr'⟩ := bump_frame hbump'
  have halloc : db'.allocations = v'.allocations := by
    rw [hsa, hsa', hra', hba', hra, hba]
  have hres : db'.reservations =
      (db.reservations.update r.id revised).update otherReservation.id revised := by
    rw [hsr, hsr', hrr', hbr', hrr, hbr, ha'.reservations, ha.reservations, hr'.reservations,
      hr.reservations]
  have hplan : ∀ j, plan db' j + (held j current + held j other) =
      plan db j + ((if r.id = j then {onResource (some target.id) current} else 0) +
        if otherReservation.id = j then {onResource current.resourceId other} else 0) := by
    intro j
    rw [plan_congr halloc, ha'.plan, ha.plan, ← hr.plan j, ← hr'.plan j]
    abel
  have hin : ∀ j, j ∈ involved current (some other) ↔ j = r.id ∨ j = otherReservation.id := by
    intro j
    simp [involved, replaced, hown, hother]
  constructor
  · have hmoved := hplan current.reservationId
    rwa [held_own hactive, held_other fun he => hne (hother.symm.trans (he.trans hown)),
      if_pos hown.symm, if_neg fun he => hne (he.trans hown), add_zero, add_zero] at hmoved
  · intro o hom
    obtain rfl := Option.some.inj hom
    have hmoved := hplan other.reservationId
    rwa [held_own hactive', held_other fun he => hne (hother.symm.trans (he.symm.trans hown)),
      if_pos hother.symm, if_neg fun he => hne (hother.symm.trans he.symm), zero_add,
      zero_add] at hmoved
  · intro j hj
    obtain ⟨hj, hj'⟩ := not_or.mp (mt (hin j).mpr hj)
    have hsame := hplan j
    rwa [held_other fun he => hj (he.symm.trans hown),
      held_other fun he => hj' (he.symm.trans hother), if_neg fun he => hj he.symm,
      if_neg fun he => hj' he.symm, add_zero, add_zero, add_zero] at hsame
  · intro a hm
    have hm : a = current ∨ a = other := by simpa [replaced] using hm
    rcases hm with rfl | rfl
    · obtain ⟨b, hb, hid, hrow⟩ := hr.released
      have hbo : b.id ≠ other.id := hid ▸ hdistinct.symm
      exact ⟨b, halloc ▸ ha'.kept b (ha.kept b (hr'.kept b hb hbo)), hid, hrow⟩
    · obtain ⟨b, hb, hrow⟩ := hr'.released
      exact ⟨b, halloc ▸ ha'.kept b (ha.kept b hb), hrow⟩
  · intro b hb hids
    have hids : b.id ≠ current.id ∧ b.id ≠ other.id := by simpa [replaced] using hids
    have hkept := hr'.kept b (hr.kept b hb hids.1) hids.2
    exact halloc ▸ ha'.kept b (ha.kept b hkept)
  · intro j q hq
    rw [Database.reservation?, hres, find?_revised (find?_revised hq)]
    simp only [hin j]
    by_cases hj : j = r.id
    · have hjo : j ≠ otherReservation.id := fun he => hne (he.symm.trans hj)
      simp [hj, hne.symm]
    · simp [hj]

-- The swap, where there is one, is with an allocation of another reservation.
def WithOther (db : Database) (i : ℕ) (swapWith : Option ℕ) : Prop :=
  ∀ o, swapWith.bind db.allocations.find? = some o → o.reservationId ≠ i

theorem reallocation_preserves_plan (hother : WithOther db i swapWith) :
    (∀ db', Commits (handle i j k actorId swapWith reason) db () db' →
      ∃ current, db.allocations.find? j = some current ∧ current.reservationId = i ∧
        ((current.resourceId = some k ∧ swapWith = none ∧ db' = db) ∨
          (¬ (current.resourceId = some k ∧ swapWith = none) ∧
            Reallocated db db' current k (swapWith.bind db.allocations.find?)))) ∧
      ((∀ db', ¬ Commits (handle i j k actorId swapWith reason) db () db') →
        perform (handle i j k actorId swapWith reason) db = db) := by
  constructor
  · intro db' h
    obtain ⟨r, current, target, swap, hr, hcurrent, hown, hactive, htarget, hswap, hcases⟩ :=
      handle_cases h
    obtain ⟨_, hk⟩ := Catalogue.resource?_eq_some.mp htarget
    obtain ⟨hrow, _⟩ := Table.find?_eq_some.mp hcurrent
    obtain ⟨_, hfound, hnone, hpartner⟩ := partner_cases hswap
    have hri : r.id = i := (Table.find?_eq_some.mp hr).2
    refine ⟨current, hcurrent, hown.trans hri, ?_⟩
    rw [← hk]
    rcases hcases with ⟨hsame, hno, heq⟩ | ⟨hchange, h⟩
    · exact Or.inl ⟨hsame, hnone hno, heq⟩
    · refine Or.inr ⟨fun hc => hchange ⟨hc.1, ?_⟩, ?_⟩
      · rw [hc.2, Option.bind_none, Option.map_eq_none_iff] at hfound
        exact hfound
      · rw [← hfound]
        cases swap with
        | none => exact moved_of_commits hrow hown hactive h
        | some p =>
          obtain ⟨other, otherReservation⟩ := p
          obtain ⟨hactive', hres⟩ := hpartner _ rfl
          have hor : otherReservation.id = other.reservationId := (Table.find?_eq_some.mp hres).2
          have hfind : swapWith.bind db.allocations.find? = some other := hfound.symm
          obtain ⟨l, _, hl⟩ := Option.bind_eq_some_iff.mp hfind
          refine swapped_of_commits hrow (Table.find?_eq_some.mp hl).1 hown hor.symm ?_ hactive
            hactive' h
          rw [hor, hri]
          exact hother other hfind
  · intro hfails
    rcases perform_cases (x := handle i j k actorId swapWith reason) (s := db) with ⟨_, hc⟩ | heq
    · exact absurd hc (hfails _)
    · exact heq

end Reallocation

section Scenario
open Overbooking

-- The reservation `i` stands in the cabin `i`.
def stay (i : ℕ) : Allocation where
  id := i
  reservationId := i
  requestedCategoryId := some 0
  resourceId := some i
  serviceOccurrenceId := none
  status := .confirmed
  startsAt := 1000
  endsAt := 2000
  quantity := 1

def guestOf (i : ℕ) : Reservation := { enquiry 1000 2000 i with status := .confirmed }

def twoStays : Database := { opening with
  reservations := (Table.empty.insert guestOf).insert guestOf
  allocations := (Table.empty.insert stay).insert stay }

theorem swapped_cabins : ∃ db',
    Commits (handle 0 0 1 none (some 1) none) twoStays () db' ∧
      Reallocated twoStays db' (stay 0) 1 (some (stay 1)) := by
  obtain ⟨db', hc, _⟩ : ∃ db', Commits (handle 0 0 1 none (some 1) none) twoStays () db' ∧
      decide (0 < db'.allocations.rows.length) = true := exists_commits_of_run (by decide +kernel)
  have hother : WithOther twoStays 0 (some 1) := by
    intro o ho
    obtain rfl : stay 1 = o := Option.some.inj ho
    decide
  obtain ⟨current, hcurrent, _, hnoop | ⟨_, hmoved⟩⟩ :=
    (reallocation_preserves_plan hother).1 db' hc
  · exact absurd hnoop.2.1 (by simp)
  · obtain rfl : stay 0 = current := Option.some.inj hcurrent
    exact ⟨db', hc, hmoved⟩

theorem unmoved_stay_keeps_its_revision : ∃ db',
    Commits (handle 0 0 0 none none none) twoStays () db' ∧
      (twoStays.reservation? 0).map Reservation.revision = some 1 ∧
        (db'.reservation? 0).map Reservation.revision = some 1 := by
  obtain ⟨db', hc, hp⟩ : ∃ db', Commits (handle 0 0 0 none none none) twoStays () db' ∧
      decide ((db'.reservation? 0).map Reservation.revision = some 1) = true :=
    exists_commits_of_run (by decide +kernel)
  exact ⟨db', hc, rfl, of_decide_eq_true hp⟩

end Scenario
end ReallocationPlan
