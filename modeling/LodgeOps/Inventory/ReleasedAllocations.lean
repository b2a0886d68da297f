import LodgeOps.Inventory.SharedCapacity

namespace ReleasedAllocations
open Schema Occupancy Availability Clearance Admission

section Queries
variable {db db' : Database} {x a : Allocation} {o : ServiceOccurrence}

def standing (a : Allocation) : Bool := a.status != .released

structure DifferInReleased (db db' : Database) : Prop where
  frame : db' = { db with allocations := db'.allocations }
  standing : db'.allocations.select standing = db.allocations.select standing

theorem active_standing (h : active db a = true) : standing a = true := by
  unfold standing
  cases hs : a.status <;> simp_all [active]

theorem scope_standing (h : activeAllocationScope db x a = true) : standing a = true := by
  simp only [activeAllocationScope, Bool.or_eq_true, Bool.and_eq_true, beq_iff_eq] at h
  rcases h with h | ⟨_, h⟩
  · exact active_standing h
  · simp [standing, h]

-- A query that asks for allocations that still stand cannot tell the two states apart.
theorem select_eq (h : DifferInReleased db db') {p : Allocation → Bool}
    (hp : ∀ a, p a = true → standing a = true) :
    db'.allocations.select p = db.allocations.select p := by
  have hfilter : ∀ t : Table Allocation, t.select p = (t.select standing).filter p := by
    intro t
    rw [Table.select, Table.select, List.filter_filter]
    refine List.filter_congr fun a _ => ?_
    cases ha : p a with
    | false => rfl
    | true => simp [hp a ha]
  rw [hfilter, hfilter, h.standing]

theorem rivals_eq (h : DifferInReleased db db') : rivals db' = rivals db := by
  funext x targets
  have hp : ∀ c, (targets c && c.id != x.id && activeAllocationScope db x c &&
      overlapping c.startsAt c.endsAt x) = true → standing c = true := by
    intro c hc
    simp only [Bool.and_eq_true] at hc
    exact scope_standing hc.1.2
  have hscope : activeAllocationScope db' x = activeAllocationScope db x := by
    rw [h.frame]
    rfl
  unfold rivals
  rw [hscope]
  exact select_eq h hp

theorem resource_eq (h : DifferInReleased db db') {r : Resource} :
    assertResourceAvailable db' x r = assertResourceAvailable db x r := by
  have hrivals := rivals_eq h
  unfold assertResourceAvailable exclusiveConflict allocatedQuantity resourceConflicts
  rw [hrivals]
  rw [h.frame]
  rfl

theorem assigned_eq (h : DifferInReleased db db') {i : Option ℕ} :
    assertAssigned db' x i = assertAssigned db x i := by
  cases i with
  | none => rfl
  | some i =>
    have hcatalogue : db'.catalogue = db.catalogue := by rw [h.frame]
    simp only [assertAssigned, resource_eq h, hcatalogue]

theorem category_eq (h : DifferInReleased db db') {category : ResourceCategory} :
    assertCategoryCapacity db' x category = assertCategoryCapacity db x category := by
  have hrivals := rivals_eq h
  unfold assertCategoryCapacity assertExclusiveCategoryAvailable propertyRivals buyoutRivals
    reservedOfCategory
  rw [hrivals]
  rw [h.frame]
  rfl

theorem requested_eq (h : DifferInReleased db db') {i : Option ℕ} :
    assertRequested db' x i = assertRequested db x i := by
  cases i with
  | none => rfl
  | some i =>
    have hcatalogue : db'.catalogue = db.catalogue := by rw [h.frame]
    simp only [assertRequested, category_eq h, hcatalogue]

end Queries

section Seats
variable {db db' : Database} {x : Allocation} {o : ServiceOccurrence}

def seated (db : Database) (x : Allocation) (o : ServiceOccurrence) (c : Allocation) : Bool :=
  c.serviceOccurrenceId == some o.id && c.id != x.id &&
    (active db c || c.reservationId == x.reservationId)

def seatsOf (db : Database) (x : Allocation) (o : ServiceOccurrence) (p : Allocation → Bool) : ℕ :=
  ((db.allocations.select fun c => seated db x o c && p c).map Allocation.quantity).sum

def standingSeats (db : Database) (x : Allocation) (o : ServiceOccurrence) : ℕ :=
  seatsOf db x o standing

-- The requesting reservation's own seats that it has given up.
def releasedSeats (db : Database) (x : Allocation) (o : ServiceOccurrence) : ℕ :=
  seatsOf db x o fun c => !standing c

theorem seats_split : ((db.allocations.select (seated db x o)).map Allocation.quantity).sum =
    standingSeats db x o + releasedSeats db x o := by
  have hperm := List.filter_append_perm standing (db.allocations.select (seated db x o))
  have hsum := (hperm.map Allocation.quantity).sum_eq
  rw [List.map_append, List.sum_append] at hsum
  rw [← hsum]
  simp only [standingSeats, releasedSeats, seatsOf, Table.select, List.filter_filter, Bool.and_comm]

theorem standingSeats_eq (h : DifferInReleased db db') :
    standingSeats db' x o = standingSeats db x o := by
  have hseated : seated db' x o = seated db x o := by
    rw [h.frame]
    rfl
  have hp : ∀ c, (seated db x o c && standing c) = true → standing c = true := by
    intro c hc
    exact (Bool.and_eq_true _ _ ▸ hc).2
  unfold standingSeats seatsOf
  rw [hseated, select_eq h hp]

theorem occurrence_iff : assertOccurrenceCapacity db x o = .ok () ↔ o.isCancelled = false ∧
    standingSeats db x o + releasedSeats db x o + x.quantity ≤ o.capacity := by
  rw [← seats_split]
  simp only [assertOccurrenceCapacity, refuse_eq_ok, not_or, not_lt, Bool.not_eq_true]
  exact Iff.rfl

-- The seats of the occurrence are all that is left to decide on the request.
structure SeatsDecide (db : Database) (x : Allocation) (o : ServiceOccurrence) : Prop where
  interval : x.startsAt < x.endsAt
  assigned : assertAssigned db x x.resourceId = .ok ()
  requested : assertRequested db x x.requestedCategoryId = .ok ()
  occurrence : x.serviceOccurrenceId.bind db.serviceOccurrences.find? = some o
  held : o.isCancelled = false

def SameSide (db db' : Database) (x : Allocation) (o : ServiceOccurrence) : Prop :=
  standingSeats db x o + releasedSeats db x o + x.quantity ≤ o.capacity ↔
    standingSeats db x o + releasedSeats db' x o + x.quantity ≤ o.capacity

theorem available_of_decide (h : SeatsDecide db x o) : assertAvailable db x = .ok () ↔
    standingSeats db x o + releasedSeats db x o + x.quantity ≤ o.capacity := by
  obtain ⟨i, hi, ho⟩ := Option.bind_eq_some_iff.mp h.occurrence
  have hservice : assertService db x x.serviceOccurrenceId = assertOccurrenceCapacity db x o := by
    simp [assertService, hi, ho, found, bind, Except.bind]
  rw [available_iff, hservice, occurrence_iff]
  constructor
  · rintro ⟨_, _, ⟨_, hle⟩, _⟩
    exact hle
  · intro hle
    exact ⟨h.interval, h.assigned, ⟨h.held, hle⟩, h.requested⟩

theorem decide_congr (h : DifferInReleased db db') : SeatsDecide db' x o ↔ SeatsDecide db x o := by
  have hoccurrences : db'.serviceOccurrences = db.serviceOccurrences := by rw [h.frame]
  constructor
  · rintro ⟨hi, ha, hr, ho, hc⟩
    exact ⟨hi, assigned_eq h ▸ ha, requested_eq h ▸ hr, hoccurrences ▸ ho, hc⟩
  · rintro ⟨hi, ha, hr, ho, hc⟩
    exact ⟨hi, (assigned_eq h).trans ha, (requested_eq h).trans hr, hoccurrences ▸ ho, hc⟩

theorem verdict_of_undecided (hn : ∀ o, ¬ SeatsDecide db x o) : assertAvailable db x = .ok () ↔
    x.startsAt < x.endsAt ∧ assertAssigned db x x.resourceId = .ok () ∧
      x.serviceOccurrenceId = none ∧ assertRequested db x x.requestedCategoryId = .ok () := by
  rw [available_iff]
  cases hi : x.serviceOccurrenceId with
  | none => simp [assertService]
  | some i =>
    simp only [reduceCtorEq, false_and, and_false, iff_false, not_and]
    intro hlt ha hs hr
    simp only [assertService, bind_eq_ok, found_eq_ok] at hs
    obtain ⟨o, ho, hs⟩ := hs
    refine hn o ⟨hlt, ha, hr, ?_, (occurrence_iff.mp hs).1⟩
    rw [hi]
    exact ho

theorem released_unseen_iff (h : DifferInReleased db db') :
    (assertAvailable db x = .ok () ↔ assertAvailable db' x = .ok ()) ↔
      ∀ o, SeatsDecide db x o → SameSide db db' x o := by
  constructor
  · intro hv o ho
    have ho' : SeatsDecide db' x o := (decide_congr h).mpr ho
    rw [available_of_decide ho, available_of_decide ho', standingSeats_eq h] at hv
    exact hv
  · intro hside
    by_cases hd : ∃ o, SeatsDecide db x o
    · obtain ⟨o, ho⟩ := hd
      have ho' : SeatsDecide db' x o := (decide_congr h).mpr ho
      rw [available_of_decide ho, available_of_decide ho', standingSeats_eq h]
      exact hside o ho
    · have hn := not_exists.mp hd
      have hn' : ∀ o, ¬ SeatsDecide db' x o := fun o ho => hn o ((decide_congr h).mp ho)
      rw [verdict_of_undecided hn, verdict_of_undecided hn', assigned_eq h, requested_eq h]

end Seats

section Scenario
open SharedCapacity

def tour (i : ℕ) : ServiceOccurrence := ⟨i, 0, 0, 1000, 2000, 4, false⟩

def tourSeats (reservationId quantity : ℕ) (status : AllocationStatus) (i : ℕ) : Allocation :=
  { seat reservationId status 1000 2000 i with
    requestedCategoryId := none
    resourceId := none
    serviceOccurrenceId := some 0
    quantity := quantity }

def touring (allocations : Table Allocation) : Database where
  clock := 0
  catalogue := marina
  serviceOccurrences := Table.empty.insert tour
  allocations := allocations

def givenUp (reservationId : ℕ) : Database :=
  touring (Table.empty.insert (tourSeats reservationId 4 .released))

def neverHeld : Database := touring Table.empty

def seatRequest : Allocation := tourSeats 1 2 .tentative 1

theorem differ_givenUp (n : ℕ) : DifferInReleased neverHeld (givenUp n) := ⟨rfl, rfl⟩

theorem seats_of_others_unseen : assertAvailable neverHeld seatRequest = .ok () ↔
    assertAvailable (givenUp 2) seatRequest = .ok () := by
  refine (released_unseen_iff (differ_givenUp 2)).mpr fun o ho => ?_
  obtain rfl : tour 0 = o := Option.some.inj ho.occurrence
  unfold SameSide
  decide

-- The seats a reservation has given up still count against its own next request.
theorem own_released_seats_count : DifferInReleased neverHeld (givenUp 1) ∧
    assertAvailable neverHeld seatRequest = .ok () ∧
      assertAvailable (givenUp 1) seatRequest ≠ .ok () :=
  ⟨differ_givenUp 1, by decide, by decide⟩

end Scenario
end ReleasedAllocations
