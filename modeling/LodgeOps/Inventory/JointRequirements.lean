import LodgeOps.Inventory.ProgramRequirement
import LodgeOps.Store.Demands
import LodgeOps.Store.Transaction

namespace ProgramRequirement
open Schema Transaction Demands

section Units
variable {db : Database} {r : Reservation}

def requirementsOf (db : Database) (r : Reservation) : List ProgramResourceRequirement :=
  ((program? db r).map Program.requirements).getD []

-- One of the units of an allocation that has not been released.
abbrev AllocatedUnit (db : Database) (r : Reservation) : Type :=
  Σ i : Fin (standing db r).length, Fin (standing db r)[i].quantity

abbrev Demand (db : Database) (r : Reservation) : Type := Fin (requirementsOf db r).length

def required (db : Database) (r : Reservation) (j : Demand db r) : ℕ :=
  quantityForParty (requirementsOf db r)[j] (partySize r)

def Meets (db : Database) (r : Reservation) (j : Demand db r) (a : Allocation) : Prop :=
  matchesRequirement db a (requirementsOf db r)[j] = true

instance (j : Demand db r) (a : Allocation) : Decidable (Meets db r j a) := by
  unfold Meets
  infer_instance

-- The units are shared out among the requirements, no unit to two of them.
def JointlyMet (db : Database) (r : Reservation) : Prop :=
  ∃ taker : AllocatedUnit db r → Option (Demand db r),
    Serves (fun j u => Meets db r j (standing db r)[u.1]) (required db r) taker

def covered (db : Database) (r : Reservation) (s : Finset (Demand db r)) : ℕ :=
  (((standing db r).filter fun a => decide (∃ j ∈ s, Meets db r j a)).map Allocation.quantity).sum

-- Any group of requirements finds as many matching units as it requires altogether.
def Coverable (db : Database) (r : Reservation) : Prop :=
  ∀ s : Finset (Demand db r), ∑ j ∈ s, required db r j ≤ covered db r s

instance : Decidable (Coverable db r) := by
  unfold Coverable
  infer_instance

theorem sum_filter_quantity {P : Allocation → Prop} [DecidablePred P] (xs : List Allocation) :
    ((xs.filter fun a => decide (P a)).map Allocation.quantity).sum =
      (xs.map fun a => if P a then a.quantity else 0).sum := by
  induction xs with
  | nil => rfl
  | cons a xs ih =>
    by_cases h : P a
    · simp [h, ih]
    · simp [h, ih]

theorem card_covered (s : Finset (Demand db r)) :
    (Finset.univ.filter fun u : AllocatedUnit db r =>
      ∃ j ∈ s, Meets db r j (standing db r)[u.1]).card = covered db r s := by
  have hsum : ((standing db r).map fun a => if ∃ j ∈ s, Meets db r j a then a.quantity else 0).sum =
      ∑ i : Fin (standing db r).length,
        if ∃ j ∈ s, Meets db r j (standing db r)[i] then (standing db r)[i].quantity else 0 :=
    (Fin.sum_univ_fun_getElem (standing db r)
      fun a => if ∃ j ∈ s, Meets db r j a then a.quantity else 0).symm
  rw [covered, sum_filter_quantity, hsum]
  exact card_units (P := fun i => ∃ j ∈ s, Meets db r j (standing db r)[i])

theorem jointlyMet_iff : JointlyMet db r ↔ Coverable db r := by
  unfold JointlyMet Coverable
  rw [serves_iff]
  refine forall_congr' fun s => ?_
  rw [← card_covered s]
  congr!

theorem met_of_assertSatisfied (h : assertSatisfied db r = .ok ()) :
    ∀ q ∈ requirementsOf db r, quantityForParty q (partySize r) ≤ assignedQuantity db r q := by
  intro q hq
  unfold assertSatisfied at h
  obtain ⟨_, _, h⟩ := bind_eq_ok.mp h
  obtain ⟨_, _, h⟩ := bind_eq_ok.mp h
  have hchecked := forM_eq_ok.mp h q hq
  exact not_lt.mp (refuse_eq_ok.mp hchecked)

theorem requirements_met_singly_and_shared_iff (h : assertSatisfied db r = .ok ()) :
    (∀ q ∈ requirementsOf db r, quantityForParty q (partySize r) ≤ assignedQuantity db r q) ∧
      (JointlyMet db r ↔ Coverable db r) :=
  ⟨met_of_assertSatisfied h, jointlyMet_iff⟩

end Units

section Scenario

def guides (i : ℕ) : ResourceCategory where
  id := i
  propertyId := 0
  kind := .crew
  name := "Guides"
  countsAsStay := false
  isActive := true

def guide (i : ℕ) : Resource where
  id := i
  propertyId := 0
  categoryId := 0
  capacity := 4
  isActive := true
  isBuyoutColumn := false
  buyoutAttribute := false
  capabilities := .items ["fishing"]
  specialties := .absent
  languages := .items ["spanish"]

def requirement (capabilities languages : Listing) : ProgramResourceRequirement :=
  ⟨0, 1, none, capabilities, languages⟩

def outfitter : Catalogue where
  categories := Table.empty.insert guides
  resources := Table.empty.insert guide
  timezone := fun _ _ => 0
  categorised := by
    intro r hr
    obtain rfl : r = guide 0 := by simpa [Table.insert, Table.empty] using hr
    exact ⟨guides 0, rfl, rfl⟩
  separated := by decide
  stayIsPlace := by decide

def fishingDay (i : ℕ) : Program where
  id := i
  propertyId := 0
  isActive := true
  requiresAccommodation := false
  defaultDurationMinutes := none
  capacity := none
  requirements :=
    [requirement (.items ["fishing"]) .absent, requirement .absent (.items ["spanish"])]

def trip (i : ℕ) : Reservation where
  id := i
  propertyId := 0
  programId := some 0
  bookingQuoteId := none
  status := .draft
  startsAt := 1000
  endsAt := 2000
  holdExpiresAt := none
  adults := 2
  children := 0
  currency := "USD"
  subtotalMinor := 10000
  taxMinor := 0
  totalMinor := 10000
  depositPolicy := none
  cancellationTiers := []
  folioStatus := .opened
  closureReason := none
  revision := 1

def guided (quantity i : ℕ) : Allocation where
  id := i
  reservationId := 0
  requestedCategoryId := none
  resourceId := some 0
  serviceOccurrenceId := none
  status := .confirmed
  startsAt := 1000
  endsAt := 2000
  quantity := quantity

def outing (quantity : ℕ) : Database where
  clock := 0
  catalogue := outfitter
  programs := Table.empty.insert fishingDay
  reservations := Table.empty.insert trip
  allocations := Table.empty.insert (guided quantity)

theorem two_units_met_jointly : JointlyMet (outing 2) (trip 0) := by
  have h : assertSatisfied (outing 2) (trip 0) = .ok () := by decide +kernel
  exact (requirements_met_singly_and_shared_iff h).2.mpr (by decide +kernel)

-- One guide who fishes and speaks Spanish passes for both.
theorem one_unit_counted_twice :
    assertSatisfied (outing 1) (trip 0) = .ok () ∧ ¬ JointlyMet (outing 1) (trip 0) := by
  refine ⟨by decide +kernel, ?_⟩
  rw [jointlyMet_iff]
  decide +kernel

end Scenario
end ProgramRequirement
