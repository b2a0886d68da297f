import LodgeOps.Inventory.Admission
import LodgeOps.Inventory.Overbooking

namespace SharedCapacity
open Schema Occupancy Availability Clearance Admission

section Requests
variable {db : Database} {x : Allocation} {r : Resource}

def others (db : Database) (x : Allocation) (r : Resource) : List Allocation :=
  rivals db x fun c => c.resourceId == some r.id

structure Fitting (db : Database) (x : Allocation) (r : Resource) : Prop where
  resource : db.catalogue.resource? r.id = some r
  assigned : x.resourceId = some r.id
  active : r.isActive = true
  shared : db.catalogue.countsAsStay r = false
  ordinary : r.isBuyout = false
  interval : x.startsAt < x.endsAt
  unblocked : ¬ Blocked db (blockable db.catalogue r) x.startsAt x.endsAt
  noBuyout : ∀ c, Rival db x c → ¬ PropertyBuyout db.catalogue r.propertyId c
  room : ((others db x r).map Allocation.quantity).sum + x.quantity ≤ r.capacity
  category : ∀ i, x.requestedCategoryId = some i → i = r.categoryId ∧
    ∀ category ∈ db.catalogue.category? i,
      reservedOfCategory db x + x.quantity ≤ openCapacity db category x.startsAt x.endsAt

theorem others_eq_nil : others db x r = [] ↔ ∀ c, Rival db x c → c.resourceId ≠ some r.id := by
  constructor
  · intro h c hc hid
    have hn := not_target_of_rivals_nil h hc
    simp [hid] at hn
  · intro h
    refine List.eq_nil_iff_forall_not_mem.mpr fun c hc => ?_
    obtain ⟨ht, hr⟩ := mem_rivals.mp hc
    exact h c hr (by simpa using ht)

theorem Fitting.resource_iff (h : Fitting db x r) :
    assertResourceAvailable db x r = .ok () ↔ others db x r = [] := by
  rw [resource_available_iff h.ordinary, others_eq_nil]
  constructor
  · rintro ⟨_, hfree, _⟩ c hc
    exact hfree c hc r (by simp [blockable])
  · intro hnone
    refine ⟨h.unblocked, fun c hc s hs hid => ?_, fun _ => le_of_add_le_right h.room⟩
    rcases List.mem_append.mp hs with hs | hs
    · exact h.noBuyout c hc (Or.inl ⟨s, hs, hid⟩)
    · rw [List.mem_singleton.mp hs] at hid
      exact hnone c hc hid

theorem Fitting.requested (h : Fitting db x r) :
    assertRequested db x x.requestedCategoryId = .ok () := by
  cases hi : x.requestedCategoryId with
  | none => rfl
  | some i =>
    obtain ⟨rfl, hroom⟩ := h.category i hi
    have hm : r ∈ db.catalogue.resources.rows := (Catalogue.resource?_eq_some.mp h.resource).1
    obtain ⟨category, hcategory, hp⟩ := Catalogue.category_of_resource hm
    have hid : category.id = r.categoryId := (Table.find?_eq_some.mp hcategory).2
    have hactive : r ∈ activeOfCategory db category :=
      mem_activeOfCategory.mpr ⟨hm, hid.symm, h.active⟩
    rw [requested_iff hcategory, category_available_iff hactive h.ordinary, hp]
    refine ⟨fun hb => h.unblocked (blocked_append.mpr (Or.inl hb)), h.noBuyout, ?_⟩
    exact hroom category hcategory

theorem shared_capacity_iff (h : Fitting db x r) : assertAvailable db x = .ok () ↔
    others db x r = [] ∧ assertService db x x.serviceOccurrenceId = .ok () := by
  rw [available_iff, h.assigned, assigned_iff h.resource, h.resource_iff]
  constructor
  · rintro ⟨_, hothers, hservice, _⟩
    exact ⟨hothers, hservice⟩
  · rintro ⟨hothers, hservice⟩
    exact ⟨h.interval, hothers, hservice, h.requested⟩

end Requests

section Scenario
open Overbooking

def dock (i : ℕ) : ResourceCategory where
  id := i
  propertyId := 0
  kind := .asset
  name := "Boats"
  countsAsStay := false
  isActive := true

def berth : ℕ → Resource := resource 0 false

def boat : Resource := berth 0

def marina : Catalogue where
  categories := Table.empty.insert dock
  resources := Table.empty.insert berth
  timezone := fun _ _ => 0
  categorised := by
    intro r hr
    obtain rfl : r = berth 0 := by simpa [Table.insert, Table.empty] using hr
    exact ⟨dock 0, rfl, rfl⟩
  separated := by decide
  stayIsPlace := by decide

def seat (reservationId : ℕ) (status : AllocationStatus) (startsAt endsAt : ℤ) (i : ℕ) :
    Allocation where
  id := i
  reservationId := reservationId
  requestedCategoryId := some 0
  resourceId := some 0
  serviceOccurrenceId := none
  status := status
  startsAt := startsAt
  endsAt := endsAt
  quantity := 1

def afloat : Database where
  clock := 0
  catalogue := marina
  allocations := Table.empty.insert (seat 0 .confirmed 1000 2000)

def request (startsAt endsAt : ℤ) : Allocation := seat 1 .tentative startsAt endsAt 1

theorem fitting_request {s e : ℤ} (hroom : decide (s < e ∧
    buyoutRivals afloat (request s e) 0 = [] ∧
    ((others afloat (request s e) boat).map Allocation.quantity).sum + 1 ≤ 2 ∧
    reservedOfCategory afloat (request s e) + 1 ≤ openCapacity afloat (dock 0) s e) = true) :
    Fitting afloat (request s e) boat := by
  obtain ⟨hlt, hbuyouts, hothers, hreserved⟩ := of_decide_eq_true hroom
  refine ⟨by decide, rfl, rfl, by decide, rfl, hlt, ?_, buyoutRivals_eq_nil.mp hbuyouts, hothers, ?_⟩
  · rintro ⟨b, hb, _⟩
    simp [afloat, Table.empty] at hb
  · intro i hi
    obtain rfl : 0 = i := Option.some.inj hi
    refine ⟨rfl, fun category hcategory => ?_⟩
    obtain rfl : dock 0 = category := Option.some.inj hcategory
    exact hreserved

theorem idle_boat_is_given : assertAvailable afloat (request 2000 3000) = .ok () :=
  (shared_capacity_iff (fitting_request (by decide))).mpr (by decide +kernel)

-- push puts the boat itself among the buyouts, so its first passenger counts as one.
theorem second_seat_is_refused : Fitting afloat (request 1000 2000) boat ∧
    (request 1000 2000).serviceOccurrenceId = none ∧
      assertAvailable afloat (request 1000 2000) ≠ .ok () :=
  ⟨fitting_request (by decide), rfl, by decide +kernel⟩

end Scenario
end SharedCapacity
