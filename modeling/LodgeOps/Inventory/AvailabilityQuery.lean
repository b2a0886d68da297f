import LodgeOps.Inventory.Admission
import LodgeOps.Inventory.Overbooking

namespace AvailabilityQuery
open Schema Occupancy Availability Clearance Admission

structure ResourceRow where
  id : ℕ
  categoryId : ℕ
  category : String
  name : String
  capacity : ℕ
  isBuyout : Bool
  available : Bool
deriving DecidableEq

structure CategoryRow where
  id : ℕ
  name : String
  availableUnits : ℕ
  maximumOccupancy : ℕ
  available : Bool
deriving DecidableEq

section Search

def overlaps (s e startsAt endsAt : ℤ) : Bool := decide (Meets startsAt endsAt s e)

def competing (db : Database) (ids : List ℕ) (s e : ℤ) (exclude : Option ℕ) (a : Allocation) :
    Bool :=
  onResources ids a && exclude.all (fun i => a.reservationId != i) &&
    overlaps s e a.startsAt a.endsAt && active db a

def unavailableResourceIds (db : Database) (resources : List Resource) (s e : ℤ)
    (exclude : Option ℕ) : List ℕ :=
  let ids := idsOf resources
  let blocked := (db.blocks.select fun b =>
    ids.contains b.resourceId && overlaps s e b.startsAt b.endsAt).map ResourceBlock.resourceId
  let allocated := (db.allocations.select (competing db ids s e exclude)).filterMap
    Allocation.resourceId
  if ids.isEmpty then [] else (blocked ++ allocated).eraseDups

def buyoutConflict (db : Database) (p : ℕ) (s e : ℤ) (exclude : Option ℕ) : Bool :=
  let ids := idsOf (db.catalogue.buyouts p)
  !ids.isEmpty &&
    (db.blocks.rows.any (fun b => ids.contains b.resourceId && overlaps s e b.startsAt b.endsAt) ||
      db.allocations.rows.any (competing db ids s e exclude))

def stayCategories (db : Database) (p : ℕ) (categoryId : Option ℕ) : List ResourceCategory :=
  (db.catalogue.categories.select fun c => c.propertyId == p && c.countsAsStay && c.isActive &&
    categoryId.all (· == c.id)).insertionSort fun a b => a.sortOrder ≤ b.sortOrder

def resourcesOf (db : Database) (category : ResourceCategory) : List Resource :=
  (activeOfCategory db category).insertionSort fun a b => a.name ≤ b.name

def fitting (unavailable : List ℕ) (buyoutActive : Bool) (occupancy : ℤ) (resources : List Resource) :
    List Resource :=
  resources.filter fun r => !buyoutActive && !unavailable.contains r.id &&
    decide (occupancy ≤ r.capacity)

def resourceRow (category : ResourceCategory) (available : List Resource) (r : Resource) :
    ResourceRow where
  id := r.id
  categoryId := category.id
  category := category.name
  name := r.name
  capacity := r.capacity
  isBuyout := r.isBuyout
  available := available.any fun s => s.id == r.id

def categoryRow (category : ResourceCategory) (available : List Resource) : CategoryRow where
  id := category.id
  name := category.name
  availableUnits := available.length
  maximumOccupancy := (available.map Resource.capacity).foldr max 0
  available := !available.isEmpty

def forStay (db : Database) (p : ℕ) (s e occupancy : ℤ) (categoryId exclude : Option ℕ) :
    Except Failure (List CategoryRow × List ResourceRow) := do
  refuse (e ≤ s) (.validation "ends_at" "Departure must be after arrival.")
  refuse (occupancy < 1) (.validation "adults" "At least one guest is required.")
  let categories := stayCategories db p categoryId
  let unavailable := unavailableResourceIds db (categories.flatMap (resourcesOf db)) s e exclude
  let buyoutActive := buyoutConflict db p s e exclude
  let available := fun c => fitting unavailable buyoutActive occupancy (resourcesOf db c)
  .ok (categories.map fun c => categoryRow c (available c),
    categories.flatMap fun c => (resourcesOf db c).map (resourceRow c (available c)))

end Search

section Views
variable {db : Database} {p : ℕ} {s e occupancy : ℤ} {categoryId : Option ℕ} {r : Resource}
  {category : ResourceCategory} {rs : List Resource} {a : Allocation}

def Stands (db : Database) (s e : ℤ) (a : Allocation) : Prop :=
  active db a = true ∧ Meets a.startsAt a.endsAt s e

def Occupied (db : Database) (rs : List Resource) (s e : ℤ) : Prop :=
  Blocked db rs s e ∨
    ∃ a ∈ db.allocations.rows, (∃ r ∈ rs, a.resourceId = some r.id) ∧ Stands db s e a

instance (db : Database) (s e : ℤ) (a : Allocation) : Decidable (Stands db s e a) :=
  inferInstanceAs (Decidable (_ ∧ _))

instance (db : Database) (rs : List Resource) (s e : ℤ) : Decidable (Occupied db rs s e) :=
  inferInstanceAs (Decidable (_ ∨ _))

theorem occupied_append {rs' : List Resource} :
    Occupied db (rs ++ rs') s e ↔ Occupied db rs s e ∨ Occupied db rs' s e := by
  unfold Occupied
  rw [blocked_append]
  constructor
  · rintro ((hb | hb) | ⟨a, ha, ⟨r, hr, hid⟩, hs⟩)
    · exact Or.inl (Or.inl hb)
    · exact Or.inr (Or.inl hb)
    · rcases List.mem_append.mp hr with hr | hr
      · exact Or.inl (Or.inr ⟨a, ha, ⟨r, hr, hid⟩, hs⟩)
      · exact Or.inr (Or.inr ⟨a, ha, ⟨r, hr, hid⟩, hs⟩)
  · rintro ((hb | ⟨a, ha, ⟨r, hr, hid⟩, hs⟩) | (hb | ⟨a, ha, ⟨r, hr, hid⟩, hs⟩))
    · exact Or.inl (Or.inl hb)
    · exact Or.inr ⟨a, ha, ⟨r, List.mem_append_left _ hr, hid⟩, hs⟩
    · exact Or.inl (Or.inr hb)
    · exact Or.inr ⟨a, ha, ⟨r, List.mem_append_right _ hr, hid⟩, hs⟩

theorem competing_iff : competing db (idsOf rs) s e none a = true ↔
    (∃ r ∈ rs, a.resourceId = some r.id) ∧ Stands db s e a := by
  simp only [competing, Option.all_none, Bool.and_true, Bool.and_eq_true, onResources_iff, overlaps,
    decide_eq_true_eq, Stands]
  tauto

theorem mem_idsOf {i : ℕ} : i ∈ idsOf rs ↔ ∃ r ∈ rs, i = r.id := by
  simp only [idsOf, List.mem_map]
  exact exists_congr fun _ => and_congr_right fun _ => eq_comm

theorem buyoutConflict_iff :
    buyoutConflict db p s e none = true ↔ Occupied db (db.catalogue.buyouts p) s e := by
  simp only [buyoutConflict, Bool.and_eq_true, Bool.or_eq_true, List.any_eq_true, competing_iff,
    List.contains_iff_mem, mem_idsOf, overlaps, decide_eq_true_eq]
  constructor
  · rintro ⟨_, h⟩
    exact h
  · intro h
    refine ⟨?_, h⟩
    obtain ⟨_, _, ⟨r, hr, _⟩, _⟩ | ⟨_, _, ⟨r, hr, _⟩, _⟩ := h
    · simp [idsOf, List.ne_nil_of_mem hr]
    · simp [idsOf, List.ne_nil_of_mem hr]

theorem mem_unavailable (hr : r ∈ rs) :
    r.id ∈ unavailableResourceIds db rs s e none ↔ Occupied db [r] s e := by
  have hne : (idsOf rs).isEmpty = false := by simp [idsOf, List.ne_nil_of_mem hr]
  have hin : r.id ∈ idsOf rs := List.mem_map_of_mem hr
  simp only [unavailableResourceIds, hne, Bool.false_eq_true, if_false, List.mem_eraseDups,
    List.mem_append, List.mem_map, List.mem_filterMap, Table.mem_select, Bool.and_eq_true,
    List.contains_iff_mem, overlaps, decide_eq_true_eq, competing_iff, Occupied, Blocked,
    List.mem_singleton, exists_eq_left]
  refine or_congr ?_ ?_
  · constructor
    · rintro ⟨b, ⟨hb, _, hm⟩, hid⟩
      exact ⟨b, hb, hid, hm⟩
    · rintro ⟨b, hb, hid, hm⟩
      exact ⟨b, ⟨hb, hid ▸ hin, hm⟩, hid⟩
  · constructor
    · rintro ⟨a, ⟨ha, _, hs⟩, hid⟩
      exact ⟨a, ha, hid, hs⟩
    · rintro ⟨a, ha, hid, hs⟩
      exact ⟨a, ⟨ha, ⟨r, hr, hid⟩, hs⟩, hid⟩

theorem mem_resourcesOf : r ∈ resourcesOf db category ↔ r ∈ activeOfCategory db category :=
  List.mem_insertionSort _

theorem mem_stayCategories : category ∈ stayCategories db p categoryId ↔
    category ∈ db.catalogue.categories.rows ∧ category.propertyId = p ∧
      category.countsAsStay = true ∧ category.isActive = true ∧
        categoryId.all (· == category.id) = true := by
  simp [stayCategories, Table.mem_select, and_assoc]

def searched (db : Database) (p : ℕ) (s e : ℤ) (categoryId : Option ℕ) : List ℕ :=
  unavailableResourceIds db ((stayCategories db p categoryId).flatMap (resourcesOf db)) s e none

def offered (db : Database) (p : ℕ) (s e occupancy : ℤ) (categoryId : Option ℕ)
    (category : ResourceCategory) : List Resource :=
  fitting (searched db p s e categoryId) (buyoutConflict db p s e none) occupancy
    (resourcesOf db category)

theorem forStay_eq (hlt : s < e) (hocc : 1 ≤ occupancy) :
    forStay db p s e occupancy categoryId none = .ok
      ((stayCategories db p categoryId).map fun c =>
          categoryRow c (offered db p s e occupancy categoryId c),
        (stayCategories db p categoryId).flatMap fun c => (resourcesOf db c).map
          (resourceRow c (offered db p s e occupancy categoryId c))) := by
  simp only [forStay, bind_eq_ok, refuse_eq_ok, not_le, not_lt]
  exact ⟨(), hlt, (), hocc, rfl⟩

theorem mem_offered (hc : category ∈ stayCategories db p categoryId)
    (hr : r ∈ activeOfCategory db category) (hcap : occupancy ≤ r.capacity) :
    r ∈ offered db p s e occupancy categoryId category ↔
      ¬ Occupied db (blockable db.catalogue r) s e := by
  obtain ⟨hcm, hcp, _⟩ := mem_stayCategories.mp hc
  have hp : r.propertyId = p :=
    (category_eq hr (Table.find?_eq_some.mpr ⟨hcm, rfl⟩)).symm.trans hcp
  have hall : r ∈ (stayCategories db p categoryId).flatMap (resourcesOf db) :=
    List.mem_flatMap.mpr ⟨category, hc, mem_resourcesOf.mpr hr⟩
  have hun : searched db p s e categoryId = unavailableResourceIds db _ s e none := rfl
  rw [blockable, hp, occupied_append, ← buyoutConflict_iff, ← mem_unavailable hall, ← hun]
  simp [offered, fitting, mem_resourcesOf, hr, hcap]

theorem offered_row (hr : r ∈ activeOfCategory db category) :
    (resourceRow category (offered db p s e occupancy categoryId category) r).available = true ↔
      r ∈ offered db p s e occupancy categoryId category := by
  simp only [resourceRow, List.any_eq_true, beq_iff_eq]
  constructor
  · rintro ⟨q, hq, hid⟩
    have hqm : q ∈ activeOfCategory db category :=
      mem_resourcesOf.mp (List.mem_filter.mp hq).1
    have he : q = r := Table.eq_of_id (mem_activeOfCategory.mp hqm).1
      (mem_activeOfCategory.mp hr).1 hid
    exact he ▸ hq
  · intro h
    exact ⟨r, h, rfl⟩

end Views

section Requests
variable {db : Database} {s e : ℤ} {n : ℕ} {r : Resource} {c : Allocation} {p : ℕ}
  {category : ResourceCategory}

def request (db : Database) (reservationId : ℕ) (resourceId : Option ℕ) (categoryId : ℕ) (s e : ℤ) :
    Allocation where
  id := db.allocations.next
  reservationId := reservationId
  requestedCategoryId := some categoryId
  resourceId := resourceId
  serviceOccurrenceId := none
  status := .tentative
  startsAt := s
  endsAt := e
  quantity := 1

def Fresh (db : Database) (n : ℕ) : Prop := ∀ a ∈ db.allocations.rows, a.reservationId ≠ n

instance (db : Database) (n : ℕ) : Decidable (Fresh db n) := by
  unfold Fresh
  infer_instance

structure Lawful (db : Database) : Prop where
  filed : ∀ a ∈ db.allocations.rows, Filed db.catalogue a
  positive : ∀ a ∈ db.allocations.rows, 1 ≤ a.quantity

def BuyoutHeld (db : Database) (p : ℕ) (s e : ℤ) : Prop :=
  ∃ a ∈ db.allocations.rows, a.resourceId = none ∧
    (∃ b ∈ db.catalogue.buyouts p, a.requestedCategoryId = some b.categoryId) ∧ Stands db s e a

def PropertyHeld (db : Database) (p : ℕ) (s e : ℤ) : Prop :=
  ∃ a ∈ db.allocations.rows, categoryOnly (db.catalogue.inProperty · p) a = true ∧ Stands db s e a

def held (db : Database) (category : ResourceCategory) (s e : ℤ) : List Allocation :=
  db.allocations.select fun a => a.requestedCategoryId == some category.id &&
    decide (Stands db s e a)

instance (db : Database) (p : ℕ) (s e : ℤ) : Decidable (BuyoutHeld db p s e) := by
  unfold BuyoutHeld
  infer_instance

instance (db : Database) (p : ℕ) (s e : ℤ) : Decidable (PropertyHeld db p s e) := by
  unfold PropertyHeld
  infer_instance

theorem scope_request (hn : Fresh db n) {i : Option ℕ} {j : ℕ} (hc : c ∈ db.allocations.rows) :
    activeAllocationScope db (request db n i j s e) c = active db c := by
  have hne : (c.reservationId == n) = false := by simpa using hn c hc
  simp [activeAllocationScope, request, hne]

theorem rival_iff (hn : Fresh db n) {i : Option ℕ} {j : ℕ} :
    Rival db (request db n i j s e) c ↔ c ∈ db.allocations.rows ∧ Stands db s e c := by
  constructor
  · rintro ⟨hc, _, hact, hm⟩
    exact ⟨hc, scope_request hn hc ▸ hact, hm⟩
  · rintro ⟨hc, hact, hm⟩
    have hlt : c.id < db.allocations.next := Table.id_lt_next hc
    exact ⟨hc, hlt.ne, (scope_request hn hc).trans hact, hm⟩

theorem reserved_eq (hn : Fresh db n) {i : Option ℕ} :
    reservedOfCategory db (request db n i category.id s e) =
      ((held db category s e).map Allocation.quantity).sum := by
  have hsame : (rivals db (request db n i category.id s e) fun c =>
      c.requestedCategoryId == (request db n i category.id s e).requestedCategoryId) =
        held db category s e := by
    refine List.filter_congr fun c hc => ?_
    have hlt : c.id < db.allocations.next := Table.id_lt_next hc
    rw [scope_request hn hc, Bool.eq_iff_iff]
    simp only [overlapping, Bool.and_eq_true, decide_eq_true_eq, bne_iff_ne]
    constructor
    · rintro ⟨⟨⟨hcat, _⟩, hact⟩, hm⟩
      exact ⟨hcat, hact, hm⟩
    · rintro ⟨hcat, hact, hm⟩
      exact ⟨⟨⟨hcat, hlt.ne⟩, hact⟩, hm⟩
  rw [reservedOfCategory, hsame]

theorem occupied_iff (hn : Fresh db n) {rs : List Resource} {i : Option ℕ} {j : ℕ} :
    ¬ Occupied db rs s e ↔ ¬ Blocked db rs s e ∧ ∀ c, Rival db (request db n i j s e) c →
      ∀ r ∈ rs, c.resourceId ≠ some r.id := by
  unfold Occupied
  rw [not_or]
  refine and_congr Iff.rfl ?_
  constructor
  · intro h c hc r hr hid
    obtain ⟨hm, hs⟩ := (rival_iff hn).mp hc
    exact h ⟨c, hm, ⟨r, hr, hid⟩, hs⟩
  · rintro h ⟨c, hm, ⟨r, hr, hid⟩, hs⟩
    exact h c ((rival_iff hn).mpr ⟨hm, hs⟩) r hr hid

theorem buyout_free_iff (hn : Fresh db n) {i : Option ℕ} {j : ℕ} :
    (∀ c, Rival db (request db n i j s e) c → ¬ PropertyBuyout db.catalogue p c) ↔
      (∀ c, Rival db (request db n i j s e) c → ∀ r ∈ db.catalogue.buyouts p,
        c.resourceId ≠ some r.id) ∧ ¬ BuyoutHeld db p s e := by
  constructor
  · intro h
    refine ⟨fun c hc r hr hid => h c hc (Or.inl ⟨r, hr, hid⟩), ?_⟩
    rintro ⟨c, hm, hnone, hb, hs⟩
    exact h c ((rival_iff hn).mpr ⟨hm, hs⟩) (Or.inr ⟨hnone, hb⟩)
  · rintro ⟨hfree, hheld⟩ c hc (⟨r, hr, hid⟩ | ⟨hnone, hb⟩)
    · exact hfree c hc r hr hid
    · obtain ⟨hm, hs⟩ := (rival_iff hn).mp hc
      exact hheld ⟨c, hm, hnone, hb, hs⟩

def heldUnits (db : Database) (category : ResourceCategory) (s e : ℤ) : ℕ :=
  ((held db category s e).map Allocation.quantity).sum

theorem category_only_iff (hlt : s < e) (hc : db.catalogue.category? category.id = some category) :
    assertAvailable db (request db n none category.id s e) = .ok () ↔
      assertCategoryCapacity db (request db n none category.id s e) category = .ok () := by
  rw [available_iff]
  constructor
  · rintro ⟨_, _, _, h⟩
    exact (requested_iff hc).mp h
  · intro h
    exact ⟨hlt, rfl, rfl, (requested_iff hc).mpr h⟩

theorem room_iff (hlt : s < e) (hc : db.catalogue.category? category.id = some category)
    (hr : r ∈ activeOfCategory db category) :
    assertAvailable db (request db n (some r.id) category.id s e) = .ok () ↔
      assertResourceAvailable db (request db n (some r.id) category.id s e) r = .ok () ∧
        assertCategoryCapacity db (request db n (some r.id) category.id s e) category = .ok () := by
  have hfound : db.catalogue.resource? r.id = some r :=
    Catalogue.resource?_eq_some.mpr ⟨(mem_activeOfCategory.mp hr).1, rfl⟩
  rw [available_iff]
  constructor
  · rintro ⟨_, ha, _, h⟩
    exact ⟨(assigned_iff hfound).mp ha, (requested_iff hc).mp h⟩
  · rintro ⟨ha, h⟩
    exact ⟨hlt, (assigned_iff hfound).mpr ha, rfl, (requested_iff hc).mpr h⟩

theorem capacity_iff (hn : Fresh db n) (hc : db.catalogue.category? category.id = some category)
    (hs : category.countsAsStay = true) (hr : r ∈ activeOfCategory db category)
    (hb : r.isBuyout = false) {i : Option ℕ} :
    assertCategoryCapacity db (request db n i category.id s e) category = .ok () ↔
      ¬ Occupied db (db.catalogue.buyouts r.propertyId) s e ∧ ¬ BuyoutHeld db r.propertyId s e ∧
        heldUnits db category s e < (openUnits db category s e).length := by
  have hopen : openCapacity db category s e = (openUnits db category s e).length := by
    simp [openCapacity, hs]
  have hle : reservedOfCategory db (request db n i category.id s e) + 1 ≤
      openCapacity db category s e ↔
        heldUnits db category s e < (openUnits db category s e).length := by
    rw [reserved_eq hn, hopen]
    exact Nat.succ_le_iff
  rw [category_available_iff hr hb, category_eq hr hc, buyout_free_iff hn,
    occupied_iff hn (i := i) (j := category.id)]
  constructor
  · rintro ⟨hblock, ⟨hfree, hheld⟩, hcap⟩
    exact ⟨⟨hblock, hfree⟩, hheld, hle.mp hcap⟩
  · rintro ⟨⟨hblock, hfree⟩, hheld, hcap⟩
    exact ⟨hblock, ⟨hfree, hheld⟩, hle.mpr hcap⟩

theorem stays_of_category (hr : r ∈ activeOfCategory db category)
    (hc : db.catalogue.category? category.id = some category) (hs : category.countsAsStay = true) :
    db.catalogue.countsAsStay r = true := by
  simp [Catalogue.countsAsStay, (mem_activeOfCategory.mp hr).2.1, hc, hs]

theorem resource_free_iff (hn : Fresh db n) (hs : db.catalogue.countsAsStay r = true)
    (hb : r.isBuyout = false) {j : ℕ} :
    assertResourceAvailable db (request db n (some r.id) j s e) r = .ok () ↔
      ¬ Occupied db (blockable db.catalogue r) s e := by
  rw [resource_available_iff hb, occupied_iff hn (i := some r.id) (j := j)]
  constructor
  · rintro ⟨hblock, hfree, _⟩
    exact ⟨hblock, hfree⟩
  · rintro ⟨hblock, hfree⟩
    exact ⟨hblock, hfree, fun h => by simp [hs] at h⟩

theorem exclusive_iff (hn : Fresh db n) (hc : db.catalogue.category? category.id = some category)
    (hr : r ∈ activeOfCategory db category) (hb : r.isBuyout = true) :
    assertCategoryCapacity db (request db n none category.id s e) category = .ok () ↔
      ¬ Occupied db (db.catalogue.ofProperty r.propertyId) s e ∧
        ¬ PropertyHeld db r.propertyId s e := by
  rw [exclusive_available_iff hr hb, category_eq hr hc,
    occupied_iff hn (i := none) (j := category.id)]
  constructor
  · rintro ⟨_, hblock, hrivals⟩
    refine ⟨⟨hblock, fun c hx q hq hid => (hrivals c hx).1 ⟨q, hq, hid⟩⟩, ?_⟩
    rintro ⟨c, hm, hcat, hst⟩
    rw [(hrivals c ((rival_iff hn).mpr ⟨hm, hst⟩)).2] at hcat
    cases hcat
  · rintro ⟨⟨hblock, hfree⟩, hheld⟩
    refine ⟨rfl, hblock, fun c hx => ⟨fun ⟨q, hq, hid⟩ => hfree c hx q hq hid, ?_⟩⟩
    obtain ⟨hm, hst⟩ := (rival_iff hn).mp hx
    by_contra hcat
    exact hheld ⟨c, hm, by simpa using hcat, hst⟩

-- Each unblocked room of a full category carries a standing allocation filed under the category.
theorem units_le_held (h : Lawful db)
    (hfull : ∀ u ∈ openUnits db category s e, ∃ a ∈ db.allocations.rows,
      a.resourceId = some u.id ∧ Stands db s e a) :
    (openUnits db category s e).length ≤ heldUnits db category s e := by
  have hsub : (openUnits db category s e).map (fun u => some u.id) ⊆
      (held db category s e).map Allocation.resourceId := by
    intro o ho
    obtain ⟨u, hu, rfl⟩ := List.mem_map.mp ho
    obtain ⟨a, ha, hid, hst⟩ := hfull u hu
    refine List.mem_map.mpr ⟨a, ?_, hid⟩
    obtain ⟨q, hq, hqc⟩ := h.filed a ha u.id hid
    obtain ⟨hum, huc, _⟩ := mem_activeOfCategory.mp (mem_openUnits.mp hu).1
    obtain ⟨hqm, hqid⟩ := Catalogue.resource?_eq_some.mp hq
    have hqu : q = u := Table.eq_of_id hqm hum hqid
    simp [held, Table.mem_select, ha, hst, hqc, hqu, huc]
  have hnodup : ((openUnits db category s e).map fun u => some u.id).Nodup := by
    have hids : ((openUnits db category s e).map Resource.id).Nodup := by
      have hsl : (openUnits db category s e).Sublist db.catalogue.resources.rows :=
        List.filter_sublist.trans List.filter_sublist
      exact db.catalogue.resources.nodup.sublist (hsl.map Resource.id)
    have hsome := hids.map (Option.some_injective ℕ)
    rwa [List.map_map] at hsome
  have hlen := (List.subperm_of_subset hnodup hsub).length_le
  rw [List.length_map, List.length_map] at hlen
  refine hlen.trans ?_
  have hone : ∀ q ∈ (held db category s e).map Allocation.quantity, 1 ≤ q := by
    intro q hq
    obtain ⟨a, ha, rfl⟩ := List.mem_map.mp hq
    exact h.positive a (Table.mem_select.mp ha).1
  have hsum := List.length_le_sum_of_one_le _ hone
  rwa [List.length_map] at hsum

end Requests

section Agreement
variable {db : Database} {p n : ℕ} {s e occupancy : ℤ} {categoryId : Option ℕ} {r : Resource}
  {category : ResourceCategory}

def Hidden (db : Database) (category : ResourceCategory) (r : Resource) (s e : ℤ) : Prop :=
  if r.isBuyout then
    Occupied db (db.catalogue.ofProperty r.propertyId) s e ∨ PropertyHeld db r.propertyId s e
  else BuyoutHeld db r.propertyId s e ∨
    (openUnits db category s e).length ≤ heldUnits db category s e

def Unhidden (db : Database) (p : ℕ) (s e : ℤ) (categoryId : Option ℕ) : Prop :=
  ∀ category ∈ stayCategories db p categoryId, ∀ r ∈ activeOfCategory db category,
    Occupied db (blockable db.catalogue r) s e ∨ ¬ Hidden db category r s e

instance (db : Database) (category : ResourceCategory) (r : Resource) (s e : ℤ) :
    Decidable (Hidden db category r s e) := by
  unfold Hidden
  infer_instance

instance (db : Database) (p : ℕ) (s e : ℤ) (categoryId : Option ℕ) :
    Decidable (Unhidden db p s e categoryId) := by
  unfold Unhidden
  infer_instance

structure Agrees (db : Database) (p : ℕ) (s e occupancy : ℤ) (categoryId : Option ℕ) (n : ℕ)
    (found : List CategoryRow × List ResourceRow) : Prop where
  rooms : ∀ row ∈ found.2, row.isBuyout = false → (row.available = true ↔
    assertAvailable db (request db n (some row.id) row.categoryId s e) = .ok ())
  categories : ∀ row ∈ found.1, (row.available = true ↔
    assertAvailable db (request db n none row.id s e) = .ok ())

theorem occupied_mono {rs rs' : List Resource} (hsub : rs ⊆ rs') (h : Occupied db rs s e) :
    Occupied db rs' s e := by
  rcases h with ⟨b, hb, ⟨r, hr, hid⟩, hm⟩ | ⟨a, ha, ⟨r, hr, hid⟩, hs⟩
  · exact Or.inl ⟨b, hb, ⟨r, hsub hr, hid⟩, hm⟩
  · exact Or.inr ⟨a, ha, ⟨r, hsub hr, hid⟩, hs⟩

theorem buyouts_blockable : db.catalogue.buyouts r.propertyId ⊆ blockable db.catalogue r :=
  List.subset_append_left _ _

theorem blockable_property (hr : r ∈ activeOfCategory db category) :
    blockable db.catalogue r ⊆ db.catalogue.ofProperty r.propertyId := by
  intro q hq
  rcases List.mem_append.mp hq with hq | hq
  · exact (List.mem_filter.mp hq).1
  · obtain rfl := List.mem_singleton.mp hq
    exact Catalogue.mem_ofProperty.mpr ⟨(mem_activeOfCategory.mp hr).1, rfl⟩

theorem known_of_listed (hc : category ∈ stayCategories db p categoryId) :
    db.catalogue.category? category.id = some category ∧ category.countsAsStay = true := by
  obtain ⟨hm, _, hs, _⟩ := mem_stayCategories.mp hc
  exact ⟨Table.find?_eq_some.mpr ⟨hm, rfl⟩, hs⟩

theorem room_accepted_iff (hn : Fresh db n) (hlt : s < e)
    (hc : category ∈ stayCategories db p categoryId) (hr : r ∈ activeOfCategory db category)
    (hb : r.isBuyout = false) :
    assertAvailable db (request db n (some r.id) category.id s e) = .ok () ↔
      ¬ Occupied db (blockable db.catalogue r) s e ∧ ¬ Hidden db category r s e := by
  obtain ⟨hknown, hs⟩ := known_of_listed hc
  rw [room_iff hlt hknown hr, resource_free_iff hn (stays_of_category hr hknown hs) hb,
    capacity_iff hn hknown hs hr hb, Hidden, hb, if_neg (by simp), not_or, not_le]
  constructor
  · rintro ⟨hfree, _, hheld⟩
    exact ⟨hfree, hheld⟩
  · rintro ⟨hfree, hheld⟩
    exact ⟨hfree, fun ho => hfree (occupied_mono buyouts_blockable ho), hheld⟩

theorem offered_iff (hc : category ∈ stayCategories db p categoryId)
    (hcap : ∀ r ∈ db.catalogue.ofProperty p, occupancy ≤ r.capacity) :
    (categoryRow category (offered db p s e occupancy categoryId category)).available = true ↔
      ∃ r ∈ activeOfCategory db category, ¬ Occupied db (blockable db.catalogue r) s e := by
  have hp : ∀ r ∈ activeOfCategory db category, occupancy ≤ r.capacity := fun r hr => by
    have hrp := (category_eq hr (known_of_listed hc).1).symm.trans (mem_stayCategories.mp hc).2.1
    exact hcap r (Catalogue.mem_ofProperty.mpr ⟨(mem_activeOfCategory.mp hr).1, hrp⟩)
  simp only [categoryRow, Bool.not_eq_true', List.isEmpty_eq_false_iff_exists_mem]
  constructor
  · rintro ⟨r, ho⟩
    have hr : r ∈ activeOfCategory db category := mem_resourcesOf.mp (List.mem_filter.mp ho).1
    exact ⟨r, hr, (mem_offered hc hr (hp r hr)).mp ho⟩
  · rintro ⟨r, hr, hfree⟩
    exact ⟨r, (mem_offered hc hr (hp r hr)).mpr hfree⟩

theorem accepted_of_offered (hn : Fresh db n) (hlt : s < e)
    (hc : category ∈ stayCategories db p categoryId) (hr : r ∈ activeOfCategory db category)
    (hfree : ¬ Occupied db (blockable db.catalogue r) s e) :
    assertAvailable db (request db n none category.id s e) = .ok () ↔ ¬ Hidden db category r s e := by
  obtain ⟨hknown, hs⟩ := known_of_listed hc
  have hbuyouts : ¬ Occupied db (db.catalogue.buyouts r.propertyId) s e :=
    fun ho => hfree (occupied_mono buyouts_blockable ho)
  rw [category_only_iff hlt hknown, Hidden]
  cases hb : r.isBuyout with
  | true => rw [exclusive_iff hn hknown hr hb, if_pos rfl, not_or]
  | false =>
    rw [capacity_iff hn hknown hs hr hb, if_neg (by simp), not_or, not_le]
    exact ⟨fun h => h.2, fun h => ⟨hbuyouts, h⟩⟩

theorem offered_of_accepted (h : Lawful db) (hn : Fresh db n) (hlt : s < e)
    (hc : category ∈ stayCategories db p categoryId)
    (hok : assertAvailable db (request db n none category.id s e) = .ok ()) :
    ∃ r ∈ activeOfCategory db category, ¬ Occupied db (blockable db.catalogue r) s e := by
  obtain ⟨hknown, hs⟩ := known_of_listed hc
  rw [category_only_iff hlt hknown] at hok
  obtain ⟨r, hr⟩ : ∃ r, r ∈ activeOfCategory db category := by
    simp only [assertCategoryCapacity, bind_eq_ok, found_eq_ok] at hok
    obtain ⟨r, hhead, _⟩ := hok
    exact ⟨r, List.mem_of_head? hhead⟩
  cases hb : r.isBuyout with
  | true =>
    obtain ⟨hfree, _⟩ := (exclusive_iff hn hknown hr hb).mp hok
    exact ⟨r, hr, fun ho => hfree (occupied_mono (blockable_property hr) ho)⟩
  | false =>
    obtain ⟨hbuyouts, _, hcap⟩ := (capacity_iff hn hknown hs hr hb).mp hok
    by_contra hnone
    have hfull : ∀ u ∈ openUnits db category s e, ∃ a ∈ db.allocations.rows,
        a.resourceId = some u.id ∧ Stands db s e a := by
      intro u hu
      obtain ⟨hua, hub⟩ := mem_openUnits.mp hu
      have hocc : Occupied db (blockable db.catalogue u) s e := by
        by_contra hfree
        exact hnone ⟨u, hua, hfree⟩
      have hp : u.propertyId = r.propertyId :=
        (category_eq hua hknown).symm.trans (category_eq hr hknown)
      rw [blockable, hp, occupied_append] at hocc
      rcases (hocc.resolve_left hbuyouts).resolve_left hub with ⟨a, ha, ⟨q, hq, hid⟩, hst⟩
      rw [List.mem_singleton.mp hq] at hid
      exact ⟨a, ha, hid, hst⟩
    exact absurd (units_le_held h hfull) (not_le.mpr hcap)

theorem agrees_iff (h : Lawful db) (hn : Fresh db n) (hlt : s < e) (hocc : 1 ≤ occupancy)
    (hcap : ∀ r ∈ db.catalogue.ofProperty p, occupancy ≤ r.capacity) :
    (∃ found, forStay db p s e occupancy categoryId none = .ok found ∧
        Agrees db p s e occupancy categoryId n found) ↔ Unhidden db p s e categoryId := by
  have hfits : ∀ c ∈ stayCategories db p categoryId, ∀ r ∈ activeOfCategory db c,
      occupancy ≤ r.capacity := fun c hc r hr => by
    have hrp := (category_eq hr (known_of_listed hc).1).symm.trans (mem_stayCategories.mp hc).2.1
    exact hcap r (Catalogue.mem_ofProperty.mpr ⟨(mem_activeOfCategory.mp hr).1, hrp⟩)
  rw [forStay_eq hlt hocc]
  constructor
  · rintro ⟨_, hfound, hagrees⟩ c hc r hr
    obtain rfl := Except.ok.inj hfound
    rw [or_iff_not_imp_left]
    intro hfree
    cases hb : r.isBuyout with
    | true =>
      have hrow := hagrees.categories _ (List.mem_map_of_mem hc)
      rw [offered_iff hc hcap] at hrow
      exact (accepted_of_offered hn hlt hc hr hfree).mp (hrow.mp ⟨r, hr, hfree⟩)
    | false =>
      have hrow := hagrees.rooms _ (List.mem_flatMap.mpr
        ⟨c, hc, List.mem_map_of_mem (mem_resourcesOf.mpr hr)⟩) hb
      rw [offered_row hr, mem_offered hc hr (hfits c hc r hr)] at hrow
      exact ((room_accepted_iff hn hlt hc hr hb).mp (hrow.mp hfree)).2
  · intro hun
    refine ⟨_, rfl, fun row hrow hb => ?_, fun row hrow => ?_⟩
    · obtain ⟨c, hc, hrow⟩ := List.mem_flatMap.mp hrow
      obtain ⟨r, hr, rfl⟩ := List.mem_map.mp hrow
      have hr := mem_resourcesOf.mp hr
      rw [offered_row hr, mem_offered hc hr (hfits c hc r hr)]
      refine Iff.trans ?_ (room_accepted_iff hn hlt hc hr hb).symm
      constructor
      · intro hfree
        exact ⟨hfree, (hun c hc r hr).resolve_left hfree⟩
      · rintro ⟨hfree, _⟩
        exact hfree
    · obtain ⟨c, hc, rfl⟩ := List.mem_map.mp hrow
      rw [offered_iff hc hcap]
      constructor
      · rintro ⟨r, hr, hfree⟩
        exact (accepted_of_offered hn hlt hc hr hfree).mpr ((hun c hc r hr).resolve_left hfree)
      · exact offered_of_accepted h hn hlt hc

end Agreement

section Scenario
open Overbooking

def standing (resourceId : Option ℕ) (i : ℕ) : Allocation where
  id := i
  reservationId := i
  requestedCategoryId := some 0
  resourceId := resourceId
  serviceOccurrenceId := none
  status := .confirmed
  startsAt := 1000
  endsAt := 2000
  quantity := 1

def oneCabinTaken : Database where
  clock := 0
  catalogue := lodge
  allocations := Table.empty.insert (standing (some 0))

def bothCabinsHeld : Database where
  clock := 0
  catalogue := lodge
  allocations := (Table.empty.insert (standing none)).insert (standing none)

theorem lawful_oneCabinTaken : Lawful oneCabinTaken := by
  have hrows : oneCabinTaken.allocations.rows = [standing (some 0) 0] := rfl
  constructor
  · intro a ha i hi
    rw [hrows, List.mem_singleton] at ha
    subst ha
    obtain rfl : 0 = i := Option.some.inj hi
    exact ⟨resource 0 false 0, rfl, rfl⟩
  · simp [hrows, standing]

theorem one_cabin_left : ∃ found, forStay oneCabinTaken 0 1500 2500 2 (some 0) none = .ok found ∧
    Agrees oneCabinTaken 0 1500 2500 2 (some 0) 7 found :=
  (agrees_iff lawful_oneCabinTaken (by decide) (by decide) (by decide)
    (by decide)).mpr (by decide +kernel)

def sold (found : List CategoryRow × List ResourceRow) : Bool :=
  found.1.any fun row => row.available && decide (row.id = 0)

-- The search looks at assigned cabins only, the check counts the holds on the category as well.
theorem held_category_is_offered : Lawful bothCabinsHeld ∧ Fresh bothCabinsHeld 7 ∧
    ∃ found, forStay bothCabinsHeld 0 1000 2000 2 none none = .ok found ∧
      ¬ Agrees bothCabinsHeld 0 1000 2000 2 none 7 found := by
  refine ⟨⟨?_, by decide⟩, by decide +kernel, _, forStay_eq (by decide) (by decide),
    fun hagrees => ?_⟩
  · intro a ha i hi
    have hnone : ∀ a ∈ bothCabinsHeld.allocations.rows, a.resourceId = none := by decide
    rw [hnone a ha] at hi
    cases hi
  · have hsold : (forStay bothCabinsHeld 0 1000 2000 2 none none).toOption.any sold = true := by
      decide
    rw [forStay_eq (by decide) (by decide)] at hsold
    obtain ⟨row, hrow, hb⟩ := List.any_eq_true.mp hsold
    simp only [Bool.and_eq_true, decide_eq_true_eq] at hb
    have hok := (hagrees.categories row hrow).mp hb.1
    rw [hb.2] at hok
    exact absurd hok (by decide)

end Scenario
end AvailabilityQuery
