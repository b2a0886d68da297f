import LodgeOps.Inventory.Clearance

namespace Admission
open Schema Occupancy Availability Clearance

section Blocks
variable {db : Database} {x : Allocation} {rs : List Resource} {r : Resource}

def Blocked (db : Database) (rs : List Resource) (s e : ℤ) : Prop :=
  ∃ b ∈ db.blocks.rows, (∃ r ∈ rs, b.resourceId = r.id) ∧ Meets b.startsAt b.endsAt s e

instance (db : Database) (rs : List Resource) (s e : ℤ) : Decidable (Blocked db rs s e) := by
  unfold Blocked
  infer_instance

theorem blockedBy_eq_nil {ids : List ℕ} : blockedBy db ids x = [] ↔
    ¬ ∃ b ∈ db.blocks.rows, b.resourceId ∈ ids ∧ Meets b.startsAt b.endsAt x.startsAt x.endsAt := by
  simp [blockedBy, Table.select, List.filter_eq_nil_iff, overlapping]

theorem unblocked_iff : blockedBy db (idsOf rs) x = [] ↔ ¬ Blocked db rs x.startsAt x.endsAt := by
  have hids : ∀ i, i ∈ idsOf rs ↔ ∃ r ∈ rs, i = r.id := fun i => by
    simp only [idsOf, List.mem_map]
    exact exists_congr fun _ => and_congr_right fun _ => eq_comm
  rw [blockedBy_eq_nil]
  unfold Blocked
  simp only [hids]

theorem blocked_append {rs' : List Resource} {s e : ℤ} :
    Blocked db (rs ++ rs') s e ↔ Blocked db rs s e ∨ Blocked db rs' s e := by
  constructor
  · rintro ⟨b, hb, ⟨r, hr, hid⟩, hm⟩
    rcases List.mem_append.mp hr with hr | hr
    · exact Or.inl ⟨b, hb, ⟨r, hr, hid⟩, hm⟩
    · exact Or.inr ⟨b, hb, ⟨r, hr, hid⟩, hm⟩
  · rintro (⟨b, hb, ⟨r, hr, hid⟩, hm⟩ | ⟨b, hb, ⟨r, hr, hid⟩, hm⟩)
    · exact ⟨b, hb, ⟨r, List.mem_append_left _ hr, hid⟩, hm⟩
    · exact ⟨b, hb, ⟨r, List.mem_append_right _ hr, hid⟩, hm⟩

def openUnits (db : Database) (category : ResourceCategory) (s e : ℤ) : List Resource :=
  (activeOfCategory db category).filter fun r => !decide (Blocked db [r] s e)

def openCapacity (db : Database) (category : ResourceCategory) (s e : ℤ) : ℕ :=
  if category.countsAsStay then (openUnits db category s e).length
  else ((openUnits db category s e).map Resource.capacity).sum

theorem mem_activeOfCategory {category : ResourceCategory} : r ∈ activeOfCategory db category ↔
    r ∈ db.catalogue.resources.rows ∧ r.categoryId = category.id ∧ r.isActive = true := by
  simp [activeOfCategory, Table.mem_select]

theorem mem_openUnits {category : ResourceCategory} {s e : ℤ} : r ∈ openUnits db category s e ↔
    r ∈ activeOfCategory db category ∧ ¬ Blocked db [r] s e := by
  simp [openUnits]

theorem not_contains_blocked (hr : r ∈ rs) :
    (!((blockedBy db (idsOf rs) x).map ResourceBlock.resourceId).contains r.id) =
      !decide (Blocked db [r] x.startsAt x.endsAt) := by
  have hin : r.id ∈ idsOf rs := List.mem_map_of_mem hr
  have hiff : r.id ∈ (blockedBy db (idsOf rs) x).map ResourceBlock.resourceId ↔
      Blocked db [r] x.startsAt x.endsAt := by
    simp only [List.mem_map, blockedBy, Table.mem_select, Bool.and_eq_true, List.contains_iff_mem,
      overlapping, decide_eq_true_eq, Blocked, List.mem_singleton, exists_eq_left]
    constructor
    · rintro ⟨b, ⟨hb, _, hm⟩, hid⟩
      exact ⟨b, hb, hid, hm⟩
    · rintro ⟨b, hb, hid, hm⟩
      exact ⟨b, ⟨hb, hid ▸ hin, hm⟩, hid⟩
  congr 1
  rw [Bool.eq_iff_iff]
  simpa using hiff

end Blocks

section Resources
variable {db : Database} {x c : Allocation} {r : Resource}

def blockable (k : Catalogue) (r : Resource) : List Resource := k.buyouts r.propertyId ++ [r]

theorem conflictingResourceIds_ordinary (hb : r.isBuyout = false) :
    conflictingResourceIds db r = idsOf (blockable db.catalogue r) := by
  simp [conflictingResourceIds, hb, blockable, idsOf]

theorem allocatedQuantity_zero
    (h : ∀ c, Rival db x c → c.resourceId ≠ some r.id) : allocatedQuantity db x r = 0 := by
  have hnil : (resourceConflicts db x r).filter (fun c => c.resourceId == some r.id) = [] := by
    refine List.filter_eq_nil_iff.mpr fun c hc => ?_
    simpa using h c (mem_rivals.mp hc).2
  simp [allocatedQuantity, hnil]

theorem resource_available_iff (hb : r.isBuyout = false) :
    assertResourceAvailable db x r = .ok () ↔
      ¬ Blocked db (blockable db.catalogue r) x.startsAt x.endsAt ∧
        (∀ c, Rival db x c → ∀ s ∈ blockable db.catalogue r, c.resourceId ≠ some s.id) ∧
          (db.catalogue.countsAsStay r = false → x.quantity ≤ r.capacity) := by
  constructor
  · intro h
    have hfree : ∀ c, Rival db x c → ∀ s ∈ blockable db.catalogue r, c.resourceId ≠ some s.id := by
      intro c hc s hs hid
      have hn := not_onResources h hc
      rw [conflictingResourceIds_ordinary hb, onResources_iff.mpr ⟨s, hs, hid⟩] at hn
      cases hn
    refine ⟨?_, hfree, quantity_le h⟩
    simp only [assertResourceAvailable, bind_eq_ok, refuse_eq_ok] at h
    obtain ⟨_, hblocks, _⟩ := h
    rw [conflictingResourceIds_ordinary hb, not_not, unblocked_iff] at hblocks
    exact hblocks
  · rintro ⟨hblock, hfree, hcap⟩
    have hself : ∀ c, Rival db x c → c.resourceId ≠ some r.id := fun c hc =>
      hfree c hc r (by simp [blockable])
    have hexclusive : exclusiveConflict db x r = none := by
      simp only [exclusiveConflict, hb, Bool.false_eq_true, if_false]
      refine List.find?_eq_none.mpr fun c hc hon => ?_
      rw [conflictingResourceIds_ordinary hb] at hon
      obtain ⟨s, hs, hid⟩ := onResources_iff.mp hon
      exact hfree c (mem_rivals.mp hc).2 s hs hid
    simp only [assertResourceAvailable, bind_eq_ok, refuse_eq_ok]
    refine ⟨(), ?_, (), ?_, ?_⟩
    · rwa [conflictingResourceIds_ordinary hb, not_not, unblocked_iff]
    · simp [hexclusive]
    · rw [allocatedQuantity_zero hself]
      rintro (⟨_, hlt⟩ | ⟨hs, hlt⟩)
      · omega
      · have hle := hcap hs
        omega

end Resources

section Categories
variable {db : Database} {x c : Allocation} {r : Resource} {category : ResourceCategory} {p : ℕ}

theorem buyoutRivals_eq_nil : buyoutRivals db x p = [] ↔
    ∀ c, Rival db x c → ¬ PropertyBuyout db.catalogue p c := by
  have hiff : ∀ c, (onResources (idsOf (db.catalogue.buyouts p)) c ||
      categoryOnly (categoryIdsOf (db.catalogue.buyouts p)).contains c) = true ↔
        PropertyBuyout db.catalogue p c := by
    intro c
    rw [Bool.or_eq_true, onResources_iff]
    refine or_congr Iff.rfl ?_
    cases hi : c.resourceId with
    | some i => simp [categoryOnly, hi]
    | none =>
      cases hc : c.requestedCategoryId with
      | none => simp [categoryOnly, hi, hc]
      | some j =>
        simp only [categoryOnly, hi, hc, Option.isNone_none, Bool.true_and, Option.any_some,
          List.contains_iff_mem, categoryIdsOf, List.mem_map, true_and, Option.some.injEq]
        exact exists_congr fun _ => and_congr_right fun _ => eq_comm
  constructor
  · intro h c hc hb
    have hn := not_target_of_rivals_nil h hc
    rw [(hiff c).mpr hb] at hn
    cases hn
  · intro h
    refine List.eq_nil_iff_forall_not_mem.mpr fun c hc => ?_
    obtain ⟨ht, hr⟩ := mem_rivals.mp hc
    exact h c hr ((hiff c).mp ht)

theorem propertyRivals_eq_nil : propertyRivals db x p = [] ↔ ∀ c, Rival db x c →
    ¬ HoldsResource db.catalogue p c ∧ categoryOnly (db.catalogue.inProperty · p) c = false := by
  have hiff : ∀ c, onResources (idsOf (db.catalogue.ofProperty p)) c = true ↔
      HoldsResource db.catalogue p c := fun c => onResources_iff
  constructor
  · intro h c hc
    have hn := not_target_of_rivals_nil h hc
    rw [Bool.or_eq_false_iff] at hn
    refine ⟨fun hh => ?_, hn.2⟩
    rw [(hiff c).mpr hh] at hn
    cases hn.1
  · intro h
    refine List.eq_nil_iff_forall_not_mem.mpr fun c hc => ?_
    obtain ⟨ht, hr⟩ := mem_rivals.mp hc
    rcases (Bool.or_eq_true _ _).mp ht with ht | ht
    · exact (h c hr).1 ((hiff c).mp ht)
    · rw [(h c hr).2] at ht
      cases ht

theorem category_eq (hr : r ∈ activeOfCategory db category)
    (hc : db.catalogue.category? category.id = some category) :
    category.propertyId = r.propertyId := by
  obtain ⟨hm, hid, _⟩ := mem_activeOfCategory.mp hr
  obtain ⟨known, hknown, hp⟩ := Catalogue.category_of_resource hm
  rw [hid, hc] at hknown
  obtain rfl := Option.some.inj hknown
  exact hp

theorem first_kind {f : Resource} (hr : r ∈ activeOfCategory db category)
    (hf : (activeOfCategory db category).head? = some f) : f.isBuyout = r.isBuyout := by
  obtain ⟨hm, hid, _⟩ := mem_activeOfCategory.mp hr
  obtain ⟨hfm, hfid, _⟩ := mem_activeOfCategory.mp (List.mem_of_head? hf)
  exact db.catalogue.separated f hfm r hm (hfid.trans hid.symm)

theorem exists_first (hr : r ∈ activeOfCategory db category) :
    ∃ f, (activeOfCategory db category).head? = some f := by
  cases h : activeOfCategory db category with
  | nil => simp [h] at hr
  | cons f fs => exact ⟨f, rfl⟩

theorem category_available_iff (hr : r ∈ activeOfCategory db category) (hb : r.isBuyout = false) :
    assertCategoryCapacity db x category = .ok () ↔
      ¬ Blocked db (db.catalogue.buyouts category.propertyId) x.startsAt x.endsAt ∧
        (∀ c, Rival db x c → ¬ PropertyBuyout db.catalogue category.propertyId c) ∧
          reservedOfCategory db x + x.quantity ≤ openCapacity db category x.startsAt x.endsAt := by
  obtain ⟨f, hf⟩ := exists_first hr
  have hfb : f.isBuyout = false := (first_kind hr hf).trans hb
  have hfree : (activeOfCategory db category).filter (fun s =>
      !((blockedBy db (idsOf (activeOfCategory db category)) x).map
        ResourceBlock.resourceId).contains s.id) = openUnits db category x.startsAt x.endsAt :=
    List.filter_congr fun s hs => not_contains_blocked hs
  simp only [assertCategoryCapacity, bind_eq_ok, found_eq_ok, hf, Option.some.injEq,
    exists_eq_left', hfb, Bool.false_eq_true, if_false, refuse_eq_ok, hfree, not_not, not_lt,
    unblocked_iff, buyoutRivals_eq_nil]
  constructor
  · rintro ⟨_, hblock, _, hrivals, hle⟩
    exact ⟨hblock, hrivals, hle⟩
  · rintro ⟨hblock, hrivals, hle⟩
    exact ⟨(), hblock, (), hrivals, hle⟩

theorem exclusive_available_iff (hr : r ∈ activeOfCategory db category) (hb : r.isBuyout = true) :
    assertCategoryCapacity db x category = .ok () ↔ x.quantity = 1 ∧
      ¬ Blocked db (db.catalogue.ofProperty category.propertyId) x.startsAt x.endsAt ∧
        ∀ c, Rival db x c → ¬ HoldsResource db.catalogue category.propertyId c ∧
          categoryOnly (db.catalogue.inProperty · category.propertyId) c = false := by
  obtain ⟨f, hf⟩ := exists_first hr
  have hfb : f.isBuyout = true := (first_kind hr hf).trans hb
  simp only [assertCategoryCapacity, assertExclusiveCategoryAvailable, bind_eq_ok, found_eq_ok, hf,
    Option.some.injEq, exists_eq_left', hfb, if_true, refuse_eq_ok, not_not, unblocked_iff,
    propertyRivals_eq_nil]
  constructor
  · rintro ⟨_, hq, _, hblock, hrivals⟩
    exact ⟨hq, hblock, hrivals⟩
  · rintro ⟨hq, hblock, hrivals⟩
    exact ⟨(), hq, (), hblock, hrivals⟩

end Categories

section Requests
variable {db : Database} {x : Allocation}

theorem available_iff : assertAvailable db x = .ok () ↔ x.startsAt < x.endsAt ∧
    assertAssigned db x x.resourceId = .ok () ∧ assertService db x x.serviceOccurrenceId = .ok () ∧
      assertRequested db x x.requestedCategoryId = .ok () := by
  simp only [assertAvailable, bind_eq_ok, refuse_eq_ok, not_le]
  constructor
  · rintro ⟨_, hlt, _, ha, _, hs, hr⟩
    exact ⟨hlt, ha, hs, hr⟩
  · rintro ⟨hlt, ha, hs, hr⟩
    exact ⟨(), hlt, (), ha, (), hs, hr⟩

theorem assigned_iff {i : ℕ} {r : Resource} (hr : db.catalogue.resource? i = some r) :
    assertAssigned db x (some i) = .ok () ↔ assertResourceAvailable db x r = .ok () := by
  simp [assertAssigned, hr]

theorem requested_iff {i : ℕ} {category : ResourceCategory}
    (hc : db.catalogue.category? i = some category) :
    assertRequested db x (some i) = .ok () ↔ assertCategoryCapacity db x category = .ok () := by
  simp [assertRequested, hc]

end Requests
end Admission
