import LodgeOps.Inventory.Availability

namespace Clearance
open Schema Occupancy Availability

section Rivals
variable {db : Database} {x c : Allocation}

def Rival (db : Database) (x c : Allocation) : Prop :=
  c ∈ db.allocations.rows ∧ c.id ≠ x.id ∧ activeAllocationScope db x c = true ∧
    Meets c.startsAt c.endsAt x.startsAt x.endsAt

theorem mem_rivals {targets : Allocation → Bool} :
    c ∈ rivals db x targets ↔ targets c = true ∧ Rival db x c := by
  simp only [rivals, Table.mem_select, Rival, overlapping, Bool.and_eq_true, bne_iff_ne,
    decide_eq_true_eq]
  tauto

theorem not_target_of_rivals_nil {targets : Allocation → Bool} (h : rivals db x targets = [])
    (hc : Rival db x c) : targets c = false := by
  by_contra ht
  have hm : c ∈ rivals db x targets := mem_rivals.mpr ⟨by simpa using ht, hc⟩
  simp [h] at hm

theorem onResources_iff {rs : List Resource} :
    onResources (idsOf rs) c = true ↔ ∃ r ∈ rs, c.resourceId = some r.id := by
  cases hc : c.resourceId with
  | none => simp [onResources, hc]
  | some i =>
    simp only [onResources, hc, idsOf, Option.any_some, List.contains_iff_mem, List.mem_map,
      Option.some.injEq]
    constructor
    · rintro ⟨r, hr, h⟩
      exact ⟨r, hr, h.symm⟩
    · rintro ⟨r, hr, h⟩
      exact ⟨r, hr, h.symm⟩

end Rivals

section Relations
variable {k : Catalogue} {a b : Allocation} {p : ℕ}

def HoldsResource (k : Catalogue) (p : ℕ) (a : Allocation) : Prop :=
  ∃ r ∈ k.ofProperty p, a.resourceId = some r.id

def PropertyBuyout (k : Catalogue) (p : ℕ) (b : Allocation) : Prop :=
  (∃ r ∈ k.buyouts p, b.resourceId = some r.id) ∨
    (b.resourceId = none ∧ ∃ r ∈ k.buyouts p, b.requestedCategoryId = some r.categoryId)

instance : Decidable (HoldsResource k p a) := by
  unfold HoldsResource
  infer_instance

instance : Decidable (PropertyBuyout k p a) := by
  unfold PropertyBuyout
  infer_instance

def Clash (k : Catalogue) (a b : Allocation) : Prop :=
  Meets a.startsAt a.endsAt b.startsAt b.endsAt ∧
    ((∃ i, a.resourceId = some i ∧ b.resourceId = some i) ∨
      (∃ p, HoldsResource k p a ∧ PropertyBuyout k p b) ∨
      (∃ p, HoldsResource k p b ∧ PropertyBuyout k p a))

theorem Clash.symm (h : Clash k a b) : Clash k b a := by
  obtain ⟨hm, h⟩ := h
  refine ⟨hm.symm, ?_⟩
  rcases h with ⟨i, ha, hb⟩ | h | h
  · exact Or.inl ⟨i, hb, ha⟩
  · exact Or.inr (Or.inr h)
  · exact Or.inr (Or.inl h)

def Fits (k : Catalogue) (a : Allocation) : Prop :=
  ∀ r ∈ k.resources.rows, a.resourceId = some r.id → k.countsAsStay r = false →
    a.quantity ≤ r.capacity

def Filed (k : Catalogue) (a : Allocation) : Prop :=
  ∀ i, a.resourceId = some i →
    ∃ r, k.resource? i = some r ∧ a.requestedCategoryId = some r.categoryId

structure SameSpan (a b : Allocation) : Prop where
  id : a.id = b.id
  resourceId : a.resourceId = b.resourceId
  requestedCategoryId : a.requestedCategoryId = b.requestedCategoryId
  startsAt : a.startsAt = b.startsAt
  endsAt : a.endsAt = b.endsAt
  quantity : a.quantity = b.quantity

theorem SameSpan.refl (a : Allocation) : SameSpan a a := ⟨rfl, rfl, rfl, rfl, rfl, rfl⟩

theorem clash_congr {a' b' : Allocation} (ha : SameSpan a a') (hb : SameSpan b b') :
    Clash k a b ↔ Clash k a' b' := by
  unfold Clash HoldsResource PropertyBuyout
  rw [ha.resourceId, ha.requestedCategoryId, ha.startsAt, ha.endsAt, hb.resourceId,
    hb.requestedCategoryId, hb.startsAt, hb.endsAt]

theorem fits_congr {a' : Allocation} (ha : SameSpan a a') : Fits k a ↔ Fits k a' := by
  unfold Fits
  rw [ha.resourceId, ha.quantity]

theorem filed_congr {a' : Allocation} (ha : SameSpan a a') : Filed k a ↔ Filed k a' := by
  unfold Filed
  rw [ha.resourceId, ha.requestedCategoryId]

end Relations

section Checks
variable {db : Database} {x c : Allocation} {r : Resource}

theorem not_onResources (h : assertResourceAvailable db x r = .ok ()) (hc : Rival db x c) :
    onResources (conflictingResourceIds db r) c = false := by
  simp only [assertResourceAvailable, bind_eq_ok, refuse_eq_ok] at h
  obtain ⟨_, _, _, hexclusive, _⟩ := h
  by_contra ht
  have ht : onResources (conflictingResourceIds db r) c = true := by simpa using ht
  have hm : c ∈ resourceConflicts db x r := mem_rivals.mpr ⟨by simp [ht], hc⟩
  cases hb : r.isBuyout with
  | true =>
    have hn : (resourceConflicts db x r).head? = none := by
      simpa [exclusiveConflict, hb] using hexclusive
    rw [List.head?_eq_none_iff] at hn
    simp [hn] at hm
  | false =>
    have hn : (resourceConflicts db x r).find? (onResources (conflictingResourceIds db r)) = none := by
      simpa [exclusiveConflict, hb] using hexclusive
    exact List.find?_eq_none.mp hn c hm ht

theorem not_categoryOnly (h : assertResourceAvailable db x r = .ok ()) (hb : r.isBuyout = true)
    (hc : Rival db x c) : categoryOnly (db.catalogue.inProperty · r.propertyId) c = false := by
  simp only [assertResourceAvailable, bind_eq_ok, refuse_eq_ok] at h
  obtain ⟨_, _, _, hexclusive, _⟩ := h
  have hn : resourceConflicts db x r = [] := by
    simpa [exclusiveConflict, hb] using hexclusive
  have ht := not_target_of_rivals_nil hn hc
  simp only [hb, if_true, Bool.or_eq_false_iff] at ht
  exact ht.2

theorem quantity_le (h : assertResourceAvailable db x r = .ok ())
    (hs : db.catalogue.countsAsStay r = false) : x.quantity ≤ r.capacity := by
  simp only [assertResourceAvailable, bind_eq_ok, refuse_eq_ok] at h
  obtain ⟨_, _, _, _, hcapacity⟩ := h
  have hle : ¬ r.capacity < allocatedQuantity db x r + x.quantity :=
    fun hlt => hcapacity (Or.inr ⟨hs, hlt⟩)
  omega

theorem category_rivals {category : ResourceCategory}
    (h : assertCategoryCapacity db x category = .ok ()) :
    ∃ f ∈ db.catalogue.resources.rows, f.categoryId = category.id ∧
      (f.isBuyout = true → propertyRivals db x category.propertyId = []) ∧
      (f.isBuyout = false → buyoutRivals db x category.propertyId = []) := by
  simp only [assertCategoryCapacity, bind_eq_ok, found_eq_ok] at h
  obtain ⟨f, hf, h⟩ := h
  have hm := Table.mem_select.mp (List.mem_of_head? hf)
  simp only [Bool.and_eq_true, beq_iff_eq] at hm
  refine ⟨f, hm.1, hm.2.1, ?_, ?_⟩
  · intro hb
    rw [if_pos hb] at h
    simp only [assertExclusiveCategoryAvailable, bind_eq_ok, refuse_eq_ok] at h
    obtain ⟨_, _, _, _, hn⟩ := h
    simpa using hn
  · intro hb
    rw [if_neg (by simp [hb])] at h
    simp only [bind_eq_ok, refuse_eq_ok] at h
    obtain ⟨_, _, _, hn, _⟩ := h
    simpa using hn

theorem assertAvailable_resource (h : assertAvailable db x = .ok ()) {i : ℕ}
    (hi : x.resourceId = some i) :
    ∃ r, db.catalogue.resource? i = some r ∧ assertResourceAvailable db x r = .ok () := by
  simp only [assertAvailable, bind_eq_ok, hi, assertAssigned, found_eq_ok] at h
  obtain ⟨_, _, _, ⟨r, hr, h⟩, _⟩ := h
  exact ⟨r, hr, h⟩

theorem assertAvailable_category (h : assertAvailable db x = .ok ()) {i : ℕ}
    (hi : x.requestedCategoryId = some i) : ∃ category, db.catalogue.category? i = some category ∧
      assertCategoryCapacity db x category = .ok () := by
  simp only [assertAvailable, bind_eq_ok, hi, assertRequested, found_eq_ok] at h
  obtain ⟨_, _, _, _, _, _, category, hcategory, h⟩ := h
  exact ⟨category, hcategory, h⟩

theorem assertAvailable_interval (h : assertAvailable db x = .ok ()) : x.startsAt < x.endsAt := by
  simp only [assertAvailable, bind_eq_ok, refuse_eq_ok] at h
  obtain ⟨_, hlt, _⟩ := h
  omega

theorem resource_unique (hr : r ∈ db.catalogue.resources.rows) {i : ℕ} {q : Resource}
    (hq : db.catalogue.resource? i = some q) (hi : i = r.id) : q = r := by
  obtain ⟨hqm, hid⟩ := Catalogue.resource?_eq_some.mp hq
  exact Table.eq_of_id hqm hr (hid.trans hi)

theorem own_resource_free {i : ℕ} (h : assertResourceAvailable db x r = .ok ())
    (hr : db.catalogue.resource? i = some r) (hc : Rival db x c) : c.resourceId ≠ some i := by
  intro hci
  have hf := not_onResources h hc
  obtain ⟨hm, hid⟩ := Catalogue.resource?_eq_some.mp hr
  cases hb : r.isBuyout with
  | true =>
    have ht : onResources (idsOf (db.catalogue.ofProperty r.propertyId)) c = true :=
      onResources_iff.mpr ⟨r, Catalogue.mem_ofProperty.mpr ⟨hm, rfl⟩, hid ▸ hci⟩
    simp [conflictingResourceIds, hb, ht] at hf
  | false => simp [conflictingResourceIds, hb, onResources, hci, hid] at hf

theorem not_on_buyout (h : assertResourceAvailable db x r = .ok ()) (hc : Rival db x c)
    {b : Resource} (hb : b ∈ db.catalogue.buyouts r.propertyId) : c.resourceId ≠ some b.id := by
  intro hcb
  have hf := not_onResources h hc
  cases hr : r.isBuyout with
  | true =>
    have ht : onResources (idsOf (db.catalogue.ofProperty r.propertyId)) c = true :=
      onResources_iff.mpr ⟨b, (List.mem_filter.mp hb).1, hcb⟩
    simp [conflictingResourceIds, hr, ht] at hf
  | false =>
    have ht : b.id ∈ idsOf (db.catalogue.buyouts r.propertyId) := List.mem_map_of_mem hb
    simp [conflictingResourceIds, hr, onResources, hcb, ht] at hf

theorem inProperty_of_buyout {b : Resource} {p : ℕ} (hb : b ∈ db.catalogue.buyouts p) :
    db.catalogue.inProperty b.categoryId p = true := by
  obtain ⟨hm, hp, _⟩ := Catalogue.mem_buyouts.mp hb
  obtain ⟨category, hcategory, hcp⟩ := Catalogue.category_of_resource hm
  simp [Catalogue.inProperty, hcategory, hcp, hp]

theorem category_of_filed (h : assertAvailable db x = .ok ()) {i : ℕ} {s : Resource}
    (hs : s ∈ db.catalogue.resources.rows) (hi : i = s.categoryId)
    (hx : x.requestedCategoryId = some i) : (s.isBuyout = true →
        propertyRivals db x s.propertyId = []) ∧
      (s.isBuyout = false → buyoutRivals db x s.propertyId = []) := by
  obtain ⟨category, hcategory, hok⟩ := assertAvailable_category h hx
  obtain ⟨f, hf, hfc, hproperty, hbuyout⟩ := category_rivals hok
  obtain ⟨known, hknown, hp⟩ := Catalogue.category_of_resource hs
  obtain rfl : known = category := by simpa [hi ▸ hcategory] using hknown.symm
  have hid : known.id = s.categoryId := (Table.find?_eq_some.mp hknown).2
  have hsame : f.isBuyout = s.isBuyout :=
    db.catalogue.separated f hf s hs (hfc.trans hid)
  rw [hp] at hproperty hbuyout
  exact ⟨fun hb => hproperty (hsame.trans hb), fun hb => hbuyout (hsame.trans hb)⟩

theorem no_buyout_beside (h : assertAvailable db x = .ok ()) (hx : Filed db.catalogue x) {p : ℕ}
    (hr : r ∈ db.catalogue.ofProperty p) (hxr : x.resourceId = some r.id) (hc : Rival db x c) :
    ¬ PropertyBuyout db.catalogue p c := by
  obtain ⟨hrm, hrp⟩ := Catalogue.mem_ofProperty.mp hr
  obtain ⟨q, hq, hok⟩ := assertAvailable_resource h hxr
  obtain rfl := resource_unique hrm hq rfl
  subst hrp
  rintro (⟨b, hb, hcb⟩ | ⟨hnone, b, hb, hcb⟩)
  · exact not_on_buyout hok hc hb hcb
  · cases hbuyout : q.isBuyout with
    | true =>
      have hf := not_categoryOnly hok hbuyout hc
      simp [categoryOnly, hnone, hcb, inProperty_of_buyout hb] at hf
    | false =>
      obtain ⟨s, hs, hcategory⟩ := hx _ hxr
      obtain rfl := resource_unique hrm hs rfl
      have hn := (category_of_filed h hrm rfl hcategory).2 hbuyout
      have hf := not_target_of_rivals_nil hn hc
      have hm : b.categoryId ∈ categoryIdsOf (db.catalogue.buyouts s.propertyId) :=
        List.mem_map_of_mem hb
      simp [categoryOnly, hnone, hcb, hm] at hf

theorem nothing_beside_buyout (h : assertAvailable db x = .ok ()) {p : ℕ}
    (hr : r ∈ db.catalogue.ofProperty p) (hcr : c.resourceId = some r.id) (hc : Rival db x c) :
    ¬ PropertyBuyout db.catalogue p x := by
  have ht : onResources (idsOf (db.catalogue.ofProperty p)) c = true :=
    onResources_iff.mpr ⟨r, hr, hcr⟩
  rintro (⟨b, hb, hxb⟩ | ⟨_, b, hb, hxb⟩)
  · obtain ⟨hbm, hbp, hbuyout⟩ := Catalogue.mem_buyouts.mp hb
    obtain ⟨q, hq, hok⟩ := assertAvailable_resource h hxb
    obtain rfl := resource_unique hbm hq rfl
    have hf := not_onResources hok hc
    simp [conflictingResourceIds, hbuyout, hbp, ht] at hf
  · obtain ⟨hbm, hbp, hbuyout⟩ := Catalogue.mem_buyouts.mp hb
    have hn := (category_of_filed h hbm rfl hxb).1 hbuyout
    have hf := not_target_of_rivals_nil hn hc
    simp [hbp, ht] at hf

theorem not_clash (h : assertAvailable db x = .ok ()) (hx : Filed db.catalogue x)
    (hc : Rival db x c) : ¬ Clash db.catalogue x c := by
  rintro ⟨-, ⟨i, hxi, hci⟩ | ⟨p, ⟨r, hr, hxr⟩, hb⟩ | ⟨p, ⟨r, hr, hcr⟩, hb⟩⟩
  · obtain ⟨r, hr, hok⟩ := assertAvailable_resource h hxi
    exact own_resource_free hok hr hc hci
  · exact no_buyout_beside h hx hr hxr hc hb
  · exact nothing_beside_buyout h hr hcr hc hb

theorem fits_of_accepted (h : assertAvailable db x = .ok ()) : Fits db.catalogue x := by
  intro r hr hx hs
  obtain ⟨q, hq, hok⟩ := assertAvailable_resource h hx
  obtain ⟨hqm, hid⟩ := Catalogue.resource?_eq_some.mp hq
  rw [Table.eq_of_id hqm hr hid] at hok
  exact quantity_le hok hs

end Checks
end Clearance
