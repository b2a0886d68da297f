import LodgeOps.Store.Placement
import LodgeOps.Inventory.Admission
import LodgeOps.Inventory.Overbooking

namespace CategoryHolds
open Schema Transaction Occupancy Placement Availability AllocationWorkflow Clearance Soundness
open Preservation Admission Overbooking

section Holds
variable {db db' : Database} {category : ResourceCategory} {a b x : Allocation}

def Overlap (a b : Allocation) : Prop := Meets a.startsAt a.endsAt b.startsAt b.endsAt

instance : DecidableRel Overlap := fun a b =>
  inferInstanceAs (Decidable (Meets a.startsAt a.endsAt b.startsAt b.endsAt))

def filedUnder (db : Database) (category : ResourceCategory) : List Allocation :=
  db.allocations.select fun a => a.requestedCategoryId == some category.id && active db a

def rooms (db : Database) (category : ResourceCategory) : List ℕ :=
  idsOf (activeOfCategory db category)

def crowd (db : Database) (category : ResourceCategory) (a : Allocation) : ℕ :=
  (neighbours Overlap (filedUnder db category) a).length

def Occupies (room : Allocation → ℕ) (category : ResourceCategory) (a : Allocation) (i : ℕ) : Prop :=
  a.resourceId = some i ∨
    (a.resourceId = none ∧ a.requestedCategoryId = some category.id ∧ room a = i)

structure Honours (db : Database) (category : ResourceCategory) (room : Allocation → ℕ) : Prop where
  housed : ∀ a ∈ db.allocations.rows, active db a = true → a.resourceId = none →
    a.requestedCategoryId = some category.id → room a ∈ rooms db category
  apart : ∀ a ∈ db.allocations.rows, ∀ b ∈ db.allocations.rows, active db a = true →
    active db b = true → a ≠ b → ∀ t, Covers a.startsAt a.endsAt t → Covers b.startsAt b.endsAt t →
      ∀ i, Occupies room category a i → ¬ Occupies room category b i

structure Placed (db : Database) (category : ResourceCategory) (place : Allocation → ℕ) : Prop where
  proper : Proper Overlap place (filedUnder db category)
  housed : ∀ a ∈ filedUnder db category, a.resourceId = none → place a ∈ rooms db category
  assigned : ∀ a ∈ filedUnder db category, ∀ i, a.resourceId = some i → place a = i

theorem overlap_symm (h : Overlap a b) : Overlap b a := Meets.symm h

theorem mem_filedUnder : a ∈ filedUnder db category ↔
    a ∈ db.allocations.rows ∧ a.requestedCategoryId = some category.id ∧ active db a = true := by
  simp [filedUnder, Table.mem_select]

theorem filedUnder_nodup : (filedUnder db category).Nodup :=
  (List.Nodup.of_map _ db.allocations.nodup).filter _

theorem rooms_nodup : (rooms db category).Nodup := by
  have hsl : (activeOfCategory db category).Sublist db.catalogue.resources.rows :=
    List.filter_sublist
  exact db.catalogue.resources.nodup.sublist (hsl.map Resource.id)

theorem rooms_congr (h : db'.catalogue = db.catalogue) : rooms db' category = rooms db category := by
  unfold rooms activeOfCategory
  rw [h]

theorem Placed.shrink {place : Allocation → ℕ} (h : Placed db category place)
    (hk : db'.catalogue = db.catalogue) (hs : filedUnder db' category ⊆ filedUnder db category) :
    Placed db' category place where
  proper := h.proper.subset hs
  housed := fun a ha hn => rooms_congr hk ▸ h.housed a (hs ha) hn
  assigned := fun a ha => h.assigned a (hs ha)

theorem filed_of_room (hs : Sound db) (ha : a ∈ db.allocations.rows) {i : ℕ}
    (hi : a.resourceId = some i) (hr : i ∈ rooms db category) :
    a.requestedCategoryId = some category.id := by
  obtain ⟨q, hq, hqc⟩ := hs.filed a ha i hi
  obtain ⟨r, hrm, hrid⟩ := List.mem_map.mp hr
  obtain ⟨hrow, hcat, _⟩ := mem_activeOfCategory.mp hrm
  obtain ⟨hqm, hqid⟩ := Catalogue.resource?_eq_some.mp hq
  have he : q = r := Table.eq_of_id hqm hrow (hqid.trans hrid.symm)
  rw [hqc, he, hcat]

theorem honours_of_placed {place : Allocation → ℕ} (hs : Sound db)
    (h : Placed db category place) : Honours db category place where
  housed := fun a ha hact hn hc => h.housed a (mem_filedUnder.mpr ⟨ha, hc, hact⟩) hn
  apart := by
    intro a ha b hb hact hbact hne t hta htb i hai hbi
    have hmeets : Overlap a b := meets_of_covers hta htb
    have hids : a.id ≠ b.id := fun hid => hne (Table.eq_of_id ha hb hid)
    have hsame : a ∈ filedUnder db category → b ∈ filedUnder db category → place a = i →
        place b = i → False := fun haf hbf hpa hpb =>
      h.proper a haf b hbf hne hmeets (hpa.trans hpb.symm)
    rcases hai with hai | ⟨han, hac, hap⟩
    · rcases hbi with hbi | ⟨hbn, hbc, hbp⟩
      · exact hs.apart a ha b hb hact hbact hids ⟨hmeets, Or.inl ⟨i, hai, hbi⟩⟩
      · have hbf := mem_filedUnder.mpr ⟨hb, hbc, hbact⟩
        have haf := mem_filedUnder.mpr
          ⟨ha, filed_of_room hs ha hai (hbp ▸ h.housed b hbf hbn), hact⟩
        exact hsame haf hbf (h.assigned a haf i hai) hbp
    · have haf := mem_filedUnder.mpr ⟨ha, hac, hact⟩
      rcases hbi with hbi | ⟨hbn, hbc, hbp⟩
      · have hbf := mem_filedUnder.mpr
          ⟨hb, filed_of_room hs hb hbi (hap ▸ h.housed a haf han), hbact⟩
        exact hsame haf hbf hap (h.assigned b hbf i hbi)
      · exact hsame haf (mem_filedUnder.mpr ⟨hb, hbc, hbact⟩) hap hbp

end Holds

section Steps
variable {db db' t : Database} {category : ResourceCategory} {a x : Allocation} {i : ℕ}
  {data : AllocationData} {reason : Option String} {required : Bool} {r : Reservation}

structure Stocked (db : Database) (category : ResourceCategory) : Prop where
  known : db.catalogue.category? category.id = some category
  stay : category.countsAsStay = true
  noBuyouts : ∀ r ∈ db.catalogue.resources.rows, r.isBuyout = false
  noBlocks : db.blocks.rows = []

structure Keeping (db : Database) (category : ResourceCategory) : Prop extends
    Stocked db category where
  sound : Sound db
  single : ∀ a ∈ db.allocations.rows, a.quantity = 1
  placed : ∃ place, Placed db category place

def CreateAllowed (db : Database) (reservationId : ℕ) (data : AllocationData) : Prop :=
  (∃ r ∈ db.reservation? reservationId, r.status = .confirmed ∨ holdIsLive db r = true) ∧
    data.quantity.getD 1 = 1

instance (db : Database) (i : ℕ) (data : AllocationData) : Decidable (CreateAllowed db i data) := by
  unfold CreateAllowed
  infer_instance

structure Creates (db db' : Database) (r : Reservation) (data : AllocationData) (x : Allocation) :
    Prop where
  catalogue : db'.catalogue = db.catalogue
  blocks : db'.blocks = db.blocks
  rows : db'.allocations.rows = db.allocations.rows ++ [x]
  live : ∀ c, active db' c = active db c
  resource : x.resourceId = data.resourceId.join
  starts : data.startsAt = some x.startsAt
  ends : data.endsAt = some x.endsAt
  quantity : x.quantity = data.quantity.getD 1
  filed : Filed db.catalogue x
  usable : ∀ j, x.resourceId = some j → ∃ q, db.catalogue.resource? j = some q ∧ q.isActive = true
  accepted : ∃ t, t.catalogue = db.catalogue ∧ t.blocks = db.blocks ∧
    t.allocations.rows = db.allocations.rows ++ [x] ∧ (∀ c, active t c = active db c) ∧
      (reservesCapacity db r x.status = true → assertAvailable t x = .ok ())
  status : x.status = createdStatus r
  owner : x.reservationId = r.id

theorem active_of_live (hl : ∀ j, liveHold db' j = liveHold db j) (c : Allocation) :
    active db' c = active db c :=
  active_congr (hl _)

theorem filedAs_span (k : Catalogue) (a : Allocation) : (filedAs k a).resourceId = a.resourceId ∧
    (filedAs k a).startsAt = a.startsAt ∧ (filedAs k a).endsAt = a.endsAt ∧
      (filedAs k a).quantity = a.quantity := by
  unfold filedAs
  split <;> exact ⟨rfl, rfl, rfl, rfl⟩

theorem usable_of_targets {c o : Option ℕ} {k : ℕ}
    (h : assertTargetsBelongToReservation db r c (some k) o = .ok ()) :
    ∃ q, db.catalogue.resource? k = some q ∧ q.isActive = true := by
  simp only [assertTargetsBelongToReservation, assertResource, bind_eq_ok, found_eq_ok,
    Option.filter_eq_some_iff, Bool.and_eq_true] at h
  obtain ⟨_, _, _, _, _, ⟨q, ⟨hq, hactive, _⟩, _⟩, _⟩ := h
  exact ⟨q, hq, hactive⟩

theorem creates_of_commits (hr : db.reservation? i = some r)
    (hc : Commits (create i data reason required) db x db') : Creates db db' r data x := by
  simp only [create, commits_bind, commits_lockedReservation, commits_check, commits_orFail,
    commits_pure] at hc
  obtain ⟨q, _, ⟨hq, rfl⟩, _, _, ⟨_, rfl⟩, _, _, ⟨htargets, rfl⟩, s, _, ⟨hs, rfl⟩, e, _, ⟨he, rfl⟩,
    y, t, hins, _, _, ⟨hok, rfl⟩, _, v, hrec, rfl, rfl⟩ := hc
  obtain rfl : r = q := Option.some.inj (hr.symm.trans hq)
  obtain ⟨hstore, hf, hy⟩ := insertAllocation_stores hins
  obtain ⟨_, ht⟩ := commits_insertAllocation.mp hins
  have hid : y.id = db.allocations.next := by
    rw [hy]
    exact filedAs_id _ _
  have hrows : t.allocations.rows = db.allocations.rows ++ [y] := by
    rw [ht]
    simp only [Table.insert, ← hid]
  obtain ⟨hresource, hstart, hend, hquantity⟩ :=
    filedAs_span db.catalogue { drafted r data s e with id := db.allocations.next }
  rw [← hy] at hresource hstart hend hquantity
  simp only [recordMutation, bumpRevision, recordChange, commits_bind, commits_modify] at hrec
  obtain ⟨_, u, hu, hv⟩ := hrec
  have hlive : ∀ j, liveHold v j = liveHold db j := by
    intro j
    have hrewrites : Rewrites t u r.id revised := by
      subst hu
      exact fun _ => Table.find?_update
    have hclock : u.clock = t.clock := by rw [← hu]
    have hsame : liveHold v j = liveHold u j := by rw [← hv]; rfl
    rw [hsame, liveHold_update_same hrewrites hclock fun _ => ⟨rfl, rfl⟩]
    exact hstore.live j
  subst hu hv
  exact {
    catalogue := hstore.catalogue
    blocks := by rw [ht]
    rows := hrows
    live := active_of_live hlive
    resource := hresource
    starts := hs.trans (congrArg some hstart.symm)
    ends := he.trans (congrArg some hend.symm)
    quantity := hquantity
    filed := hf
    usable := fun j hj => by
      have hdata : data.resourceId.join = some j := hresource.symm.trans hj
      rw [hdata] at htargets
      exact usable_of_targets htargets
    accepted := ⟨t, hstore.catalogue, by rw [ht], hrows, active_of_live hstore.live, fun hres => by
      rw [reservesCapacity_congr hstore.clock, if_pos hres] at hok
      exact hok⟩
    status := hy ▸ filedAs_status _ _
    owner := hy ▸ filedAs_reservationId _ _ }

theorem activeOfCategory_congr (h : db'.catalogue = db.catalogue) :
    activeOfCategory db' category = activeOfCategory db category := by
  unfold activeOfCategory
  rw [h]

theorem Creates.filedUnder_eq (h : Creates db db' r data x) : filedUnder db' category =
    filedUnder db category ++
      if x.requestedCategoryId = some category.id ∧ active db x = true then [x] else [] := by
  have hlive : (fun a => a.requestedCategoryId == some category.id && active db' a) =
      fun a => a.requestedCategoryId == some category.id && active db a :=
    funext fun a => by rw [h.live a]
  unfold filedUnder Table.select
  rw [hlive, h.rows, List.filter_append]
  congr 1
  simp [List.filter_cons]

theorem Creates.fresh (h : Creates db db' r data x) (ha : a ∈ db.allocations.rows) : a ≠ x := by
  rintro rfl
  have hn := db'.allocations.nodup
  rw [h.rows, List.map_append, List.nodup_append] at hn
  exact hn.2.2 a.id (List.mem_map_of_mem ha) a.id
    (List.mem_map_of_mem (List.mem_singleton.mpr rfl)) rfl

-- The count made for the new allocation bounds the stays it has to find a room beside.
theorem Creates.beside (h : Creates db db' r data x) (hk : Keeping db category)
    (hres : reservesCapacity db r x.status = true) (hq : data.quantity.getD 1 = 1)
    (hc : x.requestedCategoryId = some category.id) :
    (neighbours Overlap (filedUnder db category) x).length < (rooms db category).length := by
  obtain ⟨t, htk, htb, htrows, htlive, hok⟩ := h.accepted
  obtain ⟨known, hknown, hok⟩ := assertAvailable_category (hok hres) hc
  rw [htk, hk.known] at hknown
  obtain rfl := Option.some.inj hknown
  obtain ⟨u, hu⟩ : ∃ u, u ∈ activeOfCategory t category := by
    simp only [assertCategoryCapacity, bind_eq_ok, found_eq_ok] at hok
    obtain ⟨u, hhead, _⟩ := hok
    exact ⟨u, List.mem_of_head? hhead⟩
  have hub : u.isBuyout = false := by
    have hm := (mem_activeOfCategory.mp hu).1
    rw [htk] at hm
    exact hk.noBuyouts u hm
  have hle := ((category_available_iff hu hub).mp hok).2.2
  have hopen : openCapacity t category x.startsAt x.endsAt ≤ (rooms db category).length := by
    simp only [openCapacity, hk.stay, if_true, rooms, idsOf, List.length_map]
    rw [← activeOfCategory_congr htk]
    exact List.length_filter_le _ _
  have hsub : neighbours Overlap (filedUnder db category) x ⊆
      rivals t x fun c => c.requestedCategoryId == x.requestedCategoryId := by
    intro c hcn
    obtain ⟨hcf, hcx⟩ := List.mem_filter.mp hcn
    obtain ⟨hcm, hcc, hcact⟩ := mem_filedUnder.mp hcf
    have hover : Overlap x c := (of_decide_eq_true hcx).2
    have hmem : c ∈ t.allocations.rows := htrows ▸ List.mem_append_left _ hcm
    have hxm : x ∈ t.allocations.rows := htrows ▸ List.mem_append_right _ (List.mem_singleton.mpr rfl)
    have hne : c.id ≠ x.id := fun hid => h.fresh hcm (Table.eq_of_id hmem hxm hid)
    refine mem_rivals.mpr ⟨by simp [hcc, hc], hmem, hne, ?_, overlap_symm hover⟩
    simp [activeAllocationScope, htlive c, hcact]
  have hlen := (List.subperm_of_subset (filedUnder_nodup.filter _) hsub).length_le
  have hsum : (rivals t x fun c => c.requestedCategoryId == x.requestedCategoryId).length ≤
      reservedOfCategory t x := by
    have hone : ∀ q ∈ (rivals t x fun c => c.requestedCategoryId == x.requestedCategoryId).map
        Allocation.quantity, 1 ≤ q := by
      intro q hq'
      obtain ⟨c, hcr, rfl⟩ := List.mem_map.mp hq'
      have hcm : c ∈ t.allocations.rows := (mem_rivals.mp hcr).2.1
      rw [htrows] at hcm
      rcases List.mem_append.mp hcm with hcm | hcm
      · exact (hk.single c hcm).ge
      · rw [List.mem_singleton.mp hcm, h.quantity, hq]
    have hle := List.length_le_sum_of_one_le _ hone
    rwa [List.length_map] at hle
  have hone : x.quantity = 1 := h.quantity.trans hq
  have hnb : (neighbours Overlap (filedUnder db category) x).length ≤
      (rivals t x fun c => c.requestedCategoryId == x.requestedCategoryId).length := hlen
  omega

def LeavesRoom (db : Database) (category : ResourceCategory) (data : AllocationData) : Prop :=
  ∀ s ∈ data.startsAt, ∀ e ∈ data.endsAt, ∀ i ∈ data.resourceId.join, i ∈ rooms db category →
    ∀ a ∈ filedUnder db category, a.resourceId = none → Meets a.startsAt a.endsAt s e →
      crowd db category a + 2 ≤ (rooms db category).length

instance (db : Database) (category : ResourceCategory) (data : AllocationData) :
    Decidable (LeavesRoom db category data) := by
  unfold LeavesRoom
  infer_instance

theorem Creates.placed (h : Creates db db' r data x) (hk : Keeping db category)
    (hs : Sound db') (hres : reservesCapacity db r x.status = true)
    (hq : data.quantity.getD 1 = 1) (hroom : LeavesRoom db category data) :
    ∃ place, Placed db' category place := by
  obtain ⟨place, hp⟩ := hk.placed
  have hfiled : filedUnder db' category = filedUnder db category ++
      if x.requestedCategoryId = some category.id ∧ active db x = true then [x] else [] :=
    h.filedUnder_eq
  by_cases hin : x.requestedCategoryId = some category.id ∧ active db x = true
  · rw [if_pos hin] at hfiled
    have hfresh : ∀ a ∈ filedUnder db category, a ≠ x := fun a ha =>
      h.fresh (mem_filedUnder.mp ha).1
    have hrooms : rooms db' category = rooms db category := rooms_congr h.catalogue
    have hmem : ∀ a ∈ filedUnder db' category, a ∈ filedUnder db category ∨ a = x := by
      intro a ha
      rw [hfiled] at ha
      exact (List.mem_append.mp ha).imp_right List.mem_singleton.mp
    have hcons : filedUnder db' category ⊆ x :: filedUnder db category := by
      intro a ha
      rcases hmem a ha with ha | rfl
      · exact List.mem_cons_of_mem x ha
      · exact List.mem_cons_self
    have hkeep : ∀ (q : Allocation → ℕ) k, ∀ a ∈ filedUnder db category,
        Function.update q x k a = q a := fun q k a ha => Function.update_of_ne (hfresh a ha) _ _
    cases hx : x.resourceId with
    | none =>
      obtain ⟨k, hkr, hfree⟩ := exists_room place rooms_nodup (h.beside hk hres hq hin.1)
      refine ⟨Function.update place x k, ?_, fun a ha hn => ?_, fun a ha i hi => ?_⟩
      · exact (hp.proper.move overlap_symm hfree).subset hcons
      · rw [hrooms]
        rcases hmem a ha with ha | rfl
        · rw [hkeep place k a ha]
          exact hp.housed a ha hn
        · rwa [Function.update_self]
      · rcases hmem a ha with ha | rfl
        · rw [hkeep place k a ha]
          exact hp.assigned a ha i hi
        · rw [hx] at hi
          cases hi
    | some j =>
      have hxm : x ∈ filedUnder db' category := by
        rw [hfiled]
        exact List.mem_append_right _ (List.mem_singleton.mpr rfl)
      obtain ⟨hxr, _, hxact⟩ := mem_filedUnder.mp hxm
      have hj : j ∈ rooms db category := by
        obtain ⟨q, hq, hqc⟩ := h.filed j hx
        obtain ⟨u, hu, hactive⟩ := h.usable j hx
        obtain rfl := Option.some.inj (hq.symm.trans hu)
        obtain ⟨hm, hid⟩ := Catalogue.resource?_eq_some.mp hq
        have hcat : q.categoryId = category.id := Option.some.inj (hqc.symm.trans hin.1)
        exact hid ▸ List.mem_map_of_mem (mem_activeOfCategory.mpr ⟨hm, hcat, hactive⟩)
      have hfixed : ∀ a ∈ filedUnder db category, ¬ a.resourceId = none → Overlap x a →
          place a ≠ j := by
        intro a ha hn hover hpa
        obtain ⟨ham, _, haact⟩ := mem_filedUnder.mp ha
        obtain ⟨i, hi⟩ := Option.ne_none_iff_exists'.mp hn
        have hij : i = j := (hp.assigned a ha i hi).symm.trans hpa
        have ham' : a ∈ db'.allocations.rows := h.rows ▸ List.mem_append_left _ ham
        have hids : x.id ≠ a.id := fun hid => hfresh a ha (Table.eq_of_id hxr ham' hid).symm
        exact hs.apart x hxr a ham' hxact (h.live a ▸ haact) hids
          ⟨hover, Or.inl ⟨j, hx, hij ▸ hi⟩⟩
      have hspare : ∀ a ∈ filedUnder db category, a.resourceId = none → Overlap x a →
          (neighbours Overlap (filedUnder db category) a).length + 1 < (rooms db category).length := by
        intro a ha hn hover
        have hle := hroom x.startsAt h.starts x.endsAt h.ends j (h.resource ▸ hx) hj a ha hn
          (overlap_symm hover)
        unfold crowd at hle
        omega
      obtain ⟨q, hq, hclear⟩ := vacate (fun a => a.resourceId = none) overlap_symm
        rooms_nodup hp.proper hp.housed hfixed hspare
      refine ⟨Function.update q x j, ?_, fun a ha hn => ?_, fun a ha i hi => ?_⟩
      · exact (hq.proper.move overlap_symm fun b hb _ hc => hclear b hb hc).subset hcons
      · rw [hrooms]
        rcases hmem a ha with ha | rfl
        · rw [hkeep q j a ha]
          exact hq.housed a ha hn
        · rw [hx] at hn
          cases hn
      · rcases hmem a ha with ha | rfl
        · rw [hkeep q j a ha, hq.fixed a ha (by simp [hi])]
          exact hp.assigned a ha i hi
        · rw [Function.update_self]
          exact Option.some.inj (hx.symm.trans hi)
  · rw [if_neg hin, List.append_nil] at hfiled
    exact ⟨place, hp.shrink h.catalogue (by rw [hfiled]; exact List.Subset.refl _)⟩

theorem reserves_of_allowed (hs : r.status = .confirmed ∨ holdIsLive db r = true) :
    reservesCapacity db r (createdStatus r) = true ∧ r.status ≠ .checkedIn := by
  rcases hs with hs | hs
  · simp [reservesCapacity, createdStatus, hs]
  · rw [holdIsLive_eq, Bool.and_eq_true, beq_iff_eq] at hs
    simp [reservesCapacity, createdStatus, hs.1, hs.2]

theorem Stocked.same (h : Stocked db category) (hk : db'.catalogue = db.catalogue)
    (hb : db'.blocks = db.blocks) : Stocked db' category :=
  ⟨hk ▸ h.known, h.stay, hk ▸ h.noBuyouts, hb ▸ h.noBlocks⟩

theorem create_keeping (hk : Keeping db category) (ha : CreateAllowed db i data)
    (hroom : LeavesRoom db category data) (hc : Commits (create i data reason required) db x db') :
    Keeping db' category := by
  obtain ⟨⟨r, hr, hstatus⟩, hq⟩ := ha
  obtain ⟨hres, hnot⟩ := reserves_of_allowed hstatus
  have h := creates_of_commits hr hc
  have hchecked : CreateChecked db i data := by
    intro q hq hin
    obtain rfl := Option.some.inj (Eq.trans (Eq.symm hr) hq)
    exact absurd hin hnot
  have hs : Sound db' := create_sound hk.sound hchecked hc
  refine ⟨hk.toStocked.same h.catalogue h.blocks, hs, fun a ha => ?_,
    h.placed hk hs (h.status ▸ hres) hq hroom⟩
  rw [h.rows] at ha
  rcases List.mem_append.mp ha with ha | ha
  · exact hk.single a ha
  · rw [List.mem_singleton.mp ha, h.quantity, hq]

theorem tick_keeping {seconds : ℕ} (hk : Keeping db category)
    (hc : Commits (Operation.run (.tick seconds)) db () db') : Keeping db' category := by
  have hs := tick_sound hk.sound hc
  have hc : { db with clock := db.clock + seconds } = db' := commits_modify.mp hc
  subst hc
  obtain ⟨place, hp⟩ := hk.placed
  refine ⟨hk.toStocked.same rfl rfl, hs, hk.single, place, hp.shrink rfl fun a ha => ?_⟩
  obtain ⟨ham, hac, hact⟩ := mem_filedUnder.mp ha
  refine mem_filedUnder.mpr ⟨ham, hac, active_mono (fun hl => ?_) hact⟩
  obtain ⟨r, hr, hlive⟩ := (Option.any_eq_true _ _).mp hl
  refine (Option.any_eq_true _ _).mpr ⟨r, hr, ?_⟩
  simp only [holdIsLive, Bool.and_eq_true, Option.any_eq_true, Database.isFuture,
    decide_eq_true_eq] at hlive ⊢
  obtain ⟨hst, e, he, hlt⟩ := hlive
  exact ⟨hst, e, he, by omega⟩

end Steps

section Runs
variable {db db' : Database} {category : ResourceCategory}

def Allowed (op : Operation) (db : Database) : Prop :=
  match op with
  | .tick _ => True
  | .create i data _ _ => CreateAllowed db i data
  | _ => False

def Careful (category : ResourceCategory) (op : Operation) (db : Database) : Prop :=
  Allowed op db ∧
    match op with
    | .create _ data _ _ => LeavesRoom db category data
    | _ => True

instance (op : Operation) (db : Database) : Decidable (Allowed op db) :=
  match op with
  | .tick _ => .isTrue trivial
  | .create i data _ _ => inferInstanceAs (Decidable (CreateAllowed db i data))
  | .update .. | .release .. | .reallocate .. | .confirm .. | .transition ..
  | .expireDueHolds .. => .isFalse id

instance (category : ResourceCategory) (op : Operation) (db : Database) :
    Decidable (Careful category op db) :=
  match op with
  | .create _ data _ _ =>
    inferInstanceAs (Decidable (Allowed _ db ∧ LeavesRoom db category data))
  | .tick .. | .update .. | .release .. | .reallocate .. | .confirm .. | .transition ..
  | .expireDueHolds .. => inferInstanceAs (Decidable (Allowed _ db ∧ True))

theorem keeping_of_empty (h : Stocked db category) (he : db.allocations.rows = []) :
    Keeping db category := by
  have hnone : filedUnder db category = [] := by simp [filedUnder, Table.select, he]
  refine ⟨h, sound_of_empty he, by simp [he], fun _ => 0, ?_, ?_, ?_⟩
  · simp [hnone, Proper]
  · simp [hnone]
  · simp [hnone]

theorem run_keeping {op : Operation} (hk : Keeping db category) (ha : Careful category op db)
    (hc : Commits op.run db () db') : Keeping db' category := by
  cases op with
  | tick seconds => exact tick_keeping hk hc
  | create i data reason required =>
    obtain ⟨x, t, hcreate, ht⟩ := commits_bind.mp hc
    obtain rfl := (commits_pure.mp ht).2
    exact create_keeping hk ha.1 ha.2 hcreate
  | update i j data reason required => exact ha.1.elim
  | release i j reason required => exact ha.1.elim
  | reallocate i j k actorId swapWith reason => exact ha.1.elim
  | confirm i => exact ha.1.elim
  | transition i next holdMinutes reason actorId => exact ha.1.elim
  | expireDueHolds batch => exact ha.1.elim

theorem careful_runs_honour_holds (h0 : Stocked db category) (he : db.allocations.rows = [])
    (h : Reaches Operation.run (Careful category) db db') :
    ∃ room, Honours db' category room := by
  have hk : Keeping db' category :=
    h.invariant (keeping_of_empty h0 he) fun _ _ _ hs ha hc => run_keeping hs ha hc
  obtain ⟨place, hp⟩ := hk.placed
  exact ⟨place, honours_of_placed hk.sound hp⟩

def stays : ℕ → ResourceCategory := Overbooking.category

def cabin : ℕ → Resource := resource 0 false

def cabins : Catalogue where
  categories := Table.empty.insert stays
  resources := (Table.empty.insert cabin).insert cabin
  timezone := fun _ _ => 0
  categorised := by
    intro r hr
    have hr : r = cabin 0 ∨ r = cabin 1 := by
      simpa [Table.insert, Table.empty] using hr
    rcases hr with rfl | rfl
    · exact ⟨Overbooking.category 0, rfl, rfl⟩
    · exact ⟨Overbooking.category 0, rfl, rfl⟩
  separated := by decide
  stayIsPlace := by decide

def booked (i : ℕ) : Reservation := { enquiry 0 4000 i with status := .confirmed }

def season : Database where
  clock := 0
  catalogue := cabins
  reservations := ((Table.empty.insert booked).insert booked).insert booked

theorem stocked_season : Stocked season (Overbooking.category 0) := by
  refine ⟨rfl, rfl, ?_, rfl⟩
  decide

theorem beside_a_hold : ∃ db', Reaches Operation.run (Careful (Overbooking.category 0)) season db' ∧
    db'.allocations.rows.length = 3 ∧ ∃ room, Honours db' (Overbooking.category 0) room := by
  obtain ⟨db', hr, hp⟩ : ∃ t, Reaches Operation.run (Careful (Overbooking.category 0)) season t ∧
      decide (t.allocations.rows.length = 3) = true :=
    Reaches.exists_of_execute (fun _ _ => of_decide_eq_true)
      [.create 0 (requested 0 1000 3000) none false, .create 1 (assigned 0 500 1500) none false,
        .tick 60, .create 2 (assigned 1 3000 4000) none false]
      (by decide)
  exact ⟨db', hr, of_decide_eq_true hp, careful_runs_honour_holds stocked_season rfl hr⟩

def wedged (db : Database) (category : ResourceCategory) : Bool :=
  db.allocations.rows.any fun a => active db a && a.resourceId.isNone &&
    a.requestedCategoryId == some category.id && (rooms db category).all fun i =>
      db.allocations.rows.any fun b => active db b && b.resourceId == some i &&
        decide (Covers a.startsAt a.endsAt (max a.startsAt b.startsAt) ∧
          Covers b.startsAt b.endsAt (max a.startsAt b.startsAt))

theorem not_honours_of_wedged (h : wedged db category = true) (room : Allocation → ℕ) :
    ¬ Honours db category room := by
  intro hh
  obtain ⟨a, ha, hw⟩ := List.any_eq_true.mp h
  simp only [Bool.and_eq_true, Option.isNone_iff_eq_none, beq_iff_eq] at hw
  obtain ⟨⟨⟨hact, hn⟩, hc⟩, hall⟩ := hw
  obtain ⟨b, hb, hbw⟩ := List.any_eq_true.mp
    (List.all_eq_true.mp hall _ (hh.housed a ha hact hn hc))
  simp only [Bool.and_eq_true, beq_iff_eq, decide_eq_true_eq] at hbw
  obtain ⟨⟨hbact, hbr⟩, hta, htb⟩ := hbw
  have hne : a ≠ b := fun he => by
    rw [← he, hn] at hbr
    cases hbr
  exact hh.apart a ha b hb hact hbact hne _ hta htb (room a) (Or.inr ⟨hn, hc, rfl⟩) (Or.inl hbr)

-- Each room is booked over another end of the hold, and neither booking counts the other.
theorem hold_left_without_a_room : Stocked season (Overbooking.category 0) ∧
    season.allocations.rows = [] ∧ ∃ db', Reaches Operation.run Allowed season db' ∧
      ∀ room, ¬ Honours db' (Overbooking.category 0) room := by
  obtain ⟨db', hr, hp⟩ : ∃ t, Reaches Operation.run Allowed season t ∧
      wedged t (Overbooking.category 0) = true :=
    Reaches.exists_of_execute (fun _ _ => of_decide_eq_true)
      [.create 0 (requested 0 1000 3000) none false, .create 1 (assigned 0 0 1500) none false,
        .create 2 (assigned 1 2500 4000) none false]
      (by decide)
  exact ⟨stocked_season, rfl, db', hr, not_honours_of_wedged hp⟩

end Runs
end CategoryHolds
