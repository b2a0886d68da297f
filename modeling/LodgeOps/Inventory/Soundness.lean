import LodgeOps.Inventory.Clearance
import LodgeOps.Inventory.AllocationWorkflow

namespace Soundness
open Schema Transaction Occupancy Availability AllocationWorkflow Clearance

section Saving
variable {db : Database} {a a' : Allocation}

def filedAs (k : Catalogue) (a : Allocation) : Allocation :=
  match a.resourceId.bind k.resource? with
  | some r => { a with requestedCategoryId := some r.categoryId }
  | none => a

theorem filedAs_id (k : Catalogue) (a : Allocation) : (filedAs k a).id = a.id := by
  unfold filedAs
  split <;> rfl

theorem filedAs_status (k : Catalogue) (a : Allocation) : (filedAs k a).status = a.status := by
  unfold filedAs
  split <;> rfl

theorem filedAs_reservationId (k : Catalogue) (a : Allocation) :
    (filedAs k a).reservationId = a.reservationId := by
  unfold filedAs
  split <;> rfl

theorem filedAs_of_filed {k : Catalogue} (h : Filed k a) : filedAs k a = a := by
  unfold filedAs
  cases hi : a.resourceId with
  | none => rfl
  | some i =>
    obtain ⟨r, hr, hc⟩ := h i hi
    simp only [Option.bind_some, hr, ← hc]
    rw [← hi]

theorem filedAs_of_no_resource {k : Catalogue} (h : a.resourceId = none) : filedAs k a = a := by
  simp [filedAs, h]

theorem categorised_eq {p : ℕ} (h : categorised db a p = .ok a') :
    a' = filedAs db.catalogue a ∧ Filed db.catalogue a' ∧
      (a.requestedCategoryId ≠ none → a' = a) := by
  cases hi : a.resourceId with
  | none =>
    obtain rfl : a = a' := by simpa [categorised, hi] using h
    refine ⟨(filedAs_of_no_resource hi).symm, ?_, fun _ => rfl⟩
    intro i h
    simp [hi] at h
  | some i =>
    simp only [categorised, hi, bind_eq_ok, found_eq_ok, refuse_eq_ok, Except.ok.injEq] at h
    obtain ⟨r, hr, _, hmatch, rfl⟩ := h
    have hr : db.catalogue.resource? i = some r := by
      simp only [resourceOfProperty, Option.filter_eq_some_iff] at hr
      exact hr.1
    refine ⟨by simp [filedAs, hi, hr], ?_, ?_⟩
    · intro j hj
      obtain rfl : i = j := by simpa [hi] using hj
      exact ⟨r, hr, rfl⟩
    · intro hne
      have hc : a.requestedCategoryId = some r.categoryId := by
        by_contra hc
        exact hmatch ⟨hne, hc⟩
      rw [← hc, ← hi]

theorem saving_eq (h : saving db a = .ok a') :
    a' = filedAs db.catalogue a ∧ Filed db.catalogue a' ∧
      (a.requestedCategoryId ≠ none → a' = a) := by
  simp only [saving, bind_eq_ok, found_eq_ok, refuse_eq_ok, Except.ok.injEq] at h
  obtain ⟨r, _, _, _, b, hb, _, _, _, _, rfl⟩ := h
  exact categorised_eq hb

theorem saving_filed (h : saving db a = .ok a') (hf : Filed db.catalogue a) : a' = a := by
  rw [(saving_eq h).1, filedAs_of_filed hf]

theorem commits_insertAllocation {draft : Allocation} {db' : Database} :
    Commits (insertAllocation draft) db a db' ↔
      saving db { draft with id := db.allocations.next } = .ok a ∧
        db' = { db with allocations := db.allocations.insert fun i => { a with id := i } } := by
  simp only [insertAllocation, commits_bind, commits_get, commits_check, commits_set, commits_pure]
  constructor
  · rintro ⟨_, _, ⟨rfl, rfl⟩, _, _, ⟨h, rfl⟩, _, _, rfl, rfl, rfl⟩
    exact ⟨h, rfl⟩
  · rintro ⟨h, rfl⟩
    exact ⟨db, db, ⟨rfl, rfl⟩, a, db, ⟨h, rfl⟩, (), _, rfl, rfl, rfl⟩

theorem commits_saveAllocation {db' : Database} {u : Unit} :
    Commits (saveAllocation a) db u db' ↔ ∃ a', saving db a = .ok a' ∧
      db' = { db with allocations := db.allocations.update a'.id fun r => { a' with id := r.id } } := by
  simp only [saveAllocation, commits_bind, commits_get, commits_check, commits_set]
  constructor
  · rintro ⟨_, _, ⟨rfl, rfl⟩, a', _, ⟨h, rfl⟩, rfl⟩
    exact ⟨a', h, rfl⟩
  · rintro ⟨a', h, rfl⟩
    exact ⟨db, db, ⟨rfl, rfl⟩, a', db, ⟨h, rfl⟩, rfl⟩

end Saving

section Invariant
variable {db db' : Database} {a c : Allocation}

def liveHold (db : Database) (i : ℕ) : Bool := (db.reservation? i).any (holdIsLive db)

theorem active_eq : active db a =
    (a.status == .confirmed || (a.status == .tentative && liveHold db a.reservationId)) := rfl

theorem active_congr (h : liveHold db' a.reservationId = liveHold db a.reservationId) :
    active db' a = active db a := by
  rw [active_eq, active_eq, h]

theorem active_mono (h : liveHold db' a.reservationId = true → liveHold db a.reservationId = true)
    (ha : active db' a = true) : active db a = true := by
  simp only [active_eq, Bool.or_eq_true, Bool.and_eq_true] at ha ⊢
  rcases ha with ha | ⟨ha, hl⟩
  · exact Or.inl ha
  · exact Or.inr ⟨ha, h hl⟩

theorem not_active_of_released (h : a.status = .released) : active db a = false := by
  simp [active_eq, h]

structure Sound (db : Database) : Prop where
  filed : ∀ a ∈ db.allocations.rows, Filed db.catalogue a
  fits : ∀ a ∈ db.allocations.rows, active db a = true → Fits db.catalogue a
  apart : ∀ a ∈ db.allocations.rows, ∀ c ∈ db.allocations.rows,
    active db a = true → active db c = true → a.id ≠ c.id → ¬ Clash db.catalogue a c

structure Cleared (db : Database) (a : Allocation) : Prop where
  fits : Fits db.catalogue a
  apart : ∀ c ∈ db.allocations.rows, active db c = true → c.id ≠ a.id → ¬ Clash db.catalogue a c

theorem cleared_of_accepted (h : assertAvailable db a = .ok ()) (hf : Filed db.catalogue a) :
    Cleared db a := by
  refine ⟨fits_of_accepted h, fun c hc hact hne hclash => ?_⟩
  have hscope : activeAllocationScope db a c = true := by simp [activeAllocationScope, hact]
  exact not_clash h hf ⟨hc, hne, hscope, hclash.1.symm⟩ hclash

theorem cleared_of_service (hr : a.resourceId = none) (hc : a.requestedCategoryId = none) :
    Cleared db a := by
  refine ⟨fun r _ h => by simp [hr] at h, ?_⟩
  rintro c - - - ⟨-, ⟨i, hi, -⟩ | ⟨p, ⟨r, -, hi⟩, -⟩ | ⟨p, -, ⟨r, -, hi⟩ | ⟨-, r, -, hi⟩⟩⟩
  · simp [hr] at hi
  · simp [hr] at hi
  · simp [hr] at hi
  · simp [hc] at hi

theorem Sound.transfer (h : Sound db) (hk : db'.catalogue = db.catalogue)
    (hf : ∀ a ∈ db'.allocations.rows, Filed db'.catalogue a)
    (hrows : ∀ a ∈ db'.allocations.rows, active db' a = true →
      (∃ b ∈ db.allocations.rows, active db b = true ∧ SameSpan b a) ∨ Cleared db' a) :
    Sound db' where
  filed := hf
  fits := by
    intro a ha hact
    rcases hrows a ha hact with ⟨b, hb, hbact, hs⟩ | hcleared
    · rw [hk]
      exact (fits_congr hs).mp (h.fits b hb hbact)
    · exact hcleared.fits
  apart := by
    intro a ha c hc hact hcact hne
    rcases hrows a ha hact with ⟨b, hb, hbact, hs⟩ | hcleared
    · rcases hrows c hc hcact with ⟨d, hd, hdact, ht⟩ | hcleared
      · have hids : b.id ≠ d.id := by rwa [hs.id, ht.id]
        rw [hk, ← clash_congr hs ht]
        exact h.apart b hb d hd hbact hdact hids
      · intro hclash
        exact hcleared.apart a ha hact hne hclash.symm
    · exact hcleared.apart c hc hcact hne.symm

theorem Sound.shrink (h : Sound db) (hk : db'.catalogue = db.catalogue)
    (hrows : ∀ a ∈ db'.allocations.rows, ∃ b ∈ db.allocations.rows, SameSpan b a ∧
      (active db' a = true → active db b = true)) : Sound db' := by
  refine h.transfer hk ?_ ?_
  · intro a ha
    obtain ⟨b, hb, hs, _⟩ := hrows a ha
    rw [hk]
    exact (filed_congr hs).mp (h.filed b hb)
  · intro a ha hact
    obtain ⟨b, hb, hs, hlive⟩ := hrows a ha
    exact Or.inl ⟨b, hb, hlive hact, hs⟩

theorem Sound.of_same (h : Sound db) (hk : db'.catalogue = db.catalogue)
    (ha : db'.allocations = db.allocations)
    (hl : ∀ i, liveHold db' i = true → liveHold db i = true) : Sound db' := by
  refine h.shrink hk fun a hm => ⟨a, ha ▸ hm, SameSpan.refl a, active_mono (hl _)⟩

structure Stores (db db' : Database) (a : Allocation) : Prop where
  catalogue : db'.catalogue = db.catalogue
  clock : db'.clock = db.clock
  live : ∀ i, liveHold db' i = liveHold db i
  rows : ∀ c ∈ db'.allocations.rows, c = a ∨ (c ∈ db.allocations.rows ∧ c.id ≠ a.id)

theorem Stores.cleared (hs : Stores db db' a) (h : Cleared db a) : Cleared db' a := by
  refine ⟨hs.catalogue ▸ h.fits, fun c hc hact hne => ?_⟩
  rcases hs.rows c hc with rfl | ⟨hm, _⟩
  · exact absurd rfl hne
  · rw [hs.catalogue]
    exact h.apart c hm (active_congr (hs.live _) ▸ hact) hne

theorem Sound.store (h : Sound db) (hs : Stores db db' a) (hf : Filed db.catalogue a)
    (hc : active db' a = true → Cleared db a ∨ Cleared db' a) : Sound db' := by
  refine h.transfer hs.catalogue ?_ ?_
  · intro c hm
    rw [hs.catalogue]
    rcases hs.rows c hm with rfl | ⟨hm, _⟩
    · exact hf
    · exact h.filed c hm
  · intro c hm hact
    rcases hs.rows c hm with rfl | ⟨hm, _⟩
    · exact Or.inr ((hc hact).elim hs.cleared id)
    · exact Or.inl ⟨c, hm, active_congr (hs.live _) ▸ hact, SameSpan.refl c⟩

theorem stores_insert {mk : ℕ → Allocation}
    (hk : Names mk := by first | assumption | (intro i; rfl)) :
    Stores db { db with allocations := db.allocations.insert mk hk } (mk db.allocations.next) where
  catalogue := rfl
  clock := rfl
  live := fun _ => rfl
  rows := by
    intro c hc
    have hc : c ∈ (db.allocations.insert mk hk).rows := hc
    rcases (Table.mem_insert hk).mp hc with hm | rfl
    · refine Or.inr ⟨hm, ?_⟩
      have hlt : c.id < db.allocations.next := Table.id_lt_next hm
      have hid : (mk db.allocations.next).id = db.allocations.next := hk _
      omega
    · exact Or.inl rfl

theorem stores_update : Stores db
    { db with allocations := db.allocations.update a.id fun r => { a with id := r.id } } a where
  catalogue := rfl
  clock := rfl
  live := fun _ => rfl
  rows := by
    intro c hc
    have hc : c ∈ (db.allocations.update a.id fun r => { a with id := r.id }).rows := hc
    rcases (Table.mem_update).mp hc with hm | ⟨b, _, hb, rfl⟩
    · exact Or.inr hm
    · have hb : b.id = a.id := hb
      exact Or.inl (by rw [hb])

end Invariant

section Storing
variable {db db' : Database} {a : Allocation}

theorem insertAllocation_stores {draft : Allocation}
    (h : Commits (insertAllocation draft) db a db') :
    Stores db db' a ∧ Filed db.catalogue a ∧
      a = filedAs db.catalogue { draft with id := db.allocations.next } := by
  obtain ⟨hs, rfl⟩ := commits_insertAllocation.mp h
  obtain ⟨he, hf, _⟩ := saving_eq hs
  have hid : a.id = db.allocations.next := by
    rw [he]
    exact filedAs_id _ _
  have hstore : Stores db { db with allocations := db.allocations.insert fun i =>
      { a with id := i } } { a with id := db.allocations.next } := stores_insert
  rw [← hid] at hstore
  exact ⟨hstore, hf, he⟩

theorem saveAllocation_stores {x : Allocation} (h : Commits (saveAllocation x) db () db') :
    Stores db db' (filedAs db.catalogue x) ∧ Filed db.catalogue (filedAs db.catalogue x) ∧
      (x.requestedCategoryId ≠ none → filedAs db.catalogue x = x) := by
  obtain ⟨a, hs, rfl⟩ := commits_saveAllocation.mp h
  obtain ⟨rfl, hf, heq⟩ := saving_eq hs
  exact ⟨stores_update, hf, heq⟩

theorem release_sound (h : Sound db) {x : Allocation} (hx : x.status = .released)
    (hc : Commits (saveAllocation x) db () db') : Sound db' := by
  obtain ⟨hs, hf, _⟩ := saveAllocation_stores hc
  refine h.store hs hf fun hact => ?_
  rw [not_active_of_released ((filedAs_status _ _).trans hx)] at hact
  cases hact

end Storing

section Batch
variable {db db' : Database}

theorem saveAll_rows {xs : List Allocation} (h : Commits (xs.forM saveAllocation) db () db')
    (hf : ∀ x ∈ xs, Filed db.catalogue x) : db' = { db with allocations := db'.allocations } ∧
      ∀ c ∈ db'.allocations.rows, c ∈ xs ∨ (c ∈ db.allocations.rows ∧ ∀ x ∈ xs, c.id ≠ x.id) := by
  induction xs generalizing db with
  | nil =>
    obtain rfl := commits_forM_nil.mp h
    exact ⟨rfl, fun c hc => Or.inr ⟨hc, by simp⟩⟩
  | cons x xs ih =>
    obtain ⟨t, hx, hrest⟩ := commits_forM_cons.mp h
    obtain ⟨a, hs, rfl⟩ := commits_saveAllocation.mp hx
    obtain rfl := saving_filed hs (hf x List.mem_cons_self)
    obtain ⟨he, hrows⟩ := ih hrest fun y hy => hf y (List.mem_cons_of_mem a hy)
    refine ⟨he, fun c hc => ?_⟩
    rcases hrows c hc with hm | ⟨hm, hne⟩
    · exact Or.inl (List.mem_cons_of_mem a hm)
    · have hstore : Stores db _ a := stores_update
      rcases hstore.rows c hm with rfl | ⟨hm, hid⟩
      · exact Or.inl List.mem_cons_self
      · refine Or.inr ⟨hm, fun y hy => ?_⟩
        rcases List.mem_cons.mp hy with rfl | hy
        · exact hid
        · exact hne y hy

-- Every standing allocation of one reservation was accepted against the store before the batch,
-- where its own standing allocations count as well: so the batch may be promoted in any order.
theorem Sound.promote (h : Sound db) {i : ℕ} {xs : List Allocation}
    (hk : db'.catalogue = db.catalogue)
    (hlive : ∀ j, j ≠ i → liveHold db' j = liveHold db j)
    (hrows : ∀ c ∈ db'.allocations.rows, c ∈ xs ∨
      (c ∈ db.allocations.rows ∧ ∀ x ∈ xs, c.id ≠ x.id))
    (hxs : ∀ x ∈ xs, ∃ y ∈ db.allocations.rows, y.reservationId = i ∧ y.status ≠ .released ∧
      SameSpan y x ∧ x.reservationId = i)
    (hall : ∀ y ∈ db.allocations.rows, y.reservationId = i → y.status ≠ .released →
      ∃ x ∈ xs, y.id = x.id)
    (hok : ∀ x ∈ xs, ∃ z, assertAvailable db z = .ok () ∧ z.reservationId = i ∧ SameSpan z x) :
    Sound db' := by
  have hkept : ∀ c ∈ db.allocations.rows, (∀ x ∈ xs, c.id ≠ x.id) → active db' c = true →
      active db c = true := by
    intro c hc hne hact
    by_cases hr : c.reservationId = i
    · by_cases hs : c.status = .released
      · rw [not_active_of_released hs] at hact
        cases hact
      · obtain ⟨x, hx, hid⟩ := hall c hc hr hs
        exact absurd hid (hne x hx)
    · rwa [active_congr (hlive _ hr)] at hact
  refine h.transfer hk ?_ ?_
  · intro c hc
    rw [hk]
    rcases hrows c hc with hx | ⟨hm, _⟩
    · obtain ⟨y, hy, _, _, hs, _⟩ := hxs c hx
      exact (filed_congr hs).mp (h.filed y hy)
    · exact h.filed c hm
  · intro c hc hact
    rcases hrows c hc with hx | ⟨hm, hne⟩
    · obtain ⟨z, hz, hzi, hzs⟩ := hok c hx
      obtain ⟨w, hw, _, _, hws, _⟩ := hxs c hx
      have hzf : Filed db.catalogue z :=
        (filed_congr hzs).mpr ((filed_congr hws).mp (h.filed w hw))
      refine Or.inr ⟨?_, fun d hd hdact hdne hclash => ?_⟩
      · rw [hk]
        exact (fits_congr hzs).mp (fits_of_accepted hz)
      · rw [hk] at hclash
        have hrival : ∃ y, Rival db z y ∧ SameSpan y d := by
          rcases hrows d hd with hdx | ⟨hdm, hdx⟩
          · obtain ⟨y, hy, hyi, hyr, hys, _⟩ := hxs d hdx
            refine ⟨y, ⟨hy, by rwa [hys.id, hzs.id], ?_, ?_⟩, hys⟩
            · cases hst : y.status with
              | tentative => simp [activeAllocationScope, hst, hyi, hzi]
              | confirmed => simp [activeAllocationScope, active_eq, hst]
              | released => exact absurd hst hyr
            · rw [hys.startsAt, hys.endsAt, hzs.startsAt, hzs.endsAt]
              exact hclash.1.symm
          · refine ⟨d, ⟨hdm, by rwa [hzs.id], ?_, ?_⟩, SameSpan.refl d⟩
            · simp [activeAllocationScope, hkept d hdm hdx hdact]
            · rw [hzs.startsAt, hzs.endsAt]
              exact hclash.1.symm
        obtain ⟨y, hy, hys⟩ := hrival
        exact not_clash hz hzf hy ((clash_congr hzs hys).mpr hclash)
    · exact Or.inl ⟨c, hm, hkept c hm hne hact, SameSpan.refl c⟩

end Batch
end Soundness
