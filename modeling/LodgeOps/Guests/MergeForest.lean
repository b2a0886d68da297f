import LodgeOps.Guests.Merge
import LodgeOps.Store.Forest

namespace GuestMergeService
open Transaction Forest

section Handing
variable {ρ : Type} [Keyed ρ] {guest : ρ → Option ℕ} {t t' : Table ρ} {source target : ℕ}
variable {P P' : ℕ → Prop}

-- What a table's rows say of their guests once those of `source` have gone over to `target`.
structure Hands (guest : ρ → Option ℕ) (source target : ℕ) (t t' : Table ρ) : Prop where
  rows : ∀ r ∈ t'.rows, guest r = some target ∨ (r ∈ t.rows ∧ guest r ≠ some source)
  handed : (∃ r ∈ t.rows, guest r = some source) → ∃ r ∈ t'.rows, guest r = some target
  idle : (∀ r ∈ t.rows, guest r ≠ some source) → t'.rows = t.rows

def Refers (guest : ρ → Option ℕ) (t : Table ρ) (P : ℕ → Prop) : Prop :=
  ∀ r ∈ t.rows, ∀ i, guest r = some i → P i

theorem Hands.refers_iff (h : Hands guest source target t t') (hne : source ≠ target)
    (hP : ∀ i, P' i ↔ P i ∧ i ≠ source) (hr : Refers guest t P) :
    Refers guest t' P' ↔ P target ∨ ∀ r ∈ t.rows, guest r ≠ some source := by
  constructor
  · intro hr'
    by_cases hsome : ∃ r ∈ t.rows, guest r = some source
    · obtain ⟨r, hmem, hg⟩ := h.handed hsome
      exact Or.inl ((hP target).mp (hr' r hmem target hg)).1
    · right
      intro r hmem hg
      exact hsome ⟨r, hmem, hg⟩
  · rintro (htarget | hnone) r hmem i hi
    · rcases h.rows r hmem with hg | ⟨hmem, hg⟩
      · obtain rfl : target = i := Option.some.inj (hg.symm.trans hi)
        exact (hP target).mpr ⟨htarget, hne.symm⟩
      · exact (hP i).mpr ⟨hr r hmem i hi, fun he => hg (he ▸ hi)⟩
    · rw [h.idle hnone] at hmem
      exact (hP i).mpr ⟨hr r hmem i hi, fun he => hnone r hmem (he ▸ hi)⟩

theorem names_iff {i : ℕ} {o : Option ℕ} : names i o = true ↔ o = some i := by
  simp [names]

theorem hands_repoint {t : Table Reference} :
    Hands Reference.guestId source target t (repoint source target t) where
  rows := by
    intro r hr
    rcases (Table.mem_updateWhere (keeps_repointed target)).mp hr with ⟨hr, hn⟩ | ⟨q, _, _, rfl⟩
    · refine Or.inr ⟨hr, fun hg => ?_⟩
      rw [names_iff.mpr hg] at hn
      cases hn
    · exact Or.inl rfl
  handed := by
    rintro ⟨r, hr, hg⟩
    refine ⟨repointed target r, ?_, rfl⟩
    exact (Table.mem_updateWhere (keeps_repointed target)).mpr
      (Or.inr ⟨r, hr, names_iff.mpr hg, rfl⟩)
  idle := by
    intro hnone
    have hsame : ∀ r ∈ t.rows, (if names source r.guestId then repointed target r else r) = r := by
      intro r hr
      rw [if_neg]
      exact fun hn => hnone r hr (names_iff.mp hn)
    exact (List.map_congr_left hsame).trans (List.map_id _)

end Handing

section Relations
variable {columns : List UniqueColumn} {source target : ℕ} {t t' : Table Relation}
variable {row : Relation} {rest : List Relation}

-- The rows that are still to be merged are all of the source's rows, as they were read.
structure Pending (source : ℕ) (rest : List Relation) (t : Table Relation) : Prop where
  mem : ∀ w ∈ rest, w ∈ t.rows ∧ w.guestId = some source
  nodup : (rest.map Relation.id).Nodup
  all : ∀ r ∈ t.rows, r.guestId = some source → r ∈ rest

structure RowMerged (target : ℕ) (row : Relation) (t t' : Table Relation) : Prop where
  rows : ∀ r ∈ t'.rows, r.guestId = some target ∨ (r ∈ t.rows ∧ r.id ≠ row.id)
  others : ∀ r ∈ t.rows, r.id ≠ row.id → r ∈ t'.rows
  held : ∃ r ∈ t'.rows, r.guestId = some target

theorem rowMerged_mergeRow (hrow : row ∈ t.rows) (hg : row.guestId ≠ some target) :
    RowMerged target row t (mergeRow columns target t row) := by
  unfold mergeRow
  split_ifs with hdup
  · simp only [List.any_eq_true, Bool.and_eq_true, names_iff] at hdup
    obtain ⟨d, hd, hdg, _⟩ := hdup
    constructor
    · intro r hr
      obtain ⟨hr, hid⟩ := (Table.mem_deleteWhere).mp hr
      exact Or.inr ⟨hr, by simpa using hid⟩
    · intro r hr hid
      exact (Table.mem_deleteWhere).mpr ⟨hr, by simpa using hid⟩
    · refine ⟨d, (Table.mem_deleteWhere).mpr ⟨hd, ?_⟩, hdg⟩
      have hne : d.id ≠ row.id := by
        intro he
        obtain rfl := Table.eq_of_id hd hrow he
        exact hg hdg
      simpa using hne
  · have hup : Table.Updates t (t.update row.id (moved target) (keeps_moved target)) row.id
        (moved target) := Table.updates_update (keeps_moved target)
    constructor
    · intro r hr
      rcases hup.mem.mp hr with ⟨hr, hid⟩ | ⟨q, _, _, rfl⟩
      · exact Or.inr ⟨hr, hid⟩
      · exact Or.inl rfl
    · intro r hr hid
      exact hup.mem_ne hr hid
    · exact ⟨moved target row, hup.mem_self hrow rfl, rfl⟩

theorem Pending.next (h : Pending source (row :: rest) t) (hne : source ≠ target)
    (hm : RowMerged target row t t') : Pending source rest t' := by
  obtain ⟨hrow, hnodup⟩ := List.nodup_cons.mp h.nodup
  refine ⟨fun w hw => ?_, hnodup, fun r hr hg => ?_⟩
  · obtain ⟨hmem, hg⟩ := h.mem w (List.mem_cons_of_mem _ hw)
    have hid : w.id ≠ row.id := fun he => hrow (he ▸ List.mem_map_of_mem hw)
    exact ⟨hm.others w hmem hid, hg⟩
  · rcases hm.rows r hr with htarget | ⟨hr, hid⟩
    · exact absurd (Option.some.inj (hg.symm.trans htarget)) hne
    · rcases List.mem_cons.mp (h.all r hr hg) with rfl | hrest
      · exact absurd rfl hid
      · exact hrest

theorem merged_of_pending (hne : source ≠ target) : ∀ {rest : List Relation} {t : Table Relation},
    Pending source rest t →
    (∀ r ∈ (rest.foldl (mergeRow columns target) t).rows,
      r.guestId = some target ∨ (r ∈ t.rows ∧ r.guestId ≠ some source)) ∧
    ((∃ r ∈ t.rows, r.guestId = some target) ∨ rest ≠ [] →
      ∃ r ∈ (rest.foldl (mergeRow columns target) t).rows, r.guestId = some target) := by
  intro rest
  induction rest with
  | nil =>
    intro t h
    refine ⟨fun r hr => Or.inr ⟨hr, fun hg => ?_⟩, fun hsome => ?_⟩
    · exact absurd (h.all r hr hg) List.not_mem_nil
    · rcases hsome with hsome | hempty
      · exact hsome
      · exact absurd rfl hempty
  | cons row rest ih =>
    intro t h
    obtain ⟨hrow, hg⟩ := h.mem row List.mem_cons_self
    have hgt : row.guestId ≠ some target := by
      rw [hg]
      exact fun he => hne (Option.some.inj he)
    have hm : RowMerged target row t (mergeRow columns target t row) := rowMerged_mergeRow hrow hgt
    obtain ⟨hrows, hsome⟩ := ih (h.next hne hm)
    rw [List.foldl_cons]
    refine ⟨fun r hr => ?_, fun _ => hsome (Or.inl hm.held)⟩
    rcases hrows r hr with htarget | ⟨hr, hns⟩
    · exact Or.inl htarget
    · rcases hm.rows r hr with htarget | ⟨hr, _⟩
      · exact Or.inl htarget
      · exact Or.inr ⟨hr, hns⟩

theorem hands_mergeUniqueRelation (hne : source ≠ target) :
    Hands Relation.guestId source target t (mergeUniqueRelation columns source target t) := by
  have hmem : ∀ r, r ∈ (t.select fun r => names source r.guestId) ↔
      r ∈ t.rows ∧ r.guestId = some source := by
    intro r
    rw [Table.mem_select, names_iff]
  have hpending : Pending source (t.select fun r => names source r.guestId) t := by
    refine ⟨fun w hw => (hmem w).mp hw, ?_, fun r hr hg => (hmem r).mpr ⟨hr, hg⟩⟩
    exact t.nodup.sublist (List.filter_sublist.map _)
  obtain ⟨hrows, hsome⟩ := @merged_of_pending columns source target hne _ _ hpending
  refine ⟨hrows, ?_, ?_⟩
  · rintro ⟨r, hr, hg⟩
    exact hsome (Or.inr (List.ne_nil_of_mem ((hmem r).mpr ⟨hr, hg⟩)))
  · intro hnone
    have hempty : (t.select fun r => names source r.guestId) = [] := by
      rw [List.eq_nil_iff_forall_not_mem]
      intro r hr
      obtain ⟨hr, hg⟩ := (hmem r).mp hr
      exact hnone r hr hg
    rw [mergeUniqueRelation, hempty]
    rfl

end Relations

section Guests
variable {s u : GuestBook} {source target i : ℕ} {g : Guest}

def into (s : GuestBook) (i : ℕ) : Option ℕ := (s.guests.find? i).bind Guest.mergedIntoId

def Unmerged (s : GuestBook) (i : ℕ) : Prop :=
  ∃ g, s.guests.find? i = some g ∧ g.mergedIntoId = none

abbrev ResolvesTo (s : GuestBook) : ℕ → ℕ → Prop := Resolves (into s) (Unmerged s)

structure Sound (s : GuestBook) : Prop where
  acyclic : ∀ i, ¬ Cyclic (into s) i
  resolved : ∀ g ∈ s.guests.rows, ∃! r, ResolvesTo s g.id r
  primary : Refers Reference.guestId (s.references .reservations) (Unmerged s)
  parties : Refers Relation.guestId (s.relations .reservationGuests) (Unmerged s)

theorem bare_into : Bare (into s) (Unmerged s) := by
  rintro r ⟨g, hg, hn⟩
  simp [into, hg, hn]

-- What a merge that commits does to the book.
structure Merged (source target : ℕ) (s u : GuestBook) : Prop where
  ne : source ≠ target
  found : ∃ g, s.guests.find? target = some g
  puts : Puts (into s) (into u) (Unmerged s) (Unmerged u) source target
  ids : ∀ i, (∃ g, u.guests.find? i = some g) ↔ ∃ g, s.guests.find? i = some g
  reservations : Hands Reference.guestId source target (s.references .reservations)
    (u.references .reservations)
  reservationGuests : Hands Relation.guestId source target (s.relations .reservationGuests)
    (u.relations .reservationGuests)

def guestsAfter (s : GuestBook) (sourceGuest targetGuest : Guest) : Table Guest :=
  ((s.guests.update sourceGuest.id cleared keeps_cleared).update targetGuest.id
    (absorbing sourceGuest) (keeps_absorbing _)).update sourceGuest.id
      (merged targetGuest.id s.clock) (keeps_merged _ _)

theorem find?_guestsAfter {a b : Guest} (hne : a.id ≠ b.id) :
    (guestsAfter s a b).find? i =
      if i = a.id then (s.guests.find? i).map fun g => merged b.id s.clock (cleared g)
      else if i = b.id then (s.guests.find? i).map (absorbing a)
      else s.guests.find? i := by
  simp only [guestsAfter, Table.find?_update (keeps_merged b.id s.clock),
    Table.find?_update (keeps_absorbing a), Table.find?_update keeps_cleared]
  by_cases ha : i = a.id
  · simp [ha, hne, Function.comp_def]
  · simp [ha]

theorem puts_guestsAfter {a b : Guest} (hne : a.id ≠ b.id) (ha : s.guests.find? a.id = some a)
    (hn : a.mergedIntoId = none) (hu : u.guests = guestsAfter s a b) :
    Puts (into s) (into u) (Unmerged s) (Unmerged u) a.id b.id where
  source := by
    rw [into, hu, find?_guestsAfter hne, if_pos rfl, ha]
    rfl
  others := by
    intro i hi
    rw [into, into, hu, find?_guestsAfter hne, if_neg hi]
    split_ifs
    · cases s.guests.find? i <;> rfl
    · rfl
  bare := bare_into
  isTop := ⟨a, ha, hn⟩
  tops := by
    intro i
    simp only [Unmerged, hu, find?_guestsAfter hne]
    by_cases hi : i = a.id
    · subst hi
      simp [ha, merged]
    · rw [if_neg hi, and_iff_left hi]
      split_ifs
      · simp [absorbing]
      · rfl

theorem exists_guestsAfter {a b : Guest} (hne : a.id ≠ b.id)
    (hu : u.guests = guestsAfter s a b) :
    (∃ g, u.guests.find? i = some g) ↔ ∃ g, s.guests.find? i = some g := by
  rw [hu, find?_guestsAfter hne]
  split_ifs <;> simp

theorem merged_of_commits (hc : Commits (merge source target) s g u) : Merged source target s u := by
  unfold merge at hc
  obtain ⟨hne, hc⟩ := commits_reject_bind.mp hc
  obtain ⟨a, ha, hc⟩ := commits_orFail_bind.mp (commits_get_bind.mp hc)
  obtain ⟨b, hb, hc⟩ := commits_orFail_bind.mp hc
  obtain ⟨hn, hc⟩ := commits_reject_bind.mp hc
  obtain ⟨_, s₁, halias, hc⟩ := commits_bind.mp hc
  obtain ⟨_, s₂, hguests, hc⟩ := commits_bind.mp hc
  obtain ⟨_, s₃, hmoved, hc⟩ := commits_bind.mp hc
  obtain ⟨_, s₄, htomb, hc⟩ := commits_bind.mp hc
  rw [commits_get_bind] at hc
  obtain ⟨_, rfl⟩ := commits_orFail.mp hc
  obtain ⟨_, halias⟩ := commits_reject_bind.mp (commits_get_bind.mp halias)
  have hset := commits_set.mp halias
  have hput := commits_modify.mp hguests
  have hmove := commits_modify.mp hmoved
  have hend := commits_modify.mp htomb
  obtain ⟨_, rfl⟩ := Table.find?_eq_some.mp ha
  obtain ⟨_, rfl⟩ := Table.find?_eq_some.mp hb
  have hg : s₄.guests = guestsAfter s a b := by
    rw [← hend, ← hmove, ← hput, ← hset]
    rfl
  have href : s₄.references = fun table => repoint a.id b.id (s.references table) := by
    rw [← hend, ← hmove, ← hput, ← hset]
    rfl
  have hrel : s₄.relations = fun table =>
      mergeUniqueRelation (uniqueColumns table) a.id b.id (s.relations table) := by
    rw [← hend, ← hmove, ← hput, ← hset]
    rfl
  exact {
    ne := hne
    found := ⟨b, hb⟩
    puts := puts_guestsAfter hne ha (not_not.mp hn) hg
    ids := fun i => exists_guestsAfter hne hg
    reservations := by
      rw [href]
      exact hands_repoint
    reservationGuests := by
      rw [hrel]
      exact hands_mergeUniqueRelation hne }

end Guests

section Runs
variable {s t u : GuestBook} {source target i : ℕ} {g : Guest} {c : Call}

-- The target is a guest of its own, or no stay goes to it and it lies under another guest's.
def Careful (c : Call) (s : GuestBook) : Prop :=
  Unmerged s c.target ∨
    (¬ ResolvesTo s c.target c.source ∧
      (∀ r ∈ (s.references .reservations).rows, r.guestId ≠ some c.source) ∧
      ∀ r ∈ (s.relations .reservationGuests).rows, r.guestId ≠ some c.source)

theorem cyclic_none (h : s.guests.find? i = none) : ¬ Cyclic (into s) i := by
  intro hcycle
  obtain ⟨j, hj, _⟩ := Relation.TransGen.head'_iff.mp hcycle
  simp [Link, into, h] at hj

theorem resolved_find? (hs : Sound s) (hg : s.guests.find? i = some g) : ∃ r, ResolvesTo s i r := by
  obtain ⟨hmem, rfl⟩ := Table.find?_eq_some.mp hg
  exact (hs.resolved g hmem).exists

theorem sound_of_parts (hres : ∀ i g, s.guests.find? i = some g → ∃ r, ResolvesTo s i r)
    (hprimary : Refers Reference.guestId (s.references .reservations) (Unmerged s))
    (hparties : Refers Relation.guestId (s.relations .reservationGuests) (Unmerged s)) :
    Sound s where
  acyclic := by
    intro i
    cases hg : s.guests.find? i with
    | none => exact cyclic_none hg
    | some g =>
      obtain ⟨r, hr⟩ := hres i g hg
      exact not_cyclic_of_resolves bare_into hr
  resolved := by
    intro g hg
    obtain ⟨r, hr⟩ := hres g.id g (Table.find?_eq_some.mpr ⟨hg, rfl⟩)
    exact ⟨r, hr, fun q hq => resolves_unique bare_into hq hr⟩
  primary := hprimary
  parties := hparties

theorem resolved_iff (hs : Sound s) (hm : Merged source target s u) :
    (∀ i g, u.guests.find? i = some g → ∃ r, ResolvesTo u i r) ↔
      ¬ ResolvesTo s target source := by
  obtain ⟨g, hg⟩ := hm.found
  obtain ⟨r, hr⟩ := resolved_find? hs hg
  have hroots := hm.puts.resolved_iff hr
  constructor
  · intro hu hsource
    obtain rfl := resolves_unique bare_into hr hsource
    refine hroots.mp (fun i hi => ?_) rfl
    by_cases hknown : ∃ g, s.guests.find? i = some g
    · obtain ⟨g', hg'⟩ := (hm.ids i).mpr hknown
      exact hu i g' hg'
    · obtain ⟨q, hclimb, g', hg', hn⟩ := hi
      have hnone : into s i = none := by
        cases hi' : s.guests.find? i with
        | none => simp [into, hi']
        | some g => exact absurd ⟨g, hi'⟩ hknown
      obtain rfl := eq_of_climbs hclimb hnone
      exact absurd ⟨g', hg'⟩ hknown
  · intro hne i g' hg'
    obtain ⟨g₀, hg₀⟩ := (hm.ids i).mp ⟨g', hg'⟩
    refine hroots.mpr ?_ i (resolved_find? hs hg₀)
    rintro rfl
    exact hne hr

theorem sound_iff (hs : Sound s) (hm : Merged source target s u) :
    Sound u ↔ Careful ⟨source, target⟩ s := by
  have hroots := resolved_iff hs hm
  have hprimary := hm.reservations.refers_iff hm.ne hm.puts.tops hs.primary
  have hparties := hm.reservationGuests.refers_iff hm.ne hm.puts.tops hs.parties
  constructor
  · intro hu
    have hun := hroots.mp fun i g hg => resolved_find? hu hg
    rcases hprimary.mp hu.primary with htarget | hnone
    · exact Or.inl htarget
    · rcases hparties.mp hu.parties with htarget | hnone'
      · exact Or.inl htarget
      · exact Or.inr ⟨hun, hnone, hnone'⟩
  · rintro (htarget | ⟨hun, hnone, hnone'⟩)
    · refine sound_of_parts (hroots.mpr fun hsource => ?_) (hprimary.mpr (Or.inl htarget))
        (hparties.mpr (Or.inl htarget))
      exact hm.ne (resolves_unique bare_into hsource ⟨.refl, htarget⟩)
    · exact sound_of_parts (hroots.mpr hun) (hprimary.mpr (Or.inr hnone))
        (hparties.mpr (Or.inr hnone'))

theorem merged_of_run (hc : Commits c.run s () u) : Merged c.source c.target s u := by
  simp only [Call.run, commits_bind, commits_pure] at hc
  obtain ⟨g, _, hg, _, rfl⟩ := hc
  exact merged_of_commits hg

theorem merges_stay_sound_iff (hs : Sound s) (h : Reaches Call.run Careful s t) :
    Sound t ∧ ∀ c u, Commits c.run t () u → (Sound u ↔ Careful c t) := by
  have ht : Sound t := h.invariant hs fun c _ _ hs hcare hc =>
    (sound_iff hs (merged_of_run hc)).mpr hcare
  exact ⟨ht, fun c u hc => sound_iff ht (merged_of_run hc)⟩

end Runs

section Scenario
variable {s : GuestBook} {i : ℕ}

def unmerged (s : GuestBook) (i : ℕ) : Bool :=
  (s.guests.find? i).any fun g => g.mergedIntoId.isNone

theorem unmerged_iff : unmerged s i = true ↔ Unmerged s i := by
  simp [unmerged, Unmerged, Option.any_eq_true]

def unmergedAll (s : GuestBook) : Bool :=
  (s.guests.rows.all fun g => g.mergedIntoId.isNone) &&
    ((s.references .reservations).rows.all fun r => r.guestId.all (unmerged s)) &&
    (s.relations .reservationGuests).rows.all fun r => r.guestId.all (unmerged s)

theorem sound_of_unmergedAll (h : unmergedAll s = true) : Sound s := by
  simp only [unmergedAll, Bool.and_eq_true, List.all_eq_true, Option.isNone_iff_eq_none,
    Option.all_eq_true, unmerged_iff] at h
  obtain ⟨⟨hguests, hprimary⟩, hparties⟩ := h
  refine sound_of_parts (fun i g hg => ⟨i, .refl, g, hg, ?_⟩) hprimary hparties
  exact hguests g (Table.find?_eq_some.mp hg).1

def ana (i : ℕ) : Guest where
  id := i
  firstName := "Ana"

theorem names_ana : Names ana := fun _ => rfl

def stayOf (i : ℕ) : Reference where
  id := i
  guestId := some i

theorem names_stayOf : Names stayOf := fun _ => rfl

def threeStays : Table Reference :=
  ((Table.empty.insert stayOf names_stayOf).insert stayOf names_stayOf).insert stayOf names_stayOf

def stayReferences : ReferenceTable → Table Reference
  | .reservations => threeStays
  | _ => .empty

-- Three profiles of one guest, with a stay each.
def threeProfiles : GuestBook where
  guests := ((Table.empty.insert ana names_ana).insert ana names_ana).insert ana names_ana
  references := stayReferences

theorem sound_threeProfiles : Sound threeProfiles :=
  sound_of_unmergedAll (by decide)

def freely (_ : Call) (_ : GuestBook) : Bool := true

def mergedInPairs (u : GuestBook) : Bool := into u 0 == some 1 && into u 1 == some 0

def stayAstray (v : GuestBook) : Bool :=
  (v.references .reservations).rows.any fun r => r.guestId == some 0 && into v 0 == some 1

-- Of two merges that name the merged guest 0 as their target, one goes back and one comes late.
theorem merged_target_breaks_the_forest : Sound threeProfiles ∧
    (∃ u, Reaches Call.run (fun _ _ => True) threeProfiles u ∧ Cyclic (into u) 0 ∧
      ∀ r, ¬ ResolvesTo u 0 r) ∧
    ∃ v, Reaches Call.run (fun _ _ => True) threeProfiles v ∧
      ∃ r ∈ (v.references .reservations).rows, ∃ i, r.guestId = some i ∧ ¬ Unmerged v i := by
  refine ⟨sound_threeProfiles, ?_, ?_⟩
  · obtain ⟨u, hu, hp⟩ : ∃ u, Reaches Call.run (fun _ _ => True) threeProfiles u ∧
        mergedInPairs u = true := Reaches.exists_of_run [⟨0, 1⟩, ⟨1, 0⟩] (by decide)
    simp only [mergedInPairs, Bool.and_eq_true, beq_iff_eq] at hp
    have hcycle : Cyclic (into u) 0 := .tail (.single hp.1) hp.2
    exact ⟨u, hu, hcycle, fun r hr => not_cyclic_of_resolves bare_into hr hcycle⟩
  · obtain ⟨v, hv, hp⟩ : ∃ v, Reaches Call.run (fun _ _ => True) threeProfiles v ∧
        stayAstray v = true := Reaches.exists_of_run [⟨0, 1⟩, ⟨2, 0⟩] (by decide)
    simp only [stayAstray, List.any_eq_true, Bool.and_eq_true, beq_iff_eq] at hp
    obtain ⟨r, hr, hg, hinto⟩ := hp
    refine ⟨v, hv, r, hr, 0, hg, fun hun => ?_⟩
    rw [bare_into 0 hun] at hinto
    cases hinto

def targetUnmerged (c : Call) (s : GuestBook) : Bool := unmerged s c.target

theorem careful_of_targetUnmerged (c : Call) (s : GuestBook) (h : targetUnmerged c s = true) :
    Careful c s := Or.inl (unmerged_iff.mp h)

theorem merges_into_unmerged_stay_sound : ∃ t, Reaches Call.run Careful threeProfiles t ∧
    into t 0 = some 1 ∧ into t 1 = some 2 ∧ Sound t ∧
      ∀ c u, Commits c.run t () u → (Sound u ↔ Careful c t) := by
  obtain ⟨t, ht, hp⟩ : ∃ t, Reaches Call.run Careful threeProfiles t ∧
      (into t 0 == some 1 && into t 1 == some 2) = true :=
    Reaches.exists_of_execute careful_of_targetUnmerged [⟨0, 1⟩, ⟨1, 2⟩] (by decide)
  simp only [Bool.and_eq_true, beq_iff_eq] at hp
  obtain ⟨hsound, hiff⟩ := merges_stay_sound_iff sound_threeProfiles ht
  exact ⟨t, ht, hp.1, hp.2, hsound, hiff⟩

end Scenario
end GuestMergeService
