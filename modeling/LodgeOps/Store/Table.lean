import Mathlib.Algebra.BigOperators.Group.List.Basic
import Mathlib.Data.List.Nodup
import Mathlib.Tactic

class Keyed (ρ : Type) where
  id : ρ → ℕ

def Keeps {ρ : Type} [Keyed ρ] (f : ρ → ρ) : Prop := ∀ r, Keyed.id (f r) = Keyed.id r

def Names {ρ : Type} [Keyed ρ] (mk : ℕ → ρ) : Prop := ∀ i, Keyed.id (mk i) = i

structure Table (ρ : Type) [Keyed ρ] where
  rows : List ρ
  next : ℕ
  below : ∀ r ∈ rows, Keyed.id r < next
  nodup : (rows.map Keyed.id).Nodup

namespace Table
variable {ρ : Type} [Keyed ρ]

def empty : Table ρ := ⟨[], 0, by simp, by simp⟩

def find? (t : Table ρ) (i : ℕ) : Option ρ :=
  t.rows.find? fun r => Keyed.id r == i

def first? (t : Table ρ) (p : ρ → Bool) : Option ρ :=
  t.rows.find? p

def select (t : Table ρ) (p : ρ → Bool) : List ρ :=
  t.rows.filter p

def oldest? (t : Table ρ) (p : ρ → Bool) (at' : ρ → ℤ) : Option ρ :=
  ((t.select p).insertionSort fun r s => at' r ≤ at' s).head?

def insert (t : Table ρ) (mk : ℕ → ρ)
    (hk : Names mk := by intro i; rfl) : Table ρ where
  rows := t.rows ++ [mk t.next]
  next := t.next + 1
  below := by
    intro r hr
    rcases List.mem_append.mp hr with h | h
    · exact Nat.lt_succ_of_lt (t.below r h)
    · rw [List.mem_singleton.mp h, hk]
      exact Nat.lt_succ_self _
  nodup := by
    rw [List.map_append, List.nodup_append]
    refine ⟨t.nodup, by simp, ?_⟩
    intro i hi j hj
    obtain ⟨r, hr, rfl⟩ := List.mem_map.mp hi
    have hlt : Keyed.id r < t.next := t.below r hr
    simp only [List.map_cons, List.map_nil, List.mem_singleton] at hj
    rw [hj, hk]
    exact hlt.ne

def updateWhere (t : Table ρ) (p : ρ → Bool) (f : ρ → ρ)
    (hk : Keeps f := by intro r; rfl) : Table ρ where
  rows := t.rows.map fun r => if p r then f r else r
  next := t.next
  below := by
    intro r hr
    obtain ⟨q, hq, rfl⟩ := List.mem_map.mp hr
    have hlt := t.below q hq
    split_ifs
    · rwa [hk]
    · exact hlt
  nodup := by
    have he : ∀ r, Keyed.id (if p r then f r else r) = Keyed.id r := by
      intro r
      split_ifs
      · exact hk r
      · rfl
    rw [List.map_map]
    simpa [Function.comp_def, he] using t.nodup

def update (t : Table ρ) (i : ℕ) (f : ρ → ρ)
    (hk : Keeps f := by intro r; rfl) : Table ρ :=
  t.updateWhere (fun r => Keyed.id r == i) f hk

def deleteWhere (t : Table ρ) (p : ρ → Bool) : Table ρ where
  rows := t.rows.filter fun r => !p r
  next := t.next
  below r hr := t.below r (List.mem_of_mem_filter hr)
  nodup := t.nodup.sublist (List.filter_sublist.map _)

variable {t : Table ρ} {r s : ρ} {i : ℕ}

theorem mem_deleteWhere {p : ρ → Bool} : r ∈ (t.deleteWhere p).rows ↔ r ∈ t.rows ∧ p r = false := by
  simp [deleteWhere]

theorem eq_of_id (hr : r ∈ t.rows) (hs : s ∈ t.rows) (h : Keyed.id r = Keyed.id s) : r = s :=
  List.inj_on_of_nodup_map t.nodup hr hs h

theorem find?_eq_some : t.find? i = some r ↔ r ∈ t.rows ∧ Keyed.id r = i := by
  constructor
  · intro h
    exact ⟨List.mem_of_find?_eq_some h, by simpa using List.find?_some h⟩
  · rintro ⟨hr, hi⟩
    cases hf : t.find? i with
    | none =>
      have hn := List.find?_eq_none.mp hf r hr
      simp [hi] at hn
    | some q =>
      have hq : Keyed.id q = i := by simpa using List.find?_some hf
      rw [eq_of_id (List.mem_of_find?_eq_some hf) hr (hq.trans hi.symm)]

theorem find?_eq_none : t.find? i = none ↔ ∀ r ∈ t.rows, Keyed.id r ≠ i := by
  simp [find?, List.find?_eq_none]

theorem first?_some {p : ρ → Bool} (h : t.first? p = some r) : r ∈ t.rows ∧ p r = true :=
  ⟨List.mem_of_find?_eq_some h, List.find?_some h⟩

theorem first?_eq_none {p : ρ → Bool} : t.first? p = none ↔ ∀ r ∈ t.rows, p r = false := by
  simp [first?, List.find?_eq_none]

theorem mem_select {p : ρ → Bool} : r ∈ t.select p ↔ r ∈ t.rows ∧ p r = true :=
  List.mem_filter

theorem oldest?_some {p : ρ → Bool} {at' : ρ → ℤ} (h : t.oldest? p at' = some r) :
    r ∈ t.rows ∧ p r = true := by
  have hr := List.mem_of_mem_head? (Option.mem_def.mpr h)
  exact mem_select.mp ((List.mem_insertionSort _).mp hr)

theorem oldest?_eq_none {p : ρ → Bool} {at' : ρ → ℤ} :
    t.oldest? p at' = none ↔ ∀ r ∈ t.rows, p r = false := by
  unfold oldest?
  rw [List.head?_eq_none_iff, ← List.length_eq_zero_iff, List.length_insertionSort,
    List.length_eq_zero_iff, select, List.filter_eq_nil_iff]
  simp

section Membership
variable {mk : ℕ → ρ} {p : ρ → Bool} {f : ρ → ρ}

theorem mem_insert (hk : Names mk := by first | assumption | (intro i; rfl)) : r ∈ (t.insert mk hk).rows ↔ r ∈ t.rows ∨ r = mk t.next := by
  simp [insert]

theorem id_lt_next (hr : r ∈ t.rows) : Keyed.id r < t.next := t.below r hr

theorem find?_insert_next (hk : Names mk := by first | assumption | (intro i; rfl)) : (t.insert mk hk).find? t.next = some (mk t.next) :=
  find?_eq_some.mpr ⟨(mem_insert hk).mpr (Or.inr rfl), hk _⟩

theorem find?_insert_of_some (h : t.find? i = some r)
    (hk : Names mk := by first | assumption | (intro i; rfl)) :
    (t.insert mk hk).find? i = some r := by
  obtain ⟨hr, hi⟩ := find?_eq_some.mp h
  exact find?_eq_some.mpr ⟨(mem_insert hk).mpr (Or.inl hr), hi⟩

theorem mem_updateWhere (hf : Keeps f := by first | assumption | (intro r; rfl)) : r ∈ (t.updateWhere p f hf).rows ↔
    (r ∈ t.rows ∧ p r = false) ∨ ∃ q ∈ t.rows, p q = true ∧ r = f q := by
  simp only [updateWhere, List.mem_map]
  constructor
  · rintro ⟨q, hq, rfl⟩
    cases hp : p q with
    | true => exact Or.inr ⟨q, hq, hp, by simp⟩
    | false => exact Or.inl ⟨by simpa using hq, by simpa using hp⟩
  · rintro (⟨hr, hp⟩ | ⟨q, hq, hp, rfl⟩)
    · exact ⟨r, hr, by simp [hp]⟩
    · exact ⟨q, hq, by simp [hp]⟩

theorem mem_update (hf : Keeps f := by first | assumption | (intro r; rfl)) : r ∈ (t.update i f hf).rows ↔
    (r ∈ t.rows ∧ Keyed.id r ≠ i) ∨ ∃ q ∈ t.rows, Keyed.id q = i ∧ r = f q := by
  simp [update, mem_updateWhere hf]

theorem find?_update_self (h : t.find? i = some r)
    (hf : Keeps f := by first | assumption | (intro r; rfl)) : (t.update i f hf).find? i = some (f r) := by
  obtain ⟨hr, hi⟩ := find?_eq_some.mp h
  exact find?_eq_some.mpr ⟨(mem_update hf).mpr (Or.inr ⟨r, hr, hi, rfl⟩), (hf r).trans hi⟩

theorem find?_update_ne {j : ℕ} (hne : j ≠ i)
    (hf : Keeps f := by first | assumption | (intro r; rfl)) : (t.update i f hf).find? j = t.find? j := by
  cases h : t.find? j with
  | none =>
    rw [find?_eq_none] at h ⊢
    intro r hr
    rcases (mem_update hf).mp hr with ⟨hr, _⟩ | ⟨q, _, hi, rfl⟩
    · exact h r hr
    · rw [hf, hi]
      exact hne.symm
  | some r =>
    obtain ⟨hr, hj⟩ := find?_eq_some.mp h
    exact find?_eq_some.mpr ⟨(mem_update hf).mpr (Or.inl ⟨hr, hj ▸ hne⟩), hj⟩

theorem find?_update {j : ℕ} (hf : Keeps f := by first | assumption | (intro r; rfl)) :
    (t.update i f hf).find? j = if j = i then (t.find? j).map f else t.find? j := by
  by_cases hj : j = i
  · subst hj
    cases h : t.find? j with
    | some r => simp [find?_update_self h hf]
    | none =>
      simp only [if_true, Option.map_none]
      rw [find?_eq_none] at h ⊢
      intro r hr
      rcases (mem_update hf).mp hr with ⟨_, hne⟩ | ⟨q, hq, hi, _⟩
      · exact hne
      · exact absurd hi (h q hq)
  · rw [if_neg hj, find?_update_ne hj hf]

end Membership

section Total
variable {M : Type} [AddCommMonoid M] {g : ρ → M}

def total (t : Table ρ) (g : ρ → M) : M := (t.rows.map g).sum

@[simp] theorem total_empty : (empty : Table ρ).total g = 0 := rfl

theorem total_congr {h : ρ → M} (he : ∀ r ∈ t.rows, g r = h r) : t.total g = t.total h := by
  unfold total
  rw [List.map_congr_left he]

theorem total_eq_zero (h : ∀ r ∈ t.rows, g r = 0) : t.total g = 0 := by
  rw [total_congr h]
  simp [total]

theorem total_add {h : ρ → M} : t.total (fun r => g r + h r) = t.total g + t.total h := by
  unfold total
  induction t.rows with
  | nil => simp
  | cons r rs ih =>
    simp only [List.map_cons, List.sum_cons, ih]
    abel

theorem total_insert {mk : ℕ → ρ} (hk : Names mk := by first | assumption | (intro i; rfl)) :
    (t.insert mk hk).total g = t.total g + g (mk t.next) := by
  simp [total, insert]

variable {f : ρ → ρ}

theorem total_updateWhere {p : ρ → Bool}
    (hf : Keeps f := by first | assumption | (intro r; rfl)) :
    (t.updateWhere p f hf).total g = t.total fun r => g (if p r then f r else r) := by
  simp [total, updateWhere, Function.comp_def]

theorem total_update_eq (h : ∀ r ∈ t.rows, Keyed.id r = i → g (f r) = g r)
    (hf : Keeps f := by first | assumption | (intro r; rfl)) :
    (t.update i f hf).total g = t.total g := by
  rw [update, total_updateWhere hf]
  refine total_congr fun r hr => ?_
  by_cases hi : Keyed.id r = i
  · simp [hi, h r hr hi]
  · simp [hi]

theorem total_split (hr : r ∈ t.rows) :
    t.total g = g r + t.total fun s => if Keyed.id s = Keyed.id r then 0 else g s := by
  have hsum : ∀ l : List ρ, (l.map Keyed.id).Nodup → r ∈ l → (l.map g).sum =
      g r + (l.map fun s => if Keyed.id s = Keyed.id r then 0 else g s).sum := by
    intro l
    induction l with
    | nil => simp
    | cons x xs ih =>
      intro hn hm
      obtain ⟨hx, hxs⟩ := List.nodup_cons.mp hn
      rcases List.mem_cons.mp hm with rfl | hm
      · have hrest : (xs.map fun s => if Keyed.id s = Keyed.id r then 0 else g s) = xs.map g := by
          refine List.map_congr_left fun s hs => ?_
          have hne : Keyed.id s ≠ Keyed.id r := fun h => hx (h ▸ List.mem_map_of_mem hs)
          simp [hne]
        simp [hrest]
      · have hne : Keyed.id x ≠ Keyed.id r := fun h => hx (h ▸ List.mem_map_of_mem hm)
        simp only [List.map_cons, List.sum_cons, if_neg hne, ih hxs hm]
        abel
  exact hsum t.rows t.nodup hr

theorem total_update (hr : r ∈ t.rows) (hi : Keyed.id r = i)
    (hf : Keeps f := by first | assumption | (intro r; rfl)) :
    (t.update i f hf).total g + g r = t.total g + g (f r) := by
  have hmem : f r ∈ (t.update i f hf).rows := (mem_update hf).mpr (Or.inr ⟨r, hr, hi, rfl⟩)
  rw [total_split hmem, total_split (g := g) hr, hf, hi]
  have hrest : (t.update i f hf).total (fun s => if Keyed.id s = i then 0 else g s) =
      t.total fun s => if Keyed.id s = i then 0 else g s :=
    total_update_eq (fun s _ hs => by simp [hf s, hs]) hf
  rw [hrest]
  abel

section Ordered
variable {M : Type} [AddCommMonoid M] [PartialOrder M] [IsOrderedAddMonoid M] {g h : ρ → M}

theorem total_nonneg (hg : ∀ r ∈ t.rows, 0 ≤ g r) : 0 ≤ t.total g :=
  List.sum_nonneg fun y hy => by
    obtain ⟨r, hr, rfl⟩ := List.mem_map.mp hy
    exact hg r hr

theorem total_le_total (hg : ∀ r ∈ t.rows, g r ≤ h r) : t.total g ≤ t.total h :=
  List.sum_le_sum hg

theorem le_total (hr : r ∈ t.rows) (hg : ∀ s ∈ t.rows, 0 ≤ g s) : g r ≤ t.total g := by
  rw [total_split hr]
  refine le_add_of_nonneg_right (total_nonneg fun s hs => ?_)
  split_ifs
  · exact le_rfl
  · exact hg s hs

theorem add_le_total (hr : r ∈ t.rows) (hs : s ∈ t.rows) (hne : Keyed.id s ≠ Keyed.id r)
    (hg : ∀ q ∈ t.rows, 0 ≤ g q) : g r + g s ≤ t.total g := by
  rw [total_split hr]
  have hle := le_total (g := fun q => if Keyed.id q = Keyed.id r then 0 else g q) hs fun q hq => by
    split_ifs
    · exact le_rfl
    · exact hg q hq
  simp only [if_neg hne] at hle
  exact add_le_add le_rfl hle

-- Rows that each draw on a row of their own in another table cannot total more than that table.
theorem total_le_of_owner {σ : Type} [Keyed σ] {u : Table σ} {f : σ → M} (owner : ρ → ℕ)
    (hinj : ∀ r ∈ t.rows, ∀ s ∈ t.rows, owner r = owner s → r = s)
    (how : ∀ r ∈ t.rows, ∃ c ∈ u.rows, Keyed.id c = owner r ∧ g r ≤ f c)
    (hf : ∀ c ∈ u.rows, 0 ≤ f c) : t.total g ≤ u.total f := by
  have hlist : ∀ (l : List ρ) (f : σ → M), (l.map owner).Nodup →
      (∀ r ∈ l, ∃ c ∈ u.rows, Keyed.id c = owner r ∧ g r ≤ f c) → (∀ c ∈ u.rows, 0 ≤ f c) →
      (l.map g).sum ≤ u.total f := by
    intro l
    induction l with
    | nil => exact fun f _ _ hf => total_nonneg hf
    | cons x xs ih =>
      intro f hn hm hf
      obtain ⟨c, hc, hid, hle⟩ := hm x List.mem_cons_self
      obtain ⟨hx, hxs⟩ := List.nodup_cons.mp hn
      rw [total_split hc, List.map_cons, List.sum_cons]
      refine add_le_add hle (ih _ hxs (fun r hr => ?_) fun d hd => ?_)
      · obtain ⟨d, hd, hdid, hdle⟩ := hm r (List.mem_cons_of_mem x hr)
        have hne : Keyed.id d ≠ Keyed.id c := by
          rw [hdid, hid]
          exact fun he => hx (he ▸ List.mem_map_of_mem hr)
        exact ⟨d, hd, hdid, by rwa [if_neg hne]⟩
      · split_ifs
        · exact le_rfl
        · exact hf d hd
  have hn : (t.rows.map owner).Nodup :=
    List.Nodup.map_on (fun r hr s hs he => hinj r hr s hs he) (List.Nodup.of_map _ t.nodup)
  exact hlist t.rows f hn how hf

end Ordered
end Total

section Changes
variable {t' : Table ρ} {x : ρ}

-- What an insertion and an update do to the rows, whatever proofs the tables carry.
structure Appends (t t' : Table ρ) (x : ρ) : Prop where
  rows : t'.rows = t.rows ++ [x]
  next : t'.next = t.next + 1
  id : Keyed.id x = t.next

structure Updates (t t' : Table ρ) (i : ℕ) (f : ρ → ρ) : Prop where
  rows : t'.rows = t.rows.map fun r => if Keyed.id r = i then f r else r
  next : t'.next = t.next
  keeps : Keeps f

theorem appends_insert {mk : ℕ → ρ} (hk : Names mk := by first | assumption | (intro i; rfl)) :
    Appends t (t.insert mk hk) (mk t.next) :=
  ⟨rfl, rfl, hk _⟩

theorem updates_update {f : ρ → ρ}
    (hf : Keeps f := by first | assumption | (intro r; rfl)) : Updates t (t.update i f hf) i f :=
  ⟨by simp [update, updateWhere], rfl, hf⟩

namespace Appends
variable (h : Appends t t' x)
include h

theorem mem : r ∈ t'.rows ↔ r ∈ t.rows ∨ r = x := by simp [h.rows]

theorem mem_old (hr : r ∈ t.rows) : r ∈ t'.rows := h.mem.mpr (Or.inl hr)

theorem mem_new : x ∈ t'.rows := h.mem.mpr (Or.inr rfl)

theorem lt_next (hr : r ∈ t.rows) : Keyed.id r < Keyed.id x := h.id ▸ t.below r hr

theorem find?_old (hr : t.find? i = some r) : t'.find? i = some r := by
  obtain ⟨hr, hi⟩ := find?_eq_some.mp hr
  exact find?_eq_some.mpr ⟨h.mem_old hr, hi⟩

theorem find?_new : t'.find? (Keyed.id x) = some x := find?_eq_some.mpr ⟨h.mem_new, rfl⟩

theorem total {M : Type} [AddCommMonoid M] {g : ρ → M} : t'.total g = t.total g + g x := by
  simp [Table.total, h.rows]

end Appends

namespace Updates
variable {f : ρ → ρ} (h : Updates t t' i f)
include h

theorem mem : s ∈ t'.rows ↔ (s ∈ t.rows ∧ Keyed.id s ≠ i) ∨ ∃ q ∈ t.rows, Keyed.id q = i ∧ s = f q := by
  simp only [h.rows, List.mem_map]
  constructor
  · rintro ⟨q, hq, rfl⟩
    by_cases hi : Keyed.id q = i
    · exact Or.inr ⟨q, hq, hi, if_pos hi⟩
    · exact Or.inl (by simpa [hi] using hq)
  · rintro (⟨hs, hi⟩ | ⟨q, hq, hi, rfl⟩)
    · exact ⟨s, hs, if_neg hi⟩
    · exact ⟨q, hq, if_pos hi⟩

theorem mem_cases (hr : r ∈ t.rows) (hi : Keyed.id r = i) (hs : s ∈ t'.rows) :
    (s ∈ t.rows ∧ Keyed.id s ≠ i) ∨ s = f r := by
  rcases h.mem.mp hs with hs | ⟨q, hq, hqi, rfl⟩
  · exact Or.inl hs
  · exact Or.inr (congrArg f (eq_of_id hq hr (hqi.trans hi.symm)))

theorem mem_ne (hr : r ∈ t.rows) (hi : Keyed.id r ≠ i) : r ∈ t'.rows := h.mem.mpr (Or.inl ⟨hr, hi⟩)

theorem mem_self (hr : r ∈ t.rows) (hi : Keyed.id r = i) : f r ∈ t'.rows :=
  h.mem.mpr (Or.inr ⟨r, hr, hi, rfl⟩)

theorem find?_self (hr : t.find? i = some r) : t'.find? i = some (f r) := by
  obtain ⟨hr, hi⟩ := find?_eq_some.mp hr
  exact find?_eq_some.mpr ⟨h.mem_self hr hi, (h.keeps r).trans hi⟩

theorem total {M : Type} [AddCommMonoid M] {g : ρ → M} (hr : r ∈ t.rows) (hi : Keyed.id r = i) :
    t'.total g + g r = t.total g + g (f r) := by
  have he : t'.total g = (t.update i f h.keeps).total g := by
    simp [Table.total, h.rows, update, updateWhere]
  rw [he]
  exact total_update hr hi h.keeps

theorem total_eq {M : Type} [AddCommMonoid M] {g : ρ → M}
    (hg : ∀ r ∈ t.rows, Keyed.id r = i → g (f r) = g r) : t'.total g = t.total g := by
  have he : t'.total g = (t.update i f h.keeps).total g := by
    simp [Table.total, h.rows, update, updateWhere]
  rw [he]
  exact total_update_eq hg h.keeps

end Updates

theorem Appends.update {t'' : Table ρ} {f : ρ → ρ} (h : Appends t t' x)
    (h' : Updates t' t'' (Keyed.id x) f) : Appends t t'' (f x) where
  rows := by
    have hold : (t.rows.map fun r => if Keyed.id r = Keyed.id x then f r else r) = t.rows := by
      refine (List.map_congr_left fun r hr => ?_).trans (List.map_id _)
      rw [if_neg (h.lt_next hr).ne]
      rfl
    rw [h'.rows, h.rows, List.map_append, hold]
    simp
  next := h'.next.trans h.next
  id := (h'.keeps x).trans h.id

end Changes
end Table
