import Mathlib.Data.List.Sort
import Mathlib.Order.Defs.LinearOrder
import Mathlib.Tactic

-- Lists whose entries come by rank, the highest first, and what a search from the front finds.
namespace Precedence
variable {α κ : Type} [LinearOrder κ] (rank : α → κ) (p : α → Bool)

def Precedes (a b : α) : Prop := rank b ≤ rank a

structure Ordering (base xs : List α) : Prop where
  perm : xs.Perm base
  ranked : xs.Pairwise (Precedes rank)

structure Leads (base : List α) (a : α) : Prop where
  mem : a ∈ base
  holds : p a = true
  highest : ∀ b ∈ base, p b = true → rank b ≤ rank a

variable {rank p} {base xs : List α} {a b : α}

instance : DecidableRel (Precedes rank) := fun a b => inferInstanceAs (Decidable (rank b ≤ rank a))

instance : Std.Total (Precedes rank) := ⟨fun a b => le_total (rank b) (rank a)⟩

instance : IsTrans α (Precedes rank) := ⟨fun _ _ _ hab hbc => le_trans hbc hab⟩

theorem leads_of_find? (ho : Ordering rank base xs) (h : xs.find? p = some a) :
    Leads rank p base a := by
  obtain ⟨ha, before, after, rfl, hbefore⟩ := List.find?_eq_some_iff_append.mp h
  refine ⟨ho.perm.mem_iff.mp (by simp), ha, fun b hb hp => ?_⟩
  rcases List.mem_append.mp (ho.perm.mem_iff.mpr hb) with hb | hb
  · have hn := hbefore b hb
    simp [hp] at hn
  · rcases List.mem_cons.mp hb with rfl | hb
    · exact le_rfl
    · obtain ⟨_, hafter, _⟩ := List.pairwise_append.mp ho.ranked
      exact (List.pairwise_cons.mp hafter).1 b hb

-- The entries above `a` go first, then `a` itself, then the others.
theorem exists_ordering_find? (h : Leads rank p base a) :
    ∃ xs, Ordering rank base xs ∧ xs.find? p = some a := by
  obtain ⟨before, after, rfl⟩ := List.append_of_mem h.mem
  let above : α → Bool := fun b => decide (rank a < rank b)
  let high := ((before ++ after).filter above).insertionSort (Precedes rank)
  let low := ((before ++ after).filter fun b => !above b).insertionSort (Precedes rank)
  have hhigh : ∀ b ∈ high, rank a < rank b := by
    intro b hb
    have hb' := (List.mem_filter.mp ((List.mem_insertionSort _).mp hb)).2
    simpa [above] using hb'
  have hlow : ∀ b ∈ low, rank b ≤ rank a := by
    intro b hb
    have hb' := (List.mem_filter.mp ((List.mem_insertionSort _).mp hb)).2
    simpa [above] using hb'
  have hperm : (high ++ low).Perm (before ++ after) :=
    ((List.perm_insertionSort _ _).append (List.perm_insertionSort _ _)).trans
      (List.filter_append_perm _ _)
  have hall : (high ++ a :: low).Perm (before ++ a :: after) := by
    calc
      List.Perm (high ++ a :: low) (a :: (high ++ low)) := List.perm_middle
      List.Perm _ (a :: (before ++ after)) := hperm.cons a
      List.Perm _ _ := List.perm_middle.symm
  refine ⟨high ++ a :: low, ⟨hall, ?_⟩, ?_⟩
  · rw [List.pairwise_append]
    refine ⟨List.pairwise_insertionSort _ _, ?_, ?_⟩
    · exact List.pairwise_cons.mpr ⟨hlow, List.pairwise_insertionSort _ _⟩
    · intro b hb c hc
      rcases List.mem_cons.mp hc with rfl | hc
      · exact (hhigh b hb).le
      · exact (hlow c hc).trans (hhigh b hb).le
  · have hnone : high.find? p = none := by
      rw [List.find?_eq_none]
      intro b hb hp
      have hbase : b ∈ before ++ a :: after := hall.mem_iff.mp (List.mem_append_left _ hb)
      exact absurd (h.highest b hbase hp) (not_le.mpr (hhigh b hb))
    rw [List.find?_append, hnone, List.find?_cons, h.holds]
    rfl

-- What is found first depends on no order among equals just if one entry leads at most.
theorem find?_constant_iff :
    (∀ xs ys, Ordering rank base xs → Ordering rank base ys → xs.find? p = ys.find? p) ↔
      ∀ a b, Leads rank p base a → Leads rank p base b → a = b := by
  constructor
  · intro hconst a b ha hb
    obtain ⟨xs, hxs, hfa⟩ := exists_ordering_find? ha
    obtain ⟨ys, hys, hfb⟩ := exists_ordering_find? hb
    exact Option.some.inj (hfa.symm.trans ((hconst xs ys hxs hys).trans hfb))
  · intro hone xs ys hxs hys
    cases hx : xs.find? p with
    | none =>
      rw [List.find?_eq_none] at hx
      refine (List.find?_eq_none.mpr fun b hb => hx b ?_).symm
      exact hxs.perm.mem_iff.mpr (hys.perm.mem_iff.mp hb)
    | some a =>
      have ha := leads_of_find? hxs hx
      cases hy : ys.find? p with
      | none =>
        have hn := List.find?_eq_none.mp hy a (hys.perm.mem_iff.mpr ha.mem)
        exact absurd ha.holds hn
      | some b => rw [hone a b ha (leads_of_find? hys hy)]

end Precedence
