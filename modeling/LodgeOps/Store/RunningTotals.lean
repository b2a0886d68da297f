import Mathlib.Algebra.BigOperators.Group.List.Basic
import Mathlib.Data.List.Chain

namespace RunningTotals
variable {α M : Type} [AddMonoid M] {opening amount closing : α → M} {a b c : M} {xs ys : List α}

-- Every entry opens on the balance the one before it closed on.
def Runs (opening amount closing : α → M) : M → List α → M → Prop
  | a, [], b => b = a
  | a, x :: xs, b =>
      opening x = a ∧ closing x = a + amount x ∧ Runs opening amount closing (closing x) xs b

theorem runs_nil : Runs opening amount closing a [] a := rfl

theorem runs_singleton {x : α} (ho : opening x = a) (hc : closing x = a + amount x) :
    Runs opening amount closing a [x] (closing x) := ⟨ho, hc, rfl⟩

theorem Runs.append (h : Runs opening amount closing a xs b)
    (h' : Runs opening amount closing b ys c) : Runs opening amount closing a (xs ++ ys) c := by
  induction xs generalizing a with
  | nil =>
    obtain rfl : b = a := h
    exact h'
  | cons x xs ih =>
    obtain ⟨ho, hc, hrest⟩ := h
    exact ⟨ho, hc, ih hrest⟩

theorem Runs.sum (h : Runs opening amount closing a xs b) : b = a + (xs.map amount).sum := by
  induction xs generalizing a with
  | nil =>
    obtain rfl : b = a := h
    simp
  | cons x xs ih =>
    obtain ⟨_, hc, hrest⟩ := h
    rw [ih hrest, hc, List.map_cons, List.sum_cons, add_assoc]

theorem Runs.entry (h : Runs opening amount closing a xs b) :
    ∀ x ∈ xs, closing x = opening x + amount x := by
  induction xs generalizing a with
  | nil => simp
  | cons x xs ih =>
    obtain ⟨ho, hc, hrest⟩ := h
    exact List.forall_mem_cons.mpr ⟨ho ▸ hc, ih hrest⟩

theorem Runs.first (h : Runs opening amount closing a xs b) : ∀ x ∈ xs.head?, opening x = a := by
  cases xs with
  | nil => simp
  | cons x xs => simpa using h.1

theorem Runs.last (h : Runs opening amount closing a xs b) : ∀ x ∈ xs.getLast?, closing x = b := by
  induction xs generalizing a with
  | nil => simp
  | cons x xs ih =>
    obtain ⟨_, _, hrest⟩ := h
    cases xs with
    | nil =>
      obtain rfl : b = closing x := hrest
      simp
    | cons y ys => simpa using ih hrest

theorem Runs.link (h : Runs opening amount closing a xs b) :
    xs.IsChain fun x y => opening y = closing x := by
  induction xs generalizing a with
  | nil => exact .nil
  | cons x xs ih =>
    obtain ⟨_, _, hrest⟩ := h
    cases xs with
    | nil => exact .singleton x
    | cons y ys => exact .cons_cons hrest.1 (ih hrest)

end RunningTotals
