import Mathlib.Tactic

namespace Shares
variable {pool total remaining : ℤ} {ws : List ℤ}

-- Each takes the whole units of their share of the pool, and the last what is left of it.
def shares (pool total : ℤ) : List ℤ → ℤ → List ℤ
  | [], _ => []
  | [_], remaining => [remaining]
  | w :: v :: ws, remaining =>
    pool * w / total :: shares pool total (v :: ws) (remaining - pool * w / total)

def floors (pool total : ℤ) (ws : List ℤ) : ℤ := (ws.map fun w => pool * w / total).sum

def leftover (pool total : ℤ) (ws : List ℤ) : ℤ := (ws.map fun w => pool * w % total).sum

def Within (ws shares : List ℤ) : Prop := List.Forall₂ (fun w s => 0 ≤ s ∧ s ≤ w) ws shares

theorem sum_shares (h : ws ≠ []) : (shares pool total ws remaining).sum = remaining := by
  induction ws generalizing remaining with
  | nil => exact absurd rfl h
  | cons w ws ih =>
    cases ws with
    | nil => simp [shares]
    | cons v ws =>
      rw [shares, List.sum_cons, ih (by simp)]
      omega

theorem total_floors : total * floors pool total ws + leftover pool total ws = pool * ws.sum := by
  induction ws with
  | nil => simp [floors, leftover]
  | cons w ws ih =>
    have hw := Int.mul_ediv_add_emod (pool * w) total
    simp only [floors, leftover, List.map_cons, List.sum_cons] at ih ⊢
    linear_combination hw + ih

section Bounds
variable (htotal : 0 < total) (hpool : 0 ≤ pool) (hle : pool ≤ total)
include htotal hpool hle

theorem share_within {w : ℤ} (hw : 0 ≤ w) : 0 ≤ pool * w / total ∧ pool * w / total ≤ w := by
  constructor
  · exact Int.ediv_nonneg (mul_nonneg hpool hw) htotal.le
  · apply Int.ediv_le_of_le_mul htotal
    rw [mul_comm w total]
    exact mul_le_mul_of_nonneg_right hle hw

theorem within_iff (hne : ws ≠ []) (hws : ∀ w ∈ ws, 0 ≤ w) :
    Within ws (shares pool total ws remaining) ↔
      0 ≤ remaining - floors pool total ws.dropLast ∧
        remaining - floors pool total ws.dropLast ≤ ws.getLast hne := by
  induction ws generalizing remaining with
  | nil => exact absurd rfl hne
  | cons w ws ih =>
    obtain ⟨hw, hrest⟩ := List.forall_mem_cons.mp hws
    cases ws with
    | nil => simp [shares, Within, floors]
    | cons v ws =>
      have hfloors : floors pool total (w :: v :: ws).dropLast =
          pool * w / total + floors pool total (v :: ws).dropLast := by
        simp [floors, List.dropLast]
      have ih := @ih (remaining - pool * w / total) (by simp) hrest
      rw [shares, Within, List.forall₂_cons, hfloors, List.getLast_cons (by simp), ← sub_sub]
      constructor
      · rintro ⟨_, hs⟩
        exact ih.mp hs
      · intro hs
        exact ⟨share_within htotal hpool hle hw, ih.mpr hs⟩

end Bounds

theorem sum_dropLast (hne : ws ≠ []) : ws.sum = ws.dropLast.sum + ws.getLast hne := by
  conv_lhs => rw [← List.dropLast_append_getLast hne]
  simp

-- The last share is its own part of the pool and the fractions the others left behind.
theorem total_last (hne : ws ≠ []) :
    ws.sum * (pool - floors pool ws.sum ws.dropLast) =
      pool * ws.getLast hne + leftover pool ws.sum ws.dropLast := by
  have hfloors : ws.sum * floors pool ws.sum ws.dropLast + leftover pool ws.sum ws.dropLast =
      pool * ws.dropLast.sum := total_floors
  have hsum := sum_dropLast hne
  linear_combination pool * hsum - hfloors

theorem leftover_nonneg (htotal : 0 < total) : 0 ≤ leftover pool total ws := by
  apply List.sum_nonneg
  intro x hx
  obtain ⟨w, _, rfl⟩ := List.mem_map.mp hx
  exact Int.emod_nonneg _ htotal.ne'

theorem shares_within_iff (hne : ws ≠ []) (hws : ∀ w ∈ ws, 0 < w) (hpool : 0 ≤ pool)
    (hle : pool ≤ ws.sum) :
    Within ws (shares pool ws.sum ws pool) ↔
      leftover pool ws.sum ws.dropLast ≤ (ws.sum - pool) * ws.getLast hne := by
  have hlast : 0 < ws.getLast hne := hws _ (List.getLast_mem hne)
  have hpositive : 0 < ws.sum := List.sum_pos _ hws hne
  have heq : ws.sum * (pool - floors pool ws.sum ws.dropLast) =
      pool * ws.getLast hne + leftover pool ws.sum ws.dropLast := total_last hne
  have hleft : 0 ≤ leftover pool ws.sum ws.dropLast := leftover_nonneg hpositive
  rw [within_iff hpositive hpool hle hne fun w hw => (hws w hw).le]
  constructor
  · rintro ⟨_, hupper⟩
    have := mul_le_mul_of_nonneg_left hupper hpositive.le
    linarith
  · intro h
    constructor
    · apply nonneg_of_mul_nonneg_right _ hpositive
      rw [heq]
      exact add_nonneg (mul_nonneg hpool hlast.le) hleft
    · apply le_of_mul_le_mul_left _ hpositive
      linarith

end Shares
