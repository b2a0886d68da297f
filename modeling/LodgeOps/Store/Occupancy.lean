import Mathlib.Order.Defs.LinearOrder
import Mathlib.Algebra.BigOperators.Group.List.Basic
import Mathlib.Data.List.Nodup
import Mathlib.Tactic

namespace Occupancy
variable {T ρ : Type} [LinearOrder T]

def Meets (s e s' e' : T) : Prop := s < e' ∧ s' < e

instance (s e s' e' : T) : Decidable (Meets s e s' e') := inferInstanceAs (Decidable (_ ∧ _))

theorem Meets.symm {s e s' e' : T} (h : Meets s e s' e') : Meets s' e' s e := And.symm h

def Covers (s e t : T) : Prop := s ≤ t ∧ t < e

instance (s e t : T) : Decidable (Covers s e t) := inferInstanceAs (Decidable (_ ∧ _))

theorem meets_of_covers {s e s' e' t : T} (h : Covers s e t) (h' : Covers s' e' t) :
    Meets s e s' e' :=
  ⟨h.1.trans_lt h'.2, h'.1.trans_lt h.2⟩

section Exclusive
variable {start finish : ρ → T} {xs : List ρ} {t : T}

def covering (start finish : ρ → T) (t : T) (xs : List ρ) : List ρ :=
  xs.filter fun x => decide (Covers (start x) (finish x) t)

theorem mem_covering {x : ρ} : x ∈ covering start finish t xs ↔
    x ∈ xs ∧ Covers (start x) (finish x) t := by
  simp [covering]

def Exclusive (start finish : ρ → T) (xs : List ρ) : Prop :=
  ∀ x ∈ xs, ∀ y ∈ xs, x ≠ y → ¬ Meets (start x) (finish x) (start y) (finish y)

theorem covering_cases (hn : xs.Nodup) (hx : Exclusive start finish xs) :
    covering start finish t xs = [] ∨ ∃ x ∈ xs, covering start finish t xs = [x] := by
  have hd : (covering start finish t xs).Nodup := hn.filter _
  cases hc : covering start finish t xs with
  | nil => exact Or.inl rfl
  | cons x rest =>
    refine Or.inr ⟨x, (mem_covering.mp (hc ▸ List.mem_cons_self)).1, ?_⟩
    have hxm : x ∈ covering start finish t xs := hc ▸ List.mem_cons_self
    cases rest with
    | nil => rfl
    | cons y ys =>
      have hym : y ∈ covering start finish t xs := by simp [hc]
      have hne : x ≠ y := by
        rintro rfl
        rw [hc] at hd
        simp at hd
      obtain ⟨hx₁, hx₂⟩ := mem_covering.mp hxm
      obtain ⟨hy₁, hy₂⟩ := mem_covering.mp hym
      exact absurd (meets_of_covers hx₂ hy₂) (hx x hx₁ y hy₁ hne)

theorem length_covering_le_one (hn : xs.Nodup) (hx : Exclusive start finish xs) :
    (covering start finish t xs).length ≤ 1 := by
  rcases covering_cases (t := t) hn hx with h | ⟨x, _, h⟩
  · simp [h]
  · simp [h]

theorem load_le {q : ρ → ℕ} {c : ℕ} (hn : xs.Nodup) (hx : Exclusive start finish xs)
    (hq : ∀ x ∈ xs, q x ≤ c) : ((covering start finish t xs).map q).sum ≤ c := by
  rcases covering_cases (t := t) hn hx with h | ⟨x, hm, h⟩
  · simp [h]
  · simpa [h] using hq x hm

end Exclusive
end Occupancy
