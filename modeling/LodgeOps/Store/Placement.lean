import Mathlib.Data.List.Nodup
import Mathlib.Data.List.Perm.Subperm
import Mathlib.Tactic

-- Items that clash may not share a room; some items can be moved, the others stay where they are.
namespace Placement
variable {ρ κ : Type}

def Proper (clash : ρ → ρ → Prop) (place : ρ → κ) (xs : List ρ) : Prop :=
  ∀ a ∈ xs, ∀ b ∈ xs, a ≠ b → clash a b → place a ≠ place b

def neighbours [DecidableEq ρ] (clash : ρ → ρ → Prop) [DecidableRel clash] (xs : List ρ) (a : ρ) : List ρ :=
  xs.filter fun b => decide (b ≠ a ∧ clash a b)

section Moves
variable {clash : ρ → ρ → Prop} {place : ρ → κ} {xs : List ρ} {rooms used : List κ} {a b x : ρ} {k : κ}

theorem exists_spare (hn : rooms.Nodup) (h : used.length < rooms.length) : ∃ k ∈ rooms, k ∉ used := by
  by_contra hnone
  have hsub : rooms ⊆ used := fun k hk => by
    by_contra hu
    exact hnone ⟨k, hk, hu⟩
  have hle := (List.subperm_of_subset hn hsub).length_le
  omega

theorem Proper.subset {ys : List ρ} (h : Proper clash place xs) (hs : ys ⊆ xs) :
    Proper clash place ys :=
  fun a ha b hb hne hc => h a (hs ha) b (hs hb) hne hc

variable [DecidableEq ρ]

theorem Proper.move (h : Proper clash place xs) (hsymm : ∀ {a b}, clash a b → clash b a)
    (hk : ∀ b ∈ xs, b ≠ x → clash x b → place b ≠ k) :
    Proper clash (Function.update place x k) (x :: xs) := by
  have hplace : ∀ b, b ≠ x → Function.update place x k b = place b := fun b hb =>
    Function.update_of_ne hb _ _
  have hfree : ∀ b ∈ x :: xs, b ≠ x → clash x b → Function.update place x k b ≠ k := by
    intro b hb hne hc
    rw [hplace b hne]
    exact hk b ((List.mem_cons.mp hb).resolve_left hne) hne hc
  intro a ha b hb hne hc
  by_cases hax : a = x
  · subst hax
    rw [Function.update_self]
    exact (hfree b hb hne.symm hc).symm
  · by_cases hbx : b = x
    · subst hbx
      rw [Function.update_self]
      exact hfree a ha hax (hsymm hc)
    · rw [hplace a hax, hplace b hbx]
      exact h a ((List.mem_cons.mp ha).resolve_left hax) b
        ((List.mem_cons.mp hb).resolve_left hbx) hne hc

variable [DecidableRel clash]

theorem exists_room (place : ρ → κ) (hn : rooms.Nodup) (h : (neighbours clash xs a).length < rooms.length) :
    ∃ k ∈ rooms, ∀ b ∈ xs, b ≠ a → clash a b → place b ≠ k := by
  have hlen : ((neighbours clash xs a).map place).length < rooms.length := by
    rwa [List.length_map]
  obtain ⟨k, hk, hfree⟩ := exists_spare hn hlen
  refine ⟨k, hk, fun b hb hne hc he => hfree (List.mem_map.mpr ⟨b, ?_, he⟩)⟩
  exact List.mem_filter.mpr ⟨hb, decide_eq_true ⟨hne, hc⟩⟩

theorem exists_room_beside (place : ρ → κ) (hn : rooms.Nodup)
    (h : (neighbours clash xs a).length + 1 < rooms.length) (k : κ) :
    ∃ j ∈ rooms, j ≠ k ∧ ∀ b ∈ xs, b ≠ a → clash a b → place b ≠ j := by
  have hlen : (k :: (neighbours clash xs a).map place).length < rooms.length := by
    rwa [List.length_cons, List.length_map]
  obtain ⟨j, hj, hfree⟩ := exists_spare hn hlen
  rw [List.mem_cons, not_or] at hfree
  refine ⟨j, hj, hfree.1, fun b hb hne hc he => hfree.2 (List.mem_map.mpr ⟨b, ?_, he⟩)⟩
  exact List.mem_filter.mpr ⟨hb, decide_eq_true ⟨hne, hc⟩⟩

structure Rearranges (clash : ρ → ρ → Prop) (movable : ρ → Prop) (rooms : List κ) (xs : List ρ)
    (place place' : ρ → κ) : Prop where
  proper : Proper clash place' xs
  fixed : ∀ a ∈ xs, ¬ movable a → place' a = place a
  housed : ∀ a ∈ xs, movable a → place' a ∈ rooms

-- Every movable item that stands in the way of x has a spare room besides the one x wants.
theorem vacate (movable : ρ → Prop) (hsymm : ∀ {a b}, clash a b → clash b a)
    (hn : rooms.Nodup) (hp : Proper clash place xs) (hh : ∀ a ∈ xs, movable a → place a ∈ rooms)
    (hfixed : ∀ a ∈ xs, ¬ movable a → clash x a → place a ≠ k)
    (hspare : ∀ a ∈ xs, movable a → clash x a →
      (neighbours clash xs a).length + 1 < rooms.length) :
    ∃ place', Rearranges clash movable rooms xs place place' ∧
      ∀ a ∈ xs, clash x a → place' a ≠ k := by
  have hstep : ∀ ys, ys ⊆ xs → ∃ place', Rearranges clash movable rooms xs place place' ∧
      ∀ a ∈ ys, clash x a → place' a ≠ k := by
    intro ys
    induction ys with
    | nil => exact fun _ => ⟨place, ⟨hp, fun _ _ _ => rfl, hh⟩, by simp⟩
    | cons y ys ih =>
      intro hys
      obtain ⟨q, hq, hclear⟩ := ih (List.subset_of_cons_subset hys)
      have hy : y ∈ xs := hys List.mem_cons_self
      by_cases hin : clash x y ∧ q y = k
      · have hmov : movable y := by
          by_contra hstay
          exact hfixed y hy hstay hin.1 ((hq.fixed y hy hstay).symm.trans hin.2)
        obtain ⟨j, hj, hjk, hfree⟩ := exists_room_beside q hn (hspare y hy hmov hin.1) k
        have hother : ∀ b, b ≠ y → Function.update q y j b = q b := fun b hb =>
          Function.update_of_ne hb _ _
        refine ⟨Function.update q y j, ⟨?_, fun b hb hstay => ?_, fun b hb hbm => ?_⟩,
          fun b hb hc => ?_⟩
        · exact (hq.proper.move hsymm hfree).subset (List.subset_cons_self y xs)
        · have hne : b ≠ y := fun he => hstay (he ▸ hmov)
          exact (hother b hne).trans (hq.fixed b hb hstay)
        · by_cases hby : b = y
          · rwa [hby, Function.update_self]
          · rw [hother b hby]
            exact hq.housed b hb hbm
        · by_cases hby : b = y
          · rwa [hby, Function.update_self]
          · rw [hother b hby]
            exact hclear b ((List.mem_cons.mp hb).resolve_left hby) hc
      · refine ⟨q, hq, fun b hb hc => ?_⟩
        rcases List.mem_cons.mp hb with rfl | hb
        · exact fun he => hin ⟨hc, he⟩
        · exact hclear b hb hc
  exact hstep xs (List.Subset.refl xs)

end Moves
end Placement
