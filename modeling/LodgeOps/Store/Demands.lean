import Mathlib.Combinatorics.Hall.Basic
import Mathlib.Tactic

-- Units are handed out to those that demand them, each unit to at most one.
namespace Demands
variable {ι υ κ : Type} [DecidableEq ι] [Fintype υ] {fits : ι → υ → Prop} {demand : ι → ℕ}

structure Serves (fits : ι → υ → Prop) (demand : ι → ℕ) (taker : υ → Option ι) : Prop where
  fit : ∀ u i, taker u = some i → fits i u
  enough : ∀ i, demand i ≤ (Finset.univ.filter fun u => taker u = some i).card

variable [∀ i u, Decidable (fits i u)]

theorem sum_le_of_serves {taker : υ → Option ι} (h : Serves fits demand taker) (s : Finset ι) :
    ∑ i ∈ s, demand i ≤ (Finset.univ.filter fun u => ∃ i ∈ s, fits i u).card := by
  classical
  have hdisjoint : (s : Set ι).PairwiseDisjoint
      fun i => Finset.univ.filter fun u => taker u = some i := by
    intro i _ j _ hij
    refine Finset.disjoint_left.mpr fun u hi hj => hij ?_
    simp only [Finset.mem_filter, Finset.mem_univ, true_and] at hi hj
    exact Option.some.inj (hi.symm.trans hj)
  calc ∑ i ∈ s, demand i ≤ ∑ i ∈ s, (Finset.univ.filter fun u => taker u = some i).card :=
        Finset.sum_le_sum fun i _ => h.enough i
    _ = (s.biUnion fun i => Finset.univ.filter fun u => taker u = some i).card :=
        (Finset.card_biUnion hdisjoint).symm
    _ ≤ (Finset.univ.filter fun u => ∃ i ∈ s, fits i u).card := by
        refine Finset.card_le_card fun u hu => ?_
        obtain ⟨i, hi, hu⟩ := Finset.mem_biUnion.mp hu
        simp only [Finset.mem_filter, Finset.mem_univ, true_and] at hu ⊢
        exact ⟨i, hi, h.fit u i hu⟩

-- Each demand is split into demands of one unit, which find distinct partners.
theorem exists_injective_of_covered
    (h : ∀ s : Finset ι, ∑ i ∈ s, demand i ≤ (Finset.univ.filter fun u => ∃ i ∈ s, fits i u).card) :
    ∃ f : (Σ i, Fin (demand i)) → υ, Function.Injective f ∧ ∀ x, fits x.1 (f x) := by
  refine (Fintype.all_card_le_filter_rel_iff_exists_injective
    fun (x : Σ i, Fin (demand i)) u => fits x.1 u).mp fun A => ?_
  have hsub : A ⊆ (A.image Sigma.fst).sigma fun _ => Finset.univ := by
    intro x hx
    exact Finset.mem_sigma.mpr ⟨Finset.mem_image_of_mem _ hx, Finset.mem_univ _⟩
  calc A.card ≤ ((A.image Sigma.fst).sigma fun _ => Finset.univ).card := Finset.card_le_card hsub
    _ = ∑ i ∈ A.image Sigma.fst, demand i := by simp
    _ ≤ (Finset.univ.filter fun u => ∃ i ∈ A.image Sigma.fst, fits i u).card := h _
    _ ≤ (Finset.univ.filter fun u => ∃ x ∈ A, fits x.1 u).card := by
        refine Finset.card_le_card fun u hu => ?_
        simp only [Finset.mem_filter, Finset.mem_univ, true_and] at hu ⊢
        obtain ⟨i, hi, hu⟩ := hu
        obtain ⟨x, hx, rfl⟩ := Finset.mem_image.mp hi
        exact ⟨x, hx, hu⟩

omit [∀ i u, Decidable (fits i u)] in
theorem serves_of_injective {f : (Σ i, Fin (demand i)) → υ} (hf : Function.Injective f)
    (hfits : ∀ x, fits x.1 (f x)) : ∃ taker, Serves fits demand taker := by
  classical
  refine ⟨fun u => if h : ∃ x, f x = u then some h.choose.1 else none, fun u i hu => ?_, fun i => ?_⟩
  · split_ifs at hu with hx
    rw [← Option.some.inj hu]
    exact (congrArg (fits hx.choose.1) hx.choose_spec).mp (hfits hx.choose)
  · have hinj : Function.Injective fun k : Fin (demand i) => f ⟨i, k⟩ := by
      intro j k hjk
      simpa using hf hjk
    calc demand i = (Finset.univ.image fun k : Fin (demand i) => f ⟨i, k⟩).card := by
          rw [Finset.card_image_of_injective _ hinj, Finset.card_univ, Fintype.card_fin]
      _ ≤ _ := by
          refine Finset.card_le_card fun u hu => ?_
          obtain ⟨k, _, rfl⟩ := Finset.mem_image.mp hu
          have hx : ∃ x, f x = f ⟨i, k⟩ := ⟨⟨i, k⟩, rfl⟩
          have hchoose : hx.choose = ⟨i, k⟩ := hf hx.choose_spec
          simp only [Finset.mem_filter, Finset.mem_univ, true_and]
          rw [dif_pos hx, hchoose]

theorem serves_iff : (∃ taker, Serves fits demand taker) ↔
    ∀ s : Finset ι, ∑ i ∈ s, demand i ≤ (Finset.univ.filter fun u => ∃ i ∈ s, fits i u).card := by
  constructor
  · rintro ⟨taker, h⟩
    exact sum_le_of_serves h
  · intro h
    obtain ⟨f, hf, hfits⟩ := exists_injective_of_covered h
    exact serves_of_injective hf hfits

theorem card_units [Fintype κ] {quantity : κ → ℕ} {P : κ → Prop} [DecidablePred P] :
    (Finset.univ.filter fun u : Σ a, Fin (quantity a) => P u.1).card =
      ∑ a, if P a then quantity a else 0 := by
  have hsigma : (Finset.univ.filter fun u : Σ a, Fin (quantity a) => P u.1) =
      (Finset.univ.filter P).sigma fun _ => Finset.univ := by
    ext u
    simp
  rw [hsigma, Finset.card_sigma, Finset.sum_filter]
  simp

end Demands
