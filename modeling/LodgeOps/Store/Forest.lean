import Mathlib.Logic.Relation
import Mathlib.Tactic

-- Nodes that point to one parent at most, and the tops that a walk along the pointers ends at.
namespace Forest
open Relation
variable {ι : Type} (f : ι → Option ι) (top : ι → Prop)

def Link (a b : ι) : Prop := f a = some b

def Climbs : ι → ι → Prop := ReflTransGen (Link f)

def Resolves (a r : ι) : Prop := Climbs f a r ∧ top r

def Cyclic (a : ι) : Prop := TransGen (Link f) a a

def Bare : Prop := ∀ r, top r → f r = none

variable {f top} {a b r s t : ι}

theorem eq_of_climbs (h : Climbs f a b) (hn : f a = none) : a = b := by
  cases h.cases_head with
  | inl he => exact he
  | inr hlink =>
    obtain ⟨c, hc, _⟩ := hlink
    rw [Link, hn] at hc
    cases hc

theorem resolves_unique (hb : Bare f top) (h : Resolves f top a r) (h' : Resolves f top a s) :
    r = s := by
  obtain ⟨hr, htr⟩ := h
  obtain ⟨hs, hts⟩ := h'
  induction hr using ReflTransGen.head_induction_on with
  | refl => exact eq_of_climbs hs (hb r htr)
  | @head a c hac _ ih =>
    rcases hs.cases_head with rfl | ⟨d, had, hds⟩
    · rw [Link, hb a hts] at hac
      cases hac
    · obtain rfl : c = d := Option.some.inj (hac.symm.trans had)
      exact ih hds

theorem not_cyclic_of_resolves (hb : Bare f top) (h : Resolves f top a r) : ¬ Cyclic f a := by
  obtain ⟨hr, htr⟩ := h
  induction hr using ReflTransGen.head_induction_on with
  | refl =>
    intro hcycle
    obtain ⟨c, hc, _⟩ := TransGen.head'_iff.mp hcycle
    rw [Link, hb r htr] at hc
    cases hc
  | @head a c hac _ ih =>
    intro hcycle
    obtain ⟨d, had, hda⟩ := TransGen.head'_iff.mp hcycle
    obtain rfl : c = d := Option.some.inj (hac.symm.trans had)
    exact ih (TransGen.tail' hda hac)

section Union
variable {f' : ι → Option ι} {top' : ι → Prop}

-- The top `s` is put under `t`; all else stays.
structure Puts (f f' : ι → Option ι) (top top' : ι → Prop) (s t : ι) : Prop where
  source : f' s = some t
  others : ∀ a, a ≠ s → f' a = f a
  bare : Bare f top
  isTop : top s
  tops : ∀ a, top' a ↔ top a ∧ a ≠ s

variable (h : Puts f f' top top' s t)
include h

theorem Puts.climbs (hc : Climbs f a b) : Climbs f' a b := by
  refine ReflTransGen.mono (fun c d hcd => ?_) _ _ hc
  have hne : c ≠ s := by
    rintro rfl
    rw [Link, h.bare c h.isTop] at hcd
    cases hcd
  rw [Link, h.others c hne]
  exact hcd

theorem Puts.bare' : Bare f' top' := by
  intro r hr
  obtain ⟨htop, hne⟩ := (h.tops r).mp hr
  rw [h.others r hne, h.bare r htop]

theorem Puts.resolves_of_ne (hr : Resolves f top a r) (hne : r ≠ s) : Resolves f' top' a r :=
  ⟨h.climbs hr.1, (h.tops r).mpr ⟨hr.2, hne⟩⟩

theorem Puts.resolves_of_eq (ha : Resolves f top a s) (ht : Resolves f top t r) (hne : r ≠ s) :
    Resolves f' top' a r :=
  ⟨((h.climbs ha.1).tail h.source).trans (h.climbs ht.1), (h.tops r).mpr ⟨ht.2, hne⟩⟩

theorem Puts.cyclic (ht : Resolves f top t s) : Cyclic f' s :=
  TransGen.head' h.source (h.climbs ht.1)

-- Nothing resolves any longer, or all of it does: it lies with the top of `t`.
theorem Puts.resolved_iff (ht : Resolves f top t r) :
    (∀ a, (∃ q, Resolves f top a q) → ∃ q, Resolves f' top' a q) ↔ r ≠ s := by
  constructor
  · rintro hall rfl
    obtain ⟨q, hq⟩ := hall r ⟨r, .refl, h.isTop⟩
    exact not_cyclic_of_resolves h.bare' hq (h.cyclic ht)
  · rintro hne a ⟨q, hq⟩
    by_cases hqs : q = s
    · exact ⟨r, h.resolves_of_eq (hqs ▸ hq) ht hne⟩
    · exact ⟨q, h.resolves_of_ne hq hqs⟩

end Union
end Forest
