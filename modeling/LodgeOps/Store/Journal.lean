import Mathlib.Data.List.Basic
import Mathlib.Tactic

section Numbering
variable {ε : Type} {f : ε → ℤ} {es : List ε} {e : ε}

def Numbered (f : ε → ℤ) (es : List ε) : Prop :=
  es.map f = (List.range es.length).map fun n : ℕ => (n : ℤ) + 1

theorem numbered_nil : Numbered f [] := rfl

theorem numbered_snoc (h : Numbered f es) (he : f e = es.length + 1) : Numbered f (es ++ [e]) := by
  unfold Numbered at h ⊢
  rw [List.map_append, h, List.length_append, List.length_singleton, List.range_succ,
    List.map_append]
  simp [he]

end Numbering

-- The edges of a graph, walked in order from one node to another.
inductive Walk {ν ε : Type} (source target : ε → ν) (allowed : ε → Prop) (s : ν) :
    List ε → ν → Prop
  | start : Walk source target allowed s [] s
  | snoc {es : List ε} {e : ε} : Walk source target allowed s es (source e) → allowed e →
      Walk source target allowed s (es ++ [e]) (target e)

namespace Walk
variable {ν ε : Type} {source target : ε → ν} {allowed : ε → Prop} {s m t : ν} {es : List ε} {e : ε}

theorem extend (h : Walk source target allowed s es m) (hs : source e = m) (ha : allowed e)
    (ht : target e = t) : Walk source target allowed s (es ++ [e]) t := by
  subst hs ht
  exact h.snoc ha

theorem allowed_of_mem (h : Walk source target allowed s es t) : ∀ e ∈ es, allowed e := by
  induction h with
  | start => simp
  | snoc _ ha ih =>
    intro e he
    rcases List.mem_append.mp he with he | he
    · exact ih e he
    · exact List.mem_singleton.mp he ▸ ha

end Walk
