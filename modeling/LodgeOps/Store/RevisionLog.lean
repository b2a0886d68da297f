import Mathlib.Data.List.Nodup
import Mathlib.Data.List.Range
import Mathlib.Tactic

-- Revisions in the order they were recorded, numbered from one, in which no value comes twice.
namespace RevisionLog
variable {ρ α β : Type}

structure Numbered (number : ρ → ℕ) (value : ρ → α) (rs : List ρ) : Prop where
  numbers : rs.map number = List.range' 1 rs.length
  distinct : (rs.map value).Nodup

-- A value is recorded once: a new one is appended under the next number.
inductive Records (number : ρ → ℕ) (value : ρ → α) (a : α) (rs : List ρ) : List ρ → Prop
  | known (h : a ∈ rs.map value) : Records number value a rs rs
  | new (r : ρ) (h : a ∉ rs.map value) (hv : value r = a) (hn : number r = rs.length + 1) :
      Records number value a rs (rs ++ [r])

-- The most recent revision is the one with the highest number.
def Head (number : ρ → ℕ) (rs : List ρ) (r : ρ) : Prop := r ∈ rs ∧ ∀ w ∈ rs, number w ≤ number r

variable {number : ρ → ℕ} {value : ρ → α} {rs rs' : List ρ} {r v w : ρ} {a : α} {f : α → β}

theorem numbered_nil : Numbered number value [] := ⟨rfl, List.nodup_nil⟩

namespace Numbered
variable (h : Numbered number value rs)
include h

theorem number_le (hw : w ∈ rs) : number w ≤ rs.length := by
  have hmem : number w ∈ List.range' 1 rs.length := h.numbers ▸ List.mem_map_of_mem hw
  rw [List.mem_range'_1] at hmem
  omega

theorem eq_of_value (hv : v ∈ rs) (hw : w ∈ rs) (he : value v = value w) : v = w :=
  List.inj_on_of_nodup_map h.distinct hv hw he

theorem eq_of_number (hv : v ∈ rs) (hw : w ∈ rs) (he : number v = number w) : v = w := by
  have hn : (rs.map number).Nodup := by
    rw [h.numbers]
    exact List.nodup_range'
  exact List.inj_on_of_nodup_map hn hv hw he

theorem consecutive_differ (hv : v ∈ rs) (hw : w ∈ rs) (hn : number w = number v + 1) :
    value v ≠ value w := by
  intro he
  obtain rfl := h.eq_of_value hv hw he
  omega

theorem append (ha : value r ∉ rs.map value) (hn : number r = rs.length + 1) :
    Numbered number value (rs ++ [r]) where
  numbers := by
    rw [List.map_append, h.numbers, List.length_append, List.length_singleton,
      List.range'_concat]
    simp [hn, Nat.add_comm]
  distinct := by
    rw [List.map_append, List.nodup_append]
    refine ⟨h.distinct, List.nodup_singleton _, fun b hb c hc => ?_⟩
    obtain rfl := List.mem_singleton.mp hc
    rintro rfl
    exact ha hb

theorem head_append (hn : number r = rs.length + 1) : Head number (rs ++ [r]) v ↔ v = r := by
  have hlt : ∀ w ∈ rs, number w < number r := fun w hw => by
    have hle := h.number_le hw
    omega
  constructor
  · rintro ⟨hv, hmax⟩
    rcases List.mem_append.mp hv with hv | hv
    · have hle := hmax r (List.mem_append_right _ List.mem_cons_self)
      exact absurd (hlt v hv) (not_lt.mpr hle)
    · exact List.mem_singleton.mp hv
  · rintro rfl
    refine ⟨List.mem_append_right _ List.mem_cons_self, fun w hw => ?_⟩
    rcases List.mem_append.mp hw with hw | hw
    · exact (hlt w hw).le
    · rw [List.mem_singleton.mp hw]

end Numbered

namespace Records
variable (h : Records number value a rs rs') (hs : Numbered number value rs)
include h hs

theorem numbered : Numbered number value rs' := by
  cases h with
  | known _ => exact hs
  | new r ha hv hn => exact hs.append (hv ▸ ha) hn

-- The head shows what was recorded last, unless that had been recorded before another value.
theorem head_iff : (∃ v, Head number rs' v ∧ f (value v) = f a) ↔
    a ∉ rs.map value ∨ ∃ v, Head number rs v ∧ f (value v) = f a := by
  cases h with
  | known ha =>
    constructor
    · exact Or.inr
    · rintro (hn | hv)
      · exact absurd ha hn
      · exact hv
  | new r ha hv hn =>
    constructor
    · exact fun _ => Or.inl ha
    · exact fun _ => ⟨r, (hs.head_append hn).mpr rfl, by rw [hv]⟩

end Records
end RevisionLog
