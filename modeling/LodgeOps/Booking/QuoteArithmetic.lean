import LodgeOps.Booking.PromotionBounds
import LodgeOps.Booking.Quotes

namespace QuoteArithmetic
open Schema CommercialPromotionService BookingQuoteService

section Products
variable {left right product : ℤ} {field : String}

theorem checkedMultiply_eq_ok : checkedMultiply left right field = .ok product ↔
    0 ≤ left ∧ 0 ≤ right ∧ left * right ≤ intMax ∧ left * right = product := by
  have hmax : (0 : ℤ) ≤ intMax := by decide
  unfold checkedMultiply
  split_ifs with h
  · constructor
    · intro hc
      cases hc
    · rintro ⟨hl, hr, hle, _⟩
      rw [PromotionBounds.guard_iff hmax hl] at h
      omega
  · push Not at h
    obtain ⟨hl, hr, hguard⟩ := h
    have hle : left * right ≤ intMax := by
      rcases eq_or_ne left 0 with rfl | hne
      · simpa using hmax
      · by_contra hlt
        have hg := (PromotionBounds.guard_iff hmax hl).mpr ⟨hne, not_le.mp hlt⟩
        exact absurd hg.2 (not_lt.mpr (hguard hne))
    constructor
    · intro hc
      exact ⟨hl, hr, hle, Except.ok.inj hc⟩
    · rintro ⟨_, _, _, rfl⟩
      rfl

theorem roundRatio_of_nonneg {numerator denominator : ℤ} {mode : RoundingMode}
    (hn : 0 ≤ numerator) (hd : 0 < denominator) :
    roundRatio numerator denominator mode = .ok (roundedMagnitude numerator denominator mode) := by
  simp [roundRatio, not_le.mpr hd, not_lt.mpr hn, abs_of_nonneg hn]

end Products

section Sums
variable {values : List ℤ} {field : String} {start total : ℤ}

theorem addChecked_eq_ok {value : ℤ} : addChecked field start value = .ok total ↔
    ¬ (0 < value ∧ intMax - value < start) ∧ start + value = total := by
  unfold addChecked
  split_ifs with h
  · simp [h]
  · simp [h]

theorem checkedAdd_eq (h : checkedAdd values field = .ok total) : total = values.sum := by
  suffices hfold : ∀ start, values.foldlM (addChecked field) start = .ok total →
      total = start + values.sum by
    rw [hfold 0 h, zero_add]
  clear h
  induction values with
  | nil =>
    intro start h
    simpa [pure, Except.pure, eq_comm] using h
  | cons v vs ih =>
    intro start h
    rw [List.foldlM_cons, bind_eq_ok] at h
    obtain ⟨next, hnext, hrest⟩ := h
    obtain ⟨_, rfl⟩ := addChecked_eq_ok.mp hnext
    rw [ih _ hrest, List.sum_cons, add_assoc]

theorem checkedAdd_of_nonneg (hv : ∀ v ∈ values, 0 ≤ v) (hsum : values.sum ≤ intMax) :
    checkedAdd values field = .ok values.sum := by
  suffices hfold : ∀ start, 0 ≤ start → start + values.sum ≤ intMax →
      values.foldlM (addChecked field) start = .ok (start + values.sum) by
    simpa [checkedAdd] using hfold 0 le_rfl (by simpa using hsum)
  clear hsum
  induction values with
  | nil =>
    intro start _ _
    simp [pure, Except.pure]
  | cons v vs ih =>
    intro start hstart hle
    obtain ⟨hv, hvs⟩ := List.forall_mem_cons.mp hv
    have hrest : 0 ≤ vs.sum := List.sum_nonneg hvs
    rw [List.sum_cons] at hle ⊢
    rw [List.foldlM_cons, bind_eq_ok]
    refine ⟨start + v, addChecked_eq_ok.mpr ⟨by omega, rfl⟩, ?_⟩
    rw [ih hvs (start + v) (by omega) (by omega), add_assoc]

end Sums

end QuoteArithmetic
