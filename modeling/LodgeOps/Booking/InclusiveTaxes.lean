import LodgeOps.Booking.QuoteLedger

namespace InclusiveTaxes
open Schema CommercialPromotionService BookingQuoteService QuoteTotals TaxAllocation PromotionBounds
open BookedTotals QuoteLedger

section Claims
variable {db : Database} {input : BookingInput} {c : Calculation} {lines : List BookingQuoteLine}
variable {rule : TaxRule} {rules : List TaxRule} {tax base discount : ℤ}

-- What the inclusive rules take out of the charges.
def claimed (lines : List BookingQuoteLine) (base discount : ℤ) (rules : List TaxRule) : ℤ :=
  ((rules.filter TaxRule.isInclusive).map (ruleDue lines base discount)).sum

theorem base_discount_nonneg {p : Priced} (h : priced db input = .ok p) :
    0 ≤ p.base - p.discount := by
  obtain ⟨hlines, hd⟩ := priced_lines h
  have hbase : 0 ≤ p.base := (lineRuns_baseLines hlines).2
  have hwithin := hd.within
  rw [max_eq_right hbase] at hwithin
  exact sub_nonneg.mpr hwithin

def WithinCharges (db : Database) (input : BookingInput) : Prop :=
  ∀ p, priced db input = .ok p →
    claimed p.lines p.base p.discount (p.rules db) ≤ p.base - p.discount

end Claims

section SingleRule
variable {db : Database} {input : BookingInput} {c : Calculation} {lines : List BookingQuoteLine}
variable {rule : TaxRule} {amount discount : ℤ}

theorem halfEven_mul_lt {x k : ℤ} (hk : 0 < k) : halfEven x k * k < x + k := by
  have hdiv := Int.emod_add_mul_ediv x k
  have hmod := Int.emod_nonneg x hk.ne'
  dsimp only [halfEven]
  split_ifs with h
  · rw [mul_comm]
    omega
  · rw [add_mul, one_mul, mul_comm]
    omega

theorem roundedMagnitude_mul_lt {x k : ℤ} {mode : RoundingMode} (hk : 0 < k) :
    roundedMagnitude x k mode * k < x + k := by
  have hfloor : ∀ y, y < x + k → y / k * k < x + k := fun y hy =>
    lt_of_le_of_lt (Int.ediv_mul_le y hk.ne') hy
  unfold roundedMagnitude
  cases mode with
  | down => exact hfloor _ (by omega)
  | up => exact hfloor _ (by omega)
  | halfEven => exact halfEven_mul_lt hk
  | none => exact hfloor _ (by omega)
  | halfUp => exact hfloor _ (by omega)

-- A tax that is part of a price is no more than the price, however it is rounded.
theorem portion_le (hi : rule.isInclusive = true) (h : Taxable rule amount) :
    portion rule amount ≤ amount := by
  have hd := denominator_pos h.rate
  have hden : denominator rule = 10000 + rule.percentageBasisPoints := by simp [denominator, hi]
  have hbound : amount * rule.percentageBasisPoints ≤ amount * denominator rule :=
    mul_le_mul_of_nonneg_left (by omega) h.nonneg
  have hlt : portion rule amount * denominator rule < (amount + 1) * denominator rule := by
    rw [add_mul, one_mul]
    exact lt_of_lt_of_le (roundedMagnitude_mul_lt hd) (by omega)
  exact Int.lt_add_one_iff.mp (lt_of_mul_lt_mul_right hlt hd.le)

theorem sum_zipWith_sub {xs ys : List ℤ} (h : xs.length = ys.length) :
    (xs.zipWith (· - ·) ys).sum = xs.sum - ys.sum := by
  induction xs generalizing ys with
  | nil =>
    obtain rfl := List.length_eq_zero_iff.mp h.symm
    rfl
  | cons x xs ih =>
    cases ys with
    | nil => cases h
    | cons y ys =>
      rw [List.zipWith_cons_cons, List.sum_cons, ih (Nat.succ.inj h), List.sum_cons, List.sum_cons]
      omega

theorem allocatedDiscounts_sums (gross remaining : ℤ) (hne : lines ≠ []) :
    (allocatedDiscounts discount gross lines remaining).length = lines.length ∧
      (allocatedDiscounts discount gross lines remaining).sum = remaining := by
  induction lines generalizing remaining with
  | nil => exact absurd rfl hne
  | cons l ls ih =>
    cases ls with
    | nil => simp [allocatedDiscounts]
    | cons m ls =>
      obtain ⟨hlen, hsum⟩ := @ih (remaining -
        (discount * l.grossAmountMinor).tdiv gross) (by simp)
      simp only [allocatedDiscounts, List.length_cons, List.sum_cons] at hlen hsum ⊢
      omega

theorem grossTotal_positiveLines (h : ∀ l ∈ lines, 0 ≤ l.grossAmountMinor) :
    grossTotal (positiveLines lines) = grossTotal lines := by
  induction lines with
  | nil => rfl
  | cons l ls ih =>
    obtain ⟨hl, hls⟩ := List.forall_mem_cons.mp h
    have ih := ih hls
    unfold positiveLines grossTotal at ih ⊢
    by_cases hpos : 0 < l.grossAmountMinor
    · simp [hpos, ih]
    · have hzero : l.grossAmountMinor = 0 := by omega
      simp [hzero, ih]

theorem sum_assessed_le (hl : ∀ l ∈ lines, 0 ≤ l.grossAmountMinor)
    (hle : discount ≤ grossTotal lines) :
    (assessed rule lines (grossTotal lines - discount) discount).sum ≤
      grossTotal lines - discount := by
  unfold assessed
  split_ifs with hscope hzero
  · simp
  · rw [hzero, List.sum_nil]
  · by_cases hnone : positiveLines lines = []
    · simp only [hnone, discountedLines, grosses, List.map_nil, List.zipWith_nil_left, List.sum_nil]
      omega
    · obtain ⟨hlen, hsum⟩ := allocatedDiscounts_sums (grossTotal (positiveLines lines))
        discount hnone
      have hlength : (grosses (positiveLines lines)).length = _ := List.length_map _
      have hgross : (grosses (positiveLines lines)).sum = grossTotal lines :=
        grossTotal_positiveLines hl
      rw [discountedLines, sum_zipWith_sub (hlength.trans hlen.symm), hsum, hgross]

-- One rate that is part of the discounted prices never asks for more than they come to.
theorem single_rate_within (h : preview db input = .ok c)
    (hsingle : ∀ p, priced db input = .ok p → p.rules db = [rule])
    (hi : rule.isInclusive = true) (hp : rule.calculationType = .percentage)
    (hd : rule.taxableDiscountAllocation = .beforeTax) : WithinCharges db input := by
  intro p hpriced
  obtain ⟨p', t, hp', ht, _⟩ := preview_cases h
  obtain rfl := Except.ok.inj (hpriced.symm.trans hp')
  obtain ⟨_, hall⟩ := taxes_eq ht
  rw [hsingle p hpriced] at hall ⊢
  have hbase : taxableBase rule p.base p.discount = p.base - p.discount := by
    simp [taxableBase, hd]
  have htax := hall rule List.mem_cons_self
  rw [hbase, sub_sub_cancel] at htax
  obtain ⟨htaxable, _⟩ := taxForRule_percentage hp htax
  have hlines : ∀ l ∈ p.lines, 0 ≤ l.grossAmountMinor := nonneg_baseLines (priced_lines hpriced).1
  have hle : (assessed rule p.lines (p.base - p.discount) p.discount).sum ≤ p.base - p.discount :=
    sum_assessed_le hlines (sub_nonneg.mp (base_discount_nonneg hpriced))
  have hdue : ruleDue p.lines p.base p.discount rule ≤ p.base - p.discount := by
    unfold ruleDue due
    rw [hp, hbase, sub_sub_cancel]
    refine le_trans (List.sum_le_sum fun x hx => portion_le hi (htaxable x hx)) ?_
    rwa [List.map_id']
  simpa [claimed, hi] using hdue

end SingleRule

section Scenario

end Scenario
end InclusiveTaxes
