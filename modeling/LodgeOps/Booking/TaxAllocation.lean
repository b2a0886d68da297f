import LodgeOps.Booking.BookedTotals
import LodgeOps.Booking.QuoteArithmetic
import LodgeOps.Store.Shares

namespace TaxAllocation
open Schema CommercialPromotionService BookingQuoteService QuoteArithmetic
open Shares PromotionBounds BookedTotals

section Assessment
variable {rule : TaxRule} {lines : List BookingQuoteLine} {taxes : List ℤ}
variable {amount base discount gross remaining tax : ℤ}

def denominator (rule : TaxRule) : ℤ :=
  if rule.isInclusive then 10000 + rule.percentageBasisPoints else 10000

def portion (rule : TaxRule) (amount : ℤ) : ℤ :=
  roundedMagnitude (amount * rule.percentageBasisPoints) (denominator rule) rule.roundingMode

structure Taxable (rule : TaxRule) (amount : ℤ) : Prop where
  nonneg : 0 ≤ amount
  rate : 0 ≤ rule.percentageBasisPoints
  representable : amount * rule.percentageBasisPoints ≤ intMax

theorem denominator_pos (h : 0 ≤ rule.percentageBasisPoints) : 0 < denominator rule := by
  unfold denominator
  split_ifs
  · omega
  · norm_num

theorem taxOnLine_eq_ok : taxOnLine rule (denominator rule) amount = .ok tax ↔
    Taxable rule amount ∧ portion rule amount = tax := by
  simp only [taxOnLine, bind_eq_ok, checkedMultiply_eq_ok]
  constructor
  · rintro ⟨_, ⟨ha, hr, hp, rfl⟩, ht⟩
    rw [roundRatio_of_nonneg (mul_nonneg ha hr) (denominator_pos hr)] at ht
    exact ⟨⟨ha, hr, hp⟩, Except.ok.inj ht⟩
  · rintro ⟨⟨ha, hr, hp⟩, rfl⟩
    exact ⟨_, ⟨ha, hr, hp, rfl⟩, roundRatio_of_nonneg (mul_nonneg ha hr) (denominator_pos hr)⟩

def grosses (lines : List BookingQuoteLine) : List ℤ := lines.map BookingQuoteLine.grossAmountMinor

def allocatedDiscounts (discount gross : ℤ) : List BookingQuoteLine → ℤ → List ℤ
  | [], _ => []
  | [_], remaining => [remaining]
  | l :: m :: ls, remaining =>
    let allocated := (discount * l.grossAmountMinor).tdiv gross
    allocated :: allocatedDiscounts discount gross (m :: ls) (remaining - allocated)

-- What each line is taxed on once its share of the discount is off.
def discountedLines (discount gross : ℤ) (lines : List BookingQuoteLine) (remaining : ℤ) :
    List ℤ :=
  (grosses lines).zipWith (· - ·) (allocatedDiscounts discount gross lines remaining)

theorem allocatedDiscounts_eq (hd : 0 ≤ discount) (hg : ∀ l ∈ lines, 0 ≤ l.grossAmountMinor) :
    allocatedDiscounts discount gross lines remaining =
      shares discount gross (grosses lines) remaining := by
  induction lines generalizing remaining with
  | nil => rfl
  | cons l ls ih =>
    obtain ⟨hl, hls⟩ := List.forall_mem_cons.mp hg
    cases ls with
    | nil => rfl
    | cons m ls =>
      have hdiv := Int.tdiv_eq_ediv_of_nonneg (b := gross) (mul_nonneg hd hl)
      have ih := @ih (remaining - discount * l.grossAmountMinor / gross) hls
      simp only [allocatedDiscounts, hdiv, ih]
      rfl

def Shareable (discount : ℤ) (l : BookingQuoteLine) : Prop :=
  0 ≤ discount ∧ 0 ≤ l.grossAmountMinor ∧ discount * l.grossAmountMinor ≤ intMax

theorem lineTaxes_eq_ok :
    lineTaxes rule (denominator rule) gross discount lines remaining = .ok taxes ↔
      (∀ l ∈ lines.dropLast, Shareable discount l) ∧
        (∀ x ∈ discountedLines discount gross lines remaining, Taxable rule x) ∧
          (discountedLines discount gross lines remaining).map (portion rule) = taxes := by
  induction lines generalizing remaining taxes with
  | nil => simp [lineTaxes, discountedLines, grosses, allocatedDiscounts, eq_comm]
  | cons l ls ih =>
    cases ls with
    | nil =>
      have hbases : discountedLines discount gross [l] remaining =
          [l.grossAmountMinor - remaining] := rfl
      simp only [lineTaxes, bind_eq_ok, taxOnLine_eq_ok, hbases]
      constructor
      · rintro ⟨_, ⟨ht, rfl⟩, h⟩
        obtain rfl := Except.ok.inj h
        exact ⟨by simp, by simpa using ht, rfl⟩
      · rintro ⟨_, ht, rfl⟩
        exact ⟨_, ⟨ht _ List.mem_cons_self, rfl⟩, rfl⟩
    | cons m ls =>
      have hbases : discountedLines discount gross (l :: m :: ls) remaining =
          (l.grossAmountMinor - (discount * l.grossAmountMinor).tdiv gross) ::
            discountedLines discount gross (m :: ls)
              (remaining - (discount * l.grossAmountMinor).tdiv gross) := rfl
      have hdrop : (l :: m :: ls).dropLast = l :: (m :: ls).dropLast := rfl
      simp only [lineTaxes, bind_eq_ok, checkedMultiply_eq_ok, taxOnLine_eq_ok, hbases]
      rw [hdrop, List.forall_mem_cons, List.forall_mem_cons, List.map_cons]
      constructor
      · rintro ⟨_, ⟨hd, hg, hp, rfl⟩, _, ⟨ht, rfl⟩, rest, hrest, h⟩
        obtain rfl := Except.ok.inj h
        obtain ⟨hshares, htaxes, rfl⟩ := ih.mp hrest
        exact ⟨⟨⟨hd, hg, hp⟩, hshares⟩, ⟨ht, htaxes⟩, rfl⟩
      · rintro ⟨⟨⟨hd, hg, hp⟩, hshares⟩, ⟨ht, htaxes⟩, rfl⟩
        exact ⟨_, ⟨hd, hg, hp, rfl⟩, _, ⟨ht, rfl⟩, _, ih.mpr ⟨hshares, htaxes, rfl⟩, rfl⟩

end Assessment

section Rules
variable {rule : TaxRule} {lines : List BookingQuoteLine} {base discount tax : ℤ}

def positiveLines (lines : List BookingQuoteLine) : List BookingQuoteLine :=
  lines.filter fun l => decide (0 < l.grossAmountMinor)

def assessed (rule : TaxRule) (lines : List BookingQuoteLine) (base discount : ℤ) : List ℤ :=
  if rule.roundingScope = .total then [base]
  else if base = 0 then []
  else discountedLines discount (grossTotal (positiveLines lines)) (positiveLines lines) discount

def due (rule : TaxRule) (lines : List BookingQuoteLine) (base discount : ℤ) : ℤ :=
  match rule.calculationType with
  | .fixed => rule.fixedAmountMinor
  | .percentage => ((assessed rule lines base discount).map (portion rule)).sum

theorem taxForRule_fixed (h : rule.calculationType = .fixed) :
    taxForRule rule lines base discount = .ok rule.fixedAmountMinor := by
  unfold taxForRule
  rw [h]

theorem taxForRule_total (hp : rule.calculationType = .percentage)
    (ht : rule.roundingScope = .total) :
    taxForRule rule lines base discount = taxOnLine rule (denominator rule) base := by
  unfold taxForRule
  rw [hp]
  exact if_pos ht

theorem taxForRule_line (hp : rule.calculationType = .percentage)
    (ht : rule.roundingScope ≠ .total) :
    taxForRule rule lines base discount = if positiveLines lines = [] ∨ base = 0 then .ok 0
      else lineTaxes rule (denominator rule) (grossTotal (positiveLines lines)) discount
        (positiveLines lines) discount >>= fun taxes => checkedAdd taxes "tax" := by
  unfold taxForRule
  rw [hp]
  exact if_neg ht

theorem taxForRule_percentage (hp : rule.calculationType = .percentage)
    (h : taxForRule rule lines base discount = .ok tax) :
    (∀ x ∈ assessed rule lines base discount, Taxable rule x) ∧
      tax = ((assessed rule lines base discount).map (portion rule)).sum := by
  unfold assessed
  by_cases hscope : rule.roundingScope = .total
  · rw [taxForRule_total hp hscope] at h
    obtain ⟨ht, rfl⟩ := taxOnLine_eq_ok.mp h
    simpa [hscope] using ht
  · rw [taxForRule_line hp hscope] at h
    rw [if_neg hscope]
    by_cases hzero : base = 0
    · obtain rfl := Except.ok.inj ((if_pos (Or.inr hzero)).symm.trans h)
      simp [hzero]
    · rw [if_neg hzero]
      by_cases hnone : positiveLines lines = []
      · obtain rfl := Except.ok.inj ((if_pos (Or.inl hnone)).symm.trans h)
        simp [hnone, discountedLines, grosses]
      · rw [if_neg (not_or.mpr ⟨hnone, hzero⟩)] at h
        obtain ⟨taxes, htaxes, h⟩ := bind_eq_ok.mp h
        obtain ⟨_, ht, rfl⟩ := lineTaxes_eq_ok.mp htaxes
        exact ⟨ht, checkedAdd_eq h⟩

theorem taxForRule_due (h : taxForRule rule lines base discount = .ok tax) :
    tax = due rule lines base discount := by
  unfold due
  cases hc : rule.calculationType with
  | fixed =>
    rw [taxForRule_fixed hc] at h
    exact (Except.ok.inj h).symm
  | percentage => exact (taxForRule_percentage hc h).2

end Rules

section Allocation
variable {rule : TaxRule} {lines : List BookingQuoteLine} {base discount gross : ℤ}

theorem positiveLines_eq (h : ∀ l ∈ lines, 0 < l.grossAmountMinor) : positiveLines lines = lines :=
  List.filter_eq_self.mpr fun l hl => decide_eq_true (h l hl)

structure Allocates (rule : TaxRule) (discount : ℤ) (lines : List BookingQuoteLine) : Prop where
  within : List.Forall₂ (fun l share => 0 ≤ share ∧ share ≤ l.grossAmountMinor) lines
    (allocatedDiscounts discount (grossTotal lines) lines discount)
  whole : (allocatedDiscounts discount (grossTotal lines) lines discount).sum = discount
  taxed : ∃ taxes, lineTaxes rule (denominator rule) (grossTotal lines) discount lines discount =
      .ok taxes ∧ (taxes.sum ≤ intMax →
        ∃ tax, taxForRule rule lines (grossTotal lines - discount) discount = .ok tax)

theorem within_grosses {shares : List ℤ} : Within (grosses lines) shares ↔
    List.Forall₂ (fun l share => 0 ≤ share ∧ share ≤ l.grossAmountMinor) lines shares :=
  List.forall₂_map_left_iff

theorem taxable_discounted {gs shares : List ℤ} (h : Within gs shares)
    (hrate : 0 ≤ rule.percentageBasisPoints)
    (hg : ∀ g ∈ gs, g * rule.percentageBasisPoints ≤ intMax) :
    ∀ x ∈ gs.zipWith (· - ·) shares, Taxable rule x := by
  induction h with
  | nil => simp
  | cons hs _ ih =>
    obtain ⟨hfirst, hrest⟩ := List.forall_mem_cons.mp hg
    rw [List.zipWith_cons_cons, List.forall_mem_cons]
    refine ⟨⟨by omega, hrate, ?_⟩, ih hrest⟩
    exact le_trans (mul_le_mul_of_nonneg_right (by omega) hrate) hfirst

theorem portion_nonneg {amount : ℤ} (h : Taxable rule amount) : 0 ≤ portion rule amount := by
  have hd := denominator_pos h.rate
  have hp := mul_nonneg h.nonneg h.rate
  unfold portion roundedMagnitude halfEven
  cases rule.roundingMode
  all_goals dsimp only
  case halfEven =>
    have hq := Int.ediv_nonneg hp hd.le
    split_ifs
    · exact hq
    · omega
  all_goals exact Int.ediv_nonneg (by omega) hd.le

-- The last line takes the whole units the others' fractions add up to.
theorem allocates_iff (hne : lines ≠ []) (hpos : ∀ l ∈ lines, 0 < l.grossAmountMinor)
    (hd : 0 ≤ discount) (hle : discount ≤ grossTotal lines)
    (hp : rule.calculationType = .percentage) (hscope : rule.roundingScope = .line)
    (hrate : 0 ≤ rule.percentageBasisPoints)
    (hshare : ∀ l ∈ lines, discount * l.grossAmountMinor ≤ intMax)
    (htax : ∀ l ∈ lines, l.grossAmountMinor * rule.percentageBasisPoints ≤ intMax) :
    Allocates rule discount lines ↔
      leftover discount (grossTotal lines) (grosses lines).dropLast ≤
        (grossTotal lines - discount) * (lines.getLast hne).grossAmountMinor := by
  have hgne : grosses lines ≠ [] := by simpa [grosses] using hne
  have hgpos : ∀ g ∈ grosses lines, 0 < g := by simpa [grosses] using hpos
  have hlast : (grosses lines).getLast hgne = (lines.getLast hne).grossAmountMinor := by
    simp [grosses, List.getLast_map]
  have heq : allocatedDiscounts discount (grossTotal lines) lines discount =
      shares discount (grosses lines).sum (grosses lines) discount :=
    allocatedDiscounts_eq hd fun l hl => (hpos l hl).le
  have hiff := shares_within_iff hgne hgpos hd hle
  rw [hlast] at hiff
  constructor
  · intro h
    exact hiff.mp (within_grosses.mpr (heq ▸ h.within))
  · intro h
    have hwithin := hiff.mpr h
    have htaxable : ∀ x ∈ discountedLines discount (grossTotal lines) lines discount,
        Taxable rule x := by
      rw [discountedLines, heq]
      exact taxable_discounted hwithin hrate (by simpa [grosses] using htax)
    have hshares : ∀ l ∈ lines.dropLast, Shareable discount l := fun l hl =>
      have hl := List.dropLast_subset _ hl
      ⟨hd, (hpos l hl).le, hshare l hl⟩
    have htaxes := lineTaxes_eq_ok.mpr ⟨hshares, htaxable, rfl⟩
    refine ⟨within_grosses.mp (heq ▸ hwithin), heq ▸ sum_shares hgne, _, htaxes, fun hsum => ?_⟩
    rw [taxForRule_line hp (by simp [hscope]), positiveLines_eq hpos]
    split_ifs
    · exact ⟨0, rfl⟩
    · refine ⟨_, bind_eq_ok.mpr ⟨_, htaxes, checkedAdd_of_nonneg (fun v hv => ?_) hsum⟩⟩
      obtain ⟨x, hx, rfl⟩ := List.mem_map.mp hv
      exact portion_nonneg (htaxable x hx)

end Allocation

section Scenario

def desk (nightMinor offMinor : ℤ) (taxRules : Table TaxRule) : Database :=
  { season with
    ratePlans := Table.empty.insert fun i =>
      { standardPlan i with rules := [{ flatRate 0 with amountMinor := nightMinor }] }
    promotions := Table.empty.insert (offer offMinor)
    taxRules := taxRules }

def addedTax (scope : RoundingScope) (i : ℕ) : TaxRule :=
  { salesTax 1000 none none i with isInclusive := false, roundingScope := scope }

def smallNights (scope : RoundingScope) : Except Failure Calculation :=
  preview (desk 1 2 (Table.empty.insert (addedTax scope))) (nightsFrom 10 3)

def night (grossAmountMinor : ℤ) : BookingQuoteLine :=
  chargeLine [] .nightlyRate "Cabin" none .perNight 100 1 grossAmountMinor grossAmountMinor .halfUp
    (.program 0)

theorem allocates_two_nights : Allocates (addedTax .line 0) 10 [night 70, night 30] :=
  (allocates_iff (by decide) (by decide) (by decide) (by decide) rfl rfl (by decide) (by decide)
    (by decide)).mpr (by decide)

-- Two thirds of each night round away, and the last night cannot carry a discount of two.
theorem equal_nights_overdiscounted :
    ¬ Allocates (addedTax .line 0) 2 [night 1, night 1, night 1] ∧
      smallNights .line = .error (outsideLimits "tax") ∧
        (smallNights .total).toOption.isSome = true := by
  refine ⟨fun h => ?_, by decide, by decide⟩
  exact absurd h.within (by decide)

end Scenario
end TaxAllocation
