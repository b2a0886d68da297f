import LodgeOps.Booking.TaxAllocation

namespace QuoteLedger
open Schema CommercialPromotionService BookingQuoteService QuoteTotals TaxAllocation PromotionBounds
open RunningTotals BookedTotals

section Pricing
variable {db : Database} {input : BookingInput} {c : Calculation}

-- A stay with its prices and its discount, before the taxes.
structure Priced where
  request : Request
  stay : Stay
  lines : List BookingQuoteLine
  discounts : Discounts

def priced (db : Database) (input : BookingInput) : Except Failure Priced := do
  let q ← requested input
  let s ← stayFor db q
  let lines ← baseLines db q s
  let promotions ← eligible db (promotionRequest q s) s.plan.currency s.arrival
  let discounts ← calculate promotions (grossTotal lines)
  .ok ⟨q, s, lines, discounts⟩

namespace Priced
variable (p : Priced)

def base : ℤ := grossTotal p.lines

def discount : ℤ := p.discounts.discountMinor

def untaxed : Taxes := ⟨0, 0, p.lines ++ p.discounts.lines⟩

def rules (db : Database) : List TaxRule := applicableTaxes db p.request p.stay

end Priced

theorem preview_cases (h : preview db input = .ok c) : ∃ p t, priced db input = .ok p ∧
    (p.rules db).foldlM (taxWith p.lines p.base p.discount) p.untaxed = .ok t ∧
      c = total db p.request p.stay p.base p.discounts t := by
  simp only [preview, bind_eq_ok] at h
  obtain ⟨q, hq, s, hs, lines, hlines, promotions, hp, d, hd, t, ht, h⟩ := h
  obtain rfl := Except.ok.inj h
  refine ⟨⟨q, s, lines, d⟩, t, ?_, ht, rfl⟩
  simp only [priced, bind_eq_ok]
  exact ⟨q, hq, s, hs, lines, hlines, promotions, hp, d, hd, rfl⟩

theorem priced_lines {p : Priced} (h : priced db input = .ok p) :
    baseLines db p.request p.stay = .ok p.lines ∧ Discounting p.base p.discounts := by
  simp only [priced, bind_eq_ok] at h
  obtain ⟨q, _, s, _, lines, hlines, promotions, _, d, hd, h⟩ := h
  obtain rfl := Except.ok.inj h
  exact ⟨hlines, discounting_calculate hd⟩

end Pricing

section Taxes
variable {rule : TaxRule} {rules : List TaxRule} {lines : List BookingQuoteLine} {t t' : Taxes}
variable {base discount : ℤ}

def ruleDue (lines : List BookingQuoteLine) (base discount : ℤ) (rule : TaxRule) : ℤ :=
  due rule lines (taxableBase rule base discount) (base - taxableBase rule base discount)

def charge (lines : List BookingQuoteLine) (base discount : ℤ) (t : Taxes) (rule : TaxRule) : Taxes :=
  taxed base discount rule (ruleDue lines base discount rule) t

theorem taxes_eq (h : rules.foldlM (taxWith lines base discount) t = .ok t') :
    t' = rules.foldl (charge lines base discount) t ∧
      ∀ rule ∈ rules, taxForRule rule lines (taxableBase rule base discount)
        (base - taxableBase rule base discount) = .ok (ruleDue lines base discount rule) := by
  induction rules generalizing t with
  | nil => simpa [pure, Except.pure, eq_comm] using h
  | cons rule rules ih =>
    rw [List.foldlM_cons, bind_eq_ok] at h
    obtain ⟨next, hnext, hrest⟩ := h
    obtain ⟨tax, htax, rfl⟩ := taxWith_cases hnext
    obtain rfl := taxForRule_due htax
    obtain ⟨heq, hall⟩ := ih hrest
    exact ⟨heq, List.forall_mem_cons.mpr ⟨htax, hall⟩⟩

theorem lines_charges {l : BookingQuoteLine} (h : l ∈ t.lines) :
    l ∈ (rules.foldl (charge lines base discount) t).lines := by
  induction rules generalizing t with
  | nil => exact h
  | cons rule rules ih => exact ih (List.mem_append_left _ h)

theorem taxLine_charges (h : rule ∈ rules) : ∃ running,
    taxLine rule (ruleDue lines base discount rule) running ∈
      (rules.foldl (charge lines base discount) t).lines := by
  induction rules generalizing t with
  | nil => exact absurd h List.not_mem_nil
  | cons first rules ih =>
    rcases List.mem_cons.mp h with rfl | h
    · refine ⟨base - discount + (t.exclusiveTax + addedBy rule (ruleDue lines base discount rule)), ?_⟩
      rw [List.foldl_cons]
      exact lines_charges (List.mem_append_right _ List.mem_cons_self)
    · exact ih h

end Taxes

section Balances
variable {db : Database} {input : BookingInput} {c : Calculation} {lines : List BookingQuoteLine}
variable {rules : List TaxRule} {t : Taxes} {base discount : ℤ}

def discountLines (lines : List BookingQuoteLine) : List BookingQuoteLine :=
  lines.filter fun l => l.type == .discount

theorem grossTotal_append {ls ms : List BookingQuoteLine} :
    grossTotal (ls ++ ms) = grossTotal ls + grossTotal ms := by
  simp [grossTotal]

theorem discountLines_nil (h : ∀ l ∈ lines, l.type ≠ .discount) : discountLines lines = [] :=
  List.filter_eq_nil_iff.mpr fun l hl => by simpa using h l hl

theorem notDiscount_baseLines {q : Request} {s : Stay} (h : baseLines db q s = .ok lines) :
    ∀ l ∈ lines, l.type ≠ .discount := by
  refine baseLines_invariant (I := fun lines => ∀ l ∈ lines, l.type ≠ .discount) (by simp)
    (fun _ l hi hl => ?_) h
  rw [List.forall_mem_append]
  exact ⟨hi, by simpa using hl.notDiscount⟩

theorem nonneg_baseLines {q : Request} {s : Stay} (h : baseLines db q s = .ok lines) :
    ∀ l ∈ lines, 0 ≤ l.grossAmountMinor := by
  refine baseLines_invariant (I := fun lines => ∀ l ∈ lines, 0 ≤ l.grossAmountMinor) (by simp)
    (fun _ l hi hl => ?_) h
  rw [List.forall_mem_append]
  exact ⟨hi, by simpa using hl.nonneg⟩

theorem discount_calculate {promotions : List Eligible} {d : Discounts}
    (h : calculate promotions base = .ok d) : ∀ l ∈ d.lines, l.type = .discount := by
  refine foldlM_invariant (I := fun d : Discounts => ∀ l ∈ d.lines, l.type = .discount)
    (fun d x d' hi hs => ?_) (by simp [undiscounted]) h
  obtain rfl | ⟨amount, _, _, rfl⟩ := applyPromotion_cases hs
  · exact hi
  · exact List.forall_mem_append.mpr ⟨hi, by simp [discountLine]⟩

theorem discountLines_charges : discountLines (rules.foldl (charge lines base discount) t).lines =
    discountLines t.lines := by
  induction rules generalizing t with
  | nil => rfl
  | cons rule rules ih =>
    rw [List.foldl_cons, ih]
    simp [discountLines, charge, taxed, taxLine]

theorem discountMinor_eq {p : Priced} (h : priced db input = .ok p) :
    p.discount = -grossTotal (discountLines p.untaxed.lines) := by
  obtain ⟨hlines, _⟩ := priced_lines h
  simp only [priced, bind_eq_ok] at h
  obtain ⟨q, _, s, _, lines, _, promotions, _, d, hd, h⟩ := h
  obtain rfl := Except.ok.inj h
  have hall : discountLines d.lines = d.lines :=
    List.filter_eq_self.mpr fun l hl => by simpa using discount_calculate hd l hl
  have hsum := (discounting_calculate hd).summed
  have hnone : discountLines lines = [] := discountLines_nil (notDiscount_baseLines hlines)
  have hsplit : discountLines (lines ++ d.lines) = discountLines lines ++ discountLines d.lines :=
    List.filter_append _ _
  have heq : grossTotal (discountLines (lines ++ d.lines)) = -d.discountMinor := by
    rw [hsplit, hnone, hall, List.nil_append]
    exact hsum
  show d.discountMinor = -grossTotal (discountLines (lines ++ d.lines))
  rw [heq, neg_neg]

theorem preview_balances (h : preview db input = .ok c) :
    Calculation.Coherent c ∧ c.totalMinor = c.subtotalMinor + c.taxMinor ∧
      c.discountMinor = -grossTotal (discountLines c.lines) := by
  have hcoherent := preview_coherent h
  obtain ⟨p, t, hp, ht, rfl⟩ := preview_cases h
  obtain ⟨rfl, _⟩ := taxes_eq ht
  refine ⟨hcoherent, hcoherent.total, ?_⟩
  exact (discountMinor_eq hp).trans (congrArg (-grossTotal ·) discountLines_charges.symm)

end Balances

section Ledger
variable {db : Database} {input : BookingInput} {c : Calculation} {lines : List BookingQuoteLine}
variable {rule : TaxRule} {rules : List TaxRule} {t : Taxes} {amount base discount : ℤ}

structure Telescopes (c : Calculation) : Prop where
  first : ∀ l ∈ c.lines.head?, l.preTotalMinor = 0
  entry : ∀ l ∈ c.lines, l.postTotalMinor = l.preTotalMinor + l.grossAmountMinor
  link : c.lines.IsChain fun l m => m.preTotalMinor = l.postTotalMinor
  last : ∀ l ∈ c.lines.getLast?, l.postTotalMinor = c.totalMinor

-- The rounding mode leaves nothing of the tax on this amount.
def RoundsAway (rule : TaxRule) (amount : ℤ) : Prop :=
  match rule.roundingMode with
  | .down => amount * rule.percentageBasisPoints < denominator rule
  | .up => amount * rule.percentageBasisPoints ≤ 0
  | .halfEven => 2 * (amount * rule.percentageBasisPoints) ≤ denominator rule
  | .none | .halfUp =>
    amount * rule.percentageBasisPoints + denominator rule / 2 < denominator rule

def ChargesNothing (rule : TaxRule) (lines : List BookingQuoteLine) (base discount : ℤ) : Prop :=
  match rule.calculationType with
  | .fixed => rule.fixedAmountMinor = 0
  | .percentage => ∀ amount ∈ assessed rule lines (taxableBase rule base discount)
      (base - taxableBase rule base discount), RoundsAway rule amount

theorem ediv_eq_zero_iff {x k : ℤ} (hx : 0 ≤ x) (hk : 0 < k) : x / k = 0 ↔ x < k := by
  rw [Int.ediv_eq_iff_of_pos hk]
  omega

theorem halfEven_eq_zero_iff {x k : ℤ} (hx : 0 ≤ x) (hk : 0 < k) : halfEven x k = 0 ↔ 2 * x ≤ k := by
  have hq := Int.ediv_nonneg hx hk.le
  have hzero := ediv_eq_zero_iff hx hk
  dsimp only [halfEven]
  constructor
  · intro h
    split_ifs at h with hc
    · rw [h, Int.emod_eq_of_lt hx (hzero.mp h)] at hc
      omega
    · omega
  · intro h
    have hlt : x < k := by omega
    rw [hzero.mpr hlt, Int.emod_eq_of_lt hx hlt, if_pos (by omega)]

theorem portion_eq_zero_iff (h : Taxable rule amount) :
    portion rule amount = 0 ↔ RoundsAway rule amount := by
  have hd := denominator_pos h.rate
  have hp := mul_nonneg h.nonneg h.rate
  unfold portion RoundsAway roundedMagnitude
  cases rule.roundingMode with
  | down => exact ediv_eq_zero_iff hp hd
  | up =>
    dsimp only
    rw [ediv_eq_zero_iff (by omega) hd]
    omega
  | halfEven => exact halfEven_eq_zero_iff hp hd
  | none => exact ediv_eq_zero_iff (by omega) hd
  | halfUp => exact ediv_eq_zero_iff (by omega) hd

theorem ruleDue_eq_zero_iff {tax : ℤ} (h : taxForRule rule lines (taxableBase rule base discount)
    (base - taxableBase rule base discount) = .ok tax) :
    ruleDue lines base discount rule = 0 ↔ ChargesNothing rule lines base discount := by
  unfold ruleDue due ChargesNothing
  cases hc : rule.calculationType with
  | fixed => rfl
  | percentage =>
    dsimp only
    obtain ⟨htaxable, _⟩ := taxForRule_percentage hc h
    constructor
    · intro hz x hx
      refine (portion_eq_zero_iff (htaxable x hx)).mp ?_
      refine List.all_zero_of_le_zero_le_of_sum_eq_zero (fun y hy => ?_) hz (List.mem_map_of_mem hx)
      obtain ⟨z, hzm, rfl⟩ := List.mem_map.mp hy
      exact portion_nonneg (htaxable z hzm)
    · intro hall
      refine List.sum_eq_zero fun y hy => ?_
      obtain ⟨x, hx, rfl⟩ := List.mem_map.mp hy
      exact (portion_eq_zero_iff (htaxable x hx)).mpr (hall x hx)

theorem lineRuns_baseLines {q : Request} {s : Stay} (h : baseLines db q s = .ok lines) :
    LineRuns 0 lines (grossTotal lines) ∧ 0 ≤ grossTotal lines := by
  refine baseLines_invariant (I := fun lines => LineRuns 0 lines (grossTotal lines) ∧
    0 ≤ grossTotal lines) ⟨rfl, le_rfl⟩ (fun lines l hi hl => ?_) h
  have htotal : grossTotal (lines ++ [l]) = l.postTotalMinor := by
    rw [grossTotal_append, hl.closes]
    simp [grossTotal]
  rw [htotal]
  refine ⟨hi.1.append (runs_singleton hl.opens hl.closes), ?_⟩
  rw [hl.closes]
  exact add_nonneg hi.2 hl.nonneg

theorem lineRuns_untaxed {p : Priced} (h : priced db input = .ok p) :
    LineRuns 0 p.untaxed.lines (p.base - p.discount) := by
  obtain ⟨hlines, hd⟩ := priced_lines h
  obtain ⟨hruns, hbase⟩ := lineRuns_baseLines hlines
  have hmax : max 0 p.base = p.base := max_eq_right hbase
  have htele := hd.telescopes
  rw [hd.remaining, hmax] at htele
  exact hruns.append htele

-- A rule's line opens and closes on the total that has its own tax in it.
theorem lineRuns_charges (h : LineRuns 0 t.lines (base - discount + t.exclusiveTax))
    (hzero : ∀ rule ∈ rules, addedBy rule (ruleDue lines base discount rule) = 0) :
    LineRuns 0 (rules.foldl (charge lines base discount) t).lines
      (base - discount + (rules.foldl (charge lines base discount) t).exclusiveTax) := by
  induction rules generalizing t with
  | nil => exact h
  | cons rule rules ih =>
    obtain ⟨hfirst, hrest⟩ := List.forall_mem_cons.mp hzero
    refine ih ?_ hrest
    have hgross : ∀ running, (taxLine rule (ruleDue lines base discount rule) running).grossAmountMinor =
        addedBy rule (ruleDue lines base discount rule) := fun _ => rfl
    dsimp only [charge, taxed]
    rw [hfirst, add_zero]
    exact h.append (runs_singleton rfl (by rw [hgross, hfirst, add_zero]; rfl))

def AddsNothing (db : Database) (input : BookingInput) : Prop :=
  ∀ p, priced db input = .ok p → ∀ rule ∈ p.rules db, rule.isInclusive = false →
    ChargesNothing rule p.lines p.base p.discount

theorem preview_telescopes_iff (h : preview db input = .ok c) :
    Telescopes c ↔ AddsNothing db input := by
  obtain ⟨p, t, hp, ht, rfl⟩ := preview_cases h
  obtain ⟨rfl, hall⟩ := taxes_eq ht
  constructor
  · intro htele p' hp' rule hr hi
    obtain rfl := Except.ok.inj (hp.symm.trans hp')
    obtain ⟨running, hl⟩ : ∃ running, taxLine rule (ruleDue p.lines p.base p.discount rule) running ∈
        ((p.rules db).foldl (charge p.lines p.base p.discount) p.untaxed).lines :=
      taxLine_charges hr
    have hentry := htele.entry _ hl
    have hgross : ruleDue p.lines p.base p.discount rule = 0 := by
      simpa [taxLine, hi] using hentry
    exact (ruleDue_eq_zero_iff (hall rule hr)).mp hgross
  · intro hadds
    have hzero : ∀ rule ∈ p.rules db,
        addedBy rule (ruleDue p.lines p.base p.discount rule) = 0 := by
      intro rule hr
      unfold addedBy
      split_ifs with hi
      · rfl
      · exact (ruleDue_eq_zero_iff (hall rule hr)).mpr
          (hadds p hp rule hr (Bool.eq_false_iff.mpr hi))
    have hstart : LineRuns 0 p.untaxed.lines (p.base - p.discount + p.untaxed.exclusiveTax) := by
      rw [show p.untaxed.exclusiveTax = 0 from rfl, add_zero]
      exact lineRuns_untaxed hp
    have hruns := lineRuns_charges hstart hzero
    exact ⟨hruns.first, hruns.entry, hruns.link, hruns.last⟩

end Ledger

section Scenario

def addedTaxes : Table TaxRule := Table.empty.insert (addedTax .line)

def includedTaxes : Table TaxRule := Table.empty.insert (salesTax 1000 none none)

def allIncluded (db : Database) (input : BookingInput) : Bool :=
  (priced db input).toOption.all fun p => (p.rules db).all TaxRule.isInclusive

theorem addsNothing_of_allIncluded {db : Database} {input : BookingInput}
    (h : allIncluded db input = true) : AddsNothing db input := by
  intro p hp rule hr hi
  have hall : (p.rules db).all TaxRule.isInclusive = true := by
    unfold allIncluded at h
    rwa [hp] at h
  have hinclusive := List.all_eq_true.mp hall rule hr
  rw [hi] at hinclusive
  cases hinclusive

theorem taxed_nights_balance : ∃ c, preview (desk 700 250 addedTaxes) (nightsFrom 10 3) = .ok c ∧
    c.taxMinor = 186 ∧ Calculation.Coherent c ∧ c.totalMinor = c.subtotalMinor + c.taxMinor ∧
      c.discountMinor = -grossTotal (discountLines c.lines) := by
  obtain ⟨c, hc, hp⟩ : ∃ c, preview (desk 700 250 addedTaxes) (nightsFrom 10 3) = .ok c ∧
      decide (c.taxMinor = 186) = true := exists_ok_of_any (by decide)
  exact ⟨c, hc, of_decide_eq_true hp, preview_balances hc⟩

theorem included_tax_telescopes :
    ∃ c, preview (desk 700 250 includedTaxes) (nightsFrom 10 3) = .ok c ∧ Telescopes c := by
  obtain ⟨c, hc, _⟩ : ∃ c, preview (desk 700 250 includedTaxes) (nightsFrom 10 3) = .ok c ∧
      decide (0 < c.taxMinor) = true := exists_ok_of_any (by decide)
  exact ⟨c, hc, (preview_telescopes_iff hc).mpr (addsNothing_of_allIncluded (by decide))⟩

theorem added_tax_does_not_telescope :
    ∃ c, preview (desk 700 250 addedTaxes) (nightsFrom 10 3) = .ok c ∧ ¬ Telescopes c := by
  obtain ⟨c, hc, hp⟩ : ∃ c, preview (desk 700 250 addedTaxes) (nightsFrom 10 3) = .ok c ∧
      (c.lines.any fun l => decide (l.postTotalMinor ≠ l.preTotalMinor + l.grossAmountMinor)) = true :=
    exists_ok_of_any (by decide)
  refine ⟨c, hc, fun htele => ?_⟩
  obtain ⟨l, hl, hne⟩ := List.any_eq_true.mp hp
  exact of_decide_eq_true hne (htele.entry l hl)

end Scenario
end QuoteLedger
