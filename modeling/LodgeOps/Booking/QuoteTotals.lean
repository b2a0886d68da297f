import LodgeOps.Booking.QuoteArithmetic

namespace QuoteTotals
open Schema CommercialPromotionService BookingQuoteService QuoteArithmetic PromotionBounds

section Sums

def netTotal (lines : List BookingQuoteLine) : ℤ :=
  (lines.map BookingQuoteLine.netAmountMinor).sum

def taxTotal (lines : List BookingQuoteLine) : ℤ :=
  (lines.map BookingQuoteLine.taxAmountMinor).sum

structure Sums (lines : List BookingQuoteLine) (net tax gross : ℤ) : Prop where
  net : netTotal lines = net
  tax : taxTotal lines = tax
  gross : grossTotal lines = gross
  split : ∀ l ∈ lines, l.grossAmountMinor = l.netAmountMinor + l.taxAmountMinor

variable {lines lines' : List BookingQuoteLine} {l : BookingQuoteLine}
variable {net tax gross net' tax' gross' : ℤ}

theorem Sums.cast (h : Sums lines net tax gross) (hn : net' = net) (ht : tax' = tax)
    (hg : gross' = gross) : Sums lines net' tax' gross' := by
  rw [hn, ht, hg]
  exact h

theorem sums_nil : Sums [] 0 0 0 := ⟨rfl, rfl, rfl, by simp⟩

theorem Sums.append (h : Sums lines net tax gross) (h' : Sums lines' net' tax' gross') :
    Sums (lines ++ lines') (net + net') (tax + tax') (gross + gross') where
  net := by rw [← h.net, ← h'.net]; simp [netTotal]
  tax := by rw [← h.tax, ← h'.tax]; simp [taxTotal]
  gross := by rw [← h.gross, ← h'.gross]; simp [grossTotal]
  split m hm := by
    rcases List.mem_append.mp hm with hm | hm
    · exact h.split m hm
    · exact h'.split m hm

theorem sums_singleton (h : l.grossAmountMinor = l.netAmountMinor + l.taxAmountMinor) :
    Sums [l] l.netAmountMinor l.taxAmountMinor l.grossAmountMinor where
  net := by simp [netTotal]
  tax := by simp [taxTotal]
  gross := by simp [grossTotal]
  split m hm := by rw [List.mem_singleton.mp hm, h]

theorem Sums.total (h : Sums lines net tax gross) : gross = net + tax := by
  obtain ⟨hn, ht, hg, hs⟩ := h
  rw [← hn, ← ht, ← hg]
  clear hn ht hg
  induction lines with
  | nil => simp [netTotal, taxTotal, grossTotal]
  | cons x xs ih =>
    obtain ⟨hx, hxs⟩ := List.forall_mem_cons.mp hs
    have ih := ih hxs
    simp only [netTotal, taxTotal, grossTotal, List.map_cons, List.sum_cons] at ih ⊢
    omega

end Sums

section Charges
variable {lines lines' : List BookingQuoteLine} {l : BookingQuoteLine} {db : Database} {q : Request}
variable {s : Stay}

-- A price taken as it stands, after the lines that are on the quote already.
structure Charge (lines : List BookingQuoteLine) (l : BookingQuoteLine) : Prop where
  notDiscount : l.type ≠ .discount
  nonneg : 0 ≤ l.grossAmountMinor
  net : l.netAmountMinor = l.grossAmountMinor
  untaxed : l.taxAmountMinor = 0
  opens : l.preTotalMinor = grossTotal lines
  closes : l.postTotalMinor = grossTotal lines + l.grossAmountMinor

def Charges (lines lines' : List BookingQuoteLine) : Prop :=
  lines' = lines ∨ ∃ l, Charge lines l ∧ lines' = lines ++ [l]

theorem charges_chargeLine {type : QuoteLineType} {description : String} {serviceOn : Option ℤ}
    {basis : QuoteBasis} {order quantity unit amount : ℤ} {mode : RoundingMode}
    {metadata : QuoteLineMetadata} (ht : type ≠ .discount) (ha : 0 ≤ amount) :
    Charges lines (lines ++ [chargeLine lines type description serviceOn basis order quantity unit
      amount mode metadata]) :=
  Or.inr ⟨_, ⟨ht, ha, rfl, rfl, rfl, rfl⟩, rfl⟩

theorem nightlyPrice_nonneg {rule : RateRule} {adults children infants : ℤ} {price : NightlyPrice}
    (h : nightlyPrice rule adults children infants = .ok price) : 0 ≤ price.amount := by
  simp only [nightlyPrice, bind_eq_ok, refuse_eq_ok] at h
  obtain ⟨_, _, _, _, _, _, _, hlimits, h⟩ := h
  obtain rfl := Except.ok.inj h
  exact not_lt.mp fun hlt => hlimits (Or.inl hlt)

theorem charges_nightLine {night : ℕ} (hn : nightLine db q s lines night = .ok lines') :
    Charges lines lines' := by
  simp only [nightLine, bind_eq_ok] at hn
  obtain ⟨rule, _, price, hprice, hn⟩ := hn
  obtain rfl := Except.ok.inj hn
  exact charges_chargeLine (by decide) (nightlyPrice_nonneg hprice)

theorem charges_programLines (hp : programLines db q s lines = .ok lines') :
    Charges lines lines' := by
  unfold programLines at hp
  cases hi : q.input.programId with
  | none =>
    simp only [hi] at hp
    exact Or.inl (Except.ok.inj hp).symm
  | some i =>
    simp only [hi, bind_eq_ok] at hp
    obtain ⟨program, _, hp⟩ := hp
    split_ifs at hp with hz
    · exact Or.inl (Except.ok.inj hp).symm
    · obtain ⟨_, _, hp⟩ := bind_eq_ok.mp hp
      obtain rfl := Except.ok.inj hp
      exact charges_chargeLine (by decide) (not_le.mp hz).le

theorem serviceAmount_nonneg {service : RatePlanService} {unit quantity amount : ℤ}
    (h : serviceAmount service unit quantity = .ok amount) : 0 ≤ amount := by
  unfold serviceAmount at h
  split_ifs at h with hi
  · exact (Except.ok.inj h).le
  · obtain ⟨hl, hr, _, rfl⟩ := checkedMultiply_eq_ok.mp h
    exact mul_nonneg hl hr

theorem charges_pricedService {service : RatePlanService} {item : CatalogItem} {n : ℤ}
    (hs : pricedService q s service item n lines = .ok lines') : Charges lines lines' := by
  simp only [pricedService, bind_eq_ok] at hs
  obtain ⟨factor, _, quantity, _, amount, hamount, hs⟩ := hs
  obtain rfl := Except.ok.inj hs
  refine charges_chargeLine ?_ (serviceAmount_nonneg hamount)
  split_ifs <;> decide

theorem charges_serviceLine {service : RatePlanService}
    (hs : serviceLine db q s lines service = .ok lines') : Charges lines lines' := by
  simp only [serviceLine, bind_eq_ok] at hs
  obtain ⟨item, _, _, _, hs⟩ := hs
  split_ifs at hs with ho
  · exact Or.inl (Except.ok.inj hs).symm
  · obtain ⟨_, _, hs⟩ := bind_eq_ok.mp hs
    exact charges_pricedService hs

theorem baseLines_invariant {I : List BookingQuoteLine → Prop} (hnil : I [])
    (hstep : ∀ lines l, I lines → Charge lines l → I (lines ++ [l]))
    (h : baseLines db q s = .ok lines) : I lines := by
  have hcharges : ∀ {lines lines'}, I lines → Charges lines lines' → I lines' := by
    rintro lines lines' hi (rfl | ⟨l, hl, rfl⟩)
    · exact hi
    · exact hstep lines l hi hl
  simp only [baseLines, nightLines, bind_eq_ok] at h
  obtain ⟨nightly, hn, _, _, programmed, hp, hs⟩ := h
  have hnightly : I nightly :=
    foldlM_invariant (fun _ _ _ hi hc => hcharges hi (charges_nightLine hc)) hnil hn
  have hprogrammed : I programmed := hcharges hnightly (charges_programLines hp)
  exact foldlM_invariant (fun _ _ _ hi hc => hcharges hi (charges_serviceLine hc)) hprogrammed hs

-- Lines charged as they stand carry no tax of their own.
def Charged (lines : List BookingQuoteLine) : Prop :=
  Sums lines (grossTotal lines) 0 (grossTotal lines)

theorem charged_append (h : Charged lines) (hl : Charge lines l) : Charged (lines ++ [l]) := by
  have hsplit : l.grossAmountMinor = l.netAmountMinor + l.taxAmountMinor := by
    rw [hl.net, hl.untaxed, add_zero]
  have ha := h.append (sums_singleton hsplit)
  rw [hl.net, hl.untaxed] at ha
  have hg := ha.gross
  unfold Charged
  rw [hg]
  exact ha

theorem charged_baseLines (h : baseLines db q s = .ok lines) : Charged lines :=
  baseLines_invariant (show Charged [] from sums_nil) (fun _ _ => charged_append) h

end Charges

section Discounts
variable {d d' : Discounts} {x : Eligible × ℕ}

def Discounted (d : Discounts) : Prop := Sums d.lines (-d.discountMinor) 0 (-d.discountMinor)

theorem discounted_step (h : Discounted d) (hs : applyPromotion d x = .ok d') : Discounted d' := by
  obtain rfl | ⟨amount, _, _, rfl⟩ := applyPromotion_cases hs
  · exact h
  · have hl : Sums [discountLine x.1 x.2 d.remaining amount] (-amount) 0 (-amount) :=
      sums_singleton (by simp [discountLine])
    have happ := h.append hl
    unfold Discounted
    simp only [discounted, neg_add]
    exact happ

theorem discounted_calculate {promotions : List Eligible} {base : ℤ}
    (h : calculate promotions base = .ok d) : Discounted d :=
  foldlM_invariant (fun _ _ _ => discounted_step) (show Discounted (undiscounted base) from sums_nil) h

end Discounts

section Taxes
variable {t t' : Taxes} {rule : TaxRule} {lines : List BookingQuoteLine} {base discount : ℤ}

def taxableBase (rule : TaxRule) (base discount : ℤ) : ℤ :=
  if rule.taxableDiscountAllocation = .afterTax then base else base - discount

def addedBy (rule : TaxRule) (tax : ℤ) : ℤ := if rule.isInclusive then 0 else tax

-- The running totals and the line one rule leaves behind when it charges `tax`.
def taxed (base discount : ℤ) (rule : TaxRule) (tax : ℤ) (t : Taxes) : Taxes where
  taxTotal := t.taxTotal + tax
  exclusiveTax := t.exclusiveTax + addedBy rule tax
  lines := t.lines ++
    [taxLine rule tax (base - discount + (t.exclusiveTax + addedBy rule tax))]

theorem checkedAdd_pair {field : String} {a b c : ℤ} (h : checkedAdd [a, b] field = .ok c) :
    c = a + b := by
  simpa using checkedAdd_eq h

theorem taxWith_cases (h : taxWith lines base discount t rule = .ok t') :
    ∃ tax, taxForRule rule lines (taxableBase rule base discount)
        (base - taxableBase rule base discount) = .ok tax ∧ t' = taxed base discount rule tax t := by
  simp only [taxWith, bind_eq_ok] at h
  obtain ⟨tax, htax, taxTotal, htotal, exclusive, hexclusive, h⟩ := h
  obtain rfl := Except.ok.inj h
  obtain rfl := checkedAdd_pair htotal
  have hadded : exclusive = t.exclusiveTax + addedBy rule tax := by
    unfold exclusiveWith at hexclusive
    unfold addedBy
    split_ifs at hexclusive ⊢
    · rw [add_zero]
      exact (Except.ok.inj hexclusive).symm
    · exact checkedAdd_pair hexclusive
  exact ⟨tax, htax, by rw [hadded]; rfl⟩

def Taxed (base discount : ℤ) (t : Taxes) : Prop :=
  Sums t.lines (base - discount - (t.taxTotal - t.exclusiveTax)) t.taxTotal
    (base - discount + t.exclusiveTax)

theorem sums_taxLine {tax running : ℤ} :
    Sums [taxLine rule tax running] (addedBy rule tax - tax) tax (addedBy rule tax) := by
  have hsplit : (taxLine rule tax running).grossAmountMinor =
      (taxLine rule tax running).netAmountMinor + (taxLine rule tax running).taxAmountMinor := by
    unfold taxLine
    by_cases hi : rule.isInclusive = true
    · simp [hi]
    · simp [hi]
  refine (sums_singleton hsplit).cast ?_ rfl rfl
  unfold taxLine addedBy
  by_cases hi : rule.isInclusive = true
  · simp [hi]
  · simp [hi]

theorem taxed_step (h : Taxed base discount t)
    (hs : taxWith lines base discount t rule = .ok t') : Taxed base discount t' := by
  obtain ⟨tax, _, rfl⟩ := taxWith_cases hs
  refine (h.append sums_taxLine).cast ?_ rfl ?_
  · dsimp only [taxed]
    omega
  · dsimp only [taxed]
    omega

end Taxes

section Quotes
variable {db : Database} {input : BookingInput} {c : Calculation} {q : BookingQuote}

def Calculation.Coherent (c : Calculation) : Prop :=
  Sums c.lines c.subtotalMinor c.taxMinor c.totalMinor

def Coherent (q : BookingQuote) : Prop := Sums q.lines q.subtotalMinor q.taxMinor q.totalMinor

theorem preview_coherent (h : preview db input = .ok c) : Calculation.Coherent c := by
  simp only [preview, bind_eq_ok] at h
  obtain ⟨q, _, s, _, lines, hlines, promotions, _, d, hd, t, ht, h⟩ := h
  obtain rfl := Except.ok.inj h
  have hstart : Taxed (grossTotal lines) d.discountMinor ⟨0, 0, lines ++ d.lines⟩ := by
    have happ := (charged_baseLines hlines).append (discounted_calculate hd)
    refine happ.cast ?_ rfl ?_
    · dsimp only
      ring
    · dsimp only
      ring
  exact foldlM_invariant (fun _ _ _ => taxed_step) hstart ht

theorem toQuote_coherent (h : Calculation.Coherent c) (i : ℕ) : Coherent (c.toQuote i) := h

theorem coherent_total (h : Coherent q) : q.totalMinor = q.subtotalMinor + q.taxMinor := h.total

end Quotes
end QuoteTotals
