import LodgeOps.Booking.Promotions
import LodgeOps.Store.RunningTotals

namespace PromotionBounds
open Schema CommercialPromotionService RunningTotals

section Selection
variable {seen : List String} {ps : List CommercialPromotion} {p q : CommercialPromotion}

-- Two promotions that do not share a stacking group.
def Apart (a b : Option String) : Prop := ∀ group, a = some group → b ≠ some group

def GroupApart (p q : CommercialPromotion) : Prop := Apart p.stackingGroup q.stackingGroup

theorem mem_unstacked (h : p ∈ unstacked seen ps) :
    p ∈ ps ∧ ∀ group, p.stackingGroup = some group → group ∉ seen := by
  induction ps generalizing seen with
  | nil => simp [unstacked] at h
  | cons q qs ih =>
    cases hg : q.stackingGroup with
    | none =>
      simp only [unstacked, hg, List.mem_cons] at h
      rcases h with rfl | h
      · exact ⟨List.mem_cons_self, by simp [hg]⟩
      · exact ⟨List.mem_cons_of_mem _ (ih h).1, (ih h).2⟩
    | some group =>
      by_cases hs : group ∈ seen
      · simp only [unstacked, hg, List.contains_iff_mem, hs, if_true] at h
        exact ⟨List.mem_cons_of_mem _ (ih h).1, (ih h).2⟩
      · simp only [unstacked, hg, List.contains_iff_mem, hs, if_false, List.mem_cons] at h
        rcases h with rfl | h
        · refine ⟨List.mem_cons_self, fun g he => ?_⟩
          obtain rfl : group = g := Option.some.inj (hg.symm.trans he)
          exact hs
        · refine ⟨List.mem_cons_of_mem _ (ih h).1, fun g he hm => ?_⟩
          exact (ih h).2 g he (List.mem_cons_of_mem _ hm)

theorem pairwise_unstacked : (unstacked seen ps).Pairwise GroupApart := by
  induction ps generalizing seen with
  | nil => exact .nil
  | cons q qs ih =>
    cases hg : q.stackingGroup with
    | none =>
      simp only [unstacked, hg]
      exact .cons (fun _ _ group he => by simp [hg] at he) ih
    | some group =>
      by_cases hs : group ∈ seen
      · simp only [unstacked, hg, List.contains_iff_mem, hs, if_true]
        exact ih
      · simp only [unstacked, hg, List.contains_iff_mem, hs, if_false]
        refine .cons (fun p hp g he hpg => ?_) ih
        obtain rfl : group = g := Option.some.inj (hg.symm.trans he)
        exact (mem_unstacked hp).2 group hpg List.mem_cons_self

theorem pairwise_combined : (combined ps).Pairwise GroupApart := by
  unfold combined
  cases ps.find? CommercialPromotion.exclusive with
  | none => exact pairwise_unstacked
  | some exclusive => exact List.pairwise_singleton _ _

theorem combined_exclusive (hp : p ∈ combined ps) (he : p.exclusive = true) : combined ps = [p] := by
  unfold combined at hp ⊢
  cases hf : ps.find? CommercialPromotion.exclusive with
  | none =>
    rw [hf] at hp
    exact absurd he (List.find?_eq_none.mp hf p (mem_unstacked hp).1)
  | some exclusive =>
    rw [hf] at hp
    rw [List.mem_singleton.mp hp]

end Selection

section Eligibility
variable {db : Database} {input : PromotionRequest} {currency : String} {businessDate : ℤ}
variable {promotions : List Eligible}

-- What a set of promotions that are granted together looks like.
structure Compatible (granted : List PromotionFacts) : Prop where
  apart : granted.Pairwise fun p q => Apart p.stackingGroup q.stackingGroup
  alone : ∀ p ∈ granted, p.exclusive = true → granted = [p]

theorem Compatible.sublist {granted applied : List PromotionFacts} (h : Compatible granted)
    (hs : applied.Sublist granted) : Compatible applied where
  apart := h.apart.sublist hs
  alone p hp he := by
    have hall := h.alone p (hs.subset hp) he
    rw [hall] at hs
    rcases List.sublist_singleton.mp hs with hnil | hone
    · rw [hnil] at hp
      exact absurd hp List.not_mem_nil
    · exact hone

theorem compatible_eligible (h : eligible db input currency businessDate = .ok promotions) :
    Compatible (promotions.map facts) := by
  simp only [eligible, bind_eq_ok] at h
  obtain ⟨voucher, _, h⟩ := h
  obtain rfl := Except.ok.inj h
  simp only [List.map_map]
  constructor
  · exact List.pairwise_map.mpr (pairwise_combined.imp fun hpq => hpq)
  · intro p hp he
    obtain ⟨q, hq, rfl⟩ := List.mem_map.mp hp
    rw [combined_exclusive hq he]
    rfl

end Eligibility

section Steps
variable {d d' : Discounts} {x : Eligible × ℕ} {amount base basisPoints remaining : ℤ}

theorem guard_iff {bound left right : ℤ} (hb : 0 ≤ bound) (hl : 0 ≤ left) :
    (left ≠ 0 ∧ bound.tdiv left < right) ↔ left ≠ 0 ∧ bound < left * right := by
  refine and_congr_right fun hne => ?_
  have hpos : 0 < left := lt_of_le_of_ne hl hne.symm
  rw [Int.tdiv_eq_ediv_of_nonneg hb, Int.ediv_lt_iff_lt_mul hpos, mul_comm]

theorem percentage_of_le (hr : 0 ≤ remaining) (hb : 0 ≤ basisPoints)
    (hle : remaining * basisPoints ≤ intMax - 5000) :
    ∃ amount, percentage remaining basisPoints = .ok amount := by
  have hg : (remaining ≠ 0 ∧ (intMax - 5000).tdiv remaining < basisPoints) ↔
      remaining ≠ 0 ∧ intMax - 5000 < remaining * basisPoints := guard_iff (by decide) hr
  have hno : ¬ (remaining < 0 ∨ basisPoints < 0 ∨
      (remaining ≠ 0 ∧ (intMax - 5000).tdiv remaining < basisPoints)) := by
    rw [hg]
    omega
  exact ⟨_, if_neg hno⟩

theorem discountAmount_le {p : CommercialPromotion} (h : discountAmount remaining p = .ok amount) :
    amount ≤ remaining := by
  unfold discountAmount at h
  cases ht : p.discountType with
  | fixed =>
    rw [ht] at h
    exact Except.ok.inj h ▸ min_le_left _ _
  | percentage =>
    rw [ht] at h
    simp only [Functor.map, Except.map] at h
    cases hp : percentage remaining p.percentageBasisPoints with
    | error e => simp [hp] at h
    | ok value =>
      rw [hp] at h
      exact Except.ok.inj h ▸ min_le_left _ _

theorem applyPromotion_cases (h : applyPromotion d x = .ok d') :
    d' = d ∨ ∃ amount, 0 < amount ∧ amount ≤ d.remaining ∧ d' = discounted d x.1 x.2 amount := by
  simp only [applyPromotion, bind_eq_ok] at h
  obtain ⟨amount, ha, h⟩ := h
  obtain rfl := Except.ok.inj h
  split_ifs with hz
  · exact Or.inl rfl
  · exact Or.inr ⟨amount, not_le.mp hz, discountAmount_le ha, rfl⟩

end Steps

section Calculation
variable {d d' : Discounts} {base : ℤ} {promotions : List Eligible} {x : Eligible × ℕ}

abbrev LineRuns : ℤ → List BookingQuoteLine → ℤ → Prop :=
  Runs BookingQuoteLine.preTotalMinor BookingQuoteLine.grossAmountMinor
    BookingQuoteLine.postTotalMinor

-- The discounts taken so far off an eligible total.
structure Discounting (base : ℤ) (d : Discounts) : Prop where
  nonneg : 0 ≤ d.discountMinor
  within : d.discountMinor ≤ max 0 base
  remaining : d.remaining = max 0 base - d.discountMinor
  summed : (d.lines.map BookingQuoteLine.grossAmountMinor).sum = -d.discountMinor
  telescopes : LineRuns (max 0 base) d.lines d.remaining
  solvent : ∀ l ∈ d.lines, 0 ≤ l.postTotalMinor
  recorded : d.lines.map BookingQuoteLine.metadata =
    d.promotionSnapshot.map fun s => .promotion s.toPromotionFacts

theorem discounting_undiscounted : Discounting base (undiscounted base) where
  nonneg := le_rfl
  within := le_max_left _ _
  remaining := (sub_zero _).symm
  summed := rfl
  telescopes := rfl
  solvent := by simp [undiscounted]
  recorded := rfl

theorem discounting_step (h : Discounting base d) (hs : applyPromotion d x = .ok d') :
    Discounting base d' := by
  obtain rfl | ⟨amount, hpos, hle, rfl⟩ := applyPromotion_cases hs
  · exact h
  · have hrem := h.remaining
    have hn := h.nonneg
    constructor
    · dsimp only [discounted]
      omega
    · dsimp only [discounted]
      omega
    · dsimp only [discounted]
      omega
    · simp only [discounted, List.map_append, List.sum_append, h.summed, List.map_cons, discountLine,
        List.map_nil, List.sum_cons, List.sum_nil]
      omega
    · refine h.telescopes.append (runs_singleton rfl ?_)
      simp [discountLine, sub_eq_add_neg]
    · intro l hl
      rcases List.mem_append.mp hl with hl | hl
      · exact h.solvent l hl
      · rw [List.mem_singleton.mp hl]
        exact sub_nonneg.mpr hle
    · simp only [discounted, List.map_append, h.recorded]
      rfl

theorem applied_step (hs : applyPromotion d x = .ok d') :
    ∃ ys : List PromotionFacts, ys.Sublist [facts x.1] ∧
      d'.promotionSnapshot.map PromotionSnapshot.toPromotionFacts =
        d.promotionSnapshot.map PromotionSnapshot.toPromotionFacts ++ ys := by
  obtain rfl | ⟨amount, _, _, rfl⟩ := applyPromotion_cases hs
  · exact ⟨[], List.nil_sublist _, (List.append_nil _).symm⟩
  · exact ⟨[facts x.1], List.Sublist.refl _, by simp [discounted, snapshot]⟩

theorem applied_foldlM {xs : List (Eligible × ℕ)} (h : xs.foldlM applyPromotion d = .ok d') :
    ∃ ys : List PromotionFacts, ys.Sublist (xs.map fun x => facts x.1) ∧
      d'.promotionSnapshot.map PromotionSnapshot.toPromotionFacts =
        d.promotionSnapshot.map PromotionSnapshot.toPromotionFacts ++ ys := by
  induction xs generalizing d with
  | nil =>
    obtain rfl : d = d' := by simpa [pure, Except.pure] using h
    exact ⟨[], List.nil_sublist _, (List.append_nil _).symm⟩
  | cons x xs ih =>
    rw [List.foldlM_cons, bind_eq_ok] at h
    obtain ⟨next, hnext, hrest⟩ := h
    obtain ⟨ys, hys, hyeq⟩ := applied_step hnext
    obtain ⟨zs, hzs, hzeq⟩ := ih hrest
    refine ⟨ys ++ zs, hys.append hzs, ?_⟩
    rw [hzeq, hyeq, List.append_assoc]

theorem applied_calculate (h : calculate promotions base = .ok d) :
    (d.promotionSnapshot.map PromotionSnapshot.toPromotionFacts).Sublist (promotions.map facts) := by
  obtain ⟨ys, hys, heq⟩ := applied_foldlM h
  have hfst : promotions.zipIdx.map (fun x => facts x.1) = promotions.map facts := by
    conv_rhs => rw [← List.zipIdx_map_fst 0 promotions, List.map_map]
    rfl
  rw [heq, ← hfst]
  exact hys

theorem discounting_calculate (h : calculate promotions base = .ok d) : Discounting base d :=
  foldlM_invariant (fun _ _ _ => discounting_step) discounting_undiscounted h

-- A rate that can be applied to the whole eligible total can be applied to what is left of it.
def Representable (base : ℤ) (p : CommercialPromotion) : Prop :=
  p.discountType = .percentage →
    0 ≤ p.percentageBasisPoints ∧ max 0 base * p.percentageBasisPoints ≤ intMax - 5000

theorem applyPromotion_of (hd : Discounting base d) (hx : Representable base x.1.promotion) :
    ∃ d', applyPromotion d x = .ok d' := by
  have hrem : 0 ≤ d.remaining := hd.remaining ▸ sub_nonneg.mpr hd.within
  have hle : d.remaining ≤ max 0 base := hd.remaining ▸ sub_le_self _ hd.nonneg
  have hamount : ∃ amount, discountAmount d.remaining x.1.promotion = .ok amount := by
    unfold discountAmount
    cases ht : x.1.promotion.discountType with
    | fixed => exact ⟨_, rfl⟩
    | percentage =>
      obtain ⟨hb, hfit⟩ := hx ht
      obtain ⟨value, hv⟩ := percentage_of_le hrem hb
        ((mul_le_mul_of_nonneg_right hle hb).trans hfit)
      exact ⟨min d.remaining value, by simp [hv, Functor.map, Except.map]⟩
  obtain ⟨amount, ha⟩ := hamount
  exact ⟨_, bind_eq_ok.mpr ⟨amount, ha, rfl⟩⟩

theorem calculate_of_representable (h : ∀ e ∈ promotions, Representable base e.promotion) :
    ∃ d, calculate promotions base = .ok d := by
  suffices hfold : ∀ (xs : List (Eligible × ℕ)) d, Discounting base d →
      (∀ x ∈ xs, Representable base x.1.promotion) → ∃ d', xs.foldlM applyPromotion d = .ok d' by
    refine hfold _ _ discounting_undiscounted fun x hx => h x.1 ?_
    rw [← List.zipIdx_map_fst 0 promotions]
    exact List.mem_map_of_mem hx
  intro xs
  induction xs with
  | nil => exact fun d _ _ => ⟨d, rfl⟩
  | cons x xs ih =>
    intro d hd hxs
    obtain ⟨hx, hrest⟩ := List.forall_mem_cons.mp hxs
    obtain ⟨next, hnext⟩ := applyPromotion_of hd hx
    obtain ⟨d', hd'⟩ := ih next (discounting_step hd hnext) hrest
    exact ⟨d', by rw [List.foldlM_cons, bind_eq_ok]; exact ⟨next, hnext, hd'⟩⟩

theorem promotions_bounded {db : Database} {input : PromotionRequest} {currency : String}
    {businessDate : ℤ} (he : eligible db input currency businessDate = .ok promotions) (base : ℤ) :
    ((∀ e ∈ promotions, Representable base e.promotion) → ∃ d, calculate promotions base = .ok d) ∧
      ∀ d, calculate promotions base = .ok d → Discounting base d ∧
        Compatible (d.promotionSnapshot.map PromotionSnapshot.toPromotionFacts) ∧
          (d.promotionSnapshot.map PromotionSnapshot.toPromotionFacts).Sublist
            (promotions.map facts) := by
  refine ⟨calculate_of_representable, fun d hd => ⟨discounting_calculate hd, ?_, ?_⟩⟩
  · exact (compatible_eligible he).sublist (applied_calculate hd)
  · exact applied_calculate hd

end Calculation

section Scenario

def offer (amountMinor : ℤ) (i : ℕ) : CommercialPromotion where
  id := i
  propertyId := none
  version := 1
  state := .published
  publicLabel := "Opening offer"
  currency := "USD"
  discountType := .fixed
  percentageBasisPoints := 0
  fixedAmountMinor := amountMinor
  validFrom := none
  validUntil := none
  applicability := ⟨[], [], [], 0, none⟩
  requiresCode := false
  exclusive := false
  stackingGroup := none
  priority := 0

def winterOffer (basisPoints : ℤ) (i : ℕ) : CommercialPromotion :=
  { offer 0 i with
    discountType := .percentage
    percentageBasisPoints := basisPoints
    stackingGroup := some "winter" }

def fair : Database where
  clock := 0
  catalogue := .empty
  promotions := ((Table.empty.insert (offer 500)).insert (winterOffer 1000)).insert (winterOffer 2500)

def fairRequest : PromotionRequest := ⟨0, 0, 0, none, 2, none, none, none, none⟩

theorem fair_offers_bounded : ∃ promotions d,
    eligible fair fairRequest "USD" 0 = .ok promotions ∧ calculate promotions 20000 = .ok d ∧ d.discountMinor = 2450 ∧ Discounting 20000 d ∧
      Compatible (d.promotionSnapshot.map PromotionSnapshot.toPromotionFacts) := by
  have hp : ∃ promotions, eligible fair fairRequest "USD" 0 = .ok promotions ∧
      (calculate promotions 20000).toOption.map Discounts.discountMinor = some 2450 :=
    ⟨_, rfl, by decide⟩
  obtain ⟨promotions, he, hd⟩ := hp
  cases hc : calculate promotions 20000 with
  | error e =>
    rw [hc] at hd
    cases hd
  | ok d =>
    rw [hc] at hd
    obtain ⟨hbounded, hcompatible, _⟩ := (promotions_bounded he 20000).2 d hc
    exact ⟨promotions, d, he, hc, Option.some.inj hd, hbounded, hcompatible⟩

end Scenario
end PromotionBounds
