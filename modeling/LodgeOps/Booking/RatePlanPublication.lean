import LodgeOps.Booking.BookedTotals
import LodgeOps.Store.Precedence

namespace RatePlanPublicationValidator
open Schema BookingQuoteService CommercialPromotionService Precedence

section Validate

def rulesFailure (message : String) : Failure := .validation "rules" message

def inverted (rule : RateRule) : Bool :=
  rule.maximumStay.any (fun m => decide (m < rule.minimumStay)) ||
    rule.minimumAdvanceDays.any (fun l => rule.maximumAdvanceDays.any fun m => decide (m < l)) ||
    rule.minimumOccupancy.any fun l => rule.maximumOccupancy.any fun m => decide (m < l)

def isoDay (d : ℤ) : Bool := decide (1 ≤ d ∧ d ≤ 7)

def checkRule (rule : RateRule) : Except Failure Unit := do
  refuse (inverted rule = true)
    (rulesFailure ("Rule " ++ rule.name ++ " has an inverted minimum/maximum boundary."))
  [rule.weekdays, rule.allowedArrivalDays].forM fun days => refuse (days.all isoDay = false)
    (rulesFailure ("Rule " ++ rule.name ++ " contains a weekday outside 1–7."))

def setsOverlap (left right : List ℤ) : Bool :=
  left.isEmpty || right.isEmpty || left.any right.contains

def rangesOverlap (leftMin : ℤ) (leftMax : Option ℤ) (rightMin : ℤ) (rightMax : Option ℤ) : Bool :=
  leftMax.all (fun m => decide (rightMin ≤ m)) && rightMax.all fun m => decide (leftMin ≤ m)

def datesOverlap (left right : RateRule) : Bool :=
  left.endsOn.all (fun e => right.startsOn.all fun s => decide (s ≤ e)) &&
    right.endsOn.all fun e => left.startsOn.all fun s => decide (s ≤ e)

def stayOverlap (left right : RateRule) : Bool :=
  rangesOverlap left.minimumStay left.maximumStay right.minimumStay right.maximumStay

def occupancyOverlap (left right : RateRule) : Bool :=
  rangesOverlap (left.minimumOccupancy.getD 0) left.maximumOccupancy
    (right.minimumOccupancy.getD 0) right.maximumOccupancy

def advanceOverlap (left right : RateRule) : Bool :=
  rangesOverlap (left.minimumAdvanceDays.getD 0) left.maximumAdvanceDays
    (right.minimumAdvanceDays.getD 0) right.maximumAdvanceDays

def sameScope (left right : RateRule) : Bool :=
  left.resourceCategoryId == right.resourceCategoryId && left.programId == right.programId &&
    left.buyoutOnly == right.buyoutOnly

def ambiguous (left right : RateRule) : Bool :=
  if left.priority ≠ right.priority ∨ sameScope left right = false then false
  else
    datesOverlap left right && setsOverlap left.weekdays right.weekdays &&
      stayOverlap left right && occupancyOverlap left right && advanceOverlap left right

def checkPairs : List RateRule → Except Failure Unit
  | [] => .ok ()
  | left :: rest => do
    rest.forM fun right => refuse (ambiguous left right = true)
      (rulesFailure ("Rules " ++ left.name ++ " and " ++ right.name ++
        " overlap at the same priority and applicability. Change priority or scope."))
    checkPairs rest

def validate (plan : RatePlan) : Except Failure Unit := do
  refuse (orderedRules plan = []) (rulesFailure "Add at least one rate rule before publishing.")
  (orderedRules plan).forM checkRule
  checkPairs (orderedRules plan)

theorem checkPairs_eq_ok {rules : List RateRule} {u : Unit} : checkPairs rules = .ok u ↔
    rules.Pairwise fun left right => ambiguous left right = false := by
  induction rules with
  | nil => simp [checkPairs]
  | cons left rest ih =>
    simp only [checkPairs, bind_eq_ok, forM_eq_ok, refuse_eq_ok, Bool.not_eq_true,
      List.pairwise_cons, ih]
    constructor
    · rintro ⟨_, hleft, hrest⟩
      exact ⟨hleft, hrest⟩
    · rintro ⟨hleft, hrest⟩
      exact ⟨(), hleft, hrest⟩

end Validate

section Overlap
variable {left right : RateRule} {a b : List ℤ} {l u l' u' : Option ℤ} {m m' d : ℤ}

theorem setsOverlap_comm : setsOverlap a b = setsOverlap b a := by
  rw [Bool.eq_iff_iff]
  simp only [setsOverlap, Bool.or_eq_true, List.isEmpty_iff, List.any_eq_true, List.contains_iff_mem]
  constructor
  · rintro ((h | h) | ⟨d, ha, hb⟩)
    · exact Or.inl (Or.inr h)
    · exact Or.inl (Or.inl h)
    · exact Or.inr ⟨d, hb, ha⟩
  · rintro ((h | h) | ⟨d, hb, ha⟩)
    · exact Or.inl (Or.inr h)
    · exact Or.inl (Or.inl h)
    · exact Or.inr ⟨d, ha, hb⟩

theorem rangesOverlap_comm : rangesOverlap m u m' u' = rangesOverlap m' u' m u := Bool.and_comm _ _

theorem ambiguous_comm : ambiguous left right = ambiguous right left := by
  have hscope : sameScope left right = sameScope right left := by
    simp only [sameScope, Bool.beq_comm]
  have hdates : datesOverlap left right = datesOverlap right left := Bool.and_comm _ _
  have hstay : stayOverlap left right = stayOverlap right left := rangesOverlap_comm
  have hoccupancy : occupancyOverlap left right = occupancyOverlap right left := rangesOverlap_comm
  have hadvance : advanceOverlap left right = advanceOverlap right left := rangesOverlap_comm
  simp only [ambiguous, hscope, hdates, hstay, hoccupancy, hadvance,
    setsOverlap_comm (a := left.weekdays), ne_comm (a := left.priority)]

theorem datesOverlap_of_within (hl : within left.startsOn left.endsOn d = true)
    (hr : within right.startsOn right.endsOn d = true) : datesOverlap left right = true := by
  simp only [within, Bool.and_eq_true, Option.all_eq_true, decide_eq_true_eq] at hl hr
  simp only [datesOverlap, Bool.and_eq_true, Option.all_eq_true, decide_eq_true_eq]
  constructor
  · intro e he s hs
    exact (hr.1 s hs).trans (hl.2 e he)
  · intro e he s hs
    exact (hl.1 s hs).trans (hr.2 e he)

theorem setsOverlap_of_both (ha : (a.isEmpty || a.contains d) = true)
    (hb : (b.isEmpty || b.contains d) = true) : setsOverlap a b = true := by
  simp only [Bool.or_eq_true, List.contains_iff_mem] at ha hb
  simp only [setsOverlap, Bool.or_eq_true, List.any_eq_true, List.contains_iff_mem]
  rcases ha with ha | ha
  · exact Or.inl (Or.inl ha)
  · rcases hb with hb | hb
    · exact Or.inl (Or.inr hb)
    · exact Or.inr ⟨d, ha, hb⟩

end Overlap

section Selection

-- What `ruleFor` selects by; the stay's own facts are looked at only afterwards.
structure Selection where
  categoryId : ℕ
  programId : Option ℕ
  date : ℤ
  buyout : Bool

def Selection.matching (q : Selection) (rule : RateRule) : Bool :=
  governs rule q.categoryId q.programId q.date q.buyout

def Selection.rule (q : Selection) (plan : RatePlan) (f : StayFacts) (arrival departure : Bool) :
    Except Failure RateRule :=
  ruleFor plan q.categoryId q.programId q.date f q.buyout arrival departure

abbrev Leading (plan : RatePlan) (q : Selection) (rule : RateRule) : Prop :=
  Leads RateRule.priority q.matching plan.rules rule

abbrev Loading (plan : RatePlan) (rules : List RateRule) : Prop :=
  Ordering RateRule.priority plan.rules rules

structure Settled (plan : RatePlan) (q : Selection) (f : StayFacts) (arrival departure : Bool) :
    Prop where
  orderless : ∀ xs ys, Loading plan xs → Loading plan ys →
    xs.find? q.matching = ys.find? q.matching
  permitted : ∀ r, Leading plan q r → blocked r f arrival departure = false →
    ∃ chosen, q.rule plan f arrival departure = .ok chosen

-- Rules of one priority that the validator does not take for overlapping by these columns alone.
def apart (left right : RateRule) : Bool :=
  !sameScope left right || !stayOverlap left right || !occupancyOverlap left right ||
    !advanceOverlap left right

variable {plan : RatePlan} {q : Selection} {f : StayFacts} {arrival departure : Bool}
variable {left right : RateRule}

theorem loading_orderedRules : Loading plan (orderedRules plan) := by
  let byPriority : RateRule → RateRule → Prop := fun a b =>
    b.priority < a.priority ∨ (a.priority = b.priority ∧ a.id ≤ b.id)
  have htotal : Std.Total byPriority := by
    constructor
    intro a b
    simp only [byPriority]
    omega
  have htrans : IsTrans RateRule byPriority := by
    constructor
    intro a b c hab hbc
    simp only [byPriority] at *
    omega
  refine ⟨List.perm_insertionSort _ _, ?_⟩
  refine (List.pairwise_insertionSort byPriority plan.rules).imp ?_
  intro a b hab
  rcases hab with hlt | ⟨heq, _⟩
  · exact hlt.le
  · exact heq.ge

theorem apart_of_leading (hv : validate plan = .ok ()) (hl : Leading plan q left)
    (hr : Leading plan q right) (hne : left ≠ right) : apart left right = true := by
  simp only [validate, bind_eq_ok] at hv
  obtain ⟨_, _, _, _, hpairs⟩ := hv
  have hsym : Std.Symm fun l r : RateRule => ambiguous l r = false :=
    ⟨fun _ _ h => ambiguous_comm.trans h⟩
  have hperm : (orderedRules plan).Perm plan.rules := loading_orderedRules.perm
  have hclear := (checkPairs_eq_ok.mp hpairs).forall (hperm.mem_iff.mpr hl.mem)
    (hperm.mem_iff.mpr hr.mem) hne
  have hpriority : left.priority = right.priority :=
    le_antisymm (hr.highest left hl.mem hl.holds) (hl.highest right hr.mem hr.holds)
  have hml := hl.holds
  have hmr := hr.holds
  simp only [Selection.matching, governs, Bool.and_eq_true] at hml hmr
  have hdates := datesOverlap_of_within hml.1.1.2 hmr.1.1.2
  have hdays := setsOverlap_of_both hml.1.2 hmr.1.2
  by_contra hapart
  simp only [apart, Bool.or_eq_true, Bool.not_eq_true', not_or, Bool.not_eq_false] at hapart
  obtain ⟨⟨⟨hscope, hstay⟩, hoccupancy⟩, hadvance⟩ := hapart
  simp [ambiguous, hpriority, hscope, hdates, hdays, hstay, hoccupancy, hadvance] at hclear

theorem permitted_of_single (hone : ∀ l r, Leading plan q l → Leading plan q r → l = r)
    (hr : Leading plan q right) (hb : blocked right f arrival departure = false) :
    q.rule plan f arrival departure = .ok right := by
  have hfind : (orderedRules plan).find? q.matching = some right := by
    cases h : (orderedRules plan).find? q.matching with
    | none =>
      have hn := List.find?_eq_none.mp h right (loading_orderedRules.perm.mem_iff.mpr hr.mem)
      exact absurd hr.holds hn
    | some r => rw [hone r right (leads_of_find? loading_orderedRules h) hr]
  simp only [Selection.rule, ruleFor, bind_eq_ok, found_eq_ok, refuse_eq_ok]
  exact ⟨right, hfind, (), by simp [hb], rfl⟩

theorem selection_settled_iff (hv : validate plan = .ok ()) :
    Settled plan q f arrival departure ↔
      ∀ l r, Leading plan q l → Leading plan q r → l ≠ r → apart l r = false := by
  constructor
  · intro hs l r hl hr hne
    exact absurd (find?_constant_iff.mp hs.orderless l r hl hr) hne
  · intro hapart
    have hone : ∀ l r, Leading plan q l → Leading plan q r → l = r := by
      intro l r hl hr
      by_contra hne
      have htrue := apart_of_leading hv hl hr hne
      rw [hapart l r hl hr hne] at htrue
      cases htrue
    exact ⟨find?_constant_iff.mpr hone, fun r hr hb => ⟨r, permitted_of_single hone hr hb⟩⟩

end Selection

section Scenario
open BookedTotals (flatRate standardPlan)

-- One rule for stays of three nights at most and one for longer stays, at one priority.
def shortStays : RateRule := { flatRate 0 with maximumStay := some 3 }

def longStays : RateRule := { flatRate 1 with minimumStay := 4 }

def byLength : RatePlan := { standardPlan 0 with rules := [shortStays, longStays] }

def anyNight : Selection where
  categoryId := 0
  programId := none
  date := 20000
  buyout := false

def fiveNights : StayFacts where
  arrival := 20000
  nights := 5
  occupancy := 2
  advanceDays := 30

theorem leading_of_all {plan : RatePlan} {q : Selection} {rule : RateRule} (hm : rule ∈ plan.rules)
    (hall : plan.rules.all (fun r => q.matching r && r.priority == rule.priority) = true) :
    Leading plan q rule := by
  have hrow : ∀ r ∈ plan.rules, q.matching r = true ∧ r.priority = rule.priority := by
    simpa using hall
  exact ⟨hm, (hrow rule hm).1, fun r hr _ => (hrow r hr).2.le⟩

-- The validator accepts the plan, the first rule governs the night and refuses the stay.
theorem length_rules_shadow_each_other : validate byLength = .ok () ∧
    (∃ xs ys, Loading byLength xs ∧ Loading byLength ys ∧
      xs.find? anyNight.matching = some shortStays ∧
      ys.find? anyNight.matching = some longStays) ∧
    Leading byLength anyNight longStays ∧ blocked longStays fiveNights true false = false ∧
    anyNight.rule byLength fiveNights true false =
      .error (rateFailure "The governing rate rule does not permit this stay.") := by
  have hshort : Leading byLength anyNight shortStays :=
    leading_of_all (by simp [byLength]) (by decide)
  have hlong : Leading byLength anyNight longStays :=
    leading_of_all (by simp [byLength]) (by decide)
  obtain ⟨xs, hxs, hfx⟩ := exists_ordering_find? hshort
  obtain ⟨ys, hys, hfy⟩ := exists_ordering_find? hlong
  exact ⟨by decide, ⟨xs, ys, hxs, hys, hfx, hfy⟩, hlong, by decide +kernel, by decide +kernel⟩

theorem standardPlan_settled : validate (standardPlan 0) = .ok () ∧
    Settled (standardPlan 0) anyNight fiveNights true false := by
  have hv : validate (standardPlan 0) = .ok () := by decide
  refine ⟨hv, (selection_settled_iff hv).mpr fun l r hl hr hne => ?_⟩
  have honly : ∀ x, Leading (standardPlan 0) anyNight x → x = flatRate 0 := fun x hx => by
    simpa [standardPlan] using hx.mem
  exact absurd ((honly l hl).trans (honly r hr).symm) hne

end Scenario
end RatePlanPublicationValidator
