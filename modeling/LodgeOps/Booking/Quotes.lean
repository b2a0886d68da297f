import LodgeOps.Booking.Promotions
import LodgeOps.Inventory.AvailabilityQuery

namespace BookingQuoteService
open Schema Transaction CommercialPromotionService

section Arithmetic

def outsideLimits (field : String) : Failure :=
  .validation field "The calculated amount is outside supported integer-money limits."

def checkedMultiply (left right : ℤ) (field : String) : Except Failure ℤ :=
  if left < 0 ∨ right < 0 ∨ (left ≠ 0 ∧ intMax.tdiv left < right) then .error (outsideLimits field)
  else .ok (left * right)

def addChecked (field : String) (total value : ℤ) : Except Failure ℤ :=
  if 0 < value ∧ intMax - value < total then .error (outsideLimits field) else .ok (total + value)

def checkedAdd (values : List ℤ) (field : String) : Except Failure ℤ :=
  values.foldlM (addChecked field) 0

def halfEven (absolute denominator : ℤ) : ℤ :=
  let quotient := absolute / denominator
  let twice := 2 * (absolute % denominator)
  if twice < denominator ∨ (twice = denominator ∧ quotient % 2 = 0) then quotient else quotient + 1

def roundedMagnitude (absolute denominator : ℤ) : RoundingMode → ℤ
  | .down => absolute / denominator
  | .up => (absolute + denominator - 1) / denominator
  | .halfEven => halfEven absolute denominator
  | .none | .halfUp => (absolute + denominator / 2) / denominator

def roundRatio (numerator denominator : ℤ) (mode : RoundingMode) : Except Failure ℤ :=
  if denominator ≤ 0 then .error (.logic "A positive rounding denominator is required.")
  else .ok ((if numerator < 0 then -1 else 1) * roundedMagnitude |numerator| denominator mode)

def basisPointAdjustment (amount basisPoints : ℤ) (field : String) : Except Failure ℤ :=
  if amount < 0 ∨ (amount ≠ 0 ∧ intMax.tdiv amount < |basisPoints|)
  then .error (.validation field
    "The calculated adjustment is outside supported integer-money limits.")
  else roundRatio (amount * basisPoints) 10000 .halfUp

end Arithmetic

section Dates

def localDay (db : Database) (propertyId : ℕ) (t : ℤ) : ℤ :=
  (t + db.catalogue.timezone propertyId t) / 86400

def dayOfWeekIso (d : ℤ) : ℤ := (d + 3) % 7 + 1

def monthNames : List String :=
  ["Jan", "Feb", "Mar", "Apr", "May", "Jun", "Jul", "Aug", "Sep", "Oct", "Nov", "Dec"]

-- Days are counted from 1 January 1970; years start in March while the date is split.
def formatDay (d : ℤ) : String :=
  let z := d + 719468
  let era := z / 146097
  let dayOfEra := z % 146097
  let yearOfEra := (dayOfEra - dayOfEra / 1460 + dayOfEra / 36524 - dayOfEra / 146096) / 365
  let dayOfYear := dayOfEra - (365 * yearOfEra + yearOfEra / 4 - yearOfEra / 100)
  let shifted := (5 * dayOfYear + 2) / 153
  let day := dayOfYear - (153 * shifted + 2) / 5 + 1
  let month := if shifted < 10 then shifted + 2 else shifted - 10
  let year := yearOfEra + era * 400 + (if shifted < 10 then 0 else 1)
  (monthNames[month.toNat]?).getD "" ++ " " ++ toString day ++ ", " ++ toString year

end Dates

section Input

structure BookingInput where
  propertyId : Option ℕ
  resourceCategoryId : Option ℕ
  ratePlanId : Option ℕ
  startsAt : Option ℤ
  endsAt : Option ℤ
  adults : ℤ := 1
  children : ℤ := 0
  infants : ℤ := 0
  resourceId : Option ℕ := none
  programId : Option ℕ := none
  isBuyout : Bool := false
  optionalServices : List OptionalService := []
  voucherCode : Option String := none
  voucherId : Option ℕ := none
  promotionSessionHash : Option String := none
  amendmentOfReservationId : Option ℕ := none

-- The request once its required fields are present and its quantities are accepted.
structure Request where
  propertyId : ℕ
  categoryId : ℕ
  ratePlanId : ℕ
  starts : ℤ
  ends : ℤ
  adults : ℤ
  children : ℤ
  infants : ℤ
  input : BookingInput

def Request.occupancy (q : Request) : ℤ := q.adults + q.children

def rateFailure (message : String) : Failure := .validation "rate_plan_id" message

def requested (input : BookingInput) : Except Failure Request := do
  let starts ← found input.startsAt (.validation "starts_at" "Arrival is required.")
  let ends ← found input.endsAt (.validation "ends_at" "Departure is required.")
  let missing := rateFailure "Property, accommodation category, and rate plan are required."
  let propertyId ← found input.propertyId missing
  let categoryId ← found input.resourceCategoryId missing
  let ratePlanId ← found input.ratePlanId missing
  refuse (ends ≤ starts) (.validation "ends_at" "Departure must be after arrival.")
  refuse (input.adults < 1 ∨ input.children < 0 ∨ input.infants < 0 ∨
      1000 < input.adults + input.children)
    (.validation "adults" "Guest quantities must be positive and within supported capacity.")
  .ok ⟨propertyId, categoryId, ratePlanId, starts, ends, input.adults, input.children,
    input.infants, input⟩

structure Stay where
  arrival : ℤ
  departure : ℤ
  category : ResourceCategory
  resource : Option Resource
  plan : RatePlan
  nights : ℕ

def stayCategory (db : Database) (q : Request) : Except Failure ResourceCategory :=
  found ((db.catalogue.category? q.categoryId).filter fun c =>
    c.propertyId == q.propertyId && c.countsAsStay && c.isActive) .modelNotFound

def stayResource (db : Database) (q : Request) (category : ResourceCategory) :
    Except Failure (Option Resource) :=
  match q.input.resourceId with
  | none => .ok none
  | some i => do
    let r ← found ((db.catalogue.resource? i).filter fun r =>
      r.propertyId == q.propertyId && r.categoryId == category.id && r.isActive) .modelNotFound
    refuse ((r.capacity : ℤ) < q.occupancy) (.validation "resource_id"
      "The selected accommodation does not fit the requested occupancy.")
    .ok (some r)

def assertOffered (db : Database) (q : Request) (category : ResourceCategory)
    (resource : Option Resource) : Except Failure Unit := do
  let (categories, resources) ← AvailabilityQuery.forStay db q.propertyId q.starts q.ends
    q.occupancy (some category.id) q.input.amendmentOfReservationId
  match resource with
  | some r =>
    refuse (resources.any (fun row => row.id == r.id && row.available) = false)
      (.validation "resource_id" "The selected accommodation is no longer available.")
  | none =>
    refuse (categories.any (fun row => row.id == category.id && row.available) = false)
      (.validation "resource_category_id"
        "This accommodation category is no longer available.")

def publishedPlan (db : Database) (q : Request) (arrival departure : ℤ) :
    Except Failure RatePlan := do
  let plan ← found ((db.ratePlans.find? q.ratePlanId).filter fun p =>
    p.propertyId == q.propertyId && p.isActive && p.state == .published) .modelNotFound
  refuse (plan.activeFrom.any (fun d => decide (arrival < d)) = true ∨
      plan.activeUntil.any (fun d => decide (d < departure - 1)) = true)
    (rateFailure "The rate plan is not active for the complete stay.")
  refuse (q.occupancy < plan.minimumOccupancy ∨
      plan.maximumOccupancy.any (fun m => decide (m < q.occupancy)) = true)
    (.validation "adults" "The requested occupancy is outside this rate plan.")
  .ok plan

def stayFor (db : Database) (q : Request) : Except Failure Stay := do
  refuse ((db.properties.find? q.propertyId).any Property.isActive = false) .modelNotFound
  let arrival := localDay db q.propertyId q.starts
  let departure := localDay db q.propertyId q.ends
  let category ← stayCategory db q
  let resource ← stayResource db q category
  refuse (q.input.amendmentOfReservationId.any (fun i =>
      !(db.reservation? i).any fun r => r.propertyId == q.propertyId) = true)
    (.validation "reservation_id" "The amendment reservation is outside this property.")
  assertOffered db q category resource
  let plan ← publishedPlan db q arrival departure
  refuse (departure - arrival < 1)
    (.validation "ends_at" "A stay must include at least one night.")
  .ok ⟨arrival, departure, category, resource, plan, (departure - arrival).toNat⟩

end Input

section Rates

def orderedRules (plan : RatePlan) : List RateRule :=
  plan.rules.insertionSort fun a b => b.priority < a.priority ∨ (a.priority = b.priority ∧ a.id ≤ b.id)

def governs (rule : RateRule) (categoryId : ℕ) (programId : Option ℕ) (date : ℤ) (buyout : Bool) :
    Bool :=
  rule.resourceCategoryId.all (· == categoryId) &&
    (rule.programId.isNone || rule.programId == programId) &&
    within rule.startsOn rule.endsOn date &&
    (rule.weekdays.isEmpty || rule.weekdays.contains (dayOfWeekIso date)) &&
    (!rule.buyoutOnly || buyout)

structure StayFacts where
  arrival : ℤ
  nights : ℤ
  occupancy : ℤ
  advanceDays : ℤ

def blocked (rule : RateRule) (f : StayFacts) (arrival departure : Bool) : Bool :=
  rule.blackout || rule.stopSell || decide (f.nights < rule.minimumStay) ||
    rule.maximumStay.any (fun m => decide (m < f.nights)) ||
    rule.minimumAdvanceDays.any (fun m => decide (f.advanceDays < m)) ||
    rule.maximumAdvanceDays.any (fun m => decide (m < f.advanceDays)) ||
    rule.minimumOccupancy.any (fun m => decide (f.occupancy < m)) ||
    rule.maximumOccupancy.any (fun m => decide (m < f.occupancy)) ||
    (arrival && !rule.allowedArrivalDays.isEmpty &&
      !rule.allowedArrivalDays.contains (dayOfWeekIso f.arrival)) ||
    (arrival && rule.closedToArrival) || (departure && rule.closedToDeparture)

def ruleFor (plan : RatePlan) (categoryId : ℕ) (programId : Option ℕ) (date : ℤ)
    (f : StayFacts) (buyout arrival departure : Bool) : Except Failure RateRule := do
  let rule ← found ((orderedRules plan).find? fun r => governs r categoryId programId date buyout)
    (rateFailure "No sellable rate is available for every requested night.")
  refuse (blocked rule f arrival departure = true)
    (rateFailure "The governing rate rule does not permit this stay.")
  .ok rule

structure NightlyPrice where
  quantity : ℤ
  unit : ℤ
  amount : ℤ
  basis : QuoteBasis

def byGuestCategory (rule : RateRule) : Bool :=
  rule.adultAmountMinor.isSome || rule.childAmountMinor.isSome || rule.infantAmountMinor.isSome

def guestPrice (rule : RateRule) (adults children infants : ℤ) : Except Failure NightlyPrice := do
  let adultUnit := rule.adultAmountMinor.getD rule.amountMinor
  let forAdults ← checkedMultiply adultUnit adults "adults"
  let forChildren ← checkedMultiply (rule.childAmountMinor.getD adultUnit) children "children"
  let forInfants ← checkedMultiply (rule.infantAmountMinor.getD 0) infants "infants"
  let amount ← checkedAdd [forAdults, forChildren, forInfants,
    if adults = 1 then rule.singleSupplementMinor else 0] "guest pricing"
  let quantity := adults + children + infants
  .ok ⟨quantity, if 0 < quantity then amount.tdiv quantity else 0, amount, .guestCategories⟩

def unitPrice (rule : RateRule) (adults children : ℤ) : Except Failure NightlyPrice := do
  let quantity := if rule.priceType = .perPerson then adults + children else 1
  let amount ← checkedMultiply rule.amountMinor quantity "guest pricing"
  .ok ⟨quantity, rule.amountMinor, amount,
    if rule.priceType = .perPerson then .perPersonNight else .perNight⟩

def groupTier? (rule : RateRule) (guests : ℤ) : Option GroupTier :=
  (rule.groupTiers.insertionSort fun a b =>
    b.minimumGuests.getD 0 ≤ a.minimumGuests.getD 0).find? fun t =>
      decide (t.minimumGuests.getD intMax ≤ guests)

def adjusted (amount basisPoints : ℤ) (field : String) : Except Failure ℤ := do
  let adjustment ← basisPointAdjustment amount basisPoints field
  checkedAdd [amount, adjustment] field

def basePrice (rule : RateRule) (adults children infants : ℤ) : Except Failure NightlyPrice :=
  if byGuestCategory rule then guestPrice rule adults children infants
  else unitPrice rule adults children

def grouped (rule : RateRule) (guests amount : ℤ) : Except Failure ℤ :=
  match groupTier? rule guests with
  | some tier => adjusted amount tier.adjustmentBasisPoints "group tier"
  | none => .ok amount

def stayAdjusted (rule : RateRule) (amount : ℤ) : Except Failure ℤ :=
  if rule.lengthOfStayAdjustmentBasisPoints ≠ 0
  then adjusted amount rule.lengthOfStayAdjustmentBasisPoints "length_of_stay"
  else .ok amount

def nightlyPrice (rule : RateRule) (adults children infants : ℤ) : Except Failure NightlyPrice := do
  let price ← basePrice rule adults children infants
  let tiered ← grouped rule (adults + children) price.amount
  let amount ← stayAdjusted rule tiered
  refuse (amount < 0 ∨ intMax < amount)
    (rateFailure "The calculated nightly amount is outside supported limits.")
  .ok { price with amount := amount }

end Rates

section Lines

def grossTotal (lines : List BookingQuoteLine) : ℤ :=
  (lines.map BookingQuoteLine.grossAmountMinor).sum

-- A line that is charged as it stands, after the lines already on the quote.
def chargeLine (lines : List BookingQuoteLine) (type : QuoteLineType) (description : String)
    (serviceOn : Option ℤ) (basis : QuoteBasis) (order quantity unit amount : ℤ)
    (mode : RoundingMode) (metadata : QuoteLineMetadata) : BookingQuoteLine where
  type := type
  description := description
  serviceOn := serviceOn
  basis := basis
  calculationOrder := order
  quantityThousandths := quantity * 1000
  unitAmountMinor := unit
  preTotalMinor := grossTotal lines
  netAmountMinor := amount
  taxAmountMinor := 0
  grossAmountMinor := amount
  postTotalMinor := grossTotal lines + amount
  roundingMode := mode
  metadata := metadata

def stayFacts (db : Database) (q : Request) (s : Stay) : StayFacts where
  arrival := s.arrival
  nights := s.nights
  occupancy := q.occupancy
  advanceDays := s.arrival - localDay db q.propertyId db.clock

def nightLine (db : Database) (q : Request) (s : Stay) (lines : List BookingQuoteLine)
    (night : ℕ) : Except Failure (List BookingQuoteLine) := do
  let serviceOn := s.arrival + night
  let rule ← ruleFor s.plan s.category.id q.input.programId serviceOn (stayFacts db q s)
    q.input.isBuyout (night == 0) false
  let price ← nightlyPrice rule q.adults q.children q.infants
  .ok (lines ++ [chargeLine lines .nightlyRate (s.category.name ++ " · " ++ formatDay serviceOn)
    (some serviceOn) price.basis (100 + night) price.quantity price.unit price.amount .halfUp
    (.nightly s.plan.id s.plan.version rule.id rule.version rule.priceType serviceOn)])

def nightLines (db : Database) (q : Request) (s : Stay) : Except Failure (List BookingQuoteLine) :=
  (List.range s.nights).foldlM (nightLine db q s) []

def programLines (db : Database) (q : Request) (s : Stay) (lines : List BookingQuoteLine) :
    Except Failure (List BookingQuoteLine) :=
  match q.input.programId with
  | none => .ok lines
  | some i => do
    let program ← found ((db.programs.find? i).filter fun p =>
      p.propertyId == q.propertyId && p.isActive) .modelNotFound
    if program.priceMinor ≤ 0 then .ok lines
    else do
      refuse (program.currency ≠ s.plan.currency) (.validation "program_id"
        "The selected program currency does not match the rate plan.")
      .ok (lines ++ [chargeLine lines .service program.name (some s.arrival) .perProgram 200 1
        program.priceMinor program.priceMinor .none (.program program.id)])

def keyById (services : List OptionalService) : List OptionalService :=
  services.foldl (fun kept x =>
    if kept.any (fun y => y.id == x.id) then kept.map fun y => if y.id = x.id then x else y
    else kept ++ [x]) []

def quoteBasis : QuantityBasis → QuoteBasis
  | .perStay => .perStay
  | .perNight => .perNight
  | .perPerson => .perPerson
  | .perPersonNight => .perPersonNight

def multiplier (q : Request) (s : Stay) : QuantityBasis → Except Failure ℤ
  | .perNight => .ok s.nights
  | .perPerson => .ok q.occupancy
  | .perPersonNight => checkedMultiply q.occupancy s.nights "optional_services"
  | .perStay => .ok 1

def serviceAmount (service : RatePlanService) (unit quantity : ℤ) : Except Failure ℤ :=
  if service.selectionType = .included then .ok 0
  else checkedMultiply unit quantity "optional_services"

def pricedService (q : Request) (s : Stay) (service : RatePlanService) (item : CatalogItem)
    (requestedQuantity : ℤ) (lines : List BookingQuoteLine) :
    Except Failure (List BookingQuoteLine) := do
  let factor ← multiplier q s service.quantityBasis
  let quantity ← checkedMultiply requestedQuantity factor "optional_services"
  let unit := service.amountMinor.getD item.priceMinor
  let included := service.selectionType = .included
  let amount ← serviceAmount service unit quantity
  .ok (lines ++ [chargeLine lines (if included then .includedService else .optionalService)
    (item.name ++ if included then " · included" else "") none (quoteBasis service.quantityBasis)
    (220 + service.priority) quantity (if included then 0 else unit) amount .none
    (.service service.id service.version service.catalogItemId service.selectionType)])

def serviceLine (db : Database) (q : Request) (s : Stay) (lines : List BookingQuoteLine)
    (service : RatePlanService) : Except Failure (List BookingQuoteLine) := do
  let item ← found (db.catalogItems.find? service.catalogItemId) .modelNotFound
  refuse (item.isActive = false ∨ item.currency ≠ s.plan.currency) (.validation
    "optional_services" "A configured service is unavailable or uses a different currency.")
  let selected := (keyById q.input.optionalServices).find? fun x => x.id == service.catalogItemId
  if service.selectionType = .optional ∧ selected = none then .ok lines
  else do
    let requestedQuantity := (selected.bind OptionalService.quantity).getD service.defaultQuantity
    refuse (requestedQuantity < 1 ∨ service.maximumQuantity < requestedQuantity) (.validation
      "optional_services" "A selected service quantity is outside its configured limit.")
    pricedService q s service item requestedQuantity lines

def orderedServices (plan : RatePlan) : List RatePlanService :=
  (plan.services.insertionSort fun a b =>
    a.priority < b.priority ∨ (a.priority = b.priority ∧ a.id ≤ b.id)).filter RatePlanService.isActive

def baseLines (db : Database) (q : Request) (s : Stay) :
    Except Failure (List BookingQuoteLine) := do
  let nightly ← nightLines db q s
  let _ ← ruleFor s.plan s.category.id q.input.programId s.departure (stayFacts db q s)
    q.input.isBuyout false true
  let withProgram ← programLines db q s nightly
  (orderedServices s.plan).foldlM (serviceLine db q s) withProgram

end Lines

section Taxes

def taxOnLine (rule : TaxRule) (denominator lineBase : ℤ) : Except Failure ℤ := do
  let product ← checkedMultiply lineBase rule.percentageBasisPoints "tax"
  roundRatio product denominator rule.roundingMode

-- The last line takes what is left of the discount.
def lineTaxes (rule : TaxRule) (denominator gross discount : ℤ) :
    List BookingQuoteLine → ℤ → Except Failure (List ℤ)
  | [], _ => .ok []
  | [l], remaining => do
    let tax ← taxOnLine rule denominator (l.grossAmountMinor - remaining)
    .ok [tax]
  | l :: m :: ls, remaining => do
    let product ← checkedMultiply discount l.grossAmountMinor "tax"
    let allocated := product.tdiv gross
    let tax ← taxOnLine rule denominator (l.grossAmountMinor - allocated)
    let taxes ← lineTaxes rule denominator gross discount (m :: ls) (remaining - allocated)
    .ok (tax :: taxes)

def taxForRule (rule : TaxRule) (taxableLines : List BookingQuoteLine)
    (taxableBase discountToAllocate : ℤ) : Except Failure ℤ :=
  match rule.calculationType with
  | .fixed => .ok rule.fixedAmountMinor
  | .percentage => do
    let denominator := if rule.isInclusive then 10000 + rule.percentageBasisPoints else 10000
    if rule.roundingScope = .total then taxOnLine rule denominator taxableBase
    else do
      let positiveLines := taxableLines.filter fun l => decide (0 < l.grossAmountMinor)
      if positiveLines = [] ∨ taxableBase = 0 then .ok 0
      else do
        let taxes ← lineTaxes rule denominator (grossTotal positiveLines) discountToAllocate
          positiveLines discountToAllocate
        checkedAdd taxes "tax"

structure Taxes where
  taxTotal : ℤ
  exclusiveTax : ℤ
  lines : List BookingQuoteLine

def taxLine (rule : TaxRule) (tax runningTotal : ℤ) : BookingQuoteLine where
  type := .tax
  description := rule.name ++ if rule.isInclusive then " · included" else ""
  serviceOn := none
  basis := if rule.taxableDiscountAllocation = .afterTax then .preDiscountTotal
    else .discountedTotal
  calculationOrder := 400 + rule.priority
  quantityThousandths := 1000
  unitAmountMinor := if rule.isInclusive then -tax else 0
  preTotalMinor := runningTotal
  netAmountMinor := if rule.isInclusive then -tax else 0
  taxAmountMinor := tax
  grossAmountMinor := if rule.isInclusive then 0 else tax
  postTotalMinor := runningTotal
  roundingMode := rule.roundingMode
  metadata := .tax rule.id rule.version rule.currency rule.isInclusive rule.roundingScope
    rule.taxableDiscountAllocation

def exclusiveWith (rule : TaxRule) (exclusiveTax tax : ℤ) : Except Failure ℤ :=
  if rule.isInclusive then .ok exclusiveTax else checkedAdd [exclusiveTax, tax] "tax"

def taxWith (taxableLines : List BookingQuoteLine) (baseTotal discountTotal : ℤ) (t : Taxes)
    (rule : TaxRule) : Except Failure Taxes := do
  let taxableBase := baseTotal - discountTotal
  let ruleTaxableBase := if rule.taxableDiscountAllocation = .afterTax then baseTotal
    else taxableBase
  let tax ← taxForRule rule taxableLines ruleTaxableBase (baseTotal - ruleTaxableBase)
  let taxTotal ← checkedAdd [t.taxTotal, tax] "tax"
  let exclusiveTax ← exclusiveWith rule t.exclusiveTax tax
  .ok ⟨taxTotal, exclusiveTax, t.lines ++ [taxLine rule tax (taxableBase + exclusiveTax)]⟩

def applicableTaxes (db : Database) (q : Request) (s : Stay) : List TaxRule :=
  (db.taxRules.select fun t => t.propertyId == q.propertyId && t.isActive &&
    t.state == .published && t.currency.all (· == upper s.plan.currency) &&
    within t.activeFrom none s.arrival && within none t.activeUntil (s.departure - 1)).insertionSort
    fun a b => b.priority ≤ a.priority

end Taxes

section Preview

structure Calculation where
  inputs : QuoteInputs
  currency : String
  subtotalMinor : ℤ
  discountMinor : ℤ
  taxMinor : ℤ
  totalMinor : ℤ
  depositPolicySnapshot : Option DepositPolicy
  cancellationPolicySnapshot : Option (List CancellationTier)
  calculationSnapshot : CalculationSnapshot
  expiresAt : ℤ
  lines : List BookingQuoteLine
deriving DecidableEq

def promotionRequest (q : Request) (s : Stay) : PromotionRequest where
  propertyId := q.propertyId
  ratePlanId := q.ratePlanId
  resourceCategoryId := q.categoryId
  programId := q.input.programId
  nightCount := s.nights
  voucherCode := q.input.voucherCode.filter fun c => c != "" && c != "0"
  voucherId := q.input.voucherId
  amendmentOfReservationId := q.input.amendmentOfReservationId
  sessionHash := q.input.promotionSessionHash

def depositPolicyFor (db : Database) (plan : RatePlan) : Option DepositPolicy :=
  ((plan.depositPolicyId.bind db.depositPolicies.find?).orElse fun _ =>
    db.depositPolicies.first? fun p => p.propertyId == plan.propertyId && p.isActive &&
      p.isDefault).map StoredDepositPolicy.policy

def cancellationPolicyFor (db : Database) (plan : RatePlan) : Option (List CancellationTier) :=
  ((plan.cancellationPolicyId.bind db.cancellationPolicies.find?).orElse fun _ =>
    db.cancellationPolicies.first? fun p => p.propertyId == plan.propertyId && p.isActive &&
      p.isDefault).map StoredCancellationPolicy.tiers

def quoteInputs (q : Request) (s : Stay) (d : Discounts) : QuoteInputs where
  propertyId := q.propertyId
  ratePlanId := s.plan.id
  resourceCategoryId := s.category.id
  resourceId := s.resource.map Resource.id
  programId := q.input.programId
  startsAt := q.starts
  endsAt := q.ends
  adults := q.adults
  children := q.children
  infants := q.infants
  optionalServices := keyById q.input.optionalServices
  voucherId := d.voucherId
  promotionSessionHash := d.sessionHash
  amendmentOfReservationId := q.input.amendmentOfReservationId

def calculationSnapshot (s : Stay) (d : Discounts) : CalculationSnapshot where
  ratePlanId := s.plan.id
  ratePlanVersion := s.plan.version
  ratePlanState := s.plan.state
  promotionVersions := d.promotionSnapshot
  voucherId := d.voucherId
  promotionSessionHash := d.sessionHash
  arrival := s.arrival
  departure := s.departure

def total (db : Database) (q : Request) (s : Stay) (baseTotal : ℤ) (d : Discounts) (t : Taxes) :
    Calculation where
  inputs := quoteInputs q s d
  currency := upper s.plan.currency
  subtotalMinor := baseTotal - d.discountMinor - (t.taxTotal - t.exclusiveTax)
  discountMinor := d.discountMinor
  taxMinor := t.taxTotal
  totalMinor := baseTotal - d.discountMinor + t.exclusiveTax
  depositPolicySnapshot := depositPolicyFor db s.plan
  cancellationPolicySnapshot := cancellationPolicyFor db s.plan
  calculationSnapshot := calculationSnapshot s d
  expiresAt := db.clock + db.quoteTtlMinutes * 60
  lines := t.lines

def preview (db : Database) (input : BookingInput) : Except Failure Calculation := do
  let q ← requested input
  let s ← stayFor db q
  let lines ← baseLines db q s
  let baseTotal := grossTotal lines
  let promotions ← eligible db (promotionRequest q s) s.plan.currency s.arrival
  let discounts ← calculate promotions baseTotal
  let taxes ← (applicableTaxes db q s).foldlM (taxWith lines baseTotal discounts.discountMinor)
    ⟨0, 0, lines ++ discounts.lines⟩
  .ok (total db q s baseTotal discounts taxes)

end Preview

section Storage

def Calculation.payload (c : Calculation) : QuotePayload where
  propertyId := c.inputs.propertyId
  ratePlanId := c.inputs.ratePlanId
  resourceCategoryId := c.inputs.resourceCategoryId
  resourceId := c.inputs.resourceId
  programId := c.inputs.programId
  currency := c.currency
  infants := c.inputs.infants
  subtotalMinor := c.subtotalMinor
  discountMinor := c.discountMinor
  taxMinor := c.taxMinor
  totalMinor := c.totalMinor
  inputs := c.inputs
  depositPolicySnapshot := c.depositPolicySnapshot
  cancellationPolicySnapshot := c.cancellationPolicySnapshot
  calculationSnapshot := c.calculationSnapshot
  lines := c.lines

def payload (q : BookingQuote) : QuotePayload where
  propertyId := q.propertyId
  ratePlanId := q.ratePlanId
  resourceCategoryId := q.resourceCategoryId
  resourceId := q.resourceId
  programId := q.programId
  currency := q.currency
  infants := q.infants
  subtotalMinor := q.subtotalMinor
  discountMinor := q.discountMinor
  taxMinor := q.taxMinor
  totalMinor := q.totalMinor
  inputs := q.inputs
  depositPolicySnapshot := q.depositPolicySnapshot
  cancellationPolicySnapshot := q.cancellationPolicySnapshot
  calculationSnapshot := q.calculationSnapshot
  lines := q.lines

def sortedLines (lines : List BookingQuoteLine) : List BookingQuoteLine :=
  lines.insertionSort fun a b => a.calculationOrder ≤ b.calculationOrder

def checksumFor (q : BookingQuote) : QuotePayload :=
  { payload q with lines := sortedLines q.lines }

def Calculation.toQuote (c : Calculation) (i : ℕ) : BookingQuote where
  id := i
  propertyId := c.inputs.propertyId
  ratePlanId := c.inputs.ratePlanId
  resourceCategoryId := c.inputs.resourceCategoryId
  resourceId := c.inputs.resourceId
  programId := c.inputs.programId
  reservationId := none
  status := .pending
  startsAt := c.inputs.startsAt
  endsAt := c.inputs.endsAt
  adults := c.inputs.adults
  children := c.inputs.children
  infants := c.inputs.infants
  currency := c.currency
  subtotalMinor := c.subtotalMinor
  discountMinor := c.discountMinor
  taxMinor := c.taxMinor
  totalMinor := c.totalMinor
  inputs := c.inputs
  depositPolicySnapshot := c.depositPolicySnapshot
  cancellationPolicySnapshot := c.cancellationPolicySnapshot
  calculationSnapshot := c.calculationSnapshot
  lines := c.lines
  checksum := { c.payload with lines := sortedLines c.lines }
  expiresAt := c.expiresAt

def create (input : BookingInput) : Tx BookingQuote := do
  let calculation ← check fun db => preview db input
  let db ← get
  set { db with quotes := db.quotes.insert calculation.toQuote }
  pure (calculation.toQuote db.quotes.next)

def amendmentInput (db : Database) (r : Reservation) (input : BookingInput) : BookingInput :=
  let source := (r.bookingQuoteId.bind db.quotes.find?).bind fun q =>
    q.calculationSnapshot.promotionSessionHash
  { input with
    promotionSessionHash := input.promotionSessionHash.orElse fun _ => source
    propertyId := some r.propertyId
    amendmentOfReservationId := some r.id
    voucherId := (db.voucherRedemptions.first? fun x => x.reservationId == r.id).map
      VoucherRedemption.voucherId }

def createAmendment (r : Reservation) (input : BookingInput) : Tx BookingQuote := do
  let db ← get
  create (amendmentInput db r input)

end Storage

section Commits
variable {db db' : Database} {input : BookingInput} {q : BookingQuote} {r : Reservation}

theorem commits_create (h : Commits (create input) db q db') :
    ∃ c, preview db input = .ok c ∧ q = c.toQuote db.quotes.next ∧
      Table.Appends db.quotes db'.quotes q ∧ db' = { db with quotes := db'.quotes } := by
  simp only [create, commits_bind, commits_check, commits_get, commits_set, commits_pure] at h
  obtain ⟨c, _, ⟨hc, rfl⟩, _, _, ⟨rfl, rfl⟩, _, _, rfl, rfl, rfl⟩ := h
  exact ⟨c, hc, rfl, Table.appends_insert, rfl⟩

theorem commits_createAmendment (h : Commits (createAmendment r input) db q db') :
    Commits (create (amendmentInput db r input)) db q db' := by
  simp only [createAmendment, commits_bind, commits_get] at h
  obtain ⟨_, _, ⟨rfl, rfl⟩, h⟩ := h
  exact h

end Commits
end BookingQuoteService
