import LodgeOps.Schema.Database

namespace CommercialPromotionService
open Schema

def intMax : ℤ := 9223372036854775807

def within (lower upper : Option ℤ) (d : ℤ) : Bool :=
  lower.all (fun l => decide (l ≤ d)) && upper.all fun u => decide (d ≤ u)

def genericVoucherError : Failure :=
  .validation "voucher_code" "The promotion could not be applied."

section Vouchers

def alphanumeric (c : Char) : Bool := c.isAlphanum

def canonicalize (code : String) : Option String :=
  let canonical := upper (trim code)
  let cs := canonical.toList
  if 6 ≤ cs.length ∧ cs.length ≤ 64 ∧ cs.all (fun c => alphanumeric c || c == '-') = true ∧
      cs.head?.any alphanumeric = true ∧ cs.getLast?.any alphanumeric = true
  then some canonical else none

structure PromotionRequest where
  propertyId : ℕ
  ratePlanId : ℕ
  resourceCategoryId : ℕ
  programId : Option ℕ
  nightCount : ℤ
  voucherCode : Option String
  voucherId : Option ℕ
  amendmentOfReservationId : Option ℕ
  sessionHash : Option String

def enteredVoucher (db : Database) (propertyId : ℕ) (code : String) : Except Failure Voucher := do
  let canonical ← found (canonicalize code) genericVoucherError
  let voucher ← found (db.vouchers.first? fun v => v.code == canonical && v.isActive &&
    v.propertyId.all (· == propertyId)) genericVoucherError
  refuse (voucher.validFrom.any db.isFuture = true ∨
    voucher.validUntil.any (fun t => decide (t < db.clock)) = true) genericVoucherError
  .ok voucher

def retainedVoucher (db : Database) (voucherId reservationId : ℕ) : Except Failure Voucher :=
  found (db.vouchers.first? fun v => v.id == voucherId &&
    (db.voucherRedemptions.first? fun r =>
      r.voucherId == v.id && r.reservationId == reservationId).isSome) genericVoucherError

def voucher (db : Database) (input : PromotionRequest) : Except Failure (Option Voucher) :=
  match input.voucherCode, input.voucherId, input.amendmentOfReservationId with
  | some code, _, _ => some <$> enteredVoucher db input.propertyId code
  | none, some v, some r => some <$> retainedVoucher db v r
  | none, _, _ => .ok none

end Vouchers

section Eligibility

structure Eligible where
  promotion : CommercialPromotion
  resolvedVoucherId : Option ℕ
  resolvedSessionHash : Option String
deriving DecidableEq

def published (db : Database) (propertyId : ℕ) (currency : String) (businessDate : ℤ) :
    List CommercialPromotion :=
  (db.promotions.select fun p => p.state == .published && p.currency == upper currency &&
    p.propertyId.all (· == propertyId) && within p.validFrom p.validUntil businessDate).insertionSort
    fun p q => q.priority < p.priority ∨ (p.priority = q.priority ∧ p.id ≤ q.id)

def admits (allowed : List ℕ) (i : Option ℕ) : Bool := allowed.isEmpty || i.any allowed.contains

def applies (input : PromotionRequest) (voucher : Option Voucher) (p : CommercialPromotion) : Bool :=
  (!p.requiresCode || voucher.map Voucher.commercialPromotionId == some p.id) &&
    admits p.applicability.ratePlanIds (some input.ratePlanId) &&
    admits p.applicability.resourceCategoryIds (some input.resourceCategoryId) &&
    admits p.applicability.programIds input.programId &&
    within (some p.applicability.minimumStay) p.applicability.maximumStay input.nightCount

def unstacked : List String → List CommercialPromotion → List CommercialPromotion
  | _, [] => []
  | seen, p :: ps =>
    match p.stackingGroup with
    | none => p :: unstacked seen ps
    | some group =>
      if seen.contains group then unstacked seen ps else p :: unstacked (group :: seen) ps

def combined (promotions : List CommercialPromotion) : List CommercialPromotion :=
  match promotions.find? CommercialPromotion.exclusive with
  | some exclusive => [exclusive]
  | none => unstacked [] promotions

def eligible (db : Database) (input : PromotionRequest) (currency : String) (businessDate : ℤ) :
    Except Failure (List Eligible) := do
  let voucher ← voucher db input
  let selected := (published db input.propertyId currency businessDate).filter
    (applies input voucher)
  .ok ((combined selected).map fun p =>
    { promotion := p
      resolvedVoucherId := if p.requiresCode then voucher.map Voucher.id else none
      resolvedSessionHash := input.sessionHash })

end Eligibility

section Discounts

def percentage (amount basisPoints : ℤ) : Except Failure ℤ :=
  if amount < 0 ∨ basisPoints < 0 ∨ (amount ≠ 0 ∧ (intMax - 5000).tdiv amount < basisPoints)
  then .error (.validation "promotion"
    "The promotion amount is outside supported integer-money limits.")
  else .ok ((amount * basisPoints + 5000).tdiv 10000)

structure Discounts where
  remaining : ℤ
  discountMinor : ℤ
  lines : List BookingQuoteLine
  promotionSnapshot : List PromotionSnapshot
  voucherId : Option ℕ
  sessionHash : Option String

def discountAmount (remaining : ℤ) (p : CommercialPromotion) : Except Failure ℤ :=
  match p.discountType with
  | .fixed => .ok (min remaining p.fixedAmountMinor)
  | .percentage => min remaining <$> percentage remaining p.percentageBasisPoints

def facts (e : Eligible) : PromotionFacts where
  promotionId := e.promotion.id
  promotionVersion := e.promotion.version
  voucherId := e.resolvedVoucherId
  priority := e.promotion.priority
  exclusive := e.promotion.exclusive
  stackingGroup := e.promotion.stackingGroup

def discountLine (e : Eligible) (index : ℕ) (remaining amount : ℤ) : BookingQuoteLine where
  type := .discount
  description := e.promotion.publicLabel
  serviceOn := none
  basis := .eligibleSubtotal
  calculationOrder := 300 + index
  quantityThousandths := 1000
  unitAmountMinor := -amount
  preTotalMinor := remaining
  netAmountMinor := -amount
  taxAmountMinor := 0
  grossAmountMinor := -amount
  postTotalMinor := remaining - amount
  roundingMode := .halfUp
  metadata := .promotion (facts e)

def snapshot (e : Eligible) (amount : ℤ) : PromotionSnapshot where
  toPromotionFacts := facts e
  publicLabel := e.promotion.publicLabel
  discountType := e.promotion.discountType
  percentageBasisPoints := e.promotion.percentageBasisPoints
  fixedAmountMinor := e.promotion.fixedAmountMinor
  discountMinor := amount

def discounted (d : Discounts) (e : Eligible) (index : ℕ) (amount : ℤ) : Discounts where
  remaining := d.remaining - amount
  discountMinor := d.discountMinor + amount
  lines := d.lines ++ [discountLine e index d.remaining amount]
  promotionSnapshot := d.promotionSnapshot ++ [snapshot e amount]
  voucherId := d.voucherId.orElse fun _ => e.resolvedVoucherId
  sessionHash := d.sessionHash.orElse fun _ => e.resolvedSessionHash

def applyPromotion (d : Discounts) (x : Eligible × ℕ) : Except Failure Discounts := do
  let amount ← discountAmount d.remaining x.1.promotion
  .ok (if amount ≤ 0 then d else discounted d x.1 x.2 amount)

def undiscounted (eligibleMinor : ℤ) : Discounts :=
  ⟨max 0 eligibleMinor, 0, [], [], none, none⟩

def calculate (promotions : List Eligible) (eligibleMinor : ℤ) : Except Failure Discounts :=
  promotions.zipIdx.foldlM applyPromotion (undiscounted eligibleMinor)

end Discounts
end CommercialPromotionService
