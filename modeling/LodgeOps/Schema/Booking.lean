import LodgeOps.Schema.Ledger

namespace Schema

inductive PublicationState
  | draft | published | retired
deriving DecidableEq

inductive PriceType
  | perNight | perPerson
deriving DecidableEq

inductive SelectionType
  | included | optional
deriving DecidableEq

inductive QuantityBasis
  | perStay | perNight | perPerson | perPersonNight
deriving DecidableEq

inductive AmountType
  | percentage | fixed
deriving DecidableEq

inductive RoundingMode
  | none | halfUp | halfEven | up | down
deriving DecidableEq

inductive RoundingScope
  | total | line
deriving DecidableEq

inductive DiscountAllocation
  | beforeTax | afterTax
deriving DecidableEq

inductive BookingQuoteStatus
  | pending | committed | expired | superseded
deriving DecidableEq

inductive QuoteLineType
  | nightlyRate | service | includedService | optionalService | discount | tax
deriving DecidableEq

inductive QuoteBasis
  | guestCategories | perPersonNight | perNight | perProgram | perStay | perPerson
  | eligibleSubtotal | preDiscountTotal | discountedTotal
deriving DecidableEq

structure Property where
  id : ℕ
  isActive : Bool
deriving DecidableEq

structure CatalogItem where
  id : ℕ
  name : String
  currency : String
  priceMinor : ℤ
  costMinor : ℤ := 0
  trackStock : Bool := false
  isActive : Bool
deriving DecidableEq

structure GroupTier where
  minimumGuests : Option ℤ
  adjustmentBasisPoints : ℤ
deriving DecidableEq

structure RateRule where
  id : ℕ
  version : ℕ
  priority : ℤ
  resourceCategoryId : Option ℕ
  programId : Option ℕ
  startsOn : Option ℤ
  endsOn : Option ℤ
  weekdays : List ℤ
  priceType : PriceType
  amountMinor : ℤ
  adultAmountMinor : Option ℤ
  childAmountMinor : Option ℤ
  infantAmountMinor : Option ℤ
  singleSupplementMinor : ℤ
  groupTiers : List GroupTier
  lengthOfStayAdjustmentBasisPoints : ℤ
  minimumStay : ℤ
  maximumStay : Option ℤ
  minimumAdvanceDays : Option ℤ
  maximumAdvanceDays : Option ℤ
  minimumOccupancy : Option ℤ
  maximumOccupancy : Option ℤ
  allowedArrivalDays : List ℤ
  buyoutOnly : Bool
  blackout : Bool
  stopSell : Bool
  closedToArrival : Bool
  closedToDeparture : Bool
  name : String := ""
deriving DecidableEq

structure RatePlanService where
  id : ℕ
  version : ℕ
  catalogItemId : ℕ
  selectionType : SelectionType
  quantityBasis : QuantityBasis
  amountMinor : Option ℤ
  defaultQuantity : ℤ
  maximumQuantity : ℤ
  priority : ℤ
  isActive : Bool
deriving DecidableEq

structure StoredDepositPolicy where
  id : ℕ
  propertyId : ℕ
  isActive : Bool
  isDefault : Bool
  policy : DepositPolicy
deriving DecidableEq

structure StoredCancellationPolicy where
  id : ℕ
  propertyId : ℕ
  isActive : Bool
  isDefault : Bool
  tiers : List CancellationTier
deriving DecidableEq

structure RatePlan where
  id : ℕ
  propertyId : ℕ
  version : ℕ
  state : PublicationState
  isActive : Bool
  currency : String
  activeFrom : Option ℤ
  activeUntil : Option ℤ
  minimumOccupancy : ℤ
  maximumOccupancy : Option ℤ
  depositPolicyId : Option ℕ
  cancellationPolicyId : Option ℕ
  rules : List RateRule
  services : List RatePlanService
deriving DecidableEq

structure Applicability where
  ratePlanIds : List ℕ
  resourceCategoryIds : List ℕ
  programIds : List ℕ
  minimumStay : ℤ
  maximumStay : Option ℤ
deriving DecidableEq

structure CommercialPromotion where
  id : ℕ
  propertyId : Option ℕ
  version : ℕ
  state : PublicationState
  publicLabel : String
  currency : String
  discountType : AmountType
  percentageBasisPoints : ℤ
  fixedAmountMinor : ℤ
  validFrom : Option ℤ
  validUntil : Option ℤ
  applicability : Applicability
  requiresCode : Bool
  exclusive : Bool
  stackingGroup : Option String
  priority : ℤ
  usageLimit : Option ℕ := none
  perGuestLimit : Option ℕ := none
  perSessionLimit : Option ℕ := none
  budgetMinor : Option ℕ := none
  reinstateOnCancel : Bool := false
deriving DecidableEq

structure Voucher where
  id : ℕ
  commercialPromotionId : ℕ
  propertyId : Option ℕ
  code : String
  isActive : Bool
  validFrom : Option ℤ
  validUntil : Option ℤ
  usageLimit : Option ℕ := none
  perGuestLimit : Option ℕ := none
  perSessionLimit : Option ℕ := none
  budgetMinor : Option ℕ := none
deriving DecidableEq

inductive UsageState
  | reserved | confirmed | released | reinstated
deriving DecidableEq

structure CommercialPromotionUsage where
  id : ℕ
  commercialPromotionId : ℕ
  voucherId : Option ℕ
  bookingQuoteId : ℕ
  reservationId : ℕ
  guestId : Option ℕ
  sessionKeyHash : Option String
  state : UsageState
  currency : String
  discountMinor : ℤ
  supersededById : Option ℕ := none
deriving DecidableEq

structure VoucherRedemption where
  id : ℕ
  voucherId : ℕ
  bookingQuoteId : ℕ
  reservationId : ℕ
  guestId : Option ℕ
  sessionKeyHash : Option String
  state : UsageState
  currency : String
  discountMinor : ℤ
deriving DecidableEq

structure TaxRule where
  id : ℕ
  version : ℕ
  propertyId : ℕ
  name : String
  state : PublicationState
  isActive : Bool
  currency : Option String
  calculationType : AmountType
  percentageBasisPoints : ℤ
  fixedAmountMinor : ℤ
  isInclusive : Bool
  roundingScope : RoundingScope
  roundingMode : RoundingMode
  taxableDiscountAllocation : DiscountAllocation
  activeFrom : Option ℤ
  activeUntil : Option ℤ
  priority : ℤ
deriving DecidableEq

structure PromotionFacts where
  promotionId : ℕ
  promotionVersion : ℕ
  voucherId : Option ℕ
  priority : ℤ
  exclusive : Bool
  stackingGroup : Option String
deriving DecidableEq

structure PromotionSnapshot extends PromotionFacts where
  publicLabel : String
  discountType : AmountType
  percentageBasisPoints : ℤ
  fixedAmountMinor : ℤ
  discountMinor : ℤ
deriving DecidableEq

inductive QuoteLineMetadata
  | nightly (ratePlanId ratePlanVersion rateRuleId rateRuleVersion : ℕ) (priceType : PriceType)
      (businessDate : ℤ)
  | program (programId : ℕ)
  | service (ratePlanServiceId serviceVersion catalogItemId : ℕ) (selectionType : SelectionType)
  | promotion (facts : PromotionFacts)
  | tax (taxRuleId taxRuleVersion : ℕ) (currency : Option String) (inclusive : Bool)
      (roundingScope : RoundingScope) (taxableDiscountAllocation : DiscountAllocation)
deriving DecidableEq

structure BookingQuoteLine where
  type : QuoteLineType
  description : String
  serviceOn : Option ℤ
  basis : QuoteBasis
  calculationOrder : ℤ
  quantityThousandths : ℤ
  unitAmountMinor : ℤ
  preTotalMinor : ℤ
  netAmountMinor : ℤ
  taxAmountMinor : ℤ
  grossAmountMinor : ℤ
  postTotalMinor : ℤ
  roundingMode : RoundingMode
  metadata : QuoteLineMetadata
deriving DecidableEq

structure OptionalService where
  id : ℕ
  quantity : Option ℤ
deriving DecidableEq

structure QuoteInputs where
  propertyId : ℕ
  ratePlanId : ℕ
  resourceCategoryId : ℕ
  resourceId : Option ℕ
  programId : Option ℕ
  startsAt : ℤ
  endsAt : ℤ
  adults : ℤ
  children : ℤ
  infants : ℤ
  optionalServices : List OptionalService
  voucherId : Option ℕ
  promotionSessionHash : Option String
  amendmentOfReservationId : Option ℕ
deriving DecidableEq

structure CalculationSnapshot where
  ratePlanId : ℕ
  ratePlanVersion : ℕ
  ratePlanState : PublicationState
  promotionVersions : List PromotionSnapshot
  voucherId : Option ℕ
  promotionSessionHash : Option String
  arrival : ℤ
  departure : ℤ
deriving DecidableEq

-- A quote's checksum is the hash of one of these; the hash is taken to be injective.
structure QuotePayload where
  propertyId : ℕ
  ratePlanId : ℕ
  resourceCategoryId : ℕ
  resourceId : Option ℕ
  programId : Option ℕ
  currency : String
  infants : ℤ
  subtotalMinor : ℤ
  discountMinor : ℤ
  taxMinor : ℤ
  totalMinor : ℤ
  inputs : QuoteInputs
  depositPolicySnapshot : Option DepositPolicy
  cancellationPolicySnapshot : Option (List CancellationTier)
  calculationSnapshot : CalculationSnapshot
  lines : List BookingQuoteLine
deriving DecidableEq

structure BookingQuote where
  id : ℕ
  propertyId : ℕ
  ratePlanId : ℕ
  resourceCategoryId : ℕ
  resourceId : Option ℕ
  programId : Option ℕ
  reservationId : Option ℕ
  status : BookingQuoteStatus
  startsAt : ℤ
  endsAt : ℤ
  adults : ℤ
  children : ℤ
  infants : ℤ
  currency : String
  subtotalMinor : ℤ
  discountMinor : ℤ
  taxMinor : ℤ
  totalMinor : ℤ
  inputs : QuoteInputs
  depositPolicySnapshot : Option DepositPolicy
  cancellationPolicySnapshot : Option (List CancellationTier)
  calculationSnapshot : CalculationSnapshot
  lines : List BookingQuoteLine
  checksum : QuotePayload
  expiresAt : ℤ
  committedAt : Option ℤ := none
deriving DecidableEq

structure Guest where
  id : ℕ
  firstName : String
  lastName : Option String
  email : Option String
  phone : Option String
  language : Option String
  dietary : Option String
  mergedIntoId : Option ℕ := none
  mergedAt : Option ℤ := none
deriving DecidableEq

inductive PartyRole
  | primary | guest | companion
deriving DecidableEq

structure ReservationGuest where
  id : ℕ
  reservationId : ℕ
  guestId : ℕ
  role : PartyRole
  sortOrder : ℕ := 0
  operationalPreferences : Option (List (String × String)) := none
deriving DecidableEq

instance : Keyed Property := ⟨Property.id⟩
instance : Keyed CatalogItem := ⟨CatalogItem.id⟩
instance : Keyed StoredDepositPolicy := ⟨StoredDepositPolicy.id⟩
instance : Keyed StoredCancellationPolicy := ⟨StoredCancellationPolicy.id⟩
instance : Keyed RatePlan := ⟨RatePlan.id⟩
instance : Keyed CommercialPromotion := ⟨CommercialPromotion.id⟩
instance : Keyed Voucher := ⟨Voucher.id⟩
instance : Keyed CommercialPromotionUsage := ⟨CommercialPromotionUsage.id⟩
instance : Keyed VoucherRedemption := ⟨VoucherRedemption.id⟩
instance : Keyed TaxRule := ⟨TaxRule.id⟩
instance : Keyed BookingQuote := ⟨BookingQuote.id⟩
instance : Keyed Guest := ⟨Guest.id⟩
instance : Keyed ReservationGuest := ⟨ReservationGuest.id⟩

end Schema
