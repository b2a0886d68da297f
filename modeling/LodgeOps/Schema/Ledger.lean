import LodgeOps.Schema.Inventory

namespace Schema

inductive FolioLineType
  | charge | payment | refund | adjustment
deriving DecidableEq

inductive PaymentStatus
  | pending | succeeded | failed | refunded | reversed
deriving DecidableEq

inductive PaymentOrigin
  | manual | provider
deriving DecidableEq

inductive PaymentChannel
  | bankTransfer | cash | externalTerminal | manualOther | onlineCheckout | integratedTerminal | qr
deriving DecidableEq

inductive PaymentEntryMode
  | staffRecorded | providerReported
deriving DecidableEq

def PaymentChannel.legacyMethod : PaymentChannel → String
  | bankTransfer => "bank_transfer"
  | cash => "cash"
  | externalTerminal | integratedTerminal => "card"
  | manualOther => "other"
  | onlineCheckout | qr => "mercado_pago_checkout_pro"

inductive DepositStatus
  | due | paid | waived | refunded
deriving DecidableEq

inductive ChangeType
  | refundRequested | refundCompleted | refundFailed | cancellation | noShow | amendment
  | resourceAssigned | resourceAssignmentUpdated | resourceReleased | resourceMoved
  | resourceSwapped | companionsChanged
deriving DecidableEq

inductive ChangeStatus
  | requested | completed | failed
deriving DecidableEq

inductive ProviderDisputeState
  | opened | underReview | won | lost | unknown
deriving DecidableEq

inductive ProviderDisputeImpactState
  | none | pendingFinance | applied | reversed
deriving DecidableEq

inductive ProviderRefundState
  | requested | processing | succeeded | failed | mismatched
deriving DecidableEq

inductive Environment
  | sandbox | production
deriving DecidableEq

structure LineMetadata where
  includedInBookedTotal : Bool := false
  paymentStatus : Option PaymentStatus := none
  refundChangeId : Option ℕ := none
  refundRequestId : Option ℕ := none
  reference : Option String := none
  providerDisputeId : Option ℕ := none
  providerDisputeEffect : Option String := none
  originalLineId : Option ℕ := none
  reason : Option String := none
  policyTier : Option CancellationTier := none
  daysBeforeArrival : Option ℤ := none
  quotedQuantityThousandths : Option ℤ := none
  quotedUnitAmountMinor : Option ℤ := none
  amendmentQuoteId : Option ℕ := none
  source : Option String := none
  saleReference : Option String := none
deriving DecidableEq

structure FolioLine where
  id : ℕ
  reservationId : ℕ
  paymentId : Option ℕ
  reversesFolioLineId : Option ℕ
  type : FolioLineType
  description : String
  quantityThousandths : ℤ
  unitAmountMinor : ℤ
  netAmountMinor : ℤ
  taxAmountMinor : ℤ
  grossAmountMinor : ℤ
  currency : String
  postedAt : ℤ
  createdBy : Option ℕ
  metadata : LineMetadata
deriving DecidableEq

structure PaymentMetadata where
  paymentAttemptId : Option ℕ := none
  externalReference : Option String := none
  unappliedDirectBookingFunds : Bool := false
  needsReviewReason : Option String := none
  actualChargeAmountMinor : Option ℤ := none
  actualChargeCurrency : Option String := none
  manualProcessorAlias : Option String := none
  manualTransactionReference : Option String := none
deriving DecidableEq

structure Payment where
  id : ℕ
  reservationId : ℕ
  status : PaymentStatus
  method : String
  channel : PaymentChannel
  entryMode : PaymentEntryMode
  origin : PaymentOrigin
  provider : Option String := none
  environment : Option Environment := none
  providerAccount : Option String := none
  providerReference : Option String := none
  currency : String
  amountMinor : ℤ
  processedAt : Option ℤ := none
  reversalReason : Option String := none
  metadata : PaymentMetadata
deriving DecidableEq

structure Deposit where
  id : ℕ
  reservationId : ℕ
  scheduleType : String
  status : DepositStatus
  currency : String
  amountMinor : ℤ
  dueAt : ℤ
  paymentId : Option ℕ := none
  waiverReason : Option String := none
deriving DecidableEq

structure ClosureMetadata where
  policyTier : Option CancellationTier
  daysBeforeArrival : ℤ
  releasedValueMinor : ℤ
  waivedDeposits : ℕ
  paidMinor : ℤ
  refundRequirementMinor : ℤ
deriving DecidableEq

structure PaymentEffects where
  paidMinor : ℤ
  dueMinor : ℤ
  refundRequirementMinor : ℤ
deriving DecidableEq

structure AmendmentMetadata where
  quoteId : ℕ
  replacementAllocationId : ℕ
  priceDeltaMinor : ℤ
  depositPaymentEffects : PaymentEffects
deriving DecidableEq

structure ReservationChange where
  id : ℕ
  reservationId : ℕ
  parentChangeId : Option ℕ := none
  type : ChangeType
  status : ChangeStatus
  currency : String
  amountMinor : ℤ := 0
  reference : Option String := none
  paymentId : Option ℕ := none
  reason : Option String := none
  scope : Option String := none
  attempt : Option ℕ := none
  closure : Option ClosureMetadata := none
  amendment : Option AmendmentMetadata := none
  occurredAt : ℤ
deriving DecidableEq

structure ProviderDispute where
  id : ℕ
  provider : String
  environment : Environment
  providerAccount : String
  providerDisputeId : String
  reservationId : ℕ
  paymentId : ℕ
  paymentAttemptId : ℕ
  providerPaymentId : String
  state : ProviderDisputeState
  impactState : ProviderDisputeImpactState
  statusDetail : Option String := none
  amountMinor : ℤ
  currency : String
  reason : Option String := none
  coverageApplied : Option Bool := none
  documentationRequired : Option Bool := none
  documentationDeadline : Option ℤ := none
  providerCreatedAt : Option ℤ := none
  providerUpdatedAt : Option ℤ := none
  currentRevision : ℕ := 0
deriving DecidableEq

structure ProviderRefund where
  id : ℕ
  paymentId : ℕ
  reservationChangeId : ℕ
  provider : String
  environment : Environment
  providerAccount : String
  sourceAmountMinor : ℤ
  sourceCurrency : String
  chargeAmountMinor : ℤ
  chargeCurrency : String
  idempotencyKey : ℕ
  providerPaymentId : String
  providerRefundId : Option String := none
  state : ProviderRefundState
  attemptCount : ℕ := 0
  lastError : Option String := none
deriving DecidableEq

instance : Keyed FolioLine := ⟨FolioLine.id⟩
instance : Keyed Payment := ⟨Payment.id⟩
instance : Keyed Deposit := ⟨Deposit.id⟩
instance : Keyed ReservationChange := ⟨ReservationChange.id⟩
instance : Keyed ProviderDispute := ⟨ProviderDispute.id⟩
instance : Keyed ProviderRefund := ⟨ProviderRefund.id⟩

end Schema
