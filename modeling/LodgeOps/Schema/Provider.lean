import LodgeOps.Schema.Ledger

namespace Schema

inductive PaymentRequestState
  | draft | opened | processing | paid | expired | revoked | superseded
deriving DecidableEq

inductive PaymentAttemptState
  | creating | checkoutReady | pending | approved | rejected | cancelled | expired | mismatched
  | failed
deriving DecidableEq

def PaymentAttemptState.value : PaymentAttemptState → String
  | creating => "creating"
  | checkoutReady => "checkout_ready"
  | pending => "pending"
  | approved => "approved"
  | rejected => "rejected"
  | cancelled => "cancelled"
  | expired => "expired"
  | mismatched => "mismatched"
  | failed => "failed"

inductive ProviderEventState
  | received | processing | processed | duplicate | failed | mismatched
deriving DecidableEq

inductive DocumentKind
  | reservationConfirmation | paymentReceipt
deriving DecidableEq

structure PaymentRequest where
  id : ℕ
  propertyId : ℕ
  reservationId : ℕ
  depositId : Option ℕ := none
  publicId : String := ""
  state : PaymentRequestState
  sourceAmountMinor : ℤ
  sourceCurrency : String
  chargeCurrency : Option String := none
  expiresAt : ℤ
  paymentId : Option ℕ := none
  paidAt : Option ℤ := none
  supersedesId : Option ℕ := none
  openedAt : Option ℤ := none
  lastOpenedAt : Option ℤ := none
  accessCount : ℕ := 0
  revokedAt : Option ℤ := none
  revokedBy : Option ℕ := none
  revocationReason : Option String := none
  accessTokenHash : String := ""
deriving DecidableEq

-- The rate is in units of 10⁻¹⁰.
structure ExchangeRate where
  id : ℕ
  propertyId : Option ℕ
  baseCurrency : String
  quoteCurrency : String
  rate : ℕ
  effectiveAt : ℤ
  source : String := ""
deriving DecidableEq

structure PaymentAttempt where
  id : ℕ
  propertyId : ℕ
  reservationId : ℕ
  paymentRequestId : ℕ
  depositId : Option ℕ := none
  integrationConnectionId : ℕ
  provider : String
  environment : Environment
  providerAccount : String
  externalReference : String
  state : PaymentAttemptState
  sourceAmountMinor : ℤ
  sourceCurrency : String
  chargeAmountMinor : ℤ
  chargeCurrency : String
  providerPaymentId : Option String := none
  providerStatus : Option String := none
  providerStatusDetail : Option String := none
  providerPreferenceId : Option String := none
  hostedCheckoutUrl : Option String := none
  checkoutExpiresAt : Option ℤ := none
  attemptCount : ℕ := 0
  errorCount : ℕ := 0
  lastError : Option String := none
  idempotencyKey : String := ""
  lastCheckedAt : Option ℤ := none
  lastProcessedAt : Option ℤ := none
deriving DecidableEq

structure ProviderEvent where
  id : ℕ
  integrationConnectionId : ℕ
  provider : String
  environment : Environment
  providerAccount : String
  resourceId : String
  topic : String
  processingState : ProviderEventState
  attemptCount : ℕ := 0
  lastError : Option String := none
  updatedAt : ℤ := 0
  eventType : Option String := none
  processedAt : Option ℤ := none
deriving DecidableEq

structure DocumentGenerationRequest where
  id : ℕ
  kind : DocumentKind
  reservationId : ℕ
  paymentId : Option ℕ
  locale : String
  idempotencyKey : String
deriving DecidableEq

-- What a settlement report adds to the facts it states: where they come from, and the rows.
structure ReportFacts where
  factSource : String
  reportImportId : ℕ
  reportRevision : ℕ
  fileChecksum : String
  expectedReleaseAt : Option String := none
  rows : List (List (String × String))
deriving DecidableEq

-- The settlement part of a gateway's answer; a key that is absent is none.
structure ProviderSettlement where
  grossMinor : Option ℤ := none
  feeMinor : Option ℤ := none
  taxMinor : Option ℤ := none
  withholdingMinor : Option ℤ := none
  financingMinor : Option ℤ := none
  refundedMinor : Option ℤ := none
  chargebackMinor : Option ℤ := none
  netMinor : Option ℤ := none
  netIsAuthoritative : Bool := false
  settlementCurrency : Option String := none
  settlementIdentity : Option String := none
  settlementDate : Option String := none
  settlementStatus : Option String := none
  payoutIdentity : Option String := none
  payoutDate : Option String := none
  payoutStatus : Option String := none
  report : Option ReportFacts := none
deriving DecidableEq

-- What a gateway answers when it is asked for one payment.
structure ProviderPayment where
  id : String
  externalReference : String
  status : String
  statusDetail : Option String := none
  amountMinor : ℤ
  currency : String
  providerAccount : String
  settlement : ProviderSettlement := {}
deriving DecidableEq

structure SettlementFacts where
  grossMinor : ℤ
  feeMinor : ℤ
  taxMinor : Option ℤ
  withholdingMinor : Option ℤ
  financingMinor : Option ℤ
  refundedMinor : Option ℤ
  chargebackMinor : Option ℤ
  netMinor : ℤ
  currency : String
  settlementCurrency : Option String
  settlementIdentity : Option String
  settlementDate : Option String
  settlementStatus : Option String
  payoutIdentity : Option String
  payoutDate : Option String
  payoutStatus : Option String
deriving DecidableEq

-- The hash of both parts stands for the parts.
structure SettlementChecksum where
  facts : SettlementFacts
  providerFacts : ProviderSettlement
deriving DecidableEq

structure SettlementEntry where
  id : ℕ
  integrationConnectionId : ℕ
  propertyId : ℕ
  provider : String
  environment : Environment
  providerAccount : String
  sourceId : String
  facts : SettlementFacts
  sourceChecksum : SettlementChecksum
  matched : Option Bool
  resolutionReason : Option String := none
  resolvedBy : Option ℕ := none
  resolvedAt : Option ℤ := none
deriving DecidableEq

structure SettlementEntryRevision where
  id : ℕ
  settlementEntryId : ℕ
  revision : ℕ
  checksum : SettlementChecksum
  recordedAt : ℤ
deriving DecidableEq

structure OperationalTask where
  id : ℕ
  propertyId : ℕ
  reservationId : Option ℕ
  title : String
  priority : ℕ
  description : String
  dueAt : ℤ
  generatedFrom : String
  paymentAttemptId : Option ℕ := none
  paymentId : Option ℕ := none
  safeReasonCode : Option String := none
deriving DecidableEq

structure RemoteRefund where
  id : String
  providerPaymentId : String
  status : String
  amountMinor : ℤ
  currency : String
  providerAccount : String
deriving DecidableEq

structure DisputeFacts where
  id : String
  providerPaymentId : String
  status : String
  statusDetail : Option String := none
  amountMinor : ℤ
  currency : String
  providerAccount : String
  reason : Option String := none
  coverageApplied : Option Bool := none
  documentationRequired : Option Bool := none
  documentationDeadline : Option ℤ := none
  providerCreatedAt : Option ℤ := none
  providerUpdatedAt : Option ℤ := none
deriving DecidableEq

structure ProviderDisputeRevision where
  id : ℕ
  providerDisputeId : ℕ
  providerEventId : ℕ
  revision : ℕ
  facts : DisputeFacts
deriving DecidableEq

instance : Keyed PaymentRequest := ⟨PaymentRequest.id⟩
instance : Keyed PaymentAttempt := ⟨PaymentAttempt.id⟩
instance : Keyed ProviderEvent := ⟨ProviderEvent.id⟩
instance : Keyed DocumentGenerationRequest := ⟨DocumentGenerationRequest.id⟩
instance : Keyed ProviderDisputeRevision := ⟨ProviderDisputeRevision.id⟩
instance : Keyed ExchangeRate := ⟨ExchangeRate.id⟩
instance : Keyed SettlementEntry := ⟨SettlementEntry.id⟩
instance : Keyed SettlementEntryRevision := ⟨SettlementEntryRevision.id⟩
instance : Keyed OperationalTask := ⟨OperationalTask.id⟩

end Schema
