import LodgeOps.Schema.Ledger

namespace Schema

inductive DirectBookingOrderState
  | started | quoted | held | paymentPending | awaitingManualPayment | evidencePending
  | financeReview | paidPendingConfirmation | confirmed | expired | paymentFailed
  | paidNeedsReview | evidenceRejected | canceled | refunded
deriving DecidableEq

inductive DirectBookingTransitionAuthority
  | pricing | inventory | paymentOrchestrator | providerLookup | guestEvidence | evidenceScanner
  | finance | reservation | scheduler | recovery | refund | cancellation
deriving DecidableEq

inductive DirectBookingErrorCode
  | validation | unavailable | quoteStale | holdExpired | conflict | idempotencyConflict
  | rateLimited | botRejected | paymentPending | paymentFailed | paidNeedsReview | notFound
  | bookingUnavailable
deriving DecidableEq

inductive PaymentEvidenceStatus
  | pending | approved | rejected | moreInformationRequired
deriving DecidableEq

inductive Scalar
  | null
  | bool (value : Bool)
  | int (value : ℤ)
  | string (value : String)
deriving DecidableEq

abbrev SafeMetadata := List (String × Scalar)

-- A request checksum is the hash of one of these; the hash is taken to be injective.
inductive TransitionFacts
  | transition (next : DirectBookingOrderState) (authority : DirectBookingTransitionAuthority)
      (expectedVersion : ℤ) (metadata : SafeMetadata)
  | piiScrubbed
deriving DecidableEq

inductive OrderEventType
  | transition | piiScrubbed
deriving DecidableEq

structure DirectBookingPropertySetting where
  propertyId : ℕ
  initialHoldMinutes : ℤ
  checkoutExtensionMinutes : ℤ
  maximumHoldMinutes : ℤ
  sessionTtlMinutes : ℤ
  recoveryTtlMinutes : ℤ
  retentionDays : ℤ
deriving DecidableEq

structure DirectBookingOrder where
  id : ℕ
  propertyId : ℕ
  publicReference : String
  bookingQuoteId : Option ℕ := none
  reservationId : Option ℕ := none
  paymentRequestId : Option ℕ := none
  state : DirectBookingOrderState
  stateVersion : ℤ
  safeFailureCode : Option DirectBookingErrorCode := none
  tokenHash : String
  recoveryTokenHash : Option String
  guestContact : Option String := none
  guestContactChecksum : Option String := none
  attribution : Option (List (String × String)) := none
  ipPrefixHash : Option String := none
  locale : String
  currency : String
  sessionExpiresAt : ℤ
  recoveryExpiresAt : Option ℤ
  quotedAt : Option ℤ := none
  quoteExpiresAt : Option ℤ := none
  heldAt : Option ℤ := none
  holdExpiresAt : Option ℤ := none
  holdExtendedAt : Option ℤ := none
  paymentStartedAt : Option ℤ := none
  checkoutExpiresAt : Option ℤ := none
  paidAt : Option ℤ := none
  confirmedAt : Option ℤ := none
  revokedAt : Option ℤ := none
  retainedUntil : ℤ
  piiScrubbedAt : Option ℤ := none
deriving DecidableEq

structure DirectBookingOrderEvent where
  id : ℕ
  orderId : ℕ
  eventType : OrderEventType
  sequence : ℤ
  fromState : DirectBookingOrderState
  toState : DirectBookingOrderState
  authority : DirectBookingTransitionAuthority
  retryIdentity : String
  requestChecksum : TransitionFacts
  stateVersion : ℤ
  safeMetadata : Option SafeMetadata
  occurredAt : ℤ
deriving DecidableEq

structure GuestPaymentEvidence where
  id : ℕ
  reservationId : ℕ
  status : PaymentEvidenceStatus
  amountMinor : Option ℤ
  currency : Option String
  paymentId : Option ℕ := none
deriving DecidableEq

instance : Keyed DirectBookingOrder := ⟨DirectBookingOrder.id⟩
instance : Keyed DirectBookingOrderEvent := ⟨DirectBookingOrderEvent.id⟩
instance : Keyed GuestPaymentEvidence := ⟨GuestPaymentEvidence.id⟩

end Schema
