import LodgeOps.Schema.Database

namespace Schema

inductive MembershipRole
  | administrator | owner | manager | sales | operations | guide | kitchen | housekeeping | finance
  | viewer
deriving DecidableEq

structure Membership where
  userId : ℕ
  propertyId : Option ℕ := none
  role : MembershipRole
  isActive : Bool
deriving DecidableEq

inductive CashShiftState
  | opened | closed | varianceReview
deriving DecidableEq

inductive CashMovementType
  | openingFloat | payment | refund | payIn | payOut | correction
deriving DecidableEq

-- What the closing checksum is taken over.
structure CashCalculation where
  shiftId : ℕ
  movementIds : List ℕ
  expectedMinor : ℤ
  countedMinor : ℤ
  varianceMinor : ℤ
deriving DecidableEq

structure CashShift where
  id : ℕ
  propertyId : ℕ
  cashierId : ℕ
  currency : String
  state : CashShiftState
  openingFloatMinor : ℤ
  expectedCashMinor : Option ℤ := none
  countedCashMinor : Option ℤ := none
  varianceMinor : Option ℤ := none
  openedAt : ℤ
  closedAt : Option ℤ := none
  closedBy : Option ℕ := none
  closeReason : Option String := none
  calculation : Option CashCalculation := none
  approvedAt : Option ℤ := none
  approvedBy : Option ℕ := none
  approvalReason : Option String := none
deriving DecidableEq

structure CashShiftMovement where
  id : ℕ
  propertyId : ℕ
  cashShiftId : ℕ
  paymentId : Option ℕ := none
  refundChangeId : Option ℕ := none
  reversesMovementId : Option ℕ := none
  type : CashMovementType
  amountMinor : ℤ
  currency : String
  reason : String
  recordedBy : ℕ
  occurredAt : ℤ
deriving DecidableEq

inductive TenderState
  | identityException | duplicateReview | posted
deriving DecidableEq

structure TenderIdentity where
  processorAlias : String
  merchantAccountAlias : String
  terminalIdentifier : String
  transactionReference : Option String
deriving DecidableEq

structure PaymentTenderDetail where
  id : ℕ
  propertyId : ℕ
  reservationId : ℕ
  depositId : Option ℕ
  channel : PaymentChannel
  amountMinor : ℤ
  currency : String
  identity : TenderIdentity
  state : TenderState
  reviewReason : Option String := none
  duplicateOfId : Option ℕ := none
  paymentId : Option ℕ := none
  recordedBy : ℕ
  receivedAt : ℤ
deriving DecidableEq

-- The columns of a payment evidence row that the execution of a refund looks at.
structure ExecutionEvidence where
  id : ℕ
  reservationId : ℕ
  status : PaymentEvidenceStatus
  scanState : String
  refundChangeId : Option ℕ
  paymentId : Option ℕ := none
  tenderDetailId : Option ℕ := none
deriving DecidableEq

instance : Keyed CashShift := ⟨CashShift.id⟩
instance : Keyed CashShiftMovement := ⟨CashShiftMovement.id⟩
instance : Keyed PaymentTenderDetail := ⟨PaymentTenderDetail.id⟩
instance : Keyed ExecutionEvidence := ⟨ExecutionEvidence.id⟩

-- The tenant's books, and beside them the drawers of its front desk.
structure CashDesk where
  books : Database
  memberships : List Membership := []
  shifts : Table CashShift := .empty
  movements : Table CashShiftMovement := .empty
  tenders : Table PaymentTenderDetail := .empty
  evidence : Table ExecutionEvidence := .empty
  staleHours : ℤ := 16
  varianceThreshold : ℕ → String → ℤ := fun _ _ => 0

abbrev DeskTx (α : Type) := Transaction Failure CashDesk α

def CashDesk.withBooks (s : CashDesk) (db : Database) : CashDesk := { s with books := db }

@[simp] theorem withBooks_self (s : CashDesk) : s.withBooks s.books = s := rfl

end Schema
