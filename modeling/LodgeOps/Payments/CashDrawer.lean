import LodgeOps.Store.Frames
import LodgeOps.Schema.CashDesk
import LodgeOps.Ledger.Refunds

namespace FrontDeskPaymentGuard
open Schema Transaction

-- The signed-in user, with the membership that the request runs under.
structure Staff where
  id : ℕ
  membership : Option Membership := none

def hasTenantWidePropertyAccess (role : MembershipRole) : Bool :=
  [MembershipRole.administrator, .manager].contains role

def canAccessProperty (membership : Option Membership) (propertyId : ℕ) : Bool :=
  (membership.bind fun m => if hasTenantWidePropertyAccess m.role then none else m.propertyId).all
    (· == propertyId)

def unauthorized : Failure := .validation "authorization"
  "You are not authorized for this payment action at this property."

def assert (actor : Staff) (propertyId : ℕ) (roles : List MembershipRole) : DeskTx Unit :=
  reject (actor.membership.any (fun m => m.isActive && m.userId == actor.id &&
    roles.contains m.role && canAccessProperty actor.membership propertyId) = false) unauthorized

def recordTender (actor : Staff) (propertyId : ℕ) : DeskTx Unit :=
  assert actor propertyId [.administrator, .manager, .operations, .finance]

def operateCash (actor : Staff) (propertyId : ℕ) : DeskTx Unit :=
  assert actor propertyId [.administrator, .manager, .operations]

def resolveException (actor : Staff) (propertyId : ℕ) : DeskTx Unit :=
  assert actor propertyId [.administrator, .manager, .finance]

end FrontDeskPaymentGuard

namespace CashShift
open Schema Transaction

def movementsOf (movements : Table CashShiftMovement) (i : ℕ) : List CashShiftMovement :=
  movements.select fun m => m.cashShiftId == i

def currentExpectedMinor (s : CashDesk) (i : ℕ) : ℤ :=
  ((movementsOf s.movements i).map CashShiftMovement.amountMinor).sum

def lockedShift (i : ℕ) : DeskTx CashShift := do
  let s ← get
  orFail (s.shifts.find? i) .modelNotFound

def onBooks {α : Type} (x : Tx α) : DeskTx α := zoom CashDesk.books CashDesk.withBooks x

end CashShift

namespace OpenCashShift
open Schema Transaction FrontDeskPaymentGuard

def threeLetters (currency : String) : Bool :=
  currency.length == 3 && currency.toList.all fun c => 'A' ≤ c && c ≤ 'Z'

def shift (actor : Staff) (propertyId : ℕ) (currency : String) (openingFloatMinor now : ℤ) (i : ℕ) :
    CashShift where
  id := i
  propertyId := propertyId
  cashierId := actor.id
  currency := currency
  state := .opened
  openingFloatMinor := openingFloatMinor
  openedAt := now

def openingFloat (s : CashShift) (i : ℕ) : CashShiftMovement where
  id := i
  propertyId := s.propertyId
  cashShiftId := s.id
  type := .openingFloat
  amountMinor := s.openingFloatMinor
  currency := s.currency
  reason := "Opening float"
  recordedBy := s.cashierId
  occurredAt := s.openedAt

def isOpenFor (actorId propertyId : ℕ) (currency : String) (s : CashShift) : Bool :=
  s.propertyId == propertyId && s.cashierId == actorId && s.currency == currency &&
    s.state == .opened

def handle (actor : Staff) (propertyId : ℕ) (currency : String) (openingFloatMinor : ℤ) :
    DeskTx Unit := do
  operateCash actor propertyId
  let s ← get
  reject ((s.books.properties.find? propertyId).isNone = true) .modelNotFound
  let currency := upper (trim currency)
  reject (threeLetters currency = false ∨ openingFloatMinor < 0) (.validation "opening_float_minor"
    "Opening float must be a non-negative integer with a three-letter currency.")
  reject ((s.shifts.first? (isOpenFor actor.id propertyId currency)).isSome = true)
    (.validation "cash_shift"
      "This cashier already has an open shift for the property and currency.")
  let opened := shift actor propertyId currency openingFloatMinor s.books.clock
  set { s with
    shifts := s.shifts.insert opened
    movements := s.movements.insert (openingFloat (opened s.shifts.next)) }

end OpenCashShift

namespace RecordCashMovement
open Schema Transaction FrontDeskPaymentGuard CashShift

def movement (shift : CashShift) (actor : Staff) (type : CashMovementType) (amountMinor : ℤ)
    (reverses : Option ℕ) (reason : String) (now : ℤ) (i : ℕ) : CashShiftMovement where
  id := i
  propertyId := shift.propertyId
  cashShiftId := shift.id
  reversesMovementId := reverses
  type := type
  amountMinor := amountMinor
  currency := shift.currency
  reason := reason
  recordedBy := actor.id
  occurredAt := now

def discretionary (type : CashMovementType) : Bool :=
  [CashMovementType.payIn, .payOut].contains type

-- The movement that a correction opposes.
def opposed (shift : CashShift) (amountMinor : ℤ) (reverses : Option ℕ) :
    DeskTx CashShiftMovement := do
  let s ← get
  let original ← orFail (reverses.bind s.movements.find?) .modelNotFound
  reject (original.cashShiftId ≠ shift.id ∨ discretionary original.type = false)
    (.validation "reverses_movement_id" ("A drawer correction may only oppose a discretionary " ++
      "pay-in or pay-out. Payments, refunds, and opening floats require their authoritative " ++
      "financial reversal workflow."))
  reject (amountMinor ≠ |original.amountMinor|) (.validation "amount_minor"
    "A correction must exactly oppose the selected movement amount.")
  reject ((s.movements.first? fun m => m.reversesMovementId == some original.id).isSome = true)
    (.validation "reverses_movement_id" "This cash movement already has an opposing correction.")
  pure original

def record (shift : CashShift) (actor : Staff) (type : CashMovementType) (amountMinor : ℤ)
    (reverses : Option ℕ) (reason : String) : DeskTx Unit := do
  let s ← get
  set { s with
    movements := s.movements.insert
      (movement shift actor type amountMinor reverses reason s.books.clock) }

def handle (actor : Staff) (shiftId : ℕ) (type : CashMovementType) (amountMinor : ℤ)
    (reason : String) (reverses : Option ℕ) : DeskTx Unit := do
  let locked ← lockedShift shiftId
  operateCash actor locked.propertyId
  reject (locked.cashierId ≠ actor.id ∨ locked.state ≠ .opened)
    (.validation "cash_shift" "Only the active cashier may operate an open shift.")
  reject (discretionary type = false ∧ type ≠ .correction) (.validation "type"
    "Only pay-in, pay-out, and immutable correction movements are accepted.")
  reject (trim reason = "" ∨ amountMinor ≤ 0)
    (.validation "amount_minor" "A positive amount and reason are required.")
  let s ← get
  reject (type = .payOut ∧ currentExpectedMinor s locked.id < amountMinor)
    (.validation "amount_minor"
      "A pay-out cannot exceed the cash currently expected in the shift.")
  if type = .correction then do
    let original ← opposed locked amountMinor reverses
    record locked actor type (-original.amountMinor) (some original.id) (trim reason)
  else
    record locked actor type (if type = .payOut then -amountMinor else amountMinor) none
      (trim reason)

end RecordCashMovement

namespace RecordFrontDeskPayment
open Schema Transaction FrontDeskPaymentGuard CashShift

structure FrontDeskPaymentInput where
  reservationId : ℕ
  channel : PaymentChannel
  amountMinor : ℤ
  depositId : Option ℕ := none
  processorAlias : Option String := none
  merchantAccountAlias : Option String := none
  terminalIdentifier : Option String := none
  transactionReference : Option String := none
  authorizationReference : Option String := none
  batchReference : Option String := none
  cardBrand : Option String := none
  cardLastFour : Option String := none
  note : Option String := none

section Input

def fourDigits (s : String) : Bool :=
  let body := if s.toList.getLast? = some '\n' then s.toList.dropLast else s.toList
  body.length == 4 && body.all Char.isDigit

def fields (input : FrontDeskPaymentInput) : List (String × Option String) :=
  [("processorAlias", input.processorAlias), ("merchantAccountAlias", input.merchantAccountAlias),
    ("terminalIdentifier", input.terminalIdentifier),
    ("transactionReference", input.transactionReference),
    ("authorizationReference", input.authorizationReference),
    ("batchReference", input.batchReference), ("cardBrand", input.cardBrand),
    ("cardLastFour", input.cardLastFour), ("note", input.note)]

def assertFits (field : String × Option String) : Except Failure Unit :=
  refuse (field.2.any (fun v => decide ((if field.1 = "note" then 500 else 160) < v.utf8ByteSize)) =
    true) (.validation field.1 "This tender field is too long.")

-- The scan for card numbers is `assertSafe`; it also answers for reviewed false positives.
def validateInput (assertSafe : FrontDeskPaymentInput → Except Failure Unit)
    (input : FrontDeskPaymentInput) : Except Failure Unit := do
  refuse (PaymentService.frontDeskChannel input.channel = false) (.validation "channel" ("Only " ++
    "cash, bank transfer, standalone external terminal, or manual other may be staff-recorded."))
  refuse (input.cardLastFour.any (fun s => !fourDigits s) = true)
    (.validation "card_last_four" "Card last four must contain exactly four digits.")
  refuse (input.channel ≠ .externalTerminal ∧
      (input.cardBrand.isSome || input.cardLastFour.isSome) = true)
    (.validation "card_last_four"
      "Card brand and last four are only accepted for standalone terminal records.")
  refuse (input.channel = .manualOther ∧ trim (input.note.getD "") = "")
    (.validation "note" "A bounded explanation is required for manual-other tenders.")
  (fields input).forM assertFits
  assertSafe input

def aliasChar (c : Char) : Bool :=
  c.isLower || c.isDigit || c == '.' || c == '_' || c == ':' || c == '-'

-- A run of other characters becomes one dash.
def dashed : Bool → List Char → List Char
  | _, [] => []
  | inRun, c :: cs =>
    if aliasChar c then c :: dashed false cs
    else if inRun then dashed true cs else '-' :: dashed true cs

def normalize (value : Option String) : Option String :=
  let value := (trim (value.getD "")).toLower
  (some (String.ofList (dashed false value.toList))).filter fun v => v != "" && v != "0"

def normalizeIdentity (input : FrontDeskPaymentInput) : TenderIdentity where
  processorAlias := (normalize input.processorAlias).getD "manual"
  merchantAccountAlias := (normalize input.merchantAccountAlias).getD "manual"
  terminalIdentifier := (normalize input.terminalIdentifier).getD "manual"
  transactionReference := normalize input.transactionReference

def missingExternalIdentity (identity : TenderIdentity) : Bool :=
  [identity.processorAlias, identity.merchantAccountAlias, identity.terminalIdentifier].contains
    "manual" || identity.transactionReference.isNone

end Input

section Writes

def detail (actor : Staff) (r : Reservation) (input : FrontDeskPaymentInput) (state : TenderState)
    (reviewReason : Option String) (duplicateOf paymentId : Option ℕ) (now : ℤ) (i : ℕ) :
    PaymentTenderDetail where
  id := i
  propertyId := r.propertyId
  reservationId := r.id
  depositId := input.depositId
  channel := input.channel
  amountMinor := input.amountMinor
  currency := upper r.currency
  identity := normalizeIdentity input
  state := state
  reviewReason := reviewReason
  duplicateOfId := duplicateOf
  paymentId := paymentId
  recordedBy := actor.id
  receivedAt := now

def createDetail (mk : ℕ → PaymentTenderDetail) (hk : Names mk := by intro i; rfl) :
    DeskTx Unit := do
  let s ← get
  set { s with tenders := s.tenders.insert mk hk }

def duplicate? (s : CashDesk) (propertyId : ℕ) (identity : TenderIdentity) :
    Option PaymentTenderDetail :=
  s.tenders.first? fun d => d.propertyId == propertyId && d.channel == .externalTerminal &&
    d.identity == identity && d.state == .posted

def movement (shift : CashShift) (actor : Staff) (p : Payment) (now : ℤ) (i : ℕ) :
    CashShiftMovement where
  id := i
  propertyId := shift.propertyId
  cashShiftId := shift.id
  paymentId := some p.id
  type := .payment
  amountMinor := p.amountMinor
  currency := p.currency
  reason := "Front-desk cash payment"
  recordedBy := actor.id
  occurredAt := now

def takeIntoDrawer (shift : CashShift) (actor : Staff) (p : Payment) : DeskTx Unit := do
  let s ← get
  set { s with movements := s.movements.insert (movement shift actor p s.books.clock) }

def openShift (actor : Staff) (r : Reservation) : DeskTx CashShift := do
  let s ← get
  orFail (s.shifts.first? (OpenCashShift.isOpenFor actor.id r.propertyId r.currency))
    (.validation "cash_shift"
      "Open your cash shift for this property and currency before recording cash.")

def post (actor : Staff) (r : Reservation) (input : FrontDeskPaymentInput) : DeskTx Unit := do
  let s ← get
  let payment ← onBooks (PaymentService.recordFrontDesk r.id input.channel input.amountMinor
    (some actor.id) input.depositId)
  createDetail (detail actor r input .posted none none (some payment.id) s.books.clock)

def postCash (actor : Staff) (r : Reservation) (input : FrontDeskPaymentInput) : DeskTx Unit := do
  let s ← get
  let shift ← openShift actor r
  let payment ← onBooks (PaymentService.recordFrontDesk r.id input.channel input.amountMinor
    (some actor.id) input.depositId)
  createDetail (detail actor r input .posted none none (some payment.id) s.books.clock)
  takeIntoDrawer shift actor payment

def postTerminal (actor : Staff) (r : Reservation) (input : FrontDeskPaymentInput) :
    DeskTx Unit := do
  let s ← get
  if missingExternalIdentity (normalizeIdentity input) = true then
    createDetail (detail actor r input .identityException (some ("Processor, merchant/account, " ++
      "terminal, and transaction reference are required before posting.")) none none s.books.clock)
  else match duplicate? s r.propertyId (normalizeIdentity input) with
    | some d => createDetail (detail actor r input .duplicateReview (some ("The normalized " ++
        "external-terminal transaction identity is already posted.")) (some d.id) none s.books.clock)
    | none => post actor r input

def handle (assertSafe : FrontDeskPaymentInput → Except Failure Unit) (actor : Staff)
    (input : FrontDeskPaymentInput) : DeskTx Unit := do
  let r ← onBooks (lockedReservation input.reservationId)
  recordTender actor r.propertyId
  reject (input.amountMinor ≤ 0)
    (.validation "amount_minor" "The payment amount must be greater than zero.")
  check fun _ => validateInput assertSafe input
  let s ← get
  reject ((s.books.properties.find? r.propertyId).isNone = true) .modelNotFound
  match input.channel with
  | .externalTerminal => postTerminal actor r input
  | .cash => postCash actor r input
  | _ => post actor r input

end Writes
end RecordFrontDeskPayment

namespace CompleteManualExternalRefund
open Schema Transaction FrontDeskPaymentGuard CashShift

def acceptedEvidence (s : CashDesk) (request : ReservationChange) (p : Payment)
    (evidenceId : ℕ) : Bool :=
  (s.evidence.find? evidenceId).any fun e =>
    (e.scanState == "accepted" || e.scanState == "clean") && e.status == .approved &&
      e.refundChangeId == some request.id && e.reservationId == p.reservationId

def checkEvidence (request : ReservationChange) (p : Payment) (evidenceId : Option ℕ) :
    DeskTx Unit := do
  let s ← get
  reject (evidenceId.any (fun i => (s.evidence.find? i).isNone) = true) .modelNotFound
  reject (evidenceId.any (acceptedEvidence s request p) = false) (.validation "evidence_id"
    "Approved, clean private execution evidence for this refund request is required.")

def noShift : Failure := .validation "cash_shift_id"
  "A matching authorized open cash shift is required before cash is marked dispensed."

def dispensingShift (actor : Staff) (r : Reservation) (p : Payment) (shiftId : Option ℕ) :
    DeskTx CashShift := do
  let i ← orFail shiftId noShift
  let shift ← lockedShift i
  reject (shift.propertyId ≠ r.propertyId ∨ shift.currency ≠ p.currency ∨ shift.state ≠ .opened ∨
    shift.cashierId ≠ actor.id) noShift
  pure shift

def movement (shift : CashShift) (actor : Staff) (completed : ReservationChange)
    (reference : String) (now : ℤ) (i : ℕ) : CashShiftMovement where
  id := i
  propertyId := shift.propertyId
  cashShiftId := shift.id
  refundChangeId := some completed.id
  type := .refund
  amountMinor := -completed.amountMinor
  currency := shift.currency
  reason := "Cash refund " ++ reference
  recordedBy := actor.id
  occurredAt := now

def dispensed? (s : CashDesk) (changeId : ℕ) : Option CashShiftMovement :=
  s.movements.first? fun m => m.refundChangeId == some changeId && m.type == .refund

def dispense (shift : CashShift) (actor : Staff) (completed : ReservationChange)
    (reference : String) : DeskTx Unit := do
  let s ← get
  if (dispensed? s completed.id).isSome then pure ()
  else set { s with
    movements := s.movements.insert (movement shift actor completed reference s.books.clock) }

def proven (p : Payment) (completed : ReservationChange) (detailId : Option ℕ)
    (e : ExecutionEvidence) : ExecutionEvidence :=
  { e with
    paymentId := some p.id
    refundChangeId := some completed.id
    tenderDetailId := detailId }

def linkEvidence (p : Payment) (completed : ReservationChange) (evidenceId : Option ℕ) :
    DeskTx Unit :=
  match evidenceId with
  | none => pure ()
  | some i => modify fun s => { s with
      evidence := s.evidence.update i (proven p completed
        ((s.tenders.first? fun d => d.paymentId == some p.id).map PaymentTenderDetail.id)) }

def handle (actor : Staff) (requestId : ℕ) (executionReference : String)
    (evidenceId shiftId : Option ℕ) : DeskTx Unit := do
  let g ← onBooks (CompleteRefund.lockRequestGraph requestId)
  resolveException actor g.reservation.propertyId
  reject (g.payment.origin ≠ .manual)
    (.validation "payment" "Provider-origin refunds cannot be manually completed.")
  reject (trim executionReference = "") (.validation "execution_reference"
    "Record the external or cash-disbursement execution reference.")
  if g.payment.channel = .cash then do
    let shift ← dispensingShift actor g.reservation g.payment shiftId
    let completed ← onBooks
      (CompleteRefund.handle requestId (trim executionReference) (some actor.id))
    dispense shift actor completed (trim executionReference)
    linkEvidence g.payment completed evidenceId
  else do
    checkEvidence g.request g.payment evidenceId
    let completed ← onBooks
      (CompleteRefund.handle requestId (trim executionReference) (some actor.id))
    linkEvidence g.payment completed evidenceId

end CompleteManualExternalRefund

namespace CloseCashShift
open Schema Transaction FrontDeskPaymentGuard CashShift

def cashierActive (s : CashDesk) (shift : CashShift) : Bool :=
  s.memberships.any fun m => m.userId == shift.cashierId &&
    m.propertyId.all (· == shift.propertyId) && m.isActive

def mayForce (s : CashDesk) (actor : Staff) (shift : CashShift) : Bool :=
  actor.membership.any (fun m => [MembershipRole.administrator, .manager].contains m.role) &&
    !(cashierActive s shift && decide (s.books.clock - 3600 * max 1 s.staleHours < shift.openedAt))

def closed (s : CashDesk) (actor : Staff) (countedCashMinor : ℤ) (reason : String)
    (shift : CashShift) : CashShift :=
  let expected := currentExpectedMinor s shift.id
  let variance := countedCashMinor - expected
  { shift with
    state := if max 0 (s.varianceThreshold shift.propertyId (upper shift.currency)) < |variance|
      then .varianceReview else .closed
    expectedCashMinor := some expected
    countedCashMinor := some countedCashMinor
    varianceMinor := some variance
    closedAt := some s.books.clock
    closedBy := some actor.id
    closeReason := if reason = "" ∨ reason = "0" then none else some reason
    calculation := some
      { shiftId := shift.id
        movementIds := (movementsOf s.movements shift.id).map CashShiftMovement.id
        expectedMinor := expected
        countedMinor := countedCashMinor
        varianceMinor := variance } }

theorem keeps_closed {s : CashDesk} {actor : Staff} {counted : ℤ} {reason : String} :
    Keeps (closed s actor counted reason) := fun _ => rfl

def close (locked : CashShift) (actor : Staff) (countedCashMinor : ℤ) (reason : String)
    (force : Bool) : DeskTx Unit := do
  reject (countedCashMinor < 0)
    (.validation "counted_cash_minor" "Counted cash cannot be negative.")
  let s ← get
  reject (locked.cashierId ≠ actor.id ∧ (force && mayForce s actor locked) = false)
    (.validation "force" ("Only an Administrator or Manager may force-close another cashier " ++
      "shift after it is stale or its cashier is disabled."))
  reject (force = true ∧ reason = "")
    (.validation "reason" "A force-close reason is required for the operational audit trail.")
  reject (countedCashMinor ≠ currentExpectedMinor s locked.id ∧ reason = "")
    (.validation "reason" "A reason is required for a non-zero cash variance.")
  set { s with
    shifts := s.shifts.update locked.id (closed s actor countedCashMinor reason) keeps_closed }

def handle (actor : Staff) (shiftId : ℕ) (countedCashMinor : ℤ) (reason : Option String)
    (force : Bool := false) : DeskTx Unit := do
  let locked ← lockedShift shiftId
  operateCash actor locked.propertyId
  if locked.state ≠ .opened then pure ()
  else close locked actor countedCashMinor (trim (reason.getD "")) force

end CloseCashShift

namespace ApproveCashVariance
open Schema Transaction FrontDeskPaymentGuard CashShift

def approved (actor : Staff) (reason : String) (now : ℤ) (shift : CashShift) : CashShift :=
  { shift with
    state := .closed
    approvedBy := some actor.id
    approvedAt := some now
    approvalReason := some reason }

theorem keeps_approved {actor : Staff} {reason : String} {now : ℤ} :
    Keeps (approved actor reason now) := fun _ => rfl

def handle (actor : Staff) (shiftId : ℕ) (reason : String) : DeskTx Unit := do
  let locked ← lockedShift shiftId
  resolveException actor locked.propertyId
  if locked.state = .closed ∧ locked.approvedAt ≠ none then pure ()
  else do
    reject (locked.state ≠ .varianceReview ∨ trim reason = "") (.validation "cash_shift"
      "A pending variance and an approval reason are required.")
    modify fun s => { s with
      shifts := s.shifts.update locked.id (approved actor (trim reason) s.books.clock)
        keeps_approved }

end ApproveCashVariance
