import LodgeOps.Payments.CashDrawer

namespace ReviewPaymentEvidence
open Schema Transaction FrontDeskPaymentGuard
open RecordFrontDeskPayment (FrontDeskPaymentInput)

section Rows

def isFinal (status : PaymentEvidenceStatus) : Bool :=
  status == .approved || status == .rejected

-- A guest's proof of a bank transfer, as finance reviews it.
structure PaymentEvidence where
  id : ℕ
  reservationId : ℕ
  status : PaymentEvidenceStatus := .pending
  amountMinor : Option ℤ
  currency : Option String
  transferReference : Option String := none
  paymentId : Option ℕ := none
  tenderDetailId : Option ℕ := none
  reviewedBy : Option ℕ := none
  reviewedAt : Option ℤ := none
  decidedAt : Option ℤ := none
  reviewerNote : Option String := none
  requestedInformationNote : Option String := none
deriving DecidableEq

deriving instance DecidableEq for FrontDeskPaymentInput

-- The front desk's command under its key, with what it was asked and what it answered.
structure TenderCommand where
  id : ℕ
  idempotencyKey : String
  payload : FrontDeskPaymentInput
  detailId : ℕ
deriving DecidableEq

instance : Keyed PaymentEvidence := ⟨PaymentEvidence.id⟩
instance : Keyed TenderCommand := ⟨TenderCommand.id⟩

structure ReviewDesk where
  desk : CashDesk
  submissions : Table PaymentEvidence := .empty
  commands : Table TenderCommand := .empty

def ReviewDesk.withDesk (s : ReviewDesk) (desk : CashDesk) : ReviewDesk := { s with desk := desk }

abbrev ReviewTx (α : Type) := Transaction Failure ReviewDesk α

def onDesk {α : Type} (x : DeskTx α) : ReviewTx α := zoom ReviewDesk.desk ReviewDesk.withDesk x

def onBooks {α : Type} (x : Tx α) : ReviewTx α := onDesk (CashShift.onBooks x)

def saved (e r : PaymentEvidence) : PaymentEvidence := { e with id := r.id }

theorem keeps_saved (e : PaymentEvidence) : Keeps (saved e) := fun _ => rfl

def save (e : PaymentEvidence) : ReviewTx Unit := modify fun s => { s with
  submissions := s.submissions.update e.id (saved e) (keeps_saved _) }

def lockedEvidence (reservationId evidenceId : ℕ) : ReviewTx PaymentEvidence := do
  let s ← get
  let locked ← orFail (s.submissions.find? evidenceId) .modelNotFound
  reject (locked.reservationId ≠ reservationId)
    (.validation "evidence" "The evidence reservation changed during review.")
  pure locked

end Rows

section Tenders

-- The card scan of the tender's texts, and the digest that stands in for a missing reference.
structure ReviewPlatform where
  assertSafe : FrontDeskPaymentInput → Except Failure Unit := fun _ => .ok ()
  digest : String → String := id

def command? (s : ReviewDesk) (key : String) : Option TenderCommand :=
  s.commands.first? fun c => c.idempotencyKey == key

def recordedCommand (key : String) (input : FrontDeskPaymentInput) (detailId i : ℕ) :
    TenderCommand where
  id := i
  idempotencyKey := key
  payload := input
  detailId := detailId

theorem names_recordedCommand (key : String) (input : FrontDeskPaymentInput) (detailId : ℕ) :
    Names (recordedCommand key input detailId) := fun _ => rfl

-- The detail is the row that the front desk's command has just created.
def postTender (p : ReviewPlatform) (actor : Staff) (input : FrontDeskPaymentInput) :
    DeskTx PaymentTenderDetail := do
  let s ← get
  RecordFrontDeskPayment.handle p.assertSafe actor input
  let s' ← get
  orFail (s'.tenders.find? s.tenders.next) .modelNotFound

def tender (p : ReviewPlatform) (actor : Staff) (key : String) (input : FrontDeskPaymentInput) :
    ReviewTx PaymentTenderDetail := do
  let s ← get
  match command? s key with
  | some c => do
    reject (c.payload ≠ input) (.validation "idempotency_key"
      "This command key was already used with a different request body.")
    orFail (s.desk.tenders.find? c.detailId) .modelNotFound
  | none => do
    let detail ← onDesk (postTender p actor input)
    modify fun s => { s with
      commands := s.commands.insert (recordedCommand key input detail.id)
        (names_recordedCommand _ _ _) }
    pure detail

end Tenders

section Decisions

def filled (text : Option String) : Option String := text.filter fun t => t != "" && t != "0"

def approvalKey (evidenceId : ℕ) : String := "evidence-approval:" ++ uuidText evidenceId

def reference (p : ReviewPlatform) (e : PaymentEvidence) : String :=
  (filled e.transferReference).getD
    ("evidence-" ++ String.ofList ((p.digest (uuidText e.id)).toList.take 24))

def approvalInput (p : ReviewPlatform) (e : PaymentEvidence) (amountMinor : ℤ)
    (deposit : Option Deposit) (note : Option String) : FrontDeskPaymentInput where
  reservationId := e.reservationId
  channel := .bankTransfer
  amountMinor := amountMinor
  depositId := deposit.map Deposit.id
  transactionReference := some (reference p e)
  note := filled (some (trim (note.getD "")))

def depositFor (db : Database) (reservationId : ℕ) (amountMinor : ℤ) (depositId : Option ℕ) :
    Except Failure (Option Deposit) :=
  match depositId with
  | none => .ok (db.deposits.oldest? (fun d => d.reservationId == reservationId &&
      d.status == .due && decide (d.amountMinor ≤ amountMinor)) Deposit.dueAt)
  | some i => do
    let deposit ← found ((db.deposits.find? i).filter fun d => d.reservationId == reservationId)
      .modelNotFound
    .ok (some deposit)

structure Declared where
  amountMinor : ℤ
  deposit : Option Deposit

def undeclared : Failure :=
  .validation "amount_minor" "A declared amount and currency are required before approval."

def assertApprovable (db : Database) (r : Reservation) (e : PaymentEvidence)
    (depositId : Option ℕ) : Except Failure Declared := do
  refuse (e.status = .rejected) (.validation "status" "Rejected evidence cannot be approved.")
  let amountMinor ← found e.amountMinor undeclared
  refuse (amountMinor < 1) undeclared
  let currency ← found e.currency undeclared
  refuse (upper currency ≠ r.currency)
    (.validation "currency" "Evidence currency must match the reservation currency.")
  let deposit ← depositFor db r.id amountMinor depositId
  .ok ⟨amountMinor, deposit⟩

def approvedWith (payment : Payment) (detail : PaymentTenderDetail) (actor : Staff)
    (note : Option String) (now : ℤ) (e : PaymentEvidence) : PaymentEvidence :=
  { e with
    status := .approved
    paymentId := some payment.id
    tenderDetailId := some detail.id
    reviewedBy := some actor.id
    reviewedAt := some now
    decidedAt := some now
    reviewerNote := filled (some (trim (note.getD "")))
    requestedInformationNote := none }

def payment? (s : ReviewDesk) (i : ℕ) : Option Payment := s.desk.books.payments.find? i

def postApproval (p : ReviewPlatform) (r : Reservation) (e : PaymentEvidence)
    (depositId : Option ℕ) (actor : Option Staff) (note : Option String) : ReviewTx Payment := do
  let declared ← check fun s => assertApprovable s.desk.books r e depositId
  let actor ← orFail actor .modelNotFound
  let detail ← tender p actor (approvalKey e.id)
    (approvalInput p e declared.amountMinor declared.deposit note)
  let s ← get
  let payment ← orFail (detail.paymentId.bind (payment? s))
    (.validation "payment" "Approved evidence did not produce a posted payment.")
  save (approvedWith payment detail actor note s.desk.books.clock e)
  pure payment

def answered (e : PaymentEvidence) : Option ℕ :=
  if e.status = .approved then e.paymentId else none

def approve (p : ReviewPlatform) (reservationId evidenceId : ℕ) (depositId : Option ℕ)
    (actor : Option Staff) (note : Option String) : ReviewTx Payment := do
  let r ← onBooks (lockedReservation reservationId)
  let locked ← lockedEvidence r.id evidenceId
  match answered locked with
  | some i => do
    let s ← get
    orFail (payment? s i) .modelNotFound
  | none => postApproval p r locked depositId actor note

def decidedAs (status : PaymentEvidenceStatus) (note : String) (actorId : Option ℕ) (now : ℤ)
    (e : PaymentEvidence) : PaymentEvidence :=
  { e with
    status := status
    reviewedBy := actorId
    reviewedAt := some now
    decidedAt := if isFinal status then some now else none
    reviewerNote := if status = .rejected then some note else none
    requestedInformationNote := if status = .moreInformationRequired then some note else none }

def decideWithoutPayment (reservationId evidenceId : ℕ) (status : PaymentEvidenceStatus)
    (note : String) (actorId : Option ℕ) : ReviewTx Unit := do
  let r ← onBooks (lockedReservation reservationId)
  let locked ← lockedEvidence r.id evidenceId
  reject (locked.status = .approved) (.validation "status"
    "Approved evidence cannot be changed. Reverse the payment instead.")
  reject (trim note = "") (.validation "reviewer_note" "A decision note is required.")
  let s ← get
  save (decidedAs status (trim note) actorId s.desk.books.clock locked)

def reject (reservationId evidenceId : ℕ) (note : String) (actorId : Option ℕ) : ReviewTx Unit :=
  decideWithoutPayment reservationId evidenceId .rejected note actorId

def requestMoreInformation (reservationId evidenceId : ℕ) (note : String) (actorId : Option ℕ) :
    ReviewTx Unit :=
  decideWithoutPayment reservationId evidenceId .moreInformationRequired note actorId

end Decisions
end ReviewPaymentEvidence
