import LodgeOps.DirectBooking.PaymentReconciler

namespace RecordSettlementRevision
open Schema Transaction

def date (s : Option String) : Option String :=
  (s.filter (· != "")).map fun t => String.ofList (t.toList.take 10)

def facts (p : ProviderPayment) : SettlementFacts where
  grossMinor := p.settlement.grossMinor.getD p.amountMinor
  feeMinor := p.settlement.feeMinor.getD 0
  taxMinor := p.settlement.taxMinor
  withholdingMinor := p.settlement.withholdingMinor
  financingMinor := p.settlement.financingMinor
  refundedMinor := p.settlement.refundedMinor
  chargebackMinor := p.settlement.chargebackMinor
  netMinor := p.settlement.netMinor.getD p.amountMinor
  currency := p.currency
  settlementCurrency := p.settlement.settlementCurrency
  settlementIdentity := p.settlement.settlementIdentity
  settlementDate := date p.settlement.settlementDate
  settlementStatus := p.settlement.settlementStatus
  payoutIdentity := p.settlement.payoutIdentity
  payoutDate := date p.settlement.payoutDate
  payoutStatus := p.settlement.payoutStatus

def checksum (p : ProviderPayment) : SettlementChecksum := ⟨facts p, p.settlement⟩

def expectedNet (p : ProviderPayment) : ℤ :=
  if p.settlement.netIsAuthoritative then (facts p).netMinor
  else (facts p).grossMinor - (facts p).feeMinor - (facts p).taxMinor.getD 0 -
    (facts p).withholdingMinor.getD 0 - (facts p).financingMinor.getD 0 -
      (facts p).refundedMinor.getD 0 - (facts p).chargebackMinor.getD 0

def recorded? (db : Database) (attempt : PaymentAttempt) (p : ProviderPayment) :
    Option SettlementEntry :=
  db.settlementEntries.first? fun e =>
    e.provider == attempt.provider && e.environment == attempt.environment &&
      e.providerAccount == attempt.providerAccount && e.sourceId == p.id

def opened (attempt : PaymentAttempt) (p : ProviderPayment) (i : ℕ) : SettlementEntry where
  id := i
  integrationConnectionId := attempt.integrationConnectionId
  propertyId := attempt.propertyId
  provider := attempt.provider
  environment := attempt.environment
  providerAccount := attempt.providerAccount
  sourceId := p.id
  facts := facts p
  sourceChecksum := checksum p
  matched := none

def firstOrCreate (attempt : PaymentAttempt) (p : ProviderPayment) : Tx ℕ := do
  let db ← get
  match recorded? db attempt p with
  | some e => pure e.id
  | none => do
    set { db with settlementEntries := db.settlementEntries.insert (opened attempt p) }
    pure db.settlementEntries.next

def nextRevision (db : Database) (entryId : ℕ) : ℕ :=
  ((db.settlementRevisions.select fun v => v.settlementEntryId == entryId).map
    SettlementEntryRevision.revision).foldl max 0 + 1

def recordRevision (entryId : ℕ) (p : ProviderPayment) : Tx Unit := do
  let db ← get
  if (db.settlementRevisions.first? fun v => v.settlementEntryId == entryId &&
      v.checksum == checksum p).isSome
  then pure ()
  else set { db with settlementRevisions := db.settlementRevisions.insert fun i =>
    { id := i, settlementEntryId := entryId, revision := nextRevision db entryId
      checksum := checksum p, recordedAt := db.clock } }

def refreshed (attempt : PaymentAttempt) (p : ProviderPayment) (e : SettlementEntry) :
    SettlementEntry :=
  { e with
    propertyId := attempt.propertyId
    facts := facts p
    sourceChecksum := checksum p
    matched := some (expectedNet p == (facts p).netMinor)
    resolutionReason := if expectedNet p = (facts p).netMinor then none else e.resolutionReason
    resolvedBy := if expectedNet p = (facts p).netMinor then none else e.resolvedBy
    resolvedAt := if expectedNet p = (facts p).netMinor then none else e.resolvedAt }

def handle (attempt : PaymentAttempt) (p : ProviderPayment) : Tx Unit := do
  let i ← firstOrCreate attempt p
  recordRevision i p
  modify fun db => { db with
    settlementEntries := db.settlementEntries.update i (refreshed attempt p) }

end RecordSettlementRevision

namespace ProcessProviderEvent
open Schema Transaction

section Attempts

-- The columns of an attempt that are set when it is updated.
structure AttemptUpdate where
  state : Option PaymentAttemptState := none
  remote : ProviderPayment
  identified : Bool := false
  checked : Bool := false
  lastError : Option String

def AttemptUpdate.apply (u : AttemptUpdate) (now : ℤ) (a : PaymentAttempt) : PaymentAttempt :=
  { a with
    state := u.state.getD a.state
    providerPaymentId := if u.identified then some u.remote.id else a.providerPaymentId
    providerStatus := some u.remote.status
    providerStatusDetail := u.remote.statusDetail
    lastError := u.lastError
    lastCheckedAt := if u.checked then some now else a.lastCheckedAt
    lastProcessedAt := some now }

def changed {α : Type} [DecidableEq α] (old new row : α) : α := if new = old then row else new

-- Only the columns that differ from the copy in memory are written.
def written (old new row : PaymentAttempt) : PaymentAttempt :=
  { row with
    state := changed old.state new.state row.state
    providerPaymentId := changed old.providerPaymentId new.providerPaymentId row.providerPaymentId
    providerStatus := changed old.providerStatus new.providerStatus row.providerStatus
    providerStatusDetail :=
      changed old.providerStatusDetail new.providerStatusDetail row.providerStatusDetail
    providerPreferenceId :=
      changed old.providerPreferenceId new.providerPreferenceId row.providerPreferenceId
    hostedCheckoutUrl := changed old.hostedCheckoutUrl new.hostedCheckoutUrl row.hostedCheckoutUrl
    checkoutExpiresAt := changed old.checkoutExpiresAt new.checkoutExpiresAt row.checkoutExpiresAt
    attemptCount := changed old.attemptCount new.attemptCount row.attemptCount
    errorCount := changed old.errorCount new.errorCount row.errorCount
    lastError := changed old.lastError new.lastError row.lastError
    lastCheckedAt := changed old.lastCheckedAt new.lastCheckedAt row.lastCheckedAt
    lastProcessedAt := changed old.lastProcessedAt new.lastProcessedAt row.lastProcessedAt }

def live (a : PaymentAttempt) : Bool :=
  a.state == .creating || a.state == .checkoutReady || a.state == .pending

def sameAccount (a b : PaymentAttempt) : Bool :=
  a.provider == b.provider && a.environment == b.environment &&
    a.providerAccount == b.providerAccount

-- The unique indexes of the attempts.
def clashes (a b : PaymentAttempt) : Bool :=
  a.id != b.id &&
    ((a.paymentRequestId == b.paymentRequestId && live a && live b) ||
      (sameAccount a b && a.externalReference == b.externalReference) ||
        (sameAccount a b && a.providerPaymentId.isSome && a.providerPaymentId == b.providerPaymentId))

def saveAttempt (old new : PaymentAttempt) : Tx Unit := do
  let db ← get
  match db.paymentAttempts.find? old.id with
  | none => pure ()
  | some row => do
    reject ((db.paymentAttempts.rows.any (clashes (written old new row))) = true)
      (.runtime "payment_attempts_unique")
    set { db with paymentAttempts := db.paymentAttempts.update old.id (written old new) }

end Attempts

section Plan

inductive Task
  | fetchDispute
  | fetchPayment
  | recordDispute (remote : DisputeFacts)
  | find (remote : ProviderPayment)
  | save (attempt : PaymentAttempt) (update : AttemptUpdate)
  | mark (attempt : PaymentAttempt) (message : String)
  | review (attempt : PaymentAttempt) (remote : ProviderPayment) (reason : String)
  | recordNeedsReview (attemptId : ℕ) (remote : ProviderPayment) (reason : String)
  | needsReview (attemptId : ℕ) (reason : String)
  | recordProvider (attempt : PaymentAttempt) (remote : ProviderPayment)
  | settle (attempt : PaymentAttempt) (remote : ProviderPayment)
  | approved (attemptId : ℕ)
  | failed (attemptId : ℕ) (reason : String)
  | conclude (state : ProviderEventState) (lastError : Option String)

def strContains (s needle : String) : Bool :=
  s.toList.tails.any fun t => needle.toList.isPrefixOf t

def topicOf (e : ProviderEvent) : String := String.ofList (e.topic.toList.map Char.toLower)

def isDisputeEvent (e : ProviderEvent) : Bool := strContains (topicOf e) "chargeback"

def isClaimEvent (e : ProviderEvent) : Bool := strContains (topicOf e) "claim"

def claimMessage : String :=
  "Mercado Pago claim notifications are unsupported in this slice and remain unapplied for " ++
    "Finance review."

def mismatch (message : String) : Task := .conclude .mismatched (some message)

def plan (e : ProviderEvent) : List Task :=
  if isClaimEvent e then [mismatch claimMessage]
  else if isDisputeEvent e then [.fetchDispute]
  else [.fetchPayment]

def isDirectBooking (db : Database) (attempt : PaymentAttempt) : Bool :=
  (PaymentService.orderOf? db attempt.reservationId).isSome

def attempt? (db : Database) (e : ProviderEvent) (remote : ProviderPayment) :
    Option PaymentAttempt :=
  db.paymentAttempts.first? fun a =>
    a.integrationConnectionId == e.integrationConnectionId && a.provider == e.provider &&
      a.environment == e.environment && a.providerAccount == e.providerAccount &&
        (a.externalReference == remote.externalReference || a.providerPaymentId == some remote.id)

def «matches» (e : ProviderEvent) (a : PaymentAttempt) (p : ProviderPayment) : Bool :=
  e.resourceId == p.id && e.providerAccount == p.providerAccount &&
    a.externalReference == p.externalReference && a.providerAccount == p.providerAccount &&
      a.chargeAmountMinor == p.amountMinor && a.chargeCurrency == p.currency

def state (providerStatus : String) : Option PaymentAttemptState :=
  if providerStatus = "approved" then some .approved
  else if providerStatus = "pending" ∨ providerStatus = "in_process" ∨
    providerStatus = "in_mediation" then some .pending
  else if providerStatus = "cancelled" then some .cancelled
  else if providerStatus = "rejected" then some .rejected
  else none

def mismatchMessage : String := "Provider identity, account, amount, or currency mismatch."

def unknownMessage : String := "Unknown provider payment state; left unapplied for Finance."

def mismatched (p : ProviderPayment) (message : String) : AttemptUpdate where
  state := some .mismatched
  remote := p
  identified := true
  lastError := some message

def retained (p : ProviderPayment) (message : String) : AttemptUpdate where
  remote := p
  checked := true
  lastError := some message

def advanced (p : ProviderPayment) (s : PaymentAttemptState) : AttemptUpdate where
  state := some s
  remote := p
  identified := true
  checked := true
  lastError := none

def refundMessage : String :=
  "Provider reports a refund; Finance must recover the identified provider refund before an Inn " ++
    "folio effect."

def chargebackMessage : String :=
  "Chargeback reported by payment lookup; awaiting/processing the authoritative chargeback topic " ++
    "before any folio impact."

def onState (a : PaymentAttempt) (p : ProviderPayment) : PaymentAttemptState → List Task
  | .approved =>
    [.recordProvider { a with state := .approved, providerPaymentId := some p.id, lastError := none } p,
      .settle a p, .approved a.id, .conclude .processed none]
  | .rejected => [.failed a.id "provider_rejected", .conclude .processed none]
  | .cancelled => [.failed a.id "provider_cancelled", .conclude .processed none]
  | _ => [.conclude .processed none]

def onPayment (e : ProviderEvent) (a : PaymentAttempt) (p : ProviderPayment) : List Task :=
  if «matches» e a p = false then
    .save a (mismatched p mismatchMessage) ::
      (if p.status = "approved" then
        [.review a p "provider_identity_or_money_mismatch", mismatch mismatchMessage]
      else [mismatch mismatchMessage])
  else if p.status = "refunded" then
    [.save a (retained p refundMessage), .settle a p, .conclude .processed
      (some "Authoritative refund reported; awaiting provider-refund recovery identity.")]
  else if p.status = "charged_back" then
    [.save a (retained p chargebackMessage), .settle a p, .conclude .processed
      (some ("Chargeback payment status retained; authoritative chargeback lifecycle is handled " ++
        "by the chargeback topic."))]
  else
    match state p.status with
    | none => [.save a (mismatched p unknownMessage), mismatch unknownMessage]
    | some s => .save a (advanced p s) :: onState a p s

def classify (db : Database) (e : ProviderEvent) (p : ProviderPayment) : List Task :=
  match attempt? db e p with
  | none => [mismatch "No payment attempt matches the provider resource."]
  | some a => onPayment e a p

end Plan

section Work

def fresh (i : ℕ) : Tx PaymentAttempt := do
  let db ← get
  orFail (db.paymentAttempts.find? i) .modelNotFound

-- One task of a worker for the event, and what it has to do after it.
def work (e : ProviderEvent) : Task → List Task → Tx (List Task)
  | .recordDispute remote, rest => do
    match ← attempt (RecordProviderDispute.handle e remote) with
    | .ok _ => pure rest
    | .error (.commercialWorkflow m) => pure [mismatch m]
    | .error f => throw f
  | .find remote, _ => do
    let db ← get
    pure (classify db e remote)
  | .save a u, rest => do
    let db ← get
    saveAttempt a (u.apply db.clock a)
    pure rest
  | .mark a m, rest => do
    saveAttempt a { a with state := .mismatched, lastError := some m }
    pure rest
  | .review a remote reason, rest => do
    let db ← get
    pure (if isDirectBooking db a then
      .recordNeedsReview a.id remote reason :: .needsReview a.id reason :: rest else rest)
  | .recordNeedsReview i remote reason, rest => do
    let a ← fresh i
    let _ ← PaymentService.recordProviderNeedsReview a remote reason
    pure rest
  | .needsReview i reason, rest => do
    let a ← fresh i
    DirectBookingPaymentReconciler.needsReview a reason
    pure rest
  | .recordProvider a remote, rest => do
    let current ← fresh a.id
    match ← attempt (PaymentService.recordProvider current remote) with
    | .ok _ => pure rest
    | .error (.commercialWorkflow m) =>
      pure [.mark a m, .review a remote "authoritative_payment_not_applicable", mismatch m]
    | .error f => throw f
  | .settle a remote, rest => do
    RecordSettlementRevision.handle a remote
    pure rest
  | .approved i, rest => do
    let a ← fresh i
    DirectBookingPaymentReconciler.approved a
    pure rest
  | .failed i reason, rest => do
    let a ← fresh i
    DirectBookingPaymentReconciler.failed a reason
    pure rest
  | .fetchDispute, rest => pure (.fetchDispute :: rest)
  | .fetchPayment, rest => pure (.fetchPayment :: rest)
  | .conclude s m, rest => pure (.conclude s m :: rest)

end Work

section Frames
variable {γ : Type} {g : Database → γ} {db : Database} {e : ProviderEvent} {a n : PaymentAttempt}
variable {remote : ProviderPayment} {reason : String} {i : ℕ}

def Task.saves : Task → Bool
  | save _ _ | mark _ _ => true
  | _ => false

def Task.pays : Task → Bool
  | recordProvider _ _ => true
  | _ => false

-- What `g` sees lies outside of what a worker writes, but for attempts and for applied payments.
structure Overlooks (g : Database → γ) : Prop where
  reconciler : DirectBookingPaymentReconciler.Overlooks g
  disputes : RecordProviderDispute.Overlooks g
  payments : ∀ db ps, g { db with payments := ps } = g db
  entries : ∀ db es, g { db with settlementEntries := es } = g db
  revisions : ∀ db vs, g { db with settlementRevisions := vs } = g db

theorem reads_fresh : Reads (fresh i) := by
  intro s a s' hc
  simp only [fresh, commits_bind, commits_get, commits_orFail] at hc
  obtain ⟨_, _, ⟨rfl, rfl⟩, _, rfl⟩ := hc
  rfl

theorem settlement_spares (hg : Overlooks g) :
    Spares g (RecordSettlementRevision.handle a remote) db := by
  refine Spares.bind (Spares.get_bind ?_) fun _ _ _ => Spares.bind (Spares.get_bind ?_)
    fun _ _ _ => Spares.modify (hg.entries _ _)
  · split
    · exact Spares.pure
    · exact Spares.bind (Spares.set (hg.entries _ _)) fun _ _ _ => Spares.pure
  · exact Spares.ite (fun _ => Spares.pure) fun _ => Spares.set (hg.revisions _ _)

theorem work_spares (hg : Overlooks g) (t : Task) (rest : List Task)
    (hsave : t.saves = true → ∀ a n db, Spares g (saveAttempt a n) db)
    (hpay : t.pays = true → ∀ a remote db, Spares g (PaymentService.recordProvider a remote) db) :
    Spares g (work e t rest) db := by
  cases t with
  | fetchDispute => exact Spares.pure
  | fetchPayment => exact Spares.pure
  | conclude s m => exact Spares.pure
  | find remote => exact Spares.get_bind Spares.pure
  | save a u => exact Spares.get_bind (Spares.bind (hsave rfl _ _ _) fun _ _ _ => Spares.pure)
  | mark a m => exact Spares.bind (hsave rfl _ _ _) fun _ _ _ => Spares.pure
  | review a remote reason => exact Spares.get_bind Spares.pure
  | settle a remote => exact Spares.bind (settlement_spares hg) fun _ _ _ => Spares.pure
  | recordNeedsReview i remote reason =>
    exact Spares.read_bind reads_fresh fun _ => Spares.bind
      (PaymentService.recordProviderNeedsReview_spares hg.payments hg.disputes.lines)
        fun _ _ _ => Spares.pure
  | needsReview i reason =>
    exact Spares.read_bind reads_fresh fun _ => Spares.bind
      (DirectBookingPaymentReconciler.needsReview_spares hg.reconciler) fun _ _ _ => Spares.pure
  | approved i =>
    exact Spares.read_bind reads_fresh fun _ => Spares.bind
      (DirectBookingPaymentReconciler.approved_spares hg.reconciler) fun _ _ _ => Spares.pure
  | failed i reason =>
    exact Spares.read_bind reads_fresh fun _ => Spares.bind
      (DirectBookingPaymentReconciler.failed_spares hg.reconciler) fun _ _ _ => Spares.pure
  | recordDispute remote =>
    refine Spares.bind (Spares.attempt (RecordProviderDispute.handle_spares hg.disputes))
      fun r _ _ => ?_
    split
    · exact Spares.pure
    · exact Spares.pure
    · exact Spares.throw
  | recordProvider a remote =>
    refine Spares.read_bind reads_fresh fun current => Spares.bind
      (Spares.attempt (hpay rfl current remote db)) fun r _ _ => ?_
    split
    · exact Spares.pure
    · exact Spares.pure
    · exact Spares.throw

end Frames

section Jobs

-- A worker with its copy of the event. Its tasks end with an outcome; `raised` is one that threw.
structure Job where
  id : ℕ
  event : ProviderEvent
  tasks : List Task
  raised : Bool := false

instance : Keyed Job := ⟨Job.id⟩

structure Queue where
  db : Database
  jobs : Table Job := .empty

inductive Reply
  | dispute (remote : DisputeFacts)
  | payment (remote : ProviderPayment)
  | refused (message : String)

inductive Action
  | claim (eventId : ℕ)
  | answer (jobId : ℕ) (reply : Reply)
  | advance (jobId : ℕ)
  | interrupt (jobId : ℕ) (message : String)
  | crash (jobId : ℕ)
  | exhaust (jobId : ℕ) (message : String)
  | wait (seconds : ℕ)
  | elsewhere (result : Database)

def absorbing (s : ProviderEventState) : Bool := s == .processed || s == .mismatched

def claimable (now : ℤ) (e : ProviderEvent) : Bool :=
  match e.processingState with
  | .processed | .duplicate | .mismatched => false
  | .processing => decide (e.updatedAt ≤ now - 90)
  | .received | .failed => true

def claimed (now : ℤ) (e : ProviderEvent) : ProviderEvent :=
  { e with
    processingState := .processing
    attemptCount := e.attemptCount + 1
    lastError := if e.processingState = .processing
      then some "Reclaimed after the previous processing lease expired." else none
    updatedAt := now }

def limit (m : String) : String :=
  if m.length ≤ 500 then m
  else String.ofList ((m.toList.take 500).reverse.dropWhile blank).reverse ++ "..."

-- The outcome is always written; of the other columns those that differ from the worker's copy.
def concluded (copy : ProviderEvent) (s : ProviderEventState) (m : Option String) (now : ℤ)
    (e : ProviderEvent) : ProviderEvent :=
  { e with
    processingState := changed copy.processingState s e.processingState
    lastError := changed copy.lastError m e.lastError
    processedAt := if s = .failed then e.processedAt else some now
    updatedAt := now }

def exhausted (m : String) (now : ℤ) (e : ProviderEvent) : ProviderEvent :=
  { e with processingState := .failed, lastError := some (limit m), updatedAt := now }

def Failure.text : Failure → String
  | .allocationConflict m _ _ | .validation _ m | .commercialWorkflow m | .logic m
  | .invalidArgument m | .directBooking _ m | .runtime m | .domain m | .conflict m => m
  | .invalidStatusTransition current next =>
    "Reservation cannot transition from " ++ current.value ++ " to " ++ next.value ++ "."
  | .modelNotFound => "No query results for model."

def writeEvent (w : Queue) (i : ℕ) (f : ProviderEvent → ProviderEvent) (hf : Keeps f) : Queue :=
  { w with db := { w.db with providerEvents := w.db.providerEvents.update i f hf } }

def assign (w : Queue) (j : ℕ) (tasks : List Task) (raised : Bool) : Queue :=
  { w with jobs := w.jobs.update j fun k => { k with tasks := tasks, raised := raised } }

theorem keeps_claimed (now : ℤ) : Keeps (claimed now) := fun _ => rfl

theorem keeps_concluded (copy : ProviderEvent) (s : ProviderEventState) (m : Option String)
    (now : ℤ) : Keeps (concluded copy s m now) := fun _ => rfl

theorem keeps_exhausted (m : String) (now : ℤ) : Keeps (exhausted m now) := fun _ => rfl

def claim (w : Queue) (i : ℕ) : Except Failure Queue :=
  match w.db.providerEvents.find? i with
  | none => .error .modelNotFound
  | some e =>
    if claimable w.db.clock e then
      .ok { writeEvent w i (claimed w.db.clock) (keeps_claimed _) with
        jobs := w.jobs.insert fun k =>
          { id := k, event := claimed w.db.clock e, tasks := plan (claimed w.db.clock e) } }
    else .ok w

def idle : Failure := .runtime "The worker is not at this task."

def answered : Reply → List Task → Except Failure (List Task)
  | .dispute remote, .fetchDispute :: _ => .ok [.recordDispute remote, .conclude .processed none]
  | .refused m, .fetchDispute :: _ => .ok [mismatch m]
  | .payment remote, .fetchPayment :: _ => .ok [.find remote]
  | _, _ => .error idle

def advance (w : Queue) (k : Job) : Except Failure Queue :=
  match k.tasks with
  | [] => .error idle
  | .conclude s m :: _ =>
    .ok (assign (writeEvent w k.event.id (concluded k.event s m w.db.clock) (keeps_concluded _ _ _ _))
      k.id [] (s == .failed))
  | t :: rest =>
    match (work k.event t rest).run w.db with
    | .ok (tasks, db) => .ok (assign { w with db := db } k.id tasks false)
    | .error f => .ok (assign w k.id [.conclude .failed (some (limit (Failure.text f)))] false)

def onJob (w : Queue) (j : ℕ) (f : Job → Except Failure Queue) : Except Failure Queue :=
  match w.jobs.find? j with
  | some k => f k
  | none => .error idle

def step (w : Queue) : Action → Except Failure Queue
  | .claim i => claim w i
  | .answer j r => onJob w j fun k =>
    match answered r k.tasks with
    | .ok tasks => .ok (assign w j tasks false)
    | .error f => .error f
  | .advance j => onJob w j (advance w)
  | .interrupt j m => onJob w j fun k =>
    if k.tasks.isEmpty then .error idle
    else .ok (assign w j [.conclude .failed (some (limit m))] false)
  | .crash j => onJob w j fun k =>
    if k.tasks.isEmpty then .error idle else .ok (assign w j [] true)
  | .exhaust j m => onJob w j fun k =>
    if k.raised then
      .ok (assign (writeEvent w k.event.id (exhausted m w.db.clock) (keeps_exhausted _ _)) j [] false)
    else .error idle
  | .wait seconds => .ok { w with db := { w.db with clock := w.db.clock + seconds } }
  | .elsewhere db => .ok { w with db := db }

def act (a : Action) : Transaction Failure Queue Unit := fun w =>
  match step w a with
  | .ok w' => .ok ((), w')
  | .error f => .error f

end Jobs
end ProcessProviderEvent
