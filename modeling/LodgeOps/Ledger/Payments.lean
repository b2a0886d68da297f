import LodgeOps.Ledger.Folio

namespace PaymentService
open Schema Transaction

section Validity

def manualMap : String → Option PaymentChannel
  | "bank_transfer" => some .bankTransfer
  | "cash" => some .cash
  | "card" => some .externalTerminal
  | "other" => some .manualOther
  | "manual" => some .manualOther
  | _ => none

def unidentified (p : Payment) : Bool :=
  p.provider.isNone && p.providerReference.isNone && p.providerAccount.isNone &&
    p.environment.isNone

def written (s : Option String) : Bool := s.any fun t => trim t != ""

def identified (p : Payment) : Bool :=
  written p.provider && written p.providerReference && written p.providerAccount &&
    p.environment.isSome

def validManual (p : Payment) : Bool :=
  p.origin == .manual && p.entryMode == .staffRecorded &&
    manualMap p.method == some p.channel && unidentified p

def validProvider (p : Payment) : Bool :=
  p.origin == .provider && p.entryMode == .providerReported && identified p &&
    ["card", "provider", "mercado_pago_checkout_pro"].contains p.method &&
    [PaymentChannel.onlineCheckout, .integratedTerminal, .qr].contains p.channel

def assertConsistent (p : Payment) : Except Failure Unit :=
  refuse (validManual p = false ∧ validProvider p = false) (.validation "payment"
    "Payment origin, channel, entry mode, method, and provider identity are contradictory.")

end Validity

section Identity

def sameIdentity (p q : Payment) : Bool :=
  p.provider == q.provider && p.environment == q.environment &&
    p.providerAccount == q.providerAccount && p.providerReference == q.providerReference

def recorded? (db : Database) (provider : String) (environment : Environment)
    (account reference : String) : Option Payment :=
  db.payments.first? fun p => p.provider == some provider && p.environment == some environment &&
    p.providerAccount == some account && p.providerReference == some reference

-- The partial unique index on the identity of provider-origin payments.
def taken (db : Database) (p : Payment) : Bool :=
  (db.payments.first? fun q => q.origin == .provider && sameIdentity q p).isSome

def createPayment (mk : ℕ → Payment) (hk : Names mk := by intro i; rfl) : Tx Payment := do
  let db ← get
  check fun _ => assertConsistent (mk db.payments.next)
  reject ((mk db.payments.next).origin = .provider ∧ taken db (mk db.payments.next) = true)
    (.runtime "payments_provider_identity_unique")
  set { db with payments := db.payments.insert mk hk }
  pure (mk db.payments.next)

end Identity

section Links

def lockedRequest (i : ℕ) : Tx PaymentRequest := do
  let db ← get
  orFail (db.paymentRequests.find? i) .modelNotFound

def lockedAttempt (i : ℕ) : Tx PaymentAttempt := do
  let db ← get
  orFail (db.paymentAttempts.find? i) .modelNotFound

def lockedDeposit (i : Option ℕ) : Tx (Option Deposit) := do
  let db ← get
  match i with
  | none => pure none
  | some i => some <$> orFail (db.deposits.find? i) .modelNotFound

def settled (paymentId : ℕ) (paidAt : ℤ) (q : PaymentRequest) : PaymentRequest :=
  { q with paymentId := some paymentId, state := .paid, paidAt := some paidAt }

def settleRequest (requestId paymentId : ℕ) (paidAt : ℤ) : Tx Unit :=
  modify fun db => { db with
    paymentRequests := db.paymentRequests.update requestId (settled paymentId paidAt) }

def covered (paymentId : ℕ) (d : Deposit) : Deposit :=
  { d with paymentId := some paymentId, status := .paid }

def settleDeposit (deposit : Option Deposit) (paymentId : ℕ) : Tx Unit :=
  match deposit with
  | none => pure ()
  | some d => modify fun db => { db with deposits := db.deposits.update d.id (covered paymentId) }

def payable (db : Database) (q : PaymentRequest) : Bool :=
  (q.state == .opened || q.state == .processing) && decide (db.clock ≤ q.expiresAt)

def outstanding (db : Database) (r : Reservation) : ℤ :=
  max 0 (Folio.summary db r).balanceMinor

end Links

section Receipts

def sameDocument (kind : DocumentKind) (reservationId : ℕ) (paymentId : Option ℕ)
    (locale key : String) (q : DocumentGenerationRequest) : Bool :=
  q.kind == kind && q.reservationId == reservationId && q.paymentId == paymentId &&
    q.locale == locale && q.idempotencyKey == key

def requestDocument (r : Reservation) (kind : DocumentKind) (key : String)
    (paymentId : Option ℕ) : Tx Unit := do
  let db ← get
  if (db.documentRequests.first? (sameDocument kind r.id paymentId db.locale key)).isSome
  then pure ()
  else set { db with documentRequests := db.documentRequests.insert fun i =>
    { id := i, kind := kind, reservationId := r.id, paymentId := paymentId
      locale := db.locale, idempotencyKey := key } }

def orderOf? (db : Database) (reservationId : ℕ) : Option DirectBookingOrder :=
  db.orders.first? fun o => o.reservationId == some reservationId

def requestProviderReceipt (r : Reservation) (payment : Payment) : Tx Unit := do
  let db ← get
  if (orderOf? db r.id).isSome then pure ()
  else
    requestDocument r .paymentReceipt ("provider-payment-receipt:" ++ toString payment.id)
      (some payment.id)

end Receipts

section Provider

def staleMessage : String :=
  "The provider payment belongs to a stale, expired, revoked, superseded, or already-paid " ++
    "request and requires Finance review/refund."

def foreignMessage : String :=
  "The provider payment identity is already attached to a different reservation or attempt."

def assertOwned (r : Reservation) (attempt : PaymentAttempt) (existing : Payment) :
    Except Failure Unit :=
  refuse (existing.reservationId ≠ r.id ∨ existing.metadata.paymentAttemptId ≠ some attempt.id)
    (.commercialWorkflow foreignMessage)

def replayProvider (r : Reservation) (request : PaymentRequest) (attempt : PaymentAttempt)
    (existing : Payment) : Tx Payment := do
  check fun _ => assertOwned r attempt existing
  if request.paymentId = some existing.id then do
    requestProviderReceipt r existing
    pure existing
  else do
    let db ← get
    reject (payable db request = false ∨ request.paymentId ≠ none)
      (.commercialWorkflow staleMessage)
    settleRequest request.id existing.id (existing.processedAt.getD db.clock)
    requestProviderReceipt r existing
    pure existing

def providerPayment (r : Reservation) (request : PaymentRequest) (attempt : PaymentAttempt)
    (reference : String) (now : ℤ) (i : ℕ) : Payment where
  id := i
  reservationId := r.id
  status := .succeeded
  method := "mercado_pago_checkout_pro"
  channel := .onlineCheckout
  entryMode := .providerReported
  origin := .provider
  provider := some attempt.provider
  environment := some attempt.environment
  providerAccount := some attempt.providerAccount
  providerReference := some reference
  currency := request.sourceCurrency
  amountMinor := request.sourceAmountMinor
  processedAt := some now
  metadata :=
    { paymentAttemptId := some attempt.id, externalReference := some attempt.externalReference }

def applyProvider (r : Reservation) (request : PaymentRequest) (attempt : PaymentAttempt)
    (reference : String) : Tx Payment := do
  let db ← get
  reject (payable db request = false) (.commercialWorkflow staleMessage)
  reject (request.paymentId ≠ none)
    (.commercialWorkflow "The payment request is already satisfied by another payment.")
  reject (outstanding db r < request.sourceAmountMinor) (.commercialWorkflow
    "The provider payment no longer matches the reservation outstanding balance.")
  let deposit ← lockedDeposit attempt.depositId
  reject (deposit.any (fun d => d.status != .due) = true) (.commercialWorkflow
    "The provider payment cannot be applied because the deposit is no longer due.")
  let payment ← createPayment (providerPayment r request attempt reference db.clock)
  let _ ← Folio.postPayment payment none
  settleDeposit deposit payment.id
  settleRequest request.id payment.id db.clock
  requestProviderReceipt r payment
  pure payment

def recordProvider (attempt : PaymentAttempt) (remote : ProviderPayment) : Tx Payment := do
  let r ← lockedReservation attempt.reservationId
  let request ← lockedRequest attempt.paymentRequestId
  let locked ← lockedAttempt attempt.id
  reject (remote.providerAccount = "" ∨ remote.providerAccount ≠ locked.providerAccount)
    (.commercialWorkflow "The provider payment account does not match the payment attempt.")
  let db ← get
  match recorded? db locked.provider locked.environment locked.providerAccount remote.id with
  | some existing => replayProvider r request locked existing
  | none => applyProvider r request locked remote.id

def halfUp (n d : ℤ) : ℤ :=
  let rounded : ℤ := ((2 * n.natAbs + d.natAbs) / (2 * d.natAbs) : ℕ)
  if n * d < 0 then -rounded else rounded

def reviewAmount (request : PaymentRequest) (attempt : PaymentAttempt) (remote : ProviderPayment) :
    ℤ :=
  if remote.currency = request.sourceCurrency then remote.amountMinor
  else if remote.currency = attempt.chargeCurrency ∧ 0 < attempt.chargeAmountMinor then
    halfUp (remote.amountMinor * attempt.sourceAmountMinor) attempt.chargeAmountMinor
  else request.sourceAmountMinor

def reviewAccount (attempt : PaymentAttempt) (remote : ProviderPayment) : String :=
  (trimmed? (some remote.providerAccount)).getD attempt.providerAccount

def reviewPayment (r : Reservation) (request : PaymentRequest) (attempt : PaymentAttempt)
    (remote : ProviderPayment) (reason : String) (now : ℤ) (i : ℕ) : Payment where
  id := i
  reservationId := r.id
  status := .succeeded
  method := "mercado_pago_checkout_pro"
  channel := .onlineCheckout
  entryMode := .providerReported
  origin := .provider
  provider := some attempt.provider
  environment := some attempt.environment
  providerAccount := some (reviewAccount attempt remote)
  providerReference := some remote.id
  currency := request.sourceCurrency
  amountMinor := max 1 (reviewAmount request attempt remote)
  processedAt := some now
  metadata :=
    { paymentAttemptId := some attempt.id
      externalReference := some remote.externalReference
      unappliedDirectBookingFunds := true
      needsReviewReason := some reason
      actualChargeAmountMinor := some remote.amountMinor
      actualChargeCurrency := some remote.currency.toUpper }

def recordProviderNeedsReview (attempt : PaymentAttempt) (remote : ProviderPayment)
    (reason : String) : Tx Payment := do
  let r ← lockedReservation attempt.reservationId
  let request ← lockedRequest attempt.paymentRequestId
  let locked ← lockedAttempt attempt.id
  let db ← get
  match recorded? db locked.provider locked.environment (reviewAccount locked remote) remote.id with
  | some existing => do
    check fun _ => assertOwned r locked existing
    pure existing
  | none => do
    let payment ← createPayment (reviewPayment r request locked remote reason db.clock)
    let _ ← Folio.postPayment payment none
    pure payment

end Provider

section Manual

def frontDeskChannel (c : PaymentChannel) : Bool :=
  [PaymentChannel.bankTransfer, .cash, .externalTerminal, .manualOther].contains c

def frontDeskPayment (r : Reservation) (channel : PaymentChannel) (amountMinor now : ℤ) (i : ℕ) :
    Payment where
  id := i
  reservationId := r.id
  status := .succeeded
  method := channel.legacyMethod
  channel := channel
  entryMode := .staffRecorded
  origin := .manual
  currency := r.currency
  amountMinor := amountMinor
  processedAt := some now
  metadata := {}

def recordFrontDesk (reservationId : ℕ) (channel : PaymentChannel) (amountMinor : ℤ)
    (actorId depositId : Option ℕ) : Tx Payment := do
  let r ← lockedReservation reservationId
  reject (frontDeskChannel channel = false) (.commercialWorkflow
    "Only staff-recorded tender channels are accepted by the front-desk command.")
  reject (amountMinor ≤ 0)
    (.commercialWorkflow "The payment amount must be greater than zero.")
  reject (r.folioStatus = .closed ∨ r.status = .cancelled ∨ r.status = .noShow)
    (.commercialWorkflow
      "Payments cannot be posted to a closed, cancelled, or no-show reservation.")
  let db ← get
  reject (outstanding db r < amountMinor)
    (.commercialWorkflow "The payment exceeds the remaining reservation balance.")
  let deposit ← lockedDeposit depositId
  reject (deposit.any (fun d =>
      d.reservationId != r.id || d.currency != r.currency || d.status != .due) = true)
    (.commercialWorkflow "Only a due deposit in the reservation currency may be selected.")
  reject (deposit.any (fun d => decide (amountMinor < d.amountMinor)) = true)
    (.commercialWorkflow "The payment does not cover the selected deposit.")
  let payment ← createPayment (frontDeskPayment r channel amountMinor db.clock)
  let _ ← Folio.postPayment payment actorId
  settleDeposit deposit payment.id
  pure payment

structure ManualEntry where
  reservationId : ℕ
  method : String
  amountMinor : ℤ
  provider : Option String := none
  providerReference : Option String := none
  depositId : Option ℕ := none
  metadata : PaymentMetadata := {}
deriving DecidableEq

def manualChannel : String → PaymentChannel
  | "bank_transfer" => .bankTransfer
  | "cash" => .cash
  | "card" => .externalTerminal
  | _ => .manualOther

def manualPayment (r : Reservation) (data : ManualEntry) (i : ℕ) : Payment where
  id := i
  reservationId := data.reservationId
  status := .pending
  method := data.method
  channel := manualChannel data.method
  entryMode := .staffRecorded
  origin := .manual
  currency := r.currency
  amountMinor := data.amountMinor
  metadata :=
    { data.metadata with
      manualProcessorAlias := trimmed? data.provider
      manualTransactionReference := trimmed? data.providerReference }

def manualTwin? (db : Database) (data : ManualEntry) : Option Payment :=
  if (trimmed? data.provider).isSome && (trimmed? data.providerReference).isSome then
    db.payments.first? fun p =>
      p.metadata.manualProcessorAlias == trimmed? data.provider &&
        p.metadata.manualTransactionReference == trimmed? data.providerReference
  else none

def reconciled (now : ℤ) (p : Payment) : Payment :=
  { p with status := .succeeded, processedAt := some now }

def linkedElsewhere (db : Database) (r : Reservation) : Bool :=
  (db.paymentRequests.first? fun q => q.reservationId == r.id && q.paymentId.isSome).isSome

def lockedPayment (i : ℕ) : Tx Payment := do
  let db ← get
  orFail (db.payments.find? i) .modelNotFound

def settlePending (r : Reservation) (locked : Payment) (actorId depositId : Option ℕ) :
    Tx Payment := do
  reject (locked.status ≠ .pending)
    (.commercialWorkflow "Only pending payments may be reconciled.")
  let db ← get
  reject (outstanding db r < locked.amountMinor ∧ linkedElsewhere db r = true)
    (.commercialWorkflow
      "The payment exceeds the remaining reservation balance and requires Finance review.")
  let deposit ← lockedDeposit depositId
  reject (deposit.any (fun d => d.reservationId != locked.reservationId) = true)
    (.commercialWorkflow "The deposit and payment must belong to the same reservation.")
  reject (deposit.any (fun d => d.status != .due) = true)
    (.commercialWorkflow "Only a due deposit may be reconciled.")
  reject (deposit.any (fun d => decide (locked.amountMinor < d.amountMinor)) = true)
    (.commercialWorkflow "The payment does not cover the selected deposit.")
  set { db with payments := db.payments.update locked.id (reconciled db.clock) }
  let _ ← Folio.postPayment (reconciled db.clock locked) actorId
  settleDeposit deposit locked.id
  pure (reconciled db.clock locked)

def reconcile (paymentId : ℕ) (actorId depositId : Option ℕ) : Tx Payment := do
  let locked ← lockedPayment paymentId
  let r ← lockedReservation locked.reservationId
  reject (locked.origin = .provider) (.commercialWorkflow
    "Provider-origin payments can only be reconciled through the provider workflow.")
  if locked.status = .succeeded then pure locked
  else settlePending r locked actorId depositId

def recordManual (data : ManualEntry) (actorId : Option ℕ) (capture : Bool) : Tx Payment := do
  let r ← lockedReservation data.reservationId
  let db ← get
  match manualTwin? db data with
  | some existing => pure existing
  | none => do
    let payment ← createPayment (manualPayment r data)
    if capture then reconcile payment.id actorId data.depositId else pure payment

end Manual

section Reversal

def blocksReversal (p : Payment) (c : ReservationChange) : Bool :=
  c.reservationId == p.reservationId && c.paymentId == some p.id &&
    ((c.type == .refundRequested && c.status == .requested) ||
      (c.type == .refundCompleted && c.status == .completed))

def reversed (reason : String) (p : Payment) : Payment :=
  { p with status := .reversed, reversalReason := some reason }

def refundDeposits (paymentId : ℕ) (deposits : Table Deposit) : Table Deposit :=
  deposits.updateWhere (fun d => d.paymentId == some paymentId && d.status == .paid) fun d =>
    { d with status := .refunded }

def withdraw (locked : Payment) (reason : String) (actorId : Option ℕ) : Tx Payment := do
  reject (locked.status ≠ .succeeded)
    (.commercialWorkflow "Only reconciled payments may be reversed.")
  let db ← get
  reject ((db.changes.first? (blocksReversal locked)).isSome = true) (.commercialWorkflow
    ("This payment has an open or completed refund. Use a dedicated correction command for " ++
      "any remaining reversible amount."))
  let paymentLine ← orFail (Folio.paymentLine? db locked.id) .modelNotFound
  let _ ← Folio.reverse paymentLine.id reason actorId
  modify fun s => { s with
    payments := s.payments.update locked.id (reversed (trim reason))
    deposits := refundDeposits locked.id s.deposits }
  pure (reversed (trim reason) locked)

def reverse (paymentId : ℕ) (reason : String) (actorId : Option ℕ) : Tx Payment := do
  let locked ← lockedPayment paymentId
  let _ ← lockedReservation locked.reservationId
  reject (locked.origin = .provider) (.commercialWorkflow
    "Provider-origin payments must be refunded through the provider workflow.")
  if locked.status = .reversed then pure locked
  else withdraw locked reason actorId

end Reversal
section Commits
variable {db db' : Database} {i : ℕ} {j : Option ℕ} {p existing : Payment} {u : Unit}
variable {r : Reservation} {request : PaymentRequest} {attempt : PaymentAttempt}

theorem commits_lockedRequest : Commits (lockedRequest i) db request db' ↔
    db.paymentRequests.find? i = some request ∧ db = db' := by
  simp [lockedRequest, and_comm]

theorem commits_lockedAttempt : Commits (lockedAttempt i) db attempt db' ↔
    db.paymentAttempts.find? i = some attempt ∧ db = db' := by
  simp [lockedAttempt, and_comm]

theorem commits_lockedPayment : Commits (lockedPayment i) db p db' ↔
    db.payments.find? i = some p ∧ db = db' := by
  simp [lockedPayment, and_comm]

def deposit? (db : Database) (j : Option ℕ) (d : Option Deposit) : Prop :=
  d = j.bind db.deposits.find? ∧ (j.isSome → d.isSome)

theorem commits_lockedDeposit {d : Option Deposit} :
    Commits (lockedDeposit j) db d db' ↔ deposit? db j d ∧ db = db' := by
  cases j with
  | none =>
    simp only [lockedDeposit, commits_bind, commits_get, commits_pure, deposit?, Option.bind_none,
      Option.isSome_none, Bool.false_eq_true, false_implies, and_true]
    constructor
    · rintro ⟨_, _, ⟨rfl, rfl⟩, rfl, rfl⟩
      exact ⟨rfl, rfl⟩
    · rintro ⟨rfl, rfl⟩
      exact ⟨db, db, ⟨rfl, rfl⟩, rfl, rfl⟩
  | some j =>
    simp only [lockedDeposit, commits_bind, commits_get, commits_map, commits_orFail, deposit?,
      Option.bind_some, Option.isSome_some, true_implies]
    constructor
    · rintro ⟨_, _, ⟨rfl, rfl⟩, e, ⟨he, rfl⟩, rfl⟩
      exact ⟨⟨he.symm, rfl⟩, rfl⟩
    · rintro ⟨⟨hd, hs⟩, rfl⟩
      obtain ⟨e, he⟩ := Option.isSome_iff_exists.mp hs
      exact ⟨db, db, ⟨rfl, rfl⟩, e, ⟨hd.symm.trans he, rfl⟩, he.symm⟩

theorem commits_createPayment {mk : ℕ → Payment} {hk : Names mk}
    (h : Commits (createPayment mk hk) db p db') :
    p = mk db.payments.next ∧ assertConsistent p = .ok () ∧
      ¬ (p.origin = .provider ∧ taken db p = true) ∧
      Table.Appends db.payments db'.payments p ∧ db' = { db with payments := db'.payments } := by
  simp only [createPayment, commits_bind, commits_get, commits_check, commits_reject, commits_set,
    commits_pure] at h
  obtain ⟨_, _, ⟨rfl, rfl⟩, _, _, ⟨hok, rfl⟩, _, _, ⟨ht, rfl⟩, _, _, rfl, rfl, rfl⟩ := h
  exact ⟨rfl, hok, ht, Table.appends_insert hk, rfl⟩

theorem commits_settleRequest {q : ℕ} {t : ℤ} (h : Commits (settleRequest q i t) db u db') :
    Table.Updates db.paymentRequests db'.paymentRequests q (settled i t) ∧
      db' = { db with paymentRequests := db'.paymentRequests } := by
  simp only [settleRequest, commits_modify] at h
  obtain rfl := h
  exact ⟨Table.updates_update, rfl⟩

theorem commits_settleDeposit {d : Option Deposit} (h : Commits (settleDeposit d i) db u db') :
    db' = { db with deposits := db'.deposits } := by
  cases d with
  | none =>
    simp only [settleDeposit, commits_pure] at h
    rw [← h.2]
  | some d =>
    simp only [settleDeposit, commits_modify] at h
    rw [← h]

theorem commits_requestDocument {kind : DocumentKind} {key : String}
    (h : Commits (requestDocument r kind key j) db u db') :
    db' = { db with documentRequests := db'.documentRequests } := by
  simp only [requestDocument, commits_bind, commits_get, commits_ite, commits_pure,
    commits_set] at h
  obtain ⟨_, _, ⟨rfl, rfl⟩, ⟨_, _, rfl⟩ | ⟨_, rfl⟩⟩ := h
  · rfl
  · rfl

theorem commits_requestProviderReceipt (h : Commits (requestProviderReceipt r p) db u db') :
    db' = { db with documentRequests := db'.documentRequests } := by
  simp only [requestProviderReceipt, commits_bind, commits_get, commits_ite, commits_pure] at h
  obtain ⟨_, _, ⟨rfl, rfl⟩, ⟨_, _, rfl⟩ | ⟨_, h⟩⟩ := h
  · rfl
  · exact commits_requestDocument h

structure Located (db : Database) (attempt : PaymentAttempt) (r : Reservation)
    (request : PaymentRequest) (locked : PaymentAttempt) : Prop where
  reservation : db.reservation? attempt.reservationId = some r
  request : db.paymentRequests.find? attempt.paymentRequestId = some request
  attempt : db.paymentAttempts.find? attempt.id = some locked

variable {remote : ProviderPayment} {reason reference : String} {actor : Option ℕ}

theorem commits_recordProvider (h : Commits (recordProvider attempt remote) db p db') :
    ∃ r request locked, Located db attempt r request locked ∧
      remote.providerAccount = locked.providerAccount ∧
      ((∃ existing, recorded? db locked.provider locked.environment locked.providerAccount
          remote.id = some existing ∧
          Commits (replayProvider r request locked existing) db p db') ∨
        (recorded? db locked.provider locked.environment locked.providerAccount remote.id = none ∧
          Commits (applyProvider r request locked remote.id) db p db')) := by
  unfold recordProvider at h
  obtain ⟨r, _, hstay, h⟩ := commits_bind.mp h
  obtain ⟨hr, rfl⟩ := commits_lockedReservation.mp hstay
  obtain ⟨request, _, hrequest, h⟩ := commits_bind.mp h
  obtain ⟨hq, rfl⟩ := commits_lockedRequest.mp hrequest
  obtain ⟨locked, _, hattempt, h⟩ := commits_bind.mp h
  obtain ⟨ha, rfl⟩ := commits_lockedAttempt.mp hattempt
  obtain ⟨hacc, h⟩ := commits_reject_bind.mp h
  rw [commits_get_bind] at h
  refine ⟨r, request, locked, ⟨hr, hq, ha⟩, not_not.mp (not_or.mp hacc).2, ?_⟩
  cases hx : recorded? db locked.provider locked.environment locked.providerAccount remote.id with
  | some existing => exact Or.inl ⟨existing, rfl, by simpa only [hx] using h⟩
  | none => exact Or.inr ⟨rfl, by simpa only [hx] using h⟩

theorem commits_replayProvider
    (h : Commits (replayProvider r request attempt existing) db p db') :
    p = existing ∧ existing.reservationId = r.id ∧
      existing.metadata.paymentAttemptId = some attempt.id ∧
      ((request.paymentId = some existing.id ∧
          db' = { db with documentRequests := db'.documentRequests }) ∨
        (request.paymentId = none ∧ payable db request = true ∧
          Table.Updates db.paymentRequests db'.paymentRequests request.id
            (settled existing.id (existing.processedAt.getD db.clock)) ∧
          db' = { db with
            documentRequests := db'.documentRequests
            paymentRequests := db'.paymentRequests })) := by
  unfold replayProvider at h
  obtain ⟨_, hown, h⟩ := commits_check_bind.mp h
  rw [assertOwned, refuse_eq_ok, not_or, not_not, not_not] at hown
  rcases commits_ite.mp h with ⟨hq, h⟩ | ⟨_, h⟩
  · obtain ⟨_, _, hrec, h⟩ := commits_bind.mp h
    obtain ⟨rfl, rfl⟩ := commits_pure.mp h
    exact ⟨rfl, hown.1, hown.2, Or.inl ⟨hq, commits_requestProviderReceipt hrec⟩⟩
  · obtain ⟨hn, h⟩ := commits_reject_bind.mp (commits_get_bind.mp h)
    obtain ⟨_, t, hset, h⟩ := commits_bind.mp h
    obtain ⟨_, _, hrec, h⟩ := commits_bind.mp h
    obtain ⟨rfl, rfl⟩ := commits_pure.mp h
    rw [not_or, not_not, Bool.not_eq_false] at hn
    obtain ⟨hu, ht⟩ := commits_settleRequest hset
    have hd := commits_requestProviderReceipt hrec
    refine ⟨rfl, hown.1, hown.2, Or.inr ⟨hn.2, hn.1, ?_, ?_⟩⟩
    · rw [hd]
      exact hu
    · rw [hd, ht]

-- The rows a recorded payment leaves behind: the payment, its line, and the links to it.
structure Recorded (db db' : Database) (p : Payment) (actor : Option ℕ) : Prop where
  payment : Table.Appends db.payments db'.payments p
  consistent : assertConsistent p = .ok ()
  fresh : ¬ (p.origin = .provider ∧ taken db p = true)
  line : ∃ t l, t = { db with payments := db'.payments } ∧
    Commits (Folio.postPayment p actor) t l { t with folioLines := db'.folioLines }

theorem postPayment_frame {l : FolioLine} (h : Commits (Folio.postPayment p actor) db l db') :
    db' = { db with folioLines := db'.folioLines } := by
  rcases Folio.commits_postPayment h with ⟨_, rfl⟩ | ⟨_, _, _, _, rfl⟩
  · rfl
  · rfl

theorem recorded_of {mk : ℕ → Payment} {hk : Names mk} {t u : Database} {l : FolioLine}
    (hc : Commits (createPayment mk hk) db p t) (hl : Commits (Folio.postPayment p actor) t l u)
    (hp : db'.payments = u.payments) (hf : db'.folioLines = u.folioLines) :
    p = mk db.payments.next ∧ Recorded db db' p actor := by
  obtain ⟨hmk, hok, hfresh, happ, ht⟩ := commits_createPayment hc
  have hu : u = { t with folioLines := u.folioLines } := postPayment_frame hl
  have hpt : db'.payments = t.payments := by rw [hp, hu]
  refine ⟨hmk, hpt ▸ happ, hok, hfresh, t, l, hpt ▸ ht, ?_⟩
  rwa [hf, ← hu]

theorem commits_applyProvider (h : Commits (applyProvider r request attempt reference) db p db') :
    p = providerPayment r request attempt reference db.clock db.payments.next ∧
      payable db request = true ∧ request.paymentId = none ∧ Recorded db db' p none ∧
      Table.Updates db.paymentRequests db'.paymentRequests request.id (settled p.id db.clock) ∧
      db' = { db with
        payments := db'.payments
        folioLines := db'.folioLines
        deposits := db'.deposits
        paymentRequests := db'.paymentRequests
        documentRequests := db'.documentRequests } := by
  unfold applyProvider at h
  obtain ⟨hpay, h⟩ := commits_reject_bind.mp (commits_get_bind.mp h)
  obtain ⟨hnone, h⟩ := commits_reject_bind.mp h
  obtain ⟨_, h⟩ := commits_reject_bind.mp h
  obtain ⟨d, _, hlock, h⟩ := commits_bind.mp h
  obtain ⟨_, rfl⟩ := commits_lockedDeposit.mp hlock
  obtain ⟨_, h⟩ := commits_reject_bind.mp h
  obtain ⟨q, t, hcreate, h⟩ := commits_bind.mp h
  obtain ⟨l, u, hpost, h⟩ := commits_bind.mp h
  obtain ⟨_, v, hdep, h⟩ := commits_bind.mp h
  obtain ⟨_, w, hset, h⟩ := commits_bind.mp h
  obtain ⟨_, z, hrec, h⟩ := commits_bind.mp h
  obtain ⟨rfl, rfl⟩ := commits_pure.mp h
  have hv := commits_settleDeposit hdep
  obtain ⟨hu, hw⟩ := commits_settleRequest hset
  have hz := commits_requestProviderReceipt hrec
  obtain ⟨hmk, hrecd⟩ : _ ∧ Recorded _ z _ none :=
    recorded_of hcreate hpost (by rw [hz, hw, hv]) (by rw [hz, hw, hv])
  obtain ⟨_, _, _, _, ht⟩ := commits_createPayment hcreate
  have hup : u = { t with folioLines := u.folioLines } := postPayment_frame hpost
  refine ⟨hmk, by simpa using hpay, not_not.mp hnone, hrecd, ?_, ?_⟩
  · rw [hv, hup, ht] at hu
    rw [hz]
    exact hu
  · rw [hz, hw, hv, hup, ht]

theorem commits_recordProviderNeedsReview
    (h : Commits (recordProviderNeedsReview attempt remote reason) db p db') :
    ∃ r request locked, Located db attempt r request locked ∧
      ((recorded? db locked.provider locked.environment (reviewAccount locked remote) remote.id =
          some p ∧ p.reservationId = r.id ∧ p.metadata.paymentAttemptId = some locked.id ∧
          db' = db) ∨
        (recorded? db locked.provider locked.environment (reviewAccount locked remote) remote.id =
          none ∧ p = reviewPayment r request locked remote reason db.clock db.payments.next ∧
          Recorded db db' p none ∧
          db' = { db with payments := db'.payments, folioLines := db'.folioLines })) := by
  simp only [recordProviderNeedsReview, commits_bind, commits_lockedReservation,
    commits_lockedRequest, commits_lockedAttempt, commits_get] at h
  obtain ⟨r, _, ⟨hr, rfl⟩, request, _, ⟨hq, rfl⟩, locked, _, ⟨ha, rfl⟩, _, _, ⟨rfl, rfl⟩, h⟩ := h
  refine ⟨r, request, locked, ⟨hr, hq, ha⟩, ?_⟩
  cases hx : recorded? db locked.provider locked.environment (reviewAccount locked remote)
      remote.id with
  | some existing =>
    simp only [hx, assertOwned, commits_bind, commits_check, refuse_eq_ok, commits_pure] at h
    obtain ⟨_, _, ⟨hown, rfl⟩, rfl, rfl⟩ := h
    rw [not_or, not_not, not_not] at hown
    exact Or.inl ⟨rfl, hown.1, hown.2, rfl⟩
  | none =>
    simp only [hx, commits_bind, commits_pure] at h
    obtain ⟨q, t, hcreate, l, u, hpost, rfl, rfl⟩ := h
    obtain ⟨hmk, hrecd⟩ := recorded_of hcreate hpost rfl rfl
    obtain ⟨_, _, _, _, ht⟩ := commits_createPayment hcreate
    have hup : u = { t with folioLines := u.folioLines } := postPayment_frame hpost
    refine Or.inr ⟨rfl, hmk, hrecd, ?_⟩
    rw [hup, ht]

theorem commits_recordFrontDesk {channel : PaymentChannel} {amount : ℤ}
    (h : Commits (recordFrontDesk i channel amount actor j) db p db') :
    ∃ r, db.reservation? i = some r ∧ 0 < amount ∧ amount ≤ outstanding db r ∧
      p = frontDeskPayment r channel amount db.clock db.payments.next ∧
      Recorded db db' p actor ∧
      db' = { db with
        payments := db'.payments
        folioLines := db'.folioLines
        deposits := db'.deposits } := by
  unfold recordFrontDesk at h
  obtain ⟨r, _, hstay, h⟩ := commits_bind.mp h
  obtain ⟨hr, rfl⟩ := commits_lockedReservation.mp hstay
  obtain ⟨_, h⟩ := commits_reject_bind.mp h
  obtain ⟨hpos, h⟩ := commits_reject_bind.mp h
  obtain ⟨_, h⟩ := commits_reject_bind.mp h
  obtain ⟨hle, h⟩ := commits_reject_bind.mp (commits_get_bind.mp h)
  obtain ⟨d, _, hlock, h⟩ := commits_bind.mp h
  obtain ⟨_, rfl⟩ := commits_lockedDeposit.mp hlock
  obtain ⟨_, h⟩ := commits_reject_bind.mp h
  obtain ⟨_, h⟩ := commits_reject_bind.mp h
  obtain ⟨q, t, hcreate, h⟩ := commits_bind.mp h
  obtain ⟨l, u, hpost, h⟩ := commits_bind.mp h
  obtain ⟨_, v, hdep, h⟩ := commits_bind.mp h
  obtain ⟨rfl, rfl⟩ := commits_pure.mp h
  have hv := commits_settleDeposit hdep
  obtain ⟨hmk, hrecd⟩ : _ ∧ Recorded _ v _ actor :=
    recorded_of hcreate hpost (by rw [hv]) (by rw [hv])
  obtain ⟨_, _, _, _, ht⟩ := commits_createPayment hcreate
  have hup : u = { t with folioLines := u.folioLines } := postPayment_frame hpost
  exact ⟨r, hr, not_le.mp hpos, not_lt.mp hle, hmk, hrecd, by rw [hv, hup, ht]⟩

theorem commits_settlePending {locked : Payment}
    (h : Commits (settlePending r locked actor j) db p db') :
    locked.status = .pending ∧ p = reconciled db.clock locked ∧
      Table.Updates db.payments db'.payments locked.id (reconciled db.clock) ∧
      (∃ t l, t = { db with payments := db'.payments } ∧
        Commits (Folio.postPayment p actor) t l { t with folioLines := db'.folioLines }) ∧
      db' = { db with
        payments := db'.payments
        folioLines := db'.folioLines
        deposits := db'.deposits } := by
  unfold settlePending at h
  obtain ⟨hst, h⟩ := commits_reject_bind.mp h
  obtain ⟨_, h⟩ := commits_reject_bind.mp (commits_get_bind.mp h)
  obtain ⟨d, _, hlock, h⟩ := commits_bind.mp h
  obtain ⟨_, rfl⟩ := commits_lockedDeposit.mp hlock
  obtain ⟨_, h⟩ := commits_reject_bind.mp h
  obtain ⟨_, h⟩ := commits_reject_bind.mp h
  obtain ⟨_, h⟩ := commits_reject_bind.mp h
  obtain ⟨_, t, hset, h⟩ := commits_bind.mp h
  have ht := commits_set.mp hset
  obtain ⟨l, u, hpost, h⟩ := commits_bind.mp h
  obtain ⟨_, v, hdep, h⟩ := commits_bind.mp h
  obtain ⟨rfl, rfl⟩ := commits_pure.mp h
  have hv := commits_settleDeposit hdep
  have hup : u = { t with folioLines := u.folioLines } := postPayment_frame hpost
  have hpay : v.payments = t.payments := by rw [hv, hup]
  have hline : v.folioLines = u.folioLines := by rw [hv]
  refine ⟨not_not.mp hst, rfl, ?_, ⟨t, l, ?_, ?_⟩, ?_⟩
  · rw [hpay, ← ht]
    exact Table.updates_update
  · rw [hpay, ← ht]
  · rwa [hline, ← hup]
  · rw [hv, hup, ← ht]

theorem commits_reconcile (h : Commits (reconcile i actor j) db p db') :
    ∃ locked, db.payments.find? i = some locked ∧ locked.origin ≠ .provider ∧
      ((locked.status = .succeeded ∧ p = locked ∧ db' = db) ∨
        ∃ r, Commits (settlePending r locked actor j) db p db') := by
  simp only [reconcile, commits_bind, commits_lockedPayment, commits_lockedReservation,
    commits_reject, commits_ite, commits_pure] at h
  obtain ⟨locked, _, ⟨hl, rfl⟩, r, _, ⟨_, rfl⟩, _, _, ⟨ho, rfl⟩, ⟨hst, rfl, rfl⟩ | ⟨_, h⟩⟩ := h
  · exact ⟨locked, hl, ho, Or.inl ⟨hst, rfl, rfl⟩⟩
  · exact ⟨locked, hl, ho, Or.inr ⟨r, h⟩⟩

theorem commits_recordManual {data : ManualEntry} {capture : Bool}
    (h : Commits (recordManual data actor capture) db p db') :
    (manualTwin? db data = some p ∧ db' = db) ∨
      (manualTwin? db data = none ∧ ∃ r q t, db.reservation? data.reservationId = some r ∧
        q = manualPayment r data db.payments.next ∧ assertConsistent q = .ok () ∧
        Table.Appends db.payments t.payments q ∧ t = { db with payments := t.payments } ∧
        ((capture = false ∧ p = q ∧ db' = t) ∨
          (capture = true ∧ Commits (reconcile q.id actor data.depositId) t p db'))) := by
  simp only [recordManual, commits_bind, commits_lockedReservation, commits_get] at h
  obtain ⟨r, _, ⟨hr, rfl⟩, _, _, ⟨rfl, rfl⟩, h⟩ := h
  cases hx : manualTwin? db data with
  | some existing =>
    simp only [hx, commits_pure] at h
    exact Or.inl ⟨by rw [h.1], h.2.symm⟩
  | none =>
    simp only [hx, commits_bind, commits_ite, commits_pure] at h
    obtain ⟨q, t, hcreate, ⟨hcap, h⟩ | ⟨hcap, rfl, rfl⟩⟩ := h
    · obtain ⟨hmk, hok, _, happ, ht⟩ := commits_createPayment hcreate
      exact Or.inr ⟨rfl, r, q, t, hr, hmk, hok, happ, ht, Or.inr ⟨hcap, h⟩⟩
    · obtain ⟨hmk, hok, _, happ, ht⟩ := commits_createPayment hcreate
      exact Or.inr ⟨rfl, r, q, t, hr, hmk, hok, happ, ht,
        Or.inl ⟨by simpa using hcap, rfl, rfl⟩⟩

theorem commits_reverse (h : Commits (reverse i reason actor) db p db') :
    ∃ locked, db.payments.find? i = some locked ∧ locked.origin ≠ .provider ∧
      ((locked.status = .reversed ∧ p = locked ∧ db' = db) ∨
        (locked.status = .succeeded ∧ ∃ l m t, Folio.paymentLine? db locked.id = some l ∧
          Commits (Folio.reverse l.id reason actor) db m t ∧
          Table.Updates db.payments db'.payments locked.id (reversed (trim reason)) ∧
          db' = { t with payments := db'.payments, deposits := db'.deposits })) := by
  unfold reverse at h
  obtain ⟨locked, _, hlock, h⟩ := commits_bind.mp h
  obtain ⟨hl, rfl⟩ := commits_lockedPayment.mp hlock
  obtain ⟨_, _, hstay, h⟩ := commits_bind.mp h
  obtain ⟨_, rfl⟩ := commits_lockedReservation.mp hstay
  obtain ⟨ho, h⟩ := commits_reject_bind.mp h
  rcases commits_ite.mp h with ⟨hst, h⟩ | ⟨_, h⟩
  · obtain ⟨rfl, rfl⟩ := commits_pure.mp h
    exact ⟨locked, hl, ho, Or.inl ⟨hst, rfl, rfl⟩⟩
  · unfold withdraw at h
    obtain ⟨hst, h⟩ := commits_reject_bind.mp h
    obtain ⟨_, h⟩ := commits_reject_bind.mp (commits_get_bind.mp h)
    obtain ⟨l, hline, h⟩ := commits_orFail_bind.mp h
    obtain ⟨m, t, hrev, h⟩ := commits_bind.mp h
    rw [commits_modify_bind] at h
    obtain ⟨rfl, rfl⟩ := commits_pure.mp h
    have hpay : t.payments = db.payments := by
      obtain ⟨_, _, ⟨_, rfl⟩ | ⟨_, _, _, _, _, rfl⟩⟩ := Folio.commits_reverse hrev
      · rfl
      · rfl
    refine ⟨locked, hl, ho, Or.inr ⟨not_not.mp hst, l, m, t, hline, hrev, ?_, rfl⟩⟩
    rw [← hpay]
    exact Table.updates_update

end Commits
end PaymentService
