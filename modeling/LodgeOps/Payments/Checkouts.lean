import LodgeOps.Payments.ProviderEvents

namespace RevokeOrSupersedePaymentRequest
open Schema Transaction

def accepting (q : PaymentRequest) : Bool := q.state == .opened || q.state == .processing

def closed (message : String) (now : ℤ) (a : PaymentAttempt) : PaymentAttempt :=
  { a with state := .expired, lastError := some message, lastProcessedAt := some now }

def liveOf (requestId : ℕ) (a : PaymentAttempt) : Bool :=
  a.paymentRequestId == requestId && ProcessProviderEvent.live a

theorem keeps_closed (message : String) (now : ℤ) : Keeps (closed message now) := fun _ => rfl

def expireAttempts (requestId : ℕ) (message : String) : Tx Unit := modify fun db => { db with
  paymentAttempts := db.paymentAttempts.updateWhere (liveOf requestId) (closed message db.clock)
    (keeps_closed _ _) }

def revoked (reason : String) (actorId : Option ℕ) (superseded : Bool) (now : ℤ)
    (q : PaymentRequest) : PaymentRequest :=
  { q with
    state := if superseded then .superseded else .revoked
    revokedAt := some now
    revokedBy := actorId
    revocationReason := some (trim reason) }

theorem keeps_revoked (reason : String) (actorId : Option ℕ) (superseded : Bool) (now : ℤ) :
    Keeps (revoked reason actorId superseded now) := fun _ => rfl

def handle (request : PaymentRequest) (reason : String) (actorId : Option ℕ) (superseded : Bool) :
    Tx PaymentRequest := do
  let _ ← lockedReservation request.reservationId
  let locked ← PaymentService.lockedRequest request.id
  reject (locked.state = .paid)
    (.commercialWorkflow "A paid payment request cannot be revoked.")
  if accepting locked = false then pure locked
  else do
    reject (trim reason = "") (.commercialWorkflow "A revocation reason is required.")
    modify fun db => { db with
      paymentRequests := db.paymentRequests.update locked.id
        (revoked reason actorId superseded db.clock) (keeps_revoked _ _ _ _) }
    expireAttempts locked.id
      (if superseded then "Payment request superseded." else "Payment request revoked.")
    PaymentService.lockedRequest locked.id

end RevokeOrSupersedePaymentRequest

namespace ResolvePaymentRequest
open Schema Transaction RevokeOrSupersedePaymentRequest

-- The hash of the token stands for the token.
def candidate? (db : Database) (token : String) : Option PaymentRequest :=
  db.paymentRequests.first? fun q => q.accessTokenHash == token

def expired (q : PaymentRequest) : PaymentRequest := { q with state := .expired }

def visited (now : ℤ) (q : PaymentRequest) : PaymentRequest :=
  { q with
    openedAt := some (q.openedAt.getD now)
    lastOpenedAt := some now
    accessCount := min 4294967295 (q.accessCount + 1) }

theorem keeps_expired : Keeps expired := fun _ => rfl

theorem keeps_visited (now : ℤ) : Keeps (visited now) := fun _ => rfl

def expire (q : PaymentRequest) (now : ℤ) : Tx Unit :=
  if accepting q = true ∧ q.expiresAt < now then do
    expireAttempts q.id "Payment request expired before authoritative approval."
    modify fun db => { db with
      paymentRequests := db.paymentRequests.update q.id expired keeps_expired }
  else pure ()

def handle (token : String) : Tx (Option PaymentRequest) := do
  let db ← get
  match candidate? db token with
  | none => pure none
  | some candidate => do
    let q ← PaymentService.lockedRequest candidate.id
    expire q db.clock
    modify fun db => { db with
      paymentRequests := db.paymentRequests.update q.id (visited db.clock) (keeps_visited _) }
    some <$> PaymentService.lockedRequest q.id

end ResolvePaymentRequest

namespace CreateProviderCheckout
open Schema Transaction ProcessProviderEvent

section Attempt

-- An environment is none where it is neither of the two known ones.
structure CheckoutConnection where
  id : ℕ
  propertyId : Option ℕ
  type : String
  provider : String
  product : String
  environment : Option Environment
  externalAccountId : String
  isEnabled : Bool
  revokedAt : Option ℤ
  secretReference : Option String
  chargeCurrency : Option String
  hostedCheckoutEnabled : Bool

def available (c : CheckoutConnection) (propertyId : ℕ) : Bool :=
  c.type == "payment" && c.provider == "mercado_pago" && c.product == "checkout_pro" &&
    c.externalAccountId != "" && c.environment.isSome && c.isEnabled && c.revokedAt.isNone &&
      c.secretReference.isSome && c.propertyId.all (fun p => p == propertyId) &&
        c.hostedCheckoutEnabled

def assertAvailable (c : CheckoutConnection) (propertyId : ℕ) : Except Failure Environment :=
  match c.environment with
  | some environment =>
    if available c propertyId then .ok environment
    else .error (.commercialWorkflow ("The Mercado Pago connection is disabled, revoked, " ++
      "unsupported, or outside this property."))
  | none => .error (.commercialWorkflow ("The Mercado Pago connection is disabled, revoked, " ++
      "unsupported, or outside this property."))

def configuredCurrency (c : CheckoutConnection) : String := upper (c.chargeCurrency.getD "ARS")

def rate? (db : Database) (q : PaymentRequest) (rateId : ℕ) : Option ExchangeRate :=
  (db.exchangeRates.find? rateId).filter fun r =>
    (r.propertyId == some q.propertyId || r.propertyId.isNone) && r.baseCurrency == "USD" &&
      r.quoteCurrency == "ARS" && decide (r.effectiveAt ≤ db.clock) &&
        decide (db.clock - 86400 ≤ r.effectiveAt)

def converted (q : PaymentRequest) (r : ExchangeRate) : ℤ :=
  PaymentService.halfUp (q.sourceAmountMinor * r.rate) 10000000000

def chargeMoney (q : PaymentRequest) (c : CheckoutConnection) (accepted : Bool)
    (rateId : Option ℕ) (db : Database) : Except Failure (ℤ × String) :=
  if q.sourceCurrency = configuredCurrency c then
    .ok (q.sourceAmountMinor, configuredCurrency c)
  else
    match rateId with
    | none => .error (.commercialWorkflow
        "USD reservations require explicit acceptance of an ARS conversion snapshot.")
    | some i =>
      if q.sourceCurrency ≠ "USD" ∨ accepted = false then .error (.commercialWorkflow
        "USD reservations require explicit acceptance of an ARS conversion snapshot.")
      else
        match rate? db q i with
        | none => .error (.commercialWorkflow
            "No current USD to ARS conversion snapshot is available.")
        | some r => .ok (converted q r, "ARS")

def lapsed (now : ℤ) (a : PaymentAttempt) : Bool :=
  a.state == .checkoutReady && a.checkoutExpiresAt.any fun t => decide (t < now)

def expired (a : PaymentAttempt) : PaymentAttempt :=
  { a with
    state := .expired
    lastError := some "Hosted checkout expired before provider payment confirmation." }

theorem keeps_expired : Keeps expired := fun _ => rfl

def existing (requestId : ℕ) : Tx (Option PaymentAttempt) := do
  let db ← get
  match db.paymentAttempts.first? (RevokeOrSupersedePaymentRequest.liveOf requestId) with
  | none => pure none
  | some a =>
    if lapsed db.clock a then do
      set { db with paymentAttempts := db.paymentAttempts.update a.id expired keeps_expired }
      pure none
    else pure (some a)

def depositPaid (db : Database) (q : PaymentRequest) : Bool :=
  (q.depositId.bind db.deposits.find?).any fun d => d.paymentId.isSome

-- The two identities are fresh random texts.
def created (q : PaymentRequest) (c : CheckoutConnection) (environment : Environment)
    (charge : ℤ × String) (reference key : String) (i : ℕ) : PaymentAttempt where
  id := i
  propertyId := q.propertyId
  reservationId := q.reservationId
  paymentRequestId := q.id
  depositId := q.depositId
  integrationConnectionId := c.id
  provider := c.provider
  environment := environment
  providerAccount := c.externalAccountId
  externalReference := reference
  idempotencyKey := key
  state := .creating
  sourceAmountMinor := q.sourceAmountMinor
  sourceCurrency := q.sourceCurrency
  chargeAmountMinor := charge.1
  chargeCurrency := charge.2

def insertAttempt (mk : ℕ → PaymentAttempt) (hk : Names mk := by intro i; rfl) :
    Tx PaymentAttempt := do
  let db ← get
  reject ((db.paymentAttempts.rows.any (clashes (mk db.paymentAttempts.next))) = true)
    (.runtime "payment_attempts_unique")
  set { db with paymentAttempts := db.paymentAttempts.insert mk hk }
  pure (mk db.paymentAttempts.next)

def processing (q : PaymentRequest) : PaymentRequest := { q with state := .processing }

theorem keeps_processing : Keeps processing := fun _ => rfl

def create (q : PaymentRequest) (r : Reservation) (c : CheckoutConnection)
    (environment : Environment) (accepted : Bool) (rateId : Option ℕ) (reference key : String) :
    Tx PaymentAttempt := do
  let db ← get
  reject (PaymentService.outstanding db r < q.sourceAmountMinor) (.commercialWorkflow
    "The outstanding balance changed; issue a replacement payment request.")
  reject (depositPaid db q = true) (.commercialWorkflow "The requested deposit is already paid.")
  let charge ← check (chargeMoney q c accepted rateId)
  let a ← insertAttempt (created q c environment charge reference key)
  modify fun db => { db with
    paymentRequests := db.paymentRequests.update q.id processing keeps_processing }
  pure a

-- What is done before the gateway is called.
def attemptFor (requestId : ℕ) (c : CheckoutConnection) (accepted : Bool) (rateId : Option ℕ)
    (reference key : String) : Tx PaymentAttempt := do
  let q ← PaymentService.lockedRequest requestId
  let r ← lockedReservation q.reservationId
  let db ← get
  reject (PaymentService.payable db q = false)
    (.commercialWorkflow "This payment request is no longer payable.")
  let environment ← check fun _ => assertAvailable c q.propertyId
  match ← existing q.id with
  | some a => pure a
  | none => create q r c environment accepted rateId reference key

end Attempt

section Calls

structure HostedCheckout where
  preferenceId : String
  url : String
  expiresAt : Option ℤ := none

def hosted (h : HostedCheckout) (a : PaymentAttempt) : PaymentAttempt :=
  { a with
    state := .checkoutReady
    providerPreferenceId := some h.preferenceId
    hostedCheckoutUrl := some h.url
    checkoutExpiresAt := h.expiresAt
    attemptCount := a.attemptCount + 1
    lastError := none }

def refused (message : String) (a : PaymentAttempt) : PaymentAttempt :=
  { a with
    attemptCount := a.attemptCount + 1
    errorCount := a.errorCount + 1
    lastError := some message }

-- A write that raised leaves its values in the caller's copy, and the next write takes them along.
inductive Stage
  | waiting
  | broken (unsaved : PaymentAttempt)
  | left

structure Caller where
  id : ℕ
  copy : PaymentAttempt
  stage : Stage

instance : Keyed Caller := ⟨Caller.id⟩

structure World where
  queue : Queue
  callers : Table Caller := .empty

inductive Action
  | call (requestId : ℕ) (connection : CheckoutConnection) (accepted : Bool) (rateId : Option ℕ)
    (reference key : String)
  | hosted (callerId : ℕ) (checkout : HostedCheckout)
  | interrupted (callerId : ℕ) (checkout : HostedCheckout)
  | refused (callerId : ℕ) (message : String)
  | recover (callerId : ℕ) (message : String)
  | crash (callerId : ℕ)
  | revoke (request : PaymentRequest) (reason : String) (actorId : Option ℕ) (superseded : Bool)
  | resolve (token : String)
  | event (action : ProcessProviderEvent.Action)

def World.db (w : World) : Database := w.queue.db

def withDb (w : World) (db : Database) : World := { w with queue := { w.queue with db := db } }

def reach (w : World) (c : ℕ) (s : Stage) : World :=
  { w with callers := w.callers.update c fun k => { k with stage := s } }

def onCaller (w : World) (c : ℕ) (f : Caller → Except Failure World) : Except Failure World :=
  match w.callers.find? c with
  | some k => f k
  | none => .error idle

-- The copy is called for while the attempt is being created; any other state is given back.
def call (w : World) (x : Tx PaymentAttempt) : Except Failure World :=
  match x.run w.db with
  | .error f => .error f
  | .ok (a, db) =>
    if a.state = .checkoutReady ∨ a.state = .pending then .ok (withDb w db)
    else .ok { withDb w db with
      callers := w.callers.insert fun c => { id := c, copy := a, stage := .waiting } }

-- The caller's write; `after` is where it is left when the write does not go through.
def store (w : World) (k : Caller) (new : PaymentAttempt) (after : Stage) : Except Failure World :=
  match (saveAttempt k.copy new).run w.db with
  | .ok (_, db) => .ok (reach (withDb w db) k.id .left)
  | .error _ => .ok (reach w k.id after)

def commit {α : Type} (w : World) (x : Tx α) : Except Failure World :=
  match x.run w.db with
  | .ok (_, db) => .ok (withDb w db)
  | .error f => .error f

def step (w : World) : Action → Except Failure World
  | .call i c accepted rateId reference key =>
    call w (attemptFor i c accepted rateId reference key)
  | .hosted c h => onCaller w c fun k =>
    match k.stage with
    | .waiting => store w k (hosted h k.copy) (.broken (hosted h k.copy))
    | _ => .error idle
  | .interrupted c h => onCaller w c fun k =>
    match k.stage with
    | .waiting => .ok (reach w c (.broken (hosted h k.copy)))
    | _ => .error idle
  | .refused c m => onCaller w c fun k =>
    match k.stage with
    | .waiting => store w k (refused m k.copy) .left
    | _ => .error idle
  | .recover c m => onCaller w c fun k =>
    match k.stage with
    | .broken unsaved => store w k (refused m unsaved) .left
    | _ => .error idle
  | .crash c => onCaller w c fun _ => .ok (reach w c .left)
  | .revoke q reason actorId superseded =>
    commit w (RevokeOrSupersedePaymentRequest.handle q reason actorId superseded)
  | .resolve token => commit w (ResolvePaymentRequest.handle token)
  | .event a =>
    match ProcessProviderEvent.step w.queue a with
    | .ok queue => .ok { w with queue := queue }
    | .error f => .error f

def act (a : Action) : Transaction Failure World Unit := fun w =>
  match step w a with
  | .ok w' => .ok ((), w')
  | .error f => .error f

end Calls
end CreateProviderCheckout
