import LodgeOps.Automation.Templates
import LodgeOps.Integrations.EndpointKeys
import LodgeOps.Integrations.Outcomes

open CanonicalJson (Value)
open AutomationContext (digits field orElse scalar?)

-- What the language's cryptography and decoders and the secret manager answer.
structure WebhookPlatform where
  base64Decode : String → Option (List UInt8)
  signature : List UInt8 → String → String
  jsonDecode : String → Except Schema.Failure Value
  resolve : String → Except Schema.Failure String
  isDatetime : Value → Bool

namespace StandardWebhookVerifier
open Schema

abbrev Headers := List (String × String)

def header (headers : Headers) (name : String) : String := (headers.lookup name).getD ""

-- `/^\d{10}$/`: the dollar also matches before a last line break.
def seconds? (timestamp : String) : Option ℤ :=
  let (ds, rest) := timestamp.toList.splitAt 10
  if ds.length = 10 ∧ ds.all Char.isDigit = true ∧ (rest = [] ∨ rest = ['\n']) then some (digits ds)
  else none

def encodedKey (secret : String) : String :=
  if "whsec_".toList.isPrefixOf secret.toList = true then String.ofList (secret.toList.drop 6)
  else secret

def signs (expected : String) (candidate : List Char) : Bool :=
  let version := candidate.takeWhile (· != ',')
  let signature := (candidate.dropWhile (· != ',')).drop 1
  version == "v1".toList && signature != [] && expected.toList == signature

-- Two blanks in a row leave an empty candidate between them, which signs nothing.
def candidates (signatures : String) : List (List Char) :=
  (trim signatures).toList.splitOnP AutomationTemplateRenderer.blank

def verify (p : WebhookPlatform) (now : ℤ) (rawBody : String) (headers : Headers)
    (secret : String) (toleranceSeconds : ℤ := 300) : Except Failure Unit := do
  let id := header headers "webhook-id"
  let signatures := header headers "webhook-signature"
  refuse (id = "" ∨ signatures = "") (.runtime "Missing Standard Webhooks signature headers.")
  let timestamp ← found (seconds? (header headers "webhook-timestamp"))
    (.runtime "Missing Standard Webhooks signature headers.")
  refuse (toleranceSeconds < |now - timestamp|) (.runtime "The Standard Webhooks timestamp is stale.")
  let key ← found
    ((p.base64Decode (encodedKey secret)).filter fun k => 24 ≤ k.length && k.length ≤ 64)
    (.runtime "The Standard Webhooks signing secret is malformed.")
  let signed := id ++ "." ++ header headers "webhook-timestamp" ++ "." ++ rawBody
  refuse ((candidates signatures).any (signs (p.signature key signed)) = false)
    (.runtime "The Standard Webhooks signature is invalid.")

end StandardWebhookVerifier

namespace IntegrationEventService
open Schema Transaction EndpointKeyService
open StandardWebhookVerifier (Headers header)

section Schema

structure ConnectionProfile where
  id : ℕ
  externalAccountId : String
  signingSecretReference : Option String

-- What a verified request says of its event, and of the connection that it came in on.
structure Delivery where
  connectionId : ℕ
  externalAccountId : String
  externalId : String
  eventType : String
  externalVersion : String
  rawBody : String
  accountId : Value
  occurredAt : Value

-- The columns of an event's row that no later step may write.
structure Receipt where
  eventId : ℕ
  delivery : Delivery

structure IntegrationReconciliation where
  id : ℕ
  connectionId : ℕ
  kind : String
  externalKey : String
  localKey : Option ℕ
  reasonCode : String
  isOpen : Bool := true

structure Worker where
  eventId : ℕ
  handed : Bool
deriving DecidableEq

instance : Keyed ConnectionProfile := ⟨ConnectionProfile.id⟩
instance : Keyed IntegrationReconciliation := ⟨IntegrationReconciliation.id⟩

-- Of the workers it is known which event they hold; `consumed` lists what consumers were handed.
structure Inbox where
  kernel : Kernel
  ring : KeyRing := {}
  profiles : Table ConnectionProfile := .empty
  receipts : List Receipt := []
  reconciliations : Table IntegrationReconciliation := .empty
  workers : List Worker := []
  consumed : List ℕ := []

def Inbox.withKernel (s : Inbox) (k : Kernel) : Inbox := { s with kernel := k }

def Inbox.withRing (s : Inbox) (r : KeyRing) : Inbox := { s with ring := r }

def Inbox.ringNow (s : Inbox) : KeyRing := { s.ring with clock := s.kernel.clock }

abbrev InboxTx (α : Type) := Transaction Failure Inbox α

def onKernel {α : Type} (x : KernelTx α) : InboxTx α := zoom Inbox.kernel Inbox.withKernel x

def onRing {α : Type} (x : RingTx α) : InboxTx α := zoom Inbox.ringNow Inbox.withRing x

end Schema

section Receiving

def endpoint? (s : Inbox) (endpointKey : ℕ) : Option (IntegrationConnection × ConnectionProfile) := do
  let endpoint ← resolveConnection s.ringNow endpointKey
  let connection ← s.kernel.connections.find? endpoint.id
  let profile ← s.profiles.find? endpoint.id
  pure (connection, profile)

def isArray : Value → Bool
  | .array _ => true
  | _ => false

-- `(string) ($v ?? $default)`
def castText (v : Value) (default : String) : Except Failure String :=
  found (scalar? (orElse v (.str default))) (.runtime "Array to string conversion")

def payloadOf (p : WebhookPlatform) (rawBody : String) : Except Failure Value := do
  let payload ← p.jsonDecode rawBody
  refuse (isArray payload = false) (.runtime "The verified webhook body is not a JSON object.")
  pure payload

def deliveryOf (profile : ConnectionProfile) (rawBody : String) (headers : Headers)
    (payload : Value) : Except Failure Delivery := do
  let eventType ← castText (field payload "type") "unknown"
  let version ← castText (field payload "version") "1"
  pure {
    connectionId := profile.id
    externalAccountId := profile.externalAccountId
    externalId := header headers "webhook-id"
    eventType := eventType
    externalVersion := version
    rawBody := rawBody
    accountId := field payload "account_id"
    occurredAt := field payload "occurred_at" }

def readableTime (p : WebhookPlatform) : Value → Bool
  | .null => true
  | v => p.isDatetime v

def Delivery.unknownAccount (d : Delivery) : Bool :=
  match d.accountId with
  | .str account => account != "" && account != d.externalAccountId
  | _ => false

def Delivery.identity (d : Delivery) : String × String × String :=
  (d.externalId, d.eventType, d.externalVersion)

-- The two unique keys of the table, by checksum and by the identity that the sender gave.
def clashes (d : Delivery) (r : Receipt) : Bool :=
  r.delivery.connectionId == d.connectionId &&
    (r.delivery.rawBody == d.rawBody || r.delivery.identity == d.identity)

def fits (d : Delivery) : Bool :=
  d.externalId.length ≤ 180 && d.eventType.length ≤ 120 && d.externalVersion.length ≤ 80

def eventOf (d : Delivery) (now : ℤ) (i : ℕ) : IntegrationEvent where
  id := i
  connectionId := d.connectionId
  disposition := if d.unknownAccount then .unmatched else .received
  attempt := 0
  updatedAt := now
  processedAt := if d.unknownAccount then some now else none
  lastError :=
    if d.unknownAccount then some "Signed event account does not match the endpoint connection."
    else none

theorem names_eventOf (d : Delivery) (now : ℤ) : Names (eventOf d now) := fun _ => rfl

def reconciliation (d : Delivery) (kind reasonCode : String) (localKey : Option ℕ) (i : ℕ) :
    IntegrationReconciliation where
  id := i
  connectionId := d.connectionId
  kind := kind
  externalKey := d.externalId
  localKey := localKey
  reasonCode := reasonCode

theorem names_reconciliation (d : Delivery) (kind reasonCode : String) (localKey : Option ℕ) :
    Names (reconciliation d kind reasonCode localKey) := fun _ => rfl

def created (d : Delivery) (s : Inbox) : Inbox :=
  { s with
    kernel := { s.kernel with
      events := s.kernel.events.insert (eventOf d s.kernel.clock) (names_eventOf _ _) }
    receipts := s.receipts ++ [⟨s.kernel.events.next, d⟩]
    reconciliations :=
      if d.unknownAccount then s.reconciliations.insert
        (reconciliation d "unknown_external_account" "account_mismatch" none)
        (names_reconciliation _ _ _ _)
      else s.reconciliations }

def tooLong : Failure := .runtime "SQLSTATE[22001]: String data, right truncated"

def collision (d : Delivery) (existing : Receipt) (r : IntegrationReconciliation) : Bool :=
  r.connectionId == d.connectionId && r.kind == "event_identity_collision" &&
    r.externalKey == d.externalId && r.localKey == some existing.eventId && r.isOpen

def noteCollision (d : Delivery) (existing : Receipt) : InboxTx Unit := do
  reject (180 < d.externalId.length) tooLong
  modify fun s => { s with
    reconciliations :=
      if s.reconciliations.rows.any (collision d existing) then s.reconciliations
      else s.reconciliations.insert
        (reconciliation d "event_identity_collision" "signed_event_identity_reused"
          (some existing.eventId))
        (names_reconciliation _ _ _ _) }

def storeDelivery (d : Delivery) : InboxTx ℕ := do
  let s ← get
  match s.receipts.find? (clashes d) with
  | some existing => do
    if existing.delivery.rawBody = d.rawBody ∧ existing.delivery.identity = d.identity then pure ()
    else noteCollision d existing
    pure existing.eventId
  | none => do
    reject (fits d = false) tooLong
    modify (created d)
    pure s.kernel.events.next

def receive (p : WebhookPlatform) (endpointKey : ℕ) (rawBody : String) (headers : Headers) :
    InboxTx ℕ := do
  let s ← get
  let endpoint ← orFail (endpoint? s endpointKey) .modelNotFound
  reject (endpoint.1.off = true ∨ .webhookInbound ∉ endpoint.1.capabilities)
    (.runtime "The webhook endpoint is unavailable.")
  reject (s.kernel.grants endpoint.1.id .webhookInbound .inbound = false)
    (.runtime "The webhook capability is unavailable.")
  let reference ← orFail (endpoint.2.signingSecretReference.filter (· != ""))
    (.runtime "The webhook signing secret reference is unavailable.")
  let secret ← check fun _ => p.resolve reference
  check fun s => StandardWebhookVerifier.verify p s.kernel.clock rawBody headers secret
  let payload ← check fun _ => payloadOf p rawBody
  let delivery ← check fun _ => deliveryOf endpoint.2 rawBody headers payload
  reject (readableTime p delivery.occurredAt = false)
    (.runtime "The time of the event cannot be read.")
  storeDelivery delivery

end Receiving

section Operations

inductive Operation
  | receive (endpointKey : ℕ) (rawBody : String) (headers : Headers)
  | process (eventId : ℕ)
  | consume (eventId : ℕ)
  | settle (eventId : ℕ)
  | fail (worker : Worker) (error : String)
  | deadLetter (eventId : ℕ) (error : String)
  | replay (eventId : ℕ) (actorId : Option ℕ) (reason : String)
  | recover (eventId : ℕ)
  | enable (snapshot : IntegrationConnection) (actorId : Option ℕ) (reason : String)
  | disable (connectionId : ℕ) (actorId : Option ℕ) (reason : String)
  | revoke (connectionId : ℕ) (actorId : Option ℕ) (reason : String)
  | turnKeys (op : EndpointKeyService.Operation)
  | configure (connectionId : ℕ) (signingSecretReference : Option String)
  | wait (seconds : ℕ)

def notHeld : Failure := .logic "No worker holds the event."

def release (w : Worker) : InboxTx Unit := do
  let s ← get
  reject (w ∉ s.workers) notHeld
  set { s with workers := s.workers.erase w }

def enter (w : Worker) : InboxTx Unit := modify fun s => { s with workers := w :: s.workers }

def takeEvent (eventId : ℕ) : InboxTx Unit := do
  let taken ← onKernel (process eventId)
  if taken = true then enter ⟨eventId, false⟩ else pure ()

def handOver (eventId : ℕ) : InboxTx Unit := do
  release ⟨eventId, false⟩
  modify fun s => { s with
    workers := ⟨eventId, true⟩ :: s.workers
    consumed := s.consumed ++ [eventId] }

def withReference (reference : Option String) (c : ConnectionProfile) : ConnectionProfile :=
  { c with signingSecretReference := reference }

theorem keeps_withReference (reference : Option String) : Keeps (withReference reference) :=
  fun _ => rfl

def Operation.run (p : WebhookPlatform) : Operation → InboxTx Unit
  | receive endpointKey rawBody headers => do
    let _ ← IntegrationEventService.receive p endpointKey rawBody headers
    pure ()
  | process eventId => takeEvent eventId
  | consume eventId => handOver eventId
  | settle eventId => do
    release ⟨eventId, true⟩
    onKernel (consumed eventId)
  | fail worker error => do
    release worker
    onKernel (failEvent worker.eventId error)
  | deadLetter eventId error => onKernel (IntegrationEventService.deadLetter eventId error)
  | replay eventId actorId reason => onKernel (IntegrationEventService.replay eventId actorId reason)
  | recover eventId => onKernel (IntegrationEventService.recover eventId)
  | enable snapshot actorId reason =>
    onKernel (IntegrationConnectionService.enable snapshot actorId reason)
  | disable i actorId reason => onKernel (IntegrationConnectionService.disable i actorId reason)
  | revoke i actorId reason => onKernel (IntegrationConnectionService.revoke i actorId reason)
  | turnKeys op => onRing op.run
  | configure i reference => modify fun s => { s with
      profiles := s.profiles.update i (withReference reference) (keeps_withReference _) }
  | wait seconds => modify fun s => { s with
      kernel := { s.kernel with clock := s.kernel.clock + seconds } }

end Operations
end IntegrationEventService
