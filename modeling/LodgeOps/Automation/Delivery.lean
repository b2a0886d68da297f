import LodgeOps.Automation.ActionExecutor

open CanonicalJson (Value Key)
open Schema (trim)

namespace CommunicationDeliveryService
open Automation Transaction

structure Prepared where
  attemptId : ℕ
  mail : Mail

def numberedAttempts (attempts : Table DeliveryAttempt) (i : ℕ) : List DeliveryAttempt :=
  attempts.select fun a => a.communicationId == i

def lastAttempt (attempts : Table DeliveryAttempt) (i : ℕ) : ℕ :=
  ((numberedAttempts attempts i).map DeliveryAttempt.attempt).foldr max 0

def sendingAttempt (c : Communication) (n : ℕ) (now : ℤ) (i : ℕ) : DeliveryAttempt where
  id := i
  tenantId := c.tenantId
  communicationId := c.id
  status := "sending"
  attempt := n
  attemptedAt := now

def sending (c : Communication) : Communication := { c with status := "sending" }

def suppressed (now : ℤ) (c : Communication) : Communication :=
  { c with
    status := "suppressed"
    metadata := { c.metadata with suppressedAt := some now } }

def accepted (a : DeliveryAttempt) : DeliveryAttempt :=
  { a with
    status := "sent"
    response := some "Accepted by the configured Laravel mail transport." }

def sent (now : ℤ) (c : Communication) : Communication :=
  { c with
    status := "sent"
    sentAt := some now
    deliveredAt := some now }

def refused (error : String) (a : DeliveryAttempt) : DeliveryAttempt :=
  { a with
    status := "failed"
    response := some (String.ofList (error.toList.take 5000)) }

def failed (c : Communication) : Communication := { c with status := "failed" }

def save (i : ℕ) (f : ℤ → Communication → Communication)
    (hf : ∀ now, Keeps (f now) := by intro now r; rfl) : AutomationTx Unit :=
  modify fun s => { s with communications := s.communications.update i (f s.clock) (hf s.clock) }

def saveAttempt (i : ℕ) (f : DeliveryAttempt → DeliveryAttempt)
    (hf : Keeps f := by intro r; rfl) : AutomationTx Unit :=
  modify fun s => { s with attempts := s.attempts.update i f hf }

def guest? (s : AutomationStore) (c : Communication) : Option AddressedGuest :=
  c.guestId.bind fun i => s.guests.find? fun g => g.id == i && g.tenantId == c.tenantId

def recipient? (s : AutomationStore) (c : Communication) : Option String :=
  (c.metadata.recipient.or ((guest? s c).bind AddressedGuest.email)).filter fun a => trim a != ""

def mail (s : AutomationStore) (c : Communication) (recipient : String) : Mail where
  communicationId := c.id
  recipient := trim recipient
  subject := (c.subject.filter fun t => t != "" && t != "0").getD (s.appName ++ " update")
  body := c.body
  generatedDocumentId := c.metadata.generatedDocumentId

def begin (c : Communication) (recipient : String) : AutomationTx Prepared := do
  let s ← get
  set { s with
    attempts := s.attempts.insert
      (sendingAttempt c (lastAttempt s.attempts c.id + 1) s.clock) }
  save c.id fun _ => sending
  pure ⟨s.attempts.next, mail s c recipient⟩

def find? (s : AutomationStore) (tenantId : ℕ) (communicationId : String) : Option Communication :=
  s.communications.first? fun c => c.tenantId == tenantId && toString c.id == communicationId

def prepare (tenantId : ℕ) (communicationId : String) : AutomationTx (Option Prepared) := do
  let s ← get
  let locked ← orFail (find? s tenantId communicationId) .modelNotFound
  if locked.sentAt ≠ none ∨ locked.status = "sent" then pure none
  else do
    reject (locked.channel ≠ "email") (.domain
      ("No delivery adapter is configured for channel [" ++ locked.channel ++ "]."))
    let recipient ← orFail (recipient? s locked)
      (.domain "The communication recipient has no email address.")
    if (guest? s locked).any (MessageTemplateService.isSuppressed s · locked.channel) = true then do
      save locked.id suppressed
      pure none
    else some <$> begin locked recipient

def recordSent (p : Prepared) : AutomationTx Unit := do
  saveAttempt p.attemptId accepted
  save p.mail.communicationId sent

def recordFailed (p : Prepared) (error : String) : AutomationTx Unit := do
  saveAttempt p.attemptId (refused error)
  save p.mail.communicationId fun _ => failed

-- `error` is what the transport throws at the call, if there is one. The failure is recorded
-- before the exception goes on to the caller's transaction.
def deliver (tenantId : ℕ) (communicationId : String) (error : Option String) :
    PublishingTx (List TransportCall) := do
  let prepared ← rethrow .automation (prepare tenantId communicationId)
  match prepared with
  | none => pure []
  | some p =>
    match error with
    | none => do
      rethrow .automation (recordSent p)
      pure [⟨p.mail, none⟩]
    | some e => do
      rethrow .automation (recordFailed p e)
      throw (.transport ⟨p.mail, some e⟩)

end CommunicationDeliveryService

namespace AutomationEngine
open Automation Transaction AutomationContext AutomationActionExecutor

def rowOf (rows : List ArrayRow) (tenantId : ℕ) (payload : Value) (key : String) : Value :=
  (((text? (field payload key)).bind fun i =>
    rows.find? fun r => r.id == i && r.tenantId == tenantId).map ArrayRow.attributes).getD .null

def contextOf (s : AutomationStore) (tenant : Tenant) (message : Outbox) : Value := .array
  [(.str "event_type", .str message.eventType),
    (.str "payload", message.payload),
    (.str "tenant", .array [(.str "id", .str (toString tenant.id)), (.str "name", .str tenant.name),
      (.str "currency", .str tenant.currency), (.str "timezone", .str tenant.timezone)]),
    (.str "reservation", rowOf s.reservations tenant.id message.payload "reservation_id"),
    (.str "payment", rowOf s.payments tenant.id message.payload "payment_id")]

def isArray : Value → Bool
  | .array _ => true
  | _ => false

-- A single action may stand in place of a list of one.
def listedActions (actions : Value) (es : List (Key × Value)) : List Value :=
  match field actions "type" with
  | .null => es.map Prod.snd
  | _ => [actions]

def normalizeActions (actions : Value) : Except AutomationException (List Value) :=
  match actions with
  | .array es =>
    if (listedActions actions es).all isArray = true then .ok (listedActions actions es)
    else .error (.domain "Automation actions must be objects.")
  | _ => .error (.type "The actions of a rule must be an array.")

def ran (now : ℤ) (r : AutomationRule) : AutomationRule := { r with lastRanAt := some now }

theorem keeps_ran (now : ℤ) : Keeps (ran now) := fun _ => rfl

def runAction (tenant : Tenant) (message : Outbox) (context : Value) (rule : AutomationRule)
    (indexed : Value × ℕ) : AutomationTx Unit :=
  execute
    { tenant := tenant
      message := message
      rule := rule
      actionIndex := indexed.2
      action := indexed.1
      context := context }

def runRule (tenant : Tenant) (message : Outbox) (context : Value) (rule : AutomationRule) :
    AutomationTx Unit :=
  if AutomationConditionMatcher.isMatch rule.conditions context = false then pure ()
  else do
    let actions ← check fun _ => normalizeActions rule.actions
    actions.zipIdx.forM (runAction tenant message context rule)
    modify fun s => { s with rules := s.rules.update rule.id (ran s.clock) (keeps_ran _) }

def triggered (tenant : Tenant) (message : Outbox) (r : AutomationRule) : Bool :=
  r.tenantId == tenant.id && r.trigger == message.eventType && r.isActive

def automate (tenant : Tenant) (message : Outbox) : AutomationTx Unit := do
  let s ← get
  (s.rules.select (triggered tenant message)).forM
    (runRule tenant message (contextOf s tenant message))

def handle (tenant : Tenant) (message : Outbox) (error : Option String) :
    PublishingTx (List TransportCall) :=
  if message.eventType = "communication.queued" then do
    let communicationId ← orFail (named? (field message.payload "communication_id"))
      (.automation (.domain "Communication delivery events require a communication_id."))
    CommunicationDeliveryService.deliver tenant.id communicationId error
  else do
    rethrow .automation (automate tenant message)
    pure []

end AutomationEngine
