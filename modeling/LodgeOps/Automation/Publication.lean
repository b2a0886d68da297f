import LodgeOps.Automation.Effects

open CanonicalJson (Value)

namespace Automation

-- What a job carries; a queue may hand it out any number of times.
structure Job where
  tenantId : ℕ
  messageId : ℕ
  claimToken : ℕ
deriving DecidableEq

end Automation

namespace OutboxBatchPublisher
open Automation Transaction

def maxAttempts : ℕ := 10

def staleClaimMinutes : ℤ := 5

def claimable (now : ℤ) (m : Outbox) : Bool :=
  m.publishedAt.isNone && decide (m.attempts < maxAttempts) && decide (m.availableAt ≤ now) &&
    m.claimedAt.all fun t => decide (t ≤ now - 60 * staleClaimMinutes)

def claimed (token : ℕ) (now : ℤ) (m : Outbox) : Outbox :=
  { m with
    claimToken := some token
    claimedAt := some now }

theorem keeps_claimed (token : ℕ) (now : ℤ) : Keeps (claimed token now) := fun _ => rfl

def job (token : ℕ) (m : Outbox) : Job := ⟨m.tenantId, m.id, token⟩

def takeClaim (messages : List Outbox) : AutomationTx (List Job) := do
  let s ← get
  set { s with
    nextToken := s.nextToken + 1
    outbox := s.outbox.updateWhere
      (fun m => (messages.map Outbox.id).contains m.id && m.publishedAt.isNone)
      (claimed s.nextToken s.clock) (keeps_claimed _ _) }
  pure (messages.map (job s.nextToken))

def claim (batchSize : ℤ) : AutomationTx (List Job) := do
  let s ← get
  let messages := ((s.outbox.select (claimable s.clock)).insertionSort fun a b =>
    a.occurredAt ≤ b.occurredAt).take (max 1 (min batchSize 500)).toNat
  if messages.isEmpty then pure [] else takeClaim messages

def claimOne (tenantId messageId : ℕ) : AutomationTx (List Job) := do
  let s ← get
  match s.outbox.first? fun m => claimable s.clock m && m.tenantId == tenantId && m.id == messageId with
  | none => pure []
  | some m => takeClaim [m]

def released (error : String) (availableAt : ℤ) (m : Outbox) : Outbox :=
  { m with
    claimToken := none
    claimedAt := none
    lastError := some error
    availableAt := availableAt }

theorem keeps_released (error : String) (availableAt : ℤ) : Keeps (released error availableAt) :=
  fun _ => rfl

def held (j : Job) (m : Outbox) : Bool :=
  m.id == j.messageId && m.tenantId == j.tenantId && m.claimToken == some j.claimToken

def release (j : Job) (error : String) (minutes : ℤ) : AutomationTx Unit := modify fun s =>
  { s with
    outbox := s.outbox.updateWhere (held j) (released error (s.clock + 60 * minutes))
      (keeps_released _ _) }

end OutboxBatchPublisher

namespace PublishOutboxMessage
open Automation Transaction OutboxBatchPublisher

section Writes

def counted (m : Outbox) : Outbox := { m with attempts := m.attempts + 1 }

theorem keeps_counted : Keeps counted := fun _ => rfl

def published (now : ℤ) (m : Outbox) : Outbox :=
  { m with
    publishedAt := some now
    claimToken := none
    claimedAt := none
    lastError := none }

theorem keeps_published (now : ℤ) : Keeps (published now) := fun _ => rfl

def troubled (error : String) (availableAt : ℤ) (m : Outbox) : Outbox :=
  { m with
    lastError := some error
    availableAt := availableAt }

theorem keeps_troubled (error : String) (availableAt : ℤ) : Keeps (troubled error availableAt) :=
  fun _ => rfl

def attempted (error : String) (availableAt : ℤ) (m : Outbox) : Outbox :=
  counted (released error availableAt m)

theorem keeps_attempted (error : String) (availableAt : ℤ) : Keeps (attempted error availableAt) :=
  fun _ => rfl

-- The message that the worker has read, if its job still holds the claim.
def stillHeld (j : Job) (message m : Outbox) : Bool :=
  m.id == message.id && m.tenantId == j.tenantId && m.claimToken == some j.claimToken

def tenant? (s : AutomationStore) (j : Job) : Option Tenant :=
  s.tenants.find? fun t => t.isActive && t.id == j.tenantId

def releaseTenantless (j : Job) : AutomationTx Unit := modify fun s =>
  { s with
    outbox := s.outbox.updateWhere (held j)
      (attempted "Tenant is missing or inactive." (s.clock + 300)) (keeps_attempted _ _) }

def message? (s : AutomationStore) (j : Job) : Option Outbox :=
  s.outbox.first? fun m => held j m && m.publishedAt.isNone

def increment (j : Job) (message : Outbox) : AutomationTx Unit := modify fun s =>
  { s with
    outbox := s.outbox.updateWhere (fun m => m.id == message.id && m.tenantId == j.tenantId) counted
      keeps_counted }

-- The message marked as sent, if its claim is still held.
def marked (j : Job) (message : Outbox) (s : AutomationStore) : AutomationStore :=
  { s with
    outbox := s.outbox.updateWhere (stillHeld j message) (published s.clock) (keeps_published _) }

def markPublished (j : Job) (message : Outbox) : AutomationTx Unit := modify (marked j message)

def publish (j : Job) (tenant : Tenant) (message : Outbox) (error : Option String) :
    PublishingTx (List TransportCall) := do
  let calls ← AutomationEngine.handle tenant message error
  rethrow .automation (markPublished j message)
  pure calls

def recordError (j : Job) (message : Outbox) (error : String) : AutomationTx Unit := modify fun s =>
  { s with
    outbox := s.outbox.updateWhere (stillHeld j message) (troubled error (s.clock + 60))
      (keeps_troubled _ _) }

end Writes

section Workers

-- How far a worker has come with `handle`.
inductive Phase
  | started
  | tenantless
  | tenanted (tenant : Tenant)
  | fetched (tenant : Tenant) (message : Outbox)
  | counted (tenant : Tenant) (message : Outbox)
  | committed (message : Outbox)
  | caught (message : Outbox) (error : String)
  | finished

structure Worker where
  id : ℕ
  job : Job
  phase : Phase

instance : Keyed Worker := ⟨Worker.id⟩

structure World where
  store : AutomationStore
  claims : List Job := []
  queue : List Job := []
  workers : Table Worker := .empty
  calls : List TransportCall := []
  committed : List Effect := []

def World.withStore (w : World) (s : AutomationStore) : World := { w with store := s }

abbrev Op (α : Type) := Transaction AutomationException World α

def onStore {α : Type} (x : AutomationTx α) : Op α := zoom World.store World.withStore x

def worker (j : Job) (i : ℕ) : Worker := ⟨i, j, .started⟩

theorem names_worker (j : Job) : Names (worker j) := fun _ => rfl

def entering (p : Phase) (k : Worker) : Worker := { k with phase := p }

theorem keeps_entering (p : Phase) : Keeps (entering p) := fun _ => rfl

def enter (i : ℕ) (p : Phase) : Op Unit :=
  modify fun w => { w with workers := w.workers.update i (entering p) (keeps_entering p) }

def notDue : AutomationException := .other "Nothing of this kind is due."

-- The one transaction of a job, with the effects it commits and the transport calls it makes.
def runPublish (j : Job) (i : ℕ) (tenant : Tenant) (message : Outbox) (error : Option String)
    (w : World) : World :=
  match (publish j tenant message error).run w.store with
  | .ok (calls, s) =>
    { w with
      store := s
      calls := w.calls ++ calls
      committed := w.committed ++ (effects s).diff (effects w.store)
      workers := w.workers.update i (entering (.committed message)) (keeps_entering _) }
  | .error e =>
    { w with
      calls := w.calls ++ e.calls
      workers := w.workers.update i (entering (.caught message e.message)) (keeps_entering _) }

def advance (k : Worker) (error : Option String) : Op Unit :=
  match k.phase with
  | .started => do
    let w ← get
    enter k.id (match tenant? w.store k.job with
      | some t => .tenanted t
      | none => .tenantless)
  | .tenantless => do
    onStore (releaseTenantless k.job)
    enter k.id .finished
  | .tenanted t => do
    let w ← get
    enter k.id (match message? w.store k.job with
      | some m => .fetched t m
      | none => .finished)
  | .fetched t m => do
    onStore (increment k.job m)
    enter k.id (.counted t m)
  | .counted t m => modify (runPublish k.job k.id t m error)
  | .committed _ => enter k.id .finished
  | .caught m e => do
    onStore (recordError k.job m e)
    enter k.id .finished
  | .finished => throw notDue

-- A database that fails before the transport is called, or a callback that fails after the commit.
def interrupted (p : Phase) (error : String) : Option Phase :=
  match p with
  | .counted _ m => some (.caught m error)
  | .committed m => some (.caught m error)
  | _ => none

end Workers

section Operations

inductive Operation
  | claim (batchSize : ℤ)
  | publishOne (tenantId messageId : ℕ)
  | dispatch (j : Job)
  | dispatchFails (j : Job) (error : String)
  | start (j : Job)
  | proceed (i : ℕ) (error : Option String)
  | interrupt (i : ℕ) (error : String)
  | failed (j : Job) (error : Option String)
  | elsewhere (result : AutomationStore)

def taking (x : AutomationTx (List Job)) : Op Unit := do
  let jobs ← onStore x
  modify fun w => { w with claims := w.claims ++ jobs }

def Operation.run : Operation → Op Unit
  | claim n => taking (OutboxBatchPublisher.claim n)
  | publishOne t m => taking (claimOne t m)
  | dispatch j => do
    let w ← get
    reject (j ∉ w.claims) notDue
    set { w with
      claims := w.claims.erase j
      queue := j :: w.queue }
  | dispatchFails j error => do
    let w ← get
    reject (j ∉ w.claims) notDue
    set { w with claims := w.claims.erase j }
    onStore (release j ("Queue dispatch failed: " ++ error) 1)
  | start j => do
    let w ← get
    reject (j ∉ w.queue) notDue
    set { w with workers := w.workers.insert (worker j) (names_worker j) }
  | proceed i error => do
    let w ← get
    let k ← orFail (w.workers.find? i) notDue
    advance k error
  | interrupt i error => do
    let w ← get
    let k ← orFail (w.workers.find? i) notDue
    let p ← orFail (interrupted k.phase error) notDue
    enter k.id p
  | failed j error => do
    let w ← get
    reject (j ∉ w.queue) notDue
    onStore (release j (error.getD "Outbox delivery failed.") 5)
  | elsewhere result => modify fun w => w.withStore result

-- Time passes and everybody else works on the store; the unique keys hold.
def Operation.Honest (op : Operation) (w : World) : Prop :=
  match op with
  | elsewhere result => Advances w.store result
  | _ => True

structure Opening (w : World) : Prop where
  distinct : (effects w.store).Nodup
  unclaimed : ∀ m ∈ w.store.outbox.rows, m.publishedAt ≠ none → m.claimToken = none
  committed : w.committed = []
  calls : w.calls = []
  attempts : w.store.attempts.rows = []

end Operations
end PublishOutboxMessage
