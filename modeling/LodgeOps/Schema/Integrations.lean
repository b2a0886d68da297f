import LodgeOps.Schema.Database

namespace Schema

inductive IntegrationCapability
  | paymentHostedCheckout | reservationsImport | accountingJournalExport | webhookInbound
  | webhookOutbound
deriving DecidableEq

inductive Direction
  | inbound | outbound
deriving DecidableEq

inductive ConnectionStatus
  | disconnected | configured | connected | disabled | revoked
deriving DecidableEq

inductive CapabilityState
  | disabled | enabled | revoked
deriving DecidableEq

inductive RunTrigger
  | manual | scheduled | webhook | reconciliation | resume
deriving DecidableEq

inductive RunStatus
  | queued | running | completed | failed | cancelled | blocked
deriving DecidableEq

inductive ItemStatus
  | pending | processing | retryable | succeeded | deadLetter | blocked
deriving DecidableEq

inductive EventDisposition
  | received | processing | retryable | processed | unmatched | deadLetter | blocked
deriving DecidableEq

inductive DeadLetterStatus
  | opened | replaying | resolved
deriving DecidableEq

structure IntegrationConnection where
  id : ℕ
  propertyId : Option ℕ
  capabilities : List IntegrationCapability
  isEnabled : Bool
  status : ConnectionStatus
  secretReference : Option String
  revokedAt : Option ℤ
deriving DecidableEq

structure IntegrationConnectionCapability where
  id : ℕ
  connectionId : ℕ
  capability : IntegrationCapability
  direction : Direction
  state : CapabilityState
deriving DecidableEq

structure IntegrationSyncCursor where
  id : ℕ
  connectionId : ℕ
  propertyId : Option ℕ
  capability : IntegrationCapability
  direction : Direction
  checkpoint : Option String
  version : ℕ
  committedAt : Option ℤ
deriving DecidableEq

structure IntegrationSyncRun where
  id : ℕ
  connectionId : ℕ
  propertyId : Option ℕ
  capability : IntegrationCapability
  direction : Direction
  trigger : RunTrigger
  status : RunStatus
  pendingCheckpoint : Option String
  pendingHasMore : Bool
  pageInProgress : Bool
  pageNumber : ℕ
  attempt : ℕ
  claimToken : Option ℕ
  claimedAt : Option ℤ
  leaseExpiresAt : Option ℤ
  startedAt : Option ℤ
  finishedAt : Option ℤ
  lastError : Option String
deriving DecidableEq

structure IntegrationSyncRunItem where
  id : ℕ
  runId : ℕ
  pageNumber : ℕ
  externalKey : String
  payloadChecksum : String
  status : ItemStatus
  attempt : ℕ
  availableAt : Option ℤ
  startedAt : Option ℤ
  finishedAt : Option ℤ
  localKey : Option String
  lastError : Option String
deriving DecidableEq

structure IntegrationEvent where
  id : ℕ
  connectionId : ℕ
  disposition : EventDisposition
  attempt : ℕ
  updatedAt : ℤ
  processedAt : Option ℤ
  lastError : Option String
deriving DecidableEq

structure IntegrationDeadLetter where
  id : ℕ
  connectionId : ℕ
  itemId : Option ℕ
  eventId : Option ℕ
  reasonCode : String
  safeError : String
  status : DeadLetterStatus
  replayCount : ℕ
  lastReplayedAt : Option ℤ
  ownerId : Option ℕ
  resolvedAt : Option ℤ
  resolution : Option String
deriving DecidableEq

inductive OperationKind
  | enabled | disabled | revoked | runResumed | deadLetterReplayed | eventReplayed
deriving DecidableEq

structure IntegrationOperation where
  id : ℕ
  connectionId : ℕ
  actorId : Option ℕ
  operation : OperationKind
  idempotencyKey : Option String
  reason : String
  runId : Option ℕ
  occurredAt : ℤ
deriving DecidableEq

instance : Keyed IntegrationConnection := ⟨IntegrationConnection.id⟩
instance : Keyed IntegrationConnectionCapability := ⟨IntegrationConnectionCapability.id⟩
instance : Keyed IntegrationSyncCursor := ⟨IntegrationSyncCursor.id⟩
instance : Keyed IntegrationSyncRun := ⟨IntegrationSyncRun.id⟩
instance : Keyed IntegrationSyncRunItem := ⟨IntegrationSyncRunItem.id⟩
instance : Keyed IntegrationEvent := ⟨IntegrationEvent.id⟩
instance : Keyed IntegrationDeadLetter := ⟨IntegrationDeadLetter.id⟩
instance : Keyed IntegrationOperation := ⟨IntegrationOperation.id⟩

-- The tables of the integration kernel; claim tokens are drawn from a counter.
structure Kernel where
  clock : ℤ
  properties : List ℕ := []
  connections : Table IntegrationConnection := .empty
  capabilities : Table IntegrationConnectionCapability := .empty
  cursors : Table IntegrationSyncCursor := .empty
  runs : Table IntegrationSyncRun := .empty
  items : Table IntegrationSyncRunItem := .empty
  events : Table IntegrationEvent := .empty
  letters : Table IntegrationDeadLetter := .empty
  operations : Table IntegrationOperation := .empty
  tokens : ℕ := 0

abbrev KernelTx (α : Type) := Transaction Failure Kernel α

def IntegrationConnection.off (c : IntegrationConnection) : Bool := !c.isEnabled || c.revokedAt.isSome

namespace Kernel

def isFuture (k : Kernel) (t : Option ℤ) : Bool := t.any fun t => decide (k.clock < t)

def grants (k : Kernel) (connectionId : ℕ) (capability : IntegrationCapability)
    (direction : Direction) : Bool :=
  k.capabilities.rows.any fun c => c.connectionId == connectionId && c.capability == capability &&
    c.direction == direction && c.state == .enabled

end Kernel

def lockedConnection (i : ℕ) : KernelTx IntegrationConnection := do
  let k ← get
  Transaction.orFail (k.connections.find? i) .modelNotFound

def lockedRun (i : ℕ) : KernelTx IntegrationSyncRun := do
  let k ← get
  Transaction.orFail (k.runs.find? i) .modelNotFound

def lockedItem (i : ℕ) : KernelTx IntegrationSyncRunItem := do
  let k ← get
  Transaction.orFail (k.items.find? i) .modelNotFound

def lockedEvent (i : ℕ) : KernelTx IntegrationEvent := do
  let k ← get
  Transaction.orFail (k.events.find? i) .modelNotFound

section Commits
variable {i : ℕ} {k k' : Kernel}

@[simp] theorem commits_lockedConnection {c : IntegrationConnection} :
    Transaction.Commits (lockedConnection i) k c k' ↔ k.connections.find? i = some c ∧ k = k' := by
  simp [lockedConnection, and_comm]

@[simp] theorem commits_lockedRun {r : IntegrationSyncRun} :
    Transaction.Commits (lockedRun i) k r k' ↔ k.runs.find? i = some r ∧ k = k' := by
  simp [lockedRun, and_comm]

@[simp] theorem commits_lockedItem {x : IntegrationSyncRunItem} :
    Transaction.Commits (lockedItem i) k x k' ↔ k.items.find? i = some x ∧ k = k' := by
  simp [lockedItem, and_comm]

@[simp] theorem commits_lockedEvent {e : IntegrationEvent} :
    Transaction.Commits (lockedEvent i) k e k' ↔ k.events.find? i = some e ∧ k = k' := by
  simp [lockedEvent, and_comm]

end Commits
end Schema
