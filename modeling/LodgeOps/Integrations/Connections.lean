import LodgeOps.Schema.Integrations

namespace IntegrationOperationRecorder
open Schema Transaction

def operation (connectionId : ℕ) (kind : OperationKind) (actorId : Option ℕ) (reason : String)
    (runId : Option ℕ) (key : Option String) (now : ℤ) (i : ℕ) : IntegrationOperation where
  id := i
  connectionId := connectionId
  actorId := actorId
  operation := kind
  idempotencyKey := key
  reason := reason
  runId := runId
  occurredAt := now

def record (connectionId : ℕ) (kind : OperationKind) (actorId : Option ℕ) (reason : String)
    (runId : Option ℕ := none) (key : Option String := none) : KernelTx Unit := do
  reject (trim reason = "") (.commercialWorkflow "An operational reason is required.")
  modify fun k => { k with
    operations := k.operations.insert
      (operation connectionId kind actorId (trim reason) runId key k.clock) }

theorem commits_record {k k' : Kernel} {connectionId : ℕ} {kind : OperationKind}
    {actorId runId : Option ℕ} {reason : String} {key : Option String} {u : Unit}
    (h : Commits (record connectionId kind actorId reason runId key) k u k') :
    k' = { k with operations := k'.operations } := by
  simp only [record, commits_bind, commits_reject, commits_modify] at h
  obtain ⟨_, _, ⟨_, rfl⟩, rfl⟩ := h
  rfl

end IntegrationOperationRecorder

namespace IntegrationConnectionService
open Schema Transaction IntegrationOperationRecorder

-- The connection handed in may be older than the row: only what differs from it is written.
def switchedOn (snapshot : IntegrationConnection) (c : IntegrationConnection) :
    IntegrationConnection :=
  { c with
    isEnabled := if snapshot.isEnabled then c.isEnabled else true
    status := if snapshot.status = .connected then c.status else .connected }

def withState (state : CapabilityState) (c : IntegrationConnectionCapability) :
    IntegrationConnectionCapability := { c with state := state }

def capabilitiesOf (i : ℕ) (c : IntegrationConnectionCapability) : Bool := c.connectionId == i

def enable (snapshot : IntegrationConnection) (actorId : Option ℕ) (reason : String) :
    KernelTx Unit := do
  reject (snapshot.revokedAt ≠ none ∨ snapshot.secretReference = none)
    (.commercialWorkflow "A revoked or unconfigured connection cannot be enabled.")
  modify fun k => { k with
    connections := k.connections.update snapshot.id (switchedOn snapshot)
    capabilities := k.capabilities.updateWhere (capabilitiesOf snapshot.id) (withState .enabled) }
  record snapshot.id .enabled actorId reason

def stoppable (i : ℕ) (r : IntegrationSyncRun) : Bool :=
  r.connectionId == i && (r.status == .queued || r.status == .running)

def active (s : ItemStatus) : Bool := s == .pending || s == .processing || s == .retryable

def awaiting (i : ℕ) (e : IntegrationEvent) : Bool := e.connectionId == i &&
  (e.disposition == .received || e.disposition == .retryable || e.disposition == .processing)

def haltedRun (message : String) (r : IntegrationSyncRun) : IntegrationSyncRun :=
  { r with
    status := .blocked
    lastError := some message
    claimToken := none
    leaseExpiresAt := none }

def haltedItem (message : String) (x : IntegrationSyncRunItem) : IntegrationSyncRunItem :=
  { x with status := .blocked, lastError := some message }

def haltedEvent (message : String) (now : ℤ) (e : IntegrationEvent) : IntegrationEvent :=
  { e with disposition := .blocked, lastError := some message, updatedAt := now }

def stoppedRuns (k : Kernel) (i : ℕ) : List ℕ :=
  (k.runs.select (stoppable i)).map IntegrationSyncRun.id

def halted (k : Kernel) (i : ℕ) (runMessage eventMessage : String) : Kernel :=
  { k with
    runs := k.runs.updateWhere (stoppable i) (haltedRun runMessage)
    items := k.items.updateWhere
      (fun x => (stoppedRuns k i).contains x.runId && active x.status) (haltedItem runMessage)
    events := k.events.updateWhere (awaiting i) (haltedEvent eventMessage k.clock) }

def shut (i : ℕ) (switch : IntegrationConnection → IntegrationConnection) (hk : Keeps switch)
    (state : CapabilityState) (runMessage eventMessage : String) (k : Kernel) : Kernel :=
  { halted k i runMessage eventMessage with
    connections := k.connections.update i switch hk
    capabilities := k.capabilities.updateWhere (capabilitiesOf i) (withState state) }

def switchedOff (c : IntegrationConnection) : IntegrationConnection :=
  { c with isEnabled := false, status := .disabled }

def withdrawn (now : ℤ) (c : IntegrationConnection) : IntegrationConnection :=
  { c with isEnabled := false, status := .revoked, revokedAt := some now, secretReference := none }

def disable (i : ℕ) (actorId : Option ℕ) (reason : String) : KernelTx Unit := do
  let _ ← lockedConnection i
  modify fun k => shut i switchedOff (fun _ => rfl) .disabled "Connection disabled during run."
    "Connection disabled before event processing." k
  record i .disabled actorId reason

def revoke (i : ℕ) (actorId : Option ℕ) (reason : String) : KernelTx Unit := do
  let _ ← lockedConnection i
  modify fun k => shut i (withdrawn k.clock) (fun _ => rfl) .revoked
    "Connection revoked during run." "Connection revoked before event processing." k
  record i .revoked actorId reason

section Commits
variable {k k' : Kernel} {i : ℕ} {snapshot : IntegrationConnection} {actor : Option ℕ}
variable {reason : String} {u : Unit}

-- Switching a connection on touches no run, item, event or cursor.
structure Switched (k k' : Kernel) : Prop where
  runs : k'.runs = k.runs
  items : k'.items = k.items
  events : k'.events = k.events
  cursors : k'.cursors = k.cursors
  tokens : k'.tokens = k.tokens

theorem commits_enable (h : Commits (enable snapshot actor reason) k u k') : Switched k k' := by
  simp only [enable, commits_bind, commits_reject, commits_modify] at h
  obtain ⟨_, _, ⟨_, rfl⟩, _, _, rfl, h⟩ := h
  have hr := commits_record h
  exact ⟨by rw [hr], by rw [hr], by rw [hr], by rw [hr], by rw [hr]⟩

structure Halts (k k' : Kernel) (i : ℕ) (runMessage eventMessage : String) : Prop where
  runs : k'.runs = k.runs.updateWhere (stoppable i) (haltedRun runMessage)
  items : k'.items = k.items.updateWhere
    (fun x => (stoppedRuns k i).contains x.runId && active x.status) (haltedItem runMessage)
  events : k'.events = k.events.updateWhere (awaiting i) (haltedEvent eventMessage k.clock)
  cursors : k'.cursors = k.cursors
  tokens : k'.tokens = k.tokens
  off : ∀ c, k'.connections.find? i = some c → c.off = true

theorem halts_shut {switch : IntegrationConnection → IntegrationConnection} {hk : Keeps switch}
    {state : CapabilityState} {runMessage eventMessage : String} {kind : OperationKind}
    (hoff : ∀ c, (switch c).off = true)
    (h : Commits (record i kind actor reason) (shut i switch hk state runMessage eventMessage k)
      u k') : Halts k k' i runMessage eventMessage := by
  have hr := commits_record h
  refine ⟨by rw [hr]; rfl, by rw [hr]; rfl, by rw [hr]; rfl, by rw [hr]; rfl, by rw [hr]; rfl, ?_⟩
  intro c hc
  have hcon : k'.connections = k.connections.update i switch hk := by rw [hr]; rfl
  rw [hcon, Table.find?_update, if_pos rfl] at hc
  obtain ⟨b, _, rfl⟩ := Option.map_eq_some_iff.mp hc
  exact hoff b

theorem commits_disable (h : Commits (disable i actor reason) k u k') :
    Halts k k' i "Connection disabled during run."
      "Connection disabled before event processing." := by
  simp only [disable, commits_bind, commits_lockedConnection, commits_modify] at h
  obtain ⟨_, _, ⟨_, rfl⟩, _, _, rfl, h⟩ := h
  exact halts_shut (fun _ => rfl) h

theorem commits_revoke (h : Commits (revoke i actor reason) k u k') :
    Halts k k' i "Connection revoked during run."
      "Connection revoked before event processing." := by
  simp only [revoke, commits_bind, commits_lockedConnection, commits_modify] at h
  obtain ⟨_, _, ⟨_, rfl⟩, _, _, rfl, h⟩ := h
  exact halts_shut (fun _ => rfl) h

end Commits
end IntegrationConnectionService
