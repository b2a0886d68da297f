import LodgeOps.Integrations.Runs

namespace IntegrationEventService
open Schema Transaction IntegrationConnectionService
open IntegrationRunService (resolveLetters patience)

section Writes

def blockedEvent (message : String) (now : ℤ) (e : IntegrationEvent) : IntegrationEvent :=
  { e with disposition := .blocked, lastError := some message, updatedAt := now }

def claimedEvent (now : ℤ) (e : IntegrationEvent) : IntegrationEvent :=
  { e with
    disposition := .processing
    attempt := e.attempt + 1
    lastError := none
    updatedAt := now }

def processedEvent (now : ℤ) (e : IntegrationEvent) : IntegrationEvent :=
  { e with
    disposition := .processed
    processedAt := some now
    lastError := none
    updatedAt := now }

def retryableEvent (error : String) (now : ℤ) (e : IntegrationEvent) : IntegrationEvent :=
  { e with disposition := .retryable, lastError := some error, updatedAt := now }

def deadEvent (error : String) (now : ℤ) (e : IntegrationEvent) : IntegrationEvent :=
  { e with
    disposition := .deadLetter
    processedAt := some now
    lastError := some error
    updatedAt := now }

def replayedEvent (now : ℤ) (e : IntegrationEvent) : IntegrationEvent :=
  { e with
    disposition := .received
    processedAt := none
    lastError := none
    updatedAt := now }

def saveEvent (i : ℕ) (f : ℤ → IntegrationEvent → IntegrationEvent)
    (hf : ∀ now, Keeps (f now) := by intro now r; rfl) : KernelTx Unit :=
  modify fun k => { k with events := k.events.update i (f k.clock) (hf k.clock) }

end Writes

section Processing

def claimEvent (e : IntegrationEvent) : KernelTx Bool := do
  saveEvent e.id claimedEvent
  pure true

def process (i : ℕ) : KernelTx Bool := do
  let candidate ← lockedEvent i
  if ¬ (candidate.disposition = .received ∨ candidate.disposition = .retryable) then pure false
  else do
    let connection ← lockedConnection candidate.connectionId
    let k ← get
    if connection.off = true then do
      saveEvent candidate.id (blockedEvent "Connection disabled or revoked before event processing.")
      pure false
    else if k.grants connection.id .webhookInbound .inbound = false then do
      saveEvent candidate.id (blockedEvent "Webhook capability disabled before event processing.")
      pure false
    else claimEvent candidate

def settleEvent (e : IntegrationEvent) : KernelTx Unit := do
  saveEvent e.id processedEvent
  resolveLetters fun l => l.eventId == some e.id

def consumed (i : ℕ) : KernelTx Unit := do
  let locked ← lockedEvent i
  let connection ← lockedConnection locked.connectionId
  if connection.off = true ∨ locked.disposition = .blocked then
    saveEvent locked.id (blockedEvent "Connection disabled after event claim.")
  else settleEvent locked

-- The claimed event is written from memory, without a lock and whatever became of the row.
def failEvent (i : ℕ) (error : String) : KernelTx Unit := saveEvent i (retryableEvent error)

end Processing

section DeadLetters

def exhausted (k : Kernel) (i : ℕ) : Bool :=
  (k.events.find? i).any fun e => e.disposition != .processed && e.disposition != .deadLetter

def eventLetter (e : IntegrationEvent) (error : String) (i : ℕ) : IntegrationDeadLetter where
  id := i
  connectionId := e.connectionId
  itemId := none
  eventId := some e.id
  reasonCode := "event_retry_exhausted"
  safeError := error
  status := .opened
  replayCount := 0
  lastReplayedAt := none
  ownerId := none
  resolvedAt := none
  resolution := none

def reopenedLetter (error : String) (l : IntegrationDeadLetter) : IntegrationDeadLetter :=
  { l with
    reasonCode := "event_retry_exhausted"
    safeError := error
    status := .opened
    resolvedAt := none
    resolution := none }

def updateOrCreateLetter (e : IntegrationEvent) (error : String) : KernelTx Unit :=
  modify fun k => { k with
    letters :=
      if k.letters.rows.any (fun l => l.eventId == some e.id) then
        k.letters.updateWhere (fun l => l.eventId == some e.id) (reopenedLetter error)
      else k.letters.insert (eventLetter e error) }

def deadLetter (i : ℕ) (error : String) : KernelTx Unit := do
  let event ← lockedEvent i
  saveEvent event.id (deadEvent error)
  updateOrCreateLetter event error

def stillActive : Failure := .commercialWorkflow "The original event is still active."

def replay (i : ℕ) (actorId : Option ℕ) (reason : String) : KernelTx Unit := do
  let locked ← lockedEvent i
  reject (locked.disposition = .received ∨ locked.disposition = .processing ∨
    locked.disposition = .retryable) stillActive
  saveEvent locked.id replayedEvent
  IntegrationOperationRecorder.record locked.connectionId .eventReplayed actorId reason

end DeadLetters

section Recovery

def stale (k : Kernel) (e : IntegrationEvent) : Bool :=
  e.disposition == .processing && decide (e.updatedAt ≤ k.clock - patience)

def recover (i : ℕ) : KernelTx Unit := do
  let k ← get
  let event ← orFail (k.events.find? i) .modelNotFound
  if stale k event = true then
    saveEvent event.id (retryableEvent "Recovered after an expired integration worker lease.")
  else pure ()

end Recovery
end IntegrationEventService
