import LodgeOps.Integrations.Connections

namespace IntegrationRunService
open Schema Transaction IntegrationConnectionService

section Pages

structure PageItem where
  externalKey : Option String
  checksum : Option String
  snapshotIsArray : Bool := true
deriving DecidableEq

structure IntegrationPage where
  items : List PageItem
  nextCheckpoint : Option String
  hasMore : Bool
deriving DecidableEq

structure Fact where
  externalKey : String
  checksum : String
deriving DecidableEq

def hexDigit (c : Char) : Bool := c.isDigit || (decide ('a' ≤ c) && decide (c ≤ 'f'))

def isChecksum (s : String) : Bool := s.length == 64 && s.toList.all hexDigit

def poisonPage : Failure :=
  .runtime "The provider page is malformed or contains duplicate item identities."

def validatedItem (facts : List Fact) (x : PageItem) : Except Failure (List Fact) := do
  let key ← found x.externalKey poisonPage
  let checksum ← found x.checksum poisonPage
  refuse (trim key = "" ∨ isChecksum checksum = false ∨ x.snapshotIsArray = false ∨
    facts.any (fun f => f.externalKey == key) = true) poisonPage
  .ok (facts ++ [⟨key, checksum⟩])

def validatedItems (page : IntegrationPage) : Except Failure (List Fact) := do
  let facts ← page.items.foldlM validatedItem []
  refuse (page.hasMore = true ∧ page.nextCheckpoint = none)
    (.runtime "A partial provider page omitted its continuation checkpoint.")
  .ok facts

end Pages

section Scope

def direction : IntegrationCapability → Direction
  | .reservationsImport => .inbound
  | _ => .outbound

def runCapabilities : List IntegrationCapability :=
  [.reservationsImport, .accountingJournalExport, .webhookOutbound]

def assertRunnable (k : Kernel) (c : IntegrationConnection) (capability : IntegrationCapability)
    (propertyId : Option ℕ) : Except Failure Unit := do
  refuse (¬ (capability ∈ runCapabilities ∧ capability ∈ c.capabilities))
    (.commercialWorkflow "The connection does not grant this capability.")
  refuse (c.off = true) (.commercialWorkflow "The connection is disabled or revoked.")
  refuse (c.propertyId ≠ none ∧ propertyId ≠ c.propertyId)
    (.commercialWorkflow "The run property does not match the connection scope.")
  refuse (propertyId.any (fun p => !k.properties.contains p) = true)
    (.commercialWorkflow "The run property does not exist in this tenant.")
  refuse (k.grants c.id capability (direction capability) = false)
    (.commercialWorkflow "The connection capability is not enabled.")

def serves (r : IntegrationSyncRun) (c : IntegrationSyncCursor) : Bool :=
  c.connectionId == r.connectionId && c.propertyId == r.propertyId &&
    c.capability == r.capability && c.direction == r.direction

def cursorFor (k : Kernel) (r : IntegrationSyncRun) : Option IntegrationSyncCursor :=
  k.cursors.first? (serves r)

end Scope

section Writes

def blockedRun (message : String) (r : IntegrationSyncRun) : IntegrationSyncRun :=
  { r with status := .blocked, lastError := some message }

def saveRun (i : ℕ) (f : IntegrationSyncRun → IntegrationSyncRun)
    (hf : Keeps f := by intro r; rfl) : KernelTx Unit :=
  modify fun k => { k with runs := k.runs.update i f hf }

def saveItem (i : ℕ) (f : IntegrationSyncRunItem → IntegrationSyncRunItem)
    (hf : Keeps f := by intro r; rfl) : KernelTx Unit :=
  modify fun k => { k with items := k.items.update i f hf }

end Writes

section Claims

def lease : ℤ := 300

def claimedRun (token : ℕ) (now : ℤ) (r : IntegrationSyncRun) : IntegrationSyncRun :=
  { r with
    status := .running
    claimToken := some token
    claimedAt := some now
    leaseExpiresAt := some (now + lease)
    startedAt := some (r.startedAt.getD now)
    attempt := r.attempt + 1 }

def claimable (k : Kernel) (r : IntegrationSyncRun) : Bool :=
  !(r.status == .completed || r.status == .cancelled || r.status == .failed) &&
    !(r.status == .running && k.isFuture r.leaseExpiresAt)

def claimRun (r : IntegrationSyncRun) : KernelTx (Option IntegrationSyncRun) := do
  let k ← get
  set { k with
    runs := k.runs.update r.id (claimedRun k.tokens k.clock)
    tokens := k.tokens + 1 }
  pure (some (claimedRun k.tokens k.clock r))

def executePage (i : ℕ) : KernelTx (Option IntegrationSyncRun) := do
  let candidate ← lockedRun i
  let k ← get
  if claimable k candidate = false then pure none
  else do
    let connection ← lockedConnection candidate.connectionId
    if connection.off = true then do
      saveRun i (blockedRun "Connection disabled or revoked during run.")
      pure none
    else claimRun candidate

def ready (k : Kernel) (r : IntegrationSyncRun) (x : IntegrationSyncRunItem) : Bool :=
  x.runId == r.id && x.pageNumber == r.pageNumber && (x.status == .pending || x.status == .retryable) &&
    !k.isFuture x.availableAt

def pendingIds (k : Kernel) (r : IntegrationSyncRun) : List ℕ :=
  (k.items.select (ready k r)).map IntegrationSyncRunItem.id

def released (r : IntegrationSyncRun) : IntegrationSyncRun :=
  { r with claimToken := none, leaseExpiresAt := none }

def release (r : IntegrationSyncRun) : KernelTx Unit := saveRun r.id released

end Claims

section Storage

def newItem (r : IntegrationSyncRun) (page : ℕ) (f : Fact) (now : ℤ) (i : ℕ) :
    IntegrationSyncRunItem where
  id := i
  runId := r.id
  pageNumber := page
  externalKey := f.externalKey
  payloadChecksum := f.checksum
  status := .pending
  attempt := 0
  availableAt := some now
  startedAt := none
  finishedAt := none
  localKey := none
  lastError := none

def itemFor? (k : Kernel) (runId : ℕ) (key : String) : Option IntegrationSyncRunItem :=
  k.items.first? fun x => x.runId == runId && x.externalKey == key

def firstOrCreate (r : IntegrationSyncRun) (page : ℕ) (f : Fact) : KernelTx IntegrationSyncRunItem := do
  let k ← get
  match itemFor? k r.id f.externalKey with
  | some x => pure x
  | none => do
    set { k with items := k.items.insert (newItem r page f k.clock) }
    pure (newItem r page f k.clock k.items.next)

def storeFact (r : IntegrationSyncRun) (page : ℕ) (f : Fact) : KernelTx (List ℕ) := do
  let x ← firstOrCreate r page f
  reject (x.payloadChecksum ≠ f.checksum)
    (.runtime "A provider item identity changed payload within the same run.")
  pure (if x.pageNumber = page ∧ (x.status = .pending ∨ x.status = .retryable) then [x.id] else [])

def storeFacts (r : IntegrationSyncRun) (page : ℕ) : List Fact → KernelTx (List ℕ)
  | [] => pure []
  | f :: fs => do
    let ids ← storeFact r page f
    let rest ← storeFacts r page fs
    pure (ids ++ rest)

def withPage (page : IntegrationPage) (r : IntegrationSyncRun) : IntegrationSyncRun :=
  { r with
    pageNumber := r.pageNumber + 1
    pendingCheckpoint := page.nextCheckpoint
    pendingHasMore := page.hasMore
    pageInProgress := true
    claimToken := none
    leaseExpiresAt := none }

def fencedRun (message : String) (r : IntegrationSyncRun) : IntegrationSyncRun :=
  { r with
    status := .blocked
    lastError := some message
    claimToken := none
    leaseExpiresAt := none }

def keepPage (r : IntegrationSyncRun) (page : IntegrationPage) (facts : List Fact) :
    KernelTx (Option (List ℕ)) := do
  let ids ← storeFacts r (r.pageNumber + 1) facts
  saveRun r.id (withPage page)
  pure (some ids)

def storePage (i : ℕ) (page : IntegrationPage) (facts : List Fact) :
    KernelTx (Option (List ℕ)) := do
  let locked ← lockedRun i
  let connection ← lockedConnection locked.connectionId
  if connection.off = true ∨ locked.status = .blocked then do
    saveRun locked.id (fencedRun "Connection disabled after page claim.")
    pure none
  else keepPage locked page facts

def rateLimitedRun (error : String) (r : IntegrationSyncRun) : IntegrationSyncRun :=
  { r with
    status := .queued
    lastError := some error
    claimToken := none
    leaseExpiresAt := none }

def failedRun (error : String) (now : ℤ) (r : IntegrationSyncRun) : IntegrationSyncRun :=
  { r with
    status := .failed
    lastError := some error
    finishedAt := some now
    claimToken := none
    leaseExpiresAt := none }

-- The claimed run is written from memory, without a lock and whatever became of the row.
def failPage (claimed : IntegrationSyncRun) (rateLimited : Bool) (error : String) :
    KernelTx Unit := do
  let k ← get
  if rateLimited = true then saveRun claimed.id (rateLimitedRun error)
  else saveRun claimed.id (failedRun error k.clock)

end Storage

section Items

def claimedItem (now : ℤ) (x : IntegrationSyncRunItem) : IntegrationSyncRunItem :=
  { x with
    status := .processing
    attempt := x.attempt + 1
    startedAt := some now
    lastError := none }

def claimItem (x : IntegrationSyncRunItem) : KernelTx (Option IntegrationSyncRunItem) := do
  let k ← get
  saveItem x.id (claimedItem k.clock)
  pure (some (claimedItem k.clock x))

def processItem (i : ℕ) : KernelTx (Option IntegrationSyncRunItem) := do
  let candidate ← lockedItem i
  if ¬ (candidate.status = .pending ∨ candidate.status = .retryable) then pure none
  else do
    let run ← lockedRun candidate.runId
    let connection ← lockedConnection run.connectionId
    if connection.off = true then do
      saveRun run.id (blockedRun "Connection disabled or revoked during run.")
      pure none
    else claimItem candidate

def succeededItem (localKey : Option String) (now : ℤ) (x : IntegrationSyncRunItem) :
    IntegrationSyncRunItem :=
  { x with
    status := .succeeded
    localKey := localKey
    finishedAt := some now
    lastError := none }

def resolvedLetter (now : ℤ) (l : IntegrationDeadLetter) : IntegrationDeadLetter :=
  { l with
    status := .resolved
    resolvedAt := some now
    resolution := some "Replay succeeded." }

def resolveLetters (p : IntegrationDeadLetter → Bool) : KernelTx Unit :=
  modify fun k => { k with letters := k.letters.updateWhere p (resolvedLetter k.clock) }

def settleLetters (itemId : ℕ) : KernelTx Unit := resolveLetters fun l => l.itemId == some itemId

def finishItem (x : IntegrationSyncRunItem) (run : IntegrationSyncRun) (localKey : Option String) :
    KernelTx Unit := do
  let k ← get
  saveItem x.id (succeededItem localKey k.clock)
  if run.status = .completed then settleLetters x.id else pure ()

def fenceItem (x : IntegrationSyncRunItem) (run : IntegrationSyncRun) : KernelTx Unit := do
  saveItem x.id (haltedItem "Connection disabled after item claim.")
  saveRun run.id (blockedRun "Connection disabled after item claim.")

def completeItem (itemId : ℕ) (localKey : Option String) : KernelTx IntegrationSyncRun := do
  let locked ← lockedItem itemId
  let run ← lockedRun locked.runId
  let connection ← lockedConnection run.connectionId
  if connection.off = true ∨ run.status = .blocked ∨ locked.status = .blocked then
    fenceItem locked run
  else finishItem locked run localKey
  lockedRun run.id

def retryableItem (error : String) (at' : ℤ) (x : IntegrationSyncRunItem) :
    IntegrationSyncRunItem :=
  { x with status := .retryable, lastError := some error, availableAt := some at' }

def failItem (itemId : ℕ) (retryAfter : Option ℤ) (error : String) : KernelTx Unit := do
  let k ← get
  saveItem itemId (retryableItem error (k.clock + retryAfter.getD 60))

def deadItem (error : String) (now : ℤ) (x : IntegrationSyncRunItem) : IntegrationSyncRunItem :=
  { x with status := .deadLetter, lastError := some error, finishedAt := some now }

def itemLetter (run : IntegrationSyncRun) (itemId : ℕ) (reasonCode error : String) (i : ℕ) :
    IntegrationDeadLetter where
  id := i
  connectionId := run.connectionId
  itemId := some itemId
  eventId := none
  reasonCode := reasonCode
  safeError := error
  status := .opened
  replayCount := 0
  lastReplayedAt := none
  ownerId := none
  resolvedAt := none
  resolution := none

def reopenedLetter (reasonCode error : String) (l : IntegrationDeadLetter) : IntegrationDeadLetter :=
  { l with
    reasonCode := reasonCode
    safeError := error
    status := .opened
    resolvedAt := none
    resolution := none }

def updateOrCreateLetter (run : IntegrationSyncRun) (itemId : ℕ) (reasonCode error : String) :
    KernelTx Unit :=
  modify fun k => { k with
    letters :=
      if k.letters.rows.any (fun l => l.itemId == some itemId) then
        k.letters.updateWhere (fun l => l.itemId == some itemId) (reopenedLetter reasonCode error)
      else k.letters.insert (itemLetter run itemId reasonCode error) }

def deadLetter (itemId : ℕ) (reasonCode error : String) : KernelTx IntegrationSyncRun := do
  let locked ← lockedItem itemId
  let run ← lockedRun locked.runId
  let k ← get
  saveItem locked.id (deadItem error k.clock)
  updateOrCreateLetter run locked.id reasonCode error
  pure run

def exhausted (k : Kernel) (itemId : ℕ) : Bool :=
  (k.items.find? itemId).any fun x => x.status != .succeeded && x.status != .deadLetter

end Items

section Operators

def replayedItem (now : ℤ) (x : IntegrationSyncRunItem) : IntegrationSyncRunItem :=
  { x with
    status := .pending
    availableAt := some now
    finishedAt := none
    lastError := none }

def replayedLetter (actorId : Option ℕ) (now : ℤ) (l : IntegrationDeadLetter) :
    IntegrationDeadLetter :=
  { l with
    status := .replaying
    replayCount := l.replayCount + 1
    lastReplayedAt := some now
    ownerId := actorId }

def lockedLetter (i : ℕ) : KernelTx IntegrationDeadLetter := do
  let k ← get
  orFail (k.letters.find? i) .modelNotFound

def stillActive : Failure :=
  .commercialWorkflow "The original item is still active or unavailable."

def replay (letterId : ℕ) (actorId : Option ℕ) (reason : String) : KernelTx Unit := do
  let locked ← lockedLetter letterId
  let k ← get
  let x ← orFail (locked.itemId.bind k.items.find?) stillActive
  let run ← lockedRun x.runId
  reject (run.pageInProgress = true ∨ locked.status = .replaying ∨ active x.status = true) stillActive
  saveItem x.id (replayedItem k.clock)
  modify fun s => { s with letters := s.letters.update locked.id (replayedLetter actorId k.clock) }
  IntegrationOperationRecorder.record locked.connectionId .deadLetterReplayed actorId reason

def resumedItem (now : ℤ) (x : IntegrationSyncRunItem) : IntegrationSyncRunItem :=
  { x with
    status := .pending
    availableAt := some now
    startedAt := none
    finishedAt := none
    lastError := none }

def resumedRun (r : IntegrationSyncRun) : IntegrationSyncRun :=
  { r with
    status := .queued
    trigger := .resume
    claimToken := none
    claimedAt := none
    leaseExpiresAt := none
    finishedAt := none
    lastError := none }

def resumption? (k : Kernel) (connectionId : ℕ) (key : String) : Option IntegrationOperation :=
  k.operations.first? fun o => o.connectionId == connectionId && o.operation == .runResumed &&
    o.idempotencyKey == some key

def resumeBlocked (r : IntegrationSyncRun) (connection : IntegrationConnection) (key : String)
    (actorId : Option ℕ) (reason : String) : KernelTx Unit := do
  reject (r.status ≠ .blocked)
    (.commercialWorkflow "Only a specifically blocked integration run may be resumed.")
  check fun k => assertRunnable k connection r.capability r.propertyId
  modify fun k => { k with
    items := k.items.updateWhere (fun x => x.runId == r.id && x.status == .blocked)
      (resumedItem k.clock) }
  saveRun r.id resumedRun
  IntegrationOperationRecorder.record connection.id .runResumed actorId reason (some r.id) (some key)

def resume (i : ℕ) (key : String) (actorId : Option ℕ) (reason : String) : KernelTx Unit := do
  reject (trim key = "") (.commercialWorkflow "A stable resume idempotency key is required.")
  let locked ← lockedRun i
  let connection ← lockedConnection locked.connectionId
  let k ← get
  match resumption? k connection.id key with
  | some operation => reject (operation.runId ≠ some locked.id) (.commercialWorkflow
      "This resume idempotency key was already used for a different run.")
  | none => resumeBlocked locked connection key actorId reason

end Operators

section Finalisation

def committedCursor (checkpoint : Option String) (now : ℤ) (c : IntegrationSyncCursor) :
    IntegrationSyncCursor :=
  { c with
    checkpoint := checkpoint
    version := c.version + 1
    committedAt := some now }

def finishedRun (now : ℤ) (r : IntegrationSyncRun) : IntegrationSyncRun :=
  { r with
    status := if r.pendingHasMore then .queued else .completed
    pendingCheckpoint := none
    pendingHasMore := false
    pageInProgress := false
    finishedAt := if r.pendingHasMore then none else some now }

def onPage (r : IntegrationSyncRun) (x : IntegrationSyncRunItem) : Bool :=
  x.runId == r.id && x.pageNumber == r.pageNumber

def unfinished (k : Kernel) (r : IntegrationSyncRun) : Bool :=
  k.items.rows.any fun x => onPage r x && active x.status

def fenceRun (r : IntegrationSyncRun) : KernelTx Unit := do
  saveRun r.id (fencedRun "Connection disabled before cursor commit.")
  modify fun k => { k with
    items := k.items.updateWhere (fun x => x.runId == r.id && active x.status)
      (haltedItem "Connection disabled before cursor commit.") }

def commitPage (r : IntegrationSyncRun) : KernelTx Bool := do
  let k ← get
  let cursor ← orFail (cursorFor k r) .modelNotFound
  set { k with
    cursors := k.cursors.update cursor.id (committedCursor r.pendingCheckpoint k.clock)
    runs := k.runs.update r.id (finishedRun k.clock) }
  pure r.pendingHasMore

def finalizePage (i : ℕ) : KernelTx Bool := do
  let locked ← lockedRun i
  let connection ← lockedConnection locked.connectionId
  let k ← get
  if connection.off = true ∨ locked.status = .blocked then do
    fenceRun locked
    pure false
  else if unfinished k locked = true then pure false
  else commitPage locked

end Finalisation

section Recovery

def patience : ℤ := 120

def stale (k : Kernel) (x : IntegrationSyncRunItem) : Bool :=
  x.status == .processing && x.startedAt.any fun t => decide (t ≤ k.clock - patience)

def recovered (now : ℤ) (x : IntegrationSyncRunItem) : IntegrationSyncRunItem :=
  { x with
    status := .retryable
    availableAt := some now
    lastError := some "Recovered after an expired integration worker lease." }

def recoverItems : KernelTx Unit :=
  modify fun k => { k with items := k.items.updateWhere (stale k) (recovered k.clock) }

end Recovery
end IntegrationRunService
