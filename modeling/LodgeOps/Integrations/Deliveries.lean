import LodgeOps.Integrations.Outcomes
import LodgeOps.Store.Workers

namespace Integrations
open Schema Transaction Crew
open IntegrationRunService (IntegrationPage Fact validatedItems pendingIds cursorFor)

section Stages

-- What a worker has in hand when an exception reaches the catch around its work.
inductive Job
  | page (claimed : IntegrationSyncRun)
  | item (itemId : ℕ)
  | none
deriving DecidableEq

inductive Stage
  | surveying (claimed : IntegrationSyncRun)
  | releasing (claimed : IntegrationSyncRun) (idle : Bool)
  | fetching (claimed : IntegrationSyncRun)
  | fetched (claimed : IntegrationSyncRun) (turn : ℕ) (page : IntegrationPage) (facts : List Fact)
  | working (itemId : ℕ)
  | burying (itemId : ℕ) (reasonCode : String)
  | finalizing (job : Job) (runId : ℕ)
  | dispatching (job : Job)
  | consuming (eventId : ℕ)
  | buryingEvent (eventId : ℕ)
deriving DecidableEq

def Stage.job : Stage → Job
  | fetching claimed => .page claimed
  | fetched claimed _ _ _ => .page claimed
  | working itemId => .item itemId
  | finalizing job _ => job
  | dispatching job => job
  | _ => .none

end Stages
section History

structure Sheet where
  turn : ℕ
  number : ℕ
  page : IntegrationPage
deriving DecidableEq

structure Advance where
  number : ℕ
  checkpoint : Option String
  unfinished : List ℕ
deriving DecidableEq

-- What is known of one run from outside: its fetches are counted, the pages it took on and the
-- advances of its cursor are listed in order.
structure History where
  turns : ℕ := 0
  sheets : List Sheet := []
  advances : List Advance := []
deriving DecidableEq

def finished (s : ItemStatus) : Bool := s == .succeeded || s == .deadLetter

def pageOf (k : Kernel) (i : ℕ) : ℕ := (k.runs.find? i).elim 0 IntegrationSyncRun.pageNumber

def leftOpen (k : Kernel) (i n : ℕ) : List ℕ :=
  (k.items.select fun x => x.runId == i && x.pageNumber == n && !finished x.status).map
    IntegrationSyncRunItem.id

def advance? (i : ℕ) (k k' : Kernel) : Option Advance := do
  let r ← k.runs.find? i
  let c ← cursorFor k r
  let c' ← cursorFor k' r
  if c' = c then none else some ⟨r.pageNumber, c'.checkpoint, leftOpen k' i r.pageNumber⟩

end History
section Steps

inductive Action
  | wait (seconds : ℕ)
  | enable (snapshot : IntegrationConnection) (actor : Option ℕ) (reason : String)
  | disable (connectionId : ℕ) (actor : Option ℕ) (reason : String)
  | revoke (connectionId : ℕ) (actor : Option ℕ) (reason : String)
  | executePage (runId : ℕ)
  | survey (claimed : IntegrationSyncRun)
  | release (claimed : IntegrationSyncRun) (idle : Bool)
  | fetch (claimed : IntegrationSyncRun) (page : IntegrationPage)
  | storePage (claimed : IntegrationSyncRun) (turn : ℕ) (page : IntegrationPage) (facts : List Fact)
  | processItem (itemId : ℕ)
  | completeItem (itemId : ℕ) (localKey : Option String)
  | poison (itemId : ℕ)
  | exhaust (itemId : ℕ)
  | deadLetter (itemId : ℕ) (reasonCode error : String)
  | replay (letterId : ℕ) (actor : Option ℕ) (reason : String)
  | resume (runId : ℕ) (key : String) (actor : Option ℕ) (reason : String)
  | finalizePage (job : Job) (runId : ℕ)
  | fail (stage : Stage) (retryAfter : Option ℤ) (error : String)
  | abandon (stage : Stage)
  | recoverItems
  | processEvent (eventId : ℕ)
  | consume (eventId : ℕ)
  | failEvent (eventId : ℕ) (error : String)
  | exhaustEvent (eventId : ℕ)
  | deadLetterEvent (eventId : ℕ) (error : String)
  | replayEvent (eventId : ℕ) (actor : Option ℕ) (reason : String)
  | recoverEvent (eventId : ℕ)
deriving DecidableEq

def Action.source : Action → Option Stage
  | survey claimed => some (.surveying claimed)
  | release claimed idle => some (.releasing claimed idle)
  | fetch claimed _ => some (.fetching claimed)
  | storePage claimed turn page facts => some (.fetched claimed turn page facts)
  | completeItem itemId _ => some (.working itemId)
  | poison itemId => some (.working itemId)
  | deadLetter itemId reasonCode _ => some (.burying itemId reasonCode)
  | finalizePage job runId => some (.finalizing job runId)
  | fail stage _ _ => some stage
  | abandon stage => some stage
  | consume eventId => some (.consuming eventId)
  | failEvent eventId _ => some (.consuming eventId)
  | deadLetterEvent eventId _ => some (.buryingEvent eventId)
  | _ => none

def quietly (x : KernelTx Unit) : KernelTx (Option Stage) := do
  x
  pure none

def notDue : Failure := .commercialWorkflow "Nothing is left to do here."

def claimPage (runId : ℕ) : KernelTx (Option Stage) := do
  let o ← IntegrationRunService.executePage runId
  pure (o.map fun claimed => if claimed.pageInProgress then .surveying claimed else .fetching claimed)

def surveyPage (claimed : IntegrationSyncRun) : KernelTx (Option Stage) := do
  let k ← get
  pure (some (.releasing claimed (pendingIds k claimed).isEmpty))

def releasePage (claimed : IntegrationSyncRun) (idle : Bool) : KernelTx (Option Stage) := do
  IntegrationRunService.release claimed
  pure (if idle then some (.finalizing .none claimed.id) else none)

def fetchPage (turn : ℕ) (claimed : IntegrationSyncRun) (page : IntegrationPage) :
    KernelTx (Option Stage) := do
  let k ← get
  let _ ← orFail (cursorFor k claimed) .modelNotFound
  let facts ← check fun _ => validatedItems page
  pure (some (.fetched claimed turn page facts))

def keepSheet (claimed : IntegrationSyncRun) (page : IntegrationPage) (facts : List Fact) :
    KernelTx (Option Stage) := do
  let ids ← IntegrationRunService.storePage claimed.id page facts
  pure (ids.map fun ids =>
    if ids = [] then .finalizing (.page claimed) claimed.id else .dispatching (.page claimed))

def startItem (itemId : ℕ) : KernelTx (Option Stage) := do
  let o ← IntegrationRunService.processItem itemId
  pure (o.map fun x => .working x.id)

def settleItem (itemId : ℕ) (localKey : Option String) : KernelTx (Option Stage) := do
  let run ← IntegrationRunService.completeItem itemId localKey
  pure (if run.status = .blocked ∨ run.status = .completed then none
    else some (.finalizing (.item itemId) run.id))

def buryItem (itemId : ℕ) (reasonCode error : String) : KernelTx (Option Stage) := do
  let run ← IntegrationRunService.deadLetter itemId reasonCode error
  pure (some (.finalizing .none run.id))

def closePage (job : Job) (runId : ℕ) : KernelTx (Option Stage) := do
  let more ← IntegrationRunService.finalizePage runId
  pure (if more then some (.dispatching job) else none)

def giveUp (job : Job) (retryAfter : Option ℤ) (error : String) : KernelTx (Option Stage) :=
  match job with
  | .page claimed => quietly (IntegrationRunService.failPage claimed retryAfter.isSome error)
  | .item itemId => quietly (IntegrationRunService.failItem itemId retryAfter error)
  | .none => throw notDue

def takeEvent (eventId : ℕ) : KernelTx (Option Stage) := do
  let taken ← IntegrationEventService.process eventId
  pure (if taken then some (.consuming eventId) else none)

def whenever (due : Kernel → Bool) (next : Stage) : KernelTx (Option Stage) := do
  let k ← get
  reject (due k = false) notDue
  pure (some next)

def later (seconds : ℕ) (k : Kernel) : Kernel := { k with clock := k.clock + seconds }

def Action.tx (turn : ℕ) : Action → KernelTx (Option Stage)
  | wait seconds => quietly (modify (later seconds))
  | enable snapshot actor reason => quietly (IntegrationConnectionService.enable snapshot actor reason)
  | disable i actor reason => quietly (IntegrationConnectionService.disable i actor reason)
  | revoke i actor reason => quietly (IntegrationConnectionService.revoke i actor reason)
  | executePage runId => claimPage runId
  | survey claimed => surveyPage claimed
  | release claimed idle => releasePage claimed idle
  | fetch claimed page => fetchPage turn claimed page
  | storePage claimed _ page facts => keepSheet claimed page facts
  | processItem itemId => startItem itemId
  | completeItem itemId localKey => settleItem itemId localKey
  | poison itemId => pure (some (.burying itemId "poison_item"))
  | exhaust itemId => whenever (fun k => IntegrationRunService.exhausted k itemId)
      (.burying itemId "retry_exhausted")
  | deadLetter itemId reasonCode error => buryItem itemId reasonCode error
  | replay letterId actor reason => quietly (IntegrationRunService.replay letterId actor reason)
  | resume runId key actor reason => quietly (IntegrationRunService.resume runId key actor reason)
  | finalizePage job runId => closePage job runId
  | fail stage retryAfter error => giveUp stage.job retryAfter error
  | abandon _ => pure none
  | recoverItems => quietly IntegrationRunService.recoverItems
  | processEvent eventId => takeEvent eventId
  | consume eventId => quietly (IntegrationEventService.consumed eventId)
  | failEvent eventId error => quietly (IntegrationEventService.failEvent eventId error)
  | exhaustEvent eventId => whenever (fun k => IntegrationEventService.exhausted k eventId)
      (.buryingEvent eventId)
  | deadLetterEvent eventId error => quietly (IntegrationEventService.deadLetter eventId error)
  | replayEvent eventId actor reason =>
    quietly (IntegrationEventService.replay eventId actor reason)
  | recoverEvent eventId => quietly (IntegrationEventService.recover eventId)

-- A page is taken on when the run counts it: its sheet is listed under the number it got.
def sheet? (i : ℕ) (k k' : Kernel) : Action → Option Sheet
  | .storePage _ turn page _ =>
    if pageOf k' i = pageOf k i then none else some ⟨turn, pageOf k' i, page⟩
  | _ => none

def fetches : Action → ℕ
  | .fetch _ _ => 1
  | _ => 0

def History.after (i : ℕ) (a : Action) (k k' : Kernel) (h : History) : History where
  turns := h.turns + fetches a
  sheets := h.sheets ++ (sheet? i k k' a).toList
  advances := h.advances ++ (advance? i k k').toList

abbrev World := Crew Kernel History Stage

def depart (s : Option Stage) (w : World) : World :=
  match s with
  | some s => { w with workers := w.workers.erase s }
  | none => w

def arrive (s : Option Stage) (w : World) : World :=
  match s with
  | some s => { w with workers := s :: w.workers }
  | none => w

def act (i : ℕ) (a : Action) : Transaction Failure World Unit := do
  let w ← get
  reject (∃ s ∈ a.source, s ∉ w.workers) notDue
  let next ← onDb (a.tx w.outside.turns)
  modify fun u => arrive next (depart a.source { u with outside := w.outside.after i a w.db u.db })

end Steps
section Commits
variable {i : ℕ} {a : Action} {w w' : World} {u : Unit}

theorem commits_act (h : Commits (act i a) w u w') : (∀ s, a.source = some s → s ∈ w.workers) ∧
    ∃ next k, Commits (a.tx w.outside.turns) w.db next k ∧
      w' = arrive next (depart a.source ⟨k, w.outside.after i a w.db k, w.workers⟩) := by
  simp only [act, commits_bind, commits_get, commits_reject, commits_onDb, commits_modify] at h
  obtain ⟨_, _, ⟨rfl, rfl⟩, _, _, ⟨hsource, rfl⟩, next, _, ⟨k, hk, rfl⟩, rfl⟩ := h
  refine ⟨fun s hs => ?_, next, k, hk, rfl⟩
  by_contra hne
  exact hsource ⟨s, hs, hne⟩

theorem commits_quietly {x : KernelTx Unit} {k k' : Kernel} {next : Option Stage} :
    Commits (quietly x) k next k' ↔ next = none ∧ Commits x k () k' := by
  simp only [quietly, commits_bind, commits_pure]
  constructor
  · rintro ⟨_, _, hx, rfl, rfl⟩
    exact ⟨rfl, hx⟩
  · rintro ⟨rfl, hx⟩
    exact ⟨(), k', hx, rfl, rfl⟩

theorem commits_whenever {due : Kernel → Bool} {s : Stage} {k k' : Kernel} {next : Option Stage}
    (h : Commits (whenever due s) k next k') : next = some s ∧ k' = k := by
  simp only [whenever, commits_bind, commits_get, commits_reject, commits_pure] at h
  obtain ⟨_, _, ⟨rfl, rfl⟩, _, _, ⟨_, rfl⟩, rfl, rfl⟩ := h
  exact ⟨rfl, rfl⟩

end Commits
section Opening

def channel (i : ℕ) : IntegrationConnection where
  id := i
  propertyId := none
  capabilities := [.reservationsImport]
  isEnabled := true
  status := .connected
  secretReference := some "vault://channel"
  revokedAt := none

def granted (i : ℕ) : IntegrationConnectionCapability where
  id := i
  connectionId := 0
  capability := .reservationsImport
  direction := .inbound
  state := .enabled

def untouched (i : ℕ) : IntegrationSyncCursor where
  id := i
  connectionId := 0
  propertyId := none
  capability := .reservationsImport
  direction := .inbound
  checkpoint := none
  version := 0
  committedAt := none

def importing (i : ℕ) : IntegrationSyncRun where
  id := i
  connectionId := 0
  propertyId := none
  capability := .reservationsImport
  direction := .inbound
  trigger := .manual
  status := .queued
  pendingCheckpoint := none
  pendingHasMore := false
  pageInProgress := false
  pageNumber := 0
  attempt := 0
  claimToken := none
  claimedAt := none
  leaseExpiresAt := none
  startedAt := none
  finishedAt := none
  lastError := none

def opening : World where
  db := {
    clock := 0
    connections := (Table.empty : Table IntegrationConnection).insert channel
    capabilities := (Table.empty : Table IntegrationConnectionCapability).insert granted
    cursors := (Table.empty : Table IntegrationSyncCursor).insert untouched
    runs := (Table.empty : Table IntegrationSyncRun).insert importing }
  outside := {}

def digest : String := String.ofList (List.replicate 64 'a')

def sheetOf (checkpoint : String) (more : Bool) (keys : List String) : IntegrationPage where
  items := keys.map fun key => { externalKey := some key, checksum := some digest }
  nextCheckpoint := some checkpoint
  hasMore := more

-- A first job claims the run, fetches a page and stores it.
def firstPage (page : IntegrationPage) (keys : List String) : List Action :=
  let claimed := IntegrationRunService.claimedRun 0 0 (importing 0)
  [.executePage 0, .fetch claimed page,
    .storePage claimed 0 page (keys.map fun key => ⟨key, digest⟩)]

end Opening
end Integrations
