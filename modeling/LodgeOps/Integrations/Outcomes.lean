import LodgeOps.Integrations.Events

namespace IntegrationRunService
open Schema Transaction IntegrationConnectionService

section Claims
variable {i : ℕ} {k k' : Kernel} {r : IntegrationSyncRun} {c : IntegrationConnection}

inductive Claims (i : ℕ) (k : Kernel) : Option IntegrationSyncRun → Kernel → Prop
  | refused : Claims i k none k
  | blocked {r : IntegrationSyncRun} {c : IntegrationConnection} (run : k.runs.find? i = some r)
      (connection : k.connections.find? r.connectionId = some c) (off : c.off = true) :
      Claims i k none { k with
        runs := k.runs.update i (blockedRun "Connection disabled or revoked during run.") }
  | claimed {r : IntegrationSyncRun} {c : IntegrationConnection} (run : k.runs.find? i = some r)
      (connection : k.connections.find? r.connectionId = some c) (on : c.off = false)
      (due : claimable k r = true) :
      Claims i k (some (claimedRun k.tokens k.clock r)) { k with
        runs := k.runs.update i (claimedRun k.tokens k.clock)
        tokens := k.tokens + 1 }

theorem run_id (h : k.runs.find? i = some r) : r.id = i := (Table.find?_eq_some.mp h).2

theorem claims_executePage {o : Option IntegrationSyncRun} (h : Commits (executePage i) k o k') :
    Claims i k o k' := by
  simp only [executePage, saveRun, claimRun, commits_bind, commits_lockedRun,
    commits_lockedConnection, commits_get, commits_ite, commits_modify, commits_set,
    commits_pure] at h
  obtain ⟨r, _, ⟨hr, rfl⟩, _, _, ⟨rfl, rfl⟩, h⟩ := h
  obtain rfl := run_id hr
  rcases h with ⟨_, rfl, rfl⟩ | ⟨hdue, c, _, ⟨hc, rfl⟩, h⟩
  · exact .refused
  · rcases h with ⟨hoff, _, _, rfl, rfl, rfl⟩ | ⟨hon, _, _, ⟨rfl, rfl⟩, _, _, rfl, rfl, rfl⟩
    · exact .blocked hr hc hoff
    · exact .claimed hr hc (by simpa using hon) (by simpa using hdue)

end Claims
section Storage
variable {i n : ℕ} {k k' : Kernel} {r : IntegrationSyncRun} {facts : List Fact}

-- Storing a page keeps every item and adds none but pending ones, of that run and that page.
structure Grown (r : IntegrationSyncRun) (n : ℕ)
    (t t' : Table IntegrationSyncRunItem) : Prop where
  kept : ∀ j x, t.find? j = some x → t'.find? j = some x
  added : ∀ x ∈ t'.rows, x ∈ t.rows ∨ x.status = .pending ∧ x.runId = r.id ∧ x.pageNumber = n

theorem grown_storeFacts {ids : List ℕ} (h : Commits (storeFacts r n facts) k ids k') :
    ∃ items, k' = { k with items := items } ∧ Grown r n k.items items := by
  induction facts generalizing k ids with
  | nil =>
    obtain ⟨_, rfl⟩ : [] = ids ∧ k = k' := by simpa [storeFacts] using h
    exact ⟨k.items, rfl, fun _ _ hx => hx, fun _ hx => Or.inl hx⟩
  | cons f fs ih =>
    simp only [storeFacts, storeFact, commits_bind, commits_reject, commits_pure] at h
    obtain ⟨_, _, ⟨x, s, hx, _, _, ⟨_, rfl⟩, _, rfl⟩, _, _, hrest, _, rfl⟩ := h
    simp only [firstOrCreate, commits_bind, commits_get] at hx
    obtain ⟨_, _, ⟨rfl, rfl⟩, hx⟩ := hx
    cases hfor : itemFor? k r.id f.externalKey with
    | some y =>
      simp only [hfor, commits_pure] at hx
      obtain ⟨_, rfl⟩ := hx
      exact ih hrest
    | none =>
      simp only [hfor, commits_bind, commits_set, commits_pure] at hx
      obtain ⟨_, _, rfl, _, rfl⟩ := hx
      obtain ⟨items, rfl, hg⟩ := ih hrest
      refine ⟨items, rfl, fun j y hy => hg.kept j y (Table.find?_insert_of_some hy), ?_⟩
      intro y hy
      rcases hg.added y hy with hy | hy
      · rcases (Table.mem_insert).mp hy with hy | rfl
        · exact Or.inl hy
        · exact Or.inr ⟨rfl, rfl, rfl⟩
      · exact Or.inr hy

inductive Stores (i : ℕ) (page : IntegrationPage) (k : Kernel) : Option (List ℕ) → Kernel → Prop
  | fenced {r : IntegrationSyncRun} (run : k.runs.find? i = some r) :
      Stores i page k none { k with
        runs := k.runs.update i (fencedRun "Connection disabled after page claim.") }
  | kept {r : IntegrationSyncRun} {c : IntegrationConnection} {ids : List ℕ}
      {items : Table IntegrationSyncRunItem} (run : k.runs.find? i = some r)
      (connection : k.connections.find? r.connectionId = some c) (on : c.off = false)
      (open' : r.status ≠ .blocked) (grown : Grown r (r.pageNumber + 1) k.items items) :
      Stores i page k (some ids) { k with
        runs := k.runs.update i (withPage page)
        items := items }

theorem stores_storePage {page : IntegrationPage} {o : Option (List ℕ)}
    (h : Commits (storePage i page facts) k o k') : Stores i page k o k' := by
  simp only [storePage, keepPage, saveRun, commits_bind, commits_lockedRun,
    commits_lockedConnection, commits_ite, commits_modify, commits_pure, not_or] at h
  obtain ⟨r, _, ⟨hr, rfl⟩, c, _, ⟨hc, rfl⟩, h⟩ := h
  obtain rfl := run_id hr
  rcases h with ⟨_, _, _, rfl, rfl, rfl⟩ | ⟨⟨hon, hopen⟩, ids, s, hfacts, _, _, rfl, rfl, rfl⟩
  · exact .fenced hr
  · obtain ⟨items, rfl, hg⟩ := grown_storeFacts hfacts
    exact .kept hr hc (by simpa using hon) hopen hg

end Storage
section Items
variable {i : ℕ} {k k' : Kernel}

theorem item_id {x : IntegrationSyncRunItem} (h : k.items.find? i = some x) : x.id = i :=
  (Table.find?_eq_some.mp h).2

inductive Starts (i : ℕ) (k : Kernel) : Option IntegrationSyncRunItem → Kernel → Prop
  | refused : Starts i k none k
  | blocked {x : IntegrationSyncRunItem} (item : k.items.find? i = some x) :
      Starts i k none { k with
        runs := k.runs.update x.runId (blockedRun "Connection disabled or revoked during run.") }
  | started {x : IntegrationSyncRunItem} (item : k.items.find? i = some x)
      (waiting : x.status = .pending ∨ x.status = .retryable) :
      Starts i k (some (claimedItem k.clock x)) { k with
        items := k.items.update i (claimedItem k.clock) }

theorem starts_processItem {o : Option IntegrationSyncRunItem}
    (h : Commits (processItem i) k o k') : Starts i k o k' := by
  simp only [processItem, saveItem, saveRun, claimItem, commits_bind, commits_lockedItem,
    commits_lockedRun, commits_lockedConnection, commits_get, commits_ite, commits_modify,
    commits_pure, not_not] at h
  obtain ⟨x, _, ⟨hx, rfl⟩, h⟩ := h
  obtain rfl := item_id hx
  rcases h with ⟨_, rfl, rfl⟩ | ⟨hwait, r, _, ⟨hr, rfl⟩, c, _, ⟨hc, rfl⟩, h⟩
  · exact .refused
  · rcases h with ⟨_, _, _, rfl, rfl, rfl⟩ | ⟨_, _, _, ⟨rfl, rfl⟩, _, _, rfl, rfl, rfl⟩
    · obtain hid := run_id hr
      simpa only [hid] using Starts.blocked hx
    · exact .started hx hwait

inductive Completes (i : ℕ) (localKey : Option String) (k : Kernel) : Kernel → Prop
  | fenced {x : IntegrationSyncRunItem} (item : k.items.find? i = some x) :
      Completes i localKey k { k with
        items := k.items.update i (haltedItem "Connection disabled after item claim.")
        runs := k.runs.update x.runId (blockedRun "Connection disabled after item claim.") }
  | finished {x : IntegrationSyncRunItem} {r : IntegrationSyncRun} {c : IntegrationConnection}
      {letters : Table IntegrationDeadLetter} (item : k.items.find? i = some x)
      (run : k.runs.find? x.runId = some r)
      (connection : k.connections.find? r.connectionId = some c) (on : c.off = false)
      (open' : x.status ≠ .blocked) :
      Completes i localKey k { k with
        items := k.items.update i (succeededItem localKey k.clock)
        letters := letters }

theorem completes_completeItem {localKey : Option String} {r : IntegrationSyncRun}
    (h : Commits (completeItem i localKey) k r k') :
    Completes i localKey k k' ∧ ∃ x, k.items.find? i = some x ∧ k'.runs.find? x.runId = some r := by
  simp only [completeItem, fenceItem, finishItem, saveItem, saveRun, settleLetters, resolveLetters,
    commits_bind, commits_lockedItem, commits_lockedRun, commits_lockedConnection, commits_get,
    commits_ite, commits_modify, commits_pure, not_or] at h
  obtain ⟨x, _, ⟨hx, rfl⟩, run, _, ⟨hr, rfl⟩, c, _, ⟨hc, rfl⟩, h⟩ := h
  have hid := run_id hr
  obtain rfl := item_id hx
  rcases h with ⟨_, _, _, ⟨_, _, rfl, rfl⟩, hfind, rfl⟩ | ⟨⟨hon, _, hopen⟩, _, _, hdone, hfind, rfl⟩
  · rw [hid] at hfind ⊢
    exact ⟨.fenced hx, x, hx, hfind⟩
  · rw [hid] at hfind
    refine ⟨?_, x, hx, hfind⟩
    obtain ⟨_, _, ⟨rfl, rfl⟩, _, _, rfl, hletters⟩ := hdone
    rcases hletters with ⟨_, rfl⟩ | ⟨_, _, rfl⟩
    · exact .finished hx hr hc (by simpa using hon) hopen
    · exact .finished hx hr hc (by simpa using hon) hopen

theorem commits_deadLetter {reasonCode error : String} {r : IntegrationSyncRun}
    (h : Commits (deadLetter i reasonCode error) k r k') :
    ∃ x letters, k.items.find? i = some x ∧ k.runs.find? x.runId = some r ∧ k' = { k with
      items := k.items.update i (deadItem error k.clock)
      letters := letters } := by
  simp only [deadLetter, saveItem, updateOrCreateLetter, commits_bind, commits_lockedItem,
    commits_lockedRun, commits_get, commits_modify, commits_pure] at h
  obtain ⟨x, _, ⟨hx, rfl⟩, run, _, ⟨hr, rfl⟩, _, _, ⟨rfl, rfl⟩, _, _, rfl, _, _, rfl, rfl, rfl⟩ := h
  obtain rfl := item_id hx
  exact ⟨x, _, hx, hr, rfl⟩

theorem commits_failItem {retryAfter : Option ℤ} {error : String} {u : Unit}
    (h : Commits (failItem i retryAfter error) k u k') :
    k' = { k with
      items := k.items.update i (retryableItem error (k.clock + retryAfter.getD 60)) } := by
  simp only [failItem, saveItem, commits_bind, commits_get, commits_modify] at h
  obtain ⟨_, _, ⟨rfl, rfl⟩, rfl⟩ := h
  rfl

end Items
section Operators
variable {i : ℕ} {k k' : Kernel} {actor : Option ℕ} {reason : String} {u : Unit}

theorem commits_replay (h : Commits (replay i actor reason) k u k') :
    ∃ l x letters operations, k.letters.find? i = some l ∧ l.itemId = some x ∧ k' = { k with
      items := k.items.update x (replayedItem k.clock)
      letters := letters
      operations := operations } := by
  simp only [replay, lockedLetter, saveItem, commits_bind, commits_get, commits_orFail,
    commits_lockedRun, commits_reject, commits_modify, Option.bind_eq_some_iff] at h
  obtain ⟨l, _, ⟨_, _, ⟨rfl, rfl⟩, hl, rfl⟩, _, _, ⟨rfl, rfl⟩, x, _, ⟨⟨j, hj, hx⟩, rfl⟩, h⟩ := h
  obtain ⟨_, _, ⟨_, rfl⟩, _, _, ⟨_, rfl⟩, _, _, rfl, _, _, rfl, h⟩ := h
  obtain rfl := item_id hx
  exact ⟨l, x.id, _, _, hl, hj, IntegrationOperationRecorder.commits_record h⟩

inductive Resumes (i : ℕ) (k : Kernel) : Kernel → Prop
  | repeated : Resumes i k k
  | resumed {r : IntegrationSyncRun} {operations : Table IntegrationOperation}
      (run : k.runs.find? i = some r) (blocked : r.status = .blocked) :
      Resumes i k { k with
        items := k.items.updateWhere (fun x => x.runId == i && x.status == .blocked)
          (resumedItem k.clock)
        runs := k.runs.update i resumedRun
        operations := operations }

theorem resumes_resume {key : String} (h : Commits (resume i key actor reason) k u k') :
    Resumes i k k' := by
  simp only [resume, commits_bind, commits_reject, commits_lockedRun, commits_lockedConnection,
    commits_get] at h
  obtain ⟨_, _, ⟨_, rfl⟩, r, _, ⟨hr, rfl⟩, c, _, ⟨_, rfl⟩, _, _, ⟨rfl, rfl⟩, h⟩ := h
  obtain rfl := run_id hr
  cases hop : resumption? k c.id key with
  | some operation =>
    simp only [hop, commits_reject] at h
    obtain ⟨_, rfl⟩ := h
    exact .repeated
  | none =>
    simp only [hop, resumeBlocked, saveRun, commits_bind, commits_reject, commits_check,
      commits_modify, not_not] at h
    obtain ⟨_, _, ⟨hblocked, rfl⟩, _, _, ⟨_, rfl⟩, _, _, rfl, _, _, rfl, h⟩ := h
    rw [IntegrationOperationRecorder.commits_record h]
    exact .resumed hr hblocked

end Operators
section Finalisation
variable {i : ℕ} {k k' : Kernel} {more : Bool}

inductive Finalizes (i : ℕ) (k : Kernel) : Kernel → Prop
  | fenced {r : IntegrationSyncRun} (run : k.runs.find? i = some r) :
      Finalizes i k { k with
        runs := k.runs.update i (fencedRun "Connection disabled before cursor commit.")
        items := k.items.updateWhere (fun x => x.runId == i && active x.status)
          (haltedItem "Connection disabled before cursor commit.") }
  | waiting : Finalizes i k k
  | committed {r : IntegrationSyncRun} {c : IntegrationConnection} {cursor : IntegrationSyncCursor}
      (run : k.runs.find? i = some r) (connection : k.connections.find? r.connectionId = some c)
      (on : c.off = false) (open' : r.status ≠ .blocked) (finished : unfinished k r = false)
      (serving : cursorFor k r = some cursor) :
      Finalizes i k { k with
        cursors := k.cursors.update cursor.id (committedCursor r.pendingCheckpoint k.clock)
        runs := k.runs.update i (finishedRun k.clock) }

theorem finalizes_finalizePage (h : Commits (finalizePage i) k more k') : Finalizes i k k' := by
  simp only [finalizePage, fenceRun, commitPage, saveRun, commits_bind, commits_lockedRun,
    commits_lockedConnection, commits_get, commits_ite, commits_modify, commits_set,
    commits_orFail, commits_pure, not_or] at h
  obtain ⟨r, _, ⟨hr, rfl⟩, c, _, ⟨hc, rfl⟩, _, _, ⟨rfl, rfl⟩, h⟩ := h
  obtain rfl := run_id hr
  rcases h with ⟨_, _, _, ⟨_, _, rfl, rfl⟩, rfl, rfl⟩ | ⟨⟨hon, hopen⟩, h⟩
  · exact .fenced hr
  · rcases h with ⟨_, rfl, rfl⟩ | ⟨hdone, _, _, ⟨rfl, rfl⟩, cursor, _, ⟨hcursor, rfl⟩, _, _, rfl,
      rfl, rfl⟩
    · exact .waiting
    · exact .committed hr hc (by simpa using hon) hopen (by simpa using hdone) hcursor

end Finalisation
section Failures
variable {k k' : Kernel} {claimed : IntegrationSyncRun} {error : String} {u : Unit}

-- A failed page puts its run back in the queue or ends it, whatever became of the run.
structure Drops (f : IntegrationSyncRun → IntegrationSyncRun) : Prop where
  keeps : Keeps f
  connection : ∀ r, (f r).connectionId = r.connectionId
  status : ∀ r, (f r).status = .queued ∨ (f r).status = .failed
  token : ∀ r, (f r).claimToken = none
  number : ∀ r, (f r).pageNumber = r.pageNumber
  inProgress : ∀ r, (f r).pageInProgress = r.pageInProgress
  checkpoint : ∀ r, (f r).pendingCheckpoint = r.pendingCheckpoint
  hasMore : ∀ r, (f r).pendingHasMore = r.pendingHasMore

theorem drops_failPage {rateLimited : Bool} (h : Commits (failPage claimed rateLimited error) k u k') :
    ∃ f, ∃ hf : Drops f, k' = { k with runs := k.runs.update claimed.id f hf.keeps } := by
  simp only [failPage, saveRun, commits_bind, commits_get, commits_ite, commits_modify] at h
  obtain ⟨_, _, ⟨rfl, rfl⟩, ⟨_, rfl⟩ | ⟨_, rfl⟩⟩ := h
  · exact ⟨rateLimitedRun error, ⟨fun _ => rfl, fun _ => rfl, fun _ => Or.inl rfl, fun _ => rfl,
      fun _ => rfl, fun _ => rfl, fun _ => rfl, fun _ => rfl⟩, rfl⟩
  · exact ⟨failedRun error k.clock, ⟨fun _ => rfl, fun _ => rfl, fun _ => Or.inr rfl,
      fun _ => rfl, fun _ => rfl, fun _ => rfl, fun _ => rfl, fun _ => rfl⟩, rfl⟩

theorem commits_release (h : Commits (release claimed) k u k') :
    k' = { k with runs := k.runs.update claimed.id released } := by
  simp only [release, saveRun, commits_modify] at h
  exact h.symm

theorem commits_recoverItems (h : Commits recoverItems k u k') :
    k' = { k with items := k.items.updateWhere (stale k) (recovered k.clock) } := by
  simp only [recoverItems, commits_modify] at h
  exact h.symm

end Failures
end IntegrationRunService

namespace IntegrationEventService
open Schema Transaction IntegrationConnectionService
open IntegrationRunService (resolveLetters)
variable {i : ℕ} {k k' : Kernel} {u : Unit} {error : String}

theorem event_id {e : IntegrationEvent} (h : k.events.find? i = some e) : e.id = i :=
  (Table.find?_eq_some.mp h).2

inductive Takes (i : ℕ) (k : Kernel) : Bool → Kernel → Prop
  | refused : Takes i k false k
  | blocked {m : String} : Takes i k false
      { k with events := k.events.update i (blockedEvent m k.clock) }
  | claimed {e : IntegrationEvent} (event : k.events.find? i = some e)
      (due : e.disposition = .received ∨ e.disposition = .retryable) :
      Takes i k true { k with events := k.events.update i (claimedEvent k.clock) }

theorem takes_process {taken : Bool} (h : Commits (process i) k taken k') : Takes i k taken k' := by
  simp only [process, claimEvent, saveEvent, commits_bind, commits_lockedEvent,
    commits_lockedConnection, commits_get, commits_ite, commits_modify, commits_pure, not_not] at h
  obtain ⟨e, _, ⟨he, rfl⟩, h⟩ := h
  obtain rfl := event_id he
  rcases h with ⟨_, rfl, rfl⟩ | ⟨hdue, c, _, ⟨_, rfl⟩, _, _, ⟨rfl, rfl⟩, h⟩
  · exact .refused
  · rcases h with ⟨_, _, _, rfl, rfl, rfl⟩ | ⟨_, ⟨_, _, _, rfl, rfl, rfl⟩ | ⟨_, _, _, rfl, rfl, rfl⟩⟩
    · exact .blocked
    · exact .blocked
    · exact .claimed he hdue

inductive Consumes (i : ℕ) (k : Kernel) : Kernel → Prop
  | fenced : Consumes i k { k with
      events := k.events.update i (blockedEvent "Connection disabled after event claim." k.clock) }
  | settled {e : IntegrationEvent} {c : IntegrationConnection}
      {letters : Table IntegrationDeadLetter} (event : k.events.find? i = some e)
      (connection : k.connections.find? e.connectionId = some c) (on : c.off = false)
      (open' : e.disposition ≠ .blocked) :
      Consumes i k { k with
        events := k.events.update i (processedEvent k.clock)
        letters := letters }

theorem consumes_consumed (h : Commits (consumed i) k u k') : Consumes i k k' := by
  simp only [consumed, settleEvent, resolveLetters, saveEvent, commits_bind, commits_lockedEvent,
    commits_lockedConnection, commits_ite, commits_modify, not_or] at h
  obtain ⟨e, _, ⟨he, rfl⟩, c, _, ⟨hc, rfl⟩, h⟩ := h
  obtain rfl := event_id he
  rcases h with ⟨_, rfl⟩ | ⟨⟨hon, hopen⟩, _, _, rfl, rfl⟩
  · exact .fenced
  · exact .settled he hc (by simpa using hon) hopen

theorem commits_failEvent (h : Commits (failEvent i error) k u k') :
    k' = { k with events := k.events.update i (retryableEvent error k.clock) } := by
  simp only [failEvent, saveEvent, commits_modify] at h
  exact h.symm

theorem commits_deadLetter (h : Commits (deadLetter i error) k u k') :
    ∃ letters, k' = { k with
      events := k.events.update i (deadEvent error k.clock)
      letters := letters } := by
  simp only [deadLetter, saveEvent, updateOrCreateLetter, commits_bind, commits_lockedEvent,
    commits_modify] at h
  obtain ⟨e, _, ⟨he, rfl⟩, _, _, rfl, rfl⟩ := h
  obtain rfl := event_id he
  exact ⟨_, rfl⟩

theorem commits_replay {actor : Option ℕ} {reason : String}
    (h : Commits (replay i actor reason) k u k') :
    ∃ operations, k' = { k with
      events := k.events.update i (replayedEvent k.clock)
      operations := operations } := by
  simp only [replay, saveEvent, commits_bind, commits_lockedEvent, commits_reject,
    commits_modify] at h
  obtain ⟨e, _, ⟨he, rfl⟩, _, _, ⟨_, rfl⟩, _, _, rfl, h⟩ := h
  obtain rfl := event_id he
  exact ⟨_, IntegrationOperationRecorder.commits_record h⟩

inductive Recovers (i : ℕ) (k : Kernel) : Kernel → Prop
  | fresh : Recovers i k k
  | recovered {e : IntegrationEvent} (event : k.events.find? i = some e)
      (claimed : e.disposition = .processing) : Recovers i k { k with
        events := k.events.update i
          (retryableEvent "Recovered after an expired integration worker lease." k.clock) }

theorem recovers_recover (h : Commits (recover i) k u k') : Recovers i k k' := by
  simp only [recover, saveEvent, commits_bind, commits_get, commits_orFail, commits_ite,
    commits_modify, commits_pure] at h
  obtain ⟨_, _, ⟨rfl, rfl⟩, e, _, ⟨he, rfl⟩, h⟩ := h
  obtain rfl := event_id he
  rcases h with ⟨hstale, rfl⟩ | ⟨_, _, rfl⟩
  · refine .recovered he ?_
    simp only [stale, Bool.and_eq_true, beq_iff_eq] at hstale
    exact hstale.1
  · exact .fresh

end IntegrationEventService
