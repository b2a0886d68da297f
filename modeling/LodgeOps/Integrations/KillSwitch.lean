import LodgeOps.Integrations.Deliveries
import LodgeOps.Store.Persistence

namespace KillSwitch
open Schema Transaction Integrations Table
open IntegrationRunService IntegrationConnectionService

section Switch

def isOff (k : Kernel) (c : ℕ) : Bool := (k.connections.find? c).any IntegrationConnection.off

def isOn (k : Kernel) (c : ℕ) : Bool := (k.connections.find? c).any fun c => !c.off

def runIsOn (k : Kernel) (i : ℕ) : Bool := (k.runs.find? i).any fun r => isOn k r.connectionId

inductive Row
  | run (i : ℕ) | item (i : ℕ) | event (i : ℕ)
deriving DecidableEq

def Row.blocked (k : Kernel) : Row → Bool
  | run i => (k.runs.find? i).any fun r => r.status == .blocked
  | item i => (k.items.find? i).any fun x => x.status == .blocked
  | event i => (k.events.find? i).any fun e => e.disposition == .blocked

-- The operator's resume of a run frees it and its items, a replay the item or the event replayed.
def frees (k : Kernel) : Action → Row → Bool
  | .resume runId _ _ _, .run i => runId == i
  | .resume runId _ _ _, .item i => (k.items.find? i).any fun x => x.runId == runId
  | .replay letterId _ _, .item i => (k.letters.find? letterId).any fun l => l.itemId == some i
  | .replayEvent eventId _ _, .event i => eventId == i
  | _, _ => false

-- The row a step writes without looking at the mark it carries.
def overwritten (k : Kernel) : Action → Option Row
  | .executePage runId => if runIsOn k runId then some (.run runId) else none
  | .fail stage _ _ => match stage.job with
    | .page claimed => some (.run claimed.id)
    | .item itemId => some (.item itemId)
    | .none => none
  | .deadLetter itemId _ _ => some (.item itemId)
  | .failEvent eventId _ => some (.event eventId)
  | .deadLetterEvent eventId _ => some (.event eventId)
  | _ => none

def Careful (a : Action) (k : Kernel) : Prop := ∀ row ∈ overwritten k a, row.blocked k = false

instance (a : Action) (k : Kernel) : Decidable (Careful a k) :=
  inferInstanceAs (Decidable (∀ row ∈ _, _))

end Switch
section Tables

structure RunsKept (loose : Row → Bool) (t t' : Table IntegrationSyncRun) : Prop where
  owned : ∀ c, Reflects (fun r => r.connectionId = c) t t'
  blocked : ∀ i, loose (.run i) = false → Persists (Marked i fun r => r.status = .blocked) t t'

structure ItemsKept (k : Kernel) (loose : Row → Bool) (t t' : Table IntegrationSyncRunItem) :
    Prop where
  succeeded : ∀ n, runIsOn k n = false →
    Reflects (fun x => x.status = .succeeded ∧ x.runId = n) t t'
  blocked : ∀ i, loose (.item i) = false → Persists (Marked i fun x => x.status = .blocked) t t'

structure EventsKept (k : Kernel) (loose : Row → Bool) (t t' : Table IntegrationEvent) : Prop where
  processed : ∀ c, isOn k c = false →
    Reflects (fun e => e.disposition = .processed ∧ e.connectionId = c) t t'
  blocked : ∀ i, loose (.event i) = false →
    Persists (Marked i fun e => e.disposition = .blocked) t t'

structure CursorsKept (k : Kernel) (t t' : Table IntegrationSyncCursor) : Prop where
  standing : ∀ c, isOn k c.connectionId = false → Persists (fun d => d = c) t t'

structure Kept (loose : Row → Bool) (k k' : Kernel) : Prop where
  runs : RunsKept loose k.runs k'.runs
  items : ItemsKept k loose k.items k'.items
  events : EventsKept k loose k.events k'.events
  cursors : CursorsKept k k.cursors k'.cursors

variable {k : Kernel} {loose : Row → Bool} {j : ℕ}

theorem RunsKept.refl {t : Table IntegrationSyncRun} : RunsKept loose t t :=
  ⟨fun _ => .refl, fun _ _ => .refl⟩

theorem ItemsKept.refl {t : Table IntegrationSyncRunItem} : ItemsKept k loose t t :=
  ⟨fun _ _ => .refl, fun _ _ => .refl⟩

theorem EventsKept.refl {t : Table IntegrationEvent} : EventsKept k loose t t :=
  ⟨fun _ _ => .refl, fun _ _ => .refl⟩

theorem CursorsKept.refl {t : Table IntegrationSyncCursor} : CursorsKept k t t :=
  ⟨fun _ _ => .refl⟩

section Runs
variable {t : Table IntegrationSyncRun} {f : IntegrationSyncRun → IntegrationSyncRun}
variable {p : IntegrationSyncRun → Bool}

theorem runsKept_updateWhere (hc : ∀ r, (f r).connectionId = r.connectionId)
    (hb : ∀ r, p r = true → r.status = .blocked → (f r).status = .blocked)
    (hf : Keeps f := by first | assumption | (intro r; rfl)) :
    RunsKept loose t (t.updateWhere p f hf) where
  owned c := reflects_updateWhere (fun r _ h => (hc r) ▸ h) hf
  blocked _ _ := marked_updateWhere hb hf

theorem runsKept_update (hc : ∀ r, (f r).connectionId = r.connectionId)
    (hb : loose (.run j) = false → ∀ r, t.find? j = some r → r.status = .blocked →
      (f r).status = .blocked)
    (hf : Keeps f := by first | assumption | (intro r; rfl)) :
    RunsKept loose t (t.update j f hf) where
  owned c := reflects_update (fun r _ h => (hc r) ▸ h) hf
  blocked n hi := marked_update (fun r hr hj h => hb (by rw [← hj]; exact hi) r hr h) hf

end Runs
section Items
variable {t : Table IntegrationSyncRunItem} {f : IntegrationSyncRunItem → IntegrationSyncRunItem}
variable {p : IntegrationSyncRunItem → Bool}

theorem itemsKept_updateWhere (hs : ∀ x, (f x).status ≠ .succeeded)
    (hb : ∀ i, loose (.item i) = false → ∀ x, x.id = i → p x = true → x.status = .blocked →
      (f x).status = .blocked)
    (hf : Keeps f := by first | assumption | (intro r; rfl)) :
    ItemsKept k loose t (t.updateWhere p f hf) where
  succeeded n _ := reflects_updateWhere (fun x _ h => absurd h.1 (hs x)) hf
  blocked i hi := persists_updateWhere (fun x hp h =>
    ⟨(hf x).trans h.1, hb i hi x h.1 hp h.2⟩) hf

theorem itemsKept_update
    (hs : ∀ x, t.find? j = some x → (f x).status = .succeeded → runIsOn k x.runId = true)
    (hr : ∀ x, (f x).runId = x.runId)
    (hb : loose (.item j) = false → ∀ x, t.find? j = some x → x.status = .blocked →
      (f x).status = .blocked)
    (hf : Keeps f := by first | assumption | (intro r; rfl)) :
    ItemsKept k loose t (t.update j f hf) where
  succeeded n hn := by
    refine reflects_update (fun x hx h => ?_) hf
    have hon := hs x hx h.1
    rw [← hr x, h.2, hn] at hon
    cases hon
  blocked n hi := marked_update (fun x hx hj h => hb (by rw [← hj]; exact hi) x hx h) hf

theorem itemsKept_grown {t' : Table IntegrationSyncRunItem} {r : IntegrationSyncRun} {n : ℕ}
    (h : Grown r n t t') : ItemsKept k loose t t' where
  succeeded m _ i x hx hs := by
    obtain ⟨hm, hi⟩ := find?_eq_some.mp hx
    rcases h.added x hm with hm | ⟨hp, _⟩
    · exact ⟨x, find?_eq_some.mpr ⟨hm, hi⟩, hs⟩
    · exact absurd (hp.symm.trans hs.1) (by decide)
  blocked _ _ i x hx hb := ⟨x, h.kept i x hx, hb⟩

end Items
section Events
variable {t : Table IntegrationEvent} {f : IntegrationEvent → IntegrationEvent}
variable {p : IntegrationEvent → Bool}

theorem eventsKept_updateWhere (hs : ∀ e, (f e).disposition ≠ .processed)
    (hb : ∀ e, (f e).disposition = .blocked)
    (hf : Keeps f := by first | assumption | (intro r; rfl)) :
    EventsKept k loose t (t.updateWhere p f hf) where
  processed c _ := reflects_updateWhere (fun e _ h => absurd h.1 (hs e)) hf
  blocked _ _ := marked_updateWhere (fun e _ _ => hb e) hf

theorem eventsKept_update
    (hs : ∀ e, t.find? j = some e → (f e).disposition = .processed → isOn k e.connectionId = true)
    (hc : ∀ e, (f e).connectionId = e.connectionId)
    (hb : loose (.event j) = false → ∀ e, t.find? j = some e → e.disposition = .blocked →
      (f e).disposition = .blocked)
    (hf : Keeps f := by first | assumption | (intro r; rfl)) :
    EventsKept k loose t (t.update j f hf) where
  processed c hoff := by
    refine reflects_update (fun e he h => ?_) hf
    have hon := hs e he h.1
    rw [← hc e, h.2, hoff] at hon
    cases hon
  blocked n hi := marked_update (fun e he hj h => hb (by rw [← hj]; exact hi) e he h) hf

end Events
end Tables
section Steps
variable {k k' : Kernel} {a : Action} {turn : ℕ} {next : Option Stage}

-- The rows a step may take the mark from: those it frees and those it overwrites.
def loosens (k : Kernel) (a : Action) (row : Row) : Bool :=
  frees k a row || overwritten k a == some row

theorem kept_same {loose : Row → Bool} (hr : k'.runs = k.runs) (hi : k'.items = k.items)
    (he : k'.events = k.events) (hc : k'.cursors = k.cursors) : Kept loose k k' :=
  ⟨hr ▸ .refl, hi ▸ .refl, he ▸ .refl, hc ▸ .refl⟩

theorem kept_halts {i : ℕ} {m n : String} {loose : Row → Bool} (h : Halts k k' i m n) :
    Kept loose k k' := by
  refine ⟨?_, ?_, ?_, h.cursors ▸ .refl⟩
  · rw [h.runs]
    exact runsKept_updateWhere (f := haltedRun m) (fun _ => rfl) fun _ _ _ => rfl
  · rw [h.items]
    exact itemsKept_updateWhere (f := haltedItem m) (fun _ h => by cases h) fun _ _ _ _ _ _ => rfl
  · rw [h.events]
    exact eventsKept_updateWhere (f := haltedEvent n k.clock) (fun _ h => by cases h) fun _ => rfl

theorem kept_run {i : ℕ} (f : IntegrationSyncRun → IntegrationSyncRun) (hf : Keeps f)
    {loose : Row → Bool} (hk : k'.runs = k.runs.update i f hf) (hi : k'.items = k.items)
    (he : k'.events = k.events) (hcur : k'.cursors = k.cursors)
    (hc : ∀ r, (f r).connectionId = r.connectionId)
    (hb : loose (.run i) = false → ∀ r, k.runs.find? i = some r → r.status = .blocked →
      (f r).status = .blocked) : Kept loose k k' :=
  ⟨hk ▸ runsKept_update hc hb hf, hi ▸ .refl, he ▸ .refl, hcur ▸ .refl⟩

theorem kept_item {i : ℕ} (f : IntegrationSyncRunItem → IntegrationSyncRunItem) (hf : Keeps f)
    {loose : Row → Bool} (hr : k'.runs = k.runs) (hk : k'.items = k.items.update i f hf)
    (he : k'.events = k.events) (hcur : k'.cursors = k.cursors)
    (hs : ∀ x, k.items.find? i = some x → (f x).status = .succeeded → runIsOn k x.runId = true)
    (hn : ∀ x, (f x).runId = x.runId)
    (hb : loose (.item i) = false → ∀ x, k.items.find? i = some x → x.status = .blocked →
      (f x).status = .blocked) : Kept loose k k' :=
  ⟨hr ▸ .refl, hk ▸ itemsKept_update hs hn hb hf, he ▸ .refl, hcur ▸ .refl⟩

theorem kept_event {i : ℕ} (f : IntegrationEvent → IntegrationEvent) (hf : Keeps f)
    {loose : Row → Bool} (hr : k'.runs = k.runs) (hi : k'.items = k.items)
    (hk : k'.events = k.events.update i f hf) (hcur : k'.cursors = k.cursors)
    (hs : ∀ e, k.events.find? i = some e → (f e).disposition = .processed →
      isOn k e.connectionId = true)
    (hn : ∀ e, (f e).connectionId = e.connectionId)
    (hb : loose (.event i) = false → ∀ e, k.events.find? i = some e → e.disposition = .blocked →
      (f e).disposition = .blocked) : Kept loose k k' :=
  ⟨hr ▸ .refl, hi ▸ .refl, hk ▸ eventsKept_update hs hn hb hf, hcur ▸ .refl⟩

section Operations
variable {loose : Row → Bool} {i : ℕ}

theorem kept_claims {o : Option IntegrationSyncRun} (h : Claims i k o k')
    (hl : runIsOn k i = true → loose (.run i) = true) : Kept loose k k' := by
  cases h with
  | refused => exact kept_same rfl rfl rfl rfl
  | blocked =>
    exact kept_run (blockedRun _) (fun _ => rfl) rfl rfl rfl rfl (fun _ => rfl)
      fun _ _ _ _ => rfl
  | claimed run connection on =>
    refine kept_run (claimedRun _ _) (fun _ => rfl) rfl rfl rfl rfl (fun _ => rfl) fun hi => ?_
    have hon : runIsOn k i = true := by simp [runIsOn, isOn, run, connection, on]
    rw [hl hon] at hi
    cases hi

theorem kept_stores {page : IntegrationPage} {o : Option (List ℕ)} (h : Stores i page k o k') :
    Kept loose k k' := by
  cases h with
  | fenced =>
    exact kept_run (fencedRun _) (fun _ => rfl) rfl rfl rfl rfl (fun _ => rfl)
      fun _ _ _ _ => rfl
  | kept run connection on open' grown =>
    have hr : RunsKept loose k.runs (k.runs.update i (withPage page)) :=
      runsKept_update (f := withPage page) (fun _ => rfl) fun _ _ _ hb => hb
    exact ⟨hr, itemsKept_grown grown, .refl, .refl⟩

theorem kept_starts {o : Option IntegrationSyncRunItem} (h : Starts i k o k') :
    Kept loose k k' := by
  cases h with
  | refused => exact kept_same rfl rfl rfl rfl
  | blocked =>
    exact kept_run (blockedRun _) (fun _ => rfl) rfl rfl rfl rfl (fun _ => rfl)
      fun _ _ _ _ => rfl
  | started item waiting =>
    refine kept_item (claimedItem _) (fun _ => rfl) rfl rfl rfl rfl (fun _ _ h => by cases h)
      (fun _ => rfl) fun _ y hy hb => ?_
    obtain rfl := Option.some.inj (item.symm.trans hy)
    rcases waiting with h | h <;> exact absurd (h.symm.trans hb) (by decide)

theorem kept_completes {localKey : Option String} (h : Completes i localKey k k') :
    Kept loose k k' := by
  cases h with
  | @fenced x =>
    have hr : RunsKept loose k.runs
        (k.runs.update x.runId (blockedRun "Connection disabled after item claim.")) :=
      runsKept_update (f := blockedRun _) (fun _ => rfl) fun _ _ _ _ => rfl
    have hi : ItemsKept k loose k.items
        (k.items.update i (haltedItem "Connection disabled after item claim.")) :=
      itemsKept_update (f := haltedItem _) (fun _ _ h => by cases h) (fun _ => rfl) fun _ _ _ _ => rfl
    exact ⟨hr, hi, .refl, .refl⟩
  | finished item run connection on open' =>
    refine kept_item (succeededItem _ _) (fun _ => rfl) rfl rfl rfl rfl (fun y hy _ => ?_)
      (fun _ => rfl) fun _ y hy hb => ?_
    · obtain rfl := Option.some.inj (item.symm.trans hy)
      simp [runIsOn, isOn, run, connection, on]
    · obtain rfl := Option.some.inj (item.symm.trans hy)
      exact absurd hb open'

theorem kept_resumes (h : Resumes i k k') (hr : loose (.run i) = true)
    (hi : ∀ j, loose (.item j) = false → ∀ x, k.items.find? j = some x → x.runId ≠ i) :
    Kept loose k k' := by
  cases h with
  | repeated => exact kept_same rfl rfl rfl rfl
  | resumed run blocked =>
    have hrun : RunsKept loose k.runs (k.runs.update i resumedRun) := by
      refine runsKept_update (f := resumedRun) (fun _ => rfl) fun hl => ?_
      rw [hr] at hl
      cases hl
    refine ⟨hrun, ⟨fun n _ => ?_, fun j hj => ?_⟩, .refl, .refl⟩
    · exact reflects_updateWhere fun x _ h => by cases h.1
    · intro m x hx hm
      have hmj : m = j := (find?_eq_some.mp hx).2.symm.trans hm.1
      have hne := hi j hj x (hmj ▸ hx)
      refine ⟨x, ?_, hm⟩
      rw [find?_updateWhere, hx]
      simp [hne]

theorem kept_finalizes (h : Finalizes i k k') : Kept loose k k' := by
  cases h with
  | fenced =>
    have hr : RunsKept loose k.runs
        (k.runs.update i (fencedRun "Connection disabled before cursor commit.")) :=
      runsKept_update (f := fencedRun _) (fun _ => rfl) fun _ _ _ _ => rfl
    refine ⟨hr, ?_, .refl, .refl⟩
    exact itemsKept_updateWhere (f := haltedItem _) (fun _ h => by cases h) fun _ _ _ _ _ _ => rfl
  | waiting => exact kept_same rfl rfl rfl rfl
  | @committed r c cursor run connection on open' finished serving =>
    have hr : RunsKept loose k.runs (k.runs.update i (finishedRun k.clock)) := by
      refine runsKept_update (f := finishedRun k.clock) (fun _ => rfl) fun _ s hs hb => ?_
      obtain rfl := Option.some.inj (run.symm.trans hs)
      exact absurd hb open'
    refine ⟨hr, .refl, .refl, ⟨fun d hd => persists_update fun e he hde => ?_⟩⟩
    obtain ⟨hmem, hserves⟩ := first?_some serving
    obtain ⟨he, hid⟩ := find?_eq_some.mp he
    obtain rfl := eq_of_id he hmem hid
    have hown : e.connectionId = r.connectionId := by
      simp only [serves, Bool.and_eq_true, beq_iff_eq] at hserves
      exact hserves.1.1.1
    rw [← hde, hown] at hd
    simp [isOn, connection, on] at hd

theorem kept_takes {taken : Bool} (h : IntegrationEventService.Takes i k taken k') :
    Kept loose k k' := by
  cases h with
  | refused => exact kept_same rfl rfl rfl rfl
  | blocked =>
    exact kept_event (IntegrationEventService.blockedEvent _ _) (fun _ => rfl)
      rfl rfl rfl rfl (fun _ _ h => by cases h) (fun _ => rfl) fun _ _ _ _ => rfl
  | claimed event due =>
    refine kept_event (IntegrationEventService.claimedEvent _) (fun _ => rfl)
      rfl rfl rfl rfl (fun _ _ h => by cases h) (fun _ => rfl) fun _ y hy hb => ?_
    obtain rfl := Option.some.inj (event.symm.trans hy)
    rcases due with h | h <;> exact absurd (h.symm.trans hb) (by decide)

theorem kept_consumes (h : IntegrationEventService.Consumes i k k') : Kept loose k k' := by
  cases h with
  | fenced =>
    exact kept_event (IntegrationEventService.blockedEvent _ _) (fun _ => rfl)
      rfl rfl rfl rfl (fun _ _ h => by cases h) (fun _ => rfl) fun _ _ _ _ => rfl
  | settled event connection on open' =>
    refine kept_event (IntegrationEventService.processedEvent _) (fun _ => rfl)
      rfl rfl rfl rfl (fun y hy _ => ?_) (fun _ => rfl) fun _ y hy hb => ?_
    · obtain rfl := Option.some.inj (event.symm.trans hy)
      simp [isOn, connection, on]
    · obtain rfl := Option.some.inj (event.symm.trans hy)
      exact absurd hb open'

theorem kept_recovers (h : IntegrationEventService.Recovers i k k') : Kept loose k k' := by
  cases h with
  | fresh => exact kept_same rfl rfl rfl rfl
  | recovered event claimed =>
    refine kept_event (IntegrationEventService.retryableEvent _ _) (fun _ => rfl)
      rfl rfl rfl rfl (fun _ _ h => by cases h) (fun _ => rfl) fun _ y hy hb => ?_
    obtain rfl := Option.some.inj (event.symm.trans hy)
    exact absurd (claimed.symm.trans hb) (by decide)

end Operations

theorem loosens_of_overwritten {row : Row} (h : overwritten k a = some row) :
    loosens k a row = true := by simp [loosens, h]

theorem loosens_of_frees {row : Row} (h : frees k a row = true) : loosens k a row = true := by
  simp [loosens, h]

theorem kept_giveUp {stage : Stage} {retryAfter : Option ℤ} {error : String}
    (h : Commits (giveUp stage.job retryAfter error) k next k') :
    Kept (loosens k (.fail stage retryAfter error)) k k' := by
  cases hj : stage.job with
  | page claimed =>
    rw [hj, giveUp, commits_quietly] at h
    obtain ⟨f, hf, rfl⟩ := drops_failPage h.2
    refine kept_run f hf.keeps rfl rfl rfl rfl hf.connection fun hl => ?_
    rw [loosens_of_overwritten (by simp [overwritten, hj])] at hl
    cases hl
  | item i =>
    rw [hj, giveUp, commits_quietly] at h
    rw [commits_failItem h.2]
    refine kept_item (i := i) (retryableItem _ _) (fun _ => rfl) rfl rfl rfl rfl
      (fun _ _ h => by cases h) (fun _ => rfl) fun hl => ?_
    rw [loosens_of_overwritten (by simp [overwritten, hj])] at hl
    cases hl
  | none => simp [hj, giveUp] at h

theorem kept_tx (h : Commits (a.tx turn) k next k') : Kept (loosens k a) k k' := by
  cases a with
  | wait =>
    obtain ⟨_, h⟩ := commits_quietly.mp h
    rw [commits_modify] at h
    subst h
    exact kept_same rfl rfl rfl rfl
  | enable =>
    have hs := commits_enable (commits_quietly.mp h).2
    exact kept_same hs.runs hs.items hs.events hs.cursors
  | disable => exact kept_halts (commits_disable (commits_quietly.mp h).2)
  | revoke => exact kept_halts (commits_revoke (commits_quietly.mp h).2)
  | executePage i =>
    simp only [Action.tx, claimPage, commits_bind, commits_pure] at h
    obtain ⟨_, _, h, _, rfl⟩ := h
    refine kept_claims (claims_executePage h) fun hon => loosens_of_overwritten ?_
    simp [overwritten, hon]
  | survey =>
    simp only [Action.tx, surveyPage, commits_bind, commits_get, commits_pure] at h
    obtain ⟨_, _, ⟨rfl, rfl⟩, _, rfl⟩ := h
    exact kept_same rfl rfl rfl rfl
  | release claimed =>
    simp only [Action.tx, releasePage, commits_bind, commits_pure] at h
    obtain ⟨_, _, h, _, rfl⟩ := h
    rw [commits_release h]
    exact kept_run released (fun _ => rfl) rfl rfl rfl rfl (fun _ => rfl) fun _ _ _ hb => hb
  | fetch =>
    simp only [Action.tx, fetchPage, commits_bind, commits_get, commits_orFail, commits_check,
      commits_pure] at h
    obtain ⟨_, _, ⟨rfl, rfl⟩, _, _, ⟨_, rfl⟩, _, _, ⟨_, rfl⟩, _, rfl⟩ := h
    exact kept_same rfl rfl rfl rfl
  | storePage =>
    simp only [Action.tx, keepSheet, commits_bind, commits_pure] at h
    obtain ⟨_, _, h, _, rfl⟩ := h
    exact kept_stores (stores_storePage h)
  | processItem =>
    simp only [Action.tx, startItem, commits_bind, commits_pure] at h
    obtain ⟨_, _, h, _, rfl⟩ := h
    exact kept_starts (starts_processItem h)
  | completeItem =>
    simp only [Action.tx, settleItem, commits_bind, commits_pure] at h
    obtain ⟨_, _, h, _, rfl⟩ := h
    exact kept_completes (completes_completeItem h).1
  | poison =>
    simp only [Action.tx, commits_pure] at h
    obtain ⟨_, rfl⟩ := h
    exact kept_same rfl rfl rfl rfl
  | exhaust =>
    obtain ⟨_, rfl⟩ := commits_whenever h
    exact kept_same rfl rfl rfl rfl
  | deadLetter i =>
    simp only [Action.tx, buryItem, commits_bind, commits_pure] at h
    obtain ⟨_, _, h, _, rfl⟩ := h
    obtain ⟨_, _, _, _, rfl⟩ := IntegrationRunService.commits_deadLetter h
    refine kept_item (i := i) (deadItem _ _) (fun _ => rfl) rfl rfl rfl rfl
      (fun _ _ h => by cases h) (fun _ => rfl) fun hl => ?_
    rw [loosens_of_overwritten (by simp [overwritten])] at hl
    cases hl
  | replay letterId =>
    obtain ⟨l, i, _, _, hl, hi, rfl⟩ :=
      IntegrationRunService.commits_replay (commits_quietly.mp h).2
    refine kept_item (i := i) (replayedItem _) (fun _ => rfl) rfl rfl rfl rfl
      (fun _ _ h => by cases h) (fun _ => rfl) fun hloose => ?_
    rw [loosens_of_frees (by simp [frees, hl, hi])] at hloose
    cases hloose
  | resume i =>
    refine kept_resumes (resumes_resume (commits_quietly.mp h).2)
      (loosens_of_frees (by simp [frees])) fun j hj x hx hxi => ?_
    rw [loosens_of_frees (by simp [frees, hx, hxi])] at hj
    cases hj
  | finalizePage =>
    simp only [Action.tx, closePage, commits_bind, commits_pure] at h
    obtain ⟨_, _, h, _, rfl⟩ := h
    exact kept_finalizes (finalizes_finalizePage h)
  | fail => exact kept_giveUp h
  | abandon =>
    simp only [Action.tx, commits_pure] at h
    obtain ⟨_, rfl⟩ := h
    exact kept_same rfl rfl rfl rfl
  | recoverItems =>
    rw [commits_recoverItems (commits_quietly.mp h).2]
    refine ⟨.refl, ?_, .refl, .refl⟩
    refine itemsKept_updateWhere (f := recovered k.clock) (fun _ h => by cases h) ?_
    intro _ _ x _ hstale hb
    simp [stale, hb] at hstale
  | processEvent =>
    simp only [Action.tx, takeEvent, commits_bind, commits_pure] at h
    obtain ⟨_, _, h, _, rfl⟩ := h
    exact kept_takes (IntegrationEventService.takes_process h)
  | consume =>
    exact kept_consumes (IntegrationEventService.consumes_consumed (commits_quietly.mp h).2)
  | failEvent i =>
    rw [IntegrationEventService.commits_failEvent (commits_quietly.mp h).2]
    refine kept_event (i := i) (IntegrationEventService.retryableEvent _ _) (fun _ => rfl)
      rfl rfl rfl rfl (fun _ _ h => by cases h) (fun _ => rfl) fun hl => ?_
    rw [loosens_of_overwritten (by simp [overwritten])] at hl
    cases hl
  | exhaustEvent =>
    obtain ⟨_, rfl⟩ := commits_whenever h
    exact kept_same rfl rfl rfl rfl
  | deadLetterEvent i =>
    obtain ⟨_, rfl⟩ := IntegrationEventService.commits_deadLetter (commits_quietly.mp h).2
    refine kept_event (i := i) (IntegrationEventService.deadEvent _ _) (fun _ => rfl)
      rfl rfl rfl rfl (fun _ _ h => by cases h) (fun _ => rfl) fun hl => ?_
    rw [loosens_of_overwritten (by simp [overwritten])] at hl
    cases hl
  | replayEvent i =>
    obtain ⟨_, rfl⟩ := IntegrationEventService.commits_replay (commits_quietly.mp h).2
    refine kept_event (i := i) (IntegrationEventService.replayedEvent _) (fun _ => rfl)
      rfl rfl rfl rfl (fun _ _ h => by cases h) (fun _ => rfl) fun hl => ?_
    rw [loosens_of_frees (by simp [frees])] at hl
    cases hl
  | recoverEvent =>
    exact kept_recovers (IntegrationEventService.recovers_recover (commits_quietly.mp h).2)

end Steps
section Runs
variable {k k' k'' : Kernel} {c : ℕ} {row : Row}

def owns (k : Kernel) (c n : ℕ) : Bool := (k.runs.find? n).any fun r => r.connectionId == c

-- Nothing of the connection gets done: no item succeeds, no event is processed, no cursor moves.
structure Quiet (c : ℕ) (k k' : Kernel) : Prop where
  owned : ∀ n, owns k' c n = true → owns k c n = true
  succeeded : ∀ n, owns k' c n = true →
    Reflects (fun x => x.status = .succeeded ∧ x.runId = n) k.items k'.items
  processed : Reflects (fun e => e.disposition = .processed ∧ e.connectionId = c) k.events k'.events
  standing : ∀ d, d.connectionId = c → Persists (fun e => e = d) k.cursors k'.cursors

theorem Quiet.refl : Quiet c k k := ⟨fun _ h => h, fun _ _ => .refl, .refl, fun _ _ => .refl⟩

theorem Quiet.trans (h : Quiet c k k') (h' : Quiet c k' k'') : Quiet c k k'' where
  owned n hn := h.owned n (h'.owned n hn)
  succeeded n hn := (h.succeeded n (h'.owned n hn)).trans (h'.succeeded n hn)
  processed := h.processed.trans h'.processed
  standing d hd := (h.standing d hd).trans (h'.standing d hd)

theorem isOn_of_isOff (h : isOff k c = true) : isOn k c = false := by
  cases hc : k.connections.find? c with
  | none => simp [isOn, hc]
  | some con =>
    simp only [isOff, hc, Option.any_some] at h
    simp [isOn, hc, h]

theorem quiet_of_kept {loose : Row → Bool} (h : Kept loose k k') (hoff : isOff k c = true) :
    Quiet c k k' := by
  have hon := isOn_of_isOff hoff
  have howned : ∀ n, owns k' c n = true → owns k c n = true := by
    intro n hn
    obtain ⟨r', hr', hc'⟩ := (Option.any_eq_true _ _).mp hn
    obtain ⟨r, hr, hc⟩ := h.runs.owned c n r' hr' (by simpa using hc')
    simp [owns, hr, hc]
  refine ⟨howned, fun n hn => h.items.succeeded n ?_, h.events.processed c hon,
    fun d hd => h.cursors.standing d (hd ▸ hon)⟩
  obtain ⟨r, hr, hc⟩ := (Option.any_eq_true _ _).mp (howned n hn)
  rw [beq_iff_eq] at hc
  simp [runIsOn, hr, hc, hon]

theorem blocked_of_kept {loose : Row → Bool} (h : Kept loose k k') (hl : loose row = false)
    (hb : row.blocked k = true) : row.blocked k' = true := by
  cases row with
  | run i =>
    obtain ⟨r, hr, hs⟩ := (Option.any_eq_true _ _).mp hb
    obtain ⟨r', hr', hm⟩ := h.runs.blocked i hl i r hr
      ⟨(find?_eq_some.mp hr).2, by simpa using hs⟩
    simp [Row.blocked, hr', hm.2]
  | item i =>
    obtain ⟨x, hx, hs⟩ := (Option.any_eq_true _ _).mp hb
    obtain ⟨x', hx', hm⟩ := h.items.blocked i hl i x hx
      ⟨(find?_eq_some.mp hx).2, by simpa using hs⟩
    simp [Row.blocked, hx', hm.2]
  | event i =>
    obtain ⟨e, he, hs⟩ := (Option.any_eq_true _ _).mp hb
    obtain ⟨e', he', hm⟩ := h.events.blocked i hl i e he
      ⟨(find?_eq_some.mp he).2, by simpa using hs⟩
    simp [Row.blocked, he', hm.2]

theorem kept_act {i : ℕ} {a : Action} {w w' : World} {u : Unit} (h : Commits (act i a) w u w') :
    Kept (loosens w.db a) w.db w'.db := by
  obtain ⟨_, next, k, hk, rfl⟩ := commits_act h
  have hdb : (arrive next (depart a.source
      (⟨k, w.outside.after i a w.db k, w.workers⟩ : World))).db = k := by
    cases next <;> cases a.source <;> rfl
  rw [hdb]
  exact kept_tx hk

theorem switch_holds (i : ℕ) (w w' : World) :
    (∀ c, Reaches (act i) (fun _ s => isOff s.db c = true) w w' → Quiet c w.db w'.db) ∧
    ∀ row : Row, row.blocked w.db = true →
      Reaches (act i) (fun a s => Careful a s.db ∧ frees s.db a row = false) w w' →
      row.blocked w'.db = true := by
  constructor
  · intro c h
    refine h.invariant (I := fun s => Quiet c w.db s.db) Quiet.refl ?_
    intro a s t hq hoff ht
    exact hq.trans (quiet_of_kept (kept_act ht) hoff)
  · intro row hb h
    refine h.invariant (I := fun s => row.blocked s.db = true) hb ?_
    rintro a s t hs ⟨hcare, hfree⟩ ht
    refine blocked_of_kept (kept_act ht) ?_ hs
    have hne : overwritten s.db a ≠ some row := by
      intro ho
      rw [hcare row ho] at hs
      cases hs
    simp [loosens, hfree, hne]

def interrupted : List Action :=
  firstPage (sheetOf "c1" true ["a", "b"]) ["a", "b"] ++
    [.processItem 0, .disable 0 none "maintenance"]

theorem exists_of_two_runs (allowed : Action → World → Bool) (p q : World → Bool)
    (as bs : List Action) (h : ((Reaches.execute (act 0) (fun _ _ => true) as opening).any
      fun w => p w && (Reaches.execute (act 0) allowed bs w).any q) = true) :
    ∃ w w', Reaches (act 0) (fun _ _ => True) opening w ∧ p w = true ∧
      Reaches (act 0) (fun a s => allowed a s = true) w w' ∧ q w' = true := by
  obtain ⟨w, hw, hp⟩ := Reaches.exists_of_run as h
  simp only [Bool.and_eq_true] at hp
  obtain ⟨w', hw', hq⟩ := Reaches.exists_of_execute (fun _ _ h => h) bs hp.2
  exact ⟨w, w', hw, hp.1, hw', hq⟩

theorem completion_after_disable_stays_blocked : ∃ w w' : World,
    Reaches (act 0) (fun _ _ => True) opening w ∧ Quiet 0 w.db w'.db ∧
      Row.blocked w'.db (.item 0) = true := by
  obtain ⟨w, w', hw, hb, hw', _⟩ := exists_of_two_runs
    (fun a s => isOff s.db 0 && (decide (Careful a s.db) && !frees s.db a (.item 0)))
    (fun w => Row.blocked w.db (.item 0)) (fun _ => true)
    interrupted [.completeItem 0 (some "stay"), .executePage 0] (by decide +kernel)
  refine ⟨w, w', hw, (switch_holds 0 w w').1 0 ?_, (switch_holds 0 w w').2 (.item 0) hb ?_⟩
  · refine hw'.mono fun a s h => ?_
    simp only [Bool.and_eq_true] at h
    exact h.1
  · refine hw'.mono fun a s h => ?_
    simp only [Bool.and_eq_true, decide_eq_true_eq] at h
    exact ⟨h.2.1, by simpa using h.2.2⟩

-- A worker that gives up on an item which the switch has meanwhile blocked puts it back in line.
theorem blocked_rows_come_loose : ¬ ∀ (row : Row) (w w' : World),
    Reaches (act 0) (fun _ _ => True) opening w → row.blocked w.db = true →
    Reaches (act 0) (fun a s => frees s.db a row = false) w w' → row.blocked w'.db = true := by
  intro h
  obtain ⟨w, w', hw, hb, hw', hfree⟩ := exists_of_two_runs
    (fun a s => !frees s.db a (.item 0)) (fun w => Row.blocked w.db (.item 0))
    (fun w => !Row.blocked w.db (.item 0)) interrupted [.fail (.working 0) none "timeout"]
    (by decide +kernel)
  have hstays := h (.item 0) w w' hw hb (by simpa using hw')
  rw [hstays] at hfree
  cases hfree

end Runs
end KillSwitch
