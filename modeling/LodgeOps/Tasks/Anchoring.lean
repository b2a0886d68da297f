import LodgeOps.Booking.BookedTotals
import LodgeOps.Tasks.Generation

namespace Tasks.Anchoring
open Schema Transaction TaskLifecycleService ChecklistWorkflowService

section Anchors
variable {s s' t : TaskBoard} {task new old : OperationalTask} {e : OperationalTaskEvent}
variable {i : ℕ} {r : Reservation}

-- A task that no call of the staff has touched: at most, the arrival was moved.
def Pristine (s : TaskBoard) (task : OperationalTask) : Prop :=
  task.status = .todo ∧ ∀ e ∈ s.eventsOf task.id, e.type = .rescheduled

def Generated (task : OperationalTask) : Prop :=
  task.programTaskTemplateId.isSome = true ∨ task.checklistTemplateVersionId.isSome = true

-- The minutes from arrival of the template that a task was generated from.
def templateOffset (s : TaskBoard) (reservationId : ℕ) (task : OperationalTask) : Option ℤ :=
  match task.programTaskTemplateId, task.checklistTemplateItemId with
  | some k, _ => (s.programTaskTemplates.find? k).map ProgramTaskTemplate.dueOffsetMinutes
  | none, some k => (s.checklistItems.find? k).map fun item =>
      dueOffset (override? s reservationId item.id) item
  | none, none => (task.reservationChecklistExceptionId.bind s.exceptions.find?).map fun e =>
      e.dueOffsetMinutes.getD 0

def Anchored (s : TaskBoard) (task : OperationalTask) : Prop :=
  ∃ i r offset, task.reservationId = some i ∧ s.db.reservation? i = some r ∧
    templateOffset s i task = some offset ∧ task.dueAt = some (r.startsAt + 60 * offset)

-- `untouched` is what the services ask of a task before they move or supersede it.
def Tended (s : TaskBoard) : Prop :=
  ∀ task ∈ s.tasks.rows, Generated task → Pristine s task →
    untouched task = true ∧ Anchored s task

-- Nothing that an anchor is read off changes.
structure Steady (s s' : TaskBoard) : Prop where
  templates : s'.programTaskTemplates = s.programTaskTemplates
  items : s'.checklistItems = s.checklistItems
  exceptions : s'.exceptions = s.exceptions
  starts : ∀ i r, s.db.reservation? i = some r →
    ∃ r', s'.db.reservation? i = some r' ∧ r'.startsAt = r.startsAt

theorem steady_of_plan (h : s'.plan = s.plan) : Steady s s' where
  templates := (congrArg TaskBoard.programTaskTemplates h :)
  items := (congrArg TaskBoard.checklistItems h :)
  exceptions := (congrArg TaskBoard.exceptions h :)
  starts i r hr := by
    have hdb : s'.db = s.db := (congrArg TaskBoard.db h :)
    exact ⟨r, hdb ▸ hr, rfl⟩

theorem templateOffset_congr (ht : s'.programTaskTemplates = s.programTaskTemplates)
    (hi : s'.checklistItems = s.checklistItems) (he : s'.exceptions = s.exceptions) :
    templateOffset s' i task = templateOffset s i task := by
  simp only [templateOffset, override?, exceptionsOf, ht, hi, he]

theorem Anchored.steady (h : Steady s s') (ha : Anchored s task) : Anchored s' task := by
  obtain ⟨i, r, offset, hi, hr, ho, hd⟩ := ha
  obtain ⟨r', hr', hstart⟩ := h.starts i r hr
  refine ⟨i, r', offset, hi, hr', ?_, hstart ▸ hd⟩
  rw [templateOffset_congr h.templates h.items h.exceptions, ho]

theorem Pristine.of_events (hp : Pristine s' task)
    (h : ∀ e ∈ s.eventsOf task.id, e ∈ s'.eventsOf task.id) : Pristine s task :=
  ⟨hp.1, fun e he => hp.2 e (h e he)⟩

-- Every generated task that is pristine now was there before, and was pristine.
def Kept (s s' : TaskBoard) : Prop :=
  ∀ task ∈ s'.tasks.rows, Generated task → Pristine s' task → task ∈ s.tasks.rows ∧ Pristine s task

theorem Kept.trans (h : Kept s t) (h' : Kept t s') : Kept s s' := fun task hm hg hp =>
  have ⟨hm, hp⟩ := h' task hm hg hp
  h task hm hg hp

theorem Tended.kept (ht : Tended s) (hs : Steady s s') (h : Kept s s') : Tended s' :=
  fun task hm hg hp =>
    have ⟨hm, hp⟩ := h task hm hg hp
    ⟨(ht task hm hg hp).1, (ht task hm hg hp).2.steady hs⟩

theorem kept_edited (h : Edited s s') : Kept s s' := by
  obtain ⟨old, new, e, hr, htype⟩ := h
  intro task hm hg hp
  rcases hr.tasks.mem_cases hr.mem rfl hm with ⟨hm, hne⟩ | rfl
  · refine ⟨hm, hp.of_events fun x hx => ?_⟩
    rw [eventsOf_append hr.events]
    exact List.mem_append_left _ hx
  · have hself : e ∈ s'.eventsOf (savedAs new old).id := by
      have hid : e.operationalTaskId = (savedAs new old).id := hr.taskId
      rw [eventsOf_append hr.events, if_pos hid]
      exact List.mem_append_right _ (List.mem_singleton_self e)
    exact absurd (hp.2 e hself) htype

theorem events_mono {tasks : List OperationalTask} {g : OperationalTask → OperationalTask}
    {type : TaskEventType} (h : Rewrites s s' tasks g type) (he : e ∈ s.eventsOf i) :
    e ∈ s'.eventsOf i := by
  by_cases hi : ∃ x ∈ tasks, x.id = i
  · obtain ⟨x, hx, rfl⟩ := hi
    obtain ⟨_, _, hlog⟩ := h.logged x hx
    rw [hlog]
    exact List.mem_append_left _ he
  · rwa [h.others i fun x hx hid => hi ⟨x, hx, hid⟩]

theorem kept_rewrites {tasks : List OperationalTask} {g : OperationalTask → OperationalTask}
    {type : TaskEventType} (h : Rewrites s s' tasks g type) (htype : type ≠ .rescheduled) :
    Kept s s' := by
  intro task hm hg hp
  rw [h.rows] at hm
  obtain ⟨old, hrow, rfl⟩ := List.mem_map.mp hm
  by_cases hold : old ∈ tasks
  · simp only [if_pos hold] at hp
    obtain ⟨e, he, hlog⟩ := h.logged old hold
    have hself : e ∈ s'.eventsOf (g old).id := by
      rw [h.ids old hold, hlog]
      exact List.mem_append_right _ (List.mem_singleton_self e)
    exact absurd (he.symm.trans (hp.2 e hself)) htype
  · rw [if_neg hold] at hp ⊢
    exact ⟨hrow, hp.of_events fun _ hx => events_mono h hx⟩

theorem kept_begins (h : Begins s s' task e) (hn : ¬ Generated task) : Kept s s' := by
  intro x hm hg hp
  rcases h.tasks.mem.mp hm with hm | rfl
  · refine ⟨hm, hp.of_events fun y hy => ?_⟩
    rw [eventsOf_append h.events]
    exact List.mem_append_left _ hy
  · exact absurd hg hn

theorem tended_creates {news : List OperationalTask} (ht : Tended s) (h : Creates s s' news)
    (hn : ∀ x ∈ news, untouched x = true ∧ Anchored s x) : Tended s' := by
  have hs := steady_of_plan h.plan
  intro task hm hg hp
  have hdone : untouched task = true ∧ Anchored s task := by
    rw [h.rows] at hm
    rcases List.mem_append.mp hm with hm | hm
    · refine ht task hm hg (hp.of_events fun x hx => ?_)
      rw [TaskBoard.eventsOf, h.events]
      exact hx
    · exact hn task hm
  exact ⟨hdone.1, hdone.2.steady hs⟩

end Anchors

section Staff
variable {s : TaskBoard} {actor : Option ℕ} {i : ℕ}

theorem save_spares {task : OperationalTask} : Spares TaskBoard.plan (save task) s :=
  Spares.modify rfl

theorem createEvent_spares {d : EventData} : Spares TaskBoard.plan (createEvent d) s :=
  Spares.modify rfl

theorem lockedTask_spares : Spares TaskBoard.plan (lockedTask i) s :=
  Spares.get_bind Spares.orFail

theorem transition_spares {action : String} {data : TransitionData} :
    Spares TaskBoard.plan (transition i action data actor) s :=
  Spares.bind lockedTask_spares fun _ _ _ => Spares.check_bind fun _ _ =>
    Spares.bind save_spares fun _ _ _ => Spares.bind createEvent_spares fun _ _ _ => Spares.pure

theorem updateDetails_spares {data : DetailsData} :
    Spares TaskBoard.plan (updateDetails i data actor) s :=
  Spares.bind lockedTask_spares fun _ _ _ => Spares.check_bind fun _ _ =>
    Spares.reject_bind fun _ => Spares.bind save_spares fun _ _ _ =>
      Spares.bind createEvent_spares fun _ _ _ => Spares.pure

theorem cancelOpen_spares {reason : String} :
    Spares TaskBoard.plan (cancelOpenForReservation i reason actor) s :=
  Spares.get_bind (Spares.bind (Spares.forM (fun _ _ _ => Spares.bind save_spares fun _ _ _ =>
    createEvent_spares) _) fun _ _ _ => Spares.pure)

theorem rebase_spares {oldStart newStart : ℤ} :
    Spares TaskBoard.plan (rebasePendingForReservation i oldStart newStart actor) s :=
  Spares.ite (fun _ => Spares.pure) fun _ => Spares.get_bind (Spares.bind (Spares.forM
    (fun _ _ _ => Spares.bind save_spares fun _ _ _ => createEvent_spares) _)
      fun _ _ _ => Spares.pure)

theorem assignAtCreation_spares {task : OperationalTask} {assigneeId : Option ℕ} :
    Spares TaskBoard.plan (assignAtCreation task assigneeId actor) s := by
  unfold assignAtCreation
  split
  · exact Spares.pure
  · exact Spares.check_bind fun _ _ => Spares.bind save_spares fun _ _ _ =>
      Spares.bind createEvent_spares fun _ _ _ => Spares.pure

theorem insertTask_spares {mk : ℕ → OperationalTask} {hk : Names mk} :
    Spares TaskBoard.plan (insertTask mk hk) s :=
  Spares.get_bind (Spares.bind (Spares.set rfl) fun _ _ _ => Spares.pure)

theorem create_spares {data : TaskData} {caller : Caller} :
    Spares TaskBoard.plan (create data caller) s :=
  Spares.check_bind fun _ _ => Spares.check_bind fun _ _ => Spares.check_bind fun _ _ =>
    Spares.bind insertTask_spares fun _ _ _ => Spares.bind createEvent_spares fun _ _ _ =>
      assignAtCreation_spares

end Staff

section Steps
variable {s s' t : TaskBoard} {task : OperationalTask} {i v : ℕ} {r : Reservation} {start : ℤ}
variable {actor : Option ℕ} {sheet : Sheet}

theorem steady_same : Steady s s := ⟨rfl, rfl, rfl, fun _ r hr => ⟨r, hr, rfl⟩⟩

-- Another part of the system has written the books, and the arrivals are as they were.
structure KeepsStarts (db db' : Database) : Prop where
  starts : ∀ i r, db.reservation? i = some r →
    ∃ r', db'.reservation? i = some r' ∧ r'.startsAt = r.startsAt

theorem tended_withDb {db : Database} (ht : Tended s) (h : KeepsStarts s.db db) :
    Tended (s.withDb db) :=
  ht.kept ⟨rfl, rfl, rfl, h.starts⟩ fun _ hm _ hp => ⟨hm, hp⟩

theorem keepsStarts_confirm {db db' : Database}
    (h : Commits (ReservationService.confirm i) db () db') : KeepsStarts db db' := by
  obtain ⟨r, _, hp⟩ := ReservationService.commits_confirm h
  refine ⟨fun j r' hr' => ?_⟩
  rcases hp.reservations with ⟨hres, _⟩ | hres
  · exact ⟨r', (Database.reservation?_congr hres j).trans hr', rfl⟩
  · have hfind : db'.reservation? j = if j = r.id then (db.reservation? j).map
        ReservationService.confirmed else db.reservation? j := by
      rw [Database.reservation?, hres]
      exact Table.find?_update
    rw [hfind, hr']
    split_ifs
    · exact ⟨_, rfl, rfl⟩
    · exact ⟨_, rfl, rfl⟩

theorem tended_firstOrCreate {template : ProgramTaskTemplate} (ht : Tended s)
    (hr : s.db.reservation? r.id = some r) (hm : template ∈ s.programTaskTemplates.rows)
    (h : Commits (ReservationConfirmationProvisioner.firstOrCreateTask r template) s () s') :
    Tended s' ∧ s'.plan = s.plan := by
  simp only [ReservationConfirmationProvisioner.firstOrCreateTask, commits_bind, commits_get,
    commits_ite, commits_pure] at h
  obtain ⟨_, _, ⟨rfl, rfl⟩, ⟨_, _, rfl⟩ | ⟨_, h⟩⟩ := h
  · exact ⟨ht, rfl⟩
  · have hcreates := creates_createTask h
    refine ⟨tended_creates ht hcreates fun x hx => ?_, hcreates.plan⟩
    obtain rfl := List.mem_singleton.mp hx
    have hfind : s.programTaskTemplates.find? template.id = some template :=
      Table.find?_eq_some.mpr ⟨hm, rfl⟩
    refine ⟨rfl, r.id, r, template.dueOffsetMinutes, rfl, hr, ?_, rfl⟩
    simp [templateOffset, ReservationConfirmationProvisioner.templateTask, hfind]

theorem mem_taskTemplates {template : ProgramTaskTemplate}
    (h : template ∈ ReservationConfirmationProvisioner.taskTemplates s r) :
    template ∈ s.programTaskTemplates.rows := by
  unfold ReservationConfirmationProvisioner.taskTemplates at h
  split at h
  · simp at h
  · exact (Table.mem_select.mp h).1

theorem tended_confirm (ht : Tended s) (h : Commits (Tasks.confirm i) s () s') : Tended s' := by
  simp only [Tasks.confirm, onDb, ReservationConfirmationProvisioner.tasks, commits_bind,
    commits_zoom, commits_get, commits_orFail] at h
  obtain ⟨_, _, ⟨db, hdb, rfl⟩, _, _, ⟨rfl, rfl⟩, r, _, ⟨hr, rfl⟩, _, _, ⟨rfl, rfl⟩, hloop⟩ := h
  have hrid : r.id = i := Folio.reservation_id_eq hr
  have hstart := tended_withDb ht (keepsStarts_confirm hdb)
  refine (forM_invariant (I := fun u => Tended u ∧ u.plan = (s.withDb db).plan) ?_
    ⟨hstart, rfl⟩ hloop).1
  rintro template hm a b ⟨ha, hplan⟩ hc
  have hadb : a.db = db := (congrArg TaskBoard.db hplan :)
  have htemplates : a.programTaskTemplates = (s.withDb db).programTaskTemplates :=
    (congrArg TaskBoard.programTaskTemplates hplan :)
  obtain ⟨hb, hbp⟩ := tended_firstOrCreate ha (hadb ▸ hrid ▸ hr)
    (htemplates ▸ mem_taskTemplates hm) hc
  exact ⟨hb, hbp.trans hplan⟩

theorem anchored_itemTask {item : ChecklistTemplateItem} {k : ℕ}
    (hr : s.db.reservation? sheet.r.id = some sheet.r) (hm : item ∈ keptItems s sheet) :
    Anchored s (itemTask sheet (override? s sheet.r.id item.id) item k) := by
  have hitem : item ∈ s.checklistItems.rows := by
    have hitems := (List.mem_insertionSort _).mp (List.mem_of_mem_filter hm)
    exact (Table.mem_select.mp hitems).1
  have hfind : s.checklistItems.find? item.id = some item := Table.find?_eq_some.mpr ⟨hitem, rfl⟩
  refine ⟨sheet.r.id, sheet.r, dueOffset (override? s sheet.r.id item.id) item, rfl, hr, ?_, rfl⟩
  simp [templateOffset, itemTask, hfind]

theorem anchored_addedTask {e : ReservationChecklistException} {k : ℕ}
    (hr : s.db.reservation? sheet.r.id = some sheet.r) (hm : e ∈ additions s sheet.r.id) :
    Anchored s (addedTask sheet e k) := by
  have he : e ∈ s.exceptions.rows := (Table.mem_select.mp (List.mem_of_mem_filter hm)).1
  have hfind : s.exceptions.find? e.id = some e := Table.find?_eq_some.mpr ⟨he, rfl⟩
  refine ⟨sheet.r.id, sheet.r, e.dueOffsetMinutes.getD 0, rfl, hr, ?_, rfl⟩
  simp [templateOffset, addedTask, hfind]

theorem tended_generates (ht : Tended s) (h : Generates s s' sheet) : Tended s' := by
  obtain ⟨t, hplan, hrewrites, hcreates⟩ := h.writes
  have hsteady := steady_of_plan hplan
  have hold := ht.kept hsteady (kept_rewrites hrewrites (by decide))
  refine tended_creates hold hcreates fun x hx => ?_
  rcases List.mem_append.mp hx with hx | hx
  · obtain ⟨item, hm, k, _, rfl⟩ := mem_numbered hx
    exact ⟨rfl, (anchored_itemTask h.found hm).steady hsteady⟩
  · obtain ⟨e, hm, k, _, rfl⟩ := mem_numbered hx
    exact ⟨rfl, (anchored_addedTask h.found hm).steady hsteady⟩

theorem preview_startsAt {db : Database} {input : BookingQuoteService.BookingInput}
    {c : BookingQuoteService.Calculation} (h : BookingQuoteService.preview db input = .ok c) :
    input.startsAt = some c.inputs.startsAt := by
  simp only [BookingQuoteService.preview, bind_eq_ok] at h
  obtain ⟨q, hq, _, _, _, _, _, _, _, _, _, _, hc⟩ := h
  simp only [BookingQuoteService.requested, bind_eq_ok, found_eq_ok, refuse_eq_ok] at hq
  obtain ⟨starts, hstarts, _, _, _, _, _, _, _, _, _, _, _, _, hq⟩ := hq
  obtain rfl := Except.ok.inj hq
  obtain rfl := Except.ok.inj hc
  exact hstarts

-- The books after the arrival of one reservation has become `start`.
structure Rearranged (db db' : Database) (i : ℕ) (start : ℤ) : Prop where
  starts : ∀ j r, db.reservation? j = some r → ∃ r', db'.reservation? j = some r' ∧
    r'.startsAt = if j = i then start else r.startsAt

theorem rearranged_handle {db db' : Database} {input : BookingQuoteService.BookingInput}
    {locked : Reservation} (h : Commits (AmendReservation.handle i input actor) db locked db') :
    input.startsAt = some locked.startsAt ∧ Rearranged db db' i locked.startsAt := by
  obtain ⟨r, q, t, hr, hq, hamend⟩ := AmendReservation.commits_handle h
  obtain ⟨c, hc, hcq, happ, hframe⟩ :=
    BookingQuoteService.commits_create (BookingQuoteService.commits_createAmendment hq)
  obtain ⟨r', q', hrid, hqid, rfl, ha⟩ := AmendReservation.commits_amend hamend
  obtain rfl : q' = q := by
    have hfind : t.quotes.find? q'.id = some q := hqid ▸ happ.find?_new
    exact Option.some.inj (ha.quoted.symm.trans hfind)
  have hstart : input.startsAt = some q'.startsAt := by
    rw [hcq]
    exact (preview_startsAt hc :)
  have hres : t.reservations = db.reservations := by rw [hframe]
  have hri : r'.id = i := hrid.trans (Folio.reservation_id_eq hr)
  refine ⟨hstart, ⟨fun j s hs => ?_⟩⟩
  have hfind : db'.reservation? j = if j = r'.id then (db.reservation? j).map
      (AmendReservation.amended q') else db.reservation? j := by
    rw [Database.reservation?, ha.reservations, hres]
    exact Table.find?_update
  rw [hfind, hs, hri]
  split_ifs
  · exact ⟨_, rfl, rfl⟩
  · exact ⟨_, rfl, rfl⟩

-- An amendment of the arrival finds tasks of the program that the staff have not touched.
def MovesProgramTasks (s : TaskBoard) (i : ℕ) (input : BookingQuoteService.BookingInput) : Prop :=
  ∃ r start, s.db.reservation? i = some r ∧ input.startsAt = some start ∧ start ≠ r.startsAt ∧
    ∃ task ∈ s.tasks.rows, task.reservationId = some i ∧
      task.programTaskTemplateId.isSome = true ∧ Pristine s task

theorem tended_rescheduled {db : Database} (ht : Tended s) (hr : s.db.reservation? i = some r)
    (hstart : Rearranged s.db db i start) (hplan : s'.plan = (s.withDb db).plan)
    (h : Rewrites (s.withDb db) s' (s.tasks.select (pendingChecklist i))
      (rescheduledBy (start - r.startsAt)) .rescheduled)
    (hn : start ≠ r.startsAt → ∀ task ∈ s.tasks.rows, task.reservationId = some i →
      task.programTaskTemplateId.isSome = true → ¬ Pristine s task) : Tended s' := by
  have hdb : s'.db = db := (congrArg TaskBoard.db hplan :)
  have hoffset : ∀ j task, templateOffset s' j task = templateOffset s j task := fun j task =>
    templateOffset_congr (congrArg TaskBoard.programTaskTemplates hplan :)
      (congrArg TaskBoard.checklistItems hplan :) (congrArg TaskBoard.exceptions hplan :)
  intro task hm hg hp
  rw [h.rows] at hm
  obtain ⟨old, hrow, rfl⟩ := List.mem_map.mp hm
  by_cases hold : old ∈ s.tasks.select (pendingChecklist i)
  · -- a checklist task of this reservation moves along with the arrival
    rw [if_pos hold] at hg hp ⊢
    have hpold : Pristine s old := ⟨hp.1, fun e he => hp.2 e (events_mono h he)⟩
    obtain ⟨hu, j, r', offset, hj, hr', ho, hd⟩ := ht old hrow hg hpold
    have hpending := (Table.mem_select.mp hold).2
    simp only [pendingChecklist, Bool.and_eq_true, beq_iff_eq] at hpending
    obtain rfl : j = i := Option.some.inj (hj.symm.trans hpending.1.1)
    obtain rfl := Option.some.inj (hr.symm.trans hr')
    obtain ⟨r'', hr'', hs⟩ := hstart.starts j r hr
    refine ⟨hu, j, r'', offset, hj, hdb ▸ hr'', (hoffset j _).trans ho, ?_⟩
    rw [hs, if_pos rfl]
    simp only [rescheduledBy, bumped, hd, Option.map_some, Option.some.injEq]
    ring
  · rw [if_neg hold] at hg hp ⊢
    have hpold : Pristine s old := ⟨hp.1, fun e he => hp.2 e (events_mono h he)⟩
    obtain ⟨hu, j, r', offset, hj, hr', ho, hd⟩ := ht old hrow hg hpold
    obtain ⟨r'', hr'', hs⟩ := hstart.starts j r' hr'
    refine ⟨hu, j, r'', offset, hj, hdb ▸ hr'', (hoffset j _).trans ho, ?_⟩
    rw [hs, hd]
    split_ifs with hji
    · -- a task of the program is left behind, and may be only where the arrival stays
      subst hji
      obtain rfl := Option.some.inj (hr.symm.trans hr')
      have hprogram : old.programTaskTemplateId.isSome = true := by
        refine hg.resolve_right fun hv => hold (Table.mem_select.mpr ⟨hrow, ?_⟩)
        simp [pendingChecklist, hj, hv, hu]
      by_contra hne
      exact hn (fun he => hne (by rw [he])) old hrow hj hprogram hpold
    · rfl

theorem tended_amend {input : BookingQuoteService.BookingInput} (ht : Tended s)
    (hn : ¬ MovesProgramTasks s i input) (h : Commits (Tasks.amend i input actor) s () s') :
    Tended s' := by
  simp only [Tasks.amend, onDb, commits_bind, commits_zoom, commits_get, commits_orFail,
    commits_pure] at h
  obtain ⟨_, _, ⟨rfl, rfl⟩, r, _, ⟨hr, rfl⟩, locked, _, ⟨db, hdb, rfl⟩, _, t, hrebase, _, rfl⟩ := h
  have hri : r.id = i := Folio.reservation_id_eq hr
  rw [hri] at hrebase
  obtain ⟨hinput, hstart⟩ := rearranged_handle hdb
  have hplan := rebase_spares.eq hrebase
  rcases commits_rebase hrebase with ⟨hsame, rfl⟩ | hrewrites
  · refine tended_withDb ht ⟨fun j r' hr' => ?_⟩
    obtain ⟨r'', hr'', hs⟩ := hstart.starts j r' hr'
    refine ⟨r'', hr'', hs.trans ?_⟩
    split_ifs with hji
    · subst hji
      rw [hsame, Option.some.inj (hr.symm.trans hr')]
    · rfl
  · exact tended_rescheduled ht hr hstart hplan hrewrites fun hne task hm hid hpr hp =>
      hn ⟨r, locked.startsAt, hr, hinput, hne, task, hm, hid, hpr, hp⟩

end Steps

section Runs
variable {s s' t start : TaskBoard} {op : Operation}

inductive Operation
  | confirm (reservationId : ℕ)
  | generate (reservationId versionId : ℕ) (actorId : Option ℕ)
  | amend (reservationId : ℕ) (input : BookingQuoteService.BookingInput) (actorId : Option ℕ)
  | staff (command : Command)
  | elsewhere (write : Database → Database)

def Operation.run : Operation → TaskTx Unit
  | .confirm reservationId => Tasks.confirm reservationId
  | .generate reservationId versionId actorId => do
    let _ ← ChecklistWorkflowService.generate reservationId versionId actorId
  | .amend reservationId input actorId => Tasks.amend reservationId input actorId
  | .staff command => command.run
  | .elsewhere write => modify fun s => s.withDb (write s.db)

def byStaff : Command → Bool
  | .create .. => true
  | .transition .. => true
  | .updateDetails .. => true
  | .cancelOpenForReservation .. => true
  | _ => false

def Operation.Orderly (op : Operation) (s : TaskBoard) : Prop :=
  match op with
  | .staff command => byStaff command = true
  | .elsewhere write => KeepsStarts s.db (write s.db)
  | _ => True

def Operation.Careful (op : Operation) (s : TaskBoard) : Prop :=
  match op with
  | .amend i input _ => ¬ MovesProgramTasks s i input
  | _ => op.Orderly s

theorem tended_staff {c : Command} (ht : Tended s) (hb : byStaff c = true)
    (h : Commits c.run s () s') : Tended s' := by
  cases c with
  | create =>
    simp only [Command.run, commits_bind, commits_pure] at h
    obtain ⟨_, _, h, _, rfl⟩ := h
    obtain ⟨t, e, hbegins, hedited⟩ := commits_create h
    have hcreated : Kept s t := kept_begins hbegins fun hg => by simp [Generated, newTask] at hg
    refine ht.kept (steady_of_plan (create_spares.eq h)) ?_
    rcases hedited with rfl | hedited
    · exact hcreated
    · exact hcreated.trans (kept_edited hedited)
  | transition =>
    simp only [Command.run, commits_bind, commits_pure] at h
    obtain ⟨_, _, h, _, rfl⟩ := h
    obtain ⟨old, new, e, hr, he, _⟩ := commits_transition h
    exact ht.kept (steady_of_plan (transition_spares.eq h)) (kept_edited ⟨old, new, e, hr, he⟩)
  | updateDetails =>
    simp only [Command.run, commits_bind, commits_pure] at h
    obtain ⟨_, _, h, _, rfl⟩ := h
    obtain ⟨old, new, e, hr, he, _⟩ := commits_updateDetails h
    exact ht.kept (steady_of_plan (updateDetails_spares.eq h)) (kept_edited ⟨old, new, e, hr, he⟩)
  | cancelOpenForReservation =>
    simp only [Command.run, commits_bind, commits_pure] at h
    obtain ⟨_, _, h, _, rfl⟩ := h
    exact ht.kept (steady_of_plan (cancelOpen_spares.eq h))
      (kept_rewrites (commits_cancelOpen h) (by decide))
  | _ => cases hb

theorem tended_run (ht : Tended s) (hc : op.Careful s) (h : Commits op.run s () s') : Tended s' := by
  cases op with
  | confirm => exact tended_confirm ht h
  | generate =>
    simp only [Operation.run, commits_bind, commits_pure] at h
    obtain ⟨_, _, h, _, rfl⟩ := h
    obtain ⟨_, _, hg⟩ := commits_generate h
    exact tended_generates ht hg
  | amend => exact tended_amend ht hc h
  | staff => exact tended_staff ht hc h
  | elsewhere =>
    simp only [Operation.run, commits_modify] at h
    exact h ▸ tended_withDb ht hc

-- The tasks of a program are made by the confirmation and never moved by an amendment.
theorem untouched_tasks_stay_anchored (hstart : Opening start)
    (h : Reaches Operation.run Operation.Careful start s) :
    ∀ task ∈ s.tasks.rows, Generated task → Pristine s task → Anchored s task := by
  have hopening : Tended start := fun task hm => by simp [hstart.tasks] at hm
  have htended : Tended s := h.invariant hopening fun _ _ _ ht hc h => tended_run ht hc h
  exact fun task hm hg hp => (htended task hm hg hp).2

end Runs

section Scenario
open BookedTotals (season nightsFrom)

def hike (i : ℕ) : Program where
  id := i
  propertyId := 0
  isActive := true
  requiresAccommodation := false
  defaultDurationMinutes := none
  capacity := none
  requirements := []

def hikeFrom (day nights : ℤ) : BookingQuoteService.BookingInput :=
  { nightsFrom day nights with programId := some 0 }

def booked (input : BookingQuoteService.BookingInput) : Database :=
  perform (do
    let quote ← BookingQuoteService.create input
    let _ ← CommitBookingQuote.handle quote.id none { firstName := "Ana" } [] none)
    { season with programs := Table.empty.insert hike }

def packLunch (i : ℕ) : ProgramTaskTemplate :=
  { id := i, programId := 0, title := "Pack the lunch", dueOffsetMinutes := -60 }

def arrival (i : ℕ) : ChecklistTemplate := { id := i, propertyId := 0, role := "housekeeping" }

def firstVersion (i : ℕ) : ChecklistTemplateVersion := { id := i, checklistTemplateId := 0 }

def makeBeds (i : ℕ) : ChecklistTemplateItem :=
  { id := i, checklistTemplateVersionId := 0, title := "Make the beds", dueOffsetMinutes := -120 }

def planned (input : BookingQuoteService.BookingInput) : TaskBoard where
  db := booked input
  programTaskTemplates := Table.empty.insert packLunch
  checklistTemplates := Table.empty.insert arrival
  checklistVersions := Table.empty.insert firstVersion
  checklistItems := Table.empty.insert makeBeds

theorem opening_planned {input : BookingQuoteService.BookingInput} : Opening (planned input) :=
  ⟨rfl, rfl⟩

instance (s : TaskBoard) (task : OperationalTask) : Decidable (Pristine s task) :=
  inferInstanceAs (Decidable (_ ∧ ∀ e ∈ s.eventsOf task.id, e.type = .rescheduled))

instance (task : OperationalTask) : Decidable (Generated task) :=
  inferInstanceAs (Decidable (_ ∨ _))

def anchored (s : TaskBoard) (task : OperationalTask) : Bool :=
  task.reservationId.any fun i => (s.db.reservation? i).any fun r =>
    (templateOffset s i task).any fun offset => task.dueAt == some (r.startsAt + 60 * offset)

instance (s : TaskBoard) (task : OperationalTask) : Decidable (Anchored s task) :=
  decidable_of_iff (anchored s task = true)
    (by simp [anchored, Anchored, Option.any_eq_true])

def carefully (op : Operation) (s : TaskBoard) : Bool :=
  match op with
  | .amend .. => s.tasks.rows.all fun task => task.programTaskTemplateId.isNone
  | .staff command => byStaff command
  | .elsewhere _ => false
  | _ => true

theorem careful_of_carefully {op : Operation} {s : TaskBoard} (h : carefully op s = true) :
    op.Careful s := by
  cases op with
  | amend =>
    rintro ⟨_, _, _, _, _, task, hm, _, hp, _⟩
    have hn := List.all_eq_true.mp h task hm
    rw [Option.isNone_iff_eq_none.mp hn] at hp
    cases hp
  | staff => exact h
  | elsewhere => cases h
  | _ => trivial

def routine : Operation → Bool
  | .staff _ => false
  | .elsewhere _ => false
  | _ => true

theorem orderly_of_routine {op : Operation} {s : TaskBoard} (h : routine op = true) :
    op.Orderly s := by
  cases op with
  | staff => cases h
  | elsewhere => cases h
  | _ => trivial

-- The checklist is generated, and its task follows the arrival.
theorem moved_checklist_is_anchored : ∃ s,
    Reaches Operation.run Operation.Careful (planned (nightsFrom 10 1)) s ∧
    (s.tasks.rows.map OperationalTask.dueAt) = [some (20 * 86400 - 7200)] ∧
    ∀ task ∈ s.tasks.rows, Generated task → Pristine s task → Anchored s task := by
  obtain ⟨s, h, hp⟩ : ∃ s, Reaches Operation.run Operation.Careful (planned (nightsFrom 10 1)) s ∧
      decide ((s.tasks.rows.map OperationalTask.dueAt) = [some (20 * 86400 - 7200)]) = true :=
    Reaches.exists_of_execute (fun _ _ => careful_of_carefully)
      [.confirm 0, .generate 0 0 none, .amend 0 (nightsFrom 20 1) none] (by decide +kernel)
  exact ⟨s, h, of_decide_eq_true hp, untouched_tasks_stay_anchored opening_planned h⟩

-- The hike's lunch is still due before the arrival that was given up.
theorem program_task_is_left_behind : Opening (planned (hikeFrom 10 1)) ∧
    ∃ s, Reaches Operation.run Operation.Orderly (planned (hikeFrom 10 1)) s ∧
      ∃ task ∈ s.tasks.rows, Generated task ∧ Pristine s task ∧ ¬ Anchored s task := by
  obtain ⟨s, h, hp⟩ : ∃ s, Reaches Operation.run Operation.Orderly (planned (hikeFrom 10 1)) s ∧
      decide (∃ task ∈ s.tasks.rows, Generated task ∧ Pristine s task ∧ ¬ Anchored s task) = true :=
    Reaches.exists_of_execute (fun _ _ => orderly_of_routine)
      [.confirm 0, .amend 0 (hikeFrom 9 2) none] (by decide +kernel)
  exact ⟨opening_planned, s, h, of_decide_eq_true hp⟩

end Scenario
end Tasks.Anchoring
