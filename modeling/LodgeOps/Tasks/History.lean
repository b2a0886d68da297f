import LodgeOps.Store.Trail
import LodgeOps.Tasks.Lifecycle

namespace Tasks.TaskLifecycleService
open Schema Transaction

section Records
variable {s s' t u : TaskBoard} {old new task : OperationalTask} {e : OperationalTaskEvent}

-- The moves that the lifecycle knows, under the type that each is logged with.
def permits : TaskEventType → TaskStatus → TaskStatus → Bool
  | .created, a, b => a == .todo && b == .todo
  | .assigned, a, b => unfinished.contains a && b == a
  | .started, a, b => [TaskStatus.todo, .blocked].contains a && b == .inProgress
  | .completed, a, b => [TaskStatus.todo, .inProgress, .blocked].contains a && b == .done
  | .failed, a, b => [TaskStatus.todo, .inProgress, .blocked].contains a && b == .failed
  | .reopened, a, b => [TaskStatus.done, .failed, .cancelled].contains a && b == .todo
  | .escalated, a, b => unfinished.contains a && b == .blocked
  | .cancelled, a, b => unfinished.contains a && b == .cancelled
  | .detailsUpdated, a, b => b == a
  | .rescheduled, a, b => a == .todo && b == .todo
  | .superseded, a, b => a == .todo && b == .superseded

def Permitted (e : OperationalTaskEvent) : Prop := permits e.type e.fromStatus e.toStatus = true

-- One task is written under its next revision, and the move is logged.
structure Records (s s' : TaskBoard) (old new : OperationalTask) (e : OperationalTaskEvent) :
    Prop where
  mem : old ∈ s.tasks.rows
  id : new.id = old.id
  tasks : Table.Updates s.tasks s'.tasks old.id (savedAs new)
  events : Table.Appends s.events s'.events e
  taskId : e.operationalTaskId = old.id
  source : e.fromStatus = old.status
  target : e.toStatus = new.status
  permitted : Permitted e
  revision : new.revision = old.revision + 1

def Recorded (s s' : TaskBoard) : Prop := ∃ old new e, Records s s' old new e

def Writes : TaskBoard → TaskBoard → Prop := Relation.ReflTransGen Recorded

-- The revision counts the events, which lead from `todo` to the status of the task.
def Traced (s : TaskBoard) (task : OperationalTask) : Prop :=
  Trail.Audited OperationalTaskEvent.fromStatus OperationalTaskEvent.toStatus Permitted .todo
    (s.eventsOf task.id) task.revision task.status

theorem savedAs_self (h : new.id = old.id) : savedAs new old = new := by
  unfold savedAs
  rw [← h]

theorem eventsOf_append (h : Table.Appends s.events s'.events e) (i : ℕ) :
    s'.eventsOf i = s.eventsOf i ++ if e.operationalTaskId = i then [e] else [] := by
  rw [TaskBoard.eventsOf, Table.select, h.rows, List.filter_append]
  refine congrArg₂ _ rfl ?_
  by_cases hi : e.operationalTaskId = i <;> simp [hi]

namespace Records
variable (h : Records s s' old new e)
include h

theorem mem_new : new ∈ s'.tasks.rows := savedAs_self h.id ▸ h.tasks.mem_self h.mem rfl

theorem mem_other (ht : task ∈ s.tasks.rows) (hne : task.id ≠ old.id) : task ∈ s'.tasks.rows :=
  h.tasks.mem_ne ht hne

theorem traced_new (ht : Traced s old) : Traced s' new := by
  unfold Traced
  rw [h.id, eventsOf_append h.events, if_pos h.taskId, h.revision]
  exact ht.record h.source h.permitted h.target

theorem traced_other (ht : Traced s task) (hne : task.id ≠ old.id) : Traced s' task := by
  unfold Traced
  rw [eventsOf_append h.events, if_neg fun he => hne (he.symm.trans h.taskId), List.append_nil]
  exact ht

end Records

def TracedAt (i : ℕ) (s : TaskBoard) : Prop := ∃ task ∈ s.tasks.rows, task.id = i ∧ Traced s task

def RevisedTo (i n : ℕ) (s : TaskBoard) : Prop :=
  ∃ task ∈ s.tasks.rows, task.id = i ∧ n ≤ task.revision

-- Every event is one of a task that exists.
def Placed (s : TaskBoard) : Prop :=
  ∀ e ∈ s.events.rows, e.operationalTaskId < s.tasks.next

theorem Records.tracedAt {i : ℕ} (h : Records s s' old new e) (ht : TracedAt i s) :
    TracedAt i s' := by
  obtain ⟨task, hm, hid, ht⟩ := ht
  by_cases hold : task.id = old.id
  · obtain rfl := Table.eq_of_id hm h.mem hold
    exact ⟨new, h.mem_new, h.id.trans hid, h.traced_new ht⟩
  · exact ⟨task, h.mem_other hm hold, hid, h.traced_other ht hold⟩

theorem Records.revisedTo {i n : ℕ} (h : Records s s' old new e) (ht : RevisedTo i n s) :
    RevisedTo i n s' := by
  obtain ⟨task, hm, hid, hn⟩ := ht
  by_cases hold : task.id = old.id
  · obtain rfl := Table.eq_of_id hm h.mem hold
    exact ⟨new, h.mem_new, h.id.trans hid, hn.trans (h.revision ▸ Nat.le_succ _)⟩
  · exact ⟨task, h.mem_other hm hold, hid, hn⟩

theorem Records.placed (h : Records s s' old new e) (hp : Placed s) : Placed s' := by
  intro x hx
  rw [h.tasks.next]
  rcases h.events.mem.mp hx with hx | rfl
  · exact hp x hx
  · rw [h.taskId]
    exact s.tasks.below old h.mem

theorem Writes.keeps {P : TaskBoard → Prop} (h : Writes s s')
    (hP : ∀ {s s' old new e}, Records s s' old new e → P s → P s') (hs : P s) : P s' := by
  induction h with
  | refl => exact hs
  | tail _ hr ih =>
    obtain ⟨_, _, _, hr⟩ := hr
    exact hP hr ih

theorem writes_of_records (h : Records s s' old new e) : Writes s s' :=
  Relation.ReflTransGen.single ⟨old, new, e, h⟩

end Records

section Commands
variable {s s' t u : TaskBoard} {old new task : OperationalTask} {e : OperationalTaskEvent}
variable {i : ℕ} {d : EventData} {actor : Option ℕ}

theorem records_of_commits (old new : OperationalTask) (hm : old ∈ s.tasks.rows) (hid : new.id = old.id)
    (ht : d.taskId = old.id) (hs : d.fromStatus = old.status) (hd : d.toStatus = new.status)
    (hp : permits d.type d.fromStatus d.toStatus = true) (hr : new.revision = old.revision + 1)
    (h : Commits (save new) s () t) (h' : Commits (createEvent d) t () s') :
    ∃ e, Records s s' old new e ∧ e.type = d.type := by
  simp only [save, createEvent, commits_modify] at h h'
  subst h h'
  refine ⟨eventRow d s.db.clock s.events.next, ⟨hm, hid, ?_, Table.appends_insert
    (names_eventRow _ _), ht, hs, hd, hp, hr⟩, rfl⟩
  rw [← hid]
  exact Table.updates_update (keeps_savedAs _)

theorem commits_lockedTask (h : Commits (lockedTask i) s task s') :
    task ∈ s.tasks.rows ∧ task.id = i ∧ s' = s := by
  simp only [lockedTask, commits_bind, commits_get, commits_orFail] at h
  obtain ⟨_, _, ⟨rfl, rfl⟩, ht, rfl⟩ := h
  obtain ⟨hm, hid⟩ := Table.find?_eq_some.mp ht
  exact ⟨hm, hid, rfl⟩

theorem onlyFrom_ok {allowed : List TaskStatus} {attributes : OperationalTask}
    {type : TaskEventType} {outcome : OperationalTask × TaskEventType}
    (h : onlyFrom task allowed attributes type = .ok outcome) :
    task.status ∈ allowed ∧ outcome = (attributes, type) := by
  simp only [onlyFrom, bind_eq_ok, refuse_eq_ok, not_not] at h
  obtain ⟨_, hm, ho⟩ := h
  exact ⟨hm, (Except.ok.inj ho).symm⟩

-- What a branch of the table has to do for its event type to permit the move.
theorem permits_onlyFrom {allowed : List TaskStatus} {attributes : OperationalTask}
    {type : TaskEventType} {outcome : OperationalTask × TaskEventType}
    (h : onlyFrom task allowed attributes type = .ok outcome) (hid : attributes.id = task.id)
    (hr : attributes.revision = task.revision)
    (hp : task.status ∈ allowed → permits type task.status attributes.status = true)
    (ht : type ≠ .rescheduled := by decide) :
    outcome.1.id = task.id ∧ outcome.1.revision = task.revision ∧
      permits outcome.2 task.status outcome.1.status = true ∧ outcome.2 ≠ .rescheduled := by
  obtain ⟨hm, rfl⟩ := onlyFrom_ok h
  exact ⟨hid, hr, hp hm, ht⟩

theorem permits_transition {action : String} {data : TransitionData} {now : ℤ}
    {outcome : OperationalTask × TaskEventType}
    (h : transitionAttributes task action data now = .ok outcome) :
    outcome.1.id = task.id ∧ outcome.1.revision = task.revision ∧
      permits outcome.2 task.status outcome.1.status = true ∧ outcome.2 ≠ .rescheduled := by
  unfold transitionAttributes at h
  split at h
  · exact permits_onlyFrom h rfl rfl fun hm => by simpa [permits] using hm
  · exact permits_onlyFrom h rfl rfl fun hm => by simpa [permits] using hm
  · exact permits_onlyFrom h rfl rfl fun hm => by simpa [permits] using hm
  · obtain ⟨_, _, h⟩ := bind_eq_ok.mp h
    exact permits_onlyFrom h rfl rfl fun hm => by simpa [permits] using hm
  · exact permits_onlyFrom h rfl rfl fun hm => by simpa [permits] using hm
  · obtain ⟨_, _, h⟩ := bind_eq_ok.mp h
    exact permits_onlyFrom h rfl rfl fun hm => by simpa [permits] using hm
  · obtain ⟨_, _, h⟩ := bind_eq_ok.mp h
    exact permits_onlyFrom h rfl rfl fun hm => by simpa [permits] using hm
  · cases h

-- A call of the staff on one task logs what it was, and never a move of the arrival.
def Edited (s s' : TaskBoard) : Prop := ∃ old new e, Records s s' old new e ∧ e.type ≠ .rescheduled

theorem commits_transition {action : String} {data : TransitionData}
    (h : Commits (transition i action data actor) s task s') :
    ∃ old new e, Records s s' old new e ∧ e.type ≠ .rescheduled ∧ old.id = i ∧
      old.revision = data.expectedRevision.getD 0 := by
  simp only [transition, event, commits_bind, commits_check, commits_pure] at h
  obtain ⟨old, _, hlock, outcome, _, ⟨hok, rfl⟩, _, t, hsave, _, u, hevent, _, rfl⟩ := h
  obtain ⟨hm, hid, rfl⟩ := commits_lockedTask hlock
  simp only [assertTransition, bind_eq_ok, refuse_eq_ok, not_not] at hok
  obtain ⟨_, _, _, hrev, _, _, _, _, hout⟩ := hok
  obtain ⟨hoid, horev, hperm, htype⟩ := permits_transition hout
  have hnew : (bumped outcome.1).revision = old.revision + 1 := congrArg Nat.succ horev
  obtain ⟨e, hr, he⟩ := records_of_commits old (bumped outcome.1) hm hoid hoid rfl rfl hperm hnew
    hsave hevent
  exact ⟨old, _, e, hr, he ▸ htype, hid, hrev.symm⟩

theorem commits_updateDetails {data : DetailsData}
    (h : Commits (updateDetails i data actor) s task s') :
    ∃ old new e, Records s s' old new e ∧ e.type ≠ .rescheduled ∧ old.id = i ∧
      old.revision = data.expectedRevision.getD 0 := by
  simp only [updateDetails, commits_bind, commits_check, commits_reject, commits_pure] at h
  obtain ⟨old, _, hlock, _, _, ⟨_, rfl⟩, _, _, ⟨hrev, rfl⟩, _, t, hsave, _, u, hevent, _, rfl⟩ := h
  obtain ⟨hm, hid, rfl⟩ := commits_lockedTask hlock
  have hperm : permits .detailsUpdated old.status old.status = true := beq_self_eq_true _
  obtain ⟨e, hr, he⟩ := records_of_commits old (bumped (filled data old)) hm rfl rfl rfl rfl hperm
    rfl hsave hevent
  exact ⟨old, _, e, hr, by simp [he], hid, (not_not.mp hrev).symm⟩

-- What a loop over some of the tasks does: each is rewritten once, with an event of its own.
structure Rewrites (s s' : TaskBoard) (tasks : List OperationalTask)
    (g : OperationalTask → OperationalTask) (type : TaskEventType) : Prop where
  rows : s'.tasks.rows = s.tasks.rows.map fun t => if t ∈ tasks then g t else t
  next : s'.tasks.next = s.tasks.next
  ids : ∀ t ∈ tasks, (g t).id = t.id
  logged : ∀ t ∈ tasks, ∃ e, e.type = type ∧ s'.eventsOf t.id = s.eventsOf t.id ++ [e]
  others : ∀ i, (∀ t ∈ tasks, t.id ≠ i) → s'.eventsOf i = s.eventsOf i
  writes : Writes s s'

variable {f : OperationalTask → TaskTx Unit} {g : OperationalTask → OperationalTask}
variable {tasks : List OperationalTask} {type : TaskEventType}

theorem rewrites_nil : Rewrites s s [] g type where
  rows := by simp
  next := rfl
  ids := by simp
  logged := by simp
  others _ _ := rfl
  writes := Relation.ReflTransGen.refl

theorem Rewrites.cons (hr : Records s t task (g task) e) (he : e.type = type)
    (hne : ∀ x ∈ tasks, task.id ≠ x.id) (h : Rewrites t s' tasks g type) :
    Rewrites s s' (task :: tasks) g type where
  rows := by
    rw [h.rows, hr.tasks.rows, List.map_map]
    refine List.map_congr_left fun x hx => ?_
    rw [Function.comp_apply]
    by_cases hid : Keyed.id x = task.id
    · obtain rfl := Table.eq_of_id hx hr.mem hid
      have hnot : g x ∉ tasks := fun hm => hne (g x) hm hr.id.symm
      rw [if_pos hid, savedAs_self hr.id, if_neg hnot, if_pos List.mem_cons_self]
    · have hx : x ≠ task := fun hx => hid (congrArg OperationalTask.id hx)
      rw [if_neg hid]
      simp [hx]
  next := h.next.trans hr.tasks.next
  ids := List.forall_mem_cons.mpr ⟨hr.id, h.ids⟩
  logged := by
    have hself := eventsOf_append hr.events
    intro x hx
    rcases List.mem_cons.mp hx with rfl | hx
    · refine ⟨e, he, ?_⟩
      rw [h.others x.id fun y hy => (hne y hy).symm, hself, if_pos hr.taskId]
    · obtain ⟨e', he', hlog⟩ := h.logged x hx
      refine ⟨e', he', ?_⟩
      rw [hlog, hself, if_neg fun h => hne x hx (hr.taskId.symm.trans h), List.append_nil]
  others i hi := by
    obtain ⟨hi, hrest⟩ := List.forall_mem_cons.mp hi
    rw [h.others i hrest, eventsOf_append hr.events, if_neg fun h => hi (hr.taskId.symm.trans h),
      List.append_nil]
  writes := (writes_of_records hr).trans h.writes

theorem rewrites_forM
    (hf : ∀ task ∈ tasks, ∀ s s', task ∈ s.tasks.rows → Commits (f task) s () s' →
      ∃ e, Records s s' task (g task) e ∧ e.type = type)
    (hd : tasks.Pairwise fun a b => a.id ≠ b.id) (hm : ∀ task ∈ tasks, task ∈ s.tasks.rows)
    (h : Commits (tasks.forM f) s () s') : Rewrites s s' tasks g type := by
  induction tasks generalizing s with
  | nil => exact commits_forM_nil.mp h ▸ rewrites_nil
  | cons task rest ih =>
    obtain ⟨t, htask, hrest⟩ := commits_forM_cons.mp h
    obtain ⟨hne, hd⟩ := List.pairwise_cons.mp hd
    obtain ⟨e, hr, he⟩ := hf task List.mem_cons_self s t (hm task List.mem_cons_self) htask
    have hmt : ∀ x ∈ rest, x ∈ t.tasks.rows := fun x hx =>
      hr.mem_other (hm x (List.mem_cons_of_mem task hx)) (hne x hx).symm
    exact .cons hr he hne (ih (fun x hx => hf x (List.mem_cons_of_mem task hx)) hd hmt hrest)

theorem pairwise_select (p : OperationalTask → Bool) :
    (s.tasks.select p).Pairwise fun a b => a.id ≠ b.id :=
  List.pairwise_map.mp (s.tasks.nodup.sublist (List.filter_sublist.map _))

-- The same for the rows that a query selects.
theorem rewrites_select {p : OperationalTask → Bool}
    (hf : ∀ task, p task = true → ∀ s s', task ∈ s.tasks.rows → Commits (f task) s () s' →
      ∃ e, Records s s' task (g task) e ∧ e.type = type)
    (h : Commits ((s.tasks.select p).forM f) s () s') :
    Rewrites s s' (s.tasks.select p) g type :=
  rewrites_forM (fun task ht => hf task (Table.mem_select.mp ht).2) (pairwise_select p)
    (fun _ ht => (Table.mem_select.mp ht).1) h

theorem commits_cancelOpen {reason : String} {n : ℕ}
    (h : Commits (cancelOpenForReservation i reason actor) s n s') :
    Rewrites s s' (s.tasks.select fun t => t.reservationId == some i && unfinished.contains t.status)
      (cancelledFor reason) .cancelled := by
  simp only [cancelOpenForReservation, commits_bind, commits_get, commits_pure] at h
  obtain ⟨_, _, ⟨rfl, rfl⟩, _, u, hloop, _, rfl⟩ := h
  refine rewrites_select (fun task hopen a b hm hc => ?_) hloop
  have hp : permits .cancelled task.status .cancelled = true := by
    simp only [Bool.and_eq_true] at hopen
    simpa [permits] using hopen.2
  simp only [cancelTask, event, commits_bind] at hc
  obtain ⟨_, c, hsave, hevent⟩ := hc
  exact records_of_commits task (cancelledFor reason task) hm rfl rfl rfl rfl hp rfl hsave hevent

theorem todo_of_untouched (h : untouched task = true) : task.status = .todo := by
  simp only [untouched, Bool.and_eq_true, beq_iff_eq] at h
  exact h.1.1.1

def pendingChecklist (reservationId : ℕ) (t : OperationalTask) : Bool :=
  t.reservationId == some reservationId && t.checklistTemplateVersionId.isSome && untouched t

theorem commits_rebase {oldStart newStart : ℤ} {n : ℕ}
    (h : Commits (rebasePendingForReservation i oldStart newStart actor) s n s') :
    (newStart = oldStart ∧ s' = s) ∨ Rewrites s s' (s.tasks.select (pendingChecklist i))
      (rescheduledBy (newStart - oldStart)) .rescheduled := by
  simp only [rebasePendingForReservation, commits_ite, commits_bind, commits_get,
    commits_pure] at h
  rcases h with ⟨hz, _, rfl⟩ | ⟨_, _, _, ⟨rfl, rfl⟩, _, u, hloop, _, rfl⟩
  · exact Or.inl ⟨by omega, rfl⟩
  · refine Or.inr (rewrites_select (fun task hopen a b hm hc => ?_) hloop)
    have htodo : task.status = .todo := by
      simp only [pendingChecklist, Bool.and_eq_true] at hopen
      exact todo_of_untouched hopen.2
    have hp : permits .rescheduled task.status task.status = true := by
      rw [htodo]
      rfl
    simp only [rescheduleTask, event, commits_bind] at hc
    obtain ⟨_, c, hsave, hevent⟩ := hc
    exact records_of_commits task (rescheduledBy (newStart - oldStart) task) hm rfl rfl rfl rfl hp
      rfl hsave hevent

theorem writes_of_edited (h : s' = s ∨ Edited s s') : Writes s s' := by
  rcases h with rfl | ⟨_, _, _, hr, _⟩
  · exact Relation.ReflTransGen.refl
  · exact writes_of_records hr

-- A new task, with the event of its creation.
structure Begins (s t : TaskBoard) (task : OperationalTask) (e : OperationalTaskEvent) : Prop where
  tasks : Table.Appends s.tasks t.tasks task
  events : Table.Appends s.events t.events e
  taskId : e.operationalTaskId = task.id
  source : e.fromStatus = .todo
  target : e.toStatus = .todo
  permitted : Permitted e
  status : task.status = .todo
  revision : task.revision = 1

theorem commits_create {data : TaskData} {caller : Caller}
    (h : Commits (create data caller) s task s') :
    ∃ t e, Begins s t (newTask data s.tasks.next) e ∧ (s' = t ∨ Edited t s') := by
  simp only [create, insertTask, event, commits_bind, commits_check, commits_get, commits_set,
    commits_pure, createEvent, commits_modify] at h
  obtain ⟨_, _, ⟨_, rfl⟩, _, _, ⟨_, rfl⟩, _, _, ⟨_, rfl⟩, first, _, ⟨_, _, ⟨rfl, rfl⟩, _, _, rfl,
    rfl, rfl⟩, _, t, ht, hassign⟩ := h
  have hbegins : Begins s t (newTask data s.tasks.next) (eventRow ⟨s.tasks.next, caller.actorId,
      .created, .todo, .todo, none, .lifecycle 1 (data.priority.getD "normal") none⟩ s.db.clock
      s.events.next) := by
    subst ht
    exact ⟨Table.appends_insert (names_newTask _), Table.appends_insert (names_eventRow _ _), rfl,
      rfl, rfl, rfl, rfl, rfl⟩
  refine ⟨t, _, hbegins, ?_⟩
  unfold assignAtCreation at hassign
  split at hassign
  · simp only [commits_pure] at hassign
    exact Or.inl hassign.2.symm
  · simp only [commits_bind, commits_check, commits_pure, event] at hassign
    obtain ⟨_, _, ⟨_, rfl⟩, _, a, hsave, _, b, hevent, _, rfl⟩ := hassign
    obtain ⟨e, hr, he⟩ := records_of_commits (newTask data s.tasks.next) (assignedTo _ _)
      hbegins.tasks.mem_new rfl rfl rfl rfl rfl rfl hsave hevent
    exact Or.inr ⟨_, _, e, hr, by simp [he]⟩

end Commands
section Runs
variable {s s' t start : TaskBoard} {c d : Command} {i n : ℕ}

inductive Command
  | create (data : TaskData) (caller : Caller)
  | transition (taskId : ℕ) (action : String) (data : TransitionData) (actorId : Option ℕ)
  | updateDetails (taskId : ℕ) (data : DetailsData) (actorId : Option ℕ)
  | cancelOpenForReservation (reservationId : ℕ) (reason : String) (actorId : Option ℕ)
  | rebasePendingForReservation (reservationId : ℕ) (oldStart newStart : ℤ) (actorId : Option ℕ)
  | elsewhere (write : TaskBoard → TaskBoard)

def Command.run : Command → TaskTx Unit
  | .create data caller => do
    let _ ← TaskLifecycleService.create data caller
  | .transition taskId action data actorId => do
    let _ ← TaskLifecycleService.transition taskId action data actorId
  | .updateDetails taskId data actorId => do
    let _ ← TaskLifecycleService.updateDetails taskId data actorId
  | .cancelOpenForReservation reservationId reason actorId => do
    let _ ← TaskLifecycleService.cancelOpenForReservation reservationId reason actorId
  | .rebasePendingForReservation reservationId oldStart newStart actorId => do
    let _ ← TaskLifecycleService.rebasePendingForReservation reservationId oldStart newStart actorId
  | .elsewhere write => modify write

-- The rest of the system may add tasks, but writes no task that exists and logs no event for it.
structure Elsewhere (s s' : TaskBoard) : Prop where
  tasks : ∀ task ∈ s.tasks.rows, task ∈ s'.tasks.rows
  events : ∀ task ∈ s.tasks.rows, s'.eventsOf task.id = s.eventsOf task.id
  placed : Placed s → Placed s'

def Command.Orderly (c : Command) (s : TaskBoard) : Prop :=
  match c with
  | .elsewhere write => Elsewhere s (write s)
  | _ => True

-- The command is a call on task `i` that expects to find it at revision `n`.
def Command.Expects (i n : ℕ) : Command → Prop
  | .transition taskId _ data _ => taskId = i ∧ data.expectedRevision.getD 0 = n
  | .updateDetails taskId data _ => taskId = i ∧ data.expectedRevision.getD 0 = n
  | _ => False

inductive Effect (s s' : TaskBoard) : Prop
  | writes (h : Writes s s')
  | begins {t : TaskBoard} {task : OperationalTask} {e : OperationalTaskEvent}
      (h : Begins s t task e) (hw : Writes t s')
  | elsewhere (h : Elsewhere s s')

theorem effect_run (ho : c.Orderly s) (h : Commits c.run s () s') : Effect s s' := by
  cases c with
  | elsewhere write =>
    simp only [Command.run, commits_modify] at h
    exact .elsewhere (h ▸ ho)
  | create =>
    simp only [Command.run, commits_bind, commits_pure] at h
    obtain ⟨_, _, h, _, rfl⟩ := h
    obtain ⟨_, _, hb, hw⟩ := commits_create h
    exact .begins hb (writes_of_edited hw)
  | transition =>
    simp only [Command.run, commits_bind, commits_pure] at h
    obtain ⟨_, _, h, _, rfl⟩ := h
    obtain ⟨_, _, _, hr, _⟩ := commits_transition h
    exact .writes (writes_of_records hr)
  | updateDetails =>
    simp only [Command.run, commits_bind, commits_pure] at h
    obtain ⟨_, _, h, _, rfl⟩ := h
    obtain ⟨_, _, _, hr, _⟩ := commits_updateDetails h
    exact .writes (writes_of_records hr)
  | cancelOpenForReservation =>
    simp only [Command.run, commits_bind, commits_pure] at h
    obtain ⟨_, _, h, _, rfl⟩ := h
    exact .writes (commits_cancelOpen h).writes
  | rebasePendingForReservation =>
    simp only [Command.run, commits_bind, commits_pure] at h
    obtain ⟨_, _, h, _, rfl⟩ := h
    rcases commits_rebase h with ⟨_, rfl⟩ | h
    · exact .writes Relation.ReflTransGen.refl
    · exact .writes h.writes

section Begun
variable {task x : OperationalTask} {e : OperationalTaskEvent} (h : Begins s t task e)
include h

theorem Begins.placed (hp : Placed s) : Placed t := by
  intro x hx
  rw [h.tasks.next]
  rcases h.events.mem.mp hx with hx | rfl
  · exact (hp x hx).trans (Nat.lt_succ_self _)
  · rw [h.taskId, show task.id = s.tasks.next from h.tasks.id]
    exact Nat.lt_succ_self _

theorem Begins.traced_new (hp : Placed s) : Traced t task := by
  have hnone : s.eventsOf task.id = [] := by
    refine List.filter_eq_nil_iff.mpr fun x hx => ?_
    have hlt : x.operationalTaskId < task.id := (hp x hx).trans_eq h.tasks.id.symm
    simpa using hlt.ne
  unfold Traced
  rw [eventsOf_append h.events, hnone, if_pos h.taskId, h.revision, h.status, List.nil_append]
  exact ⟨rfl, h.source, h.permitted, h.target⟩

theorem Begins.traced_old (hx : x ∈ s.tasks.rows) (ht : Traced s x) : Traced t x := by
  have hne : e.operationalTaskId ≠ x.id := by
    rw [h.taskId]
    exact (h.tasks.lt_next hx).ne'
  unfold Traced
  rw [eventsOf_append h.events, if_neg hne, List.append_nil]
  exact ht

end Begun

theorem placed_effect (he : Effect s s') (hp : Placed s) : Placed s' := by
  cases he with
  | writes h => exact h.keeps (fun hr => hr.placed) hp
  | begins h hw => exact hw.keeps (fun hr => hr.placed) (h.placed hp)
  | elsewhere h => exact h.placed hp

theorem tracedAt_effect (he : Effect s s') (ht : TracedAt i s) : TracedAt i s' := by
  cases he with
  | writes h => exact h.keeps (fun hr => hr.tracedAt) ht
  | begins h hw =>
    obtain ⟨task, hm, hid, ht⟩ := ht
    exact hw.keeps (fun hr => hr.tracedAt) ⟨task, h.tasks.mem_old hm, hid, h.traced_old hm ht⟩
  | elsewhere h =>
    obtain ⟨task, hm, hid, ht⟩ := ht
    refine ⟨task, h.tasks task hm, hid, ?_⟩
    unfold Traced
    rw [h.events task hm]
    exact ht

theorem revisedTo_effect (he : Effect s s') (ht : RevisedTo i n s) : RevisedTo i n s' := by
  cases he with
  | writes h => exact h.keeps (fun hr => hr.revisedTo) ht
  | begins h hw =>
    obtain ⟨task, hm, hid, hn⟩ := ht
    exact hw.keeps (fun hr => hr.revisedTo) ⟨task, h.tasks.mem_old hm, hid, hn⟩
  | elsewhere h =>
    obtain ⟨task, hm, hid, hn⟩ := ht
    exact ⟨task, h.tasks task hm, hid, hn⟩

theorem records_of_expects (he : c.Expects i n) (h : Commits c.run s () s') :
    ∃ old new e, Records s s' old new e ∧ old.id = i ∧ old.revision = n := by
  cases c with
  | transition =>
    obtain ⟨rfl, rfl⟩ := he
    simp only [Command.run, commits_bind, commits_pure] at h
    obtain ⟨_, _, h, _, rfl⟩ := h
    obtain ⟨old, new, e, hr, _, hid, hrev⟩ := commits_transition h
    exact ⟨old, new, e, hr, hid, hrev⟩
  | updateDetails =>
    obtain ⟨rfl, rfl⟩ := he
    simp only [Command.run, commits_bind, commits_pure] at h
    obtain ⟨_, _, h, _, rfl⟩ := h
    obtain ⟨old, new, e, hr, _, hid, hrev⟩ := commits_updateDetails h
    exact ⟨old, new, e, hr, hid, hrev⟩
  | _ => exact he.elim

structure Opening (s : TaskBoard) : Prop where
  tasks : s.tasks.rows = []
  events : s.events.rows = []

theorem placed_run (hstart : Opening start) (h : Reaches Command.run Command.Orderly start s) :
    Placed s := by
  have hplaced : Placed start := fun e he => by simp [hstart.events] at he
  exact h.invariant hplaced fun _ _ _ hp ho hc => placed_effect (effect_run ho hc) hp

theorem traced_of_create {data : TaskData} {caller : Caller} (hp : Placed s)
    (h : Commits (Command.create data caller).run s () s') : TracedAt s.tasks.next s' := by
  simp only [Command.run, commits_bind, commits_pure] at h
  obtain ⟨_, _, h, _, rfl⟩ := h
  obtain ⟨t, e, hb, hw⟩ := commits_create h
  exact (writes_of_edited hw).keeps (fun hr => hr.tracedAt)
    ⟨_, hb.tasks.mem_new, rfl, hb.traced_new hp⟩

-- After any call `c` of a run and any calls that follow it.
theorem task_history_is_intact (hstart : Opening start)
    (hs : Reaches Command.run Command.Orderly start s) (hc : Commits c.run s () s')
    (ht : Reaches Command.run Command.Orderly s' t) :
    (∀ data caller, c = .create data caller →
      ∃ task ∈ t.tasks.rows, task.id = s.tasks.next ∧ Traced t task) ∧
    (∀ i n, c.Expects i n → ∀ d : Command, d.Expects i n → ∀ u, ¬ Commits d.run t () u) ∧
    ∀ (d : Command) (e : Failure), d.run.run t = .error e →
      (perform d.run t).tasks = t.tasks ∧ (perform d.run t).events = t.events := by
  refine ⟨?_, ?_, ?_⟩
  · rintro data caller rfl
    have htraced : TracedAt s.tasks.next s' := traced_of_create (placed_run hstart hs) hc
    exact ht.invariant htraced fun _ _ _ hi ho h => tracedAt_effect (effect_run ho h) hi
  · intro i n hexpects d hd u hcommit
    obtain ⟨old, new, e, hr, hid, hrev⟩ := records_of_expects hexpects hc
    have hrevised : RevisedTo i (n + 1) s' :=
      ⟨new, hr.mem_new, hr.id.trans hid, by rw [hr.revision, hrev]⟩
    obtain ⟨task, hm, htid, hle⟩ : RevisedTo i (n + 1) t :=
      ht.invariant hrevised fun _ _ _ hi ho h => revisedTo_effect (effect_run ho h) hi
    obtain ⟨old', _, _, hr', hid', hrev'⟩ := records_of_expects hd hcommit
    obtain rfl := Table.eq_of_id hm hr'.mem (htid.trans hid'.symm)
    omega
  · intro d e he
    simp [perform, he]

end Runs

section Scenario

def house (i : ℕ) : Property := ⟨i, true⟩

theorem names_house : Names house := fun _ => rfl

def lodge : Database where
  clock := 0
  catalogue := .empty
  properties := Table.empty.insert house names_house

def staffed : TaskBoard where
  db := lodge
  memberships := [{ userId := 7, role := .manager, isActive := true },
    { userId := 8, role := .housekeeping, isActive := true }]

def manager : Caller := { actorId := some 7 }

def makeBed : TaskData := { propertyId := 0, title := "Make the bed", assigneeId := some 8 }

theorem opening_staffed : Opening staffed := ⟨rfl, rfl⟩

def start (actorId : Option ℕ) : Command :=
  .transition 0 "start" { expectedRevision := some 2 } actorId

def finishing : List Command :=
  [.updateDetails 0 { expectedRevision := some 3, title := some "Air the room" } (some 7),
    .transition 0 "escalate" { expectedRevision := some 4, reason := some "late" } (some 7)]

def orderly : Command → Bool
  | .elsewhere _ => false
  | _ => true

theorem orderly_of {c : Command} {s : TaskBoard} (h : orderly c = true) : c.Orderly s := by
  cases c with
  | elsewhere => cases h
  | _ => trivial

def settled (t : TaskBoard) : Bool :=
  (t.tasks.rows.map fun task => (task.revision, task.status)) == [(5, .blocked)]

def finishes (s : TaskBoard) : Bool :=
  (Reaches.execute Command.run (fun c _ => orderly c) finishing s).any settled

def starts (s : TaskBoard) : Bool :=
  ((start (some 8)).run.run s).toOption.any fun r => finishes r.2

-- The task is created and assigned, started, described, and escalated in the end; a second start
-- from revision 2 comes too late.
theorem escalated_task_is_traced : ∃ s t, Commits (Command.create makeBed manager).run staffed () s ∧
    settled t = true ∧ (∃ task ∈ t.tasks.rows, task.id = staffed.tasks.next ∧ Traced t task) ∧
    (∀ u, ¬ Commits (start none).run t () u) ∧ (perform (start none).run t).tasks = t.tasks := by
  obtain ⟨s, hs, hp⟩ : ∃ s, Commits (Command.create makeBed manager).run staffed () s ∧
      starts s = true := exists_commits_of_run (by decide)
  obtain ⟨s', hs', hp⟩ : ∃ s', Commits (start (some 8)).run s () s' ∧ finishes s' = true :=
    exists_commits_of_run hp
  obtain ⟨t, ht, hp⟩ := Reaches.exists_of_execute (fun _ _ => orderly_of) finishing hp
  have hcreated : Reaches Command.run Command.Orderly staffed s :=
    Reaches.single (i := .create makeBed manager) trivial hs
  have hstarted : Reaches Command.run Command.Orderly s t :=
    (Reaches.single (i := start (some 8)) trivial hs').trans ht
  obtain ⟨htraced, _, _⟩ := task_history_is_intact opening_staffed .refl hs hstarted
  obtain ⟨_, hlate, hrejected⟩ := task_history_is_intact opening_staffed hcreated hs' ht
  refine ⟨s, t, hs, hp, htraced makeBed manager rfl,
    hlate 0 2 ⟨rfl, rfl⟩ (start none) ⟨rfl, rfl⟩, ?_⟩
  cases hr : (start none).run.run t with
  | error e => exact (hrejected (start none) e hr).1
  | ok r => exact absurd hr (hlate 0 2 ⟨rfl, rfl⟩ (start none) ⟨rfl, rfl⟩ r.2)

end Scenario
end Tasks.TaskLifecycleService
