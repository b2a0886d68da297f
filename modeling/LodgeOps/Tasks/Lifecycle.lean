import LodgeOps.Tasks.Board

namespace Tasks.TaskLifecycleService
open Schema Transaction

-- Who calls, and the property that the session is confined to.
structure Caller where
  actorId : Option ℕ
  propertyScopeId : Option ℕ := none

section Writes

def savedAs (task r : OperationalTask) : OperationalTask := { task with id := r.id }

theorem keeps_savedAs (task : OperationalTask) : Keeps (savedAs task) := fun _ => rfl

def save (task : OperationalTask) : TaskTx Unit := modify fun s => { s with
  tasks := s.tasks.update task.id (savedAs task) (keeps_savedAs _) }

structure EventData where
  taskId : ℕ
  actorId : Option ℕ
  type : TaskEventType
  fromStatus : TaskStatus
  toStatus : TaskStatus
  reason : Option String := none
  snapshot : EventSnapshot

def eventRow (d : EventData) (now : ℤ) (i : ℕ) : OperationalTaskEvent where
  id := i
  operationalTaskId := d.taskId
  actorId := d.actorId
  type := d.type
  fromStatus := d.fromStatus
  toStatus := d.toStatus
  reason := d.reason
  snapshot := d.snapshot
  occurredAt := now

theorem names_eventRow (d : EventData) (now : ℤ) : Names (eventRow d now) := fun _ => rfl

def createEvent (d : EventData) : TaskTx Unit := modify fun s => { s with
  events := s.events.insert (eventRow d s.db.clock) (names_eventRow _ _) }

def event (task : OperationalTask) (type : TaskEventType) (fromStatus toStatus : TaskStatus)
    (reason : Option String) (actorId : Option ℕ) : TaskTx Unit :=
  createEvent ⟨task.id, actorId, type, fromStatus, toStatus, reason,
    .lifecycle task.revision task.priority task.assigneeId⟩

end Writes

section Create

structure TaskData where
  propertyId : ℕ
  reservationId : Option ℕ := none
  title : String
  description : Option String := none
  priority : Option String := none
  dueAt : Option ℤ := none
  metadata : TaskMetadata := {}
  assigneeId : Option ℕ := none

def assertActorMaySchedule (s : TaskBoard) (caller : Caller) (propertyId : ℕ) :
    Except Failure Unit := do
  let actorId ← found caller.actorId
    (.validation "actor" "An active operations scheduler is required.")
  let denied : Failure := .validation "property_id"
    "The actor cannot schedule tasks for this property."
  let membership ← found (activeMembership? s actorId) denied
  refuse (canScheduleOperations membership.role = false ∨
    outsideProperty membership propertyId = true ∨
    caller.propertyScopeId.any (fun i => i != propertyId) = true) denied

def newTask (data : TaskData) (i : ℕ) : OperationalTask where
  id := i
  propertyId := data.propertyId
  reservationId := data.reservationId
  title := data.title
  description := data.description
  priority := data.priority.getD "normal"
  dueAt := data.dueAt
  metadata := data.metadata

theorem names_newTask (data : TaskData) : Names (newTask data) := fun _ => rfl

def insertTask (mk : ℕ → OperationalTask) (hk : Names mk) : TaskTx OperationalTask := do
  let s ← get
  set { s with tasks := s.tasks.insert mk hk }
  pure (mk s.tasks.next)

def assignedTo (assigneeId : ℕ) (task : OperationalTask) : OperationalTask :=
  { task with assigneeId := some assigneeId, revision := 2 }

def assignAtCreation (task : OperationalTask) (assigneeId : Option ℕ) (actorId : Option ℕ) :
    TaskTx OperationalTask :=
  match assigneeId with
  | none => pure task
  | some i => do
    check fun s => assertEligible s task i
    save (assignedTo i task)
    event (assignedTo i task) .assigned .todo .todo none actorId
    pure (assignedTo i task)

def create (data : TaskData) (caller : Caller) : TaskTx OperationalTask := do
  check fun s => assertActorMaySchedule s caller data.propertyId
  check fun s => refuse (((s.db.properties.find? data.propertyId).filter fun p =>
    p.isActive).isNone = true) .modelNotFound
  check fun s => refuse (data.reservationId.any (fun i => ((s.db.reservation? i).filter fun r =>
      r.propertyId == data.propertyId).isNone) = true)
    (.validation "reservation_id" "The reservation must belong to the selected property.")
  let task ← insertTask (newTask data) (names_newTask _)
  event task .created .todo .todo none caller.actorId
  assignAtCreation task data.assigneeId caller.actorId

end Create

section Transition

structure TransitionData where
  expectedRevision : Option ℕ := none
  assigneeId : Option ℕ := none
  reason : Option String := none
  reservationReopenAuthorized : Bool := false

def assertActorMayManage (s : TaskBoard) (task : OperationalTask) (actorId : Option ℕ) :
    Except Failure Unit :=
  match actorId with
  | none => .ok ()
  | some i => do
    let denied : Failure := .validation "task" "The actor cannot mutate this operational task."
    let membership ← found (activeMembership? s i) denied
    refuse (canManageOperations membership.role = false ∨
      outsideProperty membership task.propertyId = true ∨ allows s membership task = false) denied

def mayReopenAt (s : TaskBoard) (task : OperationalTask) (actorId : Option ℕ) : Bool :=
  actorId.any fun i => s.memberships.any fun m =>
    m.userId == i && m.isActive && (m.role == .administrator || m.role == .manager) &&
      inProperty m task.propertyId

def terminal (status : ReservationStatus) : Bool :=
  status == .cancelled || status == .noShow || status == .checkedOut

def assertReservationMayReopenTask (s : TaskBoard) (task : OperationalTask)
    (data : TransitionData) (actorId : Option ℕ) : Except Failure Unit :=
  refuse ((task.reservationId.bind s.db.reservation?).any (fun r => terminal r.status) = true ∧
      (data.reservationReopenAuthorized && mayReopenAt s task actorId) = false)
    (.validation "reservation_reopen_authorized"
      "Tasks on a terminal reservation require explicit reservation-reopen authority from an active property manager.")

def requiredReason (data : TransitionData) : Except Failure String := do
  let reason := trim (data.reason.getD "")
  refuse (reason = "") (.validation "reason" "A reason is required for this action.")
  .ok reason

def onlyFrom (task : OperationalTask) (allowed : List TaskStatus) (attributes : OperationalTask)
    (type : TaskEventType) : Except Failure (OperationalTask × TaskEventType) := do
  refuse (task.status ∉ allowed) (.validation "action"
    ("A " ++ task.status.value ++ " task cannot be " ++ type.value ++ "."))
  .ok (attributes, type)

def unfinished : List TaskStatus := [.todo, .inProgress, .blocked, .failed]

def transitionAttributes (task : OperationalTask) (action : String) (data : TransitionData)
    (now : ℤ) : Except Failure (OperationalTask × TaskEventType) :=
  match action with
  | "assign" => onlyFrom task unfinished { task with assigneeId := data.assigneeId } .assigned
  | "start" => onlyFrom task [.todo, .blocked]
      { task with startedAt := some now, status := .inProgress } .started
  | "complete" => onlyFrom task [.todo, .inProgress, .blocked]
      { task with completedAt := some now, failureReason := none, status := .done } .completed
  | "fail" => do
    let reason ← requiredReason data
    onlyFrom task [.todo, .inProgress, .blocked]
      { task with failedAt := some now, failureReason := some reason, status := .failed } .failed
  | "reopen" => onlyFrom task [.done, .failed, .cancelled]
      { task with
        completedAt := none
        reopenedAt := some now
        cancellationReason := none
        status := .todo } .reopened
  | "escalate" => do
    let reason ← requiredReason data
    onlyFrom task unfinished
      { task with
        escalatedAt := some now
        escalationReason := some reason
        priority := "urgent"
        status := .blocked } .escalated
  | "cancel" => do
    let reason ← requiredReason data
    onlyFrom task unfinished
      { task with cancellationReason := some reason, status := .cancelled } .cancelled
  | _ => .error (.validation "action" "Unsupported task lifecycle action.")

def assertAssignable (s : TaskBoard) (task : OperationalTask) (action : String)
    (data : TransitionData) : Except Failure Unit :=
  if action = "assign" then assertEligible s task (data.assigneeId.getD 0) else .ok ()

def assertReopenable (s : TaskBoard) (task : OperationalTask) (action : String)
    (data : TransitionData) (actorId : Option ℕ) : Except Failure Unit :=
  if action = "reopen" then assertReservationMayReopenTask s task data actorId else .ok ()

def assertTransition (s : TaskBoard) (task : OperationalTask) (action : String)
    (data : TransitionData) (actorId : Option ℕ) :
    Except Failure (OperationalTask × TaskEventType) := do
  assertActorMayManage s task actorId
  refuse (data.expectedRevision.getD 0 ≠ task.revision) (.validation "expected_revision"
    "This task changed. Refresh and retry the action.")
  assertAssignable s task action data
  assertReopenable s task action data actorId
  transitionAttributes task action data s.db.clock

def bumped (task : OperationalTask) : OperationalTask := { task with revision := task.revision + 1 }

def lockedTask (taskId : ℕ) : TaskTx OperationalTask := do
  let s ← get
  orFail (s.tasks.find? taskId) .modelNotFound

def transition (taskId : ℕ) (action : String) (data : TransitionData) (actorId : Option ℕ) :
    TaskTx OperationalTask := do
  let task ← lockedTask taskId
  let outcome ← check fun s => assertTransition s task action data actorId
  save (bumped outcome.1)
  event (bumped outcome.1) outcome.2 task.status outcome.1.status data.reason actorId
  pure (bumped outcome.1)

end Transition

section Details

structure DetailsData where
  expectedRevision : Option ℕ := none
  title : Option String := none
  description : Option (Option String) := none
  priority : Option String := none
  dueAt : Option (Option ℤ) := none
  metadata : Option TaskMetadata := none

def detailsOf (task : OperationalTask) : TaskDetails where
  title := task.title
  description := task.description
  priority := task.priority
  dueAt := task.dueAt
  metadata := task.metadata

def filled (data : DetailsData) (task : OperationalTask) : OperationalTask :=
  { task with
    title := data.title.getD task.title
    description := data.description.getD task.description
    priority := data.priority.getD task.priority
    dueAt := data.dueAt.getD task.dueAt
    metadata := data.metadata.getD task.metadata }

def updateDetails (taskId : ℕ) (data : DetailsData) (actorId : Option ℕ) :
    TaskTx OperationalTask := do
  let task ← lockedTask taskId
  check fun s => assertActorMayManage s task actorId
  reject (data.expectedRevision.getD 0 ≠ task.revision) (.validation "expected_revision"
    "This task changed. Refresh and retry the update.")
  let updated := bumped (filled data task)
  save updated
  createEvent ⟨task.id, actorId, .detailsUpdated, task.status, task.status, none,
    .details updated.revision (detailsOf task)⟩
  pure updated

end Details

section Reservations

def cancelledFor (reason : String) (task : OperationalTask) : OperationalTask :=
  bumped { task with status := .cancelled, cancellationReason := some reason }

def cancelTask (reason : String) (actorId : Option ℕ) (task : OperationalTask) : TaskTx Unit := do
  save (cancelledFor reason task)
  event (cancelledFor reason task) .cancelled task.status .cancelled (some reason) actorId

def cancelOpenForReservation (reservationId : ℕ) (reason : String) (actorId : Option ℕ) :
    TaskTx ℕ := do
  let s ← get
  let tasks := s.tasks.select fun t =>
    t.reservationId == some reservationId && unfinished.contains t.status
  tasks.forM (cancelTask reason actorId)
  pure tasks.length

def untouched (t : OperationalTask) : Bool :=
  t.status == .todo && t.startedAt.isNone && t.failedAt.isNone && t.escalatedAt.isNone

def rescheduledBy (seconds : ℤ) (task : OperationalTask) : OperationalTask :=
  bumped { task with dueAt := task.dueAt.map fun due => due + seconds }

def rescheduleTask (seconds : ℤ) (actorId : Option ℕ) (task : OperationalTask) : TaskTx Unit := do
  save (rescheduledBy seconds task)
  event (rescheduledBy seconds task) .rescheduled task.status task.status
    (some "Reservation arrival changed.") actorId

def rebasePendingForReservation (reservationId : ℕ) (oldStart newStart : ℤ)
    (actorId : Option ℕ) : TaskTx ℕ := do
  let seconds := newStart - oldStart
  if seconds = 0 then pure 0
  else do
    let s ← get
    let tasks := s.tasks.select fun t => t.reservationId == some reservationId &&
      t.checklistTemplateVersionId.isSome && untouched t
    tasks.forM (rescheduleTask seconds actorId)
    pure tasks.length

end Reservations
end Tasks.TaskLifecycleService
