import LodgeOps.Schema.CashDesk

namespace Tasks
open Schema Transaction

inductive TaskStatus
  | todo | inProgress | blocked | failed | done | cancelled | superseded
deriving DecidableEq

def TaskStatus.value : TaskStatus → String
  | todo => "todo"
  | inProgress => "in_progress"
  | blocked => "blocked"
  | failed => "failed"
  | done => "done"
  | cancelled => "cancelled"
  | superseded => "superseded"

inductive TaskEventType
  | created | assigned | started | completed | failed | reopened | escalated | cancelled
  | detailsUpdated | rescheduled | superseded
deriving DecidableEq

def TaskEventType.value : TaskEventType → String
  | created => "created"
  | assigned => "assigned"
  | started => "started"
  | completed => "completed"
  | failed => "failed"
  | reopened => "reopened"
  | escalated => "escalated"
  | cancelled => "cancelled"
  | detailsUpdated => "details_updated"
  | rescheduled => "rescheduled"
  | superseded => "superseded"

structure TaskMetadata where
  checklistRole : Option String := none
  assigneeRole : Option String := none
  role : Option String := none
  team : Option String := none
  sortOrder : Option ℕ := none
  generatedFrom : Option String := none
deriving DecidableEq

structure OperationalTask where
  id : ℕ
  propertyId : ℕ
  reservationId : Option ℕ
  programTaskTemplateId : Option ℕ := none
  checklistTemplateVersionId : Option ℕ := none
  checklistTemplateItemId : Option ℕ := none
  reservationChecklistExceptionId : Option ℕ := none
  assigneeId : Option ℕ := none
  title : String
  description : Option String
  status : TaskStatus := .todo
  priority : String
  dueAt : Option ℤ
  generation : ℕ := 1
  revision : ℕ := 1
  startedAt : Option ℤ := none
  completedAt : Option ℤ := none
  failedAt : Option ℤ := none
  failureReason : Option String := none
  reopenedAt : Option ℤ := none
  escalatedAt : Option ℤ := none
  escalationReason : Option String := none
  supersededAt : Option ℤ := none
  cancellationReason : Option String := none
  metadata : TaskMetadata := {}
deriving DecidableEq

structure TaskDetails where
  title : String
  description : Option String
  priority : String
  dueAt : Option ℤ
  metadata : TaskMetadata
deriving DecidableEq

inductive EventSnapshot
  | lifecycle (revision : ℕ) (priority : String) (assigneeId : Option ℕ)
  | details (revision : ℕ) (before : TaskDetails)
  | generation (generation : ℕ)
deriving DecidableEq

structure OperationalTaskEvent where
  id : ℕ
  operationalTaskId : ℕ
  actorId : Option ℕ
  type : TaskEventType
  fromStatus : TaskStatus
  toStatus : TaskStatus
  reason : Option String := none
  snapshot : EventSnapshot
  occurredAt : ℤ
deriving DecidableEq

structure ProgramTaskTemplate where
  id : ℕ
  programId : ℕ
  title : String
  description : Option String := none
  assigneeRole : Option MembershipRole := none
  priority : String := "normal"
  dueOffsetMinutes : ℤ := 0
  isActive : Bool := true
deriving DecidableEq

structure ChecklistTemplate where
  id : ℕ
  propertyId : ℕ
  programId : Option ℕ := none
  role : String
deriving DecidableEq

structure ChecklistTemplateVersion where
  id : ℕ
  checklistTemplateId : ℕ
  published : Bool := true
deriving DecidableEq

structure ChecklistTemplateItem where
  id : ℕ
  checklistTemplateVersionId : ℕ
  title : String
  description : Option String := none
  priority : String := "normal"
  dueOffsetMinutes : ℤ := 0
  sortOrder : ℕ := 0
deriving DecidableEq

inductive ExceptionOperation
  | add | edit | remove | reorder
deriving DecidableEq

structure ReservationChecklistException where
  id : ℕ
  reservationId : ℕ
  checklistTemplateItemId : Option ℕ := none
  operation : ExceptionOperation
  title : Option String := none
  description : Option String := none
  priority : Option String := none
  dueOffsetMinutes : Option ℤ := none
  sortOrder : ℕ := 0
deriving DecidableEq

instance : Keyed OperationalTask := ⟨OperationalTask.id⟩
instance : Keyed OperationalTaskEvent := ⟨OperationalTaskEvent.id⟩
instance : Keyed ProgramTaskTemplate := ⟨ProgramTaskTemplate.id⟩
instance : Keyed ChecklistTemplate := ⟨ChecklistTemplate.id⟩
instance : Keyed ChecklistTemplateVersion := ⟨ChecklistTemplateVersion.id⟩
instance : Keyed ChecklistTemplateItem := ⟨ChecklistTemplateItem.id⟩
instance : Keyed ReservationChecklistException := ⟨ReservationChecklistException.id⟩

-- The tenant's books, and beside them the tasks of its staff.
structure TaskBoard where
  db : Database
  memberships : List Membership := []
  tasks : Table OperationalTask := .empty
  events : Table OperationalTaskEvent := .empty
  programTaskTemplates : Table ProgramTaskTemplate := .empty
  checklistTemplates : Table ChecklistTemplate := .empty
  checklistVersions : Table ChecklistTemplateVersion := .empty
  checklistItems : Table ChecklistTemplateItem := .empty
  exceptions : Table ReservationChecklistException := .empty

def TaskBoard.withDb (s : TaskBoard) (db : Database) : TaskBoard := { s with db := db }

def TaskBoard.eventsOf (s : TaskBoard) (taskId : ℕ) : List OperationalTaskEvent :=
  s.events.select fun e => e.operationalTaskId == taskId

abbrev TaskTx (α : Type) := Transaction Failure TaskBoard α

section Roles

def roleValue : MembershipRole → String
  | .administrator => "administrator"
  | .owner => "owner"
  | .manager => "manager"
  | .sales => "sales"
  | .operations => "operations"
  | .guide => "guide"
  | .kitchen => "kitchen"
  | .housekeeping => "housekeeping"
  | .finance => "finance"
  | .viewer => "viewer"

def canScheduleOperations : MembershipRole → Bool
  | .administrator | .manager | .operations => true
  | _ => false

def canManageOperations : MembershipRole → Bool
  | .administrator | .manager | .operations | .guide | .kitchen | .housekeeping => true
  | _ => false

def activeMembership? (s : TaskBoard) (userId : ℕ) : Option Membership :=
  s.memberships.find? fun m => m.userId == userId && m.isActive

def outsideProperty (m : Membership) (propertyId : ℕ) : Bool :=
  m.propertyId.any fun i => i != propertyId

def inProperty (m : Membership) (propertyId : ℕ) : Bool :=
  m.propertyId.all fun i => i == propertyId

end Roles

section Assignees

def templateOf (s : TaskBoard) (t : OperationalTask) : Option ProgramTaskTemplate :=
  t.programTaskTemplateId.bind s.programTaskTemplates.find?

def requiredRole (s : TaskBoard) (t : OperationalTask) : Option String :=
  let role := (((((templateOf s t).bind ProgramTaskTemplate.assigneeRole).map roleValue).or
    t.metadata.checklistRole).or t.metadata.assigneeRole).or t.metadata.role
  ((role.or t.metadata.team).map fun r => (trim r).toLower).filter fun r => r != ""

def roleMatches (actual : MembershipRole) (required : String) : Bool :=
  canScheduleOperations actual ||
    if required == "guide" then actual == .guide
    else if required == "kitchen" then actual == .kitchen
    else if required == "housekeeping" then actual == .housekeeping
    else if required == "operations" then false
    else roleValue actual == required

def assertEligible (s : TaskBoard) (t : OperationalTask) (assigneeId : ℕ) :
    Except Failure Unit := do
  let membership ← found (s.memberships.find? fun m =>
      m.userId == assigneeId && m.isActive && inProperty m t.propertyId)
    (.validation "assignee_id" "The assignee must have an active membership for this property.")
  match requiredRole s t with
  | none => .ok ()
  | some required =>
    refuse (roleMatches membership.role required = false) (.validation "assignee_id"
      ("This task requires an active " ++ required ++
        " assignee at the reservation property."))

def allows (s : TaskBoard) (m : Membership) (t : OperationalTask) : Bool :=
  if canScheduleOperations m.role || t.assigneeId == some m.userId then true
  else if t.assigneeId.isSome then false
  else ((templateOf s t).bind ProgramTaskTemplate.assigneeRole) == some m.role ||
    [t.metadata.assigneeRole, t.metadata.role, t.metadata.team].contains (some (roleValue m.role))

end Assignees
end Tasks
