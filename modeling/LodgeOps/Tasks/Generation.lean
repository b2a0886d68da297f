import LodgeOps.Booking.ProvisionedDeposits
import LodgeOps.Tasks.History

namespace Tasks
open Schema Transaction TaskLifecycleService

def onDb {α : Type} (x : Tx α) : TaskTx α := zoom TaskBoard.db TaskBoard.withDb x

def createTask (mk : ℕ → OperationalTask) (hk : Names mk) : TaskTx Unit := modify fun s => { s with
  tasks := s.tasks.insert mk hk }

namespace ReservationConfirmationProvisioner

def assigneeFor (s : TaskBoard) (r : Reservation) (template : ProgramTaskTemplate) : Option ℕ :=
  template.assigneeRole.bind fun role =>
    let members := s.memberships.filter fun m =>
      m.role == role && m.isActive && inProperty m r.propertyId
    ((members.find? fun m => m.propertyId.isSome).or members.head?).map Membership.userId

def taskTemplates (s : TaskBoard) (r : Reservation) : List ProgramTaskTemplate :=
  match ProgramRequirement.program? s.db r with
  | none => []
  | some program => s.programTaskTemplates.select fun template =>
      template.programId == program.id && template.isActive

def templateTask (r : Reservation) (template : ProgramTaskTemplate) (assigneeId : Option ℕ) (i : ℕ) :
    OperationalTask where
  id := i
  propertyId := r.propertyId
  reservationId := some r.id
  programTaskTemplateId := some template.id
  assigneeId := assigneeId
  title := template.title
  description := template.description
  priority := template.priority
  dueAt := some (r.startsAt + 60 * template.dueOffsetMinutes)
  metadata := { generatedFrom := some "program_task_template" }

theorem names_templateTask (r : Reservation) (template : ProgramTaskTemplate)
    (assigneeId : Option ℕ) : Names (templateTask r template assigneeId) := fun _ => rfl

def hasTask (s : TaskBoard) (r : Reservation) (template : ProgramTaskTemplate) : Bool :=
  (s.tasks.first? fun t => t.reservationId == some r.id &&
    t.programTaskTemplateId == some template.id).isSome

def firstOrCreateTask (r : Reservation) (template : ProgramTaskTemplate) : TaskTx Unit := do
  let s ← get
  if hasTask s r template then pure ()
  else createTask (templateTask r template (assigneeFor s r template)) (names_templateTask _ _ _)

def tasks (r : Reservation) : TaskTx Unit := do
  let s ← get
  (taskTemplates s r).forM (firstOrCreateTask r)

end ReservationConfirmationProvisioner

-- The provisioner makes the tasks between the service occurrence and the deposits.
def confirm (reservationId : ℕ) : TaskTx Unit := do
  onDb (ReservationService.confirm reservationId)
  let s ← get
  let r ← orFail (s.db.reservation? reservationId) .modelNotFound
  ReservationConfirmationProvisioner.tasks r

def amend (reservationId : ℕ) (input : BookingQuoteService.BookingInput) (actorId : Option ℕ) :
    TaskTx Unit := do
  let s ← get
  let before ← orFail (s.db.reservation? reservationId) .modelNotFound
  let locked ← onDb (AmendReservation.handle reservationId input actorId)
  let _ ← rebasePendingForReservation before.id before.startsAt locked.startsAt actorId
  pure ()

namespace ChecklistWorkflowService

section Exceptions

def exceptionsOf (s : TaskBoard) (reservationId : ℕ) : List ReservationChecklistException :=
  s.exceptions.select fun e => e.reservationId == reservationId

def excluded (s : TaskBoard) (reservationId : ℕ) : List ℕ :=
  ((exceptionsOf s reservationId).filter fun e => e.operation == .remove).filterMap
    ReservationChecklistException.checklistTemplateItemId

def isOverride (itemId : ℕ) (e : ReservationChecklistException) : Bool :=
  (e.operation == .edit || e.operation == .reorder) && e.checklistTemplateItemId == some itemId

-- `keyBy` leaves the last exception of an item.
def override? (s : TaskBoard) (reservationId itemId : ℕ) : Option ReservationChecklistException :=
  ((exceptionsOf s reservationId).filter (isOverride itemId)).getLast?

def additions (s : TaskBoard) (reservationId : ℕ) : List ReservationChecklistException :=
  (exceptionsOf s reservationId).filter fun e => e.operation == .add

def itemsOf (s : TaskBoard) (versionId : ℕ) : List ChecklistTemplateItem :=
  (s.checklistItems.select fun i => i.checklistTemplateVersionId == versionId).insertionSort
    fun i j => i.sortOrder ≤ j.sortOrder

def filledOr (value : Option String) (fallback : String) : String :=
  (value.filter fun v => v != "" && v != "0").getD fallback

def dueOffset (override : Option ReservationChecklistException) (item : ChecklistTemplateItem) : ℤ :=
  (override.bind ReservationChecklistException.dueOffsetMinutes).getD item.dueOffsetMinutes

end Exceptions

section Generate

-- The version that is generated, for whom and as which generation.
structure Sheet where
  r : Reservation
  version : ChecklistTemplateVersion
  template : ChecklistTemplate
  generation : ℕ

def itemTask (sheet : Sheet) (override : Option ReservationChecklistException)
    (item : ChecklistTemplateItem) (i : ℕ) : OperationalTask where
  id := i
  propertyId := sheet.r.propertyId
  reservationId := some sheet.r.id
  checklistTemplateVersionId := some sheet.version.id
  checklistTemplateItemId := some item.id
  title := filledOr (override.bind ReservationChecklistException.title) item.title
  description := (override.bind ReservationChecklistException.description).or item.description
  priority := filledOr (override.bind ReservationChecklistException.priority) item.priority
  dueAt := some (sheet.r.startsAt + 60 * dueOffset override item)
  generation := sheet.generation
  metadata := {
    checklistRole := some sheet.template.role
    sortOrder := some ((override.map ReservationChecklistException.sortOrder).getD item.sortOrder) }

-- An added exception is saved with a title.
def addedTask (sheet : Sheet) (e : ReservationChecklistException) (i : ℕ) : OperationalTask where
  id := i
  propertyId := sheet.r.propertyId
  reservationId := some sheet.r.id
  checklistTemplateVersionId := some sheet.version.id
  reservationChecklistExceptionId := some e.id
  title := e.title.getD ""
  description := e.description
  priority := e.priority.getD "normal"
  dueAt := some (sheet.r.startsAt + 60 * e.dueOffsetMinutes.getD 0)
  generation := sheet.generation
  metadata := { checklistRole := some sheet.template.role, sortOrder := some e.sortOrder }

theorem names_itemTask (sheet : Sheet) (override : Option ReservationChecklistException)
    (item : ChecklistTemplateItem) : Names (itemTask sheet override item) := fun _ => rfl

theorem names_addedTask (sheet : Sheet) (e : ReservationChecklistException) :
    Names (addedTask sheet e) := fun _ => rfl

def assertApplicable (r : Reservation) (template : ChecklistTemplate) : Except Failure Unit :=
  refuse (template.propertyId ≠ r.propertyId ∨
      template.programId.any (fun i => r.programId != some i) = true)
    (.validation "version_id" "The checklist version does not apply to this reservation.")

def nextGeneration (s : TaskBoard) (reservationId : ℕ) : ℕ :=
  ((s.tasks.select fun t => t.reservationId == some reservationId).map
    OperationalTask.generation).foldr max 0 + 1

def inLineage (s : TaskBoard) (version : ChecklistTemplateVersion) (t : OperationalTask) : Bool :=
  (t.checklistTemplateVersionId.bind s.checklistVersions.find?).any fun v =>
    v.checklistTemplateId == version.checklistTemplateId

def isPrevious (s : TaskBoard) (sheet : Sheet) (t : OperationalTask) : Bool :=
  t.reservationId == some sheet.r.id && inLineage s sheet.version t &&
    t.metadata.checklistRole == some sheet.template.role && untouched t

def superseded (now : ℤ) (task : OperationalTask) : OperationalTask :=
  bumped { task with status := .superseded, supersededAt := some now }

def supersedeTask (now : ℤ) (actorId : Option ℕ) (task : OperationalTask) : TaskTx Unit := do
  save (superseded now task)
  createEvent ⟨task.id, actorId, .superseded, task.status, .superseded,
    some "Checklist regenerated from a newer published version.", .generation task.generation⟩

def keptItems (s : TaskBoard) (sheet : Sheet) : List ChecklistTemplateItem :=
  (itemsOf s sheet.version.id).filter fun item => !(excluded s sheet.r.id).contains item.id

def sheetFor (s : TaskBoard) (reservationId versionId : ℕ) : Except Failure Sheet := do
  let r ← found (s.db.reservation? reservationId) .modelNotFound
  refuse (terminal r.status = true) (.validation "reservation"
    "A terminal reservation cannot generate or regenerate operational checklist tasks.")
  let version ← found ((s.checklistVersions.find? versionId).filter fun v => v.published)
    .modelNotFound
  let template ← found (s.checklistTemplates.find? version.checklistTemplateId) .modelNotFound
  assertApplicable r template
  .ok ⟨r, version, template, nextGeneration s r.id⟩

structure GenerationResult where
  created : ℕ
  superseded : ℕ
  generation : ℕ

def generate (reservationId versionId : ℕ) (actorId : Option ℕ) : TaskTx GenerationResult := do
  let s ← get
  let sheet ← check fun s => sheetFor s reservationId versionId
  let previous := s.tasks.select (isPrevious s sheet)
  previous.forM (supersedeTask s.db.clock actorId)
  (keptItems s sheet).forM fun item =>
    createTask (itemTask sheet (override? s sheet.r.id item.id) item) (names_itemTask _ _ _)
  (additions s sheet.r.id).forM fun e => createTask (addedTask sheet e) (names_addedTask _ _)
  pure ⟨(keptItems s sheet).length + (additions s sheet.r.id).length, previous.length,
    sheet.generation⟩

end Generate
end ChecklistWorkflowService

section Creation
variable {α : Type} {s s' t u : TaskBoard} {news more : List OperationalTask} {task : OperationalTask}
variable {mk : α → ℕ → OperationalTask} {xs : List α} {n : ℕ}

-- What the staff write beside the tasks and their events.
def TaskBoard.plan (s : TaskBoard) : TaskBoard := { s with tasks := .empty, events := .empty }

def numbered (mk : α → ℕ → OperationalTask) : ℕ → List α → List OperationalTask
  | _, [] => []
  | n, x :: xs => mk x n :: numbered mk (n + 1) xs

theorem mem_numbered (h : task ∈ numbered mk n xs) : ∃ x ∈ xs, ∃ k, n ≤ k ∧ task = mk x k := by
  induction xs generalizing n with
  | nil => simp [numbered] at h
  | cons x xs ih =>
    rcases List.mem_cons.mp h with rfl | h
    · exact ⟨x, List.mem_cons_self, n, le_rfl, rfl⟩
    · obtain ⟨y, hy, k, hk, rfl⟩ := ih h
      exact ⟨y, List.mem_cons_of_mem x hy, k, by omega, rfl⟩

@[simp] theorem length_numbered : (numbered mk n xs).length = xs.length := by
  induction xs generalizing n with
  | nil => rfl
  | cons x xs ih => simp [numbered, ih]

structure Creates (s s' : TaskBoard) (news : List OperationalTask) : Prop where
  plan : s'.plan = s.plan
  events : s'.events = s.events
  rows : s'.tasks.rows = s.tasks.rows ++ news
  next : s'.tasks.next = s.tasks.next + news.length
  fresh : ∀ task ∈ news, s.tasks.next ≤ task.id

theorem Creates.trans (h : Creates s t news) (h' : Creates t u more) :
    Creates s u (news ++ more) where
  plan := h'.plan.trans h.plan
  events := h'.events.trans h.events
  rows := by rw [h'.rows, h.rows, List.append_assoc]
  next := by rw [h'.next, h.next, List.length_append, Nat.add_assoc]
  fresh task ht := by
    rcases List.mem_append.mp ht with ht | ht
    · exact h.fresh task ht
    · have hle := h'.fresh task ht
      rw [h.next] at hle
      omega

theorem creates_createTask {mk : ℕ → OperationalTask} {hk : Names mk}
    (h : Commits (createTask mk hk) s () s') : Creates s s' [mk s.tasks.next] := by
  simp only [createTask, commits_modify] at h
  subst h
  exact ⟨rfl, rfl, rfl, rfl, fun _ ht => List.mem_singleton.mp ht ▸ (hk _).ge⟩

theorem creates_forM {hk : ∀ x, Names (mk x)}
    (h : Commits (xs.forM fun x => createTask (mk x) (hk x)) s () s') :
    Creates s s' (numbered mk s.tasks.next xs) := by
  induction xs generalizing s with
  | nil =>
    obtain rfl := commits_forM_nil.mp h
    exact ⟨rfl, rfl, (List.append_nil _).symm, rfl, by simp [numbered]⟩
  | cons x xs ih =>
    obtain ⟨t, hx, hrest⟩ := commits_forM_cons.mp h
    have hcreated := creates_createTask hx
    have hrest := ih hrest
    rw [show t.tasks.next = s.tasks.next + 1 from hcreated.next] at hrest
    exact hcreated.trans hrest

end Creation

namespace ChecklistWorkflowService
variable {s s' : TaskBoard} {i v : ℕ} {actor : Option ℕ} {sheet : Sheet}
variable {result : GenerationResult}

def itemTasks (s : TaskBoard) (sheet : Sheet) (n : ℕ) : List OperationalTask :=
  numbered (fun item => itemTask sheet (override? s sheet.r.id item.id) item) n (keptItems s sheet)

def addedTasks (s : TaskBoard) (sheet : Sheet) (n : ℕ) : List OperationalTask :=
  numbered (addedTask sheet) n (additions s sheet.r.id)

def previousTasks (s : TaskBoard) (sheet : Sheet) : List OperationalTask :=
  s.tasks.select (isPrevious s sheet)

-- The earlier tasks of the template are superseded, and the items and additions get new ones.
structure Generates (s s' : TaskBoard) (sheet : Sheet) : Prop where
  found : s.db.reservation? sheet.r.id = some sheet.r
  version : s.checklistVersions.find? sheet.version.id = some sheet.version
  template : s.checklistTemplates.find? sheet.version.checklistTemplateId = some sheet.template
  writes : ∃ t, t.plan = s.plan ∧
    Rewrites s t (previousTasks s sheet) (superseded s.db.clock) .superseded ∧
    Creates t s' (itemTasks s sheet s.tasks.next ++
      addedTasks s sheet (s.tasks.next + (keptItems s sheet).length))

theorem commits_sheetFor (h : sheetFor s i v = .ok sheet) :
    s.db.reservation? i = some sheet.r ∧ s.checklistVersions.find? v = some sheet.version ∧
      s.checklistTemplates.find? sheet.version.checklistTemplateId = some sheet.template ∧
      sheet.generation = nextGeneration s sheet.r.id := by
  simp only [sheetFor, bind_eq_ok, found_eq_ok, refuse_eq_ok, Option.filter_eq_some_iff] at h
  obtain ⟨r, hr, _, _, version, ⟨hv, _⟩, template, ht, _, _, h⟩ := h
  obtain rfl := Except.ok.inj h
  exact ⟨hr, hv, ht, rfl⟩

theorem plan_supersedeTask {now : ℤ} {task : OperationalTask}
    (h : Commits (supersedeTask now actor task) s () s') : s'.plan = s.plan := by
  simp only [supersedeTask, save, createEvent, commits_bind, commits_modify] at h
  obtain ⟨_, _, rfl, rfl⟩ := h
  rfl

theorem rewrites_superseded {now : ℤ} {p : OperationalTask → Bool}
    (hp : ∀ task, p task = true → untouched task = true)
    (h : Commits ((s.tasks.select p).forM (supersedeTask now actor)) s () s') :
    Rewrites s s' (s.tasks.select p) (superseded now) .superseded := by
  refine rewrites_select (fun task hopen a b hm hc => ?_) h
  have htodo := todo_of_untouched (hp task hopen)
  have hperm : permits .superseded task.status .superseded = true := by
    rw [htodo]
    rfl
  simp only [supersedeTask, commits_bind] at hc
  obtain ⟨_, c, hsave, hevent⟩ := hc
  exact records_of_commits task (superseded now task) hm rfl rfl rfl rfl hperm rfl hsave hevent

theorem commits_generate (h : Commits (generate i v actor) s result s') :
    ∃ sheet, sheetFor s i v = .ok sheet ∧ Generates s s' sheet := by
  simp only [generate, commits_bind, commits_get, commits_check, commits_pure] at h
  obtain ⟨_, _, ⟨rfl, rfl⟩, sheet, _, ⟨hsheet, rfl⟩, _, t, hold, _, u, hitems, _, w, hadded, _,
    rfl⟩ := h
  have hrewrites : Rewrites s t (previousTasks s sheet) (superseded s.db.clock) .superseded := by
    refine rewrites_superseded (fun task hp => ?_) hold
    simp only [isPrevious, Bool.and_eq_true] at hp
    exact hp.2
  have hplan : t.plan = s.plan := forM_invariant (I := fun u => u.plan = s.plan)
    (fun _ _ _ _ hu hc => (plan_supersedeTask hc).trans hu) rfl hold
  have hitems := creates_forM hitems
  have hadded := creates_forM hadded
  rw [hitems.next, length_numbered, hrewrites.next] at hadded
  rw [hrewrites.next] at hitems
  obtain ⟨hr, hv, ht, _⟩ := commits_sheetFor hsheet
  have hrid : sheet.r.id = i := Folio.reservation_id_eq hr
  have hvid : sheet.version.id = v := (Table.find?_eq_some.mp hv).2
  exact ⟨sheet, hsheet, hrid ▸ hr, hvid ▸ hv, ht, t, hplan, hrewrites, hitems.trans hadded⟩

end ChecklistWorkflowService
end Tasks
