import LodgeOps.Tasks.Anchoring

namespace Tasks.Regeneration
open Schema Transaction TaskLifecycleService ChecklistWorkflowService

section Purposes
variable {s s' : TaskBoard} {task x y : OperationalTask} {sheet : Sheet} {i v k n : ℕ}
variable {item : ChecklistTemplateItem} {e : ReservationChecklistException}

-- The template item or the added exception that a task was made for.
def purpose (task : OperationalTask) : Option (ℕ ⊕ ℕ) :=
  (task.checklistTemplateItemId.map Sum.inl).or
    (task.reservationChecklistExceptionId.map Sum.inr)

def newTasks (s : TaskBoard) (sheet : Sheet) : List OperationalTask :=
  itemTasks s sheet s.tasks.next ++
    addedTasks s sheet (s.tasks.next + (keptItems s sheet).length)

theorem map_numbered {α β : Type} {mk : α → ℕ → OperationalTask} {f : OperationalTask → β}
    (key : α → β) (hf : ∀ x k, f (mk x k) = key x) (xs : List α) :
    (numbered mk n xs).map f = xs.map key := by
  induction xs generalizing n with
  | nil => rfl
  | cons x xs ih => simp only [numbered, List.map_cons, hf, ih]

theorem mem_keptItems (h : item ∈ keptItems s sheet) :
    item ∈ s.checklistItems.rows ∧ item.checklistTemplateVersionId = sheet.version.id ∧
      item.id ∉ excluded s sheet.r.id := by
  obtain ⟨hm, hkept⟩ := List.mem_filter.mp h
  obtain ⟨hm, hv⟩ := Table.mem_select.mp ((List.mem_insertionSort _).mp hm)
  exact ⟨hm, beq_iff_eq.mp hv, by simpa using hkept⟩

theorem nodup_keptItems : ((keptItems s sheet).map ChecklistTemplateItem.id).Nodup := by
  have hitems : ((itemsOf s sheet.version.id).map ChecklistTemplateItem.id).Nodup := by
    refine ((List.perm_insertionSort _ _).map _).nodup_iff.mpr ?_
    exact s.checklistItems.nodup.sublist (List.filter_sublist.map _)
  exact hitems.sublist (List.filter_sublist.map _)

theorem nodup_additions : ((additions s i).map ReservationChecklistException.id).Nodup :=
  s.exceptions.nodup.sublist ((List.filter_sublist.trans List.filter_sublist).map _)

-- One generation makes one task for each item and each addition.
theorem nodup_newTasks : ((newTasks s sheet).map purpose).Nodup := by
  have hitems : (itemTasks s sheet s.tasks.next).map purpose =
      ((keptItems s sheet).map ChecklistTemplateItem.id).map fun k => some (Sum.inl k) := by
    rw [itemTasks, map_numbered (fun item => some (Sum.inl item.id)) fun _ _ => rfl,
      List.map_map]
    rfl
  have hadded : (addedTasks s sheet (s.tasks.next + (keptItems s sheet).length)).map purpose =
      ((additions s sheet.r.id).map ReservationChecklistException.id).map
        fun k => some (Sum.inr k) := by
    rw [addedTasks, map_numbered (fun e => some (Sum.inr e.id)) fun _ _ => rfl,
      List.map_map]
    rfl
  rw [newTasks, List.map_append, hitems, hadded]
  refine List.nodup_append.mpr ⟨?_, ?_, ?_⟩
  · exact nodup_keptItems.map fun a b h => Sum.inl.inj (Option.some.inj h)
  · exact nodup_additions.map fun a b h => Sum.inr.inj (Option.some.inj h)
  · intro a ha b hb hab
    obtain ⟨_, _, rfl⟩ := List.mem_map.mp ha
    obtain ⟨_, _, rfl⟩ := List.mem_map.mp hb
    cases hab

theorem mem_newTasks (h : x ∈ newTasks s sheet) :
    (∃ item ∈ keptItems s sheet, ∃ k,
      x = itemTask sheet (override? s sheet.r.id item.id) item k) ∨
    ∃ e ∈ additions s sheet.r.id, ∃ k, x = addedTask sheet e k := by
  rcases List.mem_append.mp h with h | h
  · obtain ⟨item, hm, k, _, rfl⟩ := mem_numbered h
    exact Or.inl ⟨item, hm, k, rfl⟩
  · obtain ⟨e, hm, k, _, rfl⟩ := mem_numbered h
    exact Or.inr ⟨e, hm, k, rfl⟩

-- What is untouched after a generation was not superseded by it, or is new.
theorem old_or_new (h : Generates s s' sheet) (hx : x ∈ s'.tasks.rows)
    (hu : untouched x = true) :
    (x ∈ s.tasks.rows ∧ isPrevious s sheet x = false) ∨ x ∈ newTasks s sheet := by
  obtain ⟨t, _, hrewrites, hcreates⟩ := h.writes
  rw [hcreates.rows, hrewrites.rows] at hx
  refine (List.mem_append.mp hx).imp_left fun hx => ?_
  obtain ⟨old, hrow, rfl⟩ := List.mem_map.mp hx
  by_cases hold : old ∈ previousTasks s sheet
  · rw [if_pos hold] at hu
    have hstatus := todo_of_untouched hu
    cases hstatus
  · rw [if_neg hold] at hu ⊢
    refine ⟨hrow, Bool.eq_false_iff.mpr fun hp => hold ?_⟩
    exact Table.mem_select.mpr ⟨hrow, hp⟩

theorem plan_generates (h : Generates s s' sheet) : s'.plan = s.plan := by
  obtain ⟨t, hplan, _, hcreates⟩ := h.writes
  exact hcreates.plan.trans hplan

end Purposes

section Overrides
variable {s : TaskBoard} {i k : ℕ} {e o w : ReservationChecklistException}

def isEdit (itemId : ℕ) (e : ReservationChecklistException) : Bool :=
  e.operation == .edit && e.checklistTemplateItemId == some itemId

def isReorder (itemId : ℕ) (e : ReservationChecklistException) : Bool :=
  e.operation == .reorder && e.checklistTemplateItemId == some itemId

def edit? (s : TaskBoard) (reservationId itemId : ℕ) : Option ReservationChecklistException :=
  ((exceptionsOf s reservationId).filter (isEdit itemId)).getLast?

def reorder? (s : TaskBoard) (reservationId itemId : ℕ) : Option ReservationChecklistException :=
  ((exceptionsOf s reservationId).filter (isReorder itemId)).getLast?

theorem getLast?_filter {α : Type} (p : α → Bool) (xs : List α) :
    (xs.filter p).getLast? = xs.reverse.find? p := by
  rw [← List.head?_reverse, ← List.filter_reverse, List.head?_filter]

-- The last entry that has one of two properties is the last that has the one it has.
theorem find?_of_find?_or {α : Type} {p q : α → Bool} {xs : List α} {w : α}
    (h : xs.find? (fun x => p x || q x) = some w) (hp : p w = true) : xs.find? p = some w := by
  induction xs with
  | nil => cases h
  | cons x xs ih =>
    rw [List.find?_cons] at h ⊢
    cases hx : p x with
    | true => simpa [hx] using h
    | false =>
      cases hq : q x with
      | true =>
        obtain rfl : x = w := by simpa [hx, hq] using h
        rw [hp] at hx
        cases hx
      | false => exact ih (by simpa [hx, hq] using h)

-- `keyBy` keeps the last edit or the last reorder, whichever came later.
theorem override?_cases (h : override? s i k = some w) : edit? s i k = some w ∨ reorder? s i k = some w := by
  have hor : ∀ x, isOverride k x = (isEdit k x || isReorder k x) := fun x => by
    simp only [isOverride, isEdit, isReorder, Bool.and_or_distrib_right]
  have hfind : (exceptionsOf s i).reverse.find? (fun x => isEdit k x || isReorder k x) = some w := by
    rw [← h, override?, getLast?_filter]
    exact congrArg (fun p => List.find? p _) (funext fun x => (hor x).symm)
  have hw := List.find?_some hfind
  simp only [edit?, reorder?, getLast?_filter]
  rcases Bool.or_eq_true _ _ ▸ hw with he | ho
  · exact Or.inl (find?_of_find?_or hfind he)
  · refine Or.inr (find?_of_find?_or (q := isEdit k) ?_ ho)
    rw [← hfind]
    exact congrArg (fun p => List.find? p _) (funext fun x => Bool.or_comm _ _)

end Overrides

section Runs
variable {s s' start : TaskBoard} {task x y : OperationalTask} {sheet : Sheet} {i v k : ℕ}
variable {item : ChecklistTemplateItem} {e o w : ReservationChecklistException} {r : Reservation}
variable {c : Call}

-- The edit's texts and due time, at the position of the reorder.
structure Reflects (task : OperationalTask) (r : Reservation) (item : ChecklistTemplateItem)
    (e o : ReservationChecklistException) : Prop where
  title : task.title = filledOr e.title item.title
  description : task.description = e.description.or item.description
  priority : task.priority = filledOr e.priority item.priority
  dueAt : task.dueAt = some (r.startsAt + 60 * dueOffset (some e) item)
  sortOrder : task.metadata.sortOrder = some o.sortOrder

def AtMostOnce (s : TaskBoard) : Prop :=
  ∀ x ∈ s.tasks.rows, ∀ y ∈ s.tasks.rows, untouched x = true → untouched y = true →
    x.reservationId = y.reservationId → purpose x = purpose y → purpose x ≠ none → x = y

def ReflectsBoth (s : TaskBoard) : Prop :=
  ∀ task ∈ s.tasks.rows, untouched task = true → ∀ i r item e o, task.reservationId = some i →
    s.db.reservation? i = some r → s.checklistItems.find? item.id = some item →
    task.checklistTemplateItemId = some item.id → edit? s i item.id = some e →
    reorder? s i item.id = some o → Reflects task r item e o

-- A generated task is filed under a version, and under the role of the version's template.
def Filed (s : TaskBoard) : Prop :=
  ∀ task ∈ s.tasks.rows, untouched task = true → purpose task ≠ none →
    ∃ version template, s.checklistVersions.find? version.id = some version ∧
      task.checklistTemplateVersionId = some version.id ∧
      s.checklistTemplates.find? version.checklistTemplateId = some template ∧
      task.metadata.checklistRole = some template.role ∧
      ∀ k, task.checklistTemplateItemId = some k → ∃ item, s.checklistItems.find? k = some item ∧
        item.checklistTemplateVersionId = version.id

-- An addition of the reservation has an untouched task already, made with another template.
def AddsTwice (s : TaskBoard) (i v : ℕ) : Prop :=
  ∃ version, s.checklistVersions.find? v = some version ∧ ∃ e ∈ additions s i,
    ∃ task ∈ s.tasks.rows, untouched task = true ∧ task.reservationId = some i ∧
      task.reservationChecklistExceptionId = some e.id ∧ inLineage s version task = false

def texts (item : ChecklistTemplateItem) (e : ReservationChecklistException) :
    String × Option String × String × ℤ :=
  (filledOr e.title item.title, e.description.or item.description,
    filledOr e.priority item.priority, dueOffset (some e) item)

-- The later one of an item's edit and reorder does not say what the earlier one says.
def Discards (s : TaskBoard) (i : ℕ) (item : ChecklistTemplateItem) : Prop :=
  ∃ e o, edit? s i item.id = some e ∧ reorder? s i item.id = some o ∧
    ((override? s i item.id = some e ∧ e.sortOrder ≠ o.sortOrder) ∨
      (override? s i item.id = some o ∧ texts item o ≠ texts item e))

def LosesOverride (s : TaskBoard) (i v : ℕ) : Prop :=
  ∃ item ∈ itemsOf s v, item.id ∉ excluded s i ∧ Discards s i item

structure Call where
  reservationId : ℕ
  versionId : ℕ
  actorId : Option ℕ

def Call.run (c : Call) : TaskTx Unit := do
  let _ ← generate c.reservationId c.versionId c.actorId

def Call.Careful (c : Call) (s : TaskBoard) : Prop :=
  ¬ AddsTwice s c.reservationId c.versionId ∧ ¬ LosesOverride s c.reservationId c.versionId

theorem exists_override (he : edit? s i k = some e) : ∃ w, override? s i k = some w := by
  have hm : e ∈ (exceptionsOf s i).filter (isOverride k) := by
    obtain ⟨hm, hp⟩ := List.mem_filter.mp (List.mem_of_getLast? he)
    refine List.mem_filter.mpr ⟨hm, ?_⟩
    simp only [isEdit, Bool.and_eq_true] at hp
    simp [isOverride, hp.1, hp.2]
  cases hw : override? s i k with
  | some w => exact ⟨w, rfl⟩
  | none =>
    rw [List.getLast?_eq_none_iff.mp hw] at hm
    cases hm

theorem reflects_itemTask (hn : ¬ Discards s sheet.r.id item)
    (he : edit? s sheet.r.id item.id = some e) (ho : reorder? s sheet.r.id item.id = some o) :
    Reflects (itemTask sheet (override? s sheet.r.id item.id) item k) sheet.r item e o := by
  obtain ⟨w, hw⟩ := exists_override he
  rcases override?_cases hw with hedit | hreorder
  · obtain rfl := Option.some.inj (he.symm.trans hedit)
    have hsort : e.sortOrder = o.sortOrder := by
      by_contra hne
      exact hn ⟨e, o, he, ho, Or.inl ⟨hw, hne⟩⟩
    rw [hw]
    exact ⟨rfl, rfl, rfl, rfl, congrArg some hsort⟩
  · obtain rfl := Option.some.inj (ho.symm.trans hreorder)
    have htexts : texts item o = texts item e := by
      by_contra hne
      exact hn ⟨e, o, he, ho, Or.inr ⟨hw, hne⟩⟩
    simp only [texts, Prod.mk.injEq] at htexts
    obtain ⟨htitle, hdescription, hpriority, hdue⟩ := htexts
    rw [hw]
    refine ⟨htitle, hdescription, hpriority, ?_, rfl⟩
    rw [← hdue]
    rfl

structure Orderly (s : TaskBoard) : Prop where
  filed : Filed s
  once : AtMostOnce s
  reflects : ReflectsBoth s

theorem purpose_item (h : purpose task = some (.inl k)) : task.checklistTemplateItemId = some k := by
  unfold purpose at h
  cases hi : task.checklistTemplateItemId with
  | some j =>
    rw [hi] at h
    exact congrArg some (Sum.inl.inj (Option.some.inj h))
  | none =>
    rw [hi] at h
    simp at h

theorem purpose_addition (h : purpose task = some (.inr k)) :
    task.reservationChecklistExceptionId = some k := by
  unfold purpose at h
  cases hi : task.checklistTemplateItemId with
  | some j =>
    rw [hi] at h
    simp at h
  | none =>
    rw [hi] at h
    simpa using h

section Call
variable (ho : Orderly s) (hg : Generates s s' sheet)
include ho hg

-- An untouched task of the same line of versions is among the previous ones.
theorem previous_of_lineage (hx : x ∈ s.tasks.rows) (hu : untouched x = true)
    (hr : x.reservationId = some sheet.r.id) (hp : purpose x ≠ none)
    (hl : inLineage s sheet.version x = true) : isPrevious s sheet x = true := by
  obtain ⟨version, template, hv, hxv, ht, hrole, _⟩ := ho.filed x hx hu hp
  have hline : version.checklistTemplateId = sheet.version.checklistTemplateId := by
    simpa [inLineage, hxv, hv] using hl
  obtain rfl : template = sheet.template := by
    rw [hline] at ht
    exact Option.some.inj (ht.symm.trans hg.template)
  simp [isPrevious, hr, hl, hrole, hu]

-- The tasks that stay were not made for what the call makes tasks for.
theorem not_both (hn : ¬ AddsTwice s sheet.r.id sheet.version.id) (hx : x ∈ s.tasks.rows)
    (hprev : isPrevious s sheet x = false) (hu : untouched x = true)
    (hy : y ∈ newTasks s sheet) (hres : x.reservationId = y.reservationId) :
    purpose x ≠ purpose y := by
  intro hp
  have hsome : purpose y ≠ none := by
    rcases mem_newTasks hy with ⟨_, _, _, rfl⟩ | ⟨_, _, _, rfl⟩ <;> simp [purpose, itemTask, addedTask]
  have hyr : y.reservationId = some sheet.r.id := by
    rcases mem_newTasks hy with ⟨_, _, _, rfl⟩ | ⟨_, _, _, rfl⟩ <;> rfl
  have hxr := hres.trans hyr
  have hxp : purpose x ≠ none := hp ▸ hsome
  have hline : inLineage s sheet.version x = true := by
    rcases mem_newTasks hy with ⟨item, hm, k, rfl⟩ | ⟨e, hm, k, rfl⟩
    · obtain ⟨version, _, hv, hxv, _, _, hitem⟩ := ho.filed x hx hu hxp
      obtain ⟨item', hfind, hiv⟩ := hitem item.id (purpose_item (hp.trans rfl))
      obtain ⟨hrow, hsv, _⟩ := mem_keptItems hm
      obtain rfl : item' = item :=
        Option.some.inj (hfind.symm.trans (Table.find?_eq_some.mpr ⟨hrow, rfl⟩))
      obtain rfl : version = sheet.version := by
        rw [← hiv, hsv] at hv
        exact Option.some.inj (hv.symm.trans hg.version)
      simp [inLineage, hxv, hv]
    · by_contra hl
      exact hn ⟨sheet.version, hg.version, e, hm, x, hx, hu, hxr, purpose_addition (hp.trans rfl),
        Bool.eq_false_iff.mpr hl⟩
  have hprevious := previous_of_lineage ho hg hx hu hxr hxp hline
  rw [hprev] at hprevious
  cases hprevious

theorem once_generates (hn : ¬ AddsTwice s sheet.r.id sheet.version.id) : AtMostOnce s' := by
  intro x hx y hy hux huy hres hp hsome
  rcases old_or_new hg hx hux with ⟨hx, hpx⟩ | hx
  · rcases old_or_new hg hy huy with ⟨hy, hpy⟩ | hy
    · exact ho.once x hx y hy hux huy hres hp hsome
    · exact absurd hp (not_both ho hg hn hx hpx hux hy hres)
  · rcases old_or_new hg hy huy with ⟨hy, hpy⟩ | hy
    · exact absurd hp.symm (not_both ho hg hn hy hpy huy hx hres.symm)
    · exact List.inj_on_of_nodup_map nodup_newTasks hx hy hp

theorem filed_generates : Filed s' := by
  have hplan := plan_generates hg
  have hversions : s'.checklistVersions = s.checklistVersions :=
    (congrArg TaskBoard.checklistVersions hplan :)
  have htemplates : s'.checklistTemplates = s.checklistTemplates :=
    (congrArg TaskBoard.checklistTemplates hplan :)
  have hitems : s'.checklistItems = s.checklistItems :=
    (congrArg TaskBoard.checklistItems hplan :)
  intro x hx hu hp
  rw [hversions, htemplates, hitems]
  rcases old_or_new hg hx hu with ⟨hx, _⟩ | hx
  · exact ho.filed x hx hu hp
  · refine ⟨sheet.version, sheet.template, hg.version, ?_⟩
    rcases mem_newTasks hx with ⟨item, hm, k, rfl⟩ | ⟨e, hm, k, rfl⟩
    · refine ⟨rfl, hg.template, rfl, fun j hj => ?_⟩
      obtain ⟨hrow, hv, _⟩ := mem_keptItems hm
      obtain rfl : item.id = j := Option.some.inj hj
      exact ⟨item, Table.find?_eq_some.mpr ⟨hrow, rfl⟩, hv⟩
    · exact ⟨rfl, hg.template, rfl, fun j hj => by cases hj⟩

theorem reflects_generates (hn : ¬ LosesOverride s sheet.r.id sheet.version.id) :
    ReflectsBoth s' := by
  have hplan := plan_generates hg
  have hdb : s'.db = s.db := (congrArg TaskBoard.db hplan :)
  have hitems : s'.checklistItems = s.checklistItems :=
    (congrArg TaskBoard.checklistItems hplan :)
  have hexceptions : s'.exceptions = s.exceptions := (congrArg TaskBoard.exceptions hplan :)
  intro x hx hu i r item e o hi hr hitem hk hedit hreorder
  rw [hdb] at hr
  rw [hitems] at hitem
  simp only [edit?, reorder?, exceptionsOf, hexceptions] at hedit hreorder
  rcases old_or_new hg hx hu with ⟨hx, _⟩ | hx
  · exact ho.reflects x hx hu i r item e o hi hr hitem hk hedit hreorder
  · rcases mem_newTasks hx with ⟨item', hm, k, rfl⟩ | ⟨e, hm, k, rfl⟩
    · obtain ⟨hrow, hv, hkept⟩ := mem_keptItems hm
      obtain rfl : item' = item := by
        have hid : item'.id = item.id := Option.some.inj hk
        exact Option.some.inj
          ((Table.find?_eq_some.mpr ⟨hrow, hid⟩ : s.checklistItems.find? item.id = _).symm.trans hitem)
      obtain rfl : sheet.r.id = i := Option.some.inj hi
      obtain rfl : sheet.r = r := Option.some.inj (hg.found.symm.trans hr)
      have hmi : item' ∈ itemsOf s sheet.version.id := List.mem_of_mem_filter hm
      exact reflects_itemTask (fun hd => hn ⟨item', hmi, hkept, hd⟩) hedit hreorder
    · cases hk

end Call

theorem orderly_call (ho : Orderly s) (hc : c.Careful s) (h : Commits c.run s () s') :
    Orderly s' := by
  simp only [Call.run, commits_bind, commits_pure] at h
  obtain ⟨_, _, h, _, rfl⟩ := h
  obtain ⟨sheet, hsheet, hg⟩ := commits_generate h
  obtain ⟨hr, hv, _⟩ := commits_sheetFor hsheet
  have hri : sheet.r.id = c.reservationId := Folio.reservation_id_eq hr
  have hvi : sheet.version.id = c.versionId := (Table.find?_eq_some.mp hv).2
  obtain ⟨hadds, hloses⟩ := hc
  rw [← hri, ← hvi] at hadds hloses
  exact ⟨filed_generates ho hg, once_generates ho hg hadds, reflects_generates ho hg hloses⟩

-- No checklist has been generated yet.
def Unplanned (s : TaskBoard) : Prop := ∀ task ∈ s.tasks.rows, purpose task = none

theorem orderly_unplanned (h : Unplanned s) : Orderly s where
  filed x hx _ hp := absurd (h x hx) hp
  once x hx _ _ _ _ _ _ hp := absurd (h x hx) hp
  reflects x hx _ i r item e o _ _ _ hk _ _ := by
    have hn := h x hx
    simp [purpose, hk] at hn

-- A later override replaces an earlier one, and additions are made again for every template.
theorem generation_neither_duplicates_nor_drops (hstart : Unplanned start)
    (h : Reaches Call.run Call.Careful start s) : AtMostOnce s ∧ ReflectsBoth s := by
  have ho : Orderly s := h.invariant (orderly_unplanned hstart)
    fun _ _ _ ho hc h => orderly_call ho hc h
  exact ⟨ho.once, ho.reflects⟩

end Runs

section Scenario
open BookedTotals (nightsFrom)
open Anchoring (planned booked firstVersion arrival makeBeds)

instance (s : TaskBoard) (i v : ℕ) : Decidable (AddsTwice s i v) :=
  decidable_of_iff (((s.checklistVersions.find? v).any fun version =>
      (additions s i).any fun e => s.tasks.rows.any fun task =>
        untouched task && task.reservationId == some i &&
          task.reservationChecklistExceptionId == some e.id && !inLineage s version task) = true)
    (by simp [AddsTwice, Option.any_eq_true, and_assoc])

instance (s : TaskBoard) (i : ℕ) (item : ChecklistTemplateItem) : Decidable (Discards s i item) :=
  decidable_of_iff (((edit? s i item.id).any fun e => (reorder? s i item.id).any fun o =>
      (override? s i item.id == some e && e.sortOrder != o.sortOrder) ||
        (override? s i item.id == some o && texts item o != texts item e)) = true)
    (by simp [Discards, Option.any_eq_true])

instance (s : TaskBoard) (i v : ℕ) : Decidable (LosesOverride s i v) :=
  inferInstanceAs (Decidable (∃ item ∈ itemsOf s v, item.id ∉ excluded s i ∧ Discards s i item))

instance (c : Call) (s : TaskBoard) : Decidable (c.Careful s) :=
  inferInstanceAs (Decidable (¬ AddsTwice s c.reservationId c.versionId ∧
    ¬ LosesOverride s c.reservationId c.versionId))

instance (s : TaskBoard) : Decidable (AtMostOnce s) :=
  inferInstanceAs (Decidable (∀ x ∈ s.tasks.rows, ∀ y ∈ s.tasks.rows, untouched x = true →
    untouched y = true → x.reservationId = y.reservationId → purpose x = purpose y →
      purpose x ≠ none → x = y))

def flowers (i : ℕ) : ReservationChecklistException :=
  { id := i, reservationId := 0, operation := .add, title := some "Flowers" }

def silkBeds (i : ℕ) : ReservationChecklistException :=
  { id := i, reservationId := 0, operation := .edit, checklistTemplateItemId := some 0
    title := some "Make the beds with silk" }

def bedsLater (i : ℕ) : ReservationChecklistException :=
  { id := i, reservationId := 0, operation := .reorder, checklistTemplateItemId := some 0
    sortOrder := 4 }

def secondVersion (i : ℕ) : ChecklistTemplateVersion := { id := i, checklistTemplateId := 1 }

theorem names_arrival : Names arrival := fun _ => rfl

theorem names_firstVersion : Names firstVersion := fun _ => rfl

-- Two templates apply, and the reservation adds an item and overrides another.
def decorated : TaskBoard := { planned (nightsFrom 10 1) with
  checklistTemplates := (Table.empty.insert arrival names_arrival).insert arrival names_arrival
  checklistVersions := (Table.empty.insert firstVersion names_firstVersion).insert secondVersion
  exceptions := (Table.empty.insert flowers).insert silkBeds }

def reordered : TaskBoard := { decorated with
  exceptions := decorated.exceptions.insert bedsLater }

def dropsEdit (s : TaskBoard) : Bool := s.tasks.rows.any fun task =>
  untouched task && task.reservationId == some 0 && (s.db.reservation? 0).isSome &&
    s.checklistItems.find? 0 == some (makeBeds 0) && task.checklistTemplateItemId == some 0 &&
    edit? s 0 0 == some (silkBeds 1) && reorder? s 0 0 == some (bedsLater 2) &&
    task.title == "Make the beds"

theorem not_reflects_of_dropsEdit {s : TaskBoard} (h : dropsEdit s = true) : ¬ ReflectsBoth s := by
  intro hr
  obtain ⟨task, hm, hp⟩ := List.any_eq_true.mp h
  simp only [Bool.and_eq_true, beq_iff_eq] at hp
  obtain ⟨⟨⟨⟨⟨⟨⟨hu, hres⟩, hfound⟩, hitem⟩, hk⟩, he⟩, ho⟩, ht⟩ := hp
  obtain ⟨r, hfind⟩ := Option.isSome_iff_exists.mp hfound
  have htitle := (hr task hm hu 0 r (makeBeds 0) _ _ hres hfind hitem hk he ho).title
  rw [ht] at htitle
  exact absurd htitle (by decide)

theorem unplanned_decorated : Unplanned decorated := fun _ hm => by
  simp [decorated, planned, Table.empty] at hm

theorem unplanned_reordered : Unplanned reordered := fun _ hm => by
  simp [reordered, decorated, planned, Table.empty] at hm

-- One template, generated twice: the addition and the edited item have one task each.
theorem regenerated_checklist_is_single : ∃ s, Reaches Call.run Call.Careful decorated s ∧
    (s.tasks.rows.filter untouched).length = 2 ∧ AtMostOnce s ∧ ReflectsBoth s := by
  obtain ⟨s, h, hp⟩ : ∃ s, Reaches Call.run Call.Careful decorated s ∧
      decide ((s.tasks.rows.filter untouched).length = 2) = true :=
    Reaches.exists_of_execute (fun _ _ => of_decide_eq_true) [⟨0, 0, none⟩, ⟨0, 0, none⟩]
      (by decide +kernel)
  obtain ⟨honce, hreflects⟩ := generation_neither_duplicates_nor_drops unplanned_decorated h
  exact ⟨s, h, of_decide_eq_true hp, honce, hreflects⟩

-- With the second template the addition has two tasks, and the reorder hides the edit.
theorem flowers_are_doubled_and_edit_is_lost : Unplanned reordered ∧
    ∃ s, Reaches Call.run (fun _ _ => True) reordered s ∧ ¬ AtMostOnce s ∧ ¬ ReflectsBoth s := by
  obtain ⟨s, h, hp⟩ : ∃ s, Reaches Call.run (fun _ _ => True) reordered s ∧
      (decide (¬ AtMostOnce s) && dropsEdit s) = true :=
    Reaches.exists_of_run [⟨0, 0, none⟩, ⟨0, 1, none⟩] (by decide +kernel)
  obtain ⟨honce, hdrops⟩ := Bool.and_eq_true_iff.mp hp
  exact ⟨unplanned_reordered, s, h, of_decide_eq_true honce, not_reflects_of_dropsEdit hdrops⟩

end Scenario
end Tasks.Regeneration
