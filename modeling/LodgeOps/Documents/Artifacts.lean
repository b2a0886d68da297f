import LodgeOps.Documents.Generation
import LodgeOps.Store.Frames

namespace GenerateDocument
open Transaction

section Property
variable (p : DocumentPlatform)

def Holds (o : Option Bytes) (stored : Stored) : Prop :=
  ∃ b ∈ o, p.sha256 b = stored.checksum

structure Intact (s : DocumentStore) : Prop where
  present : ∀ d ∈ s.documents.rows, Holds p (s.objects d.stored.path) d.stored
  standing : ∀ d ∈ s.documents.rows, ∀ r ∈ s.requests.rows, r.id = d.requestId → r.status ≠ .failed

-- What the path is about to hold contradicts no row that points to it.
def Admissible (s : DocumentStore) (path : DocumentPath) (o : Option Bytes) : Prop :=
  ∀ d ∈ s.documents.rows, d.stored.path = path → Holds p o d.stored

-- No document hangs on a request whose row is about to be written.
def Undocumented (s : DocumentStore) (requestId : ℕ) : Prop :=
  ∀ r ∈ s.requests.find? requestId, hasDocument s r.id = false

def Harmless (s : DocumentStore) (x : Execution) : Prop :=
  match x.stage with
  | .promoting _ temporary => ∀ b ∈ s.temporaries temporary, Admissible p s x.path (some b)
  | .recording stored => Undocumented s x.requestId →
      ∀ _r ∈ s.requests.find? x.requestId, Holds p (s.objects stored.path) stored
  | .erasing _ => Admissible p s x.path none
  | .discarding stored _ => Admissible p s stored.path none
  | .failing e => fits (lastError e) = true → Undocumented s x.requestId
  | _ => True

def Careful (op : Operation) (s : DocumentStore) : Prop :=
  match op with
  | .step i reply => ∀ x ∈ s.executions.find? i, reply.isOk = true → Harmless p s x
  | .failed requestId e => fits (exhausted e) = true → Undocumented s requestId
  | _ => True

end Property

section Quiet
variable {p : DocumentPlatform} {s u : DocumentStore} {x : Execution} {bytes : Bytes}

-- No object and no document changes, and no request turns failed.
structure Quiet (s u : DocumentStore) : Prop where
  objects : u.objects = s.objects
  documents : u.documents = s.documents
  failed : ∀ r ∈ u.requests.rows, r.status = .failed → r ∈ s.requests.rows

instance : Std.Refl Quiet := ⟨fun _ => ⟨rfl, rfl, fun _ hr _ => hr⟩⟩

instance : IsTrans DocumentStore Quiet where
  trans _ _ _ h h' := {
    objects := h'.objects.trans h.objects
    documents := h'.documents.trans h.documents
    failed := fun r hr hf => h.failed r (h'.failed r hr hf) hf }

theorem quiet_of_same (ho : u.objects = s.objects) (hd : u.documents = s.documents)
    (hr : u.requests = s.requests) : Quiet s u :=
  ⟨ho, hd, fun _ h _ => hr ▸ h⟩

theorem quiet_of_update {i : ℕ} {f : DocumentGenerationRequest → DocumentGenerationRequest}
    (ho : u.objects = s.objects) (hd : u.documents = s.documents)
    (hr : Table.Updates s.requests u.requests i f) (hf : ∀ r, (f r).status ≠ .failed) :
    Quiet s u := by
  refine ⟨ho, hd, fun r hm hfailed => ?_⟩
  rcases hr.mem.mp hm with ⟨hm, _⟩ | ⟨q, _, _, rfl⟩
  · exact hm
  · exact absurd hfailed (hf q)

theorem Quiet.intact (h : Quiet s u) (hs : Intact p s) : Intact p u where
  present := by
    rw [h.documents, h.objects]
    exact hs.present
  standing := by
    rw [h.documents]
    intro d hd r hr hid hfailed
    exact hs.standing d hd r (h.failed r hr hfailed) hid hfailed

theorem quiet_advance (i : ℕ) (stage : Stage) : Moves Quiet (advance i stage) s :=
  Moves.modify (quiet_of_same rfl rfl rfl)

theorem quiet_release (i : ℕ) : Moves Quiet (release i) s :=
  Moves.modify (quiet_of_same rfl rfl rfl)

theorem quiet_putTemporary (uuid : ℕ) (o : Option Bytes) : Moves Quiet (putTemporary uuid o) s :=
  Moves.modify (quiet_of_same rfl rfl rfl)

theorem quiet_complete (i : ℕ) (clears : Bool) : Moves Quiet (complete i clears) s := by
  apply Moves.modify
  exact quiet_of_update rfl rfl (Table.updates_update (keeps_generated _ _)) fun r => by
    simp [generated]

theorem quiet_openRequest : Moves Quiet (openRequest x) s := by
  apply Moves.get_bind
  apply Moves.orFail_bind
  intro request _
  apply Moves.ite
  · intro _
    exact quiet_release _
  · intro _
    apply Moves.bind
    · apply Moves.set
      exact quiet_of_update rfl rfl (Table.updates_update (keeps_processing _)) fun r => by
        simp [processing]
    · intro _ t _
      exact quiet_advance _ _

theorem quiet_drawUuid : Moves Quiet drawUuid s := by
  intro i u hc
  simp only [drawUuid, commits_bind, commits_get, commits_set, commits_pure] at hc
  obtain ⟨_, _, ⟨rfl, rfl⟩, _, _, rfl, _, rfl⟩ := hc
  exact quiet_of_same rfl rfl rfl

theorem quiet_render : Moves Quiet (render p x bytes) s := by
  apply Moves.check_bind
  intro _ _
  apply Moves.check_bind
  intro _ _
  apply Moves.bind quiet_drawUuid
  intro temporary t _
  exact quiet_advance _ _

theorem quiet_verify : Moves Quiet (verify p x bytes) s := by
  apply Moves.get_bind
  apply Moves.orFail_bind
  intro stored _
  apply Moves.check_bind
  intro _ _
  exact Moves.reject_bind fun _ => quiet_advance _ _

theorem quiet_caught (e : DocumentException) : Moves Quiet (caught x e) s := by
  unfold caught
  split
  all_goals first | exact quiet_advance _ _ | exact quiet_release _

theorem quiet_start {requestId : ℕ} : Moves Quiet (start p requestId) s := by
  apply Moves.get_bind
  apply Moves.reject_bind
  intro _
  apply Moves.orFail_bind
  intro request _
  exact Moves.set (quiet_of_same rfl rfl rfl)

theorem quiet_retry {requestId : ℕ} {loaded : DocumentGenerationStatus} :
    Moves Quiet (retry requestId loaded) s := by
  apply Moves.reject_bind
  intro _
  apply Moves.modify
  exact quiet_of_update rfl rfl (Table.updates_update keeps_retried) fun r => by simp [retried]

end Quiet

section Loud
variable {p : DocumentPlatform} {s u : DocumentStore} {x : Execution} {bytes : Bytes}
variable {path : DocumentPath} {o : Option Bytes} {stored : Stored} {i : ℕ}

theorem intact_put (hs : Intact p s) (ho : u.objects = Function.update s.objects path o)
    (hd : u.documents = s.documents) (hr : u.requests = s.requests) :
    Intact p u ↔ Admissible p s path o := by
  constructor
  · intro hu d hd' hpath
    have hheld := hu.present d (hd ▸ hd')
    rwa [ho, hpath, Function.update_self] at hheld
  · intro ha
    refine ⟨?_, hd ▸ hr ▸ hs.standing⟩
    rw [hd, ho]
    intro d hd'
    by_cases hpath : d.stored.path = path
    · rw [hpath, Function.update_self]
      exact ha d hd' hpath
    · rw [Function.update_of_ne hpath]
      exact hs.present d hd'

theorem intact_promote {temporary : ℕ} (hs : Intact p s)
    (hc : Commits (promote x bytes temporary) s () u) :
    Intact p u ↔ ∀ b ∈ s.temporaries temporary, Admissible p s x.path (some b) := by
  simp only [promote, put, putTemporary, advance, commits_bind, commits_get, commits_orFail,
    commits_modify] at hc
  obtain ⟨_, _, ⟨rfl, rfl⟩, moved, _, ⟨hm, rfl⟩, _, _, rfl, _, _, rfl, rfl⟩ := hc
  refine Iff.trans (intact_put hs rfl rfl rfl) ?_
  simp [hm]

theorem intact_erased {stage : Stage} (hs : Intact p s)
    (hc : Commits (put path none >>= fun _ => advance i stage) s () u) :
    Intact p u ↔ Admissible p s path none := by
  simp only [put, advance, commits_bind, commits_modify] at hc
  obtain ⟨_, _, rfl, rfl⟩ := hc
  exact intact_put hs rfl rfl rfl

theorem hasDocument_eq_false : hasDocument s i = false ↔ ∀ d ∈ s.documents.rows, d.requestId ≠ i := by
  simp [hasDocument]

theorem intact_failed {e : String} (hs : Intact p s) (hc : Commits (updateFailed i e) s () u) :
    Intact p u ↔ (fits e = true → Undocumented s i) := by
  simp only [updateFailed, commits_bind, commits_get, commits_reject, commits_set,
    Bool.not_eq_false] at hc
  obtain ⟨_, _, ⟨rfl, rfl⟩, _, _, ⟨hfit, rfl⟩, rfl⟩ := hc
  have hup := Table.updates_update (t := s.requests) (i := i) (keeps_failed e s.clock)
  constructor
  · intro hu _ r hr
    obtain ⟨hr, hi⟩ := Table.find?_eq_some.mp hr
    rw [hasDocument_eq_false]
    intro d hd hid
    exact hu.standing d hd _ (hup.mem_self hr hi) hid.symm rfl
  · intro hun
    refine ⟨hs.present, fun d hd r hr hid => ?_⟩
    rcases hup.mem.mp hr with ⟨hr, _⟩ | ⟨q, hq, hqi, rfl⟩
    · exact hs.standing d hd r hr hid
    · have hnone := hun hfit q (Table.find?_eq_some.mpr ⟨hq, hqi⟩)
      exact absurd hid.symm (hasDocument_eq_false.mp hnone d hd)

theorem intact_created {r : DocumentGenerationRequest} {f : DocumentGenerationRequest → DocumentGenerationRequest}
    {d : GeneratedDocument} (hs : Intact p s) (ho : u.objects = s.objects)
    (hd : Table.Appends s.documents u.documents d) (hr : r ∈ s.requests.rows)
    (hid : d.requestId = r.id) (hu : Table.Updates s.requests u.requests r.id f)
    (hf : ∀ r, (f r).status ≠ .failed) :
    Intact p u ↔ Holds p (s.objects d.stored.path) d.stored := by
  constructor
  · intro hi
    exact ho ▸ hi.present d hd.mem_new
  · intro hheld
    constructor
    · rw [ho]
      intro d' hd'
      rcases hd.mem.mp hd' with hd' | rfl
      · exact hs.present d' hd'
      · exact hheld
    · intro d' hd' q hq hqi
      rcases hu.mem_cases hr rfl hq with ⟨hq, hne⟩ | rfl
      · rcases hd.mem.mp hd' with hd' | rfl
        · exact hs.standing d' hd' q hq hqi
        · exact absurd (hqi.trans hid) hne
      · exact hf r

theorem intact_record (hs : Intact p s) (hc : Commits (record x stored) s () u) :
    Intact p u ↔ (Undocumented s x.requestId →
      ∀ _r ∈ s.requests.find? x.requestId, Holds p (s.objects stored.path) stored) := by
  simp only [record, commits_bind, commits_get, commits_orFail, commits_ite] at hc
  obtain ⟨_, _, ⟨rfl, rfl⟩, r, _, ⟨hr, rfl⟩, ⟨hdoc, hc⟩ | ⟨hdoc, hc⟩⟩ := hc
  · have hq : Quiet s u := by
      obtain ⟨_, t, hcomplete, hrelease⟩ := hc
      exact IsTrans.trans _ _ _ (quiet_complete _ _ _ _ hcomplete) (quiet_release _ _ _ hrelease)
    constructor
    · intro _ hun
      exact absurd hdoc (by simp [hun r hr])
    · intro _
      exact hq.intact hs
  · simp only [complete, release, commits_set, commits_modify] at hc
    obtain ⟨_, _, rfl, _, _, rfl, rfl⟩ := hc
    refine Iff.trans (intact_created hs rfl
      (Table.appends_insert (names_document r stored s.clock)) (Table.find?_eq_some.mp hr).1 rfl
      (Table.updates_update (keeps_generated true s.clock)) (fun r => by simp [generated])) ?_
    constructor
    · intro hheld _ _ _
      exact hheld
    · intro hheld
      refine hheld ?_ r hr
      intro q hq
      obtain rfl : r = q := Option.some.inj (hr.symm.trans hq)
      exact Bool.eq_false_of_not_eq_true hdoc

end Loud

section Steps
variable {p : DocumentPlatform} {s t u : DocumentStore} {x : Execution} {bytes : Bytes}
variable {i : ℕ} {reply : Reply} {op : Operation}

theorem intact_work (hs : Intact p s) (hc : Commits (work p x bytes) s () u) :
    Intact p u ↔ Harmless p s x := by
  have hquiet : Moves Quiet (work p x bytes) s → (Intact p u ↔ True) := fun h =>
    iff_of_true ((h () u hc).intact hs) trivial
  unfold Harmless
  cases hstage : x.stage with
  | opening =>
    apply hquiet
    rw [work, hstage]
    exact quiet_openRequest
  | rendering =>
    apply hquiet
    rw [work, hstage]
    exact quiet_render
  | writing rendered temporary =>
    apply hquiet
    rw [work, hstage]
    exact Moves.bind (quiet_putTemporary _ _) fun _ _ _ => quiet_advance _ _
  | promoting rendered temporary =>
    rw [work, hstage] at hc
    exact intact_promote hs hc
  | verifying rendered temporary =>
    apply hquiet
    rw [work, hstage]
    exact quiet_verify
  | recording stored =>
    rw [work, hstage] at hc
    exact intact_record hs hc
  | sweeping temporary e =>
    apply hquiet
    rw [work, hstage]
    exact Moves.bind (quiet_putTemporary _ _) fun _ _ _ => quiet_advance _ _
  | erasing e =>
    rw [work, hstage] at hc
    exact intact_erased hs hc
  | discarding stored e =>
    rw [work, hstage] at hc
    exact intact_erased hs hc
  | failing e =>
    rw [work, hstage] at hc
    obtain ⟨_, v, hf, hr⟩ := commits_bind.mp hc
    have hq := quiet_release _ _ _ hr
    refine Iff.trans ?_ (intact_failed hs hf)
    obtain rfl := commits_modify.mp hr
    constructor
    · intro hu
      exact ⟨hu.present, hu.standing⟩
    · exact hq.intact

-- A call that throws on its own account has found nothing to harm.
theorem harmless_of_thrown {e : DocumentException} (h : (work p x bytes).run s = .error e) :
    Harmless p s x := by
  have hnot : ¬ ∃ v, Commits (work p x bytes) s () v := by
    rintro ⟨v, hv⟩
    rw [Commits, h] at hv
    cases hv
  unfold Harmless
  cases hstage : x.stage with
  | promoting rendered temporary =>
    intro b hb
    refine absurd ?_ hnot
    simp only [work, hstage, promote, put, putTemporary, advance, commits_bind, commits_get,
      commits_orFail, commits_modify]
    exact ⟨_, _, _, ⟨rfl, rfl⟩, b, _, ⟨hb, rfl⟩, (), _, rfl, (), _, rfl, rfl⟩
  | recording stored =>
    intro hun r hr
    refine absurd ?_ hnot
    simp only [work, hstage, record, complete, release, commits_bind, commits_get, commits_orFail,
      commits_ite, commits_set, commits_modify]
    exact ⟨_, _, _, ⟨rfl, rfl⟩, r, _, ⟨hr, rfl⟩, Or.inr ⟨by simp [hun r hr], (), _, rfl, (), _, rfl, rfl⟩⟩
  | erasing e =>
    refine absurd ?_ hnot
    simp only [work, hstage, put, advance, commits_bind, commits_modify]
    exact ⟨_, (), _, rfl, rfl⟩
  | discarding stored e =>
    refine absurd ?_ hnot
    simp only [work, hstage, put, advance, commits_bind, commits_modify]
    exact ⟨_, (), _, rfl, rfl⟩
  | failing e =>
    intro hfit
    refine absurd ?_ hnot
    simp only [work, hstage, updateFailed, release, commits_bind, commits_get, commits_reject,
      commits_set, commits_modify]
    exact ⟨_, (), _, ⟨_, _, ⟨rfl, rfl⟩, (), _, ⟨by simp [hfit], rfl⟩, rfl⟩, rfl⟩
  | _ => trivial

theorem step_cases (hc : Commits (step p i reply) s () u) : ∃ x, s.executions.find? i = some x ∧
    ((∃ bytes, reply = .ok bytes ∧ Commits (work p x bytes) s () u) ∨
      (Quiet s u ∧ (reply.isOk = true → Harmless p s x))) := by
  simp only [step, commits_bind, commits_get, commits_orFail] at hc
  obtain ⟨_, _, ⟨rfl, rfl⟩, x, _, ⟨hx, rfl⟩, r, v, hr, hc⟩ := hc
  refine ⟨x, hx, ?_⟩
  rcases commits_attempt.mp hr with ⟨_, rfl, hw⟩ | ⟨e, rfl, hw, rfl⟩
  · obtain ⟨_, rfl⟩ := commits_pure.mp hc
    obtain ⟨bytes, _, hb, hw⟩ := commits_bind.mp hw
    obtain ⟨hreply, rfl⟩ := commits_check.mp hb
    exact Or.inl ⟨bytes, hreply, hw⟩
  · refine Or.inr ⟨quiet_caught e () u hc, fun hok => ?_⟩
    rcases run_bind_error hw with hcheck | ⟨bytes, _, hb, hthrown⟩
    · cases reply with
      | error e => cases hok
      | ok bytes => cases hcheck
    · obtain ⟨_, rfl⟩ := commits_check.mp hb
      exact harmless_of_thrown hthrown

theorem intact_step (hs : Intact p s) (hc : Commits (step p i reply) s () u) :
    Intact p u ↔ Careful p (.step i reply) s := by
  obtain ⟨x, hx, ⟨bytes, rfl, hw⟩ | ⟨hq, hharmless⟩⟩ := step_cases hc
  · rw [intact_work hs hw]
    constructor
    · intro h y hy _
      obtain rfl : x = y := Option.some.inj (hx.symm.trans hy)
      exact h
    · intro h
      exact h x hx rfl
  · refine iff_of_true (hq.intact hs) ?_
    intro y hy hok
    obtain rfl : x = y := Option.some.inj (hx.symm.trans hy)
    exact hharmless hok

theorem intact_run (hs : Intact p s) (hc : Commits (op.run p) s () u) :
    Intact p u ↔ Careful p op s := by
  have hquiet : Quiet s u → (Intact p u ↔ True) := fun h => iff_of_true (h.intact hs) trivial
  cases op with
  | start requestId => exact hquiet (quiet_start () u hc)
  | step i reply => exact intact_step hs hc
  | crash i =>
    obtain rfl := commits_modify.mp hc
    exact hquiet (quiet_of_same rfl rfl rfl)
  | failed requestId e => exact intact_failed hs hc
  | retry requestId loaded => exact hquiet (quiet_retry () u hc)
  | wait seconds =>
    obtain rfl := commits_modify.mp hc
    exact hquiet (quiet_of_same rfl rfl rfl)

theorem documents_stay_intact_iff (hs : Intact p s)
    (h : Reaches (Operation.run p) (Careful p) s t) :
    Intact p t ∧ ∀ op u, Commits (op.run p) t () u → (Intact p u ↔ Careful p op t) := by
  have ht : Intact p t :=
    h.invariant hs fun _ _ _ hs hop hc => (intact_run hs hc).mpr hop
  exact ⟨ht, fun _ _ hc => intact_run ht hc⟩

end Steps

section Decisions
variable {p : DocumentPlatform} {s : DocumentStore} {x : Execution} {path : DocumentPath}
variable {o : Option Bytes} {stored : Stored} {i : ℕ}

instance : Decidable (Holds p o stored) :=
  match o with
  | none => isFalse (by rintro ⟨b, hb, _⟩; cases hb)
  | some b => decidable_of_iff (p.sha256 b = stored.checksum) (by simp [Holds])

instance : Decidable (Admissible p s path o) :=
  inferInstanceAs (Decidable (∀ d ∈ s.documents.rows, d.stored.path = path → Holds p o d.stored))

instance : Decidable (Undocumented s i) :=
  inferInstanceAs (Decidable (∀ r ∈ s.requests.find? i, hasDocument s r.id = false))

instance : Decidable (Harmless p s x) := by
  unfold Harmless
  cases x.stage <;> infer_instance

instance (op : Operation) : Decidable (Careful p op s) := by
  unfold Careful
  cases op <;> infer_instance

instance : Decidable (Intact p s) :=
  decidable_of_iff ((∀ d ∈ s.documents.rows, Holds p (s.objects d.stored.path) d.stored) ∧
    ∀ d ∈ s.documents.rows, ∀ r ∈ s.requests.rows, r.id = d.requestId → r.status ≠ .failed)
    ⟨fun h => ⟨h.1, h.2⟩, fun h => ⟨h.present, h.standing⟩⟩

end Decisions

section Scenario

def plainPlatform : DocumentPlatform where
  parses _ := true
  sha256 bytes := String.ofList (bytes.map fun b => Char.ofNat b.toNat)
  overlapExpireAfter := 240

-- Two renderings of one request differ in nothing but, say, the time that they were made.
def pdf (mark : UInt8) : Bytes :=
  DocumentArtifactStore.utf8 "%PDF-" ++ List.replicate 100 mark ++
    DocumentArtifactStore.utf8 "%%EOF"

def pendingRequest (i : ℕ) : DocumentGenerationRequest where
  id := i
  tenantId := 0
  kind := .reservationConfirmation
  sourceChecksum := "snapshot"

theorem names_pendingRequest : Names pendingRequest := fun _ => rfl

def onePending : DocumentStore where
  requests := Table.empty.insert pendingRequest names_pendingRequest

theorem intact_onePending : Intact plainPlatform onePending := by
  constructor
  · intro d hd
    cases hd
  · intro d hd
    cases hd

def done (i : ℕ) (mark : UInt8) (calls : ℕ) : List Operation :=
  List.replicate calls (.step i (.ok (pdf mark)))

-- The first worker is still rendering when its lock expires; the second one completes.
def overtaken : List Operation :=
  [.start 0, .step 0 (.ok []), .wait 240, .start 0] ++ done 1 65 6

def lateSuccess : List Operation := done 0 66 5

def diskFull : DocumentException := ⟨"UnableToWriteFile", "Unable to write file at location."⟩

def lateFailure : List Operation :=
  done 0 66 1 ++ [.step 0 (.error diskFull)] ++ done 0 66 3

def anyOperation (_ : Operation) (_ : DocumentStore) : Bool := true

def runs (ops : List Operation) (s : DocumentStore) : Option DocumentStore :=
  Reaches.execute (Operation.run plainPlatform) anyOperation ops s

def complete? (t : DocumentStore) : Bool :=
  t.documents.rows.length == 1 && decide (Intact plainPlatform t)

def overwritten (u : DocumentStore) : Bool :=
  u.documents.rows.any fun d => (u.objects d.stored.path).any fun b =>
    plainPlatform.sha256 b != d.stored.checksum

def erased (v : DocumentStore) : Bool :=
  (v.documents.rows.any fun d => (v.objects d.stored.path).isNone) &&
    v.requests.rows.any fun r => r.status == .failed

-- The late worker of one run ends well, that of the other finds the disk full.
theorem late_worker_spoils_document : Intact plainPlatform onePending ∧
    ∃ t, Reaches (Operation.run plainPlatform) (fun _ _ => True) onePending t ∧
      t.documents.rows.length = 1 ∧ Intact plainPlatform t ∧
      (∃ u, Reaches (Operation.run plainPlatform) (fun _ _ => True) t u ∧
        ∃ d ∈ u.documents.rows, ∃ b, u.objects d.stored.path = some b ∧
          plainPlatform.sha256 b ≠ d.stored.checksum) ∧
      ∃ v, Reaches (Operation.run plainPlatform) (fun _ _ => True) t v ∧
        (∃ d ∈ v.documents.rows, v.objects d.stored.path = none) ∧
        ∃ r ∈ v.requests.rows, r.status = .failed := by
  obtain ⟨t, ht, hp⟩ : ∃ t, Reaches (Operation.run plainPlatform) (fun _ _ => True) onePending t ∧
      (complete? t && (runs lateSuccess t).any overwritten && (runs lateFailure t).any erased) =
        true := Reaches.exists_of_run overtaken (by decide +kernel)
  simp only [Bool.and_eq_true, complete?, beq_iff_eq, decide_eq_true_eq] at hp
  obtain ⟨⟨⟨hlength, hintact⟩, hsuccess⟩, hfailure⟩ := hp
  obtain ⟨u, hu, hover⟩ := Reaches.exists_of_execute (fun _ _ _ => trivial) lateSuccess hsuccess
  obtain ⟨v, hv, herased⟩ := Reaches.exists_of_execute (fun _ _ _ => trivial) lateFailure hfailure
  refine ⟨intact_onePending, t, ht, hlength, hintact, ⟨u, hu, ?_⟩, v, hv, ?_⟩
  · simpa [overwritten, Option.any_eq_true] using hover
  · simpa [erased] using herased

theorem document_survives_careful_run : ∃ t,
    Reaches (Operation.run plainPlatform) (Careful plainPlatform) onePending t ∧
      t.documents.rows.length = 1 ∧ Intact plainPlatform t ∧
      ∀ op u, Commits (op.run plainPlatform) t () u →
        (Intact plainPlatform u ↔ Careful plainPlatform op t) := by
  obtain ⟨t, ht, hlength⟩ : ∃ t, Reaches (Operation.run plainPlatform) (Careful plainPlatform)
      onePending t ∧ (t.documents.rows.length == 1) = true :=
    Reaches.exists_of_execute (fun _ _ => of_decide_eq_true) overtaken (by decide +kernel)
  obtain ⟨hintact, hiff⟩ := documents_stay_intact_iff intact_onePending ht
  exact ⟨t, ht, by simpa using hlength, hintact, hiff⟩

end Scenario
end GenerateDocument
