import LodgeOps.Ledger.Folio
import LodgeOps.Store.Workers

namespace FolioReversals
open Schema Transaction Folio Crew

section Calls

-- A call to reverse a line between two of its statements. The line stays locked to the end.
inductive Stage
  | locked
  | opened (r : Reservation)
  | unreversed (r : Reservation)
deriving DecidableEq

structure Caller where
  locked : FolioLine
  reason : String
  actorId : Option ℕ
  stage : Stage
deriving DecidableEq

-- Outside the store stands what the calls have returned, with the line each was for.
abbrev Desk := Crew Database (List (ℕ × FolioLine)) Caller
abbrev DeskTx := Transaction Failure Desk

def gone : Failure := .runtime "The call is not at this statement."
def busy : Failure := .runtime "The line is locked by another call."

def lock (lineId : ℕ) (reason : String) (actorId : Option ℕ) : DeskTx Unit := do
  let w ← get
  let locked ← orFail (w.db.folioLines.find? lineId) .modelNotFound
  reject (∃ k ∈ w.workers, k.locked.id = lineId) busy
  enter ⟨locked, reason, actorId, .locked⟩

def checkOpen (k : Caller) : DeskTx Unit := do
  leave { k with stage := .locked } gone
  let w ← get
  let r ← orFail (w.db.reservation? k.locked.reservationId) .modelNotFound
  check fun _ => assertOpen r
  enter { k with stage := .opened r }

def answer (k : Caller) (l : FolioLine) : DeskTx Unit :=
  modify fun w => { w with outside := w.outside ++ [(k.locked.id, l)] }

def lookUp (k : Caller) (r : Reservation) : DeskTx Unit := do
  leave { k with stage := .opened r } gone
  let w ← get
  match reversal? w.db k.locked.id with
  | some existing => answer k existing
  | none => do
    reject (k.locked.reversesFolioLineId ≠ none)
      (.commercialWorkflow "A reversal entry cannot itself be reversed.")
    enter { k with stage := .unreversed r }

def post (k : Caller) (r : Reservation) : DeskTx Unit := do
  leave { k with stage := .unreversed r } gone
  let l ← onDb (createLine r (reversalDraft k.locked k.reason k.actorId))
  answer k l

def rollBack (k : Caller) : DeskTx Unit := leave k gone

-- Any other line of a folio, and anything that leaves the folios alone.
def file (l : FolioLine) : DeskTx Unit :=
  onDb (modify fun db => { db with folioLines := db.folioLines.insert fun i => { l with id := i } })

def elsewhere (db : Database) : DeskTx Unit :=
  onDb (modify fun t => { db with folioLines := t.folioLines })

inductive Action
  | lock (lineId : ℕ) (reason : String) (actorId : Option ℕ)
  | checkOpen (k : Caller)
  | lookUp (k : Caller) (r : Reservation)
  | post (k : Caller) (r : Reservation)
  | rollBack (k : Caller)
  | file (l : FolioLine)
  | elsewhere (db : Database)

def Action.run : Action → DeskTx Unit
  | lock lineId reason actorId => FolioReversals.lock lineId reason actorId
  | checkOpen k => FolioReversals.checkOpen k
  | lookUp k r => FolioReversals.lookUp k r
  | post k r => FolioReversals.post k r
  | rollBack k => FolioReversals.rollBack k
  | file l => FolioReversals.file l
  | elsewhere db => FolioReversals.elsewhere db

-- The line whose reversal a step is part of.
def Action.lineId? : Action → Option ℕ
  | lock lineId _ _ => some lineId
  | checkOpen k | lookUp k _ | post k _ | rollBack k => some k.locked.id
  | file _ | elsewhere _ => none

-- What the service posts besides reversals.
structure Plain (l : FolioLine) : Prop where
  original : l.reversesFolioLineId = none
  gross : l.grossAmountMinor = l.netAmountMinor + l.taxAmountMinor

def Action.Admitted (op : Action) (_ : Desk) : Prop :=
  match op with
  | file l => Plain l
  | _ => True

end Calls

section Steps
variable {w w' : Desk} {k k' : Caller} {r : Reservation} {l : FolioLine} {op : Action}

-- What a step does, with the line whose reversal it is part of.
inductive Step (w w' : Desk) : Option ℕ → Prop
  | locks (k : Caller) : k.stage = .locked → k.locked ∈ w.db.folioLines.rows →
      (∀ j ∈ w.workers, j.locked.id ≠ k.locked.id) →
      w' = { w with workers := k :: w.workers } → Step w w' (some k.locked.id)
  | moves (k k' : Caller) : k ∈ w.workers → k'.locked = k.locked →
      (∀ r, k'.stage = .unreversed r → k.locked.reversesFolioLineId = none ∧
        ∀ l ∈ w.db.folioLines.rows, l.reversesFolioLineId ≠ some k.locked.id) →
      w' = { w with workers := k' :: w.workers.erase k } → Step w w' (some k.locked.id)
  | answers (k : Caller) (l : FolioLine) : l ∈ w.db.folioLines.rows →
      l.reversesFolioLineId = some k.locked.id →
      w' = { w with
        workers := w.workers.erase k
        outside := w.outside ++ [(k.locked.id, l)] } → Step w w' (some k.locked.id)
  | posts (k : Caller) (r : Reservation) (d : LineDraft) (l : FolioLine) : k ∈ w.workers →
      k.stage = .unreversed r → d = reversalDraft k.locked k.reason k.actorId →
      l = line r d w.db.clock w.db.folioLines.next →
      w' = { w with
        db := posted w.db r d
        workers := w.workers.erase k
        outside := w.outside ++ [(k.locked.id, l)] } → Step w w' (some k.locked.id)
  | leaves (k : Caller) : w' = { w with workers := w.workers.erase k } →
      Step w w' (some k.locked.id)
  | files (l : FolioLine) : Plain l → Table.Appends w.db.folioLines w'.db.folioLines l →
      w'.workers = w.workers → w'.outside = w.outside → Step w w' none
  | elsewhere : w'.db.folioLines = w.db.folioLines → w'.workers = w.workers →
      w'.outside = w.outside → Step w w' none

theorem reversal?_some (h : reversal? w.db k.locked.id = some l) :
    l ∈ w.db.folioLines.rows ∧ l.reversesFolioLineId = some k.locked.id := by
  obtain ⟨hl, hr⟩ := Table.first?_some h
  exact ⟨hl, eq_of_beq hr⟩

theorem reversal?_none (h : reversal? w.db k.locked.id = none) :
    ∀ l ∈ w.db.folioLines.rows, l.reversesFolioLineId ≠ some k.locked.id := by
  intro l hl
  exact beq_eq_false_iff_ne.mp (Table.first?_eq_none.mp h l hl)

theorem step_lock {lineId : ℕ} {reason : String} {actorId : Option ℕ}
    (h : Commits (lock lineId reason actorId) w () w') : Step w w' (some lineId) := by
  have h := commits_get_bind.mp h
  obtain ⟨locked, hfind, h⟩ := commits_orFail_bind.mp h
  obtain ⟨hfree, h⟩ := commits_reject_bind.mp h
  obtain ⟨hmem, hid⟩ := Table.find?_eq_some.mp hfind
  have hid : locked.id = lineId := hid
  push Not at hfree
  rw [← hid]
  exact .locks ⟨locked, reason, actorId, .locked⟩ rfl hmem (fun j hj => hid ▸ hfree j hj)
    (commits_enter.mp h)

theorem step_checkOpen (h : Commits (checkOpen k) w () w') :
    Step w w' (some k.locked.id) := by
  obtain ⟨_, t, hleave, h⟩ := commits_bind.mp h
  obtain ⟨hk, rfl⟩ := commits_leave.mp hleave
  have h := commits_get_bind.mp h
  obtain ⟨r, _, h⟩ := commits_orFail_bind.mp h
  obtain ⟨_, _, h⟩ := commits_check_bind.mp h
  exact .moves { k with stage := .locked } { k with stage := .opened r } hk rfl
    (fun _ hs => by cases hs) (commits_enter.mp h)

theorem step_lookUp (h : Commits (lookUp k r) w () w') :
    Step w w' (some k.locked.id) := by
  obtain ⟨_, t, hleave, h⟩ := commits_bind.mp h
  obtain ⟨hk, rfl⟩ := commits_leave.mp hleave
  have h := commits_get_bind.mp h
  cases hx : reversal? w.db k.locked.id with
  | some existing =>
    simp only [hx] at h
    obtain ⟨hl, hr⟩ := reversal?_some hx
    exact .answers { k with stage := .opened r } existing hl hr (commits_modify.mp h).symm
  | none =>
    simp only [hx] at h
    obtain ⟨horiginal, h⟩ := commits_reject_bind.mp h
    exact .moves { k with stage := .opened r } { k with stage := .unreversed r } hk rfl
      (fun _ _ => ⟨not_not.mp horiginal, reversal?_none hx⟩) (commits_enter.mp h)

theorem step_post (h : Commits (post k r) w () w') :
    Step w w' (some k.locked.id) := by
  obtain ⟨_, t, hleave, h⟩ := commits_bind.mp h
  obtain ⟨hk, rfl⟩ := commits_leave.mp hleave
  obtain ⟨l, u, honDb, hanswer⟩ := commits_bind.mp h
  obtain ⟨db, hcreate, rfl⟩ := commits_onDb.mp honDb
  obtain ⟨hl, rfl⟩ := commits_createLine.mp hcreate
  exact .posts { k with stage := .unreversed r } r _ l hk rfl rfl hl (commits_modify.mp hanswer).symm

theorem step_file (hl : Plain l) (h : Commits (file l) w () w') : Step w w' none := by
  obtain ⟨db, hfile, rfl⟩ := commits_onDb.mp h
  rw [← commits_modify.mp hfile]
  have hnames : Names fun i => { l with id := i } := fun _ => rfl
  exact .files { l with id := w.db.folioLines.next } ⟨hl.original, hl.gross⟩
    (Table.appends_insert hnames) rfl rfl

theorem step_elsewhere {db : Database} (h : Commits (elsewhere db) w () w') : Step w w' none := by
  obtain ⟨t, ht, rfl⟩ := commits_onDb.mp h
  exact .elsewhere (by rw [← commits_modify.mp ht]) rfl rfl

theorem step_run (ha : op.Admitted w) (h : Commits op.run w () w') : Step w w' op.lineId? := by
  cases op with
  | lock lineId reason actorId => exact step_lock h
  | checkOpen k => exact step_checkOpen h
  | lookUp k r => exact step_lookUp h
  | post k r => exact step_post h
  | rollBack k => exact .leaves k (commits_leave.mp h).2
  | file l => exact step_file ha h
  | elsewhere db => exact step_elsewhere h

end Steps

section Invariant
variable {w w' : Desk} {lines lines' : Table FolioLine} {l m o : FolioLine} {k : Caller} {op : Action}

structure Opposite (o l : FolioLine) : Prop where
  net : o.netAmountMinor + l.netAmountMinor = 0
  tax : o.taxAmountMinor + l.taxAmountMinor = 0
  gross : o.grossAmountMinor + l.grossAmountMinor = 0

structure Exact (lines : Table FolioLine) : Prop where
  single : ∀ l ∈ lines.rows, ∀ m ∈ lines.rows, l.reversesFolioLineId ≠ none →
    l.reversesFolioLineId = m.reversesFolioLineId → l = m
  opposite : ∀ l ∈ lines.rows, ∀ o ∈ lines.rows, l.reversesFolioLineId = some o.id → Opposite o l
  originals : ∀ l ∈ lines.rows, ∀ o ∈ lines.rows, l.reversesFolioLineId = some o.id →
    o.reversesFolioLineId = none

structure Kept (lines : Table FolioLine) : Prop extends Exact lines where
  traced : Traced lines
  gross : ∀ l ∈ lines.rows, l.grossAmountMinor = l.netAmountMinor + l.taxAmountMinor

def Unreversed (lines : Table FolioLine) (l : FolioLine) : Prop :=
  l.reversesFolioLineId = none ∧ ∀ m ∈ lines.rows, m.reversesFolioLineId ≠ some l.id

structure Sound (w : Desk) : Prop where
  lines : Kept w.db.folioLines
  held : ∀ k ∈ w.workers, k.locked ∈ w.db.folioLines.rows
  apart : w.workers.Pairwise fun j k => j.locked.id ≠ k.locked.id
  cleared : ∀ k ∈ w.workers, ∀ r, k.stage = .unreversed r → Unreversed w.db.folioLines k.locked
  answered : ∀ x ∈ w.outside, x.2 ∈ w.db.folioLines.rows ∧ x.2.reversesFolioLineId = some x.1

-- The net amount goes through the multiplier once more, which is exact at a quantity of one.
theorem opposite_reversal {r : Reservation} {d : LineDraft} {now : ℤ} {i : ℕ}
    (hgross : o.grossAmountMinor = o.netAmountMinor + o.taxAmountMinor) {reason : String}
    {actorId : Option ℕ} (hd : d = reversalDraft o reason actorId) : Opposite o (line r d now i) := by
  have hnet : (line r d now i).netAmountMinor = -o.netAmountMinor := by
    rw [hd]
    exact lineAmount_thousand _
  have htax : (line r d now i).taxAmountMinor = -o.taxAmountMinor := by
    rw [hd]
    rfl
  constructor
  · omega
  · omega
  · rw [line_gross]
    omega

theorem kept_file (hs : Kept lines) (hl : Plain l) (hx : Table.Appends lines lines' l) :
    Kept lines' := by
  have hnone : ∀ i, l.reversesFolioLineId ≠ some i := by simp [hl.original]
  have hnew : ∀ m ∈ lines'.rows, m.reversesFolioLineId ≠ some l.id :=
    unreversed_new hs.traced hx hl.original
  refine ⟨⟨?_, ?_, ?_⟩, traced_append hs.traced hx fun i hi => absurd hi (hnone i), ?_⟩
  · intro p hp q hq hsome heq
    rcases hx.mem.mp hp with hp | rfl
    · rcases hx.mem.mp hq with hq | rfl
      · exact hs.single p hp q hq hsome heq
      · exact absurd (heq.trans hl.original) hsome
    · exact absurd hl.original hsome
  · intro p hp q hq heq
    rcases hx.mem.mp hq with hq' | rfl
    · rcases hx.mem.mp hp with hp | rfl
      · exact hs.opposite p hp q hq' heq
      · exact absurd heq (hnone _)
    · exact absurd heq (hnew p hp)
  · intro p hp q hq heq
    rcases hx.mem.mp hq with hq' | rfl
    · rcases hx.mem.mp hp with hp | rfl
      · exact hs.originals p hp q hq' heq
      · exact absurd heq (hnone _)
    · exact absurd heq (hnew p hp)
  · intro p hp
    rcases hx.mem.mp hp with hp | rfl
    · exact hs.gross p hp
    · exact hl.gross

theorem kept_reverse (hs : Kept lines) (ho : o ∈ lines.rows) (hu : Unreversed lines o)
    (hx : Table.Appends lines lines' l) (hl : l.reversesFolioLineId = some o.id)
    (hopposite : Opposite o l) (hgross : l.grossAmountMinor = l.netAmountMinor + l.taxAmountMinor) :
    Kept lines' := by
  have hof : ∀ q ∈ lines'.rows, l.reversesFolioLineId = some q.id → q = o := by
    intro q hq heq
    have hid : o.id = q.id := Option.some.inj (hl.symm.trans heq)
    rcases hx.mem.mp hq with hq | rfl
    · exact (Table.eq_of_id ho hq hid).symm
    · exact absurd hid (hx.lt_next ho).ne
  have hlast : ∀ p ∈ lines.rows, p.reversesFolioLineId ≠ some l.id := by
    intro p hp heq
    obtain ⟨q, hq⟩ := hs.traced p hp _ heq
    obtain ⟨hmem, hid⟩ := Table.find?_eq_some.mp hq
    exact absurd hid (hx.lt_next hmem).ne
  refine ⟨⟨?_, ?_, ?_⟩, traced_append hs.traced hx ?_, ?_⟩
  · intro p hp q hq hsome heq
    rcases hx.mem.mp hp with hp | rfl
    · rcases hx.mem.mp hq with hq | rfl
      · exact hs.single p hp q hq hsome heq
      · exact absurd (heq.trans hl) (hu.2 p hp)
    · rcases hx.mem.mp hq with hq | rfl
      · exact absurd (heq.symm.trans hl) (hu.2 q hq)
      · rfl
  · intro p hp q hq heq
    rcases hx.mem.mp hp with hp | rfl
    · rcases hx.mem.mp hq with hq | rfl
      · exact hs.opposite p hp q hq heq
      · exact absurd heq (hlast p hp)
    · rw [hof q hq heq]
      exact hopposite
  · intro p hp q hq heq
    rcases hx.mem.mp hp with hp | rfl
    · rcases hx.mem.mp hq with hq | rfl
      · exact hs.originals p hp q hq heq
      · exact absurd heq (hlast p hp)
    · rw [hof q hq heq]
      exact hu.1
  · intro i hi
    refine ⟨o, Table.find?_eq_some.mpr ⟨ho, ?_⟩⟩
    exact Option.some.inj (hl.symm.trans hi)
  · intro p hp
    rcases hx.mem.mp hp with hp | rfl
    · exact hs.gross p hp
    · exact hgross

-- Callers that keep their lines keep what they found out, when the new line reverses none of them.
theorem sound_append {left : List Caller} (hs : Sound w)
    (hleft : left.Sublist w.workers) (hlines : Kept w'.db.folioLines)
    (hx : Table.Appends w.db.folioLines w'.db.folioLines l)
    (hfree : ∀ k ∈ left, l.reversesFolioLineId ≠ some k.locked.id) (hw : w'.workers = left)
    (hanswered : ∀ x ∈ w'.outside, x ∈ w.outside ∨
      x.2 = l ∧ l.reversesFolioLineId = some x.1) : Sound w' := by
  constructor
  · exact hlines
  · intro k hk
    exact hx.mem_old (hs.held k (hleft.subset (hw ▸ hk)))
  · exact hw ▸ hs.apart.sublist hleft
  · intro k hk r hr
    have hk := hw ▸ hk
    obtain ⟨horiginal, hnone⟩ := hs.cleared k (hleft.subset hk) r hr
    refine ⟨horiginal, fun m hm => ?_⟩
    rcases hx.mem.mp hm with hm | rfl
    · exact hnone m hm
    · exact hfree k hk
  · intro x hx'
    rcases hanswered x hx' with hold | ⟨heq, hrev⟩
    · obtain ⟨hmem, hrev⟩ := hs.answered x hold
      exact ⟨hx.mem_old hmem, hrev⟩
    · exact ⟨heq ▸ hx.mem_new, heq ▸ hrev⟩

theorem sound_step {i : Option ℕ} (hs : Sound w) (h : Step w w' i) : Sound w' := by
  cases h with
  | locks k hstage hmem hfree heq =>
    subst heq
    refine ⟨hs.lines, List.forall_mem_cons.mpr ⟨hmem, hs.held⟩,
      List.pairwise_cons.mpr ⟨fun j hj => (hfree j hj).symm, hs.apart⟩,
      List.forall_mem_cons.mpr ⟨fun r hr => ?_, hs.cleared⟩, hs.answered⟩
    rw [hstage] at hr
    cases hr
  | moves k k' hk hlocked hfound heq =>
    subst heq
    have hsub : (w.workers.erase k).Sublist w.workers := List.erase_sublist
    have hothers : ∀ j ∈ w.workers.erase k, j.locked.id ≠ k.locked.id := by
      have hperm := (List.perm_cons_erase hk).pairwise_iff (R := fun j k : Caller =>
        j.locked.id ≠ k.locked.id) fun hne => hne.symm
      exact fun j hj => ((List.pairwise_cons.mp (hperm.mp hs.apart)).1 j hj).symm
    refine ⟨hs.lines, List.forall_mem_cons.mpr ⟨hlocked ▸ hs.held k hk, ?_⟩,
      List.pairwise_cons.mpr ⟨?_, hs.apart.sublist hsub⟩,
      List.forall_mem_cons.mpr ⟨?_, ?_⟩, hs.answered⟩
    · exact fun j hj => hs.held j (hsub.subset hj)
    · exact fun j hj => hlocked ▸ (hothers j hj).symm
    · exact fun r hr => hlocked ▸ hfound r hr
    · exact fun j hj => hs.cleared j (hsub.subset hj)
  | answers k l hl hr heq =>
    subst heq
    have hsub : (w.workers.erase k).Sublist w.workers := List.erase_sublist
    refine ⟨hs.lines, fun j hj => hs.held j (hsub.subset hj), hs.apart.sublist hsub,
      fun j hj => hs.cleared j (hsub.subset hj), fun x hx => ?_⟩
    rcases List.mem_append.mp hx with hx | hx
    · exact hs.answered x hx
    · obtain rfl := List.mem_singleton.mp hx
      exact ⟨hl, hr⟩
  | posts k r d l hk hstage hd hl heq =>
    subst heq
    have hx : Table.Appends w.db.folioLines (posted w.db r d).folioLines l :=
      hl ▸ appends_posted rfl
    have hmem := hs.held k hk
    have hrev : l.reversesFolioLineId = some k.locked.id := by
      rw [hl, hd]
      rfl
    have hperm := (List.perm_cons_erase hk).pairwise_iff (R := fun j k : Caller =>
      j.locked.id ≠ k.locked.id) fun hne => hne.symm
    have hlines : Kept (posted w.db r d).folioLines :=
      kept_reverse hs.lines hmem (hs.cleared k hk r hstage) hx hrev
        (hl ▸ opposite_reversal (hs.lines.gross _ hmem) hd) (hl ▸ line_gross _ _)
    refine sound_append hs List.erase_sublist hlines hx (fun j hj he => ?_) rfl fun x hx => ?_
    · have hne := (List.pairwise_cons.mp (hperm.mp hs.apart)).1 j hj
      exact hne (Option.some.inj (hrev.symm.trans he))
    · rcases List.mem_append.mp hx with hx | hx
      · exact Or.inl hx
      · obtain rfl := List.mem_singleton.mp hx
        exact Or.inr ⟨rfl, hrev⟩
  | leaves k heq =>
    subst heq
    have hsub : (w.workers.erase k).Sublist w.workers := List.erase_sublist
    exact ⟨hs.lines, fun j hj => hs.held j (hsub.subset hj), hs.apart.sublist hsub,
      fun j hj => hs.cleared j (hsub.subset hj), hs.answered⟩
  | files l hl hx hworkers houtside =>
    refine sound_append hs (List.Sublist.refl _) (kept_file hs.lines hl hx) hx ?_ hworkers ?_
    · exact fun k _ he => by simp [hl.original] at he
    · exact fun x hx => Or.inl (houtside ▸ hx)
  | elsewhere hlines hworkers houtside =>
    exact ⟨hlines ▸ hs.lines, hlines ▸ hworkers ▸ hs.held, hworkers ▸ hs.apart,
      hlines ▸ hworkers ▸ hs.cleared, hlines ▸ houtside ▸ hs.answered⟩

end Invariant

section Runs
variable {w w' : Desk} {start : Desk} {op : Action}

structure Opening (w : Desk) : Prop where
  lines : w.db.folioLines.rows = []
  workers : w.workers = []
  outside : w.outside = []

theorem sound_of_opening (h : Opening w) : Sound w where
  lines := by
    refine ⟨⟨?_, ?_, ?_⟩, ?_, ?_⟩ <;> simp [h.lines, Traced]
  held := by simp [h.workers]
  apart := by simp [h.workers]
  cleared := by simp [h.workers]
  answered := by simp [h.outside]

theorem sound_of_reaches (h : Reaches Action.run Action.Admitted start w) (hstart : Opening start) :
    Sound w :=
  h.invariant (sound_of_opening hstart) fun _ _ _ hs ha hc => sound_step hs (step_run ha hc)

-- Once a line has been reversed, a call to reverse it adds nothing.
theorem unchanged_of_reversed {i : ℕ} (hs : Sound w) (h : Step w w' (some i))
    (hreversed : ∃ l ∈ w.db.folioLines.rows, l.reversesFolioLineId = some i) : w'.db = w.db := by
  cases h with
  | locks k hstage hmem hfree heq => rw [heq]
  | moves k k' hk hlocked hfound heq => rw [heq]
  | answers k l hl hr heq => rw [heq]
  | posts k r d l hk hstage hd hl heq =>
    obtain ⟨m, hm, hrev⟩ := hreversed
    exact absurd hrev ((hs.cleared k hk r hstage).2 m hm)
  | leaves k heq => rw [heq]

theorem reversals_exact_and_single (h : Reaches Action.run Action.Admitted start w)
    (hstart : Opening start) : Exact w.db.folioLines ∧
      (∀ x ∈ w.outside, x.2 ∈ w.db.folioLines.rows ∧ x.2.reversesFolioLineId = some x.1) ∧
        ∀ (op : Action) w' i, op.Admitted w → Commits op.run w () w' → op.lineId? = some i →
          (∃ l ∈ w.db.folioLines.rows, l.reversesFolioLineId = some i) → w'.db = w.db := by
  have hs := sound_of_reaches h hstart
  refine ⟨hs.lines.toExact, hs.answered, fun op w' i ha hc hi hreversed => ?_⟩
  exact unchanged_of_reversed hs (hi ▸ step_run ha hc) hreversed

end Runs

section Scenario

def guest (i : ℕ) : Reservation where
  id := i
  propertyId := 0
  programId := none
  bookingQuoteId := none
  status := .confirmed
  startsAt := 1000
  endsAt := 2000
  holdExpiresAt := none
  adults := 2
  children := 0
  currency := "USD"
  subtotalMinor := 10000
  taxMinor := 0
  totalMinor := 10000
  depositPolicy := none
  cancellationTiers := []
  folioStatus := .opened
  closureReason := none
  revision := 1

def counter : Desk where
  db := { clock := 0, catalogue := .empty, reservations := Table.empty.insert guest }
  outside := []

def minibar : FolioLine :=
  line (guest 0) { type := .charge, description := "Minibar", unitAmountMinor := -1250
                   taxAmountMinor := 75 } 0 0

def caller (reason : String) (stage : Stage) : Caller := ⟨minibar, reason, none, stage⟩

-- Two calls for the same line: the second one gets its turn when the first has committed.
def twice : List Action :=
  [.file minibar, .lock 0 "Entered twice" none, .checkOpen (caller "Entered twice" .locked),
    .lookUp (caller "Entered twice" .locked) (guest 0), .post (caller "Entered twice" .locked) (guest 0),
    .lock 0 "Again" none, .checkOpen (caller "Again" .locked), .lookUp (caller "Again" .locked) (guest 0)]

def filed (op : Action) (_ : Desk) : Bool :=
  match op with
  | .file l => decide (l.reversesFolioLineId = none ∧
      l.grossAmountMinor = l.netAmountMinor + l.taxAmountMinor)
  | _ => true

theorem admitted_of_filed {op : Action} {w : Desk} (h : filed op w = true) : op.Admitted w := by
  cases op with
  | file l =>
    obtain ⟨horiginal, hgross⟩ := of_decide_eq_true h
    exact ⟨horiginal, hgross⟩
  | _ => trivial

theorem minibar_reversed_once : ∃ w, Reaches Action.run Action.Admitted counter w ∧
    w.db.folioLines.rows.length = 2 ∧ w.outside.length = 2 ∧ Exact w.db.folioLines := by
  obtain ⟨w, hr, hp⟩ : ∃ w, Reaches Action.run Action.Admitted counter w ∧
      decide (w.db.folioLines.rows.length = 2 ∧ w.outside.length = 2) = true :=
    Reaches.exists_of_execute (fun _ _ => admitted_of_filed) twice
      (by decide +kernel)
  obtain ⟨hlines, hanswers⟩ := of_decide_eq_true hp
  exact ⟨w, hr, hlines, hanswers, (reversals_exact_and_single hr ⟨rfl, rfl, rfl⟩).1⟩

end Scenario
end FolioReversals
