import LodgeOps.Integrations.Mappings

namespace IntegrationMappingService
open Schema Transaction

section Conditions

def Single (s : MappingStore) : Prop :=
  ∀ m ∈ s.mappings.rows, ∀ m' ∈ s.mappings.rows, m.validUntil = none → m'.validUntil = none →
    m.identity = m'.identity → m = m'

-- The mapping that a call made is the only one of its identity without an end.
def Leaves (u : MappingStore) (c : VersionCall) (i : ℕ) : Prop :=
  ∃ m ∈ u.mappings.rows, m.id = i ∧ m.identity = c.identity ∧ m.validUntil = none ∧
    m.fields.localKey = c.fields.localKey ∧
    ∀ m' ∈ u.mappings.rows, m'.identity = c.identity → m'.validUntil = none → m' = m

-- What a call that found nothing to replace has not missed: the identity still has no current
-- mapping, or the unique key refuses the call.
def Unmissed (s : MappingStore) (f : InFlight) : Prop :=
  f.stage = .holding none → (∃ m ∈ s.mappings.rows, sameVersion f.call m = true) ∨
    ∀ m ∈ s.mappings.rows, m.identity = f.call.identity → m.validUntil ≠ none

def Careful (op : Operation) (s : MappingStore) : Prop :=
  match op with
  | .finish i => ∀ f, s.flights.find? i = some f → Unmissed s f
  | _ => True

end Conditions

section Writing
variable {vet : MappingFields → Except Failure Unit} {s t u : MappingStore} {f : InFlight}
variable {c : VersionCall} {i j : ℕ} {m : IntegrationMapping} {st : ConflictState}

theorem commits_create (h : Commits (create vet c st) s i u) :
    i = s.mappings.next ∧ (∀ m ∈ s.mappings.rows, sameVersion c m = false) ∧
      u = { s with
        mappings := s.mappings.insert (mapping c st s.clock) (names_mapping _ _ _) } := by
  simp only [create, commits_bind, commits_get, commits_check, commits_orFail, commits_reject,
    commits_set, commits_pure, List.any_eq_true, not_exists, not_and, Bool.not_eq_true] at h
  obtain ⟨_, _, ⟨rfl, rfl⟩, _, _, ⟨_, rfl⟩, _, _, ⟨_, rfl⟩, _, _, ⟨_, rfl⟩, h⟩ := h
  obtain ⟨_, _, ⟨_, rfl⟩, _, _, ⟨_, rfl⟩, _, _, ⟨hnew, rfl⟩, _, _, rfl, rfl, rfl⟩ := h
  exact ⟨rfl, hnew, rfl⟩

theorem commits_endPrevious {previous : IntegrationMapping} {x : Unit}
    (h : Commits (endPrevious vet c previous) s x u) :
    u = { s with
      mappings := s.mappings.update previous.id (ended (drifted c previous) s.clock)
        (keeps_ended _ _)
      drifts := u.drifts } := by
  simp only [endPrevious, commits_bind, commits_check, commits_modify] at h
  obtain ⟨_, _, ⟨_, rfl⟩, rfl⟩ := h
  rfl

-- The mappings after a call that succeeded: the row that it held is ended, and one is new.
structure Written (s u : MappingStore) (f : InFlight) (i : ℕ) : Prop where
  fresh : i = s.mappings.next
  new : ∃ st, mapping f.call st s.clock i ∈ u.mappings.rows
  kept : ∀ m ∈ s.mappings.rows, f.stage ≠ .holding (some m.id) → m ∈ u.mappings.rows
  closed : ∀ m ∈ s.mappings.rows, f.stage = .holding (some m.id) →
    ∃ b, ended b s.clock m ∈ u.mappings.rows
  rows : ∀ m ∈ u.mappings.rows, (∃ st, m = mapping f.call st s.clock i) ∨
    (m ∈ s.mappings.rows ∧ f.stage ≠ .holding (some m.id)) ∨ m.validUntil ≠ none
  unique : f.stage = .holding none → ∀ m ∈ s.mappings.rows, sameVersion f.call m = false
  flights : u.flights = s.flights

-- The rows of a table in which one row is changed and to which one is added.
theorem written_of_changes {b : Bool} {mappings : Table IntegrationMapping}
    (hs : f.stage = .holding (some j))
    (hupd : Table.Updates s.mappings mappings j (ended b s.clock))
    (happ : Table.Appends mappings u.mappings (mapping f.call st s.clock i))
    (hf : u.flights = s.flights) : Written s u f i := by
  have hstage : ∀ m : IntegrationMapping, f.stage = .holding (some m.id) ↔ m.id = j := by
    intro m
    rw [hs]
    constructor
    · intro he
      exact (Option.some.inj (Stage.holding.inj he)).symm
    · rintro rfl
      rfl
  refine ⟨happ.id.trans hupd.next, ⟨st, happ.mem_new⟩, ?_, ?_, ?_, ?_, hf⟩
  · intro m hm hne
    exact happ.mem_old (hupd.mem_ne hm (hne ∘ (hstage m).mpr))
  · intro m hm he
    exact ⟨b, happ.mem_old (hupd.mem_self hm ((hstage m).mp he))⟩
  · intro m hm
    rcases happ.mem.mp hm with hm | rfl
    · rcases hupd.mem.mp hm with ⟨hm, hne⟩ | ⟨q, _, _, rfl⟩
      · exact Or.inr (Or.inl ⟨hm, hne ∘ (hstage m).mp⟩)
      · exact Or.inr (Or.inr (Option.some_ne_none _))
    · exact Or.inl ⟨st, rfl⟩
  · intro he
    rw [hs] at he
    cases he

theorem written_write (h : Commits (write vet f) s i u) : Written s u f i := by
  simp only [write, commits_bind, commits_get] at h
  obtain ⟨_, _, ⟨rfl, rfl⟩, h⟩ := h
  cases hs : f.stage with
  | reading ids =>
    rw [hs] at h
    exact absurd h commits_throw
  | holding previous =>
    cases previous with
    | none =>
      rw [hs] at h
      obtain ⟨rfl, hnew, rfl⟩ := commits_create h
      have happ : Table.Appends s.mappings (s.mappings.insert (mapping f.call .clear s.clock)
          (names_mapping _ _ _)) (mapping f.call .clear s.clock s.mappings.next) :=
        Table.appends_insert _
      refine ⟨rfl, ⟨_, happ.mem_new⟩, fun m hm _ => happ.mem_old hm, ?_, ?_, fun _ => hnew, rfl⟩
      · intro m _ hstage
        rw [hs] at hstage
        cases hstage
      · intro m hm
        rcases happ.mem.mp hm with hm | rfl
        · exact Or.inr (Or.inl ⟨hm, by simp [hs]⟩)
        · exact Or.inl ⟨_, rfl⟩
    | some j =>
      simp only [hs, commits_bind, commits_orFail] at h
      obtain ⟨previous, _, ⟨hp, rfl⟩, _, t, hend, h⟩ := h
      have ht := commits_endPrevious hend
      obtain ⟨rfl, _, rfl⟩ := commits_create h
      obtain rfl : previous.id = j := (Table.find?_eq_some.mp hp).2
      have hclock : t.clock = s.clock := by rw [ht]
      have hupd : Table.Updates s.mappings t.mappings previous.id
          (ended (drifted f.call previous) s.clock) := by
        rw [ht]
        exact Table.updates_update (keeps_ended _ _)
      have happ : Table.Appends t.mappings
          (t.mappings.insert (mapping f.call (inherited f.call previous) t.clock)
            (names_mapping _ _ _))
          (mapping f.call (inherited f.call previous) s.clock t.mappings.next) := by
        rw [← hclock]
        exact Table.appends_insert _
      have hflights : t.flights = s.flights := by rw [ht]
      exact written_of_changes hs hupd happ hflights

end Writing

section Rows
variable {vet : MappingFields → Except Failure Unit} {s t u : MappingStore} {f g : InFlight}
variable {c : VersionCall} {i j : ℕ} {m : IntegrationMapping}

theorem not_single_of_missed (h : Written s u f i) (hu : Single u) : Unmissed s f := by
  refine fun hnone => Or.inr fun m hm hid hcur => ?_
  obtain ⟨st, hnew⟩ := h.new
  have hold : m ∈ u.mappings.rows := h.kept m hm (by simp [hnone])
  obtain rfl : m = mapping f.call st s.clock i := hu m hold _ hnew hcur rfl hid
  have hlt : i < s.mappings.next := Table.id_lt_next hm
  exact absurd h.fresh hlt.ne

-- What holds of the mappings and of the transactions in flight in every run.
structure Sound (s : MappingStore) : Prop where
  single : Single s
  read : ∀ f ∈ s.flights.rows, ∀ ids, f.stage = .reading ids → ∀ j ∈ ids,
    ∃ m ∈ s.mappings.rows, m.id = j ∧ m.identity = f.call.identity
  held : ∀ f ∈ s.flights.rows, ∀ j, f.stage = .holding (some j) →
    ∃ m ∈ s.mappings.rows, m.id = j ∧ m.identity = f.call.identity ∧ m.validUntil = none
  apart : ∀ f ∈ s.flights.rows, ∀ g ∈ s.flights.rows, ∀ j, f.stage = .holding (some j) →
    g.stage = .holding (some j) → f = g

-- A current row that the call did not hold is not of the identity that the call is about.
theorem other_identity (h : Written s u f i) (hs : Sound s) (hf : f ∈ s.flights.rows)
    (hr : f.stage.ready = true) (hun : Unmissed s f) (hm : m ∈ s.mappings.rows)
    (hne : f.stage ≠ .holding (some m.id)) (hcur : m.validUntil = none) :
    m.identity ≠ f.call.identity := by
  intro hid
  cases hstage : f.stage with
  | reading ids => simp [hstage, Stage.ready] at hr
  | holding previous =>
    cases previous with
    | none =>
      rcases hun hstage with ⟨q, hq, hv⟩ | hnone
      · exact absurd hv (by simp [h.unique hstage q hq])
      · exact hnone m hm hid hcur
    | some j =>
      obtain ⟨q, hq, rfl, hqid, hqcur⟩ := hs.held f hf j hstage
      obtain rfl := hs.single m hm q hq hcur hqcur (hid.trans hqid.symm)
      exact hne hstage

theorem current_cases (h : Written s u f i) (hm : m ∈ u.mappings.rows) (hcur : m.validUntil = none) :
    (∃ st, m = mapping f.call st s.clock i) ∨
      (m ∈ s.mappings.rows ∧ f.stage ≠ .holding (some m.id)) := by
  rcases h.rows m hm with hnew | hold | hend
  · exact Or.inl hnew
  · exact Or.inr hold
  · exact absurd hcur hend

theorem single_written (h : Written s u f i) (hs : Sound s) (hf : f ∈ s.flights.rows)
    (hr : f.stage.ready = true) (hun : Unmissed s f) : Single u := by
  intro m hm m' hm' hcur hcur' hid
  rcases current_cases h hm hcur with ⟨st, rfl⟩ | ⟨hold, hne⟩
  · rcases current_cases h hm' hcur' with ⟨st', rfl⟩ | ⟨hold', hne'⟩
    · exact Table.eq_of_id hm hm' rfl
    · exact absurd hid.symm (other_identity h hs hf hr hun hold' hne' hcur')
  · rcases current_cases h hm' hcur' with ⟨st', rfl⟩ | ⟨hold', hne'⟩
    · exact absurd hid (other_identity h hs hf hr hun hold hne hcur)
    · exact hs.single m hold m' hold' hcur hcur' hid

theorem leaves_written (h : Written s u f i) (hu : Single u) : Leaves u f.call i := by
  obtain ⟨st, hnew⟩ := h.new
  exact ⟨_, hnew, rfl, rfl, rfl, rfl, fun m' hm' hid hcur => hu m' hm' _ hnew hcur rfl hid⟩

-- Every row of before is still there, with what identifies it.
theorem row_written (h : Written s u f i) (hm : m ∈ s.mappings.rows) :
    ∃ m' ∈ u.mappings.rows, m'.id = m.id ∧ m'.identity = m.identity := by
  by_cases he : f.stage = .holding (some m.id)
  · obtain ⟨b, hb⟩ := h.closed m hm he
    exact ⟨_, hb, rfl, rfl⟩
  · exact ⟨m, h.kept m hm he, rfl, rfl⟩

theorem sound_written (h : Written s u f i) (hs : Sound s) (hf : f ∈ s.flights.rows)
    (hr : f.stage.ready = true) (hun : Unmissed s f) :
    Sound { u with flights := u.flights.deleteWhere fun g => g.id == f.id } where
  single := by
    have hu : Single u := single_written h hs hf hr hun
    exact hu
  read g hg ids hstage j hj := by
    obtain ⟨hg, _⟩ := (Table.mem_deleteWhere).mp hg
    obtain ⟨m, hm, rfl, hid⟩ := hs.read g (h.flights ▸ hg) ids hstage j hj
    obtain ⟨m', hm', he, hid'⟩ := row_written h hm
    exact ⟨m', hm', he, hid'.trans hid⟩
  held g hg j hstage := by
    obtain ⟨hg, hne⟩ := (Table.mem_deleteWhere).mp hg
    rw [h.flights] at hg
    obtain ⟨m, hm, rfl, hid, hcur⟩ := hs.held g hg j hstage
    refine ⟨m, h.kept m hm fun he => ?_, rfl, hid, hcur⟩
    obtain rfl := hs.apart g hg f hf m.id hstage he
    simp at hne
  apart f' hf' g' hg' := by
    obtain ⟨hf', _⟩ := (Table.mem_deleteWhere).mp hf'
    obtain ⟨hg', _⟩ := (Table.mem_deleteWhere).mp hg'
    rw [h.flights] at hf' hg'
    exact hs.apart f' hf' g' hg'

end Rows

section Runs
variable {vet : MappingFields → Except Failure Unit} {s t u : MappingStore} {f : InFlight}
variable {c : VersionCall} {i : ℕ} {op : Operation}

theorem sound_congr (hs : Sound s) (hm : u.mappings = s.mappings)
    (hf : ∀ f ∈ u.flights.rows, f ∈ s.flights.rows) : Sound u where
  single := by
    have hu : Single s := hs.single
    rwa [Single, ← hm] at hu
  read f h ids := by
    rw [hm]
    exact hs.read f (hf f h) ids
  held f h j := by
    rw [hm]
    exact hs.held f (hf f h) j
  apart f h g hg := hs.apart f (hf f h) g (hf g hg)

theorem sound_start (hs : Sound s) (h : Commits (start vet c) s () u) : Sound u := by
  simp only [start, commits_bind, commits_check, commits_modify] at h
  obtain ⟨_, _, ⟨_, rfl⟩, rfl⟩ := h
  have hmem : ∀ f, f ∈ (s.flights.insert (flight c (.reading (candidates s c.identity)))
      (names_flight _ _)).rows ↔ f ∈ s.flights.rows ∨
        f = flight c (.reading (candidates s c.identity)) s.flights.next :=
    fun f => Table.mem_insert _
  refine ⟨hs.single, ?_, ?_, ?_⟩
  · intro f hf ids hstage j hj
    rcases (hmem f).mp hf with hf | rfl
    · exact hs.read f hf ids hstage j hj
    · obtain rfl := Stage.reading.inj hstage
      obtain ⟨m, hm, rfl⟩ := List.mem_map.mp hj
      obtain ⟨hm, hcur⟩ := Table.mem_select.mp ((List.mem_insertionSort _).mp hm)
      simp only [current, Bool.and_eq_true, beq_iff_eq] at hcur
      exact ⟨m, hm, rfl, hcur.1⟩
  · intro f hf j hstage
    rcases (hmem f).mp hf with hf | rfl
    · exact hs.held f hf j hstage
    · cases hstage
  · intro f hf g hg j hstage hstage'
    rcases (hmem f).mp hf with hf | rfl
    · rcases (hmem g).mp hg with hg | rfl
      · exact hs.apart f hf g hg j hstage hstage'
      · cases hstage'
    · cases hstage

-- A transaction that goes on without a row, or with fewer candidates.
theorem sound_advance {stage : Stage} (hs : Sound s) (hf : f ∈ s.flights.rows)
    (hread : ∀ ids, stage = .reading ids → ∀ j ∈ ids,
      ∃ m ∈ s.mappings.rows, m.id = j ∧ m.identity = f.call.identity)
    (hheld : ∀ j, stage = .holding (some j) →
      (∃ m ∈ s.mappings.rows, m.id = j ∧ m.identity = f.call.identity ∧ m.validUntil = none) ∧
      ∀ g ∈ s.flights.rows, g.stage ≠ .holding (some j)) :
    Sound { s with flights := s.flights.update f.id (atStage stage) (keeps_atStage _) } := by
  have hupd : Table.Updates s.flights (s.flights.update f.id (atStage stage) (keeps_atStage _)) f.id
      (atStage stage) := Table.updates_update _
  have hmem : ∀ g ∈ (s.flights.update f.id (atStage stage) (keeps_atStage _)).rows,
      g ∈ s.flights.rows ∨ g = atStage stage f := by
    intro g hg
    rcases hupd.mem_cases hf rfl hg with ⟨hg, _⟩ | he
    · exact Or.inl hg
    · exact Or.inr he
  refine ⟨hs.single, ?_, ?_, ?_⟩
  · intro g hg ids hstage
    rcases hmem g hg with hg | rfl
    · exact hs.read g hg ids hstage
    · exact hread ids hstage
  · intro g hg j hstage
    rcases hmem g hg with hg | rfl
    · exact hs.held g hg j hstage
    · exact (hheld j hstage).1
  · intro g hg g' hg' j hstage hstage'
    rcases hmem g hg with hg | rfl
    · rcases hmem g' hg' with hg' | rfl
      · exact hs.apart g hg g' hg' j hstage hstage'
      · exact absurd hstage ((hheld j hstage').2 g hg)
    · rcases hmem g' hg' with hg' | rfl
      · exact absurd hstage' ((hheld j hstage).2 g' hg')
      · rfl

theorem sound_lock (hs : Sound s) (h : Commits (lock i) s () u) : Sound u := by
  simp only [lock, flight?, commits_bind, commits_get, commits_orFail] at h
  obtain ⟨_, _, ⟨rfl, rfl⟩, f, _, ⟨_, _, ⟨rfl, rfl⟩, hfind, rfl⟩, h⟩ := h
  obtain ⟨hf, rfl⟩ := Table.find?_eq_some.mp hfind
  cases hstage : f.stage with
  | holding previous =>
    rw [hstage] at h
    exact absurd h commits_throw
  | reading ids =>
    cases ids with
    | nil =>
      rw [hstage] at h
      obtain rfl := commits_modify.mp h
      exact sound_advance hs hf (fun _ he => by cases he) (fun _ he => by cases he)
    | cons j rest =>
      have hread := hs.read f hf (j :: rest) hstage
      simp only [hstage, advance, commits_bind, commits_reject, commits_orFail, commits_ite,
        commits_modify, List.any_eq_true, holds, beq_iff_eq, not_exists, not_and] at h
      obtain ⟨_, _, ⟨hfree, rfl⟩, m, _, ⟨hm, rfl⟩, ⟨hcur, rfl⟩ | ⟨_, rfl⟩⟩ := h
      · apply sound_advance hs hf
        · intro _ he
          cases he
        · intro k he
          obtain rfl : j = k := Option.some.inj (Stage.holding.inj he)
          obtain ⟨q, hq, hqi, hid⟩ := hread j List.mem_cons_self
          obtain ⟨hmem, hmi⟩ := Table.find?_eq_some.mp hm
          obtain rfl := Table.eq_of_id hmem hq (hmi.trans hqi.symm)
          exact ⟨⟨m, hq, hqi, hid, Option.isNone_iff_eq_none.mp hcur⟩, hfree⟩
      · apply sound_advance hs hf
        · intro ids he k hk
          obtain rfl := Stage.reading.inj he
          exact hread k (List.mem_cons_of_mem j hk)
        · intro _ he
          cases he

theorem sound_finish (hs : Sound s) (hc : Careful (.finish i) s)
    (h : Commits (finish vet i) s () u) : Sound u := by
  simp only [finish, flight?, leave, commits_bind, commits_get, commits_orFail, commits_reject,
    commits_modify, Bool.not_eq_false] at h
  obtain ⟨f, _, ⟨_, _, ⟨rfl, rfl⟩, hfind, rfl⟩, _, _, ⟨hready, rfl⟩, r, v, hr, rfl⟩ := h
  obtain ⟨hf, rfl⟩ := Table.find?_eq_some.mp hfind
  rcases commits_attempt.mp hr with ⟨k, _, hw⟩ | ⟨_, _, _, rfl⟩
  · exact sound_written (written_write hw) hs hf hready (hc f hfind)
  · exact sound_congr hs rfl fun g hg => ((Table.mem_deleteWhere).mp hg).1

theorem sound_step (hs : Sound s) (hc : Careful op s) (h : Commits (op.run vet) s () u) :
    Sound u := by
  cases op with
  | start c => exact sound_start hs h
  | lock i => exact sound_lock hs h
  | finish i => exact sound_finish hs hc h
  | rollback i =>
    obtain rfl := commits_modify.mp h
    exact sound_congr hs rfl fun g hg => ((Table.mem_deleteWhere).mp hg).1
  | connect i capabilities =>
    obtain rfl := commits_modify.mp h
    exact sound_congr hs rfl fun g hg => hg
  | wait seconds =>
    obtain rfl := commits_modify.mp h
    exact sound_congr hs rfl fun g hg => hg

structure Opening (s : MappingStore) : Prop where
  single : Single s
  idle : s.flights.rows = []

theorem sound_of_opening (h : Opening s) : Sound s where
  single := h.single
  read := by simp [h.idle]
  held := by simp [h.idle]
  apart := by simp [h.idle]

theorem one_current_mapping_iff (hs : Opening s) (h : Reaches (Operation.run vet) Careful s t) :
    Single t ∧ ∀ f ∈ t.flights.rows, ∀ i u, Commits (write vet f) t i u →
      (Single u ∧ Leaves u f.call i ↔ Unmissed t f) := by
  have ht : Sound t :=
    h.invariant (sound_of_opening hs) fun _ _ _ hs hc hrun => sound_step hs hc hrun
  refine ⟨ht.single, fun f hf i u hw => ?_⟩
  have hwritten := written_write hw
  constructor
  · intro hu
    exact not_single_of_missed hwritten hu.1
  · intro hun
    have hready : f.stage.ready = true := by
      cases hstage : f.stage with
      | reading ids =>
        simp only [write, hstage, commits_bind, commits_throw, exists_false, and_false] at hw
      | holding previous => rfl
    have hu := single_written hwritten ht hf hready hun
    exact ⟨hu, leaves_written hwritten hu⟩

end Runs

section Scenario

def importer (i : ℕ) : IntegrationConnection where
  id := i
  propertyId := none
  capabilities := [.reservationsImport]
  isEnabled := true
  status := .connected
  secretReference := none
  revokedAt := none

theorem names_importer : Names importer := fun _ => rfl

def noMappings : MappingStore where
  connections := Table.empty.insert importer names_importer

theorem opening_noMappings : Opening noMappings := by
  refine ⟨?_, rfl⟩
  intro m hm
  cases hm

-- The same room of a channel, mapped to a room of the house.
def roomCall (localKey : String) (transformVersion : ℤ) : VersionCall where
  connection := importer 0
  propertyScopeId := none
  propertyId := none
  fields := {
    capability := .reservationsImport
    direction := .inbound
    localEntityType := "room"
    localKey := localKey
    externalEntityType := "room"
    externalKey := "channel-room-1"
    safeFacts := .null }
  transformVersion := transformVersion

def admitAll (_ : MappingFields) : Except Failure Unit := .ok ()

def inTurn : List Operation :=
  [.start (roomCall "room-1" 1), .lock 0, .finish 0, .start (roomCall "room-2" 2), .lock 1]

def racing : List Operation :=
  [.start (roomCall "room-1" 1), .start (roomCall "room-2" 2), .lock 0, .lock 1, .finish 0,
    .finish 1]

-- The second call waits for the row that the first one ends, and then finds nothing.
def waiting : List Operation :=
  [.start (roomCall "room-1" 1), .lock 0, .finish 0, .start (roomCall "room-2" 2),
    .start (roomCall "room-3" 3), .lock 1, .finish 1, .lock 2, .lock 2, .finish 2]

def twoOpen (t : MappingStore) : Bool :=
  t.mappings.rows.any fun m => t.mappings.rows.any fun m' => m.validUntil.isNone &&
    m'.validUntil.isNone && decide (m.identity = m'.identity) && m.id != m'.id

theorem not_single_of_twoOpen {t : MappingStore} (h : twoOpen t = true) : ¬ Single t := by
  simp only [twoOpen, List.any_eq_true, Bool.and_eq_true, decide_eq_true_eq, bne_iff_ne, ne_eq,
    Option.isNone_iff_eq_none] at h
  obtain ⟨m, hm, m', hm', ⟨⟨hcur, hcur'⟩, hid⟩, hne⟩ := h
  intro hs
  apply hne
  rw [hs m hm m' hm' hcur hcur' hid]

theorem racing_versions_leave_two : Opening noMappings ∧
    (∃ t, Reaches (Operation.run admitAll) (fun _ _ => True) noMappings t ∧ ¬ Single t) ∧
    ∃ t, Reaches (Operation.run admitAll) (fun _ _ => True) noMappings t ∧
      t.mappings.rows.length = 3 ∧ ¬ Single t := by
  refine ⟨opening_noMappings, ?_, ?_⟩
  · obtain ⟨t, ht, hp⟩ : ∃ t, Reaches (Operation.run admitAll) (fun _ _ => True) noMappings t ∧
        twoOpen t = true := Reaches.exists_of_run racing (by decide)
    exact ⟨t, ht, not_single_of_twoOpen hp⟩
  · obtain ⟨t, ht, hp⟩ : ∃ t, Reaches (Operation.run admitAll) (fun _ _ => True) noMappings t ∧
        (decide (t.mappings.rows.length = 3) && twoOpen t) = true :=
      Reaches.exists_of_run waiting (by decide)
    simp only [Bool.and_eq_true, decide_eq_true_eq] at hp
    exact ⟨t, ht, hp.1, not_single_of_twoOpen hp.2⟩

def missesNothing (s : MappingStore) (f : InFlight) : Bool :=
  f.stage != .holding none ||
    s.mappings.rows.all fun m => m.identity != f.call.identity || m.validUntil.isSome

def admitted? (op : Operation) (s : MappingStore) : Bool :=
  match op with
  | .finish i => (s.flights.find? i).all (missesNothing s)
  | _ => true

theorem unmissed_of_check {s : MappingStore} {f : InFlight} (h : missesNothing s f = true) :
    Unmissed s f := by
  intro hnone
  refine Or.inr fun m hm hid hcur => ?_
  simp only [missesNothing, hnone, bne_self_eq_false, Bool.false_or, List.all_eq_true] at h
  have hrow := h m hm
  simp [hid, hcur] at hrow

theorem careful_of_admitted (op : Operation) (s : MappingStore) (h : admitted? op s = true) :
    Careful op s := by
  cases op with
  | finish i =>
    intro f hf
    simp only [admitted?, hf, Option.all_some] at h
    exact unmissed_of_check h
  | _ => trivial

def replaces (t : MappingStore) (f : InFlight) : Bool :=
  f.stage == .holding (some 0) && f.call.fields.localKey == "room-2" &&
    ((write admitAll f).run t).toOption.isSome

theorem second_version_replaces_first : ∃ t, Reaches (Operation.run admitAll) Careful noMappings t ∧
    ∃ f ∈ t.flights.rows, f.call.fields.localKey = "room-2" ∧
      ∃ i u, Commits (write admitAll f) t i u ∧ Single u ∧ Leaves u f.call i := by
  obtain ⟨t, ht, hp⟩ : ∃ t, Reaches (Operation.run admitAll) Careful noMappings t ∧
      t.flights.rows.any (replaces t) = true :=
    Reaches.exists_of_execute careful_of_admitted inTurn (by decide)
  obtain ⟨f, hf, hr⟩ := List.any_eq_true.mp hp
  simp only [replaces, Bool.and_eq_true, beq_iff_eq] at hr
  obtain ⟨⟨hstage, hkey⟩, hrun⟩ := hr
  obtain ⟨i, u, hw⟩ := exists_commits hrun
  obtain ⟨_, hiff⟩ := one_current_mapping_iff opening_noMappings ht
  have hun : Unmissed t f := fun hnone => absurd (hstage.symm.trans hnone) (by decide)
  obtain ⟨hsingle, hleaves⟩ := (hiff f hf i u hw).mpr hun
  exact ⟨t, ht, f, hf, hkey, i, u, hw, hsingle, hleaves⟩

end Scenario
end IntegrationMappingService
