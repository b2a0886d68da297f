import LodgeOps.Ledger.Outflow
import LodgeOps.Payments.ProviderEvents
import LodgeOps.Store.RevisionLog

namespace RevisionHeads
open Schema Transaction RevisionLog

section Ledgers

def revisionsOf (db : Database) (i : ℕ) : List ProviderDisputeRevision :=
  db.disputeRevisions.select fun v => v.providerDisputeId == i

def entryRevisions (db : Database) (i : ℕ) : List SettlementEntryRevision :=
  db.settlementRevisions.select fun v => v.settlementEntryId == i

-- The columns that a dispute and its revisions both have; the state is read off two of them.
structure DisputeColumns where
  state : ProviderDisputeState
  statusDetail : Option String
  amountMinor : ℤ
  currency : String
  reason : Option String
  coverageApplied : Option Bool
  documentationRequired : Option Bool
  documentationDeadline : Option ℤ
  providerCreatedAt : Option ℤ
  providerUpdatedAt : Option ℤ
deriving DecidableEq

def columns (f : DisputeFacts) : DisputeColumns where
  state := RecordProviderDispute.state f
  statusDetail := f.statusDetail
  amountMinor := f.amountMinor
  currency := f.currency
  reason := f.reason
  coverageApplied := f.coverageApplied
  documentationRequired := f.documentationRequired
  documentationDeadline := f.documentationDeadline
  providerCreatedAt := f.providerCreatedAt
  providerUpdatedAt := f.providerUpdatedAt

def rowColumns (d : ProviderDispute) : DisputeColumns where
  state := d.state
  statusDetail := d.statusDetail
  amountMinor := d.amountMinor
  currency := d.currency
  reason := d.reason
  coverageApplied := d.coverageApplied
  documentationRequired := d.documentationRequired
  documentationDeadline := d.documentationDeadline
  providerCreatedAt := d.providerCreatedAt
  providerUpdatedAt := d.providerUpdatedAt

def DisputeHead (db : Database) (d : ProviderDispute) : Prop :=
  ∃ v, Head ProviderDisputeRevision.revision (revisionsOf db d.id) v ∧
    columns v.facts = rowColumns d

def EntryHead (db : Database) (e : SettlementEntry) : Prop :=
  ∃ v, Head SettlementEntryRevision.revision (entryRevisions db e.id) v ∧
    v.checksum.facts = e.facts

def Differ (db : Database) : Prop :=
  (∀ v ∈ db.disputeRevisions.rows, ∀ w ∈ db.disputeRevisions.rows,
    v.providerDisputeId = w.providerDisputeId → w.revision = v.revision + 1 → v.facts ≠ w.facts) ∧
  ∀ v ∈ db.settlementRevisions.rows, ∀ w ∈ db.settlementRevisions.rows,
    v.settlementEntryId = w.settlementEntryId → w.revision = v.revision + 1 →
      v.checksum ≠ w.checksum

end Ledgers

section Runs

-- A delivery, or a step of anything else that works on the database.
inductive Operation
  | dispute (event : ProviderEvent) (remote : DisputeFacts)
  | settlement (attempt : PaymentAttempt) (p : ProviderPayment)
  | elsewhere (db : Database)

def Operation.run : Operation → Tx Unit
  | dispute event remote => do
    let _ ← RecordProviderDispute.handle event remote
    pure ()
  | settlement attempt p => RecordSettlementRevision.handle attempt p
  | elsewhere db => set db

-- The row that a delivery is about: the one it finds, or the one it will create.
def disputeId (db : Database) (event : ProviderEvent) (remote : DisputeFacts) : ℕ :=
  (db.disputes.first? fun d => d.provider == event.provider && d.environment == event.environment &&
    d.providerAccount == event.providerAccount &&
    d.providerDisputeId == remote.id).elim db.disputes.next ProviderDispute.id

def entryId (db : Database) (attempt : PaymentAttempt) (p : ProviderPayment) : ℕ :=
  (RecordSettlementRevision.recorded? db attempt p).elim db.settlementEntries.next SettlementEntry.id

structure Aside (s t : Database) : Prop where
  disputes : t.disputes = s.disputes
  disputeRevisions : t.disputeRevisions = s.disputeRevisions
  entries : t.settlementEntries = s.settlementEntries
  entryRevisions : t.settlementRevisions = s.settlementRevisions

def Admitted (op : Operation) (s : Database) : Prop :=
  match op with
  | .elsewhere db => Aside s db
  | _ => True

-- The facts of a delivery are new to their object, or its most recent revision has them.
def Careful (op : Operation) (s : Database) : Prop :=
  match op with
  | .dispute event remote =>
    remote ∉ (revisionsOf s (disputeId s event remote)).map ProviderDisputeRevision.facts ∨
      ∃ v, Head ProviderDisputeRevision.revision (revisionsOf s (disputeId s event remote)) v ∧
        columns v.facts = columns remote
  | .settlement attempt p =>
    RecordSettlementRevision.checksum p ∉
        (entryRevisions s (entryId s attempt p)).map SettlementEntryRevision.checksum ∨
      ∃ v, Head SettlementEntryRevision.revision (entryRevisions s (entryId s attempt p)) v ∧
        v.checksum.facts = RecordSettlementRevision.facts p
  | .elsewhere db => Aside s db

end Runs

section Recording
variable {db s t u : Database} {d e : ProviderDispute} {event : ProviderEvent}
variable {remote : DisputeFacts} {i j n : ℕ}

theorem select_appends {ρ : Type} [Keyed ρ] {t t' : Table ρ} {x : ρ} {p : ρ → Bool}
    (h : Table.Appends t t' x) : t'.select p = t.select p ++ if p x then [x] else [] := by
  rw [Table.select, h.rows, List.filter_append, List.filter_singleton, Bool.cond_eq_ite]
  rfl

theorem mem_facts : remote ∈ (revisionsOf db i).map ProviderDisputeRevision.facts ↔
    RecordProviderDispute.knownFacts db i remote = true := by
  simp only [RecordProviderDispute.knownFacts, revisionsOf, List.mem_map, Table.mem_select]
  cases hf : db.disputeRevisions.first? fun v => v.providerDisputeId == i && v.facts == remote with
  | none =>
    rw [Table.first?_eq_none] at hf
    simp only [Option.isSome_none, Bool.false_eq_true, iff_false]
    rintro ⟨v, ⟨hv, hi⟩, rfl⟩
    have hno := hf v hv
    simp [hi] at hno
  | some v =>
    obtain ⟨hv, hp⟩ := Table.first?_some hf
    simp only [Bool.and_eq_true, beq_iff_eq] at hp
    simp only [Option.isSome_some, iff_true]
    exact ⟨v, ⟨hv, by simpa using hp.1⟩, hp.2⟩

-- The revisions of all disputes after facts of one dispute were recorded.
structure Records (s t : Database) (i : ℕ) (remote : DisputeFacts) : Prop where
  own : RevisionLog.Records ProviderDisputeRevision.revision ProviderDisputeRevision.facts remote
    (revisionsOf s i) (revisionsOf t i)
  others : ∀ j, j ≠ i → revisionsOf t j = revisionsOf s j
  owners : ∀ v ∈ t.disputeRevisions.rows, v ∈ s.disputeRevisions.rows ∨ v.providerDisputeId = i

theorem records_recordRevision (hn : d.currentRevision = (revisionsOf s d.id).length)
    (h : Commits (RecordProviderDispute.recordRevision d event remote) s n t) :
    Records s t d.id remote ∧ n = (revisionsOf t d.id).length ∧
      t = { s with disputeRevisions := t.disputeRevisions } := by
  simp only [RecordProviderDispute.recordRevision, commits_bind, commits_get, commits_ite,
    commits_pure, commits_set] at h
  obtain ⟨_, _, ⟨rfl, rfl⟩, ⟨hk, rfl, rfl⟩ | ⟨hk, _, _, rfl, rfl, rfl⟩⟩ := h
  · exact ⟨⟨.known (mem_facts.mpr hk), fun _ _ => rfl, fun _ hv => Or.inl hv⟩, hn, rfl⟩
  · have happ : Table.Appends s.disputeRevisions (s.disputeRevisions.insert fun i =>
        { id := i, providerDisputeId := d.id, providerEventId := event.id
          revision := d.currentRevision + 1, facts := remote })
        { id := s.disputeRevisions.next, providerDisputeId := d.id, providerEventId := event.id
          revision := d.currentRevision + 1, facts := remote } := Table.appends_insert
    have hown := select_appends (p := fun v => v.providerDisputeId == d.id) happ
    rw [if_pos (beq_self_eq_true _)] at hown
    refine ⟨⟨?_, fun j hj => ?_, fun v hv => ?_⟩, ?_, rfl⟩
    · simp only [revisionsOf, hown]
      exact .new _ (mt mem_facts.mp hk) rfl (congrArg (· + 1) hn)
    · have hother := select_appends (p := fun v => v.providerDisputeId == j) happ
      rw [if_neg (by simpa using hj.symm), List.append_nil] at hother
      exact hother
    · rcases happ.mem.mp hv with hv | rfl
      · exact Or.inl hv
      · exact Or.inr rfl
    · simp only [revisionsOf, hown, List.length_append, List.length_singleton]
      exact congrArg (· + 1) hn

end Recording

section Disputes
variable {db s t u : Database} {d e : ProviderDispute} {event : ProviderEvent}
variable {remote : DisputeFacts} {r : Reservation} {p : Payment} {i n : ℕ}
variable {g : RecordProviderDispute.Graph}

structure Ledgered (db : Database) : Prop where
  disputes : ∀ i, Numbered ProviderDisputeRevision.revision ProviderDisputeRevision.facts
    (revisionsOf db i)
  counts : ∀ d ∈ db.disputes.rows, d.currentRevision = (revisionsOf db d.id).length
  owners : ∀ v ∈ db.disputeRevisions.rows, v.providerDisputeId < db.disputes.next
  entries : ∀ i, Numbered SettlementEntryRevision.revision SettlementEntryRevision.checksum
    (entryRevisions db i)
  entryOwners : ∀ v ∈ db.settlementRevisions.rows, v.settlementEntryId < db.settlementEntries.next

-- What the financial effect of a dispute leaves of the revisions and of its row.
structure Impacts (t u : Database) (d : ProviderDispute) : Prop where
  disputes : u.disputes = t.disputes ∨
    ∃ s, Table.Updates t.disputes u.disputes d.id (RecordProviderDispute.impact s)
  revisions : u.disputeRevisions = t.disputeRevisions
  entries : u.settlementEntries = t.settlementEntries
  entryRevisions : u.settlementRevisions = t.settlementRevisions

theorem impacts_of_marks {st : ProviderDisputeImpactState}
    (h : RecordProviderDispute.Marks t u d st) : Impacts t u d := by
  refine ⟨Or.inr ⟨st, h.disputes⟩, ?_, ?_, ?_⟩
  all_goals rw [h.frame]

theorem impacts_of_charges {st : ProviderDisputeImpactState} {l : FolioLine}
    (h : RecordProviderDispute.Charges t u d st l) : Impacts t u d := by
  refine ⟨Or.inr ⟨st, h.disputes⟩, ?_, ?_, ?_⟩
  all_goals rw [h.frame]

theorem impacts_of_impacted (h : RecordProviderDispute.Impacted t u d r p) : Impacts t u d := by
  cases h with
  | kept _ _ _ hu => exact hu ▸ ⟨Or.inl rfl, rfl, rfl, rfl⟩
  | suspended _ hm => exact impacts_of_marks hm
  | emptied _ _ _ hm => exact impacts_of_marks hm
  | debited _ _ _ _ _ hc => exact impacts_of_charges hc
  | credited _ _ _ _ _ _ _ hc => exact impacts_of_charges hc

theorem dispute?_of_found (h : RecordProviderDispute.Found db event remote g) :
    RecordProviderDispute.dispute? db g.attempt remote.id =
      db.disputes.first? fun d => d.provider == event.provider &&
        d.environment == event.environment && d.providerAccount == event.providerAccount &&
        d.providerDisputeId == remote.id := by
  obtain ⟨_, hp⟩ := Table.first?_some h.attempt
  simp only [Bool.and_eq_true, beq_iff_eq] at hp
  obtain ⟨⟨⟨⟨_, hprovider⟩, henvironment⟩, haccount⟩, _⟩ := hp
  rw [RecordProviderDispute.dispute?, hprovider, henvironment, haccount]

theorem revisions_of_new (h : Ledgered db) (hi : db.disputes.next ≤ i) : revisionsOf db i = [] := by
  rw [revisionsOf, Table.select, List.filter_eq_nil_iff]
  intro v hv hown
  have hlt := h.owners v hv
  rw [beq_iff_eq.mp hown] at hlt
  exact absurd hlt (not_lt.mpr hi)

-- The row that a delivery opens is the one it is about, and counts its revisions.
theorem opened_row (h : Ledgered db) (hfound : RecordProviderDispute.Found db event remote g)
    (ho : RecordProviderDispute.Opened db s g remote d) :
    d.id = disputeId db event remote ∧ d.currentRevision = (revisionsOf db d.id).length ∧
      db.disputes.next ≤ s.disputes.next ∧
      ∀ d' ∈ s.disputes.rows, d'.id ≠ d.id → d' ∈ db.disputes.rows := by
  have hsame := dispute?_of_found hfound
  rcases ho.row with ⟨hd, hs⟩ | ⟨hd, rfl, happ⟩
  · rw [disputeId, ← hsame, hd, hs]
    exact ⟨rfl, h.counts d (Table.first?_some hd).1, le_rfl, fun _ hmem _ => hmem⟩
  · rw [disputeId, ← hsame, hd, happ.next]
    refine ⟨rfl, ?_, Nat.le_succ _, fun d' hmem hne => ?_⟩
    · have hnone : revisionsOf db db.disputes.next = [] := revisions_of_new h le_rfl
      exact (congrArg List.length hnone).symm
    · rcases happ.mem.mp hmem with hmem | rfl
      · exact hmem
      · exact absurd rfl hne

structure DisputeStep (db u : Database) (i : ℕ) (remote : DisputeFacts) : Prop where
  records : Records db u i remote
  rows : ∀ d ∈ u.disputes.rows, (d.id ≠ i ∧ d ∈ db.disputes.rows) ∨
    (d.id = i ∧ rowColumns d = columns remote ∧ d.currentRevision = (revisionsOf u i).length)
  next : db.disputes.next ≤ u.disputes.next
  own : i < u.disputes.next
  entries : u.settlementEntries = db.settlementEntries
  entryRevisions : u.settlementRevisions = db.settlementRevisions

theorem columns_of_impact {st : ProviderDisputeImpactState} :
    rowColumns (RecordProviderDispute.impact st d) = rowColumns d := rfl

-- The disputes after the row of one of them was written, and perhaps marked.
theorem rows_of_impacts {m : ProviderDispute} (hd : d ∈ s.disputes.rows)
    (hupd : Table.Updates s.disputes t.disputes d.id (RecordProviderDispute.refreshed remote n))
    (himp : Impacts t u m) (hm : m.id = d.id) (he : e ∈ u.disputes.rows) :
    (e.id ≠ d.id ∧ e ∈ s.disputes.rows) ∨
      (e.id = d.id ∧ rowColumns e = columns remote ∧ e.currentRevision = n) := by
  have hrow : ∀ q ∈ t.disputes.rows, (q.id ≠ d.id ∧ q ∈ s.disputes.rows) ∨
      (q.id = d.id ∧ rowColumns q = columns remote ∧ q.currentRevision = n) := by
    intro q hq
    rcases hupd.mem_cases hd rfl hq with ⟨hq, hne⟩ | rfl
    · exact Or.inl ⟨hne, hq⟩
    · exact Or.inr ⟨rfl, rfl, rfl⟩
  rcases himp.disputes with hsame | ⟨st, himpact⟩
  · exact hrow e (hsame ▸ he)
  · rcases himpact.mem.mp he with ⟨he, _⟩ | ⟨q, hq, hid, rfl⟩
    · exact hrow e he
    · rcases hrow q hq with ⟨hne, _⟩ | hown
      · exact absurd (hid.trans hm) hne
      · exact Or.inr hown

theorem disputeStep_handle (h : Ledgered db)
    (hc : Commits (RecordProviderDispute.handle event remote) db e u) :
    DisputeStep db u (disputeId db event remote) remote ∧ e ∈ u.disputes.rows ∧
      e.id = disputeId db event remote := by
  simp only [RecordProviderDispute.handle, commits_bind, commits_reject, commits_get,
    commits_orFail] at hc
  obtain ⟨g, w, hloc, _, _, ⟨_, rfl⟩, d, s, hopen, n, s', hrev, _, t, hsave, _, v, himp, _, _,
    ⟨rfl, rfl⟩, he, rfl⟩ := hc
  obtain ⟨hfound, hw⟩ := RecordProviderDispute.commits_locate hloc
  obtain rfl : db = w := hw.symm
  have ho := RecordProviderDispute.commits_firstOrCreate hopen
  obtain ⟨hid, hcount, hnext, hother⟩ := opened_row h hfound ho
  have hrevisions : s.disputeRevisions = db.disputeRevisions := by rw [ho.frame]
  have hof : ∀ j, revisionsOf s j = revisionsOf db j := by
    intro j
    rw [revisionsOf, hrevisions]
    rfl
  obtain ⟨hrec, hn, hs'⟩ := records_recordRevision (by rw [hof]; exact hcount) hrev
  simp only [RecordProviderDispute.saveDispute, commits_modify] at hsave
  have himpacts := impacts_of_impacted (RecordProviderDispute.commits_applyImpact himp)
  have hdisputes : s'.disputes = s.disputes := by rw [hs']
  have hupd : Table.Updates s.disputes t.disputes d.id
      (RecordProviderDispute.refreshed remote n) := by
    rw [← hsave, ← hdisputes]
    exact Table.updates_update
  have hlater : v.disputeRevisions = s'.disputeRevisions := by
    rw [himpacts.revisions, ← hsave]
  have hofv : ∀ j, revisionsOf v j = revisionsOf s' j := by
    intro j
    rw [revisionsOf, hlater]
    rfl
  have hvnext : s.disputes.next = v.disputes.next := by
    rcases himpacts.disputes with hsame | ⟨_, hupd'⟩
    · rw [hsame, hupd.next]
    · rw [hupd'.next, hupd.next]
  obtain ⟨hemem, heid⟩ := Table.find?_eq_some.mp he
  rw [← hid]
  refine ⟨⟨⟨?_, fun j hj => ?_, fun w hw => ?_⟩, fun q hq => ?_, hvnext ▸ hnext, ?_, ?_, ?_⟩,
    hemem, heid⟩
  · rw [hofv, ← hof]
    exact hrec.own
  · rw [hofv, ← hof]
    exact hrec.others j hj
  · rw [hlater] at hw
    rw [← hrevisions]
    exact hrec.owners w hw
  · rw [hofv, ← hn]
    rcases rows_of_impacts ho.mem hupd himpacts rfl hq with ⟨hne, hq⟩ | hown
    · exact Or.inl ⟨hne, hother q hq hne⟩
    · exact Or.inr hown
  · rw [← hvnext]
    exact Table.id_lt_next ho.mem
  · rw [himpacts.entries, ← hsave, hs', ho.frame]
  · rw [himpacts.entryRevisions, ← hsave, hs', ho.frame]

end Disputes

section Settlements
open RecordSettlementRevision
variable {db s t u : Database} {attempt : PaymentAttempt} {p : ProviderPayment} {i j : ℕ}
variable {e : SettlementEntry} {x : Unit}

theorem foldl_max_range (n : ℕ) : (List.range' 1 n).foldl max 0 = n := by
  induction n with
  | zero => rfl
  | succ n ih =>
    rw [List.range'_concat, List.foldl_append, ih, List.foldl_cons, List.foldl_nil]
    omega

theorem nextRevision_eq (h : Numbered SettlementEntryRevision.revision
    SettlementEntryRevision.checksum (entryRevisions db i)) :
    nextRevision db i = (entryRevisions db i).length + 1 := by
  have hmax := foldl_max_range (entryRevisions db i).length
  rw [← h.numbers] at hmax
  exact congrArg (· + 1) hmax

theorem mem_checksums : checksum p ∈ (entryRevisions db i).map SettlementEntryRevision.checksum ↔
    (db.settlementRevisions.first? fun v =>
      v.settlementEntryId == i && v.checksum == checksum p).isSome = true := by
  simp only [entryRevisions, List.mem_map, Table.mem_select]
  cases hf : db.settlementRevisions.first? fun v =>
      v.settlementEntryId == i && v.checksum == checksum p with
  | none =>
    rw [Table.first?_eq_none] at hf
    simp only [Option.isSome_none, Bool.false_eq_true, iff_false]
    rintro ⟨v, ⟨hv, hi⟩, he⟩
    have hno := hf v hv
    simp [hi, he] at hno
  | some v =>
    obtain ⟨hv, hp⟩ := Table.first?_some hf
    simp only [Bool.and_eq_true, beq_iff_eq] at hp
    simp only [Option.isSome_some, iff_true]
    exact ⟨v, ⟨hv, by simpa using hp.1⟩, hp.2⟩

-- The entry that a delivery opens is the one it is about.
theorem opened_entry (h : Commits (RecordSettlementRevision.firstOrCreate attempt p) db i s) :
    i = entryId db attempt p ∧ s = { db with settlementEntries := s.settlementEntries } ∧
      db.settlementEntries.next ≤ s.settlementEntries.next ∧ i < s.settlementEntries.next ∧
      ∀ e ∈ s.settlementEntries.rows, e.id ≠ i → e ∈ db.settlementEntries.rows := by
  simp only [RecordSettlementRevision.firstOrCreate, commits_bind, commits_get] at h
  obtain ⟨_, _, ⟨rfl, rfl⟩, h⟩ := h
  cases hd : recorded? db attempt p with
  | some e =>
    simp only [hd, commits_pure] at h
    obtain ⟨rfl, rfl⟩ := h
    have hi : entryId db attempt p = e.id := by rw [entryId, hd]; rfl
    exact ⟨hi.symm, rfl, le_rfl, Table.id_lt_next (Table.first?_some hd).1, fun _ he _ => he⟩
  | none =>
    simp only [hd, commits_bind, commits_set, commits_pure] at h
    obtain ⟨_, _, rfl, rfl, rfl⟩ := h
    have hi : entryId db attempt p = db.settlementEntries.next := by rw [entryId, hd]; rfl
    have happ : Table.Appends db.settlementEntries (db.settlementEntries.insert (opened attempt p))
        (opened attempt p db.settlementEntries.next) := Table.appends_insert
    refine ⟨hi.symm, rfl, Nat.le_succ _, Nat.lt_succ_self _, fun e he hne => ?_⟩
    rcases happ.mem.mp he with he | rfl
    · exact he
    · exact absurd rfl hne

-- The revisions of all entries after facts of one entry were recorded.
structure EntryRecords (s t : Database) (i : ℕ) (p : ProviderPayment) : Prop where
  own : RevisionLog.Records SettlementEntryRevision.revision SettlementEntryRevision.checksum
    (checksum p) (entryRevisions s i) (entryRevisions t i)
  others : ∀ j, j ≠ i → entryRevisions t j = entryRevisions s j
  owners : ∀ v ∈ t.settlementRevisions.rows, v ∈ s.settlementRevisions.rows ∨
    v.settlementEntryId = i

theorem records_entryRevision (h : Numbered SettlementEntryRevision.revision
      SettlementEntryRevision.checksum (entryRevisions s i))
    (hc : Commits (RecordSettlementRevision.recordRevision i p) s x t) :
    EntryRecords s t i p ∧ t = { s with settlementRevisions := t.settlementRevisions } := by
  simp only [RecordSettlementRevision.recordRevision, commits_bind, commits_get, commits_ite,
    commits_pure, commits_set] at hc
  obtain ⟨_, _, ⟨rfl, rfl⟩, ⟨hk, _, rfl⟩ | ⟨hk, rfl⟩⟩ := hc
  · exact ⟨⟨.known (mem_checksums.mpr hk), fun _ _ => rfl, fun _ hv => Or.inl hv⟩, rfl⟩
  · have happ : Table.Appends s.settlementRevisions (s.settlementRevisions.insert fun j =>
        { id := j, settlementEntryId := i, revision := nextRevision s i
          checksum := checksum p, recordedAt := s.clock })
        { id := s.settlementRevisions.next, settlementEntryId := i, revision := nextRevision s i
          checksum := checksum p, recordedAt := s.clock } := Table.appends_insert
    have hown := select_appends (p := fun v => v.settlementEntryId == i) happ
    rw [if_pos (beq_self_eq_true _)] at hown
    refine ⟨⟨?_, fun j hj => ?_, fun v hv => ?_⟩, rfl⟩
    · simp only [entryRevisions, hown]
      exact .new _ (mt mem_checksums.mp hk) rfl (nextRevision_eq h)
    · have hother := select_appends (p := fun v => v.settlementEntryId == j) happ
      rw [if_neg (by simpa using hj.symm), List.append_nil] at hother
      exact hother
    · rcases happ.mem.mp hv with hv | rfl
      · exact Or.inl hv
      · exact Or.inr rfl

structure EntryStep (db u : Database) (i : ℕ) (p : ProviderPayment) : Prop where
  records : EntryRecords db u i p
  rows : ∀ e ∈ u.settlementEntries.rows, (e.id ≠ i ∧ e ∈ db.settlementEntries.rows) ∨
    (e.id = i ∧ e.facts = facts p)
  next : db.settlementEntries.next ≤ u.settlementEntries.next
  own : i < u.settlementEntries.next
  disputes : u.disputes = db.disputes
  disputeRevisions : u.disputeRevisions = db.disputeRevisions

theorem entryStep_handle (h : Ledgered db)
    (hc : Commits (RecordSettlementRevision.handle attempt p) db x u) :
    EntryStep db u (entryId db attempt p) p := by
  simp only [RecordSettlementRevision.handle, commits_bind, commits_modify] at hc
  obtain ⟨i, s, hopen, _, t, hrec, rfl⟩ := hc
  obtain ⟨rfl, hs, hnext, hlt, hother⟩ := opened_entry hopen
  have hrevisions : s.settlementRevisions = db.settlementRevisions := by rw [hs]
  have hof : ∀ j, entryRevisions s j = entryRevisions db j := by
    intro j
    rw [entryRevisions, hrevisions]
    rfl
  obtain ⟨hrecords, ht⟩ := records_entryRevision (by rw [hof]; exact h.entries _) hrec
  have hentries : t.settlementEntries = s.settlementEntries := by rw [ht]
  have hupd : Table.Updates s.settlementEntries
      (t.settlementEntries.update (entryId db attempt p) (refreshed attempt p))
      (entryId db attempt p) (refreshed attempt p) := by
    rw [hentries]
    exact Table.updates_update
  refine ⟨⟨?_, fun j hj => ?_, fun v hv => ?_⟩, fun e he => ?_, hnext.trans hupd.next.ge,
    lt_of_lt_of_eq hlt hupd.next.symm, ?_, ?_⟩
  · rw [← hof]
    exact hrecords.own
  · rw [← hof]
    exact hrecords.others j hj
  · rw [← hrevisions]
    exact hrecords.owners v hv
  · rcases hupd.mem.mp he with ⟨he, hne⟩ | ⟨q, _, hid, rfl⟩
    · exact Or.inl ⟨hne, hother e he hne⟩
    · exact Or.inr ⟨hid, rfl⟩
  · rw [ht, hs]
  · rw [ht, hs]

end Settlements

section Heads
variable {db s t u : Database} {d : ProviderDispute} {e : SettlementEntry} {event : ProviderEvent}
variable {remote : DisputeFacts} {attempt : PaymentAttempt} {p : ProviderPayment} {i : ℕ}
variable {op : Operation}

def Heads (db : Database) : Prop :=
  (∀ d ∈ db.disputes.rows, DisputeHead db d) ∧ ∀ e ∈ db.settlementEntries.rows, EntryHead db e

theorem entryRevisions_congr (h : u.settlementRevisions = db.settlementRevisions) (i : ℕ) :
    entryRevisions u i = entryRevisions db i := by
  rw [entryRevisions, h]
  rfl

theorem revisionsOf_congr (h : u.disputeRevisions = db.disputeRevisions) (i : ℕ) :
    revisionsOf u i = revisionsOf db i := by
  rw [revisionsOf, h]
  rfl

theorem ledgered_dispute (h : Ledgered db) (hs : DisputeStep db u i remote) : Ledgered u where
  disputes j := by
    by_cases hj : j = i
    · subst hj
      exact hs.records.own.numbered (h.disputes j)
    · rw [hs.records.others j hj]
      exact h.disputes j
  counts d hd := by
    rcases hs.rows d hd with ⟨hne, hold⟩ | ⟨hid, _, hcount⟩
    · rw [hs.records.others d.id hne]
      exact h.counts d hold
    · rw [hid]
      exact hcount
  owners v hv := by
    rcases hs.records.owners v hv with hold | hown
    · exact (h.owners v hold).trans_le hs.next
    · exact hown ▸ hs.own
  entries j := by
    rw [entryRevisions_congr hs.entryRevisions]
    exact h.entries j
  entryOwners := by
    rw [hs.entryRevisions, hs.entries]
    exact h.entryOwners

theorem ledgered_entry (h : Ledgered db) (hs : EntryStep db u i p) : Ledgered u where
  disputes j := by
    rw [revisionsOf_congr hs.disputeRevisions]
    exact h.disputes j
  counts := by
    intro d hd
    rw [revisionsOf_congr hs.disputeRevisions]
    exact h.counts d (hs.disputes ▸ hd)
  owners := by
    rw [hs.disputeRevisions, hs.disputes]
    exact h.owners
  entries j := by
    by_cases hj : j = i
    · subst hj
      exact hs.records.own.numbered (h.entries j)
    · rw [hs.records.others j hj]
      exact h.entries j
  entryOwners v hv := by
    rcases hs.records.owners v hv with hold | hown
    · exact (h.entryOwners v hold).trans_le hs.next
    · exact hown ▸ hs.own

theorem ledgered_aside (h : Ledgered s) (ha : Aside s t) : Ledgered t where
  disputes j := by
    rw [revisionsOf_congr ha.disputeRevisions]
    exact h.disputes j
  counts d hd := by
    rw [revisionsOf_congr ha.disputeRevisions]
    exact h.counts d (ha.disputes ▸ hd)
  owners := by
    rw [ha.disputeRevisions, ha.disputes]
    exact h.owners
  entries j := by
    rw [entryRevisions_congr ha.entryRevisions]
    exact h.entries j
  entryOwners := by
    rw [ha.entryRevisions, ha.entries]
    exact h.entryOwners

theorem ledgered_step (h : Ledgered s) (ha : Admitted op s) (hc : Commits op.run s () u) :
    Ledgered u := by
  cases op with
  | dispute event remote =>
    simp only [Operation.run, commits_bind, commits_pure] at hc
    obtain ⟨d, _, hc, _, rfl⟩ := hc
    exact ledgered_dispute h (disputeStep_handle h hc).1
  | settlement attempt p => exact ledgered_entry h (entryStep_handle h hc)
  | elsewhere db =>
    obtain rfl := commits_set.mp hc
    exact ledgered_aside h ha

theorem differ_of_ledgered (h : Ledgered db) : Differ db := by
  constructor
  · intro v hv w hw howner hn
    have hvi : v ∈ revisionsOf db w.providerDisputeId :=
      Table.mem_select.mpr ⟨hv, beq_iff_eq.mpr howner⟩
    have hwi : w ∈ revisionsOf db w.providerDisputeId :=
      Table.mem_select.mpr ⟨hw, beq_self_eq_true _⟩
    exact (h.disputes _).consecutive_differ hvi hwi hn
  · intro v hv w hw howner hn
    have hvi : v ∈ entryRevisions db w.settlementEntryId :=
      Table.mem_select.mpr ⟨hv, beq_iff_eq.mpr howner⟩
    have hwi : w ∈ entryRevisions db w.settlementEntryId :=
      Table.mem_select.mpr ⟨hw, beq_self_eq_true _⟩
    exact (h.entries _).consecutive_differ hvi hwi hn

theorem disputeHead_iff (h : Ledgered db)
    (hs : DisputeStep db u (disputeId db event remote) remote) (hd : d ∈ u.disputes.rows)
    (hid : d.id = disputeId db event remote) :
    DisputeHead u d ↔ Careful (.dispute event remote) db := by
  rcases hs.rows d hd with ⟨hne, _⟩ | ⟨_, hcolumns, _⟩
  · exact absurd hid hne
  · rw [DisputeHead, hcolumns, hid]
    exact hs.records.own.head_iff (h.disputes _)

theorem entryHead_iff (h : Ledgered db) (hs : EntryStep db u (entryId db attempt p) p)
    (he : e ∈ u.settlementEntries.rows) (hid : e.id = entryId db attempt p) :
    EntryHead u e ↔ Careful (.settlement attempt p) db := by
  rcases hs.rows e he with ⟨hne, _⟩ | ⟨_, hfacts⟩
  · exact absurd hid hne
  · rw [EntryHead, hfacts, hid]
    exact hs.records.own.head_iff (f := SettlementChecksum.facts) (h.entries _)

theorem heads_dispute (h : Ledgered db) (hh : Heads db)
    (hs : DisputeStep db u (disputeId db event remote) remote)
    (hc : Careful (.dispute event remote) db) : Heads u := by
  constructor
  · intro d hd
    rcases hs.rows d hd with ⟨hne, hold⟩ | ⟨hid, _⟩
    · rw [DisputeHead, hs.records.others d.id hne]
      exact hh.1 d hold
    · exact (disputeHead_iff h hs hd hid).mpr hc
  · intro e he
    rw [EntryHead, entryRevisions_congr hs.entryRevisions]
    exact hh.2 e (hs.entries ▸ he)

theorem heads_entry (h : Ledgered db) (hh : Heads db)
    (hs : EntryStep db u (entryId db attempt p) p) (hc : Careful (.settlement attempt p) db) :
    Heads u := by
  constructor
  · intro d hd
    rw [DisputeHead, revisionsOf_congr hs.disputeRevisions]
    exact hh.1 d (hs.disputes ▸ hd)
  · intro e he
    rcases hs.rows e he with ⟨hne, hold⟩ | ⟨hid, _⟩
    · rw [EntryHead, hs.records.others e.id hne]
      exact hh.2 e hold
    · exact (entryHead_iff h hs he hid).mpr hc

theorem heads_aside (hh : Heads s) (ha : Aside s t) : Heads t := by
  constructor
  · intro d hd
    rw [DisputeHead, revisionsOf_congr ha.disputeRevisions]
    exact hh.1 d (ha.disputes ▸ hd)
  · intro e he
    rw [EntryHead, entryRevisions_congr ha.entryRevisions]
    exact hh.2 e (ha.entries ▸ he)

theorem admitted_of_careful (h : Careful op s) : Admitted op s := by
  cases op with
  | elsewhere db => exact h
  | _ => trivial

theorem heads_step (h : Ledgered s) (hh : Heads s) (hk : Careful op s)
    (hc : Commits op.run s () u) : Heads u := by
  cases op with
  | dispute event remote =>
    simp only [Operation.run, commits_bind, commits_pure] at hc
    obtain ⟨d, _, hc, _, rfl⟩ := hc
    exact heads_dispute h hh (disputeStep_handle h hc).1 hk
  | settlement attempt p => exact heads_entry h hh (entryStep_handle h hc) hk
  | elsewhere db =>
    obtain rfl := commits_set.mp hc
    exact heads_aside hh hk

-- Nothing was delivered yet.
structure Opening (s : Database) : Prop where
  disputes : s.disputes.rows = []
  disputeRevisions : s.disputeRevisions.rows = []
  entries : s.settlementEntries.rows = []
  entryRevisions : s.settlementRevisions.rows = []

theorem ledgered_of_opening (h : Opening s) : Ledgered s where
  disputes i := by
    rw [revisionsOf, Table.select, h.disputeRevisions]
    exact numbered_nil
  counts := by simp [h.disputes]
  owners := by simp [h.disputeRevisions]
  entries i := by
    rw [entryRevisions, Table.select, h.entryRevisions]
    exact numbered_nil
  entryOwners := by simp [h.entryRevisions]

theorem heads_of_opening (h : Opening s) : Heads s := by
  constructor
  · simp [h.disputes]
  · simp [h.entries]

theorem revision_heads_are_current_iff (hs : Opening s) :
    (∀ t, Reaches Operation.run Careful s t → Heads t) ∧
    ∀ t, Reaches Operation.run Admitted s t → Differ t ∧
      (∀ event remote d u, Commits (RecordProviderDispute.handle event remote) t d u →
        (DisputeHead u d ↔ Careful (.dispute event remote) t)) ∧
      ∀ attempt p e u, Commits (RecordSettlementRevision.handle attempt p) t () u →
        u.settlementEntries.find? (entryId t attempt p) = some e →
          (EntryHead u e ↔ Careful (.settlement attempt p) t) := by
  constructor
  · intro t h
    have ht : Ledgered t ∧ Heads t := h.invariant (I := fun db => Ledgered db ∧ Heads db)
      ⟨ledgered_of_opening hs, heads_of_opening hs⟩ fun _ _ _ hi hk hc =>
        ⟨ledgered_step hi.1 (admitted_of_careful hk) hc, heads_step hi.1 hi.2 hk hc⟩
    exact ht.2
  · intro t h
    have ht : Ledgered t :=
      h.invariant (ledgered_of_opening hs) fun _ _ _ hi ha hc => ledgered_step hi ha hc
    refine ⟨differ_of_ledgered ht, ?_, ?_⟩
    · intro event remote d u hc
      obtain ⟨hstep, hd, hid⟩ := disputeStep_handle ht hc
      exact disputeHead_iff ht hstep hd hid
    · intro attempt p e u hc he
      obtain ⟨hmem, hid⟩ := Table.find?_eq_some.mp he
      exact entryHead_iff ht (entryStep_handle ht hc) hmem hid

end Heads

section Scenario
variable {ρ : Type} {number : ρ → ℕ} {rs : List ρ} {shows : ρ → Bool}

-- Every revision that shows something has a later one.
def superseded (number : ρ → ℕ) (shows : ρ → Bool) (rs : List ρ) : Bool :=
  rs.all fun v => !shows v || rs.any fun w => decide (number v < number w)

theorem no_head_of_superseded (h : superseded number shows rs = true) {v : ρ}
    (hv : Head number rs v) : shows v = false := by
  simp only [superseded, List.all_eq_true, Bool.or_eq_true, Bool.not_eq_true', List.any_eq_true,
    decide_eq_true_eq] at h
  rcases h v hv.1 with hshows | ⟨w, hw, hlt⟩
  · exact hshows
  · exact absurd (hv.2 w hw) (not_le.mpr hlt)

def paidOut (netMinor : ℤ) : ProviderPayment where
  id := "pay-0"
  externalReference := "attempt-0"
  status := "approved"
  amountMinor := 10000
  currency := "USD"
  providerAccount := "lodge-account"
  settlement := { netMinor := some netMinor }

def disputed (detail : String) : Operation :=
  .dispute (Outflow.webhook "chargeback-0") (Outflow.chargeback 6000 detail)

def settled (netMinor : ℤ) : Operation := .settlement (Outflow.attempt 0) (paidOut netMinor)

theorem opening_paid : Opening Outflow.paid := ⟨rfl, rfl, rfl, rfl⟩

def isDelivery : Operation → Bool
  | .elsewhere _ => false
  | _ => true

theorem admitted_of_delivery {op : Operation} {s : Database} (h : isDelivery op = true) :
    Admitted op s := by
  cases op with
  | elsewhere db => cases h
  | _ => trivial

-- The provider reviews, decides and reviews again; a fee is taken and given back.
theorem revisited_facts_leave_the_head_behind : Opening Outflow.paid ∧
    ∃ t, Reaches Operation.run Admitted Outflow.paid t ∧
      (∃ d ∈ t.disputes.rows, ¬ DisputeHead t d) ∧
      ∃ e ∈ t.settlementEntries.rows, ¬ EntryHead t e := by
  refine ⟨opening_paid, ?_⟩
  obtain ⟨t, ht, hp⟩ : ∃ t, Reaches Operation.run Admitted Outflow.paid t ∧
      ((t.disputes.rows.any fun d => superseded ProviderDisputeRevision.revision
          (fun v => columns v.facts == rowColumns d) (revisionsOf t d.id)) &&
        t.settlementEntries.rows.any fun e => superseded SettlementEntryRevision.revision
          (fun v => v.checksum.facts == e.facts) (entryRevisions t e.id)) = true :=
    Reaches.exists_of_execute (fun _ _ => admitted_of_delivery)
      [disputed "in_process", disputed "settled", disputed "in_process", settled 10000, settled 9500,
        settled 10000] (by decide)
  simp only [Bool.and_eq_true, List.any_eq_true] at hp
  obtain ⟨⟨d, hd, hdispute⟩, e, he, hentry⟩ := hp
  refine ⟨t, ht, ⟨d, hd, ?_⟩, e, he, ?_⟩
  · rintro ⟨v, hv, hcolumns⟩
    have hshows := no_head_of_superseded hdispute hv
    exact absurd hcolumns (by simpa using hshows)
  · rintro ⟨v, hv, hfacts⟩
    have hshows := no_head_of_superseded hentry hv
    exact absurd hfacts (by simpa using hshows)

def isFirst (op : Operation) (s : Database) : Bool :=
  match op with
  | .dispute _ _ => s.disputeRevisions.rows.isEmpty
  | .settlement _ _ => s.settlementRevisions.rows.isEmpty
  | .elsewhere _ => false

theorem careful_of_first (op : Operation) (s : Database) (h : isFirst op s = true) :
    Careful op s := by
  cases op with
  | dispute event remote =>
    have hnone : s.disputeRevisions.rows = [] := List.isEmpty_iff.mp h
    exact Or.inl (by simp [revisionsOf, Table.select, hnone])
  | settlement attempt p =>
    have hnone : s.settlementRevisions.rows = [] := List.isEmpty_iff.mp h
    exact Or.inl (by simp [entryRevisions, Table.select, hnone])
  | elsewhere db => cases h

theorem first_facts_are_the_head : ∃ t, Reaches Operation.run Careful Outflow.paid t ∧ Heads t ∧
    t.settlementEntries.rows.length = 1 ∧
    ∃ d u, Commits (RecordProviderDispute.handle (Outflow.webhook "chargeback-0")
      (Outflow.chargeback 6000 "settled")) t d u ∧ DisputeHead u d := by
  obtain ⟨t, ht, hp⟩ : ∃ t, Reaches Operation.run Careful Outflow.paid t ∧
      (decide (t.settlementEntries.rows.length = 1) &&
        isFirst (disputed "settled") t && ((RecordProviderDispute.handle
          (Outflow.webhook "chargeback-0") (Outflow.chargeback 6000 "settled")).run
            t).toOption.isSome) = true :=
    Reaches.exists_of_execute careful_of_first [settled 10000] (by decide)
  simp only [Bool.and_eq_true, decide_eq_true_eq] at hp
  obtain ⟨⟨hone, hfirst⟩, hrun⟩ := hp
  obtain ⟨d, u, hc⟩ := exists_commits hrun
  obtain ⟨hheads, hstep⟩ := revision_heads_are_current_iff opening_paid
  obtain ⟨_, hdispute, _⟩ := hstep t (ht.mono fun _ _ => admitted_of_careful)
  exact ⟨t, ht, hheads t ht, hone, d, u, hc,
    (hdispute _ _ d u hc).mpr (careful_of_first (disputed "settled") t hfirst)⟩

end Scenario
end RevisionHeads
