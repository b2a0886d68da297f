import LodgeOps.Store.Frames
import LodgeOps.Schema.Integrations

namespace EndpointKeyService
open Schema Transaction

section Schema

-- The columns of a connection that its endpoint keys are about; a key stands for its hash.
structure ConnectionEndpoint where
  id : ℕ
  paymentWebhookKey : Option ℕ := none
  webhookKeyVersion : ℕ := 0
deriving DecidableEq

structure IntegrationEndpointKey where
  id : ℕ
  connectionId : ℕ
  version : ℕ
  keyHash : ℕ
  validFrom : ℤ
  expiresAt : Option ℤ := none
  revokedAt : Option ℤ := none
deriving DecidableEq

inductive EndpointOperationKind
  | rotated | revoked
deriving DecidableEq

structure EndpointOperation where
  id : ℕ
  connectionId : ℕ
  operation : EndpointOperationKind
  actorId : Option ℕ
  reason : String
  facts : Option (ℕ × ℤ)
  idempotencyKeyHash : Option String
deriving DecidableEq

instance : Keyed ConnectionEndpoint := ⟨ConnectionEndpoint.id⟩
instance : Keyed IntegrationEndpointKey := ⟨IntegrationEndpointKey.id⟩
instance : Keyed EndpointOperation := ⟨EndpointOperation.id⟩

-- The random text of the next key is drawn from a counter.
structure KeyRing where
  clock : ℤ := 0
  issued : ℕ := 0
  endpoints : Table ConnectionEndpoint := .empty
  keys : Table IntegrationEndpointKey := .empty
  operations : Table EndpointOperation := .empty

abbrev RingTx (α : Type) := Transaction Failure KeyRing α

end Schema

section Rotation

def operation (connectionId : ℕ) (kind : EndpointOperationKind) (actorId : Option ℕ)
    (reason : String) (facts : Option (ℕ × ℤ)) (hash : Option String) (i : ℕ) :
    EndpointOperation where
  id := i
  connectionId := connectionId
  operation := kind
  actorId := actorId
  reason := reason
  facts := facts
  idempotencyKeyHash := hash

def record (connectionId : ℕ) (kind : EndpointOperationKind) (actorId : Option ℕ)
    (reason : String) (facts : Option (ℕ × ℤ) := none) (hash : Option String := none) :
    RingTx Unit := do
  reject (trim reason = "") (.domain "An operational reason is required.")
  modify fun s => { s with
    operations := s.operations.insert (operation connectionId kind actorId (trim reason) facts hash) }

def effectiveOverlap (overlapMinutes : ℤ) : ℤ := max 0 (min 1440 overlapMinutes)

def alreadyRotated (s : KeyRing) (connectionId : ℕ) (hash : Option String) : Bool :=
  hash.any fun h => s.operations.rows.any fun o => o.connectionId == connectionId &&
    o.operation == .rotated && o.idempotencyKeyHash == some h

def key (connectionId version hash : ℕ) (now : ℤ) (i : ℕ) : IntegrationEndpointKey where
  id := i
  connectionId := connectionId
  version := version
  keyHash := hash
  validFrom := now

def current (connectionId : ℕ) (k : IntegrationEndpointKey) : Bool :=
  k.connectionId == connectionId && k.revokedAt.isNone && k.expiresAt.isNone

def expiring (overlapEnds : ℤ) (k : IntegrationEndpointKey) : IntegrationEndpointKey :=
  { k with expiresAt := some overlapEnds }

theorem keeps_expiring (overlapEnds : ℤ) : Keeps (expiring overlapEnds) := fun _ => rfl

def headed (version hash : ℕ) (e : ConnectionEndpoint) : ConnectionEndpoint :=
  { e with
    paymentWebhookKey := some hash
    webhookKeyVersion := version }

theorem keeps_headed (version hash : ℕ) : Keeps (headed version hash) := fun _ => rfl

def replaceKey (locked : ConnectionEndpoint) (minutes : ℤ) : RingTx Unit := modify fun s =>
  { s with
    issued := s.issued + 1
    keys := (s.keys.updateWhere (current locked.id) (expiring (s.clock + 60 * minutes))
      (keeps_expiring _)).insert (key locked.id (locked.webhookKeyVersion + 1) s.issued s.clock)
    endpoints := s.endpoints.update locked.id (headed (locked.webhookKeyVersion + 1) s.issued)
      (keeps_headed _ _) }

def rotate (connectionId : ℕ) (overlapMinutes : ℤ) (actorId : Option ℕ) (reason : String)
    (idempotencyKey : Option String) : RingTx Unit := do
  let s ← get
  let locked ← orFail (s.endpoints.find? connectionId) .modelNotFound
  reject (alreadyRotated s locked.id idempotencyKey = true) (.domain
    ("This endpoint rotation was already completed. Its raw key is not retained; use a new " ++
      "idempotency key to rotate again."))
  replaceKey locked (effectiveOverlap overlapMinutes)
  record locked.id .rotated actorId reason
    (some (locked.webhookKeyVersion + 1, effectiveOverlap overlapMinutes)) idempotencyKey

def unrevoked (connectionId : ℕ) (k : IntegrationEndpointKey) : Bool :=
  k.connectionId == connectionId && k.revokedAt.isNone

def revokedKey (now : ℤ) (k : IntegrationEndpointKey) : IntegrationEndpointKey :=
  { k with revokedAt := some now }

theorem keeps_revokedKey (now : ℤ) : Keeps (revokedKey now) := fun _ => rfl

-- The model handed in may be older than the row: a column that it has as null is not written.
def headless (snapshot e : ConnectionEndpoint) : ConnectionEndpoint :=
  { e with
    paymentWebhookKey := if snapshot.paymentWebhookKey.isNone then e.paymentWebhookKey else none }

theorem keeps_headless (snapshot : ConnectionEndpoint) : Keeps (headless snapshot) := fun _ => rfl

def revokeAll (snapshot : ConnectionEndpoint) (actorId : Option ℕ) (reason : String) :
    RingTx Unit := do
  modify fun s =>
    { s with
      keys := s.keys.updateWhere (unrevoked snapshot.id) (revokedKey s.clock) (keeps_revokedKey _)
      endpoints := s.endpoints.update snapshot.id (headless snapshot) (keeps_headless _) }
  record snapshot.id .revoked actorId reason

def live (now : ℤ) (k : IntegrationEndpointKey) : Bool :=
  k.revokedAt.isNone && decide (k.validFrom ≤ now) && k.expiresAt.all fun e => decide (now < e)

def resolveConnection (s : KeyRing) (rawKey : ℕ) : Option ConnectionEndpoint :=
  (s.keys.first? fun k => k.keyHash == rawKey && live s.clock k).bind fun k =>
    s.endpoints.find? k.connectionId

inductive Operation
  | rotate (connectionId : ℕ) (overlapMinutes : ℤ) (actorId : Option ℕ) (reason : String)
      (idempotencyKey : Option String)
  | revokeAll (snapshot : ConnectionEndpoint) (actorId : Option ℕ) (reason : String)
  | pass (seconds : ℕ)

def Operation.run : Operation → RingTx Unit
  | rotate i overlap actorId reason key => EndpointKeyService.rotate i overlap actorId reason key
  | revokeAll snapshot actorId reason => EndpointKeyService.revokeAll snapshot actorId reason
  | pass seconds => modify fun s => { s with clock := s.clock + seconds }

end Rotation

section Rows
variable {s t u : KeyRing} {i : ℕ} {k k' : IntegrationEndpointKey} {e : ConnectionEndpoint}
variable {op : Operation}

-- Rows as a key ring keeps them in every run.
structure Sound (s : KeyRing) : Prop where
  hashes : ∀ k ∈ s.keys.rows, ∀ k' ∈ s.keys.rows, k.keyHash = k'.keyHash → k = k'
  issued : ∀ k ∈ s.keys.rows, k.keyHash < s.issued
  started : ∀ k ∈ s.keys.rows, k.validFrom ≤ s.clock
  versions : ∀ k ∈ s.keys.rows, ∀ k' ∈ s.keys.rows, k.connectionId = k'.connectionId →
    k.id < k'.id → k.version < k'.version
  bounded : ∀ k ∈ s.keys.rows, ∃ e, s.endpoints.find? k.connectionId = some e ∧
    k.version ≤ e.webhookKeyVersion
  head : ∀ k ∈ s.keys.rows, k.revokedAt = none → k.expiresAt = none →
    ∃ e, s.endpoints.find? k.connectionId = some e ∧ k.version = e.webhookKeyVersion ∧
      e.paymentWebhookKey = some k.keyHash

-- A connection starts with no key, or with the one that its legacy configuration left.
structure Opening (s : KeyRing) : Prop where
  one : ∀ k ∈ s.keys.rows, ∀ k' ∈ s.keys.rows, k.connectionId = k'.connectionId ∨
    k.keyHash = k'.keyHash → k = k'
  issued : ∀ k ∈ s.keys.rows, k.keyHash < s.issued
  started : ∀ k ∈ s.keys.rows, k.validFrom ≤ s.clock
  head : ∀ k ∈ s.keys.rows, ∃ e, s.endpoints.find? k.connectionId = some e ∧
    k.version = e.webhookKeyVersion ∧ e.paymentWebhookKey = some k.keyHash

theorem sound_of_opening (h : Opening s) : Sound s where
  hashes k hk k' hk' he := h.one k hk k' hk' (Or.inr he)
  issued := h.issued
  started := h.started
  versions k hk k' hk' hc hlt := by
    obtain rfl := h.one k hk k' hk' (Or.inl hc)
    exact absurd hlt (lt_irrefl _)
  bounded k hk := by
    obtain ⟨e, he, hv, _⟩ := h.head k hk
    exact ⟨e, he, hv.le⟩
  head k hk _ _ := h.head k hk

-- A key as a later state has it: its expiry may have been set, and it may have been revoked.
structure Ages (k k' : IntegrationEndpointKey) : Prop where
  id : k'.id = k.id
  connection : k'.connectionId = k.connectionId
  version : k'.version = k.version
  hash : k'.keyHash = k.keyHash
  start : k'.validFrom = k.validFrom
  expiry : k.expiresAt ≠ none → k'.expiresAt = k.expiresAt
  revoked : k.revokedAt ≠ none → k'.revokedAt = k.revokedAt

theorem ages_refl : Ages k k := ⟨rfl, rfl, rfl, rfl, rfl, fun _ => rfl, fun _ => rfl⟩

-- What one step leaves: the old keys, aged, and behind a rotation one new key.
inductive Step (s u : KeyRing) : Operation → Prop
  | rotated {i : ℕ} {overlap : ℤ} {actorId : Option ℕ} {reason : String} {hash : Option String}
      (e : ConnectionEndpoint) (found : s.endpoints.find? i = some e)
      (clock : u.clock = s.clock) (issued : u.issued = s.issued + 1)
      (endpoints : Table.Updates s.endpoints u.endpoints i (headed (e.webhookKeyVersion + 1) s.issued))
      (keys : ∀ k, k ∈ u.keys.rows ↔ (k ∈ s.keys.rows ∧ current i k = false) ∨
        (∃ q ∈ s.keys.rows, current i q = true ∧
          k = expiring (s.clock + 60 * effectiveOverlap overlap) q) ∨
        k = key i (e.webhookKeyVersion + 1) s.issued s.clock s.keys.next) :
      Step s u (.rotate i overlap actorId reason hash)
  | revoked {snapshot : ConnectionEndpoint} {actorId : Option ℕ} {reason : String}
      (clock : u.clock = s.clock) (issued : u.issued = s.issued)
      (endpoints : Table.Updates s.endpoints u.endpoints snapshot.id (headless snapshot))
      (keys : ∀ k, k ∈ u.keys.rows ↔ (k ∈ s.keys.rows ∧ unrevoked snapshot.id k = false) ∨
        ∃ q ∈ s.keys.rows, unrevoked snapshot.id q = true ∧ k = revokedKey s.clock q) :
      Step s u (.revokeAll snapshot actorId reason)
  | passed {seconds : ℕ} (hu : u = { s with clock := s.clock + seconds }) : Step s u (.pass seconds)

theorem commits_record {kind : EndpointOperationKind} {actorId : Option ℕ} {reason : String}
    {facts : Option (ℕ × ℤ)} {hash : Option String}
    (h : Commits (record i kind actorId reason facts hash) s () u) :
    u = { s with operations := u.operations } := by
  simp only [record, commits_bind, commits_reject, commits_modify] at h
  obtain ⟨_, _, ⟨_, rfl⟩, rfl⟩ := h
  rfl

theorem step_run (h : Commits op.run s () u) : Step s u op := by
  cases op with
  | rotate i overlap actorId reason hash =>
    simp only [Operation.run, rotate, replaceKey, commits_bind, commits_get, commits_orFail,
      commits_reject, commits_modify] at h
    obtain ⟨_, _, ⟨rfl, rfl⟩, e, _, ⟨he, rfl⟩, _, _, ⟨_, rfl⟩, _, _, rfl, h⟩ := h
    obtain rfl : e.id = i := (Table.find?_eq_some.mp he).2
    have hu := commits_record h
    generalize u.operations = o at hu
    subst hu
    refine .rotated e he rfl rfl Table.updates_update fun k => ?_
    rw [Table.mem_insert, Table.mem_updateWhere, or_assoc]
    rfl
  | revokeAll snapshot actorId reason =>
    simp only [Operation.run, revokeAll, commits_bind, commits_modify] at h
    obtain ⟨_, _, rfl, h⟩ := h
    have hu := commits_record h
    generalize u.operations = o at hu
    subst hu
    exact .revoked rfl rfl Table.updates_update fun k => Table.mem_updateWhere
  | pass seconds =>
    obtain rfl := commits_modify.mp h
    exact .passed rfl

-- The key that a rotation issues.
structure Issued (s : KeyRing) (i : ℕ) (k : IntegrationEndpointKey) : Prop where
  key : ∃ e, s.endpoints.find? i = some e ∧
    k = key i (e.webhookKeyVersion + 1) s.issued s.clock s.keys.next

theorem step_back (h : Step s u op) (hk : k' ∈ u.keys.rows) :
    (∃ k ∈ s.keys.rows, Ages k k') ∨
      ∃ i overlap actorId reason hash, op = .rotate i overlap actorId reason hash ∧ Issued s i k' := by
  cases h with
  | rotated e found clock issued endpoints keys =>
    rcases (keys k').mp hk with ⟨hk, _⟩ | ⟨q, hq, hcur, rfl⟩ | rfl
    · exact Or.inl ⟨k', hk, ages_refl⟩
    · simp only [current, Bool.and_eq_true, Option.isNone_iff_eq_none] at hcur
      exact Or.inl ⟨q, hq, rfl, rfl, rfl, rfl, rfl, fun hn => absurd hcur.2 hn, fun _ => rfl⟩
    · exact Or.inr ⟨_, _, _, _, _, rfl, e, found, rfl⟩
  | revoked clock issued endpoints keys =>
    rcases (keys k').mp hk with ⟨hk, _⟩ | ⟨q, hq, hun, rfl⟩
    · exact Or.inl ⟨k', hk, ages_refl⟩
    · simp only [unrevoked, Bool.and_eq_true, Option.isNone_iff_eq_none] at hun
      exact Or.inl ⟨q, hq, rfl, rfl, rfl, rfl, rfl, fun _ => rfl, fun hn => absurd hun.2 hn⟩
  | passed hu =>
    subst hu
    exact Or.inl ⟨k', hk, ages_refl⟩

theorem step_ages (h : Step s u op) (hk : k ∈ s.keys.rows) : ∃ k' ∈ u.keys.rows, Ages k k' := by
  cases h with
  | @rotated i overlap _ _ _ e found clock issued endpoints keys =>
    cases hcur : current i k with
    | false => exact ⟨k, (keys k).mpr (Or.inl ⟨hk, hcur⟩), ages_refl⟩
    | true =>
      refine ⟨_, (keys _).mpr (Or.inr (Or.inl ⟨k, hk, hcur, rfl⟩)), rfl, rfl, rfl, rfl, rfl, ?_,
        fun _ => rfl⟩
      simp only [current, Bool.and_eq_true, Option.isNone_iff_eq_none] at hcur
      exact fun hn => absurd hcur.2 hn
  | @revoked snapshot _ _ clock issued endpoints keys =>
    cases hun : unrevoked snapshot.id k with
    | false => exact ⟨k, (keys k).mpr (Or.inl ⟨hk, hun⟩), ages_refl⟩
    | true =>
      refine ⟨_, (keys _).mpr (Or.inr ⟨k, hk, hun, rfl⟩), rfl, rfl, rfl, rfl, rfl, fun _ => rfl, ?_⟩
      simp only [unrevoked, Bool.and_eq_true, Option.isNone_iff_eq_none] at hun
      exact fun hn => absurd hun.2 hn
  | passed hu =>
    subst hu
    exact ⟨k, hk, ages_refl⟩

theorem step_clock (h : Step s u op) : s.clock ≤ u.clock ∧ s.issued ≤ u.issued := by
  cases h with
  | rotated e found clock issued endpoints keys => omega
  | revoked clock issued endpoints keys => omega
  | passed hu =>
    subst hu
    exact ⟨Int.le_add_of_nonneg_right (Int.natCast_nonneg _), le_rfl⟩

-- The version of a connection's row never falls.
theorem step_version (h : Step s u op) (he : s.endpoints.find? i = some e) :
    ∃ e', u.endpoints.find? i = some e' ∧ e.webhookKeyVersion ≤ e'.webhookKeyVersion := by
  cases h with
  | @rotated j _ _ _ _ d found clock issued endpoints keys =>
    by_cases hi : e.id = j
    · obtain rfl : e.id = i := (Table.find?_eq_some.mp he).2
      subst hi
      obtain rfl : e = d := Option.some.inj (he.symm.trans found)
      exact ⟨_, endpoints.find?_self he, Nat.le_succ _⟩
    · obtain ⟨hmem, hid⟩ := Table.find?_eq_some.mp he
      exact ⟨e, Table.find?_eq_some.mpr ⟨endpoints.mem_ne hmem hi, hid⟩, le_rfl⟩
  | @revoked snapshot _ _ clock issued endpoints keys =>
    by_cases hi : e.id = snapshot.id
    · obtain rfl : e.id = i := (Table.find?_eq_some.mp he).2
      rw [hi] at he ⊢
      exact ⟨_, endpoints.find?_self he, le_rfl⟩
    · obtain ⟨hmem, hid⟩ := Table.find?_eq_some.mp he
      exact ⟨e, Table.find?_eq_some.mpr ⟨endpoints.mem_ne hmem hi, hid⟩, le_rfl⟩
  | passed hu =>
    subst hu
    exact ⟨e, he, le_rfl⟩

theorem sound_step (hs : Sound s) (h : Step s u op) : Sound u where
  hashes k hk k' hk' he := by
    rcases step_back h hk with ⟨q, hq, ha⟩ | ⟨i, _, _, _, _, rfl, e, hi, rfl⟩
    · rcases step_back h hk' with ⟨q', hq', ha'⟩ | ⟨i, _, _, _, _, rfl, e, hi, rfl⟩
      · obtain rfl := hs.hashes q hq q' hq' (ha.hash.symm.trans (he.trans ha'.hash))
        exact Table.eq_of_id hk hk' (ha.id.trans ha'.id.symm)
      · have hlt := hs.issued q hq
        rw [← ha.hash, he] at hlt
        exact absurd hlt (lt_irrefl _)
    · rcases step_back h hk' with ⟨q', hq', ha'⟩ | ⟨j, _, _, _, _, hop, e', hj, rfl⟩
      · have hlt := hs.issued q' hq'
        rw [← ha'.hash, ← he] at hlt
        exact absurd hlt (lt_irrefl _)
      · exact Table.eq_of_id hk hk' rfl
  issued k hk := by
    rcases step_back h hk with ⟨q, hq, ha⟩ | ⟨i, _, _, _, _, rfl, e, hi, rfl⟩
    · rw [ha.hash]
      exact lt_of_lt_of_le (hs.issued q hq) (step_clock h).2
    · cases h with
      | rotated e found clock issued endpoints keys => exact issued ▸ Nat.lt_succ_self _
  started k hk := by
    rcases step_back h hk with ⟨q, hq, ha⟩ | ⟨i, _, _, _, _, rfl, e, hi, rfl⟩
    · rw [ha.start]
      exact (hs.started q hq).trans (step_clock h).1
    · exact (step_clock h).1
  versions k hk k' hk' hc hlt := by
    rcases step_back h hk' with ⟨q', hq', ha'⟩ | ⟨i, _, _, _, _, rfl, e, hi, rfl⟩
    · rcases step_back h hk with ⟨q, hq, ha⟩ | ⟨i, _, _, _, _, rfl, e, hi, rfl⟩
      · rw [ha.version, ha'.version]
        exact hs.versions q hq q' hq' (ha.connection.symm.trans (hc.trans ha'.connection))
          (by rwa [← ha.id, ← ha'.id])
      · have hbelow : q'.id < s.keys.next := Table.id_lt_next hq'
        rw [ha'.id] at hlt
        exact absurd (hlt.trans hbelow) (lt_irrefl _)
    · rcases step_back h hk with ⟨q, hq, ha⟩ | ⟨j, _, _, _, _, hop, e', hj, rfl⟩
      · obtain ⟨d, hd, hle⟩ := hs.bounded q hq
        have hqi : q.connectionId = i := ha.connection.symm.trans hc
        obtain rfl : d = e := Option.some.inj (hd.symm.trans (hqi ▸ hi))
        rw [ha.version]
        exact Nat.lt_succ_of_le hle
      · exact absurd hlt (lt_irrefl _)
  bounded k hk := by
    rcases step_back h hk with ⟨q, hq, ha⟩ | ⟨i, _, _, _, _, rfl, e, hi, rfl⟩
    · obtain ⟨e, he, hle⟩ := hs.bounded q hq
      obtain ⟨e', he', hle'⟩ := step_version h he
      exact ⟨e', ha.connection ▸ he', ha.version ▸ hle.trans hle'⟩
    · cases h with
      | rotated d found clock issued endpoints keys =>
        obtain rfl : d = e := Option.some.inj (found.symm.trans hi)
        exact ⟨_, endpoints.find?_self found, le_rfl⟩
  head k hk hr hx := by
    cases h with
    | @rotated i _ _ _ _ e found clock issued endpoints keys =>
      rcases (keys k).mp hk with ⟨hold, hcur⟩ | ⟨q, hq, hcur, rfl⟩ | rfl
      · obtain ⟨d, hd, hv, hh⟩ := hs.head k hold hr hx
        have hne : d.id ≠ i := by
          intro he
          have hid : d.id = k.connectionId := (Table.find?_eq_some.mp hd).2
          simp [current, hr, hx, hid.symm.trans he] at hcur
        obtain ⟨hmem, hid⟩ := Table.find?_eq_some.mp hd
        exact ⟨d, Table.find?_eq_some.mpr ⟨endpoints.mem_ne hmem hne, hid⟩, hv, hh⟩
      · cases hx
      · exact ⟨_, endpoints.find?_self found, rfl, rfl⟩
    | @revoked snapshot _ _ clock issued endpoints keys =>
      rcases (keys k).mp hk with ⟨hold, hun⟩ | ⟨q, hq, hun, rfl⟩
      · obtain ⟨d, hd, hv, hh⟩ := hs.head k hold hr hx
        have hne : d.id ≠ snapshot.id := by
          intro he
          have hid : d.id = k.connectionId := (Table.find?_eq_some.mp hd).2
          simp [unrevoked, hr, hid.symm.trans he] at hun
        obtain ⟨hmem, hid⟩ := Table.find?_eq_some.mp hd
        exact ⟨d, Table.find?_eq_some.mpr ⟨endpoints.mem_ne hmem hne, hid⟩, hv, hh⟩
      · cases hr
    | passed hu =>
      subst hu
      exact hs.head k hk hr hx

theorem Ages.trans {k'' : IntegrationEndpointKey} (h : Ages k k') (h' : Ages k' k'') :
    Ages k k'' where
  id := h'.id.trans h.id
  connection := h'.connection.trans h.connection
  version := h'.version.trans h.version
  hash := h'.hash.trans h.hash
  start := h'.start.trans h.start
  expiry hn := (h'.expiry (h.expiry hn ▸ hn)).trans (h.expiry hn)
  revoked hn := (h'.revoked (h.revoked hn ▸ hn)).trans (h.revoked hn)

end Rows

section Runs
variable {s t u v : KeyRing} {i : ℕ} {k k' : IntegrationEndpointKey} {overlap : ℤ}
variable {actorId : Option ℕ} {reason : String} {hash : Option String}

-- Any rotations, revocations and waits.
abbrev Run (s t : KeyRing) : Prop := Reaches Operation.run (fun _ _ => True) s t

def resolves (s : KeyRing) (rawKey : ℕ) : Prop := (resolveConnection s rawKey).isSome = true

theorem sound_run (hs : Sound s) (h : Run s t) : Sound t :=
  h.invariant hs fun _ _ _ hs _ hc => sound_step hs (step_run hc)

theorem ages_run (h : Run s t) (hk : k ∈ s.keys.rows) : ∃ k' ∈ t.keys.rows, Ages k k' := by
  refine h.invariant (I := fun t => ∃ k' ∈ t.keys.rows, Ages k k') ⟨k, hk, ages_refl⟩ ?_
  intro op t u ⟨k', hk', ha⟩ _ hc
  obtain ⟨k'', hk'', ha'⟩ := step_ages (step_run hc) hk'
  exact ⟨k'', hk'', ha.trans ha'⟩

-- A key that resolves is alive as it has come to be.
theorem live_of_resolves (hs : Sound v) (hk : k' ∈ v.keys.rows) (h : resolves v k'.keyHash) :
    live v.clock k' = true := by
  unfold resolves resolveConnection at h
  obtain ⟨e, he⟩ := Option.isSome_iff_exists.mp h
  obtain ⟨q, hq, _⟩ := Option.bind_eq_some_iff.mp he
  obtain ⟨hmem, hp⟩ := Table.first?_some hq
  simp only [Bool.and_eq_true, beq_iff_eq] at hp
  obtain rfl := hs.hashes q hmem k' hk hp.1
  exact hp.2

theorem resolves_of_live (hs : Sound v) (hk : k' ∈ v.keys.rows) (h : live v.clock k' = true) :
    resolves v k'.keyHash := by
  unfold resolves resolveConnection
  cases hf : v.keys.first? fun k => k.keyHash == k'.keyHash && live v.clock k with
  | none =>
    have hno := Table.first?_eq_none.mp hf k' hk
    simp [h] at hno
  | some q =>
    obtain ⟨hmem, _⟩ := Table.first?_some hf
    obtain ⟨e, he, _⟩ := hs.bounded q hmem
    simp [he]

theorem expires_by {e : ℤ} (hu : Sound u) (hk : k' ∈ u.keys.rows) (he : k'.expiresAt = some e)
    (h : Run u v) (hr : resolves v k'.keyHash) : v.clock < e := by
  obtain ⟨q, hq, ha⟩ := ages_run h hk
  rw [← ha.hash] at hr
  have hlive := live_of_resolves (sound_run hu h) hq hr
  have hx : q.expiresAt = some e := (ha.expiry (he ▸ Option.some_ne_none e)).trans he
  simpa [live, hx] using (Bool.and_eq_true_iff.mp hlive).2

theorem never_when_revoked (hu : Sound u) (hk : k' ∈ u.keys.rows) (hr : k'.revokedAt ≠ none)
    (h : Run u v) : ¬ resolves v k'.keyHash := by
  intro hres
  obtain ⟨q, hq, ha⟩ := ages_run h hk
  rw [← ha.hash] at hres
  have hlive := live_of_resolves (sound_run hu h) hq hres
  have hx := ha.revoked hr
  simp only [live, Bool.and_eq_true, Option.isNone_iff_eq_none] at hlive
  exact hr (hx ▸ hlive.1.1)

-- No older key has been given longer than the overlap of this rotation.
def Within (s : KeyRing) (i : ℕ) (overlap : ℤ) : Prop :=
  ∀ k ∈ s.keys.rows, k.connectionId = i → k.revokedAt = none → ∀ e, k.expiresAt = some e →
    e ≤ s.clock + 60 * effectiveOverlap overlap

def Retires (t u : KeyRing) (i : ℕ) (overlap : ℤ) : Prop :=
  ∀ k ∈ t.keys.rows, k.connectionId = i → ∀ v, Run u v → resolves v k.keyHash →
    v.clock < t.clock + 60 * effectiveOverlap overlap

-- What a rotation leaves of an older key of its connection.
theorem rotated_key (h : Commits (rotate i overlap actorId reason hash) t () u) (hk : k ∈ t.keys.rows)
    (hi : k.connectionId = i) : ∃ k' ∈ u.keys.rows, Ages k k' ∧
      (k.revokedAt = none → k.expiresAt = none →
        k'.expiresAt = some (t.clock + 60 * effectiveOverlap overlap)) ∧
          (k.expiresAt ≠ none → k' = k) ∧ u.clock = t.clock := by
  have hstep : Step t u (.rotate i overlap actorId reason hash) := step_run h
  cases hstep with
  | rotated e found clock issued endpoints keys =>
    cases hcur : current i k with
    | false =>
      refine ⟨k, (keys k).mpr (Or.inl ⟨hk, hcur⟩), ages_refl, fun hr hx => ?_, fun _ => rfl, clock⟩
      simp [current, hi, hr, hx] at hcur
    | true =>
      refine ⟨_, (keys _).mpr (Or.inr (Or.inl ⟨k, hk, hcur, rfl⟩)), ?_, fun _ _ => rfl, ?_, clock⟩
      · simp only [current, Bool.and_eq_true, Option.isNone_iff_eq_none] at hcur
        exact ⟨rfl, rfl, rfl, rfl, rfl, fun hn => absurd hcur.2 hn, fun _ => rfl⟩
      · simp only [current, Bool.and_eq_true, Option.isNone_iff_eq_none] at hcur
        exact fun hn => absurd hcur.2 hn

theorem retires_iff (ht : Sound t) (h : Commits (rotate i overlap actorId reason hash) t () u) :
    Retires t u i overlap ↔ Within t i overlap := by
  have hstep : Step t u (.rotate i overlap actorId reason hash) := step_run h
  have hu : Sound u := sound_step ht hstep
  constructor
  · intro hret k hk hi hr e he
    by_contra hlate
    obtain ⟨k', hk', _, _, hsame, hclock⟩ := rotated_key h hk hi
    obtain rfl : k' = k := hsame (he ▸ Option.some_ne_none e)
    -- Wait until the overlap is over: the key is still alive then.
    have hwait : Run u { u with clock := u.clock + (60 * effectiveOverlap overlap).toNat } :=
      Reaches.single (i := .pass (60 * effectiveOverlap overlap).toNat) trivial
        (commits_modify.mpr rfl)
    have hnonneg : 0 ≤ effectiveOverlap overlap := le_max_left 0 _
    have hstart := hu.started k' hk'
    have halive : live (u.clock + (60 * effectiveOverlap overlap).toNat) k' = true := by
      simp only [live, hr, he, Option.isNone_none, Bool.true_and, Option.all_some,
        Bool.and_eq_true, decide_eq_true_eq]
      omega
    have hres := resolves_of_live (sound_run hu hwait) hk' halive
    have hlt := hret k' hk hi _ hwait hres
    simp only at hlt
    omega
  · intro hw k hk hi v hv hres
    obtain ⟨k', hk', ha, hnew, hsame, hclock⟩ := rotated_key h hk hi
    rw [← ha.hash] at hres
    by_cases hr : k.revokedAt = none
    · cases hx : k.expiresAt with
      | none => exact expires_by hu hk' (hnew hr hx) hv hres
      | some e =>
        obtain rfl : k' = k := hsame (hx ▸ Option.some_ne_none e)
        exact lt_of_lt_of_le (expires_by hu hk' hx hv hres) (hw k' hk hi hr e hx)
    · have hr' : k'.revokedAt ≠ none := ha.revoked hr ▸ hr
      exact absurd hres (never_when_revoked hu hk' hr' hv)

theorem revoked_for_good {snapshot : ConnectionEndpoint} (ht : Sound t)
    (h : Commits (revokeAll snapshot actorId reason) t () u) (hk : k ∈ t.keys.rows)
    (hi : k.connectionId = snapshot.id) (hv : Run u v) : ¬ resolves v k.keyHash := by
  have hstep : Step t u (.revokeAll snapshot actorId reason) := step_run h
  have hu : Sound u := sound_step ht hstep
  obtain ⟨k', hk', ha, hr⟩ : ∃ k' ∈ u.keys.rows, Ages k k' ∧ k'.revokedAt ≠ none := by
    obtain ⟨k', hk', ha⟩ := step_ages hstep hk
    refine ⟨k', hk', ha, ?_⟩
    cases hstep with
    | revoked clock issued endpoints keys =>
      rcases (keys k').mp hk' with ⟨_, hun⟩ | ⟨q, _, _, rfl⟩
      · have hown : k'.connectionId = snapshot.id := ha.connection.trans hi
        simp only [unrevoked, hown, beq_self_eq_true, Bool.true_and] at hun
        exact Option.isSome_iff_ne_none.mp (Option.isNone_eq_false_iff.mp hun)
      · exact Option.some_ne_none _
  rw [← ha.hash]
  exact never_when_revoked hu hk' hr hv

theorem rotations_retire_older_keys_iff (hs : Opening s) (h : Run s t) :
    (∀ k ∈ t.keys.rows, ∀ k' ∈ t.keys.rows, k.connectionId = k'.connectionId → k.id < k'.id →
      k.version < k'.version) ∧
    (∀ k ∈ t.keys.rows, k.revokedAt = none → k.expiresAt = none →
      (∃ e, t.endpoints.find? k.connectionId = some e ∧ e.paymentWebhookKey = some k.keyHash) ∧
      ∀ k' ∈ t.keys.rows, k'.connectionId = k.connectionId → k'.revokedAt = none →
        k'.expiresAt = none → k' = k) ∧
    (∀ i overlap actorId reason hash u, Commits (rotate i overlap actorId reason hash) t () u →
      (Retires t u i overlap ↔ Within t i overlap)) ∧
    ∀ snapshot actorId reason u, Commits (revokeAll snapshot actorId reason) t () u →
      ∀ k ∈ t.keys.rows, k.connectionId = snapshot.id → ∀ v, Run u v → ¬ resolves v k.keyHash := by
  have ht := sound_run (sound_of_opening hs) h
  refine ⟨ht.versions, fun k hk hr hx => ?_, ?_, ?_⟩
  · obtain ⟨e, he, hv, hh⟩ := ht.head k hk hr hx
    refine ⟨⟨e, he, hh⟩, fun k' hk' hc hr' hx' => ?_⟩
    obtain ⟨e', he', _, hh'⟩ := ht.head k' hk' hr' hx'
    obtain rfl : e' = e := Option.some.inj (he'.symm.trans (hc ▸ he))
    exact ht.hashes k' hk' k hk (Option.some.inj (hh'.symm.trans hh))
  · intro i overlap actorId reason hash u hc
    exact retires_iff ht hc
  · intro snapshot actorId reason u hc k hk hi v hv
    exact revoked_for_good ht hc hk hi hv

end Runs

section Scenario

def endpoint (i : ℕ) : ConnectionEndpoint := { id := i }

theorem names_endpoint : Names endpoint := fun _ => rfl

def ring : KeyRing where
  endpoints := Table.empty.insert endpoint names_endpoint

theorem opening_ring : Opening ring := by
  refine ⟨?_, ?_, ?_, ?_⟩
  all_goals
    intro k hk
    cases hk

def rotation (overlapMinutes : ℤ) : Operation := .rotate 0 overlapMinutes none "Scheduled." none

instance (s : KeyRing) (rawKey : ℕ) : Decidable (resolves s rawKey) :=
  inferInstanceAs (Decidable (_ = true))

def rotates (overlapMinutes : ℤ) (p : KeyRing → Bool) (s : KeyRing) : Bool :=
  match (rotation overlapMinutes).run.run s with
  | .ok (_, u) => p u
  | .error _ => false

theorem of_rotates {overlapMinutes : ℤ} {p : KeyRing → Bool} {s : KeyRing}
    (h : rotates overlapMinutes p s = true) :
    ∃ u, Commits (rotate 0 overlapMinutes none "Scheduled." none) s () u ∧ p u = true := by
  unfold rotates at h
  split at h
  · next u hu => exact ⟨u, hu, h⟩
  · cases h

theorem second_key_retires_first : ∃ t u, Run ring t ∧
    Commits (rotate 0 15 none "Scheduled." none) t () u ∧ resolves u 0 ∧ Retires t u 0 15 := by
  obtain ⟨t, ht, hp⟩ : ∃ t, Run ring t ∧
      (decide (∀ k ∈ t.keys.rows, k.expiresAt = none) &&
        rotates 15 (fun u => decide (resolves u 0)) t) = true :=
    Reaches.exists_of_run [rotation 0, .pass 60] (by decide)
  simp only [Bool.and_eq_true, decide_eq_true_eq] at hp
  obtain ⟨hnone, hrot⟩ := hp
  obtain ⟨u, hu, hres⟩ := of_rotates hrot
  obtain ⟨_, _, hret, _⟩ := rotations_retire_older_keys_iff opening_ring ht
  refine ⟨t, u, ht, hu, of_decide_eq_true hres, (hret 0 15 none "Scheduled." none u hu).mpr ?_⟩
  intro k hk _ _ e he
  rw [hnone k hk] at he
  cases he

-- The first key keeps the hour that the second rotation gave it, whatever the third one says.
theorem emergency_rotation_leaves_first_key : Opening ring ∧ ∃ t u, Run ring t ∧
    Commits (rotate 0 0 none "Scheduled." none) t () u ∧ resolves u 0 ∧ ¬ Retires t u 0 0 := by
  refine ⟨opening_ring, ?_⟩
  obtain ⟨t, ht, hp⟩ : ∃ t, Run ring t ∧
      ((t.keys.rows.any fun k => k.connectionId == 0 && k.keyHash == 0) &&
        rotates 0 (fun u => decide (resolves u 0) && decide (u.clock = t.clock)) t) = true :=
    Reaches.exists_of_run [rotation 0, rotation 60] (by decide)
  simp only [Bool.and_eq_true, List.any_eq_true, beq_iff_eq] at hp
  obtain ⟨⟨k, hk, hi, hh⟩, hrot⟩ := hp
  obtain ⟨u, hu, hp⟩ := of_rotates hrot
  simp only [Bool.and_eq_true, decide_eq_true_eq] at hp
  refine ⟨t, u, ht, hu, hp.1, fun hret => ?_⟩
  have hlt := hret k hk hi u Reaches.refl (hh ▸ hp.1)
  have hzero : effectiveOverlap 0 = 0 := rfl
  rw [hp.2, hzero] at hlt
  exact absurd hlt (by omega)

end Scenario
end EndpointKeyService
