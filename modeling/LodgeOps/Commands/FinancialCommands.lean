import LodgeOps.Commands.CanonicalJson
import LodgeOps.Schema.Database

namespace FinancialCommandExecutor
open Schema Transaction

section Records

-- A stored model, by its class and its key.
structure Result where
  model : String
  key : ℕ
deriving DecidableEq

structure FinancialCommandRecord where
  id : ℕ
  commandType : String
  idempotencyKey : String
  requestChecksum : String
  result : Result
deriving DecidableEq

instance : Keyed FinancialCommandRecord := ⟨FinancialCommandRecord.id⟩

-- What the executor asks of the tenant's other tables.
class Models (σ : Type) where
  has : σ → Result → Bool
  tenantModel : String → Bool

structure Books (σ : Type) where
  records : Table FinancialCommandRecord := .empty
  data : σ

variable {σ : Type} [Models σ]

def record? (b : Books σ) (commandType key : String) : Option FinancialCommandRecord :=
  b.records.first? fun x => x.commandType == commandType && x.idempotencyKey == key

-- Financial rows are never deleted, and a callback answers with a row that it read or wrote.
structure Callback (σ : Type) [Models σ] where
  run : Transaction Failure σ Result
  keeps : ∀ s r s' x, Commits run s r s' → Models.has s x = true → Models.has s' x = true
  stored : ∀ s r s', Commits run s r s' → Models.has s' r = true

structure Call (σ : Type) [Models σ] where
  commandType : String
  idempotencyKey : String
  payload : CanonicalJson.Value
  callback : Callback σ

end Records

section Execution
variable {σ : Type} [Models σ]

def letter (c : Char) : Bool := ('A' ≤ c && c ≤ 'Z') || ('a' ≤ c && c ≤ 'z') || ('0' ≤ c && c ≤ '9')

def stable (key : String) : Bool :=
  key.toList.head?.any letter &&
    key.toList.all (fun c => letter c || c == '.' || c == '_' || c == ':' || c == '-') &&
    decide (8 ≤ key.length) && decide (key.length ≤ 160)

def reused : Failure :=
  .validation "idempotency_key" "This command key was already used with a different request body."

def onData {α : Type} (x : Transaction Failure σ α) : Transaction Failure (Books σ) α := fun b =>
  match x.run b.data with
  | .ok (a, d) => .ok (a, { b with data := d })
  | .error e => .error e

def recorded (c : Call σ) (r : Result) (i : ℕ) : FinancialCommandRecord where
  id := i
  commandType := c.commandType
  idempotencyKey := trim c.idempotencyKey
  requestChecksum := CanonicalJson.checksum c.payload
  result := r

inductive Outcome
  | executed (r : Result)
  | replayed (r : Result)
  | failed (e : Failure)
deriving DecidableEq

def replay (c : Call σ) (x : FinancialCommandRecord) : Transaction Failure (Books σ) Outcome := do
  reject (x.requestChecksum ≠ CanonicalJson.checksum c.payload) reused
  reject (Models.tenantModel σ x.result.model = false)
    (.logic "Stored financial command result type is invalid.")
  let b ← get
  reject (Models.has b.data x.result = false) .modelNotFound
  pure (.replayed x.result)

def execute (c : Call σ) : Transaction Failure (Books σ) Outcome := do
  let r ← onData c.callback.run
  reject (Models.tenantModel σ r.model = false)
    (.logic "Financial commands must return a tenant-scoped model.")
  let b ← get
  reject ((record? b c.commandType (trim c.idempotencyKey)).isSome = true)
    (.runtime "financial_commands_identity_unique")
  set { b with records := b.records.insert (recorded c r) }
  pure (.executed r)

-- The rest of the transaction, once the tenant row is locked and the record has been read.
def perform (seen : Option FinancialCommandRecord) (c : Call σ) :
    Transaction Failure (Books σ) Outcome :=
  match seen with
  | some x => replay c x
  | none => execute c

end Execution

section Desk
variable {σ : Type} [Models σ]

inductive Hold (σ : Type) [Models σ]
  | locked (c : Call σ)
  | read (c : Call σ) (seen : Option FinancialCommandRecord)

def Hold.call : Hold σ → Call σ
  | locked c => c
  | read c _ => c

structure Answer (σ : Type) [Models σ] where
  call : Call σ
  outcome : Outcome
  before : Books σ
  after : Books σ

-- The tenant's database, the call that holds the lock of the tenant row, and the answers so far.
structure Desk (σ : Type) [Models σ] where
  books : Books σ
  holder : Option (Hold σ) := none
  history : List (Answer σ) := []

-- Anything else that writes while calls are under way; it does not delete financial rows.
structure Elsewhere (σ : Type) [Models σ] where
  run : σ → σ
  keeps : ∀ s x, Models.has s x = true → Models.has (run s) x = true

inductive Action (σ : Type) [Models σ]
  | refuse (c : Call σ)
  | lock (c : Call σ)
  | read
  | finish
  | crash
  | elsewhere (f : Elsewhere σ)

def unavailable : Failure := .runtime "The lock of the tenant row is not available."

def invalidKey : Failure :=
  .validation "idempotency_key" "Use an 8-160 character stable command key."

def answered (d : Desk σ) (c : Call σ) (o : Outcome) (after : Books σ) : Desk σ where
  books := after
  holder := none
  history := d.history ++ [⟨c, o, d.books, after⟩]

def readRecord (d : Desk σ) : Hold σ → Hold σ
  | .locked c => .read c (record? d.books c.commandType (trim c.idempotencyKey))
  | .read c seen => .read c seen

def conclude (d : Desk σ) : Hold σ → Except Failure (Desk σ)
  | .locked _ => .error unavailable
  | .read c seen =>
    match (perform seen c).run d.books with
    | .ok (o, books) => .ok (answered d c o books)
    | .error e => .ok (answered d c (.failed e) d.books)

def step (d : Desk σ) : Action σ → Except Failure (Desk σ)
  | .refuse c =>
    if stable (trim c.idempotencyKey) then .error unavailable
    else .ok { d with history := d.history ++ [⟨c, .failed invalidKey, d.books, d.books⟩] }
  | .lock c =>
    if d.holder.isSome ∨ stable (trim c.idempotencyKey) = false then .error unavailable
    else .ok { d with holder := some (.locked c) }
  | .read =>
    match d.holder with
    | some h => .ok { d with holder := some (readRecord d h) }
    | none => .error unavailable
  | .finish =>
    match d.holder with
    | some h => conclude d h
    | none => .error unavailable
  | .crash => .ok { d with holder := none }
  | .elsewhere f => .ok { d with books := { d.books with data := f.run d.books.data } }

def act (a : Action σ) : Transaction Failure (Desk σ) Unit := fun d =>
  match step d a with
  | .ok d' => .ok ((), d')
  | .error e => .error e

end Desk

section Lookup
variable {σ : Type} {b b' : Books σ} {x : FinancialCommandRecord} {T K : String}

theorem commits_onData {α : Type} {y : Transaction Failure σ α} {a : α} :
    Commits (onData y) b a b' ↔ ∃ s, Commits y b.data a s ∧ b' = { b with data := s } := by
  simp only [Commits, onData, StateT.run]
  cases y b.data with
  | error e => simp
  | ok v =>
    simp only [Except.ok.injEq, Prod.mk.injEq]
    constructor
    · rintro ⟨rfl, rfl⟩
      exact ⟨v.2, rfl, rfl⟩
    · rintro ⟨s, rfl, rfl⟩
      exact ⟨rfl, rfl⟩

theorem record?_some (h : record? b T K = some x) :
    x ∈ b.records.rows ∧ x.commandType = T ∧ x.idempotencyKey = K := by
  obtain ⟨hx, hp⟩ := Table.first?_some h
  simpa [hx] using hp

end Lookup

section Commits
variable {σ : Type} [Models σ] {b b' : Books σ} {c : Call σ} {x : FinancialCommandRecord}
variable {o : Outcome} {T K : String} {r : Result}

theorem commits_replay : Commits (replay c x) b o b' ↔
    x.requestChecksum = CanonicalJson.checksum c.payload ∧
      Models.tenantModel σ x.result.model = true ∧ Models.has b.data x.result = true ∧
        o = .replayed x.result ∧ b' = b := by
  simp only [replay, commits_bind, commits_reject, commits_get, commits_pure, not_not,
    Bool.not_eq_false]
  constructor
  · rintro ⟨_, _, ⟨hsum, rfl⟩, _, _, ⟨ht, rfl⟩, _, _, ⟨rfl, rfl⟩, _, _, ⟨hh, rfl⟩, rfl, rfl⟩
    exact ⟨hsum, ht, hh, rfl, rfl⟩
  · rintro ⟨hsum, ht, hh, rfl, rfl⟩
    exact ⟨(), _, ⟨hsum, rfl⟩, (), _, ⟨ht, rfl⟩, _, _, ⟨rfl, rfl⟩, (), _, ⟨hh, rfl⟩, rfl, rfl⟩

theorem commits_execute (h : Commits (execute c) b o b') : ∃ r s,
    Commits c.callback.run b.data r s ∧ Models.tenantModel σ r.model = true ∧
      record? b c.commandType (trim c.idempotencyKey) = none ∧ o = .executed r ∧
        b' = ⟨b.records.insert (recorded c r), s⟩ := by
  simp only [execute, commits_bind, commits_onData, commits_reject, commits_get, commits_set,
    commits_pure, Bool.not_eq_false, Bool.not_eq_true, Option.isSome_eq_false_iff,
    Option.isNone_iff_eq_none] at h
  obtain ⟨r, _, ⟨s, hs, rfl⟩, _, _, ⟨ht, rfl⟩, _, _, ⟨rfl, rfl⟩, _, _, ⟨hn, rfl⟩, _, _, rfl, rfl,
    rfl⟩ := h
  exact ⟨r, s, hs, ht, hn, rfl, rfl⟩

theorem record?_insert (s : σ) : record? ⟨b.records.insert (recorded c r), s⟩ T K =
    (record? b T K).or (if c.commandType = T ∧ trim c.idempotencyKey = K
      then some (recorded c r b.records.next) else none) := by
  simp [record?, Table.first?, Table.insert, List.find?_append, recorded]

end Commits

section Once
variable {σ : Type} [Models σ] {d d' : Desk σ} {c : Call σ} {o : Outcome} {a : Action σ}
variable {b : Books σ}

def Answer.Of (T K : String) (a : Answer σ) : Prop :=
  a.call.commandType = T ∧ trim a.call.idempotencyKey = K

instance (T K : String) (a : Answer σ) : Decidable (a.Of T K) := inferInstanceAs (Decidable (_ ∧ _))

def Outcome.isExecuted : Outcome → Bool
  | executed _ => true
  | _ => false

def executes (T K : String) (a : Answer σ) : Bool := decide (a.Of T K) && a.outcome.isExecuted

-- What a call is owed once an earlier one with its identity has taken effect.
def Follows (e : Answer σ) (r : Result) (a : Answer σ) : Prop :=
  if CanonicalJson.encode a.call.payload = CanonicalJson.encode e.call.payload
  then a.outcome = .replayed r
  else ∃ f, a.outcome = .failed f

def Respects (e a : Answer σ) : Prop :=
  ∀ r, e.outcome = .executed r → a.Of e.call.commandType (trim e.call.idempotencyKey) →
    Follows e r a

structure Sound (d : Desk σ) : Prop where
  current : ∀ c seen, d.holder = some (.read c seen) →
    seen = record? d.books c.commandType (trim c.idempotencyKey)
  admitted : ∀ hold, d.holder = some hold → stable (trim hold.call.idempotencyKey) = true
  stored : ∀ x ∈ d.books.records.rows,
    Models.tenantModel σ x.result.model = true ∧ Models.has d.books.data x.result = true
  counted : ∀ T K, d.history.countP (executes T K) =
    if (record? d.books T K).isSome then 1 else 0
  marked : ∀ e ∈ d.history, ∀ r, e.outcome = .executed r →
    stable (trim e.call.idempotencyKey) = true ∧ ∃ x,
      record? d.books e.call.commandType (trim e.call.idempotencyKey) = some x ∧ x.result = r ∧
        x.requestChecksum = CanonicalJson.encode e.call.payload
  ordered : d.history.Pairwise Respects
  idle : ∀ e ∈ d.history, e.outcome.isExecuted = false → e.after = e.before

structure Fresh (d : Desk σ) : Prop where
  records : d.books.records.rows = []
  holder : d.holder = none
  history : d.history = []

theorem sound_of_fresh (h : Fresh d) : Sound d where
  current c seen hs := by simp [h.holder] at hs
  admitted hold hs := by simp [h.holder] at hs
  stored x hx := by simp [h.records] at hx
  counted T K := by simp [h.history, record?, Table.first?, h.records]
  marked e he := by simp [h.history] at he
  ordered := by simp [h.history]
  idle e he := by simp [h.history] at he

-- An answer that takes no effect leaves everything but the history as it is.
theorem sound_unchanged (hs : Sound d) {holder : Option (Hold σ)} (hn : o.isExecuted = false)
    (hc : ∀ c seen, holder = some (.read c seen) →
      seen = record? d.books c.commandType (trim c.idempotencyKey))
    (ha : ∀ hold, holder = some hold → stable (trim hold.call.idempotencyKey) = true)
    (hf : ∀ e ∈ d.history, Respects e ⟨c, o, d.books, d.books⟩) :
    Sound ⟨d.books, holder, d.history ++ [⟨c, o, d.books, d.books⟩]⟩ where
  current := hc
  admitted := ha
  stored := hs.stored
  counted T K := by
    rw [List.countP_append, hs.counted]
    simp [executes, hn]
  marked e he r hr := by
    rcases List.mem_append.mp he with he | he
    · exact hs.marked e he r hr
    · obtain rfl := List.mem_singleton.mp he
      rw [show o = .executed r from hr] at hn
      cases hn
  ordered := by
    rw [List.pairwise_append]
    refine ⟨hs.ordered, List.pairwise_singleton _ _, fun e he a ha => ?_⟩
    obtain rfl := List.mem_singleton.mp ha
    exact hf e he
  idle e he hx := by
    rcases List.mem_append.mp he with he | he
    · exact hs.idle e he hx
    · obtain rfl := List.mem_singleton.mp he
      rfl

theorem respects_failed (hs : Sound d) (hn : record? d.books c.commandType (trim c.idempotencyKey) = none)
    (e : Answer σ) (he : e ∈ d.history) (after : Books σ) : Respects e ⟨c, o, d.books, after⟩ := by
  intro r hr hof
  obtain ⟨_, x, hx, _⟩ := hs.marked e he r hr
  rw [← hof.1, ← hof.2] at hx
  simp [hn] at hx

theorem respects_replay {x : FinancialCommandRecord} (hs : Sound d)
    (hx : record? d.books c.commandType (trim c.idempotencyKey) = some x) (e : Answer σ)
    (he : e ∈ d.history) (after : Books σ)
    (hsame : x.requestChecksum = CanonicalJson.checksum c.payload → o = .replayed x.result)
    (hother : x.requestChecksum ≠ CanonicalJson.checksum c.payload → ∃ f, o = .failed f) :
    Respects e ⟨c, o, d.books, after⟩ := by
  intro r hr hof
  obtain ⟨_, y, hy, rfl, hsum⟩ := hs.marked e he r hr
  rw [← hof.1, ← hof.2] at hy
  obtain rfl : x = y := Option.some.inj (hx.symm.trans hy)
  unfold Follows
  split_ifs with hp
  · exact hsame (hsum.trans hp.symm)
  · exact hother fun h => hp (h.symm.trans hsum)

-- The record that was read is still the current one, because only the holder of the lock writes one.
theorem sound_replay {x : FinancialCommandRecord} (hs : Sound d)
    (hx : record? d.books c.commandType (trim c.idempotencyKey) = some x)
    (h : conclude d (.read c (some x)) = .ok d') : Sound d' := by
  obtain ⟨ht, hh⟩ := hs.stored x (record?_some hx).1
  simp only [conclude, perform] at h
  cases hr : (replay c x).run d.books with
  | ok p =>
    obtain ⟨o, books⟩ := p
    obtain ⟨hsum, _, _, rfl, rfl⟩ := commits_replay.mp hr
    simp only [hr, Except.ok.injEq] at h
    subst h
    exact sound_unchanged hs rfl nofun nofun fun e he =>
      respects_replay hs hx e he _ (fun _ => rfl) fun hne => absurd hsum hne
  | error f =>
    have hsum : x.requestChecksum ≠ CanonicalJson.checksum c.payload := fun hsum => by
      have hok : Commits (replay c x) d.books (.replayed x.result) d.books :=
        commits_replay.mpr ⟨hsum, ht, hh, rfl, rfl⟩
      simp [Commits, hr] at hok
    simp only [hr, Except.ok.injEq] at h
    subst h
    exact sound_unchanged hs rfl nofun nofun fun e he =>
      respects_replay hs hx e he _ (fun h => absurd h hsum) fun _ => ⟨f, rfl⟩

theorem sound_execute (hs : Sound d) (hk : stable (trim c.idempotencyKey) = true)
    (hn : record? d.books c.commandType (trim c.idempotencyKey) = none)
    (h : conclude d (.read c none) = .ok d') : Sound d' := by
  simp only [conclude, perform] at h
  cases hr : (execute c).run d.books with
  | error f =>
    simp only [hr, Except.ok.injEq] at h
    subst h
    exact sound_unchanged hs rfl nofun nofun fun e he => respects_failed hs hn e he _
  | ok p =>
    obtain ⟨o, books⟩ := p
    obtain ⟨r, s, hcall, ht, _, rfl, rfl⟩ := commits_execute hr
    simp only [hr, Except.ok.injEq] at h
    subst h
    refine ⟨nofun, nofun, ?_, ?_, ?_, ?_, ?_⟩
    · intro x hx
      rcases (Table.mem_insert).mp hx with hx | rfl
      · exact ⟨(hs.stored x hx).1, c.callback.keeps _ _ _ _ hcall (hs.stored x hx).2⟩
      · exact ⟨ht, c.callback.stored _ _ _ hcall⟩
    · intro T K
      simp only [answered, List.countP_append, hs.counted, record?_insert, List.countP_singleton,
        executes, Answer.Of, Outcome.isExecuted, Bool.and_true]
      by_cases hof : c.commandType = T ∧ trim c.idempotencyKey = K
      · obtain ⟨rfl, rfl⟩ := hof
        simp [hn]
      · simp [hof]
    · intro e he q hq
      simp only [answered, record?_insert]
      rcases List.mem_append.mp he with he | he
      · obtain ⟨hek, x, hx, hres⟩ := hs.marked e he q hq
        exact ⟨hek, x, by simp [hx], hres⟩
      · obtain rfl := List.mem_singleton.mp he
        obtain rfl : r = q := by simpa using hq
        exact ⟨hk, recorded c r d.books.records.next, by simp [hn], rfl, rfl⟩
    · show List.Pairwise _ (d.history ++ _)
      rw [List.pairwise_append]
      refine ⟨hs.ordered, List.pairwise_singleton _ _, fun e he a ha => ?_⟩
      obtain rfl := List.mem_singleton.mp ha
      exact respects_failed hs hn e he _
    · intro e he hx
      rcases List.mem_append.mp he with he | he
      · exact hs.idle e he hx
      · obtain rfl := List.mem_singleton.mp he
        cases hx

theorem sound_step (hs : Sound d) (h : step d a = .ok d') : Sound d' := by
  cases a with
  | refuse c =>
    simp only [step] at h
    split_ifs at h with hk
    obtain rfl := Except.ok.inj h
    refine sound_unchanged hs rfl hs.current hs.admitted fun e he r hr hof => ?_
    have hstable := (hs.marked e he r hr).1
    rw [← hof.2] at hstable
    exact absurd hstable hk
  | lock c =>
    simp only [step] at h
    split_ifs at h with hfree
    obtain rfl := Except.ok.inj h
    refine ⟨nofun, fun hold hh => ?_, hs.stored, hs.counted, hs.marked, hs.ordered, hs.idle⟩
    obtain rfl := Option.some.inj hh
    exact Bool.not_eq_false _ ▸ (not_or.mp hfree).2
  | read =>
    cases hh : d.holder with
    | none => simp [step, hh] at h
    | some hold =>
      simp only [step, hh] at h
      obtain rfl := Except.ok.inj h
      refine ⟨fun c seen hr => ?_, fun hold' hr => ?_, hs.stored, hs.counted, hs.marked, hs.ordered,
        hs.idle⟩
      · cases hold with
        | locked c' =>
          simp only [readRecord, Option.some.injEq, Hold.read.injEq] at hr
          obtain ⟨rfl, rfl⟩ := hr
          rfl
        | read c' seen' => exact hs.current c seen (hh.trans hr)
      · obtain rfl := Option.some.inj hr
        have hadmitted := hs.admitted hold hh
        cases hold with
        | locked c' => exact hadmitted
        | read c' seen' => exact hadmitted
  | finish =>
    cases hh : d.holder with
    | none => simp [step, hh] at h
    | some hold =>
      simp only [step, hh] at h
      cases hold with
      | locked c => cases h
      | read c seen =>
        have hseen := hs.current c seen hh
        cases seen with
        | none => exact sound_execute hs (hs.admitted _ hh) hseen.symm h
        | some x => exact sound_replay hs hseen.symm h
  | crash =>
    obtain rfl := Except.ok.inj h
    exact ⟨nofun, nofun, hs.stored, hs.counted, hs.marked, hs.ordered, hs.idle⟩
  | elsewhere f =>
    obtain rfl := Except.ok.inj h
    exact ⟨hs.current, hs.admitted, fun x hx => ⟨(hs.stored x hx).1, f.keeps _ _ (hs.stored x hx).2⟩,
      hs.counted, hs.marked, hs.ordered, hs.idle⟩

theorem commits_act {u : Unit} : Commits (act a) d u d' ↔ step d a = .ok d' := by
  simp only [Commits, act, StateT.run]
  cases step d a <;> simp

theorem commands_take_effect_once (h0 : Fresh d)
    (h : Reaches act (fun (_ : Action σ) _ => True) d d') :
    (∀ T K, d'.history.countP (executes T K) ≤ 1) ∧ d'.history.Pairwise Respects ∧
      ∀ e ∈ d'.history, e.outcome.isExecuted = false → e.after = e.before := by
  have hs : Sound d' := h.invariant (sound_of_fresh h0) fun _ _ _ hs _ hc =>
    sound_step hs (commits_act.mp hc)
  refine ⟨fun T K => ?_, hs.ordered, hs.idle⟩
  rw [hs.counted]
  split_ifs
  · exact le_rfl
  · exact Nat.zero_le 1

end Once

section Scenario

structure Payments where
  taken : ℕ := 0
deriving DecidableEq

def Payments.has (s : Payments) (r : Result) : Bool :=
  r.model == "Payment" && decide (r.key < s.taken)

instance : Models Payments where
  has := Payments.has
  tenantModel m := m == "Payment"

def taking : Transaction Failure Payments Result := do
  let s ← get
  set { s with taken := s.taken + 1 }
  pure ⟨"Payment", s.taken⟩

theorem commits_taking {s s' : Payments} {r : Result} (h : Commits taking s r s') :
    r = ⟨"Payment", s.taken⟩ ∧ s' = ⟨s.taken + 1⟩ := by
  simp only [taking, commits_bind, commits_get, commits_set, commits_pure] at h
  obtain ⟨_, _, ⟨rfl, rfl⟩, _, _, rfl, rfl, rfl⟩ := h
  exact ⟨rfl, rfl⟩

def take : Callback Payments where
  run := taking
  keeps s r s' x h hx := by
    obtain ⟨_, rfl⟩ := commits_taking h
    simp only [Models.has, Payments.has, Bool.and_eq_true, decide_eq_true_eq] at hx ⊢
    exact ⟨hx.1, hx.2.trans (Nat.lt_succ_self _)⟩
  stored s r s' h := by
    obtain ⟨rfl, rfl⟩ := commits_taking h
    simp [Models.has, Payments.has]

def taken (entries : List (CanonicalJson.Key × CanonicalJson.Value)) : Call Payments where
  commandType := "payment.record"
  idempotencyKey := "payment-0001"
  payload := .array entries
  callback := take

def desk : Desk Payments where
  books := { data := {} }

-- A crash before the write, the command, its replay with the keys the other way, another amount.
theorem second_payment_is_a_replay : ∃ d, Reaches act (fun (_ : Action Payments) _ => True) desk d ∧
    d.books.data.taken = 1 ∧ d.history.map Answer.outcome =
      [.executed ⟨"Payment", 0⟩, .replayed ⟨"Payment", 0⟩, .failed reused] ∧
        d.history.Pairwise Respects := by
  obtain ⟨d, hr, hp⟩ : ∃ d, Reaches act (fun (_ : Action Payments) _ => True) desk d ∧
      decide (d.books.data.taken = 1 ∧ d.history.map Answer.outcome =
        [.executed ⟨"Payment", 0⟩, .replayed ⟨"Payment", 0⟩, .failed reused]) = true :=
    Reaches.exists_of_run
      [.lock (taken [(.str "amount", .int 500), (.str "currency", .str "USD")]), .read, .crash,
        .lock (taken [(.str "amount", .int 500), (.str "currency", .str "USD")]), .read, .finish,
        .lock (taken [(.str "currency", .str "USD"), (.str "amount", .int 500)]), .read, .finish,
        .lock (taken [(.str "currency", .str "USD"), (.str "amount", .int 900)]), .read, .finish]
      (by decide +kernel)
  obtain ⟨htaken, houtcome⟩ := of_decide_eq_true hp
  exact ⟨d, hr, htaken, houtcome, (commands_take_effect_once ⟨rfl, rfl, rfl⟩ hr).2.1⟩

end Scenario
end FinancialCommandExecutor
