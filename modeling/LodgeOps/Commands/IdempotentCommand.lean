import LodgeOps.Store.Leases
import LodgeOps.Commands.FinancialCommands

namespace EnsureIdempotentCommand
open Schema Transaction FinancialCommandExecutor

section Records

structure IdempotencyKey where
  id : ℕ
  key : String
  command : String
  requestHash : String
  statusCode : Option ℕ := none
  responseBody : Option String := none
  expiresAt : ℤ
  updatedAt : Option ℤ
deriving DecidableEq

instance : Keyed IdempotencyKey := ⟨IdempotencyKey.id⟩

instance : Lasting IdempotencyKey String where
  key := IdempotencyKey.key
  completed r := r.statusCode.isSome && r.responseBody.isSome

inductive Upload
  | file (name : String) (size : ℕ) (mime : Option String) (sha256 : Option String)
  | several (files : List (CanonicalJson.Key × Upload))
  | other

structure Request where
  idempotencyKey : Option String
  method : String
  uri : String
  path : String
  query : List (CanonicalJson.Key × CanonicalJson.Value)
  input : List (CanonicalJson.Key × CanonicalJson.Value)
  files : List (CanonicalJson.Key × Upload) := []
  receivedAt : ℤ

structure Response where
  status : ℕ
  content : String
deriving DecidableEq

def Response.isSuccessful (r : Response) : Bool := decide (200 ≤ r.status) && decide (r.status < 300)

inductive Phase
  | claimed
  | failed
  | succeeded (r : Response)
  | left
deriving DecidableEq

abbrev Desk (σ : Type) := Office IdempotencyKey String Request Phase (Books σ)

end Records

section Request
open CanonicalJson

def basename (s : String) : String :=
  let trimmed := s.toList.reverse.dropWhile (· == '/')
  String.ofList (trimmed.takeWhile (· != '/')).reverse

def text? : Option String → Value
  | some s => .str s
  | none => .null

mutual

def descriptor? : Upload → Option Value
  | .file name size mime sha256 => some (.array
      [(.str "name", .str (basename name)), (.str "size", .int size), (.str "mime", text? mime),
        (.str "sha256", match sha256 with
          | some s => .str s
          | none => .bool false)])
  | .several files => some (.array (fileDescriptors files))
  | .other => none

def fileDescriptors : List (Key × Upload) → List (Key × Value)
  | [] => []
  | (k, u) :: files =>
    match descriptor? u with
    | some v => (k, v) :: fileDescriptors files
    | none => fileDescriptors files

end

namespace Request

def command (q : Request) : String := q.method ++ " " ++ q.uri

def requestHash (q : Request) : String := checksum (.array
  [(.str "path", .str ("/" ++ String.ofList (q.path.toList.dropWhile (· == '/')))),
    (.str "query", .array q.query), (.str "input", .array q.input),
    (.str "files", .array (fileDescriptors q.files))])

end Request

def wellFormed (key : String) : Bool :=
  decide (16 ≤ key.length) && decide (key.length ≤ 128) &&
    key.toList.all fun c => letter c || c == '.' || c == '_' || c == ':' || c == '-'

end Request

section Steps
variable {σ : Type} (safe : String → Bool) (pendingLeaseSeconds : ℤ)

inductive Answer
  | passed
  | invalid
  | conflict (message : String)
  | replay (record : IdempotencyKey)
  | claimed
deriving DecidableEq

def opened (q : Request) (key : String) (now : ℤ) (i : ℕ) : IdempotencyKey where
  id := i
  key := key
  command := q.command
  requestHash := q.requestHash
  expiresAt := q.receivedAt + 86400
  updatedAt := some now

def touched (now : ℤ) (r : IdempotencyKey) : IdempotencyKey := { r with updatedAt := some now }

theorem keeps_touched (now : ℤ) : Keeps (touched now) := fun _ => rfl

def financiallyCommitted (b : Books σ) (key : String) : Bool :=
  b.records.rows.any fun r => r.idempotencyKey == key

def leaseExpired (now : ℤ) (r : IdempotencyKey) : Bool :=
  r.updatedAt.all fun at' => decide (at' ≤ now - pendingLeaseSeconds)

def claim (q : Request) (key : String) (o : Desk σ) : Answer × Desk σ :=
  match o.records.first? fun r => r.key == key with
  | none => (.claimed, o.create (opened q key o.now) (fun _ => rfl) q .claimed)
  | some r =>
    if r.command ≠ q.command ∨ r.requestHash ≠ q.requestHash then
      (.conflict "This idempotency key was already used for a different command or payload.", o)
    else if r.statusCode.isSome && r.responseBody.isSome then (.replay r, o)
    else if financiallyCommitted o.data key = false ∧
        leaseExpired pendingLeaseSeconds o.now r = false then
      (.conflict "A request with this idempotency key is already in progress.", o)
    else (.claimed, o.reclaim r (touched o.now) (keeps_touched o.now) q .claimed)

def handle (q : Request) (o : Desk σ) : Answer × Desk σ :=
  match q.idempotencyKey with
  | none => (.passed, o)
  | some key =>
    if wellFormed key && safe key then claim pendingLeaseSeconds q key o else (.invalid, o)

def answered (r : Response) (now : ℤ) (x : IdempotencyKey) : IdempotencyKey :=
  { x with statusCode := some r.status, responseBody := some r.content, updatedAt := some now }

theorem keeps_answered (r : Response) (now : ℤ) : Keeps (answered r now) := fun _ => rfl

-- A request without a key runs its command as one of the steps `elsewhere`.
inductive Action (σ : Type)
  | request (q : Request)
  | run (j : ℕ) (f : Books σ → Books σ)
  | respond (j : ℕ) (r : Response)
  | throw (j : ℕ)
  | update (j : ℕ)
  | cleanup (j : ℕ)
  | crash (j : ℕ)
  | elsewhere (f : Books σ → Books σ)
  | wait (seconds : ℕ)

def idle : Failure := .runtime "The request is not at this stage."

def proceed (o : Desk σ) (e : Executor IdempotencyKey Request Phase) :
    Action σ → Except Failure (Desk σ)
  | .run _ f => if e.phase = .claimed then .ok (o.perform e f) else .error idle
  | .respond j r =>
    if e.phase = .claimed then .ok (o.enter j (if r.isSuccessful then .succeeded r else .failed))
    else .error idle
  | .throw j => if e.phase = .claimed then .ok (o.enter j .failed) else .error idle
  | .update j =>
    match e.phase with
    | .succeeded r =>
      .ok ((o.write e.record.id (answered r o.now) (keeps_answered r o.now)).enter j .left)
    | _ => .error idle
  | .cleanup j =>
    if e.phase = .failed then .ok ((o.drop fun x => x.id == e.record.id).enter j .left)
    else .error idle
  | .crash j => .ok (o.enter j .left)
  | _ => .error idle

def Action.actor : Action σ → Option ℕ
  | run j _ | respond j _ | throw j | update j | cleanup j | crash j => some j
  | _ => none

def step (o : Desk σ) (a : Action σ) : Except Failure (Desk σ) :=
  match a.actor with
  | some j =>
    match o.executors.find? j with
    | some e => proceed o e a
    | none => .error idle
  | none =>
    match a with
    | .request q => .ok (handle safe pendingLeaseSeconds q o).2
    | .elsewhere f => .ok { o with data := f o.data }
    | .wait seconds => .ok { o with now := o.now + seconds }
    | _ => .error idle

def act (a : Action σ) : Transaction Failure (Desk σ) Unit := fun o =>
  match step safe pendingLeaseSeconds o a with
  | .ok o' => .ok ((), o')
  | .error e => .error e

-- The steps that run the command or change the record.
def Action.effect : Action σ → Option ℕ
  | run j _ | update j | cleanup j => some j
  | _ => none

-- No other request has claimed the key since the one that takes the step did.
def Action.Fenced (a : Action σ) (o : Desk σ) : Prop :=
  ∀ j, a.effect = some j → ∀ e, o.executors.find? j = some e → e.superseded = false

end Steps

section Preservation
variable {σ : Type} {safe : String → Bool} {pendingLeaseSeconds : ℤ} {o o' : Desk σ} {q : Request}
variable {key : String} {j : ℕ} {a : Action σ} {e : Executor IdempotencyKey Request Phase}
variable {x : IdempotencyKey}

def Phase.settled : Phase → Prop
  | left => True
  | _ => False

theorem advances_claim (hg : o.Guarded Phase.settled) :
    Office.Advances Phase.settled o (claim pendingLeaseSeconds q key o).2 := by
  cases hr : o.records.first? (fun r => r.key == key) with
  | none =>
    have hfresh : ∀ x ∈ o.records.rows, x.key ≠ key := fun x hx hk => by
      have hno := Table.first?_eq_none.mp hr x hx
      simp [hk] at hno
    simp only [claim, hr]
    exact Office.advances_create hg _ hfresh rfl
  | some r =>
    simp only [claim, hr]
    split_ifs with _ hdone
    · exact hg.advances
    · exact hg.advances
    · exact hg.advances
    · have hopen : Lasting.completed r = false := Bool.not_eq_true _ ▸ hdone
      exact Office.advances_reclaim hg (Table.first?_some hr).1 (keeps_touched _) (fun _ => rfl)
        hopen hopen

theorem advances_handle (hg : o.Guarded Phase.settled) :
    Office.Advances Phase.settled o (handle safe pendingLeaseSeconds q o).2 := by
  unfold handle
  split
  · exact hg.advances
  · split_ifs
    · exact advances_claim hg
    · exact hg.advances

theorem advances_executor (hg : o.Guarded Phase.settled) (hj : o.executors.find? j = some e)
    (ha : a.actor = some j) (hf : a.Fenced o) (h : proceed o e a = .ok o') :
    Office.Advances Phase.settled o o' := by
  obtain ⟨he, hid⟩ := Table.find?_eq_some.mp hj
  change e.id = j at hid
  have hleft : Phase.settled .left := trivial
  cases a with
  | run i f =>
    obtain rfl : i = j := Option.some.inj ha
    simp only [proceed] at h
    split_ifs at h with hp
    obtain rfl := Except.ok.inj h
    exact Office.advances_perform hg he (hf i rfl e hj) (by simp [hp, Phase.settled]) f
  | respond i r =>
    obtain rfl : i = j := Option.some.inj ha
    simp only [proceed] at h
    split_ifs at h with hp hr
    all_goals
      obtain rfl := Except.ok.inj h
      exact Office.advances_go_on hg he hid (by simp [hp, Phase.settled])
  | throw i =>
    obtain rfl : i = j := Option.some.inj ha
    simp only [proceed] at h
    split_ifs at h with hp
    obtain rfl := Except.ok.inj h
    exact Office.advances_go_on hg he hid (by simp [hp, Phase.settled])
  | update i =>
    obtain rfl : i = j := Option.some.inj ha
    simp only [proceed] at h
    split at h
    next r hp =>
      obtain rfl := Except.ok.inj h
      subst hid
      exact Office.advances_write hg (keeps_answered r o.now) (fun _ => rfl) he (hf _ rfl e hj)
        (by simp [hp, Phase.settled]) (hg.owned e he) hleft
    · cases h
  | cleanup i =>
    obtain rfl : i = j := Option.some.inj ha
    simp only [proceed] at h
    split_ifs at h with hp
    obtain rfl := Except.ok.inj h
    subst hid
    exact Office.advances_drop hg he (hf _ rfl e hj) (by simp [hp, Phase.settled]) hleft
  | crash i =>
    obtain rfl := Except.ok.inj h
    exact Office.advances_leave hg hleft
  | request q => cases ha
  | elsewhere f => cases ha
  | wait seconds => cases ha

theorem advances_step (hg : o.Guarded Phase.settled) (hf : a.Fenced o)
    (h : step safe pendingLeaseSeconds o a = .ok o') : Office.Advances Phase.settled o o' := by
  unfold step at h
  split at h
  next j ha =>
    split at h
    next e hj => exact advances_executor hg hj ha hf h
    · cases h
  next ha =>
    cases a with
    | request q =>
      obtain rfl := Except.ok.inj h
      exact advances_handle hg
    | elsewhere f =>
      obtain rfl := Except.ok.inj h
      exact ⟨⟨hg.keys, hg.known, hg.owned, hg.single, hg.rested⟩, fun x hx _ => ⟨hx, rfl⟩⟩
    | wait seconds =>
      obtain rfl := Except.ok.inj h
      exact ⟨⟨hg.keys, hg.known, hg.owned, hg.single, hg.rested⟩, fun x hx _ => ⟨hx, rfl⟩⟩
    | _ => cases ha

theorem commits_act {u : Unit} : Commits (act safe pendingLeaseSeconds a) o u o' ↔
    step safe pendingLeaseSeconds o a = .ok o' := by
  simp only [Commits, act, StateT.run]
  cases step safe pendingLeaseSeconds o a <;> simp

theorem guarded_run (hg : o.Guarded Phase.settled)
    (h : Reaches (act safe pendingLeaseSeconds) Action.Fenced o o') : o'.Guarded Phase.settled :=
  h.invariant hg fun _ _ _ hg hf hc => (advances_step hg hf (commits_act.mp hc)).guarded

theorem kept_run (hg : o.Guarded Phase.settled) (hx : x ∈ o.records.rows)
    (hc : Lasting.completed x = true)
    (h : Reaches (act safe pendingLeaseSeconds) Action.Fenced o o') : Office.Kept x o o' := by
  refine (h.invariant (I := fun u => u.Guarded Phase.settled ∧ Office.Kept x o u)
    ⟨hg, Office.kept_refl hx⟩ fun a u v ⟨hu, hkept⟩ hf hcm => ?_).2
  have ha := advances_step hu hf (commits_act.mp hcm)
  exact ⟨ha.guarded, hkept.trans (ha.kept x hkept.stands hc)⟩

end Preservation
end EnsureIdempotentCommand
