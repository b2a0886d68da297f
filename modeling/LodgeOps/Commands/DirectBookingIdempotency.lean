import LodgeOps.Store.Leases
import LodgeOps.Commands.CanonicalJson
import LodgeOps.Schema.Database

namespace EnsureDirectBookingIdempotency
open Schema Transaction

section Records

structure ResponseHeaders where
  cacheControl : String
  correlationId : String
deriving DecidableEq

structure DirectBookingCommandResponse where
  id : ℕ
  propertyId : ℕ
  directBookingOrderId : Option ℕ := none
  idempotencyKey : String
  command : String
  requestChecksum : String
  requestTokenHash : Option String
  responseTokenHash : Option String := none
  statusCode : Option ℕ := none
  responseBody : Option String := none
  responseHeaders : Option ResponseHeaders := none
  leaseExpiresAt : ℤ
  expiresAt : ℤ
deriving DecidableEq

instance : Keyed DirectBookingCommandResponse := ⟨DirectBookingCommandResponse.id⟩

instance : Lasting DirectBookingCommandResponse String where
  key := DirectBookingCommandResponse.idempotencyKey
  completed r := r.statusCode.isSome && r.responseBody.isSome

structure UploadedFile where
  sha256 : String
  size : ℕ
  mime : String
deriving DecidableEq

structure Setting where
  propertyId : ℕ
  publicSlug : String
deriving DecidableEq

-- The parts of a request that are read, and the identifier that `Str::uuid` would make for it.
structure Request where
  setting : Option Setting
  idempotencyKey : String
  correlationId : Option String := none
  uuid : String
  bearerToken : Option String
  method : String
  uri : String
  orderReference : Option String
  input : List (CanonicalJson.Key × CanonicalJson.Value)
  turnstilePresent : Bool
  evidence : Option UploadedFile := none

structure Response where
  status : ℕ
  content : String
  headers : ResponseHeaders
deriving DecidableEq

def Response.isSuccessful (r : Response) : Bool := decide (200 ≤ r.status) && decide (r.status < 300)

-- `unset` is an answer whose record was read again and had no status.
inductive Phase
  | claimed
  | failed
  | succeeded (r : Response)
  | unset (r : Response)
  | left
deriving DecidableEq

abbrev Desk := Office DirectBookingCommandResponse String Request Phase Database

end Records

section Request

def lower (s : String) : String := String.ofList (s.toList.map Char.toLower)

def hexDigit (c : Char) : Bool :=
  ('0' ≤ c && c ≤ '9') || ('a' ≤ c && c ≤ 'f') || ('A' ≤ c && c ≤ 'F')

def isUuid (s : String) : Bool :=
  s.toList.length == 36 && (s.toList.zipIdx.all fun p =>
    if p.2 ∈ [8, 13, 18, 23] then p.1 == '-' else hexDigit p.1)

def correlated (s : String) : Bool :=
  decide (16 ≤ s.length) && decide (s.length ≤ 128) && s.toList.all fun c =>
    ('A' ≤ c && c ≤ 'Z') || ('a' ≤ c && c ≤ 'z') || ('0' ≤ c && c ≤ '9') || c == '.' || c == '_' ||
      c == ':' || c == '-'

namespace Request

def key (q : Request) : String := lower (trim q.idempotencyKey)

-- What the controller takes from the header for the command.
def retryIdentity (q : Request) : String := lower q.idempotencyKey

def correlation (q : Request) : String := (q.correlationId.filter correlated).getD q.uuid

-- The hash of a token stands for the token.
def tokenHash (q : Request) : Option String := q.bearerToken.filter (· != "")

def command (q : Request) : String := q.method ++ " /" ++ q.uri

def text? : Option String → CanonicalJson.Value
  | some s => .str s
  | none => .null

def facts (q : Request) (s : Setting) : CanonicalJson.Value := .array
  [(.str "command", .str q.command),
    (.str "path_parameters", .array
      [(.str "property", .str s.publicSlug), (.str "order", text? q.orderReference)]),
    (.str "input", .array (q.input.filter fun e =>
      e.1 != .str "turnstile_token" && e.1 != .str "evidence")),
    (.str "turnstile_present", .bool q.turnstilePresent),
    (.str "file", match q.evidence with
      | some f => .array [(.str "sha256", .str f.sha256), (.str "size", .int f.size),
          (.str "mime", .str f.mime)]
      | none => .null)]

def checksum (q : Request) (s : Setting) : String := CanonicalJson.checksum (q.facts s)

end Request
end Request

section Claim

inductive Answer
  | abort (status : ℕ)
  | error (code : DirectBookingErrorCode)
  | replay (record : DirectBookingCommandResponse)
  | claimed
deriving DecidableEq

def replaySessionIsCurrent (now : ℤ) (db : Database) (r : DirectBookingCommandResponse)
    (requestTokenHash : Option String) : Bool :=
  match r.directBookingOrderId, r.responseTokenHash with
  | some i, some hash =>
    match db.orders.find? i with
    | some order =>
      order.revokedAt.isNone && decide (now ≤ order.sessionExpiresAt) && hash == order.tokenHash &&
        match requestTokenHash, r.requestTokenHash with
        | none, stored => stored.isNone
        | some _, none => false
        | some given, some stored => stored == given &&
            ("/recover".toList.isSuffixOf r.command.toList || given == order.tokenHash)
    | none => false
  | _, _ => false

def opened (q : Request) (s : Setting) (now : ℤ) (i : ℕ) : DirectBookingCommandResponse where
  id := i
  propertyId := s.propertyId
  idempotencyKey := q.key
  command := q.command
  requestChecksum := q.checksum s
  requestTokenHash := q.tokenHash
  leaseExpiresAt := now + 45
  expiresAt := now + 7 * 86400

def leased (now : ℤ) (r : DirectBookingCommandResponse) : DirectBookingCommandResponse :=
  { r with leaseExpiresAt := now + 45 }

theorem keeps_leased (now : ℤ) : Keeps (leased now) := fun _ => rfl

def conflicts (q : Request) (s : Setting) (r : DirectBookingCommandResponse) : Bool :=
  r.command != q.command || r.requestChecksum != q.checksum s || r.requestTokenHash != q.tokenHash

def claim (q : Request) (s : Setting) (o : Desk) : Answer × Desk :=
  match o.records.first? fun r => r.idempotencyKey == q.key with
  | some r =>
    if conflicts q s r then (.error .idempotencyConflict, o)
    else if r.statusCode.isSome && r.responseBody.isSome then
      (if replaySessionIsCurrent o.now o.data r q.tokenHash then .replay r else .error .notFound, o)
    else if o.now < r.leaseExpiresAt then (.error .conflict, o)
    else (.claimed, o.reclaim r (leased o.now) (keeps_leased o.now) q .claimed)
  | none => (.claimed, o.create (opened q s o.now) (fun _ => rfl) q .claimed)

def handle (q : Request) (o : Desk) : Answer × Desk :=
  match q.setting with
  | none => (.abort 404, o)
  | some s => if isUuid q.key then claim q s o else (.error .validation, o)

end Claim

section Completion

def completed (q : Request) (order : DirectBookingOrder) (status : ℕ) (body : String) (now : ℤ)
    (r : DirectBookingCommandResponse) : DirectBookingCommandResponse :=
  { r with
    directBookingOrderId := some order.id
    responseTokenHash := some order.tokenHash
    statusCode := some status
    responseBody := some body
    responseHeaders := some ⟨"no-store, private", q.correlation⟩
    leaseExpiresAt := now }

theorem keeps_completed (q : Request) (order : DirectBookingOrder) (status : ℕ) (body : String)
    (now : ℤ) : Keeps (completed q order status body now) := fun _ => rfl

-- The last statement of a command's transaction, whose other changes are `f`.
def complete (e : Executor DirectBookingCommandResponse Request Phase) (f : Database → Database)
    (orderId status : ℕ) (body : String) (o : Desk) : Except Failure Desk :=
  match o.records.first? fun r => r.idempotencyKey == e.request.retryIdentity with
  | none => .error .modelNotFound
  | some r =>
    if r.statusCode.isSome then
      if r.statusCode = some status ∧ r.responseBody.getD "" = body then .ok (o.perform e f)
      else .error (.logic "The durable direct-booking command result conflicts with its replay.")
    else
      match (f o.data).orders.find? orderId with
      | none => .error .modelNotFound
      | some order => .ok ((o.perform e f).write r.id (completed e.request order status body o.now)
          (keeps_completed e.request order status body o.now))

def answered (r : Response) (now : ℤ) (x : DirectBookingCommandResponse) :
    DirectBookingCommandResponse :=
  { x with
    statusCode := some r.status
    responseBody := some r.content
    responseHeaders := some r.headers
    leaseExpiresAt := now }

theorem keeps_answered (r : Response) (now : ℤ) : Keeps (answered r now) := fun _ => rfl

end Completion

section Steps

-- What happens between the claim of a request and the end of it, one transaction at a time, and
-- what other processes do meanwhile.
inductive Action
  | request (q : Request)
  | run (j : ℕ) (f : Database → Database)
  | complete (j : ℕ) (f : Database → Database) (orderId status : ℕ) (body : String)
  | respond (j : ℕ) (r : Response)
  | throw (j : ℕ)
  | refresh (j : ℕ)
  | save (j : ℕ)
  | cleanup (j : ℕ)
  | crash (j : ℕ)
  | elsewhere (f : Database → Database)
  | wait (seconds : ℕ)
  | maintain (batch : ℕ)

def idle : Failure := .runtime "The request is not at this point."

def refreshed (o : Desk) (e : Executor DirectBookingCommandResponse Request Phase) (r : Response) :
    Phase :=
  match o.records.find? e.record.id with
  | none => .left
  | some x => if x.statusCode.isSome then .left else .unset r

def proceed (o : Desk) (e : Executor DirectBookingCommandResponse Request Phase) :
    Action → Except Failure Desk
  | .run _ f => if e.phase = .claimed then .ok (o.perform e f) else .error idle
  | .complete j f orderId status body =>
    if e.phase = .claimed then
      match complete e f orderId status body o with
      | .ok o' => .ok (o'.enter j (.succeeded ⟨status, body, ⟨"no-store, private", e.request.correlation⟩⟩))
      | .error _ => .ok (o.enter j .failed)
    else .error idle
  | .respond j r =>
    if e.phase = .claimed then .ok (o.enter j (if r.isSuccessful then .succeeded r else .failed))
    else .error idle
  | .throw j => if e.phase = .claimed then .ok (o.enter j .failed) else .error idle
  | .refresh j =>
    match e.phase with
    | .succeeded r => .ok (o.enter j (refreshed o e r))
    | _ => .error idle
  | .save j =>
    match e.phase with
    | .unset r => .ok ((o.write e.record.id (answered r o.now) (keeps_answered r o.now)).enter j .left)
    | _ => .error idle
  | .cleanup j =>
    if e.phase = .failed then .ok ((o.drop fun x => x.id == e.record.id).enter j .left)
    else .error idle
  | .crash j => .ok (o.enter j .left)
  | _ => .error idle

def expired (o : Desk) (batch : ℕ) : List ℕ :=
  ((o.records.select fun r => decide (r.expiresAt ≤ o.now)).take (max 1 batch)).map
    DirectBookingCommandResponse.id

def Action.actor : Action → Option ℕ
  | run j _ | complete j _ _ _ _ | respond j _ | throw j | refresh j | save j | cleanup j
  | crash j => some j
  | _ => none

def step (o : Desk) (a : Action) : Except Failure Desk :=
  match a.actor with
  | some j =>
    match o.executors.find? j with
    | some e => proceed o e a
    | none => .error idle
  | none =>
    match a with
    | .request q => .ok (handle q o).2
    | .elsewhere f => .ok { o with data := f o.data }
    | .wait seconds => .ok { o with now := o.now + seconds }
    | .maintain batch => .ok (o.drop fun r => decide (r.id ∈ expired o batch))
    | _ => .error idle

def act (a : Action) : Transaction Failure Desk Unit := fun o =>
  match step o a with
  | .ok o' => .ok ((), o')
  | .error e => .error e

-- The steps that run the command or change the record.
def Action.effect : Action → Option ℕ
  | run j _ | complete j _ _ _ _ | save j | cleanup j => some j
  | _ => none

-- No other request has claimed the key since the one that takes the step did.
def Action.Fenced (a : Action) (o : Desk) : Prop :=
  ∀ j, a.effect = some j → ∀ e, o.executors.find? j = some e → e.superseded = false

end Steps

section Lemmas
variable {o o' : Desk} {q : Request} {s : Setting} {j : ℕ} {a : Action}
variable {e : Executor DirectBookingCommandResponse Request Phase}
variable {x : DirectBookingCommandResponse}

def Phase.settled : Phase → Prop
  | succeeded _ | left => True
  | _ => False

theorem mem_of_isUuid {s : String} (h : isUuid s = true) {c : Char} (hc : c ∈ s.toList) :
    c = '-' ∨ hexDigit c = true := by
  simp only [isUuid, Bool.and_eq_true, List.all_eq_true] at h
  obtain ⟨n, hn, rfl⟩ := List.getElem_of_mem hc
  have hp := h.2 (s.toList[n], n) (List.mem_zipIdx_iff_getElem?.mpr (List.getElem?_eq_getElem hn))
  split_ifs at hp
  · exact Or.inl (by simpa using hp)
  · exact Or.inr hp

theorem blank_toLower {c : Char} (h : blank c = true) :
    c.toLower ≠ '-' ∧ hexDigit c.toLower = false := by
  simp only [blank, Bool.or_eq_true, beq_iff_eq] at h
  have hnul : c.toNat = 0 → c = '\x00' := fun h => Char.toNat_inj.mp h
  have hvt : c.toNat = 11 → c = '\x0b' := fun h => Char.toNat_inj.mp h
  rcases h with ((((rfl | rfl) | rfl) | rfl) | h) | h
  · decide
  · decide
  · decide
  · decide
  · rw [hnul h]
    decide
  · rw [hvt h]
    decide

theorem trim_of_isUuid {s : String} (h : isUuid (lower s) = true) : trim s = s := by
  have hno : ∀ c ∈ s.toList, blank c = false := by
    intro c hc
    by_contra hb
    obtain ⟨hdash, hhex⟩ := blank_toLower (Bool.not_eq_false _ ▸ hb)
    have hmem : c.toLower ∈ (lower s).toList := by
      simpa [lower] using ⟨c, hc, rfl⟩
    rcases mem_of_isUuid h hmem with hd | hd
    · exact hdash hd
    · rw [hhex] at hd
      cases hd
  have hdrop : ∀ l : List Char, (∀ c ∈ l, blank c = false) → l.dropWhile blank = l := by
    intro l hl
    cases l with
    | nil => rfl
    | cons c cs => simp [hl c List.mem_cons_self]
  rw [trim, hdrop _ hno, hdrop _ fun c hc => hno c (List.mem_reverse.mp hc)]
  simp

-- The controller does not trim the header, but a key that stands in a record has no blanks.
theorem retryIdentity_eq_key (h : isUuid q.retryIdentity = true) : q.retryIdentity = q.key := by
  rw [Request.key, trim_of_isUuid h, Request.retryIdentity]

end Lemmas

section Preservation
variable {o o' : Desk} {q : Request} {s : Setting} {j : ℕ} {a : Action}
variable {e : Executor DirectBookingCommandResponse Request Phase}
variable {x : DirectBookingCommandResponse}

structure Sound (o : Desk) : Prop extends Office.Guarded Phase.settled o where
  uuids : ∀ x ∈ o.records.rows, isUuid x.idempotencyKey = true
  requests : ∀ e ∈ o.executors.rows, e.record.idempotencyKey = e.request.key

-- What a step leaves of the completed records.
structure Proceeds (o o' : Desk) : Prop extends Sound o' where
  later : o.now ≤ o'.now
  kept : ∀ x ∈ o.records.rows, Lasting.completed x = true → o'.now < x.expiresAt → Office.Kept x o o'

-- The keys of the records and of the requests are what they were.
theorem proceeds_of (hs : Sound o) (h : Office.Advances Phase.settled o o')
    (hu : ∀ x ∈ o'.records.rows, x ∈ o.records.rows ∨ isUuid x.idempotencyKey = true)
    (hr : ∀ e ∈ o'.executors.rows, (∃ e' ∈ o.executors.rows, e'.record = e.record ∧
      e'.request = e.request) ∨ e.record.idempotencyKey = e.request.key)
    (hnow : o'.now = o.now) : Proceeds o o' where
  toGuarded := h.guarded
  uuids x hx := (hu x hx).elim (hs.uuids x) id
  requests e he := by
    rcases hr e he with ⟨e', he', hrec, hreq⟩ | hkey
    · exact hrec ▸ hreq ▸ hs.requests e' he'
    · exact hkey
  later := hnow.ge
  kept x hx hc _ := h.kept x hx hc

theorem requests_enter {p : Phase} (e : Executor DirectBookingCommandResponse Request Phase)
    (he : e ∈ (o.enter j p).executors.rows) :
    ∃ e' ∈ o.executors.rows, e'.record = e.record ∧ e'.request = e.request := by
  rcases (Table.mem_update).mp he with ⟨he, _⟩ | ⟨e', he', _, rfl⟩
  · exact ⟨e, he, rfl, rfl⟩
  · exact ⟨e', he', rfl, rfl⟩

theorem requests_enrol (e : Executor DirectBookingCommandResponse Request Phase)
    (he : e ∈ (o.enrol x q .claimed).executors.rows) (hk : x.idempotencyKey = q.key) :
    (∃ e' ∈ o.executors.rows, e'.record = e.record ∧ e'.request = e.request) ∨
      e.record.idempotencyKey = e.request.key := by
  rcases Office.mem_enrol.mp he with ⟨he, _⟩ | ⟨e', he', _, rfl⟩ | rfl
  · exact Or.inl ⟨e, he, rfl, rfl⟩
  · exact Or.inl ⟨e', he', rfl, rfl⟩
  · exact Or.inr hk

theorem proceeds_claim (hs : Sound o) (hq : isUuid q.key = true) : Proceeds o (claim q s o).2 := by
  cases hr : o.records.first? (fun r => r.idempotencyKey == q.key) with
  | none =>
    have hfresh : ∀ x ∈ o.records.rows, x.idempotencyKey ≠ q.key := fun x hx hk => by
      have hno := Table.first?_eq_none.mp hr x hx
      simp [hk] at hno
    simp only [claim, hr]
    refine proceeds_of hs (Office.advances_create hs.toGuarded _ hfresh rfl) (fun x hx => ?_)
      (fun e he => requests_enrol e he rfl) rfl
    rcases (Table.mem_insert fun _ => rfl).mp hx with hx | rfl
    · exact Or.inl hx
    · exact Or.inr hq
  | some r =>
    obtain ⟨hmem, hkey⟩ := Table.first?_some hr
    have hsame : Proceeds o o := ⟨hs, le_rfl, fun x hx _ _ => Office.kept_refl hx⟩
    simp only [claim, hr]
    split_ifs with _ hdone
    · exact hsame
    · exact hsame
    · exact hsame
    · exact hsame
    · have hopen : Lasting.completed r = false := Bool.not_eq_true _ ▸ hdone
      refine proceeds_of hs (Office.advances_reclaim hs.toGuarded hmem (keeps_leased _)
        (fun _ => rfl) hopen hopen) (fun x hx => ?_)
        (fun e he => requests_enrol e he (beq_iff_eq.mp hkey)) rfl
      rcases (Table.mem_update (keeps_leased _)).mp hx with ⟨hx, _⟩ | ⟨y, hy, _, rfl⟩
      · exact Or.inl hx
      · exact Or.inr (hs.uuids y hy)

theorem proceeds_handle (hs : Sound o) : Proceeds o (handle q o).2 := by
  have hsame : Proceeds o o := ⟨hs, le_rfl, fun x hx _ _ => Office.kept_refl hx⟩
  unfold handle
  split
  · exact hsame
  · split_ifs with hq
    · exact proceeds_claim hs hq
    · exact hsame

theorem proceeds_enter {p : Phase} (hs : Sound o)
    (h : Office.Advances Phase.settled o (o.enter j p)) : Proceeds o (o.enter j p) :=
  proceeds_of hs h (fun _ hx => Or.inl hx) (fun e he => Or.inl (requests_enter e he)) rfl

theorem proceeds_write {f : DirectBookingCommandResponse → DirectBookingCommandResponse} {i : ℕ}
    {p : Phase} (hs : Sound o) (hf : Keeps f) (hkey : ∀ x, (f x).idempotencyKey = x.idempotencyKey)
    (h : Office.Advances Phase.settled o ((o.write i f hf).enter j p)) :
    Proceeds o ((o.write i f hf).enter j p) := by
  refine proceeds_of hs h (fun x hx => ?_) (fun e he => Or.inl (requests_enter e he)) rfl
  rcases (Table.mem_update hf).mp hx with ⟨hx, _⟩ | ⟨y, hy, _, rfl⟩
  · exact Or.inl hx
  · exact Or.inr ((hkey y).symm ▸ hs.uuids y hy)

theorem Proceeds.trans {u : Desk} (h : Proceeds o u) (h' : Proceeds u o') (hnow : u.now = o'.now) :
    Proceeds o o' where
  toSound := h'.toSound
  later := h.later.trans h'.later
  kept x hx hc hlive := by
    have hk := h.kept x hx hc (hnow ▸ hlive)
    exact hk.trans (h'.kept x hk.stands hc hlive)

theorem proceeds_perform (hs : Sound o) (he : e ∈ o.executors.rows) (hsup : e.superseded = false)
    (hopen : ¬ e.phase.settled) (f : Database → Database) : Proceeds o (o.perform e f) :=
  proceeds_of hs (Office.advances_perform hs.toGuarded he hsup hopen f) (fun _ hx => Or.inl hx)
    (fun e he => Or.inl ⟨e, he, rfl, rfl⟩) rfl

theorem proceeds_complete {f : Database → Database} {orderId status : ℕ} {body : String} {u : Desk}
    {p : Phase} (hs : Sound o) (he : e ∈ o.executors.rows) (hsup : e.superseded = false)
    (hopen : ¬ e.phase.settled) (hp : p.settled) (h : complete e f orderId status body o = .ok u) :
    Proceeds o (u.enter e.id p) := by
  have hrun : Proceeds o (o.perform e f) := proceeds_perform hs he hsup hopen f
  unfold complete at h
  split at h
  · cases h
  next r hr =>
    obtain ⟨hmem, hkey⟩ := Table.first?_some hr
    split_ifs at h
    · obtain rfl := Except.ok.inj h
      exact hrun.trans (proceeds_enter hrun.toSound (Office.advances_leave hrun.toGuarded hp)) rfl
    · split at h
      · cases h
      next order _ =>
        obtain rfl := Except.ok.inj h
        have hown : ∀ x ∈ o.records.rows, x.id = r.id →
            x.idempotencyKey = e.record.idempotencyKey := by
          intro x hx hid
          obtain rfl : x = r := Table.eq_of_id hx hmem hid
          have hretry : x.idempotencyKey = e.request.retryIdentity := beq_iff_eq.mp hkey
          rw [hretry, retryIdentity_eq_key (hretry ▸ hs.uuids x hx)]
          exact (hs.requests e he).symm
        exact hrun.trans (proceeds_write hrun.toSound (keeps_completed _ _ _ _ _) (fun _ => rfl)
          (Office.advances_write hrun.toGuarded _ (fun _ => rfl) he hsup hopen hown hp)) rfl

theorem proceeds_cleanup (hs : Sound o) (he : e ∈ o.executors.rows) (hsup : e.superseded = false)
    (hopen : ¬ e.phase.settled) :
    Proceeds o ((o.drop fun x => x.id == e.record.id).enter e.id .left) := by
  have hleft : Phase.settled .left := trivial
  exact proceeds_of hs (Office.advances_drop hs.toGuarded he hsup hopen hleft)
    (fun _ hx => Or.inl (Table.mem_deleteWhere.mp hx).1)
    (fun e he => Or.inl (requests_enter e he)) rfl

-- An executor that finds no status in its record has no completed record.
theorem proceeds_refresh (hs : Sound o) (he : e ∈ o.executors.rows) (r : Response) :
    Proceeds o (o.enter e.id (refreshed o e r)) := by
  refine proceeds_enter hs (Office.advances_enter hs.toGuarded fun hn e' he' hi hsup x hx hk => ?_)
  obtain rfl : e' = e := Table.eq_of_id he' he hi
  unfold refreshed at hn
  split at hn
  · exact absurd trivial hn
  next y hy =>
    obtain ⟨hmem, hid⟩ := Table.find?_eq_some.mp hy
    obtain rfl : y = x := hs.keys y hmem x hx ((hs.owned e' he' y hmem hid).trans hk)
    split_ifs at hn with hset
    · exact absurd trivial hn
    · simp [Lasting.completed, Bool.not_eq_true _ ▸ hset]

theorem proceeds_executor (hs : Sound o) (hj : o.executors.find? j = some e) (ha : a.actor = some j)
    (hf : a.Fenced o) (h : proceed o e a = .ok o') : Proceeds o o' := by
  obtain ⟨he, hid⟩ := Table.find?_eq_some.mp hj
  change e.id = j at hid
  cases a with
  | run i f =>
    obtain rfl : i = j := Option.some.inj ha
    simp only [proceed] at h
    split_ifs at h with hp
    obtain rfl := Except.ok.inj h
    exact proceeds_perform hs he (hf i rfl e hj) (by simp [hp, Phase.settled]) f
  | complete i f orderId status body =>
    obtain rfl : i = j := Option.some.inj ha
    simp only [proceed] at h
    split_ifs at h with hp
    have hopen : ¬ e.phase.settled := by simp [hp, Phase.settled]
    subst hid
    split at h
    next u hu =>
      obtain rfl := Except.ok.inj h
      exact proceeds_complete hs he (hf _ rfl e hj) hopen trivial hu
    · obtain rfl := Except.ok.inj h
      exact proceeds_enter hs (Office.advances_go_on hs.toGuarded he rfl hopen)
  | respond i r =>
    obtain rfl : i = j := Option.some.inj ha
    simp only [proceed] at h
    split_ifs at h with hp hr
    all_goals
      obtain rfl := Except.ok.inj h
      exact proceeds_enter hs (Office.advances_go_on hs.toGuarded he hid (by simp [hp, Phase.settled]))
  | throw i =>
    obtain rfl : i = j := Option.some.inj ha
    simp only [proceed] at h
    split_ifs at h with hp
    obtain rfl := Except.ok.inj h
    exact proceeds_enter hs (Office.advances_go_on hs.toGuarded he hid (by simp [hp, Phase.settled]))
  | refresh i =>
    obtain rfl : i = j := Option.some.inj ha
    simp only [proceed] at h
    split at h
    next r _ =>
      obtain rfl := Except.ok.inj h
      subst hid
      exact proceeds_refresh hs he r
    · cases h
  | save i =>
    obtain rfl : i = j := Option.some.inj ha
    simp only [proceed] at h
    split at h
    next r hp =>
      obtain rfl := Except.ok.inj h
      subst hid
      have hleft : Phase.settled .left := trivial
      exact proceeds_write hs (keeps_answered r o.now) (fun _ => rfl)
        (Office.advances_write hs.toGuarded _ (fun _ => rfl) he (hf _ rfl e hj)
          (by simp [hp, Phase.settled]) (hs.owned e he) hleft)
    · cases h
  | cleanup i =>
    obtain rfl : i = j := Option.some.inj ha
    simp only [proceed] at h
    split_ifs at h with hp
    obtain rfl := Except.ok.inj h
    subst hid
    exact proceeds_cleanup hs he (hf _ rfl e hj) (by simp [hp, Phase.settled])
  | crash i =>
    obtain rfl := Except.ok.inj h
    have hleft : Phase.settled .left := trivial
    exact proceeds_enter hs (Office.advances_leave hs.toGuarded hleft)
  | request q => cases ha
  | elsewhere f => cases ha
  | wait seconds => cases ha
  | maintain batch => cases ha

theorem proceeds_step (hs : Sound o) (hf : a.Fenced o) (h : step o a = .ok o') : Proceeds o o' := by
  unfold step at h
  split at h
  next j ha =>
    split at h
    next e hj => exact proceeds_executor hs hj ha hf h
    · cases h
  next ha =>
    cases a with
    | request q =>
      obtain rfl := Except.ok.inj h
      exact proceeds_handle hs
    | elsewhere f =>
      obtain rfl := Except.ok.inj h
      exact ⟨⟨⟨hs.keys, hs.known, hs.owned, hs.single, hs.rested⟩, hs.uuids, hs.requests⟩, le_rfl,
        fun x hx _ _ => ⟨hx, rfl⟩⟩
    | wait seconds =>
      obtain rfl := Except.ok.inj h
      exact ⟨⟨⟨hs.keys, hs.known, hs.owned, hs.single, hs.rested⟩, hs.uuids, hs.requests⟩,
        by simp, fun x hx _ _ => ⟨hx, rfl⟩⟩
    | maintain batch =>
      obtain rfl := Except.ok.inj h
      refine ⟨⟨hs.toGuarded.drop _, fun x hx => hs.uuids x (Table.mem_deleteWhere.mp hx).1,
        hs.requests⟩, le_rfl, fun x hx _ hlive => Office.kept_drop hx ?_⟩
      refine decide_eq_false fun hmem => ?_
      obtain ⟨y, hy, hid⟩ := List.mem_map.mp hmem
      obtain ⟨hy, hpast⟩ := Table.mem_select.mp (List.mem_of_mem_take hy)
      obtain rfl : y = x := Table.eq_of_id hy hx hid
      exact absurd (of_decide_eq_true hpast) (not_le.mpr hlive)
    | _ => cases ha

theorem commits_act {u : Unit} : Commits (act a) o u o' ↔ step o a = .ok o' := by
  simp only [Commits, act, StateT.run]
  cases step o a <;> simp

theorem sound_start {now : ℤ} {db : Database} : Sound { now := now, data := db } :=
  ⟨Office.guarded_start, fun _ hx => absurd hx List.not_mem_nil,
    fun _ he => absurd he List.not_mem_nil⟩

theorem sound_run (hs : Sound o) (h : Reaches act Action.Fenced o o') : Sound o' :=
  h.invariant hs fun _ _ _ hs hf hc => (proceeds_step hs hf (commits_act.mp hc)).toSound

theorem kept_run (hs : Sound o) (hx : x ∈ o.records.rows) (hc : Lasting.completed x = true)
    (h : Reaches act Action.Fenced o o') : o'.now < x.expiresAt → Office.Kept x o o' := by
  refine (h.invariant (I := fun u => Sound u ∧ (u.now < x.expiresAt → Office.Kept x o u))
    ⟨hs, fun _ => Office.kept_refl hx⟩ fun a u v ⟨hu, hkept⟩ hf hcm => ?_).2
  have hp := proceeds_step hu hf (commits_act.mp hcm)
  refine ⟨hp.toSound, fun hlive => ?_⟩
  have hk := hkept (hp.later.trans_lt hlive)
  exact hk.trans (hp.kept x hk.stands hc hlive)

end Preservation
end EnsureDirectBookingIdempotency
