import LodgeOps.Store.Table
import LodgeOps.Store.Transaction

abbrev Bytes := List UInt8

-- An exception by its class's base name and its message.
structure DocumentException where
  className : String
  message : String
deriving DecidableEq

-- `pdfinfo`, the hash, and how long the middleware's lock is kept.
structure DocumentPlatform where
  parses : Bytes → Bool
  sha256 : Bytes → String
  overlapExpireAfter : ℕ

namespace DocumentArtifactStore
open Transaction

def utf8 (text : String) : Bytes := text.toList.map fun c => c.toNat.toUInt8

def validatePdf (bytes : Bytes) : Except DocumentException Unit :=
  refuse
    (bytes.length < 100 ∨ (utf8 "%PDF-").isPrefixOf bytes = false ∨
      ¬ utf8 "%%EOF" <:+: bytes.drop (bytes.length - 1024))
    ⟨"DomainException", "Renderer returned invalid PDF bytes."⟩

def validatePdfParser (p : DocumentPlatform) (bytes : Bytes) : Except DocumentException Unit :=
  refuse (p.parses bytes = false)
    ⟨"DomainException", "Renderer returned a PDF that could not be parsed."⟩

end DocumentArtifactStore

namespace GenerateDocument
open Transaction DocumentArtifactStore

section Schema

inductive DocumentGenerationStatus
  | pending | processing | generated | failed
deriving DecidableEq

inductive DocumentKind
  | reservationConfirmation | itinerary | folioStatement | paymentReceipt | refundReceipt
  | waiverCopy
deriving DecidableEq

structure DocumentGenerationRequest where
  id : ℕ
  tenantId : ℕ
  kind : DocumentKind
  sourceChecksum : String
  status : DocumentGenerationStatus := .pending
  attempts : ℕ := 0
  startedAt : Option ℤ := none
  completedAt : Option ℤ := none
  failedAt : Option ℤ := none
  lastError : Option String := none

-- `tenants/{tenantId}/documents/{requestId}.pdf`: one object for all executions of a request.
structure DocumentPath where
  tenantId : ℕ
  requestId : ℕ
deriving DecidableEq

structure Stored where
  path : DocumentPath
  checksum : String
  sizeBytes : ℕ
deriving DecidableEq

structure GeneratedDocument where
  id : ℕ
  requestId : ℕ
  kind : DocumentKind
  stored : Stored
  sourceChecksum : String
  generatedAt : ℤ

-- What an execution does next, with what it holds in memory until then.
inductive Stage
  | opening
  | rendering
  | writing (bytes : Bytes) (temporary : ℕ)
  | promoting (bytes : Bytes) (temporary : ℕ)
  | verifying (bytes : Bytes) (temporary : ℕ)
  | recording (stored : Stored)
  | sweeping (temporary : ℕ) (e : DocumentException)
  | erasing (e : DocumentException)
  | discarding (stored : Stored) (e : DocumentException)
  | failing (e : DocumentException)

structure Execution where
  id : ℕ
  requestId : ℕ
  tenantId : ℕ
  stage : Stage

def Execution.path (x : Execution) : DocumentPath := ⟨x.tenantId, x.requestId⟩

structure Overlap where
  requestId : ℕ
  owner : ℕ
  expiresAt : ℤ

instance : Keyed DocumentGenerationRequest := ⟨DocumentGenerationRequest.id⟩
instance : Keyed GeneratedDocument := ⟨GeneratedDocument.id⟩
instance : Keyed Execution := ⟨Execution.id⟩

-- The disk keeps temporary objects apart, each under a uuid of its own.
structure DocumentStore where
  clock : ℤ := 0
  uuid : ℕ := 0
  temporaries : ℕ → Option Bytes := fun _ => none
  objects : DocumentPath → Option Bytes := fun _ => none
  requests : Table DocumentGenerationRequest := .empty
  documents : Table GeneratedDocument := .empty
  executions : Table Execution := .empty
  overlaps : List Overlap := []

abbrev DocumentTx (α : Type) := Transaction DocumentException DocumentStore α

end Schema

section Handle
variable (p : DocumentPlatform)

def modelNotFound : DocumentException :=
  ⟨"ModelNotFoundException", "No query results for model [App\\Models\\DocumentGenerationRequest]."⟩

def atStage (stage : Stage) (x : Execution) : Execution := { x with stage := stage }

theorem keeps_atStage (stage : Stage) : Keeps (atStage stage) := fun _ => rfl

def advance (i : ℕ) (stage : Stage) : DocumentTx Unit := modify fun s => { s with
  executions := s.executions.update i (atStage stage) (keeps_atStage _) }

-- The lock goes only if it is still this execution's own.
def release (i : ℕ) : DocumentTx Unit := modify fun s => { s with
  executions := s.executions.deleteWhere fun x => x.id == i
  overlaps := s.overlaps.filter fun o => o.owner != i }

def put (path : DocumentPath) (bytes : Option Bytes) : DocumentTx Unit := modify fun s => { s with
  objects := Function.update s.objects path bytes }

def putTemporary (uuid : ℕ) (bytes : Option Bytes) : DocumentTx Unit := modify fun s => { s with
  temporaries := Function.update s.temporaries uuid bytes }

def processing (now : ℤ) (r : DocumentGenerationRequest) : DocumentGenerationRequest :=
  { r with
    status := .processing
    attempts := r.attempts + 1
    startedAt := some now
    failedAt := none
    lastError := none }

theorem keeps_processing (now : ℤ) : Keeps (processing now) := fun _ => rfl

def openRequest (x : Execution) : DocumentTx Unit := do
  let s ← get
  let request ← orFail (s.requests.find? x.requestId) modelNotFound
  if request.status = .generated then release x.id
  else do
    set { s with
      requests := s.requests.update x.requestId (processing s.clock) (keeps_processing _) }
    advance x.id .rendering

def drawUuid : DocumentTx ℕ := do
  let s ← get
  set { s with uuid := s.uuid + 1 }
  pure s.uuid

def render (x : Execution) (bytes : Bytes) : DocumentTx Unit := do
  check fun _ => validatePdf bytes
  check fun _ => validatePdfParser p bytes
  let temporary ← drawUuid
  advance x.id (.writing bytes temporary)

def promote (x : Execution) (bytes : Bytes) (temporary : ℕ) : DocumentTx Unit := do
  let s ← get
  let moved ← orFail (s.temporaries temporary) ⟨"UnableToMoveFile", "Unable to move file."⟩
  put x.path (some moved)
  putTemporary temporary none
  advance x.id (.verifying bytes temporary)

def verify (x : Execution) (bytes : Bytes) : DocumentTx Unit := do
  let s ← get
  let stored ← orFail (s.objects x.path) ⟨"UnableToReadFile", "Unable to read file."⟩
  check fun _ => validatePdf stored
  reject (p.sha256 bytes ≠ p.sha256 stored)
    ⟨"DomainException", "Stored PDF integrity verification failed."⟩
  advance x.id (.recording ⟨x.path, p.sha256 bytes, bytes.length⟩)

def document (r : DocumentGenerationRequest) (stored : Stored) (now : ℤ) (i : ℕ) :
    GeneratedDocument where
  id := i
  requestId := r.id
  kind := r.kind
  stored := stored
  sourceChecksum := r.sourceChecksum
  generatedAt := now

theorem names_document (r : DocumentGenerationRequest) (stored : Stored) (now : ℤ) :
    Names (document r stored now) := fun _ => rfl

-- Only the execution that creates the row clears the last error.
def generated (clears : Bool) (now : ℤ) (r : DocumentGenerationRequest) :
    DocumentGenerationRequest :=
  { r with
    status := .generated
    completedAt := some now
    lastError := if clears then none else r.lastError }

theorem keeps_generated (clears : Bool) (now : ℤ) : Keeps (generated clears now) := fun _ => rfl

def hasDocument (s : DocumentStore) (requestId : ℕ) : Bool :=
  s.documents.rows.any fun d => d.requestId == requestId

def complete (i : ℕ) (clears : Bool) : DocumentTx Unit := modify fun s => { s with
  requests := s.requests.update i (generated clears s.clock) (keeps_generated _ _) }

def record (x : Execution) (stored : Stored) : DocumentTx Unit := do
  let s ← get
  let locked ← orFail (s.requests.find? x.requestId) modelNotFound
  if hasDocument s locked.id = true then complete locked.id false
  else do
    set { s with
      documents := s.documents.insert (document locked stored s.clock) (names_document _ _ _) }
    complete locked.id true
  release x.id

-- `Str::limit` puts its dots behind the thousand characters.
def lastError (e : DocumentException) : String :=
  let text := e.className ++ ": " ++ e.message
  if text.length ≤ 1000 then text
  else String.ofList ((text.toList.take 1000).reverse.dropWhile Char.isWhitespace).reverse ++ "..."

def failed (lastError : String) (now : ℤ) (r : DocumentGenerationRequest) :
    DocumentGenerationRequest :=
  { r with
    status := .failed
    failedAt := some now
    lastError := some lastError }

theorem keeps_failed (lastError : String) (now : ℤ) : Keeps (failed lastError now) := fun _ => rfl

-- The column holds a thousand characters.
def fits (lastError : String) : Bool := lastError.length ≤ 1000

def updateFailed (requestId : ℕ) (lastError : String) : DocumentTx Unit := do
  let s ← get
  reject (fits lastError = false) ⟨"QueryException", "SQLSTATE[22001]: String data, right truncated"⟩
  set { s with
    requests := s.requests.update requestId (failed lastError s.clock) (keeps_failed _ _) }

-- One call out of the process and what follows it; only the renderer's bytes are read.
def work (x : Execution) (bytes : Bytes) : DocumentTx Unit :=
  match x.stage with
  | .opening => openRequest x
  | .rendering => render p x bytes
  | .writing rendered temporary => do
    putTemporary temporary (some rendered)
    advance x.id (.promoting rendered temporary)
  | .promoting rendered temporary => promote x rendered temporary
  | .verifying rendered _ => verify p x rendered
  | .recording stored => record x stored
  | .sweeping temporary e => do
    putTemporary temporary none
    advance x.id (.erasing e)
  | .erasing e => do
    put x.path none
    advance x.id (.failing e)
  | .discarding stored e => do
    put stored.path none
    advance x.id (.failing e)
  | .failing e => do
    updateFailed x.requestId (lastError e)
    release x.id

-- Where an exception of that call goes: `put` cleans up after itself, `handle` after `put`.
def caught (x : Execution) (e : DocumentException) : DocumentTx Unit :=
  match x.stage with
  | .opening | .rendering => advance x.id (.failing e)
  | .writing _ temporary | .promoting _ temporary | .verifying _ temporary =>
    advance x.id (.sweeping temporary e)
  | .recording stored => advance x.id (.discarding stored e)
  | .sweeping _ _ | .erasing _ => advance x.id (.failing e)
  | .discarding _ _ | .failing _ => release x.id

def settle (x : Execution) : Except DocumentException Unit → DocumentTx Unit
  | .ok _ => pure ()
  | .error e => caught x e

abbrev Reply := Except DocumentException Bytes

def answered (x : Execution) (reply : Reply) : DocumentTx Unit := do
  let bytes ← check fun _ => reply
  work p x bytes

def lost : DocumentException := ⟨"LogicException", "No such execution."⟩

def step (i : ℕ) (reply : Reply) : DocumentTx Unit := do
  let s ← get
  let x ← orFail (s.executions.find? i) lost
  let r ← attempt (answered p x reply)
  settle x r

end Handle

section Jobs
variable (p : DocumentPlatform)

def execution (r : DocumentGenerationRequest) (i : ℕ) : Execution where
  id := i
  requestId := r.id
  tenantId := r.tenantId
  stage := .opening

theorem names_execution (r : DocumentGenerationRequest) : Names (execution r) := fun _ => rfl

def Overlap.live (now : ℤ) (requestId : ℕ) (o : Overlap) : Bool :=
  o.requestId == requestId && decide (now < o.expiresAt)

-- A job that finds the lock taken goes back to the queue.
def start (requestId : ℕ) : DocumentTx Unit := do
  let s ← get
  reject (s.overlaps.any (Overlap.live s.clock requestId) = true) lost
  let request ← orFail (s.requests.find? requestId) modelNotFound
  set { s with
    executions := s.executions.insert (execution request) (names_execution _)
    overlaps := ⟨requestId, s.executions.next, s.clock + p.overlapExpireAfter⟩ ::
      s.overlaps.filter fun o => o.requestId != requestId }

-- The queue calls `failed` when it gives a job up, whatever became of its executions.
def exhausted : Option DocumentException → String
  | none => "Document job exhausted retries."
  | some e => lastError e

def retried (r : DocumentGenerationRequest) : DocumentGenerationRequest :=
  { r with
    status := .pending
    failedAt := none
    lastError := none }

theorem keeps_retried : Keeps retried := fun _ => rfl

-- The status that is checked is the one of the caller's copy.
def retry (requestId : ℕ) (loaded : DocumentGenerationStatus) : DocumentTx Unit := do
  reject (loaded ≠ .failed) ⟨"DomainException", "Only failed document requests can be retried."⟩
  modify fun s => { s with requests := s.requests.update requestId retried keeps_retried }

-- A worker that is killed leaves its lock to expire.
def crash (i : ℕ) : DocumentTx Unit := modify fun s => { s with
  executions := s.executions.deleteWhere fun x => x.id == i }

inductive Operation
  | start (requestId : ℕ)
  | step (i : ℕ) (reply : Reply)
  | crash (i : ℕ)
  | failed (requestId : ℕ) (e : Option DocumentException)
  | retry (requestId : ℕ) (loaded : DocumentGenerationStatus)
  | wait (seconds : ℕ)

def Operation.run : Operation → DocumentTx Unit
  | start requestId => GenerateDocument.start p requestId
  | step i reply => GenerateDocument.step p i reply
  | crash i => GenerateDocument.crash i
  | failed requestId e => updateFailed requestId (exhausted e)
  | retry requestId loaded => GenerateDocument.retry requestId loaded
  | wait seconds => modify fun s => { s with clock := s.clock + seconds }

end Jobs
end GenerateDocument
