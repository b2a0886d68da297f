import LodgeOps.Commands.CanonicalJson
import LodgeOps.Schema.Integrations
import LodgeOps.Store.Frames

open CanonicalJson (Value)

namespace IntegrationMappingService
open Schema Transaction

section Schema

inductive ConflictState
  | clear | drift
deriving DecidableEq

structure MappingFields where
  capability : IntegrationCapability
  direction : Direction
  localEntityType : String
  localKey : String
  externalEntityType : String
  externalKey : String
  safeFacts : Value

structure IntegrationMapping where
  id : ℕ
  connectionId : ℕ
  propertyId : Option ℕ
  fields : MappingFields
  transformVersion : ℤ
  conflictState : ConflictState
  validFrom : ℤ
  validUntil : Option ℤ := none

structure MappingDrift where
  id : ℕ
  connectionId : ℕ
  propertyId : Option ℕ
  externalKey : String
  localKey : String
  previousMappingId : ℕ
  candidateLocalKey : String

-- A call of the service: the connection as its caller has it, and the scope of the membership.
structure VersionCall where
  connection : IntegrationConnection
  propertyScopeId : Option ℕ
  propertyId : Option ℕ
  fields : MappingFields
  transformVersion : ℤ

-- A transaction reads its candidates in one snapshot and then locks them one by one.
inductive Stage
  | reading (candidates : List ℕ)
  | holding (previous : Option ℕ)
deriving DecidableEq

def Stage.ready : Stage → Bool
  | reading _ => false
  | holding _ => true

structure InFlight where
  id : ℕ
  call : VersionCall
  stage : Stage

instance : Keyed IntegrationMapping := ⟨IntegrationMapping.id⟩
instance : Keyed MappingDrift := ⟨MappingDrift.id⟩
instance : Keyed InFlight := ⟨InFlight.id⟩

structure MappingStore where
  clock : ℤ := 0
  connections : Table IntegrationConnection := .empty
  mappings : Table IntegrationMapping := .empty
  drifts : Table MappingDrift := .empty
  flights : Table InFlight := .empty

abbrev MappingTx (α : Type) := Transaction Failure MappingStore α

end Schema

section Identity

structure ExternalIdentity where
  connectionId : ℕ
  propertyScopeKey : Option ℕ
  direction : Direction
  externalEntityType : String
  externalKey : String
deriving DecidableEq

def IntegrationMapping.identity (m : IntegrationMapping) : ExternalIdentity where
  connectionId := m.connectionId
  propertyScopeKey := m.propertyId
  direction := m.fields.direction
  externalEntityType := m.fields.externalEntityType
  externalKey := m.fields.externalKey

def VersionCall.identity (c : VersionCall) : ExternalIdentity where
  connectionId := c.connection.id
  propertyScopeKey := c.propertyId
  direction := c.fields.direction
  externalEntityType := c.fields.externalEntityType
  externalKey := c.fields.externalKey

def current (x : ExternalIdentity) (m : IntegrationMapping) : Bool :=
  m.identity == x && m.validUntil.isNone

def capabilityDirections : IntegrationCapability → Direction
  | .paymentHostedCheckout => .outbound
  | .reservationsImport => .inbound
  | .accountingJournalExport => .outbound
  | .webhookInbound => .inbound
  | .webhookOutbound => .outbound

def granted (connection : IntegrationConnection) (f : MappingFields) : Bool :=
  connection.capabilities.contains f.capability && capabilityDirections f.capability == f.direction

def inScope (connection : IntegrationConnection) (propertyId : Option ℕ) : Bool :=
  connection.propertyId.isNone || propertyId == connection.propertyId

end Identity

section Version
variable (vet : MappingFields → Except Failure Unit)

def admitted (c : VersionCall) : Except Failure Unit := do
  vet c.fields
  refuse (granted c.connection c.fields = false)
    (.domain "The mapping capability or direction is not granted by this connection.")
  refuse (inScope c.connection c.propertyId = false)
    (.domain "The mapping property must match its connection scope.")
  refuse (c.propertyId.any (fun p => c.propertyScopeId.any (· != p)) = true)
    (.domain "The mapping property is outside your workspace.")

-- The newest first.
def candidates (s : MappingStore) (x : ExternalIdentity) : List ℕ :=
  ((s.mappings.select (current x)).insertionSort fun m n => n.validFrom ≤ m.validFrom).map
    IntegrationMapping.id

def flight (c : VersionCall) (stage : Stage) (i : ℕ) : InFlight where
  id := i
  call := c
  stage := stage

theorem names_flight (c : VersionCall) (stage : Stage) : Names (flight c stage) := fun _ => rfl

def start (c : VersionCall) : MappingTx Unit := do
  check fun _ => admitted vet c
  modify fun s => { s with
    flights := s.flights.insert (flight c (.reading (candidates s c.identity))) (names_flight _ _) }

def atStage (stage : Stage) (f : InFlight) : InFlight := { f with stage := stage }

theorem keeps_atStage (stage : Stage) : Keeps (atStage stage) := fun _ => rfl

def holds (i : ℕ) (f : InFlight) : Bool := f.stage == .holding (some i)

def waits : Failure := .logic "The row is locked by another transaction."

def flight? (i : ℕ) : MappingTx InFlight := do
  let s ← get
  orFail (s.flights.find? i) .modelNotFound

def advance (i : ℕ) (stage : Stage) : MappingTx Unit := modify fun s => { s with
  flights := s.flights.update i (atStage stage) (keeps_atStage _) }

-- A row that is free is read again as it now is; one that is no longer current is passed over.
def lock (i : ℕ) : MappingTx Unit := do
  let s ← get
  let f ← flight? i
  match f.stage with
  | .reading [] => advance i (.holding none)
  | .reading (j :: rest) => do
    reject (s.flights.rows.any (holds j) = true) waits
    let m ← orFail (s.mappings.find? j) .modelNotFound
    if m.validUntil.isNone = true then advance i (.holding (some j))
    else advance i (.reading rest)
  | .holding _ => throw waits

def ended (drifts : Bool) (now : ℤ) (m : IntegrationMapping) : IntegrationMapping :=
  { m with
    conflictState := if drifts then .drift else m.conflictState
    validUntil := some now }

theorem keeps_ended (drifts : Bool) (now : ℤ) : Keeps (ended drifts now) := fun _ => rfl

def mapping (c : VersionCall) (conflictState : ConflictState) (now : ℤ) (i : ℕ) :
    IntegrationMapping where
  id := i
  connectionId := c.connection.id
  propertyId := c.propertyId
  fields := c.fields
  transformVersion := c.transformVersion
  conflictState := conflictState
  validFrom := now

theorem names_mapping (c : VersionCall) (conflictState : ConflictState) (now : ℤ) :
    Names (mapping c conflictState now) := fun _ => rfl

def drift (c : VersionCall) (previous : IntegrationMapping) (i : ℕ) : MappingDrift where
  id := i
  connectionId := c.connection.id
  propertyId := c.propertyId
  externalKey := c.fields.externalKey
  localKey := previous.fields.localKey
  previousMappingId := previous.id
  candidateLocalKey := c.fields.localKey

theorem names_drift (c : VersionCall) (previous : IntegrationMapping) : Names (drift c previous) :=
  fun _ => rfl

def drifted (c : VersionCall) (previous : IntegrationMapping) : Bool :=
  previous.fields.localEntityType != c.fields.localEntityType ||
    previous.fields.localKey != c.fields.localKey

def endPrevious (c : VersionCall) (previous : IntegrationMapping) : MappingTx Unit := do
  check fun _ => vet previous.fields
  modify fun s => { s with
    mappings := s.mappings.update previous.id (ended (drifted c previous) s.clock)
      (keeps_ended _ _)
    drifts :=
      if drifted c previous then s.drifts.insert (drift c previous) (names_drift _ _)
      else s.drifts }

-- The identity and the transform version, which together are unique.
def sameVersion (c : VersionCall) (m : IntegrationMapping) : Bool :=
  m.identity == c.identity && m.transformVersion == c.transformVersion

def fits (f : MappingFields) : Bool :=
  f.localEntityType.length ≤ 100 && f.localKey.length ≤ 180 &&
    f.externalEntityType.length ≤ 100 && f.externalKey.length ≤ 180

def create (c : VersionCall) (conflictState : ConflictState) : MappingTx ℕ := do
  let s ← get
  check fun _ => vet c.fields
  let connection ← orFail (s.connections.find? c.connection.id) .modelNotFound
  reject (granted connection c.fields = false ∨ inScope connection c.propertyId = false)
    (.domain "The mapping is outside the connection capability or property scope.")
  reject (c.propertyScopeId ≠ none ∧ c.propertyId ≠ c.propertyScopeId)
    (.domain "The mapping is outside your property scope.")
  reject (fits c.fields = false) (.runtime "SQLSTATE[22001]: String data, right truncated")
  reject (s.mappings.rows.any (sameVersion c) = true)
    (.runtime "SQLSTATE[23505]: Unique violation: integration_mappings_external_unique")
  set { s with
    mappings := s.mappings.insert (mapping c conflictState s.clock) (names_mapping _ _ _) }
  pure s.mappings.next

def inherited (c : VersionCall) (previous : IntegrationMapping) : ConflictState :=
  (ended (drifted c previous) 0 previous).conflictState

-- What the transaction writes once it holds the lock.
def write (f : InFlight) : MappingTx ℕ := do
  let s ← get
  match f.stage with
  | .reading _ => throw waits
  | .holding none => create vet f.call .clear
  | .holding (some j) => do
    let previous ← orFail (s.mappings.find? j) .modelNotFound
    endPrevious vet f.call previous
    create vet f.call (inherited f.call previous)

def leave (i : ℕ) : MappingTx Unit := modify fun s => { s with
  flights := s.flights.deleteWhere fun f => f.id == i }

-- A write that fails takes all of its transaction back.
def finish (i : ℕ) : MappingTx Unit := do
  let f ← flight? i
  reject (f.stage.ready = false) waits
  let _ ← attempt (write vet f)
  leave i

inductive Operation
  | start (c : VersionCall)
  | lock (i : ℕ)
  | finish (i : ℕ)
  | rollback (i : ℕ)
  | connect (connectionId : ℕ) (capabilities : List IntegrationCapability)
  | wait (seconds : ℕ)

def withCapabilities (capabilities : List IntegrationCapability) (c : IntegrationConnection) :
    IntegrationConnection := { c with capabilities := capabilities }

theorem keeps_withCapabilities (capabilities : List IntegrationCapability) :
    Keeps (withCapabilities capabilities) := fun _ => rfl

def Operation.run : Operation → MappingTx Unit
  | start c => IntegrationMappingService.start vet c
  | lock i => IntegrationMappingService.lock i
  | finish i => IntegrationMappingService.finish vet i
  | rollback i => leave i
  | connect i capabilities => modify fun s => { s with
      connections := s.connections.update i (withCapabilities capabilities)
        (keeps_withCapabilities _) }
  | wait seconds => modify fun s => { s with clock := s.clock + seconds }

end Version
end IntegrationMappingService
