import LodgeOps.Commands.CanonicalJson
import LodgeOps.Schema.Database

open CanonicalJson (Key Value)

namespace GuestMergeService
open Schema Transaction

section Tables

structure Guest where
  id : ℕ
  firstName : String
  lastName : Option String := none
  email : Option String := none
  phone : Option String := none
  language : Option String := none
  preferences : Option Value := none
  marketingConsent : Bool := false
  mergedIntoId : Option ℕ := none
  mergedAt : Option ℤ := none

structure GuestMergeAlias where
  id : ℕ
  guestId : ℕ
  sourceGuestId : ℕ
  name : String
  email : Option String
  phone : Option String
  mergedAt : ℤ

-- The tables whose rows name a guest in one column, and those that do so once for a key.
inductive ReferenceTable
  | reservations | proposals | communications | opportunities | crmActivities
  | guestPortalAccessTokens | guestPaymentEvidence
deriving DecidableEq

inductive RelationTable
  | reservationGuests | guestPortalProfiles | guestPortalAcknowledgements | surveys
deriving DecidableEq

structure Reference where
  id : ℕ
  guestId : Option ℕ

-- A column that the table of a row lacks is null.
structure Relation where
  id : ℕ
  guestId : Option ℕ
  reservationId : Option ℕ
  documentId : Option ℕ := none
  kind : Option String := none

inductive UniqueColumn
  | reservationId | documentId | kind
deriving DecidableEq

instance : Keyed Guest := ⟨Guest.id⟩
instance : Keyed GuestMergeAlias := ⟨GuestMergeAlias.id⟩
instance : Keyed Reference := ⟨Reference.id⟩
instance : Keyed Relation := ⟨Relation.id⟩

-- The rows of one tenant.
structure GuestBook where
  clock : ℤ := 0
  guests : Table Guest := .empty
  aliases : Table GuestMergeAlias := .empty
  references : ReferenceTable → Table Reference := fun _ => .empty
  relations : RelationTable → Table Relation := fun _ => .empty

abbrev MergeTx (α : Type) := Transaction Failure GuestBook α

end Tables

section Preferences

def entryAt (es : List (Key × Value)) (k : Key) : Option Value :=
  (es.find? fun e => e.1 == k).map Prod.snd

def setEntry (es : List (Key × Value)) (k : Key) (v : Value) : List (Key × Value) :=
  if es.any (fun e => e.1 == k) then es.map fun e => if e.1 == k then (k, v) else e
  else es ++ [(k, v)]

mutual

-- `array_replace_recursive`: arrays are replaced key by key, all else at once.
def replaceValue (base : Option Value) : Value → Value
  | .array es =>
    match base with
    | some (.array bs) => .array (replaceRecursive bs es)
    | _ => .array es
  | .null => .null
  | .bool b => .bool b
  | .int n => .int n
  | .str s => .str s
  | .backedEnum k => .backedEnum k
  | .date atom => .date atom

def replaceRecursive (base : List (Key × Value)) : List (Key × Value) → List (Key × Value)
  | [] => base
  | (k, v) :: es => replaceRecursive (setEntry base k (replaceValue (entryAt base k) v)) es

end

def entriesOf : Option Value → List (Key × Value)
  | some (.array es) => es
  | _ => []

end Preferences

section Merge

def unavailable : Failure := .domain "Guest merge candidates are unavailable."

def aliasOf (source : Guest) (target : ℕ) (now : ℤ) (i : ℕ) : GuestMergeAlias where
  id := i
  guestId := target
  sourceGuestId := source.id
  name := trim (source.firstName ++ " " ++ source.lastName.getD "")
  email := source.email
  phone := source.phone
  mergedAt := now

theorem names_aliasOf (source : Guest) (target : ℕ) (now : ℤ) : Names (aliasOf source target now) :=
  fun _ => rfl

def cleared (g : Guest) : Guest := { g with email := none, phone := none }

theorem keeps_cleared : Keeps cleared := fun _ => rfl

def absorbing (source g : Guest) : Guest :=
  { g with
    email := g.email.or source.email
    phone := g.phone.or source.phone
    language := g.language.or source.language
    preferences := some (.array
      (replaceRecursive (entriesOf source.preferences) (entriesOf g.preferences)))
    marketingConsent := g.marketingConsent || source.marketingConsent }

theorem keeps_absorbing (source : Guest) : Keeps (absorbing source) := fun _ => rfl

def merged (target : ℕ) (now : ℤ) (g : Guest) : Guest :=
  { g with mergedIntoId := some target, mergedAt := some now }

theorem keeps_merged (target : ℕ) (now : ℤ) : Keeps (merged target now) := fun _ => rfl

def names (i : ℕ) (guestId : Option ℕ) : Bool := guestId == some i

def repointed (target : ℕ) (r : Reference) : Reference := { r with guestId := some target }

theorem keeps_repointed (target : ℕ) : Keeps (repointed target) := fun _ => rfl

def repoint (source target : ℕ) (t : Table Reference) : Table Reference :=
  t.updateWhere (fun r => names source r.guestId) (repointed target) (keeps_repointed _)

def moved (target : ℕ) (r : Relation) : Relation := { r with guestId := some target }

theorem keeps_moved (target : ℕ) : Keeps (moved target) := fun _ => rfl

def sameIn (a b : Relation) : UniqueColumn → Bool
  | .reservationId => a.reservationId == b.reservationId
  | .documentId => a.documentId == b.documentId
  | .kind => a.kind == b.kind

-- A row that the target has already is dropped, any other is the target's from now on.
def mergeRow (uniqueColumns : List UniqueColumn) (target : ℕ) (t : Table Relation)
    (row : Relation) : Table Relation :=
  if t.rows.any (fun r => names target r.guestId && uniqueColumns.all (sameIn row r)) then
    t.deleteWhere fun r => r.id == row.id
  else t.update row.id (moved target) (keeps_moved _)

def mergeUniqueRelation (uniqueColumns : List UniqueColumn) (source target : ℕ)
    (t : Table Relation) : Table Relation :=
  (t.select fun r => names source r.guestId).foldl (mergeRow uniqueColumns target) t

def uniqueColumns : RelationTable → List UniqueColumn
  | .reservationGuests => [.reservationId]
  | .guestPortalProfiles => [.reservationId]
  | .guestPortalAcknowledgements => [.reservationId, .documentId]
  | .surveys => [.reservationId, .kind]

def createAlias (source : Guest) (target : ℕ) : MergeTx Unit := do
  let s ← get
  reject (s.aliases.rows.any (fun a => a.sourceGuestId == source.id) = true)
    (.runtime "SQLSTATE[23505]: Unique violation: guest_merge_aliases")
  set { s with aliases := s.aliases.insert (aliasOf source target s.clock) (names_aliasOf _ _ _) }

def updateGuests (source target : Guest) : MergeTx Unit := modify fun s => { s with
  guests := (s.guests.update source.id cleared keeps_cleared).update target.id (absorbing source)
    (keeps_absorbing _) }

def moveRows (source target : ℕ) : MergeTx Unit := modify fun s => { s with
  references := fun table => repoint source target (s.references table)
  relations := fun table =>
    mergeUniqueRelation (uniqueColumns table) source target (s.relations table) }

def entomb (source target : ℕ) : MergeTx Unit := modify fun s => { s with
  guests := s.guests.update source (merged target s.clock) (keeps_merged _ _) }

def merge (source target : ℕ) : MergeTx Guest := do
  reject (source = target) (.domain "A guest cannot be merged into itself.")
  let s ← get
  let sourceGuest ← orFail (s.guests.find? source) unavailable
  let targetGuest ← orFail (s.guests.find? target) unavailable
  reject (sourceGuest.mergedIntoId ≠ none) unavailable
  createAlias sourceGuest target
  updateGuests sourceGuest targetGuest
  moveRows source target
  entomb source target
  let t ← get
  orFail (t.guests.find? target) .modelNotFound

structure Call where
  source : ℕ
  target : ℕ

def Call.run (c : Call) : MergeTx Unit := do
  let _ ← merge c.source c.target

end Merge
end GuestMergeService
