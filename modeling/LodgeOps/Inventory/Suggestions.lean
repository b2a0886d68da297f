import LodgeOps.Inventory.Availability

namespace ResourceSuggestionService
open Schema Availability

-- The traits of a resource or of a requirement as a collection: one text is a list of one.
def traits : Listing → List String
  | .absent => []
  | .text s => [s]
  | .items xs => xs

def lower (s : String) : String := s.map Char.toLower

def covers (held needed : List String) : Bool :=
  needed.all fun t => (held.map lower).contains (lower t)

def skilled (capabilities languages : List String) (r : Resource) : Bool :=
  covers (traits r.capabilities) capabilities && covers (traits r.languages) languages

def blocked (db : Database) (s e : ℤ) (r : Resource) : Bool :=
  db.blocks.rows.any fun b => (conflictingResourceIds db r).contains b.resourceId &&
    decide (Occupancy.Meets b.startsAt b.endsAt s e)

def allocated (db : Database) (s e : ℤ) (r : Resource) : Bool :=
  db.allocations.rows.any fun a => onResources (conflictingResourceIds db r) a && active db a &&
    decide (Occupancy.Meets a.startsAt a.endsAt s e)

def recentAssignments (db : Database) (r : Resource) : ℕ :=
  (db.allocations.select fun a => a.resourceId == some r.id && a.status == .confirmed &&
    decide (db.clock - 30 * 86400 ≤ a.startsAt)).length

def precedes (db : Database) (r s : Resource) : Bool :=
  decide (recentAssignments db r < recentAssignments db s) ||
    (recentAssignments db r == recentAssignments db s &&
      (decide (r.capacity < s.capacity) ||
        (r.capacity == s.capacity && decide (lower r.name ≤ lower s.name))))

def suitable (db : Database) (category : ResourceCategory) (s e : ℤ) (quantity : ℕ)
    (capabilities languages : List String) (propertyId : ℕ) (r : Resource) : Bool :=
  r.propertyId == propertyId && r.categoryId == category.id && r.isActive &&
    decide (quantity ≤ r.capacity) && skilled capabilities languages r && !blocked db s e r &&
      !allocated db s e r

def suggest (db : Database) (category : ResourceCategory) (s e : ℤ) (quantity : ℕ)
    (capabilities languages : List String) (propertyId : ℕ) : List Resource :=
  (db.catalogue.resources.select
    (suitable db category s e quantity capabilities languages propertyId)).insertionSort
      fun r t => precedes db r t = true

theorem mem_suggest {db : Database} {category : ResourceCategory} {s e : ℤ} {quantity : ℕ}
    {capabilities languages : List String} {propertyId : ℕ} {r : Resource} :
    r ∈ suggest db category s e quantity capabilities languages propertyId ↔
      r ∈ db.catalogue.resources.rows ∧
        suitable db category s e quantity capabilities languages propertyId r = true := by
  rw [suggest, List.mem_insertionSort, Table.mem_select]

end ResourceSuggestionService
