import LodgeOps.Schema.Database
import LodgeOps.Store.Occupancy

namespace Availability
open Schema Occupancy

def holdIsLive (db : Database) (r : Reservation) : Bool :=
  r.status == .hold && r.holdExpiresAt.any db.isFuture

def heldLive (db : Database) (a : Allocation) : Bool :=
  (db.reservation? a.reservationId).any (holdIsLive db)

def active (db : Database) (a : Allocation) : Bool :=
  a.status == .confirmed || (a.status == .tentative && heldLive db a)

def activeAllocationScope (db : Database) (allocation candidate : Allocation) : Bool :=
  active db candidate ||
    (candidate.reservationId == allocation.reservationId && candidate.status == .tentative)

def overlapping (s e : ℤ) (allocation : Allocation) : Bool :=
  decide (Meets s e allocation.startsAt allocation.endsAt)

def blockedBy (db : Database) (ids : List ℕ) (allocation : Allocation) : List ResourceBlock :=
  db.blocks.select fun b => ids.contains b.resourceId && overlapping b.startsAt b.endsAt allocation

def rivals (db : Database) (allocation : Allocation) (targets : Allocation → Bool) :
    List Allocation :=
  db.allocations.select fun c => targets c && c.id != allocation.id &&
    activeAllocationScope db allocation c && overlapping c.startsAt c.endsAt allocation

def onResources (ids : List ℕ) (c : Allocation) : Bool := c.resourceId.any ids.contains

def categoryOnly (wanted : ℕ → Bool) (c : Allocation) : Bool :=
  c.resourceId.isNone && c.requestedCategoryId.any wanted

def conflict (message : String) (resourceId conflictingId : Option ℕ := none) : Failure :=
  .allocationConflict message resourceId conflictingId

def idsOf (rs : List Resource) : List ℕ := rs.map Resource.id

def categoryIdsOf (rs : List Resource) : List ℕ := rs.map Resource.categoryId

-- Collection::push appends to the buyout ids in place: the membership test that looks for an
-- exclusive conflict sees the requested resource among them.
def conflictingResourceIds (db : Database) (resource : Resource) : List ℕ :=
  if resource.isBuyout then idsOf (db.catalogue.ofProperty resource.propertyId)
  else idsOf (db.catalogue.buyouts resource.propertyId) ++ [resource.id]

def resourceConflicts (db : Database) (allocation : Allocation) (resource : Resource) :
    List Allocation :=
  rivals db allocation fun c =>
    onResources (conflictingResourceIds db resource) c ||
      categoryOnly (if resource.isBuyout then (db.catalogue.inProperty · resource.propertyId)
        else (categoryIdsOf (db.catalogue.buyouts resource.propertyId)).contains) c

def exclusiveConflict (db : Database) (allocation : Allocation) (resource : Resource) :
    Option Allocation :=
  if resource.isBuyout then (resourceConflicts db allocation resource).head?
  else (resourceConflicts db allocation resource).find?
    (onResources (conflictingResourceIds db resource))

def allocatedQuantity (db : Database) (allocation : Allocation) (resource : Resource) : ℕ :=
  (((resourceConflicts db allocation resource).filter
    (fun c => c.resourceId == some resource.id)).map Allocation.quantity).sum

def assertResourceAvailable (db : Database) (allocation : Allocation) (resource : Resource) :
    Except Failure Unit := do
  let blocks := blockedBy db (conflictingResourceIds db resource) allocation
  refuse (blocks ≠ []) (conflict "The resource is blocked for the requested interval."
    allocation.resourceId (blocks.head?.map ResourceBlock.id))
  let exclusive := exclusiveConflict db allocation resource
  refuse (exclusive.isSome = true) (conflict "A property buyout conflicts with this allocation."
    allocation.resourceId (exclusive.map Allocation.id))
  let allocated := allocatedQuantity db allocation resource
  let stay := db.catalogue.countsAsStay resource
  refuse ((stay = true ∧ 0 < allocated) ∨
      (stay = false ∧ resource.capacity < allocated + allocation.quantity))
    (conflict "The resource has insufficient remaining capacity for the requested interval."
      allocation.resourceId
      (((resourceConflicts db allocation resource).find?
        (fun c => c.resourceId == some resource.id)).map Allocation.id))

def assertOccurrenceCapacity (db : Database) (allocation : Allocation)
    (occurrence : ServiceOccurrence) : Except Failure Unit :=
  let allocated := ((db.allocations.select fun c =>
    c.serviceOccurrenceId == some occurrence.id && c.id != allocation.id &&
      (active db c || c.reservationId == allocation.reservationId)).map Allocation.quantity).sum
  refuse (occurrence.isCancelled = true ∨ occurrence.capacity < allocated + allocation.quantity)
    (conflict "The service occurrence has insufficient capacity." none (some occurrence.id))

def propertyRivals (db : Database) (allocation : Allocation) (p : ℕ) : List Allocation :=
  rivals db allocation fun c =>
    onResources (idsOf (db.catalogue.ofProperty p)) c || categoryOnly (db.catalogue.inProperty · p) c

def buyoutRivals (db : Database) (allocation : Allocation) (p : ℕ) : List Allocation :=
  rivals db allocation fun c =>
    onResources (idsOf (db.catalogue.buyouts p)) c ||
      categoryOnly (categoryIdsOf (db.catalogue.buyouts p)).contains c

def assertExclusiveCategoryAvailable (db : Database) (allocation : Allocation) (p : ℕ) :
    Except Failure Unit := do
  refuse (allocation.quantity ≠ 1)
    (conflict "An exclusive category can only be reserved once per interval.")
  let blocks := blockedBy db (idsOf (db.catalogue.ofProperty p)) allocation
  refuse (blocks ≠ []) (conflict "A property block conflicts with the exclusive category request."
    none (blocks.head?.map ResourceBlock.id))
  let rivals := propertyRivals db allocation p
  refuse (rivals ≠ [])
    (conflict "A property allocation conflicts with the exclusive category request."
      none (rivals.head?.map Allocation.id))

def reservedOfCategory (db : Database) (allocation : Allocation) : ℕ :=
  ((rivals db allocation fun c => c.requestedCategoryId == allocation.requestedCategoryId).map
    Allocation.quantity).sum

def activeOfCategory (db : Database) (category : ResourceCategory) : List Resource :=
  db.catalogue.resources.select fun r => r.categoryId == category.id && r.isActive

def assertCategoryCapacity (db : Database) (allocation : Allocation)
    (category : ResourceCategory) : Except Failure Unit := do
  let resources := activeOfCategory db category
  let first ← found resources.head?
    (conflict "The requested category has no active inventory." allocation.resourceId)
  if first.isBuyout then assertExclusiveCategoryAvailable db allocation category.propertyId
  else do
    let p := category.propertyId
    let buyoutBlocks := blockedBy db (idsOf (db.catalogue.buyouts p)) allocation
    refuse (buyoutBlocks ≠ [])
      (conflict "A property buyout block conflicts with the requested category."
        allocation.resourceId (buyoutBlocks.head?.map ResourceBlock.id))
    let buyouts := buyoutRivals db allocation p
    refuse (buyouts ≠ []) (conflict "A property buyout conflicts with the requested category."
      allocation.resourceId (buyouts.head?.map Allocation.id))
    let blockedIds := (blockedBy db (idsOf resources) allocation).map ResourceBlock.resourceId
    let free := resources.filter fun r => !blockedIds.contains r.id
    let available := if category.countsAsStay then free.length else (free.map Resource.capacity).sum
    refuse (available < reservedOfCategory db allocation + allocation.quantity)
      (conflict "The requested category has insufficient remaining capacity for the interval."
        allocation.resourceId)

def assertAssigned (db : Database) (allocation : Allocation) : Option ℕ → Except Failure Unit
  | none => .ok ()
  | some i => do
    let resource ← found (db.catalogue.resource? i) .modelNotFound
    assertResourceAvailable db allocation resource

def assertService (db : Database) (allocation : Allocation) : Option ℕ → Except Failure Unit
  | none => .ok ()
  | some i => do
    let occurrence ← found (db.serviceOccurrences.find? i) .modelNotFound
    assertOccurrenceCapacity db allocation occurrence

def assertRequested (db : Database) (allocation : Allocation) : Option ℕ → Except Failure Unit
  | none => .ok ()
  | some i => do
    let category ← found (db.catalogue.category? i) .modelNotFound
    assertCategoryCapacity db allocation category

def assertAvailable (db : Database) (allocation : Allocation) : Except Failure Unit := do
  refuse (allocation.endsAt ≤ allocation.startsAt)
    (conflict "Allocation end must be after its start." allocation.resourceId)
  assertAssigned db allocation allocation.resourceId
  assertService db allocation allocation.serviceOccurrenceId
  assertRequested db allocation allocation.requestedCategoryId

end Availability
