import LodgeOps.Inventory.AllocationWorkflow

namespace ReallocateResource
open Schema Transaction Availability AllocationWorkflow

section Housekeeping

def updateHousekeeping (resource : Resource) (status : HousekeepingStatus) (actorId : Option ℕ) :
    Tx Unit := do
  let db ← get
  reject ((db.catalogue.category? resource.categoryId).map ResourceCategory.kind ≠ some .place)
    (.validation "resource_id" "Housekeeping state can only be recorded for places.")
  let record : HousekeepingRecord := ⟨resource.id, status, db.clock, actorId⟩
  set { db with housekeeping := Function.update db.housekeeping resource.id (some record) }

def soil (resourceId : Option ℕ) (actorId : Option ℕ) : Tx Unit := do
  let db ← get
  let resource ← orFail (resourceId.bind db.catalogue.resource?) .modelNotFound
  updateHousekeeping resource .dirty actorId

end Housekeeping

def assertCompatible (r : Reservation) (a : Allocation) (target : Resource) :
    Except Failure Unit := do
  refuse (target.propertyId ≠ r.propertyId ∨ target.isActive = false)
    (.validation "resource_id" "The target resource must be active at the reservation property.")
  refuse (a.requestedCategoryId ≠ none ∧ a.requestedCategoryId ≠ some target.categoryId)
    (.validation "resource_id" "Changing resource category requires a priced reservation amendment.")

def swapPartner (current : Allocation) (target : Resource) (swapWith : ℕ) :
    Tx (Allocation × Reservation) := do
  let db ← get
  let gone : Failure := .validation "swap_allocation_id"
    "The swap allocation is no longer active on the target resource."
  let other ← orFail (db.allocations.find? swapWith) gone
  let otherReservation ← orFail (db.reservation? other.reservationId) gone
  reject (other.status = .released ∨ other.resourceId ≠ some target.id) gone
  check (assertOperationallyActive · otherReservation)
  reject (current.resourceId = none ∨ current.startsAt ≠ other.startsAt ∨
      current.endsAt ≠ other.endsAt)
    (.validation "swap_allocation_id"
      "A swap requires matching stay intervals and two assigned resources.")
  pure (other, otherReservation)

def partner (current : Allocation) (target : Resource) :
    Option ℕ → Tx (Option (Allocation × Reservation))
  | none => pure none
  | some i => some <$> swapPartner current target i

def replacementDraft (r : Reservation) (source : Allocation) (resource : Resource) :
    Allocation where
  id := 0
  reservationId := r.id
  requestedCategoryId := some resource.categoryId
  resourceId := some resource.id
  serviceOccurrenceId := source.serviceOccurrenceId
  status := if r.status = .hold then .tentative else .confirmed
  startsAt := source.startsAt
  endsAt := source.endsAt
  quantity := source.quantity

def replacement (r : Reservation) (source : Allocation) (resourceId : Option ℕ) :
    Tx Allocation := do
  let db ← get
  let i ← orFail resourceId
    (.validation "resource_id" "A swap target must have an assigned resource.")
  let resource ← orFail (db.catalogue.resource? i) .modelNotFound
  insertAllocation (replacementDraft r source resource)

def replace (r : Reservation) (source : Allocation) (resourceId : Option ℕ) : Tx Unit := do
  let allocation ← replacement r source resourceId
  check (assertAvailable · allocation)

def releaseSource (a : Allocation) : Tx Unit := saveAllocation { a with status := .released }

def changeType (current : Allocation) (swapped : Bool) : ChangeType :=
  if swapped then .resourceSwapped
  else if current.resourceId = none then .resourceAssigned else .resourceMoved

def soilWhenInHouse (r : Reservation) (resourceId actorId : Option ℕ) : Tx Unit :=
  if r.status = .checkedIn ∧ resourceId ≠ none then soil resourceId actorId else pure ()

def exchange (primary : Reservation) (current : Allocation) (target : Resource)
    (swap : Option (Allocation × Reservation)) (actorId : Option ℕ) (reason : Option String) :
    Tx Unit := do
  releaseSource current
  match swap with
  | none => do
    replace primary current (some target.id)
    bumpRevision primary.id
    recordChange primary (changeType current false) reason
  | some (other, otherReservation) => do
    releaseSource other
    replace primary current (some target.id)
    replace otherReservation other current.resourceId
    bumpRevision primary.id
    recordChange primary (changeType current true) reason
    bumpRevision otherReservation.id
    recordChange otherReservation .resourceSwapped reason
    soilWhenInHouse otherReservation other.resourceId actorId
  soilWhenInHouse primary current.resourceId actorId

def handle (reservationId allocationId resourceId : ℕ) (actorId : Option ℕ)
    (swapWith : Option ℕ := none) (reason : Option String := none) : Tx Unit := do
  let primary ← lockedReservation reservationId
  check (assertOperationallyActive · primary)
  let db ← get
  let current ← orFail (db.allocations.find? allocationId) .modelNotFound
  reject (current.reservationId ≠ primary.id ∨ current.status = .released)
    (.validation "allocation_id"
      "The selected allocation is no longer active on this reservation.")
  let target ← orFail (db.catalogue.resource? resourceId) .modelNotFound
  check fun _ => assertCompatible primary current target
  let swap ← partner current target swapWith
  if current.resourceId = some target.id ∧ swap.isNone then pure ()
  else exchange primary current target swap actorId reason

end ReallocateResource
