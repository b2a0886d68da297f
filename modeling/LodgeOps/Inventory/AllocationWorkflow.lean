import LodgeOps.Inventory.Availability

namespace AllocationWorkflow
open Schema Transaction Availability

structure AllocationData where
  requestedCategoryId : Option (Option ℕ) := none
  resourceId : Option (Option ℕ) := none
  serviceOccurrenceId : Option (Option ℕ) := none
  startsAt : Option ℤ := none
  endsAt : Option ℤ := none
  quantity : Option ℕ := none
  status : Option AllocationStatus := none

section Saving

def resourceOfProperty (db : Database) (i p : ℕ) : Option Resource :=
  (db.catalogue.resource? i).filter fun r => r.propertyId == p

def categorised (db : Database) (a : Allocation) (p : ℕ) : Except Failure Allocation :=
  match a.resourceId with
  | none => .ok a
  | some i => do
    let resource ← found (resourceOfProperty db i p)
      (.logic "The allocation resource must belong to the reservation property and tenant.")
    refuse (a.requestedCategoryId ≠ none ∧ a.requestedCategoryId ≠ some resource.categoryId)
      (.logic "The assigned resource must match the requested category.")
    .ok { a with requestedCategoryId := some resource.categoryId }

def saving (db : Database) (a : Allocation) : Except Failure Allocation := do
  let reservation ← found (db.reservation? a.reservationId)
    (.logic "An allocation requires a tenant reservation and a target.")
  refuse (a.requestedCategoryId = none ∧ a.resourceId = none ∧ a.serviceOccurrenceId = none)
    (.logic "An allocation requires a tenant reservation and a target.")
  let a ← categorised db a reservation.propertyId
  refuse (a.requestedCategoryId.any (fun c => !db.catalogue.inProperty c reservation.propertyId))
    (.logic "The requested category must belong to the reservation property and tenant.")
  refuse (a.serviceOccurrenceId.any (fun o => !(db.serviceOccurrences.find? o).any
      fun occurrence => occurrence.propertyId == reservation.propertyId))
    (.logic "The allocation occurrence must belong to the reservation property and tenant.")
  .ok a

def insertAllocation (draft : Allocation) : Tx Allocation := do
  let db ← get
  let a ← check fun db => saving db { draft with id := db.allocations.next }
  set { db with allocations := db.allocations.insert fun i => { a with id := i } }
  pure a

def saveAllocation (a : Allocation) : Tx Unit := do
  let db ← get
  let a ← check fun db => saving db a
  set { db with allocations := db.allocations.update a.id fun r => { a with id := r.id } }

end Saving

def holdIsActive (db : Database) (r : Reservation) : Bool := r.holdExpiresAt.any db.isFuture

def assertOperationallyActive (db : Database) (r : Reservation) : Except Failure Unit :=
  refuse (¬ (r.status = .confirmed ∨ r.status = .checkedIn ∨
      (r.status = .hold ∧ holdIsActive db r = true)))
    (.validation "status"
      "Shared resources may only change on an active held, confirmed, or checked-in reservation.")

def requestedCategory (db : Database) (r : Reservation) :
    Option ℕ → Except Failure (Option ResourceCategory)
  | none => .ok none
  | some i => do
    let category ← found ((db.catalogue.category? i).filter fun c =>
        c.isActive && c.propertyId == r.propertyId)
      (.validation "requested_category_id"
        "The requested category must be active and belong to the reservation property.")
    .ok (some category)

def assertResource (db : Database) (r : Reservation) (category : Option ResourceCategory) :
    Option ℕ → Except Failure Unit
  | none => .ok ()
  | some i => do
    let resource ← found ((db.catalogue.resource? i).filter fun s =>
        s.isActive && s.propertyId == r.propertyId)
      (.validation "resource_id"
        "The resource must be active and belong to the reservation property.")
    refuse (category.any fun c => resource.categoryId != c.id)
      (.validation "resource_id" "The assigned resource must belong to the requested category.")

def assertTargetsBelongToReservation (db : Database) (r : Reservation)
    (requestedCategoryId resourceId serviceOccurrenceId : Option ℕ) : Except Failure Unit := do
  refuse (requestedCategoryId = none ∧ resourceId = none ∧ serviceOccurrenceId = none)
    (.validation "requested_category_id"
      "An allocation must request a category, assign a resource, or target a service occurrence.")
  let category ← requestedCategory db r requestedCategoryId
  assertResource db r category resourceId
  refuse (serviceOccurrenceId.any fun i => !(db.serviceOccurrences.find? i).any fun o =>
      o.propertyId == r.propertyId && !o.isCancelled)
    (.validation "service_occurrence_id"
      "The occurrence must be active and belong to the reservation property.")

def reservesCapacity (db : Database) (r : Reservation) (status : AllocationStatus) : Bool :=
  status != .released &&
    (r.status == .confirmed || (r.status == .hold && holdIsActive db r))

def recordChange (r : Reservation) (type : ChangeType) (reason : Option String) : Tx Unit :=
  modify fun db => { db with changes := db.changes.insert fun i =>
    { id := i, reservationId := r.id, type := type, status := .completed, currency := r.currency,
      reason := trimmed? reason, occurredAt := db.clock } }

def revised (r : Reservation) : Reservation := { r with revision := r.revision + 1 }

def bumpRevision (i : ℕ) : Tx Unit :=
  modify fun db => { db with reservations := db.reservations.update i revised }

def recordMutation (r : Reservation) (type : ChangeType) (reason : Option String) : Tx Unit := do
  bumpRevision r.id
  recordChange r type reason

def createdStatus (r : Reservation) : AllocationStatus :=
  if r.status = .confirmed ∨ r.status = .checkedIn then .confirmed else .tentative

def drafted (r : Reservation) (data : AllocationData) (s e : ℤ) : Allocation where
  id := 0
  reservationId := r.id
  requestedCategoryId := data.requestedCategoryId.join
  resourceId := data.resourceId.join
  serviceOccurrenceId := data.serviceOccurrenceId.join
  status := createdStatus r
  startsAt := s
  endsAt := e
  quantity := data.quantity.getD 1

def create (reservationId : ℕ) (data : AllocationData) (reason : Option String := none)
    (requireOperationallyActive : Bool := false) : Tx Allocation := do
  let reservation ← lockedReservation reservationId
  check fun db => if requireOperationallyActive then assertOperationallyActive db reservation
    else .ok ()
  check fun db => assertTargetsBelongToReservation db reservation data.requestedCategoryId.join
    data.resourceId.join data.serviceOccurrenceId.join
  let s ← orFail data.startsAt (.runtime "starts_at violates not-null constraint")
  let e ← orFail data.endsAt (.runtime "ends_at violates not-null constraint")
  let allocation ← insertAllocation (drafted reservation data s e)
  check fun db => if reservesCapacity db reservation allocation.status then
    assertAvailable db allocation else .ok ()
  recordMutation reservation .resourceAssigned reason
  pure allocation

def updatedStatus (r : Reservation) (requested : AllocationStatus) : AllocationStatus :=
  if requested = .released then .released
  else if r.status = .confirmed then .confirmed else .tentative

def candidate (r : Reservation) (a : Allocation) (data : AllocationData) : Allocation :=
  { a with
    requestedCategoryId := data.requestedCategoryId.getD a.requestedCategoryId
    resourceId := data.resourceId.getD a.resourceId
    serviceOccurrenceId := data.serviceOccurrenceId.getD a.serviceOccurrenceId
    startsAt := data.startsAt.getD a.startsAt
    endsAt := data.endsAt.getD a.endsAt
    quantity := data.quantity.getD a.quantity
    status := updatedStatus r (data.status.getD a.status) }

def lockedAllocation (reservationId allocationId : ℕ) : Tx Allocation := do
  let db ← get
  orFail ((db.allocations.find? allocationId).filter fun a => a.reservationId == reservationId)
    .modelNotFound

-- The check sees the filled model before the saving hook has written the resource's category.
def update (reservationId allocationId : ℕ) (data : AllocationData)
    (reason : Option String := none) (requireOperationallyActive : Bool := false) : Tx Unit := do
  let reservation ← lockedReservation reservationId
  check fun db => if requireOperationallyActive then assertOperationallyActive db reservation
    else .ok ()
  let allocation ← lockedAllocation reservation.id allocationId
  let filled := candidate reservation allocation data
  check fun db => assertTargetsBelongToReservation db reservation filled.requestedCategoryId
    filled.resourceId filled.serviceOccurrenceId
  check fun db => if reservesCapacity db reservation filled.status then
    assertAvailable db filled else .ok ()
  saveAllocation filled
  recordMutation reservation .resourceAssignmentUpdated reason

def release (reservationId allocationId : ℕ) (reason : Option String := none)
    (requireOperationallyActive : Bool := false) : Tx Unit := do
  let reservation ← lockedReservation reservationId
  check fun db => if requireOperationallyActive then assertOperationallyActive db reservation
    else .ok ()
  let locked ← lockedAllocation reservation.id allocationId
  reject (locked.status = .released)
    (.validation "allocation_id" "The selected allocation is already released.")
  saveAllocation { locked with status := .released }
  recordMutation reservation .resourceReleased reason

end AllocationWorkflow
