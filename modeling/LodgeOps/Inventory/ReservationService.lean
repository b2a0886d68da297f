import LodgeOps.Inventory.Reallocation
import LodgeOps.Inventory.ProgramRequirement
import LodgeOps.Inventory.Closure

namespace ReservationService
open Schema Transaction Availability AllocationWorkflow ProgramRequirement

def asConfirmed (a : Allocation) : Allocation := { a with status := .confirmed }

def asTentative (a : Allocation) : Allocation := { a with status := .tentative }

def asReleased (a : Allocation) : Allocation := { a with status := .released }

section Provisioning

def insertOccurrence (program : Program) (r : Reservation) (s e : ℤ) (capacity : ℕ) : Tx ℕ := do
  let db ← get
  reject (program.propertyId ≠ r.propertyId)
    (.logic "The occurrence program must belong to its property and tenant.")
  set { db with serviceOccurrences := db.serviceOccurrences.insert fun i =>
    { id := i, programId := program.id, propertyId := r.propertyId, startsAt := s, endsAt := e
      capacity := capacity, isCancelled := false } }
  pure db.serviceOccurrences.next

def serviceDraft (r : Reservation) (occurrenceId : ℕ) (e : ℤ) : Allocation where
  id := 0
  reservationId := r.id
  requestedCategoryId := none
  resourceId := none
  serviceOccurrenceId := some occurrenceId
  status := .tentative
  startsAt := r.startsAt
  endsAt := e
  quantity := partySize r

def hasService (db : Database) (r : Reservation) : Bool :=
  (db.allocationsOf r.id).any fun a => a.serviceOccurrenceId.isSome

def provisionOccurrence (r : Reservation) (program : Program) : Tx Unit := do
  let e := r.startsAt + 60 * max 1 (program.defaultDurationMinutes.getD 60)
  let capacity := max (partySize r) (program.capacity.getD (partySize r))
  let occurrenceId ← insertOccurrence program r r.startsAt e capacity
  let allocation ← insertAllocation (serviceDraft r occurrenceId e)
  check (assertAvailable · allocation)
  saveAllocation (asConfirmed allocation)

def serviceOccurrence (r : Reservation) : Tx Unit := do
  let db ← get
  match program? db r with
  | none => pure ()
  | some program => if hasService db r then pure () else provisionOccurrence r program

def depositAmount (r : Reservation) : ℤ :=
  match (r.depositPolicy.map DepositPolicy.requirement).getD (.percentage 5000) with
  | .fixed amount => min r.totalMinor amount
  | .percentage basisPoints => (r.totalMinor * basisPoints + 9999).tdiv 10000

def firstOrCreateDeposit (r : Reservation) (scheduleType : String) (amount dueAt : ℤ) : Tx Unit := do
  let db ← get
  if (db.deposits.first? fun d => d.reservationId == r.id && d.scheduleType == scheduleType).isSome
  then pure ()
  else set { db with deposits := db.deposits.insert fun i =>
    { id := i, reservationId := r.id, scheduleType := scheduleType, status := .due
      currency := r.currency, amountMinor := amount, dueAt := dueAt } }

def paymentSchedule (r : Reservation) : Tx Unit := do
  let db ← get
  let depositOffset := (r.depositPolicy.map DepositPolicy.depositDueOffsetDays).getD 0
  let balanceOffset := (r.depositPolicy.map DepositPolicy.balanceDueOffsetDays).getD 30
  firstOrCreateDeposit r (if r.depositPolicy.isNone then "deposit_50" else "deposit")
    (depositAmount r) (db.clock + 86400 * depositOffset)
  firstOrCreateDeposit r "balance" (r.totalMinor - depositAmount r)
    (max db.clock (r.startsAt - 86400 * balanceOffset))

def provision (i : ℕ) : Tx Unit := do
  let r ← lockedReservation i
  serviceOccurrence r
  paymentSchedule r

end Provisioning

def confirmed (r : Reservation) : Reservation :=
  { r with status := .confirmed, holdExpiresAt := none, revision := r.revision + 1 }


def confirm (reservationId : ℕ) : Tx Unit := do
  let locked ← lockedReservation reservationId
  if locked.status = .confirmed then provision locked.id
  else do
    reject (locked.status.canTransitionTo .confirmed = false)
      (.invalidStatusTransition locked.status .confirmed)
    let db ← get
    reject (locked.status = .hold ∧ holdIsActive db locked = false)
      (.invalidStatusTransition locked.status .confirmed)
    check (assertSatisfied · locked)
    check fun db => (standing db locked).forM (assertAvailable db)
    ((standing db locked).map asConfirmed).forM saveAllocation
    modify fun db => { db with reservations := db.reservations.update locked.id confirmed }
    provision locked.id

def holdExpiry (db : Database) (holdMinutes : Option ℤ) : ℤ :=
  db.clock + 60 * max 1 (holdMinutes.getD db.holdTtlMinutes)

def moved (db : Database) (next : ReservationStatus) (holdMinutes : Option ℤ) (r : Reservation) :
    Reservation :=
  { r with
    status := next
    revision := r.revision + 1
    holdExpiresAt :=
      if next = .hold then some (holdExpiry db holdMinutes)
      else if r.status = .hold then none else r.holdExpiresAt }

def moveTo (locked : Reservation) (next : ReservationStatus) (holdMinutes : Option ℤ) : Tx Unit :=
  modify fun db =>
    { db with reservations := db.reservations.update locked.id (moved db next holdMinutes) }

def hold (locked : Reservation) (holdMinutes : Option ℤ) : Tx Unit := do
  let db ← get
  let allocations := (standing db locked).map asTentative
  check (assertSatisfied · locked)
  check fun db => allocations.forM (assertAvailable db)
  moveTo locked .hold holdMinutes
  allocations.forM saveAllocation

def stayPlaces (db : Database) (r : Reservation) : List Resource :=
  ((standing db r).filterMap fun a => a.resourceId.bind db.catalogue.resource?).filter fun s =>
    (db.catalogue.category? s.categoryId).any fun c => c.kind == .place

def checkOut (locked : Reservation) (actorId : Option ℕ) : Tx Unit := do
  moveTo locked .checkedOut none
  let db ← get
  (stayPlaces db locked).eraseDups.forM fun s =>
    ReallocateResource.updateHousekeeping s .dirty actorId

def changeStatus (reservationId : ℕ) (next : ReservationStatus) (holdMinutes : Option ℤ)
    (actorId : Option ℕ) : Tx Unit := do
  let locked ← lockedReservation reservationId
  if locked.status = next then pure ()
  else do
    reject (locked.status.canTransitionTo next = false)
      (.invalidStatusTransition locked.status next)
    match next with
    | .hold => hold locked holdMinutes
    | .checkedOut => checkOut locked actorId
    | _ => moveTo locked next holdMinutes

def transition (reservationId : ℕ) (next : ReservationStatus) (holdMinutes : Option ℤ := none)
    (reason : String := "") (actorId : Option ℕ := none) : Tx Unit :=
  match next with
  | .confirmed => confirm reservationId
  | .cancelled => CloseReservationWithPolicy.handle reservationId .cancelled reason actorId
  | .noShow => CloseReservationWithPolicy.handle reservationId .noShow reason actorId
  | next => changeStatus reservationId next holdMinutes actorId

section Expiry

def due (db : Database) (r : Reservation) : Bool :=
  r.status == .hold && r.holdExpiresAt.any fun t => decide (t ≤ db.clock)

def dueHolds (db : Database) (batch : ℕ) : List ℕ :=
  (((db.reservations.select (due db)).insertionSort fun a b =>
    a.holdExpiresAt.getD 0 ≤ b.holdExpiresAt.getD 0).take (max 1 batch)).map Reservation.id

def lapsed (r : Reservation) : Reservation :=
  { r with status := .draft, holdExpiresAt := none, revision := r.revision + 1 }

def expiredOf (i : ℕ) (allocations : Table Allocation) : Table Allocation :=
  allocations.updateWhere (fun a => a.reservationId == i && a.status == .tentative) asReleased

def expireHold (i : ℕ) : Tx Unit := do
  let db ← get
  match db.reservation? i with
  | none => pure ()
  | some held =>
    if held.status ≠ .hold ∨ holdIsActive db held = true then pure ()
    else set { db with
      allocations := expiredOf i db.allocations
      reservations := db.reservations.update i lapsed }

def expireDueHolds (batch : ℕ := 100) : Tx Unit := do
  let db ← get
  (dueHolds db batch).forM expireHold

end Expiry
end ReservationService
