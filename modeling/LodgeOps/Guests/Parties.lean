import LodgeOps.Booking.Commitment

namespace Schema.Database

def party (db : Database) (i : ℕ) : List ReservationGuest :=
  db.reservationGuests.select fun g => g.reservationId == i

end Schema.Database

namespace ReservationController
open Schema Transaction

section Update

-- `sometimes` and `nullable`: an absent primary guest is not the same as none.
structure UpdateReservationRequest where
  ifMatch : Option String := none
  primaryGuestId : Option (Option ℕ) := none
  guestIds : Option (List ℕ) := none

def editable (s : ReservationStatus) : Bool := s == .draft || s == .hold

def known (db : Database) (i : ℕ) : Bool := (db.guests.find? i).isSome

def validated (db : Database) (request : UpdateReservationRequest) : Except Failure Unit := do
  refuse ((request.primaryGuestId.join.all (known db)) = false)
    (.validation "primary_guest_id" "The selected primary guest id is invalid.")
  let ids := request.guestIds.getD []
  refuse (50 < ids.length)
    (.validation "guest_ids" "The guest ids field must not have more than 50 items.")
  refuse (¬ ids.Nodup) (.validation "guest_ids" "The guest ids field has a duplicate value.")
  refuse (ids.all (known db) = false)
    (.validation "guest_ids" "The selected guest ids is invalid.")

def isDigits (header : String) : Bool :=
  header != "" && header.toList.all Char.isDigit

def decimal (header : String) : ℕ :=
  header.toList.foldl (fun n c => 10 * n + (c.toNat - 48)) 0

def assertRevision (header : Option String) (revision : ℕ) : Except Failure Unit :=
  match header with
  | none => .ok ()
  | some h => do
    refuse (isDigits h = false) (.validation "If-Match"
      "The If-Match header must contain the observed numeric revision.")
    refuse (decimal h ≠ revision)
      (.conflict "The reservation changed after it was loaded. Refresh and try again.")

def edited (primaryGuestId : Option (Option ℕ)) (r : Reservation) : Reservation :=
  { r with
    primaryGuestId := primaryGuestId.getD r.primaryGuestId
    revision := r.revision + 1 }

def memberRow (r : Reservation) (guestId : ℕ) (i : ℕ) : ReservationGuest where
  id := i
  reservationId := r.id
  guestId := guestId
  role := if some guestId = r.primaryGuestId then .primary else .guest

theorem names_memberRow (r : Reservation) (guestId : ℕ) : Names (memberRow r guestId) :=
  fun _ => rfl

def addMember (r : Reservation) (guestId : ℕ) : Tx Unit := modify fun db => { db with
  reservationGuests := db.reservationGuests.insert (memberRow r guestId) (names_memberRow _ _) }

def detach (r : Reservation) : Tx Unit := modify fun db => { db with
  reservationGuests := db.reservationGuests.deleteWhere fun g => g.reservationId == r.id }

def rebuild (r : Reservation) (guestIds : List ℕ) : Tx Unit := do
  detach r
  ((guestIds ++ r.primaryGuestId.toList).eraseDups).forM (addMember r)

def otherGuests (db : Database) (i : ℕ) : List ℕ :=
  ((db.party i).filter fun g => g.role != .primary).map ReservationGuest.guestId

def regroup (r : Reservation) (request : UpdateReservationRequest) (changed : Bool) : Tx Unit := do
  let db ← get
  match request.guestIds with
  | some ids => rebuild r ids
  | none => if changed then rebuild r (otherGuests db r.id) else pure ()

def update (reservationId : ℕ) (request : UpdateReservationRequest) : Tx Reservation := do
  let r ← lockedReservation reservationId
  check (validated · request)
  reject (editable r.status = false)
    (.validation "status" "Only draft or held reservations may be edited.")
  check fun _ => assertRevision request.ifMatch r.revision
  let locked := edited request.primaryGuestId r
  modify fun db => { db with
    reservations := db.reservations.update r.id (edited request.primaryGuestId) }
  regroup locked request (decide (locked.primaryGuestId ≠ r.primaryGuestId))
  pure locked

end Update
end ReservationController

namespace ReservationCompanionService
open Schema Transaction

section Replace

structure CompanionInput where
  guestId : ℕ
  dietary : Option String := none
  allergies : Option String := none
  mealNotes : Option String := none

def stated (field : String) (value : Option String) : List (String × String) :=
  match value with
  | some v => if v = "" then [] else [(field, v)]
  | none => []

def preferences (c : CompanionInput) : List (String × String) :=
  stated "dietary" c.dietary ++ stated "allergies" c.allergies ++ stated "meal_notes" c.mealNotes

def mayChange (s : ReservationStatus) : Bool := s == .draft || s == .hold || s == .confirmed

def vetCompanion (db : Database) (r : Reservation) (c : CompanionInput) (index : ℕ) :
    Except Failure Unit := do
  let guest ← found (db.guests.find? c.guestId) .modelNotFound
  refuse (some guest.id = r.primaryGuestId)
    (.validation ("companions." ++ toString index ++ ".guest_id")
      "The lead guest cannot be added or removed as a companion.")

def companionRow (r : Reservation) (c : CompanionInput) (index : ℕ) (i : ℕ) :
    ReservationGuest where
  id := i
  reservationId := r.id
  guestId := c.guestId
  role := .companion
  sortOrder := index + 1
  operationalPreferences := some (preferences c)

theorem names_companionRow (r : Reservation) (c : CompanionInput) (index : ℕ) :
    Names (companionRow r c index) :=
  fun _ => rfl

def addCompanion (r : Reservation) (c : CompanionInput × ℕ) : Tx Unit := modify fun db => { db with
  reservationGuests := db.reservationGuests.insert (companionRow r c.1 c.2)
    (names_companionRow _ _ _) }

-- With no primary guest `!=` compares with null, which every row passes.
def dropOthers (r : Reservation) : Tx Unit := modify fun db => { db with
  reservationGuests := db.reservationGuests.deleteWhere fun g =>
    g.reservationId == r.id && some g.guestId != r.primaryGuestId }

def primaryRow (reservationId guestId : ℕ) (i : ℕ) : ReservationGuest where
  id := i
  reservationId := reservationId
  guestId := guestId
  role := .primary

theorem names_primaryRow (reservationId guestId : ℕ) : Names (primaryRow reservationId guestId) :=
  fun _ => rfl

def firstOrCreatePrimary (r : Reservation) : Tx Unit := do
  let db ← get
  let primary ← orFail r.primaryGuestId
    (.runtime "SQLSTATE[23502]: Not null violation: reservation_guests.guest_id")
  if ((db.party r.id).any fun g => g.guestId == primary) = true then pure ()
  else set { db with reservationGuests :=
    db.reservationGuests.insert (primaryRow r.id primary) (names_primaryRow _ _) }

def replace (reservationId : ℕ) (companions : List CompanionInput) (expectedRevision : ℕ) :
    Tx Reservation := do
  let r ← lockedReservation reservationId
  reject (r.revision ≠ expectedRevision) (.validation "expected_revision"
    "This reservation changed. Refresh before editing companions.")
  reject (mayChange r.status = false)
    (.validation "status" "Companions may only be changed before check-in.")
  check fun db => companions.zipIdx.forM fun c => vetCompanion db r c.1 c.2
  reject (¬ (companions.map CompanionInput.guestId).Nodup)
    (.validation "companions" "A guest may appear only once in the companion list.")
  reject (r.adults + r.children + r.infants < companions.length + 1) (.validation "companions"
    "Companions exceed the server-priced occupancy. Complete a guarded priced amendment first.")
  dropOthers r
  companions.zipIdx.forM (addCompanion r)
  firstOrCreatePrimary r
  AllocationWorkflow.bumpRevision r.id
  AllocationWorkflow.recordChange r .companionsChanged none
  lockedReservation r.id

end Replace
end ReservationCompanionService

namespace GuestMergeService
open Schema Transaction

section Records

-- The merge of two guests as the bookings see it: their columns, parties and primary guests.
def forget (g : Schema.Guest) : Schema.Guest := { g with email := none, phone := none }

theorem keeps_forget : Keeps forget := fun _ => rfl

def inherit (source g : Schema.Guest) : Schema.Guest :=
  { g with
    email := g.email.or source.email
    phone := g.phone.or source.phone
    language := g.language.or source.language
    dietary := g.dietary.or source.dietary }

theorem keeps_inherit (source : Schema.Guest) : Keeps (inherit source) := fun _ => rfl

def retire (target : ℕ) (now : ℤ) (g : Schema.Guest) : Schema.Guest :=
  { g with mergedIntoId := some target, mergedAt := some now }

theorem keeps_retire (target : ℕ) (now : ℤ) : Keeps (retire target now) := fun _ => rfl

def leadBy (target : ℕ) (r : Reservation) : Reservation :=
  { r with primaryGuestId := some target }

theorem keeps_leadBy (target : ℕ) : Keeps (leadBy target) := fun _ => rfl

def handTo (target : ℕ) (g : ReservationGuest) : ReservationGuest := { g with guestId := target }

theorem keeps_handTo (target : ℕ) : Keeps (handTo target) := fun _ => rfl

def mergePartyRow (target : ℕ) (t : Table ReservationGuest) (row : ReservationGuest) :
    Table ReservationGuest :=
  if (t.rows.any fun g => g.guestId == target && g.reservationId == row.reservationId) then
    t.deleteWhere fun g => g.id == row.id
  else t.update row.id (handTo target) (keeps_handTo _)

def mergeParties (source target : ℕ) (t : Table ReservationGuest) : Table ReservationGuest :=
  (t.select fun g => g.guestId == source).foldl (mergePartyRow target) t

def mergedRecords (source : Schema.Guest) (target : ℕ) (db : Database) : Database :=
  { db with
    guests := ((db.guests.update source.id forget keeps_forget).update target (inherit source)
      (keeps_inherit _)).update source.id (retire target db.clock) (keeps_retire _ _)
    reservations := db.reservations.updateWhere (fun r => r.primaryGuestId == some source.id)
      (leadBy target) (keeps_leadBy _)
    reservationGuests := mergeParties source.id target db.reservationGuests }

def mergeRecords (source target : ℕ) : Tx Unit := do
  reject (source = target) (.domain "A guest cannot be merged into itself.")
  let db ← get
  let sourceGuest ← orFail (db.guests.find? source)
    (.domain "Guest merge candidates are unavailable.")
  let targetGuest ← orFail (db.guests.find? target)
    (.domain "Guest merge candidates are unavailable.")
  reject (sourceGuest.mergedIntoId ≠ none) (.domain "Guest merge candidates are unavailable.")
  set (mergedRecords sourceGuest targetGuest.id db)

end Records
end GuestMergeService
