import LodgeOps.Booking.Quotes

namespace CommitBookingQuote
open Schema Transaction BookingQuoteService

structure GuestData where
  firstName : String := ""
  lastName : String := ""
  email : String := ""
  phone : String := ""
  language : Option String := none
  dietary : Option String := none

def unlessBlank (s : String) : Option String := trimmed? (some s)

def newGuest (data : GuestData) (i : ℕ) : Guest where
  id := i
  firstName := trim data.firstName
  lastName := unlessBlank data.lastName
  email := (unlessBlank data.email).map String.toLower
  phone := unlessBlank data.phone
  language := data.language
  dietary := data.dietary

def guestFor (guestId : Option ℕ) (data : GuestData) : Tx Guest := do
  let db ← get
  match guestId with
  | some i => orFail (db.guests.find? i) .modelNotFound
  | none => do
    set { db with guests := db.guests.insert (newGuest data) }
    pure (newGuest data db.guests.next)

def committedTo (guestId : Option ℕ) (reservationId : ℕ) : Tx Reservation := do
  let r ← lockedReservation reservationId
  reject (guestId = none ∨ r.primaryGuestId ≠ guestId) (.validation "guest_id"
    "This committed quote belongs to a different guest identity.")
  pure r

def booked (q : BookingQuote) (guest : Guest) (i : ℕ) : Reservation where
  id := i
  propertyId := q.propertyId
  programId := q.programId
  bookingQuoteId := some q.id
  status := .hold
  startsAt := q.startsAt
  endsAt := q.endsAt
  holdExpiresAt := some q.expiresAt
  adults := q.adults.toNat
  children := q.children.toNat
  infants := q.infants.toNat
  currency := q.currency
  subtotalMinor := q.subtotalMinor
  taxMinor := q.taxMinor
  totalMinor := q.totalMinor
  depositPolicy := q.depositPolicySnapshot
  cancellationTiers := q.cancellationPolicySnapshot.getD []
  folioStatus := .opened
  closureReason := none
  revision := 1
  primaryGuestId := some guest.id

def programOfProperty (db : Database) (programId : Option ℕ) (propertyId : ℕ) : Bool :=
  programId.all fun i => (db.programs.find? i).any fun p => p.propertyId == propertyId

def assertProgram (programId : Option ℕ) (propertyId : ℕ) : Tx Unit :=
  check fun db => refuse (programOfProperty db programId propertyId = false)
    (.logic "The reservation program must belong to its property and tenant.")

def createReservation (q : BookingQuote) (guest : Guest) : Tx Reservation := do
  assertProgram q.programId q.propertyId
  let db ← get
  set { db with reservations := db.reservations.insert (booked q guest) }
  pure (booked q guest db.reservations.next)

def stayAllocation (q : BookingQuote) (r : Reservation) (status : AllocationStatus) :
    Allocation where
  id := 0
  reservationId := r.id
  requestedCategoryId := some q.resourceCategoryId
  resourceId := q.resourceId
  serviceOccurrenceId := none
  status := status
  startsAt := q.startsAt
  endsAt := q.endsAt
  quantity := 1

def allocate (q : BookingQuote) (r : Reservation) (status : AllocationStatus) : Tx Allocation := do
  let allocation ← AllocationWorkflow.insertAllocation (stayAllocation q r status)
  check fun db => Availability.assertAvailable db allocation
  pure allocation

def addToParty (r : Reservation) (primaryId guestId : ℕ) : Tx Unit := do
  let db ← get
  let companion ← orFail (db.guests.find? guestId) .modelNotFound
  set { db with reservationGuests := db.reservationGuests.insert fun i =>
    { id := i, reservationId := r.id, guestId := companion.id
      role := if companion.id = primaryId then .primary else .guest } }

def quotedMetadata (l : BookingQuoteLine) : LineMetadata where
  quotedQuantityThousandths := some l.quantityThousandths
  quotedUnitAmountMinor := some l.unitAmountMinor

def postLine (r : Reservation) (actorId : Option ℕ) (l : BookingQuoteLine) : Tx Unit := do
  let _ ← Folio.append r .charge l.description 1000 l.netAmountMinor actorId (quotedMetadata l)
    l.taxAmountMinor true
  pure ()

def committed (reservationId : ℕ) (now : ℤ) (q : BookingQuote) : BookingQuote :=
  { q with
    status := .committed
    reservationId := some reservationId
    committedAt := some now }

def markCommitted (quoteId reservationId : ℕ) : Tx Unit :=
  modify fun db => { db with
    quotes := db.quotes.update quoteId (committed reservationId db.clock) }

def commit (q : BookingQuote) (guestId : Option ℕ) (data : GuestData) (companionIds : List ℕ)
    (actorId : Option ℕ) : Tx Reservation := do
  let db ← get
  reject (q.status ≠ .pending ∨ db.isFuture q.expiresAt = false)
    (rateFailure "This quote expired. Refresh the price and availability.")
  reject (q.checksum ≠ checksumFor q)
    (rateFailure "The quote snapshot failed its integrity check.")
  reject ((db.properties.find? q.propertyId).isNone = true) .modelNotFound
  let guest ← guestFor guestId data
  reject (trim guest.firstName = "")
    (.validation "guest_first_name" "A guest name is required.")
  let r ← createReservation q guest
  let _ ← allocate q r .tentative
  ((guest.id :: companionIds).eraseDups).forM (addToParty r guest.id)
  q.lines.forM (postLine r actorId)
  markCommitted q.id r.id
  pure r

def handle (quoteId : ℕ) (guestId : Option ℕ) (data : GuestData) (companionIds : List ℕ)
    (actorId : Option ℕ) : Tx Reservation := do
  let db ← get
  let locked ← orFail (db.quotes.find? quoteId) .modelNotFound
  match locked.status, locked.reservationId with
  | .committed, some i => committedTo guestId i
  | _, _ => commit locked guestId data companionIds actorId

section Commits
variable {db db' t : Database} {q : BookingQuote} {r : Reservation} {guest : Guest}
variable {actor : Option ℕ} {i : ℕ} {lines : List BookingQuoteLine} {l : BookingQuoteLine}

theorem commits_allocate {status : AllocationStatus} {a : Allocation}
    (h : Commits (allocate q r status) db a db') :
    db' = { db with allocations := db'.allocations } := by
  simp only [allocate, commits_bind, commits_check, commits_pure,
    Soundness.commits_insertAllocation] at h
  obtain ⟨a, _, ⟨_, rfl⟩, _, _, ⟨_, rfl⟩, _, rfl⟩ := h
  rfl

theorem commits_guestFor {guestId : Option ℕ} {data : GuestData}
    (h : Commits (guestFor guestId data) db guest db') : db' = { db with guests := db'.guests } := by
  simp only [guestFor, commits_bind, commits_get] at h
  obtain ⟨_, _, ⟨rfl, rfl⟩, h⟩ := h
  cases guestId with
  | some i =>
    simp only [commits_orFail] at h
    rw [← h.2]
  | none =>
    simp only [commits_bind, commits_set, commits_pure] at h
    obtain ⟨_, _, rfl, _, rfl⟩ := h
    rfl

theorem commits_createReservation (h : Commits (createReservation q guest) db r db') :
    r = booked q guest db.reservations.next ∧
      Table.Appends db.reservations db'.reservations r ∧
      db' = { db with reservations := db'.reservations } := by
  simp only [createReservation, assertProgram, commits_bind, commits_check, commits_get,
    commits_set, commits_pure] at h
  obtain ⟨_, _, ⟨_, rfl⟩, _, _, ⟨rfl, rfl⟩, _, _, rfl, rfl, rfl⟩ := h
  exact ⟨rfl, Table.appends_insert, rfl⟩

theorem commits_addToParty {j : ℕ} (h : Commits (addToParty r i j) db () db') :
    db' = { db with reservationGuests := db'.reservationGuests } := by
  simp only [addToParty, commits_bind, commits_get, commits_orFail, commits_set] at h
  obtain ⟨_, _, ⟨rfl, rfl⟩, _, _, ⟨_, rfl⟩, rfl⟩ := h
  rfl

def lineDraft (actor : Option ℕ) (l : BookingQuoteLine) : Folio.LineDraft where
  type := .charge
  description := l.description
  unitAmountMinor := l.netAmountMinor
  actorId := actor
  taxAmountMinor := l.taxAmountMinor
  metadata := { quotedMetadata l with includedInBookedTotal := true }

theorem commits_postLine (h : Commits (postLine r actor l) db () db') :
    db' = Folio.posted db r (lineDraft actor l) := by
  simp only [postLine, Folio.append, commits_bind, commits_check, commits_reject,
    Folio.commits_createLine, commits_pure] at h
  obtain ⟨_, _, ⟨_, _, ⟨_, rfl⟩, _, _, ⟨_, rfl⟩, _, rfl⟩, _, rfl⟩ := h
  rfl

theorem postLines_frame (h : Commits (lines.forM (postLine r actor)) db () db') :
    db' = { db with folioLines := db'.folioLines } := by
  refine forM_invariant (I := fun s => s = { db with folioLines := s.folioLines }) ?_ rfl h
  intro l _ s s' hs hc
  rw [commits_postLine hc, hs]
  rfl

theorem party_frame {ids : List ℕ} (h : Commits (ids.forM (addToParty r i)) db () db') :
    db' = { db with reservationGuests := db'.reservationGuests } := by
  refine forM_invariant (I := fun s => s = { db with reservationGuests := s.reservationGuests })
    ?_ rfl h
  intro j _ s s' hs hc
  rw [commits_addToParty hc, hs]

-- A commit writes the reservation, posts the quote's lines to its folio and marks the quote.
structure Committed (db db' : Database) (q : BookingQuote) (r : Reservation)
    (actor : Option ℕ) : Prop where
  pending : q.status = .pending
  intact : q.checksum = checksumFor q
  row : ∃ guest, r = booked q guest db.reservations.next
  reservations : Table.Appends db.reservations db'.reservations r
  lines : ∃ t, t.folioLines = db.folioLines ∧ t.payments = db.payments ∧ t.changes = db.changes ∧
    Commits (q.lines.forM (postLine r actor)) t () { t with folioLines := db'.folioLines }
  quotes : db'.quotes = db.quotes.update q.id (committed r.id db.clock)
  payments : db'.payments = db.payments
  changes : db'.changes = db.changes

-- The states that a quote's commit passes through, once its own checks are made.
structure Staged (db db' : Database) (q : BookingQuote) (guestId : Option ℕ) (data : GuestData)
    (companions : List ℕ) (actor : Option ℕ) (r : Reservation) (guest : Guest) (a : Allocation)
    (t₁ t₂ t₃ t₄ t₅ : Database) : Prop where
  found : Commits (guestFor guestId data) db guest t₁
  create : Commits (createReservation q guest) t₁ r t₂
  allocate : Commits (allocate q r .tentative) t₂ a t₃
  party : Commits (((guest.id :: companions).eraseDups).forM (addToParty r guest.id)) t₃ () t₄
  lines : Commits (q.lines.forM (postLine r actor)) t₄ () t₅
  mark : db' = { t₅ with quotes := t₅.quotes.update q.id (committed r.id t₅.clock) }

theorem commits_commit_staged {guestId : Option ℕ} {data : GuestData} {companions : List ℕ}
    (h : Commits (commit q guestId data companions actor) db r db') :
    q.status = .pending ∧ q.checksum = checksumFor q ∧ ∃ guest a t₁ t₂ t₃ t₄ t₅,
      Staged db db' q guestId data companions actor r guest a t₁ t₂ t₃ t₄ t₅ := by
  unfold commit at h
  obtain ⟨hok, h⟩ := commits_reject_bind.mp (commits_get_bind.mp h)
  obtain ⟨hsum, h⟩ := commits_reject_bind.mp h
  obtain ⟨_, h⟩ := commits_reject_bind.mp h
  obtain ⟨guest, t₁, hguest, h⟩ := commits_bind.mp h
  obtain ⟨_, h⟩ := commits_reject_bind.mp h
  obtain ⟨_, t₂, hcreate, h⟩ := commits_bind.mp h
  obtain ⟨a, t₃, hallocate, h⟩ := commits_bind.mp h
  obtain ⟨_, t₄, hparty, h⟩ := commits_bind.mp h
  obtain ⟨_, t₅, hlines, h⟩ := commits_bind.mp h
  obtain ⟨_, t₆, hmark, h⟩ := commits_bind.mp h
  obtain ⟨rfl, rfl⟩ := commits_pure.mp h
  exact ⟨not_not.mp (not_or.mp hok).1, not_not.mp hsum, guest, a, t₁, t₂, t₃, t₄, t₅,
    hguest, hcreate, hallocate, hparty, hlines, (commits_modify.mp hmark).symm⟩

theorem commits_commit {guestId : Option ℕ} {data : GuestData} {companions : List ℕ}
    (h : Commits (commit q guestId data companions actor) db r db') :
    Committed db db' q r actor := by
  obtain ⟨hok, hsum, guest, a, t₁, t₂, t₃, t₄, t₅, hs⟩ := commits_commit_staged h
  have h₁ := commits_guestFor hs.found
  obtain ⟨hr, happ, h₂⟩ := commits_createReservation hs.create
  have h₃ := commits_allocate hs.allocate
  have h₄ := party_frame hs.party
  have h₅ := postLines_frame hs.lines
  obtain rfl := hs.mark
  have hres : t₅.reservations = t₂.reservations := by rw [h₅, h₄, h₃]
  have hbase : t₁.reservations = _ := congrArg Database.reservations h₁
  refine ⟨hok, hsum, ⟨guest, ?_⟩, ?_, ⟨t₄, ?_, ?_, ?_, ?_⟩, ?_, ?_, ?_⟩
  · rw [hr, hbase]
  · show Table.Appends _ t₅.reservations r
    rw [hres, ← hbase]
    exact happ
  · rw [h₄, h₃, h₂, h₁]
  · rw [h₄, h₃, h₂, h₁]
  · rw [h₄, h₃, h₂, h₁]
  · show Commits _ t₄ () { t₄ with folioLines := t₅.folioLines }
    rw [← h₅]
    exact hs.lines
  · show t₅.quotes.update q.id (committed r.id t₅.clock) = _
    rw [h₅, h₄, h₃, h₂, h₁]
  · show t₅.payments = _
    rw [h₅, h₄, h₃, h₂, h₁]
  · show t₅.changes = _
    rw [h₅, h₄, h₃, h₂, h₁]

theorem commits_committedTo {guestId : Option ℕ} (h : Commits (committedTo guestId i) db r db') :
    db' = db := by
  simp only [committedTo, commits_bind, commits_lockedReservation, commits_reject,
    commits_pure] at h
  obtain ⟨_, _, ⟨_, rfl⟩, _, _, ⟨_, rfl⟩, _, rfl⟩ := h
  rfl

theorem commits_handle {guestId : Option ℕ} {data : GuestData} {companions : List ℕ}
    (h : Commits (handle i guestId data companions actor) db r db') :
    ∃ q, db.quotes.find? i = some q ∧ (db' = db ∨ Committed db db' q r actor) := by
  simp only [handle, commits_bind, commits_get, commits_orFail] at h
  obtain ⟨_, _, ⟨rfl, rfl⟩, q, _, ⟨hq, rfl⟩, h⟩ := h
  refine ⟨q, hq, ?_⟩
  split at h
  · exact Or.inl (commits_committedTo h)
  · exact Or.inr (commits_commit h)

end Commits
end CommitBookingQuote
