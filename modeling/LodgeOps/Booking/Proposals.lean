import LodgeOps.Booking.Commitment
import LodgeOps.Store.Frames

namespace ProposalService
open Schema Transaction BookingQuoteService

section Tables

inductive ProposalStatus
  | draft | sent | accepted | rejected | expired
deriving DecidableEq

structure ProposalLine where
  description : String
  quantityThousandths : ℤ
  unitAmountMinor : ℤ
  amountMinor : ℤ
  taxAmountMinor : ℤ
deriving DecidableEq

structure SentFacts where
  sentAt : ℤ
  propertyId : ℕ
  guestId : Option ℕ
  guestName : Option String
  guestEmail : Option String
  startsAt : ℤ
  endsAt : ℤ
  adults : ℤ
  children : ℤ
deriving DecidableEq

structure Snapshot where
  pricingSource : Option String
  bookingQuoteId : ℕ
  bookingQuoteChecksum : QuotePayload
  programId : Option ℕ
  title : String
  notes : Option String
  lines : List ProposalLine
  subtotalMinor : ℤ
  discountMinor : ℤ
  taxMinor : ℤ
  totalMinor : ℤ
  currency : String
  depositPolicySnapshot : Option DepositPolicy
  cancellationPolicySnapshot : Option (List CancellationTier)
  calculationSnapshot : CalculationSnapshot
  sent : Option SentFacts := none
deriving DecidableEq

structure DraftAttributes where
  bookingQuoteId : Option ℕ
  inquirySource : Option String
  propertyId : ℕ
  primaryGuestId : Option ℕ
  startsAt : ℤ
  endsAt : ℤ
  adults : ℤ
  children : ℤ
  currency : String
  totalMinor : ℤ
  taxMinor : ℤ
  snapshot : Snapshot
  expiresAt : Option ℤ
deriving DecidableEq

structure Proposal extends DraftAttributes where
  id : ℕ
  reference : String
  version : ℕ
  status : ProposalStatus
  createdBy : Option ℕ
  reservationId : Option ℕ := none
  sentAt : Option ℤ := none
  acceptedAt : Option ℤ := none
  convertedAt : Option ℤ := none
deriving DecidableEq

instance : Keyed Proposal := ⟨Proposal.id⟩

structure Desk where
  db : Database
  proposals : Table Proposal := .empty

def Desk.withDb (s : Desk) (db : Database) : Desk := { s with db := db }

def Desk.line (s : Desk) (reference : String) : List Proposal :=
  s.proposals.select fun p => p.reference == reference

abbrev DeskTx (α : Type) := Transaction Failure Desk α

def onDb {α : Type} (x : Tx α) : DeskTx α := zoom Desk.db Desk.withDb x

end Tables

section Drafts

structure ProposalData where
  bookingQuoteId : Option ℕ := none
  inquirySource : Option String := none
  propertyId : Option ℕ := none
  primaryGuestId : Option ℕ := none
  expiresAt : Option ℤ := none
  title : Option String := none
  notes : Option String := none

def workflow (message : String) : Failure := .commercialWorkflow message

def Uncommitted (q : BookingQuote) : Prop :=
  q.status = .pending ∧ q.reservationId = none ∧ q.committedAt = none

instance (q : BookingQuote) : Decidable (Uncommitted q) := by
  unfold Uncommitted
  infer_instance

def proposalLine (l : BookingQuoteLine) : ProposalLine where
  description := l.description
  quantityThousandths := l.quantityThousandths
  unitAmountMinor := l.unitAmountMinor
  amountMinor := l.grossAmountMinor
  taxAmountMinor := l.taxAmountMinor

def snapshotOf (q : BookingQuote) (data : ProposalData) : Snapshot where
  pricingSource := some "booking_quote"
  bookingQuoteId := q.id
  bookingQuoteChecksum := q.checksum
  programId := q.programId
  title := data.title.getD "Lodge stay proposal"
  notes := data.notes
  lines := q.lines.map proposalLine
  subtotalMinor := q.subtotalMinor
  discountMinor := q.discountMinor
  taxMinor := q.taxMinor
  totalMinor := q.totalMinor
  currency := q.currency
  depositPolicySnapshot := q.depositPolicySnapshot
  cancellationPolicySnapshot := q.cancellationPolicySnapshot
  calculationSnapshot := q.calculationSnapshot

def attributesOf (q : BookingQuote) (data : ProposalData) : DraftAttributes where
  bookingQuoteId := some q.id
  inquirySource := data.inquirySource
  propertyId := q.propertyId
  primaryGuestId := data.primaryGuestId
  startsAt := q.startsAt
  endsAt := q.endsAt
  adults := q.adults
  children := q.children
  currency := q.currency
  totalMinor := q.totalMinor
  taxMinor := q.taxMinor
  snapshot := snapshotOf q data
  expiresAt := some (data.expiresAt.getD q.expiresAt)

def backs (quoteId : ℕ) (except : Option ℕ) (p : Proposal) : Bool :=
  p.bookingQuoteId == some quoteId && some p.id != except

def draftAttributes (s : Desk) (data : ProposalData) (proposalId : Option ℕ) :
    Except Failure DraftAttributes := do
  let quoteId ← found data.bookingQuoteId
    (workflow "A server-priced booking quote is required for every proposal version.")
  let quote ← found (s.db.quotes.find? quoteId) .modelNotFound
  refuse (¬ Uncommitted quote ∨ s.db.isFuture quote.expiresAt = false)
    (workflow "A proposal requires a pending, uncommitted, unexpired server quote.")
  refuse (s.proposals.rows.any (backs quote.id proposalId) = true) (workflow
    "A server quote may back only one proposal version. Create a fresh quote for a revision.")
  refuse (data.propertyId.any (fun i => quote.propertyId != i) = true)
    (workflow "The server-priced quote must belong to the proposal property.")
  refuse (data.primaryGuestId.any (fun i => (s.db.guests.find? i).isNone) = true)
    (workflow "The proposal guest must belong to this tenant.")
  .ok (attributesOf quote data)

def newProposal (a : DraftAttributes) (reference : String) (version : ℕ) (actorId : Option ℕ)
    (i : ℕ) : Proposal where
  toDraftAttributes := a
  id := i
  reference := reference
  version := version
  status := .draft
  createdBy := actorId

theorem names_newProposal (a : DraftAttributes) (reference : String) (version : ℕ)
    (actorId : Option ℕ) : Names (newProposal a reference version actorId) :=
  fun _ => rfl

def store (a : DraftAttributes) (reference : String) (version : ℕ) (actorId : Option ℕ) :
    DeskTx Proposal := do
  let s ← get
  reject (s.proposals.rows.any (fun p => p.reference == reference && p.version == version) = true)
    (.runtime "SQLSTATE[23505]: Unique violation: proposals_reference_version_unique")
  set { s with
    proposals := s.proposals.insert (newProposal a reference version actorId)
      (names_newProposal _ _ _ _) }
  pure (newProposal a reference version actorId s.proposals.next)

def createDraft (data : ProposalData) (reference : Option String) (ulid : String)
    (actorId : Option ℕ) : DeskTx Proposal := do
  let a ← check fun s => draftAttributes s data none
  store a (reference.getD ("Q-" ++ upper ulid)) 1 actorId

end Drafts

section Guards

def locked (i : ℕ) : DeskTx Proposal := do
  let s ← get
  orFail (s.proposals.find? i) .modelNotFound

def assertDraft (p : Proposal) : Except Failure Unit :=
  refuse (p.status ≠ .draft)
    (workflow "Only draft proposals may be edited. Create a revision instead.")

def assertServerPriced (p : Proposal) : Except Failure Unit :=
  refuse (p.bookingQuoteId = none ∨ p.snapshot.pricingSource ≠ some "booking_quote") (workflow
    "Legacy manually priced proposals are read-only and cannot be sent, revised, or converted. Create a server-priced proposal.")

def assertPendingQuote (s : Desk) (p : Proposal) : Except Failure Unit := do
  let quote ← found (p.bookingQuoteId.bind s.db.quotes.find?) .modelNotFound
  refuse (¬ Uncommitted quote ∨ s.db.isFuture quote.expiresAt = false) (workflow
    "The linked server quote is no longer pending and uncommitted. Create a fresh proposal revision.")

def latest? (s : Desk) (reference : String) : Option Proposal :=
  s.proposals.oldest? (fun p => p.reference == reference) fun p => -(p.version : ℤ)

def assertLatestVersion (s : Desk) (p : Proposal) : Except Failure Unit := do
  let latest ← found (latest? s p.reference) .modelNotFound
  refuse (latest.id ≠ p.id)
    (workflow "Only the latest proposal version may be sent or converted.")

def assertGuestIdentity (s : Desk) (p : Proposal) : Except Failure Unit :=
  refuse ((p.primaryGuestId.bind s.db.guests.find?).isNone = true)
    (workflow "A current tenant guest is required before sending or converting a proposal.")

def isPast (s : Desk) (t : Option ℤ) : Bool := t.any fun e => decide (e < s.db.clock)

end Guards

section Commands

-- `expiresAt` is present or absent, and may be null when present.
structure UpdateData where
  inquirySource : Option String := none
  primaryGuestId : Option ℕ := none
  expiresAt : Option (Option ℤ) := none
  title : Option String := none
  notes : Option String := none

def mergedData (p : Proposal) (data : UpdateData) : ProposalData where
  bookingQuoteId := p.bookingQuoteId
  inquirySource := data.inquirySource.or p.inquirySource
  propertyId := some p.propertyId
  primaryGuestId := data.primaryGuestId.or p.primaryGuestId
  expiresAt := data.expiresAt.getD p.expiresAt
  title := some (data.title.getD p.snapshot.title)
  notes := data.notes.or p.snapshot.notes

def redrafted (a : DraftAttributes) (p : Proposal) : Proposal := { p with toDraftAttributes := a }

theorem keeps_redrafted (a : DraftAttributes) : Keeps (redrafted a) := fun _ => rfl

def updateDraft (i : ℕ) (data : UpdateData) : DeskTx Unit := do
  let p ← locked i
  check fun _ => assertDraft p
  check fun _ => assertServerPriced p
  let a ← check fun s => draftAttributes s (mergedData p data) (some p.id)
  modify fun s => { s with
    proposals := s.proposals.update p.id (redrafted a) (keeps_redrafted _) }

def sentFacts (s : Desk) (p : Proposal) : SentFacts where
  sentAt := s.db.clock
  propertyId := p.propertyId
  guestId := (p.primaryGuestId.bind s.db.guests.find?).map Guest.id
  guestName := (p.primaryGuestId.bind s.db.guests.find?).map fun g =>
    trim (g.firstName ++ " " ++ g.lastName.getD "")
  guestEmail := (p.primaryGuestId.bind s.db.guests.find?).bind Guest.email
  startsAt := p.startsAt
  endsAt := p.endsAt
  adults := p.adults
  children := p.children

def dispatched (facts : SentFacts) (now : ℤ) (p : Proposal) : Proposal :=
  { p with
    snapshot := { p.snapshot with sent := some facts }
    status := .sent
    sentAt := some now }

theorem keeps_dispatched (facts : SentFacts) (now : ℤ) : Keeps (dispatched facts now) :=
  fun _ => rfl

def assertSendable (s : Desk) (p : Proposal) : Except Failure Unit := do
  assertDraft p
  assertServerPriced p
  assertLatestVersion s p
  assertPendingQuote s p
  assertGuestIdentity s p
  refuse (isPast s p.expiresAt = true)
    (workflow "An expired proposal cannot be sent. Update its expiry first.")

def send (i : ℕ) : DeskTx Unit := do
  let p ← locked i
  if p.status = .sent then pure ()
  else do
    check fun s => assertSendable s p
    modify fun s => { s with
      proposals := s.proposals.update p.id (dispatched (sentFacts s p) s.db.clock)
        (keeps_dispatched _ _) }

def inputOf (q : QuoteInputs) : BookingInput where
  propertyId := some q.propertyId
  resourceCategoryId := some q.resourceCategoryId
  ratePlanId := some q.ratePlanId
  startsAt := some q.startsAt
  endsAt := some q.endsAt
  adults := q.adults
  children := q.children
  infants := q.infants
  resourceId := q.resourceId
  programId := q.programId
  optionalServices := q.optionalServices
  voucherId := q.voucherId
  promotionSessionHash := q.promotionSessionHash
  amendmentOfReservationId := q.amendmentOfReservationId

def revisionData (p : Proposal) (quote : BookingQuote) : ProposalData where
  bookingQuoteId := some quote.id
  inquirySource := p.inquirySource
  primaryGuestId := p.primaryGuestId
  title := some p.snapshot.title
  notes := p.snapshot.notes
  expiresAt := some quote.expiresAt

def revise (i : ℕ) (actorId : Option ℕ) : DeskTx Proposal := do
  let p ← locked i
  reject (p.status = .accepted) (workflow "An accepted proposal cannot be revised.")
  check fun _ => assertServerPriced p
  check fun s => assertLatestVersion s p
  let s ← get
  let latest ← orFail (latest? s p.reference) .modelNotFound
  let source ← orFail (p.bookingQuoteId.bind s.db.quotes.find?) .modelNotFound
  let quote ← onDb (BookingQuoteService.create (inputOf source.inputs))
  let a ← check fun t => draftAttributes t (revisionData p quote) none
  store a p.reference (latest.version + 1) actorId

def acceptedReservation (p : Proposal) (reservationId : ℕ) : DeskTx Reservation := do
  let s ← get
  let r ← orFail (s.db.reservation? reservationId) .modelNotFound
  reject (p.primaryGuestId = none ∨ r.primaryGuestId ≠ p.primaryGuestId)
    (workflow "The committed quote reservation belongs to a different guest.")
  pure r

def acceptedAs (reservationId : ℕ) (now : ℤ) (p : Proposal) : Proposal :=
  { p with
    reservationId := some reservationId
    status := .accepted
    acceptedAt := some now
    convertedAt := some now }

theorem keeps_acceptedAs (reservationId : ℕ) (now : ℤ) : Keeps (acceptedAs reservationId now) :=
  fun _ => rfl

-- The status `expired` that an expired proposal is given is rolled back by the exception after it.
def assertConvertible (s : Desk) (p : Proposal) : Except Failure Unit := do
  refuse (p.status ≠ .sent)
    (workflow "Only a sent proposal can be converted to a reservation.")
  assertServerPriced p
  assertLatestVersion s p
  assertGuestIdentity s p
  refuse (isPast s p.expiresAt = true)
    (workflow "This proposal has expired. Create a revision before converting it.")

def convertSent (p : Proposal) (actorId : Option ℕ) : DeskTx Reservation := do
  check fun s => assertConvertible s p
  let s ← get
  let quote ← orFail (p.bookingQuoteId.bind s.db.quotes.find?) .modelNotFound
  reject (¬ Uncommitted quote) (workflow
    "Only a pending, uncommitted server quote can convert the latest sent proposal.")
  let r ← onDb (CommitBookingQuote.handle quote.id p.primaryGuestId {} [] actorId)
  modify fun t => { t with
    proposals := t.proposals.update p.id (acceptedAs r.id t.db.clock) (keeps_acceptedAs _ _) }
  pure r

def convertToReservation (i : ℕ) (actorId : Option ℕ) : DeskTx Reservation := do
  let p ← locked i
  match p.status, p.reservationId with
  | .accepted, some reservationId => acceptedReservation p reservationId
  | _, _ => convertSent p actorId

end Commands
end ProposalService
