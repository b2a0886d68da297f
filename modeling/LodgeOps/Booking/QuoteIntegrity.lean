import LodgeOps.Booking.BookedTotals
import LodgeOps.Inventory.Admission

namespace QuoteIntegrity
open Schema Transaction BookingQuoteService CommitBookingQuote Availability BookedTotals

section Copies

structure Copies where
  propertyId : ℕ
  programId : Option ℕ
  resourceCategoryId : ℕ
  resourceId : Option ℕ
  startsAt : ℤ
  endsAt : ℤ
  adults : ℤ
  children : ℤ
  infants : ℤ
  currency : String
  subtotalMinor : ℤ
  discountMinor : ℤ
  taxMinor : ℤ
  totalMinor : ℤ
  depositPolicySnapshot : Option DepositPolicy
  cancellationPolicySnapshot : Option (List CancellationTier)
  calculationSnapshot : CalculationSnapshot
  checksum : QuotePayload
  expiresAt : ℤ
  lines : List BookingQuoteLine
deriving DecidableEq

-- What the commit takes from a quote into the reservation, its allocation and its folio.
def copies (q : BookingQuote) : Copies where
  propertyId := q.propertyId
  programId := q.programId
  resourceCategoryId := q.resourceCategoryId
  resourceId := q.resourceId
  startsAt := q.startsAt
  endsAt := q.endsAt
  adults := q.adults
  children := q.children
  infants := q.infants
  currency := q.currency
  subtotalMinor := q.subtotalMinor
  discountMinor := q.discountMinor
  taxMinor := q.taxMinor
  totalMinor := q.totalMinor
  depositPolicySnapshot := q.depositPolicySnapshot
  cancellationPolicySnapshot := q.cancellationPolicySnapshot
  calculationSnapshot := q.calculationSnapshot
  checksum := q.checksum
  expiresAt := q.expiresAt
  lines := q.lines

end Copies

section Venue

def alone {ρ : Type} [Keyed ρ] (r : ρ) : Table ρ := ⟨[r], Keyed.id r + 1, by simp, by simp⟩

theorem find?_alone {ρ : Type} [Keyed ρ] (r : ρ) : (alone r).find? (Keyed.id r) = some r :=
  Table.find?_eq_some.mpr ⟨List.mem_singleton_self r, rfl⟩

variable (q : BookingQuote)

def room : Resource where
  id := q.resourceId.getD 0
  propertyId := q.propertyId
  categoryId := q.resourceCategoryId
  capacity := 1
  isActive := true
  isBuyoutColumn := false
  buyoutAttribute := false
  capabilities := .absent
  specialties := .absent
  languages := .absent

def cabins : ResourceCategory where
  id := q.resourceCategoryId
  propertyId := q.propertyId
  kind := .place
  name := "Cabins"
  countsAsStay := true
  isActive := true

def lodge : Catalogue where
  categories := alone (cabins q)
  resources := alone (room q)
  timezone := fun _ _ => 0
  categorised := by
    intro r hr
    rw [List.mem_singleton.mp hr]
    exact ⟨cabins q, find?_alone (cabins q), rfl⟩
  separated := by
    intro r hr s hs _
    rw [List.mem_singleton.mp hr, List.mem_singleton.mp hs]
  stayIsPlace := by
    intro c hc _
    rw [List.mem_singleton.mp hc]
    rfl

variable {q} {db : Database} {a : Allocation}

section Vacant
variable (hcatalogue : db.catalogue = lodge q) (hblocks : db.blocks = .empty)
variable (hown : ∀ c ∈ db.allocations.rows, c.id = a.id)
include hblocks hown

include hcatalogue

end Vacant
def visitor : GuestData where
  firstName := "Ana"

def seated (q : BookingQuote) : Reservation := booked q (newGuest visitor 0) 0

def asked (q : BookingQuote) : Allocation := stayAllocation q (seated q) .tentative

end Venue

section Tampering
variable {s s' db db' : Database} {q q' : BookingQuote} {input : BookingInput} {r : Reservation}

-- A stored quote passes its own check, and a change to what the commit copies is never committed.
structure Guarded (s' : Database) (q q' : BookingQuote) : Prop where
  untouched : ∀ stored, s'.quotes.find? q.id = some stored → stored.checksum = checksumFor stored
  tampered : copies q' ≠ copies q → ∀ db guestId data companionIds actorId r db',
    db.quotes.find? q.id = some q' →
      ¬ Commits (handle q.id guestId data companionIds actorId) db r db'

end Tampering

section Scenario

end Scenario
end QuoteIntegrity
