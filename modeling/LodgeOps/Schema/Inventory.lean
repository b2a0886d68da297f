import LodgeOps.Store.Table

namespace Schema

inductive AllocationStatus
  | tentative | confirmed | released
deriving DecidableEq

inductive ReservationStatus
  | draft | hold | confirmed | checkedIn | checkedOut | cancelled | noShow
deriving DecidableEq

namespace ReservationStatus

def canTransitionTo : ReservationStatus → ReservationStatus → Bool
  | draft, next => next == hold || next == confirmed || next == cancelled
  | hold, next => next == draft || next == confirmed || next == cancelled
  | confirmed, next => next == checkedIn || next == cancelled || next == noShow
  | checkedIn, next => next == checkedOut
  | _, _ => false

def value : ReservationStatus → String
  | draft => "draft"
  | hold => "hold"
  | confirmed => "confirmed"
  | checkedIn => "checked_in"
  | checkedOut => "checked_out"
  | cancelled => "cancelled"
  | noShow => "no_show"

end ReservationStatus

inductive ResourceKind
  | place | asset | crew
deriving DecidableEq

inductive HousekeepingStatus
  | clean | dirty | inProgress | inspected | outOfService
deriving DecidableEq

inductive FolioStatus
  | opened | closed
deriving DecidableEq

-- A JSON attribute that may hold one comma-separated text or a list of texts.
inductive Listing
  | absent
  | text (s : String)
  | items (xs : List String)
deriving DecidableEq

structure ResourceCategory where
  id : ℕ
  propertyId : ℕ
  kind : ResourceKind
  name : String
  countsAsStay : Bool
  isActive : Bool
  sortOrder : ℤ := 0
deriving DecidableEq

structure Resource where
  id : ℕ
  propertyId : ℕ
  categoryId : ℕ
  capacity : ℕ
  isActive : Bool
  isBuyoutColumn : Bool
  buyoutAttribute : Bool
  capabilities : Listing
  specialties : Listing
  languages : Listing
  name : String := ""
deriving DecidableEq

def Resource.isBuyout (r : Resource) : Bool := r.isBuyoutColumn || r.buyoutAttribute

structure ResourceBlock where
  id : ℕ
  resourceId : ℕ
  startsAt : ℤ
  endsAt : ℤ
deriving DecidableEq

structure ProgramResourceRequirement where
  resourceCategoryId : ℕ
  minimumQuantity : ℕ
  guestsPerResource : Option ℕ
  capabilities : Listing
  languages : Listing
deriving DecidableEq

structure Program where
  id : ℕ
  propertyId : ℕ
  isActive : Bool
  requiresAccommodation : Bool
  defaultDurationMinutes : Option ℤ
  capacity : Option ℕ
  requirements : List ProgramResourceRequirement
  name : String := ""
  priceMinor : ℤ := 0
  currency : String := "USD"
deriving DecidableEq

structure ServiceOccurrence where
  id : ℕ
  programId : ℕ
  propertyId : ℕ
  startsAt : ℤ
  endsAt : ℤ
  capacity : ℕ
  isCancelled : Bool
deriving DecidableEq

structure Allocation where
  id : ℕ
  reservationId : ℕ
  requestedCategoryId : Option ℕ
  resourceId : Option ℕ
  serviceOccurrenceId : Option ℕ
  status : AllocationStatus
  startsAt : ℤ
  endsAt : ℤ
  quantity : ℕ
deriving DecidableEq

structure CancellationTier where
  daysBeforeArrival : ℤ
  retainedBasisPoints : ℤ
  minimumFeeMinor : ℤ
deriving DecidableEq

inductive DepositRequirement
  | fixed (amountMinor : ℤ)
  | percentage (basisPoints : ℤ)
deriving DecidableEq

structure DepositPolicy where
  requirement : DepositRequirement
  depositDueOffsetDays : ℤ
  balanceDueOffsetDays : ℤ
deriving DecidableEq

structure Reservation where
  id : ℕ
  propertyId : ℕ
  programId : Option ℕ
  bookingQuoteId : Option ℕ
  status : ReservationStatus
  startsAt : ℤ
  endsAt : ℤ
  holdExpiresAt : Option ℤ
  adults : ℕ
  children : ℕ
  currency : String
  subtotalMinor : ℤ
  taxMinor : ℤ
  totalMinor : ℤ
  depositPolicy : Option DepositPolicy
  cancellationTiers : List CancellationTier
  folioStatus : FolioStatus
  closureReason : Option String
  revision : ℕ
  primaryGuestId : Option ℕ := none
  infants : ℕ := 0
deriving DecidableEq

structure HousekeepingRecord where
  id : ℕ
  status : HousekeepingStatus
  updatedAt : ℤ
  updatedBy : Option ℕ
deriving DecidableEq

instance : Keyed ResourceCategory := ⟨ResourceCategory.id⟩
instance : Keyed Resource := ⟨Resource.id⟩
instance : Keyed ResourceBlock := ⟨ResourceBlock.id⟩
instance : Keyed Program := ⟨Program.id⟩
instance : Keyed ServiceOccurrence := ⟨ServiceOccurrence.id⟩
instance : Keyed Allocation := ⟨Allocation.id⟩
instance : Keyed Reservation := ⟨Reservation.id⟩

section Catalogue

-- The laws of a catalogue are what the saving hooks of Resource and ResourceCategory enforce.
structure Catalogue where
  categories : Table ResourceCategory
  resources : Table Resource
  timezone : ℕ → ℤ → ℤ
  categorised : ∀ r ∈ resources.rows, ∃ c, categories.find? r.categoryId = some c ∧
    c.propertyId = r.propertyId
  separated : ∀ r ∈ resources.rows, ∀ s ∈ resources.rows,
    r.categoryId = s.categoryId → r.isBuyout = s.isBuyout
  stayIsPlace : ∀ c ∈ categories.rows, c.countsAsStay = true → c.kind = .place

namespace Catalogue

def empty : Catalogue where
  categories := .empty
  resources := .empty
  timezone := fun _ _ => 0
  categorised := by simp [Table.empty]
  separated := by simp [Table.empty]
  stayIsPlace := by simp [Table.empty]

variable (k : Catalogue)

def category? (i : ℕ) : Option ResourceCategory := k.categories.find? i

def resource? (i : ℕ) : Option Resource := k.resources.find? i

def ofProperty (p : ℕ) : List Resource := k.resources.select fun r => r.propertyId == p

def buyouts (p : ℕ) : List Resource := (k.ofProperty p).filter Resource.isBuyout

def countsAsStay (r : Resource) : Bool :=
  (k.category? r.categoryId).any ResourceCategory.countsAsStay

def inProperty (c : ℕ) (p : ℕ) : Bool :=
  (k.category? c).any fun category => category.propertyId == p

variable {k}

theorem mem_ofProperty {r : Resource} {p : ℕ} :
    r ∈ k.ofProperty p ↔ r ∈ k.resources.rows ∧ r.propertyId = p := by
  simp [ofProperty, Table.mem_select]

theorem mem_buyouts {r : Resource} {p : ℕ} :
    r ∈ k.buyouts p ↔ r ∈ k.resources.rows ∧ r.propertyId = p ∧ r.isBuyout = true := by
  simp [buyouts, mem_ofProperty, and_assoc]

theorem resource?_eq_some {r : Resource} {i : ℕ} :
    k.resource? i = some r ↔ r ∈ k.resources.rows ∧ r.id = i :=
  Table.find?_eq_some

theorem category_of_resource {r : Resource} (hr : r ∈ k.resources.rows) :
    ∃ c, k.category? r.categoryId = some c ∧ c.propertyId = r.propertyId :=
  k.categorised r hr

end Catalogue
end Catalogue
end Schema
