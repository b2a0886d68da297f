import LodgeOps.Schema.Provider
import LodgeOps.Schema.DirectBooking
import LodgeOps.Schema.Booking
import LodgeOps.Schema.Retail
import LodgeOps.Store.Transaction

namespace Schema

inductive Failure
  | allocationConflict (message : String) (resourceId conflictingId : Option ℕ)
  | invalidStatusTransition (current next : ReservationStatus)
  | validation (field message : String)
  | commercialWorkflow (message : String)
  | logic (message : String)
  | modelNotFound
  | invalidArgument (message : String)
  | directBooking (code : DirectBookingErrorCode) (message : String)
  | runtime (message : String)
  | domain (message : String)
  | conflict (message : String)
deriving DecidableEq

structure Database where
  clock : ℤ
  catalogue : Catalogue
  holdTtlMinutes : ℤ := 30
  locale : String := "es"
  programs : Table Program := .empty
  blocks : Table ResourceBlock := .empty
  serviceOccurrences : Table ServiceOccurrence := .empty
  housekeeping : ℕ → Option HousekeepingRecord := fun _ => none
  reservations : Table Reservation := .empty
  allocations : Table Allocation := .empty
  folioLines : Table FolioLine := .empty
  payments : Table Payment := .empty
  deposits : Table Deposit := .empty
  changes : Table ReservationChange := .empty
  disputes : Table ProviderDispute := .empty
  providerRefunds : Table ProviderRefund := .empty
  disputeRevisions : Table ProviderDisputeRevision := .empty
  paymentRequests : Table PaymentRequest := .empty
  paymentAttempts : Table PaymentAttempt := .empty
  providerEvents : Table ProviderEvent := .empty
  documentRequests : Table DocumentGenerationRequest := .empty
  settings : ℕ → Option DirectBookingPropertySetting := fun _ => none
  quotes : Table BookingQuote := .empty
  quoteTtlMinutes : ℤ := 20
  properties : Table Property := .empty
  catalogItems : Table CatalogItem := .empty
  ratePlans : Table RatePlan := .empty
  depositPolicies : Table StoredDepositPolicy := .empty
  cancellationPolicies : Table StoredCancellationPolicy := .empty
  promotions : Table CommercialPromotion := .empty
  vouchers : Table Voucher := .empty
  promotionUsages : Table CommercialPromotionUsage := .empty
  voucherRedemptions : Table VoucherRedemption := .empty
  taxRules : Table TaxRule := .empty
  guests : Table Guest := .empty
  reservationGuests : Table ReservationGuest := .empty
  orders : Table DirectBookingOrder := .empty
  orderEvents : Table DirectBookingOrderEvent := .empty
  evidence : Table GuestPaymentEvidence := .empty
  retailSales : Table RetailSale := .empty
  retailSaleLines : Table RetailSaleLine := .empty
  stockMovements : Table StockMovement := .empty
  settlementEntries : Table SettlementEntry := .empty
  settlementRevisions : Table SettlementEntryRevision := .empty
  operationalTasks : Table OperationalTask := .empty
  exchangeRates : Table ExchangeRate := .empty

def blank (c : Char) : Bool :=
  c == ' ' || c == '\t' || c == '\n' || c == '\r' || c.toNat == 0 || c.toNat == 11

def trim (s : String) : String :=
  String.ofList ((s.toList.dropWhile blank).reverse.dropWhile blank).reverse

def trimmed? (s : Option String) : Option String :=
  (s.map trim).filter fun t => t != "" && t != "0"

def upper (s : String) : String := String.ofList (s.toList.map Char.toUpper)

-- A key as it is written into a retry identity.
def uuidText (i : ℕ) : String :=
  "00000000-0000-4000-8000-" ++ String.ofList (List.replicate (12 - (Nat.toDigits 10 i).length) '0') ++
    String.ofList (Nat.toDigits 10 i)

abbrev Tx (α : Type) := Transaction Failure Database α

namespace Database

def isFuture (db : Database) (t : ℤ) : Bool := decide (db.clock < t)

def reservation? (db : Database) (i : ℕ) : Option Reservation := db.reservations.find? i

def allocationsOf (db : Database) (i : ℕ) : List Allocation :=
  db.allocations.select fun a => a.reservationId == i

theorem reservation?_congr {db db' : Database} (h : db'.reservations = db.reservations) (i : ℕ) :
    db'.reservation? i = db.reservation? i := by
  unfold reservation?
  rw [h]

theorem mem_allocationsOf {db : Database} {i : ℕ} {a : Allocation} :
    a ∈ db.allocationsOf i ↔ a ∈ db.allocations.rows ∧ a.reservationId = i := by
  simp [allocationsOf, Table.mem_select]

end Database

def lockedReservation (i : ℕ) : Tx Reservation := do
  let db ← get
  Transaction.orFail (db.reservation? i) .modelNotFound

theorem commits_lockedReservation {i : ℕ} {r : Reservation} {db db' : Database} :
    Transaction.Commits (lockedReservation i) db r db' ↔
      db.reservation? i = some r ∧ db = db' := by
  simp [lockedReservation, and_comm]

end Schema
