import LodgeOps.Store.Table
import LodgeOps.Store.Transaction
import LodgeOps.Store.Occupancy
import LodgeOps.Store.Journal
import LodgeOps.Store.Workers
import LodgeOps.Store.Leases
import LodgeOps.Store.Placement
import LodgeOps.Store.Persistence
import LodgeOps.Schema.Inventory
import LodgeOps.Schema.Ledger
import LodgeOps.Schema.Provider
import LodgeOps.Schema.DirectBooking
import LodgeOps.Schema.Booking
import LodgeOps.Schema.Retail
import LodgeOps.Schema.Database
import LodgeOps.Schema.Integrations
import LodgeOps.Ledger.Folio
import LodgeOps.Ledger.Payments
import LodgeOps.Ledger.Refunds
import LodgeOps.Ledger.Disputes
import LodgeOps.Ledger.Settlement
import LodgeOps.Ledger.LedgerRuns
import LodgeOps.Ledger.Outflow
import LodgeOps.Ledger.DisputeEffect
import LodgeOps.Ledger.OutstandingRefunds
import LodgeOps.Ledger.ProviderRefunds
import LodgeOps.Ledger.GatewayRefunds
import LodgeOps.Ledger.Retail
import LodgeOps.Ledger.ClosedFolio
import LodgeOps.Inventory.Availability
import LodgeOps.Inventory.Clearance
import LodgeOps.Inventory.AllocationWorkflow
import LodgeOps.Inventory.Soundness
import LodgeOps.Inventory.Reallocation
import LodgeOps.Inventory.ProgramRequirement
import LodgeOps.Inventory.Closure
import LodgeOps.Inventory.ReservationService
import LodgeOps.Inventory.Preservation
import LodgeOps.Inventory.Overbooking
import LodgeOps.Inventory.InHouse
import LodgeOps.Inventory.Admission
import LodgeOps.Inventory.SharedCapacity
import LodgeOps.Inventory.AvailabilityQuery
import LodgeOps.Inventory.CategoryHolds
import LodgeOps.Inventory.Cancellation
import LodgeOps.DirectBooking.StateMachine
import LodgeOps.DirectBooking.EventLog
import LodgeOps.Booking.Promotions
import LodgeOps.Booking.Quotes
import LodgeOps.Booking.QuoteTotals
import LodgeOps.Booking.PaymentSchedule
import LodgeOps.Booking.Commitment
import LodgeOps.Booking.Amendment
import LodgeOps.Booking.BookingRuns
import LodgeOps.Booking.BookedTotals
import LodgeOps.Booking.MoneyReceived
import LodgeOps.Integrations.Connections
import LodgeOps.Integrations.Runs
import LodgeOps.Integrations.Events
import LodgeOps.Integrations.Outcomes
import LodgeOps.Integrations.Deliveries
import LodgeOps.Integrations.KillSwitch
import LodgeOps.Integrations.CursorSafety
import LodgeOps.Commands.CanonicalJson
import LodgeOps.Commands.FinancialCommands
import LodgeOps.Commands.DirectBookingIdempotency
import LodgeOps.Commands.IdempotentCommand
import LodgeOps.Commands.CompletedRecords
import LodgeOps.Store.Frames
import LodgeOps.Payments.Frames
import LodgeOps.DirectBooking.PaymentReconciler
import LodgeOps.Payments.ProviderEvents
import LodgeOps.Payments.AbsorbingEvents
import LodgeOps.Payments.LiveCheckouts
import LodgeOps.Payments.RefundedCharges
import LodgeOps.Booking.ProvisionedDeposits
import LodgeOps.Booking.ScheduledDeposits
import LodgeOps.Schema.CashDesk
import LodgeOps.Payments.CashDrawer
import LodgeOps.Payments.DrawerConservation
import LodgeOps.Store.RevisionLog
import LodgeOps.Payments.RevisionHeads
import LodgeOps.Schema.Automation
import LodgeOps.Automation.Templates
import LodgeOps.Automation.ActionExecutor
import LodgeOps.Automation.Delivery
import LodgeOps.Automation.Effects
import LodgeOps.Automation.Publication
import LodgeOps.Automation.OutboxPublication
import LodgeOps.Automation.DeliveryAudit
import LodgeOps.Integrations.EndpointKeys
import LodgeOps.Integrations.Webhooks
import LodgeOps.Integrations.Inbox
import LodgeOps.Integrations.Mappings
import LodgeOps.Integrations.MappingVersions
import LodgeOps.Documents.Generation
import LodgeOps.Documents.Artifacts
import LodgeOps.Store.Precedence
import LodgeOps.Booking.RatePlanPublication
import LodgeOps.Store.Forest
import LodgeOps.Guests.Merge
import LodgeOps.Guests.MergeForest
import LodgeOps.Store.Roster
import LodgeOps.Guests.Parties
import LodgeOps.Guests.PartyCoherence
import LodgeOps.Booking.Proposals
import LodgeOps.Booking.Negotiations
import LodgeOps.Store.Trail
import LodgeOps.Tasks.Board
import LodgeOps.Tasks.Lifecycle
import LodgeOps.Tasks.History
import LodgeOps.Tasks.Generation
import LodgeOps.Tasks.Anchoring
import LodgeOps.Tasks.Regeneration
import LodgeOps.Payments.Evidence
import LodgeOps.Payments.EvidenceDecisions
import LodgeOps.Ledger.RoomCharges
import LodgeOps.Ledger.StockRoom
import LodgeOps.Ledger.StockBalances
import LodgeOps.Documents.PrintedBalances
import LodgeOps.Payments.ManualReferences
import LodgeOps.Store.RunningTotals
import LodgeOps.Store.Shares
import LodgeOps.Booking.PromotionBounds
import LodgeOps.Booking.QuoteArithmetic
import LodgeOps.Booking.TaxAllocation
import LodgeOps.Booking.QuoteLedger
import LodgeOps.Booking.InclusiveTaxes
import LodgeOps.Inventory.ReleasedAllocations
import LodgeOps.Inventory.ReallocationPlan
import LodgeOps.Store.Nearest
import LodgeOps.Ledger.ExchangeRates
import LodgeOps.Store.PrefixCodes
import LodgeOps.Commands.CanonicalText
import LodgeOps.Commands.CanonicalIdentity
import LodgeOps.Ledger.FolioReversals
import LodgeOps.Store.Demands
import LodgeOps.Inventory.JointRequirements
import LodgeOps.Payments.RemainingCorrections
import LodgeOps.Store.Patterns
import LodgeOps.Payments.SensitiveData
import LodgeOps.Payments.CardNumbers
import LodgeOps.Payments.SettlementReports
import LodgeOps.Payments.SettlementFates
import LodgeOps.Booking.QuoteIntegrity
import LodgeOps.Booking.QuoteReplay
import LodgeOps.Payments.RecordedOnce
import LodgeOps.Inventory.Suggestions
import LodgeOps.DirectBooking.PaymentRequests
import LodgeOps.DirectBooking.BookingApi
import LodgeOps.DirectBooking.ManualReview
import LodgeOps.Store.Evolution
import LodgeOps.DirectBooking.PublicHolds
import LodgeOps.DirectBooking.HoldRuns
import LodgeOps.Store.Quotas
import LodgeOps.Booking.PromotionUsage
import LodgeOps.Store.Batches
import LodgeOps.Booking.PromotionSettlement
import LodgeOps.Booking.PromotionLimits
import LodgeOps.Booking.PromotionHistory
