import LodgeOps.Store.Frames
import LodgeOps.Ledger.Disputes
import LodgeOps.Inventory.ReservationService
import LodgeOps.DirectBooking.StateMachine

namespace Schema
open Transaction

-- What lies outside the tables that a confirmation writes.
def Database.besidesStay (db : Database) : Database :=
  { db with
    reservations := .empty
    allocations := .empty
    serviceOccurrences := .empty
    deposits := .empty }

theorem reads_lockedReservation {i : ℕ} : Reads (lockedReservation i) := by
  intro s r s' hc
  exact (commits_lockedReservation.mp hc).2

end Schema

namespace Folio
open Schema Transaction
variable {γ : Type} {g : Database → γ} {db : Database} {r : Reservation} {d : LineDraft} {p : Payment}

-- The folio writes its lines and nothing else.
theorem createLine_spares (hg : ∀ db ls, g { db with folioLines := ls } = g db) :
    Spares g (createLine r d) db :=
  Spares.get_bind (Spares.bind (Spares.set (hg _ _)) fun _ _ _ => Spares.pure)

theorem postPayment_spares (hg : ∀ db ls, g { db with folioLines := ls } = g db)
    {actorId : Option ℕ} : Spares g (postPayment p actorId) db := by
  refine Spares.get_bind ?_
  split
  · exact Spares.pure
  · exact Spares.read_bind reads_lockedReservation fun _ => Spares.check_bind fun _ _ =>
      createLine_spares hg

theorem postProviderAdjustment_spares (hg : ∀ db ls, g { db with folioLines := ls } = g db)
    {type : FolioLineType} {description : String} {amount : ℤ} {metadata : LineMetadata} :
    Spares g (postProviderAdjustment p type description amount metadata) db :=
  Spares.reject_bind fun _ => Spares.read_bind reads_lockedReservation fun _ =>
    Spares.check_bind fun _ _ => createLine_spares hg

theorem reverse_spares (hg : ∀ db ls, g { db with folioLines := ls } = g db) {i : ℕ}
    {reason : String} {actorId : Option ℕ} : Spares g (reverse i reason actorId) db := by
  refine Spares.get_bind (Spares.orFail_bind fun _ _ => Spares.read_bind reads_lockedReservation
    fun _ => Spares.check_bind fun _ _ => ?_)
  split
  · exact Spares.pure
  · exact Spares.reject_bind fun _ => createLine_spares hg

end Folio

namespace PaymentService
open Schema Transaction
variable {γ : Type} {g : Database → γ} {db : Database} {r : Reservation} {p existing : Payment}
variable {attempt : PaymentAttempt} {request : PaymentRequest} {remote : ProviderPayment}
variable {reason : String} {i : ℕ}

-- What `g` sees lies outside of what a payment of the request writes.
structure Overlooks (g : Database → γ) (requestId : ℕ) : Prop where
  lines : ∀ db ls, g { db with folioLines := ls } = g db
  payments : ∀ db ps, g { db with payments := ps } = g db
  deposits : ∀ db ds, g { db with deposits := ds } = g db
  documents : ∀ db ds, g { db with documentRequests := ds } = g db
  requests : ∀ db paymentId paidAt, g { db with
    paymentRequests := db.paymentRequests.update requestId (settled paymentId paidAt) } = g db

theorem reads_lockedRequest : Reads (lockedRequest i) :=
  fun _ _ _ hc => (commits_lockedRequest.mp hc).2

theorem reads_lockedAttempt : Reads (lockedAttempt i) :=
  fun _ _ _ hc => (commits_lockedAttempt.mp hc).2

theorem reads_lockedDeposit {j : Option ℕ} : Reads (lockedDeposit j) :=
  fun _ _ _ hc => (commits_lockedDeposit.mp hc).2

theorem createPayment_spares (hg : ∀ db ps, g { db with payments := ps } = g db)
    {mk : ℕ → Payment} {hk : Names mk} : Spares g (createPayment mk hk) db :=
  Spares.get_bind (Spares.check_bind fun _ _ => Spares.reject_bind fun _ =>
    Spares.bind (Spares.set (hg _ _)) fun _ _ _ => Spares.pure)

theorem settleRequest_spares (hg : Overlooks g i) {j : ℕ} {at' : ℤ} :
    Spares g (settleRequest i j at') db := Spares.modify (hg.requests _ _ _)

theorem settleDeposit_spares (hg : Overlooks g i) {d : Option Deposit} {j : ℕ} :
    Spares g (settleDeposit d j) db := by
  cases d with
  | none => exact Spares.pure
  | some d => exact Spares.modify (hg.deposits _ _)

theorem requestDocument_spares (hg : ∀ db ds, g { db with documentRequests := ds } = g db)
    {kind : DocumentKind} {key : String} {j : Option ℕ} :
    Spares g (requestDocument r kind key j) db :=
  Spares.get_bind (Spares.ite (fun _ => Spares.pure) fun _ => Spares.set (hg _ _))

theorem requestProviderReceipt_spares (hg : Overlooks g i) :
    Spares g (requestProviderReceipt r p) db :=
  Spares.get_bind (Spares.ite (fun _ => Spares.pure) fun _ => requestDocument_spares hg.documents)

theorem replayProvider_spares (hg : Overlooks g request.id) :
    Spares g (replayProvider r request attempt existing) db := by
  refine Spares.check_bind fun _ _ => Spares.ite (fun _ => ?_) fun _ => ?_
  · exact Spares.bind (requestProviderReceipt_spares hg) fun _ _ _ => Spares.pure
  · exact Spares.get_bind (Spares.reject_bind fun _ => Spares.bind (settleRequest_spares hg)
      fun _ _ _ => Spares.bind (requestProviderReceipt_spares hg) fun _ _ _ => Spares.pure)

theorem applyProvider_spares (hg : Overlooks g request.id) {reference : String} :
    Spares g (applyProvider r request attempt reference) db := by
  refine Spares.get_bind (Spares.reject_bind fun _ => Spares.reject_bind fun _ =>
    Spares.reject_bind fun _ => Spares.read_bind reads_lockedDeposit fun d =>
      Spares.reject_bind fun _ => Spares.bind (createPayment_spares hg.payments) fun payment _ _ => ?_)
  refine Spares.bind (Folio.postPayment_spares hg.lines) fun _ _ _ => ?_
  exact Spares.bind (settleDeposit_spares hg) fun _ _ _ => Spares.bind (settleRequest_spares hg)
    fun _ _ _ => Spares.bind (requestProviderReceipt_spares hg) fun _ _ _ => Spares.pure

theorem recordProvider_spares (hg : Overlooks g attempt.paymentRequestId) :
    Spares g (recordProvider attempt remote) db := by
  refine Spares.read_bind reads_lockedReservation fun _ => ?_
  intro payment t hc
  obtain ⟨request, _, hr, hrest⟩ := commits_bind.mp hc
  obtain ⟨hrow, rfl⟩ := commits_lockedRequest.mp hr
  have hid : request.id = attempt.paymentRequestId := (Table.find?_eq_some.mp hrow).2
  refine Spares.read_bind reads_lockedAttempt (fun _ => Spares.reject_bind fun _ =>
    Spares.get_bind ?_) payment t hrest
  split
  · exact replayProvider_spares (hid ▸ hg)
  · exact applyProvider_spares (hid ▸ hg)

theorem recordProviderNeedsReview_spares (hp : ∀ db ps, g { db with payments := ps } = g db)
    (hl : ∀ db ls, g { db with folioLines := ls } = g db) :
    Spares g (recordProviderNeedsReview attempt remote reason) db := by
  refine Spares.read_bind reads_lockedReservation fun _ => Spares.read_bind reads_lockedRequest
    fun _ => Spares.read_bind reads_lockedAttempt fun _ => Spares.get_bind ?_
  split
  · exact Spares.check_bind fun _ _ => Spares.pure
  · exact Spares.bind (createPayment_spares hp) fun _ _ _ =>
      Spares.bind (Folio.postPayment_spares hl) fun _ _ _ => Spares.pure

end PaymentService

namespace RecordProviderDispute
open Schema Transaction
variable {γ : Type} {g : Database → γ} {db : Database} {r : Reservation} {p : Payment}
variable {d : ProviderDispute} {attempt : PaymentAttempt} {event : ProviderEvent}
variable {remote : DisputeFacts}

-- What `g` sees lies outside of what a dispute writes.
structure Overlooks (g : Database → γ) : Prop where
  lines : ∀ db ls, g { db with folioLines := ls } = g db
  disputes : ∀ db ds, g { db with disputes := ds } = g db
  revisions : ∀ db vs, g { db with disputeRevisions := vs } = g db

theorem reads_locate : Reads (locate event remote) := by
  intro s found s' hc
  simp only [locate, commits_bind, commits_get, commits_reject, commits_orFail,
    commits_lockedReservation, commits_pure] at hc
  obtain ⟨_, _, ⟨rfl, rfl⟩, _, _, ⟨_, rfl⟩, _, _, ⟨_, rfl⟩, _, _, ⟨_, rfl⟩, _, _, ⟨_, rfl⟩, _, _,
    ⟨_, rfl⟩, _, rfl⟩ := hc
  rfl

theorem saveDispute_spares (hg : Overlooks g) {i : ℕ} {f : ProviderDispute → ProviderDispute}
    {hf : Keeps f} : Spares g (saveDispute i f hf) db := Spares.modify (hg.disputes _ _)

theorem firstOrCreate_spares (hg : Overlooks g) : Spares g (firstOrCreate r p attempt remote) db := by
  refine Spares.get_bind ?_
  split
  · exact Spares.pure
  · exact Spares.bind (Spares.set (hg.disputes _ _)) fun _ _ _ => Spares.pure

theorem recordRevision_spares (hg : Overlooks g) : Spares g (recordRevision d event remote) db :=
  Spares.get_bind (Spares.ite (fun _ => Spares.pure) fun _ =>
    Spares.bind (Spares.set (hg.revisions _ _)) fun _ _ _ => Spares.pure)

theorem debit_spares (hg : Overlooks g) : Spares g (debit d r p) db :=
  Spares.get_bind (Spares.ite (fun _ => saveDispute_spares hg) fun _ =>
    Spares.bind (Folio.postProviderAdjustment_spares hg.lines) fun _ _ _ => saveDispute_spares hg)

theorem credit_spares (hg : Overlooks g) {l : FolioLine} : Spares g (credit d l) db :=
  Spares.bind (Folio.reverse_spares hg.lines) fun _ _ _ => saveDispute_spares hg

theorem applyImpact_spares (hg : Overlooks g) : Spares g (applyImpact d r p) db := by
  refine Spares.get_bind ?_
  split
  · exact Spares.ite (fun _ => saveDispute_spares hg) fun _ => debit_spares hg
  · exact Spares.ite (fun _ => Spares.ite (fun _ => saveDispute_spares hg) fun _ =>
      credit_spares hg) fun _ => Spares.pure
  · exact saveDispute_spares hg
  · exact Spares.pure

theorem handle_spares (hg : Overlooks g) : Spares g (handle event remote) db :=
  Spares.read_bind reads_locate fun _ => Spares.reject_bind fun _ =>
    Spares.bind (firstOrCreate_spares hg) fun _ _ _ => Spares.bind (recordRevision_spares hg)
      fun _ _ _ => Spares.bind (saveDispute_spares hg) fun _ _ _ =>
        Spares.bind (applyImpact_spares hg) fun _ _ _ => Spares.get_bind Spares.orFail

end RecordProviderDispute

namespace AllocationWorkflow
open Schema Transaction
variable {γ : Type} {g : Database → γ} {db : Database} {a : Allocation}

theorem insertAllocation_spares (hg : ∀ db as, g { db with allocations := as } = g db) :
    Spares g (insertAllocation a) db :=
  Spares.get_bind (Spares.check_bind fun _ _ => Spares.bind (Spares.set (hg _ _)) fun _ _ _ =>
    Spares.pure)

theorem saveAllocation_spares (hg : ∀ db as, g { db with allocations := as } = g db) :
    Spares g (saveAllocation a) db :=
  Spares.get_bind (Spares.check_bind fun _ _ => Spares.set (hg _ _))

end AllocationWorkflow

namespace ReservationService
open Schema Transaction AllocationWorkflow
variable {db : Database} {r : Reservation} {program : Program}

section Places
variable {γ : Type} {g : Database → γ}

-- What `g` sees lies outside of the places a reservation takes.
structure Apart (g : Database → γ) : Prop where
  allocations : ∀ db as, g { db with allocations := as } = g db
  occurrences : ∀ db os, g { db with serviceOccurrences := os } = g db

theorem insertOccurrence_spares (hg : Apart g) {s e : ℤ} {capacity : ℕ} :
    Spares g (insertOccurrence program r s e capacity) db :=
  Spares.get_bind (Spares.reject_bind fun _ => Spares.bind (Spares.set (hg.occurrences _ _))
    fun _ _ _ => Spares.pure)

theorem serviceOccurrence_spares (hg : Apart g) : Spares g (serviceOccurrence r) db := by
  refine Spares.get_bind ?_
  split
  · exact Spares.pure
  · refine Spares.ite (fun _ => Spares.pure) fun _ => ?_
    exact Spares.bind (insertOccurrence_spares hg) fun _ _ _ =>
      Spares.bind (insertAllocation_spares hg.allocations) fun _ _ _ =>
        Spares.check_bind fun _ _ => saveAllocation_spares hg.allocations

end Places

theorem apart_besidesStay : Apart Database.besidesStay := ⟨fun _ _ => rfl, fun _ _ => rfl⟩

theorem firstOrCreateDeposit_spares {type : String} {amount dueAt : ℤ} :
    Spares Database.besidesStay (firstOrCreateDeposit r type amount dueAt) db :=
  Spares.get_bind (Spares.ite (fun _ => Spares.pure) fun _ => Spares.set rfl)

theorem provision_spares {i : ℕ} : Spares Database.besidesStay (provision i) db := by
  refine Spares.read_bind reads_lockedReservation fun _ =>
    Spares.bind (serviceOccurrence_spares apart_besidesStay) fun _ _ _ => Spares.get_bind ?_
  exact Spares.bind firstOrCreateDeposit_spares fun _ _ _ => firstOrCreateDeposit_spares

theorem confirm_spares {i : ℕ} : Spares Database.besidesStay (confirm i) db := by
  refine Spares.read_bind reads_lockedReservation fun locked =>
    Spares.ite (fun _ => provision_spares) fun _ => Spares.reject_bind fun _ =>
      Spares.get_bind (Spares.reject_bind fun _ => Spares.check_bind fun _ _ =>
        Spares.check_bind fun _ _ => ?_)
  refine Spares.bind (Spares.forM (fun _ _ _ => saveAllocation_spares fun _ _ => rfl) _)
    fun _ _ _ => ?_
  exact Spares.bind (Spares.modify rfl) fun _ _ _ => provision_spares

end ReservationService

namespace DirectBookingStateMachine
open Schema Transaction
variable {db : Database} {o : DirectBookingOrder} {next : DirectBookingOrderState}
variable {authority : DirectBookingTransitionAuthority} {identity : String}
variable {metadata : SafeMetadata}

theorem reads_lockedHeldReservation : Reads (lockedHeldReservation o) := by
  intro s h s' hc
  simp only [lockedHeldReservation, commits_bind, commits_get, commits_orFail, commits_reject,
    commits_pure] at hc
  obtain ⟨_, _, ⟨rfl, rfl⟩, _, _, ⟨_, rfl⟩, _, _, ⟨_, rfl⟩, _, _, ⟨_, rfl⟩, _, rfl⟩ := hc
  rfl

section Transitions
variable {γ : Type} {g : Database → γ}

-- A transition writes the order and its log, and an extension the hold and the request's expiry.
structure Blind (g : Database → γ) : Prop where
  orders : ∀ db os es, g { db with orders := os, orderEvents := es } = g db
  reservations : ∀ db rs, g { db with reservations := rs } = g db
  requests : ∀ db i expiresAt,
    g { db with paymentRequests := db.paymentRequests.update i (payableUntil expiresAt) } = g db

theorem extendRequest_spares (hg : Blind g) {at' : ℤ} : Spares g (extendRequest o at') db := by
  unfold extendRequest
  split
  · exact Spares.pure
  · exact Spares.get_bind (Spares.orFail_bind fun _ _ => Spares.set (hg.requests _ _ _))

theorem extensionAdjustment_spares (hg : Blind g) :
    Spares g (extensionAdjustment o metadata) db := by
  refine Spares.get_bind (Spares.orFail_bind fun _ _ => Spares.read_bind
    reads_lockedHeldReservation fun _ => Spares.reject_bind fun _ => Spares.orFail_bind fun _ _ =>
      Spares.orFail_bind fun _ _ => Spares.reject_bind fun _ => Spares.reject_bind fun _ =>
        Spares.reject_bind fun _ => ?_)
  exact Spares.bind (Spares.set (hg.reservations _ _)) fun _ _ _ =>
    Spares.bind (extendRequest_spares hg) fun _ _ _ => Spares.pure

theorem adjustment_spares (hg : Blind g) : Spares g (adjustment o next metadata) db := by
  refine Spares.ite (fun _ => ?_) fun _ => Spares.ite (fun _ => ?_) fun _ =>
    Spares.ite (fun _ => extensionAdjustment_spares hg) fun _ => Spares.pure
  · exact Spares.get_bind (Spares.orFail_bind fun _ _ => Spares.reject_bind fun _ => Spares.pure)
  · exact Spares.get_bind (Spares.orFail_bind fun _ _ => Spares.read_bind
      reads_lockedHeldReservation fun _ => Spares.reject_bind fun _ => Spares.pure)

theorem reads_lockedOrder {i : ℕ} : Reads (lockedOrder i) :=
  fun _ _ _ hc => (commits_lockedOrder.mp hc).2

theorem transition_spares (hg : Blind g) {i : ℕ} {version : ℤ} :
    Spares g (transition i next authority version identity metadata) db := by
  refine Spares.reject_bind fun _ => Spares.check_bind fun _ _ => Spares.read_bind
    reads_lockedOrder fun _ => Spares.get_bind ?_
  split
  · exact Spares.reject_bind fun _ => Spares.pure
  · refine Spares.reject_bind fun _ => Spares.reject_bind fun _ => Spares.reject_bind fun _ => ?_
    exact Spares.bind (adjustment_spares hg) fun _ _ _ => Spares.get_bind
      (Spares.bind (Spares.set (hg.orders _ _ _)) fun _ _ _ => Spares.pure)

end Transitions
end DirectBookingStateMachine
