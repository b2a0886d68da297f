import LodgeOps.Ledger.LedgerRuns
import LodgeOps.Ledger.Retail

namespace MoneyCalculator
open Schema

def reservationBalance (db : Database) (r : Reservation) : ℤ :=
  r.totalMinor - db.payments.total fun p =>
    if p.reservationId = r.id ∧ p.status = .succeeded then p.amountMinor else 0

end MoneyCalculator

namespace DocumentSnapshotFactory
open Schema

inductive Kind
  | reservationConfirmation | itinerary | folioStatement | paymentReceipt | refundReceipt
  | waiverCopy
deriving DecidableEq

structure Subject where
  payment : Option Payment := none
  change : Option ReservationChange := none
  acknowledgedBy : Option ℕ := none

def receipted (r : Reservation) (p : Payment) : Bool :=
  p.reservationId == r.id && (p.status == .succeeded || p.status == .refunded)

def returned (r : Reservation) (c : ReservationChange) : Bool :=
  c.reservationId == r.id && c.type == .refundCompleted && c.status == .completed

def assertSubject (kind : Kind) (r : Reservation) (s : Subject) : Except Failure Unit := do
  refuse (¬ (r.status = .confirmed ∨ r.status = .checkedIn ∨ r.status = .checkedOut))
    (.domain "Documents require a confirmed or completed reservation.")
  refuse (kind = .paymentReceipt ∧ s.payment.any (receipted r) = false)
    (.domain "Payment receipts require a succeeded or refunded payment for this reservation.")
  refuse (kind = .refundReceipt ∧ s.change.any (returned r) = false)
    (.domain "Refund receipts require a completed refund for this reservation.")
  refuse (kind = .waiverCopy ∧ s.acknowledgedBy ≠ some r.id)
    (.domain "Waiver copies require an acknowledgement for this reservation.")

structure Figures where
  currency : String
  totalMinor : ℤ
  paidMinor : ℤ
  balanceMinor : ℤ
deriving DecidableEq

def paid (db : Database) (r : Reservation) : ℤ :=
  db.payments.total fun p =>
    if p.reservationId = r.id ∧ (p.status = .succeeded ∨ p.status = .refunded)
    then p.amountMinor else 0

def base (db : Database) (r : Reservation) : Figures where
  currency := upper r.currency
  totalMinor := r.totalMinor
  paidMinor := paid db r
  balanceMinor := r.totalMinor - paid db r

-- Every kind of document begins with the figures of the reservation.
def build (db : Database) (kind : Kind) (r : Reservation) (s : Subject) :
    Except Failure Figures := do
  assertSubject kind r s
  .ok (base db r)

end DocumentSnapshotFactory

namespace PrintedBalances
open Schema Transaction Settlement RequestRefund

section Operations

inductive Operation
  | ledger (op : LedgerRuns.Operation)
  | booked (reservationId : ℕ) (type : FolioLineType) (description : String)
      (unitAmountMinor taxAmountMinor : ℤ) (quotedQuantity quotedUnit : Option ℤ)
      (amendmentQuoteId : Option ℕ) (actorId : Option ℕ)
  | sell (locationId : ℕ) (reference : String) (lines : List RetailPostingService.SaleLine)
      (reservationId : Option ℕ) (taxMinor : ℤ)

def soldTo : Option ℕ → Tx (Option Reservation)
  | none => pure none
  | some i => some <$> lockedReservation i

def quotedMetadata (quantity unit : Option ℤ) (amendmentQuoteId : Option ℕ) : LineMetadata where
  quotedQuantityThousandths := quantity
  quotedUnitAmountMinor := unit
  amendmentQuoteId := amendmentQuoteId

-- Quoted lines and amendments are part of the booked total.
def Operation.run : Operation → Tx Unit
  | ledger op => op.run
  | booked i type description unit tax quantity quoted quote actor =>
    LedgerRuns.quietly (lockedReservation i >>= fun r =>
      Folio.append r type description 1000 unit actor (quotedMetadata quantity quoted quote) tax true)
  | sell locationId reference lines reservationId taxMinor =>
    LedgerRuns.quietly (soldTo reservationId >>= fun reservation =>
      RetailPostingService.post locationId reference lines reservation taxMinor)

def worthless (quantityThousandths unitAmountMinor taxAmountMinor : ℤ) : Prop :=
  Folio.lineAmount unitAmountMinor quantityThousandths + taxAmountMinor = 0

-- Only a line that no payment stands on, and that is worth nothing, is struck off.
def Struck (db : Database) (l : FolioLine) : Prop :=
  (Folio.reversal? db l.id).isSome = true ∨
    (l.netAmountMinor + l.taxAmountMinor = 0 ∧ LedgerRuns.spares db l = true)

def givenAway (db : Database) (lines : List RetailPostingService.SaleLine) : Prop :=
  ∀ qs items, RetailPostingService.quantities lines = .ok qs →
    qs.mapM (RetailPostingService.soldItem db) = .ok items → ∀ x ∈ items, x.amount = 0

-- What a step has to be for the three figures to move together.
def Operation.Even (op : Operation) (db : Database) : Prop :=
  match op with
  | ledger (.completeRefund i _ _) => (completion? db i).isSome = true
  | ledger (.recordDispute event remote) => RecordProviderDispute.state remote = .lost →
      ∀ g, RecordProviderDispute.Found db event remote g → g.reservation.folioStatus = .closed
  | ledger (.appendLine _ _ _ quantity unit tax _ _) => worthless quantity unit tax
  | ledger (.reverseLine i _ _) => ∀ l, db.folioLines.find? i = some l → Struck db l
  | ledger (.elsewhere result) => book result = book db
  | ledger _ => True
  | booked .. => True
  | sell _ reference lines reservationId _ => reservationId = none ∨
      (RetailPostingService.sale? db reference).isSome = true ∨ givenAway db lines

end Operations

section Figures
variable {db : Database} {r : Reservation}

structure Agree (db : Database) (r : Reservation) : Prop where
  printed : ∀ kind subject f, DocumentSnapshotFactory.build db kind r subject = .ok f →
    f.balanceMinor = (Folio.summary db r).balanceMinor
  calculated : MoneyCalculator.reservationBalance db r = (Folio.summary db r).balanceMinor

structure Tame (lines : Table FolioLine) (l : FolioLine) : Prop where
  settling : settles lines l = true → l.metadata.includedInBookedTotal = false
  idle : settles lines l = false →
    l.metadata.includedInBookedTotal = true ∨ l.grossAmountMinor = 0
  chargeback : RecordProviderDispute.isChargeback l = true →
    l.netAmountMinor + l.taxAmountMinor = 0

-- Beside the payments nothing on the folio is worth anything, and nothing has been given back.
structure Level (b : Book) : Prop where
  sound : Sound b
  tame : ∀ l ∈ b.lines.rows, Tame b.lines l
  unreturned : ∀ c ∈ b.changes.rows, isCompletion c = false
  unrefunded : ∀ p ∈ b.payments.rows, p.status ≠ .refunded

theorem delta_eq_settled (h : Level (book db)) :
    (Folio.summary db r).balanceMinor = r.totalMinor + settled (book db) r.id := by
  have hlines : Folio.lineTotal db r.id FolioLine.grossAmountMinor = settled (book db) r.id +
      Folio.lineTotal db r.id fun l =>
        if l.metadata.includedInBookedTotal then l.grossAmountMinor else 0 := by
    refine Eq.trans (Table.total_congr fun l hl => ?_) (Table.total_add (t := db.folioLines))
    obtain ⟨hin, hout, _⟩ := h.tame l hl
    by_cases hr : l.reservationId = r.id
    · cases hs : settles (book db).lines l with
      | true => simp [hr, hin hs]
      | false =>
        rcases hout hs with hi | hz
        · simp [hr, hi]
        · simp [hr, hz]
    · simp [hr]
  simp only [Folio.summary]
  omega

theorem paid_eq_received : DocumentSnapshotFactory.paid db r = received (book db) r.id :=
  Table.total_congr fun p _ => by simp [kept]

theorem returned_eq_zero (h : Level (book db)) : returned (book db) r.id = 0 :=
  Table.total_eq_zero fun c hc => by simp [h.unreturned c hc]

theorem agree_of_level (h : Level (book db)) : Agree db r := by
  have hbal : settled (book db) r.id = -received (book db) r.id + returned (book db) r.id :=
    h.sound.balanced r.id
  have hsum := delta_eq_settled (r := r) h
  rw [hbal, returned_eq_zero h] at hsum
  refine ⟨fun kind subject f hf => ?_, ?_⟩
  · simp only [DocumentSnapshotFactory.build, bind_eq_ok] at hf
    obtain ⟨_, _, hf⟩ := hf
    obtain rfl : DocumentSnapshotFactory.base db r = f := Except.ok.inj hf
    have hb : (DocumentSnapshotFactory.base db r).balanceMinor =
        r.totalMinor - DocumentSnapshotFactory.paid db r := rfl
    rw [hb, hsum, paid_eq_received]
    omega
  · have hkept : received (book db) r.id = db.payments.total fun p =>
        if p.reservationId = r.id ∧ p.status = .succeeded then p.amountMinor else 0 :=
      Table.total_congr fun p hp => by simp [kept, h.unrefunded p hp]
    rw [hsum, MoneyCalculator.reservationBalance, ← hkept]
    omega

end Figures

section Steps
variable {b b' : Book} {db db' t : Database} {x l : FolioLine} {p : Payment} {r : Reservation}
variable {actor : Option ℕ} {reason : String} {i : ℕ} {j : Option ℕ} {now : ℤ}

structure Follows (b b' : Book) : Prop where
  lines : b'.lines = b.lines ∨ ∃ x, Table.Appends b.lines b'.lines x ∧ Tame b'.lines x
  changes : ∀ c ∈ b'.changes.rows, c ∈ b.changes.rows ∨ isCompletion c = false
  payments : ∀ p ∈ b'.payments.rows, p ∈ b.payments.rows ∨ p.status ≠ .refunded

theorem follows_refl : Follows b b :=
  ⟨Or.inl rfl, fun _ hc => Or.inl hc, fun _ hp => Or.inl hp⟩

theorem follows_lines (hl : db'.folioLines = db.folioLines ∨
      ∃ x, Table.Appends db.folioLines db'.folioLines x ∧ Tame db'.folioLines x)
    (hc : db'.changes = db.changes)
    (hp : ∀ q ∈ db'.payments.rows, q ∈ db.payments.rows ∨ q.status ≠ .refunded) :
    Follows (book db) (book db') := by
  refine ⟨hl, fun c hmem => Or.inl ?_, hp⟩
  have hcb : (book db').changes = (book db).changes := hc
  rwa [hcb] at hmem

theorem payments_kept (hp : db'.payments = db.payments) :
    ∀ q ∈ db'.payments.rows, q ∈ db.payments.rows ∨ q.status ≠ .refunded := by
  intro q hq
  rw [hp] at hq
  exact Or.inl hq

theorem tame_congr {ls ls' : Table FolioLine} (he : settles ls' l = settles ls l)
    (h : Tame ls l) : Tame ls' l :=
  ⟨he ▸ h.settling, he ▸ h.idle, h.chargeback⟩

theorem level_follows (h : Level b) (hs : Sound b') (hf : Follows b b') : Level b' := by
  refine ⟨hs, fun l hl => ?_, fun c hc => ?_, fun p hp => ?_⟩
  · rcases hf.lines with he | ⟨x, hx, ht⟩
    · rw [he] at hl
      exact tame_congr (by rw [he]) (h.tame l hl)
    · rcases hx.mem.mp hl with hl | rfl
      · exact tame_congr (settles_append h.sound.toWired hx hl) (h.tame l hl)
      · exact ht
  · exact (hf.changes c hc).elim (h.unreturned c) id
  · exact (hf.payments p hp).elim (h.unrefunded p) id

theorem tame_of_settles {ls : Table FolioLine} (h : settles ls l = true)
    (hi : l.metadata.includedInBookedTotal = false)
    (hc : RecordProviderDispute.isChargeback l = false) : Tame ls l :=
  ⟨fun _ => hi, fun hn => absurd h (by simp [hn]), fun hy => absurd hy (by simp [hc])⟩

theorem tame_of_idle {ls : Table FolioLine} (h : settles ls l = false)
    (hz : l.metadata.includedInBookedTotal = true ∨ l.grossAmountMinor = 0)
    (hc : RecordProviderDispute.isChargeback l = true → l.netAmountMinor + l.taxAmountMinor = 0) :
    Tame ls l :=
  ⟨fun hy => absurd hy (by simp [h]), fun _ => hz, hc⟩

theorem tame_payment {ls : Table FolioLine}
    (h : x = Folio.line r (Folio.paymentDraft p actor) now i) : Tame ls x := by
  refine tame_of_settles ?_ (by rw [h]; rfl) (by rw [h]; rfl)
  rw [h]
  rfl

theorem lines_of_postPayment {t u : Database} (h : Commits (Folio.postPayment p actor) t l u) :
    u.folioLines = t.folioLines ∨
      ∃ x, Table.Appends t.folioLines u.folioLines x ∧ Tame u.folioLines x := by
  rcases Folio.commits_postPayment h with ⟨_, rfl⟩ | ⟨_, r, _, _, hu⟩
  · exact Or.inl rfl
  · exact Or.inr ⟨_, Folio.appends_posted hu, tame_payment rfl⟩

theorem follows_recorded (h : PaymentService.Recorded db db' p actor) (hst : p.status = .succeeded)
    (hc : db'.changes = db.changes) : Follows (book db) (book db') := by
  obtain ⟨t, l, ht, hpost⟩ := h.line
  refine follows_lines ?_ hc fun q hq => ?_
  · have hlines := lines_of_postPayment hpost
    rw [ht] at hlines
    exact hlines
  · rcases h.payment.mem.mp hq with hq | rfl
    · exact Or.inl hq
    · exact Or.inr (by simp [hst])

theorem follows_reconcile (h : Commits (PaymentService.reconcile i actor j) db p db') :
    Follows (book db) (book db') := by
  obtain ⟨locked, hl, _, ⟨_, _, rfl⟩ | ⟨r, h⟩⟩ := PaymentService.commits_reconcile h
  · exact follows_refl
  obtain ⟨_, hp, hu, ⟨t, l, ht, hpost⟩, hd⟩ := PaymentService.commits_settlePending h
  have hmem : locked ∈ db.payments.rows := (Table.find?_eq_some.mp hl).1
  refine follows_lines ?_ (by rw [hd]) fun q hq => ?_
  · have hlines := lines_of_postPayment hpost
    rw [ht] at hlines
    exact hlines
  · rcases hu.mem_cases hmem rfl hq with ⟨hq, _⟩ | rfl
    · exact Or.inl hq
    · exact Or.inr (by simp [PaymentService.reconciled])

theorem follows_trans {m : Book} (h : Follows b m) (hl : m.lines = b.lines) (h' : Follows m b') :
    Follows b b' := by
  refine ⟨?_, fun c hc => ?_, fun q hq => ?_⟩
  · rw [← hl]
    exact h'.lines
  · exact (h'.changes c hc).elim (h.changes c) Or.inr
  · exact (h'.payments q hq).elim (h.payments q) Or.inr

theorem follows_recordManual {data : PaymentService.ManualEntry} {capture : Bool}
    (h : Commits (PaymentService.recordManual data actor capture) db p db') :
    Follows (book db) (book db') := by
  rcases PaymentService.commits_recordManual h with ⟨_, rfl⟩ | ⟨_, r, q, t, _, hq, _, happ, ht, h⟩
  · exact follows_refl
  have hst : Follows (book db) (book t) := by
    refine follows_lines (Or.inl (by rw [ht])) (by rw [ht]) fun p hp => ?_
    · rcases happ.mem.mp hp with hp | rfl
      · exact Or.inl hp
      · exact Or.inr (by simp [hq, PaymentService.manualPayment])
  rcases h with ⟨_, _, rfl⟩ | ⟨_, h⟩
  · exact hst
  · exact follows_trans hst (by rw [ht]; rfl) (follows_reconcile h)

-- The reversal of a payment line settles as the line did.
theorem tame_withdrawal {ls ls' : Table FolioLine} (hx : Table.Appends ls ls' x) (hl : l ∈ ls.rows)
    (hof : PaymentLineOf l p) (hd : x = Folio.line r (Folio.reversalDraft l reason actor) now i) :
    Tame ls' x := by
  have hfind : ls.find? l.id = some l := Table.find?_eq_some.mpr ⟨hl, rfl⟩
  have hxrev : x.reversesFolioLineId = some l.id := by rw [hd]; rfl
  have hxown : x.paymentId = some p.id := by rw [hd, ← hof.owner]; rfl
  have hu : undoesChargeback ls' x = false := by
    simp [undoesChargeback, hxrev, hx.find?_old hfind, hof.plain]
  have hch : RecordProviderDispute.isChargeback x = false := by rw [hd]; rfl
  exact tame_of_settles (by simp [settles, hxown, hch, hu]) (by rw [hd]; rfl) hch

theorem follows_reversePayment (hl : Level (book db))
    (h : Commits (PaymentService.reverse i reason actor) db p db') :
    Follows (book db) (book db') := by
  obtain ⟨locked, hfind, _, ⟨_, _, rfl⟩ | ⟨_, l, m, t, hline, hrev, hu, hd⟩⟩ :=
    PaymentService.commits_reverse h
  · exact follows_refl
  have hmem : locked ∈ db.payments.rows := (Table.find?_eq_some.mp hfind).1
  obtain ⟨hlmem, hown⟩ := Table.first?_some hline
  simp only [Bool.and_eq_true, beq_iff_eq] at hown
  obtain ⟨l', hfindl, hcase⟩ := Folio.commits_reverse hrev
  obtain rfl : l' = l := by
    obtain ⟨hmem', hid⟩ := Table.find?_eq_some.mp hfindl
    exact Table.eq_of_id hmem' hlmem hid
  have hlines : db'.folioLines = t.folioLines := by rw [hd]
  have hpaid : ∀ q ∈ db'.payments.rows, q ∈ db.payments.rows ∨ q.status ≠ .refunded := by
    intro q hq
    rcases hu.mem_cases hmem rfl hq with ⟨hq, _⟩ | rfl
    · exact Or.inl hq
    · exact Or.inr (by simp [PaymentService.reversed])
  rcases hcase with ⟨_, he⟩ | ⟨_, _, r, _, _, hposted⟩
  · have hcb : db'.changes = db.changes := by rw [hd, he]
    exact follows_lines (Or.inl (hlines.trans (by rw [he]))) hcb hpaid
  · have hx := Folio.appends_posted hposted
    have hcb : db'.changes = db.changes := by rw [hd, hposted]; rfl
    rw [← hlines] at hx
    obtain ⟨q, _, hof, _⟩ := hl.sound.posted l' hlmem hown.2
    exact follows_lines (Or.inr ⟨_, hx, tame_withdrawal hx hlmem hof rfl⟩) hcb hpaid

theorem follows_note {c : ReservationChange} (hl : db'.folioLines = db.folioLines)
    (hp : db'.payments = db.payments) (hc : Table.Appends db.changes db'.changes c)
    (hn : isCompletion c = false) : Follows (book db) (book db') := by
  refine ⟨Or.inl hl, fun d hd => ?_, payments_kept hp⟩
  rcases hc.mem.mp hd with hd | rfl
  · exact Or.inl hd
  · exact Or.inr hn

-- A line that belongs to no payment has to be worth nothing, or part of the booked total.
theorem follows_posted {d : Folio.LineDraft} (hp : d.paymentId = none)
    (hz : worthless d.quantityThousandths d.unitAmountMinor d.taxAmountMinor ∨
      (d.metadata.includedInBookedTotal = true ∧ d.metadata.providerDisputeEffect = none)) :
    Follows (book db) (book (Folio.posted db r d)) := by
  have hx := @Folio.appends_posted db _ r d rfl
  refine follows_lines (Or.inr ⟨_, hx, tame_of_idle ?_ ?_ fun hc => ?_⟩) rfl (payments_kept rfl)
  · simp [settles, Folio.line, hp]
  · exact hz.symm.imp And.left id
  · rcases hz with hz | ⟨_, hn⟩
    · exact hz
    · simp [RecordProviderDispute.isChargeback, Folio.line, hn] at hc

theorem follows_append {type : FolioLineType} {description : String} {quantity unit tax : ℤ}
    {metadata : LineMetadata} {included : Bool}
    (he : worthless quantity unit tax ∨
      (included = true ∧ metadata.providerDisputeEffect = none))
    (h : Commits (lockedReservation i >>= fun r =>
      Folio.append r type description quantity unit actor metadata tax included) db l db') :
    Follows (book db) (book db') := by
  simp only [Folio.append, commits_bind, commits_lockedReservation, commits_check, commits_reject,
    Folio.commits_createLine] at h
  obtain ⟨r, _, ⟨_, rfl⟩, _, _, ⟨_, rfl⟩, _, _, ⟨_, rfl⟩, _, rfl⟩ := h
  exact follows_posted rfl he

theorem follows_reverseLine (hs : ∀ l, db.folioLines.find? i = some l → Struck db l)
    (h : Commits (Folio.reverse i reason actor) db l db') : Follows (book db) (book db') := by
  obtain ⟨m, hm, ⟨_, rfl⟩ | ⟨hx, hn, r, _, _, hd⟩⟩ := Folio.commits_reverse h
  · exact follows_refl
  obtain hrev | ⟨hz, hspare⟩ := hs m hm
  · simp [hx] at hrev
  have hfree : m.paymentId = none ∨ RecordProviderDispute.isChargeback m = true := by
    simpa [LedgerRuns.spares, hx, hn] using hspare
  have happ := Folio.appends_posted hd
  have hidle : settles db'.folioLines
      (Folio.line r (Folio.reversalDraft m reason actor) db.clock db.folioLines.next) = false := by
    rcases hfree with hfree | hfree
    · simp [settles, Folio.line, Folio.reversalDraft, hfree]
    · have hu : undoesChargeback db'.folioLines
          (Folio.line r (Folio.reversalDraft m reason actor) db.clock db.folioLines.next) = true := by
        have hid : m.id = i := (Table.find?_eq_some.mp hm).2
        have hold := happ.find?_old hm
        simp [undoesChargeback, Folio.line, Folio.reversalDraft, hid, hold, hfree]
      simp [settles, hu]
  refine follows_lines (Or.inr ⟨_, happ, tame_of_idle hidle (Or.inr ?_) fun hc => ?_⟩)
    (by rw [hd]; rfl) (payments_kept (by rw [hd]; rfl))
  rotate_left
  · cases hc
  have hg : (Folio.line r (Folio.reversalDraft m reason actor) db.clock
      db.folioLines.next).grossAmountMinor = -m.netAmountMinor - m.taxAmountMinor :=
    reversal_gross rfl
  omega

theorem follows_completeRefund {reference : String} {c : ReservationChange}
    (he : (completion? db i).isSome = true)
    (h : Commits (CompleteRefund.handle i reference actor) db c db') :
    Follows (book db) (book db') := by
  obtain ⟨g, hg, _, ⟨_, rfl⟩ | ⟨hn, _⟩⟩ := CompleteRefund.commits_handle h
  · exact follows_refl
  · have hid : g.request.id = i := (Table.find?_eq_some.mp hg.request).2
    rw [hid] at hn
    simp [hn] at he

theorem tame_credit {ls ls' : Table FolioLine} (hx : Table.Appends ls ls' x) (hl : l ∈ ls.rows)
    (hc : RecordProviderDispute.isChargeback l = true) (ht : Tame ls l)
    (hd : x = Folio.line r (Folio.reversalDraft l reason actor) now i) : Tame ls' x := by
  have hfind : ls.find? l.id = some l := Table.find?_eq_some.mpr ⟨hl, rfl⟩
  have hxrev : x.reversesFolioLineId = some l.id := by rw [hd]; rfl
  have hu : undoesChargeback ls' x = true := by
    simp [undoesChargeback, hxrev, hx.find?_old hfind, hc]
  have hch : RecordProviderDispute.isChargeback x = false := by rw [hd]; rfl
  have hg := reversal_gross hd
  have hz := ht.chargeback hc
  exact tame_of_idle (by simp [settles, hu]) (Or.inr (by omega)) fun hy => absurd hy (by simp [hch])

theorem follows_recordDispute {event : ProviderEvent} {remote : DisputeFacts} {d : ProviderDispute}
    (hl : Level (book db))
    (he : RecordProviderDispute.state remote = .lost → ∀ g,
      RecordProviderDispute.Found db event remote g → g.reservation.folioStatus = .closed)
    (h : Commits (RecordProviderDispute.handle event remote) db d db') :
    Follows (book db) (book db') := by
  obtain ⟨g, e, n, s, t, h, _⟩ := RecordProviderDispute.commits_handle h
  have hlines : t.folioLines = db.folioLines := by rw [h.frame]
  have hpaid : t.payments = db.payments := by rw [h.frame]
  have hchanges : t.changes = db.changes := by rw [h.frame]
  have hquiet : ∀ s, RecordProviderDispute.Marks t db' (RecordProviderDispute.refreshed remote n e)
      s → Follows (book db) (book db') := by
    intro s hm
    have hf := hm.frame
    exact follows_lines (Or.inl (by rw [hf, hlines])) (by rw [hf, hchanges])
      (payments_kept (by rw [hf, hpaid]))
  cases h.impact with
  | kept _ _ _ hu =>
    rw [hu]
    exact follows_lines (Or.inl hlines) hchanges (payments_kept hpaid)
  | suspended _ hm => exact hquiet _ hm
  | emptied _ _ _ hm => exact hquiet _ hm
  | debited hs _ _ _ _ _ hopen => exact absurd (he hs g h.found) hopen
  | credited _ l hline _ _ home _ hc =>
    obtain ⟨hmem, _, _, hcb⟩ := RecordProviderDispute.chargebackLine_mem hline
    have hf := hc.frame
    have hold : l ∈ db.folioLines.rows := hlines ▸ hmem
    have ht : Tame t.folioLines l := tame_congr (by rw [hlines]; rfl) (hl.tame l hold)
    have happ : ∃ x, Table.Appends t.folioLines db'.folioLines x ∧ Tame db'.folioLines x :=
      ⟨_, hc.line, tame_credit hc.line hmem hcb ht rfl⟩
    rw [hlines] at happ
    exact follows_lines (Or.inr happ) (by rw [hf, hchanges]) (payments_kept (by rw [hf, hpaid]))

end Steps

section Sales
variable {db db' : Database} {s : RetailSale} {reservation : Option Reservation} {taxMinor : ℤ}
variable {items : List RetailPostingService.Sold} {x : RetailPostingService.Sold}
variable {lines : List RetailPostingService.SaleLine} {locationId : ℕ} {reference : String}

theorem sound_line {b b' : Book} {l : FolioLine} (hs : Sound b)
    (hx : Table.Appends b.lines b'.lines l) (hp : b'.payments = b.payments)
    (hc : b'.changes = b.changes) (howner : l.paymentId = none)
    (hrev : l.reversesFolioLineId = none) (htype : l.type = .charge) : Sound b' := by
  refine sound_append_line hs ⟨hx, by rw [hp], by rw [hc], by simp [hrev], by simp [howner],
    by simp [htype], fun p hp' _ => ⟨hp ▸ hp', by simp [htype]⟩,
    fun q hq => ⟨q, hp ▸ hq, carries_self hrev⟩, by simp [htype]⟩ hp hc ?_
  simp [settles, howner]

theorem book_moved : book (RetailPostingService.moved s x db) = book db := by
  unfold RetailPostingService.moved
  split_ifs
  · rfl
  · rfl

theorem level_sold (h : Level (book db)) (hz : x.amount = 0) :
    Level (book (RetailPostingService.sold s reservation db x)) := by
  rw [RetailPostingService.sold, book_moved]
  cases reservation with
  | none => exact h
  | some r =>
    let l := RetailPostingService.charge r s.reference x db.clock db.folioLines.next
    have hx : Table.Appends db.folioLines
        (db.folioLines.insert (RetailPostingService.charge r s.reference x db.clock)) l :=
      Table.appends_insert
    refine level_follows h (sound_line h.sound hx rfl rfl rfl rfl rfl) ⟨Or.inr ⟨l, hx, ?_⟩,
      fun _ hc => Or.inl hc, fun _ hp => Or.inl hp⟩
    exact tame_of_idle rfl (Or.inr hz) fun hc => by cases hc

theorem level_foldl (h : Level (book db)) (hz : ∀ x ∈ items, x.amount = 0) :
    Level (book (items.foldl (RetailPostingService.sold s reservation) db)) := by
  induction items generalizing db with
  | nil => exact h
  | cons x xs ih =>
    rw [List.foldl_cons]
    obtain ⟨hx, hxs⟩ := List.forall_mem_cons.mp hz
    exact ih (level_sold h hx) hxs

theorem level_unsold (h : Level (book db)) :
    Level (book (items.foldl (RetailPostingService.sold s none) db)) := by
  induction items generalizing db with
  | nil => exact h
  | cons x xs ih =>
    rw [List.foldl_cons]
    refine ih ?_
    rw [RetailPostingService.sold, book_moved]
    exact h

theorem level_sell {reservationId : Option ℕ} (h : Level (book db))
    (he : reservationId = none ∨ (RetailPostingService.sale? db reference).isSome = true ∨
      givenAway db lines)
    (hc : Commits (soldTo reservationId >>= fun reservation =>
      RetailPostingService.post locationId reference lines reservation taxMinor) db s db') :
    Level (book db') := by
  rw [commits_bind] at hc
  obtain ⟨reservation, t, hto, hc⟩ := hc
  have hto' : t = db ∧ (reservationId = none → reservation = none) := by
    cases reservationId with
    | none =>
      simp only [soldTo, commits_pure] at hto
      exact ⟨hto.2.symm, fun _ => hto.1.symm⟩
    | some i =>
      simp only [soldTo, commits_map, commits_lockedReservation] at hto
      obtain ⟨_, ⟨_, rfl⟩, _⟩ := hto
      exact ⟨rfl, fun hn => by cases hn⟩
  obtain ⟨rfl, hnone⟩ := hto'
  obtain ⟨_, rfl⟩ | ⟨hx, _, _, items, basket, hs⟩ := RetailPostingService.commits_post_sells hc
  · exact h
  · rw [hs.written]
    obtain ⟨qs, hq, hi⟩ := hs.gathered
    rcases he with hn | hsome | hfree
    · rw [hnone hn]
      exact level_unsold h
    · simp [hx] at hsome
    · exact level_foldl h (hfree qs items hq hi)

end Sales

section Runs
variable {s t db db' : Database} {op : Operation} {r : Reservation}

theorem checked_of_even {op : LedgerRuns.Operation} (h : (Operation.ledger op).Even db) :
    op.Checked db := by
  cases op with
  | reverseLine i reason actor =>
    intro l hl
    obtain hrev | ⟨_, hspare⟩ := h l hl
    · simp [LedgerRuns.spares, hrev]
    · exact hspare
  | elsewhere result => exact h
  | _ => trivial

theorem follows_ledger {op : LedgerRuns.Operation} (hl : Level (book db))
    (he : (Operation.ledger op).Even db) (h : Commits op.run db () db') :
    Follows (book db) (book db') := by
  cases op with
  | recordProvider attempt remote =>
    obtain ⟨p, h⟩ := LedgerRuns.commits_quietly h
    obtain ⟨r, request, locked, _, _, ⟨existing, _, h⟩ | ⟨_, h⟩⟩ :=
      PaymentService.commits_recordProvider h
    · obtain ⟨_, _, _, ⟨_, hd⟩ | ⟨_, _, _, hd⟩⟩ := PaymentService.commits_replayProvider h
      · rw [hd]
        exact follows_refl
      · rw [hd]
        exact follows_refl
    · obtain ⟨hp, _, _, hrec, _, hd⟩ := PaymentService.commits_applyProvider h
      exact follows_recorded hrec (by rw [hp]; rfl) (by rw [hd])
  | recordProviderNeedsReview attempt remote reason =>
    obtain ⟨p, h⟩ := LedgerRuns.commits_quietly h
    obtain ⟨r, request, locked, _, ⟨_, _, _, rfl⟩ | ⟨_, hp, hrec, hd⟩⟩ :=
      PaymentService.commits_recordProviderNeedsReview h
    · exact follows_refl
    · exact follows_recorded hrec (by rw [hp]; rfl) (by rw [hd])
  | recordFrontDesk i channel amount actor deposit =>
    obtain ⟨p, h⟩ := LedgerRuns.commits_quietly h
    obtain ⟨r, _, _, _, hp, hrec, hd⟩ := PaymentService.commits_recordFrontDesk h
    exact follows_recorded hrec (by rw [hp]; rfl) (by rw [hd])
  | recordManual data actor capture =>
    obtain ⟨p, h⟩ := LedgerRuns.commits_quietly h
    exact follows_recordManual h
  | reconcile i actor deposit =>
    obtain ⟨p, h⟩ := LedgerRuns.commits_quietly h
    exact follows_reconcile h
  | reversePayment i reason actor =>
    obtain ⟨p, h⟩ := LedgerRuns.commits_quietly h
    exact follows_reversePayment hl h
  | requestRefund i k amount reason =>
    obtain ⟨c, h⟩ := LedgerRuns.commits_quietly h
    obtain ⟨r, q, _, ⟨_, hc⟩, happ, hd⟩ := RequestRefund.commits_handle h
    exact follows_note (by rw [hd]) (by rw [hd]) happ (by rw [hc]; rfl)
  | completeRefund i reference actor =>
    obtain ⟨c, h⟩ := LedgerRuns.commits_quietly h
    exact follows_completeRefund he h
  | failRefund i reason =>
    obtain ⟨c, h⟩ := LedgerRuns.commits_quietly h
    obtain ⟨g, _, _, _, ⟨_, _, hc⟩, happ, hd⟩ := CompleteRefund.commits_fail h
    exact follows_note (by rw [hd]) (by rw [hd]) happ (by rw [hc]; rfl)
  | recordDispute event remote =>
    obtain ⟨d, h⟩ := LedgerRuns.commits_quietly h
    exact follows_recordDispute hl he h
  | appendLine i type description quantity unit tax metadata actor =>
    obtain ⟨l, h⟩ := LedgerRuns.commits_quietly h
    exact follows_append (Or.inl he) h
  | reverseLine i reason actor =>
    obtain ⟨l, h⟩ := LedgerRuns.commits_quietly h
    exact follows_reverseLine he h
  | elsewhere result =>
    simp only [LedgerRuns.Operation.run, commits_set] at h
    have hb : book result = book db := he
    rw [← h, hb]
    exact follows_refl

theorem level_run (hl : Level (book db)) (he : op.Even db) (h : Commits op.run db () db') :
    Level (book db') := by
  cases op with
  | ledger op =>
    have hs : Sound (book db') := LedgerRuns.sound_run hl.sound (checked_of_even he) h
    exact level_follows hl hs (follows_ledger hl he h)
  | booked i type description unit tax quantity quoted quote actor =>
    obtain ⟨l, h⟩ := LedgerRuns.commits_quietly h
    have hf : Follows (book db) (book db') := follows_append (Or.inr ⟨rfl, rfl⟩) h
    simp only [commits_bind, commits_lockedReservation] at h
    obtain ⟨r, _, ⟨_, rfl⟩, h⟩ := h
    obtain ⟨ht, d, hdt, hdp, hdr, rfl⟩ := Folio.commits_append h
    exact level_follows hl (LedgerRuns.sound_posted_plain hl.sound hdp hdr (hdt ▸ ht)) hf
  | sell locationId reference lines reservationId taxMinor =>
    obtain ⟨s, h⟩ := LedgerRuns.commits_quietly h
    exact level_sell hl he h

structure Opening (b : Book) : Prop extends Settlement.Opening b where
  tame : ∀ l ∈ b.lines.rows, l.metadata.includedInBookedTotal = true ∨ l.grossAmountMinor = 0
  effects : ∀ l ∈ b.lines.rows, RecordProviderDispute.isChargeback l = false

theorem level_of_opening {b : Book} (h : Opening b) : Level b := by
  refine ⟨sound_of_opening h.toOpening, fun l hl => ?_, h.changes, fun p hp => ?_⟩
  · have howner := (h.lines l hl).1
    refine tame_of_idle (by simp [settles, howner]) (h.tame l hl) fun hc => ?_
    simp [h.effects l hl] at hc
  · simp [h.payments] at hp

theorem even_runs_agree (hs : Opening (book s)) (h : Reaches Operation.run Operation.Even s t) :
    ∀ r, Agree t r := by
  have hl : Level (book t) := h.invariant (I := fun db => Level (book db)) (level_of_opening hs)
    fun _ _ _ hl he hc => level_run hl he hc
  exact fun r => agree_of_level hl

end Runs

section Scenario
open LedgerRuns (stay opening)

def evenly : Operation → Database → Bool
  | .ledger (.recordFrontDesk ..), _ => true
  | .ledger (.reversePayment ..), _ => true
  | .booked .., _ => true
  | _, _ => false

theorem even_of_evenly {op : Operation} {db : Database} (h : evenly op db = true) : op.Even db := by
  cases op with
  | ledger op =>
    cases op with
    | recordFrontDesk i channel amount actor deposit => trivial
    | reversePayment i reason actor => trivial
    | _ => cases h
  | booked i type description unit tax quantity quoted quote actor => trivial
  | sell locationId reference lines reservationId taxMinor => cases h

theorem opening_empty : Opening (book opening) where
  toOpening := LedgerRuns.opening_unpaid
  tame := by simp [book, opening, Table.empty]
  effects := by simp [book, opening, Table.empty]

def owes (db : Database) (printed calculated folio : ℤ) : Bool :=
  decide ((DocumentSnapshotFactory.build db .folioStatement (stay 0) {}).toOption.map
      DocumentSnapshotFactory.Figures.balanceMinor = some printed ∧
    MoneyCalculator.reservationBalance db (stay 0) = calculated ∧
    (Folio.summary db (stay 0)).balanceMinor = folio)

-- A deposit is taken, struck out as a payment and taken again.
theorem retaken_deposit_is_printed : ∃ t, Reaches Operation.run Operation.Even opening t ∧
    owes t 6000 6000 6000 = true ∧ Agree t (stay 0) := by
  obtain ⟨t, hr, hp⟩ : ∃ t, Reaches Operation.run Operation.Even opening t ∧
      owes t 6000 6000 6000 = true :=
    Reaches.exists_of_execute (fun _ _ => even_of_evenly)
      [.booked 0 .charge "Suite" 10000 0 (some 1000) (some 10000) none none,
        .ledger (.recordFrontDesk 0 .cash 3000 none none),
        .ledger (.reversePayment 0 "Miscounted" none),
        .ledger (.recordFrontDesk 0 .cash 4000 none none)]
      (by decide)
  exact ⟨t, hr, hp, even_runs_agree opening_empty hr (stay 0)⟩

-- Dinner is on the folio and on no printed balance.
theorem dinner_is_not_printed : ∃ t, Reaches Operation.run (fun _ _ => True) opening t ∧
    t.reservation? 0 = some (stay 0) ∧ owes t 10000 10000 12500 = true ∧ ¬ Agree t (stay 0) := by
  obtain ⟨t, hr, hp⟩ : ∃ t, Reaches Operation.run (fun _ _ => True) opening t ∧
      (decide (t.reservation? 0 = some (stay 0)) && owes t 10000 10000 12500) = true :=
    Reaches.exists_of_run [.ledger (.appendLine 0 .charge "Dinner" 1000 2500 0 {} none)]
      (by decide)
  obtain ⟨hstay, howes⟩ := Bool.and_eq_true_iff.mp hp
  refine ⟨t, hr, of_decide_eq_true hstay, howes, fun hagree => ?_⟩
  obtain ⟨_, hcalculated, hfolio⟩ := of_decide_eq_true howes
  have he := hagree.calculated
  omega

end Scenario
end PrintedBalances
