import LodgeOps.Booking.Amendment
import LodgeOps.Booking.QuoteTotals
import LodgeOps.Inventory.Cancellation

namespace BookingRuns
open Schema Transaction

section Operations

inductive Operation
  | quote (input : BookingQuoteService.BookingInput)
  | quoteAmendment (reservationId : ℕ) (input : BookingQuoteService.BookingInput)
  | commit (quoteId : ℕ) (guestId : Option ℕ) (data : CommitBookingQuote.GuestData)
      (companionIds : List ℕ) (actorId : Option ℕ)
  | amend (reservationId : ℕ) (input : BookingQuoteService.BookingInput) (actorId : Option ℕ)
  | close (reservationId : ℕ) (target : ReservationStatus) (reason : String)
      (actorId : Option ℕ)
  | ledger (op : LedgerRuns.Operation)

-- An amendment whose second transaction fails leaves its quote behind: that is quoteAmendment.
def Operation.run : Operation → Tx Unit
  | quote input => LedgerRuns.quietly (BookingQuoteService.create input)
  | quoteAmendment i input => LedgerRuns.quietly
      (lockedReservation i >>= fun r => BookingQuoteService.createAmendment r input)
  | commit i guestId data companions actor =>
    LedgerRuns.quietly (CommitBookingQuote.handle i guestId data companions actor)
  | amend i input actor => LedgerRuns.quietly (AmendReservation.handle i input actor)
  | close i target reason actor => CloseReservationWithPolicy.handle i target reason actor
  | ledger op => op.run

def figures (r : Reservation) : ℤ × ℤ × ℤ := (r.subtotalMinor, r.taxMinor, r.totalMinor)

-- Whatever else the system does, it writes no line, payment or quote, and no booked figure.
structure Untouched (db result : Database) : Prop where
  lines : result.folioLines = db.folioLines
  payments : result.payments = db.payments
  changes : db.changes.next ≤ result.changes.next
  returned : ∀ i, Settlement.returned (Settlement.book result) i =
    Settlement.returned (Settlement.book db) i
  quotes : result.quotes = db.quotes
  grows : db.reservations.next ≤ result.reservations.next
  figures : ∀ i r', result.reservation? i = some r' →
    (∃ r, db.reservation? i = some r ∧ figures r' = figures r) ∨
      (db.reservations.next ≤ i ∧ figures r' = (0, 0, 0))

def Operation.Honest (op : Operation) (db : Database) : Prop :=
  match op with
  | ledger (.elsewhere result) => Untouched db result
  | _ => True

-- In a checked run a payment is taken back through its reversal, not through the folio.
def Operation.Checked (op : Operation) (db : Database) : Prop :=
  match op with
  | ledger (.elsewhere result) => Untouched db result
  | ledger op => op.Checked db
  | _ => True

theorem Operation.Checked.ledger {op : LedgerRuns.Operation} {db : Database}
    (hop : ∀ s, op ≠ .elsewhere s) (h : (Operation.ledger op).Checked db) : op.Checked db := by
  cases op with
  | elsewhere s => exact absurd rfl (hop s)
  | _ => exact h

theorem Operation.Checked.honest {op : Operation} {db : Database} (h : op.Checked db) :
    op.Honest db := by
  cases op with
  | ledger op =>
    cases op with
    | elsewhere => exact h
    | _ => trivial
  | _ => trivial

structure Opening (db : Database) : Prop where
  reservations : db.reservations.rows = []
  quotes : db.quotes.rows = []
  lines : db.folioLines.rows = []
  payments : db.payments.rows = []
  changes : db.changes.rows = []

end Operations

section Extension
variable {db db' t : Database} {p : Payment} {l : FolioLine} {c : ReservationChange}
variable {r : Reservation} {d : Folio.LineDraft} {actor : Option ℕ} {i : ℕ} {reason : String}

-- What a ledger operation may write: lines that are no part of the booked total.
structure Extends (db db' : Database) : Prop where
  reservations : db'.reservations = db.reservations
  quotes : db'.quotes = db.quotes
  lines : ∃ xs, db'.folioLines.rows = db.folioLines.rows ++ xs ∧
    ∀ x ∈ xs, x.metadata.includedInBookedTotal = false

theorem extends_of_eq (hr : db'.reservations = db.reservations) (hq : db'.quotes = db.quotes)
    (hl : db'.folioLines = db.folioLines) : Extends db db' :=
  ⟨hr, hq, [], by rw [hl]; simp, by simp⟩

theorem Extends.trans (h : Extends db t) (h' : Extends t db') : Extends db db' := by
  obtain ⟨xs, hxs, hx⟩ := h.lines
  obtain ⟨ys, hys, hy⟩ := h'.lines
  refine ⟨h'.reservations.trans h.reservations, h'.quotes.trans h.quotes, xs ++ ys, ?_, ?_⟩
  · rw [hys, hxs, List.append_assoc]
  · intro z hz
    rcases List.mem_append.mp hz with hz | hz
    · exact hx z hz
    · exact hy z hz

theorem extends_posted (hd : d.metadata.includedInBookedTotal = false) :
    Extends db (Folio.posted db r d) := by
  refine ⟨rfl, rfl, [Folio.line r d db.clock db.folioLines.next], rfl, ?_⟩
  intro x hx
  rw [List.mem_singleton.mp hx]
  exact hd

theorem extends_postPayment (h : Commits (Folio.postPayment p actor) db l db') :
    Extends db db' := by
  rcases Folio.commits_postPayment h with ⟨_, rfl⟩ | ⟨_, r, _, _, rfl⟩
  · exact extends_of_eq rfl rfl rfl
  · exact extends_posted rfl

theorem extends_postRefund (h : Commits (Folio.postRefund p c actor) db l db') :
    Extends db db' := by
  rcases Folio.commits_postRefund h with ⟨_, rfl⟩ | ⟨_, r, _, _, rfl⟩
  · exact extends_of_eq rfl rfl rfl
  · exact extends_posted rfl

theorem extends_reverse (h : Commits (Folio.reverse i reason actor) db l db') : Extends db db' := by
  obtain ⟨m, _, ⟨_, rfl⟩ | ⟨_, _, r, _, _, rfl⟩⟩ := Folio.commits_reverse h
  · exact extends_of_eq rfl rfl rfl
  · exact extends_posted rfl

-- Lines posted while other tables change, seen from the state before.
theorem extends_through (hx : Extends t { t with folioLines := db'.folioLines })
    (hl : t.folioLines = db.folioLines) (hr : db'.reservations = db.reservations)
    (hq : db'.quotes = db.quotes) : Extends db db' := by
  obtain ⟨xs, hxs, hx⟩ := hx.lines
  exact ⟨hr, hq, xs, hl ▸ hxs, hx⟩

theorem extends_recorded (h : PaymentService.Recorded db db' p actor)
    (hr : db'.reservations = db.reservations) (hq : db'.quotes = db.quotes) : Extends db db' := by
  obtain ⟨t, l, ht, hpost⟩ := h.line
  exact extends_through (extends_postPayment hpost) (by rw [ht]) hr hq

theorem extends_reconcile {j : Option ℕ}
    (h : Commits (PaymentService.reconcile i actor j) db p db') : Extends db db' := by
  obtain ⟨locked, _, _, ⟨_, _, rfl⟩ | ⟨r, h⟩⟩ := PaymentService.commits_reconcile h
  · exact extends_of_eq rfl rfl rfl
  · obtain ⟨_, _, _, ⟨t, l, ht, hpost⟩, hd⟩ := PaymentService.commits_settlePending h
    exact extends_through (extends_postPayment hpost) (by rw [ht]) (by rw [hd]) (by rw [hd])

theorem extends_recordProvider {attempt : PaymentAttempt} {remote : ProviderPayment}
    (h : Commits (PaymentService.recordProvider attempt remote) db p db') : Extends db db' := by
  obtain ⟨r, request, locked, _, _, ⟨existing, _, h⟩ | ⟨_, h⟩⟩ :=
    PaymentService.commits_recordProvider h
  · obtain ⟨_, _, _, ⟨_, hd⟩ | ⟨_, _, _, hd⟩⟩ := PaymentService.commits_replayProvider h
    · exact extends_of_eq (by rw [hd]) (by rw [hd]) (by rw [hd])
    · exact extends_of_eq (by rw [hd]) (by rw [hd]) (by rw [hd])
  · obtain ⟨_, _, _, hrec, _, hd⟩ := PaymentService.commits_applyProvider h
    exact extends_recorded hrec (by rw [hd]) (by rw [hd])

theorem extends_recordManual {data : PaymentService.ManualEntry} {capture : Bool}
    (h : Commits (PaymentService.recordManual data actor capture) db p db') : Extends db db' := by
  rcases PaymentService.commits_recordManual h with ⟨_, rfl⟩ | ⟨_, r, q, t, _, _, _, _, ht, h⟩
  · exact extends_of_eq rfl rfl rfl
  have hst : Extends db t := extends_of_eq (by rw [ht]) (by rw [ht]) (by rw [ht])
  rcases h with ⟨_, _, rfl⟩ | ⟨_, h⟩
  · exact hst
  · exact hst.trans (extends_reconcile h)

theorem extends_reversePayment (h : Commits (PaymentService.reverse i reason actor) db p db') :
    Extends db db' := by
  obtain ⟨locked, _, _, ⟨_, _, rfl⟩ | ⟨_, l, m, t, _, hrev, _, hd⟩⟩ :=
    PaymentService.commits_reverse h
  · exact extends_of_eq rfl rfl rfl
  · have ht := extends_reverse hrev
    exact ht.trans (extends_of_eq (by rw [hd]) (by rw [hd]) (by rw [hd]))

theorem extends_completeRefund {reference : String}
    (h : Commits (CompleteRefund.handle i reference actor) db c db') : Extends db db' := by
  obtain ⟨g, _, _, ⟨_, rfl⟩ | ⟨_, h⟩⟩ := CompleteRefund.commits_handle h
  · exact extends_of_eq rfl rfl rfl
  · obtain ⟨t, l, ht, hpost⟩ := h.line
    exact extends_through (extends_postRefund hpost) (by rw [ht]) (by rw [h.frame])
      (by rw [h.frame])

theorem extends_recordDispute {event : ProviderEvent} {remote : DisputeFacts}
    {d : ProviderDispute} (h : Commits (RecordProviderDispute.handle event remote) db d db') :
    Extends db db' := by
  obtain ⟨g, e, n, s, t, h, _⟩ := RecordProviderDispute.commits_handle h
  have ht : Extends db t := by
    have hf := h.frame
    exact extends_of_eq (by rw [hf]) (by rw [hf]) (by rw [hf])
  refine ht.trans ?_
  have hmark : ∀ {f s}, RecordProviderDispute.Marks t db' f s → Extends t db' := by
    intro f s hm
    exact extends_of_eq (by rw [hm.frame]) (by rw [hm.frame]) (by rw [hm.frame])
  have hcharge : ∀ {f s x}, RecordProviderDispute.Charges t db' f s x →
      x.metadata.includedInBookedTotal = false → Extends t db' := by
    intro f s x hc hx
    refine ⟨by rw [hc.frame], by rw [hc.frame], [x], hc.line.rows, ?_⟩
    intro y hy
    rw [List.mem_singleton.mp hy]
    exact hx
  cases h.impact with
  | kept _ _ _ hu => exact hu ▸ extends_of_eq rfl rfl rfl
  | suspended _ hm => exact hmark hm
  | emptied _ _ _ hm => exact hmark hm
  | debited _ _ _ home _ hc => exact hcharge hc rfl
  | credited _ l _ _ _ home _ hc => exact hcharge hc rfl

theorem extends_ledger {op : LedgerRuns.Operation} (hop : ∀ s, op ≠ .elsewhere s)
    (h : Commits op.run db () db') : Extends db db' := by
  cases op with
  | recordProvider attempt remote =>
    obtain ⟨_, h⟩ := LedgerRuns.commits_quietly h
    exact extends_recordProvider h
  | recordProviderNeedsReview attempt remote reason =>
    obtain ⟨_, h⟩ := LedgerRuns.commits_quietly h
    obtain ⟨_, _, _, _, ⟨_, _, _, rfl⟩ | ⟨_, _, hrec, hd⟩⟩ :=
      PaymentService.commits_recordProviderNeedsReview h
    · exact extends_of_eq rfl rfl rfl
    · exact extends_recorded hrec (by rw [hd]) (by rw [hd])
  | recordFrontDesk i channel amount actor deposit =>
    obtain ⟨_, h⟩ := LedgerRuns.commits_quietly h
    obtain ⟨_, _, _, _, _, hrec, hd⟩ := PaymentService.commits_recordFrontDesk h
    exact extends_recorded hrec (by rw [hd]) (by rw [hd])
  | recordManual data actor capture =>
    obtain ⟨_, h⟩ := LedgerRuns.commits_quietly h
    exact extends_recordManual h
  | reconcile i actor deposit =>
    obtain ⟨_, h⟩ := LedgerRuns.commits_quietly h
    exact extends_reconcile h
  | reversePayment i reason actor =>
    obtain ⟨_, h⟩ := LedgerRuns.commits_quietly h
    exact extends_reversePayment h
  | requestRefund i k amount reason =>
    obtain ⟨_, h⟩ := LedgerRuns.commits_quietly h
    obtain ⟨_, _, _, _, _, hd⟩ := RequestRefund.commits_handle h
    exact extends_of_eq (by rw [hd]) (by rw [hd]) (by rw [hd])
  | completeRefund i reference actor =>
    obtain ⟨_, h⟩ := LedgerRuns.commits_quietly h
    exact extends_completeRefund h
  | failRefund i reason =>
    obtain ⟨_, h⟩ := LedgerRuns.commits_quietly h
    obtain ⟨_, _, _, _, _, _, hd⟩ := CompleteRefund.commits_fail h
    exact extends_of_eq (by rw [hd]) (by rw [hd]) (by rw [hd])
  | recordDispute event remote =>
    obtain ⟨_, h⟩ := LedgerRuns.commits_quietly h
    exact extends_recordDispute h
  | appendLine i type description quantity unit tax metadata actor =>
    obtain ⟨_, h⟩ := LedgerRuns.commits_quietly h
    simp only [Folio.append, commits_bind, commits_lockedReservation, commits_check,
      commits_reject, Folio.commits_createLine] at h
    obtain ⟨r, _, ⟨_, rfl⟩, _, _, ⟨_, rfl⟩, _, _, ⟨_, rfl⟩, _, rfl⟩ := h
    exact extends_posted rfl
  | reverseLine i reason actor =>
    obtain ⟨_, h⟩ := LedgerRuns.commits_quietly h
    exact extends_reverse h
  | elsewhere result => exact absurd rfl (hop result)

end Extension

section Effects
variable {db db' : Database} {op : Operation}

-- What one step of a run does to the books.
inductive Effect (db db' : Database) : Operation → Prop
  | same {op : Operation} : db' = db → Effect db db' op
  | untouched {op : Operation} : Untouched db db' → Effect db db' op
  | posted {op : LedgerRuns.Operation} : (∀ s, op ≠ .elsewhere s) →
      Commits op.run db () db' → Extends db db' → Effect db db' (.ledger op)
  | quoted {op : Operation} {input : BookingQuoteService.BookingInput} {q : BookingQuote} :
      Commits (BookingQuoteService.create input) db q db' → Effect db db' op
  | committed {op : Operation} {q : BookingQuote} {r : Reservation} {actor : Option ℕ} :
      q ∈ db.quotes.rows → CommitBookingQuote.Committed db db' q r actor → Effect db db' op
  | amended {i : ℕ} {input : BookingQuoteService.BookingInput} {actor : Option ℕ}
      {q : BookingQuote} {t : Database} {r : Reservation} : db.reservation? i = some r →
      Commits (BookingQuoteService.createAmendment r input) db q t →
      AmendReservation.Amended t db' r q actor → Effect db db' (.amend i input actor)
  | closed {op : Operation} {r : Reservation} {target : ReservationStatus} {reason : String}
      {actor : Option ℕ} : db.reservation? r.id = some r →
      CloseReservationWithPolicy.Closes db db' r target reason actor → Effect db db' op

theorem amended_handle {i : ℕ} {input : BookingQuoteService.BookingInput} {actor : Option ℕ}
    {s : Reservation} (h : Commits (AmendReservation.handle i input actor) db s db') :
    ∃ r q t, db.reservation? i = some r ∧
      Commits (BookingQuoteService.createAmendment r input) db q t ∧
      s = AmendReservation.amended q r ∧ AmendReservation.Amended t db' r q actor := by
  obtain ⟨r, q, t, hr, hq, h⟩ := AmendReservation.commits_handle h
  obtain ⟨r', q', hid, hqid, hs, ha⟩ := AmendReservation.commits_amend h
  obtain ⟨c, _, hc, happ, ht⟩ := BookingQuoteService.commits_create
    (BookingQuoteService.commits_createAmendment hq)
  have hres : t.reservations = db.reservations := by rw [ht]
  obtain rfl : r' = r := by
    have hf : t.reservation? r'.id = db.reservation? r.id := by
      unfold Database.reservation?
      rw [hres, hid]
    exact Option.some.inj (ha.found.symm.trans (hf.trans (by rw [Folio.reservation_id_eq hr, hr])))
  obtain rfl : q' = q := by
    have hf := ha.quoted
    rw [hqid] at hf
    exact Option.some.inj (hf.symm.trans happ.find?_new)
  exact ⟨r', q', t, hr, hq, hs, ha⟩

theorem effect_run (ha : op.Honest db) (h : Commits op.run db () db') : Effect db db' op := by
  cases op with
  | quote input =>
    obtain ⟨_, h⟩ := LedgerRuns.commits_quietly h
    exact .quoted h
  | quoteAmendment i input =>
    obtain ⟨_, h⟩ := LedgerRuns.commits_quietly h
    simp only [commits_bind, commits_lockedReservation] at h
    obtain ⟨r, _, ⟨_, rfl⟩, h⟩ := h
    exact .quoted (BookingQuoteService.commits_createAmendment h)
  | commit i guestId data companions actor =>
    obtain ⟨_, h⟩ := LedgerRuns.commits_quietly h
    obtain ⟨q, hq, hsame | h⟩ := CommitBookingQuote.commits_handle h
    · exact .same hsame
    · exact .committed (Table.find?_eq_some.mp hq).1 h
  | amend i input actor =>
    obtain ⟨_, h⟩ := LedgerRuns.commits_quietly h
    obtain ⟨r, q, t, hr, hq, _, h⟩ := amended_handle h
    exact .amended hr hq h
  | close i target reason actor =>
    obtain ⟨_, r, hr, ⟨_, hsame⟩ | h⟩ := CloseReservationWithPolicy.commits_handle h
    · exact .same hsame
    · exact .closed (Folio.reservation_id_eq hr ▸ hr) h
  | ledger op =>
    by_cases hop : ∃ s, op = .elsewhere s
    · obtain ⟨s, rfl⟩ := hop
      simp only [Operation.run, LedgerRuns.Operation.run, commits_set] at h
      exact .untouched (h ▸ ha)
    · have hne : ∀ s, op ≠ .elsewhere s := fun s he => hop ⟨s, he⟩
      exact .posted hne h (extends_ledger hne h)

end Effects
end BookingRuns
