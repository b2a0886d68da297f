import LodgeOps.Booking.BookingRuns

namespace BookedTotals
open Schema Transaction BookingRuns BookingQuoteService QuoteTotals

section Figures

def bookedTotal (db : Database) (i : ℕ) (f : FolioLine → ℤ) : ℤ :=
  Folio.lineTotal db i fun l => if l.metadata.includedInBookedTotal then f l else 0

-- The folio says of the reservation what the reservation says of itself.
structure Reconciled (db : Database) (r : Reservation) : Prop where
  net : bookedTotal db r.id FolioLine.netAmountMinor = r.subtotalMinor
  tax : bookedTotal db r.id FolioLine.taxAmountMinor = r.taxMinor
  gross : bookedTotal db r.id FolioLine.grossAmountMinor = r.totalMinor

def amounts (l : FolioLine) : ℤ × ℤ × ℤ :=
  (l.netAmountMinor, l.taxAmountMinor, l.grossAmountMinor)

def bookedShare (i : ℕ) (l : FolioLine) : ℤ × ℤ × ℤ :=
  if l.reservationId = i ∧ l.metadata.includedInBookedTotal = true then amounts l else 0

def booked (db : Database) (i : ℕ) : ℤ × ℤ × ℤ := db.folioLines.total (bookedShare i)

variable {db db' : Database} {r : Reservation} {i : ℕ} {l : FolioLine} {d : Folio.LineDraft}

theorem total_map {ρ M N : Type} [Keyed ρ] [AddCommMonoid M] [AddCommMonoid N] (φ : M →+ N)
    (t : Table ρ) (g : ρ → M) : φ (t.total g) = t.total fun x => φ (g x) := by
  unfold Table.total
  rw [map_list_sum, List.map_map]
  rfl

theorem bookedTotal_eq {f : FolioLine → ℤ} (φ : ℤ × ℤ × ℤ →+ ℤ) (hf : ∀ l, φ (amounts l) = f l) :
    bookedTotal db i f = φ (booked db i) := by
  unfold booked bookedTotal Folio.lineTotal
  rw [total_map]
  refine Table.total_congr fun l _ => ?_
  unfold bookedShare
  by_cases hr : l.reservationId = i
  · by_cases hm : l.metadata.includedInBookedTotal = true
    · simp [hr, hm, hf]
    · simp [hr, hm]
  · simp [hr]

theorem reconciled_iff : Reconciled db r ↔ booked db r.id = figures r := by
  have hn : bookedTotal db r.id FolioLine.netAmountMinor = (booked db r.id).1 :=
    bookedTotal_eq (AddMonoidHom.fst ℤ (ℤ × ℤ)) fun _ => rfl
  have ht : bookedTotal db r.id FolioLine.taxAmountMinor = (booked db r.id).2.1 :=
    bookedTotal_eq ((AddMonoidHom.fst ℤ ℤ).comp (AddMonoidHom.snd ℤ (ℤ × ℤ))) fun _ => rfl
  have hg : bookedTotal db r.id FolioLine.grossAmountMinor = (booked db r.id).2.2 :=
    bookedTotal_eq ((AddMonoidHom.snd ℤ ℤ).comp (AddMonoidHom.snd ℤ (ℤ × ℤ))) fun _ => rfl
  constructor
  · intro h
    have hn := hn.symm.trans h.net
    have ht := ht.symm.trans h.tax
    have hg := hg.symm.trans h.gross
    exact Prod.ext hn (Prod.ext ht hg)
  · intro h
    rw [h] at hn ht hg
    exact ⟨hn, ht, hg⟩

theorem booked_congr (h : db'.folioLines = db.folioLines) : booked db' i = booked db i := by
  unfold booked
  rw [h]

theorem booked_extends (h : Extends db db') : booked db' i = booked db i := by
  obtain ⟨xs, hrows, hx⟩ := h.lines
  have hz : (xs.map (bookedShare i)).sum = 0 := by
    refine List.sum_eq_zero fun y hy => ?_
    obtain ⟨x, hm, rfl⟩ := List.mem_map.mp hy
    simp [bookedShare, hx x hm]
  unfold booked Table.total
  rw [hrows, List.map_append, List.sum_append, hz, add_zero]

def draftFigures (d : Folio.LineDraft) : ℤ × ℤ × ℤ :=
  (d.unitAmountMinor, d.taxAmountMinor, d.unitAmountMinor + d.taxAmountMinor)

theorem booked_posted (hq : d.quantityThousandths = 1000)
    (hm : d.metadata.includedInBookedTotal = true) :
    booked (Folio.posted db r d) i = booked db i + if r.id = i then draftFigures d else 0 := by
  have hl : Folio.lineAmount d.unitAmountMinor d.quantityThousandths = d.unitAmountMinor := by
    rw [hq]
    exact Folio.lineAmount_thousand _
  have ht : (db.folioLines.insert (Folio.line r d db.clock)).total (bookedShare i) =
      db.folioLines.total (bookedShare i) + bookedShare i (Folio.line r d db.clock db.folioLines.next) :=
    Table.total_insert
  refine ht.trans ?_
  simp only [bookedShare, amounts, Folio.line, hl, hm, and_true]
  rfl

end Figures

section Commitment
variable {db db' : Database} {r : Reservation} {i : ℕ} {q : BookingQuote} {actor : Option ℕ}
variable {lines : List BookingQuoteLine} {l : BookingQuoteLine}

theorem booked_postLine (h : Commits (CommitBookingQuote.postLine r actor l) db () db') :
    booked db' i = booked db i + if r.id = i
      then (l.netAmountMinor, l.taxAmountMinor, l.netAmountMinor + l.taxAmountMinor) else 0 := by
  rw [CommitBookingQuote.commits_postLine h]
  exact booked_posted rfl rfl

theorem booked_postLines
    (h : Commits (lines.forM (CommitBookingQuote.postLine r actor)) db () db') :
    booked db' i = booked db i + if r.id = i
      then (netTotal lines, taxTotal lines, netTotal lines + taxTotal lines) else 0 := by
  induction lines generalizing db with
  | nil =>
    rw [commits_forM_nil.mp h]
    simp [netTotal, taxTotal]
  | cons l ls ih =>
    obtain ⟨t, hl, hls⟩ := commits_forM_cons.mp h
    rw [ih hls, booked_postLine hl]
    by_cases hi : r.id = i
    · simp only [if_pos hi, netTotal, taxTotal, List.map_cons, List.sum_cons, add_assoc]
      congr 1
      refine Prod.ext rfl (Prod.ext rfl ?_)
      simp only [Prod.snd_add]
      ring
    · simp [hi]

end Commitment

section Books
variable {db db' t : Database} {r s : Reservation} {i : ℕ} {q : BookingQuote} {actor : Option ℕ}
variable {l : FolioLine} {d : Folio.LineDraft} {op : Operation} {input : BookingInput}

def Split (r : Reservation) : Prop := r.totalMinor = r.subtotalMinor + r.taxMinor

structure Books (db : Database) : Prop where
  lines : ∀ l ∈ db.folioLines.rows, l.metadata.includedInBookedTotal = true →
    l.paymentId = none ∧ l.reservationId < db.reservations.next
  quotes : ∀ q ∈ db.quotes.rows, Coherent q
  split : ∀ r ∈ db.reservations.rows, Split r

def AllReconciled (db : Database) : Prop :=
  ∀ r ∈ db.reservations.rows, booked db r.id = figures r

theorem split_of_figures (h : figures r = figures s) (hs : Split s) : Split r := by
  simp only [figures, Prod.mk.injEq] at h
  unfold Split at hs ⊢
  rw [h.1, h.2.1, h.2.2]
  exact hs

theorem books_of_opening (h : Opening db) : Books db where
  lines l hl := by simp [h.lines] at hl
  quotes q hq := by simp [h.quotes] at hq
  split r hr := by simp [h.reservations] at hr

theorem reconciled_of_opening (h : Opening db) : AllReconciled db := by
  intro r hr
  simp [h.reservations] at hr

theorem mem_of_reservation (h : db.reservation? i = some r) : r ∈ db.reservations.rows :=
  (Table.find?_eq_some.mp h).1

theorem reservation_of_mem (h : r ∈ db.reservations.rows) : db.reservation? r.id = some r :=
  Table.find?_eq_some.mpr ⟨h, rfl⟩

-- Nothing can have been booked on a reservation that is still to come.
theorem booked_fresh (hb : Books db) (hi : db.reservations.next ≤ i) : booked db i = 0 := by
  refine Table.total_eq_zero fun l hl => ?_
  unfold bookedShare
  refine if_neg ?_
  rintro ⟨rfl, hm⟩
  have hlt := (hb.lines l hl hm).2
  omega

theorem books_untouched (hb : Books db) (h : Untouched db db') : Books db' where
  lines l hl hm := by
    obtain ⟨hp, hlt⟩ := hb.lines l (h.lines ▸ hl) hm
    exact ⟨hp, lt_of_lt_of_le hlt h.grows⟩
  quotes := by
    rw [h.quotes]
    exact hb.quotes
  split r hr := by
    rcases h.figures r.id r (reservation_of_mem hr) with ⟨s, hs, hf⟩ | ⟨_, hf⟩
    · exact split_of_figures hf (hb.split s (mem_of_reservation hs))
    · simp only [figures, Prod.mk.injEq] at hf
      unfold Split
      omega

theorem reconciled_untouched (hb : Books db) (hr : AllReconciled db) (h : Untouched db db') :
    AllReconciled db' := by
  intro r hm
  rw [booked_congr h.lines]
  rcases h.figures r.id r (reservation_of_mem hm) with ⟨s, hs, hf⟩ | ⟨hn, hf⟩
  · have hid : s.id = r.id := Folio.reservation_id_eq hs
    rw [hf, ← hr s (mem_of_reservation hs), hid]
  · rw [hf]
    exact booked_fresh hb hn

theorem books_extends (hb : Books db) (h : Extends db db') : Books db' where
  lines l hl hm := by
    obtain ⟨xs, hrows, hx⟩ := h.lines
    rw [hrows] at hl
    rw [h.reservations]
    rcases List.mem_append.mp hl with hl | hl
    · exact hb.lines l hl hm
    · simp [hx l hl] at hm
  quotes := by
    rw [h.quotes]
    exact hb.quotes
  split := by
    rw [h.reservations]
    exact hb.split

theorem reconciled_extends (hr : AllReconciled db) (h : Extends db db') : AllReconciled db' := by
  intro r hm
  rw [h.reservations] at hm
  rw [booked_extends h, hr r hm]

structure Drafted (db db' : Database) (q : BookingQuote) : Prop where
  coherent : Coherent q
  quotes : Table.Appends db.quotes db'.quotes q
  frame : db' = { db with quotes := db'.quotes }

theorem drafted_create (h : Commits (create input) db q db') : Drafted db db' q := by
  obtain ⟨c, hc, rfl, happ, hd⟩ := commits_create h
  exact ⟨toQuote_coherent (preview_coherent hc) _, happ, hd⟩

theorem Drafted.reservations (h : Drafted db db' q) : db'.reservations = db.reservations := by
  rw [h.frame]

theorem Drafted.lines (h : Drafted db db' q) : db'.folioLines = db.folioLines := by rw [h.frame]

theorem books_drafted (hb : Books db) (h : Drafted db db' q) : Books db' where
  lines := by
    rw [h.lines, h.reservations]
    exact hb.lines
  quotes p hp := by
    rcases h.quotes.mem.mp hp with hp | rfl
    · exact hb.quotes p hp
    · exact h.coherent
  split := by
    rw [h.reservations]
    exact hb.split

theorem reconciled_drafted (hr : AllReconciled db) (h : Drafted db db' q) : AllReconciled db' := by
  intro r hm
  rw [h.reservations] at hm
  rw [booked_congr h.lines, hr r hm]

theorem quotes_committed (hb : Books db) {now : ℤ}
    (h : db'.quotes = db.quotes.update q.id (CommitBookingQuote.committed i now)) :
    ∀ p ∈ db'.quotes.rows, Coherent p := by
  intro p hp
  rw [h] at hp
  rcases (Table.mem_update).mp hp with ⟨hp, _⟩ | ⟨c, hc, _, rfl⟩
  · exact hb.quotes p hp
  · exact hb.quotes c hc

-- The lines a commit posts: booked ones of its own reservation, owned by no payment.
def Adds (db : Database) (i : ℕ) (lines : Table FolioLine) : Prop :=
  ∀ l ∈ lines.rows, l ∈ db.folioLines.rows ∨ (l.paymentId = none ∧ l.reservationId = i)

theorem adds_posted (hd : d.paymentId = none) {s : Database}
    (h : Adds db r.id s.folioLines) : Adds db r.id (Folio.posted s r d).folioLines := by
  intro l hl
  rcases (Table.mem_insert).mp hl with hl | rfl
  · exact h l hl
  · exact Or.inr ⟨hd, rfl⟩

theorem adds_postLines {lines : List BookingQuoteLine}
    (ht : t.folioLines = db.folioLines)
    (h : Commits (lines.forM (CommitBookingQuote.postLine r actor)) t () db') :
    Adds db r.id db'.folioLines := by
  refine forM_invariant (I := fun s => Adds db r.id s.folioLines) ?_ ?_ h
  · intro l _ s s' hs hc
    rw [CommitBookingQuote.commits_postLine hc]
    exact adds_posted rfl hs
  · intro l hl
    exact Or.inl (ht ▸ hl)

theorem lines_added (hb : Books db) (h : Adds db i db'.folioLines)
    (hn : db.reservations.next ≤ db'.reservations.next) (hi : i < db'.reservations.next) :
    ∀ l ∈ db'.folioLines.rows, l.metadata.includedInBookedTotal = true →
      l.paymentId = none ∧ l.reservationId < db'.reservations.next := by
  intro l hl hm
  rcases h l hl with hl | ⟨hp, hr⟩
  · obtain ⟨hp, hlt⟩ := hb.lines l hl hm
    exact ⟨hp, lt_of_lt_of_le hlt hn⟩
  · exact ⟨hp, hr ▸ hi⟩

theorem split_booked (h : Coherent q) {guest : Guest} {j : ℕ} :
    Split (CommitBookingQuote.booked q guest j) := coherent_total h

theorem books_committed (hb : Books db) (hq : q ∈ db.quotes.rows)
    (h : CommitBookingQuote.Committed db db' q r actor) : Books db' where
  lines := by
    obtain ⟨t, ht, _, _, hc⟩ := h.lines
    have hadds := adds_postLines ht hc
    have hid : r.id = db.reservations.next := h.reservations.id
    refine lines_added hb hadds ?_ ?_
    · rw [h.reservations.next]
      omega
    · rw [h.reservations.next]
      omega
  quotes := quotes_committed hb h.quotes
  split s hs := by
    obtain ⟨guest, hr⟩ := h.row
    rcases h.reservations.mem.mp hs with hs | rfl
    · exact hb.split s hs
    · rw [hr]
      exact split_booked (hb.quotes q hq)

theorem reconciled_committed (hb : Books db) (hr : AllReconciled db) (hq : q ∈ db.quotes.rows)
    (h : CommitBookingQuote.Committed db db' q r actor) : AllReconciled db' := by
  obtain ⟨t, ht, _, _, hc⟩ := h.lines
  obtain ⟨guest, hrow⟩ := h.row
  have hid : r.id = db.reservations.next := h.reservations.id
  have hlines : ∀ j, booked db' j = booked db j + if r.id = j
      then (netTotal q.lines, taxTotal q.lines, netTotal q.lines + taxTotal q.lines) else 0 := by
    intro j
    have hp := booked_postLines (i := j) hc
    rw [booked_congr ht] at hp
    exact hp
  intro s hs
  rw [hlines]
  rcases h.reservations.mem.mp hs with hs | rfl
  · have hlt : s.id < db.reservations.next := Table.id_lt_next hs
    have hne : r.id ≠ s.id := by omega
    rw [if_neg hne, add_zero, hr s hs]
  · have hco := hb.quotes q hq
    rw [if_pos rfl, booked_fresh hb hid.ge, zero_add, hco.net, hco.tax,
      ← coherent_total hco, hrow]
    rfl

theorem coherent_of_found {j : ℕ} (hb : Books db) (h : db.quotes.find? j = some q) :
    Coherent q := hb.quotes q (Table.find?_eq_some.mp h).1

theorem booked_amended (h : AmendReservation.Amended db db' r q actor) :
    booked db' i = booked db i + if q.totalMinor ≠ r.totalMinor ∧ r.id = i
      then draftFigures (AmendReservation.deltaDraft r q actor) else 0 := by
  obtain ⟨u, hdelta, hlines⟩ := h.lines
  rw [booked_congr hlines]
  rcases AmendReservation.commits_postDelta hdelta with ⟨hne, rfl⟩ | ⟨he, rfl⟩
  · rw [booked_posted rfl rfl]
    simp only [hne, ne_eq, not_false_eq_true, true_and]
    rfl
  · simp only [he, ne_eq, not_true_eq_false, false_and, if_false, add_zero]
    rfl

theorem adds_amended (h : AmendReservation.Amended db db' r q actor) :
    Adds db r.id db'.folioLines := by
  obtain ⟨u, hdelta, hlines⟩ := h.lines
  rw [hlines]
  rcases AmendReservation.commits_postDelta hdelta with ⟨_, rfl⟩ | ⟨_, rfl⟩
  · exact adds_posted rfl fun l hl => Or.inl hl
  · exact fun l hl => Or.inl hl

theorem books_amended (hb : Books db) (h : AmendReservation.Amended db db' r q actor) :
    Books db' where
  lines := by
    have hn : db'.reservations.next = db.reservations.next := by rw [h.reservations]; rfl
    refine lines_added hb (adds_amended h) hn.ge ?_
    rw [hn]
    exact Table.id_lt_next (mem_of_reservation h.found)
  quotes := quotes_committed hb h.quotes
  split s hs := by
    rw [h.reservations] at hs
    rcases (Table.mem_update).mp hs with ⟨hs, _⟩ | ⟨s, _, _, rfl⟩
    · exact hb.split s hs
    · exact coherent_total (coherent_of_found hb h.quoted)

-- The one way an amendment can slip past the folio.
def Silent (r : Reservation) (q : BookingQuote) : Prop :=
  q.totalMinor = r.totalMinor ∧ q.taxMinor ≠ r.taxMinor

theorem amended_figures (h : AmendReservation.Amended db db' r q actor) :
    db'.reservation? r.id = some (AmendReservation.amended q r) ∧
      figures (AmendReservation.amended q r) = (q.subtotalMinor, q.taxMinor, q.totalMinor) := by
  refine ⟨?_, rfl⟩
  unfold Database.reservation?
  rw [h.reservations]
  exact Table.find?_update_self h.found

theorem booked_amendment_iff (hb : Books db) (hr : booked db r.id = figures r)
    (h : AmendReservation.Amended db db' r q actor) :
    booked db' r.id = figures (AmendReservation.amended q r) ↔ ¬ Silent r q := by
  have hq := coherent_total (coherent_of_found hb h.quoted)
  have hs : Split r := hb.split r (mem_of_reservation h.found)
  unfold Split at hs
  rw [booked_amended h, hr, (amended_figures h).2]
  unfold Silent
  by_cases he : q.totalMinor = r.totalMinor
  · have hpair : (r.subtotalMinor, r.taxMinor, r.totalMinor) =
        (q.subtotalMinor, q.taxMinor, q.totalMinor) ↔ q.taxMinor = r.taxMinor := by
      simp only [Prod.mk.injEq]
      omega
    simp only [he, ne_eq, not_true_eq_false, false_and, if_false, add_zero, true_and, not_not]
    rw [← he]
    exact hpair
  · simp only [ne_eq, he, not_false_eq_true, false_and, and_self, if_true, iff_true]
    refine Prod.ext ?_ (Prod.ext ?_ ?_)
    · exact add_sub_cancel _ _
    · exact add_sub_cancel _ _
    · show r.totalMinor + (q.subtotalMinor - r.subtotalMinor + (q.taxMinor - r.taxMinor)) =
      q.totalMinor
      omega

theorem reconciled_amended (hb : Books db) (hr : AllReconciled db) (hv : ¬ Silent r q)
    (h : AmendReservation.Amended db db' r q actor) : AllReconciled db' := by
  have hself := hr r (mem_of_reservation h.found)
  intro s hs
  rw [h.reservations] at hs
  rcases (Table.mem_update).mp hs with ⟨hs, hne⟩ | ⟨p, hp, hid, rfl⟩
  · have hn : ¬ (q.totalMinor ≠ r.totalMinor ∧ r.id = s.id) := fun hc => hne hc.2.symm
    rw [booked_amended h, if_neg hn, add_zero, hr s hs]
  · obtain rfl : p = r := Table.eq_of_id hp (mem_of_reservation h.found) hid
    exact (booked_amendment_iff hb hself h).mpr hv

theorem extends_adjustFolio {target : ReservationStatus} {fee : ℤ} {metadata : LineMetadata}
    (h : Commits (CloseReservationWithPolicy.adjustFolio r target fee metadata actor) db () t) :
    Extends db t := by
  rcases CloseReservationWithPolicy.commits_adjustFolio h with ⟨_, _, rfl⟩ | ⟨_, rfl⟩
  · exact extends_posted rfl
  · exact extends_of_eq rfl rfl rfl

theorem untouched_settledState {target : ReservationStatus} {reason : String} {i : ℕ}
    {s : Reservation}
    (h : (CloseReservationWithPolicy.settledState db t r target reason).reservation? i = some s) :
    ∃ p, t.reservation? i = some p ∧ figures s = figures p := by
  have hf : (t.reservations.update r.id
      (CloseReservationWithPolicy.closed target reason)).find? i = some s := h
  rw [Table.find?_update] at hf
  split_ifs at hf with hi
  · obtain ⟨p, hp, rfl⟩ := Option.map_eq_some_iff.mp hf
    exact ⟨p, hp, rfl⟩
  · exact ⟨s, hf, rfl⟩

theorem books_closed {target : ReservationStatus} {reason : String} (hb : Books db)
    (h : CloseReservationWithPolicy.Closes db db' r target reason actor) : Books db' := by
  obtain ⟨t, hfolio, rfl⟩ := h.writes
  have ht := books_extends hb (extends_adjustFolio hfolio)
  refine ⟨ht.lines, ht.quotes, fun s hs => ?_⟩
  obtain ⟨p, hp, hf⟩ := untouched_settledState (reservation_of_mem hs)
  exact split_of_figures hf (ht.split p (mem_of_reservation hp))

theorem reconciled_closed {target : ReservationStatus} {reason : String} (hr : AllReconciled db)
    (h : CloseReservationWithPolicy.Closes db db' r target reason actor) : AllReconciled db' := by
  obtain ⟨t, hfolio, rfl⟩ := h.writes
  have ht := reconciled_extends hr (extends_adjustFolio hfolio)
  intro s hs
  obtain ⟨p, hp, hf⟩ := untouched_settledState (reservation_of_mem hs)
  have hid : p.id = s.id := Folio.reservation_id_eq hp
  rw [hf, ← ht p (mem_of_reservation hp), hid]
  rfl

end Books

section Runs
variable {db db' s t : Database} {op : Operation}

-- An amendment whose price keeps the total but moves money between subtotal and tax.
def MovesTax (db : Database) (i : ℕ) (input : BookingInput) : Prop :=
  ∃ r c, db.reservation? i = some r ∧ preview db (amendmentInput db r input) = .ok c ∧
    c.totalMinor = r.totalMinor ∧ c.taxMinor ≠ r.taxMinor

def Repriced (op : Operation) (db : Database) : Prop :=
  match op with
  | .amend i input _ => ¬ MovesTax db i input
  | _ => op.Honest db

theorem honest_of_repriced (h : Repriced op db) : op.Honest db := by
  cases op with
  | amend => trivial
  | _ => exact h

theorem books_effect (hb : Books db) (h : Effect db db' op) : Books db' := by
  cases h with
  | same he => exact he ▸ hb
  | untouched hu => exact books_untouched hb hu
  | posted _ _ hx => exact books_extends hb hx
  | quoted hq => exact books_drafted hb (drafted_create hq)
  | committed hq hc => exact books_committed hb hq hc
  | amended _ hq ha =>
    exact books_amended (books_drafted hb (drafted_create (commits_createAmendment hq))) ha
  | closed _ hc => exact books_closed hb hc

theorem not_silent_of_repriced {i : ℕ} {input : BookingInput} {actor : Option ℕ}
    {r : Reservation} {q : BookingQuote} (ha : Repriced (.amend i input actor) db)
    (hr : db.reservation? i = some r) (hq : Commits (createAmendment r input) db q t) :
    ¬ Silent r q := by
  obtain ⟨c, hc, rfl, _⟩ := commits_create (commits_createAmendment hq)
  rintro ⟨he, hne⟩
  exact ha ⟨r, c, hr, hc, he, hne⟩

theorem reconciled_effect (hb : Books db) (hr : AllReconciled db) (ha : Repriced op db)
    (h : Effect db db' op) : AllReconciled db' := by
  cases h with
  | same he => exact he ▸ hr
  | untouched hu => exact reconciled_untouched hb hr hu
  | posted _ _ hx => exact reconciled_extends hr hx
  | quoted hq => exact reconciled_drafted hr (drafted_create hq)
  | committed hq hc => exact reconciled_committed hb hr hq hc
  | amended hf hq hm =>
    have hd := drafted_create (commits_createAmendment hq)
    exact reconciled_amended (books_drafted hb hd) (reconciled_drafted hr hd)
      (not_silent_of_repriced ha hf hq) hm
  | closed _ hc => exact reconciled_closed hr hc

theorem books_run (hs : Opening s) (h : Reaches Operation.run Operation.Honest s t) : Books t :=
  h.invariant (books_of_opening hs) fun _ _ _ hb ha hc => books_effect hb (effect_run ha hc)

theorem repriced_runs_reconcile (hs : Opening s) (h : Reaches Operation.run Repriced s t) :
    ∀ r ∈ t.reservations.rows, Reconciled t r := by
  have hboth := h.invariant (I := fun db => Books db ∧ AllReconciled db)
    ⟨books_of_opening hs, reconciled_of_opening hs⟩ fun _ _ _ ⟨hb, hr⟩ ha hc =>
      have he := effect_run (honest_of_repriced ha) hc
      ⟨books_effect hb he, reconciled_effect hb hr ha he⟩
  exact fun r hr => reconciled_iff.mpr (hboth.2 r hr)

end Runs

section Scenario

instance (db : Database) (r : Reservation) : Decidable (Reconciled db r) :=
  decidable_of_iff _ reconciled_iff.symm

def flatRate (i : ℕ) : RateRule where
  id := i
  version := 1
  priority := 0
  resourceCategoryId := none
  programId := none
  startsOn := none
  endsOn := none
  weekdays := []
  priceType := .perNight
  amountMinor := 10000
  adultAmountMinor := none
  childAmountMinor := none
  infantAmountMinor := none
  singleSupplementMinor := 0
  groupTiers := []
  lengthOfStayAdjustmentBasisPoints := 0
  minimumStay := 1
  maximumStay := none
  minimumAdvanceDays := none
  maximumAdvanceDays := none
  minimumOccupancy := none
  maximumOccupancy := none
  allowedArrivalDays := []
  buyoutOnly := false
  blackout := false
  stopSell := false
  closedToArrival := false
  closedToDeparture := false

def standardPlan (i : ℕ) : RatePlan where
  id := i
  propertyId := 0
  version := 1
  state := .published
  isActive := true
  currency := "USD"
  activeFrom := none
  activeUntil := none
  minimumOccupancy := 1
  maximumOccupancy := none
  depositPolicyId := none
  cancellationPolicyId := none
  rules := [flatRate 0]
  services := []

def salesTax (basisPoints : ℤ) (activeFrom activeUntil : Option ℤ) (i : ℕ) : TaxRule where
  id := i
  version := 1
  propertyId := 0
  name := "Sales tax"
  state := .published
  isActive := true
  currency := none
  calculationType := .percentage
  percentageBasisPoints := basisPoints
  fixedAmountMinor := 0
  isInclusive := true
  roundingScope := .total
  roundingMode := .halfUp
  taxableDiscountAllocation := .beforeTax
  activeFrom := activeFrom
  activeUntil := activeUntil
  priority := 0

def cabins : Catalogue where
  categories := Table.empty.insert fun i => ⟨i, 0, .place, "Cabin", true, true, 0⟩
  resources := Table.empty.insert fun i =>
    ⟨i, 0, 0, 4, true, false, false, .absent, .absent, .absent, "Cabin 1"⟩
  timezone := fun _ _ => 0
  categorised := by decide +kernel
  separated := by decide +kernel
  stayIsPlace := by decide +kernel

-- The inclusive tax rises on the twentieth day, the price of a night does not.
def season : Database where
  clock := 0
  catalogue := cabins
  properties := Table.empty.insert fun i => ⟨i, true⟩
  ratePlans := Table.empty.insert standardPlan
  taxRules := (Table.empty.insert (salesTax 1000 none (some 19))).insert
    (salesTax 2100 (some 20) none)

def nightsFrom (day nights : ℤ) : BookingInput where
  propertyId := some 0
  resourceCategoryId := some 0
  ratePlanId := some 0
  startsAt := some (day * 86400)
  endsAt := some ((day + nights) * 86400)
  adults := 2

theorem opening_season : Opening season := ⟨rfl, rfl, rfl, rfl, rfl⟩

def booking : List Operation :=
  [.quote (nightsFrom 10 1), .commit 0 none { firstName := "Ana" } [] none]

def plainly : Operation → Bool
  | .ledger _ => false
  | _ => true

theorem honest_of_plainly {op : Operation} {db : Database} (h : plainly op = true) :
    op.Honest db := by
  cases op with
  | ledger => cases h
  | _ => trivial

instance (db : Database) (i : ℕ) (input : BookingInput) : Decidable (MovesTax db i input) :=
  match hr : db.reservation? i with
  | none => isFalse fun ⟨_, _, h, _⟩ => by simp [hr] at h
  | some r =>
    match hc : preview db (amendmentInput db r input) with
    | .error _ => isFalse fun ⟨_, _, h, hp, _⟩ => by
        obtain rfl := Option.some.inj (hr.symm.trans h)
        simp [hc] at hp
    | .ok c => decidable_of_iff (c.totalMinor = r.totalMinor ∧ c.taxMinor ≠ r.taxMinor)
        ⟨fun h => ⟨r, c, hr, hc, h⟩, fun ⟨_, _, h, hp, hm⟩ => by
          obtain rfl := Option.some.inj (hr.symm.trans h)
          obtain rfl := Except.ok.inj (hc.symm.trans hp)
          exact hm⟩

def repricedly (op : Operation) (db : Database) : Bool :=
  match op with
  | .amend i input _ => decide (¬ MovesTax db i input)
  | op => plainly op

theorem repriced_of_repricedly {op : Operation} {db : Database} (h : repricedly op db = true) :
    Repriced op db := by
  cases op with
  | amend i input actor =>
    have hn : ¬ MovesTax db i input := of_decide_eq_true h
    exact hn
  | ledger => cases h
  | _ => trivial

-- The guest stays a night longer and moves into the days of the higher tax.
theorem extended_stay_reconciles : ∃ t, Reaches Operation.run Repriced season t ∧
    (t.reservations.rows.map Reservation.totalMinor = [20000]) ∧
      ∀ r ∈ t.reservations.rows, Reconciled t r := by
  obtain ⟨t, hr, hp⟩ : ∃ t, Reaches Operation.run Repriced season t ∧
      decide (t.reservations.rows.map Reservation.totalMinor = [20000]) = true :=
    Reaches.exists_of_execute (fun _ _ => repriced_of_repricedly)
      (booking ++ [.amend 0 (nightsFrom 20 2) none]) (by decide +kernel)
  exact ⟨t, hr, of_decide_eq_true hp, repriced_runs_reconcile opening_season hr⟩

theorem moved_stay_leaves_folio_behind : Opening season ∧
    ∃ t, Reaches Operation.run Operation.Honest season t ∧
      ∃ r ∈ t.reservations.rows, ¬ Reconciled t r := by
  obtain ⟨t, hr, hp⟩ : ∃ t, Reaches Operation.run Operation.Honest season t ∧
      decide (∃ r ∈ t.reservations.rows, ¬ Reconciled t r) = true :=
    Reaches.exists_of_execute (fun _ _ => honest_of_plainly)
      (booking ++ [.amend 0 (nightsFrom 20 1) none]) (by decide +kernel)
  exact ⟨opening_season, t, hr, of_decide_eq_true hp⟩

end Scenario
end BookedTotals
