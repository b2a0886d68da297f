import LodgeOps.Booking.BookedTotals

namespace MoneyReceived
open Schema Transaction BookingRuns BookingQuoteService BookedTotals
open Settlement (Sound book settles settled received returned kept)
open CloseReservationWithPolicy (paidMinor completedRefunds feeMinor openDeposit waivedOf)

section Soundness
variable {db db' t : Database} {op : Operation} {q : BookingQuote} {r : Reservation}
variable {actor : Option ℕ} {input : BookingInput} {lines : List BookingQuoteLine}

theorem sound_untouched (hs : Sound (book db)) (h : Untouched db db') : Sound (book db') where
  reverses := by
    have hr := hs.reverses
    unfold book at hr ⊢
    rwa [h.lines]
  owners := by
    have hr := hs.owners
    unfold book at hr ⊢
    rwa [h.lines, h.payments]
  refunds l hl ht i hi := by
    have hm : l ∈ db'.folioLines.rows := hl
    rw [h.lines] at hm
    exact lt_of_lt_of_le (hs.refunds l hm ht i hi) h.changes
  pledged := by
    have hr := hs.pledged
    unfold book at hr ⊢
    rwa [h.lines, h.payments]
  posted := by
    have hr := hs.posted
    unfold Settlement.Unreversed book at hr ⊢
    rwa [h.lines, h.payments]
  balanced i := by
    have hr := hs.balanced i
    unfold Settlement.Balanced at hr ⊢
    rw [h.returned i]
    unfold settled received book at hr ⊢
    rw [h.lines, h.payments]
    exact hr

theorem sound_same {b b' : Settlement.Book} (hs : Sound b) (hl : b'.lines = b.lines)
    (hp : b'.payments = b.payments) (hc : b'.changes = b.changes) : Sound b' := by
  cases b
  cases b'
  simp only at hl hp hc
  rwa [hl, hp, hc]

theorem sound_postLines (hs : Sound (book t))
    (h : Commits (lines.forM (CommitBookingQuote.postLine r actor)) t () db') :
    Sound (book db') := by
  refine forM_invariant (I := fun s => Sound (book s)) ?_ hs h
  intro l _ s s' hs hc
  rw [CommitBookingQuote.commits_postLine hc]
  exact LedgerRuns.sound_posted_plain hs rfl rfl (Or.inl rfl)

theorem sound_committed (hs : Sound (book db))
    (h : CommitBookingQuote.Committed db db' q r actor) : Sound (book db') := by
  obtain ⟨t, hl, hp, hc, hpost⟩ := h.lines
  have ht : Sound (book t) := sound_same hs hl hp hc
  exact sound_same (sound_postLines ht hpost) rfl (h.payments.trans hp.symm)
    (h.changes.trans hc.symm)

theorem sound_amended (hs : Sound (book db)) (h : AmendReservation.Amended db db' r q actor) :
    Sound (book db') := by
  obtain ⟨k, effects, hc⟩ := h.changes
  obtain ⟨u, hdelta, hlines⟩ := h.lines
  have hu : Sound (book u) ∧ u.payments = db.payments ∧ u.changes = db.changes := by
    rcases AmendReservation.commits_postDelta hdelta with ⟨_, rfl⟩ | ⟨_, rfl⟩
    · exact ⟨LedgerRuns.sound_posted_plain hs rfl rfl (Or.inr rfl), rfl, rfl⟩
    · exact ⟨hs, rfl, rfl⟩
  refine Settlement.sound_note hu.1 hlines (h.payments.trans hu.2.1.symm) (hu.2.2 ▸ hc) rfl

theorem sound_closed {target : ReservationStatus} {reason : String} (hs : Sound (book db))
    (h : CloseReservationWithPolicy.Closes db db' r target reason actor) : Sound (book db') := by
  obtain ⟨t, hfolio, rfl⟩ := h.writes
  have ht : Sound (book t) := by
    rcases CloseReservationWithPolicy.commits_adjustFolio hfolio with ⟨_, _, rfl⟩ | ⟨_, rfl⟩
    · exact LedgerRuns.sound_posted_plain hs rfl rfl (Or.inr rfl)
    · exact hs
  refine Settlement.sound_note ht rfl rfl Table.appends_insert ?_
  unfold CloseReservationWithPolicy.closingChange RequestRefund.isCompletion
  by_cases hn : target = .noShow
  · simp [hn]
  · simp [hn]

theorem sound_effect (hs : Sound (book db)) (ha : op.Checked db) (h : Effect db db' op) :
    Sound (book db') := by
  cases h with
  | same he => exact he ▸ hs
  | untouched hu => exact sound_untouched hs hu
  | posted hop hc _ => exact LedgerRuns.sound_run hs (ha.ledger hop) hc
  | quoted hq =>
    have hd := (drafted_create hq).frame
    rw [hd]
    exact hs
  | committed _ hc => exact sound_committed hs hc
  | amended _ hq hm =>
    have hd := (drafted_create (commits_createAmendment hq)).frame
    refine sound_amended ?_ hm
    rw [hd]
    exact hs
  | closed _ hc => exact sound_closed hs hc

theorem sound_run {s : Database} (hs : Opening s)
    (h : Reaches Operation.run Operation.Checked s t) : Sound (book t) ∧ Books t := by
  have hopen : Settlement.Opening (book s) :=
    ⟨hs.payments, by simp [book, hs.lines], by simp [book, hs.changes]⟩
  refine h.invariant (I := fun db => Sound (book db) ∧ Books db)
    ⟨Settlement.sound_of_opening hopen, books_of_opening hs⟩ fun _ _ _ hb ha hc => ?_
  have he := effect_run ha.honest hc
  exact ⟨sound_effect hb.1 ha he, books_effect hb.2 he⟩

end Soundness

section Ledger
variable {db db' : Database} {i : ℕ} {r : Reservation}

def refundedMinor (db : Database) (i : ℕ) : ℤ :=
  db.payments.total fun p =>
    if p.reservationId = i ∧ p.status = .refunded then p.amountMinor else 0

-- Beside what was booked, the folio holds only payments, refunds and payment reversals.
def OnlyMoney (db : Database) (i : ℕ) : Prop :=
  ∀ l ∈ db.folioLines.rows, l.reservationId = i → l.metadata.includedInBookedTotal = false →
    settles db.folioLines l = true

instance (db : Database) (i : ℕ) : Decidable (OnlyMoney db i) :=
  inferInstanceAs (Decidable (∀ l ∈ _, _))

theorem completedRefunds_eq : completedRefunds db i = returned (book db) i := rfl

theorem received_eq : received (book db) i = paidMinor db i + refundedMinor db i := by
  unfold received paidMinor refundedMinor
  rw [← Table.total_add]
  refine Table.total_congr fun p _ => ?_
  by_cases hi : p.reservationId = i
  · cases hp : p.status with
    | succeeded => simp [hi, kept, hp]
    | refunded => simp [hi, kept, hp]
    | pending => simp [kept, hp]
    | failed => simp [kept, hp]
    | reversed => simp [kept, hp]
  · simp [hi]

theorem unsettled_booked {l : FolioLine} (hb : Books db) (hl : l ∈ db.folioLines.rows)
    (hm : l.metadata.includedInBookedTotal = true) : settles db.folioLines l = false := by
  simp [settles, (hb.lines l hl hm).1]

theorem lineTotal_sub {f g : FolioLine → ℤ} :
    Folio.lineTotal db i f - Folio.lineTotal db i g = Folio.lineTotal db i fun l => f l - g l := by
  rw [sub_eq_iff_eq_add]
  unfold Folio.lineTotal
  rw [← Table.total_add]
  refine Table.total_congr fun l _ => ?_
  by_cases hi : l.reservationId = i
  · simp [hi]
  · simp [hi]

theorem delta_settled (hb : Books db) (hm : OnlyMoney db r.id) :
    (Folio.summary db r).ledgerDeltaMinor = settled (book db) r.id := by
  simp only [Folio.summary, lineTotal_sub]
  unfold settled Folio.lineTotal book
  refine Table.total_congr fun l hl => ?_
  by_cases hr : l.reservationId = r.id
  · cases hi : l.metadata.includedInBookedTotal with
    | true => simp [hr, hi, unsettled_booked hb hl hi]
    | false => simp [hr, hi, hm l hl hr hi]
  · simp [hr]

theorem delta_money (hs : Sound (book db)) (hb : Books db) (hm : OnlyMoney db r.id) :
    (Folio.summary db r).ledgerDeltaMinor =
      -(paidMinor db r.id + refundedMinor db r.id) + completedRefunds db r.id := by
  have h := hs.balanced r.id
  unfold Settlement.Balanced at h
  rw [delta_settled hb hm, h, received_eq, completedRefunds_eq]

theorem max_agree_iff {a b : ℤ} : max 0 a = max 0 (a + b) ↔ b = 0 ∨ (a ≤ 0 ∧ a + b ≤ 0) := by
  omega

end Ledger

section Deposits
variable {db db' : Database} {i : ℕ} {r : Reservation} {q : BookingQuote} {actor : Option ℕ}
variable {paid now : ℤ} {deposits : Table Deposit} {reason kind : String} {amount dueAt : ℤ}

def dueShare (i : ℕ) (d : Deposit) : ℤ := if openDeposit i d = true then d.amountMinor else 0

def dueMinor (db : Database) (i : ℕ) : ℤ := db.deposits.total (dueShare i)

theorem due_waived : (waivedOf i reason deposits).total (dueShare i) = 0 := by
  refine Table.total_eq_zero fun d hd => if_neg ?_
  intro hopen
  simp only [openDeposit, Bool.and_eq_true, beq_iff_eq] at hopen
  exact Cancellation.none_due_after hd hopen.1 hopen.2

theorem due_scheduled (h : 0 ≤ amount) :
    (ReservationPaymentScheduleService.schedule r kind amount dueAt deposits).total
      (dueShare r.id) = deposits.total (dueShare r.id) + amount := by
  unfold ReservationPaymentScheduleService.schedule
  split_ifs with hz
  · obtain rfl : amount = 0 := le_antisymm hz h
    rw [add_zero]
  · rw [Table.total_insert]
    simp [dueShare, openDeposit, ReservationPaymentScheduleService.scheduled]

theorem due_rescheduled : (ReservationPaymentScheduleService.rescheduled r paid now
    (waivedOf r.id reason deposits)).total (dueShare r.id) = max 0 (r.totalMinor - paid) := by
  unfold ReservationPaymentScheduleService.rescheduled
  have hdep : 0 ≤ ReservationPaymentScheduleService.depositOutstanding r paid :=
    le_min (le_max_left _ _) (le_max_left _ _)
  have hbal : 0 ≤ ReservationPaymentScheduleService.balanceOutstanding r paid :=
    sub_nonneg.mpr (min_le_left _ _)
  split_ifs with hr
  · rw [due_scheduled hbal, due_scheduled hdep, due_waived]
    unfold ReservationPaymentScheduleService.balanceOutstanding
      ReservationPaymentScheduleService.remainingMinor
    ring
  · have hz : ReservationPaymentScheduleService.remainingMinor r paid = 0 :=
      le_antisymm (not_lt.mp hr) (le_max_left _ _)
    rw [due_waived]
    exact hz.symm

theorem due_amended (h : AmendReservation.Amended db db' r q actor) :
    dueMinor db' r.id = max 0 (q.totalMinor - paidMinor db r.id) := by
  unfold dueMinor
  rw [h.deposits]
  exact due_rescheduled

end Deposits

section Agreement
variable {s t u : Database} {i : ℕ} {r : Reservation} {q : BookingQuote} {actor : Option ℕ}

-- The deposits know nothing of a refund, unless its payment became Refunded as a whole.
def DepositsAgree (db : Database) (i : ℕ) (totalMinor : ℤ) : Prop :=
  completedRefunds db i = refundedMinor db i ∨
    (totalMinor ≤ paidMinor db i ∧
      totalMinor + completedRefunds db i ≤ paidMinor db i + refundedMinor db i)

-- A payment refunded as a whole counts for nothing here, and its refund is taken off once more.
def RefundAgrees (db : Database) (r : Reservation) : Prop :=
  refundedMinor db r.id = 0 ∨
    (paidMinor db r.id ≤ completedRefunds db r.id + feeMinor db r ∧
      paidMinor db r.id + refundedMinor db r.id ≤ completedRefunds db r.id + feeMinor db r)

theorem onlyMoney_amended (hw : Settlement.Wired (book t)) (hm : OnlyMoney t r.id)
    (h : AmendReservation.Amended t u r q actor) : OnlyMoney u r.id := by
  obtain ⟨v, hdelta, hlines⟩ := h.lines
  unfold OnlyMoney at hm ⊢
  rw [hlines]
  rcases AmendReservation.commits_postDelta hdelta with ⟨_, rfl⟩ | ⟨_, rfl⟩
  · intro l hl hr hi
    rcases (Table.mem_insert).mp hl with hl | rfl
    · have happ : Table.Appends (book t).lines
          (book (Folio.posted t r (AmendReservation.deltaDraft r q actor))).lines _ :=
        Folio.appends_posted rfl
      exact (Settlement.settles_append hw happ hl).trans (hm l hl hr hi)
    · cases hi
  · exact hm

theorem money_amended (h : AmendReservation.Amended t u r q actor) :
    paidMinor u r.id = paidMinor t r.id ∧ refundedMinor u r.id = refundedMinor t r.id ∧
      completedRefunds u r.id = completedRefunds t r.id := by
  obtain ⟨k, effects, hc⟩ := h.changes
  refine ⟨?_, ?_, ?_⟩
  · unfold paidMinor
    rw [h.payments]
  · unfold refundedMinor
    rw [h.payments]
  · unfold completedRefunds
    rw [hc.total]
    simp [AmendReservation.amendmentChange, RequestRefund.isCompletion]

theorem deposits_agree_iff (hs : Sound (book t)) (hb : Books t) (hm : OnlyMoney t r.id)
    (h : AmendReservation.Amended t u r q actor) :
    dueMinor u r.id = max 0 (Folio.summary u (AmendReservation.amended q r)).balanceMinor ↔
      DepositsAgree t r.id q.totalMinor := by
  obtain ⟨hp, hr, hc⟩ := money_amended h
  have hid : (AmendReservation.amended q r).id = r.id := rfl
  have htotal : (AmendReservation.amended q r).totalMinor = q.totalMinor := rfl
  have hmoney := onlyMoney_amended hs.toWired hm h
  have hdelta := delta_money (r := AmendReservation.amended q r) (sound_amended hs h)
    (books_amended hb h) hmoney
  rw [hid, hp, hr, hc] at hdelta
  rw [due_amended h, Cancellation.balance_eq, hdelta, htotal]
  unfold DepositsAgree
  omega

theorem refund_agrees_iff {target : ReservationStatus} {reason : String} {r' : Reservation}
    (hs : Sound (book t)) (hb : Books t) (hm : OnlyMoney t r.id)
    (hr : r ∈ t.reservations.rows) (hid : r'.id = r.id) (htotal : r'.totalMinor = r.totalMinor)
    (h : CloseReservationWithPolicy.Closes t u r target reason actor) :
    CloseReservationWithPolicy.refundRequirement t r =
        max 0 (-(Folio.summary u r').balanceMinor) ↔ RefundAgrees t r := by
  rw [Cancellation.balance_closes (hb.split r hr) h hid htotal, delta_money hs hb hm]
  unfold CloseReservationWithPolicy.refundRequirement RefundAgrees
  omega

theorem deposits_agree_drafted {db : Database} {p : BookingQuote} {totalMinor : ℤ}
    (h : Drafted db t p) : DepositsAgree t i totalMinor ↔ DepositsAgree db i totalMinor := by
  rw [h.frame]
  rfl

theorem amendment_agrees_iff {input : BookingInput} {r' : Reservation} (hs : Sound (book t))
    (hb : Books t) (hm : OnlyMoney t i)
    (h : Commits (AmendReservation.handle i input actor) t r' u) :
    ∃ r c, t.reservation? i = some r ∧ preview t (amendmentInput t r input) = .ok c ∧
      (dueMinor u i = max 0 (Folio.summary u r').balanceMinor ↔
        DepositsAgree t i c.totalMinor) := by
  obtain ⟨r, q, v, hr, hq, rfl, ha⟩ := amended_handle h
  obtain rfl : r.id = i := Folio.reservation_id_eq hr
  have hcreate := commits_createAmendment hq
  have hd := drafted_create hcreate
  obtain ⟨c, hc, hqc, _⟩ := commits_create hcreate
  have hv : Sound (book v) := by
    rw [hd.frame]
    exact hs
  have hmv : OnlyMoney v r.id := by
    rw [hd.frame]
    exact hm
  have htotal : q.totalMinor = c.totalMinor := by
    rw [hqc]
    rfl
  refine ⟨r, c, hr, hc, ?_⟩
  rw [deposits_agree_iff hv (books_drafted hb hd) hmv ha, htotal]
  exact deposits_agree_drafted hd

theorem closure_agrees_iff {target : ReservationStatus} {reason : String}
    (hs : Sound (book t)) (hb : Books t) (hr : t.reservation? i = some r) (hm : OnlyMoney t i)
    (h : Commits (CloseReservationWithPolicy.handle i target reason actor) t () u)
    (hne : r.status ≠ target) :
    ∃ r' c m, u.reservation? i = some r' ∧ Table.Appends t.changes u.changes c ∧
      c.closure = some m ∧
      (m.refundRequirementMinor = max 0 (-(Folio.summary u r').balanceMinor) ↔
        RefundAgrees t r) := by
  obtain rfl : r.id = i := Folio.reservation_id_eq hr
  obtain ⟨_, p, hp, ⟨hst, _⟩ | hcl⟩ := CloseReservationWithPolicy.commits_handle h
  · obtain rfl : r = p := Option.some.inj (hr.symm.trans hp)
    exact absurd hst hne
  obtain rfl : r = p := Option.some.inj (hr.symm.trans hp)
  obtain ⟨v, hfolio, hu⟩ := hcl.writes
  have hframe : v = { t with folioLines := v.folioLines } := by
    rcases CloseReservationWithPolicy.commits_adjustFolio hfolio with ⟨_, _, rfl⟩ | ⟨_, rfl⟩
    · rfl
    · rfl
  have hfind : u.reservation? r.id = some (CloseReservationWithPolicy.closed target
      (trim reason) r) := by
    have hv : v.reservation? r.id = some r := by rw [hframe]; exact hr
    rw [hu]
    exact Table.find?_update_self hv
  have hchanges : Table.Appends t.changes u.changes (CloseReservationWithPolicy.closingChange r
      target (feeMinor t r) (trim reason) (CloseReservationWithPolicy.closureMetadata t r) t.clock
      t.changes.next) := by
    rw [hu, hframe]
    exact Table.appends_insert
  exact ⟨_, _, _, hfind, hchanges, rfl,
    refund_agrees_iff hs hb hm (mem_of_reservation hr) rfl rfl hcl⟩

-- From every state the system can reach, through any history of payments and refunds.
theorem money_received_agrees_iff (hs : Opening s)
    (h : Reaches Operation.run Operation.Checked s t) (hr : t.reservation? i = some r)
    (hm : OnlyMoney t i) :
    (∀ input actor r' u, Commits (AmendReservation.handle i input actor) t r' u →
      ∃ c, preview t (amendmentInput t r input) = .ok c ∧
        (dueMinor u i = max 0 (Folio.summary u r').balanceMinor ↔
          DepositsAgree t i c.totalMinor)) ∧
    (∀ target reason actor u,
      Commits (CloseReservationWithPolicy.handle i target reason actor) t () u →
      r.status ≠ target → ∃ r' c m, u.reservation? i = some r' ∧
        Table.Appends t.changes u.changes c ∧ c.closure = some m ∧
        (m.refundRequirementMinor = max 0 (-(Folio.summary u r').balanceMinor) ↔
          RefundAgrees t r)) := by
  obtain ⟨hsound, hbooks⟩ := sound_run hs h
  constructor
  · intro input actor r' u hc
    obtain ⟨p, c, hp, hprice, hiff⟩ := amendment_agrees_iff hsound hbooks hm hc
    obtain rfl : r = p := Option.some.inj (hr.symm.trans hp)
    exact ⟨c, hprice, hiff⟩
  · intro target reason actor u hc hne
    exact closure_agrees_iff hsound hbooks hr hm hc hne

end Agreement

section Scenario

def checkedly (op : Operation) (db : Database) : Bool :=
  match op with
  | .ledger op => LedgerRuns.checkedly op db
  | _ => true

theorem checked_of_checkedly {op : Operation} {db : Database} (h : checkedly op db = true) :
    op.Checked db := by
  cases op with
  | ledger op =>
    have hl : LedgerRuns.checkedly op db = true := h
    have hc : op.Checked db := LedgerRuns.checked_of_checkedly hl
    cases op with
    | elsewhere => cases h
    | _ => exact hc
  | _ => trivial

def afterwards {α : Type} (x : Tx α) (p : α → Database → Bool) (db : Database) : Bool :=
  match x.run db with
  | .ok (a, u) => p a u
  | .error _ => false

theorem of_afterwards {α : Type} {x : Tx α} {p : α → Database → Bool} {db : Database}
    (h : afterwards x p db = true) : ∃ a u, Commits x db a u ∧ p a u = true := by
  unfold afterwards at h
  cases hx : x.run db with
  | error e => simp [hx] at h
  | ok y =>
    obtain ⟨a, u⟩ := y
    rw [hx] at h
    exact ⟨a, u, hx, h⟩

def takeCash (amountMinor : ℤ) : Operation :=
  .ledger (.recordFrontDesk 0 .cash amountMinor none none)

-- The stay is cut to one night, which leaves a credit, and part of it is given back.
def shortenAndGiveBack (paymentId : ℕ) (amountMinor : ℤ) : List Operation :=
  [.amend 0 (nightsFrom 20 1) none,
    .ledger (.requestRefund 0 paymentId amountMinor "Agreed with the guest"),
    .ledger (.completeRefund 1 "drawer" none)]

def longBooking : List Operation :=
  [.quote (nightsFrom 20 2), .commit 0 none { firstName := "Ana" } [] none]

def depositsMatch (r : Reservation) (u : Database) : Bool :=
  decide (dueMinor u 0 = max 0 (Folio.summary u r).balanceMinor)

def requirementMatches (_ : Unit) (u : Database) : Bool :=
  (u.reservation? 0).any fun r => u.changes.rows.any fun c => c.closure.any fun m =>
    decide (m.refundRequirementMinor = max 0 (-(Folio.summary u r).balanceMinor))

theorem run_to {p : Database → Bool} (ops : List Operation)
    (h : (Reaches.execute Operation.run checkedly ops season).any p = true) :
    ∃ t, Reaches Operation.run Operation.Checked season t ∧ p t = true :=
  Reaches.exists_of_execute (fun _ _ => checked_of_checkedly) ops h

theorem not_matches {u : Database} (h : requirementMatches () u = false) :
    ∀ r' c m, u.reservation? 0 = some r' → c ∈ u.changes.rows → c.closure = some m →
      m.refundRequirementMinor ≠ max 0 (-(Folio.summary u r').balanceMinor) := by
  intro r' c m hr hc hm he
  have ht : requirementMatches () u = true := by
    unfold requirementMatches
    rw [hr]
    exact List.any_eq_true.mpr ⟨c, hc, by simp [hm, he]⟩
  rw [h] at ht
  cases ht

-- A part payment and no refund: the new deposits ask for exactly what the folio still asks for.
theorem part_payment_agrees : ∃ t r u r', Reaches Operation.run Operation.Checked season t ∧
    t.reservation? 0 = some r ∧ OnlyMoney t 0 ∧
    Commits (AmendReservation.handle 0 (nightsFrom 20 2) none) t r' u ∧
    ∃ c, preview t (amendmentInput t r (nightsFrom 20 2)) = .ok c ∧
      (dueMinor u 0 = max 0 (Folio.summary u r').balanceMinor ↔ DepositsAgree t 0 c.totalMinor) := by
  obtain ⟨t, ht, hp⟩ := run_to (p := fun t => (t.reservation? 0).isSome && decide (OnlyMoney t 0) &&
      afterwards (AmendReservation.handle 0 (nightsFrom 20 2) none) (fun _ _ => true) t)
    (booking ++ [takeCash 4000]) (by decide +kernel)
  simp only [Bool.and_eq_true, decide_eq_true_eq] at hp
  obtain ⟨⟨hr, hm⟩, hc⟩ := hp
  obtain ⟨r, hr⟩ := Option.isSome_iff_exists.mp hr
  obtain ⟨r', u, hc, _⟩ := of_afterwards hc
  exact ⟨t, r, u, r', ht, hr, hm, hc, (money_received_agrees_iff opening_season ht hr hm).1 _ _ _ _ hc⟩

-- One guest had part of a payment back before the stay grew, another a whole payment before leaving.
theorem refunds_split_the_figures : Opening season ∧
    (∃ t r' u, Reaches Operation.run Operation.Checked season t ∧ OnlyMoney t 0 ∧
      Commits (AmendReservation.handle 0 (nightsFrom 20 2) none) t r' u ∧
      dueMinor u 0 ≠ max 0 (Folio.summary u r').balanceMinor) ∧
    ∃ t u, Reaches Operation.run Operation.Checked season t ∧ OnlyMoney t 0 ∧
      Commits (CloseReservationWithPolicy.handle 0 .cancelled "Illness" none) t () u ∧
      ∀ r' c m, u.reservation? 0 = some r' → c ∈ u.changes.rows → c.closure = some m →
        m.refundRequirementMinor ≠ max 0 (-(Folio.summary u r').balanceMinor) := by
  refine ⟨opening_season, ?_, ?_⟩
  · obtain ⟨t, ht, hp⟩ := run_to (p := fun t => decide (OnlyMoney t 0) &&
        afterwards (AmendReservation.handle 0 (nightsFrom 20 2) none)
          (fun r u => !depositsMatch r u) t)
      (longBooking ++ takeCash 20000 :: shortenAndGiveBack 0 1000) (by decide +kernel)
    simp only [Bool.and_eq_true, decide_eq_true_eq] at hp
    obtain ⟨r', u, hc, hne⟩ := of_afterwards hp.2
    exact ⟨t, r', u, ht, hp.1, hc, by simpa [depositsMatch] using hne⟩
  · obtain ⟨t, ht, hp⟩ := run_to (p := fun t => decide (OnlyMoney t 0) &&
        afterwards (CloseReservationWithPolicy.handle 0 .cancelled "Illness" none)
          (fun a u => !requirementMatches a u) t)
      (longBooking ++ takeCash 12000 :: takeCash 8000 :: shortenAndGiveBack 1 8000) (by decide +kernel)
    simp only [Bool.and_eq_true, decide_eq_true_eq] at hp
    obtain ⟨_, u, hc, hne⟩ := of_afterwards hp.2
    exact ⟨t, u, ht, hp.1, hc, not_matches (by simpa using hne)⟩

end Scenario
end MoneyReceived
