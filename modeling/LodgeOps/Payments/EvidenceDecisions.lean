import LodgeOps.Booking.BookedTotals
import LodgeOps.Payments.Evidence

namespace ReviewPaymentEvidence
open Schema Transaction FrontDeskPaymentGuard
open RecordFrontDeskPayment (FrontDeskPaymentInput)

section Effects
variable {s s' t : ReviewDesk} {e x : PaymentEvidence} {p : ReviewPlatform} {payment : Payment}
variable {r i : ℕ} {depositId actorId : Option ℕ} {actor : Option Staff} {note : Option String}

def paymentsOf (s : ReviewDesk) : Table Payment := s.desk.books.payments

theorem saved_self {new old : PaymentEvidence} (h : new.id = old.id) : saved new old = new := by
  unfold saved
  rw [← h]

theorem updates_save (h : Commits (save e) s () s') :
    Table.Updates s.submissions s'.submissions e.id (saved e) ∧ s'.desk = s.desk := by
  obtain rfl := commits_modify.mp h
  exact ⟨Table.updates_update (keeps_saved _), rfl⟩

theorem commits_bookedReservation {res : Reservation}
    (h : Commits (onBooks (lockedReservation r)) s res s') : s' = s := by
  obtain ⟨desk, hdesk, rfl⟩ := commits_zoom.mp h
  obtain ⟨db, hdb, rfl⟩ := commits_zoom.mp hdesk
  obtain ⟨_, rfl⟩ := commits_lockedReservation.mp hdb
  rfl

theorem commits_lockedEvidence (h : Commits (lockedEvidence r i) s e s') :
    e ∈ s.submissions.rows ∧ e.id = i ∧ e.reservationId = r ∧ s' = s := by
  simp only [lockedEvidence, commits_bind, commits_get, commits_orFail, commits_reject,
    commits_pure] at h
  obtain ⟨_, _, ⟨rfl, rfl⟩, _, _, ⟨he, rfl⟩, _, _, ⟨hr, rfl⟩, rfl, rfl⟩ := h
  obtain ⟨hm, hid⟩ := Table.find?_eq_some.mp he
  exact ⟨hm, hid, not_not.mp hr, rfl⟩

-- A bank transfer posts one payment, and the tender's detail names it.
theorem commits_postTender {a : Staff} {input : FrontDeskPaymentInput} {d d' : CashDesk}
    {detail : PaymentTenderDetail} (hch : input.channel = .bankTransfer)
    (h : Commits (postTender p a input) d detail d') :
    ∃ q, Table.Appends d.books.payments d'.books.payments q ∧ detail.paymentId = some q.id := by
  simp only [postTender, RecordFrontDeskPayment.handle, hch, CashShift.onBooks, recordTender,
    commits_bind, commits_get, commits_zoom, commits_lockedReservation, commits_reject,
    commits_check, commits_orFail] at h
  obtain ⟨_, _, ⟨rfl, rfl⟩, _, v, ⟨r, _, ⟨_, ⟨_, rfl⟩, rfl⟩, _, _, hg, _, _, ⟨_, rfl⟩, _, _, ⟨_, rfl⟩,
    _, _, ⟨rfl, rfl⟩, _, _, ⟨_, rfl⟩, hpost⟩, _, _, ⟨rfl, rfl⟩, hdetail, rfl⟩ := h
  simp only [FrontDeskPaymentGuard.assert, commits_reject] at hg
  obtain ⟨_, rfl⟩ := hg
  simp only [RecordFrontDeskPayment.post, RecordFrontDeskPayment.createDetail, CashShift.onBooks,
    commits_bind, commits_get, commits_zoom, commits_set] at hpost
  obtain ⟨_, _, ⟨rfl, rfl⟩, q, _, ⟨db, hq, rfl⟩, _, _, ⟨rfl, rfl⟩, rfl⟩ := hpost
  obtain ⟨_, _, _, _, _, hrecorded, _⟩ := PaymentService.commits_recordFrontDesk hq
  have hnew := Option.some.inj (hdetail.symm.trans Table.find?_insert_next)
  exact ⟨q, hrecorded.payment, by rw [hnew]; rfl⟩

-- The command posts one payment, or it has run before and writes nothing.
theorem commits_tender {a : Staff} {key : String} {input : FrontDeskPaymentInput}
    {detail : PaymentTenderDetail} (hch : input.channel = .bankTransfer)
    (h : Commits (tender p a key input) s detail s') :
    s'.submissions = s.submissions ∧ (s' = s ∨ ∃ q,
      Table.Appends (paymentsOf s) (paymentsOf s') q ∧ detail.paymentId = some q.id) := by
  simp only [tender, commits_bind, commits_get] at h
  obtain ⟨_, _, ⟨rfl, rfl⟩, h⟩ := h
  split at h
  · simp only [commits_bind, commits_reject, commits_orFail] at h
    obtain ⟨_, _, ⟨_, rfl⟩, _, rfl⟩ := h
    exact ⟨rfl, Or.inl rfl⟩
  · simp only [onDesk, commits_bind, commits_zoom, commits_modify, commits_pure] at h
    obtain ⟨_, _, ⟨desk, hdesk, rfl⟩, _, _, rfl, rfl, rfl⟩ := h
    exact ⟨rfl, Or.inr (commits_postTender hch hdesk)⟩

-- An approval posts its payment, at most, and names it on the submission.
structure Approves (s s' : ReviewDesk) (e : PaymentEvidence) (payment : Payment) : Prop where
  mem : e ∈ s.submissions.rows
  open' : e.status ≠ .rejected
  row : ∃ new : PaymentEvidence, new.id = e.id ∧ new.status = .approved ∧
    new.paymentId = some payment.id ∧ Table.Updates s.submissions s'.submissions e.id (saved new)
  payments : paymentsOf s' = paymentsOf s ∨ Table.Appends (paymentsOf s) (paymentsOf s') payment

theorem commits_approve
    (h : Commits (approve p r i depositId actor note) s payment s') :
    ∃ e ∈ s.submissions.rows, e.id = i ∧
      ((e.status = .approved ∧ e.paymentId = some payment.id ∧ s' = s) ∨
        (answered e = none ∧ Approves s s' e payment)) := by
  simp only [approve, commits_bind] at h
  obtain ⟨res, _, hres, e, _, he, h⟩ := h
  obtain rfl := commits_bookedReservation hres
  obtain ⟨hm, hid, hrid, rfl⟩ := commits_lockedEvidence he
  refine ⟨e, hm, hid, ?_⟩
  split at h
  · next k hk =>
    simp only [commits_bind, commits_get, commits_orFail] at h
    obtain ⟨_, _, ⟨rfl, rfl⟩, hp, rfl⟩ := h
    have hpid : payment.id = k := (Table.find?_eq_some.mp hp).2
    unfold answered at hk
    split_ifs at hk with hs
    exact Or.inl ⟨hs, hpid ▸ hk, rfl⟩
  · next hk =>
    refine Or.inr ⟨hk, ?_⟩
    simp only [postApproval, commits_bind, commits_check, commits_orFail, commits_get,
      commits_pure] at h
    obtain ⟨declared, _, ⟨hdeclared, rfl⟩, a, _, ⟨_, rfl⟩, detail, t, htender, _, _, ⟨rfl, rfl⟩, q, _,
      ⟨hq, rfl⟩, _, u, hsave, rfl, rfl⟩ := h
    simp only [assertApprovable, bind_eq_ok, refuse_eq_ok] at hdeclared
    obtain ⟨_, hopen, _⟩ := hdeclared
    obtain ⟨hsub, hpay⟩ := commits_tender rfl htender
    obtain ⟨hupd, hdesk⟩ := updates_save hsave
    refine ⟨hm, hopen, ⟨approvedWith q detail a note t.desk.books.clock e, rfl, rfl, rfl, ?_⟩, ?_⟩
    · rw [← hsub]
      exact hupd
    · have hpayments : paymentsOf u = paymentsOf t := congrArg (fun d => d.books.payments) hdesk
      rw [hpayments]
      rcases hpay with rfl | ⟨q', happ, hid'⟩
      · exact Or.inl rfl
      · rw [hid', Option.bind_some] at hq
        have hfind : payment? t q'.id = some q' := happ.find?_new
        obtain rfl := Option.some.inj (hfind.symm.trans hq)
        exact Or.inr happ

theorem commits_decide {status : PaymentEvidenceStatus} {text : String}
    (h : Commits (decideWithoutPayment r i status text actorId) s () s') :
    ∃ e new : PaymentEvidence, e ∈ s.submissions.rows ∧ e.id = i ∧ e.status ≠ .approved ∧
      trim text ≠ "" ∧ new.id = e.id ∧ new.status = status ∧ s'.desk = s.desk ∧
      Table.Updates s.submissions s'.submissions e.id (saved new) := by
  simp only [decideWithoutPayment, commits_bind, commits_reject, commits_get] at h
  obtain ⟨res, _, hres, e, _, he, _, _, ⟨hs, rfl⟩, _, _, ⟨hn, rfl⟩, _, _, ⟨rfl, rfl⟩, hsave⟩ := h
  obtain rfl := commits_bookedReservation hres
  obtain ⟨hm, hid, hrid, rfl⟩ := commits_lockedEvidence he
  obtain ⟨hupd, hdesk⟩ := updates_save hsave
  refine ⟨e, _, hm, hid, hs, hn, ?_, ?_, hdesk, hupd⟩
  · rfl
  · rfl

end Effects

section Runs
variable {s s' t u : ReviewDesk} {e : PaymentEvidence} {p : ReviewPlatform} {c : Command}
variable {i : ℕ} {payment : Payment}

inductive Command
  | approve (reservationId evidenceId : ℕ) (depositId : Option ℕ) (actor : Option Staff)
      (note : Option String)
  | reject (reservationId evidenceId : ℕ) (note : String) (actorId : Option ℕ)
  | requestMoreInformation (reservationId evidenceId : ℕ) (note : String) (actorId : Option ℕ)
  | elsewhere (write : ReviewDesk → ReviewDesk)

def Command.run (p : ReviewPlatform) : Command → ReviewTx Unit
  | .approve reservationId evidenceId depositId actor note => do
    let _ ← ReviewPaymentEvidence.approve p reservationId evidenceId depositId actor note
  | .reject reservationId evidenceId note actorId =>
    ReviewPaymentEvidence.reject reservationId evidenceId note actorId
  | .requestMoreInformation reservationId evidenceId note actorId =>
    ReviewPaymentEvidence.requestMoreInformation reservationId evidenceId note actorId
  | .elsewhere write => modify write

-- A decision stands, with the payment that it may have.
structure Stands (e e' : PaymentEvidence) : Prop where
  id : e'.id = e.id
  status : e'.status = e.status
  payment : ∀ k, e.status = .approved → e.paymentId = some k → e'.paymentId = some k

-- The rest of the system writes no submission that has been decided.
def Elsewhere (s s' : ReviewDesk) : Prop :=
  ∀ e ∈ s.submissions.rows, isFinal e.status = true → ∃ e' ∈ s'.submissions.rows, Stands e e'

def Command.Orderly (c : Command) (s : ReviewDesk) : Prop :=
  match c with
  | .elsewhere write => Elsewhere s (write s)
  | _ => True

-- The command asks for more information about a submission that has been rejected.
def Command.Reopens (c : Command) (s : ReviewDesk) : Prop :=
  match c with
  | .requestMoreInformation _ i note _ =>
    trim note ≠ "" ∧ ∃ e ∈ s.submissions.rows, e.id = i ∧ e.status = .rejected
  | _ => False

def Command.Careful (c : Command) (s : ReviewDesk) : Prop := c.Orderly s ∧ ¬ c.Reopens s

theorem final_cases (h : isFinal e.status = true) : e.status = .approved ∨ e.status = .rejected := by
  simpa [isFinal] using h

-- One row is rewritten: the others stand, and so does this one if it is told to.
theorem stands_of_updates {old new : PaymentEvidence} (ho : old ∈ s.submissions.rows)
    (hid : new.id = old.id) (h : Table.Updates s.submissions s'.submissions old.id (saved new))
    (he : e ∈ s.submissions.rows) (hs : e = old → Stands old new) :
    ∃ e' ∈ s'.submissions.rows, Stands e e' := by
  by_cases heo : e.id = old.id
  · obtain rfl := Table.eq_of_id he ho heo
    exact ⟨new, saved_self hid ▸ h.mem_self he rfl, hs rfl⟩
  · exact ⟨e, h.mem_ne he heo, rfl, rfl, fun _ _ hk => hk⟩

theorem stands_decide {reservationId : ℕ} {status : PaymentEvidenceStatus} {text : String}
    {actorId : Option ℕ} (he : e ∈ s.submissions.rows) (hf : isFinal e.status = true)
    (hn : trim text ≠ "" → e.id = i → e.status = .rejected → status = .rejected)
    (h : Commits (decideWithoutPayment reservationId i status text actorId) s () s') :
    ∃ e' ∈ s'.submissions.rows, Stands e e' := by
  obtain ⟨old, new, ho, hid, hopen, htext, hnew, hstatus, _, hupd⟩ := commits_decide h
  refine stands_of_updates ho hnew hupd he fun heo => ?_
  subst heo
  have hrejected := (final_cases hf).resolve_left hopen
  exact ⟨hnew, by rw [hstatus, hn htext hid hrejected, hrejected], fun k ha _ => absurd ha hopen⟩

theorem stands_run (hc : c.Orderly s) (he : e ∈ s.submissions.rows) (hf : isFinal e.status = true)
    (hn : e.status = .approved ∨ ¬ c.Reopens s) (h : Commits (c.run p) s () s') :
    ∃ e' ∈ s'.submissions.rows, Stands e e' := by
  cases c with
  | approve reservationId j depositId actor note =>
    simp only [Command.run, commits_bind, commits_pure] at h
    obtain ⟨payment, _, h, _, rfl⟩ := h
    obtain ⟨old, ho, hid, ⟨_, _, rfl⟩ | ⟨hnone, happroves⟩⟩ := commits_approve h
    · exact ⟨e, he, rfl, rfl, fun _ _ hk => hk⟩
    · obtain ⟨new, hnew, hstatus, _, hupd⟩ := happroves.row
      refine stands_of_updates ho hnew hupd he fun heo => ?_
      subst heo
      have happroved := (final_cases hf).resolve_right happroves.open'
      refine ⟨hnew, hstatus.trans happroved.symm, fun k _ hk => ?_⟩
      rw [answered, if_pos happroved, hk] at hnone
      cases hnone
  | reject reservationId j note actorId =>
    exact stands_decide he hf (fun _ _ _ => rfl) h
  | requestMoreInformation reservationId j note actorId =>
    refine stands_decide he hf (fun htext hid hrejected => ?_) h
    rcases hn with ha | hn
    · rw [ha] at hrejected
      cases hrejected
    · exact absurd ⟨htext, e, he, hid, hrejected⟩ hn
  | elsewhere write =>
    simp only [Command.run, commits_modify] at h
    exact h ▸ hc e he hf

theorem Stands.trans {a b d : PaymentEvidence} (h : Stands a b) (h' : Stands b d) : Stands a d where
  id := h'.id.trans h.id
  status := h'.status.trans h.status
  payment k ha hk := h'.payment k (h.status.trans ha) (h.payment k ha hk)

theorem stands_runs (he : e ∈ s.submissions.rows) (hf : isFinal e.status = true)
    (h : Reaches (Command.run p) Command.Careful s t) : ∃ e' ∈ t.submissions.rows, Stands e e' := by
  have hrefl : Stands e e := ⟨rfl, rfl, fun _ _ hk => hk⟩
  refine h.invariant (I := fun u => ∃ e' ∈ u.submissions.rows, Stands e e') ⟨e, he, hrefl⟩ ?_
  rintro c a b ⟨e', he', hstands⟩ hc hrun
  have hf' : isFinal e'.status = true := hstands.status ▸ hf
  obtain ⟨e'', he'', hs⟩ := stands_run hc.1 he' hf' (Or.inr hc.2) hrun
  exact ⟨e'', he'', hstands.trans hs⟩

-- An approval stands whatever is asked afterwards.
theorem approval_stands (he : e ∈ s.submissions.rows) (ha : e.status = .approved)
    (h : Reaches (Command.run p) Command.Orderly s t) :
    ∃ e' ∈ t.submissions.rows, Stands e e' := by
  have hrefl : Stands e e := ⟨rfl, rfl, fun _ _ hk => hk⟩
  refine h.invariant (I := fun u => ∃ e' ∈ u.submissions.rows, Stands e e') ⟨e, he, hrefl⟩ ?_
  rintro c a b ⟨e', he', hstands⟩ hc hrun
  have ha' : e'.status = .approved := hstands.status.trans ha
  obtain ⟨e'', he'', hs⟩ := stands_run hc he' (by rw [ha']; rfl) (Or.inl ha') hrun
  exact ⟨e'', he'', hstands.trans hs⟩

-- After an approval the submission names its payment, and another approval answers with it.
theorem approval_names_payment {reservationId : ℕ} {depositId : Option ℕ} {actor : Option Staff}
    {note : Option String}
    (h : Commits (approve p reservationId i depositId actor note) s payment s') :
    ∃ e ∈ s'.submissions.rows, e.id = i ∧ e.status = .approved ∧ e.paymentId = some payment.id := by
  obtain ⟨e, he, hid, ⟨hs, hp, rfl⟩ | ⟨_, happroves⟩⟩ := commits_approve h
  · exact ⟨e, he, hid, hs, hp⟩
  · obtain ⟨new, hnew, hstatus, hpay, hupd⟩ := happroves.row
    exact ⟨new, saved_self hnew ▸ hupd.mem_self he rfl, hnew.trans hid, hstatus, hpay⟩

-- A rejected submission may be reopened by a request for more information, and then be approved.
theorem decisions_are_final (h : Reaches (Command.run p) Command.Careful s t) :
    (∀ e ∈ s.submissions.rows, isFinal e.status = true →
      ∃ e' ∈ t.submissions.rows, e'.id = e.id ∧ e'.status = e.status) ∧
    ∀ reservationId i depositId actor note payment s',
      Commits (approve p reservationId i depositId actor note) s payment s' →
      (paymentsOf s' = paymentsOf s ∨ Table.Appends (paymentsOf s) (paymentsOf s') payment) ∧
      ∀ t, Reaches (Command.run p) Command.Orderly s' t →
        ∀ reservationId' depositId' actor' note' payment' u,
          Commits (approve p reservationId' i depositId' actor' note') t payment' u →
          payment'.id = payment.id ∧ u = t := by
  refine ⟨fun e he hf => ?_, ?_⟩
  · obtain ⟨e', he', hs⟩ := stands_runs he hf h
    exact ⟨e', he', hs.id, hs.status⟩
  · intro reservationId i depositId actor note payment s' happrove
    refine ⟨?_, fun t ht reservationId' depositId' actor' note' payment' u hagain => ?_⟩
    · obtain ⟨_, _, _, ⟨_, _, rfl⟩ | ⟨_, hposted⟩⟩ := commits_approve happrove
      · exact Or.inl rfl
      · exact hposted.payments
    · obtain ⟨e, he, hid, ha, hp⟩ := approval_names_payment happrove
      obtain ⟨e', he', hs⟩ := approval_stands he ha ht
      have hanswer : answered e' = some payment.id := by
        rw [answered, if_pos (hs.status.trans ha), hs.payment _ ha hp]
      obtain ⟨x, hx, hxid, hcase⟩ := commits_approve hagain
      obtain rfl := Table.eq_of_id hx he' (hxid.trans (hs.id.trans hid).symm)
      rcases hcase with ⟨_, hp', rfl⟩ | ⟨hnone, _⟩
      · have heq := (hs.payment _ ha hp).symm.trans hp'
        exact ⟨(Option.some.inj heq).symm, rfl⟩
      · rw [hanswer] at hnone
        cases hnone

end Runs

section Scenario
open BookedTotals (season nightsFrom)

def stay : Database :=
  perform (do
    let quote ← BookingQuoteService.create (nightsFrom 10 1)
    let _ ← CommitBookingQuote.handle quote.id none { firstName := "Ana" } [] none) season

def transferSlip (i : ℕ) : PaymentEvidence where
  id := i
  reservationId := 0
  amountMinor := some 5000
  currency := some "USD"
  transferReference := some "TRF-1"

def finance : Staff where
  id := 3
  membership := some { userId := 3, role := .finance, isActive := true }

def submitted : ReviewDesk where
  desk := { books := stay }
  submissions := ((Table.empty.insert transferSlip).insert transferSlip).insert transferSlip

def statuses (s : ReviewDesk) : List PaymentEvidenceStatus :=
  s.submissions.rows.map PaymentEvidence.status

def orderly : Command → Bool
  | .elsewhere _ => false
  | _ => true

theorem orderly_of {c : Command} {s : ReviewDesk} (h : orderly c = true) : c.Orderly s := by
  cases c with
  | elsewhere => cases h
  | _ => trivial

def carefully (c : Command) (s : ReviewDesk) : Bool :=
  match c with
  | .requestMoreInformation _ i _ _ => s.submissions.rows.all fun e => e.id != i || e.status != .rejected
  | c => orderly c

theorem careful_of {c : Command} {s : ReviewDesk} (h : carefully c s = true) : c.Careful s := by
  cases c with
  | requestMoreInformation =>
    refine ⟨trivial, fun ⟨_, e, he, hid, hs⟩ => ?_⟩
    have hn := List.all_eq_true.mp h e he
    simp [hid, hs] at hn
  | elsewhere => cases h
  | approve => exact ⟨trivial, id⟩
  | reject => exact ⟨trivial, id⟩

def looksAt (s t : ReviewDesk) : Bool :=
  statuses s == [.approved, .rejected, .pending] &&
    statuses t == [.approved, .rejected, .moreInformationRequired]

-- One submission is approved and another rejected; both stay so while a third one is looked at.
theorem decided_submissions_stand : ∃ s t,
    Reaches (Command.run {}) Command.Careful submitted s ∧
    Reaches (Command.run {}) Command.Careful s t ∧ looksAt s t = true ∧
    ∀ e ∈ s.submissions.rows, isFinal e.status = true →
      ∃ e' ∈ t.submissions.rows, e'.id = e.id ∧ e'.status = e.status := by
  obtain ⟨s, t, hs, ht, hp⟩ : ∃ s t, Reaches (Command.run {}) Command.Careful submitted s ∧
      Reaches (Command.run {}) Command.Careful s t ∧ looksAt s t = true :=
    Reaches.exists_of_two_runs carefully (fun _ _ => careful_of)
      [.approve 0 0 none (some finance) none, .reject 0 1 "unknown" none]
      [.requestMoreInformation 0 2 "unreadable" none] (by decide +kernel)
  exact ⟨s, t, hs, ht, hp, (decisions_are_final ht).1⟩

def overturns (s t : ReviewDesk) : Bool := s.submissions.rows.any fun e =>
  isFinal e.status && t.submissions.rows.all fun e' => e'.id != e.id || e'.status != e.status

-- A rejected submission is asked about, approved and paid.
theorem rejection_is_overturned : ∃ s t,
    Reaches (Command.run {}) Command.Orderly submitted s ∧
    Reaches (Command.run {}) Command.Orderly s t ∧
    ∃ e ∈ s.submissions.rows, isFinal e.status = true ∧
      ∀ e' ∈ t.submissions.rows, e'.id = e.id → e'.status ≠ e.status := by
  obtain ⟨s, t, hs, ht, hp⟩ : ∃ s t, Reaches (Command.run {}) Command.Orderly submitted s ∧
      Reaches (Command.run {}) Command.Orderly s t ∧ overturns s t = true :=
    Reaches.exists_of_two_runs (fun c _ => orderly c) (fun _ _ => orderly_of)
      [.reject 0 0 "unknown sender" none]
      [.requestMoreInformation 0 0 "send the bank's receipt" none,
        .approve 0 0 none (some finance) none] (by decide +kernel)
  obtain ⟨e, he, hp⟩ := List.any_eq_true.mp hp
  obtain ⟨hf, hall⟩ := Bool.and_eq_true_iff.mp hp
  refine ⟨s, t, hs, ht, e, he, hf, fun e' he' hid => ?_⟩
  simpa [hid] using List.all_eq_true.mp hall e' he'

end Scenario
end ReviewPaymentEvidence
