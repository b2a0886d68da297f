import LodgeOps.Ledger.Settlement

namespace LedgerRuns
open Schema Transaction RecordProviderDispute Settlement

section Operations

inductive Operation
  | recordProvider (attempt : PaymentAttempt) (remote : ProviderPayment)
  | recordProviderNeedsReview (attempt : PaymentAttempt) (remote : ProviderPayment)
      (reason : String)
  | recordFrontDesk (reservationId : ℕ) (channel : PaymentChannel) (amountMinor : ℤ)
      (actorId depositId : Option ℕ)
  | recordManual (data : PaymentService.ManualEntry) (actorId : Option ℕ) (capture : Bool)
  | reconcile (paymentId : ℕ) (actorId depositId : Option ℕ)
  | reversePayment (paymentId : ℕ) (reason : String) (actorId : Option ℕ)
  | requestRefund (reservationId paymentId : ℕ) (amountMinor : ℤ) (reason : String)
  | completeRefund (requestId : ℕ) (reference : String) (actorId : Option ℕ)
  | failRefund (requestId : ℕ) (reason : String)
  | recordDispute (event : ProviderEvent) (remote : DisputeFacts)
  | appendLine (reservationId : ℕ) (type : FolioLineType) (description : String)
      (quantityThousandths unitAmountMinor taxAmountMinor : ℤ) (metadata : LineMetadata)
      (actorId : Option ℕ)
  | reverseLine (lineId : ℕ) (reason : String) (actorId : Option ℕ)
  | elsewhere (result : Database)

def quietly {α : Type} (x : Tx α) : Tx Unit := (fun _ => ()) <$> x

def Operation.run : Operation → Tx Unit
  | recordProvider attempt remote => quietly (PaymentService.recordProvider attempt remote)
  | recordProviderNeedsReview attempt remote reason =>
    quietly (PaymentService.recordProviderNeedsReview attempt remote reason)
  | recordFrontDesk i channel amount actor deposit =>
    quietly (PaymentService.recordFrontDesk i channel amount actor deposit)
  | recordManual data actor capture => quietly (PaymentService.recordManual data actor capture)
  | reconcile i actor deposit => quietly (PaymentService.reconcile i actor deposit)
  | reversePayment i reason actor => quietly (PaymentService.reverse i reason actor)
  | requestRefund i j amount reason => quietly (RequestRefund.handle i j amount reason)
  | completeRefund i reference actor => quietly (CompleteRefund.handle i reference actor)
  | failRefund i reason => quietly (CompleteRefund.fail i reason)
  | recordDispute event remote => quietly (RecordProviderDispute.handle event remote)
  | appendLine i type description quantity unit tax metadata actor =>
    quietly (lockedReservation i >>= fun r =>
      Folio.append r type description quantity unit actor metadata tax)
  | reverseLine i reason actor => quietly (Folio.reverse i reason actor)
  | elsewhere result => set result

-- A line whose folio-level reversal leaves what the payments and refunds say untouched.
def spares (db : Database) (l : FolioLine) : Bool :=
  l.paymentId.isNone || isChargeback l || l.reversesFolioLineId.isSome ||
    (Folio.reversal? db l.id).isSome

-- Whatever else the system does, it leaves lines, payments and changes alone.
def Operation.Honest (op : Operation) (db : Database) : Prop :=
  match op with
  | elsewhere result => book result = book db
  | _ => True

def Operation.Checked (op : Operation) (db : Database) : Prop :=
  match op with
  | reverseLine i _ _ => ∀ l, db.folioLines.find? i = some l → spares db l = true
  | elsewhere result => book result = book db
  | _ => True

end Operations

variable {db db' : Database}

theorem commits_quietly {α : Type} {x : Tx α} {u : Unit} (h : Commits (quietly x) db u db') :
    ∃ a, Commits x db a db' := by
  obtain ⟨a, ha, _⟩ := commits_map.mp h
  exact ⟨a, ha⟩

section Steps
variable {p : Payment} {l : FolioLine} {c : ReservationChange} {actor : Option ℕ}
variable {reason reference : String} {i : ℕ} {j : Option ℕ}

theorem sound_recorded (hs : Sound (book db)) (h : PaymentService.Recorded db db' p actor)
    (hst : p.status = .succeeded) (hc : db'.changes = db.changes) : Sound (book db') := by
  obtain ⟨t, l, ht, hpost⟩ := h.line
  rcases Folio.commits_postPayment hpost with ⟨hline, _⟩ | ⟨_, r, hr, _, hposted⟩
  · obtain ⟨hmem, hown⟩ := Table.first?_some hline
    simp only [Bool.and_eq_true, beq_iff_eq] at hown
    rw [ht] at hmem
    have hlt := hs.owners l hmem _ hown.1
    have hid : p.id = db.payments.next := h.payment.id
    have hnext : (book db).payments.next = db.payments.next := rfl
    omega
  · have hx := Folio.appends_posted hposted
    rw [ht] at hx hr
    exact sound_receive hs hx hc h.payment hst ((Folio.reservation_id_eq hr).symm) rfl

theorem sound_recordProvider {attempt : PaymentAttempt} {remote : ProviderPayment}
    (hs : Sound (book db)) (h : Commits (PaymentService.recordProvider attempt remote) db p db') :
    Sound (book db') := by
  obtain ⟨r, request, locked, _, _, ⟨existing, _, h⟩ | ⟨_, h⟩⟩ :=
    PaymentService.commits_recordProvider h
  · obtain ⟨_, _, _, ⟨_, hd⟩ | ⟨_, _, _, hd⟩⟩ := PaymentService.commits_replayProvider h
    · rw [hd]
      exact hs
    · rw [hd]
      exact hs
  · obtain ⟨hp, _, _, hrec, _, hd⟩ := PaymentService.commits_applyProvider h
    exact sound_recorded hs hrec (by rw [hp]; rfl) (by rw [hd])

theorem sound_recordProviderNeedsReview {attempt : PaymentAttempt} {remote : ProviderPayment}
    (hs : Sound (book db))
    (h : Commits (PaymentService.recordProviderNeedsReview attempt remote reason) db p db') :
    Sound (book db') := by
  obtain ⟨r, request, locked, _, ⟨_, _, _, rfl⟩ | ⟨_, hp, hrec, hd⟩⟩ :=
    PaymentService.commits_recordProviderNeedsReview h
  · exact hs
  · exact sound_recorded hs hrec (by rw [hp]; rfl) (by rw [hd])

theorem sound_recordFrontDesk {channel : PaymentChannel} {amount : ℤ} (hs : Sound (book db))
    (h : Commits (PaymentService.recordFrontDesk i channel amount actor j) db p db') :
    Sound (book db') := by
  obtain ⟨r, _, _, _, hp, hrec, hd⟩ := PaymentService.commits_recordFrontDesk h
  exact sound_recorded hs hrec (by rw [hp]; rfl) (by rw [hd])

theorem sound_reconcile (hs : Sound (book db))
    (h : Commits (PaymentService.reconcile i actor j) db p db') : Sound (book db') := by
  obtain ⟨locked, hl, _, ⟨_, _, rfl⟩ | ⟨r, h⟩⟩ := PaymentService.commits_reconcile h
  · exact hs
  obtain ⟨hpend, hp, hu, ⟨t, l, ht, hpost⟩, hd⟩ := PaymentService.commits_settlePending h
  have hmem : locked ∈ db.payments.rows := (Table.find?_eq_some.mp hl).1
  have hid : p.id = locked.id := by rw [hp]; rfl
  rcases Folio.commits_postPayment hpost with ⟨hline, _⟩ | ⟨_, home, hr, _, hposted⟩
  · obtain ⟨hl', hown⟩ := Table.first?_some hline
    simp only [Bool.and_eq_true, beq_iff_eq] at hown
    rw [ht] at hl'
    exact absurd (hid ▸ hown.1) (hs.pledged locked hmem hpend l hl' hown.2)
  · have hx := Folio.appends_posted hposted
    rw [ht] at hx hr
    rw [hp] at hr hx
    exact sound_settle hs hx (by rw [hd]; rfl) hmem hu ⟨rfl, rfl, rfl⟩ hpend rfl
      (Folio.reservation_id_eq hr).symm rfl

theorem sound_recordManual {data : PaymentService.ManualEntry} {capture : Bool}
    (hs : Sound (book db))
    (h : Commits (PaymentService.recordManual data actor capture) db p db') :
    Sound (book db') := by
  rcases PaymentService.commits_recordManual h with ⟨_, rfl⟩ | ⟨_, r, q, t, _, hq, _, happ, ht, h⟩
  · exact hs
  have hst : Sound (book t) := by
    refine sound_pledge hs ?_ ?_ happ (by rw [hq]; rfl)
    · rw [ht]; rfl
    · rw [ht]; rfl
  rcases h with ⟨_, _, rfl⟩ | ⟨_, h⟩
  · exact hst
  · exact sound_reconcile hst h

theorem sound_reversePayment (hs : Sound (book db))
    (h : Commits (PaymentService.reverse i reason actor) db p db') : Sound (book db') := by
  obtain ⟨locked, hl, _, ⟨_, _, rfl⟩ | ⟨hst, l, m, t, hline, hrev, hu, hd⟩⟩ :=
    PaymentService.commits_reverse h
  · exact hs
  have hmem : locked ∈ db.payments.rows := (Table.find?_eq_some.mp hl).1
  obtain ⟨hl', hown⟩ := Table.first?_some hline
  simp only [Bool.and_eq_true, beq_iff_eq] at hown
  obtain ⟨l', hfind, hcase⟩ := Folio.commits_reverse hrev
  obtain rfl : l' = l := by
    obtain ⟨hmem', hid⟩ := Table.find?_eq_some.mp hfind
    exact Table.eq_of_id hmem' hl' hid
  rcases hcase with ⟨hx, _⟩ | ⟨_, _, r, hr, _, hposted⟩
  · -- the payment line of a payment that still stands has no reversal yet
    obtain ⟨hm, hrev'⟩ := Table.first?_some hx
    obtain ⟨q, hq, hof, hstand⟩ := hs.posted l' hl' hown.2
    obtain rfl : q = locked := by
      have he : q.id = locked.id := by simpa [hof.owner] using hown.1
      exact Table.eq_of_id hq hmem he
    exact absurd (by simpa using hrev') (hstand (by simp [hst]) m hm)
  · have hx := Folio.appends_posted hposted
    have hlines : db'.folioLines = t.folioLines := by rw [hd]
    have hc : db'.changes = db.changes := by rw [hd, hposted]; rfl
    rw [← hlines] at hx
    exact sound_withdraw hs hx hc hmem hu ⟨rfl, rfl, rfl⟩ hst rfl hl' hown.2 hown.1
      (Folio.reservation_id_eq hr).symm rfl

theorem sound_requestRefund {amount : ℤ} {k : ℕ} (hs : Sound (book db))
    (h : Commits (RequestRefund.handle i k amount reason) db c db') : Sound (book db') := by
  obtain ⟨r, q, _, ⟨_, hc⟩, happ, hd⟩ := RequestRefund.commits_handle h
  refine sound_note hs ?_ ?_ happ (by rw [hc]; rfl)
  · rw [hd]; rfl
  · rw [hd]; rfl

theorem sound_failRefund (hs : Sound (book db))
    (h : Commits (CompleteRefund.fail i reason) db c db') : Sound (book db') := by
  obtain ⟨g, _, _, _, ⟨_, _, hc⟩, happ, hd⟩ := CompleteRefund.commits_fail h
  refine sound_note hs ?_ ?_ happ (by rw [hc]; rfl)
  · rw [hd]; rfl
  · rw [hd]; rfl

theorem sound_completed {g : CompleteRefund.RequestGraph} (hs : Sound (book db))
    (hmem : g.payment ∈ db.payments.rows) (h : CompleteRefund.Completed db db' g actor c) :
    Sound (book db') := by
  obtain ⟨t, l, ht, hpost⟩ := h.line
  obtain ⟨_, hc⟩ := h.change
  rcases Folio.commits_postRefund hpost with ⟨hline, _⟩ | ⟨_, r, hr, _, hposted⟩
  · obtain ⟨hl, hmark⟩ := Table.first?_some hline
    simp only [Bool.and_eq_true, beq_iff_eq] at hmark
    rw [ht] at hl
    have hlt := hs.refunds l hl hmark.2 _ hmark.1
    have hid : c.id = db.changes.next := h.appended.id
    have hnext : (book db).changes.next = db.changes.next := rfl
    omega
  have hx := Folio.appends_posted hposted
  rw [ht] at hx hr
  have hxrev : (Folio.line r (Folio.refundDraft g.payment c actor) db.clock
      db.folioLines.next).reversesFolioLineId = none := rfl
  have hcr : c.reservationId = r.id := by
    rw [hc, Folio.reservation_id_eq hr]
    exact h.home.symm
  have hcomp : RequestRefund.isCompletion c = true := by
    rw [hc]
    rfl
  rcases h.payment with ⟨_, hu⟩ | ⟨_, hsame⟩
  · refine sound_refund hs hx h.appended hcomp hcr hmem hu.next.ge ?_ ?_ ?_ rfl
    · exact carried_update hmem hu ⟨rfl, rfl, rfl⟩ (fun _ => by simp [h.succeeded])
        fun _ _ _ _ _ _ _ => by simp [hxrev]
    · intro q hq hqp
      rcases hu.mem_cases hmem rfl hq with ⟨hq, _⟩ | rfl
      · exact hq
      · simp [CompleteRefund.exhausted] at hqp
    · intro k
      have hf : Restates g.payment (CompleteRefund.exhausted g.payment) := ⟨rfl, rfl, rfl⟩
      have hkeep : received (book db') k = received (book db) k + _ := received_update hmem hu hf
      rw [hkeep]
      simp [kept, h.succeeded, CompleteRefund.exhausted]
  · have hbp : (book db').payments = (book db).payments := hsame
    refine sound_refund hs hx h.appended hcomp hcr hmem ?_ ?_ ?_ ?_ rfl
    · rw [hbp]
    · intro q hq
      rw [hbp]
      exact ⟨q, hq, carries_self hxrev⟩
    · intro q hq _
      rwa [hbp] at hq
    · intro k
      unfold received
      rw [hbp]

theorem sound_completeRefund (hs : Sound (book db))
    (h : Commits (CompleteRefund.handle i reference actor) db c db') : Sound (book db') := by
  obtain ⟨g, hg, _, ⟨_, rfl⟩ | ⟨_, h⟩⟩ := CompleteRefund.commits_handle h
  · exact hs
  · exact sound_completed hs hg.payment_mem h

-- A plain line belongs to no payment and is no payment line, whatever it says of itself.
theorem sound_posted_plain {r : Reservation} {d : Folio.LineDraft} (hs : Sound (book db))
    (hp : d.paymentId = none) (hr : d.reversesLineId = none)
    (ht : d.type = .charge ∨ d.type = .adjustment) : Sound (book (Folio.posted db r d)) := by
  have hx := @Folio.appends_posted db _ r d rfl
  have hxp : (Folio.line r d db.clock db.folioLines.next).paymentId = none := hp
  have hxr : (Folio.line r d db.clock db.folioLines.next).reversesFolioLineId = none := hr
  have hxt : (Folio.line r d db.clock db.folioLines.next).type = d.type := rfl
  refine sound_append_line hs ⟨hx, le_rfl, le_rfl, by simp [hxr], by simp [hxp], ?_, ?_, ?_, ?_⟩
    rfl rfl (by simp [settles, hxp])
  · rw [hxt]
    rcases ht with ht | ht
    · simp [ht]
    · simp [ht]
  · exact fun p hp' _ => ⟨hp', by simp [hxp]⟩
  · exact fun q hq => ⟨q, hq, carries_self hxr⟩
  · rw [hxt]
    rcases ht with ht | ht
    · simp [ht]
    · simp [ht]

theorem sound_reverseLine (hs : Sound (book db))
    (hg : ∀ l, db.folioLines.find? i = some l → spares db l = true)
    (h : Commits (Folio.reverse i reason actor) db l db') : Sound (book db') := by
  obtain ⟨m, hm, ⟨_, rfl⟩ | ⟨hx, hn, r, _, _, hd⟩⟩ := Folio.commits_reverse h
  · exact hs
  have hfree : m.paymentId = none ∨ isChargeback m = true := by
    simpa [spares, hx, hn] using hg m hm
  exact sound_reversal hs (Folio.appends_posted hd) (by rw [hd]; rfl) (by rw [hd]; rfl)
    (Table.find?_eq_some.mp hm).1 hfree rfl

theorem sound_charge {t : Database} {d : ProviderDispute} {home : Reservation} {amount : ℤ}
    (hs : Sound (book t)) (hp : p ∈ t.payments.rows)
    (hc : Charges t db' d .applied (Folio.line home (Folio.adjustmentDraft p .refund
      "Provider chargeback settled against the property" amount (chargebackMetadata d)) t.clock
      t.folioLines.next)) : Sound (book db') := by
  have hpay : (book db').payments = (book t).payments := by
    have h : db'.payments = t.payments := by rw [hc.frame]
    exact h
  have hchanges : (book db').changes = (book t).changes := by
    have h : db'.changes = t.changes := by rw [hc.frame]
    exact h
  refine sound_append_line hs ⟨hc.line, by rw [hpay], by rw [hchanges], ?_, ?_, ?_, ?_, ?_, ?_⟩
    hpay hchanges rfl
  · intro j hj
    cases hj
  · intro j hj
    rw [hpay]
    obtain rfl : p.id = j := by simpa [Folio.line, Folio.adjustmentDraft] using hj
    exact Table.id_lt_next hp
  · intro _ j hj
    cases hj
  · exact fun q hq _ => ⟨hpay ▸ hq, fun h => by cases h⟩
  · exact fun q hq => ⟨q, hpay ▸ hq, carries_self rfl⟩
  · intro h
    cases h

theorem sound_recordDispute {event : ProviderEvent} {remote : DisputeFacts} {d : ProviderDispute}
    (hs : Sound (book db)) (h : Commits (RecordProviderDispute.handle event remote) db d db') :
    Sound (book db') := by
  obtain ⟨g, e, n, s, t, h, _⟩ := RecordProviderDispute.commits_handle h
  have ht : book t = book db := by
    rw [h.frame]
    rfl
  have hst : Sound (book t) := ht ▸ hs
  have hquiet : ∀ s, Marks t db' (refreshed remote n e) s → Sound (book db') := by
    intro s hm
    rw [hm.frame]
    exact hst
  cases h.impact with
  | kept _ _ _ hu => exact hu ▸ hst
  | suspended _ hm => exact hquiet _ hm
  | emptied _ _ _ hm => exact hquiet _ hm
  | debited _ _ _ home _ hc =>
    refine sound_charge hst ?_ hc
    have hmem : g.payment ∈ db.payments.rows := (Table.first?_some h.found.payment).1
    have hpt : t.payments = db.payments := by rw [h.frame]
    exact hpt ▸ hmem
  | credited _ l hl _ _ home _ hc =>
    obtain ⟨hmem, _, _, hcb⟩ := chargebackLine_mem hl
    refine sound_reversal hst hc.line ?_ ?_ hmem (Or.inr hcb) rfl
    · have hp : db'.payments = t.payments := by rw [hc.frame]
      exact hp
    · have hp : db'.changes = t.changes := by rw [hc.frame]
      exact hp

theorem sound_appendLine {type : FolioLineType} {description : String} {quantity unit tax : ℤ}
    {metadata : LineMetadata} (hs : Sound (book db))
    (h : Commits (lockedReservation i >>= fun r =>
      Folio.append r type description quantity unit actor metadata tax) db l db') :
    Sound (book db') := by
  simp only [commits_bind, commits_lockedReservation] at h
  obtain ⟨r, _, ⟨_, rfl⟩, h⟩ := h
  obtain ⟨ht, d, hdt, hdp, hdr, rfl⟩ := Folio.commits_append h
  exact sound_posted_plain hs hdp hdr (hdt ▸ ht)

theorem sound_run {op : Operation} (hs : Sound (book db)) (ha : op.Checked db)
    (h : Commits op.run db () db') : Sound (book db') := by
  cases op with
  | recordProvider attempt remote =>
    obtain ⟨_, h⟩ := commits_quietly h
    exact sound_recordProvider hs h
  | recordProviderNeedsReview attempt remote reason =>
    obtain ⟨_, h⟩ := commits_quietly h
    exact sound_recordProviderNeedsReview hs h
  | recordFrontDesk i channel amount actor deposit =>
    obtain ⟨_, h⟩ := commits_quietly h
    exact sound_recordFrontDesk hs h
  | recordManual data actor capture =>
    obtain ⟨_, h⟩ := commits_quietly h
    exact sound_recordManual hs h
  | reconcile i actor deposit =>
    obtain ⟨_, h⟩ := commits_quietly h
    exact sound_reconcile hs h
  | reversePayment i reason actor =>
    obtain ⟨_, h⟩ := commits_quietly h
    exact sound_reversePayment hs h
  | requestRefund i k amount reason =>
    obtain ⟨_, h⟩ := commits_quietly h
    exact sound_requestRefund hs h
  | completeRefund i reference actor =>
    obtain ⟨_, h⟩ := commits_quietly h
    exact sound_completeRefund hs h
  | failRefund i reason =>
    obtain ⟨_, h⟩ := commits_quietly h
    exact sound_failRefund hs h
  | recordDispute event remote =>
    obtain ⟨_, h⟩ := commits_quietly h
    exact sound_recordDispute hs h
  | appendLine i type description quantity unit tax metadata actor =>
    obtain ⟨_, h⟩ := commits_quietly h
    exact sound_appendLine hs h
  | reverseLine i reason actor =>
    obtain ⟨_, h⟩ := commits_quietly h
    exact sound_reverseLine hs ha h
  | elsewhere result =>
    simp only [Operation.run, commits_set] at h
    have hb : book result = book db := ha
    rw [← h, hb]
    exact hs

end Steps

section Agreement

def Agrees (db : Database) : Prop := ∀ reservationId, Balanced (book db) reservationId

theorem checked_runs_agree {s t : Database} (hs : Opening (book s))
    (h : Reaches Operation.run Operation.Checked s t) : Agrees t :=
  (h.invariant (I := fun db => Sound (book db)) (sound_of_opening hs) fun _ _ _ hs ha hc => sound_run hs ha hc).balanced

end Agreement

section Scenario

instance (b : Book) (i : ℕ) : Decidable (Balanced b i) := inferInstanceAs (Decidable (_ = _))

def stay (i : ℕ) : Reservation where
  id := i
  propertyId := 0
  programId := none
  bookingQuoteId := none
  status := .confirmed
  startsAt := 1000
  endsAt := 2000
  holdExpiresAt := none
  adults := 2
  children := 0
  currency := "USD"
  subtotalMinor := 10000
  taxMinor := 0
  totalMinor := 10000
  depositPolicy := none
  cancellationTiers := []
  folioStatus := .opened
  closureReason := none
  revision := 1

def opening : Database where
  clock := 0
  catalogue := .empty
  reservations := Table.empty.insert stay

def plainly : Operation → Bool
  | .elsewhere _ => false
  | _ => true

def checkedly (op : Operation) (db : Database) : Bool :=
  match op with
  | .reverseLine i _ _ => (db.folioLines.find? i).all (spares db)
  | .elsewhere _ => false
  | _ => true

theorem honest_of_plainly {op : Operation} {db : Database} (h : plainly op = true) :
    op.Honest db := by
  cases op with
  | elsewhere _ => cases h
  | _ => trivial

theorem checked_of_checkedly {op : Operation} {db : Database} (h : checkedly op db = true) :
    op.Checked db := by
  cases op with
  | elsewhere _ => cases h
  | reverseLine i reason actor =>
    intro l hl
    simpa [checkedly, hl] using h
  | _ => trivial

theorem opening_unpaid : Opening (book opening) where
  payments := rfl
  lines := by simp [book, opening, Table.empty]
  changes := by simp [book, opening, Table.empty]

-- A dinner is charged and struck off again, an overpayment is given back.
theorem checked_run_keeps_agreement : ∃ t, Reaches Operation.run Operation.Checked opening t ∧
    settled (book t) 0 = -10000 ∧ Agrees t := by
  obtain ⟨t, hr, hp⟩ : ∃ t, Reaches Operation.run Operation.Checked opening t ∧
      decide (settled (book t) 0 = -10000) = true :=
    Reaches.exists_of_execute (fun _ _ => checked_of_checkedly)
      [.appendLine 0 .charge "Dinner" 1000 4000 0 {} none,
        .recordFrontDesk 0 .cash 14000 none none, .reverseLine 0 "Not served" none,
        .requestRefund 0 0 4000 "Overpaid", .completeRefund 0 "drawer" none]
      (by decide)
  exact ⟨t, hr, of_decide_eq_true hp, checked_runs_agree opening_unpaid hr⟩

-- The folio offers the reversal of a payment line, and the payment stays Succeeded.
theorem folio_reversal_breaks_agreement : Opening (book opening) ∧
    ∃ t, Reaches Operation.run Operation.Honest opening t ∧ ¬ Agrees t := by
  obtain ⟨t, hr, hp⟩ : ∃ t, Reaches Operation.run Operation.Honest opening t ∧
      decide (¬ Balanced (book t) 0) = true :=
    Reaches.exists_of_execute (fun _ _ => honest_of_plainly)
      [.recordFrontDesk 0 .cash 10000 none none, .reverseLine 0 "Entered twice" none]
      (by decide)
  exact ⟨opening_unpaid, t, hr, fun h => of_decide_eq_true hp (h 0)⟩

end Scenario
end LedgerRuns
