import LodgeOps.Ledger.Refunds

namespace RecordProviderDispute
open Schema Transaction

def state (remote : DisputeFacts) : ProviderDisputeState :=
  match remote.statusDetail with
  | some "settled" => .lost
  | some "reimbursed" => .won
  | some "in_process" => .underReview
  | _ =>
    match remote.coverageApplied with
    | some true => .won
    | some false => .lost
    | none => .opened

section Identity

def disputedAttempt? (db : Database) (event : ProviderEvent) (paymentId : String) :
    Option PaymentAttempt :=
  db.paymentAttempts.first? fun a =>
    a.integrationConnectionId == event.integrationConnectionId && a.provider == event.provider &&
      a.environment == event.environment && a.providerAccount == event.providerAccount &&
      a.providerPaymentId == some paymentId

def recordedFor? (db : Database) (attempt : PaymentAttempt) (paymentId : String) :
    Option Payment :=
  PaymentService.recorded? db attempt.provider attempt.environment attempt.providerAccount
    paymentId

def dispute? (db : Database) (attempt : PaymentAttempt) (disputeId : String) :
    Option ProviderDispute :=
  db.disputes.first? fun d =>
    d.provider == attempt.provider && d.environment == attempt.environment &&
      d.providerAccount == attempt.providerAccount && d.providerDisputeId == disputeId

def opening (r : Reservation) (payment : Payment) (attempt : PaymentAttempt)
    (remote : DisputeFacts) (i : ℕ) : ProviderDispute where
  id := i
  provider := attempt.provider
  environment := attempt.environment
  providerAccount := attempt.providerAccount
  providerDisputeId := remote.id
  reservationId := r.id
  paymentId := payment.id
  paymentAttemptId := attempt.id
  providerPaymentId := remote.providerPaymentId
  state := state remote
  impactState := .none
  amountMinor := remote.amountMinor
  currency := remote.currency

def firstOrCreate (r : Reservation) (payment : Payment) (attempt : PaymentAttempt)
    (remote : DisputeFacts) : Tx ProviderDispute := do
  let db ← get
  match dispute? db attempt remote.id with
  | some d => pure d
  | none => do
    set { db with disputes := db.disputes.insert (opening r payment attempt remote) }
    pure (opening r payment attempt remote db.disputes.next)

end Identity

section Facts

def knownFacts (db : Database) (disputeId : ℕ) (remote : DisputeFacts) : Bool :=
  (db.disputeRevisions.first? fun v => v.providerDisputeId == disputeId && v.facts == remote).isSome

def revised (db : Database) (d : ProviderDispute) (remote : DisputeFacts) : ℕ :=
  if knownFacts db d.id remote then d.currentRevision else d.currentRevision + 1

def recordRevision (d : ProviderDispute) (event : ProviderEvent) (remote : DisputeFacts) :
    Tx ℕ := do
  let db ← get
  if knownFacts db d.id remote then pure d.currentRevision
  else do
    set { db with disputeRevisions := db.disputeRevisions.insert fun i =>
      { id := i, providerDisputeId := d.id, providerEventId := event.id
        revision := d.currentRevision + 1, facts := remote } }
    pure (d.currentRevision + 1)

def refreshed (remote : DisputeFacts) (revision : ℕ) (d : ProviderDispute) : ProviderDispute :=
  { d with
    state := state remote
    statusDetail := remote.statusDetail
    amountMinor := remote.amountMinor
    currency := remote.currency
    reason := remote.reason
    coverageApplied := remote.coverageApplied
    documentationRequired := remote.documentationRequired
    documentationDeadline := remote.documentationDeadline
    providerCreatedAt := remote.providerCreatedAt
    providerUpdatedAt := remote.providerUpdatedAt
    currentRevision := revision }

def saveDispute (i : ℕ) (f : ProviderDispute → ProviderDispute)
    (hf : Keeps f := by intro d; rfl) : Tx Unit :=
  modify fun db => { db with disputes := db.disputes.update i f hf }

end Facts

section Impact

def impact (s : ProviderDisputeImpactState) (d : ProviderDispute) : ProviderDispute :=
  { d with impactState := s }

def markImpact (d : ProviderDispute) (s : ProviderDisputeImpactState) : Tx Unit :=
  saveDispute d.id (impact s)

def isChargeback (l : FolioLine) : Bool :=
  l.metadata.providerDisputeEffect == some "chargeback"

def chargebackLine? (db : Database) (reservationId disputeId : ℕ) : Option FolioLine :=
  db.folioLines.oldest? (fun l => l.reservationId == reservationId &&
    l.metadata.providerDisputeId == some disputeId && isChargeback l) FolioLine.postedAt

def standing (db : Database) (l : FolioLine) : Bool := (Folio.reversal? db l.id).isNone

def appliedChargebacks (db : Database) (paymentId : ℕ) : ℤ :=
  db.folioLines.total fun l =>
    if l.paymentId == some paymentId && isChargeback l && standing db l
    then l.netAmountMinor else 0

def chargebackAmount (db : Database) (d : ProviderDispute) (r : Reservation) (p : Payment) : ℤ :=
  min d.amountMinor (max 0 (p.amountMinor - CompleteRefund.completedForPayment db r p.id -
    appliedChargebacks db p.id))

def chargebackMetadata (d : ProviderDispute) : LineMetadata where
  providerDisputeId := some d.id
  providerDisputeEffect := some "chargeback"

def debit (d : ProviderDispute) (r : Reservation) (p : Payment) : Tx Unit := do
  let db ← get
  if chargebackAmount db d r p = 0 then markImpact d .none
  else do
    let _ ← Folio.postProviderAdjustment p .refund
      "Provider chargeback settled against the property" (chargebackAmount db d r p)
      (chargebackMetadata d)
    markImpact d .applied

def credit (d : ProviderDispute) (l : FolioLine) : Tx Unit := do
  let _ ← Folio.reverse l.id "Provider chargeback resolved in favor of the property." none
  markImpact d .reversed

def applyImpact (d : ProviderDispute) (r : Reservation) (p : Payment) : Tx Unit := do
  let db ← get
  match d.state, chargebackLine? db r.id d.id with
  | .lost, none => if r.folioStatus = .closed then markImpact d .pendingFinance else debit d r p
  | .won, some l =>
    if standing db l then
      if r.folioStatus = .closed then markImpact d .pendingFinance else credit d l
    else pure ()
  | .underReview, _ => markImpact d .pendingFinance
  | _, _ => pure ()

end Impact

section Handle

def unknownIdentity : Failure :=
  .commercialWorkflow "The authoritative chargeback account or payment identity is unknown."

structure Graph where
  attempt : PaymentAttempt
  reservation : Reservation
  payment : Payment

def locate (event : ProviderEvent) (remote : DisputeFacts) : Tx Graph := do
  let db ← get
  reject (event.resourceId ≠ remote.id) (.commercialWorkflow
    "The authoritative chargeback resource identity does not match the provider event.")
  let attempt ← orFail (disputedAttempt? db event remote.providerPaymentId) unknownIdentity
  reject (remote.providerAccount = "" ∨ attempt.providerAccount ≠ remote.providerAccount)
    unknownIdentity
  let reservation ← lockedReservation attempt.reservationId
  let payment ← orFail (recordedFor? db attempt remote.providerPaymentId) .modelNotFound
  pure { attempt, reservation, payment }

def handle (event : ProviderEvent) (remote : DisputeFacts) : Tx ProviderDispute := do
  let g ← locate event remote
  reject (remote.currency ≠ g.payment.currency ∨ remote.amountMinor ≤ 0 ∨
      g.payment.amountMinor < remote.amountMinor)
    (.commercialWorkflow
      "The authoritative chargeback amount or currency does not match the Inn payment.")
  let d ← firstOrCreate g.reservation g.payment g.attempt remote
  let revision ← recordRevision d event remote
  saveDispute d.id (refreshed remote revision)
  applyImpact (refreshed remote revision d) g.reservation g.payment
  let s ← get
  orFail (s.disputes.find? d.id) .modelNotFound

end Handle
section Commits
variable {db t u : Database} {d e : ProviderDispute} {r : Reservation} {p : Payment}
variable {event : ProviderEvent} {remote : DisputeFacts} {x : Unit}

structure Marks (t u : Database) (d : ProviderDispute) (s : ProviderDisputeImpactState) : Prop where
  disputes : Table.Updates t.disputes u.disputes d.id (impact s)
  frame : u = { t with disputes := u.disputes }

theorem commits_markImpact {s : ProviderDisputeImpactState}
    (h : Commits (markImpact d s) t x u) : Marks t u d s := by
  simp only [markImpact, saveDispute, commits_modify] at h
  obtain rfl := h
  exact ⟨Table.updates_update, rfl⟩

-- A posted line and the mark it leaves on the dispute.
structure Charges (t u : Database) (d : ProviderDispute) (s : ProviderDisputeImpactState)
    (l : FolioLine) : Prop where
  line : Table.Appends t.folioLines u.folioLines l
  disputes : Table.Updates t.disputes u.disputes d.id (impact s)
  frame : u = { t with folioLines := u.folioLines, disputes := u.disputes }

theorem charges_of {s : ProviderDisputeImpactState} {draft : Folio.LineDraft}
    (h : Marks (Folio.posted t r draft) u d s) :
    Charges t u d s (Folio.line r draft t.clock t.folioLines.next) := by
  have hf := h.frame
  refine ⟨?_, h.disputes, ?_⟩
  · rw [hf]
    exact Table.appends_insert
  · rw [hf]
    rfl

inductive Impacted (t u : Database) (d : ProviderDispute) (r : Reservation) (p : Payment) : Prop
  | kept (hreview : d.state ≠ .underReview)
      (hlost : d.state = .lost → chargebackLine? t r.id d.id ≠ none)
      (hwon : d.state = .won → ∀ l, chargebackLine? t r.id d.id = some l → standing t l = false)
      (hu : u = t)
  | suspended (h : d.state = .underReview ∨ r.folioStatus = .closed)
      (hm : Marks t u d .pendingFinance)
  | emptied (hs : d.state = .lost) (hl : chargebackLine? t r.id d.id = none)
      (hz : chargebackAmount t d r p = 0) (hm : Marks t u d .none)
  | debited (hs : d.state = .lost) (hl : chargebackLine? t r.id d.id = none)
      (hpos : 0 < chargebackAmount t d r p) (home : Reservation)
      (hhome : t.reservation? p.reservationId = some home)
      (hc : Charges t u d .applied (Folio.line home (Folio.adjustmentDraft p .refund
        "Provider chargeback settled against the property" (chargebackAmount t d r p)
        (chargebackMetadata d)) t.clock t.folioLines.next))
      (hopen : r.folioStatus ≠ .closed)
  | credited (hs : d.state = .won) (l : FolioLine) (hl : chargebackLine? t r.id d.id = some l)
      (hst : standing t l = true) (hn : l.reversesFolioLineId = none) (home : Reservation)
      (hhome : t.reservation? l.reservationId = some home)
      (hc : Charges t u d .reversed (Folio.line home (Folio.reversalDraft l
        "Provider chargeback resolved in favor of the property." none) t.clock t.folioLines.next))

theorem commits_debit (hs : d.state = .lost) (hl : chargebackLine? t r.id d.id = none)
    (ho : r.folioStatus ≠ .closed) (h : Commits (debit d r p) t x u) : Impacted t u d r p := by
  simp only [debit, commits_bind, commits_get, commits_ite] at h
  obtain ⟨_, _, ⟨rfl, rfl⟩, ⟨hz, h⟩ | ⟨_, m, v, hpost, h⟩⟩ := h
  · exact .emptied hs hl hz (commits_markImpact h)
  · obtain ⟨_, hpos, home, hhome, _, rfl⟩ := Folio.commits_postProviderAdjustment hpost
    exact .debited hs hl hpos home hhome (charges_of (commits_markImpact h)) ho

theorem chargebackLine_mem {l : FolioLine} {i j : ℕ} (h : chargebackLine? t i j = some l) :
    l ∈ t.folioLines.rows ∧ l.reservationId = i ∧ l.metadata.providerDisputeId = some j ∧
      isChargeback l = true := by
  obtain ⟨hl, hp⟩ := Table.oldest?_some h
  simp only [Bool.and_eq_true, beq_iff_eq, and_assoc] at hp
  exact ⟨hl, hp⟩

theorem commits_credit {l : FolioLine} (hs : d.state = .won)
    (hl : chargebackLine? t r.id d.id = some l) (hst : standing t l = true)
    (h : Commits (credit d l) t x u) : Impacted t u d r p := by
  simp only [credit, commits_bind] at h
  obtain ⟨m, v, hrev, h⟩ := h
  obtain ⟨l', hl', hcase⟩ := Folio.commits_reverse hrev
  obtain rfl : l' = l := by
    obtain ⟨hmem, hid⟩ := Table.find?_eq_some.mp hl'
    exact Table.eq_of_id hmem (chargebackLine_mem hl).1 hid
  rcases hcase with ⟨hx, _⟩ | ⟨_, hn, home, hhome, _, rfl⟩
  · simp [standing, hx] at hst
  · exact .credited hs l' hl hst hn home hhome (charges_of (commits_markImpact h))

theorem commits_applyImpact (h : Commits (applyImpact d r p) t x u) : Impacted t u d r p := by
  simp only [applyImpact, commits_bind, commits_get] at h
  obtain ⟨_, _, ⟨rfl, rfl⟩, h⟩ := h
  cases hs : d.state with
  | lost =>
    cases hl : chargebackLine? t r.id d.id with
    | none =>
      simp only [hs, hl, commits_ite] at h
      rcases h with ⟨hc, h⟩ | ⟨ho, h⟩
      · exact .suspended (Or.inr hc) (commits_markImpact h)
      · exact commits_debit hs hl ho h
    | some l =>
      simp only [hs, hl, commits_pure] at h
      exact .kept (by simp [hs]) (by simp [hl]) (by simp [hs]) h.2.symm
  | won =>
    cases hl : chargebackLine? t r.id d.id with
    | none =>
      simp only [hs, hl, commits_pure] at h
      exact .kept (by simp [hs]) (by simp [hs]) (by simp [hl]) h.2.symm
    | some l =>
      simp only [hs, hl, commits_ite, commits_pure] at h
      rcases h with ⟨hst, ⟨hc, h⟩ | ⟨_, h⟩⟩ | ⟨hst, _, rfl⟩
      · exact .suspended (Or.inr hc) (commits_markImpact h)
      · exact commits_credit hs hl hst h
      · refine .kept (by simp [hs]) (by simp [hs]) ?_ rfl
        intro _ m hm
        obtain rfl : l = m := by simpa [hl] using hm
        simpa using hst
  | underReview =>
    simp only [hs] at h
    exact .suspended (Or.inl hs) (commits_markImpact h)
  | opened =>
    simp only [hs, commits_pure] at h
    exact .kept (by simp [hs]) (by simp [hs]) (by simp [hs]) h.2.symm
  | unknown =>
    simp only [hs, commits_pure] at h
    exact .kept (by simp [hs]) (by simp [hs]) (by simp [hs]) h.2.symm

structure Found (db : Database) (event : ProviderEvent) (remote : DisputeFacts) (g : Graph) :
    Prop where
  resource : event.resourceId = remote.id
  attempt : disputedAttempt? db event remote.providerPaymentId = some g.attempt
  account : g.attempt.providerAccount = remote.providerAccount
  reservation : db.reservation? g.attempt.reservationId = some g.reservation
  payment : recordedFor? db g.attempt remote.providerPaymentId = some g.payment

theorem commits_locate {g : Graph} (h : Commits (locate event remote) db g t) :
    Found db event remote g ∧ t = db := by
  simp only [locate, commits_bind, commits_get, commits_reject, commits_orFail,
    commits_lockedReservation, commits_pure] at h
  obtain ⟨_, _, ⟨rfl, rfl⟩, _, _, ⟨hid, rfl⟩, a, _, ⟨ha, rfl⟩, _, _, ⟨hacc, rfl⟩, r, _, ⟨hr, rfl⟩,
    p, _, ⟨hp, rfl⟩, rfl, rfl⟩ := h
  exact ⟨⟨not_not.mp hid, ha, not_not.mp (not_or.mp hacc).2, hr, hp⟩, rfl⟩

-- The row a delivery works on: the dispute as it was, or a fresh one.
structure Opened (db t : Database) (g : Graph) (remote : DisputeFacts) (d : ProviderDispute) :
    Prop where
  row : (dispute? db g.attempt remote.id = some d ∧ t.disputes = db.disputes) ∨
    (dispute? db g.attempt remote.id = none ∧
      d = opening g.reservation g.payment g.attempt remote db.disputes.next ∧
      Table.Appends db.disputes t.disputes d)
  frame : t = { db with disputes := t.disputes }

theorem commits_firstOrCreate {g : Graph}
    (h : Commits (firstOrCreate g.reservation g.payment g.attempt remote) db d t) :
    Opened db t g remote d := by
  simp only [firstOrCreate, commits_bind, commits_get] at h
  obtain ⟨_, _, ⟨rfl, rfl⟩, h⟩ := h
  cases hd : dispute? db g.attempt remote.id with
  | some e =>
    simp only [hd, commits_pure] at h
    obtain ⟨rfl, rfl⟩ := h
    exact ⟨Or.inl ⟨hd, rfl⟩, rfl⟩
  | none =>
    simp only [hd, commits_bind, commits_set, commits_pure] at h
    obtain ⟨_, _, rfl, rfl, rfl⟩ := h
    exact ⟨Or.inr ⟨hd, rfl, Table.appends_insert⟩, rfl⟩

theorem Opened.mem {g : Graph} (h : Opened db t g remote d) : d ∈ t.disputes.rows := by
  rcases h.row with ⟨hd, ht⟩ | ⟨_, _, happ⟩
  · rw [ht]
    exact (Table.first?_some hd).1
  · exact happ.mem_new

theorem commits_recordRevision {n : ℕ} (h : Commits (recordRevision d event remote) t n u) :
    u = { t with disputeRevisions := u.disputeRevisions } := by
  simp only [recordRevision, commits_bind, commits_get, commits_ite, commits_pure,
    commits_set] at h
  obtain ⟨_, _, ⟨rfl, rfl⟩, ⟨_, _, rfl⟩ | ⟨_, _, _, rfl, _, rfl⟩⟩ := h
  · rfl
  · rfl

structure Delivered (db u : Database) (event : ProviderEvent) (remote : DisputeFacts) (g : Graph)
    (d : ProviderDispute) (n : ℕ) (s t : Database) : Prop where
  found : Found db event remote g
  currency : remote.currency = g.payment.currency
  positive : 0 < remote.amountMinor
  within : remote.amountMinor ≤ g.payment.amountMinor
  opened : Opened db s g remote d
  saved : Table.Updates s.disputes t.disputes d.id (refreshed remote n)
  frame : t = { db with disputes := t.disputes, disputeRevisions := t.disputeRevisions }
  impact : Impacted t u (refreshed remote n d) g.reservation g.payment

theorem commits_handle (h : Commits (handle event remote) db e u) :
    ∃ g d n s t, Delivered db u event remote g d n s t ∧ u.disputes.find? d.id = some e := by
  simp only [handle, commits_bind, commits_reject, commits_get, commits_orFail] at h
  obtain ⟨g, _, hloc, _, _, ⟨hok, rfl⟩, d, s, hopen, n, s', hrev, _, t, hsave, _, v, himp, _, _,
    ⟨rfl, rfl⟩, he, rfl⟩ := h
  obtain ⟨hfound, rfl⟩ := commits_locate hloc
  rw [not_or, not_or, not_not, not_le, not_lt] at hok
  have hs := commits_recordRevision hrev
  have ho := commits_firstOrCreate hopen
  simp only [saveDispute, commits_modify] at hsave
  have hsd : s'.disputes = s.disputes := by rw [hs]
  refine ⟨g, d, n, s, t, ⟨hfound, hok.1, hok.2.1, hok.2.2, ho, ?_, ?_, commits_applyImpact himp⟩,
    he⟩
  · rw [← hsave, ← hsd]
    exact Table.updates_update
  · rw [← hsave, hs, ho.frame]

end Commits
end RecordProviderDispute
