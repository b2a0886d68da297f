import LodgeOps.Ledger.Outflow

namespace OutstandingRefunds
open Schema Transaction RequestRefund CompleteRefund RecordProviderDispute Outflow

section Figures

def outstanding (db : Database) (paymentId : ℕ) : ℤ :=
  db.changes.total fun c =>
    if pendingRequest db c = true ∧ c.paymentId = some paymentId then c.amountMinor else 0

def lostOn (paymentId : ℕ) (d : ProviderDispute) : ℤ :=
  if d.paymentId == paymentId && d.state == .lost && d.impactState == .applied
  then d.amountMinor else 0

def lostBesides (db : Database) (disputeId paymentId : ℕ) : ℤ :=
  db.disputes.total fun d => if Keyed.id d = disputeId then 0 else lostOn paymentId d

-- A dispute weighs on its payment by its standing line or by the amount a completion subtracts.
def exposed (db : Database) (paymentId : ℕ) : ℤ :=
  max (appliedChargebacks db paymentId) (lostChargebacks db paymentId)

def spare (db : Database) (p : Payment) : ℤ :=
  p.amountMinor - completed db p.id - outstanding db p.id - exposed db p.id

structure Backs (db : Database) (c : ReservationChange) (p : Payment) : Prop where
  row : p ∈ db.payments.rows
  own : c.paymentId = some p.id
  home : p.reservationId = c.reservationId
  reservation : ∃ r, db.reservation? c.reservationId = some r
  succeeded : completion? db c.id = none → p.status = .succeeded

structure Ledger (db : Database) : Prop extends Kept db where
  covered : ∀ p ∈ db.payments.rows, 0 ≤ spare db p
  backed : ∀ c ∈ db.changes.rows, isRequest c = true → ∃ p, Backs db c p
  disputed : ∀ d ∈ db.disputes.rows, 0 ≤ d.amountMinor

structure Opening (db : Database) : Prop extends Outflow.Opening db where
  disputes : ∀ d ∈ db.disputes.rows, 0 ≤ d.amountMinor ∧ d.state ≠ .lost
  refunds : db.providerRefunds.rows = []

end Figures

variable {db db' t u : Database} {p q : Payment} {c e : ReservationChange} {l x : FolioLine}
variable {d v : ProviderDispute} {i j pid : ℕ}

section Signs

theorem applied_nonneg (hk : Kept db) : 0 ≤ appliedChargebacks db pid :=
  Table.total_nonneg fun l hl => by
    split_ifs with h
    · simp only [Bool.and_eq_true, beq_iff_eq] at h
      exact (hk.charges l hl h.1.2 (by simp [h.1.1])).le
    · exact le_rfl

theorem pending_nonneg (hk : Kept db) : ∀ c ∈ db.changes.rows,
    0 ≤ if pendingRequest db c = true ∧ c.paymentId = some pid then c.amountMinor else 0 := by
  intro c hc
  split_ifs with h
  · simp only [pendingRequest, Bool.and_eq_true] at h
    exact (hk.positive c hc (Or.inl h.1.1)).le
  · exact le_rfl

theorem outstanding_nonneg (hk : Kept db) : 0 ≤ outstanding db pid :=
  Table.total_nonneg (pending_nonneg hk)

theorem exposed_nonneg (hk : Kept db) : 0 ≤ exposed db pid :=
  le_max_of_le_left (applied_nonneg hk)

theorem within_of_ledger (h : Ledger db) : Within db := by
  intro p hp
  have hs := h.covered p hp
  have ho : 0 ≤ outstanding db p.id := outstanding_nonneg h.toKept
  have he : appliedChargebacks db p.id ≤ exposed db p.id := le_max_left _ _
  unfold spare at hs
  omega

theorem lostOn_nonneg (h : 0 ≤ d.amountMinor) : 0 ≤ lostOn pid d := by
  unfold lostOn
  split_ifs
  · exact h
  · exact le_rfl

theorem besides_le_lost (h : ∀ d ∈ db.disputes.rows, 0 ≤ d.amountMinor) :
    lostBesides db i pid ≤ lostChargebacks db pid := by
  have he : lostChargebacks db pid = db.disputes.total (lostOn pid) := rfl
  rw [he]
  refine Table.total_le_total fun d hd => ?_
  by_cases hi : Keyed.id d = i
  · simpa [hi] using lostOn_nonneg (h d hd)
  · simp [hi]

theorem ledger_of_opening (h : Opening db) : Ledger db where
  toKept := kept_of_opening h.toOpening
  covered p hp := by
    have hw := within_of_opening h.toOpening p hp
    have ho : outstanding db p.id = 0 := Table.total_eq_zero fun c hc => by
      simp [pendingRequest, (h.changes c hc).1]
    have hl : lostChargebacks db p.id = 0 := Table.total_eq_zero fun d hd => by
      simp [(h.disputes d hd).2]
    have hc : completed db p.id = 0 := completed_eq_zero fun c hc => (h.changes c hc).2
    have ha : 0 ≤ appliedChargebacks db p.id := applied_nonneg (kept_of_opening h.toOpening)
    unfold spare exposed
    omega
  backed c hc hr := by simp [(h.changes c hc).1] at hr
  disputed d hd := (h.disputes d hd).1

end Signs
section Changes

theorem completion_append (h : Table.Appends db.changes db'.changes c) :
    completion? db' i = none ↔ completion? db i = none ∧
      ¬ (c.parentChangeId = some i ∧ c.type = .refundCompleted) := by
  unfold completion?
  rw [Table.first?_eq_none, Table.first?_eq_none]
  constructor
  · intro hn
    refine ⟨fun e he => hn e (h.mem_old he), fun hc => ?_⟩
    have := hn c h.mem_new
    simp [hc.1, hc.2] at this
  · rintro ⟨hn, hc⟩ e he
    rcases h.mem.mp he with he | rfl
    · exact hn e he
    · simpa using hc

theorem completion_congr (h : db'.changes = db.changes) : completion? db' i = completion? db i := by
  unfold completion?
  rw [h]

theorem pending_append (h : Table.Appends db.changes db'.changes c)
    (hc : ¬ (c.parentChangeId = some e.id ∧ c.type = .refundCompleted)) :
    pendingRequest db' e = pendingRequest db e := by
  have hiff := completion_append (i := e.id) h
  unfold pendingRequest
  cases hx : completion? db e.id with
  | none =>
    rw [hiff.mpr ⟨hx, hc⟩]
  | some m =>
    have hne : completion? db' e.id ≠ none := fun hn => by simp [hx] at hiff; exact hiff hn
    cases hy : completion? db' e.id with
    | none => exact absurd hy hne
    | some _ => rfl

theorem outstanding_append (h : Table.Appends db.changes db'.changes c)
    (hc : c.type ≠ .refundCompleted) : outstanding db' pid = outstanding db pid +
      if pendingRequest db' c = true ∧ c.paymentId = some pid then c.amountMinor else 0 := by
  unfold outstanding
  rw [h.total]
  congr 1
  exact Table.total_congr fun e _ => by rw [pending_append h fun hx => hc hx.2]

theorem outstanding_congr (h : db'.changes = db.changes) :
    outstanding db' pid = outstanding db pid := by
  unfold outstanding pendingRequest completion?
  rw [h]

theorem outstanding_completed {g : RequestGraph} (h : Table.Appends db.changes db'.changes c)
    (hg : g.request ∈ db.changes.rows) (hreq : isRequest g.request = true)
    (hn : completion? db g.request.id = none) (hown : g.request.paymentId = some g.payment.id)
    (hpar : c.parentChangeId = some g.request.id) (htype : c.type = .refundCompleted) :
    outstanding db' pid + (if g.payment.id = pid then g.request.amountMinor else 0) =
      outstanding db pid := by
  have hnew : pendingRequest db' c = false := by simp [pendingRequest, isRequest, htype]
  have hgone : pendingRequest db' g.request = false := by
    have hne : completion? db' g.request.id ≠ none := fun hx =>
      (completion_append h).mp hx |>.2 ⟨hpar, htype⟩
    cases hx : completion? db' g.request.id with
    | none => exact absurd hx hne
    | some _ => simp [pendingRequest, hx]
  have hwas : pendingRequest db g.request = true := by simp [pendingRequest, hreq, hn]
  have hothers : db.changes.total (fun e => if Keyed.id e = Keyed.id g.request then 0 else
        if pendingRequest db' e = true ∧ e.paymentId = some pid then e.amountMinor else 0) =
      db.changes.total fun e => if Keyed.id e = Keyed.id g.request then 0 else
        if pendingRequest db e = true ∧ e.paymentId = some pid then e.amountMinor else 0 := by
    refine Table.total_congr fun e _ => ?_
    by_cases hid : Keyed.id e = Keyed.id g.request
    · simp [hid]
    · have hp : pendingRequest db' e = pendingRequest db e := pending_append h fun hx => hid
        (Option.some.inj (hx.1.symm.trans hpar))
      simp [hid, hp]
  unfold outstanding
  rw [h.total, Table.total_split (g := fun e => if pendingRequest db' e = true ∧
      e.paymentId = some pid then e.amountMinor else 0) hg, hothers,
    Table.total_split (g := fun e => if pendingRequest db e = true ∧
      e.paymentId = some pid then e.amountMinor else 0) hg]
  simp only [hgone, hwas, hown, hnew, Option.some.injEq, true_and, Bool.false_eq_true, false_and,
    if_false]
  omega

end Changes
section Steps
variable {g : RequestGraph} {actor : Option ℕ} {reason reference : String} {amount : ℤ}

theorem exposed_congr (hl : db'.folioLines = db.folioLines) (hd : db'.disputes = db.disputes) :
    exposed db' pid = exposed db pid := by
  unfold exposed lostChargebacks
  rw [applied_congr hl, hd]

theorem backs_carry (h : Backs db c p) (hp : p ∈ db'.payments.rows)
    (hr : db'.reservations = db.reservations)
    (hc : completion? db' c.id = none → completion? db c.id = none) : Backs db' c p where
  row := hp
  own := h.own
  home := h.home
  reservation := by
    rw [Database.reservation?_congr hr]
    exact h.reservation
  succeeded hn := h.succeeded (hc hn)

-- A change that completes nothing: what it may add to the outstanding amount has to be spare.
theorem ledger_append (h : Ledger db) (hk : Kept db') (happ : Table.Appends db.changes db'.changes c)
    (htype : c.type ≠ .refundCompleted) (hf : db' = { db with changes := db'.changes })
    (hfit : ∀ p ∈ db.payments.rows, (if isRequest c = true ∧ c.paymentId = some p.id
      then c.amountMinor else 0) ≤ spare db p)
    (hback : isRequest c = true → ∃ p, Backs db' c p) : Ledger db' where
  toKept := hk
  covered p hp := by
    have hp : p ∈ db.payments.rows := by rwa [hf] at hp
    have hfit := hfit p hp
    have hcov := h.covered p hp
    have hcomp : completed db' p.id = completed db p.id := by
      rw [completed_append happ]
      simp [isCompletion, htype]
    have hout : outstanding db' p.id = outstanding db p.id + _ := outstanding_append happ htype
    have hexp : exposed db' p.id = exposed db p.id := exposed_congr (by rw [hf]) (by rw [hf])
    unfold spare at hfit hcov ⊢
    rw [hcomp, hout, hexp]
    by_cases hpend : pendingRequest db' c = true ∧ c.paymentId = some p.id
    · have hreq : isRequest c = true := by
        have := hpend.1
        simp only [pendingRequest, Bool.and_eq_true] at this
        exact this.1
      rw [if_pos ⟨hreq, hpend.2⟩] at hfit
      rw [if_pos hpend]
      omega
    · rw [if_neg hpend]
      omega
  backed e he hreq := by
    rcases happ.mem.mp he with he | rfl
    · obtain ⟨p, hp⟩ := h.backed e he hreq
      exact ⟨p, backs_carry hp (by rw [hf]; exact hp.row) (by rw [hf])
        fun hn => ((completion_append happ).mp hn).1⟩
    · exact hback hreq
  disputed := by
    rw [hf]
    exact h.disputed

theorem ledger_request (h : Ledger db)
    (hc : Commits (RequestRefund.handle i j amount reason) db c db')
    (hfit : ∀ p, db.payments.find? j = some p → amount ≤ spare db p) : Ledger db' := by
  have hk := (request_step h.toKept (within_of_ledger h) hc).1
  obtain ⟨r, p, hacc, ⟨_, hd⟩, happ, hf⟩ := RequestRefund.commits_handle hc
  refine ledger_append h hk happ (by simp [hd, request]) hf (fun q hq => ?_) fun _ => ⟨p, ?_⟩
  · split_ifs with hown
    · have hid : p.id = q.id := by simpa [hd, request] using hown.2
      obtain rfl := Table.eq_of_id (Table.find?_eq_some.mp hacc.payment).1 hq hid
      simpa [hd, request] using hfit p hacc.payment
    · exact h.covered q hq
  · have hri : r.id = i := Folio.reservation_id_eq hacc.reservation
    refine ⟨by rw [hf]; exact (Table.find?_eq_some.mp hacc.payment).1, by rw [hd]; rfl,
      by rw [hd]; exact hacc.home, ⟨r, ?_⟩, fun _ => hacc.succeeded⟩
    have hres : db'.reservations = db.reservations := by rw [hf]
    rw [Database.reservation?_congr hres, hd]
    simpa [request, hri] using hacc.reservation

theorem ledger_fail (h : Ledger db) (hc : Commits (CompleteRefund.fail i reason) db c db') :
    Ledger db' := by
  have hk := (fail_step h.toKept (within_of_ledger h) hc).1
  obtain ⟨g, _, _, _, ⟨_, _, hd⟩, happ, hf⟩ := CompleteRefund.commits_fail hc
  have hreq : isRequest c = false := by rw [hd]; rfl
  have htype : c.type = .refundFailed := by rw [hd]; rfl
  refine ledger_append h hk happ (by simp [htype]) hf (fun p hp => ?_) (by simp [hreq])
  simpa [hreq] using h.covered p hp

-- Two open requests on one payment cannot both be the last of its money.
theorem lone_of_exhausting (h : Ledger db) (hp : p ∈ db.payments.rows)
    (hc : c ∈ db.changes.rows) (he : e ∈ db.changes.rows) (hne : e.id ≠ c.id)
    (hcp : pendingRequest db c = true) (hep : pendingRequest db e = true)
    (hco : c.paymentId = some p.id) (heo : e.paymentId = some p.id) :
    completed db p.id + c.amountMinor < p.amountMinor := by
  have hle : c.amountMinor + e.amountMinor ≤ outstanding db p.id := by
    have := Table.add_le_total (g := fun c => if pendingRequest db c = true ∧
      c.paymentId = some p.id then c.amountMinor else 0) hc he hne (pending_nonneg h.toKept)
    simpa [hcp, hep, hco, heo, outstanding] using this
  have hpos : 0 < e.amountMinor := by
    simp only [pendingRequest, Bool.and_eq_true] at hep
    exact h.positive e he (Or.inl hep.1)
  have hcov := h.covered p hp
  have hexp : 0 ≤ exposed db p.id := exposed_nonneg h.toKept
  unfold spare at hcov
  omega

theorem payment_kept (hg : Graphed db i g) (h : Completed db db' g actor c)
    (hp : p ∈ db.payments.rows) (hne : completedForPayment db g.reservation g.payment.id +
      g.request.amountMinor = g.payment.amountMinor → p ≠ g.payment) : p ∈ db'.payments.rows := by
  rcases h.payment with ⟨heq, hu⟩ | ⟨_, hsame⟩
  · exact hu.mem_ne hp fun hid => hne heq (Table.eq_of_id hp hg.payment_mem hid)
  · rwa [hsame]

theorem ledger_complete (h : Ledger db) (hg : Graphed db i g) (hreq : isRequest g.request = true)
    (hn : completion? db g.request.id = none) (hc : Completed db db' g actor c) : Ledger db' := by
  have hresp := completed_respects h.toKept hg hreq hc
  obtain ⟨reference, hd⟩ := hc.change
  have hmem : g.request ∈ db.changes.rows := (Table.find?_eq_some.mp hg.request).1
  have hpar : c.parentChangeId = some g.request.id := by rw [hd]; rfl
  have htype : c.type = .refundCompleted := by rw [hd]; rfl
  refine ⟨kept_of_respects h.toKept hresp, fun q hq => ?_, fun e he hereq => ?_, ?_⟩
  · obtain ⟨p, hp, hpq⟩ := hresp.payments q hq
    have hcov := h.covered p hp
    have hout : outstanding db' p.id + _ = outstanding db p.id :=
      outstanding_completed hc.appended hmem hreq hn hg.payment_id hpar htype
    have hcomp := completed_amount (i := p.id) hc
    have hexp : exposed db' p.id = exposed db p.id := by
      unfold exposed lostChargebacks
      rw [completed_applied h.toKept hc, hc.frame]
    unfold spare at hcov ⊢
    rw [hpq.id, hpq.amount, hexp]
    omega
  · rcases hc.appended.mem.mp he with he | rfl
    · obtain ⟨p, hp⟩ := h.backed e he hereq
      by_cases hopen : completion? db' e.id = none
      · obtain ⟨hopen', hnot⟩ := (completion_append hc.appended).mp hopen
        have hne : e.id ≠ g.request.id := fun hid => hnot ⟨hid ▸ hpar, htype⟩
        refine ⟨p, backs_carry hp (payment_kept hg hc hp.row ?_) (by rw [hc.frame])
          fun _ => hopen'⟩
        rintro hall rfl
        rw [completedForPayment_eq h.toKept hp.row hc.home] at hall
        have hlt := lone_of_exhausting h hp.row hmem he hne (by simp [pendingRequest, hreq, hn])
          (by simp [pendingRequest, hereq, hopen']) hg.payment_id hp.own
        omega
      · by_cases hid : p = g.payment
        · subst hid
          rcases hc.payment with ⟨_, hu⟩ | ⟨_, hsame⟩
          · refine ⟨exhausted g.payment, hu.mem_self hp.row rfl, hp.own, hp.home, ?_,
              fun hx => absurd hx hopen⟩
            have hres : db'.reservations = db.reservations := by rw [hc.frame]
            rw [Database.reservation?_congr hres]
            exact hp.reservation
          · exact ⟨g.payment, backs_carry hp (by rw [hsame]; exact hp.row) (by rw [hc.frame])
              fun hx => absurd hx hopen⟩
        · exact ⟨p, backs_carry hp (payment_kept hg hc hp.row fun _ => hid) (by rw [hc.frame])
            fun hx => absurd hx hopen⟩
    · simp [isRequest, htype] at hereq
  · rw [hc.frame]
    exact h.disputed

end Steps
section Disputes
variable {event : ProviderEvent} {remote : DisputeFacts} {g : Graph} {n : ℕ} {s : Database}

def disputedRow (db : Database) (g : Graph) (remote : DisputeFacts) : ProviderDispute :=
  (dispute? db g.attempt remote.id).getD
    (RecordProviderDispute.opening g.reservation g.payment g.attempt remote db.disputes.next)

def charge (db : Database) (g : Graph) (remote : DisputeFacts) (paymentId : ℕ) : ℤ :=
  if g.payment.id = paymentId ∧
      chargebackLine? db g.reservation.id (disputedRow db g remote).id = none
  then remote.amountMinor else 0

def loss (db : Database) (g : Graph) (remote : DisputeFacts) (paymentId : ℕ) : ℤ :=
  if (disputedRow db g remote).paymentId = paymentId then remote.amountMinor else 0

-- Room for a reported loss, at its full amount, beside what is refunded and still to be refunded.
def bears (db : Database) (g : Graph) (remote : DisputeFacts) (p : Payment) : Bool :=
  decide (completed db p.id + outstanding db p.id +
    max (appliedChargebacks db p.id + charge db g remote p.id)
      (lostBesides db (disputedRow db g remote).id p.id + loss db g remote p.id) ≤ p.amountMinor)

def Bearable (db : Database) (event : ProviderEvent) (remote : DisputeFacts) : Prop :=
  RecordProviderDispute.state remote = .lost → ∀ g, Found db event remote g →
    ∀ p ∈ db.payments.rows, bears db g remote p = true

theorem besides_update {f : ProviderDispute → ProviderDispute}
    (h : Table.Updates t.disputes u.disputes i f) : lostBesides u i pid = lostBesides t i pid :=
  h.total_eq fun r _ hr => by
    have hk : Keyed.id (f r) = i := (h.keeps r).trans hr
    simp [hk, hr]

theorem disputedRow_of_opened (h : Opened db s g remote d) : d = disputedRow db g remote := by
  unfold disputedRow
  rcases h.row with ⟨hd, _⟩ | ⟨hn, hd, _⟩
  · simp [hd]
  · simp [hn, hd]

theorem opened_find (h : Opened db s g remote d) : s.disputes.find? d.id = some d :=
  Table.find?_eq_some.mpr ⟨h.mem, rfl⟩

theorem opened_besides (h : Opened db s g remote d) :
    lostBesides s d.id pid = lostBesides db d.id pid := by
  rcases h.row with ⟨_, hs⟩ | ⟨_, _, happ⟩
  · unfold lostBesides
    rw [hs]
  · have hi : Keyed.id d = d.id := rfl
    unfold lostBesides
    rw [happ.total]
    simp [hi]

theorem opened_amounts (h : Opened db s g remote d) (hpos : 0 < remote.amountMinor)
    (hdb : ∀ d ∈ db.disputes.rows, 0 ≤ d.amountMinor) :
    ∀ d ∈ s.disputes.rows, 0 ≤ d.amountMinor := by
  rcases h.row with ⟨_, hs⟩ | ⟨_, hd, happ⟩
  · rwa [hs]
  · intro v hv
    rcases happ.mem.mp hv with hv | rfl
    · exact hdb v hv
    · rw [hd]
      exact hpos.le

-- The row of the dispute after the impact step, and what the step did to the other amounts.
structure Weighed (t u : Database) (d : ProviderDispute) (r : Reservation) (p : Payment) : Prop where
  row : ∃ v, u.disputes.find? d.id = some v ∧ v.paymentId = d.paymentId ∧ v.state = d.state ∧
    v.amountMinor = d.amountMinor
  besides : ∀ pid, lostBesides u d.id pid = lostBesides t d.id pid
  amounts : (∀ v ∈ t.disputes.rows, 0 ≤ v.amountMinor) → ∀ v ∈ u.disputes.rows, 0 ≤ v.amountMinor
  applied : ∀ pid, appliedChargebacks u pid ≤ appliedChargebacks t pid +
    if d.state = .lost ∧ p.id = pid ∧ chargebackLine? t r.id d.id = none then d.amountMinor else 0
  frame : u = { t with folioLines := u.folioLines, disputes := u.disputes }

theorem charge_nonneg {c : Prop} [Decidable c] {a : ℤ} (h : 0 ≤ a) : 0 ≤ if c then a else 0 := by
  split_ifs
  · exact h
  · exact le_rfl

theorem marked_amounts {st : ProviderDisputeImpactState}
    (h : Table.Updates t.disputes u.disputes i (impact st))
    (ht : ∀ v ∈ t.disputes.rows, 0 ≤ v.amountMinor) : ∀ v ∈ u.disputes.rows, 0 ≤ v.amountMinor := by
  intro v hv
  rcases h.mem.mp hv with ⟨hv, _⟩ | ⟨w, hw, _, rfl⟩
  · exact ht v hv
  · exact ht w hw

theorem weighed_of_impacted {r : Reservation} (hk : Kept t) (hd : t.disputes.find? d.id = some d)
    (hpos : 0 < d.amountMinor) (h : Impacted t u d r p) : Weighed t u d r p := by
  have hmarks : ∀ st, Marks t u d st → Weighed t u d r p := by
    intro st hm
    have hl : u.folioLines = t.folioLines := by rw [hm.frame]
    refine ⟨⟨impact st d, hm.disputes.find?_self hd, rfl, rfl, rfl⟩,
      fun _ => besides_update hm.disputes, marked_amounts hm.disputes, fun pid => ?_, ?_⟩
    · rw [applied_congr hl]
      exact le_add_of_nonneg_right (charge_nonneg hpos.le)
    · rw [hm.frame]
  cases h with
  | kept _ _ _ hu =>
    subst hu
    exact ⟨⟨d, hd, rfl, rfl, rfl⟩, fun _ => rfl, fun h => h,
      fun _ => le_add_of_nonneg_right (charge_nonneg hpos.le), rfl⟩
  | suspended _ hm => exact hmarks _ hm
  | emptied _ _ _ hm => exact hmarks _ hm
  | debited hs hl _ home _ hc =>
    refine ⟨⟨impact .applied d, hc.disputes.find?_self hd, rfl, rfl, rfl⟩,
      fun _ => besides_update hc.disputes, marked_amounts hc.disputes, fun pid => ?_, hc.frame⟩
    have hle : chargebackAmount t d r p ≤ d.amountMinor := min_le_left _ _
    have hnet : Folio.lineAmount (chargebackAmount t d r p) 1000 = chargebackAmount t d r p :=
      Folio.lineAmount_thousand _
    rw [applied_append hk hc.line rfl]
    by_cases hp : p.id = pid
    · simp only [Folio.line, Folio.adjustmentDraft, chargebackMetadata, isChargeback, hp, hs, hl,
        hnet, and_self, beq_self_eq_true, if_true]
      omega
    · simp [Folio.line, Folio.adjustmentDraft, hp]
  | credited hs l hl _ _ home _ hc =>
    refine ⟨⟨impact .reversed d, hc.disputes.find?_self hd, rfl, rfl, rfl⟩,
      fun _ => besides_update hc.disputes, marked_amounts hc.disputes, fun pid => ?_, hc.frame⟩
    exact (applied_append_reversal hk hc.line rfl).trans
      (le_add_of_nonneg_right (charge_nonneg hpos.le))

theorem lost_split (hv : u.disputes.find? i = some v) :
    lostChargebacks u pid = lostOn pid v + lostBesides u i pid := by
  obtain ⟨hmem, hid⟩ := Table.find?_eq_some.mp hv
  have hsplit := Table.total_split (g := lostOn pid) hmem
  rw [hid] at hsplit
  exact hsplit

theorem ledger_dispute (h : Ledger db)
    (hc : Commits (RecordProviderDispute.handle event remote) db d u)
    (hfit : Bearable db event remote) : Ledger u := by
  have hku := (dispute_step h.toKept (within_of_ledger h) hc).1
  obtain ⟨g, d, n, s, t, hd, _⟩ := RecordProviderDispute.commits_handle hc
  have hp : t.payments = db.payments := by rw [hd.frame]
  have hch : t.changes = db.changes := by rw [hd.frame]
  have hl : t.folioLines = db.folioLines := by rw [hd.frame]
  have ha : t.paymentAttempts = db.paymentAttempts := by rw [hd.frame]
  have hres : t.reservations = db.reservations := by rw [hd.frame]
  have hkt : Kept t := kept_frame h.toKept hp hch hl ha
  have hw := weighed_of_impacted hkt (d := refreshed remote n d)
    (hd.saved.find?_self (opened_find hd.opened)) hd.positive hd.impact
  have hup : u.payments = db.payments := by rw [hw.frame, hp]
  have huc : u.changes = db.changes := by rw [hw.frame, hch]
  have hur : u.reservations = db.reservations := by rw [hw.frame, hres]
  refine ⟨hku, fun p hmem => ?_, fun c hmem hreq => ?_, hw.amounts fun v hv => ?_⟩
  · rw [hup] at hmem
    have hcov := h.covered p hmem
    obtain ⟨v, hv, hvp, hvs, hva⟩ := hw.row
    have hlost : lostChargebacks u p.id = lostOn p.id v + _ := lost_split hv
    have hbes : lostBesides u d.id p.id = lostBesides db d.id p.id :=
      (hw.besides p.id).trans ((besides_update hd.saved).trans (opened_besides hd.opened))
    have happ := hw.applied p.id
    have hline : chargebackLine? t g.reservation.id d.id =
        chargebackLine? db g.reservation.id d.id := by
      unfold chargebackLine?
      rw [hl]
    have hrow := disputedRow_of_opened hd.opened
    rw [applied_congr hl] at happ
    unfold spare at hcov ⊢
    rw [completed_congr huc, outstanding_congr huc]
    by_cases hs : RecordProviderDispute.state remote = .lost
    · have hb := of_decide_eq_true (hfit hs g hd.found p hmem)
      have hcharge : appliedChargebacks u p.id ≤
          appliedChargebacks db p.id + charge db g remote p.id := by
        unfold charge
        rw [← hrow, ← hline]
        simpa [refreshed, hs] using happ
      have hloss : lostChargebacks u p.id ≤
          lostBesides db (disputedRow db g remote).id p.id + loss db g remote p.id := by
        have hpos := hd.positive
        have hon : lostOn p.id v ≤ loss db g remote p.id := by
          unfold lostOn loss
          rw [← hrow, hvp, hva]
          by_cases hown : d.paymentId = p.id
          · simp only [refreshed, hown, beq_self_eq_true, Bool.true_and, if_true]
            split_ifs
            · exact le_rfl
            · exact hpos.le
          · simp [refreshed, hown]
        rw [hlost, ← hrow]
        have : lostBesides u (refreshed remote n d).id p.id = lostBesides db d.id p.id := hbes
        omega
      have hmax : exposed u p.id ≤ max (appliedChargebacks db p.id + charge db g remote p.id)
          (lostBesides db (disputedRow db g remote).id p.id + loss db g remote p.id) :=
        max_le_max hcharge hloss
      omega
    · have hon : lostOn p.id v = 0 := by
        have : v.state ≠ .lost := by rw [hvs]; exact hs
        simp [lostOn, this]
      have hcharge : appliedChargebacks u p.id ≤ appliedChargebacks db p.id := by
        simpa [refreshed, hs] using happ
      have hloss : lostChargebacks u p.id ≤ lostChargebacks db p.id := by
        have hle : lostBesides db d.id p.id ≤ lostChargebacks db p.id := besides_le_lost h.disputed
        have : lostBesides u (refreshed remote n d).id p.id = lostBesides db d.id p.id := hbes
        omega
      have hmax : exposed u p.id ≤ exposed db p.id := max_le_max hcharge hloss
      omega
  · rw [huc] at hmem
    obtain ⟨p, hb⟩ := h.backed c hmem hreq
    exact ⟨p, backs_carry hb (by rw [hup]; exact hb.row) hur
      fun hn => by rwa [completion_congr huc] at hn⟩
  · rcases hd.saved.mem.mp hv with ⟨hv, _⟩ | ⟨w, _, _, rfl⟩
    · exact opened_amounts hd.opened hd.positive h.disputed v hv
    · exact hd.positive.le

end Disputes
section Frames

theorem ledger_congr (h : Ledger db) (hp : u.payments = db.payments) (hc : u.changes = db.changes)
    (hl : u.folioLines = db.folioLines) (hd : u.disputes = db.disputes)
    (ha : u.paymentAttempts = db.paymentAttempts) (hr : u.reservations = db.reservations) :
    Ledger u where
  toKept := kept_frame h.toKept hp hc hl ha
  covered p hmem := by
    have hcov := h.covered p (hp ▸ hmem)
    unfold spare at hcov ⊢
    rwa [completed_congr hc, outstanding_congr hc, exposed_congr hl hd]
  backed c hmem hreq := by
    obtain ⟨p, hb⟩ := h.backed c (hc ▸ hmem) hreq
    exact ⟨p, backs_carry hb (by rw [hp]; exact hb.row) hr
      fun hn => by rwa [completion_congr hc] at hn⟩
  disputed := by
    rw [hd]
    exact h.disputed

end Frames
section Booking
variable {g : RequestGraph} {actor : Option ℕ} {reference : String} {r : Reservation}

theorem postRefund_commits (hr : db.reservation? p.reservationId = some r)
    (ho : r.folioStatus ≠ .closed) : ∃ l u, Commits (Folio.postRefund p c actor) db l u := by
  simp only [Folio.postRefund, commits_bind, commits_get]
  cases hl : Folio.refundLine? db c.id with
  | some existing => exact ⟨existing, db, db, db, ⟨rfl, rfl⟩, by simp [hl]⟩
  | none =>
    refine ⟨Folio.line r (Folio.refundDraft p c actor) db.clock db.folioLines.next,
      Folio.posted db r (Folio.refundDraft p c actor), db, db, ⟨rfl, rfl⟩, ?_⟩
    simp only [hl, commits_bind, commits_lockedReservation, commits_check, Folio.commits_createLine,
      Folio.assertOpen, refuse_eq_ok]
    exact ⟨r, db, ⟨hr, rfl⟩, (), db, ⟨ho, rfl⟩, rfl, rfl⟩

theorem settlePayment_commits (n : ℤ) : ∃ u, Commits (settlePayment g n) db () u := by
  by_cases h : n + g.request.amountMinor = g.payment.amountMinor
  · exact ⟨_, by simp only [settlePayment, if_pos h, commits_modify]; rfl⟩
  · exact ⟨db, by simp [settlePayment, h]⟩

theorem complete_commits (hhome : g.payment.reservationId = g.reservation.id)
    (hs : g.payment.status = .succeeded) (hle : exceeds db g = false) (href : reference ≠ "")
    (hr : db.reservation? g.reservation.id = some g.reservation)
    (ho : g.reservation.folioStatus ≠ .closed) :
    ∃ c u, Commits (CompleteRefund.complete g reference actor) db c u := by
  let t : Database := { db with changes := db.changes.insert (completion g reference db.clock) }
  let d : ReservationChange := completion g reference db.clock db.changes.next
  have hhere : t.reservation? g.payment.reservationId = some g.reservation := hhome ▸ hr
  obtain ⟨l, v, hpost⟩ : ∃ l v, Commits (Folio.postRefund g.payment d actor) t l v :=
    postRefund_commits hhere ho
  obtain ⟨u, hset⟩ : ∃ u, Commits (settlePayment g
      (completedForPayment db g.reservation g.payment.id)) v () u := settlePayment_commits _
  refine ⟨d, u, ?_⟩
  simp only [CompleteRefund.complete, commits_bind, commits_reject, commits_get, commits_set,
    commits_pure]
  exact ⟨(), db, ⟨href, rfl⟩, (), db, ⟨by simp [hhome, hs], rfl⟩, db, db, ⟨rfl, rfl⟩, (), db,
    ⟨by simp [hle], rfl⟩, (), t, rfl, l, v, hpost, (), u, hset, rfl, rfl⟩

theorem covered_within (h : Ledger db) (hg : Graphed db i g) (hreq : isRequest g.request = true)
    (hn : completion? db g.request.id = none) (hhome : g.payment.reservationId = g.reservation.id) :
    exceeds db g = false := by
  have hmem : g.request ∈ db.changes.rows := (Table.find?_eq_some.mp hg.request).1
  have hcov := h.covered g.payment hg.payment_mem
  have hle := Table.le_total (g := fun c => if pendingRequest db c = true ∧
    c.paymentId = some g.payment.id then c.amountMinor else 0) hmem (pending_nonneg h.toKept)
  have hpend : pendingRequest db g.request = true := by simp [pendingRequest, hreq, hn]
  rw [if_pos ⟨hpend, hg.payment_id⟩] at hle
  have hle : g.request.amountMinor ≤ outstanding db g.payment.id := hle
  have hlost : lostChargebacks db g.payment.id ≤ exposed db g.payment.id := le_max_right _ _
  unfold spare at hcov
  unfold exceeds
  rw [completedForPayment_eq h.toKept hg.payment_mem hhome, decide_eq_false_iff_not, not_lt]
  omega

theorem completes (h : Ledger db) (hc : c ∈ db.changes.rows) (hreq : isRequest c = true)
    (hr : db.reservation? c.reservationId = some r) (ho : r.folioStatus ≠ .closed)
    (href : trim reference ≠ "") :
    ∃ e u, Commits (CompleteRefund.handle c.id reference actor) db e u := by
  obtain ⟨p, hb⟩ := h.backed c hc hreq
  have hrid : r.id = c.reservationId := Folio.reservation_id_eq hr
  have hhome : p.reservationId = r.id := hb.home.trans hrid.symm
  have hg : Graphed db c.id ⟨r, p, c⟩ := ⟨Table.find?_eq_some.mpr ⟨hc, rfl⟩, hr, p.id, hb.own,
    Table.find?_eq_some.mpr ⟨hb.row, rfl⟩⟩
  have hlock := commits_lockRequestGraph.mpr ⟨hg, rfl⟩
  have hassert : assertRequest c = .ok () := by simp [assertRequest, hreq]
  cases hx : completion? db c.id with
  | some existing =>
    refine ⟨existing, db, ?_⟩
    simp only [CompleteRefund.handle, commits_bind, commits_check, commits_get]
    exact ⟨_, db, hlock, (), db, ⟨hassert, rfl⟩, db, db, ⟨rfl, rfl⟩, by simp [hx]⟩
  | none =>
    have hle := covered_within h hg hreq hx hhome
    obtain ⟨e, u, hdone⟩ : ∃ e u, Commits (CompleteRefund.complete ⟨r, p, c⟩ (trim reference) actor)
        db e u := complete_commits hhome (hb.succeeded hx) hle href (hrid ▸ hr) ho
    refine ⟨e, u, ?_⟩
    simp only [CompleteRefund.handle, commits_bind, commits_check, commits_get]
    exact ⟨_, db, hlock, (), db, ⟨hassert, rfl⟩, db, db, ⟨rfl, rfl⟩, by simpa [hx] using hdone⟩

end Booking
end OutstandingRefunds
