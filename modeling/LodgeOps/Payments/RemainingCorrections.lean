import LodgeOps.Payments.CashDrawer
import LodgeOps.Ledger.OutstandingRefunds

namespace CorrectRemainingReversibleAmount
open Schema Transaction RequestRefund CompleteRefund FrontDeskPaymentGuard CashShift

section Correction

-- The open requests are those of the whole reservation, whichever payment they are on.
def paymentRemaining (db : Database) (r : Reservation) (p : Payment) : ℤ :=
  max 0 (p.amountMinor - completedForPayment db r p.id - openRequests db r)

def remainingCredit (db : Database) (r : Reservation) : ℤ :=
  max 0 (-(Folio.summary db r).balanceMinor - openRequests db r)

def remaining (db : Database) (r : Reservation) (p : Payment) : ℤ :=
  min (paymentRemaining db r p) (remainingCredit db r)

def handle (actor : Staff) (paymentId : ℕ) (reason : String) : DeskTx ReservationChange := do
  let snapshot ← onBooks (PaymentService.lockedPayment paymentId)
  let r ← onBooks (lockedReservation snapshot.reservationId)
  let p ← onBooks (PaymentService.lockedPayment snapshot.id)
  resolveException actor r.propertyId
  reject (p.origin ≠ .manual) (.validation "payment"
    "Provider-origin reversible amounts require the provider dispute/refund path.")
  let s ← get
  reject (remaining s.books r p = 0)
    (.validation "payment" "No reversible amount remains on this payment.")
  onBooks (RequestRefund.handle r.id p.id (remaining s.books r p) reason)

end Correction

section Meaning

-- The amounts for which a refund of the payment would be accepted now.
def acceptable (db : Database) (paymentId : ℕ) (reason : String) : Set ℤ :=
  {amount | ∃ reservationId c db',
    Commits (RequestRefund.handle reservationId paymentId amount reason) db c db'}

structure RequestsLargest (s : CashDesk) (actor : Staff) (paymentId : ℕ) (reason : String) :
    Prop where
  largest : ∀ amount, IsGreatest (acceptable s.books paymentId reason) amount →
    ∃ c t, Commits (handle actor paymentId reason) s c t ∧ c.paymentId = some paymentId ∧
      c.amountMinor = amount
  nothing : acceptable s.books paymentId reason = ∅ →
    ∀ c t, ¬ Commits (handle actor paymentId reason) s c t

def Authorised (actor : Staff) (propertyId : ℕ) : Prop :=
  ∃ m, actor.membership = some m ∧ m.isActive = true ∧ m.userId = actor.id ∧
    m.role ∈ [MembershipRole.administrator, .manager, .finance] ∧
    canAccessProperty actor.membership propertyId = true

def AloneOpen (db : Database) (r : Reservation) (p : Payment) : Prop :=
  ∀ c ∈ db.changes.rows, c.reservationId = r.id → pendingRequest db c = true →
    c.paymentId = some p.id

instance (db : Database) (r : Reservation) (p : Payment) : Decidable (AloneOpen db r p) :=
  inferInstanceAs (Decidable (∀ c ∈ db.changes.rows, _))

def CreditWithin (db : Database) (r : Reservation) (p : Payment) : Prop :=
  -(Folio.summary db r).balanceMinor ≤ p.amountMinor - completedForPayment db r p.id

structure Unobstructed (s : CashDesk) (actor : Staff) (r : Reservation) (p : Payment) : Prop where
  reservation : s.books.reservation? p.reservationId = some r
  authorised : Authorised actor r.propertyId
  manual : p.origin = .manual
  clear : AloneOpen s.books r p ∨ CreditWithin s.books r p

end Meaning

section Runs

inductive Turn
  | request (reservationId paymentId : ℕ) (amountMinor : ℤ) (reason : String)
  | correct (actor : Staff) (paymentId : ℕ) (reason : String)
  | complete (requestId : ℕ) (reference : String) (actorId : Option ℕ)
  | fail (requestId : ℕ) (reason : String)
  | dispute (event : ProviderEvent) (remote : DisputeFacts)
  | elsewhere (result : CashDesk)

def quietly {α : Type} (x : DeskTx α) : DeskTx Unit := (fun _ => ()) <$> x

def Turn.run : Turn → DeskTx Unit
  | request i j amount reason => quietly (onBooks (RequestRefund.handle i j amount reason))
  | correct actor i reason => quietly (handle actor i reason)
  | complete i reference actor => quietly (onBooks (CompleteRefund.handle i reference actor))
  | fail i reason => quietly (onBooks (CompleteRefund.fail i reason))
  | dispute event remote => quietly (onBooks (RecordProviderDispute.handle event remote))
  | elsewhere result => set result

def concernsRefund (c : ReservationChange) : Bool :=
  c.type == .refundRequested || c.type == .refundCompleted

-- The rest of the system writes no refund change, and marks no manual payment as unapplied funds.
structure Untouched (db result : Database) : Prop where
  changes : ∀ c ∈ result.changes.rows, concernsRefund c = true → c ∈ db.changes.rows
  payments : ∀ p ∈ result.payments.rows, p.origin = .manual →
    p.metadata.unappliedDirectBookingFunds = false

def Turn.Honest (m : Turn) (s : CashDesk) : Prop :=
  match m with
  | elsewhere result => Untouched s.books result.books
  | _ => True

structure Opening (db : Database) : Prop where
  changes : ∀ c ∈ db.changes.rows, concernsRefund c = false
  payments : ∀ p ∈ db.payments.rows, p.origin = .manual →
    p.metadata.unappliedDirectBookingFunds = false

structure Regular (db : Database) : Prop where
  refunds : ∀ c ∈ db.changes.rows, concernsRefund c = true → isRequest c = true ∨ isCompletion c = true
  positive : ∀ c ∈ db.changes.rows, isRequest c = true → 0 < c.amountMinor
  payments : ∀ p ∈ db.payments.rows, p.origin = .manual →
    p.metadata.unappliedDirectBookingFunds = false

end Runs

variable {db db' u : Database} {s t : CashDesk} {r : Reservation} {p q : Payment}
variable {c : ReservationChange} {actor : Staff} {i j : ℕ} {amount : ℤ} {reason : String}

section Requests

theorem commits_resolveException {x : Unit} {propertyId : ℕ} :
    Commits (resolveException actor propertyId) s x t ↔ Authorised actor propertyId ∧ s = t := by
  unfold resolveException assert Authorised
  rw [commits_reject]
  refine and_congr_left fun _ => ?_
  cases actor.membership with
  | none => simp
  | some m => simp [and_assoc]

theorem commits_of_accepted (h : Accepted db i j amount r p) (hreason : trim reason ≠ "")
    (mk : ℕ → ReservationChange) (hmk : mk = request r p amount (trim reason)
      (decide (amount = availableOnPayment db r p)) db.clock) :
    Commits (RequestRefund.handle i j amount reason) db (mk db.changes.next)
      { db with changes := db.changes.insert mk (fun k => by rw [hmk]; rfl) } := by
  have hok : ¬ (p.reservationId ≠ r.id ∨ p.status ≠ .succeeded) := by simp [h.home, h.succeeded]
  have hle : ¬ min (availableOnPayment db r p) (availableCredit db r p) < amount :=
    not_lt.mpr (le_min h.available h.credited)
  subst hmk
  unfold RequestRefund.handle
  refine commits_bind.mpr ⟨r, db, commits_lockedReservation.mpr ⟨h.reservation, rfl⟩, ?_⟩
  refine commits_bind.mpr ⟨p, db, PaymentService.commits_lockedPayment.mpr ⟨h.payment, rfl⟩, ?_⟩
  refine commits_reject_bind.mpr ⟨hok, ?_⟩
  refine commits_reject_bind.mpr ⟨not_le.mpr h.positive, ?_⟩
  refine commits_reject_bind.mpr ⟨hreason, commits_get_bind.mpr ?_⟩
  refine commits_reject_bind.mpr ⟨hle, ?_⟩
  rw [commits_set_bind]
  exact commits_pure.mpr ⟨rfl, rfl⟩

theorem reason_of_commits (h : Commits (RequestRefund.handle i j amount reason) db c u) :
    trim reason ≠ "" := by
  unfold RequestRefund.handle at h
  obtain ⟨r, _, _, h⟩ := commits_bind.mp h
  obtain ⟨p, _, _, h⟩ := commits_bind.mp h
  obtain ⟨_, h⟩ := commits_reject_bind.mp h
  obtain ⟨_, h⟩ := commits_reject_bind.mp h
  exact (commits_reject_bind.mp h).1

theorem accepts_iff : (∃ c u, Commits (RequestRefund.handle i j amount reason) db c u) ↔
    (∃ r p, Accepted db i j amount r p) ∧ trim reason ≠ "" := by
  constructor
  · rintro ⟨c, u, h⟩
    obtain ⟨r, p, ha, _⟩ := RequestRefund.commits_handle h
    exact ⟨⟨r, p, ha⟩, reason_of_commits h⟩
  · rintro ⟨⟨r, p, h⟩, hreason⟩
    exact ⟨_, _, commits_of_accepted h hreason _ rfl⟩

theorem mem_acceptable : amount ∈ acceptable db i reason ↔
    (∃ r p, Accepted db p.reservationId i amount r p) ∧ trim reason ≠ "" := by
  constructor
  · rintro ⟨j, h⟩
    obtain ⟨⟨r, p, ha⟩, hreason⟩ := accepts_iff.mp h
    have hj : p.reservationId = j := ha.home.trans (Folio.reservation_id_eq ha.reservation)
    exact ⟨⟨r, p, hj ▸ ha⟩, hreason⟩
  · rintro ⟨⟨r, p, ha⟩, hreason⟩
    exact ⟨p.reservationId, accepts_iff.mpr ⟨⟨r, p, ha⟩, hreason⟩⟩

def best (db : Database) (r : Reservation) (p : Payment) : ℤ :=
  min (availableOnPayment db r p) (availableCredit db r p)

theorem isGreatest_best (h : Accepted db p.reservationId i amount r p) (hreason : trim reason ≠ "") :
    IsGreatest (acceptable db i reason) (best db r p) := by
  have hle : amount ≤ best db r p := le_min h.available h.credited
  constructor
  · refine mem_acceptable.mpr ⟨⟨r, p, ?_⟩, hreason⟩
    exact { h with
      positive := h.positive.trans_le hle
      available := min_le_left _ _
      credited := min_le_right _ _ }
  · intro a ha
    obtain ⟨⟨r', p', ha⟩, _⟩ := mem_acceptable.mp ha
    obtain rfl : p = p' := Option.some.inj (h.payment.symm.trans ha.payment)
    obtain rfl : r = r' := Option.some.inj (h.reservation.symm.trans ha.reservation)
    exact le_min ha.available ha.credited

-- The correction asks for what it computes, through the ordinary request.
theorem commits_handle : Commits (handle actor i reason) s c t ↔
    ∃ r p, s.books.payments.find? i = some p ∧ s.books.reservation? p.reservationId = some r ∧
      Authorised actor r.propertyId ∧ p.origin = .manual ∧ remaining s.books r p ≠ 0 ∧
      ∃ u, Commits (RequestRefund.handle r.id p.id (remaining s.books r p) reason) s.books c u ∧
        t = s.withBooks u := by
  simp only [handle, onBooks, commits_bind, commits_zoom, PaymentService.commits_lockedPayment,
    commits_lockedReservation, commits_resolveException, commits_reject, commits_get, not_not]
  constructor
  · rintro ⟨p, _, ⟨_, ⟨hp, rfl⟩, rfl⟩, r, _, ⟨_, ⟨hr, rfl⟩, rfl⟩, q, _, ⟨_, ⟨hq, rfl⟩, rfl⟩, _, _,
      ⟨hauth, rfl⟩, _, _, ⟨hmanual, rfl⟩, _, _, ⟨rfl, rfl⟩, _, _, ⟨hne, rfl⟩, u, hu, rfl⟩
    have hid : p.id = i := (Table.find?_eq_some.mp hp).2
    have hq : s.books.payments.find? p.id = some q := hq
    rw [hid] at hq
    obtain rfl : p = q := Option.some.inj (hp.symm.trans hq)
    exact ⟨r, p, hp, hr, hauth, hmanual, hne, u, hu, rfl⟩
  · rintro ⟨r, p, hp, hr, hauth, hmanual, hne, u, hu, rfl⟩
    have hid : p.id = i := (Table.find?_eq_some.mp hp).2
    exact ⟨p, s, ⟨s.books, ⟨hp, rfl⟩, rfl⟩, r, s, ⟨s.books, ⟨hr, rfl⟩, rfl⟩, p, s,
      ⟨s.books, ⟨hid ▸ hp, rfl⟩, rfl⟩, (), s, ⟨hauth, rfl⟩, (), s, ⟨hmanual, rfl⟩, s, s,
      ⟨rfl, rfl⟩, (), s, ⟨hne, rfl⟩, u, hu, rfl⟩

end Requests

section Figures

def openOn (db : Database) (r : Reservation) (paymentId : ℕ) : ℤ :=
  db.changes.total fun c =>
    if (c.reservationId = r.id ∧ pendingRequest db c = true) ∧ c.paymentId = some paymentId
    then c.amountMinor else 0

-- What a request that is still open on another payment of the reservation adds.
def heldElsewhere (db : Database) (r : Reservation) (paymentId : ℕ) (c : ReservationChange) : ℤ :=
  if (c.reservationId = r.id ∧ pendingRequest db c = true) ∧ c.paymentId ≠ some paymentId
  then c.amountMinor else 0

def openElsewhere (db : Database) (r : Reservation) (paymentId : ℕ) : ℤ :=
  db.changes.total (heldElsewhere db r paymentId)

theorem openRequests_split : openRequests db r = openOn db r i + openElsewhere db r i := by
  unfold openRequests openOn openElsewhere
  rw [← Table.total_add]
  refine Table.total_congr fun c _ => ?_
  unfold heldElsewhere
  by_cases hopen : c.reservationId = r.id ∧ pendingRequest db c = true
  · by_cases hpay : c.paymentId = some i
    · simp [hopen, hpay]
    · simp [hopen, hpay]
  · rw [if_neg (by simpa using hopen), if_neg (by tauto), if_neg (by tauto), add_zero]

theorem pending_positive (h : Regular db) (hc : c ∈ db.changes.rows)
    (hp : pendingRequest db c = true) : 0 < c.amountMinor := by
  simp only [pendingRequest, Bool.and_eq_true] at hp
  exact h.positive c hc hp.1

theorem heldElsewhere_nonneg (h : Regular db) :
    ∀ c ∈ db.changes.rows, 0 ≤ heldElsewhere db r i c := by
  intro c hc
  unfold heldElsewhere
  split_ifs with hif
  · exact (pending_positive h hc hif.1.2).le
  · exact le_rfl

theorem openElsewhere_nonneg (h : Regular db) : 0 ≤ openElsewhere db r i :=
  Table.total_nonneg (heldElsewhere_nonneg h)

theorem openElsewhere_eq_zero (h : Regular db) :
    openElsewhere db r p.id = 0 ↔ AloneOpen db r p := by
  constructor
  · intro hz c hc hr hpend
    by_contra hne
    have hle : heldElsewhere db r p.id c ≤ openElsewhere db r p.id :=
      Table.le_total hc (heldElsewhere_nonneg h)
    rw [hz, heldElsewhere, if_pos ⟨⟨hr, hpend⟩, hne⟩] at hle
    exact absurd (pending_positive h hc hpend) (not_lt.mpr hle)
  · intro ha
    apply Table.total_eq_zero
    intro c hc
    exact if_neg fun hif => hif.2 (ha c hc hif.1.1 hif.1.2)

-- What a request counts on a payment is what was given back and what is still asked for.
theorem paymentRefunds_eq (h : Regular db) :
    paymentRefunds db r i = completedForPayment db r i + openOn db r i := by
  unfold paymentRefunds completedForPayment openOn
  rw [← Table.total_add]
  refine Table.total_congr fun c hc => ?_
  by_cases hown : c.reservationId = r.id ∧ c.paymentId = some i
  · by_cases hcon : concernsRefund c = true
    · rcases h.refunds c hc hcon with hreq | hcomp
      · simp only [isRequest, Bool.and_eq_true, beq_iff_eq] at hreq
        simp [hown, refundFact, superseded, isCompletion, pendingRequest, isRequest, hreq]
      · simp only [isCompletion, Bool.and_eq_true, beq_iff_eq] at hcomp
        simp [hown, refundFact, superseded, isCompletion, pendingRequest, isRequest, hcomp]
    · simp only [concernsRefund, Bool.or_eq_true, beq_iff_eq, not_or] at hcon
      simp [refundFact, isCompletion, pendingRequest, isRequest, hcon]
  · simp only [Bool.and_eq_true, beq_iff_eq]
    rw [if_neg (by tauto), if_neg (by tauto), if_neg (by tauto), add_zero]

theorem remaining_eq_best_iff (h : Regular db) (hp : p ∈ db.payments.rows) (hm : p.origin = .manual)
    (hpos : 0 < best db r p) :
    remaining db r p = best db r p ↔ AloneOpen db r p ∨ CreditWithin db r p := by
  have hflag : p.metadata.unappliedDirectBookingFunds = false := h.payments p hp hm
  have hsplit : openRequests db r = openOn db r p.id + openElsewhere db r p.id := openRequests_split
  have hnn : 0 ≤ openElsewhere db r p.id := openElsewhere_nonneg h
  rw [← openElsewhere_eq_zero h]
  simp only [best, remaining, paymentRemaining, remainingCredit, availableOnPayment,
    availableCredit, hflag, paymentRefunds_eq h, CreditWithin] at hpos ⊢
  simp only [Bool.false_eq_true, if_false] at hpos ⊢
  omega

end Figures
section Steps

theorem regular_of_opening (h : Opening db) : Regular db where
  refunds c hc hcon := by simp [h.changes c hc] at hcon
  positive c hc hreq := by
    have hcon := h.changes c hc
    simp only [isRequest, Bool.and_eq_true] at hreq
    simp [concernsRefund, hreq.1] at hcon
  payments := h.payments

-- What a new change has to be for the refunds to stay regular.
def Fits (c : ReservationChange) : Prop :=
  concernsRefund c = true → isRequest c = true ∧ 0 < c.amountMinor ∨ isCompletion c = true

theorem regular_append (h : Regular db) (happ : Table.Appends db.changes u.changes c) (hc : Fits c)
    (hp : ∀ q ∈ u.payments.rows, ∃ p ∈ db.payments.rows,
      q.origin = p.origin ∧ q.metadata = p.metadata) : Regular u where
  refunds e he hcon := by
    rcases happ.mem.mp he with he | rfl
    · exact h.refunds e he hcon
    · exact (hc hcon).imp And.left id
  positive e he hreq := by
    rcases happ.mem.mp he with he | rfl
    · exact h.positive e he hreq
    · simp only [isRequest, Bool.and_eq_true, beq_iff_eq] at hreq
      have hcon : concernsRefund e = true := by simp [concernsRefund, hreq.1]
      rcases hc hcon with hpos | hcomp
      · exact hpos.2
      · simp [isCompletion, hreq.1] at hcomp
  payments q hq hm := by
    obtain ⟨p, hp, ho, hd⟩ := hp q hq
    rw [hd]
    exact h.payments p hp (ho ▸ hm)

theorem regular_same (h : Regular db) (hc : u.changes = db.changes)
    (hp : u.payments = db.payments) : Regular u where
  refunds := hc ▸ h.refunds
  positive := hc ▸ h.positive
  payments := hp ▸ h.payments

theorem regular_request (h : Regular db)
    (hc : Commits (RequestRefund.handle i j amount reason) db c u) : Regular u := by
  obtain ⟨r, p, ha, ⟨full, rfl⟩, happ, hu⟩ := RequestRefund.commits_handle hc
  have hpay : u.payments = db.payments := by rw [hu]
  apply regular_append h happ
  · exact fun _ => Or.inl ⟨rfl, ha.positive⟩
  · exact fun q hq => ⟨q, hpay ▸ hq, rfl, rfl⟩

theorem regular_complete {reference : String} {actorId : Option ℕ} (h : Regular db)
    (hc : Commits (CompleteRefund.handle i reference actorId) db c u) : Regular u := by
  obtain ⟨g, _, _, ⟨_, rfl⟩ | ⟨_, hdone⟩⟩ := CompleteRefund.commits_handle hc
  · exact h
  · apply regular_append h hdone.appended
    · obtain ⟨reference, rfl⟩ := hdone.change
      exact fun _ => Or.inr rfl
    · intro q hq
      rcases hdone.payment with ⟨_, hup⟩ | ⟨_, hpay⟩
      · rcases hup.mem.mp hq with ⟨hq, _⟩ | ⟨p, hp, _, rfl⟩
        · exact ⟨q, hq, rfl, rfl⟩
        · exact ⟨p, hp, rfl, rfl⟩
      · exact ⟨q, hpay ▸ hq, rfl, rfl⟩

theorem regular_fail (h : Regular db) (hc : Commits (CompleteRefund.fail i reason) db c u) :
    Regular u := by
  obtain ⟨g, _, _, _, ⟨reason, attempt, rfl⟩, happ, hu⟩ := CompleteRefund.commits_fail hc
  have hpay : u.payments = db.payments := by rw [hu]
  apply regular_append h happ
  · intro hcon
    cases hcon
  · exact fun q hq => ⟨q, hpay ▸ hq, rfl, rfl⟩

open RecordProviderDispute in
theorem regular_dispute {event : ProviderEvent} {remote : DisputeFacts} {d : ProviderDispute}
    (h : Regular db) (hc : Commits (RecordProviderDispute.handle event remote) db d u) :
    Regular u := by
  obtain ⟨g, e, n, _, v, hd, _⟩ := RecordProviderDispute.commits_handle hc
  have hv : Regular v := regular_same h (by rw [hd.frame]) (by rw [hd.frame])
  cases hd.impact with
  | kept _ _ _ hu => exact hu ▸ hv
  | suspended _ hm => exact regular_same hv (by rw [hm.frame]) (by rw [hm.frame])
  | emptied _ _ _ hm => exact regular_same hv (by rw [hm.frame]) (by rw [hm.frame])
  | debited _ _ _ _ _ hm => exact regular_same hv (by rw [hm.frame]) (by rw [hm.frame])
  | credited _ _ _ _ _ _ _ hm => exact regular_same hv (by rw [hm.frame]) (by rw [hm.frame])

theorem regular_untouched (h : Regular db) (hu : Untouched db u) : Regular u where
  refunds e he hcon := h.refunds e (hu.changes e he hcon) hcon
  positive e he hreq := by
    have hcon : concernsRefund e = true := by
      simp only [isRequest, Bool.and_eq_true] at hreq
      simp [concernsRefund, hreq.1]
    exact h.positive e (hu.changes e he hcon) hreq
  payments := hu.payments

theorem commits_quietly {α : Type} {x : DeskTx α} {v : Unit} (h : Commits (quietly x) s v t) :
    ∃ a, Commits x s a t := by
  obtain ⟨a, ha, _⟩ := commits_map.mp h
  exact ⟨a, ha⟩

theorem commits_books {α : Type} {x : Tx α} {v : Unit}
    (h : Commits (quietly (onBooks x)) s v t) : ∃ a, Commits x s.books a t.books := by
  obtain ⟨a, h⟩ := commits_quietly h
  obtain ⟨u, hu, rfl⟩ := commits_zoom.mp h
  exact ⟨a, hu⟩

theorem regular_step {m : Turn} (h : Regular s.books) (ha : m.Honest s)
    (hc : Commits m.run s () t) : Regular t.books := by
  cases m with
  | request i j amount reason =>
    obtain ⟨_, hc⟩ := commits_books hc
    exact regular_request h hc
  | correct actor i reason =>
    obtain ⟨_, hc⟩ := commits_quietly hc
    obtain ⟨r, p, _, _, _, _, _, u, hu, rfl⟩ := commits_handle.mp hc
    exact regular_request h hu
  | complete i reference actorId =>
    obtain ⟨_, hc⟩ := commits_books hc
    exact regular_complete h hc
  | fail i reason =>
    obtain ⟨_, hc⟩ := commits_books hc
    exact regular_fail h hc
  | dispute event remote =>
    obtain ⟨_, hc⟩ := commits_books hc
    exact regular_dispute h hc
  | elsewhere result =>
    obtain rfl : result = t := by simpa [Turn.run] using hc
    exact regular_untouched h ha

theorem regular_of_reaches (hs : Opening s.books) (h : Reaches Turn.run Turn.Honest s t) :
    Regular t.books :=
  h.invariant (I := fun s => Regular s.books) (regular_of_opening hs)
    fun _ _ _ hs ha hc => regular_step hs ha hc

end Steps

section Agreement

theorem nothing_of_empty (he : acceptable s.books i reason = ∅) :
    ¬ Commits (handle actor i reason) s c t := by
  intro h
  obtain ⟨r, p, hp, _, _, _, _, u, hu, _⟩ := commits_handle.mp h
  have hid : p.id = i := (Table.find?_eq_some.mp hp).2
  have hmem : remaining s.books r p ∈ acceptable s.books i reason := ⟨r.id, c, u, hid ▸ hu⟩
  rw [he] at hmem
  exact hmem

theorem corrected_amount (hc : Commits (handle actor i reason) s c t)
    (hp : s.books.payments.find? i = some p)
    (hr : s.books.reservation? p.reservationId = some r) :
    c.amountMinor = remaining s.books r p := by
  obtain ⟨r', p', hp', hr', _, _, _, u, hu, _⟩ := commits_handle.mp hc
  obtain rfl : p = p' := Option.some.inj (hp.symm.trans hp')
  obtain rfl : r = r' := Option.some.inj (hr.symm.trans hr')
  obtain ⟨_, _, _, ⟨full, rfl⟩, _⟩ := RequestRefund.commits_handle hu
  rfl

theorem requestsLargest_of_accepted (h : Regular s.books)
    (ha : Accepted s.books p.reservationId i amount r p) (hreason : trim reason ≠ "") :
    RequestsLargest s actor i reason ↔ Unobstructed s actor r p := by
  have hgreat : IsGreatest (acceptable s.books i reason) (best s.books r p) :=
    isGreatest_best ha hreason
  have hpos : 0 < best s.books r p := ha.positive.trans_le (le_min ha.available ha.credited)
  obtain ⟨hmem, hid⟩ := Table.find?_eq_some.mp ha.payment
  have hid : p.id = i := hid
  constructor
  · intro hl
    obtain ⟨c, t, hc, _, hamount⟩ := hl.largest _ hgreat
    rw [corrected_amount hc ha.payment ha.reservation] at hamount
    obtain ⟨r', p', hp, hr, hauth, hmanual, _⟩ := commits_handle.mp hc
    obtain rfl : p = p' := Option.some.inj (ha.payment.symm.trans hp)
    obtain rfl : r = r' := Option.some.inj (ha.reservation.symm.trans hr)
    exact ⟨hr, hauth, hmanual, (remaining_eq_best_iff h hmem hmanual hpos).mp hamount⟩
  · intro hu
    have heq : remaining s.books r p = best s.books r p :=
      (remaining_eq_best_iff h hmem hu.manual hpos).mpr hu.clear
    have hr : r.id = p.reservationId := Folio.reservation_id_eq hu.reservation
    have hbest : Accepted s.books r.id p.id (remaining s.books r p) r p := by
      rw [heq, hr, hid]
      exact { ha with
        positive := hpos
        available := min_le_left _ _
        credited := min_le_right _ _ }
    refine ⟨fun a hgreat' => ?_, fun he => absurd hgreat.1 (he ▸ Set.notMem_empty _)⟩
    have hne : remaining s.books r p ≠ 0 := heq ▸ hpos.ne'
    refine ⟨_, _, commits_handle.mpr ⟨r, p, ha.payment, hu.reservation, hu.authorised, hu.manual,
      hne, _, commits_of_accepted hbest hreason _ rfl, rfl⟩, congrArg some hid, ?_⟩
    exact heq.trans (hgreat.unique hgreat')

theorem requestsLargest_of_empty (he : acceptable s.books i reason = ∅) :
    RequestsLargest s actor i reason where
  largest a hgreat := absurd hgreat.1 (he ▸ Set.notMem_empty a)
  nothing _ _ _ := nothing_of_empty he

theorem corrections_request_largest_iff (hs : Opening s.books)
    (h : Reaches Turn.run Turn.Honest s t) :
    RequestsLargest t actor i reason ↔ acceptable t.books i reason = ∅ ∨
      ∃ r p, t.books.payments.find? i = some p ∧ Unobstructed t actor r p := by
  have hreg : Regular t.books := regular_of_reaches hs h
  constructor
  · intro hl
    rcases Set.eq_empty_or_nonempty (acceptable t.books i reason) with he | ⟨a, ha⟩
    · exact Or.inl he
    · obtain ⟨⟨r, p, ha⟩, hreason⟩ := mem_acceptable.mp ha
      exact Or.inr ⟨r, p, ha.payment, (requestsLargest_of_accepted hreg ha hreason).mp hl⟩
  · rintro (he | ⟨r, p, hp, hu⟩)
    · exact requestsLargest_of_empty he
    · rcases Set.eq_empty_or_nonempty (acceptable t.books i reason) with he | ⟨a, ha⟩
      · exact requestsLargest_of_empty he
      · obtain ⟨⟨r', p', ha⟩, hreason⟩ := mem_acceptable.mp ha
        obtain rfl : p = p' := Option.some.inj (hp.symm.trans ha.payment)
        obtain rfl : r = r' := Option.some.inj (hu.reservation.symm.trans ha.reservation)
        exact (requestsLargest_of_accepted hreg ha hreason).mpr hu

end Agreement

section Scenario

def shortened (i : ℕ) : Reservation :=
  { LedgerRuns.stay i with subtotalMinor := 2000, totalMinor := 2000 }

def transfer (i : ℕ) : Payment where
  id := i
  reservationId := 0
  status := .succeeded
  method := "bank_transfer"
  channel := .bankTransfer
  entryMode := .staffRecorded
  origin := .manual
  currency := "USD"
  amountMinor := 5000
  metadata := {}

def posted (i : ℕ) : FolioLine :=
  Folio.line (shortened 0) (Folio.paymentDraft (transfer i) none) 0 i

-- Each guest transferred half of the stay before it was shortened.
def halves : CashDesk where
  books :=
    { LedgerRuns.opening with
      reservations := Table.empty.insert shortened
      payments := (Table.empty.insert transfer).insert transfer
      folioLines := (Table.empty.insert posted).insert posted }

def asked : CashDesk :=
  halves.withBooks { halves.books with
    changes := halves.books.changes.insert
      (RequestRefund.request (shortened 0) (transfer 0) 3000 "Left early" false 0) }

def accountant : Staff where
  id := 7
  membership := some { userId := 7, role := .finance, isActive := true }

theorem halves_opening : Opening halves.books where
  changes := by simp [halves, LedgerRuns.opening, Table.empty]
  payments := by decide

theorem asked_reached : Reaches Turn.run Turn.Honest halves asked :=
  Reaches.single (i := .request 0 0 3000 "Left early") trivial rfl

theorem accountant_authorised : Authorised accountant 0 :=
  ⟨_, rfl, rfl, rfl, by decide, by decide⟩

theorem half_accepted (i : ℕ) (hi : asked.books.payments.find? i = some (transfer i))
    (hle : 2000 ≤ best asked.books (shortened 0) (transfer i)) :
    Accepted asked.books (transfer i).reservationId i 2000 (shortened 0) (transfer i) where
  reservation := rfl
  payment := hi
  home := rfl
  succeeded := rfl
  positive := by decide
  available := hle.trans (min_le_left _ _)
  credited := hle.trans (min_le_right _ _)

theorem own_request_is_counted_once :
    RequestsLargest asked accountant 0 "Left early" :=
  (corrections_request_largest_iff halves_opening asked_reached).mpr (Or.inr
    ⟨shortened 0, transfer 0, rfl, rfl, accountant_authorised, rfl, Or.inl (by decide)⟩)

-- The request that is open on the first transfer is taken off the second one as well.
theorem other_request_is_taken_off : Opening halves.books ∧
    Reaches Turn.run Turn.Honest halves asked ∧
    IsGreatest (acceptable asked.books 1 "Left early") 5000 ∧
    (∃ c t, Commits (handle accountant 1 "Left early") asked c t ∧ c.amountMinor = 2000) ∧
    ¬ RequestsLargest asked accountant 1 "Left early" := by
  have hacc : Accepted asked.books (transfer 1).reservationId 1 2000 (shortened 0) (transfer 1) :=
    half_accepted 1 rfl (by decide)
  have hbest : best asked.books (shortened 0) (transfer 1) = 5000 := by decide
  have hgreat : IsGreatest (acceptable asked.books 1 "Left early") 5000 :=
    hbest ▸ isGreatest_best hacc (by decide)
  have hremaining : remaining asked.books (shortened 0) (transfer 1) = 2000 := by decide
  refine ⟨halves_opening, asked_reached, hgreat, ⟨_, _, rfl, rfl⟩, fun hl => ?_⟩
  obtain ⟨c, t, hc, _, hamount⟩ := hl.largest 5000 hgreat
  have hasked : c.amountMinor = remaining asked.books (shortened 0) (transfer 1) :=
    corrected_amount hc rfl rfl
  omega

end Scenario
end CorrectRemainingReversibleAmount
