import LodgeOps.Ledger.Payments

namespace RequestRefund
open Schema Transaction

def completion? (db : Database) (requestId : ℕ) : Option ReservationChange :=
  db.changes.first? fun c => c.parentChangeId == some requestId && c.type == .refundCompleted

def isRequest (c : ReservationChange) : Bool := c.type == .refundRequested && c.status == .requested

def isCompletion (c : ReservationChange) : Bool :=
  c.type == .refundCompleted && c.status == .completed

def pendingRequest (db : Database) (c : ReservationChange) : Bool :=
  isRequest c && (completion? db c.id).isNone

def refundFact (c : ReservationChange) : Bool :=
  (c.type == .refundRequested || c.type == .refundCompleted) &&
    (c.status == .requested || c.status == .completed)

def superseded (db : Database) (c : ReservationChange) : Bool :=
  c.type == .refundRequested && (completion? db c.id).isSome

def paymentRefunds (db : Database) (r : Reservation) (paymentId : ℕ) : ℤ :=
  db.changes.total fun c =>
    if c.reservationId == r.id && refundFact c && c.paymentId == some paymentId &&
        !superseded db c then c.amountMinor else 0

def openRequests (db : Database) (r : Reservation) : ℤ :=
  db.changes.total fun c =>
    if c.reservationId == r.id && pendingRequest db c then c.amountMinor else 0

def availableOnPayment (db : Database) (r : Reservation) (p : Payment) : ℤ :=
  max 0 (p.amountMinor - paymentRefunds db r p.id)

def availableCredit (db : Database) (r : Reservation) (p : Payment) : ℤ :=
  let credit := max 0 (-(Folio.summary db r).balanceMinor - openRequests db r)
  if p.metadata.unappliedDirectBookingFunds then max credit (availableOnPayment db r p)
  else credit

def request (r : Reservation) (p : Payment) (amountMinor : ℤ) (reason : String) (full : Bool)
    (now : ℤ) (i : ℕ) : ReservationChange where
  id := i
  reservationId := r.id
  type := .refundRequested
  status := .requested
  currency := r.currency
  amountMinor := amountMinor
  paymentId := some p.id
  reason := some reason
  scope := some (if full then "full" else "partial")
  occurredAt := now

def handle (reservationId paymentId : ℕ) (amountMinor : ℤ) (reason : String) :
    Tx ReservationChange := do
  let r ← lockedReservation reservationId
  let p ← PaymentService.lockedPayment paymentId
  reject (p.reservationId ≠ r.id ∨ p.status ≠ .succeeded) (.validation "payment_id"
    "Refunds require a reconciled payment on this reservation.")
  reject (amountMinor ≤ 0)
    (.validation "amount_minor" "The refund amount must be greater than zero.")
  reject (trim reason = "") (.validation "reason" "A refund reason is required.")
  let db ← get
  reject (min (availableOnPayment db r p) (availableCredit db r p) < amountMinor)
    (.validation "amount_minor"
      "The requested refund exceeds the payment or guest credit available.")
  let full := decide (amountMinor = availableOnPayment db r p)
  set { db with
    changes := db.changes.insert (request r p amountMinor (trim reason) full db.clock) }
  pure (request r p amountMinor (trim reason) full db.clock db.changes.next)

structure Accepted (db : Database) (reservationId paymentId : ℕ) (amountMinor : ℤ)
    (r : Reservation) (p : Payment) : Prop where
  reservation : db.reservation? reservationId = some r
  payment : db.payments.find? paymentId = some p
  home : p.reservationId = r.id
  succeeded : p.status = .succeeded
  positive : 0 < amountMinor
  available : amountMinor ≤ availableOnPayment db r p
  credited : amountMinor ≤ availableCredit db r p

theorem commits_handle {db db' : Database} {i j : ℕ} {amount : ℤ} {reason : String}
    {c : ReservationChange} (h : Commits (handle i j amount reason) db c db') :
    ∃ r p, Accepted db i j amount r p ∧ (∃ full, c = request r p amount (trim reason) full db.clock
      db.changes.next) ∧ Table.Appends db.changes db'.changes c ∧
      db' = { db with changes := db'.changes } := by
  unfold handle at h
  obtain ⟨r, _, hstay, h⟩ := commits_bind.mp h
  obtain ⟨hr, rfl⟩ := commits_lockedReservation.mp hstay
  obtain ⟨p, _, hlock, h⟩ := commits_bind.mp h
  obtain ⟨hp, rfl⟩ := PaymentService.commits_lockedPayment.mp hlock
  obtain ⟨hok, h⟩ := commits_reject_bind.mp h
  obtain ⟨hpos, h⟩ := commits_reject_bind.mp h
  obtain ⟨_, h⟩ := commits_reject_bind.mp h
  obtain ⟨hle, h⟩ := commits_reject_bind.mp (commits_get_bind.mp h)
  rw [commits_set_bind] at h
  obtain ⟨rfl, rfl⟩ := commits_pure.mp h
  rw [not_or, not_not, not_not] at hok
  rw [not_lt, le_min_iff] at hle
  exact ⟨r, p, ⟨hr, hp, hok.1, hok.2, not_le.mp hpos, hle.1, hle.2⟩, ⟨_, rfl⟩,
    Table.appends_insert, rfl⟩

end RequestRefund

namespace CompleteRefund
open Schema Transaction RequestRefund

structure RequestGraph where
  reservation : Reservation
  payment : Payment
  request : ReservationChange

def lockRequestGraph (requestId : ℕ) : Tx RequestGraph := do
  let db ← get
  let request ← orFail (db.changes.find? requestId) .modelNotFound
  let reservation ← lockedReservation request.reservationId
  let payment ← orFail (request.paymentId.bind db.payments.find?) .modelNotFound
  pure { reservation, payment, request }

def assertRequest (request : ReservationChange) : Except Failure Unit :=
  refuse (isRequest request = false)
    (.validation "refund" "The selected change is not a refund request.")

def completedForPayment (db : Database) (r : Reservation) (paymentId : ℕ) : ℤ :=
  db.changes.total fun c =>
    if c.reservationId == r.id && isCompletion c && c.paymentId == some paymentId
    then c.amountMinor else 0

def lostChargebacks (db : Database) (paymentId : ℕ) : ℤ :=
  db.disputes.total fun d =>
    if d.paymentId == paymentId && d.state == .lost && d.impactState == .applied
    then d.amountMinor else 0

def exceeds (db : Database) (g : RequestGraph) : Bool :=
  decide (max 0 (g.payment.amountMinor - lostChargebacks db g.payment.id) <
    completedForPayment db g.reservation g.payment.id + g.request.amountMinor)

def completion (g : RequestGraph) (reference : String) (now : ℤ) (i : ℕ) : ReservationChange where
  id := i
  reservationId := g.reservation.id
  parentChangeId := some g.request.id
  type := .refundCompleted
  status := .completed
  currency := g.reservation.currency
  amountMinor := g.request.amountMinor
  reference := some reference
  paymentId := some g.payment.id
  reason := g.request.reason
  scope := g.request.scope
  occurredAt := now

def exhausted (p : Payment) : Payment := { p with status := .refunded }

def settlePayment (g : RequestGraph) (completedBefore : ℤ) : Tx Unit :=
  if completedBefore + g.request.amountMinor = g.payment.amountMinor then
    modify fun db => { db with
      payments := db.payments.update g.payment.id exhausted
      deposits := PaymentService.refundDeposits g.payment.id db.deposits }
  else pure ()

def noLongerRefundable : Failure :=
  .validation "payment_id" "The source payment is no longer refundable."

def wouldExceed : Failure :=
  .validation "amount_minor" "Completing this refund would exceed the source payment."

def complete (g : RequestGraph) (reference : String) (actorId : Option ℕ) :
    Tx ReservationChange := do
  reject (reference = "")
    (.validation "reference" "An internal or provider refund reference is required.")
  reject (g.payment.reservationId ≠ g.reservation.id ∨ g.payment.status ≠ .succeeded)
    noLongerRefundable
  let db ← get
  reject (exceeds db g = true) wouldExceed
  set { db with changes := db.changes.insert (completion g reference db.clock) }
  let completed := completion g reference db.clock db.changes.next
  let _ ← Folio.postRefund g.payment completed actorId
  settlePayment g (completedForPayment db g.reservation g.payment.id)
  pure completed

def handle (requestId : ℕ) (reference : String) (actorId : Option ℕ) : Tx ReservationChange := do
  let g ← lockRequestGraph requestId
  check fun _ => assertRequest g.request
  let db ← get
  match completion? db g.request.id with
  | some existing => pure existing
  | none => complete g (trim reference) actorId

def failedBefore (db : Database) (requestId : ℕ) : ℕ :=
  (db.changes.select fun c => c.parentChangeId == some requestId && c.type == .refundFailed).length

def failure (g : RequestGraph) (reason : String) (attempt : ℕ) (now : ℤ) (i : ℕ) :
    ReservationChange where
  id := i
  reservationId := g.reservation.id
  parentChangeId := some g.request.id
  type := .refundFailed
  status := .failed
  currency := g.reservation.currency
  amountMinor := g.request.amountMinor
  paymentId := g.request.paymentId
  reason := some reason
  attempt := some attempt
  occurredAt := now

def fail (requestId : ℕ) (reason : String) : Tx ReservationChange := do
  let g ← lockRequestGraph requestId
  check fun _ => assertRequest g.request
  let db ← get
  reject ((completion? db g.request.id).isSome = true)
    (.validation "refund" "A completed refund cannot be marked failed.")
  reject (trim reason = "") (.validation "reason" "A failure reason is required.")
  let attempt := failedBefore db g.request.id + 1
  set { db with changes := db.changes.insert (failure g (trim reason) attempt db.clock) }
  pure (failure g (trim reason) attempt db.clock db.changes.next)

section Commits
variable {db db' : Database} {i : ℕ} {g : RequestGraph} {c : ReservationChange}
variable {reference reason : String} {actor : Option ℕ}

structure Graphed (db : Database) (i : ℕ) (g : RequestGraph) : Prop where
  request : db.changes.find? i = some g.request
  reservation : db.reservation? g.request.reservationId = some g.reservation
  payment : ∃ j, g.request.paymentId = some j ∧ db.payments.find? j = some g.payment

theorem commits_lockRequestGraph :
    Commits (lockRequestGraph i) db g db' ↔ Graphed db i g ∧ db = db' := by
  simp only [lockRequestGraph, commits_bind, commits_get, commits_orFail,
    commits_lockedReservation, commits_pure]
  constructor
  · rintro ⟨_, _, ⟨rfl, rfl⟩, q, _, ⟨hq, rfl⟩, r, _, ⟨hr, rfl⟩, p, _, ⟨hp, rfl⟩, rfl, rfl⟩
    exact ⟨⟨hq, hr, Option.bind_eq_some_iff.mp hp⟩, rfl⟩
  · rintro ⟨h, rfl⟩
    exact ⟨db, db, ⟨rfl, rfl⟩, g.request, db, ⟨h.request, rfl⟩, g.reservation, db,
      ⟨h.reservation, rfl⟩, g.payment, db, ⟨Option.bind_eq_some_iff.mpr h.payment, rfl⟩, rfl, rfl⟩

theorem Graphed.payment_id (h : Graphed db i g) : g.request.paymentId = some g.payment.id := by
  obtain ⟨j, hj, hp⟩ := h.payment
  have hid : g.payment.id = j := (Table.find?_eq_some.mp hp).2
  rw [hj, hid]

theorem Graphed.payment_mem (h : Graphed db i g) : g.payment ∈ db.payments.rows := by
  obtain ⟨j, _, hp⟩ := h.payment
  exact (Table.find?_eq_some.mp hp).1

-- What a completion writes: the change, its folio line, and the payment once it is used up.
structure Completed (db db' : Database) (g : RequestGraph) (actor : Option ℕ)
    (c : ReservationChange) : Prop where
  home : g.payment.reservationId = g.reservation.id
  succeeded : g.payment.status = .succeeded
  within : exceeds db g = false
  change : ∃ reference, c = completion g reference db.clock db.changes.next
  appended : Table.Appends db.changes db'.changes c
  line : ∃ t l, t = { db with changes := db'.changes } ∧
    Commits (Folio.postRefund g.payment c actor) t l { t with folioLines := db'.folioLines }
  payment : (completedForPayment db g.reservation g.payment.id + g.request.amountMinor =
        g.payment.amountMinor ∧
      Table.Updates db.payments db'.payments g.payment.id exhausted) ∨
    (completedForPayment db g.reservation g.payment.id + g.request.amountMinor ≠
        g.payment.amountMinor ∧ db'.payments = db.payments)
  frame : db' = { db with
    changes := db'.changes
    folioLines := db'.folioLines
    payments := db'.payments
    deposits := db'.deposits }

theorem commits_complete (h : Commits (complete g reference actor) db c db') :
    Completed db db' g actor c := by
  unfold complete at h
  obtain ⟨_, h⟩ := commits_reject_bind.mp h
  obtain ⟨hok, h⟩ := commits_reject_bind.mp h
  obtain ⟨hle, h⟩ := commits_reject_bind.mp (commits_get_bind.mp h)
  obtain ⟨_, t, hset, h⟩ := commits_bind.mp h
  have ht := commits_set.mp hset
  obtain ⟨l, u, hpost, h⟩ := commits_bind.mp h
  obtain ⟨_, v, hv, h⟩ := commits_bind.mp h
  obtain ⟨rfl, rfl⟩ := commits_pure.mp h
  simp only [settlePayment, commits_ite, commits_modify, commits_pure] at hv
  rw [not_or, not_not, not_not] at hok
  have hup : u = { t with folioLines := u.folioLines } := by
    rcases Folio.commits_postRefund hpost with ⟨_, rfl⟩ | ⟨_, _, _, _, rfl⟩
    · rfl
    · rfl
  have hpay : u.payments = db.payments := by rw [hup, ← ht]
  have hframe : v = { u with payments := v.payments, deposits := v.deposits } := by
    rcases hv with ⟨_, rfl⟩ | ⟨_, _, rfl⟩
    · rfl
    · rfl
  have hchanges : v.changes = t.changes := by rw [hframe, hup]
  have hlines : v.folioLines = u.folioLines := by rw [hframe]
  refine ⟨hok.1, hok.2, by simpa using hle, ⟨_, rfl⟩, ?_, ⟨t, l, ?_, ?_⟩, ?_, ?_⟩
  · rw [hchanges, ← ht]
    exact Table.appends_insert
  · rw [hchanges, ← ht]
  · rwa [hlines, ← hup]
  · rcases hv with ⟨he, rfl⟩ | ⟨he, _, rfl⟩
    · exact Or.inl ⟨he, hpay ▸ Table.updates_update⟩
    · exact Or.inr ⟨he, hpay⟩
  · rw [hframe, hup, ← ht]

theorem commits_handle (h : Commits (handle i reference actor) db c db') :
    ∃ g, Graphed db i g ∧ isRequest g.request = true ∧
      ((completion? db g.request.id = some c ∧ db' = db) ∨
        (completion? db g.request.id = none ∧ Completed db db' g actor c)) := by
  simp only [handle, assertRequest, commits_bind, commits_lockRequestGraph, commits_check,
    refuse_eq_ok, commits_get] at h
  obtain ⟨g, _, ⟨hg, rfl⟩, _, _, ⟨hreq, rfl⟩, _, _, ⟨rfl, rfl⟩, h⟩ := h
  refine ⟨g, hg, by simpa using hreq, ?_⟩
  cases hx : completion? db g.request.id with
  | some existing =>
    simp only [hx, commits_pure] at h
    exact Or.inl ⟨by rw [h.1], h.2.symm⟩
  | none =>
    simp only [hx] at h
    exact Or.inr ⟨rfl, commits_complete h⟩

theorem commits_fail (h : Commits (fail i reason) db c db') :
    ∃ g, Graphed db i g ∧ isRequest g.request = true ∧ completion? db g.request.id = none ∧
      (∃ reason attempt, c = failure g reason attempt db.clock db.changes.next) ∧
      Table.Appends db.changes db'.changes c ∧ db' = { db with changes := db'.changes } := by
  unfold fail at h
  obtain ⟨g, _, hlock, h⟩ := commits_bind.mp h
  obtain ⟨hg, rfl⟩ := commits_lockRequestGraph.mp hlock
  obtain ⟨_, hreq, h⟩ := commits_check_bind.mp h
  rw [assertRequest, refuse_eq_ok] at hreq
  obtain ⟨hn, h⟩ := commits_reject_bind.mp (commits_get_bind.mp h)
  obtain ⟨_, h⟩ := commits_reject_bind.mp h
  rw [commits_set_bind] at h
  obtain ⟨rfl, rfl⟩ := commits_pure.mp h
  exact ⟨g, hg, by simpa using hreq, by simpa using hn, ⟨_, _, rfl⟩, Table.appends_insert, rfl⟩

end Commits
end CompleteRefund
