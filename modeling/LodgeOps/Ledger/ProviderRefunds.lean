import LodgeOps.Ledger.Outflow

namespace ExecuteProviderRefund
open Schema Transaction RequestRefund CompleteRefund

def refundedAttempt? (db : Database) (p : Payment) (provider : Option String)
    (environment : Option Environment) (reference : Option String) : Option PaymentAttempt :=
  match p.metadata.paymentAttemptId with
  | some i => db.paymentAttempts.find? i
  | none => db.paymentAttempts.first? fun a =>
      some a.provider == provider && some a.environment == environment &&
        a.providerPaymentId == reference

def recordedRefund? (db : Database) (requestId : ℕ) : Option ProviderRefund :=
  db.providerRefunds.first? fun x => x.reservationChangeId == requestId

def chargeAmount (p : Payment) (a : PaymentAttempt) (amountMinor : ℤ) : Except Failure ℤ :=
  if p.metadata.unappliedDirectBookingFunds then
    .ok (p.metadata.actualChargeAmountMinor.getD a.chargeAmountMinor)
  else if p.currency = a.chargeCurrency then .ok amountMinor
  else if a.sourceAmountMinor = 0 then
    .error (.runtime "The divisor of a charge conversion must not be zero.")
  else .ok (PaymentService.halfUp (amountMinor * a.chargeAmountMinor) a.sourceAmountMinor)

def chargeCurrency (p : Payment) (a : PaymentAttempt) : String :=
  if p.metadata.unappliedDirectBookingFunds then
    p.metadata.actualChargeCurrency.getD a.chargeCurrency
  else a.chargeCurrency

def execution (g : RequestGraph) (a : PaymentAttempt) (account reference : String) (charge : ℤ)
    (i : ℕ) : ProviderRefund where
  id := i
  paymentId := g.payment.id
  reservationChangeId := g.request.id
  provider := a.provider
  environment := a.environment
  providerAccount := account
  sourceAmountMinor := g.request.amountMinor
  sourceCurrency := g.payment.currency
  chargeAmountMinor := charge
  chargeCurrency := chargeCurrency g.payment a
  idempotencyKey := i
  providerPaymentId := reference
  state := .requested

def missing (column : String) : Failure := .runtime ("The column " ++ column ++ " is required.")

def prepare (requestId : ℕ) : Tx ProviderRefund := do
  let g ← lockRequestGraph requestId
  reject (g.payment.origin ≠ .provider ∨ isRequest g.request = false) (.commercialWorkflow
    "Provider execution requires an open refund request for a provider-origin payment.")
  let db ← get
  let attempt ← orFail (refundedAttempt? db g.payment g.payment.provider g.payment.environment
    g.payment.providerReference) .modelNotFound
  match recordedRefund? db g.request.id with
  | some existing => pure existing
  | none => do
    let charge ← check fun _ => chargeAmount g.payment attempt g.request.amountMinor
    let account ← orFail g.payment.providerAccount (missing "provider_account")
    let reference ← orFail g.payment.providerReference (missing "provider_payment_id")
    set { db with
      providerRefunds := db.providerRefunds.insert (execution g attempt account reference charge) }
    pure (execution g attempt account reference charge db.providerRefunds.next)

def settled (db : Database) (x : ProviderRefund) : Bool :=
  x.state == .succeeded && (completion? db x.reservationChangeId).isSome

def saveRefund (i : ℕ) (f : ProviderRefund → ProviderRefund)
    (hf : Keeps f := by intro x; rfl) : Tx Unit :=
  modify fun db => { db with providerRefunds := db.providerRefunds.update i f hf }

-- Only the columns that differ from the held copy are written.
def sent (held x : ProviderRefund) : ProviderRefund :=
  { x with
    state := if held.state = .processing then x.state else .processing
    attemptCount := held.attemptCount + 1 }

def start (held : ProviderRefund) : Tx ProviderRefund := do
  let db ← get
  let payment ← orFail (db.payments.find? held.paymentId) .modelNotFound
  let _ ← orFail (refundedAttempt? db payment (some held.provider) (some held.environment)
    (some held.providerPaymentId)) .modelNotFound
  saveRefund held.id (sent held)
  pure { held with state := .processing, attemptCount := held.attemptCount + 1 }

def paidOut (status : String) : Bool :=
  status == "approved" || status == "success" || status == "succeeded"

def mismatched (message : String) (x : ProviderRefund) : ProviderRefund :=
  { x with state := .mismatched, lastError := some message }

def identified (held : ProviderRefund) (remoteId : String) (x : ProviderRefund) : ProviderRefund :=
  { x with
    providerRefundId := some remoteId
    lastError := if held.lastError = none then x.lastError else none }

-- The remote refund to recover next, unless the answer does not match.
def answered (held : ProviderRefund) (remote : RemoteRefund) : Tx (Option String) :=
  if paidOut remote.status = false ∨ remote.amountMinor ≠ held.chargeAmountMinor then do
    saveRefund held.id (mismatched "Provider refund status or amount mismatch.")
    pure none
  else do
    saveRefund held.id (identified held remote.id)
    pure (some remote.id)

def failing (message : String) (x : ProviderRefund) : ProviderRefund :=
  { x with lastError := some message }

section Commits
variable {db t : Database} {x held : ProviderRefund} {i : ℕ}

-- What tells one execution from another, which nothing that is written later touches.
structure SameRefund (x y : ProviderRefund) : Prop where
  id : x.id = y.id
  payment : x.paymentId = y.paymentId
  request : x.reservationChangeId = y.reservationChangeId
  amount : x.sourceAmountMinor = y.sourceAmountMinor
  key : x.idempotencyKey = y.idempotencyKey

theorem sameRefund_self : SameRefund x x := ⟨rfl, rfl, rfl, rfl, rfl⟩

theorem SameRefund.trans {y z : ProviderRefund} (h : SameRefund x y) (h' : SameRefund y z) :
    SameRefund x z :=
  ⟨h.id.trans h'.id, h.payment.trans h'.payment, h.request.trans h'.request,
    h.amount.trans h'.amount, h.key.trans h'.key⟩

structure Rewrites (db t : Database) (i : ℕ) : Prop where
  refunds : ∃ f, Table.Updates db.providerRefunds t.providerRefunds i f ∧ ∀ x, SameRefund (f x) x
  frame : t = { db with providerRefunds := t.providerRefunds }

theorem commits_saveRefund {f : ProviderRefund → ProviderRefund} {hf : Keeps f} {a : Unit}
    (h : Commits (saveRefund i f hf) db a t) (hs : ∀ x, SameRefund (f x) x) : Rewrites db t i := by
  simp only [saveRefund, commits_modify] at h
  obtain rfl := h
  exact ⟨⟨f, Table.updates_update hf, hs⟩, rfl⟩

structure Executes (db t : Database) (g : RequestGraph) (x : ProviderRefund) : Prop where
  payment : x.paymentId = g.payment.id
  request : x.reservationChangeId = g.request.id
  amount : x.sourceAmountMinor = g.request.amountMinor
  key : x.idempotencyKey = x.id
  unrecorded : recordedRefund? db g.request.id = none
  appended : Table.Appends db.providerRefunds t.providerRefunds x
  frame : t = { db with providerRefunds := t.providerRefunds }

theorem commits_prepare (h : Commits (prepare i) db x t) :
    ∃ g, Graphed db i g ∧ isRequest g.request = true ∧
      ((recordedRefund? db g.request.id = some x ∧ t = db) ∨ Executes db t g x) := by
  simp only [prepare, commits_bind, commits_lockRequestGraph, commits_reject, commits_get,
    commits_orFail] at h
  obtain ⟨g, _, ⟨hg, rfl⟩, _, _, ⟨hok, rfl⟩, _, _, ⟨rfl, rfl⟩, a, _, ⟨_, rfl⟩, h⟩ := h
  rw [not_or, not_not] at hok
  refine ⟨g, hg, by simpa using hok.2, ?_⟩
  cases hx : recordedRefund? db g.request.id with
  | some existing =>
    simp only [hx, commits_pure] at h
    exact Or.inl ⟨by rw [h.1], h.2.symm⟩
  | none =>
    simp only [hx, commits_bind, commits_check, commits_orFail, commits_set, commits_pure] at h
    obtain ⟨charge, _, ⟨_, rfl⟩, account, _, ⟨_, rfl⟩, reference, _, ⟨_, rfl⟩, _, _, rfl, rfl,
      rfl⟩ := h
    exact Or.inr ⟨rfl, rfl, rfl, rfl, hx, Table.appends_insert, rfl⟩

theorem commits_start (h : Commits (start held) db x t) : Rewrites db t held.id ∧ SameRefund x held := by
  simp only [start, commits_bind, commits_get, commits_orFail, commits_pure] at h
  obtain ⟨_, _, ⟨rfl, rfl⟩, _, _, ⟨_, rfl⟩, _, _, ⟨_, rfl⟩, _, _, hsave, rfl, rfl⟩ := h
  exact ⟨commits_saveRefund hsave (fun _ => ⟨rfl, rfl, rfl, rfl, rfl⟩), ⟨rfl, rfl, rfl, rfl, rfl⟩⟩

theorem commits_answered {remote : RemoteRefund} {o : Option String}
    (h : Commits (answered held remote) db o t) : Rewrites db t held.id := by
  simp only [answered, commits_ite, commits_bind, commits_pure] at h
  obtain ⟨_, _, _, hsave, _, rfl⟩ | ⟨_, _, _, hsave, _, rfl⟩ := h
  · exact commits_saveRefund hsave fun _ => ⟨rfl, rfl, rfl, rfl, rfl⟩
  · exact commits_saveRefund hsave fun _ => ⟨rfl, rfl, rfl, rfl, rfl⟩

end Commits
end ExecuteProviderRefund

namespace RecoverProviderRefund
open Schema Transaction RequestRefund CompleteRefund ExecuteProviderRefund

def conflicting : Failure := .commercialWorkflow
  "The supplied provider refund identity conflicts with the recorded recovery identity."

structure RefundGraph where
  refund : ProviderRefund
  request : ReservationChange

def lockRefund (refundId : ℕ) : Tx RefundGraph := do
  let db ← get
  let refund ← orFail (db.providerRefunds.find? refundId) .modelNotFound
  let request ← orFail (db.changes.find? refund.reservationChangeId) .modelNotFound
  let _ ← lockedReservation request.reservationId
  let _ ← PaymentService.lockedPayment refund.paymentId
  pure { refund, request }

def otherwise (x : ProviderRefund) (providerRefundId : String) : Prop :=
  x.providerRefundId ≠ none ∧ x.providerRefundId ≠ some providerRefundId

instance (x : ProviderRefund) (providerRefundId : String) :
    Decidable (otherwise x providerRefundId) :=
  inferInstanceAs (Decidable (_ ∧ _))

def recovering (providerRefundId : String) (x : ProviderRefund) : ProviderRefund :=
  { x with
    providerRefundId := some providerRefundId
    state := .processing
    attemptCount := x.attemptCount + 1 }

-- The row to look up at the gateway, unless it has been completed already.
def claim (refundId : ℕ) (providerRefundId : String) : Tx (Option ProviderRefund) := do
  reject (trim providerRefundId = "") (.commercialWorkflow
    "A provider refund identifier is required for authoritative recovery.")
  let g ← lockRefund refundId
  reject (otherwise g.refund (trim providerRefundId)) conflicting
  let db ← get
  if settled db g.refund = true then pure none
  else do
    saveRefund g.refund.id (recovering (trim providerRefundId))
    pure (some (recovering (trim providerRefundId) g.refund))

def upper (s : String) : String := s.map Char.toUpper

def authoritative (snapshot : ProviderRefund) (providerRefundId : String)
    (remote : RemoteRefund) : Bool :=
  remote.providerPaymentId == snapshot.providerPaymentId && remote.id == providerRefundId &&
    remote.amountMinor == snapshot.chargeAmountMinor &&
    upper remote.currency == upper snapshot.chargeCurrency && remote.providerAccount != "" &&
    remote.providerAccount == snapshot.providerAccount && paidOut remote.status

def quarantined (x : ProviderRefund) : ProviderRefund :=
  if x.state = .succeeded then x
  else mismatched
    "Authoritative provider refund identity, amount, currency, account, or status mismatch." x

def succeeded (x : ProviderRefund) : ProviderRefund :=
  { x with state := .succeeded, lastError := none }

def record (snapshot : ProviderRefund) (providerRefundId : String) (remote : RemoteRefund)
    (actorId : Option ℕ) : Tx Unit := do
  let g ← lockRefund snapshot.id
  reject (otherwise g.refund providerRefundId) conflicting
  let db ← get
  if settled db g.refund = true then pure ()
  else do
    let _ ← CompleteRefund.handle g.request.id remote.id actorId
    saveRefund g.refund.id succeeded

def finish (snapshot : ProviderRefund) (providerRefundId : String) (remote : RemoteRefund)
    (actorId : Option ℕ) : Tx Unit :=
  if authoritative snapshot providerRefundId remote = true then
    record snapshot providerRefundId remote actorId
  else do
    let g ← lockRefund snapshot.id
    saveRefund g.refund.id quarantined (by intro x; unfold quarantined; split <;> rfl)

section Commits
variable {db t : Database} {i : ℕ} {g : RefundGraph} {snapshot : ProviderRefund}
variable {providerRefundId : String} {remote : RemoteRefund} {actor : Option ℕ} {a : Unit}

theorem commits_lockRefund (h : Commits (lockRefund i) db g t) :
    db.providerRefunds.find? i = some g.refund ∧
      db.changes.find? g.refund.reservationChangeId = some g.request ∧ t = db := by
  simp only [lockRefund, commits_bind, commits_get, commits_orFail, commits_lockedReservation,
    PaymentService.commits_lockedPayment, commits_pure] at h
  obtain ⟨_, _, ⟨rfl, rfl⟩, x, _, ⟨hx, rfl⟩, c, _, ⟨hc, rfl⟩, _, _, ⟨_, rfl⟩, _, _, ⟨_, rfl⟩, rfl,
    rfl⟩ := h
  exact ⟨hx, hc, rfl⟩

theorem commits_claim {o : Option ProviderRefund} (h : Commits (claim i providerRefundId) db o t) :
    t = db ∨ Rewrites db t i := by
  simp only [claim, commits_bind, commits_reject, commits_get, commits_ite, commits_pure] at h
  obtain ⟨_, _, ⟨_, rfl⟩, g, _, hlock, _, _, ⟨_, rfl⟩, _, _, ⟨rfl, rfl⟩,
    ⟨_, _, rfl⟩ | ⟨_, _, _, hsave, _, rfl⟩⟩ := h
  · exact Or.inl (commits_lockRefund hlock).2.2
  · obtain ⟨hx, _, rfl⟩ := commits_lockRefund hlock
    obtain rfl : g.refund.id = i := (Table.find?_eq_some.mp hx).2
    exact Or.inr (commits_saveRefund hsave fun _ => ⟨rfl, rfl, rfl, rfl, rfl⟩)

theorem sameRefund_quarantined (x : ProviderRefund) : SameRefund (quarantined x) x := by
  unfold quarantined
  split_ifs
  · exact sameRefund_self
  · exact ⟨rfl, rfl, rfl, rfl, rfl⟩

theorem commits_finish (h : Commits (finish snapshot providerRefundId remote actor) db a t) :
    t = db ∨ Rewrites db t snapshot.id ∨ ∃ j c u,
      Commits (CompleteRefund.handle j remote.id actor) db c u ∧ Rewrites u t snapshot.id := by
  simp only [finish, record, commits_ite, commits_bind, commits_reject, commits_get,
    commits_pure] at h
  obtain ⟨_, g, _, hlock, _, _, ⟨_, rfl⟩, _, _, ⟨rfl, rfl⟩, hcase⟩ | ⟨_, g, _, hlock, hsave⟩ := h
  · obtain ⟨hx, _, rfl⟩ := commits_lockRefund hlock
    have hid : g.refund.id = snapshot.id := (Table.find?_eq_some.mp hx).2
    rcases hcase with ⟨_, _, rfl⟩ | ⟨_, c, u, hdone, hsave⟩
    · exact Or.inl rfl
    · rw [hid] at hsave
      exact Or.inr (Or.inr ⟨_, c, u, hdone, commits_saveRefund hsave fun _ => ⟨rfl, rfl, rfl, rfl, rfl⟩⟩)
  · obtain ⟨hx, _, rfl⟩ := commits_lockRefund hlock
    have hid : g.refund.id = snapshot.id := (Table.find?_eq_some.mp hx).2
    rw [hid] at hsave
    exact Or.inr (Or.inl (commits_saveRefund hsave sameRefund_quarantined))

end Commits
end RecoverProviderRefund
