import LodgeOps.Payments.AbsorbingEvents

namespace RecordedOnce
open Schema Transaction PaymentService ProcessProviderEvent
open LedgerRuns (Operation)

section Books
variable {db t u : Database} {p q : Payment} {l m : FolioLine} {i j : ℕ}

-- What no later service rewrites of a payment.
def lasting (p : Payment) : Payment :=
  { p with status := .pending, processedAt := none, reversalReason := none }

def address (a : PaymentAttempt) : ℕ × ℕ × String × Environment × String :=
  (a.reservationId, a.paymentRequestId, a.provider, a.environment, a.providerAccount)

structure Tidy (db : Database) : Prop where
  consistent : ∀ p ∈ db.payments.rows, assertConsistent p = .ok ()
  identity : ∀ p ∈ db.payments.rows, ∀ q ∈ db.payments.rows, p.origin = .provider →
    q.origin = .provider → sameIdentity p q = true → p = q
  lines : ∀ l ∈ db.folioLines.rows, l.type = .payment → ∃ p ∈ db.payments.rows,
    l.paymentId = some p.id ∧ l.grossAmountMinor = -p.amountMinor ∧
      l.reservationId = p.reservationId
  single : ∀ l ∈ db.folioLines.rows, ∀ m ∈ db.folioLines.rows, l.type = .payment →
    m.type = .payment → l.paymentId = m.paymentId → l = m

structure Once (db : Database) : Prop extends Tidy db where
  posted : ∀ p ∈ db.payments.rows, p.origin = .provider → ∃ l ∈ db.folioLines.rows,
    l.type = .payment ∧ l.paymentId = some p.id

structure Linked (db t : Database) : Prop where
  requests : ∀ i q, db.paymentRequests.find? i = some q → ∀ j, q.paymentId = some j →
    ∃ q', t.paymentRequests.find? i = some q' ∧ q'.paymentId = some j
  attempts : ∀ i a, db.paymentAttempts.find? i = some a →
    ∃ a', t.paymentAttempts.find? i = some a' ∧ address a' = address a

structure Follows (db t : Database) : Prop extends Linked db t where
  payments : ∀ p ∈ db.payments.rows, ∃ q ∈ t.payments.rows, lasting q = lasting p

theorem linked_self : Linked db db :=
  ⟨fun _ q hq _ hj => ⟨q, hq, hj⟩, fun _ a ha => ⟨a, ha, rfl⟩⟩

theorem Linked.trans (h : Linked db t) (h' : Linked t u) : Linked db u where
  requests i q hq j hj := by
    obtain ⟨q₁, hq₁, hj₁⟩ := h.requests i q hq j hj
    exact h'.requests i q₁ hq₁ j hj₁
  attempts i a ha := by
    obtain ⟨a₁, ha₁, he₁⟩ := h.attempts i a ha
    obtain ⟨a₂, ha₂, he₂⟩ := h'.attempts i a₁ ha₁
    exact ⟨a₂, ha₂, he₂.trans he₁⟩

theorem follows_self : Follows db db := ⟨linked_self, fun p hp => ⟨p, hp, rfl⟩⟩

theorem Follows.trans (h : Follows db t) (h' : Follows t u) : Follows db u where
  toLinked := h.toLinked.trans h'.toLinked
  payments p hp := by
    obtain ⟨q, hq, hqp⟩ := h.payments p hp
    obtain ⟨r, hr, hrq⟩ := h'.payments q hq
    exact ⟨r, hr, hrq.trans hqp⟩

def Grows (db t : Database) : Prop := Once db → Once t ∧ Follows db t

instance : Std.Refl Grows := ⟨fun _ h => ⟨h, follows_self⟩⟩

instance : IsTrans Database Grows where
  trans _ _ _ h h' hs := by
    obtain ⟨ht, hf⟩ := h hs
    obtain ⟨hu, hf'⟩ := h' ht
    exact ⟨hu, hf.trans hf'⟩

-- A step that posts no payment line and leaves of each payment what lasts.
structure Unpaid (db t : Database) : Prop extends Linked db t where
  kept : ∀ p ∈ db.payments.rows, ∃ q ∈ t.payments.rows, lasting q = lasting p
  came : ∀ q ∈ t.payments.rows, ∃ p ∈ db.payments.rows, lasting q = lasting p
  stood : ∀ l ∈ db.folioLines.rows, l ∈ t.folioLines.rows
  plain : ∀ l ∈ t.folioLines.rows, l ∈ db.folioLines.rows ∨ l.type ≠ .payment

theorem follows_append (h : Table.Appends db.payments t.payments p) (hl : Linked db t) :
    Follows db t :=
  ⟨hl, fun q hq => ⟨q, h.mem_old hq, rfl⟩⟩

end Books

section Operations
variable {db t : Database} {p q : Payment} {l : FolioLine} {i : ℕ} {actor : Option ℕ}
variable {request : PaymentRequest}

-- Whatever else the system does, it leaves payments, lines and what is linked alone.
structure Aside (db t : Database) : Prop extends Linked db t where
  payments : t.payments = db.payments
  lines : t.folioLines = db.folioLines

-- The ledger's other services, between the steps of the workers.
def Plain (op : Operation) (db : Database) : Prop :=
  match op with
  | .elsewhere result => Aside db result
  | _ => True

end Operations

section Workers
variable {db t : Database} {a n : PaymentAttempt} {e : ProviderEvent} {i : ℕ}
variable {remote : ProviderPayment} {reason : String}

def links (db : Database) : List (ℕ × Option ℕ) :=
  db.paymentRequests.rows.map fun q => (q.id, q.paymentId)

def untouched (db : Database) :
    Table Payment × Table FolioLine × Table PaymentAttempt × List (ℕ × Option ℕ) :=
  (db.payments, db.folioLines, db.paymentAttempts, links db)

end Workers

section Runs
variable {w w' : Queue} {k : Job} {a : Action} {s : Database}

inductive Step
  | worker (action : Action)
  | ledger (operation : Operation)

def Step.run : Step → Transaction Failure Queue Unit
  | worker a => act a
  | ledger op => zoom Queue.db (fun w db => { w with db := db }) op.run

def Step.Honest (x : Step) (w : Queue) : Prop :=
  match x with
  | worker (.elsewhere db) => Aside w.db db
  | ledger op => Plain op w.db
  | _ => True

end Runs

section Replays
variable {db t u v : Database} {p q : Payment} {attempt locked : PaymentAttempt}
variable {remote : ProviderPayment}

-- The payment that answers for the provider's reference is on the books and on its request.
structure Answered (db : Database) (attempt : PaymentAttempt) (remote : ProviderPayment)
    (p : Payment) : Prop where
  located : ∃ a, db.paymentAttempts.find? attempt.id = some a ∧ p.provider = some a.provider ∧
    p.environment = some a.environment ∧ p.providerAccount = some a.providerAccount
  payment : ∃ q ∈ db.payments.rows, lasting q = lasting p
  reference : p.providerReference = some remote.id
  request : ∃ q, db.paymentRequests.find? attempt.paymentRequestId = some q ∧
    q.paymentId = some p.id

theorem Answered.follows (h : Answered t attempt remote p) (hf : Follows t u) :
    Answered u attempt remote p where
  located := by
    obtain ⟨a, ha, hprov, henv, hacc⟩ := h.located
    obtain ⟨a', ha', he⟩ := hf.attempts _ a ha
    simp only [address, Prod.mk.injEq] at he
    obtain ⟨_, _, hprov', henv', hacc'⟩ := he
    exact ⟨a', ha', hprov' ▸ hprov, henv' ▸ henv, hacc' ▸ hacc⟩
  payment := by
    obtain ⟨q, hq, he⟩ := h.payment
    obtain ⟨q', hq', he'⟩ := hf.payments q hq
    exact ⟨q', hq', he'.trans he⟩
  reference := h.reference
  request := by
    obtain ⟨q, hq, he⟩ := h.request
    exact hf.requests _ q hq _ he

end Replays

section Exactness
variable {s : Database} {w : Queue}

def stayRequest (i : ℕ) : PaymentRequest where
  id := i
  propertyId := 0
  reservationId := 0
  state := .opened
  sourceAmountMinor := 10000
  sourceCurrency := "USD"
  expiresAt := 3600

theorem names_stayRequest : Names stayRequest := fun _ => rfl

theorem names_notification : Names notification := fun _ => rfl

def approvedPayment : ProviderPayment := { pendingPayment with status := "approved" }

def requested : Database :=
  { notified with
    paymentRequests := Table.empty.insert stayRequest names_stayRequest
    providerEvents :=
      (Table.empty.insert notification names_notification).insert notification names_notification }

def plainly (x : Step) (_ : Queue) : Bool :=
  match x with
  | .worker a => ProcessProviderEvent.plainly a { db := requested }
  | .ledger op => LedgerRuns.plainly op

theorem honest_of_plainly (x : Step) (w : Queue) (h : plainly x w = true) : x.Honest w := by
  cases x with
  | worker a => cases a <;> trivial
  | ledger op => cases op <;> trivial

def delivered (j : ℕ) : List Step :=
  [.worker (.claim j), .worker (.answer j (.payment approvedPayment))] ++
    List.replicate 6 (.worker (.advance j))

end Exactness
end RecordedOnce
