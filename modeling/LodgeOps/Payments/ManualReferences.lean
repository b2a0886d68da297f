import LodgeOps.Ledger.Payments
import LodgeOps.Store.Workers

namespace ManualReferences
open Schema Transaction PaymentService Crew

section Calls

structure Call where
  data : ManualEntry
  actorId : Option ℕ
  capture : Bool
deriving DecidableEq

-- A call between two of its statements; its reservation row stays locked throughout.
inductive Stage
  | locked (c : Call) (r : Reservation)
  | unmatched (c : Call) (r : Reservation)
deriving DecidableEq

def Stage.call : Stage → Call
  | locked c _ => c
  | unmatched c _ => c

structure Answer where
  call : Call
  payment : Payment

abbrev Desk := Crew Database (List Answer) Stage
abbrev DeskTx := Transaction Failure Desk

def gone : Failure := .runtime "The call is not at this statement."
def busy : Failure := .runtime "The reservation is locked by another call."

def answer (c : Call) (p : Payment) : DeskTx Unit :=
  modify fun w => { w with outside := ⟨c, p⟩ :: w.outside }

def lockReservation (c : Call) : DeskTx Unit := do
  let r ← onDb (lockedReservation c.data.reservationId)
  let w ← get
  reject (∃ k ∈ w.workers, k.call.data.reservationId = c.data.reservationId) busy
  enter (.locked c r)

def lookUp (c : Call) (r : Reservation) : DeskTx Unit := do
  leave (.locked c r) gone
  let w ← get
  match manualTwin? w.db c.data with
  | some existing => answer c existing
  | none => enter (.unmatched c r)

def createManual (c : Call) (r : Reservation) : Tx Payment := do
  let payment ← createPayment (manualPayment r c.data)
  if c.capture then reconcile payment.id c.actorId c.data.depositId else pure payment

def create (c : Call) (r : Reservation) : DeskTx Unit := do
  leave (.unmatched c r) gone
  let payment ← onDb (createManual c r)
  answer c payment

inductive Action
  | lockReservation (c : Call)
  | lookUp (c : Call) (r : Reservation)
  | create (c : Call) (r : Reservation)
  | rollBack (k : Stage)
deriving DecidableEq

def Action.run : Action → DeskTx Unit
  | lockReservation c => ManualReferences.lockReservation c
  | lookUp c r => ManualReferences.lookUp c r
  | create c r => ManualReferences.create c r
  | rollBack k => leave k gone

-- The statements of a call are those of `PaymentService.recordManual`.
theorem recordManual_eq (c : Call) : recordManual c.data c.actorId c.capture = (do
    let r ← lockedReservation c.data.reservationId
    let db ← get
    match manualTwin? db c.data with
    | some existing => pure existing
    | none => createManual c r) := rfl

end Calls

section References
variable {db : Database} {p : Payment} {c : Call}

def pair (processor reference : Option String) : Option (String × String) :=
  processor.bind fun a => reference.map fun b => (a, b)

def Call.pair (c : Call) : Option (String × String) :=
  ManualReferences.pair (trimmed? c.data.provider) (trimmed? c.data.providerReference)

def pairOf (p : Payment) : Option (String × String) :=
  ManualReferences.pair p.metadata.manualProcessorAlias p.metadata.manualTransactionReference

theorem pair_eq_some {x y : Option String} {v : String × String} :
    pair x y = some v ↔ x = some v.1 ∧ y = some v.2 := by
  cases x with
  | none => simp [pair]
  | some a =>
    cases y with
    | none => simp [pair]
    | some b => simp [pair, Prod.ext_iff]

theorem twin_some (h : manualTwin? db c.data = some p) :
    p ∈ db.payments.rows ∧ pairOf p = c.pair := by
  simp only [manualTwin?] at h
  split_ifs at h
  obtain ⟨hmem, hp⟩ := Table.first?_some h
  simp only [Bool.and_eq_true, beq_iff_eq] at hp
  exact ⟨hmem, by rw [pairOf, hp.1, hp.2, Call.pair]⟩

theorem twin_none {v : String × String} (h : manualTwin? db c.data = none) (hv : c.pair = some v) :
    ∀ p ∈ db.payments.rows, pairOf p ≠ some v := by
  obtain ⟨ha, hb⟩ := pair_eq_some.mp hv
  intro p hp he
  obtain ⟨hpa, hpb⟩ := pair_eq_some.mp he
  simp only [manualTwin?, ha, hb, Option.isSome_some, Bool.and_self, if_true] at h
  have hno := Table.first?_eq_none.mp h p hp
  simp [hpa, hpb] at hno

end References

section Creation
variable {db db' : Database} {p : Payment} {c : Call} {r : Reservation}

-- The one payment a call adds carries the call's reservation, amount and pair.
structure Creates (db db' : Database) (c : Call) (p : Payment) : Prop where
  fresh : p.id = db.payments.next
  added : ∀ q, q ∈ db'.payments.rows ↔ q ∈ db.payments.rows ∨ q = p
  reservation : p.reservationId = c.data.reservationId
  amount : p.amountMinor = c.data.amountMinor
  pair : pairOf p = c.pair

theorem creates_createManual (h : Commits (createManual c r) db p db') : Creates db db' c p := by
  simp only [createManual, commits_bind, commits_ite, commits_pure] at h
  obtain ⟨q, t, hcreate, h⟩ := h
  obtain ⟨hq, _, _, happ, _⟩ := commits_createPayment hcreate
  have hmade : Creates db t c q := by
    refine ⟨by rw [hq]; rfl, fun x => happ.mem, by rw [hq]; rfl, by rw [hq]; rfl, by rw [hq]; rfl⟩
  rcases h with ⟨_, h⟩ | ⟨_, rfl, rfl⟩
  · obtain ⟨locked, hl, _, ⟨_, rfl, rfl⟩ | ⟨home, h⟩⟩ := commits_reconcile h
    · have hsame : p = q := by
        obtain ⟨hmem, hid⟩ := Table.find?_eq_some.mp hl
        exact Table.eq_of_id hmem happ.mem_new hid
      exact hsame ▸ hmade
    · obtain ⟨_, hp, hu, _, _⟩ := commits_settlePending h
      obtain ⟨hmem, hid⟩ := Table.find?_eq_some.mp hl
      obtain rfl : locked = q := Table.eq_of_id hmem happ.mem_new hid
      rw [hp]
      refine ⟨hmade.fresh, fun x => ?_, hmade.reservation, hmade.amount, hmade.pair⟩
      rw [hu.mem]
      constructor
      · rintro (⟨hx, hne⟩ | ⟨y, hy, hyid, rfl⟩)
        · exact ((happ.mem.mp hx).imp id fun he => absurd (congrArg Payment.id he) hne)
        · obtain rfl : y = locked := Table.eq_of_id hy hmem hyid
          exact Or.inr rfl
      · rintro (hx | rfl)
        · refine Or.inl ⟨happ.mem_old hx, ?_⟩
          exact (happ.lt_next hx).ne
        · exact Or.inr ⟨locked, hmem, rfl, rfl⟩
  · exact hmade

end Creation

section Steps
variable {w w' : Desk} {c : Call} {r : Reservation} {a : Action}

inductive Step (w w' : Desk) : Action → Prop
  | locks (c : Call) (r : Reservation) :
      (∀ k ∈ w.workers, k.call.data.reservationId ≠ c.data.reservationId) →
      w' = { w with workers := .locked c r :: w.workers } → Step w w' (.lockReservation c)
  | finds (c : Call) (r : Reservation) (p : Payment) : .locked c r ∈ w.workers →
      manualTwin? w.db c.data = some p →
      w' = { w with outside := ⟨c, p⟩ :: w.outside, workers := w.workers.erase (.locked c r) } →
      Step w w' (.lookUp c r)
  | misses (c : Call) (r : Reservation) : .locked c r ∈ w.workers →
      manualTwin? w.db c.data = none →
      w' = { w with workers := .unmatched c r :: w.workers.erase (.locked c r) } →
      Step w w' (.lookUp c r)
  | creates (c : Call) (r : Reservation) (p : Payment) (db : Database) :
      .unmatched c r ∈ w.workers → Creates w.db db c p →
      w' = ⟨db, ⟨c, p⟩ :: w.outside, w.workers.erase (.unmatched c r)⟩ →
      Step w w' (.create c r)
  | leaves (k : Stage) : w' = { w with workers := w.workers.erase k } → Step w w' (.rollBack k)

theorem step_lockReservation (h : Commits (lockReservation c) w () w') :
    Step w w' (.lockReservation c) := by
  simp only [lockReservation, commits_bind, commits_onDb, commits_lockedReservation, commits_get,
    commits_reject, commits_enter] at h
  obtain ⟨r, _, ⟨t, ⟨_, rfl⟩, rfl⟩, _, _, ⟨rfl, rfl⟩, _, _, ⟨hfree, rfl⟩, h⟩ := h
  push Not at hfree
  exact .locks c r hfree h

theorem step_lookUp (h : Commits (lookUp c r) w () w') : Step w w' (.lookUp c r) := by
  simp only [lookUp, commits_bind, commits_leave, commits_get] at h
  obtain ⟨_, _, ⟨hk, rfl⟩, _, _, ⟨rfl, rfl⟩, h⟩ := h
  cases hx : manualTwin? w.db c.data with
  | some p =>
    simp only [hx, answer, commits_modify] at h
    exact .finds c r p hk hx h.symm
  | none =>
    simp only [hx, commits_enter] at h
    exact .misses c r hk hx h

theorem step_create (h : Commits (create c r) w () w') : Step w w' (.create c r) := by
  simp only [create, answer, commits_bind, commits_leave, commits_onDb, commits_modify] at h
  obtain ⟨_, _, ⟨hk, rfl⟩, p, _, ⟨db, hcreate, rfl⟩, h⟩ := h
  exact .creates c r p db hk (creates_createManual hcreate) h.symm

theorem step_of_commits (h : Commits a.run w () w') : Step w w' a := by
  cases a with
  | lockReservation c => exact step_lockReservation h
  | lookUp c r => exact step_lookUp h
  | create c r => exact step_create h
  | rollBack k =>
    simp only [Action.run, commits_leave] at h
    exact .leaves k h.2

end Steps

section Runs
variable {s t w w' : Desk} {db : Database} {c : Call} {r : Reservation} {p : Payment} {a : Action}

-- A pair names one payment, and whoever gave the pair was answered with what it had asked for.
structure Fine (w : Desk) : Prop where
  unique : ∀ p ∈ w.db.payments.rows, ∀ q ∈ w.db.payments.rows, ∀ v, pairOf p = some v →
    pairOf q = some v → p = q
  answered : ∀ a ∈ w.outside, a.call.pair ≠ none →
    a.payment.reservationId = a.call.data.reservationId ∧
      a.payment.amountMinor = a.call.data.amountMinor

def Repeats (c : Call) (p : Payment) : Prop :=
  p.reservationId = c.data.reservationId ∧ p.amountMinor = c.data.amountMinor

-- A lookup meets only the call's own payment, and until the insert no other reservation takes
-- the pair.
def Action.Careful (a : Action) (w : Desk) : Prop :=
  match a with
  | lookUp c _ => ∀ p, manualTwin? w.db c.data = some p → Repeats c p
  | create c _ => ∀ p ∈ w.db.payments.rows, ∀ v, c.pair = some v → pairOf p = some v →
      p.reservationId = c.data.reservationId
  | _ => True

def Apart (k k' : Stage) : Prop := k.call.data.reservationId ≠ k'.call.data.reservationId

structure Inv (w : Desk) : Prop where
  fine : Fine w
  locks : w.workers.Pairwise Apart
  unmatched : ∀ c r, .unmatched c r ∈ w.workers → ∀ p ∈ w.db.payments.rows, ∀ v,
    c.pair = some v → pairOf p = some v → p.reservationId ≠ c.data.reservationId

theorem pair_of_twin (h : manualTwin? w.db c.data = some p) : c.pair ≠ none := by
  intro hn
  simp only [manualTwin?] at h
  split_ifs at h with hs
  simp only [Bool.and_eq_true, Option.isSome_iff_exists] at hs
  obtain ⟨⟨x, hx⟩, y, hy⟩ := hs
  simp [Call.pair, pair, hx, hy] at hn

theorem careful_of_fine (hf : Fine w') (h : Step w w' a) : a.Careful w := by
  cases h with
  | locks c r _ _ => trivial
  | leaves k _ => trivial
  | misses c r _ hnone he =>
    intro p hp
    simp [hnone] at hp
  | finds c r p _ hp he =>
    subst he
    intro q hq
    obtain rfl : p = q := Option.some.inj (hp.symm.trans hq)
    exact hf.answered ⟨c, p⟩ List.mem_cons_self (pair_of_twin hp)
  | creates c r p db _ hc he =>
    subst he
    intro q hq v hv hqv
    have hnew : p ∈ db.payments.rows := (hc.added p).mpr (Or.inr rfl)
    have hold : q ∈ db.payments.rows := (hc.added q).mpr (Or.inl hq)
    have hsame : q = p := hf.unique q hold p hnew v hqv (hc.pair.trans hv)
    exact hsame ▸ hc.reservation

theorem unmatched_misses (hi : Inv w) (hn : manualTwin? w.db c.data = none)
    {l : List Stage} (hl : l ⊆ w.workers) : ∀ d r', .unmatched d r' ∈ .unmatched c r :: l →
      ∀ p ∈ w.db.payments.rows, ∀ v, d.pair = some v → pairOf p = some v →
        p.reservationId ≠ d.data.reservationId := by
  intro d r' hd p hp v hv hpv
  rcases List.mem_cons.mp hd with he | hd
  · obtain ⟨rfl, rfl⟩ : d = c ∧ r' = r := by simpa using he
    exact absurd hpv (twin_none hn hv p hp)
  · exact hi.unmatched d r' (hl hd) p hp v hv hpv

theorem apart_erase {k : Stage} (hl : w.workers.Pairwise Apart) (hk : k ∈ w.workers) :
    (∀ k' ∈ w.workers.erase k, Apart k k') ∧ (w.workers.erase k).Pairwise Apart := by
  have hcons := ((List.perm_cons_erase hk).pairwise_iff fun h => Ne.symm h).mp hl
  exact List.pairwise_cons.mp hcons

-- The lock keeps every other call off this reservation between the lookup and the insert.
theorem no_twin (hi : Inv w) (hk : .unmatched c r ∈ w.workers)
    (ha : (Action.create c r).Careful w) : ∀ p ∈ w.db.payments.rows, ∀ v, c.pair = some v →
      pairOf p ≠ some v :=
  fun p hp v hv hpv => hi.unmatched c r hk p hp v hv hpv (ha p hp v hv hpv)

theorem fine_creates (hi : Inv w) (hk : .unmatched c r ∈ w.workers)
    (ha : (Action.create c r).Careful w) (hc : Creates w.db db c p) {l : List Stage} :
    Fine ⟨db, ⟨c, p⟩ :: w.outside, l⟩ := by
  have hno := no_twin hi hk ha
  refine ⟨fun x hx y hy v hxv hyv => ?_, fun a ha' hn => ?_⟩
  · rcases (hc.added x).mp hx with hxold | rfl
    · rcases (hc.added y).mp hy with hyold | rfl
      · exact hi.fine.unique x hxold y hyold v hxv hyv
      · exact absurd hxv (hno x hxold v (hc.pair.symm.trans hyv))
    · rcases (hc.added y).mp hy with hyold | rfl
      · exact absurd hyv (hno y hyold v (hc.pair.symm.trans hxv))
      · rfl
  · rcases List.mem_cons.mp ha' with rfl | ha'
    · exact ⟨hc.reservation, hc.amount⟩
    · exact hi.fine.answered a ha' hn

theorem inv_step (hi : Inv w) (ha : a.Careful w) (h : Step w w' a) : Inv w' := by
  cases h with
  | locks c r hfree he =>
    subst he
    refine ⟨⟨hi.fine.unique, hi.fine.answered⟩,
      List.pairwise_cons.mpr ⟨fun k hk => (hfree k hk).symm, hi.locks⟩, fun d r' hd => ?_⟩
    exact hi.unmatched d r' (by simpa using hd)
  | leaves k he =>
    subst he
    refine ⟨⟨hi.fine.unique, hi.fine.answered⟩, hi.locks.sublist List.erase_sublist,
      fun d r' hd => ?_⟩
    exact hi.unmatched d r' (List.mem_of_mem_erase hd)
  | finds c r p hk hp he =>
    subst he
    refine ⟨⟨hi.fine.unique, fun x hx hn => ?_⟩, (apart_erase hi.locks hk).2, fun d r' hd => ?_⟩
    · rcases List.mem_cons.mp hx with rfl | hx
      · exact ha p hp
      · exact hi.fine.answered x hx hn
    · exact hi.unmatched d r' (List.mem_of_mem_erase hd)
  | misses c r hk hnone he =>
    subst he
    obtain ⟨hapart, hrest⟩ := apart_erase hi.locks hk
    exact ⟨⟨hi.fine.unique, hi.fine.answered⟩, List.pairwise_cons.mpr ⟨hapart, hrest⟩,
      unmatched_misses hi hnone fun _ hd => List.mem_of_mem_erase hd⟩
  | creates c r p db hk hc he =>
    subst he
    obtain ⟨hapart, hrest⟩ := apart_erase hi.locks hk
    refine ⟨fine_creates hi hk ha hc, hrest, fun d r' hd q hq v hv hqv => ?_⟩
    rcases (hc.added q).mp hq with hq | rfl
    · exact hi.unmatched d r' (List.mem_of_mem_erase hd) q hq v hv hqv
    · rw [hc.reservation]
      exact hapart _ hd

theorem careful_runs_keep_references (hs : Fine s) (hidle : s.workers = [])
    (h : Reaches Action.run Action.Careful s t) :
    Fine t ∧ ∀ (a : Action) u, Commits a.run t () u → (Fine u ↔ a.Careful t) := by
  have hstart : Inv s := ⟨hs, by simp [hidle], by simp [hidle]⟩
  have hend : Inv t := h.invariant hstart fun _ _ _ hi ha hc => inv_step hi ha (step_of_commits hc)
  refine ⟨hend.fine, fun a u hc => ⟨fun hf => ?_, fun ha => ?_⟩⟩
  · exact careful_of_fine hf (step_of_commits hc)
  · exact (inv_step hend ha (step_of_commits hc)).fine

end Runs

section Scenario

def stay (i : ℕ) : Reservation where
  id := i
  propertyId := 0
  programId := none
  bookingQuoteId := none
  status := .confirmed
  startsAt := 1000
  endsAt := 2000
  holdExpiresAt := none
  adults := 2
  children := 0
  currency := "USD"
  subtotalMinor := 10000
  taxMinor := 0
  totalMinor := 10000
  depositPolicy := none
  cancellationTiers := []
  folioStatus := .opened
  closureReason := none
  revision := 1

def counter : Desk where
  db := { clock := 0, catalogue := .empty, reservations := (Table.empty.insert stay).insert stay }
  outside := []

def wire (reservationId : ℕ) (amountMinor : ℤ) : Call where
  data :=
    { reservationId, method := "bank_transfer", amountMinor, provider := some "Banco"
      providerReference := some " TX-7 " }
  actorId := none
  capture := true

theorem counter_fine : Fine counter :=
  ⟨(fun p hp => by cases hp), (fun a ha => by cases ha)⟩

def carefully (a : Action) (w : Desk) : Bool :=
  match a with
  | .lookUp c _ => (manualTwin? w.db c.data).all fun p =>
      decide (p.reservationId = c.data.reservationId ∧ p.amountMinor = c.data.amountMinor)
  | .create c _ => w.db.payments.rows.all fun p =>
      decide (pairOf p ≠ c.pair ∨ p.reservationId = c.data.reservationId)
  | _ => true

theorem careful_of_carefully {a : Action} {w : Desk} (h : carefully a w = true) : a.Careful w := by
  cases a with
  | lookUp c r =>
    intro p hp
    simpa [carefully, hp, Repeats] using h
  | create c r =>
    intro p hp v hv hpv
    have hall := List.all_eq_true.mp h p hp
    obtain hne | he := of_decide_eq_true hall
    · exact absurd (hpv.trans hv.symm) hne
    · exact he
  | lockReservation c => trivial
  | rollBack k => trivial

def tally (w : Desk) (payments answers : ℕ) : Bool :=
  decide (w.db.payments.rows.length = payments ∧ w.outside.length = answers)

-- A transfer that is entered twice is recorded once.
theorem repeated_transfer_is_recorded_once : ∃ t,
    Reaches Action.run Action.Careful counter t ∧ tally t 1 2 = true ∧ Fine t := by
  obtain ⟨t, hr, hp⟩ : ∃ t, Reaches Action.run Action.Careful counter t ∧ tally t 1 2 = true :=
    Reaches.exists_of_execute (fun _ _ => careful_of_carefully)
      [.lockReservation (wire 0 4000), .lookUp (wire 0 4000) (stay 0),
        .create (wire 0 4000) (stay 0), .lockReservation (wire 0 4000),
        .lookUp (wire 0 4000) (stay 0)]
      (by decide)
  exact ⟨t, hr, hp, (careful_runs_keep_references counter_fine rfl hr).1⟩

def doubled (w : Desk) : Bool :=
  w.db.payments.rows.any fun p => w.db.payments.rows.any fun q =>
    decide (pairOf p = some ("Banco", "TX-7") ∧ pairOf q = some ("Banco", "TX-7") ∧
      p.reservationId = 0 ∧ q.reservationId = 1)

def misdirected (w : Desk) : Bool :=
  w.outside.any fun a => decide (a.call.data.reservationId = 1 ∧ a.call.data.amountMinor = 7000 ∧
    a.payment.reservationId = 0 ∧ a.payment.amountMinor = 4000)

-- Calls on two reservations pass each other, and a late one is answered with the other payment.
theorem pair_names_two_payments :
    (∃ t, Reaches Action.run (fun _ _ => True) counter t ∧ doubled t = true) ∧
      ∃ t, Reaches Action.run (fun _ _ => True) counter t ∧ misdirected t = true := by
  constructor
  · exact Reaches.exists_of_run
      [.lockReservation (wire 0 4000), .lockReservation (wire 1 7000),
        .lookUp (wire 0 4000) (stay 0), .lookUp (wire 1 7000) (stay 1),
        .create (wire 0 4000) (stay 0), .create (wire 1 7000) (stay 1)]
      (by decide)
  · exact Reaches.exists_of_run
      [.lockReservation (wire 0 4000), .lookUp (wire 0 4000) (stay 0),
        .create (wire 0 4000) (stay 0), .lockReservation (wire 1 7000),
        .lookUp (wire 1 7000) (stay 1)]
      (by decide)

end Scenario
end ManualReferences
