import LodgeOps.Ledger.OutstandingRefunds
import LodgeOps.Ledger.ProviderRefunds
import LodgeOps.Store.Workers

namespace GatewayRefunds
open Schema Transaction RequestRefund CompleteRefund ExecuteProviderRefund RecoverProviderRefund
open RecordProviderDispute Outflow OutstandingRefunds
open Crew (onDb commits_onDb)

section Workers

inductive Stage
  | prepared (held : ProviderRefund)
  | sending (held : ProviderRefund)
  | answering (held : ProviderRefund) (remote : RemoteRefund)
  | recovering (refundId : ℕ) (providerRefundId : String)
  | fetching (snapshot : ProviderRefund) (providerRefundId : String)
deriving DecidableEq

def Stage.refundId : Stage → ℕ
  | prepared held | sending held | answering held _ => held.id
  | recovering i _ => i
  | fetching snapshot _ => snapshot.id

def Stage.held? : Stage → Option ProviderRefund
  | prepared held | sending held | answering held _ => some held
  | recovering _ _ | fetching _ _ => none

structure Worker where
  actorId : Option ℕ
  stage : Stage
deriving DecidableEq

-- The gateway keeps the answer it gave under each idempotency key.
abbrev World := Crew Database (List (ℕ × RemoteRefund)) Worker

abbrev Op (α : Type) := Transaction Failure World α

def leave (k : Worker) : Op Unit := Crew.leave k (.logic "No worker has come this far.")

def enter (actorId : Option ℕ) (stage : Stage) : Op Unit := Crew.enter ⟨actorId, stage⟩

def answer? (w : World) (key : ℕ) : Option RemoteRefund :=
  (w.outside.find? fun e => e.1 == key).map Prod.snd

end Workers
section Steps

inductive Step
  | movement (m : Movement)
  | execute (requestId : ℕ) (actorId : Option ℕ)
  | recover (refundId : ℕ) (providerRefundId : String) (actorId : Option ℕ)
  | start (held : ProviderRefund) (actorId : Option ℕ)
  | send (held : ProviderRefund) (remote : RemoteRefund) (actorId : Option ℕ)
  | settle (held : ProviderRefund) (remote : RemoteRefund) (actorId : Option ℕ)
  | claim (refundId : ℕ) (providerRefundId : String) (actorId : Option ℕ)
  | finish (snapshot : ProviderRefund) (providerRefundId : String) (remote : RemoteRefund)
      (actorId : Option ℕ)
  | crash (k : Worker) (message : Option String)

def execute (requestId : ℕ) (actorId : Option ℕ) : Op Unit := do
  let held ← onDb (prepare requestId)
  enter actorId (.prepared held)

def start (held : ProviderRefund) (actorId : Option ℕ) : Op Unit := do
  leave ⟨actorId, .prepared held⟩
  let w ← get
  if settled w.db held = true then pure ()
  else
    match held.providerRefundId with
    | some i => enter actorId (.recovering held.id i)
    | none => do
      let marked ← onDb (ExecuteProviderRefund.start held)
      enter actorId (.sending marked)

def send (held : ProviderRefund) (remote : RemoteRefund) (actorId : Option ℕ) : Op Unit := do
  leave ⟨actorId, .sending held⟩
  let w ← get
  match answer? w held.idempotencyKey with
  | some recorded => enter actorId (.answering held recorded)
  | none => do
    set { w with outside := (held.idempotencyKey, remote) :: w.outside }
    enter actorId (.answering held remote)

def settle (held : ProviderRefund) (remote : RemoteRefund) (actorId : Option ℕ) : Op Unit := do
  leave ⟨actorId, .answering held remote⟩
  match ← onDb (answered held remote) with
  | some i => enter actorId (.recovering held.id i)
  | none => pure ()

def claim (refundId : ℕ) (providerRefundId : String) (actorId : Option ℕ) : Op Unit := do
  leave ⟨actorId, .recovering refundId providerRefundId⟩
  match ← onDb (RecoverProviderRefund.claim refundId providerRefundId) with
  | some snapshot => enter actorId (.fetching snapshot (trim providerRefundId))
  | none => pure ()

def finish (snapshot : ProviderRefund) (providerRefundId : String) (remote : RemoteRefund)
    (actorId : Option ℕ) : Op Unit := do
  leave ⟨actorId, .fetching snapshot providerRefundId⟩
  onDb (RecoverProviderRefund.finish snapshot providerRefundId remote actorId)

def crash (k : Worker) (message : Option String) : Op Unit := do
  leave k
  match message with
  | some m => onDb (saveRefund k.stage.refundId (failing m))
  | none => pure ()

def Step.run : Step → Op Unit
  | movement m => onDb m.run
  | execute i actor => GatewayRefunds.execute i actor
  | recover i j actor => enter actor (.recovering i j)
  | start held actor => GatewayRefunds.start held actor
  | send held remote actor => GatewayRefunds.send held remote actor
  | settle held remote actor => GatewayRefunds.settle held remote actor
  | claim i j actor => GatewayRefunds.claim i j actor
  | finish snapshot j remote actor => GatewayRefunds.finish snapshot j remote actor
  | crash k message => GatewayRefunds.crash k message

structure Aside (db result : Database) : Prop extends Untouched db result where
  reservations : result.reservations = db.reservations
  refunds : result.providerRefunds = db.providerRefunds

def Step.Honest (s : Step) (w : World) : Prop :=
  match s with
  | movement (.elsewhere result) => Aside w.db result
  | _ => True

def openFolio (db : Database) (requestId : ℕ) : Bool :=
  ((db.changes.find? requestId).bind fun c => db.reservation? c.reservationId).any
    fun r => r.folioStatus != .closed

-- A key the gateway has not seen is sent for a request that is still open, on an open folio.
def sendable (w : World) (held : ProviderRefund) : Bool :=
  (completion? w.db held.reservationChangeId).isNone && openFolio w.db held.reservationChangeId

def Step.Checked (s : Step) (w : World) : Prop :=
  match s with
  | movement (.request _ j amount _) =>
    ∀ p, w.db.payments.find? j = some p → amount ≤ spare w.db p
  | movement (.dispute event remote) => Bearable w.db event remote
  | movement (.elsewhere result) => Aside w.db result
  | send held _ _ => answer? w held.idempotencyKey = none → sendable w held = true
  | _ => True

end Steps
section Bounds

def sentOpen (w : World) (paymentId key : ℕ) : ℤ :=
  w.db.providerRefunds.total fun x =>
    if x.paymentId = paymentId ∧ x.idempotencyKey ≠ key ∧
        (answer? w x.idempotencyKey).isSome = true ∧ completion? w.db x.reservationChangeId = none
    then x.sourceAmountMinor else 0

def Fits (w : World) (held : ProviderRefund) : Prop :=
  ∀ p ∈ w.db.payments.rows, p.id = held.paymentId →
    completed w.db p.id + appliedChargebacks w.db p.id + sentOpen w p.id held.idempotencyKey +
      held.sourceAmountMinor ≤ p.amountMinor

-- What has been paid out can be booked, whatever reference it comes back under.
def Bookable (w : World) : Prop :=
  ∀ x ∈ w.db.providerRefunds.rows, (answer? w x.idempotencyKey).isSome = true →
    ∀ reference actor, trim reference ≠ "" →
      ∃ c u, Commits (CompleteRefund.handle x.reservationChangeId reference actor) w.db c u

end Bounds

variable {w w' : World} {db db' t : Database} {x y held : ProviderRefund} {k : Worker}
variable {actor : Option ℕ} {i : ℕ} {remote : RemoteRefund}

section Commits

@[simp] theorem commits_enter {stage : Stage} {a : Unit} : Commits (enter actor stage) w a w' ↔
    w' = { w with workers := ⟨actor, stage⟩ :: w.workers } :=
  Crew.commits_enter

@[simp] theorem commits_leave {a : Unit} : Commits (leave k) w a w' ↔
    k ∈ w.workers ∧ w' = { w with workers := w.workers.erase k } :=
  Crew.commits_leave

end Commits
section Invariant

def Vouched (db : Database) (x : ProviderRefund) : Prop :=
  ∃ c ∈ db.changes.rows, c.id = x.reservationChangeId ∧ isRequest c = true ∧
    c.paymentId = some x.paymentId ∧ c.amountMinor = x.sourceAmountMinor

def OnOpenFolio (db : Database) (x : ProviderRefund) : Prop :=
  ∃ c ∈ db.changes.rows, c.id = x.reservationChangeId ∧
    ∃ r, db.reservation? c.reservationId = some r ∧ r.folioStatus ≠ .closed

structure Registered (db : Database) : Prop where
  vouched : ∀ x ∈ db.providerRefunds.rows, Vouched db x
  keyed : ∀ x ∈ db.providerRefunds.rows, x.idempotencyKey = x.id
  single : ∀ x ∈ db.providerRefunds.rows, ∀ y ∈ db.providerRefunds.rows,
    x.reservationChangeId = y.reservationChangeId → x = y

def OnFile (db : Database) (held : ProviderRefund) : Prop :=
  ∃ x ∈ db.providerRefunds.rows, SameRefund x held

structure Sound (w : World) : Prop where
  ledger : Ledger w.db
  registered : Registered w.db
  held : ∀ k ∈ w.workers, ∀ h, k.stage.held? = some h → OnFile w.db h
  asked : ∀ e ∈ w.outside, ∃ x ∈ w.db.providerRefunds.rows, x.idempotencyKey = e.1 ∧
    OnOpenFolio w.db x

-- A database step that forgets no execution, no change and no reservation.
structure Retains (db t : Database) : Prop where
  registered : Registered t
  changes : ∀ c ∈ db.changes.rows, c ∈ t.changes.rows
  reservations : t.reservations = db.reservations
  refunds : ∀ x ∈ db.providerRefunds.rows, OnFile t x

theorem onFile_carry (h : Retains db t) (hf : OnFile db held) : OnFile t held := by
  obtain ⟨x, hx, hs⟩ := hf
  obtain ⟨y, hy, hs'⟩ := h.refunds x hx
  exact ⟨y, hy, hs'.trans hs⟩

theorem onOpenFolio_carry (h : Retains db t) (hs : SameRefund y x) (hf : OnOpenFolio db x) :
    OnOpenFolio t y := by
  obtain ⟨c, hc, hid, r, hr, ho⟩ := hf
  exact ⟨c, h.changes c hc, hid.trans hs.request.symm, r,
    (Database.reservation?_congr h.reservations _).trans hr, ho⟩

theorem sound_carry {t : Database} (h : Sound w) (hl : Ledger t) (hr : Retains w.db t) :
    Sound { w with db := t } where
  ledger := hl
  registered := hr.registered
  held k hk x hx := onFile_carry hr (h.held k hk x hx)
  asked e he := by
    obtain ⟨x, hx, hkey, hopen⟩ := h.asked e he
    obtain ⟨y, hy, hs⟩ := hr.refunds x hx
    exact ⟨y, hy, hs.key.trans hkey, onOpenFolio_carry hr hs hopen⟩

theorem sound_leave (h : Sound w) : Sound { w with workers := w.workers.erase k } where
  ledger := h.ledger
  registered := h.registered
  held j hj := h.held j (List.mem_of_mem_erase hj)
  asked := h.asked

theorem sound_enter {stage : Stage} (h : Sound w)
    (hs : ∀ x, stage.held? = some x → OnFile w.db x) :
    Sound { w with workers := ⟨actor, stage⟩ :: w.workers } where
  ledger := h.ledger
  registered := h.registered
  held j hj x hx := by
    rcases List.mem_cons.mp hj with rfl | hj
    · exact hs x hx
    · exact h.held j hj x hx
  asked := h.asked

theorem registered_same (h : Registered db) (hr : t.providerRefunds = db.providerRefunds)
    (hc : ∀ c ∈ db.changes.rows, c ∈ t.changes.rows) : Registered t where
  vouched x hx := by
    obtain ⟨c, hmem, hrest⟩ := h.vouched x (hr ▸ hx)
    exact ⟨c, hc c hmem, hrest⟩
  keyed := by
    rw [hr]
    exact h.keyed
  single := by
    rw [hr]
    exact h.single

theorem retains_same (h : Registered db) (hr : t.providerRefunds = db.providerRefunds)
    (hc : ∀ c ∈ db.changes.rows, c ∈ t.changes.rows) (hs : t.reservations = db.reservations) :
    Retains db t where
  registered := registered_same h hr hc
  changes := hc
  reservations := hs
  refunds x hx := ⟨x, by rwa [hr], sameRefund_self⟩

theorem retains_trans {u : Database} (h : Retains db t) (h' : Retains t u) : Retains db u where
  registered := h'.registered
  changes c hc := h'.changes c (h.changes c hc)
  reservations := h'.reservations.trans h.reservations
  refunds x hx := onFile_carry h' (h.refunds x hx)

theorem rewritten_from (h : Rewrites db t i) (hx : x ∈ t.providerRefunds.rows) :
    ∃ y ∈ db.providerRefunds.rows, SameRefund x y := by
  obtain ⟨f, hu, hs⟩ := h.refunds
  rcases hu.mem.mp hx with ⟨hx, _⟩ | ⟨y, hy, _, rfl⟩
  · exact ⟨x, hx, sameRefund_self⟩
  · exact ⟨y, hy, hs y⟩

theorem retains_rewrites (h : Registered db) (hw : Rewrites db t i) : Retains db t where
  registered :=
    { vouched := fun x hx => by
        obtain ⟨y, hy, hs⟩ := rewritten_from hw hx
        obtain ⟨c, hc, hid, hreq, hown, hamt⟩ := h.vouched y hy
        rw [hw.frame]
        exact ⟨c, hc, hid.trans hs.request.symm, hreq, by rw [hown, hs.payment], hamt.trans
          hs.amount.symm⟩
      keyed := fun x hx => by
        obtain ⟨y, hy, hs⟩ := rewritten_from hw hx
        rw [hs.key, hs.id, h.keyed y hy]
      single := fun x hx y hy he => by
        obtain ⟨x', hx', hsx⟩ := rewritten_from hw hx
        obtain ⟨y', hy', hsy⟩ := rewritten_from hw hy
        have hxy := h.single x' hx' y' hy' (hsx.request.symm.trans (he.trans hsy.request))
        have hid : x.id = y.id := by rw [hsx.id, hsy.id, hxy]
        exact Table.eq_of_id hx hy hid }
  changes c hc := by rwa [hw.frame]
  reservations := by rw [hw.frame]
  refunds x hx := by
    obtain ⟨f, hu, hs⟩ := hw.refunds
    by_cases hi : x.id = i
    · exact ⟨f x, hu.mem_self hx hi, hs x⟩
    · exact ⟨x, hu.mem_ne hx hi, sameRefund_self⟩

theorem ledger_rewrites (h : Ledger db) (hw : Rewrites db t i) : Ledger t := by
  have hf := hw.frame
  exact ledger_congr h (by rw [hf]) (by rw [hf]) (by rw [hf]) (by rw [hf]) (by rw [hf]) (by rw [hf])

theorem sound_rewrites (h : Sound w) (hw : Rewrites w.db t i) : Sound { w with db := t } :=
  sound_carry h (ledger_rewrites h.ledger hw) (retains_rewrites h.registered hw)

end Invariant
section Bounds

theorem answered_of_mem {e : ℕ × RemoteRefund} (he : e ∈ w.outside) :
    (answer? w e.1).isSome = true := by
  have hs : (w.outside.find? fun f => f.1 == e.1).isSome = true :=
    List.find?_isSome.mpr ⟨e, he, by simp⟩
  simpa [answer?] using hs

theorem mem_of_answered (h : (answer? w i).isSome = true) : ∃ e ∈ w.outside, e.1 = i := by
  have hs : (w.outside.find? fun f => f.1 == i).isSome = true := by simpa [answer?] using h
  obtain ⟨e, he, hi⟩ := List.find?_isSome.mp hs
  exact ⟨e, he, by simpa using hi⟩

def executing (db : Database) (paymentId : ℕ) (x : ProviderRefund) : ℤ :=
  if x.paymentId = paymentId ∧ completion? db x.reservationChangeId = none
  then x.sourceAmountMinor else 0

theorem executing_nonneg (h : Sound w) (hx : x ∈ w.db.providerRefunds.rows) :
    0 ≤ executing w.db i x := by
  obtain ⟨c, hc, _, hreq, _, hamt⟩ := h.registered.vouched x hx
  have hpos := h.ledger.positive c hc (Or.inl hreq)
  unfold executing
  split_ifs
  · omega
  · exact le_rfl

theorem executing_le_outstanding (h : Sound w) :
    w.db.providerRefunds.total (executing w.db i) ≤ outstanding w.db i := by
  refine Table.total_le_of_owner ProviderRefund.reservationChangeId h.registered.single
    (fun x hx => ?_) (pending_nonneg h.ledger.toKept)
  obtain ⟨c, hc, hid, hreq, hown, hamt⟩ := h.registered.vouched x hx
  refine ⟨c, hc, hid, ?_⟩
  unfold executing
  by_cases hx : x.paymentId = i ∧ completion? w.db x.reservationChangeId = none
  · have hpend : pendingRequest w.db c = true := by simp [pendingRequest, hreq, hid, hx.2]
    rw [if_pos hx, if_pos ⟨hpend, by rw [hown, hx.1]⟩, hamt]
  · rw [if_neg hx]
    split_ifs
    · exact (h.ledger.positive c hc (Or.inl hreq)).le
    · exact le_rfl

-- The executions the gateway has seen and the one about to be sent are different open executions.
theorem sentOpen_le (h : Sound w) (hfile : OnFile w.db held) (hp : held.paymentId = i)
    (hopen : completion? w.db held.reservationChangeId = none) :
    sentOpen w i held.idempotencyKey + held.sourceAmountMinor ≤ outstanding w.db i := by
  obtain ⟨x, hx, hs⟩ := hfile
  have hmine : executing w.db i x = held.sourceAmountMinor := by
    unfold executing
    rw [hs.payment, hs.request, hs.amount, if_pos ⟨hp, hopen⟩]
  have hothers : sentOpen w i held.idempotencyKey ≤ w.db.providerRefunds.total
      fun y => if Keyed.id y = Keyed.id x then 0 else executing w.db i y := by
    refine Table.total_le_total fun y hy => ?_
    by_cases hid : Keyed.id y = Keyed.id x
    · have hxy : y = x := Table.eq_of_id hy hx hid
      simp [hxy, hs.key]
    · rw [if_neg hid]
      by_cases hsent : y.paymentId = i ∧ y.idempotencyKey ≠ held.idempotencyKey ∧
          (answer? w y.idempotencyKey).isSome = true ∧
          completion? w.db y.reservationChangeId = none
      · rw [if_pos hsent]
        unfold executing
        rw [if_pos ⟨hsent.1, hsent.2.2.2⟩]
      · rw [if_neg hsent]
        exact executing_nonneg h hy
  have hall := executing_le_outstanding (i := i) h
  rw [Table.total_split hx, hmine] at hall
  omega

theorem fits_of_sound (h : Sound w) (hfile : OnFile w.db held)
    (hopen : completion? w.db held.reservationChangeId = none) : Fits w held := by
  intro p hp hown
  have hcov := h.ledger.covered p hp
  have hsent := sentOpen_le h hfile hown.symm hopen
  have happ : appliedChargebacks w.db p.id ≤ exposed w.db p.id := le_max_left _ _
  unfold spare at hcov
  omega

theorem bookable_of_sound (h : Sound w) : Bookable w := by
  intro x hx hans reference actor href
  obtain ⟨e, he, hkey⟩ := mem_of_answered hans
  obtain ⟨y, hy, hykey, d, hd, hdid, r, hr, ho⟩ := h.asked e he
  have hxy : x = y := by
    have hid : y.id = x.id := by
      rw [← h.registered.keyed x hx, ← h.registered.keyed y hy, hykey, hkey]
    exact Table.eq_of_id hx hy hid.symm
  subst hxy
  obtain ⟨c, hc, hid, hreq, _⟩ := h.registered.vouched x hx
  obtain rfl : c = d := Table.eq_of_id hc hd (Eq.trans hid hdid.symm)
  obtain ⟨e, u, hdone⟩ : ∃ e u, Commits (CompleteRefund.handle c.id reference actor) w.db e u :=
    completes h.ledger hc hreq hr ho href
  exact ⟨e, u, hid ▸ hdone⟩

end Bounds
section Preservation
variable {reference providerRefundId : String} {requestId : ℕ} {c : ReservationChange}

theorem complete_sound (h : Sound w)
    (hc : Commits (CompleteRefund.handle requestId reference actor) w.db c t) :
    Sound { w with db := t } := by
  obtain ⟨g, hg, hreq, ⟨_, rfl⟩ | ⟨hn, hdone⟩⟩ := CompleteRefund.commits_handle hc
  · exact h
  · exact sound_carry h (ledger_complete h.ledger hg hreq hn hdone) (retains_same h.registered
      (by rw [hdone.frame]) (fun _ => hdone.appended.mem_old) (by rw [hdone.frame]))

theorem movement_sound {m : Movement} (h : Sound w) (ha : (Step.movement m).Checked w)
    (hc : Commits m.run w.db () t) : Sound { w with db := t } := by
  cases m with
  | request i j amount reason =>
    obtain ⟨_, hc⟩ := LedgerRuns.commits_quietly hc
    obtain ⟨_, _, _, _, happ, hf⟩ := RequestRefund.commits_handle hc
    exact sound_carry h (ledger_request h.ledger hc ha) (retains_same h.registered (by rw [hf])
      (fun _ => happ.mem_old) (by rw [hf]))
  | complete i reference actor =>
    obtain ⟨_, hc⟩ := LedgerRuns.commits_quietly hc
    exact complete_sound h hc
  | fail i reason =>
    obtain ⟨_, hc⟩ := LedgerRuns.commits_quietly hc
    obtain ⟨_, _, _, _, _, happ, hf⟩ := CompleteRefund.commits_fail hc
    exact sound_carry h (ledger_fail h.ledger hc) (retains_same h.registered (by rw [hf])
      (fun _ => happ.mem_old) (by rw [hf]))
  | dispute event remote =>
    obtain ⟨_, hc⟩ := LedgerRuns.commits_quietly hc
    have hl := ledger_dispute h.ledger hc ha
    obtain ⟨g, d, n, s, v, hd, _⟩ := RecordProviderDispute.commits_handle hc
    have hkv : Kept v := kept_frame h.ledger.toKept (by rw [hd.frame]) (by rw [hd.frame])
      (by rw [hd.frame]) (by rw [hd.frame])
    have hw := weighed_of_impacted hkv (d := refreshed remote n d)
      (hd.saved.find?_self (opened_find hd.opened)) hd.positive hd.impact
    refine sound_carry h hl (retains_same h.registered ?_ ?_ ?_)
    · rw [hw.frame, hd.frame]
    · rw [hw.frame, hd.frame]
      exact fun _ => id
    · rw [hw.frame, hd.frame]
  | elsewhere result =>
    obtain rfl : result = t := by simpa [Movement.run] using hc
    have hu : Aside w.db result := ha
    exact sound_carry h (ledger_congr h.ledger hu.payments hu.changes hu.lines hu.disputes
      hu.attempts hu.reservations) (retains_same h.registered hu.refunds
      (by rw [hu.changes]; exact fun _ => id) hu.reservations)

theorem executes_retains {g : RequestGraph} (h : Registered db) (hg : Graphed db requestId g)
    (hreq : isRequest g.request = true) (hx : Executes db t g x) : Retains db t := by
  have hnew : ∀ y ∈ db.providerRefunds.rows, y.reservationChangeId ≠ g.request.id := fun y hy => by
    simpa using Table.first?_eq_none.mp hx.unrecorded y hy
  have hch : t.changes = db.changes := by rw [hx.frame]
  refine ⟨⟨fun y hy => ?_, fun y hy => ?_, fun y hy z hz he => ?_⟩, fun c hc => by rwa [hch],
    by rw [hx.frame], fun y hy => ⟨y, hx.appended.mem_old hy, sameRefund_self⟩⟩
  · unfold Vouched
    rw [hch]
    rcases hx.appended.mem.mp hy with hy | rfl
    · exact h.vouched y hy
    · exact ⟨g.request, (Table.find?_eq_some.mp hg.request).1, hx.request.symm, hreq,
        by rw [hg.payment_id, hx.payment], hx.amount.symm⟩
  · rcases hx.appended.mem.mp hy with hy | rfl
    · exact h.keyed y hy
    · exact hx.key
  · rcases hx.appended.mem.mp hy with hy | rfl
    · rcases hx.appended.mem.mp hz with hz | rfl
      · exact h.single y hy z hz he
      · exact absurd (he.trans hx.request) (hnew y hy)
    · rcases hx.appended.mem.mp hz with hz | rfl
      · exact absurd (he.symm.trans hx.request) (hnew z hz)
      · rfl

theorem execute_sound (h : Sound w) (hc : Commits (execute requestId actor) w () w') : Sound w' := by
  simp only [execute, commits_bind, commits_onDb, commits_enter] at hc
  obtain ⟨held, _, ⟨t, hprep, rfl⟩, rfl⟩ := hc
  obtain ⟨g, hg, hreq, ⟨hrec, rfl⟩ | hx⟩ := commits_prepare hprep
  · refine sound_enter h fun x hx => ?_
    obtain rfl : held = x := by simpa [Stage.held?] using hx
    exact ⟨held, (Table.first?_some hrec).1, sameRefund_self⟩
  · have hf := hx.frame
    have hl : Ledger t := ledger_congr h.ledger (by rw [hf]) (by rw [hf]) (by rw [hf]) (by rw [hf])
      (by rw [hf]) (by rw [hf])
    refine sound_enter (sound_carry h hl (executes_retains h.registered hg hreq hx)) fun y hy => ?_
    obtain rfl : held = y := by simpa [Stage.held?] using hy
    exact ⟨held, hx.appended.mem_new, sameRefund_self⟩

theorem start_sound (h : Sound w) (hc : Commits (start held actor) w () w') : Sound w' := by
  simp only [start, commits_bind, commits_leave, commits_get, commits_ite, commits_pure] at hc
  obtain ⟨_, _, ⟨hk, rfl⟩, _, _, ⟨rfl, rfl⟩, ⟨_, _, rfl⟩ | ⟨_, hc⟩⟩ := hc
  · exact sound_leave h
  · have hfile := h.held _ hk held rfl
    cases hid : held.providerRefundId with
    | some i =>
      simp only [hid, commits_enter] at hc
      obtain rfl := hc
      exact sound_enter (sound_leave h) (by intro x hx; cases hx)
    | none =>
      simp only [hid, commits_bind, commits_onDb, commits_enter] at hc
      obtain ⟨marked, _, ⟨t, hstart, rfl⟩, rfl⟩ := hc
      obtain ⟨hw, hs⟩ := commits_start hstart
      refine sound_enter (sound_rewrites (sound_leave h) hw) fun x hx => ?_
      obtain rfl : marked = x := by simpa [Stage.held?] using hx
      obtain ⟨y, hy, hsy⟩ := onFile_carry (retains_rewrites h.registered hw) hfile
      exact ⟨y, hy, hsy.trans ⟨hs.id.symm, hs.payment.symm, hs.request.symm, hs.amount.symm,
        hs.key.symm⟩⟩

theorem open_of_openFolio (hs : SameRefund x held)
    (ho : openFolio db held.reservationChangeId = true) : OnOpenFolio db x := by
  obtain ⟨r, hr, hopen⟩ := (Option.any_eq_true _ _).mp ho
  obtain ⟨c, hc, hres⟩ := Option.bind_eq_some_iff.mp hr
  obtain ⟨hmem, hid⟩ := Table.find?_eq_some.mp hc
  exact ⟨c, hmem, Eq.trans hid hs.request.symm, r, hres, by simpa using hopen⟩

theorem send_sound (h : Sound w) (ha : (Step.send held remote actor).Checked w)
    (hc : Commits (send held remote actor) w () w') : Sound w' := by
  simp only [send, commits_bind, commits_leave, commits_get] at hc
  obtain ⟨_, _, ⟨hk, rfl⟩, _, _, ⟨rfl, rfl⟩, hc⟩ := hc
  have hfile := h.held _ hk held rfl
  have henter : ∀ v : World, Sound v → v.db = w.db → ∀ reply,
      Sound { v with workers := ⟨actor, .answering held reply⟩ :: v.workers } := by
    intro v hv hdb reply
    refine sound_enter hv fun x hx => ?_
    obtain rfl : held = x := by simpa [Stage.held?] using hx
    rwa [hdb]
  cases hans : answer? w held.idempotencyKey with
  | some recorded =>
    have hans' : answer? { w with workers := w.workers.erase ⟨actor, .sending held⟩ }
        held.idempotencyKey = some recorded := hans
    simp only [hans', commits_enter] at hc
    obtain rfl := hc
    exact henter _ (sound_leave h) rfl recorded
  | none =>
    have hans' : answer? { w with workers := w.workers.erase ⟨actor, .sending held⟩ }
        held.idempotencyKey = none := hans
    simp only [hans', commits_bind, commits_set, commits_enter] at hc
    obtain ⟨_, _, rfl, rfl⟩ := hc
    have hready := ha hans
    simp only [sendable, Bool.and_eq_true] at hready
    obtain ⟨x, hx, hs⟩ := hfile
    have hw := sound_leave (k := ⟨actor, .sending held⟩) h
    refine henter
      { w with
        workers := w.workers.erase ⟨actor, .sending held⟩
        outside := (held.idempotencyKey, remote) :: w.outside }
      ⟨hw.ledger, hw.registered, hw.held, fun e he => ?_⟩ rfl remote
    rcases List.mem_cons.mp he with rfl | he
    · exact ⟨x, hx, hs.key, open_of_openFolio hs hready.2⟩
    · exact h.asked e he

theorem settle_sound (h : Sound w) (hc : Commits (settle held remote actor) w () w') :
    Sound w' := by
  simp only [settle, commits_bind, commits_leave, commits_onDb] at hc
  obtain ⟨_, _, ⟨hk, rfl⟩, o, _, ⟨t, hans, rfl⟩, hc⟩ := hc
  have hw := sound_rewrites (sound_leave (k := ⟨actor, .answering held remote⟩) h)
    (commits_answered hans)
  cases o with
  | none =>
    simp only [commits_pure] at hc
    obtain ⟨_, rfl⟩ := hc
    exact hw
  | some i =>
    simp only [commits_enter] at hc
    obtain rfl := hc
    exact sound_enter hw (by intro x hx; cases hx)

theorem claim_sound (h : Sound w) (hc : Commits (claim i providerRefundId actor) w () w') :
    Sound w' := by
  simp only [claim, commits_bind, commits_leave, commits_onDb] at hc
  obtain ⟨_, _, ⟨hk, rfl⟩, o, _, ⟨t, hclaim, rfl⟩, hc⟩ := hc
  have hleft := sound_leave (k := ⟨actor, .recovering i providerRefundId⟩) h
  have hw : Sound { w with
      db := t, workers := w.workers.erase ⟨actor, .recovering i providerRefundId⟩ } := by
    rcases commits_claim hclaim with rfl | hw
    · exact hleft
    · exact sound_rewrites hleft hw
  cases o with
  | none =>
    simp only [commits_pure] at hc
    obtain ⟨_, rfl⟩ := hc
    exact hw
  | some x =>
    simp only [commits_enter] at hc
    obtain rfl := hc
    exact sound_enter hw (by intro x hx; cases hx)

theorem finish_sound (h : Sound w) (hc : Commits (finish x providerRefundId remote actor) w () w') :
    Sound w' := by
  simp only [finish, commits_bind, commits_leave, commits_onDb] at hc
  obtain ⟨_, _, ⟨hk, rfl⟩, t, hfinish, rfl⟩ := hc
  have hleft := sound_leave (k := ⟨actor, .fetching x providerRefundId⟩) h
  rcases commits_finish hfinish with rfl | hw | ⟨j, c, u, hdone, hw⟩
  · exact hleft
  · exact sound_rewrites hleft hw
  · have hbooked : Sound { w with
        db := u, workers := w.workers.erase ⟨actor, .fetching x providerRefundId⟩ } :=
      complete_sound hleft hdone
    have hall := sound_rewrites hbooked hw
    exact hall

theorem crash_sound {message : Option String} (h : Sound w)
    (hc : Commits (crash k message) w () w') : Sound w' := by
  simp only [crash, commits_bind, commits_leave] at hc
  obtain ⟨_, _, ⟨_, rfl⟩, hc⟩ := hc
  cases message with
  | none =>
    simp only [commits_pure] at hc
    obtain ⟨_, rfl⟩ := hc
    exact sound_leave h
  | some m =>
    simp only [commits_onDb] at hc
    obtain ⟨t, hsave, rfl⟩ := hc
    exact sound_rewrites (sound_leave h)
      (commits_saveRefund hsave fun _ => ⟨rfl, rfl, rfl, rfl, rfl⟩)

theorem step_sound {s : Step} (h : Sound w) (ha : s.Checked w) (hc : Commits s.run w () w') :
    Sound w' := by
  cases s with
  | movement m =>
    obtain ⟨t, hm, rfl⟩ := commits_onDb.mp hc
    exact movement_sound h ha hm
  | execute i actor => exact execute_sound h hc
  | recover i j actor =>
    obtain rfl := commits_enter.mp hc
    exact sound_enter h (by intro x hx; cases hx)
  | start held actor => exact start_sound h hc
  | send held remote actor => exact send_sound h ha hc
  | settle held remote actor => exact settle_sound h hc
  | claim i j actor => exact claim_sound h hc
  | finish x j remote actor => exact finish_sound h hc
  | crash k message => exact crash_sound h hc

end Preservation
section Runs

structure Idle (w : World) : Prop where
  opening : OutstandingRefunds.Opening w.db
  workers : w.workers = []
  gateway : w.outside = []

theorem sound_of_idle (h : Idle w) : Sound w where
  ledger := ledger_of_opening h.opening
  registered :=
    { vouched := by simp [h.opening.refunds]
      keyed := by simp [h.opening.refunds]
      single := by simp [h.opening.refunds] }
  held := by simp [h.workers]
  asked := by simp [h.gateway]

theorem reaches_sound {s : World} (hs : Idle s) (h : Reaches Step.run Step.Checked s w) :
    Sound w :=
  h.invariant (I := Sound) (sound_of_idle hs) fun _ _ _ hs ha hc => step_sound hs ha hc

theorem fits_on_send (h : Sound w) (ha : (Step.send held remote actor).Checked w)
    (hc : Commits (send held remote actor) w () w') (hn : answer? w held.idempotencyKey = none) :
    Fits w held := by
  simp only [send, commits_bind, commits_leave] at hc
  obtain ⟨_, _, ⟨hk, rfl⟩, _⟩ := hc
  have hready := ha hn
  simp only [sendable, Bool.and_eq_true, Option.isNone_iff_eq_none] at hready
  exact fits_of_sound h (h.held _ hk held rfl) hready.1

theorem checked_runs_send_what_remains {s : World} (hs : Idle s)
    (h : Reaches Step.run Step.Checked s w) :
    Bookable w ∧ ∀ held remote actor w', (Step.send held remote actor).Checked w →
      Commits (Step.send held remote actor).run w () w' → answer? w held.idempotencyKey = none →
        Fits w held :=
  have hw := reaches_sound hs h
  ⟨bookable_of_sound hw, fun _ _ _ _ ha hc hn => fits_on_send hw ha hc hn⟩

end Runs
section Scenario

def start₀ : World := { db := paid, outside := [] }

theorem start_idle : Idle start₀ where
  opening :=
    { toOpening := paid_opening
      disputes := by simp [start₀, paid, LedgerRuns.opening, Table.empty]
      refunds := rfl }
  workers := rfl
  gateway := rfl

def prepared (amountMinor : ℤ) : ProviderRefund where
  id := 0
  paymentId := 0
  reservationChangeId := 0
  provider := "mercado_pago"
  environment := .production
  providerAccount := "lodge-account"
  sourceAmountMinor := amountMinor
  sourceCurrency := "USD"
  chargeAmountMinor := 10000
  chargeCurrency := "USD"
  idempotencyKey := 0
  providerPaymentId := "pay-0"
  state := .requested

def sendingNow (amountMinor : ℤ) : ProviderRefund :=
  { prepared amountMinor with state := .processing, attemptCount := 1 }

def reply : RemoteRefund where
  id := "refund-0"
  providerPaymentId := "pay-0"
  status := "approved"
  amountMinor := 10000
  currency := "USD"
  providerAccount := "lodge-account"

def graph? (db : Database) (event : ProviderEvent) (remote : DisputeFacts) : Option Graph := do
  let a ← disputedAttempt? db event remote.providerPaymentId
  let r ← db.reservation? a.reservationId
  let p ← recordedFor? db a remote.providerPaymentId
  some ⟨a, r, p⟩

theorem graph_of_found {event : ProviderEvent} {remote : DisputeFacts} {g : Graph}
    (h : Found db event remote g) : graph? db event remote = some g := by
  simp [graph?, h.attempt, h.reservation, h.payment]

def checkedly (s : Step) (w : World) : Bool :=
  match s with
  | .movement (.request _ j amount _) =>
    (w.db.payments.find? j).all fun p => decide (amount ≤ spare w.db p)
  | .movement (.dispute event remote) =>
    (graph? w.db event remote).all fun g => w.db.payments.rows.all (bears w.db g remote)
  | .movement (.elsewhere _) => false
  | .send held _ _ => (answer? w held.idempotencyKey).isSome || sendable w held
  | _ => true

theorem checked_of_checkedly {s : Step} (h : checkedly s w = true) : s.Checked w := by
  cases s with
  | movement m =>
    cases m with
    | request i j amount reason =>
      intro p hp
      simpa [checkedly, hp] using h
    | dispute event remote =>
      intro _ g hg p hp
      have hall : ∀ p ∈ w.db.payments.rows, bears w.db g remote p = true := by
        simpa [checkedly, graph_of_found hg] using h
      exact hall p hp
    | elsewhere _ => cases h
    | _ => trivial
  | send held remote actor =>
    intro hn
    simpa [checkedly, hn] using h
  | _ => trivial

def plainly : Step → Bool
  | .movement (.elsewhere _) => false
  | _ => true

theorem honest_of_plainly {s : Step} (h : plainly s = true) : s.Honest w := by
  cases s with
  | movement m =>
    cases m with
    | elsewhere _ => cases h
    | _ => trivial
  | _ => trivial

def refused (w : World) (requestId : ℕ) (reference : String) : Bool :=
  match (CompleteRefund.handle requestId reference none).run w.db with
  | .ok _ => false
  | .error _ => true

theorem unbookable (hx : sendingNow 6000 ∈ w.db.providerRefunds.rows)
    (ha : (answer? w 0).isSome = true) (hr : refused w 0 "refund-0" = true) : ¬ Bookable w := by
  intro hb
  obtain ⟨c, u, hc⟩ := hb _ hx ha "refund-0" none (by decide)
  have hrun : (CompleteRefund.handle 0 "refund-0" none).run w.db = .ok (c, u) := hc
  simp [refused, hrun] at hr

theorem sends_the_rest_beside_a_chargeback : ∃ w u, Reaches Step.run Step.Checked start₀ w ∧
    Commits (Step.send (sendingNow 4000) reply none).run w () u ∧
    appliedChargebacks w.db 0 = 6000 ∧ Fits w (sendingNow 4000) ∧ Bookable u := by
  obtain ⟨w, hr, hp⟩ : ∃ w, Reaches Step.run Step.Checked start₀ w ∧
      (decide (appliedChargebacks w.db 0 = 6000 ∧ answer? w 0 = none) &&
        checkedly (.send (sendingNow 4000) reply none) w &&
        match (Step.send (sendingNow 4000) reply none).run.run w with
        | .ok _ => true
        | .error _ => false) = true :=
    Reaches.exists_of_execute (fun _ _ => checked_of_checkedly)
      [.movement (.request 0 0 4000 "Left early"), .movement (delivered 6000 "settled"),
        .execute 0 none, .start (prepared 4000) none] (by decide)
  simp only [Bool.and_eq_true, decide_eq_true_eq] at hp
  obtain ⟨⟨⟨happ, hn⟩, hcheck⟩, hrun⟩ := hp
  have ha := checked_of_checkedly hcheck
  cases hx : (Step.send (sendingNow 4000) reply none).run.run w with
  | error e => simp [hx] at hrun
  | ok v =>
    have hc : Commits (Step.send (sendingNow 4000) reply none).run w () v.2 := hx
    have hfits := (checked_runs_send_what_remains start_idle hr).2 _ _ _ _ ha hc hn
    exact ⟨w, v.2, hr, hc, happ, hfits, (checked_runs_send_what_remains start_idle
      (hr.step ha hc)).1⟩

-- The chargeback is lost while the refund waits to be sent.
theorem sends_more_than_remains : Idle start₀ ∧ ∃ w u, Reaches Step.run Step.Honest start₀ w ∧
    Commits (Step.send (sendingNow 6000) reply none).run w () u ∧ answer? w 0 = none ∧
    ¬ Fits w (sendingNow 6000) ∧ ¬ Bookable u := by
  obtain ⟨w, hr, hp⟩ : ∃ w, Reaches Step.run Step.Honest start₀ w ∧
      (decide (lateFunds 0 ∈ w.db.payments.rows ∧ completed w.db 0 = 0 ∧
          appliedChargebacks w.db 0 = 6000 ∧ sentOpen w 0 0 = 0 ∧ answer? w 0 = none) &&
        match (Step.send (sendingNow 6000) reply none).run.run w with
        | .ok (_, u) => decide (sendingNow 6000 ∈ u.db.providerRefunds.rows) &&
            (answer? u 0).isSome && refused u 0 "refund-0"
        | .error _ => false) = true :=
    Reaches.exists_of_execute (fun _ _ => honest_of_plainly)
      [.movement (.request 0 0 6000 "Left early"), .execute 0 none,
        .movement (delivered 6000 "settled"), .start (prepared 6000) none] (by decide)
  simp only [Bool.and_eq_true, decide_eq_true_eq] at hp
  obtain ⟨⟨hmem, hcomp, happ, hsent, hn⟩, hrun⟩ := hp
  cases hx : (Step.send (sendingNow 6000) reply none).run.run w with
  | error e => simp [hx] at hrun
  | ok v =>
    simp only [hx, Bool.and_eq_true, decide_eq_true_eq] at hrun
    refine ⟨start_idle, w, v.2, hr, hx, hn, fun hf => ?_,
      unbookable hrun.1.1 hrun.1.2 hrun.2⟩
    have hle := hf (lateFunds 0) hmem rfl
    have hle : completed w.db 0 + appliedChargebacks w.db 0 + sentOpen w 0 0 + 6000 ≤ 10000 := hle
    omega

end Scenario
end GatewayRefunds
