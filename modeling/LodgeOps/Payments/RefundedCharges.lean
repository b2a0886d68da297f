import LodgeOps.Payments.Frames
import LodgeOps.Ledger.GatewayRefunds

namespace RefundedCharges
open Schema Transaction RequestRefund CompleteRefund ExecuteProviderRefund RecoverProviderRefund
open GatewayRefunds Outflow
open Crew (commits_onDb)

section Rounding
variable {n d : ℤ}

-- By how much a quotient is rounded up, in parts of the divisor.
def excess (n d : ℤ) : ℤ := if d ≤ 2 * (n % d) then d - n % d else -(n % d)

theorem halfUp_nat (n d : ℕ) : PaymentService.halfUp n d = ((2 * n + d) / (2 * d) : ℕ) := by
  have hn : ¬ (n : ℤ) * d < 0 := not_lt.mpr (by positivity)
  rw [PaymentService.halfUp, if_neg hn, Int.natAbs_natCast, Int.natAbs_natCast]

theorem halfUp_split {n d : ℕ} (hd : 0 < d) :
    (2 * n + d) / (2 * d) = n / d + if d ≤ 2 * (n % d) then 1 else 0 := by
  have hlt : n % d < d := Nat.mod_lt n hd
  have hsum : d * (n / d) + n % d = n := Nat.div_add_mod n d
  have hsplit : 2 * n + d = 2 * (n % d) + d + 2 * d * (n / d) := by
    calc 2 * n + d = 2 * (d * (n / d) + n % d) + d := by rw [hsum]
      _ = 2 * (n % d) + d + 2 * d * (n / d) := by ring
  rw [hsplit, Nat.add_mul_div_left _ _ (by omega), add_comm]
  congr 1
  split_ifs with h
  · exact Nat.div_eq_of_lt_le (by omega) (by omega)
  · exact Nat.div_eq_of_lt (by omega)

theorem halfUp_mul (hn : 0 ≤ n) (hd : 0 < d) :
    PaymentService.halfUp n d * d = n + excess n d := by
  lift n to ℕ using hn
  lift d to ℕ using hd.le
  have hd : 0 < d := by exact_mod_cast hd
  have hsum : (d : ℤ) * (n / d : ℕ) + (n % d : ℕ) = n := by exact_mod_cast Nat.div_add_mod n d
  rw [halfUp_nat, halfUp_split hd, excess, ← Int.natCast_mod]
  by_cases h : d ≤ 2 * (n % d)
  · rw [if_pos h, if_pos (by exact_mod_cast h)]
    push_cast at hsum ⊢
    linarith
  · rw [if_neg h, if_neg (by exact_mod_cast h)]
    push_cast at hsum ⊢
    linarith

end Rounding

section Figures

-- What was charged at the provider for the payment.
def charged (p : Payment) (a : PaymentAttempt) : ℤ :=
  if p.metadata.unappliedDirectBookingFunds then
    p.metadata.actualChargeAmountMinor.getD a.chargeAmountMinor
  else a.chargeAmountMinor

def Succeeded (x : ProviderRefund) (paymentId : ℕ) : Prop :=
  x.paymentId = paymentId ∧ x.state = .succeeded

instance (x : ProviderRefund) (i : ℕ) : Decidable (Succeeded x i) :=
  inferInstanceAs (Decidable (_ ∧ _))

def refunded (db : Database) (paymentId : ℕ) (f : ProviderRefund → ℤ) : ℤ :=
  db.providerRefunds.total fun x => if Succeeded x paymentId then f x else 0

def Conserved (db : Database) (p : Payment) (a : PaymentAttempt) : Prop :=
  refunded db p.id ProviderRefund.chargeAmountMinor ≤ charged p a ∧
    (refunded db p.id ProviderRefund.chargeAmountMinor = charged p a ↔
      refunded db p.id ProviderRefund.sourceAmountMinor = p.amountMinor)

-- Refunded once at most, and then in full.
def Whole (db : Database) (p : Payment) : Prop :=
  ∀ x ∈ db.providerRefunds.rows, Succeeded x p.id → x.sourceAmountMinor = p.amountMinor ∧
    ∀ y ∈ db.providerRefunds.rows, Succeeded y p.id → y = x

def remainder (a : PaymentAttempt) (x : ProviderRefund) : ℤ :=
  excess (x.sourceAmountMinor * a.chargeAmountMinor) a.sourceAmountMinor

-- What the parts are rounded up by cancels out once nothing is left, and stays below the charge of
-- what is left before that.
def Cancels (db : Database) (p : Payment) (a : PaymentAttempt) : Prop :=
  if refunded db p.id ProviderRefund.sourceAmountMinor = p.amountMinor then
    refunded db p.id (remainder a) = 0
  else refunded db p.id (remainder a) <
    a.chargeAmountMinor * (p.amountMinor - refunded db p.id ProviderRefund.sourceAmountMinor)

def Even (db : Database) (p : Payment) (a : PaymentAttempt) : Prop :=
  if p.metadata.unappliedDirectBookingFunds then Whole db p else Cancels db p a

-- The attempt a refund of the payment is charged by.
def attemptOf? (db : Database) (p : Payment) : Option PaymentAttempt :=
  refundedAttempt? db p p.provider p.environment p.providerReference

-- A payment as the provider flow leaves it: kept for review, or converted at the attempt's rate.
structure Charged (db : Database) (p : Payment) (a : PaymentAttempt) : Prop where
  payment : p ∈ db.payments.rows
  attempt : attemptOf? db p = some a
  branch : p.metadata.unappliedDirectBookingFunds = true ∨
    (p.currency ≠ a.chargeCurrency ∧ a.sourceAmountMinor = p.amountMinor)
  amount : 0 < p.amountMinor
  charge : 0 < charged p a

end Figures

section Sums
variable {db : Database} {i : ℕ} {f g : ProviderRefund → ℤ} {x y : ProviderRefund} {p : Payment}
variable {a : PaymentAttempt}

theorem refunded_congr (h : ∀ x ∈ db.providerRefunds.rows, Succeeded x i → f x = g x) :
    refunded db i f = refunded db i g := by
  refine Table.total_congr fun x hx => ?_
  split_ifs with hs
  · exact h x hx hs
  · rfl

theorem refunded_add : refunded db i (fun x => f x + g x) = refunded db i f + refunded db i g := by
  unfold refunded
  rw [← Table.total_add]
  refine Table.total_congr fun x _ => ?_
  split_ifs
  · rfl
  · exact (add_zero 0).symm

theorem refunded_mul {k : ℤ} : refunded db i (fun x => f x * k) = refunded db i f * k := by
  unfold refunded Table.total
  rw [← List.sum_map_mul_right]
  refine congrArg List.sum (List.map_congr_left fun x _ => ?_)
  split_ifs
  · rfl
  · exact (zero_mul k).symm

theorem refunded_none (h : ∀ x ∈ db.providerRefunds.rows, ¬ Succeeded x i) :
    refunded db i f = 0 :=
  Table.total_eq_zero fun x hx => if_neg (h x hx)

theorem refunded_single (hx : x ∈ db.providerRefunds.rows) (hs : Succeeded x i)
    (hone : ∀ y ∈ db.providerRefunds.rows, Succeeded y i → y = x) : refunded db i f = f x := by
  unfold refunded
  rw [Table.total_split hx, if_pos hs, Table.total_eq_zero, add_zero]
  intro y hy
  split_ifs with hid hsy
  · rfl
  · exact absurd (congrArg ProviderRefund.id (hone y hy hsy)) hid
  · rfl

theorem refunded_two (hx : x ∈ db.providerRefunds.rows) (hy : y ∈ db.providerRefunds.rows)
    (hsx : Succeeded x i) (hsy : Succeeded y i) (hne : y ≠ x)
    (hf : ∀ z ∈ db.providerRefunds.rows, Succeeded z i → 0 ≤ f z) :
    f x + f y ≤ refunded db i f := by
  have hid : Keyed.id y ≠ Keyed.id x := fun h => hne (Table.eq_of_id hy hx h)
  have hle := Table.add_le_total (g := fun z => if Succeeded z i then f z else 0) hx hy hid
    fun z hz => by
      split_ifs with hs
      · exact hf z hz hs
      · exact le_rfl
  simp only [if_pos hsx, if_pos hsy] at hle
  exact hle

-- Every refund of unapplied funds is charged like the whole payment.
theorem conserved_iff_whole {charge : ℤ} (hc : 0 < charge) (hp : 0 < p.amountMinor)
    (hcharge : charged p a = charge)
    (hall : ∀ x ∈ db.providerRefunds.rows, Succeeded x p.id → x.chargeAmountMinor = charge) :
    Conserved db p a ↔ Whole db p := by
  unfold Conserved
  rw [hcharge]
  constructor
  · rintro ⟨hle, hiff⟩ x hx hs
    have hone : ∀ y ∈ db.providerRefunds.rows, Succeeded y p.id → y = x := by
      intro y hy hsy
      by_contra hne
      have htwo := refunded_two hx hy hs hsy hne fun z hz hsz => (hall z hz hsz).symm ▸ hc.le
      rw [hall x hx hs, hall y hy hsy] at htwo
      linarith
    have hfull : refunded db p.id ProviderRefund.chargeAmountMinor = charge := by
      rw [refunded_single hx hs hone, hall x hx hs]
    refine ⟨?_, hone⟩
    rw [← hiff.mp hfull, refunded_single hx hs hone]
  · intro hw
    by_cases hnone : ∀ x ∈ db.providerRefunds.rows, ¬ Succeeded x p.id
    · rw [refunded_none hnone, refunded_none hnone]
      exact ⟨hc.le, fun h => absurd h hc.ne, fun h => absurd h hp.ne⟩
    · push Not at hnone
      obtain ⟨x, hx, hs⟩ := hnone
      obtain ⟨hamount, hone⟩ := hw x hx hs
      rw [refunded_single hx hs hone, refunded_single hx hs hone, hall x hx hs, hamount]
      exact ⟨le_rfl, fun _ => rfl, fun _ => rfl⟩

-- The charges of the parts, counted in parts of the payment's amount.
theorem conserved_iff_cancels (hp : 0 < p.amountMinor) (hcharge : charged p a = a.chargeAmountMinor)
    (hscaled : refunded db p.id ProviderRefund.chargeAmountMinor * p.amountMinor =
      refunded db p.id ProviderRefund.sourceAmountMinor * a.chargeAmountMinor +
        refunded db p.id (remainder a)) : Conserved db p a ↔ Cancels db p a := by
  unfold Conserved Cancels
  rw [hcharge]
  generalize refunded db p.id ProviderRefund.chargeAmountMinor = total at hscaled ⊢
  generalize refunded db p.id ProviderRefund.sourceAmountMinor = parts at hscaled ⊢
  generalize refunded db p.id (remainder a) = surplus at hscaled ⊢
  have hgap : (total - a.chargeAmountMinor) * p.amountMinor =
      surplus - a.chargeAmountMinor * (p.amountMinor - parts) := by
    linear_combination hscaled
  split_ifs with hfull
  · rw [hfull, sub_self, mul_zero, sub_zero] at hgap
    constructor
    · rintro ⟨_, hiff⟩
      rw [← hgap, hiff.mpr hfull, sub_self, zero_mul]
    · intro hzero
      rw [hzero] at hgap
      have heq : total = a.chargeAmountMinor := by
        rcases mul_eq_zero.mp hgap with h | h
        · exact sub_eq_zero.mp h
        · exact absurd h hp.ne'
      exact ⟨heq.le, fun _ => hfull, fun _ => heq⟩
  · constructor
    · rintro ⟨hle, hiff⟩
      have hlt : total < a.chargeAmountMinor := lt_of_le_of_ne hle fun h => hfull (hiff.mp h)
      have hneg := mul_neg_of_neg_of_pos (sub_neg.mpr hlt) hp
      linarith
    · intro hlt
      have hneg : (total - a.chargeAmountMinor) * p.amountMinor < 0 := by linarith
      have hless : total < a.chargeAmountMinor := by
        by_contra hge
        have hnn := mul_nonneg (sub_nonneg.mpr (not_lt.mp hge)) hp.le
        linarith
      exact ⟨hless.le, fun h => absurd h hless.ne, fun h => absurd h hfull⟩

end Sums

section Pricing
variable {db t u : Database} {x y : ProviderRefund} {p q : Payment} {a : PaymentAttempt} {i : ℕ}

-- What a refund is charged by and what it is charged, which later writes leave alone.
def billing (p : Payment) : Payment := { p with status := .succeeded }

def tariff (x : ProviderRefund) : ℕ × ℤ × ℤ :=
  (x.paymentId, x.sourceAmountMinor, x.chargeAmountMinor)

def tariffs (db : Database) : List (ℕ × ℤ × ℤ) := db.providerRefunds.rows.map tariff

structure PricedBy (db : Database) (x : ProviderRefund) (p : Payment) (a : PaymentAttempt) :
    Prop where
  payment : p ∈ db.payments.rows
  own : p.id = x.paymentId
  attempt : attemptOf? db p = some a
  charge : chargeAmount p a x.sourceAmountMinor = .ok x.chargeAmountMinor

structure Priced (db : Database) : Prop where
  requests : ∀ c ∈ db.changes.rows, isRequest c = true → 0 < c.amountMinor
  positive : ∀ x ∈ db.providerRefunds.rows, 0 < x.sourceAmountMinor
  priced : ∀ x ∈ db.providerRefunds.rows, ∃ p a, PricedBy db x p a

structure Fresh (db : Database) : Prop where
  requests : ∀ c ∈ db.changes.rows, isRequest c = true → 0 < c.amountMinor
  refunds : db.providerRefunds.rows = []

theorem priced_of_fresh (h : Fresh db) : Priced db where
  requests := h.requests
  positive _ hx := absurd (h.refunds ▸ hx) List.not_mem_nil
  priced _ hx := absurd (h.refunds ▸ hx) List.not_mem_nil

-- A step that changes neither the price of a refund nor what it is priced by.
structure Frozen (db t : Database) : Prop where
  requests : ∀ c ∈ t.changes.rows, c ∈ db.changes.rows ∨ (isRequest c = true → 0 < c.amountMinor)
  payments : ∀ p ∈ db.payments.rows, ∃ q ∈ t.payments.rows, billing q = billing p
  attempts : t.paymentAttempts = db.paymentAttempts
  refunds : tariffs t = tariffs db

theorem frozen_self : Frozen db db := ⟨fun _ => Or.inl, fun p hp => ⟨p, hp, rfl⟩, rfl, rfl⟩

theorem Frozen.trans (h : Frozen db t) (h' : Frozen t u) : Frozen db u where
  requests c hc := by
    rcases h'.requests c hc with hc | hpos
    · exact h.requests c hc
    · exact Or.inr hpos
  payments p hp := by
    obtain ⟨q, hq, hqp⟩ := h.payments p hp
    obtain ⟨r, hr, hrq⟩ := h'.payments q hq
    exact ⟨r, hr, hrq.trans hqp⟩
  attempts := h'.attempts.trans h.attempts
  refunds := h'.refunds.trans h.refunds

theorem attemptOf_billing (hb : billing q = billing p)
    (ha : t.paymentAttempts = db.paymentAttempts) : attemptOf? t q = attemptOf? db p := by
  have hmeta : q.metadata = p.metadata := (congrArg Payment.metadata hb :)
  have hprov : q.provider = p.provider := (congrArg Payment.provider hb :)
  have henv : q.environment = p.environment := (congrArg Payment.environment hb :)
  have href : q.providerReference = p.providerReference := (congrArg Payment.providerReference hb :)
  rw [attemptOf?, attemptOf?, refundedAttempt?, refundedAttempt?, hmeta, hprov, henv, href, ha]

theorem chargeAmount_billing (hb : billing q = billing p) {n : ℤ} :
    chargeAmount q a n = chargeAmount p a n := by
  have hmeta : q.metadata = p.metadata := (congrArg Payment.metadata hb :)
  have hcur : q.currency = p.currency := (congrArg Payment.currency hb :)
  rw [chargeAmount, chargeAmount, hmeta, hcur]

theorem PricedBy.carry (h : PricedBy db x p a) (hp : ∃ q ∈ t.payments.rows, billing q = billing p)
    (ha : t.paymentAttempts = db.paymentAttempts) (hx : tariff y = tariff x) :
    ∃ q a, PricedBy t y q a := by
  obtain ⟨q, hq, hb⟩ := hp
  have hown : y.paymentId = x.paymentId := (congrArg Prod.fst hx :)
  have hsource : y.sourceAmountMinor = x.sourceAmountMinor := (congrArg (fun v => v.2.1) hx :)
  have hcharge : y.chargeAmountMinor = x.chargeAmountMinor := (congrArg (fun v => v.2.2) hx :)
  have hid : q.id = p.id := (congrArg Payment.id hb :)
  exact ⟨q, a, hq, hid.trans (h.own.trans hown.symm), (attemptOf_billing hb ha).trans h.attempt,
    by rw [chargeAmount_billing hb, hsource, hcharge, h.charge]⟩

theorem Frozen.origin (h : Frozen db t) (hx : x ∈ t.providerRefunds.rows) :
    ∃ y ∈ db.providerRefunds.rows, tariff x = tariff y := by
  have hmem : tariff x ∈ tariffs db := h.refunds ▸ List.mem_map_of_mem hx
  obtain ⟨y, hy, he⟩ := List.mem_map.mp hmem
  exact ⟨y, hy, he.symm⟩

theorem priced_of_frozen (hp : Priced db) (h : Frozen db t) : Priced t where
  requests c hc hreq := by
    rcases h.requests c hc with hc | hpos
    · exact hp.requests c hc hreq
    · exact hpos hreq
  positive x hx := by
    obtain ⟨y, hy, he⟩ := h.origin hx
    have hsource : x.sourceAmountMinor = y.sourceAmountMinor := (congrArg (fun v => v.2.1) he :)
    exact hsource ▸ hp.positive y hy
  priced x hx := by
    obtain ⟨y, hy, he⟩ := h.origin hx
    obtain ⟨p, a, hpa⟩ := hp.priced y hy
    exact hpa.carry (h.payments p hpa.payment) h.attempts he

end Pricing

section Steps
variable {db t : Database} {x held : ProviderRefund} {i : ℕ} {actor : Option ℕ}
variable {reference reason providerRefundId : String} {remote : RemoteRefund}

theorem saveRefund_spares {f : ProviderRefund → ProviderRefund} {hf : Keeps f}
    (h : ∀ x, tariff (f x) = tariff x) : Spares tariffs (saveRefund i f hf) db := by
  refine Spares.modify ?_
  unfold tariffs
  rw [Table.update, Table.updateWhere, List.map_map]
  refine List.map_congr_left fun x _ => ?_
  simp only [Function.comp_apply]
  split_ifs
  · exact h x
  · rfl

theorem complete_frozen {c : ReservationChange}
    (h : Commits (CompleteRefund.handle i reference actor) db c t) : Frozen db t := by
  obtain ⟨g, hg, _, ⟨_, rfl⟩ | ⟨_, hdone⟩⟩ := CompleteRefund.commits_handle h
  · exact frozen_self
  · have hf := hdone.frame
    refine ⟨fun e he => ?_, fun p hp => ?_, by rw [hf], by rw [hf]; rfl⟩
    · rcases hdone.appended.mem.mp he with he | rfl
      · exact Or.inl he
      · obtain ⟨_, rfl⟩ := hdone.change
        exact Or.inr fun hreq => by cases hreq
    · rcases hdone.payment with ⟨_, hu⟩ | ⟨_, hsame⟩
      · by_cases hid : p.id = g.payment.id
        · exact ⟨exhausted p, hu.mem_self hp hid, rfl⟩
        · exact ⟨p, hu.mem_ne hp hid, rfl⟩
      · exact ⟨p, hsame ▸ hp, rfl⟩

theorem reads_lockRefund : Reads (lockRefund i) := fun _ _ _ hc => (commits_lockRefund hc).2.2.symm

theorem start_spares : Spares tariffs (ExecuteProviderRefund.start held) db :=
  Spares.get_bind (Spares.orFail_bind fun _ _ => Spares.orFail_bind fun _ _ =>
    Spares.bind (saveRefund_spares fun _ => rfl) fun _ _ _ => Spares.pure)

theorem answered_spares : Spares tariffs (answered held remote) db :=
  Spares.ite (fun _ => Spares.bind (saveRefund_spares fun _ => rfl) fun _ _ _ => Spares.pure)
    fun _ => Spares.bind (saveRefund_spares fun _ => rfl) fun _ _ _ => Spares.pure

theorem claim_spares : Spares tariffs (RecoverProviderRefund.claim i providerRefundId) db :=
  Spares.reject_bind fun _ => Spares.read_bind reads_lockRefund fun _ => Spares.reject_bind fun _ =>
    Spares.get_bind (Spares.ite (fun _ => Spares.pure) fun _ =>
      Spares.bind (saveRefund_spares fun _ => rfl) fun _ _ _ => Spares.pure)

theorem tariff_quarantined (x : ProviderRefund) : tariff (quarantined x) = tariff x := by
  unfold quarantined
  split_ifs <;> rfl

theorem finish_spares :
    Spares tariffs (RecoverProviderRefund.finish x providerRefundId remote actor) db := by
  refine Spares.ite (fun _ => ?_) fun _ => Spares.read_bind reads_lockRefund fun _ =>
    saveRefund_spares tariff_quarantined
  refine Spares.read_bind reads_lockRefund fun _ => Spares.reject_bind fun _ =>
    Spares.get_bind (Spares.ite (fun _ => Spares.pure) fun _ => ?_)
  exact Spares.bind (fun _ _ hc => (complete_frozen hc).refunds) fun _ _ _ =>
    saveRefund_spares fun _ => rfl

theorem frozen_rewrites (hw : Rewrites db t i) (hs : tariffs t = tariffs db) : Frozen db t := by
  have hf := hw.frame
  exact ⟨fun c hc => Or.inl (by rwa [hf] at hc), fun p hp => ⟨p, by rwa [hf], rfl⟩, by rw [hf], hs⟩

theorem finish_frozen {a : Unit}
    (h : Commits (RecoverProviderRefund.finish x providerRefundId remote actor) db a t) :
    Frozen db t := by
  have hs := finish_spares a t h
  rcases commits_finish h with rfl | hw | ⟨j, c, u, hdone, hw⟩
  · exact frozen_self
  · exact frozen_rewrites hw hs
  · have hu := complete_frozen hdone
    exact hu.trans (frozen_rewrites hw (hs.trans hu.refunds.symm))

theorem movement_frozen {m : Movement} {w : World} (ha : (Step.movement m).Honest w)
    (hc : Commits m.run w.db () t) : Frozen w.db t := by
  cases m with
  | request i j amount reason =>
    obtain ⟨c, hc⟩ := LedgerRuns.commits_quietly hc
    obtain ⟨_, _, hacc, ⟨_, rfl⟩, happ, hf⟩ := RequestRefund.commits_handle hc
    refine ⟨fun e he => ?_, fun p hp => ⟨p, by rwa [hf], rfl⟩, by rw [hf], by rw [hf]; rfl⟩
    rcases happ.mem.mp he with he | rfl
    · exact Or.inl he
    · exact Or.inr fun _ => hacc.positive
  | complete i reference actor =>
    obtain ⟨_, hc⟩ := LedgerRuns.commits_quietly hc
    exact complete_frozen hc
  | fail i reason =>
    obtain ⟨_, hc⟩ := LedgerRuns.commits_quietly hc
    obtain ⟨_, _, _, _, ⟨_, _, rfl⟩, happ, hf⟩ := CompleteRefund.commits_fail hc
    refine ⟨fun e he => ?_, fun p hp => ⟨p, by rwa [hf], rfl⟩, by rw [hf], by rw [hf]; rfl⟩
    rcases happ.mem.mp he with he | rfl
    · exact Or.inl he
    · exact Or.inr fun hreq => by cases hreq
  | dispute event remote =>
    obtain ⟨d, hc⟩ := LedgerRuns.commits_quietly hc
    have hsame : ∀ {γ : Type} {g : Database → γ}, RecordProviderDispute.Overlooks g →
        g t = g w.db := fun hg => RecordProviderDispute.handle_spares hg d t hc
    have hch : t.changes = w.db.changes := hsame ⟨fun _ _ => rfl, fun _ _ => rfl, fun _ _ => rfl⟩
    have hpay : t.payments = w.db.payments :=
      hsame ⟨fun _ _ => rfl, fun _ _ => rfl, fun _ _ => rfl⟩
    refine ⟨fun e he => Or.inl (hch ▸ he), fun p hp => ⟨p, hpay ▸ hp, rfl⟩,
      hsame ⟨fun _ _ => rfl, fun _ _ => rfl, fun _ _ => rfl⟩,
      hsame ⟨fun _ _ => rfl, fun _ _ => rfl, fun _ _ => rfl⟩⟩
  | elsewhere result =>
    obtain rfl : result = t := by simpa [Movement.run] using hc
    have hu : Aside w.db result := ha
    exact ⟨fun c hc => Or.inl (hu.changes ▸ hc), fun p hp => ⟨p, hu.payments ▸ hp, rfl⟩,
      hu.attempts, by rw [tariffs, hu.refunds, tariffs]⟩

-- A refund is priced when it is set up.
theorem prepare_priced (hp : Priced db) (h : Commits (prepare i) db x t) : Priced t := by
  simp only [prepare, commits_bind, commits_lockRequestGraph, commits_reject, commits_get,
    commits_orFail] at h
  obtain ⟨g, _, ⟨hg, rfl⟩, _, _, ⟨hok, rfl⟩, _, _, ⟨rfl, rfl⟩, a, _, ⟨ha, rfl⟩, h⟩ := h
  rw [not_or, not_not] at hok
  cases hx : recordedRefund? db g.request.id with
  | some existing =>
    simp only [hx, commits_pure] at h
    exact h.2 ▸ hp
  | none =>
    simp only [hx, commits_bind, commits_check, commits_orFail, commits_set, commits_pure] at h
    obtain ⟨charge, _, ⟨hcharge, rfl⟩, account, _, ⟨_, rfl⟩, reference, _, ⟨_, rfl⟩, _, _, rfl, rfl,
      rfl⟩ := h
    refine ⟨hp.requests, fun y hy => ?_, fun y hy => ?_⟩
    · rcases (Table.mem_insert).mp hy with hy | rfl
      · exact hp.positive y hy
      · exact hp.requests g.request (Table.find?_eq_some.mp hg.request).1 (by simpa using hok.2)
    · rcases (Table.mem_insert).mp hy with hy | rfl
      · obtain ⟨p, b, hpb⟩ := hp.priced y hy
        exact ⟨p, b, hpb.payment, hpb.own, hpb.attempt, hpb.charge⟩
      · exact ⟨g.payment, a, hg.payment_mem, rfl, ha, hcharge⟩

theorem start_priced {w w' : World} (hp : Priced w.db)
    (hc : Commits (GatewayRefunds.start held actor) w () w') : Priced w'.db := by
  simp only [GatewayRefunds.start, commits_bind, commits_leave, commits_get, commits_ite,
    commits_pure] at hc
  obtain ⟨_, _, ⟨hk, rfl⟩, _, _, ⟨rfl, rfl⟩, ⟨_, _, rfl⟩ | ⟨_, hc⟩⟩ := hc
  · exact hp
  · cases hid : held.providerRefundId with
    | some i =>
      simp only [hid, commits_enter] at hc
      exact hc ▸ hp
    | none =>
      simp only [hid, commits_bind, commits_onDb, commits_enter] at hc
      obtain ⟨marked, _, ⟨t, hstart, rfl⟩, rfl⟩ := hc
      exact priced_of_frozen hp
        (frozen_rewrites (commits_start hstart).1 (start_spares marked t hstart))

theorem send_priced {w w' : World} (hp : Priced w.db)
    (hc : Commits (send held remote actor) w () w') : Priced w'.db := by
  simp only [send, commits_bind, commits_leave, commits_get] at hc
  obtain ⟨_, _, ⟨hk, rfl⟩, _, _, ⟨rfl, rfl⟩, hc⟩ := hc
  split at hc
  · simp only [commits_enter] at hc
    exact hc ▸ hp
  · simp only [commits_bind, commits_set, commits_enter] at hc
    obtain ⟨_, _, rfl, rfl⟩ := hc
    exact hp

theorem settle_priced {w w' : World} (hp : Priced w.db)
    (hc : Commits (settle held remote actor) w () w') : Priced w'.db := by
  simp only [settle, commits_bind, commits_leave, commits_onDb] at hc
  obtain ⟨_, _, ⟨hk, rfl⟩, o, _, ⟨t, hans, rfl⟩, hc⟩ := hc
  have ht : Priced t := priced_of_frozen hp
    (frozen_rewrites (commits_answered hans) (answered_spares o t hans))
  cases o with
  | none =>
    simp only [commits_pure] at hc
    exact hc.2 ▸ ht
  | some i =>
    simp only [commits_enter] at hc
    exact hc ▸ ht

theorem claim_priced {w w' : World} (hp : Priced w.db)
    (hc : Commits (GatewayRefunds.claim i providerRefundId actor) w () w') : Priced w'.db := by
  simp only [GatewayRefunds.claim, commits_bind, commits_leave, commits_onDb] at hc
  obtain ⟨_, _, ⟨hk, rfl⟩, o, _, ⟨t, hclaim, rfl⟩, hc⟩ := hc
  have ht : Priced t := by
    rcases commits_claim hclaim with rfl | hw
    · exact hp
    · exact priced_of_frozen hp (frozen_rewrites hw (claim_spares o t hclaim))
  cases o with
  | none =>
    simp only [commits_pure] at hc
    exact hc.2 ▸ ht
  | some x =>
    simp only [commits_enter] at hc
    exact hc ▸ ht

theorem crash_priced {w w' : World} {k : Worker} {message : Option String} (hp : Priced w.db)
    (hc : Commits (GatewayRefunds.crash k message) w () w') : Priced w'.db := by
  simp only [GatewayRefunds.crash, commits_bind, commits_leave] at hc
  obtain ⟨_, _, ⟨_, rfl⟩, hc⟩ := hc
  cases message with
  | none =>
    simp only [commits_pure] at hc
    exact hc.2 ▸ hp
  | some m =>
    simp only [commits_onDb] at hc
    obtain ⟨t, hsave, rfl⟩ := hc
    have hw : Rewrites w.db t k.stage.refundId :=
      commits_saveRefund hsave fun _ => ⟨rfl, rfl, rfl, rfl, rfl⟩
    exact priced_of_frozen hp
      (frozen_rewrites hw (saveRefund_spares (f := failing m) (fun _ => rfl) () t hsave))

theorem step_priced {s : Step} {w w' : World} (hp : Priced w.db) (ha : s.Honest w)
    (hc : Commits s.run w () w') : Priced w'.db := by
  cases s with
  | movement m =>
    obtain ⟨t, hm, rfl⟩ := commits_onDb.mp hc
    exact priced_of_frozen hp (movement_frozen ha hm)
  | execute i actor =>
    have hexec : Commits (GatewayRefunds.execute i actor) w () w' := hc
    simp only [GatewayRefunds.execute, commits_bind, commits_onDb, commits_enter] at hexec
    obtain ⟨held, _, ⟨t, hprep, rfl⟩, rfl⟩ := hexec
    exact prepare_priced hp hprep
  | recover i j actor =>
    obtain rfl := commits_enter.mp hc
    exact hp
  | start held actor => exact start_priced hp hc
  | send held remote actor => exact send_priced hp hc
  | settle held remote actor => exact settle_priced hp hc
  | claim i j actor => exact claim_priced hp hc
  | finish x j remote actor =>
    have hfin : Commits (GatewayRefunds.finish x j remote actor) w () w' := hc
    simp only [GatewayRefunds.finish, commits_bind, commits_leave, commits_onDb] at hfin
    obtain ⟨_, _, ⟨hk, rfl⟩, t, hfinish, rfl⟩ := hfin
    exact priced_of_frozen hp (finish_frozen hfinish)
  | crash k message => exact crash_priced hp hc

end Steps

section Runs
variable {s w : World} {p : Payment} {a : PaymentAttempt} {x : ProviderRefund}

theorem charge_of_priced (hp : Priced w.db) (hc : Charged w.db p a)
    (hx : x ∈ w.db.providerRefunds.rows) (hs : Succeeded x p.id) :
    chargeAmount p a x.sourceAmountMinor = .ok x.chargeAmountMinor := by
  obtain ⟨q, b, hpx⟩ := hp.priced x hx
  obtain rfl : q = p := Table.eq_of_id hpx.payment hc.payment (hpx.own.trans hs.1)
  obtain rfl : b = a := Option.some.inj (hpx.attempt.symm.trans hc.attempt)
  exact hpx.charge

theorem conserved_iff_even (hp : Priced w.db) (hc : Charged w.db p a) :
    Conserved w.db p a ↔ Even w.db p a := by
  unfold Even
  split_ifs with hu
  · refine conserved_iff_whole hc.charge hc.amount rfl fun x hx hs => ?_
    have hcharge := charge_of_priced hp hc hx hs
    rw [chargeAmount, if_pos hu] at hcharge
    rw [charged, if_pos hu]
    exact (Except.ok.inj hcharge).symm
  · obtain ⟨hcur, hsource⟩ := hc.branch.resolve_left hu
    have hcharge := hc.charge
    rw [charged, if_neg hu] at hcharge
    refine conserved_iff_cancels hc.amount (if_neg hu) ?_
    rw [← refunded_mul, ← refunded_mul, ← refunded_add]
    refine refunded_congr fun x hx hs => ?_
    have hamount := charge_of_priced hp hc hx hs
    rw [chargeAmount, if_neg hu, if_neg hcur, if_neg (hsource ▸ hc.amount.ne')] at hamount
    rw [← Except.ok.inj hamount, ← hsource]
    exact halfUp_mul (mul_nonneg (hp.positive x hx).le hcharge.le) (hsource ▸ hc.amount)

theorem refunds_conserve_the_charge (hs : Fresh s.db) (h : Reaches Step.run Step.Honest s w)
    (hc : Charged w.db p a) : Conserved w.db p a ↔ Even w.db p a :=
  conserved_iff_even (h.invariant (I := fun u => Priced u.db) (priced_of_fresh hs)
    fun _ _ _ hp ha hstep => step_priced hp ha hstep) hc

end Runs

section Scenario

def convertedAttempt (chargeAmountMinor : ℤ) (i : ℕ) : PaymentAttempt :=
  { Outflow.attempt i with chargeAmountMinor := chargeAmountMinor, chargeCurrency := "ARS" }

def reviewedFunds (i : ℕ) : Payment :=
  { lateFunds i with
    metadata :=
      { paymentAttemptId := some 0
        unappliedDirectBookingFunds := true
        actualChargeAmountMinor := some 14500000
        actualChargeCurrency := some "ARS" } }

def appliedFunds (i : ℕ) : Payment := { lateFunds i with metadata := { paymentAttemptId := some 0 } }

theorem names_attempt (charge : ℤ) : Names (convertedAttempt charge) := fun _ => rfl

theorem names_reviewed : Names reviewedFunds := fun _ => rfl

theorem names_applied : Names appliedFunds := fun _ => rfl

def freeStay (i : ℕ) : Reservation := { LedgerRuns.stay i with subtotalMinor := 0, totalMinor := 0 }

theorem names_freeStay : Names freeStay := fun _ => rfl

-- Funds kept for review, and a payment applied to a stay that has become free of charge.
def reviewed : World :=
  { db :=
      { paid with
        paymentAttempts := Table.empty.insert (convertedAttempt 14500000) (names_attempt _)
        payments := Table.empty.insert reviewedFunds names_reviewed }
    outside := [] }

def applied : World :=
  { db :=
      { paid with
        reservations := Table.empty.insert freeStay names_freeStay
        paymentAttempts := Table.empty.insert (convertedAttempt 14500001) (names_attempt _)
        payments := Table.empty.insert appliedFunds names_applied }
    outside := [] }

def setUp (source charge : ℤ) (i : ℕ) : ProviderRefund :=
  { prepared source with
    id := i
    reservationChangeId := i
    chargeAmountMinor := charge
    chargeCurrency := "ARS"
    idempotencyKey := i }

def outgoing (source charge : ℤ) (i : ℕ) : ProviderRefund :=
  { setUp source charge i with state := .processing, attemptCount := 1 }

def repaid (reference : String) (charge : ℤ) : RemoteRefund :=
  { reply with id := reference, amountMinor := charge, currency := "ARS" }

def lookedUp (source charge : ℤ) (reference : String) (i : ℕ) : ProviderRefund :=
  { outgoing source charge i with providerRefundId := some reference, attemptCount := 2 }

-- A requested refund is carried out at the provider without a hitch.
def carriedOut (source charge : ℤ) (reference : String) (i : ℕ) : List Step :=
  [.execute i none, .start (setUp source charge i) none,
    .send (outgoing source charge i) (repaid reference charge) none,
    .settle (outgoing source charge i) (repaid reference charge) none, .claim i reference none,
    .finish (lookedUp source charge reference i) reference (repaid reference charge) none]

theorem fresh_reviewed : Fresh reviewed.db :=
  ⟨fun _ hc => absurd hc List.not_mem_nil, rfl⟩

theorem fresh_applied : Fresh applied.db :=
  ⟨fun _ hc => absurd hc List.not_mem_nil, rfl⟩

-- What a payment of 10000 looks like after refunds of a folio amount at a charge.
def tallied (w : World) (p : Payment) (a : PaymentAttempt) (source charge : ℤ) : Prop :=
  p ∈ w.db.payments.rows ∧ attemptOf? w.db p = some a ∧
    refunded w.db 0 ProviderRefund.sourceAmountMinor = source ∧
      refunded w.db 0 ProviderRefund.chargeAmountMinor = charge

instance (w : World) (p : Payment) (a : PaymentAttempt) (source charge : ℤ) :
    Decidable (tallied w p a source charge) :=
  inferInstanceAs (Decidable (_ ∧ _ ∧ _ ∧ _))

-- One part is rounded down and the other one up.
theorem uneven_parts_make_up_the_charge : ∃ (w : World) (p : Payment) (a : PaymentAttempt),
    Charged w.db p a ∧ refunded w.db p.id ProviderRefund.chargeAmountMinor = 14500001 ∧
      Conserved w.db p a ∧ Even w.db p a := by
  obtain ⟨w, hr, hp⟩ : ∃ w, Reaches Step.run Step.Honest applied w ∧
      decide (tallied w (exhausted (appliedFunds 0)) (convertedAttempt 14500001 0) 10000 14500001) =
        true :=
    Reaches.exists_of_execute (fun _ _ => honest_of_plainly)
      ([.movement (.request 0 0 4000 "Left early"), .movement (.request 0 0 6000 "Left early")] ++
        carriedOut 4000 5800000 "refund-0" 0 ++ carriedOut 6000 8700001 "refund-1" 1)
      (by decide +kernel)
  obtain ⟨hpay, hatt, hsource, hcharge⟩ := of_decide_eq_true hp
  have hc : Charged w.db (exhausted (appliedFunds 0)) (convertedAttempt 14500001 0) :=
    ⟨hpay, hatt, Or.inr ⟨by decide, rfl⟩, by decide, by decide⟩
  have hconserved : Conserved w.db (exhausted (appliedFunds 0)) (convertedAttempt 14500001 0) :=
    ⟨hcharge.le, fun _ => hsource, fun _ => hcharge⟩
  exact ⟨w, _, _, hc, hcharge, hconserved,
    (refunds_conserve_the_charge fresh_applied hr hc).mp hconserved⟩

-- A part of the reviewed funds takes the whole charge, and two halves of the applied payment more
-- than the charge.
theorem parts_refund_another_charge :
    (Fresh reviewed.db ∧ ∃ w p a, Reaches Step.run Step.Honest reviewed w ∧ Charged w.db p a ∧
      ¬ Conserved w.db p a) ∧
    (Fresh applied.db ∧ ∃ w p a, Reaches Step.run Step.Honest applied w ∧ Charged w.db p a ∧
      charged p a < refunded w.db p.id ProviderRefund.chargeAmountMinor) := by
  refine ⟨⟨fresh_reviewed, ?_⟩, ⟨fresh_applied, ?_⟩⟩
  · obtain ⟨w, hr, hp⟩ : ∃ w, Reaches Step.run Step.Honest reviewed w ∧
        decide (tallied w (reviewedFunds 0) (convertedAttempt 14500000 0) 6000 14500000) = true :=
      Reaches.exists_of_execute (fun _ _ => honest_of_plainly)
        (.movement (.request 0 0 6000 "Left early") :: carriedOut 6000 14500000 "refund-0" 0)
        (by decide +kernel)
    obtain ⟨hpay, hatt, hsource, hcharge⟩ := of_decide_eq_true hp
    refine ⟨w, _, _, hr, ⟨hpay, hatt, Or.inl rfl, by decide, by decide⟩, fun hconserved => ?_⟩
    have hfull : refunded w.db 0 ProviderRefund.sourceAmountMinor = 10000 :=
      hconserved.2.mp hcharge
    omega
  · obtain ⟨w, hr, hp⟩ : ∃ w, Reaches Step.run Step.Honest applied w ∧
        decide (tallied w (exhausted (appliedFunds 0)) (convertedAttempt 14500001 0) 10000
          14500002) = true :=
      Reaches.exists_of_execute (fun _ _ => honest_of_plainly)
        ([.movement (.request 0 0 5000 "Left early"), .movement (.request 0 0 5000 "Left early")] ++
          carriedOut 5000 7250001 "refund-0" 0 ++ carriedOut 5000 7250001 "refund-1" 1)
        (by decide +kernel)
    obtain ⟨hpay, hatt, hsource, hcharge⟩ := of_decide_eq_true hp
    refine ⟨w, _, _, hr, ⟨hpay, hatt, Or.inr ⟨by decide, rfl⟩, by decide, by decide⟩, ?_⟩
    exact lt_of_lt_of_eq (by decide) hcharge.symm

end Scenario
end RefundedCharges
