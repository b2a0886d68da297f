import LodgeOps.DirectBooking.ManualReview
import LodgeOps.Booking.ProvisionedDeposits
import LodgeOps.Store.Evolution

namespace PublicHolds
open Schema Transaction DirectBookingStateMachine DirectBookingOrderState
open DirectBookingTransitionAuthority

section Holds

-- The states in which an order has a hold that is not settled yet.
def active : DirectBookingOrderState → Bool
  | held | paymentPending | awaitingManualPayment | evidencePending | financeReview
  | paymentFailed | evidenceRejected => true
  | _ => false

def fresh : DirectBookingOrderState → Bool
  | started | quoted => true
  | _ => false

structure Unlinked (o : DirectBookingOrder) : Prop where
  hold : o.holdExpiresAt = none
  request : o.paymentRequestId = none

def Bounded (db : Database) (o : DirectBookingOrder) : Prop :=
  ∀ e, o.holdExpiresAt = some e → ∃ b g, o.heldAt = some b ∧
    db.settings o.propertyId = some g ∧ e ≤ b + 60 * g.maximumHoldMinutes

structure Agreed (db : Database) (o : DirectBookingOrder) (e : ℤ) : Prop where
  order : o.holdExpiresAt = some e
  reservation : ∀ r, o.reservationId.bind db.reservation? = some r → r.status = .hold →
    r.holdExpiresAt = some e
  request : ∀ q, o.paymentRequestId.bind db.paymentRequests.find? = some q → q.expiresAt = e

structure Sound (db : Database) : Prop where
  settings : ∀ p g, db.settings p = some g → g.initialHoldMinutes ≤ g.maximumHoldMinutes
  bounded : ∀ i o, db.orders.find? i = some o → Bounded db o
  agreed : ∀ i o, db.orders.find? i = some o → active o.state = true → ∃ e, Agreed db o e
  unlinked : ∀ i o, db.orders.find? i = some o → fresh o.state = true → Unlinked o
  reservations : ∀ i o, db.orders.find? i = some o → ∀ j ∈ o.reservationId,
    j < db.reservations.next
  requests : ∀ i o, db.orders.find? i = some o → ∀ j ∈ o.paymentRequestId,
    j < db.paymentRequests.next
  apart : ∀ i k o v, db.orders.find? i = some o → db.orders.find? k = some v →
    ∀ j, o.reservationId = some j → v.reservationId = some j → i = k
  distinct : ∀ i k o v, db.orders.find? i = some o → db.orders.find? k = some v →
    ∀ j, o.paymentRequestId = some j → v.paymentRequestId = some j → i = k

-- How the hold of one order may go on.
structure Advances (o o' : DirectBookingOrder) : Prop where
  later : ∀ e, o.holdExpiresAt = some e → ∃ e', o'.holdExpiresAt = some e' ∧ e ≤ e'
  once : o.holdExtendedAt ≠ none → o'.holdExtendedAt = o.holdExtendedAt ∧
    (o.holdExpiresAt ≠ none → o'.holdExpiresAt = o.holdExpiresAt)
  marked : o.holdExpiresAt ≠ none → o'.holdExpiresAt ≠ o.holdExpiresAt →
    o.holdExtendedAt = none ∧ o'.holdExtendedAt ≠ none

instance : Std.Refl Advances where
  refl _ := ⟨fun e he => ⟨e, he, le_rfl⟩, fun _ => ⟨rfl, fun _ => rfl⟩, fun _ h => absurd rfl h⟩

instance : IsTrans DirectBookingOrder Advances where
  trans o v w h h' := by
    refine ⟨fun e he => ?_, fun hx => ?_, fun hx hne => ?_⟩
    · obtain ⟨e', he', hle⟩ := h.later e he
      obtain ⟨e'', he'', hle'⟩ := h'.later e' he'
      exact ⟨e'', he'', hle.trans hle'⟩
    · obtain ⟨hm, hk⟩ := h.once hx
      obtain ⟨hm', hk'⟩ := h'.once (hm ▸ hx)
      refine ⟨hm'.trans hm, fun ho => ?_⟩
      have hv := hk ho
      exact (hk' (hv ▸ ho)).trans hv
    · by_cases hv : v.holdExpiresAt = o.holdExpiresAt
      · obtain ⟨hn, hs⟩ := h'.marked (hv ▸ hx) (hv ▸ hne)
        refine ⟨?_, hs⟩
        by_contra ho
        exact ho ((h.once ho).1 ▸ hn)
      · obtain ⟨hn, hs⟩ := h.marked hx hv
        exact ⟨hn, (h'.once hs).1 ▸ hs⟩

def Forward (db t : Database) : Prop :=
  ∀ i o, db.orders.find? i = some o → ∃ o', t.orders.find? i = some o' ∧ Advances o o'

-- A part of a transaction that keeps the holds as they must be, and takes none back.
def Advance (db t : Database) : Prop := Sound db → Sound t ∧ Forward db t

instance : Std.Refl Advance where
  refl _ h := ⟨h, fun _ o ho => ⟨o, ho, Std.Refl.refl o⟩⟩

instance : IsTrans Database Advance where
  trans s t u h h' hs := by
    obtain ⟨ht, hf⟩ := h hs
    obtain ⟨hu, hf'⟩ := h' ht
    refine ⟨hu, fun i o ho => ?_⟩
    obtain ⟨v, hv, hov⟩ := hf i o ho
    obtain ⟨w, hw, hvw⟩ := hf' i v hv
    exact ⟨w, hw, IsTrans.trans _ _ _ hov hvw⟩

end Holds

section Quiet

-- An order that goes on without touching its hold.
structure Calm (o o' : DirectBookingOrder) : Prop where
  property : o'.propertyId = o.propertyId
  heldAt : o'.heldAt = o.heldAt
  expiry : o'.holdExpiresAt = o.holdExpiresAt
  extended : o'.holdExtendedAt = o.holdExtendedAt
  reservation : o'.reservationId = o.reservationId
  request : o'.paymentRequestId = o.paymentRequestId ∨ o'.paymentRequestId = none
  active : active o'.state = true → active o.state = true
  fresh : fresh o'.state = true → fresh o.state = true ∨ Unlinked o'

instance : Std.Refl Calm where
  refl _ := ⟨rfl, rfl, rfl, rfl, rfl, Or.inl rfl, id, Or.inl⟩

theorem Calm.unlinked {o o' : DirectBookingOrder} (h : Calm o o') (ho : Unlinked o) : Unlinked o' where
  hold := h.expiry.trans ho.hold
  request := h.request.elim (fun he => he.trans ho.request) id

instance : IsTrans DirectBookingOrder Calm where
  trans o v w h h' := by
    refine ⟨h'.property.trans h.property, h'.heldAt.trans h.heldAt, h'.expiry.trans h.expiry,
      h'.extended.trans h.extended, h'.reservation.trans h.reservation, ?_,
      fun hw => h.active (h'.active hw), fun hw => ?_⟩
    · rcases h'.request with he | hn
      · exact he ▸ h.request
      · exact Or.inr hn
    · rcases h'.fresh hw with hv | hu
      · exact (h.fresh hv).imp id h'.unlinked
      · exact Or.inr hu

theorem Calm.advances {o o' : DirectBookingOrder} (h : Calm o o') : Advances o o' :=
  ⟨fun e he => ⟨e, h.expiry.trans he, le_rfl⟩, fun _ => ⟨h.extended, fun _ => h.expiry⟩,
    fun _ hne => absurd h.expiry hne⟩

structure Blank (o : DirectBookingOrder) : Prop extends Unlinked o where
  reservation : o.reservationId = none
  inactive : active o.state = false

theorem blank_calm (o o' : DirectBookingOrder) (ho : Blank o) (h : Calm o o') : Blank o' where
  toUnlinked := h.unlinked ho.toUnlinked
  reservation := h.reservation.trans ho.reservation
  inactive := by
    by_contra hc
    have hact := h.active (by simpa using hc)
    simp [ho.inactive] at hact

-- A reservation keeps its hold as it is, or gives it up.
def Standing (r r' : Reservation) : Prop :=
  r'.status = .hold → r.status = .hold ∧ r'.holdExpiresAt = r.holdExpiresAt

instance : Std.Refl Standing where
  refl _ h := ⟨h, rfl⟩

instance : IsTrans Reservation Standing where
  trans r s v h h' hv := by
    obtain ⟨hs, he⟩ := h' hv
    obtain ⟨hr, he'⟩ := h hs
    exact ⟨hr, he.trans he'⟩

def SameExpiry (q q' : PaymentRequest) : Prop := q'.expiresAt = q.expiresAt

instance : Std.Refl SameExpiry where
  refl _ := rfl

instance : IsTrans PaymentRequest SameExpiry where
  trans _ _ _ h h' := Eq.trans h' h

def Linked (db : Database) (k : ℕ) : Prop :=
  ∃ i o, db.orders.find? i = some o ∧ o.reservationId = some k

-- The reservations of the orders keep their holds or give them up.
structure Stands (db t : Database) : Prop where
  next : db.reservations.next ≤ t.reservations.next
  row : ∀ k < db.reservations.next, Linked db k → ∀ r', t.reservation? k = some r' →
    ∃ r, db.reservation? k = some r ∧ Standing r r'

theorem Stands.of_evolves {db t : Database}
    (h : Table.Evolves Standing (fun _ => True) db.reservations t.reservations) : Stands db t :=
  ⟨h.next, fun _ hk _ _ hr => h.old hr hk⟩

theorem Stands.of_eq {db t : Database} (h : t.reservations = db.reservations) : Stands db t :=
  .of_evolves (.of_eq h)

theorem Stands.trans {db t u : Database} (h : Stands db t) (h' : Stands t u)
    (ho : ∀ k, Linked db k → Linked t k) : Stands db u := by
  refine ⟨h.next.trans h'.next, fun k hk hl r hr => ?_⟩
  obtain ⟨s, hs, hsr⟩ := h'.row k (hk.trans_le h.next) (ho k hl) r hr
  obtain ⟨v, hv, hvs⟩ := h.row k hk hl s hs
  exact ⟨v, hv, IsTrans.trans _ _ _ hvs hsr⟩

structure Quiet (db t : Database) : Prop where
  settings : t.settings = db.settings
  orders : Table.Evolves Calm Blank db.orders t.orders
  reservations : Stands db t
  requests : Table.Evolves SameExpiry (fun _ => True) db.paymentRequests t.paymentRequests

instance : Std.Refl Quiet where
  refl _ := ⟨rfl, .refl, .of_eq rfl, .refl⟩

theorem Quiet.linked {db t : Database} (h : Quiet db t) (k : ℕ) : Linked db k → Linked t k := by
  rintro ⟨i, o, ho, hk⟩
  obtain ⟨o', ho', hc⟩ := h.orders.kept i o ho
  exact ⟨i, o', ho', hc.reservation.trans hk⟩

instance : IsTrans Database Quiet where
  trans _ _ _ h h' := ⟨h'.settings.trans h.settings, h.orders.trans blank_calm h'.orders,
    h.reservations.trans h'.reservations h.linked,
    h.requests.trans (fun _ _ _ _ => trivial) h'.requests⟩

variable {db t : Database} {o o' : DirectBookingOrder} {i : ℕ} {e : ℤ}

theorem Quiet.agreed (h : Quiet db t) (ho : db.orders.find? i = some o) (hc : Calm o o')
    (ha : Agreed db o e)
    (hr : ∀ j ∈ o.reservationId, j < db.reservations.next)
    (hq : ∀ j ∈ o.paymentRequestId, j < db.paymentRequests.next) : Agreed t o' e := by
  refine ⟨hc.expiry.trans ha.order, fun r' hr' hs => ?_, fun q' hq' => ?_⟩
  · rw [hc.reservation] at hr'
    obtain ⟨j, hj, hfind⟩ := Option.bind_eq_some_iff.mp hr'
    obtain ⟨r, hrow, hstand⟩ := h.reservations.row j (hr j hj) ⟨i, o, ho, hj⟩ r' hfind
    obtain ⟨hs', he⟩ := hstand hs
    exact he.trans (ha.reservation r (Option.bind_eq_some_iff.mpr ⟨j, hj, hrow⟩) hs')
  · obtain ⟨j, hj, hfind⟩ := Option.bind_eq_some_iff.mp hq'
    rcases hc.request with he | hn
    · rw [he] at hj
      obtain ⟨q, hrow, hsame⟩ := h.requests.old hfind (hq j hj)
      exact hsame.trans (ha.request q (Option.bind_eq_some_iff.mpr ⟨j, hj, hrow⟩))
    · rw [hn] at hj
      cases hj

theorem Quiet.advance (h : Quiet db t) : Advance db t := by
  intro hs
  have hrow : ∀ i o', t.orders.find? i = some o' →
      (∃ o, db.orders.find? i = some o ∧ Calm o o') ∨ Blank o' :=
    fun i o' ho => (h.orders.row ho).imp id And.right
  refine ⟨⟨?_, ?_, ?_, ?_, ?_, ?_, ?_, ?_⟩, fun i o ho => ?_⟩
  · rw [h.settings]
    exact hs.settings
  · intro i o' ho e he
    rcases hrow i o' ho with ⟨o, hold, hc⟩ | hb
    · obtain ⟨b, g, hb, hg, hle⟩ := hs.bounded i o hold e (hc.expiry.symm.trans he)
      exact ⟨b, g, hc.heldAt.trans hb, by rw [h.settings, hc.property, hg], hle⟩
    · simp [hb.hold] at he
  · intro i o' ho hact
    rcases hrow i o' ho with ⟨o, hold, hc⟩ | hb
    · obtain ⟨e, ha⟩ := hs.agreed i o hold (hc.active hact)
      exact ⟨e, h.agreed hold hc ha (hs.reservations i o hold) (hs.requests i o hold)⟩
    · simp [hb.inactive] at hact
  · intro i o' ho hf
    rcases hrow i o' ho with ⟨o, hold, hc⟩ | hb
    · rcases hc.fresh hf with hfo | hu
      · exact hc.unlinked (hs.unlinked i o hold hfo)
      · exact hu
    · exact hb.toUnlinked
  · intro i o' ho j hj
    rcases hrow i o' ho with ⟨o, hold, hc⟩ | hb
    · rw [hc.reservation] at hj
      exact (hs.reservations i o hold j hj).trans_le h.reservations.next
    · rw [hb.reservation] at hj
      cases hj
  · intro i o' ho j hj
    rcases hrow i o' ho with ⟨o, hold, hc⟩ | hb
    · rcases hc.request with he | hn
      · rw [he] at hj
        exact (hs.requests i o hold j hj).trans_le h.requests.next
      · rw [hn] at hj
        cases hj
    · rw [hb.request] at hj
      cases hj
  · intro i k o' v' ho hv j hj hj'
    rcases hrow i o' ho with ⟨o, hold, hc⟩ | hb
    · rcases hrow k v' hv with ⟨v, hvold, hcv⟩ | hbv
      · exact hs.apart i k o v hold hvold j (hc.reservation.symm.trans hj)
          (hcv.reservation.symm.trans hj')
      · simp [hbv.reservation] at hj'
    · simp [hb.reservation] at hj
  · intro i k o' v' ho hv j hj hj'
    rcases hrow i o' ho with ⟨o, hold, hc⟩ | hb
    · rcases hrow k v' hv with ⟨v, hvold, hcv⟩ | hbv
      · refine hs.distinct i k o v hold hvold j ?_ ?_
        · exact hc.request.elim (fun he => he.symm.trans hj) fun hn => by simp [hn] at hj
        · exact hcv.request.elim (fun he => he.symm.trans hj') fun hn => by simp [hn] at hj'
      · simp [hbv.request] at hj'
    · simp [hb.request] at hj
  · obtain ⟨o', ho', hc⟩ := h.orders.kept i o ho
    exact ⟨o', ho', hc.advances⟩

-- What bears on the holds.
def holds (db : Database) : (ℕ → Option DirectBookingPropertySetting) × Table DirectBookingOrder ×
    Table Reservation × Table PaymentRequest :=
  (db.settings, db.orders, db.reservations, db.paymentRequests)

theorem quiet_of_eq (h : holds t = holds db) : Quiet db t := by
  simp only [holds, Prod.mk.injEq] at h
  exact ⟨h.1, .of_eq h.2.1, .of_eq h.2.2.1, .of_eq h.2.2.2⟩

theorem quiet_of_spares {α : Type} {x : Tx α} (h : Spares holds x db) : Moves Quiet x db :=
  fun a _ hc => quiet_of_eq (h.eq (a := a) hc)

theorem advance_of_quiet {α : Type} {x : Tx α} (h : Moves Quiet x db) : Moves Advance x db :=
  fun a s hc => (h a s hc).advance

end Quiet

section Transitions
variable {db t u : Database} {o : DirectBookingOrder} {next : DirectBookingOrderState}
variable {authority : DirectBookingTransitionAuthority} {identity : String}
variable {metadata : SafeMetadata} {a : Adjustment} {res : TransitionResult} {i : ℕ} {version : ℤ}

theorem stays_active {s n : DirectBookingOrderState} (h : authorized s n authority = true)
    (hn : n ≠ held) (ha : active n = true) : active s = true := by
  have hm : (n, authority) ∈ transitions s := by simpa [authorized] using h
  cases n with
  | held => exact absurd rfl hn
  | paymentPending | awaitingManualPayment | evidencePending | financeReview | paymentFailed
  | evidenceRejected => cases s <;> simp_all [transitions, active]
  | _ => simp [active] at ha

theorem stays_fresh {s n : DirectBookingOrderState} (h : authorized s n authority = true)
    (hn : fresh n = true) : fresh s = true ∨ n = started := by
  have hm : (n, authority) ∈ transitions s := by simpa [authorized] using h
  cases n with
  | started => exact Or.inr rfl
  | quoted => cases s <;> simp_all [transitions, fresh]
  | _ => simp [fresh] at hn

theorem commits_transition_move
    (h : Commits (transition i next authority version identity metadata) db res u) :
    ∃ o, db.orders.find? i = some o ∧ ((u = db ∧ event? db i identity ≠ none) ∨
      (o.stateVersion = version ∧ authorized o.state next authority = true ∧
        Commits (move o next authority identity metadata) db res u)) := by
  simp only [transition, commits_bind, commits_reject, commits_check, commits_lockedOrder,
    commits_get] at h
  obtain ⟨_, _, ⟨_, rfl⟩, _, _, ⟨_, rfl⟩, o, _, ⟨ho, rfl⟩, _, _, ⟨rfl, rfl⟩, h⟩ := h
  have hid : o.id = i := (Table.find?_eq_some.mp ho).2
  refine ⟨o, ho, ?_⟩
  cases hx : event? db o.id identity with
  | some existing =>
    simp only [hx, commits_bind, commits_reject, commits_pure] at h
    obtain ⟨_, _, ⟨_, rfl⟩, _, rfl⟩ := h
    exact Or.inl ⟨rfl, by rw [← hid, hx]; simp⟩
  | none =>
    simp only [hx, commits_bind, commits_reject] at h
    obtain ⟨_, _, ⟨hv, rfl⟩, _, _, ⟨_, rfl⟩, _, _, ⟨he, rfl⟩, hmove⟩ := h
    exact Or.inr ⟨not_not.mp hv, by simpa using he, hmove⟩

structure Moved (db u : Database) (o : DirectBookingOrder) (next : DirectBookingOrderState)
    (a : Adjustment) (t : Database) : Prop where
  orders : Table.Updates t.orders u.orders o.id (moved next (o.stateVersion + 1) t.clock a)
  frame : u = { t with orders := u.orders, orderEvents := u.orderEvents }

theorem commits_move_adjusted (h : Commits (move o next authority identity metadata) db res u) :
    ∃ a t, Commits (adjustment o next metadata) db a t ∧ Moved db u o next a t := by
  simp only [move, commits_bind, commits_get, commits_set, commits_pure] at h
  obtain ⟨a, t, hadj, _, _, ⟨rfl, rfl⟩, _, u, rfl, rfl, rfl⟩ := h
  exact ⟨a, t, hadj, Table.updates_update (keeps_moved _ _ _ _), rfl⟩

theorem commits_plain_adjustment (hh : next ≠ held)
    (hx : ¬ (o.state = paymentPending ∧ next = paymentPending))
    (h : Commits (adjustment o next metadata) db a t) :
    t = db ∧ a.holdExpiresAt = none ∧ a.holdExtendedAt = none := by
  simp only [adjustment, commits_ite, hh, hx, false_and, not_false_eq_true, true_and,
    false_or] at h
  rcases h with ⟨_, h⟩ | ⟨_, h⟩
  · simp only [quoteAdjustment, commits_bind, commits_get, commits_orFail, commits_reject,
      commits_pure] at h
    obtain ⟨_, _, ⟨rfl, rfl⟩, _, _, ⟨_, rfl⟩, _, _, ⟨_, rfl⟩, rfl, rfl⟩ := h
    exact ⟨rfl, rfl, rfl⟩
  · obtain ⟨rfl, rfl⟩ := commits_pure.mp h
    exact ⟨rfl, rfl, rfl⟩

theorem heldAt_stamped (hh : next ≠ held) {now : ℤ} : (stamped next now o).heldAt = o.heldAt := by
  cases next <;> first | rfl | exact absurd rfl hh

theorem calm_moved {now v : ℤ} (he : authorized o.state next authority = true) (hh : next ≠ held)
    (hs : next = started → Unlinked o) (ha : a.holdExpiresAt = none)
    (hx : a.holdExtendedAt = none) : Calm o (moved next v now a o) := by
  have hexp : (moved next v now a o).holdExpiresAt = o.holdExpiresAt := by simp [moved, ha]
  have hreq : (moved next v now a o).paymentRequestId = o.paymentRequestId := by
    cases next <;> rfl
  refine ⟨?_, heldAt_stamped hh, hexp, by simp [moved, hx], ?_, Or.inl hreq,
    fun hact => stays_active he hh hact, fun hf => ?_⟩
  · cases next <;> rfl
  · cases next <;> rfl
  · refine (stays_fresh he hf).imp id fun hn => ?_
    exact ⟨hexp.trans (hs hn).hold, hreq.trans (hs hn).request⟩

theorem quiet_move (he : authorized o.state next authority = true) (hh : next ≠ held)
    (hx : ¬ (o.state = paymentPending ∧ next = paymentPending)) (hs : next = started → Unlinked o)
    (ho : db.orders.find? i = some o)
    (h : Commits (move o next authority identity metadata) db res u) : Quiet db u := by
  obtain ⟨a, t, hadj, hm⟩ := commits_move_adjusted h
  obtain ⟨rfl, ha, hx⟩ := commits_plain_adjustment hh hx hadj
  have hid : o.id = i := (Table.find?_eq_some.mp ho).2
  refine ⟨by rw [hm.frame], Table.Evolves.updates hm.orders fun r hr => ?_,
    .of_eq (by rw [hm.frame]), .of_eq (by rw [hm.frame])⟩
  rw [hid, ho] at hr
  obtain rfl := Option.some.inj hr
  exact calm_moved he hh hs ha hx

-- A transition that neither takes a hold nor reopens a session nor asks for a payment.
theorem quiet_transition (hh : next ≠ held) (hp : next ≠ paymentPending)
    (hs : next = started → ∀ o, db.orders.find? i = some o → Unlinked o) :
    Moves Quiet (transition i next authority version identity metadata) db := by
  intro res u h
  obtain ⟨o, ho, ⟨rfl, _⟩ | ⟨_, he, hmove⟩⟩ := commits_transition_move h
  · exact Std.Refl.refl _
  · exact quiet_move he hh (fun hc => hp hc.2) (fun hn => hs hn o ho) ho hmove

end Transitions
section Rehold
variable {db u : Database} {o o' : DirectBookingOrder} {i : ℕ} {e : ℤ}

-- One order takes a hold, extends it, or asks anew for its payment; no other order is touched.
structure Rehold (db u : Database) (i : ℕ) (o o' : DirectBookingOrder) (e : ℤ) : Prop where
  settings : u.settings = db.settings
  row : db.orders.find? i = some o
  orders : ∀ k, u.orders.find? k = if k = i then some o' else db.orders.find? k
  property : o'.propertyId = o.propertyId
  expiry : o'.holdExpiresAt = some e
  bounded : ∃ b g, o'.heldAt = some b ∧ db.settings o.propertyId = some g ∧
    e ≤ b + 60 * g.maximumHoldMinutes
  held : fresh o'.state = false
  reservationNext : db.reservations.next ≤ u.reservations.next
  requestNext : db.paymentRequests.next ≤ u.paymentRequests.next
  reservations : ∀ k r', u.reservation? k = some r' → r'.status = .hold →
    (o'.reservationId = some k ∧ r'.holdExpiresAt = some e) ∨
      ∃ r, db.reservation? k = some r ∧ o'.reservationId ≠ some k ∧ Standing r r'
  requests : ∀ k q', u.paymentRequests.find? k = some q' →
    (o'.paymentRequestId = some k ∧ q'.expiresAt = e) ∨
      ∃ q, db.paymentRequests.find? k = some q ∧ o'.paymentRequestId ≠ some k ∧ SameExpiry q q'
  reservation : o'.reservationId = o.reservationId ∨ ∃ j, o'.reservationId = some j ∧
    db.reservations.next ≤ j ∧ j < u.reservations.next
  request : o'.paymentRequestId = o.paymentRequestId ∨ ∃ j, o'.paymentRequestId = some j ∧
    db.paymentRequests.next ≤ j ∧ j < u.paymentRequests.next

namespace Rehold
variable (h : Rehold db u i o o' e) (hs : Sound db)
include h

theorem cases {k : ℕ} {v : DirectBookingOrder} (hv : u.orders.find? k = some v) :
    (k = i ∧ v = o') ∨ (k ≠ i ∧ db.orders.find? k = some v) := by
  rw [h.orders] at hv
  split_ifs at hv with hk
  · exact Or.inl ⟨hk, (Option.some.inj hv).symm⟩
  · exact Or.inr ⟨hk, hv⟩

theorem agreed_self : Agreed u o' e := by
  refine ⟨h.expiry, fun r hr hst => ?_, fun q hq => ?_⟩
  · obtain ⟨j, hj, hfind⟩ := Option.bind_eq_some_iff.mp hr
    rcases h.reservations j r hfind hst with ⟨_, he⟩ | ⟨_, _, hne, _⟩
    · exact he
    · exact absurd hj hne
  · obtain ⟨j, hj, hfind⟩ := Option.bind_eq_some_iff.mp hq
    rcases h.requests j q hfind with ⟨_, he⟩ | ⟨_, _, hne, _⟩
    · exact he
    · exact absurd hj hne

include hs

theorem reservation_apart {k j : ℕ} {v : DirectBookingOrder} (hk : k ≠ i)
    (hv : db.orders.find? k = some v) (hj : v.reservationId = some j) :
    o'.reservationId ≠ some j := by
  intro ho
  rcases h.reservation with he | ⟨j', hj', hle, _⟩
  · exact hk (hs.apart k i v o hv h.row j hj (he ▸ ho))
  · have hlt := hs.reservations k v hv j hj
    obtain rfl := Option.some.inj (hj'.symm.trans ho)
    omega

theorem request_apart {k j : ℕ} {v : DirectBookingOrder} (hk : k ≠ i)
    (hv : db.orders.find? k = some v) (hj : v.paymentRequestId = some j) :
    o'.paymentRequestId ≠ some j := by
  intro ho
  rcases h.request with he | ⟨j', hj', hle, _⟩
  · exact hk (hs.distinct k i v o hv h.row j hj (he ▸ ho))
  · have hlt := hs.requests k v hv j hj
    obtain rfl := Option.some.inj (hj'.symm.trans ho)
    omega

theorem agreed_other {k : ℕ} {v : DirectBookingOrder} {e' : ℤ} (hk : k ≠ i)
    (hv : db.orders.find? k = some v) (ha : Agreed db v e') : Agreed u v e' := by
  refine ⟨ha.order, fun r hr hst => ?_, fun q hq => ?_⟩
  · obtain ⟨j, hj, hfind⟩ := Option.bind_eq_some_iff.mp hr
    rcases h.reservations j r hfind hst with ⟨ho, _⟩ | ⟨s, hrow, _, hstand⟩
    · exact absurd ho (h.reservation_apart hs hk hv hj)
    · obtain ⟨hst', he⟩ := hstand hst
      exact he.trans (ha.reservation s (Option.bind_eq_some_iff.mpr ⟨j, hj, hrow⟩) hst')
  · obtain ⟨j, hj, hfind⟩ := Option.bind_eq_some_iff.mp hq
    rcases h.requests j q hfind with ⟨ho, _⟩ | ⟨s, hrow, _, hsame⟩
    · exact absurd ho (h.request_apart hs hk hv hj)
    · exact hsame.trans (ha.request s (Option.bind_eq_some_iff.mpr ⟨j, hj, hrow⟩))

theorem sound : Sound u := by
  refine ⟨?_, ?_, ?_, ?_, ?_, ?_, ?_, ?_⟩
  · rw [h.settings]
    exact hs.settings
  · intro k v hv e' he
    rcases h.cases hv with ⟨_, rfl⟩ | ⟨_, hv⟩
    · obtain rfl := Option.some.inj (h.expiry.symm.trans he)
      obtain ⟨b, g, hb, hg, hle⟩ := h.bounded
      exact ⟨b, g, hb, by rw [h.settings, h.property, hg], hle⟩
    · obtain ⟨b, g, hb, hg, hle⟩ := hs.bounded k v hv e' he
      exact ⟨b, g, hb, by rw [h.settings, hg], hle⟩
  · intro k v hv hact
    rcases h.cases hv with ⟨_, rfl⟩ | ⟨hk, hv⟩
    · exact ⟨e, h.agreed_self⟩
    · obtain ⟨e', ha⟩ := hs.agreed k v hv hact
      exact ⟨e', h.agreed_other hs hk hv ha⟩
  · intro k v hv hf
    rcases h.cases hv with ⟨_, rfl⟩ | ⟨_, hv⟩
    · simp [h.held] at hf
    · exact hs.unlinked k v hv hf
  · intro k v hv j hj
    rcases h.cases hv with ⟨_, rfl⟩ | ⟨_, hv⟩
    · rcases h.reservation with he | ⟨j', hj', _, hlt⟩
      · exact (hs.reservations i o h.row j (he ▸ hj)).trans_le h.reservationNext
      · obtain rfl := Option.some.inj (hj'.symm.trans hj)
        exact hlt
    · exact (hs.reservations k v hv j hj).trans_le h.reservationNext
  · intro k v hv j hj
    rcases h.cases hv with ⟨_, rfl⟩ | ⟨_, hv⟩
    · rcases h.request with he | ⟨j', hj', _, hlt⟩
      · exact (hs.requests i o h.row j (he ▸ hj)).trans_le h.requestNext
      · obtain rfl := Option.some.inj (hj'.symm.trans hj)
        exact hlt
    · exact (hs.requests k v hv j hj).trans_le h.requestNext
  · intro k l v w hv hw j hj hj'
    rcases h.cases hv with ⟨rfl, rfl⟩ | ⟨hk, hv⟩
    · rcases h.cases hw with ⟨rfl, _⟩ | ⟨hl, hw⟩
      · rfl
      · exact absurd hj (h.reservation_apart hs hl hw hj')
    · rcases h.cases hw with ⟨rfl, rfl⟩ | ⟨_, hw⟩
      · exact absurd hj' (h.reservation_apart hs hk hv hj)
      · exact hs.apart k l v w hv hw j hj hj'
  · intro k l v w hv hw j hj hj'
    rcases h.cases hv with ⟨rfl, rfl⟩ | ⟨hk, hv⟩
    · rcases h.cases hw with ⟨rfl, _⟩ | ⟨hl, hw⟩
      · rfl
      · exact absurd hj (h.request_apart hs hl hw hj')
    · rcases h.cases hw with ⟨rfl, rfl⟩ | ⟨_, hw⟩
      · exact absurd hj' (h.request_apart hs hk hv hj)
      · exact hs.distinct k l v w hv hw j hj hj'

omit hs

theorem advance (ha : Advances o o') : Advance db u := by
  refine fun hs => ⟨h.sound hs, fun k v hv => ?_⟩
  by_cases hk : k = i
  · subst hk
    obtain rfl := Option.some.inj (h.row.symm.trans hv)
    exact ⟨o', by rw [h.orders, if_pos rfl], ha⟩
  · exact ⟨v, by rw [h.orders, if_neg hk, hv], Std.Refl.refl v⟩

end Rehold
end Rehold
section Extensions
variable {db t u : Database} {o : DirectBookingOrder} {next : DirectBookingOrderState}
variable {authority : DirectBookingTransitionAuthority} {identity : String}
variable {metadata : SafeMetadata} {a : Adjustment} {res : TransitionResult} {i : ℕ} {version e : ℤ}

theorem keeps_payable (e : ℤ) : Keeps (payableUntil e) := fun _ => rfl

def extendedRequests (db : Database) (o : DirectBookingOrder) (e : ℤ) : Table PaymentRequest :=
  match o.paymentRequestId with
  | none => db.paymentRequests
  | some i => db.paymentRequests.update i (payableUntil e) (keeps_payable e)

theorem extended_request {k : ℕ} {q : PaymentRequest}
    (h : (extendedRequests db o e).find? k = some q) :
    (o.paymentRequestId = some k ∧ q.expiresAt = e) ∨
      (db.paymentRequests.find? k = some q ∧ o.paymentRequestId ≠ some k) := by
  unfold extendedRequests at h
  cases hl : o.paymentRequestId with
  | none =>
    rw [hl] at h
    exact Or.inr ⟨h, by simp⟩
  | some l =>
    simp only [hl] at h
    rw [Table.find?_update (keeps_payable e)] at h
    split_ifs at h with hk
    · obtain ⟨p, _, rfl⟩ := Option.map_eq_some_iff.mp h
      exact Or.inl ⟨by rw [hk], rfl⟩
    · exact Or.inr ⟨h, fun hc => hk (Option.some.inj hc).symm⟩

theorem commits_extendRequest (h : Commits (extendRequest o e) db () t) :
    t = { db with paymentRequests := extendedRequests db o e } := by
  unfold extendRequest at h
  unfold extendedRequests
  cases hq : o.paymentRequestId with
  | none =>
    simp only [hq, commits_pure] at h
    rw [← h.2]
  | some i =>
    simp only [hq, commits_bind, commits_get, commits_orFail, commits_set] at h
    obtain ⟨_, _, ⟨rfl, rfl⟩, q, _, ⟨hfind, rfl⟩, rfl⟩ := h
    have hid : q.id = i := (Table.find?_eq_some.mp hfind).2
    rw [hid]

-- The hold of the order before and after its one extension.
structure Extends (db t : Database) (o : DirectBookingOrder) (a : Adjustment) (j : ℕ)
    (r : Reservation) (e e' : ℤ) : Prop where
  unextended : o.holdExtendedAt = none
  expiry : o.holdExpiresAt = some e
  later : e < e'
  bounded : ∃ b g, o.heldAt = some b ∧ db.settings o.propertyId = some g ∧
    e' ≤ b + 60 * g.maximumHoldMinutes
  link : o.reservationId = some j
  row : db.reservation? j = some r
  adjustment : a.holdExpiresAt = some e' ∧ a.holdExtendedAt = some db.clock
  result : t = { db with
    reservations := db.reservations.update j (heldUntil e')
    paymentRequests := extendedRequests db o e' }

theorem commits_extension (h : Commits (extensionAdjustment o metadata) db a t) :
    ∃ j r e e', Extends db t o a j r e e' := by
  unfold extensionAdjustment at h
  obtain ⟨g, hg, h⟩ := commits_orFail_bind.mp (commits_get_bind.mp h)
  obtain ⟨held, _, hlock, h⟩ := commits_bind.mp h
  obtain ⟨hheld, rfl⟩ := commits_lockedHeldReservation hlock
  obtain ⟨hx, h⟩ := commits_reject_bind.mp h
  obtain ⟨b, hb, h⟩ := commits_orFail_bind.mp h
  obtain ⟨e, he, h⟩ := commits_orFail_bind.mp h
  obtain ⟨_, h⟩ := commits_reject_bind.mp h
  obtain ⟨_, h⟩ := commits_reject_bind.mp h
  obtain ⟨hlate, h⟩ := commits_reject_bind.mp h
  have h := commits_set_bind.mp h
  obtain ⟨_, v, hext, h⟩ := commits_bind.mp h
  obtain ⟨rfl, rfl⟩ := commits_pure.mp h
  obtain ⟨j, hj, hrow⟩ := Option.bind_eq_some_iff.mp hheld.row
  have hid : held.reservation.id = j := (Table.find?_eq_some.mp hrow).2
  have hlt : e < nextExpiry e b (extensionMinutes metadata) g := by
    by_contra hc
    exact hlate (Or.inr (not_lt.mp hc))
  refine ⟨j, held.reservation, e, _, not_not.mp hx, he, hlt, ⟨b, g, hb, hg, min_le_right _ _⟩,
    hj, hrow, ⟨rfl, rfl⟩, ?_⟩
  rw [commits_extendRequest hext, hid]
  rfl

theorem moved_rehold {f : DirectBookingOrder → DirectBookingOrder}
    (h : Table.Updates db.orders u.orders i f) (ho : db.orders.find? i = some o) (k : ℕ) :
    u.orders.find? k = if k = i then some (f o) else db.orders.find? k := by
  split_ifs with hk
  · subst hk
    exact h.find?_self ho
  · cases hv : db.orders.find? k with
    | some v =>
      obtain ⟨hm, hid⟩ := Table.find?_eq_some.mp hv
      exact Table.find?_eq_some.mpr ⟨h.mem_ne hm (hid ▸ hk), hid⟩
    | none =>
      rw [Table.find?_eq_none] at hv ⊢
      intro w hw hid
      rcases h.mem.mp hw with ⟨hw, _⟩ | ⟨q, hq, hqi, rfl⟩
      · exact hv w hw hid
      · exact hk (hid.symm.trans ((h.keeps q).trans hqi))

theorem rehold_of_extends {r : Reservation} {j : ℕ} {e' : ℤ} (ho : db.orders.find? i = some o)
    (hx : Extends db t o a j r e e') (hm : Moved db u o paymentPending a t) :
    Rehold db u i o (moved paymentPending (o.stateVersion + 1) t.clock a o) e' := by
  have hid : o.id = i := (Table.find?_eq_some.mp ho).2
  have horders : t.orders = db.orders := by rw [hx.result]
  have hupd := hm.orders
  rw [horders, hid] at hupd
  have hres : u.reservations = db.reservations.update j (heldUntil e') := by
    rw [hm.frame, hx.result]
  have hreq : u.paymentRequests = extendedRequests db o e' := by
    rw [hm.frame, hx.result]
  refine ⟨by rw [hm.frame, hx.result], ho, moved_rehold hupd ho, rfl, ?_, ?_, rfl, ?_, ?_, ?_, ?_,
    Or.inl rfl, Or.inl rfl⟩
  · simp [moved, hx.adjustment.1]
  · exact hx.bounded
  · rw [hres]
    exact le_rfl
  · rw [hreq]
    unfold extendedRequests
    split <;> exact le_rfl
  · intro k r' hr' hstatus
    unfold Database.reservation? at hr'
    rw [hres, Table.find?_update] at hr'
    by_cases hk : k = j
    · subst hk
      have hrow : db.reservations.find? k = some r := hx.row
      simp only [if_true, hrow, Option.map_some, Option.some.injEq] at hr'
      exact Or.inl ⟨hx.link, by rw [← hr']; rfl⟩
    · rw [if_neg hk] at hr'
      have hne : o.reservationId ≠ some k := fun hc => hk (Option.some.inj (hc.symm.trans hx.link))
      exact Or.inr ⟨r', hr', hne, Std.Refl.refl r'⟩
  · intro k q' hq'
    rw [hreq] at hq'
    rcases extended_request hq' with hself | ⟨hold, hne⟩
    · exact Or.inl hself
    · exact Or.inr ⟨q', hold, hne, rfl⟩

theorem Extends.advances {r : Reservation} {j : ℕ} {e' v now : ℤ} (hx : Extends db t o a j r e e') :
    Advances o (moved paymentPending v now a o) := by
  have hexp : (moved paymentPending v now a o).holdExpiresAt = some e' := by
    simp [moved, hx.adjustment.1]
  have hext : (moved paymentPending v now a o).holdExtendedAt = some db.clock := by
    simp [moved, hx.adjustment.2]
  refine ⟨fun e₀ he => ⟨e', hexp, ?_⟩, fun hn => absurd hx.unextended hn, fun _ _ => ?_⟩
  · obtain rfl := Option.some.inj (hx.expiry.symm.trans he)
    exact hx.later.le
  · exact ⟨hx.unextended, by simp [hext]⟩

-- A transition that does not take a hold keeps every hold as it must be.
theorem advance_transition (hh : next ≠ held)
    (hs : next = started → ∀ o, db.orders.find? i = some o → Unlinked o) :
    Moves Advance (transition i next authority version identity metadata) db := by
  intro res u h
  obtain ⟨o, ho, ⟨rfl, _⟩ | ⟨_, he, hmove⟩⟩ := commits_transition_move h
  · exact Std.Refl.refl _
  · by_cases hx : o.state = paymentPending ∧ next = paymentPending
    · obtain ⟨hst, rfl⟩ := hx
      obtain ⟨a, t, hadj, hm⟩ := commits_move_adjusted hmove
      simp only [adjustment, hst, commits_ite, reduceCtorEq, false_and, not_false_eq_true,
        true_and, false_or, and_self, not_true_eq_false, or_false] at hadj
      obtain ⟨j, r, e, e', hext⟩ := commits_extension hadj
      intro hsound
      exact (rehold_of_extends ho hext hm).advance hext.advances hsound
    · exact (quiet_move he hh hx (fun hn => hs hn o ho) ho hmove).advance

end Extensions
open DirectBookingApiService (saveOrder)
open IssueDirectBookingPaymentRequest (Secrets)

section Services
variable {db t u : Database} {o order : DirectBookingOrder} {q : BookingQuote} {r : Reservation}
variable {i : ℕ} {version : ℤ} {identity : String} {secrets : Secrets}

theorem quiet_orders {os : Table DirectBookingOrder}
    (h : Table.Evolves Calm Blank db.orders os) : Quiet db { db with orders := os } :=
  ⟨rfl, h, .of_eq rfl, .refl⟩

theorem quiet_saveOrder {f : DirectBookingOrder → DirectBookingOrder} {hf : Keeps f}
    (hc : ∀ o, Calm o (f o)) : Moves Quiet (saveOrder i f hf) db :=
  Moves.modify (quiet_orders (.update (fun r _ => hc r) hf))

theorem reads_lockedQuote {j : Option ℕ} :
    Reads (IssueDirectBookingPaymentRequest.lockedQuote j) := by
  intro s a s' hc
  simp only [IssueDirectBookingPaymentRequest.lockedQuote, commits_bind, commits_get,
    commits_orFail] at hc
  obtain ⟨_, _, ⟨rfl, rfl⟩, _, rfl⟩ := hc
  rfl

theorem reads_assertLiveHold : Reads (DirectBookingApiService.assertLiveHold o) := by
  intro s a s' hc
  simp only [DirectBookingApiService.assertLiveHold, commits_bind, commits_get, commits_orFail,
    commits_reject, commits_pure] at hc
  obtain ⟨_, _, ⟨rfl, rfl⟩, _, _, ⟨_, rfl⟩, _, _, ⟨_, rfl⟩, _, rfl⟩ := hc
  rfl

theorem reads_assertCheckoutOpen : Reads (DirectBookingApiService.assertCheckoutOpen order) := by
  intro s a s' hc
  simp only [DirectBookingApiService.assertCheckoutOpen, commits_bind, commits_get, commits_orFail,
    commits_reject] at hc
  obtain ⟨_, _, ⟨rfl, rfl⟩, _, _, ⟨_, rfl⟩, _, rfl⟩ := hc
  rfl

theorem spares_create {input : BookingQuoteService.BookingInput} :
    Spares holds (BookingQuoteService.create input) db := by
  intro q t hc
  obtain ⟨_, _, _, _, ht⟩ := BookingQuoteService.commits_create hc
  rw [ht]
  rfl

theorem quiet_confirm : Moves Quiet (ReservationService.confirm i) db := by
  intro x t hc
  have hframe := ReservationService.confirm_spares.eq hc
  obtain ⟨r, _, hp⟩ := ReservationService.commits_confirm hc
  have hs : t.besidesStay.settings = db.besidesStay.settings := by rw [hframe]
  have ho : t.besidesStay.orders = db.besidesStay.orders := by rw [hframe]
  have hq : t.besidesStay.paymentRequests = db.besidesStay.paymentRequests := by rw [hframe]
  refine ⟨hs, .of_eq ho, ?_, .of_eq hq⟩
  rcases hp.reservations with ⟨he, _⟩ | he
  · exact .of_eq he
  · refine .of_evolves ?_
    rw [he]
    exact .update fun r _ hc => by cases hc

theorem spares_requestDocument {kind : DocumentKind} {key : String} {j : Option ℕ} :
    Spares holds (PaymentService.requestDocument r kind key j) db :=
  PaymentService.requestDocument_spares fun _ _ => rfl

section Expiry

theorem quiet_expireDueHolds {batch : ℕ} :
    Moves Quiet (ReservationService.expireDueHolds batch) db := by
  refine Moves.get_bind (Moves.forM (fun j _ s => Moves.get_bind ?_) _)
  split
  · exact Moves.pure
  · refine Moves.ite (fun _ => Moves.pure) fun _ => Moves.set ⟨rfl, .refl, .of_evolves ?_, .refl⟩
    exact .update fun r _ hc => by cases hc

theorem quiet_recordPiiScrubbed {purged : String} :
    Moves Quiet (recordPiiScrubbed i identity purged) db := by
  intro res u h
  obtain ⟨_, o, _, ⟨_, _, _, _, _, rfl⟩ | ⟨_, _, hs⟩⟩ := commits_recordPiiScrubbed h
  · exact Std.Refl.refl _
  · refine ⟨by rw [hs.frame], Table.Evolves.updates hs.scrubbed fun r _ => ?_,
      .of_eq (by rw [hs.frame]), .of_eq (by rw [hs.frame])⟩
    exact ⟨rfl, rfl, rfl, rfl, rfl, Or.inl rfl, id, Or.inl⟩

theorem advance_expire {readAt : ℤ} :
    Moves Advance (MaintainDirectBookingOrders.expire readAt order) db := by
  refine Moves.ite (fun _ => Moves.bind (advance_transition ?_ ?_) fun _ _ _ => Moves.pure)
    fun _ => Moves.pure
  · unfold MaintainDirectBookingOrders.outcome
    split_ifs <;> simp
  · unfold MaintainDirectBookingOrders.outcome
    split_ifs <;> simp

theorem quiet_scrub {purged : String} :
    Moves Quiet (MaintainDirectBookingOrders.scrub order purged) db :=
  Moves.read_bind reads_lockedOrder fun _ => Moves.get_bind (Moves.ite
    (fun _ => Moves.bind quiet_recordPiiScrubbed fun _ _ _ => Moves.pure) fun _ => Moves.pure)

end Expiry

section Payments
variable {attempt' : PaymentAttempt} {reason : String} {refund' : ProviderRefund}
variable {evidence : ReviewPaymentEvidence.PaymentEvidence}

theorem financeTask_quiet :
    Moves Quiet (DirectBookingPaymentReconciler.financeTask o attempt' reason) db :=
  quiet_of_spares (Spares.get_bind (Spares.ite (fun _ => Spares.pure) fun _ => Spares.set rfl))

theorem advance_markNeedsReview :
    Moves Advance (DirectBookingPaymentReconciler.markNeedsReview o attempt' reason) db := by
  refine Moves.bind (Moves.ite (fun _ => ?_) fun _ => Moves.pure) fun _ _ _ => ?_
  · exact Moves.map (advance_transition (by simp) (by simp))
  · refine Moves.bind (Moves.ite (fun _ => ?_) fun _ => Moves.pure) fun _ _ _ => ?_
    · exact Moves.map (advance_transition (by simp) (by simp))
    · exact advance_of_quiet financeTask_quiet

theorem advance_settle :
    Moves Advance (DirectBookingPaymentReconciler.settle o attempt' r) db := by
  refine Moves.bind (advance_transition (by simp) (by simp)) fun paid _ _ => Moves.bind
    (Moves.attempt (advance_of_quiet quiet_confirm)) fun x _ _ => ?_
  cases x with
  | error e =>
    exact Moves.bind (advance_transition (by simp) (by simp)) fun _ _ _ =>
      advance_of_quiet financeTask_quiet
  | ok u =>
    refine Moves.bind (advance_transition (by simp) (by simp)) fun _ _ _ =>
      advance_of_quiet (quiet_of_spares ?_)
    refine Spares.read_bind reads_lockedReservation fun _ =>
      Spares.bind spares_requestDocument fun _ _ _ =>
        Spares.read_bind PaymentService.reads_lockedRequest fun _ => Spares.get_bind ?_
    split
    · exact Spares.pure
    · exact spares_requestDocument

theorem lockedOrder?_moves {f : Option DirectBookingOrder → Tx Unit}
    (h : Moves Advance (f (PaymentService.orderOf? db attempt'.reservationId)) db) :
    Moves Advance (DirectBookingPaymentReconciler.lockedOrder? attempt' >>= f) db := by
  intro u t hc
  obtain ⟨_, _, hr, hf⟩ := commits_bind.mp hc
  simp only [DirectBookingPaymentReconciler.lockedOrder?, commits_bind, commits_get,
    commits_pure] at hr
  obtain ⟨_, _, ⟨rfl, rfl⟩, rfl, rfl⟩ := hr
  exact h u t hf

theorem advance_approved : Moves Advance (DirectBookingPaymentReconciler.approved attempt') db := by
  refine lockedOrder?_moves ?_
  split
  · exact Moves.pure
  · refine Moves.ite (fun _ => Moves.pure) fun _ => Moves.get_bind ?_
    split
    · exact advance_markNeedsReview
    · exact advance_settle

theorem advance_needsReview :
    Moves Advance (DirectBookingPaymentReconciler.needsReview attempt' reason) db := by
  refine lockedOrder?_moves ?_
  split
  · exact Moves.pure
  · exact advance_markNeedsReview

theorem advance_failed :
    Moves Advance (DirectBookingPaymentReconciler.failed attempt' reason) db := by
  refine lockedOrder?_moves ?_
  split
  · exact Moves.pure
  · exact Moves.ite (fun _ => Moves.pure) fun _ =>
      Moves.bind (advance_transition (by simp) (by simp)) fun _ _ _ => Moves.pure

theorem advance_refunded : Moves Advance (DirectBookingPaymentReconciler.refunded refund') db := by
  refine Moves.get_bind (Moves.orFail_bind fun _ _ => ?_)
  split
  · exact Moves.pure
  · refine Moves.ite (fun _ => Moves.pure) fun _ => Moves.ite (fun _ => ?_) fun _ => Moves.pure
    exact Moves.bind (advance_transition (by simp) (by simp)) fun _ _ _ => Moves.pure

theorem advance_prepareApproval :
    Moves Advance (DirectBookingManualReviewReconciler.prepareApproval evidence) db := by
  refine Moves.get_bind ?_
  split
  · exact Moves.pure
  · exact Moves.ite (fun _ => Moves.pure) fun _ =>
      Moves.bind (advance_transition (by simp) (by simp)) fun _ _ _ => Moves.pure

theorem quiet_settled {j k : ℕ} {now : ℤ} :
    Moves Quiet (PaymentService.settleRequest j k now) db := by
  refine Moves.modify ⟨rfl, .refl, .of_eq rfl, ?_⟩
  have hsame : ∀ q, SameExpiry q (PaymentService.settled k now q) := fun _ => rfl
  exact .update fun q _ => hsame q

theorem quiet_settleRequest {payment : Option Payment} :
    Moves Quiet (DirectBookingManualReviewReconciler.settleRequest o payment) db := by
  refine Moves.get_bind ?_
  split
  · exact Moves.ite (fun _ => quiet_settled) fun _ => Moves.pure
  · exact Moves.pure

theorem advance_confirm {payment : Option Payment} :
    Moves Advance (DirectBookingManualReviewReconciler.confirm o evidence r payment) db := by
  refine Moves.bind (advance_of_quiet quiet_confirm) fun _ _ _ =>
    Moves.bind (advance_transition (by simp) (by simp)) fun _ _ _ =>
      advance_of_quiet (quiet_of_spares ?_)
  refine Spares.read_bind reads_lockedReservation fun _ =>
    Spares.bind spares_requestDocument fun _ _ _ => ?_
  split
  · exact Spares.pure
  · exact spares_requestDocument

theorem advance_approvedEvidence :
    Moves Advance (DirectBookingManualReviewReconciler.approved evidence) db := by
  refine Moves.get_bind ?_
  split
  · exact Moves.pure
  · refine Moves.ite (fun _ => Moves.pure) fun _ => Moves.bind (advance_of_quiet quiet_settleRequest)
      fun _ _ _ => Moves.get_bind ?_
    split
    · exact advance_of_quiet (quiet_of_spares
        (Spares.get_bind (Spares.ite (fun _ => Spares.pure) fun _ => Spares.set rfl)))
    · exact advance_confirm

theorem advance_rejectedEvidence :
    Moves Advance (DirectBookingManualReviewReconciler.rejected evidence) db := by
  refine Moves.get_bind ?_
  split
  · exact Moves.pure
  · exact Moves.ite (fun _ => Moves.pure) fun _ =>
      Moves.bind (advance_transition (by simp) (by simp)) fun _ _ _ => Moves.pure

end Payments
end Services
section Requests
variable {db t u : Database} {o order current : DirectBookingOrder} {q : BookingQuote}
variable {r : Reservation} {supersedes : Option ℕ} {setting : DirectBookingPropertySetting}
variable {i : ℕ} {version : ℤ} {identity : String} {secrets : Secrets}

theorem payableDeposit_frame {x : ℕ}
    (h : Commits (IssueDirectBookingPaymentRequest.payableDeposit q r) db x t) :
    t = { db with deposits := t.deposits } := by
  unfold IssueDirectBookingPaymentRequest.payableDeposit at h
  have h := commits_get_bind.mp h
  split at h
  · have h := commits_set_bind.mp h
    obtain ⟨_, rfl⟩ := commits_pure.mp h
    rfl
  · obtain ⟨_, h⟩ := commits_reject_bind.mp h
    obtain ⟨_, rfl⟩ := commits_pure.mp h
    rfl

theorem spares_payableDeposit :
    Spares holds (IssueDirectBookingPaymentRequest.payableDeposit q r) db := by
  intro x t hc
  rw [payableDeposit_frame hc]
  rfl

theorem not_fresh_of_active {s : DirectBookingOrderState} (h : active s = true) :
    fresh s = false := by
  cases s <;> first | rfl | cases h

open IssueDirectBookingPaymentRequest in
-- The request that is drawn up for a live hold ends with the hold.
theorem rehold_of_provision {depositId : ℕ} {e : ℤ} (hs : Sound db)
    (ho : db.orders.find? o.id = some o) (hact : active o.state = true)
    (he : o.holdExpiresAt = some e) :
    Rehold db { db with
      paymentRequests := db.paymentRequests.insert
        (issued o q r depositId e supersedes secrets)
      orders := db.orders.update o.id (paying db.paymentRequests.next) (keeps_paying _) }
      o.id o (paying db.paymentRequests.next o) e := by
  obtain ⟨e', ha⟩ := hs.agreed o.id o ho hact
  obtain rfl := Option.some.inj (ha.order.symm.trans he)
  refine ⟨rfl, ho, moved_rehold (Table.updates_update (keeps_paying _)) ho, rfl, he,
    hs.bounded o.id o ho e' he, not_fresh_of_active hact, le_rfl, Nat.le_succ _, ?_, ?_, Or.inl rfl,
    Or.inr ⟨_, rfl, le_rfl, Nat.lt_succ_self _⟩⟩
  · intro k v hv hst
    by_cases hk : o.reservationId = some k
    · exact Or.inl ⟨hk, ha.reservation v (Option.bind_eq_some_iff.mpr ⟨k, hk, hv⟩) hst⟩
    · exact Or.inr ⟨v, hv, hk, Std.Refl.refl v⟩
  · intro k v hv
    obtain ⟨hm, hid⟩ := Table.find?_eq_some.mp hv
    rcases (Table.mem_insert (fun _ => rfl)).mp hm with hm | rfl
    · refine Or.inr ⟨v, Table.find?_eq_some.mpr ⟨hm, hid⟩, fun hc => ?_, rfl⟩
      have hlt := Table.id_lt_next hm
      have hnext : db.paymentRequests.next = k := Option.some.inj hc
      omega
    · exact Or.inl ⟨congrArg some hid, rfl⟩

theorem advance_provision (ho : db.orders.find? o.id = some o) (hact : active o.state = true)
    (hr : r.holdExpiresAt = o.holdExpiresAt) :
    Moves Advance (IssueDirectBookingPaymentRequest.provision o q r supersedes secrets) db := by
  refine Moves.reject_bind fun _ => ?_
  intro x u hc
  obtain ⟨depositId, t, hd, hc⟩ := commits_bind.mp hc
  have hq := quiet_of_eq (spares_payableDeposit.eq hd)
  have horders : t.orders = db.orders := by
    have hh := spares_payableDeposit.eq hd
    exact congrArg (fun v => v.2.1) hh
  refine IsTrans.trans _ _ _ hq.advance (Moves.get_bind (Moves.reject_bind fun _ =>
    Moves.orFail_bind fun e he => Moves.bind (Moves.set fun hs => ?_) fun _ _ _ => Moves.pure)
      x u hc)
  have hrow : t.orders.find? o.id = some o := by rw [horders, ho]
  exact (rehold_of_provision hs hrow hact (hr.symm.trans he)).advance
    ⟨fun e he => ⟨e, he, le_rfl⟩, fun _ => ⟨rfl, fun _ => rfl⟩, fun _ h => absurd rfl h⟩ hs

theorem advance_startPayment {request : PaymentRequest} :
    Moves Advance (IssueDirectBookingPaymentRequest.startPayment o request version identity) db :=
  Moves.bind (advance_transition (by simp) (by simp)) fun _ _ _ => Moves.pure

theorem advance_issue (ho : db.orders.find? o.id = some o) :
    Moves Advance (IssueDirectBookingPaymentRequest.issue o supersedes version identity secrets)
      db := by
  refine Moves.reject_bind fun hst => Moves.read_bind reads_lockedQuote fun q => Moves.get_bind
    (Moves.orFail_bind fun r _ => Moves.reject_bind fun hok => ?_)
  have hact : active o.state = true := by
    have hs : o.state = held ∨ o.state = paymentFailed := not_not.mp (not_or.mp hst).1
    rcases hs with hs | hs <;> rw [hs] <;> rfl
  have hagree : r.holdExpiresAt = o.holdExpiresAt := by
    simp only [not_or, Bool.not_eq_false] at hok
    have hag := hok.2.2.2.1
    simp only [IssueDirectBookingPaymentRequest.agrees, Bool.and_eq_true, beq_iff_eq] at hag
    exact hag.2
  refine Moves.bind (advance_provision ho hact hagree) fun request _ _ => Moves.bind
    (advance_of_quiet ?_) fun _ _ _ => advance_startPayment
  refine Moves.modify (quiet_orders (.update fun v _ => ?_))
  exact ⟨rfl, rfl, rfl, rfl, rfl, Or.inl rfl, id, Or.inl⟩

open IssueDirectBookingPaymentRequest in
theorem quiet_supersede {request : PaymentRequest} :
    Moves Quiet (supersede o request) db := by
  refine Moves.reject_bind fun _ => Moves.bind (Moves.modify ⟨rfl, .refl, .of_eq rfl, ?_⟩) fun _ _ _ =>
    Moves.bind (quiet_of_spares (Spares.modify rfl)) fun _ _ _ =>
      Moves.modify (quiet_orders (.update fun v _ => ?_))
  · have hsame : ∀ now q, SameExpiry q (superseded now q) := fun _ _ => rfl
    exact .update fun q _ => hsame _ q
  · exact ⟨rfl, rfl, rfl, rfl, rfl, Or.inr rfl, id, Or.inl⟩

open IssueDirectBookingPaymentRequest in
theorem detached_row {request : PaymentRequest} {x : Unit} (ho : db.orders.find? i = some o)
    (h : Commits (supersede o request) db x t) : t.orders.find? o.id = some (detached o) := by
  simp only [supersede, RevokeOrSupersedePaymentRequest.expireAttempts, commits_bind,
    commits_reject, commits_modify] at h
  obtain ⟨_, _, ⟨_, rfl⟩, _, _, rfl, _, _, rfl, rfl⟩ := h
  have hid : o.id = i := (Table.find?_eq_some.mp ho).2
  exact Table.find?_update_self (hid ▸ ho) keeps_detached

theorem advance_handle :
    Moves Advance (IssueDirectBookingPaymentRequest.handle i version identity secrets) db := by
  intro x u hc
  obtain ⟨o, _, hl, hc⟩ := commits_bind.mp hc
  obtain ⟨ho, rfl⟩ := commits_lockedOrder.mp hl
  have hid : o.id = i := (Table.find?_eq_some.mp ho).2
  refine Moves.get_bind (Moves.reject_bind fun _ => Moves.orFail_bind fun r _ =>
    Moves.reject_bind fun _ => ?_) x u hc
  split
  · exact advance_issue (hid ▸ ho)
  · refine Moves.read_bind PaymentService.reads_lockedRequest fun request =>
      Moves.ite (fun _ => ?_) fun _ => advance_startPayment
    refine Moves.bind (advance_of_quiet quiet_supersede) fun _ t hs => ?_
    have hrow := detached_row ho hs
    exact advance_issue hrow

section Sessions
variable {input : BookingQuoteService.BookingInput} {checkoutExpiresAt : Option ℤ}

theorem advance_quote :
    Moves Advance (DirectBookingApiService.quote order input version identity) db := by
  refine Moves.reject_bind fun _ => Moves.bind
    (advance_of_quiet (Moves.rethrow (quiet_of_spares spares_create))) fun q _ _ => Moves.bind
      (advance_of_quiet (quiet_saveOrder fun o => ?_)) fun _ _ _ => ?_
  · exact ⟨rfl, rfl, rfl, rfl, rfl, Or.inl rfl, id, Or.inl⟩
  · exact advance_transition (by simp) (by simp)

theorem advance_manualCheckout :
    Moves Advance (DirectBookingApiService.manualCheckout order version identity) db := by
  refine Moves.read_bind reads_assertCheckoutOpen fun _ => Moves.read_bind reads_lockedOrder
    fun _ => Moves.read_bind reads_lockedQuote fun _ => Moves.read_bind reads_assertLiveHold
      fun _ => Moves.bind (advance_of_quiet (quiet_of_spares ?_)) fun _ _ _ =>
        advance_transition (by simp) (by simp)
  exact Spares.get_bind (Spares.ite (fun _ => Spares.pure) fun _ => Spares.set rfl)

theorem advance_hostedCheckout :
    Moves Advance (DirectBookingApiService.hostedCheckout order version identity secrets) db :=
  Moves.read_bind reads_assertCheckoutOpen fun _ => advance_handle

theorem advance_retryPayment :
    Moves Advance (DirectBookingApiService.retryPayment order version identity secrets) db :=
  Moves.reject_bind fun _ => advance_handle

theorem advance_extendHold :
    Moves Advance (DirectBookingApiService.extendHold setting current checkoutExpiresAt identity)
      db :=
  Moves.ite (fun _ => Moves.bind (advance_transition (by simp) (by simp)) fun _ _ _ => Moves.pure)
    fun _ => Moves.pure

theorem advance_retryManually :
    Moves Advance (DirectBookingApiService.retryManually order version identity) db :=
  Moves.reject_bind fun _ => Moves.read_bind reads_lockedOrder fun _ =>
    Moves.read_bind reads_assertLiveHold fun _ => advance_transition (by simp) (by simp)

theorem advance_evidenceAccepted :
    Moves Advance (DirectBookingApiService.evidenceAccepted order version identity) db :=
  Moves.reject_bind fun _ => Moves.read_bind reads_lockedOrder fun _ =>
    Moves.read_bind reads_assertLiveHold fun _ => Moves.get_bind (Moves.orFail_bind fun _ _ =>
      Moves.bind (advance_transition (by simp) (by simp)) fun _ _ _ => Moves.pure)

theorem quiet_issue {locale currency reference : String}
    {session : DirectBookingTokenService.Session} :
    Moves Quiet (DirectBookingTokenService.issue setting locale currency session reference) db := by
  refine Moves.get_bind (Moves.bind (Moves.set (quiet_orders (.insert ?_))) fun _ _ _ => Moves.pure)
  exact ⟨⟨rfl, rfl⟩, rfl, rfl⟩

end Sessions
end Requests
section Holding
open DirectBookingApiService
open IssueDirectBookingPaymentRequest (paying issued)
variable {db t u : Database} {o order : DirectBookingOrder} {q : BookingQuote} {r r₀ : Reservation}
variable {setting : DirectBookingPropertySetting} {input : HoldInput} {i j : ℕ} {e : ℤ}
variable {version : ℤ} {identity : String} {res : TransitionResult} {ids : List ℕ}
variable {authority : DirectBookingTransitionAuthority}

-- What a commit leaves alone besides the reservation it writes.
def aside (db : Database) : (ℕ → Option DirectBookingPropertySetting) × Table DirectBookingOrder ×
    Table DirectBookingOrderEvent × Table PaymentRequest × ℤ :=
  (db.settings, db.orders, db.orderEvents, db.paymentRequests, db.clock)

theorem spares_createCompanions {companions : List Companion} :
    ∀ db, Spares (fun s => (aside s, s.reservations)) (createCompanions companions) db := by
  induction companions with
  | nil => exact fun _ => Spares.pure
  | cons c companions ih =>
    exact fun db => Spares.get_bind (Spares.bind (Spares.set rfl) fun _ s _ =>
      Spares.bind (ih s) fun _ _ _ => Spares.pure)

theorem spares_requirement {loaded : List Allocation} {p : ProgramResourceRequirement} :
    Spares (fun s => (aside s, s.reservations)) (provisionRequirement r loaded p) db := by
  unfold provisionRequirement
  split
  · refine Spares.reject_bind fun _ => Spares.bind (Spares.ite (fun _ => ?_) fun _ => Spares.pure)
      fun _ _ _ => Spares.pure
    intro x t hc
    obtain ⟨_, s, hs, hk⟩ := commits_bind.mp hc
    obtain ⟨_, rfl⟩ := commits_check.mp hk
    obtain ⟨a, _, rfl⟩ := Soundness.commits_saveAllocation.mp hs
    rfl
  · refine Spares.bind (Spares.ite (fun _ => Spares.get_bind (Spares.orFail_bind fun _ _ =>
      Spares.pure)) fun _ => Spares.pure) fun _ s _ => ?_
    intro x t hc
    obtain ⟨a, v, hs, hk⟩ := commits_bind.mp hc
    obtain ⟨_, w, hk, hp⟩ := commits_bind.mp hk
    obtain ⟨_, rfl⟩ := commits_check.mp hk
    obtain ⟨_, rfl⟩ := commits_pure.mp hp
    obtain ⟨_, rfl⟩ := Soundness.commits_insertAllocation.mp hs
    rfl

theorem spares_requirements :
    Spares (fun s => (aside s, s.reservations)) (provisionProgramRequirements r) db := by
  refine Spares.get_bind ?_
  split
  · exact Spares.pure
  · exact Spares.bind (Spares.foldlM (fun _ _ _ => spares_requirement) _ _ _) fun _ _ _ =>
      Spares.pure

-- A public hold commits a quote that is not committed yet.
theorem commits_publicBooking {data : CommitBookingQuote.GuestData}
    (h : Commits (CommitBookingQuote.handle j none data ids none) db r t) :
    Table.Appends db.reservations t.reservations r ∧ aside t = aside db := by
  obtain ⟨q, hq, h⟩ := commits_orFail_bind.mp (commits_get_bind.mp h)
  split at h
  · simp only [CommitBookingQuote.committedTo, commits_bind, commits_reject, true_or,
      not_true_eq_false, false_and, and_false, exists_false] at h
  · obtain ⟨_, _, guest, a, t₁, t₂, t₃, t₄, t₅, hs⟩ := CommitBookingQuote.commits_commit_staged h
    have happ := (CommitBookingQuote.commits_commit h).reservations
    refine ⟨happ, ?_⟩
    rw [hs.mark]
    show aside t₅ = aside db
    rw [CommitBookingQuote.postLines_frame hs.lines, CommitBookingQuote.party_frame hs.party,
      CommitBookingQuote.commits_allocate hs.allocate,
      (CommitBookingQuote.commits_createReservation hs.create).2.2,
      CommitBookingQuote.commits_guestFor hs.found]
    rfl

theorem commits_holdReservation (h : Commits (holdReservation setting j input ids) db r t) :
    Table.Appends db.reservations t.reservations
      (heldUntil (db.clock + 60 * holdMinutes setting) r) ∧ aside t = aside db := by
  obtain ⟨r, s, hbook, h⟩ := commits_bind.mp h
  obtain ⟨happ, haside⟩ := commits_publicBooking (commits_rethrow.mp hbook)
  have hclock : s.clock = db.clock := congrArg (fun v => v.2.2.2.2) haside
  have h := commits_get_bind.mp h
  have h := commits_set_bind.mp h
  obtain ⟨_, _, hreq, h⟩ := commits_bind.mp h
  obtain ⟨rfl, rfl⟩ := commits_pure.mp h
  have hspare := spares_requirements.eq hreq
  simp only [Prod.mk.injEq] at hspare
  refine ⟨?_, hspare.1.trans haside⟩
  have hk : Keeps (heldUntil (s.clock + 60 * holdMinutes setting)) := fun _ => rfl
  rw [hspare.2, ← hclock]
  exact happ.update (Table.updates_update hk)

structure Provisioned (db t : Database) (o : DirectBookingOrder) (p : PaymentRequest) (e : ℤ) :
    Prop where
  expiry : p.expiresAt = e
  requests : Table.Appends db.paymentRequests t.paymentRequests p
  orders : Table.Updates db.orders t.orders o.id (paying p.id)
  settings : t.settings = db.settings
  events : t.orderEvents = db.orderEvents
  clock : t.clock = db.clock
  reservations : t.reservations = db.reservations

theorem commits_provision {p : PaymentRequest} {supersedes : Option ℕ} {secrets : Secrets}
    (he : r.holdExpiresAt = some e)
    (h : Commits (IssueDirectBookingPaymentRequest.provision o q r supersedes secrets) db p t) :
    Provisioned db t o p e := by
  obtain ⟨_, h⟩ := commits_reject_bind.mp h
  obtain ⟨depositId, s, hd, h⟩ := commits_bind.mp h
  have hs := payableDeposit_frame hd
  have h := commits_get_bind.mp h
  obtain ⟨_, h⟩ := commits_reject_bind.mp h
  obtain ⟨e', he', h⟩ := commits_orFail_bind.mp h
  obtain rfl := Option.some.inj (he'.symm.trans he)
  have h := commits_set_bind.mp h
  obtain ⟨rfl, rfl⟩ := commits_pure.mp h
  have hreq : s.paymentRequests = db.paymentRequests := by rw [hs]
  have hord : s.orders = db.orders := by rw [hs]
  refine ⟨rfl, ?_, ?_, by rw [hs], by rw [hs], by rw [hs], by rw [hs]⟩
  · rw [← hreq]
    exact Table.appends_insert
  · rw [← hord]
    exact Table.updates_update (IssueDirectBookingPaymentRequest.keeps_paying _)

theorem commits_provisionHeld {p : PaymentRequest} {k : ℕ} {secrets : Secrets}
    (ho : db.orders.find? i = some o) (hn : o.paymentRequestId = none)
    (hr : db.reservation? k = some r) (he : r.holdExpiresAt = some e)
    (h : Commits (IssueDirectBookingPaymentRequest.provisionHeld i j k secrets) db p t) :
    Provisioned db t o p e := by
  obtain ⟨v, _, hl, h⟩ := commits_bind.mp h
  obtain ⟨hv, rfl⟩ := commits_lockedOrder.mp hl
  obtain rfl := Option.some.inj (ho.symm.trans hv)
  obtain ⟨q, _, hq, h⟩ := commits_bind.mp h
  obtain rfl := reads_lockedQuote _ _ _ hq
  obtain ⟨w, _, hlock, h⟩ := commits_bind.mp h
  obtain ⟨hw, rfl⟩ := commits_lockedReservation.mp hlock
  obtain rfl := Option.some.inj (hr.symm.trans hw)
  simp only [hn] at h
  obtain ⟨_, h⟩ := commits_reject_bind.mp h
  exact commits_provision he h

-- A hold that is about to be entered in the order.
structure Taken (db t : Database) (i : ℕ) (o o' : DirectBookingOrder) (r : Reservation)
    (p : PaymentRequest) (e : ℤ) : Prop where
  row : db.orders.find? i = some o
  linked : ∃ input, o' = paying p.id (linkedReservation r.id input o)
  orders : ∀ k, t.orders.find? k = if k = i then some o' else db.orders.find? k
  reservations : Table.Appends db.reservations t.reservations (heldUntil e r)
  requests : Table.Appends db.paymentRequests t.paymentRequests p
  expiry : p.expiresAt = e
  settings : t.settings = db.settings
  events : t.orderEvents = db.orderEvents

theorem Taken.reservation {o' : DirectBookingOrder} {p : PaymentRequest}
    (h : Taken db t i o o' r p e) : o'.reservationId.bind t.reservation? = some (heldUntil e r) := by
  obtain ⟨input, rfl⟩ := h.linked
  exact h.reservations.find?_new

-- The hold that is entered ends when its reservation says so, within the policy of the property.
theorem Taken.adjusted {o' : DirectBookingOrder} {p : PaymentRequest} {a : Adjustment}
    (hx : Taken db t i o o' r p e) (h : Commits (holdAdjustment o') t a u) :
    u = t ∧ a = { holdExpiresAt := some e } ∧
      ∃ g, db.settings o.propertyId = some g ∧ e ≤ t.clock + 60 * g.initialHoldMinutes := by
  obtain ⟨g, hg, h⟩ := commits_orFail_bind.mp (commits_get_bind.mp h)
  obtain ⟨held, _, hlock, h⟩ := commits_bind.mp h
  obtain ⟨hheld, rfl⟩ := commits_lockedHeldReservation hlock
  obtain ⟨hle, h⟩ := commits_reject_bind.mp h
  obtain ⟨rfl, rfl⟩ := commits_pure.mp h
  have hrow : heldUntil e r = held.reservation :=
    Option.some.inj (hx.reservation.symm.trans hheld.row)
  have he : held.expiresAt = e := by
    have hex := hheld.expiry
    rw [← hrow] at hex
    exact (Option.some.inj hex).symm
  obtain ⟨input, rfl⟩ := hx.linked
  exact ⟨rfl, by rw [he], g, hx.settings ▸ hg, he ▸ not_lt.mp hle⟩

theorem rehold_of_taken {o' : DirectBookingOrder} {p : PaymentRequest} {a : Adjustment}
    (hs : Sound db) (hx : Taken db t i o o' r p e)
    (ha : Commits (holdAdjustment o') t a t) (hm : Moved t u o' held a t) :
    Rehold db u i o (moved held (o'.stateVersion + 1) t.clock a o') e := by
  obtain ⟨_, rfl, g, hg, hle⟩ := hx.adjusted ha
  obtain ⟨input, rfl⟩ := hx.linked
  have hid : o.id = i := (Table.find?_eq_some.mp hx.row).2
  have hself : t.orders.find? i = some (paying p.id (linkedReservation r.id input o)) := by
    rw [hx.orders, if_pos rfl]
  have hupd := hm.orders
  have hres : u.reservations = t.reservations := by rw [hm.frame]
  have hreq : u.paymentRequests = t.paymentRequests := by rw [hm.frame]
  have hrnext : (t.reservations).next = db.reservations.next + 1 := hx.reservations.next
  have hqnext : (t.paymentRequests).next = db.paymentRequests.next + 1 := hx.requests.next
  have hrid : r.id = db.reservations.next := hx.reservations.id
  have hqid : p.id = db.paymentRequests.next := hx.requests.id
  refine ⟨by rw [hm.frame, hx.settings], hx.row, fun k => ?_, rfl, ?_, ?_, rfl, ?_, ?_, ?_, ?_,
    Or.inr ⟨r.id, rfl, ?_, ?_⟩, Or.inr ⟨p.id, rfl, ?_, ?_⟩⟩
  · rw [moved_rehold (hid ▸ hupd) hself, hx.orders]
    split_ifs <;> rfl
  · rfl
  · refine ⟨t.clock, g, rfl, hg, ?_⟩
    have hmax := hs.settings _ _ hg
    omega
  · rw [hres]
    omega
  · rw [hreq]
    omega
  · intro k v hv hst
    unfold Database.reservation? at hv
    rw [hres] at hv
    obtain ⟨hmem, hvid⟩ := Table.find?_eq_some.mp hv
    rcases hx.reservations.mem.mp hmem with hold | rfl
    · refine Or.inr ⟨v, Table.find?_eq_some.mpr ⟨hold, hvid⟩, fun hc => ?_, Std.Refl.refl v⟩
      have hlt := hx.reservations.lt_next hold
      have hk : r.id = k := Option.some.inj hc
      have hrk : Keyed.id v < r.id := hlt
      omega
    · exact Or.inl ⟨congrArg some hvid, rfl⟩
  · intro k v hv
    rw [hreq] at hv
    obtain ⟨hmem, hvid⟩ := Table.find?_eq_some.mp hv
    rcases hx.requests.mem.mp hmem with hold | rfl
    · refine Or.inr ⟨v, Table.find?_eq_some.mpr ⟨hold, hvid⟩, fun hc => ?_, rfl⟩
      have hlt := hx.requests.lt_next hold
      have hk : p.id = k := Option.some.inj hc
      have hpk : Keyed.id v < p.id := hlt
      omega
    · exact Or.inl ⟨congrArg some hvid, hx.expiry⟩
  · exact hrid.ge
  · rw [hres]
    omega
  · exact hqid.ge
  · rw [hreq]
    omega

theorem commits_saveOrder {f : DirectBookingOrder → DirectBookingOrder} {hf : Keeps f} {x : Unit}
    (h : Commits (saveOrder i f hf) db x t) : t = { db with orders := db.orders.update i f hf } :=
  (commits_modify.mp h).symm

theorem quoted_of_held {s : DirectBookingOrderState} (h : authorized s held authority = true) :
    s = quoted := by
  have hm : (held, authority) ∈ transitions s := by simpa [authorized] using h
  cases s <;> simp_all [transitions]

theorem reads_assertCurrentQuote : Reads (assertCurrentQuote q) := by
  intro s a s' hc
  simp only [assertCurrentQuote, commits_bind, commits_get, commits_reject] at hc
  obtain ⟨_, _, ⟨rfl, rfl⟩, _, rfl⟩ := hc
  rfl

-- The states that a hold passes through before its transition.
structure Stages (db : Database) (order o : DirectBookingOrder) (input : HoldInput)
    (r : Reservation) (p : PaymentRequest) (e : ℤ) (t₂ t₃ t : Database) : Prop where
  row : db.orders.find? order.id = some o
  booked : Table.Appends db.reservations t₂.reservations (heldUntil e r)
  beside : aside t₂ = aside db
  linked : t₃ = { t₂ with orders := t₂.orders.update o.id (linkedReservation r.id input) }
  provision : ∃ j, Commits (IssueDirectBookingPaymentRequest.provisionHeld o.id j r.id
    input.secrets) t₃ p t

theorem commits_hold (h : Commits (hold setting order input version identity) db res u) :
    ∃ o r p e t₂ t₃ t, Stages db order o input r p e t₂ t₃ t ∧
      Commits (transition o.id held inventory version ("hold:" ++ identity)) t res u := by
  obtain ⟨_, h⟩ := commits_reject_bind.mp h
  obtain ⟨_, h⟩ := commits_reject_bind.mp h
  obtain ⟨o, _, hl, h⟩ := commits_bind.mp h
  obtain ⟨ho, rfl⟩ := commits_lockedOrder.mp hl
  obtain ⟨q, _, hq, h⟩ := commits_bind.mp h
  obtain rfl := reads_lockedQuote _ _ _ hq
  obtain ⟨_, _, hcur, h⟩ := commits_bind.mp h
  obtain rfl := reads_assertCurrentQuote _ _ _ hcur
  obtain ⟨_, _, h⟩ := commits_check_bind.mp h
  obtain ⟨ids, t₁, hguests, h⟩ := commits_bind.mp h
  have hspare := (spares_createCompanions _).eq hguests
  simp only [Prod.mk.injEq] at hspare
  obtain ⟨r, t₂, hhold, h⟩ := commits_bind.mp h
  obtain ⟨hbook, hbeside⟩ := commits_holdReservation hhold
  obtain ⟨_, t₃, hsave, h⟩ := commits_bind.mp h
  obtain ⟨p, t, hprov, h⟩ := commits_bind.mp h
  have hid : o.id = order.id := (Table.find?_eq_some.mp ho).2
  refine ⟨o, r, p, _, t₂, t₃, t, ⟨ho, hspare.2 ▸ hbook, hbeside.trans hspare.1,
    commits_saveOrder hsave, q.id, hprov⟩, hid ▸ h⟩

namespace Stages
variable {p : PaymentRequest} {t₂ t₃ : Database} (h : Stages db order o input r p e t₂ t₃ t)
include h

theorem id : o.id = order.id := (Table.find?_eq_some.mp h.row).2

theorem linkedRow : t₃.orders.find? o.id = some (linkedReservation r.id input o) := by
  have ho : t₂.orders = db.orders := congrArg (fun v => v.2.1) h.beside
  have hrow : t₂.orders.find? o.id = some o := by
    rw [ho, h.id, h.row]
  rw [h.linked]
  exact Table.find?_update_self hrow (keeps_linkedReservation _ _)

theorem bookedRow : t₃.reservation? r.id = some (heldUntil e r) := by
  rw [h.linked]
  exact h.booked.find?_new

theorem provisioned (hn : o.paymentRequestId = none) :
    Provisioned t₃ t (linkedReservation r.id input o) p e := by
  obtain ⟨j, hprov⟩ := h.provision
  exact commits_provisionHeld h.linkedRow hn h.bookedRow rfl hprov

theorem taken (hn : o.paymentRequestId = none) :
    Taken db t order.id o (paying p.id (linkedReservation r.id input o)) r p e := by
  have hp := h.provisioned hn
  have hs : t₂.settings = db.settings := congrArg (fun v => v.1) h.beside
  have ho : t₂.orders = db.orders := congrArg (fun v => v.2.1) h.beside
  have he : t₂.orderEvents = db.orderEvents := congrArg (fun v => v.2.2.1) h.beside
  have hq : t₂.paymentRequests = db.paymentRequests := congrArg (fun v => v.2.2.2.1) h.beside
  have hrow : t₂.orders.find? o.id = some o := by
    rw [ho, h.id, h.row]
  refine ⟨h.row, ⟨input, rfl⟩, fun k => ?_, ?_, ?_, hp.expiry, ?_, ?_⟩
  · have hsave : Table.Updates t₂.orders t₃.orders o.id (linkedReservation r.id input) := by
      rw [h.linked]
      exact Table.updates_update (keeps_linkedReservation _ _)
    have hpay : Table.Updates t₃.orders t.orders o.id (paying p.id) := hp.orders
    rw [moved_rehold hpay h.linkedRow, moved_rehold hsave hrow, ho, ← h.id]
    split_ifs <;> rfl
  · rw [hp.reservations, h.linked]
    exact h.booked
  · rw [← hq]
    have hreq := hp.requests
    rw [h.linked] at hreq
    exact hreq
  · rw [hp.settings, h.linked, ← hs]
  · rw [hp.events, h.linked, ← he]

theorem unprovisioned {k : ℕ} (hn : o.paymentRequestId = some k) : t = t₃ := by
  obtain ⟨j, hprov⟩ := h.provision
  obtain ⟨v, _, hl, hc⟩ := commits_bind.mp hprov
  obtain ⟨hv, rfl⟩ := commits_lockedOrder.mp hl
  obtain rfl := Option.some.inj (h.linkedRow.symm.trans hv)
  obtain ⟨q, _, hq, hc⟩ := commits_bind.mp hc
  obtain rfl := reads_lockedQuote _ _ _ hq
  obtain ⟨w, _, hw, hc⟩ := commits_bind.mp hc
  obtain ⟨_, rfl⟩ := commits_lockedReservation.mp hw
  have hk : (linkedReservation r.id input o).paymentRequestId = some k := hn
  simp only [hk] at hc
  exact (PaymentService.reads_lockedRequest _ _ _ hc).symm

theorem events : t.orderEvents = db.orderEvents := by
  cases hn : o.paymentRequestId with
  | none => exact (h.taken hn).events
  | some k =>
    have he : t₂.orderEvents = db.orderEvents := congrArg (fun v => v.2.2.1) h.beside
    rw [h.unprovisioned hn, h.linked, ← he]

theorem state : ∃ v, t.orders.find? order.id = some v ∧ v.state = o.state := by
  cases hn : o.paymentRequestId with
  | none =>
    have hrow := (h.taken hn).orders order.id
    rw [if_pos rfl] at hrow
    exact ⟨_, hrow, rfl⟩
  | some k =>
    have hrow := h.linkedRow
    rw [h.id, ← h.unprovisioned hn] at hrow
    exact ⟨_, hrow, rfl⟩

end Stages

theorem commits_held_adjustment {o' : DirectBookingOrder} {metadata : SafeMetadata}
    {a : Adjustment} (h : Commits (adjustment o' held metadata) t a u) :
    Commits (holdAdjustment o') t a u := by
  simp only [adjustment, commits_ite, reduceCtorEq, false_and, not_false_eq_true, true_and,
    false_or, not_true_eq_false, and_false, or_false] at h
  exact h

theorem fresh_advances {o' : DirectBookingOrder} (h : Unlinked o)
    (hx : o'.holdExtendedAt = o.holdExtendedAt) : Advances o o' :=
  ⟨fun e he => by simp [h.hold] at he, fun _ => ⟨hx, fun hn => absurd h.hold hn⟩,
    fun hn => absurd h.hold hn⟩

-- A hold under a key that the order has not seen.
theorem advance_hold (hu : event? db order.id ("hold:" ++ identity) = none) :
    Moves Advance (hold setting order input version identity) db := by
  intro res u hc hs
  obtain ⟨o, r, p, e, t₂, t₃, t, hst, htrans⟩ := commits_hold hc
  obtain ⟨v, hv, ⟨_, hused⟩ | ⟨_, hauth, hmove⟩⟩ := commits_transition_move htrans
  · exfalso
    apply hused
    simp only [event?, hst.events, hst.id] at hu ⊢
    exact hu
  · obtain ⟨w, hw, hstate⟩ := hst.state
    rw [hst.id] at hv
    obtain rfl := Option.some.inj (hw.symm.trans hv)
    have hquoted : o.state = quoted := hstate.symm.trans (quoted_of_held hauth)
    have hfresh : fresh o.state = true := by
      rw [hquoted]
      rfl
    have hun := hs.unlinked order.id o hst.row hfresh
    have htaken := hst.taken hun.request
    rw [htaken.orders, if_pos rfl] at hw
    obtain rfl := Option.some.inj hw
    obtain ⟨a, t', hadj, hm⟩ := commits_move_adjusted hmove
    have hhold := commits_held_adjustment hadj
    obtain ⟨rfl, rfl, _⟩ := htaken.adjusted hhold
    exact (rehold_of_taken hs htaken hhold hm).advance (fresh_advances hun rfl) hs

end Holding
section Recovery
open DirectBookingApiService
variable {db t u : Database} {o v : DirectBookingOrder} {q : Option BookingQuote} {i propertyId : ℕ}
variable {reference token identity : String} {version : ℤ} {arrival departure : Option ℤ}
variable {session : DirectBookingTokenService.Session} {res : TransitionResult}
variable {f : DirectBookingOrder → DirectBookingOrder}

-- The session starts anew: what the order held before is no longer the order's hold.
theorem sound_reopened (hs : Sound db) (ho : db.orders.find? i = some o) (hst : o.state = expired)
    (ht : t = { db with orders := db.orders.update i (reopened q) (keeps_reopened q) }) :
    Sound t := by
  have hrow : ∀ k v, t.orders.find? k = some v →
      (k = i ∧ v = reopened q o) ∨ (k ≠ i ∧ db.orders.find? k = some v) := by
    intro k v hv
    rw [ht, moved_rehold (Table.updates_update (keeps_reopened q)) ho] at hv
    split_ifs at hv with hk
    · exact Or.inl ⟨hk, (Option.some.inj hv).symm⟩
    · exact Or.inr ⟨hk, hv⟩
  have hinactive : active (reopened q o).state = false := by
    show active o.state = false
    rw [hst]
    rfl
  have hres : ∀ k v, t.orders.find? k = some v → ∃ w, db.orders.find? k = some w ∧
      v.reservationId = w.reservationId ∧
        (v.paymentRequestId = w.paymentRequestId ∨ v.paymentRequestId = none) := by
    intro k v hv
    rcases hrow k v hv with ⟨rfl, rfl⟩ | ⟨_, hv⟩
    · exact ⟨o, ho, rfl, Or.inr rfl⟩
    · exact ⟨v, hv, rfl, Or.inl rfl⟩
  refine ⟨?_, ?_, ?_, ?_, ?_, ?_, ?_, ?_⟩
  · rw [ht]
    exact hs.settings
  · intro k v hv e he
    rcases hrow k v hv with ⟨rfl, rfl⟩ | ⟨_, hv⟩
    · cases he
    · rw [ht]
      exact hs.bounded k v hv e he
  · intro k v hv hact
    rcases hrow k v hv with ⟨rfl, rfl⟩ | ⟨_, hv⟩
    · simp [hinactive] at hact
    · obtain ⟨e, ha⟩ := hs.agreed k v hv hact
      rw [ht]
      exact ⟨e, ha.order, ha.reservation, ha.request⟩
  · intro k v hv hf
    rcases hrow k v hv with ⟨rfl, rfl⟩ | ⟨_, hv⟩
    · exact ⟨rfl, rfl⟩
    · exact hs.unlinked k v hv hf
  · intro k v hv j hj
    obtain ⟨w, hw, he, _⟩ := hres k v hv
    rw [ht]
    exact hs.reservations k w hw j (he ▸ hj)
  · intro k v hv j hj
    obtain ⟨w, hw, _, he | hn⟩ := hres k v hv
    · rw [ht]
      exact hs.requests k w hw j (he ▸ hj)
    · simp [hn] at hj
  · intro k l v v' hv hv' j hj hj'
    obtain ⟨w, hw, he, _⟩ := hres k v hv
    obtain ⟨w', hw', he', _⟩ := hres l v' hv'
    exact hs.apart k l w w' hw hw' j (he ▸ hj) (he' ▸ hj')
  · intro k l v v' hv hv' j hj hj'
    obtain ⟨w, hw, _, he | hn⟩ := hres k v hv
    · obtain ⟨w', hw', _, he' | hn'⟩ := hres l v' hv'
      · exact hs.distinct k l w w' hw hw' j (he ▸ hj) (he' ▸ hj')
      · simp [hn'] at hj'
    · simp [hn] at hj

theorem commits_rotate (h : Commits (DirectBookingTokenService.recover token propertyId session)
    db o t) : Quiet db t ∧ t.orders.find? o.id = some o ∧
      ∃ w, db.orders.find? o.id = some w ∧ w.recoveryTokenHash = some token := by
  have h := commits_get_bind.mp h
  obtain ⟨w, hw, h⟩ := commits_orFail_bind.mp h
  obtain ⟨_, h⟩ := commits_reject_bind.mp h
  have h := commits_set_bind.mp h
  obtain ⟨rfl, rfl⟩ := commits_pure.mp h
  obtain ⟨hmem, htoken⟩ := Table.first?_some hw
  have hfind : db.orders.find? w.id = some w := Table.find?_eq_some.mpr ⟨hmem, rfl⟩
  refine ⟨quiet_orders (.update fun v _ => ?_), ?_, w, hfind, by simpa using htoken⟩
  · exact ⟨rfl, rfl, rfl, rfl, rfl, Or.inl rfl, id, Or.inl⟩
  · exact Table.find?_update_self hfind (DirectBookingTokenService.keeps_rotated _ _)

theorem spares_reprice : Spares holds (repriceFor o propertyId arrival departure) db := by
  unfold repriceFor
  split
  · unfold reprice
    split
    · exact Spares.pure
    · exact Spares.get_bind (Spares.orFail_bind fun _ _ => Spares.map (Spares.rethrow spares_create))
  · exact Spares.pure
  · exact Spares.throw

-- Recovery gives up the hold of its own order and of no other.
theorem advance_recover (hs : Sound db)
    (h : Commits (recover propertyId reference token version identity arrival departure session)
      db res u) : Sound u ∧ ∀ k v, db.orders.find? k = some v → v.recoveryTokenHash ≠ some token →
        ∃ v', u.orders.find? k = some v' ∧ Advances v v' := by
  obtain ⟨o, t₁, hrot, h⟩ := commits_bind.mp h
  obtain ⟨hquiet, hrow, w, hw, htoken⟩ := commits_rotate hrot
  obtain ⟨hok, h⟩ := commits_reject_bind.mp h
  have hst : o.state = expired := not_not.mp (not_or.mp hok).2
  obtain ⟨q, t₂, hprice, h⟩ := commits_bind.mp h
  have hspare := spares_reprice.eq hprice
  have horders : t₂.orders = t₁.orders := congrArg (fun v => v.2.1) hspare
  rw [← horders] at hrow
  obtain ⟨_, t₃, hsave, h⟩ := commits_bind.mp h
  have ht := commits_saveOrder hsave
  obtain ⟨hs₂, hforward⟩ := IsTrans.trans _ _ _ hquiet.advance (quiet_of_eq hspare).advance hs
  have hs₃ := sound_reopened hs₂ hrow hst ht
  obtain ⟨hsound, hforward'⟩ := advance_transition (by simp) (fun _ v hv => by
    rw [ht, Table.find?_update_self hrow (keeps_reopened q)] at hv
    obtain rfl := Option.some.inj hv
    exact ⟨rfl, rfl⟩) res u h hs₃
  refine ⟨hsound, fun k v hv hne => ?_⟩
  have hk : k ≠ o.id := by
    rintro rfl
    obtain rfl := Option.some.inj (hw.symm.trans hv)
    exact hne htoken
  obtain ⟨v', hv', hadv⟩ := hforward k v hv
  have hkept : t₃.orders.find? k = some v' := by
    rw [ht, moved_rehold (Table.updates_update (keeps_reopened q)) hrow, if_neg hk, hv']
  obtain ⟨v'', hv'', hadv'⟩ := hforward' k v' hkept
  exact ⟨v'', hv'', IsTrans.trans _ _ _ hadv hadv'⟩

end Recovery
end PublicHolds
