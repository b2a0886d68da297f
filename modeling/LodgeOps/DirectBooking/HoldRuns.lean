import LodgeOps.DirectBooking.PublicHolds
import LodgeOps.DirectBooking.EventLog
import LodgeOps.Booking.BookedTotals

namespace HoldRuns
open Schema Transaction DirectBookingOrderState PublicHolds
open DirectBookingApiService (HoldInput)
open IssueDirectBookingPaymentRequest (Secrets)
open LedgerRuns (quietly commits_quietly)

section Operations

inductive Operation
  | issue (setting : DirectBookingPropertySetting) (locale currency : String)
      (session : DirectBookingTokenService.Session) (reference : String)
  | quote (order : DirectBookingOrder) (input : BookingQuoteService.BookingInput) (version : ℤ)
      (identity : String)
  | hold (setting : DirectBookingPropertySetting) (order : DirectBookingOrder) (input : HoldInput)
      (version : ℤ) (identity : String)
  | manualCheckout (order : DirectBookingOrder) (version : ℤ) (identity : String)
  | hostedCheckout (order : DirectBookingOrder) (version : ℤ) (identity : String)
      (secrets : Secrets)
  | extendHold (setting : DirectBookingPropertySetting) (current : DirectBookingOrder)
      (checkoutExpiresAt : Option ℤ) (identity : String)
  | retryManually (order : DirectBookingOrder) (version : ℤ) (identity : String)
  | retryPayment (order : DirectBookingOrder) (version : ℤ) (identity : String) (secrets : Secrets)
  | evidenceAccepted (order : DirectBookingOrder) (version : ℤ) (identity : String)
  | recover (propertyId : ℕ) (reference recoveryToken : String) (version : ℤ) (identity : String)
      (arrival departure : Option ℤ) (session : DirectBookingTokenService.Session)
  | paymentApproved (attempt : PaymentAttempt)
  | paymentNeedsReview (attempt : PaymentAttempt) (reason : String)
  | paymentFailed (attempt : PaymentAttempt) (reason : String)
  | paymentRefunded (refund : ProviderRefund)
  | prepareApproval (evidence : ReviewPaymentEvidence.PaymentEvidence)
  | evidenceApproved (evidence : ReviewPaymentEvidence.PaymentEvidence)
  | evidenceRejected (evidence : ReviewPaymentEvidence.PaymentEvidence)
  | expire (readAt : ℤ) (order : DirectBookingOrder)
  | scrub (order : DirectBookingOrder) (purged : String)
  | expireDueHolds (batch : ℕ)
  | elsewhere (result : Database)

def Operation.run : Operation → Tx Unit
  | issue setting locale currency session reference =>
    quietly (DirectBookingTokenService.issue setting locale currency session reference)
  | quote order input version identity =>
    quietly (DirectBookingApiService.quote order input version identity)
  | hold setting order input version identity =>
    quietly (DirectBookingApiService.hold setting order input version identity)
  | manualCheckout order version identity =>
    quietly (DirectBookingApiService.manualCheckout order version identity)
  | hostedCheckout order version identity secrets =>
    quietly (DirectBookingApiService.hostedCheckout order version identity secrets)
  | extendHold setting current checkoutExpiresAt identity =>
    DirectBookingApiService.extendHold setting current checkoutExpiresAt identity
  | retryManually order version identity =>
    quietly (DirectBookingApiService.retryManually order version identity)
  | retryPayment order version identity secrets =>
    quietly (DirectBookingApiService.retryPayment order version identity secrets)
  | evidenceAccepted order version identity =>
    quietly (DirectBookingApiService.evidenceAccepted order version identity)
  | recover propertyId reference token version identity arrival departure session =>
    quietly (DirectBookingApiService.recover propertyId reference token version identity arrival
      departure session)
  | paymentApproved attempt => DirectBookingPaymentReconciler.approved attempt
  | paymentNeedsReview attempt reason =>
    DirectBookingPaymentReconciler.needsReview attempt reason
  | paymentFailed attempt reason => DirectBookingPaymentReconciler.failed attempt reason
  | paymentRefunded refund => DirectBookingPaymentReconciler.refunded refund
  | prepareApproval evidence => DirectBookingManualReviewReconciler.prepareApproval evidence
  | evidenceApproved evidence => DirectBookingManualReviewReconciler.approved evidence
  | evidenceRejected evidence => DirectBookingManualReviewReconciler.rejected evidence
  | expire readAt order => MaintainDirectBookingOrders.expire readAt order
  | scrub order purged => MaintainDirectBookingOrders.scrub order purged
  | expireDueHolds batch => ReservationService.expireDueHolds batch
  | elsewhere result => set result

-- A hold is taken once under a key, and nothing else renews the hold of an order's reservation.
def Operation.Honest (op : Operation) (db : Database) : Prop :=
  match op with
  | hold _ order _ _ identity =>
    DirectBookingStateMachine.event? db order.id ("hold:" ++ identity) = none
  | elsewhere result => Quiet db result
  | _ => True

-- The session of the order is not recovered.
def Operation.Sparing (i : ℕ) (op : Operation) (db : Database) : Prop :=
  op.Honest db ∧ match op with
  | recover _ _ token _ _ _ _ _ =>
    ∀ o, db.orders.find? i = some o → o.recoveryTokenHash ≠ some token
  | _ => True

end Operations

section Steps
variable {db t : Database} {op : Operation} {i : ℕ}

theorem recovers_or_advances (ha : op.Honest db) (h : Commits op.run db () t) (hs : Sound db) :
    Sound t ∧ (op.Sparing i db → ∀ o, db.orders.find? i = some o →
      ∃ o', t.orders.find? i = some o' ∧ Advances o o') := by
  have hadvance : ∀ {x : Tx Unit}, Moves Advance x db → Commits x db () t →
      Sound t ∧ (op.Sparing i db → ∀ o, db.orders.find? i = some o →
        ∃ o', t.orders.find? i = some o' ∧ Advances o o') := by
    intro x hx hc
    obtain ⟨hsound, hforward⟩ := hx () t hc hs
    exact ⟨hsound, fun _ o ho => hforward i o ho⟩
  cases op with
  | issue => exact hadvance (Moves.map (advance_of_quiet quiet_issue)) h
  | quote => exact hadvance (Moves.map advance_quote) h
  | hold => exact hadvance (Moves.map (advance_hold ha)) h
  | manualCheckout => exact hadvance (Moves.map advance_manualCheckout) h
  | hostedCheckout => exact hadvance (Moves.map advance_hostedCheckout) h
  | extendHold => exact hadvance advance_extendHold h
  | retryManually => exact hadvance (Moves.map advance_retryManually) h
  | retryPayment => exact hadvance (Moves.map advance_retryPayment) h
  | evidenceAccepted => exact hadvance (Moves.map advance_evidenceAccepted) h
  | recover =>
    obtain ⟨res, h⟩ := commits_quietly h
    obtain ⟨hsound, hothers⟩ := advance_recover hs h
    exact ⟨hsound, fun hk o ho => hothers i o ho (hk.2 o ho)⟩
  | paymentApproved => exact hadvance advance_approved h
  | paymentNeedsReview => exact hadvance advance_needsReview h
  | paymentFailed => exact hadvance advance_failed h
  | paymentRefunded => exact hadvance advance_refunded h
  | prepareApproval => exact hadvance advance_prepareApproval h
  | evidenceApproved => exact hadvance advance_approvedEvidence h
  | evidenceRejected => exact hadvance advance_rejectedEvidence h
  | expire => exact hadvance advance_expire h
  | scrub => exact hadvance (advance_of_quiet quiet_scrub) h
  | expireDueHolds => exact hadvance (advance_of_quiet quiet_expireDueHolds) h
  | elsewhere result => exact hadvance (advance_of_quiet (Moves.set ha)) h

structure Opening (db : Database) : Prop where
  settings : ∀ p g, db.settings p = some g → g.initialHoldMinutes ≤ g.maximumHoldMinutes
  orders : db.orders.rows = []

theorem sound_of_opening (h : Opening db) : Sound db := by
  have hnone : ∀ i, db.orders.find? i = none := by
    intro i
    rw [Table.find?_eq_none, h.orders]
    simp
  exact ⟨h.settings, by simp [hnone], by simp [hnone], by simp [hnone], by simp [hnone],
    by simp [hnone], by simp [hnone], by simp [hnone]⟩

theorem sound_of_reaches {s : Database} (hs : Opening s)
    (h : Reaches Operation.run Operation.Honest s t) : Sound t :=
  h.invariant (sound_of_opening hs) fun _ _ _ hsound ha hc =>
    (recovers_or_advances (i := 0) ha hc hsound).1

theorem advances_of_reaches {u : Database} (hs : Sound t)
    (h : Reaches Operation.run (Operation.Sparing i) t u) :
    Sound u ∧ ∀ o, t.orders.find? i = some o → ∃ o', u.orders.find? i = some o' ∧ Advances o o' := by
  refine h.invariant (I := fun u => Sound u ∧ ∀ o, t.orders.find? i = some o →
    ∃ o', u.orders.find? i = some o' ∧ Advances o o') ⟨hs, fun o ho => ⟨o, ho, Std.Refl.refl o⟩⟩ ?_
  intro op v w ⟨hv, hall⟩ ha hc
  obtain ⟨hw, hstep⟩ := recovers_or_advances ha.1 hc hv
  refine ⟨hw, fun o ho => ?_⟩
  obtain ⟨o', ho', hadv⟩ := hall o ho
  obtain ⟨o'', ho'', hadv'⟩ := hstep ha o' ho'
  exact ⟨o'', ho'', IsTrans.trans _ _ _ hadv hadv'⟩

-- Until when a public booking keeps its inventory from others.
theorem public_holds_are_bounded {s u : Database} (hs : Opening s)
    (h : Reaches Operation.run Operation.Honest s t) :
    (∀ i o, t.orders.find? i = some o → active o.state = true → ∃ e b g,
      o.holdExpiresAt = some e ∧ o.heldAt = some b ∧ t.settings o.propertyId = some g ∧
      e ≤ b + 60 * g.maximumHoldMinutes ∧
      (∀ r, o.reservationId.bind t.reservation? = some r → r.status = .hold →
        r.holdExpiresAt = some e) ∧
      ∀ q, o.paymentRequestId.bind t.paymentRequests.find? = some q → q.expiresAt = e) ∧
    ∀ i o, t.orders.find? i = some o → Reaches Operation.run (Operation.Sparing i) t u →
      ∃ o', u.orders.find? i = some o' ∧
        (∀ e, o.holdExpiresAt = some e → ∃ e', o'.holdExpiresAt = some e' ∧ e ≤ e' ∧
          (e' ≠ e → o.holdExtendedAt = none ∧ o'.holdExtendedAt ≠ none)) ∧
        (o.holdExtendedAt ≠ none → o'.holdExtendedAt = o.holdExtendedAt) := by
  have hsound := sound_of_reaches hs h
  refine ⟨fun i o ho hact => ?_, fun i o ho hr => ?_⟩
  · obtain ⟨e, ha⟩ := hsound.agreed i o ho hact
    obtain ⟨b, g, hb, hg, hle⟩ := hsound.bounded i o ho e ha.order
    exact ⟨e, b, g, ha.order, hb, hg, hle, ha.reservation, ha.request⟩
  · obtain ⟨o', ho', hadv⟩ := (advances_of_reaches hsound hr).2 o ho
    refine ⟨o', ho', fun e he => ?_, fun hx => (hadv.once hx).1⟩
    obtain ⟨e', he', hle⟩ := hadv.later e he
    refine ⟨e', he', hle, fun hne => hadv.marked (by simp [he]) ?_⟩
    rw [he, he']
    exact fun hc => hne (Option.some.inj hc)

end Steps

section Scenario

def lodge : Database :=
  { BookedTotals.season with
    settings := fun i => if i = 0 then some EventLog.setting else none }

def quoted₀ : DirectBookingOrder :=
  { EventLog.order₀ with
    state := .quoted
    stateVersion := 2 }

def held₀ : DirectBookingOrder :=
  { EventLog.order₀ with
    state := .held
    stateVersion := 3
    reservationId := some 0
    heldAt := some 0
    holdExpiresAt := some 1800 }

def pending₀ : DirectBookingOrder :=
  { held₀ with
    state := .paymentPending
    stateVersion := 4 }

def guest : HoldInput where
  guest := { firstName := "Ana" }
  contact := "ana"
  contactChecksum := "ana"
  secrets := ⟨"request-0", "access-0"⟩

def booking : List Operation :=
  [.issue EventLog.setting "es" "usd" EventLog.session "order-0",
    .quote EventLog.order₀ (BookedTotals.nightsFrom 10 1) 1 "key-0000000000001",
    .hold EventLog.setting quoted₀ guest 2 "key-0000000000002",
    .hostedCheckout held₀ 3 "key-0000000000003" ⟨"request-1", "access-1"⟩]

def plainly (op : Operation) (db : Database) : Bool :=
  match op with
  | .hold _ order _ _ identity =>
    (DirectBookingStateMachine.event? db order.id ("hold:" ++ identity)).isNone
  | .recover _ _ _ _ _ _ _ _ => false
  | .elsewhere _ => false
  | _ => true

theorem sparing_of_plainly {op : Operation} {db : Database} {i : ℕ} (h : plainly op db = true) :
    op.Sparing i db := by
  cases op with
  | hold => exact ⟨Option.isNone_iff_eq_none.mp h, trivial⟩
  | recover => cases h
  | elsewhere => cases h
  | _ => exact ⟨trivial, trivial⟩

theorem opening_lodge : Opening lodge := by
  refine ⟨fun p g hg => ?_, rfl⟩
  simp only [lodge, Option.ite_none_right_eq_some, Option.some.injEq] at hg
  rw [← hg.2]
  decide

-- A hold of half an hour, extended by a quarter while the hosted checkout is open.
theorem checkout_extends_the_hold : ∃ t u o o' e', Reaches Operation.run Operation.Honest lodge t ∧
    Reaches Operation.run (Operation.Sparing 0) t u ∧ t.orders.find? 0 = some o ∧
    o.holdExpiresAt = some 1800 ∧ u.orders.find? 0 = some o' ∧ o'.holdExpiresAt = some e' ∧
    e' = 2700 ∧ 1800 ≤ e' ∧ o'.holdExtendedAt ≠ none := by
  obtain ⟨t, u, ht, hu, hp⟩ : ∃ t u, Reaches Operation.run (Operation.Sparing 0) lodge t ∧
      Reaches Operation.run (Operation.Sparing 0) t u ∧
        (decide ((t.orders.find? 0).map DirectBookingOrder.holdExpiresAt = some (some 1800)) &&
          decide ((u.orders.find? 0).map DirectBookingOrder.holdExpiresAt =
            some (some 2700))) = true :=
    Reaches.exists_of_two_runs plainly (fun _ _ => sparing_of_plainly) booking
      [.extendHold EventLog.setting pending₀ (some 3000) "key-0000000000004"] (by decide +kernel)
  obtain ⟨hp, hq⟩ := Bool.and_eq_true_iff.mp hp
  obtain ⟨o, ho, he⟩ := Option.map_eq_some_iff.mp (of_decide_eq_true hp)
  have hhonest := ht.mono fun _ _ h => h.1
  obtain ⟨o', ho', hlater, _⟩ := (public_holds_are_bounded (u := u) opening_lodge hhonest).2 0 o ho hu
  obtain ⟨e', he', hle, hmark⟩ := hlater 1800 he
  rw [ho', Option.map_some] at hq
  have hend : e' = 2700 :=
    Option.some.inj (he'.symm.trans (Option.some.inj (of_decide_eq_true hq)))
  refine ⟨t, u, o, o', e', hhonest, hu, ho, he, ho', he', hend, hle, (hmark ?_).2⟩
  omega

end Scenario
end HoldRuns
