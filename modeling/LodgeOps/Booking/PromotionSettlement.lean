import LodgeOps.Booking.PromotionUsage
import LodgeOps.Store.Batches
import LodgeOps.Store.Evolution

namespace CommercialPromotionService
open Schema Transaction

section Outcomes

def usageTypes (es : Table CommercialPromotionUsageEvent) (i : ℕ) : List UsageEventType :=
  es.seen (fun e => e.commercialPromotionUsageId == i) CommercialPromotionUsageEvent.type

def redemptionTypes (es : Table VoucherRedemptionEvent) (i : ℕ) : List UsageEventType :=
  es.seen (fun e => e.voucherRedemptionId == i) VoucherRedemptionEvent.type

structure Outcome where
  state : UsageState
  types : List UsageEventType

def Uses (next : CommercialPromotionUsage → Outcome) (u u' : CommercialPromotionUsage)
    (types : List UsageEventType) : Prop :=
  { u' with state := u.state, supersededById := u.supersededById } = u ∧
    u'.state = (next u).state ∧ types = (next u).types

def Redeems (next : VoucherRedemption → Outcome) (x x' : VoucherRedemption)
    (types : List UsageEventType) : Prop :=
  { x' with state := x.state } = x ∧ x'.state = (next x).state ∧ types = (next x).types

def confirmedUsage (reservationId : ℕ) (u : CommercialPromotionUsage) : Outcome :=
  if (u.reservationId == reservationId && u.state == .reserved) = true
  then ⟨.confirmed, [.confirmed]⟩ else ⟨u.state, []⟩

def confirmedRedemption (reservationId : ℕ) (x : VoucherRedemption) : Outcome :=
  if (x.reservationId == reservationId && (x.state == .reserved || x.state == .reinstated)) = true
  then ⟨.confirmed, [.confirmed]⟩ else ⟨x.state, []⟩

def releasedUsage (db : Database) (reservationId : ℕ) (cancellation : Bool)
    (u : CommercialPromotionUsage) : Outcome :=
  if (u.reservationId == reservationId && isActive u.state) = true ∧
      (cancellation = false ∨ reinstates db u.commercialPromotionId = true)
  then ⟨.released, [.released]⟩ else ⟨u.state, []⟩

def releasedRedemption (db : Database) (reservationId : ℕ) (cancellation : Bool)
    (x : VoucherRedemption) : Outcome :=
  if (x.reservationId == reservationId && isActive x.state) = true then
    if cancellation = false ∨ voucherReinstates db x.voucherId = true
    then ⟨.released, [.released]⟩ else ⟨x.state, [.retained]⟩
  else ⟨x.state, []⟩

def supersededUsage (old : List ℕ) (u : CommercialPromotionUsage) : Outcome :=
  if u.id ∈ old then ⟨.released, [.superseded]⟩ else ⟨u.state, []⟩

def supersededRedemption (spent : List ℕ) (x : VoucherRedemption) : Outcome :=
  if x.id ∈ spent then ⟨.released, [.superseded]⟩ else ⟨x.state, []⟩

def refundedAs (reinstated : Bool) (active : Bool) (state : UsageState) : Outcome :=
  if reinstated = true then ⟨if active = true then .released else state, [.refundReinstated]⟩
  else ⟨state, [.refundRetained]⟩

def refundedUsage (db : Database) (r : Reservation) (u : CommercialPromotionUsage) : Outcome :=
  if (u.reservationId == r.id) = true
  then refundedAs (closed r && reinstates db u.commercialPromotionId) (isActive u.state) u.state
  else ⟨u.state, []⟩

def refundedRedemption (db : Database) (r : Reservation) (x : VoucherRedemption) : Outcome :=
  if (x.reservationId == r.id) = true
  then refundedAs (closed r && voucherReinstates db x.voucherId)
    (isActive x.state || x.state == .reinstated) x.state
  else ⟨x.state, []⟩

end Outcomes

section Noted
variable {s t : PromotionDesk} {u : CommercialPromotionUsage} {x : VoucherRedemption} {i : ℕ}
variable {next : CommercialPromotionUsage → Outcome} {nextRedemption : VoucherRedemption → Outcome}
variable {type : UsageEventType} {facts : UsageFacts} {reason : String} {actorId : Option ℕ}

structure UsageHandled (next : CommercialPromotionUsage → Outcome) (u : CommercialPromotionUsage)
    (s t : PromotionDesk) : Prop where
  rows : Table.Handles (Uses next) u s.db.promotionUsages t.db.promotionUsages
    (usageTypes s.usageEvents) (usageTypes t.usageEvents)
  frame : t.db = { s.db with promotionUsages := t.db.promotionUsages }
  events : t.redemptionEvents = s.redemptionEvents

structure RedemptionHandled (next : VoucherRedemption → Outcome) (x : VoucherRedemption)
    (s t : PromotionDesk) : Prop where
  rows : Table.Handles (Redeems next) x s.db.voucherRedemptions t.db.voucherRedemptions
    (redemptionTypes s.redemptionEvents) (redemptionTypes t.redemptionEvents)
  frame : t.db = { s.db with voucherRedemptions := t.db.voucherRedemptions }
  events : t.usageEvents = s.usageEvents

theorem updates_same {ρ : Type} [Keyed ρ] {t : Table ρ} : Table.Updates t t i id :=
  ⟨by simp, rfl, fun _ => rfl⟩

theorem commits_usageEvent (h : Commits (usageEvent i type facts actorId) s () t) :
    t.db = s.db ∧ t.redemptionEvents = s.redemptionEvents ∧ ∀ k, usageTypes t.usageEvents k =
      usageTypes s.usageEvents k ++ if i == k then [type] else [] := by
  obtain rfl := commits_modify.mp h
  exact ⟨rfl, rfl, fun k => Table.seen_insert (names_usageNote _ _ _ _ _)⟩

theorem commits_event (h : Commits (event i type reason facts actorId) s () t) :
    t.db = s.db ∧ t.usageEvents = s.usageEvents ∧ ∀ k, redemptionTypes t.redemptionEvents k =
      redemptionTypes s.redemptionEvents k ++ if i == k then [type] else [] := by
  obtain rfl := commits_modify.mp h
  exact ⟨rfl, rfl, fun k => Table.seen_insert (names_redemptionNote _ _ _ _ _ _)⟩

theorem handled_saved {f : CommercialPromotionUsage → CommercialPromotionUsage} {hf : Keeps f}
    (h : Commits (saveUsage u.id f hf >>= fun _ => usageEvent u.id type facts actorId) s () t)
    (hu : Uses next u (f u) [type]) : UsageHandled next u s t := by
  have h := commits_modify_bind.mp h
  obtain ⟨hdb, hevents, htypes⟩ := commits_usageEvent h
  refine ⟨Table.handles_filed (f := f) ?_ hu htypes, ?_, hevents⟩
  · rw [hdb]
    exact Table.updates_update hf
  · rw [hdb]

theorem handled_noted (h : Commits (usageEvent u.id type facts actorId) s () t)
    (hu : Uses next u u [type]) : UsageHandled next u s t := by
  obtain ⟨hdb, hevents, htypes⟩ := commits_usageEvent h
  refine ⟨Table.handles_filed (f := id) ?_ hu htypes, ?_, hevents⟩
  · rw [hdb]
    exact updates_same
  · rw [hdb]

theorem handled_passed (hu : Uses next u u []) : UsageHandled next u s s :=
  ⟨Table.handles_passed hu, rfl, rfl⟩

theorem redeemed_saved {state : UsageState}
    (h : Commits (saveRedemption x.id state >>= fun _ => event x.id type reason facts actorId)
      s () t)
    (hx : Redeems nextRedemption x (redeemedAs state x) [type]) :
    RedemptionHandled nextRedemption x s t := by
  have h := commits_modify_bind.mp h
  obtain ⟨hdb, hevents, htypes⟩ := commits_event h
  refine ⟨Table.handles_filed (f := redeemedAs state) ?_ hx htypes, ?_, hevents⟩
  · rw [hdb]
    exact Table.updates_update (keeps_redeemedAs _)
  · rw [hdb]

theorem redeemed_noted (h : Commits (event x.id type reason facts actorId) s () t)
    (hx : Redeems nextRedemption x x [type]) : RedemptionHandled nextRedemption x s t := by
  obtain ⟨hdb, hevents, htypes⟩ := commits_event h
  refine ⟨Table.handles_filed (f := id) ?_ hx htypes, ?_, hevents⟩
  · rw [hdb]
    exact updates_same
  · rw [hdb]

end Noted

section Steps
variable {s t : PromotionDesk} {c : Claim} {u : CommercialPromotionUsage} {x : VoucherRedemption}
variable {actorId : Option ℕ} {reason : String} {cancellation : Bool} {r : Reservation}
variable {refund : ReservationChange} {i : ℕ} {db : Database} {ids : List ℕ}

theorem handled_confirmUsage (hu : (u.reservationId == i && u.state == .reserved) = true)
    (h : Commits (confirmUsage actorId u) s () t) : UsageHandled (confirmedUsage i) u s t :=
  handled_saved h ⟨rfl, by simp [confirmedUsage, hu, usedAs], by simp [confirmedUsage, hu]⟩

theorem handled_confirmRedemption
    (hx : (x.reservationId == i && (x.state == .reserved || x.state == .reinstated)) = true)
    (h : Commits (confirmRedemption actorId x) s () t) :
    RedemptionHandled (confirmedRedemption i) x s t :=
  redeemed_saved h
    ⟨rfl, by simp [confirmedRedemption, hx, redeemedAs], by simp [confirmedRedemption, hx]⟩

theorem handled_releaseUsage (hu : (u.reservationId == i && isActive u.state) = true)
    (hp : s.db.promotions = db.promotions)
    (h : Commits (releaseUsage reason cancellation actorId u) s () t) :
    UsageHandled (releasedUsage db i cancellation) u s t := by
  have hre : reinstates s.db u.commercialPromotionId = reinstates db u.commercialPromotionId := by
    unfold reinstates
    rw [hp]
  have h := commits_get_bind.mp h
  rcases commits_ite.mp h with ⟨hc, h⟩ | ⟨hc, h⟩
  · rw [hre] at hc
    exact handled_saved h ⟨rfl, by simp [releasedUsage, hu, hc, usedAs],
      by simp [releasedUsage, hu, hc]⟩
  · rw [hre] at hc
    obtain ⟨_, rfl⟩ := commits_pure.mp h
    exact handled_passed ⟨rfl, by simp [releasedUsage, hc], by simp [releasedUsage, hc]⟩

theorem handled_releaseRedemption (hx : (x.reservationId == i && isActive x.state) = true)
    (hp : s.db.promotions = db.promotions) (hv : s.db.vouchers = db.vouchers)
    (h : Commits (releaseRedemption reason cancellation actorId x) s () t) :
    RedemptionHandled (releasedRedemption db i cancellation) x s t := by
  have hre : voucherReinstates s.db x.voucherId = voucherReinstates db x.voucherId := by
    unfold voucherReinstates reinstates
    rw [hp, hv]
  have h := commits_get_bind.mp h
  rcases commits_ite.mp h with ⟨hc, h⟩ | ⟨hc, h⟩
  · rw [hre] at hc
    exact redeemed_saved h ⟨rfl, by simp [releasedRedemption, hx, hc, redeemedAs],
      by simp [releasedRedemption, hx, hc]⟩
  · rw [hre] at hc
    exact redeemed_noted h ⟨rfl, by simp [releasedRedemption, hx, hc],
      by simp [releasedRedemption, hx, hc]⟩

theorem handled_supersedeUsage (hu : u.id ∈ ids) (h : Commits (supersedeUsage c u) s () t) :
    UsageHandled (supersededUsage ids) u s t := by
  have h := commits_get_bind.mp h
  exact handled_saved h ⟨rfl, by simp [supersededUsage, hu, supersededBy],
    by simp [supersededUsage, hu]⟩

theorem handled_supersedeRedemption (hx : x.id ∈ ids)
    (h : Commits (supersedeRedemption c x) s () t) :
    RedemptionHandled (supersededRedemption ids) x s t :=
  redeemed_saved h ⟨rfl, by simp [supersededRedemption, hx, redeemedAs],
    by simp [supersededRedemption, hx]⟩

theorem handled_refundUsage (hu : (u.reservationId == r.id) = true)
    (hp : s.db.promotions = db.promotions) (h : Commits (refundUsage r refund actorId u) s () t) :
    UsageHandled (refundedUsage db r) u s t := by
  have hre : reinstates s.db u.commercialPromotionId = reinstates db u.commercialPromotionId := by
    unfold reinstates
    rw [hp]
  have h := commits_get_bind.mp h
  rw [hre] at h
  cases hr : closed r && reinstates db u.commercialPromotionId with
  | false =>
    simp only [hr, Bool.false_eq_true, false_and, if_false] at h
    exact handled_noted h ⟨rfl, by simp [refundedUsage, hu, refundedAs, hr],
      by simp [refundedUsage, hu, refundedAs, hr]⟩
  | true =>
    simp only [hr, true_and, if_true] at h
    cases ha : isActive u.state with
    | true =>
      simp only [ha, if_true] at h
      exact handled_saved h ⟨rfl, by simp [refundedUsage, hu, refundedAs, hr, ha, usedAs],
        by simp [refundedUsage, hu, refundedAs, hr]⟩
    | false =>
      simp only [ha, Bool.false_eq_true, if_false] at h
      exact handled_noted h ⟨rfl, by simp [refundedUsage, hu, refundedAs, hr, ha],
        by simp [refundedUsage, hu, refundedAs, hr]⟩

theorem handled_refundRedemption (hx : (x.reservationId == r.id) = true)
    (hp : s.db.promotions = db.promotions) (hv : s.db.vouchers = db.vouchers)
    (h : Commits (refundRedemption r refund actorId x) s () t) :
    RedemptionHandled (refundedRedemption db r) x s t := by
  have hre : voucherReinstates s.db x.voucherId = voucherReinstates db x.voucherId := by
    unfold voucherReinstates reinstates
    rw [hp, hv]
  have h := commits_get_bind.mp h
  rw [hre] at h
  cases hr : closed r && voucherReinstates db x.voucherId with
  | false =>
    simp only [hr, Bool.false_eq_true, false_and, if_false] at h
    exact redeemed_noted h ⟨rfl, by simp [refundedRedemption, hx, refundedAs, hr],
      by simp [refundedRedemption, hx, refundedAs, hr]⟩
  | true =>
    simp only [hr, true_and, if_true] at h
    cases ha : (isActive x.state || x.state == .reinstated) with
    | true =>
      simp only [ha, if_true] at h
      exact redeemed_saved h ⟨rfl, by simp [refundedRedemption, hx, refundedAs, hr, ha, redeemedAs],
        by simp [refundedRedemption, hx, refundedAs, hr]⟩
    | false =>
      simp only [ha, Bool.false_eq_true, if_false] at h
      exact redeemed_noted h ⟨rfl, by simp [refundedRedemption, hx, refundedAs, hr, ha],
        by simp [refundedRedemption, hx, refundedAs, hr]⟩

end Steps

section Batches
variable {s t m : PromotionDesk} {c : Claim} {us : List CommercialPromotionUsage}
variable {xs : List VoucherRedemption} {next : CommercialPromotionUsage → Outcome}
variable {nextRedemption : VoucherRedemption → Outcome} {i : ℕ} {actorId : Option ℕ}
variable {reason : String} {cancellation : Bool} {r : Reservation} {refund : ReservationChange}

structure UsagesSettled (next : CommercialPromotionUsage → Outcome) (s t : PromotionDesk) :
    Prop where
  rows : Table.Revises (Uses next) s.db.promotionUsages t.db.promotionUsages
    (usageTypes s.usageEvents) (usageTypes t.usageEvents)
  frame : t.db = { s.db with promotionUsages := t.db.promotionUsages }
  events : t.redemptionEvents = s.redemptionEvents

structure RedemptionsSettled (next : VoucherRedemption → Outcome) (s t : PromotionDesk) : Prop where
  rows : Table.Revises (Redeems next) s.db.voucherRedemptions t.db.voucherRedemptions
    (redemptionTypes s.redemptionEvents) (redemptionTypes t.redemptionEvents)
  frame : t.db = { s.db with voucherRedemptions := t.db.voucherRedemptions }
  events : t.usageEvents = s.usageEvents

-- Every usage and every redemption has gone on to what its outcome says.
structure Settles (next : CommercialPromotionUsage → Outcome)
    (nextRedemption : VoucherRedemption → Outcome) (s t : PromotionDesk) : Prop where
  usages : Table.Revises (Uses next) s.db.promotionUsages t.db.promotionUsages
    (usageTypes s.usageEvents) (usageTypes t.usageEvents)
  redemptions : Table.Revises (Redeems nextRedemption) s.db.voucherRedemptions
    t.db.voucherRedemptions (redemptionTypes s.redemptionEvents)
    (redemptionTypes t.redemptionEvents)
  frame : t.db = { s.db with
    promotionUsages := t.db.promotionUsages
    voucherRedemptions := t.db.voucherRedemptions }

theorem UsagesSettled.andThen (h : UsagesSettled next s m)
    (h' : RedemptionsSettled nextRedemption m t) : Settles next nextRedemption s t where
  usages := by
    have hrows : t.db.promotionUsages = m.db.promotionUsages := by rw [h'.frame]
    rw [hrows, h'.events]
    exact h.rows
  redemptions := by
    have hrows : m.db.voucherRedemptions = s.db.voucherRedemptions := by rw [h.frame]
    rw [← hrows, ← h.events]
    exact h'.rows
  frame := by
    rw [h'.frame, h.frame]

theorem usagesSettled_forM {x : CommercialPromotionUsage → PromotionTx Unit}
    (hx : ∀ u ∈ us, ∀ s' t', s'.db = { s.db with promotionUsages := s'.db.promotionUsages } →
      Commits (x u) s' () t' → UsageHandled next u s' t')
    (hl : Table.Loaded us s.db.promotionUsages)
    (hrest : ∀ u ∈ s.db.promotionUsages.rows, u.id ∉ us.map CommercialPromotionUsage.id →
      next u = ⟨u.state, []⟩)
    (h : Commits (us.forM x) s () t) : UsagesSettled next s t := by
  obtain ⟨⟨hframe, hevents⟩, hrows⟩ := forM_revises (fun s => s.db.promotionUsages)
    (fun s => usageTypes s.usageEvents) (R := Uses next)
    (I := fun s' => s'.db = { s.db with promotionUsages := s'.db.promotionUsages } ∧
      s'.redemptionEvents = s.redemptionEvents)
    (fun u hu s' t' hs' hc => by
      obtain ⟨hrows, hframe, hevents⟩ := hx u hu s' t' hs'.1 hc
      refine ⟨⟨?_, hevents.trans hs'.2⟩, hrows⟩
      rw [hframe, hs'.1])
    hl ⟨rfl, rfl⟩ (fun u hu hi => by
      have hn := hrest u hu hi
      exact ⟨rfl, by rw [hn], by rw [hn]⟩) h
  exact ⟨hrows, hframe, hevents⟩

theorem redemptionsSettled_forM {x : VoucherRedemption → PromotionTx Unit}
    (hx : ∀ r ∈ xs, ∀ s' t', s'.db = { s.db with voucherRedemptions := s'.db.voucherRedemptions } →
      Commits (x r) s' () t' → RedemptionHandled nextRedemption r s' t')
    (hl : Table.Loaded xs s.db.voucherRedemptions)
    (hrest : ∀ r ∈ s.db.voucherRedemptions.rows, r.id ∉ xs.map VoucherRedemption.id →
      nextRedemption r = ⟨r.state, []⟩)
    (h : Commits (xs.forM x) s () t) : RedemptionsSettled nextRedemption s t := by
  obtain ⟨⟨hframe, hevents⟩, hrows⟩ := forM_revises (fun s => s.db.voucherRedemptions)
    (fun s => redemptionTypes s.redemptionEvents) (R := Redeems nextRedemption)
    (I := fun s' => s'.db = { s.db with voucherRedemptions := s'.db.voucherRedemptions } ∧
      s'.usageEvents = s.usageEvents)
    (fun r hr s' t' hs' hc => by
      obtain ⟨hrows, hframe, hevents⟩ := hx r hr s' t' hs'.1 hc
      refine ⟨⟨?_, hevents.trans hs'.2⟩, hrows⟩
      rw [hframe, hs'.1])
    hl ⟨rfl, rfl⟩ (fun r hr hi => by
      have hn := hrest r hr hi
      exact ⟨rfl, by rw [hn], by rw [hn]⟩) h
  exact ⟨hrows, hframe, hevents⟩

theorem commits_confirm (h : Commits (confirm i actorId) s () t) :
    Settles (confirmedUsage i) (confirmedRedemption i) s t := by
  have h := commits_get_bind.mp h
  obtain ⟨_, m, hm, h⟩ := commits_bind.mp h
  have h := commits_get_bind.mp h
  have hm := usagesSettled_forM (fun u hu s' t' _ hc => handled_confirmUsage
    (Table.mem_select.mp hu).2 hc) Table.loaded_select (fun u hu hi => if_neg fun hp =>
      hi ((Table.mem_ids_select hu).mpr hp)) hm
  exact hm.andThen <| redemptionsSettled_forM (fun x hx s' t' _ hc => handled_confirmRedemption
    (Table.mem_select.mp hx).2 hc) Table.loaded_select (fun x hx hi => if_neg fun hp =>
      hi ((Table.mem_ids_select hx).mpr hp)) h

theorem commits_release (h : Commits (release i reason cancellation actorId) s () t) :
    Settles (releasedUsage s.db i cancellation) (releasedRedemption s.db i cancellation) s t := by
  have h := commits_get_bind.mp h
  obtain ⟨_, m, hm, h⟩ := commits_bind.mp h
  have h := commits_get_bind.mp h
  have hm : UsagesSettled (releasedUsage s.db i cancellation) s m := usagesSettled_forM
    (fun u hu s' t' hs' hc => handled_releaseUsage (Table.mem_select.mp hu).2 (by rw [hs']) hc)
    Table.loaded_select (fun u hu hi => if_neg fun hp =>
      hi ((Table.mem_ids_select hu).mpr hp.1)) hm
  exact hm.andThen <| redemptionsSettled_forM
    (fun x hx s' t' hs' hc => handled_releaseRedemption (Table.mem_select.mp hx).2
      (by rw [hs', hm.frame]) (by rw [hs', hm.frame]) hc)
    Table.loaded_select (fun x hx hi => if_neg fun hp =>
      hi ((Table.mem_ids_select hx).mpr hp)) h

theorem commits_recordRefundCompletion
    (h : Commits (recordRefundCompletion r refund actorId) s () t) :
    Settles (refundedUsage s.db r) (refundedRedemption s.db r) s t := by
  have h := commits_get_bind.mp h
  obtain ⟨_, m, hm, h⟩ := commits_bind.mp h
  have h := commits_get_bind.mp h
  have hm : UsagesSettled (refundedUsage s.db r) s m := usagesSettled_forM
    (fun u hu s' t' hs' hc => handled_refundUsage (Table.mem_select.mp hu).2 (by rw [hs']) hc)
    Table.loaded_select (fun u hu hi => if_neg fun hp =>
      hi ((Table.mem_ids_select hu).mpr hp)) hm
  exact hm.andThen <| redemptionsSettled_forM
    (fun x hx s' t' hs' hc => handled_refundRedemption (Table.mem_select.mp hx).2
      (by rw [hs', hm.frame]) (by rw [hs', hm.frame]) hc)
    Table.loaded_select (fun x hx hi => if_neg fun hp =>
      hi ((Table.mem_ids_select hx).mpr hp)) h

theorem commits_supersede (hu : Table.Loaded us s.db.promotionUsages)
    (hx : Table.Loaded xs s.db.voucherRedemptions)
    (hm : Commits (us.forM (supersedeUsage c)) s () m)
    (h : Commits (xs.forM (supersedeRedemption c)) m () t) :
    Settles (supersededUsage (us.map CommercialPromotionUsage.id))
      (supersededRedemption (xs.map VoucherRedemption.id)) s t := by
  have hm := usagesSettled_forM (fun u hu s' t' _ hc =>
    handled_supersedeUsage (List.mem_map_of_mem hu) hc) hu (fun u _ hi => if_neg hi) hm
  have hrows : m.db.voucherRedemptions = s.db.voucherRedemptions := by rw [hm.frame]
  exact hm.andThen <| redemptionsSettled_forM (fun x hx s' t' _ hc =>
    handled_supersedeRedemption (List.mem_map_of_mem hx) hc) (hrows ▸ hx)
    (fun x _ hi => if_neg hi) h

end Batches

section Lawful
variable {state state' : UsageState} {type : UsageEventType} {o : Outcome} {i : ℕ}
variable {u : CommercialPromotionUsage} {x : VoucherRedemption} {db : Database} {r : Reservation}
variable {cancellation : Bool} {ids : List ℕ}

-- How an event of its log takes a use from one state to the next.
def follow (state : UsageState) : UsageEventType → Option UsageState
  | .reserved => none
  | .confirmed => if state = .reserved then some .confirmed else none
  | .released => if isActive state then some .released else none
  | .superseded => if isActive state then some .released else none
  | .retained => if isActive state then some state else none
  | .refundReinstated => if state = .reinstated then none else some .released
  | .refundRetained => some state

def Outcome.Lawful (o : Outcome) (state : UsageState) : Prop :=
  o.types.foldlM follow state = some o.state

theorem follow_active (h : follow state type = some state') (ha : isActive state' = true) :
    isActive state = true := by
  cases type <;> cases state <;> simp_all [follow, isActive]

theorem follow_plain (h : follow state type = some state') (hs : state ≠ .reinstated) :
    state' ≠ .reinstated := by
  rintro rfl
  cases type <;> cases state <;> simp_all [follow, isActive]

theorem followed {types : List UsageEventType} {P : UsageState → Prop}
    (hP : ∀ s e s', follow s e = some s' → P s → P s') (hs : P state)
    (h : types.foldlM follow state = some state') : P state' := by
  induction types generalizing state with
  | nil =>
    obtain rfl := Option.some.inj h
    exact hs
  | cons e types ih =>
    rw [List.foldlM_cons] at h
    obtain ⟨m, hm, h⟩ := Option.bind_eq_some_iff.mp h
    exact ih (hP _ _ _ hm hs) h

theorem Outcome.Lawful.active (h : o.Lawful state) (ha : isActive o.state = true) :
    isActive state = true := by
  by_contra hn
  exact followed (P := fun s => ¬ isActive s = true) (fun s e s' hf hs hs' =>
    hs (follow_active hf hs')) hn h ha

theorem Outcome.Lawful.plain (h : o.Lawful state) (hs : state ≠ .reinstated) :
    o.state ≠ .reinstated :=
  followed (P := fun s => s ≠ .reinstated) (fun _ _ _ hf hs => follow_plain hf hs) hs h

theorem lawful_same : (⟨state, []⟩ : Outcome).Lawful state := rfl

theorem lawful_confirmedUsage : (confirmedUsage i u).Lawful u.state := by
  unfold confirmedUsage
  split_ifs with h
  · simp only [Bool.and_eq_true, beq_iff_eq] at h
    simp [Outcome.Lawful, follow, h.2]
  · exact lawful_same

theorem lawful_confirmedRedemption (hx : x.state ≠ .reinstated) :
    (confirmedRedemption i x).Lawful x.state := by
  unfold confirmedRedemption
  split_ifs with h
  · simp only [Bool.and_eq_true, Bool.or_eq_true, beq_iff_eq, hx, or_false] at h
    simp [Outcome.Lawful, follow, h.2]
  · exact lawful_same

theorem lawful_releasedUsage : (releasedUsage db i cancellation u).Lawful u.state := by
  unfold releasedUsage
  split_ifs with h
  · have hact := (Bool.and_eq_true_iff.mp h.1).2
    simp [Outcome.Lawful, follow, hact]
  · exact lawful_same

theorem lawful_releasedRedemption : (releasedRedemption db i cancellation x).Lawful x.state := by
  unfold releasedRedemption
  split_ifs with h hc
  · have hact := (Bool.and_eq_true_iff.mp h).2
    simp [Outcome.Lawful, follow, hact]
  · have hact := (Bool.and_eq_true_iff.mp h).2
    simp [Outcome.Lawful, follow, hact]
  · exact lawful_same

theorem lawful_supersededUsage (h : u.id ∈ ids → isActive u.state = true) :
    (supersededUsage ids u).Lawful u.state := by
  unfold supersededUsage
  split_ifs with hi
  · simp [Outcome.Lawful, follow, h hi]
  · exact lawful_same

theorem lawful_supersededRedemption (h : x.id ∈ ids → isActive x.state = true) :
    (supersededRedemption ids x).Lawful x.state := by
  unfold supersededRedemption
  split_ifs with hi
  · simp [Outcome.Lawful, follow, h hi]
  · exact lawful_same

theorem lawful_refundedAs {reinstated : Bool} (hs : state ≠ .reinstated) :
    (refundedAs reinstated (isActive state) state).Lawful state := by
  cases reinstated <;> cases state <;> simp_all [refundedAs, Outcome.Lawful, follow, isActive]

theorem lawful_refundedUsage (hu : u.state ≠ .reinstated) :
    (refundedUsage db r u).Lawful u.state := by
  unfold refundedUsage
  split_ifs
  · exact lawful_refundedAs hu
  · exact lawful_same

theorem lawful_refundedRedemption (hx : x.state ≠ .reinstated) :
    (refundedRedemption db r x).Lawful x.state := by
  have hb : (x.state == .reinstated) = false := by simpa using hx
  unfold refundedRedemption
  rw [hb, Bool.or_false]
  split_ifs
  · exact lawful_refundedAs hx
  · exact lawful_same

end Lawful

section Reserved
variable {s t : PromotionDesk} {c : Claim} {f : PromotionSnapshot} {p : CommercialPromotion}
variable {v : Option Voucher} {w : Voucher} {red red' : Option VoucherRedemption}

def redeemedWith (xs : Table VoucherRedemption) (c : Claim) (f : PromotionSnapshot) :
    Option Voucher → Table VoucherRedemption
  | none => xs
  | some w => xs.insert (newRedemption c f w) (names_newRedemption _ _ _)

-- One promotion of the quote is taken up, with its voucher where it has one.
structure Reserves (s t : PromotionDesk) (c : Claim) (f : PromotionSnapshot)
    (p : CommercialPromotion) (v : Option Voucher) : Prop where
  positive : 0 < f.discountMinor
  unused : usedBy s.db f.promotionId c.quote.id = false
  promotion : s.db.promotions.find? f.promotionId = some p
  room : exhausted (promotionLimits p) (activeUsages s.db p.id c.reservation.id c.amendment)
    f.discountMinor c.guestId c.sessionHash = false
  voucher : voucherFor s.db c p f = .ok v
  unredeemed : ∀ w, v = some w → ∀ x ∈ s.db.voucherRedemptions.rows,
    x.bookingQuoteId ≠ c.quote.id
  result : t.db = { s.db with
    promotionUsages := s.db.promotionUsages.insert (newUsage c p f v) (names_newUsage _ _ _ _)
    voucherRedemptions := redeemedWith s.db.voucherRedemptions c f v }
  types : ∀ k, usageTypes t.usageEvents k = usageTypes s.usageEvents k ++
    if s.db.promotionUsages.next == k then [.reserved] else []
  redemptionTypes : ∀ k, redemptionTypes t.redemptionEvents k =
    redemptionTypes s.redemptionEvents k ++
      if v.isSome && s.db.voucherRedemptions.next == k then [.reserved] else []

theorem commits_reserveUse (h : Commits (reserveUse c red f) s red' t) :
    t = s ∨ ∃ p v, Reserves s t c f p v := by
  have h := commits_get_bind.mp h
  rcases commits_ite.mp h with ⟨_, h⟩ | ⟨hpos, h⟩
  · exact Or.inl (commits_pure.mp h).2.symm
  right
  obtain ⟨p, hp, h⟩ := commits_orFail_bind.mp h
  obtain ⟨hroom, h⟩ := commits_reject_bind.mp h
  obtain ⟨v, hv, h⟩ := commits_check_bind.mp h
  have h := commits_set_bind.mp h
  have h := commits_modify_bind.mp h
  rw [not_or, not_le, Bool.not_eq_true] at hpos
  rw [Bool.not_eq_true] at hroom
  cases v with
  | none =>
    obtain ⟨_, rfl⟩ := commits_pure.mp h
    exact ⟨p, none, hpos.1, hpos.2, hp, hroom, hv, by simp, rfl,
      fun k => Table.seen_insert (names_usageNote _ _ _ _ _), fun k => by simp⟩
  | some w =>
    obtain ⟨x, hx, _⟩ := commits_map.mp h
    have hx := commits_get_bind.mp hx
    obtain ⟨hone, hx⟩ := commits_reject_bind.mp hx
    have hx := commits_set_bind.mp hx
    have hx := commits_modify_bind.mp hx
    obtain ⟨_, rfl⟩ := commits_pure.mp hx
    refine ⟨p, some w, hpos.1, hpos.2, hp, hroom, hv, fun _ _ y hy => ?_, rfl,
      fun k => Table.seen_insert (names_usageNote _ _ _ _ _),
      fun k => Table.seen_insert (names_redemptionNote _ _ _ _ _ _)⟩
    have hnone : s.db.voucherRedemptions.first? (fun x => x.bookingQuoteId == c.quote.id) = none := by
      simpa using hone
    simpa using Table.first?_eq_none.mp hnone y hy

theorem voucherFor_some {db : Database} (h : voucherFor db c p f = .ok (some w)) :
    db.vouchers.find? w.id = some w ∧ w.commercialPromotionId = p.id ∧
      exhausted (voucherLimits w p) (activeRedemptions db w.id c.reservation.id c.amendment)
        f.discountMinor c.guestId c.sessionHash = false := by
  unfold voucherFor at h
  split at h
  · cases h
  · obtain ⟨v, hv, hvw⟩ := map_eq_ok.mp h
    obtain rfl := Option.some.inj hvw
    simp only [redeemable, bind_eq_ok, found_eq_ok, refuse_eq_ok] at hv
    obtain ⟨v, hfind, _, hok, _, hroom, hv⟩ := hv
    obtain rfl := Except.ok.inj hv
    rw [Bool.not_eq_true] at hroom
    have hid : v.id = _ := (Table.find?_eq_some.mp hfind).2
    rw [not_or, not_or, not_not] at hok
    exact ⟨hid ▸ hfind, hok.2.1, hroom⟩

namespace Reserves
variable (h : Reserves s t c f p v)
include h

theorem same : p.id = f.promotionId := (Table.find?_eq_some.mp h.promotion).2

theorem found : s.db.promotions.find? p.id = some p := by
  rw [h.same]
  exact h.promotion

theorem promotions : t.db.promotions = s.db.promotions := by rw [h.result]

theorem vouchers : t.db.vouchers = s.db.vouchers := by rw [h.result]

theorem usageRow {u : CommercialPromotionUsage} (hu : u ∈ t.db.promotionUsages.rows) :
    u ∈ s.db.promotionUsages.rows ∨ u = newUsage c p f v s.db.promotionUsages.next := by
  rw [h.result] at hu
  exact (Table.mem_insert (names_newUsage _ _ _ _)).mp hu

theorem redemptionRow {x : VoucherRedemption} (hx : x ∈ t.db.voucherRedemptions.rows) :
    x ∈ s.db.voucherRedemptions.rows ∨
      ∃ w, v = some w ∧ x = newRedemption c f w s.db.voucherRedemptions.next := by
  rw [h.result] at hx
  cases v with
  | none => exact Or.inl hx
  | some w =>
    exact ((Table.mem_insert (names_newRedemption _ _ _)).mp hx).imp id fun he => ⟨w, rfl, he⟩

theorem keeps {u : CommercialPromotionUsage} (hu : u ∈ s.db.promotionUsages.rows) :
    u ∈ t.db.promotionUsages.rows := by
  rw [h.result]
  exact (Table.mem_insert (names_newUsage _ _ _ _)).mpr (Or.inl hu)

theorem keepsRedemption {x : VoucherRedemption} (hx : x ∈ s.db.voucherRedemptions.rows) :
    x ∈ t.db.voucherRedemptions.rows := by
  rw [h.result]
  cases v with
  | none => exact hx
  | some w => exact (Table.mem_insert (names_newRedemption _ _ _)).mpr (Or.inl hx)

theorem next_le : s.db.promotionUsages.next ≤ t.db.promotionUsages.next := by
  rw [h.result]
  exact Nat.le_succ _

theorem redemptionNext_le : s.db.voucherRedemptions.next ≤ t.db.voucherRedemptions.next := by
  rw [h.result]
  cases v with
  | none => exact le_rfl
  | some w => exact Nat.le_succ _

end Reserves

-- What each promotion that is taken up keeps true, the whole quote keeps true.
theorem reserveForCommit_kept {I : PromotionDesk → Prop}
    (hI : ∀ s t f p v, I s → Reserves s t c f p v → I t) (hs : I s)
    (h : Commits (reserveForCommit c) s red t) : I t := by
  refine foldlM_kept (fun b f x s t hs hc => ?_) hs h
  rcases commits_reserveUse hc with rfl | ⟨p, v, hr⟩
  · exact hs
  · exact hI s t f p v hs hr

theorem held_below (db : Database) (i k : ℕ)
    (hk : k ∈ (heldUsages db i).map CommercialPromotionUsage.id) : k < db.promotionUsages.next := by
  obtain ⟨u, hu, rfl⟩ := List.mem_map.mp hk
  exact Table.id_lt_next (Table.mem_select.mp hu).1

theorem heldRedemption_below (db : Database) (i k : ℕ)
    (hk : k ∈ (heldRedemptions db i).map VoucherRedemption.id) :
    k < db.voucherRedemptions.next := by
  obtain ⟨x, hx, rfl⟩ := List.mem_map.mp hk
  exact Table.id_lt_next (Table.mem_select.mp hx).1

theorem held_active (hk : ∀ u ∈ s.db.promotionUsages.rows, u ∈ t.db.promotionUsages.rows) (i : ℕ)
    (u : CommercialPromotionUsage) (hu : u ∈ t.db.promotionUsages.rows)
    (hi : u.id ∈ (heldUsages s.db i).map CommercialPromotionUsage.id) : isActive u.state = true := by
  obtain ⟨q, hq, he⟩ := List.mem_map.mp hi
  obtain ⟨hq, hp⟩ := Table.mem_select.mp hq
  obtain rfl := Table.eq_of_id (hk q hq) hu he
  exact (Bool.and_eq_true_iff.mp hp).2

theorem heldRedemption_active
    (hk : ∀ x ∈ s.db.voucherRedemptions.rows, x ∈ t.db.voucherRedemptions.rows) (i : ℕ)
    (x : VoucherRedemption) (hx : x ∈ t.db.voucherRedemptions.rows)
    (hi : x.id ∈ (heldRedemptions s.db i).map VoucherRedemption.id) : isActive x.state = true := by
  obtain ⟨q, hq, he⟩ := List.mem_map.mp hi
  obtain ⟨hq, hp⟩ := Table.mem_select.mp hq
  obtain rfl := Table.eq_of_id (hk q hq) hx he
  exact (Bool.and_eq_true_iff.mp hp).2

theorem commits_replaceForAmendment (h : Commits (replaceForAmendment c) s () t) :
    let old := (heldUsages s.db c.reservation.id).map CommercialPromotionUsage.id
    let spent := (heldRedemptions s.db c.reservation.id).map VoucherRedemption.id
    ∃ red m n, Commits (reserveForCommit { c with amendment := true }) s red m ∧
      (∀ u ∈ m.db.promotionUsages.rows, (supersededUsage old u).Lawful u.state) ∧
      (∀ x ∈ m.db.voucherRedemptions.rows, (supersededRedemption spent x).Lawful x.state) ∧
      Settles (supersededUsage old) (supersededRedemption spent) m n ∧
      (Settles (confirmedUsage c.reservation.id) (confirmedRedemption c.reservation.id) n t ∨
        t = n) := by
  have h := commits_get_bind.mp h
  obtain ⟨red, m, hm, h⟩ := commits_bind.mp h
  obtain ⟨_, k, hk, h⟩ := commits_bind.mp h
  obtain ⟨_, n, hn, h⟩ := commits_bind.mp h
  have hkeep := reserveForCommit_kept (I := fun m =>
    (∀ u ∈ s.db.promotionUsages.rows, u ∈ m.db.promotionUsages.rows) ∧
      ∀ x ∈ s.db.voucherRedemptions.rows, x ∈ m.db.voucherRedemptions.rows)
    (fun m n f p v hm hr => ⟨fun u hu => hr.keeps (hm.1 u hu),
      fun x hx => hr.keepsRedemption (hm.2 x hx)⟩) ⟨fun u hu => hu, fun x hx => hx⟩ hm
  refine ⟨red, m, n, hm,
    fun u hu => lawful_supersededUsage (held_active hkeep.1 c.reservation.id u hu),
    fun x hx => lawful_supersededRedemption (heldRedemption_active hkeep.2 c.reservation.id x hx),
    commits_supersede (Table.loaded_select.mono hkeep.1) (Table.loaded_select.mono hkeep.2) hk hn,
    ?_⟩
  rcases commits_ite.mp h with ⟨_, h⟩ | ⟨_, h⟩
  · exact Or.inl (commits_confirm h)
  · exact Or.inr (commits_pure.mp h).2.symm

end Reserved

end CommercialPromotionService
