import LodgeOps.Booking.PromotionLimits

namespace PromotionHistory
open Schema Transaction CommercialPromotionService PromotionLimits

section Replay
variable {types more : List UsageEventType} {state state' : UsageState}

def replay : List UsageEventType → Option UsageState
  | .reserved :: types => types.foldlM follow .reserved
  | _ => none

theorem replay_append (h : replay types = some state)
    (hm : more.foldlM follow state = some state') : replay (types ++ more) = some state' := by
  match types, h with
  | .reserved :: types, h =>
    show (types ++ more).foldlM follow .reserved = some state'
    rw [List.foldlM_append]
    exact Option.bind_eq_some_iff.mpr ⟨state, h, hm⟩

theorem replay_of_append (h : replay types = some state)
    (hm : replay (types ++ more) = some state') : more.foldlM follow state = some state' := by
  match types, h with
  | .reserved :: types, h =>
    have hm : (types ++ more).foldlM follow .reserved = some state' := hm
    rw [List.foldlM_append] at hm
    obtain ⟨m, hfirst, hm⟩ := Option.bind_eq_some_iff.mp hm
    obtain rfl := Option.some.inj (hfirst.symm.trans h)
    exact hm

theorem replay_plain (h : replay types = some state) : state ≠ .reinstated := by
  match types, h with
  | .reserved :: types, h =>
    exact followed (P := fun s => s ≠ .reinstated) (fun _ _ _ hf hs => follow_plain hf hs)
      (by decide) h

-- Nothing leads out of a use that was given up.
theorem released_stays (h : more.foldlM follow .released = some state) : state = .released :=
  followed (P := fun s => s = .released) (fun s e s' hf hs => by
    subst hs
    cases e <;> simp_all [follow, isActive]) rfl h

end Replay

section Recorded
variable {s t m : PromotionDesk} {c : Claim} {f : PromotionSnapshot} {p : CommercialPromotion}
variable {v : Option Voucher} {next : CommercialPromotionUsage → Outcome}
variable {nextRedemption : VoucherRedemption → Outcome} {op : Operation}

structure Recorded (s : PromotionDesk) : Prop where
  usages : ∀ u ∈ s.db.promotionUsages.rows,
    replay (usageTypes s.usageEvents u.id) = some u.state
  redemptions : ∀ x ∈ s.db.voucherRedemptions.rows,
    replay (redemptionTypes s.redemptionEvents x.id) = some x.state
  fresh : ∀ i, s.db.promotionUsages.next ≤ i → usageTypes s.usageEvents i = []
  freshRedemptions : ∀ i, s.db.voucherRedemptions.next ≤ i →
    redemptionTypes s.redemptionEvents i = []

-- A use is still there, and its log has only grown.
structure Continues (s t : PromotionDesk) : Prop where
  usages : ∀ u ∈ s.db.promotionUsages.rows, ∃ u' ∈ t.db.promotionUsages.rows,
    u'.id = u.id ∧ usageOf u' = usageOf u ∧
      ∃ more, usageTypes t.usageEvents u.id = usageTypes s.usageEvents u.id ++ more
  redemptions : ∀ x ∈ s.db.voucherRedemptions.rows, ∃ x' ∈ t.db.voucherRedemptions.rows,
    x'.id = x.id ∧ redemptionOf x' = redemptionOf x ∧
      ∃ more, redemptionTypes t.redemptionEvents x.id =
        redemptionTypes s.redemptionEvents x.id ++ more

theorem Continues.refl : Continues s s where
  usages u hu := ⟨u, hu, rfl, rfl, [], by simp⟩
  redemptions x hx := ⟨x, hx, rfl, rfl, [], by simp⟩

theorem Continues.trans (h : Continues s m) (h' : Continues m t) : Continues s t where
  usages u hu := by
    obtain ⟨q, hq, hid, huse, ks, hks⟩ := h.usages u hu
    obtain ⟨r, hr, hrid, hruse, ls, hls⟩ := h'.usages q hq
    refine ⟨r, hr, hrid.trans hid, hruse.trans huse, ks ++ ls, ?_⟩
    rw [hid] at hls
    rw [hls, hks, List.append_assoc]
  redemptions x hx := by
    obtain ⟨q, hq, hid, huse, ks, hks⟩ := h.redemptions x hx
    obtain ⟨r, hr, hrid, hruse, ls, hls⟩ := h'.redemptions q hq
    refine ⟨r, hr, hrid.trans hid, hruse.trans huse, ks ++ ls, ?_⟩
    rw [hid] at hls
    rw [hls, hks, List.append_assoc]

theorem continues_settles (h : Settles next nextRedemption s t) : Continues s t where
  usages u hu := by
    obtain ⟨u', hu', hid, ks, huses, hks⟩ := h.usages.kept hu
    exact ⟨u', hu', hid, (usageOf_uses huses).1, ks, hks⟩
  redemptions x hx := by
    obtain ⟨x', hx', hid, ks, hredeems, hks⟩ := h.redemptions.kept hx
    exact ⟨x', hx', hid, (redemptionOf_redeems hredeems).1, ks, hks⟩

theorem continues_reserves (h : Reserves s t c f p v) : Continues s t where
  usages u hu := ⟨u, h.keeps hu, rfl, rfl, _, h.types u.id⟩
  redemptions x hx := ⟨x, h.keepsRedemption hx, rfl, rfl, _, h.redemptionTypes x.id⟩

theorem recorded_settles (hr : Recorded s)
    (hu : ∀ u ∈ s.db.promotionUsages.rows, (next u).Lawful u.state)
    (hx : ∀ x ∈ s.db.voucherRedemptions.rows, (nextRedemption x).Lawful x.state)
    (h : Settles next nextRedemption s t) : Recorded t where
  usages u' hu' := by
    obtain ⟨u, hm, hid, ks, ⟨_, hstate, rfl⟩, hlog⟩ := h.usages.row hu'
    have hid : u'.id = u.id := hid
    have hlog : usageTypes t.usageEvents u.id = usageTypes s.usageEvents u.id ++ _ := hlog
    rw [hid, hlog, hstate]
    exact replay_append (hr.usages u hm) (hu u hm)
  redemptions x' hx' := by
    obtain ⟨x, hm, hid, ks, ⟨_, hstate, rfl⟩, hlog⟩ := h.redemptions.row hx'
    have hid : x'.id = x.id := hid
    have hlog : redemptionTypes t.redemptionEvents x.id =
      redemptionTypes s.redemptionEvents x.id ++ _ := hlog
    rw [hid, hlog, hstate]
    exact replay_append (hr.redemptions x hm) (hx x hm)
  fresh i hi := by
    rw [h.usages.next] at hi
    rw [h.usages.others i fun u hu he => by have hlt := Table.id_lt_next hu; omega]
    exact hr.fresh i hi
  freshRedemptions i hi := by
    rw [h.redemptions.next] at hi
    rw [h.redemptions.others i fun x hx he => by have hlt := Table.id_lt_next hx; omega]
    exact hr.freshRedemptions i hi

theorem recorded_reserves (hr : Recorded s) (h : Reserves s t c f p v) : Recorded t where
  usages u hu := by
    rw [h.types]
    rcases h.usageRow hu with hu | rfl
    · have hlt : u.id < s.db.promotionUsages.next := Table.id_lt_next hu
      have hne : (s.db.promotionUsages.next == u.id) = false := by
        rw [beq_eq_false_iff_ne]
        omega
      rw [hne]
      simpa using hr.usages u hu
    · have hnone := hr.fresh _ le_rfl
      have hid : (newUsage c p f v s.db.promotionUsages.next).id = s.db.promotionUsages.next := rfl
      rw [hid, hnone]
      simp [replay, newUsage]
  redemptions x hx := by
    rw [h.redemptionTypes]
    rcases h.redemptionRow hx with hx | ⟨w, rfl, rfl⟩
    · have hlt : x.id < s.db.voucherRedemptions.next := Table.id_lt_next hx
      have hne : (s.db.voucherRedemptions.next == x.id) = false := by
        rw [beq_eq_false_iff_ne]
        omega
      rw [hne, Bool.and_false]
      simpa using hr.redemptions x hx
    · have hnone := hr.freshRedemptions _ le_rfl
      have hid : (newRedemption c f w s.db.voucherRedemptions.next).id =
        s.db.voucherRedemptions.next := rfl
      rw [hid, hnone]
      simp [replay, newRedemption]
  fresh i hi := by
    rw [h.result] at hi
    have hi : s.db.promotionUsages.next + 1 ≤ i := hi
    have hne : (s.db.promotionUsages.next == i) = false := by
      rw [beq_eq_false_iff_ne]
      omega
    rw [h.types, hne, hr.fresh i (by omega)]
    rfl
  freshRedemptions i hi := by
    rw [h.result] at hi
    rw [h.redemptionTypes]
    cases v with
    | none => simpa using hr.freshRedemptions i hi
    | some w =>
      have hi : s.db.voucherRedemptions.next + 1 ≤ i := hi
      have hne : (s.db.voucherRedemptions.next == i) = false := by
        rw [beq_eq_false_iff_ne]
        omega
      rw [hne, hr.freshRedemptions i (by omega)]
      rfl

theorem Recorded.plain (h : Recorded s) {u : CommercialPromotionUsage}
    (hu : u ∈ s.db.promotionUsages.rows) : u.state ≠ .reinstated := replay_plain (h.usages u hu)

theorem Recorded.plainRedemption (h : Recorded s) {x : VoucherRedemption}
    (hx : x ∈ s.db.voucherRedemptions.rows) : x.state ≠ .reinstated :=
  replay_plain (h.redemptions x hx)

theorem recorded_confirmed {i : ℕ} (hr : Recorded s)
    (h : Settles (confirmedUsage i) (confirmedRedemption i) s t) : Recorded t :=
  recorded_settles hr (fun _ _ => lawful_confirmedUsage)
    (fun _ hx => lawful_confirmedRedemption (hr.plainRedemption hx)) h

theorem recorded_step (hr : Recorded s) (ha : op.Honest s) (h : Commits op.run s () t) :
    Recorded t ∧ Continues s t := by
  cases op with
  | reserve c =>
    obtain ⟨_, m, hm, h⟩ := commits_bind.mp h
    obtain ⟨_, rfl⟩ := commits_pure.mp h
    exact reserveForCommit_kept (I := fun m => Recorded m ∧ Continues s m)
      (fun _ _ _ _ _ hs hres => ⟨recorded_reserves hs.1 hres,
        hs.2.trans (continues_reserves hres)⟩) ⟨hr, Continues.refl⟩ hm
  | confirm =>
    have hc := commits_confirm h
    exact ⟨recorded_confirmed hr hc, continues_settles hc⟩
  | release =>
    have hc := commits_release h
    exact ⟨recorded_settles hr (fun _ _ => lawful_releasedUsage)
      (fun _ _ => lawful_releasedRedemption) hc, continues_settles hc⟩
  | replace c =>
    obtain ⟨_, m, n, hm, hu, hx, hn, ht⟩ := commits_replaceForAmendment h
    obtain ⟨hrm, hcm⟩ := reserveForCommit_kept (I := fun m => Recorded m ∧ Continues s m)
      (fun _ _ _ _ _ hs hres => ⟨recorded_reserves hs.1 hres,
        hs.2.trans (continues_reserves hres)⟩) ⟨hr, Continues.refl⟩ hm
    have hrn := recorded_settles hrm hu hx hn
    have hcn := hcm.trans (continues_settles hn)
    rcases ht with ht | rfl
    · exact ⟨recorded_confirmed hrn ht, hcn.trans (continues_settles ht)⟩
    · exact ⟨hrn, hcn⟩
  | refund =>
    have hc := commits_recordRefundCompletion h
    exact ⟨recorded_settles hr (fun _ hu => lawful_refundedUsage (hr.plain hu))
      (fun _ hx => lawful_refundedRedemption (hr.plainRedemption hx)) hc, continues_settles hc⟩
  | elsewhere =>
    obtain rfl := commits_set.mp h
    refine ⟨⟨?_, ?_, ?_, ?_⟩, ⟨?_, ?_⟩⟩
    · rw [ha.usages, ha.usageEvents]
      exact hr.usages
    · rw [ha.redemptions, ha.redemptionEvents]
      exact hr.redemptions
    · rw [ha.usages, ha.usageEvents]
      exact hr.fresh
    · rw [ha.redemptions, ha.redemptionEvents]
      exact hr.freshRedemptions
    · rw [ha.usages, ha.usageEvents]
      exact Continues.refl.usages
    · rw [ha.redemptions, ha.redemptionEvents]
      exact Continues.refl.redemptions

theorem recorded_unused (h : Unused s) : Recorded s where
  usages u hu := by simp [h.usages] at hu
  redemptions x hx := by simp [h.redemptions] at hx
  fresh i _ := by simp [usageTypes, Table.seen, Table.select, h.usageEvents]
  freshRedemptions i _ := by simp [redemptionTypes, Table.seen, Table.select, h.redemptionEvents]

theorem recorded_of_reaches (hr : Recorded s) (h : Reaches Operation.run Operation.Honest s t) :
    Recorded t ∧ Continues s t :=
  h.invariant (I := fun t => Recorded t ∧ Continues s t) ⟨hr, Continues.refl⟩
    fun _ _ _ hI ha hc =>
      have hstep := recorded_step hI.1 ha hc
      ⟨hstep.1, hI.2.trans hstep.2⟩

theorem released_for_good {w : PromotionDesk} {u : CommercialPromotionUsage} (ht : Recorded t)
    (hw : Recorded w) (hu : u ∈ t.db.promotionUsages.rows) (hc : Continues t w) :
    ∃ u' ∈ w.db.promotionUsages.rows, u'.id = u.id ∧ usageOf u' = usageOf u ∧
      (u.state = .released → u'.state = .released) := by
  obtain ⟨u', hu', hid, huse, more, hmore⟩ := hc.usages u hu
  refine ⟨u', hu', hid, huse, fun hs => ?_⟩
  have hreplay := hw.usages u' hu'
  rw [hid, hmore] at hreplay
  exact released_stays (replay_of_append (hs ▸ ht.usages u hu) hreplay)

theorem redemption_released_for_good {w : PromotionDesk} {x : VoucherRedemption} (ht : Recorded t)
    (hw : Recorded w) (hx : x ∈ t.db.voucherRedemptions.rows) (hc : Continues t w) :
    ∃ x' ∈ w.db.voucherRedemptions.rows, x'.id = x.id ∧ redemptionOf x' = redemptionOf x ∧
      (x.state = .released → x'.state = .released) := by
  obtain ⟨x', hx', hid, huse, more, hmore⟩ := hc.redemptions x hx
  refine ⟨x', hx', hid, huse, fun hs => ?_⟩
  have hreplay := hw.redemptions x' hx'
  rw [hid, hmore] at hreplay
  exact released_stays (replay_of_append (hs ▸ ht.redemptions x hx) hreplay)

theorem uses_follow_their_log (hs : Unused s) (h : Reaches Operation.run Operation.Honest s t) :
    ((∀ u ∈ t.db.promotionUsages.rows,
        replay (usageTypes t.usageEvents u.id) = some u.state) ∧
      ∀ x ∈ t.db.voucherRedemptions.rows,
        replay (redemptionTypes t.redemptionEvents x.id) = some x.state) ∧
    ∀ w, Reaches Operation.run Operation.Honest t w →
      (∀ u ∈ t.db.promotionUsages.rows, ∃ u' ∈ w.db.promotionUsages.rows, u'.id = u.id ∧
        usageOf u' = usageOf u ∧ (u.state = .released → u'.state = .released)) ∧
      ∀ x ∈ t.db.voucherRedemptions.rows, ∃ x' ∈ w.db.voucherRedemptions.rows, x'.id = x.id ∧
        redemptionOf x' = redemptionOf x ∧ (x.state = .released → x'.state = .released) := by
  obtain ⟨ht, _⟩ := recorded_of_reaches (recorded_unused hs) h
  refine ⟨⟨ht.usages, ht.redemptions⟩, fun w hw => ?_⟩
  obtain ⟨hw, hc⟩ := recorded_of_reaches ht hw
  exact ⟨fun u hu => released_for_good ht hw hu hc,
    fun x hx => redemption_released_for_good ht hw hx hc⟩

end Recorded

section Mirrored
variable {s t m : PromotionDesk} {c : Claim} {f : PromotionSnapshot} {p : CommercialPromotion}
variable {v : Option Voucher} {next : CommercialPromotionUsage → Outcome}
variable {nextRedemption : VoucherRedemption → Outcome} {op : Operation} {db : Database}
variable {u : CommercialPromotionUsage} {x : VoucherRedemption} {old spent : List ℕ}

-- The redemption of the voucher that a usage was taken with.
structure Mirrors (db : Database) (u : CommercialPromotionUsage) (x : VoucherRedemption) : Prop where
  voucher : u.voucherId = some x.voucherId
  quote : u.bookingQuoteId = x.bookingQuoteId
  use : usageOf u = redemptionOf x
  currency : u.currency = x.currency
  state : u.state = x.state
  promotion : ∃ v, db.vouchers.find? x.voucherId = some v ∧
    v.commercialPromotionId = u.commercialPromotionId

structure Mirrored (old spent : List ℕ) (db : Database) : Prop where
  redemptions : ∀ x ∈ db.voucherRedemptions.rows, ∃ u ∈ db.promotionUsages.rows,
    Mirrors db u x ∧ (u.id ∈ old ↔ x.id ∈ spent)
  usages : ∀ u ∈ db.promotionUsages.rows, u.voucherId ≠ none →
    ∃ x ∈ db.voucherRedemptions.rows, Mirrors db u x ∧ (u.id ∈ old ↔ x.id ∈ spent)

-- What becomes of a usage becomes of its redemption.
def Parallel (next : CommercialPromotionUsage → Outcome)
    (nextRedemption : VoucherRedemption → Outcome) (old spent : List ℕ) (db : Database) : Prop :=
  ∀ u x, Mirrors db u x → u.state ≠ .reinstated → (u.id ∈ old ↔ x.id ∈ spent) →
    (next u).state = (nextRedemption x).state

theorem Mirrors.reservation (h : Mirrors db u x) : u.reservationId = x.reservationId :=
  congrArg Use.reservationId h.use

theorem Mirrors.reinstates (h : Mirrors db u x) :
    reinstates db u.commercialPromotionId = voucherReinstates db x.voucherId := by
  obtain ⟨v, hv, hp⟩ := h.promotion
  simp [voucherReinstates, hv, hp]

theorem parallel_confirmed {i : ℕ} :
    Parallel (confirmedUsage i) (confirmedRedemption i) old spent db := by
  intro u x h hplain _
  have hstate := h.state
  have hb : (x.state == .reinstated) = false := by
    rw [← hstate]
    simpa using hplain
  simp only [confirmedUsage, confirmedRedemption, h.reservation, hstate, hb, Bool.or_false]

theorem parallel_released {i : ℕ} {cancellation : Bool} :
    Parallel (releasedUsage db i cancellation) (releasedRedemption db i cancellation) old spent
      db := by
  intro u x h _ _
  simp only [releasedUsage, releasedRedemption, h.reservation, h.state, h.reinstates]
  split_ifs <;> simp_all

theorem parallel_refunded {r : Reservation} :
    Parallel (refundedUsage db r) (refundedRedemption db r) old spent db := by
  intro u x h hplain _
  have hstate := h.state
  have hb : (x.state == .reinstated) = false := by
    rw [← hstate]
    simpa using hplain
  simp only [refundedUsage, refundedRedemption, h.reservation, hstate, h.reinstates, hb,
    Bool.or_false]

theorem parallel_superseded :
    Parallel (supersededUsage old) (supersededRedemption spent) old spent db := by
  intro u x h _ hi
  simp only [supersededUsage, supersededRedemption, hi, h.state]

theorem mirrors_settled {u' : CommercialPromotionUsage} {x' : VoucherRedemption}
    {ks ls : List UsageEventType} (h : Mirrors s.db u x) (hf : t.db.vouchers = s.db.vouchers)
    (hu : Uses next u u' ks) (hx : Redeems nextRedemption x x' ls)
    (hs : (next u).state = (nextRedemption x).state) : Mirrors t.db u' x' := by
  obtain ⟨huse, hp⟩ := usageOf_uses hu
  obtain ⟨hredeem, hv⟩ := redemptionOf_redeems hx
  have hvoucher : u'.voucherId = u.voucherId := by
    have he := congrArg CommercialPromotionUsage.voucherId hu.1
    exact he
  have hquote : u'.bookingQuoteId = u.bookingQuoteId := by
    have he := congrArg CommercialPromotionUsage.bookingQuoteId hu.1
    exact he
  have hcurrency : u'.currency = u.currency := by
    have he := congrArg CommercialPromotionUsage.currency hu.1
    exact he
  have hquotex : x'.bookingQuoteId = x.bookingQuoteId := by
    have he := congrArg VoucherRedemption.bookingQuoteId hx.1
    exact he
  have hcurrencyx : x'.currency = x.currency := by
    have he := congrArg VoucherRedemption.currency hx.1
    exact he
  refine ⟨?_, ?_, ?_, ?_, ?_, ?_⟩
  · rw [hvoucher, hv, h.voucher]
  · rw [hquote, hquotex, h.quote]
  · rw [huse, hredeem, h.use]
  · rw [hcurrency, hcurrencyx, h.currency]
  · rw [hu.2.1, hx.2.1, hs]
  · rw [hf, hv, hp]
    exact h.promotion

theorem mirrored_settles (hm : Mirrored old spent s.db) (hr : Recorded s)
    (hp : Parallel next nextRedemption old spent s.db) (h : Settles next nextRedemption s t) :
    Mirrored [] [] t.db := by
  have hvouchers : t.db.vouchers = s.db.vouchers := by rw [h.frame]
  refine ⟨fun x' hx' => ?_, fun u' hu' hvoucher => ?_⟩
  · obtain ⟨x, hx, _, _, hredeems, _⟩ := h.redemptions.row hx'
    obtain ⟨u, hu, hmirror, hi⟩ := hm.redemptions x hx
    obtain ⟨u', hu', _, _, huses, _⟩ := h.usages.kept hu
    exact ⟨u', hu', mirrors_settled hmirror hvouchers huses hredeems
      (hp u x hmirror (hr.plain hu) hi), by simp⟩
  · obtain ⟨u, hu, _, _, huses, _⟩ := h.usages.row hu'
    have hsame : u'.voucherId = u.voucherId := by
      have he := congrArg CommercialPromotionUsage.voucherId huses.1
      exact he
    obtain ⟨x, hx, hmirror, hi⟩ := hm.usages u hu (hsame ▸ hvoucher)
    obtain ⟨x', hx', _, _, hredeems, _⟩ := h.redemptions.kept hx
    exact ⟨x', hx', mirrors_settled hmirror hvouchers huses hredeems
      (hp u x hmirror (hr.plain hu) hi), by simp⟩

theorem mirrors_new {w : Voucher} (h : Reserves s t c f p (some w)) :
    Mirrors t.db (newUsage c p f (some w) s.db.promotionUsages.next)
      (newRedemption c f w s.db.voucherRedemptions.next) where
  voucher := rfl
  quote := rfl
  use := rfl
  currency := rfl
  state := rfl
  promotion := by
    obtain ⟨hfind, hp, _⟩ := voucherFor_some h.voucher
    rw [h.vouchers]
    exact ⟨w, hfind, hp⟩

theorem mirrored_reserves (hm : Mirrored old spent s.db)
    (hold : ∀ k ∈ old, k < s.db.promotionUsages.next)
    (hspent : ∀ k ∈ spent, k < s.db.voucherRedemptions.next) (h : Reserves s t c f p v) :
    Mirrored old spent t.db := by
  have hkept : ∀ u x, Mirrors s.db u x → Mirrors t.db u x := fun u x hux =>
    ⟨hux.voucher, hux.quote, hux.use, hux.currency, hux.state, by
      rw [h.vouchers]
      exact hux.promotion⟩
  have hnew : s.db.promotionUsages.next ∈ old ↔ s.db.voucherRedemptions.next ∈ spent :=
    ⟨fun hi => absurd (hold _ hi) (lt_irrefl _), fun hi => absurd (hspent _ hi) (lt_irrefl _)⟩
  refine ⟨fun x hx => ?_, fun u hu hvoucher => ?_⟩
  · rcases h.redemptionRow hx with hx | ⟨w, rfl, rfl⟩
    · obtain ⟨u, hu, hux, hi⟩ := hm.redemptions x hx
      exact ⟨u, h.keeps hu, hkept u x hux, hi⟩
    · refine ⟨_, ?_, mirrors_new h, hnew⟩
      rw [h.result]
      exact (Table.mem_insert (names_newUsage _ _ _ _)).mpr (Or.inr rfl)
  · rcases h.usageRow hu with hu | rfl
    · obtain ⟨x, hx, hux, hi⟩ := hm.usages u hu hvoucher
      exact ⟨x, h.keepsRedemption hx, hkept u x hux, hi⟩
    · cases v with
      | none => exact absurd rfl hvoucher
      | some w =>
        refine ⟨_, ?_, mirrors_new h, hnew⟩
        rw [h.result]
        exact (Table.mem_insert (names_newRedemption _ _ _)).mpr (Or.inr rfl)

theorem mirrored_reserveForCommit {red : Option VoucherRedemption} (hm : Mirrored old spent s.db)
    (hold : ∀ k ∈ old, k < s.db.promotionUsages.next)
    (hspent : ∀ k ∈ spent, k < s.db.voucherRedemptions.next)
    (h : Commits (reserveForCommit c) s red t) : Mirrored old spent t.db :=
  (reserveForCommit_kept (I := fun s => Mirrored old spent s.db ∧
      (∀ k ∈ old, k < s.db.promotionUsages.next) ∧ ∀ k ∈ spent, k < s.db.voucherRedemptions.next)
    (fun s t f p v hs hr => by
      refine ⟨mirrored_reserves hs.1 hs.2.1 hs.2.2 hr, fun k hk => ?_, fun k hk => ?_⟩
      · exact (hs.2.1 k hk).trans_le hr.next_le
      · exact (hs.2.2 k hk).trans_le hr.redemptionNext_le)
    ⟨hm, hold, hspent⟩ h).1

theorem mirrored_held (hm : Mirrored [] [] db) (i : ℕ) :
    Mirrored ((heldUsages db i).map CommercialPromotionUsage.id)
      ((heldRedemptions db i).map VoucherRedemption.id) db := by
  have hsame : ∀ u ∈ db.promotionUsages.rows, ∀ x ∈ db.voucherRedemptions.rows, Mirrors db u x →
      (u.id ∈ (heldUsages db i).map CommercialPromotionUsage.id ↔
        x.id ∈ (heldRedemptions db i).map VoucherRedemption.id) := by
    intro u hu x hx h
    refine (Table.mem_ids_select hu).trans (Iff.trans ?_ (Table.mem_ids_select hx).symm)
    rw [h.reservation, h.state]
  refine ⟨fun x hx => ?_, fun u hu hvoucher => ?_⟩
  · obtain ⟨u, hu, hux, _⟩ := hm.redemptions x hx
    exact ⟨u, hu, hux, hsame u hu x hx hux⟩
  · obtain ⟨x, hx, hux, _⟩ := hm.usages u hu hvoucher
    exact ⟨x, hx, hux, hsame u hu x hx hux⟩

theorem mirrored_step (hm : Mirrored [] [] s.db) (hr : Recorded s) (ha : op.Honest s)
    (h : Commits op.run s () t) : Mirrored [] [] t.db := by
  cases op with
  | reserve c =>
    obtain ⟨_, m, hc, h⟩ := commits_bind.mp h
    obtain ⟨_, rfl⟩ := commits_pure.mp h
    exact mirrored_reserveForCommit hm (by simp) (by simp) hc
  | confirm => exact mirrored_settles hm hr parallel_confirmed (commits_confirm h)
  | release => exact mirrored_settles hm hr parallel_released (commits_release h)
  | replace c =>
    obtain ⟨_, m, n, hc, hu, hx, hn, ht⟩ := commits_replaceForAmendment h
    have hrm := reserveForCommit_kept (fun _ _ _ _ _ hs hres => recorded_reserves hs hres) hr hc
    have hmm := mirrored_reserveForCommit (mirrored_held hm c.reservation.id)
      (held_below s.db c.reservation.id) (heldRedemption_below s.db c.reservation.id) hc
    have hmn := mirrored_settles hmm hrm parallel_superseded hn
    rcases ht with ht | rfl
    · exact mirrored_settles hmn (recorded_settles hrm hu hx hn) parallel_confirmed ht
    · exact hmn
  | refund => exact mirrored_settles hm hr parallel_refunded (commits_recordRefundCompletion h)
  | elsewhere result =>
    obtain rfl := commits_set.mp h
    have hkept : ∀ u, ∀ x ∈ s.db.voucherRedemptions.rows, Mirrors s.db u x →
        Mirrors result.db u x := by
      intro u x hx hux
      obtain ⟨v, hv, hp⟩ := hux.promotion
      obtain ⟨v', hv', hid, _⟩ := ha.voucher _ v hv ⟨x, hx, rfl⟩
      exact ⟨hux.voucher, hux.quote, hux.use, hux.currency, hux.state, v', hv', hid.trans hp⟩
    refine ⟨fun x hx => ?_, fun u hu hvoucher => ?_⟩
    · rw [ha.redemptions] at hx
      obtain ⟨u, hu, hux, hi⟩ := hm.redemptions x hx
      rw [ha.usages]
      exact ⟨u, hu, hkept u x hx hux, hi⟩
    · rw [ha.usages] at hu
      obtain ⟨x, hx, hux, hi⟩ := hm.usages u hu hvoucher
      rw [ha.redemptions]
      exact ⟨x, hx, hkept u x hx hux, hi⟩

theorem redemptions_mirror_usages (hs : Unused s)
    (h : Reaches Operation.run Operation.Honest s t) :
    (∀ x ∈ t.db.voucherRedemptions.rows, ∃ u ∈ t.db.promotionUsages.rows, Mirrors t.db u x) ∧
    ∀ u ∈ t.db.promotionUsages.rows, u.voucherId ≠ none →
      ∃ x ∈ t.db.voucherRedemptions.rows, Mirrors t.db u x := by
  have hm := (h.invariant (I := fun t => Recorded t ∧ Mirrored [] [] t.db)
    ⟨recorded_unused hs, ⟨by simp [hs.redemptions], by simp [hs.usages]⟩⟩
    fun _ _ _ hI ha hc => ⟨(recorded_step hI.1 ha hc).1, mirrored_step hI.2 hI.1 ha hc⟩).2
  refine ⟨fun x hx => ?_, fun u hu hvoucher => ?_⟩
  · obtain ⟨u, hu, hux, _⟩ := hm.redemptions x hx
    exact ⟨u, hu, hux⟩
  · obtain ⟨x, hx, hux, _⟩ := hm.usages u hu hvoucher
    exact ⟨x, hx, hux⟩

end Mirrored

section Scenario

theorem settled_season : ∃ t w, Reaches Operation.run Operation.Honest shop t ∧
    Reaches Operation.run Operation.Honest t w ∧
      (t.db.voucherRedemptions.rows.map fun x => (x.id, x.state)) = [(0, .released), (1, .confirmed)] ∧
      (w.db.voucherRedemptions.rows.map fun x => (x.id, x.state)) =
        [(0, .released), (1, .released), (2, .reserved)] := by
  obtain ⟨t, w, ht, hw, hp⟩ : ∃ t w, Reaches Operation.run Operation.Honest shop t ∧
      Reaches Operation.run Operation.Honest t w ∧
        (decide ((t.db.voucherRedemptions.rows.map fun x => (x.id, x.state)) =
            [(0, .released), (1, .confirmed)]) &&
          decide ((w.db.voucherRedemptions.rows.map fun x => (x.id, x.state)) =
            [(0, .released), (1, .released), (2, .reserved)])) = true :=
    Reaches.exists_of_two_runs plainly (fun _ _ => honest_of_plainly) (season.take 3)
      (season.drop 3) (by decide +kernel)
  simp only [Bool.and_eq_true, decide_eq_true_eq] at hp
  exact ⟨t, w, ht, hw, hp.1, hp.2⟩

theorem given_up_voucher_stays_given_up : ∃ t w, Reaches Operation.run Operation.Honest shop t ∧
    Reaches Operation.run Operation.Honest t w ∧
    (∃ x ∈ t.db.voucherRedemptions.rows, x.id = 0 ∧ x.state = .released ∧
      replay (redemptionTypes t.redemptionEvents 0) = some .released ∧
        ∃ x' ∈ w.db.voucherRedemptions.rows, x'.id = 0 ∧ x'.state = .released) := by
  obtain ⟨t, w, ht, hw, hrows, _⟩ := settled_season
  have hmem : ((0, .released) : ℕ × UsageState) ∈
      t.db.voucherRedemptions.rows.map fun x => (x.id, x.state) := by simp [hrows]
  obtain ⟨x, hx, he⟩ := List.mem_map.mp hmem
  obtain ⟨hid, hstate⟩ := Prod.mk.inj he
  obtain ⟨⟨_, hlog⟩, hlater⟩ := uses_follow_their_log ⟨rfl, rfl, rfl, rfl⟩ ht
  obtain ⟨x', hx', hid', _, hfinal⟩ := (hlater w hw).2 x hx
  have hreplay := hlog x hx
  rw [hid, hstate] at hreplay
  exact ⟨t, w, ht, hw, x, hx, hid, hstate, hreplay, x', hx', hid'.trans hid, hfinal hstate⟩

theorem moved_booking_is_mirrored : ∃ t, Reaches Operation.run Operation.Honest shop t ∧
    t.db.voucherRedemptions.rows ≠ [] ∧
    ∀ x ∈ t.db.voucherRedemptions.rows, ∃ u ∈ t.db.promotionUsages.rows, Mirrors t.db u x := by
  obtain ⟨t, _, ht, _, hrows, _⟩ := settled_season
  refine ⟨t, ht, fun hn => ?_, (redemptions_mirror_usages ⟨rfl, rfl, rfl, rfl⟩ ht).1⟩
  simp [hn] at hrows

end Scenario
end PromotionHistory
