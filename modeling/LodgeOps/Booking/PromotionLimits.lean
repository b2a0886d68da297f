import LodgeOps.Booking.PromotionSettlement
import LodgeOps.Booking.Quotes
import LodgeOps.Booking.PromotionBounds
import LodgeOps.Ledger.LedgerRuns
import LodgeOps.Store.Quotas

namespace PromotionLimits
open Schema Transaction CommercialPromotionService Quotas

section Caps
variable {l : Limits} {active : List Use} {x : Use} {discount : ℤ} {guestId : Option ℕ}
variable {sessionHash : Option String}

inductive CapOf (l : Limits) : Cap Use → Prop
  | usages {n : ℕ} (h : l.usageLimit = some n) : CapOf l (counting (fun _ => true) n)
  | budget {b : ℕ} (h : l.budgetMinor = some b) : CapOf l ⟨Use.discountMinor, b⟩
  | guest {n : ℕ} (g : ℕ) (h : l.perGuestLimit = some n) :
    CapOf l (counting (fun u => u.guestId == some g) n)
  | session {n : ℕ} (k : String) (h : l.perSessionLimit = some n) :
    CapOf l (counting (fun u => u.sessionKeyHash == some k) n)

def caps (l : Limits) : Set (Cap Use) := {c | CapOf l c}

theorem caps_bound (c : Cap Use) (h : c ∈ caps l) : 0 ≤ c.bound := by
  cases h <;> simp [counting]

theorem caps_weight (c : Cap Use) (h : c ∈ caps l) (hx : 0 ≤ x.discountMinor) :
    0 ≤ c.weight x := by
  cases h with
  | budget => exact hx
  | usages => exact counting_nonneg x
  | guest => exact counting_nonneg x
  | session => exact counting_nonneg x

-- A use of a kind that a limit does not bound needs no room under it.
theorem counted {p : Use → Bool} {n : ℕ} (hr : (active.countP p : ℤ) ≤ n)
    (hp : p x = true → active.countP p < n) :
    (counting p n).load active + (counting p n).weight x ≤ (counting p n).bound := by
  rw [load_counting]
  simp only [counting]
  split_ifs with h
  · have hlt := hp h
    omega
  · omega

theorem room (hr : Respects (caps l) active)
    (h : exhausted l active x.discountMinor x.guestId x.sessionKeyHash = false) :
    Respects (caps l) (active ++ [x]) := by
  simp only [exhausted, Bool.or_eq_false_iff, Option.any_eq_false, decide_eq_false_iff_not,
    not_le, not_lt] at h
  obtain ⟨⟨⟨husage, hbudget⟩, hguest⟩, hsession⟩ := h
  refine Respects.append fun c hc => ?_
  have hle := hr c hc
  cases hc with
  | usages hn =>
    rw [load_counting] at hle
    refine counted hle fun _ => ?_
    simpa using husage _ hn
  | budget hb => exact hbudget _ hb
  | guest g hn =>
    rw [load_counting] at hle
    refine counted hle fun hg => ?_
    have hx : x.guestId = some g := by simpa using hg
    have hall := hguest g hx
    simpa [hn] using hall
  | session k hn =>
    rw [load_counting] at hle
    refine counted hle fun hk => ?_
    have hx : x.sessionKeyHash = some k := by simpa using hk
    have hall := hsession _ hn
    simpa [hx] using hall

end Caps

section Within

def usesOf (db : Database) (old : List ℕ) (i : ℕ) : List Use :=
  db.promotionUsages.seen (fun u => u.commercialPromotionId == i && isActive u.state &&
    !old.contains u.id) usageOf

def redemptionsOf (db : Database) (old : List ℕ) (i : ℕ) : List Use :=
  db.voucherRedemptions.seen (fun x => x.voucherId == i && isActive x.state &&
    !old.contains x.id) redemptionOf

-- The limits hold of all uses but the old ones, which are about to be given up.
structure Within (old : List ℕ) (spent : List ℕ) (db : Database) : Prop where
  promotions : ∀ i p, db.promotions.find? i = some p →
    Respects (caps (promotionLimits p)) (usesOf db old i)
  vouchers : ∀ i v p, db.vouchers.find? i = some v →
    db.promotions.find? v.commercialPromotionId = some p →
      Respects (caps (voucherLimits v p)) (redemptionsOf db spent i)
  discounts : ∀ u ∈ db.promotionUsages.rows, 0 ≤ u.discountMinor
  redeemed : ∀ x ∈ db.voucherRedemptions.rows, 0 ≤ x.discountMinor
  known : ∀ u ∈ db.promotionUsages.rows, ∃ p, db.promotions.find? u.commercialPromotionId = some p
  vouched : ∀ x ∈ db.voucherRedemptions.rows, ∃ v p, db.vouchers.find? x.voucherId = some v ∧
    db.promotions.find? v.commercialPromotionId = some p
  plain : ∀ u ∈ db.promotionUsages.rows, u.state ≠ .reinstated
  plainRedemptions : ∀ x ∈ db.voucherRedemptions.rows, x.state ≠ .reinstated

variable {db : Database} {old spent : List ℕ} {i : ℕ}

theorem usesOf_discount (h : Within old spent db) {x : Use} (hx : x ∈ usesOf db old i) :
    0 ≤ x.discountMinor := by
  obtain ⟨u, hu, _, rfl⟩ := Table.mem_seen.mp hx
  exact h.discounts u hu

theorem redemptionsOf_discount (h : Within old spent db) {x : Use}
    (hx : x ∈ redemptionsOf db spent i) : 0 ≤ x.discountMinor := by
  obtain ⟨r, hr, _, rfl⟩ := Table.mem_seen.mp hx
  exact h.redeemed r hr

end Within

section Settling
variable {s t : PromotionDesk} {next : CommercialPromotionUsage → Outcome}
variable {nextRedemption : VoucherRedemption → Outcome} {old old' spent spent' : List ℕ}

theorem usageOf_uses {u u' : CommercialPromotionUsage} {types : List UsageEventType}
    (h : Uses next u u' types) :
    usageOf u' = usageOf u ∧ u'.commercialPromotionId = u.commercialPromotionId := by
  have huse := congrArg usageOf h.1
  have hp := congrArg CommercialPromotionUsage.commercialPromotionId h.1
  exact ⟨huse, hp⟩

theorem redemptionOf_redeems {x x' : VoucherRedemption} {types : List UsageEventType}
    (h : Redeems nextRedemption x x' types) :
    redemptionOf x' = redemptionOf x ∧ x'.voucherId = x.voucherId := by
  have huse := congrArg redemptionOf h.1
  have hv := congrArg VoucherRedemption.voucherId h.1
  exact ⟨huse, hv⟩

-- Nothing comes to count that did not, and what was old is given up before it is no longer old.
structure Narrows (next : CommercialPromotionUsage → Outcome)
    (nextRedemption : VoucherRedemption → Outcome) (old old' spent spent' : List ℕ)
    (db : Database) : Prop where
  usages : ∀ u ∈ db.promotionUsages.rows, (next u).Lawful u.state
  redemptions : ∀ x ∈ db.voucherRedemptions.rows, (nextRedemption x).Lawful x.state
  given : ∀ u ∈ db.promotionUsages.rows, isActive (next u).state = true →
    old'.contains u.id = false → old.contains u.id = false
  givenBack : ∀ x ∈ db.voucherRedemptions.rows, isActive (nextRedemption x).state = true →
    spent'.contains x.id = false → spent.contains x.id = false

theorem usesOf_settles (hn : Narrows next nextRedemption old old' spent spent' s.db)
    (h : Settles next nextRedemption s t) (i : ℕ) :
    List.Sublist (usesOf t.db old' i) (usesOf s.db old i) := by
  refine h.usages.seen_sublist fun u hu u' types huses hid hc => ?_
  have hid : u'.id = u.id := hid
  obtain ⟨huse, hp⟩ := usageOf_uses huses
  simp only [Bool.and_eq_true, beq_iff_eq, Bool.not_eq_true', hid, hp, huses.2.1] at hc
  have hact := (hn.usages u hu).active hc.1.2
  have hold := hn.given u hu hc.1.2 hc.2
  simp only [hc.1.1, hact, hold, huse, beq_self_eq_true, Bool.and_true, Bool.not_false, and_self]

theorem redemptionsOf_settles (hn : Narrows next nextRedemption old old' spent spent' s.db)
    (h : Settles next nextRedemption s t) (i : ℕ) :
    List.Sublist (redemptionsOf t.db spent' i) (redemptionsOf s.db spent i) := by
  refine h.redemptions.seen_sublist fun x hx x' types hredeems hid hc => ?_
  have hid : x'.id = x.id := hid
  obtain ⟨huse, hv⟩ := redemptionOf_redeems hredeems
  simp only [Bool.and_eq_true, beq_iff_eq, Bool.not_eq_true', hid, hv, hredeems.2.1] at hc
  have hact := (hn.redemptions x hx).active hc.1.2
  have hold := hn.givenBack x hx hc.1.2 hc.2
  simp only [hc.1.1, hact, hold, huse, beq_self_eq_true, Bool.and_true, Bool.not_false, and_self]

theorem within_settles (hw : Within old spent s.db)
    (hn : Narrows next nextRedemption old old' spent spent' s.db)
    (h : Settles next nextRedemption s t) : Within old' spent' t.db := by
  have hpromotions : t.db.promotions = s.db.promotions := by rw [h.frame]
  have hvouchers : t.db.vouchers = s.db.vouchers := by rw [h.frame]
  refine ⟨fun i p hp => ?_, fun i v p hv hp => ?_, fun u' hu => ?_, fun x' hx => ?_,
    fun u' hu => ?_, fun x' hx => ?_, fun u' hu => ?_, fun x' hx => ?_⟩
  · rw [hpromotions] at hp
    exact (hw.promotions i p hp).sublist (usesOf_settles hn h i) fun c hc x hx =>
      caps_weight c hc (usesOf_discount hw hx)
  · rw [hvouchers] at hv
    rw [hpromotions] at hp
    exact (hw.vouchers i v p hv hp).sublist (redemptionsOf_settles hn h i) fun c hc x hx =>
      caps_weight c hc (redemptionsOf_discount hw hx)
  · obtain ⟨u, hu, _, _, huses, _⟩ := h.usages.row hu
    have hd : u'.discountMinor = u.discountMinor := congrArg Use.discountMinor (usageOf_uses huses).1
    exact hd ▸ hw.discounts u hu
  · obtain ⟨x, hx, _, _, hredeems, _⟩ := h.redemptions.row hx
    have hd : x'.discountMinor = x.discountMinor :=
      congrArg Use.discountMinor (redemptionOf_redeems hredeems).1
    exact hd ▸ hw.redeemed x hx
  · obtain ⟨u, hu, _, _, huses, _⟩ := h.usages.row hu
    rw [(usageOf_uses huses).2, hpromotions]
    exact hw.known u hu
  · obtain ⟨x, hx, _, _, hredeems, _⟩ := h.redemptions.row hx
    rw [(redemptionOf_redeems hredeems).2, hpromotions, hvouchers]
    exact hw.vouched x hx
  · obtain ⟨u, hu, _, _, huses, _⟩ := h.usages.row hu
    rw [huses.2.1]
    exact (hn.usages u hu).plain (hw.plain u hu)
  · obtain ⟨x, hx, _, _, hredeems, _⟩ := h.redemptions.row hx
    rw [hredeems.2.1]
    exact (hn.redemptions x hx).plain (hw.plainRedemptions x hx)

theorem narrows_lawful (hu : ∀ u ∈ s.db.promotionUsages.rows, (next u).Lawful u.state)
    (hx : ∀ x ∈ s.db.voucherRedemptions.rows, (nextRedemption x).Lawful x.state) :
    Narrows next nextRedemption [] [] [] [] s.db :=
  ⟨hu, hx, fun _ _ _ _ => rfl, fun _ _ _ _ => rfl⟩

theorem within_confirmed {i : ℕ} (hw : Within [] [] s.db)
    (h : Settles (confirmedUsage i) (confirmedRedemption i) s t) : Within [] [] t.db :=
  within_settles hw (narrows_lawful (fun _ _ => lawful_confirmedUsage) fun x hx =>
    lawful_confirmedRedemption (hw.plainRedemptions x hx)) h

theorem within_release {i : ℕ} {reason : String} {cancellation : Bool} {actorId : Option ℕ}
    (hw : Within [] [] s.db) (h : Commits (release i reason cancellation actorId) s () t) :
    Within [] [] t.db :=
  within_settles hw (narrows_lawful (fun _ _ => lawful_releasedUsage) fun _ _ =>
    lawful_releasedRedemption) (commits_release h)

theorem within_recordRefundCompletion {r : Reservation} {refund : ReservationChange}
    {actorId : Option ℕ} (hw : Within [] [] s.db)
    (h : Commits (recordRefundCompletion r refund actorId) s () t) : Within [] [] t.db :=
  within_settles hw (narrows_lawful (fun u hu => lawful_refundedUsage (hw.plain u hu)) fun x hx =>
    lawful_refundedRedemption (hw.plainRedemptions x hx)) (commits_recordRefundCompletion h)

end Settling

section Reserving
variable {s t : PromotionDesk} {c : Claim} {f : PromotionSnapshot} {p : CommercialPromotion}
variable {v : Option Voucher} {w : Voucher} {red red' : Option VoucherRedemption}
variable {old spent : List ℕ}

-- The reservation's own uses that are not old come from the quote that is being taken up.
structure Free (c : Claim) (old spent : List ℕ) (db : Database) : Prop where
  usages : c.amendment = true → ∀ u ∈ db.promotionUsages.rows, isActive u.state = true →
    old.contains u.id = false → u.reservationId = c.reservation.id → u.bookingQuoteId = c.quote.id
  redemptions : c.amendment = true → ∀ x ∈ db.voucherRedemptions.rows, isActive x.state = true →
    spent.contains x.id = false → x.reservationId = c.reservation.id →
      x.bookingQuoteId = c.quote.id
  mine : ∀ u ∈ db.promotionUsages.rows, old.contains u.id = true →
    u.reservationId = c.reservation.id
  spentMine : ∀ x ∈ db.voucherRedemptions.rows, spent.contains x.id = true →
    x.reservationId = c.reservation.id
  unamended : c.amendment = false → old = [] ∧ spent = []
  next : ∀ k, db.promotionUsages.next ≤ k → old.contains k = false
  spentNext : ∀ k, db.voucherRedemptions.next ≤ k → spent.contains k = false

theorem usesOf_free {db : Database} (hf : Free c old spent db)
    (hu : usedBy db p.id c.quote.id = false) :
    activeUsages db p.id c.reservation.id c.amendment = usesOf db old p.id := by
  have hnone : ∀ u ∈ db.promotionUsages.rows, u.commercialPromotionId = p.id →
      u.bookingQuoteId ≠ c.quote.id := by
    intro u hm hp hq
    have hfirst := Table.first?_eq_none.mp (by simpa [usedBy] using hu) u hm
    simp [hp, hq] at hfirst
  refine Table.seen_congr fun u hm => ?_
  cases ha : c.amendment with
  | false =>
    obtain ⟨rfl, _⟩ := hf.unamended ha
    simp
  | true =>
    by_cases hp : u.commercialPromotionId = p.id
    · cases hact : isActive u.state with
      | false => simp
      | true =>
        cases ho : old.contains u.id with
        | true => simp [hf.mine u hm ho]
        | false =>
          have hne : u.reservationId ≠ c.reservation.id := fun hr =>
            hnone u hm hp (hf.usages ha u hm hact ho hr)
          simp [hne]
    · have hb : (u.commercialPromotionId == p.id) = false := by simpa using hp
      simp [hb]

theorem redemptionsOf_free {db : Database} (hf : Free c old spent db)
    (hu : ∀ x ∈ db.voucherRedemptions.rows, x.bookingQuoteId ≠ c.quote.id) :
    activeRedemptions db w.id c.reservation.id c.amendment = redemptionsOf db spent w.id := by
  refine Table.seen_congr fun x hm => ?_
  cases ha : c.amendment with
  | false =>
    obtain ⟨_, rfl⟩ := hf.unamended ha
    simp
  | true =>
    cases hact : isActive x.state with
    | false => simp
    | true =>
      cases ho : spent.contains x.id with
      | true => simp [hf.spentMine x hm ho]
      | false =>
        have hne : x.reservationId ≠ c.reservation.id := fun hr =>
          hu x hm (hf.redemptions ha x hm hact ho hr)
        simp [hne]

theorem usesOf_reserves (h : Reserves s t c f p v)
    (hold : old.contains s.db.promotionUsages.next = false) (i : ℕ) :
    usesOf t.db old i = usesOf s.db old i ++
      if p.id = i then [⟨c.reservation.id, c.guestId, c.sessionHash, f.discountMinor⟩] else [] := by
  unfold usesOf
  rw [h.result]
  refine (Table.seen_insert (names_newUsage _ _ _ _)).trans ?_
  have hcounts : ((newUsage c p f v s.db.promotionUsages.next).commercialPromotionId == i &&
      isActive (newUsage c p f v s.db.promotionUsages.next).state &&
        !old.contains (newUsage c p f v s.db.promotionUsages.next).id) = decide (p.id = i) := by
    simp only [newUsage, hold, isActive]
    by_cases hp : p.id = i <;> simp [hp]
  rw [hcounts]
  congr 1
  split_ifs <;> simp_all [newUsage, usageOf]

theorem redemptionsOf_reserves (h : Reserves s t c f p v)
    (hold : spent.contains s.db.voucherRedemptions.next = false) (i : ℕ) :
    redemptionsOf t.db spent i = redemptionsOf s.db spent i ++
      if v.map Voucher.id = some i
      then [⟨c.reservation.id, c.guestId, c.sessionHash, f.discountMinor⟩] else [] := by
  unfold redemptionsOf
  rw [h.result]
  cases v with
  | none => simp [redeemedWith]
  | some w =>
    refine (Table.seen_insert (names_newRedemption _ _ _)).trans ?_
    have hcounts : ((newRedemption c f w s.db.voucherRedemptions.next).voucherId == i &&
        isActive (newRedemption c f w s.db.voucherRedemptions.next).state &&
          !spent.contains (newRedemption c f w s.db.voucherRedemptions.next).id) =
            decide (w.id = i) := by
      simp only [newRedemption, hold, isActive]
      by_cases hp : w.id = i <;> simp [hp]
    rw [hcounts]
    congr 1
    by_cases hp : w.id = i <;> simp [hp, newRedemption, redemptionOf]

theorem within_reserves (h : Reserves s t c f p v) (hw : Within old spent s.db)
    (hf : Free c old spent s.db) : Within old spent t.db := by
  refine ⟨fun i q hq => ?_, fun i w q hv hq => ?_, fun u hu => ?_, fun x hx => ?_, fun u hu => ?_,
    fun x hx => ?_, fun u hu => ?_, fun x hx => ?_⟩
  · rw [h.promotions] at hq
    rw [usesOf_reserves h (hf.next _ le_rfl)]
    split_ifs with hi
    · subst hi
      obtain rfl := Option.some.inj (h.found.symm.trans hq)
      have hroom := h.room
      rw [usesOf_free hf (h.same ▸ h.unused)] at hroom
      exact room (hw.promotions _ _ hq) hroom
    · rw [List.append_nil]
      exact hw.promotions i q hq
  · rw [h.vouchers] at hv
    rw [h.promotions] at hq
    rw [redemptionsOf_reserves h (hf.spentNext _ le_rfl)]
    split_ifs with hi
    · obtain ⟨w', rfl, rfl⟩ := Option.map_eq_some_iff.mp hi
      obtain ⟨hfind, hp, hroom⟩ := voucherFor_some h.voucher
      obtain rfl := Option.some.inj (hfind.symm.trans hv)
      rw [hp] at hq
      obtain rfl := Option.some.inj (h.found.symm.trans hq)
      rw [redemptionsOf_free hf (h.unredeemed _ rfl)] at hroom
      exact room (hw.vouchers _ _ p hv (hp ▸ hq)) hroom
    · rw [List.append_nil]
      exact hw.vouchers i w q hv hq
  · rcases h.usageRow hu with hu | rfl
    · exact hw.discounts u hu
    · exact h.positive.le
  · rcases h.redemptionRow hx with hx | ⟨w, _, rfl⟩
    · exact hw.redeemed x hx
    · exact h.positive.le
  · rw [h.promotions]
    rcases h.usageRow hu with hu | rfl
    · exact hw.known u hu
    · exact ⟨p, h.found⟩
  · rw [h.promotions, h.vouchers]
    rcases h.redemptionRow hx with hx | ⟨w, rfl, rfl⟩
    · exact hw.vouched x hx
    · obtain ⟨hfind, hp, _⟩ := voucherFor_some h.voucher
      exact ⟨w, p, hfind, hp ▸ h.found⟩
  · rcases h.usageRow hu with hu | rfl
    · exact hw.plain u hu
    · simp [newUsage]
  · rcases h.redemptionRow hx with hx | ⟨w, _, rfl⟩
    · exact hw.plainRedemptions x hx
    · simp [newRedemption]

theorem free_reserves (h : Reserves s t c f p v) (hf : Free c old spent s.db) :
    Free c old spent t.db := by
  refine ⟨fun ha u hu hact ho hr => ?_, fun ha x hx hact ho hr => ?_, fun u hu ho => ?_,
    fun x hx ho => ?_, hf.unamended, fun k hk => hf.next k (h.next_le.trans hk),
    fun k hk => hf.spentNext k (h.redemptionNext_le.trans hk)⟩
  · rcases h.usageRow hu with hu | rfl
    · exact hf.usages ha u hu hact ho hr
    · rfl
  · rcases h.redemptionRow hx with hx | ⟨w, _, rfl⟩
    · exact hf.redemptions ha x hx hact ho hr
    · rfl
  · rcases h.usageRow hu with hu | rfl
    · exact hf.mine u hu ho
    · rfl
  · rcases h.redemptionRow hx with hx | ⟨w, _, rfl⟩
    · exact hf.spentMine x hx ho
    · rfl

theorem within_reserveForCommit (hw : Within old spent s.db) (hf : Free c old spent s.db)
    (h : Commits (reserveForCommit c) s red t) : Within old spent t.db ∧ Free c old spent t.db :=
  reserveForCommit_kept (I := fun s => Within old spent s.db ∧ Free c old spent s.db)
    (fun _ _ _ _ _ hs hr => ⟨within_reserves hr hs.1 hs.2, free_reserves hr hs.2⟩) ⟨hw, hf⟩ h

theorem within_widened {db : Database} (h : Within [] [] db) : Within old spent db where
  promotions i p hp := (h.promotions i p hp).sublist
    (Table.seen_sublist fun u _ hc => by
      have hc := (Bool.and_eq_true_iff.mp hc).1
      simpa using hc)
    fun c hc x hx => caps_weight c hc (usesOf_discount h hx)
  vouchers i v p hv hp := (h.vouchers i v p hv hp).sublist
    (Table.seen_sublist fun x _ hc => by
      have hc := (Bool.and_eq_true_iff.mp hc).1
      simpa using hc)
    fun c hc x hx => caps_weight c hc (redemptionsOf_discount h hx)
  discounts := h.discounts
  redeemed := h.redeemed
  known := h.known
  vouched := h.vouched
  plain := h.plain
  plainRedemptions := h.plainRedemptions

theorem free_held {db : Database} (ha : c.amendment = true) :
    Free c ((heldUsages db c.reservation.id).map CommercialPromotionUsage.id)
      ((heldRedemptions db c.reservation.id).map VoucherRedemption.id) db where
  usages _ u hu hact ho hr := by
    have hheld : u.id ∈ (heldUsages db c.reservation.id).map CommercialPromotionUsage.id :=
      (Table.mem_ids_select hu).mpr (by simp [hr, hact])
    simp [hheld] at ho
  redemptions _ x hx hact ho hr := by
    have hheld : x.id ∈ (heldRedemptions db c.reservation.id).map VoucherRedemption.id :=
      (Table.mem_ids_select hx).mpr (by simp [hr, hact])
    simp [hheld] at ho
  mine u hu ho := by
    have hp := (Table.mem_ids_select hu).mp (List.contains_iff_mem.mp ho)
    exact beq_iff_eq.mp (Bool.and_eq_true_iff.mp hp).1
  spentMine x hx ho := by
    have hp := (Table.mem_ids_select hx).mp (List.contains_iff_mem.mp ho)
    exact beq_iff_eq.mp (Bool.and_eq_true_iff.mp hp).1
  unamended hn := by simp [ha] at hn
  next k hk := by
    by_contra hc
    rw [Bool.not_eq_false] at hc
    have hlt := held_below db _ k (List.contains_iff_mem.mp hc)
    omega
  spentNext k hk := by
    by_contra hc
    rw [Bool.not_eq_false] at hc
    have hlt := heldRedemption_below db _ k (List.contains_iff_mem.mp hc)
    omega

theorem narrows_superseded {db : Database}
    (hu : ∀ u ∈ db.promotionUsages.rows, (supersededUsage old u).Lawful u.state)
    (hx : ∀ x ∈ db.voucherRedemptions.rows, (supersededRedemption spent x).Lawful x.state) :
    Narrows (supersededUsage old) (supersededRedemption spent) old [] spent [] db where
  usages := hu
  redemptions := hx
  given u _ hact _ := by
    by_contra hc
    have hi : u.id ∈ old := by simpa using hc
    simp [supersededUsage, hi, isActive] at hact
  givenBack x _ hact _ := by
    by_contra hc
    have hi : x.id ∈ spent := by simpa using hc
    simp [supersededRedemption, hi, isActive] at hact

theorem within_replaceForAmendment (hw : Within [] [] s.db)
    (h : Commits (replaceForAmendment c) s () t) : Within [] [] t.db := by
  obtain ⟨_, m, n, hm, hu, hx, hn, ht⟩ := commits_replaceForAmendment h
  obtain ⟨hwm, _⟩ := within_reserveForCommit (within_widened hw)
    (free_held (c := { c with amendment := true }) rfl) hm
  have hwn := within_settles hwm (narrows_superseded hu hx) hn
  rcases ht with ht | rfl
  · exact within_confirmed hwn ht
  · exact hwn

theorem free_unamended {db : Database} (ha : c.amendment = false) : Free c [] [] db where
  usages hc := by simp [ha] at hc
  redemptions hc := by simp [ha] at hc
  mine _ _ ho := by simp at ho
  spentMine _ _ ho := by simp at ho
  unamended _ := ⟨rfl, rfl⟩
  next _ _ := rfl
  spentNext _ _ := rfl

end Reserving

section Runs

inductive Operation
  | reserve (c : Claim)
  | confirm (reservationId : ℕ) (actorId : Option ℕ)
  | release (reservationId : ℕ) (reason : String) (cancellation : Bool) (actorId : Option ℕ)
  | replace (c : Claim)
  | refund (r : Reservation) (change : ReservationChange) (actorId : Option ℕ)
  | elsewhere (result : PromotionDesk)

def Operation.run : Operation → PromotionTx Unit
  | reserve c => do
    let _ ← reserveForCommit { c with amendment := false }
    pure ()
  | confirm i actorId => CommercialPromotionService.confirm i actorId
  | release i reason cancellation actorId =>
    CommercialPromotionService.release i reason cancellation actorId
  | replace c => replaceForAmendment c
  | refund r change actorId => recordRefundCompletion r change actorId
  | elsewhere result => set result

def Used (db : Database) (i : ℕ) : Prop :=
  (∃ u ∈ db.promotionUsages.rows, u.commercialPromotionId = i) ∨
    ∃ x ∈ db.voucherRedemptions.rows, ∃ v, db.vouchers.find? x.voucherId = some v ∧
      v.commercialPromotionId = i

-- Published promotions and issued vouchers keep their limits; a use is written by its service only.
structure Elsewhere (s t : PromotionDesk) : Prop where
  usages : t.db.promotionUsages = s.db.promotionUsages
  redemptions : t.db.voucherRedemptions = s.db.voucherRedemptions
  usageEvents : t.usageEvents = s.usageEvents
  redemptionEvents : t.redemptionEvents = s.redemptionEvents
  promotion : ∀ i p, s.db.promotions.find? i = some p → Used s.db i →
    ∃ p', t.db.promotions.find? i = some p' ∧ promotionLimits p' = promotionLimits p
  voucher : ∀ i v, s.db.vouchers.find? i = some v →
    (∃ x ∈ s.db.voucherRedemptions.rows, x.voucherId = i) →
      ∃ v', t.db.vouchers.find? i = some v' ∧ v'.commercialPromotionId = v.commercialPromotionId ∧
        voucherLimits v' = voucherLimits v

def Operation.Honest (op : Operation) (s : PromotionDesk) : Prop :=
  match op with
  | elsewhere result => Elsewhere s result
  | _ => True

structure Unused (s : PromotionDesk) : Prop where
  usages : s.db.promotionUsages.rows = []
  redemptions : s.db.voucherRedemptions.rows = []
  usageEvents : s.usageEvents.rows = []
  redemptionEvents : s.redemptionEvents.rows = []

structure Honours (l : Limits) (active : List Use) : Prop where
  usages : ∀ n, l.usageLimit = some n → active.length ≤ n
  budget : ∀ b, l.budgetMinor = some b → (active.map Use.discountMinor).sum ≤ b
  guest : ∀ n, l.perGuestLimit = some n → ∀ g, active.countP (fun u => u.guestId == some g) ≤ n
  session : ∀ n, l.perSessionLimit = some n →
    ∀ k, active.countP (fun u => u.sessionKeyHash == some k) ≤ n

theorem honours_of_respects {l : Limits} {active : List Use} (h : Respects (caps l) active) :
    Honours l active where
  usages n hn := by
    have hle := h _ (CapOf.usages hn)
    rw [load_counting, List.countP_true] at hle
    simpa [counting] using hle
  budget b hb := h _ (CapOf.budget hb)
  guest n hn g := by
    have hle := h _ (CapOf.guest g hn)
    rw [load_counting] at hle
    simpa [counting] using hle
  session n hn k := by
    have hle := h _ (CapOf.session k hn)
    rw [load_counting] at hle
    simpa [counting] using hle

variable {s t : PromotionDesk} {op : Operation}

theorem within_unused (h : Unused s) : Within [] [] s.db where
  promotions i p _ := by
    have hnil : usesOf s.db [] i = [] := by simp [usesOf, Table.seen, Table.select, h.usages]
    rw [hnil]
    exact respects_nil caps_bound
  vouchers i v p _ _ := by
    have hnil : redemptionsOf s.db [] i = [] := by
      simp [redemptionsOf, Table.seen, Table.select, h.redemptions]
    rw [hnil]
    exact respects_nil caps_bound
  discounts u hu := by simp [h.usages] at hu
  redeemed x hx := by simp [h.redemptions] at hx
  known u hu := by simp [h.usages] at hu
  vouched x hx := by simp [h.redemptions] at hx
  plain u hu := by simp [h.usages] at hu
  plainRedemptions x hx := by simp [h.redemptions] at hx

theorem voucherLimits_congr {p p' : CommercialPromotion} (h : promotionLimits p' = promotionLimits p)
    (v : Voucher) : voucherLimits v p' = voucherLimits v p := by
  simp only [promotionLimits, Limits.mk.injEq] at h
  obtain ⟨husage, hbudget, hguest, hsession⟩ := h
  simp [voucherLimits, husage, hbudget, hguest, hsession]

theorem within_elsewhere (hw : Within [] [] s.db) (h : Elsewhere s t) : Within [] [] t.db := by
  refine ⟨fun i p' hp' => ?_, fun i v' p' hv' hp' => ?_, ?_, ?_, fun u hu => ?_, fun x hx => ?_,
    ?_, ?_⟩
  · have hsame : usesOf t.db [] i = usesOf s.db [] i := by simp only [usesOf, h.usages]
    rw [hsame]
    by_cases hn : usesOf s.db [] i = []
    · rw [hn]
      exact respects_nil caps_bound
    obtain ⟨a, ha⟩ := List.exists_mem_of_ne_nil _ hn
    obtain ⟨u, hu, hc, _⟩ := Table.mem_seen.mp ha
    have hi : u.commercialPromotionId = i := by
      simp only [Bool.and_eq_true, beq_iff_eq] at hc
      exact hc.1.1
    obtain ⟨p, hp⟩ := hw.known u hu
    rw [hi] at hp
    obtain ⟨q, hq, hlimits⟩ := h.promotion i p hp (Or.inl ⟨u, hu, hi⟩)
    obtain rfl := Option.some.inj (hq.symm.trans hp')
    rw [hlimits]
    exact hw.promotions i p hp
  · have hsame : redemptionsOf t.db [] i = redemptionsOf s.db [] i := by
      simp only [redemptionsOf, h.redemptions]
    rw [hsame]
    by_cases hn : redemptionsOf s.db [] i = []
    · rw [hn]
      exact respects_nil caps_bound
    obtain ⟨a, ha⟩ := List.exists_mem_of_ne_nil _ hn
    obtain ⟨x, hx, hc, _⟩ := Table.mem_seen.mp ha
    have hi : x.voucherId = i := by
      simp only [Bool.and_eq_true, beq_iff_eq] at hc
      exact hc.1.1
    obtain ⟨v, p, hv, hp⟩ := hw.vouched x hx
    rw [hi] at hv
    obtain ⟨w, hfind, hid, hvlimits⟩ := h.voucher i v hv ⟨x, hx, hi⟩
    obtain rfl := Option.some.inj (hfind.symm.trans hv')
    obtain ⟨q, hq, hlimits⟩ := h.promotion _ p hp (Or.inr ⟨x, hx, v, hi ▸ hv, rfl⟩)
    rw [hid] at hp'
    obtain rfl := Option.some.inj (hq.symm.trans hp')
    rw [hvlimits, voucherLimits_congr hlimits]
    exact hw.vouchers i v p hv hp
  · rw [h.usages]
    exact hw.discounts
  · rw [h.redemptions]
    exact hw.redeemed
  · rw [h.usages] at hu
    obtain ⟨p, hp⟩ := hw.known u hu
    obtain ⟨q, hq, _⟩ := h.promotion _ p hp (Or.inl ⟨u, hu, rfl⟩)
    exact ⟨q, hq⟩
  · rw [h.redemptions] at hx
    obtain ⟨v, p, hv, hp⟩ := hw.vouched x hx
    obtain ⟨w, hfind, hid, _⟩ := h.voucher _ v hv ⟨x, hx, rfl⟩
    obtain ⟨q, hq, _⟩ := h.promotion _ p hp (Or.inr ⟨x, hx, v, hv, rfl⟩)
    exact ⟨w, q, hfind, hid.symm ▸ hq⟩
  · rw [h.usages]
    exact hw.plain
  · rw [h.redemptions]
    exact hw.plainRedemptions

theorem within_step (hw : Within [] [] s.db) (ha : op.Honest s) (h : Commits op.run s () t) :
    Within [] [] t.db := by
  cases op with
  | reserve c =>
    obtain ⟨_, m, hm, h⟩ := commits_bind.mp h
    obtain ⟨_, rfl⟩ := commits_pure.mp h
    exact (within_reserveForCommit hw (free_unamended rfl) hm).1
  | confirm => exact within_confirmed hw (commits_confirm h)
  | release => exact within_release hw h
  | replace => exact within_replaceForAmendment hw h
  | refund => exact within_recordRefundCompletion hw h
  | elsewhere =>
    obtain rfl := commits_set.mp h
    exact within_elsewhere hw ha

theorem limits_are_honoured (hs : Unused s)
    (h : Reaches Operation.run Operation.Honest s t) :
    (∀ i p, t.db.promotions.find? i = some p →
      Honours (promotionLimits p) (activeUsages t.db i 0 false)) ∧
    ∀ i v p, t.db.vouchers.find? i = some v →
      t.db.promotions.find? v.commercialPromotionId = some p →
        Honours (voucherLimits v p) (activeRedemptions t.db i 0 false) := by
  have hw := h.invariant (I := fun s => Within [] [] s.db) (within_unused hs)
    fun _ _ _ hw ha hc => within_step hw ha hc
  refine ⟨fun i p hp => honours_of_respects ?_, fun i v p hv hp => honours_of_respects ?_⟩
  · have hsame : activeUsages t.db i 0 false = usesOf t.db [] i :=
      Table.seen_congr fun u _ => by simp
    exact hsame ▸ hw.promotions i p hp
  · have hsame : activeRedemptions t.db i 0 false = redemptionsOf t.db [] i :=
      Table.seen_congr fun x _ => by simp
    exact hsame ▸ hw.vouchers i v p hv hp

end Runs

section Scenario

-- Two bookings at most, and no more than 900 given away.
def coupon (i : ℕ) : CommercialPromotion :=
  { PromotionBounds.offer 500 i with
    requiresCode := true
    usageLimit := some 2
    budgetMinor := some 900
    reinstateOnCancel := true }

def card (i : ℕ) : Voucher where
  id := i
  commercialPromotionId := 0
  propertyId := none
  code := "OPENING"
  isActive := true
  validFrom := none
  validUntil := none
  usageLimit := some 1

def shop : PromotionDesk where
  db :=
    { clock := 0
      catalogue := .empty
      promotions := Table.empty.insert coupon
      vouchers := Table.empty.insert card }

def taken (discountMinor : ℤ) : PromotionSnapshot where
  promotionId := 0
  promotionVersion := 1
  voucherId := some 0
  priority := 0
  exclusive := false
  stackingGroup := none
  publicLabel := "Opening offer"
  discountType := .fixed
  percentageBasisPoints := 0
  fixedAmountMinor := 500
  discountMinor := discountMinor

def priced (discountMinor : ℤ) : BookingQuoteService.Calculation where
  inputs := ⟨0, 0, 0, none, none, 1000, 2000, 2, 0, 0, [], some 0, none, none⟩
  currency := "USD"
  subtotalMinor := 10000
  discountMinor := discountMinor
  taxMinor := 0
  totalMinor := 10000 - discountMinor
  depositPolicySnapshot := none
  cancellationPolicySnapshot := none
  calculationSnapshot := ⟨0, 1, .published, [taken discountMinor], some 0, none, 0, 1⟩
  expiresAt := 3600
  lines := []

def claim (discountMinor : ℤ) (quoteId reservationId : ℕ) : Claim where
  quote := (priced discountMinor).toQuote quoteId
  reservation := LedgerRuns.stay reservationId
  guest := none
  amendment := false
  actorId := none

def plainly (op : Operation) (_ : PromotionDesk) : Bool :=
  match op with
  | .elsewhere _ => false
  | _ => true

theorem honest_of_plainly {op : Operation} {s : PromotionDesk} (h : plainly op s = true) :
    op.Honest s := by
  cases op with
  | elsewhere => cases h
  | _ => trivial

-- The first booking moves to a cheaper stay, a second takes the voucher when the first is given up.
def season : List Operation :=
  [.reserve (claim 500 0 0), .confirm 0 none, .replace (claim 400 1 0),
    .release 0 "Cancelled" true none, .reserve (claim 500 2 1)]

theorem voucher_is_used_again : ∃ t, Reaches Operation.run Operation.Honest shop t ∧
    (activeRedemptions t.db 0 0 false).length = 1 ∧
    Honours (voucherLimits (card 0) (coupon 0)) (activeRedemptions t.db 0 0 false) := by
  obtain ⟨t, ht, hp⟩ : ∃ t, Reaches Operation.run Operation.Honest shop t ∧
      (decide (t.db.vouchers.find? 0 = some (card 0)) &&
        decide (t.db.promotions.find? 0 = some (coupon 0)) &&
        decide ((activeRedemptions t.db 0 0 false).length = 1)) = true :=
    Reaches.exists_of_execute (fun _ _ => honest_of_plainly) season (by decide +kernel)
  simp only [Bool.and_eq_true, decide_eq_true_eq] at hp
  obtain ⟨⟨hv, hc⟩, hn⟩ := hp
  exact ⟨t, ht, hn, (limits_are_honoured ⟨rfl, rfl, rfl, rfl⟩ ht).2 0 (card 0) (coupon 0) hv hc⟩

end Scenario
end PromotionLimits
