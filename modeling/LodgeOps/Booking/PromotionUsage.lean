import LodgeOps.Booking.Promotions
import LodgeOps.Store.Frames

namespace CommercialPromotionService
open Schema Transaction

section Rows

inductive UsageEventType
  | reserved | confirmed | released | retained | superseded | refundReinstated | refundRetained
deriving DecidableEq

inductive UsageFacts
  | none
  | reserved (quoteId : ℕ) (discountMinor : ℤ) (promotionVersion : Option ℕ)
  | released (reason : Option String) (cancellation : Bool)
  | replaced (replacementUsageId : Option ℕ) (discountDeltaMinor : ℤ)
  | superseded (replacementQuoteId : ℕ)
  | refund (refundChangeId : ℕ) (refundAmountMinor : ℤ) (policy : Option String)
deriving DecidableEq

structure CommercialPromotionUsageEvent where
  id : ℕ
  commercialPromotionUsageId : ℕ
  actorId : Option ℕ
  type : UsageEventType
  facts : UsageFacts
  occurredAt : ℤ
deriving DecidableEq

structure VoucherRedemptionEvent where
  id : ℕ
  voucherRedemptionId : ℕ
  actorId : Option ℕ
  type : UsageEventType
  policyReason : String
  facts : UsageFacts
  occurredAt : ℤ
deriving DecidableEq

instance : Keyed CommercialPromotionUsageEvent := ⟨CommercialPromotionUsageEvent.id⟩
instance : Keyed VoucherRedemptionEvent := ⟨VoucherRedemptionEvent.id⟩

structure PromotionDesk where
  db : Database
  usageEvents : Table CommercialPromotionUsageEvent := .empty
  redemptionEvents : Table VoucherRedemptionEvent := .empty

abbrev PromotionTx (α : Type) := Transaction Failure PromotionDesk α

end Rows

section Writing

def usageNote (usageId : ℕ) (type : UsageEventType) (facts : UsageFacts) (actorId : Option ℕ)
    (now : ℤ) (i : ℕ) : CommercialPromotionUsageEvent where
  id := i
  commercialPromotionUsageId := usageId
  actorId := actorId
  type := type
  facts := facts
  occurredAt := now

def redemptionNote (redemptionId : ℕ) (type : UsageEventType) (reason : String)
    (facts : UsageFacts) (actorId : Option ℕ) (now : ℤ) (i : ℕ) : VoucherRedemptionEvent where
  id := i
  voucherRedemptionId := redemptionId
  actorId := actorId
  type := type
  policyReason := reason
  facts := facts
  occurredAt := now

theorem names_usageNote (usageId : ℕ) (type : UsageEventType) (facts : UsageFacts)
    (actorId : Option ℕ) (now : ℤ) : Names (usageNote usageId type facts actorId now) :=
  fun _ => rfl

theorem names_redemptionNote (redemptionId : ℕ) (type : UsageEventType) (reason : String)
    (facts : UsageFacts) (actorId : Option ℕ) (now : ℤ) :
    Names (redemptionNote redemptionId type reason facts actorId now) := fun _ => rfl

def usageEvent (usageId : ℕ) (type : UsageEventType) (facts : UsageFacts) (actorId : Option ℕ) :
    PromotionTx Unit :=
  modify fun s => { s with
    usageEvents := s.usageEvents.insert (usageNote usageId type facts actorId s.db.clock)
      (names_usageNote _ _ _ _ _) }

def event (redemptionId : ℕ) (type : UsageEventType) (reason : String) (facts : UsageFacts)
    (actorId : Option ℕ) : PromotionTx Unit :=
  modify fun s => { s with
    redemptionEvents := s.redemptionEvents.insert
      (redemptionNote redemptionId type reason facts actorId s.db.clock)
      (names_redemptionNote _ _ _ _ _ _) }

def usedAs (state : UsageState) (u : CommercialPromotionUsage) : CommercialPromotionUsage :=
  { u with state := state }

def redeemedAs (state : UsageState) (x : VoucherRedemption) : VoucherRedemption :=
  { x with state := state }

def supersededBy (replacement : Option CommercialPromotionUsage) (u : CommercialPromotionUsage) :
    CommercialPromotionUsage :=
  { u with
    state := .released
    supersededById := replacement.map CommercialPromotionUsage.id }

theorem keeps_usedAs (state : UsageState) : Keeps (usedAs state) := fun _ => rfl

theorem keeps_redeemedAs (state : UsageState) : Keeps (redeemedAs state) := fun _ => rfl

theorem keeps_supersededBy (replacement : Option CommercialPromotionUsage) :
    Keeps (supersededBy replacement) := fun _ => rfl

def saveUsage (i : ℕ) (f : CommercialPromotionUsage → CommercialPromotionUsage) (hf : Keeps f) :
    PromotionTx Unit :=
  modify fun s => { s with
    db := { s.db with promotionUsages := s.db.promotionUsages.update i f hf } }

def saveRedemption (i : ℕ) (state : UsageState) : PromotionTx Unit :=
  modify fun s => { s with
    db := { s.db with
      voucherRedemptions := s.db.voucherRedemptions.update i (redeemedAs state)
        (keeps_redeemedAs state) } }

end Writing

section Limits

def isActive (s : UsageState) : Bool := s == .reserved || s == .confirmed

-- What the limits look at in a usage or a redemption.
structure Use where
  reservationId : ℕ
  guestId : Option ℕ
  sessionKeyHash : Option String
  discountMinor : ℤ
deriving DecidableEq

structure Limits where
  usageLimit : Option ℕ
  budgetMinor : Option ℕ
  perGuestLimit : Option ℕ
  perSessionLimit : Option ℕ
deriving DecidableEq

def usageOf (u : CommercialPromotionUsage) : Use :=
  ⟨u.reservationId, u.guestId, u.sessionKeyHash, u.discountMinor⟩

def redemptionOf (x : VoucherRedemption) : Use :=
  ⟨x.reservationId, x.guestId, x.sessionKeyHash, x.discountMinor⟩

def promotionLimits (p : CommercialPromotion) : Limits :=
  ⟨p.usageLimit, p.budgetMinor, p.perGuestLimit, p.perSessionLimit⟩

def voucherLimits (v : Voucher) (p : CommercialPromotion) : Limits :=
  ⟨v.usageLimit.orElse fun _ => p.usageLimit, v.budgetMinor.orElse fun _ => p.budgetMinor,
    v.perGuestLimit.orElse fun _ => p.perGuestLimit,
    v.perSessionLimit.orElse fun _ => p.perSessionLimit⟩

def exhausted (l : Limits) (active : List Use) (discount : ℤ) (guestId : Option ℕ)
    (sessionHash : Option String) : Bool :=
  l.usageLimit.any (fun n => decide (n ≤ active.length)) ||
    l.budgetMinor.any (fun (b : ℕ) =>
      decide ((b : ℤ) < (active.map Use.discountMinor).sum + discount)) ||
    guestId.any (fun g => l.perGuestLimit.any fun n =>
      decide (n ≤ active.countP fun u => u.guestId == some g)) ||
    l.perSessionLimit.any fun n => sessionHash.all fun h =>
      decide (n ≤ active.countP fun u => u.sessionKeyHash == some h)

def activeUsages (db : Database) (promotionId reservationId : ℕ) (amendment : Bool) : List Use :=
  (db.promotionUsages.select fun u => u.commercialPromotionId == promotionId && isActive u.state &&
    (!amendment || u.reservationId != reservationId)).map usageOf

def activeRedemptions (db : Database) (voucherId reservationId : ℕ) (amendment : Bool) :
    List Use :=
  (db.voucherRedemptions.select fun x => x.voucherId == voucherId && isActive x.state &&
    (!amendment || x.reservationId != reservationId)).map redemptionOf

end Limits

section Reserving

-- Digits behind the sign, filled with zeros to ten places.
def padded (n : ℤ) : String :=
  let digits := Nat.toDigits 10 n.natAbs
  if n < 0 then "-" ++ String.ofList (List.replicate (9 - digits.length) '0' ++ digits)
  else String.ofList (List.replicate (10 - digits.length) '0' ++ digits)

def sortKey (f : PromotionSnapshot) : String :=
  padded (1000000 - f.priority) ++ ":" ++ uuidText f.promotionId

def ordered (facts : List PromotionSnapshot) : List PromotionSnapshot :=
  facts.insertionSort fun f g => sortKey f ≤ sortKey g

-- The booking that a promotion is used by.
structure Claim where
  quote : BookingQuote
  reservation : Reservation
  guest : Option Guest
  amendment : Bool
  actorId : Option ℕ

namespace Claim

def guestId (c : Claim) : Option ℕ := c.guest.map Guest.id

def sessionHash (c : Claim) : Option String := c.quote.calculationSnapshot.promotionSessionHash

end Claim

def usedBy (db : Database) (promotionId quoteId : ℕ) : Bool :=
  (db.promotionUsages.first? fun u =>
    u.commercialPromotionId == promotionId && u.bookingQuoteId == quoteId).isSome

def redeemable (db : Database) (c : Claim) (p : CommercialPromotion) (discount : ℤ)
    (voucherId : ℕ) : Except Failure Voucher := do
  let v ← found (db.vouchers.find? voucherId) .modelNotFound
  refuse (v.isActive = false ∨ v.commercialPromotionId ≠ p.id ∨
    v.propertyId.any (fun i => i != c.reservation.propertyId) = true) genericVoucherError
  refuse (exhausted (voucherLimits v p) (activeRedemptions db v.id c.reservation.id c.amendment)
    discount c.guestId c.sessionHash = true) genericVoucherError
  .ok v

def voucherFor (db : Database) (c : Claim) (p : CommercialPromotion) (f : PromotionSnapshot) :
    Except Failure (Option Voucher) :=
  match f.voucherId with
  | none => .ok none
  | some i => some <$> redeemable db c p f.discountMinor i

def newUsage (c : Claim) (p : CommercialPromotion) (f : PromotionSnapshot) (v : Option Voucher)
    (i : ℕ) : CommercialPromotionUsage where
  id := i
  commercialPromotionId := p.id
  voucherId := v.map Voucher.id
  bookingQuoteId := c.quote.id
  reservationId := c.reservation.id
  guestId := c.guestId
  sessionKeyHash := c.sessionHash
  state := .reserved
  currency := c.quote.currency
  discountMinor := f.discountMinor

def newRedemption (c : Claim) (f : PromotionSnapshot) (v : Voucher) (i : ℕ) :
    VoucherRedemption where
  id := i
  voucherId := v.id
  bookingQuoteId := c.quote.id
  reservationId := c.reservation.id
  guestId := c.guestId
  sessionKeyHash := c.sessionHash
  state := .reserved
  currency := c.quote.currency
  discountMinor := f.discountMinor

theorem names_newUsage (c : Claim) (p : CommercialPromotion) (f : PromotionSnapshot)
    (v : Option Voucher) : Names (newUsage c p f v) := fun _ => rfl

theorem names_newRedemption (c : Claim) (f : PromotionSnapshot) (v : Voucher) :
    Names (newRedemption c f v) := fun _ => rfl

-- A quote is redeemed once; the database holds a unique key on it.
def redeem (c : Claim) (f : PromotionSnapshot) (v : Voucher) : PromotionTx VoucherRedemption := do
  let s ← get
  reject ((s.db.voucherRedemptions.first? fun x => x.bookingQuoteId == c.quote.id).isSome = true)
    (.runtime "voucher_redemptions_quote_unique")
  set { s with
    db := { s.db with
      voucherRedemptions := s.db.voucherRedemptions.insert (newRedemption c f v)
        (names_newRedemption _ _ _) } }
  event s.db.voucherRedemptions.next .reserved "Atomic booking hold"
    (.reserved c.quote.id f.discountMinor none) c.actorId
  pure (newRedemption c f v s.db.voucherRedemptions.next)

def reserveUse (c : Claim) (redemption : Option VoucherRedemption) (f : PromotionSnapshot) :
    PromotionTx (Option VoucherRedemption) := do
  let s ← get
  if f.discountMinor ≤ 0 ∨ usedBy s.db f.promotionId c.quote.id = true then pure redemption
  else do
    let p ← orFail (s.db.promotions.find? f.promotionId) .modelNotFound
    reject (exhausted (promotionLimits p) (activeUsages s.db p.id c.reservation.id c.amendment)
      f.discountMinor c.guestId c.sessionHash = true) genericVoucherError
    let v ← check fun s => voucherFor s.db c p f
    set { s with
      db := { s.db with
        promotionUsages := s.db.promotionUsages.insert (newUsage c p f v) (names_newUsage _ _ _ _) } }
    usageEvent s.db.promotionUsages.next .reserved
      (.reserved c.quote.id f.discountMinor (some f.promotionVersion)) c.actorId
    match v with
    | none => pure redemption
    | some v => some <$> redeem c f v

def reserveForCommit (c : Claim) : PromotionTx (Option VoucherRedemption) :=
  (ordered c.quote.calculationSnapshot.promotionVersions).foldlM (reserveUse c) none

end Reserving

section Settling

def confirmUsage (actorId : Option ℕ) (u : CommercialPromotionUsage) : PromotionTx Unit := do
  saveUsage u.id (usedAs .confirmed) (keeps_usedAs _)
  usageEvent u.id .confirmed .none actorId

def confirmRedemption (actorId : Option ℕ) (x : VoucherRedemption) : PromotionTx Unit := do
  saveRedemption x.id .confirmed
  event x.id .confirmed "Reservation confirmed" .none actorId

def confirm (reservationId : ℕ) (actorId : Option ℕ) : PromotionTx Unit := do
  let s ← get
  (s.db.promotionUsages.select fun u => u.reservationId == reservationId &&
    u.state == .reserved).forM (confirmUsage actorId)
  let s ← get
  (s.db.voucherRedemptions.select fun x => x.reservationId == reservationId &&
    (x.state == .reserved || x.state == .reinstated)).forM (confirmRedemption actorId)

def reinstates (db : Database) (promotionId : ℕ) : Bool :=
  (db.promotions.find? promotionId).any CommercialPromotion.reinstateOnCancel

def voucherReinstates (db : Database) (voucherId : ℕ) : Bool :=
  (db.vouchers.find? voucherId).any fun v => reinstates db v.commercialPromotionId

def releaseUsage (reason : String) (cancellation : Bool) (actorId : Option ℕ)
    (u : CommercialPromotionUsage) : PromotionTx Unit := do
  let s ← get
  if cancellation = false ∨ reinstates s.db u.commercialPromotionId = true then do
    saveUsage u.id (usedAs .released) (keeps_usedAs _)
    usageEvent u.id .released (.released (some reason) cancellation) actorId
  else pure ()

def releaseRedemption (reason : String) (cancellation : Bool) (actorId : Option ℕ)
    (x : VoucherRedemption) : PromotionTx Unit := do
  let s ← get
  if cancellation = false ∨ voucherReinstates s.db x.voucherId = true then do
    saveRedemption x.id .released
    event x.id .released reason (.released none cancellation) actorId
  else event x.id .retained reason (.released none cancellation) actorId

def heldUsages (db : Database) (reservationId : ℕ) : List CommercialPromotionUsage :=
  db.promotionUsages.select fun u => u.reservationId == reservationId && isActive u.state

def heldRedemptions (db : Database) (reservationId : ℕ) : List VoucherRedemption :=
  db.voucherRedemptions.select fun x => x.reservationId == reservationId && isActive x.state

def release (reservationId : ℕ) (reason : String) (cancellation : Bool) (actorId : Option ℕ) :
    PromotionTx Unit := do
  let s ← get
  (heldUsages s.db reservationId).forM (releaseUsage reason cancellation actorId)
  let s ← get
  (heldRedemptions s.db reservationId).forM (releaseRedemption reason cancellation actorId)

def replacement? (db : Database) (quoteId : ℕ) (u : CommercialPromotionUsage) :
    Option CommercialPromotionUsage :=
  db.promotionUsages.first? fun v =>
    v.bookingQuoteId == quoteId && v.commercialPromotionId == u.commercialPromotionId

def supersedeUsage (c : Claim) (u : CommercialPromotionUsage) : PromotionTx Unit := do
  let s ← get
  let replacement := replacement? s.db c.quote.id u
  saveUsage u.id (supersededBy replacement) (keeps_supersededBy _)
  usageEvent u.id .superseded (.replaced (replacement.map CommercialPromotionUsage.id)
    ((replacement.map CommercialPromotionUsage.discountMinor).getD 0 - u.discountMinor)) c.actorId

def supersedeRedemption (c : Claim) (x : VoucherRedemption) : PromotionTx Unit := do
  saveRedemption x.id .released
  event x.id .superseded "Reservation amendment" (.superseded c.quote.id) c.actorId

def replaceForAmendment (c : Claim) : PromotionTx Unit := do
  let s ← get
  let _ ← reserveForCommit { c with amendment := true }
  (heldUsages s.db c.reservation.id).forM (supersedeUsage c)
  (heldRedemptions s.db c.reservation.id).forM (supersedeRedemption c)
  if c.reservation.status = .confirmed then confirm c.reservation.id c.actorId else pure ()

def closed (r : Reservation) : Bool := r.status == .cancelled || r.status == .noShow

def refundUsage (r : Reservation) (refund : ReservationChange) (actorId : Option ℕ)
    (u : CommercialPromotionUsage) : PromotionTx Unit := do
  let s ← get
  let reinstated := closed r && reinstates s.db u.commercialPromotionId
  if reinstated = true ∧ isActive u.state = true then
    saveUsage u.id (usedAs .released) (keeps_usedAs _)
  else pure ()
  usageEvent u.id (if reinstated then .refundReinstated else .refundRetained)
    (.refund refund.id refund.amountMinor
      (some (if reinstated then "reinstate_on_cancel" else "retain"))) actorId

def refundRedemption (r : Reservation) (refund : ReservationChange) (actorId : Option ℕ)
    (x : VoucherRedemption) : PromotionTx Unit := do
  let s ← get
  let reinstated := closed r && voucherReinstates s.db x.voucherId
  if reinstated = true ∧ (isActive x.state || x.state == .reinstated) = true then
    saveRedemption x.id .released
  else pure ()
  event x.id (if reinstated then .refundReinstated else .refundRetained)
    (if reinstated then "Refund completed after eligible cancellation"
      else "Refund completed; promotion policy retains use")
    (.refund refund.id refund.amountMinor none) actorId

def recordRefundCompletion (r : Reservation) (refund : ReservationChange) (actorId : Option ℕ) :
    PromotionTx Unit := do
  let s ← get
  (s.db.promotionUsages.select fun u => u.reservationId == r.id).forM
    (refundUsage r refund actorId)
  let s ← get
  (s.db.voucherRedemptions.select fun x => x.reservationId == r.id).forM
    (refundRedemption r refund actorId)

end Settling

end CommercialPromotionService
