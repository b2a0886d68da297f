import LodgeOps.Ledger.LedgerRuns
import LodgeOps.Payments.CashDrawer

namespace DrawerConservation
open Schema Transaction FrontDeskPaymentGuard CashShift

section Operations
variable (assertSafe : RecordFrontDeskPayment.FrontDeskPaymentInput → Except Failure Unit)

inductive Operation
  | openShift (actor : Staff) (propertyId : ℕ) (currency : String) (openingFloatMinor : ℤ)
  | recordMovement (actor : Staff) (shiftId : ℕ) (type : CashMovementType) (amountMinor : ℤ)
      (reason : String) (reverses : Option ℕ)
  | recordPayment (actor : Staff) (input : RecordFrontDeskPayment.FrontDeskPaymentInput)
  | completeRefund (actor : Staff) (requestId : ℕ) (reference : String)
      (evidenceId shiftId : Option ℕ)
  | closeShift (actor : Staff) (shiftId : ℕ) (countedCashMinor : ℤ) (reason : Option String)
      (force : Bool)
  | approveVariance (actor : Staff) (shiftId : ℕ) (reason : String)
  | elsewhere (result : CashDesk)

def Operation.run : Operation → DeskTx Unit
  | openShift actor propertyId currency amount =>
    OpenCashShift.handle actor propertyId currency amount
  | recordMovement actor i type amount reason reverses =>
    RecordCashMovement.handle actor i type amount reason reverses
  | recordPayment actor input => RecordFrontDeskPayment.handle assertSafe actor input
  | completeRefund actor i reference evidenceId shiftId =>
    CompleteManualExternalRefund.handle actor i reference evidenceId shiftId
  | closeShift actor i counted reason force => CloseCashShift.handle actor i counted reason force
  | approveVariance actor i reason => ApproveCashVariance.handle actor i reason
  | elsewhere result => set result

-- The rest of the system keeps the books; it writes no shift and no movement.
def Operation.Honest (op : Operation) (s : CashDesk) : Prop :=
  match op with
  | elsewhere result => result.shifts = s.shifts ∧ result.movements = s.movements
  | _ => True

def refundAmount (s : CashDesk) (request : ReservationChange) : ℤ :=
  ((RequestRefund.completion? s.books request.id).getD request).amountMinor

def completionId (s : CashDesk) (request : ReservationChange) : ℕ :=
  ((RequestRefund.completion? s.books request.id).map ReservationChange.id).getD s.books.changes.next

def dispensed (s : CashDesk) (request : ReservationChange) : Bool :=
  (CompleteManualExternalRefund.dispensed? s (completionId s request)).isSome

-- The drawer holds what a correction or a cash refund takes out of it.
def Operation.Within (op : Operation) (s : CashDesk) : Prop :=
  match op with
  | recordMovement _ i .correction _ _ (some j) => ∀ m, s.movements.find? j = some m →
      m.amountMinor ≤ currentExpectedMinor s i
  | completeRefund _ i _ _ (some j) => ∀ request p, s.books.changes.find? i = some request →
      request.paymentId.bind s.books.payments.find? = some p → p.channel = .cash →
      dispensed s request = true ∨ refundAmount s request ≤ currentExpectedMinor s j
  | _ => True

def Operation.Careful (op : Operation) (s : CashDesk) : Prop := op.Honest s ∧ op.Within s

structure Opening (s : CashDesk) : Prop where
  shifts : s.shifts.rows = []
  movements : s.movements.rows = []

end Operations

section Sums
variable {s u : CashDesk} {m : CashShiftMovement} {i : ℕ} {movements movements' : Table CashShiftMovement}

theorem movementsOf_appends (h : Table.Appends movements movements' m) :
    movementsOf movements' i = movementsOf movements i ++ if m.cashShiftId = i then [m] else [] := by
  unfold movementsOf Table.select
  rw [h.rows, List.filter_append]
  split_ifs with hi
  · simp [hi]
  · simp [hi]

theorem expected_appends (h : Table.Appends s.movements u.movements m) :
    currentExpectedMinor u i = currentExpectedMinor s i +
      if m.cashShiftId = i then m.amountMinor else 0 := by
  unfold currentExpectedMinor
  rw [movementsOf_appends h]
  split_ifs with hi
  · simp
  · simp

theorem expected_same (h : u.movements = s.movements) :
    currentExpectedMinor u i = currentExpectedMinor s i := by
  unfold currentExpectedMinor
  rw [h]

end Sums

section Effects
variable {assertSafe : RecordFrontDeskPayment.FrontDeskPaymentInput → Except Failure Unit}
variable {s t u : CashDesk} {op : Operation} {actor : Staff} {r : Reservation} {i : ℕ}
variable {shift : CashShift} {p : Payment}

-- What one step does to the drawers.
inductive Effect (s u : CashDesk) (op : Operation) : Prop
  | opened (c : CashShift) (m : CashShiftMovement) (hc : Table.Appends s.shifts u.shifts c)
      (hopen : c.state = .opened) (hm : Table.Appends s.movements u.movements m)
      (hid : m.cashShiftId = c.id) (hpos : 0 ≤ m.amountMinor) (hw : op.Within s)
  | moved (c : CashShift) (m : CashShiftMovement) (hs : u.shifts = s.shifts)
      (hc : c ∈ s.shifts.rows) (hopen : c.state = .opened)
      (hm : Table.Appends s.movements u.movements m) (hid : m.cashShiftId = c.id)
      (hw : 0 ≤ currentExpectedMinor s c.id →
        (op.Within s ↔ 0 ≤ currentExpectedMinor s c.id + m.amountMinor))
  | settled (c : CashShift) (f : CashShift → CashShift) (hc : c ∈ s.shifts.rows)
      (hs : Table.Updates s.shifts u.shifts c.id f) (hstate : (f c).state ≠ .opened)
      (hf : c.state ≠ .opened → (f c).expectedCashMinor = c.expectedCashMinor)
      (hclose : c.state = .opened →
        (f c).expectedCashMinor = some (currentExpectedMinor s c.id))
      (hm : u.movements = s.movements) (hw : op.Within s)
  | kept (hs : u.shifts = s.shifts) (hm : u.movements = s.movements) (hw : op.Within s)

theorem commits_lockedShift {c : CashShift} : Commits (lockedShift i) s c u ↔
    s.shifts.find? i = some c ∧ s = u := by
  simp [lockedShift, and_comm]

theorem commits_assert {roles : List MembershipRole} {x : Unit}
    (h : Commits (assert actor i roles) s x u) : s = u := (commits_reject.mp h).2

theorem effect_openShift {currency : String} {amount : ℤ} {propertyId : ℕ}
    (h : Commits (OpenCashShift.handle actor propertyId currency amount) s () u) :
    Effect s u (.openShift actor propertyId currency amount) := by
  simp only [OpenCashShift.handle, operateCash, commits_bind, commits_get, commits_reject,
    commits_set] at h
  obtain ⟨_, _, hg, _, _, ⟨rfl, rfl⟩, _, _, ⟨_, rfl⟩, _, _, ⟨hok, rfl⟩, _, _, ⟨_, rfl⟩, rfl⟩ := h
  obtain rfl := commits_assert hg
  exact .opened _ _ Table.appends_insert rfl Table.appends_insert rfl
    (not_lt.mp (not_or.mp hok).2) trivial

theorem effect_recordMovement {type : CashMovementType} {amount : ℤ} {reason : String}
    {reverses : Option ℕ}
    (h : Commits (RecordCashMovement.handle actor i type amount reason reverses) s () u) :
    Effect s u (.recordMovement actor i type amount reason reverses) := by
  simp only [RecordCashMovement.handle, operateCash, commits_bind, commits_lockedShift,
    commits_get, commits_reject, commits_ite] at h
  obtain ⟨c, _, ⟨hc, rfl⟩, _, _, hg, _, _, ⟨hopen, rfl⟩, _, _, ⟨htype, rfl⟩, _, _, ⟨hpos, rfl⟩, _, _,
    ⟨rfl, rfl⟩, _, _, ⟨hle, rfl⟩, h⟩ := h
  obtain rfl := commits_assert hg
  obtain ⟨hmem, hid⟩ := Table.find?_eq_some.mp hc
  have hid : c.id = i := hid
  have hstate : c.state = .opened := not_not.mp (not_or.mp hopen).2
  have hamount : 0 < amount := not_le.mp (not_or.mp hpos).2
  rcases h with ⟨rfl, h⟩ | ⟨hn, h⟩
  · simp only [RecordCashMovement.opposed, RecordCashMovement.record, commits_bind, commits_get,
      commits_orFail, commits_reject, commits_pure, commits_set] at h
    obtain ⟨original, _, ⟨_, _, ⟨rfl, rfl⟩, o, _, ⟨ho, rfl⟩, _, _, ⟨hown, rfl⟩, _, _, ⟨_, rfl⟩, _, _,
      ⟨_, rfl⟩, rfl, rfl⟩, _, _, ⟨rfl, rfl⟩, rfl⟩ := h
    refine .moved c _ rfl hmem hstate Table.appends_insert rfl fun _ => ?_
    obtain ⟨j, rfl, ho⟩ := Option.bind_eq_some_iff.mp ho
    simp only [Operation.Within, RecordCashMovement.movement, hid]
    constructor
    · intro hw
      have hle := hw o ho
      omega
    · intro hw m hm
      obtain rfl : o = m := Option.some.inj (ho.symm.trans hm)
      omega
  · simp only [RecordCashMovement.record, commits_bind, commits_get, commits_set] at h
    obtain ⟨_, _, ⟨rfl, rfl⟩, rfl⟩ := h
    refine .moved c _ rfl hmem hstate Table.appends_insert rfl fun hnonneg => ?_
    have hw : Operation.Within (.recordMovement actor i type amount reason reverses) s := by
      cases type with
      | correction => exact absurd rfl hn
      | _ => trivial
    refine iff_of_true hw ?_
    simp only [RecordCashMovement.movement]
    split_ifs with ho
    · have hexp := not_and.mp hle ho
      omega
    · omega

theorem commits_createDetail {mk : ℕ → PaymentTenderDetail} {hk : Names mk}
    (h : Commits (RecordFrontDeskPayment.createDetail mk hk) s () u) :
    u.shifts = s.shifts ∧ u.movements = s.movements := by
  simp only [RecordFrontDeskPayment.createDetail, commits_bind, commits_get, commits_set] at h
  obtain ⟨_, _, ⟨rfl, rfl⟩, rfl⟩ := h
  exact ⟨rfl, rfl⟩

theorem commits_post {input : RecordFrontDeskPayment.FrontDeskPaymentInput}
    (h : Commits (RecordFrontDeskPayment.post actor r input) s () u) :
    u.shifts = s.shifts ∧ u.movements = s.movements := by
  simp only [RecordFrontDeskPayment.post, onBooks, commits_bind, commits_get, commits_zoom] at h
  obtain ⟨_, _, ⟨rfl, rfl⟩, _, _, ⟨_, _, rfl⟩, h⟩ := h
  obtain ⟨hs, hm⟩ := commits_createDetail h
  exact ⟨hs, hm⟩

theorem commits_postTerminal {input : RecordFrontDeskPayment.FrontDeskPaymentInput}
    (h : Commits (RecordFrontDeskPayment.postTerminal actor r input) s () u) :
    u.shifts = s.shifts ∧ u.movements = s.movements := by
  simp only [RecordFrontDeskPayment.postTerminal, commits_bind, commits_get, commits_ite] at h
  obtain ⟨_, _, ⟨rfl, rfl⟩, ⟨_, h⟩ | ⟨_, h⟩⟩ := h
  · exact commits_createDetail h
  · split at h
    · exact commits_createDetail h
    · exact commits_post h

theorem effect_postCash {input : RecordFrontDeskPayment.FrontDeskPaymentInput}
    (hpos : 0 < input.amountMinor)
    (h : Commits (RecordFrontDeskPayment.postCash actor r input) s () u) :
    Effect s u (.recordPayment actor input) := by
  simp only [RecordFrontDeskPayment.postCash, RecordFrontDeskPayment.openShift,
    RecordFrontDeskPayment.takeIntoDrawer, onBooks, commits_bind, commits_get, commits_orFail,
    commits_zoom, commits_set] at h
  obtain ⟨_, _, ⟨rfl, rfl⟩, c, _, ⟨_, _, ⟨rfl, rfl⟩, hc, rfl⟩, p, _, ⟨db, hp, rfl⟩, _, v, hdetail,
    _, _, ⟨rfl, rfl⟩, rfl⟩ := h
  obtain ⟨hmem, hopen⟩ := Table.first?_some hc
  obtain ⟨_, _, _, _, hpay, _⟩ := PaymentService.commits_recordFrontDesk hp
  obtain ⟨hshifts, hmoves⟩ := commits_createDetail hdetail
  simp only [OpenCashShift.isOpenFor, Bool.and_eq_true, beq_iff_eq] at hopen
  have hmoves : v.movements = s.movements := hmoves
  have happ : Table.Appends s.movements (v.movements.insert
      (RecordFrontDeskPayment.movement c actor p v.books.clock))
      (RecordFrontDeskPayment.movement c actor p v.books.clock s.movements.next) := by
    rw [hmoves]
    exact Table.appends_insert
  refine .moved c _ hshifts hmem hopen.2 happ rfl fun hnonneg => iff_of_true trivial ?_
  have hamount : p.amountMinor = input.amountMinor := by rw [hpay]; rfl
  show 0 ≤ _ + p.amountMinor
  omega

theorem effect_recordPayment {input : RecordFrontDeskPayment.FrontDeskPaymentInput}
    (h : Commits (RecordFrontDeskPayment.handle assertSafe actor input) s () u) :
    Effect s u (.recordPayment actor input) := by
  simp only [RecordFrontDeskPayment.handle, onBooks, recordTender, commits_bind, commits_zoom,
    commits_lockedReservation, commits_reject, commits_check, commits_get] at h
  obtain ⟨r, _, ⟨_, ⟨_, rfl⟩, rfl⟩, _, _, hg, _, _, ⟨hpos, rfl⟩, _, _, ⟨_, rfl⟩, _, _, ⟨rfl, rfl⟩, _,
    _, ⟨_, rfl⟩, h⟩ := h
  obtain rfl := commits_assert hg
  have hpos : 0 < input.amountMinor := not_le.mp hpos
  split at h
  · obtain ⟨hs, hm⟩ := commits_postTerminal h
    exact .kept hs hm trivial
  · exact effect_postCash hpos h
  · obtain ⟨hs, hm⟩ := commits_post h
    exact .kept hs hm trivial

theorem commits_linkEvidence {completed : ReservationChange} {evidenceId : Option ℕ}
    (h : Commits (CompleteManualExternalRefund.linkEvidence p completed evidenceId) s () u) :
    u.shifts = s.shifts ∧ u.movements = s.movements := by
  unfold CompleteManualExternalRefund.linkEvidence at h
  split at h
  · obtain ⟨_, rfl⟩ := commits_pure.mp h
    exact ⟨rfl, rfl⟩
  · obtain rfl := commits_modify.mp h
    exact ⟨rfl, rfl⟩

-- The amount a refund hands out is known before it is completed.
theorem completed_amount {db : Database} {reference : String} {actorId : Option ℕ}
    {c request : ReservationChange} (hr : s.books.changes.find? i = some request)
    (h : Commits (CompleteRefund.handle i reference actorId) s.books c db) :
    c.amountMinor = refundAmount s request ∧ c.id = completionId s request := by
  unfold refundAmount completionId
  obtain ⟨g, hg, _, ⟨hsome, _⟩ | ⟨hnone, hdone⟩⟩ := CompleteRefund.commits_handle h
  · obtain rfl : g.request = request := Option.some.inj (hg.request.symm.trans hr)
    rw [hsome]
    exact ⟨rfl, rfl⟩
  · obtain rfl : g.request = request := Option.some.inj (hg.request.symm.trans hr)
    obtain ⟨reference, hc⟩ := hdone.change
    have hid : c.id = s.books.changes.next := hdone.appended.id
    rw [hnone]
    exact ⟨by rw [hc]; rfl, hid⟩

theorem effect_completeRefund {reference : String} {evidenceId shiftId : Option ℕ}
    (h : Commits (CompleteManualExternalRefund.handle actor i reference evidenceId shiftId) s () u) :
    Effect s u (.completeRefund actor i reference evidenceId shiftId) := by
  simp only [CompleteManualExternalRefund.handle, onBooks, resolveException, commits_bind,
    commits_zoom, CompleteRefund.commits_lockRequestGraph, commits_reject, commits_ite] at h
  obtain ⟨g, _, ⟨_, ⟨hg, rfl⟩, rfl⟩, _, _, hguard, _, _, ⟨_, rfl⟩, _, _, ⟨_, rfl⟩, h⟩ := h
  obtain rfl := commits_assert hguard
  rw [withBooks_self] at h
  have hpay : g.request.paymentId.bind s.books.payments.find? = some g.payment :=
    Option.bind_eq_some_iff.mpr hg.payment
  rcases h with ⟨hcash, h⟩ | ⟨hother, h⟩
  · simp only [CompleteManualExternalRefund.dispensingShift,
      CompleteManualExternalRefund.dispense, commits_bind, commits_orFail, commits_lockedShift,
      commits_reject, commits_get, commits_ite, commits_pure, commits_set] at h
    obtain ⟨_, _, ⟨j, _, ⟨rfl, rfl⟩, c, _, ⟨hc, rfl⟩, _, _, ⟨hok, rfl⟩, rfl, rfl⟩, x, _,
      ⟨db, hdone, rfl⟩, _, v, ⟨_, _, ⟨rfl, rfl⟩, hdispense⟩, hlink⟩ := h
    obtain ⟨hmem, hid⟩ := Table.find?_eq_some.mp hc
    have hid : c.id = j := hid
    simp only [not_or, not_not] at hok
    obtain ⟨hamount, hcompletion⟩ := completed_amount hg.request hdone
    obtain ⟨hs, hm⟩ := commits_linkEvidence hlink
    rcases hdispense with ⟨hsome, _, rfl⟩ | ⟨hnone, rfl⟩
    · refine .kept hs hm fun request p hr _ _ => Or.inl ?_
      obtain rfl : g.request = request := Option.some.inj (hg.request.symm.trans hr)
      have hmark : (CompleteManualExternalRefund.dispensed? s x.id).isSome = true := hsome
      unfold dispensed
      rwa [← hcompletion]
    · have happ : Table.Appends s.movements u.movements (CompleteManualExternalRefund.movement c
          actor x (trim reference) db.clock s.movements.next) := by
        rw [hm]
        exact Table.appends_insert
      refine .moved c _ hs hmem hok.2.2.1 happ rfl fun _ => ?_
      have hmark : ¬ (CompleteManualExternalRefund.dispensed? s x.id).isSome = true := hnone
      have hfresh : dispensed s g.request = false := by
        unfold dispensed
        rw [← hcompletion]
        exact Bool.eq_false_of_not_eq_true hmark
      show _ ↔ 0 ≤ currentExpectedMinor s c.id + -x.amountMinor
      constructor
      · intro hw
        rcases hw g.request g.payment hg.request hpay hcash with hd | hle
        · rw [hfresh] at hd
          cases hd
        · rw [hid]
          omega
      · intro hle request p hr _ _
        obtain rfl : g.request = request := Option.some.inj (hg.request.symm.trans hr)
        rw [hid] at hle
        exact Or.inr (by omega)
  · have hw : Operation.Within (.completeRefund actor i reference evidenceId shiftId) s := by
      cases shiftId with
      | none => trivial
      | some j =>
        intro request p hr hp hcash
        obtain rfl : g.request = request := Option.some.inj (hg.request.symm.trans hr)
        obtain rfl : g.payment = p := Option.some.inj (hpay.symm.trans hp)
        exact absurd hcash hother
    simp only [CompleteManualExternalRefund.checkEvidence, commits_bind, commits_get,
      commits_reject] at h
    obtain ⟨_, _, ⟨_, _, ⟨rfl, rfl⟩, _, _, ⟨_, rfl⟩, ⟨_, rfl⟩⟩, x, _, ⟨db, _, rfl⟩, hlink⟩ := h
    obtain ⟨hs, hm⟩ := commits_linkEvidence hlink
    exact .kept hs hm hw

theorem effect_closeShift {counted : ℤ} {reason : Option String} {force : Bool}
    (h : Commits (CloseCashShift.handle actor i counted reason force) s () u) :
    Effect s u (.closeShift actor i counted reason force) := by
  simp only [CloseCashShift.handle, operateCash, commits_bind, commits_lockedShift,
    commits_ite, commits_pure] at h
  obtain ⟨c, _, ⟨hc, rfl⟩, _, _, hg, ⟨_, _, rfl⟩ | ⟨hopen, h⟩⟩ := h
  · obtain rfl := commits_assert hg
    exact .kept rfl rfl trivial
  · obtain rfl := commits_assert hg
    simp only [CloseCashShift.close, commits_bind, commits_reject, commits_get, commits_set] at h
    obtain ⟨_, _, ⟨_, rfl⟩, _, _, ⟨rfl, rfl⟩, _, _, ⟨_, rfl⟩, _, _, ⟨_, rfl⟩, _, _, ⟨_, rfl⟩, rfl⟩ := h
    obtain ⟨hmem, _⟩ := Table.find?_eq_some.mp hc
    have hopen : c.state = .opened := not_not.mp hopen
    refine .settled c (CloseCashShift.closed s actor counted (trim (reason.getD ""))) hmem
      (Table.updates_update CloseCashShift.keeps_closed) ?_ (fun hn => absurd hopen hn)
      (fun _ => rfl) rfl trivial
    simp only [CloseCashShift.closed]
    split_ifs with hv
    · decide
    · decide

theorem effect_approveVariance {reason : String}
    (h : Commits (ApproveCashVariance.handle actor i reason) s () u) :
    Effect s u (.approveVariance actor i reason) := by
  simp only [ApproveCashVariance.handle, resolveException, commits_bind, commits_lockedShift,
    commits_ite, commits_pure, commits_reject, commits_modify] at h
  obtain ⟨c, _, ⟨hc, rfl⟩, _, _, hg, ⟨_, _, rfl⟩ | ⟨_, _, _, ⟨hok, rfl⟩, rfl⟩⟩ := h
  · obtain rfl := commits_assert hg
    exact .kept rfl rfl trivial
  · obtain rfl := commits_assert hg
    obtain ⟨hmem, _⟩ := Table.find?_eq_some.mp hc
    have hreview : c.state = .varianceReview := not_not.mp (not_or.mp hok).1
    refine .settled c (ApproveCashVariance.approved actor (trim reason) s.books.clock) hmem
      (Table.updates_update ApproveCashVariance.keeps_approved) ?_ (fun _ => rfl) ?_ rfl trivial
    · simp [ApproveCashVariance.approved]
    · intro hopen
      rw [hreview] at hopen
      cases hopen

theorem effect_run (ha : op.Honest s) (h : Commits (op.run assertSafe) s () u) :
    Effect s u op := by
  cases op with
  | openShift => exact effect_openShift h
  | recordMovement => exact effect_recordMovement h
  | recordPayment => exact effect_recordPayment h
  | completeRefund => exact effect_completeRefund h
  | closeShift => exact effect_closeShift h
  | approveVariance => exact effect_approveVariance h
  | elsewhere result =>
    obtain rfl := commits_set.mp h
    exact .kept ha.1 ha.2 trivial

end Effects

section Invariant
variable {s u : CashDesk} {op : Operation} {i : ℕ} {c : CashShift}

def Funded (s : CashDesk) : Prop := ∀ i, 0 ≤ currentExpectedMinor s i

structure Frozen (s : CashDesk) : Prop where
  known : ∀ m ∈ s.movements.rows, m.cashShiftId < s.shifts.next
  sealed : ∀ c ∈ s.shifts.rows, c.state ≠ .opened →
    c.expectedCashMinor = some (currentExpectedMinor s c.id)

theorem expected_unknown (h : ∀ m ∈ s.movements.rows, m.cashShiftId ≠ i) :
    currentExpectedMinor s i = 0 := by
  have hnone : movementsOf s.movements i = [] :=
    List.filter_eq_nil_iff.mpr fun m hm => by simpa using h m hm
  simp [currentExpectedMinor, hnone]

theorem funded_of_opening (h : Opening s) : Funded s := by
  intro i
  rw [expected_unknown fun m hm => by simp [h.movements] at hm]

theorem frozen_of_opening (h : Opening s) : Frozen s where
  known m hm := by
    rw [h.movements] at hm
    cases hm
  sealed c hc := by
    rw [h.shifts] at hc
    cases hc

-- A step keeps the drawers above zero exactly when they hold what it takes out.
theorem funded_effect (hf : Funded s) (h : Effect s u op) : Funded u ↔ op.Within s := by
  cases h with
  | opened c m hc hopen hm hid hpos hw =>
    refine iff_of_true (fun i => ?_) hw
    rw [expected_appends hm]
    have hle := hf i
    split_ifs with hi
    · omega
    · omega
  | moved c m hs hc hopen hm hid hw =>
    rw [hw (hf c.id)]
    constructor
    · intro hu
      have hle := hu c.id
      rwa [expected_appends hm, if_pos hid] at hle
    · intro hle i
      rw [expected_appends hm]
      split_ifs with hi
      · rw [← hi, hid]
        exact hle
      · rw [add_zero]
        exact hf i
  | settled c f hc hs hstate hf' hclose hm hw =>
    exact iff_of_true (fun i => expected_same hm ▸ hf i) hw
  | kept hs hm hw => exact iff_of_true (fun i => expected_same hm ▸ hf i) hw

theorem frozen_effect (hz : Frozen s) (h : Effect s u op) : Frozen u := by
  cases h with
  | opened c m hc hopen hm hid hpos hw =>
    have hfresh : c.id = s.shifts.next := hc.id
    have hnext : u.shifts.next = s.shifts.next + 1 := hc.next
    refine ⟨fun x hx => ?_, fun d hd hst => ?_⟩
    · rcases hm.mem.mp hx with hx | rfl
      · have hlt := hz.known x hx
        omega
      · omega
    · rcases hc.mem.mp hd with hd | rfl
      · have hlt : d.id < s.shifts.next := Table.id_lt_next hd
        have hne : m.cashShiftId ≠ d.id := by omega
        rw [expected_appends hm, if_neg hne, add_zero]
        exact hz.sealed d hd hst
      · exact absurd hopen hst
  | moved c m hs hc hopen hm hid hw =>
    refine ⟨fun x hx => ?_, fun d hd hst => ?_⟩
    · rw [hs]
      rcases hm.mem.mp hx with hx | rfl
      · exact hz.known x hx
      · exact hid ▸ Table.id_lt_next hc
    · rw [hs] at hd
      have hne : m.cashShiftId ≠ d.id := by
        intro he
        obtain rfl : c = d := Table.eq_of_id hc hd (hid.symm.trans he)
        exact hst hopen
      rw [expected_appends hm, if_neg hne, add_zero]
      exact hz.sealed d hd hst
  | settled c f hc hs hstate hf hclose hm hw =>
    refine ⟨fun x hx => ?_, fun d hd hst => ?_⟩
    · rw [hm] at hx
      exact hs.next ▸ hz.known x hx
    · rw [expected_same hm]
      rcases hs.mem_cases hc rfl hd with ⟨hd, _⟩ | rfl
      · exact hz.sealed d hd hst
      · have hid : (f c).id = c.id := hs.keeps c
        rw [hid]
        by_cases hopen : c.state = .opened
        · exact hclose hopen
        · rw [hf hopen]
          exact hz.sealed c hc hopen
  | kept hs hm hw =>
    refine ⟨fun x hx => ?_, fun d hd hst => ?_⟩
    · rw [hm] at hx
      exact hs ▸ hz.known x hx
    · rw [hs] at hd
      rw [expected_same hm]
      exact hz.sealed d hd hst

-- The drawer of a closed shift, as it was when it closed.
structure Shut (i : ℕ) (movements : List CashShiftMovement) (s : CashDesk) : Prop where
  state : ∃ c, s.shifts.find? i = some c ∧ c.state ≠ .opened
  still : movementsOf s.movements i = movements

theorem shut_effect {movements : List CashShiftMovement} (hz : Shut i movements s)
    (h : Effect s u op) : Shut i movements u := by
  obtain ⟨⟨c, hc, hst⟩, hstill⟩ := hz
  obtain ⟨hmem, hid⟩ := Table.find?_eq_some.mp hc
  cases h with
  | opened d m hd hopen hm hown hpos hw =>
    have hlt : c.id < d.id := hd.lt_next hmem
    have hne : m.cashShiftId ≠ i := by
      have hid : c.id = i := hid
      omega
    refine ⟨⟨c, hd.find?_old hc, hst⟩, ?_⟩
    rw [movementsOf_appends hm, if_neg hne, List.append_nil, hstill]
  | moved d m hs hd hopen hm hown hw =>
    have hne : m.cashShiftId ≠ i := by
      intro he
      have hdc : d.id = c.id := (hown.symm.trans he).trans hid.symm
      obtain rfl : d = c := Table.eq_of_id hd hmem hdc
      exact hst hopen
    refine ⟨⟨c, hs ▸ hc, hst⟩, ?_⟩
    rw [movementsOf_appends hm, if_neg hne, List.append_nil, hstill]
  | settled d f hd hs hstate hf hclose hm hw =>
    refine ⟨?_, hm ▸ hstill⟩
    by_cases hdc : c.id = d.id
    · obtain rfl : c = d := Table.eq_of_id hmem hd hdc
      have hid : c.id = i := hid
      exact ⟨f c, hid ▸ hs.find?_self (hid ▸ hc), hstate⟩
    · exact ⟨c, Table.find?_eq_some.mpr ⟨hs.mem_ne hmem hdc, hid⟩, hst⟩
  | kept hs hm hw => exact ⟨⟨c, hs ▸ hc, hst⟩, hm ▸ hstill⟩

end Invariant

section Runs
variable {assertSafe : RecordFrontDeskPayment.FrontDeskPaymentInput → Except Failure Unit}
variable {s t u : CashDesk} {op : Operation} {i : ℕ} {c : CashShift}

theorem frozen_run (hs : Opening s)
    (h : Reaches (Operation.run assertSafe) Operation.Honest s t) : Frozen t :=
  h.invariant (frozen_of_opening hs) fun _ _ _ hz ha hc => frozen_effect hz (effect_run ha hc)

theorem shut_run (h : Reaches (Operation.run assertSafe) Operation.Honest t u)
    (hc : t.shifts.find? i = some c) (hst : c.state ≠ .opened) :
    Shut i (movementsOf t.movements i) u :=
  h.invariant ⟨⟨c, hc, hst⟩, rfl⟩ fun _ _ _ hz ha hc => shut_effect hz (effect_run ha hc)

theorem funded_run (hs : Opening s)
    (h : Reaches (Operation.run assertSafe) Operation.Careful s t) : Funded t :=
  h.invariant (funded_of_opening hs) fun _ _ _ hf ha hc =>
    (funded_effect hf (effect_run ha.1 hc)).mpr ha.2

theorem careful_drawers_are_conserved (hs : Opening s)
    (h : Reaches (Operation.run assertSafe) Operation.Careful s t) :
    (∀ i, 0 ≤ currentExpectedMinor t i) ∧
    (∀ c ∈ t.shifts.rows, c.state ≠ .opened →
      c.expectedCashMinor = some (currentExpectedMinor t c.id) ∧
      ∀ u, Reaches (Operation.run assertSafe) Operation.Honest t u →
        movementsOf u.movements c.id = movementsOf t.movements c.id) ∧
    ∀ (op : Operation) u, op.Honest t → Commits (op.run assertSafe) t () u →
      ((∀ i, 0 ≤ currentExpectedMinor u i) ↔ op.Within t) := by
  have hhonest : Reaches (Operation.run assertSafe) Operation.Honest s t :=
    h.mono fun _ _ ha => ha.1
  have hfunded := funded_run hs h
  refine ⟨hfunded, fun c hc hst => ⟨(frozen_run hs hhonest).sealed c hc hst, fun u hu => ?_⟩, ?_⟩
  · exact (shut_run hu (Table.find?_eq_some.mpr ⟨hc, rfl⟩) hst).still
  · intro op u ha hcom
    exact funded_effect hfunded (effect_run ha hcom)

end Runs

section Scenario

def administrator : Staff where
  id := 1
  membership := some { userId := 1, role := .administrator, isActive := true }

def lodge (i : ℕ) : Property := { id := i, isActive := true }

theorem names_lodge : Names lodge := fun _ => rfl

def desk : CashDesk where
  books :=
    { LedgerRuns.opening with properties := Table.empty.insert lodge names_lodge }

def unscanned (_ : RecordFrontDeskPayment.FrontDeskPaymentInput) : Except Failure Unit := .ok ()

def plainly : Operation → Bool
  | .elsewhere _ => false
  | .completeRefund _ _ _ _ _ => false
  | _ => true

def carefully (op : Operation) (s : CashDesk) : Bool :=
  match op with
  | .recordMovement _ i .correction _ _ (some j) => (s.movements.find? j).all fun m =>
      decide (m.amountMinor ≤ currentExpectedMinor s i)
  | _ => plainly op

theorem honest_of_plainly {op : Operation} {s : CashDesk} (h : plainly op = true) :
    op.Honest s := by
  cases op with
  | elsewhere => cases h
  | _ => trivial

theorem careful_of_carefully {op : Operation} {s : CashDesk} (h : carefully op s = true) :
    op.Careful s := by
  cases op with
  | recordMovement actor i type amount reason reverses =>
    refine ⟨trivial, ?_⟩
    cases type with
    | correction =>
      cases reverses with
      | none => trivial
      | some j =>
        intro m hm
        simpa [carefully, hm] using h
    | _ => trivial
  | elsewhere => cases h
  | completeRefund => cases h
  | _ => exact ⟨trivial, trivial⟩

theorem opening_desk : Opening desk := ⟨rfl, rfl⟩

def drawerOpened : List Operation :=
  [.openShift administrator 0 "USD" 0, .recordMovement administrator 0 .payIn 100 "change" none]

def cashStay : RecordFrontDeskPayment.FrontDeskPaymentInput where
  reservationId := 0
  channel := .cash
  amountMinor := 5000

-- A pay-in taken back while the drawer still holds it, a cash payment, and a clean close.
theorem closed_drawer_is_conserved : ∃ t c,
    Reaches (Operation.run unscanned) Operation.Careful desk t ∧ t.shifts.find? 0 = some c ∧
      c.state = .closed ∧ c.expectedCashMinor = some 4950 ∧ currentExpectedMinor t 0 = 4950 ∧
        ∀ u, Reaches (Operation.run unscanned) Operation.Honest t u →
          movementsOf u.movements 0 = movementsOf t.movements 0 := by
  obtain ⟨t, ht, hp⟩ : ∃ t, Reaches (Operation.run unscanned) Operation.Careful desk t ∧
      ((t.shifts.find? 0).any fun c => decide (c.state = .closed) &&
        decide (c.expectedCashMinor = some 4950)) = true :=
    Reaches.exists_of_execute (fun _ _ => careful_of_carefully)
      (drawerOpened ++ [.recordMovement administrator 0 .correction 100 "miscounted" (some 1),
        .recordPayment administrator cashStay, .recordMovement administrator 0 .payOut 50 "ice" none,
        .closeShift administrator 0 4950 none false]) (by decide)
  obtain ⟨c, hc, hp⟩ := (Option.any_eq_true _ _).mp hp
  simp only [Bool.and_eq_true, decide_eq_true_eq] at hp
  obtain ⟨hstate, hexpected⟩ := hp
  obtain ⟨hmem, hid⟩ := Table.find?_eq_some.mp hc
  have hid : c.id = 0 := hid
  obtain ⟨_, hsealed, _⟩ := careful_drawers_are_conserved opening_desk ht
  have hopen : c.state ≠ .opened := by rw [hstate]; decide
  obtain ⟨hsum, hstill⟩ := hsealed c hmem hopen
  rw [hid] at hsum hstill
  exact ⟨t, c, ht, hc, hstate, hexpected, Option.some.inj (hsum.symm.trans hexpected), hstill⟩

-- The pay-out was checked against the drawer; the correction of the pay-in behind it is not.
theorem corrected_pay_in_overdraws : Opening desk ∧
    ∃ t, Reaches (Operation.run unscanned) Operation.Honest desk t ∧
      currentExpectedMinor t 0 = -100 := by
  refine ⟨opening_desk, ?_⟩
  obtain ⟨t, ht, hp⟩ : ∃ t, Reaches (Operation.run unscanned) Operation.Honest desk t ∧
      decide (currentExpectedMinor t 0 = -100) = true :=
    Reaches.exists_of_execute (fun op s => @honest_of_plainly op s)
      (drawerOpened ++ [.recordMovement administrator 0 .payOut 100 "supplies" none,
        .recordMovement administrator 0 .correction 100 "miscounted" (some 1)])
      (by decide)
  exact ⟨t, ht, of_decide_eq_true hp⟩

end Scenario
end DrawerConservation
