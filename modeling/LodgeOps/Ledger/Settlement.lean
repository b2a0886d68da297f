import LodgeOps.Ledger.Disputes

namespace Settlement
open Schema Transaction RequestRefund RecordProviderDispute

section Figures

structure Book where
  lines : Table FolioLine
  payments : Table Payment
  changes : Table ReservationChange

def book (db : Database) : Book := ⟨db.folioLines, db.payments, db.changes⟩

def undoesChargeback (lines : Table FolioLine) (l : FolioLine) : Bool :=
  (l.reversesFolioLineId.bind lines.find?).any isChargeback

def settles (lines : Table FolioLine) (l : FolioLine) : Bool :=
  l.paymentId.isSome && !isChargeback l && !undoesChargeback lines l

def settled (b : Book) (reservationId : ℕ) : ℤ :=
  b.lines.total fun l =>
    if l.reservationId = reservationId ∧ settles b.lines l = true then l.grossAmountMinor else 0

def kept (p : Payment) : Bool := p.status == .succeeded || p.status == .refunded

def received (b : Book) (reservationId : ℕ) : ℤ :=
  b.payments.total fun p =>
    if p.reservationId = reservationId ∧ kept p = true then p.amountMinor else 0

def returned (b : Book) (reservationId : ℕ) : ℤ :=
  b.changes.total fun c =>
    if c.reservationId = reservationId ∧ isCompletion c = true then c.amountMinor else 0

def Balanced (b : Book) (reservationId : ℕ) : Prop :=
  settled b reservationId = -received b reservationId + returned b reservationId

end Figures

section Invariant

structure PaymentLineOf (l : FolioLine) (p : Payment) : Prop where
  owner : l.paymentId = some p.id
  home : l.reservationId = p.reservationId
  net : l.netAmountMinor = -p.amountMinor
  tax : l.taxAmountMinor = 0
  plain : isChargeback l = false
  original : l.reversesFolioLineId = none

def Unreversed (b : Book) (i : ℕ) : Prop := ∀ m ∈ b.lines.rows, m.reversesFolioLineId ≠ some i

-- A payment line stands for its payment as long as that payment has not been reversed.
structure Wired (b : Book) : Prop where
  reverses : Folio.Traced b.lines
  owners : ∀ l ∈ b.lines.rows, ∀ i, l.paymentId = some i → i < b.payments.next
  refunds : ∀ l ∈ b.lines.rows, l.type = .refund → ∀ i, l.metadata.refundChangeId = some i →
    i < b.changes.next
  pledged : ∀ p ∈ b.payments.rows, p.status = .pending → ∀ l ∈ b.lines.rows,
    l.type = .payment → l.paymentId ≠ some p.id
  posted : ∀ l ∈ b.lines.rows, l.type = .payment → ∃ p ∈ b.payments.rows,
    PaymentLineOf l p ∧ (p.status ≠ .reversed → Unreversed b l.id)

structure Sound (b : Book) : Prop extends Wired b where
  balanced : ∀ r, Balanced b r

structure Opening (b : Book) : Prop where
  payments : b.payments.rows = []
  lines : ∀ l ∈ b.lines.rows, l.paymentId = none ∧ l.reversesFolioLineId = none ∧
    l.type ≠ .payment ∧ l.metadata.refundChangeId = none
  changes : ∀ c ∈ b.changes.rows, isCompletion c = false

end Invariant

variable {b b' : Book} {l x : FolioLine} {p q : Payment} {reservationId : ℕ}

theorem sound_of_opening (h : Opening b) : Sound b where
  reverses l hl i hi := by simp [(h.lines l hl).2.1] at hi
  owners l hl i hi := by simp [(h.lines l hl).1] at hi
  refunds l hl _ i hi := by simp [(h.lines l hl).2.2.2] at hi
  pledged p hp := by simp [h.payments] at hp
  posted l hl ht := absurd ht (h.lines l hl).2.2.1
  balanced r := by
    have hl : settled b r = 0 := Table.total_eq_zero fun l hl => by
      simp [settles, (h.lines l hl).1]
    have hp : received b r = 0 := Table.total_eq_zero fun p hp => by simp [h.payments] at hp
    have hc : returned b r = 0 := Table.total_eq_zero fun c hc => by simp [h.changes c hc]
    simp [Balanced, hl, hp, hc]

section Lines

theorem settles_append (hw : Wired b) (hx : Table.Appends b.lines b'.lines x)
    (hl : l ∈ b.lines.rows) : settles b'.lines l = settles b.lines l := by
  unfold settles undoesChargeback
  cases hr : l.reversesFolioLineId with
  | none => rfl
  | some i =>
    obtain ⟨m, hm⟩ := hw.reverses l hl i hr
    simp [hm, hx.find?_old hm]

theorem settled_append (hw : Wired b) (hx : Table.Appends b.lines b'.lines x) :
    settled b' reservationId = settled b reservationId +
      if x.reservationId = reservationId ∧ settles b'.lines x = true
      then x.grossAmountMinor else 0 := by
  unfold settled
  rw [hx.total]
  congr 1
  exact Table.total_congr fun l hl => by rw [settles_append hw hx hl]

structure Carries (b : Book) (x : FolioLine) (p q : Payment) : Prop where
  id : q.id = p.id
  home : q.reservationId = p.reservationId
  amount : q.amountMinor = p.amountMinor
  standing : q.status ≠ .reversed → p.status ≠ .reversed ∧ ∀ l ∈ b.lines.rows,
    l.type = .payment → l.paymentId = some p.id → x.reversesFolioLineId ≠ some l.id

-- What a new line and the tables it is saved with have to be for the book to stay wired.
structure Admissible (b b' : Book) (x : FolioLine) : Prop where
  line : Table.Appends b.lines b'.lines x
  payments : b.payments.next ≤ b'.payments.next
  changes : b.changes.next ≤ b'.changes.next
  reverses : ∀ i, x.reversesFolioLineId = some i → ∃ m, b.lines.find? i = some m
  owner : ∀ i, x.paymentId = some i → i < b'.payments.next
  refund : x.type = .refund → ∀ i, x.metadata.refundChangeId = some i → i < b'.changes.next
  pledged : ∀ p ∈ b'.payments.rows, p.status = .pending →
    p ∈ b.payments.rows ∧ (x.type = .payment → x.paymentId ≠ some p.id)
  carried : ∀ p ∈ b.payments.rows, ∃ q ∈ b'.payments.rows, Carries b x p q
  posted : x.type = .payment → ∃ p ∈ b'.payments.rows, PaymentLineOf x p

theorem wired_append (hw : Wired b) (ha : Admissible b b' x) : Wired b' where
  reverses := Folio.traced_append hw.reverses ha.line ha.reverses
  owners l hl i hi := by
    rcases ha.line.mem.mp hl with hl | rfl
    · exact lt_of_lt_of_le (hw.owners l hl i hi) ha.payments
    · exact ha.owner i hi
  refunds l hl ht i hi := by
    rcases ha.line.mem.mp hl with hl | rfl
    · exact lt_of_lt_of_le (hw.refunds l hl ht i hi) ha.changes
    · exact ha.refund ht i hi
  pledged p hp hpend l hl ht := by
    obtain ⟨hold, hnew⟩ := ha.pledged p hp hpend
    rcases ha.line.mem.mp hl with hl | rfl
    · exact hw.pledged p hold hpend l hl ht
    · exact hnew ht
  posted l hl ht := by
    rcases ha.line.mem.mp hl with hl | rfl
    · obtain ⟨p, hp, hline, hstand⟩ := hw.posted l hl ht
      obtain ⟨q, hq, hc⟩ := ha.carried p hp
      refine ⟨q, hq, ⟨hc.id ▸ hline.owner, hc.home ▸ hline.home, hc.amount ▸ hline.net, hline.tax,
        hline.plain, hline.original⟩, ?_⟩
      intro hr m hm
      obtain ⟨hpr, hspare⟩ := hc.standing hr
      rcases ha.line.mem.mp hm with hm | rfl
      · exact hstand hpr m hm
      · exact hspare l hl ht hline.owner
    · obtain ⟨p, hp, hline⟩ := ha.posted ht
      exact ⟨p, hp, hline, fun _ => Folio.unreversed_new hw.reverses ha.line hline.original⟩

-- A line that is left out of the sum keeps the book balanced.
theorem sound_append_line (hs : Sound b) (ha : Admissible b b' x)
    (hp : b'.payments = b.payments) (hc : b'.changes = b.changes)
    (hz : settles b'.lines x = false) : Sound b' where
  toWired := wired_append hs.toWired ha
  balanced r := by
    have hl : settled b' r = settled b r := by simp [settled_append hs.toWired ha.line, hz]
    have h := hs.balanced r
    unfold Balanced received returned at h ⊢
    rw [hl, hp, hc, h]

end Lines

theorem returned_eq (hc : b'.changes = b.changes) :
    returned b' reservationId = returned b reservationId := by
  unfold returned
  rw [hc]

section Payments
variable {r : Reservation} {actor : Option ℕ} {now : ℤ} {i : ℕ}

theorem sound_pledge (hs : Sound b) (hl : b'.lines = b.lines) (hc : b'.changes = b.changes)
    (hp : Table.Appends b.payments b'.payments p) (hpend : p.status = .pending) : Sound b' where
  reverses := by
    rw [hl]
    exact hs.reverses
  owners l hm i hi := by
    have hlt := hs.owners l (hl ▸ hm) i hi
    rw [hp.next]
    omega
  refunds := by
    rw [hl, hc]
    exact hs.refunds
  pledged q hq hqp l hm ht := by
    rw [hl] at hm
    rcases hp.mem.mp hq with hq | rfl
    · exact hs.pledged q hq hqp l hm ht
    · intro he
      have hlt := hs.owners l hm _ he
      have hid : q.id = b.payments.next := hp.id
      omega
  posted l hm ht := by
    obtain ⟨q, hq, h⟩ := hs.posted l (hl ▸ hm) ht
    refine ⟨q, hp.mem_old hq, ?_⟩
    unfold Unreversed at h ⊢
    rwa [hl]
  balanced r := by
    have h := hs.balanced r
    unfold Balanced settled received returned at h ⊢
    rw [hp.total, hl, hc, h]
    simp [kept, hpend]

theorem paymentLineOf_draft (hr : p.reservationId = r.id) :
    PaymentLineOf (Folio.line r (Folio.paymentDraft p actor) now i) p where
  owner := rfl
  home := hr.symm
  net := Folio.lineAmount_thousand _
  tax := rfl
  plain := rfl
  original := rfl

theorem PaymentLineOf.settles {lines : Table FolioLine} (h : PaymentLineOf l p) :
    settles lines l = true := by
  simp [Settlement.settles, undoesChargeback, h.owner, h.plain, h.original]

theorem carries_self (hx : x.reversesFolioLineId = none) : Carries b x p p where
  id := rfl
  home := rfl
  amount := rfl
  standing h := ⟨h, fun _ _ _ _ => by simp [hx]⟩

theorem payment_line_gross (h : x = Folio.line r (Folio.paymentDraft p actor) now i) :
    x.grossAmountMinor = -p.amountMinor := by
  have hn : Folio.lineAmount (-p.amountMinor) 1000 = -p.amountMinor := Folio.lineAmount_thousand _
  simp [h, Folio.line, Folio.paymentDraft, hn]

theorem received_append (hp : Table.Appends b.payments b'.payments p) :
    received b' reservationId = received b reservationId +
      if p.reservationId = reservationId ∧ kept p = true then p.amountMinor else 0 :=
  hp.total

theorem sound_receive (hs : Sound b) (hx : Table.Appends b.lines b'.lines x)
    (hc : b'.changes = b.changes) (hp : Table.Appends b.payments b'.payments p)
    (hst : p.status = .succeeded) (hr : p.reservationId = r.id)
    (hd : x = Folio.line r (Folio.paymentDraft p actor) now i) : Sound b' where
  toWired := by
    have hid : p.id = b.payments.next := hp.id
    have hown : x.paymentId = some p.id := by rw [hd]; rfl
    have hrev : x.reversesFolioLineId = none := by rw [hd]; rfl
    refine wired_append hs.toWired
      ⟨hx, by rw [hp.next]; omega, by rw [hc], by simp [hrev], ?_, by simp [hd, Folio.line,
        Folio.paymentDraft], ?_, ?_, ?_⟩
    · intro i hi
      obtain rfl : p.id = i := by simpa [hown] using hi
      rw [hp.next, hid]
      omega
    · intro q hq hqp
      rcases hp.mem.mp hq with hq | rfl
      · refine ⟨hq, fun _ he => ?_⟩
        have hne := (hp.lt_next hq).ne
        simp only [hown, Option.some.injEq] at he
        exact hne he.symm
      · simp [hst] at hqp
    · exact fun q hq => ⟨q, hp.mem_old hq, carries_self hrev⟩
    · exact fun _ => ⟨p, hp.mem_new, hd ▸ paymentLineOf_draft hr⟩
  balanced i := by
    have h := hs.balanced i
    have hline : PaymentLineOf x p := hd ▸ paymentLineOf_draft hr
    unfold Balanced at h ⊢
    rw [settled_append hs.toWired hx, hline.settles, payment_line_gross hd, hline.home,
      received_append hp, returned_eq hc, h]
    by_cases hi : p.reservationId = i
    · simp only [hi, kept, hst, and_self, beq_self_eq_true, Bool.true_or, if_true]
      ring
    · simp [hi]

-- The payment keeps its identity and its amount, whatever its status becomes.
structure Restates (p q : Payment) : Prop where
  id : q.id = p.id
  home : q.reservationId = p.reservationId
  amount : q.amountMinor = p.amountMinor

variable {f : Payment → Payment}

theorem received_update (hp : p ∈ b.payments.rows)
    (hu : Table.Updates b.payments b'.payments p.id f) (hf : Restates p (f p)) :
    received b' reservationId = received b reservationId +
      if p.reservationId = reservationId then
        (if kept (f p) = true then p.amountMinor else 0) -
          (if kept p = true then p.amountMinor else 0) else 0 := by
  have h := hu.total (g := fun p : Payment =>
    if p.reservationId = reservationId ∧ kept p = true then p.amountMinor else 0) hp rfl
  simp only [hf.home, hf.amount] at h
  unfold received
  by_cases hr : p.reservationId = reservationId
  · simp only [hr, true_and, if_true] at h ⊢
    linarith
  · simp only [hr, false_and, if_false] at h ⊢
    linarith

theorem carried_update (hp : p ∈ b.payments.rows)
    (hu : Table.Updates b.payments b'.payments p.id f) (hf : Restates p (f p))
    (hst : (f p).status ≠ .reversed → p.status ≠ .reversed)
    (hx : ∀ q ∈ b.payments.rows, (q.id = p.id → (f p).status ≠ .reversed) →
      ∀ l ∈ b.lines.rows, l.type = .payment → l.paymentId = some q.id →
        x.reversesFolioLineId ≠ some l.id) :
    ∀ q ∈ b.payments.rows, ∃ q' ∈ b'.payments.rows, Carries b x q q' := by
  intro q hq
  by_cases hid : q.id = p.id
  · obtain rfl : q = p := Table.eq_of_id hq hp hid
    exact ⟨f q, hu.mem_self hp rfl, hf.id, hf.home, hf.amount,
      fun h => ⟨hst h, hx q hq fun _ => h⟩⟩
  · exact ⟨q, hu.mem_ne hq hid, rfl, rfl, rfl, fun h => ⟨h, hx q hq fun he => absurd he hid⟩⟩

theorem sound_settle (hs : Sound b) (hx : Table.Appends b.lines b'.lines x)
    (hc : b'.changes = b.changes) (hp : p ∈ b.payments.rows)
    (hu : Table.Updates b.payments b'.payments p.id f) (hf : Restates p (f p))
    (hpend : p.status = .pending) (hst : (f p).status = .succeeded)
    (hr : p.reservationId = r.id)
    (hd : x = Folio.line r (Folio.paymentDraft (f p) actor) now i) : Sound b' where
  toWired := by
    have hown : x.paymentId = some p.id := by rw [hd, ← hf.id]; rfl
    have hrev : x.reversesFolioLineId = none := by rw [hd]; rfl
    refine wired_append hs.toWired
      ⟨hx, by rw [hu.next], by rw [hc], by simp [hrev], ?_, by simp [hd, Folio.line,
        Folio.paymentDraft], ?_, ?_, ?_⟩
    · intro i hi
      obtain rfl : p.id = i := by simpa [hown] using hi
      rw [hu.next]
      exact Table.id_lt_next hp
    · intro q hq hqp
      rcases hu.mem_cases hp rfl hq with ⟨hq, hne⟩ | rfl
      · refine ⟨hq, fun _ he => ?_⟩
        simp only [hown, Option.some.injEq] at he
        exact hne he.symm
      · simp [hst] at hqp
    · exact carried_update hp hu hf (fun _ => by simp [hpend]) fun _ _ _ _ _ _ _ => by simp [hrev]
    · exact fun _ => ⟨f p, hu.mem_self hp rfl, hd ▸ paymentLineOf_draft (hf.home.trans hr)⟩
  balanced i := by
    have h := hs.balanced i
    have hline : PaymentLineOf x (f p) := hd ▸ paymentLineOf_draft (hf.home.trans hr)
    unfold Balanced at h ⊢
    rw [settled_append hs.toWired hx, hline.settles, payment_line_gross hd, hline.home,
      hf.home, hf.amount, received_update hp hu hf, returned_eq hc, h]
    have hk : kept (f p) = true := by simp [kept, hst]
    have hn : kept p = false := by simp [kept, hpend]
    by_cases hi : p.reservationId = i
    · simp only [hi, hk, hn, and_self, if_true, Bool.false_eq_true, if_false]
      ring
    · simp [hi]

theorem reversal_gross {reason : String}
    (hd : x = Folio.line r (Folio.reversalDraft l reason actor) now i) :
    x.grossAmountMinor = -l.netAmountMinor - l.taxAmountMinor := by
  have hn : Folio.lineAmount (-l.netAmountMinor) 1000 = -l.netAmountMinor :=
    Folio.lineAmount_thousand _
  simp only [hd, Folio.line, Folio.reversalDraft, hn]
  ring

-- Reversing a line that no payment or refund stands on changes nothing that is summed.
theorem sound_reversal {reason : String} (hs : Sound b) (hx : Table.Appends b.lines b'.lines x)
    (hp : b'.payments = b.payments) (hc : b'.changes = b.changes) (hl : l ∈ b.lines.rows)
    (hfree : l.paymentId = none ∨ isChargeback l = true)
    (hd : x = Folio.line r (Folio.reversalDraft l reason actor) now i) : Sound b' := by
  have htype : l.type ≠ .payment := by
    intro ht
    obtain ⟨q, _, hline, _⟩ := hs.posted l hl ht
    rcases hfree with h | h
    · simp [hline.owner] at h
    · simp [hline.plain] at h
  have hxtype : x.type = .adjustment := by simp [hd, Folio.line, Folio.reversalDraft, htype]
  have hxown : x.paymentId = l.paymentId := by rw [hd]; rfl
  have hxrev : x.reversesFolioLineId = some l.id := by rw [hd]; rfl
  have hfind : b.lines.find? l.id = some l := Table.find?_eq_some.mpr ⟨hl, rfl⟩
  refine sound_append_line hs ⟨hx, by rw [hp], by rw [hc], ?_, ?_, by simp [hxtype], ?_, ?_, ?_⟩
    hp hc ?_
  · intro j hj
    obtain rfl : l.id = j := by simpa [hxrev] using hj
    exact ⟨l, hfind⟩
  · intro j hj
    rw [hp]
    exact hs.owners l hl j (hxown ▸ hj)
  · exact fun q hq _ => ⟨hp ▸ hq, by simp [hxtype]⟩
  · intro q hq
    refine ⟨q, hp ▸ hq, rfl, rfl, rfl, fun h => ⟨h, fun m hm hmt _ he => ?_⟩⟩
    have hlm : l.id = m.id := by simpa only [hxrev, Option.some.injEq] using he
    obtain rfl : l = m := Table.eq_of_id hl hm hlm
    exact htype hmt
  · simp [hxtype]
  · rcases hfree with h | h
    · simp [settles, hxown, h]
    · have hu : undoesChargeback b'.lines x = true := by
        simp [undoesChargeback, hxrev, hx.find?_old hfind, h]
      simp [settles, hu]

-- Reversing a payment takes its line back and leaves every other payment line standing.
theorem sound_withdraw {reason : String} (hs : Sound b)
    (hx : Table.Appends b.lines b'.lines x) (hc : b'.changes = b.changes)
    (hp : p ∈ b.payments.rows) (hu : Table.Updates b.payments b'.payments p.id f)
    (hf : Restates p (f p)) (hpst : p.status = .succeeded) (hst : (f p).status = .reversed)
    (hl : l ∈ b.lines.rows) (ht : l.type = .payment) (hown : l.paymentId = some p.id)
    (hr : l.reservationId = r.id)
    (hd : x = Folio.line r (Folio.reversalDraft l reason actor) now i) : Sound b' := by
  obtain ⟨s, hsmem, hline, _⟩ := hs.posted l hl ht
  obtain rfl : s = p := by
    have he : s.id = p.id := by simpa [hline.owner] using hown
    exact Table.eq_of_id hsmem hp he
  have hxtype : x.type = .refund := by simp [hd, Folio.line, Folio.reversalDraft, ht]
  have hxown : x.paymentId = some s.id := by rw [hd, ← hown]; rfl
  have hxrev : x.reversesFolioLineId = some l.id := by rw [hd]; rfl
  have hfind : b.lines.find? l.id = some l := Table.find?_eq_some.mpr ⟨hl, rfl⟩
  refine ⟨wired_append hs.toWired ⟨hx, by rw [hu.next], by rw [hc], ?_, ?_, ?_, ?_, ?_, ?_⟩, ?_⟩
  · intro i hi
    obtain rfl : l.id = i := by simpa [hxrev] using hi
    exact ⟨l, hfind⟩
  · intro i hi
    obtain rfl : s.id = i := by simpa [hxown] using hi
    rw [hu.next]
    exact Table.id_lt_next hp
  · simp [hd, Folio.line, Folio.reversalDraft]
  · intro q hq hqp
    rcases hu.mem_cases hp rfl hq with ⟨hq, _⟩ | rfl
    · exact ⟨hq, by simp [hxtype]⟩
    · simp [hst] at hqp
  · refine carried_update hp hu hf (fun h => absurd hst h) ?_
    intro q hq hne m hm hmt hmown he
    have hlm : l.id = m.id := by simpa only [hxrev, Option.some.injEq] using he
    obtain rfl : l = m := Table.eq_of_id hl hm hlm
    have hid : q.id = s.id := by simpa [hmown] using hown
    exact hne hid hst
  · simp [hxtype]
  · intro i
    have h := hs.balanced i
    have hz : settles b'.lines x = true := by
      have hu : undoesChargeback b'.lines x = false := by
        simp [undoesChargeback, hxrev, hx.find?_old hfind, hline.plain]
      have hch : isChargeback x = false := by rw [hd]; rfl
      simp [settles, hxown, hch, hu]
    have hg : x.grossAmountMinor = s.amountMinor := by
      rw [reversal_gross hd, hline.net, hline.tax]
      ring
    have hxr : x.reservationId = s.reservationId := by rw [hd, ← hline.home, hr]; rfl
    unfold Balanced at h ⊢
    rw [settled_append hs.toWired hx, hz, hg, hxr, received_update hp hu hf, returned_eq hc, h]
    have hk : kept s = true := by simp [kept, hpst]
    have hn : kept (f s) = false := by simp [kept, hst]
    by_cases hi : s.reservationId = i
    · simp only [hi, hk, hn, and_self, if_true, Bool.false_eq_true, if_false]
      ring
    · simp [hi]

end Payments

section Refunds
variable {r : Reservation} {c : ReservationChange} {actor : Option ℕ} {now : ℤ} {i : ℕ}

theorem sound_note (hs : Sound b) (hl : b'.lines = b.lines) (hp : b'.payments = b.payments)
    (hc : Table.Appends b.changes b'.changes c) (hn : isCompletion c = false) : Sound b' where
  reverses := by
    rw [hl]
    exact hs.reverses
  owners := by
    rw [hl, hp]
    exact hs.owners
  refunds l hm ht i hi := by
    have hlt := hs.refunds l (hl ▸ hm) ht i hi
    rw [hc.next]
    omega
  pledged := by
    rw [hl, hp]
    exact hs.pledged
  posted := by
    unfold Unreversed
    rw [hl, hp]
    exact hs.posted
  balanced r := by
    have h := hs.balanced r
    unfold Balanced settled received returned at h ⊢
    rw [hc.total, hl, hp, h]
    simp [hn]

theorem refund_line_gross (hd : x = Folio.line r (Folio.refundDraft p c actor) now i) :
    x.grossAmountMinor = c.amountMinor := by
  have hn : Folio.lineAmount c.amountMinor 1000 = c.amountMinor := Folio.lineAmount_thousand _
  simp [hd, Folio.line, Folio.refundDraft, hn]

-- A completed refund enters the changes and the folio together; its payment may become Refunded.
theorem sound_refund (hs : Sound b) (hx : Table.Appends b.lines b'.lines x)
    (hc : Table.Appends b.changes b'.changes c) (hcomp : isCompletion c = true)
    (hcr : c.reservationId = r.id) (hp : p ∈ b.payments.rows)
    (hnext : b.payments.next ≤ b'.payments.next)
    (hcarry : ∀ q ∈ b.payments.rows, ∃ q' ∈ b'.payments.rows, Carries b x q q')
    (hpend : ∀ q ∈ b'.payments.rows, q.status = .pending → q ∈ b.payments.rows)
    (hrec : ∀ j, received b' j = received b j)
    (hd : x = Folio.line r (Folio.refundDraft p c actor) now i) : Sound b' where
  toWired := by
    have hown : x.paymentId = some p.id := by rw [hd]; rfl
    have hxtype : x.type = .refund := by rw [hd]; rfl
    have hxrev : x.reversesFolioLineId = none := by rw [hd]; rfl
    have hmark : x.metadata.refundChangeId = some c.id := by rw [hd]; rfl
    refine wired_append hs.toWired ⟨hx, hnext, by rw [hc.next]; omega, by simp [hxrev], ?_, ?_, ?_,
      hcarry, by simp [hxtype]⟩
    · intro j hj
      obtain rfl : p.id = j := by simpa [hown] using hj
      exact lt_of_lt_of_le (Table.id_lt_next hp) hnext
    · intro _ j hj
      obtain rfl : c.id = j := by simpa [hmark] using hj
      have hid : c.id = b.changes.next := hc.id
      rw [hc.next, hid]
      omega
    · exact fun q hq hqp => ⟨hpend q hq hqp, by simp [hxtype]⟩
  balanced j := by
    have h := hs.balanced j
    have hret : returned b' j =
        returned b j + if c.reservationId = j ∧ isCompletion c = true then c.amountMinor else 0 :=
      hc.total
    have hz : settles b'.lines x = true := by
      rw [hd]
      rfl
    have hxr : x.reservationId = c.reservationId := by rw [hd, hcr]; rfl
    unfold Balanced at h ⊢
    rw [settled_append hs.toWired hx, hz, refund_line_gross hd, hret, hrec, hxr, h]
    simp only [hcomp]
    ring

end Refunds
end Settlement
