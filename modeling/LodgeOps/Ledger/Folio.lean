import LodgeOps.Schema.Database

namespace Folio
open Schema Transaction

def lineAmount (unitAmountMinor quantityThousandths : ℤ) : ℤ :=
  let product := unitAmountMinor * quantityThousandths
  let rounded : ℤ := ((product.natAbs + 500) / 1000 : ℕ)
  if product < 0 then -rounded else rounded

theorem lineAmount_thousand (u : ℤ) : lineAmount u 1000 = u := by
  have hr : ((u * 1000).natAbs + 500) / 1000 = u.natAbs := by
    have hm : (u * 1000).natAbs = u.natAbs * 1000 := Int.natAbs_mul u 1000
    omega
  have hd : lineAmount u 1000 = if u * 1000 < 0 then -(u.natAbs : ℤ) else u.natAbs := by
    simp only [lineAmount, hr]
  rw [hd]
  split_ifs with h
  · omega
  · omega

def assertOpen (r : Reservation) : Except Failure Unit :=
  refuse (r.folioStatus = .closed)
    (.commercialWorkflow "The folio is closed. Reopen it before posting entries.")

structure LineDraft where
  type : FolioLineType
  description : String
  quantityThousandths : ℤ := 1000
  unitAmountMinor : ℤ
  actorId : Option ℕ := none
  paymentId : Option ℕ := none
  reversesLineId : Option ℕ := none
  metadata : LineMetadata := {}
  taxAmountMinor : ℤ := 0

def line (r : Reservation) (d : LineDraft) (now : ℤ) (i : ℕ) : FolioLine where
  id := i
  reservationId := r.id
  paymentId := d.paymentId
  reversesFolioLineId := d.reversesLineId
  type := d.type
  description := trim d.description
  quantityThousandths := d.quantityThousandths
  unitAmountMinor := d.unitAmountMinor
  netAmountMinor := lineAmount d.unitAmountMinor d.quantityThousandths
  taxAmountMinor := d.taxAmountMinor
  grossAmountMinor := lineAmount d.unitAmountMinor d.quantityThousandths + d.taxAmountMinor
  currency := r.currency
  postedAt := now
  createdBy := d.actorId
  metadata := d.metadata

def createLine (r : Reservation) (d : LineDraft) : Tx FolioLine := do
  let db ← get
  set { db with folioLines := db.folioLines.insert (line r d db.clock) }
  pure (line r d db.clock db.folioLines.next)

def append (r : Reservation) (type : FolioLineType) (description : String)
    (quantityThousandths : ℤ) (unitAmountMinor : ℤ) (actorId : Option ℕ)
    (metadata : LineMetadata := {}) (taxAmountMinor : ℤ := 0)
    (includedInBookedTotal : Bool := false) : Tx FolioLine := do
  check fun _ => assertOpen r
  reject (¬ (type = .charge ∨ type = .adjustment))
    (.commercialWorkflow "Manual folio entries must be charges or adjustments.")
  createLine r
    { type, description, quantityThousandths, unitAmountMinor, actorId, taxAmountMinor
      metadata := { metadata with includedInBookedTotal := includedInBookedTotal } }

def paymentLine? (db : Database) (paymentId : ℕ) : Option FolioLine :=
  db.folioLines.first? fun l => l.paymentId == some paymentId && l.type == .payment

def paymentDraft (payment : Payment) (actorId : Option ℕ) : LineDraft where
  type := .payment
  description := "Payment received · " ++ payment.method.replace "_" " "
  unitAmountMinor := -payment.amountMinor
  actorId := actorId
  paymentId := some payment.id
  metadata := { paymentStatus := some payment.status }

def postPayment (payment : Payment) (actorId : Option ℕ) : Tx FolioLine := do
  let db ← get
  match paymentLine? db payment.id with
  | some existing => pure existing
  | none => do
    let r ← lockedReservation payment.reservationId
    check fun _ => assertOpen r
    createLine r (paymentDraft payment actorId)

def refundLine? (db : Database) (refundId : ℕ) : Option FolioLine :=
  db.folioLines.first? fun l => l.metadata.refundChangeId == some refundId && l.type == .refund

def refundDraft (payment : Payment) (refund : ReservationChange) (actorId : Option ℕ) :
    LineDraft where
  type := .refund
  description := "Refund completed · " ++ payment.method.replace "_" " "
  unitAmountMinor := refund.amountMinor
  actorId := actorId
  paymentId := some payment.id
  metadata :=
    { refundChangeId := some refund.id, refundRequestId := refund.parentChangeId
      reference := refund.reference }

def postRefund (payment : Payment) (refund : ReservationChange) (actorId : Option ℕ) :
    Tx FolioLine := do
  let db ← get
  match refundLine? db refund.id with
  | some existing => pure existing
  | none => do
    let r ← lockedReservation payment.reservationId
    check fun _ => assertOpen r
    createLine r (refundDraft payment refund actorId)

def adjustmentDraft (p : Payment) (type : FolioLineType) (description : String) (amount : ℤ)
    (metadata : LineMetadata) : LineDraft where
  type := type
  description := description
  unitAmountMinor := amount
  paymentId := some p.id
  metadata := metadata

def postProviderAdjustment (payment : Payment) (type : FolioLineType) (description : String)
    (amountMinor : ℤ) (metadata : LineMetadata) : Tx FolioLine := do
  reject (¬ (type = .refund ∨ type = .adjustment) ∨ amountMinor ≤ 0)
    (.commercialWorkflow "A provider adjustment must be a positive refund or adjustment effect.")
  let r ← lockedReservation payment.reservationId
  check fun _ => assertOpen r
  createLine r (adjustmentDraft payment type description amountMinor metadata)

def reversal? (db : Database) (lineId : ℕ) : Option FolioLine :=
  db.folioLines.first? fun l => l.reversesFolioLineId == some lineId

def reversalDraft (l : FolioLine) (reason : String) (actorId : Option ℕ) : LineDraft where
  type := if l.type = .payment then .refund else .adjustment
  description := "Reversal · " ++ l.description
  unitAmountMinor := -l.netAmountMinor
  actorId := actorId
  paymentId := l.paymentId
  reversesLineId := some l.id
  metadata := { reason := some reason, originalLineId := some l.id }
  taxAmountMinor := -l.taxAmountMinor

def reverse (lineId : ℕ) (reason : String) (actorId : Option ℕ) : Tx FolioLine := do
  let db ← get
  let locked ← orFail (db.folioLines.find? lineId) .modelNotFound
  let r ← lockedReservation locked.reservationId
  check fun _ => assertOpen r
  match reversal? db locked.id with
  | some existing => pure existing
  | none => do
    reject (locked.reversesFolioLineId ≠ none)
      (.commercialWorkflow "A reversal entry cannot itself be reversed.")
    createLine r (reversalDraft locked reason actorId)

structure Summary where
  status : FolioStatus
  bookedNetMinor : ℤ
  bookedTaxMinor : ℤ
  bookedTotalMinor : ℤ
  ledgerNetMinor : ℤ
  ledgerTaxMinor : ℤ
  ledgerGrossMinor : ℤ
  ledgerDeltaMinor : ℤ
  balanceMinor : ℤ

def lineTotal (db : Database) (reservationId : ℕ) (f : FolioLine → ℤ) : ℤ :=
  db.folioLines.total fun l => if l.reservationId = reservationId then f l else 0

def summary (db : Database) (r : Reservation) : Summary :=
  let gross := lineTotal db r.id FolioLine.grossAmountMinor
  let included := lineTotal db r.id fun l =>
    if l.metadata.includedInBookedTotal then l.grossAmountMinor else 0
  { status := r.folioStatus
    bookedNetMinor := r.subtotalMinor
    bookedTaxMinor := r.taxMinor
    bookedTotalMinor := r.totalMinor
    ledgerNetMinor := lineTotal db r.id FolioLine.netAmountMinor
    ledgerTaxMinor := lineTotal db r.id FolioLine.taxAmountMinor
    ledgerGrossMinor := gross
    ledgerDeltaMinor := gross - included
    balanceMinor := r.totalMinor + (gross - included) }

def close (reservationId : ℕ) : Tx Unit := do
  let locked ← lockedReservation reservationId
  if locked.folioStatus = .closed then pure ()
  else do
    reject (locked.status ≠ .checkedOut)
      (.commercialWorkflow "A folio can only be closed after checkout.")
    let db ← get
    reject ((summary db locked).balanceMinor ≠ 0)
      (.commercialWorkflow "Settle or adjust the folio balance before closing it.")
    set { db with reservations := db.reservations.update locked.id fun r =>
      { r with folioStatus := .closed } }

def reopen (reservationId : ℕ) : Tx Unit := do
  let locked ← lockedReservation reservationId
  if locked.folioStatus = .opened then pure ()
  else modify fun db => { db with reservations := db.reservations.update locked.id fun r =>
    { r with folioStatus := .opened } }

section Commits
variable {db db' : Database} {l m : FolioLine} {r : Reservation} {d : LineDraft} {p : Payment}
variable {c : ReservationChange} {actor : Option ℕ} {reason description : String} {i : ℕ}
variable {type : FolioLineType} {amount : ℤ} {meta' : LineMetadata}

theorem line_gross (now : ℤ) (i : ℕ) : (line r d now i).grossAmountMinor =
    (line r d now i).netAmountMinor + (line r d now i).taxAmountMinor := rfl

def posted (db : Database) (r : Reservation) (d : LineDraft) : Database :=
  { db with folioLines := db.folioLines.insert (line r d db.clock) }

-- Every reversal points at a line of the folio.
def Traced (lines : Table FolioLine) : Prop :=
  ∀ l ∈ lines.rows, ∀ i, l.reversesFolioLineId = some i → ∃ m, lines.find? i = some m

theorem traced_append {lines lines' : Table FolioLine} (ht : Traced lines)
    (hx : Table.Appends lines lines' l)
    (hl : ∀ i, l.reversesFolioLineId = some i → ∃ m, lines.find? i = some m) : Traced lines' := by
  intro m hm i hi
  rcases hx.mem.mp hm with hm | rfl
  · obtain ⟨n, hn⟩ := ht m hm i hi
    exact ⟨n, hx.find?_old hn⟩
  · obtain ⟨n, hn⟩ := hl i hi
    exact ⟨n, hx.find?_old hn⟩

-- No line can have been reversed before it was posted.
theorem unreversed_new {lines lines' : Table FolioLine} (ht : Traced lines)
    (hx : Table.Appends lines lines' l) (hl : l.reversesFolioLineId = none) :
    ∀ m ∈ lines'.rows, m.reversesFolioLineId ≠ some l.id := by
  intro m hm he
  rcases hx.mem.mp hm with hm | rfl
  · obtain ⟨n, hn⟩ := ht m hm _ he
    obtain ⟨hmem, hid⟩ := Table.find?_eq_some.mp hn
    exact absurd hid (hx.lt_next hmem).ne
  · simp [hl] at he

theorem appends_posted (h : db' = posted db r d) : Table.Appends db.folioLines db'.folioLines
    (line r d db.clock db.folioLines.next) := by
  rw [h]
  exact Table.appends_insert

theorem commits_createLine : Commits (createLine r d) db l db' ↔
    l = line r d db.clock db.folioLines.next ∧ db' = posted db r d := by
  simp only [createLine, commits_bind, commits_get, commits_set, commits_pure, posted]
  constructor
  · rintro ⟨_, _, ⟨rfl, rfl⟩, _, _, rfl, rfl, rfl⟩
    exact ⟨rfl, rfl⟩
  · rintro ⟨rfl, rfl⟩
    exact ⟨db, db, ⟨rfl, rfl⟩, (), _, rfl, rfl, rfl⟩

theorem reservation_id_eq (h : db.reservation? i = some r) : r.id = i :=
  (Table.find?_eq_some.mp h).2

theorem commits_append {quantity unit tax : ℤ} {included : Bool}
    (h : Commits (append r type description quantity unit actor meta' tax included) db l db') :
    (type = .charge ∨ type = .adjustment) ∧ ∃ d : LineDraft, d.type = type ∧ d.paymentId = none ∧
      d.reversesLineId = none ∧ db' = posted db r d := by
  simp only [append, commits_bind, commits_check, commits_reject, commits_createLine] at h
  obtain ⟨_, _, ⟨_, rfl⟩, _, _, ⟨ht, rfl⟩, _, rfl⟩ := h
  exact ⟨not_not.mp ht, _, rfl, rfl, rfl, rfl⟩

theorem commits_postPayment (h : Commits (postPayment p actor) db l db') :
    (paymentLine? db p.id = some l ∧ db' = db) ∨
      (paymentLine? db p.id = none ∧ ∃ r, db.reservation? p.reservationId = some r ∧
        r.folioStatus ≠ .closed ∧ db' = posted db r (paymentDraft p actor)) := by
  simp only [postPayment, commits_bind, commits_get] at h
  obtain ⟨_, _, ⟨rfl, rfl⟩, h⟩ := h
  cases hl : paymentLine? db p.id with
  | some existing =>
    simp only [hl, commits_pure] at h
    exact Or.inl ⟨by rw [h.1], h.2.symm⟩
  | none =>
    simp only [hl, commits_bind, commits_lockedReservation, commits_check, commits_createLine,
      assertOpen, refuse_eq_ok] at h
    obtain ⟨r, _, ⟨hr, rfl⟩, _, _, ⟨ho, rfl⟩, _, rfl⟩ := h
    exact Or.inr ⟨rfl, r, hr, ho, rfl⟩

theorem commits_postRefund (h : Commits (postRefund p c actor) db l db') :
    (refundLine? db c.id = some l ∧ db' = db) ∨
      (refundLine? db c.id = none ∧ ∃ r, db.reservation? p.reservationId = some r ∧
        r.folioStatus ≠ .closed ∧ db' = posted db r (refundDraft p c actor)) := by
  simp only [postRefund, commits_bind, commits_get] at h
  obtain ⟨_, _, ⟨rfl, rfl⟩, h⟩ := h
  cases hl : refundLine? db c.id with
  | some existing =>
    simp only [hl, commits_pure] at h
    exact Or.inl ⟨by rw [h.1], h.2.symm⟩
  | none =>
    simp only [hl, commits_bind, commits_lockedReservation, commits_check, commits_createLine,
      assertOpen, refuse_eq_ok] at h
    obtain ⟨r, _, ⟨hr, rfl⟩, _, _, ⟨ho, rfl⟩, _, rfl⟩ := h
    exact Or.inr ⟨rfl, r, hr, ho, rfl⟩

theorem commits_postProviderAdjustment
    (h : Commits (postProviderAdjustment p type description amount meta') db l db') :
    (type = .refund ∨ type = .adjustment) ∧ 0 < amount ∧
      ∃ r, db.reservation? p.reservationId = some r ∧ r.folioStatus ≠ .closed ∧
        db' = posted db r (adjustmentDraft p type description amount meta') := by
  simp only [postProviderAdjustment, commits_bind, commits_reject, commits_lockedReservation,
    commits_check, commits_createLine, assertOpen, refuse_eq_ok] at h
  obtain ⟨_, _, ⟨ht, rfl⟩, r, _, ⟨hr, rfl⟩, _, _, ⟨ho, rfl⟩, _, rfl⟩ := h
  rw [not_or, not_not, not_le] at ht
  exact ⟨ht.1, ht.2, r, hr, ho, rfl⟩

theorem commits_reverse (h : Commits (reverse i reason actor) db m db') :
    ∃ l, db.folioLines.find? i = some l ∧
      ((reversal? db l.id = some m ∧ db' = db) ∨
        (reversal? db l.id = none ∧ l.reversesFolioLineId = none ∧
          ∃ r, db.reservation? l.reservationId = some r ∧ r.folioStatus ≠ .closed ∧
            db' = posted db r (reversalDraft l reason actor))) := by
  simp only [reverse, commits_bind, commits_get, commits_orFail, commits_lockedReservation,
    commits_check, assertOpen, refuse_eq_ok] at h
  obtain ⟨_, _, ⟨rfl, rfl⟩, l, _, ⟨hl, rfl⟩, r, _, ⟨hr, rfl⟩, _, _, ⟨ho, rfl⟩, h⟩ := h
  refine ⟨l, hl, ?_⟩
  cases hx : reversal? db l.id with
  | some existing =>
    simp only [hx, commits_pure] at h
    exact Or.inl ⟨by rw [h.1], h.2.symm⟩
  | none =>
    simp only [hx, commits_bind, commits_reject, commits_createLine] at h
    obtain ⟨_, _, ⟨hn, rfl⟩, _, rfl⟩ := h
    exact Or.inr ⟨rfl, not_not.mp hn, r, hr, ho, rfl⟩

end Commits
end Folio
