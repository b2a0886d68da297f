import LodgeOps.Ledger.LedgerRuns

namespace Outflow
open Schema Transaction RequestRefund CompleteRefund RecordProviderDispute

section Figures

def completed (db : Database) (paymentId : ℕ) : ℤ :=
  db.changes.total fun c =>
    if isCompletion c = true ∧ c.paymentId = some paymentId then c.amountMinor else 0

def sameIdentity (a : PaymentAttempt) (p : Payment) : Prop :=
  p.provider = some a.provider ∧ p.environment = some a.environment ∧
    p.providerAccount = some a.providerAccount ∧ p.providerReference = a.providerPaymentId

-- The facts about a payment's refunds and chargebacks that every operation keeps.
structure Kept (db : Database) : Prop where
  homes : ∀ c ∈ db.changes.rows, isCompletion c = true → ∀ p ∈ db.payments.rows,
    c.paymentId = some p.id → c.reservationId = p.reservationId
  positive : ∀ c ∈ db.changes.rows, isRequest c = true ∨ isCompletion c = true →
    0 < c.amountMinor
  linked : ∀ a ∈ db.paymentAttempts.rows, ∀ p ∈ db.payments.rows, sameIdentity a p →
    a.reservationId = p.reservationId
  reverses : Folio.Traced db.folioLines
  charges : ∀ l ∈ db.folioLines.rows, isChargeback l = true → l.paymentId ≠ none →
    0 < l.netAmountMinor

def Within (db : Database) : Prop :=
  ∀ p ∈ db.payments.rows, completed db p.id + appliedChargebacks db p.id ≤ p.amountMinor

structure Opening (db : Database) : Prop where
  amounts : ∀ p ∈ db.payments.rows, 0 ≤ p.amountMinor
  changes : ∀ c ∈ db.changes.rows, isRequest c = false ∧ isCompletion c = false
  lines : ∀ l ∈ db.folioLines.rows, isChargeback l = true → l.paymentId = none
  reverses : Folio.Traced db.folioLines
  linked : ∀ a ∈ db.paymentAttempts.rows, ∀ p ∈ db.payments.rows, sameIdentity a p →
    a.reservationId = p.reservationId

end Figures

variable {db db' t : Database} {p : Payment} {c : ReservationChange} {l x : FolioLine} {i : ℕ}

theorem kept_of_opening (h : Opening db) : Kept db where
  homes c hc hcomp := by simp [(h.changes c hc).2] at hcomp
  positive c hc hr := by simp [h.changes c hc] at hr
  linked := h.linked
  reverses := h.reverses
  charges l hl hcb hp := absurd (h.lines l hl hcb) hp

theorem completed_eq_zero (h : ∀ c ∈ db.changes.rows, isCompletion c = false) :
    completed db i = 0 := Table.total_eq_zero fun c hc => by simp [h c hc]

theorem within_of_opening (h : Opening db) : Within db := by
  intro p hp
  have hc : completed db p.id = 0 := completed_eq_zero fun c hc => (h.changes c hc).2
  have ha : appliedChargebacks db p.id = 0 := Table.total_eq_zero fun l hl => by
    cases hcb : isChargeback l with
    | true => simp [h.lines l hl hcb]
    | false => simp
  rw [hc, ha]
  simpa using h.amounts p hp

section Changes

theorem completed_append (h : Table.Appends db.changes db'.changes c) :
    completed db' i = completed db i +
      if isCompletion c = true ∧ c.paymentId = some i then c.amountMinor else 0 :=
  h.total

theorem completed_congr (h : db'.changes = db.changes) : completed db' i = completed db i := by
  unfold completed
  rw [h]

theorem completed_nonneg (hk : Kept db) : 0 ≤ completed db i := by
  unfold completed Table.total
  refine List.sum_nonneg fun y hy => ?_
  obtain ⟨c, hc, rfl⟩ := List.mem_map.mp hy
  split_ifs with h
  · exact (hk.positive c hc (Or.inr h.1)).le
  · exact le_rfl

theorem completedForPayment_eq (hk : Kept db) (hp : p ∈ db.payments.rows) {r : Reservation}
    (hr : p.reservationId = r.id) : completedForPayment db r p.id = completed db p.id := by
  refine Table.total_congr fun c hc => ?_
  by_cases h : isCompletion c = true ∧ c.paymentId = some p.id
  · have hh : c.reservationId = r.id := (hk.homes c hc h.1 p hp h.2).trans hr
    simp [h.1, h.2, hh]
  · rw [if_neg h]
    simp only [Bool.and_eq_true, beq_iff_eq]
    rw [if_neg fun h' => h ⟨h'.1.2, h'.2⟩]

end Changes

section Lines

theorem standing_append_other (h : Table.Appends db.folioLines db'.folioLines x)
    (hx : x.reversesFolioLineId ≠ some l.id) : standing db' l = standing db l := by
  unfold standing Folio.reversal? Table.first?
  rw [h.rows, List.find?_append]
  simp [hx]

theorem standing_append_reversed (h : Table.Appends db.folioLines db'.folioLines x)
    (hx : x.reversesFolioLineId = some l.id) : standing db' l = false := by
  have hsome : (Folio.reversal? db' l.id).isSome := by
    refine List.find?_isSome.mpr ⟨x, h.mem_new, ?_⟩
    simp [hx]
  simpa [standing] using hsome

theorem standing_append_new (ht : Folio.Traced db.folioLines)
    (h : Table.Appends db.folioLines db'.folioLines x) (hx : x.reversesFolioLineId = none) :
    standing db' x = true := by
  have hn : Folio.reversal? db' x.id = none :=
    Table.first?_eq_none.mpr fun m hm => by simpa using Folio.unreversed_new ht h hx m hm
  simp [standing, hn]

theorem applied_congr (h : db'.folioLines = db.folioLines) :
    appliedChargebacks db' i = appliedChargebacks db i := by
  unfold appliedChargebacks standing Folio.reversal?
  rw [h]

theorem applied_append (hk : Kept db) (h : Table.Appends db.folioLines db'.folioLines x)
    (hx : x.reversesFolioLineId = none) :
    appliedChargebacks db' i = appliedChargebacks db i +
      if x.paymentId = some i ∧ isChargeback x = true then x.netAmountMinor else 0 := by
  unfold appliedChargebacks
  rw [h.total]
  congr 1
  · exact Table.total_congr fun l _ => by rw [standing_append_other h (by simp [hx])]
  · simp [standing_append_new hk.reverses h hx]

-- A reversal adds no chargeback and may take one out.
theorem applied_append_reversal (hk : Kept db) (h : Table.Appends db.folioLines db'.folioLines x)
    (hx : isChargeback x = false) : appliedChargebacks db' i ≤ appliedChargebacks db i := by
  unfold appliedChargebacks
  rw [h.total]
  simp only [hx, Bool.and_false, Bool.false_and, Bool.false_eq_true, if_false, add_zero]
  unfold Table.total
  refine List.sum_le_sum fun l hl => ?_
  by_cases hp : l.paymentId = some i ∧ isChargeback l = true
  · have hpos := hk.charges l hl hp.2 (by simp [hp.1])
    by_cases hr : x.reversesFolioLineId = some l.id
    · rw [standing_append_reversed h hr]
      simp only [Bool.and_false, Bool.false_eq_true, if_false]
      split_ifs
      · exact hpos.le
      · exact le_rfl
    · rw [standing_append_other h hr]
  · have hn : ∀ s : Bool, (l.paymentId == some i && isChargeback l && s) = false := by
      intro s
      rw [Bool.and_eq_false_iff, Bool.and_eq_false_iff]
      by_cases h1 : l.paymentId = some i
      · exact Or.inl (Or.inr (by simpa using fun h2 => hp ⟨h1, h2⟩))
      · exact Or.inl (Or.inl (by simpa using h1))
    simp [hn]

end Lines
section Keeping

structure Restates (p q : Payment) : Prop where
  id : q.id = p.id
  home : q.reservationId = p.reservationId
  amount : q.amountMinor = p.amountMinor
  identity : ∀ a, sameIdentity a q → sameIdentity a p

structure Admits (db : Database) (c : ReservationChange) : Prop where
  positive : isRequest c = true ∨ isCompletion c = true → 0 < c.amountMinor
  home : isCompletion c = true → ∀ p ∈ db.payments.rows, c.paymentId = some p.id →
    c.reservationId = p.reservationId

-- What an operation has to respect for the facts about refunds and chargebacks to survive it.
structure Respects (db db' : Database) : Prop where
  payments : ∀ q ∈ db'.payments.rows, ∃ p ∈ db.payments.rows, Restates p q
  changes : ∀ c ∈ db'.changes.rows, c ∈ db.changes.rows ∨ Admits db c
  lines : ∀ l ∈ db'.folioLines.rows, l ∈ db.folioLines.rows ∨
    (isChargeback l = true → l.paymentId ≠ none → 0 < l.netAmountMinor)
  reverses : Folio.Traced db'.folioLines
  attempts : db'.paymentAttempts = db.paymentAttempts

theorem kept_of_respects (hk : Kept db) (h : Respects db db') : Kept db' where
  homes c hc hcomp q hq hown := by
    obtain ⟨p, hp, hpq⟩ := h.payments q hq
    rw [hpq.home]
    rcases h.changes c hc with hc | hc
    · exact hk.homes c hc hcomp p hp (by rw [hown, hpq.id])
    · exact hc.home hcomp p hp (by rw [hown, hpq.id])
  positive c hc hr := by
    rcases h.changes c hc with hc | hc
    · exact hk.positive c hc hr
    · exact hc.positive hr
  linked a ha q hq hs := by
    obtain ⟨p, hp, hpq⟩ := h.payments q hq
    rw [hpq.home]
    exact hk.linked a (h.attempts ▸ ha) p hp (hpq.identity a hs)
  reverses := h.reverses
  charges l hl hcb hown := by
    rcases h.lines l hl with hl | hl
    · exact hk.charges l hl hcb hown
    · exact hl hcb hown

theorem restates_self : Restates p p := ⟨rfl, rfl, rfl, fun _ h => h⟩

theorem restated_of_eq (h : db'.payments = db.payments) :
    ∀ q ∈ db'.payments.rows, ∃ p ∈ db.payments.rows, Restates p q := by
  intro q hq
  exact ⟨q, h ▸ hq, restates_self⟩

theorem respects_change (hk : Kept db) (hc : Table.Appends db.changes db'.changes c)
    (ha : Admits db c) (hd : db' = { db with changes := db'.changes }) : Respects db db' where
  payments := restated_of_eq (by rw [hd])
  changes e he := by
    rcases hc.mem.mp he with he | rfl
    · exact Or.inl he
    · exact Or.inr ha
  lines l hl := Or.inl (by rwa [hd] at hl)
  reverses := by
    have hl : db'.folioLines = db.folioLines := by rw [hd]
    rw [hl]
    exact hk.reverses
  attempts := by rw [hd]

theorem within_same (hw : Within db) (hp : ∀ q ∈ db'.payments.rows, ∃ p ∈ db.payments.rows,
      Restates p q)
    (hle : ∀ p ∈ db.payments.rows, completed db' p.id + appliedChargebacks db' p.id ≤
      max (completed db p.id + appliedChargebacks db p.id) p.amountMinor) : Within db' := by
  intro q hq
  obtain ⟨p, hmem, hpq⟩ := hp q hq
  rw [hpq.id, hpq.amount]
  have h := hw p hmem
  have h' := hle p hmem
  omega

end Keeping

section Steps
variable {g : RequestGraph} {actor : Option ℕ} {reason reference : String} {amount : ℤ} {j : ℕ}

theorem request_step (hk : Kept db) (hw : Within db)
    (h : Commits (RequestRefund.handle i j amount reason) db c db') : Kept db' ∧ Within db' := by
  obtain ⟨r, p, hacc, ⟨_, hc⟩, happ, hd⟩ := RequestRefund.commits_handle h
  have hn : isCompletion c = false := by rw [hc]; rfl
  have hpos : 0 < c.amountMinor := by rw [hc]; exact hacc.positive
  have hr := respects_change hk happ ⟨fun _ => hpos, by simp [hn]⟩ hd
  have hl : db'.folioLines = db.folioLines := by rw [hd]
  refine ⟨kept_of_respects hk hr, within_same hw hr.payments fun q _ => ?_⟩
  rw [completed_append happ, applied_congr hl]
  simp [hn]

theorem fail_step (hk : Kept db) (hw : Within db)
    (h : Commits (CompleteRefund.fail i reason) db c db') : Kept db' ∧ Within db' := by
  obtain ⟨g, _, _, _, ⟨_, _, hc⟩, happ, hd⟩ := CompleteRefund.commits_fail h
  have hn : isCompletion c = false := by rw [hc]; rfl
  have hreq : isRequest c = false := by rw [hc]; rfl
  have hr := respects_change hk happ ⟨by simp [hn, hreq], by simp [hn]⟩ hd
  have hl : db'.folioLines = db.folioLines := by rw [hd]
  refine ⟨kept_of_respects hk hr, within_same hw hr.payments fun q _ => ?_⟩
  rw [completed_append happ, applied_congr hl]
  simp [hn]

-- A completion adds its change and a refund line, which is no chargeback and reverses nothing.
theorem completed_lines (h : Completed db db' g actor c) :
    db'.folioLines = db.folioLines ∨ ∃ x, Table.Appends db.folioLines db'.folioLines x ∧
      x.reversesFolioLineId = none ∧ isChargeback x = false := by
  obtain ⟨t, l, ht, hpost⟩ := h.line
  have htl : t.folioLines = db.folioLines := by rw [ht]
  rcases Folio.commits_postRefund hpost with ⟨_, he⟩ | ⟨_, r, _, _, he⟩
  · rw [← htl, ← he]
    exact Or.inl rfl
  · have hx := Folio.appends_posted he
    rw [htl] at hx
    exact Or.inr ⟨_, hx, rfl, rfl⟩

theorem completed_restates (hg : g.payment ∈ db.payments.rows) (h : Completed db db' g actor c) :
    ∀ q ∈ db'.payments.rows, ∃ p ∈ db.payments.rows, Restates p q := by
  rcases h.payment with ⟨_, hu⟩ | ⟨_, hsame⟩
  · intro q hq
    rcases hu.mem_cases hg rfl hq with ⟨hq, _⟩ | rfl
    · exact ⟨q, hq, restates_self⟩
    · exact ⟨g.payment, hg, rfl, rfl, rfl, fun _ h => h⟩
  · exact restated_of_eq hsame

theorem completed_applied (hk : Kept db) (h : Completed db db' g actor c) :
    appliedChargebacks db' i = appliedChargebacks db i := by
  rcases completed_lines h with hl | ⟨x, hx, hrev, hcb⟩
  · exact applied_congr hl
  · rw [applied_append hk hx hrev]
    simp [hcb]

theorem completed_respects (hk : Kept db) (hg : Graphed db i g) (hreq : isRequest g.request = true)
    (h : Completed db db' g actor c) : Respects db db' where
  payments := completed_restates hg.payment_mem h
  changes e he := by
    rcases h.appended.mem.mp he with he | rfl
    · exact Or.inl he
    · obtain ⟨_, hc⟩ := h.change
      refine Or.inr ⟨fun _ => ?_, fun _ p hp hown => ?_⟩
      · rw [hc]
        exact hk.positive g.request (Table.find?_eq_some.mp hg.request).1 (Or.inl hreq)
      · obtain rfl : p = g.payment := by
          have he : g.payment.id = p.id := by simpa [hc, completion] using hown
          exact Table.eq_of_id hp hg.payment_mem he.symm
        rw [hc, h.home]
        rfl
  lines l hl := by
    rcases completed_lines h with he | ⟨x, hx, _, hcb⟩
    · exact Or.inl (he ▸ hl)
    · rcases hx.mem.mp hl with hl | rfl
      · exact Or.inl hl
      · exact Or.inr (by simp [hcb])
  reverses := by
    rcases completed_lines h with he | ⟨x, hx, hrev, _⟩
    · rw [he]
      exact hk.reverses
    · exact Folio.traced_append hk.reverses hx (by simp [hrev])
  attempts := by rw [h.frame]

theorem completed_amount (h : Completed db db' g actor c) :
    completed db' i = completed db i + if g.payment.id = i then g.request.amountMinor else 0 := by
  obtain ⟨_, hc⟩ := h.change
  have hcomp : isCompletion c = true := by rw [hc]; rfl
  have hown : c.paymentId = some g.payment.id := by rw [hc]; rfl
  have hamt : c.amountMinor = g.request.amountMinor := by rw [hc]; rfl
  rw [completed_append h.appended, hcomp, hown, hamt]
  simp

theorem complete_step (hk : Kept db) (hw : Within db) (hg : Graphed db i g)
    (hreq : isRequest g.request = true) (h : Completed db db' g actor c)
    (hcheck : appliedChargebacks db g.payment.id ≤ lostChargebacks db g.payment.id) :
    Kept db' ∧ Within db' := by
  have hr := completed_respects hk hg hreq h
  refine ⟨kept_of_respects hk hr, within_same hw hr.payments fun p hp => ?_⟩
  rw [completed_amount h, completed_applied hk h]
  by_cases hid : g.payment.id = p.id
  · obtain rfl : g.payment = p := Table.eq_of_id hg.payment_mem hp hid
    have hle := h.within
    simp only [exceeds, completedForPayment_eq hk hp h.home, decide_eq_false_iff_not,
      not_lt] at hle
    have hpos := hk.positive g.request (Table.find?_eq_some.mp hg.request).1 (Or.inl hreq)
    have hnn : 0 ≤ completed db g.payment.id := completed_nonneg hk
    simp only [if_true]
    omega
  · simp [hid]

theorem found_mem {event : ProviderEvent} {remote : DisputeFacts} {g : Graph}
    (h : Found db event remote g) : g.attempt ∈ db.paymentAttempts.rows ∧
      g.payment ∈ db.payments.rows ∧ sameIdentity g.attempt g.payment := by
  obtain ⟨ha, hid⟩ := Table.first?_some h.attempt
  obtain ⟨hp, hown⟩ := Table.first?_some h.payment
  simp only [Bool.and_eq_true, beq_iff_eq] at hid hown
  exact ⟨ha, hp, hown.1.1.1, hown.1.1.2, hown.1.2, hown.2.trans hid.2.symm⟩

theorem found_home {event : ProviderEvent} {remote : DisputeFacts} {g : Graph} (hk : Kept db)
    (h : Found db event remote g) : g.payment.reservationId = g.reservation.id := by
  obtain ⟨ha, hp, hs⟩ := found_mem h
  rw [Folio.reservation_id_eq h.reservation]
  exact (hk.linked _ ha _ hp hs).symm

theorem respects_line (hk : Kept t) (hx : Table.Appends t.folioLines db'.folioLines x)
    (hcb : isChargeback x = true → 0 < x.netAmountMinor)
    (hrev : ∀ i, x.reversesFolioLineId = some i → ∃ m, t.folioLines.find? i = some m)
    (hp : db'.payments = t.payments) (hc : db'.changes = t.changes)
    (ha : db'.paymentAttempts = t.paymentAttempts) : Respects t db' where
  payments := restated_of_eq hp
  changes e he := Or.inl (hc ▸ he)
  lines l hl := by
    rcases hx.mem.mp hl with hl | rfl
    · exact Or.inl hl
    · exact Or.inr fun h _ => hcb h
  reverses := Folio.traced_append hk.reverses hx hrev
  attempts := ha

theorem kept_frame (hk : Kept db) (hp : t.payments = db.payments) (hc : t.changes = db.changes)
    (hl : t.folioLines = db.folioLines) (ha : t.paymentAttempts = db.paymentAttempts) :
    Kept t :=
  kept_of_respects hk
    { payments := restated_of_eq hp
      changes := fun e he => Or.inl (hc ▸ he)
      lines := fun l h => Or.inl (hl ▸ h)
      reverses := by rw [hl]; exact hk.reverses
      attempts := ha }

theorem within_frame (hw : Within db) (hp : t.payments = db.payments)
    (hc : t.changes = db.changes) (hl : t.folioLines = db.folioLines) : Within t := by
  intro p hmem
  rw [completed_congr hc, applied_congr hl]
  exact hw p (hp ▸ hmem)

theorem charged_step {d : ProviderDispute} {r home : Reservation} (hk : Kept t) (hw : Within t)
    (hp : p ∈ t.payments.rows) (hr : p.reservationId = r.id)
    (hpos : 0 < chargebackAmount t d r p)
    (hc : Charges t db' d .applied (Folio.line home (Folio.adjustmentDraft p .refund
      "Provider chargeback settled against the property" (chargebackAmount t d r p)
      (chargebackMetadata d)) t.clock t.folioLines.next)) : Kept db' ∧ Within db' := by
  have hpay : db'.payments = t.payments := by rw [hc.frame]
  have hchanges : db'.changes = t.changes := by rw [hc.frame]
  have hatt : db'.paymentAttempts = t.paymentAttempts := by rw [hc.frame]
  have hnet : (Folio.line home (Folio.adjustmentDraft p .refund
      "Provider chargeback settled against the property" (chargebackAmount t d r p)
      (chargebackMetadata d)) t.clock t.folioLines.next).netAmountMinor =
        chargebackAmount t d r p := Folio.lineAmount_thousand _
  have hresp := respects_line hk hc.line (fun _ => by rw [hnet]; exact hpos)
    (by intro i hi; cases hi) hpay hchanges hatt
  refine ⟨kept_of_respects hk hresp, ?_⟩
  intro q hq
  have hq : q ∈ t.payments.rows := hpay ▸ hq
  rw [completed_congr hchanges, applied_append hk hc.line rfl, hnet]
  have h := hw q hq
  by_cases hid : p.id = q.id
  · obtain rfl : p = q := Table.eq_of_id hp hq hid
    have hle : chargebackAmount t d r p ≤
        max 0 (p.amountMinor - completedForPayment t r p.id - appliedChargebacks t p.id) :=
      min_le_right _ _
    rw [completedForPayment_eq hk hp hr] at hle
    split_ifs
    · omega
    · omega
  · have hown : (Folio.line home (Folio.adjustmentDraft p .refund
        "Provider chargeback settled against the property" (chargebackAmount t d r p)
        (chargebackMetadata d)) t.clock t.folioLines.next).paymentId ≠ some q.id := by
      simpa [Folio.line, Folio.adjustmentDraft] using hid
    simpa [hown] using h

theorem credited_step {d : ProviderDispute} {home : Reservation} (hk : Kept t) (hw : Within t)
    (hl : l ∈ t.folioLines.rows)
    (hc : Charges t db' d .reversed (Folio.line home (Folio.reversalDraft l reason actor) t.clock
      t.folioLines.next)) : Kept db' ∧ Within db' := by
  have hpay : db'.payments = t.payments := by rw [hc.frame]
  have hchanges : db'.changes = t.changes := by rw [hc.frame]
  have hatt : db'.paymentAttempts = t.paymentAttempts := by rw [hc.frame]
  have hrev : ∀ i, (Folio.line home (Folio.reversalDraft l reason actor) t.clock
      t.folioLines.next).reversesFolioLineId = some i → ∃ m, t.folioLines.find? i = some m := by
    intro i hi
    obtain rfl : l.id = i := by simpa [Folio.line, Folio.reversalDraft] using hi
    exact ⟨l, Table.find?_eq_some.mpr ⟨hl, rfl⟩⟩
  have hresp := respects_line hk hc.line (by intro h; cases h) hrev hpay hchanges hatt
  refine ⟨kept_of_respects hk hresp, ?_⟩
  intro q hq
  have h := hw q (hpay ▸ hq)
  have hle : appliedChargebacks db' q.id ≤ appliedChargebacks t q.id :=
    applied_append_reversal hk hc.line rfl
  rw [completed_congr hchanges]
  omega

theorem dispute_step {event : ProviderEvent} {remote : DisputeFacts} {d : ProviderDispute}
    (hk : Kept db) (hw : Within db)
    (h : Commits (RecordProviderDispute.handle event remote) db d db') :
    Kept db' ∧ Within db' := by
  obtain ⟨g, e, n, s, t, h, _⟩ := RecordProviderDispute.commits_handle h
  have hp : t.payments = db.payments := by rw [h.frame]
  have hc : t.changes = db.changes := by rw [h.frame]
  have hl : t.folioLines = db.folioLines := by rw [h.frame]
  have ha : t.paymentAttempts = db.paymentAttempts := by rw [h.frame]
  have hkt := kept_frame hk hp hc hl ha
  have hwt := within_frame hw hp hc hl
  have hquiet : ∀ s, Marks t db' (refreshed remote n e) s → Kept db' ∧ Within db' := by
    intro s hm
    have hf := hm.frame
    exact ⟨kept_frame hkt (by rw [hf]) (by rw [hf]) (by rw [hf]) (by rw [hf]),
      within_frame hwt (by rw [hf]) (by rw [hf]) (by rw [hf])⟩
  cases h.impact with
  | kept _ _ _ hu => exact hu ▸ ⟨hkt, hwt⟩
  | suspended _ hm => exact hquiet _ hm
  | emptied _ _ _ hm => exact hquiet _ hm
  | debited _ _ hpos home _ hcharge =>
    exact charged_step hkt hwt (hp ▸ (found_mem h.found).2.1) (found_home hk h.found) hpos hcharge
  | credited _ l hline _ _ home _ hcharge =>
    exact credited_step hkt hwt (chargebackLine_mem hline).1 hcharge

end Steps
section Runs

inductive Movement
  | request (reservationId paymentId : ℕ) (amountMinor : ℤ) (reason : String)
  | complete (requestId : ℕ) (reference : String) (actorId : Option ℕ)
  | fail (requestId : ℕ) (reason : String)
  | dispute (event : ProviderEvent) (remote : DisputeFacts)
  | elsewhere (result : Database)

def Movement.run : Movement → Tx Unit
  | request i j amount reason => LedgerRuns.quietly (RequestRefund.handle i j amount reason)
  | complete i reference actor => LedgerRuns.quietly (CompleteRefund.handle i reference actor)
  | fail i reason => LedgerRuns.quietly (CompleteRefund.fail i reason)
  | dispute event remote => LedgerRuns.quietly (RecordProviderDispute.handle event remote)
  | elsewhere result => set result

structure Untouched (db result : Database) : Prop where
  payments : result.payments = db.payments
  changes : result.changes = db.changes
  lines : result.folioLines = db.folioLines
  attempts : result.paymentAttempts = db.paymentAttempts
  disputes : result.disputes = db.disputes

def Movement.Honest (m : Movement) (db : Database) : Prop :=
  match m with
  | elsewhere result => Untouched db result
  | _ => True

-- The disputes a completion looks at account for the chargeback lines that stand.
def accounted (db : Database) (paymentId : ℕ) : Bool :=
  decide (appliedChargebacks db paymentId ≤ lostChargebacks db paymentId)

def Movement.Checked (m : Movement) (db : Database) : Prop :=
  match m with
  | complete i _ _ => ∀ g, Graphed db i g → completion? db g.request.id = none →
      accounted db g.payment.id = true
  | elsewhere result => Untouched db result
  | _ => True

theorem run_step {m : Movement} (hk : Kept db) (hw : Within db) (ha : m.Checked db)
    (h : Commits m.run db () db') : Kept db' ∧ Within db' := by
  cases m with
  | request i j amount reason =>
    obtain ⟨_, h⟩ := LedgerRuns.commits_quietly h
    exact request_step hk hw h
  | complete i reference actor =>
    obtain ⟨_, h⟩ := LedgerRuns.commits_quietly h
    obtain ⟨g, hg, hreq, ⟨_, rfl⟩ | ⟨hn, h⟩⟩ := CompleteRefund.commits_handle h
    · exact ⟨hk, hw⟩
    · exact complete_step hk hw hg hreq h (of_decide_eq_true (ha g hg hn))
  | fail i reason =>
    obtain ⟨_, h⟩ := LedgerRuns.commits_quietly h
    exact fail_step hk hw h
  | dispute event remote =>
    obtain ⟨_, h⟩ := LedgerRuns.commits_quietly h
    exact dispute_step hk hw h
  | elsewhere result =>
    obtain rfl : result = db' := by simpa [Movement.run] using h
    have hu : Untouched db result := ha
    exact ⟨kept_frame hk hu.payments hu.changes hu.lines hu.attempts,
      within_frame hw hu.payments hu.changes hu.lines⟩

theorem checked_runs_stay_within {s t : Database} (hs : Opening s)
    (h : Reaches Movement.run Movement.Checked s t) : Within t :=
  (h.invariant (I := fun db => Kept db ∧ Within db) ⟨kept_of_opening hs, within_of_opening hs⟩
    fun _ _ _ hs ha hc => run_step hs.1 hs.2 ha hc).2

end Runs

section Scenario

def attempt (i : ℕ) : PaymentAttempt where
  id := i
  propertyId := 0
  reservationId := 0
  paymentRequestId := 0
  integrationConnectionId := 0
  provider := "mercado_pago"
  environment := .production
  providerAccount := "lodge-account"
  externalReference := "attempt-0"
  state := .approved
  sourceAmountMinor := 10000
  sourceCurrency := "USD"
  chargeAmountMinor := 10000
  chargeCurrency := "USD"
  providerPaymentId := some "pay-0"

def lateFunds (i : ℕ) : Payment where
  id := i
  reservationId := 0
  status := .succeeded
  method := "mercado_pago_checkout_pro"
  channel := .onlineCheckout
  entryMode := .providerReported
  origin := .provider
  provider := some "mercado_pago"
  environment := some .production
  providerAccount := some "lodge-account"
  providerReference := some "pay-0"
  currency := "USD"
  amountMinor := 10000
  metadata := { paymentAttemptId := some 0, unappliedDirectBookingFunds := true }

def paid : Database :=
  { LedgerRuns.opening with
    paymentAttempts := Table.empty.insert attempt
    payments := Table.empty.insert lateFunds
    folioLines := Table.empty.insert
      (Folio.line (LedgerRuns.stay 0) (Folio.paymentDraft (lateFunds 0) none) 0) }

def webhook (resourceId : String) : ProviderEvent where
  id := 0
  integrationConnectionId := 0
  provider := "mercado_pago"
  environment := .production
  providerAccount := "lodge-account"
  resourceId := resourceId
  topic := "topic_chargebacks_wh"
  processingState := .processing

def chargeback (amountMinor : ℤ) (detail : String) : DisputeFacts where
  id := "chargeback-0"
  providerPaymentId := "pay-0"
  status := "closed"
  statusDetail := some detail
  amountMinor := amountMinor
  currency := "USD"
  providerAccount := "lodge-account"

def delivered (amountMinor : ℤ) (detail : String) : Movement :=
  .dispute (webhook "chargeback-0") (chargeback amountMinor detail)

theorem paid_opening : Opening paid where
  amounts := by decide
  changes := by simp [paid, LedgerRuns.opening, Table.empty]
  lines := by decide
  reverses := by
    have hn : ∀ l ∈ paid.folioLines.rows, l.reversesFolioLineId = none := by decide
    intro l hl i hi
    simp [hn l hl] at hi
  linked := by
    have hn : ∀ a ∈ paid.paymentAttempts.rows, ∀ p ∈ paid.payments.rows,
        a.reservationId = p.reservationId := by decide
    exact fun a ha p hp _ => hn a ha p hp

def openCompletion (db : Database) (i : ℕ) : Option RequestGraph :=
  match (lockRequestGraph i).run db with
  | .ok (g, _) => if (completion? db g.request.id).isNone then some g else none
  | .error _ => none

def checkedly (m : Movement) (db : Database) : Bool :=
  match m with
  | .complete i _ _ => (openCompletion db i).all fun g => accounted db g.payment.id
  | .elsewhere _ => false
  | _ => true

theorem checked_of_checkedly {m : Movement} {db : Database} (h : checkedly m db = true) :
    m.Checked db := by
  cases m with
  | elsewhere _ => cases h
  | complete i reference actor =>
    intro g hg hn
    have hrun : (lockRequestGraph i).run db = .ok (g, db) :=
      commits_lockRequestGraph.mpr ⟨hg, rfl⟩
    simpa [checkedly, openCompletion, hrun, hn] using h
  | _ => trivial

def plainly : Movement → Bool
  | .elsewhere _ => false
  | _ => true

theorem honest_of_plainly {m : Movement} {db : Database} (h : plainly m = true) :
    m.Honest db := by
  cases m with
  | elsewhere _ => cases h
  | _ => trivial

theorem checked_run_gives_back_the_rest : ∃ t, Reaches Movement.run Movement.Checked paid t ∧
    completed t 0 = 4000 ∧ appliedChargebacks t 0 = 6000 ∧ Within t := by
  obtain ⟨t, hr, hp⟩ : ∃ t, Reaches Movement.run Movement.Checked paid t ∧
      decide (completed t 0 = 4000 ∧ appliedChargebacks t 0 = 6000) = true :=
    Reaches.exists_of_execute (fun _ _ => checked_of_checkedly)
      [.request 0 0 4000 "Left early", delivered 6000 "settled", .complete 0 "refund-0" none]
      (by decide)
  have hp := of_decide_eq_true hp
  exact ⟨t, hr, hp.1, hp.2, checked_runs_stay_within paid_opening hr⟩

-- Under review the dispute no longer counts as lost, but its line still stands.
theorem reviewed_chargeback_overdraws : Opening paid ∧
    ∃ t, Reaches Movement.run Movement.Honest paid t ∧ ¬ Within t := by
  obtain ⟨t, hr, hp⟩ : ∃ t, Reaches Movement.run Movement.Honest paid t ∧
      decide (lateFunds 0 ∈ t.payments.rows ∧
        10000 < completed t 0 + appliedChargebacks t 0) = true :=
    Reaches.exists_of_execute (fun _ _ => honest_of_plainly)
      [.request 0 0 6000 "Left early", delivered 6000 "settled", delivered 6000 "in_process",
        .complete 0 "refund-0" none]
      (by decide)
  obtain ⟨hmem, hlt⟩ := of_decide_eq_true hp
  refine ⟨paid_opening, t, hr, fun hw => ?_⟩
  have hle : completed t 0 + appliedChargebacks t 0 ≤ 10000 := hw (lateFunds 0) hmem
  omega

end Scenario
end Outflow
