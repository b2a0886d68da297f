import LodgeOps.Ledger.Outflow

namespace DisputeEffect
open Schema Transaction RecordProviderDispute

section Setting

structure Channel where
  connectionId : ℕ
  provider : String
  environment : Environment
  providerAccount : String
  paymentId : String
  disputeId : String

structure Belongs (k : Channel) (event : ProviderEvent) (remote : DisputeFacts) : Prop where
  connection : event.integrationConnectionId = k.connectionId
  provider : event.provider = k.provider
  environment : event.environment = k.environment
  account : event.providerAccount = k.providerAccount
  payment : remote.providerPaymentId = k.paymentId
  dispute : remote.id = k.disputeId

def paidOn (k : Channel) (a : PaymentAttempt) : Bool :=
  a.integrationConnectionId == k.connectionId && a.provider == k.provider &&
    a.environment == k.environment && a.providerAccount == k.providerAccount &&
    a.providerPaymentId == some k.paymentId

def isDispute (k : Channel) (a : PaymentAttempt) (d : ProviderDispute) : Bool :=
  d.provider == a.provider && d.environment == a.environment &&
    d.providerAccount == a.providerAccount && d.providerDisputeId == k.disputeId

-- One disputed payment with an open folio and no refund.
structure Setting (k : Channel) (a : PaymentAttempt) (r : Reservation) (p : Payment)
    (db : Database) : Prop where
  attempt : db.paymentAttempts.first? (paidOn k) = some a
  reservation : db.reservation? a.reservationId = some r
  payment : recordedFor? db a k.paymentId = some p
  home : p.reservationId = r.id
  opened : r.folioStatus ≠ .closed
  unrefunded : CompleteRefund.completedForPayment db r p.id = 0

def names (i : ℕ) (l : FolioLine) : Bool :=
  isChargeback l && l.metadata.providerDisputeId == some i

def undoes (lines : Table FolioLine) (i : ℕ) (l : FolioLine) : Bool :=
  (l.reversesFolioLineId.bind lines.find?).any (names i)

def effect (db : Database) (i : ℕ) : ℤ :=
  db.folioLines.total fun l =>
    if names i l = true ∨ undoes db.folioLines i l = true then l.netAmountMinor else 0

structure Tracks (db : Database) (d : ProviderDispute) : Prop where
  lost : d.state = .lost → effect db d.id = d.amountMinor ∧ d.impactState = .applied
  won : d.state = .won → effect db d.id = 0

inductive Phase (r : Reservation) (db : Database) (i : ℕ) : Prop
  | uncharged (hn : ∀ l ∈ db.folioLines.rows, names i l = false) (he : effect db i = 0)
  | charged (l : FolioLine) (hl : l ∈ db.folioLines.rows) (hn : names i l = true)
      (hu : ∀ m ∈ db.folioLines.rows, names i m = true → m = l) (hr : l.reservationId = r.id)
      (ho : l.reversesFolioLineId = none) (hst : standing db l = true)
      (he : effect db i = l.netAmountMinor)
  | undone (l : FolioLine) (hl : l ∈ db.folioLines.rows) (hn : names i l = true)
      (hu : ∀ m ∈ db.folioLines.rows, names i m = true → m = l) (hr : l.reservationId = r.id)
      (hst : standing db l = false) (he : effect db i = 0)

structure Filed (db : Database) : Prop where
  reverses : Folio.Traced db.folioLines
  disputes : ∀ l ∈ db.folioLines.rows, ∀ i, names i l = true → i < db.disputes.next

structure Fresh (k : Channel) (a : PaymentAttempt) (r : Reservation) (p : Payment)
    (db : Database) : Prop extends Setting k a r p db, Filed db where
  undisputed : ∀ d ∈ db.disputes.rows, isDispute k a d = false
  uncharged : ∀ l ∈ db.folioLines.rows, isChargeback l = true → l.paymentId ≠ some p.id

structure Followed (k : Channel) (a : PaymentAttempt) (r : Reservation) (p : Payment)
    (db : Database) : Prop extends Setting k a r p db, Filed db where
  unique : ∀ d ∈ db.disputes.rows, ∀ e ∈ db.disputes.rows, isDispute k a d = true →
    isDispute k a e = true → d = e
  phase : ∀ d ∈ db.disputes.rows, isDispute k a d = true → Phase r db d.id
  charges : ∀ l ∈ db.folioLines.rows, isChargeback l = true → l.paymentId = some p.id →
    ∃ d ∈ db.disputes.rows, isDispute k a d = true ∧ names d.id l = true

-- A loss that the code can still follow: nothing charged yet, or exactly this much applied.
def Followable (k : Channel) (a : PaymentAttempt) (db : Database) (remote : DisputeFacts) : Prop :=
  state remote = .lost → ∀ d ∈ db.disputes.rows, isDispute k a d = true →
    ∀ l ∈ db.folioLines.rows, names d.id l = true →
      standing db l = true ∧ l.netAmountMinor = remote.amountMinor ∧ d.impactState = .applied

end Setting

variable {k : Channel} {a : PaymentAttempt} {r : Reservation} {p : Payment} {db db' t u : Database}
variable {d : ProviderDispute} {l x : FolioLine} {i : ℕ}

theorem followed_of_fresh (h : Fresh k a r p db) : Followed k a r p db where
  toSetting := h.toSetting
  toFiled := h.toFiled
  unique d hd _ _ hm := by simp [h.undisputed d hd] at hm
  phase d hd hm := by simp [h.undisputed d hd] at hm
  charges l hl hcb hp := absurd hp (h.uncharged l hl hcb)

section Effects

theorem undoes_append (hf : Folio.Traced db.folioLines) (hx : Table.Appends db.folioLines db'.folioLines x)
    (hl : l ∈ db.folioLines.rows) : undoes db'.folioLines i l = undoes db.folioLines i l := by
  unfold undoes
  cases hr : l.reversesFolioLineId with
  | none => rfl
  | some j =>
    obtain ⟨m, hm⟩ := hf l hl j hr
    simp [hm, hx.find?_old hm]

theorem effect_append (hf : Folio.Traced db.folioLines) (hx : Table.Appends db.folioLines db'.folioLines x) :
    effect db' i = effect db i +
      if names i x = true ∨ undoes db'.folioLines i x = true then x.netAmountMinor else 0 := by
  unfold effect
  rw [hx.total]
  congr 1
  exact Table.total_congr fun l hl => by rw [undoes_append hf hx hl]

theorem effect_of_unnamed (hf : Folio.Traced db.folioLines) (hn : ∀ l ∈ db.folioLines.rows, names i l = false) :
    effect db i = 0 := by
  refine Table.total_eq_zero fun l hl => ?_
  have hu : undoes db.folioLines i l = false := by
    unfold undoes
    cases hr : l.reversesFolioLineId with
    | none => rfl
    | some j =>
      obtain ⟨m, hm⟩ := hf l hl j hr
      simp [hm, hn m (Table.find?_eq_some.mp hm).1]
  simp [hn l hl, hu]

theorem phase_of_unnamed (hf : Folio.Traced db.folioLines) (hn : ∀ l ∈ db.folioLines.rows, names i l = false) :
    Phase r db i :=
  .uncharged hn (effect_of_unnamed hf hn)

theorem chargebackLine_none (hn : ∀ l ∈ db.folioLines.rows, names i l = false) :
    chargebackLine? db r.id i = none := by
  refine Table.oldest?_eq_none.mpr fun l hl => ?_
  have h := hn l hl
  simp only [names, Bool.and_eq_false_iff] at h
  rcases h with h | h
  · simp [h]
  · simp [h]

theorem chargebackLine_some (hl : l ∈ db.folioLines.rows) (hn : names i l = true)
    (hu : ∀ m ∈ db.folioLines.rows, names i m = true → m = l) (hr : l.reservationId = r.id) :
    chargebackLine? db r.id i = some l := by
  cases hc : chargebackLine? db r.id i with
  | none =>
    have h := Table.oldest?_eq_none.mp hc l hl
    simp only [names, Bool.and_eq_true] at hn
    simp [hr, hn.1, hn.2] at h
  | some m =>
    obtain ⟨hm, _, hd, hcb⟩ := chargebackLine_mem hc
    rw [hu m hm (by simp [names, hcb, hd])]

theorem phase_congr (h : db'.folioLines = db.folioLines) (hp : Phase r db i) : Phase r db' i := by
  have he : effect db' i = effect db i := by
    unfold effect
    rw [h]
  have hs : ∀ l, standing db' l = standing db l := by
    intro l
    unfold standing Folio.reversal?
    rw [h]
  cases hp with
  | uncharged hn hz => exact .uncharged (by rwa [h]) (he.trans hz)
  | charged l hl hn hu hr ho hst hz =>
    exact .charged l (by rwa [h]) hn (by rwa [h]) hr ho ((hs l).trans hst) (he.trans hz)
  | undone l hl hn hu hr hst hz =>
    exact .undone l (by rwa [h]) hn (by rwa [h]) hr ((hs l).trans hst) (he.trans hz)

end Effects
section Delivery
variable {event : ProviderEvent} {remote : DisputeFacts} {g : Graph} {n : ℕ}
variable {s : Database} {e : ProviderDispute}

theorem found_eq (hs : Setting k a r p db) (hb : Belongs k event remote)
    (h : Found db event remote g) : g.attempt = a ∧ g.reservation = r ∧ g.payment = p := by
  have ha : g.attempt = a := by
    have he : disputedAttempt? db event remote.providerPaymentId =
        db.paymentAttempts.first? (paidOn k) := by
      unfold disputedAttempt? paidOn
      rw [hb.connection, hb.provider, hb.environment, hb.account, hb.payment]
    have hg := h.attempt
    rw [he, hs.attempt] at hg
    exact (Option.some.inj hg).symm
  have hr := h.reservation
  have hp := h.payment
  rw [ha, hs.reservation] at hr
  rw [ha, hb.payment, hs.payment] at hp
  exact ⟨ha, (Option.some.inj hr).symm, (Option.some.inj hp).symm⟩

theorem dispute?_eq (hd : remote.id = k.disputeId) :
    dispute? db a remote.id = db.disputes.first? (isDispute k a) := by
  unfold dispute? isDispute
  rw [hd]

-- The row a delivery works on is the only one of this dispute, and nothing else is charged.
structure Working (k : Channel) (a : PaymentAttempt) (r : Reservation) (db s : Database)
    (d : ProviderDispute) : Prop where
  mine : isDispute k a d = true
  only : ∀ e ∈ s.disputes.rows, isDispute k a e = true → e.id = d.id
  row : s.disputes.find? d.id = some d
  grown : db.disputes.next ≤ s.disputes.next
  phase : Phase r db d.id
  known : d ∈ db.disputes.rows ∨ ∀ l ∈ db.folioLines.rows, names d.id l = false
  old : ∀ e ∈ db.disputes.rows, isDispute k a e = true → e = d

theorem working_of_opened (hf : Followed k a r p db) (hd : remote.id = k.disputeId)
    (ha : g.attempt = a) (h : Opened db s g remote d) : Working k a r db s d := by
  have hrow := h.row
  rw [ha, dispute?_eq hd] at hrow
  rcases hrow with ⟨hsome, hs⟩ | ⟨hnone, hd', happ⟩
  · obtain ⟨hmem, hmine⟩ := Table.first?_some hsome
    have hall : ∀ e ∈ db.disputes.rows, isDispute k a e = true → e = d :=
      fun e he hm => hf.unique e he d hmem hm hmine
    refine ⟨hmine, ?_, ?_, by rw [hs], hf.phase d hmem hmine, Or.inl hmem, hall⟩
    · rw [hs]
      exact fun e he hm => congrArg _ (hall e he hm)
    · rw [hs]
      exact Table.find?_eq_some.mpr ⟨hmem, rfl⟩
  · have hno := Table.first?_eq_none.mp hnone
    have hid : d.id = db.disputes.next := happ.id
    have hun : ∀ l ∈ db.folioLines.rows, names d.id l = false := by
      intro l hl
      by_contra hc
      have hlt := hf.disputes l hl d.id (by simpa using hc)
      omega
    refine ⟨?_, ?_, happ.find?_new, by rw [happ.next]; omega, phase_of_unnamed hf.reverses hun,
      Or.inr hun, fun e he hm => by simp [hno e he] at hm⟩
    · simp [hd', isDispute, opening, hd]
    · intro e he hm
      rcases happ.mem.mp he with he | rfl
      · simp [hno e he] at hm
      · rfl

theorem applied_zero (hf : Followed k a r p db) (hw : Working k a r db s d)
    (hn : ∀ l ∈ db.folioLines.rows, names d.id l = false) :
    appliedChargebacks db p.id = 0 := by
  refine Table.total_eq_zero fun l hl => ?_
  by_cases hc : isChargeback l = true ∧ l.paymentId = some p.id
  · obtain ⟨e, he, hm, hname⟩ := hf.charges l hl hc.1 hc.2
    rw [hw.old e he hm, hn l hl] at hname
    cases hname
  · have hf : (l.paymentId == some p.id && isChargeback l && standing db l) = false := by
      rw [Bool.and_eq_false_iff, Bool.and_eq_false_iff]
      by_cases h1 : l.paymentId = some p.id
      · exact Or.inl (Or.inr (by simpa using fun h2 => hc ⟨h2, h1⟩))
      · exact Or.inl (Or.inl (by simpa using h1))
    simp [hf]

theorem followable_of_unnamed (hw : Working k a r db s d)
    (hn : ∀ l ∈ db.folioLines.rows, names d.id l = false) : Followable k a db remote := by
  intro _ e he hm l hl hname
  rw [hw.old e he hm, hn l hl] at hname
  cases hname

theorem followable_iff (hw : Working k a r db s d) (hl : l ∈ db.folioLines.rows)
    (hn : names d.id l = true) (hu : ∀ m ∈ db.folioLines.rows, names d.id m = true → m = l)
    (hs : state remote = .lost) : Followable k a db remote ↔
      standing db l = true ∧ l.netAmountMinor = remote.amountMinor ∧ d.impactState = .applied := by
  have hmem : d ∈ db.disputes.rows := by
    rcases hw.known with h | h
    · exact h
    · simp [h l hl] at hn
  constructor
  · exact fun h => h hs d hmem hw.mine l hl hn
  · intro h _ e he hm m hm' hname
    obtain rfl := hw.old e he hm
    rw [hu m hm' hname]
    exact h

-- What one delivery leaves behind: the phase the lines are in and whether they tell the truth.
structure Outcome (k : Channel) (a : PaymentAttempt) (r : Reservation) (db u : Database)
    (remote : DisputeFacts) (e : ProviderDispute) : Prop where
  phase : Phase r u e.id
  tracks : Tracks u e ↔ Followable k a db remote

theorem tracks_of_quiet (hl : e.state ≠ .lost) (hw : e.state ≠ .won) : Tracks db e :=
  ⟨fun h => absurd h hl, fun h => absurd h hw⟩

theorem followable_of_ne (h : state remote ≠ .lost) : Followable k a db remote :=
  fun hs => absurd hs h

theorem outcome_kept (hw : Working k a r db s d) (hlines : u.folioLines = db.folioLines)
    (hid : e.id = d.id) (hst : e.state = state remote) (hamt : e.amountMinor = remote.amountMinor)
    (himp : e.impactState = d.impactState) (hpos : 0 < remote.amountMinor)
    (hlost : e.state = .lost → chargebackLine? u r.id d.id ≠ none)
    (hwon : e.state = .won → ∀ l, chargebackLine? u r.id d.id = some l → standing u l = false) :
    Outcome k a r db u remote e where
  phase := hid ▸ phase_congr hlines hw.phase
  tracks := by
    have hp : Phase r u d.id := phase_congr hlines hw.phase
    have hs : ∀ l, standing u l = standing db l := by
      intro l
      unfold standing Folio.reversal?
      rw [hlines]
    by_cases hl : state remote = .lost
    · cases hp with
      | uncharged hn _ => exact absurd (chargebackLine_none hn) (hlost (hst.trans hl))
      | charged l hmem hn hu hr _ hstand he =>
        rw [followable_iff hw (hlines ▸ hmem) hn (hlines ▸ hu) hl, ← hs]
        constructor
        · intro ht
          obtain ⟨heff, happ⟩ := ht.lost (hst.trans hl)
          rw [hid, he, hamt] at heff
          exact ⟨hstand, heff, himp ▸ happ⟩
        · rintro ⟨_, hnet, happ⟩
          refine ⟨fun _ => ⟨?_, himp.trans happ⟩, fun h => ?_⟩
          · rw [hid, he, hamt, hnet]
          · rw [hst, hl] at h
            cases h
      | undone l hmem hn hu hr hstand he =>
        rw [followable_iff hw (hlines ▸ hmem) hn (hlines ▸ hu) hl, ← hs, hstand]
        constructor
        · intro ht
          obtain ⟨heff, _⟩ := ht.lost (hst.trans hl)
          rw [hid, he, hamt] at heff
          omega
        · rintro ⟨h, _⟩
          cases h
    · refine ⟨fun _ => followable_of_ne hl, fun _ => ⟨fun h => absurd (hst.symm.trans h) hl, ?_⟩⟩
      intro h
      rw [hid]
      cases hp with
      | uncharged _ he => exact he
      | charged l hmem hn hu hr _ hstand _ =>
        have hf := hwon h l (chargebackLine_some hmem hn hu hr)
        simp [hstand] at hf
      | undone _ _ _ _ _ _ he => exact he

theorem outcome_suspended (hw : Working k a r db s d) (hlines : u.folioLines = db.folioLines)
    (hid : e.id = d.id) (hst : e.state = state remote) (hrev : state remote = .underReview) :
    Outcome k a r db u remote e where
  phase := hid ▸ phase_congr hlines hw.phase
  tracks := by
    have h : Followable k a db remote := followable_of_ne (by simp [hrev])
    exact ⟨fun _ => h, fun _ => tracks_of_quiet (by simp [hst, hrev]) (by simp [hst, hrev])⟩

theorem unnamed_of_none (hw : Phase r db i) (hn : chargebackLine? db r.id i = none) :
    ∀ l ∈ db.folioLines.rows, names i l = false := by
  cases hw with
  | uncharged h _ => exact h
  | charged l hl hname hu hr =>
    rw [chargebackLine_some hl hname hu hr] at hn
    cases hn
  | undone l hl hname hu hr =>
    rw [chargebackLine_some hl hname hu hr] at hn
    cases hn

theorem chargeback_in_full {D : ProviderDispute} (hf : Followed k a r p db)
    (hw : Working k a r db s d) (hn : ∀ l ∈ db.folioLines.rows, names d.id l = false)
    (hlines : t.folioLines = db.folioLines) (hc : t.changes = db.changes)
    (hD : D.amountMinor = remote.amountMinor) (hle : remote.amountMinor ≤ p.amountMinor)
    (hpos : 0 < remote.amountMinor) : chargebackAmount t D r p = remote.amountMinor := by
  have hcomp : CompleteRefund.completedForPayment t r p.id = 0 := by
    have h := hf.unrefunded
    unfold CompleteRefund.completedForPayment at h ⊢
    rwa [hc]
  have happ : appliedChargebacks t p.id = 0 := by
    rw [Outflow.applied_congr hlines]
    exact applied_zero hf hw hn
  unfold chargebackAmount
  rw [hcomp, happ, hD]
  omega

theorem outcome_debited {home : Reservation} {D : ProviderDispute} {now : ℤ}
    (hf : Followed k a r p db)
    (hw : Working k a r db s d) (hn : ∀ l ∈ db.folioLines.rows, names d.id l = false)
    (hres : home.id = r.id) (hD : D.id = d.id)
    (hamt : chargebackAmount t D r p = remote.amountMinor)
    (hx : Table.Appends db.folioLines u.folioLines x)
    (hd : x = Folio.line home (Folio.adjustmentDraft p .refund
      "Provider chargeback settled against the property" (chargebackAmount t D r p)
      (chargebackMetadata D)) now i)
    (hid : e.id = d.id) (hst : e.state = .lost) (heamt : e.amountMinor = remote.amountMinor)
    (himp : e.impactState = .applied) : Outcome k a r db u remote e := by
  have hname : names d.id x = true := by
    simp [hd, names, Folio.line, Folio.adjustmentDraft, chargebackMetadata, isChargeback, hD]
  have hnet : x.netAmountMinor = remote.amountMinor := by
    rw [hd, ← hamt]
    exact Folio.lineAmount_thousand _
  have hrev : x.reversesFolioLineId = none := by rw [hd]; rfl
  have hxr : x.reservationId = r.id := by rw [hd, ← hres]; rfl
  have heff : effect u d.id = x.netAmountMinor := by
    rw [effect_append hf.reverses hx, effect_of_unnamed hf.reverses hn]
    simp [hname]
  refine ⟨hid ▸ .charged x hx.mem_new hname ?_ hxr hrev
    (Outflow.standing_append_new hf.reverses hx hrev) heff, ?_⟩
  · intro m hm hmn
    rcases hx.mem.mp hm with hm | rfl
    · simp [hn m hm] at hmn
    · rfl
  · refine ⟨fun _ => followable_of_unnamed hw hn, fun _ => ⟨fun _ => ⟨?_, himp⟩, fun h => ?_⟩⟩
    · rw [hid, heff, hnet, heamt]
    · rw [hst] at h
      cases h

theorem outcome_credited {reason : String} {actor : Option ℕ} {home : Reservation} {now : ℤ}
    (hf : Followed k a r p db) (hw : Working k a r db s d)
    (hline : chargebackLine? db r.id d.id = some l) (hstand : standing db l = true)
    (hx : Table.Appends db.folioLines u.folioLines x)
    (hd : x = Folio.line home (Folio.reversalDraft l reason actor) now i)
    (hid : e.id = d.id) (hst : e.state = .won) (hremote : state remote = .won) :
    Outcome k a r db u remote e := by
  have hxrev : x.reversesFolioLineId = some l.id := by rw [hd]; rfl
  have hxn : names d.id x = false := by rw [hd]; rfl
  have hxnet : x.netAmountMinor = -l.netAmountMinor := by
    rw [hd]
    exact Folio.lineAmount_thousand _
  obtain ⟨hmem, hres, hdid, hcb⟩ := chargebackLine_mem hline
  have hname : names d.id l = true := by simp [names, hcb, hdid]
  have hundo : undoes u.folioLines d.id x = true := by
    have hfind := hx.find?_old (Table.find?_eq_some.mpr ⟨hmem, rfl⟩)
    have hfind : u.folioLines.find? l.id = some l := hfind
    simp [undoes, hxrev, hfind, hname]
  have hold : effect db d.id = l.netAmountMinor ∧
      ∀ m ∈ db.folioLines.rows, names d.id m = true → m = l := by
    cases hw.phase with
    | uncharged hn _ => simp [hn l hmem] at hname
    | charged m hm hmn hu _ _ _ he =>
      obtain rfl := hu l hmem hname
      exact ⟨he, hu⟩
    | undone m hm hmn hu _ hs _ =>
      obtain rfl := hu l hmem hname
      simp [hs] at hstand
  have heff : effect u d.id = 0 := by
    rw [effect_append hf.reverses hx, hold.1, hxnet]
    simp [hundo]
  refine ⟨hid ▸ .undone l (hx.mem_old hmem) hname ?_ hres
    (Outflow.standing_append_reversed hx hxrev) heff, ?_⟩
  · intro m hm hmn
    rcases hx.mem.mp hm with hm | rfl
    · exact hold.2 m hm hmn
    · simp [hxn] at hmn
  · refine ⟨fun _ => followable_of_ne (by simp [hremote]), fun _ => ⟨fun h => ?_, fun _ => ?_⟩⟩
    · rw [hst] at h
      cases h
    · rw [hid, heff]

-- The one row of the dispute, as it stands.
structure Sole (k : Channel) (a : PaymentAttempt) (t : Database) (e : ProviderDispute) : Prop where
  mine : isDispute k a e = true
  row : t.disputes.find? e.id = some e
  only : ∀ m ∈ t.disputes.rows, isDispute k a m = true → m.id = e.id

theorem sole_update {f : ProviderDispute → ProviderDispute} (hs : Sole k a s d)
    (hu : Table.Updates s.disputes t.disputes d.id f) (hm : isDispute k a (f d) = true) :
    Sole k a t (f d) := by
  have hid : (f d).id = d.id := hu.keeps d
  obtain ⟨hmem, _⟩ := Table.find?_eq_some.mp hs.row
  refine ⟨hm, ?_, ?_⟩
  · rw [hid]
    exact hu.find?_self hs.row
  · intro m hmt hmine
    rcases hu.mem_cases hmem rfl hmt with ⟨hold, _⟩ | rfl
    · rw [hid]
      exact hs.only m hold hmine
    · rfl

theorem Sole.eq (hs : Sole k a t e) {m : ProviderDispute} (hm : m ∈ t.disputes.rows)
    (hmine : isDispute k a m = true) : m = e :=
  Table.eq_of_id hm (Table.find?_eq_some.mp hs.row).1 (hs.only m hm hmine)

structure Moved (db u : Database) (e : ProviderDispute) : Prop where
  attempts : u.paymentAttempts = db.paymentAttempts
  reservations : u.reservations = db.reservations
  payments : u.payments = db.payments
  changes : u.changes = db.changes
  next : db.disputes.next ≤ u.disputes.next
  lines : u.folioLines = db.folioLines ∨ ∃ x, Table.Appends db.folioLines u.folioLines x ∧
    (∀ i, x.reversesFolioLineId = some i → ∃ m, db.folioLines.find? i = some m) ∧
    (isChargeback x = true → names e.id x = true)

theorem Moved.mem_cases (hm : Moved db u e) (hl : l ∈ u.folioLines.rows) :
    l ∈ db.folioLines.rows ∨ (isChargeback l = true → names e.id l = true) := by
  rcases hm.lines with h | ⟨x, hx, _, hc⟩
  · exact Or.inl (h ▸ hl)
  · rcases hx.mem.mp hl with hl | rfl
    · exact Or.inl hl
    · exact Or.inr hc

theorem setting_of_frame (hs : Setting k a r p db) (ha : u.paymentAttempts = db.paymentAttempts)
    (hr : u.reservations = db.reservations) (hp : u.payments = db.payments)
    (hc : u.changes = db.changes) : Setting k a r p u where
  attempt := by rw [ha]; exact hs.attempt
  reservation := by
    rw [Database.reservation?_congr hr]
    exact hs.reservation
  payment := by
    unfold recordedFor? PaymentService.recorded?
    rw [hp]
    exact hs.payment
  home := hs.home
  opened := hs.opened
  unrefunded := by
    unfold CompleteRefund.completedForPayment
    rw [hc]
    exact hs.unrefunded

theorem filed_of_moved (hf : Filed db) (hm : Moved db u e) (hs : Sole k a u e) : Filed u where
  reverses := by
    rcases hm.lines with h | ⟨x, hx, hrev, _⟩
    · rw [h]
      exact hf.reverses
    · exact Folio.traced_append hf.reverses hx hrev
  disputes l hl i hn := by
    rcases hm.mem_cases hl with hold | hnew
    · exact (hf.disputes l hold i hn).trans_le hm.next
    · simp only [names, Bool.and_eq_true, beq_iff_eq] at hn hnew
      obtain rfl : e.id = i := Option.some.inj ((hnew hn.1).2.symm.trans hn.2)
      exact u.disputes.below e (Table.find?_eq_some.mp hs.row).1

theorem followed_of_moved (hf : Followed k a r p db) (hw : Working k a r db s d)
    (hm : Moved db u e) (hs : Sole k a u e) (hid : e.id = d.id) (hp : Phase r u e.id) :
    Followed k a r p u where
  toSetting := setting_of_frame hf.toSetting hm.attempts hm.reservations hm.payments hm.changes
  toFiled := filed_of_moved hf.toFiled hm hs
  unique m hmu n hnu hmm hnm := (hs.eq hmu hmm).trans (hs.eq hnu hnm).symm
  phase m hmu hmm := by rwa [hs.eq hmu hmm]
  charges l hl hcb hpay := by
    refine ⟨e, (Table.find?_eq_some.mp hs.row).1, hs.mine, ?_⟩
    rcases hm.mem_cases hl with hold | hnew
    · obtain ⟨m, hmem, hmine, hname⟩ := hf.charges l hold hcb hpay
      rwa [hid, ← hw.old m hmem hmine]
    · exact hnew hcb

section Landing
variable {v : ProviderDispute} {st : ProviderDisputeImpactState}

-- A transaction that leaves the row and the lines of the delivery where the impact step finds them.
structure Landed (k : Channel) (a : PaymentAttempt) (db t : Database) (v : ProviderDispute) :
    Prop where
  sole : Sole k a t v
  next : db.disputes.next ≤ t.disputes.next
  frame : t = { db with disputes := t.disputes, disputeRevisions := t.disputeRevisions }

theorem landed_of_delivered (hw : Working k a r db s d)
    (hd : Delivered db u event remote g d n s t) : Landed k a db t (refreshed remote n d) where
  sole := sole_update ⟨hw.mine, hw.row, hw.only⟩ hd.saved hw.mine
  next := hd.saved.next ▸ hw.grown
  frame := hd.frame

theorem Landed.moved (h : Landed k a db t v) : Moved db t e := by
  have hf := h.frame
  exact ⟨by rw [hf], by rw [hf], by rw [hf], by rw [hf], h.next, Or.inl (by rw [hf])⟩

theorem Landed.marked (h : Landed k a db t v) (hm : Marks t u v st) :
    Moved db u (impact st v) ∧ Sole k a u (impact st v) := by
  have hf := hm.frame
  have ht := h.frame
  refine ⟨⟨by rw [hf, ht], by rw [hf, ht], by rw [hf, ht], by rw [hf, ht], ?_, ?_⟩,
    sole_update h.sole hm.disputes h.sole.mine⟩
  · rw [hm.disputes.next]
    exact h.next
  · exact Or.inl (by rw [hf, ht])

theorem Landed.charged (h : Landed k a db t v) (hc : Charges t u v st x)
    (hrev : ∀ i, x.reversesFolioLineId = some i → ∃ m, db.folioLines.find? i = some m)
    (hname : isChargeback x = true → names v.id x = true) :
    Moved db u (impact st v) ∧ Sole k a u (impact st v) := by
  have hf := hc.frame
  have ht := h.frame
  have hl : t.folioLines = db.folioLines := by rw [ht]
  refine ⟨⟨by rw [hf, ht], by rw [hf, ht], by rw [hf, ht], by rw [hf, ht], ?_, ?_⟩,
    sole_update h.sole hc.disputes h.sole.mine⟩
  · rw [hc.disputes.next]
    exact h.next
  · exact Or.inr ⟨x, hl ▸ hc.line, hrev, hname⟩

theorem Sole.found (hs : Sole k a u v) (hv : v.id = i) (he : u.disputes.find? i = some e) :
    e = v := by
  have hrow := hs.row
  rw [hv, he] at hrow
  exact Option.some.inj hrow

end Landing

theorem delivery (hf : Followed k a r p db) (hb : Belongs k event remote)
    (h : Commits (handle event remote) db e u) :
    Outcome k a r db u remote e ∧ Sole k a u e ∧ Followed k a r p u := by
  obtain ⟨g, d, n, s, t, hd, he⟩ := commits_handle h
  obtain ⟨hga, hgr, hgp⟩ := found_eq hf.toSetting hb hd.found
  have hw := working_of_opened hf hb.dispute hga hd.opened
  have hland := landed_of_delivered hw hd
  have hlines : t.folioLines = db.folioLines := by rw [hd.frame]
  have hchanges : t.changes = db.changes := by rw [hd.frame]
  have hline : chargebackLine? t r.id d.id = chargebackLine? db r.id d.id := by
    unfold chargebackLine?
    rw [hlines]
  have hle := hd.within
  have himp := hd.impact
  rw [hgp] at hle
  rw [hgr, hgp] at himp
  cases himp with
  | kept _ hlost hwon hu =>
    rw [hu] at he ⊢
    obtain rfl := hland.sole.found rfl he
    have ho : Outcome k a r db t remote (refreshed remote n d) :=
      outcome_kept hw hlines rfl rfl rfl rfl hd.positive hlost hwon
    exact ⟨ho, hland.sole, followed_of_moved hf hw hland.moved hland.sole rfl ho.phase⟩
  | suspended hc hm =>
    obtain ⟨hmoved, hsole⟩ := hland.marked hm
    obtain rfl := hsole.found rfl he
    have hrev : state remote = .underReview := hc.resolve_right hf.opened
    have hsame : u.folioLines = db.folioLines := by rw [hm.frame, hlines]
    have ho : Outcome k a r db u remote (impact .pendingFinance (refreshed remote n d)) :=
      outcome_suspended hw hsame rfl rfl hrev
    exact ⟨ho, hsole, followed_of_moved hf hw hmoved hsole rfl ho.phase⟩
  | emptied _ hnone hz _ =>
    have hnone' : chargebackLine? db r.id d.id = none := hline ▸ hnone
    have hfull : chargebackAmount t (refreshed remote n d) r p = remote.amountMinor :=
      chargeback_in_full hf hw (unnamed_of_none hw.phase hnone') hlines hchanges rfl hle hd.positive
    have hpos := hd.positive
    omega
  | debited hs hnone _ home hhome hc =>
    have hnone' : chargebackLine? db r.id d.id = none := hline ▸ hnone
    have hun := unnamed_of_none hw.phase hnone'
    have hfull : chargebackAmount t (refreshed remote n d) r p = remote.amountMinor :=
      chargeback_in_full hf hw hun hlines hchanges rfl hle hd.positive
    obtain ⟨hmoved, hsole⟩ := hland.charged hc (by intro i hi; cases hi)
      (fun _ => by simp [names, Folio.line, Folio.adjustmentDraft, chargebackMetadata, isChargeback])
    obtain rfl := hsole.found rfl he
    have hhid : home.id = r.id := (Folio.reservation_id_eq hhome).trans hf.home
    have hx : Table.Appends db.folioLines u.folioLines _ := hlines ▸ hc.line
    have ho : Outcome k a r db u remote (impact .applied (refreshed remote n d)) :=
      outcome_debited (D := refreshed remote n d) hf hw hun hhid rfl hfull hx rfl rfl hs rfl rfl
    exact ⟨ho, hsole, followed_of_moved hf hw hmoved hsole rfl ho.phase⟩
  | credited hs l hl hst _ home _ hc =>
    obtain ⟨hmoved, hsole⟩ := hland.charged hc
      (by
        intro i hi
        obtain rfl : l.id = i := by simpa [Folio.line, Folio.reversalDraft] using hi
        exact ⟨l, Table.find?_eq_some.mpr ⟨hlines ▸ (chargebackLine_mem hl).1, rfl⟩⟩)
      (by intro hcb; cases hcb)
    obtain rfl := hsole.found rfl he
    have hst' : standing db l = true := by
      rw [← hst]
      unfold standing Folio.reversal?
      rw [hlines]
    have hx : Table.Appends db.folioLines u.folioLines _ := hlines ▸ hc.line
    have ho : Outcome k a r db u remote (impact .reversed (refreshed remote n d)) :=
      outcome_credited hf hw (hline ▸ hl) hst' hx rfl rfl hs hs
    exact ⟨ho, hsole, followed_of_moved hf hw hmoved hsole rfl ho.phase⟩

end Delivery
section Runs

inductive Delivery
  | deliver (event : ProviderEvent) (remote : DisputeFacts)
  | elsewhere (result : Database)

def Delivery.run : Delivery → Tx Unit
  | deliver event remote => LedgerRuns.quietly (handle event remote)
  | elsewhere result => set result

def Delivery.Admitted (k : Channel) (m : Delivery) (db : Database) : Prop :=
  match m with
  | deliver event remote => Belongs k event remote
  | elsewhere result => Outflow.Untouched db result ∧ result.reservations = db.reservations

theorem followed_elsewhere (hf : Followed k a r p db) (hu : Outflow.Untouched db u)
    (hr : u.reservations = db.reservations) : Followed k a r p u := by
  exact
    { toSetting := setting_of_frame hf.toSetting hu.attempts hr hu.payments hu.changes
      reverses := by rw [hu.lines]; exact hf.reverses
      disputes := by rw [hu.lines, hu.disputes]; exact hf.disputes
      unique := by rw [hu.disputes]; exact hf.unique
      phase := by
        rw [hu.disputes]
        exact fun d hd hmine => phase_congr hu.lines (hf.phase d hd hmine)
      charges := by rw [hu.lines, hu.disputes]; exact hf.charges }

theorem run_step {m : Delivery} (hf : Followed k a r p db) (ha : m.Admitted k db)
    (h : Commits m.run db () u) : Followed k a r p u := by
  cases m with
  | deliver event remote =>
    obtain ⟨e, h⟩ := LedgerRuns.commits_quietly h
    exact (delivery hf ha h).2.2
  | elsewhere result =>
    obtain rfl : result = u := by simpa [Delivery.run] using h
    exact followed_elsewhere hf ha.1 ha.2

theorem reaches_followed {s : Database} (hs : Fresh k a r p s)
    (h : Reaches Delivery.run (Delivery.Admitted k) s t) : Followed k a r p t :=
  h.invariant (I := Followed k a r p) (followed_of_fresh hs) fun _ _ _ hf ha hc => run_step hf ha hc

theorem effect_tracks_iff {s : Database} {event : ProviderEvent} {remote : DisputeFacts}
    {e : ProviderDispute} (hs : Fresh k a r p s)
    (hr : Reaches Delivery.run (Delivery.Admitted k) s t) (hb : Belongs k event remote)
    (h : Commits (handle event remote) t e u) : Tracks u e ↔ Followable k a t remote :=
  (delivery (reaches_followed hs hr) hb h).1.tracks

def Delivery.Even (k : Channel) (a : PaymentAttempt) (m : Delivery) (db : Database) : Prop :=
  m.Admitted k db ∧
    match m with
    | deliver _ remote => Followable k a db remote
    | elsewhere _ => True

theorem even_runs_track {s : Database} (hs : Fresh k a r p s)
    (h : Reaches Delivery.run (Delivery.Even k a) s t) :
    ∀ d ∈ t.disputes.rows, isDispute k a d = true → Tracks t d := by
  refine (h.invariant (I := fun db => Followed k a r p db ∧
    ∀ d ∈ db.disputes.rows, isDispute k a d = true → Tracks db d) ⟨followed_of_fresh hs, ?_⟩ ?_).2
  · intro d hd hmine
    simp [hs.undisputed d hd] at hmine
  · rintro m db u ⟨hf, ht⟩ ⟨ha, hk⟩ hc
    refine ⟨run_step hf ha hc, ?_⟩
    cases m with
    | deliver event remote =>
      obtain ⟨e, hc⟩ := LedgerRuns.commits_quietly hc
      obtain ⟨ho, hsole, _⟩ := delivery hf ha hc
      intro d hd hmine
      rw [hsole.eq hd hmine]
      exact ho.tracks.mpr hk
    | elsewhere result =>
      obtain rfl : result = u := by simpa [Delivery.run] using hc
      intro d hd hmine
      have hd' := ht d (ha.1.disputes ▸ hd) hmine
      have he : effect result d.id = effect db d.id := by
        unfold effect
        rw [ha.1.lines]
      exact ⟨fun hl => he ▸ hd'.lost hl, fun hw => he ▸ hd'.won hw⟩

end Runs

section Scenario

def channel : Channel where
  connectionId := 0
  provider := "mercado_pago"
  environment := .production
  providerAccount := "lodge-account"
  paymentId := "pay-0"
  disputeId := "chargeback-0"

theorem paid_fresh : Fresh channel (Outflow.attempt 0) (LedgerRuns.stay 0) (Outflow.lateFunds 0)
    Outflow.paid where
  attempt := by decide
  reservation := by decide
  payment := by decide
  home := rfl
  opened := by decide
  unrefunded := by decide
  reverses := Outflow.paid_opening.reverses
  disputes := by
    have hn : ∀ l ∈ Outflow.paid.folioLines.rows, isChargeback l = false := by decide
    intro l hl i hi
    simp [names, hn l hl] at hi
  undisputed := by simp [Outflow.paid, LedgerRuns.opening, Table.empty]
  uncharged := by decide

def delivered (amountMinor : ℤ) (detail : String) : Delivery :=
  .deliver (Outflow.webhook "chargeback-0") (Outflow.chargeback amountMinor detail)

def plainly : Delivery → Bool
  | .deliver event remote => decide (event = Outflow.webhook "chargeback-0" ∧
      remote.providerPaymentId = "pay-0" ∧ remote.id = "chargeback-0")
  | .elsewhere _ => false

theorem belongs_webhook {remote : DisputeFacts} (hp : remote.providerPaymentId = "pay-0")
    (hd : remote.id = "chargeback-0") : Belongs channel (Outflow.webhook "chargeback-0") remote :=
  ⟨rfl, rfl, rfl, rfl, hp, hd⟩

theorem admitted_of_plainly {m : Delivery} {db : Database} (h : plainly m = true) :
    m.Admitted channel db := by
  cases m with
  | deliver event remote =>
    obtain ⟨rfl, hp, hd⟩ := of_decide_eq_true h
    exact belongs_webhook hp hd
  | elsewhere _ => cases h

def landing (remote : DisputeFacts) (p : ProviderDispute → Database → Bool) (db : Database) : Bool :=
  match (handle (Outflow.webhook "chargeback-0") remote).run db with
  | .ok (e, u) => p e u
  | .error _ => false

theorem exists_of_landing {remote : DisputeFacts} {p : ProviderDispute → Database → Bool}
    (h : landing remote p db = true) :
    ∃ e u, Commits (handle (Outflow.webhook "chargeback-0") remote) db e u ∧ p e u = true := by
  unfold landing at h
  cases hx : (handle (Outflow.webhook "chargeback-0") remote).run db with
  | error _ => simp [hx] at h
  | ok v => exact ⟨v.1, v.2, hx, by simpa [hx] using h⟩

theorem lost_then_won_is_followed : ∃ t u e,
    Reaches Delivery.run (Delivery.Admitted channel) Outflow.paid t ∧
    Commits (handle (Outflow.webhook "chargeback-0") (Outflow.chargeback 6000 "reimbursed")) t e u ∧
    effect t e.id = 6000 ∧ Tracks u e ∧ effect u e.id = 0 := by
  obtain ⟨t, hr, hp⟩ : ∃ t, Reaches Delivery.run (Delivery.Admitted channel) Outflow.paid t ∧
      landing (Outflow.chargeback 6000 "reimbursed")
        (fun e _ => e.state == .won && effect t e.id == 6000) t = true :=
    Reaches.exists_of_execute
      (p := fun t => landing (Outflow.chargeback 6000 "reimbursed")
        (fun e _ => e.state == .won && effect t e.id == 6000) t)
      (fun _ _ => admitted_of_plainly) [delivered 6000 "settled"] (by decide)
  obtain ⟨e, u, hc, hp⟩ := exists_of_landing hp
  obtain ⟨hwon, hbefore⟩ : e.state = .won ∧ effect t e.id = 6000 := by simpa using hp
  have ht : Tracks u e := (effect_tracks_iff paid_fresh hr (belongs_webhook rfl rfl) hc).mpr
    (followable_of_ne (by decide))
  exact ⟨t, u, e, hr, hc, hbefore, ht, ht.won hwon⟩

-- The reversed line is still found by its metadata, so the second loss posts nothing.
theorem second_loss_leaves_no_debit : Fresh channel (Outflow.attempt 0) (LedgerRuns.stay 0)
      (Outflow.lateFunds 0) Outflow.paid ∧
    ∃ t u e, Reaches Delivery.run (Delivery.Admitted channel) Outflow.paid t ∧
      Commits (handle (Outflow.webhook "chargeback-0") (Outflow.chargeback 6000 "settled")) t e u ∧
      e.state = .lost ∧ e.amountMinor = 6000 ∧ effect u e.id = 0 ∧ ¬ Tracks u e := by
  obtain ⟨t, hr, hp⟩ : ∃ t, Reaches Delivery.run (Delivery.Admitted channel) Outflow.paid t ∧
      landing (Outflow.chargeback 6000 "settled")
        (fun e u => e.state == .lost && e.amountMinor == 6000 && effect u e.id == 0) t = true :=
    Reaches.exists_of_execute (fun _ _ => admitted_of_plainly)
      [delivered 6000 "settled", delivered 6000 "reimbursed"] (by decide)
  obtain ⟨e, u, hc, hp⟩ := exists_of_landing hp
  obtain ⟨⟨hlost, hamt⟩, heff⟩ : (e.state = .lost ∧ e.amountMinor = 6000) ∧ effect u e.id = 0 := by
    simpa using hp
  refine ⟨paid_fresh, t, u, e, hr, hc, hlost, hamt, heff, fun ht => ?_⟩
  have hfull := (ht.lost hlost).1
  omega

end Scenario
end DisputeEffect
