import LodgeOps.Ledger.Outflow
import LodgeOps.Payments.SettlementReports

namespace ImportMercadoPagoSettlementReport
open Schema Transaction CreateProviderCheckout

section Figures

-- What a money field of a row adds to a sum.
def worth (f : Formats) (major : String) : ℤ :=
  (if major = "" then none else f.decimal major).getD 0

def total (f : Formats) (key : String) (group : List Entry) : ℤ :=
  (group.map fun e => worth f (field e.row key)).sum

def refunds (f : Formats) (type : ReportType) (group : List Entry) : ℤ :=
  total f (amountField type) (ofKinds ["REFUND"] group)

def chargebacks (f : Formats) (type : ReportType) (group : List Entry) : ℤ :=
  total f (amountField type) (ofKinds ["CHARGEBACK", "DISPUTE"] group)

def withheld (f : Formats) (type : ReportType) (kinds : List String) (group : List Entry) : ℤ :=
  match type with
  | .accountMoney => 0
  | .releasedMoney => max 0 (total f "NET_DEBIT_AMOUNT" (ofKinds kinds group) -
      total f "NET_CREDIT_AMOUNT" (ofKinds kinds group))

def taxes (f : Formats) (type : ReportType) (group : List Entry) : ℤ :=
  withheld f type ["TAX", "TAX_CANCEL"] group

def withholdings (f : Formats) (type : ReportType) (group : List Entry) : ℤ :=
  withheld f type ["WITHHOLDING", "WITHHOLDING_CANCEL"] group

-- What the check of a group leaves of the charge.
def room (f : Formats) (type : ReportType) (group : List Entry) (limit : ℤ) : ℤ :=
  limit - (|refunds f type group + chargebacks f type group| + taxes f type group +
    withholdings f type group)

def Bounded (type : ReportType) (facts : SettlementFacts) (limit : ℤ) : Prop :=
  facts.refundedMinor.getD 0 + facts.chargebackMinor.getD 0 ≤ limit ∧
    (type = .releasedMoney →
      facts.refundedMinor.getD 0 + facts.chargebackMinor.getD 0 + max 0 (facts.taxMinor.getD 0) +
        max 0 (facts.withholdingMinor.getD 0) ≤ limit)

-- Refunds and chargebacks of one sign, or what they cancel fits twice into the room that is left.
def Aligned (f : Formats) (type : ReportType) (group : List Entry) (limit : ℤ) : Prop :=
  0 ≤ refunds f type group * chargebacks f type group ∨
    2 * min |refunds f type group| |chargebacks f type group| ≤ room f type group limit

end Figures

variable {f : Formats} {type : ReportType} {group es : List Entry} {kinds : List String}
variable {key major : String} {n limit : ℤ} {row : Row} {a b : PaymentAttempt}
variable {x : SettlementReportImport} {p : ProviderSettlement}

section Sums

theorem minor?_worth {m : Option ℤ} (h : minor? f major = .ok m) : m.getD 0 = worth f major := by
  unfold minor? at h
  unfold worth
  split_ifs at h ⊢ with hm
  · obtain rfl : none = m := Except.ok.inj h
    rfl
  · unfold amount at h
    cases hd : f.decimal major with
    | none => simp [hd, found, Functor.map, Except.map] at h
    | some k =>
      obtain rfl : some k = m := by simpa [hd, found, Functor.map, Except.map] using h
      rfl

theorem sum_total (h : sum f key es = .ok n) : n = total f key es := by
  induction es generalizing n with
  | nil => exact (Except.ok.inj h).symm
  | cons e es ih =>
    simp only [sum, bind_eq_ok] at h
    obtain ⟨m, hm, rest, hrest, h⟩ := h
    have hn : m.getD 0 + rest = n := Except.ok.inj h
    rw [← hn, ih hrest, minor?_worth hm]
    rfl

theorem sumKinds_total (h : sumKinds f group kinds key = .ok n) :
    n = |total f key (ofKinds kinds group)| := by
  obtain ⟨m, hm, he⟩ := map_eq_ok.mp h
  rw [← he, sum_total hm]

theorem nonzero_getD : (nonzero n).getD 0 = n := by
  unfold nonzero
  split_ifs with h
  · exact h.symm
  · rfl

theorem deduction_total {m : Option ℤ} (h : releasedMoneyDeduction f group kinds = .ok m) :
    m.getD 0 = total f "NET_DEBIT_AMOUNT" (ofKinds kinds group) -
      total f "NET_CREDIT_AMOUNT" (ofKinds kinds group) := by
  unfold releasedMoneyDeduction at h
  split_ifs at h with he
  · obtain rfl : none = m := Except.ok.inj h
    rw [List.isEmpty_iff.mp he]
    rfl
  · simp only [bind_eq_ok] at h
    obtain ⟨debit, hd, credit, hc, h⟩ := h
    obtain rfl : nonzero (debit - credit) = m := Except.ok.inj h
    rw [nonzero_getD, sum_total hd, sum_total hc]

theorem deducted_withheld (h : deducted f type group kinds = .ok n) :
    n = withheld f type kinds group := by
  cases type with
  | accountMoney => exact (Except.ok.inj h).symm
  | releasedMoney =>
    simp only [deducted, bind_eq_ok] at h
    obtain ⟨m, hm, h⟩ := h
    have hn : max 0 (m.getD 0) = n := Except.ok.inj h
    rw [← hn, deduction_total hm]
    rfl

theorem total_ofKinds_cons {e : Entry} : total f key (ofKinds kinds (e :: es)) =
    (if e.kind ∈ kinds then worth f (field e.row key) else 0) + total f key (ofKinds kinds es) := by
  unfold total ofKinds
  rw [List.filter_cons]
  simp only [List.contains_iff_mem]
  split_ifs
  · rfl
  · rw [zero_add]

theorem total_reversals :
    total f key (ofKinds reversalKinds group) = total f key (ofKinds ["REFUND"] group) +
      total f key (ofKinds ["CHARGEBACK", "DISPUTE"] group) := by
  induction group with
  | nil => rfl
  | cons e es ih =>
    rw [total_ofKinds_cons, total_ofKinds_cons, total_ofKinds_cons, ih]
    have hsplit : (if e.kind ∈ reversalKinds then worth f (field e.row key) else 0) =
        (if e.kind ∈ ["REFUND"] then worth f (field e.row key) else 0) +
          if e.kind ∈ ["CHARGEBACK", "DISPUTE"] then worth f (field e.row key) else 0 := by
      by_cases hr : e.kind = "REFUND"
      · simp [reversalKinds, hr]
      · simp [reversalKinds, hr]
    rw [hsplit]
    ring

theorem room_nonneg (h : deductionsWithin f type group limit = .ok true) :
    0 ≤ room f type group limit := by
  simp only [deductionsWithin, bind_eq_ok] at h
  obtain ⟨r, hr, tax, ht, held, hh, h⟩ := h
  have hle : r + tax + held ≤ limit := of_decide_eq_true (Except.ok.inj h)
  rw [sumKinds_total hr, total_reversals, deducted_withheld ht, deducted_withheld hh] at hle
  have hroom : room f type group limit = limit - (|refunds f type group +
    chargebacks f type group| + taxes f type group + withholdings f type group) := rfl
  rw [hroom, sub_nonneg]
  exact hle

theorem valid_within (h : validFinancialGroup f type group limit = .ok true) :
    deductionsWithin f type group limit = .ok true := by
  unfold validFinancialGroup at h
  split_ifs at h
  · cases h
  · cases type with
    | accountMoney =>
      simp only [bind_eq_ok] at h
      obtain ⟨d, hd, p, _, h⟩ := h
      have hand : (p && d) = true := Except.ok.inj h
      rw [Bool.and_eq_true] at hand
      rw [hd, hand.2]
    | releasedMoney =>
      simp only [bind_eq_ok] at h
      obtain ⟨p, _, h⟩ := h
      split_ifs at h
      · cases h
      · exact h

end Sums

section Bounds

theorem abs_add_abs (u v : ℤ) :
    |u| + |v| = if 0 ≤ u * v then |u + v| else |u + v| + 2 * min |u| |v| := by
  split_ifs with h
  · exact (abs_add_eq_add_abs_iff u v).mpr (mul_nonneg_iff.mp h) |>.symm
  · rcases mul_neg_iff.mp (not_le.mp h) with ⟨hu, hv⟩ | ⟨hu, hv⟩
    · rw [abs_of_pos hu, abs_of_neg hv]
      rcases le_total 0 (u + v) with hs | hs
      · rw [abs_of_nonneg hs]
        omega
      · rw [abs_of_nonpos hs]
        omega
    · rw [abs_of_neg hu, abs_of_pos hv]
      rcases le_total 0 (u + v) with hs | hs
      · rw [abs_of_nonneg hs]
        omega
      · rw [abs_of_nonpos hs]
        omega

theorem taxes_nonneg : 0 ≤ withheld f type kinds group := by
  cases type with
  | accountMoney => exact le_rfl
  | releasedMoney => exact le_max_left _ _

-- The figures that are recorded, in terms of the rows.
structure States (f : Formats) (type : ReportType) (group : List Entry) (p : ProviderSettlement) :
    Prop where
  refunded : p.refundedMinor.getD 0 = |refunds f type group|
  chargeback : p.chargebackMinor.getD 0 = |chargebacks f type group|
  tax : type = .releasedMoney → max 0 (p.taxMinor.getD 0) = taxes f type group
  withholding : type = .releasedMoney → max 0 (p.withholdingMinor.getD 0) = withholdings f type group

theorem states_of_facts (h : settlementFacts f type group x = .ok p) : States f type group p := by
  cases type with
  | accountMoney =>
    simp only [settlementFacts, accountMoneyFacts, bind_eq_ok] at h
    obtain ⟨r, hr, c, hc, _, _, _, _, _, _, _, _, _, _, h⟩ := h
    obtain rfl := Except.ok.inj h
    refine ⟨?_, ?_, (by intro h; cases h), (by intro h; cases h)⟩
    · rw [nonzero_getD, sumKinds_total hr]
      rfl
    · rw [nonzero_getD, sumKinds_total hc]
      rfl
  | releasedMoney =>
    simp only [settlementFacts, releasedMoneyFacts, bind_eq_ok] at h
    obtain ⟨_, _, _, _, tax, ht, held, hh, _, _, r, hr, c, hc, _, _, _, _, h⟩ := h
    obtain rfl := Except.ok.inj h
    refine ⟨?_, ?_, fun _ => ?_, fun _ => ?_⟩
    · rw [nonzero_getD, sumKinds_total hr]
      rfl
    · rw [nonzero_getD, sumKinds_total hc]
      rfl
    · rw [deduction_total ht]
      rfl
    · rw [deduction_total hh]
      rfl

theorem bounded_iff_aligned (hs : States f type group p) (hr : 0 ≤ room f type group limit) :
    Bounded type (RecordSettlementRevision.facts (reportedPayment a p)) limit ↔
      Aligned f type group limit := by
  have hsum := abs_add_abs (refunds f type group) (chargebacks f type group)
  have htax : 0 ≤ taxes f type group := taxes_nonneg
  have hheld : 0 ≤ withholdings f type group := taxes_nonneg
  have hrefund : (RecordSettlementRevision.facts (reportedPayment a p)).refundedMinor =
      p.refundedMinor := rfl
  have hcharge : (RecordSettlementRevision.facts (reportedPayment a p)).chargebackMinor =
      p.chargebackMinor := rfl
  have htaxed : (RecordSettlementRevision.facts (reportedPayment a p)).taxMinor = p.taxMinor := rfl
  have hkept : (RecordSettlementRevision.facts (reportedPayment a p)).withholdingMinor =
      p.withholdingMinor := rfl
  have hwhole : Bounded type (RecordSettlementRevision.facts (reportedPayment a p)) limit ↔
      |refunds f type group| + |chargebacks f type group| + taxes f type group +
        withholdings f type group ≤ limit := by
    unfold Bounded
    rw [hrefund, hcharge, htaxed, hkept, hs.refunded, hs.chargeback]
    cases type with
    | accountMoney =>
      have hnone : taxes f .accountMoney group = 0 ∧ withholdings f .accountMoney group = 0 :=
        ⟨rfl, rfl⟩
      rw [hnone.1, hnone.2, add_zero, add_zero]
      exact ⟨fun h => h.1, fun h => ⟨h, fun hr => by cases hr⟩⟩
    | releasedMoney =>
      rw [hs.tax rfl, hs.withholding rfl]
      exact ⟨fun h => h.2 rfl, fun h => ⟨by omega, fun _ => h⟩⟩
  rw [hwhole, hsum]
  unfold Aligned
  unfold room at hr ⊢
  split_ifs with h
  · exact ⟨fun _ => Or.inl h, fun _ => by omega⟩
  · exact ⟨fun hle => Or.inr (by omega), fun ha => by have := ha.resolve_left h; omega⟩

end Bounds
section Matching
variable {db : Database} {c : CheckoutConnection} {environment : Environment}
variable {prepared : List Prepared} {raws seen : List Row} {y z : Prepared}
variable {applied : List PaymentAttempt}

-- The row agrees with the attempt in everything that the import compares.
structure Matching (f : Formats) (type : ReportType) (row : Row) (a : PaymentAttempt) : Prop where
  source : value row "SOURCE_ID" = a.providerPaymentId
  supported : kind type row ∈ supportedKinds type
  account : ∀ u, value row "USER_ID" = some u → u = a.providerAccount
  reference : ∀ e, value row "EXTERNAL_REFERENCE" = some e → e = a.externalReference
  currency : currencyOf row = a.chargeCurrency
  amount : kind type row = primaryKind type → ∃ m, f.decimal (field row (amountField type)) = some m ∧
    (type = .accountMoney → m = a.chargeAmountMinor) ∧
      (type = .releasedMoney → m ≠ 0 ∧ |m| ≤ a.chargeAmountMinor)

theorem minor_decimal (h : minor f major = .ok n) : f.decimal major = some n := by
  simp only [minor, amount, bind_eq_ok, refuse_eq_ok, found_eq_ok] at h
  obtain ⟨_, _, h⟩ := h
  exact h

theorem primary_of_matches {k : String} (h : primaryMatches f type row k a = .ok true)
    (hk : k = primaryKind type) :
    ∃ m, f.decimal (field row (amountField type)) = some m ∧
      (type = .accountMoney → m = a.chargeAmountMinor) ∧
        (type = .releasedMoney → m ≠ 0 ∧ |m| ≤ a.chargeAmountMinor) := by
  rw [primaryMatches, if_pos hk] at h
  obtain ⟨m, hm, h⟩ := bind_eq_ok.mp h
  refine ⟨m, minor_decimal hm, ?_, ?_⟩
  · rintro rfl
    have heq : (m == a.chargeAmountMinor) = true := Except.ok.inj h
    exact beq_iff_eq.mp heq
  · rintro rfl
    have hok : (!(|m| == 0 || decide (a.chargeAmountMinor < |m|))) = true := Except.ok.inj h
    simpa using hok

theorem matching_of_matched
    (h : matched f db c environment type row = .ok (some a, .applied)) :
    a ∈ db.paymentAttempts.rows ∧ Matching f type row a := by
  unfold matched at h
  split_ifs at h
  · cases h
  · cases hs : (value row "SOURCE_ID").bind (attempt? db c environment) with
    | none =>
      rw [hs] at h
      cases h
    | some b =>
      rw [hs] at h
      obtain ⟨state, hstate, h⟩ := bind_eq_ok.mp h
      have hpair : (some b, state) = (some a, ApplicationState.applied) := Except.ok.inj h
      obtain ⟨rfl, rfl⟩ : b = a ∧ state = .applied := by simpa using hpair
      obtain ⟨source, hsource, hfound⟩ := Option.bind_eq_some_iff.mp hs
      obtain ⟨hmem, hkeys⟩ := Table.first?_some hfound
      simp only [Bool.and_eq_true, beq_iff_eq] at hkeys
      unfold matchAttempt at hstate
      split_ifs at hstate with hkind hdiffers
      · cases hstate
      · cases hstate
      · obtain ⟨ok, hok, hstate⟩ := bind_eq_ok.mp hstate
        have hif : (if ok then ApplicationState.applied else .mismatched) = .applied :=
          Except.ok.inj hstate
        obtain rfl : ok = true := by
          cases ok with
          | true => rfl
          | false => cases hif
        simp only [differs, Bool.or_eq_true, bne_iff_ne, not_or, not_not] at hdiffers
        refine ⟨hmem, hsource.trans hkeys.2.symm, by simpa using hkind, ?_, ?_, hdiffers.2,
          primary_of_matches hok⟩
        · intro u hu
          simpa [hu] using hdiffers.1.1
        · intro e he
          simpa [he] using hdiffers.1.2

theorem mem_prepare (h : prepare f db c environment type seen raws = .ok prepared)
    (hy : y ∈ prepared) : matched f db c environment type y.row = .ok (y.attempt, y.state) ∧
      y.kind = kind type y.row := by
  induction raws generalizing seen prepared with
  | nil =>
    obtain rfl : [] = prepared := Except.ok.inj h
    cases hy
  | cons raw raws ih =>
    simp only [prepare, bind_eq_ok] at h
    obtain ⟨m, hm, rest, hrest, h⟩ := h
    have hcons := Except.ok.inj h
    rw [← hcons] at hy
    rcases List.mem_cons.mp hy with rfl | hy
    · exact ⟨hm, rfl⟩
    · exact ih hrest hy

theorem attempt_stored (h : prepare f db c environment type seen raws = .ok prepared)
    (hy : y ∈ prepared) (ha : y.attempt = some a) : a ∈ db.paymentAttempts.rows := by
  have hm := (mem_prepare h hy).1
  unfold matched at hm
  split_ifs at hm
  · have hpair := Except.ok.inj hm
    rw [ha] at hpair
    cases hpair
  · cases hs : (value y.row "SOURCE_ID").bind (attempt? db c environment) with
    | none =>
      rw [hs] at hm
      have hpair := Except.ok.inj hm
      rw [ha] at hpair
      cases hpair
    | some b =>
      rw [hs] at hm
      obtain ⟨state, _, hm⟩ := bind_eq_ok.mp hm
      have hpair : (some b, state) = (y.attempt, y.state) := Except.ok.inj hm
      obtain rfl : b = a := by
        rw [ha] at hpair
        exact Option.some.inj (congrArg Prod.fst hpair)
      obtain ⟨source, _, hfound⟩ := Option.bind_eq_some_iff.mp hs
      exact (Table.first?_some hfound).1

theorem mem_judge {as bs : List PaymentAttempt} (h : judge f type prepared as = .ok bs) :
    b ∈ bs ↔ b ∈ as ∧ applicable f type prepared b = .ok true := by
  induction as generalizing bs with
  | nil =>
    obtain rfl : [] = bs := Except.ok.inj h
    simp
  | cons a as ih =>
    simp only [judge, bind_eq_ok] at h
    obtain ⟨ok, hok, rest, hrest, h⟩ := h
    have hif : (if ok then a :: rest else rest) = bs := Except.ok.inj h
    rw [← hif, List.mem_cons]
    cases ok with
    | true =>
      rw [if_pos rfl, List.mem_cons, ih hrest]
      constructor
      · rintro (rfl | ⟨hb, happ⟩)
        · exact ⟨Or.inl rfl, hok⟩
        · exact ⟨Or.inr hb, happ⟩
      · rintro ⟨rfl | hb, happ⟩
        · exact Or.inl rfl
        · exact Or.inr ⟨hb, happ⟩
    | false =>
      rw [if_neg Bool.false_ne_true, ih hrest]
      constructor
      · exact fun h => ⟨Or.inr h.1, h.2⟩
      · rintro ⟨rfl | hb, happ⟩
        · rw [hok] at happ
          cases happ
        · exact ⟨hb, happ⟩

theorem mem_attemptsOf : a ∈ attemptsOf prepared ↔ ∃ y ∈ prepared, y.attempt = some a := by
  simp [attemptsOf, List.mem_eraseDups, List.mem_filterMap]

theorem applicable_applied (h : applicable f type prepared a = .ok true) (hy : y ∈ prepared)
    (ha : y.attempt.any (·.id == a.id) = true) : y.state = .applied := by
  unfold applicable at h
  split_ifs at h with hany
  · cases h
  · by_contra hne
    refine hany (List.any_eq_true.mpr ⟨y, List.mem_filter.mpr ⟨hy, ha⟩, ?_⟩)
    simpa using hne

theorem applicable_room (h : applicable f type prepared a = .ok true) :
    0 ≤ room f type (entries (rowsOf a.id prepared)) a.chargeAmountMinor := by
  unfold applicable at h
  split_ifs at h
  · cases h
  · exact room_nonneg (valid_within h)

-- The rows of an attempt are applied if it is among the applied ones, and mismatched otherwise.
theorem finalState_eq (hprep : prepare f db c environment type [] raws = .ok prepared)
    (hjudge : judge f type prepared (attemptsOf prepared) = .ok applied) (hy : y ∈ prepared)
    (ha : y.attempt = some a) :
    finalState applied y = if a ∈ applied then .applied else .mismatched := by
  have hany : applied.any (·.id == a.id) = true ↔ a ∈ applied := by
    rw [List.any_eq_true]
    constructor
    · rintro ⟨b, hb, hid⟩
      obtain ⟨z, hz, hzb⟩ := mem_attemptsOf.mp ((mem_judge hjudge).mp hb).1
      have hab : b = a := Table.eq_of_id (attempt_stored hprep hz hzb) (attempt_stored hprep hy ha)
        (beq_iff_eq.mp hid)
      exact hab ▸ hb
    · exact fun h => ⟨a, h, beq_self_eq_true _⟩
  unfold finalState
  rw [ha]
  by_cases happ : a ∈ applied
  · rw [if_pos happ]
    simp only [hany.mpr happ, if_true]
    exact applicable_applied ((mem_judge hjudge).mp happ).2 hy (by simp [ha])
  · rw [if_neg happ]
    have hno : applied.any (·.id == a.id) = false :=
      Bool.eq_false_of_not_eq_true fun h => happ (hany.mp h)
    simp only [hno, Bool.false_eq_true, if_false]

end Matching

section Writes
variable {s t u : Reports} {db db' : Database} {i : ℕ} {prepared ys : List Prepared}
variable {applied as : List PaymentAttempt} {again : Bool} {payment : ProviderPayment}

theorem revision_recorded (h : Commits (RecordSettlementRevision.handle a payment) db () db') :
    (∃ v ∈ db'.settlementRevisions.rows, v.checksum = RecordSettlementRevision.checksum payment) ∧
      ∀ v ∈ db.settlementRevisions.rows, v ∈ db'.settlementRevisions.rows := by
  unfold RecordSettlementRevision.handle at h
  obtain ⟨k, u, hfirst, h⟩ := commits_bind.mp h
  obtain ⟨_, w, hrecord, h⟩ := commits_bind.mp h
  have hlast : db'.settlementRevisions = w.settlementRevisions := by
    rw [← commits_modify.mp h]
  have hkeep : u.settlementRevisions = db.settlementRevisions := by
    simp only [RecordSettlementRevision.firstOrCreate, commits_bind, commits_get] at hfirst
    obtain ⟨_, _, ⟨rfl, rfl⟩, hfirst⟩ := hfirst
    cases hd : RecordSettlementRevision.recorded? db a payment with
    | some e =>
      simp only [hd, commits_pure] at hfirst
      rw [hfirst.2]
    | none =>
      simp only [hd, commits_bind, commits_set, commits_pure] at hfirst
      obtain ⟨_, _, rfl, _, rfl⟩ := hfirst
      rfl
  rw [hlast, ← hkeep]
  simp only [RecordSettlementRevision.recordRevision, commits_bind, commits_get, commits_ite,
    commits_pure, commits_set] at hrecord
  obtain ⟨_, _, ⟨rfl, rfl⟩, ⟨hsome, _, rfl⟩ | ⟨_, rfl⟩⟩ := hrecord
  · obtain ⟨v, hv⟩ := Option.isSome_iff_exists.mp hsome
    obtain ⟨hmem, hkey⟩ := Table.first?_some hv
    simp only [Bool.and_eq_true, beq_iff_eq] at hkey
    exact ⟨⟨v, hmem, hkey.2⟩, fun _ hv => hv⟩
  · exact ⟨⟨_, (Table.mem_insert (fun _ => rfl)).mpr (Or.inr rfl), rfl⟩,
      fun _ hv => (Table.mem_insert (fun _ => rfl)).mpr (Or.inl hv)⟩

def Recorded (db : Database) (a : PaymentAttempt) (p : ProviderSettlement) : Prop :=
  ∃ v ∈ db.settlementRevisions.rows,
    v.checksum = RecordSettlementRevision.checksum (reportedPayment a p)

theorem varied_revisions : (varied db a payment).settlementRevisions = db.settlementRevisions := by
  unfold varied
  split
  · rfl
  · rfl

-- What one application leaves as it was.
structure Aside (s t : Reports) : Prop where
  rows : t.rows = s.rows
  imports : t.imports = s.imports
  revisions : ∀ v ∈ s.books.settlementRevisions.rows, v ∈ t.books.settlementRevisions.rows

theorem aside_trans (h : Aside s t) (h' : Aside t u) : Aside s u where
  rows := h'.rows.trans h.rows
  imports := h'.imports.trans h.imports
  revisions v hv := h'.revisions v (h.revisions v hv)

theorem commits_settle (h : Commits (settle f type prepared x again a) s () t) :
    Aside s t ∧ ∃ p, settlementFacts f type (entries (rowsOf a.id prepared)) x = .ok p ∧
      Recorded t.books a p := by
  unfold settle at h
  obtain ⟨p, hp, h⟩ := commits_check_bind.mp h
  obtain ⟨_, v, hbooks, h⟩ := commits_bind.mp h
  obtain ⟨db, hrecord, rfl⟩ := commits_zoom.mp hbooks
  obtain ⟨hrecorded, hkeep⟩ := revision_recorded hrecord
  obtain rfl := commits_modify.mp h
  cases again with
  | true =>
    have hsame : ((s.withBooks db).withBooks (varied (s.withBooks db).books a
        (reportedPayment a p))).books.settlementRevisions = db.settlementRevisions :=
      varied_revisions
    simp only [if_true]
    refine ⟨⟨rfl, rfl, fun v hv => ?_⟩, p, hp, ?_⟩
    · rw [hsame]
      exact hkeep v hv
    · unfold Recorded
      rw [hsame]
      exact hrecorded
  | false => exact ⟨⟨rfl, rfl, hkeep⟩, p, hp, hrecorded⟩

theorem commits_settles (h : Commits (as.forM (settle f type prepared x again)) s () t) :
    Aside s t ∧ ∀ a ∈ as, ∃ p, settlementFacts f type (entries (rowsOf a.id prepared)) x = .ok p ∧
      Recorded t.books a p := by
  induction as generalizing s with
  | nil =>
    obtain rfl := commits_forM_nil.mp h
    exact ⟨⟨rfl, rfl, fun _ hv => hv⟩, fun _ ha => absurd ha List.not_mem_nil⟩
  | cons a as ih =>
    obtain ⟨u, hfirst, hrest⟩ := commits_forM_cons.mp h
    obtain ⟨haside, p, hp, v, hv, hsum⟩ := commits_settle hfirst
    obtain ⟨hasides, hall⟩ := ih hrest
    refine ⟨aside_trans haside hasides, fun b hb => ?_⟩
    rcases List.mem_cons.mp hb with rfl | hb
    · exact ⟨p, hp, v, hasides.revisions v hv, hsum⟩
    · exact hall b hb

theorem commits_records (h : Commits (ys.forM (record i applied)) s () t) :
    ∃ added, t.rows.rows = s.rows.rows ++ added ∧ t.imports = s.imports ∧ t.books = s.books ∧
      List.Forall₂ (fun y r => ∃ k, r = ledgerRow i applied s.books.clock y k) ys added := by
  induction ys generalizing s with
  | nil =>
    obtain rfl := commits_forM_nil.mp h
    exact ⟨[], (List.append_nil _).symm, rfl, rfl, .nil⟩
  | cons y ys ih =>
    obtain ⟨u, hfirst, hrest⟩ := commits_forM_cons.mp h
    obtain rfl := commits_modify.mp hfirst
    obtain ⟨added, hrows, himports, hbooks, hall⟩ := ih hrest
    refine ⟨ledgerRow i applied s.books.clock y s.rows.next :: added, ?_, himports, hbooks,
      .cons ⟨_, rfl⟩ hall⟩
    rw [hrows]
    simp [Table.insert]

end Writes

section Fate
variable {s t : Reports} {c : CheckoutConnection} {file : ReportFile} {raws : List Row}
variable {reportType reportId : String} {isFixture : Bool} {environment : Environment} {m : ℕ}
variable {identity : ReportIdentity}

def added (s t : Reports) : List SettlementReportRow := t.rows.rows.drop s.rows.rows.length

def groupOf (i : ℕ) (rows : List SettlementReportRow) : List Entry :=
  (rows.filter fun r => r.paymentAttemptId == some i).map fun r => ⟨r.rowKind, r.canonicalRow⟩

-- What one run of the import writes.
structure Imported (f : Formats) (c : CheckoutConnection) (identity : ReportIdentity)
    (file : ReportFile) (raws : List Row) (s t : Reports) (prepared : List Prepared)
    (applied : List PaymentAttempt) (x : SettlementReportImport) : Prop where
  matched : prepare f s.books c identity.environment identity.reportType [] raws = .ok prepared
  judged : judge f identity.reportType prepared (attemptsOf prepared) = .ok applied
  stored : x ∈ t.imports.rows ∧ x.identity = identity ∧ x.fileChecksum = file.bytes
  rows : List.Forall₂ (fun y r => ∃ k, r = ledgerRow x.id applied s.books.clock y k) prepared
    (added s t)
  settled : ∀ a ∈ applied, ∃ p, settlementFacts f identity.reportType
    (entries (rowsOf a.id prepared)) x = .ok p ∧ Recorded t.books a p

theorem commits_importRows (h : Commits (importRows f c identity file isFixture raws) s m t) :
    ∃ prepared applied x, Imported f c identity file raws s t prepared applied x := by
  unfold importRows at h
  rw [commits_get_bind, commits_set_bind] at h
  obtain ⟨prepared, hprepared, h⟩ := commits_check_bind.mp h
  obtain ⟨applied, hjudged, h⟩ := commits_check_bind.mp h
  obtain ⟨_, u, hrecords, h⟩ := commits_bind.mp h
  obtain ⟨_, w, hsettles, h⟩ := commits_bind.mp h
  obtain ⟨_, rfl⟩ := commits_pure.mp h
  obtain ⟨rows, hrows, himports, hbooks, hall⟩ := commits_records hrecords
  obtain ⟨haside, hsettled⟩ := commits_settles hsettles
  refine ⟨prepared, applied, _, hprepared, hjudged, ⟨?_, rfl, rfl⟩, ?_, hsettled⟩
  · rw [haside.imports, himports]
    exact (Table.mem_insert (fun _ => rfl)).mpr (Or.inr rfl)
  · have hadded : added s w = rows := by
      unfold added
      rw [haside.rows, hrows]
      exact List.drop_left
    rw [hadded]
    exact hall

theorem groupOf_rows {prepared : List Prepared} {rows : List SettlementReportRow} {i k : ℕ}
    {applied : List PaymentAttempt} {now : ℤ}
    (h : List.Forall₂ (fun y r => ∃ j, r = ledgerRow k applied now y j) prepared rows) :
    groupOf i rows = entries (rowsOf i prepared) := by
  induction h with
  | nil => rfl
  | @cons y r prepared rows hr _ ih =>
    obtain ⟨j, rfl⟩ := hr
    unfold groupOf entries rowsOf at ih ⊢
    rw [List.filter_cons, List.filter_cons]
    have hkey : ((ledgerRow k applied now y j).paymentAttemptId == some i) = belongs i y := by
      unfold ledgerRow belongs
      cases y.attempt with
      | none => rfl
      | some a => simp
    rw [hkey]
    split_ifs
    · rw [List.map_cons, List.map_cons, ih]
      rfl
    · exact ih

theorem mem_rows {prepared : List Prepared} {rows : List SettlementReportRow} {k : ℕ}
    {applied : List PaymentAttempt} {now : ℤ} {r : SettlementReportRow}
    (h : List.Forall₂ (fun y r => ∃ j, r = ledgerRow k applied now y j) prepared rows)
    (hr : r ∈ rows) : ∃ y ∈ prepared, ∃ j, r = ledgerRow k applied now y j := by
  induction h with
  | nil => cases hr
  | @cons y z prepared rows hz _ ih =>
    rcases List.mem_cons.mp hr with rfl | hr
    · exact ⟨y, List.mem_cons_self, hz⟩
    · obtain ⟨w, hw, hj⟩ := ih hr
      exact ⟨w, List.mem_cons_of_mem _ hw, hj⟩

theorem row_of_mem {prepared : List Prepared} {rows : List SettlementReportRow} {k : ℕ}
    {applied : List PaymentAttempt} {now : ℤ} {y : Prepared}
    (h : List.Forall₂ (fun y r => ∃ j, r = ledgerRow k applied now y j) prepared rows)
    (hy : y ∈ prepared) : ∃ j, ledgerRow k applied now y j ∈ rows := by
  induction h with
  | nil => cases hy
  | @cons w z prepared rows hz _ ih =>
    rcases List.mem_cons.mp hy with rfl | hy
    · obtain ⟨j, rfl⟩ := hz
      exact ⟨j, List.mem_cons_self⟩
    · obtain ⟨j, hj⟩ := ih hy
      exact ⟨j, List.mem_cons_of_mem _ hj⟩

theorem existing_some {x : SettlementReportImport} {bytes : String}
    (h : existing? s identity bytes = some x) :
    x ∈ s.imports.rows ∧ x.identity = identity ∧ x.fileChecksum = bytes := by
  obtain ⟨hmem, hkey⟩ := Table.first?_some h
  simp only [Bool.and_eq_true, beq_iff_eq, decide_eq_true_eq] at hkey
  exact ⟨hmem, hkey.1, hkey.2⟩

theorem existing_of_mem {x : SettlementReportImport} {bytes : String} (hx : x ∈ s.imports.rows)
    (hi : x.identity = identity) (hb : x.fileChecksum = bytes) :
    (existing? s identity bytes).isSome = true := by
  cases he : existing? s identity bytes with
  | some _ => rfl
  | none =>
    have hno := Table.first?_eq_none.mp he x hx
    simp [hi, hb] at hno

theorem commits_handle {type : ReportType}
    (h : Commits (handle f c file reportType reportId isFixture) s m t)
    (henv : c.environment = some environment) (htype : reportType? reportType = some type) :
    ((existing? s (identityOf c environment type reportId) file.bytes).isSome = true ∧ t = s) ∨
      (existing? s (identityOf c environment type reportId) file.bytes = none ∧
        ∃ raws, f.read file.bytes type = .ok raws ∧
          Commits (importRows f c (identityOf c environment type reportId) file isFixture raws)
            s m t) := by
  unfold handle at h
  obtain ⟨env, havailable, h⟩ := commits_check_bind.mp h
  obtain ⟨type', htype', h⟩ := commits_orFail_bind.mp h
  obtain ⟨_, h⟩ := commits_reject_bind.mp h
  obtain ⟨raws, hread, h⟩ := commits_check_bind.mp h
  rw [commits_get_bind] at h
  have henv' : environment = env := by
    unfold assertAvailable at havailable
    rw [henv] at havailable
    simp only at havailable
    split_ifs at havailable
    exact Except.ok.inj havailable
  obtain rfl : type = type' := Option.some.inj (htype.symm.trans htype')
  subst henv'
  cases he : existing? s (identityOf c environment type reportId) file.bytes with
  | some x =>
    simp only [he, commits_pure] at h
    exact Or.inl ⟨rfl, h.2.symm⟩
  | none =>
    simp only [he] at h
    exact Or.inr ⟨rfl, raws, hread, h⟩

-- What one import of `bytes` as `identity` is to keep.
structure Honoured (f : Formats) (identity : ReportIdentity) (bytes : String) (s t : Reports) :
    Prop where
  fate : ∀ r ∈ added s t, ∀ r' ∈ added s t, ∀ i, r.paymentAttemptId = some i →
    r'.paymentAttemptId = some i → r.applicationState = r'.applicationState ∧
      (r.applicationState = .applied ∨ r.applicationState = .mismatched)
  matching : ∀ r ∈ added s t, r.applicationState = .applied → ∃ a ∈ s.books.paymentAttempts.rows,
    r.paymentAttemptId = some a.id ∧ ∀ r' ∈ added s t, r'.paymentAttemptId = some a.id →
      Matching f identity.reportType r'.canonicalRow a
  bounded : ∀ r ∈ added s t, r.applicationState = .applied → ∃ a ∈ s.books.paymentAttempts.rows,
    r.paymentAttemptId = some a.id ∧ ∃ x ∈ t.imports.rows, x.identity = identity ∧ ∃ p,
      settlementFacts f identity.reportType (groupOf a.id (added s t)) x = .ok p ∧
        Recorded t.books a p ∧ Bounded identity.reportType
          (RecordSettlementRevision.facts (reportedPayment a p)) a.chargeAmountMinor
  again : ∀ c' file' reportType' reportId' isFixture' environment' type' u n v,
    Commits (handle f c' file' reportType' reportId' isFixture') u n v →
      (∀ x ∈ t.imports.rows, x ∈ u.imports.rows) → c'.environment = some environment' →
        reportType? reportType' = some type' →
          identityOf c' environment' type' reportId' = identity → file'.bytes = bytes → v = u

-- Every group that passes the check is one whose refunds and chargebacks the check can tell apart.
def GroupsAligned (f : Formats) (db : Database) (c : CheckoutConnection) (environment : Environment)
    (type : ReportType) (raws : List Row) : Prop :=
  ∀ prepared, prepare f db c environment type [] raws = .ok prepared →
    ∀ a ∈ attemptsOf prepared, applicable f type prepared a = .ok true →
      Aligned f type (entries (rowsOf a.id prepared)) a.chargeAmountMinor

variable {prepared : List Prepared} {applied : List PaymentAttempt} {r : SettlementReportRow}

theorem unapplied_of_none {db : Database} {y : Prepared}
    (h : prepare f db c environment type [] raws = .ok prepared) (hy : y ∈ prepared)
    (ha : y.attempt = none) : y.state ≠ .applied := by
  have hm := (mem_prepare h hy).1
  rw [ha] at hm
  unfold matched at hm
  split_ifs at hm
  · have hpair : (none, ApplicationState.accountLevel) = (none, y.state) := Except.ok.inj hm
    have hstate : ApplicationState.accountLevel = y.state := (Prod.ext_iff.mp hpair).2
    rw [← hstate]
    decide
  · cases hs : (value y.row "SOURCE_ID").bind (attempt? db c environment) with
    | none =>
      rw [hs] at hm
      have hpair : (none, ApplicationState.unmatched) = (none, y.state) := Except.ok.inj hm
      have hstate : ApplicationState.unmatched = y.state := (Prod.ext_iff.mp hpair).2
      rw [← hstate]
      decide
    | some b =>
      rw [hs] at hm
      obtain ⟨state, _, hm⟩ := bind_eq_ok.mp hm
      have hpair : (some b, state) = (none, y.state) := Except.ok.inj hm
      cases (Prod.ext_iff.mp hpair).1

section Import
variable (hi : Imported f c identity file raws s t prepared applied x)
include hi

theorem row_fate (hr : r ∈ added s t) {i : ℕ} (hid : r.paymentAttemptId = some i) :
    ∃ y ∈ prepared, ∃ a, y.attempt = some a ∧ a.id = i ∧ a ∈ s.books.paymentAttempts.rows ∧
      r.canonicalRow = y.row ∧
        r.applicationState = if a ∈ applied then .applied else .mismatched := by
  obtain ⟨y, hy, j, rfl⟩ := mem_rows hi.rows hr
  obtain ⟨a, ha, hai⟩ : ∃ a, y.attempt = some a ∧ a.id = i := Option.map_eq_some_iff.mp hid
  exact ⟨y, hy, a, ha, hai, attempt_stored hi.matched hy ha, rfl,
    finalState_eq hi.matched hi.judged hy ha⟩

theorem applied_row (hr : r ∈ added s t) (hstate : r.applicationState = .applied) :
    ∃ a ∈ applied, a ∈ s.books.paymentAttempts.rows ∧ r.paymentAttemptId = some a.id := by
  cases hid : r.paymentAttemptId with
  | none =>
    obtain ⟨y, hy, j, rfl⟩ := mem_rows hi.rows hr
    have ha : y.attempt = none := Option.map_eq_none_iff.mp hid
    have hkept : finalState applied y = y.state := by
      unfold finalState
      rw [ha]
    exact absurd (hkept.symm.trans hstate) (unapplied_of_none hi.matched hy ha)
  | some i =>
    obtain ⟨y, hy, a, ha, rfl, hmem, _, hif⟩ := row_fate hi hr hid
    refine ⟨a, ?_, hmem, rfl⟩
    by_contra hne
    rw [if_neg hne, hstate] at hif
    cases hif

theorem same_fate {r' : SettlementReportRow} {i : ℕ} (hr : r ∈ added s t) (hr' : r' ∈ added s t)
    (hid : r.paymentAttemptId = some i) (hid' : r'.paymentAttemptId = some i) :
    r.applicationState = r'.applicationState ∧
      (r.applicationState = .applied ∨ r.applicationState = .mismatched) := by
  obtain ⟨_, _, a, _, hai, hmem, _, hif⟩ := row_fate hi hr hid
  obtain ⟨_, _, b, _, hbi, hmem', _, hif'⟩ := row_fate hi hr' hid'
  obtain rfl : a = b := Table.eq_of_id hmem hmem' (hai.trans hbi.symm)
  refine ⟨hif.trans hif'.symm, ?_⟩
  by_cases happ : a ∈ applied
  · exact Or.inl (hif.trans (if_pos happ))
  · exact Or.inr (hif.trans (if_neg happ))

theorem group_matches (ha : a ∈ applied) (hmem : a ∈ s.books.paymentAttempts.rows)
    (hr : r ∈ added s t) (hid : r.paymentAttemptId = some a.id) :
    Matching f identity.reportType r.canonicalRow a := by
  obtain ⟨y, hy, b, hb, hba, hmem', hrow, _⟩ := row_fate hi hr hid
  obtain rfl : b = a := Table.eq_of_id hmem' hmem hba
  have hstate := applicable_applied ((mem_judge hi.judged).mp ha).2 hy (by simp [hb])
  have hm := (mem_prepare hi.matched hy).1
  rw [hb, hstate] at hm
  rw [hrow]
  exact (matching_of_matched hm).2

theorem group_bounded_iff (ha : a ∈ applied) :
    (∃ x ∈ t.imports.rows, x.identity = identity ∧ ∃ p,
      settlementFacts f identity.reportType (groupOf a.id (added s t)) x = .ok p ∧
        Recorded t.books a p ∧ Bounded identity.reportType
          (RecordSettlementRevision.facts (reportedPayment a p)) a.chargeAmountMinor) ↔
      Aligned f identity.reportType (entries (rowsOf a.id prepared)) a.chargeAmountMinor := by
  have hroom := applicable_room ((mem_judge hi.judged).mp ha).2
  rw [groupOf_rows hi.rows]
  constructor
  · rintro ⟨_, _, _, p, hp, _, hbounded⟩
    exact (bounded_iff_aligned (states_of_facts hp) hroom).mp hbounded
  · intro haligned
    obtain ⟨p, hp, hrecorded⟩ := hi.settled a ha
    exact ⟨x, hi.stored.1, hi.stored.2.1, p, hp, hrecorded,
      (bounded_iff_aligned (states_of_facts hp) hroom).mpr haligned⟩

end Import

theorem added_self : added s s = [] := List.drop_length

theorem unchanged_again {type : ReportType} {x : SettlementReportImport} {u v : Reports}
    (h : Commits (handle f c file reportType reportId isFixture) u m v)
    (hx : x ∈ u.imports.rows) (henv : c.environment = some environment)
    (htype : reportType? reportType = some type)
    (hid : x.identity = identityOf c environment type reportId)
    (hbytes : x.fileChecksum = file.bytes) : v = u := by
  rcases commits_handle h henv htype with ⟨_, hsame⟩ | ⟨hnone, _⟩
  · exact hsame
  · have hsome := existing_of_mem hx hid hbytes
    rw [hnone] at hsome
    cases hsome

theorem honoured_unchanged {y : SettlementReportImport} {bytes : String} (hy : y ∈ s.imports.rows)
    (hid : y.identity = identity) (hbytes : y.fileChecksum = bytes) :
    Honoured f identity bytes s s := by
  refine ⟨?_, ?_, ?_, ?_⟩
  · intro r hr
    rw [added_self] at hr
    cases hr
  · intro r hr
    rw [added_self] at hr
    cases hr
  · intro r hr
    rw [added_self] at hr
    cases hr
  · intro c' file' reportType' reportId' isFixture' environment' type' u n v h hkeep henv htype
      hsame hb
    exact unchanged_again h (hkeep y hy) henv htype (hid.trans hsame.symm) (hbytes.trans hb.symm)

theorem honoured_imported (hi : Imported f c identity file raws s t prepared applied x)
    (haligned : ∀ a ∈ applied,
      Aligned f identity.reportType (entries (rowsOf a.id prepared)) a.chargeAmountMinor) :
    Honoured f identity file.bytes s t := by
  refine ⟨?_, ?_, ?_, ?_⟩
  · intro r hr r' hr' i hid hid'
    exact same_fate hi hr hr' hid hid'
  · intro r hr hstate
    obtain ⟨a, ha, hmem, hid⟩ := applied_row hi hr hstate
    exact ⟨a, hmem, hid, fun r' hr' hid' => group_matches hi ha hmem hr' hid'⟩
  · intro r hr hstate
    obtain ⟨a, ha, hmem, hid⟩ := applied_row hi hr hstate
    exact ⟨a, hmem, hid, (group_bounded_iff hi ha).mpr (haligned a ha)⟩
  · intro c' file' reportType' reportId' isFixture' environment' type' u n v h hkeep henv htype
      hsame hb
    exact unchanged_again h (hkeep x hi.stored.1) henv htype (hi.stored.2.1.trans hsame.symm)
      (hi.stored.2.2.trans hb.symm)

theorem aligned_of_honoured (hi : Imported f c identity file raws s t prepared applied x)
    (hh : Honoured f identity file.bytes s t) (ha : a ∈ applied) :
    Aligned f identity.reportType (entries (rowsOf a.id prepared)) a.chargeAmountMinor := by
  obtain ⟨y, hy, hya⟩ := mem_attemptsOf.mp ((mem_judge hi.judged).mp ha).1
  obtain ⟨j, hr⟩ := row_of_mem hi.rows hy
  have hid : (ledgerRow x.id applied s.books.clock y j).paymentAttemptId = some a.id := by
    simp [ledgerRow, hya]
  have hstate : finalState applied y = .applied :=
    (finalState_eq hi.matched hi.judged hy hya).trans (if_pos ha)
  obtain ⟨b, hb, hbid, hbounded⟩ := hh.bounded _ hr hstate
  obtain rfl : a = b := Table.eq_of_id (attempt_stored hi.matched hy hya) hb
    (Option.some.inj (hid.symm.trans hbid))
  exact (group_bounded_iff hi ha).mp hbounded

theorem groupsAligned_of_honoured {type : ReportType}
    (hi : Imported f c (identityOf c environment type reportId) file raws s t prepared applied x)
    (hh : Honoured f (identityOf c environment type reportId) file.bytes s t) :
    GroupsAligned f s.books c environment type raws := by
  intro prepared' hprepared a ha happ
  obtain rfl : prepared' = prepared := Except.ok.inj (hprepared.symm.trans hi.matched)
  exact aligned_of_honoured hi hh ((mem_judge hi.judged).mpr ⟨ha, happ⟩)

theorem settlement_import_honoured_iff (f : Formats) (c : CheckoutConnection) (file : ReportFile)
    (reportType reportId : String) (isFixture : Bool) (environment : Environment)
    (type : ReportType) (raws : List Row) (s t : Reports) (m : ℕ)
    (h : Commits (handle f c file reportType reportId isFixture) s m t)
    (henv : c.environment = some environment) (htype : reportType? reportType = some type)
    (hread : f.read file.bytes type = .ok raws) :
    Honoured f (identityOf c environment type reportId) file.bytes s t ↔
      (existing? s (identityOf c environment type reportId) file.bytes).isSome = true ∨
        GroupsAligned f s.books c environment type raws := by
  rcases commits_handle h henv htype with ⟨hsome, rfl⟩ | ⟨hnone, raws', hread', himport⟩
  · refine iff_of_true ?_ (Or.inl hsome)
    obtain ⟨y, hy⟩ := Option.isSome_iff_exists.mp hsome
    obtain ⟨hmem, hid, hbytes⟩ := existing_some hy
    exact honoured_unchanged hmem hid hbytes
  · obtain rfl : raws = raws' := Except.ok.inj (hread.symm.trans hread')
    obtain ⟨prepared, applied, x, hi⟩ := commits_importRows himport
    constructor
    · exact fun hh => Or.inr (groupsAligned_of_honoured hi hh)
    · rintro (hsome | haligned)
      · rw [hnone] at hsome
        cases hsome
      · refine honoured_imported hi fun a ha => ?_
        obtain ⟨hof, happ⟩ := (mem_judge hi.judged).mp ha
        exact haligned prepared hi.matched a hof happ

instance : Decidable (Aligned f type group limit) := inferInstanceAs (Decidable (_ ∨ _))

def groupsAligned (f : Formats) (db : Database) (c : CheckoutConnection) (environment : Environment)
    (type : ReportType) (raws : List Row) : Bool :=
  match prepare f db c environment type [] raws with
  | .error _ => true
  | .ok prepared => (attemptsOf prepared).all fun a =>
      (applicable f type prepared a).toOption != some true ||
        decide (Aligned f type (entries (rowsOf a.id prepared)) a.chargeAmountMinor)

theorem groupsAligned_iff {db : Database} {type : ReportType} :
    groupsAligned f db c environment type raws = true ↔
      GroupsAligned f db c environment type raws := by
  unfold groupsAligned GroupsAligned
  cases hp : prepare f db c environment type [] raws with
  | error e => simp
  | ok prepared =>
    simp only [List.all_eq_true, Except.ok.injEq, forall_eq']
    refine forall_congr' fun a => forall_congr' fun _ => ?_
    cases ha : applicable f type prepared a with
    | error e => simp [Except.toOption]
    | ok b => cases b <;> simp [Except.toOption]

end Fate

section Scenario

def connection : CheckoutConnection where
  id := 0
  propertyId := some 0
  type := "payment"
  provider := "mercado_pago"
  product := "checkout_pro"
  environment := some .production
  externalAccountId := "lodge-account"
  isEnabled := true
  revokedAt := none
  secretReference := some "vault"
  chargeCurrency := some "USD"
  hostedCheckoutEnabled := true

def header : List String := ["USER_ID", "SITE", "TRANSACTION_TYPE", "SOURCE_ID",
  "EXTERNAL_REFERENCE", "TRANSACTION_AMOUNT", "TRANSACTION_CURRENCY", "FEE_AMOUNT",
  "SETTLEMENT_NET_AMOUNT", "SETTLEMENT_CURRENCY", "SETTLEMENT_DATE", "MONEY_RELEASE_DATE",
  "IS_RELEASED"]

def cells (type amount fee : String) : List String := ["lodge-account", "MLA", type, "pay-0",
  "attempt-0", amount, "USD", fee, amount, "USD", "2026-07-01", "2026-07-15", "true"]

def written (rows : List (List String)) : String :=
  String.intercalate "\n" ((header :: rows).map (String.intercalate ","))

-- The reader at the one text that is imported, and the amounts that stand in it.
def formats (rows : List (List String)) : Formats where
  read bytes _ :=
    if bytes = written rows then .ok (rows.map (List.zip header))
    else .error (.commercialWorkflow
      "The settlement report is missing mandatory official columns.")
  decimal major :=
    [("0.00", 0), ("100.00", 10000), ("-80.00", -8000), ("80.00", 8000)].lookup major

theorem formats_read (rows : List (List String)) (type : ReportType) :
    (formats rows).read (written rows) type = .ok (rows.map (List.zip header)) :=
  if_pos rfl

def unreported : Reports := ⟨Outflow.paid, .empty, .empty⟩

def received (rows : List (List String)) : ReportTx ℕ :=
  handle (formats rows) connection ⟨"account-money.csv", written rows⟩ "account_money" "report-0" false

def settlement : List String := cells "SETTLEMENT" "100.00" "0.00"
def refunded : List (List String) := [settlement, cells "REFUND" "-80.00" ""]
def cancelled : List (List String) := refunded ++ [cells "DISPUTE" "80.00" ""]

theorem refund_is_received : ∃ m t, Commits (received refunded) unreported m t ∧
    Honoured (formats refunded) (identityOf connection .production .accountMoney "report-0")
      (written refunded) unreported t := by
  obtain ⟨m, t, h⟩ := exists_commits (x := received refunded) (s := unreported) (by decide +kernel)
  exact ⟨m, t, h, (settlement_import_honoured_iff (formats refunded) connection _ "account_money"
    "report-0" false .production .accountMoney (refunded.map (List.zip header)) unreported t m h rfl
    (by decide) (formats_read _ _)).mpr (Or.inr (groupsAligned_iff.mp (by decide +kernel)))⟩

theorem cancelled_reversals_pass : ∃ m t, Commits (received cancelled) unreported m t ∧
    ¬ Honoured (formats cancelled) (identityOf connection .production .accountMoney "report-0")
      (written cancelled) unreported t := by
  obtain ⟨m, t, h⟩ := exists_commits (x := received cancelled) (s := unreported)
    (by decide +kernel)
  refine ⟨m, t, h, fun hh => ?_⟩
  have htype : reportType? "account_money" = some .accountMoney := by decide
  rcases commits_handle h rfl htype with
    ⟨hsome, _⟩ | ⟨_, raws, hread, himport⟩
  · cases hsome
  · obtain ⟨prepared, applied, x, hi⟩ := commits_importRows himport
    obtain rfl : cancelled.map (List.zip header) = raws :=
      Except.ok.inj ((formats_read _ _).symm.trans hread)
    have hpass := groupsAligned_iff.mpr (groupsAligned_of_honoured hi hh)
    revert hpass
    decide +kernel

end Scenario

end ImportMercadoPagoSettlementReport
