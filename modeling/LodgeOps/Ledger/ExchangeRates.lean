import LodgeOps.Schema.Database
import LodgeOps.Store.Nearest

namespace ExchangeRateService
open Schema Transaction Nearest

section Decimals

-- The digits of an exact decimal, and how many of them stand after the point.
structure BigDecimal where
  unscaled : ℤ
  scale : ℕ
deriving DecidableEq

namespace BigDecimal

def ofInt (n : ℤ) : BigDecimal := ⟨n, 0⟩

-- Halves are rounded up, which is away from zero.
def toScale (x : BigDecimal) (scale : ℕ) : BigDecimal :=
  ⟨round (x.unscaled * 10 ^ scale) (10 ^ x.scale), scale⟩

def multipliedBy (x y : BigDecimal) : BigDecimal := ⟨x.unscaled * y.unscaled, x.scale + y.scale⟩

def dividedBy (x y : BigDecimal) (scale : ℕ) : Except Failure BigDecimal :=
  if y.unscaled = 0 then .error (.runtime "Division by zero.")
  else .ok ⟨round (x.unscaled * y.unscaled.sign * 10 ^ (scale + y.scale))
    (|y.unscaled| * 10 ^ x.scale), scale⟩

def toInt (x : BigDecimal) : Except Failure ℤ :=
  if -2 ^ 63 ≤ x.unscaled ∧ x.unscaled < 2 ^ 63 then .ok x.unscaled
  else .error (.runtime "Integer overflow.")

end BigDecimal
end Decimals

section Snapshots

def strlen (s : String) : ℕ := s.utf8ByteSize

def SameInstant (r s : ExchangeRate) : Prop :=
  r.propertyId = s.propertyId ∧ r.baseCurrency = s.baseCurrency ∧
    r.quoteCurrency = s.quoteCurrency ∧ r.effectiveAt = s.effectiveAt

instance (r s : ExchangeRate) : Decidable (SameInstant r s) := by unfold SameInstant; infer_instance

-- The column holds twenty digits, ten of them after the point.
def create (r : ExchangeRate) : Tx ExchangeRate := do
  let db ← get
  reject (10 ^ 20 ≤ r.rate) (.runtime "SQLSTATE[22003]: Numeric value out of range")
  reject (80 < r.source.length) (.runtime "SQLSTATE[22001]: String data, right truncated")
  reject (∃ s ∈ db.exchangeRates.rows, SameInstant r s) (.runtime "SQLSTATE[23505]: Unique violation")
  set { db with exchangeRates := db.exchangeRates.insert fun i => { r with id := i } }
  pure { r with id := db.exchangeRates.next }

def snapshot (ofText : String → Except Failure BigDecimal)
    (baseCurrency quoteCurrency rate source : String) (effectiveAt : ℤ) (propertyId : Option ℕ) :
    Tx ExchangeRate := do
  let base := upper (trim baseCurrency)
  let quote := upper (trim quoteCurrency)
  let decimal ← check fun _ => ofText (trim rate)
  reject (strlen base ≠ 3 ∨ strlen quote ≠ 3)
    (.domain "Exchange-rate currencies must be three-letter ISO codes.")
  reject (base = quote) (.domain "Exchange-rate currencies must be different.")
  reject (decimal.unscaled ≤ 0) (.domain "Exchange rate must be positive.")
  reject (trim source = "") (.domain "Exchange-rate source is required.")
  create {
    id := 0
    propertyId := propertyId
    baseCurrency := base
    quoteCurrency := quote
    rate := (decimal.toScale 10).unscaled.toNat
    effectiveAt := effectiveAt
    source := trim source }

end Snapshots

section Conversions

inductive Direction
  | identity
  | direct
  | inverse
deriving DecidableEq

structure Conversion where
  snapshot : Option ExchangeRate
  fromCurrency : String
  toCurrency : String
  rate : BigDecimal
  source : String
  effectiveAt : ℤ
  propertyId : Option ℕ
  direction : Direction
deriving DecidableEq

def query (db : Database) (baseCurrency quoteCurrency : String) (effectiveAt : ℤ)
    (propertyId : Option ℕ) : Option ExchangeRate :=
  db.exchangeRates.oldest? (fun r => r.baseCurrency == baseCurrency &&
    r.quoteCurrency == quoteCurrency && r.propertyId == propertyId &&
      decide (r.effectiveAt ≤ effectiveAt)) fun r => -r.effectiveAt

def applicable (db : Database) (baseCurrency quoteCurrency : String) (effectiveAt : ℤ)
    (propertyId : Option ℕ) : Option ExchangeRate :=
  ((query db (upper baseCurrency) (upper quoteCurrency) effectiveAt propertyId).filter
    fun _ => propertyId.isSome).or (query db (upper baseCurrency) (upper quoteCurrency) effectiveAt none)

def stored (r : ExchangeRate) : BigDecimal := ⟨r.rate, 10⟩

def conversionData (snapshot : ExchangeRate) (fromCurrency toCurrency : String)
    (direction : Direction) (rate : BigDecimal) : Conversion where
  snapshot := some snapshot
  fromCurrency := fromCurrency
  toCurrency := toCurrency
  rate := rate
  source := snapshot.source
  effectiveAt := snapshot.effectiveAt
  propertyId := snapshot.propertyId
  direction := direction

def identity (currency : String) (effectiveAt : ℤ) (propertyId : Option ℕ) : Conversion where
  snapshot := none
  fromCurrency := currency
  toCurrency := currency
  rate := ⟨10 ^ 10, 10⟩
  source := "identity"
  effectiveAt := effectiveAt
  propertyId := propertyId
  direction := .identity

def inverted (r : ExchangeRate) : Except Failure BigDecimal := do
  let rate ← (BigDecimal.ofInt 1).dividedBy (stored r) 20
  pure (rate.toScale 10)

def conversion (db : Database) (fromCurrency toCurrency : String) (effectiveAt : ℤ)
    (propertyId : Option ℕ) : Except Failure (Option Conversion) :=
  let source := upper fromCurrency
  let target := upper toCurrency
  if source = target then .ok (some (identity source effectiveAt propertyId))
  else
    match applicable db source target effectiveAt propertyId with
    | some direct => .ok (some (conversionData direct source target .direct (stored direct)))
    | none =>
      match applicable db target source effectiveAt propertyId with
      | none => .ok none
      | some inverse => do
        let rate ← inverted inverse
        pure (some (conversionData inverse source target .inverse rate))

def roundMinor (amount : BigDecimal) : Except Failure ℤ := (amount.toScale 0).toInt

def convertMinor (amountMinor : ℤ) (snapshot : ExchangeRate) : Except Failure ℤ :=
  roundMinor ((BigDecimal.ofInt amountMinor).multipliedBy (stored snapshot))

def convertMinorForConversion (amountMinor : ℤ) (c : Conversion) : Except Failure ℤ :=
  if c.direction = .inverse then do
    let snapshot ← found c.snapshot (.runtime "Attempt to read property \"rate\" on null")
    let amount ← (BigDecimal.ofInt amountMinor).dividedBy (stored snapshot) 20
    roundMinor amount
  else roundMinor ((BigDecimal.ofInt amountMinor).multipliedBy c.rate)

end Conversions

section Agreement
variable {db db' : Database} {r : ExchangeRate} {c : Conversion} {amount n : ℤ}

theorem toScale_zero {x : BigDecimal} : x.toScale 0 = ⟨round x.unscaled (10 ^ x.scale), 0⟩ := by
  simp [BigDecimal.toScale]

theorem roundMinor_product :
    roundMinor ((BigDecimal.ofInt amount).multipliedBy c.rate) =
      (BigDecimal.ofInt (round (amount * c.rate.unscaled) (10 ^ c.rate.scale))).toInt := by
  simp [roundMinor, toScale_zero, BigDecimal.multipliedBy, BigDecimal.ofInt]

theorem dividedBy_stored (hr : r.rate ≠ 0) : (BigDecimal.ofInt n).dividedBy (stored r) 20 =
    .ok ⟨round (n * 10 ^ 10 * 10 ^ 20) r.rate, 20⟩ := by
  have hpos : 0 < (r.rate : ℤ) := by omega
  rw [BigDecimal.dividedBy, if_neg (by simp [stored, hr])]
  congr 2
  simp only [BigDecimal.ofInt, stored, Int.sign_eq_one_of_pos hpos, abs_of_pos hpos]
  norm_num
  ring_nf

-- The quotient is rounded to twenty digits first, which is finer than any rate tells apart.
theorem roundMinor_quotient (hr : r.rate ≠ 0) (hlt : r.rate < 10 ^ 20) :
    roundMinor ⟨round (amount * 10 ^ 10 * 10 ^ 20) r.rate, 20⟩ =
      (BigDecimal.ofInt (round (amount * 10 ^ 10) r.rate)).toInt := by
  have hpos : 0 < (r.rate : ℤ) := by omega
  have hfine : (r.rate : ℤ) < 10 ^ 20 := by exact_mod_cast hlt
  rw [roundMinor, toScale_zero, round_round hpos hfine]
  rfl

theorem convert_inverse {s : ExchangeRate} (hdir : c.direction = .inverse)
    (hs : c.snapshot = some s) (hr : s.rate ≠ 0) (hlt : s.rate < 10 ^ 20) :
    convertMinorForConversion amount c =
      (BigDecimal.ofInt (round (amount * 10 ^ 10) s.rate)).toInt := by
  rw [convertMinorForConversion, if_pos hdir, hs, ← roundMinor_quotient hr hlt]
  simp only [found, bind, Except.bind, dividedBy_stored hr]

def reciprocal (r : ExchangeRate) : ℤ := round (round (10 ^ 10 * 10 ^ 20) r.rate * 10 ^ 10) (10 ^ 20)

theorem inverted_eq (hr : r.rate ≠ 0) : inverted r = .ok ⟨reciprocal r, 10⟩ := by
  have hquotient := dividedBy_stored (n := 1) hr
  rw [one_mul] at hquotient
  rw [inverted, hquotient]
  rfl

theorem reciprocal_near (hr : r.rate ≠ 0) :
    |reciprocal r * r.rate - 10 ^ 20| < (r.rate : ℤ) := by
  have hpos : 0 < (r.rate : ℤ) := by omega
  have hfine : 2 * |10 ^ 10 * 10 ^ 20 - round (10 ^ 10 * 10 ^ 20) r.rate * r.rate| ≤ (r.rate : ℤ) :=
    (rounds_round hpos).near
  have hcoarse : 2 * |round (10 ^ 10 * 10 ^ 20) r.rate * 10 ^ 10 - reciprocal r * 10 ^ 20| ≤
      (10 ^ 20 : ℤ) := (rounds_round (by norm_num)).near
  generalize round (10 ^ 10 * 10 ^ 20) r.rate = j at hfine hcoarse
  generalize reciprocal r = k at hcoarse ⊢
  generalize (r.rate : ℤ) = m at hpos hfine ⊢
  have hstep : 2 * |j - k * 10 ^ 10| ≤ 10 ^ 10 := by
    rcases abs_cases (j - k * 10 ^ 10) with ⟨he, _⟩ | ⟨he, _⟩ <;>
      rcases abs_cases (j * 10 ^ 10 - k * 10 ^ 20) with ⟨hf, _⟩ | ⟨hf, _⟩ <;> omega
  have hscaled : |(j - k * 10 ^ 10) * m| = |j - k * 10 ^ 10| * m := by
    rw [abs_mul, abs_of_pos hpos]
  have hscale : 2 * (|j - k * 10 ^ 10| * m) ≤ 10 ^ 10 * m := by
    have hmul := mul_le_mul_of_nonneg_right hstep hpos.le
    linarith
  have hsum : |(k * m - 10 ^ 20) * 10 ^ 10| ≤
      |10 ^ 10 * 10 ^ 20 - j * m| + |(j - k * 10 ^ 10) * m| := by
    rw [← abs_neg ((k * m - 10 ^ 20) * 10 ^ 10)]
    have hsplit : -((k * m - 10 ^ 20) * 10 ^ 10) =
        (10 ^ 10 * 10 ^ 20 - j * m) + (j - k * 10 ^ 10) * m := by ring
    rw [hsplit]
    exact abs_add_le _ _
  rw [abs_mul, abs_of_pos (show (0 : ℤ) < 10 ^ 10 by norm_num)] at hsum
  linarith

-- What a conversion hands out, for an amount: the product with the rate it reports, or in the
-- inverse direction the quotient by the rate of its snapshot.
structure Converts (c : Conversion) (amount k : ℤ) : Prop where
  returned : convertMinorForConversion amount c = (BigDecimal.ofInt k).toInt
  reported : c.direction ≠ .inverse → Rounds (amount * c.rate.unscaled) (10 ^ c.rate.scale) k
  inverse : c.direction = .inverse → ∃ s ∈ c.snapshot, Rounds (amount * 10 ^ 10) s.rate k ∧
    c.rate.scale = 10 ∧ |c.rate.unscaled * s.rate - 10 ^ 20| < (s.rate : ℤ)

theorem converts_of_reported (hdir : c.direction ≠ .inverse) :
    Converts c amount (round (amount * c.rate.unscaled) (10 ^ c.rate.scale)) := by
  constructor
  · rw [convertMinorForConversion, if_neg hdir, roundMinor_product]
  · exact fun _ => rounds_round (by positivity)
  · exact fun h => absurd h hdir

theorem converts_of_inverse {s : ExchangeRate} (hdir : c.direction = .inverse)
    (hs : c.snapshot = some s) (hrate : c.rate = ⟨reciprocal s, 10⟩) (hr : s.rate ≠ 0)
    (hlt : s.rate < 10 ^ 20) : Converts c amount (round (amount * 10 ^ 10) s.rate) := by
  have hpos : 0 < (s.rate : ℤ) := by omega
  constructor
  · exact convert_inverse hdir hs hr hlt
  · exact fun h => absurd hdir h
  · intro _
    refine ⟨s, hs, rounds_round hpos, ?_, ?_⟩
    · rw [hrate]
    · rw [hrate]
      exact reciprocal_near hr

theorem applicable_mem {base quote : String} {at' : ℤ} {p : Option ℕ}
    (h : applicable db base quote at' p = some r) : r ∈ db.exchangeRates.rows := by
  rcases Option.or_eq_some_iff.mp h with h | ⟨_, h⟩
  · exact (Table.oldest?_some (Option.filter_eq_some_iff.mp h).1).1
  · exact (Table.oldest?_some h).1

end Agreement

section Runs
variable {ofText : String → Except Failure BigDecimal} {db₀ db db' : Database}

structure Quotation where
  baseCurrency : String
  quoteCurrency : String
  rate : String
  source : String
  effectiveAt : ℤ
  propertyId : Option ℕ

def record (ofText : String → Except Failure BigDecimal) (q : Quotation) : Tx Unit := do
  let _ ← snapshot ofText q.baseCurrency q.quoteCurrency q.rate q.source q.effectiveAt q.propertyId
  pure ()

def Stored (db : Database) : Prop := ∀ r ∈ db.exchangeRates.rows, r.rate < 10 ^ 20

theorem stored_create {r s : ExchangeRate} (hs : Stored db) (h : Commits (create r) db s db') :
    Stored db' := by
  unfold create at h
  have h := commits_get_bind.mp h
  obtain ⟨hrate, h⟩ := commits_reject_bind.mp h
  obtain ⟨_, h⟩ := commits_reject_bind.mp h
  obtain ⟨_, h⟩ := commits_reject_bind.mp h
  obtain ⟨_, rfl⟩ := commits_pure.mp (commits_set_bind.mp h :)
  have hnames : Names fun i => { r with id := i } := fun _ => rfl
  intro q hq
  rcases (Table.mem_insert hnames).mp hq with hq | rfl
  · exact hs q hq
  · exact not_le.mp hrate

theorem stored_snapshot {base quote rate source : String} {at' : ℤ} {p : Option ℕ} {r : ExchangeRate}
    (hs : Stored db) (h : Commits (snapshot ofText base quote rate source at' p) db r db') :
    Stored db' := by
  unfold snapshot at h
  dsimp only at h
  obtain ⟨_, _, h⟩ := commits_check_bind.mp h
  obtain ⟨_, h⟩ := commits_reject_bind.mp h
  obtain ⟨_, h⟩ := commits_reject_bind.mp h
  obtain ⟨_, h⟩ := commits_reject_bind.mp h
  obtain ⟨_, h⟩ := commits_reject_bind.mp h
  exact stored_create hs h

theorem stored_record {q : Quotation} (hs : Stored db) (h : Commits (record ofText q) db () db') :
    Stored db' := by
  obtain ⟨r, t, hsnapshot, hpure⟩ := commits_bind.mp h
  obtain ⟨_, rfl⟩ := commits_pure.mp hpure
  exact stored_snapshot hs hsnapshot

theorem conversions_follow_their_snapshot (h : Reaches (record ofText) (fun _ _ => True) db₀ db)
    (hempty : db₀.exchangeRates.rows = []) (hrates : ∀ r ∈ db.exchangeRates.rows, r.rate ≠ 0)
    (fromCurrency toCurrency : String) (effectiveAt : ℤ) (propertyId : Option ℕ) :
    ∃ found, conversion db fromCurrency toCurrency effectiveAt propertyId = .ok found ∧
      ∀ c ∈ found, ∀ amount, ∃ k, Converts c amount k := by
  have hstored : Stored db :=
    h.invariant (by simp [Stored, hempty]) fun _ _ _ hs _ hc => stored_record hs hc
  unfold conversion
  dsimp only
  split_ifs
  · refine ⟨_, rfl, fun c hc amount => ⟨_, converts_of_reported ?_⟩⟩
    obtain rfl := Option.some.inj hc
    simp [identity]
  · split
    · refine ⟨_, rfl, fun c hc amount => ⟨_, converts_of_reported ?_⟩⟩
      obtain rfl := Option.some.inj hc
      simp [conversionData]
    · split
      · exact ⟨none, rfl, by simp⟩
      · next inverse hfound =>
        have hmem := applicable_mem hfound
        rw [inverted_eq (hrates _ hmem)]
        refine ⟨_, rfl, fun c hc amount => ⟨round (amount * 10 ^ 10) inverse.rate, ?_⟩⟩
        obtain rfl := Option.some.inj hc
        exact converts_of_inverse rfl rfl rfl (hrates _ hmem) (hstored _ hmem)

end Runs

section Scenario

def desk : Database where
  clock := 0
  catalogue := .empty

-- Whole rates only.
def ofDigits (s : String) : Except Failure BigDecimal :=
  if s.toList.all Char.isDigit ∧ s ≠ "" then
    .ok ⟨s.toList.foldl (fun n c => 10 * n + (c.toNat - 48 : ℕ)) 0, 0⟩
  else .error (.runtime "NumberFormatException")

def thirds : Quotation := ⟨"USD", "BRL", "3", "central-bank", 0, none⟩

def reportedThird (db : Database) : Bool :=
  decide (∀ r ∈ db.exchangeRates.rows, r.rate ≠ 0) &&
    match conversion db "BRL" "USD" 0 none with
    | .ok (some c) => decide (c.rate = ⟨3333333333, 10⟩ ∧
        convertMinorForConversion 30000000000 c = .ok 10000000000)
    | _ => false

theorem third_converts : ∃ db c k, Reaches (record ofDigits) (fun _ _ => True) desk db ∧
    conversion db "BRL" "USD" 0 none = .ok (some c) ∧ Converts c 30000000000 k := by
  obtain ⟨db, hr, hp⟩ : ∃ db, Reaches (record ofDigits) (fun _ _ => True) desk db ∧
      reportedThird db = true := Reaches.exists_of_run [thirds] (by decide +kernel)
  obtain ⟨hrates, hp⟩ := Bool.and_eq_true_iff.mp hp
  obtain ⟨found, hfound, hall⟩ :=
    conversions_follow_their_snapshot hr rfl (of_decide_eq_true hrates) "BRL" "USD" 0 none
  rw [hfound] at hp
  cases found with
  | none => cases hp
  | some c =>
    obtain ⟨k, hk⟩ := hall c rfl 30000000000
    exact ⟨db, c, k, hr, hfound, hk⟩

theorem third_differs_from_reported : ∃ db c, Reaches (record ofDigits) (fun _ _ => True) desk db ∧
    conversion db "BRL" "USD" 0 none = .ok (some c) ∧
      convertMinorForConversion 30000000000 c = .ok 10000000000 ∧
        Rounds (30000000000 * c.rate.unscaled) (10 ^ c.rate.scale) 9999999999 := by
  obtain ⟨db, hr, hp⟩ : ∃ db, Reaches (record ofDigits) (fun _ _ => True) desk db ∧
      reportedThird db = true := Reaches.exists_of_run [thirds] (by decide +kernel)
  obtain ⟨_, hp⟩ := Bool.and_eq_true_iff.mp hp
  split at hp
  · next c hc =>
    obtain ⟨hrate, hconverted⟩ := of_decide_eq_true hp
    refine ⟨db, c, hr, hc, hconverted, ?_⟩
    rw [hrate]
    constructor <;> norm_num
  · cases hp

end Scenario
end ExchangeRateService
