import Mathlib.Tactic

namespace Nearest
variable {n d m k : ℤ}

-- The whole number nearest to the quotient, away from zero when two are equally near.
structure Rounds (n d k : ℤ) : Prop where
  near : 2 * |n - k * d| ≤ d
  away : 2 * |n - k * d| = d → |n| ≤ |k * d|

def round (n d : ℤ) : ℤ :=
  if n < 0 then -((2 * -n + d) / (2 * d)) else (2 * n + d) / (2 * d)

theorem round_neg (hd : 0 < d) : round (-n) d = -round n d := by
  have hzero : d / (2 * d) = 0 := Int.ediv_eq_zero_of_lt hd.le (by omega)
  unfold round
  rcases lt_trichotomy n 0 with hn | rfl | hn
  · rw [if_neg (by omega), if_pos hn, neg_neg]
  · simp [hzero]
  · rw [if_pos (by omega), if_neg (by omega), neg_neg]

theorem round_eq_iff (hd : 0 < d) (hn : 0 ≤ n) :
    round n d = k ↔ 2 * k * d ≤ 2 * n + d ∧ 2 * n + d < 2 * (k + 1) * d := by
  have hdouble : 0 < 2 * d := by omega
  rw [round, if_neg (by omega), Int.ediv_eq_iff_of_pos hdouble]
  constructor
  · rintro ⟨hlow, hhigh⟩
    constructor <;> linarith
  · rintro ⟨hlow, hhigh⟩
    constructor <;> linarith

theorem round_nonneg (hd : 0 < d) (hn : 0 ≤ n) : 0 ≤ round n d := by
  rw [round, if_neg (by omega)]
  exact Int.ediv_nonneg (by omega) (by omega)

theorem Rounds.neg (h : Rounds n d k) : Rounds (-n) d (-k) := by
  have hdist : |-n - -k * d| = |n - k * d| := by
    rw [← abs_neg]
    congr 1
    ring
  refine ⟨hdist ▸ h.near, fun htie => ?_⟩
  rw [abs_neg, neg_mul, abs_neg]
  exact h.away (hdist ▸ htie)

theorem rounds_of_nonneg (hd : 0 < d) (hn : 0 ≤ n) : Rounds n d (round n d) := by
  obtain ⟨hlow, hhigh⟩ := (round_eq_iff hd hn).mp rfl
  have hk : 0 ≤ round n d * d := mul_nonneg (round_nonneg hd hn) hd.le
  have hright : 2 * (n - round n d * d) < d := by linarith
  have hleft : -d ≤ 2 * (n - round n d * d) := by linarith
  constructor
  · rcases abs_cases (n - round n d * d) with ⟨he, _⟩ | ⟨he, _⟩ <;> omega
  · intro htie
    rw [abs_of_nonneg hn, abs_of_nonneg hk]
    rcases abs_cases (n - round n d * d) with ⟨he, _⟩ | ⟨he, _⟩ <;> omega

theorem rounds_round (hd : 0 < d) : Rounds n d (round n d) := by
  rcases le_total 0 n with hn | hn
  · exact rounds_of_nonneg hd hn
  · have h := (rounds_of_nonneg (n := -n) hd (by omega)).neg
    rwa [round_neg hd, neg_neg, neg_neg] at h

-- A quotient that is first rounded to a finer unit is rounded to the same whole number, when the
-- finer unit is below what the divisor can tell apart.
theorem round_round (hd : 0 < d) (hm : d < m) : round (round (n * m) d) m = round n d := by
  have hpos : 0 < m := hd.trans hm
  have hnonneg : ∀ {n : ℤ}, 0 ≤ n → round (round (n * m) d) m = round n d := by
    intro n hn
    have hprod : 0 ≤ n * m := mul_nonneg hn hpos.le
    obtain ⟨hlow, hhigh⟩ := (round_eq_iff hd hn).mp rfl
    obtain ⟨hfine, hfine'⟩ := (round_eq_iff hd hprod).mp rfl
    rw [round_eq_iff hpos (round_nonneg hd hprod)]
    generalize round (n * m) d = j at *
    generalize round n d = k at *
    have hbelow : 2 * n + d ≤ 2 * (k + 1) * d - 1 := by omega
    constructor
    · have hscaled : 2 * k * d * m ≤ (2 * n + d) * m := mul_le_mul_of_nonneg_right hlow hpos.le
      have hlt : 2 * k * m * d < (2 * j + m + 1) * d := by linarith
      exact Int.lt_add_one_iff.mp (lt_of_mul_lt_mul_right hlt hd.le)
    · have hscaled : (2 * n + d) * m ≤ (2 * (k + 1) * d - 1) * m :=
        mul_le_mul_of_nonneg_right hbelow hpos.le
      have hlt : (2 * j + m) * d < 2 * (k + 1) * m * d := by linarith
      exact lt_of_mul_lt_mul_right hlt hd.le
  rcases le_total 0 n with hn | hn
  · exact hnonneg hn
  · have h := hnonneg (n := -n) (by omega)
    rwa [neg_mul, round_neg hd, round_neg hd, round_neg hpos, neg_inj] at h

end Nearest
