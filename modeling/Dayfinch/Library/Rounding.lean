/-
# Dayfinch.Library.Rounding -- `round`, true division and `decimal` of Python

`roundHalfEven` is `round` of a number that is no integer: to the nearest integer, a half to the even one.
`binary64` is the float nearest to a rational between 0 and 2 ^ 53, which has 53 binary digits, so that an
integer in that range is a float. What the proofs use of both is that they do not pass an integer. `decimal28` is
a result in the default context of `decimal`, which keeps what has no more than its 28 digits.
-/
import Mathlib.Data.Int.Log
import Mathlib.Data.Rat.Floor
import Mathlib.Tactic.Linarith
import Mathlib.Tactic.Positivity

namespace Dayfinch.Library

/-- `round(q)`. -/
def roundHalfEven (q : ℚ) : Int :=
  if q - ⌊q⌋ < 1 / 2 then ⌊q⌋
  else if 1 / 2 < q - ⌊q⌋ then ⌊q⌋ + 1
  else if ⌊q⌋ % 2 = 0 then ⌊q⌋ else ⌊q⌋ + 1

theorem le_roundHalfEven {q : ℚ} {n : Int} (h : n ≤ q) : n ≤ roundHalfEven q := by
  have hfloor : n ≤ ⌊q⌋ := Int.le_floor.mpr h
  unfold roundHalfEven
  split
  · exact hfloor
  · split
    · omega
    · split <;> omega

theorem roundHalfEven_le {q : ℚ} {n : Int} (h : q ≤ n) : roundHalfEven q ≤ n := by
  rcases h.lt_or_eq with hlt | heq
  · have hfloor : ⌊q⌋ < n := Int.floor_lt.mpr hlt
    unfold roundHalfEven
    split
    · omega
    · split
      · omega
      · split <;> omega
  · have hexact : q - ⌊q⌋ < 1 / 2 := by
      rw [heq, Int.floor_intCast]
      norm_num
    rw [roundHalfEven, if_pos hexact, heq, Int.floor_intCast]

/-- The float nearest to a rational between 0 and 2 ^ 53. -/
def binary64 (q : ℚ) : ℚ :=
  let digits := (52 - Int.log 2 q).toNat
  roundHalfEven (q * 2 ^ digits) / 2 ^ digits

theorem le_binary64 {q : ℚ} {n : Int} (h : n ≤ q) : n ≤ binary64 q := by
  unfold binary64
  generalize (52 - Int.log 2 q).toNat = digits
  have hpos : (0 : ℚ) < 2 ^ digits := by positivity
  dsimp only
  rw [le_div_iff₀ hpos]
  have hscaled : ((n * 2 ^ digits : Int) : ℚ) ≤ q * 2 ^ digits := by
    push_cast
    exact mul_le_mul_of_nonneg_right h hpos.le
  have hround : ((n * 2 ^ digits : Int) : ℚ) ≤ roundHalfEven (q * 2 ^ digits) :=
    Int.cast_le.mpr (le_roundHalfEven hscaled)
  push_cast at hround
  exact hround

theorem binary64_le {q : ℚ} {n : Int} (h : q ≤ n) : binary64 q ≤ n := by
  unfold binary64
  generalize (52 - Int.log 2 q).toNat = digits
  have hpos : (0 : ℚ) < 2 ^ digits := by positivity
  dsimp only
  rw [div_le_iff₀ hpos]
  have hscaled : q * 2 ^ digits ≤ ((n * 2 ^ digits : Int) : ℚ) := by
    push_cast
    exact mul_le_mul_of_nonneg_right h hpos.le
  have hround : (roundHalfEven (q * 2 ^ digits) : ℚ) ≤ ((n * 2 ^ digits : Int) : ℚ) :=
    Int.cast_le.mpr (roundHalfEven_le hscaled)
  push_cast at hround
  exact hround

/-- `round(a / b)`. -/
def roundedQuotient (a b : Int) : Int := roundHalfEven (binary64 (a / b))

theorem le_roundedQuotient {a b n : Int} (hb : 0 < b) (h : n * b ≤ a) : n ≤ roundedQuotient a b := by
  have hpos : (0 : ℚ) < b := Int.cast_pos.mpr hb
  refine le_roundHalfEven (le_binary64 ((le_div_iff₀ hpos).mpr ?_))
  exact_mod_cast h

theorem roundedQuotient_le {a b n : Int} (hb : 0 < b) (h : a ≤ n * b) : roundedQuotient a b ≤ n := by
  have hpos : (0 : ℚ) < b := Int.cast_pos.mpr hb
  refine roundHalfEven_le (binary64_le ((div_le_iff₀ hpos).mpr ?_))
  exact_mod_cast h

/-! ## Decimals -/

theorem roundHalfEven_intCast (n : Int) : roundHalfEven n = n :=
  le_antisymm (roundHalfEven_le le_rfl) (le_roundHalfEven le_rfl)

/-- A number to 28 significant digits, half to even. -/
def decimal28 (q : ℚ) : ℚ :=
  let scale : ℚ := 10 ^ (27 - Int.log 10 |q|)
  roundHalfEven (q * scale) / scale

/-- A number of at most 28 digits, `k` of them decimals. -/
theorem decimal28_eq {q : ℚ} {n : Int} {k : Nat} (h : q * 10 ^ k = n) (hn : |n| < 10 ^ 28) : decimal28 q = q := by
  obtain ⟨e, he⟩ : ∃ e, 27 - Int.log 10 |q| = e := ⟨_, rfl⟩
  have hk : (k : Int) ≤ e ∨ q = 0 := by
    by_contra hnot
    obtain ⟨hlt, hne⟩ := not_or.mp hnot
    have hpos : 0 < |q| := abs_pos.mpr hne
    have hlog : (10 : ℚ) ^ (28 - (k : Int)) ≤ |q| := by
      have hle : 28 - (k : Int) ≤ Int.log 10 |q| := by omega
      exact_mod_cast (Int.zpow_le_iff_le_log (b := 10) (by norm_num) hpos).mpr hle
    have hscaled : (10 : ℚ) ^ (28 - (k : Int)) * 10 ^ k ≤ |q| * 10 ^ k := by gcongr
    rw [← zpow_natCast (10 : ℚ) k, ← zpow_add₀ (by norm_num), sub_add_cancel] at hscaled
    have habs : |q| * 10 ^ k = ((|n| : Int) : ℚ) := by
      rw [Int.cast_abs, ← h, abs_mul, abs_of_pos (by positivity : (0 : ℚ) < 10 ^ k)]
    rw [zpow_natCast, habs] at hscaled
    have hle : (10 : Int) ^ 28 ≤ |n| := by exact_mod_cast hscaled
    omega
  rw [decimal28, he]
  rcases hk with hk | rfl
  · obtain ⟨d, hd⟩ := Int.eq_ofNat_of_zero_le (Int.sub_nonneg.mpr hk)
    have hpow : (10 : ℚ) ^ e = 10 ^ k * 10 ^ d := by
      rw [← zpow_natCast, ← zpow_natCast, ← zpow_add₀ (by norm_num)]
      congr 1
      omega
    have hinteger : q * (10 : ℚ) ^ e = ((n * 10 ^ d : Int) : ℚ) := by
      rw [hpow, ← mul_assoc, h]
      push_cast
      ring
    rw [hinteger, roundHalfEven_intCast, ← hinteger, mul_div_cancel_right₀ _ (zpow_ne_zero e (by norm_num))]
  · simp [roundHalfEven]

end Dayfinch.Library
