/-
# Dayfinch.Library.Calendar -- days, weeks and months of the proleptic Gregorian calendar

A date is the number of days since 1970-01-01, as an integer. Weeks begin on a configurable weekday;
months are numbered by `12 * year + (month - 1)`, so that the month after `k` is `k + 1` across
year ends. `monthOf` computes the month of a date by the usual 400/100/4/1-year division, and
`monthOf_eq_iff` is the rule the proofs use: `monthOf d` is the one month whose first day is at or
before `d` and whose successor's first day is after `d`.

All results are over every integer date; no range of years is assumed.
-/
import Mathlib.Data.Int.ConditionallyCompleteOrder
import Mathlib.Data.Int.SuccPred
import Mathlib.Order.Monotone.Basic
import Mathlib.Order.SuccPred.IntervalSucc
import Mathlib.Tactic.IntervalCases
import Mathlib.Tactic.Ring

namespace Dayfinch.Library.Calendar

/-! ## Weeks -/

/-- `date.weekday()`: Monday is 0. The first of January 1970 was a Thursday. -/
def weekday (d : Int) : Int := (d + 3) % 7

/-- The last day at or before `d` that falls on weekday `first`. -/
def weekStart (first : Int) (d : Int) : Int := d - (weekday d - first) % 7

theorem weekStart_le (first : Int) (d : Int) : weekStart first d ≤ d := by
  unfold weekStart; omega

theorem lt_weekStart_add_seven (first : Int) (d : Int) : d < weekStart first d + 7 := by
  unfold weekStart; omega

/-- A day begins a week when it is its own week start. -/
def IsWeekStart (first : Int) (d : Int) : Prop := weekStart first d = d

theorem isWeekStart_iff (first : Int) (d : Int) :
    IsWeekStart first d ↔ (weekday d - first) % 7 = 0 := by
  unfold IsWeekStart weekStart; omega

theorem isWeekStart_weekStart (first : Int) (d : Int) : IsWeekStart first (weekStart first d) := by
  rw [isWeekStart_iff]; unfold weekStart weekday; omega

/-- The week start of `d` is the only week start in the seven days up to `d`. -/
theorem weekStart_eq_iff (first : Int) (d w : Int) :
    weekStart first d = w ↔ IsWeekStart first w ∧ w ≤ d ∧ d < w + 7 := by
  constructor
  · rintro rfl
    exact ⟨isWeekStart_weekStart first d, weekStart_le first d, lt_weekStart_add_seven first d⟩
  · rintro ⟨hw, hle, hlt⟩
    rw [isWeekStart_iff] at hw
    unfold weekStart weekday at *; omega

/-- A day is before a week start exactly when its week is. -/
theorem weekStart_lt_iff {first d w : Int} (hw : IsWeekStart first w) :
    weekStart first d < w ↔ d < w := by
  rw [isWeekStart_iff] at hw
  unfold weekStart weekday at *; omega

/-- Two days are in one week exactly when no week start separates them. -/
theorem weekStart_eq_weekStart_iff {first d e : Int} :
    weekStart first d = weekStart first e ↔ ∀ w, IsWeekStart first w → (d < w ↔ e < w) := by
  constructor
  · intro h w hw
    rw [← weekStart_lt_iff hw, h, weekStart_lt_iff hw]
  · intro h
    have hw := isWeekStart_weekStart first e
    have hnext : IsWeekStart first (weekStart first e + 7) := by
      rw [isWeekStart_iff] at hw ⊢
      unfold weekday at *; omega
    refine (weekStart_eq_iff first d _).mpr ⟨hw, ?_, ?_⟩
    · exact not_lt.mp fun hlt => not_lt.mpr (weekStart_le first e) ((h _ hw).mp hlt)
    · exact (h _ hnext).mpr (lt_weekStart_add_seven first e)

/-! ## Years -/

/-- Leap years of the Gregorian rule, as the length of February beyond 28 days. -/
def leap (y : Int) : Int := if y % 4 = 0 ∧ (y % 100 ≠ 0 ∨ y % 400 = 0) then 1 else 0

theorem leap_cases (y : Int) : leap y = 0 ∨ leap y = 1 := by
  unfold leap; split <;> simp

/-- Days from the first of January of year 1 to the first of January of year `y`. -/
def daysBeforeYear (y : Int) : Int := (y - 1) * 365 + (y - 1) / 4 - (y - 1) / 100 + (y - 1) / 400

theorem daysBeforeYear_succ (y : Int) : daysBeforeYear (y + 1) = daysBeforeYear y + 365 + leap y := by
  have h4 : y / 4 = (y - 1) / 4 + if y % 4 = 0 then 1 else 0 := by split <;> omega
  have h100 : y / 100 = (y - 1) / 100 + if y % 100 = 0 then 1 else 0 := by split <;> omega
  have h400 : y / 400 = (y - 1) / 400 + if y % 400 = 0 then 1 else 0 := by split <;> omega
  unfold daysBeforeYear leap
  simp only [add_sub_cancel_right]
  rw [h4, h100, h400]
  split_ifs <;> omega

/-- The year of the day `n` days after the first of January of year 1. -/
def yearOfDay (n : Int) : Int :=
  let n400 := n / 146097
  let r400 := n % 146097
  let n100 := r400 / 36524
  let r100 := r400 % 36524
  let n4 := r100 / 1461
  let r4 := r100 % 1461
  let n1 := r4 / 365
  let year := n400 * 400 + n100 * 100 + n4 * 4 + n1 + 1
  if n1 = 4 ∨ n100 = 4 then year - 1 else year

/-- `daysBeforeYear` in the digits of the 400/100/4/1-year division. -/
theorem daysBeforeYear_digits {a b c d : Int} (hb : 0 ≤ b ∧ b ≤ 3) (hc : 0 ≤ c ∧ c ≤ 24)
    (hd : 0 ≤ d ∧ d ≤ 3) :
    daysBeforeYear (a * 400 + b * 100 + c * 4 + d + 1) = a * 146097 + b * 36524 + c * 1461 + d * 365 := by
  have h4 : (a * 400 + b * 100 + c * 4 + d) / 4 = a * 100 + b * 25 + c := by omega
  have h100 : (a * 400 + b * 100 + c * 4 + d) / 100 = a * 4 + b := by omega
  have h400 : (a * 400 + b * 100 + c * 4 + d) / 400 = a := by omega
  unfold daysBeforeYear
  simp only [add_sub_cancel_right]
  rw [h4, h100, h400]
  ring

theorem leap_digits {a b c d : Int} (hb : 0 ≤ b ∧ b ≤ 3) (hc : 0 ≤ c ∧ c ≤ 24)
    (hd : 0 ≤ d ∧ d ≤ 3) :
    leap (a * 400 + b * 100 + c * 4 + d + 1) = if d = 3 ∧ (c ≠ 24 ∨ b = 3) then 1 else 0 := by
  unfold leap
  congr 1
  simp only [eq_iff_iff]
  omega

theorem yearOfDay_spec (n : Int) :
    daysBeforeYear (yearOfDay n) ≤ n ∧ n < daysBeforeYear (yearOfDay n + 1) := by
  rw [daysBeforeYear_succ]
  unfold yearOfDay
  simp only
  generalize ha : n / 146097 = a
  generalize hra : n % 146097 = ra
  generalize hb : ra / 36524 = b
  generalize hrb : ra % 36524 = rb
  generalize hc : rb / 1461 = c
  generalize hrc : rb % 1461 = rc
  generalize hd : rc / 365 = d
  split
  · -- the last day of a 400-year or of a 4-year cycle: one less in the digits
    rename_i hlast
    by_cases hb4 : b = 4
    · have hc0 : c = 0 := by omega
      have hd0 : d = 0 := by omega
      have he : a * 400 + b * 100 + c * 4 + d + 1 - 1 = a * 400 + 3 * 100 + 24 * 4 + 3 + 1 := by omega
      rw [he, daysBeforeYear_digits (by omega) (by omega) (by omega),
        leap_digits (by omega) (by omega) (by omega)]
      simp
      omega
    · have he : a * 400 + b * 100 + c * 4 + d + 1 - 1 = a * 400 + b * 100 + c * 4 + 3 + 1 := by omega
      rw [he, daysBeforeYear_digits (by omega) (by omega) (by omega),
        leap_digits (by omega) (by omega) (by omega)]
      split_ifs <;> omega
  · rw [daysBeforeYear_digits (by omega) (by omega) (by omega),
      leap_digits (by omega) (by omega) (by omega)]
    split_ifs <;> omega

/-! ## Months -/

/-- Days of a year before its month `m` (counted from 0), where February has `28 + l` days; `m = 12`
is the whole year. -/
def daysBeforeMonth (l : Int) : Nat → Int
  | 0 => 0
  | 1 => 31
  | 2 => 59 + l
  | 3 => 90 + l
  | 4 => 120 + l
  | 5 => 151 + l
  | 6 => 181 + l
  | 7 => 212 + l
  | 8 => 243 + l
  | 9 => 273 + l
  | 10 => 304 + l
  | 11 => 334 + l
  | _ => 365 + l

/-- The last month up to `m` that has begun by day `r` of a year. -/
def lastMonthBegun (l r : Int) : Nat → Nat
  | 0 => 0
  | m + 1 => if daysBeforeMonth l (m + 1) ≤ r then m + 1 else lastMonthBegun l r m

theorem lastMonthBegun_spec {l r : Int} (h0 : 0 ≤ r) {m : Nat} (h1 : r < daysBeforeMonth l (m + 1)) :
    lastMonthBegun l r m ≤ m ∧ daysBeforeMonth l (lastMonthBegun l r m) ≤ r ∧
      r < daysBeforeMonth l (lastMonthBegun l r m + 1) := by
  induction m with
  | zero => exact ⟨le_rfl, h0, h1⟩
  | succ m ih =>
    unfold lastMonthBegun
    by_cases hm : daysBeforeMonth l (m + 1) ≤ r
    · simp only [if_pos hm]
      exact ⟨le_rfl, hm, h1⟩
    · simp only [if_neg hm]
      obtain ⟨hle, hs⟩ := ih (not_le.mp hm)
      exact ⟨by omega, hs⟩

/-- The month, from 0, of the day `r` of a year. -/
def monthOfYearDay (l r : Int) : Nat := lastMonthBegun l r 11

theorem monthOfYearDay_spec {l r : Int} (h0 : 0 ≤ r) (h1 : r < 365 + l) :
    monthOfYearDay l r < 12 ∧ daysBeforeMonth l (monthOfYearDay l r) ≤ r ∧
      r < daysBeforeMonth l (monthOfYearDay l r + 1) := by
  obtain ⟨hle, hs⟩ := lastMonthBegun_spec (m := 11) h0 h1
  exact ⟨Nat.lt_succ_of_le hle, hs⟩

/-- Days from the first of January of year 1 to 1970-01-01. -/
def epochOffset : Int := 719162

/-- The first day of month `k`, where `k = 12 * year + (month - 1)`. -/
def monthStart (k : Int) : Int :=
  daysBeforeYear (k / 12) + daysBeforeMonth (leap (k / 12)) (k % 12).toNat - epochOffset

/-- The month of a date. -/
def monthOf (d : Int) : Int :=
  let n := d + epochOffset
  let y := yearOfDay n
  12 * y + monthOfYearDay (leap y) (n - daysBeforeYear y)

theorem monthStart_of_year (y : Int) {m : Nat} (hm : m < 12) :
    monthStart (12 * y + m) = daysBeforeYear y + daysBeforeMonth (leap y) m - epochOffset := by
  have hd : (12 * y + (m : Int)) / 12 = y := by omega
  have hr : ((12 * y + (m : Int)) % 12).toNat = m := by omega
  unfold monthStart
  rw [hd, hr]

/-- The month after December of year `y` begins with year `y + 1`. -/
theorem monthStart_succ_of_year (y : Int) {m : Nat} (hm : m < 12) :
    monthStart (12 * y + m + 1) = daysBeforeYear y + daysBeforeMonth (leap y) (m + 1) - epochOffset := by
  by_cases h11 : m = 11
  · subst h11
    have he : 12 * y + ((11 : Nat) : Int) + 1 = 12 * (y + 1) + ((0 : Nat) : Int) := by push_cast; ring
    rw [he, monthStart_of_year (y + 1) (by decide), daysBeforeYear_succ]
    simp only [daysBeforeMonth]
    ring
  · have he : 12 * y + (m : Int) + 1 = 12 * y + ((m + 1 : Nat) : Int) := by push_cast; ring
    rw [he, monthStart_of_year y (by omega)]

/-- Every month is a month of a year. -/
theorem exists_year_month (k : Int) : ∃ (y : Int) (m : Nat), m < 12 ∧ k = 12 * y + m :=
  ⟨k / 12, (k % 12).toNat, by omega, by omega⟩

theorem daysBeforeMonth_lt_succ {l : Int} (hl : l = 0 ∨ l = 1) {m : Nat} (hm : m < 12) :
    daysBeforeMonth l m < daysBeforeMonth l (m + 1) := by
  interval_cases m <;> simp only [daysBeforeMonth] <;> omega

theorem monthStart_lt_succ (k : Int) : monthStart k < monthStart (k + 1) := by
  obtain ⟨y, m, hm, rfl⟩ := exists_year_month k
  rw [monthStart_of_year y hm, monthStart_succ_of_year y hm]
  have := daysBeforeMonth_lt_succ (leap_cases y) hm
  omega

theorem monthStart_strictMono : StrictMono monthStart :=
  strictMono_int_of_lt_succ monthStart_lt_succ

theorem monthOf_spec (d : Int) : monthStart (monthOf d) ≤ d ∧ d < monthStart (monthOf d + 1) := by
  have hy := yearOfDay_spec (d + epochOffset)
  rw [daysBeforeYear_succ] at hy
  obtain ⟨hm, hs⟩ := monthOfYearDay_spec (l := leap (yearOfDay (d + epochOffset)))
    (r := d + epochOffset - daysBeforeYear (yearOfDay (d + epochOffset))) (by omega) (by omega)
  unfold monthOf
  simp only
  rw [monthStart_of_year _ hm, monthStart_succ_of_year _ hm]
  omega

/-- **The month rule.** `monthOf d` is the one month that `d` lies in. -/
theorem monthOf_eq_iff {d : Int} {k : Int} :
    monthOf d = k ↔ monthStart k ≤ d ∧ d < monthStart (k + 1) := by
  constructor
  · rintro rfl
    exact monthOf_spec d
  · rintro ⟨hle, hlt⟩
    obtain ⟨hle', hlt'⟩ := monthOf_spec d
    have h1 : k < monthOf d + 1 := monthStart_strictMono.lt_iff_lt.mp (lt_of_le_of_lt hle hlt')
    have h2 : monthOf d < k + 1 := monthStart_strictMono.lt_iff_lt.mp (lt_of_le_of_lt hle' hlt)
    omega

@[simp] theorem monthOf_monthStart (k : Int) : monthOf (monthStart k) = k :=
  monthOf_eq_iff.mpr ⟨le_rfl, monthStart_lt_succ k⟩

/-- The last day of a month belongs to it. -/
theorem monthOf_monthStart_sub_one (k : Int) : monthOf (monthStart k - 1) = k - 1 := by
  have h := monthStart_lt_succ (k - 1)
  rw [sub_add_cancel] at h
  exact monthOf_eq_iff.mpr ⟨by omega, by rw [sub_add_cancel]; omega⟩

/-- `calendar.monthrange(year, month)[1]`: how many days month `k` has. -/
def monthLength (k : Int) : Int := monthStart (k + 1) - monthStart k

/-- A month has 28 to 31 days. -/
theorem monthLength_bounds (k : Int) : 28 ≤ monthLength k ∧ monthLength k ≤ 31 := by
  obtain ⟨y, m, hm, rfl⟩ := exists_year_month k
  unfold monthLength
  rw [monthStart_of_year y hm, monthStart_succ_of_year y hm]
  have hleap := leap_cases y
  interval_cases m <;> simp only [daysBeforeMonth] <;> omega

example : monthStart (12 * 2028 + 2) - monthStart (12 * 2028 + 1) = 29 := by decide
example : monthOf 0 = 12 * 1970 := by decide

end Dayfinch.Library.Calendar
