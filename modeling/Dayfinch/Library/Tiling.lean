/-
# Dayfinch.Library.Tiling -- periods that tile the integers

The integers, cut at strictly increasing bounds: period `i` begins at `bound i` and ends before `bound (i + 1)`,
and `index d` is the period that `d` lies in. Two integers lie in the same period or in disjoint ones, and the
integer after the last one of a period is the first one of the next.

`regular` is the tiling by periods of one length, `origin + length * i`.
-/
import Mathlib

namespace Dayfinch.Library

/-- Bounds that cut the integers, and the period each of them lies in. -/
structure Tiling where
  bound : Int → Int
  index : Int → Int
  strictMono : StrictMono bound
  spec : ∀ d, bound (index d) ≤ d ∧ d < bound (index d + 1)

namespace Tiling

variable (t : Tiling)

/-- The first of the period of `d`. -/
def first (d : Int) : Int := t.bound (t.index d)

/-- The last of the period of `d`. -/
def last (d : Int) : Int := t.bound (t.index d + 1) - 1

variable {t}

theorem index_eq_iff {d i : Int} : t.index d = i ↔ t.bound i ≤ d ∧ d < t.bound (i + 1) := by
  obtain ⟨hle, hlt⟩ := t.spec d
  constructor
  · rintro rfl
    exact ⟨hle, hlt⟩
  · rintro ⟨hi, hi'⟩
    have hupper : t.index d < i + 1 := t.strictMono.lt_iff_lt.mp (lt_of_le_of_lt hle hi')
    have hlower : i < t.index d + 1 := t.strictMono.lt_iff_lt.mp (lt_of_le_of_lt hi hlt)
    omega

theorem first_le (d : Int) : t.first d ≤ d := (t.spec d).1

theorem le_last (d : Int) : d ≤ t.last d := by
  have h := (t.spec d).2
  unfold last
  omega

/-- **Periods are equal or disjoint.** -/
theorem index_eq_or_disjoint (d e : Int) :
    t.index d = t.index e ∨ t.last d < t.first e ∨ t.last e < t.first d := by
  rcases lt_trichotomy (t.index d) (t.index e) with hlt | heq | hgt
  · have hbound : t.bound (t.index d + 1) ≤ t.bound (t.index e) := t.strictMono.monotone hlt
    right; left
    unfold last first
    omega
  · exact .inl heq
  · have hbound : t.bound (t.index e + 1) ≤ t.bound (t.index d) := t.strictMono.monotone hgt
    right; right
    unfold last first
    omega

/-- **Periods are adjacent.** -/
theorem index_last_add_one (d : Int) : t.index (t.last d + 1) = t.index d + 1 := by
  have hstep : t.bound (t.index d + 1) < t.bound (t.index d + 1 + 1) := t.strictMono (by omega)
  refine index_eq_iff.mpr ⟨?_, ?_⟩
  · unfold last
    omega
  · unfold last
    omega

theorem first_last_add_one (d : Int) : t.first (t.last d + 1) = t.last d + 1 := by
  unfold first
  rw [index_last_add_one]
  unfold last
  omega

/-- The tiling by periods of one length. -/
def regular (origin length : Int) (h : 0 < length) : Tiling where
  bound i := origin + length * i
  index d := (d - origin) / length
  strictMono := fun i j hij => by
    have := mul_lt_mul_of_pos_left hij h
    simpa using this
  spec d := by
    have hdiv := Int.mul_ediv_add_emod (d - origin) length
    have hnonneg := Int.emod_nonneg (d - origin) (by omega : length ≠ 0)
    have hlt := Int.emod_lt_of_pos (d - origin) h
    rw [mul_add, mul_one]
    constructor <;> omega

end Tiling

end Dayfinch.Library
