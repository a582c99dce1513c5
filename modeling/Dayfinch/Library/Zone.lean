/-
# Dayfinch.Library.Zone -- time zones with gaps and folds

A time zone reads an instant as a local time and takes a local time back to an instant. Reading and
taking back is the identity; the other way round it is not: a local time in a gap is never shown, and
in a fold two instants show the same wall clock, which the fold bit tells apart. Nothing else is
assumed: a zone is any such pair of functions whose offsets are multiples of a unit.

`Zone.ofTransition` is the zone of one transition, from one offset to another, with the rule of PEP 495
for gaps and folds.
-/
import Mathlib.Algebra.Group.Int.Even
import Mathlib.Order.Lattice

namespace Dayfinch.Library

/-- What a local clock shows; `fold` is set on the second reading of a repeated wall time. -/
structure LocalTime where
  wall : Int
  fold : Bool
  deriving DecidableEq, Repr

/-- A time zone whose offsets are multiples of `unit`. -/
structure Zone (unit : Int) where
  /-- The local time an instant is read as. -/
  fromutc : Int → LocalTime
  /-- The instant a local time is taken for. -/
  toutc : LocalTime → Int
  toutc_fromutc : ∀ t, toutc (fromutc t) = t
  dvd_offset : ∀ l, unit ∣ l.wall - toutc l

attribute [simp] Zone.toutc_fromutc

/-- A whole wall time is taken for a whole instant. -/
theorem Zone.dvd_toutc {unit : Int} (zone : Zone unit) {l : LocalTime} (h : unit ∣ l.wall) :
    unit ∣ zone.toutc l := by
  have hoffset := zone.dvd_offset l
  have heq : zone.toutc l = l.wall - (l.wall - zone.toutc l) := by omega
  rw [heq]
  exact Int.dvd_sub h hoffset

/-- The zone whose offset changes once, at the instant `change`, from `before` to `after`. Forward, it
has a gap; back, a fold. A wall time of the gap is taken with the offset before it, unless its fold
is set; a wall time of the fold is taken with the offset before it unless its fold is set. -/
def Zone.ofTransition {unit : Int} (change before after : Int) (hbefore : unit ∣ before)
    (hafter : unit ∣ after) : Zone unit where
  fromutc t :=
    if t < change then ⟨t + before, false⟩ else ⟨t + after, t < change + (before - after)⟩
  toutc l :=
    if l.wall < change + (if l.fold then min before after else max before after) then
      l.wall - before
    else l.wall - after
  toutc_fromutc := by
    intro t
    by_cases ht : t < change
    · rw [if_pos ht]
      show (if t + before < change + max before after then t + before - before
        else t + before - after) = t
      rw [if_pos (by omega)]
      omega
    · rw [if_neg ht]
      by_cases hfold : t < change + (before - after)
      · show (if t + after < change + (if decide (t < change + (before - after)) then min before after
          else max before after) then t + after - before else t + after - after) = t
        rw [decide_eq_true hfold, if_pos rfl, if_neg (by omega)]
        omega
      · show (if t + after < change + (if decide (t < change + (before - after)) then min before after
          else max before after) then t + after - before else t + after - after) = t
        rw [decide_eq_false hfold, if_neg Bool.false_ne_true, if_neg (by omega)]
        omega
  dvd_offset := by
    intro l
    have hb : l.wall - (l.wall - before) = before := by omega
    have ha : l.wall - (l.wall - after) = after := by omega
    by_cases hwall :
        l.wall < change + (if l.fold then min before after else max before after)
    · rw [if_pos hwall, hb]
      exact hbefore
    · rw [if_neg hwall, ha]
      exact hafter

end Dayfinch.Library
