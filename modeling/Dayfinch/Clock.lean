/-
# Dayfinch.Clock -- the datetimes of the source and of the database

An instant is an integer number of microseconds since 1970-01-01T00:00:00Z, the resolution of both
Python's `datetime` and PostgreSQL's `TIMESTAMPTZ`. A Python `datetime` is the wall clock it shows
together with its offset from UTC; a naive one has no offset. `dateOf` is `::date` in a database
session whose time zone is UTC, and `date()` of a datetime that shows UTC.
-/
import Dayfinch.Library.Calendar

namespace Dayfinch

/-- Microseconds in `n` seconds. -/
def seconds (n : Int) : Int := n * 1000000

/-- Microseconds in `n` minutes. -/
def minutes (n : Int) : Int := seconds (n * 60)

/-- Microseconds in `n` days. -/
def days (n : Int) : Int := seconds (n * 86400)

/-- `::BIGINT` of a number of seconds, given in microseconds: it rounds, a half away from zero. -/
def toBigint (microseconds : Int) : Int :=
  if 0 ≤ microseconds then (2 * microseconds + 1000000) / 2000000
  else -((1000000 - 2 * microseconds) / 2000000)

/-- The UTC date of an instant, in days since 1970-01-01. -/
def dateOf (t : Int) : Int := t / days 1

/-- The instant a UTC date begins. -/
def startOfDay (d : Int) : Int := days d

theorem dateOf_eq_iff {t d : Int} : dateOf t = d ↔ startOfDay d ≤ t ∧ t < startOfDay (d + 1) := by
  unfold dateOf startOfDay days seconds
  omega

theorem startOfDay_le_iff {t d : Int} : startOfDay d ≤ t ↔ d ≤ dateOf t := by
  unfold dateOf startOfDay days seconds
  omega

theorem startOfDay_lt_startOfDay {d e : Int} : startOfDay d < startOfDay e ↔ d < e := by
  unfold startOfDay days seconds
  omega

/-! ## The datetimes Python has -/

/-- `date.min` and `date.max`: 0001-01-01 and 9999-12-31. -/
def InDateRange (d : Int) : Prop :=
  Library.Calendar.monthStart (12 * 1) ≤ d ∧ d < Library.Calendar.monthStart (12 * 10000)

/-- `datetime.min` and `datetime.max`. -/
def InDatetimeRange (t : Int) : Prop := InDateRange (dateOf t)

instance (d : Int) : Decidable (InDateRange d) := inferInstanceAs (Decidable (_ ∧ _))

instance (t : Int) : Decidable (InDatetimeRange t) := inferInstanceAs (Decidable (InDateRange _))

open Library.Calendar (monthOf monthOf_spec monthStart_strictMono) in
/-- The dates there are, by their months. -/
theorem inDateRange_iff {d : Int} :
    InDateRange d ↔ 12 * 1 ≤ monthOf d ∧ monthOf d < 12 * 10000 := by
  obtain ⟨hle, hlt⟩ := monthOf_spec d
  constructor
  · rintro ⟨hmin, hmax⟩
    have hfirst := monthStart_strictMono.lt_iff_lt.mp (lt_of_le_of_lt hmin hlt)
    have hlast := monthStart_strictMono.lt_iff_lt.mp (lt_of_le_of_lt hle hmax)
    omega
  · rintro ⟨hfirst, hlast⟩
    refine ⟨(monthStart_strictMono.monotone hfirst).trans hle, lt_of_lt_of_le hlt ?_⟩
    exact monthStart_strictMono.monotone (by omega)

/-- A Python `datetime`: what its wall clock shows, in microseconds, and its UTC offset, if aware. -/
structure Datetime where
  wall : Int
  utcoffset : Option Int
  deriving DecidableEq, Repr

namespace Datetime

/-- The aware datetime that shows an instant in UTC. -/
def ofInstant (t : Int) : Datetime := ⟨t, some 0⟩

/-- `value.date()`: the date on the wall clock, whatever the offset. -/
def date (value : Datetime) : Int := dateOf value.wall

/-- `value.astimezone(UTC)` of an aware datetime. -/
def toUtc? (value : Datetime) : Option Int := value.utcoffset.map (value.wall - ·)

/-- `a <= b`. Comparing a naive with an aware datetime raises a `TypeError`. -/
def le? (a b : Datetime) : Option Bool :=
  match a.utcoffset, b.utcoffset with
  | none, none => some (a.wall ≤ b.wall)
  | some x, some y => some (a.wall - x ≤ b.wall - y)
  | _, _ => none

/-- The instant a `TIMESTAMPTZ` column stores: the database reads a naive datetime in UTC. -/
def toTimestamptz (value : Datetime) : Int := value.wall - value.utcoffset.getD 0

@[simp] theorem toUtc?_ofInstant (t : Int) : (ofInstant t).toUtc? = some t := by
  simp [ofInstant, toUtc?]

end Datetime

end Dayfinch
