/-
# Dayfinch.Payroll.Weeks -- how `create_payroll` cuts tracked and manual time into weeks

The function clips each interval to the pay period, from the local midnight that begins it to the one
after its last day, and then walks through the interval one local day at a time, adding the seconds of
each day to the week the day belongs to.

The walk mixes two ways to compare datetimes. Two that carry the same `tzinfo` are compared by what
their clocks show, whatever the fold; all others are compared as instants; and the length of a day's
slice is the distance of two instants. `Stamp.lt` is that comparison.
-/
import Dayfinch.Library.Zone
import Dayfinch.Schema
import Mathlib.Data.List.Sort

namespace Dayfinch

open Library (LocalTime Zone)
open Library.Calendar (weekStart)

/-- `ZoneInfo`: the offsets are whole seconds. -/
abbrev ZoneInfo := Zone 1000000

/-! ## Datetimes -/

/-- `datetime.combine(day, time.min, tzinfo=payroll_timezone)`. -/
def localMidnight (day : Int) : LocalTime := ⟨startOfDay day, false⟩

/-- A datetime of the function: read from the database, in UTC, or made in the payroll zone. -/
inductive Stamp
  | utc (instant : Int)
  | zoned (time : LocalTime)
  deriving DecidableEq, Repr

/-- The instant of a datetime. -/
def Stamp.instant (zone : ZoneInfo) : Stamp → Int
  | .utc t => t
  | .zoned l => zone.toutc l

/-- `a < b`. -/
def Stamp.lt (zone : ZoneInfo) : Stamp → Stamp → Bool
  | .zoned a, .zoned b => a.wall < b.wall
  | a, b => a.instant zone < b.instant zone

/-- `value.astimezone(payroll_timezone)`; a datetime of that zone is left as it is. -/
def Stamp.astimezone (zone : ZoneInfo) : Stamp → LocalTime
  | .utc t => zone.fromutc t
  | .zoned l => l

/-! ## The rows -/

/-- The closed segments and the approved manual entries of a user, with their ends. -/
def paidTime (db : Database) (userId : Nat) : List (Int × Int) :=
  ((db.workSessions.filter (·.userId == some userId)).flatMap fun ws =>
    (db.segments.filter (·.sessionId == ws.id)).filterMap fun g =>
      g.endedAt.map fun e => (g.startedAt, e)) ++
  (db.manualTimeEntries.filter fun m => m.userId == userId && m.status == .approved).map fun m =>
    (m.startedAt, m.endedAt)

/-- `WHERE started_at < upper AND ended_at > lower ORDER BY started_at`. -/
def payrollRows (db : Database) (userId : Nat) (lower upper : Int) : List (Int × Int) :=
  ((paidTime db userId).filter fun row => row.1 < upper && lower < row.2).insertionSort
    fun a b => a.1 ≤ b.1

/-- `max(started_value, lower)` and `min(ended_value, upper)`. -/
def clipRow (zone : ZoneInfo) (lower upper : LocalTime) (row : Int × Int) : Stamp × Stamp :=
  (if Stamp.lt zone (.utc row.1) (.zoned lower) then .zoned lower else .utc row.1,
   if Stamp.lt zone (.zoned upper) (.utc row.2) then .zoned upper else .utc row.2)

/-- The intervals of the rows that are left after clipping. Rows come in the order of their starts; one
that starts before the end of the last interval is refused. -/
def payrollIntervals (zone : ZoneInfo) (lower upper : LocalTime) :
    List (Int × Int) → Option Stamp → Except Error (List (Stamp × Stamp))
  | [], _ => .ok []
  | row :: rows, last =>
    let (startedAt, endedAt) := clipRow zone lower upper row
    if startedAt.lt zone endedAt = false then payrollIntervals zone lower upper rows last
    else do
      raiseIf (last.any fun last => startedAt.lt zone last)
        "Payroll contains overlapping tracked or manual time"
      let intervals ← payrollIntervals zone lower upper rows (some endedAt)
      return (startedAt, endedAt) :: intervals

/-! ## The walk through the days -/

/-- One turn of the loop: from the cursor to the boundary. -/
structure DaySlice where
  cursor : LocalTime
  boundary : LocalTime
  deriving DecidableEq, Repr

/-- `min(local_end, next_day)`. -/
def dayBoundary (cursor localEnd : LocalTime) : LocalTime :=
  let nextDay := localMidnight (dateOf cursor.wall + 1)
  if nextDay.wall < localEnd.wall then nextDay else localEnd

/-- `while cursor < local_end`, with a bound on the number of turns. -/
def daySlices : Nat → LocalTime → LocalTime → List DaySlice
  | 0, _, _ => []
  | fuel + 1, cursor, localEnd =>
    if cursor.wall < localEnd.wall then
      ⟨cursor, dayBoundary cursor localEnd⟩ ::
        daySlices fuel (dayBoundary cursor localEnd) localEnd
    else []

/-- The local days from the start to the end; the loop takes no more turns. -/
def localDays (cursor localEnd : LocalTime) : Nat :=
  (dateOf localEnd.wall - dateOf cursor.wall + 1).toNat

/-- The slices of an interval. -/
def intervalSlices (zone : ZoneInfo) (interval : Stamp × Stamp) : List DaySlice :=
  let cursor := interval.1.astimezone zone
  let localEnd := interval.2.astimezone zone
  daySlices (localDays cursor localEnd) cursor localEnd

/-- `(boundary.astimezone(UTC) - cursor.astimezone(UTC))`, in microseconds. -/
def DaySlice.elapsed (zone : ZoneInfo) (slice : DaySlice) : Int :=
  zone.toutc slice.boundary - zone.toutc slice.cursor

/-- `int(..total_seconds())`: towards zero. -/
def DaySlice.seconds (zone : ZoneInfo) (slice : DaySlice) : Int :=
  (slice.elapsed zone).tdiv 1000000

/-- `configured_weekday`: the setting counts from Sunday, `weekday()` from Monday. -/
def configuredWeekday (weekStartsOn : Int) : Int := if weekStartsOn = 0 then 6 else weekStartsOn - 1

/-- `week_start`. -/
def DaySlice.week (weekStartsOn : Int) (slice : DaySlice) : Int :=
  weekStart (configuredWeekday weekStartsOn) (dateOf slice.cursor.wall)

/-- `week_seconds[week] = week_seconds.get(week, 0) + seconds`. -/
def addSeconds (week seconds : Int) : List (Int × Int) → List (Int × Int)
  | [] => [(week, seconds)]
  | (w, s) :: rest =>
    if w = week then (w, s + seconds) :: rest else (w, s) :: addSeconds week seconds rest

/-- `week_seconds`, after the slices. -/
def weekSeconds (zone : ZoneInfo) (weekStartsOn : Int) (slices : List DaySlice) : List (Int × Int) :=
  slices.foldl (fun weeks slice => addSeconds (slice.week weekStartsOn) (slice.seconds zone) weeks) []

/-- `week_seconds.get(week, 0)`. -/
def weekTotal (week : Int) : List (Int × Int) → Int
  | [] => 0
  | (w, s) :: rest => if w = week then s else weekTotal week rest

/-! ## The computation -/

/-- The clipped intervals of a pay period. -/
def periodIntervals (zone : ZoneInfo) (db : Database) (userId : Nat) (periodStart periodEnd : Int) :
    Except Error (List (Stamp × Stamp)) :=
  let lower := localMidnight periodStart
  let upper := localMidnight (periodEnd + 1)
  payrollIntervals zone lower upper
    (payrollRows db userId (zone.toutc lower) (zone.toutc upper)) none

/-- `create_payroll` from its checks on the period to `week_seconds`. -/
def payrollWeekSeconds (zone : ZoneInfo) (weekStartsOn : Int) (db : Database) (userId : Nat)
    (periodStart periodEnd : Int) : Except Error (List (Int × Int)) := do
  raiseIf (periodEnd < periodStart) "Payroll period is invalid"
  raiseIf (31 < periodEnd - periodStart) "A payroll period cannot exceed 32 days"
  let intervals ← periodIntervals zone db userId periodStart periodEnd
  return weekSeconds zone weekStartsOn (intervals.flatMap (intervalSlices zone))

end Dayfinch
