/-
# Dayfinch.Payroll.Overtime -- when overtime does not depend on where the period is cut

`create_payroll` holds the weekly threshold against the seconds that the pay period has of a week. A week
that straddles the end of a period is held against the threshold twice, each time with a part of its
seconds, and each part is cut down to whole minutes. `weekTime` is what a week has of a member's time
between two dates, counted day by day from the rows alone; `weekTotal_eq_weekTime` says that `week_seconds`
holds it, and `overtime_cut_iff` says when the overtime of two adjacent periods is that of the whole range.
-/
import Dayfinch.Payroll.Conservation
import Mathlib.Algebra.BigOperators.Group.Finset.Piecewise
import Mathlib.Algebra.Order.BigOperators.Group.Finset
import Mathlib.Data.Int.Interval

namespace Dayfinch

open Library (LocalTime Zone)
open Library.Calendar (weekStart)
open scoped BigOperators

/-! ## Classification -/

/-- What `create_payroll` reads of the organization's settings; the threshold is not negative. -/
structure PayrollSettings where
  weekStartsOn : Int
  overtimeEnabled : Bool
  weeklyOvertimeMinutes : Nat
  deriving DecidableEq, Repr

/-- `threshold`, in seconds. -/
def PayrollSettings.threshold (settings : PayrollSettings) : Int := settings.weeklyOvertimeMinutes * 60

/-- The seconds of a week that are paid at the regular rate. -/
def PayrollSettings.regularSeconds (settings : PayrollSettings) (seconds : Int) : Int :=
  if settings.overtimeEnabled then min seconds settings.threshold else seconds

/-- The seconds of a week that are paid as overtime. -/
def PayrollSettings.overtimeSeconds (settings : PayrollSettings) (seconds : Int) : Int :=
  if settings.overtimeEnabled then max 0 (seconds - settings.threshold) else 0

/-- What `create_payroll` computes before it turns to money: `week_seconds` and the minutes. -/
structure PayrollHours where
  weekSeconds : List (Int × Int)
  regular : Int
  overtime : Int
  deriving DecidableEq, Repr

/-- `create_payroll` from its checks on the period to `overtime`. -/
def payrollHours (zone : ZoneInfo) (settings : PayrollSettings) (db : Database) (userId : Nat)
    (periodStart periodEnd : Int) : Except Error PayrollHours := do
  let weeks ← payrollWeekSeconds zone settings.weekStartsOn db userId periodStart periodEnd
  raiseIf (weeks = [] ∨ (weeks.map (·.2)).sum < 60) "The approved period has no payable time"
  return {
    weekSeconds := weeks
    regular := (weeks.map fun week => settings.regularSeconds week.2 / 60).sum
    overtime := (weeks.map fun week => settings.overtimeSeconds week.2 / 60).sum }

/-- The minutes of a week that a run classes as overtime, its summand of `overtime`; a run that is refused classes
none. -/
def classedOvertime (settings : PayrollSettings) (week : Int) : Except Error PayrollHours → Int
  | .ok hours => settings.overtimeSeconds (weekTotal week hours.weekSeconds) / 60
  | .error _ => 0

/-! ## Time by local days -/

/-- The instant of the midnight that begins a day. -/
def midnightOf (zone : ZoneInfo) (day : Int) : Int := zone.toutc (localMidnight day)

/-- The whole seconds that a row has on a local day. -/
def rowDayTime (zone : ZoneInfo) (day : Int) (row : Int × Int) : Int :=
  elapsedSeconds (midnightOf zone day) (midnightOf zone (day + 1)) row

/-- `cursor < local_end`, for a row that is not clipped: at its end the clock shows a later time than at
its start. -/
def advances (zone : ZoneInfo) (row : Int × Int) : Bool :=
  (zone.fromutc row.1).wall < (zone.fromutc row.2).wall

/-- The seconds that the rows have on a local day. -/
def dayTime (zone : ZoneInfo) (rows : List (Int × Int)) (day : Int) : Int :=
  ((rows.filter (advances zone)).map (rowDayTime zone day)).sum

/-- The order of the days that computes, whatever else is imported. -/
local instance computableDayOrder : Preorder Int := Int.instLinearOrder.toPreorder

/-- The seconds that the rows have from the first to the last of some days. -/
def periodTime (zone : ZoneInfo) (rows : List (Int × Int)) (first last : Int) : Int :=
  ∑ day ∈ Finset.Icc first last, dayTime zone rows day

/-- The seconds among them that lie in a week. -/
def weekTime (zone : ZoneInfo) (weekStartsOn : Int) (rows : List (Int × Int)) (first last week : Int) :
    Int :=
  ∑ day ∈ Finset.Icc first last,
    if weekStart (configuredWeekday weekStartsOn) day = week then dayTime zone rows day else 0

/-- Time zones in which an instant lies between the midnights of its local date. -/
structure MidnightsInOrder (zone : ZoneInfo) : Prop where
  succ : ∀ day, midnightOf zone day ≤ midnightOf zone (day + 1)
  date : ∀ t, midnightOf zone (dateOf (zone.fromutc t).wall) ≤ t ∧
    t < midnightOf zone (dateOf (zone.fromutc t).wall + 1)

/-- No row ends when the clock shows a midnight for the second time. -/
def EndsOffRepeatedMidnights (zone : ZoneInfo) (rows : List (Int × Int)) : Prop :=
  ∀ row ∈ rows, ∀ day, (zone.fromutc row.2).wall = startOfDay day →
    row.2 ≤ midnightOf zone day

theorem elapsedSeconds_nonneg (lower upper : Int) (row : Int × Int) :
    0 ≤ elapsedSeconds lower upper row := by
  unfold elapsedSeconds
  exact Int.ediv_nonneg (le_max_left _ _) (by decide)

theorem dayTime_nonneg (zone : ZoneInfo) (rows : List (Int × Int)) (day : Int) :
    0 ≤ dayTime zone rows day := by
  apply List.sum_nonneg
  intro seconds hseconds
  obtain ⟨row, _, rfl⟩ := List.mem_map.mp hseconds
  exact elapsedSeconds_nonneg _ _ row

theorem weekTime_nonneg (zone : ZoneInfo) (weekStartsOn : Int) (rows : List (Int × Int))
    (first last week : Int) : 0 ≤ weekTime zone weekStartsOn rows first last week := by
  apply Finset.sum_nonneg
  intro day _
  split
  · exact dayTime_nonneg zone rows day
  · exact le_rfl

/-- A sum over adjacent ranges of days. -/
theorem sum_days_append (f : Int → Int) {first cut last : Int} (hcut : first ≤ cut + 1)
    (hlast : cut ≤ last) :
    ∑ day ∈ Finset.Icc first last, f day =
      ∑ day ∈ Finset.Icc first cut, f day + ∑ day ∈ Finset.Icc (cut + 1) last, f day := by
  rw [← Finset.sum_union]
  · congr 1
    ext day
    simp only [Finset.mem_union, Finset.mem_Icc]
    omega
  · rw [Finset.disjoint_left]
    intro day hbefore hafter
    rw [Finset.mem_Icc] at hbefore hafter
    omega

/-! ## The walk, day by day -/

section

variable {zone : ZoneInfo}

theorem MidnightsInOrder.le (hzone : MidnightsInOrder zone) {day day' : Int} (h : day ≤ day') :
    midnightOf zone day ≤ midnightOf zone day' :=
  (monotone_int_of_le_succ hzone.succ) h

/-- A local time between the midnights of its date. -/
structure OnItsDay (zone : ZoneInfo) (l : LocalTime) : Prop where
  le : midnightOf zone (dateOf l.wall) ≤ zone.toutc l
  ge : zone.toutc l ≤ midnightOf zone (dateOf l.wall + 1)

theorem onItsDay_fromutc (hzone : MidnightsInOrder zone) (t : Int) :
    OnItsDay zone (zone.fromutc t) := by
  refine ⟨?_, ?_⟩
  · rw [zone.toutc_fromutc]
    exact (hzone.date t).1
  · rw [zone.toutc_fromutc]
    exact (hzone.date t).2.le

theorem onItsDay_localMidnight (hzone : MidnightsInOrder zone) (day : Int) :
    OnItsDay zone (localMidnight day) := by
  refine ⟨?_, ?_⟩
  · rw [dateOf_localMidnight]
    exact le_rfl
  · rw [dateOf_localMidnight]
    exact hzone.succ day

/-- An end of an interval: on its day, and not past a midnight that it shows. -/
structure EndsOnItsDay (zone : ZoneInfo) (localEnd : LocalTime) : Prop where
  onItsDay : OnItsDay zone localEnd
  midnight : ∀ day, localEnd.wall = startOfDay day → zone.toutc localEnd ≤ midnightOf zone day

/-- The time of an interval after its end, or before its start, is none. -/
theorem rowDayTime_eq_zero {day : Int} {row : Int × Int}
    (h : min row.2 (midnightOf zone (day + 1)) ≤ max row.1 (midnightOf zone day)) :
    rowDayTime zone day row = 0 := by
  have hnone : max 0 (min row.2 (midnightOf zone (day + 1)) - max row.1 (midnightOf zone day)) = 0 := by
    omega
  unfold rowDayTime elapsedSeconds
  rw [hnone]
  rfl

/-- From the next midnight on, an interval has the same time as from the midnight itself. -/
theorem rowDayTime_later (hzone : MidnightsInOrder zone) {today day start stop : Int}
    (hday : today + 1 ≤ day) (hstart : start ≤ midnightOf zone (today + 1)) :
    rowDayTime zone day (start, stop) = rowDayTime zone day (midnightOf zone (today + 1), stop) := by
  have hle := hzone.le hday
  unfold rowDayTime elapsedSeconds
  rw [max_eq_right (hstart.trans hle), max_eq_right hle]

/-- The first slice holds the interval's time of its day. -/
theorem firstSlice_seconds (hzone : MidnightsInOrder zone) {cursor localEnd : LocalTime}
    (hend : EndsOnItsDay zone localEnd) (hcursor : OnItsDay zone cursor)
    (hle : zone.toutc cursor ≤ zone.toutc localEnd) :
    DaySlice.seconds zone ⟨cursor, dayBoundary cursor localEnd⟩ =
        rowDayTime zone (dateOf cursor.wall) (zone.toutc cursor, zone.toutc localEnd) ∧
      zone.toutc (dayBoundary cursor localEnd) =
        min (zone.toutc localEnd) (midnightOf zone (dateOf cursor.wall + 1)) := by
  have hboundary : zone.toutc (dayBoundary cursor localEnd) =
      min (zone.toutc localEnd) (midnightOf zone (dateOf cursor.wall + 1)) := by
    rcases dayBoundary_cases cursor localEnd with ⟨hnext, heq⟩ | ⟨hnext, heq⟩
    · -- the next midnight is shown before the end, so it is before the end
      have hday : dateOf cursor.wall + 1 ≤ dateOf localEnd.wall := startOfDay_le_iff.mp hnext.le
      have hmidnight := (hzone.le hday).trans hend.onItsDay.le
      rw [heq, min_eq_right hmidnight]
      rfl
    · rw [heq, min_eq_left]
      rcases hnext.lt_or_eq with hbefore | hshown
      · have hday : dateOf localEnd.wall < dateOf cursor.wall + 1 := by
          rw [← not_le, ← startOfDay_le_iff]
          exact not_le.mpr hbefore
        exact hend.onItsDay.ge.trans (hzone.le hday)
      · exact hend.midnight _ hshown
  refine ⟨?_, hboundary⟩
  have hforward : 0 ≤ zone.toutc (dayBoundary cursor localEnd) - zone.toutc cursor := by
    have hge := hcursor.ge
    omega
  show (zone.toutc (dayBoundary cursor localEnd) - zone.toutc cursor).tdiv 1000000 =
    max 0 (min (zone.toutc localEnd) (midnightOf zone (dateOf cursor.wall + 1)) -
      max (zone.toutc cursor) (midnightOf zone (dateOf cursor.wall))) / 1000000
  rw [Int.tdiv_eq_ediv_of_nonneg hforward, hboundary, max_eq_left hcursor.le, max_eq_right]
  rw [← hboundary]
  exact hforward

/-- **The slices hold the interval's time, day by day.** -/
theorem sum_daySlices_days (hzone : MidnightsInOrder zone) {cursor localEnd : LocalTime}
    (hend : EndsOnItsDay zone localEnd) (hcursor : OnItsDay zone cursor)
    (hle : zone.toutc cursor ≤ zone.toutc localEnd) (hstart : cursor.wall < localEnd.wall)
    (q : Int → Bool) {first last : Int} (hfirst : first ≤ dateOf cursor.wall)
    (hlast : dateOf localEnd.wall ≤ last) :
    ((daySlices (localDays cursor localEnd) cursor localEnd).map fun slice =>
        if q (dateOf slice.cursor.wall) then slice.seconds zone else 0).sum =
      ∑ day ∈ Finset.Icc first last, if dateOf cursor.wall ≤ day ∧ q day = true then
        rowDayTime zone day (zone.toutc cursor, zone.toutc localEnd) else 0 := by
  refine daySlices_rule
    (P := fun cursor slices => OnItsDay zone cursor → zone.toutc cursor ≤ zone.toutc localEnd →
      first ≤ dateOf cursor.wall →
      (slices.map fun slice => if q (dateOf slice.cursor.wall) then slice.seconds zone else 0).sum =
        ∑ day ∈ Finset.Icc first last, if dateOf cursor.wall ≤ day ∧ q day = true then
          rowDayTime zone day (zone.toutc cursor, zone.toutc localEnd) else 0)
    ?_ ?_ _ cursor le_rfl (.inl hstart) hcursor hle hfirst
  · intro _ _ _
    symm
    apply Finset.sum_eq_zero
    intro day _
    rw [rowDayTime_eq_zero (by omega), ite_self]
  · intro cursor rest hlt ih hcursor hle hfirst
    obtain ⟨hseconds, hboundary⟩ := firstSlice_seconds hzone hend hcursor hle
    obtain ⟨today, htoday⟩ : ∃ today, today = dateOf cursor.wall := ⟨_, rfl⟩
    have hin : today ∈ Finset.Icc first last := by
      rw [Finset.mem_Icc]
      refine ⟨htoday ▸ hfirst, ?_⟩
      have hdate := startOfDay_le_iff.mp ((dateOf_eq_iff.mp rfl).1.trans hlt.le)
      omega
    have hrest : (rest.map fun slice =>
        if q (dateOf slice.cursor.wall) then slice.seconds zone else 0).sum =
        ∑ day ∈ Finset.Icc first last, if today + 1 ≤ day ∧ q day = true then
          rowDayTime zone day (zone.toutc cursor, zone.toutc localEnd) else 0 := by
      rcases dayBoundary_cases cursor localEnd with ⟨hnext, heq⟩ | ⟨_, heq⟩
      · have hmidnight : zone.toutc (localMidnight (today + 1)) = midnightOf zone (today + 1) := rfl
        rw [heq, ← htoday] at ih hboundary
        rw [hmidnight] at ih hboundary
        rw [ih (onItsDay_localMidnight hzone _) (by omega)
          (by rw [dateOf_localMidnight]; omega), dateOf_localMidnight]
        apply Finset.sum_congr rfl
        intro day _
        by_cases hday : today + 1 ≤ day
        · have hge : zone.toutc cursor ≤ midnightOf zone (today + 1) := by
            rw [htoday]
            exact hcursor.ge
          rw [← rowDayTime_later hzone hday hge]
        · rw [if_neg (fun h => hday h.1), if_neg (fun h => hday h.1)]
      · -- nothing is left: the end comes no later than the next midnight
        rw [heq] at ih hboundary
        rw [ih hend.onItsDay le_rfl, Finset.sum_eq_zero, Finset.sum_eq_zero]
        · intro day _
          by_cases hday : today + 1 ≤ day
          · have hpast := hzone.le hday
            rw [← htoday] at hboundary
            rw [rowDayTime_eq_zero (by omega), ite_self]
          · rw [if_neg fun h => hday h.1]
        · intro day _
          rw [rowDayTime_eq_zero (by omega), ite_self]
        · have hdate := startOfDay_le_iff.mp ((dateOf_eq_iff.mp rfl).1.trans hlt.le)
          omega
    -- the sum over the days from today is today's share and the sum over the days after it
    have hshare : (if q today then rowDayTime zone today (zone.toutc cursor, zone.toutc localEnd)
        else 0) = ∑ day ∈ Finset.Icc first last, if day = today then
          if q day then rowDayTime zone day (zone.toutc cursor, zone.toutc localEnd) else 0
        else 0 := by
      rw [Finset.sum_ite_eq', if_pos hin]
    rw [List.map_cons, List.sum_cons, hrest, hseconds, ← htoday, hshare, ← Finset.sum_add_distrib]
    apply Finset.sum_congr rfl
    intro day _
    rcases lt_trichotomy day today with hbefore | hsame | hafter
    · rw [if_neg hbefore.ne, if_neg (by omega), if_neg (by omega), add_zero]
    · have hnot : ¬ (today + 1 ≤ day ∧ q day = true) := by omega
      rw [if_pos hsame, if_neg hnot, add_zero, hsame]
      simp only [le_refl, true_and]
    · rw [if_neg hafter.ne', zero_add]
      have hiff : today ≤ day ↔ today + 1 ≤ day := by omega
      simp only [hiff]

/-! ## Rows -/

theorem wall_lt_of_lt_midnight (hzone : MidnightsInOrder zone) {t day : Int}
    (h : t < midnightOf zone day) : (zone.fromutc t).wall < startOfDay day := by
  rw [← not_le, startOfDay_le_iff, not_le]
  by_contra hday
  have hle := (hzone.le (not_lt.mp hday)).trans (hzone.date t).1
  omega

theorem le_wall_of_midnight_le (hzone : MidnightsInOrder zone) {t day : Int}
    (h : midnightOf zone day ≤ t) : startOfDay day ≤ (zone.fromutc t).wall := by
  rw [startOfDay_le_iff]
  by_contra hday
  have hlt := (hzone.date t).2.trans_le (hzone.le (Int.add_one_le_of_lt (not_le.mp hday)))
  omega

/-- The row has a part in the period. -/
def HasPart (zone : ZoneInfo) (lower upper : LocalTime) (row : Int × Int) : Prop :=
  (row.1 < zone.toutc upper ∧ zone.toutc lower < row.2) ∧
    (clipRow zone lower upper row).1.lt zone (clipRow zone lower upper row).2 = true

instance (lower upper : LocalTime) (row : Int × Int) : Decidable (HasPart zone lower upper row) := by
  unfold HasPart
  infer_instance

/-- The slices of a row in a period. -/
def rowSlices (zone : ZoneInfo) (lower upper : LocalTime) (row : Int × Int) : List DaySlice :=
  if HasPart zone lower upper row then intervalSlices zone (clipRow zone lower upper row) else []

/-- The part of a row is entered exactly when the row advances: a row that is clipped does both. -/
theorem enters_iff_advances (hzone : MidnightsInOrder zone) {first last : Int} (hle : first ≤ last)
    {row : Int × Int}
    (hends : ∀ day, (zone.fromutc row.2).wall = startOfDay day → row.2 ≤ midnightOf zone day)
    (hpart : HasPart zone (localMidnight first) (localMidnight (last + 1)) row) :
    ((clipRow zone (localMidnight first) (localMidnight (last + 1)) row).1.astimezone zone).wall <
        ((clipRow zone (localMidnight first) (localMidnight (last + 1)) row).2.astimezone zone).wall ↔
      advances zone row = true := by
  obtain ⟨⟨hbefore, hafter⟩, _⟩ := hpart
  have hdays : startOfDay first < startOfDay (last + 1) :=
    startOfDay_lt_startOfDay.mpr (Int.lt_add_one_of_le hle)
  have hpast : startOfDay first < (zone.fromutc row.2).wall := by
    refine lt_of_le_of_ne (le_wall_of_midnight_le hzone hafter.le) ?_
    intro hshown
    exact absurd (hends first hshown.symm) (not_le.mpr hafter)
  have hahead : (zone.fromutc row.1).wall < startOfDay (last + 1) :=
    wall_lt_of_lt_midnight hzone hbefore
  unfold advances
  rw [decide_eq_true_eq]
  rcases clipRow_start zone (localMidnight first) (localMidnight (last + 1)) row with
    ⟨hstart, hs⟩ | ⟨_, hs⟩
  · have hstart' := wall_lt_of_lt_midnight hzone hstart
    have hadvances : (zone.fromutc row.1).wall < (zone.fromutc row.2).wall := hstart'.trans hpast
    rcases clipRow_end zone (localMidnight first) (localMidnight (last + 1)) row with
      ⟨_, he⟩ | ⟨_, he⟩
    · rw [hs, he]
      exact iff_of_true hdays hadvances
    · rw [hs, he]
      exact iff_of_true hpast hadvances
  · rcases clipRow_end zone (localMidnight first) (localMidnight (last + 1)) row with
      ⟨hend, he⟩ | ⟨_, he⟩
    · rw [hs, he]
      exact iff_of_true hahead (hahead.trans_le (le_wall_of_midnight_le hzone hend.le))
    · rw [hs, he]
      exact Iff.rfl

/-- Both ends of the part of a row are on their days, and its end is well placed. -/
theorem clipRow_onItsDay (hzone : MidnightsInOrder zone) {first last : Int} {row : Int × Int}
    (hends : ∀ day, (zone.fromutc row.2).wall = startOfDay day → row.2 ≤ midnightOf zone day) :
    (OnItsDay zone ((clipRow zone (localMidnight first) (localMidnight (last + 1)) row).1.astimezone
        zone) ∧ first ≤ dateOf
          ((clipRow zone (localMidnight first) (localMidnight (last + 1)) row).1.astimezone zone).wall) ∧
      EndsOnItsDay zone
        ((clipRow zone (localMidnight first) (localMidnight (last + 1)) row).2.astimezone zone) := by
  constructor
  · rcases clipRow_start zone (localMidnight first) (localMidnight (last + 1)) row with
      ⟨_, hs⟩ | ⟨hstart, hs⟩
    · rw [hs]
      exact ⟨onItsDay_localMidnight hzone first, (dateOf_localMidnight first).ge⟩
    · rw [hs]
      exact ⟨onItsDay_fromutc hzone row.1,
        startOfDay_le_iff.mp (le_wall_of_midnight_le hzone hstart)⟩
  · rcases clipRow_end zone (localMidnight first) (localMidnight (last + 1)) row with
      ⟨_, he⟩ | ⟨_, he⟩
    · rw [he]
      refine ⟨onItsDay_localMidnight hzone (last + 1), ?_⟩
      intro day hday
      have hdate : dateOf (startOfDay (last + 1)) = day := by
        rw [show startOfDay (last + 1) = startOfDay day from hday]
        exact dateOf_localMidnight day
      have hsame : last + 1 = day := (dateOf_localMidnight (last + 1)).symm.trans hdate
      rw [← hsame]
      exact le_rfl
    · rw [he]
      refine ⟨onItsDay_fromutc hzone row.2, ?_⟩
      intro day hday
      show zone.toutc (zone.fromutc row.2) ≤ _
      rw [zone.toutc_fromutc]
      exact hends day hday

/-- **The slices of a row in a period hold its time of the period's days.** -/
theorem sum_rowSlices (hzone : MidnightsInOrder zone) {first last : Int} (hle : first ≤ last)
    {row : Int × Int}
    (hends : ∀ day, (zone.fromutc row.2).wall = startOfDay day → row.2 ≤ midnightOf zone day)
    (q : Int → Bool) :
    ((rowSlices zone (localMidnight first) (localMidnight (last + 1)) row).map fun slice =>
        if q (dateOf slice.cursor.wall) then slice.seconds zone else 0).sum =
      ∑ day ∈ Finset.Icc first last,
        if q day && advances zone row then rowDayTime zone day row else 0 := by
  obtain ⟨hstart, hend⟩ :=
    clipRow_instants zone (localMidnight first) (localMidnight (last + 1)) row
  have hlower : zone.toutc (localMidnight first) = midnightOf zone first := rfl
  have hupper : zone.toutc (localMidnight (last + 1)) = midnightOf zone (last + 1) := rfl
  have hin : ∀ day ∈ Finset.Icc first last,
      midnightOf zone first ≤ midnightOf zone day ∧
        midnightOf zone (day + 1) ≤ midnightOf zone (last + 1) := by
    intro day hday
    rw [Finset.mem_Icc] at hday
    exact ⟨hzone.le hday.1, hzone.le (by omega)⟩
  unfold rowSlices
  by_cases hpart : HasPart zone (localMidnight first) (localMidnight (last + 1)) row
  · rw [if_pos hpart]
    by_cases hadvances : advances zone row = true
    · have henters := (enters_iff_advances hzone hle hends hpart).mpr hadvances
      have hforward := clipRow_some hpart.1 hpart.2
      obtain ⟨⟨hrowBefore, hrowAfter⟩, _⟩ := hpart
      obtain ⟨⟨hcursor, hfirst⟩, hlocalEnd⟩ := @clipRow_onItsDay _ hzone first last row hends
      rw [← Stamp.toutc_astimezone, hlower] at hstart
      rw [← Stamp.toutc_astimezone, hupper] at hend
      unfold intervalSlices
      generalize (clipRow zone (localMidnight first) (localMidnight (last + 1)) row).1.astimezone zone =
        cursor at henters hcursor hfirst hstart
      generalize (clipRow zone (localMidnight first) (localMidnight (last + 1)) row).2.astimezone zone =
        localEnd at henters hlocalEnd hend
      have hperiod := hzone.le (Int.le_add_one hle)
      have hle' : zone.toutc cursor ≤ zone.toutc localEnd := by omega
      rw [sum_daySlices_days hzone hlocalEnd hcursor hle' henters q hfirst
        (le_max_right last (dateOf localEnd.wall))]
      symm
      apply Finset.sum_subset_zero_on_sdiff
      · exact Finset.Icc_subset_Icc_right (le_max_left _ _)
      · -- after the period the part has no time
        intro day hday
        rw [Finset.mem_sdiff, Finset.mem_Icc, Finset.mem_Icc] at hday
        have hpast := hzone.le (show last + 1 ≤ day by omega)
        rw [rowDayTime_eq_zero, ite_self]
        show min (zone.toutc localEnd) _ ≤ max (zone.toutc cursor) _
        omega
      · intro day hday
        have hday' := hin day hday
        have hsame : rowDayTime zone day row =
            rowDayTime zone day (zone.toutc cursor, zone.toutc localEnd) := by
          unfold rowDayTime elapsedSeconds
          congr 2
          show min row.2 (midnightOf zone (day + 1)) - max row.1 (midnightOf zone day) =
            min (zone.toutc localEnd) (midnightOf zone (day + 1)) -
              max (zone.toutc cursor) (midnightOf zone day)
          omega
        rw [hsame, hadvances, Bool.and_true]
        by_cases hcursorDay : dateOf cursor.wall ≤ day
        · simp only [hcursorDay, true_and]
        · have hbefore := hzone.le (Int.add_one_le_of_lt (not_le.mp hcursorDay))
          have hstarts := hcursor.le
          rw [rowDayTime_eq_zero, ite_self, ite_self]
          show min (zone.toutc localEnd) _ ≤ max (zone.toutc cursor) _
          omega
    · rw [intervalSlices_eq_nil (mt (enters_iff_advances hzone hle hends hpart).mp hadvances)]
      symm
      apply Finset.sum_eq_zero
      intro day _
      rw [if_neg (by simp [hadvances])]
  · rw [if_neg hpart]
    symm
    apply Finset.sum_eq_zero
    intro day hday
    have hday' := hin day hday
    have hnone : min row.2 (midnightOf zone (last + 1)) ≤ max row.1 (midnightOf zone first) := by
      by_cases hrange : row.1 < midnightOf zone (last + 1) ∧ midnightOf zone first < row.2
      · have hperiod : (localMidnight first).wall < (localMidnight (last + 1)).wall :=
          startOfDay_lt_startOfDay.mpr (Int.lt_add_one_of_le hle)
        exact clipRow_dropped hperiod fun hlt => hpart ⟨hrange, hlt⟩
      · omega
    rw [rowDayTime_eq_zero (by omega), ite_self]

/-! ## The rows that a run accepts -/

/-- A row that is clipped away had no time. -/
theorem le_of_dropped {lower upper : LocalTime} (hwall : lower.wall < upper.wall) {row : Int × Int}
    (hin : row.1 < zone.toutc upper ∧ zone.toutc lower < row.2)
    (hdropped : ¬ (clipRow zone lower upper row).1.lt zone (clipRow zone lower upper row).2 = true) :
    row.2 ≤ row.1 := by
  rcases clipRow_start zone lower upper row with ⟨_, hs⟩ | ⟨_, hs⟩
  · rcases clipRow_end zone lower upper row with ⟨_, he⟩ | ⟨_, he⟩
    · rw [hs, he, Stamp.lt_zoned] at hdropped
      exact absurd hwall hdropped
    · rw [hs, he, Stamp.lt_utc_right] at hdropped
      exact absurd hin.2 hdropped
  · rcases clipRow_end zone lower upper row with ⟨_, he⟩ | ⟨_, he⟩
    · rw [hs, he, Stamp.lt_utc_left] at hdropped
      exact absurd hin.1 hdropped
    · rw [hs, he, Stamp.lt_utc_left] at hdropped
      exact not_lt.mp hdropped

/-- A row that is not refused after another one starts when that one has ended. -/
theorem le_of_not_refused {lower upper : LocalTime} (hwall : lower.wall < upper.wall)
    {row next : Int × Int} (hrow : zone.toutc lower < row.2) (hnext : next.1 < zone.toutc upper)
    (h : ¬ (clipRow zone lower upper next).1.lt zone (clipRow zone lower upper row).2 = true) :
    row.2 ≤ next.1 := by
  rcases clipRow_start zone lower upper next with ⟨_, hs⟩ | ⟨_, hs⟩
  · rcases clipRow_end zone lower upper row with ⟨_, he⟩ | ⟨_, he⟩
    · rw [hs, he, Stamp.lt_zoned] at h
      exact absurd hwall h
    · rw [hs, he, Stamp.lt_utc_right] at h
      exact absurd hrow h
  · rcases clipRow_end zone lower upper row with ⟨_, he⟩ | ⟨_, he⟩
    · rw [hs, he, Stamp.lt_utc_left] at h
      exact absurd hnext h
    · rw [hs, he, Stamp.lt_utc_left] at h
      exact not_lt.mp h

/-- **Rows that are accepted share no time.** -/
theorem apart_of_payrollIntervals {lower upper : LocalTime} (hwall : lower.wall < upper.wall)
    {rows : List (Int × Int)} (horder : rows.Pairwise fun a b => a.1 ≤ b.1)
    (hin : ∀ row ∈ rows, row.1 < zone.toutc upper ∧ zone.toutc lower < row.2)
    (last : Option (Int × Int))
    (hlast : ∀ r ∈ last, zone.toutc lower < r.2 ∧ ∀ row ∈ rows, r.1 ≤ row.1)
    {intervals : List (Stamp × Stamp)}
    (hok : payrollIntervals zone lower upper rows (last.map fun r => (clipRow zone lower upper r).2) =
      .ok intervals) :
    rows.Pairwise RowsApart ∧ ∀ r ∈ last, ∀ row ∈ rows, RowsApart r row := by
  induction rows generalizing last intervals with
  | nil => exact ⟨.nil, fun _ _ _ hrow => nomatch hrow⟩
  | cons row rows ih =>
    rw [List.pairwise_cons] at horder
    rw [List.forall_mem_cons] at hin
    unfold payrollIntervals at hok
    simp only at hok
    by_cases hsome : (clipRow zone lower upper row).1.lt zone (clipRow zone lower upper row).2 = true
    · rw [if_neg (by simp [hsome])] at hok
      obtain ⟨_, hraise, hok⟩ := Library.bind_eq_ok.mp hok
      obtain ⟨rest, hrest, _⟩ := Library.bind_eq_ok.mp hok
      obtain ⟨hpairwise, hfirst⟩ := ih horder.2 hin.2 (some row) (by
        rintro r ⟨⟩
        exact ⟨hin.1.2, horder.1⟩) hrest
      refine ⟨List.pairwise_cons.mpr ⟨hfirst row rfl, hpairwise⟩, ?_⟩
      rintro r hr q hq
      obtain rfl : last = some r := hr
      have hnot : ¬ (clipRow zone lower upper row).1.lt zone (clipRow zone lower upper r).2 = true :=
        raiseIf_eq_ok.mp hraise
      have hbefore := le_of_not_refused hwall (hlast r rfl).1 hin.1.1 hnot
      rcases List.mem_cons.mp hq with rfl | hq
      · exact .inl hbefore
      · exact .inl (hbefore.trans (horder.1 q hq))
    · -- the row has no time, so it is apart from every other
      rw [if_pos (by simpa using hsome)] at hok
      have hempty := le_of_dropped hwall hin.1 hsome
      obtain ⟨hpairwise, hfirst⟩ := ih horder.2 hin.2 last
        (fun r hr => ⟨(hlast r hr).1, fun q hq => (hlast r hr).2 q (List.mem_cons_of_mem _ hq)⟩) hok
      refine ⟨List.pairwise_cons.mpr ⟨fun _ _ => .inr (.inr (.inl hempty)), hpairwise⟩, ?_⟩
      rintro r hr q hq
      rcases List.mem_cons.mp hq with rfl | hq
      · exact .inr (.inr (.inr hempty))
      · exact hfirst r hr q hq

/-! ## A run -/

variable {settings : PayrollSettings} {db : Database} {userId : Nat} {first last : Int}

/-- What `WHERE` selects. -/
def inPeriod (zone : ZoneInfo) (first last : Int) (row : Int × Int) : Bool :=
  row.1 < midnightOf zone (last + 1) && midnightOf zone first < row.2

/-- The intervals of the rows with a part in the period. -/
def partIntervals (zone : ZoneInfo) (db : Database) (userId : Nat) (first last : Int) :
    List (Stamp × Stamp) :=
  ((payrollRows db userId (midnightOf zone first) (midnightOf zone (last + 1))).map
    (clipRow zone (localMidnight first) (localMidnight (last + 1)))).filter fun i => i.1.lt zone i.2

theorem localMidnight_lt (hle : first ≤ last) :
    (localMidnight first).wall < (localMidnight (last + 1)).wall :=
  startOfDay_lt_startOfDay.mpr (Int.lt_add_one_of_le hle)

/-- **A run is accepted exactly when its rows share no time**, and takes the parts of the rows. -/
theorem periodIntervals_eq_ok_iff (hle : first ≤ last) {intervals : List (Stamp × Stamp)} :
    periodIntervals zone db userId first last = .ok intervals ↔
      ((paidTime db userId).filter (inPeriod zone first last)).Pairwise RowsApart ∧
        intervals = partIntervals zone db userId first last := by
  constructor
  · intro hok
    have hsorted := List.pairwise_insertionSort (fun a b : Int × Int => a.1 ≤ b.1)
      ((paidTime db userId).filter (inPeriod zone first last))
    have hin : ∀ row ∈ payrollRows db userId (midnightOf zone first) (midnightOf zone (last + 1)),
        row.1 < midnightOf zone (last + 1) ∧ midnightOf zone first < row.2 :=
      fun row hrow => (mem_payrollRows.mp hrow).2
    have hpairwise := (apart_of_payrollIntervals (localMidnight_lt hle) hsorted hin none
      (fun r hr => nomatch hr) hok).1
    have hapart : ((paidTime db userId).filter (inPeriod zone first last)).Pairwise RowsApart :=
      ((List.perm_insertionSort _ _).pairwise_iff fun h => h.symm).mp hpairwise
    refine ⟨hapart, ?_⟩
    have heq := payrollIntervals_eq hsorted hpairwise hin none (fun l hl => nomatch hl)
    exact Except.ok.inj (hok.symm.trans heq)
  · rintro ⟨hapart, rfl⟩
    obtain ⟨horder, hpairwise, hin⟩ := payrollRows_spec hapart
    exact payrollIntervals_eq horder hpairwise (fun row hrow => (hin row hrow).2) none
      fun l hl => nomatch hl

/-- What the slices of the parts add up to, row by row. -/
theorem sum_partIntervals (f : DaySlice → Int) :
    (((partIntervals zone db userId first last).flatMap (intervalSlices zone)).map f).sum =
      ((paidTime db userId).map fun row =>
        ((rowSlices zone (localMidnight first) (localMidnight (last + 1)) row).map f).sum).sum := by
  have hrows : ∀ rows : List (Int × Int), (∀ row ∈ rows, inPeriod zone first last row = true) →
      ((((rows.map (clipRow zone (localMidnight first) (localMidnight (last + 1)))).filter
          fun i => i.1.lt zone i.2).flatMap (intervalSlices zone)).map f).sum =
        (rows.map fun row =>
          ((rowSlices zone (localMidnight first) (localMidnight (last + 1)) row).map f).sum).sum := by
    intro rows hin
    induction rows with
    | nil => rfl
    | cons row rows ih =>
      rw [List.forall_mem_cons] at hin
      rw [List.map_cons, List.map_cons, List.sum_cons, ← ih hin.2]
      have hrange := hin.1
      unfold inPeriod at hrange
      rw [Bool.and_eq_true, decide_eq_true_eq, decide_eq_true_eq] at hrange
      unfold rowSlices
      by_cases hsome : (clipRow zone (localMidnight first) (localMidnight (last + 1)) row).1.lt zone
          (clipRow zone (localMidnight first) (localMidnight (last + 1)) row).2 = true
      · rw [List.filter_cons_of_pos (by simpa using hsome), List.flatMap_cons, List.map_append,
          List.sum_append, if_pos ⟨hrange, hsome⟩]
      · rw [List.filter_cons_of_neg (by simpa using hsome), if_neg fun h => hsome h.2]
        simp
  unfold partIntervals
  rw [hrows]
  · unfold payrollRows
    rw [((List.perm_insertionSort _ _).map _).sum_eq, Library.sum_filter]
    congr 1
    apply List.map_congr_left
    intro row _
    by_cases hrange : (decide (row.1 < midnightOf zone (last + 1)) &&
        decide (midnightOf zone first < row.2)) = true
    · rw [if_pos hrange]
    · rw [if_neg hrange]
      rw [Bool.and_eq_true, decide_eq_true_eq, decide_eq_true_eq] at hrange
      unfold rowSlices
      rw [if_neg fun h => hrange h.1]
      rfl
  · intro row hrow
    have hmem := mem_payrollRows.mp hrow
    unfold inPeriod
    simp [hmem.2.1, hmem.2.2]

/-- A sum over rows of sums over days. -/
theorem sum_rows_days (rows : List (Int × Int)) (q : Int → Bool) (days : Finset Int) :
    (rows.map fun row => ∑ day ∈ days,
        if q day && advances zone row then rowDayTime zone day row else 0).sum =
      ∑ day ∈ days, if q day then dayTime zone rows day else 0 := by
  unfold dayTime
  induction rows with
  | nil => simp
  | cons row rows ih =>
    rw [List.map_cons, List.sum_cons, ih, ← Finset.sum_add_distrib]
    apply Finset.sum_congr rfl
    intro day _
    by_cases hadvances : advances zone row = true
    · rw [List.filter_cons_of_pos hadvances, List.map_cons, List.sum_cons, hadvances, Bool.and_true]
      by_cases hq : q day = true
      · rw [if_pos hq, if_pos hq, if_pos hq]
      · rw [if_neg hq, if_neg hq, if_neg hq, add_zero]
    · rw [List.filter_cons_of_neg hadvances, if_neg (by simp [hadvances]), zero_add]

/-- The slices of a run's intervals hold the time of the period's days. -/
theorem sum_part_days (hzone : MidnightsInOrder zone)
    (hends : EndsOffRepeatedMidnights zone (paidTime db userId)) (hle : first ≤ last)
    (q : Int → Bool) :
    (((partIntervals zone db userId first last).flatMap (intervalSlices zone)).map fun slice =>
        if q (dateOf slice.cursor.wall) then slice.seconds zone else 0).sum =
      ∑ day ∈ Finset.Icc first last, if q day then dayTime zone (paidTime db userId) day else 0 := by
  rw [sum_partIntervals, ← sum_rows_days]
  congr 1
  apply List.map_congr_left
  intro row hrow
  exact sum_rowSlices hzone hle (hends row hrow) q

/-! ## What a run classes as overtime -/

/-- **`week_seconds` holds the time of the weeks**, and adds up to that of the period. -/
theorem weekTotal_eq_weekTime (hzone : MidnightsInOrder zone)
    (hends : EndsOffRepeatedMidnights zone (paidTime db userId)) (hle : first ≤ last)
    (weekStartsOn : Int) :
    (∀ week, weekTotal week (weekSeconds zone weekStartsOn
        ((partIntervals zone db userId first last).flatMap (intervalSlices zone))) =
      weekTime zone weekStartsOn (paidTime db userId) first last week) ∧
    ((weekSeconds zone weekStartsOn
        ((partIntervals zone db userId first last).flatMap (intervalSlices zone))).map (·.2)).sum =
      periodTime zone (paidTime db userId) first last := by
  constructor
  · intro week
    have hsum := sum_part_days hzone hends hle
      fun day => decide (weekStart (configuredWeekday weekStartsOn) day = week)
    simp only [decide_eq_true_eq] at hsum
    rw [weekTotal_weekSeconds]
    exact hsum
  · have hsum := sum_part_days hzone hends hle fun _ => true
    simp only [if_true] at hsum
    rw [sum_weekSeconds]
    exact hsum

/-- What the checks of a run ask for. -/
theorem payrollWeekSeconds_eq_ok_iff (hle : first ≤ last) (weekStartsOn : Int)
    {weeks : List (Int × Int)} :
    payrollWeekSeconds zone weekStartsOn db userId first last = .ok weeks ↔
      (last - first ≤ 31 ∧ ((paidTime db userId).filter (inPeriod zone first last)).Pairwise RowsApart) ∧
        weeks = weekSeconds zone weekStartsOn
          ((partIntervals zone db userId first last).flatMap (intervalSlices zone)) := by
  constructor
  · intro hok
    obtain ⟨_, _, hok⟩ := Library.bind_eq_ok.mp hok
    obtain ⟨_, hdays, hok⟩ := Library.bind_eq_ok.mp hok
    obtain ⟨intervals, hintervals, hok⟩ := Library.bind_eq_ok.mp hok
    obtain ⟨hapart, rfl⟩ := (periodIntervals_eq_ok_iff hle).mp hintervals
    exact ⟨⟨not_lt.mp (raiseIf_eq_ok.mp hdays), hapart⟩, (Except.ok.inj hok).symm⟩
  · rintro ⟨⟨hdays, hapart⟩, rfl⟩
    refine Library.bind_eq_ok.mpr ⟨(), raiseIf_eq_ok.mpr (not_lt.mpr hle), ?_⟩
    refine Library.bind_eq_ok.mpr ⟨(), raiseIf_eq_ok.mpr (not_lt.mpr hdays), ?_⟩
    exact Library.bind_eq_ok.mpr ⟨_, (periodIntervals_eq_ok_iff hle).mpr ⟨hapart, rfl⟩, rfl⟩

/-- A run over a period with too little time is refused; any other classes each week by its time. -/
theorem classedOvertime_payrollHours (hzone : MidnightsInOrder zone)
    (hends : EndsOffRepeatedMidnights zone (paidTime db userId)) (hle : first ≤ last)
    (hdays : last - first ≤ 31)
    (hapart : ((paidTime db userId).filter (inPeriod zone first last)).Pairwise RowsApart)
    (week : Int) :
    classedOvertime settings week (payrollHours zone settings db userId first last) =
      if 60 ≤ periodTime zone (paidTime db userId) first last then
        settings.overtimeSeconds
          (weekTime zone settings.weekStartsOn (paidTime db userId) first last week) / 60
      else 0 := by
  obtain ⟨hweek, hperiod⟩ := weekTotal_eq_weekTime hzone hends hle settings.weekStartsOn
  have hweeks := (payrollWeekSeconds_eq_ok_iff hle settings.weekStartsOn).mpr ⟨⟨hdays, hapart⟩, rfl⟩
  unfold payrollHours
  rw [hweeks]
  rw [← hweek week, ← hperiod]
  generalize weekSeconds zone settings.weekStartsOn
    ((partIntervals zone db userId first last).flatMap (intervalSlices zone)) = weeks
  by_cases hpayable : 60 ≤ (weeks.map (·.2)).sum
  · have hnot : ¬ (weeks = [] ∨ (weeks.map (·.2)).sum < 60) := by
      rintro (rfl | hless)
      · exact absurd hpayable (by decide)
      · exact absurd hpayable (not_le.mpr hless)
    simp only [bind, Except.bind, raiseIf, if_neg hnot, if_pos hpayable]
    rfl
  · have hrefused : weeks = [] ∨ (weeks.map (·.2)).sum < 60 := .inr (not_le.mp hpayable)
    simp only [bind, Except.bind, raiseIf, if_pos hrefused, if_neg hpayable]
    rfl

/-! ## Cutting a period -/

/-- The other part of a week's time, `other`, adds no minute to this part's overtime: this part reaches the
threshold in an accepted run, and its odd seconds with the other part make less than a minute. -/
def HoldsOvertime (settings : PayrollSettings) (payable : Prop) (time other : Int) : Prop :=
  payable ∧ settings.threshold ≤ time ∧ time % 60 + other < 60

/-- A week keeps its overtime when the range is cut: overtime is off, or the week's time is less than a minute
over the threshold, or one side of the cut holds its overtime, or the threshold is none, both runs are
accepted, and the odd seconds of the two sides make less than a minute. -/
def KeepsOvertime (zone : ZoneInfo) (settings : PayrollSettings) (rows : List (Int × Int))
    (first cut last week : Int) : Prop :=
  let before := weekTime zone settings.weekStartsOn rows first cut week
  let after := weekTime zone settings.weekStartsOn rows (cut + 1) last week
  settings.overtimeEnabled = false ∨ before + after < settings.threshold + 60 ∨
    HoldsOvertime settings (60 ≤ periodTime zone rows first cut) before after ∨
    HoldsOvertime settings (60 ≤ periodTime zone rows (cut + 1) last) after before ∨
    settings.threshold = 0 ∧ 60 ≤ periodTime zone rows first cut ∧
      60 ≤ periodTime zone rows (cut + 1) last ∧ before % 60 + after % 60 < 60

/-- The arithmetic of the threshold and the minutes. -/
theorem overtimeMinutes_add_iff (settings : PayrollSettings) {before after : Int} (hbefore : 0 ≤ before)
    (hafter : 0 ≤ after) (payable payable' : Prop) [Decidable payable] [Decidable payable'] :
    (if payable then settings.overtimeSeconds before / 60 else 0) +
        (if payable' then settings.overtimeSeconds after / 60 else 0) =
      settings.overtimeSeconds (before + after) / 60 ↔
    settings.overtimeEnabled = false ∨ before + after < settings.threshold + 60 ∨
      HoldsOvertime settings payable before after ∨ HoldsOvertime settings payable' after before ∨
      settings.threshold = 0 ∧ payable ∧ payable' ∧ before % 60 + after % 60 < 60 := by
  obtain ⟨limit, hlimit⟩ : ∃ limit : Int, settings.threshold = limit * 60 ∧ 0 ≤ limit :=
    ⟨settings.weeklyOvertimeMinutes, rfl, Int.natCast_nonneg _⟩
  unfold PayrollSettings.overtimeSeconds HoldsOvertime
  by_cases henabled : settings.overtimeEnabled = true
  · have hon : ¬ settings.overtimeEnabled = false := by simp [henabled]
    rw [if_pos henabled, if_pos henabled, if_pos henabled, or_iff_right hon, hlimit.1]
    -- omega needs the truncated differences by name, with what is known of each
    have hmax : ∀ x : Int, (0 ≤ x ∧ max 0 x = x) ∨ (x < 0 ∧ max 0 x = 0) := by
      intro x
      omega
    have hb := hmax (before - limit * 60)
    have ha := hmax (after - limit * 60)
    have hs := hmax (before + after - limit * 60)
    generalize max 0 (before - limit * 60) = b at hb ⊢
    generalize max 0 (after - limit * 60) = a at ha ⊢
    generalize max 0 (before + after - limit * 60) = s at hs ⊢
    by_cases hp : payable
    · by_cases hp' : payable'
      · simp only [hp, hp', if_true, true_and]
        omega
      · simp only [hp, hp', if_true, if_false, true_and, false_and, and_false, or_false]
        omega
    · by_cases hp' : payable'
      · simp only [hp, hp', if_true, if_false, true_and, false_and, and_false, or_false, false_or]
        omega
      · simp only [hp, hp', if_false, false_and, and_false, or_false]
        omega
  · rw [if_neg henabled, if_neg henabled, if_neg henabled]
    simp [henabled]

end

/-- The weeks of `week_seconds` are distinct. -/
theorem weekSeconds_nodup (zone : ZoneInfo) (weekStartsOn : Int) (slices : List DaySlice) :
    ((weekSeconds zone weekStartsOn slices).map (·.1)).Nodup := by
  have hadd : ∀ (week seconds : Int) (weeks : List (Int × Int)), (weeks.map (·.1)).Nodup →
      ((addSeconds week seconds weeks).map (·.1)).Nodup ∧
        ∀ w ∈ (addSeconds week seconds weeks).map (·.1), w = week ∨ w ∈ weeks.map (·.1) := by
    intro week seconds weeks
    induction weeks with
    | nil =>
      intro _
      exact ⟨List.nodup_singleton _, fun w hw => .inl (List.mem_singleton.mp hw)⟩
    | cons entry weeks ih =>
      obtain ⟨key, s⟩ := entry
      intro hnodup
      unfold addSeconds
      by_cases hkey : key = week
      · rw [if_pos hkey]
        exact ⟨hnodup, fun w hw => .inr hw⟩
      · rw [if_neg hkey]
        rw [List.map_cons, List.nodup_cons] at hnodup
        obtain ⟨hrest, hmem⟩ := ih hnodup.2
        rw [List.map_cons, List.map_cons, List.nodup_cons]
        refine ⟨⟨fun hin => ?_, hrest⟩, fun w hw => ?_⟩
        · rcases hmem _ hin with heq | hin
          · exact hkey heq
          · exact hnodup.1 hin
        · rcases List.mem_cons.mp hw with rfl | hin
          · exact .inr List.mem_cons_self
          · exact (hmem w hin).imp_right (List.mem_cons_of_mem _)
  have hfold : ∀ weeks : List (Int × Int), (weeks.map (·.1)).Nodup →
      ((slices.foldl (fun weeks slice =>
        addSeconds (slice.week weekStartsOn) (slice.seconds zone) weeks) weeks).map (·.1)).Nodup := by
    induction slices with
    | nil => exact fun weeks h => h
    | cons slice slices ih => exact fun weeks h => ih _ (hadd _ _ weeks h).1
  exact hfold [] List.nodup_nil

/-- The value of a week is the one that stands under it. -/
theorem weekTotal_of_mem {weeks : List (Int × Int)} (hnodup : (weeks.map (·.1)).Nodup) {entry : Int × Int}
    (hentry : entry ∈ weeks) : weekTotal entry.1 weeks = entry.2 := by
  induction weeks with
  | nil => cases hentry
  | cons other weeks ih =>
    rw [List.map_cons, List.nodup_cons] at hnodup
    unfold weekTotal
    rcases List.mem_cons.mp hentry with rfl | hrest
    · exact if_pos rfl
    · rw [if_neg, ih hnodup.2 hrest]
      intro heq
      exact hnodup.1 (heq ▸ List.mem_map.mpr ⟨entry, hrest, rfl⟩)

/-- **`overtime` is what a run classes as overtime, week by week.** -/
theorem payrollHours_overtime {zone : ZoneInfo} {settings : PayrollSettings} {db : Database} {userId : Nat}
    {first last : Int} {hours : PayrollHours}
    (hrun : payrollHours zone settings db userId first last = .ok hours) :
    (hours.weekSeconds.map (·.1)).Nodup ∧ hours.overtime =
      ((hours.weekSeconds.map (·.1)).map fun week => classedOvertime settings week (.ok hours)).sum := by
  obtain ⟨weeks, hweeks, hhours⟩ := Library.bind_eq_ok.mp hrun
  obtain ⟨_, _, hweeks⟩ := Library.bind_eq_ok.mp hweeks
  obtain ⟨_, _, hweeks⟩ := Library.bind_eq_ok.mp hweeks
  obtain ⟨intervals, _, hweeks⟩ := Library.bind_eq_ok.mp hweeks
  obtain ⟨_, _, hhours⟩ := Library.bind_eq_ok.mp hhours
  cases hhours
  cases hweeks
  have hnodup := weekSeconds_nodup zone settings.weekStartsOn (intervals.flatMap (intervalSlices zone))
  refine ⟨hnodup, ?_⟩
  rw [List.map_map]
  refine congrArg List.sum (List.map_congr_left fun entry hentry => ?_)
  show _ = settings.overtimeSeconds (weekTotal entry.1 _) / 60
  rw [weekTotal_of_mem hnodup hentry]

/-- **Overtime survives a cut exactly when every week keeps it.** For every time zone whose instants lie between
the midnights of their dates, every setting, and every range of days whose run is accepted, the overtime of the
two adjacent runs is that of the single one in every week if and only if every week keeps its overtime; and the
`overtime` of each run is what it classes in its weeks. -/
theorem overtime_cut_iff (zone : ZoneInfo) (hzone : MidnightsInOrder zone) (settings : PayrollSettings)
    (db : Database) (userId : Nat) (first cut last : Int) (hcut : first ≤ cut) (hlast : cut < last)
    (hends : EndsOffRepeatedMidnights zone (paidTime db userId)) (hours : PayrollHours)
    (hrun : payrollHours zone settings db userId first last = .ok hours) :
    ((∀ week, classedOvertime settings week (payrollHours zone settings db userId first cut) +
        classedOvertime settings week (payrollHours zone settings db userId (cut + 1) last) =
      classedOvertime settings week (payrollHours zone settings db userId first last)) ↔
    ∀ week, KeepsOvertime zone settings (paidTime db userId) first cut last week) ∧
    ∀ (days : Int × Int) (hours : PayrollHours), days ∈ [(first, cut), (cut + 1, last), (first, last)] →
      payrollHours zone settings db userId days.1 days.2 = .ok hours →
      (hours.weekSeconds.map (·.1)).Nodup ∧ hours.overtime =
        ((hours.weekSeconds.map (·.1)).map fun week => classedOvertime settings week (.ok hours)).sum := by
  refine ⟨?_, fun _ _ _ hpart => payrollHours_overtime hpart⟩
  have hle : first ≤ last := hcut.trans hlast.le
  obtain ⟨weeks, hweeks, hhours⟩ := Library.bind_eq_ok.mp hrun
  obtain ⟨⟨hdays, hapart⟩, hweeksEq⟩ :=
    (payrollWeekSeconds_eq_ok_iff hle settings.weekStartsOn).mp hweeks
  obtain ⟨_, hraise, _⟩ := Library.bind_eq_ok.mp hhours
  have hpayable : 60 ≤ periodTime zone (paidTime db userId) first last := by
    have hnot := raiseIf_eq_ok.mp hraise
    rw [← (weekTotal_eq_weekTime hzone hends hle settings.weekStartsOn).2, ← hweeksEq]
    omega
  -- the rows of a part of the range are among those of the range
  have hpart : ∀ first' last' : Int, first ≤ first' → last' ≤ last →
      ((paidTime db userId).filter (inPeriod zone first' last')).Pairwise RowsApart := by
    intro first' last' hfirst' hlast'
    have hlower := hzone.le hfirst'
    have hupper := hzone.le (show last' + 1 ≤ last + 1 by omega)
    refine List.Pairwise.sublist (List.monotone_filter_right _ ?_) hapart
    intro row hrow
    unfold inPeriod at hrow ⊢
    simp only [Bool.and_eq_true, decide_eq_true_eq] at hrow ⊢
    omega
  apply forall_congr'
  intro week
  rw [classedOvertime_payrollHours hzone hends hcut (by omega) (hpart first cut le_rfl hlast.le),
    classedOvertime_payrollHours hzone hends (show cut + 1 ≤ last by omega) (by omega)
      (hpart (cut + 1) last (by omega) le_rfl),
    classedOvertime_payrollHours hzone hends hle hdays hapart, if_pos hpayable]
  have hsum : weekTime zone settings.weekStartsOn (paidTime db userId) first last week =
      weekTime zone settings.weekStartsOn (paidTime db userId) first cut week +
        weekTime zone settings.weekStartsOn (paidTime db userId) (cut + 1) last week :=
    sum_days_append _ (by omega) hlast.le
  rw [hsum]
  exact overtimeMinutes_add_iff settings (weekTime_nonneg _ _ _ _ _ _) (weekTime_nonneg _ _ _ _ _ _) _ _

/-! ## A week that is cut -/

/-- Coordinated universal time. -/
def coordinatedTime : ZoneInfo where
  fromutc t := ⟨t, false⟩
  toutc l := l.wall
  toutc_fromutc _ := rfl
  dvd_offset l := by
    rw [sub_self]
    exact dvd_zero _

theorem midnightsInOrder_coordinatedTime : MidnightsInOrder coordinatedTime where
  succ day := (startOfDay_lt_startOfDay.mpr (Int.lt_succ day)).le
  date _ := dateOf_eq_iff.mp rfl

/-- Two entries of a day each in one week from Monday. -/
def twoLongDays : Database where
  manualTimeEntries :=
    [⟨1, 1, 1, none, startOfDay 4, startOfDay 5, "", .approved⟩,
      ⟨2, 1, 1, none, startOfDay 7, startOfDay 8, "", .approved⟩]

/-- Overtime after forty hours, in weeks from Monday. -/
def fortyHours : PayrollSettings :=
  { weekStartsOn := 1, overtimeEnabled := true, weeklyOvertimeMinutes := 2400 }

theorem overtime_cut_iff_twoLongDays :
    ((∀ week, classedOvertime fortyHours week (payrollHours coordinatedTime fortyHours twoLongDays 1 4 8) +
        classedOvertime fortyHours week (payrollHours coordinatedTime fortyHours twoLongDays 1 (8 + 1) 10) =
      classedOvertime fortyHours week (payrollHours coordinatedTime fortyHours twoLongDays 1 4 10)) ↔
    ∀ week, KeepsOvertime coordinatedTime fortyHours (paidTime twoLongDays 1) 4 8 10 week) ∧
    ∀ (days : Int × Int) (hours : PayrollHours), days ∈ [(4, 8), (8 + 1, 10), (4, 10)] →
      payrollHours coordinatedTime fortyHours twoLongDays 1 days.1 days.2 = .ok hours →
      (hours.weekSeconds.map (·.1)).Nodup ∧ hours.overtime =
        ((hours.weekSeconds.map (·.1)).map fun week => classedOvertime fortyHours week (.ok hours)).sum :=
  overtime_cut_iff coordinatedTime midnightsInOrder_coordinatedTime fortyHours twoLongDays 1 4 8 10
    (by decide) (by decide) (fun _ _ _ hshown => hshown.le)
    { weekSeconds := [(4, 172800)], regular := 2400, overtime := 480 } (by decide +kernel)

/-- **A cut week loses its overtime.** Forty-eight hours of one week are eight hours of overtime in one
period, and none in two periods of twenty-four hours each. -/
theorem overtime_lostByCut :
    ¬ ∀ (zone : ZoneInfo) (settings : PayrollSettings) (db : Database) (userId : Nat)
        (first cut last : Int), first ≤ cut → cut < last →
        ∀ hours, payrollHours zone settings db userId first last = .ok hours → ∀ week,
          classedOvertime settings week (payrollHours zone settings db userId first cut) +
              classedOvertime settings week (payrollHours zone settings db userId (cut + 1) last) =
            classedOvertime settings week (payrollHours zone settings db userId first last) := by
  intro h
  have hcut := h coordinatedTime fortyHours twoLongDays 1 4 5 10 (by decide) (by decide)
    { weekSeconds := [(4, 172800)], regular := 2400, overtime := 480 } (by decide +kernel) 4
  revert hcut
  decide +kernel

end Dayfinch
