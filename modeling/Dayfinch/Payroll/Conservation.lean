/-
# Dayfinch.Payroll.Conservation -- when payroll conserves time

`payrollWeekSeconds` should add up to the elapsed seconds of the clipped intervals, and put each second
into the week of its local date. The loop telescopes, so an interval counts in full as soon as it is
entered (`sum_elapsed`); it is entered when the local clock shows a later time at its end than at its
beginning, which fails inside a repeated hour. And a slice puts its seconds into the right week exactly
when the midnights it is cut at are met in order and separate the local dates (`slices_attribute_iff`).

`payroll_conserves_iff` puts the two together: the condition is exact, for every zone.
-/
import Dayfinch.Payroll.Weeks
import Mathlib.Algebra.BigOperators.Group.List.Basic
import Mathlib.Algebra.Order.BigOperators.Group.List
import Mathlib.Data.List.Perm.Basic

namespace Dayfinch

open Library (LocalTime Zone)
open Library.Calendar (weekStart IsWeekStart weekStart_eq_weekStart_iff)

/-! ## The property and the condition -/

/-- The whole seconds of a row between two instants. -/
def elapsedSeconds (lower upper : Int) (row : Int × Int) : Int :=
  max 0 (min row.2 upper - max row.1 lower) / 1000000

/-- The whole seconds from one to another that satisfy a test. -/
def secondsWhere (p : Int → Bool) (first last : Int) : Int :=
  ((List.range (last - first).toNat).countP fun n : Nat => p (first + n) : Nat)

/-- The local date of a second is in a week. -/
def fallsIn (zone : ZoneInfo) (weekStartsOn week k : Int) : Bool :=
  weekStart (configuredWeekday weekStartsOn) (dateOf (zone.fromutc (seconds k)).wall) = week

/-- The whole seconds of a row between two instants that have their local dates in a week. -/
def localSeconds (zone : ZoneInfo) (weekStartsOn week lower upper : Int) (row : Int × Int) : Int :=
  secondsWhere (fallsIn zone weekStartsOn week) (max row.1 lower / 1000000) (min row.2 upper / 1000000)

/-- Every second of the slice has its local date in the slice's week. -/
structure DaySlice.Attributes (zone : ZoneInfo) (weekStartsOn : Int) (slice : DaySlice) : Prop where
  forward : zone.toutc slice.cursor ≤ zone.toutc slice.boundary
  week : ∀ k : Int, zone.toutc slice.cursor ≤ Dayfinch.seconds k →
    Dayfinch.seconds k < zone.toutc slice.boundary →
    weekStart (configuredWeekday weekStartsOn) (dateOf (zone.fromutc (Dayfinch.seconds k)).wall) =
      slice.week weekStartsOn

/-- **Payroll conserves time**: the values of `week_seconds` add up to the elapsed seconds of the rows between
two instants, the value of every week is the number of those seconds whose local date lies in it, and every
slice of an interval goes to the week of each of its seconds. -/
structure ConservesTime (zone : ZoneInfo) (weekStartsOn lower upper : Int) (rows : List (Int × Int))
    (intervals : List (Stamp × Stamp)) (weeks : List (Int × Int)) : Prop where
  total : (weeks.map (·.2)).sum = (rows.map (elapsedSeconds lower upper)).sum
  weeks : ∀ week, weekTotal week weeks = (rows.map (localSeconds zone weekStartsOn week lower upper)).sum
  slices : ∀ interval ∈ intervals, ∀ slice ∈ intervalSlices zone interval,
    slice.Attributes zone weekStartsOn

/-- The instant at which an interval passes the midnight that begins `day`: the interval's start if it
begins after that midnight on the wall, and its end if it ends before. -/
def midnightWithin (zone : ZoneInfo) (cursor localEnd : LocalTime) (day : Int) : Int :=
  if startOfDay day ≤ cursor.wall then zone.toutc cursor
  else if startOfDay day < localEnd.wall then zone.toutc (localMidnight day)
  else zone.toutc localEnd

/-- The midnights of an interval come in order, and at a week start the local date changes from before
to after at the very instant of the midnight. -/
structure MeetsMidnights (zone : ZoneInfo) (weekStartsOn : Int) (cursor localEnd : LocalTime) :
    Prop where
  inOrder : ∀ d d' : Int, d ≤ d' →
    midnightWithin zone cursor localEnd d ≤ midnightWithin zone cursor localEnd d'
  weeks : ∀ d, IsWeekStart (configuredWeekday weekStartsOn) d → ∀ k : Int,
    zone.toutc cursor ≤ seconds k → seconds k < zone.toutc localEnd →
      (dateOf (zone.fromutc (seconds k)).wall < d ↔
        seconds k < midnightWithin zone cursor localEnd d)

/-- **The local clock runs forward through the interval.** -/
structure RunsForward (zone : ZoneInfo) (weekStartsOn : Int) (interval : Stamp × Stamp) : Prop where
  enters : (interval.1.astimezone zone).wall < (interval.2.astimezone zone).wall
  midnights :
    MeetsMidnights zone weekStartsOn (interval.1.astimezone zone) (interval.2.astimezone zone)

/-- The condition of a row: its part in the period, if it has one, runs forward. -/
def RowRunsForward (zone : ZoneInfo) (weekStartsOn : Int) (lower upper : LocalTime)
    (row : Int × Int) : Prop :=
  row.1 < zone.toutc upper → zone.toutc lower < row.2 →
    (clipRow zone lower upper row).1.lt zone (clipRow zone lower upper row).2 = true →
    RunsForward zone weekStartsOn (clipRow zone lower upper row)

/-! ## The loop rule -/

section

variable {zone : ZoneInfo} {weekStartsOn : Int} {cursor localEnd : LocalTime}

theorem dateOf_localMidnight (d : Int) : dateOf (localMidnight d).wall = d := by
  rw [dateOf_eq_iff]
  exact ⟨le_rfl, startOfDay_lt_startOfDay.mpr (Int.lt_succ d)⟩

/-- The boundary is the next midnight where that is before the end, and else the end. -/
theorem dayBoundary_cases (cursor localEnd : LocalTime) :
    (startOfDay (dateOf cursor.wall + 1) < localEnd.wall ∧
      dayBoundary cursor localEnd = localMidnight (dateOf cursor.wall + 1)) ∨
    (localEnd.wall ≤ startOfDay (dateOf cursor.wall + 1) ∧
      dayBoundary cursor localEnd = localEnd) := by
  by_cases hnext : startOfDay (dateOf cursor.wall + 1) < localEnd.wall
  · exact .inl ⟨hnext, if_pos hnext⟩
  · exact .inr ⟨not_lt.mp hnext, if_neg hnext⟩

theorem localDays_localMidnight (h : startOfDay (dateOf cursor.wall + 1) < localEnd.wall) :
    localDays (localMidnight (dateOf cursor.wall + 1)) localEnd + 1 ≤ localDays cursor localEnd := by
  have hle : dateOf cursor.wall + 1 ≤ dateOf localEnd.wall := startOfDay_le_iff.mp h.le
  unfold localDays
  rw [dateOf_localMidnight]
  omega

/-- A cursor that is not past the end takes at least one turn. -/
theorem one_le_localDays (h : cursor.wall < localEnd.wall ∨ cursor = localEnd) :
    1 ≤ localDays cursor localEnd := by
  have hle : dateOf cursor.wall ≤ dateOf localEnd.wall := by
    rcases h with hlt | rfl
    · exact startOfDay_le_iff.mp ((dateOf_eq_iff.mp rfl).1.trans hlt.le)
    · exact le_rfl
  unfold localDays
  omega

theorem daySlices_end (fuel : Nat) (localEnd : LocalTime) : daySlices fuel localEnd localEnd = [] := by
  cases fuel with
  | zero => rfl
  | succ fuel => exact if_neg (lt_irrefl _)

/-- **The loop rule.** What holds of the end and no slices, and is carried from a boundary back to the
cursor by one turn, holds of a cursor and all its slices. -/
theorem daySlices_rule {P : LocalTime → List DaySlice → Prop} (hdone : P localEnd [])
    (hturn : ∀ cursor rest, cursor.wall < localEnd.wall → P (dayBoundary cursor localEnd) rest →
      P cursor (⟨cursor, dayBoundary cursor localEnd⟩ :: rest)) :
    ∀ (fuel : Nat) (cursor : LocalTime), localDays cursor localEnd ≤ fuel →
      cursor.wall < localEnd.wall ∨ cursor = localEnd → P cursor (daySlices fuel cursor localEnd) := by
  intro fuel
  induction fuel with
  | zero =>
    intro cursor hfuel hstart
    have hone := one_le_localDays hstart
    omega
  | succ fuel ih =>
    rintro cursor hfuel (hlt | rfl)
    · have hunfold : daySlices (fuel + 1) cursor localEnd =
          ⟨cursor, dayBoundary cursor localEnd⟩ ::
            daySlices fuel (dayBoundary cursor localEnd) localEnd := if_pos hlt
      rw [hunfold]
      refine hturn cursor _ hlt ?_
      rcases dayBoundary_cases cursor localEnd with ⟨hnext, hboundary⟩ | ⟨_, hboundary⟩
      · rw [hboundary]
        have hdays := localDays_localMidnight hnext
        exact ih _ (by omega) (.inl hnext)
      · rw [hboundary, daySlices_end]
        exact hdone
    · rw [daySlices_end]
      exact hdone

theorem intervalSlices_eq_nil {interval : Stamp × Stamp}
    (h : ¬ (interval.1.astimezone zone).wall < (interval.2.astimezone zone).wall) :
    intervalSlices zone interval = [] := by
  show daySlices (localDays _ _) _ _ = []
  cases localDays (interval.1.astimezone zone) (interval.2.astimezone zone) with
  | zero => rfl
  | succ fuel => exact if_neg h

/-! ## The loop telescopes -/

theorem sum_daySlices (h : cursor.wall < localEnd.wall ∨ cursor = localEnd) :
    ((daySlices (localDays cursor localEnd) cursor localEnd).map (DaySlice.elapsed zone)).sum =
      zone.toutc localEnd - zone.toutc cursor := by
  refine daySlices_rule
    (P := fun cursor slices => (slices.map (DaySlice.elapsed zone)).sum =
      zone.toutc localEnd - zone.toutc cursor) ?_ ?_ _ cursor le_rfl h
  · simp
  · intro cursor rest _ ih
    rw [List.map_cons, List.sum_cons, ih]
    show zone.toutc (dayBoundary cursor localEnd) - zone.toutc cursor + _ = _
    omega

theorem toutc_localMidnight_whole (d : Int) : 1000000 ∣ zone.toutc (localMidnight d) := by
  refine zone.dvd_toutc ⟨d * 86400, ?_⟩
  show d * 86400 * 1000000 = 1000000 * (d * 86400)
  omega

/-- A slice is a whole number of seconds when the ends of its interval are. -/
theorem daySlices_whole (h : cursor.wall < localEnd.wall ∨ cursor = localEnd)
    (hstart : 1000000 ∣ zone.toutc cursor) (hend : 1000000 ∣ zone.toutc localEnd) :
    ∀ slice ∈ daySlices (localDays cursor localEnd) cursor localEnd,
      1000000 ∣ slice.elapsed zone := by
  refine daySlices_rule
    (P := fun cursor slices => 1000000 ∣ zone.toutc cursor →
      ∀ slice ∈ slices, 1000000 ∣ slice.elapsed zone) ?_ ?_ _ cursor le_rfl h hstart
  · intro _ slice hslice
    cases hslice
  · intro cursor rest _ ih hcursor slice hslice
    have hboundary : 1000000 ∣ zone.toutc (dayBoundary cursor localEnd) := by
      rcases dayBoundary_cases cursor localEnd with ⟨_, hboundary⟩ | ⟨_, hboundary⟩
      · rw [hboundary]
        exact toutc_localMidnight_whole _
      · rw [hboundary]
        exact hend
    rcases List.mem_cons.mp hslice with rfl | hrest
    · exact Int.dvd_sub hboundary hcursor
    · exact ih hboundary slice hrest

/-! ## The midnights of an interval -/

/-- The midnights seen from the next boundary: they are the same after the cursor's day, and before it
all are passed. -/
theorem midnightWithin_boundary (d : Int) :
    midnightWithin zone cursor localEnd d =
      if d ≤ dateOf cursor.wall then zone.toutc cursor
      else midnightWithin zone (dayBoundary cursor localEnd) localEnd d := by
  have hpast : startOfDay d ≤ cursor.wall ↔ d ≤ dateOf cursor.wall := startOfDay_le_iff
  unfold midnightWithin
  by_cases hd : d ≤ dateOf cursor.wall
  · rw [if_pos (hpast.mpr hd), if_pos hd]
  · rw [if_neg (mt hpast.mp hd), if_neg hd]
    have hnextDay : dateOf cursor.wall + 1 ≤ d := Int.not_le.mp hd
    rcases dayBoundary_cases cursor localEnd with ⟨hnext, hboundary⟩ | ⟨hnext, hboundary⟩
    · rw [hboundary]
      rcases eq_or_lt_of_le hnextDay with rfl | hlater
      · rw [if_pos hnext, ite_self]
      · have hlater' : ¬ startOfDay d ≤ (localMidnight (dateOf cursor.wall + 1)).wall :=
          not_le.mpr (startOfDay_lt_startOfDay.mpr hlater)
        rw [if_neg hlater']
    · -- no midnight is left before the end
      have hbeyond : ¬ startOfDay d < localEnd.wall := by
        rcases eq_or_lt_of_le hnextDay with rfl | hlater
        · exact not_lt.mpr hnext
        · exact not_lt.mpr (hnext.trans (startOfDay_lt_startOfDay.mpr hlater).le)
      rw [hboundary, if_neg hbeyond, ite_self]

/-- From a boundary, the midnights up to the end of the cursor's day are passed. -/
theorem midnightWithin_passed {d : Int} (hd : d ≤ dateOf cursor.wall + 1) :
    midnightWithin zone (dayBoundary cursor localEnd) localEnd d =
      zone.toutc (dayBoundary cursor localEnd) := by
  unfold midnightWithin
  rcases dayBoundary_cases cursor localEnd with ⟨_, hboundary⟩ | ⟨_, hboundary⟩
  · rw [hboundary, if_pos]
    rw [startOfDay_le_iff, dateOf_localMidnight]
    exact hd
  · rw [hboundary]
    by_cases hpast : startOfDay d ≤ localEnd.wall
    · rw [if_pos hpast]
    · rw [if_neg hpast, if_neg (mt le_of_lt hpast)]

/-- Every midnight is passed by the end of the interval. -/
theorem midnightWithin_end (hle : cursor.wall ≤ localEnd.wall) {d : Int}
    (hd : dateOf localEnd.wall < d) :
    midnightWithin zone cursor localEnd d = zone.toutc localEnd := by
  have hafter : localEnd.wall < startOfDay d := by
    rw [← not_le, startOfDay_le_iff]
    exact not_le.mpr hd
  unfold midnightWithin
  rw [if_neg (not_le.mpr (hle.trans_lt hafter)), if_neg (not_lt.mpr hafter.le)]

theorem dayBoundary_le (cursor localEnd : LocalTime) :
    (dayBoundary cursor localEnd).wall ≤ localEnd.wall := by
  rcases dayBoundary_cases cursor localEnd with ⟨hnext, hboundary⟩ | ⟨_, hboundary⟩
  · rw [hboundary]
    exact hnext.le
  · rw [hboundary]

/-- An empty rest of an interval meets no midnight. -/
theorem meetsMidnights_end (zone : ZoneInfo) (weekStartsOn : Int) (localEnd : LocalTime) :
    MeetsMidnights zone weekStartsOn localEnd localEnd := by
  have hconst : ∀ d, midnightWithin zone localEnd localEnd d = zone.toutc localEnd := by
    intro d
    unfold midnightWithin
    by_cases hpast : startOfDay d ≤ localEnd.wall
    · rw [if_pos hpast]
    · rw [if_neg hpast, if_neg (mt le_of_lt hpast)]
  refine ⟨fun d d' _ => ?_, fun d _ k hge hlt => absurd hlt (not_lt.mpr hge)⟩
  rw [hconst, hconst]

/-- **One turn of the loop.** The midnights of an interval are met exactly when the first slice puts its
seconds into the right week and the midnights of the rest are met. -/
theorem meetsMidnights_turn :
    MeetsMidnights zone weekStartsOn cursor localEnd ↔
      (⟨cursor, dayBoundary cursor localEnd⟩ : DaySlice).Attributes zone weekStartsOn ∧
        MeetsMidnights zone weekStartsOn (dayBoundary cursor localEnd) localEnd := by
  obtain ⟨today, htoday⟩ : ∃ today, today = dateOf cursor.wall := ⟨_, rfl⟩
  have hpast : ∀ d, d ≤ today → midnightWithin zone cursor localEnd d = zone.toutc cursor := by
    intro d hd
    rw [midnightWithin_boundary, if_pos (htoday ▸ hd)]
  have hlater : ∀ d, today < d → midnightWithin zone cursor localEnd d =
      midnightWithin zone (dayBoundary cursor localEnd) localEnd d := by
    intro d hd
    rw [midnightWithin_boundary, if_neg (not_le.mpr (htoday ▸ hd))]
  have hpassed : ∀ d, d ≤ today + 1 →
      midnightWithin zone (dayBoundary cursor localEnd) localEnd d =
        zone.toutc (dayBoundary cursor localEnd) := by
    intro d hd
    exact midnightWithin_passed (htoday ▸ hd)
  have hweek : (⟨cursor, dayBoundary cursor localEnd⟩ : DaySlice).week weekStartsOn =
      weekStart (configuredWeekday weekStartsOn) today := by
    rw [htoday]
    rfl
  constructor
  · rintro ⟨hmono, hweeks⟩
    have hfrom : ∀ d, today < d → zone.toutc (dayBoundary cursor localEnd) ≤
        midnightWithin zone (dayBoundary cursor localEnd) localEnd d := by
      intro d hd
      have h := hmono (today + 1) d hd
      rw [hlater _ (Int.lt_succ today), hlater _ hd, hpassed _ le_rfl] at h
      exact h
    have hforward : zone.toutc cursor ≤ zone.toutc (dayBoundary cursor localEnd) := by
      have h := hmono today (today + 1) (Int.le_add_one le_rfl)
      rw [hpast _ le_rfl, hlater _ (Int.lt_succ today), hpassed _ le_rfl] at h
      exact h
    have hend : zone.toutc (dayBoundary cursor localEnd) ≤ zone.toutc localEnd := by
      have h := hfrom (max today (dateOf localEnd.wall) + 1) (by omega)
      rw [midnightWithin_end (dayBoundary_le cursor localEnd) (by omega)] at h
      exact h
    refine ⟨⟨hforward, fun k hge hlt => ?_⟩, fun d d' hle => ?_, fun w hw k hge hlt => ?_⟩
    · rw [hweek, weekStart_eq_weekStart_iff]
      intro w hw
      rw [hweeks w hw k hge (lt_of_lt_of_le hlt hend)]
      by_cases hwt : today < w
      · rw [hlater w hwt]
        exact ⟨fun _ => hwt, fun _ => lt_of_lt_of_le hlt (hfrom w hwt)⟩
      · rw [hpast w (not_lt.mp hwt)]
        exact ⟨fun h => absurd h (not_lt.mpr hge), fun h => absurd h hwt⟩
    · by_cases hd : today < d
      · rw [← hlater d hd, ← hlater d' (lt_of_lt_of_le hd hle)]
        exact hmono d d' hle
      · rw [hpassed d ((not_lt.mp hd).trans (Int.le_add_one le_rfl))]
        by_cases hd' : today < d'
        · exact hfrom d' hd'
        · rw [hpassed d' ((not_lt.mp hd').trans (Int.le_add_one le_rfl))]
    · rw [hweeks w hw k (hforward.trans hge) hlt]
      by_cases hwt : today < w
      · rw [hlater w hwt]
      · rw [hpast w (not_lt.mp hwt), hpassed w ((not_lt.mp hwt).trans (Int.le_add_one le_rfl))]
        exact ⟨fun h => absurd h (not_lt.mpr (hforward.trans hge)), fun h => absurd h (not_lt.mpr hge)⟩
  · rintro ⟨⟨hforward, hslice⟩, hmono, hweeks⟩
    have hfrom : ∀ d, today < d → zone.toutc (dayBoundary cursor localEnd) ≤
        midnightWithin zone (dayBoundary cursor localEnd) localEnd d := by
      intro d hd
      have h := hmono (today + 1) d hd
      rw [hpassed _ le_rfl] at h
      exact h
    refine ⟨fun d d' hle => ?_, fun w hw k hge hlt => ?_⟩
    · by_cases hd : today < d
      · rw [hlater d hd, hlater d' (lt_of_lt_of_le hd hle)]
        exact hmono d d' hle
      · rw [hpast d (not_lt.mp hd)]
        by_cases hd' : today < d'
        · rw [hlater d' hd']
          exact hforward.trans (hfrom d' hd')
        · rw [hpast d' (not_lt.mp hd')]
    · by_cases hk : seconds k < zone.toutc (dayBoundary cursor localEnd)
      · -- a second of the first slice
        have hsame := hslice k hge hk
        rw [hweek, weekStart_eq_weekStart_iff] at hsame
        rw [hsame w hw]
        by_cases hwt : today < w
        · rw [hlater w hwt]
          exact ⟨fun _ => lt_of_lt_of_le hk (hfrom w hwt), fun _ => hwt⟩
        · rw [hpast w (not_lt.mp hwt)]
          exact ⟨fun h => absurd h hwt, fun h => absurd h (not_lt.mpr hge)⟩
      · rw [hweeks w hw k (not_lt.mp hk) hlt]
        by_cases hwt : today < w
        · rw [hlater w hwt]
        · rw [hpast w (not_lt.mp hwt), hpassed w ((not_lt.mp hwt).trans (Int.le_add_one le_rfl))]
          exact ⟨fun h => absurd h hk, fun h => absurd h (not_lt.mpr hge)⟩

/-- **The slices put every second into the right week exactly when the midnights are met.** -/
theorem slices_attribute_iff (h : cursor.wall < localEnd.wall ∨ cursor = localEnd) :
    (∀ slice ∈ daySlices (localDays cursor localEnd) cursor localEnd,
      slice.Attributes zone weekStartsOn) ↔ MeetsMidnights zone weekStartsOn cursor localEnd := by
  refine daySlices_rule
    (P := fun cursor slices => (∀ slice ∈ slices, slice.Attributes zone weekStartsOn) ↔
      MeetsMidnights zone weekStartsOn cursor localEnd) ?_ ?_ _ cursor le_rfl h
  · refine ⟨fun _ => meetsMidnights_end zone weekStartsOn localEnd, fun _ slice hslice => ?_⟩
    cases hslice
  · intro cursor rest _ ih
    rw [List.forall_mem_cons, ih]
    exact meetsMidnights_turn.symm

/-- Midnights in order carry the start of the interval before its end. -/
theorem MeetsMidnights.forward (h : MeetsMidnights zone weekStartsOn cursor localEnd)
    (hle : cursor.wall ≤ localEnd.wall) : zone.toutc cursor ≤ zone.toutc localEnd := by
  have hstart : midnightWithin zone cursor localEnd (dateOf cursor.wall) = zone.toutc cursor :=
    if_pos (dateOf_eq_iff.mp rfl).1
  have hend : midnightWithin zone cursor localEnd (dateOf localEnd.wall + 1) = zone.toutc localEnd :=
    midnightWithin_end hle (Int.lt_succ _)
  have hdays : dateOf cursor.wall ≤ dateOf localEnd.wall + 1 := by
    have hdate := startOfDay_le_iff.mp ((dateOf_eq_iff.mp rfl).1.trans hle)
    omega
  have horder := h.inOrder _ _ hdays
  rw [hstart, hend] at horder
  exact horder

end

/-! ## Adding up the slices -/

theorem sum_addSeconds (week seconds : Int) (weeks : List (Int × Int)) :
    ((addSeconds week seconds weeks).map (·.2)).sum = (weeks.map (·.2)).sum + seconds := by
  induction weeks with
  | nil => simp [addSeconds]
  | cons entry weeks ih =>
    obtain ⟨w, s⟩ := entry
    unfold addSeconds
    by_cases hw : w = week
    · rw [if_pos hw, List.map_cons, List.map_cons, List.sum_cons, List.sum_cons]
      omega
    · rw [if_neg hw, List.map_cons, List.map_cons, List.sum_cons, List.sum_cons, ih]
      omega

/-- The values of `week_seconds` add up to the seconds of all slices. -/
theorem sum_weekSeconds (zone : ZoneInfo) (weekStartsOn : Int) (slices : List DaySlice) :
    ((weekSeconds zone weekStartsOn slices).map (·.2)).sum =
      (slices.map (DaySlice.seconds zone)).sum := by
  have hfold : ∀ weeks : List (Int × Int),
      ((slices.foldl (fun weeks slice =>
          addSeconds (slice.week weekStartsOn) (slice.seconds zone) weeks) weeks).map (·.2)).sum =
        (weeks.map (·.2)).sum + (slices.map (DaySlice.seconds zone)).sum := by
    induction slices with
    | nil => simp
    | cons slice slices ih =>
      intro weeks
      rw [List.foldl_cons, ih, sum_addSeconds, List.map_cons, List.sum_cons]
      omega
  have h := hfold []
  rw [List.map_nil, List.sum_nil, Int.zero_add] at h
  exact h

theorem weekTotal_addSeconds (week key seconds : Int) (weeks : List (Int × Int)) :
    weekTotal week (addSeconds key seconds weeks) =
      weekTotal week weeks + if key = week then seconds else 0 := by
  induction weeks with
  | nil =>
    unfold addSeconds weekTotal
    split <;> simp [weekTotal]
  | cons entry weeks ih =>
    obtain ⟨w, s⟩ := entry
    unfold addSeconds
    by_cases hkey : w = key
    · rw [if_pos hkey, hkey]
      unfold weekTotal
      by_cases hweek : key = week
      · rw [if_pos hweek, if_pos hweek, if_pos hweek]
      · rw [if_neg hweek, if_neg hweek, if_neg hweek, add_zero]
    · rw [if_neg hkey]
      unfold weekTotal
      by_cases hweek : w = week
      · rw [if_pos hweek, if_pos hweek, if_neg fun h => hkey (hweek.trans h.symm), add_zero]
      · rw [if_neg hweek, if_neg hweek, ih]

/-- The value of `week_seconds` at a week adds up the slices of the week. -/
theorem weekTotal_weekSeconds (zone : ZoneInfo) (week weekStartsOn : Int) (slices : List DaySlice) :
    weekTotal week (weekSeconds zone weekStartsOn slices) =
      (slices.map fun slice =>
        if slice.week weekStartsOn = week then slice.seconds zone else 0).sum := by
  have hfold : ∀ weeks : List (Int × Int),
      weekTotal week (slices.foldl (fun weeks slice =>
          addSeconds (slice.week weekStartsOn) (slice.seconds zone) weeks) weeks) =
        weekTotal week weeks + (slices.map fun slice =>
          if slice.week weekStartsOn = week then slice.seconds zone else 0).sum := by
    induction slices with
    | nil => simp
    | cons slice slices ih =>
      intro weeks
      rw [List.foldl_cons, ih, weekTotal_addSeconds, List.map_cons, List.sum_cons, add_assoc]
  rw [weekSeconds, hfold]
  exact zero_add _

theorem sum_seconds {zone : ZoneInfo} {slices : List DaySlice}
    (h : ∀ slice ∈ slices, 1000000 ∣ slice.elapsed zone) :
    (slices.map (DaySlice.seconds zone)).sum * 1000000 =
      (slices.map (DaySlice.elapsed zone)).sum := by
  induction slices with
  | nil => rfl
  | cons slice slices ih =>
    rw [List.forall_mem_cons] at h
    rw [List.map_cons, List.map_cons, List.sum_cons, List.sum_cons, Int.add_mul, ih h.2]
    congr 1
    exact Int.tdiv_mul_cancel h.1

/-! ## Seconds of a week -/

theorem secondsWhere_empty (p : Int → Bool) {first last : Int} (h : last ≤ first) :
    secondsWhere p first last = 0 := by
  unfold secondsWhere
  rw [Int.toNat_of_nonpos (by omega)]
  rfl

theorem secondsWhere_add (p : Int → Bool) {first middle last : Int} (hfirst : first ≤ middle)
    (hlast : middle ≤ last) :
    secondsWhere p first middle + secondsWhere p middle last = secondsWhere p first last := by
  unfold secondsWhere
  have hlength : (last - first).toNat = (middle - first).toNat + (last - middle).toNat := by omega
  have hmiddle : ∀ n : Nat, first + (((middle - first).toNat + n : Nat) : Int) = middle + n := by omega
  rw [hlength, List.range_add, List.countP_append, List.countP_map, Nat.cast_add]
  simp only [Function.comp_def, hmiddle]

/-- All seconds satisfy the test, or none. -/
theorem secondsWhere_const {p : Int → Bool} {q : Bool} {first last : Int} (hle : first ≤ last)
    (h : ∀ k, first ≤ k → k < last → p k = q) :
    secondsWhere p first last = if q then last - first else 0 := by
  have hall : ∀ n ∈ List.range (last - first).toNat, p (first + n) = q := by
    intro n hn
    rw [List.mem_range] at hn
    exact h _ (by omega) (by omega)
  unfold secondsWhere
  cases q with
  | true =>
    rw [List.countP_eq_length.mpr hall, List.length_range]
    exact Int.toNat_of_nonneg (by omega)
  | false =>
    rw [List.countP_eq_zero.mpr fun n hn => by simp [hall n hn]]
    rfl

/-- **The slices of a week hold the seconds whose local date lies in it**, where every slice attributes its own. -/
theorem sum_daySlices_week {zone : ZoneInfo} {weekStartsOn : Int} (week : Int) {cursor localEnd : LocalTime}
    (h : cursor.wall < localEnd.wall ∨ cursor = localEnd) (hstart : 1000000 ∣ zone.toutc cursor)
    (hend : 1000000 ∣ zone.toutc localEnd)
    (hattributes : ∀ slice ∈ daySlices (localDays cursor localEnd) cursor localEnd,
      slice.Attributes zone weekStartsOn) :
    zone.toutc cursor ≤ zone.toutc localEnd ∧
      ((daySlices (localDays cursor localEnd) cursor localEnd).map fun slice =>
        if slice.week weekStartsOn = week then slice.seconds zone else 0).sum =
        secondsWhere (fallsIn zone weekStartsOn week) (zone.toutc cursor / 1000000)
          (zone.toutc localEnd / 1000000) := by
  refine daySlices_rule
    (P := fun cursor slices => 1000000 ∣ zone.toutc cursor →
      (∀ slice ∈ slices, slice.Attributes zone weekStartsOn) →
      zone.toutc cursor ≤ zone.toutc localEnd ∧
      (slices.map fun slice => if slice.week weekStartsOn = week then slice.seconds zone else 0).sum =
        secondsWhere (fallsIn zone weekStartsOn week) (zone.toutc cursor / 1000000)
          (zone.toutc localEnd / 1000000)) ?_ ?_ _ cursor le_rfl h hstart hattributes
  · intro _ _
    exact ⟨le_rfl, (secondsWhere_empty _ le_rfl).symm⟩
  · intro cursor rest _ ih hcursor hslices
    rw [List.forall_mem_cons] at hslices
    obtain ⟨hforward, hweek⟩ := hslices.1
    dsimp only at hforward hweek
    have hboundary : 1000000 ∣ zone.toutc (dayBoundary cursor localEnd) := by
      rcases dayBoundary_cases cursor localEnd with ⟨_, hboundary⟩ | ⟨_, hboundary⟩
      · rw [hboundary]
        exact toutc_localMidnight_whole _
      · rw [hboundary]
        exact hend
    obtain ⟨hle, hsum⟩ := ih hboundary hslices.2
    refine ⟨hforward.trans hle, ?_⟩
    have hslice : (⟨cursor, dayBoundary cursor localEnd⟩ : DaySlice).seconds zone =
        zone.toutc (dayBoundary cursor localEnd) / 1000000 - zone.toutc cursor / 1000000 := by
      have hcancel := Int.tdiv_mul_cancel (Int.dvd_sub hboundary hcursor)
      show (zone.toutc (dayBoundary cursor localEnd) - zone.toutc cursor).tdiv 1000000 = _
      omega
    have hconst : secondsWhere (fallsIn zone weekStartsOn week) (zone.toutc cursor / 1000000)
        (zone.toutc (dayBoundary cursor localEnd) / 1000000) =
        if decide ((⟨cursor, dayBoundary cursor localEnd⟩ : DaySlice).week weekStartsOn = week) then
          zone.toutc (dayBoundary cursor localEnd) / 1000000 - zone.toutc cursor / 1000000 else 0 := by
      refine secondsWhere_const (by omega) fun k hge hlt => ?_
      unfold fallsIn
      rw [hweek k (by unfold seconds; omega) (by unfold seconds; omega)]
    rw [List.map_cons, List.sum_cons, hsum,
      ← secondsWhere_add _ (Int.ediv_le_ediv (by decide) hforward) (Int.ediv_le_ediv (by decide) hle),
      hconst, hslice]
    simp only [decide_eq_true_eq]

/-! ## The clipped intervals -/

section

variable {zone : ZoneInfo} {weekStartsOn : Int} {lower upper : LocalTime}

theorem Stamp.toutc_astimezone (zone : ZoneInfo) (s : Stamp) :
    zone.toutc (s.astimezone zone) = s.instant zone := by
  cases s with
  | utc t => exact zone.toutc_fromutc t
  | zoned l => rfl

theorem Stamp.lt_utc_left {zone : ZoneInfo} {t : Int} {b : Stamp} :
    Stamp.lt zone (.utc t) b = true ↔ t < b.instant zone := by
  cases b <;> exact decide_eq_true_iff

theorem Stamp.lt_utc_right {zone : ZoneInfo} {a : Stamp} {t : Int} :
    Stamp.lt zone a (.utc t) = true ↔ a.instant zone < t := by
  cases a <;> exact decide_eq_true_iff

theorem Stamp.lt_zoned {zone : ZoneInfo} {a b : LocalTime} :
    Stamp.lt zone (.zoned a) (.zoned b) = true ↔ a.wall < b.wall := decide_eq_true_iff

/-- Two datetimes in order are in order as instants, or on the wall. -/
theorem Stamp.lt_cases {a b : Stamp} (h : a.lt zone b = true) :
    a.instant zone < b.instant zone ∨ (a.astimezone zone).wall < (b.astimezone zone).wall := by
  cases a with
  | utc t => exact .inl (Stamp.lt_utc_left.mp h)
  | zoned l =>
    cases b with
    | utc t => exact .inl (Stamp.lt_utc_right.mp h)
    | zoned u => exact .inr (Stamp.lt_zoned.mp h)

/-- A clipped start is the row's own or the period's. -/
theorem clipRow_start (zone : ZoneInfo) (lower upper : LocalTime) (row : Int × Int) :
    (row.1 < zone.toutc lower ∧ (clipRow zone lower upper row).1 = .zoned lower) ∨
      (zone.toutc lower ≤ row.1 ∧ (clipRow zone lower upper row).1 = .utc row.1) := by
  by_cases h : row.1 < zone.toutc lower
  · exact .inl ⟨h, if_pos (Stamp.lt_utc_left.mpr h)⟩
  · exact .inr ⟨not_lt.mp h, if_neg (mt Stamp.lt_utc_left.mp h)⟩

/-- A clipped end is the row's own or the period's. -/
theorem clipRow_end (zone : ZoneInfo) (lower upper : LocalTime) (row : Int × Int) :
    (zone.toutc upper < row.2 ∧ (clipRow zone lower upper row).2 = .zoned upper) ∨
      (row.2 ≤ zone.toutc upper ∧ (clipRow zone lower upper row).2 = .utc row.2) := by
  by_cases h : zone.toutc upper < row.2
  · exact .inl ⟨h, if_pos (Stamp.lt_utc_right.mpr h)⟩
  · exact .inr ⟨not_lt.mp h, if_neg (mt Stamp.lt_utc_right.mp h)⟩

theorem clipRow_instants (zone : ZoneInfo) (lower upper : LocalTime) (row : Int × Int) :
    (clipRow zone lower upper row).1.instant zone = max row.1 (zone.toutc lower) ∧
      (clipRow zone lower upper row).2.instant zone = min row.2 (zone.toutc upper) := by
  constructor
  · rcases clipRow_start zone lower upper row with ⟨h, heq⟩ | ⟨h, heq⟩
    · rw [heq, max_eq_right h.le]
      rfl
    · rw [heq, max_eq_left h]
      rfl
  · rcases clipRow_end zone lower upper row with ⟨h, heq⟩ | ⟨h, heq⟩
    · rw [heq, min_eq_right h.le]
      rfl
    · rw [heq, min_eq_left h]
      rfl

/-- The interval of a row is dropped only when it has no time. -/
theorem clipRow_dropped (hperiod : lower.wall < upper.wall) {row : Int × Int}
    (h : ¬ (clipRow zone lower upper row).1.lt zone (clipRow zone lower upper row).2 = true) :
    min row.2 (zone.toutc upper) ≤ max row.1 (zone.toutc lower) := by
  obtain ⟨hstart, hend⟩ := clipRow_instants zone lower upper row
  rw [← hstart, ← hend]
  rcases clipRow_start zone lower upper row with ⟨_, hs⟩ | ⟨_, hs⟩
  · rcases clipRow_end zone lower upper row with ⟨_, he⟩ | ⟨_, he⟩
    · rw [hs, he, Stamp.lt_zoned] at h
      exact absurd hperiod h
    · rw [he, Stamp.lt_utc_right] at h
      rw [he]
      exact not_lt.mp h
  · rw [hs, Stamp.lt_utc_left] at h
    rw [hs]
    exact not_lt.mp h

/-- Two rows share no time; a row without time shares none with any. -/
def RowsApart (a b : Int × Int) : Prop := a.2 ≤ b.1 ∨ b.2 ≤ a.1 ∨ a.2 ≤ a.1 ∨ b.2 ≤ b.1

instance (a b : Int × Int) : Decidable (RowsApart a b) := by
  unfold RowsApart
  infer_instance

theorem RowsApart.symm {a b : Int × Int} (h : RowsApart a b) : RowsApart b a := by
  unfold RowsApart at *
  omega

/-- A row whose interval has time has time itself. -/
theorem clipRow_some {a : Int × Int} (ha : a.1 < zone.toutc upper ∧ zone.toutc lower < a.2)
    (hsome : (clipRow zone lower upper a).1.lt zone (clipRow zone lower upper a).2 = true) :
    a.1 < a.2 := by
  rcases clipRow_start zone lower upper a with ⟨h1, hs⟩ | ⟨h1, hs⟩
  · omega
  · rw [hs, Stamp.lt_utc_left, (clipRow_instants zone lower upper a).2] at hsome
    omega

/-- A row that starts later, apart from another, starts after the other has ended, also once both are
clipped. -/
theorem clipRow_not_lt {a b : Int × Int} (hapart : RowsApart a b) (horder : a.1 ≤ b.1)
    (ha : a.1 < zone.toutc upper ∧ zone.toutc lower < a.2)
    (hb : b.1 < zone.toutc upper ∧ zone.toutc lower < b.2)
    (hsome : (clipRow zone lower upper a).1.lt zone (clipRow zone lower upper a).2 = true)
    (hsome' : (clipRow zone lower upper b).1.lt zone (clipRow zone lower upper b).2 = true) :
    ¬ (clipRow zone lower upper b).1.lt zone (clipRow zone lower upper a).2 = true := by
  have hbefore : a.2 ≤ b.1 := by
    have hsomeA : a.1 < a.2 := clipRow_some ha hsome
    have hsomeB : b.1 < b.2 := clipRow_some hb hsome'
    unfold RowsApart at hapart
    omega
  intro hlt
  obtain ⟨hstart, _⟩ := clipRow_instants zone lower upper b
  obtain ⟨_, hend⟩ := clipRow_instants zone lower upper a
  rcases clipRow_start zone lower upper b with ⟨hb1, hs⟩ | ⟨hb1, hs⟩
  · rcases clipRow_end zone lower upper a with ⟨ha2, he⟩ | ⟨ha2, he⟩
    · omega
    · rw [he, Stamp.lt_utc_right, hstart] at hlt
      omega
  · rw [hs, Stamp.lt_utc_left, hend] at hlt
    omega

/-- **Rows in order and apart are not refused**; the intervals are those of the rows with time. -/
theorem payrollIntervals_eq {rows : List (Int × Int)} (horder : rows.Pairwise fun a b => a.1 ≤ b.1)
    (hapart : rows.Pairwise RowsApart)
    (hin : ∀ row ∈ rows, row.1 < zone.toutc upper ∧ zone.toutc lower < row.2) (last : Option Stamp)
    (hlast : ∀ l ∈ last, ∀ row ∈ rows,
      (clipRow zone lower upper row).1.lt zone (clipRow zone lower upper row).2 = true →
      ¬ (clipRow zone lower upper row).1.lt zone l = true) :
    payrollIntervals zone lower upper rows last =
      .ok ((rows.map (clipRow zone lower upper)).filter fun i => i.1.lt zone i.2) := by
  induction rows generalizing last with
  | nil => rfl
  | cons row rows ih =>
    rw [List.pairwise_cons] at horder hapart
    rw [List.forall_mem_cons] at hin
    have hrest : ∀ l ∈ last, ∀ r ∈ rows,
        (clipRow zone lower upper r).1.lt zone (clipRow zone lower upper r).2 = true →
        ¬ (clipRow zone lower upper r).1.lt zone l = true :=
      fun l hl r hr => hlast l hl r (List.mem_cons_of_mem _ hr)
    unfold payrollIntervals
    simp only [List.map_cons]
    by_cases hsome : (clipRow zone lower upper row).1.lt zone (clipRow zone lower upper row).2 = true
    · have hnot : ¬ ((last.any fun last => (clipRow zone lower upper row).1.lt zone last) = true) := by
        rw [Option.any_eq_true]
        rintro ⟨l, hl, hlt⟩
        exact hlast l hl row List.mem_cons_self hsome hlt
      have hih := ih horder.2 hapart.2 hin.2 (some (clipRow zone lower upper row).2) (by
        rintro l ⟨⟩ r hr hr'
        exact clipRow_not_lt (hapart.1 r hr) (horder.1 r hr) hin.1 (hin.2 r hr) hsome hr')
      rw [if_neg (by simp [hsome]), List.filter_cons_of_pos (by simpa using hsome), hih]
      refine Library.bind_eq_ok.mpr ⟨(), raiseIf_eq_ok.mpr hnot, rfl⟩
    · rw [if_pos (by simpa using hsome), List.filter_cons_of_neg (by simpa using hsome)]
      exact ih horder.2 hapart.2 hin.2 last hrest

/-! ## One interval -/

/-- What an interval adds: its elapsed time if it is entered, and else nothing. -/
theorem sum_intervalSlices (interval : Stamp × Stamp) :
    ((intervalSlices zone interval).map (DaySlice.elapsed zone)).sum =
      if (interval.1.astimezone zone).wall < (interval.2.astimezone zone).wall then
        interval.2.instant zone - interval.1.instant zone
      else 0 := by
  by_cases henters : (interval.1.astimezone zone).wall < (interval.2.astimezone zone).wall
  · rw [if_pos henters, ← Stamp.toutc_astimezone, ← Stamp.toutc_astimezone]
    exact sum_daySlices (.inl henters)
  · rw [if_neg henters, intervalSlices_eq_nil henters]
    rfl

/-- An interval adds at most its elapsed time, and less when it is not entered. -/
theorem sum_intervalSlices_le {interval : Stamp × Stamp}
    (hsome : interval.1.lt zone interval.2 = true) :
    ((intervalSlices zone interval).map (DaySlice.elapsed zone)).sum ≤
        max 0 (interval.2.instant zone - interval.1.instant zone) ∧
      (¬ (interval.1.astimezone zone).wall < (interval.2.astimezone zone).wall →
        ((intervalSlices zone interval).map (DaySlice.elapsed zone)).sum <
          max 0 (interval.2.instant zone - interval.1.instant zone)) := by
  rw [sum_intervalSlices]
  rcases Stamp.lt_cases hsome with hinstants | henters
  · constructor
    · split <;> omega
    · intro hnot
      rw [if_neg hnot]
      omega
  · rw [if_pos henters]
    exact ⟨le_max_right _ _, fun hnot => absurd henters hnot⟩

/-- An interval that runs forward adds its elapsed time. -/
theorem RunsForward.sum_eq {interval : Stamp × Stamp} (h : RunsForward zone weekStartsOn interval) :
    ((intervalSlices zone interval).map (DaySlice.elapsed zone)).sum =
      max 0 (interval.2.instant zone - interval.1.instant zone) := by
  have hforward := h.midnights.forward h.enters.le
  rw [Stamp.toutc_astimezone, Stamp.toutc_astimezone] at hforward
  rw [sum_intervalSlices, if_pos h.enters]
  omega

theorem RunsForward.attributes {interval : Stamp × Stamp}
    (h : RunsForward zone weekStartsOn interval) :
    ∀ slice ∈ intervalSlices zone interval, slice.Attributes zone weekStartsOn :=
  (slices_attribute_iff (.inl h.enters)).mpr h.midnights

/-- An interval that runs forward puts its seconds into the weeks of their local dates. -/
theorem RunsForward.sum_week {interval : Stamp × Stamp} (h : RunsForward zone weekStartsOn interval)
    (hstart : 1000000 ∣ interval.1.instant zone) (hend : 1000000 ∣ interval.2.instant zone) (week : Int) :
    ((intervalSlices zone interval).map fun slice =>
        if slice.week weekStartsOn = week then slice.seconds zone else 0).sum =
      secondsWhere (fallsIn zone weekStartsOn week) (interval.1.instant zone / 1000000)
        (interval.2.instant zone / 1000000) := by
  rw [← Stamp.toutc_astimezone] at hstart hend
  rw [← Stamp.toutc_astimezone, ← Stamp.toutc_astimezone]
  exact (sum_daySlices_week week (.inl h.enters) hstart hend h.attributes).2

/-- **Intervals conserve their time exactly when they run forward.** -/
theorem intervals_conserve_iff {intervals : List (Stamp × Stamp)}
    (hsome : ∀ interval ∈ intervals, interval.1.lt zone interval.2 = true) :
    ((intervals.map fun i => ((intervalSlices zone i).map (DaySlice.elapsed zone)).sum).sum =
        (intervals.map fun i => max 0 (i.2.instant zone - i.1.instant zone)).sum ∧
      ∀ interval ∈ intervals, ∀ slice ∈ intervalSlices zone interval,
        slice.Attributes zone weekStartsOn) ↔
    ∀ interval ∈ intervals, RunsForward zone weekStartsOn interval := by
  constructor
  · rintro ⟨hsum, hattributes⟩ interval hinterval
    have henters : (interval.1.astimezone zone).wall < (interval.2.astimezone zone).wall := by
      by_contra hnot
      have hlt := List.sum_lt_sum
        (fun i => ((intervalSlices zone i).map (DaySlice.elapsed zone)).sum)
        (fun i => max 0 (i.2.instant zone - i.1.instant zone))
        (fun i hi => (sum_intervalSlices_le (hsome i hi)).1)
        ⟨interval, hinterval, (sum_intervalSlices_le (hsome interval hinterval)).2 hnot⟩
      exact absurd hsum hlt.ne
    exact ⟨henters, (slices_attribute_iff (.inl henters)).mp (hattributes interval hinterval)⟩
  · intro h
    refine ⟨congrArg List.sum (List.map_congr_left fun i hi => (h i hi).sum_eq), ?_⟩
    exact fun i hi => (h i hi).attributes

/-! ## The whole period -/

/-- A measure of the rows' parts is that of their intervals: what clipping drops has none. -/
theorem sum_clipped_rows (f : Int → Int → Int) (hf : ∀ a b, b ≤ a → f a b = 0)
    (hperiod : lower.wall < upper.wall) (rows : List (Int × Int)) :
    (rows.map fun row => f (max row.1 (zone.toutc lower)) (min row.2 (zone.toutc upper))).sum =
      (((rows.map (clipRow zone lower upper)).filter fun i => i.1.lt zone i.2).map
        fun i => f (i.1.instant zone) (i.2.instant zone)).sum := by
  induction rows with
  | nil => rfl
  | cons row rows ih =>
    obtain ⟨hstart, hend⟩ := clipRow_instants zone lower upper row
    rw [List.map_cons, List.map_cons, List.sum_cons, ih]
    by_cases hsome : (clipRow zone lower upper row).1.lt zone (clipRow zone lower upper row).2 = true
    · rw [List.filter_cons_of_pos (by simpa using hsome), List.map_cons, List.sum_cons, hstart, hend]
    · rw [List.filter_cons_of_neg (by simpa using hsome), hf _ _ (clipRow_dropped hperiod hsome)]
      exact zero_add _

/-- The rows the query leaves out have no time in the period. -/
theorem sum_clipped_payrollRows (f : Int → Int → Int) (hf : ∀ a b, b ≤ a → f a b = 0) (db : Database)
    (userId : Nat) (lower upper : Int) :
    ((paidTime db userId).map fun row => f (max row.1 lower) (min row.2 upper)).sum =
      ((payrollRows db userId lower upper).map fun row => f (max row.1 lower) (min row.2 upper)).sum := by
  unfold payrollRows
  rw [((List.perm_insertionSort _ _).map _).sum_eq, Library.sum_filter]
  refine congrArg List.sum (List.map_congr_left fun row _ => ?_)
  by_cases hin : (row.1 < upper && lower < row.2) = true
  · rw [if_pos hin]
  · rw [if_neg hin]
    rw [Bool.and_eq_true, decide_eq_true_eq, decide_eq_true_eq] at hin
    by_cases htime : min row.2 upper ≤ max row.1 lower
    · exact hf _ _ htime
    · omega

theorem mem_payrollRows {db : Database} {userId : Nat} {lower upper : Int} {row : Int × Int} :
    row ∈ payrollRows db userId lower upper ↔
      row ∈ paidTime db userId ∧ row.1 < upper ∧ lower < row.2 := by
  unfold payrollRows
  rw [List.mem_insertionSort, List.mem_filter, Bool.and_eq_true, decide_eq_true_eq,
    decide_eq_true_eq]

theorem payrollRows_spec {db : Database} {userId : Nat} {lower upper : Int}
    (hapart : ((paidTime db userId).filter fun row => row.1 < upper && lower < row.2).Pairwise
      RowsApart) :
    (payrollRows db userId lower upper).Pairwise (fun a b => a.1 ≤ b.1) ∧
      (payrollRows db userId lower upper).Pairwise RowsApart ∧
      ∀ row ∈ payrollRows db userId lower upper,
        row ∈ paidTime db userId ∧ row.1 < upper ∧ lower < row.2 := by
  refine ⟨?_, ?_, fun row hrow => mem_payrollRows.mp hrow⟩
  · have htotal : Std.Total fun a b : Int × Int => a.1 ≤ b.1 := ⟨fun a b => le_total a.1 b.1⟩
    have htrans : IsTrans (Int × Int) fun a b => a.1 ≤ b.1 := ⟨fun _ _ _ hab hbc => hab.trans hbc⟩
    exact List.pairwise_insertionSort _ _
  · exact ((List.perm_insertionSort _ _).pairwise_iff fun h => h.symm).mpr hapart

end

section

variable {zone : ZoneInfo} {lower upper : LocalTime}

theorem dvd_max {n a b : Int} (ha : n ∣ a) (hb : n ∣ b) : n ∣ max a b := by
  rcases max_choice a b with h | h <;> rw [h] <;> assumption

theorem dvd_min {n a b : Int} (ha : n ∣ a) (hb : n ∣ b) : n ∣ min a b := by
  rcases min_choice a b with h | h <;> rw [h] <;> assumption

/-- The slices of a clipped row are whole seconds when the row and the period are. -/
theorem intervalSlices_whole {row : Int × Int} (hrow : 1000000 ∣ row.1 ∧ 1000000 ∣ row.2)
    (hlower : 1000000 ∣ zone.toutc lower) (hupper : 1000000 ∣ zone.toutc upper) :
    ∀ slice ∈ intervalSlices zone (clipRow zone lower upper row),
      1000000 ∣ slice.elapsed zone := by
  obtain ⟨hstart, hend⟩ := clipRow_instants zone lower upper row
  by_cases henters : ((clipRow zone lower upper row).1.astimezone zone).wall <
      ((clipRow zone lower upper row).2.astimezone zone).wall
  · refine daySlices_whole (.inl henters) ?_ ?_
    · rw [Stamp.toutc_astimezone, hstart]
      exact dvd_max hrow.1 hlower
    · rw [Stamp.toutc_astimezone, hend]
      exact dvd_min hrow.2 hupper
  · rw [intervalSlices_eq_nil henters]
    intro slice hslice
    cases hslice

/-- The elapsed seconds of rows with whole ends, in microseconds. -/
theorem sum_elapsedSeconds {lower upper : Int} (hlower : 1000000 ∣ lower) (hupper : 1000000 ∣ upper)
    {rows : List (Int × Int)} (hwhole : ∀ row ∈ rows, 1000000 ∣ row.1 ∧ 1000000 ∣ row.2) :
    (rows.map (elapsedSeconds lower upper)).sum * 1000000 =
      (rows.map fun row => max 0 (min row.2 upper - max row.1 lower)).sum := by
  induction rows with
  | nil => rfl
  | cons row rows ih =>
    rw [List.forall_mem_cons] at hwhole
    rw [List.map_cons, List.map_cons, List.sum_cons, List.sum_cons, Int.add_mul, ih hwhole.2]
    congr 1
    refine Int.ediv_mul_cancel (dvd_max (dvd_zero _) (Int.dvd_sub ?_ ?_))
    · exact dvd_min hwhole.1.2 hupper
    · exact dvd_max hwhole.1.1 hlower

end

/-- **Payroll conserves time exactly when the local clock runs forward.** For every zone, every week
start and every pay period, and for intervals with whole-second ends that share no time, the values of
`week_seconds` add up to the elapsed seconds of the intervals in the period, and hold for every week those
whose local date lies in it, if and only if the local clock runs forward through every interval's part in
the period. -/
theorem payroll_conserves_iff (zone : ZoneInfo) (weekStartsOn : Int) (db : Database) (userId : Nat)
    (periodStart periodEnd : Int) (hperiod : periodStart ≤ periodEnd)
    (hdays : periodEnd - periodStart ≤ 31) (hapart : (paidTime db userId).Pairwise RowsApart)
    (hwhole : ∀ row ∈ paidTime db userId, 1000000 ∣ row.1 ∧ 1000000 ∣ row.2) :
    ∃ intervals weeks, periodIntervals zone db userId periodStart periodEnd = .ok intervals ∧
      payrollWeekSeconds zone weekStartsOn db userId periodStart periodEnd = .ok weeks ∧
      (ConservesTime zone weekStartsOn (zone.toutc (localMidnight periodStart))
          (zone.toutc (localMidnight (periodEnd + 1))) (paidTime db userId) intervals weeks ↔
      ∀ row ∈ paidTime db userId, RowRunsForward zone weekStartsOn (localMidnight periodStart)
        (localMidnight (periodEnd + 1)) row) := by
  obtain ⟨lower, hlower⟩ : ∃ lower, lower = localMidnight periodStart := ⟨_, rfl⟩
  obtain ⟨upper, hupper⟩ : ∃ upper, upper = localMidnight (periodEnd + 1) := ⟨_, rfl⟩
  rw [← hlower, ← hupper]
  have hwall : lower.wall < upper.wall := by
    rw [hlower, hupper]
    exact startOfDay_lt_startOfDay.mpr (Int.lt_add_one_of_le hperiod)
  have hlowerWhole : 1000000 ∣ zone.toutc lower := hlower ▸ toutc_localMidnight_whole _
  have hupperWhole : 1000000 ∣ zone.toutc upper := hupper ▸ toutc_localMidnight_whole _
  obtain ⟨horder, hapart', hin⟩ :=
    payrollRows_spec (hapart.filter fun row => row.1 < zone.toutc upper && zone.toutc lower < row.2)
  obtain ⟨intervals, hintervals⟩ : ∃ intervals, intervals =
      ((payrollRows db userId (zone.toutc lower) (zone.toutc upper)).map
        (clipRow zone lower upper)).filter fun i => i.1.lt zone i.2 := ⟨_, rfl⟩
  have hok : periodIntervals zone db userId periodStart periodEnd = .ok intervals := by
    unfold periodIntervals
    rw [← hlower, ← hupper, hintervals]
    exact payrollIntervals_eq horder hapart' (fun row hrow => (hin row hrow).2) none
      fun l hl => nomatch hl
  have hsome : ∀ i ∈ intervals, i.1.lt zone i.2 = true := by
    intro i hi
    rw [hintervals] at hi
    exact (List.mem_filter.mp hi).2
  refine ⟨intervals, weekSeconds zone weekStartsOn (intervals.flatMap (intervalSlices zone)), hok,
    ?_, ?_⟩
  · refine Library.bind_eq_ok.mpr ⟨(), raiseIf_eq_ok.mpr (not_lt.mpr hperiod), ?_⟩
    refine Library.bind_eq_ok.mpr ⟨(), raiseIf_eq_ok.mpr (not_lt.mpr hdays), ?_⟩
    exact Library.bind_eq_ok.mpr ⟨intervals, hok, rfl⟩
  -- both sums are compared in microseconds
  have hslices : ((weekSeconds zone weekStartsOn
        (intervals.flatMap (intervalSlices zone))).map (·.2)).sum * 1000000 =
      (intervals.map fun i => ((intervalSlices zone i).map (DaySlice.elapsed zone)).sum).sum := by
    rw [sum_weekSeconds, sum_seconds, List.map_flatMap, List.flatMap_def, List.sum_flatten,
      List.map_map]
    · rfl
    · intro slice hslice
      obtain ⟨i, hi, hslice⟩ := List.mem_flatMap.mp hslice
      rw [hintervals] at hi
      obtain ⟨row, hrow, rfl⟩ := List.mem_map.mp (List.mem_filter.mp hi).1
      exact intervalSlices_whole (hwhole row (hin row hrow).1) hlowerWhole hupperWhole slice hslice
  have htimeless : ∀ a b : Int, b ≤ a → max 0 (b - a) = 0 := by omega
  have helapsed : ((paidTime db userId).map
        (elapsedSeconds (zone.toutc lower) (zone.toutc upper))).sum * 1000000 =
      (intervals.map fun i => max 0 (i.2.instant zone - i.1.instant zone)).sum := by
    rw [sum_elapsedSeconds hlowerWhole hupperWhole hwhole, hintervals,
      sum_clipped_payrollRows (fun a b => max 0 (b - a)) htimeless,
      sum_clipped_rows (fun a b => max 0 (b - a)) htimeless hwall]
  have hrows : (∀ row ∈ paidTime db userId, RowRunsForward zone weekStartsOn lower upper row) ↔
      ∀ interval ∈ intervals, RunsForward zone weekStartsOn interval := by
    rw [hintervals]
    constructor
    · intro hforward interval hinterval
      obtain ⟨hmem, hlt⟩ := List.mem_filter.mp hinterval
      obtain ⟨row, hrow, rfl⟩ := List.mem_map.mp hmem
      obtain ⟨hpaid, hstarts, hends⟩ := hin row hrow
      exact hforward row hpaid hstarts hends hlt
    · intro hforward row hpaid hstarts hends hlt
      refine hforward _ (List.mem_filter.mpr ⟨List.mem_map.mpr ⟨row, ?_, rfl⟩, hlt⟩)
      exact mem_payrollRows.mpr ⟨hpaid, hstarts, hends⟩
  have hconserve : _ ↔ ∀ interval ∈ intervals, RunsForward zone weekStartsOn interval :=
    intervals_conserve_iff hsome
  rw [← hslices, ← helapsed] at hconserve
  rw [hrows]
  constructor
  · rintro ⟨htotal, _, hattributes⟩
    exact hconserve.mp ⟨congrArg (· * 1000000) htotal, hattributes⟩
  · intro hforward
    obtain ⟨htotal, hattributes⟩ := hconserve.mpr hforward
    refine ⟨by omega, fun week => ?_, hattributes⟩
    have hempty : ∀ a b : Int, b ≤ a →
        secondsWhere (fallsIn zone weekStartsOn week) (a / 1000000) (b / 1000000) = 0 :=
      fun a b hle => secondsWhere_empty _ (by omega)
    have hlocal := (sum_clipped_payrollRows _ hempty db userId (zone.toutc lower) (zone.toutc upper)).trans
      (sum_clipped_rows _ hempty hwall _)
    rw [← hintervals] at hlocal
    rw [weekTotal_weekSeconds, List.map_flatMap, List.flatMap_def, List.sum_flatten, List.map_map]
    refine Eq.trans (congrArg List.sum (List.map_congr_left fun interval hinterval => ?_)) hlocal.symm
    rw [hintervals] at hinterval
    obtain ⟨row, hrow, rfl⟩ := List.mem_map.mp (List.mem_filter.mp hinterval).1
    obtain ⟨hstart, hend⟩ := clipRow_instants zone lower upper row
    have hrowWhole := hwhole row (hin row hrow).1
    refine (hforward _ (hintervals ▸ hinterval)).sum_week ?_ ?_ week
    · rw [hstart]
      exact dvd_max hrowWhole.1 hlowerWhole
    · rw [hend]
      exact dvd_min hrowWhole.2 hupperWhole

/-! ## The repeated hour -/

/-- New York around 2026-11-01T06:00:00Z, when daylight saving time ends. -/
def newYork : ZoneInfo :=
  Zone.ofTransition (startOfDay 20758 + minutes 360) (-(minutes 240)) (-(minutes 300))
    ⟨-14400, by decide⟩ ⟨-18000, by decide⟩

/-- A member's night shift over the end of daylight saving time, and an approved entry of the day
before. -/
def nightShift : Database where
  workSessions :=
    [⟨1, some 1, 1, some 1, none, .stopped, "", startOfDay 20758 + minutes 120,
      some (startOfDay 20758 + minutes 480), 0, 0⟩]
  segments :=
    [⟨1, 1, startOfDay 20758 + minutes 120, some (startOfDay 20758 + minutes 480)⟩]
  manualTimeEntries :=
    [⟨1, 1, 1, none, startOfDay 20757 + minutes 720, startOfDay 20757 + minutes 750, "", .approved⟩]

theorem payroll_conserves_iff_newYork :
    ∃ intervals weeks, periodIntervals newYork nightShift 1 20752 20758 = .ok intervals ∧
      payrollWeekSeconds newYork 0 nightShift 1 20752 20758 = .ok weeks ∧
      (ConservesTime newYork 0 (newYork.toutc (localMidnight 20752))
          (newYork.toutc (localMidnight (20758 + 1))) (paidTime nightShift 1) intervals weeks ↔
      ∀ row ∈ paidTime nightShift 1,
        RowRunsForward newYork 0 (localMidnight 20752) (localMidnight (20758 + 1)) row) :=
  payroll_conserves_iff newYork 0 nightShift 1 20752 20758 (by decide) (by decide)
    (by decide +kernel) (by decide +kernel)

example : payrollWeekSeconds newYork 0 nightShift 1 20752 20758 =
    .ok [(20751, 1800 + 7200), (20758, 14400)] := by decide +kernel

/-- A stretch from the first pass of the repeated hour into the second one, and an hour of the
afternoon. -/
def repeatedHour : Database where
  workSessions :=
    [⟨1, some 1, 1, some 1, none, .stopped, "", startOfDay 20758 + minutes 330,
      some (startOfDay 20758 + minutes 960), 0, 0⟩]
  segments :=
    [⟨1, 1, startOfDay 20758 + minutes 330, some (startOfDay 20758 + minutes 370)⟩,
      ⟨2, 1, startOfDay 20758 + minutes 900, some (startOfDay 20758 + minutes 960)⟩]

/-- **Payroll does not conserve time.** Of the forty minutes from 01:30 to 01:10 of the repeated hour
and the hour of the afternoon, only the hour is counted. -/
theorem payroll_losesTime :
    ¬ ∀ (zone : ZoneInfo) (weekStartsOn : Int) (db : Database) (userId : Nat)
      (periodStart periodEnd : Int), periodStart ≤ periodEnd → periodEnd - periodStart ≤ 31 →
      (paidTime db userId).Pairwise RowsApart →
      (∀ row ∈ paidTime db userId, 1000000 ∣ row.1 ∧ 1000000 ∣ row.2) →
      ∀ weeks, payrollWeekSeconds zone weekStartsOn db userId periodStart periodEnd = .ok weeks →
        (weeks.map (·.2)).sum = ((paidTime db userId).map
          (elapsedSeconds (zone.toutc (localMidnight periodStart))
            (zone.toutc (localMidnight (periodEnd + 1))))).sum := by
  intro h
  have hpaid := h newYork 1 repeatedHour 1 20752 20758 (by decide) (by decide)
    (by decide +kernel) (by decide +kernel) [(20752, 3600)] (by decide +kernel)
  exact absurd hpaid (by decide +kernel)

end Dayfinch
