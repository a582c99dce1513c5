/-
# Dayfinch.Reports.NextDelivery -- the next delivery of a report, in the datetimes Python has

Python's datetimes end with the year 9999, and `next_report_delivery` builds its answer out of them: a
date or a datetime after that raises. `nextReportDelivery?` is the function with these errors, `none`
standing for the exception, and `IsReportSlot` says in the words of the calendar when a report is due.
On the slots the function computes the recurrence's `next`, as `nextReportDelivery` does; the year 9999
only cuts it off, and what is cut off stays cut off, since the slots only grow.
-/
import Dayfinch.Reports.Schedule

namespace Dayfinch

open Library (Recurrence)
open Library.Calendar

/-! ## The datetimes Python has -/

/-- A date, where there is one. -/
def pythonDate (d : Int) : Option Int := if InDateRange d then some d else none

/-- A datetime in UTC, where there is one. -/
def pythonDatetime (t : Int) : Option Int := if InDatetimeRange t then some t else none

/-- `after.replace(tzinfo=UTC) if after.tzinfo is None else after.astimezone(UTC)`. -/
def Datetime.observed (after : Datetime) : Option Int :=
  match after.utcoffset with
  | none => some after.wall
  | some offset => pythonDatetime (after.wall - offset)

/-- `next_report_delivery(after, frequency, delivery_time, ..)`. -/
def nextReportDelivery? (after : Datetime) (schedule : ReportSchedule) : Option Int := do
  let observed ← after.observed
  match schedule.frequency with
  | .daily =>
    let candidate := atClock (dateOf observed) schedule.clock
    if observed < candidate then some candidate else pythonDatetime (candidate + days 1)
  | .weekly =>
    let daysAhead := ((schedule.weekday : Nat) - weekday (dateOf observed)) % 7
    let date ← pythonDate (dateOf observed + daysAhead)
    let candidate := atClock date schedule.clock
    if observed < candidate then some candidate else pythonDatetime (candidate + days 7)
  | .monthly =>
    let month := monthOf (dateOf observed)
    let candidate :=
      atClock (monthStart month + (monthlyDate month schedule.monthDay - 1)) schedule.clock
    if observed < candidate then some candidate
    else
      let date ← pythonDate (monthStart (month + 1) + (monthlyDate (month + 1) schedule.monthDay - 1))
      some (atClock date schedule.clock)

/-- The deliveries that follow each other from an instant on. -/
def reportDeliveries (after : Datetime) (schedule : ReportSchedule) : Nat → Option Int
  | 0 => nextReportDelivery? after schedule
  | n + 1 => (reportDeliveries after schedule n).bind fun t =>
      nextReportDelivery? (Datetime.ofInstant t) schedule

/-! ## The slots of a schedule -/

/-- `day` of a date. -/
def dayOfMonth (d : Int) : Int := d - monthStart (monthOf d) + 1

/-- The days of a schedule: every day, a weekday, or the 1st, the 15th or the last of a month, which is
the day before a 1st. -/
def ReportSchedule.OnDay (schedule : ReportSchedule) (d : Int) : Prop :=
  match schedule.frequency with
  | .daily => True
  | .weekly => Library.Calendar.weekday d = (schedule.weekday : Nat)
  | .monthly =>
    match schedule.monthDay with
    | .first => dayOfMonth d = 1
    | .fifteenth => dayOfMonth d = 15
    | .last => dayOfMonth (d + 1) = 1

/-- The instant is on a day of the schedule, at its time. -/
def IsReportSlot (schedule : ReportSchedule) (t : Int) : Prop :=
  schedule.OnDay (dateOf t) ∧ t = atClock (dateOf t) schedule.clock

/-- The day after is a first of a month exactly on the last day of the month. -/
theorem dayOfMonth_succ_eq_one_iff (d : Int) :
    dayOfMonth (d + 1) = 1 ↔ d = monthStart (monthOf d) + (monthLength (monthOf d) - 1) := by
  have hspec := monthOf_spec d
  unfold dayOfMonth monthLength
  constructor
  · intro h
    -- tomorrow begins its month, which therefore is the next one
    have hmonth : monthOf d = monthOf (d + 1) - 1 := by
      rw [← monthOf_monthStart_sub_one]
      congr 1
      omega
    rw [hmonth, sub_add_cancel]
    omega
  · intro h
    have hmonth : monthOf (d + 1) = monthOf d + 1 := by
      have heq : d + 1 = monthStart (monthOf d + 1) := by omega
      rw [heq, monthOf_monthStart]
    rw [hmonth]
    omega

/-- The slot's date is a day of the schedule exactly when it is the one its period has. -/
theorem onDay_monthly_iff {schedule : ReportSchedule} (hfrequency : schedule.frequency = .monthly)
    (d : Int) : schedule.OnDay d ↔
      d = monthStart (monthOf d) + (monthlyDate (monthOf d) schedule.monthDay - 1) := by
  have hlength := monthLength_bounds (monthOf d)
  unfold ReportSchedule.OnDay monthlyDate
  simp only [hfrequency]
  cases schedule.monthDay with
  | first =>
    show dayOfMonth d = 1 ↔ d = _ + (min 1 _ - 1)
    rw [min_eq_left (by omega)]
    unfold dayOfMonth
    omega
  | fifteenth =>
    show dayOfMonth d = 15 ↔ d = _ + (min 15 _ - 1)
    rw [min_eq_left (by omega)]
    unfold dayOfMonth
    omega
  | last => exact dayOfMonth_succ_eq_one_iff d

/-- **The slots of the calendar are those of the recurrence.** -/
theorem isReportSlot_iff (schedule : ReportSchedule) (t : Int) :
    IsReportSlot schedule t ↔ schedule.recurrence.IsSlot t := by
  -- on both sides `t` is at the schedule's time, and what remains is which day it is
  have hslot (e : Int) (hday : schedule.OnDay (dateOf t) ↔ dateOf t = e) :
      IsReportSlot schedule t ↔ atClock e schedule.clock = t := by
    unfold IsReportSlot
    rw [hday]
    constructor
    · rintro ⟨rfl, ht⟩
      exact ht.symm
    · intro ht
      have hdate : dateOf t = e := by
        rw [← ht]
        exact dateOf_eq_iff.mpr (atClock_bounds e schedule.clock)
      rw [hdate]
      exact ⟨rfl, ht.symm⟩
  unfold Recurrence.IsSlot
  cases hfrequency : schedule.frequency with
  | daily =>
    simp only [ReportSchedule.recurrence, hfrequency]
    apply hslot
    simp [ReportSchedule.OnDay, hfrequency, dailyRecurrence]
  | weekly =>
    simp only [ReportSchedule.recurrence, hfrequency]
    apply hslot
    simp only [ReportSchedule.OnDay, hfrequency, weeklyRecurrence]
    have hweekday := schedule.weekday.isLt
    unfold weekday mondayOf
    omega
  | monthly =>
    simp only [ReportSchedule.recurrence, hfrequency]
    exact hslot _ (onDay_monthly_iff hfrequency _)

/-! ## The function computes them -/

theorem pythonDatetime_eq_some {t r : Int} :
    pythonDatetime t = some r ↔ InDatetimeRange t ∧ t = r := by
  unfold pythonDatetime
  split <;> simp_all

/-- `observed` is a datetime, as `after` is. -/
theorem Datetime.inDatetimeRange_observed {after : Datetime} {observed : Int}
    (hafter : InDatetimeRange after.wall) (h : after.observed = some observed) :
    InDatetimeRange observed := by
  unfold Datetime.observed at h
  cases hoffset : after.utcoffset with
  | none =>
    simp only [hoffset, Option.some.injEq] at h
    rw [← h]
    exact hafter
  | some offset =>
    simp only [hoffset] at h
    obtain ⟨hrange, rfl⟩ := pythonDatetime_eq_some.mp h
    exact hrange

@[simp] theorem dateOf_atClock (d : Int) (clock : Fin 1440) : dateOf (atClock d clock) = d :=
  dateOf_eq_iff.mpr (atClock_bounds d clock)

theorem pythonDatetime_atClock {d : Int} (clock : Fin 1440) (h : InDateRange d) :
    pythonDatetime (atClock d clock) = some (atClock d clock) := by
  apply pythonDatetime_eq_some.mpr
  refine ⟨?_, rfl⟩
  unfold InDatetimeRange
  rw [dateOf_atClock]
  exact h

/-- What is dated behind the last day is no datetime. -/
theorem pythonDatetime_eq_none {d t : Int} (h : ¬InDateRange d) (hmin : monthStart (12 * 1) ≤ d)
    (hlater : startOfDay d ≤ t) : pythonDatetime t = none := by
  have hdate : d ≤ dateOf t := startOfDay_le_iff.mp hlater
  unfold pythonDatetime
  rw [if_neg]
  intro hrange
  exact h ⟨hmin, lt_of_le_of_lt hdate hrange.2⟩

/-- The date of a schedule in a month there is. -/
theorem inDateRange_monthlyDate {month : Int} (monthDay : MonthDay)
    (h : 12 * 1 ≤ month ∧ month < 12 * 10000) :
    InDateRange (monthStart month + (monthlyDate month monthDay - 1)) := by
  have hdate := monthlyDate_bounds month monthDay
  have hmonth : monthOf (monthStart month + (monthlyDate month monthDay - 1)) = month := by
    apply monthOf_eq_iff.mpr
    unfold monthLength at hdate
    omega
  rw [inDateRange_iff, hmonth]
  exact h

/-- A function that goes on from a date, and answers no earlier than the date. -/
theorem pythonDate_bind (d t : Int) (clock : Fin 1440) (hmin : monthStart (12 * 1) ≤ d)
    (next : Int → Option Int) (hnext : InDateRange d → next d = pythonDatetime t)
    (hlater : atClock d clock ≤ t) : (pythonDate d).bind next = pythonDatetime t := by
  by_cases hrange : InDateRange d
  · rw [pythonDate, if_pos hrange]
    exact hnext hrange
  · rw [pythonDate, if_neg hrange,
      pythonDatetime_eq_none hrange hmin ((atClock_bounds d clock).1.trans hlater)]
    rfl

/-- **The function raises when the answer is behind the last datetime**, and only then. -/
theorem nextReportDelivery?_eq {after : Datetime} {observed : Int} (schedule : ReportSchedule)
    (hafter : InDatetimeRange after.wall) (h : after.observed = some observed) :
    nextReportDelivery? after schedule = pythonDatetime (nextReportDelivery observed schedule) := by
  have hobserved := Datetime.inDatetimeRange_observed hafter h
  unfold nextReportDelivery? nextReportDelivery
  rw [h]
  cases hfrequency : schedule.frequency with
  | daily =>
    show (if observed < atClock (dateOf observed) schedule.clock then _ else _) =
      pythonDatetime (if observed < atClock (dateOf observed) schedule.clock then _ else _)
    split
    · exact (pythonDatetime_atClock schedule.clock hobserved).symm
    · rfl
  | weekly =>
    have hahead : 0 ≤ ((schedule.weekday : Nat) - weekday (dateOf observed)) % 7 :=
      Int.emod_nonneg _ (by decide)
    refine pythonDate_bind (dateOf observed + _) _ schedule.clock ?_ _ ?_ ?_
    · have hmin := hobserved.1
      omega
    · intro hrange
      show (if observed < atClock _ schedule.clock then _ else _) =
        pythonDatetime (if observed < atClock _ schedule.clock then _ else _)
      split
      · exact (pythonDatetime_atClock schedule.clock hrange).symm
      · rfl
    · simp only
      split
      · exact le_rfl
      · unfold days seconds
        omega
  | monthly =>
    show (if observed < atClock _ schedule.clock then _ else _) =
      pythonDatetime (if observed < atClock _ schedule.clock then _ else _)
    split
    · exact (pythonDatetime_atClock schedule.clock
        (inDateRange_monthlyDate schedule.monthDay (inDateRange_iff.mp hobserved))).symm
    · refine pythonDate_bind _ _ schedule.clock ?_ _ ?_ le_rfl
      · have hmonth := (inDateRange_iff.mp hobserved).1
        have hdate := (monthlyDate_bounds (monthOf (dateOf observed) + 1) schedule.monthDay).1
        have hstart := monthStart_strictMono.monotone
          (show (12 * 1 : Int) ≤ monthOf (dateOf observed) + 1 by omega)
        omega
      · intro hrange
        exact (pythonDatetime_atClock schedule.clock hrange).symm

/-- Behind the last datetime there is none. -/
theorem not_inDatetimeRange_of_le {observed t u : Int} (hobserved : InDatetimeRange observed)
    (hlater : observed ≤ t) (ht : ¬InDatetimeRange t) (htu : t ≤ u) : ¬InDatetimeRange u := by
  have hdates : dateOf observed ≤ dateOf t ∧ dateOf t ≤ dateOf u := by
    unfold dateOf days seconds
    omega
  intro hu
  exact ht ⟨hobserved.1.trans hdates.1, lt_of_le_of_lt hdates.2 hu.2⟩

/-- The deliveries are the recurrence's slots, up to the last datetime. -/
theorem reportDeliveries_eq {after : Datetime} {observed : Int} (schedule : ReportSchedule)
    (hafter : InDatetimeRange after.wall) (h : after.observed = some observed) (n : Nat) :
    reportDeliveries after schedule n =
      pythonDatetime (schedule.recurrence.next^[n + 1] observed) := by
  have hobserved := Datetime.inDatetimeRange_observed hafter h
  induction n with
  | zero =>
    rw [Function.iterate_one, ← nextReportDelivery_eq_next]
    exact nextReportDelivery?_eq schedule hafter h
  | succ n ih =>
    rw [reportDeliveries, ih, Function.iterate_succ_apply' _ (n + 1)]
    generalize ht : schedule.recurrence.next^[n + 1] observed = t
    have hlater : observed ≤ t := by
      rw [← ht]
      exact (Recurrence.iterate_strictMono observed).monotone (Nat.zero_le (n + 1))
    by_cases hrange : InDatetimeRange t
    · rw [pythonDatetime, if_pos hrange]
      have hutc : (Datetime.ofInstant t).observed = some t := by
        simp [Datetime.observed, Datetime.ofInstant, pythonDatetime, hrange]
      show nextReportDelivery? (Datetime.ofInstant t) schedule = _
      rw [nextReportDelivery?_eq schedule hrange hutc, nextReportDelivery_eq_next]
    · -- the deliveries have ended, and the next slot is further behind the end
      have hnext := not_inDatetimeRange_of_le hobserved hlater hrange
        (Recurrence.lt_next (r := schedule.recurrence) t).le
      rw [pythonDatetime, if_neg hrange, pythonDatetime, if_neg hnext]
      rfl

/-- The next delivery, if there is one, is the least slot after `observed`. -/
theorem nextReportDelivery?_isLeast {after : Datetime} {observed : Int} (schedule : ReportSchedule)
    (hafter : InDatetimeRange after.wall) (h : after.observed = some observed) (delivery : Int) :
    nextReportDelivery? after schedule = some delivery ↔
      IsLeast {u | IsReportSlot schedule u ∧ observed < u ∧ InDatetimeRange u} delivery := by
  rw [nextReportDelivery?_eq schedule hafter h, nextReportDelivery_eq_next, pythonDatetime_eq_some]
  have hleast := Recurrence.next_isLeast (r := schedule.recurrence) observed
  have hnext := (isReportSlot_iff schedule _).mpr hleast.1.1
  have hbound {u : Int} (hu : IsReportSlot schedule u) (hlt : observed < u) :
      schedule.recurrence.next observed ≤ u :=
    hleast.2 ⟨(isReportSlot_iff schedule u).mp hu, hlt⟩
  constructor
  · rintro ⟨hrange, rfl⟩
    exact ⟨⟨hnext, hleast.1.2, hrange⟩, fun u hu => hbound hu.1 hu.2.1⟩
  · intro hdelivery
    obtain ⟨hslot, hlt, hrange⟩ := hdelivery.1
    -- the least slot of all is before this one, so it is a datetime too
    have hle := hbound hslot hlt
    have hobserved := Datetime.inDatetimeRange_observed hafter h
    have hnextRange : InDatetimeRange (schedule.recurrence.next observed) := by
      by_contra hout
      exact not_inDatetimeRange_of_le hobserved hleast.1.2.le hout hle hrange
    exact ⟨hnextRange, le_antisymm hle (hdelivery.2 ⟨hnext, hleast.1.2, hnextRange⟩)⟩

/-- **The deliveries of a schedule.** The next one is the least slot after `observed` among the
datetimes, it is missing only when no slot is left before the year 10000, and the deliveries that follow
each other go through every slot once and in order. -/
theorem reportDeliveries_enumerate {after : Datetime} {observed : Int} (schedule : ReportSchedule)
    (hafter : InDatetimeRange after.wall) (h : after.observed = some observed) :
    (∀ delivery : Int, nextReportDelivery? after schedule = some delivery ↔
      IsLeast {u | IsReportSlot schedule u ∧ observed < u ∧ InDatetimeRange u} delivery) ∧
    (nextReportDelivery? after schedule = none ↔
      ∀ u : Int, IsReportSlot schedule u → observed < u → ¬InDatetimeRange u) ∧
    (∀ (n : Nat) (t : Int), reportDeliveries after schedule n = some t →
      IsReportSlot schedule t ∧ observed < t ∧ InDatetimeRange t) ∧
    (∀ u : Int, IsReportSlot schedule u → observed < u → InDatetimeRange u →
      ∃! n : Nat, reportDeliveries after schedule n = some u) ∧
    (∀ (m n : Nat) (t u : Int), m < n → reportDeliveries after schedule m = some t →
      reportDeliveries after schedule n = some u → t < u) := by
  have hobserved := Datetime.inDatetimeRange_observed hafter h
  have hmono := Recurrence.iterate_strictMono (r := schedule.recurrence) observed
  refine ⟨nextReportDelivery?_isLeast schedule hafter h, ⟨?_, ?_⟩, ?_, ?_, ?_⟩
  · intro hnone u hslot hlt
    rw [nextReportDelivery?_eq schedule hafter h, nextReportDelivery_eq_next] at hnone
    have hout : ¬InDatetimeRange (schedule.recurrence.next observed) := by
      intro hrange
      rw [pythonDatetime, if_pos hrange] at hnone
      exact Option.some_ne_none _ hnone
    have hleast := Recurrence.next_isLeast (r := schedule.recurrence) observed
    exact not_inDatetimeRange_of_le hobserved hleast.1.2.le hout
      (hleast.2 ⟨(isReportSlot_iff schedule u).mp hslot, hlt⟩)
  · intro hall
    cases hnext : nextReportDelivery? after schedule with
    | none => rfl
    | some delivery =>
        have hdelivery := ((nextReportDelivery?_isLeast schedule hafter h delivery).mp hnext).1
        exact absurd hdelivery.2.2 (hall delivery hdelivery.1 hdelivery.2.1)
  · intro n t ht
    rw [reportDeliveries_eq schedule hafter h] at ht
    obtain ⟨hrange, rfl⟩ := pythonDatetime_eq_some.mp ht
    refine ⟨?_, hmono (Nat.succ_pos n), hrange⟩
    rw [isReportSlot_iff, Function.iterate_succ_apply']
    exact Recurrence.isSlot_next _
  · intro u hslot hlt hrange
    obtain ⟨n, hn, hunique⟩ :=
      Recurrence.existsUnique_iterate ((isReportSlot_iff schedule u).mp hslot) hlt
    refine ⟨n, ?_, fun m hm => hunique m ?_⟩
    · show reportDeliveries after schedule n = some u
      rw [reportDeliveries_eq schedule hafter h]
      exact pythonDatetime_eq_some.mpr ⟨hn ▸ hrange, hn⟩
    · have hm' : reportDeliveries after schedule m = some u := hm
      rw [reportDeliveries_eq schedule hafter h] at hm'
      exact (pythonDatetime_eq_some.mp hm').2
  · intro m n t u hlt ht hu
    rw [reportDeliveries_eq schedule hafter h] at ht hu
    obtain ⟨-, rfl⟩ := pythonDatetime_eq_some.mp ht
    obtain ⟨-, rfl⟩ := pythonDatetime_eq_some.mp hu
    exact hmono (Nat.succ_lt_succ hlt)

/-- 2024-01-31T09:00 in a zone an hour ahead of UTC. -/
def lateJanuary : Datetime := ⟨startOfDay 19753 + minutes 540, some (minutes 60)⟩

/-- Reports at 09:00 on the last day of a month. -/
def lastDayReports : ReportSchedule where
  frequency := .monthly
  clock := 540
  weekday := 0
  monthDay := .last

/-- At 08:00 UTC the report of the last of January is still ahead. -/
theorem reportDeliveries_enumerate_lateJanuary :
    InDatetimeRange lateJanuary.wall ∧
    lateJanuary.observed = some (startOfDay 19753 + minutes 480) ∧
    ∃! n : Nat, reportDeliveries lateJanuary lastDayReports n = some (startOfDay 19782 + minutes 540) := by
  have hafter : InDatetimeRange lateJanuary.wall := by decide +kernel
  have hobserved : lateJanuary.observed = some (startOfDay 19753 + minutes 480) := by decide +kernel
  refine ⟨hafter, hobserved, ?_⟩
  -- the slot of February, which has 29 days
  have hday : lastDayReports.OnDay (dateOf (startOfDay 19782 + minutes 540)) := by
    show dayOfMonth (dateOf (startOfDay 19782 + minutes 540) + 1) = 1
    decide +kernel
  exact (reportDeliveries_enumerate lastDayReports hafter hobserved).2.2.2.1 _
    ⟨hday, by decide +kernel⟩ (by decide +kernel) (by decide +kernel)

/-- Daily reports at 09:00. -/
def morningReports : ReportSchedule where
  frequency := .daily
  clock := 540
  weekday := 0
  monthDay := .first

/-- At noon of the last day there is, the report of the next morning has no datetime. -/
theorem nextReportDelivery?_lastDay :
    ¬∀ (after : Datetime) (observed : Int) (schedule : ReportSchedule), InDatetimeRange after.wall →
      after.observed = some observed → ∃ delivery : Int,
        nextReportDelivery? after schedule = some delivery ∧ IsReportSlot schedule delivery ∧
          observed < delivery := by
  intro hall
  obtain ⟨delivery, hdelivery, -⟩ :=
    hall ⟨startOfDay 2932896 + minutes 720, none⟩ (startOfDay 2932896 + minutes 720) morningReports
      (by decide +kernel) rfl
  have hnone : nextReportDelivery? ⟨startOfDay 2932896 + minutes 720, none⟩ morningReports = none := by
    decide +kernel
  rw [hnone] at hdelivery
  exact Option.some_ne_none _ hdelivery.symm

end Dayfinch
