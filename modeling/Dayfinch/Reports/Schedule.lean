/-
# Dayfinch.Reports.Schedule -- when a scheduled report is sent, and which period it covers

`nextReportDelivery`, `scheduledReportWindow` and `scheduledReportRetryAt` are the three functions of
`report_schedule.py`. The first two are calendar arithmetic of one kind: a schedule is a recurrence with
the days, the weeks from Monday or the months as its periods (`ReportSchedule.recurrence`), the first
function is its `next` and the second one, for the previous period, its `window`.
-/
import Dayfinch.Clock
import Dayfinch.Library.Recurrence

namespace Dayfinch

open Library (Recurrence)
open Library.Calendar

/-! ## Schedules -/

/-- `frequency`. -/
inductive ReportFrequency
  | daily | weekly | monthly
  deriving DecidableEq, Repr

/-- `schedule_month_day`: 1, 15 or -1. -/
inductive MonthDay
  | first | fifteenth | last
  deriving DecidableEq, Repr

/-- The schedule of a report. `clock` is `delivery_hour` and `delivery_minute` in minutes of the day. -/
structure ReportSchedule where
  frequency : ReportFrequency
  clock : Fin 1440
  weekday : Fin 7
  monthDay : MonthDay
  deriving DecidableEq, Repr

/-- `range_preset`. -/
inductive RangePreset
  | previousPeriod | previousDay | previousWeek | previousMonth | last7Days | last30Days
  deriving DecidableEq, Repr

/-- `_monthly_date(year, month, month_day)`. -/
def monthlyDate (month : Int) (monthDay : MonthDay) : Int :=
  match monthDay with
  | .first => min 1 (monthLength month)
  | .fifteenth => min 15 (monthLength month)
  | .last => monthLength month

/-- `datetime.combine(day, clock, UTC)`. -/
def atClock (day : Int) (clock : Fin 1440) : Int := startOfDay day + minutes (clock : Nat)

/-- `next_report_delivery(after, frequency, delivery_time, ..)`. -/
def nextReportDelivery (observed : Int) (schedule : ReportSchedule) : Int :=
  match schedule.frequency with
  | .daily =>
    let candidate := atClock (dateOf observed) schedule.clock
    if observed < candidate then candidate else candidate + days 1
  | .weekly =>
    let daysAhead := ((schedule.weekday : Nat) - weekday (dateOf observed)) % 7
    let candidate := atClock (dateOf observed + daysAhead) schedule.clock
    if observed < candidate then candidate else candidate + days 7
  | .monthly =>
    let month := monthOf (dateOf observed)
    let candidate :=
      atClock (monthStart month + (monthlyDate month schedule.monthDay - 1)) schedule.clock
    if observed < candidate then candidate
    else
      atClock (monthStart (month + 1) + (monthlyDate (month + 1) schedule.monthDay - 1))
        schedule.clock

/-- `scheduled_report_window(observed_at, frequency, range_preset)`. -/
def scheduledReportWindow (observed : Int) (frequency : ReportFrequency) (rangePreset : RangePreset) :
    Int × Int :=
  let today := dateOf observed
  let preset :=
    if rangePreset = .previousPeriod then
      match frequency with
      | .daily => .previousDay
      | .weekly => .previousWeek
      | .monthly => .previousMonth
    else rangePreset
  match preset with
  | .previousDay => (startOfDay (today - 1), startOfDay today)
  | .last7Days => (startOfDay (today - 7), startOfDay today)
  | .last30Days => (startOfDay (today - 30), startOfDay today)
  | .previousWeek =>
    let thisWeek := today - weekday today
    (startOfDay (thisWeek - 7), startOfDay thisWeek)
  | _ =>
    let thisMonth := monthStart (monthOf today)
    let previousDay := thisMonth - 1
    (startOfDay (monthStart (monthOf previousDay)), startOfDay thisMonth)

/-- `scheduled_report_retry_at(failed_at, consecutive_failures, report_id)`; the jitter is the digest of
the identifier, modulo 61. -/
def scheduledReportRetryAt (failedAt : Int) (consecutiveFailures : Nat) (jitterSeconds : Fin 61) : Int :=
  let exponent := min consecutiveFailures 16
  let delaySeconds := min (5 * 60 * 2 ^ exponent) (24 * 60 * 60)
  failedAt + seconds ((delaySeconds + (jitterSeconds : Nat) : Nat) : Int)

theorem le_scheduledReportRetryAt (failedAt : Int) (consecutiveFailures : Nat)
    (jitterSeconds : Fin 61) :
    failedAt ≤ scheduledReportRetryAt failedAt consecutiveFailures jitterSeconds := by
  show failedAt ≤ failedAt + seconds _
  unfold seconds
  omega

/-! ## The recurrence of a schedule -/

theorem atClock_bounds (day : Int) (clock : Fin 1440) :
    startOfDay day ≤ atClock day clock ∧ atClock day clock < startOfDay (day + 1) := by
  have hclock := clock.isLt
  unfold atClock startOfDay days minutes seconds
  omega

/-- `date - timedelta(days=date.weekday())` of the week with this number. -/
def mondayOf (week : Int) : Int := 7 * week - 3

/-- Days. -/
def dailyRecurrence (clock : Fin 1440) : Recurrence where
  start := startOfDay
  period := dateOf
  slot day := atClock day clock
  period_eq_iff _ _ := dateOf_eq_iff
  start_le_slot day := (atClock_bounds day clock).1
  slot_lt_start day := (atClock_bounds day clock).2

/-- Weeks from Monday. -/
def weeklyRecurrence (clock : Fin 1440) (weekday : Fin 7) : Recurrence where
  start week := startOfDay (mondayOf week)
  period t := (dateOf t + 3) / 7
  slot week := atClock (mondayOf week + (weekday : Nat)) clock
  period_eq_iff := by
    intro t k
    unfold mondayOf dateOf startOfDay days seconds
    omega
  start_le_slot := by
    intro week
    have hclock := clock.isLt
    unfold atClock startOfDay days minutes seconds
    omega
  slot_lt_start := by
    intro week
    have hclock := clock.isLt
    have hweekday := weekday.isLt
    unfold mondayOf atClock startOfDay days minutes seconds
    omega

theorem monthlyDate_bounds (month : Int) (monthDay : MonthDay) :
    1 ≤ monthlyDate month monthDay ∧ monthlyDate month monthDay ≤ monthLength month := by
  have hlength : 1 ≤ monthLength month := by
    have hlt := monthStart_lt_succ month
    unfold monthLength
    omega
  cases monthDay with
  | first => exact ⟨le_min le_rfl hlength, min_le_right _ _⟩
  | fifteenth => exact ⟨le_min (by decide) hlength, min_le_right _ _⟩
  | last => exact ⟨hlength, le_rfl⟩

/-- Months. -/
def monthlyRecurrence (clock : Fin 1440) (monthDay : MonthDay) : Recurrence where
  start month := startOfDay (monthStart month)
  period t := monthOf (dateOf t)
  slot month := atClock (monthStart month + (monthlyDate month monthDay - 1)) clock
  period_eq_iff := by
    intro t k
    rw [monthOf_eq_iff, ← startOfDay_le_iff, ← not_le, ← startOfDay_le_iff, not_le]
  start_le_slot := by
    intro month
    have hdate := (monthlyDate_bounds month monthDay).1
    apply le_trans _ (atClock_bounds _ clock).1
    unfold startOfDay days seconds
    omega
  slot_lt_start := by
    intro month
    have hdate := (monthlyDate_bounds month monthDay).2
    apply lt_of_lt_of_le (atClock_bounds _ clock).2
    unfold monthLength at hdate
    unfold startOfDay days seconds
    omega

/-- The recurrence of a schedule. -/
def ReportSchedule.recurrence (schedule : ReportSchedule) : Recurrence :=
  match schedule.frequency with
  | .daily => dailyRecurrence schedule.clock
  | .weekly => weeklyRecurrence schedule.clock schedule.weekday
  | .monthly => monthlyRecurrence schedule.clock schedule.monthDay

/-- In the week from Monday, the day ahead is this week's slot or the next one's. -/
theorem weekly_candidate (observed : Int) (weekday : Fin 7) :
    let week := (dateOf observed + 3) / 7
    dateOf observed + ((weekday : Nat) - Library.Calendar.weekday (dateOf observed)) % 7 =
      if dateOf observed ≤ mondayOf week + (weekday : Nat) then mondayOf week + (weekday : Nat)
      else mondayOf (week + 1) + (weekday : Nat) := by
  have hweekday := weekday.isLt
  intro week
  unfold Library.Calendar.weekday mondayOf
  split <;> omega

/-- **The source's calendar arithmetic is the recurrence's next slot.** -/
theorem nextReportDelivery_eq_next (observed : Int) (schedule : ReportSchedule) :
    nextReportDelivery observed schedule = schedule.recurrence.next observed := by
  cases hfrequency : schedule.frequency with
  | daily =>
    simp only [nextReportDelivery, ReportSchedule.recurrence, hfrequency, Recurrence.next]
    show (if observed < atClock (dateOf observed) schedule.clock then _ else _) = _
    congr 1
    show atClock (dateOf observed) schedule.clock + days 1 =
      atClock (dateOf observed + 1) schedule.clock
    unfold atClock startOfDay days seconds
    omega
  | weekly =>
    simp only [nextReportDelivery, ReportSchedule.recurrence, hfrequency, Recurrence.next]
    show _ = if observed < atClock (mondayOf ((dateOf observed + 3) / 7) + (schedule.weekday : Nat))
      schedule.clock then atClock (mondayOf ((dateOf observed + 3) / 7) + (schedule.weekday : Nat))
        schedule.clock
      else atClock (mondayOf ((dateOf observed + 3) / 7 + 1) + (schedule.weekday : Nat)) schedule.clock
    rw [weekly_candidate]
    have hclock := schedule.clock.isLt
    have hweekday := schedule.weekday.isLt
    by_cases hahead :
        dateOf observed ≤ mondayOf ((dateOf observed + 3) / 7) + (schedule.weekday : Nat)
    · rw [if_pos hahead]
      congr 1
      unfold mondayOf atClock startOfDay days seconds
      omega
    · -- the slot of this week is over, and that of the next week is ahead
      rw [if_neg hahead]
      have hdate := (dateOf_eq_iff (t := observed)).mp rfl
      rw [if_pos, if_neg]
      · apply not_lt.mpr
        apply (atClock_bounds _ schedule.clock).2.le.trans
        apply le_trans _ hdate.1
        unfold startOfDay days seconds
        omega
      · apply lt_of_lt_of_le hdate.2
        apply le_trans _ (atClock_bounds _ schedule.clock).1
        unfold mondayOf startOfDay days seconds
        unfold mondayOf at hahead
        omega
  | monthly =>
    simp only [nextReportDelivery, ReportSchedule.recurrence, hfrequency, Recurrence.next]
    rfl

/-- **The window of the previous period is the recurrence's.** -/
theorem scheduledReportWindow_previousPeriod (observed : Int) (schedule : ReportSchedule) :
    scheduledReportWindow observed schedule.frequency .previousPeriod =
      schedule.recurrence.window observed := by
  cases hfrequency : schedule.frequency with
  | daily =>
    simp only [ReportSchedule.recurrence, hfrequency]
    rfl
  | weekly =>
    simp only [ReportSchedule.recurrence, hfrequency]
    show (startOfDay (dateOf observed - weekday (dateOf observed) - 7),
        startOfDay (dateOf observed - weekday (dateOf observed))) =
      (startOfDay (mondayOf ((dateOf observed + 3) / 7 - 1)),
        startOfDay (mondayOf ((dateOf observed + 3) / 7)))
    have hmonday : dateOf observed - weekday (dateOf observed) =
        mondayOf ((dateOf observed + 3) / 7) := by
      unfold weekday mondayOf
      omega
    have hbefore : mondayOf ((dateOf observed + 3) / 7) - 7 =
        mondayOf ((dateOf observed + 3) / 7 - 1) := by
      unfold mondayOf
      omega
    rw [hmonday, hbefore]
  | monthly =>
    simp only [ReportSchedule.recurrence, hfrequency]
    show (startOfDay (monthStart (monthOf (monthStart (monthOf (dateOf observed)) - 1))),
        startOfDay (monthStart (monthOf (dateOf observed)))) = _
    rw [monthOf_monthStart_sub_one]
    rfl

end Dayfinch
