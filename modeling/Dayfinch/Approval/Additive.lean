/-
# Dayfinch.Approval.Additive -- when the totals of two adjacent timesheets add up

The report decides four times what belongs to a period. A segment is clipped to it, a manual entry
belongs with its start, a holiday with its date, and a request for time off with every period it
touches. Clipping, start and date divide time among adjacent periods; touching does not, so a request
over the boundary is paid in both. Two things more keep the tracked seconds from adding up: the empty
rows of the joins, each of which counts the whole period up to now, and the rounding of every sum to
seconds.

`AddsUp` is the exact condition on the tables. Its parts are found one column at a time, and
`timesheetTotals_add_iff` puts them together.
-/
import Dayfinch.Approval.Frozen
import Mathlib.Algebra.BigOperators.Ring.List

namespace Dayfinch

open Library (sum_filter sum_filter_overlap sum_filter_parts sum_map_nonneg sum_map_eq_zero_iff)

/-! ## Holidays and the four totals -/

/-- `holidays`. -/
structure Holiday where
  id : Nat
  holidayDate : Int
  paidMinutes : Int
  deriving DecidableEq, Repr

/-- `holiday_seconds`: `holiday_date BETWEEN ts.period_start AND ts.period_end`. -/
def holidaySeconds (holidays : List Holiday) (ts : Timesheet) : Int :=
  ((holidays.filter fun h => ts.covers h.holidayDate).map fun h => h.paidMinutes * 60).sum

/-- The sums of a row of the report. -/
structure TimesheetTotals where
  trackedSeconds : Int
  manualSeconds : Int
  ptoSeconds : Int
  holidaySeconds : Int
  deriving DecidableEq, Repr

/-- The totals of the row of one timesheet. -/
def timesheetTotals (now : Int) (db : Database) (holidays : List Holiday) (ts : Timesheet) :
    TimesheetTotals where
  trackedSeconds := (timesheetRow now db ts).trackedSeconds
  manualSeconds := (timesheetRow now db ts).manualSeconds
  ptoSeconds := (timesheetRow now db ts).ptoSeconds
  holidaySeconds := holidaySeconds holidays ts

/-- Column by column. -/
def TimesheetTotals.add (x y : TimesheetTotals) : TimesheetTotals where
  trackedSeconds := x.trackedSeconds + y.trackedSeconds
  manualSeconds := x.manualSeconds + y.manualSeconds
  ptoSeconds := x.ptoSeconds + y.ptoSeconds
  holidaySeconds := x.holidaySeconds + y.holidaySeconds

/-! ## Adjacent periods -/

/-- Timesheets of one member for `[a, b]`, `[b + 1, c]` and `[a, c]`. -/
structure Adjacent (first second whole : Timesheet) : Prop where
  first_userId : first.userId = whole.userId
  second_userId : second.userId = whole.userId
  first_start : first.periodStart = whole.periodStart
  second_start : second.periodStart = first.periodEnd + 1
  second_end : second.periodEnd = whole.periodEnd
  first_valid : first.periodStart ≤ first.periodEnd
  second_valid : second.periodStart ≤ second.periodEnd

/-- What the columns and the inserts ensure of the rows: a manual entry ends after it starts, time off
ends on or after the day it starts, and its minutes are clamped to at least 0. -/
structure Database.CheckedRows (db : Database) : Prop where
  manual : ∀ m ∈ db.manualTimeEntries, m.startedAt < m.endedAt
  timeOff : ∀ r ∈ db.timeOffRequests, r.startsOn ≤ r.endsOn ∧ 0 ≤ r.minutes

section

variable {first second whole : Timesheet}

theorem Adjacent.first_opens (h : Adjacent first second whole) : first.opens = whole.opens :=
  congrArg startOfDay h.first_start

theorem Adjacent.second_opens (h : Adjacent first second whole) : second.opens = first.closes :=
  congrArg startOfDay h.second_start

theorem Adjacent.second_closes (h : Adjacent first second whole) : second.closes = whole.closes := by
  unfold Timesheet.closes
  rw [h.second_end]

theorem Adjacent.first_length (h : Adjacent first second whole) : whole.opens < first.closes := by
  have hvalid := h.first_valid
  rw [← h.first_opens]
  exact startOfDay_lt_startOfDay.mpr (by omega)

theorem Adjacent.second_length (h : Adjacent first second whole) : first.closes < whole.closes := by
  have hvalid := h.second_valid
  rw [← h.second_opens, ← h.second_closes]
  exact startOfDay_lt_startOfDay.mpr (by omega)

/-- A date of the whole belongs to exactly one of the two. -/
theorem Adjacent.covers (h : Adjacent first second whole) (workDate : Int) :
    (whole.covers workDate = (first.covers workDate || second.covers workDate)) ∧
      (first.covers workDate && second.covers workDate) = false := by
  have h1 := h.first_start
  have h2 := h.second_start
  have h3 := h.second_end
  have h4 := h.first_valid
  have h5 := h.second_valid
  unfold Timesheet.covers
  constructor
  · rw [Bool.eq_iff_iff]
    simp only [Bool.and_eq_true, Bool.or_eq_true, decide_eq_true_eq]
    omega
  · rw [← Bool.not_eq_true]
    simp only [Bool.and_eq_true, decide_eq_true_eq]
    omega

/-- **Clipping divides.** -/
theorem Adjacent.clip (h : Adjacent first second whole) (start stop : Int) :
    first.clip start stop + second.clip start stop = whole.clip start stop := by
  have hopens := h.first_opens
  have hmeet := h.second_opens
  have hcloses := h.second_closes
  have hfirst := h.first_length
  have hsecond := h.second_length
  unfold Timesheet.clip
  omega

/-! ## Rounding -/

/-- What `::BIGINT` leaves out of a sum, in microseconds. -/
def dropped (microseconds : Int) : Int := microseconds - 1000000 * toBigint microseconds

/-- A remainder that makes no whole second. -/
def RoundsAway (remainder : Int) : Prop := -500000 ≤ remainder ∧ remainder < 500000

instance (remainder : Int) : Decidable (RoundsAway remainder) := inferInstanceAs (Decidable (_ ∧ _))

/-- Two rounded sums make a rounded third exactly when what they leave out, with what the third has in
excess of them, makes no second. -/
theorem toBigint_add_iff {x y z : Int} (hx : 0 ≤ x) (hy : 0 ≤ y) (hz : 0 ≤ z) :
    toBigint x + toBigint y = toBigint z ↔ RoundsAway (dropped x + dropped y + (z - x - y)) := by
  unfold RoundsAway dropped toBigint
  rw [if_pos hx, if_pos hy, if_pos hz]
  omega

/-! ## The columns that divide by date -/

theorem holidaySeconds_add (h : Adjacent first second whole) (holidays : List Holiday) :
    holidaySeconds holidays first + holidaySeconds holidays second = holidaySeconds holidays whole :=
  sum_filter_parts _ (fun holiday _ => (h.covers holiday.holidayDate).1) fun holiday _ =>
    (h.covers holiday.holidayDate).2

/-- The approved manual time that starts in a period, in microseconds. -/
def manualTime (db : Database) (ts : Timesheet) : Int :=
  ((db.manualTimeEntries.filter ts.takesManual).map fun m => m.endedAt - m.startedAt).sum

theorem manualTime_add (h : Adjacent first second whole) (db : Database) :
    manualTime db first + manualTime db second = manualTime db whole := by
  refine sum_filter_parts _ (fun m _ => ?_) fun m _ => ?_
  · obtain ⟨hcovers, _⟩ := h.covers (dateOf m.startedAt)
    unfold Timesheet.takesManual
    rw [h.first_userId, h.second_userId, hcovers, Bool.and_or_distrib_left]
  · obtain ⟨_, hdisjoint⟩ := h.covers (dateOf m.startedAt)
    unfold Timesheet.takesManual
    rw [← Bool.not_eq_true] at hdisjoint ⊢
    simp only [Bool.and_eq_true] at hdisjoint ⊢
    rintro ⟨⟨_, hinFirst⟩, _, hinSecond⟩
    exact hdisjoint ⟨hinFirst, hinSecond⟩

theorem manualTime_nonneg {db : Database} (hrows : db.CheckedRows) (ts : Timesheet) :
    0 ≤ manualTime db ts := by
  refine sum_map_nonneg fun m hm => ?_
  have hlt := hrows.manual m (List.mem_filter.mp hm).1
  omega

/-- **Manual time** adds up but for the rounding. -/
theorem manualSeconds_add_iff {db : Database} (h : Adjacent first second whole)
    (hrows : db.CheckedRows) :
    manualSeconds db first + manualSeconds db second = manualSeconds db whole ↔
      RoundsAway (dropped (manualTime db first) + dropped (manualTime db second)) := by
  have hadd := manualTime_add h db
  show toBigint (manualTime db first) + toBigint (manualTime db second) =
    toBigint (manualTime db whole) ↔ _
  rw [toBigint_add_iff (manualTime_nonneg hrows _) (manualTime_nonneg hrows _)
    (manualTime_nonneg hrows _), ← hadd, show manualTime db first + manualTime db second -
    manualTime db first - manualTime db second = 0 by omega, Int.add_zero]

/-! ## Time off -/

/-- A request belongs to the whole exactly when it touches one of the two. -/
theorem Adjacent.takesTimeOff (h : Adjacent first second whole) {r : TimeOffRequest}
    (hr : r.startsOn ≤ r.endsOn) :
    whole.takesTimeOff r = (first.takesTimeOff r || second.takesTimeOff r) := by
  have h1 := h.first_start
  have h2 := h.second_start
  have h3 := h.second_end
  have h4 := h.first_valid
  have h5 := h.second_valid
  unfold Timesheet.takesTimeOff Timesheet.meets
  rw [h.first_userId, h.second_userId, Bool.eq_iff_iff]
  simp only [Bool.and_eq_true, Bool.or_eq_true, decide_eq_true_eq]
  constructor
  · rintro ⟨htaken, hmeets⟩
    by_cases hfirst : r.startsOn ≤ first.periodEnd
    · exact .inl ⟨htaken, by omega⟩
    · exact .inr ⟨htaken, by omega⟩
  · rintro (⟨htaken, hmeets⟩ | ⟨htaken, hmeets⟩)
    · exact ⟨htaken, by omega⟩
    · exact ⟨htaken, by omega⟩

/-- No paid time off of the member touches both periods. -/
def NoneAcross (db : Database) (first second : Timesheet) : Prop :=
  ∀ r ∈ db.timeOffRequests, first.takesTimeOff r = true → second.takesTimeOff r = true →
    r.minutes = 0

/-- **Time off** adds up exactly when none of it touches both periods. -/
theorem ptoSeconds_add_iff {db : Database} (h : Adjacent first second whole)
    (hrows : db.CheckedRows) :
    ptoSeconds db first + ptoSeconds db second = ptoSeconds db whole ↔ NoneAcross db first second := by
  let twice : List TimeOffRequest :=
    db.timeOffRequests.filter fun r => first.takesTimeOff r && second.takesTimeOff r
  have hsum : ptoSeconds db first + ptoSeconds db second =
      ptoSeconds db whole + (twice.map fun r => r.minutes * 60).sum :=
    sum_filter_overlap _ fun r hr => h.takesTimeOff (hrows.timeOff r hr).1
  have hzero : (twice.map fun r => r.minutes * 60).sum = 0 ↔ ∀ r ∈ twice, r.minutes * 60 = 0 :=
    sum_map_eq_zero_iff fun r hr => by
      have hminutes := (hrows.timeOff r (List.mem_filter.mp hr).1).2
      omega
  rw [hsum, add_eq_left, hzero]
  constructor
  · intro hall r hr hfirst hsecond
    have hr0 := hall r (List.mem_filter.mpr ⟨hr, by rw [hfirst, hsecond]; rfl⟩)
    omega
  · intro hnone r hr
    obtain ⟨hmem, hboth⟩ := List.mem_filter.mp hr
    rw [Bool.and_eq_true] at hboth
    have hr0 := hnone r hmem hboth.1 hboth.2
    omega

/-! ## Tracked time -/

/-- The time of a session in a period. -/
def sessionTime (now : Int) (db : Database) (ts : Timesheet) (id : Nat) : Int :=
  (db.segments.map fun g => if g.sessionId == id then ts.counted now (some g) else 0).sum

/-- The time in a period of the sessions that it joins. -/
def joinedTime (now : Int) (db : Database) (ts : Timesheet) : Int :=
  ((db.joinedSessions ts).map fun ws => sessionTime now db ts ws.id).sum

/-- The empty rows of the joins: a session joined without a segment in the period has one, and a
timesheet that joins no session. -/
def emptyRows (now : Int) (db : Database) (ts : Timesheet) : Int :=
  ((db.joinedSessions ts).map fun ws =>
      if (db.joinedSegments now ts ws.id).isEmpty then 1 else 0).sum +
    if (db.joinedSessions ts).isEmpty then 1 else 0

/-- What an empty row counts: the period, up to now. -/
def idleTime (now : Int) (ts : Timesheet) : Int := ts.clip ts.opens now

/-- The tracked time of the report, before it is rounded. -/
def reportedTime (now : Int) (db : Database) (ts : Timesheet) : Int :=
  joinedTime now db ts + emptyRows now db ts * idleTime now ts

/-- The time in the first period of sessions that began after it. -/
def earlyTime (now : Int) (db : Database) (first second : Timesheet) : Int :=
  ((db.workSessions.filter fun ws => second.joinsSession ws && !first.joinsSession ws).map fun ws =>
    sessionTime now db first ws.id).sum

/-- The tracked time that the whole has in excess of its two periods. -/
def excessTime (now : Int) (db : Database) (first second whole : Timesheet) : Int :=
  earlyTime now db first second + emptyRows now db whole * idleTime now whole -
    emptyRows now db first * idleTime now first - emptyRows now db second * idleTime now second

theorem sum_map_add_mul (rows : List ρ) (f c : ρ → Int) (k : Int) :
    (rows.map fun r => f r + c r * k).sum = (rows.map f).sum + (rows.map c).sum * k := by
  rw [List.sum_map_add, List.sum_map_mul_right]

/-- The report sums up the time of the sessions and its empty rows. -/
theorem trackedMicros_eq_reportedTime (now : Int) (db : Database) (ts : Timesheet) :
    trackedMicros now db ts = reportedTime now db ts := by
  have hsession : ∀ ws : WorkSession, sessionMicros now db ts ws.id =
      sessionTime now db ts ws.id +
        (if (db.joinedSegments now ts ws.id).isEmpty then 1 else 0) * idleTime now ts := by
    intro ws
    unfold sessionMicros sessionTime
    rw [sum_joinedSegments]
    congr 1
    split
    · exact (Int.one_mul _).symm
    · exact (Int.zero_mul _).symm
  rw [trackedMicros_eq]
  unfold reportedTime joinedTime emptyRows Database.joinedIds
  rw [List.map_map, List.isEmpty_map, Int.add_mul, ← Int.add_assoc, ← sum_map_add_mul]
  congr 1
  · exact congrArg List.sum (List.map_congr_left fun ws _ => hsession ws)
  · split
    · exact (Int.one_mul _).symm
    · exact (Int.zero_mul _).symm

theorem Timesheet.clip_nonneg (ts : Timesheet) (start stop : Int) : 0 ≤ ts.clip start stop :=
  le_max_left _ _

theorem reportedTime_nonneg (now : Int) (db : Database) (ts : Timesheet) :
    0 ≤ reportedTime now db ts := by
  rw [← trackedMicros_eq_reportedTime]
  exact sum_map_nonneg fun row _ => ts.clip_nonneg _ _

/-- The time of a session divides. -/
theorem sessionTime_add (h : Adjacent first second whole) (now : Int) (db : Database) (id : Nat) :
    sessionTime now db first id + sessionTime now db second id = sessionTime now db whole id := by
  unfold sessionTime
  rw [← List.sum_map_add]
  refine congrArg List.sum (List.map_congr_left fun g _ => ?_)
  by_cases hid : (g.sessionId == id) = true
  · rw [if_pos hid, if_pos hid, if_pos hid]
    have hclip := h.clip g.startedAt (g.endedAt.getD now)
    exact hclip
  · rw [if_neg hid, if_neg hid, if_neg hid]
    rfl

/-- The second period joins the sessions that the whole joins. -/
theorem Adjacent.joinsSession (h : Adjacent first second whole) :
    second.joinsSession = whole.joinsSession := by
  funext ws
  unfold Timesheet.joinsSession
  rw [h.second_userId, h.second_closes]

/-- A session that the first period joins began before the end of the whole. -/
theorem Adjacent.joinsSession_of_first (h : Adjacent first second whole) {ws : WorkSession}
    (hfirst : first.joinsSession ws = true) : second.joinsSession ws = true := by
  have hsecond := h.second_length
  unfold Timesheet.joinsSession at *
  rw [h.second_userId, ← h.first_userId, h.second_closes]
  simp only [Bool.and_eq_true, decide_eq_true_eq] at hfirst ⊢
  exact ⟨hfirst.1, by omega⟩

/-- **The time of the sessions divides**, but for what is earlier than its session. -/
theorem joinedTime_add (h : Adjacent first second whole) (now : Int) (db : Database) :
    joinedTime now db first + joinedTime now db second + earlyTime now db first second =
      joinedTime now db whole := by
  have hfirst : joinedTime now db first + earlyTime now db first second =
      ((db.workSessions.filter second.joinsSession).map fun ws => sessionTime now db first ws.id).sum := by
    refine sum_filter_parts _ (fun ws _ => ?_) fun ws _ => ?_
    · cases hjoins : first.joinsSession ws with
      | true => simp [h.joinsSession_of_first hjoins]
      | false => simp
    · cases first.joinsSession ws <;> simp
  have hwhole : joinedTime now db whole =
      ((db.workSessions.filter second.joinsSession).map fun ws =>
        sessionTime now db first ws.id + sessionTime now db second ws.id).sum := by
    unfold joinedTime Database.joinedSessions
    rw [← h.joinsSession]
    exact congrArg List.sum (List.map_congr_left fun ws _ => (sessionTime_add h now db ws.id).symm)
  rw [hwhole, List.sum_map_add, ← hfirst]
  unfold joinedTime Database.joinedSessions
  omega

/-- **Tracked time** adds up exactly when the rounding and the excess make no second. -/
theorem trackedSeconds_add_iff (h : Adjacent first second whole) (now : Int) (db : Database) :
    trackedSeconds now db first + trackedSeconds now db second = trackedSeconds now db whole ↔
      RoundsAway (dropped (reportedTime now db first) + dropped (reportedTime now db second) +
        excessTime now db first second whole) := by
  have hexcess : reportedTime now db whole - reportedTime now db first - reportedTime now db second =
      excessTime now db first second whole := by
    have hjoined := joinedTime_add h now db
    unfold reportedTime excessTime
    omega
  have hreport : ∀ ts, trackedSeconds now db ts = toBigint (reportedTime now db ts) := by
    intro ts
    rw [← trackedMicros_eq_reportedTime]
    rfl
  rw [hreport, hreport, hreport, toBigint_add_iff (reportedTime_nonneg _ _ _)
    (reportedTime_nonneg _ _ _) (reportedTime_nonneg _ _ _), hexcess]

/-! ## The totals -/

/-- The condition: no time off touches both periods, and what the sums of the two periods leave out
when they are rounded, with the excess of the empty rows, makes no second. -/
structure AddsUp (now : Int) (db : Database) (first second whole : Timesheet) : Prop where
  timeOff : NoneAcross db first second
  manual : RoundsAway (dropped (manualTime db first) + dropped (manualTime db second))
  tracked : RoundsAway (dropped (reportedTime now db first) + dropped (reportedTime now db second) +
    excessTime now db first second whole)

/-- **The totals of two adjacent timesheets are those of the timesheet over both** exactly when the
condition holds, on every table of sessions, segments, manual entries, time off and holidays. -/
theorem timesheetTotals_add_iff (now : Int) (db : Database) (holidays : List Holiday)
    (first second whole : Timesheet) (h : Adjacent first second whole) (hrows : db.CheckedRows) :
    (timesheetTotals now db holidays first).add (timesheetTotals now db holidays second) =
        timesheetTotals now db holidays whole ↔
      AddsUp now db first second whole := by
  have hcolumns : (timesheetTotals now db holidays first).add (timesheetTotals now db holidays second) =
        timesheetTotals now db holidays whole ↔
      trackedSeconds now db first + trackedSeconds now db second = trackedSeconds now db whole ∧
        manualSeconds db first + manualSeconds db second = manualSeconds db whole ∧
        ptoSeconds db first + ptoSeconds db second = ptoSeconds db whole ∧
        holidaySeconds holidays first + holidaySeconds holidays second =
          holidaySeconds holidays whole := by
    unfold timesheetTotals TimesheetTotals.add timesheetRow
    simp only [TimesheetTotals.mk.injEq]
  rw [hcolumns, trackedSeconds_add_iff h, manualSeconds_add_iff h hrows, ptoSeconds_add_iff h hrows]
  constructor
  · rintro ⟨htracked, hmanual, htimeOff, _⟩
    exact ⟨htimeOff, hmanual, htracked⟩
  · rintro ⟨htimeOff, hmanual, htracked⟩
    exact ⟨htracked, hmanual, htimeOff, holidaySeconds_add h holidays⟩

end

/-- The worker of the office tracks an hour of the first day and an hour of the second; the session is
one that the pause between them does not end. -/
def twoDays : Database :=
  { office with
    workSessions := [{ id := 1, userId := some 1, deviceId := 1, projectId := some 1, taskId := none,
                       status := .stopped, note := "", startedAt := minutes 600,
                       endedAt := some (days 1 + minutes 60), createdAt := minutes 600,
                       updatedAt := days 1 + minutes 60 }]
    segments := [{ id := 1, sessionId := 1, startedAt := minutes 600,
                   endedAt := some (minutes 660) },
                 { id := 2, sessionId := 1, startedAt := days 1,
                   endedAt := some (days 1 + minutes 60) }]
    manualTimeEntries := [{ id := 1, userId := 1, projectId := 1, taskId := none,
                            startedAt := days 1 - minutes 30, endedAt := days 1 + minutes 30,
                            note := "", status := .approved }] }

theorem timesheetTotals_add_iff_twoDays :
    (timesheetTotals (days 2) twoDays [⟨1, 1, 60⟩] ⟨1, 1, 0, 0, .«open»⟩).add
        (timesheetTotals (days 2) twoDays [⟨1, 1, 60⟩] ⟨2, 1, 1, 1, .«open»⟩) =
        timesheetTotals (days 2) twoDays [⟨1, 1, 60⟩] ⟨3, 1, 0, 1, .«open»⟩ ↔
      AddsUp (days 2) twoDays ⟨1, 1, 0, 0, .«open»⟩ ⟨2, 1, 1, 1, .«open»⟩ ⟨3, 1, 0, 1, .«open»⟩ :=
  timesheetTotals_add_iff (days 2) twoDays [⟨1, 1, 60⟩] ⟨1, 1, 0, 0, .«open»⟩ ⟨2, 1, 1, 1, .«open»⟩
    ⟨3, 1, 0, 1, .«open»⟩ ⟨rfl, rfl, rfl, rfl, rfl, by decide, by decide⟩
    ⟨by decide +kernel, by decide +kernel⟩

/-! ## Totals that do not add up -/

/-- The worker of the office is on leave from the first day to the second. -/
def leaveAcross : Database :=
  { twoDays with
    timeOffRequests := [{ id := 1, userId := 1, startsOn := 0, endsOn := 1, minutes := 480,
                          status := .approved }] }

/-- The leave is paid in full in both periods. -/
theorem timesheetTotals_notAdditive :
    ¬ ∀ (now : Int) (db : Database) (holidays : List Holiday) (first second whole : Timesheet),
      Adjacent first second whole → db.CheckedRows → (∀ g ∈ db.segments, g.endedAt.isSome) →
      (timesheetTotals now db holidays first).add (timesheetTotals now db holidays second) =
        timesheetTotals now db holidays whole := by
  intro h
  have hsum := h (days 2) leaveAcross [] ⟨1, 1, 0, 0, .«open»⟩ ⟨2, 1, 1, 1, .«open»⟩
    ⟨3, 1, 0, 1, .«open»⟩ ⟨rfl, rfl, rfl, rfl, rfl, by decide, by decide⟩
    ⟨by decide +kernel, by decide +kernel⟩ (by decide +kernel)
  exact absurd hsum (by decide +kernel)

end Dayfinch
