/-
# Dayfinch.Payroll.Approved -- what is approved and what is paid

A member who requires approval is paid for the periods of approved timesheets. The reviewer has seen the
tracked and manual seconds of `list_timesheets`, and the payroll run computes its seconds anew, from the
same rows and by other rules. The timesheet cuts tracked time at the midnights of UTC, and payroll at those
of the organization's zone; the timesheet takes a manual entry as a whole where its UTC date falls, and
payroll cuts it like tracked time; the empty rows of the timesheet's joins count, and sessions that began
after the period do not; a stretch whose local clock does not move on is not paid; and the timesheet rounds
its sums, where payroll drops the fractions of each local day.

Both sums are taken apart row by row here. `paidMicros` is what payroll counts of one row, in closed form,
and `PaidIsShown` says when the differences of all rows make up for each other.
-/
import Dayfinch.Approval.Additive
import Dayfinch.Payroll.Windows

namespace Dayfinch

open Library (LocalTime bind_eq_ok sum_filter sum_filterMap sum_map_zero)

/-! ## What payroll counts of a row -/

section

variable {zone : ZoneInfo} {cursor localEnd : LocalTime}

/-- The fractions of a second that the days from the cursor to the end leave out: those of the first and of
the last day, since every midnight is a whole second. -/
def dayFractions (zone : ZoneInfo) (cursor localEnd : LocalTime) : Int :=
  if localEnd.wall ≤ startOfDay (dateOf cursor.wall + 1) then
    (zone.toutc localEnd - zone.toutc cursor).tmod 1000000
  else
    (midnightOf zone (dateOf cursor.wall + 1) - zone.toutc cursor).tmod 1000000 +
      (zone.toutc localEnd - midnightOf zone (dateOf (localEnd.wall - 1))).tmod 1000000

theorem DaySlice.seconds_mul (zone : ZoneInfo) (slice : DaySlice) :
    slice.seconds zone * 1000000 = slice.elapsed zone - (slice.elapsed zone).tmod 1000000 :=
  Int.tdiv_mul_self _ _

/-- From a midnight on, only the last day has a fraction. -/
theorem dayFractions_localMidnight {day : Int} (hlt : startOfDay day < localEnd.wall) :
    dayFractions zone (localMidnight day) localEnd =
      (zone.toutc localEnd - midnightOf zone (dateOf (localEnd.wall - 1))).tmod 1000000 := by
  unfold dayFractions
  rw [dateOf_localMidnight]
  by_cases hlast : localEnd.wall ≤ startOfDay (day + 1)
  · have hday : dateOf (localEnd.wall - 1) = day := dateOf_eq_iff.mpr ⟨by omega, by omega⟩
    rw [if_pos hlast, hday]
    rfl
  · have hwhole : (midnightOf zone (day + 1) - zone.toutc (localMidnight day)).tmod 1000000 = 0 :=
      Int.tmod_eq_zero_of_dvd
        (Int.dvd_sub (toutc_localMidnight_whole _) (toutc_localMidnight_whole _))
    rw [if_neg hlast, hwhole, Int.zero_add]

/-- **The days of an interval** add up to its elapsed time, but for the fractions. -/
theorem sum_seconds_daySlices (h : cursor.wall < localEnd.wall) :
    ((daySlices (localDays cursor localEnd) cursor localEnd).map (DaySlice.seconds zone)).sum * 1000000 =
      zone.toutc localEnd - zone.toutc cursor - dayFractions zone cursor localEnd := by
  have hrule : ((daySlices (localDays cursor localEnd) cursor localEnd).map
        (DaySlice.seconds zone)).sum * 1000000 = zone.toutc localEnd - zone.toutc cursor -
      if cursor.wall < localEnd.wall then dayFractions zone cursor localEnd else 0 := by
    refine daySlices_rule
      (P := fun cursor slices => (slices.map (DaySlice.seconds zone)).sum * 1000000 =
        zone.toutc localEnd - zone.toutc cursor -
          if cursor.wall < localEnd.wall then dayFractions zone cursor localEnd else 0)
      ?_ ?_ _ cursor le_rfl (.inl h)
    · rw [if_neg (lt_irrefl _)]
      simp
    intro cursor rest hlt ih
    rw [List.map_cons, List.sum_cons, Int.add_mul, DaySlice.seconds_mul, ih, if_pos hlt]
    show zone.toutc (dayBoundary cursor localEnd) - zone.toutc cursor -
      (zone.toutc (dayBoundary cursor localEnd) - zone.toutc cursor).tmod 1000000 + _ = _
    -- a turn ends at the next midnight or at the end of the interval
    rcases dayBoundary_cases cursor localEnd with ⟨hnext, hboundary⟩ | ⟨hend, hboundary⟩
    · have hwall : (localMidnight (dateOf cursor.wall + 1)).wall < localEnd.wall := hnext
      rw [hboundary, if_pos hwall, dayFractions_localMidnight hnext, dayFractions,
        if_neg (not_le.mpr hnext)]
      unfold midnightOf
      omega
    · rw [hboundary, if_neg (lt_irrefl _), dayFractions, if_pos hend]
      omega
  rw [if_pos h] at hrule
  exact hrule

end

/-- What payroll counts of a row, in microseconds: its time between the two local midnights without the
fractions, or nothing where the local clock shows no later time at the end than at the start. -/
def paidMicros (zone : ZoneInfo) (first last : Int) (row : Int × Int) : Int :=
  let part := clipRow zone (localMidnight first) (localMidnight (last + 1)) row
  let cursor := part.1.astimezone zone
  let localEnd := part.2.astimezone zone
  if HasPart zone (localMidnight first) (localMidnight (last + 1)) row ∧ cursor.wall < localEnd.wall then
    min row.2 (midnightOf zone (last + 1)) - max row.1 (midnightOf zone first) -
      dayFractions zone cursor localEnd
  else 0

section

variable {zone : ZoneInfo} {db : Database} {userId : Nat} {first last : Int}

/-- The slices of a row add up to what payroll counts of it. -/
theorem sum_seconds_rowSlices (row : Int × Int) :
    ((rowSlices zone (localMidnight first) (localMidnight (last + 1)) row).map
      (DaySlice.seconds zone)).sum * 1000000 = paidMicros zone first last row := by
  obtain ⟨hstart, hend⟩ := clipRow_instants zone (localMidnight first) (localMidnight (last + 1)) row
  unfold rowSlices paidMicros
  by_cases hpart : HasPart zone (localMidnight first) (localMidnight (last + 1)) row
  · rw [if_pos hpart]
    by_cases henters :
        ((clipRow zone (localMidnight first) (localMidnight (last + 1)) row).1.astimezone zone).wall <
          ((clipRow zone (localMidnight first) (localMidnight (last + 1)) row).2.astimezone zone).wall
    · rw [if_pos ⟨hpart, henters⟩]
      refine Eq.trans (sum_seconds_daySlices henters) ?_
      rw [Stamp.toutc_astimezone, Stamp.toutc_astimezone, hstart, hend]
      rfl
    · rw [if_neg fun h => henters h.2, intervalSlices_eq_nil henters]
      rfl
  · rw [if_neg hpart, if_neg fun h => hpart h.1]
    rfl

/-- **What payroll classes into weeks**, row by row. -/
theorem sum_weeks (hle : first ≤ last) {weekStartsOn : Int} {weeks : List (Int × Int)}
    (hweeks : payrollWeekSeconds zone weekStartsOn db userId first last = .ok weeks) :
    (weeks.map (·.2)).sum * 1000000 =
      ((paidTime db userId).map (paidMicros zone first last)).sum := by
  obtain ⟨_, rfl⟩ := (payrollWeekSeconds_eq_ok_iff hle weekStartsOn).mp hweeks
  rw [sum_weekSeconds, sum_partIntervals, ← List.sum_map_mul_right]
  exact congrArg List.sum (List.map_congr_left fun row _ => sum_seconds_rowSlices row)

end

/-! ## What is shown and not paid -/

/-- The time of a segment that the timesheet shows, less what payroll counts of it. -/
def segmentDrift (zone : ZoneInfo) (now : Int) (ts : Timesheet) (ws : WorkSession) (g : Segment) : Int :=
  (if ts.joinsSession ws then ts.counted now (some g) else 0) -
    g.endedAt.elim 0 fun e => paidMicros zone ts.periodStart ts.periodEnd (g.startedAt, e)

/-- The tracked time that is shown and not paid, with the empty rows of the joins. -/
def trackedDrift (zone : ZoneInfo) (now : Int) (db : Database) (ts : Timesheet) : Int :=
  ((db.workSessions.filter (·.userId == some ts.userId)).map fun ws =>
      ((db.segments.filter (·.sessionId == ws.id)).map (segmentDrift zone now ts ws)).sum).sum +
    emptyRows now db ts * idleTime now ts

/-- The time of an approved entry that the timesheet shows, less what payroll counts of it. -/
def entryDrift (zone : ZoneInfo) (ts : Timesheet) (m : ManualTimeEntry) : Int :=
  (if ts.covers (dateOf m.startedAt) then m.endedAt - m.startedAt else 0) -
    paidMicros zone ts.periodStart ts.periodEnd (m.startedAt, m.endedAt)

/-- The manual time that is shown and not paid. -/
def manualDrift (zone : ZoneInfo) (db : Database) (ts : Timesheet) : Int :=
  ((db.manualTimeEntries.filter fun m => m.userId == ts.userId && m.status == .approved).map
    (entryDrift zone ts)).sum

/-- **The condition**: what is shown and not paid, over all rows, is what the two columns leave out when
they are rounded to seconds. -/
def PaidIsShown (zone : ZoneInfo) (now : Int) (db : Database) (ts : Timesheet) : Prop :=
  trackedDrift zone now db ts + manualDrift zone db ts =
    dropped (reportedTime now db ts) + dropped (manualTime db ts)

instance (zone : ZoneInfo) (now : Int) (db : Database) (ts : Timesheet) :
    Decidable (PaidIsShown zone now db ts) := inferInstanceAs (Decidable (_ = _))

section

variable {zone : ZoneInfo} {db : Database} {ts : Timesheet}

/-- What payroll counts of the segments. -/
def paidTracked (zone : ZoneInfo) (db : Database) (ts : Timesheet) : Int :=
  ((db.workSessions.filter (·.userId == some ts.userId)).map fun ws =>
    ((db.segments.filter (·.sessionId == ws.id)).map fun g =>
      g.endedAt.elim 0 fun e => paidMicros zone ts.periodStart ts.periodEnd (g.startedAt, e)).sum).sum

/-- What payroll counts of the manual entries. -/
def paidManual (zone : ZoneInfo) (db : Database) (ts : Timesheet) : Int :=
  ((db.manualTimeEntries.filter fun m => m.userId == ts.userId && m.status == .approved).map fun m =>
    paidMicros zone ts.periodStart ts.periodEnd (m.startedAt, m.endedAt)).sum

theorem sum_closed (f : Int × Int → Int) (segments : List Segment) :
    ((segments.filterMap fun g => g.endedAt.map fun e => (g.startedAt, e)).map f).sum =
      (segments.map fun g => g.endedAt.elim 0 fun e => f (g.startedAt, e)).sum := by
  rw [sum_filterMap]
  refine congrArg List.sum (List.map_congr_left fun g _ => ?_)
  cases g.endedAt with
  | none => rfl
  | some e => rfl

/-- The rows of payroll are the segments and the manual entries. -/
theorem sum_paidTime :
    ((paidTime db ts.userId).map (paidMicros zone ts.periodStart ts.periodEnd)).sum =
      paidTracked zone db ts + paidManual zone db ts := by
  unfold paidTime paidTracked paidManual
  rw [List.map_append, List.sum_append, List.map_map, List.map_flatMap, List.flatMap_def,
    List.sum_flatten, List.map_map]
  congr 1
  exact congrArg List.sum (List.map_congr_left fun ws _ => sum_closed _ _)

/-- The tracked time that is shown is what is paid of it and the drift. -/
theorem reportedTime_eq (now : Int) :
    reportedTime now db ts = paidTracked zone db ts + trackedDrift zone now db ts := by
  have hjoined : joinedTime now db ts =
      ((db.workSessions.filter (·.userId == some ts.userId)).map fun ws =>
        ((db.segments.filter (·.sessionId == ws.id)).map fun g =>
          if ts.joinsSession ws then ts.counted now (some g) else 0).sum).sum := by
    unfold joinedTime Database.joinedSessions
    rw [sum_filter, sum_filter]
    refine congrArg List.sum (List.map_congr_left fun ws _ => ?_)
    unfold sessionTime
    rw [← sum_filter]
    by_cases hjoins : ts.joinsSession ws = true
    · have huser : (ws.userId == some ts.userId) = true := by
        unfold Timesheet.joinsSession at hjoins
        rw [Bool.and_eq_true] at hjoins
        exact hjoins.1
      simp only [if_pos hjoins, if_pos huser]
    · simp only [if_neg hjoins]
      split
      · simp
      · rfl
  unfold reportedTime trackedDrift paidTracked
  rw [hjoined, ← Int.add_assoc, ← List.sum_map_add]
  congr 2
  apply List.map_congr_left
  intro ws _
  rw [← List.sum_map_add]
  refine congrArg List.sum (List.map_congr_left fun g _ => ?_)
  unfold segmentDrift
  omega

/-- The manual time that is shown is what is paid of it and the drift. -/
theorem manualTime_eq : manualTime db ts = paidManual zone db ts + manualDrift zone db ts := by
  have htaken : manualTime db ts =
      ((db.manualTimeEntries.filter fun m => m.userId == ts.userId && m.status == .approved).map
        fun m => if ts.covers (dateOf m.startedAt) then m.endedAt - m.startedAt else 0).sum := by
    unfold manualTime
    rw [sum_filter, sum_filter]
    refine congrArg List.sum (List.map_congr_left fun m _ => ?_)
    unfold Timesheet.takesManual
    cases m.userId == ts.userId && m.status == .approved with
    | true => rw [Bool.true_and, if_pos rfl]
    | false => rw [Bool.false_and, if_neg Bool.false_ne_true, if_neg Bool.false_ne_true]
  unfold manualDrift paidManual
  rw [htaken, ← List.sum_map_add]
  refine congrArg List.sum (List.map_congr_left fun m _ => ?_)
  unfold entryDrift
  omega

/-- The two columns are the seconds that payroll classes exactly under the condition. -/
theorem sum_weeks_eq_iff {weekStartsOn : Int} {weeks : List (Int × Int)}
    (hle : ts.periodStart ≤ ts.periodEnd)
    (hweeks : payrollWeekSeconds zone weekStartsOn db ts.userId ts.periodStart ts.periodEnd = .ok weeks)
    (now : Int) :
    (weeks.map (·.2)).sum = trackedSeconds now db ts + manualSeconds db ts ↔
      PaidIsShown zone now db ts := by
  have hpaid := sum_weeks hle hweeks
  rw [sum_paidTime] at hpaid
  have htracked : trackedSeconds now db ts = toBigint (reportedTime now db ts) := by
    rw [← trackedMicros_eq_reportedTime]
    rfl
  have hmanual : manualSeconds db ts = toBigint (manualTime db ts) := rfl
  have hreported : reportedTime now db ts = paidTracked zone db ts + trackedDrift zone now db ts :=
    reportedTime_eq now
  have hentries : manualTime db ts = paidManual zone db ts + manualDrift zone db ts := manualTime_eq
  unfold PaidIsShown dropped
  rw [htracked, hmanual]
  omega

/-- **Rows that both count alike** are paid as they are shown, in any zone: no row is counted by one more
than by the other, the joins have no empty row, and the two columns are whole seconds. -/
theorem PaidIsShown.of_rows {now : Int}
    (hsegments : ∀ ws ∈ db.workSessions, ws.userId = some ts.userId → ∀ g ∈ db.segments,
      g.sessionId = ws.id → segmentDrift zone now ts ws g = 0)
    (hempty : emptyRows now db ts = 0)
    (hentries : ∀ m ∈ db.manualTimeEntries, m.userId = ts.userId → m.status = .approved →
      entryDrift zone ts m = 0)
    (hwhole : 1000000 ∣ reportedTime now db ts ∧ 1000000 ∣ manualTime db ts) :
    PaidIsShown zone now db ts := by
  have htracked : trackedDrift zone now db ts = 0 := by
    unfold trackedDrift
    rw [hempty, Int.zero_mul, Int.add_zero]
    refine sum_map_zero fun ws hws => sum_map_zero fun g hg => ?_
    obtain ⟨hws, huser⟩ := List.mem_filter.mp hws
    obtain ⟨hg, hsession⟩ := List.mem_filter.mp hg
    exact hsegments ws hws (by simpa using huser) g hg (by simpa using hsession)
  have hmanual : manualDrift zone db ts = 0 := by
    refine sum_map_zero fun m hm => ?_
    obtain ⟨hm, hboth⟩ := List.mem_filter.mp hm
    rw [Bool.and_eq_true, beq_iff_eq, beq_iff_eq] at hboth
    exact hentries m hm hboth.1 hboth.2
  unfold PaidIsShown dropped toBigint
  rw [htracked, hmanual]
  omega

end

/-! ## A payroll run -/

/-- An accepted run has classed the time of its period, and stores the minutes. -/
theorem createPayroll_hours {s s' : PayrollState} {userId : Nat} {periodStart periodEnd : Int}
    {currency : Option String} (h : createPayroll s userId periodStart periodEnd currency = .ok s') :
    periodStart ≤ periodEnd ∧ ∃ zone hours p, s.zone = some zone ∧
      payrollHours zone s.settings s.db userId periodStart periodEnd = .ok hours ∧
      s'.payments = s.payments ++ [p] ∧ p.regularMinutes = hours.regular ∧
      p.overtimeMinutes = hours.overtime := by
  unfold createPayroll at h
  obtain ⟨_, hperiod, h⟩ := bind_eq_ok.mp h
  obtain ⟨_, _, h⟩ := bind_eq_ok.mp h
  refine ⟨not_lt.mp (raiseIf_eq_ok.mp hperiod), ?_⟩
  split at h
  · simp at h
  split at h
  · simp at h
  obtain ⟨_, _, h⟩ := bind_eq_ok.mp h
  obtain ⟨_, _, h⟩ := bind_eq_ok.mp h
  obtain ⟨_, _, h⟩ := bind_eq_ok.mp h
  split at h
  · simp at h
  rename_i zone hzone
  obtain ⟨_, _, h⟩ := bind_eq_ok.mp h
  obtain ⟨hours, hhours, h⟩ := bind_eq_ok.mp h
  cases h
  exact ⟨zone, hours, _, hzone, hhours, rfl, rfl, rfl⟩

/-- The weeks of the hours are those of `payrollWeekSeconds`. -/
theorem weekSeconds_of_payrollHours {zone : ZoneInfo} {settings : PayrollSettings} {db : Database}
    {userId : Nat} {periodStart periodEnd : Int} {hours : PayrollHours}
    (h : payrollHours zone settings db userId periodStart periodEnd = .ok hours) :
    payrollWeekSeconds zone settings.weekStartsOn db userId periodStart periodEnd =
      .ok hours.weekSeconds := by
  obtain ⟨weeks, hweeks, h⟩ := bind_eq_ok.mp h
  obtain ⟨_, _, h⟩ := bind_eq_ok.mp h
  cases h
  exact hweeks

/-- **What is approved is what is paid, exactly under the condition**: whenever a payroll run for the period
of a timesheet succeeds, the seconds that it classes into weeks are the tracked and manual seconds that the
list of timesheets shows, at any time, if and only if what is shown and not paid comes to what the rounding
leaves out. -/
theorem approvedIsPaid_iff {s s' : PayrollState} {now : Int} {userId : Option Nat}
    {userIds : Option (List Nat)} {rows : List TimesheetRow} {row : TimesheetRow}
    {currency : Option String} (hlist : listTimesheets now s.db userId userIds = .ok rows)
    (hrow : row ∈ rows)
    (hpaid : createPayroll s row.timesheet.userId row.timesheet.periodStart row.timesheet.periodEnd
      currency = .ok s') :
    ∃ zone hours p, s.zone = some zone ∧
      payrollHours zone s.settings s.db row.timesheet.userId row.timesheet.periodStart
        row.timesheet.periodEnd = .ok hours ∧
      s'.payments = s.payments ++ [p] ∧ p.regularMinutes = hours.regular ∧
      p.overtimeMinutes = hours.overtime ∧
      ((hours.weekSeconds.map (·.2)).sum = row.trackedSeconds + row.manualSeconds ↔
        PaidIsShown zone now s.db row.timesheet) := by
  obtain ⟨hle, zone, hours, p, hzone, hhours, hpayments, hregular, hovertime⟩ := createPayroll_hours hpaid
  refine ⟨zone, hours, p, hzone, hhours, hpayments, hregular, hovertime, ?_⟩
  obtain ⟨_, _, hlist⟩ := bind_eq_ok.mp hlist
  cases hlist
  obtain ⟨ts, _, rfl⟩ := List.mem_map.mp hrow
  exact sum_weeks_eq_iff hle (weekSeconds_of_payrollHours hhours) now

/-- The organization of `noonPayroll`, whose member needs an approved timesheet and has one over both days;
the segments and the zone are those that are passed. -/
def approvedHours (segments : List Segment) (zone : ZoneInfo) : PayrollState :=
  { noonPayroll with
    db := { noonHours with
      segments
      timesheets := [{ id := 1, userId := 1, periodStart := 10, periodEnd := 11, status := .approved }] }
    members := [{ userId := 1, payRate := 2000, requireTimesheetApproval := true }]
    zone := some zone }

/-- The row of the timesheet, with these seconds of tracked time. -/
def approvedRow (trackedSeconds : Int) : TimesheetRow where
  timesheet := { id := 1, userId := 1, periodStart := 10, periodEnd := 11, status := .approved }
  trackedSeconds := trackedSeconds
  manualSeconds := 0
  ptoSeconds := 0

/-- In UTC the two hours are paid as they are shown. -/
theorem approvedIsPaid_iff_noon :
    ∃ hours, payrollHours (hoursAhead 0) noonPayroll.settings
        (approvedHours noonHours.segments (hoursAhead 0)).db 1 10 11 = .ok hours ∧
      (hours.weekSeconds.map (·.2)).sum = 7200 := by
  obtain ⟨s', hs'⟩ : ∃ s', createPayroll (approvedHours noonHours.segments (hoursAhead 0)) 1 10 11
      (some "USD") = .ok s' := ⟨_, rfl⟩
  have hlist : listTimesheets (days 20) (approvedHours noonHours.segments (hoursAhead 0)).db none none =
      .ok [approvedRow 7200] := by decide +kernel
  obtain ⟨zone, hours, p, hzone, hhours, _, _, _, hiff⟩ :=
    approvedIsPaid_iff hlist (List.mem_singleton.mpr rfl) hs'
  cases hzone
  refine ⟨hours, hhours, hiff.mpr ?_⟩
  decide +kernel

/-- An hour of the tenth day from noon, and one that begins at the midnight of UTC that ends the eleventh;
five hours behind UTC it is an hour of the evening. -/
def eveningHour : List Segment :=
  [{ id := 1, sessionId := 1, startedAt := days 10 + minutes 720,
     endedAt := some (days 10 + minutes 780) },
   { id := 2, sessionId := 1, startedAt := days 12, endedAt := some (days 12 + minutes 60) }]

/-- **What is paid is not what was approved**: the timesheet shows one hour, and two are paid. -/
theorem approvedIsPaid_evening :
    ¬ ∀ (s s' : PayrollState) (now : Int) (rows : List TimesheetRow) (row : TimesheetRow)
      (member : PayrollMember) (currency : Option String),
      listTimesheets now s.db none none = .ok rows → row ∈ rows → row.timesheet.status = .approved →
      s.activeMember row.timesheet.userId = some member → member.requireTimesheetApproval = true →
      createPayroll s row.timesheet.userId row.timesheet.periodStart row.timesheet.periodEnd currency =
        .ok s' →
      ∀ zone hours, s.zone = some zone →
        payrollHours zone s.settings s.db row.timesheet.userId row.timesheet.periodStart
          row.timesheet.periodEnd = .ok hours →
        (hours.weekSeconds.map (·.2)).sum = row.trackedSeconds + row.manualSeconds := by
  intro h
  obtain ⟨s', hs'⟩ : ∃ s', createPayroll (approvedHours eveningHour (hoursAhead (-5))) 1 10 11
      (some "USD") = .ok s' := ⟨_, rfl⟩
  have hlist : listTimesheets (days 20) (approvedHours eveningHour (hoursAhead (-5))).db none none =
      .ok [approvedRow 3600] := by decide +kernel
  have hhours : payrollHours (hoursAhead (-5)) noonPayroll.settings
      (approvedHours eveningHour (hoursAhead (-5))).db 1 10 11 =
      .ok { weekSeconds := [(4, 3600), (11, 3600)], regular := 120, overtime := 0 } := by
    decide +kernel
  have hsum := h _ s' (days 20) _ (approvedRow 3600)
    { userId := 1, payRate := 2000, requireTimesheetApproval := true } (some "USD") hlist
    (List.mem_singleton.mpr rfl) rfl rfl rfl hs' _ _ rfl hhours
  exact absurd hsum (by decide +kernel)

end Dayfinch
