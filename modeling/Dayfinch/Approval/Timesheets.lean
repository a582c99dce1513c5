/-
# Dayfinch.Approval.Timesheets -- timesheets, manual time and time off, and what is reported for them

`submitTimesheet` and `reviewTimesheet` are the two operations on a timesheet, `addManualTime` and
`reviewItem` those on the hours that are not tracked, and `listTimesheets` is the report: for each
timesheet the tracked, manual and time-off seconds of its period. The report reads the server clock,
since an open segment counts up to now.

The tracked seconds are a sum over two `LEFT JOIN`s, from the timesheet to the sessions begun before
the period's end and from a session to its segments in the period. Where a join finds nothing it
leaves an empty row, and in PostgreSQL `COALESCE`, `LEAST` and `GREATEST` pass over the nulls of that
row: it counts from the start of the period up to now.
-/
import Dayfinch.Work.Step

namespace Dayfinch

open Library (updateWhere leftJoin)

/-! ## Periods -/

/-- `period_start::timestamp`. -/
def Timesheet.opens (ts : Timesheet) : Int := startOfDay ts.periodStart

/-- `period_end::timestamp + INTERVAL '1 day'`. -/
def Timesheet.closes (ts : Timesheet) : Int := startOfDay (ts.periodEnd + 1)

/-- `work_date BETWEEN period_start AND period_end`. -/
def Timesheet.covers (ts : Timesheet) (workDate : Int) : Bool :=
  ts.periodStart ≤ workDate && workDate ≤ ts.periodEnd

/-- `daterange(period_start, period_end, '[]') && daterange(first, last, '[]')`. -/
def Timesheet.meets (ts : Timesheet) (first last : Int) : Bool :=
  ts.periodStart ≤ last && first ≤ ts.periodEnd

/-! ## Submission and review -/

/-- The user has a pending manual entry that starts in the period, or a pending request for time off
in it. -/
def pendingItems (db : Database) (userId : Nat) (periodStart periodEnd : Int) : Bool :=
  (db.manualTimeEntries.any fun m =>
    m.userId == userId && m.status == .pending && periodStart ≤ dateOf m.startedAt &&
      dateOf m.startedAt ≤ periodEnd) ||
  db.timeOffRequests.any fun r =>
    r.userId == userId && r.status == .pending && r.startsOn ≤ periodEnd && periodStart ≤ r.endsOn

/-- `submit_timesheet`. -/
def submitTimesheet (db : Database) (userId : Nat) (periodStart periodEnd : Int) :
    Except Error Database := do
  raiseIf (db.workSessions.any fun ws => ws.userId == some userId && ws.live)
    "Stop the active work session before submitting"
  raiseIf (pendingItems db userId periodStart periodEnd)
    "Resolve pending manual-time and time-off requests before submitting"
  match db.timesheets.find? fun ts =>
    ts.userId == userId && ts.periodStart == periodStart && ts.periodEnd == periodEnd with
  | some existing => do
    raiseIf (existing.status = .approved) "Approved timesheets are locked"
    return { db with
      timesheets :=
        updateWhere (·.id == existing.id) (fun ts => { ts with status := .submitted })
          db.timesheets }
  | none =>
    if (db.getUserAny userId).isNone then .error .foreignKeyViolation
    else if periodEnd < periodStart ∨ 31 < periodEnd - periodStart then .error .checkViolation
    else
      .ok { db with
        timesheets := db.timesheets ++
          [{ id := db.nextId, userId, periodStart, periodEnd, status := .submitted }]
        nextId := db.nextId + 1 }

/-- `review_timesheet`; a decision that is not a status is `none`. -/
def reviewTimesheet (db : Database) (timesheetId reviewerUserId : Nat)
    (decision : Option TimesheetStatus) : Except Error Database :=
  match decision with
  | some .approved | some .rejected =>
    match db.timesheets.find? (·.id == timesheetId) with
    | none => .error (.valueError "Timesheet not found")
    | some current => do
      raiseIf (current.status ≠ .submitted) "Only submitted timesheets can be reviewed"
      if (db.getUserAny reviewerUserId).isNone then .error .foreignKeyViolation
      else
        return { db with
          timesheets :=
            updateWhere (·.id == timesheetId)
              (fun ts => { ts with status := decision.getD ts.status }) db.timesheets }
  | _ => .error (.valueError "Decision must be approved or rejected")

/-! ## Manual time and time off -/

/-- `INSERT INTO manual_time_entries`; the caller has compared the ends. -/
def insertManualTimeEntry (db : Database) (row : ManualTimeEntry) : Except Error Database :=
  if (db.getUserAny row.userId).isNone ∨ (db.getProject row.projectId).isNone ∨
      row.taskId.any (fun t => (db.getTask t).isNone) then .error .foreignKeyViolation
  else
    .ok { db with manualTimeEntries := db.manualTimeEntries ++ [row], nextId := db.nextId + 1 }

/-- An approved timesheet of the user meets the dates on the two wall clocks. -/
def manualTimeLocked (db : Database) (userId : Nat) (startedAt endedAt : Datetime) : Bool :=
  db.timesheets.any fun ts =>
    ts.userId == userId && ts.status == .approved && ts.meets startedAt.date endedAt.date

/-- The row of a manual entry. -/
def newManualTimeEntry (db : Database) (userId projectId : Nat) (taskId : Option Nat)
    (startedAt endedAt : Datetime) (note : String) (autoApprove : Bool) : ManualTimeEntry where
  id := db.nextId
  userId := userId
  projectId := projectId
  taskId := taskId
  startedAt := startedAt.toTimestamptz
  endedAt := endedAt.toTimestamptz
  note := cleanNote note
  status := if autoApprove then .approved else .pending

/-- `add_manual_time`. The lock looks at the dates on the wall clocks of the two datetimes, and
`daterange` refuses bounds in the wrong order. -/
def addManualTime (db : Database) (userId projectId : Nat) (taskId : Option Nat)
    (startedAt endedAt : Datetime) (note : String) (autoApprove : Bool) : Except Error Database :=
  match endedAt.le? startedAt with
  | none => .error .typeError
  | some reversed => do
    raiseIf (reversed = true) "End time must be after start time"
    if endedAt.date < startedAt.date then .error .dataException
    else do
      raiseIf (manualTimeLocked db userId startedAt endedAt = true)
        "Approved timesheets are locked"
      insertManualTimeEntry db
        (newManualTimeEntry db userId projectId taskId startedAt endedAt note autoApprove)

/-- The tables of `review_item` that the report reads. -/
inductive ReviewTable
  | manualTimeEntries | timeOffRequests
  deriving DecidableEq, Repr

/-- `review_item`, on the two tables; a status that the table does not take is `none`. Only manual
time is checked against approved timesheets. -/
def reviewItem (db : Database) (table : ReviewTable) (itemId reviewerId : Nat)
    (status : Option ReviewStatus) : Except Error Database :=
  match status with
  | none | some .pending => .error (.valueError "Unsupported review decision")
  | some status =>
    match table with
    | .manualTimeEntries =>
      match db.manualTimeEntries.find? (·.id == itemId) with
      | none => .error (.valueError "Item not found")
      | some item => do
        raiseIf (db.isPeriodLocked item.userId (dateOf item.startedAt) = true)
          "Approved timesheets are locked"
        if (db.getUserAny reviewerId).isNone then .error .foreignKeyViolation
        else
          return { db with
            manualTimeEntries :=
              updateWhere (·.id == itemId) (fun m => { m with status }) db.manualTimeEntries }
    | .timeOffRequests =>
      match db.timeOffRequests.find? (·.id == itemId) with
      | none => .error (.valueError "Item not found")
      | some _ =>
        if (db.getUserAny reviewerId).isNone then .error .foreignKeyViolation
        else
          .ok { db with
            timeOffRequests :=
              updateWhere (·.id == itemId) (fun r => { r with status }) db.timeOffRequests }

/-! ## The report -/

/-- `GREATEST(0, LEAST(stop, period end) - GREATEST(start, period start))`. -/
def Timesheet.clip (ts : Timesheet) (start stop : Int) : Int :=
  max 0 (min stop ts.closes - max start ts.opens)

/-- What a joined row counts. The nulls of an empty row are passed over: it ends now, and starts
with the period. -/
def Timesheet.counted (now : Int) (ts : Timesheet) (row : Option Segment) : Int :=
  ts.clip (row.elim ts.opens (·.startedAt)) ((row.bind (·.endedAt)).getD now)

/-- The join condition on a session. -/
def Timesheet.joinsSession (ts : Timesheet) (ws : WorkSession) : Bool :=
  ws.userId == some ts.userId && ws.startedAt < ts.closes

/-- The join condition on a segment of the session. -/
def Timesheet.joinsSegment (now : Int) (ts : Timesheet) (sessionId : Nat) (g : Segment) : Bool :=
  g.sessionId == sessionId && g.startedAt < ts.closes && ts.opens ≤ g.endedAt.getD now

/-- The sessions a timesheet joins. -/
def Database.joinedSessions (db : Database) (ts : Timesheet) : List WorkSession :=
  db.workSessions.filter ts.joinsSession

/-- The segments a session joins. -/
def Database.joinedSegments (db : Database) (now : Int) (ts : Timesheet) (sessionId : Nat) :
    List Segment := db.segments.filter (ts.joinsSegment now sessionId)

/-- The rows of the two joins. -/
def joinedRows (now : Int) (db : Database) (ts : Timesheet) : List (Option Segment) :=
  (leftJoin (db.joinedSessions ts)).flatMap fun ws =>
    leftJoin (ws.elim [] fun ws => db.joinedSegments now ts ws.id)

/-- `tracked_seconds`. -/
def trackedSeconds (now : Int) (db : Database) (ts : Timesheet) : Int :=
  toBigint ((joinedRows now db ts).map (ts.counted now)).sum

/-- The manual entries that count for a timesheet. -/
def Timesheet.takesManual (ts : Timesheet) (m : ManualTimeEntry) : Bool :=
  m.userId == ts.userId && m.status == .approved && ts.covers (dateOf m.startedAt)

/-- `manual_seconds`. -/
def manualSeconds (db : Database) (ts : Timesheet) : Int :=
  toBigint ((db.manualTimeEntries.filter ts.takesManual).map fun m => m.endedAt - m.startedAt).sum

/-- The requests for time off that count for a timesheet. -/
def Timesheet.takesTimeOff (ts : Timesheet) (r : TimeOffRequest) : Bool :=
  r.userId == ts.userId && r.status == .approved && ts.meets r.startsOn r.endsOn

/-- `pto_seconds`. -/
def ptoSeconds (db : Database) (ts : Timesheet) : Int :=
  ((db.timeOffRequests.filter ts.takesTimeOff).map fun r => r.minutes * 60).sum

/-- A row of the report. -/
structure TimesheetRow where
  timesheet : Timesheet
  trackedSeconds : Int
  manualSeconds : Int
  ptoSeconds : Int
  deriving DecidableEq, Repr

/-- The row of one timesheet. -/
def timesheetRow (now : Int) (db : Database) (ts : Timesheet) : TimesheetRow where
  timesheet := ts
  trackedSeconds := trackedSeconds now db ts
  manualSeconds := manualSeconds db ts
  ptoSeconds := ptoSeconds db ts

/-- `list_timesheets`, for one user, for a list of users, or for everyone. The order of the rows is
left out. -/
def listTimesheets (now : Int) (db : Database) (userId : Option Nat) (userIds : Option (List Nat)) :
    Except Error (List TimesheetRow) := do
  raiseIf (userId.isSome ∧ userIds.isSome) "Choose one timesheet user scope"
  return (db.timesheets.filter fun ts =>
    (db.getUserAny ts.userId).isSome && userId.all (ts.userId == ·) &&
      userIds.all (·.contains ts.userId)).map (timesheetRow now db)

/-! ## Runs -/

/-- The database and the server clock. -/
structure TimesheetState where
  db : Database
  clock : Int

/-- An operation with its arguments; `tick` lets the server clock move on. -/
inductive TimesheetOp
  | tick (now : Int)
  | sync (tie : AgentStateEvent → Nat) (call : SyncCall)
  | addManualTime (userId projectId : Nat) (taskId : Option Nat) (startedAt endedAt : Datetime)
      (note : String) (autoApprove : Bool)
  | reviewItem (table : ReviewTable) (itemId reviewerId : Nat) (status : Option ReviewStatus)
  | submitTimesheet (userId : Nat) (periodStart periodEnd : Int)
  | reviewTimesheet (timesheetId reviewerUserId : Nat) (decision : Option TimesheetStatus)

/-- The transaction of an operation at the server clock `now`. -/
def TimesheetOp.run (now : Int) (db : Database) : TimesheetOp → Except Error Database
  | .tick _ => .ok db
  | .sync tie call => (syncWorkSession tie now db call).map (·.1)
  | .addManualTime userId projectId taskId startedAt endedAt note autoApprove =>
    Dayfinch.addManualTime db userId projectId taskId startedAt endedAt note autoApprove
  | .reviewItem table itemId reviewerId status => Dayfinch.reviewItem db table itemId reviewerId status
  | .submitTimesheet userId periodStart periodEnd =>
    Dayfinch.submitTimesheet db userId periodStart periodEnd
  | .reviewTimesheet timesheetId reviewerUserId decision =>
    Dayfinch.reviewTimesheet db timesheetId reviewerUserId decision

/-- The server clock after an operation: it never goes back. -/
def TimesheetOp.clockAfter (clock : Int) : TimesheetOp → Int
  | .tick now => max clock now
  | _ => clock

/-- One step. -/
def timesheetStep (s : TimesheetState) (op : TimesheetOp) : TimesheetState where
  db := commit s.db (op.run s.clock s.db)
  clock := op.clockAfter s.clock

/-- Nobody has worked, submitted a timesheet or entered manual time yet. -/
def Database.withoutTime (db : Database) : Database :=
  { db.withoutWork with timesheets := [], manualTimeEntries := [] }

end Dayfinch
