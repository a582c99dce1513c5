/-
# Dayfinch.Reports.TimeRows -- the three reports of time over a window

`time_report`, `custom_time_report` and `quickbooks_time_rows` report the tracked and manual time between
two instants. The first two give a row for each session and each manual entry, with its time in the window
rounded to seconds; the third cuts every stretch of time at the midnights of a report zone, rounds each piece,
and adds up the pieces of one user, project, task, note and local day.

A row keeps the id of its session or entry, by which the queries group; the names that are joined for display
are left out, and so is what is counted from activity records. Orders that the caller sees only through
`LIMIT` have a rank `tie` for equal keys, which covers every order the database may choose.
-/
import Dayfinch.Approval.Timesheets

namespace Dayfinch

open Library (orderBy)

/-! ## Windows -/

/-- `started_at < upper AND ended_at > lower`. -/
def inWindow (lower upper : Int) (span : Int × Int) : Bool := span.1 < upper && lower < span.2

/-- `LEAST(ended_at, upper) - GREATEST(started_at, lower)`. -/
def clipped (lower upper : Int) (span : Int × Int) : Int := min span.2 upper - max span.1 lower

/-- `LIMIT`. -/
def limited {ρ : Type} (limit : Option Int) (rows : List ρ) : List ρ :=
  match limit with
  | none => rows
  | some limit => rows.take limit.toNat

/-! ## A row for each session and entry -/

/-- What a row is grouped by: `ws.id`, or the id of a manual entry. -/
inductive EntryKey
  | session (id : Nat)
  | manual (id : Nat)
  deriving DecidableEq, Repr

/-- `time_type` and `status`. -/
inductive EntrySource
  | tracked (status : SessionStatus)
  | manual (status : ReviewStatus)
  deriving DecidableEq, Repr

/-- A row of `time_report` or `custom_time_report`. -/
structure TimeRow where
  entry : EntryKey
  userId : Option Nat
  projectId : Option Nat
  taskId : Option Nat
  startedAt : Int
  endedAt : Option Int
  source : EntrySource
  seconds : Int
  deriving DecidableEq, Repr

/-- The segments of a session; an open one ends now. -/
def sessionSpans (now : Int) (db : Database) (ws : WorkSession) : List (Int × Int) :=
  (db.segments.filter (·.sessionId == ws.id)).map fun g => (g.startedAt, g.endedAt.getD now)

/-- The row of a session with a segment in the window. -/
def trackedRow (now : Int) (db : Database) (lower upper : Int) (ws : WorkSession) : Option TimeRow :=
  let spans := (sessionSpans now db ws).filter (inWindow lower upper)
  if spans.isEmpty then none
  else some {
    entry := .session ws.id
    userId := ws.userId
    projectId := ws.projectId
    taskId := ws.taskId
    startedAt := max ((spans.map (·.1)).min?.getD lower) lower
    endedAt := some (min ((spans.map (·.2)).max?.getD upper) upper)
    source := .tracked ws.status
    seconds := toBigint (spans.map (clipped lower upper)).sum }

/-- `JOIN users`, `JOIN projects`. -/
def joinsManual (db : Database) (m : ManualTimeEntry) : Bool :=
  (db.getUserAny m.userId).isSome && (db.getProject m.projectId).isSome

/-- The row of a manual entry in the window. -/
def manualRow (db : Database) (lower upper : Int) (m : ManualTimeEntry) : Option TimeRow :=
  if joinsManual db m && inWindow lower upper (m.startedAt, m.endedAt) then some {
    entry := .manual m.id
    userId := some m.userId
    projectId := some m.projectId
    taskId := m.taskId
    startedAt := max m.startedAt lower
    endedAt := some (min m.endedAt upper)
    source := .manual m.status
    seconds := toBigint (clipped lower upper (m.startedAt, m.endedAt)) }
  else none

/-- The rows of both kinds. -/
def windowRows (now : Int) (db : Database) (lower upper : Int) : List TimeRow :=
  db.workSessions.filterMap (trackedRow now db lower upper) ++
    db.manualTimeEntries.filterMap (manualRow db lower upper)

/-- The rows of `time_report` without bounds: every session and every entry, with all of its time. -/
def allTimeRows (now : Int) (db : Database) : List TimeRow :=
  (db.workSessions.map fun ws => {
    entry := .session ws.id
    userId := ws.userId
    projectId := ws.projectId
    taskId := ws.taskId
    startedAt := ws.startedAt
    endedAt := ((db.segments.filter (·.sessionId == ws.id)).filterMap (·.endedAt)).max?
    source := .tracked ws.status
    seconds := toBigint ((sessionSpans now db ws).map fun span => span.2 - span.1).sum }) ++
  (db.manualTimeEntries.filter (joinsManual db)).map fun m => {
    entry := .manual m.id
    userId := some m.userId
    projectId := some m.projectId
    taskId := m.taskId
    startedAt := m.startedAt
    endedAt := some m.endedAt
    source := .manual m.status
    seconds := toBigint (m.endedAt - m.startedAt) }

/-- `time_report`. -/
def timeReport (tie : TimeRow → Nat) (now : Int) (db : Database) (startedAt endedAt limit : Option Int) :
    Except Error (List TimeRow) := do
  raiseIf (startedAt.isNone ≠ endedAt.isNone) "Both time report bounds are required"
  raiseIf (startedAt.any (fun lower => endedAt.any (· ≤ lower)) = true) "Time report bounds are invalid"
  raiseIf (limit.any (fun limit => limit < 1 || 100001 < limit) = true) "Time report limit is invalid"
  match startedAt, endedAt with
  | some lower, some upper =>
    return limited limit
      (orderBy (fun row => -row.startedAt) tie ((windowRows now db lower upper).filter (0 < ·.seconds)))
  | _, _ => return limited limit (orderBy (fun row => -row.startedAt) tie (allTimeRows now db))

/-- `scope_mode`. -/
inductive ScopeMode
  | all | personal | projectMember | projectVisibility
  deriving DecidableEq, Repr

/-- The filters of `custom_time_report`; a scope that is none of the four is `none`. -/
structure ReportFilters where
  userId : Option Nat
  projectId : Option Nat
  scopeUserId : Option Nat
  scopeMode : Option ScopeMode
  deriving DecidableEq, Repr

/-- `pm.project_id=e.project_id AND pm.user_id=..`, for one of the roles. -/
def memberOf (db : Database) (projectId userId : Option Nat) (role : ProjectRole → Bool) : Bool :=
  db.projectMembers.any fun pm =>
    some pm.projectId == projectId && some pm.userId == userId && role pm.projectRole

/-- `WHERE`, apart from the condition on the seconds. -/
def ReportFilters.admits (filters : ReportFilters) (db : Database) (userId projectId : Option Nat) :
    Bool :=
  filters.userId.all (fun id => userId == some id) &&
  filters.projectId.all (fun id => projectId == some id) &&
  match filters.scopeMode with
  | none | some .all => true
  | some .personal => filters.scopeUserId.isSome && userId == filters.scopeUserId
  | some .projectMember => memberOf db projectId filters.scopeUserId fun _ => true
  | some .projectVisibility =>
    (filters.scopeUserId.isSome && userId == filters.scopeUserId) ||
      memberOf db projectId filters.scopeUserId fun role => role == .manager || role == .viewer

/-- `custom_time_report`. -/
def customTimeReport (tie : TimeRow → Nat) (now : Int) (db : Database) (startedAt endedAt : Int)
    (filters : ReportFilters) (limit : Int) : Except Error (List TimeRow) := do
  raiseIf (filters.scopeMode = none) "Invalid report scope"
  return limited (some (min (max limit 1) 10001))
    (orderBy (fun row => -row.startedAt) tie ((windowRows now db startedAt endedAt).filter fun row =>
      0 < row.seconds && filters.admits db row.userId row.projectId))

/-! ## Local days -/

/-- `AT TIME ZONE` of PostgreSQL: what the clocks of a zone show at an instant, and the instant that a local
time stands for. A repeated local time stands for its later instant; every local time stands for an instant
after those at which the clocks show less; and no midnight is before the one of the day before. -/
structure ReportZone where
  wall : Int → Int
  instant : Int → Int
  lt_instant : ∀ {t w : Int}, wall t < w → t < instant w
  le_instant : ∀ t : Int, t ≤ instant (wall t)
  midnights : ∀ day : Int, instant (startOfDay day) ≤ instant (startOfDay (day + 1))

/-- `day.work_date AT TIME ZONE b.timezone_name`. -/
def ReportZone.midnight (zone : ReportZone) (day : Int) : Int := zone.instant (startOfDay day)

/-- `date_trunc('day', t AT TIME ZONE b.timezone_name)`. -/
def ReportZone.dayOf (zone : ReportZone) (t : Int) : Int := dateOf (zone.wall t)

/-- A row of `entries`. -/
structure TimeEntry where
  userId : Nat
  projectId : Nat
  taskId : Option Nat
  note : String
  startedAt : Int
  endedAt : Int
  deriving DecidableEq, Repr

/-- The ends of an entry. -/
def TimeEntry.span (e : TimeEntry) : Int × Int := (e.startedAt, e.endedAt)

/-- The closed segments of the stopped sessions that have a user and a project. -/
def trackedEntries (db : Database) : List TimeEntry :=
  db.workSessions.flatMap fun ws =>
    match ws.userId, ws.projectId with
    | some userId, some projectId =>
      if ws.status == .stopped && (db.getUserAny userId).isSome && (db.getProject projectId).isSome then
        (db.segments.filter (·.sessionId == ws.id)).filterMap fun g => g.endedAt.map fun endedAt =>
          { userId, projectId, taskId := ws.taskId, note := ws.note, startedAt := g.startedAt, endedAt }
      else []
    | _, _ => []

/-- The approved manual entries. -/
def manualEntries (db : Database) : List TimeEntry :=
  (db.manualTimeEntries.filter fun m => joinsManual db m && m.status == .approved).map fun m =>
    { userId := m.userId, projectId := m.projectId, taskId := m.taskId, note := m.note,
      startedAt := m.startedAt, endedAt := m.endedAt }

/-- The entries of a user and a project, where these are given. -/
def scopedEntries (db : Database) (userId projectId : Option Nat) : List TimeEntry :=
  (trackedEntries db ++ manualEntries db).filter fun e =>
    userId.all (e.userId == ·) && projectId.all (e.projectId == ·)

/-- `generate_series`: the local days of an entry in a window. -/
def pieceDays (zone : ReportZone) (lower upper : Int) (e : TimeEntry) : List Int :=
  let first := zone.dayOf (max e.startedAt lower)
  let last := zone.dayOf (min e.endedAt upper - 1)
  (List.range (last - first + 1).toNat).map fun k : Nat => first + (k : Int)

/-- `LEAST(..) - GREATEST(..)` of an entry, a local day and the window. -/
def pieceMicros (zone : ReportZone) (lower upper : Int) (e : TimeEntry) (day : Int) : Int :=
  min e.endedAt (min (zone.midnight (day + 1)) upper) - max e.startedAt (max (zone.midnight day) lower)

/-- `GROUP BY`; the columns of QuickBooks depend on these. -/
structure QuickbooksKey where
  userId : Nat
  projectId : Nat
  taskId : Option Nat
  workDate : Int
  note : String
  deriving DecidableEq, Repr

/-- A row of `pieces`, or of the report. -/
structure QuickbooksRow where
  key : QuickbooksKey
  seconds : Int
  deriving DecidableEq, Repr

/-- The key of an entry's piece on a day. -/
def TimeEntry.key (e : TimeEntry) (day : Int) : QuickbooksKey :=
  { userId := e.userId, projectId := e.projectId, taskId := e.taskId, workDate := day, note := e.note }

/-- `pieces`. -/
def timePieces (zone : ReportZone) (lower upper : Int) (entries : List TimeEntry) : List QuickbooksRow :=
  entries.flatMap fun e => (pieceDays zone lower upper e).map fun day =>
    { key := e.key day, seconds := toBigint (pieceMicros zone lower upper e day) }

/-- An approved timesheet of the user covers the day. -/
def sheetApproved (db : Database) (key : QuickbooksKey) : Bool :=
  db.timesheets.any fun ts => ts.userId == key.userId && ts.status == .approved && ts.covers key.workDate

/-- `GROUP BY`, with `SUM(seconds)`. -/
def groupPieces (pieces : List QuickbooksRow) : List QuickbooksRow :=
  (pieces.map (·.key)).dedup.map fun key =>
    { key, seconds := ((pieces.filter (·.key == key)).map (·.seconds)).sum }

/-- The rows of the report before they are ordered. -/
def quickbooksRows (zone : ReportZone) (db : Database) (lower upper : Int) (approvedOnly : Bool)
    (userId projectId : Option Nat) : List QuickbooksRow :=
  groupPieces ((timePieces zone lower upper
      ((scopedEntries db userId projectId).filter fun e => inWindow lower upper e.span)).filter
    fun piece => 0 < piece.seconds && (!approvedOnly || sheetApproved db piece.key))

/-- `quickbooks_time_rows`; a name that is no time zone is `none`. -/
def quickbooksTimeRows (tie : QuickbooksRow → Nat) (zone : Option ReportZone) (db : Database)
    (startedAt endedAt : Int) (approvedOnly : Bool) (userId projectId : Option Nat) (limit : Int) :
    Except Error (List QuickbooksRow) := do
  raiseIf (endedAt ≤ startedAt) "QuickBooks report bounds are invalid"
  raiseIf (limit < 1 ∨ 10001 < limit) "QuickBooks report limit is invalid"
  match zone with
  | none => .error (.valueError "Invalid QuickBooks report timezone")
  | some zone =>
    return limited (some limit) (orderBy (·.key.workDate) tie
      (quickbooksRows zone db startedAt endedAt approvedOnly userId projectId))

end Dayfinch
