/-
# Dayfinch.Schema -- the tables that tracking, approval and work policies live in

One record per table of `api/migrations.py`, with the columns that the modelled functions read or
write, and the database as a record of tables. Row identifiers are the UUID columns: opaque
numbers, taken from a counter where the source calls `uuid.uuid4()`. Timestamps are instants in
microseconds (`Dayfinch.Clock`), dates are days since 1970-01-01, and a nullable column is an
`Option`.

`Error` names the ways a repository call fails: a `ValueError` with its message, a constraint of the
schema, or a value that an SQL function refuses. Every call runs in one transaction, so a call that fails leaves the database as it was.
-/
import Dayfinch.Clock
import Dayfinch.Library.Outcome
import Dayfinch.Library.Table

namespace Dayfinch

open Library (Ensures)

/-! ## Enumerated columns -/

/-- `users.role`. -/
inductive Role
  | admin | manager | member | viewer
  deriving DecidableEq, Repr

/-- `project_members.project_role`. -/
inductive ProjectRole
  | worker | manager | viewer
  deriving DecidableEq, Repr

/-- `devices.tracker_kind`. -/
inductive TrackerKind
  | desktop | mobile | web
  deriving DecidableEq, Repr

/-- `allowed_apps` of the organisation and of a member override. -/
inductive AllowedApps
  | all | desktopOnly
  deriving DecidableEq, Repr

/-- `tasks.status`. -/
inductive TaskStatus
  | active | archived
  deriving DecidableEq, Repr

/-- `work_sessions.status` and `agent_state_events.status`. -/
inductive SessionStatus
  | active | paused | stopped
  deriving DecidableEq, Repr

/-- `timesheets.status`. -/
inductive TimesheetStatus
  | «open» | submitted | approved | rejected
  deriving DecidableEq, Repr

/-- `manual_time_entries.status`, `time_off_requests.status` (where `rejected` is spelled `denied`)
and `expenses.status`, as far as the three tables share them. -/
inductive ReviewStatus
  | pending | approved | rejected
  deriving DecidableEq, Repr

/-! ## Rows -/

/-- `users`. -/
structure User where
  id : Nat
  role : Role
  enabled : Bool
  dailyLimitMinutes : Nat
  weeklyLimitMinutes : Nat
  deriving DecidableEq, Repr

/-- `projects`. -/
structure Project where
  id : Nat
  enabled : Bool
  deriving DecidableEq, Repr

/-- `project_members`. -/
structure ProjectMember where
  projectId : Nat
  userId : Nat
  projectRole : ProjectRole
  deriving DecidableEq, Repr

/-- `devices`. -/
structure Device where
  id : Nat
  enabled : Bool
  trackerKind : TrackerKind
  ownerUserId : Option Nat
  projectId : Option Nat
  deriving DecidableEq, Repr

/-- `tasks`. -/
structure Task where
  id : Nat
  projectId : Nat
  status : TaskStatus
  externalReadOnly : Bool
  deriving DecidableEq, Repr

/-- `work_sessions`. -/
structure WorkSession where
  id : Nat
  userId : Option Nat
  deviceId : Nat
  projectId : Option Nat
  taskId : Option Nat
  status : SessionStatus
  note : String
  startedAt : Int
  endedAt : Option Int
  createdAt : Int
  updatedAt : Int
  deriving DecidableEq, Repr

/-- `work_session_segments`: a stretch of tracked time; it is open while `endedAt` is null. -/
structure Segment where
  id : Nat
  sessionId : Nat
  startedAt : Int
  endedAt : Option Int
  deriving DecidableEq, Repr

/-- `agent_state_events`: the receipt of an accepted heartbeat. -/
structure AgentStateEvent where
  id : Nat
  deviceId : Nat
  observedAt : Int
  receivedAt : Int
  status : SessionStatus
  taskId : Option Nat
  projectId : Option Nat
  note : String
  idleSeconds : Int
  heartbeatIntervalSeconds : Int
  sessionId : Option Nat
  deriving DecidableEq, Repr

/-- `work_breaks`. -/
structure WorkBreak where
  id : Nat
  userId : Nat
  sessionId : Option Nat
  startedAt : Int
  endedAt : Option Int
  paid : Bool
  deriving DecidableEq, Repr

/-- `timesheets`. -/
structure Timesheet where
  id : Nat
  userId : Nat
  periodStart : Int
  periodEnd : Int
  status : TimesheetStatus
  deriving DecidableEq, Repr

/-- `manual_time_entries`. -/
structure ManualTimeEntry where
  id : Nat
  userId : Nat
  projectId : Nat
  taskId : Option Nat
  startedAt : Int
  endedAt : Int
  note : String
  status : ReviewStatus
  deriving DecidableEq, Repr

/-- `time_off_requests`. -/
structure TimeOffRequest where
  id : Nat
  userId : Nat
  startsOn : Int
  endsOn : Int
  minutes : Int
  status : ReviewStatus
  deriving DecidableEq, Repr

/-- The database. `allowedApps` is that column of the one `organization_settings` row, and
`userTrackingSettings` holds each member's `allowed_apps` override, if the member has a row.
`nextId` is the supply of identifiers that `uuid.uuid4()` draws from. -/
structure Database where
  users : List User := []
  projects : List Project := []
  projectMembers : List ProjectMember := []
  devices : List Device := []
  tasks : List Task := []
  workSessions : List WorkSession := []
  segments : List Segment := []
  agentStateEvents : List AgentStateEvent := []
  workBreaks : List WorkBreak := []
  allowedApps : AllowedApps := .all
  userTrackingSettings : List (Nat × Option AllowedApps) := []
  timesheets : List Timesheet := []
  manualTimeEntries : List ManualTimeEntry := []
  timeOffRequests : List TimeOffRequest := []
  nextId : Nat := 0
  deriving DecidableEq, Repr

/-! ## Failures -/

/-- How a repository call fails. -/
inductive Error
  | valueError (message : String)
  | typeError
  | foreignKeyViolation
  | uniqueViolation
  | checkViolation
  | dataException
  deriving DecidableEq, Repr

/-- `if condition: raise ValueError(message)`. -/
def raiseIf (condition : Prop) [Decidable condition] (message : String) : Except Error Unit :=
  if condition then .error (.valueError message) else .ok ()

@[simp] theorem raiseIf_eq_ok {c : Prop} [Decidable c] {m : String} {u : Unit} :
    raiseIf c m = .ok u ↔ ¬ c := by
  unfold raiseIf; split <;> simp_all

theorem ensures_raiseIf {c : Prop} [Decidable c] {m : String} :
    Ensures (raiseIf c m) fun _ => ¬ c := fun _ h => raiseIf_eq_ok.mp h

/-- The database after a call: a call that raises is rolled back. -/
def commit (db : Database) (result : Except Error Database) : Database :=
  match result with
  | .ok db' => db'
  | .error _ => db

/-! ## Lookups -/

namespace Database

/-- `get_user_any(user_id)`. -/
def getUserAny (db : Database) (userId : Nat) : Option User := db.users.find? (·.id == userId)

/-- `get_user(user_id)`: only accounts that are enabled. -/
def getUser (db : Database) (userId : Nat) : Option User := (db.getUserAny userId).filter (·.enabled)

/-- `SELECT * FROM projects WHERE id=..`. -/
def getProject (db : Database) (projectId : Nat) : Option Project :=
  db.projects.find? (·.id == projectId)

/-- `project_role` of the member's row, if there is one. -/
def projectMemberRole (db : Database) (projectId userId : Nat) : Option ProjectRole :=
  (db.projectMembers.find? fun pm => pm.projectId == projectId && pm.userId == userId).map
    (·.projectRole)

/-- `get_task(task_id)`. -/
def getTask (db : Database) (taskId : Nat) : Option Task := db.tasks.find? (·.id == taskId)

/-- `get_device(device_id)`. -/
def getDevice (db : Database) (deviceId : Nat) : Option Device :=
  db.devices.find? (·.id == deviceId)

/-- `_session_in_connection(session_id)`. -/
def getWorkSession (db : Database) (sessionId : Nat) : Option WorkSession :=
  db.workSessions.find? (·.id == sessionId)

/-- `COALESCE(member.allowed_apps, organization.allowed_apps)` for a user. -/
def effectiveAllowedApps (db : Database) (userId : Nat) : AllowedApps :=
  ((db.userTrackingSettings.find? (·.1 == userId)).bind (·.2)).getD db.allowedApps

/-- `is_period_locked(user_id, work_date)`. -/
def isPeriodLocked (db : Database) (userId : Nat) (workDate : Int) : Bool :=
  db.timesheets.any fun ts =>
    ts.userId == userId && ts.status == .approved && ts.periodStart ≤ workDate &&
      workDate ≤ ts.periodEnd

end Database

theorem getUserAny_id {db : Database} {userId : Nat} {user : User}
    (h : db.getUserAny userId = some user) : user.id = userId := by
  simpa using List.find?_some h

theorem getUser_eq_some {db : Database} {userId : Nat} {user : User} :
    db.getUser userId = some user ↔ db.getUserAny userId = some user ∧ user.enabled = true :=
  Option.filter_eq_some_iff

/-! ## Live sessions and open segments -/

/-- `status IN ('active','paused')`. -/
def WorkSession.live (ws : WorkSession) : Bool :=
  ws.status == .active || ws.status == .paused

@[simp] theorem WorkSession.live_iff (ws : WorkSession) : ws.live = true ↔ ws.status ≠ .stopped := by
  unfold WorkSession.live; cases ws.status <;> simp

/-- `ended_at IS NULL`. -/
def Segment.isOpen (g : Segment) : Bool := g.endedAt.isNone

@[simp] theorem Segment.isOpen_iff (g : Segment) : g.isOpen = true ↔ g.endedAt = none := by
  simp [Segment.isOpen]

/-- The open segments of a session. -/
def Database.openSegments (db : Database) (sessionId : Nat) : List Segment :=
  db.segments.filter fun g => g.sessionId == sessionId && g.isOpen

end Dayfinch
