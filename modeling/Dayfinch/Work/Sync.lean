/-
# Dayfinch.Work.Sync -- `WorkRepository.sync_work_session`, statement by statement

A heartbeat passes two stages. `admitSync` is everything the source does before it opens its
transaction: the period lock, the owner's role, the project authorisation, the tracking limits, the
task check and the timestamp check, each on a connection of its own. `syncTransaction` is the
transaction: the desktop-only policy, the duplicate check, the clock clamp, the takeover of another
device's session, the lease cut, the task switch, and the state change itself.

The source chooses the previous receipt with `ORDER BY observed_at DESC LIMIT 1`; receipts can tie
after clamping, so the transaction takes the database's tie-break as a rank `tie`. `now` is the
server clock of the call: `utc_now()` and `CURRENT_TIMESTAMP`.
-/
import Dayfinch.Schema

namespace Dayfinch

open Library (latestBy updateWhere)
open Library.Calendar (weekday)

/-! ## The call -/

/-- The arguments of `sync_work_session`. A `status` outside the three the source accepts is
`none`. -/
structure SyncCall where
  device : Device
  status : Option SessionStatus
  taskId : Option Nat
  selectedProjectId : Option Nat
  note : String
  eventId : Option Nat
  observedAt : Option Datetime
  idleSeconds : Int
  heartbeatIntervalSeconds : Int
  transition : Bool
  deriving DecidableEq, Repr

/-- What the checks before the transaction leave for it. -/
structure Admission where
  status : SessionStatus
  owner : Option User
  projectId : Option Nat
  observed : Int
  deriving DecidableEq, Repr

/-- `str.isspace` of one character, which is what `str.strip` removes. -/
def isSpace (c : Char) : Bool :=
  let n := c.toNat
  (9 ≤ n && n ≤ 13) || (28 ≤ n && n ≤ 32) || n == 0x85 || n == 0xa0 || n == 0x1680 ||
    (0x2000 ≤ n && n ≤ 0x200a) || n == 0x2028 || n == 0x2029 || n == 0x202f || n == 0x205f ||
    n == 0x3000

/-- `note.strip()[:500]`. -/
def cleanNote (note : String) : String :=
  let stripped := ((note.toList.dropWhile isSpace).reverse.dropWhile isSpace).reverse
  String.ofList (stripped.take 500)

/-! ## Before the transaction -/

/-- `SUM(COALESCE(seg.ended_at, now) - seg.started_at)` over the user's segments whose start date
satisfies `p`, in microseconds. -/
def trackedOn (db : Database) (now : Int) (userId : Nat) (p : Int → Bool) : Int :=
  ((db.workSessions.filter (·.userId == some userId)).flatMap fun ws =>
    (db.segments.filter fun g => g.sessionId == ws.id && p (dateOf g.startedAt)).map fun g =>
      g.endedAt.getD now - g.startedAt).sum

/-- `started_at::date = check_date`. -/
def trackedDaily (db : Database) (now : Int) (userId : Nat) (checkDate : Int) : Int :=
  trackedOn db now userId (· == checkDate)

/-- `started_at::date BETWEEN date_trunc('week', check_date) AND .. + 6`. -/
def trackedWeekly (db : Database) (now : Int) (userId : Nat) (checkDate : Int) : Int :=
  let monday := checkDate - weekday checkDate
  trackedOn db now userId fun d => monday ≤ d && d ≤ monday + 6

/-- The daily and weekly limits of a member; zero means no limit. -/
def checkLimits (db : Database) (now : Int) (owner : User) (checkDate : Int) : Except Error Unit := do
  raiseIf (owner.dailyLimitMinutes ≠ 0 ∧
    minutes owner.dailyLimitMinutes ≤ trackedDaily db now owner.id checkDate)
    "Daily tracking limit reached"
  raiseIf (owner.weeklyLimitMinutes ≠ 0 ∧
    minutes owner.weeklyLimitMinutes ≤ trackedWeekly db now owner.id checkDate)
    "Weekly tracking limit reached"

/-- The roles in a project that may track time. -/
def canTrack (role : Option ProjectRole) : Bool := role == some .worker || role == some .manager

/-- The authorisation of an active heartbeat for a project. -/
def authorizeTracking (db : Database) (owner : Option User) (projectId : Option Nat) :
    Except Error User :=
  match owner with
  | none => .error (.valueError "The device owner is unavailable")
  | some owner =>
    match projectId.bind db.getProject with
    | none => .error (.valueError "The selected project is unavailable")
    | some project => do
      raiseIf (project.enabled = false) "The selected project is unavailable"
      raiseIf (owner.role = .member ∧ canTrack (db.projectMemberRole project.id owner.id) = false)
        "This member cannot track time for the selected project"
      return owner

/-- The task check, which also settles the project: a task brings its own. -/
def checkTask (db : Database) (call : SyncCall) (projectId : Option Nat) :
    Except Error (Option Nat) :=
  match call.taskId with
  | none => .ok projectId
  | some taskId =>
    match db.getTask taskId with
    | none => .error (.valueError "Task is not active")
    | some task => do
      raiseIf (task.status ≠ .active) "Task is not active"
      raiseIf (projectId.isSome ∧ projectId ≠ some task.projectId)
        (if call.selectedProjectId = none then "Task is not active in this device's project"
          else "Task does not belong to the selected project")
      return some task.projectId

/-- The checks that only an active heartbeat must pass. -/
def admitActive (now : Int) (db : Database) (call : SyncCall) (status : SessionStatus)
    (owner : Option User) (projectId : Option Nat) (workDate : Int) : Except Error Unit :=
  if status ≠ .active then .ok ()
  else do
    raiseIf (call.device.ownerUserId.any fun u => db.isPeriodLocked u workDate)
      "The current timesheet period is approved and locked"
    raiseIf (owner.any (·.role == .viewer)) "Project viewers cannot track time"
    let owner ← authorizeTracking db owner projectId
    if owner.role = .member then checkLimits db now owner workDate else .ok ()

/-- `sync_work_session` up to its transaction. -/
def admitSync (now : Int) (db : Database) (call : SyncCall) (status : SessionStatus) :
    Except Error Admission := do
  let observedOrNow := call.observedAt.getD (Datetime.ofInstant now)
  let owner := call.device.ownerUserId.bind db.getUser
  let projectId := call.selectedProjectId <|> call.device.projectId
  admitActive now db call status owner projectId observedOrNow.date
  let projectId ← checkTask db call projectId
  match observedOrNow.toUtc? with
  | none => .error (.valueError "observed_at must include a timezone")
  | some observed => .ok { status, owner, projectId, observed }

/-! ## Statements of the transaction -/

/-- `_start_segment`. -/
def startSegment (db : Database) (sessionId : Nat) (startedAt : Int) : Database :=
  { db with
    segments := db.segments ++ [{ id := db.nextId, sessionId, startedAt, endedAt := none }]
    nextId := db.nextId + 1 }

/-- The row update of `_close_segment`: `ended_at = GREATEST(started_at, ..)`. -/
def Segment.close (endedAt : Int) (g : Segment) : Segment :=
  { g with endedAt := some (max g.startedAt endedAt) }

/-- `_close_segment`, on the open segments of a session. -/
def closeSegment (db : Database) (sessionId : Nat) (endedAt : Int) : Database :=
  { db with
    segments := updateWhere (fun g => g.sessionId == sessionId && g.isOpen) (Segment.close endedAt)
      db.segments }

/-- The row update of `_stop_session`. -/
def WorkSession.stop (endedAt : Int) (ws : WorkSession) : WorkSession :=
  { ws with status := .stopped, endedAt := some endedAt, updatedAt := endedAt }

/-- `_stop_session`. -/
def stopSession (db : Database) (sessionId : Nat) (endedAt : Int) : Database :=
  let db := closeSegment db sessionId endedAt
  { db with
    workSessions := updateWhere (·.id == sessionId) (WorkSession.stop endedAt) db.workSessions }

/-- The foreign keys of a new row on `devices`, `users`, `projects` and `tasks`. -/
def referencesExist (db : Database) (deviceId : Nat) (userId projectId taskId : Option Nat) : Bool :=
  (db.getDevice deviceId).isSome && userId.all (fun u => (db.getUserAny u).isSome) &&
    projectId.all (fun p => (db.getProject p).isSome) &&
    taskId.all fun t => (db.getTask t).isSome

/-- The unique indexes `idx_sessions_one_open_per_device` and
`uq_work_sessions_one_active_per_user`, for a new live row. -/
def liveSlotTaken (db : Database) (row : WorkSession) : Bool :=
  db.workSessions.any fun ws =>
    ws.live && (ws.deviceId == row.deviceId || (ws.userId == row.userId && row.userId.isSome))

/-- `INSERT INTO work_sessions`, with the constraints of the table. -/
def insertWorkSession (db : Database) (row : WorkSession) : Except Error Database :=
  if referencesExist db row.deviceId row.userId row.projectId row.taskId = false then
    .error .foreignKeyViolation
  else if liveSlotTaken db row then .error .uniqueViolation
  else .ok { db with workSessions := db.workSessions ++ [row], nextId := db.nextId + 1 }

/-- `_insert_state_event`. The primary key cannot be violated: the caller holds the device row and
has just found no receipt of the event. -/
def insertStateEvent (db : Database) (event : AgentStateEvent) : Except Error Database :=
  if event.idleSeconds < 0 ∨ event.heartbeatIntervalSeconds < 15 ∨
      3600 < event.heartbeatIntervalSeconds then .error .checkViolation
  else if referencesExist db event.deviceId none event.projectId event.taskId = false then
    .error .foreignKeyViolation
  else .ok { db with agentStateEvents := db.agentStateEvents ++ [event] }

/-! ## Parts of the transaction -/

/-- A non-desktop device is refused while its owner's effective policy is desktop-only. -/
def checkDesktopPolicy (db : Database) (call : SyncCall) (adm : Admission) : Except Error Unit :=
  match adm.owner with
  | none => .ok ()
  | some owner =>
    raiseIf (adm.status = .active ∧ call.device.trackerKind ≠ .desktop ∧
      db.effectiveAllowedApps owner.id = .desktopOnly) "Desktop tracking is required by policy"

/-- The receipt of this event, if the event was accepted before. -/
def duplicateReceipt (db : Database) (call : SyncCall) : Option AgentStateEvent :=
  call.eventId.bind fun eventId =>
    db.agentStateEvents.find? fun e => e.deviceId == call.device.id && e.id == eventId

/-- The receipt the source compares an event with: one of the device's latest. An event without an
id is compared with none. -/
def previousReceipt (tie : AgentStateEvent → Nat) (db : Database) (call : SyncCall) :
    Option AgentStateEvent :=
  call.eventId.bind fun _ =>
    latestBy (·.observedAt) tie (db.agentStateEvents.filter (·.deviceId == call.device.id))

/-- `if observed < previous_at: observed = previous_at`. -/
def clampToPrevious (previous : Option AgentStateEvent) (observed : Int) : Int :=
  match previous with
  | none => observed
  | some previous => max observed previous.observedAt

/-- The device's live session. -/
def deviceSession (db : Database) (call : SyncCall) : Option WorkSession :=
  latestBy (·.startedAt) (fun _ => 0)
    (db.workSessions.filter fun ws => ws.deviceId == call.device.id && ws.live)

/-- The owner's live session on another device. -/
def otherSession (db : Database) (call : SyncCall) : Option WorkSession :=
  call.device.ownerUserId.bind fun userId =>
    latestBy (·.startedAt) (fun _ => 0)
      (db.workSessions.filter fun ws =>
        ws.userId == some userId && ws.deviceId != call.device.id && ws.live)

/-- An active or paused event stops the owner's session on another device, if it may. -/
def takeOver (db : Database) (call : SyncCall) (status : SessionStatus) (observed : Int) :
    Except Error Database :=
  if status = .stopped then .ok db
  else
    match otherSession db call with
    | none => .ok db
    | some other => do
      raiseIf (call.transition = false) "Another device is tracking; press Start to switch devices"
      raiseIf (observed < other.startedAt) "Another device is already tracking newer time"
      return stopSession db other.id observed

/-- `max(90, 2 * previous interval, 2 * interval)`, in seconds. -/
def leaseSeconds (previousInterval interval : Int) : Int :=
  max 90 (max (previousInterval * 2) (interval * 2))

/-- The lease between two receipts has run out. -/
def leaseExpired (previous : AgentStateEvent) (interval observed : Int) : Bool :=
  seconds (leaseSeconds previous.heartbeatIntervalSeconds interval) < observed - previous.observedAt

/-- The instant a lapsed session is cut at: one heartbeat after its last receipt. -/
def leaseEnd (previous : AgentStateEvent) : Int :=
  previous.observedAt + seconds previous.heartbeatIntervalSeconds

/-- A gap longer than the lease ends the device's session one heartbeat after its last receipt. -/
def cutGap (db : Database) (interval : Int) (previous : Option AgentStateEvent) (observed : Int)
    (session : Option WorkSession) : Database × Option WorkSession :=
  match previous, session with
  | some previous, some session =>
    if previous.status = .active ∧ leaseExpired previous interval observed then
      (stopSession db session.id (leaseEnd previous), none)
    else (db, some session)
  | _, session => (db, session)

/-- A session on another task or project ends where the new work begins. -/
def leaveWork (db : Database) (taskId projectId : Option Nat) (observed : Int)
    (session : Option WorkSession) : Database × Option WorkSession :=
  match session with
  | none => (db, none)
  | some session =>
    if session.taskId ≠ taskId ∨ session.projectId ≠ projectId then
      (stopSession db session.id observed, none)
    else (db, some session)

/-- The row of a new session. -/
def newWorkSession (now : Int) (db : Database) (call : SyncCall) (adm : Admission) (observed : Int) :
    WorkSession where
  id := db.nextId
  userId := call.device.ownerUserId
  deviceId := call.device.id
  projectId := adm.projectId
  taskId := call.taskId
  status := adm.status
  note := cleanNote call.note
  startedAt := observed
  endedAt := none
  createdAt := now
  updatedAt := now

/-- A new session, with its first segment when it starts active. -/
def openSession (now : Int) (db : Database) (call : SyncCall) (adm : Admission) (observed : Int) :
    Except Error (Database × Nat) := do
  let row := newWorkSession now db call adm observed
  let db ← insertWorkSession db row
  return (if adm.status = .active then startSegment db row.id observed else db, row.id)

/-- The segment statement of a kept session: pausing closes its segment before the idle time,
resuming opens one. -/
def moveSegment (db : Database) (call : SyncCall) (status : SessionStatus) (observed : Int)
    (session : WorkSession) : Database :=
  if status = .paused ∧ session.status = .active then
    closeSegment db session.id (observed - seconds call.idleSeconds)
  else if status = .active ∧ session.status = .paused then startSegment db session.id observed
  else db

/-- The row update of a kept session. -/
def WorkSession.continueAs (status : SessionStatus) (note : String) (now : Int) (ws : WorkSession) :
    WorkSession := { ws with status, note, updatedAt := now }

/-- A kept session takes the event's status. -/
def continueSession (now : Int) (db : Database) (call : SyncCall) (status : SessionStatus)
    (observed : Int) (session : WorkSession) : Database :=
  let db := moveSegment db call status observed session
  { db with
    workSessions := updateWhere (·.id == session.id)
      (WorkSession.continueAs status (cleanNote call.note) now) db.workSessions }

/-- The state change: stop, open or continue. Returns the session the event belongs to. -/
def applyStatus (now : Int) (db : Database) (call : SyncCall) (adm : Admission) (observed : Int)
    (session : Option WorkSession) : Except Error (Database × Option Nat) :=
  match adm.status, session with
  | .stopped, none => .ok (db, none)
  | .stopped, some session => .ok (stopSession db session.id observed, none)
  | _, none => do
    let (db, sessionId) ← openSession now db call adm observed
    return (db, some sessionId)
  | status, some session => .ok (continueSession now db call status observed session, some session.id)

/-- The row of an event's receipt. -/
def newReceipt (now : Int) (call : SyncCall) (adm : Admission) (observed : Int)
    (sessionId : Option Nat) (eventId : Nat) : AgentStateEvent where
  id := eventId
  deviceId := call.device.id
  observedAt := observed
  receivedAt := now
  status := adm.status
  taskId := call.taskId
  projectId := adm.projectId
  note := cleanNote call.note
  idleSeconds := call.idleSeconds
  heartbeatIntervalSeconds := call.heartbeatIntervalSeconds
  sessionId := sessionId

/-- The receipt of an event with an id. -/
def recordEvent (now : Int) (db : Database) (call : SyncCall) (adm : Admission) (observed : Int)
    (sessionId : Option Nat) : Except Error Database :=
  match call.eventId with
  | none => .ok db
  | some eventId => insertStateEvent db (newReceipt now call adm observed sessionId eventId)

/-! ## The transaction and the call -/

/-- The transaction after the policy and duplicate checks. -/
def acceptEvent (tie : AgentStateEvent → Nat) (now : Int) (db : Database) (call : SyncCall)
    (adm : Admission) : Except Error (Database × Option WorkSession) := do
  let previous := previousReceipt tie db call
  let observed := clampToPrevious previous adm.observed
  let session := deviceSession db call
  let db ← takeOver db call adm.status observed
  let (db, session) := cutGap db call.heartbeatIntervalSeconds previous observed session
  let (db, session) := leaveWork db call.taskId adm.projectId observed session
  let (db, sessionId) ← applyStatus now db call adm observed session
  let db ← recordEvent now db call adm observed sessionId
  return (db, sessionId.bind db.getWorkSession)

/-- The transaction of `sync_work_session`. -/
def syncTransaction (tie : AgentStateEvent → Nat) (now : Int) (db : Database) (call : SyncCall)
    (adm : Admission) : Except Error (Database × Option WorkSession) := do
  checkDesktopPolicy db call adm
  match duplicateReceipt db call with
  | some receipt => return (db, receipt.sessionId.bind db.getWorkSession)
  | none => acceptEvent tie now db call adm

/-- `sync_work_session`: the database and the session it returns. -/
def syncWorkSession (tie : AgentStateEvent → Nat) (now : Int) (db : Database) (call : SyncCall) :
    Except Error (Database × Option WorkSession) :=
  match call.status with
  | none => .ok (db, none)
  | some status => do
    let adm ← admitSync now db call status
    syncTransaction tie now db call adm

end Dayfinch
