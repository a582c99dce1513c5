/-
# Dayfinch.Work.Closers -- the operations around `sync_work_session` that end or gate work

Archiving a task, closing a project, removing or demoting a member, disabling a user or a device and
switching to desktop-only tracking all end work in the same way: three bulk `UPDATE`s, over the open
segments, the open breaks and the sessions that the operation selects, stamped with the server
clock. `closeWork` is that triple with the `WHERE` clauses as parameters; each operation is
`closeWork` at its own clauses, around its own updates.

The clauses differ from operation to operation, and so does the stamp: some write
`GREATEST(now, started_at)`, the others write `now` whatever the start. A break has a `CHECK` that it
ends after it started, so a closer that selects a break of a later start fails as a whole.
-/
import Dayfinch.Work.Sync

namespace Dayfinch

open Library (updateWhere)

/-! ## The three bulk updates -/

/-- What a closer selects, and how it stamps the end. `ofSegments` and `sessions` are the conditions
on `work_sessions` that the segment update and the session update carry. -/
structure Closing where
  ofSegments : WorkSession → Bool
  sessions : WorkSession → Bool
  breaks : WorkBreak → Bool
  greatest : Bool

/-- `EXISTS (SELECT 1 FROM work_sessions ws WHERE ws.id = sessionId AND p)`. -/
def Database.sessionIs (db : Database) (p : WorkSession → Bool) (sessionId : Nat) : Bool :=
  db.workSessions.any fun ws => ws.id == sessionId && p ws

/-- The same over a nullable `session_id`. -/
def Database.breakOf (db : Database) (p : WorkSession → Bool) (b : WorkBreak) : Bool :=
  b.sessionId.any (db.sessionIs p)

/-- `GREATEST(now, started_at)`, or `now` as it is. -/
def Closing.stamp (c : Closing) (now startedAt : Int) : Int :=
  if c.greatest then max now startedAt else now

/-- The row update of the segments. -/
def Closing.endSegment (c : Closing) (now : Int) (g : Segment) : Segment :=
  { g with endedAt := some (c.stamp now g.startedAt) }

/-- The row update of the breaks. -/
def Closing.endBreak (c : Closing) (now : Int) (b : WorkBreak) : WorkBreak :=
  { b with endedAt := some (c.stamp now b.startedAt) }

/-- The row update of the sessions. -/
def Closing.endSession (c : Closing) (now : Int) (ws : WorkSession) : WorkSession :=
  { ws with status := .stopped, endedAt := some (c.stamp now ws.startedAt), updatedAt := now }

/-- The open breaks that a closer ends. -/
def Closing.selectsBreak (c : Closing) (b : WorkBreak) : Bool := b.endedAt.isNone && c.breaks b

/-- The three updates, with the `CHECK(ended_at > started_at)` of `work_breaks`. -/
def closeWork (now : Int) (c : Closing) (db : Database) : Except Error Database :=
  if db.workBreaks.any fun b => c.selectsBreak b && c.stamp now b.startedAt ≤ b.startedAt then
    .error .checkViolation
  else
    .ok { db with
      segments :=
        updateWhere (fun g => g.isOpen && db.sessionIs c.ofSegments g.sessionId)
          (c.endSegment now) db.segments
      workBreaks := updateWhere c.selectsBreak (c.endBreak now) db.workBreaks
      workSessions := updateWhere c.sessions (c.endSession now) db.workSessions }

/-! ## Tasks -/

/-- The sessions on one of the tasks that have not ended; the end is stamped as it is. -/
def taskClosing (db : Database) (taskIds : List Nat) : Closing :=
  let onTask (ws : WorkSession) : Bool := ws.taskId.any (taskIds.contains ·) && ws.endedAt.isNone
  { ofSegments := onTask, sessions := onTask, breaks := db.breakOf onTask, greatest := false }

/-- `set_task_status`; a status outside the two the source accepts is `none`. -/
def setTaskStatus (now : Int) (db : Database) (taskId : Nat) (status : Option TaskStatus) :
    Except Error Database :=
  match status with
  | none => .error (.valueError "Invalid task status")
  | some status =>
    match db.getTask taskId with
    | none => .error (.valueError "Task not found")
    | some task => do
      raiseIf task.externalReadOnly "This task is managed by an external integration"
      let db := { db with
        tasks := updateWhere (·.id == taskId) (fun t => { t with status }) db.tasks }
      if status = .archived then closeWork now (taskClosing db [taskId]) db else .ok db

/-- `_close_task_sessions` of the integrations. -/
def closeTaskSessions (observedAt : Int) (db : Database) (taskIds : List Nat) :
    Except Error Database :=
  if taskIds = [] then .ok db else closeWork observedAt (taskClosing db taskIds) db

/-! ## Projects and their members -/

/-- `_close_project_work`: the work in a project, of one user when `userId` is given. -/
def projectClosing (db : Database) (projectId : Nat) (userId : Option Nat) : Closing :=
  let inProject (ws : WorkSession) : Bool := ws.projectId == some projectId
  let ofUser (ws : WorkSession) : Bool := userId.all fun u => ws.userId == some u
  { ofSegments := fun ws => inProject ws && ofUser ws
    sessions := fun ws => inProject ws && ws.live && ofUser ws
    breaks := fun b => db.breakOf inProject b && userId.all fun u => b.userId == u
    greatest := true }

/-- `UPDATE devices SET project_id=NULL` for a project, of one owner when `userId` is given. -/
def detachDevices (db : Database) (projectId : Nat) (userId : Option Nat) : Database :=
  { db with
    devices :=
      updateWhere
        (fun d => d.projectId == some projectId && userId.all fun u => d.ownerUserId == some u)
        (fun d => { d with projectId := none }) db.devices }

/-- `add_project_member`: an upsert of the role. A role outside the three is `none`. -/
def addProjectMember (db : Database) (projectId userId : Nat) (projectRole : Option ProjectRole) :
    Except Error Database :=
  match projectRole with
  | none => .error (.valueError "Invalid project role")
  | some projectRole =>
    if (db.getProject projectId).isNone ∨ (db.getUserAny userId).isNone then
      .error .foreignKeyViolation
    else if (db.projectMemberRole projectId userId).isNone then
      .ok { db with projectMembers := db.projectMembers ++ [{ projectId, userId, projectRole }] }
    else
      .ok { db with
        projectMembers :=
          updateWhere (fun pm => pm.projectId == projectId && pm.userId == userId)
            (fun pm => { pm with projectRole }) db.projectMembers }

/-- `remove_project_member`. -/
def removeProjectMember (now : Int) (db : Database) (projectId userId : Nat) :
    Except Error Database := do
  let db ← closeWork now (projectClosing db projectId (some userId)) db
  let db := detachDevices db projectId (some userId)
  return { db with
    projectMembers :=
      db.projectMembers.filter fun pm => !(pm.projectId == projectId && pm.userId == userId) }

/-- `set_project_enabled`. -/
def setProjectEnabled (now : Int) (db : Database) (projectId : Nat) (enabled : Bool) :
    Except Error Database := do
  raiseIf (db.getProject projectId = none) "Project not found"
  let db := { db with
    projects := updateWhere (·.id == projectId) (fun p => { p with enabled }) db.projects }
  if enabled then return db
  else
    let db ← closeWork now (projectClosing db projectId none) db
    return detachDevices db projectId none

/-- `set_project_member_role`; a role outside the three is `none`. -/
def setProjectMemberRole (now : Int) (db : Database) (projectId userId : Nat)
    (projectRole : Option ProjectRole) : Except Error Database :=
  match projectRole with
  | none => .error (.valueError "Invalid project role")
  | some projectRole => do
    raiseIf (db.projectMemberRole projectId userId = none) "Project member not found"
    let db := { db with
      projectMembers :=
        updateWhere (fun pm => pm.projectId == projectId && pm.userId == userId)
          (fun pm => { pm with projectRole }) db.projectMembers }
    if projectRole ≠ .viewer then return db
    else
      let db ← closeWork now (projectClosing db projectId (some userId)) db
      return detachDevices db projectId (some userId)

/-! ## Users -/

/-- The work of one user. -/
def userClosing (userId : Nat) : Closing where
  ofSegments ws := ws.userId == some userId
  sessions ws := ws.userId == some userId && ws.live
  breaks b := b.userId == userId
  greatest := true

/-- `set_user_enabled`; disabling a user also disables the user's devices. -/
def setUserEnabled (now : Int) (db : Database) (userId : Nat) (enabled : Bool) :
    Except Error Database := do
  raiseIf (db.getUserAny userId = none) "Member not found"
  let db := { db with
    users := updateWhere (·.id == userId) (fun u => { u with enabled }) db.users }
  if enabled then return db
  else
    let db ← closeWork now (userClosing userId) db
    return { db with
      devices :=
        updateWhere (·.ownerUserId == some userId) (fun d => { d with enabled := false })
          db.devices }

/-- `set_user_profile`, as far as it touches the columns of the model. The role `viewer` is refused
like a role outside the enumeration; a daily limit of `None` keeps the old one. -/
def setUserProfile (db : Database) (userId : Nat) (role : Option Role) (weeklyLimitMinutes : Int)
    (dailyLimitMinutes : Option Int) : Except Error Database :=
  match role with
  | none | some .viewer => .error (.valueError "Invalid role")
  | some role =>
    .ok { db with
      users :=
        updateWhere (·.id == userId)
          (fun u => { u with
            role
            weeklyLimitMinutes := weeklyLimitMinutes.toNat
            dailyLimitMinutes := (dailyLimitMinutes.map Int.toNat).getD u.dailyLimitMinutes })
          db.users }

/-! ## Devices and the allowed-apps policy -/

/-- The work on one device. -/
def deviceClosing (db : Database) (deviceId : Nat) : Closing :=
  let onDevice (ws : WorkSession) : Bool := ws.deviceId == deviceId
  { ofSegments := onDevice
    sessions := fun ws => onDevice ws && ws.live
    breaks := db.breakOf onDevice
    greatest := true }

/-- `set_device_enabled`; a device that is not there is no error. -/
def setDeviceEnabled (now : Int) (db : Database) (deviceId : Nat) (enabled : Bool) :
    Except Error Database :=
  match db.getDevice deviceId with
  | none => .ok db
  | some _ =>
    let db := { db with
      devices := updateWhere (·.id == deviceId) (fun d => { d with enabled }) db.devices }
    if enabled then .ok db else closeWork now (deviceClosing db deviceId) db

/-- The sessions `_stop_web_timer_sessions` selects: on a device that is not a desktop, not ended,
of a user whose effective policy is desktop-only. -/
def webTimerClosing (db : Database) (userId : Option Nat) : Closing :=
  let selected (ws : WorkSession) : Bool :=
    (db.getDevice ws.deviceId).any (·.trackerKind != .desktop) && ws.endedAt.isNone &&
      (ws.userId.elim db.allowedApps db.effectiveAllowedApps) == .desktopOnly &&
      userId.all fun u => ws.userId == some u
  { ofSegments := selected, sessions := selected, breaks := db.breakOf selected, greatest := false }

/-- `_stop_web_timer_sessions`. -/
def stopWebTimerSessions (now : Int) (db : Database) (userId : Option Nat) :
    Except Error Database :=
  closeWork now (webTimerClosing db userId) db

/-- `update_organization_settings`, as far as it touches `allowed_apps`: the value of the call, or
the current one where the call has none. -/
def updateOrganizationSettings (now : Int) (db : Database) (allowedApps : Option AllowedApps) :
    Except Error Database :=
  let db := { db with allowedApps := allowedApps.getD db.allowedApps }
  if db.allowedApps = .desktopOnly then stopWebTimerSessions now db none else .ok db

/-- `update_member_tracking_settings`, as far as it touches `allowed_apps`. The row goes when every
override is inherited; `otherOverrides` says that some other field of the call is not. -/
def updateMemberTrackingSettings (now : Int) (db : Database) (userId : Nat)
    (allowedApps : Option AllowedApps) (otherOverrides : Bool) : Except Error Database := do
  raiseIf (¬ (db.getUserAny userId).any fun target => target.enabled && target.role != .viewer)
    "Active trackable member not found"
  let rows := db.userTrackingSettings.filter (·.1 != userId)
  let db := { db with
    userTrackingSettings :=
      if allowedApps.isNone && !otherOverrides then rows else rows ++ [(userId, allowedApps)] }
  if allowedApps.getD db.allowedApps = .desktopOnly then stopWebTimerSessions now db (some userId)
  else return db

/-! ## Breaks and receipts -/

/-- `start_break`; a user with an open break keeps it. -/
def startBreak (now : Int) (db : Database) (userId sessionId : Nat) (paid : Bool) :
    Except Error Database :=
  if db.workBreaks.any fun b => b.userId == userId && b.endedAt.isNone then .ok db
  else if (db.getUserAny userId).isNone ∨ (db.getWorkSession sessionId).isNone then
    .error .foreignKeyViolation
  else
    .ok { db with
      workBreaks := db.workBreaks ++
        [{ id := db.nextId, userId, sessionId := some sessionId, startedAt := now, endedAt := none,
           paid }]
      nextId := db.nextId + 1 }

/-- `stop_break`. -/
def stopBreak (now : Int) (db : Database) (userId : Nat) : Except Error Database :=
  let selected (b : WorkBreak) : Bool := b.userId == userId && b.endedAt.isNone
  if db.workBreaks.any fun b => selected b && now ≤ b.startedAt then .error .checkViolation
  else
    .ok { db with
      workBreaks :=
        updateWhere selected (fun b => { b with endedAt := some now }) db.workBreaks }

/-- `delete_state_events_before`: receipts received before the cutoff go, unless no later
observation of their device is stored. -/
def deleteStateEventsBefore (db : Database) (cutoff : Int) : Database :=
  { db with
    agentStateEvents :=
      db.agentStateEvents.filter fun old =>
        !(old.receivedAt < cutoff &&
          db.agentStateEvents.any fun newer =>
            newer.deviceId == old.deviceId && old.observedAt < newer.observedAt) }

end Dayfinch
