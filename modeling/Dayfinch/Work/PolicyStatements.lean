/-
# Dayfinch.Work.PolicyStatements -- heartbeats and policy updates, statement by statement

`sync_work_session`, `update_organization_settings` with `allowed_apps`, and `update_member_tracking_settings` as
programs of statements that run interleaved. The policy is read and written under two advisory locks, one for
the organisation and one for each member; a heartbeat also holds a lock for its user's timer, and the row of its
device. What a heartbeat decides on is what it read: its list of statements is settled when it has read the
user's session on another device.

An `UPDATE` takes two steps, as PostgreSQL executes it: the rows are selected from a snapshot, and when none of
them is locked by another transaction those that still qualify are written. The identifier that
`uuid.uuid4()` returns is the value drawn for the step.
-/
import Dayfinch.Library.Transaction
import Dayfinch.Work.Closers

namespace Dayfinch

open Library (updateWhere Effect Transaction Programs Store StoreOp)

/-! ## Locks and changes -/

/-- The advisory locks, by their keys, and the rows that are written or selected `FOR UPDATE`. -/
inductive PolicyLock
  | global
  | member (userId : Nat)
  | activeTimer (userId : Nat)
  | device (id : Nat)
  | organization
  | memberRow (userId : Nat)
  | session (id : Nat)
  | segment (id : Nat)
  | workBreak (id : Nat)
  deriving DecidableEq, Repr

/-- What a statement writes to one row. The row of a member's settings is deleted when it is `none`. -/
inductive PolicyChange
  | segmentEnded (id : Nat) (endedAt : Int)
  | segmentStarted (g : Segment)
  | sessionStopped (id : Nat) (endedAt : Int)
  | sessionContinued (id : Nat) (status : SessionStatus) (note : String) (now : Int)
  | sessionInserted (ws : WorkSession)
  | breakEnded (id : Nat) (endedAt : Int)
  | receipt (event : AgentStateEvent)
  | allowedApps (value : AllowedApps)
  | memberSettings (userId : Nat) (row : Option (Option AllowedApps))
  deriving DecidableEq, Repr

namespace PolicyChange

/-- What becomes of a session. -/
def onSession : PolicyChange → WorkSession → WorkSession
  | sessionStopped id endedAt, ws => if ws.id = id then ws.stop endedAt else ws
  | sessionContinued id status note now, ws => if ws.id = id then ws.continueAs status note now else ws
  | _, ws => ws

/-- The sessions it adds. -/
def newSessions : PolicyChange → List WorkSession
  | sessionInserted ws => [ws]
  | _ => []

/-- What becomes of a segment. -/
def onSegment : PolicyChange → Segment → Segment
  | segmentEnded id endedAt, g => if g.id = id then { g with endedAt := some endedAt } else g
  | _, g => g

/-- The segments it adds. -/
def newSegments : PolicyChange → List Segment
  | segmentStarted g => [g]
  | _ => []

/-- What becomes of a break. -/
def onBreak : PolicyChange → WorkBreak → WorkBreak
  | breakEnded id endedAt, b => if b.id = id then { b with endedAt := some endedAt } else b
  | _, b => b

/-- The receipts it adds. -/
def newReceipts : PolicyChange → List AgentStateEvent
  | receipt event => [event]
  | _ => []

/-- The organisation's `allowed_apps` afterwards. -/
def onAllowedApps : PolicyChange → AllowedApps → AllowedApps
  | allowedApps value, _ => value
  | _, current => current

/-- `user_tracking_settings` afterwards. -/
def onMemberSettings : PolicyChange → List (Nat × Option AllowedApps) → List (Nat × Option AllowedApps)
  | memberSettings userId row, rows => rows.filter (·.1 != userId) ++ (row.map fun v => (userId, v)).toList
  | _, rows => rows

/-- The database with the change. -/
def apply (db : Database) (c : PolicyChange) : Database :=
  { db with
    workSessions := db.workSessions.map c.onSession ++ c.newSessions
    segments := db.segments.map c.onSegment ++ c.newSegments
    workBreaks := db.workBreaks.map c.onBreak
    agentStateEvents := db.agentStateEvents ++ c.newReceipts
    allowedApps := c.onAllowedApps db.allowedApps
    userTrackingSettings := c.onMemberSettings db.userTrackingSettings }

/-- The row that is locked with the change. -/
def lock : PolicyChange → Option PolicyLock
  | segmentEnded id _ => some (.segment id)
  | segmentStarted g => some (.segment g.id)
  | sessionStopped id _ | sessionContinued id _ _ _ => some (.session id)
  | sessionInserted ws => some (.session ws.id)
  | breakEnded id _ => some (.workBreak id)
  | receipt _ => none
  | allowedApps _ => some .organization
  | memberSettings userId _ => some (.memberRow userId)

end PolicyChange

/-! ## Programs -/

/-- A call of `sync_work_session` that is past its checks. -/
structure PendingSync where
  now : Int
  call : SyncCall
  adm : Admission

/-- A call of `update_member_tracking_settings`; `otherOverrides` says that a field besides `allowed_apps` is
not inherited. -/
structure MemberUpdate where
  now : Int
  userId : Nat
  allowedApps : Option AllowedApps
  otherOverrides : Bool

/-- The statements. -/
inductive PolicyAction
  | lockGlobalShared (h : PendingSync)
  | lockMemberShared (h : PendingSync)
  | checkPolicy (h : PendingSync)
  | lockTimer (h : PendingSync)
  | lockDevice (h : PendingSync)
  | readDuplicate (h : PendingSync)
  | readPrevious (h : PendingSync)
  | readSession (h : PendingSync) (previous : Option AgentStateEvent)
  | readOther (h : PendingSync) (previous : Option AgentStateEvent) (session : Option WorkSession)
  | closeSegments (sessionId : Nat) (endedAt : Int)
  | openSession (h : PendingSync) (observed : Int)
  | startSegment (sessionId : Nat) (startedAt : Int)
  | continueSession (sessionId : Nat) (status : SessionStatus) (note : String) (now : Int)
  | recordEvent (event : AgentStateEvent)
  | lockGlobal (now : Int) (value : AllowedApps)
  | writeOrganization (now : Int) (value : AllowedApps)
  | lockMembers (m : MemberUpdate)
  | lockMember (m : MemberUpdate)
  | checkTarget (m : MemberUpdate)
  | writeMember (m : MemberUpdate)
  | readOrganization (m : MemberUpdate)
  | closeWebSegments (now : Int) (userId : Option Nat)
  | closeWebBreaks (now : Int) (userId : Option Nat)
  | closeWebSessions (now : Int) (userId : Option Nat)
  | endSegments (ids : List Nat) (endedAt : Int) (greatest : Bool)
  | endBreaks (ids : List Nat) (endedAt : Int)
  | stopSessions (ids : List Nat) (endedAt : Int)

/-- The three operations. A heartbeat is called with the row of its device, as its caller loaded it. -/
inductive PolicyRequest
  | sync (now : Int) (call : SyncCall)
  | organization (now : Int) (value : AllowedApps)
  | member (m : MemberUpdate)

/-- A statement that writes rows, and locks them. -/
def writes (changes : List PolicyChange) (todo : List PolicyAction := []) : Effect PolicyLock PolicyAction PolicyChange where
  locks := changes.filterMap fun c => c.lock.map fun name => (name, .exclusive)
  changes := changes
  todo := todo

namespace PendingSync

variable (h : PendingSync)

/-- The first statement: the policy is looked at for an active heartbeat that is not a desktop's. -/
def entry : PolicyAction :=
  if h.adm.status = .active ∧ h.adm.owner.isSome ∧ h.call.device.trackerKind ≠ .desktop then
    .lockGlobalShared h
  else .lockTimer h

/-- `_stop_session`. -/
def stopStatements (sessionId : Nat) (endedAt : Int) : List PolicyAction :=
  [.closeSegments sessionId endedAt, .stopSessions [sessionId] endedAt]

/-- The receipt, of an event with an id. -/
def recordStatements (observed : Int) (sessionId : Option Nat) : List PolicyAction :=
  (h.call.eventId.map fun eventId =>
    .recordEvent (newReceipt h.now h.call h.adm observed sessionId eventId)).toList

/-- Without a session: none is needed, or a new one. -/
def startWork (observed : Int) : List PolicyAction :=
  if h.adm.status = .stopped then h.recordStatements observed none else [.openSession h observed]

/-- The segment statement of a kept session. -/
def moveStatements (observed : Int) (session : WorkSession) : List PolicyAction :=
  if h.adm.status = .paused ∧ session.status = .active then
    [.closeSegments session.id (observed - seconds h.call.idleSeconds)]
  else if h.adm.status = .active ∧ session.status = .paused then [.startSegment session.id observed]
  else []

/-- With a session that goes on, or stops. -/
def keepWork (observed : Int) (session : WorkSession) : List PolicyAction :=
  if h.adm.status = .stopped then
    stopStatements session.id observed ++ h.recordStatements observed none
  else
    h.moveStatements observed session ++
      .continueSession session.id h.adm.status (cleanNote h.call.note) h.now ::
        h.recordStatements observed (some session.id)

/-- The end of the lease that has run out before this event. -/
def lapsedAt (previous : Option AgentStateEvent) (observed : Int) : Option Int :=
  (previous.filter fun p =>
    p.status == .active && leaseExpired p h.call.heartbeatIntervalSeconds observed).map leaseEnd

/-- The statements about the device's session, as it was read. -/
def ownStatements (previous : Option AgentStateEvent) (observed : Int) :
    Option WorkSession → List PolicyAction
  | none => h.startWork observed
  | some session =>
    match h.lapsedAt previous observed with
    | some endedAt => stopStatements session.id endedAt ++ h.startWork observed
    | none =>
      if session.taskId ≠ h.call.taskId ∨ session.projectId ≠ h.adm.projectId then
        stopStatements session.id observed ++ h.startWork observed
      else h.keepWork observed session

/-- The owner's session on another device, selected `FOR UPDATE`, and the statements that follow. -/
def readOther (db : Database) (previous : Option AgentStateEvent) (session : Option WorkSession) :
    Except Error (Effect PolicyLock PolicyAction PolicyChange) :=
  let observed := clampToPrevious previous h.adm.observed
  let own := h.ownStatements previous observed session
  if h.adm.status = .stopped then .ok { todo := own }
  else
    match otherSession db h.call with
    | none => .ok { todo := own }
    | some other => do
      raiseIf (h.call.transition = false) "Another device is tracking; press Start to switch devices"
      raiseIf (observed < other.startedAt) "Another device is already tracking newer time"
      return { locks := [(.session other.id, .exclusive)], todo := stopStatements other.id observed ++ own }

/-- The row of the new session, and what follows it. -/
def openSession (db : Database) (uuid : Nat) (observed : Int) :
    Except Error (Effect PolicyLock PolicyAction PolicyChange) :=
  if db.workSessions.any (·.id == uuid) then .error .uniqueViolation
  else do
    let row := { newWorkSession h.now db h.call h.adm observed with id := uuid }
    let _ ← insertWorkSession db row
    return writes [.sessionInserted row]
      ((if h.adm.status = .active then [.startSegment uuid observed] else []) ++
        h.recordStatements observed (some uuid))

end PendingSync

/-- `_stop_web_timer_sessions`. -/
def webTimerStatements (now : Int) (userId : Option Nat) : List PolicyAction :=
  [.closeWebSegments now userId, .closeWebBreaks now userId, .closeWebSessions now userId]

/-- What a statement does on the database it reads. -/
def PolicyAction.act (tie : AgentStateEvent → Nat) (db : Database) (uuid : Nat) :
    PolicyAction → Except Error (Effect PolicyLock PolicyAction PolicyChange)
  | .lockGlobalShared h => .ok { locks := [(.global, .shared)], todo := [.lockMemberShared h] }
  | .lockMemberShared h =>
    .ok { locks := h.adm.owner.toList.map fun owner => (.member owner.id, .shared), todo := [.checkPolicy h] }
  | .checkPolicy h => do
    checkDesktopPolicy db h.call h.adm
    return { todo := [.lockTimer h] }
  | .lockTimer h =>
    .ok { locks := h.call.device.ownerUserId.toList.map fun userId => (.activeTimer userId, .exclusive)
          todo := [.lockDevice h] }
  | .lockDevice h => .ok { locks := [(.device h.call.device.id, .exclusive)], todo := [.readDuplicate h] }
  | .readDuplicate h => .ok { todo := if (duplicateReceipt db h.call).isSome then [] else [.readPrevious h] }
  | .readPrevious h => .ok { todo := [.readSession h (previousReceipt tie db h.call)] }
  | .readSession h previous => .ok { todo := [.readOther h previous (deviceSession db h.call)] }
  | .readOther h previous session => h.readOther db previous session
  | .closeSegments sessionId endedAt =>
    .ok { todo := [.endSegments ((db.openSegments sessionId).map (·.id)) endedAt true] }
  | .openSession h observed => h.openSession db uuid observed
  | .startSegment sessionId startedAt =>
    if db.segments.any (·.id == uuid) then .error .uniqueViolation
    else .ok (writes [.segmentStarted { id := uuid, sessionId, startedAt, endedAt := none }])
  | .continueSession sessionId status note now => .ok (writes [.sessionContinued sessionId status note now])
  | .recordEvent event => do
    let _ ← insertStateEvent db event
    return writes [.receipt event]
  | .lockGlobal now value => .ok { locks := [(.global, .exclusive)], todo := [.writeOrganization now value] }
  | .writeOrganization now value =>
    .ok (writes [.allowedApps value] (if value = .desktopOnly then webTimerStatements now none else []))
  | .lockMembers m => .ok { locks := [(.global, .shared)], todo := [.lockMember m] }
  | .lockMember m => .ok { locks := [(.member m.userId, .exclusive)], todo := [.checkTarget m] }
  | .checkTarget m => do
    raiseIf (¬ (db.getUserAny m.userId).any fun target => target.enabled && target.role != .viewer)
      "Active trackable member not found"
    return { todo := [.writeMember m] }
  | .writeMember m =>
    let row := if m.allowedApps.isNone && !m.otherOverrides then none else some m.allowedApps
    .ok (writes [.memberSettings m.userId row] [.readOrganization m])
  | .readOrganization m =>
    .ok { todo :=
      if m.allowedApps.getD db.allowedApps = .desktopOnly then webTimerStatements m.now (some m.userId) else [] }
  | .closeWebSegments now userId =>
    let rows := db.segments.filter fun g =>
      g.isOpen && db.sessionIs (webTimerClosing db userId).ofSegments g.sessionId
    .ok { todo := [.endSegments (rows.map (·.id)) now false] }
  | .closeWebBreaks now userId =>
    .ok { todo := [.endBreaks ((db.workBreaks.filter (webTimerClosing db userId).selectsBreak).map (·.id)) now] }
  | .closeWebSessions now userId =>
    .ok { todo := [.stopSessions ((db.workSessions.filter (webTimerClosing db userId).sessions).map (·.id)) now] }
  | .endSegments ids endedAt greatest =>
    .ok (writes ((db.segments.filter fun g => g.isOpen && ids.contains g.id).map fun g =>
      .segmentEnded g.id (if greatest then max g.startedAt endedAt else endedAt)))
  | .endBreaks ids endedAt =>
    let rows := db.workBreaks.filter fun b => b.endedAt.isNone && ids.contains b.id
    if rows.any fun b => decide (endedAt ≤ b.startedAt) then .error .checkViolation
    else .ok (writes (rows.map fun b => .breakEnded b.id endedAt))
  | .stopSessions ids endedAt => .ok (writes (ids.map fun id => .sessionStopped id endedAt))

/-- How a call begins. A heartbeat that is not admitted, or has no status, opens no transaction. -/
def PolicyRequest.start (db : Database) : PolicyRequest → Option (List PolicyAction)
  | .sync now call =>
    if db.getDevice call.device.id = some call.device then
      call.status.bind fun status =>
        (admitSync now db call status).toOption.map fun adm => [PendingSync.entry { now, call, adm }]
    else none
  | .organization now value => some [.lockGlobal now value]
  | .member m => some [.lockMembers m]

/-- The three operations as programs. -/
def policyPrograms (tie : AgentStateEvent → Nat) :
    Programs Database PolicyRequest PolicyLock PolicyAction PolicyChange Nat Error where
  start := PolicyRequest.start
  act := PolicyAction.act tie
  apply := PolicyChange.apply

/-- A running call of one of the three. -/
abbrev PolicyTransaction := Transaction PolicyRequest PolicyLock PolicyAction PolicyChange

/-- The database and the running calls. -/
abbrev PolicyStore := Store Database PolicyRequest PolicyLock PolicyAction PolicyChange

/-- A step of a call. -/
abbrev PolicyOp := StoreOp PolicyRequest Nat

end Dayfinch
