/-
# Dayfinch.Work.Step -- the work store as a transition system

Every operation on the work store is one serialised transaction: it takes the database to the one it
commits, and an operation that raises leaves the database as it was. A run is a list of operations,
each with the server clock of its call, from a database where nobody has worked yet.
-/
import Dayfinch.Library.Run
import Dayfinch.Work.Closers

namespace Dayfinch

/-! ## Operations -/

/-- An operation on the work store with its arguments. -/
inductive WorkOp
  | sync (tie : AgentStateEvent → Nat) (now : Int) (call : SyncCall)
  | setTaskStatus (now : Int) (taskId : Nat) (status : Option TaskStatus)
  | closeTaskSessions (observedAt : Int) (taskIds : List Nat)
  | addProjectMember (projectId userId : Nat) (projectRole : Option ProjectRole)
  | removeProjectMember (now : Int) (projectId userId : Nat)
  | setProjectEnabled (now : Int) (projectId : Nat) (enabled : Bool)
  | setProjectMemberRole (now : Int) (projectId userId : Nat) (projectRole : Option ProjectRole)
  | setUserEnabled (now : Int) (userId : Nat) (enabled : Bool)
  | setUserProfile (userId : Nat) (role : Option Role) (weeklyLimitMinutes : Int)
      (dailyLimitMinutes : Option Int)
  | setDeviceEnabled (now : Int) (deviceId : Nat) (enabled : Bool)
  | stopWebTimerSessions (now : Int) (userId : Option Nat)
  | updateOrganizationSettings (now : Int) (allowedApps : Option AllowedApps)
  | updateMemberTrackingSettings (now : Int) (userId : Nat) (allowedApps : Option AllowedApps)
      (otherOverrides : Bool)
  | startBreak (now : Int) (userId sessionId : Nat) (paid : Bool)
  | stopBreak (now : Int) (userId : Nat)
  | deleteStateEventsBefore (cutoff : Int)

/-- The transaction of an operation. -/
def WorkOp.run (db : Database) : WorkOp → Except Error Database
  | .sync tie now call => (syncWorkSession tie now db call).map (·.1)
  | .setTaskStatus now taskId status => Dayfinch.setTaskStatus now db taskId status
  | .closeTaskSessions observedAt taskIds => Dayfinch.closeTaskSessions observedAt db taskIds
  | .addProjectMember projectId userId role => Dayfinch.addProjectMember db projectId userId role
  | .removeProjectMember now projectId userId =>
    Dayfinch.removeProjectMember now db projectId userId
  | .setProjectEnabled now projectId enabled => Dayfinch.setProjectEnabled now db projectId enabled
  | .setProjectMemberRole now projectId userId role =>
    Dayfinch.setProjectMemberRole now db projectId userId role
  | .setUserEnabled now userId enabled => Dayfinch.setUserEnabled now db userId enabled
  | .setUserProfile userId role weekly daily => Dayfinch.setUserProfile db userId role weekly daily
  | .setDeviceEnabled now deviceId enabled => Dayfinch.setDeviceEnabled now db deviceId enabled
  | .stopWebTimerSessions now userId => Dayfinch.stopWebTimerSessions now db userId
  | .updateOrganizationSettings now allowedApps =>
    Dayfinch.updateOrganizationSettings now db allowedApps
  | .updateMemberTrackingSettings now userId allowedApps otherOverrides =>
    Dayfinch.updateMemberTrackingSettings now db userId allowedApps otherOverrides
  | .startBreak now userId sessionId paid => Dayfinch.startBreak now db userId sessionId paid
  | .stopBreak now userId => Dayfinch.stopBreak now db userId
  | .deleteStateEventsBefore cutoff => .ok (Dayfinch.deleteStateEventsBefore db cutoff)

/-- One step of the work store. -/
def step (db : Database) (op : WorkOp) : Database := commit db (op.run db)

/-- A database with the same accounts, projects, devices, tasks and policies and no work yet. -/
def Database.withoutWork (db : Database) : Database :=
  { db with workSessions := [], segments := [], agentStateEvents := [], workBreaks := [] }

/-! ## Reading a step -/

/-- What holds of the database before an operation and of every database the operation can commit
holds after the step. -/
theorem step_preserves {P : Database → Prop} {db : Database} {op : WorkOp} (h : P db)
    (hok : ∀ db', op.run db = .ok db' → P db') : P (step db op) := by
  unfold step commit
  cases hrun : op.run db with
  | error e => exact h
  | ok db' => exact hok db' hrun

/-! ## A small office

The concrete runs of the development take place here: one project, one worker of it, with a laptop
and a phone. -/

def laptop : Device where
  id := 1
  enabled := true
  trackerKind := .desktop
  ownerUserId := some 1
  projectId := some 1

def phone : Device where
  id := 2
  enabled := true
  trackerKind := .mobile
  ownerUserId := some 1
  projectId := some 1

def office : Database where
  users := [{ id := 1, role := .member, enabled := true, dailyLimitMinutes := 0,
              weeklyLimitMinutes := 0 }]
  projects := [{ id := 1, enabled := true }]
  projectMembers := [{ projectId := 1, userId := 1, projectRole := .worker }]
  devices := [laptop, phone]

/-- A heartbeat every minute, as the agents send it when the user presses Start, Pause or Stop. -/
def pressed (device : Device) (eventId : Nat) (status : SessionStatus) (observedAt : Int) :
    SyncCall where
  device := device
  status := some status
  taskId := none
  selectedProjectId := none
  note := ""
  eventId := some eventId
  observedAt := some (Datetime.ofInstant observedAt)
  idleSeconds := 0
  heartbeatIntervalSeconds := 60
  transition := true

/-- Delivering such a heartbeat at the server clock `now`. -/
def deliver (now : Int) (call : SyncCall) : WorkOp := .sync (fun _ => 0) now call

end Dayfinch
