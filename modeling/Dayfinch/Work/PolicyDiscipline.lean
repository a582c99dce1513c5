/-
# Dayfinch.Work.PolicyDiscipline -- what holds of a running heartbeat or policy update

A heartbeat opens and continues work under the lock of its device and of its user's timer, and on a device that
is not a desktop also under the two policy locks, shared, while the policy allows all apps. An update writes the
policy under an exclusive lock, and ends all work that its policy forbids and that is there when it commits:
nobody who could add to it gets the shared lock. `Disciplined` states this of a transaction against the
committed database, and `PolicySound` what the committed database satisfies.
-/
import Dayfinch.Work.PolicyRows
import Dayfinch.Work.Step
import Dayfinch.Work.SyncEffect

namespace Dayfinch

open Library (UniqueKey Transaction Effect)
open PolicyChange (applyAll settleSession settleSegment insertedIds startedIds)

/-! ## The committed database -/

/-- Sessions and segments have keys and references, a session belongs to its device's owner, what goes on has not
ended, and nobody tracks past the policy. -/
structure PolicySound (db : Database) : Prop where
  sessionKeys : UniqueKey (·.id) db.workSessions
  segmentKeys : UniqueKey (·.id) db.segments
  segmentSession : ∀ g ∈ db.segments, ∃ ws ∈ db.workSessions, ws.id = g.sessionId
  owner : ∀ ws ∈ db.workSessions, ∃ device, db.getDevice ws.deviceId = some device ∧ ws.userId = device.ownerUserId
  unended : ∀ ws ∈ db.workSessions, ws.status ≠ .stopped → ws.endedAt = none
  openUnended : ∀ g ∈ db.segments, g.endedAt = none → ∀ ws ∈ db.workSessions, ws.id = g.sessionId →
    ws.endedAt = none
  noBypass : NoBypass db

/-! ## Requests, changes and actions -/

/-- A heartbeat, not an update of the policy. -/
def PolicyRequest.isSync : PolicyRequest → Bool
  | .sync _ _ => true
  | .organization _ _ | .member _ => false

namespace PolicyAction

/-- It will stop the session. -/
def stops (sessionId : Nat) : PolicyAction → Prop
  | stopSessions ids _ => sessionId ∈ ids
  | _ => False

/-- It will open or continue work in the session. -/
def works (sessionId : Nat) : PolicyAction → Prop
  | startSegment id _ => id = sessionId
  | continueSession id _ _ _ => id = sessionId
  | _ => False

/-- It will end the segment. -/
def ends (g : Segment) : PolicyAction → Prop
  | closeSegments id _ => id = g.sessionId
  | endSegments ids _ _ => g.id ∈ ids
  | _ => False

/-- It will find the segments that the policy forbids. -/
def findsSegments : PolicyAction → Prop
  | readOrganization _ | closeWebSegments _ _ => True
  | _ => False

/-- It will find the sessions that the policy forbids. -/
def findsSessions : PolicyAction → Prop
  | readOrganization _ | closeWebSessions _ _ => True
  | _ => False

/-- Before the first change: there is nothing else to do yet. -/
def entering : PolicyAction → Prop
  | lockGlobalShared _ | lockMemberShared _ | checkPolicy _ | lockTimer _ | lockDevice _ | readDuplicate _
  | readPrevious _ | readSession _ _ | readOther _ _ _ | lockGlobal _ _ | writeOrganization _ _ | lockMembers _
  | lockMember _ | checkTarget _ | writeMember _ => True
  | _ => False

end PolicyAction

section

variable (db : Database) (t : PolicyTransaction)

/-- A change that the transaction has made is such, or an action that it has still to do. -/
def Will (p : PolicyChange → Prop) (q : PolicyAction → Prop) : Prop :=
  (∃ c ∈ t.changes, p c) ∨ ∃ a ∈ t.todo, q a

/-- The transaction stops the session. -/
def StopsSession (sessionId : Nat) : Prop := Will t (·.stops sessionId) (·.stops sessionId)

/-- The transaction opens or continues work in the session. -/
def WorksIn (sessionId : Nat) : Prop := Will t (·.works sessionId) (·.works sessionId)

/-- The transaction ends the segment. -/
def EndsSegment (g : Segment) : Prop := Will t (·.ends g) (·.ends g)

/-! ## Locks -/

/-- The locks under which a heartbeat may stop a session. -/
def HoldsSession (ws : WorkSession) : Prop :=
  (.device ws.deviceId, .exclusive) ∈ t.locks ∨ ∃ u, ws.userId = some u ∧ (.activeTimer u, .exclusive) ∈ t.locks

/-- The locks under which a heartbeat opens or continues work. -/
structure WorkLocks (ws : WorkSession) : Prop where
  device : (.device ws.deviceId, .exclusive) ∈ t.locks
  timer : ∀ u, ws.userId = some u → (.activeTimer u, .exclusive) ∈ t.locks

/-- Off the desktop, work needs a user who may use all apps, and the policy locks. -/
def Permits (ws : WorkSession) : Prop :=
  db.nonDesktop ws = true → ∃ u, ws.userId = some u ∧ (.global, .shared) ∈ t.locks ∧
    (.member u, .shared) ∈ t.locks ∧ db.allowedFor (some u) = .all

/-- The locks under which a user's policy is enforced. -/
def Enforces (userId : Option Nat) : Prop :=
  (.global, .exclusive) ∈ t.locks ∨
    ∃ u, userId = some u ∧ (.member u, .exclusive) ∈ t.locks ∧ (.global, .shared) ∈ t.locks

/-- The session is one that the policy of the transaction forbids. -/
structure Restricted (ws : WorkSession) : Prop where
  nonDesktop : db.nonDesktop ws = true
  enforces : Enforces t ws.userId
  policy : (applyAll t.changes db).allowedFor ws.userId = .desktopOnly

/-! ## Changes and actions -/

/-- A session that the transaction may stop. -/
def Stoppable (sessionId : Nat) : Prop :=
  ∃ ws ∈ db.workSessions, ws.id = sessionId ∧ (t.request.isSync = true ∧ HoldsSession t ws ∨ Restricted db t ws)

/-- A segment that the transaction may end. -/
def Endable (id : Nat) : Prop :=
  t.request.isSync = true ∨
    ∃ g ∈ db.segments, g.id = id ∧ ∃ ws ∈ db.workSessions, ws.id = g.sessionId ∧ Restricted db t ws

/-- A session in which the transaction may open work. -/
structure Workable (ws : WorkSession) : Prop where
  unended : ws.endedAt = none
  locks : WorkLocks t ws
  permits : Permits db t ws

/-- The session, committed or inserted by the transaction, is one in which it may open work. -/
def HasWorkable (sessionId : Nat) : Prop :=
  ∃ ws, (ws ∈ db.workSessions ∨ .sessionInserted ws ∈ t.changes) ∧ ws.id = sessionId ∧ Workable db t ws

/-- What justifies a change. -/
def ChangeOk : PolicyChange → Prop
  | .segmentEnded id _ => Endable db t id
  | .segmentStarted g => HasWorkable db t g.sessionId
  | .sessionStopped id _ => Stoppable db t id
  | .sessionContinued id status _ _ =>
    ∃ ws ∈ db.workSessions, ws.id = id ∧ ws.endedAt = none ∧ (status = .active → Permits db t ws)
  | .sessionInserted ws =>
    ws.endedAt = none ∧ (∃ device, db.getDevice ws.deviceId = some device ∧ ws.userId = device.ownerUserId) ∧
      (ws.status = .active → Permits db t ws)
  | .breakEnded _ _ | .receipt _ => True
  | .allowedApps _ => (.global, .exclusive) ∈ t.locks ∧ t.request.isSync = false
  | .memberSettings u _ =>
    ((.member u, .exclusive) ∈ t.locks ∧ (.global, .shared) ∈ t.locks) ∧ t.request.isSync = false

/-- The heartbeat is past its checks: its device is as it was loaded, and has its owner. -/
structure AdmittedSync (h : PendingSync) : Prop where
  sync : t.request.isSync = true
  device : db.getDevice h.call.device.id = some h.call.device
  owner : ∀ owner, h.adm.owner = some owner → h.call.device.ownerUserId = some owner.id
  active : h.adm.status = .active → h.adm.owner.isSome = true

/-- The policy has been looked at, if it matters. -/
def PolicyChecked (h : PendingSync) : Prop :=
  h.adm.status = .active → h.call.device.trackerKind ≠ .desktop → ∃ u, h.call.device.ownerUserId = some u ∧
    (.global, .shared) ∈ t.locks ∧ (.member u, .shared) ∈ t.locks ∧ db.allowedFor (some u) = .all

/-- The heartbeat has all its locks. -/
structure Cleared (h : PendingSync) : Prop where
  admitted : AdmittedSync db t h
  policy : PolicyChecked db t h
  timer : ∀ u, h.call.device.ownerUserId = some u → (.activeTimer u, .exclusive) ∈ t.locks
  device : (.device h.call.device.id, .exclusive) ∈ t.locks

/-- An update of the organisation's policy, or of one user's: it holds the locks, and changes no other policy. -/
structure HoldsPolicy (userId : Option Nat) : Prop where
  update : t.request.isSync = false
  enforces : Enforces t userId
  only : ∀ u, userId = some u → ∀ c ∈ t.changes, ∀ v, c.rules v → v = some u

/-- What an action relies on. -/
def ActionOk : PolicyAction → Prop
  | .lockGlobalShared h => AdmittedSync db t h
  | .lockMemberShared h => AdmittedSync db t h ∧ (.global, .shared) ∈ t.locks
  | .checkPolicy h =>
    AdmittedSync db t h ∧ (.global, .shared) ∈ t.locks ∧
      ∀ owner, h.adm.owner = some owner → (.member owner.id, .shared) ∈ t.locks
  | .lockTimer h => AdmittedSync db t h ∧ PolicyChecked db t h
  | .lockDevice h =>
    AdmittedSync db t h ∧ PolicyChecked db t h ∧
      ∀ u, h.call.device.ownerUserId = some u → (.activeTimer u, .exclusive) ∈ t.locks
  | .readDuplicate h | .readPrevious h | .readSession h _ | .openSession h _ => Cleared db t h
  | .readOther h _ session =>
    Cleared db t h ∧ ∀ s, session = some s → ∃ ws ∈ db.workSessions, ws.id = s.id ∧
      ws.deviceId = h.call.device.id ∧ (h.adm.status = .active → ws.endedAt = none)
  | .closeSegments _ _ => t.request.isSync = true
  | .startSegment id _ => HasWorkable db t id
  | .continueSession id status _ _ =>
    status ≠ .stopped ∧ ∃ ws ∈ db.workSessions, ws.id = id ∧ (status = .active → Workable db t ws)
  | .recordEvent _ => True
  | .lockGlobal _ _ | .lockMembers _ => t.request.isSync = false
  | .writeOrganization _ _ => HoldsPolicy t none
  | .lockMember _ => t.request.isSync = false ∧ (.global, .shared) ∈ t.locks
  | .checkTarget m | .writeMember m =>
    ((.member m.userId, .exclusive) ∈ t.locks ∧ (.global, .shared) ∈ t.locks) ∧ t.request.isSync = false
  | .readOrganization m =>
    HoldsPolicy t (some m.userId) ∧ ((applyAll t.changes db).policyOf (some m.userId)).2 = m.allowedApps
  | .closeWebSegments _ userId | .closeWebSessions _ userId => HoldsPolicy t userId
  | .closeWebBreaks _ _ | .endBreaks _ _ => True
  | .endSegments ids _ _ => ∀ id ∈ ids, Endable db t id
  | .stopSessions ids _ => ∀ id ∈ ids, Stoppable db t id

/-- **What holds of a running transaction.** -/
structure Disciplined : Prop where
  locked : ∀ c ∈ t.changes, ∀ name, c.lock = some name → (name, .exclusive) ∈ t.locks
  changes : ∀ c ∈ t.changes, ChangeOk db t c
  todo : ∀ a ∈ t.todo, ActionOk db t a
  entering : ∀ a ∈ t.todo, a.entering → t.changes = [] ∧ t.todo = [a]
  findsFirst : ∀ a ∈ t.todo.tail, ¬ a.findsSegments
  apart : ∀ id, WorksIn t id → ¬ StopsSession t id
  idle : t.request.isSync = false → ∀ id, ¬ WorksIn t id
  sessionKeys : (db.workSessions.map (·.id) ++ insertedIds t.changes).Nodup
  segmentKeys : (db.segments.map (·.id) ++ startedIds t.changes).Nodup
  ending : ∀ g ∈ db.segments, g.endedAt = none → StopsSession t g.sessionId → EndsSegment t g
  segments : ∀ g ∈ db.segments, g.endedAt = none → ∀ ws ∈ db.workSessions, ws.id = g.sessionId →
    db.nonDesktop ws = true → (applyAll t.changes db).allowedFor ws.userId = .desktopOnly →
      EndsSegment t g ∨ ∃ a ∈ t.todo, a.findsSegments
  sessions : ∀ ws ∈ db.workSessions, ws.status = .active → db.nonDesktop ws = true →
    (applyAll t.changes db).allowedFor ws.userId = .desktopOnly →
      StopsSession t ws.id ∨ ∃ a ∈ t.todo, a.findsSessions

end

end Dayfinch
