/-
# Dayfinch.Work.WebTimer -- the web timer, the field timer and the geofences

Members also track time in the browser. Their timer runs on a virtual device of the platform
"Web timer", and the routes around it read which session is running, choose a device, write a break,
and hand the rest to `sync_work_session`. Every repository call is a transaction of its own: what a
route has written before a call that fails stays written.

A route takes the store to a store and an answer: `accepted` for a redirect or a body, `refused` for
an HTTP error with its detail, `failed` for an exception that leaves the route. A request reads one
server clock, `now`.

Some queries leave the choice among several rows to the database (`LIMIT 1` with ties or without an
order). `Picks` carries those choices; the rank of projects also stands for the order of their names.
The distance test of a geofence is floating-point SQL: a location carries its outcome for every
fence.
-/
import Mathlib.Logic.Function.Basic
import Dayfinch.Work.StoreInvariant

namespace Dayfinch

open Library (latestBy run)

/-! ## The tables around the timer -/

/-- `geofences.enter_action`. -/
inductive EnterAction
  | none | start
  deriving DecidableEq, Repr

/-- `geofences.exit_action`. -/
inductive ExitAction
  | none | stop
  deriving DecidableEq, Repr

/-- `location_events.event_type`. -/
inductive LocationEventType
  | position | enter | exit
  deriving DecidableEq, Repr

/-- `geofences`. -/
structure Geofence where
  id : Nat
  projectId : Option Nat
  radiusMeters : Int
  active : Bool
  enterAction : EnterAction
  exitAction : ExitAction
  deriving DecidableEq, Repr

/-- `location_events`. -/
structure LocationEvent where
  id : Nat
  deviceId : Nat
  userId : Option Nat
  sessionId : Option Nat
  recordedAt : Int
  geofenceId : Option Nat
  eventType : LocationEventType
  deriving DecidableEq, Repr

/-- The work store with the tables of the web timer. `platform` is that column of `devices`, by
device. -/
structure WebStore where
  db : Database
  platform : Nat → String := fun _ => ""
  geofences : List Geofence := []
  locationEvents : List LocationEvent := []

/-- The choices that the queries of a request leave to the database. -/
structure Picks where
  device : Device → Nat := fun _ => 0
  fence : Geofence → Nat := fun _ => 0
  project : Project → Nat := fun _ => 0
  location : LocationEvent → Nat := fun _ => 0
  receipt : AgentStateEvent → Nat := fun _ => 0

/-- What a route answers. -/
inductive TimerAnswer
  | accepted
  | refused (status : Nat) (detail : String)
  | failed (error : Error)
  deriving DecidableEq, Repr

/-! ## Devices and the running timer -/

/-- The platform of the virtual device. -/
def webTimerPlatform : String := "Web timer"

/-- `platform='Web timer'`, of a device that exists. -/
def WebStore.isWebTimer (s : WebStore) (deviceId : Nat) : Bool :=
  (s.db.getDevice deviceId).isSome && s.platform deviceId == webTimerPlatform

/-- `active_timer`: the live session of the user on a web timer. -/
def WebStore.activeTimer (s : WebStore) (userId : Nat) : Option WorkSession :=
  latestBy (·.startedAt) (fun _ => 0)
    (s.db.workSessions.filter fun ws =>
      ws.userId == some userId && s.isWebTimer ws.deviceId && ws.live)

/-- The web timer device of a user, if there is one: `LIMIT 1` without an order. -/
def WebStore.ownWebTimer (s : WebStore) (pick : Picks) (userId : Nat) : Option Device :=
  latestBy (fun _ => 0) pick.device
    (s.db.devices.filter fun d => d.ownerUserId == some userId && s.isWebTimer d.id)

/-- An identifier that no row uses for a device: `uuid.uuid4()`. -/
def WebStore.freshDeviceId (s : WebStore) : Nat :=
  (s.db.devices.map (·.id) ++ s.db.workSessions.map (·.deviceId) ++
    s.db.agentStateEvents.map (·.deviceId) ++ s.locationEvents.map (·.deviceId)).foldr max 0 + 1

/-- `INSERT INTO devices`, with its foreign keys on `users` and `projects`. -/
def WebStore.insertDevice (s : WebStore) (trackerKind : TrackerKind) (ownerUserId projectId : Option Nat)
    (platform : String) : Except Error (WebStore × Device) :=
  if ¬ ownerUserId.all (fun u => (s.db.getUserAny u).isSome) ∨
      ¬ projectId.all (fun p => (s.db.getProject p).isSome) then .error .foreignKeyViolation
  else
    let device : Device :=
      { id := s.freshDeviceId, enabled := true, trackerKind, ownerUserId, projectId }
    .ok
      ({ s with
          db := { s.db with devices := s.db.devices ++ [device] }
          platform := Function.update s.platform device.id platform },
        device)

/-- `web_timer_device`: the user's web timer, or a new one. -/
def WebStore.webTimerDevice (s : WebStore) (pick : Picks) (userId : Nat) (projectId : Option Nat) :
    Except Error (WebStore × Device) :=
  match s.ownWebTimer pick userId with
  | some device => .ok (s, device)
  | none => s.insertDevice .web (some userId) projectId webTimerPlatform

/-- `touch_device`: an empty platform keeps the old one. -/
def WebStore.touchDevice (s : WebStore) (deviceId : Nat) (platform : String) : WebStore :=
  if platform = "" ∨ (s.db.getDevice deviceId).isNone then s
  else { s with platform := Function.update s.platform deviceId (String.ofList (platform.toList.take 80)) }

/-! ## Accounts and projects -/

/-- `require_worker`. -/
def requireWorker (db : Database) (userId : Nat) : Except TimerAnswer User :=
  match db.getUser userId with
  | none => .error (.refused 401 "Login required")
  | some user =>
    if user.role = .viewer then .error (.refused 403 "Read-only viewers cannot modify work")
    else .ok user

/-- `can_track_project`. -/
def canTrackProject (db : Database) (user : User) (projectId : Nat) : Bool :=
  (db.getProject projectId).any fun project =>
    project.enabled &&
      (user.role == .admin || user.role == .manager ||
        (user.role == .member && canTrack (db.projectMemberRole projectId user.id)))

/-- The first of `_trackable_projects`. -/
def firstTrackable (pick : Picks) (db : Database) (user : User) : Option Nat :=
  (latestBy (fun _ => 0) pick.project
    (db.projects.filter fun project =>
      project.enabled &&
        (user.role == .admin || user.role == .manager ||
          (user.role == .member && canTrack (db.projectMemberRole project.id user.id))))).map (·.id)

/-- The detail of a refusal by the allowed-apps policy. -/
def desktopDetail : String := "Desktop tracking is required by policy"

/-- `_web_timer_allowed`. -/
def webTimerAllowed (db : Database) (userId : Nat) : Bool := db.effectiveAllowedApps userId == .all

/-- `_require_web_timer_allowed`. -/
def requireWebTimerAllowed (db : Database) (userId : Nat) : Except TimerAnswer Unit :=
  if webTimerAllowed db userId then .ok () else .error (.refused 403 desktopDetail)

/-! ## Calling `sync_work_session` -/

/-- The call of a web timer route, which carries no event id. -/
def timerCall (device : Device) (status : SessionStatus) (taskId projectId : Option Nat)
    (transition : Bool) : SyncCall where
  device := device
  status := some status
  taskId := taskId
  selectedProjectId := projectId
  note := ""
  eventId := none
  observedAt := none
  idleSeconds := 0
  heartbeatIntervalSeconds := 60
  transition := transition

/-- `except ValueError`: the message becomes the detail of a 403 or a 422. -/
def answerValueError : Error → TimerAnswer
  | .valueError message => .refused (if message = desktopDetail then 403 else 422) message
  | error => .failed error

/-- A route's call of `sync_work_session`, with what the route makes of an exception. -/
def WebStore.sync (s : WebStore) (pick : Picks) (now : Int) (call : SyncCall)
    (onError : Error → TimerAnswer) : WebStore × TimerAnswer :=
  match syncWorkSession pick.receipt now s.db call with
  | .ok (db, _) => ({ s with db }, .accepted)
  | .error error => (s, onError error)

/-! ## `POST /timer/..` -/

/-- `start_web_timer`. -/
def startWebTimer (pick : Picks) (now : Int) (s : WebStore) (userId projectId : Nat)
    (taskId : Option Nat) : WebStore × TimerAnswer :=
  match requireWorker s.db userId with
  | .error answer => (s, answer)
  | .ok user =>
    match requireWebTimerAllowed s.db userId with
    | .error answer => (s, answer)
    | .ok () =>
      if canTrackProject s.db user projectId = false then (s, .refused 403 "Project is not assigned")
      else
        match s.webTimerDevice pick userId (some projectId) with
        | .error error => (s, .failed error)
        | .ok (s, device) =>
          s.sync pick now (timerCall device .active taskId (some projectId) true) answerValueError

/-- `stop_web_timer`. The break is ended in a transaction of its own. -/
def stopWebTimer (pick : Picks) (now : Int) (s : WebStore) (userId : Nat) : WebStore × TimerAnswer :=
  match requireWorker s.db userId with
  | .error answer => (s, answer)
  | .ok _ =>
    match s.activeTimer userId with
    | none => (s, .accepted)
    | some active =>
      match s.db.getDevice active.deviceId with
      | none => (s, .failed .typeError)
      | some device =>
        match stopBreak now s.db userId with
        | .error error => (s, .failed error)
        | .ok db =>
          { s with db }.sync pick now
            (timerCall device .stopped active.taskId active.projectId false) .failed

/-- The actions of `change_web_timer`. -/
inductive TimerChange
  | pause | resume
  deriving DecidableEq, Repr

/-- The status that a change asks for. -/
def TimerChange.status : TimerChange → SessionStatus
  | .pause => .paused
  | .resume => .active

/-- The policy check of a change, which only resuming makes. -/
def TimerChange.require (change : TimerChange) (db : Database) (userId : Nat) :
    Except TimerAnswer Unit :=
  match change with
  | .pause => .ok ()
  | .resume => requireWebTimerAllowed db userId

/-- The break statement of a change: pausing starts a break and resuming ends it. -/
def TimerChange.moveBreak (change : TimerChange) (now : Int) (db : Database) (userId sessionId : Nat) :
    Except Error Database :=
  match change with
  | .pause => startBreak now db userId sessionId false
  | .resume => stopBreak now db userId

/-- `change_web_timer`. -/
def changeWebTimer (pick : Picks) (now : Int) (s : WebStore) (userId : Nat) (change : TimerChange) :
    WebStore × TimerAnswer :=
  match requireWorker s.db userId with
  | .error answer => (s, answer)
  | .ok _ =>
    match s.activeTimer userId with
    | none => (s, .accepted)
    | some active =>
      match change.require s.db userId with
      | .error answer => (s, answer)
      | .ok () =>
        match s.db.getDevice active.deviceId with
        | none => (s, .failed .typeError)
        | some device =>
          match change.moveBreak now s.db userId active.id with
          | .error error => (s, .failed error)
          | .ok db =>
            { s with db }.sync pick now
              (timerCall device change.status active.taskId active.projectId true) answerValueError

/-! ## `POST /field/timer` -/

/-- The actions of the field timer. -/
inductive FieldAction
  | start | pause | resume | stop
  deriving DecidableEq, Repr

/-- The status that an action asks for. -/
def FieldAction.status : FieldAction → SessionStatus
  | .start | .resume => .active
  | .pause => .paused
  | .stop => .stopped

/-- `FieldTimerEvent`. -/
structure FieldTimerEvent where
  eventId : Nat
  observedAt : Datetime
  action : FieldAction
  projectId : Option Nat
  taskId : Option Nat
  deriving DecidableEq, Repr

/-- The instant of an aware timestamp inside the replay window. -/
def requireCurrent (now : Int) (value : Datetime) (naive outside : String) : Except TimerAnswer Int :=
  match value.toUtc? with
  | none => .error (.refused 422 naive)
  | some instant =>
    if now + minutes 5 < instant ∨ instant < now - days 90 then .error (.refused 422 outside)
    else .ok instant

/-- The call of a field timer event. -/
def fieldCall (device : Device) (payload : FieldTimerEvent) (taskId projectId : Option Nat) :
    SyncCall where
  device := device
  status := some payload.action.status
  taskId := taskId
  selectedProjectId := projectId
  note := ""
  eventId := some payload.eventId
  observedAt := some payload.observedAt
  idleSeconds := 0
  heartbeatIntervalSeconds := 60
  transition := true

/-- The project and the task that an event is for: those of the running timer, but for a start. -/
def fieldTarget (active : Option WorkSession) (payload : FieldTimerEvent) : Option Nat × Option Nat :=
  match payload.action, active with
  | .start, _ | _, none => (payload.projectId, payload.taskId)
  | _, some active => (active.projectId, active.taskId)

/-- The checks of an event by its action: the policy, and for a start the project. -/
def fieldRequire (db : Database) (user : User) (payload : FieldTimerEvent) :
    Except TimerAnswer Unit := do
  if payload.action.status = .active then requireWebTimerAllowed db user.id else pure ()
  if payload.action = .start ∧ ¬ payload.projectId.any (canTrackProject db user ·) then
    throw (.refused 403 "Project is not assigned")
  else pure ()

/-- `field_timer_event`. -/
def fieldTimerEvent (pick : Picks) (now : Int) (s : WebStore) (userId : Nat)
    (payload : FieldTimerEvent) : WebStore × TimerAnswer :=
  match requireWorker s.db userId with
  | .error answer => (s, answer)
  | .ok user =>
    match requireCurrent now payload.observedAt "observed_at must include timezone"
        "timer timestamp is outside replay window" with
    | .error answer => (s, answer)
    | .ok _ =>
      match fieldRequire s.db user payload with
      | .error answer => (s, answer)
      | .ok () =>
        let (projectId, taskId) := fieldTarget (s.activeTimer userId) payload
        match s.webTimerDevice pick userId projectId with
        | .error error => (s, .failed error)
        | .ok (s, device) => s.sync pick now (fieldCall device payload taskId projectId) answerValueError

/-! ## `POST /field/location` -/

/-- `LocationPoint`: `inside` says of a fence that the point lies within its radius. -/
structure LocationPoint where
  eventId : Nat
  recordedAt : Datetime
  inside : Geofence → Bool

/-- `geofence_state`: the smallest fence around the point that the member may see, and the fence of
the member's latest location, unless that was an exit. -/
def WebStore.geofenceState (s : WebStore) (pick : Picks) (userId : Nat) (inside : Geofence → Bool) :
    Option Geofence × Option Geofence :=
  (latestBy (fun g => -g.radiusMeters) pick.fence
    (s.geofences.filter fun g =>
      g.active && (g.projectId.all fun p => (s.db.projectMemberRole p userId).isSome) && inside g),
  (latestBy (·.recordedAt) pick.location
    (s.locationEvents.filter (·.userId == some userId))).bind fun latest =>
      if latest.eventType = .exit then none
      else latest.geofenceId.bind fun fenceId => s.geofences.find? (·.id == fenceId))

/-- The kind of a location and the fence it is about. -/
def crossing (current previous : Option Geofence) : LocationEventType × Option Geofence :=
  match current, previous with
  | some current, some previous =>
    (if current.id ≠ previous.id then .enter else .position, some current)
  | some current, none => (.enter, some current)
  | none, some previous => (.exit, some previous)
  | none, none => (.position, none)

/-- `add_location`: a second location of the same device and instant is not recorded. The foreign keys
hold, since every row the values name has just been read. -/
def WebStore.addLocation (s : WebStore) (event : LocationEvent) : Except Error (WebStore × Bool) :=
  if s.locationEvents.any fun old =>
      old.deviceId == event.deviceId && old.recordedAt == event.recordedAt then .ok (s, false)
  else if s.locationEvents.any (·.id == event.id) then .error .uniqueViolation
  else .ok ({ s with locationEvents := s.locationEvents ++ [event] }, true)

/-- The optional timer action of a location: entering may start the timer, and then a `ValueError` is
passed over; leaving may stop it. -/
def WebStore.fenceAction (s : WebStore) (pick : Picks) (now : Int) (user : User) (device : Device)
    (active : Option WorkSession) (eventType : LocationEventType) (fence : Geofence) :
    WebStore × TimerAnswer :=
  match eventType, active with
  | .enter, none =>
    if fence.enterAction = .start ∧ webTimerAllowed s.db user.id ∧
        fence.projectId.any (canTrackProject s.db user ·) then
      s.sync pick now (timerCall device .active none fence.projectId true) fun error =>
        match error with
        | .valueError _ => .accepted
        | error => .failed error
    else (s, .accepted)
  | .exit, some active =>
    if fence.exitAction = .stop then
      s.sync pick now (timerCall device .stopped active.taskId active.projectId false) .failed
    else (s, .accepted)
  | _, _ => (s, .accepted)

/-- `field_location`. -/
def fieldLocation (pick : Picks) (now : Int) (s : WebStore) (userId : Nat) (point : LocationPoint) :
    WebStore × TimerAnswer :=
  match requireWorker s.db userId with
  | .error answer => (s, answer)
  | .ok user =>
    match requireCurrent now point.recordedAt "recorded_at must include timezone"
        "location timestamp is outside replay window" with
    | .error answer => (s, answer)
    | .ok recordedAt =>
      let (current, previous) := s.geofenceState pick userId point.inside
      let (eventType, fence) := crossing current previous
      let active := s.activeTimer userId
      let projectId :=
        active.bind (·.projectId) <|> fence.bind (·.projectId) <|> firstTrackable pick s.db user
      match s.webTimerDevice pick userId projectId with
      | .error error => (s, .failed error)
      | .ok (s, device) =>
        match s.addLocation
            { id := point.eventId, deviceId := device.id, userId := some userId
              sessionId := active.map (·.id), recordedAt, geofenceId := fence.map (·.id)
              eventType } with
        | .error error => (s, .failed error)
        | .ok (s, false) => (s, .accepted)
        | .ok (s, true) =>
          fence.elim (s, .accepted) (s.fenceAction pick now user device active eventType)

/-! ## Steps -/

/-- A request of a member. -/
inductive TimerRequest
  | start (projectId : Nat) (taskId : Option Nat)
  | stop
  | change (action : TimerChange)
  | field (payload : FieldTimerEvent)
  | location (point : LocationPoint)

/-- The route of a request. -/
def TimerRequest.serve (pick : Picks) (now : Int) (s : WebStore) (userId : Nat) :
    TimerRequest → WebStore × TimerAnswer
  | .start projectId taskId => startWebTimer pick now s userId projectId taskId
  | .stop => stopWebTimer pick now s userId
  | .change action => changeWebTimer pick now s userId action
  | .field payload => fieldTimerEvent pick now s userId payload
  | .location point => fieldLocation pick now s userId point

/-- What happens to the store: any operation of the work store (heartbeats of the agents included), a
change of the tasks by an integration, a new device, the platform a device reports, a new geofence, or a
request. The integrations end the work on what they archive with `WorkOp.closeTaskSessions`. -/
inductive WebOp
  | work (op : WorkOp)
  | importTasks (tasks : List Task)
  | createDevice (trackerKind : TrackerKind) (ownerUserId projectId : Option Nat)
  | touchDevice (deviceId : Nat) (platform : String)
  | createGeofence (fence : Geofence)
  | request (pick : Picks) (now : Int) (userId : Nat) (request : TimerRequest)

/-- One step of the store. -/
def WebStore.step (s : WebStore) : WebOp → WebStore
  | .work op => { s with db := Dayfinch.step s.db op }
  | .importTasks tasks => { s with db := { s.db with tasks } }
  | .createDevice trackerKind ownerUserId projectId =>
    match s.insertDevice trackerKind ownerUserId projectId "" with
    | .ok (s, _) => s
    | .error _ => s
  | .touchDevice deviceId platform => s.touchDevice deviceId platform
  | .createGeofence fence =>
    { s with geofences := s.geofences ++ [{ fence with id := s.db.nextId, active := true }]
             db := { s.db with nextId := s.db.nextId + 1 } }
  | .request pick now userId request => (request.serve pick now s userId).1

/-- A database where nobody has worked yet, before the first web timer. -/
def WebStore.start (db : Database) : WebStore where
  db := db.withoutWork

/-! ## The invariant of the work store -/

section

variable {s : WebStore}

/-- What holds of a store and of the store with any database a call can commit holds after the call. -/
theorem WebStore.sync_db (pick : Picks) (now : Int) (call : SyncCall) (onError : Error → TimerAnswer)
    (h : StoreInvariant s.db) : StoreInvariant (s.sync pick now call onError).1.db := by
  unfold WebStore.sync
  cases hsync : syncWorkSession pick.receipt now s.db call with
  | error error => exact h
  | ok result => exact h.syncWorkSession pick.receipt now call result hsync

theorem WebStore.insertDevice_db {trackerKind : TrackerKind} {ownerUserId projectId : Option Nat}
    {platform : String} {s' : WebStore} {device : Device} (h : StoreInvariant s.db)
    (hinsert : s.insertDevice trackerKind ownerUserId projectId platform = .ok (s', device)) :
    StoreInvariant s'.db := by
  unfold WebStore.insertDevice at hinsert
  split at hinsert
  · cases hinsert
  · cases hinsert
    exact h.of_eq rfl rfl le_rfl

theorem WebStore.webTimerDevice_db {pick : Picks} {userId : Nat} {projectId : Option Nat}
    {s' : WebStore} {device : Device} (h : StoreInvariant s.db)
    (hdevice : s.webTimerDevice pick userId projectId = .ok (s', device)) : StoreInvariant s'.db := by
  unfold WebStore.webTimerDevice at hdevice
  split at hdevice
  · cases hdevice
    exact h
  · exact WebStore.insertDevice_db h hdevice

theorem WebStore.addLocation_db {event : LocationEvent} {s' : WebStore} {created : Bool}
    (h : s.addLocation event = .ok (s', created)) : s'.db = s.db := by
  unfold WebStore.addLocation at h
  split at h
  · cases h
    rfl
  · split at h
    · cases h
    · cases h
      rfl

theorem TimerChange.moveBreak_db {change : TimerChange} {now : Int} {userId sessionId : Nat}
    {db db' : Database} (h : StoreInvariant db)
    (hmove : change.moveBreak now db userId sessionId = .ok db') : StoreInvariant db' := by
  cases change with
  | pause => exact h.workOp (.startBreak now userId sessionId false) db' hmove
  | resume => exact h.workOp (.stopBreak now userId) db' hmove

theorem startWebTimer_db (pick : Picks) (now : Int) (userId projectId : Nat) (taskId : Option Nat)
    (h : StoreInvariant s.db) :
    StoreInvariant (startWebTimer pick now s userId projectId taskId).1.db := by
  unfold startWebTimer
  split
  · exact h
  split
  · exact h
  split
  · exact h
  split
  · exact h
  · rename_i hdevice
    exact WebStore.sync_db pick now _ _ (WebStore.webTimerDevice_db h hdevice)

theorem stopWebTimer_db (pick : Picks) (now : Int) (userId : Nat) (h : StoreInvariant s.db) :
    StoreInvariant (stopWebTimer pick now s userId).1.db := by
  unfold stopWebTimer
  split
  · exact h
  split
  · exact h
  split
  · exact h
  split
  · exact h
  · rename_i db hstop
    exact WebStore.sync_db pick now _ _ (h.workOp (.stopBreak now userId) db hstop)

theorem changeWebTimer_db (pick : Picks) (now : Int) (userId : Nat) (change : TimerChange)
    (h : StoreInvariant s.db) : StoreInvariant (changeWebTimer pick now s userId change).1.db := by
  unfold changeWebTimer
  split
  · exact h
  split
  · exact h
  split
  · exact h
  split
  · exact h
  split
  · exact h
  · rename_i hmove
    exact WebStore.sync_db pick now _ _ (TimerChange.moveBreak_db h hmove)

theorem fieldTimerEvent_db (pick : Picks) (now : Int) (userId : Nat) (payload : FieldTimerEvent)
    (h : StoreInvariant s.db) : StoreInvariant (fieldTimerEvent pick now s userId payload).1.db := by
  unfold fieldTimerEvent
  split
  · exact h
  split
  · exact h
  split
  · exact h
  dsimp only
  split
  · exact h
  · rename_i hdevice
    exact WebStore.sync_db pick now _ _ (WebStore.webTimerDevice_db h hdevice)

theorem WebStore.fenceAction_db (pick : Picks) (now : Int) (user : User) (device : Device)
    (active : Option WorkSession) (eventType : LocationEventType) (fence : Geofence)
    (h : StoreInvariant s.db) :
    StoreInvariant (s.fenceAction pick now user device active eventType fence).1.db := by
  unfold WebStore.fenceAction
  split
  · split
    · exact WebStore.sync_db pick now _ _ h
    · exact h
  · split
    · exact WebStore.sync_db pick now _ _ h
    · exact h
  · exact h

theorem fieldLocation_db (pick : Picks) (now : Int) (userId : Nat) (point : LocationPoint)
    (h : StoreInvariant s.db) : StoreInvariant (fieldLocation pick now s userId point).1.db := by
  unfold fieldLocation
  split
  · exact h
  split
  · exact h
  dsimp only
  split
  · exact h
  · rename_i s1 device hdevice
    have h1 : StoreInvariant s1.db := WebStore.webTimerDevice_db h hdevice
    split
    · exact h1
    · rename_i s2 hlocation
      rw [WebStore.addLocation_db hlocation]
      exact h1
    · rename_i s2 hlocation
      have h2 : StoreInvariant s2.db := by
        rw [WebStore.addLocation_db hlocation]
        exact h1
      cases (crossing (s.geofenceState pick userId point.inside).1
          (s.geofenceState pick userId point.inside).2).2 with
      | none => exact h2
      | some fence => exact WebStore.fenceAction_db pick now _ device _ _ fence h2

/-- Every step keeps sessions and segments consistent. -/
theorem WebStore.step_db (op : WebOp) (h : StoreInvariant s.db) : StoreInvariant (s.step op).db := by
  cases op with
  | work op => exact h.step op
  | importTasks tasks => exact h.of_eq rfl rfl le_rfl
  | createDevice trackerKind ownerUserId projectId =>
    unfold WebStore.step
    dsimp only
    split
    · rename_i hinsert
      exact WebStore.insertDevice_db h hinsert
    · exact h
  | touchDevice deviceId platform =>
    show StoreInvariant (s.touchDevice deviceId platform).db
    unfold WebStore.touchDevice
    split
    · exact h
    · exact h
  | createGeofence fence => exact h.of_eq rfl rfl (Nat.le_succ _)
  | request pick now userId request =>
    cases request with
    | start projectId taskId => exact startWebTimer_db pick now userId projectId taskId h
    | stop => exact stopWebTimer_db pick now userId h
    | change action => exact changeWebTimer_db pick now userId action h
    | field payload => exact fieldTimerEvent_db pick now userId payload h
    | location point => exact fieldLocation_db pick now userId point h

end

/-- **Every run keeps sessions and segments consistent**, whatever heartbeats, closers and requests
it is made of. -/
theorem webStore_run (db : Database) (ops : List WebOp) :
    StoreInvariant (run WebStore.step (WebStore.start db) ops).db :=
  Library.run_invariant (fun s : WebStore => StoreInvariant s.db) (fun _ op h => WebStore.step_db op h)
    (storeInvariant_withoutWork db) ops

end Dayfinch
