/-
# Dayfinch.Work.Stops -- when does a request to stop the timer stop the user's work

Three requests stop a timer: the button of the web page, an event of the field timer, and leaving a
geofence that stops it. Each ends in `sync_work_session` with the status `stopped`, and that call ends
the live session *of the device it is given*: `syncWorkSession_stopped` says so once. The three routes
choose the device differently and treat breaks differently, so each needs more than a well-behaved
call. `StopReaches` is what each needs; `stopRequest_takesEffect_iff` says that it needs exactly that.
-/
import Dayfinch.Work.Replay
import Dayfinch.Work.WebTimer

namespace Dayfinch

open Library (run bind_eq_ok latestBy)

/-! ## A stop of one device -/

/-- The details with which a call is refused because of its task. -/
def taskRefusals : List String :=
  ["Task is not active", "Task is not active in this device's project",
    "Task does not belong to the selected project"]

/-- The project a call is for: the one of its task, or the one it names. -/
def settledProject (db : Database) (call : SyncCall) : Option Nat :=
  (call.taskId.bind db.getTask).elim call.project fun task => some task.projectId

theorem checkTask_fits {db : Database} {call : SyncCall} (h : TaskFits db call) :
    checkTask db call call.project = .ok (settledProject db call) := by
  unfold checkTask settledProject
  cases htask : call.taskId with
  | none => rfl
  | some taskId =>
    obtain ⟨task, hget, hactive, hproject⟩ := h taskId htask
    simp only [hget, Option.bind_some, Option.elim_some]
    rw [(raiseIf_eq_ok (u := ())).mpr (not_not.mpr hactive),
      (raiseIf_eq_ok (u := ())).mpr fun hne => hne.2 (hproject hne.1)]
    rfl

theorem checkTask_refuses {db : Database} {call : SyncCall} (h : ¬ TaskFits db call) :
    ∃ detail ∈ taskRefusals, checkTask db call call.project = .error (.valueError detail) := by
  unfold checkTask
  cases htask : call.taskId with
  | none => exact absurd (fun taskId hsome => by simp [htask] at hsome) h
  | some taskId =>
    cases hget : db.getTask taskId with
    | none => exact ⟨"Task is not active", List.mem_cons_self, by simp only [hget]⟩
    | some task =>
      by_cases hactive : task.status ≠ .active
      · refine ⟨"Task is not active", List.mem_cons_self, ?_⟩
        simp only [hget]
        rw [raiseIf, if_pos hactive]
        rfl
      have hproject : call.project.isSome ∧ call.project ≠ some task.projectId := by
        by_contra hnot
        refine h fun taskId' hsome => ⟨task, ?_, not_not.mp hactive, fun hproject => ?_⟩
        · rw [htask, Option.some.injEq] at hsome
          exact hsome ▸ hget
        · exact not_not.mp fun hne => hnot ⟨hproject, hne⟩
      refine ⟨if call.selectedProjectId = none then "Task is not active in this device's project"
        else "Task does not belong to the selected project", ?_, ?_⟩
      · split <;> simp [taskRefusals]
      · simp only [hget]
        rw [(raiseIf_eq_ok (u := ())).mpr hactive, raiseIf, if_pos hproject]
        rfl

/-- The device's live session, if there is one, is stopped. -/
def stopDevice (db : Database) (call : SyncCall) (endedAt : Int) : Database :=
  (deviceSession db call).elim db fun session => stopSession db session.id endedAt

theorem acceptEvent_stopped (tie : AgentStateEvent → Nat) (now : Int) (db : Database) (call : SyncCall)
    (adm : Admission) (hstatus : adm.status = .stopped) :
    ∃ endedAt observed, acceptEvent tie now db call adm =
      (recordEvent now (stopDevice db call endedAt) call adm observed none).map fun db => (db, none) := by
  unfold acceptEvent stopDevice
  have hmap : ∀ result : Except Error Database,
      (do
        let db ← result
        return (db, (none : Option Nat).bind db.getWorkSession)) =
        result.map fun db => (db, (none : Option WorkSession)) := by
    intro result
    cases result <;> rfl
  rw [hstatus]
  simp only [takeOver, if_pos]
  generalize clampToPrevious (previousReceipt tie db call) adm.observed = observed
  generalize previousReceipt tie db call = previous
  cases hsession : deviceSession db call with
  | none =>
    refine ⟨observed, observed, ?_⟩
    cases previous <;> simp only [cutGap, leaveWork, applyStatus, hstatus] <;> exact hmap _
  | some session =>
    by_cases hcut : ∃ receipt, previous = some receipt ∧ receipt.status = .active ∧
        leaseExpired receipt call.heartbeatIntervalSeconds observed
    · obtain ⟨receipt, rfl, hcut⟩ := hcut
      refine ⟨leaseEnd receipt, observed, ?_⟩
      simp only [cutGap, if_pos hcut, leaveWork, applyStatus, hstatus]
      exact hmap _
    · have hkept : cutGap db call.heartbeatIntervalSeconds previous observed (some session) =
          (db, some session) := by
        cases previous with
        | none => rfl
        | some receipt => exact if_neg fun hexpired => hcut ⟨receipt, rfl, hexpired⟩
      refine ⟨observed, observed, ?_⟩
      by_cases hleft : session.taskId ≠ call.taskId ∨ session.projectId ≠ adm.projectId
      · simp only [bind, Except.bind, hkept, leaveWork, if_pos hleft, applyStatus, hstatus]
        exact hmap _
      · simp only [bind, Except.bind, hkept, leaveWork, if_neg hleft, applyStatus, hstatus]
        exact hmap _

/-- **What a call with the status `stopped` does.** It is refused because of its task; or it is a
duplicate and changes nothing; or it stops the live session of its device and writes the receipt. -/
theorem syncWorkSession_stopped (tie : AgentStateEvent → Nat) {now observed : Int} {db : Database}
    {call : SyncCall} (hstatus : call.status = some .stopped)
    (htime : (call.observedAt.getD (Datetime.ofInstant now)).toUtc? = some observed) :
    (¬ TaskFits db call ∧ ∃ detail ∈ taskRefusals,
      syncWorkSession tie now db call = .error (.valueError detail)) ∨
    (TaskFits db call ∧ (duplicateReceipt db call).isSome ∧
      ∃ row, syncWorkSession tie now db call = .ok (db, row)) ∨
    (TaskFits db call ∧ duplicateReceipt db call = none ∧ ∃ endedAt at' adm,
      adm.projectId = settledProject db call ∧
      syncWorkSession tie now db call =
        (recordEvent now (stopDevice db call endedAt) call adm at' none).map fun db => (db, none)) := by
  have hchecked : admitSync now db call .stopped =
      (checkTask db call call.project).map fun projectId =>
        { status := .stopped, owner := call.owner db, projectId, observed } := by
    unfold admitSync admitActive
    simp only [htime]
    rw [if_pos (by decide)]
    show (checkTask db call call.project >>= fun projectId => _) = _
    cases checkTask db call call.project <;> rfl
  unfold syncWorkSession
  rw [hstatus]
  dsimp only
  rw [hchecked]
  by_cases hfits : TaskFits db call
  · rw [checkTask_fits hfits]
    have hpolicy : checkDesktopPolicy db call
        { status := .stopped, owner := call.owner db, projectId := settledProject db call, observed } =
          .ok () := checkDesktopPolicy_isOk.mpr fun _ _ hactive => by cases hactive
    show _ ∨ (_ ∧ _ ∧ ∃ row, syncTransaction tie now db call _ = _) ∨
      (_ ∧ _ ∧ ∃ endedAt at' adm, _ ∧ syncTransaction tie now db call _ = _)
    unfold syncTransaction
    rw [hpolicy]
    cases hduplicate : duplicateReceipt db call with
    | some receipt => exact .inr (.inl ⟨hfits, rfl, _, rfl⟩)
    | none =>
      refine .inr (.inr ⟨hfits, rfl, ?_⟩)
      obtain ⟨endedAt, at', haccept⟩ := acceptEvent_stopped tie now db call
        ⟨.stopped, call.owner db, settledProject db call, observed⟩ rfl
      exact ⟨endedAt, at', _, rfl, haccept⟩
  · obtain ⟨detail, hdetail, hrefused⟩ := checkTask_refuses hfits
    rw [hrefused]
    exact .inl ⟨hfits, detail, hdetail, rfl⟩

/-- A project that a row may refer to. -/
def ProjectKnown (db : Database) (projectId : Option Nat) : Prop :=
  projectId.all (fun p => (db.getProject p).isSome) = true

instance (db : Database) (projectId : Option Nat) : Decidable (ProjectKnown db projectId) :=
  inferInstanceAs (Decidable (_ = true))

/-- No live session is left on the device of a stop, and the others are as they were. -/
theorem mem_stopDevice {db : Database} (h : StoreInvariant db) (call : SyncCall) (endedAt : Int)
    {ws : WorkSession} (hlive : ws.live) :
    ws ∈ (stopDevice db call endedAt).workSessions ↔
      ws ∈ db.workSessions ∧ ws.deviceId ≠ call.device.id := by
  unfold stopDevice
  constructor
  · cases hsession : deviceSession db call with
    | none =>
      intro hmem
      have hnone := Library.latestBy_filter_eq_none.mp hsession ws hmem
      exact ⟨hmem, fun hdevice => by simp [hdevice, hlive] at hnone⟩
    | some session =>
      intro hmem
      rcases Library.mem_updateWhere_cases hmem with ⟨hold, hother⟩ | ⟨old, _, _, rfl⟩
      · refine ⟨hold, fun hdevice => ?_⟩
        rw [h.deviceSession_eq hold hlive hdevice, Option.some.injEq] at hsession
        simp [hsession] at hother
      · cases hlive
  · rintro ⟨hmem, hdevice⟩
    cases hsession : deviceSession db call with
    | none => exact hmem
    | some session =>
      refine StoreInvariant.mem_stopSession_of_ne hmem fun hid => hdevice ?_
      obtain ⟨hm, _, hd⟩ := deviceSession_mem hsession
      rw [h.sessionKeys.eq hmem hm hid]
      exact hd

/-- How a route's call with the status `stopped` comes out. -/
inductive StopOutcome (s : WebStore) (call : SyncCall) (onError : Error → TimerAnswer) :
    WebStore × TimerAnswer → Prop
  | refused (detail : String) (hdetail : detail ∈ taskRefusals) (hfits : ¬ TaskFits s.db call) :
      StopOutcome s call onError (s, onError (.valueError detail))
  | duplicate (hduplicate : (duplicateReceipt s.db call).isSome) (hfits : TaskFits s.db call) :
      StopOutcome s call onError (s, .accepted)
  | unrecorded (hnew : duplicateReceipt s.db call = none) (hfits : TaskFits s.db call)
      (hproject : ¬ ProjectKnown s.db (settledProject s.db call)) (hevent : call.eventId.isSome) :
      StopOutcome s call onError (s, onError .foreignKeyViolation)
  | stopped (hnew : duplicateReceipt s.db call = none) (hfits : TaskFits s.db call)
      (hproject : call.eventId.isSome → ProjectKnown s.db (settledProject s.db call)) (db : Database)
      (hbreaks : db.workBreaks = s.db.workBreaks)
      (hsessions : ∀ ws : WorkSession, ws.live →
        (ws ∈ db.workSessions ↔ ws ∈ s.db.workSessions ∧ ws.deviceId ≠ call.device.id)) :
      StopOutcome s call onError ({ s with db }, .accepted)

theorem sync_stopOutcome {s : WebStore} (h : StoreInvariant s.db) (pick : Picks) {now observed : Int}
    {call : SyncCall} (hstatus : call.status = some .stopped)
    (htime : (call.observedAt.getD (Datetime.ofInstant now)).toUtc? = some observed)
    (hidle : call.idleSeconds = 0) (hinterval : call.heartbeatIntervalSeconds = 60)
    (hdevice : (s.db.getDevice call.device.id).isSome) (onError : Error → TimerAnswer) :
    StopOutcome s call onError (s.sync pick now call onError) := by
  unfold WebStore.sync
  rcases syncWorkSession_stopped pick.receipt hstatus htime with
    ⟨hfits, detail, hdetail, hsync⟩ | ⟨hfits, hduplicate, row, hsync⟩ |
      ⟨hfits, hnew, endedAt, at', adm, hproject, hsync⟩
  · rw [hsync]
    exact .refused detail hdetail hfits
  · rw [hsync]
    exact .duplicate hduplicate hfits
  · have hbreaks : (stopDevice s.db call endedAt).workBreaks = s.db.workBreaks := by
      unfold stopDevice
      cases deviceSession s.db call <;> rfl
    have hreferences : referencesExist (stopDevice s.db call endedAt) call.device.id none
        adm.projectId call.taskId = referencesExist s.db call.device.id none adm.projectId
          call.taskId := by
      unfold stopDevice
      cases deviceSession s.db call <;> rfl
    have htask : call.taskId.all fun t => (s.db.getTask t).isSome := by
      rw [Option.all_eq_true]
      intro taskId hsome
      obtain ⟨task, hget, _⟩ := hfits taskId hsome
      rw [hget]
      rfl
    rw [hsync]
    cases hevent : call.eventId with
    | none =>
      simp only [recordEvent, hevent]
      exact .stopped hnew hfits (fun hsome => by simp [hevent] at hsome) _ hbreaks
        fun ws hlive => mem_stopDevice h call endedAt hlive
    | some eventId =>
      simp only [recordEvent, hevent]
      unfold insertStateEvent
      rw [if_neg (by simp [newReceipt, hidle, hinterval])]
      rw [show referencesExist (stopDevice s.db call endedAt)
        (newReceipt now call adm at' none eventId).deviceId none
        (newReceipt now call adm at' none eventId).projectId
        (newReceipt now call adm at' none eventId).taskId = _ from hreferences]
      by_cases hknown : ProjectKnown s.db (settledProject s.db call)
      · rw [if_neg (by simpa [referencesExist, hdevice, htask, hproject, ProjectKnown] using hknown)]
        exact .stopped hnew hfits (fun _ => hknown) _ hbreaks
          fun ws hlive => mem_stopDevice h call endedAt hlive
      · rw [if_pos (by simpa [referencesExist, hdevice, htask, hproject, ProjectKnown] using hknown)]
        exact .unrecorded hnew hfits hknown (by rw [hevent]; rfl)

/-- The stop of a route without an event id. -/
theorem timerStop_outcome {s : WebStore} (h : StoreInvariant s.db) (pick : Picks) (now : Int)
    {device : Device} (hdevice : (s.db.getDevice device.id).isSome) (taskId projectId : Option Nat)
    (onError : Error → TimerAnswer) :
    StopOutcome s (timerCall device .stopped taskId projectId false) onError
      (s.sync pick now (timerCall device .stopped taskId projectId false) onError) := by
  have htime : ((timerCall device .stopped taskId projectId false).observedAt.getD
      (Datetime.ofInstant now)).toUtc? = some now := Datetime.toUtc?_ofInstant now
  exact sync_stopOutcome h pick rfl htime rfl rfl hdevice onError

/-! ## Taking effect -/

/-- The user has no active or paused session. -/
def NoLiveSession (db : Database) (userId : Nat) : Prop :=
  ∀ ws ∈ db.workSessions, ws.userId = some userId → ws.live = false

/-- The user has no open break. -/
def NoOpenBreak (db : Database) (userId : Nat) : Prop :=
  ∀ b ∈ db.workBreaks, b.userId = userId → b.endedAt ≠ none

/-- The request failed because of a task, a project or a device: a `ValueError` about the task, or a
foreign key. -/
def TimerAnswer.blamesWork : TimerAnswer → Bool
  | .accepted => false
  | .refused _ detail | .failed (.valueError detail) => taskRefusals.contains detail
  | .failed .foreignKeyViolation => true
  | .failed _ => false

/-- The request asks for the task and the project of the session. A field timer event asks for those it
names itself where no timer of the user runs. -/
def Concerns (s : WebStore) (userId : Nat) (ws : WorkSession) : TimerRequest → Prop
  | .field payload => fieldTarget (s.activeTimer userId) payload = (ws.projectId, ws.taskId)
  | _ => True

/-- **A stop takes effect**: an accepted one leaves the user with no live session and no open break,
and it does not fail because of the task, the project or the device of the session `ws`. -/
structure TakesEffect (s : WebStore) (userId : Nat) (ws : WorkSession) (request : TimerRequest)
    (result : WebStore × TimerAnswer) : Prop where
  sessions : result.2 = .accepted → NoLiveSession result.1.db userId
  breaks : result.2 = .accepted → NoOpenBreak result.1.db userId
  succeeds : Concerns s userId ws request → result.2.blamesWork = false

/-! ## What each route needs -/

/-- An open break of the user began at the server clock or after it, so `stop_break` violates the
`CHECK` of its table. -/
def BreakAhead (now : Int) (db : Database) (userId : Nat) : Prop :=
  ∃ b ∈ db.workBreaks, b.userId = userId ∧ b.endedAt = none ∧ now ≤ b.startedAt

/-- The button stops the session of a web timer whose task still fits its project. -/
def WebStopReaches (now : Int) (s : WebStore) (userId : Nat) (ws : WorkSession) : Prop :=
  s.isWebTimer ws.deviceId = true ∧
    (BreakAhead now s.db userId ∨
      ∃ device, s.db.getDevice ws.deviceId = some device ∧
        TaskFits s.db (timerCall device .stopped ws.taskId ws.projectId false))

/-- The row that `web_timer_device` inserts. -/
def WebStore.newWebTimer (s : WebStore) (userId : Nat) (projectId : Option Nat) : Device where
  id := s.freshDeviceId
  enabled := true
  trackerKind := .web
  ownerUserId := some userId
  projectId := projectId

/-- The device that `web_timer_device` answers. -/
def WebStore.timerOf (s : WebStore) (pick : Picks) (userId : Nat) (projectId : Option Nat) : Device :=
  (s.ownWebTimer pick userId).getD (s.newWebTimer userId projectId)

/-- `web_timer_device` answers: the device is there, or its row may refer to the project. -/
def WebStore.HasTimer (s : WebStore) (pick : Picks) (userId : Nat) (projectId : Option Nat) : Prop :=
  (s.ownWebTimer pick userId).isSome ∨ ProjectKnown s.db projectId

/-- The call of a field timer event. -/
def fieldStopCall (pick : Picks) (s : WebStore) (userId : Nat) (payload : FieldTimerEvent) : SyncCall :=
  let target := fieldTarget (s.activeTimer userId) payload
  fieldCall (s.timerOf pick userId target.1) payload target.2 target.1

/-- The task of a call fits, and an event is new and its receipt can be written. -/
structure Recordable (db : Database) (call : SyncCall) : Prop where
  fits : TaskFits db call
  new : duplicateReceipt db call = none
  project : call.eventId.isSome → ProjectKnown db (settledProject db call)

/-- The field timer stops the session of the user's own web timer, outside a break, with a new event
whose task fits. A session elsewhere stays; then the request must be refused for the project or the
task that it names itself. -/
def FieldStopReaches (pick : Picks) (s : WebStore) (userId : Nat) (payload : FieldTimerEvent)
    (ws : WorkSession) : Prop :=
  if s.isWebTimer ws.deviceId then
    (fieldStopCall pick s userId payload).device.id = ws.deviceId ∧ NoOpenBreak s.db userId ∧
      Recordable s.db (fieldStopCall pick s userId payload)
  else
    (payload.projectId, payload.taskId) ≠ (ws.projectId, ws.taskId) ∧
      (¬ s.HasTimer pick userId payload.projectId ∨
        ¬ TaskFits s.db (fieldStopCall pick s userId payload) ∨
        (duplicateReceipt s.db (fieldStopCall pick s userId payload) = none ∧
          ¬ ProjectKnown s.db (settledProject s.db (fieldStopCall pick s userId payload))))

/-- The fence whose exit stops the timer, if the point leaves such a fence. -/
def WebStore.exitFence (s : WebStore) (pick : Picks) (userId : Nat) (point : LocationPoint) :
    Option Geofence :=
  match crossing (s.geofenceState pick userId point.inside).1
      (s.geofenceState pick userId point.inside).2 with
  | (.exit, fence) => fence.filter (·.exitAction == .stop)
  | _ => none

/-- The project of a location: of the running timer, of the fence, or any the user may track. -/
def WebStore.locationProject (s : WebStore) (pick : Picks) (userId : Nat) (fence : Option Geofence) :
    Option Nat :=
  (s.activeTimer userId).bind (·.projectId) <|> fence.bind (·.projectId) <|>
    (s.db.getUser userId).bind (firstTrackable pick s.db)

/-- A location of the device at the instant of the point is stored. -/
def WebStore.located (s : WebStore) (device : Device) (point : LocationPoint) : Bool :=
  s.locationEvents.any fun old =>
    old.deviceId == device.id && some old.recordedAt == point.recordedAt.toUtc?

/-- Leaving a fence stops the session of the user's own web timer, outside a break, with a new location
and a task that fits. Else the location must be refused because its id is another location's. -/
def ExitStopReaches (pick : Picks) (s : WebStore) (userId : Nat) (point : LocationPoint)
    (ws : WorkSession) : Prop :=
  let projectId := s.locationProject pick userId (s.exitFence pick userId point)
  let device := s.timerOf pick userId projectId
  s.HasTimer pick userId projectId ∧ s.located device point = false ∧
    ((∃ old ∈ s.locationEvents, old.id = point.eventId) ∨
      (s.isWebTimer ws.deviceId = true ∧ device.id = ws.deviceId ∧ NoOpenBreak s.db userId ∧
        TaskFits s.db (timerCall device .stopped ws.taskId ws.projectId false)))

/-- The requests that ask for a stop. -/
def TimerRequest.IsStop (pick : Picks) (s : WebStore) (userId : Nat) : TimerRequest → Prop
  | .stop => True
  | .field payload => payload.action = .stop
  | .location point => (s.exitFence pick userId point).isSome
  | _ => False

/-- The request is of a user who may work, and its timestamp is inside the replay window. -/
def TimerRequest.Enters (now : Int) (s : WebStore) (userId : Nat) (request : TimerRequest) : Prop :=
  (requireWorker s.db userId).isOk = true ∧
    match request with
    | .field payload => (requireCurrent now payload.observedAt "" "").isOk = true
    | .location point => (requireCurrent now point.recordedAt "" "").isOk = true
    | _ => True

/-- **What a stop needs** for the live session `ws`. -/
def StopReaches (pick : Picks) (now : Int) (s : WebStore) (userId : Nat) (ws : WorkSession) :
    TimerRequest → Prop
  | .field payload => FieldStopReaches pick s userId payload ws
  | .location point => ExitStopReaches pick s userId point ws
  | _ => WebStopReaches now s userId ws

/-! ## One stop -/

section

variable {s : WebStore} {userId : Nat} {ws : WorkSession}

/-- The user's live session is the running timer if it is on a web timer; else no timer runs. -/
theorem activeTimer_eq (h : StoreInvariant s.db) (hws : ws ∈ s.db.workSessions)
    (huser : ws.userId = some userId) (hlive : ws.live) :
    s.activeTimer userId = if s.isWebTimer ws.deviceId then some ws else none := by
  unfold WebStore.activeTimer
  split
  · rename_i htimer
    cases hactive : latestBy (·.startedAt) (fun _ => 0) (s.db.workSessions.filter fun row =>
        row.userId == some userId && s.isWebTimer row.deviceId && row.live) with
    | none =>
      have hnone := Library.latestBy_filter_eq_none.mp hactive ws hws
      simp [huser, htimer, hlive] at hnone
    | some active =>
      obtain ⟨hm, hsel⟩ := List.mem_filter.mp (Library.latestBy_mem hactive)
      rw [Bool.and_eq_true, Bool.and_eq_true, beq_iff_eq] at hsel
      rw [h.oneLivePerUser active hm ws hws hsel.2 hlive (hsel.1.1.trans huser.symm)
        (by rw [hsel.1.1]; rfl)]
  · rename_i htimer
    refine Library.latestBy_filter_eq_none.mpr fun row hrow => ?_
    by_contra hsel
    rw [Bool.not_eq_false, Bool.and_eq_true, Bool.and_eq_true, beq_iff_eq] at hsel
    rw [h.oneLivePerUser row hrow ws hws hsel.2 hlive (hsel.1.1.trans huser.symm)
      (by rw [hsel.1.1]; rfl)] at hsel
    exact htimer hsel.1.2

/-- When the live sessions of one device go, the user has none left exactly if it was the user's. -/
theorem noLiveSession_iff (h : StoreInvariant s.db) (hws : ws ∈ s.db.workSessions)
    (huser : ws.userId = some userId) (hlive : ws.live) {db : Database} {deviceId : Nat}
    (hsessions : ∀ row : WorkSession, row.live →
      (row ∈ db.workSessions ↔ row ∈ s.db.workSessions ∧ row.deviceId ≠ deviceId)) :
    NoLiveSession db userId ↔ deviceId = ws.deviceId := by
  constructor
  · intro hnone
    by_contra hne
    have hstays := hnone ws ((hsessions ws hlive).mpr ⟨hws, Ne.symm hne⟩) huser
    rw [hlive] at hstays
    cases hstays
  · intro hdevice row hrow hrowUser
    by_contra hrowLive
    rw [Bool.not_eq_false] at hrowLive
    obtain ⟨hold, hother⟩ := (hsessions row hrowLive).mp hrow
    rw [h.oneLivePerUser row hold ws hws hrowLive hlive (hrowUser.trans huser.symm)
      (by rw [hrowUser]; rfl)] at hother
    exact hother hdevice.symm

/-- A live session of the user remains, so nothing accepted takes effect. -/
theorem not_takesEffect_of_live {s0 : WebStore} {request : TimerRequest} {result : WebStore × TimerAnswer}
    (haccepted : result.2 = .accepted) (hws : ws ∈ result.1.db.workSessions)
    (huser : ws.userId = some userId) (hlive : ws.live) :
    ¬ TakesEffect s0 userId ws request result := by
  intro heffect
  have hnone := heffect.sessions haccepted ws hws huser
  rw [hlive] at hnone
  cases hnone

/-- What a route makes of an error keeps the blame. -/
structure Answers (onError : Error → TimerAnswer) : Prop where
  task : ∀ detail ∈ taskRefusals, (onError (.valueError detail)).blamesWork = true
  reference : (onError .foreignKeyViolation).blamesWork = true
  error : ∀ e, onError e ≠ .accepted

theorem answers_failed : Answers .failed where
  task := fun _ h => List.contains_iff_mem.mpr h
  reference := rfl
  error := fun _ h => by cases h

theorem answers_valueError : Answers answerValueError where
  task := fun _ h => List.contains_iff_mem.mpr h
  reference := rfl
  error := fun e h => by cases e <;> cases h

/-- **A stop of one device** takes effect exactly when it is the device of the session, the user has
no open break, and the call goes through. -/
theorem StopOutcome.takesEffect_iff {s0 : WebStore} {request : TimerRequest}
    {result : WebStore × TimerAnswer} {call : SyncCall} {onError : Error → TimerAnswer}
    (houtcome : StopOutcome s call onError result) (h : StoreInvariant s.db)
    (hws : ws ∈ s.db.workSessions) (huser : ws.userId = some userId) (hlive : ws.live)
    (hanswers : Answers onError) (hconcerns : Concerns s0 userId ws request) :
    TakesEffect s0 userId ws request result ↔
      call.device.id = ws.deviceId ∧ NoOpenBreak s.db userId ∧ Recordable s.db call := by
  cases houtcome with
  | refused detail hdetail hfits =>
    refine ⟨fun heffect => ?_, fun ⟨_, _, hrecordable⟩ => absurd hrecordable.fits hfits⟩
    have hblame := heffect.succeeds hconcerns
    rw [hanswers.task detail hdetail] at hblame
    cases hblame
  | duplicate hduplicate hfits =>
    refine ⟨fun heffect => absurd heffect (not_takesEffect_of_live rfl hws huser hlive),
      fun ⟨_, _, hrecordable⟩ => ?_⟩
    rw [hrecordable.new] at hduplicate
    cases hduplicate
  | unrecorded hnew hfits hproject hevent =>
    refine ⟨fun heffect => ?_, fun ⟨_, _, hrecordable⟩ =>
      absurd (hrecordable.project hevent) hproject⟩
    have hblame := heffect.succeeds hconcerns
    rw [hanswers.reference] at hblame
    cases hblame
  | stopped hnew hfits hproject db hbreaks hsessions =>
    have hnone := noLiveSession_iff h hws huser hlive hsessions
    constructor
    · intro heffect
      have hopen := heffect.breaks rfl
      unfold NoOpenBreak at hopen
      rw [hbreaks] at hopen
      exact ⟨hnone.mp (heffect.sessions rfl), hopen, hfits, hnew, hproject⟩
    · rintro ⟨hdevice, hopen, _⟩
      refine ⟨fun _ => hnone.mpr hdevice, fun _ => ?_, fun _ => rfl⟩
      unfold NoOpenBreak
      rw [hbreaks]
      exact hopen

/-- A stop of another device takes effect only where it is refused for what it names itself. -/
theorem StopOutcome.takesEffect_elsewhere_iff {s0 : WebStore} {request : TimerRequest}
    {result : WebStore × TimerAnswer} {call : SyncCall} {onError : Error → TimerAnswer}
    (houtcome : StopOutcome s call onError result) (hws : ws ∈ s.db.workSessions)
    (huser : ws.userId = some userId) (hlive : ws.live) (hanswers : Answers onError)
    (hconcerns : ¬ Concerns s0 userId ws request) (hdevice : call.device.id ≠ ws.deviceId)
    (hevent : call.eventId.isSome) :
    TakesEffect s0 userId ws request result ↔
      ¬ TaskFits s.db call ∨ (duplicateReceipt s.db call = none ∧
        ¬ ProjectKnown s.db (settledProject s.db call)) := by
  have hrefused : ∀ e, TakesEffect s0 userId ws request (s, onError e) := fun e =>
    ⟨fun h => absurd h (hanswers.error e), fun h => absurd h (hanswers.error e),
      fun h => absurd h hconcerns⟩
  cases houtcome with
  | refused detail hdetail hfits => exact iff_of_true (hrefused _) (.inl hfits)
  | duplicate hduplicate hfits =>
    refine iff_of_false (not_takesEffect_of_live rfl hws huser hlive) ?_
    rintro (hnot | ⟨hnew, _⟩)
    · exact hnot hfits
    · rw [hnew] at hduplicate
      cases hduplicate
  | unrecorded hnew hfits hproject hevent => exact iff_of_true (hrefused _) (.inr ⟨hnew, hproject⟩)
  | stopped hnew hfits hproject db hbreaks hsessions =>
    refine iff_of_false (not_takesEffect_of_live rfl
      ((hsessions ws hlive).mpr ⟨hws, Ne.symm hdevice⟩) huser hlive) ?_
    rintro (hnot | ⟨_, hunknown⟩)
    · exact hnot hfits
    · exact hunknown (hproject hevent)

/-! ## `POST /timer/stop` -/

theorem getDevice_id {db : Database} {deviceId : Nat} {device : Device}
    (h : db.getDevice deviceId = some device) : device.id = deviceId := by
  simpa using List.find?_some h

theorem stopBreak_ahead {now : Int} {db : Database} (h : BreakAhead now db userId) :
    stopBreak now db userId = .error .checkViolation := by
  obtain ⟨b, hb, hbUser, hopen, hahead⟩ := h
  exact if_pos (List.any_eq_true.mpr ⟨b, hb, by simp [hbUser, hopen, hahead]⟩)

/-- The breaks after `stop_break`. -/
def endedBreaks (now : Int) (db : Database) (userId : Nat) : List WorkBreak :=
  Library.updateWhere (fun b => b.userId == userId && b.endedAt.isNone)
    (fun b => { b with endedAt := some now }) db.workBreaks

theorem stopBreak_clear {now : Int} {db : Database} (h : ¬ BreakAhead now db userId) :
    stopBreak now db userId = .ok { db with workBreaks := endedBreaks now db userId } := by
  refine if_neg fun hany => h ?_
  obtain ⟨b, hb, hsel⟩ := List.any_eq_true.mp hany
  simp only [Bool.and_eq_true, beq_iff_eq, Option.isNone_iff_eq_none, decide_eq_true_eq] at hsel
  exact ⟨b, hb, hsel.1.1, hsel.1.2, hsel.2⟩

theorem noOpenBreak_endedBreaks (now : Int) (db : Database) (userId : Nat) :
    NoOpenBreak { db with workBreaks := endedBreaks now db userId } userId := by
  intro b hb hbUser
  rcases Library.mem_updateWhere_cases hb with ⟨_, hother⟩ | ⟨_, _, _, rfl⟩
  · intro hopen
    simp [hbUser, hopen] at hother
  · exact Option.some_ne_none _

theorem stopWebTimer_takesEffect_iff (pick : Picks) (now : Int) (h : StoreInvariant s.db)
    (hws : ws ∈ s.db.workSessions) (huser : ws.userId = some userId) (hlive : ws.live) {user : User}
    (hworker : requireWorker s.db userId = .ok user) :
    TakesEffect s userId ws .stop (stopWebTimer pick now s userId) ↔
      WebStopReaches now s userId ws := by
  unfold stopWebTimer WebStopReaches
  simp only [hworker, activeTimer_eq h hws huser hlive]
  by_cases htimer : s.isWebTimer ws.deviceId = true
  swap
  · rw [if_neg htimer]
    exact iff_of_false (not_takesEffect_of_live rfl hws huser hlive) fun hreaches => htimer hreaches.1
  obtain ⟨device, hdevice⟩ := Option.isSome_iff_exists.mp (Bool.and_eq_true_iff.mp htimer).1
  simp only [if_pos htimer, hdevice]
  by_cases hbreak : BreakAhead now s.db userId
  · rw [stopBreak_ahead hbreak]
    refine iff_of_true ⟨fun hfailed => ?_, fun hfailed => ?_, fun _ => rfl⟩ ⟨htimer, .inl hbreak⟩
    · cases hfailed
    · cases hfailed
  · have hopen := noOpenBreak_endedBreaks now s.db userId
    simp only [stopBreak_clear hbreak]
    generalize endedBreaks now s.db userId = breaks at hopen ⊢
    have hid : device.id = ws.deviceId := getDevice_id hdevice
    have hfound : (s.db.getDevice device.id).isSome := by
      rw [hid, hdevice]
      rfl
    have hconcerns : Concerns s userId ws .stop := trivial
    have hbroken : StoreInvariant { s.db with workBreaks := breaks } := h.of_eq rfl rfl le_rfl
    have hended : StoreInvariant { s with db := { s.db with workBreaks := breaks } }.db := hbroken
    rw [(timerStop_outcome hended pick now hfound ws.taskId ws.projectId .failed).takesEffect_iff
      hended hws huser hlive answers_failed hconcerns]
    constructor
    · rintro ⟨_, _, hrecordable⟩
      exact ⟨htimer, .inr ⟨device, rfl, hrecordable.fits⟩⟩
    · rintro ⟨_, hahead | ⟨_, hsome, hfits⟩⟩
      · exact absurd hahead hbreak
      · obtain rfl := Option.some.inj hsome
        exact ⟨hid, hopen, hfits, rfl, fun hevent => by cases hevent⟩

/-! ## The device of the field routes -/

/-- A device that is found stays found when another is added. -/
theorem getDevice_append {db : Database} (device : Device) {deviceId : Nat}
    (h : (db.getDevice deviceId).isSome ∨ device.id = deviceId) :
    ({ db with devices := db.devices ++ [device] }.getDevice deviceId).isSome := by
  show ((db.devices ++ [device]).find? (·.id == deviceId)).isSome
  rw [List.find?_append, Option.isSome_or, Bool.or_eq_true]
  refine h.imp id fun hid => ?_
  rw [List.find?_singleton, if_pos (beq_iff_eq.mpr hid)]
  rfl

/-- `web_timer_device`, when it answers: the store is as it was, but for a device that was added. -/
theorem webTimerDevice_eq {pick : Picks} {projectId : Option Nat}
    (huser : (s.db.getUserAny userId).isSome) (hhas : s.HasTimer pick userId projectId) :
    ∃ devices platform, s.webTimerDevice pick userId projectId =
        .ok ({ s with db := { s.db with devices }, platform }, s.timerOf pick userId projectId) ∧
      ({ s.db with devices }.getDevice (s.timerOf pick userId projectId).id).isSome := by
  unfold WebStore.webTimerDevice WebStore.timerOf
  cases hown : s.ownWebTimer pick userId with
  | some device =>
    refine ⟨s.db.devices, s.platform, rfl, ?_⟩
    obtain ⟨_, hsel⟩ := List.mem_filter.mp (Library.latestBy_mem hown)
    exact (Bool.and_eq_true_iff.mp (Bool.and_eq_true_iff.mp hsel).2).1
  | none =>
    have hknown : ProjectKnown s.db projectId := by
      rcases hhas with hsome | hknown
      · rw [hown] at hsome
        cases hsome
      · exact hknown
    refine ⟨s.db.devices ++ [s.newWebTimer userId projectId],
      Function.update s.platform s.freshDeviceId webTimerPlatform, ?_,
      getDevice_append _ (.inr rfl)⟩
    dsimp only
    unfold WebStore.insertDevice
    rw [if_neg (by simpa [huser, ProjectKnown] using hknown)]
    rfl

theorem webTimerDevice_fails {pick : Picks} {projectId : Option Nat}
    (hhas : ¬ s.HasTimer pick userId projectId) :
    s.webTimerDevice pick userId projectId = .error .foreignKeyViolation := by
  unfold WebStore.HasTimer at hhas
  rw [not_or] at hhas
  unfold WebStore.webTimerDevice
  rw [Option.not_isSome_iff_eq_none.mp hhas.1]
  exact if_pos (.inr (by simpa [ProjectKnown] using hhas.2))

/-- A new device has an identifier of its own. -/
theorem ne_freshDeviceId (hws : ws ∈ s.db.workSessions) : ws.deviceId ≠ s.freshDeviceId := by
  have hmem : ws.deviceId ∈ s.db.devices.map (·.id) ++ s.db.workSessions.map (·.deviceId) ++
      s.db.agentStateEvents.map (·.deviceId) ++ s.locationEvents.map (·.deviceId) := by
    simp only [List.mem_append, List.mem_map]
    exact .inl (.inl (.inr ⟨ws, hws, rfl⟩))
  have hle : ∀ ids : List Nat, ∀ id ∈ ids, id ≤ ids.foldr max 0 := by
    intro ids id hid
    induction ids with
    | nil => cases hid
    | cons first rest ih =>
      rcases List.mem_cons.mp hid with rfl | hrest
      · exact le_max_left _ _
      · exact (ih hrest).trans (le_max_right _ _)
  exact (Nat.lt_succ_of_le (hle _ _ hmem)).ne

/-- The device of the field routes is never the one of a session that runs on no web timer. -/
theorem timerOf_ne {pick : Picks} {projectId : Option Nat} (hws : ws ∈ s.db.workSessions)
    (htimer : s.isWebTimer ws.deviceId = false) :
    (s.timerOf pick userId projectId).id ≠ ws.deviceId := by
  unfold WebStore.timerOf
  cases hown : s.ownWebTimer pick userId with
  | some device =>
    intro hid
    obtain ⟨_, hsel⟩ := List.mem_filter.mp (Library.latestBy_mem hown)
    rw [Option.getD_some] at hid
    rw [Bool.and_eq_true, hid, htimer] at hsel
    cases hsel.2
  | none => exact (ne_freshDeviceId hws).symm

/-! ## `POST /field/timer` -/

theorem getUserAny_of_worker {db : Database} {user : User} (h : requireWorker db userId = .ok user) :
    db.getUser userId = some user ∧ (db.getUserAny userId).isSome := by
  unfold requireWorker at h
  split at h
  · cases h
  · rename_i hget
    split at h
    · cases h
    · cases h
      rw [(getUser_eq_some.mp hget).1]
      exact ⟨hget, rfl⟩

/-- The window check does not depend on the details it refuses with. -/
theorem requireCurrent_ok {now : Int} {value : Datetime}
    (h : (requireCurrent now value "" "").isOk = true) (naive outside : String) :
    ∃ instant, value.toUtc? = some instant ∧
      requireCurrent now value naive outside = .ok instant := by
  unfold requireCurrent at h ⊢
  cases hutc : value.toUtc? with
  | none =>
    rw [hutc] at h
    cases h
  | some instant =>
    rw [hutc] at h
    dsimp only at h ⊢
    split at h
    · cases h
    · rename_i hinside
      exact ⟨instant, rfl, if_neg hinside⟩

/-- The new device is not the one of any session. -/
theorem timerOf_new_ne {pick : Picks} {projectId : Option Nat} (hws : ws ∈ s.db.workSessions)
    (hhas : ¬ s.HasTimer pick userId projectId) :
    (s.timerOf pick userId projectId).id ≠ ws.deviceId := by
  unfold WebStore.HasTimer at hhas
  rw [not_or] at hhas
  unfold WebStore.timerOf
  rw [Option.not_isSome_iff_eq_none.mp hhas.1]
  exact (ne_freshDeviceId hws).symm

/-- A stop of the field timer is a call of `sync_work_session` for the user's own web timer, unless its
device cannot be inserted. -/
theorem fieldTimerEvent_stop (pick : Picks) {now instant : Int} (h : StoreInvariant s.db) {user : User}
    (hworker : requireWorker s.db userId = .ok user) {payload : FieldTimerEvent}
    (hstop : payload.action = .stop) (htime : payload.observedAt.toUtc? = some instant)
    (hcurrent : requireCurrent now payload.observedAt "observed_at must include timezone"
      "timer timestamp is outside replay window" = .ok instant) :
    (¬ s.HasTimer pick userId (fieldTarget (s.activeTimer userId) payload).1 ∧
      fieldTimerEvent pick now s userId payload = (s, .failed .foreignKeyViolation)) ∨
    (s.HasTimer pick userId (fieldTarget (s.activeTimer userId) payload).1 ∧
      ∃ devices platform, StopOutcome { s with db := { s.db with devices }, platform }
        (fieldStopCall pick s userId payload) answerValueError
        (fieldTimerEvent pick now s userId payload)) := by
  have hrequire : fieldRequire s.db user payload = .ok () := by
    unfold fieldRequire
    rw [hstop]
    rfl
  unfold fieldTimerEvent
  simp only [hworker, hcurrent, hrequire]
  by_cases hhas : s.HasTimer pick userId (fieldTarget (s.activeTimer userId) payload).1
  · obtain ⟨devices, platform, hdevice, hfound⟩ :=
      webTimerDevice_eq (getUserAny_of_worker hworker).2 hhas
    refine .inr ⟨hhas, devices, platform, ?_⟩
    rw [hdevice]
    have hstatus : (fieldStopCall pick s userId payload).status = some .stopped := by
      show some payload.action.status = _
      rw [hstop]
      rfl
    have hkept : StoreInvariant { s with db := { s.db with devices }, platform }.db :=
      h.of_eq rfl rfl le_rfl
    exact sync_stopOutcome hkept pick hstatus htime rfl rfl hfound answerValueError
  · rw [webTimerDevice_fails hhas]
    exact .inl ⟨hhas, rfl⟩

theorem fieldTimerEvent_takesEffect_iff (pick : Picks) (now : Int) (h : StoreInvariant s.db)
    (hws : ws ∈ s.db.workSessions) (huser : ws.userId = some userId) (hlive : ws.live) {user : User}
    (hworker : requireWorker s.db userId = .ok user) {payload : FieldTimerEvent}
    (hstop : payload.action = .stop)
    (hcurrent : (requireCurrent now payload.observedAt "" "").isOk = true) :
    TakesEffect s userId ws (.field payload) (fieldTimerEvent pick now s userId payload) ↔
      FieldStopReaches pick s userId payload ws := by
  obtain ⟨instant, htime, hcurrent⟩ := requireCurrent_ok hcurrent "observed_at must include timezone"
    "timer timestamp is outside replay window"
  have hroute := fieldTimerEvent_stop pick h hworker hstop htime hcurrent
  have hactive := activeTimer_eq h hws huser hlive
  unfold FieldStopReaches
  by_cases htimer : s.isWebTimer ws.deviceId = true
  · have htarget : fieldTarget (s.activeTimer userId) payload = (ws.projectId, ws.taskId) := by
      unfold fieldTarget
      rw [hactive, if_pos htimer, hstop]
    have hconcerns : Concerns s userId ws (.field payload) := htarget
    rw [if_pos htimer]
    rcases hroute with ⟨hhas, hfailed⟩ | ⟨_, devices, platform, houtcome⟩
    · rw [hfailed]
      refine iff_of_false (fun heffect => ?_) fun hreaches => timerOf_new_ne hws hhas hreaches.1
      have hblame := heffect.succeeds hconcerns
      cases hblame
    · have hkept : StoreInvariant { s with db := { s.db with devices }, platform }.db :=
        h.of_eq rfl rfl le_rfl
      rw [houtcome.takesEffect_iff hkept hws huser hlive answers_valueError hconcerns]
      constructor
      · rintro ⟨hdevice, hopen, hrecordable⟩
        exact ⟨hdevice, hopen, hrecordable.fits, hrecordable.new, hrecordable.project⟩
      · rintro ⟨hdevice, hopen, hrecordable⟩
        exact ⟨hdevice, hopen, hrecordable.fits, hrecordable.new, hrecordable.project⟩
  · have htarget : fieldTarget (s.activeTimer userId) payload = (payload.projectId, payload.taskId) := by
      unfold fieldTarget
      rw [hactive, if_neg htimer, hstop]
    have hdevice : (fieldStopCall pick s userId payload).device.id ≠ ws.deviceId :=
      timerOf_ne hws (Bool.not_eq_true _ ▸ htimer)
    rw [if_neg htimer]
    rw [htarget] at hroute
    by_cases hconcerns : Concerns s userId ws (.field payload)
    · have hsame : (payload.projectId, payload.taskId) = (ws.projectId, ws.taskId) :=
        htarget.symm.trans hconcerns
      refine iff_of_false (fun heffect => ?_) fun hreaches => hreaches.1 hsame
      rcases hroute with ⟨_, hfailed⟩ | ⟨_, devices, platform, houtcome⟩
      · rw [hfailed] at heffect
        have hblame := heffect.succeeds hconcerns
        cases hblame
      · have hkept : StoreInvariant { s with db := { s.db with devices }, platform }.db :=
          h.of_eq rfl rfl le_rfl
        exact hdevice ((houtcome.takesEffect_iff hkept hws huser hlive answers_valueError
          hconcerns).mp heffect).1
    · have hother : (payload.projectId, payload.taskId) ≠ (ws.projectId, ws.taskId) :=
        fun hsame => hconcerns (htarget.trans hsame)
      rcases hroute with ⟨hhas, hfailed⟩ | ⟨hhas, devices, platform, houtcome⟩
      · rw [hfailed]
        refine iff_of_true ⟨fun hfailed => ?_, fun hfailed => ?_, fun h => absurd h hconcerns⟩
          ⟨hother, .inl hhas⟩
        · cases hfailed
        · cases hfailed
      · rw [houtcome.takesEffect_elsewhere_iff hws huser hlive answers_valueError hconcerns hdevice rfl]
        exact ⟨fun hrefused => ⟨hother, .inr hrefused⟩,
          fun hreaches => hreaches.2.resolve_left fun hnot => hnot hhas⟩

/-! ## `POST /field/location` -/

theorem exitFence_some {pick : Picks} {point : LocationPoint} {fence : Geofence}
    (h : s.exitFence pick userId point = some fence) :
    crossing (s.geofenceState pick userId point.inside).1 (s.geofenceState pick userId point.inside).2 =
      (.exit, some fence) ∧ fence.exitAction = .stop := by
  unfold WebStore.exitFence at h
  split at h
  · rename_i left hcross
    obtain ⟨rfl, haction⟩ := Option.filter_eq_some_iff.mp h
    exact ⟨hcross, by simpa using haction⟩
  · cases h

/-- Leaving a fence that stops the timer comes to one of five ends. -/
theorem fieldLocation_exit (pick : Picks) {now instant : Int} (h : StoreInvariant s.db) {user : User}
    (hworker : requireWorker s.db userId = .ok user) {point : LocationPoint} {fence : Geofence}
    (hfence : s.exitFence pick userId point = some fence)
    (htime : point.recordedAt.toUtc? = some instant)
    (hcurrent : requireCurrent now point.recordedAt "recorded_at must include timezone"
      "location timestamp is outside replay window" = .ok instant)
    {projectId : Option Nat} (hproject : s.locationProject pick userId (some fence) = projectId)
    {device : Device} (hdevice : s.timerOf pick userId projectId = device) :
    (¬ s.HasTimer pick userId projectId ∧
      fieldLocation pick now s userId point = (s, .failed .foreignKeyViolation)) ∨
    (s.HasTimer pick userId projectId ∧ ∃ s',
      ((s.located device point = true ∧ fieldLocation pick now s userId point = (s', .accepted)) ∨
      (s.located device point = false ∧ (∃ old ∈ s.locationEvents, old.id = point.eventId) ∧
        fieldLocation pick now s userId point = (s', .failed .uniqueViolation)) ∨
      (s.located device point = false ∧ (¬ ∃ old ∈ s.locationEvents, old.id = point.eventId) ∧
        ((s.activeTimer userId = none ∧ fieldLocation pick now s userId point = (s', .accepted)) ∨
        ∃ active, s.activeTimer userId = some active ∧
          StopOutcome s' (timerCall device .stopped active.taskId active.projectId false) .failed
            (fieldLocation pick now s userId point)))) ∧
      ∃ devices, s'.db = { s.db with devices }) := by
  obtain ⟨hcross, hstops⟩ := exitFence_some hfence
  have hchosen : ((s.activeTimer userId).bind (·.projectId) <|> (some fence).bind (·.projectId) <|>
      firstTrackable pick s.db user) = projectId := by
    rw [← hproject]
    unfold WebStore.locationProject
    rw [(getUserAny_of_worker hworker).1]
    rfl
  generalize hroute : fieldLocation pick now s userId point = result
  unfold fieldLocation at hroute
  simp only [hworker, hcurrent, hcross] at hroute
  rw [hchosen] at hroute
  by_cases hhas : s.HasTimer pick userId projectId
  swap
  · rw [webTimerDevice_fails hhas] at hroute
    exact .inl ⟨hhas, hroute.symm⟩
  refine .inr ⟨hhas, ?_⟩
  obtain ⟨devices, platform, hinserted, hfound⟩ :=
    webTimerDevice_eq (getUserAny_of_worker hworker).2 hhas
  rw [hdevice] at hinserted hfound
  rw [hinserted] at hroute
  have hkept : StoreInvariant { s.db with devices } := h.of_eq rfl rfl le_rfl
  have hlocated : (s.locationEvents.any fun old => old.deviceId == device.id && old.recordedAt == instant) =
      s.located device point := by
    unfold WebStore.located
    rw [htime]
    rfl
  dsimp only at hroute
  unfold WebStore.addLocation at hroute
  dsimp only at hroute
  rw [hlocated] at hroute
  by_cases hold : s.located device point = true
  · rw [if_pos hold] at hroute
    dsimp only at hroute
    rw [← hroute]
    exact ⟨_, .inl ⟨hold, rfl⟩, devices, rfl⟩
  rw [if_neg hold] at hroute
  rw [Bool.not_eq_true] at hold
  by_cases htaken : ∃ old ∈ s.locationEvents, old.id = point.eventId
  · rw [if_pos (List.any_eq_true.mpr (by simpa using htaken))] at hroute
    dsimp only at hroute
    rw [← hroute]
    exact ⟨_, .inr (.inl ⟨hold, htaken, rfl⟩), devices, rfl⟩
  rw [if_neg fun hany => htaken (by simpa using List.any_eq_true.mp hany)] at hroute
  dsimp only [Option.elim_some] at hroute
  unfold WebStore.fenceAction at hroute
  cases hactive : s.activeTimer userId with
  | none =>
    rw [hactive] at hroute
    dsimp only at hroute
    rw [← hroute]
    exact ⟨_, .inr (.inr ⟨hold, htaken, .inl ⟨rfl, rfl⟩⟩), devices, rfl⟩
  | some active =>
    rw [hactive] at hroute
    dsimp only at hroute
    rw [if_pos hstops] at hroute
    rw [← hroute]
    have houtcome := fun s' : WebStore => fun hs' : s'.db = { s.db with devices } =>
      timerStop_outcome (hs' ▸ hkept : StoreInvariant s'.db) pick now
        (hs' ▸ hfound : (s'.db.getDevice device.id).isSome) active.taskId active.projectId .failed
    exact ⟨_, .inr (.inr ⟨hold, htaken, .inr ⟨active, rfl, houtcome _ rfl⟩⟩), devices, rfl⟩

theorem fieldLocation_takesEffect_iff (pick : Picks) (now : Int) (h : StoreInvariant s.db)
    (hws : ws ∈ s.db.workSessions) (huser : ws.userId = some userId) (hlive : ws.live) {user : User}
    (hworker : requireWorker s.db userId = .ok user) {point : LocationPoint}
    (hexit : (s.exitFence pick userId point).isSome)
    (hcurrent : (requireCurrent now point.recordedAt "" "").isOk = true) :
    TakesEffect s userId ws (.location point) (fieldLocation pick now s userId point) ↔
      ExitStopReaches pick s userId point ws := by
  obtain ⟨instant, htime, hcurrent⟩ := requireCurrent_ok hcurrent "recorded_at must include timezone"
    "location timestamp is outside replay window"
  obtain ⟨fence, hfence⟩ := Option.isSome_iff_exists.mp hexit
  have hactive := activeTimer_eq h hws huser hlive
  have hconcerns : Concerns s userId ws (.location point) := trivial
  unfold ExitStopReaches
  rw [hfence]
  dsimp only
  generalize hproject : s.locationProject pick userId (some fence) = projectId
  generalize hdevice : s.timerOf pick userId projectId = device
  rcases fieldLocation_exit pick h hworker hfence htime hcurrent hproject hdevice with
    ⟨hhas, hroute⟩ | ⟨hhas, s', ⟨hold, hroute⟩ | ⟨hold, htaken, hroute⟩ |
      ⟨hold, htaken, ⟨hidle, hroute⟩ | ⟨active, hrunning, houtcome⟩⟩, devices, hdb⟩
  · rw [hroute]
    refine iff_of_false (fun heffect => ?_) fun hreaches => hhas hreaches.1
    have hblame := heffect.succeeds hconcerns
    cases hblame
  · rw [hroute]
    refine iff_of_false (not_takesEffect_of_live rfl (hdb ▸ hws) huser hlive) fun hreaches => ?_
    have hnew := hreaches.2.1
    rw [hold] at hnew
    cases hnew
  · rw [hroute]
    refine iff_of_true ⟨fun hfailed => ?_, fun hfailed => ?_, fun _ => rfl⟩ ⟨hhas, hold, .inl htaken⟩
    · cases hfailed
    · cases hfailed
  · rw [hroute]
    refine iff_of_false (not_takesEffect_of_live rfl (hdb ▸ hws) huser hlive) fun hreaches => ?_
    rcases hreaches.2.2 with hused | ⟨htimer, _⟩
    · exact htaken hused
    · rw [hactive, if_pos htimer] at hidle
      cases hidle
  · have htimer : s.isWebTimer ws.deviceId = true := by
      by_contra hnot
      rw [hactive, if_neg hnot] at hrunning
      cases hrunning
    rw [hactive, if_pos htimer, Option.some.injEq] at hrunning
    subst hrunning
    have hkept : StoreInvariant s'.db := hdb ▸ h.of_eq rfl rfl le_rfl
    rw [houtcome.takesEffect_iff hkept (hdb ▸ hws) huser hlive answers_failed hconcerns, hdb]
    constructor
    · rintro ⟨hid, hidle, hrecordable⟩
      exact ⟨hhas, hold, .inr ⟨htimer, hid, hidle, hrecordable.fits⟩⟩
    · rintro ⟨_, _, hused | ⟨_, hid, hidle, hfits⟩⟩
      · exact absurd hused htaken
      · exact ⟨hid, hidle, hfits, rfl, fun hevent => by cases hevent⟩

/-! ## Every stop -/

/-- A request that is turned away before it reads the timer answers with an error that blames no
work. -/
theorem takesEffect_of_turnedAway {s0 s1 : WebStore} {request : TimerRequest} {status : Nat}
    {detail : String} (hdetail : taskRefusals.contains detail = false) :
    TakesEffect s0 userId ws request (s1, .refused status detail) := by
  refine ⟨fun haccepted => ?_, fun haccepted => ?_, fun _ => hdetail⟩
  · cases haccepted
  · cases haccepted

theorem requireWorker_refuses {db : Database} (h : (requireWorker db userId).isOk = false) :
    ∃ status detail, requireWorker db userId = .error (.refused status detail) ∧
      taskRefusals.contains detail = false := by
  unfold requireWorker at h ⊢
  split at h
  · exact ⟨_, _, rfl, by decide +kernel⟩
  · split at h
    · rename_i hviewer
      rw [if_pos hviewer]
      exact ⟨_, _, rfl, by decide +kernel⟩
    · cases h

theorem requireCurrent_refuses {now : Int} {value : Datetime}
    (h : (requireCurrent now value "" "").isOk = false) (naive outside : String) :
    ∃ detail, (detail = naive ∨ detail = outside) ∧
      requireCurrent now value naive outside = .error (.refused 422 detail) := by
  unfold requireCurrent at h ⊢
  cases hutc : value.toUtc? with
  | none => exact ⟨naive, .inl rfl, rfl⟩
  | some instant =>
    rw [hutc] at h
    dsimp only at h ⊢
    split at h
    · rename_i houtside
      exact ⟨outside, .inr rfl, if_pos houtside⟩
    · cases h

/-- A request that does not enter takes effect, as there is nothing it does. -/
theorem takesEffect_of_not_enters (pick : Picks) (now : Int) {request : TimerRequest}
    (hstop : request.IsStop pick s userId) (henters : ¬ request.Enters now s userId) :
    TakesEffect s userId ws request (request.serve pick now s userId) := by
  by_cases hworker : (requireWorker s.db userId).isOk = true
  · obtain ⟨user, huser⟩ : ∃ user, requireWorker s.db userId = .ok user := by
      cases hget : requireWorker s.db userId with
      | error answer =>
        rw [hget] at hworker
        cases hworker
      | ok user => exact ⟨user, rfl⟩
    cases request with
    | start projectId taskId => exact hstop.elim
    | change action => exact hstop.elim
    | stop => exact absurd ⟨hworker, trivial⟩ henters
    | field payload =>
      have hcurrent : (requireCurrent now payload.observedAt "" "").isOk = false :=
        Bool.not_eq_true _ ▸ fun hok => henters ⟨hworker, hok⟩
      obtain ⟨detail, hdetail, hrefused⟩ := requireCurrent_refuses hcurrent
        "observed_at must include timezone" "timer timestamp is outside replay window"
      show TakesEffect s userId ws _ (fieldTimerEvent pick now s userId payload)
      unfold fieldTimerEvent
      simp only [huser, hrefused]
      refine takesEffect_of_turnedAway ?_
      rcases hdetail with rfl | rfl <;> decide +kernel
    | location point =>
      have hcurrent : (requireCurrent now point.recordedAt "" "").isOk = false :=
        Bool.not_eq_true _ ▸ fun hok => henters ⟨hworker, hok⟩
      obtain ⟨detail, hdetail, hrefused⟩ := requireCurrent_refuses hcurrent
        "recorded_at must include timezone" "location timestamp is outside replay window"
      show TakesEffect s userId ws _ (fieldLocation pick now s userId point)
      unfold fieldLocation
      simp only [huser, hrefused]
      refine takesEffect_of_turnedAway ?_
      rcases hdetail with rfl | rfl <;> decide +kernel
  · obtain ⟨status, detail, hrefused, hdetail⟩ :=
      requireWorker_refuses (Bool.not_eq_true _ ▸ hworker)
    have hserve : request.serve pick now s userId = (s, .refused status detail) := by
      cases request with
      | start projectId taskId => exact hstop.elim
      | change action => exact hstop.elim
      | stop => simp only [TimerRequest.serve, stopWebTimer, hrefused]
      | field payload => simp only [TimerRequest.serve, fieldTimerEvent, hrefused]
      | location point => simp only [TimerRequest.serve, fieldLocation, hrefused]
    rw [hserve]
    exact takesEffect_of_turnedAway hdetail

end

/-- **A stop takes effect exactly when it reaches the session.** In every reachable state with a live
session `ws` of the user, a request to stop leaves the user with no live session and no open break, and
does not fail for the task, project or device of the session, if and only if it meets `StopReaches`
(or is turned away at the door). -/
theorem stopRequest_takesEffect_iff (db : Database) (ops : List WebOp) (pick : Picks) (now : Int)
    (userId : Nat) (ws : WorkSession) (request : TimerRequest)
    (hws : ws ∈ (run WebStore.step (WebStore.start db) ops).db.workSessions)
    (huser : ws.userId = some userId) (hlive : ws.live)
    (hstop : request.IsStop pick (run WebStore.step (WebStore.start db) ops) userId) :
    TakesEffect (run WebStore.step (WebStore.start db) ops) userId ws request
        (request.serve pick now (run WebStore.step (WebStore.start db) ops) userId) ↔
      (request.Enters now (run WebStore.step (WebStore.start db) ops) userId →
        StopReaches pick now (run WebStore.step (WebStore.start db) ops) userId ws request) := by
  have h := webStore_run db ops
  generalize run WebStore.step (WebStore.start db) ops = s at *
  by_cases henters : request.Enters now s userId
  swap
  · exact iff_of_true (takesEffect_of_not_enters pick now hstop henters) fun hyes =>
      absurd hyes henters
  rw [imp_iff_right henters]
  obtain ⟨user, hworker⟩ : ∃ user, requireWorker s.db userId = .ok user := by
    cases hget : requireWorker s.db userId with
    | error answer =>
        have hok := henters.1
        rw [hget] at hok
        cases hok
    | ok user => exact ⟨user, rfl⟩
  cases request with
  | start projectId taskId => exact hstop.elim
  | change action => exact hstop.elim
  | stop => exact stopWebTimer_takesEffect_iff pick now h hws huser hlive hworker
  | field payload =>
      exact fieldTimerEvent_takesEffect_iff pick now h hws huser hlive hworker hstop henters.2
  | location point =>
      exact fieldLocation_takesEffect_iff pick now h hws huser hlive hworker hstop henters.2

/-- The session that the member of the office opens at minute 600 on a device. -/
def officeSession (deviceId : Nat) : WorkSession where
  id := 0
  userId := some 1
  deviceId := deviceId
  projectId := some 1
  taskId := none
  status := .active
  note := ""
  startedAt := minutes 600
  endedAt := none
  createdAt := minutes 600
  updatedAt := minutes 600

/-- Started in the browser and stopped there a minute later. -/
theorem stopRequest_takesEffect_iff_web :
    TakesEffect (run WebStore.step (WebStore.start office) [.request {} (minutes 600) 1 (.start 1 none)])
      1 (officeSession 3) .stop
      (TimerRequest.stop.serve {} (minutes 601)
        (run WebStore.step (WebStore.start office) [.request {} (minutes 600) 1 (.start 1 none)]) 1) := by
  refine (stopRequest_takesEffect_iff office [.request {} (minutes 600) 1 (.start 1 none)] {}
    (minutes 601) 1 (officeSession 3) .stop (by decide +kernel) rfl rfl trivial).mpr fun _ =>
      ⟨by decide +kernel, .inr ⟨_, rfl, ?_⟩⟩
  intro taskId htask
  cases htask

/-- The member works on the laptop and presses Stop in the browser: the request is accepted, and the
session of the laptop goes on. -/
theorem stopRequest_laptop :
    ¬ ∀ (db : Database) (ops : List WebOp) (pick : Picks) (now : Int) (userId : Nat)
        (ws : WorkSession) (request : TimerRequest),
      ws ∈ (run WebStore.step (WebStore.start db) ops).db.workSessions →
      ws.userId = some userId → ws.live →
      request.IsStop pick (run WebStore.step (WebStore.start db) ops) userId →
      TakesEffect (run WebStore.step (WebStore.start db) ops) userId ws request
        (request.serve pick now (run WebStore.step (WebStore.start db) ops) userId) := by
  intro h
  have heffect := h office
    [.work (deliver (minutes 600) (pressed laptop 1 .active (minutes 600)))] {} (minutes 601) 1
    (officeSession 1) .stop (by decide +kernel) rfl rfl trivial
  have hlive := heffect.sessions (by decide +kernel) (officeSession 1) (by decide +kernel) rfl
  cases hlive

end Dayfinch
