/-
# Dayfinch.Agent.Tracker -- the timer of the desktop agent and its automatic policy

`Tracker` is what `TrackerAgent` holds of the timer and of the automatic policy, with the one row of
`local_state` that outlives the process. Its methods are functions under their own names. A method of the
employee changes the timer under one lock. `catalog` and `_apply_automatic_tracking` take the lock again and
again, and act on what they read under it before: each of their sections is a step of its own, `TickTask` and
`CatalogTask` say which one comes next, and `TrackerProcess` holds the calls in progress on the worker's and
other threads. The write to `local_state` that follows a manual stop is a step of its own as well. A method that
raises leaves its message. Capture, uploads, heartbeats, reminders and the idle state read the timer and do not
move it, and are not modelled.
-/
import Dayfinch.Agent.Automatic
import Dayfinch.Schema

namespace Dayfinch

/-- The fields of `TrackerAgent` and the state on disk. `localState` is the row
`automatic_suppressed_window`, empty when there is none; `journalWorks` says whether the queue's database
can be read and written; `worker` is the thread of `_work_loop`. -/
structure Tracker where
  timerState : SessionStatus := .stopped
  status : String := "Not tracking"
  selectedProjectId : String := ""
  selectedTaskId : String := ""
  automaticPolicy : Option AutomaticPolicy := none
  automaticWindowKey : String := ""
  automaticStarted : Bool := false
  automaticSuppressedWindowKey : String := ""
  localState : String := ""
  journalWorks : Bool := true
  running : Bool := false
  worker : Bool := false
  deriving DecidableEq, Repr

namespace Tracker

/-! ## The timer -/

/-- `set_local_state(AUTOMATIC_SUPPRESSION_STATE, key)`, whose errors are caught. -/
def saveSuppression (key : String) (s : Tracker) : Tracker :=
  if s.journalWorks ∧ key.length ≤ 262144 then { s with localState := key } else s

/-- `start_tracking`. -/
def startTracking (s : Tracker) : Except Error Tracker := do
  if s.timerState ≠ .stopped then return s
  raiseIf (s.selectedProjectId = "") "Choose a project before starting the timer"
  return { s with timerState := .active, status := "Active" }

/-- `pause_tracking`. -/
def pauseTracking (s : Tracker) : Except Error Tracker := do
  raiseIf (s.timerState ≠ .active) "Only an active timer can be paused"
  return { s with timerState := .paused, status := "Paused by employee" }

/-- `resume_tracking`. -/
def resumeTracking (s : Tracker) : Except Error Tracker := do
  raiseIf (s.timerState ≠ .paused) "Only a paused timer can be resumed"
  return { s with timerState := .active, status := "Active" }

/-- `stop_tracking` under its lock, and the `suppressed_key` that is to be saved after it. -/
def stopTracking (automatic : Bool) (s : Tracker) : Tracker × Option String :=
  if s.timerState = .stopped then (s, none)
  else
    let stopped := { s with timerState := .stopped, status := "Not tracking" }
    if automatic then (stopped, none)
    else if s.automaticWindowKey = "" then ({ stopped with automaticStarted := false }, none)
    else
      ({ stopped with
          automaticStarted := false
          automaticSuppressedWindowKey := s.automaticWindowKey }, some s.automaticWindowKey)

/-- `select_work`. -/
def selectWork (projectId taskId : String) (s : Tracker) : Tracker :=
  { s with selectedProjectId := projectId, selectedTaskId := taskId }

end Tracker

/-! ## The policy in the configuration -/

/-- What `catalog` does next: save the cleared suppression, look at the timer, stop it, note that, or show it. -/
inductive CatalogTask
  | save (previousStarted : Bool)
  | check
  | stop
  | forget
  | status
  deriving DecidableEq, Repr

namespace Tracker

/-- `policy_changed` in `catalog`. -/
def policyChanged (previous current : Option AutomaticPolicy) : Bool :=
  previous.isSome && previous.map (·.id) != current.map (·.id)

/-- The section of `catalog` that takes the policy in the reply, and what is left to do. -/
def catalog (automatic : Option AutomaticPolicy) (s : Tracker) : Tracker × Option CatalogTask :=
  if policyChanged s.automaticPolicy automatic then
    ({ s with
        automaticPolicy := automatic
        automaticWindowKey := ""
        automaticSuppressedWindowKey := "" }, some (.save s.automaticStarted))
  else ({ s with automaticPolicy := automatic }, none)

end Tracker

/-- The rest of `catalog`, section by section. -/
def CatalogTask.next (s : Tracker) : CatalogTask → Tracker × Option CatalogTask
  | .save previousStarted => (s.saveSuppression "", if previousStarted then some .check else none)
  | .check => (s, if s.timerState ≠ .stopped then some .stop else none)
  | .stop => ((s.stopTracking true).1, some .forget)
  | .forget => ({ s with automaticStarted := false }, some .status)
  | .status => ({ s with status := "Not tracking · automatic policy changed" }, none)

namespace Tracker

/-- `respond_automatic_policy`, after the server has taken the response. -/
def respondAutomaticPolicy (policyId : String) (accepted : Bool) (s : Tracker) : Tracker :=
  match s.automaticPolicy with
  | none => s
  | some policy =>
    if policy.id = policyId then
      { s with
        automaticPolicy :=
          some { policy with consentStatus := if accepted then .accepted else .declined }
        automaticWindowKey := ""
        automaticStarted := false }
    else s

end Tracker

/-! ## The automatic policy -/

/-- The local variables of a tick that has found a window; `recentActivity` is what `_recent_activity` answers. -/
structure TickLocals where
  policy : Option AutomaticPolicy
  moment : Datetime
  window : ActiveWindow
  found : activeWindow policy moment = some window
  recentActivity : Bool
  deriving DecidableEq

/-- What `_apply_automatic_tracking` does next. Without a window: look at the timer, stop it, show that, forget
the window, save the cleared suppression. In a window: look at the timer, note the window that it runs in; or
select the work, start the timer, note that. `status` shows a text. -/
inductive TickTask
  | leaveCheck
  | leaveStop
  | leaveStatus
  | leaveForget
  | leaveSave
  | enterCheck (tick : TickLocals)
  | enterNote (tick : TickLocals)
  | enterSelect (tick : TickLocals)
  | enterStart (tick : TickLocals)
  | enterStarted (tick : TickLocals)
  | status (text : String)
  deriving DecidableEq

/-- The first section of `_apply_automatic_tracking`, and what it makes of what it has read. -/
def Tracker.applyAutomaticTracking (moment : Datetime) (recentActivity : Bool) (s : Tracker) : Option TickTask :=
  match hwindow : activeWindow s.automaticPolicy moment with
  | none => some (if s.automaticStarted then .leaveCheck else .leaveForget)
  | some window =>
    if s.automaticSuppressedWindowKey = window.key then
      some (.status "Not tracking · automatic start suppressed for this window")
    else if s.automaticWindowKey = window.key then none
    else
      some (.enterCheck { policy := s.automaticPolicy, moment, window, found := hwindow, recentActivity })

/-- The rest of `_apply_automatic_tracking`, section by section. A start that raises ends the worker thread. -/
def TickTask.next (s : Tracker) : TickTask → Tracker × Option TickTask
  | .leaveCheck => (s, some (if s.timerState ≠ .stopped then .leaveStop else .leaveForget))
  | .leaveStop => ((s.stopTracking true).1, some .leaveStatus)
  | .leaveStatus => ({ s with status := "Not tracking · automatic schedule ended" }, some .leaveForget)
  | .leaveForget =>
    ({ s with
        automaticWindowKey := ""
        automaticStarted := false
        automaticSuppressedWindowKey := "" },
      if s.automaticSuppressedWindowKey = "" then none else some .leaveSave)
  | .leaveSave => (s.saveSuppression "", none)
  | .enterCheck tick =>
    (s, some (if s.timerState ≠ .stopped then .enterNote tick
      else if tick.policy.any (·.waitForActivity) ∧ ¬ tick.recentActivity then
        .status "Automatic schedule waiting for activity"
      else .enterSelect tick))
  | .enterNote tick => ({ s with automaticWindowKey := tick.window.key }, none)
  | .enterSelect tick => (s.selectWork tick.window.projectId "", some (.enterStart tick))
  | .enterStart tick =>
    match s.startTracking with
    | .error _ => ({ s with worker := false }, none)
    | .ok started => (started, some (.enterStarted tick))
  | .enterStarted tick =>
    ({ s with automaticWindowKey := tick.window.key, automaticStarted := true },
      some (.status ("Active · automatic policy: " ++ tick.policy.elim "scheduled" (·.name))))
  | .status text => ({ s with status := text }, none)

/-! ## The process -/

namespace Tracker

/-- A request for the configuration: the policy that it answers, or no answer. -/
abbrev Reply := Option (Option AutomaticPolicy)

/-- `TrackerAgent(config)` and `start`, whose call of `catalog` finds no policy to replace and raises without an
answer. Without its database the process does not come up. -/
def restart (projectId taskId : String) (reply : Reply) (s : Tracker) : Tracker :=
  if s.journalWorks then
    { selectedProjectId := projectId
      selectedTaskId := taskId
      automaticPolicy := reply.join
      automaticSuppressedWindowKey := s.localState
      localState := s.localState
      journalWorks := true
      running := true
      worker := true }
  else { s with running := false }

/-- A call of the user interface: one that raises changes nothing. -/
def attempt (result : Except Error Tracker) (s : Tracker) : Tracker :=
  match result with
  | .ok s' => s'
  | .error _ => s

end Tracker

/-- The agent, what its threads are in the middle of, and how often the timer has been started or stopped. A call
in progress carries that number as it was when the call read the timer. -/
structure TrackerProcess where
  agent : Tracker := {}
  turns : Nat := 0
  tick : Option (TickTask × Nat) := none
  catalogs : List (CatalogTask × Nat) := []
  saves : List String := []
  deriving DecidableEq

/-- What happens to the agent. A `tick` begins `_apply_automatic_tracking` in the work loop and `work` goes on
with it; a `refresh` is a reply that `catalog` has got, on any thread, and `catalogWork` goes on with one of these
calls; `save` is the write after a manual stop; `stop` is the employee's, and `workRejected` is the stop of the
work loop after the server has refused the work. -/
inductive TrackerOp
  | tick (moment : Datetime) (recentActivity : Bool)
  | work
  | refresh (reply : Tracker.Reply)
  | catalogWork (n : Nat)
  | save (n : Nat)
  | start
  | pause
  | resume
  | stop (moment : Datetime)
  | selectWork (projectId taskId : String)
  | workRejected
  | respond (policyId : String) (accepted : Bool)
  | restart (projectId taskId : String) (reply : Tracker.Reply)
  | journal (works : Bool)
  deriving DecidableEq, Repr

namespace TrackerProcess

/-- The agent changes, and a turn of its timer is counted. -/
def set (p : TrackerProcess) (agent : Tracker) : TrackerProcess :=
  { p with
    agent
    turns := if (p.agent.timerState = .stopped) = (agent.timerState = .stopped) then p.turns else p.turns + 1 }

/-- The process runs; a tick and a refusal need its worker to be free. -/
def takes (p : TrackerProcess) : TrackerOp → Bool
  | .restart .. | .journal _ => true
  | .tick .. | .workRejected => p.agent.running && p.agent.worker && p.tick.isNone
  | _ => p.agent.running

/-- A manual stop, and the key that it leaves to be saved. -/
def manualStop (p : TrackerProcess) : TrackerProcess :=
  { p.set (p.agent.stopTracking false).1 with
    saves := p.saves ++ (p.agent.stopTracking false).2.toList }

/-- The next section of the tick in progress. From its start of the timer on, it counts from there. -/
def workTick (p : TrackerProcess) (task : TickTask) (began : Nat) : TrackerProcess :=
  let next := p.set (task.next p.agent).1
  let began := match task with
    | .enterStart _ => next.turns
    | _ => began
  { next with tick := (task.next p.agent).2.map (·, began) }

/-- The next section of a call of `catalog`. -/
def workCatalog (p : TrackerProcess) (n : Nat) (task : CatalogTask) (began : Nat) : TrackerProcess :=
  { p.set (task.next p.agent).1 with
    catalogs := p.catalogs.eraseIdx n ++ ((task.next p.agent).2.map (·, began)).toList }

def perform (p : TrackerProcess) : TrackerOp → TrackerProcess
  | .tick moment recentActivity =>
    { p with tick := (p.agent.applyAutomaticTracking moment recentActivity).map (·, p.turns) }
  | .work => p.tick.elim p fun (task, began) => p.workTick task began
  | .refresh none => p
  | .refresh (some automatic) =>
    { p.set (p.agent.catalog automatic).1 with
      catalogs := p.catalogs ++ ((p.agent.catalog automatic).2.map (·, p.turns)).toList }
  | .catalogWork n => p.catalogs[n]?.elim p fun (task, began) => p.workCatalog n task began
  | .save n =>
    { p.set (p.saves[n]?.elim p.agent p.agent.saveSuppression) with saves := p.saves.eraseIdx n }
  | .start => p.set (Tracker.attempt p.agent.startTracking p.agent)
  | .pause => p.set (Tracker.attempt p.agent.pauseTracking p.agent)
  | .resume => p.set (Tracker.attempt p.agent.resumeTracking p.agent)
  | .stop _ => p.manualStop
  | .selectWork projectId taskId => p.set (p.agent.selectWork projectId taskId)
  | .workRejected =>
    { p.manualStop with tick := some (.status "Tracking stopped · server rejected this work", p.turns) }
  | .respond policyId accepted => p.set (p.agent.respondAutomaticPolicy policyId accepted)
  | .restart projectId taskId reply =>
    { p.set (p.agent.restart projectId taskId reply) with tick := none, catalogs := [], saves := [] }
  | .journal works => p.set { p.agent with journalWorks := works }

end TrackerProcess

end Dayfinch
