/-
# Dayfinch.Agent.Suppression -- what a manual stop keeps the automatic policy from

The agent remembers one window key as suppressed. A manual stop in a window puts the key of the window
that the last tick handled there, and a tick of the suppressed window starts nothing. The key is lost
when a tick finds no window, when the policy changes its id, when a later stop puts another key in its
place, and when the process restarts without it. `keptWindows` is the history of that, read off the
operations.

A tick and a refresh read the timer first and act on it later, with the lock released in between. A timer that
is started or stopped meanwhile is acted on all the same: it may be stopped, moved to another project, or taken
for one that the policy has started. `undisturbed` excludes that. A run whose ticks meet no stopped window that
has been lost, and whose policy acts on the timer as it read it, starts nothing in a stopped window and leaves
the employee's timer alone.
-/
import Dayfinch.Agent.Tracker
import Dayfinch.Library.Run

namespace Dayfinch

open Library (run Guarded guarded_invariant)

/-! ## The history of a run -/

/-- Who started the timer. -/
inductive Starter
  | employee | policy
  deriving DecidableEq, Repr

/-- The process, who started its timer if it is not stopped, the windows in which the employee has stopped
it, and those among them whose suppression nothing has interrupted. -/
structure TrackerRun extends TrackerProcess where
  startedBy : Option Starter := none
  stoppedWindows : List String := []
  keptWindows : List String := []
  deriving DecidableEq

/-- The operations of the automatic policy. -/
def TrackerOp.byPolicy : TrackerOp → Bool
  | .tick .. | .work | .refresh _ | .catalogWork _ | .respond .. => true
  | _ => false

/-- Whether an operation interrupts the suppression of a window: a tick that has found no window forgets it, a
policy with another id, a stop that suppresses another window, a restart that reads another key. -/
def TrackerProcess.interrupts (p : TrackerProcess) (op : TrackerOp) (key : String) : Bool :=
  match op with
  | .work => p.tick.any (·.1 == .leaveForget)
  | .refresh (some automatic) => Tracker.policyChanged p.agent.automaticPolicy automatic
  | .stop _ | .workRejected =>
    p.agent.timerState != .stopped && p.agent.automaticWindowKey != "" && p.agent.automaticWindowKey != key
  | .restart .. => p.agent.localState != key
  | _ => false

/-- The key of the window in which an operation is a manual stop. -/
def TrackerProcess.stopsIn (p : TrackerProcess) (op : TrackerOp) : Option String :=
  match op with
  | .stop moment =>
    if p.agent.timerState = .stopped then none
    else (activeWindow p.agent.automaticPolicy moment).map (·.key)
  | _ => none

namespace TrackerRun

/-- Who has started the timer after an operation. -/
def starter (r : TrackerRun) (op : TrackerOp) : Option Starter :=
  if (r.perform op).agent.timerState = .stopped then none
  else if r.agent.timerState = .stopped then some (if op.byPolicy then .policy else .employee)
  else r.startedBy

/-- The windows whose suppression stands after an operation: those that it does not interrupt, and the
window of a manual stop that a tick has handled before. -/
def keeps (r : TrackerRun) (op : TrackerOp) : List String :=
  r.keptWindows.filter (fun key => !r.interrupts op key) ++
    (r.stopsIn op).toList.filter (r.agent.automaticWindowKey == ·)

/-- One operation of a run. -/
def step (r : TrackerRun) (op : TrackerOp) : TrackerRun :=
  if r.takes op then
    { toTrackerProcess := r.perform op
      startedBy := r.starter op
      stoppedWindows := r.stoppedWindows ++ (r.stopsIn op).toList
      keptWindows := r.keeps op }
  else r

end TrackerRun

/-! ## The condition -/

/-- The section stops the timer, moves it to another project, starts it, or notes that it has. -/
def TickTask.acts (s : Tracker) : TickTask → Bool
  | .leaveStop => s.timerState != .stopped
  | .enterSelect _ | .enterStart _ | .enterStarted _ => true
  | _ => false

/-- The section stops the timer. -/
def CatalogTask.acts (s : Tracker) : CatalogTask → Bool
  | .stop => s.timerState != .stopped
  | _ => false

/-- The policy acts on a timer that has not been started or stopped since it read it, and the employee does not
start the timer before an automatic stop of it has been noted. -/
def TrackerProcess.undisturbed (p : TrackerProcess) (op : TrackerOp) : Bool :=
  match op with
  | .work => p.tick.all fun (task, began) => !task.acts p.agent || began == p.turns
  | .catalogWork n => p.catalogs[n]?.all fun (task, began) => !task.acts p.agent || began == p.turns
  | .start => !(p.agent.automaticStarted && p.agent.timerState == .stopped)
  | _ => true

/-- The window that a tick finds has not been stopped, or its suppression stands. -/
def TrackerRun.suppressionStands (r : TrackerRun) (op : TrackerOp) : Bool :=
  match op with
  | .tick moment _ =>
    (activeWindow r.agent.automaticPolicy moment).all fun window =>
      !r.stoppedWindows.contains window.key || r.keptWindows.contains window.key
  | _ => true

/-- **The condition** on an operation. -/
def TrackerRun.inOrder (r : TrackerRun) (op : TrackerOp) : Bool :=
  r.suppressionStands op && r.undisturbed op

/-- **What is asked of an operation.** When an operation of the policy starts the timer, it goes on with a tick
that has found a window in which the employee has not stopped it; and an operation of the policy leaves a timer
that the employee started as it is. -/
structure TrackerSound (r : TrackerRun) (op : TrackerOp) : Prop where
  noStart : op.byPolicy → r.agent.timerState = .stopped → (r.step op).agent.timerState ≠ .stopped →
    ∃ tick began, op = .work ∧ r.tick = some (.enterStart tick, began) ∧ tick.window.key ∉ r.stoppedWindows
  employeeTimer : op.byPolicy → r.startedBy = some .employee →
    (r.step op).startedBy = some .employee ∧ (r.step op).agent.automaticStarted = false ∧
      (r.step op).agent.timerState = r.agent.timerState ∧
      (r.step op).agent.selectedProjectId = r.agent.selectedProjectId ∧
      (r.step op).agent.selectedTaskId = r.agent.selectedTaskId

/-! ## Methods -/

namespace Tracker

section

variable (s : Tracker)

@[simp] theorem saveSuppression_timerState (key : String) :
    (saveSuppression key s).timerState = s.timerState := by
  unfold saveSuppression
  split <;> rfl

@[simp] theorem saveSuppression_automaticStarted (key : String) :
    (saveSuppression key s).automaticStarted = s.automaticStarted := by
  unfold saveSuppression
  split <;> rfl

@[simp] theorem saveSuppression_suppressed (key : String) :
    (saveSuppression key s).automaticSuppressedWindowKey = s.automaticSuppressedWindowKey := by
  unfold saveSuppression
  split <;> rfl

@[simp] theorem saveSuppression_selectedProjectId (key : String) :
    (saveSuppression key s).selectedProjectId = s.selectedProjectId := by
  unfold saveSuppression
  split <;> rfl

@[simp] theorem saveSuppression_selectedTaskId (key : String) :
    (saveSuppression key s).selectedTaskId = s.selectedTaskId := by
  unfold saveSuppression
  split <;> rfl

/-- An automatic stop changes nothing but the timer and its status. -/
theorem stopTracking_automatic :
    ∃ status, (stopTracking true s).1 = { s with timerState := .stopped, status := status } := by
  unfold stopTracking
  split
  · next hstopped =>
    refine ⟨s.status, ?_⟩
    rw [← hstopped]
  · exact ⟨_, rfl⟩

@[simp] theorem stopTracking_timerState (automatic : Bool) :
    (stopTracking automatic s).1.timerState = .stopped := by
  unfold stopTracking
  split
  · assumption
  · dsimp only
    split
    · rfl
    · split <;> rfl

/-- No stop notes a start of the policy. -/
theorem stopTracking_automaticStarted (automatic : Bool) :
    (stopTracking automatic s).1.automaticStarted → s.automaticStarted := by
  unfold stopTracking
  split
  · exact id
  · dsimp only
    split
    · exact id
    · split <;> exact nofun

/-- A manual stop suppresses the window that the last tick handled. -/
theorem stopTracking_suppressed (h : s.timerState ≠ .stopped) :
    (stopTracking false s).1.automaticSuppressedWindowKey =
      if s.automaticWindowKey = "" then s.automaticSuppressedWindowKey else s.automaticWindowKey := by
  unfold stopTracking
  rw [if_neg h]
  dsimp only
  rw [if_neg (by simp)]
  split <;> rfl

/-- The suppression outlives a manual stop that suppresses no other window. -/
theorem stopTracking_keeps {s : Tracker} {key : String} (h : s.automaticSuppressedWindowKey = key)
    (hkept : (s.timerState != .stopped && s.automaticWindowKey != "" && s.automaticWindowKey != key) =
      false) : (stopTracking false s).1.automaticSuppressedWindowKey = key := by
  by_cases hstopped : s.timerState = .stopped
  · unfold stopTracking
    rw [if_pos hstopped]
    exact h
  · rw [stopTracking_suppressed s hstopped]
    split
    · exact h
    · next hhandled => simpa [hstopped, hhandled] using hkept

/-- A stopped timer that starts is active; nothing else changes but the status. -/
theorem startTracking_ok {s s' : Tracker} (h : s.startTracking = .ok s') :
    s.timerState ≠ .stopped ∧ s' = s ∨
      s.timerState = .stopped ∧ s' = { s with timerState := .active, status := "Active" } := by
  unfold startTracking at h
  split at h
  · next hstopped => exact .inl ⟨hstopped, (Except.ok.inj h).symm⟩
  · next hstopped =>
    obtain ⟨_, _, h⟩ := Library.bind_eq_ok.mp h
    exact .inr ⟨not_not.mp hstopped, (Except.ok.inj h).symm⟩

/-- The employee's start sets a stopped timer going, or changes nothing. -/
theorem attempt_start : attempt s.startTracking s = s ∨
    s.timerState = .stopped ∧ attempt s.startTracking s = { s with timerState := .active, status := "Active" } := by
  cases hstart : s.startTracking with
  | error _ => exact .inl rfl
  | ok s' =>
    rcases startTracking_ok hstart with ⟨_, rfl⟩ | ⟨hstopped, rfl⟩
    · exact .inl rfl
    · exact .inr ⟨hstopped, rfl⟩

/-- The employee's pause and resume change a timer that runs, and its status. -/
theorem attempt_running {result : Except Error Tracker}
    (h : result = s.pauseTracking ∨ result = s.resumeTracking) :
    ∃ timerState status, attempt result s = { s with timerState := timerState, status := status } ∧
      (timerState = .stopped ↔ s.timerState = .stopped) := by
  cases hresult : result with
  | error _ => exact ⟨s.timerState, s.status, rfl, Iff.rfl⟩
  | ok s' =>
    rw [hresult] at h
    rcases h with hpause | hresume
    · obtain ⟨_, hraise, hok⟩ := Library.bind_eq_ok.mp hpause.symm
      obtain rfl := Except.ok.inj hok
      have hactive := not_not.mp (raiseIf_eq_ok.mp hraise)
      exact ⟨_, _, rfl, by simp [hactive]⟩
    · obtain ⟨_, hraise, hok⟩ := Library.bind_eq_ok.mp hresume.symm
      obtain rfl := Except.ok.inj hok
      have hpaused := not_not.mp (raiseIf_eq_ok.mp hraise)
      exact ⟨_, _, rfl, by simp [hpaused]⟩

/-- What the reply of a refresh does: it replaces the policy, and when the id changes the agent forgets the window
and the suppression. -/
theorem catalog_spec (automatic : Option AutomaticPolicy) :
    (s.catalog automatic).1.timerState = s.timerState ∧
      (s.catalog automatic).1.automaticStarted = s.automaticStarted ∧
      (s.catalog automatic).1.selectedProjectId = s.selectedProjectId ∧
      (s.catalog automatic).1.selectedTaskId = s.selectedTaskId ∧
      (policyChanged s.automaticPolicy automatic = false →
        (s.catalog automatic).1.automaticSuppressedWindowKey = s.automaticSuppressedWindowKey) ∧
      ∀ task, (s.catalog automatic).2 = some task → task = .save s.automaticStarted := by
  unfold catalog
  split
  · next hchanged =>
    refine ⟨rfl, rfl, rfl, rfl, fun h => ?_, fun task h => (Option.some.inj h).symm⟩
    rw [hchanged] at h
    cases h
  · exact ⟨rfl, rfl, rfl, rfl, fun _ => rfl, nofun⟩

theorem respondAutomaticPolicy_spec (policyId : String) (accepted : Bool) :
    (s.respondAutomaticPolicy policyId accepted).timerState = s.timerState ∧
      (s.respondAutomaticPolicy policyId accepted).selectedProjectId = s.selectedProjectId ∧
      (s.respondAutomaticPolicy policyId accepted).selectedTaskId = s.selectedTaskId ∧
      (s.respondAutomaticPolicy policyId accepted).automaticSuppressedWindowKey =
        s.automaticSuppressedWindowKey ∧
      ((s.respondAutomaticPolicy policyId accepted).automaticStarted → s.automaticStarted) := by
  unfold respondAutomaticPolicy
  split
  · simp
  · split <;> simp

end

end Tracker

/-! ## Sections -/

section

variable {s : Tracker}

/-- What a section of a tick does: it stops the timer, or starts it, or selects work for it, or leaves it. -/
theorem TickTask.next_cases (task : TickTask) :
    (task = .leaveStop ∧ ∃ status, (task.next s).1 = { s with timerState := .stopped, status := status }) ∨
    (∃ tick, task = .enterSelect tick ∧ (task.next s).1 = s.selectWork tick.window.projectId "") ∨
    (∃ tick, task = .enterStart tick ∧ s.timerState = .stopped ∧
      (task.next s).1 = { s with timerState := .active, status := "Active" }) ∨
    (∃ tick, task = .enterStarted tick ∧
      (task.next s).1 = { s with automaticWindowKey := tick.window.key, automaticStarted := true }) ∨
    (task.acts s = false ∨ ∃ tick, task = .enterStart tick) ∧
      (task.next s).1.timerState = s.timerState ∧
      (task.next s).1.selectedProjectId = s.selectedProjectId ∧
      (task.next s).1.selectedTaskId = s.selectedTaskId ∧
      (task ≠ .leaveForget → (task.next s).1.automaticSuppressedWindowKey = s.automaticSuppressedWindowKey) ∧
      ((task.next s).1.automaticStarted → s.automaticStarted) := by
  cases task with
  | leaveStop => exact .inl ⟨rfl, s.stopTracking_automatic⟩
  | enterSelect tick => exact .inr (.inl ⟨tick, rfl, rfl⟩)
  | enterStart tick =>
    simp only [TickTask.next]
    split
    · exact .inr (.inr (.inr (.inr ⟨.inr ⟨tick, rfl⟩, rfl, rfl, rfl, fun _ => rfl, id⟩)))
    · next started hstart =>
      rcases Tracker.startTracking_ok hstart with ⟨_, rfl⟩ | ⟨hstopped, rfl⟩
      · exact .inr (.inr (.inr (.inr ⟨.inr ⟨tick, rfl⟩, rfl, rfl, rfl, fun _ => rfl, id⟩)))
      · exact .inr (.inr (.inl ⟨tick, rfl, hstopped, rfl⟩))
  | enterStarted tick => exact .inr (.inr (.inr (.inl ⟨tick, rfl, rfl⟩)))
  | leaveForget =>
    exact .inr (.inr (.inr (.inr ⟨.inl rfl, rfl, rfl, rfl, fun h => absurd rfl h, nofun⟩)))
  | leaveSave =>
    refine .inr (.inr (.inr (.inr ⟨.inl rfl, ?_⟩)))
    simp [TickTask.next]
  | _ => exact .inr (.inr (.inr (.inr ⟨.inl rfl, rfl, rfl, rfl, fun _ => rfl, id⟩)))

/-- What a section of `catalog` does: it stops the timer, or leaves it. -/
theorem CatalogTask.next_cases (task : CatalogTask) :
    (task = .stop ∧ ∃ status, (task.next s).1 = { s with timerState := .stopped, status := status }) ∨
    task ≠ .stop ∧ (task.next s).1.timerState = s.timerState ∧
      (task.next s).1.selectedProjectId = s.selectedProjectId ∧
      (task.next s).1.selectedTaskId = s.selectedTaskId ∧
      (task.next s).1.automaticSuppressedWindowKey = s.automaticSuppressedWindowKey ∧
      ((task.next s).1.automaticStarted → s.automaticStarted) := by
  cases task with
  | stop => exact .inl ⟨rfl, s.stopTracking_automatic⟩
  | save previousStarted =>
    refine .inr ⟨nofun, ?_⟩
    simp [CatalogTask.next]
  | forget => exact .inr ⟨nofun, rfl, rfl, rfl, rfl, nofun⟩
  | _ => exact .inr ⟨nofun, rfl, rfl, rfl, rfl, id⟩

end

/-! ## Operations -/

namespace TrackerProcess

section

variable {p : TrackerProcess} {op : TrackerOp}

/-- What a manual stop, a save and the other operations of one section leave of the turns. -/
theorem set_turns (p : TrackerProcess) (agent : Tracker) :
    p.turns ≤ (p.set agent).turns ∧ ((p.set agent).turns = p.turns →
      (agent.timerState = .stopped ↔ p.agent.timerState = .stopped)) := by
  unfold set
  split
  · next hsame => exact ⟨le_rfl, fun _ => hsame.symm.to_iff⟩
  · exact ⟨Nat.le_succ _, fun h => absurd h (Nat.succ_ne_self _)⟩

/-- Turns are counted, and without one a timer that is stopped stays so, and one that runs. -/
theorem perform_turns (p : TrackerProcess) (op : TrackerOp) :
    p.turns ≤ (p.perform op).turns ∧ ((p.perform op).turns = p.turns →
      ((p.perform op).agent.timerState = .stopped ↔ p.agent.timerState = .stopped)) := by
  cases op with
  | tick moment recentActivity => exact ⟨le_rfl, fun _ => Iff.rfl⟩
  | work =>
    simp only [perform]
    cases p.tick with
    | none => exact ⟨le_rfl, fun _ => Iff.rfl⟩
    | some entry => exact p.set_turns _
  | refresh reply =>
    cases reply with
    | none => exact ⟨le_rfl, fun _ => Iff.rfl⟩
    | some automatic => exact p.set_turns _
  | catalogWork n =>
    simp only [perform]
    cases p.catalogs[n]? with
    | none => exact ⟨le_rfl, fun _ => Iff.rfl⟩
    | some entry => exact p.set_turns _
  | _ => exact p.set_turns _

/-- The tick that acts has begun since the last turn. -/
theorem began_of_tick (hguard : p.undisturbed .work = true) {task : TickTask} {began : Nat}
    (htick : p.tick = some (task, began)) (hacts : task.acts p.agent = true) : began = p.turns := by
  simp only [undisturbed, htick, Option.all_some, hacts, Bool.not_true, Bool.false_or, beq_iff_eq] at hguard
  exact hguard

/-- The call of `catalog` that acts has begun since the last turn. -/
theorem began_of_catalog {n : Nat} (hguard : p.undisturbed (.catalogWork n) = true) {task : CatalogTask}
    {began : Nat} (hcatalog : p.catalogs[n]? = some (task, began)) (hacts : task.acts p.agent = true) :
    began = p.turns := by
  simp only [undisturbed, hcatalog, Option.all_some, hacts, Bool.not_true, Bool.false_or,
    beq_iff_eq] at hguard
  exact hguard

/-- **What an operation does to the agent**: it is a section of a tick or of `catalog`, a manual stop, a start, or
it neither stops nor starts the timer and marks none as started automatically. -/
theorem perform_cases (p : TrackerProcess) (op : TrackerOp) :
    (∃ task began, op = .work ∧ p.tick = some (task, began) ∧ (p.perform op).agent = (task.next p.agent).1) ∨
    (∃ n task began, op = .catalogWork n ∧ p.catalogs[n]? = some (task, began) ∧
      (p.perform op).agent = (task.next p.agent).1) ∨
    (((∃ moment, op = .stop moment) ∨ op = .workRejected) ∧
      (p.perform op).agent = (p.agent.stopTracking false).1) ∨
    (op = .start ∧ (p.perform op).agent = Tracker.attempt p.agent.startTracking p.agent) ∨
    (p.agent.timerState = .stopped → (p.perform op).agent.timerState = .stopped) ∧
      ((p.perform op).agent.automaticStarted → p.agent.automaticStarted) ∧
      (∀ key, p.interrupts op key = false → p.agent.automaticSuppressedWindowKey = key →
        (p.perform op).agent.automaticSuppressedWindowKey = key) ∧
      (op.byPolicy → (p.perform op).agent.timerState = p.agent.timerState ∧
        (p.perform op).agent.selectedProjectId = p.agent.selectedProjectId ∧
        (p.perform op).agent.selectedTaskId = p.agent.selectedTaskId) := by
  cases op with
  | tick moment recentActivity =>
    exact .inr (.inr (.inr (.inr ⟨id, id, fun _ _ h => h, fun _ => ⟨rfl, rfl, rfl⟩⟩)))
  | work =>
    cases htick : p.tick with
    | none =>
      have hsame : p.perform .work = p := by
        simp only [perform, htick, Option.elim_none]
      rw [hsame]
      exact .inr (.inr (.inr (.inr ⟨id, id, fun _ _ h => h, fun _ => ⟨rfl, rfl, rfl⟩⟩)))
    | some entry =>
      refine .inl ⟨entry.1, entry.2, rfl, rfl, ?_⟩
      simp only [perform, htick, Option.elim_some, workTick, set]
  | refresh reply =>
    refine .inr (.inr (.inr (.inr ?_)))
    cases reply with
    | none => exact ⟨id, id, fun _ _ h => h, fun _ => ⟨rfl, rfl, rfl⟩⟩
    | some automatic =>
      obtain ⟨htimer, hstarted, hproject, htask, hsuppressed, _⟩ := p.agent.catalog_spec automatic
      exact ⟨htimer.trans, fun h => hstarted ▸ h, fun key hkept h => (hsuppressed hkept).trans h,
        fun _ => ⟨htimer, hproject, htask⟩⟩
  | catalogWork n =>
    cases hn : p.catalogs[n]? with
    | none =>
      have hsame : p.perform (.catalogWork n) = p := by
        simp only [perform, hn, Option.elim_none]
      rw [hsame]
      exact .inr (.inr (.inr (.inr ⟨id, id, fun _ _ h => h, fun _ => ⟨rfl, rfl, rfl⟩⟩)))
    | some entry =>
      refine .inr (.inl ⟨n, entry.1, entry.2, rfl, hn, ?_⟩)
      simp only [perform, hn, Option.elim_some, workCatalog, set]
  | save n =>
    refine .inr (.inr (.inr (.inr ?_)))
    have hagent : (p.perform (.save n)).agent = p.saves[n]?.elim p.agent p.agent.saveSuppression := rfl
    rw [hagent]
    cases p.saves[n]? with
    | none => exact ⟨id, id, fun _ _ h => h, nofun⟩
    | some key =>
      simp only [Option.elim_some, Tracker.saveSuppression_timerState, Tracker.saveSuppression_automaticStarted,
        Tracker.saveSuppression_suppressed]
      exact ⟨id, id, fun _ _ h => h, nofun⟩
  | start => exact .inr (.inr (.inr (.inl ⟨rfl, rfl⟩)))
  | pause =>
    obtain ⟨timerState, status, heq, hiff⟩ := p.agent.attempt_running (.inl rfl)
    have hagent : (p.perform .pause).agent = _ := heq
    rw [hagent]
    exact .inr (.inr (.inr (.inr ⟨hiff.mpr, id, fun _ _ h => h, nofun⟩)))
  | resume =>
    obtain ⟨timerState, status, heq, hiff⟩ := p.agent.attempt_running (.inr rfl)
    have hagent : (p.perform .resume).agent = _ := heq
    rw [hagent]
    exact .inr (.inr (.inr (.inr ⟨hiff.mpr, id, fun _ _ h => h, nofun⟩)))
  | stop moment => exact .inr (.inr (.inl ⟨.inl ⟨moment, rfl⟩, rfl⟩))
  | selectWork projectId taskId => exact .inr (.inr (.inr (.inr ⟨id, id, fun _ _ h => h, nofun⟩)))
  | workRejected => exact .inr (.inr (.inl ⟨.inr rfl, rfl⟩))
  | respond policyId accepted =>
    obtain ⟨htimer, hproject, htask, hsuppressed, hstarted⟩ :=
      p.agent.respondAutomaticPolicy_spec policyId accepted
    exact .inr (.inr (.inr (.inr ⟨htimer.trans, hstarted, fun key _ h => hsuppressed.trans h,
      fun _ => ⟨htimer, hproject, htask⟩⟩)))
  | restart projectId taskId reply =>
    refine .inr (.inr (.inr (.inr ?_)))
    have hagent : (p.perform (.restart projectId taskId reply)).agent = p.agent.restart projectId taskId reply :=
      rfl
    rw [hagent]
    unfold Tracker.restart
    split
    · refine ⟨fun _ => rfl, nofun, fun key hkept _ => ?_, nofun⟩
      simpa [interrupts] using hkept
    · exact ⟨id, id, fun _ _ h => h, nofun⟩
  | journal works => exact .inr (.inr (.inr (.inr ⟨id, id, fun _ _ h => h, nofun⟩)))

/-- **What starts a stopped timer**: the employee, or a tick. -/
theorem perform_starts (hstopped : p.agent.timerState = .stopped)
    (hstarts : (p.perform op).agent.timerState ≠ .stopped) :
    op = .start ∨ op = .work ∧ ∃ tick began, p.tick = some (.enterStart tick, began) := by
  rcases p.perform_cases op with ⟨task, began, rfl, htick, hagent⟩ | ⟨_, task, _, _, _, hagent⟩ |
    ⟨_, hagent⟩ | ⟨hop, _⟩ | ⟨hstays, _⟩
  · rw [hagent] at hstarts
    rcases task.next_cases (s := p.agent) with ⟨_, _, heq⟩ | ⟨_, _, heq⟩ | ⟨tick, rfl, _⟩ | ⟨_, _, heq⟩ |
      ⟨_, htimer, _⟩
    · rw [heq] at hstarts
      exact absurd rfl hstarts
    · rw [heq] at hstarts
      exact absurd hstopped hstarts
    · exact .inr ⟨rfl, tick, began, htick⟩
    · rw [heq] at hstarts
      exact absurd hstopped hstarts
    · exact absurd (htimer.trans hstopped) hstarts
  · rw [hagent] at hstarts
    rcases task.next_cases (s := p.agent) with ⟨_, _, heq⟩ | ⟨_, htimer, _⟩
    · rw [heq] at hstarts
      exact absurd rfl hstarts
    · exact absurd (htimer.trans hstopped) hstarts
  · rw [hagent] at hstarts
    exact absurd (p.agent.stopTracking_timerState false) hstarts
  · exact .inl hop
  · exact absurd (hstays hstopped) hstarts

/-- **What notes a start of the policy**: the section of a tick after it. -/
theorem perform_notes (hnot : p.agent.automaticStarted = false)
    (hnotes : (p.perform op).agent.automaticStarted) :
    op = .work ∧ ∃ tick began, p.tick = some (.enterStarted tick, began) := by
  have hnot' : ¬ p.agent.automaticStarted = true := by simp [hnot]
  rcases p.perform_cases op with ⟨task, began, rfl, htick, hagent⟩ | ⟨_, task, _, _, _, hagent⟩ |
    ⟨_, hagent⟩ | ⟨_, hagent⟩ | ⟨_, hstarted, _⟩
  · rw [hagent] at hnotes
    rcases task.next_cases (s := p.agent) with ⟨_, _, heq⟩ | ⟨_, _, heq⟩ | ⟨_, _, _, heq⟩ | ⟨tick, rfl, _⟩ |
      ⟨_, _, _, _, _, hstarted⟩
    · rw [heq] at hnotes
      exact absurd hnotes hnot'
    · rw [heq] at hnotes
      exact absurd hnotes hnot'
    · rw [heq] at hnotes
      exact absurd hnotes hnot'
    · exact ⟨rfl, tick, began, htick⟩
    · exact absurd (hstarted hnotes) hnot'
  · rw [hagent] at hnotes
    rcases task.next_cases (s := p.agent) with ⟨_, _, heq⟩ | ⟨_, _, _, _, _, hstarted⟩
    · rw [heq] at hnotes
      exact absurd hnotes hnot'
    · exact absurd (hstarted hnotes) hnot'
  · rw [hagent] at hnotes
    exact absurd (p.agent.stopTracking_automaticStarted false hnotes) hnot'
  · rw [hagent] at hnotes
    rcases p.agent.attempt_start with heq | ⟨_, heq⟩ <;> rw [heq] at hnotes <;> exact absurd hnotes hnot'
  · exact absurd (hstarted hnotes) hnot'

/-- **The suppression stands** where the operation does not interrupt it. -/
theorem perform_suppressed {key : String} (h : p.agent.automaticSuppressedWindowKey = key)
    (hkept : p.interrupts op key = false) : (p.perform op).agent.automaticSuppressedWindowKey = key := by
  rcases p.perform_cases op with ⟨task, began, rfl, htick, hagent⟩ | ⟨_, task, _, _, _, hagent⟩ |
    ⟨hop, hagent⟩ | ⟨_, hagent⟩ | ⟨_, _, hsuppressed, _⟩
  · have hstays : task ≠ .leaveForget := by
      unfold interrupts at hkept
      rw [htick] at hkept
      simpa using hkept
    rw [hagent]
    rcases task.next_cases (s := p.agent) with ⟨_, _, heq⟩ | ⟨_, _, heq⟩ | ⟨_, _, _, heq⟩ | ⟨_, _, heq⟩ |
      ⟨_, _, _, _, hsuppressed, _⟩
    · rw [heq]
      exact h
    · rw [heq]
      exact h
    · rw [heq]
      exact h
    · rw [heq]
      exact h
    · exact (hsuppressed hstays).trans h
  · rw [hagent]
    rcases task.next_cases (s := p.agent) with ⟨_, _, heq⟩ | ⟨_, _, _, _, hsuppressed, _⟩
    · rw [heq]
      exact h
    · exact hsuppressed.trans h
  · rw [hagent]
    rcases hop with ⟨moment, rfl⟩ | rfl <;> exact Tracker.stopTracking_keeps h hkept
  · rw [hagent]
    rcases p.agent.attempt_start with heq | ⟨_, heq⟩ <;> rw [heq] <;> exact h
  · exact hsuppressed key hkept h

/-- **A timer that the policy does not act on is left alone** by its operations. -/
theorem perform_byPolicy (hop : op.byPolicy)
    (htick : op = .work → ∀ task began, p.tick = some (task, began) → task.acts p.agent = false)
    (hcatalog : ∀ n, op = .catalogWork n → ∀ task began, p.catalogs[n]? = some (task, began) →
      task.acts p.agent = false) (hrunning : p.agent.timerState ≠ .stopped) :
    (p.perform op).agent.timerState = p.agent.timerState ∧
      (p.perform op).agent.selectedProjectId = p.agent.selectedProjectId ∧
      (p.perform op).agent.selectedTaskId = p.agent.selectedTaskId := by
  have hruns : (p.agent.timerState != .stopped) = true := bne_iff_ne.mpr hrunning
  rcases p.perform_cases op with ⟨task, began, rfl, hentry, hagent⟩ | ⟨n, task, began, rfl, hentry, hagent⟩ |
    ⟨⟨_, rfl⟩ | rfl, _⟩ | ⟨rfl, _⟩ | ⟨_, _, _, hsame⟩
  · have hleaves := htick rfl task began hentry
    rw [hagent]
    rcases task.next_cases (s := p.agent) with ⟨rfl, _⟩ | ⟨_, rfl, _⟩ | ⟨_, rfl, _⟩ | ⟨_, rfl, _⟩ |
      ⟨_, htimer, hproject, htask, _⟩
    · rw [show TickTask.leaveStop.acts p.agent = true from hruns] at hleaves
      cases hleaves
    · cases hleaves
    · cases hleaves
    · cases hleaves
    · exact ⟨htimer, hproject, htask⟩
  · have hleaves := hcatalog n rfl task began hentry
    rw [hagent]
    rcases task.next_cases (s := p.agent) with ⟨rfl, _⟩ | ⟨_, htimer, hproject, htask, _⟩
    · rw [show CatalogTask.stop.acts p.agent = true from hruns] at hleaves
      cases hleaves
    · exact ⟨htimer, hproject, htask⟩
  · cases hop
  · cases hop
  · cases hop
  · exact hsame hop

end

end TrackerProcess

/-! ## Runs -/

/-- What a tick in progress has read, as long as the timer has not turned. -/
def TrackerRun.TickExpects (r : TrackerRun) : TickTask → Prop
  | .leaveCheck | .leaveStop => r.agent.timerState ≠ .stopped → r.startedBy = some .policy
  | .enterCheck tick => tick.window.key ∉ r.stoppedWindows
  | .enterSelect tick | .enterStart tick =>
    r.agent.timerState = .stopped ∧ tick.window.key ∉ r.stoppedWindows
  | .enterStarted _ => r.agent.timerState ≠ .stopped ∧ r.startedBy = some .policy
  | _ => True

/-- What a call of `catalog` in progress has read, as long as the timer has not turned. -/
def TrackerRun.CatalogExpects (r : TrackerRun) : CatalogTask → Prop
  | .save true | .check | .stop => r.agent.timerState ≠ .stopped → r.startedBy = some .policy
  | _ => True

/-- What holds after every run: a window whose suppression stands is the suppressed one, a timer that runs and is
marked as started automatically was started by the policy, a stopped timer was started by no one, and the calls
in progress have read what they expect. -/
structure TrackerInvariant (r : TrackerRun) : Prop where
  kept : ∀ key ∈ r.keptWindows, r.agent.automaticSuppressedWindowKey = key
  own : r.agent.automaticStarted → r.agent.timerState ≠ .stopped → r.startedBy = some .policy
  idle : r.agent.timerState = .stopped → r.startedBy = none
  tick : ∀ task began, r.tick = some (task, began) →
    began ≤ r.turns ∧ (began = r.turns → r.TickExpects task)
  catalogs : ∀ task began, (task, began) ∈ r.catalogs →
    began ≤ r.turns ∧ (began = r.turns → r.CatalogExpects task)

namespace TrackerInvariant

variable {r : TrackerRun} {op : TrackerOp}

/-- The suppressions that stand after an operation. -/
theorem keeps (h : TrackerInvariant r) :
    ∀ key ∈ r.keeps op, (r.perform op).agent.automaticSuppressedWindowKey = key := by
  intro key hkey
  rcases List.mem_append.mp hkey with hold | hnew
  · obtain ⟨hmem, hkept⟩ := List.mem_filter.mp hold
    exact TrackerProcess.perform_suppressed (h.kept key hmem) (by simpa using hkept)
  · -- a manual stop in the window that the last tick has handled
    obtain ⟨hstop, hhandled⟩ := List.mem_filter.mp hnew
    rw [Option.mem_toList] at hstop
    rw [beq_iff_eq] at hhandled
    cases op with
    | stop moment =>
      unfold TrackerProcess.stopsIn at hstop
      dsimp only at hstop
      split at hstop
      · simp at hstop
      · next hrunning =>
        obtain ⟨window, hwindow, rfl⟩ := Option.map_eq_some_iff.mp hstop
        show (r.agent.stopTracking false).1.automaticSuppressedWindowKey = window.key
        rw [Tracker.stopTracking_suppressed _ hrunning, hhandled,
          if_neg (activeWindow_key_ne hwindow)]
    | _ => simp [TrackerProcess.stopsIn] at hstop

/-- A manual stop turns the timer. -/
theorem stopsIn_of_turns (hturns : (r.perform op).turns = r.turns) : r.stopsIn op = none := by
  cases op with
  | stop moment =>
    have hstopped : r.agent.timerState = .stopped :=
      ((r.perform_turns (.stop moment)).2 hturns).mp (r.agent.stopTracking_timerState false)
    exact if_pos hstopped
  | _ => rfl

/-- A timer that has not turned was started by whom it was. -/
theorem starter_of_turns (h : TrackerInvariant r) (hturns : (r.perform op).turns = r.turns) :
    r.starter op = r.startedBy := by
  have hiff := (r.perform_turns op).2 hturns
  unfold TrackerRun.starter
  by_cases hstopped : r.agent.timerState = .stopped
  · rw [if_pos (hiff.mpr hstopped), h.idle hstopped]
  · rw [if_neg (mt hiff.mp hstopped), if_neg hstopped]

/-- What a call in progress expects survives an operation that does not turn the timer. -/
theorem expects_of_turns (h : TrackerInvariant r) (htakes : r.takes op = true)
    (hturns : (r.perform op).turns = r.turns) :
    (∀ task, r.TickExpects task → (r.step op).TickExpects task) ∧
      ∀ task, r.CatalogExpects task → (r.step op).CatalogExpects task := by
  have hiff := (r.perform_turns op).2 hturns
  have hstarter := h.starter_of_turns hturns
  have hwindows : r.stoppedWindows ++ (r.stopsIn op).toList = r.stoppedWindows := by
    rw [stopsIn_of_turns hturns, Option.toList_none, List.append_nil]
  unfold TrackerRun.step
  rw [if_pos htakes, hstarter, hwindows]
  constructor
  · intro task
    cases task <;> simp only [TrackerRun.TickExpects, hiff, ne_eq, imp_self]
  · intro task
    rcases task with (_ | _) | _ <;> simp only [TrackerRun.CatalogExpects, hiff, ne_eq, imp_self]

theorem step_turns (htakes : r.takes op = true) : (r.step op).turns = (r.perform op).turns := by
  unfold TrackerRun.step
  rw [if_pos htakes]

/-- What holds of a number of turns at which a call began, and of what it expects unless the timer has turned. -/
theorem waits (htakes : r.takes op = true) {began : Nat} {P P' : Prop}
    (hbegan : began ≤ r.turns ∧ (began = r.turns → P)) (hkeeps : (r.perform op).turns = r.turns → P → P') :
    began ≤ (r.step op).turns ∧ (began = (r.step op).turns → P') := by
  have hturns := (r.perform_turns op).1
  rw [step_turns htakes]
  refine ⟨hbegan.1.trans hturns, fun heq => ?_⟩
  exact hkeeps (by omega) (hbegan.2 (by omega))

/-- A tick that begins expects what it has read. -/
theorem tick_begins (h : TrackerInvariant r) {moment : Datetime} {recentActivity : Bool}
    (hguard : r.suppressionStands (.tick moment recentActivity) = true) {task : TickTask}
    (htask : r.agent.applyAutomaticTracking moment recentActivity = some task) : r.TickExpects task := by
  unfold Tracker.applyAutomaticTracking at htask
  split at htask
  · obtain rfl := Option.some.inj htask
    by_cases hstarted : r.agent.automaticStarted = true
    · rw [if_pos hstarted]
      exact h.own hstarted
    · rw [if_neg hstarted]
      trivial
  · next window hwindow =>
    split at htask
    · obtain rfl := Option.some.inj htask
      trivial
    · next hother =>
      split at htask
      · cases htask
      · obtain rfl := Option.some.inj htask
        show window.key ∉ r.stoppedWindows
        intro hmem
        refine hother (h.kept window.key ?_)
        simpa [TrackerRun.suppressionStands, hwindow, hmem] using hguard

/-- But for the start, the next section of a tick expects what the sections before it have read. -/
theorem tick_reads {task : TickTask} (hother : ∀ tick, task ≠ .enterStart tick) (hread : r.TickExpects task)
    {next : TickTask} (hsection : (task.next r.agent).2 = some next) : r.TickExpects next := by
  cases task with
  | leaveCheck =>
    obtain rfl := Option.some.inj hsection
    split
    · exact hread
    · trivial
  | enterCheck tick =>
    obtain rfl := Option.some.inj hsection
    split
    · trivial
    · next hstopped =>
      split
      · trivial
      · exact ⟨not_not.mp hstopped, hread⟩
  | leaveForget =>
    unfold TickTask.next at hsection
    dsimp only at hsection
    split at hsection
    · cases hsection
    · obtain rfl := Option.some.inj hsection
      trivial
  | enterSelect tick =>
    obtain rfl := Option.some.inj hsection
    exact hread
  | enterStart tick => exact absurd rfl (hother tick)
  | leaveStop | leaveStatus | enterStarted _ =>
    obtain rfl := Option.some.inj hsection
    trivial
  | _ => cases hsection

/-- The next section of a tick expects what the sections before it have read or done. -/
theorem tick_works (h : TrackerInvariant r) (htakes : r.takes .work = true)
    (hguard : r.undisturbed .work = true) {task : TickTask} {began : Nat} (htick : r.tick = some (task, began))
    {next : TickTask} {began' : Nat} (hnext : (r.perform .work).tick = some (next, began')) :
    began' ≤ (r.step .work).turns ∧ (began' = (r.step .work).turns → (r.step .work).TickExpects next) := by
  have hperform : r.perform .work = r.workTick task began := by
    simp only [TrackerProcess.perform]
    rw [htick]
    rfl
  obtain ⟨hbegan, hexpects⟩ := h.tick task began htick
  rw [hperform] at hnext
  obtain ⟨_, hsection, hpair⟩ := Option.map_eq_some_iff.mp hnext
  obtain ⟨rfl, hbegan'⟩ := Prod.mk.inj hpair
  by_cases hstart : ∃ tick, task = .enterStart tick
  · -- the section that starts the timer, which was stopped as the tick has read
    obtain ⟨tick, rfl⟩ := hstart
    obtain ⟨hstopped, _⟩ := hexpects (TrackerProcess.began_of_tick hguard htick rfl)
    unfold TickTask.next at hsection
    dsimp only at hsection
    split at hsection
    · cases hsection
    · next started hok =>
      obtain rfl := Option.some.inj hsection
      have hagent : (r.perform .work).agent = started := by
        rw [hperform]
        show (TickTask.next r.agent (.enterStart tick)).1 = started
        unfold TickTask.next
        dsimp only
        rw [hok]
      have hrunning : (r.perform .work).agent.timerState ≠ .stopped := by
        rw [hagent]
        rcases Tracker.startTracking_ok hok with ⟨hrunning, _⟩ | ⟨_, rfl⟩
        · exact absurd hstopped hrunning
        · simp
      have hturns : (r.step .work).turns = began' := by
        rw [step_turns htakes, hperform]
        exact hbegan'
      refine ⟨hturns.symm.le, fun _ => ?_⟩
      unfold TrackerRun.step
      rw [if_pos htakes]
      refine ⟨hrunning, ?_⟩
      show r.starter .work = _
      unfold TrackerRun.starter
      rw [if_neg hrunning, if_pos hstopped]
      rfl
  · -- what the next section expects is about the timer as it was read
    have hsame : began' = began := by
      rw [← hbegan']
      cases task with
      | enterStart tick => exact absurd ⟨tick, rfl⟩ hstart
      | _ => rfl
    rw [hsame]
    exact waits htakes ⟨hbegan, hexpects⟩ fun hturns hread =>
      (h.expects_of_turns htakes hturns).1 _ (tick_reads (fun tick ht => hstart ⟨tick, ht⟩) hread hsection)

/-- The next section of a call of `catalog` expects what the sections before it have read. -/
theorem catalog_works {task : CatalogTask} (hread : r.CatalogExpects task) {next : CatalogTask}
    (hsection : (task.next r.agent).2 = some next) : r.CatalogExpects next := by
  cases task with
  | save previousStarted =>
    cases previousStarted with
    | false => cases hsection
    | true =>
      obtain rfl := Option.some.inj hsection
      exact hread
  | check =>
    unfold CatalogTask.next at hsection
    dsimp only at hsection
    split at hsection
    · obtain rfl := Option.some.inj hsection
      exact hread
    · cases hsection
  | status => cases hsection
  | _ =>
    obtain rfl := Option.some.inj hsection
    trivial

/-- The calls in progress after an operation expect what they have read. -/
theorem ticks (h : TrackerInvariant r) (htakes : r.takes op = true) (hguard : r.inOrder op = true)
    {task : TickTask} {began : Nat} (htick : (r.perform op).tick = some (task, began)) :
    began ≤ (r.step op).turns ∧ (began = (r.step op).turns → (r.step op).TickExpects task) := by
  obtain ⟨hstands, hundisturbed⟩ := Bool.and_eq_true_iff.mp hguard
  have hstays : r.tick = some (task, began) →
      began ≤ (r.step op).turns ∧ (began = (r.step op).turns → (r.step op).TickExpects task) :=
    fun hold => waits htakes (h.tick task began hold) fun hturns =>
      (h.expects_of_turns htakes hturns).1 task
  cases op with
  | tick moment recentActivity =>
    obtain ⟨_, hbegins, hpair⟩ := Option.map_eq_some_iff.mp htick
    obtain ⟨rfl, rfl⟩ := Prod.mk.inj hpair
    exact waits htakes ⟨le_rfl, fun _ => h.tick_begins hstands hbegins⟩ fun hturns =>
      (h.expects_of_turns htakes hturns).1 _
  | work =>
    cases hold : r.tick with
    | none =>
      have hnone : (r.perform .work).tick = none := by
        simp only [TrackerProcess.perform]
        rw [hold]
        exact hold
      rw [hnone] at htick
      cases htick
    | some entry => exact h.tick_works htakes hundisturbed hold htick
  | workRejected =>
    obtain ⟨rfl, rfl⟩ := Prod.mk.inj (Option.some.inj htick)
    refine ⟨?_, fun _ => trivial⟩
    rw [step_turns htakes]
    exact (r.perform_turns .workRejected).1
  | restart projectId taskId reply => cases htick
  | refresh reply =>
    cases reply with
    | none => exact hstays htick
    | some automatic => exact hstays htick
  | catalogWork n =>
    refine hstays ?_
    simp only [TrackerProcess.perform] at htick
    cases hn : r.catalogs[n]? with
    | none =>
      rw [hn] at htick
      exact htick
    | some entry =>
      rw [hn] at htick
      exact htick
  | _ => exact hstays htick

theorem catalogs_step (h : TrackerInvariant r) (htakes : r.takes op = true) {task : CatalogTask} {began : Nat}
    (hcatalog : (task, began) ∈ (r.perform op).catalogs) :
    began ≤ (r.step op).turns ∧ (began = (r.step op).turns → (r.step op).CatalogExpects task) := by
  have hstays : (task, began) ∈ r.catalogs →
      began ≤ (r.step op).turns ∧ (began = (r.step op).turns → (r.step op).CatalogExpects task) :=
    fun hold => waits htakes (h.catalogs task began hold) fun hturns =>
      (h.expects_of_turns htakes hturns).2 task
  cases op with
  | work =>
    refine hstays ?_
    simp only [TrackerProcess.perform] at hcatalog
    cases hn : r.tick with
    | none =>
      rw [hn] at hcatalog
      exact hcatalog
    | some entry =>
      rw [hn] at hcatalog
      exact hcatalog
  | refresh reply =>
    cases reply with
    | none => exact hstays hcatalog
    | some automatic =>
      rcases List.mem_append.mp hcatalog with hold | hnew
      · exact hstays hold
      · rw [Option.mem_toList] at hnew
        obtain ⟨_, hsection, hpair⟩ := Option.map_eq_some_iff.mp hnew
        obtain ⟨rfl, rfl⟩ := Prod.mk.inj hpair
        refine waits htakes ⟨le_rfl, fun _ => ?_⟩ fun hturns => (h.expects_of_turns htakes hturns).2 _
        obtain rfl := (r.agent.catalog_spec automatic).2.2.2.2.2 _ hsection
        cases hstarted : r.agent.automaticStarted with
        | false => trivial
        | true => exact h.own hstarted
  | catalogWork n =>
    simp only [TrackerProcess.perform] at hcatalog
    cases hn : r.catalogs[n]? with
    | none =>
      rw [hn] at hcatalog
      exact hstays hcatalog
    | some entry =>
      obtain ⟨old, began'⟩ := entry
      rw [hn] at hcatalog
      rcases List.mem_append.mp hcatalog with hold | hnew
      · exact hstays (List.mem_of_mem_eraseIdx hold)
      · rw [Option.mem_toList] at hnew
        obtain ⟨_, hsection, hpair⟩ := Option.map_eq_some_iff.mp hnew
        obtain ⟨rfl, rfl⟩ := Prod.mk.inj hpair
        exact waits htakes (h.catalogs old _ (List.mem_of_getElem? hn)) fun hturns hread =>
          (h.expects_of_turns htakes hturns).2 _ (catalog_works hread hsection)
  | restart projectId taskId reply => cases hcatalog
  | _ => exact hstays hcatalog

/-- A timer that runs and is marked as started automatically was started by the policy. -/
theorem owns (h : TrackerInvariant r) (hguard : r.undisturbed op = true)
    (hstarted : (r.perform op).agent.automaticStarted)
    (hrunning : (r.perform op).agent.timerState ≠ .stopped) : r.starter op = some .policy := by
  unfold TrackerRun.starter
  rw [if_neg hrunning]
  by_cases hbefore : r.agent.automaticStarted = true
  · by_cases hstopped : r.agent.timerState = .stopped
    · rw [if_pos hstopped]
      rcases TrackerProcess.perform_starts hstopped hrunning with rfl | ⟨rfl, _⟩
      · simp [TrackerProcess.undisturbed, hbefore, hstopped] at hguard
      · rfl
    · rw [if_neg hstopped]
      exact h.own hbefore hstopped
  · obtain ⟨rfl, tick, began, htick⟩ := TrackerProcess.perform_notes (by simpa using hbefore) hstarted
    obtain ⟨hrunning, hpolicy⟩ := (h.tick _ _ htick).2 (TrackerProcess.began_of_tick hguard htick rfl)
    rw [if_neg hrunning]
    exact hpolicy

/-- **One operation keeps the invariant.** -/
theorem step (h : TrackerInvariant r) (hguard : r.inOrder op = true) : TrackerInvariant (r.step op) := by
  by_cases htakes : r.takes op = true
  · have hstep : r.step op = _ := if_pos htakes
    have hundisturbed := (Bool.and_eq_true_iff.mp hguard).2
    constructor
    · rw [hstep]
      exact h.keeps
    · rw [hstep]
      exact h.owns hundisturbed
    · rw [hstep]
      exact fun hstopped => if_pos hstopped
    · intro task began htick
      rw [hstep] at htick
      exact h.ticks htakes hguard htick
    · intro task began hcatalog
      rw [hstep] at hcatalog
      exact h.catalogs_step htakes hcatalog
  · have hstep : r.step op = r := if_neg htakes
    rw [hstep]
    exact h

/-- The policy starts the timer in a window in which the employee has not stopped it. -/
theorem noStart (h : TrackerInvariant r) (hguard : r.inOrder op = true) (hop : op.byPolicy)
    (hstopped : r.agent.timerState = .stopped) (hstarts : (r.step op).agent.timerState ≠ .stopped) :
    ∃ tick began, op = .work ∧ r.tick = some (.enterStart tick, began) ∧
      tick.window.key ∉ r.stoppedWindows := by
  have hperformed : (r.perform op).agent.timerState ≠ .stopped := by
    intro hstays
    refine hstarts ?_
    unfold TrackerRun.step
    split
    · exact hstays
    · exact hstopped
  rcases TrackerProcess.perform_starts hstopped hperformed with rfl | ⟨rfl, tick, began, htick⟩
  · cases hop
  · have hbegan := TrackerProcess.began_of_tick (Bool.and_eq_true_iff.mp hguard).2 htick rfl
    exact ⟨tick, began, rfl, htick, ((h.tick _ _ htick).2 hbegan).2⟩

/-- A section that acts on the timer acts on one that the policy has started, or that is stopped. -/
theorem acts_of_employee (h : TrackerInvariant r) (hguard : r.undisturbed op = true)
    (hstarter : r.startedBy = some .employee) :
    (op = .work → ∀ task began, r.tick = some (task, began) → task.acts r.agent = false) ∧
      ∀ n, op = .catalogWork n → ∀ task began, r.catalogs[n]? = some (task, began) →
        task.acts r.agent = false := by
  have hrunning : r.agent.timerState ≠ .stopped := by
    intro hstopped
    rw [h.idle hstopped] at hstarter
    cases hstarter
  have hnot : r.startedBy ≠ some .policy := by simp [hstarter]
  constructor
  · rintro rfl task began htick
    rw [← Bool.not_eq_true]
    intro hacts
    have hread := (h.tick task began htick).2 (TrackerProcess.began_of_tick hguard htick hacts)
    cases task with
    | leaveStop => exact hnot (hread hrunning)
    | enterSelect tick => exact hrunning hread.1
    | enterStart tick => exact hrunning hread.1
    | enterStarted tick => exact hnot hread.2
    | _ => cases hacts
  · rintro n rfl task began hcatalog
    rw [← Bool.not_eq_true]
    intro hacts
    have hread := (h.catalogs task began (List.mem_of_getElem? hcatalog)).2
      (TrackerProcess.began_of_catalog hguard hcatalog hacts)
    cases task with
    | stop => exact hnot (hread hrunning)
    | _ => cases hacts

/-- An operation of the policy leaves the employee's timer alone. -/
theorem employeeTimer (h : TrackerInvariant r) (hguard : r.inOrder op = true) (hop : op.byPolicy)
    (hstarter : r.startedBy = some .employee) :
    (r.step op).startedBy = some .employee ∧ (r.step op).agent.automaticStarted = false ∧
      (r.step op).agent.timerState = r.agent.timerState ∧
      (r.step op).agent.selectedProjectId = r.agent.selectedProjectId ∧
      (r.step op).agent.selectedTaskId = r.agent.selectedTaskId := by
  have hrunning : r.agent.timerState ≠ .stopped := by
    intro hstopped
    rw [h.idle hstopped] at hstarter
    cases hstarter
  have hundisturbed := (Bool.and_eq_true_iff.mp hguard).2
  obtain ⟨htick, hcatalog⟩ := h.acts_of_employee hundisturbed hstarter
  obtain ⟨htimer, hproject, htask⟩ := TrackerProcess.perform_byPolicy hop htick hcatalog hrunning
  have hsame : r.starter op = some .employee := by
    unfold TrackerRun.starter
    rw [htimer, if_neg hrunning, if_neg hrunning]
    exact hstarter
  by_cases htakes : r.takes op = true
  · have hstep : r.step op = _ := if_pos htakes
    rw [hstep]
    refine ⟨hsame, ?_, htimer, hproject, htask⟩
    rw [← Bool.not_eq_true]
    intro hstarted
    have hpolicy := h.owns hundisturbed hstarted (htimer ▸ hrunning)
    rw [hsame] at hpolicy
    cases hpolicy
  · have hstep : r.step op = r := if_neg htakes
    rw [hstep]
    refine ⟨hstarter, ?_, rfl, rfl, rfl⟩
    rw [← Bool.not_eq_true]
    intro hstarted
    have hpolicy := h.own hstarted hrunning
    rw [hstarter] at hpolicy
    cases hpolicy

end TrackerInvariant

theorem trackerInvariant_empty : TrackerInvariant {} where
  kept key hkey := by cases hkey
  own hstarted := by cases hstarted
  idle _ := rfl
  tick task began htick := by cases htick
  catalogs task began hcatalog := by cases hcatalog

/-- **A manual stop suppresses its window, and the employee's timer is left alone.** In every run in which each
tick finds no stopped window, or one whose suppression nothing has interrupted since, and in which the policy acts
on the timer as it has read it, no tick starts the timer in a window in which the employee has stopped it, and the
policy neither stops, moves nor takes over a timer that the employee started. -/
theorem manual_stop_suppresses (ops : List TrackerOp) (op : TrackerOp)
    (hguard : Guarded TrackerRun.step (fun r op => r.inOrder op = true) {} (ops ++ [op])) :
    TrackerSound (run TrackerRun.step {} ops) op := by
  obtain ⟨hops, hlast, _⟩ := Library.guarded_append.mp hguard
  have h : TrackerInvariant (run TrackerRun.step {} ops) :=
    guarded_invariant TrackerInvariant (fun _ _ h hguard => h.step hguard) trackerInvariant_empty hops
  exact ⟨h.noStart hlast, h.employeeTimer hlast⟩

/-- Mondays from nine to five. -/
def officeHours : AutomaticPolicy where
  id := "policy-1"
  name := "Office hours"
  ruleType := .fixedSchedule
  projectId := "project-1"
  waitForActivity := false
  schedule := some [("mon", [⟨some "09:00", some "17:00"⟩])]
  consentStatus := .accepted
  shiftWindows := some []

/-- A minute of Monday 1970-01-05, in UTC. -/
def monday (minute : Nat) : Datetime := ⟨startOfDay 4 + minutes minute, some 0⟩

/-- The policy starts the timer at ten, and the employee stops it. -/
def stoppedAtTen : List TrackerOp :=
  [.restart "" "" (some (some officeHours)), .tick (monday 600) true, .work, .work, .work, .work, .work,
   .stop (monday 601), .save 0]

/-- The agent is restarted while it is online. -/
theorem manual_stop_suppresses_restarted :
    TrackerSound (run TrackerRun.step {}
      (stoppedAtTen ++ [.restart "" "" (some (some officeHours)), .tick (monday 605) true])) .work :=
  manual_stop_suppresses _ _ (by decide +kernel)

/-- A start of the employee between the look of a tick at the timer and its own start is taken over: the policy
moves the timer to its project, and stops it at five. -/
example : (run TrackerRun.step {}
    [.restart "project-2" "" (some (some officeHours)), .tick (monday 600) true, .work, .start, .work, .work, .work,
     .work, .tick (monday 1020) true, .work, .work]).agent.timerState = .stopped := by decide +kernel

/-! ## A restart without a network -/

/-- The agent is restarted while it is offline: its first tick has no policy. When the policy is back, the next
tick finds the window again. -/
def restartedOffline : List TrackerOp :=
  stoppedAtTen ++ [.restart "" "" none, .tick (monday 602) true, .work, .work,
    .refresh (some (some officeHours)), .tick (monday 607) true, .work, .work]

/-- The timer starts in the window in which it was stopped. -/
theorem manual_stop_forgotten :
    ¬ ∀ (ops : List TrackerOp) (op : TrackerOp), TrackerSound (run TrackerRun.step {} ops) op := by
  intro h
  obtain ⟨tick, began, _, htick, hmem⟩ :=
    (h restartedOffline .work).noStart rfl (by decide +kernel) (by decide +kernel)
  have hkey : (run TrackerRun.step {} restartedOffline).tick.any (fun entry => match entry.1 with
      | .enterStart tick | .enterStarted tick =>
        (run TrackerRun.step {} restartedOffline).stoppedWindows.contains tick.window.key
      | _ => false) = true := by decide +kernel
  rw [htick] at hkey
  exact hmem (List.contains_iff_mem.mp hkey)

end Dayfinch
