/-
# Dayfinch.Work.Breaks -- a running break belongs to a paused session

`start_break` and `stop_break` are transactions of their own, beside the heartbeats that pause, resume
and stop the session of the break. Every bulk closer ends the breaks of the sessions it stops. A
heartbeat ends none, so it keeps breaks and sessions together only where it finds no break to end:
`breaksKept` is that condition, and `startBreak` has one of its own, that the session is paused.
-/
import Dayfinch.Work.SessionMoves

namespace Dayfinch

open Library (run Guarded guarded_invariant mem_updateWhere_cases)

/-! ## Running breaks -/

/-- The break is running, and it is the user's. -/
def WorkBreak.runningFor (userId : Nat) (b : WorkBreak) : Bool := b.userId == userId && b.endedAt.isNone

/-- A running break has a paused session of its user. -/
def WorkBreak.OnPause (db : Database) (b : WorkBreak) : Prop :=
  ∃ ws ∈ db.workSessions, b.sessionId = some ws.id ∧ ws.userId = some b.userId ∧ ws.status = .paused

instance (db : Database) (b : WorkBreak) : Decidable (b.OnPause db) := by
  unfold WorkBreak.OnPause
  infer_instance

/-- A user has one running break at most, and its session is paused. -/
structure BreaksOnPause (db : Database) : Prop where
  single : ∀ userId, db.workBreaks.countP (WorkBreak.runningFor userId) ≤ 1
  paused : ∀ b ∈ db.workBreaks, b.endedAt = none → b.OnPause db

/-- A break of the session is running. -/
def onBreak (db : Database) (sessionId : Nat) : Bool :=
  db.workBreaks.any fun b => b.sessionId == some sessionId && b.endedAt.isNone

theorem onBreak_of_mem {db : Database} {b : WorkBreak} (hb : b ∈ db.workBreaks)
    (hopen : b.endedAt = none) {sessionId : Nat} (hsession : b.sessionId = some sessionId) :
    onBreak db sessionId = true :=
  List.any_eq_true.mpr ⟨b, hb, by simp [hopen, hsession]⟩

/-- A heartbeat takes over no session on break, and leaves its own paused if that is on break. -/
def breaksKept (previous : Option AgentStateEvent) (observed : Int) (db : Database) (call : SyncCall)
    (adm : Admission) : Bool :=
  (takenSession db call adm).all (fun ws => !onBreak db ws.id) &&
    (deviceSession db call).all fun ws =>
      !onBreak db ws.id ||
        ((stopInstant previous observed call adm ws).isNone && adm.status == .paused)

/-- A break starts on a paused session of its user, unless the user has a running one to keep. -/
def breakStartsOnPause (db : Database) : WorkOp → Bool
  | .startBreak _ userId sessionId _ =>
    db.workBreaks.any (WorkBreak.runningFor userId) ||
      db.workSessions.all fun ws =>
        ws.id != sessionId || (ws.userId == some userId && ws.status == .paused)
  | _ => true

/-- The operation keeps breaks and pauses together. -/
def keepsBreaks (db : Database) (op : WorkOp) : Bool :=
  breakStartsOnPause db op && heartbeatMeets breaksKept db op

/-! ## Closers -/

/-- A closer ends the breaks of the live sessions it stops. -/
def Closing.EndsBreaks (c : Closing) (db : Database) : Prop :=
  ∀ ws ∈ db.workSessions, ws.live → c.sessions ws = true →
    ∀ b : WorkBreak, b.sessionId = some ws.id → ws.userId = some b.userId → c.breaks b = true

theorem breakOf_eq {db : Database} (hkeyed : Keyed db) {ws : WorkSession} (hws : ws ∈ db.workSessions)
    (p : WorkSession → Bool) {b : WorkBreak} (hsession : b.sessionId = some ws.id) :
    db.breakOf p b = p ws := by
  rw [Database.breakOf, hsession]
  exact hkeyed.sessionIs_eq hws p

theorem taskClosing_endsBreaks {db : Database} (hkeyed : Keyed db) (taskIds : List Nat) :
    (taskClosing db taskIds).EndsBreaks db := by
  intro ws hws _ hsel b hsession _
  exact (breakOf_eq hkeyed hws _ hsession).trans hsel

theorem projectClosing_endsBreaks {db : Database} (hkeyed : Keyed db) (projectId : Nat)
    (userId : Option Nat) : (projectClosing db projectId userId).EndsBreaks db := by
  intro ws hws hlive hsel b hsession huser
  have hin := breakOf_eq hkeyed hws (fun ws => ws.projectId == some projectId) hsession
  simp only [projectClosing, hlive, Bool.and_true, huser] at hsel ⊢
  rw [hin]
  simpa using hsel

theorem userClosing_endsBreaks (db : Database) (userId : Nat) :
    (userClosing userId).EndsBreaks db := by
  intro ws _ _ hsel b _ huser
  simp only [userClosing, huser, Bool.and_eq_true] at hsel ⊢
  simpa using hsel.1

theorem deviceClosing_endsBreaks {db : Database} (hkeyed : Keyed db) (deviceId : Nat) :
    (deviceClosing db deviceId).EndsBreaks db := by
  intro ws hws hlive hsel b hsession _
  refine (breakOf_eq hkeyed hws _ hsession).trans ?_
  simpa [deviceClosing, hlive] using hsel

/-- The policies it reads do not matter. -/
theorem webTimerClosing_endsBreaks {db policies : Database} (hkeyed : Keyed db)
    (hsame : policies.workSessions = db.workSessions) (userId : Option Nat) :
    (webTimerClosing policies userId).EndsBreaks db := by
  intro ws hws _ hsel b hsession _
  have hbreaks : ∀ p, policies.breakOf p b = db.breakOf p b := by
    intro p
    unfold Database.breakOf Database.sessionIs
    rw [hsame]
  exact (hbreaks _).trans ((breakOf_eq hkeyed hws _ hsession).trans hsel)

theorem closing_endsBreaks {db : Database} (hkeyed : Keyed db) {op : WorkOp} {now : Int} {c : Closing}
    (h : op.closing db = some (now, c)) : c.EndsBreaks db := by
  cases op with
  | setTaskStatus now taskId status =>
    obtain ⟨_, ⟨⟩⟩ := Option.ite_none_right_eq_some.mp h
    exact taskClosing_endsBreaks hkeyed _
  | closeTaskSessions observedAt taskIds =>
    cases h
    exact taskClosing_endsBreaks hkeyed _
  | removeProjectMember now projectId userId =>
    cases h
    exact projectClosing_endsBreaks hkeyed _ _
  | setProjectEnabled now projectId enabled =>
    obtain ⟨_, ⟨⟩⟩ := Option.ite_none_left_eq_some.mp h
    exact projectClosing_endsBreaks hkeyed _ _
  | setProjectMemberRole now projectId userId role =>
    obtain ⟨_, ⟨⟩⟩ := Option.ite_none_right_eq_some.mp h
    exact projectClosing_endsBreaks hkeyed _ _
  | setUserEnabled now userId enabled =>
    obtain ⟨_, ⟨⟩⟩ := Option.ite_none_left_eq_some.mp h
    exact userClosing_endsBreaks _ _
  | setDeviceEnabled now deviceId enabled =>
    obtain ⟨_, ⟨⟩⟩ := Option.ite_none_left_eq_some.mp h
    exact deviceClosing_endsBreaks hkeyed _
  | stopWebTimerSessions now userId =>
    cases h
    exact webTimerClosing_endsBreaks hkeyed rfl _
  | updateOrganizationSettings now allowedApps =>
    obtain ⟨_, ⟨⟩⟩ := Option.ite_none_right_eq_some.mp h
    refine webTimerClosing_endsBreaks hkeyed ?_ _
    rfl
  | updateMemberTrackingSettings now userId allowedApps otherOverrides =>
    obtain ⟨_, ⟨⟩⟩ := Option.ite_none_right_eq_some.mp h
    refine webTimerClosing_endsBreaks hkeyed ?_ _
    rfl
  | _ => cases h

/-- Ending breaks leaves no user with more running ones. -/
theorem countP_running_updateWhere_le {p : WorkBreak → Bool} {f : WorkBreak → WorkBreak}
    {rows : List WorkBreak} (hended : ∀ b, (f b).endedAt ≠ none) (userId : Nat) :
    (Library.updateWhere p f rows).countP (WorkBreak.runningFor userId) ≤
      rows.countP (WorkBreak.runningFor userId) := by
  rw [Library.countP_updateWhere]
  refine List.countP_mono_left fun b _ hrunning => ?_
  by_cases hp : p b = true
  · rw [if_pos hp, WorkBreak.runningFor, Bool.and_eq_true, Option.isNone_iff_eq_none] at hrunning
    exact absurd hrunning.2 (hended b)
  · rwa [if_neg hp] at hrunning

theorem Closes.breaksOnPause {now : Int} {c : Closing} {db db' : Database} (h : Closes now c db db')
    (hends : c.EndsBreaks db) (hbreaks : BreaksOnPause db) : BreaksOnPause db' := by
  constructor
  · intro userId
    rw [h.workBreaks]
    exact (countP_running_updateWhere_le (fun b hb => by cases hb) userId).trans (hbreaks.single userId)
  · intro b hb hopen
    rw [h.workBreaks] at hb
    rcases mem_updateWhere_cases hb with ⟨hold, hkept⟩ | ⟨b0, _, _, rfl⟩
    · obtain ⟨ws, hws, hsession, huser, hpaused⟩ := hbreaks.paused b hold hopen
      have hlive : ws.live = true := by simp [hpaused]
      -- the break was not selected, so neither was its session
      have hstays : c.sessions ws = false := by
        by_contra hsel
        have hsel' := hends ws hws hlive (by simpa using hsel) b hsession huser
        simp [Closing.selectsBreak, hopen, hsel'] at hkept
      refine ⟨ws, ?_, hsession, huser, hpaused⟩
      rw [h.workSessions]
      exact Library.mem_updateWhere_of_false hws hstays
    · cases hopen

theorem BreaksOnPause.of_eq {db db' : Database} (h : BreaksOnPause db)
    (hsessions : db'.workSessions = db.workSessions) (hbreaks : db'.workBreaks = db.workBreaks) :
    BreaksOnPause db' := by
  constructor
  · rw [hbreaks]
    exact h.single
  · unfold WorkBreak.OnPause
    rw [hbreaks, hsessions]
    exact h.paused

/-- Operations other than heartbeats. -/
theorem step_breaks_admin {db : Database} {op : WorkOp} (hop : ¬ op.IsSync) (hkeyed : Keyed db)
    (hbreaks : BreaksOnPause db) (hguard : breakStartsOnPause db op = true) :
    BreaksOnPause (step db op) := by
  by_cases hcompact : op.IsCompaction
  · cases op with
    | deleteStateEventsBefore cutoff => exact hbreaks.of_eq rfl rfl
    | _ => cases hcompact
  refine step_preserves hbreaks fun db' hrun => ?_
  cases adminStep db op hop hcompact db' hrun with
  | untouched h => exact hbreaks.of_eq h.workSessions h.workBreaks
  | closes now c hclosing h => exact h.breaksOnPause (closing_endsBreaks hkeyed hclosing) hbreaks
  | startsBreak now userId sessionId paid hop h hnone hsession hnew =>
    obtain ⟨ws, hws, rfl⟩ := hsession
    have hfree : db.workBreaks.countP (WorkBreak.runningFor userId) = 0 := by
      rw [List.countP_eq_zero]
      intro b hb hrunning
      rw [WorkBreak.runningFor, Bool.and_eq_true, beq_iff_eq, Option.isNone_iff_eq_none] at hrunning
      exact hnone b hb hrunning.1 hrunning.2
    have hpause : ws.userId = some userId ∧ ws.status = .paused := by
      rw [hop, breakStartsOnPause, Bool.or_eq_true] at hguard
      rcases hguard with hrunning | hall
      · obtain ⟨b, hb, hrunning⟩ := List.any_eq_true.mp hrunning
        exact absurd hrunning (List.countP_eq_zero.mp hfree b hb)
      · simpa using List.all_eq_true.mp hall ws hws
    constructor
    · intro other
      rw [hnew, List.countP_append]
      by_cases hsame : other = userId
      · rw [hsame, hfree]
        simp [WorkBreak.runningFor]
      · have hother : WorkBreak.runningFor other ⟨db.nextId, userId, some ws.id, now, none, paid⟩ =
            false := by
          simp [WorkBreak.runningFor, Ne.symm hsame]
        rw [List.countP_singleton, hother]
        exact hbreaks.single other
    · intro b hb hopen
      unfold WorkBreak.OnPause
      rw [h.workSessions]
      rw [hnew] at hb
      rcases List.mem_append.mp hb with hold | hstarted
      · exact hbreaks.paused b hold hopen
      · rw [List.mem_singleton.mp hstarted]
        exact ⟨ws, hws, rfl, hpause⟩
  | stopsBreak now userId _ h _ hstopped =>
    constructor
    · intro other
      rw [hstopped]
      exact (countP_running_updateWhere_le (fun b hb => by cases hb) other).trans
        (hbreaks.single other)
    · intro b hb hopen
      unfold WorkBreak.OnPause
      rw [h.workSessions]
      rw [hstopped] at hb
      rcases mem_updateWhere_cases hb with ⟨hold, _⟩ | ⟨b0, _, _, rfl⟩
      · exact hbreaks.paused b hold hopen
      · cases hopen

/-! ## Heartbeats -/

/-- The session of a running break moves to a paused session, if the heartbeat keeps breaks. -/
theorem SessionMove.paused {now : Int} {previous : Option AgentStateEvent} {observed : Int}
    {db : Database} {call : SyncCall} {adm : Admission} {ws ws' : WorkSession}
    (h : SessionMove now previous observed db call adm ws ws')
    (hguard : breaksKept previous observed db call adm = true) (hbreak : onBreak db ws.id = true)
    (hpaused : ws.status = .paused) :
    ws'.id = ws.id ∧ ws'.userId = ws.userId ∧ ws'.status = .paused := by
  unfold breaksKept at hguard
  rw [Bool.and_eq_true] at hguard
  obtain ⟨htake, hkeep⟩ := hguard
  cases h with
  | kept => exact ⟨rfl, rfl, hpaused⟩
  | taken htaken _ =>
    rw [htaken] at htake
    simp [hbreak] at htake
  | own hown =>
    rw [hown] at hkeep
    have hstays : stopInstant previous observed call adm ws = none ∧ adm.status = .paused := by
      simpa [hbreak] using hkeep
    rw [ownMove_of_none hstays.1]
    exact ⟨rfl, rfl, hstays.2⟩

theorem step_breaks_sync {db : Database} {tie : AgentStateEvent → Nat} {now : Int} {call : SyncCall}
    (hkeyed : Keyed db) (hbreaks : BreaksOnPause db)
    (hguard : heartbeatMeets breaksKept db (.sync tie now call) = true) :
    BreaksOnPause (step db (.sync tie now call)) := by
  rcases step_sync_accepts db tie now call with hsame | ⟨adm, row, _, _, haccept, hmeets⟩
  · rw [hsame]
    exact hbreaks
  · obtain ⟨hsamebreaks, rows, new, hmoves, hrows, _⟩ := acceptEvent_sessions hkeyed haccept
    generalize step db (.sync tie now call) = db' at *
    constructor
    · rw [hsamebreaks]
      exact hbreaks.single
    · intro b hb hopen
      rw [hsamebreaks] at hb
      obtain ⟨ws, hws, hsession, huser, hpaused⟩ := hbreaks.paused b hb hopen
      obtain ⟨ws', hws', hmove⟩ := Library.exists_of_forall₂_left hmoves hws
      obtain ⟨hid, hsameuser, hpaused'⟩ :=
        hmove.paused (hmeets _ hguard) (onBreak_of_mem hb hopen hsession) hpaused
      refine ⟨ws', ?_, by rw [hid]; exact hsession, by rw [hsameuser]; exact huser, hpaused'⟩
      rw [hrows]
      exact List.mem_append_left _ hws'

/-! ## Runs -/

theorem step_breaks {db : Database} {op : WorkOp} (hkeyed : Keyed db) (hbreaks : BreaksOnPause db)
    (hguard : keepsBreaks db op = true) : BreaksOnPause (step db op) := by
  unfold keepsBreaks at hguard
  rw [Bool.and_eq_true] at hguard
  by_cases hop : op.IsSync
  · cases op with
    | sync tie now call => exact step_breaks_sync hkeyed hbreaks hguard.2
    | _ => cases hop
  · exact step_breaks_admin hop hkeyed hbreaks hguard.1

/-- **Breaks run on paused sessions**, one for each user at most, in every run whose breaks start on a
pause and whose heartbeats leave the sessions on break as they are. -/
theorem breaks_on_pause (db : Database) (ops : List WorkOp)
    (hops : Guarded step (fun db op => keepsBreaks db op = true) db.withoutWork ops) :
    BreaksOnPause (run step db.withoutWork ops) := by
  have hbase : BreaksOnPause db.withoutWork := by
    constructor
    · intro userId
      exact Nat.zero_le 1
    · intro b hb
      cases hb
  have h := guarded_invariant (fun db => StoreInvariant db ∧ BreaksOnPause db)
    (fun db op h hguard => ⟨h.1.step op, step_breaks h.1.toKeyed h.2 hguard⟩)
    ⟨storeInvariant_withoutWork db, hbase⟩ hops
  exact h.2

/-- A break on the laptop's pause, over when the phone starts. -/
theorem breaks_on_pause_office :
    BreaksOnPause (run step office.withoutWork
      [deliver (minutes 600) (pressed laptop 1 .active (minutes 600)),
       deliver (minutes 601) (pressed laptop 2 .paused (minutes 601)),
       .startBreak (minutes 601) 1 0 false,
       .stopBreak (minutes 611) 1,
       deliver (minutes 612) (pressed phone 3 .active (minutes 612))]) :=
  breaks_on_pause office _ (by decide +kernel)

/-- The phone takes over from the laptop while its user is on break. -/
def takenOverOnBreak : List WorkOp :=
  [deliver (minutes 600) (pressed laptop 1 .active (minutes 600)),
   deliver (minutes 601) (pressed laptop 2 .paused (minutes 601)),
   .startBreak (minutes 601) 1 0 false,
   deliver (minutes 612) (pressed phone 3 .active (minutes 612))]

/-- A break can outlast the session it belongs to. -/
theorem break_outlasts_session :
    ¬ ∀ (db : Database) (ops : List WorkOp), BreaksOnPause (run step db.withoutWork ops) := by
  intro h
  exact absurd (h office takenOverOnBreak).paused (by decide +kernel)

end Dayfinch
