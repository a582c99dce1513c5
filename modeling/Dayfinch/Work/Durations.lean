/-
# Dayfinch.Work.Durations -- closed work ends no earlier than it starts

A session or segment starts at the clock of a device, which may run up to five minutes ahead of the
server, and may end at the clock of the server. Segments that a heartbeat ends, and whatever the
`GREATEST` closers end, are safe. The statements that stamp an instant as it is are the ones that can
write an end before a start: `_stop_session` on the session row, and the closers of tasks and of web
timers. `endsForward` is the condition that they do not.
-/
import Dayfinch.Work.SessionMoves

namespace Dayfinch

open Library (run Guarded guarded_invariant mem_updateWhere_cases)

/-! ## Durations -/

/-- Whatever has ended, ended no earlier than it started. -/
structure Forward (db : Database) : Prop where
  segments : ∀ g ∈ db.segments, g.endedAt.all (g.startedAt ≤ ·) = true
  sessions : ∀ ws ∈ db.workSessions, ws.endedAt.all (ws.startedAt ≤ ·) = true
  breaks : ∀ b ∈ db.workBreaks, b.endedAt.all (b.startedAt ≤ ·) = true

/-- A bulk close that does not stamp `GREATEST` ends only what has started by its clock; one whose
break update violates the `CHECK` ends nothing. -/
def closesForward (db : Database) (op : WorkOp) : Bool :=
  (op.closing db).all fun (now, c) =>
    c.greatest ||
      db.workBreaks.any (fun b => c.selectsBreak b && c.stamp now b.startedAt ≤ b.startedAt) ||
      (db.workSessions.all (fun ws => !c.sessions ws || ws.startedAt ≤ now) &&
        db.segments.all fun g => !(g.isOpen && db.sessionIs c.ofSegments g.sessionId) ||
          g.startedAt ≤ now)

/-- A heartbeat that stops the session of its device does so no earlier than the session started. -/
def stopsForward (previous : Option AgentStateEvent) (observed : Int) (db : Database)
    (call : SyncCall) (adm : Admission) : Bool :=
  (deviceSession db call).all fun session =>
    (stopInstant previous observed call adm session).all (session.startedAt ≤ ·)

/-- No statement of the operation stamps an end before a start. -/
def endsForward (db : Database) (op : WorkOp) : Bool :=
  closesForward db op && heartbeatMeets stopsForward db op

/-! ## Closers -/

/-- A stamp is no earlier than the start where it is `GREATEST`, or where the start has passed. -/
theorem Closing.le_stamp {c : Closing} {now startedAt : Int}
    (h : c.greatest = true ∨ startedAt ≤ now) : startedAt ≤ c.stamp now startedAt := by
  unfold Closing.stamp
  by_cases hgreatest : c.greatest = true
  · rw [if_pos hgreatest]
    exact le_max_right _ _
  · rw [if_neg hgreatest]
    exact h.resolve_left hgreatest

theorem Closes.forward {now : Int} {c : Closing} {db db' : Database} {op : WorkOp}
    (h : Closes now c db db') (hclosing : op.closing db = some (now, c))
    (hguard : closesForward db op = true) (hforward : Forward db) : Forward db' := by
  -- the break update went through, so only the other two alternatives of the guard are left
  have hcheck : db.workBreaks.any
      (fun b => c.selectsBreak b && c.stamp now b.startedAt ≤ b.startedAt) = false := by
    rw [List.any_eq_false]
    intro b hb hbad
    rw [Bool.and_eq_true, decide_eq_true_eq] at hbad
    exact absurd (h.breaksForward b hb hbad.1) (not_lt.mpr hbad.2)
  have hstarted : c.greatest = true ∨ (∀ ws ∈ db.workSessions, c.sessions ws = true → ws.startedAt ≤ now) ∧
      ∀ g ∈ db.segments, g.isOpen = true → db.sessionIs c.ofSegments g.sessionId = true →
        g.startedAt ≤ now := by
    simpa [closesForward, hclosing, hcheck, imp_iff_not_or, or_assoc, -Segment.isOpen_iff] using hguard
  constructor
  · intro g hg
    rw [h.segments] at hg
    rcases mem_updateWhere_cases hg with ⟨hold, _⟩ | ⟨g0, hg0, hsel, rfl⟩
    · exact hforward.segments g hold
    · rw [Bool.and_eq_true] at hsel
      have hle := Closing.le_stamp (hstarted.imp_right fun hs => hs.2 g0 hg0 hsel.1 hsel.2)
      exact decide_eq_true hle
  · intro ws hws
    rw [h.workSessions] at hws
    rcases mem_updateWhere_cases hws with ⟨hold, _⟩ | ⟨ws0, hws0, hsel, rfl⟩
    · exact hforward.sessions ws hold
    · have hle := Closing.le_stamp (hstarted.imp_right fun hs => hs.1 ws0 hws0 hsel)
      exact decide_eq_true hle
  · intro b hb
    rw [h.workBreaks] at hb
    rcases mem_updateWhere_cases hb with ⟨hold, _⟩ | ⟨b0, hb0, hsel, rfl⟩
    · exact hforward.breaks b hold
    · exact decide_eq_true (h.breaksForward b0 hb0 hsel).le

/-- Operations other than heartbeats. -/
theorem step_forward_admin {db : Database} {op : WorkOp} (hop : ¬ op.IsSync) (hforward : Forward db)
    (hguard : closesForward db op = true) : Forward (step db op) := by
  by_cases hcompact : op.IsCompaction
  · cases op with
    | deleteStateEventsBefore cutoff =>
      exact ⟨hforward.segments, hforward.sessions, hforward.breaks⟩
    | _ => cases hcompact
  refine step_preserves hforward fun db' hrun => ?_
  cases adminStep db op hop hcompact db' hrun with
  | untouched h =>
    constructor
    · rw [h.segments]
      exact hforward.segments
    · rw [h.workSessions]
      exact hforward.sessions
    · rw [h.workBreaks]
      exact hforward.breaks
  | closes now c hclosing h => exact h.forward hclosing hguard hforward
  | startsBreak now userId sessionId paid _ h _ _ hbreaks =>
    constructor
    · rw [h.segments]
      exact hforward.segments
    · rw [h.workSessions]
      exact hforward.sessions
    · intro b hb
      rw [hbreaks] at hb
      rcases List.mem_append.mp hb with hold | hnew
      · exact hforward.breaks b hold
      · rw [List.mem_singleton.mp hnew]
        rfl
  | stopsBreak now userId _ h hlater hbreaks =>
    constructor
    · rw [h.segments]
      exact hforward.segments
    · rw [h.workSessions]
      exact hforward.sessions
    · intro b hb
      rw [hbreaks] at hb
      rcases mem_updateWhere_cases hb with ⟨hold, _⟩ | ⟨b0, hb0, hsel, rfl⟩
      · exact hforward.breaks b hold
      · rw [Bool.and_eq_true, beq_iff_eq, Option.isNone_iff_eq_none] at hsel
        exact decide_eq_true (hlater b0 hb0 hsel.1 hsel.2).le

/-! ## Heartbeats -/

/-- Every segment that a heartbeat ends, ends at or after its start. -/
theorem SegmentEnded.forward {previous : Option AgentStateEvent} {observed : Int} {db : Database}
    {call : SyncCall} {adm : Admission} {g g' : Segment}
    (h : SegmentEnded (SyncEnd previous observed db call adm) g g')
    (hforward : g.endedAt.all (g.startedAt ≤ ·) = true) :
    g'.endedAt.all (g'.startedAt ≤ ·) = true := by
  cases h with
  | same => exact hforward
  | ended e _ hend =>
    obtain ⟨t, _, rfl⟩ := hend.mem_endInstants
    exact decide_eq_true (le_max_left _ _)

theorem SessionMove.forward {now : Int} {previous : Option AgentStateEvent} {observed : Int}
    {db : Database} {call : SyncCall} {adm : Admission} {ws ws' : WorkSession}
    (h : SessionMove now previous observed db call adm ws ws')
    (hguard : stopsForward previous observed db call adm = true)
    (hforward : ws.endedAt.all (ws.startedAt ≤ ·) = true) :
    ws'.endedAt.all (ws'.startedAt ≤ ·) = true := by
  cases h with
  | kept => exact hforward
  | taken _ hnewer => exact decide_eq_true hnewer
  | own hown =>
    cases hstop : stopInstant previous observed call adm ws with
    | none =>
      rw [ownMove_of_none hstop]
      exact hforward
    | some t =>
      have hle : ws.startedAt ≤ t := by simpa [stopsForward, hown, hstop] using hguard
      rw [ownMove_of_stop hstop]
      exact decide_eq_true hle

theorem step_forward_sync {db : Database} {tie : AgentStateEvent → Nat} {now : Int} {call : SyncCall}
    (hinv : StoreInvariant db) (hforward : Forward db)
    (hguard : heartbeatMeets stopsForward db (.sync tie now call) = true) :
    Forward (step db (.sync tie now call)) := by
  have hinv' := hinv.step (.sync tie now call)
  rcases step_sync_accepts db tie now call with hsame | ⟨adm, row, _, _, haccept, hmeets⟩
  · rw [hsame]
    exact hforward
  · obtain ⟨hbreaks, rows, new, hmoves, hrows, hnew⟩ := acceptEvent_sessions hinv.toKeyed haccept
    have hacc := acceptEvent_effect haccept
    generalize step db (.sync tie now call) = db' at *
    constructor
    · intro g hg
      obtain ⟨ws, hws, hid⟩ := hinv'.segmentSession g hg
      cases hacc.origin hinv hinv' hg hws hid with
      | kept g0 hg0 ws0 hws0 _ _ _ hended _ => exact hended.forward (hforward.segments g0 hg0)
      | opened _ _ hopen _ _ _ =>
        rw [hopen]
        rfl
      | resumed _ _ hopen _ _ _ _ _ =>
        rw [hopen]
        rfl
    · intro ws hws
      rw [hrows] at hws
      rcases List.mem_append.mp hws with hold | hopened
      · obtain ⟨ws0, hws0, hmove⟩ := Library.exists_of_forall₂_right hmoves hold
        exact hmove.forward (hmeets _ hguard) (hforward.sessions ws0 hws0)
      · rw [(hnew ws hopened).endedAt]
        rfl
    · rw [hbreaks]
      exact hforward.breaks

/-! ## Runs -/

theorem step_forward {db : Database} {op : WorkOp} (hinv : StoreInvariant db) (hforward : Forward db)
    (hguard : endsForward db op = true) : Forward (step db op) := by
  unfold endsForward at hguard
  rw [Bool.and_eq_true] at hguard
  by_cases hop : op.IsSync
  · cases op with
    | sync tie now call => exact step_forward_sync hinv hforward hguard.2
    | _ => cases hop
  · exact step_forward_admin hop hforward hguard.1

theorem forward_withoutWork (db : Database) : Forward db.withoutWork := by
  constructor <;> intro row hrow <;> cases hrow

/-- **Durations are never negative** in every run whose stops and closers stamp no end before a
start. -/
theorem durations_forward (db : Database) (ops : List WorkOp)
    (hops : Guarded step (fun db op => endsForward db op = true) db.withoutWork ops) :
    Forward (run step db.withoutWork ops) := by
  have h := guarded_invariant (fun db => StoreInvariant db ∧ Forward db)
    (fun db op h hguard => ⟨h.1.step op, step_forward h.1 h.2 hguard⟩)
    ⟨storeInvariant_withoutWork db, forward_withoutWork db⟩ hops
  exact h.2

/-- An office with a task. -/
def officeWithTask : Database :=
  { office with tasks := [{ id := 1, projectId := 1, status := .active, externalReadOnly := false }] }

/-- A heartbeat on the task. -/
def pressedOnTask (eventId : Nat) (status : SessionStatus) (observedAt : Int) : SyncCall :=
  { pressed laptop eventId status observedAt with taskId := some 1 }

/-- The task is archived when the laptop's clock has been passed. -/
theorem durations_forward_archived :
    Forward (run step officeWithTask.withoutWork
      [deliver (minutes 600) (pressedOnTask 1 .active (minutes 605)),
       .setTaskStatus (minutes 606) 1 (some .archived)]) :=
  durations_forward officeWithTask _ (by decide +kernel)

/-! ## Ahead of the server -/

/-- The server clock never steps back. -/
def serverClockForward (ops : List WorkOp) : Prop := (ops.filterMap WorkOp.clock).Pairwise (· ≤ ·)

/-- The window of the agent endpoint, also for heartbeats without an event id. -/
def observedInWindow : WorkOp → Bool
  | .sync _ now call =>
    ((call.observedAt.getD (Datetime.ofInstant now)).toUtc?).any fun t =>
      now - days 90 ≤ t && t ≤ now + minutes 5
  | _ => true

/-- The laptop's clock is five minutes ahead, and the task is archived a minute after the start. -/
def archivedEarly : List WorkOp :=
  [deliver (minutes 600) (pressedOnTask 1 .active (minutes 605)),
   .setTaskStatus (minutes 601) 1 (some .archived)]

/-- A duration can be negative in the accepted window. -/
theorem durations_negative :
    ¬ ∀ (db : Database) (ops : List WorkOp), serverClockForward ops →
      (∀ op ∈ ops, observedInWindow op = true) → Forward (run step db.withoutWork ops) := by
  intro h
  have hforward := h officeWithTask archivedEarly (by unfold serverClockForward; decide +kernel)
    (by decide +kernel)
  exact absurd hforward.segments (by decide +kernel)

end Dayfinch
