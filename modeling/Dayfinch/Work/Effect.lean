/-
# Dayfinch.Work.Effect -- what one operation can do to sessions and segments

The invariants of the work store are about two tables, and most operations do one of two things to
them: nothing, or the bulk close of `closeWork`. This file says so once, as relations between the
database before and after, so that a proof about runs never unfolds the operations again:

* `SameWork`: both tables are as they were;
* `Closes now c`: both tables are as `closeWork now c` leaves them;
* `adminEffect`: every operation other than a heartbeat and a compaction of the receipts is one of
  the two, with its own clock.

For the heartbeat it collects what each statement of the transaction finds or writes.
-/
import Dayfinch.Work.Step

namespace Dayfinch

open Library (updateWhere Ensures ensures_ite latestBy_mem)

/-! ## Bulk effects -/

/-- Sessions, segments and receipts are as they were. -/
structure SameWork (db db' : Database) : Prop where
  workSessions : db'.workSessions = db.workSessions
  segments : db'.segments = db.segments
  receipts : db'.agentStateEvents = db.agentStateEvents
  nextId_le : db.nextId ≤ db'.nextId

/-- And so are the breaks. -/
structure Untouched (db db' : Database) : Prop extends SameWork db db' where
  workBreaks : db'.workBreaks = db.workBreaks

theorem Untouched.refl (db : Database) : Untouched db db := ⟨⟨rfl, rfl, rfl, le_rfl⟩, rfl⟩

/-- Sessions, segments and breaks are as the bulk close `c` at `now` leaves them; the breaks that it
ends started before their end. -/
structure Closes (now : Int) (c : Closing) (db db' : Database) : Prop where
  workSessions : db'.workSessions = updateWhere c.sessions (c.endSession now) db.workSessions
  segments : db'.segments =
    updateWhere (fun g => g.isOpen && db.sessionIs c.ofSegments g.sessionId) (c.endSegment now)
      db.segments
  workBreaks : db'.workBreaks = updateWhere c.selectsBreak (c.endBreak now) db.workBreaks
  breaksForward : ∀ b ∈ db.workBreaks, c.selectsBreak b = true → b.startedAt < c.stamp now b.startedAt
  receipts : db'.agentStateEvents = db.agentStateEvents
  nextId_le : db.nextId ≤ db'.nextId

/-- On live sessions the two conditions of a closer agree. -/
def Closing.Consistent (c : Closing) : Prop := ∀ ws : WorkSession, ws.live → c.ofSegments ws = c.sessions ws

theorem closeWork_ensures (now : Int) (c : Closing) (db : Database) :
    Ensures (closeWork now c db) (Closes now c db) := by
  refine ensures_ite (fun _ => by simp) fun hcheck => ?_
  rw [Library.ensures_ok]
  refine ⟨rfl, rfl, rfl, ?_, rfl, le_rfl⟩
  intro b hb hsel
  by_contra hle
  exact hcheck (List.any_eq_true.mpr ⟨b, hb, by simp [hsel, not_lt.mp hle]⟩)

/-- A bulk close draws no identifier, and leaves the users. -/
theorem closeWork_users {now : Int} {c : Closing} {db db' : Database} (h : closeWork now c db = .ok db') :
    db'.users = db.users ∧ db'.nextId = db.nextId := by
  unfold closeWork at h
  split at h
  · cases h
  · cases h
    exact ⟨rfl, rfl⟩

/-- Updates of other tables before and after a bulk close do not show in the two tables. -/
theorem Closes.between {now : Int} {c : Closing} {db db1 db2 db' : Database} (h : Closes now c db1 db2)
    (hbefore : Untouched db db1) (hafter : Untouched db2 db') : Closes now c db db' := by
  have hsession : ∀ s, db1.sessionIs c.ofSegments s = db.sessionIs c.ofSegments s := by
    intro s
    rw [Database.sessionIs, Database.sessionIs, hbefore.workSessions]
  constructor
  · rw [hafter.workSessions, h.workSessions, hbefore.workSessions]
  · rw [hafter.segments, h.segments, hbefore.segments]
    simp only [hsession]
  · rw [hafter.workBreaks, h.workBreaks, hbefore.workBreaks]
  · rw [← hbefore.workBreaks]
    exact h.breaksForward
  · rw [hafter.receipts, h.receipts, hbefore.receipts]
  · exact hbefore.nextId_le.trans (h.nextId_le.trans hafter.nextId_le)

/-- What an operation other than a heartbeat does at the server clock `now`. -/
inductive AdminEffect (now : Int) (db db' : Database) : Prop
  | same (h : SameWork db db')
  | closes (c : Closing) (consistent : c.Consistent) (h : Closes now c db db')

theorem taskClosing_consistent (db : Database) (taskIds : List Nat) :
    (taskClosing db taskIds).Consistent := fun _ _ => rfl

theorem projectClosing_consistent (db : Database) (projectId : Nat) (userId : Option Nat) :
    (projectClosing db projectId userId).Consistent := by
  intro ws hlive
  simp [projectClosing, hlive]

theorem userClosing_consistent (userId : Nat) : (userClosing userId).Consistent := by
  intro ws hlive
  simp [userClosing, hlive]

theorem deviceClosing_consistent (db : Database) (deviceId : Nat) :
    (deviceClosing db deviceId).Consistent := by
  intro ws hlive
  simp [deviceClosing, hlive]

theorem webTimerClosing_consistent (db : Database) (userId : Option Nat) :
    (webTimerClosing db userId).Consistent := fun _ _ => rfl

/-- The server clock of an operation that reads it. -/
def WorkOp.clock : WorkOp → Option Int
  | .sync _ now _ | .setTaskStatus now _ _ | .closeTaskSessions now _
  | .removeProjectMember now _ _ | .setProjectEnabled now _ _ | .setProjectMemberRole now _ _ _
  | .setUserEnabled now _ _ | .setDeviceEnabled now _ _ | .stopWebTimerSessions now _
  | .updateOrganizationSettings now _ | .updateMemberTrackingSettings now _ _ _
  | .startBreak now _ _ _ | .stopBreak now _ => some now
  | .addProjectMember _ _ _ | .setUserProfile _ _ _ _ | .deleteStateEventsBefore _ => none

/-- The operation is a heartbeat. -/
def WorkOp.IsSync : WorkOp → Prop
  | .sync _ _ _ => True
  | _ => False

/-- The operation compacts the receipts. -/
def WorkOp.IsCompaction : WorkOp → Prop
  | .deleteStateEventsBefore _ => True
  | _ => False

/-- The bulk close of an operation that comes to one, with its clock. The clauses are read where the
operation has made its own updates, which matters for the policies only. -/
def WorkOp.closing (db : Database) : WorkOp → Option (Int × Closing)
  | .setTaskStatus now taskId status =>
    if status = some .archived ∧ (db.getTask taskId).any (!·.externalReadOnly) then
      some (now, taskClosing db [taskId])
    else none
  | .closeTaskSessions observedAt taskIds => some (observedAt, taskClosing db taskIds)
  | .removeProjectMember now projectId userId => some (now, projectClosing db projectId (some userId))
  | .setProjectEnabled now projectId enabled =>
    if enabled then none else some (now, projectClosing db projectId none)
  | .setProjectMemberRole now projectId userId projectRole =>
    if projectRole = some .viewer then some (now, projectClosing db projectId (some userId)) else none
  | .setUserEnabled now userId enabled => if enabled then none else some (now, userClosing userId)
  | .setDeviceEnabled now deviceId enabled =>
    if enabled then none else some (now, deviceClosing db deviceId)
  | .stopWebTimerSessions now userId => some (now, webTimerClosing db userId)
  | .updateOrganizationSettings now allowedApps =>
    if allowedApps.getD db.allowedApps = .desktopOnly then
      some (now, webTimerClosing { db with allowedApps := allowedApps.getD db.allowedApps } none)
    else none
  | .updateMemberTrackingSettings now userId allowedApps otherOverrides =>
    let rows := db.userTrackingSettings.filter (·.1 != userId)
    if allowedApps.getD db.allowedApps = .desktopOnly ∧
        (db.getUserAny userId).any (fun target => target.enabled && target.role != .viewer) then
      some (now, webTimerClosing
        { db with
          userTrackingSettings :=
            if allowedApps.isNone && !otherOverrides then rows else rows ++ [(userId, allowedApps)] }
        (some userId))
    else none
  | _ => none

theorem closing_spec {db : Database} {op : WorkOp} {now : Int} {c : Closing}
    (h : op.closing db = some (now, c)) : op.clock = some now ∧ c.Consistent := by
  cases op with
  | setTaskStatus now taskId status =>
    obtain ⟨_, ⟨⟩⟩ := Option.ite_none_right_eq_some.mp h
    exact ⟨rfl, taskClosing_consistent _ _⟩
  | closeTaskSessions observedAt taskIds =>
    cases h
    exact ⟨rfl, taskClosing_consistent _ _⟩
  | removeProjectMember now projectId userId =>
    cases h
    exact ⟨rfl, projectClosing_consistent _ _ _⟩
  | setProjectEnabled now projectId enabled =>
    obtain ⟨_, ⟨⟩⟩ := Option.ite_none_left_eq_some.mp h
    exact ⟨rfl, projectClosing_consistent _ _ _⟩
  | setProjectMemberRole now projectId userId role =>
    obtain ⟨_, ⟨⟩⟩ := Option.ite_none_right_eq_some.mp h
    exact ⟨rfl, projectClosing_consistent _ _ _⟩
  | setUserEnabled now userId enabled =>
    obtain ⟨_, ⟨⟩⟩ := Option.ite_none_left_eq_some.mp h
    exact ⟨rfl, userClosing_consistent _⟩
  | setDeviceEnabled now deviceId enabled =>
    obtain ⟨_, ⟨⟩⟩ := Option.ite_none_left_eq_some.mp h
    exact ⟨rfl, deviceClosing_consistent _ _⟩
  | stopWebTimerSessions now userId =>
    cases h
    exact ⟨rfl, webTimerClosing_consistent _ _⟩
  | updateOrganizationSettings now allowedApps =>
    obtain ⟨_, ⟨⟩⟩ := Option.ite_none_right_eq_some.mp h
    exact ⟨rfl, webTimerClosing_consistent _ _⟩
  | updateMemberTrackingSettings now userId allowedApps otherOverrides =>
    obtain ⟨_, ⟨⟩⟩ := Option.ite_none_right_eq_some.mp h
    exact ⟨rfl, webTimerClosing_consistent _ _⟩
  | _ => cases h

/-- What an operation other than a heartbeat and a compaction does to sessions, segments and breaks. -/
inductive AdminStep (db : Database) (op : WorkOp) (db' : Database) : Prop
  | untouched (h : Untouched db db')
  | closes (now : Int) (c : Closing) (hclosing : op.closing db = some (now, c))
    (h : Closes now c db db')
  | startsBreak (now : Int) (userId sessionId : Nat) (paid : Bool)
    (hop : op = .startBreak now userId sessionId paid) (h : SameWork db db')
    (hnone : ∀ b ∈ db.workBreaks, b.userId = userId → b.endedAt ≠ none)
    (hsession : ∃ ws ∈ db.workSessions, ws.id = sessionId)
    (hbreaks : db'.workBreaks = db.workBreaks ++
      [{ id := db.nextId, userId, sessionId := some sessionId, startedAt := now, endedAt := none, paid }])
  | stopsBreak (now : Int) (userId : Nat) (hop : op = .stopBreak now userId) (h : SameWork db db')
    (hforward : ∀ b ∈ db.workBreaks, b.userId = userId → b.endedAt = none → b.startedAt < now)
    (hbreaks : db'.workBreaks = updateWhere (fun b => b.userId == userId && b.endedAt.isNone)
      (fun b => { b with endedAt := some now }) db.workBreaks)

theorem Untouched.ensures_ok {db db' : Database} {op : WorkOp} (h : Untouched db db') :
    Ensures (Except.ok db' : Except Error Database) (AdminStep db op) :=
  Library.ensures_ok.mpr (.untouched h)

/-- A bulk close between updates of other tables. -/
theorem closeWork_step {now : Int} {c : Closing} {db db1 : Database} {op : WorkOp}
    {f : Database → Database} (hclosing : op.closing db = some (now, c)) (hbefore : Untouched db db1)
    (hafter : ∀ db2, Untouched db2 (f db2)) :
    Ensures (closeWork now c db1 >>= fun db2 => .ok (f db2)) (AdminStep db op) := by
  refine Ensures.bind (closeWork_ensures now c db1) fun db2 h => ?_
  exact Library.ensures_ok.mpr (.closes now c hclosing (h.between hbefore (hafter db2)))

/-- A bulk close as the last statement. -/
theorem closeWork_last {now : Int} {c : Closing} {db db1 : Database} {op : WorkOp}
    (hclosing : op.closing db = some (now, c)) (hbefore : Untouched db db1) :
    Ensures (closeWork now c db1) (AdminStep db op) :=
  (closeWork_ensures now c db1).mono fun db2 h =>
    .closes now c hclosing (h.between hbefore (Untouched.refl db2))

/-- **Every operation other than a heartbeat and a compaction** leaves sessions, segments and breaks
alone, closes them in bulk, or starts or stops a break. -/
theorem adminStep (db : Database) (op : WorkOp) (hop : ¬ op.IsSync) (hcompact : ¬ op.IsCompaction) :
    Ensures (op.run db) (AdminStep db op) := by
  cases op with
  | sync tie now call => exact absurd trivial hop
  | setTaskStatus now taskId status =>
    simp only [WorkOp.run, setTaskStatus]
    cases status with
    | none => simp
    | some status =>
      cases htask : db.getTask taskId with
      | none => simp
      | some task =>
        refine Ensures.bind ensures_raiseIf fun _ hmanaged =>
          ensures_ite (fun harchived => ?_) fun _ => ?_
        · refine closeWork_last (if_pos ⟨by rw [harchived], ?_⟩) ⟨⟨rfl, rfl, rfl, le_rfl⟩, rfl⟩
          simpa [htask] using hmanaged
        · exact Untouched.ensures_ok ⟨⟨rfl, rfl, rfl, le_rfl⟩, rfl⟩
  | closeTaskSessions observedAt taskIds =>
    refine ensures_ite (fun _ => ?_) fun _ => ?_
    · exact (Untouched.refl db).ensures_ok
    · exact closeWork_last rfl (Untouched.refl db)
  | addProjectMember projectId userId role =>
    simp only [WorkOp.run, addProjectMember]
    cases role with
    | none => simp
    | some role =>
      refine ensures_ite (fun _ => by simp) fun _ => ensures_ite (fun _ => ?_) fun _ => ?_
      · exact Untouched.ensures_ok ⟨⟨rfl, rfl, rfl, le_rfl⟩, rfl⟩
      · exact Untouched.ensures_ok ⟨⟨rfl, rfl, rfl, le_rfl⟩, rfl⟩
  | removeProjectMember now projectId userId =>
    exact closeWork_step rfl (Untouched.refl db) fun _ => ⟨⟨rfl, rfl, rfl, le_rfl⟩, rfl⟩
  | setProjectEnabled now projectId enabled =>
    refine Ensures.bind ensures_raiseIf fun _ _ => ensures_ite (fun _ => ?_) fun henabled => ?_
    · exact Untouched.ensures_ok ⟨⟨rfl, rfl, rfl, le_rfl⟩, rfl⟩
    · exact closeWork_step (if_neg henabled) ⟨⟨rfl, rfl, rfl, le_rfl⟩, rfl⟩
        fun _ => ⟨⟨rfl, rfl, rfl, le_rfl⟩, rfl⟩
  | setProjectMemberRole now projectId userId role =>
    simp only [WorkOp.run, setProjectMemberRole]
    cases role with
    | none => simp
    | some role =>
      refine Ensures.bind ensures_raiseIf fun _ _ => ensures_ite (fun _ => ?_) fun hviewer => ?_
      · exact Untouched.ensures_ok ⟨⟨rfl, rfl, rfl, le_rfl⟩, rfl⟩
      · exact closeWork_step (if_pos (by rw [not_not.mp hviewer])) ⟨⟨rfl, rfl, rfl, le_rfl⟩, rfl⟩
          fun _ => ⟨⟨rfl, rfl, rfl, le_rfl⟩, rfl⟩
  | setUserEnabled now userId enabled =>
    refine Ensures.bind ensures_raiseIf fun _ _ => ensures_ite (fun _ => ?_) fun henabled => ?_
    · exact Untouched.ensures_ok ⟨⟨rfl, rfl, rfl, le_rfl⟩, rfl⟩
    · exact closeWork_step (if_neg henabled) ⟨⟨rfl, rfl, rfl, le_rfl⟩, rfl⟩
        fun _ => ⟨⟨rfl, rfl, rfl, le_rfl⟩, rfl⟩
  | setUserProfile userId role weekly daily =>
    simp only [WorkOp.run, setUserProfile]
    split
    · simp
    · simp
    · exact Untouched.ensures_ok ⟨⟨rfl, rfl, rfl, le_rfl⟩, rfl⟩
  | setDeviceEnabled now deviceId enabled =>
    simp only [WorkOp.run, setDeviceEnabled]
    cases db.getDevice deviceId with
    | none => exact (Untouched.refl db).ensures_ok
    | some device =>
      refine ensures_ite (fun _ => ?_) fun henabled => ?_
      · exact Untouched.ensures_ok ⟨⟨rfl, rfl, rfl, le_rfl⟩, rfl⟩
      · exact closeWork_last (if_neg henabled) ⟨⟨rfl, rfl, rfl, le_rfl⟩, rfl⟩
  | stopWebTimerSessions now userId => exact closeWork_last rfl (Untouched.refl db)
  | updateOrganizationSettings now allowedApps =>
    refine ensures_ite (fun hdesktop => ?_) fun _ => ?_
    · exact closeWork_last (if_pos hdesktop) ⟨⟨rfl, rfl, rfl, le_rfl⟩, rfl⟩
    · exact Untouched.ensures_ok ⟨⟨rfl, rfl, rfl, le_rfl⟩, rfl⟩
  | updateMemberTrackingSettings now userId allowedApps otherOverrides =>
    refine Ensures.bind ensures_raiseIf fun _ htarget =>
      ensures_ite (fun hdesktop => ?_) fun _ => ?_
    · exact closeWork_last (if_pos ⟨hdesktop, not_not.mp htarget⟩) ⟨⟨rfl, rfl, rfl, le_rfl⟩, rfl⟩
    · exact Untouched.ensures_ok ⟨⟨rfl, rfl, rfl, le_rfl⟩, rfl⟩
  | startBreak now userId sessionId paid =>
    refine ensures_ite (fun _ => ?_) fun hnone => ensures_ite (fun _ => by simp) fun hexist => ?_
    · exact (Untouched.refl db).ensures_ok
    · refine Library.ensures_ok.mpr
        (.startsBreak now userId sessionId paid rfl ⟨rfl, rfl, rfl, Nat.le_succ _⟩ ?_ ?_ rfl)
      · intro b hb huser hopen
        exact hnone (List.any_eq_true.mpr ⟨b, hb, by simp [huser, hopen]⟩)
      · obtain ⟨ws, hws⟩ := Option.ne_none_iff_exists'.mp fun hmissing =>
          (not_or.mp hexist).2 (Option.isNone_iff_eq_none.mpr hmissing)
        exact ⟨ws, List.mem_of_find?_eq_some hws, by simpa using List.find?_some hws⟩
  | stopBreak now userId =>
    refine ensures_ite (fun _ => by simp) fun hcheck => ?_
    refine Library.ensures_ok.mpr (.stopsBreak now userId rfl ⟨rfl, rfl, rfl, le_rfl⟩ ?_ rfl)
    intro b hb huser hopen
    by_contra hle
    exact hcheck (List.any_eq_true.mpr ⟨b, hb, by simp [huser, hopen, not_lt.mp hle]⟩)
  | deleteStateEventsBefore cutoff => exact absurd trivial hcompact

/-- **Every operation other than a heartbeat and a compaction leaves sessions and segments alone or
closes them in bulk**, at the clock of its call. -/
theorem adminEffect (db : Database) (op : WorkOp) (hop : ¬ op.IsSync) (hcompact : ¬ op.IsCompaction) :
    Ensures (op.run db) fun db' =>
      SameWork db db' ∨ ∃ now, op.clock = some now ∧ AdminEffect now db db' := by
  refine (adminStep db op hop hcompact).mono fun db' hstep => ?_
  cases hstep with
  | untouched h => exact .inl h.toSameWork
  | closes now c hclosing h =>
    obtain ⟨hclock, hconsistent⟩ := closing_spec hclosing
    exact .inr ⟨now, hclock, .closes c hconsistent h⟩
  | startsBreak _ _ _ _ _ h _ _ _ => exact .inl h
  | stopsBreak _ _ _ h _ _ => exact .inl h

/-! ## Rows after an operation -/

/-- The columns of a session that no operation changes. -/
def WorkSession.fixed (ws : WorkSession) : WorkSession :=
  { ws with status := .stopped, note := "", endedAt := none, updatedAt := 0 }

@[simp] theorem WorkSession.fixed_stop (endedAt : Int) (ws : WorkSession) :
    (ws.stop endedAt).fixed = ws.fixed := rfl

@[simp] theorem WorkSession.fixed_continueAs (status : SessionStatus) (note : String) (now : Int)
    (ws : WorkSession) : (ws.continueAs status note now).fixed = ws.fixed := rfl

@[simp] theorem Closing.fixed_endSession (c : Closing) (now : Int) (ws : WorkSession) :
    (c.endSession now ws).fixed = ws.fixed := rfl

/-- A row after an update of the mutable columns has the fixed columns of a row before. -/
theorem exists_of_fixed {rows rows' : List WorkSession}
    (h : rows'.map WorkSession.fixed = rows.map WorkSession.fixed) {ws' : WorkSession}
    (hm : ws' ∈ rows') :
    ∃ ws ∈ rows, ws.id = ws'.id ∧ ws.userId = ws'.userId ∧ ws.deviceId = ws'.deviceId ∧
      ws.projectId = ws'.projectId := by
  have hmem : ws'.fixed ∈ rows.map WorkSession.fixed := h ▸ List.mem_map_of_mem hm
  obtain ⟨ws, hws, heq⟩ := List.mem_map.mp hmem
  simp only [WorkSession.fixed, WorkSession.mk.injEq] at heq
  exact ⟨ws, hws, heq.1, heq.2.1, heq.2.2.1, heq.2.2.2.1⟩

/-- A segment row before and after: as it was, or open before and ended at an instant that `ends`
allows for it. -/
inductive SegmentEnded (ends : Segment → Int → Prop) : Segment → Segment → Prop
  | same (g : Segment) : SegmentEnded ends g g
  | ended (g : Segment) (e : Int) (hopen : g.endedAt = none) (h : ends g e) :
      SegmentEnded ends g { g with endedAt := some e }

theorem SegmentEnded.start_eq {ends : Segment → Int → Prop} {g g' : Segment}
    (h : SegmentEnded ends g g') :
    g'.id = g.id ∧ g'.sessionId = g.sessionId ∧ g'.startedAt = g.startedAt := by
  cases h <;> exact ⟨rfl, rfl, rfl⟩

/-- The segments are those from before, some of the open ones ended as `ends` allows. -/
def Trimmed (ends : Segment → Int → Prop) (rows rows' : List Segment) : Prop :=
  List.Forall₂ (SegmentEnded ends) rows rows'

theorem Trimmed.refl (ends : Segment → Int → Prop) (rows : List Segment) : Trimmed ends rows rows :=
  List.forall₂_same.mpr fun g _ => .same g

/-- Ending segments in two goes: what the first has ended, the second leaves. -/
theorem Trimmed.trans {ends : Segment → Int → Prop} {rows rows' rows'' : List Segment}
    (h : Trimmed ends rows rows') (h' : Trimmed ends rows' rows'') : Trimmed ends rows rows'' := by
  refine Library.forall₂_trans ?_ h h'
  intro g g' g'' hg hg'
  cases hg with
  | same => exact hg'
  | ended e hopen he =>
    cases hg' with
    | same => exact .ended g e hopen he
    | ended e' hopen' _ => cases hopen'

theorem closeSegment_trimmed {ends : Segment → Int → Prop} {db : Database} {sessionId : Nat}
    {endedAt : Int}
    (h : ∀ g : Segment, g.sessionId = sessionId → ends g (max g.startedAt endedAt)) :
    Trimmed ends db.segments (closeSegment db sessionId endedAt).segments := by
  refine Library.forall₂_updateWhere (fun g _ _ => .same g) fun g _ hsel => ?_
  rw [Bool.and_eq_true, beq_iff_eq, Segment.isOpen_iff] at hsel
  exact .ended g _ hsel.2 (h g hsel.1)

theorem Closes.trimmed {ends : Segment → Int → Prop} {now : Int} {c : Closing} {db db' : Database}
    (h : Closes now c db db')
    (hends : ∀ g : Segment, db.sessionIs c.ofSegments g.sessionId = true →
      ends g (c.stamp now g.startedAt)) : Trimmed ends db.segments db'.segments := by
  rw [h.segments]
  refine Library.forall₂_updateWhere (fun g _ _ => .same g) fun g _ hsel => ?_
  rw [Bool.and_eq_true, Segment.isOpen_iff] at hsel
  exact .ended g _ hsel.1 (hends g hsel.2)

theorem Closes.fixed {now : Int} {c : Closing} {db db' : Database} (h : Closes now c db db') :
    db'.workSessions.map WorkSession.fixed = db.workSessions.map WorkSession.fixed := by
  rw [h.workSessions]
  exact Library.map_updateWhere (c.fixed_endSession now) _

/-- **An operation other than a heartbeat only ends open segments**, at its clock or, where it stamps
`GREATEST`, at the start of a segment that begins later. -/
theorem adminEffect_trimmed (db : Database) (op : WorkOp) (hop : ¬ op.IsSync) :
    Ensures (op.run db) fun db' =>
      db'.workSessions.map WorkSession.fixed = db.workSessions.map WorkSession.fixed ∧
      db.nextId ≤ db'.nextId ∧
      Trimmed (fun g e => ∃ now, op.clock = some now ∧ (e = now ∨ e = max now g.startedAt))
        db.segments db'.segments := by
  by_cases hcompact : op.IsCompaction
  · cases op with
    | deleteStateEventsBefore cutoff =>
      exact Library.ensures_ok.mpr ⟨rfl, le_rfl, Trimmed.refl _ _⟩
    | _ => cases hcompact
  refine (adminEffect db op hop hcompact).mono ?_
  have hsame : ∀ db', SameWork db db' →
      db'.workSessions.map WorkSession.fixed = db.workSessions.map WorkSession.fixed ∧
      db.nextId ≤ db'.nextId ∧
      Trimmed (fun g e => ∃ now, op.clock = some now ∧ (e = now ∨ e = max now g.startedAt))
        db.segments db'.segments := by
    intro db' h
    rw [h.workSessions, h.segments]
    exact ⟨rfl, h.nextId_le, Trimmed.refl _ _⟩
  rintro db' (h | ⟨now, hclock, h | ⟨c, _, h⟩⟩)
  · exact hsame db' h
  · exact hsame db' h
  · refine ⟨h.fixed, h.nextId_le, h.trimmed fun g _ => ⟨now, hclock, ?_⟩⟩
    unfold Closing.stamp
    by_cases hgreatest : c.greatest = true
    · exact .inr (if_pos hgreatest)
    · exact .inl (if_neg hgreatest)

/-! ## What the statements of a heartbeat find and write -/

/-- The device's live session. -/
theorem deviceSession_mem {db : Database} {call : SyncCall} {session : WorkSession}
    (h : deviceSession db call = some session) :
    session ∈ db.workSessions ∧ session.live ∧ session.deviceId = call.device.id := by
  have hm := List.mem_filter.mp (latestBy_mem h)
  rw [Bool.and_eq_true, beq_iff_eq] at hm
  exact ⟨hm.1, hm.2.2, hm.2.1⟩

/-- The owner's live session on another device. -/
theorem otherSession_mem {db : Database} {call : SyncCall} {other : WorkSession}
    (h : otherSession db call = some other) :
    other ∈ db.workSessions ∧ other.live ∧ other.deviceId ≠ call.device.id ∧
      ∃ u, call.device.ownerUserId = some u ∧ other.userId = some u := by
  unfold otherSession at h
  obtain ⟨u, hu, hlatest⟩ := Option.bind_eq_some_iff.mp h
  have hm := List.mem_filter.mp (latestBy_mem hlatest)
  simp only [Bool.and_eq_true, beq_iff_eq, bne_iff_ne] at hm
  exact ⟨hm.1, hm.2.2, hm.2.1.2, u, hu, hm.2.1.1⟩

/-- `INSERT INTO work_sessions`. -/
theorem insertWorkSession_ensures (db : Database) (row : WorkSession) :
    Ensures (insertWorkSession db row) fun db' =>
      liveSlotTaken db row = false ∧
        db' = { db with workSessions := db.workSessions ++ [row], nextId := db.nextId + 1 } := by
  refine ensures_ite (fun _ => by simp) fun _ => ensures_ite (fun _ => by simp) fun hslot => ?_
  rw [Library.ensures_ok]
  exact ⟨by simpa using hslot, rfl⟩

/-- The unique indexes let a new live row in only where no live session stands in its way. -/
theorem liveSlotTaken_eq_false {db : Database} {row : WorkSession} :
    liveSlotTaken db row = false ↔ ∀ ws ∈ db.workSessions, ws.live →
      ws.deviceId ≠ row.deviceId ∧ (ws.userId = row.userId → row.userId = none) := by
  unfold liveSlotTaken
  rw [List.any_eq_false]
  refine forall₂_congr fun ws _ => ?_
  cases hl : ws.live <;> simp

/-- The insert of the receipt, which has a `CHECK` on the idle time. -/
theorem recordEvent_ensures (now : Int) (db : Database) (call : SyncCall) (adm : Admission)
    (observed : Int) (sessionId : Option Nat) :
    Ensures (recordEvent now db call adm observed sessionId) fun db' =>
      (call.eventId.isSome → 0 ≤ call.idleSeconds) ∧
      db' = { db with
        agentStateEvents := db.agentStateEvents ++
          (call.eventId.map (newReceipt now call adm observed sessionId)).toList } := by
  unfold recordEvent
  cases call.eventId with
  | none => simp
  | some eventId =>
    refine ensures_ite (fun _ => by simp) fun hcheck => ensures_ite (fun _ => by simp) fun _ => ?_
    rw [Library.ensures_ok]
    refine ⟨fun _ => ?_, rfl⟩
    exact not_lt.mp fun hneg => hcheck (.inl hneg)

end Dayfinch
