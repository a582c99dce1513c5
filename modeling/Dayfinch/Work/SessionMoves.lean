/-
# Dayfinch.Work.SessionMoves -- what an accepted heartbeat makes of each session

A heartbeat stops the owner's session on another device if it takes over, and stops or continues the
session of its own device; every other session stays as it is, and one may be opened. `SessionMove` says
so row by row.
-/
import Dayfinch.Work.SyncEffect

namespace Dayfinch

open Library (updateWhere)

/-! ## Moves -/

/-- The session on another device that a heartbeat takes over. -/
def takenSession (db : Database) (call : SyncCall) (adm : Admission) : Option WorkSession :=
  if adm.status = .stopped then none else otherSession db call

/-- The instant at which a heartbeat stops the session of its device, if it does: one heartbeat after the
previous receipt where the session lapsed, and else its own. -/
def stopInstant (previous : Option AgentStateEvent) (observed : Int) (call : SyncCall)
    (adm : Admission) (session : WorkSession) : Option Int :=
  if lapsed previous call.heartbeatIntervalSeconds observed then previous.map leaseEnd
  else if session.taskId = call.taskId ∧ session.projectId = adm.projectId ∧ adm.status ≠ .stopped then
    none
  else some observed

/-- What becomes of the session of the device. -/
def ownMove (now : Int) (previous : Option AgentStateEvent) (observed : Int) (call : SyncCall)
    (adm : Admission) (session ws : WorkSession) : WorkSession :=
  match stopInstant previous observed call adm session with
  | some t => ws.stop t
  | none => ws.continueAs adm.status (cleanNote call.note) now

theorem ownMove_of_stop {now : Int} {previous : Option AgentStateEvent} {observed : Int}
    {call : SyncCall} {adm : Admission} {session : WorkSession} {t : Int}
    (h : stopInstant previous observed call adm session = some t) :
    ownMove now previous observed call adm session = WorkSession.stop t := by
  funext ws
  unfold ownMove
  rw [h]

theorem ownMove_of_none {now : Int} {previous : Option AgentStateEvent} {observed : Int}
    {call : SyncCall} {adm : Admission} {session : WorkSession}
    (h : stopInstant previous observed call adm session = none) :
    ownMove now previous observed call adm session =
      WorkSession.continueAs adm.status (cleanNote call.note) now := by
  funext ws
  unfold ownMove
  rw [h]

/-- The sessions before and after an accepted heartbeat, row by row. -/
inductive SessionMove (now : Int) (previous : Option AgentStateEvent) (observed : Int) (db : Database)
    (call : SyncCall) (adm : Admission) : WorkSession → WorkSession → Prop
  | kept (ws : WorkSession) (hown : deviceSession db call ≠ some ws)
    (htaken : takenSession db call adm ≠ some ws) : SessionMove now previous observed db call adm ws ws
  | taken (ws : WorkSession) (htaken : takenSession db call adm = some ws)
    (hnewer : ws.startedAt ≤ observed) :
    SessionMove now previous observed db call adm ws (ws.stop observed)
  | own (ws : WorkSession) (hown : deviceSession db call = some ws) :
    SessionMove now previous observed db call adm ws (ownMove now previous observed call adm ws ws)

theorem takenSession_eq {db : Database} {call : SyncCall} {adm : Admission} {other : WorkSession}
    (h : takenSession db call adm = some other) : otherSession db call = some other := by
  unfold takenSession at h
  exact (Option.ite_none_left_eq_some.mp h).2

section

variable {tie : AgentStateEvent → Nat} {now : Int} {previous : Option AgentStateEvent} {observed : Int}
  {db db' : Database} {call : SyncCall} {adm : Admission}

/-! ## Statement by statement -/

/-- The take-over touches the session it takes, and no break. -/
theorem takeOver_sessions (h : takeOver db call adm.status observed = .ok db') :
    (db'.workBreaks = db.workBreaks ∧ db'.nextId = db.nextId) ∧
      ((takenSession db call adm = none ∧ db'.workSessions = db.workSessions) ∨
        ∃ other, takenSession db call adm = some other ∧ other.startedAt ≤ observed ∧
          db'.workSessions = updateWhere (·.id == other.id) (WorkSession.stop observed) db.workSessions) := by
  unfold takeOver at h
  unfold takenSession
  by_cases hstopped : adm.status = .stopped
  · rw [if_pos hstopped] at h ⊢
    cases h
    exact ⟨⟨rfl, rfl⟩, .inl ⟨rfl, rfl⟩⟩
  · rw [if_neg hstopped] at h ⊢
    cases hother : otherSession db call with
    | none =>
      rw [hother] at h
      cases h
      exact ⟨⟨rfl, rfl⟩, .inl ⟨rfl, rfl⟩⟩
    | some other =>
      rw [hother] at h
      obtain ⟨_, _, h⟩ := Library.bind_eq_ok.mp h
      obtain ⟨_, hnewer, h⟩ := Library.bind_eq_ok.mp h
      cases h
      exact ⟨⟨rfl, rfl⟩, .inr ⟨other, rfl, not_lt.mp (raiseIf_eq_ok.mp hnewer), rfl⟩⟩

/-- What a heartbeat writes into the session of its device. -/
def ownUpdate (now : Int) (previous : Option AgentStateEvent) (observed : Int) (db : Database)
    (call : SyncCall) (adm : Admission) (rows : List WorkSession) : List WorkSession :=
  match deviceSession db call with
  | none => rows
  | some session =>
    updateWhere (·.id == session.id) (ownMove now previous observed call adm session) rows

/-- A new session: it starts at the heartbeat and has not ended. -/
structure NewSession (db : Database) (call : SyncCall) (adm : Admission) (observed : Int)
    (row : WorkSession) : Prop where
  startedAt : row.startedAt = observed
  endedAt : row.endedAt = none
  status : row.status = adm.status
  live : adm.status ≠ .stopped
  id : row.id = db.nextId
  deviceId : row.deviceId = call.device.id

/-- Without a session of the device, a heartbeat opens one unless it says stopped. -/
theorem applyStatus_none {db1 : Database} {r : Database × Option Nat}
    (h : applyStatus now db1 call adm observed none = .ok r) :
    r.1.workBreaks = db1.workBreaks ∧
      ∃ new, r.1.workSessions = db1.workSessions ++ new ∧
        ∀ row ∈ new, NewSession db1 call adm observed row := by
  unfold applyStatus at h
  by_cases hstopped : adm.status = .stopped
  · rw [hstopped] at h
    cases h
    refine ⟨rfl, [], (List.append_nil _).symm, ?_⟩
    intro row hrow
    cases hrow
  · have hopen : (openSession now db1 call adm observed >>=
        fun r => (.ok (r.1, some r.2) : Except Error (Database × Option Nat))) = .ok r := by
      cases hstatus : adm.status with
      | stopped => exact absurd hstatus hstopped
      | active | paused =>
        rw [hstatus] at h
        exact h
    obtain ⟨r1, hr1, hr⟩ := Library.bind_eq_ok.mp hopen
    obtain ⟨db2, hinsert, hr1⟩ := Library.bind_eq_ok.mp hr1
    obtain ⟨_, hdb2⟩ := insertWorkSession_ensures db1 _ db2 hinsert
    cases hr1
    cases hr
    have hsessions : (if adm.status = .active then
          startSegment db2 (newWorkSession now db1 call adm observed).id observed
        else db2).workSessions = db2.workSessions := by
      split <;> rfl
    have hbreaks : (if adm.status = .active then
          startSegment db2 (newWorkSession now db1 call adm observed).id observed
        else db2).workBreaks = db2.workBreaks := by
      split <;> rfl
    refine ⟨?_, [newWorkSession now db1 call adm observed], ?_, ?_⟩
    · show (if _ then _ else _ : Database).workBreaks = _
      rw [hbreaks, hdb2]
    · show (if _ then _ else _ : Database).workSessions = _
      rw [hsessions, hdb2]
    · intro row hrow
      rw [List.mem_singleton.mp hrow]
      exact ⟨rfl, rfl, rfl, hstopped, rfl, rfl⟩

/-- A session that is held is stopped, or goes on with the heartbeat's status. -/
theorem applyStatus_some {db1 : Database} {session : WorkSession} {r : Database × Option Nat}
    (h : applyStatus now db1 call adm observed (some session) = .ok r) :
    r.1.workBreaks = db1.workBreaks ∧
      r.1.workSessions = updateWhere (·.id == session.id)
        (fun ws => if adm.status = .stopped then ws.stop observed
          else ws.continueAs adm.status (cleanNote call.note) now) db1.workSessions := by
  unfold applyStatus at h
  by_cases hstopped : adm.status = .stopped
  · rw [hstopped] at h
    cases h
    simp only [if_pos hstopped]
    exact ⟨rfl, rfl⟩
  · have hcont : r.1 = continueSession now db1 call adm.status observed session := by
      cases hstatus : adm.status with
      | stopped => exact absurd hstatus hstopped
      | active | paused =>
        rw [hstatus] at h
        cases h
        rfl
    simp only [if_neg hstopped]
    rw [hcont]
    refine ⟨?_, ?_⟩
    · show (moveSegment db1 call adm.status observed session).workBreaks = _
      unfold moveSegment
      split
      · rfl
      · split <;> rfl
    · show updateWhere _ _ (moveSegment db1 call adm.status observed session).workSessions = _
      rw [StoreInvariant.moveSegment_workSessions]

/-- The statements about the device's session, from the gap to the state change. -/
theorem ownStatements_sessions {db1 : Database} {r : Database × Option Nat}
    (h : applyStatus now
        (leaveWork (cutGap db1 call.heartbeatIntervalSeconds previous observed (deviceSession db call)).1
          call.taskId adm.projectId observed
          (cutGap db1 call.heartbeatIntervalSeconds previous observed (deviceSession db call)).2).1
        call adm observed
        (leaveWork (cutGap db1 call.heartbeatIntervalSeconds previous observed (deviceSession db call)).1
          call.taskId adm.projectId observed
          (cutGap db1 call.heartbeatIntervalSeconds previous observed (deviceSession db call)).2).2 =
      .ok r) :
    r.1.workBreaks = db1.workBreaks ∧
      ∃ new, r.1.workSessions = ownUpdate now previous observed db call adm db1.workSessions ++ new ∧
        ∀ row ∈ new, NewSession db1 call adm observed row := by
  unfold ownUpdate
  rcases cutGap_cases db1 call.heartbeatIntervalSeconds previous observed (deviceSession db call) with
    ⟨p, session, hprevious, hsession, hactive, hexpired, hcut⟩ | ⟨hkept, hcut⟩
  · -- the gap is cut, so the heartbeat goes on without a session
    rw [hcut] at h
    obtain ⟨hbreaks, new, hnew, hrows⟩ := applyStatus_none h
    have hlapsed : lapsed previous call.heartbeatIntervalSeconds observed = true :=
      lapsed_iff.mpr ⟨p, hprevious, hactive, hexpired⟩
    refine ⟨hbreaks, new, ?_, fun row hrow => ?_⟩
    · have hstop : stopInstant previous observed call adm session = some (leaseEnd p) := by
        unfold stopInstant
        rw [if_pos hlapsed, hprevious]
        rfl
      rw [hnew, hsession]
      simp only [ownMove_of_stop hstop]
      rfl
    · obtain ⟨h1, h2, h3, h4, h5, h6⟩ := hrows row hrow
      exact ⟨h1, h2, h3, h4, h5, h6⟩
  · rw [hcut] at h
    rcases leaveWork_cases db1 call.taskId adm.projectId observed (deviceSession db call) with
      ⟨session, hsession, hdiffers, hleft⟩ | ⟨hsame, hleft⟩
    · rw [hleft] at h
      obtain ⟨hbreaks, new, hnew, hrows⟩ := applyStatus_none h
      have hnot : ¬ lapsed previous call.heartbeatIntervalSeconds observed = true :=
        mt lapsed_iff.mp (hkept session hsession)
      have hdiffers' : ¬ (session.taskId = call.taskId ∧ session.projectId = adm.projectId ∧
          adm.status ≠ .stopped) := fun hsame => hdiffers ⟨hsame.1, hsame.2.1⟩
      refine ⟨hbreaks, new, ?_, fun row hrow => ?_⟩
      · have hstop : stopInstant previous observed call adm session = some observed := by
          unfold stopInstant
          rw [if_neg hnot, if_neg hdiffers']
        rw [hnew, hsession]
        simp only [ownMove_of_stop hstop]
        rfl
      · obtain ⟨h1, h2, h3, h4, h5, h6⟩ := hrows row hrow
        exact ⟨h1, h2, h3, h4, h5, h6⟩
    · rw [hleft] at h
      cases hsession : deviceSession db call with
      | none =>
        rw [hsession] at h
        exact applyStatus_none h
      | some session =>
        rw [hsession] at h
        obtain ⟨hbreaks, hrows⟩ := applyStatus_some h
        have hnot : ¬ lapsed previous call.heartbeatIntervalSeconds observed = true :=
          mt lapsed_iff.mp (hkept session hsession)
        refine ⟨hbreaks, [], ?_, fun row hrow => by cases hrow⟩
        rw [hrows, List.append_nil]
        by_cases hstopped : adm.status = .stopped
        · have hdiffers : ¬ (session.taskId = call.taskId ∧ session.projectId = adm.projectId ∧
              adm.status ≠ .stopped) := fun hsame => hsame.2.2 hstopped
          have hstop : stopInstant previous observed call adm session = some observed := by
            unfold stopInstant
            rw [if_neg hnot, if_neg hdiffers]
          simp only [ownMove_of_stop hstop, if_pos hstopped]
        · obtain ⟨htask, hproject⟩ := hsame session hsession
          have hgoesOn : stopInstant previous observed call adm session = none := by
            unfold stopInstant
            rw [if_neg hnot, if_pos ⟨htask, hproject, hstopped⟩]
          simp only [ownMove_of_none hgoesOn, if_neg hstopped]

/-- The take-over and the statements about the device's session move different sessions. -/
theorem sessionMoves {rows : List WorkSession} (hkeyed : Keyed db)
    (htaken : (takenSession db call adm = none ∧ rows = db.workSessions) ∨
      ∃ other, takenSession db call adm = some other ∧ other.startedAt ≤ observed ∧
        rows = updateWhere (·.id == other.id) (WorkSession.stop observed) db.workSessions) :
    List.Forall₂ (SessionMove now previous observed db call adm) db.workSessions
      (ownUpdate now previous observed db call adm rows) := by
  -- a session that has the id of the one held, is it
  have hsame : ∀ {held : Option WorkSession} {session ws : WorkSession}, held = some session →
      session ∈ db.workSessions → ws ∈ db.workSessions → (ws.id == session.id) = true →
      held = some ws := by
    intro held session ws hheld hsession hws hid
    rw [hheld, hkeyed.sessionKeys.eq hws hsession (beq_iff_eq.mp hid)]
  have hother : ∀ {held : Option WorkSession} {session ws : WorkSession}, held = some session →
      (ws.id == session.id) = false → held ≠ some ws := by
    intro held session ws hheld hid hws
    rw [hheld] at hws
    rw [Option.some.inj hws] at hid
    exact absurd (beq_self_eq_true ws.id) (by rw [hid]; exact Bool.false_ne_true)
  unfold ownUpdate
  cases hown : deviceSession db call with
  | none =>
    rcases htaken with ⟨hnone, rfl⟩ | ⟨other, htaken, hnewer, rfl⟩
    · exact List.forall₂_same.mpr fun ws _ =>
        .kept ws (by rw [hown]; nofun) (by rw [hnone]; nofun)
    · have hmem := (otherSession_mem (takenSession_eq htaken)).1
      refine Library.forall₂_updateWhere (fun ws _ hid => ?_) fun ws hws hid => ?_
      · exact .kept ws (by rw [hown]; nofun) (hother htaken hid)
      · have hws' := hsame htaken hmem hws hid
        obtain rfl := Option.some.inj (htaken.symm.trans hws')
        exact .taken other htaken hnewer
  | some session =>
    have hmem := (deviceSession_mem hown).1
    have hmoves : ∀ ws ∈ db.workSessions, (ws.id == session.id) = true →
        SessionMove now previous observed db call adm ws
          (ownMove now previous observed call adm session ws) := by
      intro ws hws hid
      have hws' := hsame hown hmem hws hid
      obtain rfl := Option.some.inj (hown.symm.trans hws')
      exact .own session hown
    rcases htaken with ⟨hnone, rfl⟩ | ⟨other, htaken, hnewer, rfl⟩
    · refine Library.forall₂_updateWhere (fun ws _ hid => ?_) hmoves
      exact .kept ws (hother hown hid) (by rw [hnone]; nofun)
    · obtain ⟨hmem', _, hdevice, _⟩ := otherSession_mem (takenSession_eq htaken)
      have hdiffer : (other.id == session.id) = false := by
        refine beq_eq_false_iff_ne.mpr fun hid => hdevice ?_
        rw [hkeyed.sessionKeys.eq hmem' hmem hid]
        exact (deviceSession_mem hown).2.2
      refine Library.forall₂_updateWhere_updateWhere (fun ws _ htook hid => ?_)
        (fun ws hws htook => ?_) fun ws hws _ hid => hmoves ws hws hid
      · exact .kept ws (hother hown hid) (hother htaken htook)
      · have hws' := hsame htaken hmem' hws htook
        obtain rfl := Option.some.inj (htaken.symm.trans hws')
        exact ⟨hdiffer, .taken other htaken hnewer⟩

/-! ## The transaction -/

/-- **What an accepted heartbeat does to sessions and breaks**: it moves each session, opens one at most,
and leaves the breaks alone. -/
theorem acceptEvent_sessions {row : Option WorkSession} (hkeyed : Keyed db)
    (h : acceptEvent tie now db call adm = .ok (db', row)) :
    db'.workBreaks = db.workBreaks ∧
      ∃ rows new, List.Forall₂ (SessionMove now (previousReceipt tie db call)
          (clampToPrevious (previousReceipt tie db call) adm.observed) db call adm) db.workSessions rows ∧
        db'.workSessions = rows ++ new ∧
        ∀ row ∈ new, NewSession db call adm
          (clampToPrevious (previousReceipt tie db call) adm.observed) row := by
  unfold acceptEvent at h
  obtain ⟨db1, htake, h⟩ := Library.bind_eq_ok.mp h
  obtain ⟨r, happly, h⟩ := Library.bind_eq_ok.mp h
  obtain ⟨db5, hrecord, h⟩ := Library.bind_eq_ok.mp h
  obtain ⟨_, hrecorded⟩ := recordEvent_ensures _ _ _ _ _ _ db5 hrecord
  cases h
  generalize previousReceipt tie db call = previous at *
  generalize clampToPrevious previous adm.observed = observed at *
  obtain ⟨⟨hbreaks1, hnextId⟩, htaken⟩ := takeOver_sessions htake
  obtain ⟨hbreaks, new, hnew, hrows⟩ := ownStatements_sessions happly
  refine ⟨by rw [hrecorded]; exact hbreaks.trans hbreaks1,
    ownUpdate now previous observed db call adm db1.workSessions, new, ?_,
    by rw [hrecorded]; exact hnew, fun row hrow => ?_⟩
  · exact sessionMoves hkeyed htaken
  · obtain ⟨h1, h2, h3, h4, h5, h6⟩ := hrows row hrow
    exact ⟨h1, h2, h3, h4, h5.trans hnextId, h6⟩

end

end Dayfinch
