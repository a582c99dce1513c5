/-
# Dayfinch.Work.SyncEffect -- what an accepted heartbeat does, once for all proofs

An accepted heartbeat at the (clamped) instant `observed` goes through two phases. First it ends
segments: `SyncEnd` lists the four ways, with the instant each one writes. Then it may begin one:
`SyncOutcome` says whether the device's session stayed, a session was opened, or a paused one was
resumed. `acceptEvent_effect` reads both phases and the receipt off the transaction; the claims about
whole runs are inductions over this lemma.
-/
import Dayfinch.Work.StoreInvariant

namespace Dayfinch

open Library (updateWhere)

/-! ## The two phases -/

/-- The lease has run out since the previous receipt, and that receipt was an active one: the gap is
cut. -/
def Lapsed (previous : Option AgentStateEvent) (interval observed : Int) : Prop :=
  ∃ p, previous = some p ∧ p.status = .active ∧ leaseExpired p interval observed = true

/-- The device's session goes on: no gap is cut, and the event is for its task and project. -/
structure Kept (previous : Option AgentStateEvent) (observed : Int) (db : Database) (call : SyncCall)
    (adm : Admission) (session : WorkSession) : Prop where
  session_eq : deviceSession db call = some session
  not_lapsed : ¬ Lapsed previous call.heartbeatIntervalSeconds observed
  same_task : session.taskId = call.taskId
  same_project : session.projectId = adm.projectId

/-- The lapse of `Lapsed`, computed. -/
def lapsed (previous : Option AgentStateEvent) (interval observed : Int) : Bool :=
  previous.any fun p => p.status == .active && leaseExpired p interval observed

theorem lapsed_iff {previous : Option AgentStateEvent} {interval observed : Int} :
    lapsed previous interval observed = true ↔ Lapsed previous interval observed := by
  unfold lapsed Lapsed
  cases previous <;> simp

/-- The session a heartbeat goes on with: the device's, unless it lapsed or is for other work. -/
def keptSession (previous : Option AgentStateEvent) (observed : Int) (db : Database)
    (call : SyncCall) (adm : Admission) : Option WorkSession :=
  (deviceSession db call).filter fun session =>
    !lapsed previous call.heartbeatIntervalSeconds observed && session.taskId == call.taskId &&
      session.projectId == adm.projectId

theorem keptSession_eq_some {previous : Option AgentStateEvent} {observed : Int} {db : Database}
    {call : SyncCall} {adm : Admission} {session : WorkSession} :
    keptSession previous observed db call adm = some session ↔
      Kept previous observed db call adm session := by
  unfold keptSession
  rw [Option.filter_eq_some_iff, Bool.and_eq_true, Bool.and_eq_true, Bool.not_eq_true', beq_iff_eq,
    beq_iff_eq, ← Bool.not_eq_true, lapsed_iff]
  exact ⟨fun ⟨h, ⟨hl, ht⟩, hp⟩ => ⟨h, hl, ht, hp⟩, fun ⟨h, hl, ht, hp⟩ => ⟨h, ⟨hl, ht⟩, hp⟩⟩

/-- How a heartbeat ends a segment, and the instant it writes. -/
inductive SyncEnd (previous : Option AgentStateEvent) (observed : Int) (db : Database)
    (call : SyncCall) (adm : Admission) : Segment → Int → Prop
  /-- The owner's session on another device is taken over. -/
  | takenOver (g : Segment) (other : WorkSession) (hother : otherSession db call = some other)
      (hg : g.sessionId = other.id) (hstatus : adm.status ≠ .stopped)
      (htransition : call.transition = true) (hnewer : other.startedAt ≤ observed) :
      SyncEnd previous observed db call adm g (max g.startedAt observed)
  /-- The device's session lapsed, and is cut one heartbeat after the previous receipt. -/
  | lapsed (g : Segment) (session : WorkSession) (hsession : deviceSession db call = some session)
      (hg : g.sessionId = session.id) (p : AgentStateEvent) (hp : previous = some p)
      (hactive : p.status = .active)
      (hexpired : leaseExpired p call.heartbeatIntervalSeconds observed = true) :
      SyncEnd previous observed db call adm g (max g.startedAt (leaseEnd p))
  /-- The device's session is stopped, or left for another task or project. -/
  | ended (g : Segment) (session : WorkSession) (hsession : deviceSession db call = some session)
      (hg : g.sessionId = session.id)
      (hlapsed : ¬ Lapsed previous call.heartbeatIntervalSeconds observed)
      (hleft : adm.status = .stopped ∨ ∀ kept, ¬ Kept previous observed db call adm kept) :
      SyncEnd previous observed db call adm g (max g.startedAt observed)
  /-- The device's session is paused, less the idle time. -/
  | paused (g : Segment) (session : WorkSession) (hkept : Kept previous observed db call adm session)
      (hg : g.sessionId = session.id) (hstatus : adm.status = .paused) :
      SyncEnd previous observed db call adm g (max g.startedAt (observed - seconds call.idleSeconds))

/-- The instants at which a heartbeat ends the open segment of a session, before `GREATEST`. -/
def endInstants (previous : Option AgentStateEvent) (observed : Int) (db : Database)
    (call : SyncCall) (adm : Admission) (sessionId : Nat) : List Int :=
  let taken := (otherSession db call).any (·.id == sessionId) && adm.status != .stopped
  let own := (deviceSession db call).any (·.id == sessionId)
  (if taken then [observed] else []) ++
    if own then
      if lapsed previous call.heartbeatIntervalSeconds observed then
        (previous.map leaseEnd).toList
      else if (keptSession previous observed db call adm).isNone || adm.status == .stopped then
        [observed]
      else if adm.status == .paused then [observed - seconds call.idleSeconds]
      else []
    else []

theorem SyncEnd.mem_endInstants {previous : Option AgentStateEvent} {observed : Int} {db : Database}
    {call : SyncCall} {adm : Admission} {g : Segment} {e : Int}
    (h : SyncEnd previous observed db call adm g e) :
    ∃ t ∈ endInstants previous observed db call adm g.sessionId, e = max g.startedAt t := by
  have hown : ∀ session : WorkSession, deviceSession db call = some session →
      g.sessionId = session.id → (deviceSession db call).any (·.id == g.sessionId) = true := by
    intro session hsession hg
    simp [hsession, hg]
  have hnot : ¬ Lapsed previous call.heartbeatIntervalSeconds observed →
      ¬ Dayfinch.lapsed previous call.heartbeatIntervalSeconds observed = true := mt lapsed_iff.mp
  cases h with
  | takenOver other hother hg hstatus _ _ =>
    refine ⟨observed, List.mem_append_left _ ?_, rfl⟩
    rw [if_pos (by simp [hother, hg, hstatus])]
    exact List.mem_singleton_self _
  | lapsed session hsession hg p hp hactive hexpired =>
    refine ⟨leaseEnd p, List.mem_append_right _ ?_, rfl⟩
    rw [if_pos (hown session hsession hg), if_pos (lapsed_iff.mpr ⟨p, hp, hactive, hexpired⟩), hp]
    exact List.mem_singleton_self _
  | ended session hsession hg hlapsed hleft =>
    refine ⟨observed, List.mem_append_right _ ?_, rfl⟩
    have hends : ((keptSession previous observed db call adm).isNone || adm.status == .stopped) =
        true := by
      rcases hleft with hstopped | hnone
      · simp [hstopped]
      · cases hk : keptSession previous observed db call adm with
        | none => rfl
        | some kept => exact absurd (keptSession_eq_some.mp hk) (hnone kept)
    rw [if_pos (hown session hsession hg), if_neg (hnot hlapsed), if_pos hends]
    exact List.mem_singleton_self _
  | paused session hkept hg hstatus =>
    refine ⟨observed - seconds call.idleSeconds, List.mem_append_right _ ?_, rfl⟩
    have hends : ¬ ((keptSession previous observed db call adm).isNone || adm.status == .stopped) =
        true := by
      simp [keptSession_eq_some.mpr hkept, hstatus]
    rw [if_pos (hown session hkept.session_eq hg), if_neg (hnot hkept.not_lapsed), if_neg hends,
      if_pos (by simp [hstatus])]
    exact List.mem_singleton_self _

/-- The ending phase: the database `mid` is `db` with segments ended and sessions updated. No session
comes to life in it. -/
structure Ends (ends : Segment → Int → Prop) (db mid : Database) : Prop where
  frame : mid = { db with workSessions := mid.workSessions, segments := mid.segments }
  sessions : mid.workSessions.map WorkSession.fixed = db.workSessions.map WorkSession.fixed
  segments : Trimmed ends db.segments mid.segments
  live : Keyed db → ∀ ws' ∈ mid.workSessions, ws'.live →
    ∃ ws ∈ db.workSessions, ws.live ∧ ws.fixed = ws'.fixed

/-- The beginning phase: from `mid` to the database before the receipt is written, with the session
the event belongs to. -/
inductive SyncOutcome (now : Int) (previous : Option AgentStateEvent) (observed : Int)
    (db : Database) (call : SyncCall) (adm : Admission) (mid : Database) :
    Database → Option Nat → Prop
  | stayed (sessionId : Option Nat) :
      SyncOutcome now previous observed db call adm mid mid sessionId
  | opened (row : WorkSession) (hrow : row = newWorkSession now mid call adm observed)
      (hstatus : adm.status ≠ .stopped) (hslot : liveSlotTaken mid row = false)
      (hnone : ∀ session, ¬ Kept previous observed db call adm session) (db' : Database)
      (hdb' : db' =
        { mid with workSessions := mid.workSessions ++ [row], nextId := mid.nextId + 1 }) :
      SyncOutcome now previous observed db call adm mid
        (if adm.status = .active then startSegment db' row.id observed else db') (some row.id)
  | resumed (session : WorkSession) (hkept : Kept previous observed db call adm session)
      (hactive : adm.status = .active) (hpaused : session.status = .paused) :
      SyncOutcome now previous observed db call adm mid
        (startSegment mid session.id observed) (some session.id)

/-! ## The ending phase, statement by statement -/

section

variable {previous : Option AgentStateEvent} {observed : Int} {db mid : Database} {call : SyncCall}
  {adm : Admission} {ends : Segment → Int → Prop}

theorem Ends.refl (ends : Segment → Int → Prop) (db : Database) : Ends ends db db :=
  ⟨rfl, rfl, Trimmed.refl _ _, fun _ ws hws hlive => ⟨ws, hws, hlive, rfl⟩⟩

theorem Ends.nextId_eq (h : Ends ends db mid) : mid.nextId = db.nextId := by
  rw [h.frame]

theorem Ends.stopSession (h : Ends ends db mid) {sessionId : Nat} {endedAt : Int}
    (hends : ∀ g : Segment, g.sessionId = sessionId → ends g (max g.startedAt endedAt)) :
    Ends ends db (stopSession mid sessionId endedAt) := by
  refine ⟨?_, ?_, h.segments.trans (closeSegment_trimmed hends), fun hkeyed ws' hws' hlive => ?_⟩
  · rw [h.frame]
    rfl
  · rw [← h.sessions]
    exact Library.map_updateWhere (WorkSession.fixed_stop endedAt) _
  · rcases Library.mem_updateWhere_cases hws' with ⟨hold, _⟩ | ⟨ws, _, _, rfl⟩
    · exact h.live hkeyed ws' hold hlive
    · cases hlive

/-- A stopped session has no open segment left. -/
theorem stopSession_closes {sessionId : Nat} {endedAt : Int} :
    ∀ g ∈ (Dayfinch.stopSession db sessionId endedAt).segments, g.sessionId = sessionId →
      g.endedAt ≠ none := by
  intro g hg hsid
  rcases Library.mem_updateWhere_cases hg with ⟨_, hsel⟩ | ⟨g0, _, _, rfl⟩
  · intro hnone
    simp [hsid, hnone, Segment.isOpen] at hsel
  · exact Option.some_ne_none _

theorem takeOver_ends {status : SessionStatus} {db' : Database} (hstatus : adm.status = status)
    (h : takeOver db call status observed = .ok db') :
    Ends (SyncEnd previous observed db call adm) db db' := by
  unfold takeOver at h
  by_cases hs : status = .stopped
  · rw [if_pos hs] at h
    cases h
    exact Ends.refl _ _
  rw [if_neg hs] at h
  cases hother : otherSession db call with
  | none =>
    rw [hother] at h
    cases h
    exact Ends.refl _ _
  | some other =>
    simp only [hother] at h
    obtain ⟨_, htransition, h⟩ := Library.bind_eq_ok.mp h
    obtain ⟨_, hnewer, h⟩ := Library.bind_eq_ok.mp h
    rw [raiseIf_eq_ok] at htransition hnewer
    cases h
    refine (Ends.refl _ _).stopSession fun g hg => ?_
    exact .takenOver g other hother hg (hstatus ▸ hs) (by simpa using htransition)
      (not_lt.mp hnewer)

/-- The gap cut: the session lapsed and is stopped, or nothing happens. -/
theorem cutGap_cases (db : Database) (interval : Int) (previous : Option AgentStateEvent)
    (observed : Int) (session : Option WorkSession) :
    (∃ p s, previous = some p ∧ session = some s ∧ p.status = .active ∧
      leaseExpired p interval observed = true ∧
      cutGap db interval previous observed session = (stopSession db s.id (leaseEnd p), none)) ∨
    ((∀ s, session = some s → ¬ Lapsed previous interval observed) ∧
      cutGap db interval previous observed session = (db, session)) := by
  unfold cutGap
  cases previous with
  | none => exact .inr ⟨fun _ _ ⟨_, hp, _⟩ => (nomatch hp), rfl⟩
  | some p =>
    cases session with
    | none => exact .inr ⟨fun _ hs => (nomatch hs), rfl⟩
    | some s =>
      by_cases hc : p.status = .active ∧ leaseExpired p interval observed = true
      · exact .inl ⟨p, s, rfl, rfl, hc.1, hc.2, if_pos hc⟩
      · refine .inr ⟨?_, if_neg hc⟩
        rintro _ _ ⟨q, hq, hactive, hexpired⟩
        cases hq
        exact hc ⟨hactive, hexpired⟩

/-- The switch of task or project: the session is stopped, or it is for this work. -/
theorem leaveWork_cases (db : Database) (taskId projectId : Option Nat) (observed : Int)
    (session : Option WorkSession) :
    (∃ s, session = some s ∧ ¬ (s.taskId = taskId ∧ s.projectId = projectId) ∧
      leaveWork db taskId projectId observed session = (stopSession db s.id observed, none)) ∨
    ((∀ s, session = some s → s.taskId = taskId ∧ s.projectId = projectId) ∧
      leaveWork db taskId projectId observed session = (db, session)) := by
  unfold leaveWork
  cases session with
  | none => exact .inr ⟨fun _ hs => (nomatch hs), rfl⟩
  | some s =>
    by_cases hc : s.taskId ≠ taskId ∨ s.projectId ≠ projectId
    · exact .inl ⟨s, rfl, not_and_or.mpr hc, if_pos hc⟩
    · refine .inr ⟨?_, if_neg hc⟩
      rintro _ ⟨⟩
      rw [not_or, not_not, not_not] at hc
      exact hc

theorem leaseEnd_le {p : AgentStateEvent} {interval observed : Int}
    (h : leaseExpired p interval observed = true) : leaseEnd p ≤ observed := by
  unfold leaseExpired at h
  unfold leaseEnd
  have hlease : p.heartbeatIntervalSeconds ≤ leaseSeconds p.heartbeatIntervalSeconds interval := by
    unfold leaseSeconds
    omega
  have hgap := of_decide_eq_true h
  unfold seconds at *
  omega

/-- The session that is left after the gap cut and the switch of work. -/
def SessionLeft (previous : Option AgentStateEvent) (observed : Int) (db : Database)
    (call : SyncCall) (adm : Admission) (mid : Database) : Option WorkSession → Prop
  | some session => Kept previous observed db call adm session
  | none =>
    (∀ session, ¬ Kept previous observed db call adm session) ∧
      ∀ session, deviceSession db call = some session →
        ∀ g ∈ mid.segments, g.sessionId = session.id → g.endedAt ≠ none

/-- The gap cut and the switch of work together. -/
theorem cutGap_leaveWork_ends {db1 : Database}
    (h1 : Ends (SyncEnd previous observed db call adm) db db1) :
    let cut := cutGap db1 call.heartbeatIntervalSeconds previous observed (deviceSession db call)
    let left := leaveWork cut.1 call.taskId adm.projectId observed cut.2
    Ends (SyncEnd previous observed db call adm) db left.1 ∧
      SessionLeft previous observed db call adm left.1 left.2 := by
  intro cut left
  rcases cutGap_cases db1 call.heartbeatIntervalSeconds previous observed (deviceSession db call) with
    ⟨p, s, hp, hs, hactive, hexpired, hcut⟩ | ⟨hlapsed, hcut⟩
  · have hleft : left = (stopSession db1 s.id (leaseEnd p), none) := by
      show leaveWork cut.1 _ _ _ cut.2 = _
      rw [show cut = _ from hcut]
      rfl
    rw [hleft]
    refine ⟨h1.stopSession fun g hg => .lapsed g s hs hg p hp hactive hexpired, ?_, ?_⟩
    · intro session hkept
      exact hkept.not_lapsed ⟨p, hp, hactive, hexpired⟩
    · intro session hsession
      rw [hs] at hsession
      cases hsession
      exact stopSession_closes
  · have hleft : left = leaveWork db1 call.taskId adm.projectId observed (deviceSession db call) := by
      show leaveWork cut.1 _ _ _ cut.2 = _
      rw [show cut = _ from hcut]
    rcases leaveWork_cases db1 call.taskId adm.projectId observed (deviceSession db call) with
      ⟨s, hs, hother, hleave⟩ | ⟨hsame, hleave⟩
    · have hnone : ∀ session, ¬ Kept previous observed db call adm session := by
        intro session hkept
        have heq := hkept.session_eq
        rw [hs] at heq
        cases heq
        exact hother ⟨hkept.same_task, hkept.same_project⟩
      rw [hleft, hleave]
      refine ⟨h1.stopSession fun g hg => .ended g s hs hg (hlapsed s hs) (.inr hnone), hnone, ?_⟩
      · intro session hsession
        rw [hs] at hsession
        cases hsession
        exact stopSession_closes
    · rw [hleft, hleave]
      refine ⟨h1, ?_⟩
      cases hd : deviceSession db call with
      | none =>
        refine ⟨fun session hkept => ?_, fun session hsession => ?_⟩
        · have heq := hkept.session_eq
          rw [hd] at heq
          cases heq
        · rw [hd] at hsession
          cases hsession
      | some s =>
        obtain ⟨htask, hproject⟩ := hsame s hd
        exact ⟨hd, hlapsed s hd, htask, hproject⟩

/-! ## The beginning phase -/

/-- No open segment of the device's session outlives a lapsed lease. -/
def OpenKept (previous : Option AgentStateEvent) (observed : Int) (db : Database) (call : SyncCall)
    (mid : Database) : Prop :=
  ∀ session, deviceSession db call = some session → ∀ g ∈ mid.segments, g.sessionId = session.id →
    g.endedAt = none → ¬ Lapsed previous call.heartbeatIntervalSeconds observed

theorem SessionLeft.openKept {session : Option WorkSession}
    (h : SessionLeft previous observed db call adm mid session) :
    OpenKept previous observed db call mid := by
  intro s hs g hg hsid hopen
  cases session with
  | none => exact absurd hopen (h.2 s hs g hg hsid)
  | some kept => exact Kept.not_lapsed h

theorem Ends.continueAs (h : Ends ends db mid) {session : WorkSession}
    (hsession : deviceSession db call = some session) (status : SessionStatus) (note : String)
    (now : Int) :
    Ends ends db { mid with
      workSessions := updateWhere (·.id == session.id) (WorkSession.continueAs status note now)
        mid.workSessions } := by
  refine ⟨?_, ?_, h.segments, fun hkeyed ws' hws' hlive => ?_⟩
  · rw [h.frame]
  · rw [← h.sessions]
    exact Library.map_updateWhere (WorkSession.fixed_continueAs status note now) _
  · rcases Library.mem_updateWhere_cases hws' with ⟨hold, _⟩ | ⟨ws, hold, hid, rfl⟩
    · exact h.live hkeyed ws' hold hlive
    · -- the row that goes on is the device's live session
      obtain ⟨hmem, hsessionLive, _⟩ := deviceSession_mem hsession
      have hfixed : ws.fixed ∈ db.workSessions.map WorkSession.fixed :=
        h.sessions ▸ List.mem_map_of_mem hold
      obtain ⟨ws0, hws0, heq⟩ := List.mem_map.mp hfixed
      have hid0 : ws0.id = ws.id := (congrArg WorkSession.id heq :)
      obtain rfl : ws0 = session :=
        hkeyed.sessionKeys.eq hws0 hmem (hid0.trans (by simpa using hid))
      exact ⟨ws0, hmem, hsessionLive, heq⟩

/-- The state change of a heartbeat. -/
theorem applyStatus_outcome {now : Int} {session : Option WorkSession} {written : Database}
    {sessionId : Option Nat} (h : Ends (SyncEnd previous observed db call adm) db mid)
    (hleft : SessionLeft previous observed db call adm mid session)
    (hok : applyStatus now mid call adm observed session = .ok (written, sessionId)) :
    ∃ mid', Ends (SyncEnd previous observed db call adm) db mid' ∧
      OpenKept previous observed db call mid' ∧
      SyncOutcome now previous observed db call adm mid' written sessionId := by
  have hopenKept := hleft.openKept
  unfold applyStatus at hok
  cases session with
  | none =>
    by_cases hst : adm.status = .stopped
    · rw [hst] at hok
      cases hok
      exact ⟨mid, h, hopenKept, .stayed none⟩
    · have hopen : (openSession now mid call adm observed >>=
          fun r => (.ok (r.1, some r.2) : Except Error (Database × Option Nat))) =
            .ok (written, sessionId) := by
        cases hs : adm.status with
        | stopped => exact absurd hs hst
        | active | paused =>
          rw [hs] at hok
          exact hok
      obtain ⟨r, hr, hw⟩ := Library.bind_eq_ok.mp hopen
      obtain ⟨db', hinsert, hr⟩ := Library.bind_eq_ok.mp hr
      obtain ⟨hslot, hdb'⟩ := insertWorkSession_ensures mid _ db' hinsert
      cases hr
      cases hw
      exact ⟨mid, h, hopenKept, .opened _ rfl hst hslot hleft.1 db' hdb'⟩
  | some session =>
    have hkept : Kept previous observed db call adm session := hleft
    by_cases hst : adm.status = .stopped
    · rw [hst] at hok
      cases hok
      refine ⟨_, h.stopSession fun g hg => ?_, fun _ _ _ _ _ _ => hkept.not_lapsed, .stayed none⟩
      exact .ended g session hkept.session_eq hg hkept.not_lapsed (.inl hst)
    · have hcont : written = continueSession now mid call adm.status observed session ∧
          sessionId = some session.id := by
        cases hs : adm.status with
        | stopped => exact absurd hs hst
        | active | paused =>
          rw [hs] at hok
          cases hok
          exact ⟨rfl, rfl⟩
      obtain ⟨rfl, rfl⟩ := hcont
      have hnot : ∀ db1, OpenKept previous observed db call db1 :=
        fun _ _ _ _ _ _ _ => hkept.not_lapsed
      unfold continueSession moveSegment
      by_cases hpause : adm.status = .paused ∧ session.status = .active
      · rw [if_pos hpause]
        have hclosed : Ends (SyncEnd previous observed db call adm) db
            (closeSegment mid session.id (observed - seconds call.idleSeconds)) := by
          refine ⟨?_, h.sessions, h.segments.trans (closeSegment_trimmed fun g hg => ?_), h.live⟩
          · rw [h.frame]
            rfl
          · exact .paused g session hkept hg hpause.1
        exact ⟨_, hclosed.continueAs hkept.session_eq adm.status _ now, hnot _, .stayed _⟩
      · rw [if_neg hpause]
        by_cases hresume : adm.status = .active ∧ session.status = .paused
        · rw [if_pos hresume]
          exact ⟨_, h.continueAs hkept.session_eq adm.status _ now, hnot _,
            .resumed session hkept hresume.1 hresume.2⟩
        · rw [if_neg hresume]
          exact ⟨_, h.continueAs hkept.session_eq adm.status _ now, hnot _, .stayed _⟩

end

/-! ## The whole heartbeat -/

/-- What an accepted heartbeat does: it ends segments, then begins or continues a session, then
writes its receipt. -/
inductive Accepted (now : Int) (previous : Option AgentStateEvent) (observed : Int) (db : Database)
    (call : SyncCall) (adm : Admission) (db' : Database) : Prop
  | intro (mid written : Database) (sessionId : Option Nat)
      (ends : Ends (SyncEnd previous observed db call adm) db mid)
      (openKept : OpenKept previous observed db call mid)
      (outcome : SyncOutcome now previous observed db call adm mid written sessionId)
      (idle : call.eventId.isSome → 0 ≤ call.idleSeconds)
      (recorded : db' = { written with
        agentStateEvents := written.agentStateEvents ++
          (call.eventId.map (newReceipt now call adm observed sessionId)).toList })

/-- Where a segment and its session come from, after an accepted heartbeat. -/
inductive SegmentOrigin (previous : Option AgentStateEvent) (observed : Int) (db : Database)
    (call : SyncCall) (adm : Admission) (g : Segment) (ws : WorkSession) : Prop
  /-- The segment was there, and is as it was or ended by the heartbeat. -/
  | kept (g0 : Segment) (hg0 : g0 ∈ db.segments) (ws0 : WorkSession) (hws0 : ws0 ∈ db.workSessions)
      (hid : ws0.id = g0.sessionId) (huser : ws0.userId = ws.userId)
      (hdevice : ws0.deviceId = ws.deviceId)
      (hended : SegmentEnded (SyncEnd previous observed db call adm) g0 g)
      (hopen : g.endedAt = none → deviceSession db call = some ws0 →
        ¬ Lapsed previous call.heartbeatIntervalSeconds observed)
  /-- The heartbeat opened the session and started the segment. -/
  | opened (hactive : adm.status = .active) (hstart : g.startedAt = observed)
      (hopen : g.endedAt = none) (hdevice : ws.deviceId = call.device.id)
      (huser : ws.userId = call.device.ownerUserId)
      (hnone : ∀ session, ¬ Kept previous observed db call adm session)
  /-- The heartbeat resumed the device's paused session and started the segment. -/
  | resumed (hactive : adm.status = .active) (hstart : g.startedAt = observed)
      (hopen : g.endedAt = none) (session : WorkSession)
      (hkept : Kept previous observed db call adm session) (hpaused : session.status = .paused)
      (huser : ws.userId = session.userId) (hdevice : ws.deviceId = session.deviceId)

section

variable {now : Int} {previous : Option AgentStateEvent} {observed : Int} {db db' : Database}
  {call : SyncCall} {adm : Admission}

/-- **The origin of every segment after an accepted heartbeat.** -/
theorem Accepted.origin (hacc : Accepted now previous observed db call adm db')
    (hinv : StoreInvariant db) (hinv' : StoreInvariant db') {g : Segment} (hg : g ∈ db'.segments)
    {ws : WorkSession} (hws : ws ∈ db'.workSessions) (hid : ws.id = g.sessionId) :
    SegmentOrigin previous observed db call adm g ws := by
  obtain ⟨mid, written, sessionId, hends, hopenKept, houtcome, _, hdb'⟩ := hacc
  have hws' : db'.workSessions = written.workSessions := by rw [hdb']
  have hseg' : db'.segments = written.segments := by rw [hdb']
  -- A segment of the ending phase, with a session of that phase, was there before.
  have hkept : g ∈ mid.segments → ws ∈ mid.workSessions →
      SegmentOrigin previous observed db call adm g ws := by
    intro hgm hwm
    obtain ⟨g0, hg0, hgg⟩ := Library.exists_of_forall₂_right hends.segments hgm
    obtain ⟨ws0, hws0, hwid, hwuser, hwdev, _⟩ := exists_of_fixed hends.sessions hwm
    refine .kept g0 hg0 ws0 hws0 ?_ hwuser hwdev hgg fun hopen hsession => ?_
    · rw [hwid, hid, hgg.start_eq.2.1]
    · exact hopenKept ws0 hsession g hgm (by rw [hwid, hid]) hopen
  cases houtcome with
  | stayed => exact hkept (hseg' ▸ hg) (hws' ▸ hws)
  | opened row hrow hstatus hslot hnone db1 hdb1 =>
    have hrowId : row.id = db.nextId := by rw [hrow, ← hends.nextId_eq]; rfl
    have hrowMem : row ∈ db'.workSessions := by
      rw [hws', hdb1]
      split <;> exact List.mem_append_right _ (List.mem_singleton_self _)
    have hmid : g ∈ mid.segments → SegmentOrigin previous observed db call adm g ws := by
      intro hgm
      refine hkept hgm ?_
      -- the new row has no segment from before
      have hmem : ws ∈ mid.workSessions ++ [row] := by
        rw [hws', hdb1] at hws
        by_cases hactive : adm.status = .active
        · rwa [if_pos hactive] at hws
        · rwa [if_neg hactive] at hws
      rcases List.mem_append.mp hmem with hm | hm
      · exact hm
      · obtain ⟨g0, hg0, hgg⟩ := Library.exists_of_forall₂_right hends.segments hgm
        obtain ⟨ws0, hws0, hid0⟩ := hinv.segmentSession g0 hg0
        have hlt := hinv.sessionIds ws0 hws0
        rw [List.mem_singleton.mp hm, hrowId, hgg.start_eq.2.1, ← hid0] at hid
        exact absurd hid hlt.ne'
    by_cases hactive : adm.status = .active
    · rw [if_pos hactive, hdb1] at hseg'
      rw [hseg'] at hg
      rcases List.mem_append.mp hg with hold | hnew
      · exact hmid hold
      · obtain rfl := List.mem_singleton.mp hnew
        obtain rfl : ws = row := hinv'.sessionKeys.eq hws hrowMem hid
        exact .opened hactive rfl rfl (hrow ▸ rfl) (hrow ▸ rfl) hnone
    · rw [if_neg hactive, hdb1] at hseg'
      exact hmid (hseg' ▸ hg)
  | resumed session hkeptSession hactive hpaused =>
    rw [hseg'] at hg
    rcases List.mem_append.mp hg with hold | hnew
    · exact hkept hold (hws' ▸ hws)
    · obtain rfl := List.mem_singleton.mp hnew
      obtain ⟨ws0, hws0, hwid, hwuser, hwdev, _⟩ := exists_of_fixed hends.sessions (hws' ▸ hws)
      obtain rfl : ws0 = session :=
        hinv.sessionKeys.eq hws0 (deviceSession_mem hkeptSession.session_eq).1 (hwid.trans hid)
      exact .resumed hactive rfl rfl ws0 hkeptSession hpaused hwuser.symm hwdev.symm

/-- A heartbeat writes sessions, segments and receipts, and draws identifiers. -/
theorem Accepted.frame (hacc : Accepted now previous observed db call adm db') :
    db' = { db with
      workSessions := db'.workSessions
      segments := db'.segments
      agentStateEvents := db'.agentStateEvents
      nextId := db'.nextId } := by
  obtain ⟨mid, written, sessionId, hends, _, houtcome, _, hdb'⟩ := hacc
  have hwritten : written = { db with
      workSessions := written.workSessions
      segments := written.segments
      nextId := written.nextId } := by
    cases houtcome with
    | stayed =>
      rw [hends.frame]
    | opened row _ _ _ _ db1 hdb1 =>
      rw [hdb1, hends.frame]
      split <;> rfl
    | resumed =>
      rw [hends.frame]
      rfl
  rw [hdb', hwritten]

theorem Accepted.nextId_le (hacc : Accepted now previous observed db call adm db') :
    db.nextId ≤ db'.nextId := by
  obtain ⟨mid, written, sessionId, hends, _, houtcome, _, hdb'⟩ := hacc
  have hwritten : mid.nextId ≤ written.nextId := by
    cases houtcome with
    | stayed => exact le_rfl
    | opened row _ _ _ _ db1 hdb1 =>
      rw [hdb1]
      split
      · exact Nat.le_add_right _ 2
      · exact Nat.le_succ _
    | resumed => exact Nat.le_succ _
  rw [hdb', ← hends.nextId_eq]
  exact hwritten

/-- The receipts after an accepted heartbeat. -/
theorem Accepted.receipts (hacc : Accepted now previous observed db call adm db') :
    (call.eventId.isSome → 0 ≤ call.idleSeconds) ∧ ∃ sessionId, db'.agentStateEvents =
      db.agentStateEvents ++
        (call.eventId.map (newReceipt now call adm observed sessionId)).toList := by
  obtain ⟨mid, written, sessionId, hends, _, houtcome, hidle, hdb'⟩ := hacc
  have hmid : mid.agentStateEvents = db.agentStateEvents := by rw [hends.frame]
  have hwritten : written.agentStateEvents = mid.agentStateEvents := by
    cases houtcome with
    | stayed => rfl
    | opened row _ _ _ _ db1 hdb1 =>
      rw [hdb1]
      split <;> rfl
    | resumed => rfl
  refine ⟨hidle, sessionId, ?_⟩
  rw [hdb']
  show written.agentStateEvents ++ _ = _
  rw [hwritten, hmid]

end

/-- **What the transaction does to the database when it succeeds.** -/
theorem acceptEvent_effect {tie : AgentStateEvent → Nat} {now : Int} {db db' : Database}
    {call : SyncCall} {adm : Admission} {row : Option WorkSession}
    (h : acceptEvent tie now db call adm = .ok (db', row)) :
    Accepted now (previousReceipt tie db call)
      (clampToPrevious (previousReceipt tie db call) adm.observed) db call adm db' := by
  unfold acceptEvent at h
  obtain ⟨db1, htake, h⟩ := Library.bind_eq_ok.mp h
  obtain ⟨hends, hleft⟩ := cutGap_leaveWork_ends (takeOver_ends rfl htake)
  obtain ⟨⟨written, sessionId⟩, happly, h⟩ := Library.bind_eq_ok.mp h
  obtain ⟨mid, hmid, hopen, houtcome⟩ := applyStatus_outcome hends hleft happly
  obtain ⟨db5, hrecord, h⟩ := Library.bind_eq_ok.mp h
  obtain ⟨hidle, hrecorded⟩ := recordEvent_ensures _ _ _ _ _ _ db5 hrecord
  cases h
  exact .intro mid written sessionId hmid hopen houtcome hidle hrecorded

/-- What the checks before the transaction require and pass on. -/
structure Admitted (now : Int) (db : Database) (call : SyncCall) (adm : Admission) : Prop where
  owner : adm.owner = call.device.ownerUserId.bind db.getUser
  active :
    admitActive now db call adm.status adm.owner (call.selectedProjectId <|> call.device.projectId)
      (call.observedAt.getD (Datetime.ofInstant now)).date = .ok ()
  task : checkTask db call (call.selectedProjectId <|> call.device.projectId) = .ok adm.projectId
  observed : (call.observedAt.getD (Datetime.ofInstant now)).toUtc? = some adm.observed

theorem admitSync_eq_ok {now : Int} {db : Database} {call : SyncCall} {status : SessionStatus}
    {adm : Admission} :
    admitSync now db call status = .ok adm ↔ adm.status = status ∧ Admitted now db call adm := by
  unfold admitSync
  constructor
  · intro h
    obtain ⟨_, hactive, h⟩ := Library.bind_eq_ok.mp h
    obtain ⟨projectId, htask, h⟩ := Library.bind_eq_ok.mp h
    cases hobs : (call.observedAt.getD (Datetime.ofInstant now)).toUtc? with
    | none =>
      rw [hobs] at h
      cases h
    | some observed =>
      rw [hobs] at h
      cases h
      exact ⟨rfl, rfl, hactive, htask, hobs⟩
  · rintro ⟨rfl, howner, hactive, htask, hobs⟩
    rw [howner] at hactive
    refine Library.bind_eq_ok.mpr ⟨(), hactive, Library.bind_eq_ok.mpr ⟨adm.projectId, htask, ?_⟩⟩
    simp only [hobs, ← howner]

/-- **What the transaction of a heartbeat does when it succeeds**: nothing, or what an accepted event
does. -/
theorem syncTransaction_effect {tie : AgentStateEvent → Nat} {now : Int} {db db' : Database}
    {call : SyncCall} {adm : Admission} {row : Option WorkSession}
    (h : syncTransaction tie now db call adm = .ok (db', row)) :
    db' = db ∨ duplicateReceipt db call = none ∧ checkDesktopPolicy db call adm = .ok () ∧
      acceptEvent tie now db call adm = .ok (db', row) := by
  obtain ⟨_, hpolicy, hevent⟩ := Library.bind_eq_ok.mp h
  cases hdup : duplicateReceipt db call with
  | some receipt =>
    rw [hdup] at hevent
    cases hevent
    exact .inl rfl
  | none =>
    rw [hdup] at hevent
    exact .inr ⟨rfl, hpolicy, hevent⟩

/-- What a heartbeat does when it succeeds. -/
theorem syncWorkSession_effect {tie : AgentStateEvent → Nat} {now : Int} {db db' : Database}
    {call : SyncCall} {row : Option WorkSession}
    (h : syncWorkSession tie now db call = .ok (db', row)) :
    db' = db ∨ ∃ adm, call.status = some adm.status ∧ Admitted now db call adm ∧
      duplicateReceipt db call = none ∧ checkDesktopPolicy db call adm = .ok () ∧
      acceptEvent tie now db call adm = .ok (db', row) := by
  unfold syncWorkSession at h
  cases hst : call.status with
  | none =>
    rw [hst] at h
    cases h
    exact .inl rfl
  | some status =>
    rw [hst] at h
    obtain ⟨adm, hadm, htransaction⟩ := Library.bind_eq_ok.mp h
    obtain ⟨hstatus, hadmitted⟩ := admitSync_eq_ok.mp hadm
    rcases syncTransaction_effect htransaction with hsame | hevent
    · exact .inl hsame
    · exact .inr ⟨adm, by rw [hstatus], hadmitted, hevent⟩

/-! ## Heartbeats as steps -/

/-- The transaction lets the heartbeat through to its changes: by policy, as a new event, and past
the owner's session on another device. -/
def letThrough (db : Database) (call : SyncCall) (adm : Admission) (observed : Int) : Bool :=
  (checkDesktopPolicy db call adm).isOk && (duplicateReceipt db call).isNone &&
    (takeOver db call adm.status observed).isOk

theorem letThrough_of_accepted {tie : AgentStateEvent → Nat} {now : Int} {db : Database}
    {call : SyncCall} {adm : Admission} {r : Database × Option WorkSession}
    (hdup : duplicateReceipt db call = none) (hpolicy : checkDesktopPolicy db call adm = .ok ())
    (haccept : acceptEvent tie now db call adm = .ok r) :
    letThrough db call adm (clampToPrevious (previousReceipt tie db call) adm.observed) = true := by
  obtain ⟨db1, htake, _⟩ := Library.bind_eq_ok.mp haccept
  simp [letThrough, hpolicy, hdup, htake, Except.isOk, Except.toBool]

/-- A condition on the heartbeats that are admitted and let through, in terms of the previous receipt
and the clamped instant that the transaction works with. -/
def heartbeatMeets
    (cond : Option AgentStateEvent → Int → Database → SyncCall → Admission → Bool) (db : Database) :
    WorkOp → Bool
  | .sync tie now call =>
    match call.status.map (admitSync now db call) with
    | some (.ok adm) =>
      let previous := previousReceipt tie db call
      let observed := clampToPrevious previous adm.observed
      !letThrough db call adm observed || cond previous observed db call adm
    | _ => true
  | _ => true

/-- **A heartbeat as a step**: it changes nothing, or its event is accepted, and then it meets every
condition asked of such heartbeats. -/
theorem step_sync_accepts (db : Database) (tie : AgentStateEvent → Nat) (now : Int) (call : SyncCall) :
    step db (.sync tie now call) = db ∨ ∃ adm row, call.status = some adm.status ∧
      Admitted now db call adm ∧
      acceptEvent tie now db call adm = .ok (step db (.sync tie now call), row) ∧
      ∀ cond, heartbeatMeets cond db (.sync tie now call) = true →
        cond (previousReceipt tie db call)
          (clampToPrevious (previousReceipt tie db call) adm.observed) db call adm = true := by
  cases hsync : syncWorkSession tie now db call with
  | error e =>
    left
    rw [step, WorkOp.run, hsync]
    rfl
  | ok r =>
    have hstep : step db (.sync tie now call) = r.1 := by
      rw [step, WorkOp.run, hsync]
      rfl
    rcases syncWorkSession_effect hsync with hsame | ⟨adm, hst, hadm, hdup, hpolicy, haccept⟩
    · exact .inl (hstep.trans hsame)
    · refine .inr ⟨adm, r.2, hst, hadm, hstep ▸ haccept, fun cond hcond => ?_⟩
      have hok : admitSync now db call adm.status = .ok adm := admitSync_eq_ok.mpr ⟨rfl, hadm⟩
      simpa [heartbeatMeets, hst, hok, letThrough_of_accepted hdup hpolicy haccept] using hcond

/-- What the accepted heartbeat of a step did. -/
theorem step_sync (db : Database) (tie : AgentStateEvent → Nat) (now : Int) (call : SyncCall) :
    step db (.sync tie now call) = db ∨ ∃ adm, call.status = some adm.status ∧
      Admitted now db call adm ∧
      Accepted now (previousReceipt tie db call)
        (clampToPrevious (previousReceipt tie db call) adm.observed) db call adm
        (step db (.sync tie now call)) ∧
      ∀ cond, heartbeatMeets cond db (.sync tie now call) = true →
        cond (previousReceipt tie db call)
          (clampToPrevious (previousReceipt tie db call) adm.observed) db call adm = true := by
  rcases step_sync_accepts db tie now call with hsame | ⟨adm, row, hst, hadm, haccept, hmeets⟩
  · exact .inl hsame
  · exact .inr ⟨adm, hst, hadm, acceptEvent_effect haccept, hmeets⟩

end Dayfinch
