/-
# Dayfinch.Work.StoreInvariant -- sessions and segments stay consistent over every run

`StoreInvariant` says that sessions and segments describe the work consistently: the two partial
unique indexes hold, `ended_at` is set exactly on the stopped sessions, and a session has one open
segment while it is active and none otherwise.

Only four things happen to the two tables. Sessions end together with their open segments, one at a
time in `stopSession` or many at once in `closeWork` (`StoreInvariant.endSessions` covers both); a
session is inserted, with a segment if it starts active; a kept session changes status together with
its segments; and everything else leaves the two tables alone. One lemma for each, then one per
operation, then the run.
-/
import Dayfinch.Work.Effect

namespace Dayfinch

open Library (updateWhere mem_updateWhere UniqueKey Ensures ensures_ite latestBy_mem)

/-! ## The invariant -/

/-- Identifiers are keys, they are drawn from the counter, and a segment belongs to a session. -/
structure Keyed (db : Database) : Prop where
  sessionKeys : UniqueKey (·.id) db.workSessions
  sessionIds : ∀ ws ∈ db.workSessions, ws.id < db.nextId
  segmentKeys : UniqueKey (·.id) db.segments
  segmentIds : ∀ g ∈ db.segments, g.id < db.nextId
  segmentSession : ∀ g ∈ db.segments, ∃ ws ∈ db.workSessions, ws.id = g.sessionId

/-- A device and a user have at most one live session, and `ended_at` is set on the others. -/
structure LiveSlots (db : Database) : Prop where
  oneLivePerDevice : ∀ ws ∈ db.workSessions, ∀ ws' ∈ db.workSessions,
    ws.live → ws'.live → ws.deviceId = ws'.deviceId → ws = ws'
  oneLivePerUser : ∀ ws ∈ db.workSessions, ∀ ws' ∈ db.workSessions,
    ws.live → ws'.live → ws.userId = ws'.userId → ws.userId.isSome → ws = ws'
  stoppedIffEnded : ∀ ws ∈ db.workSessions, ws.status = .stopped ↔ ws.endedAt.isSome

/-- **The consistency of sessions and segments.** -/
structure StoreInvariant (db : Database) : Prop extends Keyed db, LiveSlots db where
  openSegments : ∀ ws ∈ db.workSessions,
    (db.openSegments ws.id).length = if ws.status = .active then 1 else 0

/-- The open segments of a session, counted. -/
theorem length_openSegments (db : Database) (sessionId : Nat) :
    (db.openSegments sessionId).length =
      db.segments.countP fun g => g.sessionId == sessionId && g.isOpen := by
  rw [Database.openSegments, List.countP_eq_length_filter]

section

variable {db db' : Database}

/-- A session is found by its id. -/
theorem Keyed.getWorkSession_eq (h : Keyed db) {ws : WorkSession} (hm : ws ∈ db.workSessions) :
    db.getWorkSession ws.id = some ws := h.sessionKeys.find?_eq hm

/-- A condition on the session of a segment is that condition on the one row with its id. -/
theorem Keyed.sessionIs_eq (h : Keyed db) {ws : WorkSession} (hm : ws ∈ db.workSessions)
    (p : WorkSession → Bool) : db.sessionIs p ws.id = p ws := by
  cases hp : p ws with
  | true =>
    rw [Database.sessionIs, List.any_eq_true]
    exact ⟨ws, hm, by simp [hp]⟩
  | false =>
    rw [Database.sessionIs, List.any_eq_false]
    intro q hq hqp
    rw [Bool.and_eq_true, beq_iff_eq] at hqp
    obtain rfl := h.sessionKeys.eq hq hm hqp.1
    simp [hp] at hqp

/-- A session that does not exist has no open segments. -/
theorem Keyed.openSegments_fresh (h : Keyed db) : (db.openSegments db.nextId).length = 0 := by
  rw [length_openSegments, List.countP_eq_zero]
  intro g hg hsel
  obtain ⟨ws, hm, hid⟩ := h.segmentSession g hg
  have hlt := h.sessionIds ws hm
  rw [Bool.and_eq_true, beq_iff_eq] at hsel
  rw [hid, hsel.1] at hlt
  exact lt_irrefl _ hlt

/-- Updates that keep the keys keep the structure. -/
theorem Keyed.update (h : Keyed db) {p : WorkSession → Bool} {f : WorkSession → WorkSession}
    {q : Segment → Bool} {e : Segment → Segment} (hf : ∀ ws, (f ws).id = ws.id)
    (he : ∀ g, (e g).id = g.id ∧ (e g).sessionId = g.sessionId)
    (hws : db'.workSessions = updateWhere p f db.workSessions)
    (hseg : db'.segments = updateWhere q e db.segments) (hid : db.nextId ≤ db'.nextId) :
    Keyed db' := by
  have hsegs : ∀ g' ∈ db'.segments, ∃ g ∈ db.segments, g.id = g'.id ∧ g.sessionId = g'.sessionId := by
    intro g' hm
    rw [hseg] at hm
    rcases Library.mem_updateWhere_cases hm with ⟨hold, _⟩ | ⟨g, hold, _, rfl⟩
    · exact ⟨g', hold, rfl, rfl⟩
    · exact ⟨g, hold, (he g).1.symm, (he g).2.symm⟩
  constructor
  · rw [hws]
    exact h.sessionKeys.updateWhere hf
  · intro ws' hm
    rw [hws] at hm
    rcases Library.mem_updateWhere_cases hm with ⟨hold, _⟩ | ⟨ws, hold, _, rfl⟩
    · exact lt_of_lt_of_le (h.sessionIds ws' hold) hid
    · rw [hf]
      exact lt_of_lt_of_le (h.sessionIds ws hold) hid
  · rw [hseg]
    exact h.segmentKeys.updateWhere fun g => (he g).1
  · intro g' hm
    obtain ⟨g, hold, hgid, _⟩ := hsegs g' hm
    rw [← hgid]
    exact lt_of_lt_of_le (h.segmentIds g hold) hid
  · intro g' hm
    obtain ⟨g, hold, _, hsid⟩ := hsegs g' hm
    obtain ⟨ws, hm, hws'⟩ := h.segmentSession g hold
    refine ⟨if p ws then f ws else ws, ?_, ?_⟩
    · rw [hws]
      exact Library.mem_updateWhere_of_mem hm
    · rw [← hsid, ← hws']
      by_cases hp : p ws = true
      · rw [if_pos hp]
        exact hf ws
      · rw [if_neg hp]

/-- Starting a segment of an existing session keeps the structure. -/
theorem Keyed.startSegment (h : Keyed db) {ws : WorkSession} (hm : ws ∈ db.workSessions)
    (startedAt : Int) : Keyed (startSegment db ws.id startedAt) := by
  have hcases : ∀ g ∈ (Dayfinch.startSegment db ws.id startedAt).segments,
      g ∈ db.segments ∨ (g.id = db.nextId ∧ g.sessionId = ws.id) := by
    intro g hg
    rcases List.mem_append.mp hg with hold | hnew
    · exact .inl hold
    · obtain rfl := List.mem_singleton.mp hnew
      exact .inr ⟨rfl, rfl⟩
  constructor
  · exact h.sessionKeys
  · exact fun ws hm => Nat.lt_succ_of_lt (h.sessionIds ws hm)
  · exact h.segmentKeys.append_fresh fun g hg => (h.segmentIds g hg).ne
  · intro g hg
    rcases hcases g hg with hold | ⟨hid, _⟩
    · exact Nat.lt_succ_of_lt (h.segmentIds g hold)
    · rw [hid]
      exact Nat.lt_succ_self _
  · intro g hg
    rcases hcases g hg with hold | ⟨_, hsid⟩
    · exact h.segmentSession g hold
    · exact ⟨ws, hm, hsid.symm⟩

end

namespace StoreInvariant

variable {db db' : Database}

/-- The invariant is about two tables and the identifiers given out so far. -/
theorem of_eq (h : StoreInvariant db) (hws : db'.workSessions = db.workSessions)
    (hseg : db'.segments = db.segments) (hid : db.nextId ≤ db'.nextId) : StoreInvariant db' := by
  have hopen : ∀ s, db'.openSegments s = db.openSegments s := by
    intro s
    rw [Database.openSegments, Database.openSegments, hseg]
  refine ⟨⟨?_, ?_, ?_, ?_, ?_⟩, ⟨?_, ?_, ?_⟩, ?_⟩
  · rw [hws]; exact h.sessionKeys
  · rw [hws]; exact fun ws hm => lt_of_lt_of_le (h.sessionIds ws hm) hid
  · rw [hseg]; exact h.segmentKeys
  · rw [hseg]; exact fun g hm => lt_of_lt_of_le (h.segmentIds g hm) hid
  · rw [hws, hseg]; exact h.segmentSession
  · rw [hws]; exact h.oneLivePerDevice
  · rw [hws]; exact h.oneLivePerUser
  · rw [hws]; exact h.stoppedIffEnded
  · rw [hws]
    intro ws hm
    rw [hopen]
    exact h.openSegments ws hm

/-! ## Ending sessions -/

/-- **Sessions end together with their open segments.** `ofSegments` is the condition the segment
update carries and `sessions` the one the session update carries: they may differ, as long as they
agree on live sessions. -/
theorem endSessions (h : StoreInvariant db) (ofSegments sessions : WorkSession → Bool)
    (stop : WorkSession → WorkSession) (segmentWhere : Segment → Bool) (finish : Segment → Segment)
    (hagree : ∀ ws ∈ db.workSessions, ws.live → ofSegments ws = sessions ws)
    (hwhere : ∀ g ∈ db.segments, ∀ ws ∈ db.workSessions, ws.id = g.sessionId →
      segmentWhere g = (g.isOpen && ofSegments ws))
    (hstop : ∀ ws, (stop ws).id = ws.id ∧ (stop ws).deviceId = ws.deviceId ∧
      (stop ws).userId = ws.userId ∧ (stop ws).status = .stopped ∧ (stop ws).endedAt.isSome)
    (hfinish : ∀ g, (finish g).id = g.id ∧ (finish g).sessionId = g.sessionId ∧
      (finish g).isOpen = false)
    (hws : db'.workSessions = updateWhere sessions stop db.workSessions)
    (hseg : db'.segments = updateWhere segmentWhere finish db.segments)
    (hid : db.nextId ≤ db'.nextId) : StoreInvariant db' := by
  -- A row of the new table is a stopped image, or an old row that was not selected.
  have hcases : ∀ ws' ∈ db'.workSessions, ∃ ws ∈ db.workSessions,
      ws'.id = ws.id ∧ ws'.deviceId = ws.deviceId ∧ ws'.userId = ws.userId ∧
        ((sessions ws = true ∧ ws'.status = .stopped ∧ ws'.endedAt.isSome) ∨
          (sessions ws = false ∧ ws' = ws)) := by
    intro ws' hm
    rw [hws] at hm
    rcases Library.mem_updateWhere_cases hm with ⟨hold, hsel⟩ | ⟨ws, hold, hsel, rfl⟩
    · exact ⟨ws', hold, rfl, rfl, rfl, .inr ⟨hsel, rfl⟩⟩
    · obtain ⟨hi, hd, hu, hs, he⟩ := hstop ws
      exact ⟨ws, hold, hi, hd, hu, .inl ⟨hsel, hs, he⟩⟩
  have hlive : ∀ ws' ∈ db'.workSessions, ws'.live → ws' ∈ db.workSessions := by
    intro ws' hm hl
    obtain ⟨ws, hold, _, _, _, ⟨_, hs, _⟩ | ⟨_, rfl⟩⟩ := hcases ws' hm
    · exact absurd hs ((WorkSession.live_iff ws').mp hl)
    · exact hold
  refine ⟨h.toKeyed.update (fun ws => (hstop ws).1)
    (fun g => ⟨(hfinish g).1, (hfinish g).2.1⟩) hws hseg hid, ⟨?_, ?_, ?_⟩, ?_⟩
  · intro ws hm ws' hm' hl hl'
    exact h.oneLivePerDevice ws (hlive ws hm hl) ws' (hlive ws' hm' hl') hl hl'
  · intro ws hm ws' hm' hl hl'
    exact h.oneLivePerUser ws (hlive ws hm hl) ws' (hlive ws' hm' hl') hl hl'
  · intro ws' hm
    obtain ⟨ws, hold, _, _, _, ⟨_, hs, he⟩ | ⟨_, rfl⟩⟩ := hcases ws' hm
    · simp [hs, he]
    · exact h.stoppedIffEnded ws' hold
  · intro ws' hm
    obtain ⟨ws, hold, hi, _, _, hcase⟩ := hcases ws' hm
    have hcount : (db'.openSegments ws.id).length =
        if ofSegments ws then 0 else (db.openSegments ws.id).length := by
      rw [length_openSegments, length_openSegments, hseg, Library.countP_updateWhere]
      cases hsel : ofSegments ws with
      | true =>
        rw [if_pos rfl, List.countP_eq_zero]
        intro g hg
        by_cases hsid : g.sessionId = ws.id
        · have hw := hwhere g hg ws hold hsid.symm
          rw [hsel, Bool.and_true] at hw
          cases hopen : g.isOpen <;> simp [hw, hopen, (hfinish g).2.2]
        · cases hw : segmentWhere g <;> simp [(hfinish g).2.1, hsid]
      | false =>
        rw [if_neg Bool.false_ne_true]
        refine List.countP_congr fun g hg => ?_
        by_cases hsid : g.sessionId = ws.id
        · have hw := hwhere g hg ws hold hsid.symm
          rw [hsel, Bool.and_false] at hw
          simp [hw]
        · cases hw : segmentWhere g <;> simp [(hfinish g).2.1, hsid]
    have hbefore := h.openSegments ws hold
    rw [hi, hcount]
    by_cases hl : ws.live = true
    · rw [hagree ws hold hl]
      rcases hcase with ⟨hsel, hs, _⟩ | ⟨hsel, rfl⟩
      · rw [hsel, hs]
        rfl
      · rw [hsel]
        exact hbefore
    · have hst : ws.status = .stopped := by simpa using hl
      have hst' : ws'.status = .stopped := by
        rcases hcase with ⟨_, hs, _⟩ | ⟨_, rfl⟩
        · exact hs
        · exact hst
      rw [hbefore, hst, hst']
      simp

/-- `_stop_session` keeps the invariant, whatever it is stamped with. -/
theorem stopSession (h : StoreInvariant db) (sessionId : Nat) (endedAt : Int) :
    StoreInvariant (stopSession db sessionId endedAt) := by
  refine h.endSessions (·.id == sessionId) (·.id == sessionId) (WorkSession.stop endedAt)
    (fun g => g.sessionId == sessionId && g.isOpen) (Segment.close endedAt)
    (fun _ _ _ => rfl) ?_ ?_ ?_ rfl rfl le_rfl
  · intro g _ ws _ hid
    simp [hid, Bool.and_comm]
  · intro ws
    simp [WorkSession.stop]
  · intro g
    simp [Segment.close, Segment.isOpen]

/-- A bulk close keeps the invariant. -/
theorem closes (h : StoreInvariant db) {now : Int} {c : Closing} (hc : c.Consistent)
    (hcloses : Closes now c db db') : StoreInvariant db' := by
  refine h.endSessions c.ofSegments c.sessions (c.endSession now)
    (fun g => g.isOpen && db.sessionIs c.ofSegments g.sessionId) (c.endSegment now)
    (fun ws _ => hc ws) ?_ ?_ ?_ hcloses.workSessions hcloses.segments hcloses.nextId_le
  · intro g _ ws hm hid
    rw [← hid, h.sessionIs_eq hm]
  · intro ws
    simp [Closing.endSession]
  · intro g
    simp [Closing.endSegment, Segment.isOpen]

/-! ## Opening and continuing a session -/

theorem closeSegment_other {sessionId other : Nat} {endedAt : Int} (h : other ≠ sessionId) :
    ((Dayfinch.closeSegment db sessionId endedAt).openSegments other).length =
      (db.openSegments other).length := by
  rw [length_openSegments, length_openSegments, Dayfinch.closeSegment, Library.countP_updateWhere]
  refine List.countP_congr fun g _ => ?_
  cases hs : g.sessionId == sessionId with
  | true =>
    have hne : g.sessionId ≠ other := by
      rw [beq_iff_eq] at hs
      exact fun he => h (he.symm.trans hs)
    cases hopen : g.isOpen <;> simp [hopen, hne, Segment.close]
  | false => simp

theorem closeSegment_self {sessionId : Nat} {endedAt : Int} :
    ((Dayfinch.closeSegment db sessionId endedAt).openSegments sessionId).length = 0 := by
  rw [length_openSegments, Dayfinch.closeSegment, Library.countP_updateWhere, List.countP_eq_zero]
  intro g _
  by_cases hs : (g.sessionId == sessionId && g.isOpen) = true
  · rw [if_pos hs]
    simp [Segment.close, Segment.isOpen]
  · rw [if_neg hs]
    exact hs

theorem startSegment_openSegments {sessionId other : Nat} {startedAt : Int} :
    ((Dayfinch.startSegment db sessionId startedAt).openSegments other).length =
      (db.openSegments other).length + if sessionId = other then 1 else 0 := by
  rw [length_openSegments, length_openSegments, Dayfinch.startSegment, List.countP_append]
  by_cases hs : sessionId = other <;> simp [hs, Segment.isOpen]

/-- Inserting a live row whose slots are free keeps keys and slots. -/
theorem keyed_liveSlots_insert (h : StoreInvariant db) {row : WorkSession}
    (hid : row.id = db.nextId) (hlive : row.live) (hend : row.endedAt = none)
    (hslot : liveSlotTaken db row = false)
    (hdb : db' = { db with workSessions := db.workSessions ++ [row], nextId := db.nextId + 1 }) :
    Keyed db' ∧ LiveSlots db' := by
  subst hdb
  rw [liveSlotTaken_eq_false] at hslot
  have hcases : ∀ ws ∈ db.workSessions ++ [row], ws ∈ db.workSessions ∨ ws = row := by
    intro ws hm
    simpa using hm
  refine ⟨⟨?_, ?_, h.segmentKeys, ?_, ?_⟩, ⟨?_, ?_, ?_⟩⟩
  · refine h.sessionKeys.append_fresh fun ws hm => ?_
    rw [hid]
    exact (h.sessionIds ws hm).ne
  · intro ws hm
    rcases hcases ws hm with hold | rfl
    · exact Nat.lt_succ_of_lt (h.sessionIds ws hold)
    · rw [hid]
      exact Nat.lt_succ_self _
  · exact fun g hg => Nat.lt_succ_of_lt (h.segmentIds g hg)
  · intro g hg
    obtain ⟨ws, hm, hsid⟩ := h.segmentSession g hg
    exact ⟨ws, List.mem_append_left _ hm, hsid⟩
  · intro ws hm ws' hm' hl hl' hd
    rcases hcases ws hm with hold | rfl <;> rcases hcases ws' hm' with hold' | rfl
    · exact h.oneLivePerDevice ws hold ws' hold' hl hl' hd
    · exact absurd hd (hslot ws hold hl).1
    · exact absurd hd.symm (hslot ws' hold' hl').1
    · rfl
  · intro ws hm ws' hm' hl hl' hu hsome
    rcases hcases ws hm with hold | rfl <;> rcases hcases ws' hm' with hold' | rfl
    · exact h.oneLivePerUser ws hold ws' hold' hl hl' hu hsome
    · rw [hu, (hslot ws hold hl).2 hu] at hsome
      exact absurd hsome (by simp)
    · rw [(hslot ws' hold' hl').2 hu.symm] at hsome
      exact absurd hsome (by simp)
    · rfl
  · intro ws hm
    rcases hcases ws hm with hold | rfl
    · exact h.stoppedIffEnded ws hold
    · rw [hend]
      simpa using hlive

/-- A new session takes the invariant along: it is the only live one in its two slots, and starts
with one open segment or none. -/
theorem openSession (h : StoreInvariant db) {now observed : Int} {call : SyncCall}
    {adm : Admission} (hstatus : adm.status ≠ .stopped) :
    Ensures (openSession now db call adm observed) fun r => StoreInvariant r.1 := by
  refine Ensures.bind (insertWorkSession_ensures db _) fun db1 ⟨hslot, hdb1⟩ => ?_
  rw [Library.ensures_pure]
  generalize hrow : newWorkSession now db call adm observed = row at hslot hdb1 ⊢
  have hid : row.id = db.nextId := hrow ▸ rfl
  have hst : row.status = adm.status := hrow ▸ rfl
  obtain ⟨hkeyed, hslots⟩ :=
    h.keyed_liveSlots_insert hid (by simpa [hst] using hstatus) (hrow ▸ rfl) hslot hdb1
  have hmem : row ∈ db1.workSessions := by
    rw [hdb1]
    exact List.mem_append_right _ (List.mem_singleton_self row)
  have hcases : ∀ ws ∈ db1.workSessions, ws ∈ db.workSessions ∨ ws = row := by
    intro ws hm
    rw [hdb1] at hm
    simpa using hm
  have hcount : ∀ s, (db1.openSegments s).length = (db.openSegments s).length := by
    intro s
    rw [hdb1]
    rfl
  by_cases ha : adm.status = .active
  · rw [if_pos ha]
    refine ⟨hkeyed.startSegment hmem observed,
      ⟨hslots.oneLivePerDevice, hslots.oneLivePerUser, hslots.stoppedIffEnded⟩, ?_⟩
    intro ws hm
    rw [startSegment_openSegments, hcount]
    rcases hcases ws hm with hold | rfl
    · rw [if_neg (hid ▸ (h.sessionIds ws hold).ne'), Nat.add_zero]
      exact h.openSegments ws hold
    · rw [if_pos rfl, hid, h.toKeyed.openSegments_fresh, hst, if_pos ha]
  · rw [if_neg ha]
    refine ⟨hkeyed, hslots, ?_⟩
    intro ws hm
    rw [hcount]
    rcases hcases ws hm with hold | rfl
    · exact h.openSegments ws hold
    · rw [hid, h.toKeyed.openSegments_fresh, hst, if_neg ha]

/-- The segment statement of a kept session leaves it with the segments of its new status. -/
theorem moveSegment_openSegments (h : StoreInvariant db) (call : SyncCall) {status : SessionStatus}
    (observed : Int) {session : WorkSession} (hm : session ∈ db.workSessions) (hlive : session.live)
    (hstatus : status ≠ .stopped) (s : Nat) :
    ((moveSegment db call status observed session).openSegments s).length =
      if s = session.id then (if status = .active then 1 else 0)
      else (db.openSegments s).length := by
  have hbefore := h.openSegments session hm
  rw [WorkSession.live_iff] at hlive
  unfold moveSegment
  by_cases hs : s = session.id
  · subst hs
    rw [if_pos rfl]
    cases hold : session.status <;> cases status <;>
      simp_all [closeSegment_self, startSegment_openSegments]
  · rw [if_neg hs]
    split
    · exact closeSegment_other hs
    · split
      · rw [startSegment_openSegments, if_neg (Ne.symm hs), Nat.add_zero]
      · rfl

theorem moveSegment_keyed (h : StoreInvariant db) (call : SyncCall) (status : SessionStatus)
    (observed : Int) {session : WorkSession} (hm : session ∈ db.workSessions) :
    Keyed (moveSegment db call status observed session) := by
  unfold moveSegment
  split
  · exact h.toKeyed.update (p := fun _ => false) (f := id)
      (e := Segment.close (observed - seconds call.idleSeconds)) (fun _ => rfl)
      (fun _ => ⟨rfl, rfl⟩) (Library.updateWhere_eq_self fun _ _ => rfl).symm rfl le_rfl
  · split
    · exact h.toKeyed.startSegment hm observed
    · exact h.toKeyed

theorem moveSegment_workSessions (call : SyncCall) (status : SessionStatus) (observed : Int)
    (session : WorkSession) :
    (moveSegment db call status observed session).workSessions = db.workSessions := by
  unfold moveSegment
  split
  · rfl
  · split <;> rfl

/-- A kept session changes status together with its segments. -/
theorem continueSession (h : StoreInvariant db) (now : Int) (call : SyncCall)
    {status : SessionStatus} (observed : Int) {session : WorkSession}
    (hm : session ∈ db.workSessions) (hlive : session.live) (hstatus : status ≠ .stopped) :
    StoreInvariant (continueSession now db call status observed session) := by
  have hrows : (Dayfinch.continueSession now db call status observed session).workSessions =
      updateWhere (·.id == session.id) (WorkSession.continueAs status (cleanNote call.note) now)
        db.workSessions := by
    rw [Dayfinch.continueSession, moveSegment_workSessions]
  have hcases : ∀ ws' ∈ (Dayfinch.continueSession now db call status observed session).workSessions,
      (ws' ∈ db.workSessions ∧ ws'.id ≠ session.id) ∨
        ws' = WorkSession.continueAs status (cleanNote call.note) now session := by
    intro ws' hm'
    rw [hrows] at hm'
    rcases Library.mem_updateWhere_cases hm' with ⟨hold, hne⟩ | ⟨ws, hold, heq, rfl⟩
    · exact .inl ⟨hold, by simpa using hne⟩
    · obtain rfl := h.sessionKeys.eq hold hm (by simpa using heq)
      exact .inr rfl
  have hself : ∀ ws ∈ db.workSessions, ws.id ≠ session.id → ws ≠ session := by
    intro ws _ hne he
    exact hne (by rw [he])
  refine ⟨(h.moveSegment_keyed call status observed hm).update (p := (·.id == session.id))
    (f := WorkSession.continueAs status (cleanNote call.note) now) (q := fun _ => false) (e := id)
    (fun _ => rfl) (fun _ => ⟨rfl, rfl⟩) rfl
    (Library.updateWhere_eq_self fun _ _ => rfl).symm le_rfl,
    ⟨?_, ?_, ?_⟩, ?_⟩
  · intro ws hws ws' hws' hl hl' hd
    rcases hcases ws hws with ⟨hold, hne⟩ | rfl <;> rcases hcases ws' hws' with ⟨hold', hne'⟩ | rfl
    · exact h.oneLivePerDevice ws hold ws' hold' hl hl' hd
    · exact absurd (h.oneLivePerDevice ws hold session hm hl hlive hd) (hself ws hold hne)
    · exact absurd (h.oneLivePerDevice ws' hold' session hm hl' hlive hd.symm) (hself ws' hold' hne')
    · rfl
  · intro ws hws ws' hws' hl hl' hu hsome
    rcases hcases ws hws with ⟨hold, hne⟩ | rfl <;> rcases hcases ws' hws' with ⟨hold', hne'⟩ | rfl
    · exact h.oneLivePerUser ws hold ws' hold' hl hl' hu hsome
    · exact absurd (h.oneLivePerUser ws hold session hm hl hlive hu hsome) (hself ws hold hne)
    · exact absurd (h.oneLivePerUser ws' hold' session hm hl' hlive hu.symm (hu ▸ hsome))
        (hself ws' hold' hne')
    · rfl
  · intro ws hws
    rcases hcases ws hws with ⟨hold, _⟩ | rfl
    · exact h.stoppedIffEnded ws hold
    · have hended := h.stoppedIffEnded session hm
      have hopen : session.status ≠ .stopped := by simpa using hlive
      show status = .stopped ↔ session.endedAt.isSome
      rw [← hended]
      exact ⟨fun he => absurd he hstatus, fun he => absurd he hopen⟩
  · intro ws hws
    have hcount := h.moveSegment_openSegments call observed hm hlive hstatus
    show ((moveSegment db call status observed session).openSegments ws.id).length = _
    rcases hcases ws hws with ⟨hold, hne⟩ | rfl
    · rw [hcount, if_neg hne]
      exact h.openSegments ws hold
    · rw [hcount]
      exact if_pos rfl

/-! ## A heartbeat -/

/-- The session a transaction holds on to is a live row of the call's device. -/
def Held (db : Database) (call : SyncCall) (session : Option WorkSession) : Prop :=
  ∀ ws, session = some ws → ws ∈ db.workSessions ∧ ws.live ∧ ws.deviceId = call.device.id

theorem deviceSession_held (call : SyncCall) : Held db call (deviceSession db call) :=
  fun _ hws => deviceSession_mem hws

/-- Stopping one session leaves the others in place. -/
theorem mem_stopSession_of_ne {sessionId : Nat} {endedAt : Int} {ws : WorkSession}
    (hm : ws ∈ db.workSessions) (hne : ws.id ≠ sessionId) :
    ws ∈ (Dayfinch.stopSession db sessionId endedAt).workSessions := by
  have hmem := Library.mem_updateWhere_of_mem (p := (·.id == sessionId))
    (f := WorkSession.stop endedAt) hm
  rw [if_neg (by simpa using hne)] at hmem
  exact hmem

theorem takeOver (h : StoreInvariant db) {call : SyncCall} (status : SessionStatus) (observed : Int)
    {session : Option WorkSession} (hheld : Held db call session) :
    Ensures (takeOver db call status observed) fun db' =>
      StoreInvariant db' ∧ Held db' call session := by
  unfold Dayfinch.takeOver
  refine ensures_ite (fun _ => by simpa using ⟨h, hheld⟩) fun _ => ?_
  cases hother : otherSession db call with
  | none => simpa using ⟨h, hheld⟩
  | some other =>
    obtain ⟨hm, _, hdev, _⟩ := otherSession_mem hother
    refine Ensures.bind ensures_raiseIf fun _ _ => Ensures.bind ensures_raiseIf fun _ _ => ?_
    rw [Library.ensures_pure]
    refine ⟨h.stopSession other.id observed, fun ws hws => ?_⟩
    obtain ⟨hmem, hlive, hwsdev⟩ := hheld ws hws
    refine ⟨mem_stopSession_of_ne hmem ?_, hlive, hwsdev⟩
    intro hid
    have heq := h.sessionKeys.eq hmem hm hid
    exact hdev (heq ▸ hwsdev)

theorem cutGap (h : StoreInvariant db) {call : SyncCall} {session : Option WorkSession}
    (hheld : Held db call session) (interval : Int) (previous : Option AgentStateEvent)
    (observed : Int) :
    StoreInvariant (cutGap db interval previous observed session).1 ∧
      Held (cutGap db interval previous observed session).1 call
        (cutGap db interval previous observed session).2 := by
  unfold Dayfinch.cutGap
  split
  · split
    · exact ⟨h.stopSession _ _, fun _ hws => by cases hws⟩
    · exact ⟨h, hheld⟩
  · exact ⟨h, hheld⟩

theorem leaveWork (h : StoreInvariant db) {call : SyncCall} {session : Option WorkSession}
    (hheld : Held db call session) (taskId projectId : Option Nat) (observed : Int) :
    StoreInvariant (leaveWork db taskId projectId observed session).1 ∧
      Held (leaveWork db taskId projectId observed session).1 call
        (leaveWork db taskId projectId observed session).2 := by
  unfold Dayfinch.leaveWork
  split
  · exact ⟨h, fun _ hws => by cases hws⟩
  · split
    · exact ⟨h.stopSession _ _, fun _ hws => by cases hws⟩
    · exact ⟨h, hheld⟩

theorem applyStatus (h : StoreInvariant db) {now observed : Int} {call : SyncCall}
    {adm : Admission} {session : Option WorkSession} (hheld : Held db call session) :
    Ensures (applyStatus now db call adm observed session) fun r => StoreInvariant r.1 := by
  unfold Dayfinch.applyStatus
  cases session with
  | none =>
    cases hst : adm.status with
    | stopped => simpa using h
    | active | paused =>
      exact Ensures.bind (h.openSession (by simp [hst])) fun r hr => by simpa using hr
  | some session =>
    obtain ⟨hm, hlive, _⟩ := hheld session rfl
    cases hst : adm.status with
    | stopped => simpa using h.stopSession session.id observed
    | active | paused => simpa using h.continueSession now call observed hm hlive (by simp)

theorem acceptEvent (h : StoreInvariant db) (tie : AgentStateEvent → Nat) (now : Int)
    (call : SyncCall) (adm : Admission) :
    Ensures (acceptEvent tie now db call adm) fun r => StoreInvariant r.1 := by
  unfold Dayfinch.acceptEvent
  refine Ensures.bind (h.takeOver adm.status _ (deviceSession_held call)) fun db1 ⟨h1, held1⟩ => ?_
  obtain ⟨h2, held2⟩ := h1.cutGap held1 call.heartbeatIntervalSeconds (previousReceipt tie db call)
    (clampToPrevious (previousReceipt tie db call) adm.observed)
  obtain ⟨h3, held3⟩ := h2.leaveWork held2 call.taskId adm.projectId
    (clampToPrevious (previousReceipt tie db call) adm.observed)
  refine Ensures.bind (h3.applyStatus held3) fun r hr => ?_
  refine Ensures.bind (recordEvent_ensures _ _ _ _ _ _) fun db5 ⟨_, h5⟩ => ?_
  rw [Library.ensures_pure, h5]
  exact hr.of_eq rfl rfl le_rfl

theorem syncTransaction (h : StoreInvariant db) (tie : AgentStateEvent → Nat) (now : Int)
    (call : SyncCall) (adm : Admission) :
    Ensures (syncTransaction tie now db call adm) fun r => StoreInvariant r.1 := by
  unfold Dayfinch.syncTransaction
  refine Ensures.bind (P := fun _ => True) (fun _ _ => trivial) fun _ _ => ?_
  cases duplicateReceipt db call with
  | some receipt => simpa using h
  | none => exact h.acceptEvent tie now call adm

/-- **A heartbeat keeps the invariant**, whatever it carries. -/
theorem syncWorkSession (h : StoreInvariant db) (tie : AgentStateEvent → Nat) (now : Int)
    (call : SyncCall) : Ensures (syncWorkSession tie now db call) fun r => StoreInvariant r.1 := by
  unfold Dayfinch.syncWorkSession
  cases call.status with
  | none => simpa using h
  | some status =>
    refine Ensures.bind (P := fun _ => True) (fun _ _ => trivial) fun adm _ => ?_
    exact h.syncTransaction tie now call adm

/-! ## Steps and runs -/

/-- Every operation keeps the invariant. -/
theorem workOp (h : StoreInvariant db) (op : WorkOp) : Ensures (op.run db) StoreInvariant := by
  by_cases hop : op.IsSync
  · cases op with
    | sync tie now call => exact Library.ensures_map.mpr (h.syncWorkSession tie now call)
    | _ => cases hop
  · by_cases hcompact : op.IsCompaction
    · cases op with
      | deleteStateEventsBefore cutoff => exact Library.ensures_ok.mpr (h.of_eq rfl rfl le_rfl)
      | _ => cases hcompact
    refine (adminEffect db op hop hcompact).mono ?_
    rintro db' (hsame | ⟨now, _, hsame | ⟨c, hc, hcloses⟩⟩)
    · exact h.of_eq hsame.workSessions hsame.segments hsame.nextId_le
    · exact h.of_eq hsame.workSessions hsame.segments hsame.nextId_le
    · exact h.closes hc hcloses

theorem step (h : StoreInvariant db) (op : WorkOp) : StoreInvariant (step db op) :=
  step_preserves h fun _ hrun => h.workOp op _ hrun

end StoreInvariant

theorem storeInvariant_withoutWork (db : Database) : StoreInvariant db.withoutWork := by
  refine ⟨⟨List.nodup_nil, ?_, List.nodup_nil, ?_, ?_⟩, ⟨?_, ?_, ?_⟩, ?_⟩ <;>
    intro row hm <;> cases hm

theorem storeInvariant_run (db : Database) (ops : List WorkOp) :
    StoreInvariant (Library.run step db.withoutWork ops) :=
  Library.run_invariant StoreInvariant (fun _ op h => h.step op) (storeInvariant_withoutWork db) ops

/-! ## What the invariant says about one session -/

namespace StoreInvariant

variable {db : Database}

/-- A session with an open segment is active. -/
theorem active_of_open (h : StoreInvariant db) {ws : WorkSession} (hws : ws ∈ db.workSessions)
    {g : Segment} (hg : g ∈ db.segments) (hid : ws.id = g.sessionId) (hopen : g.endedAt = none) :
    ws.status = .active := by
  have hlen := h.openSegments ws hws
  by_contra hst
  rw [if_neg hst, List.length_eq_zero_iff] at hlen
  have hmem : g ∈ db.openSegments ws.id := List.mem_filter.mpr ⟨hg, by simp [hid, hopen]⟩
  rw [hlen] at hmem
  cases hmem

/-- A live session of the call's device is the one the transaction finds. -/
theorem deviceSession_eq (h : StoreInvariant db) {ws : WorkSession} (hws : ws ∈ db.workSessions)
    (hlive : ws.live) {call : SyncCall} (hdevice : ws.deviceId = call.device.id) :
    deviceSession db call = some ws := by
  cases hsession : deviceSession db call with
  | none =>
    have hnone := Library.latestBy_filter_eq_none.mp hsession ws hws
    simp [hdevice, hlive] at hnone
  | some session =>
    obtain ⟨hm, hl, hd⟩ := deviceSession_mem hsession
    rw [h.oneLivePerDevice session hm ws hws hl hlive (hd.trans hdevice.symm)]

end StoreInvariant

/-! ## The invariant as counts -/

/-- The live sessions that satisfy `p`. -/
def Database.liveWhere (db : Database) (p : WorkSession → Bool) : List WorkSession :=
  db.workSessions.filter fun ws => ws.live && p ws

/-- Where any two live sessions that satisfy `p` are the same row, there is at most one. -/
theorem Keyed.length_liveWhere_le_one {db : Database} (h : Keyed db) {p : WorkSession → Bool}
    (heq : ∀ ws ∈ db.workSessions, ∀ ws' ∈ db.workSessions, ws.live → ws'.live → p ws → p ws' →
      ws = ws') : (db.liveWhere p).length ≤ 1 := by
  have hnodup : (db.liveWhere p).Nodup := (List.Nodup.of_map _ h.sessionKeys).filter _
  have hmem : ∀ ws ∈ db.liveWhere p, ws ∈ db.workSessions ∧ ws.live ∧ p ws := by
    intro ws hm
    obtain ⟨hm, hsel⟩ := List.mem_filter.mp hm
    exact ⟨hm, by simpa [Bool.and_eq_true] using hsel⟩
  generalize db.liveWhere p = rows at hnodup hmem
  match rows with
  | [] => exact Nat.zero_le 1
  | [_] => exact le_rfl
  | ws :: ws' :: rest =>
    obtain ⟨hm, hl, hp⟩ := hmem ws (by simp)
    obtain ⟨hm', hl', hp'⟩ := hmem ws' (by simp)
    obtain rfl := heq ws hm ws' hm' hl hl' hp hp'
    simp at hnodup

/-- **Every run keeps the work store consistent.** Whatever heartbeats arrive and whatever closers
run between them, a device and a user have at most one live session, `ended_at` is set exactly on the
stopped sessions, and a session has one open segment while it is active and none otherwise. -/
theorem workSessions_consistent (db : Database) (ops : List WorkOp) :
    (∀ d, ((Library.run step db.withoutWork ops).liveWhere (·.deviceId == d)).length ≤ 1) ∧
    (∀ u, ((Library.run step db.withoutWork ops).liveWhere (·.userId == some u)).length ≤ 1) ∧
    ∀ ws ∈ (Library.run step db.withoutWork ops).workSessions,
      (ws.status = .stopped ↔ ws.endedAt.isSome) ∧
      ((Library.run step db.withoutWork ops).openSegments ws.id).length =
        if ws.status = .active then 1 else 0 := by
  have h := storeInvariant_run db ops
  refine ⟨fun d => ?_, fun u => ?_, fun ws hm => ⟨h.stoppedIffEnded ws hm, h.openSegments ws hm⟩⟩
  · refine h.length_liveWhere_le_one fun ws hm ws' hm' hl hl' hd hd' => ?_
    rw [beq_iff_eq] at hd hd'
    exact h.oneLivePerDevice ws hm ws' hm' hl hl' (hd.trans hd'.symm)
  · refine h.length_liveWhere_le_one fun ws hm ws' hm' hl hl' hu hu' => ?_
    rw [beq_iff_eq] at hu hu'
    exact h.oneLivePerUser ws hm ws' hm' hl hl' (hu.trans hu'.symm) (by rw [hu]; rfl)

end Dayfinch
