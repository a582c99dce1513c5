/-
# Dayfinch.Approval.Frozen -- when the totals of an approved timesheet stay as they are

After approval, three locks look at dates: an active heartbeat, a manual entry and the review of one
are refused in an approved period. The totals, though, are sums over clipped stretches of time, and
most of what moves them passes no lock: a session that is still open at approval, a stop or a pause
observed in the period, the empty rows of the report's joins, a manual entry whose wall clock shows
another date, and every decision on time off.

`keepsTotals` is the condition on a step under which none of this happens: what it asks of an
operation is that the stretches it moves lie outside the period. The tracked seconds are taken apart
session by session (`trackedMicros_eq`), and each operation is followed through that sum.
-/
import Dayfinch.Approval.Timesheets
import Dayfinch.Work.SyncEffect

namespace Dayfinch

open Library (updateWhere leftJoin run Guarded guarded_invariant UniqueKey)

/-! ## The condition -/

/-- No time of the period lies between the two ends `a` and `b` of a stretch that begins at `start`. -/
def Timesheet.apart (ts : Timesheet) (start a b : Int) : Bool :=
  a == b || max a b ≤ start || max a b ≤ ts.opens || ts.closes ≤ max start (min a b)

/-- The sessions that a timesheet joins, by their ids. -/
def Database.joinedIds (db : Database) (ts : Timesheet) : List Nat :=
  (db.joinedSessions ts).map (·.id)

/-- The report has an empty row for the timesheet: no session joins it, or one that does has no
segment in the period. -/
def Database.hasEmptyRow (db : Database) (now : Int) (ts : Timesheet) : Bool :=
  (db.joinedIds ts).isEmpty ||
    (db.joinedIds ts).any fun id => (db.joinedSegments now ts id).isEmpty

/-- From `clock` to `later`, neither an open segment nor an empty row gains time in the period. -/
def gainsNothing (ts : Timesheet) (db : Database) (clock later : Int) : Bool :=
  (db.segments.all fun g =>
    !(g.isOpen && (db.joinedIds ts).contains g.sessionId) || ts.apart g.startedAt clock later) &&
  (!db.hasEmptyRow later ts || ts.apart ts.opens clock later)

/-- The open segments that a heartbeat ends are not moved across time of the period. -/
def endsOutside (ts : Timesheet) (clock : Int) (previous : Option AgentStateEvent) (observed : Int)
    (db : Database) (call : SyncCall) (adm : Admission) : Bool :=
  db.segments.all fun g =>
    !(g.isOpen && (db.joinedIds ts).contains g.sessionId) ||
      (endInstants previous observed db call adm g.sessionId).all (ts.apart g.startedAt clock)

/-- A heartbeat begins nothing that the report counts: it begins after the period, or the period has
not begun; or what begins has no time in it yet and takes no empty row away, or replaces the one empty
row there is. -/
def startsOutside (ts : Timesheet) (clock : Int) (previous : Option AgentStateEvent) (observed : Int)
    (db : Database) (call : SyncCall) (adm : Admission) : Bool :=
  ts.closes ≤ observed || clock ≤ ts.opens ||
    match keptSession previous observed db call adm with
    | some session =>
      !(adm.status == .active && session.status == .paused && ts.joinsSession session) ||
        (clock ≤ observed && !(db.joinedSegments clock ts session.id).isEmpty)
    | none =>
      adm.status == .stopped || call.device.ownerUserId != some ts.userId ||
        if adm.status = .active then clock ≤ observed && !(db.joinedIds ts).isEmpty
        else (db.joinedIds ts).isEmpty

/-- A heartbeat neither moves an end across time of the period nor begins something in it. -/
def heartbeatOutside (ts : Timesheet) (clock : Int) (previous : Option AgentStateEvent)
    (observed : Int) (db : Database) (call : SyncCall) (adm : Admission) : Bool :=
  endsOutside ts clock previous observed db call adm &&
    startsOutside ts clock previous observed db call adm

/-- **A step keeps the totals of a timesheet.** -/
def keepsTotals (ts : Timesheet) (s : TimesheetState) : TimesheetOp → Bool
  | .tick now => gainsNothing ts s.db s.clock (max s.clock now)
  | .sync tie call => heartbeatMeets (heartbeatOutside ts s.clock) s.db (.sync tie s.clock call)
  | .addManualTime userId _ _ startedAt endedAt _ autoApprove =>
    !(autoApprove && userId == ts.userId && ts.covers (dateOf startedAt.toTimestamptz)) ||
      manualTimeLocked s.db userId startedAt endedAt
  | .reviewItem .timeOffRequests itemId _ status =>
    s.db.timeOffRequests.all fun r =>
      !(r.id == itemId && r.userId == ts.userId && ts.meets r.startsOn r.endsOn) ||
        r.minutes == 0 || (r.status == .approved) == (status == some .approved)
  | _ => true

/-! ## Clipping -/

theorem Timesheet.clip_eq_of_apart {ts : Timesheet} {start a b : Int}
    (h : ts.apart start a b = true) : ts.clip start a = ts.clip start b := by
  unfold apart at h
  unfold clip
  simp only [Bool.or_eq_true, beq_iff_eq, decide_eq_true_eq] at h
  omega

/-- Ending a stretch before it began counts as much as ending it where it began. -/
theorem Timesheet.clip_max (ts : Timesheet) (start stop : Int) :
    ts.clip start (max start stop) = ts.clip start stop := by
  unfold clip
  omega

/-- Nothing of a segment that is not joined counts. -/
theorem Timesheet.counted_eq_zero {now : Int} {ts : Timesheet} {g : Segment}
    (h : ts.joinsSegment now g.sessionId g = false) : ts.counted now (some g) = 0 := by
  unfold joinsSegment at h
  show ts.clip g.startedAt (g.endedAt.getD now) = 0
  unfold clip
  simp only [beq_self_eq_true, Bool.true_and, Bool.and_eq_false_iff, decide_eq_false_iff_not] at h
  omega

/-- An empty row counts only while the period is running or over. -/
theorem Timesheet.clip_opens_eq_zero {now : Int} {ts : Timesheet} :
    ts.clip ts.opens now = 0 ↔ now ≤ ts.opens ∨ ts.closes ≤ ts.opens := by
  unfold clip
  omega

/-! ## The tracked seconds, session by session -/

section

variable {now now' : Int} {db db' mid : Database} {ts : Timesheet} {id : Nat}

/-- What a session counts, in microseconds. -/
def sessionMicros (now : Int) (db : Database) (ts : Timesheet) (id : Nat) : Int :=
  ((db.joinedSegments now ts id).map fun g => ts.counted now (some g)).sum +
    if (db.joinedSegments now ts id).isEmpty then ts.clip ts.opens now else 0

/-- The tracked time in microseconds. -/
def trackedMicros (now : Int) (db : Database) (ts : Timesheet) : Int :=
  ((joinedRows now db ts).map (ts.counted now)).sum

/-- **The tracked time is what its sessions count**, or one empty row. -/
theorem trackedMicros_eq : trackedMicros now db ts =
    ((db.joinedIds ts).map (sessionMicros now db ts)).sum +
      if (db.joinedIds ts).isEmpty then ts.clip ts.opens now else 0 := by
  have hrow : ts.counted now none = ts.clip ts.opens now := rfl
  unfold trackedMicros joinedRows Database.joinedIds
  rw [List.map_flatMap, List.flatMap_def, List.sum_flatten, List.map_map,
    Library.sum_leftJoin, List.map_map, List.isEmpty_map]
  congr 1
  · refine congrArg List.sum (List.map_congr_left fun ws _ => ?_)
    show ((leftJoin (db.joinedSegments now ts ws.id)).map (ts.counted now)).sum = _
    rw [Library.sum_leftJoin, hrow]
    rfl
  · by_cases hempty : (db.joinedSessions ts).isEmpty = true
    · rw [if_pos hempty, if_pos hempty]
      show ((leftJoin ([] : List Segment)).map (ts.counted now)).sum = _
      rw [Library.sum_leftJoin, hrow]
      simp
    · rw [if_neg hempty, if_neg hempty]

/-- What the segments of a session count, over the whole table. -/
theorem sum_joinedSegments : ((db.joinedSegments now ts id).map fun g => ts.counted now (some g)).sum =
    (db.segments.map fun g => if g.sessionId == id then ts.counted now (some g) else 0).sum := by
  rw [Database.joinedSegments, Library.sum_filter]
  refine congrArg List.sum (List.map_congr_left fun g _ => ?_)
  by_cases hid : g.sessionId = id
  · subst hid
    by_cases hjoins : ts.joinsSegment now g.sessionId g = true
    · rw [if_pos hjoins, if_pos (by simp)]
    · rw [if_neg hjoins, if_pos (by simp), Timesheet.counted_eq_zero (by simpa using hjoins)]
  · have hjoins : ¬ ts.joinsSegment now id g = true := by simp [Timesheet.joinsSegment, hid]
    rw [if_neg hjoins, if_neg (by simpa using hid)]

theorem joinedSegments_isEmpty :
    (db.joinedSegments now ts id).isEmpty = !db.segments.any (ts.joinsSegment now id) := by
  rw [Database.joinedSegments, Bool.eq_iff_iff, List.isEmpty_iff, List.filter_eq_nil_iff]
  simp

/-- Sessions with the same ids that count the same make the same tracked time. -/
theorem trackedMicros_congr (hids : db'.joinedIds ts = db.joinedIds ts)
    (hnone : db.joinedIds ts = [] → ts.clip ts.opens now' = ts.clip ts.opens now)
    (h : ∀ id ∈ db.joinedIds ts, sessionMicros now' db' ts id = sessionMicros now db ts id) :
    trackedMicros now' db' ts = trackedMicros now db ts := by
  rw [trackedMicros_eq, trackedMicros_eq, hids, List.map_congr_left h]
  by_cases hempty : db.joinedIds ts = []
  · rw [hnone hempty]
  · have hempty' : ¬ (db.joinedIds ts).isEmpty = true := by simpa using hempty
    rw [if_neg hempty', if_neg hempty']

/-- The sessions joined depend on columns that no operation changes. -/
theorem joinedIds_eq (h : db'.workSessions.map WorkSession.fixed = db.workSessions.map WorkSession.fixed) :
    db'.joinedIds ts = db.joinedIds ts := by
  have hfixed : ∀ rows : List WorkSession, (rows.filter ts.joinsSession).map (·.id) =
      ((rows.map WorkSession.fixed).filter ts.joinsSession).map (·.id) := by
    intro rows
    rw [List.filter_map, List.map_map]
    rfl
  unfold Database.joinedIds Database.joinedSessions
  rw [hfixed db'.workSessions, hfixed db.workSessions, h]

theorem mem_joinedIds : id ∈ db.joinedIds ts ↔
    ∃ ws ∈ db.workSessions, ws.id = id ∧ ts.joinsSession ws = true := by
  unfold Database.joinedIds Database.joinedSessions
  rw [List.mem_map]
  constructor
  · rintro ⟨ws, hws, hid⟩
    exact ⟨ws, (List.mem_filter.mp hws).1, hid, (List.mem_filter.mp hws).2⟩
  · rintro ⟨ws, hws, hid, hjoins⟩
    exact ⟨ws, List.mem_filter.mpr ⟨hws, hjoins⟩, hid⟩

/-! ## The clock moves on -/

theorem trackedMicros_tick (hlater : now ≤ now') (h : gainsNothing ts db now now' = true) :
    trackedMicros now' db ts = trackedMicros now db ts := by
  unfold gainsNothing at h
  rw [Bool.and_eq_true, List.all_eq_true, Bool.or_eq_true, Bool.not_eq_true'] at h
  obtain ⟨hsegments, hrows⟩ := h
  have hclip : db.hasEmptyRow now' ts = true → ts.clip ts.opens now' = ts.clip ts.opens now := by
    intro hempty
    rcases hrows with hno | hapart
    · exact absurd hempty (by simp [hno])
    · exact (Timesheet.clip_eq_of_apart hapart).symm
  refine trackedMicros_congr rfl (fun hnone => hclip ?_) fun id hid => ?_
  · simp [Database.hasEmptyRow, hnone]
  unfold sessionMicros
  congr 1
  · -- the segments: an open one gains nothing, and the others do not read the clock
    rw [sum_joinedSegments, sum_joinedSegments]
    refine congrArg List.sum (List.map_congr_left fun g hg => ?_)
    by_cases hsid : g.sessionId = id
    · rw [if_pos (by simpa using hsid), if_pos (by simpa using hsid)]
      show ts.clip g.startedAt (g.endedAt.getD now') = ts.clip g.startedAt (g.endedAt.getD now)
      cases hend : g.endedAt with
      | some e => rfl
      | none =>
        have hg' := hsegments g hg
        rw [hsid] at hg'
        refine (Timesheet.clip_eq_of_apart ?_).symm
        simpa [Segment.isOpen, hend, hid] using hg'
    · rw [if_neg (by simpa using hsid), if_neg (by simpa using hsid)]
  · -- the empty row: a session that has one later has one now
    have hmono : ∀ g : Segment, ts.joinsSegment now id g = true → ts.joinsSegment now' id g = true := by
      intro g hg
      unfold Timesheet.joinsSegment at hg ⊢
      simp only [Bool.and_eq_true, decide_eq_true_eq] at hg ⊢
      refine ⟨hg.1, hg.2.trans ?_⟩
      cases g.endedAt with
      | none => exact hlater
      | some e => exact le_rfl
    rw [joinedSegments_isEmpty, joinedSegments_isEmpty]
    cases hafter : db.segments.any (ts.joinsSegment now' id) with
    | false =>
      have hbefore : db.segments.any (ts.joinsSegment now id) = false := by
        rw [List.any_eq_false] at hafter ⊢
        exact fun g hg hjoins => hafter g hg (hmono g hjoins)
      rw [hbefore]
      refine if_congr Iff.rfl (hclip ?_) rfl
      unfold Database.hasEmptyRow
      rw [Bool.or_eq_true, List.any_eq_true]
      refine .inr ⟨id, hid, ?_⟩
      rw [joinedSegments_isEmpty, hafter]
      rfl
    | true =>
      cases hbefore : db.segments.any (ts.joinsSegment now id) with
      | true => rfl
      | false =>
        -- a segment joins now that did not before: the period had not begun
        obtain ⟨g, hg, hjoins⟩ := List.any_eq_true.mp hafter
        have hnot := List.any_eq_false.mp hbefore g hg
        have hzero : ts.clip ts.opens now = 0 := by
          rw [Timesheet.clip_opens_eq_zero]
          left
          unfold Timesheet.joinsSegment at hjoins hnot
          cases hend : g.endedAt with
          | some e =>
            rw [hend] at hjoins hnot
            exact absurd hjoins hnot
          | none =>
            rw [hend] at hjoins hnot
            simp only [Bool.and_eq_true, decide_eq_true_eq, Option.getD_none] at hjoins hnot
            by_contra hopened
            exact hnot ⟨hjoins.1, (not_le.mp hopened).le⟩
        rw [if_neg (by simp), if_pos (by simp), hzero]

/-! ## Segments end -/

variable {previous : Option AgentStateEvent} {observed clock : Int} {call : SyncCall}
  {adm : Admission}

/-- A segment ended where no time of the period lies between its new end and the clock counts as much
as before, and joins as before once the period has begun. -/
theorem SegmentEnded.counted {ends : Segment → Int → Prop} {g g' : Segment}
    (h : SegmentEnded ends g g')
    (hends : ∀ e, g.endedAt = none → ends g e →
      ∃ t, e = max g.startedAt t ∧ ts.apart g.startedAt clock t = true) :
    ts.counted clock (some g') = ts.counted clock (some g) ∧
      (ts.clip ts.opens clock ≠ 0 → ts.joinsSegment clock id g' = ts.joinsSegment clock id g) := by
  cases h with
  | same => exact ⟨rfl, fun _ => rfl⟩
  | ended e hopen he =>
    obtain ⟨t, rfl, hapart⟩ := hends e hopen he
    constructor
    · show ts.clip g.startedAt (max g.startedAt t) = ts.clip g.startedAt (g.endedAt.getD clock)
      rw [Timesheet.clip_max, hopen]
      exact (Timesheet.clip_eq_of_apart hapart).symm
    · intro hbegun
      rw [Ne, Timesheet.clip_opens_eq_zero] at hbegun
      unfold Timesheet.apart at hapart
      simp only [Bool.or_eq_true, beq_iff_eq, decide_eq_true_eq] at hapart
      unfold Timesheet.joinsSegment
      rw [hopen, Bool.eq_iff_iff]
      simp only [Bool.and_eq_true, beq_iff_eq, decide_eq_true_eq, Option.getD_some,
        Option.getD_none]
      omega

/-- The ending phase of a heartbeat keeps what every joined session counts, and its empty row. -/
theorem sessionMicros_ends (h : Ends (SyncEnd previous observed db call adm) db mid)
    (hkeep : endsOutside ts clock previous observed db call adm = true)
    (hid : id ∈ db.joinedIds ts) :
    sessionMicros clock mid ts id = sessionMicros clock db ts id ∧
      (ts.clip ts.opens clock ≠ 0 → (mid.joinedSegments clock ts id).isEmpty =
        (db.joinedSegments clock ts id).isEmpty) := by
  unfold endsOutside at hkeep
  rw [List.all_eq_true] at hkeep
  -- row by row, for the rows of this session
  have hrows : List.Forall₂ (fun g g' => g'.sessionId = g.sessionId ∧ (g.sessionId = id →
      ts.counted clock (some g') = ts.counted clock (some g) ∧
        (ts.clip ts.opens clock ≠ 0 → ts.joinsSegment clock id g' = ts.joinsSegment clock id g)))
      db.segments mid.segments := by
    refine List.Forall₂.imp ?_ ((List.forall₂_and_left _ _).mpr ⟨hkeep, h.segments⟩)
    rintro g g' ⟨hg, hended⟩
    refine ⟨hended.start_eq.2.1, fun hsid => hended.counted fun e hopen hend => ?_⟩
    obtain ⟨t, ht, he⟩ := hend.mem_endInstants
    have hopen' : g.isOpen = true := by simp [hopen]
    simp only [hopen', hsid, List.contains_iff_mem.mpr hid, Bool.and_self, Bool.not_true,
      Bool.false_or, List.all_eq_true] at hg
    exact ⟨t, he, hg t (hsid ▸ ht)⟩
  have hempty : ts.clip ts.opens clock ≠ 0 → (mid.joinedSegments clock ts id).isEmpty =
      (db.joinedSegments clock ts id).isEmpty := by
    intro hbegun
    rw [joinedSegments_isEmpty, joinedSegments_isEmpty]
    congr 1
    refine (Library.any_of_forall₂ (hrows.imp fun g g' ⟨hsid, hg⟩ => ?_)).symm
    by_cases heq : g.sessionId = id
    · exact ((hg heq).2 hbegun).symm
    · have hne : (g.sessionId == id) = false := by simpa using heq
      simp [Timesheet.joinsSegment, hsid, hne]
  refine ⟨?_, hempty⟩
  unfold sessionMicros
  congr 1
  · rw [sum_joinedSegments, sum_joinedSegments]
    refine (Library.sum_of_forall₂ (hrows.imp fun g g' ⟨hsid, hg⟩ => ?_)).symm
    by_cases heq : g.sessionId = id
    · rw [if_pos (by simpa using heq), if_pos (by simpa [hsid] using heq), (hg heq).1]
    · rw [if_neg (by simpa using heq), if_neg (by simpa [hsid] using heq)]
  · by_cases hzero : ts.clip ts.opens clock = 0
    · rw [hzero, ite_self, ite_self]
    · rw [hempty hzero]

/-! ## A segment or a session begins -/

/-- One more segment changes what a session counts only where it has time in the period, or takes
away the session's empty row. -/
theorem sessionMicros_append {g0 : Segment} (hsegments : db'.segments = mid.segments ++ [g0])
    (hkeep : g0.sessionId = id → ts.counted now (some g0) = 0 ∧
      (ts.joinsSegment now id g0 = true → (mid.joinedSegments now ts id).isEmpty = true →
        ts.clip ts.opens now = 0)) :
    sessionMicros now db' ts id = sessionMicros now mid ts id := by
  unfold sessionMicros
  congr 1
  · rw [sum_joinedSegments, sum_joinedSegments, hsegments, List.map_append, List.sum_append]
    by_cases hsid : g0.sessionId = id
    · simp [(hkeep hsid).1]
    · simp [hsid]
  · have hany : db'.segments.any (ts.joinsSegment now id) =
        (mid.segments.any (ts.joinsSegment now id) || ts.joinsSegment now id g0) := by
      rw [hsegments]
      simp
    rw [joinedSegments_isEmpty, joinedSegments_isEmpty, hany]
    by_cases hjoins : ts.joinsSegment now id g0 = true
    · have hsid : g0.sessionId = id := by
        unfold Timesheet.joinsSegment at hjoins
        simp only [Bool.and_eq_true, beq_iff_eq] at hjoins
        exact hjoins.1.1
      cases hmid : mid.segments.any (ts.joinsSegment now id) with
      | true => rfl
      | false =>
        have hzero := (hkeep hsid).2 hjoins (by rw [joinedSegments_isEmpty, hmid]; rfl)
        rw [hzero, ite_self, ite_self]
    · have hfalse : ts.joinsSegment now id g0 = false := by simpa using hjoins
      rw [hfalse, Bool.or_false]

/-- A session without segments counts one empty row. -/
theorem sessionMicros_fresh (h : ∀ g ∈ db.segments, g.sessionId ≠ id) :
    sessionMicros now db ts id = ts.clip ts.opens now := by
  have hnone : db.joinedSegments now ts id = [] := by
    refine List.filter_eq_nil_iff.mpr fun g hg => ?_
    simp [Timesheet.joinsSegment, h g hg]
  unfold sessionMicros
  rw [hnone]
  simp

/-- A stretch that begins at `observed` has no time in the period, when it begins after the period,
when it has not begun at the clock, or when the period has not. -/
theorem Timesheet.clip_started_eq_zero
    (h : ts.closes ≤ observed ∨ clock ≤ ts.opens ∨ clock ≤ observed) :
    ts.clip observed clock = 0 := by
  unfold clip
  omega

/-- A new session counts nothing when its first segment begins before the period's end, and has no
time in the period at the clock. -/
theorem sessionMicros_started {g0 : Segment} (hfresh : ∀ g ∈ mid.segments, g.sessionId ≠ id)
    (hsegments : db'.segments = mid.segments ++ [g0]) (hsid : g0.sessionId = id)
    (hopen : g0.endedAt = none) (hbefore : g0.startedAt < ts.closes)
    (hcond : clock ≤ ts.opens ∨ clock ≤ g0.startedAt) : sessionMicros clock db' ts id = 0 := by
  have hzero : ts.counted clock (some g0) = 0 := by
    show ts.clip g0.startedAt (g0.endedAt.getD clock) = 0
    rw [hopen]
    exact Timesheet.clip_started_eq_zero (.inr hcond)
  have hjoined : db'.joinedSegments clock ts id = [g0].filter (ts.joinsSegment clock id) := by
    unfold Database.joinedSegments
    rw [hsegments, List.filter_append, List.filter_eq_nil_iff.mpr, List.nil_append]
    intro g hg
    simp [Timesheet.joinsSegment, hfresh g hg]
  unfold sessionMicros
  rw [hjoined, List.filter_singleton]
  by_cases hjoins : ts.joinsSegment clock id g0 = true
  · rw [hjoins]
    show ts.counted clock (some g0) + 0 + 0 = 0
    rw [hzero]
    rfl
  · -- it does not join before the period begins
    have hnot : clock ≤ ts.opens := by
      by_contra hbegun
      apply hjoins
      simp [Timesheet.joinsSegment, hsid, hbefore, hopen, (not_le.mp hbegun).le]
    have hfalse : ts.joinsSegment clock id g0 = false := by simpa using hjoins
    rw [hfalse]
    show 0 + ts.clip ts.opens clock = 0
    rw [Timesheet.clip_opens_eq_zero.mpr (.inl hnot)]
    rfl

/-- One more session adds what it counts, and takes the place of the empty row of a timesheet that
joined none. -/
theorem trackedMicros_insert (hids : db'.joinedIds ts = mid.joinedIds ts ++ [id])
    (hold : ∀ id' ∈ mid.joinedIds ts,
      sessionMicros now db' ts id' = sessionMicros now mid ts id')
    (hnew : sessionMicros now db' ts id =
      if (mid.joinedIds ts).isEmpty then ts.clip ts.opens now else 0) :
    trackedMicros now db' ts = trackedMicros now mid ts := by
  have hsome : ¬ (mid.joinedIds ts ++ [id]).isEmpty = true := by simp
  rw [trackedMicros_eq, trackedMicros_eq, hids, if_neg hsome, List.map_append, List.sum_append,
    List.map_congr_left hold, List.map_singleton, List.sum_singleton, hnew, Int.add_zero]

/-! ## One heartbeat -/

/-- The heartbeat opens a session, as a row and, when it is active, with a segment. -/
theorem trackedMicros_opened {row : WorkSession} {now : Int} (hinv : StoreInvariant db)
    (hends : Ends (SyncEnd previous observed db call adm) db mid)
    (hrow : row = newWorkSession now mid call adm observed)
    (hsessions : db'.workSessions = mid.workSessions ++ [row])
    (hsegments : db'.segments = mid.segments ++
      (if adm.status = .active then [⟨mid.nextId + 1, row.id, observed, none⟩] else []))
    (hstatus : adm.status ≠ .stopped)
    (hnone : ∀ session, ¬ Kept previous observed db call adm session)
    (hids : mid.joinedIds ts = db.joinedIds ts)
    (hstarts : startsOutside ts clock previous observed db call adm = true) :
    trackedMicros clock db' ts = trackedMicros clock mid ts := by
  have hrowId : row.id = db.nextId := by rw [hrow, ← hends.nextId_eq]; rfl
  -- the new session's id is fresh: no segment and no joined session has it
  have hfresh : ∀ g ∈ mid.segments, g.sessionId ≠ row.id := by
    intro g hg hsid
    obtain ⟨g0, hg0, hgg⟩ := Library.exists_of_forall₂_right hends.segments hg
    obtain ⟨ws, hws, hid⟩ := hinv.segmentSession g0 hg0
    have hlt := hinv.sessionIds ws hws
    rw [hid, ← hgg.start_eq.2.1, hsid, hrowId] at hlt
    exact lt_irrefl _ hlt
  have hother : ∀ id ∈ mid.joinedIds ts, row.id ≠ id := by
    intro id hid heq
    rw [hids] at hid
    obtain ⟨ws, hws, hwid, _⟩ := mem_joinedIds.mp hid
    have hlt := hinv.sessionIds ws hws
    rw [hwid, ← heq, hrowId] at hlt
    exact lt_irrefl _ hlt
  have hold : ∀ id, row.id ≠ id →
      sessionMicros clock db' ts id = sessionMicros clock mid ts id := by
    intro id hne
    by_cases hactive : adm.status = .active
    · rw [if_pos hactive] at hsegments
      exact sessionMicros_append hsegments fun hsid => absurd hsid hne
    · rw [if_neg hactive, List.append_nil] at hsegments
      unfold sessionMicros Database.joinedSegments
      rw [hsegments]
  have hids' : db'.joinedIds ts =
      mid.joinedIds ts ++ if ts.joinsSession row then [row.id] else [] := by
    unfold Database.joinedIds Database.joinedSessions
    rw [hsessions, List.filter_append, List.map_append, List.filter_singleton]
    cases ts.joinsSession row <;> rfl
  by_cases hjoins : ts.joinsSession row = true
  · -- the session is one of the member's, begun before the period's end
    have hrowJoins : call.device.ownerUserId = some ts.userId ∧ observed < ts.closes := by
      rw [hrow] at hjoins
      unfold Timesheet.joinsSession at hjoins
      rw [Bool.and_eq_true, beq_iff_eq, decide_eq_true_eq] at hjoins
      exact hjoins
    have hkept : keptSession previous observed db call adm = none := by
      cases hk : keptSession previous observed db call adm with
      | none => rfl
      | some session => exact absurd (keptSession_eq_some.mp hk) (hnone session)
    unfold startsOutside at hstarts
    rw [hkept, ← hids] at hstarts
    rw [if_pos hjoins] at hids'
    refine trackedMicros_insert hids' (fun id hid => hold id (hother id hid)) ?_
    by_cases hactive : adm.status = .active
    · rw [if_pos hactive] at hsegments
      have hcond : clock ≤ ts.opens ∨ clock ≤ observed ∧ mid.joinedIds ts ≠ [] := by
        simpa [hrowJoins.1, hactive, not_le.mpr hrowJoins.2] using hstarts
      rw [sessionMicros_started hfresh hsegments rfl rfl hrowJoins.2 (hcond.imp_right And.left)]
      rcases hcond with hbefore | ⟨_, hsome⟩
      · rw [Timesheet.clip_opens_eq_zero.mpr (.inl hbefore), ite_self]
      · rw [if_neg (by simpa using hsome)]
    · rw [if_neg hactive, List.append_nil] at hsegments
      have hcond : clock ≤ ts.opens ∨ mid.joinedIds ts = [] := by
        simpa [hrowJoins.1, hactive, hstatus, not_le.mpr hrowJoins.2] using hstarts
      rw [sessionMicros_fresh (hsegments ▸ hfresh)]
      rcases hcond with hbefore | hempty
      · rw [Timesheet.clip_opens_eq_zero.mpr (.inl hbefore), ite_self]
      · rw [hempty, if_pos List.isEmpty_nil]
  · rw [if_neg hjoins, List.append_nil] at hids'
    exact trackedMicros_congr hids' (fun _ => rfl) fun id hid => hold id (hother id hid)

/-- **A heartbeat that meets the condition keeps the tracked time.** -/
theorem Accepted.trackedMicros_eq {now : Int}
    (hacc : Accepted now previous observed db call adm db') (hinv : StoreInvariant db)
    (hends : endsOutside ts clock previous observed db call adm = true)
    (hstarts : startsOutside ts clock previous observed db call adm = true) :
    trackedMicros clock db' ts = trackedMicros clock db ts := by
  obtain ⟨mid, written, sessionId, hmid, _, houtcome, _, hdb'⟩ := hacc
  have hids : mid.joinedIds ts = db.joinedIds ts := joinedIds_eq hmid.sessions
  have hended : trackedMicros clock mid ts = trackedMicros clock db ts :=
    trackedMicros_congr hids (fun _ => rfl) fun id hid => (sessionMicros_ends hmid hends hid).1
  have hwritten : trackedMicros clock db' ts = trackedMicros clock written ts := by
    rw [hdb']
    rfl
  rw [hwritten, ← hended]
  cases houtcome with
  | stayed => rfl
  | opened row hrow hstatus hslot hnone db1 hdb1 =>
    refine trackedMicros_opened hinv hmid hrow ?_ ?_ hstatus hnone hids hstarts
    · rw [hdb1]
      split <;> rfl
    · rw [hdb1]
      split
      · rfl
      · exact (List.append_nil _).symm
  | resumed session hkept hactive hpaused =>
    refine trackedMicros_congr rfl (fun _ => rfl) fun id hid => ?_
    refine sessionMicros_append rfl fun hsid => ?_
    -- the resumed session is the joined one with its id
    have hid' := hids ▸ hid
    obtain ⟨ws, hws, hwid, hjoins⟩ := mem_joinedIds.mp hid'
    obtain rfl : ws = session :=
      hinv.sessionKeys.eq hws (deviceSession_mem hkept.session_eq).1 (hwid.trans hsid.symm)
    have hcond : (ts.closes ≤ observed ∨ clock ≤ ts.opens) ∨
        clock ≤ observed ∧ (db.joinedSegments clock ts ws.id).isEmpty = false := by
      unfold startsOutside at hstarts
      rw [keptSession_eq_some.mpr hkept] at hstarts
      simpa [hactive, hpaused, hjoins, or_assoc] using hstarts
    constructor
    · show ts.clip observed clock = 0
      refine Timesheet.clip_started_eq_zero ?_
      rcases hcond with (h | h) | ⟨h, _⟩
      · exact .inl h
      · exact .inr (.inl h)
      · exact .inr (.inr h)
    · intro hnew hempty
      by_contra hbegun
      rcases hcond with (h | h) | ⟨_, hsome⟩
      · simp [Timesheet.joinsSegment, not_lt.mpr h] at hnew
      · exact hbegun (Timesheet.clip_opens_eq_zero.mpr (.inl h))
      · rw [(sessionMicros_ends hmid hends hid').2 hbegun, ← hwid, hsome] at hempty
        cases hempty

end

/-! ## The other operations -/

/-- Sessions and segments are consistent, and timesheets and manual entries are found by their ids. -/
structure TimeInvariant (db : Database) : Prop extends StoreInvariant db where
  timesheetKeys : Library.CountedKeys (·.id) db.timesheets db.nextId
  manualKeys : Library.CountedKeys (·.id) db.manualTimeEntries db.nextId

section

variable {db db' : Database} {ts : Timesheet}

/-- An operation on timesheets leaves everything else, the keys and the approved rows. -/
structure TimesheetsOnly (db db' : Database) : Prop where
  frame : db' = { db with timesheets := db'.timesheets, nextId := db'.nextId }
  nextId_le : db.nextId ≤ db'.nextId
  keys : Library.CountedKeys (·.id) db'.timesheets db'.nextId
  approved : ∀ ts ∈ db.timesheets, ts.status = .approved → ts ∈ db'.timesheets

/-- An update of the status of one timesheet that is not approved. -/
theorem TimesheetsOnly.update (h : TimeInvariant db) {existing : Timesheet}
    (hmem : existing ∈ db.timesheets) (hstatus : existing.status ≠ .approved) {timesheetId : Nat}
    (hid : existing.id = timesheetId) {f : Timesheet → Timesheet} (hf : ∀ ts, (f ts).id = ts.id) :
    TimesheetsOnly db
      { db with timesheets := updateWhere (·.id == timesheetId) f db.timesheets } := by
  refine ⟨rfl, le_rfl, h.timesheetKeys.updateWhere hf, fun ts hts happroved => ?_⟩
  have hne : ¬ (ts.id == timesheetId) = true := by
    rw [beq_iff_eq, ← hid]
    intro heq
    obtain rfl := h.timesheetKeys.unique.eq hts hmem heq
    exact hstatus happroved
  have hkept := Library.mem_updateWhere_of_mem (p := (·.id == timesheetId)) (f := f) hts
  rw [if_neg hne] at hkept
  exact hkept

theorem submitTimesheet_ensures (h : TimeInvariant db) (userId : Nat) (periodStart periodEnd : Int) :
    Library.Ensures (submitTimesheet db userId periodStart periodEnd) (TimesheetsOnly db) := by
  refine Library.Ensures.bind ensures_raiseIf fun _ _ =>
    Library.Ensures.bind ensures_raiseIf fun _ _ => ?_
  split
  · rename_i existing hfind
    refine Library.Ensures.bind ensures_raiseIf fun _ hstatus => ?_
    rw [Library.ensures_pure]
    exact .update (f := fun ts => { ts with status := .submitted }) h
      (List.mem_of_find?_eq_some hfind) hstatus rfl fun _ => rfl
  · refine Library.ensures_ite (fun _ => by simp) fun _ => Library.ensures_ite (fun _ => by simp)
      fun _ => ?_
    rw [Library.ensures_ok]
    exact ⟨rfl, Nat.le_succ _, h.timesheetKeys.append rfl,
      fun ts hts _ => List.mem_append_left _ hts⟩

theorem reviewTimesheet_ensures (h : TimeInvariant db) (timesheetId reviewerUserId : Nat)
    (decision : Option TimesheetStatus) :
    Library.Ensures (reviewTimesheet db timesheetId reviewerUserId decision) (TimesheetsOnly db) := by
  -- both decisions make the same update
  have hreview : ∀ current, db.timesheets.find? (·.id == timesheetId) = some current →
      Library.Ensures (do
        raiseIf (current.status ≠ .submitted) "Only submitted timesheets can be reviewed"
        if (db.getUserAny reviewerUserId).isNone then .error .foreignKeyViolation
        else
          return { db with
            timesheets :=
              updateWhere (·.id == timesheetId)
                (fun ts => { ts with status := decision.getD ts.status }) db.timesheets })
      (TimesheetsOnly db) := by
    intro current hfind
    refine Library.Ensures.bind ensures_raiseIf fun _ hstatus => ?_
    refine Library.ensures_ite (fun _ => by simp) fun _ => ?_
    rw [Library.ensures_pure]
    have hsubmitted : current.status = .submitted := not_not.mp hstatus
    refine .update (f := fun ts => { ts with status := decision.getD ts.status }) h
      (List.mem_of_find?_eq_some hfind) (by rw [hsubmitted]; decide) ?_ fun _ => rfl
    simpa using List.find?_some hfind
  unfold reviewTimesheet
  split
  · split
    · exact Library.ensures_error
    · exact hreview _ ‹_›
  · split
    · exact Library.ensures_error
    · exact hreview _ ‹_›
  · exact Library.ensures_error

/-- A manual entry that is let in starts outside the approved period, or waits for a review. -/
theorem addManualTime_ensures (db : Database) (userId projectId : Nat) (taskId : Option Nat)
    (startedAt endedAt : Datetime) (note : String) (autoApprove : Bool) :
    Library.Ensures (addManualTime db userId projectId taskId startedAt endedAt note autoApprove)
      fun db' => manualTimeLocked db userId startedAt endedAt = false ∧ db' = { db with
        manualTimeEntries := db.manualTimeEntries ++
          [newManualTimeEntry db userId projectId taskId startedAt endedAt note autoApprove]
        nextId := db.nextId + 1 } := by
  unfold addManualTime
  split
  · exact Library.ensures_error
  · refine Library.Ensures.bind ensures_raiseIf fun _ _ => ?_
    refine Library.ensures_ite (fun _ => by simp) fun _ => ?_
    refine Library.Ensures.bind ensures_raiseIf fun _ hlocked => ?_
    refine Library.ensures_ite (fun _ => by simp) fun _ => ?_
    rw [Library.ensures_ok]
    exact ⟨by simpa using hlocked, rfl⟩

/-- A manual entry outside what the timesheet takes leaves its manual seconds. -/
theorem manualSeconds_append {m : ManualTimeEntry}
    (hdb : db'.manualTimeEntries = db.manualTimeEntries ++ [m]) (h : ts.takesManual m = false) :
    manualSeconds db' ts = manualSeconds db ts := by
  have hlast : [m].filter ts.takesManual = [] := by simp [h]
  unfold manualSeconds
  rw [hdb, List.filter_append, hlast, List.append_nil]

/-- What a review writes. -/
inductive Reviewed (db : Database) (table : ReviewTable) (itemId : Nat) (status : ReviewStatus) :
    Database → Prop
  | manualTime (item : ManualTimeEntry) (htable : table = .manualTimeEntries)
      (hitem : item ∈ db.manualTimeEntries) (hid : item.id = itemId)
      (hlocked : db.isPeriodLocked item.userId (dateOf item.startedAt) = false) :
      Reviewed db table itemId status { db with
        manualTimeEntries :=
          updateWhere (·.id == itemId) (fun m => { m with status }) db.manualTimeEntries }
  | timeOff (htable : table = .timeOffRequests) :
      Reviewed db table itemId status { db with
        timeOffRequests :=
          updateWhere (·.id == itemId) (fun r => { r with status }) db.timeOffRequests }

theorem reviewItem_ensures (db : Database) (table : ReviewTable) (itemId reviewerId : Nat)
    (status : Option ReviewStatus) :
    Library.Ensures (reviewItem db table itemId reviewerId status)
      fun db' => ∃ decision, status = some decision ∧ Reviewed db table itemId decision db' := by
  unfold reviewItem
  split
  · exact Library.ensures_error
  · exact Library.ensures_error
  · rename_i decision _
    cases table with
    | manualTimeEntries =>
      simp only
      cases hfind : db.manualTimeEntries.find? (·.id == itemId) with
      | none => exact Library.ensures_error
      | some item =>
        refine Library.Ensures.bind ensures_raiseIf fun _ hlocked => ?_
        refine Library.ensures_ite (fun _ => by simp) fun _ => ?_
        rw [Library.ensures_pure]
        exact ⟨decision, rfl, .manualTime item rfl (List.mem_of_find?_eq_some hfind)
          (by simpa using List.find?_some hfind) (by simpa using hlocked)⟩
    | timeOffRequests =>
      simp only
      cases hfind : db.timeOffRequests.find? (·.id == itemId) with
      | none => exact Library.ensures_error
      | some item =>
        refine Library.ensures_ite (fun _ => by simp) fun _ => ?_
        rw [Library.ensures_ok]
        exact ⟨decision, rfl, .timeOff rfl⟩

end

/-! ## The invariant over runs -/

section

variable {db db' : Database}

theorem TimeInvariant.timesheetsOnly (h : TimeInvariant db) (hdb : TimesheetsOnly db db') :
    TimeInvariant db' := by
  have hframe := hdb.frame
  refine ⟨h.toStoreInvariant.of_eq ?_ ?_ hdb.nextId_le, hdb.keys, ?_⟩
  · rw [hframe]
  · rw [hframe]
  · rw [hframe]
    exact h.manualKeys.mono hdb.nextId_le

theorem TimeInvariant.addManualTime (h : TimeInvariant db) {userId projectId : Nat}
    {taskId : Option Nat} {startedAt endedAt : Datetime} {note : String} {autoApprove : Bool} :
    TimeInvariant { db with
      manualTimeEntries := db.manualTimeEntries ++
        [newManualTimeEntry db userId projectId taskId startedAt endedAt note autoApprove]
      nextId := db.nextId + 1 } :=
  ⟨h.toStoreInvariant.of_eq rfl rfl (Nat.le_succ _), h.timesheetKeys.mono (Nat.le_succ _),
    h.manualKeys.append rfl⟩

theorem TimeInvariant.reviewed (h : TimeInvariant db) {table : ReviewTable} {itemId : Nat}
    {decision : ReviewStatus} (hreviewed : Reviewed db table itemId decision db') :
    TimeInvariant db' := by
  cases hreviewed with
  | manualTime item htable hitem hid hlocked =>
    exact ⟨h.toStoreInvariant.of_eq rfl rfl le_rfl, h.timesheetKeys,
      h.manualKeys.updateWhere (f := fun m => { m with status := decision }) fun _ => rfl⟩
  | timeOff htable =>
    exact ⟨h.toStoreInvariant.of_eq rfl rfl le_rfl, h.timesheetKeys, h.manualKeys⟩

theorem TimeInvariant.accepted {now : Int} {previous : Option AgentStateEvent} {observed : Int}
    {call : SyncCall} {adm : Admission} (h : TimeInvariant db) (hstore : StoreInvariant db')
    (hacc : Accepted now previous observed db call adm db') : TimeInvariant db' := by
  have hnext := hacc.nextId_le
  have hframe := hacc.frame
  refine ⟨hstore, ?_, ?_⟩
  · have htimesheets : db'.timesheets = db.timesheets := by rw [hframe]
    rw [htimesheets]
    exact h.timesheetKeys.mono hnext
  · have hmanual : db'.manualTimeEntries = db.manualTimeEntries := by rw [hframe]
    rw [hmanual]
    exact h.manualKeys.mono hnext

theorem TimeInvariant.step {s : TimesheetState} (h : TimeInvariant s.db) (op : TimesheetOp) :
    TimeInvariant (timesheetStep s op).db := by
  have hcommit : Library.Ensures (op.run s.clock s.db) TimeInvariant →
      TimeInvariant (timesheetStep s op).db := by
    intro hensures
    show TimeInvariant (commit s.db (op.run s.clock s.db))
    cases hrun : op.run s.clock s.db with
    | error e => exact h
    | ok db' => exact hensures db' hrun
  cases op with
  | tick now => exact h
  | sync tie call =>
    show TimeInvariant (Dayfinch.step s.db (.sync tie s.clock call))
    rcases step_sync s.db tie s.clock call with hsame | ⟨adm, _, _, hacc, _⟩
    · rw [hsame]
      exact h
    · exact h.accepted (h.toStoreInvariant.step _) hacc
  | addManualTime userId projectId taskId startedAt endedAt note autoApprove =>
    apply hcommit
    intro db' hok
    obtain ⟨_, rfl⟩ := addManualTime_ensures _ _ _ _ _ _ _ _ db' hok
    exact h.addManualTime
  | reviewItem table itemId reviewerId status =>
    apply hcommit
    intro db' hok
    obtain ⟨_, _, hreviewed⟩ := reviewItem_ensures _ _ _ _ _ db' hok
    exact h.reviewed hreviewed
  | submitTimesheet userId periodStart periodEnd =>
    apply hcommit
    exact (submitTimesheet_ensures h _ _ _).mono fun _ hdb => h.timesheetsOnly hdb
  | reviewTimesheet timesheetId reviewerUserId decision =>
    apply hcommit
    exact (reviewTimesheet_ensures h _ _ _).mono fun _ hdb => h.timesheetsOnly hdb

theorem timeInvariant_withoutTime (db : Database) : TimeInvariant db.withoutTime := by
  have hstore : StoreInvariant db.withoutTime :=
    (storeInvariant_withoutWork db).of_eq rfl rfl le_rfl
  exact ⟨hstore, .nil _ _, .nil _ _⟩

theorem timeInvariant_run (db : Database) (start : Int) (ops : List TimesheetOp) :
    TimeInvariant (run timesheetStep ⟨db.withoutTime, start⟩ ops).db :=
  Library.run_invariant (fun s : TimesheetState => TimeInvariant s.db) (fun _ op h => h.step op)
    (timeInvariant_withoutTime db) ops

end

/-! ## The frozen row -/

/-- The timesheet is stored as it was approved, its row of the report is `row`, and the users are the
same. -/
structure Frozen (ts : Timesheet) (row : TimesheetRow) (users : List User) (s : TimesheetState) :
    Prop where
  stored : ts ∈ s.db.timesheets
  row_eq : timesheetRow s.clock s.db ts = row
  users_eq : s.db.users = users

section

variable {ts : Timesheet} {row : TimesheetRow} {users : List User} {s : TimesheetState}
  {db' : Database}

/-- A row of the report is made of three totals. -/
theorem timesheetRow_eq {now now' : Int} {db db' : Database}
    (htracked : trackedMicros now' db' ts = trackedMicros now db ts)
    (hmanual : manualSeconds db' ts = manualSeconds db ts) (hpto : ptoSeconds db' ts = ptoSeconds db ts) :
    timesheetRow now' db' ts = timesheetRow now db ts := by
  have htotal : trackedSeconds now' db' ts = trackedSeconds now db ts := congrArg toBigint htracked
  unfold timesheetRow
  rw [htotal, hmanual, hpto]

theorem Frozen.tick (h : Frozen ts row users s) {now : Int}
    (hkeep : gainsNothing ts s.db s.clock (max s.clock now) = true) :
    Frozen ts row users { s with clock := max s.clock now } := by
  refine ⟨h.stored, ?_, h.users_eq⟩
  rw [← h.row_eq]
  exact timesheetRow_eq (trackedMicros_tick (le_max_left _ _) hkeep) rfl rfl

theorem Frozen.accepted (h : Frozen ts row users s) {now : Int} {previous : Option AgentStateEvent}
    {observed : Int} {call : SyncCall} {adm : Admission} (hinv : StoreInvariant s.db)
    (hacc : Accepted now previous observed s.db call adm db')
    (hcond : heartbeatOutside ts s.clock previous observed s.db call adm = true) :
    Frozen ts row users { s with db := db' } := by
  rw [heartbeatOutside, Bool.and_eq_true] at hcond
  have htracked := hacc.trackedMicros_eq hinv hcond.1 hcond.2
  have hframe := hacc.frame
  refine ⟨?_, ?_, ?_⟩
  · show ts ∈ db'.timesheets
    rw [hframe]
    exact h.stored
  · rw [← h.row_eq]
    refine timesheetRow_eq htracked ?_ ?_
    · show manualSeconds db' ts = _
      rw [hframe]
      rfl
    · show ptoSeconds db' ts = _
      rw [hframe]
      rfl
  · show db'.users = users
    rw [hframe]
    exact h.users_eq

theorem Frozen.timesheetsOnly (h : Frozen ts row users s) (happroved : ts.status = .approved)
    (hdb : TimesheetsOnly s.db db') : Frozen ts row users { s with db := db' } := by
  refine ⟨hdb.approved ts h.stored happroved, ?_, ?_⟩
  · rw [← h.row_eq]
    show timesheetRow s.clock db' ts = _
    rw [hdb.frame]
    rfl
  · show db'.users = users
    rw [hdb.frame]
    exact h.users_eq

theorem Frozen.addManualTime (h : Frozen ts row users s) {userId projectId : Nat}
    {taskId : Option Nat} {startedAt endedAt : Datetime} {note : String} {autoApprove : Bool}
    (hkeep : keepsTotals ts s
      (.addManualTime userId projectId taskId startedAt endedAt note autoApprove) = true)
    (hok : Dayfinch.addManualTime s.db userId projectId taskId startedAt endedAt note autoApprove =
      .ok db') : Frozen ts row users { s with db := db' } := by
  obtain ⟨hlocked, rfl⟩ := addManualTime_ensures _ _ _ _ _ _ _ _ db' hok
  refine ⟨h.stored, ?_, h.users_eq⟩
  rw [← h.row_eq]
  refine timesheetRow_eq rfl (manualSeconds_append rfl ?_) rfl
  simp only [keepsTotals, hlocked, Bool.or_false, Bool.not_eq_true'] at hkeep
  unfold Timesheet.takesManual newManualTimeEntry
  cases autoApprove with
  | true => simpa using hkeep
  | false => simp

/-- A manual entry that starts in no approved period of its user is not one the timesheet takes. -/
theorem not_takesManual_of_not_locked (h : Frozen ts row users s) (happroved : ts.status = .approved)
    {m : ManualTimeEntry} (hlocked : s.db.isPeriodLocked m.userId (dateOf m.startedAt) = false) :
    ¬ ts.takesManual m = true := by
  intro htakes
  unfold Timesheet.takesManual at htakes
  rw [Bool.and_eq_true, Bool.and_eq_true, beq_iff_eq] at htakes
  rw [Database.isPeriodLocked, List.any_eq_false] at hlocked
  apply hlocked ts h.stored
  have hcovers := htakes.2
  unfold Timesheet.covers at hcovers
  rw [htakes.1.1, happroved, beq_self_eq_true, beq_self_eq_true, Bool.true_and, Bool.true_and]
  exact hcovers

/-- A decision on time off that the timesheet does not take, or that stays what it was, leaves the
share of the request in its time-off seconds. -/
theorem takesTimeOff_decided {r : TimeOffRequest} {decision : ReviewStatus}
    (h : (r.userId == ts.userId && ts.meets r.startsOn r.endsOn) = true →
      r.minutes = 0 ∨ (r.status == .approved) = (decision == .approved)) :
    (if ts.takesTimeOff { r with status := decision } then r.minutes * 60 else 0) =
      if ts.takesTimeOff r then r.minutes * 60 else 0 := by
  unfold Timesheet.takesTimeOff
  rw [Bool.and_right_comm, Bool.and_right_comm (r.userId == ts.userId) (r.status == .approved)]
  by_cases hmeets : (r.userId == ts.userId && ts.meets r.startsOn r.endsOn) = true
  · rw [hmeets, Bool.true_and, Bool.true_and]
    rcases h hmeets with hzero | hsame
    · rw [hzero, Int.zero_mul, ite_self, ite_self]
    · rw [hsame]
  · rw [Bool.not_eq_true] at hmeets
    rw [hmeets, Bool.false_and, Bool.false_and]

theorem Frozen.reviewed (h : Frozen ts row users s) (hinv : TimeInvariant s.db)
    (happroved : ts.status = .approved) {table : ReviewTable} {itemId reviewerId : Nat}
    {decision : ReviewStatus}
    (hkeep : keepsTotals ts s (.reviewItem table itemId reviewerId (some decision)) = true)
    (hreviewed : Reviewed s.db table itemId decision db') :
    Frozen ts row users { s with db := db' } := by
  cases hreviewed with
  | manualTime item htable hitem hid hlocked =>
    refine ⟨h.stored, ?_, h.users_eq⟩
    rw [← h.row_eq]
    refine timesheetRow_eq rfl ?_ rfl
    refine congrArg toBigint (Library.sum_filter_updateWhere fun m hm hsel => ?_)
    -- the entry is the reviewed item, which starts in no approved period of its user
    obtain rfl : m = item :=
      hinv.manualKeys.unique.eq hm hitem ((by simpa using hsel : m.id = itemId).trans hid.symm)
    rw [if_neg (not_takesManual_of_not_locked h happroved hlocked)]
    exact if_neg
      (not_takesManual_of_not_locked (m := { m with status := decision }) h happroved hlocked)
  | timeOff htable =>
    subst htable
    refine ⟨h.stored, ?_, h.users_eq⟩
    rw [← h.row_eq]
    refine timesheetRow_eq rfl rfl (Library.sum_filter_updateWhere fun r hr hsel => ?_)
    refine takesTimeOff_decided fun hmeets => ?_
    simp only [keepsTotals, List.all_eq_true] at hkeep
    have hr' := hkeep r hr
    rw [Bool.and_assoc, hsel, hmeets] at hr'
    simpa using hr'

/-- **One step that keeps the totals keeps the row.** -/
theorem Frozen.step (h : Frozen ts row users s) (hinv : TimeInvariant s.db)
    (happroved : ts.status = .approved) {op : TimesheetOp} (hkeep : keepsTotals ts s op = true) :
    Frozen ts row users (timesheetStep s op) := by
  have hcommit : op.clockAfter s.clock = s.clock →
      Library.Ensures (op.run s.clock s.db) (fun db' => Frozen ts row users { s with db := db' }) →
      Frozen ts row users (timesheetStep s op) := by
    intro hclock hensures
    have hstep : timesheetStep s op = { s with db := commit s.db (op.run s.clock s.db) } := by
      unfold timesheetStep
      rw [hclock]
    rw [hstep]
    cases hrun : op.run s.clock s.db with
    | error e => exact h
    | ok db' => exact hensures db' hrun
  cases op with
  | tick now => exact h.tick hkeep
  | sync tie call =>
    show Frozen ts row users { s with db := Dayfinch.step s.db (.sync tie s.clock call) }
    rcases step_sync s.db tie s.clock call with hsame | ⟨adm, _, _, hacc, hmeets⟩
    · rw [hsame]
      exact h
    · exact h.accepted hinv.toStoreInvariant hacc (hmeets (heartbeatOutside ts s.clock) hkeep)
  | addManualTime userId projectId taskId startedAt endedAt note autoApprove =>
    exact hcommit rfl fun db' hok => h.addManualTime hkeep hok
  | reviewItem table itemId reviewerId status =>
    refine hcommit rfl fun db' hok => ?_
    obtain ⟨decision, rfl, hreviewed⟩ := reviewItem_ensures _ _ _ _ _ db' hok
    exact h.reviewed hinv happroved hkeep hreviewed
  | submitTimesheet userId periodStart periodEnd =>
    refine hcommit rfl ?_
    exact (submitTimesheet_ensures hinv _ _ _).mono fun _ hdb => h.timesheetsOnly happroved hdb
  | reviewTimesheet timesheetId reviewerUserId decision =>
    refine hcommit rfl ?_
    exact (reviewTimesheet_ensures hinv _ _ _).mono fun _ hdb => h.timesheetsOnly happroved hdb

end

/-! ## Runs after approval -/

/-- The rows of the report for a scope of users. -/
theorem mem_listTimesheets {now : Int} {db : Database} {userId : Option Nat}
    {userIds : Option (List Nat)} {rows : List TimesheetRow}
    (h : listTimesheets now db userId userIds = .ok rows) (row : TimesheetRow) :
    row ∈ rows ↔ row.timesheet ∈ db.timesheets ∧ timesheetRow now db row.timesheet = row ∧
      ((db.getUserAny row.timesheet.userId).isSome && userId.all (row.timesheet.userId == ·) &&
        userIds.all (·.contains row.timesheet.userId)) = true := by
  obtain ⟨_, _, hrows⟩ := Library.bind_eq_ok.mp h
  cases hrows
  rw [List.mem_map]
  constructor
  · rintro ⟨ts, hts, rfl⟩
    exact ⟨(List.mem_filter.mp hts).1, rfl, (List.mem_filter.mp hts).2⟩
  · rintro ⟨hmem, hrow, hscope⟩
    exact ⟨row.timesheet, List.mem_filter.mpr ⟨hmem, hscope⟩, hrow⟩

/-- **Approved timesheets are frozen.** In every run whose steps all keep the totals of an approved
timesheet, the report goes on to list the row it listed before. -/
theorem approvedTimesheet_frozen (db : Database) (start : Int) (before after : List TimesheetOp)
    (s : TimesheetState) (hs : s = run timesheetStep ⟨db.withoutTime, start⟩ before)
    (userId : Option Nat) (userIds : Option (List Nat)) (rows : List TimesheetRow)
    (hrows : listTimesheets s.clock s.db userId userIds = .ok rows) (row : TimesheetRow)
    (hrow : row ∈ rows) (happroved : row.timesheet.status = .approved)
    (hafter : Guarded timesheetStep (fun s op => keepsTotals row.timesheet s op = true) s after) :
    ∃ rows', listTimesheets (run timesheetStep s after).clock (run timesheetStep s after).db userId
      userIds = .ok rows' ∧ row ∈ rows' := by
  obtain ⟨hstored, hrowEq, hscope⟩ := (mem_listTimesheets hrows row).mp hrow
  have hinv : TimeInvariant s.db := hs ▸ timeInvariant_run db start before
  have hrun := guarded_invariant
    (fun s' => TimeInvariant s'.db ∧ Frozen row.timesheet row s.db.users s')
    (fun _ _ h hkeep => ⟨h.1.step _, h.2.step h.1 happroved hkeep⟩)
    ⟨hinv, hstored, hrowEq, rfl⟩ hafter
  obtain ⟨_, hscopes, _⟩ := Library.bind_eq_ok.mp hrows
  refine ⟨_, Library.bind_eq_ok.mpr ⟨(), hscopes, rfl⟩, ?_⟩
  refine (mem_listTimesheets (Library.bind_eq_ok.mpr ⟨(), hscopes, rfl⟩) row).mpr ?_
  refine ⟨hrun.2.stored, hrun.2.row_eq, ?_⟩
  have husers : (run timesheetStep s after).db.getUserAny = s.db.getUserAny := by
    funext u
    rw [Database.getUserAny, hrun.2.users_eq]
    rfl
  rw [husers]
  exact hscope

/-- The first week of 1970: the laptop tracks a minute, and the week is approved on the ninth day. -/
def approvedWeek : List TimesheetOp :=
  [.tick (minutes 600),
   .sync (fun _ => 0) (pressed laptop 1 .active (minutes 600)),
   .tick (minutes 601),
   .sync (fun _ => 0) (pressed laptop 2 .stopped (minutes 601)),
   .tick (days 8),
   .submitTimesheet 1 0 6,
   .reviewTimesheet 2 1 (some .approved)]

/-- The next week is tracked, manual time in the approved week is refused, and its submission too. -/
def weekAfter : List TimesheetOp :=
  [.tick (days 9),
   .sync (fun _ => 0) (pressed laptop 3 .active (days 9)),
   .tick (days 9 + minutes 30),
   .addManualTime 1 1 none (Datetime.ofInstant (days 2)) (Datetime.ofInstant (days 2 + minutes 5)) ""
     true,
   .sync (fun _ => 0) (pressed laptop 4 .stopped (days 9 + minutes 30)),
   .submitTimesheet 1 0 6]

theorem approvedTimesheet_frozen_office :
    ∃ rows', listTimesheets
        (run timesheetStep (run timesheetStep ⟨office.withoutTime, 0⟩ approvedWeek) weekAfter).clock
        (run timesheetStep (run timesheetStep ⟨office.withoutTime, 0⟩ approvedWeek) weekAfter).db
        none none = .ok rows' ∧
      (⟨⟨2, 1, 0, 6, .approved⟩, 60, 0, 0⟩ : TimesheetRow) ∈ rows' :=
  approvedTimesheet_frozen office 0 approvedWeek weekAfter _ rfl none none
    [⟨⟨2, 1, 0, 6, .approved⟩, 60, 0, 0⟩] (by decide +kernel) _ (List.mem_singleton_self _) rfl
    (by decide +kernel)

/-! ## Totals that move -/

/-- The operation is a review of this timesheet. -/
def TimesheetOp.reviews (timesheetId : Nat) : TimesheetOp → Bool
  | .reviewTimesheet id _ _ => id == timesheetId
  | _ => false

/-- The worker of the office had asked for a day off in the week, and was denied it. -/
def officeWithTimeOff : Database :=
  { office with
    timeOffRequests := [{ id := 1, userId := 1, startsOn := 2, endsOn := 2, minutes := 480,
                          status := .rejected }] }

/-- The decision on the day off is changed after the week is approved. -/
theorem approvedTimesheet_moves :
    ¬ ∀ (db : Database) (start : Int) (before after : List TimesheetOp) (s : TimesheetState),
      s = run timesheetStep ⟨db.withoutTime, start⟩ before →
      ∀ (userId : Option Nat) (userIds : Option (List Nat)) (rows : List TimesheetRow),
      listTimesheets s.clock s.db userId userIds = .ok rows → ∀ row ∈ rows,
      row.timesheet.status = .approved → (∀ op ∈ after, op.reviews row.timesheet.id = false) →
      ∃ rows', listTimesheets (run timesheetStep s after).clock (run timesheetStep s after).db userId
        userIds = .ok rows' ∧ row ∈ rows' := by
  intro h
  obtain ⟨rows', hrows', hrow⟩ := h officeWithTimeOff 0 approvedWeek
    [.reviewItem .timeOffRequests 1 1 (some .approved)] _ rfl none none
    [⟨⟨2, 1, 0, 6, .approved⟩, 60, 0, 0⟩] (by decide +kernel) _ (List.mem_singleton_self _) rfl
    (by decide +kernel)
  have hafter : listTimesheets
      (run timesheetStep (run timesheetStep ⟨officeWithTimeOff.withoutTime, 0⟩ approvedWeek)
        [.reviewItem .timeOffRequests 1 1 (some .approved)]).clock
      (run timesheetStep (run timesheetStep ⟨officeWithTimeOff.withoutTime, 0⟩ approvedWeek)
        [.reviewItem .timeOffRequests 1 1 (some .approved)]).db none none =
      .ok [⟨⟨2, 1, 0, 6, .approved⟩, 60, 0, 28800⟩] := by decide +kernel
  rw [hafter] at hrows'
  cases hrows'
  exact absurd hrow (by decide)

end Dayfinch
