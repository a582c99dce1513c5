/-
# Dayfinch.Work.NoOverlap -- when is a user's time counted once

Two segments of one user should never overlap. Ending a segment cannot make it overlap more, and a
user has one open segment at most, so the only danger is a heartbeat that begins a segment at an
instant before the end of one that the user has already closed. Nothing in the transaction looks for
that: the event is compared with the same device's last receipt and with a session that is still
live, never with time that another device has tracked and stopped.

`startsInOrder` is the condition that this does not happen, read off the database before the
heartbeat. Every run whose heartbeats meet it keeps segments of a user apart; a replayed journal that
does not is the counterexample.
-/
import Dayfinch.Library.Span
import Dayfinch.Work.StoreInvariant
import Dayfinch.Work.SyncEffect
import Mathlib

namespace Dayfinch

open Library (Span run Guarded guarded_invariant)

/-! ## Segments that do not overlap -/

/-- The stretch of time a segment covers; it runs on while the segment is open. -/
def Segment.span (g : Segment) : Span Int := ⟨g.startedAt, g.endedAt.elim ⊤ fun e => (e : WithTop Int)⟩

/-- Any two segments of one user cover disjoint stretches of time. -/
def NoOverlap (db : Database) : Prop :=
  ∀ g ∈ db.segments, ∀ g' ∈ db.segments, g.id ≠ g'.id →
    ∀ ws ∈ db.workSessions, ∀ ws' ∈ db.workSessions,
      ws.id = g.sessionId → ws'.id = g'.sessionId → ws.userId = ws'.userId → ws.userId.isSome →
        ¬ g.span.Overlaps g'.span

instance (db : Database) : Decidable (NoOverlap db) := by
  unfold NoOverlap
  infer_instance

theorem Segment.span_stop_of_some {g : Segment} {e : Int} (h : g.endedAt = some e) :
    g.span.stop = (e : WithTop Int) := by
  rw [Segment.span, h]
  rfl

theorem Segment.span_stop_of_none {g : Segment} (h : g.endedAt = none) : g.span.stop = ⊤ := by
  rw [Segment.span, h]
  rfl

/-- Ending a segment shortens what it covers. -/
theorem SegmentEnded.span_le {ends : Segment → Int → Prop} {g g' : Segment}
    (h : SegmentEnded ends g g') : g'.span.stop ≤ g.span.stop := by
  cases h with
  | same => exact le_rfl
  | ended e hopen _ =>
    rw [Segment.span_stop_of_none hopen]
    exact le_top

/-- Ending segments keeps them apart. -/
theorem NoOverlap.of_trimmed {db db' : Database} {ends : Segment → Int → Prop} (h : NoOverlap db)
    (hfixed : db'.workSessions.map WorkSession.fixed = db.workSessions.map WorkSession.fixed)
    (htrim : Trimmed ends db.segments db'.segments) : NoOverlap db' := by
  intro g hg g' hg' hne ws hws ws' hws' hid hid' huser hsome hover
  obtain ⟨g0, hg0, hend⟩ := Library.exists_of_forall₂_right htrim hg
  obtain ⟨g0', hg0', hend'⟩ := Library.exists_of_forall₂_right htrim hg'
  obtain ⟨ws0, hws0, hwid, hwuser, _⟩ := exists_of_fixed hfixed hws
  obtain ⟨ws0', hws0', hwid', hwuser', _⟩ := exists_of_fixed hfixed hws'
  obtain ⟨hgid, hgsid, hgstart⟩ := hend.start_eq
  obtain ⟨hgid', hgsid', hgstart'⟩ := hend'.start_eq
  refine h g0 hg0 g0' hg0' (by rw [← hgid, ← hgid']; exact hne) ws0 hws0 ws0' hws0' ?_ ?_ ?_ ?_ ?_
  · rw [hwid, hid, hgsid]
  · rw [hwid', hid', hgsid']
  · rw [hwuser, hwuser', huser]
  · rw [hwuser]
    exact hsome
  · have hover1 := hover.of_shorter (a := g0.span) hgstart hend.span_le
    have hover2 := (Span.overlaps_comm.mp hover1).of_shorter (a := g0'.span) hgstart' hend'.span_le
    exact Span.overlaps_comm.mp hover2

/-! ## The condition -/

/-- The user whose time a heartbeat adds a segment to, if it starts one: it opens a session for the
device's owner, or resumes the paused session of the device. -/
def startsFor (previous : Option AgentStateEvent) (observed : Int) (db : Database) (call : SyncCall)
    (adm : Admission) : Option (Option Nat) :=
  if adm.status ≠ .active then none
  else
    match keptSession previous observed db call adm with
    | none => some call.device.ownerUserId
    | some session => if session.status = .paused then some session.userId else none

/-- Nothing that the user has tracked and closed ends after `t`; a segment of no length is no
tracked time. -/
def trackedBefore (db : Database) (user : Option Nat) (t : Int) : Bool :=
  db.segments.all fun g => db.workSessions.all fun ws =>
    !(ws.id == g.sessionId && ws.userId == user) ||
      g.endedAt.all fun e => e ≤ g.startedAt || e ≤ t

/-- **A heartbeat that starts a segment does so after everything its user has tracked.** The instant
is the one the transaction uses: the observation, no earlier than the device's last receipt. -/
def startsInOrder (db : Database) (op : WorkOp) : Bool :=
  heartbeatMeets
    (fun previous observed db call adm =>
      (startsFor previous observed db call adm).all fun user => trackedBefore db user observed) db op

/-! ## One heartbeat -/

/-- An active heartbeat ends segments no later than its own instant, or where they begin. -/
theorem SyncEnd.le {previous : Option AgentStateEvent} {observed : Int} {db : Database}
    {call : SyncCall} {adm : Admission} {g : Segment} {e : Int} (hactive : adm.status = .active)
    (h : SyncEnd previous observed db call adm g e) : e ≤ max g.startedAt observed := by
  cases h with
  | takenOver => exact le_rfl
  | lapsed session _ _ p _ _ hexpired => exact max_le_max le_rfl (leaseEnd_le hexpired)
  | ended => exact le_rfl
  | paused session _ _ hpaused =>
    rw [hactive] at hpaused
    cases hpaused

/-- The new open segment of a heartbeat meets no other segment of its user: the open ones would give
the user two active sessions, and the closed ones end before it begins. -/
theorem not_overlaps_started {mid db' : Database} {g0 : Segment}
    {row : WorkSession} (hinv : StoreInvariant db') (hrow : row ∈ db'.workSessions)
    (hg0 : g0 ∈ db'.segments) (hsid : g0.sessionId = row.id)
    (hopen : g0.endedAt = none)
    (hclosed : ∀ g ∈ mid.segments, ∀ ws ∈ db'.workSessions, ws.id = g.sessionId →
      ws.userId = row.userId → ∀ e, g.endedAt = some e → e ≤ g.startedAt ∨ e ≤ g0.startedAt)
    {g : Segment} (hg : g ∈ mid.segments) (hg' : g ∈ db'.segments) (hne : g.id ≠ g0.id)
    {ws : WorkSession} (hws : ws ∈ db'.workSessions) (hid : ws.id = g.sessionId)
    (huser : ws.userId = row.userId) (hsome : ws.userId.isSome) : ¬ g.span.Overlaps g0.span := by
  cases hend : g.endedAt with
  | some e =>
    rcases hclosed g hg ws hws hid huser e hend with hempty | hbefore
    · refine Span.not_overlaps_of_empty ?_
      rw [Segment.span_stop_of_some hend]
      exact WithTop.coe_le_coe.mpr hempty
    · refine Span.not_overlaps_of_stop_le ?_
      rw [Segment.span_stop_of_some hend]
      exact WithTop.coe_le_coe.mpr hbefore
  | none =>
    have hst := hinv.active_of_open hws hg' hid hend
    have hst0 := hinv.active_of_open hrow hg0 hsid.symm hopen
    have heq : ws = row := hinv.oneLivePerUser ws hws row hrow (by simp [hst]) (by simp [hst0])
      huser hsome
    subst heq
    have hlen := hinv.openSegments ws hws
    rw [if_pos hst] at hlen
    obtain ⟨only, honly⟩ := List.length_eq_one_iff.mp hlen
    have h1 : g ∈ db'.openSegments ws.id := List.mem_filter.mpr ⟨hg', by simp [hid, hend]⟩
    have h2 : g0 ∈ db'.openSegments ws.id := List.mem_filter.mpr ⟨hg0, by simp [hsid, hopen]⟩
    rw [honly, List.mem_singleton] at h1 h2
    exact absurd (by rw [h1, h2]) hne

/-- Adding sessions without segments and at most one segment that meets no other of its user keeps
segments apart. -/
theorem NoOverlap.append {mid db' : Database} {rows : List WorkSession} {new : List Segment}
    (h : NoOverlap mid) (hsessions : db'.workSessions = mid.workSessions ++ rows)
    (hsegments : db'.segments = mid.segments ++ new)
    (hrows : ∀ g ∈ mid.segments, ∀ ws ∈ rows, ws.id ≠ g.sessionId)
    (hone : ∀ a ∈ new, ∀ b ∈ new, a = b)
    (hnew : ∀ g0 ∈ new, ∀ g ∈ mid.segments, g.id ≠ g0.id → ∀ ws ∈ db'.workSessions,
      ∀ row ∈ db'.workSessions, ws.id = g.sessionId → row.id = g0.sessionId →
        ws.userId = row.userId → ws.userId.isSome → ¬ g.span.Overlaps g0.span) :
    NoOverlap db' := by
  intro g hg g' hg' hne ws hws ws' hws' hid hid' huser hsome
  have hold : ∀ g ∈ mid.segments, ∀ ws ∈ db'.workSessions, ws.id = g.sessionId →
      ws ∈ mid.workSessions := by
    intro g hg ws hws hid
    rw [hsessions] at hws
    rcases List.mem_append.mp hws with hm | hm
    · exact hm
    · exact absurd hid (hrows g hg ws hm)
  rw [hsegments] at hg hg'
  rcases List.mem_append.mp hg with hm | hm <;> rcases List.mem_append.mp hg' with hm' | hm'
  · exact h g hm g' hm' hne ws (hold g hm ws hws hid) ws' (hold g' hm' ws' hws' hid') hid hid' huser
      hsome
  · exact hnew g' hm' g hm hne ws hws ws' hws' hid hid' huser hsome
  · intro hover
    exact hnew g hm g' hm' hne.symm ws' hws' ws hws hid' hid huser.symm (huser ▸ hsome)
      (Span.overlaps_comm.mp hover)
  · exact absurd (by rw [hone g hm g' hm']) hne

theorem trackedBefore_iff {db : Database} {user : Option Nat} {t : Int} :
    trackedBefore db user t = true ↔ ∀ g ∈ db.segments, ∀ ws ∈ db.workSessions,
      ws.id = g.sessionId → ws.userId = user → ∀ e, g.endedAt = some e →
        e ≤ g.startedAt ∨ e ≤ t := by
  unfold trackedBefore
  simp only [List.all_eq_true, Bool.or_eq_true, Bool.not_eq_true', Bool.and_eq_false_imp,
    beq_iff_eq, Option.all_eq_true, decide_eq_true_eq]
  constructor
  · intro h g hg ws hws hid huser
    rcases h g hg ws hws with hne | hall
    · simpa [huser] using hne hid
    · exact hall
  · intro h g hg ws hws
    by_cases hsel : ws.id = g.sessionId ∧ ws.userId = user
    · exact .inr (h g hg ws hws hsel.1 hsel.2)
    · refine .inl fun hid => ?_
      simpa using fun huser => hsel ⟨hid, huser⟩

/-- What the ending phase and the guard leave for a new segment of `user` at `observed`: everything
of that user that is closed is empty or ends by then. -/
theorem closed_before {previous : Option AgentStateEvent} {observed : Int} {db mid : Database}
    {call : SyncCall} {adm : Admission} {user : Option Nat} (hactive : adm.status = .active)
    (hends : Ends (SyncEnd previous observed db call adm) db mid)
    (hbefore : trackedBefore db user observed = true) :
    ∀ g ∈ mid.segments, ∀ ws ∈ mid.workSessions, ws.id = g.sessionId → ws.userId = user →
      ∀ e, g.endedAt = some e → e ≤ g.startedAt ∨ e ≤ observed := by
  intro g hg ws hws hid huser e he
  obtain ⟨g0, hg0, hgg⟩ := Library.exists_of_forall₂_right hends.segments hg
  obtain ⟨ws0, hws0, hwid, hwuser, _⟩ := exists_of_fixed hends.sessions hws
  cases hgg with
  | same =>
    exact trackedBefore_iff.mp hbefore g hg0 ws0 hws0 (hwid.trans hid) (hwuser.trans huser) e he
  | ended e' _ hend =>
    cases he
    have hle := SyncEnd.le hactive hend
    exact le_max_iff.mp hle

/-- **An accepted heartbeat keeps segments apart** when what it starts is in order. -/
theorem Accepted.noOverlap {now : Int} {previous : Option AgentStateEvent} {observed : Int}
    {db db' : Database} {call : SyncCall} {adm : Admission}
    (hacc : Accepted now previous observed db call adm db') (hinv : StoreInvariant db)
    (hinv' : StoreInvariant db') (h : NoOverlap db)
    (horder : (startsFor previous observed db call adm).all
      fun user => trackedBefore db user observed) : NoOverlap db' := by
  obtain ⟨mid, written, sessionId, hends, _, houtcome, _, hdb'⟩ := hacc
  have hmid : NoOverlap mid := h.of_trimmed hends.sessions hends.segments
  have hnext := hends.nextId_eq
  have hsessionIds : ∀ g ∈ mid.segments, g.sessionId < db.nextId := by
    intro g hg
    obtain ⟨g0, hg0, hgg⟩ := Library.exists_of_forall₂_right hends.segments hg
    obtain ⟨ws, hws, hid⟩ := hinv.segmentSession g0 hg0
    rw [hgg.start_eq.2.1, ← hid]
    exact hinv.sessionIds ws hws
  have hws' : db'.workSessions = written.workSessions := by rw [hdb']
  have hseg' : db'.segments = written.segments := by rw [hdb']
  cases houtcome with
  | stayed =>
    exact hmid.append (hws'.trans (List.append_nil _).symm) (hseg'.trans (List.append_nil _).symm)
      (by simp) (by simp) (by simp)
  | opened row hrow hstatus hslot hnone db1 hdb1 =>
    have hid : row.id = db.nextId := by rw [hrow, ← hnext]; rfl
    have hrows : ∀ g ∈ mid.segments, ∀ ws ∈ [row], ws.id ≠ g.sessionId := by
      intro g hg ws hws
      rw [List.mem_singleton.mp hws, hid]
      exact (hsessionIds g hg).ne'
    by_cases hactive : adm.status = .active
    · rw [if_pos hactive, hdb1] at hws' hseg'
      have hsessions : db'.workSessions = mid.workSessions ++ [row] := hws'
      refine hmid.append hsessions hseg' hrows (by simp) ?_
      intro g0 hg0 g hg hne ws hws row' hrow' hwid hrid huser hsome
      obtain rfl := List.mem_singleton.mp hg0
      have hmem : row ∈ db'.workSessions := by rw [hsessions]; simp
      obtain rfl : row' = row := hinv'.sessionKeys.eq hrow' hmem hrid
      refine not_overlaps_started hinv' hrow' ?_ rfl rfl ?_ hg ?_ hne hws hwid huser hsome
      · rw [hseg']
        exact List.mem_append_right _ (List.mem_singleton_self _)
      · intro g hg ws hws hwid huser
        have hstarts : startsFor previous observed db call adm = some row'.userId := by
          have hkept : keptSession previous observed db call adm = none := by
            cases hk : keptSession previous observed db call adm with
            | none => rfl
            | some s => exact absurd (keptSession_eq_some.mp hk) (hnone s)
          rw [startsFor, if_neg (by simp [hactive]), hkept, hrow]
          rfl
        rw [hstarts] at horder
        refine closed_before hactive hends horder g hg ws ?_ hwid huser
        rw [hsessions] at hws
        rcases List.mem_append.mp hws with hm | hm
        · exact hm
        · exact absurd hwid (hrows g hg ws hm)
      · rw [hseg']
        exact List.mem_append_left _ hg
    · rw [if_neg hactive, hdb1] at hws' hseg'
      exact hmid.append hws' (hseg'.trans (List.append_nil _).symm) hrows (by simp) (by simp)
  | resumed session hkept hactive hpaused =>
    have hsessions : db'.workSessions = mid.workSessions := hws'
    refine hmid.append (hsessions.trans (List.append_nil _).symm) hseg' (by simp) (by simp) ?_
    intro g0 hg0 g hg hne ws hws row hrow hwid hrid huser hsome
    obtain rfl := List.mem_singleton.mp hg0
    refine not_overlaps_started hinv' hrow ?_ hrid.symm rfl ?_ hg ?_ hne hws hwid huser hsome
    · rw [hseg']
      exact List.mem_append_right _ (List.mem_singleton_self _)
    · intro g hg ws hws hwid huser
      have hstarts : startsFor previous observed db call adm = some session.userId := by
        rw [startsFor, if_neg (by simp [hactive]), keptSession_eq_some.mpr hkept]
        exact if_pos hpaused
      rw [hstarts] at horder
      -- the resumed session is the row with its id, before and after
      obtain ⟨row0, hrow0, hr0id, hr0user, _⟩ := exists_of_fixed hends.sessions (hsessions ▸ hrow)
      obtain rfl : row0 = session :=
        hinv.sessionKeys.eq hrow0 (deviceSession_mem hkept.session_eq).1 (hr0id.trans hrid)
      refine closed_before hactive hends horder g hg ws (hsessions ▸ hws) hwid ?_
      rw [huser, hr0user]
    · rw [hseg']
      exact List.mem_append_left _ hg

/-! ## Steps and runs -/

theorem step_noOverlap {db : Database} {op : WorkOp} (hinv : StoreInvariant db) (h : NoOverlap db)
    (hguard : startsInOrder db op = true) : NoOverlap (step db op) := by
  by_cases hop : op.IsSync
  · cases op with
    | sync tie now call =>
      rcases step_sync db tie now call with hsame | ⟨adm, _, _, hacc, hmeets⟩
      · rw [hsame]
        exact h
      · exact hacc.noOverlap hinv (hinv.step _) h (hmeets _ hguard)
    | _ => cases hop
  · refine step_preserves h fun db' hrun => ?_
    obtain ⟨hfixed, _, htrim⟩ := adminEffect_trimmed db op hop db' hrun
    exact h.of_trimmed hfixed htrim

theorem noOverlap_withoutWork (db : Database) : NoOverlap db.withoutWork := by
  intro g hg
  cases hg

/-- **No double-counted time.** In every run whose heartbeats start segments in order, the segments
of a user are disjoint. -/
theorem segments_disjoint (db : Database) (ops : List WorkOp)
    (hops : Guarded step (fun db op => startsInOrder db op = true) db.withoutWork ops) :
    NoOverlap (run step db.withoutWork ops) := by
  have h := guarded_invariant (fun db => StoreInvariant db ∧ NoOverlap db)
    (fun db op h hguard => ⟨h.1.step op, step_noOverlap h.1 h.2 hguard⟩)
    ⟨storeInvariant_withoutWork db, noOverlap_withoutWork db⟩ hops
  exact h.2

/-- The phone starts after the laptop has stopped. -/
theorem segments_disjoint_office :
    NoOverlap (run step office.withoutWork
      [deliver (minutes 600) (pressed laptop 1 .active (minutes 600)),
       deliver (minutes 601) (pressed laptop 2 .stopped (minutes 601)),
       deliver (minutes 602) (pressed phone 3 .active (minutes 602))]) :=
  segments_disjoint office _ (by decide +kernel)

/-! ## Out of order -/

/-- The heartbeats the agent endpoint passes on that carry an event id: observed at most ninety days
before and five minutes after the server clock. -/
def withinWindow : WorkOp → Bool
  | .sync _ now call =>
    call.eventId.isSome &&
      ((call.observedAt.getD (Datetime.ofInstant now)).toUtc?).any fun t =>
        now - days 90 ≤ t && t ≤ now + minutes 5
  | _ => true

/-- The phone's journal is delivered after the laptop tracked the same minute and stopped. -/
def replayedJournal : List WorkOp :=
  [deliver (minutes 600) (pressed laptop 1 .active (minutes 600)),
   deliver (minutes 601) (pressed laptop 2 .stopped (minutes 601)),
   deliver (minutes 605) (pressed phone 3 .active (minutes 600 + seconds 30))]

/-- Within the accepted window, a user's segments can overlap. -/
theorem segments_overlap :
    ¬ ∀ (db : Database) (ops : List WorkOp), (∀ op ∈ ops, withinWindow op = true) →
      NoOverlap (run step db.withoutWork ops) := by
  intro h
  exact absurd (h office replayedJournal (by decide +kernel)) (by decide +kernel)

end Dayfinch
