/-
# Dayfinch.Agent.Fifo -- in which order the agent uploads its time-state events

The agent journals events and uploads the first pending one, again and again, until the server takes it
or rejects it for good. `_upload_state_one` is two steps here, since events may be journaled between the
request and its answer: `attempt` reads the head and sends it, `reply` is what the answer does to the
journal. The order of the pending events is that of two readings of the wall clock. It is the order of
journaling in runs where each event is stamped later than those still pending, which `stampedLast` says.
-/
import Dayfinch.Library.Run
import Dayfinch.Agent.Queue

namespace Dayfinch

open Library (run Guarded guarded_invariant)

/-! ## The journal and its uploads -/

/-- What the client gets for an event: a session, a status code, or no usable answer. -/
inductive UploadAnswer
  | accepted
  | rejected (statusCode : Nat)
  | unreachable
  deriving DecidableEq, Repr

/-- The codes of a permanent rejection. -/
def permanentRejection (statusCode : Nat) : Bool :=
  [400, 404, 409, 410, 413, 415, 422].contains statusCode

/-- The journal, the events that are in flight, and the history of the run: which events were journaled,
acknowledged and quarantined, and for each attempt the event with those pending at that time. -/
structure Journal where
  stateEvents : List StateRow := []
  nextId : Nat := 0
  inFlight : List StateEvent := []
  journaled : List Nat := []
  attempts : List (Nat × List Nat) := []
  acknowledged : List Nat := []
  quarantined : List Nat := []
  deriving DecidableEq, Repr

/-- `now` and `created` are the readings for `observed_at` and `created_at`. -/
inductive JournalOp
  | addState (args : StateArgs) (now created : Int)
  | attempt (tie : StateRow → Nat)
  | reply (event : StateEvent) (reply : UploadAnswer)
  | restart

def Journal.pendingIds (s : Journal) : List Nat := s.stateEvents.map (·.id)

/-- `add_state`. -/
def Journal.addState (s : Journal) (args : StateArgs) (now created : Int) : Journal :=
  match newStateEvent s.nextId now args with
  | .error _ => s
  | .ok event =>
    { s with
      stateEvents := s.stateEvents ++ [{ toStateEvent := event, createdAt := created }]
      nextId := s.nextId + 1
      journaled := s.journaled ++ [event.id] }

/-- `_upload_state_one`, up to the request. -/
def Journal.attempt (s : Journal) (tie : StateRow → Nat) : Journal :=
  match (pendingStates tie 1 s.stateEvents).head? with
  | none => s
  | some event =>
    { s with
      inFlight := s.inFlight ++ [event]
      attempts := s.attempts ++ [(event.id, s.pendingIds)] }

/-- `_upload_state_one`, from the answer on: an accepted event is acknowledged, one rejected for good is
quarantined, any other stays. -/
def Journal.answer (s : Journal) (event : StateEvent) (reply : UploadAnswer) : Journal :=
  if event ∉ s.inFlight then s
  else
    let s := { s with inFlight := s.inFlight.erase event }
    match reply with
    | .accepted =>
      { s with
        stateEvents := deleteState event.id s.stateEvents
        acknowledged := s.acknowledged ++ [event.id] }
    | .rejected statusCode =>
      if permanentRejection statusCode then
        { s with
          stateEvents := deleteState event.id s.stateEvents
          quarantined := s.quarantined ++ [event.id] }
      else s
    | .unreachable => s

def Journal.step (s : Journal) : JournalOp → Journal
  | .addState args now created => s.addState args now created
  | .attempt tie => s.attempt tie
  | .reply event reply => s.answer event reply
  | .restart => { s with inFlight := [] }

/-! ## First in, first out -/

/-- Attempts come in the order of journaling, none overtakes a pending event, and an event is pending
until it is acknowledged or quarantined. -/
structure Fifo (s : Journal) : Prop where
  inOrder : (s.attempts.map (·.1)).Pairwise (· ≤ ·)
  noOvertaking : ∀ a ∈ s.attempts, ∀ pending ∈ a.2, a.1 ≤ pending
  kept : ∀ id ∈ s.journaled, id ∈ s.pendingIds ∨ id ∈ s.acknowledged ∨ id ∈ s.quarantined

/-- An event that is journaled is stamped later than every pending one. -/
def stampedLast (s : Journal) : JournalOp → Bool
  | .addState args now created =>
    args.status.isNone || s.stateEvents.all fun r => r.stamp < toLex (args.observedAt.getD now, created)
  | _ => true

/-- The invariant: the pending events are stamped and numbered in order, and no attempt was made on an
event behind them. -/
structure Ordered (s : Journal) : Prop extends Fifo s where
  stamps : s.stateEvents.Pairwise fun r q => r.stamp < q.stamp
  numbers : s.stateEvents.Pairwise fun r q => r.id < q.id
  below : ∀ r ∈ s.stateEvents, r.id < s.nextId
  attemptsBelow : ∀ a ∈ s.attempts, a.1 < s.nextId
  attemptsFirst : ∀ a ∈ s.attempts, ∀ r ∈ s.stateEvents, a.1 ≤ r.id

section

variable {s : Journal}

theorem ordered_addState (h : Ordered s) {args : StateArgs} {now created : Int}
    (hguard : stampedLast s (.addState args now created) = true) :
    Ordered (s.addState args now created) := by
  unfold Journal.addState newStateEvent
  rcases hstatus : args.status with _ | status
  · exact h
  · have hlast : ∀ r ∈ s.stateEvents, r.stamp < toLex (args.observedAt.getD now, created) := by
      simpa [stampedLast, hstatus] using hguard
    constructor
    · constructor
      · exact h.inOrder
      · exact h.noOvertaking
      · intro id hid
        rcases List.mem_append.mp hid with hold | hnew
        · rcases h.kept id hold with hpending | hdone
          · left
            show id ∈ List.map _ (_ ++ _)
            rw [List.map_append]
            exact List.mem_append_left _ hpending
          · exact .inr hdone
        · left
          show id ∈ List.map _ (_ ++ _)
          rw [List.map_append]
          exact List.mem_append_right _ hnew
    · refine List.pairwise_append.mpr ⟨h.stamps, List.pairwise_singleton _ _, ?_⟩
      intro r hr q hq
      rw [List.mem_singleton.mp hq]
      exact hlast r hr
    · refine List.pairwise_append.mpr ⟨h.numbers, List.pairwise_singleton _ _, ?_⟩
      intro r hr q hq
      rw [List.mem_singleton.mp hq]
      exact h.below r hr
    · intro r hr
      rcases List.mem_append.mp hr with hold | hnew
      · exact Nat.lt_succ_of_lt (h.below r hold)
      · rw [List.mem_singleton.mp hnew]
        exact Nat.lt_succ_self s.nextId
    · intro a ha
      exact Nat.lt_succ_of_lt (h.attemptsBelow a ha)
    · intro a ha r hr
      rcases List.mem_append.mp hr with hold | hnew
      · exact h.attemptsFirst a ha r hold
      · rw [List.mem_singleton.mp hnew]
        exact (h.attemptsBelow a ha).le

/-- The head of the pending events is the one journaled first. -/
theorem ordered_attempt (h : Ordered s) (tie : StateRow → Nat) : Ordered (s.attempt tie) := by
  rcases hrows : s.stateEvents with _ | ⟨head, rest⟩
  · have hpending : pendingStates tie 1 s.stateEvents = [] := by
      rw [pendingStates_of_stamped h.stamps, hrows]
      rfl
    unfold Journal.attempt
    rw [hpending]
    exact h
  · have hpending : pendingStates tie 1 s.stateEvents = [head.toStateEvent] := by
      rw [pendingStates_of_stamped h.stamps, hrows]
      rfl
    have hmem : head ∈ s.stateEvents := by simp [hrows]
    have hfirst : ∀ r ∈ s.stateEvents, head.id ≤ r.id := by
      have hnumbers := h.numbers
      rw [hrows, List.pairwise_cons] at hnumbers
      intro r hr
      rw [hrows] at hr
      rcases List.mem_cons.mp hr with rfl | hrest
      · exact le_rfl
      · exact (hnumbers.1 r hrest).le
    have hearlier : ∀ a ∈ s.attempts, a.1 ≤ head.id := fun a ha => h.attemptsFirst a ha head hmem
    unfold Journal.attempt
    rw [hpending]
    constructor
    · constructor
      · show ((s.attempts ++ _).map _).Pairwise _
        rw [List.map_append]
        refine List.pairwise_append.mpr ⟨h.inOrder, List.pairwise_singleton _ _, ?_⟩
        intro i hi j hj
        obtain ⟨a, ha, rfl⟩ := List.mem_map.mp hi
        obtain rfl : j = head.id := by simpa using hj
        exact hearlier a ha
      · intro a ha pending hpending
        rcases List.mem_append.mp ha with hold | hnew
        · exact h.noOvertaking a hold pending hpending
        · obtain rfl := List.mem_singleton.mp hnew
          obtain ⟨r, hr, rfl⟩ := List.mem_map.mp hpending
          exact hfirst r hr
      · exact h.kept
    · exact h.stamps
    · exact h.numbers
    · exact h.below
    · intro a ha
      rcases List.mem_append.mp ha with hold | hnew
      · exact h.attemptsBelow a hold
      · rw [List.mem_singleton.mp hnew]
        exact h.below head hmem
    · intro a ha r hr
      rcases List.mem_append.mp ha with hold | hnew
      · exact h.attemptsFirst a hold r hr
      · rw [List.mem_singleton.mp hnew]
        exact hfirst r hr

/-- An event that leaves the journal acknowledged or quarantined. -/
theorem Ordered.leave (h : Ordered s) (id : Nat) (inFlight : List StateEvent)
    {acknowledged quarantined : List Nat} (hacknowledged : s.acknowledged ⊆ acknowledged)
    (hquarantined : s.quarantined ⊆ quarantined) (hleft : id ∈ acknowledged ∨ id ∈ quarantined) :
    Ordered { s with
      stateEvents := deleteState id s.stateEvents
      inFlight := inFlight
      acknowledged := acknowledged
      quarantined := quarantined } := by
  have hsub : (deleteState id s.stateEvents).Sublist s.stateEvents := List.filter_sublist
  constructor
  · constructor
    · exact h.inOrder
    · exact h.noOvertaking
    · intro i hi
      rcases h.kept i hi with hpending | hdone | hdone
      · obtain ⟨r, hr, rfl⟩ := List.mem_map.mp hpending
        by_cases hsame : r.id = id
        · rw [hsame]
          exact .inr hleft
        · exact .inl (List.mem_map_of_mem (mem_deleteState.mpr ⟨hr, hsame⟩))
      · exact .inr (.inl (hacknowledged hdone))
      · exact .inr (.inr (hquarantined hdone))
  · exact h.stamps.sublist hsub
  · exact h.numbers.sublist hsub
  · intro r hr
    exact h.below r (hsub.subset hr)
  · exact h.attemptsBelow
  · intro a ha r hr
    exact h.attemptsFirst a ha r (hsub.subset hr)

theorem Ordered.land (h : Ordered s) (inFlight : List StateEvent) :
    Ordered { s with inFlight := inFlight } := by
  obtain ⟨⟨h1, h2, h3⟩, h4, h5, h6, h7, h8⟩ := h
  exact ⟨⟨h1, h2, h3⟩, h4, h5, h6, h7, h8⟩

theorem ordered_answer (h : Ordered s) (event : StateEvent) (reply : UploadAnswer) :
    Ordered (s.answer event reply) := by
  unfold Journal.answer
  split
  · exact h
  · rcases reply with _ | statusCode | _
    · exact h.leave event.id (s.inFlight.erase event) (List.subset_append_left _ _) (List.Subset.refl _)
        (.inl (by simp))
    · dsimp only
      split
      · exact h.leave event.id (s.inFlight.erase event) (List.Subset.refl _)
          (List.subset_append_left _ _) (.inr (by simp))
      · exact h.land _
    · exact h.land _

theorem ordered_step (h : Ordered s) {op : JournalOp} (hguard : stampedLast s op = true) :
    Ordered (s.step op) := by
  rcases op with ⟨args, now, created⟩ | tie | ⟨event, reply⟩ | _
  · exact ordered_addState h hguard
  · exact ordered_attempt h tie
  · exact ordered_answer h event reply
  · exact h.land []

end

/-- **The agent's journal is first in, first out** in every run that stamps each event later than those
still pending. -/
theorem journal_fifo (ops : List JournalOp)
    (hops : Guarded Journal.step (fun s op => stampedLast s op = true) {} ops) :
    Fifo (run Journal.step {} ops) := by
  have hempty : Ordered {} := by
    constructor
    · constructor <;> simp
    · exact List.Pairwise.nil
    · exact List.Pairwise.nil
    · simp
    · simp
    · simp
  exact (guarded_invariant Ordered (fun s op h hguard => ordered_step h hguard) hempty hops).toFifo

/-- An active event, as the agent journals it at the start of a minute. -/
def started (id : Nat) (observedAt : Int) : StateEvent where
  id := id
  observedAt := observedAt
  status := .active
  taskId := ""
  projectId := ""
  note := ""
  idleSeconds := 0
  heartbeatIntervalSeconds := 60
  transition := false

/-- An event fails to upload, a second is journaled a minute later, and both go up in order. -/
theorem journal_fifo_retried :
    Fifo (run Journal.step {}
      [.addState { status := some .active } (minutes 10) (minutes 10),
       .attempt (fun _ => 0), .reply (started 0 (minutes 10)) .unreachable,
       .addState { status := some .active } (minutes 11) (minutes 11),
       .attempt (fun _ => 0), .reply (started 0 (minutes 10)) .accepted,
       .attempt (fun _ => 0), .reply (started 1 (minutes 11)) (.rejected 422)]) :=
  journal_fifo _ (by decide +kernel)

/-! ## A clock that steps back -/

/-- The wall clock is set back five minutes while the agent is offline. -/
def clockSetBack : List JournalOp :=
  [.addState { status := some .active } (minutes 10) (minutes 10),
   .attempt (fun _ => 0), .reply (started 0 (minutes 10)) .unreachable,
   .addState { status := some .stopped } (minutes 5) (minutes 5),
   .attempt (fun _ => 0)]

/-- The agent can attempt an event while one journaled before it is pending. -/
theorem journal_overtakes :
    ¬ ∀ ops : List JournalOp, Fifo (run Journal.step {} ops) := by
  intro h
  exact absurd (h clockSetBack).noOvertaking (by decide +kernel)

end Dayfinch
