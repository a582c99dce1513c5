/-
# Dayfinch.Mobile.Replay -- the order in which the phone's heartbeats reach the server

The queue is in the order in which the events were enqueued, and a pass sends what it has read in that
order and stops at the first event that has to wait. The waiting is per event, though: a later pass skips
an event that is not due yet and sends the ones behind it, and the server then has them first.
`dueInOrder` is the condition that a pass skips no heartbeat that the server still lacks. In runs that meet
it the receipts are in the order of the queue (`MobileInvariant`).

What leaves the pending set, and that an event is stored together with its timer state, needs no condition.
-/
import Dayfinch.Mobile.Queue

namespace Dayfinch

open Library (updateWhere mem_updateWhere_cases mem_updateWhere_of_mem orderBy orderBy_eq_self Ensures
  ensures_ite Guarded run guarded_append guarded_invariant)

/-! ## The condition -/

/-- A heartbeat that is pending. -/
def StoredEvent.waits (row : StoredEvent) : Bool := row.kind == .heartbeat && row.state == .pending

/-- Events are observed one after the other, and the clock does not go back. -/
def MobileOp.regular (s : MobileState) (op : MobileOp) : Bool :=
  op.time?.all (s.clock ≤ ·) &&
    match op with
    | .enqueueEvent _ observedAt _ _ _ _ => s.lastObserved.all (· < observedAt)
    | _ => true

/-- When a flush is asked for, also while a pass runs that it joins, a heartbeat is due only if all before it
are due that the server has not accepted. -/
def MobileOp.dueInOrder (s : MobileState) : MobileOp → Bool
  | .flushQueue now =>
    s.store.eventQueue.all fun later => !(later.waits && later.nextAttemptAt ≤ now) ||
      s.store.eventQueue.all fun earlier =>
        !(earlier.waits && earlier.observedAt < later.observedAt && !s.accepted.contains earlier.id) ||
          earlier.nextAttemptAt ≤ now
  | _ => true

/-! ## What the database does to the events -/

/-- A change of an event that keeps what was enqueued, and does not make it pending again. -/
structure KeepsEvent (f : StoredEvent → StoredEvent) : Prop where
  id : ∀ row, (f row).id = row.id
  kind : ∀ row, (f row).kind = row.kind
  observedAt : ∀ row, (f row).observedAt = row.observedAt
  payload : ∀ row, (f row).payload = row.payload
  pending : ∀ row, (f row).state = .pending → row.state = .pending

/-- Events are dropped, and changed in such a way. -/
def Narrows (rows rows' : List StoredEvent) : Prop :=
  ∃ f, KeepsEvent f ∧ rows'.Sublist (rows.map f)

section

variable {rows rows' rows'' : List StoredEvent}

theorem Narrows.of_sublist (h : rows'.Sublist rows) : Narrows rows rows' :=
  ⟨id, ⟨fun _ => rfl, fun _ => rfl, fun _ => rfl, fun _ => rfl, fun _ h => h⟩,
    by rw [List.map_id]; exact h⟩

theorem Narrows.trans (h : Narrows rows rows') (h' : Narrows rows' rows'') : Narrows rows rows'' := by
  obtain ⟨f, hf, hsub⟩ := h
  obtain ⟨g, hg, hsub'⟩ := h'
  refine ⟨g ∘ f, ⟨?_, ?_, ?_, ?_, ?_⟩, ?_⟩
  · exact fun row => (hg.id _).trans (hf.id row)
  · exact fun row => (hg.kind _).trans (hf.kind row)
  · exact fun row => (hg.observedAt _).trans (hf.observedAt row)
  · exact fun row => (hg.payload _).trans (hf.payload row)
  · exact fun row hpending => hf.pending row (hg.pending _ hpending)
  · rw [← List.map_map]
    exact hsub'.trans (hsub.map g)

theorem Narrows.updateWhere {selected : StoredEvent → Bool} {f : StoredEvent → StoredEvent}
    (hf : KeepsEvent f) : Narrows rows (updateWhere selected f rows) := by
  refine ⟨fun row => if selected row then f row else row, ⟨?_, ?_, ?_, ?_, ?_⟩, List.Sublist.refl _⟩
  all_goals
    intro row
    split
  · exact hf.id row
  · rfl
  · exact hf.kind row
  · rfl
  · exact hf.observedAt row
  · rfl
  · exact hf.payload row
  · rfl
  · exact hf.pending row
  · exact id

/-- Where an event of the narrowed table comes from. -/
theorem Narrows.exists_of_mem (h : Narrows rows rows') {row' : StoredEvent} (hmem : row' ∈ rows') :
    ∃ row ∈ rows, row'.id = row.id ∧ row'.kind = row.kind ∧ row'.observedAt = row.observedAt ∧
      row'.payload = row.payload ∧ (row'.waits = true → row.waits = true) := by
  obtain ⟨f, hf, hsub⟩ := h
  obtain ⟨row, hrow, rfl⟩ := List.mem_map.mp (hsub.subset hmem)
  refine ⟨row, hrow, hf.id row, hf.kind row, hf.observedAt row, hf.payload row, ?_⟩
  unfold StoredEvent.waits
  rw [Bool.and_eq_true, Bool.and_eq_true, beq_iff_eq, beq_iff_eq, beq_iff_eq, beq_iff_eq, hf.kind row]
  exact And.imp_right (hf.pending row)

end

section

variable {s s' : MobileStore}

theorem deleteEvent_narrows (id : Nat) : Narrows s.eventQueue (s.deleteEvent id).eventQueue :=
  .of_sublist List.filter_sublist

theorem rejectEvent_narrows (id : Nat) (reason : String) :
    Narrows s.eventQueue (s.rejectEvent id reason).eventQueue := by
  refine Narrows.trans (Narrows.updateWhere ?_) (.of_sublist List.filter_sublist)
  exact ⟨fun _ => rfl, fun _ => rfl, fun _ => rfl, fun _ => rfl, fun _ h => nomatch h⟩

theorem retryEvent_narrows (now : Int) (id : Nat) (delayMilliseconds : Int) :
    Narrows s.eventQueue (s.retryEvent now id delayMilliseconds).eventQueue := by
  refine Narrows.updateWhere ?_
  exact ⟨fun _ => rfl, fun _ => rfl, fun _ => rfl, fun _ => rfl, fun _ h => h⟩

theorem makeRoom_narrows :
    Ensures s.makeRoom fun s' => Narrows s.eventQueue s'.eventQueue ∧ s'.timer = s.timer := by
  unfold MobileStore.makeRoom
  refine ensures_ite (fun _ => ?_) fun _ => ?_
  · rw [Library.ensures_ok]
    exact ⟨.of_sublist (List.Sublist.refl _), rfl⟩
  · split
    · simp
    · rw [Library.ensures_ok]
      exact ⟨.of_sublist List.filter_sublist, rfl⟩

/-! ## Which heartbeats wait -/

/-- The event with this id is a heartbeat that waits. -/
def MobileStore.waitsFor (s : MobileStore) (id : Nat) : Prop :=
  ∃ row ∈ s.eventQueue, row.id = id ∧ row.waits = true

theorem Narrows.waitsFor (h : Narrows s.eventQueue s'.eventQueue) {id : Nat} (hwaits : s'.waitsFor id) :
    s.waitsFor id := by
  obtain ⟨row', hmem', rfl, hrow'⟩ := hwaits
  obtain ⟨row, hmem, hid, _, _, _, hrow⟩ := h.exists_of_mem hmem'
  exact ⟨row, hmem, hid.symm, hrow hrow'⟩

theorem deleteEvent_waitsFor {id k : Nat} : (s.deleteEvent id).waitsFor k ↔ s.waitsFor k ∧ k ≠ id := by
  constructor
  · rintro ⟨row, hmem, rfl, hwaits⟩
    obtain ⟨hold, hne⟩ := List.mem_filter.mp hmem
    exact ⟨⟨row, hold, rfl, hwaits⟩, bne_iff_ne.mp hne⟩
  · rintro ⟨⟨row, hmem, rfl, hwaits⟩, hne⟩
    exact ⟨row, List.mem_filter.mpr ⟨hmem, bne_iff_ne.mpr hne⟩, rfl, hwaits⟩

theorem retryEvent_waitsFor {now delayMilliseconds : Int} {id k : Nat} :
    (s.retryEvent now id delayMilliseconds).waitsFor k ↔ s.waitsFor k := by
  constructor
  · exact (retryEvent_narrows now id delayMilliseconds).waitsFor
  · rintro ⟨row, hmem, rfl, hwaits⟩
    refine ⟨_, mem_updateWhere_of_mem hmem, ?_⟩
    split
    · exact ⟨rfl, hwaits⟩
    · exact ⟨rfl, hwaits⟩

/-- A rejected event does not wait, and the trim drops rejected events only. -/
theorem rejectEvent_waitsFor {id k : Nat} {reason : String} :
    (s.rejectEvent id reason).waitsFor k ↔ s.waitsFor k ∧ k ≠ id := by
  constructor
  · intro h
    refine ⟨(rejectEvent_narrows id reason).waitsFor h, ?_⟩
    rintro rfl
    obtain ⟨row, hmem, hid, hwaits⟩ := h
    rcases mem_updateWhere_cases (List.mem_filter.mp hmem).1 with ⟨_, hother⟩ | ⟨old, _, _, rfl⟩
    · simp [hid] at hother
    · simp [StoredEvent.waits] at hwaits
  · rintro ⟨⟨row, hmem, rfl, hwaits⟩, hne⟩
    refine ⟨row, List.mem_filter.mpr ⟨?_, ?_⟩, rfl, hwaits⟩
    · exact Library.mem_updateWhere_of_false hmem (beq_false_of_ne hne)
    · unfold StoredEvent.waits at hwaits
      rw [Bool.and_eq_true, beq_iff_eq, beq_iff_eq] at hwaits
      simp [hwaits.2]

/-- Opening the database drops a waiting heartbeat only when it is older than 90 days. -/
theorem openDatabase_waitsFor {now : Int} {row : StoredEvent} (hmem : row ∈ s.eventQueue)
    (hwaits : row.waits = true) (hyoung : now - millisecondsOfDays 90 ≤ row.createdAt) :
    (s.openDatabase now).waitsFor row.id := by
  refine ⟨row, List.mem_filter.mpr ⟨hmem, ?_⟩, rfl, hwaits⟩
  unfold StoredEvent.waits at hwaits
  rw [Bool.and_eq_true, beq_iff_eq, beq_iff_eq] at hwaits
  have hnew : ¬ row.createdAt < now - millisecondsOfDays 90 := not_lt.mpr hyoung
  simp [hwaits.2, hnew]

/-- Events are in the order in which they were enqueued and observed. -/
def InOrder (row later : StoredEvent) : Prop := row.id < later.id ∧ row.observedAt < later.observedAt

/-- Two events of a queue in order, by their ids. -/
theorem inOrder_of_lt {rows : List StoredEvent} (h : rows.Pairwise InOrder) {row later : StoredEvent}
    (hrow : row ∈ rows) (hlater : later ∈ rows) (hlt : row.id < later.id) : InOrder row later := by
  induction rows with
  | nil => cases hrow
  | cons first rest ih =>
    obtain ⟨hfirst, hrest⟩ := List.pairwise_cons.mp h
    rcases List.mem_cons.mp hrow with rfl | hrow'
    · rcases List.mem_cons.mp hlater with rfl | hlater'
      · exact absurd hlt (lt_irrefl _)
      · exact hfirst later hlater'
    · rcases List.mem_cons.mp hlater with rfl | hlater'
      · exact absurd hlt (not_lt.mpr (hfirst row hrow').1.le)
      · exact ih hrest hrow' hlater'

theorem eq_of_inOrder {rows : List StoredEvent} (h : rows.Pairwise InOrder) {row other : StoredEvent}
    (hrow : row ∈ rows) (hother : other ∈ rows) (hid : row.id = other.id) : row = other := by
  have hunique : Library.UniqueKey (·.id) rows :=
    List.pairwise_map.mpr (h.imp fun hlt => hlt.1.ne)
  exact hunique.eq hrow hother hid

/-- **A full queue drops no heartbeat.** -/
theorem makeRoom_waitsFor (h : s.eventQueue.Pairwise InOrder) {k : Nat} (hwaits : s.waitsFor k) :
    Ensures s.makeRoom fun s' => s'.waitsFor k := by
  obtain ⟨row, hmem, hid, hrow⟩ := hwaits
  unfold MobileStore.makeRoom
  refine ensures_ite (fun _ => ?_) fun _ => ?_
  · rw [Library.ensures_ok]
    exact ⟨row, hmem, hid, hrow⟩
  · split
    · simp
    · rename_i oldest holdest
      rw [Library.ensures_ok]
      refine ⟨row, List.mem_filter.mpr ⟨hmem, bne_iff_ne.mpr fun heq => ?_⟩, hid, hrow⟩
      -- the oldest is a location, and ids are unique
      have hoption := List.mem_of_mem_head? holdest
      rw [Library.mem_orderBy, List.mem_filter, Bool.and_eq_true, beq_iff_eq, beq_iff_eq] at hoption
      obtain ⟨hmem', _, hlocation⟩ := hoption
      obtain rfl := eq_of_inOrder h hmem hmem' heq
      unfold StoredEvent.waits at hrow
      rw [hlocation] at hrow
      cases hrow

end

/-! ## The invariant -/

/-- The queue is in order, its ids and times are from the past, and its payloads are objects. -/
structure EventInvariant (rows : List StoredEvent) (nextId : Nat) (lastObserved : Option Int) : Prop where
  sorted : rows.Pairwise InOrder
  below : ∀ row ∈ rows, row.id < nextId
  observed : ∀ row ∈ rows, ∃ last, lastObserved = some last ∧ row.observedAt ≤ last
  parsed : ∀ row ∈ rows, row.payload.isSome

/-- What a pass still sends is in order and waits; every heartbeat before one of it that the server lacks
is in it too. -/
structure PassInvariant (s : MobileStore) (accepted : List Nat) (rows : List StoredEvent) : Prop where
  sorted : rows.Pairwise fun row later => row.id < later.id
  parsed : ∀ row ∈ rows, row.payload.isSome
  waiting : ∀ row ∈ rows, row.kind = .heartbeat → s.waitsFor row.id
  first : ∀ row ∈ rows, row.kind = .heartbeat → ∀ k, s.waitsFor k → k ∉ accepted → k < row.id →
    ∃ earlier ∈ rows, earlier.id = k

/-- The receipts are in the order of the ids, and a heartbeat that waits and has no receipt comes after
them all. -/
structure MobileInvariant (s : MobileState) : Prop where
  queue : EventInvariant s.store.eventQueue s.nextId s.lastObserved
  receipts : s.accepted.Pairwise (· < ·)
  below : ∀ k ∈ s.accepted, k < s.nextId
  next : ∀ k, s.store.waitsFor k → k ∉ s.accepted → ∀ a ∈ s.accepted, a < k
  pass : ∀ result rows, s.process = .flushing result rows → PassInvariant s.store s.accepted rows

theorem EventInvariant.narrows {rows rows' : List StoredEvent} {nextId : Nat} {lastObserved : Option Int}
    (h : EventInvariant rows nextId lastObserved) (hnarrows : Narrows rows rows') :
    EventInvariant rows' nextId lastObserved where
  sorted := by
    obtain ⟨f, hf, hsub⟩ := hnarrows
    refine List.Pairwise.sublist hsub (List.pairwise_map.mpr (h.sorted.imp fun {row later} hlt => ?_))
    show InOrder (f row) (f later)
    unfold InOrder
    rw [hf.id, hf.id, hf.observedAt, hf.observedAt]
    exact hlt
  below := by
    intro row' hmem'
    obtain ⟨row, hmem, hid, _⟩ := hnarrows.exists_of_mem hmem'
    exact hid ▸ h.below row hmem
  observed := by
    intro row' hmem'
    obtain ⟨row, hmem, _, _, hobserved, _⟩ := hnarrows.exists_of_mem hmem'
    exact hobserved ▸ h.observed row hmem
  parsed := by
    intro row' hmem'
    obtain ⟨row, hmem, _, _, _, hpayload, _⟩ := hnarrows.exists_of_mem hmem'
    exact hpayload ▸ h.parsed row hmem

theorem EventInvariant.mono {rows : List StoredEvent} {nextId nextId' : Nat} {lastObserved : Option Int}
    (h : EventInvariant rows nextId lastObserved) (hle : nextId ≤ nextId') :
    EventInvariant rows nextId' lastObserved :=
  { h with below := fun row hmem => lt_of_lt_of_le (h.below row hmem) hle }

/-- A new event comes last. -/
theorem EventInvariant.append {rows : List StoredEvent} {nextId : Nat} {lastObserved : Option Int}
    (h : EventInvariant rows nextId lastObserved) {row : StoredEvent} (hid : row.id = nextId)
    (hlast : ∀ last, lastObserved = some last → last < row.observedAt) (hparsed : row.payload.isSome) :
    EventInvariant (rows ++ [row]) (nextId + 1) (some row.observedAt) where
  sorted := by
    refine List.pairwise_append.mpr ⟨h.sorted, List.pairwise_singleton _ _, fun old hold new hnew => ?_⟩
    obtain rfl := List.mem_singleton.mp hnew
    obtain ⟨last, hsome, hle⟩ := h.observed old hold
    exact ⟨hid ▸ h.below old hold, lt_of_le_of_lt hle (hlast last hsome)⟩
  below := by
    intro other hother
    rcases List.mem_append.mp hother with hold | hnew
    · exact Nat.lt_succ_of_lt (h.below other hold)
    · rw [List.mem_singleton.mp hnew, hid]
      exact Nat.lt_succ_self nextId
  observed := by
    intro other hother
    refine ⟨row.observedAt, rfl, ?_⟩
    rcases List.mem_append.mp hother with hold | hnew
    · obtain ⟨last, hsome, hle⟩ := h.observed other hold
      exact hle.trans (hlast last hsome).le
    · rw [List.mem_singleton.mp hnew]
  parsed := by
    intro other hother
    rcases List.mem_append.mp hother with hold | hnew
    · exact h.parsed other hold
    · rw [List.mem_singleton.mp hnew]
      exact hparsed

section

variable {s : MobileState}

/-! ## Opening and enqueueing -/

theorem opened_sublist (now : Int) :
    (s.opened now).store.eventQueue.Sublist s.store.eventQueue := by
  unfold MobileState.opened
  split
  · exact List.filter_sublist
  · exact List.Sublist.refl _

/-- A database that is narrowed while no pass runs. -/
theorem MobileInvariant.narrows (h : MobileInvariant s) {store : MobileStore} {process : MobileProcess}
    (hnarrows : Narrows s.store.eventQueue store.eventQueue)
    (hpass : ∀ result rows, process = .flushing result rows → PassInvariant store s.accepted rows) :
    MobileInvariant { s with store, process } where
  queue := h.queue.narrows hnarrows
  receipts := h.receipts
  below := h.below
  next := fun k hwaits => h.next k (hnarrows.waitsFor hwaits)
  pass := hpass

theorem MobileInvariant.opened (h : MobileInvariant s) (now : Int) : MobileInvariant (s.opened now) := by
  unfold MobileState.opened
  split
  · exact h.narrows (.of_sublist List.filter_sublist) fun _ _ heq => nomatch heq
  · exact h

@[simp] theorem opened_nextId (now : Int) : (s.opened now).nextId = s.nextId := by
  unfold MobileState.opened
  split <;> rfl

@[simp] theorem opened_lastObserved (now : Int) : (s.opened now).lastObserved = s.lastObserved := by
  unfold MobileState.opened
  split <;> rfl

@[simp] theorem opened_accepted (now : Int) : (s.opened now).accepted = s.accepted := by
  unfold MobileState.opened
  split <;> rfl

@[simp] theorem opened_timer (now : Int) : (s.opened now).store.timer = s.store.timer := by
  unfold MobileState.opened
  split <;> rfl

/-- The row of a new event. -/
def QueuedEvent.stored (event : QueuedEvent) (now : Int) : StoredEvent :=
  { id := event.id, kind := event.kind, observedAt := event.observedAt, payload := some event.payload,
    attempts := 0, nextAttemptAt := 0, state := .pending, rejectionReason := "", createdAt := now }

/-- **What a committed transaction stores**: the event behind what is left of the queue, and the timer
state. No heartbeat is dropped for it. -/
theorem enqueueTransaction_ensures {store : MobileStore} {now : Int} {event : QueuedEvent}
    {timerState : Option (Option TimerState)} (hsorted : store.eventQueue.Pairwise InOrder)
    (hfresh : ∀ row ∈ store.eventQueue, row.id ≠ event.id) :
    Ensures (store.enqueueTransaction now event timerState) fun store' =>
      ∃ rows, Narrows store.eventQueue rows ∧
        (∀ k, store.waitsFor k → ∃ row ∈ rows, row.id = k ∧ row.waits = true) ∧
        store'.eventQueue = rows ++ [event.stored now] ∧
        store'.timer = timerState.getD store.timer := by
  unfold MobileStore.enqueueTransaction
  intro store' hstore'
  obtain ⟨room, hroom, hdone⟩ := Library.bind_eq_ok.mp hstore'
  obtain ⟨hnarrows, htimer⟩ := makeRoom_narrows room hroom
  have hnone : room.eventQueue.any (·.id == event.id) = false := by
    rw [List.any_eq_false]
    intro row hmem heq
    obtain ⟨old, hold, hid, _⟩ := hnarrows.exists_of_mem hmem
    exact hfresh old hold (hid ▸ beq_iff_eq.mp heq)
  refine ⟨room.eventQueue, hnarrows, fun k hwaits => makeRoom_waitsFor hsorted hwaits room hroom, ?_⟩
  obtain rfl := (Except.ok.inj hdone).symm
  unfold MobileStore.insertEvent
  rw [if_neg (by rw [hnone]; exact Bool.false_ne_true)]
  rcases timerState with _ | timer
  · exact ⟨rfl, htimer⟩
  · exact ⟨rfl, rfl⟩

/-- How enqueueing an event ends: nothing is stored, or the transaction is committed. -/
theorem enqueueEvent_cases (h : MobileInvariant s) (now : Int) {event : QueuedEvent}
    (timerState : Option (Option TimerState)) (committed : Bool) (hid : event.id = s.nextId) :
    (s.enqueueEvent now event timerState committed).1 = s ∨
    (s.enqueueEvent now event timerState committed).1 = s.opened now ∨
    (s.enqueueEvent now event timerState committed).1 = { s.opened now with process := .closed } ∨
    ∃ store rows, Narrows (s.opened now).store.eventQueue rows ∧
      (∀ k, (s.opened now).store.waitsFor k → ∃ row ∈ rows, row.id = k ∧ row.waits = true) ∧
      store.eventQueue = rows ++ [event.stored now] ∧
      store.timer = timerState.getD s.store.timer ∧
      (s.enqueueEvent now event timerState committed).1 =
        { s.opened now with store, lastObserved := some event.observedAt } := by
  unfold MobileState.enqueueEvent
  split
  · exact .inl rfl
  · dsimp only
    split
    · exact .inr (.inr (.inl rfl))
    · split
      · exact .inr (.inl rfl)
      · rename_i store hstore
        refine .inr (.inr (.inr ?_))
        have hopened := h.opened now
        have hfresh : ∀ row ∈ (s.opened now).store.eventQueue, row.id ≠ event.id := by
          intro row hmem
          have hlt := hopened.queue.below row hmem
          rw [opened_nextId] at hlt
          exact hid ▸ hlt.ne
        obtain ⟨rows, hnarrows, hstay, hrows, htimer⟩ :=
          enqueueTransaction_ensures hopened.queue.sorted hfresh store hstore
        rw [opened_timer] at htimer
        exact ⟨store, rows, hnarrows, hstay, hrows, htimer, rfl⟩

theorem MobileInvariant.enqueue (h : MobileInvariant s) {now : Int} {event : QueuedEvent}
    {timerState : Option (Option TimerState)} {committed : Bool} (hid : event.id = s.nextId)
    (hlast : ∀ last, s.lastObserved = some last → last < event.observedAt) :
    MobileInvariant
      { (s.enqueueEvent now event timerState committed).1 with nextId := s.nextId + 1 } := by
  have hmono : ∀ {s' : MobileState}, MobileInvariant s' → s'.nextId = s.nextId →
      MobileInvariant { s' with nextId := s.nextId + 1 } := by
    intro s' h' heq
    exact { h' with
      queue := h'.queue.mono (heq ▸ Nat.le_succ _)
      below := fun k hk => Nat.lt_succ_of_lt (heq ▸ h'.below k hk) }
  have hopened := h.opened now
  rcases enqueueEvent_cases h now timerState committed hid with heq | heq | heq | ⟨store, rows, hnarrows, hstay, hrows, _, heq⟩
  · rw [heq]
    exact hmono h rfl
  · rw [heq]
    exact hmono hopened (opened_nextId now)
  · rw [heq]
    refine hmono (hopened.narrows (.of_sublist (List.Sublist.refl _)) ?_) (opened_nextId now)
    exact fun _ _ hprocess => nomatch hprocess
  · rw [heq]
    have hwaits : ∀ k, store.waitsFor k → (s.opened now).store.waitsFor k ∨ k = s.nextId := by
      rintro k ⟨row, hmem, rfl, hrow⟩
      rw [hrows] at hmem
      rcases List.mem_append.mp hmem with hold | hnew
      · obtain ⟨old, hmem', hid', _, _, _, hkept⟩ := hnarrows.exists_of_mem hold
        exact .inl ⟨old, hmem', hid'.symm, hkept hrow⟩
      · rw [List.mem_singleton.mp hnew]
        exact .inr hid
    refine ⟨?_, ?_, ?_, ?_, ?_⟩
    · show EventInvariant store.eventQueue (s.nextId + 1) (some event.observedAt)
      have hqueue := hopened.queue.narrows hnarrows
      rw [opened_nextId, opened_lastObserved] at hqueue
      rw [hrows]
      exact hqueue.append hid hlast rfl
    · show (s.opened now).accepted.Pairwise (· < ·)
      rw [opened_accepted]
      exact h.receipts
    · intro k hk
      rw [opened_accepted] at hk
      exact Nat.lt_succ_of_lt (h.below k hk)
    · intro k hk hnot a ha
      rcases hwaits k hk with hold | rfl
      · exact hopened.next k hold hnot a ha
      · rw [opened_accepted] at ha
        exact h.below a ha
    · intro result sent hprocess
      have hpass : PassInvariant (s.opened now).store (s.opened now).accepted sent :=
        hopened.pass result sent hprocess
      refine ⟨hpass.sorted, hpass.parsed, ?_, ?_⟩
      · intro row hmem hkind
        obtain ⟨kept, hkept, hkeptId, hkeptWaits⟩ := hstay row.id (hpass.waiting row hmem hkind)
        exact ⟨kept, hrows ▸ List.mem_append_left _ hkept, hkeptId, hkeptWaits⟩
      · intro row hmem hkind k hk hnot hlt
        rcases hwaits k hk with hold | rfl
        · exact hpass.first row hmem hkind k hold hnot hlt
        · obtain ⟨old, hold, hid', _⟩ := hpass.waiting row hmem hkind
          have hbelow := hopened.queue.below old hold
          rw [opened_nextId, hid'] at hbelow
          exact absurd hlt (not_lt.mpr hbelow.le)

/-! ## A pass over the queue -/

/-- Events in order come out in that order. -/
theorem pendingEvents_eq {store : MobileStore} (h : store.eventQueue.Pairwise InOrder) (now : Int)
    (limit : Nat) :
    store.pendingEvents now limit =
      (store.eventQueue.filter fun row => row.state == .pending && row.nextAttemptAt ≤ now).take
        (min 500 (max 1 limit)) := by
  unfold MobileStore.pendingEvents
  have hsorted : (store.eventQueue.filter fun row =>
      row.state == .pending && row.nextAttemptAt ≤ now).Pairwise
      fun row later => row.observedAt < later.observedAt :=
    (h.sublist List.filter_sublist).imp fun hlt => hlt.2
  rw [orderBy_eq_self hsorted]

/-- A limit keeps the events before one that it keeps. -/
theorem mem_limit_of_before {rows : List StoredEvent} (h : rows.Pairwise InOrder) {limit : Nat}
    {row earlier : StoredEvent} (hrow : row ∈ rows.take limit) (hearlier : earlier ∈ rows)
    (hbefore : earlier.id < row.id) : earlier ∈ rows.take limit := by
  have hsplit : rows.take limit ++ rows.drop limit = rows := List.take_append_drop limit rows
  rw [← hsplit, List.pairwise_append] at h
  rw [← hsplit, List.mem_append] at hearlier
  refine hearlier.resolve_right fun hcut => ?_
  have hafter : InOrder row earlier := h.2.2 row hrow earlier hcut
  exact lt_asymm hbefore hafter.1

/-- **A pass begins** with what is due, and where the heartbeats are due in order it skips none that the
server lacks. -/
theorem MobileInvariant.beginFlush (h : MobileInvariant s) {now : Int}
    (hdue : MobileOp.dueInOrder s (.flushQueue now) = true) : MobileInvariant (s.beginFlush now) := by
  have hopened := h.opened now
  unfold MobileState.beginFlush
  dsimp only
  split
  · exact hopened
  · refine { hopened with pass := ?_ }
    intro result rows hprocess
    obtain ⟨rfl, rfl⟩ := MobileProcess.flushing.inj hprocess
    have hsorted := hopened.queue.sorted
    rw [pendingEvents_eq hsorted]
    have hdueSorted := hsorted.sublist
      (List.filter_sublist (p := fun row : StoredEvent => row.state == .pending && row.nextAttemptAt ≤ now))
    refine ⟨?_, ?_, ?_, ?_⟩
    · exact (hdueSorted.sublist (List.take_sublist _ _)).imp fun hlt => hlt.1
    · intro row hmem
      exact hopened.queue.parsed row (List.mem_filter.mp (List.mem_of_mem_take hmem)).1
    · intro row hmem hkind
      obtain ⟨hmem', hselected⟩ := List.mem_filter.mp (List.mem_of_mem_take hmem)
      rw [Bool.and_eq_true] at hselected
      exact ⟨row, hmem', rfl, by simp [StoredEvent.waits, hkind, hselected.1]⟩
    · rintro row hmem hkind k ⟨earlier, hearlier, rfl, hwaits⟩ hnot hlt
      obtain ⟨hmem', hselected⟩ := List.mem_filter.mp (List.mem_of_mem_take hmem)
      rw [Bool.and_eq_true, decide_eq_true_eq] at hselected
      refine ⟨earlier, mem_limit_of_before hdueSorted hmem ?_ hlt, rfl⟩
      -- the guard at the later event, then at the earlier one
      have hbefore := inOrder_of_lt hsorted hearlier hmem' hlt
      have hlater := List.all_eq_true.mp hdue row ((opened_sublist now).subset hmem')
      have hrowWaits : row.waits = true := by simp [StoredEvent.waits, hkind, hselected.1]
      simp only [hrowWaits, hselected.2, decide_true, Bool.and_self, Bool.not_true, Bool.false_or]
        at hlater
      have hfirst := List.all_eq_true.mp hlater earlier ((opened_sublist now).subset hearlier)
      rw [opened_accepted] at hnot
      simp only [hwaits, hbefore.2, hnot, List.contains_eq_mem, decide_true, decide_false, Bool.not_false,
        Bool.and_self, Bool.not_true, Bool.false_or, decide_eq_true_eq] at hfirst
      refine List.mem_filter.mpr ⟨hearlier, ?_⟩
      unfold StoredEvent.waits at hwaits
      rw [Bool.and_eq_true] at hwaits
      rw [hwaits.2, Bool.true_and, decide_eq_true_eq]
      exact hfirst

/-- What an answer does: the pass ends, or the row no longer waits and the pass goes on. -/
theorem handleAnswer_cases (store : MobileStore) (now : Int) (result : FlushResult) (row : StoredEvent)
    (payload : EventPayload) (rest : List StoredEvent) (answer : FlushAnswer) :
    Narrows store.eventQueue (handleAnswer store now result row payload rest answer).store.eventQueue ∧
    (∀ k, store.waitsFor k → k ≠ row.id →
      (handleAnswer store now result row payload rest answer).store.waitsFor k) ∧
    ((handleAnswer store now result row payload rest answer).rows = [] ∨
      (handleAnswer store now result row payload rest answer).rows = rest ∧
        ¬ (handleAnswer store now result row payload rest answer).store.waitsFor row.id) := by
  unfold handleAnswer
  split
  · exact ⟨retryEvent_narrows _ _ _, fun k hk _ => retryEvent_waitsFor.mpr hk, .inl rfl⟩
  · split
    · refine ⟨deleteEvent_narrows _, fun k hk hne => deleteEvent_waitsFor.mpr ⟨hk, hne⟩, .inr ⟨rfl, ?_⟩⟩
      exact fun hwaits => (deleteEvent_waitsFor.mp hwaits).2 rfl
    · split
      · dsimp only
        refine ⟨rejectEvent_narrows _ _, fun k hk hne => rejectEvent_waitsFor.mpr ⟨hk, hne⟩, ?_⟩
        split
        · exact .inl rfl
        · exact .inr ⟨rfl, fun hwaits => (rejectEvent_waitsFor.mp hwaits).2 rfl⟩
      · exact ⟨retryEvent_narrows _ _ _, fun k hk _ => retryEvent_waitsFor.mpr hk, .inl rfl⟩

theorem receive_store (row : StoredEvent) (answer : FlushAnswer) :
    (s.receive row answer).store = s.store := by
  unfold MobileState.receive
  split <;> rfl

/-- **The row that is answered** is before every other heartbeat that waits without a receipt, so its receipt
is in order; the pass ends, or goes on without it. -/
theorem MobileInvariant.answered (h : MobileInvariant s) {result : FlushResult} {row : StoredEvent}
    {rest : List StoredEvent} (hprocess : s.process = .flushing result (row :: rest))
    (answer : FlushAnswer) {store : MobileStore} {process : MobileProcess}
    (hnarrows : Narrows s.store.eventQueue store.eventQueue)
    (hstay : ∀ k, s.store.waitsFor k → k ≠ row.id → store.waitsFor k)
    (hgo : ∀ result rows, process = .flushing result rows →
      rows = [] ∨ rows = rest ∧ ¬ store.waitsFor row.id) :
    MobileInvariant { s.receive row answer with store, process } := by
  have hpass := h.pass result (row :: rest) hprocess
  obtain ⟨hfirst, hrest⟩ := List.pairwise_cons.mp hpass.sorted
  -- what is left of the pass, whatever receipts there are
  have hnext : ∀ accepted : List Nat, (∀ k, k ∉ accepted → k ∉ s.accepted) →
      ∀ result rows, process = .flushing result rows → PassInvariant store accepted rows := by
    intro accepted hmore result rows hrows
    rcases hgo result rows hrows with rfl | ⟨rfl, hgone⟩
    · exact ⟨List.Pairwise.nil, fun _ hmem => (nomatch hmem), fun _ hmem => (nomatch hmem),
        fun _ hmem => (nomatch hmem)⟩
    · refine ⟨hrest, fun later hmem => hpass.parsed later (List.mem_cons_of_mem row hmem), ?_, ?_⟩
      · intro later hmem hkind
        exact hstay later.id (hpass.waiting later (List.mem_cons_of_mem row hmem) hkind)
          (hfirst later hmem).ne'
      · intro later hmem hkind k hk hnot hlt
        obtain ⟨earlier, hearlier, rfl⟩ := hpass.first later (List.mem_cons_of_mem row hmem) hkind k
          (hnarrows.waitsFor hk) (hmore k hnot) hlt
        rcases List.mem_cons.mp hearlier with rfl | hin
        · exact absurd hk hgone
        · exact ⟨earlier, hin, rfl⟩
  unfold MobileState.receive
  split
  · rename_i hreceipt
    obtain ⟨hkind, _, hnew⟩ := hreceipt
    have hrow : s.store.waitsFor row.id := hpass.waiting row List.mem_cons_self hkind
    refine ⟨h.queue.narrows hnarrows, ?_, ?_, ?_, ?_⟩
    · refine List.pairwise_append.mpr ⟨h.receipts, List.pairwise_singleton _ _, fun a ha b hb => ?_⟩
      rw [List.mem_singleton.mp hb]
      exact h.next row.id hrow hnew a ha
    · intro k hk
      rcases List.mem_append.mp hk with hold | hlast
      · exact h.below k hold
      · obtain ⟨old, hold, hid, _⟩ := hrow
        rw [List.mem_singleton.mp hlast, ← hid]
        exact h.queue.below old hold
    · intro k hk hnot a ha
      obtain ⟨hnotOld, hne⟩ := not_or.mp (mt List.mem_append.mpr hnot)
      have hwaits := hnarrows.waitsFor hk
      rcases List.mem_append.mp ha with hold | hlast
      · exact h.next k hwaits hnotOld a hold
      · rw [List.mem_singleton.mp hlast]
        -- an earlier one without a receipt would be in the pass, but `row` is its first
        by_contra hle
        have hlt : k < row.id := lt_of_le_of_ne (not_lt.mp hle) (mt List.mem_singleton.mpr hne)
        obtain ⟨earlier, hearlier, rfl⟩ := hpass.first row List.mem_cons_self hkind k hwaits hnotOld hlt
        rcases List.mem_cons.mp hearlier with rfl | hin
        · exact absurd hlt (lt_irrefl _)
        · exact absurd hlt (not_lt.mpr (hfirst earlier hin).le)
    · exact hnext _ fun k hnot hold => hnot (List.mem_append_left _ hold)
  · exact ⟨h.queue.narrows hnarrows, h.receipts, h.below, fun k hk => h.next k (hnarrows.waitsFor hk),
      hnext _ fun _ hnot => hnot⟩

theorem MobileInvariant.nextRow (h : MobileInvariant s) (now : Int) (answer : FlushAnswer) :
    MobileInvariant (s.nextRow now answer) := by
  have hstays : ∀ process, (∀ result rows, process ≠ .flushing result rows) →
      MobileInvariant { s with process } := fun process hnone =>
    h.narrows (.of_sublist (List.Sublist.refl _)) fun result rows heq => absurd heq (hnone result rows)
  unfold MobileState.nextRow
  split
  · exact hstays _ fun _ _ => MobileProcess.noConfusion
  · rename_i result row rest hprocess
    split
    · rename_i hpayload
      have hparsed := (h.pass _ _ hprocess).parsed row List.mem_cons_self
      rw [hpayload] at hparsed
      cases hparsed
    · rename_i payload hpayload
      dsimp only
      obtain ⟨hnarrows, hstay, hrows⟩ := handleAnswer_cases s.store now result row payload rest answer
      refine h.answered hprocess answer hnarrows hstay fun result' rows' heq => ?_
      obtain ⟨_, rfl⟩ := MobileProcess.flushing.inj heq
      exact hrows
  · exact h

theorem MobileInvariant.die (h : MobileInvariant s) (answer : Option FlushAnswer) :
    MobileInvariant (s.die answer) := by
  have hclosed : MobileInvariant { s with process := .closed } :=
    h.narrows (.of_sublist (List.Sublist.refl _)) fun _ _ heq => nomatch heq
  unfold MobileState.die
  split
  · rename_i result row rest answer hprocess
    split
    · refine h.answered hprocess answer (.of_sublist ?_) (fun k hk _ => ?_) fun _ _ heq => nomatch heq
      · rw [receive_store]
      · rw [receive_store]
        exact hk
    · exact hclosed
  · exact hclosed

/-- **Every step keeps the invariant**, where events are observed one after the other and the heartbeats of
a pass are due in order. -/
theorem MobileInvariant.step (h : MobileInvariant s) {op : MobileOp} (hregular : op.regular s = true)
    (hdue : op.dueInOrder s = true) : MobileInvariant (mobileStep s op) := by
  have hclock : ∀ {s' : MobileState} (clock : Int), MobileInvariant s' → MobileInvariant { s' with clock } :=
    fun _ h' => { h' with }
  refine hclock _ ?_
  cases op with
  | enqueueEvent kind observedAt payload timerState now committed =>
    refine h.enqueue rfl fun last hlast => ?_
    have hall := (Bool.and_eq_true _ _ ▸ hregular : _ ∧ _).2
    rw [hlast] at hall
    simpa using hall
  | flushQueue now => exact h.beginFlush hdue
  | nextRow answer now => exact h.nextRow now answer
  | die answer => exact h.die answer
  | clearTimerState now =>
    have hopened := h.opened now
    refine ⟨hopened.queue, hopened.receipts, hopened.below, hopened.next, fun result rows hprocess => ?_⟩
    have hpass := hopened.pass result rows hprocess
    exact ⟨hpass.sorted, hpass.parsed, hpass.waiting, hpass.first⟩

/-! ## What leaves the queue -/

/-- The step is the answer that accepts the event of this id, or that refuses it for good. -/
def MobileOp.decides (s : MobileState) (op : MobileOp) (id : Nat) : Bool :=
  match s.process, op with
  | .flushing _ (row :: _), .nextRow (.response status _ _) _ =>
    row.id == id && (isOkStatus status || isPermanentStatus status)
  | _, _ => false

/-- The step is taken more than 90 days after the event was enqueued. -/
def MobileOp.expires (op : MobileOp) (row : StoredEvent) : Prop :=
  ∃ now, op.time? = some now ∧ row.createdAt < now - millisecondsOfDays 90

theorem opened_waitsFor (now : Int) {row : StoredEvent} (hmem : row ∈ s.store.eventQueue)
    (hwaits : row.waits = true) :
    (s.opened now).store.waitsFor row.id ∨ row.createdAt < now - millisecondsOfDays 90 := by
  by_cases hyoung : now - millisecondsOfDays 90 ≤ row.createdAt
  · left
    unfold MobileState.opened
    split
    · exact openDatabase_waitsFor hmem hwaits hyoung
    · exact ⟨row, hmem, rfl, hwaits⟩
  · exact .inr (not_le.mp hyoung)

/-- An answer ends the waiting of its own row only, and only when it decides. -/
theorem nextRow_waitsFor (h : MobileInvariant s) {k : Nat} (hk : s.store.waitsFor k) (now : Int)
    (answer : FlushAnswer) :
    (s.nextRow now answer).store.waitsFor k ∨ (MobileOp.nextRow answer now).decides s k = true := by
  unfold MobileState.nextRow
  split
  · exact .inl hk
  · rename_i result row rest hprocess
    split
    · rename_i hpayload
      have hparsed := (h.pass _ _ hprocess).parsed row List.mem_cons_self
      rw [hpayload] at hparsed
      cases hparsed
    · rename_i payload hpayload
      by_cases hid : k = row.id
      · subst hid
        unfold handleAnswer
        split
        · exact .inl (retryEvent_waitsFor.mpr hk)
        · rename_i status detail retryAfter
          have hdecides : (MobileOp.nextRow (.response status detail retryAfter) now).decides s row.id =
              (isOkStatus status || isPermanentStatus status) := by
            unfold MobileOp.decides
            rw [hprocess]
            simp
          rw [hdecides]
          split
          · rename_i hok
            exact .inr (by rw [hok, Bool.true_or])
          · split
            · rename_i hpermanent
              exact .inr (by rw [hpermanent, Bool.or_true])
            · exact .inl (retryEvent_waitsFor.mpr hk)
      · exact .inl ((handleAnswer_cases s.store now result row payload rest answer).2.1 k hk hid)
  · exact .inl hk

/-- Enqueueing drops no heartbeat that the opened database still has. -/
theorem enqueueEvent_waitsFor (h : MobileInvariant s) {now : Int} {event : QueuedEvent}
    (timerState : Option (Option TimerState)) (committed : Bool) (hid : event.id = s.nextId) {k : Nat}
    (hk : s.store.waitsFor k) (hopened : (s.opened now).store.waitsFor k) :
    (s.enqueueEvent now event timerState committed).1.store.waitsFor k := by
  rcases enqueueEvent_cases h now timerState committed hid with
    heq | heq | heq | ⟨store, rows, _, hstay, hrows, _, heq⟩
  · rw [heq]
    exact hk
  · rw [heq]
    exact hopened
  · rw [heq]
    exact hopened
  · rw [heq]
    obtain ⟨kept, hkept, hkeptId, hkeptWaits⟩ := hstay k hopened
    exact ⟨kept, hrows ▸ List.mem_append_left _ hkept, hkeptId, hkeptWaits⟩

/-- **A heartbeat stops waiting** when the server accepts it or refuses it for good, or at 90 days. -/
theorem step_waitsFor (h : MobileInvariant s) (op : MobileOp) {row : StoredEvent}
    (hmem : row ∈ s.store.eventQueue) (hwaits : row.waits = true) :
    (mobileStep s op).store.waitsFor row.id ∨ op.decides s row.id = true ∨ op.expires row := by
  have hk : s.store.waitsFor row.id := ⟨row, hmem, rfl, hwaits⟩
  cases op with
  | enqueueEvent kind observedAt payload timerState now committed =>
    rcases opened_waitsFor now hmem hwaits with hopened | hold
    · exact .inl (enqueueEvent_waitsFor h timerState committed rfl hk hopened)
    · exact .inr (.inr ⟨now, rfl, hold⟩)
  | flushQueue now =>
    rcases opened_waitsFor now hmem hwaits with hopened | hold
    · refine .inl ?_
      show (s.beginFlush now).store.waitsFor row.id
      unfold MobileState.beginFlush
      dsimp only
      split
      · exact hopened
      · exact hopened
    · exact .inr (.inr ⟨now, rfl, hold⟩)
  | nextRow answer now => exact (nextRow_waitsFor h hk now answer).imp_right .inl
  | die answer =>
    refine .inl ?_
    show (s.die answer).store.waitsFor row.id
    have hstore : (s.die answer).store = s.store := by
      unfold MobileState.die
      split
      · split
        · exact receive_store _ _
        · rfl
      · rfl
    rw [hstore]
    exact hk
  | clearTimerState now =>
    rcases opened_waitsFor now hmem hwaits with hopened | hold
    · exact .inl hopened
    · exact .inr (.inr ⟨now, rfl, hold⟩)

/-! ## An event and its timer state -/

/-- Both are stored, or neither is. -/
def StoredTogether (store store' : MobileStore) (event : QueuedEvent)
    (timerState : Option (Option TimerState)) : Prop :=
  ((∃ row ∈ store'.eventQueue, row.id = event.id ∧ row.kind = event.kind ∧
      row.observedAt = event.observedAt ∧ row.payload = some event.payload) ∧
    store'.timer = timerState.getD store.timer) ∨
  ((∀ row ∈ store'.eventQueue, row.id ≠ event.id) ∧ store'.timer = store.timer)

theorem enqueueEvent_together (h : MobileInvariant s) {now : Int} {event : QueuedEvent}
    {timerState : Option (Option TimerState)} {committed : Bool} (hid : event.id = s.nextId) :
    StoredTogether s.store (s.enqueueEvent now event timerState committed).1.store event timerState := by
  have hfresh : ∀ row ∈ s.store.eventQueue, row.id ≠ event.id :=
    fun row hmem => hid ▸ (h.queue.below row hmem).ne
  have hopened : ∀ row ∈ (s.opened now).store.eventQueue, row.id ≠ event.id :=
    fun row hmem => hfresh row ((opened_sublist now).subset hmem)
  rcases enqueueEvent_cases h now timerState committed hid with
    heq | heq | heq | ⟨store, rows, _, _, hrows, htimer, heq⟩
  · rw [heq]
    exact .inr ⟨hfresh, rfl⟩
  · rw [heq]
    exact .inr ⟨hopened, opened_timer now⟩
  · rw [heq]
    exact .inr ⟨hopened, opened_timer now⟩
  · rw [heq]
    refine .inl ⟨⟨event.stored now, ?_, rfl, rfl, rfl, rfl⟩, htimer⟩
    show event.stored now ∈ store.eventQueue
    rw [hrows]
    exact List.mem_append_right _ List.mem_cons_self

end

/-! ## Runs -/

/-- What the step does to the queue: a heartbeat stops waiting for a reason, and an event is stored with its
timer state. -/
structure StepKept (s : MobileState) (op : MobileOp) : Prop where
  leaves : ∀ row ∈ s.store.eventQueue, row.waits = true →
    (mobileStep s op).store.waitsFor row.id ∨ op.decides s row.id = true ∨ op.expires row
  together : ∀ kind observedAt payload timerState now committed,
    op = .enqueueEvent kind observedAt payload timerState now committed →
    StoredTogether s.store (mobileStep s op).store { id := s.nextId, kind, observedAt, payload } timerState

/-- **The replay is kept**: the server's receipts are in the order in which the heartbeats were enqueued, and
every step has kept the queue. -/
def ReplayKept (ops : List MobileOp) : Prop :=
  (run mobileStep {} ops).accepted.Pairwise (· < ·) ∧
    ∀ before op after, ops = before ++ op :: after → StepKept (run mobileStep {} before) op

theorem mobileInvariant_start : MobileInvariant {} where
  queue := ⟨List.Pairwise.nil, fun _ h => (nomatch h), fun _ h => (nomatch h), fun _ h => (nomatch h)⟩
  receipts := List.Pairwise.nil
  below := fun _ h => nomatch h
  next := fun _ _ _ _ h => nomatch h
  pass := fun _ _ h => nomatch h

theorem MobileInvariant.stepKept {s : MobileState} (h : MobileInvariant s) (op : MobileOp) :
    StepKept s op where
  leaves := fun _ hmem hwaits => step_waitsFor h op hmem hwaits
  together := by
    rintro kind observedAt payload timerState now committed rfl
    exact enqueueEvent_together h rfl

/-- **The replay is kept in every run** in which events are observed one after the other, the clock does not
go back, and each pass finds the heartbeats due in order. -/
theorem replayKept_run {ops : List MobileOp}
    (hops : Guarded mobileStep (fun s op => op.regular s = true ∧ op.dueInOrder s = true) {} ops) :
    ReplayKept ops := by
  have hinv : ∀ {before}, Guarded mobileStep
      (fun s op => op.regular s = true ∧ op.dueInOrder s = true) {} before →
      MobileInvariant (run mobileStep {} before) :=
    fun hbefore => guarded_invariant MobileInvariant (fun _ _ h hg => h.step hg.1 hg.2)
      mobileInvariant_start hbefore
  refine ⟨(hinv hops).receipts, ?_⟩
  rintro before op after rfl
  exact (hinv (guarded_append.mp hops).1).stepKept op

/-! ## Two heartbeats -/

def beat (status : SessionStatus) : EventPayload := { status := some status, length := 240 }

/-- The timer starts and stops while the server is busy; it is asked again when both are due. The process
dies once after the server has accepted the first. -/
theorem replayKept_run_busy :
    (run mobileStep {}
      [.enqueueEvent .heartbeat 0 (beat .active) (some (some ⟨.active, 7, none, 0, 0⟩)) 0 true,
        .flushQueue 1, .nextRow (.response 503 none none) 2, .nextRow (.failure false) 3,
        .enqueueEvent .heartbeat 60000 (beat .stopped) (some none) 60000 true,
        .flushQueue 60001, .die (some (.response 200 none none)),
        .flushQueue 61000, .nextRow (.response 200 none none) 61001,
        .nextRow (.response 200 none none) 61002]).accepted = [0, 1] ∧
    ReplayKept
      [.enqueueEvent .heartbeat 0 (beat .active) (some (some ⟨.active, 7, none, 0, 0⟩)) 0 true,
        .flushQueue 1, .nextRow (.response 503 none none) 2, .nextRow (.failure false) 3,
        .enqueueEvent .heartbeat 60000 (beat .stopped) (some none) 60000 true,
        .flushQueue 60001, .die (some (.response 200 none none)),
        .flushQueue 61000, .nextRow (.response 200 none none) 61001,
        .nextRow (.response 200 none none) 61002] :=
  ⟨by decide +kernel, replayKept_run (by decide +kernel)⟩

/-- The first of two heartbeats has to wait a second; a pass half a second later sends the other one. -/
theorem replayKept_skipped :
    ¬ ∀ ops, Guarded mobileStep (fun s op => op.regular s = true) {} ops → ReplayKept ops := by
  intro h
  have hreplay := h
    [.enqueueEvent .heartbeat 0 (beat .active) (some (some ⟨.active, 7, none, 0, 0⟩)) 0 true,
      .enqueueEvent .heartbeat 60000 (beat .stopped) (some none) 60000 true,
      .flushQueue 60000, .nextRow (.response 503 none none) 60000, .nextRow (.failure false) 60000,
      .flushQueue 60500, .nextRow (.response 200 none none) 60500, .nextRow (.failure false) 60500,
      .flushQueue 61500, .nextRow (.response 200 none none) 61500] (by decide +kernel)
  have hreceipts := hreplay.1
  revert hreceipts
  decide +kernel

end Dayfinch
