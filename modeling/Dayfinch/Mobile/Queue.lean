/-
# Dayfinch.Mobile.Queue -- the phone's offline queue, and how it is sent

The mobile tracker keeps heartbeats and locations in a SQLite table until the server has taken them or
has refused them for good. A pass over the queue (`performFlush`) reads the events that are due once, sends
them one by one, and ends at the first that has to wait; events may be enqueued meanwhile, and the process
may die anywhere, also between an answer and what the answer does to the queue.

Times are milliseconds since 1970, as `Date.now()` and the ISO texts have them: the texts compare as the
instants they stand for. Identifiers come from a counter where the source calls `Crypto.randomUUID()`.
A payload is what `JSON.parse` makes of its text. The phone is enrolled throughout.
-/
import Dayfinch.Library.Run
import Dayfinch.Library.Text
import Dayfinch.Schema

namespace Dayfinch

open Library (updateWhere orderBy)
open Library.Text (truncate)

/-! ## Rows -/

inductive EventKind
  | heartbeat | location
  deriving DecidableEq, Repr

/-- The payload of an event: the `status` of a heartbeat, and the length of its JSON text. -/
structure EventPayload where
  status : Option SessionStatus
  length : Nat
  deriving DecidableEq, Repr

structure QueuedEvent where
  id : Nat
  kind : EventKind
  observedAt : Int
  payload : EventPayload
  deriving DecidableEq, Repr

/-- `event_queue.state`. -/
inductive EventState
  | pending | rejected
  deriving DecidableEq, Repr

/-- `event_queue`. The payload is `none` where its text is not that of an object. -/
structure StoredEvent where
  id : Nat
  kind : EventKind
  observedAt : Int
  payload : Option EventPayload
  attempts : Nat
  nextAttemptAt : Int
  state : EventState
  rejectionReason : String
  createdAt : Int
  deriving DecidableEq, Repr

/-- `TimerState`. -/
structure TimerState where
  status : SessionStatus
  projectId : Nat
  taskId : Option Nat
  startedAt : Int
  accumulatedSeconds : Int
  deriving DecidableEq, Repr

/-- The database of the phone: the queue, and the `timer` of `local_state`. -/
structure MobileStore where
  eventQueue : List StoredEvent := []
  timer : Option TimerState := none
  deriving DecidableEq, Repr

/-! ## `queue.ts` -/

def maxPending : Nat := 10000

def maxRejected : Nat := 2000

def maxPayloadBytes : Nat := 32768

/-- Milliseconds in `n` days. -/
def millisecondsOfDays (n : Int) : Int := n * 86400000

namespace MobileStore

/-- `openDatabase`: what is too old is deleted. -/
def openDatabase (s : MobileStore) (now : Int) : MobileStore :=
  { s with
    eventQueue := s.eventQueue.filter fun row =>
      !(row.state == .pending && row.createdAt < now - millisecondsOfDays 90 ||
        row.state == .rejected && row.createdAt < now - millisecondsOfDays 30) }

/-- A full queue drops its oldest location. -/
def makeRoom (s : MobileStore) : Except String MobileStore :=
  if (s.eventQueue.filter (·.state == .pending)).length < maxPending then .ok s
  else
    match (orderBy (·.observedAt) (·.id)
      (s.eventQueue.filter fun row => row.state == .pending && row.kind == .location)).head? with
    | none => .error "The offline timer queue is full; reconnect before continuing"
    | some oldest => .ok { s with eventQueue := s.eventQueue.filter (·.id != oldest.id) }

/-- `INSERT INTO event_queue .. ON CONFLICT(id) DO NOTHING`. -/
def insertEvent (s : MobileStore) (now : Int) (event : QueuedEvent) : MobileStore :=
  if s.eventQueue.any (·.id == event.id) then s
  else
    { s with
      eventQueue := s.eventQueue ++
        [{ id := event.id, kind := event.kind, observedAt := event.observedAt,
           payload := some event.payload, attempts := 0, nextAttemptAt := 0, state := .pending,
           rejectionReason := "", createdAt := now }] }

/-- The timer state that is saved with an event: none where `timerState` is `undefined`. -/
def saveTimer (s : MobileStore) (timerState : Option (Option TimerState)) : MobileStore :=
  match timerState with
  | none => s
  | some timer => { s with timer }

/-- The transaction of `enqueueEvent`. -/
def enqueueTransaction (s : MobileStore) (now : Int) (event : QueuedEvent)
    (timerState : Option (Option TimerState)) : Except String MobileStore := do
  let s ← s.makeRoom
  return (s.insertEvent now event).saveTimer timerState

/-- `pendingEvents`. -/
def pendingEvents (s : MobileStore) (now : Int) (limit : Nat) : List StoredEvent :=
  (orderBy (·.observedAt) (·.id)
    (s.eventQueue.filter fun row => row.state == .pending && row.nextAttemptAt ≤ now)).take
      (min 500 (max 1 limit))

/-- `deleteEvent`. -/
def deleteEvent (s : MobileStore) (id : Nat) : MobileStore :=
  { s with eventQueue := s.eventQueue.filter (·.id != id) }

/-- The rejected events that come before `row` in `ORDER BY created_at DESC, id DESC`. -/
def newerRejected (s : MobileStore) (row : StoredEvent) : List StoredEvent :=
  s.eventQueue.filter fun other =>
    other.state == .rejected &&
      (row.createdAt < other.createdAt || row.createdAt == other.createdAt && row.id < other.id)

/-- The newest rejected events are kept. -/
def trimRejected (s : MobileStore) : MobileStore :=
  { s with
    eventQueue := s.eventQueue.filter fun row =>
      !(row.state == .rejected && maxRejected ≤ (s.newerRejected row).length) }

/-- `rejectEvent`. -/
def rejectEvent (s : MobileStore) (id : Nat) (reason : String) : MobileStore :=
  trimRejected
    { s with
      eventQueue := updateWhere (·.id == id)
        (fun row => { row with state := .rejected, rejectionReason := truncate 300 reason })
        s.eventQueue }

/-- `retryEvent`. -/
def retryEvent (s : MobileStore) (now : Int) (id : Nat) (delayMilliseconds : Int) : MobileStore :=
  { s with
    eventQueue := updateWhere (·.id == id)
      (fun row => { row with
        attempts := row.attempts + 1
        nextAttemptAt := now + max 1000 delayMilliseconds })
      s.eventQueue }

/-- `clearTimerState`. -/
def clearTimerState (s : MobileStore) : MobileStore := { s with timer := none }

end MobileStore

/-! ## `validation.ts` -/

/-- A usable `Retry-After`: `Math.round(seconds * 1000)` of a number that is not negative, or a date. -/
inductive RetryAfter
  | milliseconds (n : Nat)
  | date (at_ : Int)
  deriving DecidableEq, Repr

/-- `retryDelayMilliseconds`. -/
def retryDelayMilliseconds (now : Int) (attempt : Nat) (retryAfter : Option RetryAfter) : Int :=
  match retryAfter with
  | some (.milliseconds n) => min 3600000 (max 1000 n)
  | some (.date at_) => min 3600000 (max 1000 (at_ - now))
  | none => min 3600000 (1000 * 2 ^ min 10 attempt)

def isPermanentStatus (status : Nat) : Bool :=
  [400, 401, 403, 404, 409, 410, 413, 415, 422].contains status

def shouldHaltTimer (status : Nat) (kind : EventKind) (timerStatus : Option SessionStatus) : Bool :=
  status == 401 ||
    kind == .heartbeat && timerStatus == some .active && [403, 404, 410, 422].contains status

/-! ## `api.ts` -/

/-- What comes of a request: no response, where the server may still have accepted the event, or a
response with its status, the `detail` of its body and its `Retry-After`. -/
inductive FlushAnswer
  | failure (accepted : Bool)
  | response (status : Nat) (detail : Option String) (retryAfter : Option RetryAfter)
  deriving DecidableEq, Repr

/-- `response.ok`. -/
def isOkStatus (status : Nat) : Bool := 200 ≤ status && status < 300

/-- The server has accepted the event. -/
def FlushAnswer.accepted : FlushAnswer → Bool
  | .failure accepted => accepted
  | .response status _ _ => isOkStatus status

structure FlushResult where
  sent : Nat := 0
  rejected : Nat := 0
  waiting : Bool := false
  revoked : Bool := false
  haltTimerReason : Option String := none
  deriving DecidableEq, Repr

/-- What a row of the loop leaves: the database, the result so far, and the rows that are still sent. -/
structure Flushed where
  store : MobileStore
  result : FlushResult
  rows : List StoredEvent

/-- The loop's body of `performFlush` for a row with its payload, from the answer on. -/
def handleAnswer (s : MobileStore) (now : Int) (result : FlushResult) (row : StoredEvent)
    (payload : EventPayload) (rest : List StoredEvent) (answer : FlushAnswer) : Flushed :=
  match answer with
  | .failure _ =>
    { store := s.retryEvent now row.id (retryDelayMilliseconds now row.attempts none)
      result := { result with waiting := true }
      rows := [] }
  | .response status detail retryAfter =>
    if isOkStatus status then
      { store := s.deleteEvent row.id, result := { result with sent := result.sent + 1 }, rows := rest }
    else if isPermanentStatus status then
      let reason := detail.getD ("server-" ++ toString status)
      { store := s.rejectEvent row.id reason
        result := { result with
          rejected := result.rejected + 1
          haltTimerReason :=
            if shouldHaltTimer status row.kind payload.status then some reason else result.haltTimerReason
          revoked := result.revoked || status == 401 }
        rows := if status = 401 then [] else rest }
    else
      { store := s.retryEvent now row.id (retryDelayMilliseconds now row.attempts retryAfter)
        result := { result with waiting := true }
        rows := [] }

/-! ## Steps -/

/-- The process, with the pass it is in: `flushPromise` lets one run at a time. -/
inductive MobileProcess
  | closed
  | idle
  | flushing (result : FlushResult) (rows : List StoredEvent)

/-- The phone, and the history of the run: `accepted` has the heartbeats in the order in which the server
first accepted them, `lastObserved` the time of the last event that was enqueued. -/
structure MobileState where
  store : MobileStore := {}
  process : MobileProcess := .closed
  nextId : Nat := 0
  clock : Int := 0
  accepted : List Nat := []
  lastObserved : Option Int := none

/-- What happens on the phone. `enqueueEvent` may die before its transaction is committed; `nextRow` sends
the next row of the pass and handles the answer; `die` is the end of the process, with the answer to the
row that had been sent, if it came. -/
inductive MobileOp
  | enqueueEvent (kind : EventKind) (observedAt : Int) (payload : EventPayload)
    (timerState : Option (Option TimerState)) (now : Int) (committed : Bool)
  | flushQueue (now : Int)
  | nextRow (answer : FlushAnswer) (now : Int)
  | die (answer : Option FlushAnswer)
  | clearTimerState (now : Int)

namespace MobileState

/-- `database()`: the first use of a process opens the database. -/
def opened (s : MobileState) (now : Int) : MobileState :=
  match s.process with
  | .closed => { s with store := s.store.openDatabase now, process := .idle }
  | _ => s

/-- `enqueueEvent`, with what it returns or throws. -/
def enqueueEvent (s : MobileState) (now : Int) (event : QueuedEvent)
    (timerState : Option (Option TimerState)) (committed : Bool) : MobileState × Except String Unit :=
  if maxPayloadBytes < event.payload.length then (s, .error "Event payload is too large")
  else
    let s := s.opened now
    if committed = false then ({ s with process := .closed }, .ok ())
    else
      match s.store.enqueueTransaction now event timerState with
      | .error message => (s, .error message)
      | .ok store => ({ s with store, lastObserved := some event.observedAt }, .ok ())

/-- The server's receipts, with the answer to a row. -/
def receive (s : MobileState) (row : StoredEvent) (answer : FlushAnswer) : MobileState :=
  if row.kind = .heartbeat ∧ answer.accepted ∧ row.id ∉ s.accepted then
    { s with accepted := s.accepted ++ [row.id] }
  else s

/-- `performFlush`, up to its loop. -/
def beginFlush (s : MobileState) (now : Int) : MobileState :=
  let s := s.opened now
  match s.process with
  | .flushing _ _ => s
  | _ => { s with process := .flushing {} (s.store.pendingEvents now 100) }

/-- The next row of the loop of `performFlush`, or its end. -/
def nextRow (s : MobileState) (now : Int) (answer : FlushAnswer) : MobileState :=
  match s.process with
  | .flushing _ [] => { s with process := .idle }
  | .flushing result (row :: rest) =>
    match row.payload with
    | none =>
      { s with
        store := s.store.rejectEvent row.id "local-integrity-failure"
        process := .flushing { result with rejected := result.rejected + 1 } rest }
    | some payload =>
      let flushed := handleAnswer s.store now result row payload rest answer
      { s.receive row answer with
        store := flushed.store
        process := .flushing flushed.result flushed.rows }
  | _ => s

/-- The process ends, after the answer to the row that it has sent. -/
def die (s : MobileState) (answer : Option FlushAnswer) : MobileState :=
  match s.process, answer with
  | .flushing _ (row :: _), some answer =>
    if row.payload.isSome then { s.receive row answer with process := .closed }
    else { s with process := .closed }
  | _, _ => { s with process := .closed }

end MobileState

/-- When a step is taken, by the clock of the phone. -/
def MobileOp.time? : MobileOp → Option Int
  | .enqueueEvent _ _ _ _ now _ => some now
  | .flushQueue now => some now
  | .nextRow _ now => some now
  | .die _ => none
  | .clearTimerState now => some now

/-- One step, without the clock. -/
def MobileState.take (s : MobileState) (op : MobileOp) : MobileState :=
  match op with
  | .enqueueEvent kind observedAt payload timerState now committed =>
    { (s.enqueueEvent now { id := s.nextId, kind, observedAt, payload } timerState committed).1 with
      nextId := s.nextId + 1 }
  | .flushQueue now => s.beginFlush now
  | .nextRow answer now => s.nextRow now answer
  | .die answer => s.die answer
  | .clearTimerState now => { s.opened now with store := (s.opened now).store.clearTimerState }

/-- One step. -/
def mobileStep (s : MobileState) (op : MobileOp) : MobileState :=
  { s.take op with clock := op.time?.getD s.clock }

end Dayfinch
