/-
# Dayfinch.Integrations.SlackOutbox -- the messages to Slack, and the workers that deliver them

Triggers on the work sessions and the todos put messages into an outbox, one for each destination.
`claim_due_slack_messages` takes at most one message of each destination that is due: the ranking and the
conditions are computed in a sub-query, from a snapshot and without locks, and the rows are locked in a later
block that repeats nothing but the id. The worker then renews its claim of a message, sends it, and marks it as
sent or failed. Each of these is an update under the worker's token.

A statement that claims takes its snapshot in one step, comes to each candidate in a step of its own, and
commits in another; all the other updates are of one row, and wait while the row is locked. A worker reads its
time before the statement, so it is never ahead of the clock.
-/
import Dayfinch.Integrations.Connections
import Dayfinch.Library.Run
import Dayfinch.Library.Text

namespace Dayfinch

open Library (updateWhere orderBy)
open Library.Text (lower truncate replaceOthers)

/-! ## Tables -/

/-- `integrations` of the provider, with its `slack_notification_defaults`. -/
structure SlackWorkspace where
  integrationId : Nat
  enabled : Bool
  timerEvents : Option Bool
  todoEvents : Option Bool
  deriving DecidableEq, Repr

/-- `slack_destinations`. -/
structure SlackDestination where
  id : Nat
  integrationId : Nat
  enabled : Bool
  deriving DecidableEq, Repr

/-- `slack_notification_users`. -/
structure SlackUserRule where
  integrationId : Nat
  userId : Nat
  timerEvents : Option Bool
  todoEvents : Option Bool
  deriving DecidableEq, Repr

/-- `event_type`. -/
inductive SlackEventType
  | timerStarted | timerStopped | todoCompleted
  deriving DecidableEq, Repr

/-- `event_key`: `session:..:started`, `session:..:stopped` or `todo:..:project:..:completed:..`. -/
inductive SlackEventKey
  | started (sessionId : Nat)
  | stopped (sessionId : Nat)
  | completed (todoId projectId : Nat) (completedAt : Int)
  deriving DecidableEq, Repr

/-- `slack_outbox`. -/
structure SlackMessage where
  id : Nat
  integrationId : Nat
  destinationId : Nat
  eventKey : SlackEventKey
  eventType : SlackEventType
  userId : Option Nat
  projectId : Option Nat
  taskId : Option Nat
  sessionId : Option Nat
  todoId : Option Nat
  occurredAt : Int
  attemptCount : Nat
  nextAttemptAt : Int
  claimToken : Option Nat
  claimUntil : Option Int
  providerTs : Option String
  lastErrorCode : String
  sentAt : Option Int
  discardedAt : Option Int
  createdAt : Int
  deriving DecidableEq, Repr

namespace SlackMessage

/-- `sent_at IS NULL AND discarded_at IS NULL`. -/
def pending (m : SlackMessage) : Bool := m.sentAt.isNone && m.discardedAt.isNone

/-- The message is pending and its claim has not ended. -/
def live (now : Int) (m : SlackMessage) : Bool := m.pending && m.claimUntil.any (now < ·)

/-- `next_attempt_at,created_at,id`. -/
def order (m : SlackMessage) : Int ×ₗ Int ×ₗ Nat := toLex (m.nextAttemptAt, toLex (m.createdAt, m.id))

/-- `id=.. AND claim_token=.. AND sent_at IS NULL AND discarded_at IS NULL`. -/
def claimedBy (id token : Nat) (m : SlackMessage) : Bool :=
  m.id == id && m.claimToken == some token && m.pending

end SlackMessage

/-- A statement that claims: the rows it has not come to, and those it has locked. -/
structure SlackClaim where
  token : Nat
  observedAt : Int
  limit : Nat
  leaseSeconds : Int
  candidates : List SlackMessage
  locked : List Nat
  deriving DecidableEq, Repr

/-- A message that a worker has been given, and how long it may go on. -/
structure SlackLease where
  messageId : Nat
  destinationId : Nat
  token : Nat
  claimUntil : Int
  deriving DecidableEq, Repr

/-- The tables, the statements under way, and what the workers hold. -/
structure SlackState where
  clock : Int
  workspaces : List SlackWorkspace
  destinations : List SlackDestination
  userRules : List SlackUserRule
  outbox : List SlackMessage := []
  claims : List SlackClaim := []
  leases : List SlackLease := []
  nextId : Nat := 0
  nextToken : Nat := 0
  deriving DecidableEq, Repr

/-! ## Triggers -/

/-- An event to be sent to all destinations that want it. -/
structure SlackEvent where
  eventKey : SlackEventKey
  eventType : SlackEventType
  userId : Option Nat
  projectId : Option Nat
  taskId : Option Nat
  sessionId : Option Nat
  todoId : Option Nat
  occurredAt : Int
  deriving DecidableEq, Repr

/-- What `dayfinch_enqueue_slack_session_notification` makes of a write to `work_sessions`. -/
def sessionEvent (old : Option WorkSession) (new : WorkSession) : Option SlackEvent :=
  let event := fun eventKey eventType occurredAt =>
    { eventKey, eventType, userId := new.userId, projectId := new.projectId, taskId := new.taskId
      sessionId := some new.id, todoId := none, occurredAt : SlackEvent }
  match old with
  | none =>
    if new.status = .active ∨ new.status = .paused then
      some (event (.started new.id) .timerStarted new.startedAt)
    else none
  | some old =>
    if old.status ≠ .stopped ∧ new.status = .stopped then
      some (event (.stopped new.id) .timerStopped (new.endedAt.getD new.updatedAt))
    else none

/-- What `dayfinch_enqueue_slack_todo_notification` makes of an update of `project_todos`. -/
def todoEvent (old new : Option Int) (todoId projectId : Nat) (completedByUserId : Option Nat) :
    Option SlackEvent :=
  match old, new with
  | none, some completedAt =>
    some { eventKey := .completed todoId projectId completedAt, eventType := .todoCompleted
           userId := completedByUserId, projectId := some projectId, taskId := none, sessionId := none
           todoId := some todoId, occurredAt := completedAt }
  | _, _ => none

namespace SlackState

/-- `COALESCE(member_rule.timer_events,defaults.timer_events)=TRUE`, or of `todo_events`. -/
def wants (s : SlackState) (workspace : SlackWorkspace) (event : SlackEvent) : Bool :=
  let rule := s.userRules.find? fun rule =>
    rule.integrationId == workspace.integrationId && some rule.userId == event.userId
  match event.eventType with
  | .timerStarted | .timerStopped =>
    workspace.timerEvents.any fun byDefault => (rule.bind (·.timerEvents)).getD byDefault
  | .todoCompleted =>
    workspace.todoEvents.any fun byDefault => (rule.bind (·.todoEvents)).getD byDefault

/-- The destinations of an event. -/
def destinationsOf (s : SlackState) (event : SlackEvent) : List SlackDestination :=
  s.destinations.filter fun d => d.enabled && s.workspaces.any fun w =>
    w.integrationId == d.integrationId && w.enabled && s.wants w event

/-- `INSERT INTO slack_outbox .. ON CONFLICT(destination_id,event_key) DO NOTHING`. -/
def insertMessage (event : SlackEvent) (now : Int) (s : SlackState) (d : SlackDestination) : SlackState :=
  if s.outbox.any fun m => m.destinationId == d.id && m.eventKey == event.eventKey then s
  else
    let message : SlackMessage :=
      { id := s.nextId, integrationId := d.integrationId, destinationId := d.id, eventKey := event.eventKey
        eventType := event.eventType, userId := event.userId, projectId := event.projectId
        taskId := event.taskId, sessionId := event.sessionId, todoId := event.todoId
        occurredAt := event.occurredAt, attemptCount := 0, nextAttemptAt := now, claimToken := none
        claimUntil := none, providerTs := none, lastErrorCode := "", sentAt := none, discardedAt := none
        createdAt := now }
    { s with outbox := s.outbox ++ [message], nextId := s.nextId + 1 }

/-- The messages of an event, in a transaction begun at `now`. -/
def enqueue (s : SlackState) (event : Option SlackEvent) (now : Int) : SlackState :=
  match event with
  | none => s
  | some event => (s.destinationsOf event).foldl (insertMessage event now) s

/-! ## Claims -/

/-- The conditions of `ranked`, but for the rank. -/
def isDue (s : SlackState) (observedAt : Int) (m : SlackMessage) : Bool :=
  (s.destinations.any fun d => d.id == m.destinationId && d.enabled) &&
  (s.workspaces.any fun w => w.integrationId == m.integrationId && w.enabled) &&
  m.pending && m.nextAttemptAt ≤ observedAt && m.claimUntil.all (· ≤ observedAt) &&
  !s.outbox.any fun active => active.destinationId == m.destinationId && active.live observedAt

/-- `destination_order=1`, in the order of `due`. -/
def candidates (s : SlackState) (observedAt : Int) : List SlackMessage :=
  let ranked := s.outbox.filter (s.isDue observedAt)
  orderBy SlackMessage.order (fun _ => 0)
    (ranked.filter fun m => ranked.all fun m' => m'.destinationId != m.destinationId || m.order ≤ m'.order)

/-- The row is locked by a statement under way. -/
def locked (s : SlackState) (id : Nat) : Bool := s.claims.any (·.locked.contains id)

/-- `FOR UPDATE OF message SKIP LOCKED LIMIT ..`: the statement locks the row, in its latest version. -/
def takes (s : SlackState) (c : SlackClaim) (m : SlackMessage) : Bool :=
  c.locked.length < c.limit && s.outbox.any (·.id == m.id) && !s.locked m.id

/-- The statement comes to the next row. -/
def lockRow (s : SlackState) (c : SlackClaim) : SlackClaim :=
  match c.candidates with
  | [] => c
  | m :: rest =>
    { c with candidates := rest, locked := if s.takes c m then c.locked ++ [m.id] else c.locked }

/-- `UPDATE .. FROM due`, and the worker gets the messages. -/
def commitClaim (s : SlackState) (c : SlackClaim) : SlackState :=
  let claimUntil := c.observedAt + seconds c.leaseSeconds
  { s with
    outbox := updateWhere (fun m => c.locked.contains m.id)
      (fun m => { m with claimToken := some c.token, claimUntil := some claimUntil }) s.outbox
    claims := s.claims.filter (·.token != c.token)
    leases := s.leases ++ (s.outbox.filter fun m => c.locked.contains m.id).map fun m =>
      { messageId := m.id, destinationId := m.destinationId, token := c.token, claimUntil } }

/-! ## Updates under a token -/

/-- `[0-9]{1,20}\.[0-9]{1,20}`. -/
def isProviderTs (s : String) : Bool :=
  match s.toList.splitOn '.' with
  | [whole, fraction] =>
    [whole, fraction].all fun part => part.all Char.isDigit && 1 ≤ part.length && part.length ≤ 20
  | _ => false

/-- The lease of a worker. -/
def isLease (id token : Nat) (l : SlackLease) : Bool := l.messageId == id && l.token == token

/-- `renew_slack_message_claim`; a worker that does not find its token gives the message up. -/
def renewSlackMessageClaim (s : SlackState) (id token : Nat) (observedAt leaseSeconds : Int) : SlackState :=
  let claimUntil := observedAt + seconds leaseSeconds
  if s.outbox.any (·.claimedBy id token) then
    { s with
      outbox := updateWhere (·.claimedBy id token) (fun m => { m with claimUntil := some claimUntil }) s.outbox
      leases := updateWhere (isLease id token) (fun l => { l with claimUntil }) s.leases }
  else { s with leases := s.leases.filter fun l => !isLease id token l }

/-- The update of a message that a worker has sent, or failed to send. -/
def settle (s : SlackState) (id token : Nat) (f : SlackMessage → SlackMessage) : SlackState :=
  { s with
    outbox := updateWhere (·.claimedBy id token)
      (fun m => { f m with claimToken := none, claimUntil := none }) s.outbox
    leases := s.leases.filter fun l => !isLease id token l }

/-- `mark_slack_message_succeeded`. -/
def sent (providerTs : String) (observedAt : Int) (m : SlackMessage) : SlackMessage :=
  { m with providerTs := some providerTs, sentAt := some observedAt, lastErrorCode := "" }

/-- `mark_slack_message_failed`. -/
def failed (observedAt : Int) (errorCode : String) (retrySeconds : Int) (m : SlackMessage) : SlackMessage :=
  { m with
    attemptCount := m.attemptCount + 1
    nextAttemptAt := observedAt + seconds (min (max retrySeconds 1) 21600)
    lastErrorCode := truncate 64 (replaceOthers (fun c => c.isLower || c.isDigit || c == '_') (lower errorCode))
    discardedAt := if 25 ≤ m.attemptCount + 1 then some observedAt else m.discardedAt }

end SlackState

/-! ## Steps -/

/-- A step of the triggers, of a statement that claims, of a worker, or of time. -/
inductive SlackOp
  | tick (elapsed : Nat)
  | configure (workspaces : List SlackWorkspace) (destinations : List SlackDestination)
      (userRules : List SlackUserRule)
  | session (old : Option WorkSession) (new : WorkSession) (now : Int)
  | todo (old new : Option Int) (todoId projectId : Nat) (completedByUserId : Option Nat) (now : Int)
  | claimDue (observedAt : Int) (limit : Nat) (leaseSeconds : Int)
  | lockRow (token : Nat)
  | commitClaim (token : Nat)
  | abortClaim (token : Nat)
  | renew (id token : Nat) (observedAt leaseSeconds : Int)
  | succeed (id token : Nat) (providerTs : String) (observedAt : Int)
  | fail (id token : Nat) (observedAt : Int) (errorCode : String) (retrySeconds : Int)

namespace SlackState

/-- One step. An update of a locked row waits: the step does nothing, and is taken again. -/
def step (s : SlackState) : SlackOp → SlackState
  | .tick elapsed => { s with clock := s.clock + elapsed }
  | .configure workspaces destinations userRules => { s with workspaces, destinations, userRules }
  | .session old new now => s.enqueue (sessionEvent old new) now
  | .todo old new todoId projectId completedByUserId now =>
    s.enqueue (todoEvent old new todoId projectId completedByUserId) now
  | .claimDue observedAt limit leaseSeconds =>
    if observedAt ≤ s.clock ∧ (1 ≤ limit ∧ limit ≤ 100) ∧ 30 ≤ leaseSeconds ∧ leaseSeconds ≤ 600 then
      { s with
        claims := s.claims ++
          [{ token := s.nextToken, observedAt, limit, leaseSeconds, candidates := s.candidates observedAt
             locked := [] }]
        nextToken := s.nextToken + 1 }
    else s
  | .lockRow token => { s with claims := updateWhere (·.token == token) s.lockRow s.claims }
  | .commitClaim token =>
    match s.claims.find? (·.token == token) with
    | none => s
    | some c => if c.candidates = [] ∨ c.limit ≤ c.locked.length then s.commitClaim c else s
  | .abortClaim token => { s with claims := s.claims.filter (·.token != token) }
  | .renew id token observedAt leaseSeconds =>
    if observedAt ≤ s.clock ∧ 30 ≤ leaseSeconds ∧ leaseSeconds ≤ 600 ∧ s.locked id = false then
      s.renewSlackMessageClaim id token observedAt leaseSeconds
    else s
  | .succeed id token providerTs observedAt =>
    if isProviderTs providerTs = true ∧ s.locked id = false then
      s.settle id token (sent providerTs observedAt)
    else s
  | .fail id token observedAt errorCode retrySeconds =>
    if s.locked id then s else s.settle id token (failed observedAt errorCode retrySeconds)

/-- Before any message. -/
def start (clock : Int) (workspaces : List SlackWorkspace) (destinations : List SlackDestination)
    (userRules : List SlackUserRule) : SlackState :=
  { clock, workspaces, destinations, userRules }

end SlackState

end Dayfinch
