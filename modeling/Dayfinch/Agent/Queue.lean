/-
# Dayfinch.Agent.Queue -- the tables of the desktop agent's offline queue

`OfflineQueue` keeps three SQLite tables, of screenshots, of time-state events and of usage events, as
lists of rows in the order of their inserts. Text columns are sealed when they are written and opened
when they are read, which the model leaves out, and times are ISO texts in UTC, which SQLite compares as
the instants they stand for. Identifiers come from a counter where the source calls `uuid.uuid4()`, so
they also number the rows in the order they are journaled.
-/
import Dayfinch.Library.Text
import Dayfinch.Schema

namespace Dayfinch

open Library (orderBy)
open Library.Text (truncate)

/-! ## Rows -/

/-- `StateEvent`. -/
structure StateEvent where
  id : Nat
  observedAt : Int
  status : SessionStatus
  taskId : String
  projectId : String
  note : String
  idleSeconds : Int
  heartbeatIntervalSeconds : Int
  transition : Bool
  deriving DecidableEq, Repr

/-- A row of `state_events`. -/
structure StateRow extends StateEvent where
  createdAt : Int
  deriving DecidableEq, Repr

/-- `UsageEvent`. -/
structure UsageEvent where
  id : Nat
  observedAt : Int
  activeApp : String
  activeUrl : String
  focusedSeconds : Int
  deriving DecidableEq, Repr

/-- `ActivitySnapshot`. -/
structure ActivitySnapshot where
  keyboardEvents : Nat
  mouseClicks : Nat
  mouseDistance : Nat
  focusedSeconds : Nat
  interactiveSeconds : Nat
  automationSuspected : Bool
  deriving DecidableEq, Repr

/-- `QueuedRecord`. Its `screenshot_path` is the file of its id in the image directory. -/
structure QueuedRecord where
  id : Nat
  capturedAt : Int
  activity : ActivitySnapshot
  sessionId : String
  activeApp : String
  activeUrl : String
  screenshotBlurred : Bool
  deriving DecidableEq, Repr

/-- A row of `queue`. -/
structure QueueRow extends QueuedRecord where
  createdAt : Int
  deriving DecidableEq, Repr

/-! ## Time-state events -/

/-- The arguments of `add_state`. A status outside the three is `none`; so is an absent
`observed_at`. -/
structure StateArgs where
  status : Option SessionStatus
  taskId : String := ""
  projectId : String := ""
  note : String := ""
  idleSeconds : Int := 0
  heartbeatIntervalSeconds : Int := 60
  transition : Bool := false
  observedAt : Option Int := none
  deriving DecidableEq, Repr

/-- The event that `add_state` journals at the wall clock `now`. -/
def newStateEvent (id : Nat) (now : Int) (args : StateArgs) : Except Error StateEvent :=
  match args.status with
  | none => .error (.valueError "invalid state event status")
  | some status =>
    .ok {
      id
      observedAt := args.observedAt.getD now
      status
      taskId := args.taskId
      projectId := args.projectId
      note := truncate 500 args.note
      idleSeconds := max 0 args.idleSeconds
      heartbeatIntervalSeconds := max 1 args.heartbeatIntervalSeconds
      transition := args.transition }

/-- `(observed_at, created_at)`, the columns that `pending_states` orders by. -/
def StateRow.stamp (r : StateRow) : Int ×ₗ Int := toLex (r.observedAt, r.createdAt)

/-- `pending_states`. -/
def pendingStates (tie : StateRow → Nat) (limit : Nat) (rows : List StateRow) : List StateEvent :=
  ((orderBy StateRow.stamp tie rows).take (max 1 limit)).map (·.toStateEvent)

/-- `DELETE FROM state_events WHERE id = ..`. -/
def deleteState (id : Nat) (rows : List StateRow) : List StateRow := rows.filter (·.id != id)

/-- The event that `add_usage` journals. -/
def newUsageEvent (id : Nat) (now : Int) (activeApp activeUrl : String) (focusedSeconds : Int)
    (observedAt : Option Int) : UsageEvent where
  id := id
  observedAt := observedAt.getD now
  activeApp := truncate 160 activeApp
  activeUrl := truncate 255 activeUrl
  focusedSeconds := max 0 (min 3600 focusedSeconds)

/-- The record that `add` queues. -/
def newQueuedRecord (id : Nat) (now : Int) (activity : ActivitySnapshot) (activeApp : String)
    (capturedAt : Option Int) (sessionId activeUrl : String) (screenshotBlurred : Bool) :
    QueuedRecord where
  id := id
  capturedAt := capturedAt.getD now
  activity := activity
  sessionId := sessionId
  activeApp := truncate 160 activeApp
  activeUrl := truncate 255 activeUrl
  screenshotBlurred := screenshotBlurred

/-! ## Lemmas -/

theorem mem_deleteState {id : Nat} {rows : List StateRow} {r : StateRow} :
    r ∈ deleteState id rows ↔ r ∈ rows ∧ r.id ≠ id := by
  unfold deleteState
  rw [List.mem_filter, bne_iff_ne]

/-- Rows stamped in the order of their inserts are pending in that order. -/
theorem pendingStates_of_stamped {rows : List StateRow}
    (h : rows.Pairwise fun r q => r.stamp < q.stamp) (tie : StateRow → Nat) (limit : Nat) :
    pendingStates tie limit rows = (rows.take (max 1 limit)).map (·.toStateEvent) := by
  unfold pendingStates
  rw [Library.orderBy_eq_self h]

end Dayfinch
