/-
# Dayfinch.Work.FieldPage -- the queue of the field tracker, and one pass over it

The field tracker in the browser keeps locations and timer events in an IndexedDB store, encrypted. `flush`
reads the stored events once, in the order of their times, and sends them one by one: a 2xx removes an event,
an answer that the page takes to be permanent moves it to the store `rejected`, and anything else ends the
pass. Meanwhile the page may enqueue events, and other requests change the server's store.

Which refusals are permanent is decided twice, by the status codes of the two routes and by the list in the
page. They agree but for the refusals with status 403: `Blocks` says which of them end the pass.

A row carries its event decrypted (`none` where that fails). The times, ISO texts of one format, compare as the
instants they stand for. The local stores are taken to work, and one pass runs at a time.
-/
import Dayfinch.Work.WebTimer

namespace Dayfinch

open Library (run Guarded orderBy UniqueKey)

/-! ## The stores of the page -/

inductive FieldKind
  | timer | location
  deriving DecidableEq, Repr

/-- What an event says. `invalid` is a body that the schema of the route refuses. -/
inductive FieldBody
  | timer (payload : FieldTimerEvent)
  | location (point : LocationPoint)
  | invalid

/-- A row of `events`. -/
structure FieldRow where
  id : Nat
  kind : FieldKind
  recordedAt : Int
  body : Option FieldBody

/-- A row of `rejected`. -/
structure RejectedRow where
  row : FieldRow
  responseStatus : Nat
  rejectionReason : String

/-- The two stores. `events` has the key path `id`. -/
structure FieldQueue where
  events : List FieldRow
  rejected : List RejectedRow
  keys : UniqueKey (·.id) events

/-- `pending`. -/
def FieldQueue.pending (queue : FieldQueue) : List FieldRow :=
  orderBy (·.recordedAt) (·.id) queue.events

/-! ## The server -/

/-- The route of an event, behind the schema of its body. -/
def FieldBody.serve (kind : FieldKind) (body : FieldBody) (pick : Picks) (now : Int) (s : WebStore)
    (userId : Nat) : WebStore × TimerAnswer :=
  match kind, body with
  | .timer, .timer payload => fieldTimerEvent pick now s userId payload
  | .location, .location point => fieldLocation pick now s userId point
  | _, _ => (s, .refused 422 "")

/-- What `fetch` answers: a status, and the detail where the body is a problem that has one. -/
structure FieldResponse where
  status : Nat
  detail : Option String
  deriving DecidableEq, Repr

/-- The response to a request that reached its route. -/
def TimerAnswer.response : TimerAnswer → FieldResponse
  | .accepted => ⟨201, none⟩
  | .refused status detail => ⟨status, some detail⟩
  | .failed _ => ⟨500, none⟩

/-- How a request fares: it reaches the route and is answered; the body of the answer cannot be read; the answer
is lost; the request is lost; or something before the route answers it. -/
inductive FetchFate
  | reached | unread | answerLost | lost
  | turnedAway (response : FieldResponse)
  deriving DecidableEq, Repr

/-- The request of an event: what the server makes of it and what `fetch` answers. -/
def FetchFate.fetch (fate : FetchFate) (kind : FieldKind) (body : FieldBody) (pick : Picks) (now : Int)
    (s : WebStore) (userId : Nat) : WebStore × Option FieldResponse :=
  let served := body.serve kind pick now s userId
  match fate with
  | .reached => (served.1, some served.2.response)
  | .unread => (served.1, some { served.2.response with detail := none })
  | .answerLost => (served.1, none)
  | .lost => (s, none)
  | .turnedAway response => (s, some response)

/-! ## `flush` -/

/-- `response.ok`. -/
def FieldResponse.ok (response : FieldResponse) : Bool := 200 ≤ response.status && response.status < 300

/-- `policyRejection`. -/
def FieldResponse.policyRejection (response : FieldResponse) : Bool :=
  response.status == 403 && response.detail == some desktopDetail

/-- The statuses that the page takes to be permanent. -/
def permanentStatuses : List Nat := [400, 404, 409, 410, 413, 415, 422]

/-- How an event leaves the queue. -/
inductive RowEnd
  | removed (status : Nat)
  | rejected (status : Nat) (reason : String)
  deriving DecidableEq, Repr

/-- What the page makes of a response, unless the pass ends. -/
def FieldResponse.settles (response : FieldResponse) : Option RowEnd :=
  if response.ok then some (.removed response.status)
  else if response.policyRejection || permanentStatuses.contains response.status then
    some (.rejected response.status
      (if response.policyRejection then "tracking-app-disabled" else "server-rejected"))
  else none

/-- What happens while one row is sent: what the page enqueues and other requests do before it, and how the
request fares. -/
structure Turn where
  enqueued : List FieldRow := []
  before : List WebOp := []
  pick : Picks := {}
  now : Int
  fate : FetchFate := .reached

/-- An event that was answered. -/
structure AnsweredRow where
  row : FieldRow
  outcome : RowEnd

/-- A pass under way: the two stores and the server, the rows still to be sent, and whether the pass has ended
at one. `answered` remembers what was answered. -/
structure FlushPass where
  server : WebStore
  events : List FieldRow
  rejected : List RejectedRow
  rows : List FieldRow
  answered : List AnsweredRow := []
  ended : Bool := false

namespace FlushPass

/-- The pass reads the queue. -/
def start (server : WebStore) (queue : FieldQueue) : FlushPass where
  server := server
  events := queue.events
  rejected := queue.rejected
  rows := queue.pending

/-- The identifier of a new event is in no store and was in none: `crypto.randomUUID`. -/
def isFresh (pass : FlushPass) (row : FieldRow) : Bool :=
  !(pass.events.any (·.id == row.id) || pass.rejected.any (·.row.id == row.id) ||
    pass.answered.any (·.row.id == row.id))

/-- `enqueue`. -/
def enqueue (pass : FlushPass) (row : FieldRow) : FlushPass :=
  if pass.isFresh row then { pass with events := pass.events ++ [row] } else pass

/-- `remove` and `quarantine`: the head of the rows leaves the queue. -/
def settle (pass : FlushPass) (row : FieldRow) (outcome : RowEnd) : FlushPass :=
  { pass with
    events := pass.events.filter (·.id != row.id)
    rejected :=
      match outcome with
      | .removed _ => pass.rejected
      | .rejected status reason => pass.rejected.filter (·.row.id != row.id) ++ [⟨row, status, reason⟩]
    rows := pass.rows.tail
    answered := pass.answered ++ [⟨row, outcome⟩] }

/-- What happened before a row is sent. -/
def awaited (pass : FlushPass) (turn : Turn) : FlushPass :=
  turn.enqueued.foldl enqueue { pass with server := run WebStore.step pass.server turn.before }

/-- The body of the loop of `flush`. -/
def send (userId : Nat) (pass : FlushPass) (turn : Turn) (row : FieldRow) : FlushPass :=
  match row.body with
  | none => pass.settle row (.rejected 0 "local-integrity-failure")
  | some body =>
    match turn.fate.fetch row.kind body turn.pick turn.now pass.server userId with
    | (server, none) => { pass with server, ended := true }
    | (server, some response) =>
      match response.settles with
      | some outcome => { pass with server }.settle row outcome
      | none => { pass with server, ended := true }

/-- One turn of the pass. -/
def step (userId : Nat) (pass : FlushPass) (turn : Turn) : FlushPass :=
  if pass.ended then pass
  else
    match pass.rows with
    | [] => pass
    | row :: _ => (pass.awaited turn).send userId turn row

end FlushPass

/-! ## Which refusals end a pass -/

/-- The answer is definitive: it is that of the route to a user with a valid session. -/
def TimerAnswer.definitive : TimerAnswer → Bool
  | .accepted => true
  | .refused status _ => status != 401
  | .failed _ => false

/-- The account may only read. -/
def isViewer (db : Database) (userId : Nat) : Bool := (db.getUser userId).any (·.role == .viewer)

/-- A start inside the replay window, where the policy allows the browser, of no project or of one that the
user may not track. -/
def startsUnassigned (now : Int) (db : Database) (userId : Nat) (payload : FieldTimerEvent) : Bool :=
  payload.action == .start && (requireCurrent now payload.observedAt "" "").isOk &&
    webTimerAllowed db userId &&
    (db.getUser userId).any fun user => !payload.projectId.any (canTrackProject db user ·)

/-- **The events that end a pass** though the answer is definitive. -/
def FieldBody.blocks (kind : FieldKind) (body : FieldBody) (now : Int) (db : Database) (userId : Nat) : Bool :=
  match kind, body with
  | .timer, .timer payload => isViewer db userId || startsUnassigned now db userId payload
  | .location, .location _ => isViewer db userId
  | _, _ => false

/-- The row that a turn sends is answered definitively. -/
def Definitive (userId : Nat) (pass : FlushPass) (turn : Turn) : Prop :=
  pass.ended = false → ∀ row body, pass.rows.head? = some row → row.body = some body →
    turn.fate = .reached ∧
    (body.serve row.kind turn.pick turn.now (run WebStore.step pass.server turn.before) userId).2.definitive

/-- The row that a turn sends does not end the pass. -/
def Unblocked (userId : Nat) (pass : FlushPass) (turn : Turn) : Prop :=
  pass.ended = false → ∀ row body, pass.rows.head? = some row → row.body = some body →
    body.blocks row.kind turn.now (run WebStore.step pass.server turn.before).db userId = false

/-! ## The two classifications -/

section

variable {s : WebStore} {userId : Nat} {now : Int} {pick : Picks}

theorem settles_refused_422 (detail : String) :
    (TimerAnswer.refused 422 detail).response.settles.isSome := by
  simp [FieldResponse.settles, TimerAnswer.response, FieldResponse.ok, permanentStatuses]

theorem settles_refused_desktop : (TimerAnswer.refused 403 desktopDetail).response.settles.isSome := by decide

theorem not_settles_403 {detail : String} (h : detail ≠ desktopDetail) :
    (TimerAnswer.refused 403 detail).response.settles = none := by
  simp [FieldResponse.settles, TimerAnswer.response, FieldResponse.ok, FieldResponse.policyRejection,
    permanentStatuses, h]

/-- A `ValueError` is refused for good. -/
theorem settles_valueError {error : Error} (h : (answerValueError error).definitive = true) :
    (answerValueError error).response.settles.isSome := by
  cases error with
  | valueError message =>
    unfold answerValueError
    dsimp only
    by_cases hdesktop : message = desktopDetail
    · rw [if_pos hdesktop, hdesktop]
      exact settles_refused_desktop
    · rw [if_neg hdesktop]
      exact settles_refused_422 message
  | _ => cases h

/-- A call of `sync_work_session` that is answered definitively settles the event, if what the route makes of
an exception does. -/
theorem sync_settles {call : SyncCall} {onError : Error → TimerAnswer}
    (herror : ∀ error, (onError error).definitive = true → (onError error).response.settles.isSome)
    (h : (s.sync pick now call onError).2.definitive = true) :
    (s.sync pick now call onError).2.response.settles.isSome := by
  unfold WebStore.sync at h ⊢
  cases hsync : syncWorkSession pick.receipt now s.db call with
  | error error =>
    rw [hsync] at h
    exact herror error h
  | ok result => rfl

/-- Whoever is refused as a worker is a viewer, or has no valid session. -/
theorem requireWorker_error {db : Database} {answer : TimerAnswer}
    (h : requireWorker db userId = .error answer) (hdefinitive : answer.definitive = true) :
    isViewer db userId = true ∧ answer.response.settles = none := by
  unfold requireWorker at h
  unfold isViewer
  cases huser : db.getUser userId with
  | none =>
    rw [huser] at h
    cases h
    cases hdefinitive
  | some user =>
    rw [huser] at h
    dsimp only at h
    split at h
    · rename_i hviewer
      cases h
      exact ⟨by simp [hviewer], not_settles_403 (by decide)⟩
    · cases h

theorem requireWorker_ok {db : Database} {user : User} (h : requireWorker db userId = .ok user) :
    db.getUser userId = some user ∧ isViewer db userId = false := by
  unfold requireWorker at h
  unfold isViewer
  cases huser : db.getUser userId with
  | none =>
    rw [huser] at h
    cases h
  | some found =>
    rw [huser] at h
    dsimp only at h
    split at h
    · cases h
    · rename_i hworker
      cases h
      exact ⟨rfl, by simpa using hworker⟩

theorem requireCurrent_isOk (now : Int) (value : Datetime) (naive outside : String) :
    (requireCurrent now value "" "").isOk = (requireCurrent now value naive outside).isOk := by
  unfold requireCurrent
  cases value.toUtc? with
  | none => rfl
  | some instant =>
    dsimp only
    split <;> rfl

theorem requireCurrent_error {value : Datetime} {naive outside : String} {answer : TimerAnswer}
    (h : requireCurrent now value naive outside = .error answer) :
    (requireCurrent now value "" "").isOk = false ∧ answer.response.settles.isSome := by
  rw [requireCurrent_isOk now value naive outside, h]
  refine ⟨rfl, ?_⟩
  unfold requireCurrent at h
  split at h
  · cases h
    exact settles_refused_422 naive
  · split at h
    · cases h
      exact settles_refused_422 outside
    · cases h

/-- The checks of an event by its action, one after the other. -/
theorem fieldRequire_eq (db : Database) (user : User) (payload : FieldTimerEvent) :
    fieldRequire db user payload =
      if payload.action.status = .active ∧ webTimerAllowed db user.id = false then
        .error (.refused 403 desktopDetail)
      else if payload.action = .start ∧ ¬ payload.projectId.any (canTrackProject db user ·) then
        .error (.refused 403 "Project is not assigned")
      else .ok () := by
  unfold fieldRequire requireWebTimerAllowed
  by_cases hactive : payload.action.status = .active
  · cases hallowed : webTimerAllowed db user.id with
    | false =>
      rw [if_pos (show _ ∧ _ from ⟨hactive, rfl⟩)]
      simp only [if_pos hactive, Bool.false_eq_true, if_false]
      rfl
    | true =>
      simp only [if_pos hactive, and_false, Bool.true_eq_false, if_false]
      rfl
  · simp only [hactive, false_and, if_false]
    rfl

/-- The answer of the field timer, if it is definitive, settles the event unless it blocks. -/
theorem fieldTimerEvent_settles {payload : FieldTimerEvent}
    (h : (fieldTimerEvent pick now s userId payload).2.definitive = true) :
    (fieldTimerEvent pick now s userId payload).2.response.settles.isSome =
      !(isViewer s.db userId || startsUnassigned now s.db userId payload) := by
  unfold fieldTimerEvent at h ⊢
  cases hworker : requireWorker s.db userId with
  | error answer =>
    rw [hworker] at h
    obtain ⟨hviewer, hnone⟩ := requireWorker_error hworker h
    dsimp only
    rw [hnone, hviewer]
    rfl
  | ok user =>
    rw [hworker] at h
    obtain ⟨hget, hviewer⟩ := requireWorker_ok hworker
    dsimp only at h ⊢
    rw [hviewer, Bool.false_or]
    unfold startsUnassigned
    rw [hget, Option.any_some]
    cases hcurrent : requireCurrent now payload.observedAt "observed_at must include timezone"
        "timer timestamp is outside replay window" with
    | error answer =>
      obtain ⟨houtside, hsettles⟩ := requireCurrent_error hcurrent
      dsimp only
      rw [hsettles, houtside, Bool.and_false]
      rfl
    | ok instant =>
      rw [hcurrent] at h
      have hinside : (requireCurrent now payload.observedAt "" "").isOk = true := by
        rw [requireCurrent_isOk _ _ "observed_at must include timezone"
          "timer timestamp is outside replay window", hcurrent]
        rfl
      dsimp only at h ⊢
      rw [hinside, Bool.and_true]
      have hid : user.id = userId := by simpa using List.find?_some (getUser_eq_some.mp hget).1
      rw [fieldRequire_eq, hid] at h ⊢
      by_cases hpolicy : payload.action.status = .active ∧ webTimerAllowed s.db userId = false
      · -- refused for the policy
        rw [if_pos hpolicy, hpolicy.2, Bool.and_false]
        exact settles_refused_desktop
      rw [if_neg hpolicy] at h ⊢
      by_cases hproject : payload.action = .start ∧ ¬ payload.projectId.any (canTrackProject s.db user ·)
      · -- refused for the project of a start
        have hallowed : webTimerAllowed s.db userId = true := by
          by_contra hnot
          refine hpolicy ⟨?_, by simpa using hnot⟩
          rw [hproject.1]
          rfl
        have hnone : payload.projectId.any (canTrackProject s.db user ·) = false := by
          simpa using hproject.2
        rw [if_pos hproject, hproject.1, hallowed, hnone]
        rfl
      · have hassigned : (payload.action == .start && webTimerAllowed s.db userId &&
            !payload.projectId.any (canTrackProject s.db user ·)) = false := by
          by_contra hall
          rw [Bool.not_eq_false, Bool.and_eq_true, Bool.and_eq_true, beq_iff_eq] at hall
          exact hproject ⟨hall.1.1, by simpa using hall.2⟩
        rw [if_neg hproject] at h ⊢
        rw [hassigned]
        dsimp only at h ⊢
        split at h
        · cases h
        · exact sync_settles (fun _ => settles_valueError) h


/-- The action of a fence is accepted, or fails. -/
theorem fenceAction_settles {user : User} {device : Device} {active : Option WorkSession}
    {eventType : LocationEventType} {fence : Geofence}
    (h : (s.fenceAction pick now user device active eventType fence).2.definitive = true) :
    (s.fenceAction pick now user device active eventType fence).2.response.settles.isSome := by
  unfold WebStore.fenceAction at h ⊢
  split at h
  · split
    · rename_i henters
      rw [if_pos henters] at h
      refine sync_settles (fun error herror => ?_) h
      cases error with
      | valueError message => rfl
      | _ => cases herror
    · rfl
  · split
    · rename_i hexits
      rw [if_pos hexits] at h
      exact sync_settles (fun error herror => by cases herror) h
    · rfl
  · rfl

/-- The answer to a location, if it is definitive, settles it unless the user is a viewer. -/
theorem fieldLocation_settles {point : LocationPoint}
    (h : (fieldLocation pick now s userId point).2.definitive = true) :
    (fieldLocation pick now s userId point).2.response.settles.isSome = !isViewer s.db userId := by
  unfold fieldLocation at h ⊢
  cases hworker : requireWorker s.db userId with
  | error answer =>
    rw [hworker] at h
    obtain ⟨hviewer, hnone⟩ := requireWorker_error hworker h
    dsimp only
    rw [hnone, hviewer]
    rfl
  | ok user =>
    rw [hworker] at h
    rw [(requireWorker_ok hworker).2]
    dsimp only at h ⊢
    cases hcurrent : requireCurrent now point.recordedAt "recorded_at must include timezone"
        "location timestamp is outside replay window" with
    | error answer => exact (requireCurrent_error hcurrent).2
    | ok instant =>
      rw [hcurrent] at h
      dsimp only at h ⊢
      split at h
      · cases h
      · split at h
        · cases h
        · rfl
        · cases hfence : (crossing (s.geofenceState pick userId point.inside).1
            (s.geofenceState pick userId point.inside).2).2 with
          | none => rfl
          | some fence =>
            rw [hfence] at h
            exact fenceAction_settles h

/-- **Where the two lists agree.** A definitive answer settles the event unless the event blocks. -/
theorem serve_settles {kind : FieldKind} {body : FieldBody}
    (h : (body.serve kind pick now s userId).2.definitive = true) :
    (body.serve kind pick now s userId).2.response.settles.isSome = !body.blocks kind now s.db userId := by
  unfold FieldBody.serve at h ⊢
  unfold FieldBody.blocks
  split at h
  · exact fieldTimerEvent_settles h
  · exact fieldLocation_settles h
  · exact settles_refused_422 ""

end

end Dayfinch
