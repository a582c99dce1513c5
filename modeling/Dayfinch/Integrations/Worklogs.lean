/-
# Dayfinch.Integrations.Worklogs -- which time is exported to Jira, and how it is staged

Triggers on the segments and the manual entries keep a table of dirty days: a day of a user on a task whose
time may have changed. `stage_due_jira_worklogs` takes dirty days of the connections that are due, sums the
user's time of the day within the authorization periods of the connected account, and writes the sum to the
export of the day. `SourceChange` is a write to one row with its trigger; a transaction is a list of them.

Which Jira integration a task was imported from does not change, and is given as `jira`.
-/
import Dayfinch.Integrations.Connections

namespace Dayfinch

open Library (updateWhere orderBy)

/-! ## Tables -/

/-- `time_sync_mode`. -/
inductive TimeSyncMode
  | off | hourly | daily | delayed
  deriving DecidableEq, Repr

/-- The days that are due: up to today, up to yesterday, or up to the day before it. -/
def TimeSyncMode.isDue (mode : TimeSyncMode) (observedAt workDate : Int) : Bool :=
  match mode with
  | .off => false
  | .hourly => workDate ≤ dateOf observedAt
  | .daily => workDate < dateOf observedAt
  | .delayed => workDate < dateOf observedAt - 1

/-- `jira_user_connections`, with its columns for worklogs. -/
structure WorklogConnection extends UserConnection where
  timeSyncMode : TimeSyncMode
  nextWorklogSyncAt : Int
  deriving DecidableEq, Repr

/-- `jira_worklog_dirty_days`. -/
structure DirtyDay where
  integrationId : Nat
  userId : Nat
  taskId : Nat
  workDate : Int
  changedAt : Int
  deriving DecidableEq, Repr

/-- The columns of an export that only its delivery writes. -/
structure ExportDelivery where
  syncedSeconds : Option Int := none
  syncedStartedAt : Option Int := none
  providerWorklogId : Option Nat := none
  attemptCount : Nat := 0
  claimToken : Option Nat := none
  claimUntil : Option Int := none
  deriving DecidableEq, Repr

/-- `jira_worklog_exports`. -/
structure WorklogExport where
  id : Nat
  integrationId : Nat
  userId : Nat
  taskId : Nat
  workDate : Int
  accountId : String
  desiredSeconds : Int
  desiredStartedAt : Option Int
  nextAttemptAt : Int
  lastErrorCode : String
  delivery : ExportDelivery
  deriving DecidableEq, Repr

/-- The tables that staging reads and writes. -/
structure WorklogStore where
  users : List User := []
  integrations : List Integration := []
  connections : List WorklogConnection := []
  periods : List AuthorizationPeriod := []
  workSessions : List WorkSession := []
  segments : List Segment := []
  manualTimeEntries : List ManualTimeEntry := []
  dirtyDays : List DirtyDay := []
  exports : List WorklogExport := []
  nextId : Nat := 0
  deriving DecidableEq, Repr

/-- The day of a user on a task of an integration. -/
structure WorklogDay where
  integrationId : Nat
  userId : Nat
  taskId : Nat
  workDate : Int
  deriving DecidableEq, Repr

def DirtyDay.day (d : DirtyDay) : WorklogDay := ⟨d.integrationId, d.userId, d.taskId, d.workDate⟩

def WorklogExport.day (e : WorklogExport) : WorklogDay :=
  ⟨e.integrationId, e.userId, e.taskId, e.workDate⟩

/-! ## The triggers -/

/-- The days from the first to the last. -/
def daysBetween (first last : Int) : List Int :=
  (List.range (last - first + 1).toNat).map fun (n : Nat) => first + n

namespace WorklogStore

/-- `INSERT INTO jira_worklog_dirty_days .. ON CONFLICT .. DO UPDATE SET changed_at`. -/
def markDay (now : Int) (s : WorklogStore) (day : WorklogDay) : WorklogStore :=
  { s with
    dirtyDays :=
      if s.dirtyDays.any (·.day == day) then
        updateWhere (·.day == day) (fun d => { d with changedAt := now }) s.dirtyDays
      else
        s.dirtyDays ++
          [{ integrationId := day.integrationId, userId := day.userId, taskId := day.taskId,
             workDate := day.workDate, changedAt := now }] }

/-- `dayfinch_enqueue_jira_worklog_days`. -/
def enqueueDays (jira : Nat → Option Nat) (now : Int) (s : WorklogStore) (userId taskId : Option Nat)
    (startedAt : Int) (endedAt : Option Int) : WorklogStore :=
  match userId, taskId, endedAt with
  | some userId, some taskId, some endedAt =>
    if endedAt ≤ startedAt then s
    else
      match jira taskId with
      | none => s
      | some integrationId =>
        (daysBetween (dateOf startedAt) (dateOf (endedAt - 1))).foldl
          (fun s workDate => s.markDay now ⟨integrationId, userId, taskId, workDate⟩) s
  | _, _, _ => s

def session? (s : WorklogStore) (sessionId : Nat) : Option WorkSession :=
  s.workSessions.find? (·.id == sessionId)

/-- What `dayfinch_jira_segment_dirty_trigger` does for the old or the new row. -/
def enqueueSegment (jira : Nat → Option Nat) (now : Int) (s : WorklogStore) (g : Segment) :
    WorklogStore :=
  let session := s.session? g.sessionId
  s.enqueueDays jira now (session.bind (·.userId)) (session.bind (·.taskId)) g.startedAt g.endedAt

/-- What `dayfinch_jira_manual_dirty_trigger` does for the old or the new row. -/
def enqueueManual (jira : Nat → Option Nat) (now : Int) (s : WorklogStore) (m : ManualTimeEntry) :
    WorklogStore :=
  s.enqueueDays jira now (some m.userId) m.taskId m.startedAt
    (if m.status = .approved then some m.endedAt else none)

end WorklogStore

/-! ## Writes to the sources -/

/-- A write to one row. An inserted row takes its id from the supply; `updateSegment` and `updateManual`
replace the row of that id, and a decision on a manual entry is one of them. -/
inductive SourceChange
  | insertSession (row : WorkSession)
  | insertSegment (row : Segment)
  | updateSegment (row : Segment)
  | deleteSegment (id : Nat)
  | insertManual (row : ManualTimeEntry)
  | updateManual (row : ManualTimeEntry)
  | deleteManual (id : Nat)

/-- The write, with its triggers and constraints. -/
def SourceChange.apply (jira : Nat → Option Nat) (now : Int) (s : WorklogStore) :
    SourceChange → Except Error WorklogStore
  | .insertSession row =>
    .ok { s with workSessions := s.workSessions ++ [{ row with id := s.nextId }], nextId := s.nextId + 1 }
  | .insertSegment row =>
    if (s.session? row.sessionId).isNone then .error .foreignKeyViolation
    else
      let s := s.enqueueSegment jira now row
      .ok { s with segments := s.segments ++ [{ row with id := s.nextId }], nextId := s.nextId + 1 }
  | .updateSegment row =>
    let old := s.segments.filter (·.id == row.id)
    if old = [] then .ok s
    else if (s.session? row.sessionId).isNone then .error .foreignKeyViolation
    else
      let s := (old.foldl (·.enqueueSegment jira now ·) s).enqueueSegment jira now row
      .ok { s with segments := updateWhere (·.id == row.id) (fun _ => row) s.segments }
  | .deleteSegment id =>
    let s := (s.segments.filter (·.id == id)).foldl (·.enqueueSegment jira now ·) s
    .ok { s with segments := s.segments.filter (·.id != id) }
  | .insertManual row =>
    if row.endedAt ≤ row.startedAt then .error .checkViolation
    else
      let s := s.enqueueManual jira now row
      .ok { s with
        manualTimeEntries := s.manualTimeEntries ++ [{ row with id := s.nextId }]
        nextId := s.nextId + 1 }
  | .updateManual row =>
    let old := s.manualTimeEntries.filter (·.id == row.id)
    if old = [] then .ok s
    else if row.endedAt ≤ row.startedAt then .error .checkViolation
    else
      let s := (old.foldl (·.enqueueManual jira now ·) s).enqueueManual jira now row
      .ok { s with manualTimeEntries := updateWhere (·.id == row.id) (fun _ => row) s.manualTimeEntries }
  | .deleteManual id =>
    let s := (s.manualTimeEntries.filter (·.id == id)).foldl (·.enqueueManual jira now ·) s
    .ok { s with manualTimeEntries := s.manualTimeEntries.filter (·.id != id) }

/-! ## The time of a day -/

/-- `LEAST(t,COALESCE(period.ended_at,'infinity'))`. -/
def AuthorizationPeriod.least (p : AuthorizationPeriod) (t : Int) : Int := p.endedAt.elim t (min t)

/-- A row of the query: the seconds of a span within a day and a period, and when they start. -/
structure WorklogEntry where
  seconds : Int
  startedAt : Int
  deriving DecidableEq, Repr

/-- The row of a span and a period, where they meet on the day. -/
def worklogEntry (workDate : Int) (p : AuthorizationPeriod) (startedAt endedAt : Int) : Option WorklogEntry :=
  if startedAt < startOfDay workDate + days 1 ∧ p.endedAt.all (startedAt < ·) ∧
      max p.startedAt (startOfDay workDate) < endedAt then
    some
      { seconds := toBigint (min (p.least endedAt) (startOfDay workDate + days 1) -
          max (max startedAt p.startedAt) (startOfDay workDate))
        startedAt := max (max startedAt p.startedAt) (startOfDay workDate) }
  else none

namespace WorklogStore

/-- The span of a closed segment of the user on the task. -/
def segmentSpan? (s : WorklogStore) (userId taskId : Nat) (g : Segment) : Option (Int × Int) :=
  match g.endedAt, s.session? g.sessionId with
  | some endedAt, some session =>
    if session.userId = some userId ∧ session.taskId = some taskId then some (g.startedAt, endedAt)
    else none
  | _, _ => none

/-- The span of an approved manual entry of the user on the task. -/
def manualSpan? (userId taskId : Nat) (m : ManualTimeEntry) : Option (Int × Int) :=
  if m.userId = userId ∧ m.taskId = some taskId ∧ m.status = .approved then some (m.startedAt, m.endedAt)
  else none

/-- The spans of the user on the task: closed segments and approved manual entries. -/
def spans (s : WorklogStore) (userId taskId : Nat) : List (Int × Int) :=
  s.segments.filterMap (s.segmentSpan? userId taskId) ++
    s.manualTimeEntries.filterMap (manualSpan? userId taskId)

/-- The authorization periods of an account. -/
def periodsOf (s : WorklogStore) (integrationId userId : Nat) (accountId : String) :
    List AuthorizationPeriod :=
  s.periods.filter fun p => p.isOf integrationId userId && p.accountId == accountId

/-- The rows of the query for a day that count. -/
def worklogEntries (s : WorklogStore) (accountId : String) (day : WorklogDay) : List WorklogEntry :=
  ((s.spans day.userId day.taskId).flatMap fun span =>
    (s.periodsOf day.integrationId day.userId accountId).filterMap fun p =>
      worklogEntry day.workDate p span.1 span.2).filter fun entry => 0 < entry.seconds

/-! ## Staging -/

def export? (s : WorklogStore) (day : WorklogDay) : Option WorklogExport :=
  s.exports.find? (·.day == day)

/-- The export of a selected day takes its sum, and `staged` counts those that change. -/
def stageDay (observedAt : Int) (accountId : String) (state : WorklogStore × Nat) (day : WorklogDay) :
    Except Error (WorklogStore × Nat) :=
  let (s, staged) := state
  let entries := s.worklogEntries accountId day
  let total := (entries.map (·.seconds)).sum
  if 9223372036854775807 < total then .error .dataException
  else
    let desiredSeconds := min total 2147483647
    let desiredStartedAt := if 0 < desiredSeconds then (entries.map (·.startedAt)).min? else none
    match s.export? day with
    | none =>
      if desiredSeconds ≤ 0 then .ok (s, staged)
      else
        let created : WorklogExport :=
          { id := s.nextId, integrationId := day.integrationId, userId := day.userId,
            taskId := day.taskId, workDate := day.workDate, accountId, desiredSeconds, desiredStartedAt,
            nextAttemptAt := observedAt, lastErrorCode := "", delivery := {} }
        .ok ({ s with exports := s.exports ++ [created], nextId := s.nextId + 1 }, staged + 1)
    | some existing =>
      if existing.accountId = accountId ∧
          ¬ (existing.desiredSeconds = desiredSeconds ∧ existing.desiredStartedAt = desiredStartedAt) then
        .ok ({ s with
          exports := updateWhere (·.day == day)
            (fun e => { e with
              desiredSeconds
              desiredStartedAt
              nextAttemptAt := min e.nextAttemptAt observedAt
              lastErrorCode := "" })
            s.exports }, staged + 1)
      else .ok (s, staged)

/-- The dirty days that a pass takes for a connection. -/
def selectedDays (s : WorklogStore) (observedAt : Int) (dayLimit : Nat) (c : WorklogConnection) :
    List DirtyDay :=
  (orderBy (fun d => toLex (d.workDate, d.changedAt)) (·.taskId)
    (s.dirtyDays.filter fun d =>
      d.integrationId == c.integrationId && d.userId == c.userId &&
        c.timeSyncMode.isDue observedAt d.workDate)).take dayLimit

/-- A dirty day of the connection is due and was not taken. -/
def hasRemaining (s : WorklogStore) (observedAt : Int) (c : WorklogConnection) : Bool :=
  s.dirtyDays.any fun d =>
    d.integrationId == c.integrationId && d.userId == c.userId &&
      c.timeSyncMode.isDue observedAt d.workDate

/-- The days of a connection that are due are staged and no longer dirty. -/
def stageConnection (observedAt : Int) (dayLimit : Nat) (state : WorklogStore × Nat)
    (c : WorklogConnection) : Except Error (WorklogStore × Nat) := do
  let selected := (state.1.selectedDays observedAt dayLimit c).map (·.day)
  let (s, staged) ← selected.foldlM (stageDay observedAt c.accountId) state
  let s := { s with dirtyDays := s.dirtyDays.filter fun d => !selected.contains d.day }
  let next :=
    if s.hasRemaining observedAt c then observedAt
    else if c.timeSyncMode = .hourly then observedAt + minutes 60
    else startOfDay (dateOf observedAt) + days 1
  return ({ s with
    connections := updateWhere (·.isOf c.integrationId c.userId)
      (fun c => { c with nextWorklogSyncAt := next }) s.connections }, staged)

/-- The connections that are due, of enabled users to enabled integrations. -/
def dueConnections (s : WorklogStore) (observedAt : Int) (connectionLimit : Nat) :
    List WorklogConnection :=
  (orderBy (fun c => toLex (c.nextWorklogSyncAt, c.integrationId)) (·.userId)
    (s.connections.filter fun c =>
      c.enabled && c.timeSyncMode != .off && c.nextWorklogSyncAt ≤ observedAt &&
        (s.integrations.any fun i => i.id == c.integrationId && i.enabled) &&
        s.users.any fun u => u.id == c.userId && u.enabled)).take connectionLimit

/-- `stage_due_jira_worklogs`. -/
def stageDueJiraWorklogs (s : WorklogStore) (observedAt : Int) (connectionLimit dayLimit : Nat) :
    Except Error (WorklogStore × Nat) := do
  raiseIf (¬ (1 ≤ connectionLimit ∧ connectionLimit ≤ 100) ∨ ¬ (1 ≤ dayLimit ∧ dayLimit ≤ 1000))
    "Invalid Jira worklog staging limit"
  (s.dueConnections observedAt connectionLimit).foldlM (stageConnection observedAt dayLimit) (s, 0)

end WorklogStore

/-! ## Steps -/

/-- A transaction: writes to the sources at an instant, a pass of the stager, what a delivery writes to an
export, and whatever else changes connections, periods, integrations and users. -/
inductive WorklogOp
  | transaction (changes : List SourceChange) (now : Int)
  | stageDueJiraWorklogs (observedAt : Int) (connectionLimit dayLimit : Nat)
  | deliver (exportId : Nat) (delivery : ExportDelivery) (nextAttemptAt : Int) (lastErrorCode : String)
  | environment (users : List User) (integrations : List Integration)
    (connections : List WorklogConnection) (periods : List AuthorizationPeriod)

/-- The state after a transaction: one that fails is rolled back. -/
def WorklogStore.commit (s : WorklogStore) (result : Except Error WorklogStore) : WorklogStore :=
  match result with
  | .ok s' => s'
  | .error _ => s

/-- One step. -/
def worklogStep (jira : Nat → Option Nat) (s : WorklogStore) : WorklogOp → WorklogStore
  | .transaction changes now => s.commit (changes.foldlM (SourceChange.apply jira now) s)
  | .stageDueJiraWorklogs observedAt connectionLimit dayLimit =>
    s.commit ((s.stageDueJiraWorklogs observedAt connectionLimit dayLimit).map (·.1))
  | .deliver exportId delivery nextAttemptAt lastErrorCode =>
    { s with
      exports := updateWhere (·.id == exportId)
        (fun e => { e with delivery, nextAttemptAt, lastErrorCode }) s.exports }
  | .environment users integrations connections periods =>
    { s with users, integrations, connections, periods }

end Dayfinch
