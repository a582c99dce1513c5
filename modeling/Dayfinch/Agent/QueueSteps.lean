/-
# Dayfinch.Agent.QueueSteps -- `OfflineQueue`, one atomic step after another

Each method of the offline queue is a program of SQLite transactions and file operations, each of which
may fail or be the last thing before a crash. The state is what is on disk, the cached counters of the
running process, and the history of the run. A counter is updated with the transaction or the file
operation before it, since nothing can come in between. Files in the image directory and in the
quarantine directory are known by the id in their name. Rows written before the queue was encrypted, and
their migration, are not modelled.
-/
import Dayfinch.Agent.Queue
import Dayfinch.Library.Faults
import Dayfinch.Library.Run

namespace Dayfinch

open Library (orderBy Fate Ending Program)
open Library.Program (attempt each)
open Library.Text (truncate)

/-! ## The state -/

/-- A row of `usage_events`. -/
structure UsageRow extends UsageEvent where
  createdAt : Int
  deriving DecidableEq, Repr

/-- The payload of a quarantine file, with its kind. -/
inductive Payload
  | screenshot (record : QueuedRecord)
  | state (event : StateEvent)
  | usage (event : UsageEvent)
  deriving DecidableEq, Repr

/-- The envelope in `{id}.meta.dfq`. -/
structure Envelope where
  id : Nat
  reason : String
  payload : Payload
  deriving DecidableEq, Repr

/-- The tables, the files (`images` and `partials` in the image directory, `screenshots` and `metadata` in
the quarantine directory), the counters of the running process, and which events were journaled and
which were acknowledged. -/
structure QueueState where
  queue : List QueueRow := []
  stateEvents : List StateRow := []
  usageEvents : List UsageRow := []
  images : List Nat := []
  partials : List Nat := []
  screenshots : List Nat := []
  metadata : List Envelope := []
  pending : Nat := 0
  pendingStates : Nat := 0
  pendingUsage : Nat := 0
  quarantined : Nat := 0
  running : Bool := false
  nextId : Nat := 0
  journaled : List Nat := []
  acknowledged : List Nat := []
  deriving DecidableEq, Repr

namespace QueueState

/-! ## Atomic steps -/

/-- `temporary.open("wb")`, under a fresh id. -/
def openPartial (s : QueueState) : QueueState :=
  { s with partials := s.partials.insert s.nextId, nextId := s.nextId + 1 }

/-- `os.replace(temporary, destination)` in the image directory. -/
def renameImage (id : Nat) (s : QueueState) : QueueState :=
  { s with partials := s.partials.filter (· != id), images := s.images.insert id }

/-- `image.unlink(missing_ok=True)`. -/
def unlinkImage (id : Nat) (s : QueueState) : QueueState :=
  { s with images := s.images.filter (· != id) }

/-- `partial.unlink(missing_ok=True)`. -/
def unlinkPartial (id : Nat) (s : QueueState) : QueueState :=
  { s with partials := s.partials.filter (· != id) }

/-- `INSERT INTO queue`. -/
def insertRecord (record : QueuedRecord) (created : Int) (s : QueueState) : QueueState :=
  { s with
    queue := s.queue ++ [{ toQueuedRecord := record, createdAt := created }]
    pending := s.pending + 1 }

/-- The rows that `_trim` discards: the first by `created_at`, as many as are too many. -/
def excess (maxItems : Nat) (tie : QueueRow → Nat) (rows : List QueueRow) : List QueueRow :=
  (orderBy QueueRow.createdAt tie rows).take (rows.length - maxItems)

/-- The transaction of `_trim`. -/
def trimRows (maxItems : Nat) (tie : QueueRow → Nat) (s : QueueState) : QueueState :=
  let rows := excess maxItems tie s.queue
  { s with
    queue := s.queue.filter fun r => !(rows.map (·.id)).contains r.id
    pending := s.pending - rows.length }

/-- `DELETE FROM queue WHERE id=..`. -/
def deleteRecord (id : Nat) (s : QueueState) : QueueState :=
  { s with
    queue := s.queue.filter (·.id != id)
    pending := s.pending - s.queue.countP (·.id == id) }

/-- `INSERT INTO state_events`. -/
def insertStateEvent (event : StateEvent) (created : Int) (s : QueueState) : QueueState :=
  { s with
    stateEvents := s.stateEvents ++ [{ toStateEvent := event, createdAt := created }]
    pendingStates := s.pendingStates + 1
    nextId := s.nextId + 1
    journaled := s.journaled ++ [event.id] }

/-- `DELETE FROM state_events WHERE id=..`. -/
def deleteStateEvent (id : Nat) (s : QueueState) : QueueState :=
  { s with
    stateEvents := s.stateEvents.filter (·.id != id)
    pendingStates := s.pendingStates - s.stateEvents.countP (·.id == id) }

/-- `INSERT INTO usage_events`. -/
def insertUsageEvent (event : UsageEvent) (created : Int) (s : QueueState) : QueueState :=
  { s with
    usageEvents := s.usageEvents ++ [{ toUsageEvent := event, createdAt := created }]
    pendingUsage := s.pendingUsage + 1
    nextId := s.nextId + 1
    journaled := s.journaled ++ [event.id] }

/-- `DELETE FROM usage_events WHERE id=..`. -/
def deleteUsageEvent (id : Nat) (s : QueueState) : QueueState :=
  { s with
    usageEvents := s.usageEvents.filter (·.id != id)
    pendingUsage := s.pendingUsage - s.usageEvents.countP (·.id == id) }

/-- The history of an acknowledgement. -/
def noteAcknowledged (id : Nat) (s : QueueState) : QueueState :=
  { s with acknowledged := s.acknowledged ++ [id] }

/-- `os.replace(source, quarantine_dir / ..)`, if the image is there. -/
def moveImage (id : Nat) (s : QueueState) : QueueState :=
  if id ∈ s.images then
    { s with images := s.images.filter (· != id), screenshots := s.screenshots.insert id }
  else s

/-- `os.replace` onto `{id}.meta.dfq`, which replaces an envelope of that name. -/
def writeMetadata (envelope : Envelope) (s : QueueState) : QueueState :=
  { s with metadata := s.metadata.filter (·.id != envelope.id) ++ [envelope] }

/-- `self._quarantined += 1`. -/
def countQuarantined (s : QueueState) : QueueState := { s with quarantined := s.quarantined + 1 }

/-- The counts that `_initialize` reads. -/
def countRows (s : QueueState) : QueueState :=
  { s with
    pending := s.queue.length
    pendingStates := s.stateEvents.length
    pendingUsage := s.usageEvents.length }

/-- The end of `__init__`: the quarantine files are counted, and the process runs. -/
def countMetadata (s : QueueState) : QueueState :=
  { s with quarantined := s.metadata.length, running := true }

end QueueState

open QueueState

/-! ## Methods -/

/-- The arguments of `add` besides the image. -/
structure AddArgs where
  activity : ActivitySnapshot
  activeApp : String
  capturedAt : Option Int := none
  sessionId : String := ""
  activeUrl : String := ""
  screenshotBlurred : Bool := false
  deriving DecidableEq, Repr

/-- `add`: the image is written under a temporary name, renamed, and queued; then the queue is trimmed.
The empty steps are the write to the temporary file and the sync of the directory. -/
def addScreenshot (maxItems : Nat) (args : AddArgs) (now created : Int) (tie : QueueRow → Nat) :
    Program QueueState :=
  attempt openPartial fun s =>
    let record := newQueuedRecord s.nextId now args.activity args.activeApp args.capturedAt
      args.sessionId args.activeUrl args.screenshotBlurred
    attempt id fun _ =>
    attempt (renameImage record.id) fun _ =>
    attempt id fun _ =>
    attempt (insertRecord record created) fun _ =>
    attempt (trimRows maxItems tie) fun s =>
    each unlinkImage .done ((excess maxItems tie s.queue).map (·.id))

/-- `acknowledge`. -/
def acknowledgeScreenshot (record : QueuedRecord) : Program QueueState :=
  attempt (deleteRecord record.id) fun _ => attempt (unlinkImage record.id) fun _ => .done

/-- `add_state`. -/
def addStateEvent (args : StateArgs) (now created : Int) (s : QueueState) : Program QueueState :=
  match newStateEvent s.nextId now args with
  | .error _ => .raise
  | .ok event => attempt (insertStateEvent event created) fun _ => .done

/-- `acknowledge_state`. -/
def acknowledgeStateEvent (event : StateEvent) : Program QueueState :=
  attempt (fun s => noteAcknowledged event.id (deleteStateEvent event.id s)) fun _ => .done

/-- `add_usage`. -/
def addUsageEvent (activeApp activeUrl : String) (focusedSeconds : Int) (observedAt : Option Int)
    (now created : Int) (s : QueueState) : Program QueueState :=
  attempt
    (insertUsageEvent (newUsageEvent s.nextId now activeApp activeUrl focusedSeconds observedAt) created)
    fun _ => .done

/-- `acknowledge_usage`. -/
def acknowledgeUsageEvent (event : UsageEvent) : Program QueueState :=
  attempt (fun s => noteAcknowledged event.id (deleteUsageEvent event.id s)) fun _ => .done

/-- `_write_quarantine` and what follows it: the temporary file, the rename, the sync of the directory
with the counter. -/
def writeQuarantine (envelope : Envelope) (rest : Program QueueState) : Program QueueState :=
  attempt id fun _ =>
  attempt (writeMetadata envelope) fun _ =>
  attempt countQuarantined fun _ => rest

/-- `quarantine_state`. -/
def quarantineStateEvent (event : StateEvent) (reason : String) : Program QueueState :=
  writeQuarantine ⟨event.id, truncate 1000 reason, .state event⟩
    (attempt (deleteStateEvent event.id) fun _ => .done)

/-- `quarantine_usage`. -/
def quarantineUsageEvent (event : UsageEvent) (reason : String) : Program QueueState :=
  writeQuarantine ⟨event.id, truncate 1000 reason, .usage event⟩
    (attempt (deleteUsageEvent event.id) fun _ => .done)

/-- `quarantine_record`. -/
def quarantineScreenshot (record : QueuedRecord) (reason : String) : Program QueueState :=
  attempt (moveImage record.id) fun _ =>
  writeQuarantine ⟨record.id, truncate 1000 reason, .screenshot record⟩
    (attempt (deleteRecord record.id) fun _ => .done)

/-- An image that no row of the queue refers to. -/
def unreferenced (s : QueueState) (id : Nat) : Bool := !(s.queue.map (·.id)).contains id

/-- `__init__`: the rows are counted, unreferenced images and partial files are unlinked, and the
quarantine files are counted. -/
def startQueue : Program QueueState :=
  attempt countRows fun s =>
  each unlinkImage (each unlinkPartial (attempt countMetadata fun _ => .done) s.partials)
    (s.images.filter (unreferenced s))

/-! ## Calls -/

/-- A call of a method, or a restart of the agent. -/
inductive QueueOp
  | add (args : AddArgs) (now created : Int) (tie : QueueRow → Nat)
  | acknowledge (record : QueuedRecord)
  | addState (args : StateArgs) (now created : Int)
  | acknowledgeState (event : StateEvent)
  | addUsage (activeApp activeUrl : String) (focusedSeconds : Int) (observedAt : Option Int)
      (now created : Int)
  | acknowledgeUsage (event : UsageEvent)
  | quarantineRecord (record : QueuedRecord) (reason : String)
  | quarantineState (event : StateEvent) (reason : String)
  | quarantineUsage (event : UsageEvent) (reason : String)
  | restart

def QueueOp.program (maxItems : Nat) (s : QueueState) : QueueOp → Program QueueState
  | .add args now created tie => addScreenshot maxItems args now created tie
  | .acknowledge record => acknowledgeScreenshot record
  | .addState args now created => addStateEvent args now created s
  | .acknowledgeState event => acknowledgeStateEvent event
  | .addUsage activeApp activeUrl focusedSeconds observedAt now created =>
    addUsageEvent activeApp activeUrl focusedSeconds observedAt now created s
  | .acknowledgeUsage event => acknowledgeUsageEvent event
  | .quarantineRecord record reason => quarantineScreenshot record reason
  | .quarantineState event reason => quarantineStateEvent event reason
  | .quarantineUsage event reason => quarantineUsageEvent event reason
  | .restart => startQueue

/-- A call, with the fates of its steps. -/
structure QueueCall where
  op : QueueOp
  fates : List Fate := []

/-- A crash ends the process. -/
def settle (r : QueueState × Ending) : QueueState × Ending :=
  if r.2 = .crashed then ({ r.1 with running := false }, .crashed) else r

/-- A call and how it ends. A restart ends the process that runs; without one, there is nothing to call. -/
def QueueCall.run (maxItems : Nat) (s : QueueState) (call : QueueCall) : QueueState × Ending :=
  match call.op with
  | .restart => settle (startQueue.exec call.fates { s with running := false })
  | op => if s.running then settle ((op.program maxItems s).exec call.fates s) else (s, .raised)

def queueStep (maxItems : Nat) (s : QueueState) (call : QueueCall) : QueueState :=
  (call.run maxItems s).1

end Dayfinch
