/-
# Dayfinch.Screenshots.Store -- uploads of screenshots, and the passes that purge them

A screenshot is an object in storage and a row of `activity_records` that names it. An upload saves the
object first and inserts the row after it; a purge pass deletes the object first and the row after it. Every
call of the database and of the storage is a step of its own here, so that uploads, retries of one record id
and passes meet in any order, and each call may raise. What a call of the database answers about other
tables is a value of the step.

`upload` in a row is the data of the request that inserted it, `relied` in a call the row that its answer is
about, and `expired` in a pass what had expired when it began; these, `purged` and `broken` are not in the
source. They keep what the properties speak about.
-/
import Dayfinch.Schema

namespace Dayfinch

open Library

/-! ## Data -/

/-- `object_key`: the device's directory, the date of the capture, and the record id with a random suffix. -/
structure ScreenshotKey where
  deviceId : Nat
  day : Int
  recordId : Nat
  suffix : Nat
  extension : String
  deriving DecidableEq, Repr

/-- `activity_records`. -/
structure ActivityRow where
  id : Nat
  deviceId : Nat
  capturedAt : Int
  screenshotPath : ScreenshotKey
  upload : List UInt8
  deriving DecidableEq, Repr

/-- The form of an upload and the device that sent it. A record id or a time that does not parse is none. -/
structure UploadRequest where
  deviceId : Nat
  trackerKind : TrackerKind
  recordId : Option Nat
  capturedAt : Option Int
  namesSession : Bool
  screenshotBlurred : Bool
  data : List UInt8
  deriving DecidableEq, Repr

inductive IngestAnswer
  | created
  | duplicate
  | refused (status : Nat) (detail : String)
  | failed
  deriving DecidableEq, Repr

/-- The call of the database or of the storage that an upload makes next. -/
inductive UploadPhase
  | trackingSettings
  | recordExists (id : Nat) (captured : Int)
  | workSession (id : Nat) (captured : Int)
  | sessionForCapture (id : Nat) (captured : Int)
  | save (id : Nat) (captured : Int)
  | addRecord (id : Nat) (captured : Int) (key : ScreenshotKey)
  | deleteOwn (key : ScreenshotKey)
  | touchDevice (created : Bool)
  | finished (answer : IngestAnswer)
  deriving DecidableEq, Repr

structure UploadCall where
  request : UploadRequest
  phase : UploadPhase := .trackingSettings
  relied : Option ActivityRow := none
  deriving DecidableEq, Repr

/-- What the other tables and the clock say when a call is made. `namedSession` is the device of the session
that the form names, if there is such a session. -/
structure Surroundings where
  now : Int
  screenshotFrequency : Int
  screenshotBlur : Bool
  namedSession : Option Nat
  covered : Bool
  deriving DecidableEq, Repr

/-- The call that a purge pass makes next. -/
inductive PurgePhase
  | recordsBefore
  | deleteObject (record : ActivityRow) (rest : List ActivityRow)
  | deleteRecord (record : ActivityRow) (rest : List ActivityRow)
  | finished
  | blocked (key : ScreenshotKey)
  | failed
  deriving DecidableEq, Repr

/-- `full` says that the batch has as many records as `records_before` returns at most. -/
structure PurgePass where
  cutoff : Int
  phase : PurgePhase := .recordsBefore
  full : Bool := false
  expired : List ActivityRow
  deriving DecidableEq, Repr

/-- How a call of a pass ends. A deletion in the storage may raise although the object is gone. -/
inductive CallOutcome
  | done | raised | raisedAfter
  deriving DecidableEq, Repr

/-- The table, the storage, the calls and the passes. `nextSuffix` is the supply of random suffixes,
`purged` the records that a pass deleted, and `broken` those whose pass failed after their object was gone. -/
structure ScreenshotStore where
  rows : List ActivityRow := []
  objects : List (ScreenshotKey × List UInt8) := []
  calls : List UploadCall := []
  passes : List PurgePass := []
  nextSuffix : Nat := 0
  purged : List ActivityRow := []
  broken : List ScreenshotKey := []
  deriving DecidableEq, Repr

/-- `max_upload_bytes` and `retention_days`. -/
structure ScreenshotSettings where
  maxUploadBytes : Nat
  retentionDays : Int
  deriving DecidableEq, Repr

/-! ## The calls of an upload -/

/-- `image_type`: the extension of an image that the storage takes. -/
def imageType (data : List UInt8) : Option String :=
  if [0xff, 0xd8, 0xff].isPrefixOf data then some ".jpg"
  else if [0x89, 0x50, 0x4e, 0x47, 0x0d, 0x0a, 0x1a, 0x0a].isPrefixOf data then some ".png"
  else none

namespace UploadRequest

/-- The checks up to the lookup of the record. -/
def afterSettings (r : UploadRequest) (w : Surroundings) : UploadPhase :=
  if w.screenshotFrequency ≤ 0 then .finished (.refused 403 "Screenshot collection is disabled by policy")
  else if w.screenshotBlur = true ∧ r.screenshotBlurred = false then
    .finished (.refused 403 "Screenshot blur is required by policy")
  else
    match r.recordId, r.capturedAt with
    | some id, some captured => .recordExists id captured
    | _, _ => .finished (.refused 422 "Invalid record id or timestamp")

/-- The replay window, for a record that is not known. -/
def afterLookup (r : UploadRequest) (w : Surroundings) (id : Nat) (captured : Int) : UploadPhase :=
  if w.now + minutes 5 < captured ∨ captured < w.now - days 90 then
    .finished (.refused 422 "capture timestamp is outside replay window")
  else if r.namesSession then .workSession id captured
  else .sessionForCapture id captured

def afterSession (r : UploadRequest) (w : Surroundings) (id : Nat) (captured : Int) : UploadPhase :=
  if ∃ deviceId ∈ w.namedSession, deviceId ≠ r.deviceId then
    .finished (.refused 422 "Session does not belong to device")
  else .sessionForCapture id captured

def afterCapture (r : UploadRequest) (settings : ScreenshotSettings) (w : Surroundings) (id : Nat)
    (captured : Int) : UploadPhase :=
  if w.covered = false then .finished (.refused 409 "No tracked work session covers this screenshot")
  else if r.data = [] ∨ settings.maxUploadBytes < r.data.length then
    .finished (.refused 413 "Screenshot is empty or too large")
  else .save id captured

end UploadRequest

namespace ScreenshotStore

variable (settings : ScreenshotSettings) (tie : ActivityRow → Nat)

/-- What the storage has under a key. -/
def object (s : ScreenshotStore) (key : ScreenshotKey) : Option (List UInt8) :=
  (s.objects.find? (·.1 == key)).map (·.2)

def deleteObject (s : ScreenshotStore) (key : ScreenshotKey) : ScreenshotStore :=
  { s with objects := s.objects.filter (·.1 != key) }

/-- A new object, under a key with a random suffix. -/
def storeObject (s : ScreenshotStore) (key : ScreenshotKey) (data : List UInt8) : ScreenshotStore :=
  { s with
    objects := s.objects ++ [(key, data)]
    nextSuffix := s.nextSuffix + 1 }

def insertRow (s : ScreenshotStore) (row : ActivityRow) : ScreenshotStore := { s with rows := s.rows ++ [row] }

/-- The upload moves on. -/
def moveCall (s : ScreenshotStore) (k : Nat) (phase : UploadPhase) : ScreenshotStore :=
  { s with calls := s.calls.modify k fun c => { c with phase := phase } }

/-- The upload moves on, and its answer will be about a row. -/
def moveCallOn (s : ScreenshotStore) (k : Nat) (relied : Option ActivityRow) (phase : UploadPhase) :
    ScreenshotStore :=
  { s with calls := s.calls.modify k fun c => { c with phase := phase, relied := relied } }

/-- A unique constraint that the new row would violate: the primary key, or `UNIQUE(device_id, captured_at)`. -/
def conflicts (s : ScreenshotStore) (id deviceId : Nat) (captured : Int) : Bool :=
  s.rows.any fun row => row.id == id || (row.deviceId == deviceId && row.capturedAt == captured)

/-- `storage.save`, which checks the image before it writes. -/
def save (s : ScreenshotStore) (k : Nat) (r : UploadRequest) (raises : Bool) (id : Nat) (captured : Int) :
    ScreenshotStore :=
  match imageType r.data with
  | none => s.moveCall k (.finished (.refused 415 "Screenshot must be a JPEG or PNG image"))
  | some extension =>
    if raises then s.moveCall k (.finished .failed)
    else
      let key := ⟨r.deviceId, dateOf captured, id, s.nextSuffix, extension⟩
      (s.storeObject key r.data).moveCall k (.addRecord id captured key)

/-- `add_record`: a unique violation says that the record is a duplicate, any other failure is raised. -/
def addRecord (s : ScreenshotStore) (k : Nat) (r : UploadRequest) (raises : Bool) (id : Nat) (captured : Int)
    (key : ScreenshotKey) : ScreenshotStore :=
  if raises then s.moveCall k (.finished .failed)
  else if s.conflicts id r.deviceId captured then
    s.moveCallOn k (s.rows.find? (·.id == id)) (.deleteOwn key)
  else
    let row := ⟨id, r.deviceId, captured, key, r.data⟩
    (s.insertRow row).moveCallOn k (some row) (.touchDevice true)

/-- The next call of an upload (`ingest_activity`). -/
def ingest (s : ScreenshotStore) (k : Nat) (raises : Bool) (w : Surroundings) : ScreenshotStore :=
  match s.calls[k]? with
  | none => s
  | some c =>
    match c.phase with
    | .trackingSettings =>
      if c.request.trackerKind ≠ .desktop then
        s.moveCall k (.finished (.refused 403 "Activity collection requires a desktop tracker"))
      else s.moveCall k (if raises then .finished .failed else c.request.afterSettings w)
    | .recordExists id captured =>
      if raises then s.moveCall k (.finished .failed)
      else
        match s.rows.find? (·.id == id) with
        | some row => s.moveCallOn k (some row) (.finished .duplicate)
        | none => s.moveCall k (c.request.afterLookup w id captured)
    | .workSession id captured =>
      s.moveCall k (if raises then .finished .failed else c.request.afterSession w id captured)
    | .sessionForCapture id captured =>
      s.moveCall k (if raises then .finished .failed else c.request.afterCapture settings w id captured)
    | .save id captured => s.save k c.request raises id captured
    | .addRecord id captured key => s.addRecord k c.request raises id captured key
    | .deleteOwn key => (s.deleteObject key).moveCall k (.touchDevice false)
    | .touchDevice created =>
      s.moveCall k (.finished (if raises then .failed else if created then .created else .duplicate))
    | .finished _ => s

/-! ## The calls of a pass -/

/-- `limit` of `records_before`. -/
def batchLimit : Nat := 500

/-- `records_before`. Rows of one instant come in the order `tie`, the same in every call of a run. -/
def recordsBefore (s : ScreenshotStore) (cutoff : Int) : List ActivityRow :=
  (orderBy (·.capturedAt) tie (s.rows.filter fun row => decide (row.capturedAt < cutoff))).take batchLimit

def movePass (s : ScreenshotStore) (k : Nat) (phase : PurgePhase) : ScreenshotStore :=
  { s with passes := s.passes.modify k fun p => { p with phase := phase } }

/-- The pass goes on with the rest of its batch, or asks for the next one. -/
def nextRecord : List ActivityRow → PurgePhase
  | [] => .recordsBefore
  | record :: rest => .deleteObject record rest

/-- `delete_record`. -/
def deleteRecord (s : ScreenshotStore) (record : ActivityRow) : ScreenshotStore :=
  { s with
    rows := s.rows.filter (·.id != record.id)
    purged := record :: s.purged }

/-- The next call of a pass (`purge_expired`). -/
def purge (s : ScreenshotStore) (k : Nat) (outcome : CallOutcome) : ScreenshotStore :=
  match s.passes[k]? with
  | none => s
  | some p =>
    match p.phase, outcome with
    | .recordsBefore, .done =>
      match s.recordsBefore tie p.cutoff with
      | [] => s.movePass k .finished
      | record :: rest =>
        { s with
          passes := s.passes.modify k fun p => { p with
            phase := .deleteObject record rest
            full := decide (batchLimit ≤ rest.length + 1) } }
    | .recordsBefore, _ => s.movePass k .failed
    | .deleteObject record rest, .done =>
      (s.deleteObject record.screenshotPath).movePass k (.deleteRecord record rest)
    | .deleteObject record _, .raised => s.movePass k (.blocked record.screenshotPath)
    | .deleteObject record _, .raisedAfter =>
      { s.deleteObject record.screenshotPath with
        broken := record.screenshotPath :: s.broken }.movePass k (.blocked record.screenshotPath)
    | .deleteRecord record rest, .done => (s.deleteRecord record).movePass k (nextRecord rest)
    | .deleteRecord record _, _ =>
      { s with broken := record.screenshotPath :: s.broken }.movePass k .failed
    | _, _ => s

end ScreenshotStore

/-! ## Runs -/

/-- One step: a request arrives, an upload makes its next call, a pass begins or makes its next call. -/
inductive ScreenshotOp
  | request (r : UploadRequest)
  | ingest (call : Nat) (raises : Bool) (w : Surroundings)
  | begin (now : Int)
  | purge (pass : Nat) (outcome : CallOutcome)
  deriving DecidableEq, Repr

namespace ScreenshotStore

variable (settings : ScreenshotSettings) (tie : ActivityRow → Nat)

/-- `purge_expired` begins. -/
def beginPass (s : ScreenshotStore) (now : Int) : ScreenshotStore :=
  let cutoff := now - days settings.retentionDays
  { s with
    passes := s.passes ++ [{
      cutoff := cutoff
      expired := s.rows.filter fun row => decide (row.capturedAt < cutoff) }] }

def step (s : ScreenshotStore) : ScreenshotOp → ScreenshotStore
  | .request r => { s with calls := s.calls ++ [{ request := r }] }
  | .ingest k raises w => s.ingest settings k raises w
  | .begin now => s.beginPass settings now
  | .purge k outcome => s.purge tie k outcome

end ScreenshotStore

/-! ## What a call or a pass has in hand -/

/-- The object that an upload has saved and not yet settled. -/
def UploadPhase.holds : UploadPhase → Option ScreenshotKey
  | .addRecord _ _ key => some key
  | .deleteOwn key => some key
  | _ => none

/-- The records of the batch that are still to be purged. -/
def PurgePhase.batch : PurgePhase → List ActivityRow
  | .deleteObject record rest => record :: rest
  | .deleteRecord record rest => record :: rest
  | _ => []

/-- The record whose object a pass has deleted and whose row it has not. -/
def PurgePhase.removes : PurgePhase → Option ActivityRow
  | .deleteRecord record _ => some record
  | _ => none

/-- The object that stopped a pass. -/
def PurgePhase.blockedBy : PurgePhase → Option ScreenshotKey
  | .blocked key => some key
  | _ => none

/-- No call is in progress. -/
def UploadPhase.ended : UploadPhase → Bool
  | .finished _ => true
  | _ => false

def PurgePhase.ended : PurgePhase → Bool
  | .finished | .blocked _ | .failed => true
  | _ => false

/-! ## When nothing is lost -/

namespace ScreenshotStore

/-- An insert does not raise, and what it conflicts with is the row of its own record id. -/
def InsertSettles (s : ScreenshotStore) (c : UploadCall) (raises : Bool) : Prop :=
  match c.phase with
  | .addRecord id captured _ =>
    raises = false ∧ (s.conflicts id c.request.deviceId captured = true → ∃ row ∈ s.rows, row.id = id)
  | _ => True

/-- A deletion in the storage raises only for the last of what has expired, and a row is deleted only with
the object that the pass has deleted. -/
def PurgeSettles (s : ScreenshotStore) (p : PurgePass) (outcome : CallOutcome) : Prop :=
  match p.phase with
  | .deleteObject record rest =>
    outcome = .done ∨ (rest = [] ∧ (p.full = false ∨
      ∀ row ∈ s.rows, row.capturedAt < p.cutoff → row.screenshotPath = record.screenshotPath))
  | .deleteRecord record _ =>
    outcome = .done → ∀ row ∈ s.rows, row.id = record.id → row.screenshotPath = record.screenshotPath
  | _ => True

/-- The condition on a step. -/
def Settles (s : ScreenshotStore) : ScreenshotOp → Prop
  | .ingest k raises _ => ∀ c ∈ s.calls[k]?, s.InsertSettles c raises
  | .purge k outcome => ∀ p ∈ s.passes[k]?, s.PurgeSettles p outcome
  | _ => True

instance (s : ScreenshotStore) (c : UploadCall) (raises : Bool) : Decidable (s.InsertSettles c raises) := by
  unfold InsertSettles
  split <;> infer_instance

instance (s : ScreenshotStore) (p : PurgePass) (outcome : CallOutcome) : Decidable (s.PurgeSettles p outcome) := by
  unfold PurgeSettles
  split <;> infer_instance

instance (s : ScreenshotStore) (op : ScreenshotOp) : Decidable (s.Settles op) := by
  cases op <;> unfold Settles <;> infer_instance

end ScreenshotStore

end Dayfinch
