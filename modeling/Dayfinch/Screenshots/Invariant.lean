/-
# Dayfinch.Screenshots.Invariant -- what uploads and purge passes keep

The invariant has four parts. `Keyed`: an object key belongs to one row, or to one upload that has yet to
insert its row. `Answering`: the row that an answer is about is in the table or was purged. `Kept`: a row's
object is in storage until a pass has deleted it, and a stored object is a row's or an upload's. `Purging`:
what a pass still has to purge is in its batch.
-/
import Dayfinch.Screenshots.Store

namespace Dayfinch

open Library

namespace ScreenshotStore

/-! ## Words for the state -/

/-- The rows that there are or that were purged. -/
def known (s : ScreenshotStore) : List ActivityRow := s.rows ++ s.purged

/-- The `i`-th upload has saved `data` under `key`, and has neither inserted its row nor deleted it. -/
def Holding (s : ScreenshotStore) (i : Nat) (key : ScreenshotKey) (data : List UInt8) : Prop :=
  ∃ c ∈ s.calls[i]?, c.phase.holds = some key ∧ c.request.data = data

/-- A pass has deleted the object and not the row. -/
def Removing (s : ScreenshotStore) (key : ScreenshotKey) : Prop :=
  ∃ p ∈ s.passes, ∃ record ∈ p.phase.removes, record.screenshotPath = key

end ScreenshotStore

/-- The record id that an upload has parsed. -/
def UploadPhase.recordId : UploadPhase → Option Nat
  | .recordExists id _ | .workSession id _ | .sessionForCapture id _ | .save id _ | .addRecord id _ _ => some id
  | _ => none

/-- The upload has learnt of a row, and answers about it if nothing raises any more. -/
def UploadPhase.answers : UploadPhase → Bool
  | .deleteOwn _ | .touchDevice _ | .finished .created | .finished .duplicate => true
  | _ => false

/-- What a pass has yet to purge of what had expired when it began. -/
def PurgePass.Left (s : ScreenshotStore) (p : PurgePass) : Prop :=
  match p.phase with
  | .deleteObject record rest | .deleteRecord record rest =>
    p.full = false → ∀ r ∈ p.expired, r ∈ s.rows → r ∈ record :: rest
  | .blocked key => ∀ r ∈ p.expired, r ∈ s.rows → r.screenshotPath = key
  | _ => True

namespace ScreenshotStore

/-! ## The invariant -/

structure Keyed (s : ScreenshotStore) : Prop where
  ids : UniqueKey (·.id) s.rows
  determined : ∀ a ∈ s.known, ∀ b ∈ s.known, a.screenshotPath = b.screenshotPath → a = b
  suffixes : ∀ a ∈ s.known, a.screenshotPath.suffix < s.nextSuffix
  stored : ∀ o ∈ s.objects, o.1.suffix < s.nextSuffix
  held : ∀ i key data, s.Holding i key data → key.suffix < s.nextSuffix ∧ ∀ a ∈ s.known, a.screenshotPath ≠ key
  distinct : ∀ i j key data data', s.Holding i key data → s.Holding j key data' → i = j

structure Answering (s : ScreenshotStore) : Prop where
  parsed : ∀ c ∈ s.calls, ∀ id ∈ c.phase.recordId, c.request.recordId = some id
  relied : ∀ c ∈ s.calls, c.phase.answers = true →
    ∃ row ∈ c.relied, some row.id = c.request.recordId ∧ row ∈ s.known

structure Kept (s : ScreenshotStore) : Prop where
  saved : ∀ i key data, s.Holding i key data → s.object key = some data
  objects : ∀ row ∈ s.rows, row.screenshotPath ∈ s.broken ∨ s.Removing row.screenshotPath ∨
    s.object row.screenshotPath = some row.upload
  referenced : ∀ o ∈ s.objects, (∃ row ∈ s.rows, row.screenshotPath = o.1) ∨ ∃ i data, s.Holding i o.1 data

structure Purging (s : ScreenshotStore) : Prop where
  batches : ∀ p ∈ s.passes, ∀ r ∈ p.phase.batch, r ∈ s.known
  expired : ∀ p ∈ s.passes, ∀ r ∈ p.expired, r ∈ s.known ∧ r.capturedAt < p.cutoff
  left : ∀ p ∈ s.passes, p.Left s
  gone : ∀ p ∈ s.passes, ∀ r ∈ p.phase.removes, ∀ o ∈ s.objects, o.1 ≠ r.screenshotPath

structure Sound (s : ScreenshotStore) : Prop where
  keyed : s.Keyed
  answering : s.Answering
  kept : s.Kept
  purging : s.Purging

theorem Sound.empty : ({} : ScreenshotStore).Sound where
  keyed := ⟨List.nodup_nil, fun _ ha => (nomatch ha), fun _ ha => (nomatch ha), fun _ ho => (nomatch ho),
    fun _ _ _ ⟨_, hc, _⟩ => (nomatch hc), fun _ _ _ _ _ ⟨_, hc, _⟩ => (nomatch hc)⟩
  answering := ⟨fun _ hc => (nomatch hc), fun _ hc => (nomatch hc)⟩
  kept := ⟨fun _ _ _ ⟨_, hc, _⟩ => (nomatch hc), fun _ hr => (nomatch hr), fun _ ho => (nomatch ho)⟩
  purging := ⟨fun _ hp => (nomatch hp), fun _ hp => (nomatch hp), fun _ hp => (nomatch hp),
    fun _ hp => (nomatch hp)⟩

/-- The record whose object a pass has deleted is of its batch. -/
theorem removes_batch {phase : PurgePhase} {r : ActivityRow} (h : r ∈ phase.removes) : r ∈ phase.batch := by
  cases phase with
  | deleteRecord record rest =>
    obtain rfl := Option.some.inj h
    exact List.mem_cons_self
  | recordsBefore => exact nomatch h
  | deleteObject record rest => exact nomatch h
  | finished => exact nomatch h
  | blocked key => exact nomatch h
  | failed => exact nomatch h

/-! ## The storage -/

theorem object_deleteObject (s : ScreenshotStore) {key key' : ScreenshotKey} (hne : key' ≠ key) :
    (s.deleteObject key).object key' = s.object key' := by
  show ((s.objects.filter (·.1 != key)).find? (·.1 == key')).map (·.2) = _
  have hsame : ∀ o : ScreenshotKey × List UInt8,
      decide ((o.1 != key) = true ∧ (o.1 == key') = true) = (o.1 == key') := by
    intro o
    by_cases ho : o.1 = key'
    · simp [ho, hne]
    · simp [ho]
  rw [List.find?_filter, funext hsame]
  rfl

/-- An object that is written under a new key leaves the others as they are. -/
theorem object_storeObject (s : ScreenshotStore) {key : ScreenshotKey} {data data' : List UInt8}
    (hobject : s.object key = some data') (new : ScreenshotKey) :
    (s.storeObject new data).object key = some data' := by
  obtain ⟨o, ho, rfl⟩ := Option.map_eq_some_iff.mp hobject
  show ((s.objects ++ [(new, data)]).find? _).map _ = _
  rw [List.find?_append, ho]
  rfl

theorem object_storeObject_self (s : ScreenshotStore) {new : ScreenshotKey} {data : List UInt8}
    (hfresh : ∀ o ∈ s.objects, o.1 ≠ new) : (s.storeObject new data).object new = some data := by
  have hnone : s.objects.find? (·.1 == new) = none :=
    List.find?_eq_none.mpr fun o ho => by simpa using hfresh o ho
  show ((s.objects ++ [(new, data)]).find? _).map _ = _
  rw [List.find?_append, hnone]
  simp

end ScreenshotStore

end Dayfinch
