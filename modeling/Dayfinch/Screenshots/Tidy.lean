/-
# Dayfinch.Screenshots.Tidy -- screenshots are neither orphaned nor lost

While no call is in progress, a record id has one row, a row has its object and an object has its row, and
what was answered about is there or was purged. The code has this in every run in which no insert fails after
its object was saved, no insert meets another record of the device with the same time of capture, no two
passes meet on a record id that was uploaded again, and nothing but the last expired object resists its
deletion.
-/
import Dayfinch.Library.Run
import Dayfinch.Screenshots.Passes
import Dayfinch.Screenshots.Uploads

namespace Dayfinch

open Library (run Guarded guarded_invariant UniqueKey)

namespace ScreenshotStore

/-! ## What is to hold -/

/-- No call of an upload or a pass is in progress. -/
def Quiet (s : ScreenshotStore) : Prop :=
  (∀ c ∈ s.calls, c.phase.ended = true) ∧ ∀ p ∈ s.passes, p.phase.ended = true

/-- A row's object is in storage with the data of the upload, unless a purge failed after deleting it. -/
def ObjectsKept (s : ScreenshotStore) : Prop :=
  ∀ row ∈ s.rows, row.screenshotPath ∈ s.broken ∨ s.object row.screenshotPath = some row.upload

/-- A stored object is named by a row. -/
def Referenced (s : ScreenshotStore) : Prop := ∀ o ∈ s.objects, ∃ row ∈ s.rows, row.screenshotPath = o.1

/-- A request that was answered `created` or `duplicate` has its row, or the row was purged. -/
def Answered (s : ScreenshotStore) : Prop :=
  ∀ c ∈ s.calls, c.phase = .finished .created ∨ c.phase = .finished .duplicate →
    ∃ row ∈ c.relied, some row.id = c.request.recordId ∧ (row ∈ s.rows ∨ row ∈ s.purged)

/-- A pass that an object stopped has itself, without a later one, purged every other screenshot that had expired
when it began. -/
def OthersPurged (s : ScreenshotStore) : Prop :=
  ∀ p ∈ s.passes, ∀ key ∈ p.phase.blockedBy, ∀ row ∈ p.expired, row ∈ s.rows → row.screenshotPath = key

structure Tidy (s : ScreenshotStore) : Prop where
  ids : UniqueKey (·.id) s.rows
  objects : s.ObjectsKept
  referenced : s.Referenced
  answered : s.Answered
  others : s.OthersPurged

instance (s : ScreenshotStore) : Decidable s.Quiet := inferInstanceAs (Decidable (_ ∧ _))

instance (s : ScreenshotStore) : Decidable s.Referenced := inferInstanceAs (Decidable (∀ o ∈ s.objects, _))

instance (s : ScreenshotStore) : Decidable s.Answered := inferInstanceAs (Decidable (∀ c ∈ s.calls, _))

instance (s : ScreenshotStore) : Decidable s.OthersPurged := inferInstanceAs (Decidable (∀ p ∈ s.passes, _))

/-! ## Runs -/

/-- **One step.** -/
theorem Sound.step {s : ScreenshotStore} (h : s.Sound) (settings : ScreenshotSettings) (tie : ActivityRow → Nat)
    (op : ScreenshotOp) (hguard : s.Settles op) : (s.step settings tie op).Sound := by
  cases op with
  | request r => exact h.request r
  | ingest k raises w => exact h.ingest settings w hguard
  | begin now => exact h.beginPass settings now
  | purge k outcome => exact h.purge hguard

/-- With no call in progress the invariant says what is to hold. -/
theorem Sound.tidy {s : ScreenshotStore} (h : s.Sound) (hquiet : s.Quiet) : s.Tidy where
  ids := h.keyed.ids
  objects := by
    intro row hrow
    rcases h.kept.objects row hrow with hbroken | ⟨p, hp, r, hr, _⟩ | hobject
    · exact .inl hbroken
    · have hended := hquiet.2 p hp
      cases hphase : p.phase <;> simp [hphase, PurgePhase.removes, PurgePhase.ended] at hr hended
    · exact .inr hobject
  referenced := by
    intro o ho
    refine (h.kept.referenced o ho).resolve_right fun hheld => ?_
    obtain ⟨i, data, c, hc, hholds, _⟩ := hheld
    have hended := hquiet.1 c (List.mem_of_getElem? hc)
    cases hphase : c.phase <;> simp [hphase, UploadPhase.holds, UploadPhase.ended] at hholds hended
  answered := by
    intro c hc hanswer
    have hanswers : c.phase.answers = true := by
      rcases hanswer with hphase | hphase <;> rw [hphase] <;> rfl
    obtain ⟨row, hrow, hid, hknown⟩ := h.answering.relied c hc hanswers
    exact ⟨row, hrow, hid, List.mem_append.mp hknown⟩
  others := by
    intro p hp key hkey
    have hleft := h.purging.left p hp
    cases hphase : p.phase with
    | blocked key' =>
      rw [hphase] at hkey
      obtain rfl := Option.some.inj hkey
      simpa only [PurgePass.Left, hphase] using hleft
    | recordsBefore =>
      rw [hphase] at hkey
      cases hkey
    | deleteObject record rest =>
      rw [hphase] at hkey
      cases hkey
    | deleteRecord record rest =>
      rw [hphase] at hkey
      cases hkey
    | finished =>
      rw [hphase] at hkey
      cases hkey
    | failed =>
      rw [hphase] at hkey
      cases hkey

/-- **Screenshots are neither orphaned nor lost**, in every run whose inserts and deletions settle. -/
theorem tidy_run (settings : ScreenshotSettings) (tie : ActivityRow → Nat) {ops : List ScreenshotOp}
    (hguard : Guarded (step settings tie) Settles {} ops) (hquiet : (run (step settings tie) {} ops).Quiet) :
    (run (step settings tie) {} ops).Tidy :=
  (guarded_invariant Sound (fun _ op hs hop => hs.step settings tie op hop) Sound.empty hguard).tidy hquiet

/-! ## Examples of runs -/

/-- A desktop's upload of a record that was captured at some second of 1970-01-01. -/
def screenshotOf (recordId : Nat) (second : Int) : UploadRequest where
  deviceId := 1
  trackerKind := .desktop
  recordId := some recordId
  capturedAt := some (seconds second)
  namesSession := false
  screenshotBlurred := false
  data := [0xff, 0xd8, 0xff, 0xe0]

/-- The next `n` calls of an upload, none of which raises. -/
def uploadCalls (now : Int) (k n : Nat) : List ScreenshotOp :=
  List.replicate n (.ingest k false ⟨now, 1, false, none, true⟩)

def monthOfScreenshots : ScreenshotSettings := ⟨1024, 30⟩

/-- Two parallel uploads of one record id, of which one cleans up, and a pass that purges the record. -/
theorem tidy_run_retried :
    (run (step monthOfScreenshots fun _ => 0) {}
      ([.request (screenshotOf 7 0), .request (screenshotOf 7 0)] ++ uploadCalls 0 0 4 ++ uploadCalls 0 1 6 ++
        uploadCalls 0 0 3 ++ [.begin (days 31)] ++ List.replicate 4 (.purge 0 .done))).Tidy :=
  tidy_run monthOfScreenshots (fun _ => 0) (by decide +kernel) (by decide +kernel)

/-- The run ends with no call in progress, and something is orphaned or lost. -/
def EndsUntidy (ops : List ScreenshotOp) : Prop :=
  (run (step monthOfScreenshots fun _ => 0) {} ops).Quiet ∧
    ¬ (run (step monthOfScreenshots fun _ => 0) {} ops).Tidy

/-- An insert raises after the object was saved; two captures of one time; two passes that an object stops,
before an expired screenshot that neither purges; a record that is uploaded again between two passes. -/
theorem tidy_fails :
    EndsUntidy ([.request (screenshotOf 7 0)] ++ uploadCalls 0 0 4 ++
      [.ingest 0 true ⟨0, 1, false, none, true⟩]) ∧
    EndsUntidy ([.request (screenshotOf 7 0), .request (screenshotOf 8 0)] ++ uploadCalls 0 0 6 ++
      uploadCalls 0 1 7) ∧
    EndsUntidy ([.request (screenshotOf 7 0), .request (screenshotOf 8 1)] ++ uploadCalls 0 0 6 ++
      uploadCalls 0 1 6 ++ [.begin (days 31), .purge 0 .done, .purge 0 .raised,
        .begin (days 32), .purge 1 .done, .purge 1 .raised]) ∧
    EndsUntidy ([.request (screenshotOf 7 0)] ++ uploadCalls 0 0 6 ++
      [.begin (days 31), .begin (days 31), .purge 0 .done, .purge 1 .done, .purge 0 .done, .purge 0 .done,
        .purge 0 .done, .purge 1 .done, .request (screenshotOf 7 0)] ++ uploadCalls (days 31) 1 6 ++
      [.purge 1 .done, .purge 1 .done]) := by
  refine ⟨⟨?_, fun h => absurd h.referenced ?_⟩, ⟨?_, fun h => absurd h.answered ?_⟩,
    ⟨?_, fun h => absurd h.others ?_⟩, ⟨?_, fun h => absurd h.referenced ?_⟩⟩ <;> decide +kernel

end ScreenshotStore

end Dayfinch
