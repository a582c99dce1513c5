/-
# Dayfinch.Screenshots.Passes -- each call of a purge pass keeps the invariant

The records of a batch are rows that are in the table or were purged, since a row never changes and its key
is never used again. A batch that is not full has all that had expired, so the record at which it ends is the
last one.
-/
import Dayfinch.Screenshots.Invariant

namespace Dayfinch

open Library

namespace ScreenshotStore

/-! ## Passes -/

section

variable {s : ScreenshotStore} {k : Nat} {p : PurgePass} {phase : PurgePhase} {tie : ActivityRow → Nat}

/-- Whether a pass has deleted an object is what it was, for all passes but the one that moves. -/
theorem removing_movePass (hp : s.passes[k]? = some p)
    (hremoves : ∀ r ∈ p.phase.removes, r ∈ phase.removes) {key : ScreenshotKey} (h : s.Removing key) :
    (s.movePass k phase).Removing key := by
  obtain ⟨q, hq, r, hr, hkey⟩ := h
  obtain ⟨i, hi⟩ := List.mem_iff_getElem?.mp hq
  have hget : (s.movePass k phase).passes[i]? = some (if k = i then { q with phase := phase } else q) := by
    show (s.passes.modify k _)[i]? = _
    rw [List.getElem?_modify, hi]
    rfl
  refine ⟨_, List.mem_of_getElem? hget, r, ?_, hkey⟩
  by_cases hk : k = i
  · subst hk
    obtain rfl : p = q := Option.some.inj (hp.symm.trans hi)
    rw [if_pos rfl]
    exact hremoves r hr
  · rw [if_neg hk]
    exact hr

/-- The pass moves, and what it has in its batch and leaves behind is as the invariant says. -/
theorem Purging.movePass (h : s.Purging) (hp : s.passes[k]? = some p) (hbatch : ∀ r ∈ phase.batch, r ∈ s.known)
    (hleft : ({ p with phase := phase } : PurgePass).Left s)
    (hgone : ∀ r ∈ phase.removes, ∀ o ∈ s.objects, o.1 ≠ r.screenshotPath) : (s.movePass k phase).Purging := by
  have hmem : p ∈ s.passes := List.mem_of_getElem? hp
  refine ⟨fun q hq => ?_, fun q hq => ?_, fun q hq => ?_, fun q hq => ?_⟩ <;>
    rcases mem_modify_cases hq with ⟨i, _, hi⟩ | ⟨p', hp', rfl⟩
  · exact h.batches q (List.mem_of_getElem? hi)
  · exact hbatch
  · exact h.expired q (List.mem_of_getElem? hi)
  · obtain rfl : p = p' := Option.some.inj (hp.symm.trans hp')
    exact h.expired p hmem
  · exact h.left q (List.mem_of_getElem? hi)
  · obtain rfl : p = p' := Option.some.inj (hp.symm.trans hp')
    exact hleft
  · exact h.gone q (List.mem_of_getElem? hi)
  · exact hgone

/-- **A pass moves** without touching the table or the storage. -/
theorem Sound.movePass (h : s.Sound) (hp : s.passes[k]? = some p) (hremoves : p.phase.removes = none)
    (hnone : phase.removes = none) (hbatch : ∀ r ∈ phase.batch, r ∈ s.known)
    (hleft : ({ p with phase := phase } : PurgePass).Left s) : (s.movePass k phase).Sound where
  keyed := ⟨h.keyed.ids, h.keyed.determined, h.keyed.suffixes, h.keyed.stored, h.keyed.held, h.keyed.distinct⟩
  answering := ⟨h.answering.parsed, h.answering.relied⟩
  kept := ⟨h.kept.saved, fun row hrow => (h.kept.objects row hrow).imp_right fun hrest =>
    hrest.imp_left fun hremoving => removing_movePass hp (by simp [hremoves]) hremoving, h.kept.referenced⟩
  purging := h.purging.movePass hp hbatch hleft (by simp [hnone])

/-- **A pass begins.** -/
theorem Sound.beginPass (h : s.Sound) (settings : ScreenshotSettings) (now : Int) :
    (s.beginPass settings now).Sound where
  keyed := ⟨h.keyed.ids, h.keyed.determined, h.keyed.suffixes, h.keyed.stored, h.keyed.held, h.keyed.distinct⟩
  answering := ⟨h.answering.parsed, h.answering.relied⟩
  kept := by
    refine ⟨h.kept.saved, fun row hrow => (h.kept.objects row hrow).imp_right fun hrest =>
      hrest.imp_left fun ⟨q, hq, hremoving⟩ => ?_, h.kept.referenced⟩
    exact ⟨q, List.mem_append_left _ hq, hremoving⟩
  purging := by
    refine ⟨fun q hq => ?_, fun q hq => ?_, fun q hq => ?_, fun q hq => ?_⟩ <;>
      rcases List.mem_append.mp hq with hold | hnew
    · exact h.purging.batches q hold
    · obtain rfl := List.mem_singleton.mp hnew
      exact fun r hr => nomatch hr
    · exact h.purging.expired q hold
    · obtain rfl := List.mem_singleton.mp hnew
      intro r hr
      obtain ⟨hrow, hexpired⟩ := List.mem_filter.mp hr
      exact ⟨List.mem_append_left _ hrow, of_decide_eq_true hexpired⟩
    · exact h.purging.left q hold
    · obtain rfl := List.mem_singleton.mp hnew
      trivial
    · exact h.purging.gone q hold
    · obtain rfl := List.mem_singleton.mp hnew
      exact fun r hr => nomatch hr

/-- A batch that is not full has every record that has expired. -/
theorem mem_recordsBefore {cutoff : Int} {row : ActivityRow}
    (hfull : (s.recordsBefore tie cutoff).length < batchLimit) (hrow : row ∈ s.rows)
    (hexpired : row.capturedAt < cutoff) : row ∈ s.recordsBefore tie cutoff := by
  unfold recordsBefore at hfull ⊢
  rw [List.length_take] at hfull
  rw [List.take_of_length_le (by omega), mem_orderBy]
  exact List.mem_filter.mpr ⟨hrow, decide_eq_true hexpired⟩

theorem mem_rows_of_recordsBefore {cutoff : Int} {row : ActivityRow} (h : row ∈ s.recordsBefore tie cutoff) :
    row ∈ s.rows := List.mem_of_mem_filter (mem_orderBy.mp (List.mem_of_mem_take h))

/-- A pass deletes the object of a record of its batch: an upload's own objects are others. -/
theorem Kept.deleteObject (h : s.Kept) (hkeyed : s.Keyed) {record : ActivityRow} (hknown : record ∈ s.known)
    {s' : ScreenshotStore} (hrows : s'.rows = s.rows)
    (hobjects : s'.objects = (s.deleteObject record.screenshotPath).objects) (hcalls : s'.calls = s.calls)
    (hbroken : ∀ key ∈ s.broken, key ∈ s'.broken)
    (hremoving : ∀ key, s.Removing key → s'.Removing key)
    (hgone : record.screenshotPath ∈ s'.broken ∨ s'.Removing record.screenshotPath) : s'.Kept := by
  have hobject : ∀ key, s'.object key = (s.deleteObject record.screenshotPath).object key := by
    intro key
    unfold ScreenshotStore.object
    rw [hobjects]
  have hholding : ∀ {i key data}, s'.Holding i key data ↔ s.Holding i key data := by
    intro i key data
    unfold Holding
    rw [hcalls]
  refine ⟨fun i key data hheld => ?_, fun row hrow => ?_, fun o ho => ?_⟩
  · have hold := hholding.mp hheld
    have hne : key ≠ record.screenshotPath := fun heq => (hkeyed.held i key data hold).2 record hknown heq.symm
    rw [hobject, object_deleteObject s hne]
    exact h.saved i key data hold
  · rw [hrows] at hrow
    by_cases heq : row.screenshotPath = record.screenshotPath
    · rw [heq]
      exact hgone.imp_right .inl
    · rcases h.objects row hrow with hb | hr | ho
      · exact .inl (hbroken _ hb)
      · exact .inr (.inl (hremoving _ hr))
      · exact .inr (.inr (by rw [hobject, object_deleteObject s heq]; exact ho))
  · rw [hobjects] at ho
    rw [hrows]
    exact (h.referenced o (List.mem_of_mem_filter ho)).imp_right fun ⟨i, data, hheld⟩ =>
      ⟨i, data, hholding.mpr hheld⟩

/-- **A pass has read a batch.** -/
theorem Sound.batch (h : s.Sound) (hp : s.passes[k]? = some p) (hnone : p.phase.removes = none)
    {record : ActivityRow} {rest : List ActivityRow} (hbatch : s.recordsBefore tie p.cutoff = record :: rest) :
    ({ s with
      passes := s.passes.modify k fun p => { p with
        phase := .deleteObject record rest
        full := decide (batchLimit ≤ rest.length + 1) } } : ScreenshotStore).Sound where
  keyed := ⟨h.keyed.ids, h.keyed.determined, h.keyed.suffixes, h.keyed.stored, h.keyed.held, h.keyed.distinct⟩
  answering := ⟨h.answering.parsed, h.answering.relied⟩
  kept := by
    refine ⟨h.kept.saved, fun row hrow => (h.kept.objects row hrow).imp_right fun hrest =>
      hrest.imp_left fun ⟨q, hq, r, hr, hkey⟩ => ?_, h.kept.referenced⟩
    -- the pass that reads its batch has deleted no object
    obtain ⟨i, hi⟩ := List.mem_iff_getElem?.mp hq
    have hne : k ≠ i := by
      rintro rfl
      obtain rfl : p = q := Option.some.inj (hp.symm.trans hi)
      rw [hnone] at hr
      exact nomatch hr
    refine ⟨q, List.mem_of_getElem? (i := i) ?_, r, hr, hkey⟩
    exact getElem?_modify_of_ne hi hne.symm
  purging := by
    have hmem : p ∈ s.passes := List.mem_of_getElem? hp
    refine ⟨fun q hq => ?_, fun q hq => ?_, fun q hq => ?_, fun q hq => ?_⟩ <;>
      rcases mem_modify_cases hq with ⟨i, _, hi⟩ | ⟨p', hp', rfl⟩
    · exact h.purging.batches q (List.mem_of_getElem? hi)
    · intro r hr
      have hread : r ∈ s.recordsBefore tie p.cutoff := hbatch ▸ hr
      exact List.mem_append_left _ (mem_rows_of_recordsBefore hread)
    · exact h.purging.expired q (List.mem_of_getElem? hi)
    · obtain rfl : p = p' := Option.some.inj (hp.symm.trans hp')
      exact h.purging.expired p hmem
    · exact h.purging.left q (List.mem_of_getElem? hi)
    · obtain rfl : p = p' := Option.some.inj (hp.symm.trans hp')
      intro hfull r hr hrow
      have hlength : rest.length + 1 < batchLimit := by simpa using hfull
      rw [← hbatch]
      refine mem_recordsBefore ?_ hrow (h.purging.expired p hmem r hr).2
      rw [hbatch]
      exact hlength
    · exact h.purging.gone q (List.mem_of_getElem? hi)
    · exact fun r hr => nomatch hr

/-- The last record of an unfilled batch is the only one left of what had expired when the pass began. -/
theorem left_blocked (h : s.Sound) (hp : s.passes[k]? = some p) {record : ActivityRow} {rest : List ActivityRow}
    (hphase : p.phase = .deleteObject record rest)
    (hlast : rest = [] ∧ (p.full = false ∨
      ∀ row ∈ s.rows, row.capturedAt < p.cutoff → row.screenshotPath = record.screenshotPath)) :
    ∀ r ∈ p.expired, r ∈ s.rows → r.screenshotPath = record.screenshotPath := by
  obtain ⟨rfl, hcase⟩ := hlast
  intro r hr hrow
  rcases hcase with hfull | hothers
  · have hleft := h.purging.left p (List.mem_of_getElem? hp)
    simp only [PurgePass.Left, hphase] at hleft
    rw [List.mem_singleton.mp (hleft hfull r hr hrow)]
  · exact hothers r hrow (h.purging.expired p (List.mem_of_getElem? hp) r hr).2

/-- **A pass deletes an object.** -/
theorem Sound.objectDeleted (h : s.Sound) (hp : s.passes[k]? = some p) {record : ActivityRow}
    {rest : List ActivityRow} (hphase : p.phase = .deleteObject record rest) :
    ((s.deleteObject record.screenshotPath).movePass k (.deleteRecord record rest)).Sound := by
  have hmem : p ∈ s.passes := List.mem_of_getElem? hp
  have hbatch : ∀ r ∈ record :: rest, r ∈ s.known := by
    have := h.purging.batches p hmem
    rwa [hphase] at this
  have hleft := h.purging.left p hmem
  simp only [PurgePass.Left, hphase] at hleft
  have hpurging : ((s.deleteObject record.screenshotPath).movePass k (.deleteRecord record rest)).Purging := by
    have hdeleted : (s.deleteObject record.screenshotPath).Purging :=
      ⟨h.purging.batches, h.purging.expired, h.purging.left,
        fun q hq r hr o ho => h.purging.gone q hq r hr o (List.mem_of_mem_filter ho)⟩
    refine hdeleted.movePass hp hbatch hleft fun r hr o ho => ?_
    obtain rfl := Option.some.inj hr
    simpa using (List.mem_filter.mp ho).2
  have hnone : ∀ r ∈ p.phase.removes, r ∈ PurgePhase.removes (.deleteRecord record rest) := by
    rw [hphase]
    exact fun _ hr => nomatch hr
  refine ⟨⟨h.keyed.ids, h.keyed.determined, h.keyed.suffixes,
      fun o ho => h.keyed.stored o (List.mem_of_mem_filter ho), h.keyed.held, h.keyed.distinct⟩,
    ⟨h.answering.parsed, h.answering.relied⟩, ?_, hpurging⟩
  refine h.kept.deleteObject h.keyed (hbatch record List.mem_cons_self) rfl rfl rfl (fun _ hb => hb)
    (fun key hr => removing_movePass hp hnone hr) (.inr ?_)
  refine ⟨{ p with phase := .deleteRecord record rest }, List.mem_of_getElem? (i := k) ?_, record, rfl, rfl⟩
  exact getElem?_modify_self hp

/-- **A pass is stopped by an object**, whether or not the object is gone. -/
theorem Sound.blocked (h : s.Sound) (hp : s.passes[k]? = some p) {record : ActivityRow}
    {rest : List ActivityRow} (hphase : p.phase = .deleteObject record rest)
    (hleft : ∀ r ∈ p.expired, r ∈ s.rows → r.screenshotPath = record.screenshotPath) :
    (s.movePass k (.blocked record.screenshotPath)).Sound ∧
      ({ s.deleteObject record.screenshotPath with
        broken := record.screenshotPath :: s.broken }.movePass k (.blocked record.screenshotPath)).Sound := by
  have hbatch : record ∈ s.known :=
    h.purging.batches p (List.mem_of_getElem? hp) record (by rw [hphase]; exact List.mem_cons_self)
  have hnone : ∀ r ∈ p.phase.removes, r ∈ PurgePhase.removes (.blocked record.screenshotPath) := by
    rw [hphase]
    exact fun _ hr => nomatch hr
  have hmoved : (s.movePass k (.blocked record.screenshotPath)).Sound :=
    h.movePass hp (by rw [hphase]; rfl) rfl (fun _ hr => nomatch hr) hleft
  refine ⟨hmoved, ⟨h.keyed.ids, h.keyed.determined, h.keyed.suffixes,
      fun o ho => h.keyed.stored o (List.mem_of_mem_filter ho), h.keyed.held, h.keyed.distinct⟩,
    ⟨h.answering.parsed, h.answering.relied⟩, ?_,
    ⟨hmoved.purging.batches, hmoved.purging.expired, hmoved.purging.left,
      fun q hq r hr o ho => hmoved.purging.gone q hq r hr o (List.mem_of_mem_filter ho)⟩⟩
  exact h.kept.deleteObject h.keyed hbatch rfl rfl rfl (fun _ hb => List.mem_cons_of_mem _ hb)
    (fun key hr => removing_movePass hp hnone hr) (.inl List.mem_cons_self)

/-- **A pass fails to delete a row** whose object it has deleted. -/
theorem Sound.rowFailed (h : s.Sound) (hp : s.passes[k]? = some p) {record : ActivityRow}
    {rest : List ActivityRow} (hphase : p.phase = .deleteRecord record rest) :
    ({ s with broken := record.screenshotPath :: s.broken }.movePass k .failed).Sound := by
  have hpurging : (s.movePass k .failed).Purging :=
    h.purging.movePass hp (fun _ hr => nomatch hr) trivial fun _ hr => nomatch hr
  refine ⟨⟨h.keyed.ids, h.keyed.determined, h.keyed.suffixes, h.keyed.stored, h.keyed.held, h.keyed.distinct⟩,
    ⟨h.answering.parsed, h.answering.relied⟩, ⟨h.kept.saved, fun row hrow => ?_, h.kept.referenced⟩,
    ⟨hpurging.batches, hpurging.expired, hpurging.left, hpurging.gone⟩⟩
  rcases h.kept.objects row hrow with hb | ⟨q, hq, r, hr, hkey⟩ | ho
  · exact .inl (List.mem_cons_of_mem _ hb)
  · obtain ⟨i, hi⟩ := List.mem_iff_getElem?.mp hq
    by_cases hk : k = i
    · subst hk
      obtain rfl : p = q := Option.some.inj (hp.symm.trans hi)
      rw [hphase] at hr
      obtain rfl : record = r := Option.some.inj hr
      exact .inl (by rw [hkey]; exact List.mem_cons_self)
    · refine .inr (.inl ⟨q, List.mem_of_getElem? (i := i) ?_, r, hr, hkey⟩)
      exact getElem?_modify_of_ne hi fun heq => hk heq.symm
  · exact .inr (.inr ho)

section

variable {record : ActivityRow} {rest : List ActivityRow} (h : s.Sound) (hknown : record ∈ s.known)
  (hguard : ∀ row ∈ s.rows, row.id = record.id → row.screenshotPath = record.screenshotPath)

include h hknown hguard

/-- The row that is deleted is the record that the pass has read. -/
theorem eq_of_deleted {a : ActivityRow} (ha : a ∈ s.rows) (hid : a.id = record.id) : a = record :=
  h.keyed.determined a (List.mem_append_left _ ha) record hknown (hguard a ha hid)

theorem mem_known_deleteRecord {a : ActivityRow} : a ∈ (s.deleteRecord record).known ↔ a ∈ s.known := by
  constructor
  · intro ha
    rcases List.mem_append.mp ha with hrow | hpurged
    · exact List.mem_append_left _ (List.mem_of_mem_filter hrow)
    · rcases List.mem_cons.mp hpurged with rfl | hold
      · exact hknown
      · exact List.mem_append_right _ hold
  · intro ha
    rcases List.mem_append.mp ha with hrow | hpurged
    · by_cases hid : a.id = record.id
      · rw [eq_of_deleted h hknown hguard hrow hid]
        exact List.mem_append_right _ List.mem_cons_self
      · exact List.mem_append_left _ (List.mem_filter.mpr ⟨hrow, by simpa using hid⟩)
    · exact List.mem_append_right _ (List.mem_cons_of_mem _ hpurged)

theorem Keyed.deleteRecord : (s.deleteRecord record).Keyed where
  ids := h.keyed.ids.sublist List.filter_sublist
  determined := fun a ha b hb =>
    h.keyed.determined a ((mem_known_deleteRecord h hknown hguard).mp ha) b
      ((mem_known_deleteRecord h hknown hguard).mp hb)
  suffixes := fun a ha => h.keyed.suffixes a ((mem_known_deleteRecord h hknown hguard).mp ha)
  stored := h.keyed.stored
  held := fun i key data hheld => ⟨(h.keyed.held i key data hheld).1, fun a ha =>
    (h.keyed.held i key data hheld).2 a ((mem_known_deleteRecord h hknown hguard).mp ha)⟩
  distinct := h.keyed.distinct

theorem Answering.deleteRecord : (s.deleteRecord record).Answering where
  parsed := h.answering.parsed
  relied := by
    intro c hc hyes
    obtain ⟨row, hrow, hid, hknown'⟩ := h.answering.relied c hc hyes
    exact ⟨row, hrow, hid, (mem_known_deleteRecord h hknown hguard).mpr hknown'⟩

/-- **A pass deletes a row.** -/
theorem Sound.rowDeleted (hp : s.passes[k]? = some p) (hphase : p.phase = .deleteRecord record rest) :
    ((s.deleteRecord record).movePass k (nextRecord rest)).Sound := by
  have hmem : p ∈ s.passes := List.mem_of_getElem? hp
  have hknownIff := fun {a} => mem_known_deleteRecord (a := a) h hknown hguard
  have hnone : (nextRecord rest).removes = none := by cases rest <;> rfl
  have hkeyed := Keyed.deleteRecord h hknown hguard
  refine ⟨⟨hkeyed.ids, hkeyed.determined, hkeyed.suffixes, hkeyed.stored, hkeyed.held, hkeyed.distinct⟩,
    ⟨h.answering.parsed, (Answering.deleteRecord h hknown hguard).relied⟩, ?_, ?_⟩
  · refine ⟨h.kept.saved, fun row hrow => ?_, fun o ho => ?_⟩
    · obtain ⟨hin, hid⟩ := List.mem_filter.mp hrow
      refine (h.kept.objects row hin).imp_right fun hrest => hrest.imp_left fun ⟨q, hq, r, hr, hkey⟩ => ?_
      obtain ⟨i, hi⟩ := List.mem_iff_getElem?.mp hq
      -- the pass that deletes the row was removing this row and no other
      have hne : k ≠ i := by
        rintro rfl
        obtain rfl : p = q := Option.some.inj (hp.symm.trans hi)
        rw [hphase] at hr
        obtain rfl := Option.some.inj hr
        obtain rfl := h.keyed.determined _ hknown row (List.mem_append_left _ hin) hkey
        simp at hid
      refine ⟨q, List.mem_of_getElem? (i := i) ?_, r, hr, hkey⟩
      exact getElem?_modify_of_ne hi hne.symm
    · refine (h.kept.referenced o ho).imp_left fun ⟨row, hrow, hpath⟩ => ⟨row, ?_, hpath⟩
      refine List.mem_filter.mpr ⟨hrow, ?_⟩
      -- the object of the record is gone, so this is another row's
      have hgone := h.purging.gone p hmem record (by rw [hphase]; rfl) o ho
      by_contra hid
      have heq : row.id = record.id := by simpa using hid
      rw [eq_of_deleted h hknown hguard hrow heq] at hpath
      exact hgone hpath.symm
  · have hdeleted : (s.deleteRecord record).Purging := by
      refine ⟨fun q hq r hr => hknownIff.mpr (h.purging.batches q hq r hr),
        fun q hq r hr => ⟨hknownIff.mpr (h.purging.expired q hq r hr).1, (h.purging.expired q hq r hr).2⟩,
        fun q hq => ?_, h.purging.gone⟩
      have hleft := h.purging.left q hq
      unfold PurgePass.Left at hleft ⊢
      split at hleft
      · exact fun hfull r hr hrow => hleft hfull r hr (List.mem_of_mem_filter hrow)
      · exact fun hfull r hr hrow => hleft hfull r hr (List.mem_of_mem_filter hrow)
      · exact fun r hr hrow => hleft r hr (List.mem_of_mem_filter hrow)
      · trivial
    have hbatch := h.purging.batches p hmem
    have hleft := h.purging.left p hmem
    rw [hphase] at hbatch
    simp only [PurgePass.Left, hphase] at hleft
    refine hdeleted.movePass hp (fun r hr => ?_) ?_ (by simp [hnone])
    · refine hknownIff.mpr (hbatch r (List.mem_cons_of_mem _ ?_))
      cases rest with
      | nil => exact nomatch hr
      | cons record' rest => exact hr
    · cases rest with
      | nil => trivial
      | cons record' rest =>
        intro hfull r hr hrow
        obtain ⟨hin, hid⟩ := List.mem_filter.mp hrow
        rcases List.mem_cons.mp (hleft hfull r hr hin) with rfl | hrest
        · simp at hid
        · exact hrest

end

/-- **One call of a pass.** -/
theorem Sound.purge (h : s.Sound) {outcome : CallOutcome}
    (hguard : ∀ p ∈ s.passes[k]?, s.PurgeSettles p outcome) : (s.purge tie k outcome).Sound := by
  unfold ScreenshotStore.purge
  split
  · exact h
  rename_i p hp
  have hsettles := hguard p hp
  have hbatches := h.purging.batches p (List.mem_of_getElem? hp)
  split
  · rename_i hphase
    have hremoves : p.phase.removes = none := by rw [hphase]; rfl
    split
    · exact h.movePass hp hremoves rfl (fun _ hr => nomatch hr) trivial
    · rename_i record rest hbatch
      exact h.batch hp hremoves hbatch
  · rename_i hphase _
    exact h.movePass hp (by rw [hphase]; rfl) rfl (fun _ hr => nomatch hr) trivial
  · rename_i record rest hphase
    exact h.objectDeleted hp hphase
  · rename_i record rest hphase
    simp only [PurgeSettles, hphase] at hsettles
    have hlast := hsettles.resolve_left (fun heq => nomatch heq)
    exact (h.blocked hp hphase (left_blocked h hp hphase hlast)).1
  · rename_i record rest hphase
    simp only [PurgeSettles, hphase] at hsettles
    have hlast := hsettles.resolve_left (fun heq => nomatch heq)
    exact (h.blocked hp hphase (left_blocked h hp hphase hlast)).2
  · rename_i record rest hphase
    simp only [PurgeSettles, hphase] at hsettles
    rw [hphase] at hbatches
    exact Sound.rowDeleted h (hbatches record List.mem_cons_self) (hsettles trivial) hp hphase
  · rename_i record rest hphase _
    exact h.rowFailed hp hphase
  · exact h

end

end ScreenshotStore

end Dayfinch
