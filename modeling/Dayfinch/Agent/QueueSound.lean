/-
# Dayfinch.Agent.QueueSound -- what failures and crashes leave of the offline queue

Rows, files and counters change in separate steps. `Stored` is what holds of the disk at every point,
crash points included: ids are fresh, every queued screenshot has its image in the image directory or, once
it has a quarantine file, in the quarantine directory, and every journaled event is acknowledged, pending or
quarantined. `Counted` is what holds of the counters while the process runs. Three things can break these or
the order of the queue: an envelope that is written over another of its name, or whose directory sync fails;
a queued screenshot whose image is moved to the quarantine directory, and whose envelope does not follow; and
a screenshot that the clock dates before one already queued. `soundCall` excludes these.
-/
import Dayfinch.Agent.QueueSteps

namespace Dayfinch

open Library (CountedKeys UniqueKey Fate Ending Program Guarded guarded_invariant)
open Library.Program (attempt each meets_attempt meets_each exec_meets exec_attempt)
open QueueState

/-! ## Invariants -/

/-- The event is acknowledged, pending or quarantined. -/
def Accounted (s : QueueState) (id : Nat) : Prop :=
  id ∈ s.acknowledged ∨ id ∈ s.stateEvents.map (·.id) ∨ id ∈ s.usageEvents.map (·.id) ∨
    id ∈ s.metadata.map (·.id)

/-- A queued screenshot has its image in the image directory or, once it is quarantined, in the quarantine
directory. -/
def HasImage (s : QueueState) (id : Nat) : Prop :=
  id ∈ s.images ∨ id ∈ s.screenshots ∧ id ∈ s.metadata.map (·.id)

/-- What holds of the disk. -/
structure Stored (s : QueueState) : Prop where
  recordIds : CountedKeys (fun r : QueueRow => r.id) s.queue s.nextId
  dated : s.queue.Pairwise fun r q => r.createdAt < q.createdAt
  metadataIds : UniqueKey Envelope.id s.metadata
  images : ∀ r ∈ s.queue, HasImage s r.id
  journal : ∀ id ∈ s.journaled, Accounted s id

/-- What holds of the counters. -/
structure Counted (s : QueueState) : Prop where
  pending : s.pending = s.queue.length
  pendingStates : s.pendingStates = s.stateEvents.length
  pendingUsage : s.pendingUsage = s.usageEvents.length
  quarantined : s.quarantined = s.metadata.length

section

variable {s : QueueState} {id : Nat}

/-! ## Steps on the disk -/

/-- The screenshots as they were, and the events accounted for. -/
theorem Stored.of_events {s' : QueueState} (h : Stored s) (hqueue : s'.queue = s.queue)
    (hnext : s.nextId ≤ s'.nextId) (hmetadata : s'.metadata = s.metadata)
    (himages : s'.images = s.images) (hscreenshots : s'.screenshots = s.screenshots)
    (hjournal : ∀ id ∈ s'.journaled, Accounted s' id) : Stored s' := by
  constructor
  · rw [hqueue]
    exact h.recordIds.mono hnext
  · rw [hqueue]
    exact h.dated
  · rw [hmetadata]
    exact h.metadataIds
  · unfold HasImage
    rw [hqueue, himages, hscreenshots, hmetadata]
    exact h.images
  · exact hjournal

/-- Fewer screenshots. -/
theorem Stored.discard (h : Stored s) {rows : List QueueRow} (hsub : rows.Sublist s.queue)
    (pending : Nat) : Stored { s with queue := rows, pending := pending } := by
  constructor
  · exact h.recordIds.sublist hsub
  · exact h.dated.sublist hsub
  · exact h.metadataIds
  · intro r hr
    exact h.images r (hsub.subset hr)
  · exact h.journal

theorem stored_openPartial (h : Stored s) : Stored (openPartial s) :=
  h.of_events rfl (Nat.le_succ _) rfl rfl rfl h.journal

theorem stored_unlinkPartial (h : Stored s) (id : Nat) : Stored (unlinkPartial id s) :=
  h.of_events rfl le_rfl rfl rfl rfl h.journal

theorem stored_countRows (h : Stored s) : Stored (countRows s) :=
  h.of_events rfl le_rfl rfl rfl rfl h.journal

theorem stored_countMetadata (h : Stored s) : Stored (countMetadata s) :=
  h.of_events rfl le_rfl rfl rfl rfl h.journal

theorem stored_countQuarantined (h : Stored s) : Stored (countQuarantined s) :=
  h.of_events rfl le_rfl rfl rfl rfl h.journal

theorem stored_renameImage (h : Stored s) (id : Nat) : Stored (renameImage id s) := by
  constructor
  · exact h.recordIds
  · exact h.dated
  · exact h.metadataIds
  · intro r hr
    rcases h.images r hr with himage | hmoved
    · exact .inl (List.mem_insert_of_mem himage)
    · exact .inr hmoved
  · exact h.journal

/-- An image may go when no row refers to it. -/
theorem stored_unlinkImage (h : Stored s) (hfree : ∀ r ∈ s.queue, r.id ≠ id) :
    Stored (unlinkImage id s) := by
  constructor
  · exact h.recordIds
  · exact h.dated
  · exact h.metadataIds
  · intro r hr
    rcases h.images r hr with himage | hmoved
    · refine .inl (List.mem_filter.mpr ⟨himage, ?_⟩)
      simpa using hfree r hr
    · exact .inr hmoved
  · exact h.journal

/-- An image may move to the quarantine directory when no row refers to it, or when it is not there. -/
theorem stored_moveImage (h : Stored s) (hfree : (∀ r ∈ s.queue, r.id ≠ id) ∨ id ∉ s.images) :
    Stored (moveImage id s) := by
  unfold moveImage
  split
  · next himage =>
    have hnone := hfree.resolve_right (not_not_intro himage)
    constructor
    · exact h.recordIds
    · exact h.dated
    · exact h.metadataIds
    · intro r hr
      rcases h.images r hr with hin | ⟨hmoved, hmeta⟩
      · exact .inl (List.mem_filter.mpr ⟨hin, by simpa using hnone r hr⟩)
      · exact .inr ⟨List.mem_insert_of_mem hmoved, hmeta⟩
    · exact h.journal
  · exact h

/-- A new row needs a fresh id, a later date and its image. -/
theorem stored_insertRecord (h : Stored s) {record : QueuedRecord} {created : Int}
    (hfresh : ∀ r ∈ s.queue, r.id < record.id) (hbelow : record.id < s.nextId)
    (hlast : ∀ r ∈ s.queue, r.createdAt < created) (himage : record.id ∈ s.images) :
    Stored (insertRecord record created s) := by
  constructor
  · refine ⟨h.recordIds.unique.append_fresh fun r hr => (hfresh r hr).ne, ?_⟩
    intro r hr
    rcases List.mem_append.mp hr with hold | hnew
    · exact h.recordIds.below r hold
    · rw [List.mem_singleton.mp hnew]
      exact hbelow
  · refine List.pairwise_append.mpr ⟨h.dated, List.pairwise_singleton _ _, ?_⟩
    intro r hr q hq
    rw [List.mem_singleton.mp hq]
    exact hlast r hr
  · exact h.metadataIds
  · intro r hr
    rcases List.mem_append.mp hr with hold | hnew
    · exact h.images r hold
    · rw [List.mem_singleton.mp hnew]
      exact .inl himage
  · exact h.journal

theorem stored_insertStateEvent (h : Stored s) (event : StateEvent) (created : Int) :
    Stored (insertStateEvent event created s) := by
  refine h.of_events rfl (Nat.le_succ _) rfl rfl rfl fun id hid => ?_
  have hrow : event.id ∈ (insertStateEvent event created s).stateEvents.map (·.id) := by
    simp [insertStateEvent]
  rcases List.mem_append.mp hid with hold | hnew
  · rcases h.journal id hold with hdone | hpending | hrest
    · exact .inl hdone
    · right; left
      show id ∈ List.map _ (s.stateEvents ++ _)
      rw [List.map_append]
      exact List.mem_append_left _ hpending
    · exact .inr (.inr hrest)
  · rw [List.mem_singleton.mp hnew]
    exact .inr (.inl hrow)

theorem stored_insertUsageEvent (h : Stored s) (event : UsageEvent) (created : Int) :
    Stored (insertUsageEvent event created s) := by
  refine h.of_events rfl (Nat.le_succ _) rfl rfl rfl fun id hid => ?_
  have hrow : event.id ∈ (insertUsageEvent event created s).usageEvents.map (·.id) := by
    simp [insertUsageEvent]
  rcases List.mem_append.mp hid with hold | hnew
  · rcases h.journal id hold with hdone | hstate | hpending | hrest
    · exact .inl hdone
    · exact .inr (.inl hstate)
    · right; right; left
      show id ∈ List.map _ (s.usageEvents ++ _)
      rw [List.map_append]
      exact List.mem_append_left _ hpending
    · exact .inr (.inr (.inr hrest))
  · rw [List.mem_singleton.mp hnew]
    exact .inr (.inr (.inl hrow))

/-- An event may leave its table when it is acknowledged or quarantined. -/
theorem stored_deleteStateEvent (h : Stored s) {acknowledged : List Nat}
    (hacknowledged : s.acknowledged ⊆ acknowledged)
    (hdone : id ∈ acknowledged ∨ id ∈ s.metadata.map (·.id)) :
    Stored { deleteStateEvent id s with acknowledged := acknowledged } := by
  refine h.of_events rfl le_rfl rfl rfl rfl fun i hi => ?_
  rcases h.journal i hi with hack | hpending | hrest
  · exact .inl (hacknowledged hack)
  · by_cases hsame : i = id
    · rw [hsame]
      rcases hdone with hack | hmeta
      · exact .inl hack
      · exact .inr (.inr (.inr hmeta))
    · obtain ⟨r, hr, rfl⟩ := List.mem_map.mp hpending
      exact .inr (.inl (List.mem_map_of_mem (List.mem_filter.mpr ⟨hr, by simpa using hsame⟩)))
  · exact .inr (.inr hrest)

theorem stored_deleteUsageEvent (h : Stored s) {acknowledged : List Nat}
    (hacknowledged : s.acknowledged ⊆ acknowledged)
    (hdone : id ∈ acknowledged ∨ id ∈ s.metadata.map (·.id)) :
    Stored { deleteUsageEvent id s with acknowledged := acknowledged } := by
  refine h.of_events rfl le_rfl rfl rfl rfl fun i hi => ?_
  rcases h.journal i hi with hack | hstate | hpending | hmeta
  · exact .inl (hacknowledged hack)
  · exact .inr (.inl hstate)
  · by_cases hsame : i = id
    · rw [hsame]
      rcases hdone with hack | hmeta
      · exact .inl hack
      · exact .inr (.inr (.inr hmeta))
    · obtain ⟨r, hr, rfl⟩ := List.mem_map.mp hpending
      exact .inr (.inr (.inl (List.mem_map_of_mem (List.mem_filter.mpr ⟨hr, by simpa using hsame⟩))))
  · exact .inr (.inr (.inr hmeta))

/-- The envelopes after a write are the others and the one written. -/
theorem mem_writeMetadata_ids {envelope : Envelope} {i : Nat} :
    i ∈ (writeMetadata envelope s).metadata.map (·.id) ↔
      i ∈ s.metadata.map (·.id) ∨ i = envelope.id := by
  unfold writeMetadata
  simp only [List.map_append, List.mem_append, List.mem_map, List.mem_filter, bne_iff_ne,
    List.map_cons, List.map_nil, List.mem_singleton]
  constructor
  · rintro (⟨e, ⟨he, _⟩, rfl⟩ | rfl)
    · exact .inl ⟨e, he, rfl⟩
    · exact .inr rfl
  · rintro (⟨e, he, rfl⟩ | rfl)
    · by_cases hsame : e.id = envelope.id
      · exact .inr hsame
      · exact .inl ⟨e, ⟨he, hsame⟩, rfl⟩
    · exact .inr rfl

theorem stored_writeMetadata (h : Stored s) (envelope : Envelope) :
    Stored (writeMetadata envelope s) := by
  constructor
  · exact h.recordIds
  · exact h.dated
  · refine (h.metadataIds.sublist List.filter_sublist).append_fresh fun e he => ?_
    simpa using (List.mem_filter.mp he).2
  · intro r hr
    rcases h.images r hr with himage | ⟨hmoved, hmeta⟩
    · exact .inl himage
    · exact .inr ⟨hmoved, mem_writeMetadata_ids.mpr (.inl hmeta)⟩
  · intro i hi
    rcases h.journal i hi with hack | hstate | husage | hmeta
    · exact .inl hack
    · exact .inr (.inl hstate)
    · exact .inr (.inr (.inl husage))
    · exact .inr (.inr (.inr (mem_writeMetadata_ids.mpr (.inl hmeta))))

/-- An image that has moved is accounted for by its envelope. -/
theorem stored_quarantineImage (h : Stored s) (envelope : Envelope) :
    Stored (writeMetadata envelope (moveImage envelope.id s)) := by
  by_cases himage : envelope.id ∈ s.images
  · have hwritten := stored_writeMetadata h envelope
    unfold moveImage
    rw [if_pos himage]
    constructor
    · exact hwritten.recordIds
    · exact hwritten.dated
    · exact hwritten.metadataIds
    · intro r hr
      by_cases hsame : r.id = envelope.id
      · rw [hsame]
        exact .inr ⟨List.mem_insert_self, mem_writeMetadata_ids.mpr (.inr rfl)⟩
      · rcases hwritten.images r hr with hin | ⟨hmoved, hmeta⟩
        · exact .inl (List.mem_filter.mpr ⟨hin, by simpa using hsame⟩)
        · exact .inr ⟨List.mem_insert_of_mem hmoved, hmeta⟩
    · exact hwritten.journal
  · exact stored_writeMetadata (stored_moveImage h (.inr himage)) envelope

/-! ## Steps and the counters -/

/-- What is left after a deletion is what was there less what is deleted. -/
theorem length_filter_ne {ρ : Type} (key : ρ → Nat) (id : Nat) (rows : List ρ) :
    (rows.filter (key · != id)).length = rows.length - rows.countP (key · == id) := by
  have hsplit := List.length_eq_countP_add_countP (key · == id) (l := rows)
  have hrest : (rows.filter (key · != id)).length = rows.countP fun r => decide ¬ (key r == id) = true := by
    rw [← List.countP_eq_length_filter]
    refine List.countP_congr fun r _ => ?_
    simp
  rw [hrest]
  omega

theorem counted_insertRecord (h : Counted s) (record : QueuedRecord) (created : Int) :
    Counted (insertRecord record created s) := by
  obtain ⟨h1, h2, h3, h4⟩ := h
  exact ⟨by simp [insertRecord, h1], h2, h3, h4⟩

theorem counted_insertStateEvent (h : Counted s) (event : StateEvent) (created : Int) :
    Counted (insertStateEvent event created s) := by
  obtain ⟨h1, h2, h3, h4⟩ := h
  exact ⟨h1, by simp [insertStateEvent, h2], h3, h4⟩

theorem counted_insertUsageEvent (h : Counted s) (event : UsageEvent) (created : Int) :
    Counted (insertUsageEvent event created s) := by
  obtain ⟨h1, h2, h3, h4⟩ := h
  exact ⟨h1, h2, by simp [insertUsageEvent, h3], h4⟩

theorem counted_deleteRecord (h : Counted s) (id : Nat) : Counted (deleteRecord id s) := by
  obtain ⟨h1, h2, h3, h4⟩ := h
  refine ⟨?_, h2, h3, h4⟩
  show s.pending - _ = (s.queue.filter _).length
  rw [length_filter_ne (fun r : QueueRow => r.id), h1]

theorem counted_deleteStateEvent (h : Counted s) (id : Nat) : Counted (deleteStateEvent id s) := by
  obtain ⟨h1, h2, h3, h4⟩ := h
  refine ⟨h1, ?_, h3, h4⟩
  show s.pendingStates - _ = (s.stateEvents.filter _).length
  rw [length_filter_ne (fun r : StateRow => r.id), h2]

theorem counted_deleteUsageEvent (h : Counted s) (id : Nat) : Counted (deleteUsageEvent id s) := by
  obtain ⟨h1, h2, h3, h4⟩ := h
  refine ⟨h1, h2, ?_, h4⟩
  show s.pendingUsage - _ = (s.usageEvents.filter _).length
  rw [length_filter_ne (fun r : UsageRow => r.id), h3]

theorem counted_moveImage (h : Counted s) (id : Nat) : Counted (moveImage id s) := by
  obtain ⟨h1, h2, h3, h4⟩ := h
  unfold moveImage
  split
  · exact ⟨h1, h2, h3, h4⟩
  · exact ⟨h1, h2, h3, h4⟩

/-- A new envelope, counted. -/
theorem counted_quarantine (h : Counted s) {envelope : Envelope}
    (hnew : ∀ e ∈ s.metadata, e.id ≠ envelope.id) :
    Counted (countQuarantined (writeMetadata envelope s)) := by
  obtain ⟨h1, h2, h3, h4⟩ := h
  refine ⟨h1, h2, h3, ?_⟩
  have hothers : s.metadata.filter (·.id != envelope.id) = s.metadata := by
    refine List.filter_eq_self.mpr fun e he => ?_
    simpa using hnew e he
  show s.quarantined + 1 = (s.metadata.filter _ ++ [envelope]).length
  rw [hothers, h4]
  simp

/-! ## Trimming -/

theorem excess_eq (h : Stored s) (maxItems : Nat) (tie : QueueRow → Nat) :
    excess maxItems tie s.queue = s.queue.take (s.queue.length - maxItems) := by
  unfold excess
  rw [Library.orderBy_eq_self h.dated]

/-- The queue after a trim is what was queued last. -/
theorem trimRows_queue (h : Stored s) (maxItems : Nat) (tie : QueueRow → Nat) :
    (trimRows maxItems tie s).queue = s.queue.drop (s.queue.length - maxItems) := by
  unfold trimRows
  dsimp only
  rw [excess_eq h]
  exact h.recordIds.unique.filter_take _

theorem stored_trimRows (h : Stored s) (maxItems : Nat) (tie : QueueRow → Nat) :
    Stored (trimRows maxItems tie s) := h.discard List.filter_sublist _

theorem counted_trimRows (hs : Stored s) (h : Counted s) (maxItems : Nat) (tie : QueueRow → Nat) :
    Counted (trimRows maxItems tie s) := by
  obtain ⟨h1, h2, h3, h4⟩ := h
  refine ⟨?_, h2, h3, h4⟩
  rw [trimRows_queue hs]
  show s.pending - (excess maxItems tie s.queue).length = _
  rw [excess_eq hs, h1, List.length_take, List.length_drop]
  omega

/-! ## Methods -/

/-- The row that `add` queues. -/
def addedRow (s : QueueState) (args : AddArgs) (now created : Int) : QueueRow where
  toQueuedRecord := newQueuedRecord s.nextId now args.activity args.activeApp args.capturedAt
    args.sessionId args.activeUrl args.screenshotBlurred
  createdAt := created

/-- Of `rows`, in the order in which they were added, no more than `maxItems` are left, and it is the first
ones that are gone. -/
structure TrimmedTo (maxItems : Nat) (rows rows' : List QueueRow) : Prop where
  bounded : rows'.length ≤ maxItems
  latest : rows' = rows.drop (rows.length - maxItems)

/-- The end of `add`, on the rows with the new one. -/
theorem trim_meets (h : Stored s) (hc : Counted s) {rows : List QueueRow} (hrows : s.queue = rows)
    (maxItems : Nat) (tie : QueueRow → Nat) :
    (attempt (trimRows maxItems tie) fun s =>
        each unlinkImage .done ((excess maxItems tie s.queue).map (·.id))).Meets
      (fun e s' => Stored s' ∧ Counted s' ∧ (e = .returned → TrimmedTo maxItems rows s'.queue)) s := by
  refine meets_attempt ⟨h, hc, nofun⟩ ⟨h, hc, nofun⟩ ?_
  -- the discarded rows are gone when their images are unlinked
  refine meets_each (G := fun i s' => i ∉ s'.images)
    (P := fun s' => Stored s' ∧ Counted s' ∧ s'.queue = (trimRows maxItems tie s).queue)
    (fun i s' => by simp [unlinkImage]) (fun i j s' hi => by simp [unlinkImage, hi]) _
    (fun s' hs' => ⟨⟨hs'.1, hs'.2.1, nofun⟩, ⟨hs'.1, hs'.2.1, nofun⟩⟩) ?_ ?_
    ⟨stored_trimRows h maxItems tie, counted_trimRows h hc maxItems tie, rfl⟩
  · intro i hi s' hs'
    obtain ⟨hs, hc', hq⟩ := hs'
    refine ⟨stored_unlinkImage hs ?_, ⟨hc'.1, hc'.2, hc'.3, hc'.4⟩, hq⟩
    intro r hr hid
    rw [hq] at hr
    have hkept := (List.mem_filter.mp hr).2
    rw [hid, List.contains_iff_mem.mpr hi] at hkept
    simp at hkept
  · intro s' hs' _
    obtain ⟨hs, hc', hq⟩ := hs'
    refine ⟨hs, hc', fun _ => ?_⟩
    rw [trimRows_queue h, hrows] at hq
    constructor
    · rw [hq, List.length_drop]
      omega
    · exact hq

theorem addScreenshot_meets (h : Stored s) (hc : Counted s) (maxItems : Nat) (args : AddArgs)
    (now : Int) {created : Int} (hlast : ∀ r ∈ s.queue, r.createdAt < created) (tie : QueueRow → Nat) :
    (addScreenshot maxItems args now created tie).Meets
      (fun e s' => Stored s' ∧ Counted s' ∧
        (e = .returned → TrimmedTo maxItems (s.queue ++ [addedRow s args now created]) s'.queue)) s := by
  have hopened := stored_openPartial h
  have hopenedCounted : Counted (openPartial s) := ⟨hc.1, hc.2, hc.3, hc.4⟩
  refine meets_attempt ⟨h, hc, nofun⟩ ⟨h, hc, nofun⟩ ?_
  refine meets_attempt ⟨hopened, hopenedCounted, nofun⟩ ⟨hopened, hopenedCounted, nofun⟩ ?_
  refine meets_attempt ⟨hopened, hopenedCounted, nofun⟩ ⟨hopened, hopenedCounted, nofun⟩ ?_
  have hnamed := stored_renameImage hopened s.nextId
  have hnamedCounted : Counted (renameImage s.nextId (openPartial s)) := ⟨hc.1, hc.2, hc.3, hc.4⟩
  refine meets_attempt ⟨hnamed, hnamedCounted, nofun⟩ ⟨hnamed, hnamedCounted, nofun⟩ ?_
  refine meets_attempt ⟨hnamed, hnamedCounted, nofun⟩ ⟨hnamed, hnamedCounted, nofun⟩ ?_
  -- the row, whose image is in place
  refine trim_meets (stored_insertRecord hnamed (fun r hr => h.recordIds.below r hr) (Nat.lt_succ_self _)
    hlast List.mem_insert_self) (counted_insertRecord hnamedCounted _ created) rfl maxItems tie

theorem acknowledgeScreenshot_meets (h : Stored s) (hc : Counted s) (record : QueuedRecord) :
    (acknowledgeScreenshot record).Meets (fun _ s' => Stored s' ∧ Counted s') s := by
  have hdeleted : Stored (deleteRecord record.id s) := h.discard List.filter_sublist _
  have hcounted := counted_deleteRecord hc record.id
  refine meets_attempt ⟨h, hc⟩ ⟨h, hc⟩ (meets_attempt ⟨hdeleted, hcounted⟩ ⟨hdeleted, hcounted⟩ ?_)
  refine ⟨stored_unlinkImage hdeleted ?_, ⟨hcounted.1, hcounted.2, hcounted.3, hcounted.4⟩⟩
  intro r hr
  simpa using (List.mem_filter.mp hr).2

theorem addStateEvent_meets (h : Stored s) (hc : Counted s) (args : StateArgs) (now created : Int) :
    (addStateEvent args now created s).Meets (fun _ s' => Stored s' ∧ Counted s') s := by
  unfold addStateEvent
  split
  · exact ⟨h, hc⟩
  · refine meets_attempt ⟨h, hc⟩ ⟨h, hc⟩ ⟨stored_insertStateEvent h _ created, ?_⟩
    exact counted_insertStateEvent hc _ created

theorem addUsageEvent_meets (h : Stored s) (hc : Counted s) (activeApp activeUrl : String)
    (focusedSeconds : Int) (observedAt : Option Int) (now created : Int) :
    (addUsageEvent activeApp activeUrl focusedSeconds observedAt now created s).Meets
      (fun _ s' => Stored s' ∧ Counted s') s :=
  meets_attempt ⟨h, hc⟩ ⟨h, hc⟩
    ⟨stored_insertUsageEvent h _ created, counted_insertUsageEvent hc _ created⟩

theorem acknowledgeStateEvent_meets (h : Stored s) (hc : Counted s) (event : StateEvent) :
    (acknowledgeStateEvent event).Meets (fun _ s' => Stored s' ∧ Counted s') s := by
  have hcounted := counted_deleteStateEvent hc event.id
  refine meets_attempt ⟨h, hc⟩ ⟨h, hc⟩ ⟨?_, hcounted.1, hcounted.2, hcounted.3, hcounted.4⟩
  exact stored_deleteStateEvent h (List.subset_append_left _ _) (.inl (by simp))

theorem acknowledgeUsageEvent_meets (h : Stored s) (hc : Counted s) (event : UsageEvent) :
    (acknowledgeUsageEvent event).Meets (fun _ s' => Stored s' ∧ Counted s') s := by
  have hcounted := counted_deleteUsageEvent hc event.id
  refine meets_attempt ⟨h, hc⟩ ⟨h, hc⟩ ⟨?_, hcounted.1, hcounted.2, hcounted.3, hcounted.4⟩
  exact stored_deleteUsageEvent h (List.subset_append_left _ _) (.inl (by simp))

/-! ## Quarantine -/

/-- The disk, whatever becomes of the steps; `rest` may rely on the envelope. -/
theorem writeQuarantine_stored (h : Stored s) (envelope : Envelope) {rest : Program QueueState}
    (hrest : ∀ s', Stored s' → envelope.id ∈ s'.metadata.map (·.id) →
      rest.Meets (fun _ s' => Stored s') s') :
    (writeQuarantine envelope rest).Meets (fun _ s' => Stored s') s := by
  have hwritten := stored_writeMetadata h envelope
  refine meets_attempt h h (meets_attempt h h (meets_attempt hwritten hwritten ?_))
  exact hrest _ (stored_countQuarantined hwritten) (mem_writeMetadata_ids.mpr (.inr rfl))

/-- The counters, when the envelope is new and its directory sync does not fail. -/
theorem writeQuarantine_counted (hc : Counted s) {envelope : Envelope}
    (hnew : ∀ e ∈ s.metadata, e.id ≠ envelope.id) {rest : Program QueueState} {fates : List Fate}
    (hsync : fates.getD 2 .succeeds ≠ .fails)
    (hrest : ∀ s', Counted s' → rest.Meets (fun _ s' => Counted s') s')
    (hrunning : ((writeQuarantine envelope rest).exec fates s).2 ≠ .crashed) :
    Counted ((writeQuarantine envelope rest).exec fates s).1 := by
  have hfate : fates.tail.tail.headD .succeeds = fates.getD 2 .succeeds := by
    rcases fates with _ | ⟨_, _ | ⟨_, _ | ⟨_, _⟩⟩⟩ <;> rfl
  unfold writeQuarantine at hrunning ⊢
  rw [exec_attempt] at hrunning ⊢
  split at hrunning <;> try exact hc
  rw [exec_attempt] at hrunning ⊢
  split at hrunning <;> try exact hc
  rw [exec_attempt, hfate] at hrunning ⊢
  split at hrunning
  · exact exec_meets (hrest _ (counted_quarantine hc hnew)) _
  · next hfails => exact absurd hfails hsync
  · exact absurd rfl hrunning

theorem quarantineStateEvent_stored (h : Stored s) (event : StateEvent) (reason : String) :
    (quarantineStateEvent event reason).Meets (fun _ s' => Stored s') s := by
  refine writeQuarantine_stored h _ fun s' hs' hmeta => meets_attempt hs' hs' ?_
  exact stored_deleteStateEvent hs' (List.Subset.refl _) (.inr hmeta)

theorem quarantineUsageEvent_stored (h : Stored s) (event : UsageEvent) (reason : String) :
    (quarantineUsageEvent event reason).Meets (fun _ s' => Stored s') s := by
  refine writeQuarantine_stored h _ fun s' hs' hmeta => meets_attempt hs' hs' ?_
  exact stored_deleteUsageEvent hs' (List.Subset.refl _) (.inr hmeta)

/-- The call moves the image of a queued screenshot, and ends before the quarantine file is there. -/
def strandsImage (s : QueueState) (id : Nat) (fates : List Fate) : Bool :=
  s.queue.any (·.id == id) && s.images.contains id && fates.getD 0 .succeeds == .succeeds &&
    (fates.getD 1 .succeeds != .succeeds || fates.getD 2 .succeeds != .succeeds)

theorem quarantineScreenshot_stored (h : Stored s) (record : QueuedRecord) (reason : String)
    {fates : List Fate} (hkept : strandsImage s record.id fates = false) :
    Stored ((quarantineScreenshot record reason).exec fates s).1 := by
  have hdelete : ∀ s', Stored s' → record.id ∈ s'.metadata.map (·.id) →
      (attempt (deleteRecord record.id) fun _ => .done).Meets (fun _ s' => Stored s') s' :=
    fun s' hs' _ => meets_attempt hs' hs' (hs'.discard List.filter_sublist _)
  by_cases hmoves : (∀ r ∈ s.queue, r.id ≠ record.id) ∨ record.id ∉ s.images
  · have hmeets : (quarantineScreenshot record reason).Meets (fun _ s' => Stored s') s :=
      meets_attempt h h (writeQuarantine_stored (stored_moveImage h hmoves) _ hdelete)
    exact exec_meets hmeets fates
  · -- the image of a queued screenshot moves, and the next two steps succeed
    rw [not_or, not_not] at hmoves
    have hqueued : s.queue.any (·.id == record.id) = true := by
      rw [List.any_eq_true]
      obtain ⟨r, hr⟩ := not_forall.mp hmoves.1
      obtain ⟨hr, hid⟩ := Classical.not_imp.mp hr
      exact ⟨r, hr, by simpa using hid⟩
    unfold strandsImage at hkept
    rw [hqueued, List.contains_iff_mem.mpr hmoves.2] at hkept
    unfold quarantineScreenshot
    rw [exec_attempt]
    split
    · next hfirst =>
      have hsteps : fates.tail.headD .succeeds = .succeeds ∧ fates.tail.tail.headD .succeeds = .succeeds := by
        rcases fates with _ | ⟨_, _ | ⟨_, _ | ⟨_, _⟩⟩⟩ <;> simp_all
      unfold writeQuarantine
      rw [exec_attempt, hsteps.1]
      dsimp only
      rw [exec_attempt, hsteps.2]
      dsimp only
      have hwritten := stored_quarantineImage h
        ⟨record.id, Library.Text.truncate 1000 reason, .screenshot record⟩
      have hrest := hdelete _ (stored_countQuarantined hwritten) (mem_writeMetadata_ids.mpr (.inr rfl))
      have hmeets : (attempt countQuarantined fun _ => attempt (deleteRecord record.id) fun _ => .done).Meets
          (fun _ s' => Stored s') _ := meets_attempt hwritten hwritten hrest
      exact exec_meets hmeets _
    · exact h
    · exact h

theorem quarantineStateEvent_counted (hc : Counted s) {event : StateEvent} {reason : String}
    {fates : List Fate} (hnew : ∀ e ∈ s.metadata, e.id ≠ event.id)
    (hsync : fates.getD 2 .succeeds ≠ .fails)
    (hrunning : ((quarantineStateEvent event reason).exec fates s).2 ≠ .crashed) :
    Counted ((quarantineStateEvent event reason).exec fates s).1 := by
  refine writeQuarantine_counted hc hnew hsync (fun s' hs' => ?_) hrunning
  exact meets_attempt hs' hs' (counted_deleteStateEvent hs' event.id)

theorem quarantineUsageEvent_counted (hc : Counted s) {event : UsageEvent} {reason : String}
    {fates : List Fate} (hnew : ∀ e ∈ s.metadata, e.id ≠ event.id)
    (hsync : fates.getD 2 .succeeds ≠ .fails)
    (hrunning : ((quarantineUsageEvent event reason).exec fates s).2 ≠ .crashed) :
    Counted ((quarantineUsageEvent event reason).exec fates s).1 := by
  refine writeQuarantine_counted hc hnew hsync (fun s' hs' => ?_) hrunning
  exact meets_attempt hs' hs' (counted_deleteUsageEvent hs' event.id)

/-- A screenshot is moved first, so its directory sync comes one step later. -/
theorem quarantineScreenshot_counted (hc : Counted s) {record : QueuedRecord} {reason : String}
    {fates : List Fate} (hnew : ∀ e ∈ s.metadata, e.id ≠ record.id)
    (hsync : fates.getD 3 .succeeds ≠ .fails)
    (hrunning : ((quarantineScreenshot record reason).exec fates s).2 ≠ .crashed) :
    Counted ((quarantineScreenshot record reason).exec fates s).1 := by
  have hlater : fates.tail.getD 2 .succeeds = fates.getD 3 .succeeds := by
    rcases fates with _ | ⟨_, _⟩ <;> rfl
  have hmetadata : (moveImage record.id s).metadata = s.metadata := by
    unfold moveImage
    split <;> rfl
  unfold quarantineScreenshot at hrunning ⊢
  rw [exec_attempt] at hrunning ⊢
  split at hrunning <;> try exact hc
  refine writeQuarantine_counted (counted_moveImage hc record.id) ?_ (by rw [hlater]; exact hsync)
    (fun s' hs' => ?_) hrunning
  · rw [hmetadata]
    exact hnew
  · exact meets_attempt hs' hs' (counted_deleteRecord hs' record.id)

/-! ## Restart -/

/-- After a restart every queued screenshot has its image, in the image directory or, once it is quarantined,
in the quarantine directory, and the image directory holds nothing else. -/
structure Recovered (s : QueueState) : Prop where
  images : ∀ r ∈ s.queue, HasImage s r.id
  referenced : ∀ id ∈ s.images, ∃ r ∈ s.queue, r.id = id
  partials : s.partials = []

/-- A start in progress from `s`: the rows are counted, and files have been unlinked. -/
structure Starting (s s' : QueueState) : Prop where
  stored : Stored s'
  down : s'.running = false
  queue : s'.queue = s.queue
  pending : s'.pending = s'.queue.length
  pendingStates : s'.pendingStates = s'.stateEvents.length
  pendingUsage : s'.pendingUsage = s'.usageEvents.length
  images : s'.images ⊆ s.images
  partials : s'.partials ⊆ s.partials

theorem startQueue_meets (h : Stored s) (hdown : s.running = false) :
    startQueue.Meets (fun e s' => Stored s' ∧ (e = .returned → Counted s' ∧ Recovered s') ∧
      (e ≠ .returned → s'.running = false)) s := by
  have hcut : ∀ (s' : QueueState) (e : Ending), Stored s' → s'.running = false → e ≠ .returned →
      Stored s' ∧ (e = .returned → Counted s' ∧ Recovered s') ∧ (e ≠ .returned → s'.running = false) :=
    fun s' e hs hd he => ⟨hs, fun hreturned => absurd hreturned he, fun _ => hd⟩
  have hstarting : Starting s (countRows s) :=
    ⟨stored_countRows h, hdown, rfl, rfl, rfl, rfl, List.Subset.refl _, List.Subset.refl _⟩
  refine meets_attempt (hcut _ _ h hdown (by simp)) (hcut _ _ h hdown (by simp)) ?_
  refine meets_each (G := fun i s' => i ∉ s'.images) (P := Starting s)
    (fun i s' => by simp [unlinkImage]) (fun i j s' hi => by simp [unlinkImage, hi]) _
    (fun s' hs' => ⟨hcut _ _ hs'.stored hs'.down (by simp), hcut _ _ hs'.stored hs'.down (by simp)⟩)
    ?_ ?_ hstarting
  · -- an unreferenced image is no row's
    intro i hi s' hs'
    have hfree : ∀ r ∈ s'.queue, r.id ≠ i := by
      intro r hr hid
      rw [hs'.queue] at hr
      have hunreferenced := (List.mem_filter.mp hi).2
      unfold unreferenced at hunreferenced
      rw [← hid, List.contains_iff_mem.mpr (List.mem_map_of_mem hr)] at hunreferenced
      cases hunreferenced
    exact ⟨stored_unlinkImage hs'.stored hfree, hs'.down, hs'.queue, hs'.pending, hs'.pendingStates,
      hs'.pendingUsage, fun j hj => hs'.images (List.mem_of_mem_filter hj), hs'.partials⟩
  · intro s1 hs1 hswept
    refine meets_each (G := fun i s' => i ∉ s'.partials)
      (P := fun s' => Starting s s' ∧ ∀ i ∈ s.images.filter (unreferenced s), i ∉ s'.images)
      (fun i s' => by simp [unlinkPartial]) (fun i j s' hi => by simp [unlinkPartial, hi]) _
      (fun s' hs' => ⟨hcut _ _ hs'.1.stored hs'.1.down (by simp),
        hcut _ _ hs'.1.stored hs'.1.down (by simp)⟩) ?_ ?_ ⟨hs1, hswept⟩
    · intro i _ s' hs'
      obtain ⟨hs', hgone⟩ := hs'
      exact ⟨⟨stored_unlinkPartial hs'.stored i, hs'.down, hs'.queue, hs'.pending, hs'.pendingStates,
        hs'.pendingUsage, hs'.images, fun j hj => hs'.partials (List.mem_of_mem_filter hj)⟩, hgone⟩
    · intro s2 hs2 hpartials
      obtain ⟨hs2, hgone⟩ := hs2
      refine meets_attempt (hcut _ _ hs2.stored hs2.down (by simp))
        (hcut _ _ hs2.stored hs2.down (by simp)) ?_
      have hstored := stored_countMetadata hs2.stored
      refine ⟨hstored, fun _ => ⟨⟨hs2.pending, hs2.pendingStates, hs2.pendingUsage, rfl⟩, ?_⟩,
        fun he => absurd rfl he⟩
      constructor
      · exact hstored.images
      · intro i hi
        by_contra hnone
        refine hgone i (List.mem_filter.mpr ⟨hs2.images hi, ?_⟩) hi
        unfold unreferenced
        rw [Bool.not_eq_true', ← Bool.not_eq_true]
        intro hcontains
        obtain ⟨r, hr, hid⟩ := List.mem_map.mp (List.contains_iff_mem.mp hcontains)
        refine hnone ⟨r, ?_, hid⟩
        show r ∈ s2.queue
        rw [hs2.queue]
        exact hr
      · refine List.eq_nil_iff_forall_not_mem.mpr fun i hi => ?_
        exact hpartials i (hs2.partials hi) hi

end

/-! ## Calls -/

/-- No quarantine file has the id. -/
def newEnvelope (s : QueueState) (id : Nat) : Bool := s.metadata.all (·.id != id)

/-- The calls that keep the order of the queue, the images and the counter of quarantined events: `add` at a
clock that has moved on, and a quarantine of an event not quarantined before, whose directory sync does not
fail and which leaves no queued screenshot's image in the quarantine directory without a quarantine file. -/
def soundCall (s : QueueState) (call : QueueCall) : Bool :=
  match call.op with
  | .add _ _ created _ => s.queue.all (·.createdAt < created)
  | .quarantineRecord record _ =>
    newEnvelope s record.id && call.fates.getD 3 .succeeds != .fails && !strandsImage s record.id call.fates
  | .quarantineState event _ => newEnvelope s event.id && call.fates.getD 2 .succeeds != .fails
  | .quarantineUsage event _ => newEnvelope s event.id && call.fates.getD 2 .succeeds != .fails
  | _ => true

/-- What holds between calls: the counters matter while the process runs. -/
structure QueueInvariant (s : QueueState) : Prop where
  stored : Stored s
  counted : s.running → Counted s

theorem queueInvariant_empty : QueueInvariant {} :=
  ⟨⟨⟨List.Pairwise.nil, nofun⟩, List.Pairwise.nil, List.Pairwise.nil, nofun, nofun⟩, nofun⟩

theorem stored_settle {r : QueueState × Ending} (h : Stored r.1) : Stored (settle r).1 := by
  unfold settle
  split
  · exact h.of_events rfl le_rfl rfl rfl rfl h.journal
  · exact h

theorem settle_snd (r : QueueState × Ending) : (settle r).2 = r.2 := by
  unfold settle
  split
  · next hcrash => exact hcrash.symm
  · rfl

/-- A call that does not crash leaves the counters as its program leaves them. -/
theorem counted_settle {r : QueueState × Ending} (h : r.2 ≠ .crashed → r.1.running → Counted r.1) :
    (settle r).1.running → Counted (settle r).1 := by
  unfold settle
  split
  · simp
  · next hcrash => exact h hcrash

/-- **What a call leaves.** The counters are the numbers of rows and quarantine files (if the process
runs); every journaled event is acknowledged, pending or quarantined, and no two quarantine files have
one id; `add` leaves the last `maxItems` screenshots; and after a start the image directory is in order. -/
structure QueueSound (maxItems : Nat) (s : QueueState) (call : QueueCall) : Prop where
  counters : (call.run maxItems s).1.running → Counted (call.run maxItems s).1
  journal : ∀ id ∈ (call.run maxItems s).1.journaled, Accounted (call.run maxItems s).1 id
  metadata : UniqueKey Envelope.id (call.run maxItems s).1.metadata
  trimmed : ∀ args now created tie, call.op = .add args now created tie →
    (call.run maxItems s).2 = .returned →
      TrimmedTo maxItems (s.queue ++ [addedRow s args now created]) (call.run maxItems s).1.queue
  recovered : call.op = .restart → (call.run maxItems s).2 = .returned →
    Recovered (call.run maxItems s).1

section

variable {s : QueueState} {maxItems : Nat} {call : QueueCall}

theorem mem_newEnvelope {id : Nat} (h : newEnvelope s id) : ∀ e ∈ s.metadata, e.id ≠ id := by
  intro e he
  simpa using List.all_eq_true.mp h e he

/-- The program of a method that runs, by method. -/
theorem program_sound (maxItems : Nat) (h : Stored s) (hc : Counted s) (hsound : soundCall s call)
    (hop : call.op ≠ .restart) :
    Stored ((call.op.program maxItems s).exec call.fates s).1 ∧
      (((call.op.program maxItems s).exec call.fates s).2 ≠ .crashed →
        Counted ((call.op.program maxItems s).exec call.fates s).1) := by
  obtain ⟨op, fates⟩ := call
  cases op with
  | add args now created tie =>
    have hlast : ∀ r ∈ s.queue, r.createdAt < created := by
      intro r hr
      simpa using List.all_eq_true.mp hsound r hr
    have hmet := exec_meets (addScreenshot_meets h hc maxItems args now hlast tie) fates
    exact ⟨hmet.1, fun _ => hmet.2.1⟩
  | acknowledge record =>
    have hmet := exec_meets (acknowledgeScreenshot_meets h hc record) fates
    exact ⟨hmet.1, fun _ => hmet.2⟩
  | addState args now created =>
    have hmet := exec_meets (addStateEvent_meets h hc args now created) fates
    exact ⟨hmet.1, fun _ => hmet.2⟩
  | acknowledgeState event =>
    have hmet := exec_meets (acknowledgeStateEvent_meets h hc event) fates
    exact ⟨hmet.1, fun _ => hmet.2⟩
  | addUsage activeApp activeUrl focusedSeconds observedAt now created =>
    have hmet := exec_meets
      (addUsageEvent_meets h hc activeApp activeUrl focusedSeconds observedAt now created) fates
    exact ⟨hmet.1, fun _ => hmet.2⟩
  | acknowledgeUsage event =>
    have hmet := exec_meets (acknowledgeUsageEvent_meets h hc event) fates
    exact ⟨hmet.1, fun _ => hmet.2⟩
  | quarantineRecord record reason =>
    obtain ⟨hcounts, hkept⟩ := Bool.and_eq_true_iff.mp hsound
    obtain ⟨hnew, hsync⟩ := Bool.and_eq_true_iff.mp hcounts
    exact ⟨quarantineScreenshot_stored h record reason (by simpa using hkept),
      quarantineScreenshot_counted hc (mem_newEnvelope hnew) (by simpa using hsync)⟩
  | quarantineState event reason =>
    obtain ⟨hnew, hsync⟩ := Bool.and_eq_true_iff.mp hsound
    exact ⟨exec_meets (quarantineStateEvent_stored h event reason) fates,
      quarantineStateEvent_counted hc (mem_newEnvelope hnew) (by simpa using hsync)⟩
  | quarantineUsage event reason =>
    obtain ⟨hnew, hsync⟩ := Bool.and_eq_true_iff.mp hsound
    exact ⟨exec_meets (quarantineUsageEvent_stored h event reason) fates,
      quarantineUsageEvent_counted hc (mem_newEnvelope hnew) (by simpa using hsync)⟩
  | restart => exact absurd rfl hop

theorem run_of_program (hop : call.op ≠ .restart) :
    call.run maxItems s =
      if s.running then settle ((call.op.program maxItems s).exec call.fates s) else (s, .raised) := by
  obtain ⟨op, fates⟩ := call
  cases op <;> first | rfl | exact absurd rfl hop

theorem run_of_restart (hop : call.op = .restart) :
    call.run maxItems s = settle (startQueue.exec call.fates { s with running := false }) := by
  obtain ⟨op, fates⟩ := call
  subst hop
  rfl

/-- The disk of a stopped process, from which a restart starts. -/
theorem stored_stopped (h : Stored s) : Stored { s with running := false } :=
  h.of_events rfl le_rfl rfl rfl rfl h.journal

/-- One call keeps the invariant. -/
theorem queueInvariant_run (maxItems : Nat) (h : QueueInvariant s) (hsound : soundCall s call) :
    QueueInvariant (call.run maxItems s).1 := by
  by_cases hop : call.op = .restart
  · rw [run_of_restart hop]
    have hmet := exec_meets (startQueue_meets (stored_stopped h.stored) rfl) call.fates
    obtain ⟨hstored, hreturned, hdown⟩ := hmet
    refine ⟨stored_settle hstored, counted_settle fun _ hrunning => (hreturned ?_).1⟩
    by_contra hended
    rw [hdown hended] at hrunning
    simp at hrunning
  · rw [run_of_program hop]
    by_cases hrunning : s.running = true
    · rw [if_pos hrunning]
      obtain ⟨hstored, hcounted⟩ := program_sound maxItems h.stored (h.counted hrunning) hsound hop
      exact ⟨stored_settle hstored, counted_settle fun hended _ => hcounted hended⟩
    · rw [if_neg hrunning]
      exact h

theorem queueSound_of_invariant (h : QueueInvariant s) (hsound : soundCall s call) :
    QueueSound maxItems s call := by
  have hinv := queueInvariant_run maxItems h hsound
  constructor
  · exact hinv.counted
  · exact hinv.stored.journal
  · exact hinv.stored.metadataIds
  · intro args now created tie hop hended
    have hstays : call.op ≠ .restart := by simp [hop]
    rw [run_of_program hstays] at hended ⊢
    split at hended
    · next hrunning =>
      rw [if_pos hrunning]
      have hlast : ∀ r ∈ s.queue, r.createdAt < created := by
        intro r hr
        unfold soundCall at hsound
        rw [hop] at hsound
        simpa using List.all_eq_true.mp hsound r hr
      rw [hop] at hended ⊢
      rw [settle_snd] at hended
      have hmet := exec_meets (addScreenshot_meets h.stored (h.counted hrunning) maxItems args now hlast
        tie) call.fates
      have hkept := hmet.2.2 hended
      unfold settle
      rw [if_neg (by rw [hended]; simp)]
      exact hkept
    · simp at hended
  · intro hop hended
    rw [run_of_restart hop] at hended ⊢
    have hmet := exec_meets (startQueue_meets (stored_stopped h.stored) rfl) call.fates
    rw [settle_snd] at hended
    have hrecovered := (hmet.2.1 hended).2
    unfold settle
    rw [if_neg (by rw [hended]; simp)]
    exact hrecovered

end

/-! ## Runs -/

/-- **The offline queue survives failures and crashes.** Whatever steps fail and wherever the process
crashes, in a run of calls that each keep the order of the queue, the images and the counter of quarantined events,
every call leaves the queue sound. -/
theorem queue_sound (maxItems : Nat) (calls : List QueueCall) (call : QueueCall)
    (hguard : Guarded (queueStep maxItems) (fun s call => soundCall s call) {} (calls ++ [call])) :
    QueueSound maxItems (Library.run (queueStep maxItems) {} calls) call := by
  obtain ⟨hcalls, hlast, _⟩ := Library.guarded_append.mp hguard
  refine queueSound_of_invariant ?_ hlast
  refine guarded_invariant QueueInvariant (fun s c hs hc => ?_) queueInvariant_empty hcalls
  exact queueInvariant_run maxItems hs hc

/-- The event that a first `addState` journals. -/
def journaledFirst : StateEvent where
  id := 0
  observedAt := minutes 10
  status := .active
  taskId := ""
  projectId := ""
  note := ""
  idleSeconds := 0
  heartbeatIntervalSeconds := 60
  transition := false

/-- The agent crashes between the quarantine file and the delete, and starts again. -/
theorem queue_sound_crashed :
    QueueSound 1 (Library.run (queueStep 1) {}
      [{ op := .restart },
       { op := .addState { status := some .active } (minutes 10) (minutes 10) },
       { op := .quarantineState journaledFirst "HTTP 422",
         fates := [.succeeds, .succeeds, .succeeds, .crashes] }]) { op := .restart } :=
  queue_sound 1 _ _ (by decide +kernel)

/-! ## A delete that fails -/

/-- The database is locked when the event is to leave its table. The quarantine file is there. -/
def deleteFails : List QueueCall :=
  [{ op := .restart },
   { op := .addState { status := some .active } (minutes 10) (minutes 10) },
   { op := .quarantineState journaledFirst "HTTP 422",
     fates := [.succeeds, .succeeds, .succeeds, .fails] }]

/-- When the event is quarantined again, its one file is counted twice. -/
theorem queue_miscounts :
    ¬ ∀ (maxItems : Nat) (calls : List QueueCall) (call : QueueCall),
      QueueSound maxItems (Library.run (queueStep maxItems) {} calls) call := by
  intro h
  have hsound := h 250 deleteFails { op := .quarantineState journaledFirst "HTTP 422" }
  have hcounted := (hsound.counters (by decide +kernel)).quarantined
  exact absurd hcounted (by decide +kernel)

end Dayfinch
