/-
# Dayfinch.Work.FieldFlush -- a pass over the queue of the field tracker makes progress

Whatever answers a pass gets and wherever it ends, it keeps account of every event it began with: the answered
ones come first, in order, each removed after a 2xx or rejected, and exactly the others are still pending
(`FlushAccounted`). A pass with an answer for every event leaves none pending exactly if no event blocks:
`flush_progress_iff`.
-/
import Dayfinch.Work.FieldPage

namespace Dayfinch

open Library (run Guarded guarded_invariant run_invariant UniqueKey)

/-! ## The property -/

/-- **A pass keeps account of the events it began with.** Those it has answered come first in the recorded
order, and exactly the others are pending; an answered event was removed after a 2xx, and is not among the
events rejected since, or it was rejected and is there. -/
structure FlushAccounted (queue : FieldQueue) (pass : FlushPass) : Prop where
  order : queue.pending = pass.answered.map (·.row) ++ pass.rows
  pending : ∀ row ∈ queue.events, row ∈ pass.events ↔ row ∈ pass.rows
  removed : ∀ a ∈ pass.answered, ∀ status, a.outcome = .removed status →
    (200 ≤ status ∧ status < 300) ∧ ∀ r ∈ pass.rejected, r.row.id = a.row.id → r ∈ queue.rejected
  rejected : ∀ a ∈ pass.answered, ∀ status reason, a.outcome = .rejected status reason →
    ⟨a.row, status, reason⟩ ∈ pass.rejected

/-! ## One turn -/

/-- What the page makes of a response that it can settle. -/
def RowEnd.Fits : RowEnd → Prop
  | .removed status => 200 ≤ status ∧ status < 300
  | .rejected _ _ => True

theorem settles_fits {response : FieldResponse} {outcome : RowEnd} (h : response.settles = some outcome) :
    outcome.Fits := by
  unfold FieldResponse.settles at h
  split at h
  · rename_i hok
    cases h
    unfold FieldResponse.ok at hok
    rw [Bool.and_eq_true, decide_eq_true_eq, decide_eq_true_eq] at hok
    exact hok
  · split at h
    · cases h
      trivial
    · cases h

section

variable {userId : Nat} {queue : FieldQueue} {pass : FlushPass}

/-- The invariant: the account, and where the rejected rows come from. -/
structure Account (queue : FieldQueue) (pass : FlushPass) : Prop where
  order : queue.pending = pass.answered.map (·.row) ++ pass.rows
  pending : ∀ row ∈ queue.events, row ∈ pass.events ↔ row ∈ pass.rows
  fits : ∀ a ∈ pass.answered, a.outcome.Fits
  rejected : ∀ a ∈ pass.answered, ∀ status reason, a.outcome = .rejected status reason →
    ⟨a.row, status, reason⟩ ∈ pass.rejected
  origin : ∀ r ∈ pass.rejected, r ∈ queue.rejected ∨
    ∃ a ∈ pass.answered, a.row = r.row ∧ a.outcome = .rejected r.responseStatus r.rejectionReason

/-- The rows of a pass have keys of their own. -/
theorem pending_keys (queue : FieldQueue) : (queue.pending.map (·.id)).Nodup :=
  ((List.perm_insertionSort _ queue.events).map fun row : FieldRow => row.id).nodup_iff.mpr queue.keys

theorem account_start (server : WebStore) (queue : FieldQueue) :
    Account queue (FlushPass.start server queue) where
  order := rfl
  pending := fun row _ => (Library.mem_orderBy).symm
  fits := by
    intro a ha
    cases ha
  rejected := by
    intro a ha
    cases ha
  origin := fun r hr => .inl hr

/-- A change of the server, and the end of the pass, leave the account. -/
theorem Account.of_server (h : Account queue pass) (server : WebStore) (ended : Bool) :
    Account queue { pass with server, ended } :=
  ⟨h.order, h.pending, h.fits, h.rejected, h.origin⟩

theorem Account.enqueue (h : Account queue pass) (new : FieldRow) : Account queue (pass.enqueue new) := by
  unfold FlushPass.enqueue
  split
  swap
  · exact h
  rename_i hfresh
  refine ⟨h.order, fun row hrow => ?_, h.fits, h.rejected, h.origin⟩
  have hne : row ≠ new := by
    rintro rfl
    have hknown : row ∈ pass.answered.map (·.row) ++ pass.rows := h.order ▸ Library.mem_orderBy.mpr hrow
    unfold FlushPass.isFresh at hfresh
    rw [Bool.not_eq_true', Bool.or_eq_false_iff, Bool.or_eq_false_iff, List.any_eq_false,
      List.any_eq_false] at hfresh
    rcases List.mem_append.mp hknown with hanswered | hwaiting
    · obtain ⟨a, ha, rfl⟩ := List.mem_map.mp hanswered
      simpa using List.any_eq_false.mp hfresh.2 a ha
    · simpa using hfresh.1.1 row ((h.pending row hrow).mpr hwaiting)
  show row ∈ pass.events ++ [new] ↔ row ∈ pass.rows
  rw [List.mem_append, List.mem_singleton, or_iff_left hne]
  exact h.pending row hrow

/-- What happens before a row is sent. -/
theorem Account.awaited (h : Account queue pass) (turn : Turn) : Account queue (pass.awaited turn) := by
  unfold FlushPass.awaited
  exact run_invariant (Account queue) (fun _ new hpass => Account.enqueue hpass new)
    (h.of_server _ pass.ended) turn.enqueued

/-- The head of the rows leaves the queue. -/
theorem Account.settle (h : Account queue pass) {row : FieldRow} {rest : List FieldRow}
    (hrows : pass.rows = row :: rest) {outcome : RowEnd} (hfits : outcome.Fits) :
    Account queue (pass.settle row outcome) := by
  have hkeys : ((pass.answered.map (·.row) ++ row :: rest).map (·.id)).Nodup := by
    rw [← hrows, ← h.order]
    exact pending_keys queue
  rw [List.map_append, List.map_cons, List.nodup_append] at hkeys
  obtain ⟨_, hwaiting, hapart⟩ := hkeys
  have hothers : ∀ a ∈ pass.answered, a.row.id ≠ row.id := fun a ha =>
    hapart a.row.id (List.mem_map_of_mem (List.mem_map_of_mem ha)) row.id List.mem_cons_self
  refine ⟨?_, ?_, ?_, ?_, ?_⟩
  · show _ = (pass.answered ++ [AnsweredRow.mk row outcome]).map (fun a => a.row) ++ pass.rows.tail
    rw [h.order, hrows, List.map_append, List.append_assoc]
    rfl
  · intro other hother
    show other ∈ pass.events.filter (·.id != row.id) ↔ other ∈ pass.rows.tail
    rw [List.mem_filter, h.pending other hother, hrows, bne_iff_ne, List.mem_cons, List.tail_cons]
    constructor
    · rintro ⟨rfl | hrest, hne⟩
      · exact absurd rfl hne
      · exact hrest
    · intro hrest
      refine ⟨.inr hrest, fun heq => ?_⟩
      exact (List.nodup_cons.mp hwaiting).1 (heq ▸ List.mem_map_of_mem hrest)
  · intro a ha
    rcases List.mem_append.mp ha with hold | hnew
    · exact h.fits a hold
    · rw [List.mem_singleton.mp hnew]
      exact hfits
  · intro a ha status reason houtcome
    rcases List.mem_append.mp ha with hold | hnew
    · have hkept := h.rejected a hold status reason houtcome
      cases outcome with
      | removed _ => exact hkept
      | rejected _ _ =>
        exact List.mem_append_left _ (List.mem_filter.mpr ⟨hkept, bne_iff_ne.mpr (hothers a hold)⟩)
    · rw [List.mem_singleton.mp hnew] at houtcome ⊢
      dsimp only at houtcome
      subst houtcome
      exact List.mem_append_right _ List.mem_cons_self
  · intro r hr
    have hold : r ∈ pass.rejected → r ∈ queue.rejected ∨ ∃ a ∈ pass.answered ++ [⟨row, outcome⟩],
        a.row = r.row ∧ a.outcome = .rejected r.responseStatus r.rejectionReason := by
      intro hmem
      refine (h.origin r hmem).imp_right ?_
      rintro ⟨a, ha, hsame⟩
      exact ⟨a, List.mem_append_left _ ha, hsame⟩
    cases outcome with
    | removed status => exact hold hr
    | rejected status reason =>
      rcases List.mem_append.mp hr with hkept | hnew
      · exact hold (List.mem_of_mem_filter hkept)
      · rw [List.mem_singleton.mp hnew]
        exact .inr ⟨_, List.mem_append_right _ List.mem_cons_self, rfl, rfl⟩

/-- How a row fares: it leaves the queue, or the pass ends at it. -/
theorem send_cases (userId : Nat) (pass : FlushPass) (turn : Turn) (row : FieldRow) :
    (∃ server, pass.send userId turn row = { pass with server, ended := true }) ∨
    ∃ server outcome, outcome.Fits ∧
      pass.send userId turn row = { pass with server }.settle row outcome := by
  unfold FlushPass.send
  cases row.body with
  | none => exact .inr ⟨pass.server, .rejected 0 _, trivial, rfl⟩
  | some body =>
    dsimp only
    cases turn.fate.fetch row.kind body turn.pick turn.now pass.server userId with
    | mk server response =>
      cases response with
      | none => exact .inl ⟨server, rfl⟩
      | some response =>
        dsimp only
        cases hsettles : response.settles with
        | none => exact .inl ⟨server, rfl⟩
        | some outcome => exact .inr ⟨server, outcome, settles_fits hsettles, rfl⟩

theorem foldl_enqueue (pass : FlushPass) (new : List FieldRow) :
    ∃ events, new.foldl FlushPass.enqueue pass = { pass with events } := by
  induction new generalizing pass with
  | nil => exact ⟨pass.events, rfl⟩
  | cons row new ih =>
    have hfirst : ∃ events, pass.enqueue row = { pass with events } := by
      unfold FlushPass.enqueue
      split
      · exact ⟨_, rfl⟩
      · exact ⟨pass.events, rfl⟩
    obtain ⟨events, hevents⟩ := hfirst
    obtain ⟨events', hevents'⟩ := ih (pass.enqueue row)
    refine ⟨events', ?_⟩
    rw [List.foldl_cons, hevents', hevents]

/-- Before a row is sent only the server and the stored events change. -/
theorem awaited_eq (pass : FlushPass) (turn : Turn) :
    ∃ events, pass.awaited turn =
      { pass with server := run WebStore.step pass.server turn.before, events } :=
  foldl_enqueue _ turn.enqueued

/-- **One turn** keeps the account. -/
theorem Account.step (h : Account queue pass) (turn : Turn) : Account queue (pass.step userId turn) := by
  unfold FlushPass.step
  split
  · exact h
  split
  · exact h
  · rename_i row rest hrows
    have hawaited := h.awaited turn
    have hhead : (pass.awaited turn).rows = row :: rest := by
      obtain ⟨events, heq⟩ := awaited_eq pass turn
      rw [heq]
      exact hrows
    rcases send_cases userId (pass.awaited turn) turn row with
      ⟨server, hsend⟩ | ⟨server, outcome, hfits, hsend⟩
    · rw [hsend]
      exact hawaited.of_server server true
    · rw [hsend]
      exact (hawaited.of_server server (pass.awaited turn).ended).settle hhead hfits

theorem Account.accounted (h : Account queue pass) : FlushAccounted queue pass := by
  refine ⟨h.order, h.pending, fun a ha status houtcome => ⟨?_, fun r hr hid => ?_⟩, h.rejected⟩
  · have hfits := h.fits a ha
    rw [houtcome] at hfits
    exact hfits
  · refine (h.origin r hr).resolve_right ?_
    rintro ⟨b, hb, hrow, hrejected⟩
    have hkeys : (pass.answered.map (·.row.id)).Nodup := by
      have hall := pending_keys queue
      rw [h.order, List.map_append, List.map_map] at hall
      exact (List.nodup_append.mp hall).1
    have hsame : a = b := List.inj_on_of_nodup_map hkeys ha hb (by rw [hrow, hid])
    rw [← hsame, houtcome] at hrejected
    cases hrejected

/-- A turn with a definitive answer: the row leaves the queue, unless its event blocks; then the pass ends. -/
theorem step_definitive {row : FieldRow} {rest : List FieldRow} (hended : pass.ended = false)
    (hrows : pass.rows = row :: rest) {turn : Turn} (hdefinitive : Definitive userId pass turn) :
    (Unblocked userId pass turn ∧ (pass.step userId turn).ended = false ∧
      (pass.step userId turn).rows = rest) ∨
    (¬ Unblocked userId pass turn ∧ (pass.step userId turn).ended = true ∧
      (pass.step userId turn).rows = row :: rest) := by
  obtain ⟨events, hawaited⟩ := awaited_eq pass turn
  have hstep : pass.step userId turn = (pass.awaited turn).send userId turn row := by
    unfold FlushPass.step
    rw [hended, hrows]
    rfl
  have hhead : pass.rows.head? = some row := by
    rw [hrows]
    rfl
  rw [hstep, hawaited]
  unfold FlushPass.send
  cases hbody : row.body with
  | none =>
    refine .inl ⟨fun _ other body hother hsome => ?_, hended, ?_⟩
    · rw [hhead] at hother
      cases hother
      rw [hbody] at hsome
      cases hsome
    · show pass.rows.tail = rest
      rw [hrows]
      rfl
  | some body =>
    obtain ⟨hfate, hanswer⟩ := hdefinitive hended row body hhead hbody
    have hsettles := serve_settles hanswer
    have hiff : Unblocked userId pass turn ↔
        body.blocks row.kind turn.now (run WebStore.step pass.server turn.before).db userId = false := by
      constructor
      · exact fun h => h hended row body hhead hbody
      · intro h _ other found hother hfound
        rw [hhead] at hother
        cases hother
        rw [hbody] at hfound
        cases hfound
        exact h
    rw [hiff, hfate]
    dsimp only [FetchFate.fetch]
    cases hblocks : body.blocks row.kind turn.now (run WebStore.step pass.server turn.before).db userId with
    | false =>
      rw [hblocks] at hsettles
      obtain ⟨outcome, houtcome⟩ := Option.isSome_iff_exists.mp hsettles
      rw [houtcome]
      refine .inl ⟨rfl, hended, ?_⟩
      show pass.rows.tail = rest
      rw [hrows]
      rfl
    | true =>
      rw [hblocks, Bool.not_true, Option.isSome_eq_false_iff, Option.isNone_iff_eq_none] at hsettles
      rw [hsettles]
      exact .inr ⟨by decide, rfl, hrows⟩

/-- A pass that has ended stays as it is. -/
theorem run_ended (hended : pass.ended = true) (turns : List Turn) :
    run (FlushPass.step userId) pass turns = pass := by
  induction turns with
  | nil => rfl
  | cons turn turns ih =>
    have hstep : pass.step userId turn = pass := by
      unfold FlushPass.step
      rw [if_pos hended]
    rw [Library.run_cons, hstep]
    exact ih

/-- A pass with nothing left to send stays as it is. -/
theorem run_done (hrows : pass.rows = []) (turns : List Turn) :
    run (FlushPass.step userId) pass turns = pass := by
  induction turns with
  | nil => rfl
  | cons turn turns ih =>
    have hstep : pass.step userId turn = pass := by
      unfold FlushPass.step
      rw [hrows]
      split <;> rfl
    rw [Library.run_cons, hstep]
    exact ih

/-- **A pass with a definitive answer for every row sends all of them exactly if none blocks.** -/
theorem run_rows_iff (turns : List Turn) (hended : pass.ended = false)
    (hdefinitive : Guarded (FlushPass.step userId) (Definitive userId) pass turns)
    (hlength : pass.rows.length ≤ turns.length) :
    (run (FlushPass.step userId) pass turns).rows = [] ↔
      Guarded (FlushPass.step userId) (Unblocked userId) pass turns := by
  induction turns generalizing pass with
  | nil => exact iff_of_true (List.length_eq_zero_iff.mp (Nat.le_zero.mp hlength)) trivial
  | cons turn turns ih =>
    obtain ⟨hfirst, hrest⟩ := hdefinitive
    cases hrows : pass.rows with
    | nil =>
      have hstep : pass.step userId turn = pass := run_done hrows [turn]
      rw [run_done hrows, hrows, Library.guarded_cons, hstep]
      rw [hstep] at hrest
      refine iff_of_true rfl ⟨fun _ row body hhead => ?_, ?_⟩
      · rw [hrows] at hhead
        cases hhead
      · refine (ih hended hrest (by rw [hrows]; exact Nat.zero_le _)).mp ?_
        rw [run_done hrows, hrows]
    | cons row rest =>
      rw [Library.run_cons, Library.guarded_cons]
      rcases step_definitive hended hrows hfirst with ⟨hgoes, hon, hleft⟩ | ⟨hblocks, hover, hleft⟩
      · have hshort : (pass.step userId turn).rows.length ≤ turns.length := by
          rw [hleft]
          rw [hrows] at hlength
          exact Nat.le_of_succ_le_succ hlength
        rw [ih hon hrest hshort]
        exact (and_iff_right hgoes).symm
      · rw [run_ended hover, hleft]
        exact iff_of_false (by simp) fun h => hblocks h.1

end

/-! ## Every pass -/

/-- **The queue makes progress.** Every pass keeps account of its events; and a pass in which every request is
answered definitively leaves none of them pending exactly if no event blocks. -/
theorem flush_progress_iff (userId : Nat) (server : WebStore) (queue : FieldQueue) (turns : List Turn) :
    FlushAccounted queue (run (FlushPass.step userId) (.start server queue) turns) ∧
    (Guarded (FlushPass.step userId) (Definitive userId) (.start server queue) turns →
      queue.events.length ≤ turns.length →
      ((∀ row ∈ queue.events, row ∉ (run (FlushPass.step userId) (.start server queue) turns).events) ↔
        Guarded (FlushPass.step userId) (Unblocked userId) (.start server queue) turns)) := by
  have haccount : Account queue (run (FlushPass.step userId) (.start server queue) turns) :=
    run_invariant (Account queue) (fun _ turn h => h.step turn) (account_start server queue) turns
  refine ⟨haccount.accounted, fun hdefinitive hlength => ?_⟩
  have hrows : (FlushPass.start server queue).rows.length ≤ turns.length := by
    show (List.insertionSort _ queue.events).length ≤ turns.length
    rwa [List.length_insertionSort]
  rw [← run_rows_iff turns rfl hdefinitive hrows]
  constructor
  · intro hnone
    refine List.eq_nil_iff_forall_not_mem.mpr fun row hrow => ?_
    have hevent : row ∈ queue.events := by
      have hpending : row ∈ queue.pending := haccount.order ▸ List.mem_append_right _ hrow
      exact Library.mem_orderBy.mp hpending
    exact hnone row hevent ((haccount.pending row hevent).mpr hrow)
  · intro hempty row hrow hpending
    have hmem := (haccount.pending row hrow).mp hpending
    rw [hempty] at hmem
    cases hmem

/-- A timer event of the page. -/
def fieldEvent (minute : Nat) (action : FieldAction) (projectId : Option Nat) : FieldRow where
  id := minute
  kind := .timer
  recordedAt := minutes minute
  body := some (.timer
    { eventId := minute
      observedAt := Datetime.ofInstant (minutes minute)
      action := action
      projectId := projectId
      taskId := none })

/-- A start and a stop, which the store lists the other way round. -/
def startAndStop (projectId : Nat) : FieldQueue where
  events := [fieldEvent 601 .stop none, fieldEvent 600 .start (some projectId)]
  rejected := []
  keys := by simp [UniqueKey, fieldEvent]

/-- The member of the office starts and stops the timer offline. -/
theorem flush_progress_iff_office :
    ∀ row ∈ (startAndStop 1).events,
      row ∉ (run (FlushPass.step 1) (.start (WebStore.start office) (startAndStop 1))
        [{ now := minutes 610 }, { now := minutes 610 }]).events := by
  refine ((flush_progress_iff 1 (WebStore.start office) (startAndStop 1)
    [{ now := minutes 610 }, { now := minutes 610 }]).2 ⟨?_, ?_, trivial⟩ (by decide)).mpr ⟨?_, ?_, trivial⟩
  · intro _ row body hrow hbody
    cases hrow
    cases hbody
    exact ⟨rfl, by decide +kernel⟩
  · intro _ row body hrow hbody
    cases hrow
    cases hbody
    exact ⟨rfl, by decide +kernel⟩
  · intro _ row body hrow hbody
    cases hrow
    cases hbody
    decide +kernel
  · intro _ row body hrow hbody
    cases hrow
    cases hbody
    decide +kernel

/-- A start of a project that is not assigned is refused for good, and both events stay pending. -/
theorem flush_unassigned :
    ¬ ∀ (userId : Nat) (server : WebStore) (queue : FieldQueue) (turns : List Turn),
      Guarded (FlushPass.step userId) (Definitive userId) (.start server queue) turns →
      queue.events.length ≤ turns.length →
      ∀ row ∈ queue.events, row ∉ (run (FlushPass.step userId) (.start server queue) turns).events := by
  intro h
  have hgone := h 1 (WebStore.start office) (startAndStop 2) [{ now := minutes 610 }, { now := minutes 610 }]
    ⟨?_, ?_, trivial⟩ (by decide) (fieldEvent 601 .stop none) List.mem_cons_self
  · have hstays : fieldEvent 601 .stop none ∈ (run (FlushPass.step 1)
        (.start (WebStore.start office) (startAndStop 2)) [{ now := minutes 610 }, { now := minutes 610 }]).events :=
      List.mem_cons_self
    exact hgone hstays
  · intro _ row body hrow hbody
    cases hrow
    cases hbody
    exact ⟨rfl, by decide +kernel⟩
  · intro hended
    exact absurd hended (by decide +kernel)

end Dayfinch
