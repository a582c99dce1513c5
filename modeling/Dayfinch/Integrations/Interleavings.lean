/-
# Dayfinch.Integrations.Interleavings -- staging while the sources change

`stage_due_jira_worklogs` is a transaction of several statements at READ COMMITTED, and segments and manual
entries are changed by other transactions meanwhile. The statement that stages the days of a connection takes a
snapshot, then comes to the dirty rows of it one after the other: a row that another transaction has written or
locked is skipped, a row that is gone is left, and any other is locked, in the version that is committed by
then. It sums the snapshot, and deletes the rows it has locked.

So a change that commits after the snapshot and before its dirty row is locked is not in the sum, and its mark
is deleted. `StagingOp.locksCurrent` excludes this: a row is locked only while the snapshot has the day's
seconds. After the lock nothing can go wrong, since a change of the day would have to write the locked row.
-/
import Dayfinch.Integrations.Staging

namespace Dayfinch

open Library (updateWhere Ensures Fresh mem_updateWhere_cases orderBy mem_orderBy run Guarded
  guarded_invariant)

/-! ## Transactions -/

/-- A transaction that changes segments or manual entries, with the dirty rows that it has written. Nobody sees
its writes before it commits, and they are given then. -/
structure SourceTransaction where
  id : Nat
  marked : List WorklogDay
  deriving DecidableEq, Repr

/-- The statement that stages a connection: `candidates` are the rows of the snapshot that it has not come to,
and `selected` are those it has locked. -/
structure StagingStatement where
  connection : WorklogConnection
  snapshot : WorklogStore
  candidates : List DirtyDay
  selected : List WorklogDay
  deriving DecidableEq, Repr

/-- A transaction of the stager: the connections it has locked and not come to, the statement it executes, and
those that have ended, with the next time of their connections. -/
structure StagingTransaction where
  id : Nat
  observedAt : Int
  dayLimit : Nat
  todo : List WorklogConnection
  statement : Option StagingStatement
  finished : List (StagingStatement × Int)
  staged : Nat
  deriving DecidableEq, Repr

/-- What is committed, and the transactions under way. -/
structure StagingSystem where
  store : WorklogStore
  sources : List SourceTransaction := []
  stagers : List StagingTransaction := []
  deriving DecidableEq, Repr

/-- A step of a transaction. -/
inductive StagingOp
  | beginSource (id : Nat)
  | mark (id : Nat) (days : List WorklogDay)
  | commitSource (id : Nat) (changes : List SourceChange) (now : Int)
  | abortSource (id : Nat)
  | beginStaging (id : Nat) (observedAt : Int) (connectionLimit dayLimit : Nat)
  | snapshot (id : Nat)
  | lockNext (id : Nat)
  | finish (id : Nat)
  | commitStaging (id : Nat)
  | abortStaging (id : Nat)

namespace StagingTransaction

/-- The statements that hold locks. -/
def statements (t : StagingTransaction) : List StagingStatement :=
  t.statement.toList ++ t.finished.map (·.1)

/-- The transaction has locked the row of the day. -/
def holds (t : StagingTransaction) (day : WorklogDay) : Bool :=
  t.statements.any (·.selected.contains day)

/-- The transaction has locked the connection. -/
def holdsConnection (t : StagingTransaction) (c : WorklogConnection) : Bool :=
  (t.todo ++ t.statements.map (·.connection)).any (·.isOf c.integrationId c.userId)

end StagingTransaction

/-! ## The statement -/

/-- The dirty rows of a connection that are due, in the order of the query. -/
def WorklogStore.dueDays (s : WorklogStore) (observedAt : Int) (c : WorklogConnection) : List DirtyDay :=
  orderBy (fun d => toLex (d.workDate, d.changedAt)) (·.taskId)
    (s.dirtyDays.filter fun d =>
      d.integrationId == c.integrationId && d.userId == c.userId &&
        c.timeSyncMode.isDue observedAt d.workDate)

namespace StagingStatement

/-- The exports after the statement: the sums are those of the snapshot. -/
def stage (st : StagingStatement) (observedAt : Int) (store : WorklogStore) :
    Except Error (WorklogStore × Nat) :=
  st.selected.foldlM (WorklogStore.stageDay observedAt st.connection.accountId)
    ({ st.snapshot with exports := store.exports, nextId := store.nextId }, 0)

/-- When the connection is staged next; `left` are the rows that stay. -/
def next (st : StagingStatement) (observedAt : Int) (left : WorklogStore) : Int :=
  if left.hasRemaining observedAt st.connection then observedAt
  else if st.connection.timeSyncMode = .hourly then observedAt + minutes 60
  else startOfDay (dateOf observedAt) + days 1

/-- The statement's writes are committed. -/
def commit (observedAt : Int) (store : WorklogStore) (finished : StagingStatement × Int) :
    Except Error WorklogStore := do
  let (st, next) := finished
  let (exports, _) ← st.stage observedAt store
  return { store with
    exports := exports.exports
    nextId := exports.nextId
    dirtyDays := store.dirtyDays.filter fun d => !st.selected.contains d.day
    connections := updateWhere (·.isOf st.connection.integrationId st.connection.userId)
      (fun c => { c with nextWorklogSyncAt := next }) store.connections }

end StagingStatement

namespace StagingSystem

/-- A transaction other than this one of the stager has written or locked the row of the day. -/
def lockedByOthers (s : StagingSystem) (t : StagingTransaction) (day : WorklogDay) : Bool :=
  s.sources.any (·.marked.contains day) || s.stagers.any fun u => u.id != t.id && u.holds day

/-- `FOR UPDATE OF d SKIP LOCKED LIMIT ..`: the statement locks the row. -/
def takes (s : StagingSystem) (t : StagingTransaction) (st : StagingStatement) (d : DirtyDay) : Bool :=
  st.selected.length < t.dayLimit && s.store.dirtyDays.any (·.day == d.day) && !s.lockedByOthers t d.day

/-- The statement of the next connection begins; it sees what its own transaction has done. -/
def beginStatement (s : StagingSystem) (t : StagingTransaction) : StagingTransaction :=
  match t.statement, t.todo with
  | none, c :: rest =>
    { t with
      todo := rest
      statement := some
        { connection := c, snapshot := s.store, selected := []
          candidates := (s.store.dueDays t.observedAt c).filter fun d => !t.holds d.day } }
  | _, _ => t

/-- The statement comes to the next row. -/
def lockRow (s : StagingSystem) (t : StagingTransaction) : StagingTransaction :=
  match t.statement with
  | none => t
  | some st =>
    match st.candidates with
    | [] => t
    | d :: rest =>
      { t with
        statement := some { st with
          candidates := rest
          selected := if s.takes t st d then st.selected ++ [d.day] else st.selected } }

/-- The statement ends, and the connection gets its next time; `none` is an error. -/
def endStatement (s : StagingSystem) (t : StagingTransaction) : Option StagingTransaction :=
  match t.statement with
  | none => some t
  | some st =>
    if st.candidates = [] then
      match st.stage t.observedAt s.store with
      | .error _ => none
      | .ok (_, staged) =>
        let left := { s.store with dirtyDays := s.store.dirtyDays.filter fun d => !t.holds d.day }
        some { t with
          statement := none
          finished := t.finished ++ [(st, st.next t.observedAt left)]
          staged := t.staged + staged }
    else some t

/-- A transaction of the sources commits; its writes to dirty rows become visible with the others. The rows
that it has written are locked, so that it has marked what these writes mark. -/
def commitChanges (jira : Nat → Option Nat) (s : StagingSystem) (w : SourceTransaction)
    (changes : List SourceChange) (now : Int) : StagingSystem :=
  let sources := s.sources.filter (·.id != w.id)
  match changes.foldlM (SourceChange.apply jira now) { s.store with dirtyDays := [] } with
  | .error _ => { s with sources }
  | .ok written =>
    if written.dirtyDays.all fun d => w.marked.contains d.day then
      { s with
        store := written.dirtyDays.foldl (fun store d => store.markDay d.changedAt d.day)
          { written with dirtyDays := s.store.dirtyDays }
        sources }
    else s

/-- A transaction of the stager commits. -/
def commitStager (s : StagingSystem) (t : StagingTransaction) : StagingSystem :=
  let stagers := s.stagers.filter (·.id != t.id)
  if t.todo = [] ∧ t.statement = none then
    match t.finished.foldlM (StagingStatement.commit t.observedAt) s.store with
    | .error _ => { s with stagers }
    | .ok store => { s with store, stagers }
  else s

/-- One step. A step that would have to wait for a lock does nothing. -/
def step (jira : Nat → Option Nat) (s : StagingSystem) : StagingOp → StagingSystem
  | .beginSource id =>
    if s.sources.any (·.id == id) then s else { s with sources := s.sources ++ [{ id, marked := [] }] }
  | .mark id days =>
    if days.any fun day => s.stagers.any (·.holds day) ||
        s.sources.any fun w => w.id != id && w.marked.contains day then s
    else { s with
      sources := updateWhere (·.id == id) (fun w => { w with marked := w.marked ++ days }) s.sources }
  | .commitSource id changes now =>
    match s.sources.find? (·.id == id) with
    | none => s
    | some w => s.commitChanges jira w changes now
  | .abortSource id => { s with sources := s.sources.filter (·.id != id) }
  | .beginStaging id observedAt connectionLimit dayLimit =>
    if s.stagers.any (·.id == id) ∨ ¬ (1 ≤ connectionLimit ∧ connectionLimit ≤ 100) ∨
        ¬ (1 ≤ dayLimit ∧ dayLimit ≤ 1000) then s
    else
      let unlocked := { s.store with
        connections := s.store.connections.filter fun c => !s.stagers.any (·.holdsConnection c) }
      { s with
        stagers := s.stagers ++
          [{ id, observedAt, dayLimit, todo := unlocked.dueConnections observedAt connectionLimit
             statement := none, finished := [], staged := 0 }] }
  | .snapshot id => { s with stagers := updateWhere (·.id == id) s.beginStatement s.stagers }
  | .lockNext id => { s with stagers := updateWhere (·.id == id) s.lockRow s.stagers }
  | .finish id =>
    { s with
      stagers := s.stagers.filterMap fun t => if t.id = id then s.endStatement t else some t }
  | .commitStaging id =>
    match s.stagers.find? (·.id == id) with
    | none => s
    | some t => s.commitStager t
  | .abortStaging id => { s with stagers := s.stagers.filter (·.id != id) }

end StagingSystem

/-! ## The property and the condition -/

/-- **The property**: when all transactions have ended, each day of the connection is dirty, or its export has
what is tracked, as far as an export can take it. -/
def LosesNothing (jira : Nat → Option Nat) (integrationId userId : Nat) (accountId : String)
    (s : StagingSystem) : Prop :=
  s.sources = [] → s.stagers = [] → ∀ day, OfConnection jira integrationId userId day →
    s.store.IsDirty day ∨ s.store.desiredOn day = min (s.store.trackedOn accountId day) maxDesiredSeconds

/-- **The condition**: when a row is locked, the day has the seconds that it has in the snapshot. -/
def StagingOp.locksCurrent (s : StagingSystem) : StagingOp → Bool
  | .lockNext id => s.stagers.all fun t => t.id != id || t.statement.all fun st => st.candidates.head?.all
      fun d => !s.takes t st d || s.store.trackedOn st.connection.accountId d.day ==
        st.snapshot.trackedOn st.connection.accountId d.day
  | _ => true

/-! ## What a statement writes -/

section

variable {jira : Nat → Option Nat} {integrationId userId : Nat} {accountId : String}
variable {store store' : WorklogStore}

/-- Days that are not staged keep their exports. -/
theorem stageDays_others {observedAt : Int} {connected : String} (days : List WorklogDay)
    {s : WorklogStore} {staged : Nat} :
    Ensures (days.foldlM (WorklogStore.stageDay observedAt connected) (s, staged)) fun r =>
      ∀ other, other ∉ days → r.1.desiredOn other = s.desiredOn other := by
  induction days generalizing s staged with
  | nil =>
    rw [List.foldlM_nil, Library.ensures_pure]
    exact fun _ _ => rfl
  | cons first rest ih =>
    rw [List.foldlM_cons]
    refine stageDay_ensures.bind ?_
    rintro ⟨s₁, staged₁⟩ ⟨_, hothers, _, _⟩
    refine ih.mono fun r hr other hother => ?_
    rw [List.mem_cons, not_or] at hother
    rw [hr other hother.2, hothers other hother.1]

/-- What a statement of the stager may rely on, for one connection: its rows are the connection's, and the days
it has locked have in the snapshot what is tracked. -/
structure StatementSound (jira : Nat → Option Nat) (integrationId userId : Nat) (accountId : String)
    (store : WorklogStore) (st : StagingStatement) : Prop where
  account : st.connection.isOf integrationId userId → st.connection.accountId = accountId
  candidates : ∀ d ∈ st.candidates, st.connection.isOf d.integrationId d.userId
  selected : ∀ day ∈ st.selected, st.connection.isOf day.integrationId day.userId
  current : ∀ day ∈ st.selected, OfConnection jira integrationId userId day →
    st.snapshot.trackedOn accountId day = store.trackedOn accountId day

/-- The statement relies on what is tracked on the days that it has locked, and on nothing else. -/
theorem StatementSound.of_store {st : StagingStatement}
    (h : StatementSound jira integrationId userId accountId store st)
    (htracked : ∀ day ∈ st.selected, OfConnection jira integrationId userId day →
      store'.trackedOn accountId day = store.trackedOn accountId day) :
    StatementSound jira integrationId userId accountId store' st where
  account := h.account
  candidates := h.candidates
  selected := h.selected
  current day hday hon := (h.current day hday hon).trans (htracked day hday hon).symm

/-- **A statement's writes keep the invariant and the sources**: the days whose marks go have their sums. -/
theorem StatementSound.commit_ensures {st : StagingStatement} {observedAt next : Int}
    (h : StatementSound jira integrationId userId accountId store st)
    (hstore : StagingInvariant jira integrationId userId accountId store) :
    Ensures (StagingStatement.commit observedAt store (st, next)) fun r =>
      StagingInvariant jira integrationId userId accountId r ∧
        ∀ day, r.trackedOn accountId day = store.trackedOn accountId day := by
  unfold StagingStatement.commit
  dsimp only
  have hdays : Ensures (st.stage observedAt store) fun r => DaysStaged integrationId userId accountId st.selected
      { st.snapshot with exports := store.exports, nextId := store.nextId } r.1 :=
    stageDays_ensures hstore.owned fun day hday hi hu => h.account (by
      have hown := h.selected day hday
      rw [hi, hu] at hown
      exact hown)
  have hothers : Ensures (st.stage observedAt store) fun r => ∀ other, other ∉ st.selected →
      r.1.desiredOn other =
        WorklogStore.desiredOn { st.snapshot with exports := store.exports, nextId := store.nextId } other :=
    stageDays_others st.selected
  intro r hr
  obtain ⟨exports, hexports, hr⟩ := Library.bind_eq_ok.mp hr
  obtain rfl := Except.ok.inj hr
  have hstaged := hdays exports hexports
  have hkept := hothers exports hexports
  refine ⟨⟨hstore.sessions, fun c hc hof => ?_, hstaged.owned, fun day hon hclean => ?_⟩, fun _ => rfl⟩
  · rcases mem_updateWhere_cases hc with ⟨hold, _⟩ | ⟨old, hold, _, rfl⟩
    · exact hstore.account c hold hof
    · exact hstore.account old hold hof
  · show exports.1.desiredOn day = min (store.trackedOn accountId day) maxDesiredSeconds
    by_cases hselected : day ∈ st.selected
    · have hsum : exports.1.desiredOn day = min (st.snapshot.trackedOn accountId day) maxDesiredSeconds :=
        hstaged.done day hselected hon.1 hon.2.1
      rw [hsum, h.current day hselected hon]
    · have hsame : exports.1.desiredOn day = store.desiredOn day := hkept day hselected
      rw [hsame]
      refine hstore.fresh day hon fun ⟨d, hd, hday⟩ => hclean ⟨d, List.mem_filter.mpr ⟨hd, ?_⟩, hday⟩
      rw [hday, Bool.not_eq_true', List.contains_eq_mem, decide_eq_false_iff_not]
      exact hselected

/-- All statements of a transaction. -/
theorem commitStatements_ensures {observedAt : Int} {finished : List (StagingStatement × Int)}
    (hstore : StagingInvariant jira integrationId userId accountId store)
    (h : ∀ f ∈ finished, StatementSound jira integrationId userId accountId store f.1) :
    Ensures (finished.foldlM (StagingStatement.commit observedAt) store) fun r =>
      StagingInvariant jira integrationId userId accountId r ∧
        ∀ day, r.trackedOn accountId day = store.trackedOn accountId day := by
  induction finished generalizing store with
  | nil =>
    rw [List.foldlM_nil, Library.ensures_pure]
    exact ⟨hstore, fun _ => rfl⟩
  | cons first rest ih =>
    rw [List.foldlM_cons]
    refine ((h first List.mem_cons_self).commit_ensures hstore).bind fun store₁ h₁ => ?_
    obtain ⟨hstore₁, htracked⟩ := h₁
    refine (ih hstore₁ fun f hf => ?_).mono fun r hr => ?_
    · exact (h f (List.mem_cons_of_mem first hf)).of_store fun day _ _ => htracked day
    · exact ⟨hr.1, fun day => (hr.2 day).trans (htracked day)⟩

/-! ## What a transaction of the sources writes -/

/-- Marks that become visible. -/
theorem absorbed_marks (dirtyDays : List DirtyDay) (s : WorklogStore) :
    Marks s (dirtyDays.foldl (fun store d => store.markDay d.changedAt d.day) s) ∧
      ∀ d ∈ dirtyDays, (dirtyDays.foldl (fun store d => store.markDay d.changedAt d.day) s).IsDirty d.day := by
  induction dirtyDays generalizing s with
  | nil => exact ⟨.refl s, fun _ h => (nomatch h)⟩
  | cons first rest ih =>
    obtain ⟨hmarks, hdirty⟩ := ih (s.markDay first.changedAt first.day)
    refine ⟨(markDay_marks first.day).trans hmarks, fun d hd => ?_⟩
    rcases List.mem_cons.mp hd with rfl | hrest
    · exact hmarks.2 _ ((markDay_isDirty _ _).mpr (.inr rfl))
    · exact hdirty d hrest

/-- **Changes that commit mark the days that they change**, and these are days whose rows the transaction has
written. -/
theorem absorb_change {changes : List SourceChange} {now : Int} {written : WorklogStore}
    (happly : changes.foldlM (SourceChange.apply jira now) { store with dirtyDays := [] } = .ok written) :
    SourcesChange jira store (written.dirtyDays.foldl (fun store d => store.markDay d.changedAt d.day)
        { written with dirtyDays := store.dirtyDays }) ∧
      (store.HasSessions → ∀ accountId day, jira day.taskId = some day.integrationId →
        (∀ d ∈ written.dirtyDays, d.day ≠ day) →
        written.trackedOn accountId day = store.trackedOn accountId day) := by
  have hchange := transaction_ensures changes written happly
  have hunmarked : store.HasSessions → ∀ accountId day, jira day.taskId = some day.integrationId →
      (∀ d ∈ written.dirtyDays, d.day ≠ day) →
      written.trackedOn accountId day = store.trackedOn accountId day := by
    intro hs accountId day hjira hnone
    by_contra hne
    obtain ⟨d, hd, hday⟩ := hchange.marks hs accountId day hjira hne
    exact hnone d hd hday
  refine ⟨?_, hunmarked⟩
  obtain ⟨⟨⟨dirtyDays, heq⟩, hkeeps⟩, hdirty⟩ :=
    absorbed_marks written.dirtyDays { written with dirtyDays := store.dirtyDays }
  rw [heq] at hkeeps hdirty ⊢
  refine ⟨hchange.exports, hchange.connections, hchange.periods, hchange.sessions, hkeeps, ?_⟩
  intro hs accountId day hjira hne
  by_contra hclean
  refine hne (hunmarked hs accountId day hjira fun d hd hday => hclean ?_)
  rw [← hday]
  exact hdirty d hd

end

/-! ## The invariant -/

/-- The committed store is as it should be, each statement may rely on what it relies on, and no transaction of
the sources has written a row that the stager has locked. -/
structure StagingSound (jira : Nat → Option Nat) (integrationId userId : Nat) (accountId : String)
    (s : StagingSystem) : Prop where
  store : StagingInvariant jira integrationId userId accountId s.store
  todo : ∀ t ∈ s.stagers, ∀ c ∈ t.todo, c.isOf integrationId userId → c.accountId = accountId
  statements : ∀ t ∈ s.stagers, ∀ st ∈ t.statements,
    StatementSound jira integrationId userId accountId s.store st
  apart : ∀ t ∈ s.stagers, ∀ day, t.holds day = true → ∀ w ∈ s.sources, w.marked.contains day = false

theorem StagingTransaction.holds_iff {t : StagingTransaction} {day : WorklogDay} :
    t.holds day = true ↔ ∃ st ∈ t.statements, day ∈ st.selected := by
  unfold StagingTransaction.holds
  simp only [List.any_eq_true, List.contains_iff_mem]

namespace StagingSound

variable {jira : Nat → Option Nat} {integrationId userId : Nat} {accountId : String} {s : StagingSystem}

/-- Transactions that are gone. -/
theorem sublist (h : StagingSound jira integrationId userId accountId s)
    {sources : List SourceTransaction} {stagers : List StagingTransaction}
    (hsources : ∀ w ∈ sources, w ∈ s.sources) (hstagers : ∀ t ∈ stagers, t ∈ s.stagers) :
    StagingSound jira integrationId userId accountId { s with sources, stagers } where
  store := h.store
  todo t ht := h.todo t (hstagers t ht)
  statements t ht := h.statements t (hstagers t ht)
  apart t ht day hday w hw := h.apart t (hstagers t ht) day hday w (hsources w hw)

/-- Another store, in which the days that are locked have the same seconds. -/
theorem of_store (h : StagingSound jira integrationId userId accountId s) {store : WorklogStore}
    (hstore : StagingInvariant jira integrationId userId accountId store)
    (htracked : ∀ t ∈ s.stagers, ∀ day, t.holds day = true → OfConnection jira integrationId userId day →
      store.trackedOn accountId day = s.store.trackedOn accountId day) :
    StagingSound jira integrationId userId accountId { s with store } where
  store := hstore
  todo := h.todo
  statements t ht st hst := (h.statements t ht st hst).of_store fun day hday hon =>
    htracked t ht day (StagingTransaction.holds_iff.mpr ⟨st, hst, hday⟩) hon
  apart := h.apart

/-- A transaction of the stager goes on. -/
theorem setStagers (h : StagingSound jira integrationId userId accountId s)
    {stagers : List StagingTransaction}
    (htodo : ∀ t ∈ stagers, ∀ c ∈ t.todo, c.isOf integrationId userId → c.accountId = accountId)
    (hstatements : ∀ t ∈ stagers, ∀ st ∈ t.statements,
      StatementSound jira integrationId userId accountId s.store st ∧
        ∀ day ∈ st.selected, ∀ w ∈ s.sources, w.marked.contains day = false) :
    StagingSound jira integrationId userId accountId { s with stagers } where
  store := h.store
  todo := htodo
  statements t ht st hst := (hstatements t ht st hst).1
  apart t ht day hday w hw := by
    obtain ⟨st, hst, hselected⟩ := StagingTransaction.holds_iff.mp hday
    exact (hstatements t ht st hst).2 day hselected w hw

/-- What is known of the statements of a transaction of the stager. -/
theorem statement (h : StagingSound jira integrationId userId accountId s) {t : StagingTransaction}
    (ht : t ∈ s.stagers) {st : StagingStatement} (hst : st ∈ t.statements) :
    StatementSound jira integrationId userId accountId s.store st ∧
      ∀ day ∈ st.selected, ∀ w ∈ s.sources, w.marked.contains day = false :=
  ⟨h.statements t ht st hst, fun day hday =>
    h.apart t ht day (StagingTransaction.holds_iff.mpr ⟨st, hst, hday⟩)⟩

/-- Marks are written to rows that the stager has not locked. -/
theorem mark (h : StagingSound jira integrationId userId accountId s) (id : Nat) (days : List WorklogDay)
    (hfree : ∀ day ∈ days, ∀ t ∈ s.stagers, t.holds day = false) :
    StagingSound jira integrationId userId accountId
      { s with
        sources := updateWhere (·.id == id) (fun w => { w with marked := w.marked ++ days }) s.sources } where
  store := h.store
  todo := h.todo
  statements := h.statements
  apart t ht day hday w hw := by
    rcases mem_updateWhere_cases hw with ⟨hold, _⟩ | ⟨old, hold, _, rfl⟩
    · exact h.apart t ht day hday w hold
    · have hnew : days.contains day = false := by
        by_contra hin
        have hheld := hfree day (by simpa using hin) t ht
        rw [hheld] at hday
        cases hday
      show (old.marked ++ days).contains day = false
      rw [List.contains_append, h.apart t ht day hday old hold, hnew]
      rfl

/-- **Changes commit**: they change no day that the stager has locked. -/
theorem commitChanges (h : StagingSound jira integrationId userId accountId s) {w : SourceTransaction}
    (hw : w ∈ s.sources) (changes : List SourceChange) (now : Int) :
    StagingSound jira integrationId userId accountId (s.commitChanges jira w changes now) := by
  unfold StagingSystem.commitChanges
  dsimp only
  split
  · exact h.sublist (fun _ hw' => List.mem_of_mem_filter hw') fun _ ht => ht
  · rename_i written happly
    split
    · rename_i hmarked
      obtain ⟨hchange, hunmarked⟩ := absorb_change happly
      have hstore := h.of_store (h.store.of_change hchange) fun t ht day hday hon => ?_
      · exact hstore.sublist (fun _ hw' => List.mem_of_mem_filter hw') fun _ ht => ht
      · have hnone : ∀ d ∈ written.dirtyDays, d.day ≠ day := by
          rintro d hd rfl
          have hown := List.all_eq_true.mp hmarked d hd
          rw [h.apart t ht d.day hday w hw] at hown
          cases hown
        obtain ⟨⟨⟨dirtyDays, heq⟩, _⟩, _⟩ :=
          absorbed_marks written.dirtyDays { written with dirtyDays := s.store.dirtyDays }
        rw [heq]
        exact hunmarked h.store.sessions accountId day (hon.1 ▸ hon.2.2) hnone
    · exact h

/-- A pass of the stager begins. -/
theorem beginStaging (h : StagingSound jira integrationId userId accountId s) (id : Nat)
    (observedAt : Int) (connectionLimit dayLimit : Nat) :
    StagingSound jira integrationId userId accountId
      (s.step jira (.beginStaging id observedAt connectionLimit dayLimit)) := by
  unfold StagingSystem.step
  dsimp only
  split
  · exact h
  · refine h.setStagers (fun t ht c hc hof => ?_) fun t ht st hst => ?_
    · rcases List.mem_append.mp ht with hold | hnew
      · exact h.todo t hold c hc hof
      · rw [List.mem_singleton.mp hnew] at hc
        have hdue := List.mem_of_mem_filter (mem_orderBy.mp (List.mem_of_mem_take hc))
        exact h.store.account c (List.mem_of_mem_filter hdue) hof
    · rcases List.mem_append.mp ht with hold | hnew
      · exact h.statement hold hst
      · rw [List.mem_singleton.mp hnew] at hst
        cases hst

/-- A statement begins, with nothing locked. -/
theorem snapshot (h : StagingSound jira integrationId userId accountId s) (id : Nat) :
    StagingSound jira integrationId userId accountId (s.step jira (.snapshot id)) := by
  have hbegin : ∀ t ∈ s.stagers,
      (∀ c ∈ (s.beginStatement t).todo, c ∈ t.todo) ∧ ∀ st ∈ (s.beginStatement t).statements,
        st ∈ t.statements ∨ st.selected = [] ∧ st.connection ∈ t.todo ∧
          ∀ d ∈ st.candidates, st.connection.isOf d.integrationId d.userId := by
    intro t _
    unfold StagingSystem.beginStatement
    split
    · rename_i c rest hnone htodo
      refine ⟨fun c' hc' => ?_, fun st hst => ?_⟩
      · rw [htodo]
        exact List.mem_cons_of_mem c hc'
      · rcases List.mem_cons.mp hst with rfl | hfinished
        · refine .inr ⟨rfl, ?_, fun d hd => ?_⟩
          · rw [htodo]
            exact List.mem_cons_self
          · have hdue := (List.mem_filter.mp (mem_orderBy.mp (List.mem_of_mem_filter hd))).2
            simp only [Bool.and_eq_true, beq_iff_eq] at hdue
            simp [UserConnection.isOf, hdue.1.1, hdue.1.2]
        · exact .inl (List.mem_append_right _ hfinished)
    · exact ⟨fun _ hc => hc, fun _ hst => .inl hst⟩
  refine h.setStagers (fun t ht c hc => ?_) fun t ht st hst => ?_
  · rcases mem_updateWhere_cases ht with ⟨hold, _⟩ | ⟨old, hold, _, rfl⟩
    · exact h.todo t hold c hc
    · exact h.todo old hold c ((hbegin old hold).1 c hc)
  · rcases mem_updateWhere_cases ht with ⟨hold, _⟩ | ⟨old, hold, _, rfl⟩
    · exact h.statement hold hst
    · rcases (hbegin old hold).2 st hst with hsame | ⟨hempty, hconnection, hcandidates⟩
      · exact h.statement hold hsame
      · refine ⟨⟨h.todo old hold _ hconnection, hcandidates, ?_, ?_⟩, ?_⟩
        all_goals
          rw [hempty]
          intro _ hday
          cases hday

/-- **A row is locked** while the snapshot has the seconds of its day. -/
theorem lockNext (h : StagingSound jira integrationId userId accountId s) (id : Nat)
    (hcurrent : (StagingOp.lockNext id).locksCurrent s = true) :
    StagingSound jira integrationId userId accountId (s.step jira (.lockNext id)) := by
  have hlock : ∀ t ∈ s.stagers, t.id = id → ∀ st ∈ (s.lockRow t).statements,
      StatementSound jira integrationId userId accountId s.store st ∧
        ∀ day ∈ st.selected, ∀ w ∈ s.sources, w.marked.contains day = false := by
    intro t ht hid st hst
    unfold StagingSystem.lockRow at hst
    cases hstatement : t.statement with
    | none =>
      rw [hstatement] at hst
      exact h.statement ht hst
    | some now =>
      have hnow : now ∈ t.statements := by
        unfold StagingTransaction.statements
        rw [hstatement]
        exact List.mem_cons_self
      rw [hstatement] at hst
      dsimp only at hst
      cases hcandidates : now.candidates with
      | nil =>
        rw [hcandidates] at hst
        exact h.statement ht hst
      | cons d rest =>
        rw [hcandidates] at hst
        dsimp only at hst
        rcases List.mem_cons.mp hst with rfl | hfinished
        · obtain ⟨hsound, hapart⟩ := h.statement ht hnow
          have hown := hsound.candidates d (by rw [hcandidates]; exact List.mem_cons_self)
          have hrest : ∀ d' ∈ rest, now.connection.isOf d'.integrationId d'.userId := by
            intro d' hd'
            refine hsound.candidates d' ?_
            rw [hcandidates]
            exact List.mem_cons_of_mem d hd'
          by_cases htakes : s.takes t now d = true
          · rw [if_pos htakes]
            -- the row is nobody's, and the condition is about its day
            have hfree : ∀ w ∈ s.sources, w.marked.contains d.day = false := by
              intro w hw
              unfold StagingSystem.takes StagingSystem.lockedByOthers at htakes
              simp only [Bool.and_eq_true, Bool.not_eq_true', Bool.or_eq_false_iff] at htakes
              have hnone := List.any_eq_false.mp htakes.2.1 w hw
              simpa using hnone
            have hseconds : s.store.trackedOn now.connection.accountId d.day =
                now.snapshot.trackedOn now.connection.accountId d.day := by
              have hall := List.all_eq_true.mp hcurrent t ht
              rw [hid, hstatement, Option.all_some, hcandidates, List.head?_cons, Option.all_some,
                htakes] at hall
              simpa using hall
            refine ⟨⟨hsound.account, hrest, fun day hday => ?_, fun day hday hon => ?_⟩,
              fun day hday => ?_⟩
            · rcases List.mem_append.mp hday with hold | hnew
              · exact hsound.selected day hold
              · rw [List.mem_singleton.mp hnew]
                exact hown
            · rcases List.mem_append.mp hday with hold | hnew
              · exact hsound.current day hold hon
              · rw [List.mem_singleton.mp hnew] at hon ⊢
                have haccount := hsound.account (by
                  have hown' : now.connection.isOf d.day.integrationId d.day.userId := hown
                  rw [hon.1, hon.2.1] at hown'
                  exact hown')
                rw [haccount] at hseconds
                exact hseconds.symm
            · rcases List.mem_append.mp hday with hold | hnew
              · exact hapart day hold
              · rw [List.mem_singleton.mp hnew]
                exact hfree
          · rw [if_neg htakes]
            exact ⟨⟨hsound.account, hrest, hsound.selected, hsound.current⟩, hapart⟩
        · exact h.statement ht (List.mem_append_right _ hfinished)
  have htodo : ∀ t : StagingTransaction, (s.lockRow t).todo = t.todo := by
    intro t
    unfold StagingSystem.lockRow
    split
    · rfl
    · split <;> rfl
  refine h.setStagers (fun t ht c hc => ?_) fun t ht st hst => ?_
  · rcases mem_updateWhere_cases ht with ⟨hold, _⟩ | ⟨old, hold, _, rfl⟩
    · exact h.todo t hold c hc
    · rw [htodo] at hc
      exact h.todo old hold c hc
  · rcases mem_updateWhere_cases ht with ⟨hold, _⟩ | ⟨old, hold, hid, rfl⟩
    · exact h.statement hold hst
    · exact hlock old hold (beq_iff_eq.mp hid) st hst

/-- A statement ends, and keeps its locks. -/
theorem finish (h : StagingSound jira integrationId userId accountId s) (id : Nat) :
    StagingSound jira integrationId userId accountId (s.step jira (.finish id)) := by
  have hend : ∀ t t' : StagingTransaction, s.endStatement t = some t' →
      t'.todo = t.todo ∧ ∀ st ∈ t'.statements, st ∈ t.statements := by
    intro t t' heq
    unfold StagingSystem.endStatement at heq
    split at heq
    · obtain rfl := Option.some.inj heq
      exact ⟨rfl, fun _ hst => hst⟩
    · rename_i st hstatement
      split at heq
      · split at heq
        · cases heq
        · obtain rfl := Option.some.inj heq
          refine ⟨rfl, fun st' hst' => ?_⟩
          unfold StagingTransaction.statements at hst' ⊢
          rw [hstatement]
          simp only [Option.toList_none, List.nil_append, List.map_append, List.map_cons, List.map_nil,
            List.mem_append, List.mem_singleton, Option.toList_some] at hst' ⊢
          exact hst'.symm
      · obtain rfl := Option.some.inj heq
        exact ⟨rfl, fun _ hst => hst⟩
  have hfrom : ∀ t' ∈ (s.step jira (.finish id)).stagers, ∃ t ∈ s.stagers,
      t'.todo = t.todo ∧ ∀ st ∈ t'.statements, st ∈ t.statements := by
    intro t' ht'
    obtain ⟨t, ht, heq⟩ := List.mem_filterMap.mp ht'
    split at heq
    · exact ⟨t, ht, hend t t' heq⟩
    · obtain rfl := Option.some.inj heq
      exact ⟨t, ht, rfl, fun _ hst => hst⟩
  refine h.setStagers (fun t' ht' c hc => ?_) fun t' ht' st hst => ?_
  · obtain ⟨t, ht, htodo, _⟩ := hfrom t' ht'
    rw [htodo] at hc
    exact h.todo t ht c hc
  · obtain ⟨t, ht, _, hstatements⟩ := hfrom t' ht'
    exact h.statement ht (hstatements st hst)

/-- A pass of the stager commits. -/
theorem commitStager (h : StagingSound jira integrationId userId accountId s) {t : StagingTransaction}
    (ht : t ∈ s.stagers) : StagingSound jira integrationId userId accountId (s.commitStager t) := by
  unfold StagingSystem.commitStager
  dsimp only
  split
  · split
    · exact h.sublist (fun _ hw => hw) fun _ hu => List.mem_of_mem_filter hu
    · rename_i store hcommit
      have hfinished : ∀ f ∈ t.finished,
          StatementSound jira integrationId userId accountId s.store f.1 := fun f hf =>
        h.statements t ht f.1 (List.mem_append_right _ (List.mem_map.mpr ⟨f, hf, rfl⟩))
      obtain ⟨hstore, htracked⟩ := commitStatements_ensures h.store hfinished store hcommit
      exact (h.of_store hstore fun _ _ day _ _ => htracked day).sublist (fun _ hw => hw)
        fun _ hu => List.mem_of_mem_filter hu
  · exact h

/-- **One step** that meets the condition keeps the invariant. -/
theorem step (h : StagingSound jira integrationId userId accountId s) (op : StagingOp)
    (hcurrent : op.locksCurrent s = true) :
    StagingSound jira integrationId userId accountId (s.step jira op) := by
  cases op with
  | beginSource id =>
    unfold StagingSystem.step
    dsimp only
    split
    · exact h
    · refine ⟨h.store, h.todo, h.statements, fun t ht day hday w hw => ?_⟩
      rcases List.mem_append.mp hw with hold | hnew
      · exact h.apart t ht day hday w hold
      · rw [List.mem_singleton.mp hnew]
        rfl
  | mark id days =>
    unfold StagingSystem.step
    dsimp only
    split
    · exact h
    · rename_i hfree
      refine h.mark id days fun day hday t ht => ?_
      by_contra hheld
      refine hfree (List.any_eq_true.mpr ⟨day, hday, ?_⟩)
      rw [Bool.or_eq_true]
      exact .inl (List.any_eq_true.mpr ⟨t, ht, by simpa using hheld⟩)
  | commitSource id changes now =>
    unfold StagingSystem.step
    dsimp only
    split
    · exact h
    · rename_i w hfind
      exact h.commitChanges (List.mem_of_find?_eq_some hfind) changes now
  | abortSource id => exact h.sublist (fun _ hw => List.mem_of_mem_filter hw) fun _ ht => ht
  | beginStaging id observedAt connectionLimit dayLimit =>
    exact h.beginStaging id observedAt connectionLimit dayLimit
  | snapshot id => exact h.snapshot id
  | lockNext id => exact h.lockNext id hcurrent
  | finish id => exact h.finish id
  | commitStaging id =>
    unfold StagingSystem.step
    dsimp only
    split
    · exact h
    · rename_i t hfind
      exact h.commitStager (List.mem_of_find?_eq_some hfind)
  | abortStaging id => exact h.sublist (fun _ hw => hw) fun _ ht => List.mem_of_mem_filter ht

end StagingSound

/-! ## Runs -/

theorem stagingSound_start {jira : Nat → Option Nat} {integrationId userId : Nat} {accountId : String}
    {store : WorklogStore} (hstore : StagingInvariant jira integrationId userId accountId store) :
    StagingSound jira integrationId userId accountId { store } where
  store := hstore
  todo _ ht := nomatch ht
  statements _ ht := nomatch ht
  apart _ ht := nomatch ht

/-- **Staging loses no concurrent change** in every run in which rows are locked while the snapshot has the
seconds of their days. -/
theorem losesNothing_run (jira : Nat → Option Nat) (integrationId userId : Nat) (accountId : String)
    (store : WorklogStore) (hstore : StagingInvariant jira integrationId userId accountId store)
    (ops : List StagingOp)
    (hcurrent : Guarded (StagingSystem.step jira) (fun s op => op.locksCurrent s = true) { store } ops) :
    LosesNothing jira integrationId userId accountId (run (StagingSystem.step jira) { store } ops) := by
  have hsound : StagingSound jira integrationId userId accountId
      (run (StagingSystem.step jira) { store } ops) :=
    guarded_invariant (StagingSound jira integrationId userId accountId)
      (fun _ op h hmeets => h.step op hmeets)
      (stagingSound_start hstore) hcurrent
  intro _ _ day hon
  by_cases hdirty : (run (StagingSystem.step jira) { store } ops).store.IsDirty day
  · exact .inl hdirty
  · exact .inr (hsound.store.fresh day hon hdirty)

/-- The day of the member on the task. -/
def memberDay : WorklogDay := ⟨1, 2, 5, 0⟩

/-- A whole day is entered and staged; then the entry is rejected, while the stager is between its snapshot and
the first row. -/
def rejectedBetween (lock commit : List StagingOp) : List StagingOp :=
  [.beginSource 1, .mark 1 [memberDay], .commitSource 1 [.insertManual (wholeDay 0)] 0,
   .beginStaging 2 (days 2) 10 250, .snapshot 2, .beginSource 3, .mark 3 [memberDay]] ++ lock ++
    [.commitSource 3 [.updateManual { wholeDay 0 with status := .rejected }] (days 2)] ++ commit

theorem stagingInvariant_connectedMember :
    StagingInvariant oneJiraTask 1 2 hourlyConnection.accountId connectedMember where
  sessions _ h := nomatch h
  account := by decide
  owned _ h := nomatch h
  fresh _ _ _ := rfl

/-- The stager comes to the row before the rejection commits, and skips it. -/
theorem losesNothing_run_skipped :
    LosesNothing oneJiraTask 1 2 hourlyConnection.accountId
      (run (StagingSystem.step oneJiraTask) { store := connectedMember }
        (rejectedBetween [.lockNext 2] [.finish 2, .commitStaging 2])) :=
  losesNothing_run oneJiraTask 1 2 hourlyConnection.accountId connectedMember
    stagingInvariant_connectedMember _ (by decide +kernel)

/-- **A rejection is lost**: it commits before the stager comes to the row, whose day keeps 86400 seconds and is
not dirty any more. -/
theorem losesNothing_rejected :
    ¬ ∀ (jira : Nat → Option Nat) (integrationId userId : Nat) (accountId : String) (store : WorklogStore)
      (ops : List StagingOp), StagingInvariant jira integrationId userId accountId store →
      LosesNothing jira integrationId userId accountId (run (StagingSystem.step jira) { store } ops) := by
  intro h
  have hday := h oneJiraTask 1 2 hourlyConnection.accountId connectedMember
    (rejectedBetween [] [.lockNext 2, .finish 2, .commitStaging 2])
    stagingInvariant_connectedMember (by decide +kernel)
    (by decide +kernel) memberDay ⟨rfl, rfl, rfl⟩
  exact absurd hday (by decide +kernel)

end Dayfinch
