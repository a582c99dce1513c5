/-
# Dayfinch.Integrations.LiveTasks -- running sessions are on active tasks of their own project

A session takes its project from its task, and whoever archives a task or moves it to another project
closes the sessions on it. Two paths do not. The importers close the sessions when the remote task is
done, but not when it has moved to another mapped repository or project: the row then gets that project,
and the session keeps the old one. And a heartbeat reads its task before its transaction: what happens to
the task in between is not seen.

`ImportOp.keepsTasks` is the condition under which a step goes neither way. A step that meets it keeps
the invariant; the other paths are safe because a mapping is the project of all its tasks, and the tasks
of what is not mapped are archived.
-/
import Dayfinch.Integrations.Importers
import Dayfinch.Work.SyncEffect

namespace Dayfinch

open Library (updateWhere UniqueKey Ensures ensures_ite Guarded run guarded_invariant)

/-! ## The property and the condition -/

/-- Every live session that has a task has an active one, of its own project. -/
def OnActiveTasks (s : ImportStore) : Prop :=
  ∀ ws ∈ s.rest.workSessions, ws.live → ∀ taskId, ws.taskId = some taskId →
    ∃ row ∈ s.tasks, row.id = taskId ∧ row.status = .active ∧ ws.projectId = some row.projectId

/-- Someone tracks time on the task. -/
def ImportStore.tracked (s : ImportStore) (taskId : Nat) : Bool :=
  s.rest.workSessions.any fun ws => ws.live && ws.taskId == some taskId

/-- The remote task is done, or stale, or stays in its project, or nobody tracks time on it. -/
def ImportStore.movesUntracked (s : ImportStore) (provider : TaskProvider) (integrationId : Nat)
    (container : Container) (remote : RemoteTask) : Bool :=
  (s.mapping? provider integrationId container).all fun mapping =>
    (s.linked? integrationId remote.externalKey).all fun row =>
      row.newerThan remote.updatedAt || remote.done || row.projectId == mapping.projectId ||
        !s.tracked row.id

/-- The heartbeat stops work, was accepted before, or its task is still active in the project that the
checks found. -/
def ImportStore.asChecked (s : ImportStore) (call : SyncCall) (adm : Admission) : Bool :=
  adm.status == .stopped || (duplicateReceipt s.db call).isSome || call.taskId.all fun taskId =>
    s.tasks.any fun row =>
      row.id == taskId && row.status == .active && adm.projectId == some row.projectId

/-- No task that is tracked moves to another project, and no heartbeat is late for its task. -/
def ImportOp.keepsTasks (s : ImportState) : ImportOp → Bool
  | .syncTransaction callId _ _ => (s.admitted callId).all fun call => s.store.asChecked call.1 call.2
  | .applyGithubIssue integrationId repositoryId repositoryName issue _ _ =>
    s.store.movesUntracked .github integrationId (.repository repositoryId)
      (issue.toRemote repositoryName)
  | .applyJiraIssue integrationId externalProjectId issue _ _ =>
    s.store.movesUntracked .jira integrationId (.project externalProjectId) issue.toRemote
  | .applyAsanaTask integrationId externalProjectId task _ _ =>
    s.store.movesUntracked .asana integrationId (.project externalProjectId)
      (task.toRemote externalProjectId)
  | _ => true

/-! ## The invariant -/

/-- Where a task was imported from. -/
def TaskRow.place (row : TaskRow) : Option (Nat × Container) :=
  row.link.map fun l => (l.integrationId, l.container)

/-- What is mapped. -/
def ProjectMapping.place (m : ProjectMapping) : Nat × Container := (m.integrationId, m.container)

/-- A task that was imported is managed; the mapping of where it comes from is its project; without a
mapping it is archived. -/
structure Imported (mappings : List ProjectMapping) (row : TaskRow) : Prop where
  managed : row.place.isSome → row.externalReadOnly
  mapped : ∀ m ∈ mappings, row.place = some m.place → row.projectId = m.projectId
  unmapped : ∀ place, row.place = some place → (∀ m ∈ mappings, m.place ≠ place) →
    row.status = .archived

/-- A repository or project is mapped once, by its provider. -/
structure Mapped (integrations : List IntegrationRow) (mappings : List ProjectMapping) : Prop where
  keys : UniqueKey ProjectMapping.place mappings
  providers : ∀ m ∈ mappings,
    (integrations.find? (·.id == m.integrationId)).map (·.provider) = some m.provider

structure ImportInvariant (s : ImportStore) : Prop where
  work : StoreInvariant s.rest
  keys : UniqueKey (·.id) s.tasks
  ids : ∀ row ∈ s.tasks, row.id < s.rest.nextId
  tasks : ∀ row ∈ s.tasks, Imported s.mappings row
  mappings : Mapped s.integrations s.mappings
  live : OnActiveTasks s

section

variable {s s' : ImportStore} {provider : TaskProvider} {integrationId : Nat} {container : Container}
variable {mappings : List ProjectMapping} {row row' : TaskRow}

theorem ProjectMapping.isOf_iff {m : ProjectMapping} :
    m.isOf integrationId container ↔ m.place = (integrationId, container) := by
  simp [ProjectMapping.isOf, ProjectMapping.place]

theorem TaskRow.inContainer_iff :
    row.inContainer integrationId container ↔ row.place = some (integrationId, container) := by
  unfold TaskRow.inContainer TaskRow.place
  rcases row.link with _ | l <;> simp

theorem Imported.congr (h : Imported mappings row) (hplace : row'.place = row.place)
    (hproject : row'.projectId = row.projectId)
    (hmanaged : row'.externalReadOnly = row.externalReadOnly)
    (hstatus : row'.status = row.status ∨ row'.status = .archived) : Imported mappings row' where
  managed := by
    rw [hplace, hmanaged]
    exact h.managed
  mapped := by
    rw [hplace, hproject]
    exact h.mapped
  unmapped := by
    intro place hp hnone
    rcases hstatus with hsame | harchived
    · exact hsame.trans (h.unmapped place (hplace ▸ hp) hnone)
    · exact harchived

/-- A task that was not imported, as the application makes them. -/
theorem imported_of_place_none (h : row.place = none) : Imported mappings row where
  managed := by
    rw [h]
    exact fun hsome => absurd hsome Bool.false_ne_true
  mapped := by
    rw [h]
    exact fun _ _ hsome => nomatch hsome
  unmapped := by
    rw [h]
    exact fun _ hsome => nomatch hsome

/-- A task that comes from where a mapping is, in the project of the mapping. -/
theorem imported_of_mapping (hkeys : UniqueKey ProjectMapping.place mappings) {m : ProjectMapping}
    (hm : m ∈ mappings) (hplace : row.place = some m.place) (hproject : row.projectId = m.projectId)
    (hmanaged : row.externalReadOnly = true) : Imported mappings row where
  managed := fun _ => hmanaged
  mapped := by
    intro m' hm' hplace'
    obtain rfl := hkeys.eq hm' hm (Option.some.inj (hplace'.symm.trans hplace))
    exact hproject
  unmapped := by
    intro place hp hnone
    exact absurd (Option.some.inj (hplace.symm.trans hp)) (hnone m hm)

theorem ImportStore.mapping?_eq_some {m : ProjectMapping}
    (h : s.mapping? provider integrationId container = some m) :
    m ∈ s.mappings ∧ m.provider = provider ∧ m.place = (integrationId, container) := by
  have hsel := List.find?_some h
  rw [Bool.and_eq_true, beq_iff_eq, ProjectMapping.isOf_iff] at hsel
  exact ⟨List.mem_of_find?_eq_some h, hsel.1, hsel.2⟩

/-- Without a mapping in the provider's table there is none in the others' either. -/
theorem Mapped.place_ne (h : Mapped s.integrations s.mappings)
    (henabled : s.integrationEnabled provider integrationId = true)
    (hnone : s.mapping? provider integrationId container = none) :
    ∀ m ∈ s.mappings, m.place ≠ (integrationId, container) := by
  intro m hm hplace
  have hprovider : m.provider = provider := by
    have hfind := h.providers m hm
    rw [(Prod.mk.inj hplace).1] at hfind
    obtain ⟨i, hi, hmi⟩ := Option.map_eq_some_iff.mp hfind
    unfold ImportStore.integrationEnabled at henabled
    rw [hi] at henabled
    simp only [Option.any_some, Bool.and_eq_true, beq_iff_eq] at henabled
    exact hmi.symm.trans henabled.1
  have hfalse := List.find?_eq_none.mp hnone m hm
  simp [hprovider, ProjectMapping.isOf_iff.mpr hplace] at hfalse

/-! ## Closing sessions -/

/-- The live sessions left are from before, and none is on these tasks. -/
structure ClosedOn (taskIds : List Nat) (s s' : ImportStore) : Prop where
  work : StoreInvariant s'.rest
  nextId : s'.rest.nextId = s.rest.nextId
  integrations : s'.integrations = s.integrations
  sessions : ∀ ws ∈ s'.rest.workSessions, ws.live → ws ∈ s.rest.workSessions ∧
    ∀ taskId ∈ taskIds, ws.taskId ≠ some taskId

theorem ClosedOn.refl (h : StoreInvariant s.rest) : ClosedOn [] s s where
  work := h
  nextId := rfl
  integrations := rfl
  sessions := by
    intro ws hws _
    refine ⟨hws, fun taskId hmem => ?_⟩
    cases hmem

/-- The bulk close of the sessions on these tasks. -/
theorem closeWork_closedOn (h : StoreInvariant s.rest) (now : Int) (taskIds : List Nat)
    {db : Database} (hdb : db = { s.rest with tasks := db.tasks }) :
    Ensures (closeWork now (taskClosing db taskIds) db) fun rest =>
      ClosedOn taskIds s { s with rest } := by
  intro rest hrest
  have hwork : StoreInvariant db := by
    rw [hdb]
    exact h.of_eq rfl rfl (Nat.le_refl _)
  have hcloses := closeWork_ensures now (taskClosing db taskIds) db rest hrest
  have hnext : rest.nextId = db.nextId := by
    unfold closeWork at hrest
    split at hrest
    · cases hrest
    · cases hrest
      rfl
  refine ⟨hwork.closes (taskClosing_consistent _ _) hcloses, by rw [hnext, hdb], rfl, ?_⟩
  intro ws hws hlive
  have hws' : ws ∈ rest.workSessions := hws
  rw [hcloses.workSessions] at hws'
  rcases Library.mem_updateWhere_cases hws' with ⟨hold, hsel⟩ | ⟨old, _, _, rfl⟩
  · have hopen : ws.endedAt.isNone = true := by
      have hstopped := hwork.stoppedIffEnded ws hold
      rw [WorkSession.live_iff] at hlive
      simpa using mt hstopped.mpr hlive
    refine ⟨by rw [hdb] at hold; exact hold, fun taskId hmem htask => ?_⟩
    simp [taskClosing, htask, hmem, hopen] at hsel
  · cases hlive

/-- Closing sessions changes the tables of work, and draws no identifier. -/
theorem closeTasks_frame {now : Int} {taskIds : List Nat} (h : s.closeTasks now taskIds = .ok s') :
    ∃ rest, s' = { s with rest } ∧ rest.nextId = s.rest.nextId := by
  unfold ImportStore.closeTasks closeTaskSessions at h
  split at h
  · cases h
    exact ⟨_, rfl, rfl⟩
  · cases hclose : closeWork now (taskClosing s.db taskIds) s.db with
    | error e =>
      rw [hclose] at h
      cases h
    | ok rest =>
      rw [hclose] at h
      cases h
      exact ⟨rest, rfl, (closeWork_users hclose).2⟩

theorem closeTasks_ensures (h : StoreInvariant s.rest) (now : Int) (taskIds : List Nat) :
    Ensures (s.closeTasks now taskIds) fun s' =>
      ClosedOn taskIds s s' ∧ s'.tasks = s.tasks ∧ s'.mappings = s.mappings := by
  refine Library.ensures_map.mpr (ensures_ite (fun hnil => ?_) fun _ => ?_)
  · subst hnil
    have hdb : StoreInvariant s.db := h.of_eq rfl rfl (Nat.le_refl _)
    exact Library.ensures_ok.mpr ⟨{ ClosedOn.refl h with work := hdb }, rfl, rfl⟩
  · exact (closeWork_closedOn h now taskIds rfl).mono fun rest hclosed => ⟨hclosed, rfl, rfl⟩

/-- The close that is made under a condition. -/
theorem closeTasksIf_ensures (h : StoreInvariant s.rest) (condition : Bool) (now : Int)
    (taskIds : List Nat) :
    Ensures (s.closeTasksIf condition now taskIds) fun s' =>
      ClosedOn (if condition then taskIds else []) s s' ∧ s'.tasks = s.tasks ∧
        s'.mappings = s.mappings := by
  refine ensures_ite (fun hc => ?_) fun hc => ?_
  · rw [if_pos hc]
    exact closeTasks_ensures h now taskIds
  · rw [if_neg hc]
    exact Library.ensures_ok.mpr ⟨ClosedOn.refl h, rfl, rfl⟩

/-! ## Rewriting tasks -/

/-- **Tasks and mappings may be rewritten** after sessions were closed, where a task on which someone
still works stays active in its project. -/
theorem ImportInvariant.rewrite (h : ImportInvariant s) {taskIds : List Nat}
    (hclosed : ClosedOn taskIds s s') {tasks : List TaskRow} {mappings : List ProjectMapping}
    (hkeys : UniqueKey (·.id) tasks) (hids : ∀ row ∈ tasks, row.id < s.rest.nextId)
    (htasks : ∀ row ∈ tasks, Imported mappings row) (hmappings : Mapped s.integrations mappings)
    (hlive : ∀ row ∈ s.tasks, row.status = .active → row.id ∉ taskIds → s.tracked row.id →
      ∃ row' ∈ tasks, row'.id = row.id ∧ row'.status = .active ∧ row'.projectId = row.projectId) :
    ImportInvariant { s' with tasks, mappings } where
  work := hclosed.work
  keys := hkeys
  ids := by
    intro row hrow
    show row.id < s'.rest.nextId
    rw [hclosed.nextId]
    exact hids row hrow
  tasks := htasks
  mappings := by
    show Mapped s'.integrations mappings
    rw [hclosed.integrations]
    exact hmappings
  live := by
    intro ws hws hlv taskId htask
    obtain ⟨hold, hoff⟩ := hclosed.sessions ws hws hlv
    obtain ⟨row, hrow, rfl, hactive, hproject⟩ := h.live ws hold hlv taskId htask
    have htracked : s.tracked row.id = true := by
      refine List.any_eq_true.mpr ⟨ws, hold, ?_⟩
      rw [hlv, htask]
      simp
    obtain ⟨row', hrow', hid, hactive', hproject'⟩ :=
      hlive row hrow hactive (fun hmem => hoff row.id hmem htask) htracked
    exact ⟨row', hrow', hid, hactive', by rw [hproject', hproject]⟩

/-- Rows after a change of some of them: each row of the new table is an old one or a changed one. -/
theorem ImportInvariant.rewriteWhere (h : ImportInvariant s) {taskIds : List Nat}
    (hclosed : ClosedOn taskIds s s') {p : TaskRow → Bool} {f : TaskRow → TaskRow}
    {mappings : List ProjectMapping} (hid : ∀ row, (f row).id = row.id)
    (hmappings : Mapped s.integrations mappings)
    (hother : ∀ row ∈ s.tasks, p row = false → Imported mappings row)
    (hchanged : ∀ row ∈ s.tasks, p row = true → Imported mappings (f row))
    (hlive : ∀ row ∈ s.tasks, p row = true → row.status = .active → row.id ∉ taskIds →
      s.tracked row.id → (f row).status = .active ∧ (f row).projectId = row.projectId) :
    ImportInvariant { s' with tasks := updateWhere p f s.tasks, mappings } := by
  refine h.rewrite hclosed (h.keys.updateWhere hid) ?_ ?_ hmappings ?_
  · intro row hrow
    rcases Library.mem_updateWhere_cases hrow with ⟨hold, _⟩ | ⟨old, hold, _, rfl⟩
    · exact h.ids row hold
    · rw [hid]
      exact h.ids old hold
  · intro row hrow
    rcases Library.mem_updateWhere_cases hrow with ⟨hold, hsel⟩ | ⟨old, hold, hsel, rfl⟩
    · exact hother row hold hsel
    · exact hchanged old hold hsel
  · intro row hrow hactive hoff htracked
    refine ⟨if p row then f row else row, Library.mem_updateWhere_of_mem hrow, ?_⟩
    by_cases hp : p row = true
    · rw [if_pos hp]
      exact ⟨hid row, hlive row hrow hp hactive hoff htracked⟩
    · rw [if_neg hp]
      exact ⟨rfl, hactive, rfl⟩

theorem putTasks_ensures (lower : String → String) (taken : Error) (tasks : List TaskRow) :
    Ensures (s.putTasks lower taken tasks) fun s' => s' = { s with tasks } :=
  ensures_ite (fun _ => Library.ensures_ok.mpr rfl) fun _ => Library.ensures_error

theorem mem_containerTasks (hrow : row ∈ s.tasks)
    (hin : row.inContainer integrationId container = true) :
    row.id ∈ s.containerTasks integrationId container :=
  List.mem_map.mpr ⟨row, List.mem_filter.mpr ⟨hrow, hin⟩, rfl⟩

/-! ## Mappings -/

variable (container) in
/-- The mappings after one is set. -/
theorem mem_putMapping (h : Mapped s.integrations s.mappings)
    (henabled : s.integrationEnabled provider integrationId = true) (projectId : Nat)
    (m : ProjectMapping) :
    m ∈ putMapping ⟨provider, integrationId, container, projectId⟩
        (s.mapping? provider integrationId container) s.mappings ↔
      m = ⟨provider, integrationId, container, projectId⟩ ∨
        m ∈ s.mappings ∧ m.place ≠ (integrationId, container) := by
  cases hexisting : s.mapping? provider integrationId container with
  | none =>
    have hne := h.place_ne henabled hexisting
    show m ∈ s.mappings ++ [_] ↔ _
    rw [List.mem_append, List.mem_singleton, or_comm]
    exact or_congr_right ⟨fun hm => ⟨hm, hne m hm⟩, fun hm => hm.1⟩
  | some old =>
    obtain ⟨hold, hprovider, hplace⟩ := ImportStore.mapping?_eq_some hexisting
    have hnew : ({ old with projectId } : ProjectMapping) =
        ⟨provider, integrationId, container, projectId⟩ := by
      rw [← hprovider, ← (Prod.mk.inj hplace).1, ← (Prod.mk.inj hplace).2]
    have hsel : ∀ m' ∈ s.mappings,
        (m'.provider == provider && m'.isOf integrationId container) = true ↔ m' = old := by
      intro m' hm'
      rw [Bool.and_eq_true, beq_iff_eq, ProjectMapping.isOf_iff]
      constructor
      · rintro ⟨_, hp⟩
        exact h.keys.eq hm' hold (hp.trans hplace.symm)
      · rintro rfl
        exact ⟨hprovider, hplace⟩
    constructor
    · intro hm
      rcases Library.mem_updateWhere_cases hm with ⟨hm', hoff⟩ | ⟨m', hm', hon, rfl⟩
      · refine Or.inr ⟨hm', fun hp => ?_⟩
        rw [(hsel m hm').mpr (h.keys.eq hm' hold (hp.trans hplace.symm))] at hoff
        cases hoff
      · obtain rfl := (hsel m' hm').mp hon
        exact Or.inl hnew
    · rintro (rfl | ⟨hm, hp⟩)
      · exact Library.mem_updateWhere.mpr ⟨old, hold, by rw [if_pos ((hsel old hold).mpr rfl), hnew]⟩
      · refine Library.mem_updateWhere_of_false hm (Bool.eq_false_iff.mpr fun hon => hp ?_)
        rw [(hsel m hm).mp hon]
        exact hplace

theorem Mapped.put (h : Mapped s.integrations s.mappings)
    (henabled : s.integrationEnabled provider integrationId = true) (projectId : Nat) :
    Mapped s.integrations (putMapping ⟨provider, integrationId, container, projectId⟩
      (s.mapping? provider integrationId container) s.mappings) where
  keys := by
    cases hexisting : s.mapping? provider integrationId container with
    | none => exact h.keys.append_fresh fun m hm => h.place_ne henabled hexisting m hm
    | some old => exact h.keys.updateWhere fun _ => rfl
  providers := by
    intro m hm
    rcases (mem_putMapping container h henabled projectId m).mp hm with rfl | ⟨hm, _⟩
    · unfold ImportStore.integrationEnabled at henabled
      rcases hi : s.integrations.find? (·.id == integrationId) with _ | i
      · rw [hi] at henabled
        cases henabled
      · rw [hi] at henabled
        simp only [Option.any_some, Bool.and_eq_true, beq_iff_eq] at henabled
        show Option.map _ (s.integrations.find? (·.id == integrationId)) = some provider
        rw [hi, ← henabled.1]
        rfl
    · exact h.providers m hm

theorem setProjectMapping_ensures (h : ImportInvariant s) (lower : String → String) (now : Int)
    (projectId : Nat) :
    Ensures (setProjectMapping provider lower now s integrationId container projectId)
      ImportInvariant := by
  refine Ensures.bind ensures_raiseIf fun _ henabled => ?_
  rw [Bool.not_eq_false] at henabled
  refine Ensures.bind ensures_raiseIf fun _ _ => ?_
  refine Ensures.bind (closeTasksIf_ensures h.work _ now _) fun s₁ ⟨hclosed, htasks, hmappings⟩ => ?_
  refine Ensures.bind (putTasks_ensures lower _ _) fun s₂ hs₂ => ?_
  rw [Library.ensures_pure, hs₂, htasks]
  show ImportInvariant { s₁ with tasks := _, mappings := putMapping _ _ s₁.mappings }
  rw [hmappings]
  have hmem := mem_putMapping container h.mappings henabled projectId
  refine h.rewriteWhere hclosed (fun _ => rfl) (h.mappings.put henabled projectId) ?_ ?_ ?_
  · intro row hrow hout
    have hplace : row.place ≠ some (integrationId, container) := fun hp => by
      rw [TaskRow.inContainer_iff.mpr hp] at hout
      cases hout
    have hrowInv := h.tasks row hrow
    refine ⟨hrowInv.managed, ?_, ?_⟩
    · intro m hm hp
      rcases (hmem m).mp hm with rfl | ⟨hm, _⟩
      · exact absurd hp hplace
      · exact hrowInv.mapped m hm hp
    · intro place hp hnone
      refine hrowInv.unmapped place hp fun m hm hm' => ?_
      refine hnone m ((hmem m).mpr (Or.inr ⟨hm, fun hof => hplace ?_⟩)) hm'
      rw [hp, ← hm', hof]
  · intro row hrow hin
    have hplace := TaskRow.inContainer_iff.mp hin
    have hrowInv := h.tasks row hrow
    refine imported_of_mapping (h.mappings.put henabled projectId).keys ((hmem _).mpr (Or.inl rfl))
      hplace rfl (hrowInv.managed ?_)
    rw [hplace]
    rfl
  · intro row hrow hin hactive hoff _
    refine ⟨hactive, ?_⟩
    have hplace := TaskRow.inContainer_iff.mp hin
    cases hexisting : s.mapping? provider integrationId container with
    | none =>
      have harchived := (h.tasks row hrow).unmapped _ hplace (h.mappings.place_ne henabled hexisting)
      rw [hactive] at harchived
      cases harchived
    | some old =>
      obtain ⟨hold, _, hplace'⟩ := ImportStore.mapping?_eq_some hexisting
      rw [(h.tasks row hrow).mapped old hold (hplace'.symm ▸ hplace)]
      by_contra hne
      rw [hexisting, if_pos (by simpa using fun heq => hne heq.symm)] at hoff
      exact hoff (mem_containerTasks hrow hin)

theorem removeProjectMapping_ensures (h : ImportInvariant s) (now : Int) :
    Ensures (removeProjectMapping provider now s integrationId container) ImportInvariant := by
  refine Ensures.bind ensures_raiseIf fun _ hfound => ?_
  obtain ⟨old, hexisting⟩ := Option.ne_none_iff_exists'.mp hfound
  obtain ⟨hold, hprovider, hplace'⟩ := ImportStore.mapping?_eq_some hexisting
  refine Ensures.bind (closeTasks_ensures h.work now _) fun s₁ ⟨hclosed, htasks, hmappings⟩ => ?_
  rw [Library.ensures_pure, htasks, hmappings]
  have hmem : ∀ m, m ∈ s.mappings.filter (fun m =>
      !(m.provider == provider && m.isOf integrationId container)) ↔
        m ∈ s.mappings ∧ m.place ≠ (integrationId, container) := by
    intro m
    rw [List.mem_filter, Bool.not_eq_true', Bool.and_eq_false_iff, beq_eq_false_iff_ne]
    refine and_congr_right fun hm => ?_
    constructor
    · rintro (hne | hne) hp
      · exact hne ((h.mappings.keys.eq hm hold (hp.trans hplace'.symm)) ▸ hprovider)
      · rw [ProjectMapping.isOf_iff.mpr hp] at hne
        cases hne
    · intro hp
      exact Or.inr (Bool.eq_false_iff.mpr fun hof => hp (ProjectMapping.isOf_iff.mp hof))
  refine h.rewriteWhere hclosed (fun _ => rfl) ⟨h.mappings.keys.sublist List.filter_sublist, ?_⟩ ?_ ?_ ?_
  · intro m hm
    exact h.mappings.providers m ((hmem m).mp hm).1
  · intro row hrow hout
    have hplace : row.place ≠ some (integrationId, container) := fun hp => by
      rw [TaskRow.inContainer_iff.mpr hp] at hout
      cases hout
    have hrowInv := h.tasks row hrow
    refine ⟨hrowInv.managed, fun m hm hp => hrowInv.mapped m ((hmem m).mp hm).1 hp, ?_⟩
    intro place hp hnone
    refine hrowInv.unmapped place hp fun m hm hm' => ?_
    refine hnone m ((hmem m).mpr ⟨hm, fun hof => hplace ?_⟩) hm'
    rw [hp, ← hm', hof]
  · intro row hrow hin
    have hplace := TaskRow.inContainer_iff.mp hin
    have hrowInv := h.tasks row hrow
    refine ⟨hrowInv.managed, fun m hm hp => ?_, fun _ _ _ => rfl⟩
    exact absurd (Option.some.inj (hp.symm.trans hplace)) ((hmem m).mp hm).2
  · intro row hrow hin _ hoff _
    exact absurd (mem_containerTasks hrow hin) hoff

/-! ## Imported tasks -/

/-- An identifier is drawn. -/
theorem ImportInvariant.draw (h : ImportInvariant s) :
    ImportInvariant { s with rest := { s.rest with nextId := s.rest.nextId + 1 } } where
  work := h.work.of_eq rfl rfl (Nat.le_succ _)
  keys := h.keys
  ids := fun row hrow => Nat.lt_succ_of_lt (h.ids row hrow)
  tasks := h.tasks
  mappings := h.mappings
  live := h.live

/-- A task is inserted. -/
theorem ImportInvariant.insert (h : ImportInvariant s) {row : TaskRow} (hid : row.id = s.rest.nextId)
    (himported : Imported s.mappings row) :
    ImportInvariant { s with
      tasks := s.tasks ++ [row]
      rest := { s.rest with nextId := s.rest.nextId + 1 } } := by
  have hdraw := h.draw
  have hsame : ClosedOn [] { s with rest := { s.rest with nextId := s.rest.nextId + 1 } }
      { s with rest := { s.rest with nextId := s.rest.nextId + 1 } } := ClosedOn.refl hdraw.work
  show ImportInvariant { s with
    rest := { s.rest with nextId := s.rest.nextId + 1 }, tasks := s.tasks ++ [row],
    mappings := s.mappings }
  refine hdraw.rewrite hsame ?_ ?_ ?_ h.mappings ?_
  · refine h.keys.append_fresh fun old hold => ?_
    have hlt := h.ids old hold
    rw [hid]
    exact Nat.ne_of_lt hlt
  · intro old hold
    rcases List.mem_append.mp hold with hmem | hnew
    · exact hdraw.ids old hmem
    · rw [List.mem_singleton.mp hnew, hid]
      exact Nat.lt_succ_self _
  · intro old hold
    rcases List.mem_append.mp hold with hmem | hnew
    · exact h.tasks old hmem
    · rw [List.mem_singleton.mp hnew]
      exact himported
  · intro old hold hactive _ _
    exact ⟨old, List.mem_append_left _ hold, rfl, hactive, rfl⟩

theorem ImportStore.linked?_eq_some {externalKey : String}
    (h : s.linked? integrationId externalKey = some row) :
    row ∈ s.tasks ∧ ∃ l, row.link = some l ∧ l.integrationId = integrationId := by
  have hkey := List.find?_some h
  refine ⟨List.mem_of_find?_eq_some h, ?_⟩
  obtain ⟨l, hl, hsel⟩ := (Option.any_eq_true _ _).mp hkey
  rw [Bool.and_eq_true, beq_iff_eq] at hsel
  exact ⟨l, hl, hsel.1⟩

theorem applyRemoteTask_ensures (h : ImportInvariant s) (lower : String → String)
    (remote : RemoteTask) (observedAt clock : Int)
    (hmoves : s.movesUntracked provider integrationId container remote = true) :
    Ensures (applyRemoteTask provider lower s integrationId container remote observedAt clock)
      fun r => ImportInvariant r.1 := by
  unfold applyRemoteTask
  split
  · exact Library.ensures_ok.mpr h
  rename_i mapping hmapping
  obtain ⟨hmem, _, hplace⟩ := ImportStore.mapping?_eq_some hmapping
  refine ensures_ite (fun _ => Library.ensures_ok.mpr h) fun _ => ?_
  split
  · rename_i row hrow
    obtain ⟨hrow', l, hl, hli⟩ := ImportStore.linked?_eq_some hrow
    refine ensures_ite (fun _ => Library.ensures_ok.mpr h) fun hfresh => ?_
    refine Ensures.bind (closeTasksIf_ensures h.work _ observedAt [row.id])
      fun s₁ ⟨hclosed, htasks, hmappings⟩ => ?_
    refine Ensures.bind (putTasks_ensures lower _ _) fun s₂ hs₂ => ?_
    rw [Library.ensures_pure, hs₂, htasks]
    show ImportInvariant { s₁ with tasks := _, mappings := s₁.mappings }
    rw [hmappings]
    have heq : ∀ row' ∈ s.tasks, (row'.id == row.id) = true → row' = row := fun row' hmem' hid =>
      h.keys.eq hmem' hrow' (beq_iff_eq.mp hid)
    refine h.rewriteWhere hclosed (fun _ => rfl) h.mappings (fun old hold _ => h.tasks old hold) ?_ ?_
    · intro old hold hid
      obtain rfl := heq old hold hid
      refine imported_of_mapping h.mappings.keys hmem ?_ rfl rfl
      rw [hplace]
      unfold TaskRow.place TaskRow.refresh
      rw [hl, Option.map_some, Option.map_some, hli]
    · intro old hold hid hactive hoff htracked
      obtain rfl := heq old hold hid
      have hopen : remote.done = false := by
        by_contra hdone
        rw [if_pos (by simpa using hdone)] at hoff
        exact hoff (List.mem_singleton_self _)
      refine ⟨?_, ?_⟩
      · show (if remote.done then _ else _) = _
        rw [hopen]
        rfl
      · unfold ImportStore.movesUntracked at hmoves
        rw [hmapping, hrow] at hmoves
        simp only [Option.all_some, hopen, htracked, Bool.not_true, Bool.or_false, Bool.or_eq_true,
          beq_iff_eq] at hmoves
        exact (hmoves.resolve_left hfresh).symm
  · refine ensures_ite (fun _ => Library.ensures_error) fun _ =>
      ensures_ite (fun _ => Library.ensures_error) fun _ => ?_
    refine Ensures.bind (putTasks_ensures lower _ _) fun s₁ hs₁ => ?_
    rw [Library.ensures_pure, hs₁]
    exact h.insert rfl (imported_of_mapping h.mappings.keys hmem (by rw [hplace]; rfl) rfl rfl)

theorem createTask_ensures (h : ImportInvariant s) (lower : String → String) (projectId : Nat)
    (name description : String) :
    Ensures (createTask lower s projectId name description) ImportInvariant := by
  refine ensures_ite (fun _ => Library.ensures_error) fun _ => ?_
  refine Ensures.bind (putTasks_ensures lower _ _) fun s₁ hs₁ => ?_
  rw [Library.ensures_pure, hs₁]
  exact h.insert rfl (imported_of_place_none rfl)

/-! ## Archived tasks -/

/-- The rows may be rewritten where they stay what they are for this property, or are archived. -/
theorem archiveTasks_ensures (h : ImportInvariant s) (now : Int) (selected : TaskRow → Bool)
    (after : TaskRow → TaskRow)
    (hafter : ∀ row, (after row).toTask = row.toTask ∧ (after row).place = row.place) :
    Ensures (archiveTasks now s selected after) fun r => ImportInvariant r.1 := by
  have hfields : ∀ row, (after row).id = row.id ∧ (after row).projectId = row.projectId ∧
      (after row).status = row.status ∧ (after row).externalReadOnly = row.externalReadOnly := by
    intro row
    have htask := (hafter row).1
    exact ⟨congrArg Task.id htask, congrArg Task.projectId htask, congrArg Task.status htask,
      congrArg Task.externalReadOnly htask⟩
  unfold archiveTasks
  generalize htasks : (updateWhere selected (fun row => { row with status := .archived }) s.tasks).map
    after = tasks
  have hrows : ∀ row' ∈ tasks, ∃ row ∈ s.tasks, row'.id = row.id ∧ Imported s.mappings row' := by
    intro row' hrow'
    rw [← htasks] at hrow'
    obtain ⟨mid, hmid, rfl⟩ := List.mem_map.mp hrow'
    obtain ⟨hid, hproject, hstatus, hmanaged⟩ := hfields mid
    rcases Library.mem_updateWhere_cases hmid with ⟨hold, _⟩ | ⟨old, hold, _, rfl⟩
    · exact ⟨mid, hold, hid, (h.tasks mid hold).congr (hafter mid).2 hproject hmanaged (Or.inl hstatus)⟩
    · exact ⟨old, hold, hid, (h.tasks old hold).congr (hafter _).2 hproject hmanaged (Or.inr hstatus)⟩
  refine Ensures.bind (P := fun s₁ => ClosedOn ((s.tasks.filter selected).map (·.id)) s s₁ ∧
    s₁.tasks = tasks ∧ s₁.mappings = s.mappings) ?_ fun s₁ ⟨hclosed, htasks₁, hmappings⟩ => ?_
  · have hwork : StoreInvariant { s with tasks : ImportStore }.rest := h.work
    refine (closeTasks_ensures hwork now _).mono fun s₁ ⟨hclosed, htasks₁, hmappings⟩ => ?_
    exact ⟨⟨hclosed.work, hclosed.nextId, hclosed.integrations, hclosed.sessions⟩, htasks₁, hmappings⟩
  · rw [Library.ensures_pure]
    show ImportInvariant s₁
    have hsame : s₁ = { s₁ with tasks, mappings := s.mappings } := by rw [← htasks₁, ← hmappings]
    rw [hsame]
    refine h.rewrite hclosed ?_ ?_ (fun row hrow => (hrows row hrow).choose_spec.2.2) h.mappings ?_
    · have hids : tasks.map (·.id) = s.tasks.map (·.id) := by
        have hafterId : ((·.id) ∘ after : TaskRow → Nat) = (·.id) := funext fun row => (hfields row).1
        rw [← htasks, List.map_map, hafterId]
        apply Library.map_updateWhere
        intro row
        rfl
      unfold Library.UniqueKey
      rw [hids]
      exact h.keys
    · intro row hrow
      obtain ⟨old, hold, hid, _⟩ := hrows row hrow
      rw [hid]
      exact h.ids old hold
    · intro row hrow hactive hoff _
      have hnot : selected row = false := by
        by_contra hsel
        rw [Bool.not_eq_false] at hsel
        exact hoff (List.mem_map.mpr ⟨row, List.mem_filter.mpr ⟨hrow, hsel⟩, rfl⟩)
      obtain ⟨hid, hproject, hstatus, _⟩ := hfields row
      refine ⟨after row, ?_, hid, hstatus.trans hactive, hproject⟩
      rw [← htasks]
      exact List.mem_map_of_mem (Library.mem_updateWhere_of_false hrow hnot)

theorem setMissing_same (missingSince : Option Int) (row : TaskRow) :
    (row.setMissing missingSince).toTask = row.toTask ∧
      (row.setMissing missingSince).place = row.place := by
  refine ⟨rfl, ?_⟩
  unfold TaskRow.place TaskRow.setMissing
  rcases row.link with _ | l <;> rfl

theorem archiveMissingTwice_ensures (h : ImportInvariant s) (now : Int) (seenKeys : List String)
    (snapshotAt : Int) :
    Ensures (archiveMissingTwice now s integrationId container seenKeys snapshotAt)
      fun r => ImportInvariant r.1 := by
  unfold archiveMissingTwice
  dsimp only
  refine archiveTasks_ensures ?_ now _ _ fun row => ?_
  · refine h.rewriteWhere (ClosedOn.refl h.work) (fun _ => rfl) h.mappings
      (fun row hrow _ => h.tasks row hrow) (fun row hrow _ => ?_) fun row _ _ hactive _ _ => ⟨hactive, rfl⟩
    exact (h.tasks row hrow).congr (setMissing_same none row).2 rfl rfl (Or.inl rfl)
  · split
    · exact setMissing_same _ row
    · exact ⟨rfl, rfl⟩

/-! ## `set_task_status` and heartbeats -/

theorem setStoredTaskStatus_ensures (h : ImportInvariant s) (now : Int) (taskId : Nat)
    (status : Option TaskStatus) :
    Ensures (setStoredTaskStatus now s taskId status) ImportInvariant := by
  unfold setStoredTaskStatus setTaskStatus
  cases status with
  | none => exact Library.ensures_error
  | some status =>
    cases htask : s.db.getTask taskId with
    | none => exact Library.ensures_error
    | some task =>
      -- the task is not managed, so it was not imported
      have hplace : task.externalReadOnly = false → ∀ row ∈ s.tasks, row.id = taskId →
          row.place = none := by
        intro hmanaged row hrow hid
        have hfind : s.db.getTask taskId = some row.toTask := by
          have hkeys : UniqueKey (·.id) s.db.tasks := by
            unfold Library.UniqueKey
            show ((s.tasks.map (·.toTask)).map (·.id)).Nodup
            rw [List.map_map]
            exact h.keys
          rw [← hid]
          exact hkeys.find?_eq (List.mem_map_of_mem hrow)
        obtain rfl := Option.some.inj (hfind.symm.trans htask)
        by_contra hsome
        have hread := (h.tasks row hrow).managed (Option.isSome_iff_ne_none.mpr hsome)
        rw [hmanaged] at hread
        cases hread
      have hrest : Ensures (if status = .archived then
          closeWork now (taskClosing { s.db with
            tasks := updateWhere (·.id == taskId) (fun t => { t with status }) s.db.tasks } [taskId])
            { s.db with
              tasks := updateWhere (·.id == taskId) (fun t => { t with status }) s.db.tasks }
          else .ok { s.db with
              tasks := updateWhere (·.id == taskId) (fun t => { t with status }) s.db.tasks })
          fun rest => ClosedOn (if status = .archived then [taskId] else []) s { s with rest } := by
        refine ensures_ite (fun harchived => ?_) fun hactive => ?_
        · rw [if_pos harchived]
          exact closeWork_closedOn h.work now [taskId] rfl
        · rw [if_neg hactive]
          exact Library.ensures_ok.mpr { ClosedOn.refl h.work with
            work := h.work.of_eq rfl rfl (Nat.le_refl _) }
      refine Ensures.bind (P := fun rest => task.externalReadOnly = false ∧
        ClosedOn (if status = .archived then [taskId] else []) s { s with rest }) ?_ ?_
      · refine Ensures.bind ensures_raiseIf fun _ hmanaged => ?_
        exact hrest.mono fun rest hclosed => ⟨Bool.not_eq_true _ ▸ hmanaged, hclosed⟩
      · rintro rest ⟨hmanaged, hclosed⟩
        rw [Library.ensures_pure]
        refine h.rewriteWhere hclosed (fun _ => rfl) h.mappings
          (fun row hrow _ => h.tasks row hrow) ?_ ?_
        · intro row hrow hid
          exact imported_of_place_none (hplace hmanaged row hrow (beq_iff_eq.mp hid))
        · intro row _ hid _ hoff _
          refine ⟨?_, rfl⟩
          cases status with
          | active => rfl
          | archived =>
            rw [if_pos rfl, beq_iff_eq.mp hid] at hoff
            exact absurd (List.mem_singleton_self _) hoff

theorem admittedTransaction_ensures {state : ImportState} (h : ImportInvariant state.store)
    (callId : Nat) (tie : AgentStateEvent → Nat) (now : Int)
    (hchecked : (state.admitted callId).all (fun call => state.store.asChecked call.1 call.2) = true) :
    Ensures (admittedTransaction state callId tie now) ImportInvariant := by
  unfold admittedTransaction
  split
  · exact Library.ensures_ok.mpr h
  rename_i call adm hcall
  rw [hcall, Option.all_some] at hchecked
  have hdb : StoreInvariant state.store.db := h.work.of_eq rfl rfl (Nat.le_refl _)
  refine Library.ensures_map.mpr fun r hr => ?_
  have hwork : StoreInvariant r.1 := hdb.syncTransaction tie now call adm r hr
  rcases syncTransaction_effect hr with hsame | ⟨hdup, _, haccept⟩
  · show ImportInvariant { state.store with rest := r.1 }
    rw [hsame]
    exact { h with work := hdb, ids := h.ids, live := h.live }
  · have hacc := acceptEvent_effect haccept
    have hnext : state.store.rest.nextId ≤ r.1.nextId := hacc.nextId_le
    refine { h with work := hwork, ids := fun row hrow => Nat.lt_of_lt_of_le (h.ids row hrow) hnext,
                    live := ?_ }
    obtain ⟨mid, written, sessionId, hends, _, houtcome, _, hdb'⟩ := hacc
    have hmid : ∀ ws ∈ mid.workSessions, ws.live → ∀ taskId, ws.taskId = some taskId →
        ∃ row ∈ state.store.tasks, row.id = taskId ∧ row.status = .active ∧
          ws.projectId = some row.projectId := by
      intro ws hws hlive taskId htask
      obtain ⟨old, hold, hlive', hfixed⟩ := hends.live hdb.toKeyed ws hws hlive
      simp only [WorkSession.fixed, WorkSession.mk.injEq] at hfixed
      obtain ⟨_, _, _, hproject', htask', _⟩ := hfixed
      rw [← hproject']
      exact h.live old hold hlive' taskId (htask'.trans htask)
    intro ws hws hlive taskId htask
    have hws' : ws ∈ written.workSessions := by
      have hmem : ws ∈ r.1.workSessions := hws
      rw [hdb'] at hmem
      exact hmem
    cases houtcome with
    | stayed => exact hmid ws hws' hlive taskId htask
    | resumed => exact hmid ws hws' hlive taskId htask
    | opened row hrow hstatus hslot hnone db₁ hdb₁ =>
      have hmem : ws ∈ mid.workSessions ++ [row] := by
        rw [hdb₁] at hws'
        split at hws' <;> exact hws'
      rcases List.mem_append.mp hmem with hold | hnew
      · exact hmid ws hold hlive taskId htask
      · obtain rfl := List.mem_singleton.mp hnew
        rw [hrow] at htask ⊢
        have htask' : call.taskId = some taskId := htask
        unfold ImportStore.asChecked at hchecked
        rw [hdup, htask'] at hchecked
        simp only [Option.isSome_none, Bool.or_false, Option.all_some, Bool.or_eq_true, beq_iff_eq,
          List.any_eq_true, Bool.and_eq_true] at hchecked
        obtain ⟨task, htaskMem, ⟨hid, hactive⟩, hproject⟩ := hchecked.resolve_left hstatus
        exact ⟨task, htaskMem, hid, hactive, hproject⟩

/-! ## Runs -/

/-- **Every step that meets the condition keeps the invariant.** -/
theorem importOp_ensures {state : ImportState} (h : ImportInvariant state.store)
    (lower : String → String) (op : ImportOp) (hkeeps : op.keepsTasks state = true) :
    Ensures (op.run lower state) ImportInvariant := by
  cases op with
  | admitSync => exact Library.ensures_ok.mpr h
  | syncTransaction callId tie now => exact admittedTransaction_ensures h callId tie now hkeeps
  | createTask projectId name description => exact createTask_ensures h lower projectId name description
  | setTaskStatus now taskId status => exact setStoredTaskStatus_ensures h now taskId status
  | setGithubProjectMapping now _ _ _ projectId =>
    exact Ensures.bind ensures_raiseIf fun _ _ => setProjectMapping_ensures h lower now projectId
  | setJiraProjectMapping now _ _ _ _ projectId =>
    exact Ensures.bind ensures_raiseIf fun _ _ => setProjectMapping_ensures h lower now projectId
  | setAsanaProjectMapping now _ _ _ projectId =>
    exact Ensures.bind ensures_raiseIf fun _ _ => setProjectMapping_ensures h lower now projectId
  | removeGithubProjectMapping now => exact removeProjectMapping_ensures h now
  | removeJiraProjectMapping now => exact removeProjectMapping_ensures h now
  | removeAsanaProjectMapping now => exact removeProjectMapping_ensures h now
  | applyGithubIssue _ _ _ _ observedAt clock =>
    exact Library.ensures_map.mpr (applyRemoteTask_ensures h lower _ observedAt clock hkeeps)
  | applyJiraIssue _ _ _ observedAt clock =>
    exact Library.ensures_map.mpr (applyRemoteTask_ensures h lower _ observedAt clock hkeeps)
  | applyAsanaTask _ _ _ observedAt clock =>
    refine Library.ensures_map.mpr (ensures_ite (fun _ => Library.ensures_error) fun _ => ?_)
    refine Ensures.bind (applyRemoteTask_ensures h lower _ observedAt clock hkeeps) fun r hr => ?_
    exact Ensures.bind ensures_raiseIf fun _ _ => Library.ensures_pure.mpr hr
  | archiveMissingGithubIssues now =>
    exact Library.ensures_map.mpr (archiveTasks_ensures h now _ id fun _ => ⟨rfl, rfl⟩)
  | archiveMissingJiraIssues now _ _ seenKeys snapshotAt =>
    exact Library.ensures_map.mpr (archiveMissingTwice_ensures h now seenKeys snapshotAt)
  | reconcileAsanaProjectTasks now _ _ seenKeys snapshotAt =>
    exact Library.ensures_map.mpr (archiveMissingTwice_ensures h now seenKeys snapshotAt)

theorem importStep_invariant {state : ImportState} (h : ImportInvariant state.store)
    (lower : String → String) (op : ImportOp) (hkeeps : op.keepsTasks state = true) :
    ImportInvariant (importStep lower state op).store := by
  unfold importStep
  dsimp only
  split
  · rename_i store hstore
    exact importOp_ensures h lower op hkeeps store hstore
  · exact h

theorem importInvariant_start (db : Database) (integrations : List IntegrationRow) :
    ImportInvariant (ImportState.start db integrations).store where
  work := storeInvariant_withoutWork db
  keys := List.nodup_nil
  ids := by
    intro row hrow
    cases hrow
  tasks := by
    intro row hrow
    cases hrow
  mappings := by
    refine ⟨List.nodup_nil, fun m hm => ?_⟩
    cases hm
  live := by
    intro ws hws
    cases hws

end

/-- **Live sessions stay on active tasks of their own project** in every run whose imports move no task
that is tracked, and whose heartbeats find their task as they checked it. -/
theorem onActiveTasks_run (lower : String → String) (db : Database)
    (integrations : List IntegrationRow) (ops : List ImportOp)
    (hkeeps : Guarded (importStep lower) (fun s op => op.keepsTasks s = true)
      (ImportState.start db integrations) ops) :
    OnActiveTasks (run (importStep lower) (ImportState.start db integrations) ops).store := by
  have hinv := guarded_invariant (fun s : ImportState => ImportInvariant s.store)
    (fun _ op h hguard => importStep_invariant h lower op hguard) (importInvariant_start db integrations)
    hkeeps
  exact hinv.live

/-! ## An issue that moves -/

/-- Two projects, a worker in both, and a Jira site. -/
def trackerOffice : Database :=
  { office with
    projects := [{ id := 1, enabled := true }, { id := 2, enabled := true }]
    projectMembers := [⟨1, 1, .worker⟩, ⟨2, 1, .worker⟩]
    nextId := 10 }

/-- The site's integration. -/
def jiraSite : List IntegrationRow := [{ id := 1, provider := .jira, enabled := true }]

/-- An issue, as it is fetched at an instant. -/
def jiraIssue (updatedAt : Int) (done : Bool) : JiraIssue :=
  { id := "7", key := "OPS-7", updatedAt, summary := "Rotate logs", description := "", done,
    url := "https://dayfinch.example/browse/OPS-7" }

/-- Both Jira projects are mapped, the issue is imported from the first, and work on it begins. -/
def issueTracked : List ImportOp :=
  [.setJiraProjectMapping 0 1 "10000" "OPS" "Operations" 1,
   .setJiraProjectMapping 0 1 "10001" "WEB" "Website" 2,
   .applyJiraIssue 1 "10000" (jiraIssue 0 false) 0 0,
   .admitSync 1 0 { pressed laptop 1 .active 0 with taskId := some 10 },
   .syncTransaction 1 (fun _ => 0) 0]

theorem onActiveTasks_issueDone :
    OnActiveTasks (run (importStep Library.Text.lower) (ImportState.start trackerOffice jiraSite)
      (issueTracked ++ [.applyJiraIssue 1 "10001" (jiraIssue 60000000 true) 60000000 60000000])).store :=
  onActiveTasks_run Library.Text.lower trackerOffice jiraSite _ (by decide +kernel)

instance (s : ImportStore) : Decidable (OnActiveTasks s) :=
  inferInstanceAs (Decidable (∀ ws ∈ s.rest.workSessions, ws.live → ∀ taskId ∈ ws.taskId,
    ∃ row ∈ s.tasks, row.id = taskId ∧ row.status = .active ∧ ws.projectId = some row.projectId))

/-- The issue moves to the other Jira project while it is worked on: the task follows, the session does
not. -/
theorem onActiveTasks_issueMoved :
    ¬ ∀ (lower : String → String) (db : Database) (integrations : List IntegrationRow)
      (ops : List ImportOp),
      OnActiveTasks (run (importStep lower) (ImportState.start db integrations) ops).store := by
  intro h
  have hmoved := h Library.Text.lower trackerOffice jiraSite
    (issueTracked ++ [.applyJiraIssue 1 "10001" (jiraIssue 60000000 false) 60000000 60000000])
  revert hmoved
  decide +kernel

end Dayfinch
