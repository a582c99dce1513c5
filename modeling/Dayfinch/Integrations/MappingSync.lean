/-
# Dayfinch.Integrations.MappingSync -- syncs that write the mappings they have read

A sync of Jira or GitHub reads the mappings of its integration once. Then it goes through them, with long
requests in between: a mapping whose project the provider no longer lists is removed, and the others are
written back with the names of the listing, by the same functions that administrators use. GitHub's writes
back only where the name has changed. Meanwhile administrators set and remove mappings, and other syncs
run.

`findsAsRead` is the condition that a sync, when it comes to a mapping, finds it as it was read, and the
project listed. In runs that meet it the mapping of every project is the administrators' last choice
(`choiceKept_run`). What any transaction of the importers does to the mappings is said by its choice alone
(`run_mappedTo`), which is all that the proof uses of them.
-/
import Dayfinch.Integrations.LiveTasks

namespace Dayfinch

open Library (updateWhere orderBy run Guarded guarded_invariant bind_eq_ok find?_updateWhere)
open Library.Text (truncate strip)

/-! ## Choices -/

/-- The key of a mapping. -/
structure MappingKey where
  provider : TaskProvider
  integrationId : Nat
  container : Container
  deriving DecidableEq, Repr

/-- The project that a remote project is mapped to. -/
def ImportStore.mappedTo (s : ImportStore) (key : MappingKey) : Option Nat :=
  (s.mapping? key.provider key.integrationId key.container).map (·.projectId)

/-- The mapping that a transaction chooses: a project, or none. -/
def ImportOp.choice : ImportOp → Option (MappingKey × Option Nat)
  | .setGithubProjectMapping _ integrationId repositoryId _ projectId =>
    some (⟨.github, integrationId, .repository repositoryId⟩, some projectId)
  | .setJiraProjectMapping _ integrationId id _ _ projectId =>
    some (⟨.jira, integrationId, .project (strip id)⟩, some projectId)
  | .setAsanaProjectMapping _ integrationId id _ projectId =>
    some (⟨.asana, integrationId, .project (strip id)⟩, some projectId)
  | .removeGithubProjectMapping _ integrationId repositoryId =>
    some (⟨.github, integrationId, .repository repositoryId⟩, none)
  | .removeJiraProjectMapping _ integrationId id => some (⟨.jira, integrationId, .project id⟩, none)
  | .removeAsanaProjectMapping _ integrationId id => some (⟨.asana, integrationId, .project id⟩, none)
  | _ => none

/-- The choices with one more. -/
def record (choice : Option (MappingKey × Option Nat)) (chosen : MappingKey → Option Nat) :
    MappingKey → Option Nat :=
  match choice with
  | none => chosen
  | some (key, projectId) => fun k => if k = key then projectId else chosen k

/-- `external_repository_name` after a transaction. -/
def ImportOp.rename (names : Nat → Int → String) : ImportOp → Nat → Int → String
  | .setGithubProjectMapping _ integrationId repositoryId name _ => fun i r =>
    if i = integrationId ∧ r = repositoryId then truncate 255 (strip name) else names i r
  | _ => names

/-! ## Syncs -/

/-- A project or repository that the provider lists; a repository has no `key`. -/
structure ListedProject where
  container : Container
  key : String
  name : String
  deriving DecidableEq, Repr

/-- A mapping as a sync has read it; `name` is the repository's. -/
structure SyncMapping where
  container : Container
  name : String
  projectId : Nat
  deriving DecidableEq, Repr

/-- A sync that runs: what the provider listed, and the mappings that it still has to go through. `changed`
are the mappings that administrators have changed since it began. -/
structure SyncPass where
  provider : TaskProvider
  integrationId : Nat
  accessible : List ListedProject
  pending : List SyncMapping
  changed : List MappingKey := []
  deriving DecidableEq, Repr

/-- `accessible.get(..)`: of two entries of one identifier the dictionary keeps the last. -/
def SyncPass.listed? (pass : SyncPass) (container : Container) : Option ListedProject :=
  pass.accessible.reverse.find? (·.container == container)

/-- What a sync writes where it comes to a mapping, if it writes anything. -/
def SyncPass.write (pass : SyncPass) (now : Int) (mapping : SyncMapping) : Option ImportOp :=
  match pass.provider, mapping.container with
  | .jira, .project externalId =>
    match pass.listed? mapping.container with
    | none => some (.removeJiraProjectMapping now pass.integrationId externalId)
    | some project =>
      some (.setJiraProjectMapping now pass.integrationId externalId project.key project.name
        mapping.projectId)
  | .github, .repository repositoryId =>
    match pass.listed? mapping.container with
    | none => some (.removeGithubProjectMapping now pass.integrationId repositoryId)
    | some repository =>
      if repository.name ≠ mapping.name then
        some (.setGithubProjectMapping now pass.integrationId repositoryId repository.name
          mapping.projectId)
      else none
  | _, _ => none

/-- The importers, the names of the repositories, the syncs that run, and the administrators' choices. -/
structure MappingState where
  imports : ImportState
  repositoryName : Nat → Int → String
  passes : Nat → Option SyncPass
  chosen : MappingKey → Option Nat

namespace MappingState

/-- No sync runs, and the mappings are those that were chosen. -/
def start (store : ImportStore) (repositoryName : Nat → Int → String) : MappingState where
  imports := { store, admitted := fun _ => none }
  repositoryName := repositoryName
  passes := fun _ => none
  chosen := store.mappedTo

/-- `jira_project_mappings` and `github_project_mappings`; `rank` is the order of the answer. -/
def projectMappings (s : MappingState) (provider : TaskProvider) (integrationId : Nat)
    (rank : ProjectMapping → Nat) : List SyncMapping :=
  (orderBy rank (fun _ => 0)
    (s.imports.store.mappings.filter fun m =>
      m.provider == provider && m.integrationId == integrationId)).map fun m =>
    { container := m.container
      name := match m.container with
        | .repository id => s.repositoryName integrationId id
        | .project _ => ""
      projectId := m.projectId }

/-- A sync goes on as `pass`, or ends. -/
def setPass (s : MappingState) (passId : Nat) (pass : Option SyncPass) : MappingState :=
  { s with passes := fun i => if i = passId then pass else s.passes i }

/-- A transaction commits. -/
def commit (lower : String → String) (s : MappingState) (op : ImportOp) : MappingState :=
  { s with imports := importStep lower s.imports op, repositoryName := op.rename s.repositoryName }

/-- An administrator's choice is the last one, and every sync that runs began before it. -/
def choose (s : MappingState) (choice : Option (MappingKey × Option Nat)) : MappingState :=
  { s with
    chosen := record choice s.chosen
    passes := fun i => (s.passes i).map fun pass =>
      { pass with changed := (choice.map (·.1)).toList ++ pass.changed } }

end MappingState

/-- A step. `transaction` is a transaction of the importers other than those of `write`: what
administrators do, and what syncs do between two mappings. -/
inductive MappingOp
  | transaction (op : ImportOp)
  | begin (passId : Nat) (provider : TaskProvider) (integrationId : Nat)
      (accessible : List ListedProject) (rank : ProjectMapping → Nat)
  | advance (passId : Nat) (now : Int)
  | abandon (passId : Nat)

/-- A sync comes to its next mapping; where the write raises, it ends. -/
def advancePass (lower : String → String) (s : MappingState) (passId : Nat) (pass : SyncPass)
    (now : Int) : MappingState :=
  match pass.pending with
  | [] => s.setPass passId none
  | mapping :: pending =>
    match pass.write now mapping with
    | none => s.setPass passId (some { pass with pending })
    | some op =>
      match op.run lower s.imports with
      | .error _ => s.setPass passId none
      | .ok _ => (s.commit lower op).setPass passId (some { pass with pending })

/-- One step. -/
def mappingStep (lower : String → String) (s : MappingState) : MappingOp → MappingState
  | .transaction op =>
    match op.run lower s.imports with
    | .error _ => { s with imports := importStep lower s.imports op }
    | .ok _ => (s.commit lower op).choose op.choice
  | .begin passId provider integrationId accessible rank =>
    if (s.passes passId).isSome then s
    else s.setPass passId (some
      { provider, integrationId, accessible, pending := s.projectMappings provider integrationId rank })
  | .advance passId now =>
    match s.passes passId with
    | none => s
    | some pass => advancePass lower s passId pass now
  | .abandon passId => s.setPass passId none

/-! ## The property -/

/-- **The last choice is kept**: where every sync that began before the last change of a mapping is over,
the mapping is what the administrators chose. -/
def ChoiceKept (s : MappingState) : Prop :=
  ∀ key, (∀ passId pass, s.passes passId = some pass → key ∉ pass.changed) →
    s.imports.store.mappedTo key = s.chosen key

/-! ## The condition -/

/-- The identifier as `set_jira_project_mapping` stores it. -/
def Container.stored : Container → Container
  | .repository id => .repository id
  | .project key => .project (strip key)

/-- The mapping that a sync comes to is as it was read where the sync writes it back, and is gone where the
provider does not list the project. -/
def SyncPass.findsAsRead (pass : SyncPass) (s : ImportStore) (mapping : SyncMapping) : Bool :=
  let found (container : Container) : Option Nat :=
    s.mappedTo ⟨pass.provider, pass.integrationId, container⟩
  match pass.listed? mapping.container with
  | none => found mapping.container == none
  | some project =>
    (pass.provider == .github && project.name == mapping.name) ||
      found mapping.container.stored == some mapping.projectId

/-- Where the step is one of a sync that comes to a mapping, it finds it as it was read. -/
def MappingOp.findsAsRead (s : MappingState) : MappingOp → Bool
  | .advance passId _ =>
    (s.passes passId).all fun pass =>
      pass.pending.head?.all fun mapping => pass.findsAsRead s.imports.store mapping
  | _ => true

/-! ## What a transaction does to the mappings -/

section

variable {s s' : ImportStore} {provider : TaskProvider} {integrationId : Nat} {container : Container}
variable {lower : String → String} {now : Int}

theorem closeTasks_mappings {taskIds : List Nat} (h : s.closeTasks now taskIds = .ok s') :
    s'.mappings = s.mappings := by
  obtain ⟨rest, rfl, -⟩ := closeTasks_frame h
  rfl

theorem closeTasksIf_mappings {condition : Bool} {taskIds : List Nat}
    (h : s.closeTasksIf condition now taskIds = .ok s') : s'.mappings = s.mappings := by
  unfold ImportStore.closeTasksIf at h
  split at h
  · exact closeTasks_mappings h
  · cases h
    rfl

theorem putTasks_mappings {taken : Error} {tasks : List TaskRow}
    (h : s.putTasks lower taken tasks = .ok s') : s'.mappings = s.mappings := by
  unfold ImportStore.putTasks at h
  split at h
  · cases h
    rfl
  · cases h

theorem mappedTo_congr (h : s'.mappings = s.mappings) : s'.mappedTo = s.mappedTo := by
  funext key
  unfold ImportStore.mappedTo ImportStore.mapping?
  rw [h]

/-- The mapping of another key is not selected. -/
theorem isOf_other {key : MappingKey} (hne : key ≠ ⟨provider, integrationId, container⟩)
    {m : ProjectMapping}
    (hm : (m.provider == key.provider && m.isOf key.integrationId key.container) = true) :
    (m.provider == provider && m.isOf integrationId container) = false := by
  simp only [ProjectMapping.isOf, Bool.and_eq_true, beq_iff_eq] at hm
  obtain ⟨hprovider, hintegration, hcontainer⟩ := hm
  refine Bool.eq_false_iff.mpr fun hself => hne ?_
  simp only [ProjectMapping.isOf, Bool.and_eq_true, beq_iff_eq] at hself
  obtain ⟨hprovider', hintegration', hcontainer'⟩ := hself
  cases key
  rw [← hprovider', ← hintegration', ← hcontainer', hprovider, hintegration, hcontainer]

/-- A mapping that is put is the one of its key, and the others stay. -/
theorem mappedTo_putMapping (projectId : Nat)
    (h : s'.mappings = putMapping ⟨provider, integrationId, container, projectId⟩
      (s.mapping? provider integrationId container) s.mappings) :
    s'.mappedTo = record (some (⟨provider, integrationId, container⟩, some projectId)) s.mappedTo := by
  funext key
  cases hexisting : s.mapping? provider integrationId container with
  | none =>
    rw [hexisting] at h
    simp only [record, ImportStore.mappedTo, ImportStore.mapping?, h]
    have hnone : s.mappings.find? (fun m => m.provider == provider && m.isOf integrationId container) =
      none := hexisting
    simp only [putMapping, List.find?_append]
    by_cases hkey : key = ⟨provider, integrationId, container⟩
    · subst hkey
      rw [if_pos rfl, hnone, Option.none_or, List.find?_cons_of_pos (by simp [ProjectMapping.isOf])]
      rfl
    · rw [if_neg hkey]
      have hother : ∀ m : ProjectMapping,
          (m.provider == key.provider && m.isOf key.integrationId key.container) = true →
          m ≠ ⟨provider, integrationId, container, projectId⟩ := by
        rintro m hm rfl
        have hself := isOf_other hkey hm
        simp [ProjectMapping.isOf] at hself
      have hnot : [(⟨provider, integrationId, container, projectId⟩ : ProjectMapping)].find?
          (fun m => m.provider == key.provider && m.isOf key.integrationId key.container) = none := by
        rw [List.find?_eq_none]
        intro m hm hsel
        exact hother m hsel (List.mem_singleton.mp hm)
      rw [hnot, Option.or_none]
  | some old =>
    rw [hexisting] at h
    simp only [record, ImportStore.mappedTo, ImportStore.mapping?, h]
    have hsome : s.mappings.find? (fun m => m.provider == provider && m.isOf integrationId container) =
      some old := hexisting
    simp only [putMapping]
    rw [find?_updateWhere]
    swap
    · exact fun _ => rfl
    by_cases hkey : key = ⟨provider, integrationId, container⟩
    · subst hkey
      have hsel := List.find?_some hsome
      simp only [hsome, Option.map_some, if_true]
      rw [if_pos hsel]
    · rw [if_neg hkey]
      cases hfind : s.mappings.find? fun m =>
          m.provider == key.provider && m.isOf key.integrationId key.container with
      | none => rfl
      | some m =>
        have hsel := List.find?_some hfind
        have hoff := isOf_other hkey hsel
        simp only [Option.map_some, hoff, Bool.false_eq_true, if_false]

/-- A mapping that is removed is gone, and the others stay. -/
theorem mappedTo_remove
    (h : s'.mappings = s.mappings.filter fun m =>
      !(m.provider == provider && m.isOf integrationId container)) :
    s'.mappedTo = record (some (⟨provider, integrationId, container⟩, none)) s.mappedTo := by
  funext key
  simp only [record, ImportStore.mappedTo, ImportStore.mapping?, h]
  by_cases hkey : key = ⟨provider, integrationId, container⟩
  · subst hkey
    rw [if_pos rfl, Option.map_eq_none_iff, List.find?_eq_none]
    intro m hm hsel
    have hoff := (List.mem_filter.mp hm).2
    rw [hsel] at hoff
    cases hoff
  · rw [if_neg hkey, List.find?_filter]
    congr 2
    funext m
    by_cases hm : (m.provider == key.provider && m.isOf key.integrationId key.container) = true
    · rw [hm, isOf_other hkey hm]
      rfl
    · rw [Bool.not_eq_true] at hm
      simp [hm]

/-- **A mapping is set**: the transaction chooses its project. -/
theorem setProjectMapping_mappedTo {projectId : Nat}
    (h : setProjectMapping provider lower now s integrationId container projectId = .ok s') :
    s'.mappedTo = record (some (⟨provider, integrationId, container⟩, some projectId)) s.mappedTo := by
  obtain ⟨-, -, h⟩ := bind_eq_ok.mp h
  obtain ⟨-, -, h⟩ := bind_eq_ok.mp h
  obtain ⟨s₁, hclosed, h⟩ := bind_eq_ok.mp h
  obtain ⟨s₂, hput, h⟩ := bind_eq_ok.mp h
  have hsame : s₂.mappings = s.mappings := (putTasks_mappings hput).trans (closeTasksIf_mappings hclosed)
  cases h
  exact mappedTo_putMapping projectId (by rw [← hsame])

/-- **A mapping is removed.** -/
theorem removeProjectMapping_mappedTo
    (h : removeProjectMapping provider now s integrationId container = .ok s') :
    s'.mappedTo = record (some (⟨provider, integrationId, container⟩, none)) s.mappedTo := by
  obtain ⟨-, -, h⟩ := bind_eq_ok.mp h
  obtain ⟨s₁, hclosed, h⟩ := bind_eq_ok.mp h
  have hsame := closeTasks_mappings hclosed
  cases h
  exact mappedTo_remove (by rw [← hsame])

theorem applyRemoteTask_mappings {remote : RemoteTask} {observedAt clock : Int} {taskId : Option Nat}
    (h : applyRemoteTask provider lower s integrationId container remote observedAt clock = .ok (s', taskId)) :
    s'.mappings = s.mappings := by
  unfold applyRemoteTask at h
  split at h
  · cases h
    rfl
  · split at h
    · cases h
      rfl
    · split at h
      · split at h
        · cases h
          rfl
        · obtain ⟨s₁, hclosed, h⟩ := bind_eq_ok.mp h
          obtain ⟨s₂, hput, h⟩ := bind_eq_ok.mp h
          cases h
          exact (putTasks_mappings hput).trans (closeTasksIf_mappings hclosed)
      · dsimp only at h
        split at h
        · cases h
        · split at h
          · cases h
          · obtain ⟨s₁, hput, h⟩ := bind_eq_ok.mp h
            have hsame := putTasks_mappings hput
            cases h
            exact hsame

theorem archiveTasks_mappings {selected : TaskRow → Bool} {after : TaskRow → TaskRow} {n : Nat}
    (h : archiveTasks now s selected after = .ok (s', n)) : s'.mappings = s.mappings := by
  obtain ⟨s₁, hclosed, h⟩ := bind_eq_ok.mp h
  have hsame := closeTasks_mappings hclosed
  cases h
  exact hsame

theorem archiveMissingTwice_mappings {seenKeys : List String} {snapshotAt : Int} {n : Nat}
    (h : archiveMissingTwice now s integrationId container seenKeys snapshotAt = .ok (s', n)) :
    s'.mappings = s.mappings := by
  have hsame := archiveTasks_mappings h
  exact hsame

end

/-! ## Every transaction has its choice -/

section

variable {lower : String → String} {s : ImportState} {store : ImportStore}

/-- A result without its other part. -/
theorem map_fst_eq_ok {β : Type} {x : Except Error (ImportStore × β)} (h : x.map (·.1) = .ok store) :
    ∃ b, x = .ok (store, b) := by
  cases x with
  | error e => cases h
  | ok r =>
    cases h
    exact ⟨r.2, rfl⟩

theorem run_mappings {op : ImportOp} (hchoice : op.choice = none) (h : op.run lower s = .ok store) :
    store.mappings = s.store.mappings := by
  cases op with
  | admitSync callId now call =>
    cases h
    rfl
  | syncTransaction callId tie now =>
    simp only [ImportOp.run, admittedTransaction] at h
    split at h
    · cases h
      rfl
    · cases hsync : syncTransaction tie now s.store.db ‹_› ‹_› with
      | error e =>
        rw [hsync] at h
        cases h
      | ok r =>
        rw [hsync] at h
        cases h
        rfl
  | createTask projectId name description =>
    simp only [ImportOp.run, createTask] at h
    split at h
    · cases h
    · obtain ⟨s₁, hput, h⟩ := bind_eq_ok.mp h
      have hsame := putTasks_mappings hput
      cases h
      exact hsame
  | setTaskStatus now taskId status =>
    obtain ⟨rest, -, h⟩ := bind_eq_ok.mp h
    cases h
    rfl
  | applyGithubIssue integrationId repositoryId repositoryName issue observedAt clock =>
    obtain ⟨taskId, h⟩ := map_fst_eq_ok h
    exact applyRemoteTask_mappings h
  | applyJiraIssue integrationId id issue observedAt clock =>
    obtain ⟨taskId, h⟩ := map_fst_eq_ok h
    exact applyRemoteTask_mappings h
  | applyAsanaTask integrationId id task observedAt clock =>
    obtain ⟨taskId, h⟩ := map_fst_eq_ok h
    simp only [applyAsanaTask] at h
    split at h
    · cases h
    · obtain ⟨r, happly, h⟩ := bind_eq_ok.mp h
      obtain ⟨-, -, h⟩ := bind_eq_ok.mp h
      cases h
      exact applyRemoteTask_mappings happly
  | archiveMissingGithubIssues now integrationId repositoryId seenKeys snapshotAt =>
    obtain ⟨n, h⟩ := map_fst_eq_ok h
    exact archiveTasks_mappings h
  | archiveMissingJiraIssues now integrationId id seenKeys snapshotAt =>
    obtain ⟨n, h⟩ := map_fst_eq_ok h
    exact archiveMissingTwice_mappings h
  | reconcileAsanaProjectTasks now integrationId id seenKeys snapshotAt =>
    obtain ⟨n, h⟩ := map_fst_eq_ok h
    exact archiveMissingTwice_mappings h
  | _ => cases hchoice

/-- **The mappings after a transaction** are those before, and its choice. -/
theorem run_mappedTo {op : ImportOp} (h : op.run lower s = .ok store) :
    store.mappedTo = record op.choice s.store.mappedTo := by
  cases op with
  | setGithubProjectMapping now integrationId repositoryId repositoryName projectId =>
    obtain ⟨-, -, h⟩ := bind_eq_ok.mp h
    exact setProjectMapping_mappedTo h
  | setJiraProjectMapping now integrationId id key name projectId =>
    obtain ⟨-, -, h⟩ := bind_eq_ok.mp h
    exact setProjectMapping_mappedTo h
  | setAsanaProjectMapping now integrationId id name projectId =>
    obtain ⟨-, -, h⟩ := bind_eq_ok.mp h
    exact setProjectMapping_mappedTo h
  | removeGithubProjectMapping now integrationId repositoryId => exact removeProjectMapping_mappedTo h
  | removeJiraProjectMapping now integrationId id => exact removeProjectMapping_mappedTo h
  | removeAsanaProjectMapping now integrationId id => exact removeProjectMapping_mappedTo h
  | _ => exact mappedTo_congr (run_mappings rfl h)

end

/-! ## Runs -/

variable {lower : String → String} {s : MappingState}

/-- Recording what is there already changes nothing. -/
theorem record_of_eq {key : MappingKey} {projectId : Option Nat} {mapped : MappingKey → Option Nat}
    (h : mapped key = projectId) : record (some (key, projectId)) mapped = mapped := by
  funext k
  show (if k = key then projectId else mapped k) = mapped k
  by_cases hk : k = key
  · rw [if_pos hk, hk, h]
  · rw [if_neg hk]

/-- A sync that finds a mapping as it was read chooses what is there. -/
theorem record_write {pass : SyncPass} {store : ImportStore} {now : Int} {mapping : SyncMapping}
    {op : ImportOp} (hwrite : pass.write now mapping = some op)
    (hfinds : pass.findsAsRead store mapping = true) :
    record op.choice store.mappedTo = store.mappedTo := by
  obtain ⟨provider, integrationId, accessible, pending, changed⟩ := pass
  obtain ⟨container, name, projectId⟩ := mapping
  simp only [SyncPass.findsAsRead] at hfinds
  simp only [SyncPass.write] at hwrite
  split at hwrite
  · split at hwrite
    · rename_i hlisted
      cases hwrite
      rw [hlisted] at hfinds
      exact record_of_eq (eq_of_beq hfinds)
    · rename_i hlisted
      cases hwrite
      rw [hlisted] at hfinds
      exact record_of_eq (eq_of_beq hfinds)
  · split at hwrite
    · rename_i hlisted
      cases hwrite
      rw [hlisted] at hfinds
      exact record_of_eq (eq_of_beq hfinds)
    · rename_i repository hlisted
      split at hwrite
      · rename_i hrenamed
        cases hwrite
        rw [hlisted] at hfinds
        have hname : (repository.name == name) = false := by simpa using hrenamed
        dsimp only at hfinds
        rw [hname, Bool.and_false, Bool.false_or] at hfinds
        exact record_of_eq (eq_of_beq hfinds)
      · cases hwrite
  · cases hwrite

/-- What a step of the importers makes of the store. -/
theorem importStep_store {s : ImportState} {op : ImportOp} {store : ImportStore}
    (h : op.run lower s = .ok store) : (importStep lower s op).store = store := by
  simp only [importStep, h]

theorem importStep_store_error {s : ImportState} {op : ImportOp} {e : Error}
    (h : op.run lower s = .error e) : (importStep lower s op).store = s.store := by
  simp only [importStep, h]

/-- **One step** keeps the mappings as they were chosen. -/
theorem mappingStep_chosen (h : s.imports.store.mappedTo = s.chosen) {op : MappingOp}
    (hfinds : op.findsAsRead s = true) :
    (mappingStep lower s op).imports.store.mappedTo = (mappingStep lower s op).chosen := by
  cases op with
  | transaction op =>
    simp only [mappingStep]
    cases hrun : op.run lower s.imports with
    | error e =>
      show (importStep lower s.imports op).store.mappedTo = s.chosen
      rw [importStep_store_error hrun]
      exact h
    | ok store =>
      show (importStep lower s.imports op).store.mappedTo = record op.choice s.chosen
      rw [importStep_store hrun, run_mappedTo hrun, h]
  | begin passId provider integrationId accessible rank =>
    simp only [mappingStep]
    split <;> exact h
  | abandon passId => exact h
  | advance passId now =>
    simp only [mappingStep]
    cases hpass : s.passes passId with
    | none => exact h
    | some pass =>
      simp only [advancePass]
      cases hpending : pass.pending with
      | nil => exact h
      | cons mapping pending =>
        have hfound : pass.findsAsRead s.imports.store mapping = true := by
          simpa [MappingOp.findsAsRead, hpass, hpending] using hfinds
        dsimp only
        cases hwrite : pass.write now mapping with
        | none => exact h
        | some op =>
          dsimp only
          cases hrun : op.run lower s.imports with
          | error e => exact h
          | ok store =>
            show (importStep lower s.imports op).store.mappedTo = s.chosen
            rw [importStep_store hrun, run_mappedTo hrun, record_write hwrite hfound]
            exact h

/-- **The last choice is kept** in every run whose syncs find each mapping as they read it. -/
theorem choiceKept_run (lower : String → String) (store : ImportStore)
    (repositoryName : Nat → Int → String) (ops : List MappingOp)
    (hfinds : Guarded (mappingStep lower) (fun s op => op.findsAsRead s = true)
      (.start store repositoryName) ops) :
    ChoiceKept (run (mappingStep lower) (.start store repositoryName) ops) := by
  have hchosen := guarded_invariant (fun s : MappingState => s.imports.store.mappedTo = s.chosen)
    (fun _ _ h hguard => mappingStep_chosen h hguard) (s := .start store repositoryName) rfl hfinds
  intro key _
  rw [hchosen]

/-- The sync that a step begins. -/
def MappingOp.begins : MappingOp → Option Nat
  | .begin passId _ _ _ _ => some passId
  | _ => none

theorem setPass_other {i passId : Nat} {pass : Option SyncPass} (hne : passId ≠ i) :
    (s.setPass passId pass).passes i = s.passes i := if_neg (Ne.symm hne)

/-- A sync runs only once it has begun. -/
theorem mappingStep_idle {i : Nat} (h : s.passes i = none) {op : MappingOp} (hop : op.begins ≠ some i) :
    (mappingStep lower s op).passes i = none := by
  cases op with
  | transaction op =>
    simp only [mappingStep]
    split
    · exact h
    · show Option.map _ (s.passes i) = none
      rw [h]
      rfl
  | begin passId provider integrationId accessible rank =>
    have hne : passId ≠ i := fun heq => hop (congrArg some heq)
    simp only [mappingStep]
    split
    · exact h
    · rw [setPass_other hne]
      exact h
  | abandon passId =>
    show (if i = passId then none else s.passes i) = none
    split
    · rfl
    · exact h
  | advance passId now =>
    simp only [mappingStep]
    cases hpass : s.passes passId with
    | none => exact h
    | some pass =>
      have hne : passId ≠ i := by
        rintro rfl
        rw [h] at hpass
        cases hpass
      simp only [advancePass]
      split
      · rw [setPass_other hne]
        exact h
      · split
        · rw [setPass_other hne]
          exact h
        · split
          · rw [setPass_other hne]
            exact h
          · rw [setPass_other hne]
            exact h

/-! ## A mapping that comes back -/

/-- The site lists its project of operations. -/
def operationsListed : List ListedProject := [⟨.project "10000", "OPS", "Operations"⟩]

/-- The project is mapped, and a sync has read the mapping. -/
def syncBegun : List MappingOp :=
  [.transaction (.setJiraProjectMapping 0 1 "10000" "OPS" "Operations" 1),
   .begin 1 .jira 1 operationsListed fun _ => 0]

/-- The tables before. -/
def mappingOffice : ImportStore := { rest := trackerOffice, tasks := [], integrations := jiraSite, mappings := [] }

/-- The sync ends before the administrator changes the mapping. -/
theorem choiceKept_run_changedAfter :
    ChoiceKept (run (mappingStep Library.Text.lower) (.start mappingOffice fun _ _ => "")
      (syncBegun ++ [.advance 1 1, .advance 1 2,
        .transaction (.setJiraProjectMapping 3 1 "10000" "OPS" "Operations" 2)])) :=
  choiceKept_run Library.Text.lower mappingOffice (fun _ _ => "") _ (by decide +kernel)

/-- **A removed mapping comes back**: the administrator removes it while the sync lists the projects, and the
sync writes it once more. -/
theorem choiceKept_removedMeanwhile :
    ¬ ∀ (lower : String → String) (store : ImportStore) (repositoryName : Nat → Int → String)
      (ops : List MappingOp), ChoiceKept (run (mappingStep lower) (.start store repositoryName) ops) := by
  intro h
  have hkept := h Library.Text.lower mappingOffice (fun _ _ => "")
    (syncBegun ++ [.transaction (.removeJiraProjectMapping 1 1 "10000"), .advance 1 2, .advance 1 3])
    ⟨.jira, 1, .project "10000"⟩
  have hover : ∀ passId, (run (mappingStep Library.Text.lower) (.start mappingOffice fun _ _ => "")
      (syncBegun ++ [.transaction (.removeJiraProjectMapping 1 1 "10000"), .advance 1 2,
        .advance 1 3])).passes passId = none := by
    intro passId
    by_cases hone : passId = 1
    · subst hone
      decide +kernel
    · have hbegins : Guarded (mappingStep Library.Text.lower) (fun _ op => op.begins ≠ some passId)
          (.start mappingOffice fun _ _ => "") (syncBegun ++
            [.transaction (.removeJiraProjectMapping 1 1 "10000"), .advance 1 2, .advance 1 3]) := by
        simp [syncBegun, MappingOp.begins, Ne.symm hone]
      exact guarded_invariant (fun s : MappingState => s.passes passId = none)
        (fun _ _ h hop => mappingStep_idle h hop) rfl hbegins
  have hmapped := hkept fun passId pass hpass => by rw [hover passId] at hpass; cases hpass
  revert hmapped
  decide +kernel

end Dayfinch
