/-
# Dayfinch.Integrations.Importers -- tasks that are imported from GitHub, Jira and Asana

A repository or project of a provider is mapped to a project, and its issues become tasks of that
project. Administrators set and remove mappings, workers apply the issues they have fetched, and after a
full listing they archive the tasks that were not in it. All of these rewrite `tasks` rows, each in one
transaction, and close the sessions on a task where they archive it.

The three providers have the same four functions, with their own words, keys and columns: one definition
each, and the provider's functions are that definition at its own values. Of a `tasks` row the columns of
`Schema` are joined by the name, the description and the link to the remote task; its creator is left out,
with the checks of the columns other than the key. `lower` is PostgreSQL's function, which depends on the
collation of the database.
-/
import Dayfinch.Library.Text
import Dayfinch.Work.StoreInvariant

namespace Dayfinch

open Library (updateWhere Guarded)
open Library.Text (truncate withoutNul collapse strip fullmatch)

/-! ## Tables -/

/-- The providers that tasks are imported from. -/
inductive TaskProvider
  | github | jira | asana
  deriving DecidableEq, Repr

namespace TaskProvider

def name : TaskProvider → String
  | github => "GitHub"
  | jira => "Jira"
  | asana => "Asana"

/-- What is mapped to a project. -/
def container : TaskProvider → String
  | github => "repository"
  | jira | asana => "project"

def integrationNotFound (p : TaskProvider) : String := p.name ++ " integration not found"
def mappingNotFound (p : TaskProvider) : String := p.name ++ " " ++ p.container ++ " mapping not found"
def nameTaken (p : TaskProvider) : String :=
  "This project already has a task with the same " ++ p.name ++ "-derived name"

end TaskProvider

/-- `external_repository_id` of a GitHub task, `external_container_key` of the others. -/
inductive Container
  | repository (id : Int)
  | project (key : String)
  deriving DecidableEq, Repr

/-- The columns of a `tasks` row that tie it to a remote task. -/
structure TaskLink where
  integrationId : Nat
  container : Container
  externalKey : String
  url : String
  displayKey : Option String
  updatedAt : Option Int
  observedAt : Option Int
  missingSince : Option Int
  deriving DecidableEq, Repr

/-- `tasks`, with the columns the importers write. -/
structure TaskRow extends Task where
  name : String
  description : String
  link : Option TaskLink
  deriving DecidableEq, Repr

/-- `integrations`. -/
structure IntegrationRow where
  id : Nat
  provider : TaskProvider
  enabled : Bool
  deriving DecidableEq, Repr

/-- `integration_project_mappings`, `jira_project_mappings` and `asana_project_mappings`. -/
structure ProjectMapping where
  provider : TaskProvider
  integrationId : Nat
  container : Container
  projectId : Nat
  deriving DecidableEq, Repr

/-- The tables of the importers, and `rest`, the tables of work; the tasks in `rest` are not used. -/
structure ImportStore where
  rest : Database
  tasks : List TaskRow
  integrations : List IntegrationRow
  mappings : List ProjectMapping
  deriving DecidableEq, Repr

/-- The mapping is of this integration and this repository or project. -/
def ProjectMapping.isOf (m : ProjectMapping) (integrationId : Nat) (container : Container) : Bool :=
  m.integrationId == integrationId && m.container == container

/-- The task was imported from this repository or project. -/
def TaskRow.inContainer (row : TaskRow) (integrationId : Nat) (container : Container) : Bool :=
  row.link.any fun l => l.integrationId == integrationId && l.container == container

/-- The task was imported under this key. -/
def TaskRow.hasKey (row : TaskRow) (integrationId : Nat) (externalKey : String) : Bool :=
  row.link.any fun l => l.integrationId == integrationId && l.externalKey == externalKey

namespace ImportStore

/-- The tables of work, with the tasks of this store. -/
def db (s : ImportStore) : Database := { s.rest with tasks := s.tasks.map (·.toTask) }

/-- `SELECT id FROM integrations WHERE id=.. AND provider=.. AND enabled=TRUE`. -/
def integrationEnabled (s : ImportStore) (provider : TaskProvider) (integrationId : Nat) : Bool :=
  (s.integrations.find? (·.id == integrationId)).any fun i => i.provider == provider && i.enabled

/-- The mapping in the provider's table. -/
def mapping? (s : ImportStore) (provider : TaskProvider) (integrationId : Nat) (container : Container) :
    Option ProjectMapping :=
  s.mappings.find? fun m => m.provider == provider && m.isOf integrationId container

/-- The task with this key. -/
def linked? (s : ImportStore) (integrationId : Nat) (externalKey : String) : Option TaskRow :=
  s.tasks.find? (·.hasKey integrationId externalKey)

/-- The tasks of a repository or project. -/
def containerTasks (s : ImportStore) (integrationId : Nat) (container : Container) : List Nat :=
  (s.tasks.filter (·.inContainer integrationId container)).map (·.id)

/-- `_close_task_sessions`. -/
def closeTasks (observedAt : Int) (taskIds : List Nat) (s : ImportStore) : Except Error ImportStore :=
  (closeTaskSessions observedAt s.db taskIds).map fun rest => { s with rest }

/-- `if condition: _close_task_sessions(..)`. -/
def closeTasksIf (condition : Bool) (observedAt : Int) (taskIds : List Nat) (s : ImportStore) :
    Except Error ImportStore :=
  if condition then s.closeTasks observedAt taskIds else .ok s

/-- An update of `tasks`, with `uq_tasks_project_name_lower`. -/
def putTasks (lower : String → String) (taken : Error) (tasks : List TaskRow) (s : ImportStore) :
    Except Error ImportStore :=
  if (tasks.map fun row => (row.projectId, lower row.name)).Nodup then .ok { s with tasks }
  else .error taken

end ImportStore

/-! ## Mappings -/

/-- The row of a mapping is inserted or updated. -/
def putMapping (mapping : ProjectMapping) (existing : Option ProjectMapping)
    (mappings : List ProjectMapping) : List ProjectMapping :=
  match existing with
  | none => mappings ++ [mapping]
  | some _ =>
    updateWhere (fun m => m.provider == mapping.provider && m.isOf mapping.integrationId mapping.container)
      (fun m => { m with projectId := mapping.projectId }) mappings

/-- `set_*_project_mapping`, after its format check: the sessions on the mapped tasks are closed where
the mapping changes its project, and the tasks move along. -/
def setProjectMapping (provider : TaskProvider) (lower : String → String) (now : Int) (s : ImportStore)
    (integrationId : Nat) (container : Container) (projectId : Nat) : Except Error ImportStore := do
  raiseIf (s.integrationEnabled provider integrationId = false) provider.integrationNotFound
  raiseIf ((s.rest.getProject projectId).any (·.enabled) = false) "Active project not found"
  let existing := s.mapping? provider integrationId container
  let s ← s.closeTasksIf (existing.any (·.projectId != projectId)) now
    (s.containerTasks integrationId container)
  let s ← s.putTasks lower (.valueError provider.nameTaken)
    (updateWhere (·.inContainer integrationId container) (fun row => { row with projectId }) s.tasks)
  return { s with
    mappings := putMapping { provider, integrationId, container, projectId } existing s.mappings }

/-- `remove_*_project_mapping`: the tasks are archived. -/
def removeProjectMapping (provider : TaskProvider) (now : Int) (s : ImportStore) (integrationId : Nat)
    (container : Container) : Except Error ImportStore := do
  raiseIf (s.mapping? provider integrationId container = none) provider.mappingNotFound
  let s ← s.closeTasks now (s.containerTasks integrationId container)
  return { s with
    mappings := s.mappings.filter fun m => !(m.provider == provider && m.isOf integrationId container)
    tasks :=
      updateWhere (·.inContainer integrationId container) (fun row => { row with status := .archived })
        s.tasks }

/-- `_REPOSITORY_NAME`: two parts of 1 to 100 characters each, and a slash between them. -/
def isRepositoryName (s : String) : Bool :=
  let part (cs : List Char) : Bool :=
    cs.all (fun c => c != '/' && !Library.Text.isSpace c) && 1 ≤ cs.length && cs.length ≤ 100
  match s.toList.splitOn '/' with
  | [owner, repository] => part owner && part repository
  | _ => false

/-- `_JIRA_PROJECT_ID`. -/
def isJiraProjectId (s : String) : Bool :=
  let allowed (c : Char) : Bool := c.isAlphanum || c == '_' || c == '-'
  fullmatch allowed allowed 254 s

/-- `_JIRA_PROJECT_KEY`. -/
def isJiraProjectKey (s : String) : Bool :=
  fullmatch Char.isAlpha (fun c => c.isAlphanum || c == '_') 49 s

/-- `_ASANA_GID`. -/
def isAsanaGid (s : String) : Bool :=
  let allowed (c : Char) : Bool :=
    !Library.Text.isSpace c && c != '/' && 0x20 ≤ c.toNat && c.toNat != 0x7f
  fullmatch allowed allowed 199 s

/-- A name with its blanks collapsed, of 1 to 255 characters. -/
def isExternalName (s : String) : Bool :=
  let name := collapse (withoutNul s)
  1 ≤ name.length && name.length ≤ 255

/-- `set_github_project_mapping`. -/
def setGithubProjectMapping (lower : String → String) (now : Int) (s : ImportStore)
    (integrationId : Nat) (repositoryId : Int) (repositoryName : String) (projectId : Nat) :
    Except Error ImportStore := do
  raiseIf (repositoryId ≤ 0 ∨ isRepositoryName (strip repositoryName) = false)
    "Choose a valid GitHub repository"
  setProjectMapping .github lower now s integrationId (.repository repositoryId) projectId

/-- `set_jira_project_mapping`. -/
def setJiraProjectMapping (lower : String → String) (now : Int) (s : ImportStore) (integrationId : Nat)
    (externalProjectId externalProjectKey externalProjectName : String) (projectId : Nat) :
    Except Error ImportStore := do
  raiseIf (isJiraProjectId (strip externalProjectId) = false ∨
    isJiraProjectKey (strip externalProjectKey) = false ∨ isExternalName externalProjectName = false)
    "Choose a valid Jira project"
  setProjectMapping .jira lower now s integrationId (.project (strip externalProjectId)) projectId

/-- `set_asana_project_mapping`. -/
def setAsanaProjectMapping (lower : String → String) (now : Int) (s : ImportStore) (integrationId : Nat)
    (externalProjectId externalProjectName : String) (projectId : Nat) : Except Error ImportStore := do
  raiseIf (isAsanaGid (strip externalProjectId) = false ∨ isExternalName externalProjectName = false)
    "Choose a valid Asana project"
  setProjectMapping .asana lower now s integrationId (.project (strip externalProjectId)) projectId

/-- `remove_github_project_mapping`. -/
def removeGithubProjectMapping (now : Int) (s : ImportStore) (integrationId : Nat) (repositoryId : Int) :
    Except Error ImportStore :=
  removeProjectMapping .github now s integrationId (.repository repositoryId)

/-- `remove_jira_project_mapping`. -/
def removeJiraProjectMapping (now : Int) (s : ImportStore) (integrationId : Nat)
    (externalProjectId : String) : Except Error ImportStore :=
  removeProjectMapping .jira now s integrationId (.project externalProjectId)

/-- `remove_asana_project_mapping`. -/
def removeAsanaProjectMapping (now : Int) (s : ImportStore) (integrationId : Nat)
    (externalProjectId : String) : Except Error ImportStore :=
  removeProjectMapping .asana now s integrationId (.project externalProjectId)

/-! ## Imported tasks -/

/-- What an importer makes of a remote task. -/
structure RemoteTask where
  externalKey : String
  url : String
  displayKey : Option String
  updatedAt : Int
  done : Bool
  name : String
  description : String
  deriving DecidableEq, Repr

/-- `" ".join(title.replace("\x00", "").split()) or untitled`. -/
def cleanTitle (untitled title : String) : String :=
  let cleaned := collapse (withoutNul title)
  if cleaned = "" then untitled else cleaned

/-- `str(text or "").replace("\x00", "")[:10_000]`. -/
def cleanDescription (text : String) : String := truncate 10000 (withoutNul text)

/-- The update of a known task. GitHub's names neither `external_missing_since` nor
`external_display_key`. -/
def TaskRow.refresh (provider : TaskProvider) (container : Container) (projectId : Nat)
    (remote : RemoteTask) (clock : Int) (row : TaskRow) : TaskRow :=
  { row with
    projectId
    name := remote.name
    description := remote.description
    status := if remote.done then .archived else .active
    externalReadOnly := true
    link := row.link.map fun l => { l with
      container
      url := remote.url
      displayKey := if provider = .github then l.displayKey else remote.displayKey
      updatedAt := some remote.updatedAt
      observedAt := some clock
      missingSince := if provider = .github then l.missingSince else none } }

/-- The key as it is inserted. -/
def TaskProvider.storedKey (provider : TaskProvider) (externalKey : String) : String :=
  if provider = .github then truncate 500 externalKey else externalKey

/-- The row of a new task. -/
def TaskRow.imported (provider : TaskProvider) (id integrationId : Nat) (container : Container) (projectId : Nat)
    (remote : RemoteTask) (clock : Int) : TaskRow where
  id := id
  projectId := projectId
  status := if remote.done then .archived else .active
  externalReadOnly := true
  name := remote.name
  description := remote.description
  link := some { integrationId, container, externalKey := provider.storedKey remote.externalKey,
                 url := remote.url, displayKey := remote.displayKey,
                 updatedAt := some remote.updatedAt, observedAt := some clock, missingSince := none }

/-- The stored version is newer than this one. -/
def TaskRow.newerThan (row : TaskRow) (updatedAt : Int) : Bool :=
  row.link.any fun l => l.updatedAt.any (updatedAt < ·)

/-- `apply_*`: a remote task becomes a task of the mapped project, or updates the one it became. `clock`
is `clock_timestamp()`. A new row has a `CHECK` on the length of its key; GitHub's key is cut. -/
def applyRemoteTask (provider : TaskProvider) (lower : String → String) (s : ImportStore)
    (integrationId : Nat) (container : Container) (remote : RemoteTask) (observedAt clock : Int) :
    Except Error (ImportStore × Option Nat) :=
  match s.mapping? provider integrationId container with
  | none => .ok (s, none)
  | some mapping =>
    if s.integrationEnabled provider integrationId = false then .ok (s, none)
    else
      match s.linked? integrationId remote.externalKey with
      | some row =>
        if row.newerThan remote.updatedAt then .ok (s, some row.id)
        else do
          let s ← s.closeTasksIf remote.done observedAt [row.id]
          let s ← s.putTasks lower .uniqueViolation
            (updateWhere (·.id == row.id)
              (TaskRow.refresh provider container mapping.projectId remote clock) s.tasks)
          return (s, some row.id)
      | none =>
        let row :=
          TaskRow.imported provider s.rest.nextId integrationId container mapping.projectId remote clock
        if 500 < (provider.storedKey remote.externalKey).length then .error .checkViolation
        else if s.tasks.any (·.hasKey integrationId (provider.storedKey remote.externalKey)) then
          .error .uniqueViolation
        else do
          let s ← s.putTasks lower .uniqueViolation (s.tasks ++ [row])
          return ({ s with rest := { s.rest with nextId := s.rest.nextId + 1 } }, some row.id)

/-- A GitHub issue. -/
structure GithubIssue where
  nodeId : String
  number : Nat
  updatedAt : Int
  title : String
  body : String
  isOpen : Bool
  htmlUrl : String
  deriving DecidableEq, Repr

/-- The task of an issue. -/
def GithubIssue.toRemote (repositoryName : String) (issue : GithubIssue) : RemoteTask where
  externalKey := issue.nodeId
  url := truncate 1000 issue.htmlUrl
  displayKey := none
  updatedAt := issue.updatedAt
  done := !issue.isOpen
  name := truncate 500 (repositoryName ++ " #" ++ toString issue.number ++ ": " ++
    cleanTitle "Untitled issue" issue.title)
  description := cleanDescription issue.body

/-- `apply_github_issue`. -/
def applyGithubIssue (lower : String → String) (s : ImportStore) (integrationId : Nat)
    (repositoryId : Int) (repositoryName : String) (issue : GithubIssue) (observedAt clock : Int) :
    Except Error (ImportStore × Option Nat) :=
  applyRemoteTask .github lower s integrationId (.repository repositoryId) (issue.toRemote repositoryName)
    observedAt clock

/-- A Jira issue. -/
structure JiraIssue where
  id : String
  key : String
  updatedAt : Int
  summary : String
  description : String
  done : Bool
  url : String
  deriving DecidableEq, Repr

/-- The task of an issue. -/
def JiraIssue.toRemote (issue : JiraIssue) : RemoteTask where
  externalKey := "jira:" ++ issue.id
  url := truncate 1000 issue.url
  displayKey := some issue.key
  updatedAt := issue.updatedAt
  done := issue.done
  name := truncate 500 (issue.key ++ ": " ++ cleanTitle "Untitled issue" issue.summary)
  description := cleanDescription issue.description

/-- `apply_jira_issue`. -/
def applyJiraIssue (lower : String → String) (s : ImportStore) (integrationId : Nat)
    (externalProjectId : String) (issue : JiraIssue) (observedAt clock : Int) :
    Except Error (ImportStore × Option Nat) :=
  applyRemoteTask .jira lower s integrationId (.project externalProjectId) issue.toRemote observedAt clock

/-- An Asana task. -/
structure AsanaTask where
  gid : String
  modifiedAt : Int
  name : String
  notes : String
  completed : Bool
  assigneeGid : String
  url : String
  deriving DecidableEq, Repr

/-- The task of a task in a project. -/
def AsanaTask.toRemote (externalProjectId : String) (task : AsanaTask) : RemoteTask where
  externalKey := "asana:" ++ externalProjectId ++ ":" ++ task.gid
  url := truncate 1000 task.url
  displayKey := some task.gid
  updatedAt := task.modifiedAt
  done := task.completed
  name := truncate 500 ("Asana " ++ task.gid ++ ": " ++ cleanTitle "Untitled task" task.name)
  description := cleanDescription task.notes

/-- `apply_asana_task`. The assignee is checked last, and its row is left out. -/
def applyAsanaTask (lower : String → String) (s : ImportStore) (integrationId : Nat)
    (externalProjectId : String) (task : AsanaTask) (observedAt clock : Int) :
    Except Error (ImportStore × Option Nat) :=
  let remote := task.toRemote externalProjectId
  if isAsanaGid task.gid = false ∨ 500 < remote.externalKey.length then
    .error (.valueError "Asana task identity is invalid")
  else do
    let (s, taskId) ← applyRemoteTask .asana lower s integrationId (.project externalProjectId) remote
      observedAt clock
    raiseIf (task.assigneeGid ≠ "" ∧ isAsanaGid task.assigneeGid = false)
      "Asana task assignee is invalid"
    return (s, taskId)

/-! ## Tasks that a listing did not have -/

/-- `external_observed_at IS NULL OR external_observed_at <= snapshot_at`. -/
def TaskLink.observedBy (l : TaskLink) (snapshotAt : Int) : Bool := l.observedAt.all (· ≤ snapshotAt)

/-- The task is of the listed repository or project and was not in the listing. -/
def TaskRow.unseen (row : TaskRow) (integrationId : Nat) (container : Container)
    (seenKeys : List String) (snapshotAt : Int) : Bool :=
  row.inContainer integrationId container && row.link.any fun l =>
    !(seenKeys.contains l.externalKey) && l.observedBy snapshotAt

/-- The task was missing from an earlier listing too. -/
def TaskRow.missingBefore (row : TaskRow) (snapshotAt : Int) : Bool :=
  row.link.any fun l => l.missingSince.any (· < snapshotAt)

/-- `UPDATE tasks SET external_missing_since=..`. -/
def TaskRow.setMissing (missingSince : Option Int) (row : TaskRow) : TaskRow :=
  { row with link := row.link.map fun l => { l with missingSince } }

/-- The selected tasks are archived, and the sessions on them closed. -/
def archiveTasks (now : Int) (s : ImportStore) (selected : TaskRow → Bool)
    (after : TaskRow → TaskRow) : Except Error (ImportStore × Nat) := do
  let taskIds := (s.tasks.filter selected).map (·.id)
  let tasks := (updateWhere selected (fun row => { row with status := .archived }) s.tasks).map after
  let s ← { s with tasks }.closeTasks now taskIds
  return (s, taskIds.length)

/-- `archive_missing_github_issues`. -/
def archiveMissingGithubIssues (now : Int) (s : ImportStore) (integrationId : Nat) (repositoryId : Int)
    (seenKeys : List String) (snapshotAt : Int) : Except Error (ImportStore × Nat) :=
  archiveTasks now s (·.unseen integrationId (.repository repositoryId) seenKeys snapshotAt) id

/-- The archive pass of Jira and Asana: a task is archived when it is missing for the second time. -/
def archiveMissingTwice (now : Int) (s : ImportStore) (integrationId : Nat) (container : Container)
    (seenKeys : List String) (snapshotAt : Int) : Except Error (ImportStore × Nat) :=
  let seen (row : TaskRow) : Bool :=
    row.inContainer integrationId container && row.link.any fun l => seenKeys.contains l.externalKey
  let unseen (row : TaskRow) : Bool := row.unseen integrationId container seenKeys snapshotAt
  archiveTasks now { s with tasks := updateWhere seen (TaskRow.setMissing none) s.tasks }
    (fun row => unseen row && row.missingBefore snapshotAt)
    (fun row =>
      if unseen row && row.link.any (·.missingSince.isNone) then row.setMissing (some snapshotAt)
      else row)

/-- `archive_missing_jira_issues`. -/
def archiveMissingJiraIssues (now : Int) (s : ImportStore) (integrationId : Nat)
    (externalProjectId : String) (seenKeys : List String) (snapshotAt : Int) :
    Except Error (ImportStore × Nat) :=
  archiveMissingTwice now s integrationId (.project externalProjectId) seenKeys snapshotAt

/-- `reconcile_asana_project_tasks`, without the assignee rows it deletes. -/
def reconcileAsanaProjectTasks (now : Int) (s : ImportStore) (integrationId : Nat)
    (externalProjectId : String) (seenKeys : List String) (snapshotAt : Int) :
    Except Error (ImportStore × Nat) :=
  archiveMissingTwice now s integrationId (.project externalProjectId) seenKeys snapshotAt

/-! ## Tasks of the application -/

/-- `create_task`. -/
def createTask (lower : String → String) (s : ImportStore) (projectId : Nat)
    (name description : String) : Except Error ImportStore := do
  if (s.rest.getProject projectId).isNone then .error .foreignKeyViolation
  else
    let row : TaskRow :=
      { id := s.rest.nextId, projectId, status := .active, externalReadOnly := false,
        name := strip name, description := strip description, link := none }
    let s ← s.putTasks lower (.valueError "That task already exists in this project") (s.tasks ++ [row])
    return { s with rest := { s.rest with nextId := s.rest.nextId + 1 } }

/-- `set_task_status`, on the tasks of this store. -/
def setStoredTaskStatus (now : Int) (s : ImportStore) (taskId : Nat) (status : Option TaskStatus) :
    Except Error ImportStore := do
  let rest ← setTaskStatus now s.db taskId status
  return { s with
    rest
    tasks := updateWhere (·.id == taskId)
      (fun row => { row with status := status.getD row.status }) s.tasks }

/-! ## Steps -/

/-- The store, and the heartbeats whose checks have passed but whose transaction has not begun. -/
structure ImportState where
  store : ImportStore
  admitted : Nat → Option (SyncCall × Admission)

/-- A transaction. A heartbeat is two: its checks read the task on a connection of their own. -/
inductive ImportOp
  | admitSync (callId : Nat) (now : Int) (call : SyncCall)
  | syncTransaction (callId : Nat) (tie : AgentStateEvent → Nat) (now : Int)
  | createTask (projectId : Nat) (name description : String)
  | setTaskStatus (now : Int) (taskId : Nat) (status : Option TaskStatus)
  | setGithubProjectMapping (now : Int) (integrationId : Nat) (repositoryId : Int)
      (repositoryName : String) (projectId : Nat)
  | setJiraProjectMapping (now : Int) (integrationId : Nat)
      (externalProjectId externalProjectKey externalProjectName : String) (projectId : Nat)
  | setAsanaProjectMapping (now : Int) (integrationId : Nat)
      (externalProjectId externalProjectName : String) (projectId : Nat)
  | removeGithubProjectMapping (now : Int) (integrationId : Nat) (repositoryId : Int)
  | removeJiraProjectMapping (now : Int) (integrationId : Nat) (externalProjectId : String)
  | removeAsanaProjectMapping (now : Int) (integrationId : Nat) (externalProjectId : String)
  | applyGithubIssue (integrationId : Nat) (repositoryId : Int) (repositoryName : String)
      (issue : GithubIssue) (observedAt clock : Int)
  | applyJiraIssue (integrationId : Nat) (externalProjectId : String) (issue : JiraIssue)
      (observedAt clock : Int)
  | applyAsanaTask (integrationId : Nat) (externalProjectId : String) (task : AsanaTask)
      (observedAt clock : Int)
  | archiveMissingGithubIssues (now : Int) (integrationId : Nat) (repositoryId : Int)
      (seenKeys : List String) (snapshotAt : Int)
  | archiveMissingJiraIssues (now : Int) (integrationId : Nat) (externalProjectId : String)
      (seenKeys : List String) (snapshotAt : Int)
  | reconcileAsanaProjectTasks (now : Int) (integrationId : Nat) (externalProjectId : String)
      (seenKeys : List String) (snapshotAt : Int)

/-- The transaction of a heartbeat whose checks have passed. -/
def admittedTransaction (s : ImportState) (callId : Nat) (tie : AgentStateEvent → Nat) (now : Int) :
    Except Error ImportStore :=
  match s.admitted callId with
  | none => .ok s.store
  | some (call, adm) =>
    (syncTransaction tie now s.store.db call adm).map fun r => { s.store with rest := r.1 }

/-- What a transaction makes of the store. -/
def ImportOp.run (lower : String → String) (s : ImportState) : ImportOp → Except Error ImportStore
  | .admitSync _ _ _ => .ok s.store
  | .syncTransaction callId tie now => admittedTransaction s callId tie now
  | .createTask projectId name description => Dayfinch.createTask lower s.store projectId name description
  | .setTaskStatus now taskId status => setStoredTaskStatus now s.store taskId status
  | .setGithubProjectMapping now integrationId repositoryId repositoryName projectId =>
    Dayfinch.setGithubProjectMapping lower now s.store integrationId repositoryId repositoryName
      projectId
  | .setJiraProjectMapping now integrationId id key name projectId =>
    Dayfinch.setJiraProjectMapping lower now s.store integrationId id key name projectId
  | .setAsanaProjectMapping now integrationId id name projectId =>
    Dayfinch.setAsanaProjectMapping lower now s.store integrationId id name projectId
  | .removeGithubProjectMapping now integrationId repositoryId =>
    Dayfinch.removeGithubProjectMapping now s.store integrationId repositoryId
  | .removeJiraProjectMapping now integrationId id =>
    Dayfinch.removeJiraProjectMapping now s.store integrationId id
  | .removeAsanaProjectMapping now integrationId id =>
    Dayfinch.removeAsanaProjectMapping now s.store integrationId id
  | .applyGithubIssue integrationId repositoryId repositoryName issue observedAt clock =>
    (Dayfinch.applyGithubIssue lower s.store integrationId repositoryId repositoryName issue observedAt
      clock).map (·.1)
  | .applyJiraIssue integrationId id issue observedAt clock =>
    (Dayfinch.applyJiraIssue lower s.store integrationId id issue observedAt clock).map (·.1)
  | .applyAsanaTask integrationId id task observedAt clock =>
    (Dayfinch.applyAsanaTask lower s.store integrationId id task observedAt clock).map (·.1)
  | .archiveMissingGithubIssues now integrationId repositoryId seenKeys snapshotAt =>
    (Dayfinch.archiveMissingGithubIssues now s.store integrationId repositoryId seenKeys
      snapshotAt).map (·.1)
  | .archiveMissingJiraIssues now integrationId id seenKeys snapshotAt =>
    (Dayfinch.archiveMissingJiraIssues now s.store integrationId id seenKeys snapshotAt).map (·.1)
  | .reconcileAsanaProjectTasks now integrationId id seenKeys snapshotAt =>
    (Dayfinch.reconcileAsanaProjectTasks now s.store integrationId id seenKeys snapshotAt).map (·.1)

/-- The heartbeats that wait for their transaction after a step. -/
def ImportOp.admits (s : ImportState) : ImportOp → Nat → Option (SyncCall × Admission)
  | .admitSync callId now call => fun id =>
    if id = callId then
      call.status.bind fun status => ((Dayfinch.admitSync now s.store.db call status).toOption).map (call, ·)
    else s.admitted id
  | .syncTransaction callId _ _ => fun id => if id = callId then none else s.admitted id
  | _ => s.admitted

/-- One step; a transaction that raises is rolled back. -/
def importStep (lower : String → String) (s : ImportState) (op : ImportOp) : ImportState where
  store := match op.run lower s with
    | .ok store => store
    | .error _ => s.store
  admitted := op.admits s

/-- The application before anything was imported or tracked. -/
def ImportState.start (db : Database) (integrations : List IntegrationRow) : ImportState where
  store := { rest := db.withoutWork, tasks := [], integrations, mappings := [] }
  admitted := fun _ => none

end Dayfinch
