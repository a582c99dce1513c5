/-
# Dayfinch.Integrations.Convergence -- the versions of one issue, in any order

The versions of an issue reach its task through the listings of syncs and through webhooks. A version that is
older than the stored one is skipped, and one of the same instant is written again: over the deliveries the
task is a register that keeps the newest version, the last of them where two have the same instant
(`shows_run`).

A webhook applies a deleted issue as a closed one, with the instant of its last version. A listing that was
read before then has a version of that same instant, and opens the task again. `LeavesDeleted` is the
condition that this does not happen, and `accepted` the condition that a delivery does not raise: the name
must be free in the project, and no break of the task's sessions may begin after the instant that closes it.
-/
import Dayfinch.Integrations.LiveTasks
import Dayfinch.Library.Register

namespace Dayfinch

open Library (updateWhere find?_updateWhere newest newest_concat newest_eq_none newest_eq_some offer offer_stale offer_taken run
  run_append Guarded guarded_append UniqueKey CountedKeys bind_eq_ok)

/-! ## Deliveries -/

/-- Where an issue is: the repository or project of an integration. -/
inductive IssuePlace
  | github (integrationId : Nat) (repositoryId : Int)
  | jira (integrationId : Nat) (externalProjectId : String)
  deriving DecidableEq, Repr

namespace IssuePlace

def provider : IssuePlace → TaskProvider
  | github _ _ => .github
  | jira _ _ => .jira

def integrationId : IssuePlace → Nat
  | github integrationId _ => integrationId
  | jira integrationId _ => integrationId

def container : IssuePlace → Container
  | github _ repositoryId => .repository repositoryId
  | jira _ externalProjectId => .project externalProjectId

end IssuePlace

/-- A version of an issue, as the provider sends it. -/
inductive IssueVersion
  | github (repositoryName : String) (issue : GithubIssue)
  | jira (issue : JiraIssue)
  deriving DecidableEq, Repr

/-- The task of a version. -/
def IssueVersion.toRemote : IssueVersion → RemoteTask
  | github repositoryName issue => issue.toRemote repositoryName
  | jira issue => issue.toRemote

/-- A delivery: of a listing, or of a webhook with this action. -/
structure IssueDelivery where
  version : IssueVersion
  action : Option String
  observedAt : Int
  clock : Int
  deriving DecidableEq, Repr

/-- The event `issues` in `handle_webhook`. -/
def handleIssuesEvent (lower : String → String) (s : ImportStore) (integrationId : Nat)
    (repositoryId : Int) (repositoryName action : String) (issue : GithubIssue) (observedAt clock : Int) :
    Except Error (ImportStore × Option Nat) :=
  applyGithubIssue lower s integrationId repositoryId repositoryName
    (if action = "deleted" then { issue with isOpen := false } else issue) observedAt clock

namespace IssueDelivery

/-- What is done with a delivery. -/
def run (lower : String → String) (place : IssuePlace) (s : ImportStore) (d : IssueDelivery) :
    Except Error (ImportStore × Option Nat) :=
  match place, d.version with
  | .github integrationId repositoryId, .github repositoryName issue =>
    match d.action with
    | none => applyGithubIssue lower s integrationId repositoryId repositoryName issue d.observedAt d.clock
    | some action =>
      handleIssuesEvent lower s integrationId repositoryId repositoryName action issue d.observedAt d.clock
  | .jira integrationId externalProjectId, .jira issue =>
    applyJiraIssue lower s integrationId externalProjectId issue d.observedAt d.clock
  | _, _ => .ok (s, none)

/-- The webhook of a deleted issue. -/
def isDeletion (d : IssueDelivery) : Bool :=
  match d.version with
  | .github _ _ => d.action == some "deleted"
  | .jira _ => false

/-- The version's instant. -/
def updatedAt (d : IssueDelivery) : Int := d.version.toRemote.updatedAt

/-- The task that a delivery makes: a deleted issue is done. -/
def remote (d : IssueDelivery) : RemoteTask :=
  if d.isDeletion then { d.version.toRemote with done := true } else d.version.toRemote

/-- The delivery is of the provider; Jira sends no webhooks. -/
def isOf (d : IssueDelivery) (place : IssuePlace) : Bool :=
  match place, d.version with
  | .github _ _, .github _ _ => true
  | .jira _ _, .jira _ => d.action.isNone
  | _, _ => false

end IssueDelivery

/-- One delivery; one that raises is rolled back. -/
def issueStep (lower : String → String) (place : IssuePlace) (s : ImportStore) (d : IssueDelivery) :
    ImportStore :=
  match d.run lower place s with
  | .ok (s, _) => s
  | .error _ => s

/-! ## The property -/

/-- The task is as the remote task makes it, in the project of the mapping. -/
structure Shows (place : IssuePlace) (s : ImportStore) (remote : RemoteTask) (row : TaskRow) : Prop where
  project : (s.mapping? place.provider place.integrationId place.container).map (·.projectId) =
    some row.projectId
  name : row.name = remote.name
  description : row.description = remote.description
  status : row.status = if remote.done then .archived else .active
  link : row.link.map (fun l => (l.integrationId, l.container, l.externalKey)) =
    some (place.integrationId, place.container, remote.externalKey)
  columns : row.link.map (fun l => (l.url, l.displayKey, l.updatedAt)) =
    some (remote.url, remote.displayKey, some remote.updatedAt)

/-- The deliveries are of one issue, and its versions have pairwise distinct instants. The length of the key
is bounded where the issue is parsed. -/
structure SameIssue (place : IssuePlace) (key : String) (ds : List IssueDelivery) : Prop where
  place : ∀ d ∈ ds, d.isOf place = true
  sameKey : ∀ d ∈ ds, d.version.toRemote.externalKey = key
  short : key.length ≤ 500
  distinct : ∀ d ∈ ds, ∀ d' ∈ ds, d.updatedAt = d'.updatedAt → d.version = d'.version

/-- The place is mapped, the issue is not imported yet, and the keys of `tasks` hold. -/
structure Unimported (lower : String → String) (place : IssuePlace) (key : String) (s : ImportStore) : Prop where
  enabled : s.integrationEnabled place.provider place.integrationId = true
  mapped : s.mapping? place.provider place.integrationId place.container ≠ none
  fresh : s.linked? place.integrationId key = none
  keys : CountedKeys (·.id) s.tasks s.rest.nextId
  names : UniqueKey (fun row => (row.projectId, lower row.name)) s.tasks

/-- What the task is to show of its newest version: it is done where the version is, or where the issue was
deleted at that instant. -/
def IssueDelivery.final (ds : List IssueDelivery) (d : IssueDelivery) : RemoteTask :=
  { d.version.toRemote with
    done := d.version.toRemote.done || ds.any fun d' => d'.isDeletion && d'.updatedAt == d.updatedAt }

/-- **The task converges**: it shows the newest version, and a deletion, which has no newer version, leaves it
archived. -/
structure Converges (lower : String → String) (place : IssuePlace) (key : String) (s : ImportStore)
    (ds : List IssueDelivery) : Prop where
  newest : ∀ d ∈ ds, (∀ d' ∈ ds, d'.updatedAt ≤ d.updatedAt) →
    ∃ row, (run (issueStep lower place) s ds).linked? place.integrationId key = some row ∧
      Shows place s (d.final ds) row
  deleted : ∀ d ∈ ds, d.isDeletion = true → (∀ d' ∈ ds, d'.updatedAt ≤ d.updatedAt) →
    ∃ row, (run (issueStep lower place) s ds).linked? place.integrationId key = some row ∧
      row.status = .archived

/-! ## The condition -/

/-- No break on the task's sessions begins at the instant that would end it, or later. -/
def ImportStore.closable (s : ImportStore) (observedAt : Int) (taskId : Nat) : Bool :=
  s.rest.workBreaks.all fun b =>
    !(taskClosing s.db [taskId]).selectsBreak b || b.startedAt < observedAt

/-- Where the delivery is not stale: if it closes the task, its sessions can be closed, and no other task of
the project has its name. -/
def IssueDelivery.accepted (lower : String → String) (place : IssuePlace) (s : ImportStore)
    (d : IssueDelivery) : Bool :=
  let free (selected : TaskRow → Bool) : Bool :=
    (s.mapping? place.provider place.integrationId place.container).all fun mapping =>
      s.tasks.all fun row => !selected row ||
        (row.projectId, lower row.name) != (mapping.projectId, lower d.remote.name)
  match s.linked? place.integrationId d.remote.externalKey with
  | none => free fun _ => true
  | some row =>
    row.newerThan d.updatedAt ||
      ((!d.remote.done || s.closable d.observedAt row.id) && free (·.id != row.id))

/-- After a deletion no version of its instant comes that is still open. -/
def LeavesDeleted (ds : List IssueDelivery) : Prop :=
  ds.Pairwise fun d d' => d.isDeletion = true → d'.updatedAt = d.updatedAt → d'.remote.done = true

/-! ## A delivery applies the remote task -/

variable {lower : String → String} {place : IssuePlace} {s s₀ : ImportStore} {d : IssueDelivery} {key : String}

theorem delivery_run (h : d.isOf place = true) :
    d.run lower place s = applyRemoteTask place.provider lower s place.integrationId place.container d.remote
      d.observedAt d.clock := by
  obtain ⟨version, action, observedAt, clock⟩ := d
  cases place with
  | github integrationId repositoryId =>
    cases version with
    | jira issue => cases h
    | github repositoryName issue =>
      cases action with
      | none => rfl
      | some action =>
        by_cases hdeleted : action = "deleted"
        · subst hdeleted
          rfl
        · have hversion : (IssueDelivery.mk (.github repositoryName issue) (some action) observedAt
              clock).isDeletion = false := by simpa [IssueDelivery.isDeletion] using hdeleted
          simp only [IssueDelivery.run, handleIssuesEvent, IssueDelivery.remote, hversion,
            if_neg hdeleted]
          rfl
  | jira integrationId externalProjectId =>
    cases version with
    | github repositoryName issue => cases h
    | jira issue => rfl

theorem remote_updatedAt : d.remote.updatedAt = d.updatedAt := by
  unfold IssueDelivery.remote
  split <;> rfl

theorem remote_externalKey : d.remote.externalKey = d.version.toRemote.externalKey := by
  unfold IssueDelivery.remote
  split <;> rfl

/-- A closed session frees the task, where no break stands in the way. -/
theorem closeTasksIf_ok {condition : Bool} {observedAt : Int} {taskId : Nat}
    (h : (!condition || s.closable observedAt taskId) = true) :
    ∃ rest, s.closeTasksIf condition observedAt [taskId] = .ok { s with rest } ∧
      rest.nextId = s.rest.nextId := by
  unfold ImportStore.closeTasksIf
  cases condition with
  | false => exact ⟨s.rest, rfl, rfl⟩
  | true =>
    have hclosable : s.closable observedAt taskId = true := h
    have hnone : (s.db.workBreaks.any fun b => (taskClosing s.db [taskId]).selectsBreak b &&
        decide ((taskClosing s.db [taskId]).stamp observedAt b.startedAt ≤ b.startedAt)) = false := by
      refine List.any_eq_false.mpr fun b hb hon => ?_
      have hoff := List.all_eq_true.mp hclosable b hb
      simp only [Bool.and_eq_true, decide_eq_true_eq] at hon
      rw [hon.1] at hoff
      have hearlier : b.startedAt < observedAt := by simpa using hoff
      have hstamp : observedAt ≤ b.startedAt := hon.2
      omega
    have hok : ∃ s', s.closeTasks observedAt [taskId] = .ok s' := by
      simp only [ImportStore.closeTasks, closeTaskSessions, closeWork, hnone]
      exact ⟨_, rfl⟩
    obtain ⟨s', hs'⟩ := hok
    obtain ⟨rest, rfl, hnext⟩ := closeTasks_frame hs'
    exact ⟨rest, hs', hnext⟩

/-! ## The task as a register -/

/-- The store holds what the register holds: no task of the issue yet, or one that shows the delivery. -/
structure IssueHeld (lower : String → String) (place : IssuePlace) (key : String) (s₀ s : ImportStore)
    (held : Option IssueDelivery) : Prop where
  mappings : s.mappings = s₀.mappings
  integrations : s.integrations = s₀.integrations
  keys : CountedKeys (·.id) s.tasks s.rest.nextId
  names : UniqueKey (fun row => (row.projectId, lower row.name)) s.tasks
  unimported : held = none → s.linked? place.integrationId key = none
  shown : ∀ d, held = some d →
    ∃ row, s.linked? place.integrationId key = some row ∧ Shows place s₀ d.remote row

theorem Unimported.held (h : Unimported lower place key s₀) : IssueHeld lower place key s₀ s₀ none where
  mappings := rfl
  integrations := rfl
  keys := h.keys
  names := h.names
  unimported _ := h.fresh
  shown _ hd := nomatch hd

/-- A row that shows a remote task has its instant. -/
theorem Shows.newerThan {remote : RemoteTask} {row : TaskRow} (h : Shows place s₀ remote row) (at' : Int) :
    row.newerThan at' = decide (at' < remote.updatedAt) := by
  obtain ⟨l, hl, hcolumns⟩ := Option.map_eq_some_iff.mp h.columns
  have hupdated : l.updatedAt = some remote.updatedAt := (Prod.mk.inj (Prod.mk.inj hcolumns).2).2
  simp [TaskRow.newerThan, hl, hupdated]

/-- The row of a new issue shows it. -/
theorem imported_shows {remote : RemoteTask} {mapping : ProjectMapping} {id : Nat} {clock : Int}
    (hmapping : s₀.mapping? place.provider place.integrationId place.container = some mapping)
    (hkey : place.provider.storedKey remote.externalKey = remote.externalKey) :
    Shows place s₀ remote (.imported place.provider id place.integrationId place.container mapping.projectId
      remote clock) where
  project := by rw [hmapping]; rfl
  name := rfl
  description := rfl
  status := rfl
  link := by simp [TaskRow.imported, hkey]
  columns := rfl

/-- GitHub's issues have no display key. -/
theorem remote_displayKey (h : d.isOf place = true) (hgithub : place.provider = .github) :
    d.remote.displayKey = none := by
  obtain ⟨version, action, observedAt, clock⟩ := d
  cases place with
  | jira integrationId externalProjectId => cases hgithub
  | github integrationId repositoryId =>
    cases version with
    | jira issue => cases h
    | github repositoryName issue =>
      unfold IssueDelivery.remote
      split <;> rfl

/-- The update of a row that shows another version of the issue shows the new one. -/
theorem refresh_shows {mapping : ProjectMapping} {old : IssueDelivery} {row : TaskRow} {clock : Int}
    (hmapping : s₀.mapping? place.provider place.integrationId place.container = some mapping)
    (hof : d.isOf place = true) (hold : old.isOf place = true)
    (hkey : d.remote.externalKey = old.remote.externalKey) (h : Shows place s₀ old.remote row) :
    Shows place s₀ d.remote (row.refresh place.provider place.container mapping.projectId d.remote clock) := by
  obtain ⟨l, hl, hlink⟩ := Option.map_eq_some_iff.mp h.link
  obtain ⟨l', hl', hcolumns⟩ := Option.map_eq_some_iff.mp h.columns
  obtain rfl : l = l' := Option.some.inj (hl.symm.trans hl')
  simp only [Prod.mk.injEq] at hlink hcolumns
  have hdisplay : (if place.provider = .github then l.displayKey else d.remote.displayKey) =
      d.remote.displayKey := by
    split
    · rename_i hgithub
      rw [hcolumns.2.1, remote_displayKey hold hgithub, remote_displayKey hof hgithub]
    · rfl
  exact {
    project := by rw [hmapping]; rfl
    name := rfl
    description := rfl
    status := rfl
    link := by simp only [TaskRow.refresh, hl, Option.map_some, hlink, hkey]
    columns := by simp [TaskRow.refresh, hl, hdisplay] }

/-- The delivery is of the issue. -/
def IssueDelivery.OfIssue (place : IssuePlace) (key : String) (d : IssueDelivery) : Prop :=
  d.isOf place = true ∧ d.remote.externalKey = key

theorem storedKey_of_short (provider : TaskProvider) (hshort : key.length ≤ 500) :
    provider.storedKey key = key := by
  unfold TaskProvider.storedKey
  split
  · rw [Library.Text.truncate, List.take_of_length_le (by rw [String.length_toList]; exact hshort),
      String.ofList_toList]
  · rfl

theorem putTasks_ok {taken : Error} {tasks : List TaskRow}
    (h : UniqueKey (fun row => (row.projectId, lower row.name)) tasks) :
    s.putTasks lower taken tasks = .ok { s with tasks } := if_pos h

/-- What the constraints of `tasks` see of a delivery that is accepted. -/
theorem names_free {mapping : ProjectMapping} {selected : TaskRow → Bool}
    (hmapping : s.mapping? place.provider place.integrationId place.container = some mapping)
    (hfree : ((s.mapping? place.provider place.integrationId place.container).all fun mapping =>
      s.tasks.all fun row => !selected row ||
        (row.projectId, lower row.name) != (mapping.projectId, lower d.remote.name)) = true) :
    ∀ row ∈ s.tasks, selected row = true →
      (row.projectId, lower row.name) ≠ (mapping.projectId, lower d.remote.name) := by
  intro row hrow hselected
  rw [hmapping, Option.all_some] at hfree
  have hone := List.all_eq_true.mp hfree row hrow
  rw [hselected] at hone
  exact bne_iff_ne.mp (by simpa using hone)

/-- A delivery of an issue that is not imported yet. -/
theorem issueStep_import (hstart : Unimported lower place key s₀) (hof : d.OfIssue place key)
    (hshort : key.length ≤ 500) (h : IssueHeld lower place key s₀ s none)
    (haccepted : d.accepted lower place s = true) :
    IssueHeld lower place key s₀ (issueStep lower place s d) (some d) := by
  obtain ⟨hplace, hkey⟩ := hof
  obtain ⟨mapping, hmapping₀⟩ := Option.ne_none_iff_exists'.mp hstart.mapped
  have hmapping : s.mapping? place.provider place.integrationId place.container = some mapping := by
    rw [← hmapping₀, ImportStore.mapping?, ImportStore.mapping?, h.mappings]
  have henabled : s.integrationEnabled place.provider place.integrationId = true := by
    rw [← hstart.enabled, ImportStore.integrationEnabled, ImportStore.integrationEnabled, h.integrations]
  have hlinked := h.unimported rfl
  have hstored : place.provider.storedKey d.remote.externalKey = d.remote.externalKey := by
    rw [hkey]
    exact storedKey_of_short place.provider hshort
  have hfree : ∀ row ∈ s.tasks, (row.projectId, lower row.name) ≠ (mapping.projectId, lower d.remote.name) := by
    simp only [IssueDelivery.accepted, hkey, hlinked] at haccepted
    exact fun row hrow => names_free hmapping haccepted row hrow rfl
  -- the row that is inserted
  obtain ⟨row, hrow⟩ : ∃ row, TaskRow.imported place.provider s.rest.nextId place.integrationId
    place.container mapping.projectId d.remote d.clock = row := ⟨_, rfl⟩
  have hid : row.id = s.rest.nextId := by rw [← hrow]; rfl
  have hnames : UniqueKey (fun row => (row.projectId, lower row.name)) (s.tasks ++ [row]) := by
    refine h.names.append_fresh ?_
    rw [← hrow]
    exact hfree
  have hunused : s.tasks.any (·.hasKey place.integrationId key) = false :=
    List.any_eq_false.mpr (List.find?_eq_none.mp hlinked)
  have hrun : d.run lower place s =
      .ok ({ s with tasks := s.tasks ++ [row], rest := { s.rest with nextId := s.rest.nextId + 1 } },
        some row.id) := by
    rw [delivery_run hplace]
    simp only [applyRemoteTask, hmapping, henabled, hkey, hlinked, Bool.true_eq_false, if_false, hrow]
    rw [storedKey_of_short place.provider hshort, if_neg (not_lt.mpr hshort), hunused,
      if_neg Bool.false_ne_true, putTasks_ok hnames]
    rfl
  have hhas : row.hasKey place.integrationId key = true := by
    rw [← hrow]
    simp [TaskRow.imported, TaskRow.hasKey, hkey, storedKey_of_short place.provider hshort]
  unfold issueStep
  rw [hrun]
  exact {
    mappings := h.mappings
    integrations := h.integrations
    keys := h.keys.append hid
    names := hnames
    unimported := nofun
    shown := by
      intro _ hd
      cases hd
      refine ⟨row, ?_, hrow ▸ imported_shows hmapping₀ hstored⟩
      have hnone : s.tasks.find? (·.hasKey place.integrationId key) = none := hlinked
      show (s.tasks ++ [row]).find? (·.hasKey place.integrationId key) = some row
      rw [List.find?_append, hnone, Option.none_or]
      simp [hhas] }

/-- A delivery of an issue that is imported: a stale one is skipped, another one rewrites the task. -/
theorem issueStep_update (hstart : Unimported lower place key s₀) (hof : d.OfIssue place key)
    {held : IssueDelivery} (hheld : held.OfIssue place key)
    (h : IssueHeld lower place key s₀ s (some held)) (haccepted : d.accepted lower place s = true) :
    IssueHeld lower place key s₀ (issueStep lower place s d) (offer IssueDelivery.updatedAt (some held) d) := by
  obtain ⟨hplace, hkey⟩ := hof
  obtain ⟨mapping, hmapping₀⟩ := Option.ne_none_iff_exists'.mp hstart.mapped
  have hmapping : s.mapping? place.provider place.integrationId place.container = some mapping := by
    rw [← hmapping₀, ImportStore.mapping?, ImportStore.mapping?, h.mappings]
  have henabled : s.integrationEnabled place.provider place.integrationId = true := by
    rw [← hstart.enabled, ImportStore.integrationEnabled, ImportStore.integrationEnabled, h.integrations]
  obtain ⟨row, hlinked, hshows⟩ := h.shown held rfl
  have hnewer : row.newerThan d.updatedAt = decide (d.updatedAt < held.updatedAt) := by
    rw [hshows.newerThan, remote_updatedAt]
  by_cases hstale : d.updatedAt < held.updatedAt
  · have hrun : d.run lower place s = .ok (s, some row.id) := by
      rw [delivery_run hplace]
      simp only [applyRemoteTask, hmapping, henabled, hkey, hlinked, remote_updatedAt, hnewer, hstale]
      rfl
    unfold issueStep
    rw [hrun, offer_stale hstale]
    exact h
  · simp only [IssueDelivery.accepted, hkey, hlinked, hnewer, decide_eq_false hstale, Bool.false_or,
      Bool.and_eq_true] at haccepted
    obtain ⟨hclosable, hothers⟩ := haccepted
    have hfree : ∀ other ∈ s.tasks, (other.id != row.id) = true →
        (other.projectId, lower other.name) ≠ (mapping.projectId, lower d.remote.name) :=
      names_free hmapping hothers
    obtain ⟨rest, hclosed, hnext⟩ := closeTasksIf_ok hclosable
    obtain ⟨f, hf⟩ : ∃ f, TaskRow.refresh place.provider place.container mapping.projectId d.remote d.clock = f :=
      ⟨_, rfl⟩
    have hid : ∀ r, (f r).id = r.id := fun _ => by rw [← hf]; rfl
    have hlink : ∀ r, (f r).hasKey place.integrationId key = r.hasKey place.integrationId key := by
      intro r
      rw [← hf]
      simp [TaskRow.refresh, TaskRow.hasKey, Option.any_map]
    have hnames : UniqueKey (fun row => (row.projectId, lower row.name))
        (updateWhere (·.id == row.id) f s.tasks) := by
      have hids : s.tasks.Pairwise fun a b => a.id ≠ b.id := List.pairwise_map.mp h.keys.unique
      refine h.names.updateWhere_fresh (hids.imp fun {a b} hne ha => ?_) fun a ha hoff b _ _ => ?_
      · exact beq_eq_false_iff_ne.mpr fun hb => hne ((eq_of_beq ha).trans hb.symm)
      · rw [← hf]
        exact hfree a ha (bne_iff_ne.mpr (beq_eq_false_iff_ne.mp hoff))
    have hrun : d.run lower place s =
        .ok ({ s with tasks := updateWhere (·.id == row.id) f s.tasks, rest }, some row.id) := by
      rw [delivery_run hplace]
      simp only [applyRemoteTask, hmapping, henabled, hkey, hlinked, remote_updatedAt, hnewer,
        decide_eq_false hstale, Bool.true_eq_false, Bool.false_eq_true, if_false, hf, hclosed]
      show (ImportStore.putTasks lower .uniqueViolation (updateWhere (·.id == row.id) f s.tasks)
        { s with rest } >>= fun s => pure (s, some row.id)) = _
      rw [putTasks_ok hnames]
      rfl
    unfold issueStep
    rw [hrun, offer_taken hstale]
    exact {
      mappings := h.mappings
      integrations := h.integrations
      keys := by
        rw [show ({ s with tasks := updateWhere (·.id == row.id) f s.tasks, rest } : ImportStore).rest.nextId =
          s.rest.nextId from hnext]
        exact h.keys.updateWhere hid
      names := hnames
      unimported := nofun
      shown := by
        intro _ hd
        cases hd
        have hfound : s.tasks.find? (·.hasKey place.integrationId key) = some row := hlinked
        refine ⟨f row, ?_, ?_⟩
        · show (updateWhere (·.id == row.id) f s.tasks).find? (·.hasKey place.integrationId key) = some (f row)
          rw [find?_updateWhere hlink, hfound, Option.map_some, if_pos (beq_self_eq_true row.id)]
        · rw [← hf]
          exact refresh_shows hmapping₀ hplace hheld.1 (hkey.trans hheld.2.symm) hshows }

/-! ## Runs -/

/-- **The task is a register**: after accepted deliveries it shows the last of the newest. -/
theorem shows_run (hstart : Unimported lower place key s₀) (hshort : key.length ≤ 500)
    {ds : List IssueDelivery} (hof : ∀ d ∈ ds, d.OfIssue place key)
    (haccepted : Guarded (issueStep lower place) (fun s d => d.accepted lower place s = true) s₀ ds) :
    IssueHeld lower place key s₀ (run (issueStep lower place) s₀ ds) (newest IssueDelivery.updatedAt ds) := by
  induction ds using List.reverseRecOn with
  | nil => exact hstart.held
  | append_singleton ds d ih =>
    obtain ⟨hbefore, hlast, -⟩ := guarded_append.mp haccepted
    have hd : d.OfIssue place key := hof d (by simp)
    have hholds := ih (fun d' hd' => hof d' (List.mem_append_left _ hd')) hbefore
    rw [run_append, newest_concat]
    show IssueHeld lower place key s₀ (issueStep lower place (run (issueStep lower place) s₀ ds) d) _
    cases hheld : newest IssueDelivery.updatedAt ds with
    | none =>
      rw [hheld] at hholds
      exact issueStep_import hstart hd hshort hholds hlast
    | some held =>
      rw [hheld] at hholds
      obtain ⟨before, after, rfl, -, -⟩ := newest_eq_some hheld
      exact issueStep_update hstart hd (hof held (by simp)) hholds hlast

/-- A delivery applies its version, except for what a deletion makes of `done`. -/
theorem remote_eq : d.remote = { d.version.toRemote with done := d.version.toRemote.done || d.isDeletion } := by
  unfold IssueDelivery.remote
  cases d.isDeletion with
  | true => simp
  | false => simp

theorem remote_of_deletion (h : d.isDeletion = true) : d.remote.done = true := by
  unfold IssueDelivery.remote
  rw [if_pos h]

/-- **Imported tasks converge** in every run of accepted deliveries that leaves what is deleted. -/
theorem converges_run (lower : String → String) (place : IssuePlace) (key : String) (s : ImportStore)
    (ds : List IssueDelivery) (hissue : SameIssue place key ds) (hstart : Unimported lower place key s)
    (haccepted : Guarded (issueStep lower place) (fun s d => d.accepted lower place s = true) s ds)
    (hdeleted : LeavesDeleted ds) : Converges lower place key s ds := by
  have hof : ∀ d ∈ ds, d.OfIssue place key := fun d hd =>
    ⟨hissue.place d hd, remote_externalKey.trans (hissue.sameKey d hd)⟩
  have hholds := shows_run hstart hissue.short hof haccepted
  -- what the register holds is of the greatest instant, and done where the issue was deleted at that instant
  have hnewest : ∀ d ∈ ds, (∀ d' ∈ ds, d'.updatedAt ≤ d.updatedAt) → ∃ row,
      (run (issueStep lower place) s ds).linked? place.integrationId key = some row ∧
        Shows place s (d.final ds) row := by
    intro d hd hgreatest
    obtain ⟨held, hheld⟩ := Option.ne_none_iff_exists'.mp
      (mt newest_eq_none.mp (List.ne_nil_of_mem hd) : newest IssueDelivery.updatedAt ds ≠ none)
    obtain ⟨before, after, hds, hbefore, hafter⟩ := newest_eq_some hheld
    have hmem : held ∈ ds := by simp [hds]
    have hsame : held.updatedAt = d.updatedAt := by
      refine le_antisymm (hgreatest held hmem) ?_
      rw [hds] at hd
      rcases List.mem_append.mp hd with hd | hd
      · exact hbefore d hd
      · rcases List.mem_cons.mp hd with rfl | hd
        · exact le_rfl
        · exact (hafter d hd).le
    have hdone : ∀ d' ∈ ds, d'.isDeletion = true → d'.updatedAt = held.updatedAt → held.remote.done = true := by
      intro d' hd' hdeletion hinstant
      rw [hds] at hd' hdeleted
      rcases List.mem_append.mp hd' with hd' | hd'
      · -- the deletion came before what is held
        exact (List.pairwise_append.mp hdeleted).2.2 d' hd' held List.mem_cons_self hdeletion hinstant.symm
      · rcases List.mem_cons.mp hd' with rfl | hd'
        · exact remote_of_deletion hdeletion
        · exact absurd (hafter d' hd') (hinstant ▸ lt_irrefl _)
    obtain ⟨row, hlinked, hshows⟩ := hholds.shown held hheld
    have hflag : (d.version.toRemote.done || held.isDeletion) = (d.version.toRemote.done ||
        ds.any fun d' => d'.isDeletion && d'.updatedAt == d.updatedAt) := by
      cases hany : ds.any fun d' => d'.isDeletion && d'.updatedAt == d.updatedAt with
      | true =>
        obtain ⟨d', hd', hcase⟩ := List.any_eq_true.mp hany
        simp only [Bool.and_eq_true, beq_iff_eq] at hcase
        have htrue := hdone d' hd' hcase.1 (hcase.2.trans hsame.symm)
        rw [remote_eq, hissue.distinct held hmem d hd hsame] at htrue
        rw [Bool.or_true]
        exact htrue
      | false =>
        have hnot := List.any_eq_false.mp hany held hmem
        rw [hsame, beq_self_eq_true, Bool.and_true, Bool.not_eq_true] at hnot
        rw [hnot]
    have hfinal : held.remote = d.final ds := by
      rw [remote_eq, hissue.distinct held hmem d hd hsame, hflag]
      rfl
    exact ⟨row, hlinked, hfinal ▸ hshows⟩
  refine ⟨hnewest, fun d hd hdeletion hgreatest => ?_⟩
  obtain ⟨row, hlinked, hshows⟩ := hnewest d hd hgreatest
  refine ⟨row, hlinked, hshows.status.trans (if_pos ?_)⟩
  have hany : (ds.any fun d' => d'.isDeletion && d'.updatedAt == d.updatedAt) = true :=
    List.any_eq_true.mpr ⟨d, hd, by simp [hdeletion]⟩
  simp [IssueDelivery.final, hany]

/-! ## A deleted issue that comes back -/

/-- A GitHub repository that is mapped. -/
def mappedRepository : ImportStore where
  rest := trackerOffice
  tasks := []
  integrations := [{ id := 1, provider := .github, enabled := true }]
  mappings := [{ provider := .github, integrationId := 1, container := .repository 5, projectId := 1 }]

/-- A version of an issue of it. -/
def logsIssue (updatedAt : Int) : IssueVersion :=
  .github "ops/logs"
    { nodeId := "I_7", number := 7, updatedAt, title := "Rotate logs", body := "", isOpen := true,
      htmlUrl := "https://github.example/ops/logs/issues/7" }

theorem mappedRepository_unimported :
    Unimported Library.Text.lower (.github 1 5) "I_7" mappedRepository where
  enabled := by decide +kernel
  mapped := by decide +kernel
  fresh := by decide +kernel
  keys := .nil _ _
  names := List.nodup_nil

/-- Two versions out of order, one of them twice, and the deletion. -/
theorem converges_run_deleted :
    Converges Library.Text.lower (.github 1 5) "I_7" mappedRepository
      [⟨logsIssue 60, some "edited", 70, 70⟩, ⟨logsIssue 0, none, 80, 80⟩, ⟨logsIssue 60, none, 90, 90⟩,
       ⟨logsIssue 60, some "deleted", 100, 100⟩, ⟨logsIssue 0, none, 110, 110⟩] :=
  converges_run _ _ _ _ _ ⟨by decide +kernel, by decide +kernel, by decide +kernel, by decide +kernel⟩
    mappedRepository_unimported (by decide +kernel) (by unfold LeavesDeleted; decide +kernel)

/-- **A deleted issue comes back**: a sync lists it, the webhook of its deletion is handled, and then the sync
applies what it has listed. -/
theorem converges_listedBefore :
    ¬ ∀ (lower : String → String) (place : IssuePlace) (key : String) (s : ImportStore)
      (ds : List IssueDelivery), SameIssue place key ds → Unimported lower place key s →
      Converges lower place key s ds := by
  intro h
  have hconverges := h Library.Text.lower (.github 1 5) "I_7" mappedRepository
    [⟨logsIssue 60, some "deleted", 70, 70⟩, ⟨logsIssue 60, none, 80, 80⟩]
    ⟨by decide +kernel, by decide +kernel, by decide +kernel, by decide +kernel⟩ mappedRepository_unimported
  obtain ⟨row, hlinked, harchived⟩ := hconverges.deleted ⟨logsIssue 60, some "deleted", 70, 70⟩
    (by simp) (by decide +kernel) (by decide +kernel)
  have hactive : ∀ row, (run (issueStep Library.Text.lower (.github 1 5)) mappedRepository
      [⟨logsIssue 60, some "deleted", 70, 70⟩, ⟨logsIssue 60, none, 80, 80⟩]).linked? 1 "I_7" = some row →
      row.status = .active := by
    intro row hrow
    have hstatus : ((run (issueStep Library.Text.lower (.github 1 5)) mappedRepository
        [⟨logsIssue 60, some "deleted", 70, 70⟩, ⟨logsIssue 60, none, 80, 80⟩]).linked? 1 "I_7").map
          (·.status) = some .active := by decide +kernel
    rw [hrow] at hstatus
    exact Option.some.inj hstatus
  rw [hactive row hlinked] at harchived
  cases harchived

end Dayfinch
