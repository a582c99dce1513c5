/-
# Dayfinch.Integrations.Discovery -- the tasks of an Asana project, with their subtasks

`_project_tasks` lists the tasks of a project, and then the subtasks of each task that has any, of each of these,
and so on. Subtasks may be shared and may form cycles. Each list is read page by page (`_page_items`); the loop
over the tasks whose subtasks are still to be listed is the worklist of the library.

`TaskGraph` is what the API serves. `projectTasks_complete` says that the function ends, asks for the subtasks of
no task twice, and returns every task of the project once or raises for a reason that is there (`Raises`): a limit
that is exceeded, something malformed that is served, or a claim it does not hold any more.
-/
import Dayfinch.Integrations.Listings
import Dayfinch.Library.Worklist
import Mathlib.Algebra.Order.BigOperators.Group.List

namespace Dayfinch

open Library

/-! ## Reading a task -/

def maxAsanaTasksPerProject : Nat := 10000

/-- An object in a list of tasks; a field that cannot be read is `none`. -/
structure AsanaTaskEntry where
  gid : String
  name : Option String
  notes : Option String
  completed : Option Bool
  modifiedAt : Option Int
  permalinkUrl : Option String
  assigneeGid : String
  numSubtasks : Option Int
  deriving DecidableEq, Repr

/-- A task as `_parse_task` returns it. -/
structure ParsedTask where
  task : AsanaTask
  numSubtasks : Nat
  deriving DecidableEq, Repr

/-- The error of `_parse_task`. -/
def invalidTask : ProviderError :=
  { message := "Asana returned an invalid task", errorCode := "invalid_response" }

/-- `_parse_task`. -/
def parseTask (item : AsanaTaskEntry) : Except ProviderError ParsedTask :=
  let name := item.name.getD ""
  let notes := item.notes.getD ""
  let url := item.permalinkUrl.getD ""
  match item.numSubtasks, item.completed with
  | some numSubtasks, some completed =>
      if isAsanaGid item.gid = false ∨ name = "" ∨ 10000 < name.length ∨ 100000 < notes.length ∨ 1000 < url.length ∨
          (item.assigneeGid ≠ "" ∧ isAsanaGid item.assigneeGid = false) ∨
          ¬ (0 ≤ numSubtasks ∧ numSubtasks ≤ maxAsanaTasksPerProject) then .error invalidTask
      else
        match item.modifiedAt with
        | none => .error { message := "Asana returned an invalid timestamp", errorCode := "invalid_response" }
        | some modifiedAt =>
            .ok { task := { gid := item.gid, modifiedAt, name, notes, completed, assigneeGid := item.assigneeGid,
                            url }
                  numSubtasks := numSubtasks.toNat }
  | _, _ => .error invalidTask

/-! ## Listing the tasks -/

/-- The lists the API has, by what `_task_page_url` names. -/
inductive TaskList
  | project (gid : String)
  | subtasks (gid : String)
  deriving DecidableEq, Repr

/-- What a request for a page of a list returns. -/
abbrev TaskApi := TaskList → String → Except ProviderError (Option (TokenPage String (Option AsanaTaskEntry)))

/-- `_page_items` of a list, for `fuel` pages at most. -/
def taskItems (api : TaskApi) (renew : TaskList → Nat → Except ProviderError PUnit) (fuel : Nat)
    (list : TaskList) : Except ProviderError (Option (List AsanaTaskEntry)) :=
  pageItems maxAsanaTasksPerProject (some (renew list)) (api list) fuel

/-- How the loop over the subtasks reads them. -/
def taskRules : Reading ProviderError AsanaTaskEntry ParsedTask String where
  read := parseTask
  key parsed := parsed.task.gid
  hasMore parsed := parsed.numSubtasks != 0
  maximum := maxAsanaTasksPerProject
  tooMany :=
    { message := "Asana project exceeds the configured task safety limit", errorCode := "result_too_large",
      retrySeconds := 3600 }

/-- One task of the project itself. -/
def addTop (d : Discovery ParsedTask String) (item : AsanaTaskEntry) :
    Except ProviderError (Discovery ParsedTask String) := do
  let parsed ← parseTask item
  if parsed.task.gid ∈ d.found.map (·.task.gid) then
    .error { message := "Asana returned a duplicate task", errorCode := "invalid_response" }
  else return d.push taskRules parsed

/-- The loop over the tasks of the project itself. -/
def topTasks (raw : List AsanaTaskEntry) : Except ProviderError (Discovery ParsedTask String) :=
  raw.foldlM addTop { found := [], pending := [], examined := [] }

/-- `_project_tasks`, for `fuel` rounds and `fuel` pages of each list at most; the tasks whose subtasks it asked
for, and the outcome. -/
def projectTasks (api : TaskApi) (renew : TaskList → Nat → Except ProviderError PUnit) (externalProjectId : String)
    (fuel : Nat) : List String × Except ProviderError (Option (List ParsedTask)) :=
  match taskItems api renew fuel (.project externalProjectId) with
  | .error e => ([], .error e)
  | .ok none => ([], .ok none)
  | .ok (some raw) =>
      match topTasks raw with
      | .error e => ([], .error e)
      | .ok d => Discovery.discover taskRules (fun gid => taskItems api renew fuel (.subtasks gid)) fuel d

/-! ## What the API serves -/

/-- A finite graph of tasks, in pages: each list is paged somehow, and a task that says it has no subtasks has
none. An entry may be no object. -/
structure TaskGraph where
  pages : TaskList → List (TokenPage String (Option AsanaTaskEntry))
  gids : List String
  finite : ∀ list, ∀ page ∈ pages list, ∀ item, some item ∈ page.entries → item.gid ∈ gids
  numSubtasks_correct : ∀ list, ∀ page ∈ pages list, ∀ item, some item ∈ page.entries →
    item.numSubtasks = some 0 → ∀ page ∈ pages (.subtasks item.gid), page.entries = []

namespace TaskGraph

variable (g : TaskGraph)

/-- The API answers by the pages of the graph. -/
def Served (api : TaskApi) : Prop :=
  ∀ list, TokenPages (fun offset => resultPage (api list) (offset, [])) "" "" (g.pages list)

/-- The entries of a list. -/
def entries (list : TaskList) : List (Option AsanaTaskEntry) := (g.pages list).flatMap (·.entries)

/-- The tasks of a project and of its tasks. -/
def graph (externalProjectId : String) : EntryGraph AsanaTaskEntry String where
  roots := (g.entries (.project externalProjectId)).filterMap id
  children gid := (g.entries (.subtasks gid)).filterMap id
  nodeOf := (·.gid)

/-- A task that is reached from the project. -/
abbrev Reachable (externalProjectId gid : String) : Prop := (g.graph externalProjectId).Reachable gid

/-- The list of a project, or of a task that is reached from it. -/
def Asked (externalProjectId : String) (list : TaskList) : Prop :=
  list = .project externalProjectId ∨ ∃ gid, list = .subtasks gid ∧ g.Reachable externalProjectId gid

/-- Why `_project_tasks` raises: a claim is not held any more, a list or the project is over a limit, or what is
served of a list is malformed. -/
inductive Raises (renew : TaskList → Nat → Except ProviderError PUnit) (externalProjectId : String)
    (e : ProviderError) : Prop
  | claim (list : TaskList) (round : Nat) (h : renew list round = .error e)
  | longList (list : TaskList) (hlist : g.Asked externalProjectId list) (hcode : e.errorCode = "result_too_large")
    (h : maxAsanaTasksPerProject < (g.entries list).length)
  | manyTasks (hcode : e.errorCode = "result_too_large") (gids : List String) (hnodup : gids.Nodup)
    (h : maxAsanaTasksPerProject < gids.length) (hreachable : ∀ gid ∈ gids, g.Reachable externalProjectId gid)
  | noObject (list : TaskList) (hlist : g.Asked externalProjectId list) (hcode : e.errorCode = "invalid_response")
    (h : none ∈ g.entries list)
  | offset (list : TaskList) (hlist : g.Asked externalProjectId list) (hcode : e.errorCode = "invalid_response")
    (page : TokenPage String (Option AsanaTaskEntry)) (hpage : page ∈ g.pages list) (text : String)
    (hnext : page.next = some (some text)) (h : isOffset text = false)
  | task (list : TaskList) (hlist : g.Asked externalProjectId list) (item : AsanaTaskEntry)
    (hitem : some item ∈ g.entries list) (hcode : e.errorCode = "invalid_response") (h : parseTask item = .error e)
  | duplicate (hcode : e.errorCode = "invalid_response")
    (h : ¬ ((g.graph externalProjectId).roots.map (·.gid)).Nodup)

end TaskGraph

theorem parseTask_error {item : AsanaTaskEntry} {e : ProviderError} (h : parseTask item = .error e) :
    e.errorCode = "invalid_response" := by
  unfold parseTask at h
  dsimp only at h
  split at h
  next =>
    split at h
    next =>
      cases h
      rfl
    next =>
      split at h
      next =>
        cases h
        rfl
      next => cases h
  next =>
    cases h
    rfl

/-- A task that was read has the gid of its entry, and no subtasks only where the entry says so. -/
theorem parseTask_eq_ok {item : AsanaTaskEntry} {parsed : ParsedTask} (h : parseTask item = .ok parsed) :
    parsed.task.gid = item.gid ∧ (parsed.numSubtasks = 0 → item.numSubtasks = some 0) := by
  unfold parseTask at h
  dsimp only at h
  split at h
  next numSubtasks completed hnumber hcompleted =>
    split at h
    next => cases h
    next hvalid =>
      split at h
      next => cases h
      next modifiedAt hmodified =>
        cases h
        refine ⟨rfl, fun hzero => ?_⟩
        have hrange : 0 ≤ numSubtasks := by
          by_contra hnegative
          exact hvalid (by simp [hnegative])
        have hzero' : numSubtasks.toNat = 0 := hzero
        rw [hnumber, show numSubtasks = 0 by omega]
  next => cases h

namespace TaskGraph

variable {g : TaskGraph} {api : TaskApi} {renew : TaskList → Nat → Except ProviderError PUnit}

theorem mem_entries {list : TaskList} {item : AsanaTaskEntry} (h : item ∈ (g.entries list).filterMap id) :
    ∃ page ∈ g.pages list, some item ∈ page.entries := by
  obtain ⟨entry, hentry, hitem⟩ := List.mem_filterMap.mp h
  obtain ⟨page, hpage, hmem⟩ := List.mem_flatMap.mp hentry
  obtain rfl : entry = some item := hitem
  exact ⟨page, hpage, hmem⟩

theorem taskRules_fits (g : TaskGraph) (externalProjectId : String) : taskRules.Fits (g.graph externalProjectId) where
  key_eq entry item h := (parseTask_eq_ok h).1
  complete entry item hlisted hread hmore := by
    have hnone := (parseTask_eq_ok hread).2 (by simpa [taskRules] using hmore)
    have hkey : taskRules.key item = entry.gid := (parseTask_eq_ok hread).1
    have hempty : ∀ page ∈ g.pages (.subtasks entry.gid), page.entries = [] := by
      rcases hlisted with hroot | ⟨node, hchild⟩
      · obtain ⟨page, hpage, hentry⟩ := mem_entries hroot
        exact g.numSubtasks_correct _ page hpage entry hentry hnone
      · obtain ⟨page, hpage, hentry⟩ := mem_entries hchild
        exact g.numSubtasks_correct _ page hpage entry hentry hnone
    rw [hkey]
    show (g.entries (.subtasks entry.gid)).filterMap id = []
    rw [entries, List.flatMap_eq_nil_iff.mpr hempty]
    rfl

/-- A list that is read is read whole. -/
theorem taskItems_complete (hserved : g.Served api) {list : TaskList} {fuel : Nat}
    (hfuel : (g.pages list).length ≤ fuel) {found : Option (List AsanaTaskEntry)}
    (h : taskItems api renew fuel list = .ok found) : found = some ((g.entries list).filterMap id) := by
  obtain ⟨items, rfl, hlists⟩ := pageItems_complete (hserved list) hfuel found h
  have hself : itemOf (keepObject (γ := AsanaTaskEntry)) = id := by
    funext entry
    cases entry <;> rfl
  have hall : g.entries list = items.map some := by
    simpa [Library.Lists, hself, entries] using hlists
  rw [hall, List.filterMap_map]
  simp

theorem taskItems_error (hserved : g.Served api) {externalProjectId : String} {list : TaskList}
    (hlist : g.Asked externalProjectId list) {fuel : Nat} {e : ProviderError}
    (h : taskItems api renew fuel list = .error e) : g.Raises renew externalProjectId e := by
  refine (hserved list).fails (P := g.Raises renew externalProjectId) nextOffset_follows (g.entries list).length
    ?_ ?_ ?_ ?_ ?_ (nofun : ∀ t ∈ [], _) ?_ h
  · intro cursor page cursor' hnext
    unfold nextOffset at hnext
    split at hnext
    next => cases hnext
    next => cases hnext
    next =>
      split at hnext
      next => cases hnext
      next =>
        cases hnext
        exact List.Subset.refl _
  · exact fun _ _ _ h => addPage_length h
  · exact fun round e hrenew => .claim list round hrenew
  · intro items page hmem e hfits hpage
    rcases addPage_error hpage with ⟨rfl, hlong⟩ | ⟨entry, hentry, hkeep⟩
    · exact .longList list hlist rfl (by omega)
    · cases entry with
      | none =>
        cases hkeep
        exact .noObject list hlist rfl (List.mem_flatMap.mpr ⟨page, hmem, hentry⟩)
      | some item => cases hkeep
  · intro cursor page hmem token e htoken hfresh hnext
    simp only [nextOffset, htoken] at hnext
    split at hnext
    next hcase =>
      cases hnext
      exact .offset list hlist rfl page hmem token htoken (hcase.resolve_right hfresh)
    next => cases hnext
  · exact Nat.le_of_eq (Nat.zero_add _)

theorem taskItems_length {list : TaskList} {fuel : Nat} {items : List AsanaTaskEntry}
    (h : taskItems api renew fuel list = .ok (some items)) : items.length ≤ maxAsanaTasksPerProject :=
  readPages_length (addPage_accepts _ _ _) (Nat.zero_le _) h

/-! ## The tasks of the project itself -/

theorem addTop_spec {externalProjectId : String} {d d' : Discovery ParsedTask String} {item : AsanaTaskEntry}
    (hitem : item ∈ (g.graph externalProjectId).roots) (hfew : d.found.length < maxAsanaTasksPerProject)
    (hsound : d.Sound taskRules (g.graph externalProjectId)) (h : addTop d item = .ok d') :
    d'.Sound taskRules (g.graph externalProjectId) ∧ d'.examined = d.examined ∧
      d'.found.length = d.found.length + 1 ∧ d'.pending.length ≤ d.pending.length + 1 ∧
      d'.nodes taskRules = d.nodes taskRules ++ [item.gid] := by
  obtain ⟨parsed, hread, h⟩ := bind_eq_ok.mp h
  have hkey := (parseTask_eq_ok hread).1
  split at h
  next => cases h
  next hnew =>
    obtain rfl := Except.ok.inj h
    have hreachable : (g.graph externalProjectId).Reachable (taskRules.key parsed) := by
      have hroot := EntryGraph.Reachable.root hitem
      rwa [← (taskRules_fits g externalProjectId).key_eq item parsed hread] at hroot
    refine ⟨Discovery.push_sound hnew hread (.inl hitem) hreachable hfew hsound, rfl, by simp [Discovery.push], ?_,
      by simp [Discovery.nodes, Discovery.push, taskRules, hkey]⟩
    unfold Discovery.push
    dsimp only
    split
    · simp
    · omega

theorem topTasks_spec {externalProjectId : String} {raw : List AsanaTaskEntry}
    (hraw : raw = (g.graph externalProjectId).roots) (hfew : raw.length ≤ maxAsanaTasksPerProject)
    {d : Discovery ParsedTask String} (h : topTasks raw = .ok d) :
    d.Closed taskRules (g.graph externalProjectId) ∧ d.pending.length ≤ d.found.length := by
  have hfold : ∀ (items : List AsanaTaskEntry) (d d' : Discovery ParsedTask String),
      (∀ item ∈ items, item ∈ (g.graph externalProjectId).roots) →
      d.found.length + items.length ≤ maxAsanaTasksPerProject →
      d.Sound taskRules (g.graph externalProjectId) → items.foldlM addTop d = .ok d' →
      d'.Sound taskRules (g.graph externalProjectId) ∧ d'.examined = d.examined ∧
        (d.pending.length ≤ d.found.length → d'.pending.length ≤ d'.found.length) ∧
        d'.nodes taskRules = d.nodes taskRules ++ items.map (·.gid) := by
    intro items
    induction items with
    | nil =>
      intro d d' _ _ hsound h
      obtain rfl := Except.ok.inj h
      exact ⟨hsound, rfl, id, by simp⟩
    | cons item items ih =>
      intro d d' hitems hfew hsound h
      rw [List.foldlM_cons] at h
      obtain ⟨d₁, hadd, hrest⟩ := bind_eq_ok.mp h
      rw [List.length_cons] at hfew
      obtain ⟨hsound₁, hexamined₁, hlength₁, hpending₁, hnodes₁⟩ :=
        addTop_spec (hitems item List.mem_cons_self) (by omega) hsound hadd
      obtain ⟨hsound', hexamined', hpending', hnodes'⟩ :=
        ih d₁ d' (fun i hi => hitems i (List.mem_cons_of_mem item hi)) (by omega) hsound₁ hrest
      refine ⟨hsound', hexamined'.trans hexamined₁, fun hle => hpending' (by omega), ?_⟩
      rw [hnodes', hnodes₁]
      simp
  have hbegin : Discovery.Sound taskRules (g.graph externalProjectId)
      { found := [], pending := [], examined := [] } :=
    ⟨List.nodup_nil, nofun, nofun, nofun, nofun, Nat.zero_le _⟩
  obtain ⟨hsound, hexamined, hpending, hnodes⟩ :=
    hfold raw _ d (fun item hitem => hraw ▸ hitem) (by simpa using hfew) hbegin h
  refine ⟨⟨hsound, ?_, ?_⟩, hpending (Nat.le_refl _)⟩
  · intro item hitem
    rw [hnodes]
    exact List.mem_append_right _ (List.mem_map_of_mem (hraw ▸ hitem))
  · rw [hexamined]
    nofun

theorem topTasks_error {externalProjectId : String} {raw : List AsanaTaskEntry}
    (hraw : raw = (g.graph externalProjectId).roots) {e : ProviderError} (h : topTasks raw = .error e) :
    g.Raises renew externalProjectId e := by
  have hfold : ∀ (items done : List AsanaTaskEntry) (d : Discovery ParsedTask String), raw = done ++ items →
      d.found.map (·.task.gid) = done.map (·.gid) → items.foldlM addTop d = .error e →
      g.Raises renew externalProjectId e := by
    intro items
    induction items with
    | nil => exact fun done d _ _ h => nomatch h
    | cons item items ih =>
      intro done d hsplit hfound h
      rw [List.foldlM_cons] at h
      rcases bind_eq_error.mp h with h | ⟨d₁, hadd, h⟩
      · rcases bind_eq_error.mp h with h | ⟨parsed, hparsed, h⟩
        · have hitem : item ∈ (g.graph externalProjectId).roots := by simp [← hraw, hsplit]
          obtain ⟨page, hpage, hmem⟩ := mem_entries hitem
          exact .task _ (.inl rfl) item (List.mem_flatMap.mpr ⟨page, hpage, hmem⟩) (parseTask_error h) h
        · rw [hfound, (parseTask_eq_ok hparsed).1] at h
          split at h
          next hold =>
            cases h
            refine .duplicate rfl fun hnodup => ?_
            rw [← hraw, hsplit, List.map_append, List.nodup_append] at hnodup
            exact hnodup.2.2 _ hold _ List.mem_cons_self rfl
          next => cases h
      · refine ih (done ++ [item]) d₁ (by simp [hsplit]) ?_ h
        obtain ⟨parsed, hparsed, hadd⟩ := bind_eq_ok.mp hadd
        split at hadd
        next => cases hadd
        next =>
          obtain rfl := Except.ok.inj hadd
          simp [Discovery.push, hfound, (parseTask_eq_ok hparsed).1]
  exact hfold raw [] _ rfl rfl h

/-! ## All tasks of a project -/

/-- So many rounds, and pages of a list, are enough. -/
def enough (g : TaskGraph) (externalProjectId : String) : Nat :=
  maxAsanaTasksPerProject + 1 + (g.pages (.project externalProjectId)).length +
    (g.gids.map fun gid => (g.pages (.subtasks gid)).length).sum

theorem reachable_mem_gids {externalProjectId gid : String} (h : g.Reachable externalProjectId gid) :
    gid ∈ g.gids := by
  cases h with
  | root hentry =>
    obtain ⟨page, hpage, hmem⟩ := mem_entries hentry
    exact g.finite _ page hpage _ hmem
  | child _ hentry =>
    obtain ⟨page, hpage, hmem⟩ := mem_entries hentry
    exact g.finite _ page hpage _ hmem

theorem length_le_enough {externalProjectId gid : String} (h : g.Reachable externalProjectId gid) :
    (g.pages (.subtasks gid)).length ≤ g.enough externalProjectId := by
  have hmem := List.mem_map_of_mem (f := fun gid => (g.pages (.subtasks gid)).length) (reachable_mem_gids h)
  have hle := List.le_sum_of_mem hmem
  unfold enough
  omega

/-- **Asana's tasks are discovered, all or none.** With enough rounds the function ends; it asks for the subtasks
of no task twice; and it returns every task that is reached from the project, once, or raises over a limit, over
something malformed that is served, or over a claim that is not held any more. -/
theorem projectTasks_complete (g : TaskGraph) {api : TaskApi} (hserved : g.Served api)
    (renew : TaskList → Nat → Except ProviderError PUnit) (externalProjectId : String) {fuel : Nat}
    (hfuel : g.enough externalProjectId ≤ fuel) :
    (projectTasks api renew externalProjectId fuel).1.Nodup ∧
      ((∃ tasks, (projectTasks api renew externalProjectId fuel).2 = .ok (some tasks) ∧
          (tasks.map (·.task.gid)).Nodup ∧
          (∀ gid, gid ∈ tasks.map (·.task.gid) ↔ g.Reachable externalProjectId gid) ∧
          ∀ parsed ∈ tasks, ∃ item, (g.graph externalProjectId).Listed item ∧ parseTask item = .ok parsed) ∨
        ∃ e, (projectTasks api renew externalProjectId fuel).2 = .error e ∧ g.Raises renew externalProjectId e) := by
  have hroots : (g.pages (.project externalProjectId)).length ≤ fuel := by
    unfold enough at hfuel
    omega
  have hchildren : ∀ gid, g.Reachable externalProjectId gid → ∀ found,
      taskItems api renew fuel (.subtasks gid) = .ok found →
        found = some ((g.graph externalProjectId).children gid) :=
    fun gid hgid found h => taskItems_complete hserved ((length_le_enough hgid).trans hfuel) h
  unfold projectTasks
  split
  next e h => exact ⟨List.nodup_nil, .inr ⟨e, rfl, taskItems_error hserved (.inl rfl) h⟩⟩
  next h => cases taskItems_complete hserved hroots h
  next raw h =>
    have hraw : raw = (g.graph externalProjectId).roots :=
      Option.some.inj (taskItems_complete hserved hroots h)
    split
    next e htop => exact ⟨List.nodup_nil, .inr ⟨e, rfl, topTasks_error hraw htop⟩⟩
    next d htop =>
      obtain ⟨hclosed, hpending⟩ := topTasks_spec hraw (taskItems_length h) htop
      have hfits := taskRules_fits g externalProjectId
      have hmeasure : d.measure taskRules < fuel := by
        have hfew := hclosed.sound.few
        simp only [taskRules, Discovery.measure] at hfew ⊢
        unfold enough at hfuel
        omega
      refine ⟨(Discovery.discover_asked fuel d).1, ?_⟩
      cases houtcome : (Discovery.discover taskRules (fun gid => taskItems api renew fuel (.subtasks gid)) fuel d).2 with
      | error e =>
          refine .inr ⟨e, rfl, Discovery.discover_error hfits ?_ ?_ ?_ ?_ hclosed houtcome⟩
          · rintro ⟨gids, hnodup, hmany, hreachable⟩
            exact .manyTasks rfl gids hnodup hmany hreachable
          · intro gid hgid item hitem e hfails
            obtain ⟨page, hpage, hmem⟩ := mem_entries hitem
            exact .task _ (.inr ⟨gid, rfl, hgid⟩) item (List.mem_flatMap.mpr ⟨page, hpage, hmem⟩)
              (parseTask_error hfails) hfails
          · exact fun gid hgid e hfails => taskItems_error hserved (.inr ⟨gid, rfl, hgid⟩) hfails
          · exact fun gid hgid items hitems => Option.some.inj (hchildren gid hgid _ hitems)
      | ok found =>
          cases found with
          | none =>
              refine absurd houtcome (Discovery.discover_ne_none hfits ?_ ?_ hclosed hmeasure)
              · exact fun gid hgid items hitems => Option.some.inj (hchildren gid hgid _ hitems)
              · intro gid hgid hnone
                cases hchildren gid hgid _ hnone
          | some tasks =>
              obtain ⟨hnodup, hreachable, hlisted⟩ := Discovery.discover_found hfits
                (fun gid hgid items hitems => Option.some.inj (hchildren gid hgid _ hitems)) hclosed houtcome
              exact .inl ⟨tasks, rfl, hnodup, hreachable, hlisted⟩

/-- A task with one subtask. -/
def parentTask (gid : String) : AsanaTaskEntry where
  gid := gid
  name := some "Plan"
  notes := none
  completed := some false
  modifiedAt := some 0
  permalinkUrl := none
  assigneeGid := ""
  numSubtasks := some 1

/-- Two tasks that are each other's subtask, one of them in the project. -/
def circle : TaskGraph where
  pages
    | .project _ => [{ entries := [some (parentTask "1")], next := none }]
    | .subtasks gid => [{ entries := [some (parentTask (if gid = "1" then "2" else "1"))], next := none }]
  gids := ["1", "2"]
  finite := by
    rintro (gid | gid) page hpage item hitem
    · obtain rfl := List.mem_singleton.mp hpage
      obtain rfl := Option.some.inj (List.mem_singleton.mp hitem)
      decide
    · obtain rfl := List.mem_singleton.mp hpage
      obtain rfl := Option.some.inj (List.mem_singleton.mp hitem)
      by_cases hgid : gid = "1" <;> simp [parentTask, hgid]
  numSubtasks_correct := by
    rintro (gid | gid) page hpage item hitem hnone
    · obtain rfl := List.mem_singleton.mp hpage
      obtain rfl := Option.some.inj (List.mem_singleton.mp hitem)
      cases hnone
    · obtain rfl := List.mem_singleton.mp hpage
      obtain rfl := Option.some.inj (List.mem_singleton.mp hitem)
      cases hnone

/-- The API that serves them. -/
def circleApi : TaskApi := fun list _ => .ok (circle.pages list).head?

theorem circleApi_served : circle.Served circleApi := fun list =>
  match list with
  | .project _ => .last rfl rfl
  | .subtasks _ => .last rfl rfl

/-- The function ends on a circle of subtasks, asks for each list once and returns both tasks. -/
theorem projectTasks_circle :
    (projectTasks circleApi (fun _ _ => .ok ()) "10" 10100).1.Nodup ∧
      ∃ tasks, (projectTasks circleApi (fun _ _ => .ok ()) "10" 10100).2 = .ok (some tasks) ∧
        tasks.map (·.task.gid) = ["1", "2"] ∧ ∀ gid, gid ∈ ["1", "2"] ↔ circle.Reachable "10" gid := by
  have hgids : (projectTasks circleApi (fun _ _ => .ok ()) "10" 10100).2.map
      (·.map fun tasks => tasks.map (·.task.gid)) = .ok (some ["1", "2"]) := by decide +kernel
  obtain ⟨hnodup, houtcome⟩ := projectTasks_complete circle circleApi_served (fun _ _ => .ok ()) "10"
    (show circle.enough "10" ≤ 10100 by decide)
  rcases houtcome with ⟨tasks, htasks, -, hreachable, -⟩ | ⟨e, he, -⟩
  · rw [htasks] at hgids
    have hlist : tasks.map (·.task.gid) = ["1", "2"] := Option.some.inj (Except.ok.inj hgids)
    exact ⟨hnodup, tasks, htasks, hlist, hlist ▸ hreachable⟩
  · rw [he] at hgids
    cases hgids

end TaskGraph

end Dayfinch
