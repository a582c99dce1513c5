/-
# Dayfinch.Integrations.Listings -- what the providers list, read page by page

A synchronization lists the repositories or projects of a connection and the issues of each, and what is
not in a list is archived or unmapped afterwards. So a list that is cut short does damage: every listing has to
return the whole collection or fail. GitHub's listings ask for numbered pages and take a short page for the
last one, Jira's projects are asked for by position and end by the total, and Jira's issues and every list of
Asana go from token to token.

A reply is what the request to the provider's API returns: `none` where the payload has no list where one
belongs. An entry that is no JSON object is `none` as well. Of an entry the fields are those that are read;
the text of a Jira description has been taken out of its document (`_adf_text`), and what `urlparse` finds in
a GitHub URL stands beside the URL.
-/
import Dayfinch.Integrations.Importers
import Dayfinch.Library.Paging

namespace Dayfinch

open Library
open Library.Text (truncate withoutNul collapse strip fullmatch)

/-! ## Replies -/

/-- `GitHubIntegrationError`, `JiraIntegrationError` and `AsanaIntegrationError`. -/
structure ProviderError where
  message : String
  errorCode : String
  retrySeconds : Nat := 300
  deriving DecidableEq, Repr

/-- A list that belongs into a payload, or the failure without it. -/
def listIn {ρ : Type} (message : String) (payload : Option ρ) : Except ProviderError ρ :=
  match payload with
  | none => .error { message, errorCode := "invalid_response" }
  | some list => .ok list

/-- `if not self.database.renew_.._sync_claim(..): raise ..`. -/
def renewClaim (provider : TaskProvider) (renewed : Bool) : Except ProviderError PUnit :=
  if renewed then .ok ()
  else .error { message := provider.name ++ " synchronization ownership was lost",
                errorCode := "sync_claim_lost", retrySeconds := 30 }

/-! ## GitHub -/

def maxGithubRepositories : Nat := 10000
def maxGithubIssuesPerRepository : Nat := 10000

/-- An entry of `repositories`. -/
structure RepositoryEntry where
  id : Int
  fullName : String
  isPrivate : Bool
  deriving DecidableEq, Repr

/-- A repository as `list_repositories` returns it. -/
structure GithubRepository where
  id : Int
  fullName : String
  isPrivate : Bool
  deriving DecidableEq, Repr

/-- An entry with an id and a name of two parts is a repository; every other one is skipped. -/
def keepRepository (entry : Option RepositoryEntry) : Except ProviderError (Option GithubRepository) :=
  match entry with
  | none => .ok none
  | some repository =>
    if 0 < repository.id ∧ repository.fullName.toList.count '/' = 1 then
      .ok (some { id := repository.id, fullName := truncate 255 repository.fullName,
                  isPrivate := repository.isPrivate })
    else .ok none

/-- One request for a page of repositories. -/
def repositoryBatch (request : Nat → Except ProviderError (Option (List (Option RepositoryEntry))))
    (page : Nat) : Except ProviderError (List (Option RepositoryEntry)) := do
  let payload ← request page
  listIn "GitHub returned an invalid repository list" payload

/-- `list_repositories`. -/
def listRepositories (request : Nat → Except ProviderError (Option (List (Option RepositoryEntry)))) :
    Except ProviderError (List GithubRepository) :=
  readNumbered 100
    (addPage keepRepository maxGithubRepositories
      { message := "GitHub repository list exceeds the supported limit",
        errorCode := "response_too_large" })
    (repositoryBatch request) 100 1 []

/-- An issue in a list of issues. -/
structure IssueEntry where
  nodeId : String
  number : Int
  state : String
  title : String
  body : String
  updatedAt : Option Int
  htmlUrl : String
  urlScheme : String
  urlHost : Option String
  deriving DecidableEq, Repr

/-- An entry in a list of issues. -/
inductive GithubEntry
  | notAnObject
  | pullRequest
  | issue (fields : IssueEntry)
  deriving DecidableEq, Repr

/-- `normalize_issue`, of an entry that is no pull request. -/
def normalizeIssue (webHost : Option String) (issue : IssueEntry) : Except ProviderError GithubIssue :=
  if issue.nodeId = "" ∨ 500 < issue.nodeId.length ∨ issue.number ≤ 0 ∨
      (issue.state ≠ "open" ∧ issue.state ≠ "closed") ∨ strip (withoutNul issue.title) = "" then
    .error { message := "GitHub returned an invalid issue", errorCode := "invalid_response" }
  else
    match issue.updatedAt with
    | none =>
      .error { message := "GitHub returned an invalid issue timestamp", errorCode := "invalid_response" }
    | some updatedAt =>
      .ok { nodeId := issue.nodeId
            number := issue.number.toNat
            updatedAt
            title := truncate 1000 (withoutNul issue.title)
            body := truncate 10000 (withoutNul issue.body)
            isOpen := issue.state == "open"
            htmlUrl :=
              if issue.urlScheme = "https" ∧ issue.urlHost = webHost then issue.htmlUrl else "" }

/-- Pull requests and what is no object are skipped. -/
def keepIssue (webHost : Option String) (entry : GithubEntry) :
    Except ProviderError (Option GithubIssue) :=
  match entry with
  | .notAnObject | .pullRequest => .ok none
  | .issue fields => (normalizeIssue webHost fields).map some

/-- A list of issues has pull requests among its entries; the others are its items. -/
def GithubEntry.isItem : GithubEntry → Bool
  | .pullRequest => false
  | .notAnObject | .issue _ => true

/-- `owner, separator, name = repository_name.partition("/")`, with all three there. -/
def repositoryNameValid (repositoryName : String) : Bool :=
  let owner := repositoryName.toList.takeWhile (· ≠ '/')
  let name := (repositoryName.toList.dropWhile (· ≠ '/')).drop 1
  !owner.isEmpty && !name.isEmpty

/-- One request for a page of issues. -/
def issueBatch (request : Nat → Except ProviderError (Option (List GithubEntry))) (page : Nat) :
    Except ProviderError (List GithubEntry) := do
  let payload ← request page
  listIn "GitHub returned an invalid issue list" payload

/-- `list_issues` of GitHub; the request carries the name of the repository and `since`. -/
def listGithubIssues (webHost : Option String) (repositoryName : String) (since : Option Int)
    (request : String → Option Int → Nat → Except ProviderError (Option (List GithubEntry))) :
    Except ProviderError (List GithubIssue) :=
  if repositoryNameValid repositoryName then
    readNumbered 100
      (addPage (keepIssue webHost) maxGithubIssuesPerRepository
        { message := "GitHub issue list exceeds the supported limit",
          errorCode := "response_too_large" })
      (issueBatch (request repositoryName since)) 101 1 []
  else
    .error { message := "GitHub repository mapping is invalid", errorCode := "invalid_mapping" }

/-! ## Jira -/

def maxJiraProjects : Nat := 10000
def maxJiraIssuesPerProject : Nat := 10000

/-- `_RESOURCE_ID`. -/
def isResourceId (s : String) : Bool :=
  fullmatch (fun c => c.isAlphanum || c == '_' || c == '-') (fun c => c.isAlphanum || c == '_' || c == '-')
    254 s

/-- `_PROJECT_KEY`. -/
def isProjectKey (s : String) : Bool :=
  fullmatch Char.isAlpha (fun c => c.isAlphanum || c == '_') 49 s

/-- `_ISSUE_KEY`: a project key, a hyphen and a number. -/
def isIssueKey (s : String) : Bool :=
  let digits := (s.toList.dropWhile (· ≠ '-')).drop 1
  isProjectKey (String.ofList (s.toList.takeWhile (· ≠ '-'))) &&
    fullmatch (fun c => c.isDigit && c != '0') Char.isDigit 19 (String.ofList digits)

/-- `x if isinstance(x, str) else ""`. -/
def textOf (value : Option String) : String := value.getD ""

/-- `" ".join(x.replace("\x00", "").split()) if isinstance(x, str) else ""`. -/
def lineOf (value : Option String) : String := collapse (withoutNul (textOf value))

/-- An entry of `values` in a list of projects; a field that is no string is `none`. -/
structure JiraProjectEntry where
  id : Option String
  key : Option String
  name : Option String
  deriving DecidableEq, Repr

/-- A project as `list_projects` returns it. -/
structure JiraProject where
  id : String
  key : String
  name : String
  deriving DecidableEq, Repr

/-- The check of an entry of `values`. -/
def convertProject (entry : Option JiraProjectEntry) : Except ProviderError JiraProject :=
  match entry with
  | none => .error { message := "Jira returned an invalid project", errorCode := "invalid_response" }
  | some item =>
    let id := textOf item.id
    let key := textOf item.key
    let name := lineOf item.name
    if !isResourceId id || !isProjectKey key || name == "" || 255 < name.length then
      .error { message := "Jira returned an invalid project", errorCode := "invalid_response" }
    else .ok { id, key, name }

/-- One request for a page of projects. -/
def projectPage
    (request : Nat → Except ProviderError (Option (OffsetPage (Option JiraProjectEntry)))) (startAt : Nat) :
    Except ProviderError (OffsetPage (Option JiraProjectEntry)) := do
  let payload ← request startAt
  listIn "Jira returned an invalid project list" payload

/-- The renewal of the claim before a page, where there is one. -/
def renewJiraClaim (claim : Option (Nat → Bool)) (round : Nat) : Except ProviderError PUnit :=
  renewClaim .jira (claim.elim true fun renewed => renewed round)

/-- `list_projects`, for `fuel` pages at most. -/
def listProjects (enabled : Bool) (claim : Option (Nat → Bool))
    (request : Nat → Except ProviderError (Option (OffsetPage (Option JiraProjectEntry)))) (fuel : Nat) :
    Except ProviderError (Option (List JiraProject)) :=
  if enabled then
    readPages
      (addEach convertProject maxJiraProjects
        { message := "Jira project limit exceeded", errorCode := "capacity_exceeded" })
      OffsetPage.values
      (OffsetPage.next { message := "Jira returned invalid pagination", errorCode := "invalid_response" })
      (renewJiraClaim claim) (projectPage request) fuel 0 0 []
  else
    .error { message := "Jira integration not found", errorCode := "not_found" }

/-- The fields of an entry of `issues`; a field that is no string is `none`, and so is a timestamp that
cannot be read. -/
structure JiraIssueEntry where
  id : Option String
  key : Option String
  summary : Option String
  description : String
  categoryKey : String
  updated : Option Int
  deriving DecidableEq, Repr

/-- `_issue`. -/
def convertIssue (siteUrl : String) (entry : Option JiraIssueEntry) : Except ProviderError JiraIssue :=
  match entry with
  | none => .error { message := "Jira returned an invalid issue", errorCode := "invalid_response" }
  | some item =>
    let id := textOf item.id
    let key := textOf item.key
    let summary := lineOf item.summary
    if !isResourceId id || !isIssueKey key || summary == "" || 500 < summary.length ||
        !(["new", "indeterminate", "done"].contains item.categoryKey) then
      .error { message := "Jira returned an invalid issue", errorCode := "invalid_response" }
    else
      match item.updated with
      | none => .error { message := "Jira returned an invalid timestamp", errorCode := "invalid_response" }
      | some updatedAt =>
        .ok { id, key, updatedAt, summary
              description := item.description
              done := item.categoryKey == "done"
              url := String.ofList (siteUrl.toList.reverse.dropWhile (· == '/')).reverse ++ "/browse/" ++
                key }

/-- The token of the next page: a payload without one ends the listing, and so does an empty one. -/
def nextPageToken (cursor : String × List String) (page : TokenPage String (Option JiraIssueEntry)) :
    Except ProviderError (Option (String × List String)) :=
  match page.next with
  | none => .ok none
  | some none =>
    .error { message := "Jira returned invalid pagination", errorCode := "invalid_response" }
  | some (some candidate) =>
    if candidate = "" then .ok none
    else if 4096 < candidate.length ∨ candidate ∈ cursor.2 then
      .error { message := "Jira returned invalid pagination", errorCode := "invalid_response" }
    else .ok (some (candidate, candidate :: cursor.2))

/-- One request for a page of issues. -/
def searchPage
    (request : String → Except ProviderError (Option (TokenPage String (Option JiraIssueEntry))))
    (cursor : String × List String) :
    Except ProviderError (TokenPage String (Option JiraIssueEntry)) := do
  let payload ← request cursor.1
  listIn "Jira returned an invalid issue list" payload

/-- `list_issues` of Jira, for `fuel` pages at most; the request carries the project and the time of the
query, and the empty token stands for none. -/
def listJiraIssues (siteUrl projectId : String) (updatedSince : Option Int) (renewed : Nat → Bool)
    (request : String → Option Int → String →
      Except ProviderError (Option (TokenPage String (Option JiraIssueEntry)))) (fuel : Nat) :
    Except ProviderError (Option (List JiraIssue)) :=
  if isResourceId projectId then
    readPages
      (addEach (convertIssue siteUrl) maxJiraIssuesPerProject
        { message := "Jira issue limit exceeded", errorCode := "capacity_exceeded" })
      TokenPage.entries nextPageToken (renewJiraClaim (some renewed))
      (searchPage (request projectId updatedSince)) fuel 0 ("", []) []
  else
    .error { message := "Jira project mapping is invalid", errorCode := "invalid_mapping" }

/-! ## Asana -/

/-- `_OFFSET`. -/
def isOffset (s : String) : Bool :=
  fullmatch (fun c => c.isAlphanum || "._~+/=-".toList.contains c)
    (fun c => c.isAlphanum || "._~+/=-".toList.contains c) 4095 s

/-- An entry that is no object makes the page invalid. -/
def keepObject {γ : Type} (entry : Option γ) : Except ProviderError (Option γ) :=
  match entry with
  | none => .error { message := "Asana returned an invalid result page", errorCode := "invalid_response" }
  | some item => .ok (some item)

/-- `next_page` and the offset in it. -/
def nextOffset {γ : Type} (cursor : String × List String) (page : TokenPage String (Option γ)) :
    Except ProviderError (Option (String × List String)) :=
  match page.next with
  | none => .ok none
  | some none =>
    .error { message := "Asana returned invalid pagination", errorCode := "invalid_response" }
  | some (some offset) =>
    if isOffset offset = false ∨ offset ∈ cursor.2 then
      .error { message := "Asana returned invalid pagination", errorCode := "invalid_response" }
    else .ok (some (offset, offset :: cursor.2))

/-- One request for a page of results. -/
def resultPage {γ : Type} (request : String → Except ProviderError (Option (TokenPage String (Option γ))))
    (cursor : String × List String) : Except ProviderError (TokenPage String (Option γ)) := do
  let payload ← request cursor.1
  listIn "Asana returned an invalid result page" payload

/-- `_page_items`, for `fuel` pages at most; the empty offset stands for none. -/
def pageItems {γ : Type} (maximum : Nat) (renew : Option (Nat → Except ProviderError PUnit))
    (request : String → Except ProviderError (Option (TokenPage String (Option γ)))) (fuel : Nat) :
    Except ProviderError (Option (List γ)) :=
  readPages
    (addPage keepObject maximum
      { message := "Asana result exceeds the configured safety limit", errorCode := "result_too_large",
        retrySeconds := 3600 })
    TokenPage.entries nextOffset (fun round => renew.elim (.ok ()) (· round)) (resultPage request) fuel 0
    ("", []) []

/-! ## GitHub's listings -/

/-- The repository pages that are read hold too many repositories, or every entry that is served is a
repository on one of them. -/
def RepositoriesSuffice (pages : List (List (Option RepositoryEntry))) : Prop :=
  ReadSuffices keepRepository (fun _ => true) maxGithubRepositories (numberedRead 100 100 pages).flatten
    (pages.drop (numberedRead 100 100 pages).length).flatten

theorem listRepositories_complete_iff
    {request : Nat → Except ProviderError (Option (List (Option RepositoryEntry)))}
    {pages : List (List (Option RepositoryEntry))} (hpages : NumberedPages (repositoryBatch request) pages) :
    Ensures (listRepositories request) (Lists keepRepository (fun _ => true) pages.flatten) ↔
      RepositoriesSuffice pages :=
  readNumbered_complete_iff (fun _ _ => rfl) (addPage_accepts _ _ _) (by decide) hpages 100

/-- What is kept of a list of issues is an item of it. -/
theorem isItem_of_keepIssue {webHost : Option String} (entry : GithubEntry)
    (h : itemOf (keepIssue webHost) entry ≠ none) : entry.isItem := by
  cases entry with
  | notAnObject => rfl
  | pullRequest => exact absurd rfl h
  | issue fields => rfl

/-- The issue pages that are read hold an invalid issue or too many issues, or every issue that is served
is on one of them. -/
def IssuesSuffice (webHost : Option String) (pages : List (List GithubEntry)) : Prop :=
  ReadSuffices (keepIssue webHost) GithubEntry.isItem maxGithubIssuesPerRepository
    (numberedRead 100 101 pages).flatten (pages.drop (numberedRead 100 101 pages).length).flatten

theorem listGithubIssues_complete_iff {webHost : Option String} {repositoryName : String}
    {since : Option Int}
    {request : String → Option Int → Nat → Except ProviderError (Option (List GithubEntry))}
    {pages : List (List GithubEntry)}
    (hpages : NumberedPages (issueBatch (request repositoryName since)) pages) :
    Ensures (listGithubIssues webHost repositoryName since request)
        (Lists (keepIssue webHost) GithubEntry.isItem pages.flatten) ↔
      repositoryNameValid repositoryName = false ∨ IssuesSuffice webHost pages := by
  unfold listGithubIssues
  cases hname : repositoryNameValid repositoryName with
  | false => simp
  | true =>
    rw [if_pos rfl, or_iff_right (by simp)]
    exact readNumbered_complete_iff isItem_of_keepIssue (addPage_accepts _ _ _) (by decide) hpages 101

/-! ## Jira's listings -/

/-- An entry that is converted is never skipped. -/
theorem itemOf_converted {γ α : Type} {convert : γ → Except ProviderError α} (entry : γ)
    (h : ((convert entry).map some).isOk) :
    itemOf (fun entry => (convert entry).map some) entry ≠ none := by
  unfold itemOf
  cases hentry : convert entry with
  | error e =>
    rw [hentry] at h
    cases h
  | ok item => simp [Except.map, hentry]

/-- What `list_projects` keeps of an entry. -/
def keepProject (entry : Option JiraProjectEntry) : Except ProviderError (Option JiraProject) :=
  (convertProject entry).map some

/-- The claim is lost before one of the project pages that are read, these pages hold an invalid project
or too many projects, or they are all pages that have projects. -/
def ProjectsSuffice (claim : Option (Nat → Bool)) (pages : List (OffsetPage (Option JiraProjectEntry))) :
    Prop :=
  (∃ k < (upTo OffsetPage.uncounted pages).length, (renewJiraClaim claim k).isOk = false) ∨
    ReadSuffices keepProject (fun _ => true) maxJiraProjects (offsetRead pages) (offsetUnread pages)

theorem listProjects_complete_iff {enabled : Bool} {claim : Option (Nat → Bool)}
    {request : Nat → Except ProviderError (Option (OffsetPage (Option JiraProjectEntry)))} {size : Nat}
    {pages : List (OffsetPage (Option JiraProjectEntry))}
    (hpages : OffsetPages (projectPage request) size 0 pages) {fuel : Nat} (hfuel : pages.length ≤ fuel) :
    Ensures (listProjects enabled claim request fuel)
        (FoundAll keepProject (fun _ => true) (pages.flatMap (·.values))) ↔
      enabled = false ∨ ProjectsSuffice claim pages := by
  unfold listProjects
  cases enabled with
  | false => simp
  | true =>
    rw [if_pos rfl, or_iff_right (by simp)]
    exact hpages.complete_iff (fun _ _ => rfl) (addEach_accepts _ _ _) _ _ hfuel

theorem nextPageToken_follows : Library.Follows "" nextPageToken where
  atEnd cursor page h := by simp only [nextPageToken, h]
  atToken cursor page token h hne := by
    simp only [nextPageToken, h, if_neg hne]
    split
    · exact .inl ⟨_, rfl⟩
    · exact .inr ⟨_, rfl⟩

/-- What `list_issues` of Jira keeps of an entry. -/
def keepJiraIssue (siteUrl : String) (entry : Option JiraIssueEntry) :
    Except ProviderError (Option JiraIssue) :=
  (convertIssue siteUrl entry).map some

theorem listJiraIssues_complete {siteUrl projectId : String} {updatedSince : Option Int}
    {renewed : Nat → Bool}
    {request : String → Option Int → String →
      Except ProviderError (Option (TokenPage String (Option JiraIssueEntry)))}
    {pages : List (TokenPage String (Option JiraIssueEntry))}
    (hpages : TokenPages (fun token => searchPage (request projectId updatedSince) (token, [])) "" "" pages)
    {fuel : Nat} (hfuel : pages.length ≤ fuel) :
    Ensures (listJiraIssues siteUrl projectId updatedSince renewed request fuel)
      (FoundAll (keepJiraIssue siteUrl) (fun _ => true) (pages.flatMap (·.entries))) := by
  unfold listJiraIssues
  split
  · exact hpages.complete nextPageToken_follows itemOf_converted (addEach_accepts _ _ _) _ hfuel
  · exact ensures_error

/-! ## Asana's listing -/

theorem nextOffset_follows {γ : Type} : Library.Follows "" (nextOffset (γ := γ)) where
  atEnd cursor page h := by simp only [nextOffset, h]
  atToken cursor page token h _ := by
    simp only [nextOffset, h]
    split
    · exact .inl ⟨_, rfl⟩
    · exact .inr ⟨_, rfl⟩

theorem pageItems_complete {γ : Type} {maximum : Nat} {renew : Option (Nat → Except ProviderError PUnit)}
    {request : String → Except ProviderError (Option (TokenPage String (Option γ)))}
    {pages : List (TokenPage String (Option γ))}
    (hpages : TokenPages (fun offset => resultPage request (offset, [])) "" "" pages) {fuel : Nat}
    (hfuel : pages.length ≤ fuel) :
    Ensures (pageItems maximum renew request fuel)
      (FoundAll keepObject (fun _ => true) (pages.flatMap (·.entries))) := by
  refine hpages.complete nextOffset_follows ?_ (addPage_accepts _ _ _) _ hfuel
  intro entry h
  cases entry with
  | none => cases h
  | some item => simp [itemOf, keepObject]

/-! ## All listings -/

/-- **Listings are complete or fail**, each exactly under its condition: GitHub's if what is read up to the
first short page, or up to the last page that is asked for, suffices; Jira's projects if the pages up to the
first without a total do; Jira's issues and the lists of Asana always. -/
theorem listings_complete_iff
    {repositories : Nat → Except ProviderError (Option (List (Option RepositoryEntry)))}
    {repositoryPages : List (List (Option RepositoryEntry))}
    (hrepositories : NumberedPages (repositoryBatch repositories) repositoryPages)
    (webHost : Option String) (repositoryName : String) (since : Option Int)
    (githubIssues : String → Option Int → Nat → Except ProviderError (Option (List GithubEntry)))
    {githubPages : List (List GithubEntry)}
    (hgithub : NumberedPages (issueBatch (githubIssues repositoryName since)) githubPages)
    (enabled : Bool) (claim : Option (Nat → Bool))
    {projects : Nat → Except ProviderError (Option (OffsetPage (Option JiraProjectEntry)))} {size : Nat}
    {projectPages : List (OffsetPage (Option JiraProjectEntry))}
    (hprojects : OffsetPages (projectPage projects) size 0 projectPages)
    (siteUrl projectId : String) (updatedSince : Option Int) (renewed : Nat → Bool)
    (jiraIssues : String → Option Int → String →
      Except ProviderError (Option (TokenPage String (Option JiraIssueEntry))))
    {jiraPages : List (TokenPage String (Option JiraIssueEntry))}
    (hjira : TokenPages (fun token => searchPage (jiraIssues projectId updatedSince) (token, [])) "" ""
      jiraPages)
    {γ : Type} (maximum : Nat) (renew : Option (Nat → Except ProviderError PUnit))
    {results : String → Except ProviderError (Option (TokenPage String (Option γ)))}
    {resultPages : List (TokenPage String (Option γ))}
    (hresults : TokenPages (fun offset => resultPage results (offset, [])) "" "" resultPages)
    {fuel : Nat}
    (hfuel : projectPages.length ≤ fuel ∧ jiraPages.length ≤ fuel ∧ resultPages.length ≤ fuel) :
    (Ensures (listRepositories repositories)
        (Lists keepRepository (fun _ => true) repositoryPages.flatten) ↔
      RepositoriesSuffice repositoryPages) ∧
    (Ensures (listGithubIssues webHost repositoryName since githubIssues)
        (Lists (keepIssue webHost) GithubEntry.isItem githubPages.flatten) ↔
      repositoryNameValid repositoryName = false ∨ IssuesSuffice webHost githubPages) ∧
    (Ensures (listProjects enabled claim projects fuel)
        (FoundAll keepProject (fun _ => true) (projectPages.flatMap (·.values))) ↔
      enabled = false ∨ ProjectsSuffice claim projectPages) ∧
    Ensures (listJiraIssues siteUrl projectId updatedSince renewed jiraIssues fuel)
      (FoundAll (keepJiraIssue siteUrl) (fun _ => true) (jiraPages.flatMap (·.entries))) ∧
    Ensures (pageItems maximum renew results fuel)
      (FoundAll keepObject (fun _ => true) (resultPages.flatMap (·.entries))) :=
  ⟨listRepositories_complete_iff hrepositories, listGithubIssues_complete_iff hgithub,
    listProjects_complete_iff hprojects hfuel.1, listJiraIssues_complete hjira hfuel.2.1,
    pageItems_complete hresults hfuel.2.2⟩

/-- A project that Jira may list. -/
def officeProject : JiraProjectEntry where
  id := some "10000"
  key := some "OFF"
  name := some "Office"

/-- Another one. -/
def gardenProject : JiraProjectEntry where
  id := some "10001"
  key := some "GAR"
  name := some "Garden"

/-- Jira's two pages of one project each, with `isLast` and with the total that is passed. -/
def twoProjectPages (total : Option (Option Int)) : List (OffsetPage (Option JiraProjectEntry)) :=
  [{ values := [some officeProject], isLast := some false, total },
   { values := [some gardenProject], isLast := some true, total }]

/-- Jira's answers with these pages. -/
def twoProjects (total : Option (Option Int)) (startAt : Nat) :
    Except ProviderError (Option (OffsetPage (Option JiraProjectEntry))) :=
  .ok (some (((twoProjectPages total)[startAt]?).getD { values := [], isLast := some true, total }))

/-- The pages are served by position. -/
theorem twoProjects_served {total : Option (Option Int)} (htotal : total = none ∨ total = some (some 2)) :
    OffsetPages (projectPage (twoProjects total)) 2 0 (twoProjectPages total) := by
  refine .next rfl htotal ?_ ?_ ?_ (.last rfl htotal rfl)
  · simp
  · simp
  · simp

/-- Where the provider counts its projects, all of them are listed. -/
theorem listings_complete_iff_counted :
    Ensures (listProjects true none (twoProjects (some (some 2))) 2)
      (FoundAll keepProject (fun _ => true)
        ((twoProjectPages (some (some 2))).flatMap (·.values))) := by
  have hrepositories : NumberedPages
      (repositoryBatch fun _ => .ok (some ([] : List (Option RepositoryEntry)))) [] := fun k => rfl
  have hgithub : NumberedPages (issueBatch fun _ => .ok (some ([] : List GithubEntry))) [] :=
    fun k => rfl
  have hjira : TokenPages (fun token => searchPage
      (fun _ => .ok (some { entries := ([] : List (Option JiraIssueEntry)), next := none }))
      (token, [])) "" "" [{ entries := [], next := none }] := .last rfl rfl
  have hresults : TokenPages (fun offset => resultPage
      (fun _ => .ok (some { entries := ([] : List (Option Nat)), next := none })) (offset, [])) "" ""
      [{ entries := [], next := none }] := .last rfl rfl
  have hprojects : ProjectsSuffice none (twoProjectPages (some (some 2))) := by
    refine .inr (.inr (.inr ⟨?_, ?_⟩))
    · decide +kernel
    · decide +kernel
  exact (listings_complete_iff hrepositories none "acme/dayfinch" none (fun _ _ _ => .ok (some []))
    hgithub true none (twoProjects_served (.inr rfl)) "" "10000" none (fun _ => true)
    (fun _ _ _ => .ok (some { entries := [], next := none })) hjira 1 none hresults
    ⟨by decide, by decide, by decide⟩).2.2.1.mpr (.inr hprojects)

/-- Without a total the first page is taken for the last: the second project is left out. -/
theorem listings_uncounted :
    OffsetPages (projectPage (twoProjects none)) 2 0 (twoProjectPages none) ∧
      ¬ Ensures (listProjects true none (twoProjects none) 2)
        (FoundAll keepProject (fun _ => true) ((twoProjectPages none).flatMap (·.values))) := by
  refine ⟨twoProjects_served (.inl rfl), ?_⟩
  intro h
  have hfirst : listProjects true none (twoProjects none) 2 =
      .ok (some [{ id := "10000", key := "OFF", name := "Office" }]) := by
    decide +kernel
  obtain ⟨items, hitems, hlists⟩ := h _ hfirst
  cases hitems
  have hlen := congrArg List.length hlists
  revert hlen
  decide +kernel

end Dayfinch
