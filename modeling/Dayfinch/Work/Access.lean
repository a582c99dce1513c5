/-
# Dayfinch.Work.Access -- live sessions and the right to track

A live session should belong to an enabled user and an enabled project, in which a plain member works
or manages. Disabling, archiving, removing and demoting close the work they make unlawful, in the
same transaction; three other paths do not look. A paused heartbeat is never authorised; an active one
is authorised on an earlier connection than the transaction that inserts its session; and
`add_project_member` and `set_user_profile` change a role without closing anything.

A heartbeat therefore takes two steps here, `check` and `transact`, with other operations in between.
`keepsAccess` is the condition under which each step keeps the invariant.
-/
import Dayfinch.Work.SyncEffect

namespace Dayfinch

open Library (updateWhere find?_updateWhere bind_eq_ok run Guarded guarded_invariant)

/-! ## The right to track -/

/-- The user is enabled, the project is enabled, and a user who is a plain member works in or manages
the project. -/
def HasAccess (db : Database) (userId projectId : Option Nat) : Prop :=
  ∃ user project, userId.bind db.getUserAny = some user ∧ user.enabled = true ∧
    projectId.bind db.getProject = some project ∧ project.enabled = true ∧
    (user.role = .member → canTrack (db.projectMemberRole project.id user.id) = true)

/-- `HasAccess`, computed. -/
def accessGranted (db : Database) (userId projectId : Option Nat) : Bool :=
  (userId.bind db.getUserAny).any fun user => user.enabled &&
    (projectId.bind db.getProject).any fun project => project.enabled &&
      (user.role != .member || canTrack (db.projectMemberRole project.id user.id))

theorem accessGranted_iff {db : Database} {userId projectId : Option Nat} :
    accessGranted db userId projectId = true ↔ HasAccess db userId projectId := by
  unfold accessGranted HasAccess
  cases userId.bind db.getUserAny with
  | none => simp
  | some user =>
    cases projectId.bind db.getProject with
    | none => simp
    | some project => simp [Bool.or_eq_true, imp_iff_not_or]

/-- **Every live session has access.** -/
def AccessInvariant (db : Database) : Prop :=
  ∀ ws ∈ db.workSessions, ws.live → HasAccess db ws.userId ws.projectId

/-! ## A heartbeat in two steps -/

/-- The database and the heartbeats that have passed the checks and not yet run their transaction. -/
structure Inflight where
  db : Database
  admitted : List (SyncCall × Admission) := []

/-- The operations of a run: a heartbeat's two steps, and the changes of users, projects and roles. -/
inductive AccessOp
  | check (now : Int) (call : SyncCall)
  | transact (tie : AgentStateEvent → Nat) (now : Int) (index : Nat)
  | addProjectMember (projectId userId : Nat) (projectRole : Option ProjectRole)
  | removeProjectMember (now : Int) (projectId userId : Nat)
  | setProjectEnabled (now : Int) (projectId : Nat) (enabled : Bool)
  | setProjectMemberRole (now : Int) (projectId userId : Nat) (projectRole : Option ProjectRole)
  | setUserEnabled (now : Int) (userId : Nat) (enabled : Bool)
  | setUserProfile (userId : Nat) (role : Option Role) (weeklyLimitMinutes : Int)
      (dailyLimitMinutes : Option Int)

/-- The operation of the work store that an administrative operation is. -/
def AccessOp.workOp : AccessOp → Option WorkOp
  | .check _ _ | .transact _ _ _ => none
  | .addProjectMember projectId userId role => some (.addProjectMember projectId userId role)
  | .removeProjectMember now projectId userId => some (.removeProjectMember now projectId userId)
  | .setProjectEnabled now projectId enabled => some (.setProjectEnabled now projectId enabled)
  | .setProjectMemberRole now projectId userId role =>
    some (.setProjectMemberRole now projectId userId role)
  | .setUserEnabled now userId enabled => some (.setUserEnabled now userId enabled)
  | .setUserProfile userId role weekly daily => some (.setUserProfile userId role weekly daily)

/-- One step. A transaction that raises is rolled back, and its heartbeat is over. -/
def accessStep (s : Inflight) (op : AccessOp) : Inflight :=
  match op with
  | .check now call =>
    match call.status.map (admitSync now s.db call) with
    | some (.ok adm) => { s with admitted := s.admitted ++ [(call, adm)] }
    | _ => s
  | .transact tie now index =>
    match s.admitted[index]? with
    | none => s
    | some (call, adm) =>
      { db := commit s.db ((syncTransaction tie now s.db call adm).map (·.1))
        admitted := s.admitted.eraseIdx index }
  | op => { s with db := (op.workOp.map (step s.db)).getD s.db }

/-! ## The condition -/

/-- The sessions of a user in a project that are live. -/
def liveWork (db : Database) (userId projectId : Nat) : Bool :=
  db.workSessions.any fun ws =>
    ws.live && ws.userId == some userId && ws.projectId == some projectId

/-- A heartbeat that opens a session has access at the time of its transaction. -/
def opensWithAccess (previous : Option AgentStateEvent) (observed : Int) (db : Database)
    (call : SyncCall) (adm : Admission) : Bool :=
  adm.status == .stopped || (keptSession previous observed db call adm).isSome ||
    accessGranted db call.device.ownerUserId adm.projectId

/-- A member's live sessions are in projects the member works in or manages. -/
def worksWhereTracking (db : Database) (userId : Nat) : Bool :=
  db.workSessions.all fun ws =>
    !(ws.live && ws.userId == some userId) ||
      ws.projectId.all fun p => canTrack (db.projectMemberRole p userId)

/-- **A step keeps access**: a transaction that is let through and opens a session has access then;
making someone a viewer of a project through `add_project_member` finds no live work of theirs there
if they are a plain member; making someone a plain member finds their live work where they may
track. -/
def keepsAccess (s : Inflight) : AccessOp → Bool
  | .transact tie _ index =>
    match s.admitted[index]? with
    | none => true
    | some (call, adm) =>
      let previous := previousReceipt tie s.db call
      let observed := clampToPrevious previous adm.observed
      !letThrough s.db call adm observed || opensWithAccess previous observed s.db call adm
  | .addProjectMember projectId userId (some .viewer) =>
    (s.db.getUserAny userId).all (·.role != .member) || !liveWork s.db userId projectId
  | .setUserProfile userId (some .member) _ _ => worksWhereTracking s.db userId
  | _ => true

/-! ## Lookups after an update -/

section

variable {db db' : Database}

theorem getProject_id {projectId : Nat} {project : Project}
    (h : db.getProject projectId = some project) : project.id = projectId := by
  simpa using List.find?_some h

/-- Access reads three tables. -/
theorem HasAccess.of_tables {userId projectId : Option Nat} (h : HasAccess db userId projectId)
    (husers : db'.users = db.users) (hprojects : db'.projects = db.projects)
    (hmembers : db'.projectMembers = db.projectMembers) : HasAccess db' userId projectId := by
  have hu : db'.getUserAny = db.getUserAny := by funext u; rw [Database.getUserAny, husers]; rfl
  have hp : db'.getProject = db.getProject := by funext p; rw [Database.getProject, hprojects]; rfl
  have hm : db'.projectMemberRole = db.projectMemberRole := by
    funext p u
    rw [Database.projectMemberRole, hmembers]
    rfl
  unfold HasAccess
  rw [hu, hp, hm]
  exact h

/-- An update of one user keeps access where it leaves an enabled user in the role before, or in one
that is not a plain member's or may track. -/
theorem HasAccess.update_user {userId projectId : Option Nat} (h : HasAccess db userId projectId)
    {u : Nat} {f : User → User} (hid : ∀ user, (f user).id = user.id)
    (husers : db'.users = updateWhere (·.id == u) f db.users)
    (hprojects : db'.projects = db.projects) (hmembers : db'.projectMembers = db.projectMembers)
    (hf : userId = some u → ∀ user, user.enabled = true → (f user).enabled = true ∧
      ((f user).role = .member → user.role = .member ∨
        ∀ p, projectId = some p → canTrack (db.projectMemberRole p u) = true)) :
    HasAccess db' userId projectId := by
  obtain ⟨user, project, huser, henabled, hproject, hpenabled, hrole⟩ := h
  obtain ⟨v, rfl, hget⟩ := Option.bind_eq_some_iff.mp huser
  obtain ⟨p, rfl, hgetp⟩ := Option.bind_eq_some_iff.mp hproject
  have hm : db'.projectMemberRole = db.projectMemberRole := by
    funext p u
    rw [Database.projectMemberRole, hmembers]
    rfl
  have hgetp' : db'.getProject p = some project := by
    rw [Database.getProject, hprojects]
    exact hgetp
  have hget' : db'.getUserAny v = some (if user.id == u then f user else user) := by
    rw [Database.getUserAny, husers, find?_updateWhere (by simp [hid])]
    show (db.getUserAny v).map _ = _
    rw [hget]
    rfl
  have huid := getUserAny_id hget
  refine ⟨_, project, hget', ?_, hgetp', hpenabled, ?_⟩
  · by_cases hsel : user.id = u
    · rw [if_pos (by simpa using hsel)]
      exact (hf (by rw [← huid, hsel]) user henabled).1
    · rw [if_neg (by simpa using hsel)]
      exact henabled
  · rw [hm]
    by_cases hsel : user.id = u
    · rw [if_pos (by simpa using hsel), hid]
      intro hmember
      rcases (hf (by rw [← huid, hsel]) user henabled).2 hmember with hold | hall
      · exact hrole hold
      · rw [hsel, getProject_id hgetp]
        exact hall p rfl
    · rw [if_neg (by simpa using hsel)]
      exact hrole

/-- An update of one project keeps access where it leaves the project enabled. -/
theorem HasAccess.update_project {userId projectId : Option Nat} (h : HasAccess db userId projectId)
    {p : Nat} {f : Project → Project} (hid : ∀ project, (f project).id = project.id)
    (hprojects : db'.projects = updateWhere (·.id == p) f db.projects)
    (husers : db'.users = db.users) (hmembers : db'.projectMembers = db.projectMembers)
    (hf : projectId = some p → ∀ project, (f project).enabled = true) :
    HasAccess db' userId projectId := by
  obtain ⟨user, project, huser, henabled, hproject, hpenabled, hrole⟩ := h
  obtain ⟨q, rfl, hget⟩ := Option.bind_eq_some_iff.mp hproject
  have hm : db'.projectMemberRole = db.projectMemberRole := by
    funext p u
    rw [Database.projectMemberRole, hmembers]
    rfl
  have hu : db'.getUserAny = db.getUserAny := by funext u; rw [Database.getUserAny, husers]; rfl
  have hget' : db'.getProject q = some (if project.id == p then f project else project) := by
    rw [Database.getProject, hprojects, find?_updateWhere (by simp [hid])]
    show (db.getProject q).map _ = _
    rw [hget]
    rfl
  have hpid := getProject_id hget
  refine ⟨user, _, by rw [hu]; exact huser, henabled, hget', ?_, ?_⟩
  · by_cases hsel : project.id = p
    · rw [if_pos (by simpa using hsel)]
      exact hf (by rw [← hpid, hsel]) project
    · rw [if_neg (by simpa using hsel)]
      exact hpenabled
  · rw [hm]
    have hsame : (if project.id == p then f project else project).id = project.id := by
      split
      · exact hid project
      · rfl
    rw [hsame]
    exact hrole

/-- A change of one role keeps access, except for the user in the project whose role it is. -/
theorem HasAccess.update_role {userId projectId : Option Nat} (h : HasAccess db userId projectId)
    {p u : Nat} (husers : db'.users = db.users) (hprojects : db'.projects = db.projects)
    (hroles : ∀ q v, ¬ (q = p ∧ v = u) → db'.projectMemberRole q v = db.projectMemberRole q v)
    (hself : projectId = some p → userId = some u →
      (∃ user, db.getUserAny u = some user ∧ user.role ≠ .member) ∨
        canTrack (db'.projectMemberRole p u) = true) : HasAccess db' userId projectId := by
  obtain ⟨user, project, huser, henabled, hproject, hpenabled, hrole⟩ := h
  obtain ⟨v, rfl, hget⟩ := Option.bind_eq_some_iff.mp huser
  obtain ⟨q, rfl, hgetp⟩ := Option.bind_eq_some_iff.mp hproject
  refine ⟨user, project, ?_, henabled, ?_, hpenabled, fun hmember => ?_⟩
  · show db'.getUserAny v = _
    rw [Database.getUserAny, husers]
    exact hget
  · show db'.getProject q = _
    rw [Database.getProject, hprojects]
    exact hgetp
  · have huid := getUserAny_id hget
    have hpid := getProject_id hgetp
    by_cases hsel : project.id = p ∧ user.id = u
    · rcases hself (by rw [← hpid, hsel.1]) (by rw [← huid, hsel.2]) with
        ⟨user', hget', hnot⟩ | htrack
      · rw [← hsel.2, huid, hget] at hget'
        cases hget'
        exact absurd hmember hnot
      · rw [hsel.1, hsel.2]
        exact htrack
    · rw [hroles _ _ hsel]
      exact hrole hmember

/-! ## Roles after an update -/

theorem projectMemberRole_update (db : Database) {p u : Nat} {role : ProjectRole}
    (hmembers : db'.projectMembers = updateWhere (fun pm => pm.projectId == p && pm.userId == u)
      (fun pm => { pm with projectRole := role }) db.projectMembers) (q v : Nat) :
    db'.projectMemberRole q v =
      if q = p ∧ v = u then (db.projectMemberRole p u).map fun _ => role
      else db.projectMemberRole q v := by
  have hfound := find?_updateWhere (q := fun pm => pm.projectId == q && pm.userId == v)
    (p := fun pm => pm.projectId == p && pm.userId == u)
    (f := fun pm => { pm with projectRole := role }) (fun _ => rfl) db.projectMembers
  rw [← hmembers] at hfound
  unfold Database.projectMemberRole
  rw [hfound]
  by_cases hsel : q = p ∧ v = u
  · obtain ⟨rfl, rfl⟩ := hsel
    rw [if_pos ⟨rfl, rfl⟩]
    cases hfind : db.projectMembers.find? fun pm => pm.projectId == q && pm.userId == v with
    | none => rfl
    | some pm =>
      have hkey := List.find?_some hfind
      simp only [Option.map_some, hkey, if_true]
  · rw [if_neg hsel]
    cases hfind : db.projectMembers.find? fun pm => pm.projectId == q && pm.userId == v with
    | none => rfl
    | some pm =>
      have hkey := List.find?_some hfind
      rw [Bool.and_eq_true, beq_iff_eq, beq_iff_eq] at hkey
      have hother : ¬ (pm.projectId == p && pm.userId == u) = true := by
        rw [Bool.and_eq_true, beq_iff_eq, beq_iff_eq, hkey.1, hkey.2]
        exact hsel
      simp only [Option.map_some, if_neg hother]

theorem projectMemberRole_append (db : Database) {p u : Nat} {role : ProjectRole}
    (hmembers : db'.projectMembers = db.projectMembers ++ [⟨p, u, role⟩])
    (hfresh : db.projectMemberRole p u = none) (q v : Nat) :
    db'.projectMemberRole q v = if q = p ∧ v = u then some role else db.projectMemberRole q v := by
  rw [Database.projectMemberRole, hmembers, List.find?_append]
  by_cases hsel : q = p ∧ v = u
  · obtain ⟨rfl, rfl⟩ := hsel
    rw [Database.projectMemberRole, Option.map_eq_none_iff] at hfresh
    simp [hfresh]
  · have hnone : [(⟨p, u, role⟩ : ProjectMember)].find?
        (fun pm => pm.projectId == q && pm.userId == v) = none := by
      rw [List.find?_singleton, if_neg]
      rw [Bool.and_eq_true, beq_iff_eq, beq_iff_eq]
      exact fun heq => hsel ⟨heq.1.symm, heq.2.symm⟩
    rw [hnone, if_neg hsel, Option.or_none]
    rfl

theorem projectMemberRole_filter {p u : Nat}
    (hmembers : db'.projectMembers =
      db.projectMembers.filter fun pm => !(pm.projectId == p && pm.userId == u)) {q v : Nat}
    (hsel : ¬ (q = p ∧ v = u)) : db'.projectMemberRole q v = db.projectMemberRole q v := by
  rw [Database.projectMemberRole, Database.projectMemberRole, hmembers, List.find?_filter]
  have hkey : (fun pm : ProjectMember =>
      decide ((!(pm.projectId == p && pm.userId == u)) = true ∧
        (pm.projectId == q && pm.userId == v) = true)) =
      fun pm => pm.projectId == q && pm.userId == v := by
    funext pm
    by_cases hk : pm.projectId = q ∧ pm.userId = v
    · obtain ⟨rfl, rfl⟩ := hk
      have hother : ¬ (pm.projectId == p && pm.userId == u) = true := by
        rw [Bool.and_eq_true, beq_iff_eq, beq_iff_eq]
        exact hsel
      simp [hother]
    · have hfalse : (pm.projectId == q && pm.userId == v) = false := by simpa using hk
      simp [hfalse]
  rw [hkey]

/-! ## One administrative operation -/

/-- What a bulk close leaves alive, and what it does not touch. -/
theorem closeWork_live {now : Int} {c : Closing} (h : closeWork now c db = .ok db') :
    (db'.users = db.users ∧ db'.projects = db.projects ∧ db'.projectMembers = db.projectMembers) ∧
      ∀ ws ∈ db'.workSessions, ws.live → ws ∈ db.workSessions ∧ c.sessions ws = false := by
  unfold closeWork at h
  split at h
  · cases h
  · cases h
    refine ⟨⟨rfl, rfl, rfl⟩, fun ws hws hlive => ?_⟩
    rcases Library.mem_updateWhere_cases hws with hold | ⟨ws0, _, _, rfl⟩
    · exact hold
    · cases hlive

theorem AccessInvariant.of_rows (h : AccessInvariant db)
    (hrows : ∀ ws ∈ db'.workSessions, ws.live → ws ∈ db.workSessions)
    (haccess : ∀ ws ∈ db'.workSessions, ws ∈ db.workSessions → ws.live →
      HasAccess db ws.userId ws.projectId → HasAccess db' ws.userId ws.projectId) :
    AccessInvariant db' := by
  intro ws hws hlive
  have hold := hrows ws hws hlive
  exact haccess ws hws hold hlive (h ws hold hlive)

theorem AccessInvariant.setUserEnabled (h : AccessInvariant db) {now : Int} {userId : Nat}
    {enabled : Bool} (hok : Dayfinch.setUserEnabled now db userId enabled = .ok db') :
    AccessInvariant db' := by
  obtain ⟨_, _, hok⟩ := bind_eq_ok.mp hok
  cases enabled with
  | true =>
    cases hok
    refine h.of_rows (fun _ hws _ => hws) fun ws _ _ _ hacc => ?_
    exact hacc.update_user (f := fun user => { user with enabled := true }) (fun _ => rfl) rfl rfl
      rfl fun _ user _ => ⟨rfl, .inl⟩
  | false =>
    obtain ⟨db1, hclose, hok⟩ := bind_eq_ok.mp hok
    obtain ⟨⟨husers, hprojects, hmembers⟩, hlive⟩ := closeWork_live hclose
    cases hok
    refine h.of_rows (fun ws hws hl => (hlive ws hws hl).1) fun ws hws _ hl hacc => ?_
    have hnot : ws.userId ≠ some userId := by
      have hsel := (hlive ws hws hl).2
      simpa [userClosing, hl] using hsel
    exact hacc.update_user (f := fun user => { user with enabled := false }) (fun _ => rfl) husers
      hprojects hmembers fun hself => absurd hself hnot

theorem AccessInvariant.setUserProfile (h : AccessInvariant db) {userId : Nat} {role : Option Role}
    {weekly : Int} {daily : Option Int}
    (hworks : role = some .member → worksWhereTracking db userId = true)
    (hok : Dayfinch.setUserProfile db userId role weekly daily = .ok db') : AccessInvariant db' := by
  unfold Dayfinch.setUserProfile at hok
  split at hok
  · cases hok
  · cases hok
  · rename_i role' hviewer
    cases hok
    refine h.of_rows (fun _ hws _ => hws) fun ws hws _ hl hacc => ?_
    refine hacc.update_user
      (f := fun user => { user with
        role := role'
        weeklyLimitMinutes := weekly.toNat
        dailyLimitMinutes := (daily.map Int.toNat).getD user.dailyLimitMinutes })
      (fun _ => rfl) rfl rfl rfl fun hself user henabled => ⟨henabled, ?_⟩
    intro hmember
    refine .inr fun p hp => ?_
    have hall := hworks (congrArg some hmember)
    rw [worksWhereTracking, List.all_eq_true] at hall
    have hws' := hall ws hws
    simpa [hl, hself, hp] using hws'

theorem AccessInvariant.setProjectEnabled (h : AccessInvariant db) {now : Int} {projectId : Nat}
    {enabled : Bool} (hok : Dayfinch.setProjectEnabled now db projectId enabled = .ok db') :
    AccessInvariant db' := by
  obtain ⟨_, _, hok⟩ := bind_eq_ok.mp hok
  cases enabled with
  | true =>
    cases hok
    refine h.of_rows (fun _ hws _ => hws) fun ws _ _ _ hacc => ?_
    exact hacc.update_project (f := fun project => { project with enabled := true }) (fun _ => rfl)
      rfl rfl rfl fun _ _ => rfl
  | false =>
    obtain ⟨db1, hclose, hok⟩ := bind_eq_ok.mp hok
    obtain ⟨⟨husers, hprojects, hmembers⟩, hlive⟩ := closeWork_live hclose
    cases hok
    refine h.of_rows (fun ws hws hl => (hlive ws hws hl).1) fun ws hws _ hl hacc => ?_
    have hnot : ws.projectId ≠ some projectId := by
      have hsel := (hlive ws hws hl).2
      simpa [projectClosing, hl] using hsel
    exact hacc.update_project (f := fun project => { project with enabled := false })
      (fun _ => rfl) hprojects husers hmembers fun hself => absurd hself hnot

/-- After a project's work of one user is closed, no live session is of both. -/
theorem projectClosing_live {now : Int} {projectId userId : Nat} {db1 : Database}
    (hclose : closeWork now (projectClosing db projectId (some userId)) db = .ok db1)
    {ws : WorkSession} (hws : ws ∈ db1.workSessions) (hlive : ws.live) :
    ¬ (ws.projectId = some projectId ∧ ws.userId = some userId) := by
  have hsel := ((closeWork_live hclose).2 ws hws hlive).2
  simpa [projectClosing, hlive] using hsel

theorem AccessInvariant.removeProjectMember (h : AccessInvariant db) {now : Int}
    {projectId userId : Nat}
    (hok : Dayfinch.removeProjectMember now db projectId userId = .ok db') :
    AccessInvariant db' := by
  obtain ⟨db1, hclose, hok⟩ := bind_eq_ok.mp hok
  obtain ⟨⟨husers, hprojects, hmembers⟩, hlive⟩ := closeWork_live hclose
  cases hok
  refine h.of_rows (fun ws hws hl => (hlive ws hws hl).1) fun ws hws _ hl hacc => ?_
  refine hacc.update_role (p := projectId) (u := userId) husers hprojects (fun q v hsel => ?_) ?_
  · refine projectMemberRole_filter ?_ hsel
    show List.filter _ db1.projectMembers = _
    rw [hmembers]
  · intro hp hu
    exact absurd ⟨hp, hu⟩ (projectClosing_live hclose hws hl)

theorem AccessInvariant.setProjectMemberRole (h : AccessInvariant db) {now : Int}
    {projectId userId : Nat} {role : Option ProjectRole}
    (hok : Dayfinch.setProjectMemberRole now db projectId userId role = .ok db') :
    AccessInvariant db' := by
  unfold Dayfinch.setProjectMemberRole at hok
  cases role with
  | none => cases hok
  | some role =>
    obtain ⟨_, hexists, hok⟩ := bind_eq_ok.mp hok
    rw [raiseIf_eq_ok] at hexists
    by_cases hviewer : role = .viewer
    · rw [if_neg (not_not.mpr hviewer)] at hok
      obtain ⟨db1, hclose, hok⟩ := bind_eq_ok.mp hok
      obtain ⟨⟨husers, hprojects, hmembers⟩, hlive⟩ := closeWork_live hclose
      cases hok
      refine h.of_rows (fun ws hws hl => (hlive ws hws hl).1) fun ws hws _ hl hacc => ?_
      refine hacc.update_role (p := projectId) (u := userId) husers hprojects (fun q v hsel => ?_) ?_
      · exact (projectMemberRole_update db hmembers q v).trans (if_neg hsel)
      · intro hp hu
        exact absurd ⟨hp, hu⟩ (projectClosing_live hclose hws hl)
    · rw [if_pos hviewer] at hok
      cases hok
      refine h.of_rows (fun _ hws _ => hws) fun ws _ _ _ hacc => ?_
      refine hacc.update_role (p := projectId) (u := userId) rfl rfl (fun q v hsel => ?_) ?_
      · exact (projectMemberRole_update db rfl q v).trans (if_neg hsel)
      · intro _ _
        right
        rw [projectMemberRole_update db rfl, if_pos ⟨rfl, rfl⟩]
        obtain ⟨old, hold⟩ := Option.ne_none_iff_exists'.mp hexists
        rw [hold]
        cases role with
        | viewer => exact absurd rfl hviewer
        | worker | manager => rfl

theorem AccessInvariant.addProjectMember (h : AccessInvariant db) {projectId userId : Nat}
    {role : Option ProjectRole}
    (hviewer : role = some .viewer → (db.getUserAny userId).all (·.role != .member) = true ∨
      liveWork db userId projectId = false)
    (hok : Dayfinch.addProjectMember db projectId userId role = .ok db') : AccessInvariant db' := by
  unfold Dayfinch.addProjectMember at hok
  cases role with
  | none => cases hok
  | some role =>
    simp only at hok
    split at hok
    · cases hok
    · rename_i hexists
      -- either statement writes the new role, and no other
      have hroles : db'.users = db.users ∧ db'.projects = db.projects ∧
          db'.workSessions = db.workSessions ∧ ∀ q v, db'.projectMemberRole q v =
            if q = projectId ∧ v = userId then some role else db.projectMemberRole q v := by
        split at hok
        · rename_i hfresh
          cases hok
          exact ⟨rfl, rfl, rfl, fun q v =>
            projectMemberRole_append db rfl (Option.isNone_iff_eq_none.mp hfresh) q v⟩
        · rename_i hold
          cases hok
          refine ⟨rfl, rfl, rfl, fun q v => ?_⟩
          rw [projectMemberRole_update db rfl]
          obtain ⟨old, hold⟩ := Option.ne_none_iff_exists'.mp (by simpa using hold)
          rw [hold]
          rfl
      obtain ⟨husers, hprojects, hsessions, hrole⟩ := hroles
      refine h.of_rows (fun ws hws _ => hsessions ▸ hws) fun ws _ hws hl hacc => ?_
      refine hacc.update_role (p := projectId) (u := userId) husers hprojects (fun q v hsel => ?_) ?_
      · rw [hrole, if_neg hsel]
      · intro hp hu
        rw [hrole, if_pos ⟨rfl, rfl⟩]
        cases role with
        | worker | manager => exact .inr rfl
        | viewer =>
          left
          rcases hviewer rfl with hnot | hnone
          · obtain ⟨user, _, huser, _⟩ := hacc
            rw [hu] at huser
            have hget : db.getUserAny userId = some user := huser
            rw [hget] at hnot
            exact ⟨user, hget, by simpa using hnot⟩
          · rw [liveWork, List.any_eq_false] at hnone
            exact absurd (by simp [hl, hp, hu]) (hnone ws hws)

end

/-! ## One heartbeat -/

section

variable {now : Int} {previous : Option AgentStateEvent} {observed : Int} {db db' : Database}
  {call : SyncCall} {adm : Admission}

/-- A heartbeat does not write the tables that access reads. -/
theorem Accepted.tables (hacc : Accepted now previous observed db call adm db') :
    db'.users = db.users ∧ db'.projects = db.projects ∧ db'.projectMembers = db.projectMembers := by
  rw [hacc.frame]
  exact ⟨rfl, rfl, rfl⟩

/-- The live sessions after a heartbeat: those from before, and one it may have opened. -/
theorem Accepted.live (hacc : Accepted now previous observed db call adm db') (hkeyed : Keyed db)
    {ws' : WorkSession} (hws' : ws' ∈ db'.workSessions) (hlive : ws'.live) :
    (∃ ws ∈ db.workSessions, ws.live ∧ ws.userId = ws'.userId ∧ ws.projectId = ws'.projectId) ∨
      (adm.status ≠ .stopped ∧ keptSession previous observed db call adm = none ∧
        ws'.userId = call.device.ownerUserId ∧ ws'.projectId = adm.projectId) := by
  obtain ⟨mid, written, sessionId, hends, _, houtcome, _, hdb'⟩ := hacc
  have hwritten : ws' ∈ written.workSessions := by
    rw [hdb'] at hws'
    exact hws'
  have hold : ws' ∈ mid.workSessions →
      ∃ ws ∈ db.workSessions, ws.live ∧ ws.userId = ws'.userId ∧ ws.projectId = ws'.projectId := by
    intro hmid
    obtain ⟨ws, hws, hl, hfixed⟩ := hends.live hkeyed ws' hmid hlive
    exact ⟨ws, hws, hl, (congrArg WorkSession.userId hfixed :),
      (congrArg WorkSession.projectId hfixed :)⟩
  cases houtcome with
  | stayed => exact .inl (hold hwritten)
  | opened row hrow hstatus _ hnone db1 hdb1 =>
    have hmem : ws' ∈ mid.workSessions ++ [row] := by
      rw [hdb1] at hwritten
      split at hwritten <;> exact hwritten
    rcases List.mem_append.mp hmem with hmid | hnew
    · exact .inl (hold hmid)
    · obtain rfl := List.mem_singleton.mp hnew
      refine .inr ⟨hstatus, ?_, by rw [hrow]; rfl, by rw [hrow]; rfl⟩
      cases hk : keptSession previous observed db call adm with
      | none => rfl
      | some session => exact absurd (keptSession_eq_some.mp hk) (hnone session)
  | resumed => exact .inl (hold hwritten)

/-- A heartbeat whose new session has access keeps the invariant. -/
theorem Accepted.access (hacc : Accepted now previous observed db call adm db') (hkeyed : Keyed db)
    (h : AccessInvariant db) (hopens : opensWithAccess previous observed db call adm = true) :
    AccessInvariant db' := by
  obtain ⟨husers, hprojects, hmembers⟩ := hacc.tables
  intro ws' hws' hlive
  refine HasAccess.of_tables ?_ husers hprojects hmembers
  rcases hacc.live hkeyed hws' hlive with ⟨ws, hws, hl, huser, hproject⟩ |
    ⟨hstatus, hnone, huser, hproject⟩
  · rw [← huser, ← hproject]
    exact h ws hws hl
  · rw [huser, hproject, ← accessGranted_iff]
    simpa [opensWithAccess, hstatus, hnone] using hopens

/-- The transaction of a heartbeat, with the condition on it. -/
theorem syncTransaction_access {tie : AgentStateEvent → Nat} {r : Database × Option WorkSession}
    (hkeyed : Keyed db) (h : AccessInvariant db)
    (hopens : let previous := previousReceipt tie db call
      let observed := clampToPrevious previous adm.observed
      letThrough db call adm observed = true → opensWithAccess previous observed db call adm = true)
    (hok : syncTransaction tie now db call adm = .ok r) : AccessInvariant r.1 := by
  rcases syncTransaction_effect hok with hsame | ⟨hdup, hpolicy, haccept⟩
  · rw [hsame]
    exact h
  · exact (acceptEvent_effect haccept).access hkeyed h
      (hopens (letThrough_of_accepted hdup hpolicy haccept))

end

/-! ## Steps and runs -/

theorem accessStep_storeInvariant {s : Inflight} (h : StoreInvariant s.db) (op : AccessOp) :
    StoreInvariant (accessStep s op).db := by
  cases op with
  | check now call =>
    simp only [accessStep]
    split <;> exact h
  | transact tie now index =>
    simp only [accessStep]
    split
    · exact h
    · rename_i call adm _
      cases hok : syncTransaction tie now s.db call adm with
      | error e => exact h
      | ok r => exact h.syncTransaction tie now call adm r hok
  | _ => exact h.step _

/-- An administrative operation that succeeds and meets the condition keeps access. -/
theorem workOp_access {s : Inflight} (h : AccessInvariant s.db) {op : AccessOp} {workOp : WorkOp}
    (hop : op.workOp = some workOp) (hguard : keepsAccess s op = true) :
    AccessInvariant (step s.db workOp) := by
  refine step_preserves h fun db' hok => ?_
  cases op with
  | check now call => cases hop
  | transact tie now index => cases hop
  | addProjectMember projectId userId role =>
    cases hop
    refine h.addProjectMember (fun hviewer => ?_) hok
    rw [hviewer, keepsAccess, Bool.or_eq_true, Bool.not_eq_true'] at hguard
    exact hguard
  | removeProjectMember now projectId userId =>
    cases hop
    exact h.removeProjectMember hok
  | setProjectEnabled now projectId enabled =>
    cases hop
    exact h.setProjectEnabled hok
  | setProjectMemberRole now projectId userId role =>
    cases hop
    exact h.setProjectMemberRole hok
  | setUserEnabled now userId enabled =>
    cases hop
    exact h.setUserEnabled hok
  | setUserProfile userId role weekly daily =>
    cases hop
    refine h.setUserProfile (fun hmember => ?_) hok
    rw [hmember] at hguard
    exact hguard

theorem accessInvariant_withoutWork (db : Database) : AccessInvariant db.withoutWork := by
  intro ws hws
  cases hws

theorem accessStep_access {s : Inflight} (hinv : StoreInvariant s.db) (h : AccessInvariant s.db)
    {op : AccessOp} (hguard : keepsAccess s op = true) : AccessInvariant (accessStep s op).db := by
  cases op with
  | check now call =>
    simp only [accessStep]
    split <;> exact h
  | transact tie now index =>
    cases hadmitted : s.admitted[index]? with
    | none =>
      rw [accessStep, hadmitted]
      exact h
    | some heartbeat =>
      obtain ⟨call, adm⟩ := heartbeat
      simp only [keepsAccess, hadmitted, Bool.or_eq_true, Bool.not_eq_true'] at hguard
      simp only [accessStep, hadmitted]
      cases hok : syncTransaction tie now s.db call adm with
      | error e => exact h
      | ok r =>
        refine syncTransaction_access hinv.toKeyed h (fun hthrough => ?_) hok
        rcases hguard with hnot | hopens
        · exact absurd hthrough (by simp [hnot])
        · exact hopens
  | _ => exact workOp_access h rfl hguard

/-- **Live sessions keep access.** In every run whose steps all meet `keepsAccess`, every live
session belongs to an enabled user and an enabled project, in which a plain member may track. -/
theorem liveSessions_haveAccess (db : Database) (ops : List AccessOp)
    (hops : Guarded accessStep (fun s op => keepsAccess s op = true) ⟨db.withoutWork, []⟩ ops) :
    AccessInvariant (run accessStep ⟨db.withoutWork, []⟩ ops).db := by
  have h := guarded_invariant (fun s => StoreInvariant s.db ∧ AccessInvariant s.db)
    (fun s op h hguard => ⟨accessStep_storeInvariant h.1 op, accessStep_access h.1 h.2 hguard⟩)
    ⟨storeInvariant_withoutWork db, accessInvariant_withoutWork db⟩ hops
  exact h.2

/-- The heartbeat of a laptop that starts tracking, in its two steps. -/
def startTracking : List AccessOp :=
  [.check (minutes 600) (pressed laptop 1 .active (minutes 600)),
   .transact (fun _ => 0) (minutes 600) 0]

/-- The member is disabled while tracking, and later enabled again. -/
theorem liveSessions_haveAccess_office :
    AccessInvariant (run accessStep ⟨office.withoutWork, []⟩
      (startTracking ++ [.setUserEnabled (minutes 601) 1 false, .setUserEnabled (minutes 602) 1 true])).db :=
  liveSessions_haveAccess office _ (by decide +kernel)

/-- `add_project_member` makes a tracking member a viewer of the project, and the session lives on. -/
theorem viewer_stillTracking :
    ¬ ∀ (db : Database) (ops : List AccessOp),
      AccessInvariant (run accessStep ⟨db.withoutWork, []⟩ ops).db := by
  intro h
  have hviewer := h office (startTracking ++ [.addProjectMember 1 1 (some .viewer)])
  rw [AccessInvariant] at hviewer
  simp only [← accessGranted_iff] at hviewer
  exact absurd hviewer (by decide +kernel)

end Dayfinch
