/-
# Dayfinch.Accounts.ScimFrame -- what a PATCH of a SCIM group leaves alone

`patch_group` folds the operations over the members that the group shows, and writes the whole list back: the
rows of `team_members` and of `team_leads` are deleted and only the members are inserted again. The group does
not show members who are disabled. So a request that says nothing of a user leaves him alone exactly where
the group shows him, if it has him, and where he leads nobody in it.

`ScimGroups` has the handler and the tables of groups; here the leads join them, and one request runs alone.
-/
import Dayfinch.Accounts.ScimGroups

namespace Dayfinch

open Library (bind_eq_ok)

/-! ## Tables -/

/-- `team_leads`. -/
structure TeamLead where
  teamId : String
  userId : String
  approveTimesheets : Bool
  approveManualTime : Bool
  approveTimeOff : Bool
  manageSchedules : Bool
  manageProjects : Bool
  manageMembers : Bool
  manageFinancials : Bool
  deriving DecidableEq, Repr

/-- The tables of groups, with those who lead them. -/
structure ScimGroupTables where
  store : ScimStore
  leads : List TeamLead
  deriving DecidableEq, Repr

/-- The rows of `team_members` of a group, also of members whom the group does not show. -/
def ScimStore.memberRows (s : ScimStore) (teamId : String) : List String :=
  ((s.teams.find? (·.isGroup teamId)).map (·.members)).getD []

/-- What a user may do as a lead of the group. -/
def ScimGroupTables.leadsOf (t : ScimGroupTables) (teamId userId : String) : List TeamLead :=
  t.leads.filter fun lead => lead.teamId == teamId && lead.userId == userId

/-! ## The handler -/

/-- `PATCH_SCHEMA`. -/
def patchSchema : String := "urn:ietf:params:scim:api:messages:2.0:PatchOp"

/-- `patch_group`; `_replace_scim_group_members` also deletes the leads of the group. -/
def patchScimGroup (rank : ScimUser → Nat) (t : ScimGroupTables) (schemas : List String) (request : ScimRequest) :
    Except ScimError ScimGroupTables :=
  if patchSchema ∉ schemas then .error ⟨400, "The SCIM PatchOp schema is required", some "invalidSyntax"⟩
  else
    match t.store.getScimGroup rank request.teamId with
    | none => .error ⟨404, "SCIM group not found", none⟩
    | some memberIds => do
      let store ← patchGroup t.store request memberIds
      return ⟨store, t.leads.filter (·.teamId != request.teamId)⟩

/-- The tables after the request; one that is rejected is rolled back. -/
def ScimGroupTables.patched (rank : ScimUser → Nat) (t : ScimGroupTables) (schemas : List String)
    (request : ScimRequest) : ScimGroupTables :=
  match patchScimGroup rank t schemas request with
  | .ok t' => t'
  | .error _ => t

/-! ## The property -/

/-- **The request changes only what it names**: of the users named by its operations the members are the fold
of the operations, every other user stays a member or none and leads as before, and so does everybody in the
other groups. -/
structure ChangesOnlyNamed (t t' : ScimGroupTables) (request : ScimRequest) : Prop where
  named : ∀ id, request.decision? id ≠ none →
    (id ∈ t'.store.memberRows request.teamId ↔ id ∈ request.applyTo (t.store.memberRows request.teamId))
  others : ∀ id, request.decision? id = none →
    (id ∈ t'.store.memberRows request.teamId ↔ id ∈ t.store.memberRows request.teamId) ∧
      t'.leadsOf request.teamId id = t.leadsOf request.teamId id
  elsewhere : ∀ teamId, teamId ≠ request.teamId → ∀ id,
    (id ∈ t'.store.memberRows teamId ↔ id ∈ t.store.memberRows teamId) ∧ t'.leadsOf teamId id = t.leadsOf teamId id
  users : t'.store.users = t.store.users

/-- A user whom the operations do not name is enabled, if he is a member, and does not lead the group. -/
def LeavesAlone (t : ScimGroupTables) (request : ScimRequest) : Prop :=
  ∀ id, request.decision? id = none →
    (id ∈ t.store.memberRows request.teamId → ∃ u ∈ t.store.users, u.id = id ∧ u.enabled = true) ∧
      t.leadsOf request.teamId id = []

/-! ## What a request writes -/

section

variable {rank : ScimUser → Nat} {s store : ScimStore} {request : ScimRequest} {memberIds : List String}

/-- **An update writes the list it is given**, without repetitions, to its group. -/
theorem updateScimGroup_ok {teamId : String} {name externalId : Option String}
    (h : s.updateScimGroup teamId name externalId memberIds = .ok store) :
    store.users = s.users ∧ store.memberRows teamId = memberIds.eraseDups ∧
      ∀ teamId', teamId' ≠ teamId → store.memberRows teamId' = s.memberRows teamId' := by
  unfold ScimStore.updateScimGroup at h
  dsimp only at h
  split at h
  · cases h
  rename_i hgroup
  split at h
  · cases h
  split at h
  · cases h
  obtain rfl := Except.ok.inj h
  refine ⟨rfl, ?_, fun teamId' hne => ?_⟩
  · obtain ⟨team, hteam⟩ : ∃ team, s.teams.find? (·.isGroup teamId) = some team := by
      rw [Bool.not_eq_false, List.any_eq_true] at hgroup
      exact Option.isSome_iff_exists.mp (List.find?_isSome.mpr hgroup)
    have hselected := List.find?_some hteam
    have hrenamed : ∀ name externalId : String,
        ({ team with name, externalId } : ScimTeam).isGroup teamId = true := fun _ _ => hselected
    unfold ScimStore.memberRows
    rw [find?_group, find?_group]
    · simp [hteam, hselected, hrenamed]
    · exact fun _ _ => rfl
    · exact fun _ _ => rfl
  · unfold ScimStore.memberRows
    rw [find?_group, find?_group]
    · cases hfind : s.teams.find? (·.isGroup teamId') with
      | none => rfl
      | some team =>
        have hteam := List.find?_some hfind
        have hother : team.isGroup teamId = false := by
          unfold ScimTeam.isGroup at hteam ⊢
          rw [Bool.and_eq_true, beq_iff_eq] at hteam
          rw [hteam.1, beq_false_of_ne hne, Bool.false_and]
        simp [hother]
    · exact fun _ _ => rfl
    · exact fun _ _ => rfl

/-- What is accepted of a request: the members are what its operations make of the list that was read. -/
theorem patchGroup_members (h : patchGroup s request memberIds = .ok store) :
    store.users = s.users ∧ request.valid ∧
      (∀ id, id ∈ store.memberRows request.teamId ↔
        (request.decision? id).getD (decide (id ∈ memberIds)) = true) ∧
      ∀ teamId, teamId ≠ request.teamId → store.memberRows teamId = s.memberRows teamId := by
  obtain ⟨patch, hpatch, h⟩ := bind_eq_ok.mp h
  split at h
  · rename_i store' hupdate
    obtain rfl := Except.ok.inj h
    obtain ⟨husers, hmembers, hothers⟩ := updateScimGroup_ok hupdate
    refine ⟨husers, ScimRequest.valid_of_ok hpatch [], fun id => ?_, hothers⟩
    rw [hmembers, List.mem_eraseDups]
    exact mem_applyOperations hpatch id
  · cases h
  · cases h

end

/-- The group shows the members who are enabled. -/
theorem mem_membersOf_iff_rows {rank : ScimUser → Nat} {s : ScimStore} {teamId id : String} :
    id ∈ s.membersOf rank teamId ↔
      id ∈ s.memberRows teamId ∧ ∃ u ∈ s.users, u.id = id ∧ u.enabled = true := by
  rw [mem_membersOf]
  unfold ScimStore.memberRows
  cases s.teams.find? (·.isGroup teamId) with
  | none => simp
  | some team => simp

section

variable {rank : ScimUser → Nat} {t t' : ScimGroupTables} {schemas : List String} {request : ScimRequest}

/-- **What an accepted request leaves**: the operations decide the users they name, the others are members if
the group has shown them, and nobody leads the group. -/
theorem patchScimGroup_ok (h : patchScimGroup rank t schemas request = .ok t') :
    t'.store.users = t.store.users ∧ request.valid ∧
      (∀ id, id ∈ t'.store.memberRows request.teamId ↔
        (request.decision? id).getD (decide (id ∈ t.store.membersOf rank request.teamId)) = true) ∧
      (∀ teamId, teamId ≠ request.teamId → t'.store.memberRows teamId = t.store.memberRows teamId) ∧
      t'.leads = t.leads.filter (·.teamId != request.teamId) := by
  unfold patchScimGroup at h
  split at h
  · cases h
  split at h
  · cases h
  rename_i memberIds hread
  obtain ⟨store, hpatch, h⟩ := bind_eq_ok.mp h
  obtain rfl := Except.ok.inj h
  obtain ⟨husers, hvalid, hmembers, hothers⟩ := patchGroup_members hpatch
  have hview : t.store.membersOf rank request.teamId = memberIds := by
    unfold ScimStore.membersOf
    rw [hread]
    rfl
  exact ⟨husers, hvalid, fun id => by rw [hview]; exact hmembers id, hothers, rfl⟩

theorem leadsOf_self {id : String} (hleads : t'.leads = t.leads.filter (·.teamId != request.teamId)) :
    t'.leadsOf request.teamId id = [] := by
  unfold ScimGroupTables.leadsOf
  rw [hleads, List.filter_filter]
  refine List.filter_eq_nil_iff.mpr fun lead _ => ?_
  by_cases hteam : lead.teamId = request.teamId <;> simp [hteam]

theorem leadsOf_other {teamId id : String} (hne : teamId ≠ request.teamId)
    (hleads : t'.leads = t.leads.filter (·.teamId != request.teamId)) :
    t'.leadsOf teamId id = t.leadsOf teamId id := by
  unfold ScimGroupTables.leadsOf
  rw [hleads, List.filter_filter]
  refine List.filter_congr fun lead _ => ?_
  by_cases hteam : lead.teamId = teamId
  · simp [hteam, hne]
  · simp [hteam]

/-- An accepted request changes only what it names exactly where it leaves the others alone. -/
theorem changesOnlyNamed_iff (h : patchScimGroup rank t schemas request = .ok t') :
    ChangesOnlyNamed t t' request ↔ LeavesAlone t request := by
  obtain ⟨husers, hvalid, hmembers, hothers, hleads⟩ := patchScimGroup_ok h
  -- a user who is not named stays a member exactly if the group shows him
  have hkept : ∀ id, request.decision? id = none →
      (id ∈ t'.store.memberRows request.teamId ↔
        id ∈ t.store.memberRows request.teamId ∧ ∃ u ∈ t.store.users, u.id = id ∧ u.enabled = true) := by
    intro id hnone
    have hshown : id ∈ t.store.membersOf rank request.teamId ↔ _ := mem_membersOf_iff_rows
    rw [hmembers id, hnone, ← hshown]
    simp
  constructor
  · intro honly id hnone
    obtain ⟨hmember, hlead⟩ := honly.others id hnone
    exact ⟨fun hid => ((hkept id hnone).mp (hmember.mpr hid)).2, by rw [← hlead, leadsOf_self hleads]⟩
  · intro halone
    refine ⟨fun id hnamed => ?_, fun id hnone => ⟨?_, ?_⟩, fun teamId hne id => ⟨?_, leadsOf_other hne hleads⟩, husers⟩
    · obtain ⟨decision, hdecision⟩ := Option.ne_none_iff_exists'.mp hnamed
      rw [hmembers id, mem_applyTo hvalid, hdecision]
      simp
    · rw [hkept id hnone]
      exact ⟨fun hid => hid.1, fun hid => ⟨hid, (halone id hnone).1 hid⟩⟩
    · rw [leadsOf_self hleads, (halone id hnone).2]
    · rw [hothers teamId hne]

/-- **A PATCH changes only what it names**: one that is rejected changes nothing, and one that is accepted
does exactly where the users it does not name are enabled, if they are members, and do not lead the group. -/
theorem patched_iff (rank : ScimUser → Nat) (t : ScimGroupTables) (schemas : List String) (request : ScimRequest) :
    (∀ e, patchScimGroup rank t schemas request = .error e → t.patched rank schemas request = t) ∧
      ∀ t', patchScimGroup rank t schemas request = .ok t' →
        (ChangesOnlyNamed t (t.patched rank schemas request) request ↔ LeavesAlone t request) := by
  refine ⟨fun e h => ?_, fun t' h => ?_⟩
  · unfold ScimGroupTables.patched
    rw [h]
  · have hpatched : t.patched rank schemas request = t' := by
      unfold ScimGroupTables.patched
      rw [h]
    rw [hpatched]
    exact changesOnlyNamed_iff h

end

/-- A group of three members, of whom one is disabled and one leads it. -/
def ledGroup : ScimGroupTables where
  store := {
    users := [⟨"u1", .member, true⟩, ⟨"u2", .member, false⟩, ⟨"u3", .member, true⟩]
    teams := [⟨"t", "Research", "", true, ["u1", "u2", "u3"]⟩] }
  leads := [⟨"t", "u1", true, true, true, true, false, false, false⟩]

/-- A request that names the group anew. -/
def renameGroup : ScimRequest := ⟨"t", [some ⟨"replace", "displayName", .other "Laboratory"⟩]⟩

/-- A request that removes the lead and the disabled member. -/
def removeBoth : ScimRequest :=
  ⟨"t", [some ⟨"remove", "members", .array [some "u1", some "u2"] ""⟩]⟩

theorem patched_iff_removed :
    ChangesOnlyNamed ledGroup (ledGroup.patched (fun _ => 0) [patchSchema] removeBoth) removeBoth ↔
      LeavesAlone ledGroup removeBoth :=
  (patched_iff (fun _ => 0) ledGroup [patchSchema] removeBoth).2
    ⟨{ users := [⟨"u1", .member, true⟩, ⟨"u2", .member, false⟩, ⟨"u3", .member, true⟩]
       teams := [⟨"t", "Research", "", true, ["u3"]⟩] }, []⟩ (by decide +kernel)

/-- **A new name costs memberships**: the request is accepted, and afterwards the disabled member is no
member any more and the lead leads nobody. -/
theorem renamed_group_fails :
    ¬ ChangesOnlyNamed ledGroup (ledGroup.patched (fun _ => 0) [patchSchema] renameGroup) renameGroup := by
  intro h
  have hmember := (h.others "u2" (by decide +kernel)).1.mpr (by decide +kernel)
  exact absurd hmember (by decide +kernel)

end Dayfinch
