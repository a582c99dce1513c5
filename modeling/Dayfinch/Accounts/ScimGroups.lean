/-
# Dayfinch.Accounts.ScimGroups -- concurrent changes of a SCIM group

A PATCH request reads the members of its group, folds its operations over the list, and writes the whole
list back in a transaction of its own. `readsCurrent` is the condition that between the two no other request
has changed the membership of a user whom the operations leave alone; in runs that meet it the membership is
what the accepted requests make of it one after the other (`ScimGroupInvariant`).

An operation says of a user that he is a member, that he is not, or nothing: `ScimOperation.decision?`. What a
list of operations makes of a list of members is read off the last decision on each user, which is all that
the proofs use of the fold.

A JSON value is given by what the handler reads of it. `rank` is the order of the members in the answer,
by PostgreSQL's `lower(email)`.
-/
import Dayfinch.Library.Run
import Dayfinch.Library.Text
import Dayfinch.Schema
import Mathlib.Data.List.Permutation

namespace Dayfinch

open Library (updateWhere orderBy run Guarded guarded_invariant bind_eq_ok)
open Library.Text (lower strip truncate isSpace)

/-! ## Tables -/

/-- `users`, as the groups refer to them. -/
structure ScimUser where
  id : String
  role : Role
  enabled : Bool
  deriving DecidableEq, Repr

/-- `teams`, each with its `team_members`. -/
structure ScimTeam where
  id : String
  name : String
  externalId : String
  scimManaged : Bool
  members : List String
  deriving DecidableEq, Repr

/-- The tables. -/
structure ScimStore where
  users : List ScimUser
  teams : List ScimTeam
  deriving DecidableEq, Repr

/-- `WHERE id=.. AND scim_managed=TRUE`. -/
def ScimTeam.isGroup (team : ScimTeam) (teamId : String) : Bool := team.id == teamId && team.scimManaged

/-- How `update_scim_group` fails. -/
inductive ScimUpdateError
  | lookupError (message : String)
  | valueError (message : String)
  deriving DecidableEq, Repr

namespace ScimStore

/-- `get_scim_group`: the members, if there is the group. -/
def getScimGroup (rank : ScimUser → Nat) (s : ScimStore) (teamId : String) : Option (List String) :=
  (s.teams.find? (·.isGroup teamId)).map fun team =>
    (orderBy rank (fun _ => 0)
      (s.users.filter fun u => team.members.contains u.id && u.enabled)).map (·.id)

/-- `{row["id"] for row in rows} == set(unique_ids)`: every one is an active member account. -/
def areProvisioned (s : ScimStore) (uniqueIds : List String) : Bool :=
  uniqueIds.all fun id => s.users.any fun u => u.id == id && u.role == .member && u.enabled

/-- `UNIQUE(name)` and `uq_teams_scim_external_id`. -/
def namesTaken (teams : List ScimTeam) : Bool :=
  !decide (teams.map (·.name)).Nodup ||
    !decide ((teams.filter fun t => t.externalId != "").map (·.externalId)).Nodup

/-- `update_scim_group`, with a list of members. -/
def updateScimGroup (s : ScimStore) (teamId : String) (name externalId : Option String)
    (memberIds : List String) : Except ScimUpdateError ScimStore :=
  let renamed := updateWhere (·.isGroup teamId)
    (fun team => { team with
      name := (name.map fun n => truncate 120 (strip n)).getD team.name
      externalId := (externalId.map (truncate 512)).getD team.externalId }) s.teams
  let uniqueIds := memberIds.eraseDups
  if s.teams.any (·.isGroup teamId) = false then .error (.lookupError "SCIM group not found")
  else if namesTaken renamed then
    .error (.valueError "A group with that name or externalId already exists")
  else if s.areProvisioned uniqueIds = false then
    .error (.valueError "Every group member must be an active provisioned user")
  else .ok { s with
    teams := updateWhere (·.isGroup teamId) (fun team => { team with members := uniqueIds }) renamed }

end ScimStore

/-! ## Operations -/

/-- A JSON value: null, an array, or another one. `text` is `str(value)`; an item of an array is
`str(member.get("value", ""))`, or `none` where it is not an object. -/
inductive ScimValue
  | null
  | array (items : List (Option String)) (text : String)
  | other (text : String)
  deriving DecidableEq, Repr

/-- `str(value)`. -/
def ScimValue.text : ScimValue → String
  | .null => "None"
  | .array _ text => text
  | .other text => text

/-- An operation of a PATCH request, with its fields as text. -/
structure ScimOperation where
  op : String
  path : String
  value : ScimValue
  deriving DecidableEq, Repr

/-- A SCIM error response. -/
structure ScimError where
  status : Nat
  detail : String
  scimType : Option String
  deriving DecidableEq, Repr

/-- `_member_ids`. -/
def scimMemberIds : ScimValue → Except ScimError (List String)
  | .null => .ok []
  | .array items _ => items.mapM fun item =>
    match item with
    | some value =>
      if strip value = "" then .error ⟨400, "Every member requires a value", some "invalidValue"⟩
      else .ok (strip value)
    | none => .error ⟨400, "Every member requires a value", some "invalidValue"⟩
  | .other _ => .error ⟨400, "members must be an array", some "invalidValue"⟩

/-- Two characters, one of them in lower case, that `re.IGNORECASE` does not tell apart. -/
def sameIgnoringCase (c pattern : Char) : Bool :=
  c.toLower == pattern || (pattern == 's' && c.toNat == 0x17f)

/-- The rest of a text that begins with these characters, whatever their case. -/
def afterIgnoringCase : List Char → List Char → Option (List Char)
  | [], rest => some rest
  | p :: pattern, c :: rest => if sameIgnoringCase c p then afterIgnoringCase pattern rest else none
  | _ :: _, [] => none

/-- The rest after one blank or more. -/
def afterBlanks : List Char → Option (List Char)
  | c :: rest => if isSpace c then some (rest.dropWhile isSpace) else none
  | [] => none

/-- `members\[value\s+eq\s+"([^"]+)"\]`: the quoted text. -/
def memberOfPath (path : String) : Option String := do
  let rest ← afterIgnoringCase "members[value".toList path.toList
  let rest ← afterBlanks rest
  let rest ← afterIgnoringCase "eq".toList rest
  let rest ← afterBlanks rest
  let rest ← afterIgnoringCase ['"'] rest
  let value := rest.takeWhile (· != '"')
  if value ≠ [] ∧ rest.dropWhile (· != '"') = ['"', ']'] then some (String.ofList value) else none

/-- What the operations have made of the group so far. -/
structure ScimPatch where
  memberIds : List String
  name : Option String := none
  externalId : Option String := none
  deriving DecidableEq, Repr

/-- An operation on `members`. -/
def patchMembers (action : String) (memberIds values : List String) : List String :=
  if action = "replace" then values
  else if action = "add" then (memberIds ++ values).eraseDups
  else memberIds.filter fun item => !values.contains item

/-- One operation; `none` is an item that is not an object. -/
def applyOperation (patch : ScimPatch) : Option ScimOperation → Except ScimError ScimPatch
  | none => .error ⟨400, "PATCH operation is invalid", some "invalidSyntax"⟩
  | some operation =>
    let action := lower operation.op
    let unsupported : ScimError :=
      ⟨400, "Unsupported PATCH path: " ++ operation.path, some "invalidPath"⟩
    if action = "replace" ∧ lower operation.path = "displayname" then
      if strip operation.value.text = "" then
        .error ⟨400, "displayName is required", some "invalidValue"⟩
      else .ok { patch with name := some (strip operation.value.text) }
    else if action = "replace" ∧ lower operation.path = "externalid" then
      .ok { patch with externalId := some operation.value.text }
    else if lower operation.path = "members" ∧ (action = "add" ∨ action = "replace" ∨ action = "remove") then
      (scimMemberIds operation.value).map fun values =>
        { patch with memberIds := patchMembers action patch.memberIds values }
    else if action = "remove" then
      match memberOfPath operation.path with
      | some member => .ok { patch with memberIds := patch.memberIds.filter (· != member) }
      | none => .error unsupported
    else .error unsupported

/-- `Operations`: the fold over a list of members. -/
def applyOperations (memberIds : List String) (operations : List (Option ScimOperation)) :
    Except ScimError ScimPatch :=
  if operations = [] then .error ⟨400, "Operations must be a non-empty array", some "invalidSyntax"⟩
  else operations.foldlM applyOperation { memberIds }

/-- A PATCH request on a group. -/
structure ScimRequest where
  teamId : String
  operations : List (Option ScimOperation)
  deriving DecidableEq, Repr

/-- `patch_group` after it has read the group: the store, if the request is accepted. -/
def patchGroup (s : ScimStore) (request : ScimRequest) (memberIds : List String) :
    Except ScimError ScimStore := do
  let patch ← applyOperations memberIds request.operations
  match s.updateScimGroup request.teamId patch.name patch.externalId patch.memberIds with
  | .ok store => .ok store
  | .error (.lookupError message) => .error ⟨404, message, none⟩
  | .error (.valueError message) => .error ⟨400, message, some "invalidValue"⟩

/-! ## Workers -/

/-- The tables, what each worker has read, and the requests that were accepted, in the order of their
writes. -/
structure ScimGroupState where
  store : ScimStore
  workers : Nat → Option (ScimRequest × List String) := fun _ => none
  accepted : List ScimRequest := []

/-- A worker reads the group of a request, writes it back, or dies. -/
inductive ScimGroupOp
  | read (worker : Nat) (request : ScimRequest)
  | write (worker : Nat)
  | die (worker : Nat)
  deriving DecidableEq, Repr

/-- What a worker has read. -/
def ScimGroupState.setWorker (s : ScimGroupState) (worker : Nat)
    (read : Option (ScimRequest × List String)) : ScimGroupState :=
  { s with workers := fun w => if w = worker then read else s.workers w }

/-- One step. -/
def scimGroupStep (rank : ScimUser → Nat) (s : ScimGroupState) : ScimGroupOp → ScimGroupState
  | .read worker request =>
    s.setWorker worker ((s.store.getScimGroup rank request.teamId).map (request, ·))
  | .write worker =>
    match s.workers worker with
    | none => s
    | some (request, memberIds) =>
      match patchGroup s.store request memberIds with
      | .ok store => { s with store, accepted := s.accepted ++ [request] }.setWorker worker none
      | .error _ => s.setWorker worker none
  | .die worker => s.setWorker worker none

/-! ## The property -/

/-- The members of a group, as it is read. -/
def ScimStore.membersOf (rank : ScimUser → Nat) (s : ScimStore) (teamId : String) : List String :=
  (s.getScimGroup rank teamId).getD []

/-- What the operations of a request make of the members of its group. -/
def ScimRequest.applyTo (request : ScimRequest) (memberIds : List String) : List String :=
  match applyOperations memberIds request.operations with
  | .ok patch => patch.memberIds
  | .error _ => memberIds

/-- **The changes of a group are serial**: its members are what the accepted requests make of the members it
had, in some order. -/
def SerialChanges (rank : ScimUser → Nat) (before after : ScimGroupState) (teamId : String) : Prop :=
  ∃ order : List ScimRequest, order.Perm (after.accepted.filter (·.teamId == teamId)) ∧
    ∀ id, id ∈ after.store.membersOf rank teamId ↔
      id ∈ order.foldl (fun members request => request.applyTo members)
        (before.store.membersOf rank teamId)

/-! ## The condition -/

/-- What an operation says of a user: a member, not a member, or nothing. -/
def ScimOperation.decision? (operation : ScimOperation) (id : String) : Option Bool :=
  let action := lower operation.op
  if action = "replace" ∧ (lower operation.path = "displayname" ∨ lower operation.path = "externalid") then
    none
  else if lower operation.path = "members" then
    let named := ((scimMemberIds operation.value).toOption.getD []).contains id
    if action = "replace" then some named
    else if named then some (action = "add") else none
  else if memberOfPath operation.path = some id then some false
  else none

/-- What the last operation that says something of a user says. -/
def ScimRequest.decision? (request : ScimRequest) (id : String) : Option Bool :=
  request.operations.foldl (fun decided operation => (operation.bind (·.decision? id)).or decided) none

/-- When a request is written, the users whose membership has changed since it has read the group are named
by its operations, or its operations replace the list. -/
def ScimGroupOp.readsCurrent (rank : ScimUser → Nat) (s : ScimGroupState) : ScimGroupOp → Bool
  | .write worker =>
    (s.workers worker).all fun (request, memberIds) =>
      let current := s.store.membersOf rank request.teamId
      (memberIds ++ current).all fun id =>
        memberIds.contains id == current.contains id || (request.decision? id).isSome
  | _ => true

/-! ## What operations decide -/

/-- **An operation decides** some members and leaves the others. -/
theorem mem_applyOperation {patch patch' : ScimPatch} {operation : Option ScimOperation}
    (h : applyOperation patch operation = .ok patch') (id : String) :
    id ∈ patch'.memberIds ↔
      (operation.bind (·.decision? id)).getD (decide (id ∈ patch.memberIds)) = true := by
  unfold applyOperation at h
  split at h
  · cases h
  · rename_i operation
    show _ ↔ (operation.decision? id).getD _ = true
    unfold ScimOperation.decision?
    dsimp only at h ⊢
    split at h
    · -- the name
      rename_i hname
      split at h
      · cases h
      · obtain rfl := Except.ok.inj h
        rw [if_pos ⟨hname.1, .inl hname.2⟩]
        simp
    · rename_i hname
      split at h
      · -- the external identifier
        rename_i hexternal
        obtain rfl := Except.ok.inj h
        rw [if_pos ⟨hexternal.1, .inr hexternal.2⟩]
        simp
      · rename_i hexternal
        have hneither : ¬ (lower operation.op = "replace" ∧
            (lower operation.path = "displayname" ∨ lower operation.path = "externalid")) := by
          rintro ⟨haction, hpath | hpath⟩
          · exact hname ⟨haction, hpath⟩
          · exact hexternal ⟨haction, hpath⟩
        rw [if_neg hneither]
        split at h
        · -- the list of members
          rename_i hmembers
          obtain ⟨hpath, haction⟩ := hmembers
          rw [if_pos hpath]
          cases hvalues : scimMemberIds operation.value with
          | error e =>
            rw [hvalues] at h
            cases h
          | ok values =>
            rw [hvalues] at h
            obtain rfl := Except.ok.inj h
            show id ∈ Dayfinch.patchMembers _ _ _ ↔ _
            unfold Dayfinch.patchMembers
            simp only [Except.toOption, Option.getD_some, List.contains_iff_mem]
            by_cases hreplace : lower operation.op = "replace"
            · rw [if_pos hreplace, if_pos hreplace]
              simp
            · rw [if_neg hreplace, if_neg hreplace]
              by_cases hadd : lower operation.op = "add"
              · rw [if_pos hadd]
                by_cases hnamed : id ∈ values
                · simp [hnamed, hadd]
                · simp [hnamed]
              · rw [if_neg hadd]
                by_cases hnamed : id ∈ values
                · simp [hnamed, hadd]
                · simp [hnamed]
        · -- one member, in the path
          rename_i hmembers
          split at h
          · rename_i hremove
            have hpath : ¬ lower operation.path = "members" := fun heq =>
              hmembers ⟨heq, .inr (.inr hremove)⟩
            rw [if_neg hpath]
            split at h
            · rename_i member hmember
              obtain rfl := Except.ok.inj h
              by_cases hid : member = id
              · simp [hmember, hid]
              · simp [hmember, hid, Ne.symm hid]
            · cases h
          · cases h

/-- The operations decide by their last decision. -/
theorem mem_foldlM_applyOperation {operations : List (Option ScimOperation)} {patch patch' : ScimPatch}
    (h : operations.foldlM applyOperation patch = .ok patch') {id : String} {decided : Option Bool}
    {start : Bool} (hpatch : id ∈ patch.memberIds ↔ decided.getD start = true) :
    id ∈ patch'.memberIds ↔
      (operations.foldl (fun decided operation => (operation.bind (·.decision? id)).or decided)
        decided).getD start = true := by
  induction operations generalizing patch decided with
  | nil =>
    obtain rfl := Except.ok.inj h
    exact hpatch
  | cons operation operations ih =>
    rw [List.foldlM_cons] at h
    obtain ⟨next, hnext, hrest⟩ := bind_eq_ok.mp h
    refine ih hrest ?_
    show id ∈ next.memberIds ↔ ((operation.bind (·.decision? id)).or decided).getD start = true
    rw [mem_applyOperation hnext id]
    generalize (operation.bind fun operation => operation.decision? id) = decision
    cases decision with
    | none => simpa using hpatch
    | some decision => simp

theorem mem_applyOperations {memberIds : List String} {request : ScimRequest} {patch : ScimPatch}
    (h : applyOperations memberIds request.operations = .ok patch) (id : String) :
    id ∈ patch.memberIds ↔ (request.decision? id).getD (decide (id ∈ memberIds)) = true := by
  unfold applyOperations at h
  split at h
  · cases h
  · exact mem_foldlM_applyOperation h (by simp)

/-- Whether the operations are accepted does not depend on the members. -/
theorem applyOperation_agree (patch patch' : ScimPatch) (operation : Option ScimOperation) :
    Library.Agree (fun _ _ => True) (applyOperation patch operation) (applyOperation patch' operation) := by
  unfold applyOperation
  split
  · exact .error _ _
  · dsimp only
    split
    · split
      · exact .error _ _
      · exact .ok trivial
    · split
      · exact .ok trivial
      · split
        · cases scimMemberIds _ with
          | error e => exact .error _ _
          | ok values => exact .ok trivial
        · split
          · split
            · exact .ok trivial
            · exact .error _ _
          · exact .error _ _

theorem foldlM_applyOperation_agree (operations : List (Option ScimOperation))
    (patch patch' : ScimPatch) :
    Library.Agree (fun _ _ => True) (operations.foldlM applyOperation patch)
      (operations.foldlM applyOperation patch') := by
  induction operations generalizing patch patch' with
  | nil => exact .ok trivial
  | cons operation operations ih =>
    rw [List.foldlM_cons, List.foldlM_cons]
    exact (applyOperation_agree patch patch' operation).bind fun _ _ _ => ih _ _

/-- The operations of the request are accepted. -/
def ScimRequest.valid (request : ScimRequest) : Prop :=
  ∃ patch, applyOperations [] request.operations = .ok patch

theorem ScimRequest.valid_of_ok {request : ScimRequest} {memberIds : List String} {patch : ScimPatch}
    (h : applyOperations memberIds request.operations = .ok patch) (memberIds' : List String) :
    ∃ patch', applyOperations memberIds' request.operations = .ok patch' := by
  unfold applyOperations at h ⊢
  split at h
  · cases h
  · rename_i hne
    rw [if_neg hne]
    have hagree := foldlM_applyOperation_agree request.operations { memberIds }
      { memberIds := memberIds' }
    rw [h] at hagree
    generalize request.operations.foldlM applyOperation { memberIds := memberIds' } = result at hagree ⊢
    cases hagree with
    | ok => exact ⟨_, rfl⟩

theorem mem_applyTo {request : ScimRequest} (hvalid : request.valid) (memberIds : List String)
    (id : String) :
    id ∈ request.applyTo memberIds ↔
      (request.decision? id).getD (decide (id ∈ memberIds)) = true := by
  obtain ⟨_, h⟩ := hvalid
  obtain ⟨patch, hpatch⟩ := ScimRequest.valid_of_ok h memberIds
  unfold ScimRequest.applyTo
  rw [hpatch]
  exact mem_applyOperations hpatch id

/-! ## What a write leaves -/

section

variable {rank : ScimUser → Nat} {s store : ScimStore} {request : ScimRequest} {memberIds : List String}

/-- A group after an update that keeps which group it is. -/
theorem find?_group {selected : ScimTeam → Bool} {f : ScimTeam → ScimTeam}
    {teams : List ScimTeam} {teamId : String} (hf : ∀ team id, (f team).isGroup id = team.isGroup id) :
    (updateWhere selected f teams).find? (·.isGroup teamId) =
      (teams.find? (·.isGroup teamId)).map fun team => if selected team then f team else team :=
  Library.find?_updateWhere (fun team => hf team teamId) teams

theorem mem_membersOf {teamId id : String} :
    id ∈ s.membersOf rank teamId ↔
      ∃ team, s.teams.find? (·.isGroup teamId) = some team ∧ id ∈ team.members ∧
        ∃ u ∈ s.users, u.id = id ∧ u.enabled = true := by
  unfold ScimStore.membersOf ScimStore.getScimGroup
  cases s.teams.find? (·.isGroup teamId) with
  | none => simp
  | some team =>
    simp only [Option.map_some, Option.getD_some, List.mem_map, Library.mem_orderBy,
      List.mem_filter, Bool.and_eq_true, List.contains_iff_mem, Option.some.injEq, exists_eq_left']
    constructor
    · rintro ⟨u, ⟨hu, hmem, henabled⟩, rfl⟩
      exact ⟨hmem, u, hu, rfl, henabled⟩
    · rintro ⟨hmem, u, hu, rfl, henabled⟩
      exact ⟨u, ⟨hu, hmem, henabled⟩, rfl⟩

variable (rank) in
/-- **A request that is accepted** leaves the group with what its operations make of the list it has read,
and the other groups as they are. -/
theorem patchGroup_ok (h : patchGroup s request memberIds = .ok store) :
    store.users = s.users ∧ request.valid ∧
      (∀ teamId, teamId ≠ request.teamId → ∀ id,
        id ∈ store.membersOf rank teamId ↔ id ∈ s.membersOf rank teamId) ∧
      ∀ id, id ∈ store.membersOf rank request.teamId ↔
        (request.decision? id).getD (decide (id ∈ memberIds)) = true := by
  obtain ⟨patch, hpatch, h⟩ := bind_eq_ok.mp h
  split at h
  · rename_i store' hupdate
    obtain rfl := Except.ok.inj h
    unfold ScimStore.updateScimGroup at hupdate
    dsimp only at hupdate
    split at hupdate
    · cases hupdate
    · rename_i hgroup
      split at hupdate
      · cases hupdate
      · split at hupdate
        · cases hupdate
        · rename_i hprovisioned
          obtain rfl := Except.ok.inj hupdate
          refine ⟨rfl, ScimRequest.valid_of_ok hpatch [], ?_, ?_⟩
          · intro teamId hne id
            have hother : ∀ team : ScimTeam, team.isGroup teamId = true →
                team.isGroup request.teamId = false := by
              intro team hteam
              unfold ScimTeam.isGroup at hteam ⊢
              rw [Bool.and_eq_true, beq_iff_eq] at hteam
              rw [hteam.1, beq_false_of_ne hne, Bool.false_and]
            rw [mem_membersOf, mem_membersOf, find?_group, find?_group]
            · cases hfind : s.teams.find? (·.isGroup teamId) with
              | none => simp
              | some team =>
                have hteam := List.find?_some hfind
                simp [hother team hteam]
            · exact fun _ _ => rfl
            · exact fun _ _ => rfl
          · intro id
            rw [mem_membersOf, ← mem_applyOperations hpatch id, find?_group, find?_group]
            · obtain ⟨team, hteam⟩ : ∃ team, s.teams.find? (·.isGroup request.teamId) = some team := by
                rw [Bool.not_eq_false, List.any_eq_true] at hgroup
                exact Option.isSome_iff_exists.mp (List.find?_isSome.mpr hgroup)
              have hselected := List.find?_some hteam
              have hrenamed : ∀ name externalId : String,
                  ({ team with name, externalId } : ScimTeam).isGroup request.teamId = true :=
                fun _ _ => hselected
              simp only [hteam, Option.map_some, hselected, if_true, hrenamed, Option.some.injEq,
                exists_eq_left', List.mem_eraseDups, and_iff_left_iff_imp]
              intro hmem
              rw [Bool.not_eq_false] at hprovisioned
              have huser := List.all_eq_true.mp hprovisioned id (List.mem_eraseDups.mpr hmem)
              obtain ⟨u, hu, hmatch⟩ := List.any_eq_true.mp huser
              rw [Bool.and_eq_true, Bool.and_eq_true, beq_iff_eq] at hmatch
              exact ⟨u, hu, hmatch.1.1, hmatch.2⟩
            · exact fun _ _ => rfl
            · exact fun _ _ => rfl
  · cases h
  · cases h

variable (rank) in
/-- **A write is serial** exactly where it reads what is current, as far as its operations leave it. -/
theorem patchGroup_serial_iff (h : patchGroup s request memberIds = .ok store) :
    (∀ id, id ∈ store.membersOf rank request.teamId ↔
        id ∈ request.applyTo (s.membersOf rank request.teamId)) ↔
      ∀ id, request.decision? id = none →
        (id ∈ memberIds ↔ id ∈ s.membersOf rank request.teamId) := by
  obtain ⟨_, hvalid, _, hmembers⟩ := patchGroup_ok rank h
  refine forall_congr' fun id => ?_
  rw [hmembers id, mem_applyTo hvalid]
  cases request.decision? id with
  | none => simp
  | some decision => simp

end

/-! ## Runs -/

/-- The members of every group are what the accepted requests make of them, in the order of their writes. -/
structure ScimGroupInvariant (rank : ScimUser → Nat) (store : ScimStore) (s : ScimGroupState) : Prop where
  valid : ∀ request ∈ s.accepted, request.valid
  members : ∀ teamId id, id ∈ s.store.membersOf rank teamId ↔
    id ∈ (s.accepted.filter (·.teamId == teamId)).foldl (fun members request => request.applyTo members)
      (store.membersOf rank teamId)

theorem ScimGroupInvariant.step {rank : ScimUser → Nat} {store : ScimStore} {s : ScimGroupState}
    (h : ScimGroupInvariant rank store s) {op : ScimGroupOp} (hcurrent : op.readsCurrent rank s = true) :
    ScimGroupInvariant rank store (scimGroupStep rank s op) := by
  cases op with
  | read worker request => exact ⟨h.valid, h.members⟩
  | die worker => exact ⟨h.valid, h.members⟩
  | write worker =>
    cases hworker : s.workers worker with
    | none =>
      simp only [scimGroupStep, hworker]
      exact h
    | some read =>
      obtain ⟨request, memberIds⟩ := read
      simp only [scimGroupStep, hworker]
      split
      · rename_i after hpatch
        obtain ⟨_, hvalid, hothers, _⟩ := patchGroup_ok rank hpatch
        have hserial := (patchGroup_serial_iff rank hpatch).mpr (by
          intro id hnone
          simp only [ScimGroupOp.readsCurrent, hworker, Option.all_some, List.all_eq_true,
            Bool.or_eq_true, beq_iff_eq] at hcurrent
          by_cases hmem : id ∈ memberIds ++ s.store.membersOf rank request.teamId
          · rcases hcurrent id hmem with hsame | hdecided
            · rw [← List.contains_iff_mem, hsame, List.contains_iff_mem]
            · rw [hnone] at hdecided
              cases hdecided
          · rw [List.mem_append, not_or] at hmem
            exact iff_of_false hmem.1 hmem.2)
        refine ⟨?_, ?_⟩
        · intro r hr
          rcases List.mem_append.mp hr with hold | hnew
          · exact h.valid r hold
          · rwa [List.mem_singleton.mp hnew]
        · intro teamId id
          show id ∈ after.membersOf rank teamId ↔
            id ∈ ((s.accepted ++ [request]).filter (·.teamId == teamId)).foldl _ _
          rw [List.filter_append]
          by_cases hteam : request.teamId = teamId
          · subst hteam
            have hsingle : [request].filter (·.teamId == request.teamId) = [request] := by simp
            rw [hsingle, List.foldl_append, List.foldl_cons, List.foldl_nil, hserial id,
              mem_applyTo hvalid, mem_applyTo hvalid]
            simp only [h.members request.teamId id]
          · have hnone : [request].filter (·.teamId == teamId) = [] := by simp [hteam]
            rw [hnone, List.append_nil, hothers teamId (Ne.symm hteam) id]
            exact h.members teamId id
      · exact ⟨h.valid, h.members⟩

/-- **The changes of every group are serial in every run** in which no request writes over a change of a
user whom it does not name. -/
theorem serialChanges_run {rank : ScimUser → Nat} {store : ScimStore} {ops : List ScimGroupOp}
    (hops : Guarded (scimGroupStep rank) (fun s op => op.readsCurrent rank s = true) { store } ops)
    (teamId : String) :
    SerialChanges rank { store } (run (scimGroupStep rank) { store } ops) teamId := by
  have h : ScimGroupInvariant rank store (run (scimGroupStep rank) { store } ops) :=
    guarded_invariant (ScimGroupInvariant rank store) (fun _ _ h hg => h.step hg)
      ⟨fun _ hr => absurd hr List.not_mem_nil, fun _ _ => Iff.rfl⟩ hops
  exact ⟨_, List.Perm.refl _, h.members teamId⟩

/-- A group of the two users `u1` and `u2`, without members. -/
def emptyGroup : ScimStore where
  users := [⟨"u1", .member, true⟩, ⟨"u2", .member, true⟩]
  teams := [⟨"t", "Research", "", true, []⟩]

/-- A request that adds a member. -/
def addMember (id : String) : ScimRequest :=
  ⟨"t", [some ⟨"add", "members", .array [some id] ""⟩]⟩

/-- One request after the other. -/
theorem serialChanges_run_twoAdds :
    SerialChanges (fun _ => 0) { store := emptyGroup }
      (run (scimGroupStep fun _ => 0) { store := emptyGroup }
        [.read 1 (addMember "u1"), .write 1, .read 2 (addMember "u2"), .write 2]) "t" :=
  serialChanges_run (by decide +kernel) "t"

/-- **A member is lost**: two requests read the empty group, and each writes the member it adds. -/
theorem serialChanges_lost :
    ¬ ∀ (rank : ScimUser → Nat) (store : ScimStore) (ops : List ScimGroupOp) (teamId : String),
      SerialChanges rank { store } (run (scimGroupStep rank) { store } ops) teamId := by
  intro h
  obtain ⟨order, hperm, hmembers⟩ := h (fun _ => 0) emptyGroup
    [.read 1 (addMember "u1"), .read 2 (addMember "u2"), .write 1, .write 2] "t"
  have haccepted : (run (scimGroupStep fun _ => 0) { store := emptyGroup }
      [.read 1 (addMember "u1"), .read 2 (addMember "u2"), .write 1, .write 2]).accepted.filter
        (·.teamId == "t") = [addMember "u1", addMember "u2"] := by decide +kernel
  rw [haccepted] at hperm
  have hlost : "u1" ∉ (run (scimGroupStep fun _ => 0) { store := emptyGroup }
      [.read 1 (addMember "u1"), .read 2 (addMember "u2"), .write 1, .write 2]).store.membersOf
        (fun _ => 0) "t" := by decide +kernel
  refine hlost ((hmembers "u1").mpr ?_)
  rcases List.perm_pair.mp hperm with rfl | rfl
  · decide +kernel
  · decide +kernel

end Dayfinch
