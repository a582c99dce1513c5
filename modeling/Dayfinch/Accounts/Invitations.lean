/-
# Dayfinch.Accounts.Invitations -- who may enter after an account was disabled

An invitation lets its user set a password, and switches the account on. Administrators and the identity
provider switch accounts off and on; neither touches the invitations of the user, so a link that was issued
before an account was disabled still switches it on afterwards. `acceptsCurrent` is the condition that no
such link is accepted. In runs that meet it a disabled account comes back only by an operation that enables
it, or by an invitation that was issued since (`StaysOut`).

What an operation writes to the accounts and the invitations is said once, by `AccountMove`; the invariants
are cases over it. Of a `users` row the columns that sign a user in are in `identities`, the others are the
users of `Schema`. A token and its hash are one number, drawn from the supply of identifiers.
-/
import Dayfinch.Library.Run
import Dayfinch.Library.Text
import Dayfinch.Work.Effect

namespace Dayfinch

open Library (updateWhere mem_updateWhere_cases mem_updateWhere_of_mem UniqueKey CountedKeys run Guarded
  guarded_append guarded_invariant run_invariant bind_eq_ok toOption_eq_some)
open Library.Text (lower strip)

/-! ## Tables -/

/-- `str.lower` and PostgreSQL's `lower`. -/
structure LowerCase where
  python : String → String
  postgres : String → String

/-- The columns of `users` that sign a user in. -/
structure AccountIdentity where
  userId : Nat
  email : String
  passwordHash : Option String
  scimExternalId : String
  deriving DecidableEq, Repr

/-- `invitations`. -/
structure Invitation where
  id : Nat
  userId : Nat
  token : Nat
  createdByUserId : Nat
  createdAt : Int
  expiresAt : Int
  usedAt : Option Int
  deriving DecidableEq, Repr

/-- The tables. -/
structure AccountStore where
  db : Database := {}
  identities : List AccountIdentity := []
  invitations : List Invitation := []
  deriving DecidableEq, Repr

/-- How an operation on accounts fails. -/
inductive AccountError
  | error (error : Error)
  | lookupError (message : String)
  | runtimeError (message : String)
  deriving DecidableEq, Repr

/-- The invitation can be accepted. -/
def Invitation.usable (invitation : Invitation) (now : Int) : Bool :=
  invitation.usedAt.isNone && now < invitation.expiresAt

/-- `user["password_hash"]` is set. -/
def AccountIdentity.hasPassword (identity : AccountIdentity) : Bool :=
  identity.passwordHash.any (· != "")

/-- A row of `users` as it is inserted. -/
def newUser (id : Nat) (role : Role) (enabled : Bool) : User :=
  { id, role, enabled, dailyLimitMinutes := 0, weeklyLimitMinutes := 0 }

namespace AccountStore

/-- `WHERE lower(email)=lower(..)`. -/
def findByEmail (casing : LowerCase) (s : AccountStore) (email : String) : Option AccountIdentity :=
  s.identities.find? fun i => casing.postgres i.email == casing.postgres email

/-- `uq_users_email_lower` and `uq_users_scim_external_id`. -/
def taken (casing : LowerCase) (identities : List AccountIdentity) : Bool :=
  !decide (identities.map fun i => casing.postgres i.email).Nodup ||
    !decide ((identities.filter (·.scimExternalId != "")).map (·.scimExternalId)).Nodup

/-- `INSERT INTO users`. -/
def insertUser (s : AccountStore) (role : Role) (enabled : Bool) (email : String)
    (passwordHash : Option String) (scimExternalId : String) : AccountStore :=
  { s with
    db := { s.db with
      users := s.db.users ++ [newUser s.db.nextId role enabled]
      nextId := s.db.nextId + 1 }
    identities := s.identities ++ [{ userId := s.db.nextId, email, passwordHash, scimExternalId }] }

/-- The invitation with this token that can be accepted. -/
def invitation? (s : AccountStore) (token : Nat) (now : Int) : Option Invitation :=
  s.invitations.find? fun i => i.token == token && i.usable now

/-- The earlier invitations of the user are used up, and a new one is inserted. -/
def issueInvitation (s : AccountStore) (userId createdByUserId : Nat) (now validHours : Int) :
    AccountStore :=
  { s with
    db := { s.db with nextId := s.db.nextId + 2 }
    invitations :=
      updateWhere (fun i => i.userId == userId && i.usedAt.isNone)
        (fun i => { i with usedAt := some now }) s.invitations ++
      [{ id := s.db.nextId, userId, token := s.db.nextId + 1, createdByUserId, createdAt := now,
         expiresAt := now + minutes (60 * validHours), usedAt := none }] }

/-! ## Operations -/

/-- `create_invitation`. -/
def createInvitation (casing : LowerCase) (now : Int) (s : AccountStore) (email : String)
    (createdByUserId : Nat) (validHours : Int) : Except Error AccountStore := do
  let normalized := casing.python (strip email)
  let user := s.findByEmail casing normalized
  raiseIf (user.any (fun i => i.hasPassword && (s.db.getUserAny i.userId).any (·.enabled)) = true)
    "That email already has an active account"
  if (s.db.getUserAny createdByUserId).isNone then .error .foreignKeyViolation
  else
    match user with
    | some identity => return s.issueInvitation identity.userId createdByUserId now validHours
    | none =>
      return (s.insertUser .member false normalized none "").issueInvitation s.db.nextId
        createdByUserId now validHours

/-- `accept_invitation`: the user, if there is the invitation. -/
def acceptInvitation (now : Int) (s : AccountStore) (token : Nat) (passwordHash : String) :
    AccountStore × Option Nat :=
  match s.invitation? token now with
  | none => (s, none)
  | some invitation =>
    ({ s with
        db := { s.db with
          users := updateWhere (·.id == invitation.userId) (fun u => { u with enabled := true })
            s.db.users }
        identities := updateWhere (·.userId == invitation.userId)
          (fun i => { i with passwordHash := some passwordHash }) s.identities
        invitations := updateWhere (·.id == invitation.id) (fun i => { i with usedAt := some now })
          s.invitations },
      some invitation.userId)

/-- `bootstrap_admin`: the administrator of the settings is created, or gets the password. -/
def bootstrapAdmin (casing : LowerCase) (s : AccountStore) (email passwordHash : String) :
    Except AccountError AccountStore :=
  let normalized := casing.python (strip email)
  match s.findByEmail casing normalized with
  | none => .ok (s.insertUser .admin true normalized (some passwordHash) "")
  | some identity =>
    if (s.db.getUserAny identity.userId).any fun u => u.role == .admin && u.enabled then
      .ok { s with
        identities := updateWhere (·.userId == identity.userId)
          (fun i => { i with passwordHash := some passwordHash }) s.identities }
    else .error (.runtimeError "TRACKER_ADMIN_EMAIL belongs to a non-admin account")

/-- `create_scim_user`. -/
def createScimUser (casing : LowerCase) (s : AccountStore) (email externalId : String)
    (enabled : Bool) : Except AccountError AccountStore :=
  let inserted := s.insertUser .member enabled email none externalId
  if taken casing inserted.identities then
    .error (.error (.valueError "A user with that email or externalId already exists"))
  else .ok inserted

/-- `role IN ('member','viewer')`. -/
def isScimUser (s : AccountStore) (userId : Nat) : Bool :=
  (s.db.getUserAny userId).any fun u => u.role == .member || u.role == .viewer

/-- `set_user_enabled`. -/
def setUserEnabled (now : Int) (s : AccountStore) (userId : Nat) (enabled : Bool) :
    Except Error AccountStore :=
  (Dayfinch.setUserEnabled now s.db userId enabled).map fun db => { s with db }

/-- `update_scim_user`; the display name is a column that is not modelled. -/
def updateScimUser (casing : LowerCase) (now : Int) (s : AccountStore) (userId : Nat)
    (email externalId displayName : Option String) (enabled : Option Bool) :
    Except AccountError AccountStore :=
  let identities := updateWhere (·.userId == userId)
    (fun i => { i with
      email := email.getD i.email
      scimExternalId := externalId.getD i.scimExternalId }) s.identities
  if s.isScimUser userId = false then .error (.lookupError "SCIM user not found")
  else if email = none ∧ externalId = none ∧ displayName = none ∧ enabled = none then .ok s
  else if taken casing identities then
    .error (.error (.valueError "A user with that email or externalId already exists"))
  else
    match enabled with
    | none => .ok { s with identities }
    | some enabled =>
      match { s with identities }.setUserEnabled now userId enabled with
      | .ok s => .ok s
      | .error e => .error (.error e)

end AccountStore

/-! ## Steps -/

/-- An operation on accounts. -/
inductive AccountOp
  | createInvitation (now : Int) (email : String) (createdByUserId : Nat) (validHours : Int)
  | acceptInvitation (now : Int) (token : Nat) (passwordHash : String)
  | bootstrapAdmin (email passwordHash : String)
  | createScimUser (email externalId : String) (enabled : Bool)
  | updateScimUser (now : Int) (userId : Nat) (email externalId displayName : Option String)
      (enabled : Option Bool)
  | setUserEnabled (now : Int) (userId : Nat) (enabled : Bool)
  | setUserProfile (userId : Nat) (role : Option Role) (weeklyLimitMinutes : Int)
      (dailyLimitMinutes : Option Int)
  | addProjectMember (projectId userId : Nat) (projectRole : Option ProjectRole)
  | removeProjectMember (now : Int) (projectId userId : Nat)
  | setProjectMemberRole (now : Int) (projectId userId : Nat) (projectRole : Option ProjectRole)
  deriving DecidableEq, Repr

/-- What an operation makes of the tables, if it does not raise. -/
def AccountOp.run (casing : LowerCase) (s : AccountStore) : AccountOp → Option AccountStore
  | .createInvitation now email createdByUserId validHours =>
    (s.createInvitation casing now email createdByUserId validHours).toOption
  | .acceptInvitation now token passwordHash => some (s.acceptInvitation now token passwordHash).1
  | .bootstrapAdmin email passwordHash => (s.bootstrapAdmin casing email passwordHash).toOption
  | .createScimUser email externalId enabled =>
    (s.createScimUser casing email externalId enabled).toOption
  | .updateScimUser now userId email externalId displayName enabled =>
    (s.updateScimUser casing now userId email externalId displayName enabled).toOption
  | .setUserEnabled now userId enabled => (s.setUserEnabled now userId enabled).toOption
  | .setUserProfile userId role weeklyLimitMinutes dailyLimitMinutes =>
    (Dayfinch.setUserProfile s.db userId role weeklyLimitMinutes dailyLimitMinutes).toOption.map
      fun db => { s with db }
  | .addProjectMember projectId userId projectRole =>
    (Dayfinch.addProjectMember s.db projectId userId projectRole).toOption.map fun db => { s with db }
  | .removeProjectMember now projectId userId =>
    (Dayfinch.removeProjectMember now s.db projectId userId).toOption.map fun db => { s with db }
  | .setProjectMemberRole now projectId userId projectRole =>
    (Dayfinch.setProjectMemberRole now s.db projectId userId projectRole).toOption.map
      fun db => { s with db }

/-- The account that the operation switches, and whether it is enabled then. -/
def AccountOp.switches : AccountOp → Option (Nat × Bool)
  | .setUserEnabled _ userId enabled => some (userId, enabled)
  | .updateScimUser _ userId _ _ _ (some enabled) => some (userId, enabled)
  | _ => none

/-- The invitation that the operation accepts. -/
def AccountOp.accepts (s : AccountStore) : AccountOp → Option Invitation
  | .acceptInvitation now token _ => s.invitation? token now
  | _ => none

/-- The tables; the invitations that were issued before their user was disabled; and the invitations that
were accepted. -/
structure AccountState where
  store : AccountStore := {}
  stale : List Nat := []
  accepted : List Nat := []
  deriving DecidableEq, Repr

/-- The invitations that an operation leaves behind when it disables their user. -/
def AccountOp.leaves (s : AccountStore) (op : AccountOp) : List Nat :=
  match op.switches with
  | some (userId, false) => (s.invitations.filter (·.userId == userId)).map (·.id)
  | _ => []

/-- One step; an operation that raises is rolled back. -/
def accountStep (casing : LowerCase) (s : AccountState) (op : AccountOp) : AccountState :=
  match op.run casing s.store with
  | none => s
  | some store =>
    { store
      stale := s.stale ++ op.leaves s.store
      accepted := s.accepted ++ ((op.accepts s.store).map (·.id)).toList }

/-! ## The properties -/

/-- An account that is disabled is enabled by an operation that enables it, or by accepting an invitation
of the user that was issued since he was disabled. -/
def StaysOut (casing : LowerCase) (s : AccountState) (op : AccountOp) : Prop :=
  ∀ u ∈ s.store.db.users, u.enabled = false →
    ∀ u' ∈ (accountStep casing s op).store.db.users, u'.id = u.id → u'.enabled = true →
      op.switches = some (u.id, true) ∨
        ∃ invitation, op.accepts s.store = some invitation ∧ invitation.userId = u.id ∧
          invitation.id ∉ s.stale

/-- At any instant at most one invitation of a user can be accepted, and none was accepted twice. -/
structure OneInvitation (s : AccountState) : Prop where
  usable : ∀ now, ∀ invitation ∈ s.store.invitations, ∀ other ∈ s.store.invitations,
    invitation.usable now = true → other.usable now = true → invitation.userId = other.userId →
    invitation = other
  once : s.accepted.Nodup

/-- **Disabled accounts stay out**: in every state of the run there is one invitation, and every step
leaves who is out. -/
def DisabledStaysOut (casing : LowerCase) (ops : List AccountOp) : Prop :=
  (∀ before after, ops = before ++ after → OneInvitation (run (accountStep casing) {} before)) ∧
    ∀ before op after, ops = before ++ op :: after →
      StaysOut casing (run (accountStep casing) {} before) op

/-! ## The condition -/

/-- An invitation that is accepted was issued since its user was disabled, or he is enabled. -/
def AccountOp.acceptsCurrent (s : AccountState) (op : AccountOp) : Bool :=
  (op.accepts s.store).all fun invitation =>
    !s.stale.contains invitation.id ||
      s.store.db.users.all fun u => u.id != invitation.userId || u.enabled

/-! ## What an operation writes -/

/-- The users after an operation: the rows that there were, of the same keys, and at most one new row. A row
that is enabled was enabled before, or the operation enables it, or its user accepts an invitation. -/
structure UsersMove (op : AccountOp) (s s' : AccountStore) (f : User → User) (new : List User) : Prop where
  users : s'.db.users = s.db.users.map f ++ new
  keepsId : ∀ u, (f u).id = u.id
  enabled : ∀ u, (f u).enabled = true → u.enabled = true ∨ op.switches = some (u.id, true) ∨
    ∃ invitation, op.accepts s = some invitation ∧ invitation.userId = u.id
  inserted : new = [] ∨ ∃ role enabled, new = [newUser s.db.nextId role enabled]
  nextId : s.db.nextId + new.length ≤ s'.db.nextId

/-- The invitations after an operation: the rows that there were, none of them unused that was used, and
the new ones, whose user has no other that is unused. -/
structure InvitationsMove (op : AccountOp) (s s' : AccountStore) (g : Invitation → Invitation)
    (new : List Invitation) : Prop where
  invitations : s'.invitations = s.invitations.map g ++ new
  keepsId : ∀ i, (g i).id = i.id
  userId : ∀ i, (g i).userId = i.userId
  usedAt : ∀ i, (g i).usedAt = none → g i = i
  inserted : ∀ n ∈ new, new = [n] ∧ s.db.nextId ≤ n.id ∧ n.id < s'.db.nextId ∧
    ∀ i, i.userId = n.userId → (g i).usedAt ≠ none
  accepts : ∀ invitation, op.accepts s = some invitation →
    new = [] ∧ ∀ i, i.id = invitation.id → (g i).usedAt ≠ none

/-- What an operation writes. -/
structure AccountMove (op : AccountOp) (s s' : AccountStore) : Prop where
  users : ∃ f new, UsersMove op s s' f new
  invitations : ∃ g new, InvitationsMove op s s' g new

variable {casing : LowerCase} {op : AccountOp} {s s' : AccountStore}

/-- The invitations stay as they are. -/
theorem InvitationsMove.refl (h : s'.invitations = s.invitations) (haccepts : op.accepts s = none) :
    InvitationsMove op s s' id [] where
  invitations := by rw [h, List.map_id, List.append_nil]
  keepsId _ := rfl
  userId _ := rfl
  usedAt _ _ := rfl
  inserted _ hn := nomatch hn
  accepts invitation h := by rw [haccepts] at h; cases h

/-- The users stay as they are. -/
theorem UsersMove.refl (h : s'.db.users = s.db.users) (hnext : s.db.nextId ≤ s'.db.nextId) :
    UsersMove op s s' id [] where
  users := by rw [h, List.map_id, List.append_nil]
  keepsId _ := rfl
  enabled _ h := .inl h
  inserted := .inl rfl
  nextId := hnext

/-- An operation that rewrites users, and leaves the invitations. -/
theorem AccountMove.rewrite {f : User → User} (hid : ∀ u, (f u).id = u.id)
    (henabled : ∀ u, (f u).enabled = true → u.enabled = true ∨ op.switches = some (u.id, true))
    (husers : s'.db.users = s.db.users.map f) (hnext : s'.db.nextId = s.db.nextId)
    (hinvitations : s'.invitations = s.invitations) (haccepts : op.accepts s = none) :
    AccountMove op s s' where
  users := ⟨f, [],
    { users := by rw [husers, List.append_nil]
      keepsId := hid
      enabled := fun u hu => (henabled u hu).imp_right .inl
      inserted := .inl rfl
      nextId := hnext.ge }⟩
  invitations := ⟨_, _, .refl hinvitations haccepts⟩

/-- An operation that leaves who is enabled, and the invitations. -/
theorem AccountMove.quiet (husers : s'.db.users = s.db.users) (hnext : s'.db.nextId = s.db.nextId)
    (hinvitations : s'.invitations = s.invitations) (haccepts : op.accepts s = none) :
    AccountMove op s s' :=
  .rewrite (fun _ => rfl) (fun _ h => .inl h) (by rw [husers]; exact (List.map_id _).symm) hnext
    hinvitations haccepts

/-- An operation that switches users with this key. -/
theorem AccountMove.switch {userId : Nat} {enabled : Bool}
    (hswitches : op.switches = some (userId, enabled))
    (husers : s'.db.users = updateWhere (·.id == userId) (fun u => { u with enabled }) s.db.users)
    (hnext : s'.db.nextId = s.db.nextId) (hinvitations : s'.invitations = s.invitations)
    (haccepts : op.accepts s = none) : AccountMove op s s' := by
  refine .rewrite (fun u => ?_) (fun u hu => ?_) husers hnext hinvitations haccepts
  · split
    · rfl
    · rfl
  · by_cases hkey : (u.id == userId) = true
    · rw [if_pos hkey] at hu
      obtain rfl : enabled = true := hu
      rw [hswitches, eq_of_beq hkey]
      exact .inr rfl
    · rw [if_neg hkey] at hu
      exact .inl hu

/-- An operation that creates a user. -/
theorem AccountMove.insert {role : Role} {enabled : Bool} {email : String}
    {passwordHash : Option String} {scimExternalId : String} (haccepts : op.accepts s = none) :
    AccountMove op s (s.insertUser role enabled email passwordHash scimExternalId) where
  users := ⟨id, _,
    { users := by rw [List.map_id]; rfl
      keepsId := fun _ => rfl
      enabled := fun _ h => .inl h
      inserted := .inr ⟨role, enabled, rfl⟩
      nextId := le_rfl }⟩
  invitations := ⟨_, _, .refl rfl haccepts⟩

/-- An invitation of a user; the operation may have created him. -/
theorem InvitationsMove.issue {base : AccountStore} {userId createdByUserId : Nat}
    {now validHours : Int} (hinvitations : base.invitations = s.invitations)
    (hnext : s.db.nextId ≤ base.db.nextId) (haccepts : op.accepts s = none) :
    ∃ g new, InvitationsMove op s (base.issueInvitation userId createdByUserId now validHours) g new := by
  refine ⟨fun i => if i.userId == userId && i.usedAt.isNone then { i with usedAt := some now } else i, _,
    { invitations := by rw [← hinvitations]; rfl, keepsId := fun i => ?_, userId := fun i => ?_,
      usedAt := fun i h => ?_, inserted := fun n hn => ?_, accepts := fun i h => ?_ }⟩
  · split <;> rfl
  · split <;> rfl
  · split at h
    · cases h
    · rw [if_neg ‹_›]
  · obtain rfl := List.mem_singleton.mp hn
    refine ⟨rfl, hnext, ?_, fun i hi => ?_⟩
    · show base.db.nextId < base.db.nextId + 2
      omega
    · by_cases hnone : i.usedAt = none
      · rw [if_pos (by simp [hnone, hi])]
        exact nofun
      · rw [if_neg (by simp [hnone])]
        exact hnone
  · rw [haccepts] at h
    cases h

theorem setUserEnabled_users {now : Int} {db db' : Database} {userId : Nat} {enabled : Bool}
    (h : setUserEnabled now db userId enabled = .ok db') :
    db'.users = updateWhere (·.id == userId) (fun u => { u with enabled }) db.users ∧
      db'.nextId = db.nextId := by
  obtain ⟨-, -, h⟩ := bind_eq_ok.mp h
  split at h
  · cases h
    exact ⟨rfl, rfl⟩
  · obtain ⟨closed, hclosed, h⟩ := bind_eq_ok.mp h
    cases h
    exact closeWork_users hclosed

theorem addProjectMember_users {db db' : Database} {projectId userId : Nat}
    {projectRole : Option ProjectRole} (h : addProjectMember db projectId userId projectRole = .ok db') :
    db'.users = db.users ∧ db'.nextId = db.nextId := by
  unfold addProjectMember at h
  split at h
  · cases h
  · split at h
    · cases h
    · split at h
      · cases h
        exact ⟨rfl, rfl⟩
      · cases h
        exact ⟨rfl, rfl⟩

theorem setProjectMemberRole_users {now : Int} {db db' : Database} {projectId userId : Nat}
    {projectRole : Option ProjectRole}
    (h : setProjectMemberRole now db projectId userId projectRole = .ok db') :
    db'.users = db.users ∧ db'.nextId = db.nextId := by
  unfold setProjectMemberRole at h
  split at h
  · cases h
  · obtain ⟨-, -, h⟩ := bind_eq_ok.mp h
    split at h
    · cases h
      exact ⟨rfl, rfl⟩
    · obtain ⟨closed, hclosed, h⟩ := bind_eq_ok.mp h
      cases h
      obtain ⟨husers, hnext⟩ := closeWork_users hclosed
      exact ⟨husers, hnext⟩

/-! ## Every operation is a move -/

theorem createInvitation_move {now validHours : Int} {email : String} {createdByUserId : Nat}
    (h : s.createInvitation casing now email createdByUserId validHours = .ok s') :
    AccountMove (.createInvitation now email createdByUserId validHours) s s' := by
  obtain ⟨-, -, h⟩ := bind_eq_ok.mp h
  split at h
  · cases h
  · split at h
    · cases h
      exact ⟨⟨_, _, .refl rfl (Nat.le_add_right _ 2)⟩, InvitationsMove.issue rfl le_rfl rfl⟩
    · cases h
      refine ⟨⟨id, _, ⟨(by rw [List.map_id]; rfl), fun _ => rfl, fun _ h => .inl h,
        .inr ⟨.member, false, rfl⟩, ?_⟩⟩, InvitationsMove.issue rfl (Nat.le_succ _) rfl⟩
      show s.db.nextId + 1 ≤ s.db.nextId + 1 + 2
      omega

/-- Of the invitations that can be accepted, the one with this token is used, and its user enabled. -/
theorem acceptInvitation_move (now : Int) (s : AccountStore) (token : Nat) (passwordHash : String) :
    AccountMove (.acceptInvitation now token passwordHash) s
      (s.acceptInvitation now token passwordHash).1 := by
  cases hfind : s.invitation? token now with
  | none =>
    simp only [AccountStore.acceptInvitation, hfind]
    exact .quiet rfl rfl rfl hfind
  | some invitation =>
    simp only [AccountStore.acceptInvitation, hfind]
    refine ⟨⟨fun u => if u.id == invitation.userId then { u with enabled := true } else u, [],
        { users := (List.append_nil _).symm, keepsId := fun u => ?_, enabled := fun u hu => ?_,
          inserted := .inl rfl, nextId := le_rfl }⟩,
      ⟨fun i => if i.id == invitation.id then { i with usedAt := some now } else i, [],
        { invitations := (List.append_nil _).symm, keepsId := fun i => ?_, userId := fun i => ?_,
          usedAt := fun i h => ?_, inserted := nofun, accepts := fun accepted h => ⟨rfl, fun i hi => ?_⟩ }⟩⟩
    · split <;> rfl
    · by_cases hkey : (u.id == invitation.userId) = true
      · exact .inr (.inr ⟨invitation, hfind, (eq_of_beq hkey).symm⟩)
      · rw [if_neg hkey] at hu
        exact .inl hu
    · split <;> rfl
    · split <;> rfl
    · split at h
      · cases h
      · rw [if_neg ‹_›]
    · obtain rfl : invitation = accepted := Option.some.inj (hfind.symm.trans h)
      rw [if_pos (by simp [hi])]
      exact nofun

theorem bootstrapAdmin_move {email passwordHash : String}
    (h : s.bootstrapAdmin casing email passwordHash = .ok s') :
    AccountMove (.bootstrapAdmin email passwordHash) s s' := by
  unfold AccountStore.bootstrapAdmin at h
  dsimp only at h
  split at h
  · cases h
    exact .insert rfl
  · split at h
    · cases h
      exact .quiet rfl rfl rfl rfl
    · cases h

theorem createScimUser_move {email externalId : String} {enabled : Bool}
    (h : s.createScimUser casing email externalId enabled = .ok s') :
    AccountMove (.createScimUser email externalId enabled) s s' := by
  unfold AccountStore.createScimUser at h
  dsimp only at h
  split at h
  · cases h
  · cases h
    exact .insert rfl

theorem setUserEnabled_store {now : Int} {userId : Nat} {enabled : Bool}
    (h : s.setUserEnabled now userId enabled = .ok s') :
    s'.db.users = updateWhere (·.id == userId) (fun u => { u with enabled }) s.db.users ∧
      s'.db.nextId = s.db.nextId ∧ s'.invitations = s.invitations := by
  unfold AccountStore.setUserEnabled at h
  cases hrun : setUserEnabled now s.db userId enabled with
  | error e =>
    rw [hrun] at h
    cases h
  | ok db =>
    rw [hrun] at h
    cases h
    exact ⟨(setUserEnabled_users hrun).1, (setUserEnabled_users hrun).2, rfl⟩

/-- A change of the columns that sign the user in is no switch; `active` is. -/
theorem updateScimUser_move {now : Int} {userId : Nat} {email externalId displayName : Option String}
    {enabled : Option Bool}
    (h : s.updateScimUser casing now userId email externalId displayName enabled = .ok s') :
    AccountMove (.updateScimUser now userId email externalId displayName enabled) s s' := by
  unfold AccountStore.updateScimUser at h
  dsimp only at h
  split at h
  · cases h
  · split at h
    · cases h
      exact .quiet rfl rfl rfl rfl
    · split at h
      · cases h
      · cases enabled with
        | none =>
          cases h
          exact .quiet rfl rfl rfl rfl
        | some enabled =>
          dsimp only at h
          split at h
          · rename_i hrun
            cases h
            obtain ⟨husers, hnext, hinvitations⟩ := setUserEnabled_store hrun
            exact .switch rfl husers hnext hinvitations rfl
          · cases h

/-- **Moves.** What an operation writes, if it does not raise. -/
theorem run_accountMove (h : op.run casing s = some s') : AccountMove op s s' := by
  cases op with
  | createInvitation now email createdByUserId validHours =>
    exact createInvitation_move (toOption_eq_some.mp h)
  | acceptInvitation now token passwordHash =>
    cases h
    exact acceptInvitation_move now s token passwordHash
  | bootstrapAdmin email passwordHash => exact bootstrapAdmin_move (toOption_eq_some.mp h)
  | createScimUser email externalId enabled => exact createScimUser_move (toOption_eq_some.mp h)
  | updateScimUser now userId email externalId displayName enabled =>
    exact updateScimUser_move (toOption_eq_some.mp h)
  | setUserEnabled now userId enabled =>
    obtain ⟨husers, hnext, hinvitations⟩ := setUserEnabled_store (toOption_eq_some.mp h)
    exact .switch rfl husers hnext hinvitations rfl
  | setUserProfile userId role weeklyLimitMinutes dailyLimitMinutes =>
    obtain ⟨db, hdb, rfl⟩ := Option.map_eq_some_iff.mp h
    have hrun := toOption_eq_some.mp hdb
    unfold setUserProfile at hrun
    split at hrun
    · cases hrun
    · cases hrun
    · cases hrun
      refine .rewrite (fun u => ?_) (fun u hu => ?_) rfl rfl rfl rfl
      · split <;> rfl
      · split at hu <;> exact .inl hu
  | addProjectMember projectId userId projectRole =>
    obtain ⟨db, hdb, rfl⟩ := Option.map_eq_some_iff.mp h
    obtain ⟨husers, hnext⟩ := addProjectMember_users (toOption_eq_some.mp hdb)
    exact .quiet husers hnext rfl rfl
  | removeProjectMember now projectId userId =>
    obtain ⟨db, hdb, rfl⟩ := Option.map_eq_some_iff.mp h
    obtain ⟨closed, hclosed, hrest⟩ := bind_eq_ok.mp (toOption_eq_some.mp hdb)
    cases hrest
    obtain ⟨husers, hnext⟩ := closeWork_users hclosed
    exact .quiet husers hnext rfl rfl
  | setProjectMemberRole now projectId userId projectRole =>
    obtain ⟨db, hdb, rfl⟩ := Option.map_eq_some_iff.mp h
    obtain ⟨husers, hnext⟩ := setProjectMemberRole_users (toOption_eq_some.mp hdb)
    exact .quiet husers hnext rfl rfl

/-! ## The invariant -/

/-- The invitation with this identifier, if there is one, is used. -/
structure AccountStore.Spent (s : AccountStore) (id : Nat) : Prop where
  below : id < s.db.nextId
  used : ∀ i ∈ s.invitations, i.id = id → i.usedAt ≠ none

/-- The identifiers are unique and below the supply; a user has at most one unused invitation; and the
invitations that were accepted are used. -/
structure AccountInvariant (s : AccountState) : Prop where
  users : CountedKeys (·.id) s.store.db.users s.store.db.nextId
  invitations : ∀ i ∈ s.store.invitations, i.id < s.store.db.nextId
  unused : ∀ i ∈ s.store.invitations, ∀ j ∈ s.store.invitations,
    i.usedAt = none → j.usedAt = none → i.userId = j.userId → i = j
  accepted : ∀ id ∈ s.accepted, s.store.Spent id
  once : s.accepted.Nodup

theorem accountInvariant_empty : AccountInvariant {} where
  users := .nil _ _
  invitations _ h := nomatch h
  unused _ h := nomatch h
  accepted _ h := nomatch h
  once := List.nodup_nil

theorem AccountInvariant.oneInvitation {s : AccountState} (h : AccountInvariant s) : OneInvitation s where
  usable now invitation hinvitation other hother husable husable' hsame := by
    simp only [Invitation.usable, Bool.and_eq_true, Option.isNone_iff_eq_none] at husable husable'
    exact h.unused invitation hinvitation other hother husable.1 husable'.1 hsame
  once := h.once

/-- The supply of identifiers does not run backwards. -/
theorem AccountMove.nextId_le (h : AccountMove op s s') : s.db.nextId ≤ s'.db.nextId := by
  obtain ⟨f, new, hmove⟩ := h.users
  exact le_trans (Nat.le_add_right _ _) hmove.nextId

/-- The identifiers of users stay unique. -/
theorem AccountMove.countedKeys (h : AccountMove op s s')
    (hkeys : CountedKeys (·.id) s.db.users s.db.nextId) :
    CountedKeys (·.id) s'.db.users s'.db.nextId := by
  obtain ⟨f, new, hmove⟩ := h.users
  have hrewritten : CountedKeys (·.id) (s.db.users.map f) s.db.nextId := by
    have hall : s.db.users.map f = updateWhere (fun _ => true) f s.db.users := by simp [updateWhere]
    rw [hall]
    exact hkeys.updateWhere hmove.keepsId
  have hnext := hmove.nextId
  rw [hmove.users]
  rcases hmove.inserted with rfl | ⟨role, enabled, rfl⟩
  · rw [List.append_nil]
    exact hrewritten.mono hnext
  · exact (hrewritten.append rfl).mono hnext

/-- A row of the invitations after an operation is the image of one that there was, or new. -/
theorem InvitationsMove.mem {g : Invitation → Invitation} {new : List Invitation}
    (h : InvitationsMove op s s' g new) {i : Invitation} (hi : i ∈ s'.invitations) :
    (∃ q ∈ s.invitations, i = g q) ∨ i ∈ new := by
  rw [h.invitations, List.mem_append] at hi
  exact hi.imp_left fun hi => (List.mem_map.mp hi).imp fun q hq => ⟨hq.1, hq.2.symm⟩

/-- A user has at most one unused invitation afterwards. -/
theorem AccountMove.unused (h : AccountMove op s s')
    (hunused : ∀ i ∈ s.invitations, ∀ j ∈ s.invitations,
      i.usedAt = none → j.usedAt = none → i.userId = j.userId → i = j) :
    ∀ i ∈ s'.invitations, ∀ j ∈ s'.invitations,
      i.usedAt = none → j.usedAt = none → i.userId = j.userId → i = j := by
  obtain ⟨g, new, hmove⟩ := h.invitations
  intro i hi j hj hiNone hjNone hsame
  rcases hmove.mem hi with ⟨q, hq, rfl⟩ | hnew
  · rcases hmove.mem hj with ⟨q', hq', rfl⟩ | hnew'
    · -- both were there, and were unused already
      have hkept := hmove.usedAt q hiNone
      have hkept' := hmove.usedAt q' hjNone
      rw [hkept] at hiNone hsame ⊢
      rw [hkept'] at hjNone hsame ⊢
      exact hunused q hq q' hq' hiNone hjNone hsame
    · have hused := (hmove.inserted j hnew').2.2.2 q (by rw [← hmove.userId q]; exact hsame)
      exact absurd hiNone hused
  · rcases hmove.mem hj with ⟨q', hq', rfl⟩ | hnew'
    · have hused := (hmove.inserted i hnew).2.2.2 q' (by rw [← hmove.userId q']; exact hsame.symm)
      exact absurd hjNone hused
    · rw [(hmove.inserted i hnew).1] at hnew'
      exact (List.mem_singleton.mp hnew').symm

/-- The invitation that an operation accepts is there, and was not used. -/
theorem accepts_mem {invitation : Invitation} (h : op.accepts s = some invitation) :
    invitation ∈ s.invitations ∧ invitation.usedAt = none := by
  cases op with
  | acceptInvitation now token passwordHash =>
    have husable := List.find?_some h
    simp only [Invitation.usable, Bool.and_eq_true, Option.isNone_iff_eq_none] at husable
    exact ⟨List.mem_of_find?_eq_some h, husable.2.1⟩
  | _ => cases h

/-- A used invitation stays used. -/
theorem AccountMove.spent (h : AccountMove op s s') {id : Nat} (hspent : s.Spent id) : s'.Spent id := by
  refine ⟨lt_of_lt_of_le hspent.below h.nextId_le, fun i hi hkey hnone => ?_⟩
  obtain ⟨g, new, hmove⟩ := h.invitations
  rcases hmove.mem hi with ⟨q, hq, rfl⟩ | hnew
  · rw [hmove.usedAt q hnone] at hkey hnone
    exact hspent.used q hq hkey hnone
  · have hfresh := (hmove.inserted i hnew).2.1
    have hbelow := hspent.below
    omega

theorem step_accountInvariant (casing : LowerCase) (s : AccountState) (op : AccountOp)
    (h : AccountInvariant s) : AccountInvariant (accountStep casing s op) := by
  unfold accountStep
  cases hrun : op.run casing s.store with
  | none => exact h
  | some store =>
    have hmove := run_accountMove hrun
    obtain ⟨g, new, hinvitations⟩ := hmove.invitations
    refine ⟨hmove.countedKeys h.users, fun i hi => ?_, hmove.unused h.unused, fun id hid => ?_, ?_⟩
    · rcases hinvitations.mem hi with ⟨q, hq, rfl⟩ | hnew
      · rw [hinvitations.keepsId q]
        exact lt_of_lt_of_le (h.invitations q hq) hmove.nextId_le
      · exact (hinvitations.inserted i hnew).2.2.1
    · rcases List.mem_append.mp hid with hold | hnow
      · exact hmove.spent (h.accepted id hold)
      · obtain ⟨invitation, haccepts, rfl⟩ := Option.map_eq_some_iff.mp (Option.mem_toList.mp hnow)
        refine ⟨lt_of_lt_of_le (h.invitations invitation (accepts_mem haccepts).1) hmove.nextId_le,
          fun i hi hkey => ?_⟩
        obtain ⟨rfl, hnow⟩ := hinvitations.accepts invitation haccepts
        rcases hinvitations.mem hi with ⟨q, hq, rfl⟩ | hnew
        · exact hnow q ((hinvitations.keepsId q).symm.trans hkey)
        · exact nomatch hnew
    · cases haccepts : op.accepts s.store with
      | none => simpa using h.once
      | some invitation =>
        -- it was not used, and those that were accepted are
        obtain ⟨hmem, hnone⟩ := accepts_mem haccepts
        refine List.nodup_append.mpr ⟨h.once, List.nodup_singleton _, fun id hid id' hid' heq => ?_⟩
        obtain rfl := List.mem_singleton.mp hid'
        exact (h.accepted id hid).2 invitation hmem heq.symm hnone

/-- An operation that accepts no stale invitation leaves who is out. -/
theorem staysOut_of_acceptsCurrent {s : AccountState} (h : AccountInvariant s)
    (hcurrent : op.acceptsCurrent s = true) : StaysOut casing s op := by
  intro u hu hdisabled u' hu' hkey henabled
  unfold accountStep at hu'
  cases hrun : op.run casing s.store with
  | none =>
    simp only [hrun] at hu'
    rw [h.users.unique.eq hu' hu hkey, hdisabled] at henabled
    cases henabled
  | some store =>
    simp only [hrun] at hu'
    obtain ⟨f, new, hmove⟩ := (run_accountMove hrun).users
    rw [hmove.users, List.mem_append] at hu'
    rcases hu' with hold | hnew
    · obtain ⟨q, hq, rfl⟩ := List.mem_map.mp hold
      obtain rfl : q = u := h.users.unique.eq hq hu ((hmove.keepsId q).symm.trans hkey)
      rcases hmove.enabled q henabled with hwas | hswitches | ⟨invitation, haccepts, huser⟩
      · rw [hdisabled] at hwas
        cases hwas
      · exact .inl hswitches
      · refine .inr ⟨invitation, haccepts, huser, fun hstale => ?_⟩
        -- he is not enabled, so the invitation would have to be current
        simp only [AccountOp.acceptsCurrent, haccepts, Option.all_some, Bool.or_eq_true,
          Bool.not_eq_true', List.contains_eq_mem, decide_eq_false_iff_not, List.all_eq_true] at hcurrent
        rcases hcurrent with hfresh | hall
        · exact hfresh hstale
        · have hq' := hall q hq
          simp [huser, hdisabled] at hq'
    · rcases hmove.inserted with rfl | ⟨role, enabled, rfl⟩
      · exact nomatch hnew
      · have hbelow := h.users.below u hu
        obtain rfl := List.mem_singleton.mp hnew
        have hnext : s.store.db.nextId = u.id := hkey
        omega

/-- **Disabled accounts stay out.** In a run that accepts no invitation that was issued before its user was
disabled, no account comes back by one, and no invitation is accepted twice. -/
theorem disabledStaysOut_run (casing : LowerCase) (ops : List AccountOp)
    (hcurrent : Guarded (accountStep casing) (fun s op => op.acceptsCurrent s = true) {} ops) :
    DisabledStaysOut casing ops := by
  have hinv : ∀ before, AccountInvariant (run (accountStep casing) {} before) := fun before =>
    run_invariant AccountInvariant (step_accountInvariant casing) accountInvariant_empty before
  refine ⟨fun before after _ => (hinv before).oneInvitation, fun before op after hops => ?_⟩
  rw [hops, guarded_append] at hcurrent
  exact staysOut_of_acceptsCurrent (hinv before) hcurrent.2.1

/-- The operation disables nobody who has an unused invitation. -/
def AccountOp.leavesUsed (s : AccountState) (op : AccountOp) : Prop :=
  ∀ id ∈ op.leaves s.store, s.store.Spent id

/-- **Where nobody is disabled with an unused invitation**, none that is accepted is stale. -/
theorem acceptsCurrent_of_leavesUsed (casing : LowerCase) {ops : List AccountOp}
    (h : Guarded (accountStep casing) (fun s op => op.leavesUsed s) {} ops) :
    Guarded (accountStep casing) (fun s op => op.acceptsCurrent s = true) {} ops := by
  refine h.of_invariant (fun s => ∀ id ∈ s.stale, s.store.Spent id) (fun s op hstale hleaves => ⟨?_, ?_⟩) nofun
  · unfold accountStep
    cases hrun : op.run casing s.store with
    | none => exact hstale
    | some store =>
      intro id hid
      refine (run_accountMove hrun).spent ?_
      rcases List.mem_append.mp hid with hold | hnow
      · exact hstale id hold
      · exact hleaves id hnow
  · unfold AccountOp.acceptsCurrent
    cases haccepts : op.accepts s.store with
    | none => rfl
    | some invitation =>
      obtain ⟨hmem, hnone⟩ := accepts_mem haccepts
      have hfresh : invitation.id ∉ s.stale := fun hid => (hstale _ hid).used invitation hmem rfl hnone
      simp [hfresh]

/-- Texts in ASCII. -/
def asciiCase : LowerCase := ⟨lower, lower⟩

/-- Ada is provisioned with the identifier 1, and invited: invitation 2, token 3. -/
def invited : List AccountOp :=
  [.bootstrapAdmin "root@dayfinch.example" "pbkdf2", .createScimUser "ada@dayfinch.example" "ada" true,
   .createInvitation 0 "ada@dayfinch.example" 0 72]

/-- Ada accepts, is disabled, and is invited once more. -/
theorem disabledStaysOut_run_invitedAgain :
    DisabledStaysOut asciiCase (invited ++
      [.acceptInvitation 60 3 "pbkdf2", .updateScimUser 120 1 none none none (some false),
       .createInvitation 180 "ada@dayfinch.example" 0 72, .acceptInvitation 240 5 "pbkdf2"]) :=
  disabledStaysOut_run asciiCase _ (by decide +kernel)

/-- **A deprovisioned account comes back**: the identity provider disables Ada, who then accepts the
invitation that was sent before. -/
theorem disabledStaysOut_invitedBefore :
    ¬ ∀ (casing : LowerCase) (ops : List AccountOp), DisabledStaysOut casing ops := by
  intro h
  have hstays := (h asciiCase _).2 (invited ++ [.updateScimUser 120 1 none none none (some false)])
    (.acceptInvitation 240 3 "pbkdf2") [] rfl
  have hcases := hstays (newUser 1 .member false) (by decide +kernel) rfl (newUser 1 .member true)
    (by decide +kernel) rfl rfl
  rcases hcases with hswitches | ⟨invitation, haccepts, -, hcurrent⟩
  · cases hswitches
  · have hsame : (AccountOp.acceptInvitation 240 3 "pbkdf2").accepts
        (run (accountStep asciiCase) {}
          (invited ++ [.updateScimUser 120 1 none none none (some false)])).store =
        some ⟨2, 1, 3, 0, 0, minutes (60 * 72), none⟩ := by decide +kernel
    obtain rfl := Option.some.inj (hsame.symm.trans haccepts)
    refine hcurrent ?_
    decide +kernel

end Dayfinch
