/-
# Dayfinch.Integrations.Connections -- accounts connected to Jira and Asana, and when they may be used

An integration is a Jira site or an Asana workspace. Members connect their account there, either with a
grant of their own or, the one who connected the site, with the site's; `time` of a member is exported
only from an authorization period. The operations here are those that open and close such periods: to
connect and disconnect an account, to connect and disconnect a site, and to switch members and
integrations off and on.

The tables of the two providers and the functions on them are alike but for the words, so there is one
model of one provider's integrations, and `CloudProvider` holds the words.
-/
import Dayfinch.Library.Run
import Dayfinch.Schema

namespace Dayfinch

open Library (updateWhere)

/-! ## The words of a provider -/

/-- The two providers with a connection for each user. -/
inductive CloudProvider
  | jira | asana
  deriving DecidableEq, Repr

namespace CloudProvider

def name : CloudProvider → String
  | jira => "Jira"
  | asana => "Asana"

/-- What an integration is at the provider. -/
def site : CloudProvider → String
  | jira => "site"
  | asana => "workspace"

/-- What is exported there. -/
def exported : CloudProvider → String
  | jira => "worklogs"
  | asana => "comments"

def invalidSite (p : CloudProvider) : String := p.name ++ " returned an invalid " ++ p.site
def invalidUser (p : CloudProvider) : String := p.name ++ " returned an invalid user identity"
def userUnavailable (p : CloudProvider) : String := p.name ++ " integration user is unavailable"
def otherAccount (p : CloudProvider) : String :=
  "Reconnect the same " ++ p.name ++ " account that owns this user's existing " ++ p.exported
def notConnector (p : CloudProvider) : String :=
  "Only the " ++ p.name ++ " " ++ p.site ++ " connector can use this grant"
def siteUnavailable (p : CloudProvider) : String :=
  p.name ++ " " ++ p.site ++ " authorization is unavailable"
def memberUnavailable (p : CloudProvider) : String := p.name ++ " member authorization is unavailable"
def accountTaken (p : CloudProvider) : String :=
  "That " ++ p.name ++ " account is already connected to another Dayfinch user"
def connectionNotFound (p : CloudProvider) : String := p.name ++ " user connection not found"
def connectorAccount (p : CloudProvider) : String :=
  "Disconnect the " ++ p.name ++ " " ++ p.site ++ " to remove its connector account"
def integrationNotFound (p : CloudProvider) : String := p.name ++ " integration not found"

end CloudProvider

/-! ## Tables -/

/-- `integrations`, of the provider. -/
structure Integration where
  id : Nat
  resourceKey : String
  enabled : Bool
  createdByUserId : Option Nat
  deriving DecidableEq, Repr

/-- `credential_kind`. -/
inductive CredentialKind
  | site | member
  deriving DecidableEq, Repr

/-- `jira_user_connections` and `asana_user_connections`. -/
structure UserConnection where
  integrationId : Nat
  userId : Nat
  accountId : String
  displayName : String
  kind : CredentialKind
  enabled : Bool
  deriving DecidableEq, Repr

/-- `jira_user_authorization_periods` and `asana_user_authorization_periods`. -/
structure AuthorizationPeriod where
  id : Nat
  integrationId : Nat
  userId : Nat
  accountId : String
  startedAt : Int
  endedAt : Option Int
  deriving DecidableEq, Repr

/-- The tables of one provider. Of the credentials only their presence counts here, and of the exports
the account that owns them. -/
structure ConnectionStore where
  users : List User := []
  integrations : List Integration := []
  siteCredentials : List Nat := []
  memberCredentials : List (Nat × Nat) := []
  exports : List (Nat × Nat × String) := []
  connections : List UserConnection := []
  periods : List AuthorizationPeriod := []
  nextId : Nat := 0
  deriving DecidableEq, Repr

/-- The row is of this integration and this user. -/
def UserConnection.isOf (c : UserConnection) (integrationId userId : Nat) : Bool :=
  c.integrationId == integrationId && c.userId == userId

/-- The row is of this integration and this user. -/
def AuthorizationPeriod.isOf (p : AuthorizationPeriod) (integrationId userId : Nat) : Bool :=
  p.integrationId == integrationId && p.userId == userId

/-- `ended_at IS NULL`. -/
def AuthorizationPeriod.isOpen (p : AuthorizationPeriod) : Bool := p.endedAt.isNone

/-- `UPDATE .. SET ended_at=now WHERE .. AND ended_at IS NULL`. -/
def closePeriods (now : Int) (where_ : AuthorizationPeriod → Bool) (periods : List AuthorizationPeriod) :
    List AuthorizationPeriod :=
  updateWhere (fun p => p.isOpen && where_ p) (fun p => { p with endedAt := some now }) periods

/-- `CHECK(ended_at>=started_at)` refuses to end one of these periods at `now`. It can only where `now` was
read before the transaction. -/
def endsBeforeStart (now : Int) (where_ : AuthorizationPeriod → Bool) (periods : List AuthorizationPeriod) :
    Bool :=
  periods.any fun p => p.isOpen && where_ p && decide (now < p.startedAt)

/-- A period of the user for another account. -/
def AuthorizationPeriod.ofOtherAccount (integrationId userId : Nat) (accountId : String)
    (p : AuthorizationPeriod) : Bool :=
  p.isOf integrationId userId && p.accountId != accountId

namespace ConnectionStore

/-- The user exists and is enabled. -/
def userEnabled (store : ConnectionStore) (userId : Nat) : Bool :=
  store.users.any fun u => u.id == userId && u.enabled

/-- The integration exists and is enabled. -/
def integrationEnabled (store : ConnectionStore) (integrationId : Nat) : Bool :=
  store.integrations.any fun i => i.id == integrationId && i.enabled

/-- The user has an enabled connection to the integration. -/
def connectionEnabled (store : ConnectionStore) (integrationId userId : Nat) : Bool :=
  store.connections.any fun c => c.isOf integrationId userId && c.enabled

/-- The user has an open authorization period at the integration. -/
def hasOpenPeriod (store : ConnectionStore) (integrationId userId : Nat) : Bool :=
  store.periods.any fun p => p.isOf integrationId userId && p.isOpen

/-! ## Sites -/

/-- `upsert_jira_site` and `upsert_asana_workspace`. A site the provider describes wrongly is `none`. -/
def upsertSite (provider : CloudProvider) (store : ConnectionStore) (resourceKey : Option String)
    (createdByUserId : Nat) : Except Error ConnectionStore :=
  match resourceKey with
  | none => .error (.valueError provider.invalidSite)
  | some resourceKey =>
    if store.users.all (·.id != createdByUserId) then .error .foreignKeyViolation
    else if store.integrations.any (·.resourceKey == resourceKey) then
      .ok { store with
        integrations := updateWhere (·.resourceKey == resourceKey)
          (fun i => { i with enabled := true, createdByUserId := some createdByUserId })
          store.integrations }
    else
      .ok { store with
        integrations := store.integrations ++
          [{ id := store.nextId, resourceKey, enabled := true, createdByUserId := some createdByUserId }]
        nextId := store.nextId + 1 }

/-- `disconnect_jira_integration` and `disconnect_asana_integration`, with the clock they read first. -/
def disconnectIntegration (provider : CloudProvider) (now : Int) (store : ConnectionStore)
    (integrationId : Nat) : Except Error ConnectionStore := do
  raiseIf (store.integrations.all (·.id != integrationId) = true) provider.integrationNotFound
  if endsBeforeStart now (·.integrationId == integrationId) store.periods then
    .error .checkViolation
  else
    return { store with
      integrations := updateWhere (·.id == integrationId) (fun i => { i with enabled := false })
        store.integrations
      memberCredentials := store.memberCredentials.filter (·.1 != integrationId)
      periods := closePeriods now (·.integrationId == integrationId) store.periods
      connections := store.connections.filter (·.integrationId != integrationId)
      siteCredentials := store.siteCredentials.filter (· != integrationId) }

/-- `delete_unconfigured_jira_integration` and its Asana twin, which cascade; `configured` when a mapping
or a task refers to the integration. -/
def deleteUnconfigured (store : ConnectionStore) (integrationId : Nat) (configured : Bool) :
    ConnectionStore :=
  if store.siteCredentials.contains integrationId || configured then store
  else
    { store with
      integrations := store.integrations.filter (·.id != integrationId)
      memberCredentials := store.memberCredentials.filter (·.1 != integrationId)
      exports := store.exports.filter (·.1 != integrationId)
      periods := store.periods.filter (·.integrationId != integrationId)
      connections := store.connections.filter (·.integrationId != integrationId) }

/-- `set_integration_enabled`. -/
def setIntegrationEnabled (store : ConnectionStore) (integrationId : Nat) (enabled : Bool) :
    Except Error ConnectionStore := do
  raiseIf (store.integrations.all (·.id != integrationId) = true) "Integration not found"
  return { store with
    integrations := updateWhere (·.id == integrationId) (fun i => { i with enabled }) store.integrations }

/-! ## Credentials and exports -/

/-- The presence of the site's credentials, after they are stored or deleted. -/
def setSiteCredential (store : ConnectionStore) (integrationId : Nat) (present : Bool) :
    ConnectionStore :=
  if present then
    if store.integrations.any (·.id == integrationId) then
      { store with siteCredentials := integrationId :: store.siteCredentials }
    else store
  else { store with siteCredentials := store.siteCredentials.filter (· != integrationId) }

/-- The presence of a member's credentials, after they are stored or deleted. -/
def setMemberCredential (store : ConnectionStore) (integrationId userId : Nat) (present : Bool) :
    ConnectionStore :=
  if present then
    if store.integrations.any (·.id == integrationId) && store.userEnabled userId then
      { store with memberCredentials := (integrationId, userId) :: store.memberCredentials }
    else store
  else { store with memberCredentials := store.memberCredentials.filter (· != (integrationId, userId)) }

/-- An export is staged for a connected account. -/
def addExport (store : ConnectionStore) (integrationId userId : Nat) (accountId : String) :
    ConnectionStore :=
  { store with exports := (integrationId, userId, accountId) :: store.exports }

/-! ## Accounts -/

/-- `SELECT .. FROM integrations i JOIN users u .. WHERE i.enabled=TRUE`, of an enabled user. -/
def authorization (store : ConnectionStore) (integrationId userId : Nat) : Option Integration :=
  if store.userEnabled userId then
    store.integrations.find? fun i => i.id == integrationId && i.enabled
  else none

/-- The account of another user, or of this one, that owns exports. -/
def ownedByOther (store : ConnectionStore) (integrationId userId : Nat) (accountId : String) : Bool :=
  store.exports.any fun e => e.1 == integrationId && e.2.1 == userId && e.2.2 != accountId

/-- `UNIQUE(integration_id, account)`: another user of the integration has the account. -/
def accountConnected (store : ConnectionStore) (integrationId userId : Nat) (accountId : String) : Bool :=
  store.connections.any fun c =>
    c.integrationId == integrationId && c.accountId == accountId && c.userId != userId

/-- The site's grant passes to the user: no other user keeps it. -/
def takeSiteGrant (store : ConnectionStore) (integrationId userId : Nat) : ConnectionStore :=
  { store with
    connections := updateWhere
      (fun c => c.integrationId == integrationId && c.kind == .site && c.userId != userId)
      (fun c => { c with enabled := false }) store.connections
    memberCredentials := store.memberCredentials.filter (· != (integrationId, userId)) }

/-- `INSERT .. ON CONFLICT(integration_id,user_id) DO UPDATE`. -/
def putConnection (store : ConnectionStore) (row : UserConnection) : ConnectionStore :=
  if store.connections.any (·.isOf row.integrationId row.userId) then
    { store with
      connections := updateWhere (·.isOf row.integrationId row.userId) (fun _ => row)
        store.connections }
  else { store with connections := store.connections ++ [row] }

/-- The open period is kept for the same account, ended for another one, and one is begun where none is
open. -/
def beginPeriod (now : Int) (store : ConnectionStore) (integrationId userId : Nat) (accountId : String) :
    ConnectionStore :=
  let ended := closePeriods now (·.ofOtherAccount integrationId userId accountId) store.periods
  if ended.any fun p => p.isOf integrationId userId && p.isOpen then { store with periods := ended }
  else
    { store with
      periods := ended ++ [{ id := store.nextId, integrationId, userId, accountId, startedAt := now,
                             endedAt := none }]
      nextId := store.nextId + 1 }

/-- The writes of a connection. -/
def connect (now : Int) (store : ConnectionStore) (row : UserConnection) : ConnectionStore :=
  let granted :=
    if row.kind = .site then store.takeSiteGrant row.integrationId row.userId else store
  (granted.putConnection row).beginPeriod now row.integrationId row.userId row.accountId

/-- `upsert_jira_user_connection` and `upsert_asana_user_connection`, with the clock they read before the
transaction. An account that the provider describes wrongly is `none`; else it is its id and its name. -/
def upsertUserConnection (provider : CloudProvider) (now : Int) (store : ConnectionStore)
    (integrationId userId : Nat) (identity : Option (String × String)) (kind : CredentialKind) :
    Except Error ConnectionStore :=
  match identity with
  | none => .error (.valueError provider.invalidUser)
  | some (accountId, displayName) =>
    match store.authorization integrationId userId with
    | none => .error (.valueError provider.userUnavailable)
    | some integration => do
      raiseIf (store.ownedByOther integrationId userId accountId = true) provider.otherAccount
      raiseIf (kind = .site ∧ integration.createdByUserId ≠ some userId) provider.notConnector
      raiseIf (kind = .site ∧ ¬ store.siteCredentials.contains integrationId = true)
        provider.siteUnavailable
      raiseIf (kind = .member ∧ ¬ store.memberCredentials.contains (integrationId, userId) = true)
        provider.memberUnavailable
      raiseIf (store.accountConnected integrationId userId accountId = true) provider.accountTaken
      if endsBeforeStart now (·.ofOtherAccount integrationId userId accountId) store.periods then
        .error .checkViolation
      else
        return store.connect now { integrationId, userId, accountId, displayName, kind, enabled := true }

/-- `disconnect_jira_user` and `disconnect_asana_user`. -/
def disconnectUser (provider : CloudProvider) (now : Int) (store : ConnectionStore)
    (integrationId userId : Nat) : Except Error ConnectionStore :=
  match store.connections.find? (·.isOf integrationId userId) with
  | none => .error (.valueError provider.connectionNotFound)
  | some row => do
    raiseIf (row.kind = .site) provider.connectorAccount
    return { store with
      memberCredentials := store.memberCredentials.filter (· != (integrationId, userId))
      periods := closePeriods now (·.isOf integrationId userId) store.periods
      connections := store.connections.filter fun c => !c.isOf integrationId userId }

/-! ## Members -/

/-- What is withdrawn from a member who is switched off. The connection with the site's grant stays. -/
def withdraw (now : Int) (store : ConnectionStore) (userId : Nat) : ConnectionStore :=
  { store with
    periods := closePeriods now (·.userId == userId) store.periods
    memberCredentials := store.memberCredentials.filter (·.2 != userId)
    connections := store.connections.filter fun c => !(c.userId == userId && c.kind == .member) }

/-- The switch of a member. -/
def switchUser (now : Int) (store : ConnectionStore) (userId : Nat) (enabled : Bool) :
    ConnectionStore :=
  let switched := { store with
    users := updateWhere (·.id == userId) (fun u => { u with enabled }) store.users }
  if enabled then switched else switched.withdraw now userId

/-- `set_user_enabled`, on these tables. -/
def setUserEnabled (now : Int) (store : ConnectionStore) (userId : Nat) (enabled : Bool) :
    Except Error ConnectionStore := do
  raiseIf (store.users.all (·.id != userId) = true) "Member not found"
  return store.switchUser now userId enabled

/-- `role IN ('member','viewer')`. -/
def scimManaged (u : User) : Bool := u.role == .member || u.role == .viewer

/-- `update_scim_user` with a value for `enabled`; a user it does not manage is a `LookupError`. -/
def updateScimUser (now : Int) (store : ConnectionStore) (userId : Nat) (enabled : Bool) :
    ConnectionStore :=
  if store.users.any fun u => u.id == userId && scimManaged u then
    store.switchUser now userId enabled
  else store

end ConnectionStore

/-! ## Under the names of the source -/

/-- `upsert_jira_user_connection`. -/
def upsertJiraUserConnection := ConnectionStore.upsertUserConnection .jira

/-- `upsert_asana_user_connection`. -/
def upsertAsanaUserConnection := ConnectionStore.upsertUserConnection .asana

/-- `disconnect_jira_user`. -/
def disconnectJiraUser := ConnectionStore.disconnectUser .jira

/-- `disconnect_asana_user`. -/
def disconnectAsanaUser := ConnectionStore.disconnectUser .asana

/-- `disconnect_jira_integration`. -/
def disconnectJiraIntegration := ConnectionStore.disconnectIntegration .jira

/-- `disconnect_asana_integration`. -/
def disconnectAsanaIntegration := ConnectionStore.disconnectIntegration .asana

/-! ## Steps -/

/-- A call of `upsert_jira_user_connection` or `upsert_asana_user_connection` that has read its clock and
not yet made its transaction. -/
structure ConnectionCall where
  integrationId : Nat
  userId : Nat
  identity : Option (String × String)
  kind : CredentialKind
  readAt : Int
  deriving DecidableEq, Repr

/-- The tables, the server clock and the connecting calls in flight. -/
structure ConnectionState where
  store : ConnectionStore
  clock : Int
  calls : List ConnectionCall := []
  deriving DecidableEq, Repr

/-- An operation with its arguments; `tick` lets the clock move on. Connecting an account takes two steps,
in which the call reads its clock and makes its transaction, or it is lost between them.
`disconnectIntegration` has the clock it read, and the others read theirs in the transaction. -/
inductive ConnectionOp
  | tick (now : Int)
  | upsertSite (resourceKey : Option String) (createdByUserId : Nat)
  | disconnectIntegration (integrationId : Nat) (readAt : Int)
  | deleteUnconfigured (integrationId : Nat) (configured : Bool)
  | setIntegrationEnabled (integrationId : Nat) (enabled : Bool)
  | setSiteCredential (integrationId : Nat) (present : Bool)
  | setMemberCredential (integrationId userId : Nat) (present : Bool)
  | addExport (integrationId userId : Nat) (accountId : String)
  | callUserConnection (integrationId userId : Nat) (identity : Option (String × String))
      (kind : CredentialKind)
  | upsertUserConnection (call : ConnectionCall)
  | loseCall (call : ConnectionCall)
  | disconnectUser (integrationId userId : Nat)
  | setUserEnabled (userId : Nat) (enabled : Bool)
  | updateScimUser (userId : Nat) (enabled : Bool)
  deriving DecidableEq, Repr

/-- The transaction of an operation. -/
def ConnectionOp.run (provider : CloudProvider) (s : ConnectionState) :
    ConnectionOp → Except Error ConnectionStore
  | .tick _ => .ok s.store
  | .upsertSite resourceKey createdByUserId => s.store.upsertSite provider resourceKey createdByUserId
  | .disconnectIntegration integrationId readAt =>
    s.store.disconnectIntegration provider (min readAt s.clock) integrationId
  | .deleteUnconfigured integrationId configured =>
    .ok (s.store.deleteUnconfigured integrationId configured)
  | .setIntegrationEnabled integrationId enabled => s.store.setIntegrationEnabled integrationId enabled
  | .setSiteCredential integrationId present => .ok (s.store.setSiteCredential integrationId present)
  | .setMemberCredential integrationId userId present =>
    .ok (s.store.setMemberCredential integrationId userId present)
  | .addExport integrationId userId accountId => .ok (s.store.addExport integrationId userId accountId)
  | .callUserConnection .. => .ok s.store
  | .upsertUserConnection call =>
    if call ∈ s.calls then
      s.store.upsertUserConnection provider call.readAt call.integrationId call.userId call.identity
        call.kind
    else .ok s.store
  | .loseCall _ => .ok s.store
  | .disconnectUser integrationId userId =>
    s.store.disconnectUser provider s.clock integrationId userId
  | .setUserEnabled userId enabled => s.store.setUserEnabled s.clock userId enabled
  | .updateScimUser userId enabled => .ok (s.store.updateScimUser s.clock userId enabled)

/-- The tables after a call: a call that raises is rolled back. -/
def ConnectionStore.commit (store : ConnectionStore) (result : Except Error ConnectionStore) :
    ConnectionStore :=
  match result with
  | .ok store' => store'
  | .error _ => store

/-- The clock after an operation: it never goes back. -/
def ConnectionOp.clockAfter (clock : Int) : ConnectionOp → Int
  | .tick now => max clock now
  | _ => clock

/-- The calls in flight after an operation. A call is for an integration that its caller has read, and an
account that the provider describes wrongly is refused before the clock is read. -/
def ConnectionOp.callsAfter (s : ConnectionState) : ConnectionOp → List ConnectionCall
  | .callUserConnection integrationId userId identity kind =>
    if identity.isSome && s.store.integrations.any (·.id == integrationId) then
      s.calls ++ [{ integrationId, userId, identity, kind, readAt := s.clock }]
    else s.calls
  | .upsertUserConnection call => s.calls.erase call
  | .loseCall call => s.calls.erase call
  | _ => s.calls

/-- One step. -/
def connectionStep (provider : CloudProvider) (s : ConnectionState) (op : ConnectionOp) :
    ConnectionState where
  store := s.store.commit (op.run provider s)
  clock := op.clockAfter s.clock
  calls := op.callsAfter s

/-- No integration has been connected yet. -/
def ConnectionStore.withoutIntegrations (store : ConnectionStore) : ConnectionStore :=
  { users := store.users, nextId := store.nextId }

end Dayfinch
