/-
# Dayfinch.Integrations.SyncClaims -- the claims of the sync workers

A worker claims an integration for a while under a token of its own, and completes it under that token.
`sync_due` of GitHub and Asana claims several integrations at once and goes through them; Jira's claims one
at a time. A completion that does not find its token raises, and the handlers of `sync_due` do not catch
that: the integrations that the pass has claimed but not come to are left as they are.

A lease is kept by who holds it, from the claim until it is completed, or until the integration is
connected or disconnected: no two leases of one integration are unexpired (`SyncExclusive`). `settlesCurrent`
is the condition that a pass with more to go finds its token; in runs that meet it every integration that a
pass has claimed is attempted and released (`SyncIsolated`).
-/
import Dayfinch.Integrations.Importers
import Dayfinch.Library.Run

namespace Dayfinch

open Library (updateWhere mem_updateWhere_cases mem_updateWhere_of_mem mem_updateWhere_of_false orderBy
  mem_orderBy forall₂_updateWhere UniqueKey CountedKeys run Guarded guarded_append guarded_invariant)

/-! ## Tables -/

/-- `integrations`, with the columns of the sync. -/
structure SyncRow where
  id : Nat
  provider : TaskProvider
  enabled : Bool
  nextSyncAt : Int
  lastSyncAt : Option Int
  lastErrorCode : String
  consecutiveFailures : Nat
  syncClaimToken : Option Nat
  syncClaimUntil : Option Int
  deriving DecidableEq, Repr

namespace TaskProvider

/-- `limit` of the claim in `sync_due`. -/
def syncLimit : TaskProvider → Nat
  | github => 10
  | jira => 1
  | asana => 5

/-- How often `sync_due` claims. -/
def syncRounds : TaskProvider → Nat
  | jira => 10
  | github | asana => 1

/-- `lease_seconds`. -/
def syncLease : TaskProvider → Int
  | github | jira => seconds 300
  | asana => seconds 600

def claimLost (p : TaskProvider) : String := p.name ++ " integration sync claim was lost"
def invalidErrorCode (p : TaskProvider) : String := "Invalid " ++ p.name ++ " sync error code"

end TaskProvider

/-- `[a-z0-9_]{1,80}`. -/
def isSyncErrorCode (s : String) : Bool :=
  s.toList.all (fun c => c.isLower || c.isDigit || c == '_') && 1 ≤ s.length && s.length ≤ 80

/-- An error code of the services; all of them are constants. -/
structure SyncErrorCode where
  code : String
  valid : isSyncErrorCode code = true
  deriving DecidableEq, Repr

/-- `provider=.. AND enabled=TRUE AND (sync_claim_until IS NULL OR sync_claim_until < ..)`. -/
def SyncRow.claimable (r : SyncRow) (provider : TaskProvider) (now : Int) : Bool :=
  r.provider == provider && r.enabled && r.syncClaimUntil.all (· < now)

/-- The row has this token. -/
def SyncRow.claimedBy (r : SyncRow) (integrationId token : Nat) : Bool :=
  r.id == integrationId && r.syncClaimToken == some token

/-- `SET sync_claim_token=.., sync_claim_until=..`. -/
def SyncRow.claim (r : SyncRow) (token : Nat) (claimUntil : Int) : SyncRow :=
  { r with syncClaimToken := some token, syncClaimUntil := some claimUntil }

/-- `SET sync_claim_token=NULL, sync_claim_until=NULL`. -/
def SyncRow.release (r : SyncRow) : SyncRow := { r with syncClaimToken := none, syncClaimUntil := none }

/-- An integration that a worker has claimed, with the failures it had then. -/
structure SyncClaim where
  integrationId : Nat
  token : Nat
  consecutiveFailures : Nat
  deriving DecidableEq, Repr

/-! ## Claims -/

/-- The rows that `claim_due_*_integrations` takes. The rows that others have locked are skipped. -/
def dueIntegrations (provider : TaskProvider) (now : Int) (skipped : List Nat) (rows : List SyncRow) :
    List SyncRow :=
  (orderBy (·.nextSyncAt) (·.id)
    (rows.filter fun r => r.claimable provider now && r.nextSyncAt ≤ now && !skipped.contains r.id)).take
    provider.syncLimit

/-- `claim_*_integration`. -/
def claimedNow (provider : TaskProvider) (now : Int) (integrationId : Nat) (rows : List SyncRow) :
    List SyncRow :=
  rows.filter fun r => r.id == integrationId && r.claimable provider now

/-- The taken rows are claimed. -/
def claimRows (taken : List SyncRow) (token : Nat) (claimUntil : Int) (rows : List SyncRow) : List SyncRow :=
  updateWhere (fun r => (taken.map (·.id)).contains r.id) (·.claim token claimUntil) rows

/-- `renew_*_sync_claim`; GitHub has none. -/
def renewRows (provider : TaskProvider) (integrationId token : Nat) (claimUntil : Int)
    (rows : List SyncRow) : List SyncRow :=
  updateWhere (fun r => r.claimedBy integrationId token && r.provider == provider && r.enabled)
    (fun r => { r with syncClaimUntil := some claimUntil }) rows

/-! ## Completions -/

/-- An update under a token, that releases the claim. -/
def completeSync (provider : TaskProvider) (rows : List SyncRow) (current : SyncRow → Bool)
    (f : SyncRow → SyncRow) : Except Error (List SyncRow) :=
  if rows.any current then .ok (updateWhere current (fun r => (f r).release) rows)
  else .error (.valueError provider.claimLost)

/-- `mark_*_sync_succeeded`. -/
def markSyncSucceeded (provider : TaskProvider) (rows : List SyncRow) (integrationId token : Nat)
    (observedAt : Int) : Except Error (List SyncRow) :=
  completeSync provider rows (·.claimedBy integrationId token) fun r =>
    { r with
      lastSyncAt := some observedAt
      nextSyncAt := observedAt + seconds 300
      lastErrorCode := ""
      consecutiveFailures := 0 }

/-- `mark_*_sync_failed`; Asana's bounds the seconds itself. -/
def markSyncFailed (provider : TaskProvider) (rows : List SyncRow) (integrationId token : Nat)
    (observedAt : Int) (errorCode : String) (retrySeconds : Int) : Except Error (List SyncRow) :=
  let retrySeconds := if provider = .asana then min (max retrySeconds 30) 21600 else retrySeconds
  if isSyncErrorCode errorCode = false then .error (.valueError provider.invalidErrorCode)
  else
    completeSync provider rows (·.claimedBy integrationId token) fun r =>
      { r with
        nextSyncAt := observedAt + seconds retrySeconds
        lastErrorCode := errorCode
        consecutiveFailures := min (r.consecutiveFailures + 1) 1000000 }

/-- `mark_asana_sync_partial`. -/
def markAsanaSyncPartial (rows : List SyncRow) (integrationId token : Nat) (observedAt : Int) :
    Except Error (List SyncRow) :=
  completeSync .asana rows (fun r => r.claimedBy integrationId token && r.provider == .asana) fun r =>
    { r with nextSyncAt := observedAt }

/-! ## Attempts -/

/-- How the sync of a claimed integration ends, before it is completed. -/
inductive SyncAttempt
  | synchronized (hasMore : Bool)
  | integrationError (errorCode : SyncErrorCode) (retrySeconds : Int)
  | valueError
  | exception
  deriving DecidableEq, Repr

/-- `sync_claimed` of GitHub has no handler for this one. -/
def SyncAttempt.escapes (provider : TaskProvider) (attempt : SyncAttempt) : Bool :=
  provider == .github && attempt == .exception

/-- The completion at the end of an attempt. `_sync_claimed` of Asana is completed in `sync_due`, where a
lost success is completed as a failure. -/
def completion (provider : TaskProvider) (rows : List SyncRow) (claim : SyncClaim) (observedAt : Int)
    (attempt : SyncAttempt) : Except Error (List SyncRow) :=
  let succeeded := markSyncSucceeded provider rows claim.integrationId claim.token observedAt
  let failed (errorCode : String) (retrySeconds : Int) :=
    markSyncFailed provider rows claim.integrationId claim.token observedAt errorCode retrySeconds
  match provider, attempt with
  | .asana, .synchronized hasMore =>
    let marked :=
      if hasMore then markAsanaSyncPartial rows claim.integrationId claim.token observedAt else succeeded
    match marked with
    | .ok rows => .ok rows
    | .error _ => failed "internal_error" 300
  | _, .synchronized _ => succeeded
  | .github, .integrationError errorCode retrySeconds =>
    failed errorCode.code (max retrySeconds (min 21600 (60 * 2 ^ min claim.consecutiveFailures 8)))
  | _, .integrationError errorCode retrySeconds => failed errorCode.code retrySeconds
  | .github, _ => failed "invalid_configuration" 1800
  | _, _ => failed "internal_error" 300

/-! ## Passes -/

/-- How a pass has ended: it went through its integrations, or it did not find its token, or the sync of an
integration raised what nothing handles. -/
inductive PassEnd
  | finished | claimLost | raised
  deriving DecidableEq, Repr

/-- A call of `sync_due`, or of `sync_now`: how often it still claims, and the integrations that it has
claimed, those that it has come to first. -/
structure SyncDuePass where
  provider : TaskProvider
  rounds : Nat
  attempted : List SyncClaim := []
  remaining : List SyncClaim := []
  ended : Option PassEnd := none
  deriving DecidableEq, Repr

/-- A claim that is held: it was granted, and neither completed nor revoked. -/
structure SyncLease where
  integrationId : Nat
  token : Nat
  claimUntil : Int
  deriving DecidableEq, Repr

/-- The table, the clock, the supply of identifiers and tokens, the passes, and the leases. -/
structure SyncState where
  rows : List SyncRow
  clock : Int
  nextId : Nat
  passes : Nat → Option SyncDuePass
  leases : List SyncLease

namespace SyncState

/-- A pass goes on as `pass`. -/
def setPass (s : SyncState) (passId : Nat) (pass : SyncDuePass) : SyncState :=
  { s with passes := fun i => if i = passId then some pass else s.passes i }

/-- A transaction that claims the taken rows, under a new token. -/
def claim (s : SyncState) (provider : TaskProvider) (taken : List SyncRow) : SyncState :=
  { s with
    rows := claimRows taken s.nextId (s.clock + provider.syncLease) s.rows
    nextId := s.nextId + 1
    leases := s.leases ++ taken.map fun r =>
      { integrationId := r.id, token := s.nextId, claimUntil := s.clock + provider.syncLease } }

/-- The claims on the taken rows, as the worker has them. -/
def claimsOf (s : SyncState) (taken : List SyncRow) : List SyncClaim :=
  taken.map fun r =>
    { integrationId := r.id, token := s.nextId, consecutiveFailures := r.consecutiveFailures }

/-- A transaction that completes an integration. -/
def complete (s : SyncState) (claim : SyncClaim) (rows : List SyncRow) : SyncState :=
  { s with
    rows
    leases := s.leases.filter fun l =>
      !(l.integrationId == claim.integrationId && l.token == claim.token) }

/-- A transaction that releases an integration, whoever holds it. -/
def revoke (s : SyncState) (integrationId : Nat) (f : SyncRow → SyncRow) : SyncState :=
  { s with
    rows := updateWhere (·.id == integrationId) (fun r => (f r).release) s.rows
    leases := s.leases.filter (·.integrationId != integrationId) }

end SyncState

/-- A step. The time passes in steps of its own. -/
inductive SyncDueOp
  | tick (now : Int)
  | syncDue (passId : Nat) (provider : TaskProvider)
  | syncNow (passId : Nat) (provider : TaskProvider) (integrationId : Nat)
  | claimDue (passId : Nat) (skipped : List Nat) (rank : SyncRow → Nat)
  | renew (passId : Nat)
  | settle (passId : Nat) (attempt : SyncAttempt) (observedAt : Int)
  | disconnect (provider : TaskProvider) (integrationId : Nat)
  | connect (provider : TaskProvider) (integrationId : Option Nat)
  | schedule (integrationId : Nat)

/-- `sync_due` claims: nothing more, or the next integrations. `rank` is the order of the answer. -/
def claimNext (s : SyncState) (passId : Nat) (pass : SyncDuePass) (skipped : List Nat)
    (rank : SyncRow → Nat) : SyncState :=
  if pass.ended.isSome ∨ pass.remaining ≠ [] then s
  else
    let taken := dueIntegrations pass.provider s.clock skipped s.rows
    if pass.rounds = 0 ∨ taken = [] then s.setPass passId { pass with ended := some .finished }
    else
      (s.claim pass.provider taken).setPass passId
        { pass with
          rounds := pass.rounds - 1
          remaining := s.claimsOf (orderBy rank (fun _ => 0) taken) }

/-- The pass completes the integration that it has come to. -/
def settleNext (s : SyncState) (passId : Nat) (pass : SyncDuePass) (attempt : SyncAttempt)
    (observedAt : Int) : SyncState :=
  match pass.ended, pass.remaining with
  | none, claim :: remaining =>
    if attempt.escapes pass.provider then s.setPass passId { pass with ended := some .raised }
    else
      let attempted := pass.attempted ++ [claim]
      match completion pass.provider s.rows claim observedAt attempt with
      | .ok rows => (s.complete claim rows).setPass passId { pass with attempted, remaining }
      | .error _ => s.setPass passId { pass with attempted, remaining, ended := some .claimLost }
  | _, _ => s

/-- The pass renews the claim of the integration that it has come to. -/
def renewNext (s : SyncState) (pass : SyncDuePass) : SyncState :=
  match pass.remaining with
  | [] => s
  | claim :: _ =>
    if pass.provider = .github then s
    else
      { s with
        rows := renewRows pass.provider claim.integrationId claim.token
          (s.clock + pass.provider.syncLease) s.rows
        leases :=
          if s.rows.any fun r =>
            r.claimedBy claim.integrationId claim.token && r.provider == pass.provider && r.enabled then
            updateWhere (fun l => l.integrationId == claim.integrationId && l.token == claim.token)
              (fun l => { l with claimUntil := s.clock + pass.provider.syncLease }) s.leases
          else s.leases }

/-- The row of a new integration. -/
def newSyncRow (id : Nat) (provider : TaskProvider) (now : Int) : SyncRow where
  id := id
  provider := provider
  enabled := true
  nextSyncAt := now
  lastSyncAt := none
  lastErrorCode := ""
  consecutiveFailures := 0
  syncClaimToken := none
  syncClaimUntil := none

/-- One step. -/
def syncDueStep (s : SyncState) : SyncDueOp → SyncState
  | .tick now => { s with clock := max s.clock now }
  | .syncDue passId provider =>
    if (s.passes passId).isSome then s else s.setPass passId { provider, rounds := provider.syncRounds }
  | .syncNow passId provider integrationId =>
    let taken := claimedNow provider s.clock integrationId s.rows
    if (s.passes passId).isSome ∨ taken = [] then s
    else
      (s.claim provider taken).setPass passId { provider, rounds := 0, remaining := s.claimsOf taken }
  | .claimDue passId skipped rank =>
    match s.passes passId with
    | none => s
    | some pass => claimNext s passId pass skipped rank
  | .renew passId =>
    match s.passes passId with
    | none => s
    | some pass => renewNext s pass
  | .settle passId attempt observedAt =>
    match s.passes passId with
    | none => s
    | some pass => settleNext s passId pass attempt observedAt
  | .disconnect provider integrationId =>
    if s.rows.any fun r => r.id == integrationId && r.provider == provider then
      s.revoke integrationId fun r => { r with enabled := false }
    else s
  | .connect provider none =>
    { s with rows := s.rows ++ [newSyncRow s.nextId provider s.clock], nextId := s.nextId + 1 }
  | .connect provider (some integrationId) =>
    if s.rows.any fun r => r.id == integrationId && r.provider == provider then
      s.revoke integrationId fun r =>
        { r with enabled := true, nextSyncAt := s.clock, lastErrorCode := "", consecutiveFailures := 0 }
    else s
  | .schedule integrationId =>
    { s with
      rows := updateWhere (·.id == integrationId) (fun r => { r with nextSyncAt := s.clock }) s.rows }

/-- No pass has begun. -/
def SyncState.start (clock : Int) : SyncState where
  rows := []
  clock := clock
  nextId := 0
  passes := fun _ => none
  leases := []

/-! ## The properties -/

/-- At most one lease of an integration is unexpired. -/
def SyncExclusive (s : SyncState) : Prop :=
  ∀ l ∈ s.leases, ∀ l' ∈ s.leases, l.integrationId = l'.integrationId →
    s.clock ≤ l.claimUntil → s.clock ≤ l'.claimUntil → l = l'

/-- A completion changes the integration that the pass has come to, where the token is current, and no
other row. -/
def SettlesOwn (s : SyncState) (passId : Nat) (attempt : SyncAttempt) (observedAt : Int) : Prop :=
  List.Forall₂
    (fun r r' => r' = r ∨ ∃ pass claim, s.passes passId = some pass ∧
      pass.remaining.head? = some claim ∧ r.claimedBy claim.integrationId claim.token = true)
    s.rows (syncDueStep s (.settle passId attempt observedAt)).rows

/-- A pass that has ended, and not by an exception of its own, has come to every integration that it has
claimed, and holds none of them. -/
def SyncIsolated (s : SyncState) : Prop :=
  ∀ passId pass, s.passes passId = some pass →
    pass.ended = some .finished ∨ pass.ended = some .claimLost →
    pass.remaining = [] ∧
      ∀ claim ∈ pass.attempted, ∀ r ∈ s.rows, r.claimedBy claim.integrationId claim.token = false

/-- **Claims are exclusive and isolated** in every state of the run. -/
structure ClaimsExclusiveIsolated (s : SyncState) : Prop where
  exclusive : SyncExclusive s
  own : ∀ passId attempt observedAt, SettlesOwn s passId attempt observedAt
  isolated : SyncIsolated s

/-! ## The condition -/

/-- A pass that still has other integrations to come to finds its token when it completes one. -/
def SyncDueOp.settlesCurrent (s : SyncState) : SyncDueOp → Bool
  | .settle passId attempt _ =>
    (s.passes passId).all fun pass =>
      match pass.ended, pass.remaining with
      | none, claim :: remaining =>
        remaining.isEmpty || attempt.escapes pass.provider ||
          s.rows.any (·.claimedBy claim.integrationId claim.token)
      | _, _ => true
  | _ => true

/-! ## What a completion does -/

section

variable {provider : TaskProvider} {rows rows' : List SyncRow} {claim : SyncClaim} {observedAt : Int}
variable {attempt : SyncAttempt} {current : SyncRow → Bool}

/-- A completion releases rows, all of them under the token, and keeps the identifiers. -/
structure Completes (claim : SyncClaim) (rows rows' : List SyncRow) (current : SyncRow → Bool)
    (f : SyncRow → SyncRow) : Prop where
  rewritten : rows' = updateWhere current (fun r => (f r).release) rows
  own : ∀ r, current r = true → r.claimedBy claim.integrationId claim.token = true
  keepsId : ∀ r, (f r).id = r.id
  found : ∃ r ∈ rows, current r = true

theorem completeSync_completes {f : SyncRow → SyncRow}
    (h : completeSync provider rows current f = .ok rows') (hid : ∀ r, (f r).id = r.id)
    (hown : ∀ r, current r = true → r.claimedBy claim.integrationId claim.token = true) :
    Completes claim rows rows' current f := by
  unfold completeSync at h
  split at h
  · rename_i hfound
    cases h
    exact ⟨rfl, hown, hid, List.any_eq_true.mp hfound⟩
  · cases h

theorem markSyncSucceeded_completes
    (h : markSyncSucceeded provider rows claim.integrationId claim.token observedAt = .ok rows') :
    ∃ current f, Completes claim rows rows' current f :=
  ⟨_, _, completeSync_completes h (fun _ => rfl) fun _ h => h⟩

theorem markSyncFailed_completes {errorCode : String} {retrySeconds : Int}
    (h : markSyncFailed provider rows claim.integrationId claim.token observedAt errorCode retrySeconds =
      .ok rows') : ∃ current f, Completes claim rows rows' current f := by
  unfold markSyncFailed at h
  dsimp only at h
  split at h
  · cases h
  · exact ⟨_, _, completeSync_completes h (fun _ => rfl) fun _ h => h⟩

/-- **A completion** changes nothing but rows under its token. -/
theorem completion_completes (h : completion provider rows claim observedAt attempt = .ok rows') :
    ∃ current f, Completes claim rows rows' current f := by
  unfold completion at h
  dsimp only at h
  split at h
  · split at h
    · rename_i hmarked
      cases h
      split at hmarked
      · exact ⟨_, _, completeSync_completes hmarked (fun _ => rfl) fun _ hr =>
          (Bool.and_eq_true_iff.mp hr).1⟩
      · exact markSyncSucceeded_completes hmarked
    · exact markSyncFailed_completes h
  · exact markSyncSucceeded_completes h
  · exact markSyncFailed_completes h
  · exact markSyncFailed_completes h
  · exact markSyncFailed_completes h
  · exact markSyncFailed_completes h

theorem markSyncFailed_ok {errorCode : String} {retrySeconds : Int}
    (hcode : isSyncErrorCode errorCode = true)
    (h : rows.any (·.claimedBy claim.integrationId claim.token) = true) :
    ∃ rows', markSyncFailed provider rows claim.integrationId claim.token observedAt errorCode
      retrySeconds = .ok rows' := by
  simp only [markSyncFailed, hcode, completeSync, h]
  exact ⟨_, rfl⟩

theorem markSyncSucceeded_ok (h : rows.any (·.claimedBy claim.integrationId claim.token) = true) :
    ∃ rows', markSyncSucceeded provider rows claim.integrationId claim.token observedAt = .ok rows' := by
  simp only [markSyncSucceeded, completeSync, h]
  exact ⟨_, rfl⟩

/-- **A completion that finds its token does not raise.** -/
theorem completion_ok (h : rows.any (·.claimedBy claim.integrationId claim.token) = true) :
    ∃ rows', completion provider rows claim observedAt attempt = .ok rows' := by
  unfold completion
  dsimp only
  split
  · split
    · exact ⟨_, rfl⟩
    · exact markSyncFailed_ok (by decide) h
  · exact markSyncSucceeded_ok h
  · exact markSyncFailed_ok (SyncErrorCode.valid _) h
  · exact markSyncFailed_ok (SyncErrorCode.valid _) h
  · exact markSyncFailed_ok (by decide) h
  · exact markSyncFailed_ok (by decide) h

end

/-! ## The invariant -/

variable {s s' : SyncState}

/-- A pass against the table: its tokens were drawn, what it has come to it does not hold, and it has come
to everything where it has ended. -/
structure SyncPassInvariant (s : SyncState) (pass : SyncDuePass) : Prop where
  drawn : ∀ claim ∈ pass.attempted ++ pass.remaining, claim.token < s.nextId
  released : ∀ claim ∈ pass.attempted, ∀ r ∈ s.rows, r.claimedBy claim.integrationId claim.token = false
  ended : pass.ended = some .finished ∨ pass.ended = some .claimLost → pass.remaining = []

/-- The table: identifiers and tokens were drawn from the supply, and an unexpired lease is on its row. -/
structure TableInvariant (s : SyncState) : Prop where
  rows : CountedKeys (·.id) s.rows s.nextId
  tokens : ∀ r ∈ s.rows, ∀ token, r.syncClaimToken = some token → token < s.nextId
  leases : ∀ l ∈ s.leases, s.clock ≤ l.claimUntil →
    ∃ r ∈ s.rows, r.claimedBy l.integrationId l.token = true ∧ r.syncClaimUntil = some l.claimUntil

structure SyncInvariant (s : SyncState) : Prop where
  table : TableInvariant s
  passes : ∀ passId pass, s.passes passId = some pass → SyncPassInvariant s pass

theorem claimedBy_iff {r : SyncRow} {integrationId token : Nat} :
    r.claimedBy integrationId token = true ↔ r.id = integrationId ∧ r.syncClaimToken = some token := by
  simp [SyncRow.claimedBy]

/-- **Leases exclude each other**: each is on the row of its integration, which has one token. -/
theorem TableInvariant.exclusive (h : TableInvariant s) : SyncExclusive s := by
  intro l hl l' hl' hsame hlive hlive'
  obtain ⟨r, hr, hclaimed, huntil⟩ := h.leases l hl hlive
  obtain ⟨r', hr', hclaimed', huntil'⟩ := h.leases l' hl' hlive'
  obtain ⟨hid, htoken⟩ := claimedBy_iff.mp hclaimed
  obtain ⟨hid', htoken'⟩ := claimedBy_iff.mp hclaimed'
  obtain rfl : r = r' := h.rows.unique.eq hr hr' (by rw [hid, hid', hsame])
  have htokens : l.token = l'.token := Option.some.inj (htoken.symm.trans htoken')
  have huntils : l.claimUntil = l'.claimUntil := Option.some.inj (huntil.symm.trans huntil')
  cases l
  cases l'
  cases hsame
  cases htokens
  cases huntils
  rfl

/-! ## Where tokens go -/

/-- A step puts new tokens only, and keeps the others where they are. -/
structure TokenMove (s s' : SyncState) : Prop where
  nextId : s.nextId ≤ s'.nextId
  kept : ∀ r' ∈ s'.rows, ∀ token, token < s.nextId → r'.syncClaimToken = some token →
    ∃ r ∈ s.rows, r.id = r'.id ∧ r.syncClaimToken = some token

/-- What a pass knows of the table stays true. -/
theorem SyncPassInvariant.move {pass : SyncDuePass} (h : SyncPassInvariant s pass) (hmove : TokenMove s s') :
    SyncPassInvariant s' pass where
  drawn claim hclaim := lt_of_lt_of_le (h.drawn claim hclaim) hmove.nextId
  released claim hclaim r' hr' := by
    refine Bool.eq_false_iff.mpr fun hclaimed => ?_
    obtain ⟨hid, htoken⟩ := claimedBy_iff.mp hclaimed
    have hdrawn := h.drawn claim (List.mem_append_left _ hclaim)
    obtain ⟨r, hr, hid', htoken'⟩ := hmove.kept r' hr' claim.token hdrawn htoken
    have hfree := h.released claim hclaim r hr
    rw [claimedBy_iff.mpr ⟨hid'.trans hid, htoken'⟩] at hfree
    cases hfree
  ended := h.ended

/-- A step of a pass. -/
theorem SyncInvariant.setPass (h : SyncInvariant s) (hmove : TokenMove s s') (htable : TableInvariant s')
    (hpasses : s'.passes = s.passes) {passId : Nat} {pass : SyncDuePass} (hpass : SyncPassInvariant s' pass) :
    SyncInvariant (s'.setPass passId pass) where
  table := ⟨htable.rows, htable.tokens, htable.leases⟩
  passes i p hi := by
    have hp : SyncPassInvariant s' p := by
      by_cases hself : i = passId
      · obtain rfl := Option.some.inj ((if_pos hself).symm.trans hi)
        exact hpass
      · have hother : s.passes i = some p := hpasses ▸ (if_neg hself).symm.trans hi
        exact (h.passes i p hother).move hmove
    exact ⟨hp.drawn, hp.released, hp.ended⟩

/-- A step that touches no pass. -/
theorem SyncInvariant.rest (h : SyncInvariant s) (hmove : TokenMove s s') (htable : TableInvariant s')
    (hpasses : s'.passes = s.passes) : SyncInvariant s' where
  table := htable
  passes i pass hi := (h.passes i pass (hpasses ▸ hi)).move hmove

theorem TokenMove.refl (hrows : s'.rows = s.rows) (hnext : s'.nextId = s.nextId) : TokenMove s s' where
  nextId := hnext.ge
  kept r' hr' _ _ htoken := ⟨r', hrows ▸ hr', rfl, htoken⟩

/-- An update of rows that keeps or removes their tokens. -/
theorem TokenMove.update {p : SyncRow → Bool} {f : SyncRow → SyncRow}
    (hrows : s'.rows = updateWhere p f s.rows) (hnext : s'.nextId = s.nextId)
    (hid : ∀ r, (f r).id = r.id)
    (htoken : ∀ r, (f r).syncClaimToken = none ∨ (f r).syncClaimToken = r.syncClaimToken) :
    TokenMove s s' where
  nextId := hnext.ge
  kept r' hr' token _ hr'token := by
    rw [hrows] at hr'
    rcases mem_updateWhere_cases hr' with ⟨hold, _⟩ | ⟨q, hq, _, rfl⟩
    · exact ⟨r', hold, rfl, hr'token⟩
    · refine ⟨q, hq, (hid q).symm, ?_⟩
      rcases htoken q with hnone | hsame
      · rw [hnone] at hr'token
        cases hr'token
      · exact hsame.symm.trans hr'token

/-- The table after such an update: `hleases` is left. -/
theorem TableInvariant.update (h : TableInvariant s) {p : SyncRow → Bool} {f : SyncRow → SyncRow}
    (hrows : s'.rows = updateWhere p f s.rows) (hnext : s'.nextId = s.nextId)
    (hid : ∀ r, (f r).id = r.id)
    (htoken : ∀ r, (f r).syncClaimToken = none ∨ (f r).syncClaimToken = r.syncClaimToken)
    (hleases : ∀ l ∈ s'.leases, s'.clock ≤ l.claimUntil → ∃ r ∈ updateWhere p f s.rows,
      r.claimedBy l.integrationId l.token = true ∧ r.syncClaimUntil = some l.claimUntil) :
    TableInvariant s' where
  rows := by
    rw [hrows, hnext]
    exact h.rows.updateWhere hid
  tokens r' hr' := by
    have hbelow : ∀ r ∈ updateWhere p f s.rows, ∀ token, r.syncClaimToken = some token →
        token < s.nextId := by
      intro r hr token hr'token
      rcases mem_updateWhere_cases hr with ⟨hold, _⟩ | ⟨q, hq, _, rfl⟩
      · exact h.tokens r hold token hr'token
      · rcases htoken q with hnone | hsame
        · rw [hnone] at hr'token
          cases hr'token
        · exact h.tokens q hq token (hsame.symm.trans hr'token)
    rw [hnext]
    exact hbelow r' (hrows ▸ hr')
  leases := by
    rw [hrows]
    exact hleases

/-! ## Claims -/

/-- What a claim takes: rows whose claim is open. -/
def Claimable (s : SyncState) (provider : TaskProvider) (taken : List SyncRow) : Prop :=
  ∀ r ∈ taken, r ∈ s.rows ∧ r.claimable provider s.clock = true

theorem claimable_due (s : SyncState) (provider : TaskProvider) (skipped : List Nat) :
    Claimable s provider (dueIntegrations provider s.clock skipped s.rows) := by
  intro r hr
  have hfiltered := mem_orderBy.mp (List.mem_of_mem_take hr)
  obtain ⟨hmem, hsel⟩ := List.mem_filter.mp hfiltered
  simp only [Bool.and_eq_true] at hsel
  exact ⟨hmem, hsel.1.1⟩

theorem claimable_now (s : SyncState) (provider : TaskProvider) (integrationId : Nat) :
    Claimable s provider (claimedNow provider s.clock integrationId s.rows) := by
  intro r hr
  obtain ⟨hmem, hsel⟩ := List.mem_filter.mp hr
  exact ⟨hmem, (Bool.and_eq_true_iff.mp hsel).2⟩

variable {provider : TaskProvider} {taken : List SyncRow}

theorem claim_move : TokenMove s (s.claim provider taken) where
  nextId := Nat.le_succ _
  kept r' hr' token hlt htoken := by
    rcases mem_updateWhere_cases hr' with ⟨hold, _⟩ | ⟨q, _, _, rfl⟩
    · exact ⟨r', hold, rfl, htoken⟩
    · obtain rfl : s.nextId = token := Option.some.inj htoken
      exact absurd hlt (lt_irrefl _)

/-- **A claim** takes no row that is held. -/
theorem TableInvariant.claim (h : TableInvariant s) (htaken : Claimable s provider taken) :
    TableInvariant (s.claim provider taken) where
  rows := by
    refine CountedKeys.mono ?_ (Nat.le_succ s.nextId)
    exact h.rows.updateWhere fun _ => rfl
  tokens r' hr' token htoken := by
    rcases mem_updateWhere_cases hr' with ⟨hold, _⟩ | ⟨q, _, _, rfl⟩
    · exact Nat.lt_succ_of_lt (h.tokens r' hold token htoken)
    · obtain rfl : s.nextId = token := Option.some.inj htoken
      exact Nat.lt_succ_self _
  leases l hl hlive := by
    rcases List.mem_append.mp hl with hold | hnew
    · obtain ⟨r, hr, hclaimed, huntil⟩ := h.leases l hold hlive
      refine ⟨r, mem_updateWhere_of_false hr (Bool.eq_false_iff.mpr fun hsel => ?_), hclaimed, huntil⟩
      -- a row that was taken had no unexpired claim
      rw [List.contains_iff_mem] at hsel
      obtain ⟨q, hq, hid⟩ := List.mem_map.mp hsel
      obtain ⟨hmem, hopen⟩ := htaken q hq
      obtain rfl : q = r := h.rows.unique.eq hmem hr hid
      simp only [SyncRow.claimable, huntil, Option.all_some, Bool.and_eq_true, decide_eq_true_eq] at hopen
      have hexpired := hopen.2
      have hlive' : s.clock ≤ l.claimUntil := hlive
      omega
    · obtain ⟨r, hr, rfl⟩ := List.mem_map.mp hnew
      have hsel : ((taken.map (·.id)).contains r.id) = true :=
        List.contains_iff_mem.mpr (List.mem_map_of_mem hr)
      refine ⟨_, mem_updateWhere_of_mem (htaken r hr).1, ?_, ?_⟩
      · rw [if_pos hsel]
        exact claimedBy_iff.mpr ⟨rfl, rfl⟩
      · rw [if_pos hsel]
        rfl

/-! ## Revocations and renewals -/

theorem revoke_move {integrationId : Nat} {f : SyncRow → SyncRow} (hid : ∀ r, (f r).id = r.id) :
    TokenMove s (s.revoke integrationId f) :=
  .update rfl rfl hid fun _ => .inl rfl

theorem TableInvariant.revoke (h : TableInvariant s) {integrationId : Nat} {f : SyncRow → SyncRow}
    (hid : ∀ r, (f r).id = r.id) : TableInvariant (s.revoke integrationId f) := by
  refine h.update rfl rfl hid (fun _ => .inl rfl) fun l hl hlive => ?_
  obtain ⟨hold, hother⟩ := List.mem_filter.mp hl
  obtain ⟨r, hr, hclaimed, huntil⟩ := h.leases l hold hlive
  refine ⟨r, mem_updateWhere_of_false hr ?_, hclaimed, huntil⟩
  rw [(claimedBy_iff.mp hclaimed).1]
  exact (bne_iff_ne.mp hother) |> beq_eq_false_iff_ne.mpr

/-- A lease is renewed with its row. -/
theorem TableInvariant.renew (h : TableInvariant s) (pass : SyncDuePass) :
    TableInvariant (renewNext s pass) := by
  unfold renewNext
  split
  · exact h
  · rename_i claim _ _
    split
    · exact h
    · refine h.update rfl rfl (fun _ => rfl) (fun _ => .inr rfl) fun l hl hlive => ?_
      dsimp only at hl hlive
      split at hl
      · rename_i hany
        obtain ⟨r, hr, hsel⟩ := List.any_eq_true.mp hany
        rcases mem_updateWhere_cases hl with ⟨hold, hoff⟩ | ⟨q, _, hq, rfl⟩
        · -- a lease under another token is not on the renewed row
          obtain ⟨r', hr', hclaimed, huntil⟩ := h.leases l hold hlive
          refine ⟨r', mem_updateWhere_of_false hr' (Bool.eq_false_iff.mpr fun hsel' => ?_), hclaimed, huntil⟩
          simp only [Bool.and_eq_true, claimedBy_iff] at hsel'
          obtain ⟨hid', htoken'⟩ := claimedBy_iff.mp hclaimed
          have hself : (l.integrationId == claim.integrationId && l.token == claim.token) = true := by
            rw [Bool.and_eq_true, beq_iff_eq, beq_iff_eq]
            exact ⟨hid'.symm.trans hsel'.1.1.1, Option.some.inj (htoken'.symm.trans hsel'.1.1.2)⟩
          rw [hself] at hoff
          cases hoff
        · rw [Bool.and_eq_true, beq_iff_eq, beq_iff_eq] at hq
          refine ⟨_, mem_updateWhere_of_mem hr, ?_, ?_⟩
          · rw [if_pos hsel, hq.1, hq.2]
            simp only [Bool.and_eq_true] at hsel
            exact hsel.1.1
          · rw [if_pos hsel]
      · rename_i hany
        obtain ⟨r, hr, hclaimed, huntil⟩ := h.leases l hl hlive
        refine ⟨r, mem_updateWhere_of_false hr (Bool.eq_false_iff.mpr fun hsel => hany ?_), hclaimed, huntil⟩
        exact List.any_eq_true.mpr ⟨r, hr, hsel⟩

theorem renew_move (pass : SyncDuePass) : TokenMove s (renewNext s pass) := by
  unfold renewNext
  split
  · exact .refl rfl rfl
  · split
    · exact .refl rfl rfl
    · exact .update rfl rfl (fun _ => rfl) fun _ => .inr rfl

theorem renewNext_passes (pass : SyncDuePass) : (renewNext s pass).passes = s.passes := by
  unfold renewNext
  split
  · rfl
  · split
    · rfl
    · rfl

/-! ## Completions -/

section

variable {claim : SyncClaim} {rows : List SyncRow} {current : SyncRow → Bool} {f : SyncRow → SyncRow}

theorem complete_move (h : Completes claim s.rows rows current f) :
    TokenMove s (s.complete claim rows) :=
  .update h.rewritten rfl h.keepsId fun _ => .inl rfl

theorem TableInvariant.complete (hinv : TableInvariant s) (h : Completes claim s.rows rows current f) :
    TableInvariant (s.complete claim rows) := by
  refine hinv.update h.rewritten rfl h.keepsId (fun _ => .inl rfl) fun l hl hlive => ?_
  obtain ⟨hold, hother⟩ := List.mem_filter.mp hl
  obtain ⟨r, hr, hclaimed, huntil⟩ := hinv.leases l hold hlive
  refine ⟨r, mem_updateWhere_of_false hr (Bool.eq_false_iff.mpr fun hsel => ?_), hclaimed, huntil⟩
  obtain ⟨hid, htoken⟩ := claimedBy_iff.mp hclaimed
  obtain ⟨hid', htoken'⟩ := claimedBy_iff.mp (h.own r hsel)
  have hself : (l.integrationId == claim.integrationId && l.token == claim.token) = true := by
    rw [Bool.and_eq_true, beq_iff_eq, beq_iff_eq]
    exact ⟨hid.symm.trans hid', Option.some.inj (htoken.symm.trans htoken')⟩
  rw [hself] at hother
  cases hother

/-- **A completion releases**: afterwards no row is under the token. -/
theorem Completes.released (h : Completes claim s.rows rows current f) (hkeys : UniqueKey (·.id) s.rows) :
    ∀ r ∈ rows, r.claimedBy claim.integrationId claim.token = false := by
  intro r hr
  refine Bool.eq_false_iff.mpr fun hclaimed => ?_
  obtain ⟨hid, htoken⟩ := claimedBy_iff.mp hclaimed
  rw [h.rewritten] at hr
  rcases mem_updateWhere_cases hr with ⟨hold, hoff⟩ | ⟨q, _, _, rfl⟩
  · obtain ⟨q, hq, hon⟩ := h.found
    obtain rfl : q = r := hkeys.eq hq hold ((claimedBy_iff.mp (h.own q hon)).1.trans hid.symm)
    rw [hon] at hoff
    cases hoff
  · cases htoken

end

/-- What a pass has come to is released, with the integration that it completes or has lost. -/
theorem SyncPassInvariant.attempt {pass : SyncDuePass} (h : SyncPassInvariant s pass) {claim : SyncClaim}
    {remaining : List SyncClaim} (hremaining : pass.remaining = claim :: remaining)
    (hreleased : ∀ r ∈ s.rows, r.claimedBy claim.integrationId claim.token = false)
    {ended : Option PassEnd}
    (hended : ended = some .finished ∨ ended = some .claimLost → remaining = []) :
    SyncPassInvariant s { pass with attempted := pass.attempted ++ [claim], remaining, ended } where
  drawn := by
    have hdrawn := h.drawn
    rw [hremaining] at hdrawn
    simpa using hdrawn
  released := by
    intro c hc
    rcases List.mem_append.mp hc with hold | hnew
    · exact h.released c hold
    · rw [List.mem_singleton.mp hnew]
      exact hreleased
  ended := hended

/-- **A completion step.** -/
theorem settle_invariant (h : SyncInvariant s) {passId : Nat} {pass : SyncDuePass}
    (hpass : s.passes passId = some pass) {attempt : SyncAttempt} {observedAt : Int}
    (hcurrent : (SyncDueOp.settle passId attempt observedAt).settlesCurrent s = true) :
    SyncInvariant (settleNext s passId pass attempt observedAt) := by
  have hinv := h.passes passId pass hpass
  simp only [SyncDueOp.settlesCurrent, hpass, Option.all_some] at hcurrent
  unfold settleNext
  split
  · rename_i claim remaining hrunning hremaining
    rw [hrunning, hremaining] at hcurrent
    dsimp only at hcurrent ⊢
    split
    · refine h.setPass (.refl rfl rfl) h.table rfl ⟨hinv.drawn, hinv.released, fun hended => ?_⟩
      rcases hended with hended | hended <;> cases hended
    · rename_i hhandled
      cases hcompletion : completion pass.provider s.rows claim observedAt attempt with
      | ok rows =>
        obtain ⟨current, f, hcompletes⟩ := completion_completes hcompletion
        refine h.setPass (complete_move hcompletes) (h.table.complete hcompletes) rfl ?_
        refine (hinv.move (complete_move hcompletes)).attempt hremaining
          (hcompletes.released h.table.rows.unique) fun hended => ?_
        rw [hrunning] at hended
        rcases hended with hended | hended <;> cases hended
      | error e =>
        have hlost : ∀ r ∈ s.rows, r.claimedBy claim.integrationId claim.token = false := by
          intro r hr
          refine Bool.eq_false_iff.mpr fun hfound => ?_
          have hany : s.rows.any (·.claimedBy claim.integrationId claim.token) = true :=
            List.any_eq_true.mpr ⟨r, hr, hfound⟩
          obtain ⟨rows, hrows⟩ :
              ∃ rows, completion pass.provider s.rows claim observedAt attempt = .ok rows :=
            completion_ok hany
          rw [hrows] at hcompletion
          cases hcompletion
        refine h.setPass (.refl rfl rfl) h.table rfl (hinv.attempt hremaining hlost fun _ => ?_)
        have hnone : s.rows.any (·.claimedBy claim.integrationId claim.token) = false :=
          List.any_eq_false.mpr fun r hr => by rw [hlost r hr]; exact Bool.false_ne_true
        rw [hnone, Bool.or_false, Bool.or_eq_true] at hcurrent
        rcases hcurrent with hlast | hescapes
        · exact List.isEmpty_iff.mp hlast
        · exact absurd hescapes hhandled
  · exact h

/-! ## Steps and runs -/

/-- The claims of a pass on the rows that it takes. -/
theorem claimsOf_token {claim : SyncClaim} (h : claim ∈ s.claimsOf taken) : claim.token = s.nextId := by
  obtain ⟨r, _, rfl⟩ := List.mem_map.mp h
  rfl

/-- A claiming step of a pass that has nothing left to come to. -/
theorem claimNext_invariant (h : SyncInvariant s) {passId : Nat} {pass : SyncDuePass}
    (hpass : s.passes passId = some pass) (skipped : List Nat) (rank : SyncRow → Nat) :
    SyncInvariant (claimNext s passId pass skipped rank) := by
  have hinv := h.passes passId pass hpass
  unfold claimNext
  split
  · exact h
  · rename_i hidle
    rw [not_or, not_not] at hidle
    dsimp only
    split
    · exact h.setPass (.refl rfl rfl) h.table rfl ⟨hinv.drawn, hinv.released, fun _ => hidle.2⟩
    · have hmove : TokenMove s (s.claim pass.provider (dueIntegrations pass.provider s.clock skipped s.rows)) :=
        claim_move
      refine h.setPass hmove (h.table.claim (claimable_due s pass.provider skipped)) rfl
        ⟨fun claim hclaim => ?_, (hinv.move hmove).released, fun hended => ?_⟩
      · rcases List.mem_append.mp hclaim with hold | hnew
        · exact Nat.lt_succ_of_lt (hinv.drawn claim (List.mem_append_left _ hold))
        · rw [claimsOf_token hnew]
          exact Nat.lt_succ_self _
      · have hnone : pass.ended = none := by simpa using hidle.1
        rw [hnone] at hended
        rcases hended with hended | hended <;> cases hended

/-- **One step** keeps the invariant, where a pass with more to go finds its token. -/
theorem syncDueStep_invariant (h : SyncInvariant s) {op : SyncDueOp} (hcurrent : op.settlesCurrent s = true) :
    SyncInvariant (syncDueStep s op) := by
  cases op with
  | tick now =>
    refine h.rest (.refl rfl rfl) ⟨h.table.rows, h.table.tokens, fun l hl hlive => ?_⟩ rfl
    exact h.table.leases l hl (le_trans (le_max_left _ _) hlive)
  | syncDue passId provider =>
    simp only [syncDueStep]
    split
    · exact h
    · refine h.setPass (.refl rfl rfl) h.table rfl ⟨nofun, nofun, fun _ => rfl⟩
  | syncNow passId provider integrationId =>
    simp only [syncDueStep]
    split
    · exact h
    · refine h.setPass claim_move (h.table.claim (claimable_now s provider integrationId)) rfl
        ⟨fun claim hclaim => ?_, nofun, fun hended => ?_⟩
      · rw [claimsOf_token hclaim]
        exact Nat.lt_succ_self _
      · rcases hended with hended | hended <;> cases hended
  | claimDue passId skipped rank =>
    simp only [syncDueStep]
    cases hpass : s.passes passId with
    | none => exact h
    | some pass => exact claimNext_invariant h hpass skipped rank
  | renew passId =>
    simp only [syncDueStep]
    cases hpass : s.passes passId with
    | none => exact h
    | some pass => exact h.rest (renew_move pass) (h.table.renew pass) (renewNext_passes pass)
  | settle passId attempt observedAt =>
    cases hpass : s.passes passId with
    | none => simpa only [syncDueStep, hpass] using h
    | some pass => simpa only [syncDueStep, hpass] using settle_invariant h hpass hcurrent
  | disconnect provider integrationId =>
    simp only [syncDueStep]
    split
    · exact h.rest (revoke_move fun _ => rfl) (h.table.revoke fun _ => rfl) rfl
    · exact h
  | connect provider integrationId =>
    cases integrationId with
    | none =>
      refine h.rest ⟨Nat.le_succ _, fun r' hr' token _ htoken => ?_⟩
        ⟨h.table.rows.append rfl, fun r' hr' token htoken => ?_, fun l hl hlive => ?_⟩ rfl
      · rcases List.mem_append.mp hr' with hold | hnew
        · exact ⟨r', hold, rfl, htoken⟩
        · rw [List.mem_singleton.mp hnew] at htoken
          cases htoken
      · rcases List.mem_append.mp hr' with hold | hnew
        · exact Nat.lt_succ_of_lt (h.table.tokens r' hold token htoken)
        · rw [List.mem_singleton.mp hnew] at htoken
          cases htoken
      · obtain ⟨r, hr, hclaimed⟩ := h.table.leases l hl hlive
        exact ⟨r, List.mem_append_left _ hr, hclaimed⟩
    | some integrationId =>
      simp only [syncDueStep]
      split
      · exact h.rest (revoke_move fun _ => rfl) (h.table.revoke fun _ => rfl) rfl
      · exact h
  | schedule integrationId =>
    refine h.rest (.update rfl rfl (fun _ => rfl) fun _ => .inr rfl)
      (h.table.update rfl rfl (fun _ => rfl) (fun _ => .inr rfl) fun l hl hlive => ?_) rfl
    obtain ⟨r, hr, hclaimed, huntil⟩ := h.table.leases l hl hlive
    refine ⟨_, mem_updateWhere_of_mem hr, ?_, ?_⟩
    · split <;> exact hclaimed
    · split <;> exact huntil

theorem syncInvariant_start (clock : Int) : SyncInvariant (.start clock) where
  table := ⟨.nil _ _, nofun, nofun⟩
  passes _ _ h := nomatch h

/-- A completion, whatever it is, changes the row of its claim alone. -/
theorem settlesOwn (s : SyncState) (passId : Nat) (attempt : SyncAttempt) (observedAt : Int) :
    SettlesOwn s passId attempt observedAt := by
  unfold SettlesOwn
  cases hpass : s.passes passId with
  | none =>
    simp only [syncDueStep, hpass]
    exact List.forall₂_same.mpr fun _ _ => .inl rfl
  | some pass =>
    simp only [syncDueStep, hpass, settleNext]
    split
    · rename_i claim remaining _ hremaining
      split
      · exact List.forall₂_same.mpr fun _ _ => .inl rfl
      · cases hcompletion : completion pass.provider s.rows claim observedAt attempt with
        | error e => exact List.forall₂_same.mpr fun _ _ => .inl rfl
        | ok rows =>
          obtain ⟨current, f, hcompletes⟩ := completion_completes hcompletion
          show List.Forall₂ _ s.rows rows
          rw [hcompletes.rewritten]
          refine forall₂_updateWhere (fun _ _ _ => .inl rfl) fun r _ hcurrent => .inr ?_
          exact ⟨pass, claim, rfl, by rw [hremaining]; rfl, hcompletes.own r hcurrent⟩
    · exact List.forall₂_same.mpr fun _ _ => .inl rfl

/-- **Claims are exclusive and isolated** in every run in which a pass with more to go finds its token. -/
theorem claimsExclusiveIsolated_run (clock : Int) (ops : List SyncDueOp)
    (hcurrent : Guarded syncDueStep (fun s op => op.settlesCurrent s = true) (.start clock) ops) :
    ClaimsExclusiveIsolated (run syncDueStep (.start clock) ops) := by
  have hinv : SyncInvariant (run syncDueStep (.start clock) ops) :=
    guarded_invariant SyncInvariant (fun _ _ h hguard => syncDueStep_invariant h hguard)
      (syncInvariant_start clock) hcurrent
  refine ⟨hinv.table.exclusive, settlesOwn _, fun passId pass hpass hended => ?_⟩
  have hpassInv := hinv.passes passId pass hpass
  exact ⟨hpassInv.ended hended, hpassInv.released⟩

/-! ## A batch that is left -/

/-- Two GitHub installations, and a pass that claims both. -/
def bothClaimed : List SyncDueOp :=
  [.connect .github none, .connect .github none, .syncDue 1 .github, .claimDue 1 [] fun r => r.id]

/-- The provider fails on the first installation, the second is synchronized. -/
theorem claimsExclusiveIsolated_run_providerFails :
    ClaimsExclusiveIsolated (run syncDueStep (.start 0) (bothClaimed ++
      [.settle 1 (.integrationError ⟨"github_unavailable", by decide +kernel⟩ 300) 0,
       .settle 1 (.synchronized false) 1, .claimDue 1 [] fun r => r.id])) :=
  claimsExclusiveIsolated_run 0 _ (by decide +kernel)

/-- **The rest of a batch is left**: the first installation is disconnected while it is synchronized, and the
second, which the pass has claimed, is never come to. -/
theorem claimsExclusiveIsolated_disconnected :
    ¬ ∀ (clock : Int) (ops : List SyncDueOp), ClaimsExclusiveIsolated (run syncDueStep (.start clock) ops) := by
  intro h
  have hisolated := (h 0 (bothClaimed ++ [.disconnect .github 0, .settle 1 (.synchronized false) 1])).isolated
    1 { provider := .github, rounds := 0, attempted := [⟨0, 2, 0⟩], remaining := [⟨1, 2, 0⟩],
        ended := some .claimLost } (by decide +kernel) (.inr rfl)
  cases hisolated.1

end Dayfinch
