/-
# Dayfinch.Vault.Workers -- workers that open, refresh and re-encrypt one credential

Every worker runs the vault with its own keyring. `open` is a read, a decryption and, when the row is
under another key than the worker's primary one, an update that counts only if the revision is still the
one that was read and no refresh is claimed; it is tried three times. A refresh is a claim, a request to
the provider and a replacement. Each statement on the row is one step, and the steps of all workers
interleave in any order. A worker may stop at any point, come back with another keyring, and read any
time from its clock.

Beside the row and the workers the state keeps what the properties speak of: the payload written last, the
history of it, what was returned to callers, and which claims have been superseded.
-/
import Dayfinch.Library.Run
import Dayfinch.Vault.Credentials

namespace Dayfinch

open Library (Aead run)

/-! ## State -/

/-- Where a worker is in `open`. `since` is the state it began in, `attempts` what is left of
`range(3)`. -/
inductive OpenPhase (Payload : Type)
  | idle
  | reading (attempts since : Nat)
  | rotating (attempts since revision : Nat) (payload : Payload)

/-- A `ClaimedCredential` that a worker has been given. -/
structure RefreshClaim where
  token : Nat
  revision : Nat
  deriving DecidableEq, Repr

/-- A worker of the vault. -/
structure VaultWorker (Key Payload : Type) where
  keyring : CredentialKeyring Key
  phase : OpenPhase Payload
  claims : List RefreshClaim

/-- A payload that `open` or a claim has returned, with the states in which the call began and made its
last statement. -/
structure ReturnedCredential (Payload : Type) where
  worker : Nat
  payload : Payload
  since : Nat
  upTo : Nat

/-- The row and the workers; after them, what has happened. -/
structure VaultState (Key Payload Sealed : Type) where
  row : Option (CredentialRow Sealed)
  workers : Nat → VaultWorker Key Payload
  nextToken : Nat
  /-- What the last store or replacement wrote. -/
  latest : Option Payload
  /-- `latest` in every state up to this one. -/
  history : List (Option Payload)
  returned : List (ReturnedCredential Payload)
  /-- The revisions that a replacement has replaced. -/
  replaced : List Nat
  /-- Claims with a smaller token are superseded by a newer claim, a store or a replacement. -/
  supersededBelow : Nat
  /-- The keyrings that workers have had. -/
  deployed : List (CredentialKeyring Key)

/-- A step of a worker. -/
inductive VaultOp (Key Payload : Type)
  | restart (worker : Nat) (keyring : CredentialKeyring Key)
  | store (worker : Nat) (now : Int) (nonce : List UInt8) (payload : Payload)
      (accessExpiresAt : Option Int)
  | beginOpen (worker : Nat)
  | readRow (worker : Nat)
  | rotateRow (worker : Nat) (nonce : List UInt8)
  | claim (worker : Nat) (observedAt leaseSeconds : Int)
  | replace (worker token : Nat) (nonce : List UInt8) (payload : Payload)
      (accessExpiresAt : Option Int)
  | release (worker token : Nat)

namespace VaultOp

variable {Key Payload : Type}

/-- The steps of a worker's `open`. -/
def Opens (w : Nat) : VaultOp Key Payload → Prop
  | beginOpen v | readRow v | rotateRow v _ => v = w
  | _ => False

/-- The steps that take the row's claim away from who holds it, where they count. -/
def TakesOver : VaultOp Key Payload → Prop
  | store .. | claim .. | replace .. => True
  | _ => False

end VaultOp

section

variable {Key Payload Sealed : Type}

namespace VaultState

/-- The number of this state in the run. -/
def index (s : VaultState Key Payload Sealed) : Nat := s.history.length - 1

/-- A worker changes. -/
def setWorker (s : VaultState Key Payload Sealed) (w : Nat) (worker : VaultWorker Key Payload) :
    VaultState Key Payload Sealed :=
  { s with workers := fun v => if v = w then worker else s.workers v }

/-- A worker moves on in `open`. -/
def setPhase (s : VaultState Key Payload Sealed) (w : Nat) (phase : OpenPhase Payload) :
    VaultState Key Payload Sealed :=
  s.setWorker w { s.workers w with phase }

/-- A payload is returned to a caller of the worker. -/
def return_ (s : VaultState Key Payload Sealed) (w : Nat) (payload : Payload) (since : Nat) :
    VaultState Key Payload Sealed :=
  { s with returned := s.returned ++ [{ worker := w, payload, since, upTo := s.index }] }

end VaultState

/-! ## Steps -/

variable (aead : Aead Key (List UInt8) String Payload Sealed) (identity : CredentialIdentity)

/-- `store`. -/
def storeStep (s : VaultState Key Payload Sealed) (w : Nat) (now : Int) (nonce : List UInt8)
    (payload : Payload) (accessExpiresAt : Option Int) : VaultState Key Payload Sealed :=
  let encrypted := encryptCredential aead identity (s.workers w).keyring nonce payload
  match CredentialRow.store now encrypted.1 encrypted.2 accessExpiresAt s.row with
  | none => s
  | some row => { s with row := some row, latest := some payload, supersededBelow := s.nextToken }

/-- The read of an attempt of `open`, and the decryption. -/
def readStep (s : VaultState Key Payload Sealed) (w attempts since : Nat) :
    VaultState Key Payload Sealed :=
  match s.row with
  | none => s.setPhase w .idle
  | some row =>
    match decryptRow aead identity (s.workers w).keyring row with
    | .error _ => s.setPhase w .idle
    | .ok payload =>
      if row.keyId = (s.workers w).keyring.primaryId then
        (s.setPhase w .idle).return_ w payload since
      else s.setPhase w (.rotating attempts since row.revision payload)

/-- The update of an attempt of `open`; where it counts for nothing, the next attempt begins. -/
def rotateStep (s : VaultState Key Payload Sealed) (w attempts since revision : Nat)
    (payload : Payload) (nonce : List UInt8) : VaultState Key Payload Sealed :=
  let encrypted := encryptCredential aead identity (s.workers w).keyring nonce payload
  match s.row.bind (CredentialRow.rotate revision encrypted.1 encrypted.2) with
  | some row => ({ s with row := some row }.setPhase w .idle).return_ w payload since
  | none => s.setPhase w (if attempts = 0 then .idle else .reading (attempts - 1) since)

/-- `claim_for_refresh`. A worker that cannot decrypt what it has claimed gives no credential to its
caller, and holds the claim until it releases it. -/
def claimStep (s : VaultState Key Payload Sealed) (w : Nat) (observedAt leaseSeconds : Int) :
    VaultState Key Payload Sealed :=
  if leaseSeconds < 15 ∨ 600 < leaseSeconds then s
  else
    match s.row.bind (CredentialRow.claim s.nextToken observedAt leaseSeconds) with
    | none => { s with nextToken := s.nextToken + 1 }
    | some row =>
      let worker := s.workers w
      let claimed : VaultState Key Payload Sealed :=
        { s with row := some row, supersededBelow := s.nextToken, nextToken := s.nextToken + 1 }
      let held := claimed.setWorker w
        { worker with claims := ⟨s.nextToken, row.revision⟩ :: worker.claims }
      match decryptRow aead identity worker.keyring row with
      | .error _ => held
      | .ok payload => held.return_ w payload s.index

/-- `replace_after_refresh`, with a claim the worker was given. -/
def replaceStep (s : VaultState Key Payload Sealed) (w token : Nat) (nonce : List UInt8)
    (payload : Payload) (accessExpiresAt : Option Int) : VaultState Key Payload Sealed :=
  match (s.workers w).claims.find? (·.token == token) with
  | none => s
  | some claim =>
    let encrypted := encryptCredential aead identity (s.workers w).keyring nonce payload
    match s.row.bind (CredentialRow.replace token claim.revision encrypted.1 encrypted.2
      accessExpiresAt) with
    | none => s
    | some row =>
      { s with
        row := some row
        latest := some payload
        replaced := s.replaced ++ [claim.revision]
        supersededBelow := s.nextToken }

/-- `release_refresh`, with a claim the worker was given. -/
def releaseStep (s : VaultState Key Payload Sealed) (w token : Nat) : VaultState Key Payload Sealed :=
  match (s.workers w).claims.find? (·.token == token) with
  | none => s
  | some _ =>
    match s.row.bind (CredentialRow.release token) with
    | none => s
    | some row => { s with row := some row }

/-- What a step does, before it is recorded. -/
def vaultAct (s : VaultState Key Payload Sealed) :
    VaultOp Key Payload → VaultState Key Payload Sealed
  | .restart w keyring =>
    { s.setWorker w { keyring, phase := .idle, claims := [] } with deployed := keyring :: s.deployed }
  | .store w now nonce payload accessExpiresAt =>
    storeStep aead identity s w now nonce payload accessExpiresAt
  | .beginOpen w =>
    match (s.workers w).phase with
    | .idle => s.setPhase w (.reading 2 s.index)
    | _ => s
  | .readRow w =>
    match (s.workers w).phase with
    | .reading attempts since => readStep aead identity s w attempts since
    | _ => s
  | .rotateRow w nonce =>
    match (s.workers w).phase with
    | .rotating attempts since revision payload =>
      rotateStep aead identity s w attempts since revision payload nonce
    | _ => s
  | .claim w observedAt leaseSeconds => claimStep aead identity s w observedAt leaseSeconds
  | .replace w token nonce payload accessExpiresAt =>
    replaceStep aead identity s w token nonce payload accessExpiresAt
  | .release w token => releaseStep s w token

/-- The state is recorded. -/
def VaultState.record (s : VaultState Key Payload Sealed) : VaultState Key Payload Sealed :=
  { s with history := s.history ++ [s.latest] }

/-- One step. -/
def vaultStep (s : VaultState Key Payload Sealed) (op : VaultOp Key Payload) :
    VaultState Key Payload Sealed := (vaultAct aead identity s op).record

/-- Before the first store, all workers have one keyring and do nothing. -/
def VaultState.start (keyring : CredentialKeyring Key) : VaultState Key Payload Sealed where
  row := none
  workers := fun _ => { keyring, phase := .idle, claims := [] }
  nextToken := 0
  latest := none
  history := [none]
  returned := []
  replaced := []
  supersededBelow := 0
  deployed := [keyring]

/-- The state after a run. -/
def vaultAfter (keyring : CredentialKeyring Key) (ops : List (VaultOp Key Payload)) :
    VaultState Key Payload Sealed := run (vaultStep aead identity) (VaultState.start keyring) ops

end

end Dayfinch
