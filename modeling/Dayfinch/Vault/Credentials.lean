/-
# Dayfinch.Vault.Credentials -- the row of a provider credential and the statements on it

A credential is kept sealed, with the id of the key that sealed it, a revision that every write of a new
ciphertext increments, and the claim of a worker that is refreshing it. The five statements on the row
compare different columns: `store` the end of the claim, `rotate` the revision and that there is no
claim, `claim` the end of the claim, `release` its token, and `replace` the revision and the token.

The site's credentials and a member's are two tables with the same statements; `CredentialIdentity` says
which row is meant. Rows are not deleted here.
-/
import Dayfinch.Library.Sealing
import Mathlib.Data.List.Basic

namespace Dayfinch

open Library (Aead)

/-! ## Keys -/

/-- `CredentialKeyring`: the first entry is the primary key. No id stands twice. -/
structure CredentialKeyring (Key : Type) where
  primary : String × Key
  others : List (String × Key)
  ids_nodup : ((primary :: others).map (·.1)).Nodup

namespace CredentialKeyring

variable {Key : Type}

/-- `keyring.primary_id`. -/
def primaryId (keyring : CredentialKeyring Key) : String := keyring.primary.1

/-- `keyring.keys.get(key_id)`. -/
def get (keyring : CredentialKeyring Key) (keyId : String) : Option Key :=
  ((keyring.primary :: keyring.others).find? (·.1 == keyId)).map (·.2)

@[simp] theorem get_primaryId (keyring : CredentialKeyring Key) :
    keyring.get keyring.primaryId = some keyring.primary.2 := by
  simp [get, primaryId]

/-- A keyring that has every key of another, under its id. -/
def Keeps (keyring old : CredentialKeyring Key) : Prop :=
  ∀ keyId key, old.get keyId = some key → keyring.get keyId = some key

theorem Keeps.refl (keyring : CredentialKeyring Key) : keyring.Keeps keyring := fun _ _ h => h

end CredentialKeyring

/-! ## Rows -/

/-- Whose credential it is. -/
structure CredentialIdentity where
  integrationId : String
  provider : String
  subjectUserId : Option String
  deriving DecidableEq, Repr

/-- `_associated_data`. -/
def CredentialIdentity.associatedData (identity : CredentialIdentity) (keyId : String) : String :=
  "dayfinch:integration-credential:v1:" ++ identity.provider ++ ":" ++ identity.integrationId ++ ":" ++
    keyId ++ identity.subjectUserId.elim "" (":user:" ++ ·)

/-- `integration_credentials` and `integration_user_credentials`. The token of a claim and its end are
both null or both not, so they are one column here. -/
structure CredentialRow (Sealed : Type) where
  keyId : String
  ciphertext : Sealed
  revision : Nat
  accessExpiresAt : Option Int
  refreshClaim : Option (Nat × Int)
  deriving DecidableEq, Repr

namespace CredentialRow

variable {Sealed : Type}

/-- `INSERT .. ON CONFLICT DO UPDATE .. WHERE refresh_claim_until IS NULL OR refresh_claim_until < now`. -/
def store (now : Int) (keyId : String) (ciphertext : Sealed) (accessExpiresAt : Option Int) :
    Option (CredentialRow Sealed) → Option (CredentialRow Sealed)
  | none => some { keyId, ciphertext, revision := 1, accessExpiresAt, refreshClaim := none }
  | some row =>
    if row.refreshClaim.all (·.2 < now) then
      some { keyId, ciphertext, revision := row.revision + 1, accessExpiresAt, refreshClaim := none }
    else none

/-- `rotate_integration_credentials`. -/
def rotate (expectedRevision : Nat) (keyId : String) (ciphertext : Sealed)
    (row : CredentialRow Sealed) : Option (CredentialRow Sealed) :=
  if row.revision = expectedRevision ∧ row.refreshClaim = none then
    some { row with keyId, ciphertext, revision := row.revision + 1 }
  else none

/-- `claim_integration_credentials`; the lease is in seconds. -/
def claim (token : Nat) (observedAt leaseSeconds : Int) (row : CredentialRow Sealed) :
    Option (CredentialRow Sealed) :=
  if row.refreshClaim.all (·.2 ≤ observedAt) then
    some { row with refreshClaim := some (token, observedAt + leaseSeconds * 1000000) }
  else none

/-- `refresh_claim_token=token`. -/
def heldBy (token : Nat) (row : CredentialRow Sealed) : Bool := row.refreshClaim.any (·.1 == token)

/-- `release_integration_credential_claim`. -/
def release (token : Nat) (row : CredentialRow Sealed) : Option (CredentialRow Sealed) :=
  if row.heldBy token then some { row with refreshClaim := none } else none

/-- `replace_claimed_integration_credentials`. -/
def replace (token expectedRevision : Nat) (keyId : String) (ciphertext : Sealed)
    (accessExpiresAt : Option Int) (row : CredentialRow Sealed) : Option (CredentialRow Sealed) :=
  if row.revision = expectedRevision ∧ row.heldBy token then
    some { keyId, ciphertext, revision := row.revision + 1, accessExpiresAt, refreshClaim := none }
  else none

theorem store_eq_some {now : Int} {keyId : String} {ciphertext : Sealed} {expires : Option Int}
    {old : Option (CredentialRow Sealed)} {row : CredentialRow Sealed}
    (h : store now keyId ciphertext expires old = some row) :
    row.keyId = keyId ∧ row.ciphertext = ciphertext ∧ row.refreshClaim = none ∧
      ∀ before, old = some before → row.revision = before.revision + 1 := by
  unfold store at h
  split at h
  · obtain rfl := Option.some.inj h
    simp
  · split at h
    · obtain rfl := Option.some.inj h
      refine ⟨rfl, rfl, rfl, fun before hbefore => ?_⟩
      rw [Option.some.inj hbefore]
    · cases h

theorem rotate_eq_some {revision : Nat} {keyId : String} {ciphertext : Sealed}
    {old row : CredentialRow Sealed} (h : rotate revision keyId ciphertext old = some row) :
    old.revision = revision ∧ old.refreshClaim = none ∧
      row = { old with keyId, ciphertext, revision := old.revision + 1 } := by
  unfold rotate at h
  split at h
  · rename_i hguard
    exact ⟨hguard.1, hguard.2, (Option.some.inj h).symm⟩
  · cases h

theorem replace_eq_some {token revision : Nat} {keyId : String} {ciphertext : Sealed}
    {expires : Option Int} {old row : CredentialRow Sealed}
    (h : replace token revision keyId ciphertext expires old = some row) :
    old.revision = revision ∧ old.heldBy token ∧
      row = ⟨keyId, ciphertext, old.revision + 1, expires, none⟩ := by
  unfold replace at h
  split at h
  · rename_i hguard
    exact ⟨hguard.1, hguard.2, (Option.some.inj h).symm⟩
  · cases h

theorem heldBy_iff {token : Nat} {row : CredentialRow Sealed} :
    row.heldBy token ↔ ∃ until_, row.refreshClaim = some (token, until_) := by
  unfold heldBy
  rcases row.refreshClaim with _ | ⟨held, ends⟩ <;> simp

/-- No claim on the row is unexpired. -/
def unclaimedAt (now : Int) (row : CredentialRow Sealed) : Bool := row.refreshClaim.all (·.2 ≤ now)

end CredentialRow

/-! ## Sealing a row -/

section

variable {Key Payload Sealed : Type}

/-- `_encrypt`: the payload under the primary key. The nonce is `os.urandom(12)`. -/
def encryptCredential (aead : Aead Key (List UInt8) String Payload Sealed)
    (identity : CredentialIdentity) (keyring : CredentialKeyring Key) (nonce : List UInt8)
    (payload : Payload) : String × Sealed :=
  (keyring.primaryId,
    aead.encrypt keyring.primary.2 nonce (identity.associatedData keyring.primaryId) payload)

/-- `_decrypt_row`. -/
def decryptRow (aead : Aead Key (List UInt8) String Payload Sealed) (identity : CredentialIdentity)
    (keyring : CredentialKeyring Key) (row : CredentialRow Sealed) : Except String Payload :=
  match keyring.get row.keyId with
  | none => .error "Integration credential encryption key is unavailable"
  | some key =>
    match aead.decrypt key (identity.associatedData row.keyId) row.ciphertext with
    | none => .error "Integration credential authentication failed"
    | some payload => .ok payload

/-- The row holds this payload, sealed with the key that this id stands for. -/
def CredentialRow.Holds (aead : Aead Key (List UInt8) String Payload Sealed)
    (identity : CredentialIdentity) (row : CredentialRow Sealed) (key : Key) (payload : Payload) :
    Prop :=
  aead.Seals key (identity.associatedData row.keyId) row.ciphertext payload

variable {aead : Aead Key (List UInt8) String Payload Sealed} {identity : CredentialIdentity}
  {keyring : CredentialKeyring Key} {row : CredentialRow Sealed} {key : Key}
  {payload payload' : Payload}

/-- What a worker decrypts is what the row holds. -/
theorem CredentialRow.Holds.of_decryptRow (h : row.Holds aead identity key payload)
    (hopen : decryptRow aead identity keyring row = .ok payload') : payload' = payload := by
  unfold decryptRow at hopen
  split at hopen
  · cases hopen
  · split at hopen
    · cases hopen
    · rename_i hdecrypt
      obtain rfl := Except.ok.inj hopen
      exact (h.of_decrypt hdecrypt).2.2

/-- A worker that has the key decrypts the row. -/
theorem CredentialRow.Holds.decryptRow_eq (h : row.Holds aead identity key payload)
    (hkey : keyring.get row.keyId = some key) : decryptRow aead identity keyring row = .ok payload := by
  unfold decryptRow
  rw [hkey]
  dsimp only
  rw [h.decrypt]

end

end Dayfinch
