/-
# Dayfinch.Vault.Rotation -- when a worker can open the credential after keys have changed

A new keyring keeps every key that has been deployed, so whoever runs the newest keyring has the key of
the row. That is not enough to open it: under another key than the worker's primary one the row has to be
sealed again, and that update asks for a row without a claim. `store` and `claim` take over a claim that
has expired; this update does not look at the end of the claim. A worker that crashed while it refreshed
has left its claim on the row, and only the next claim would take it away, which is made after an `open`.
-/
import Dayfinch.Vault.Linearizable

namespace Dayfinch

open Library (Aead run Guarded guarded_invariant)

section

variable {Key Payload Sealed : Type}
variable {aead : Aead Key (List UInt8) String Payload Sealed} {identity : CredentialIdentity}
variable {s s' : VaultState Key Payload Sealed} {row : CredentialRow Sealed} {w : Nat}

/-! ## Keys along a run -/

/-- The keyring that a step brings. -/
def VaultOp.deploys : VaultOp Key Payload → Option (CredentialKeyring Key)
  | .restart _ keyring => some keyring
  | _ => none

/-- A keyring change keeps every old key. -/
def KeepsKeys (s : VaultState Key Payload Sealed) (op : VaultOp Key Payload) : Prop :=
  ∀ keyring, op.deploys = some keyring → ∀ old ∈ s.deployed, keyring.Keeps old

/-- Some deployed keyring has all deployed keys, and the row is sealed with one of them. -/
structure KeysKept (aead : Aead Key (List UInt8) String Payload Sealed) (identity : CredentialIdentity)
    (s : VaultState Key Payload Sealed) : Prop where
  newest : ∃ keyring : CredentialKeyring Key, ∀ old ∈ s.deployed, keyring.Keeps old
  workers : ∀ w, (s.workers w).keyring ∈ s.deployed
  row : ∀ row, s.row = some row → ∃ keyring ∈ s.deployed, ∃ key payload,
    keyring.get row.keyId = some key ∧ row.Holds aead identity key payload

theorem deployed_vaultAct (op : VaultOp Key Payload) :
    (vaultAct aead identity s op).deployed = op.deploys.toList ++ s.deployed := by
  cases op <;> simp only [vaultAct, storeStep, readStep, rotateStep, claimStep, replaceStep, releaseStep,
    VaultOp.deploys, Option.toList]
  all_goals
    repeat' split
    all_goals rfl

theorem keyring_vaultAct (op : VaultOp Key Payload) (v : Nat) :
    ((vaultAct aead identity s op).workers v).keyring = (s.workers v).keyring ∨
      op.deploys = some ((vaultAct aead identity s op).workers v).keyring := by
  cases op with
  | restart w keyring =>
    by_cases hv : v = w
    · right
      simp [vaultAct, VaultState.setWorker, VaultOp.deploys, hv]
    · left
      simp [vaultAct, VaultState.setWorker, hv]
  | store | beginOpen | readRow | rotateRow | claim | replace | release =>
    left
    simp only [vaultAct, storeStep, readStep, rotateStep, claimStep, replaceStep, releaseStep]
    repeat' split
    all_goals simp only [VaultState.setPhase, VaultState.return_, VaultState.setWorker]
    all_goals
      split
      · rename_i hv
        rw [hv]
      · rfl

/-- The row keeps its key and ciphertext, or is sealed under the primary key of a worker. -/
theorem RowStep.sealed {row' : CredentialRow Sealed} (h : RowStep aead identity s s')
    (hrow : s'.row = some row') :
    (∃ row, s.row = some row ∧ row'.keyId = row.keyId ∧ row'.ciphertext = row.ciphertext) ∨
      ∃ w payload, row'.keyId = (s.workers w).keyring.primaryId ∧
        row'.Holds aead identity (s.workers w).keyring.primary.2 payload := by
  cases h with
  | same hsame => exact Or.inl ⟨row', hsame.symm.trans hrow, rfl, rfl⟩
  | write new w payload hnew hlatest hholds hkey =>
    obtain rfl : new = row' := Option.some.inj (hnew.symm.trans hrow)
    exact Or.inr ⟨w, payload, hkey, hholds⟩
  | rotate old new w payload hold hnew hlatest hpayload hholds hkey =>
    obtain rfl : new = row' := Option.some.inj (hnew.symm.trans hrow)
    exact Or.inr ⟨w, payload, hkey, hholds⟩
  | claim old until_ hold hnew =>
    obtain rfl := Option.some.inj (hnew.symm.trans hrow)
    exact Or.inl ⟨old, hold, rfl, rfl⟩
  | release old hold hnew =>
    obtain rfl := Option.some.inj (hnew.symm.trans hrow)
    exact Or.inl ⟨old, hold, rfl, rfl⟩

theorem KeysKept.start (keyring : CredentialKeyring Key) :
    KeysKept aead identity (VaultState.start keyring) where
  newest := by
    refine ⟨keyring, fun old hold => ?_⟩
    rw [List.mem_singleton.mp hold]
    exact CredentialKeyring.Keeps.refl keyring
  workers := fun _ => List.mem_singleton.mpr rfl
  row := by
    intro row hrow
    cases hrow

theorem KeysKept.step {op : VaultOp Key Payload} (h : KeysKept aead identity s)
    (hinv : VaultInvariant aead identity s) (hkeeps : KeepsKeys s op) :
    KeysKept aead identity (vaultStep aead identity s op) := by
  have hdeployed : (vaultStep aead identity s op).deployed = op.deploys.toList ++ s.deployed :=
    deployed_vaultAct op
  have hmem : ∀ keyring ∈ s.deployed, keyring ∈ (vaultStep aead identity s op).deployed := by
    intro keyring hkeyring
    rw [hdeployed]
    exact List.mem_append_right _ hkeyring
  constructor
  · rw [hdeployed]
    rcases hop : op.deploys with _ | keyring
    · exact h.newest
    · refine ⟨keyring, fun old hold => ?_⟩
      rcases List.mem_cons.mp hold with rfl | hold
      · exact CredentialKeyring.Keeps.refl old
      · exact hkeeps keyring hop old hold
  · intro v
    have hkeyring : ((vaultStep aead identity s op).workers v).keyring = (s.workers v).keyring ∨
        op.deploys = some ((vaultStep aead identity s op).workers v).keyring := keyring_vaultAct op v
    rcases hkeyring with hsame | hnew
    · rw [hsame]
      exact hmem _ (h.workers v)
    · rw [hdeployed, hnew]
      exact List.mem_append_left _ (List.mem_singleton.mpr rfl)
  · intro row' hrow
    rcases (vaultAct_effect hinv op).row.sealed hrow with
      ⟨row, hold, hkey, hciphertext⟩ | ⟨v, payload, hkey, hholds⟩
    · obtain ⟨keyring, hkeyring, key, payload, hget, hholds⟩ := h.row row hold
      refine ⟨keyring, hmem _ hkeyring, key, payload, hkey ▸ hget, ?_⟩
      unfold CredentialRow.Holds at hholds ⊢
      rw [hkey, hciphertext]
      exact hholds
    · refine ⟨_, hmem _ (h.workers v), _, payload, ?_, hholds⟩
      rw [hkey]
      exact CredentialKeyring.get_primaryId _

/-- A deployed keyring that has an id at all has the right key under it. -/
theorem KeysKept.decryptRow_eq (h : KeysKept aead identity s) (hrow : s.row = some row)
    (hget : ((s.workers w).keyring.get row.keyId).isSome) :
    ∃ payload, decryptRow aead identity (s.workers w).keyring row = .ok payload := by
  obtain ⟨newest, hnewest⟩ := h.newest
  obtain ⟨keyring, hkeyring, key, payload, hrowKey, hholds⟩ := h.row row hrow
  obtain ⟨key', hget⟩ := Option.isSome_iff_exists.mp hget
  have hfrom := hnewest keyring hkeyring row.keyId key hrowKey
  have hto := hnewest _ (h.workers w) row.keyId key' hget
  obtain rfl : key' = key := Option.some.inj (hto.symm.trans hfrom)
  exact ⟨payload, hholds.decryptRow_eq hget⟩

/-- A worker whose keyring keeps every deployed key has the key of the row. -/
theorem KeysKept.get_isSome (h : KeysKept aead identity s) (hrow : s.row = some row)
    (hkeeps : ∀ old ∈ s.deployed, (s.workers w).keyring.Keeps old) :
    ((s.workers w).keyring.get row.keyId).isSome := by
  obtain ⟨keyring, hkeyring, key, payload, hget, hholds⟩ := h.row row hrow
  exact Option.isSome_iff_exists.mpr ⟨key, hkeeps keyring hkeyring row.keyId key hget⟩

/-! ## One call of `open` -/

/-- The statements of a call of `open` that tries three times. -/
def openOps (w : Nat) (nonces : Fin 3 → List UInt8) : List (VaultOp Key Payload) :=
  [.beginOpen w, .readRow w, .rotateRow w (nonces 0), .readRow w, .rotateRow w (nonces 1), .readRow w,
    .rotateRow w (nonces 2)]

/-- A step moves the worker on in `open`, and neither the row nor what was returned changes. -/
structure OnlyPhase (s s' : VaultState Key Payload Sealed) (w : Nat) (phase : OpenPhase Payload) :
    Prop where
  row : s'.row = s.row
  worker : s'.workers w = { s.workers w with phase }
  returned : s'.returned = s.returned

theorem OnlyPhase.trans {s'' : VaultState Key Payload Sealed} {phase phase' : OpenPhase Payload}
    (h : OnlyPhase s s' w phase) (h' : OnlyPhase s' s'' w phase') : OnlyPhase s s'' w phase' where
  row := h'.row.trans h.row
  worker := by rw [h'.worker, h.worker]
  returned := h'.returned.trans h.returned

theorem OnlyPhase.phase_eq {phase : OpenPhase Payload} (h : OnlyPhase s s' w phase) :
    (s'.workers w).phase = phase := by rw [h.worker]

theorem OnlyPhase.keyring_eq {phase : OpenPhase Payload} (h : OnlyPhase s s' w phase) :
    (s'.workers w).keyring = (s.workers w).keyring := by rw [h.worker]

theorem onlyPhase_setPhase (phase : OpenPhase Payload) : OnlyPhase s (s.setPhase w phase).record w phase where
  row := rfl
  worker := by simp [VaultState.record, VaultState.setPhase, VaultState.setWorker]
  returned := rfl

theorem beginOpen_onlyPhase (h : (s.workers w).phase = .idle) :
    OnlyPhase s (vaultStep aead identity s (.beginOpen w)) w (.reading 2 s.index) := by
  unfold vaultStep vaultAct
  dsimp only
  rw [h]
  exact onlyPhase_setPhase _

theorem readRow_error {attempts since : Nat} {message : String}
    (h : (s.workers w).phase = .reading attempts since) (hrow : s.row = some row)
    (hopen : decryptRow aead identity (s.workers w).keyring row = .error message) :
    OnlyPhase s (vaultStep aead identity s (.readRow w)) w .idle := by
  unfold vaultStep vaultAct
  dsimp only
  rw [h]
  dsimp only
  unfold readStep
  rw [hrow]
  dsimp only
  rw [hopen]
  exact onlyPhase_setPhase _

theorem readRow_rotating {attempts since : Nat} {payload : Payload}
    (h : (s.workers w).phase = .reading attempts since) (hrow : s.row = some row)
    (hopen : decryptRow aead identity (s.workers w).keyring row = .ok payload)
    (hkey : row.keyId ≠ (s.workers w).keyring.primaryId) :
    OnlyPhase s (vaultStep aead identity s (.readRow w)) w
      (.rotating attempts since row.revision payload) := by
  unfold vaultStep vaultAct
  dsimp only
  rw [h]
  dsimp only
  unfold readStep
  rw [hrow]
  dsimp only
  rw [hopen]
  dsimp only
  rw [if_neg hkey]
  exact onlyPhase_setPhase _

/-- A payload is returned to the worker's caller, whose call is over. -/
structure Returns (s s' : VaultState Key Payload Sealed) (w : Nat) (payload : Payload) (since : Nat) :
    Prop where
  returned : ∃ upTo, s'.returned = s.returned ++ [⟨w, payload, since, upTo⟩]
  idle : (s'.workers w).phase = .idle

theorem returns_return {since : Nat} {payload : Payload} (row : Option (CredentialRow Sealed)) :
    Returns s (({ s with row }.setPhase w .idle).return_ w payload since).record w payload since where
  returned := ⟨_, rfl⟩
  idle := by simp [VaultState.record, VaultState.return_, VaultState.setPhase, VaultState.setWorker]

theorem readRow_returns {attempts since : Nat} {payload : Payload}
    (h : (s.workers w).phase = .reading attempts since) (hrow : s.row = some row)
    (hopen : decryptRow aead identity (s.workers w).keyring row = .ok payload)
    (hkey : row.keyId = (s.workers w).keyring.primaryId) :
    Returns s (vaultStep aead identity s (.readRow w)) w payload since := by
  unfold vaultStep vaultAct
  dsimp only
  rw [h]
  dsimp only
  unfold readStep
  rw [hrow]
  dsimp only
  rw [hopen]
  dsimp only
  rw [if_pos hkey]
  exact returns_return s.row

theorem rotateRow_returns {attempts since : Nat} {payload : Payload} {nonce : List UInt8}
    (h : (s.workers w).phase = .rotating attempts since row.revision payload) (hrow : s.row = some row)
    (hclaim : row.refreshClaim = none) :
    Returns s (vaultStep aead identity s (.rotateRow w nonce)) w payload since := by
  unfold vaultStep vaultAct
  dsimp only
  rw [h]
  dsimp only
  unfold rotateStep
  dsimp only
  rw [hrow, Option.bind_some]
  unfold CredentialRow.rotate
  rw [if_pos ⟨rfl, hclaim⟩]
  exact returns_return _

theorem rotateRow_claimed {attempts since revision : Nat} {payload : Payload} {nonce : List UInt8}
    (h : (s.workers w).phase = .rotating attempts since revision payload) (hrow : s.row = some row)
    (hclaim : row.refreshClaim ≠ none) :
    OnlyPhase s (vaultStep aead identity s (.rotateRow w nonce)) w
      (if attempts = 0 then .idle else .reading (attempts - 1) since) := by
  unfold vaultStep vaultAct
  dsimp only
  rw [h]
  dsimp only
  unfold rotateStep
  dsimp only
  rw [hrow, Option.bind_some]
  unfold CredentialRow.rotate
  rw [if_neg fun hguard => hclaim hguard.2]
  exact onlyPhase_setPhase _

/-- An attempt on a row that carries a claim. -/
theorem attempt_claimed {attempts since : Nat} {payload : Payload} {nonce : List UInt8}
    (h : (s.workers w).phase = .reading attempts since) (hrow : s.row = some row)
    (hopen : decryptRow aead identity (s.workers w).keyring row = .ok payload)
    (hkey : row.keyId ≠ (s.workers w).keyring.primaryId) (hclaim : row.refreshClaim ≠ none) :
    OnlyPhase s (run (vaultStep aead identity) s [.readRow w, .rotateRow w nonce]) w
      (if attempts = 0 then .idle else .reading (attempts - 1) since) := by
  have hread := readRow_rotating h hrow hopen hkey
  exact hread.trans (rotateRow_claimed hread.phase_eq (hread.row.trans hrow) hclaim)

/-- Outside a call the statements of `open` are not made. -/
theorem idle_run (h : (s.workers w).phase = .idle) (ops : List (VaultOp Key Payload))
    (hops : ∀ op ∈ ops, op = .readRow w ∨ ∃ nonce, op = .rotateRow w nonce) :
    (run (vaultStep aead identity) s ops).returned = s.returned := by
  induction ops generalizing s with
  | nil => rfl
  | cons op ops ih =>
    have hstep : vaultAct aead identity s op = s := by
      rcases hops op List.mem_cons_self with rfl | ⟨nonce, rfl⟩
      · simp [vaultAct, h]
      · simp [vaultAct, h]
    have hphase : ((vaultStep aead identity s op).workers w).phase = .idle := by
      unfold vaultStep
      rw [hstep]
      exact h
    rw [Library.run_cons, ih hphase fun op' hop' => hops op' (List.mem_cons_of_mem op hop')]
    unfold vaultStep
    rw [hstep]
    rfl

/-- A call of `open` that nothing interrupts returns this payload. -/
def OpenReturns (aead : Aead Key (List UInt8) String Payload Sealed) (identity : CredentialIdentity)
    (s : VaultState Key Payload Sealed) (w : Nat) (nonces : Fin 3 → List UInt8) (payload : Payload) :
    Prop :=
  ∃ upTo, (run (vaultStep aead identity) s (openOps w nonces)).returned =
    s.returned ++ [⟨w, payload, s.index, upTo⟩]

/-- Nothing else is done after the payload is returned. -/
theorem openReturns_of_returns {nonces : Fin 3 → List UInt8} {payload : Payload}
    (before : List (VaultOp Key Payload)) {after : List (VaultOp Key Payload)} (hops : openOps w nonces = before ++ after)
    (hbefore : ∃ s₁, s₁.returned = s.returned ∧
      Returns s₁ (run (vaultStep aead identity) s before) w payload s.index)
    (hafter : ∀ op ∈ after, op = .readRow w ∨ ∃ nonce, op = .rotateRow w nonce) :
    OpenReturns aead identity s w nonces payload := by
  obtain ⟨s₁, hs₁, ⟨upTo, hreturned⟩, hidle⟩ := hbefore
  refine ⟨upTo, ?_⟩
  rw [hops, Library.run_append, idle_run hidle after hafter, hreturned, hs₁]

theorem open_returns (h : KeysKept aead identity s) (hinv : VaultInvariant aead identity s)
    (hrow : s.row = some row) (hidle : (s.workers w).phase = .idle) (nonces : Fin 3 → List UInt8)
    (hget : ((s.workers w).keyring.get row.keyId).isSome)
    (hrotates : row.refreshClaim = none ∨ row.keyId = (s.workers w).keyring.primaryId) :
    ∃ payload, s.latest = some payload ∧ OpenReturns aead identity s w nonces payload := by
  obtain ⟨payload, hopen⟩ := h.decryptRow_eq hrow hget
  refine ⟨payload, hinv.latest_of_decryptRow hrow hopen, ?_⟩
  have hbegin : OnlyPhase s (vaultStep aead identity s (.beginOpen w)) w (.reading 2 s.index) :=
    beginOpen_onlyPhase hidle
  have hopen' : decryptRow aead identity
      ((vaultStep aead identity s (.beginOpen w)).workers w).keyring row = .ok payload := by
    rw [hbegin.keyring_eq]
    exact hopen
  by_cases hkey : row.keyId = (s.workers w).keyring.primaryId
  · refine openReturns_of_returns [.beginOpen w, .readRow w] rfl ?_ ?_
    · refine ⟨_, hbegin.returned, ?_⟩
      exact readRow_returns hbegin.phase_eq (hbegin.row.trans hrow) hopen' (hbegin.keyring_eq ▸ hkey)
    · simp
  · have hclaim := hrotates.resolve_right hkey
    refine openReturns_of_returns [.beginOpen w, .readRow w, .rotateRow w (nonces 0)] rfl ?_ ?_
    · have hread := readRow_rotating hbegin.phase_eq (hbegin.row.trans hrow) hopen'
        (hbegin.keyring_eq ▸ hkey)
      have hboth := hbegin.trans hread
      exact ⟨_, hboth.returned, rotateRow_returns hboth.phase_eq (hboth.row.trans hrow) hclaim⟩
    · simp

theorem open_returns_nothing (hinv : KeysKept aead identity s)
    (hrow : s.row = some row) (hidle : (s.workers w).phase = .idle) (nonces : Fin 3 → List UInt8)
    (hnot : ¬ (((s.workers w).keyring.get row.keyId).isSome ∧
      (row.refreshClaim = none ∨ row.keyId = (s.workers w).keyring.primaryId))) :
    (run (vaultStep aead identity) s (openOps w nonces)).returned = s.returned := by
  have hbegin : OnlyPhase s (vaultStep aead identity s (.beginOpen w)) w (.reading 2 s.index) :=
    beginOpen_onlyPhase hidle
  by_cases hget : ((s.workers w).keyring.get row.keyId).isSome
  · obtain ⟨payload, hopen⟩ := hinv.decryptRow_eq hrow hget
    have hnot' := fun hrotates => hnot ⟨hget, hrotates⟩
    have hclaim : row.refreshClaim ≠ none := fun hnone => hnot' (Or.inl hnone)
    have hkey : row.keyId ≠ (s.workers w).keyring.primaryId := fun heq => hnot' (Or.inr heq)
    -- each of the three attempts finds the row as it was and writes nothing
    have hattempt : ∀ {s₁ : VaultState Key Payload Sealed} {attempts : Nat} (nonce : List UInt8),
        OnlyPhase s s₁ w (.reading attempts s.index) →
        OnlyPhase s (run (vaultStep aead identity) s₁ [.readRow w, .rotateRow w nonce]) w
          (if attempts = 0 then .idle else .reading (attempts - 1) s.index) := by
      intro s₁ attempts nonce h₁
      exact h₁.trans (attempt_claimed h₁.phase_eq (h₁.row.trans hrow)
        (by rw [h₁.keyring_eq]; exact hopen) (h₁.keyring_eq ▸ hkey) hclaim)
    have h₁ := hattempt (nonces 0) hbegin
    have h₂ := hattempt (nonces 1) h₁
    have h₃ := hattempt (nonces 2) h₂
    exact h₃.returned
  · have hnone : (s.workers w).keyring.get row.keyId = none := Option.not_isSome_iff_eq_none.mp hget
    have hopen : decryptRow aead identity
        ((vaultStep aead identity s (.beginOpen w)).workers w).keyring row =
          .error "Integration credential encryption key is unavailable" := by
      rw [hbegin.keyring_eq]
      unfold decryptRow
      rw [hnone]
    have hread := readRow_error hbegin.phase_eq (hbegin.row.trans hrow) hopen
    have hboth := hbegin.trans hread
    exact (idle_run hboth.phase_eq [.rotateRow w (nonces 0), .readRow w, .rotateRow w (nonces 1),
      .readRow w, .rotateRow w (nonces 2)] (by simp)).trans hboth.returned

/-! ## Every reachable state -/

theorem vaultAfter_keysKept {keyring : CredentialKeyring Key} {ops : List (VaultOp Key Payload)}
    (hkeeps : Guarded (vaultStep aead identity) KeepsKeys (VaultState.start keyring) ops) :
    KeysKept aead identity (vaultAfter aead identity keyring ops) := by
  have hboth := guarded_invariant
    (fun s => VaultInvariant aead identity s ∧ KeysKept aead identity s)
    (fun s op h hguard => ⟨h.1.step op, h.2.step h.1 hguard⟩)
    ⟨VaultInvariant.start keyring, KeysKept.start keyring⟩ hkeeps
  exact hboth.2

/-- **When a credential can be opened.** In every state of a run whose keyring changes keep the old
keys, `open` returns what was stored last just when the worker has the key of the row, and the row
carries no claim or is under the worker's primary key. The first holds for the newest keyring. An expired
claim is a claim here. -/
theorem openReturns_iff {keyring : CredentialKeyring Key} {ops : List (VaultOp Key Payload)}
    (hkeeps : Guarded (vaultStep aead identity) KeepsKeys (VaultState.start keyring) ops)
    (hrow : (vaultAfter aead identity keyring ops).row = some row)
    (hidle : ((vaultAfter aead identity keyring ops).workers w).phase = .idle)
    (nonces : Fin 3 → List UInt8) :
    let s := vaultAfter aead identity keyring ops
    ((∃ payload, s.latest = some payload ∧ OpenReturns aead identity s w nonces payload) ↔
      ((s.workers w).keyring.get row.keyId).isSome ∧
        (row.refreshClaim = none ∨ row.keyId = (s.workers w).keyring.primaryId)) ∧
    ((∀ old ∈ s.deployed, (s.workers w).keyring.Keeps old) →
      ((s.workers w).keyring.get row.keyId).isSome) := by
  intro s
  have hkeys : KeysKept aead identity s := vaultAfter_keysKept hkeeps
  have hinv : VaultInvariant aead identity s := vaultAfter_invariant keyring ops
  refine ⟨⟨?_, ?_⟩, hkeys.get_isSome hrow⟩
  · rintro ⟨payload, _, upTo, hreturned⟩
    by_contra hnot
    rw [open_returns_nothing hkeys hrow hidle nonces hnot] at hreturned
    have hlength := congrArg List.length hreturned
    simp at hlength
  · rintro ⟨hget, hrotates⟩
    exact open_returns hkeys hinv hrow hidle nonces hget hrotates

end

/-! ## A rotation after a refresh, and after a crash -/

/-- The keyring with the key `k1`. -/
def firstKeyring : CredentialKeyring Nat := ⟨("k1", 1), [], by decide⟩

/-- The keyring that follows it: `k2` is primary, `k1` is kept. -/
def secondKeyring : CredentialKeyring Nat := ⟨("k2", 2), [("k1", 1)], by decide⟩

/-- A site's Jira credential. -/
def jiraCredential : CredentialIdentity := ⟨"3f0c", "jira", none⟩

/-- A grant is stored, and the worker restarts with the second keyring. -/
def rotatedOps : List (VaultOp Nat String) :=
  [.store 0 0 [7] "refresh-1" none, .restart 0 secondKeyring]

/-- A grant is stored and claimed for a refresh; the worker crashes, and restarts with the second
keyring. -/
def crashedOps : List (VaultOp Nat String) :=
  [.store 0 0 [7] "refresh-1" none, .claim 0 0 90, .restart 0 secondKeyring]

theorem secondKeyring_keeps : secondKeyring.Keeps firstKeyring := by
  intro keyId key hget
  have hk : keyId = "k1" ∧ key = 1 := by
    by_cases h : "k1" = keyId
    · subst h
      exact ⟨rfl, (Option.some.inj hget).symm⟩
    · simp [CredentialKeyring.get, firstKeyring, h] at hget
  obtain ⟨rfl, rfl⟩ := hk
  decide

/-- One change to the second keyring keeps the old key. -/
theorem keepsKeys_secondKeyring {Sealed : Type} {s : VaultState Nat String Sealed}
    (hs : s.deployed = [firstKeyring]) {op : VaultOp Nat String}
    (hop : op.deploys = none ∨ op.deploys = some secondKeyring) : KeepsKeys s op := by
  intro keyring hkeyring old hold
  rcases hop with hnone | hsecond
  · rw [hnone] at hkeyring
    cases hkeyring
  · obtain rfl := Option.some.inj (hsecond.symm.trans hkeyring)
    rw [hs] at hold
    rw [List.mem_singleton.mp hold]
    exact secondKeyring_keeps

theorem openReturns_iff_rotated :
    ∃ payload, (vaultAfter (Aead.labelled Nat (List UInt8) String String) jiraCredential firstKeyring
        rotatedOps).latest = some payload ∧
      OpenReturns (Aead.labelled Nat (List UInt8) String String) jiraCredential
        (vaultAfter (Aead.labelled Nat (List UInt8) String String) jiraCredential firstKeyring
          rotatedOps) 0 (fun _ => [9]) payload := by
  have hkeeps : Guarded (vaultStep (Aead.labelled Nat (List UInt8) String String) jiraCredential)
      KeepsKeys (VaultState.start firstKeyring) rotatedOps :=
    ⟨keepsKeys_secondKeyring rfl (Or.inl rfl), keepsKeys_secondKeyring rfl (Or.inr rfl), trivial⟩
  have hrow : (vaultAfter (Aead.labelled Nat (List UInt8) String String) jiraCredential firstKeyring
      rotatedOps).row =
      some ⟨"k1", (1, jiraCredential.associatedData "k1", "refresh-1"), 1, none, none⟩ := rfl
  exact (openReturns_iff (w := 0) hkeeps hrow rfl (fun _ => [9])).1.mpr ⟨by decide, Or.inl rfl⟩

/-- After the crash the claim expires, and the credential cannot be opened by the worker that has both
keys. -/
theorem openReturns_crashed :
    ¬ ∀ (keyring : CredentialKeyring Nat) (ops : List (VaultOp Nat String)) (w : Nat) (now : Int)
      (nonces : Fin 3 → List UInt8) (row : CredentialRow (Nat × String × String)),
      Guarded (vaultStep (Aead.labelled Nat (List UInt8) String String) jiraCredential) KeepsKeys
        (VaultState.start keyring) ops →
      let s := vaultAfter (Aead.labelled Nat (List UInt8) String String) jiraCredential keyring ops
      s.row = some row → row.unclaimedAt now → (s.workers w).phase = .idle →
      (∀ old ∈ s.deployed, (s.workers w).keyring.Keeps old) →
      ∃ payload, s.latest = some payload ∧
        OpenReturns (Aead.labelled Nat (List UInt8) String String) jiraCredential s w nonces
          payload := by
  intro h
  have hkeeps : Guarded (vaultStep (Aead.labelled Nat (List UInt8) String String) jiraCredential)
      KeepsKeys (VaultState.start firstKeyring) crashedOps :=
    ⟨keepsKeys_secondKeyring rfl (Or.inl rfl), keepsKeys_secondKeyring rfl (Or.inl rfl),
      keepsKeys_secondKeyring rfl (Or.inr rfl), trivial⟩
  obtain ⟨payload, _, upTo, hreturned⟩ := h firstKeyring crashedOps 0 90000000 (fun _ => [9])
    ⟨"k1", (1, jiraCredential.associatedData "k1", "refresh-1"), 1, none, some (0, 90000000)⟩ hkeeps rfl
    (by decide) rfl
    (by
      intro old hold
      rcases List.mem_cons.mp hold with rfl | hold
      · exact CredentialKeyring.Keeps.refl _
      · rw [List.mem_singleton.mp hold]
        exact secondKeyring_keeps)
  have hlength := congrArg List.length hreturned
  rw [List.length_append, List.length_singleton] at hlength
  revert hlength
  decide +kernel

end Dayfinch
