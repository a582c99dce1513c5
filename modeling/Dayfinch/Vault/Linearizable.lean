/-
# Dayfinch.Vault.Linearizable -- what the vault returns was written last, and who may change the row

Every payload that `open` or a claim returns is the one written last when the call makes its last
statement: a read sees the row as it is, and a re-encryption counts only while the revision is the one
that was read, which every write increments. The token of a claim plays the same part for a refresh: a
newer claim, a store and a replacement all take the row's token away, and without it neither a
replacement nor a release matches the row.

`VaultEffect` says once what a step does; the invariant follows from it alone.
-/
import Dayfinch.Vault.Workers
import Mathlib.Data.List.Nodup

namespace Dayfinch

open Library (Aead run run_invariant)

section

variable {Key Payload Sealed : Type}
variable {aead : Aead Key (List UInt8) String Payload Sealed} {identity : CredentialIdentity}
variable {s s' : VaultState Key Payload Sealed} {row row' : CredentialRow Sealed}

/-! ## What a step does -/

/-- What a step does to the row: nothing; a store or a replacement writes a payload; `open` seals the
same payload again; a worker claims the row, or gives its claim back. -/
inductive RowStep (aead : Aead Key (List UInt8) String Payload Sealed) (identity : CredentialIdentity)
    (s s' : VaultState Key Payload Sealed) : Prop
  | same (hrow : s'.row = s.row) (hlatest : s'.latest = s.latest) (hreplaced : s'.replaced = s.replaced)
    (hsuperseded : s'.supersededBelow = s.supersededBelow) (hnext : s.nextToken ≤ s'.nextToken)
  | write (row' : CredentialRow Sealed) (w : Nat) (payload : Payload) (hrow : s'.row = some row')
    (hlatest : s'.latest = some payload)
    (hholds : row'.Holds aead identity (s.workers w).keyring.primary.2 payload)
    (hkey : row'.keyId = (s.workers w).keyring.primaryId)
    (hclaim : row'.refreshClaim = none)
    (hrevision : ∀ row, s.row = some row → row'.revision = row.revision + 1)
    (hreplaced : s'.replaced = s.replaced ∨
      ∃ row, s.row = some row ∧ s'.replaced = s.replaced ++ [row.revision])
    (hsuperseded : s'.supersededBelow = s.nextToken) (hnext : s'.nextToken = s.nextToken)
  | rotate (row row' : CredentialRow Sealed) (w : Nat) (payload : Payload) (hold : s.row = some row)
    (hrow : s'.row = some row') (hlatest : s'.latest = s.latest) (hpayload : s.latest = some payload)
    (hholds : row'.Holds aead identity (s.workers w).keyring.primary.2 payload)
    (hkey : row'.keyId = (s.workers w).keyring.primaryId) (hclaim : row'.refreshClaim = none)
    (hrevision : row'.revision = row.revision + 1) (hreplaced : s'.replaced = s.replaced)
    (hsuperseded : s'.supersededBelow = s.supersededBelow) (hnext : s'.nextToken = s.nextToken)
  | claim (row : CredentialRow Sealed) (until_ : Int) (hold : s.row = some row)
    (hrow : s'.row = some { row with refreshClaim := some (s.nextToken, until_) })
    (hlatest : s'.latest = s.latest) (hreplaced : s'.replaced = s.replaced)
    (hsuperseded : s'.supersededBelow = s.nextToken) (hnext : s'.nextToken = s.nextToken + 1)
  | release (row : CredentialRow Sealed) (hold : s.row = some row)
    (hrow : s'.row = some { row with refreshClaim := none }) (hlatest : s'.latest = s.latest)
    (hreplaced : s'.replaced = s.replaced) (hsuperseded : s'.supersededBelow = s.supersededBelow)
    (hnext : s'.nextToken = s.nextToken)

/-- Where a worker is in `open` after a step: where it was; or nowhere; or about to read, in a call that
has begun; or about to seal again what it has read from the row as it is. -/
inductive PhaseStep (s : VaultState Key Payload Sealed) (w : Nat) : OpenPhase Payload → Prop
  | same : PhaseStep s w (s.workers w).phase
  | idle : PhaseStep s w .idle
  | reading (attempts since : Nat) (hsince : since ≤ s.index) : PhaseStep s w (.reading attempts since)
  | rotating (attempts since : Nat) (payload : Payload) (row : CredentialRow Sealed)
    (hsince : since ≤ s.index) (hrow : s.row = some row) (hlatest : s.latest = some payload) :
    PhaseStep s w (.rotating attempts since row.revision payload)

/-- A step returns nothing, or the payload that is the latest one. -/
inductive ReturnStep (s s' : VaultState Key Payload Sealed) : Prop
  | nothing (h : s'.returned = s.returned)
  | latest (w since : Nat) (payload : Payload) (hsince : since ≤ s.index)
    (hlatest : s.latest = some payload)
    (h : s'.returned = s.returned ++ [{ worker := w, payload, since, upTo := s.index }])

/-- **All that a step does**, before it is recorded. -/
structure VaultEffect (aead : Aead Key (List UInt8) String Payload Sealed)
    (identity : CredentialIdentity) (s s' : VaultState Key Payload Sealed) : Prop where
  row : RowStep aead identity s s'
  phase : ∀ w, PhaseStep s w (s'.workers w).phase
  returned : ReturnStep s s'
  history : s'.history = s.history

/-! ## The invariant -/

/-- What holds in every state. -/
structure VaultInvariant (aead : Aead Key (List UInt8) String Payload Sealed)
    (identity : CredentialIdentity) (s : VaultState Key Payload Sealed) : Prop where
  /-- The history ends with this state. -/
  recorded : s.history[s.index]? = some s.latest
  /-- The row holds what was written last. -/
  holds : ∀ row, s.row = some row →
    ∃ key payload, s.latest = some payload ∧ row.Holds aead identity key payload
  reading : ∀ w attempts since, (s.workers w).phase = .reading attempts since → since ≤ s.index
  /-- A worker that has read the row holds its payload as long as the revision stays. -/
  rotating : ∀ w attempts since revision payload,
    (s.workers w).phase = .rotating attempts since revision payload →
    since ≤ s.index ∧ ∃ row, s.row = some row ∧ revision ≤ row.revision ∧
      (revision = row.revision → s.latest = some payload)
  returned : ∀ r ∈ s.returned, ∃ k, r.since ≤ k ∧ k ≤ r.upTo ∧ s.history[k]? = some (some r.payload)
  replaced : ∀ revision ∈ s.replaced, ∃ row, s.row = some row ∧ revision < row.revision
  replaced_nodup : s.replaced.Nodup
  /-- The claim on the row is the newest one, and nothing was written since. -/
  claimed : ∀ row, s.row = some row → ∀ token until_, row.refreshClaim = some (token, until_) →
    s.supersededBelow ≤ token ∧ token < s.nextToken
  superseded : s.supersededBelow ≤ s.nextToken

/-- The revision never falls, and while it stays, so does the payload. -/
theorem RowStep.follows (h : RowStep aead identity s s') (hrow : s.row = some row) :
    ∃ row', s'.row = some row' ∧ row.revision ≤ row'.revision ∧
      (row.revision = row'.revision → s'.latest = s.latest) := by
  cases h with
  | same hsame hlatest =>
    exact ⟨row, hsame.trans hrow, Nat.le_refl _, fun _ => hlatest⟩
  | write row' w payload hnew hlatest hholds hkey hclaim hrevision =>
    have hnext := hrevision row hrow
    exact ⟨row', hnew, by omega, fun heq => by omega⟩
  | rotate old row' w payload hold hnew hlatest hpayload hholds hkey hclaim hrevision =>
    obtain rfl : old = row := Option.some.inj (hold.symm.trans hrow)
    exact ⟨row', hnew, by omega, fun heq => by omega⟩
  | claim old until_ hold hnew hlatest =>
    obtain rfl : old = row := Option.some.inj (hold.symm.trans hrow)
    exact ⟨_, hnew, Nat.le_refl _, fun _ => hlatest⟩
  | release old hold hnew hlatest =>
    obtain rfl : old = row := Option.some.inj (hold.symm.trans hrow)
    exact ⟨_, hnew, Nat.le_refl _, fun _ => hlatest⟩

theorem RowStep.holds (h : RowStep aead identity s s') (hinv : VaultInvariant aead identity s)
    (hrow : s'.row = some row') :
    ∃ key payload, s'.latest = some payload ∧ row'.Holds aead identity key payload := by
  cases h with
  | same hsame hlatest =>
    obtain ⟨key, payload, hp, hholds⟩ := hinv.holds row' (hsame.symm.trans hrow)
    exact ⟨key, payload, hlatest.trans hp, hholds⟩
  | write new w payload hnew hlatest hholds =>
    obtain rfl : new = row' := Option.some.inj (hnew.symm.trans hrow)
    exact ⟨_, payload, hlatest, hholds⟩
  | rotate old new w payload hold hnew hlatest hpayload hholds =>
    obtain rfl : new = row' := Option.some.inj (hnew.symm.trans hrow)
    exact ⟨_, payload, hlatest.trans hpayload, hholds⟩
  | claim old until_ hold hnew hlatest =>
    obtain rfl := Option.some.inj (hnew.symm.trans hrow)
    obtain ⟨key, payload, hp, hholds⟩ := hinv.holds old hold
    exact ⟨key, payload, hlatest.trans hp, hholds⟩
  | release old hold hnew hlatest =>
    obtain rfl := Option.some.inj (hnew.symm.trans hrow)
    obtain ⟨key, payload, hp, hholds⟩ := hinv.holds old hold
    exact ⟨key, payload, hlatest.trans hp, hholds⟩

/-- A replaced revision is behind the row, so no revision is replaced twice. -/
theorem RowStep.replaced (h : RowStep aead identity s s') (hinv : VaultInvariant aead identity s) :
    (∀ revision ∈ s'.replaced, ∃ row, s'.row = some row ∧ revision < row.revision) ∧
      s'.replaced.Nodup := by
  have hkept : s'.replaced = s.replaced →
      (∀ revision ∈ s'.replaced, ∃ row, s'.row = some row ∧ revision < row.revision) ∧
        s'.replaced.Nodup := by
    intro hsame
    rw [hsame]
    refine ⟨fun revision hrevision => ?_, hinv.replaced_nodup⟩
    obtain ⟨row, hrow, hlt⟩ := hinv.replaced revision hrevision
    obtain ⟨row', hrow', hle, _⟩ := h.follows hrow
    exact ⟨row', hrow', by omega⟩
  cases h with
  | same _ _ hreplaced => exact hkept hreplaced
  | rotate _ _ _ _ _ _ _ _ _ _ _ _ hreplaced => exact hkept hreplaced
  | claim _ _ _ _ _ hreplaced => exact hkept hreplaced
  | release _ _ _ _ hreplaced => exact hkept hreplaced
  | write row' w payload hnew hlatest hholds hkey hclaim hrevision hreplaced =>
    rcases hreplaced with hsame | ⟨row, hrow, hreplaced⟩
    · exact hkept hsame
    · have hnext := hrevision row hrow
      have hbehind : ∀ revision ∈ s.replaced, revision < row.revision := by
        intro revision hmem
        obtain ⟨old, hold, hlt⟩ := hinv.replaced revision hmem
        obtain rfl : old = row := Option.some.inj (hold.symm.trans hrow)
        exact hlt
      rw [hreplaced]
      constructor
      · intro revision hmem
        rcases List.mem_append.mp hmem with hold | hlast
        · have hlt := hbehind revision hold
          exact ⟨row', hnew, by omega⟩
        · rw [List.mem_singleton.mp hlast]
          exact ⟨row', hnew, by omega⟩
      · refine List.nodup_append.mpr ⟨hinv.replaced_nodup, List.nodup_singleton _, ?_⟩
        intro a ha b hb
        rw [List.mem_singleton.mp hb]
        exact Nat.ne_of_lt (hbehind a ha)

theorem RowStep.claimed (h : RowStep aead identity s s') (hinv : VaultInvariant aead identity s) :
    (∀ row, s'.row = some row → ∀ token until_, row.refreshClaim = some (token, until_) →
      s'.supersededBelow ≤ token ∧ token < s'.nextToken) ∧ s'.supersededBelow ≤ s'.nextToken := by
  have hbelow := hinv.superseded
  cases h with
  | same hsame _ _ hsuperseded hnext =>
    refine ⟨fun row hrow token until_ hclaim => ?_, by omega⟩
    have hold := hinv.claimed row (hsame.symm.trans hrow) token until_ hclaim
    omega
  | write row' w payload hnew _ _ _ hclaim _ _ hsuperseded hnext =>
    refine ⟨fun row hrow token until_ hsome => ?_, by omega⟩
    obtain rfl : row' = row := Option.some.inj (hnew.symm.trans hrow)
    rw [hclaim] at hsome
    cases hsome
  | rotate old row' w payload _ hnew _ _ _ _ hclaim _ _ hsuperseded hnext =>
    refine ⟨fun row hrow token until_ hsome => ?_, by omega⟩
    obtain rfl : row' = row := Option.some.inj (hnew.symm.trans hrow)
    rw [hclaim] at hsome
    cases hsome
  | claim old ends _ hnew _ _ hsuperseded hnext =>
    refine ⟨fun row hrow token until_ hsome => ?_, by omega⟩
    obtain rfl := Option.some.inj (hnew.symm.trans hrow)
    obtain ⟨rfl, _⟩ := Prod.mk.inj (Option.some.inj hsome)
    omega
  | release old _ hnew _ _ hsuperseded hnext =>
    refine ⟨fun row hrow token until_ hsome => ?_, by omega⟩
    obtain rfl := Option.some.inj (hnew.symm.trans hrow)
    cases hsome

theorem VaultState.index_record (hnonempty : s'.history = s.history)
    (hrecorded : s.history[s.index]? = some s.latest) : s'.record.index = s.index + 1 := by
  have hlt := (List.getElem?_eq_some_iff.mp hrecorded).1
  unfold VaultState.record VaultState.index at *
  rw [List.length_append, List.length_singleton, hnonempty]
  omega

/-- **A step keeps the invariant**, by what it does alone. -/
theorem VaultInvariant.of_effect (hinv : VaultInvariant aead identity s)
    (h : VaultEffect aead identity s s') : VaultInvariant aead identity s'.record := by
  have hindex := VaultState.index_record h.history hinv.recorded
  have hlength : s.history.length = s.index + 1 := by
    have hlt := (List.getElem?_eq_some_iff.mp hinv.recorded).1
    unfold VaultState.index at *
    omega
  have hhistory : s'.record.history = s.history ++ [s'.latest] := by
    show s'.history ++ [s'.latest] = _
    rw [h.history]
  have hkept : ∀ (k : Nat) (x : Option Payload), s.history[k]? = some x → s'.record.history[k]? = some x := by
    intro k x hk
    rw [hhistory, List.getElem?_append_left (List.getElem?_eq_some_iff.mp hk).1]
    exact hk
  constructor
  · rw [hindex, hhistory, List.getElem?_append_right (by omega), hlength, Nat.sub_self]
    rfl
  · exact fun row hrow => h.row.holds hinv hrow
  · intro w attempts since hphase
    rw [hindex]
    have hphase' : (s'.workers w).phase = .reading attempts since := hphase
    have hstep := h.phase w
    rw [hphase'] at hstep
    generalize hp : OpenPhase.reading attempts since = p at hstep
    cases hstep with
    | same =>
      have hle := hinv.reading w attempts since hp.symm
      omega
    | idle => cases hp
    | reading attempts' since' hsince =>
      obtain ⟨_, rfl⟩ := OpenPhase.reading.inj hp
      omega
    | rotating => cases hp
  · intro w attempts since revision payload hphase
    rw [hindex]
    have hphase' : (s'.workers w).phase = .rotating attempts since revision payload := hphase
    have hstep := h.phase w
    rw [hphase'] at hstep
    generalize hp : OpenPhase.rotating attempts since revision payload = p at hstep
    cases hstep with
    | same =>
      obtain ⟨hle, row, hrow, hrevision, hlatest⟩ :=
        hinv.rotating w attempts since revision payload hp.symm
      obtain ⟨row', hrow', hle', hsame⟩ := h.row.follows hrow
      refine ⟨by omega, row', hrow', by omega, fun heq => ?_⟩
      exact (hsame (by omega)).trans (hlatest (by omega))
    | idle => cases hp
    | reading => cases hp
    | rotating attempts' since' payload' row hsince hrow hlatest =>
      obtain ⟨_, rfl, rfl, rfl⟩ := OpenPhase.rotating.inj hp
      obtain ⟨row', hrow', hle', hsame⟩ := h.row.follows hrow
      exact ⟨by omega, row', hrow', hle', fun heq => (hsame heq).trans hlatest⟩
  · intro r hr
    have hold : r ∈ s.returned → ∃ k, r.since ≤ k ∧ k ≤ r.upTo ∧
        s'.record.history[k]? = some (some r.payload) := by
      intro hmem
      obtain ⟨k, hfrom, hto, hk⟩ := hinv.returned r hmem
      exact ⟨k, hfrom, hto, hkept k _ hk⟩
    have hr' : r ∈ s'.returned := hr
    cases h.returned with
    | nothing hnothing =>
      rw [hnothing] at hr'
      exact hold hr'
    | latest w since payload hsince hlatest happend =>
      rw [happend] at hr'
      rcases List.mem_append.mp hr' with hmem | hnew
      · exact hold hmem
      · obtain rfl := List.mem_singleton.mp hnew
        refine ⟨s.index, hsince, Nat.le_refl _, hkept _ _ ?_⟩
        rw [hinv.recorded, hlatest]
  · exact (h.row.replaced hinv).1
  · exact (h.row.replaced hinv).2
  · exact (h.row.claimed hinv).1
  · exact (h.row.claimed hinv).2

/-! ## The operations -/

/-- A worker changes, and its place in `open` as a step may change it. -/
theorem VaultEffect.setWorker {w : Nat} {worker : VaultWorker Key Payload}
    (h : PhaseStep s w worker.phase) (v : Nat) :
    PhaseStep s v ((s.setWorker w worker).workers v).phase := by
  by_cases hv : v = w
  · subst hv
    simpa [VaultState.setWorker] using h
  · simpa [VaultState.setWorker, hv] using PhaseStep.same

theorem VaultEffect.refl (s : VaultState Key Payload Sealed) : VaultEffect aead identity s s where
  row := .same rfl rfl rfl rfl (Nat.le_refl _)
  phase := fun _ => .same
  returned := .nothing rfl
  history := rfl

/-- A step of `open` that writes nothing and returns nothing. -/
theorem VaultEffect.setPhase {w : Nat} {phase : OpenPhase Payload} (h : PhaseStep s w phase) :
    VaultEffect aead identity s (s.setPhase w phase) where
  row := .same rfl rfl rfl rfl (Nat.le_refl _)
  phase := VaultEffect.setWorker h
  returned := .nothing rfl
  history := rfl

/-- What `_encrypt` makes holds the payload. -/
theorem holds_encryptCredential {keyring : CredentialKeyring Key} {nonce : List UInt8}
    {payload : Payload}
    (hkey : row.keyId = (encryptCredential aead identity keyring nonce payload).1)
    (hciphertext : row.ciphertext = (encryptCredential aead identity keyring nonce payload).2) :
    row.Holds aead identity keyring.primary.2 payload := by
  unfold CredentialRow.Holds
  rw [hkey, hciphertext]
  exact ⟨nonce, rfl⟩

theorem storeStep_effect (w : Nat) (now : Int) (nonce : List UInt8) (payload : Payload)
    (expires : Option Int) :
    VaultEffect aead identity s (storeStep aead identity s w now nonce payload expires) := by
  unfold storeStep
  dsimp only
  split
  · exact .refl s
  · rename_i row hstore
    obtain ⟨hkey, hciphertext, hclaim, hrevision⟩ := CredentialRow.store_eq_some hstore
    exact {
      row := .write row w payload rfl rfl (holds_encryptCredential hkey hciphertext) hkey hclaim
        hrevision (Or.inl rfl) rfl rfl
      phase := fun _ => .same
      returned := .nothing rfl
      history := rfl }

/-- What a worker decrypts is what was written last. -/
theorem VaultInvariant.latest_of_decryptRow (hinv : VaultInvariant aead identity s)
    {keyring : CredentialKeyring Key} {payload : Payload} (hrow : s.row = some row)
    (hopen : decryptRow aead identity keyring row = .ok payload) : s.latest = some payload := by
  obtain ⟨key, held, hlatest, hholds⟩ := hinv.holds row hrow
  rw [hholds.of_decryptRow hopen]
  exact hlatest

theorem readStep_effect (hinv : VaultInvariant aead identity s) (w attempts since : Nat)
    (hsince : since ≤ s.index) :
    VaultEffect aead identity s (readStep aead identity s w attempts since) := by
  unfold readStep
  split
  · exact .setPhase .idle
  · rename_i row hrow
    split
    · exact .setPhase .idle
    · rename_i payload hopen
      have hlatest := hinv.latest_of_decryptRow hrow hopen
      split
      · exact {
          row := .same rfl rfl rfl rfl (Nat.le_refl _)
          phase := VaultEffect.setWorker .idle
          returned := .latest w since payload hsince hlatest rfl
          history := rfl }
      · exact .setPhase (.rotating attempts since payload row hsince hrow hlatest)

theorem rotateStep_effect (hinv : VaultInvariant aead identity s) (w attempts since revision : Nat)
    (payload : Payload) (nonce : List UInt8)
    (hphase : (s.workers w).phase = .rotating attempts since revision payload) :
    VaultEffect aead identity s
      (rotateStep aead identity s w attempts since revision payload nonce) := by
  obtain ⟨hsince, old, hold, hle, hread⟩ := hinv.rotating w attempts since revision payload hphase
  unfold rotateStep
  dsimp only
  rw [hold, Option.bind_some]
  split
  · rename_i row' hrotate
    obtain ⟨hrevision, hclaim, rfl⟩ := CredentialRow.rotate_eq_some hrotate
    have hlatest := hread hrevision.symm
    exact {
      row := .rotate old _ w payload hold rfl rfl hlatest (holds_encryptCredential rfl rfl) rfl hclaim
        rfl rfl rfl rfl
      phase := VaultEffect.setWorker .idle
      returned := .latest w since payload hsince hlatest rfl
      history := rfl }
  · split
    · exact .setPhase .idle
    · exact .setPhase (.reading _ since hsince)

theorem claimStep_effect (hinv : VaultInvariant aead identity s) (w : Nat)
    (observedAt leaseSeconds : Int) :
    VaultEffect aead identity s (claimStep aead identity s w observedAt leaseSeconds) := by
  unfold claimStep
  split
  · exact .refl s
  · split
    · exact {
        row := .same rfl rfl rfl rfl (Nat.le_succ _)
        phase := fun _ => .same
        returned := .nothing rfl
        history := rfl }
    · rename_i row' hclaim
      obtain ⟨old, hold, hclaim⟩ := Option.bind_eq_some_iff.mp hclaim
      have hrow' : row' = { old with
          refreshClaim := some (s.nextToken, observedAt + leaseSeconds * 1000000) } := by
        unfold CredentialRow.claim at hclaim
        split at hclaim
        · exact (Option.some.inj hclaim).symm
        · cases hclaim
      have hrow : ∀ s', s'.row = some row' → s'.latest = s.latest → s'.replaced = s.replaced →
          s'.supersededBelow = s.nextToken → s'.nextToken = s.nextToken + 1 →
          RowStep aead identity s s' := by
        intro s' hnew hlatest hreplaced hsuperseded hnext
        exact .claim old _ hold (hrow' ▸ hnew) hlatest hreplaced hsuperseded hnext
      dsimp only
      split
      · exact {
          row := hrow _ rfl rfl rfl rfl rfl
          phase := VaultEffect.setWorker .same
          returned := .nothing rfl
          history := rfl }
      · rename_i payload hopen
        -- the claim changes neither the key nor the ciphertext
        have hopen' : decryptRow aead identity (s.workers w).keyring old = .ok payload := by
          rw [hrow'] at hopen
          exact hopen
        exact {
          row := hrow _ rfl rfl rfl rfl rfl
          phase := VaultEffect.setWorker .same
          returned := .latest w s.index payload (Nat.le_refl _)
            (hinv.latest_of_decryptRow hold hopen') rfl
          history := rfl }

theorem replaceStep_effect (w token : Nat) (nonce : List UInt8) (payload : Payload)
    (expires : Option Int) :
    VaultEffect aead identity s (replaceStep aead identity s w token nonce payload expires) := by
  unfold replaceStep
  split
  · exact .refl s
  · dsimp only
    split
    · exact .refl s
    · rename_i row' hreplace
      obtain ⟨old, hold, hreplace⟩ := Option.bind_eq_some_iff.mp hreplace
      obtain ⟨hrevision, _, rfl⟩ := CredentialRow.replace_eq_some hreplace
      exact {
        row := by
          refine .write _ w payload rfl rfl (holds_encryptCredential rfl rfl) rfl rfl ?_
            (Or.inr ⟨old, hold, by rw [hrevision]⟩) rfl rfl
          intro row hrow
          rw [Option.some.inj (hold.symm.trans hrow)]
        phase := fun _ => .same
        returned := .nothing rfl
        history := rfl }

theorem releaseStep_effect (w token : Nat) :
    VaultEffect aead identity s (releaseStep s w token) := by
  unfold releaseStep
  split
  · exact .refl s
  · split
    · exact .refl s
    · rename_i row' hrelease
      obtain ⟨old, hold, hrelease⟩ := Option.bind_eq_some_iff.mp hrelease
      unfold CredentialRow.release at hrelease
      split at hrelease
      · exact {
          row := .release old hold (by rw [← Option.some.inj hrelease]) rfl rfl rfl rfl
          phase := fun _ => .same
          returned := .nothing rfl
          history := rfl }
      · cases hrelease

theorem vaultAct_effect (hinv : VaultInvariant aead identity s) (op : VaultOp Key Payload) :
    VaultEffect aead identity s (vaultAct aead identity s op) := by
  cases op with
  | restart w keyring =>
    exact {
      row := .same rfl rfl rfl rfl (Nat.le_refl _)
      phase := VaultEffect.setWorker .idle
      returned := .nothing rfl
      history := rfl }
  | store w now nonce payload expires => exact storeStep_effect w now nonce payload expires
  | beginOpen w =>
    unfold vaultAct
    dsimp only
    split
    · exact .setPhase (.reading 2 _ (Nat.le_refl _))
    · exact .refl s
  | readRow w =>
    unfold vaultAct
    dsimp only
    split
    · rename_i attempts since hphase
      exact readStep_effect hinv w attempts since (hinv.reading w attempts since hphase)
    · exact .refl s
  | rotateRow w nonce =>
    unfold vaultAct
    dsimp only
    split
    · rename_i attempts since revision payload hphase
      exact rotateStep_effect hinv w attempts since revision payload nonce hphase
    · exact .refl s
  | claim w observedAt leaseSeconds => exact claimStep_effect hinv w observedAt leaseSeconds
  | replace w token nonce payload expires => exact replaceStep_effect w token nonce payload expires
  | release w token => exact releaseStep_effect w token

theorem VaultInvariant.step (hinv : VaultInvariant aead identity s) (op : VaultOp Key Payload) :
    VaultInvariant aead identity (vaultStep aead identity s op) :=
  hinv.of_effect (vaultAct_effect hinv op)

theorem VaultInvariant.start (keyring : CredentialKeyring Key) :
    VaultInvariant aead identity (VaultState.start keyring) where
  recorded := rfl
  holds := by
    intro row hrow
    cases hrow
  reading := by
    intro w attempts since hphase
    cases hphase
  rotating := by
    intro w attempts since revision payload hphase
    cases hphase
  returned := by
    intro r hr
    cases hr
  replaced := by
    intro revision hrevision
    cases hrevision
  replaced_nodup := List.nodup_nil
  claimed := by
    intro row hrow
    cases hrow
  superseded := Nat.le_refl _

/-! ## Claims that are superseded -/

/-- Where a store, a claim or a replacement changes the row, every claim handed out before is
superseded. -/
theorem supersededBelow_of_takesOver {op : VaultOp Key Payload} (htakes : op.TakesOver)
    (hchanged : (vaultStep aead identity s op).row ≠ s.row) :
    (vaultStep aead identity s op).supersededBelow = s.nextToken := by
  cases op with
  | store w now nonce payload expires =>
    have hstep : (storeStep aead identity s w now nonce payload expires).row ≠ s.row := hchanged
    show (storeStep aead identity s w now nonce payload expires).supersededBelow = s.nextToken
    unfold storeStep at hstep ⊢
    dsimp only at hstep ⊢
    split at hstep
    · exact absurd rfl hstep
    · rfl
  | claim w observedAt leaseSeconds =>
    have hstep : (claimStep aead identity s w observedAt leaseSeconds).row ≠ s.row := hchanged
    show (claimStep aead identity s w observedAt leaseSeconds).supersededBelow = s.nextToken
    unfold claimStep at hstep ⊢
    split at hstep
    · exact absurd rfl hstep
    · rename_i hlease
      rw [if_neg hlease]
      split at hstep
      · exact absurd rfl hstep
      · dsimp only
        split <;> rfl
  | replace w token nonce payload expires =>
    have hstep : (replaceStep aead identity s w token nonce payload expires).row ≠ s.row := hchanged
    show (replaceStep aead identity s w token nonce payload expires).supersededBelow = s.nextToken
    unfold replaceStep at hstep ⊢
    split at hstep
    · exact absurd rfl hstep
    · dsimp only at hstep ⊢
      split at hstep
      · exact absurd rfl hstep
      · rfl
  | restart | beginOpen | readRow | rotateRow | release => cases htakes

theorem RowStep.supersededBelow_le (h : RowStep aead identity s s')
    (hinv : VaultInvariant aead identity s) : s.supersededBelow ≤ s'.supersededBelow := by
  have hbelow := hinv.superseded
  cases h with
  | same _ _ _ hsuperseded => omega
  | write _ _ _ _ _ _ _ _ _ _ hsuperseded => omega
  | rotate _ _ _ _ _ _ _ _ _ _ _ _ _ hsuperseded => omega
  | claim _ _ _ _ _ _ hsuperseded => omega
  | release _ _ _ _ _ hsuperseded => omega

theorem supersededBelow_run (hinv : VaultInvariant aead identity s) (ops : List (VaultOp Key Payload)) :
    s.supersededBelow ≤ (run (vaultStep aead identity) s ops).supersededBelow := by
  induction ops generalizing s with
  | nil => exact Nat.le_refl _
  | cons op ops ih =>
    have hle := (vaultAct_effect hinv op).row.supersededBelow_le hinv
    exact Nat.le_trans hle (ih (hinv.step op))

/-- The row is not held with a superseded token. -/
theorem VaultInvariant.not_heldBy (hinv : VaultInvariant aead identity s) (hrow : s.row = some row)
    {token : Nat} (hsuperseded : token < s.supersededBelow) : ¬ row.heldBy token := by
  intro hheld
  obtain ⟨until_, hclaim⟩ := CredentialRow.heldBy_iff.mp hheld
  have hle := (hinv.claimed row hrow token until_ hclaim).1
  omega

theorem VaultInvariant.replace_row (hinv : VaultInvariant aead identity s) {token : Nat}
    (hsuperseded : token < s.supersededBelow) (w : Nat) (nonce : List UInt8) (payload : Payload)
    (expires : Option Int) :
    (vaultStep aead identity s (.replace w token nonce payload expires)).row = s.row := by
  show (replaceStep aead identity s w token nonce payload expires).row = s.row
  unfold replaceStep
  split
  · rfl
  · dsimp only
    split
    · rfl
    · rename_i row' hreplace
      obtain ⟨row, hrow, hreplace⟩ := Option.bind_eq_some_iff.mp hreplace
      obtain ⟨_, hheld, _⟩ := CredentialRow.replace_eq_some hreplace
      exact absurd hheld (hinv.not_heldBy hrow hsuperseded)

theorem VaultInvariant.release_row (hinv : VaultInvariant aead identity s) {token : Nat}
    (hsuperseded : token < s.supersededBelow) (w : Nat) :
    (vaultStep aead identity s (.release w token)).row = s.row := by
  show (releaseStep s w token).row = s.row
  unfold releaseStep
  split
  · rfl
  · split
    · rfl
    · rename_i row' hrelease
      obtain ⟨row, hrow, hrelease⟩ := Option.bind_eq_some_iff.mp hrelease
      unfold CredentialRow.release at hrelease
      split at hrelease
      · rename_i hheld
        exact absurd hheld (hinv.not_heldBy hrow hsuperseded)
      · cases hrelease

/-! ## Re-encryption -/

/-- The row before and after: sealed over the same payload. -/
def SameCredential (aead : Aead Key (List UInt8) String Payload Sealed) (identity : CredentialIdentity)
    (row row' : CredentialRow Sealed) : Prop :=
  ∃ key key' payload, row.Holds aead identity key payload ∧ row'.Holds aead identity key' payload

/-- A step of `open` leaves the row as it is, or seals its payload again, and that only while the
revision is the one that the worker has read. -/
theorem VaultInvariant.opens_row (hinv : VaultInvariant aead identity s) {w : Nat}
    {op : VaultOp Key Payload} (hopens : op.Opens w) :
    (vaultStep aead identity s op).row = s.row ∨
      ∃ row row' attempts since payload, s.row = some row ∧
        (s.workers w).phase = .rotating attempts since row.revision payload ∧
        (vaultStep aead identity s op).row = some row' ∧ SameCredential aead identity row row' := by
  cases op with
  | beginOpen v =>
    left
    show (vaultAct aead identity s (.beginOpen v)).row = s.row
    unfold vaultAct
    dsimp only
    split <;> rfl
  | readRow v =>
    left
    show (vaultAct aead identity s (.readRow v)).row = s.row
    unfold vaultAct readStep
    dsimp only
    repeat' split
    all_goals rfl
  | rotateRow v nonce =>
    obtain rfl : v = w := hopens
    show (vaultAct aead identity s (.rotateRow v nonce)).row = s.row ∨ _
    rw [show (vaultStep aead identity s (.rotateRow v nonce)).row =
      (vaultAct aead identity s (.rotateRow v nonce)).row from rfl]
    unfold vaultAct
    dsimp only
    split
    · rename_i attempts since revision payload hphase
      unfold rotateStep
      dsimp only
      split
      · rename_i row' hrotate
        obtain ⟨row, hrow, hrotate⟩ := Option.bind_eq_some_iff.mp hrotate
        obtain ⟨hrevision, _, hrow'⟩ := CredentialRow.rotate_eq_some hrotate
        obtain ⟨key, held, hlatest, hholds⟩ := hinv.holds row hrow
        obtain ⟨_, old, hold, _, hread⟩ := hinv.rotating v attempts since revision payload hphase
        obtain rfl : old = row := Option.some.inj (hold.symm.trans hrow)
        obtain rfl : payload = held :=
          Option.some.inj ((hread hrevision.symm).symm.trans hlatest)
        right
        refine ⟨old, row', attempts, since, payload, hold, by rw [hrevision]; exact hphase, rfl, ?_⟩
        refine ⟨key, (s.workers v).keyring.primary.2, payload, hholds, ?_⟩
        rw [hrow']
        exact holds_encryptCredential rfl rfl
      · left
        split <;> rfl
    · exact Or.inl rfl
  | restart | store | claim | replace | release => cases hopens

/-! ## Runs -/

theorem vaultAfter_invariant (keyring : CredentialKeyring Key) (ops : List (VaultOp Key Payload)) :
    VaultInvariant aead identity (vaultAfter aead identity keyring ops) :=
  run_invariant (VaultInvariant aead identity) (fun _ op hinv => hinv.step op)
    (VaultInvariant.start keyring) ops

/-- The history of a run is what was latest after each of its steps. -/
theorem history_run (hinv : VaultInvariant aead identity s) (ops : List (VaultOp Key Payload)) :
    (run (vaultStep aead identity) s ops).history = s.history ++
      (List.range ops.length).map fun k => (run (vaultStep aead identity) s (ops.take (k + 1))).latest := by
  induction ops generalizing s with
  | nil => simp
  | cons op ops ih =>
    have hstep : (vaultStep aead identity s op).history =
        s.history ++ [(vaultStep aead identity s op).latest] := by
      show (vaultAct aead identity s op).history ++ [_] = _
      rw [(vaultAct_effect hinv op).history]
      rfl
    rw [Library.run_cons, ih (hinv.step op), hstep, List.append_assoc, List.length_cons,
      List.range_succ_eq_map, List.map_cons, List.map_map]
    rfl

/-- The state with number `k` of a run is the one after `k` steps. -/
theorem latest_of_history {keyring : CredentialKeyring Key} {ops : List (VaultOp Key Payload)}
    {k : Nat} {x : Option Payload} (h : (vaultAfter aead identity keyring ops).history[k]? = some x) :
    k ≤ ops.length ∧ (vaultAfter aead identity keyring (ops.take k)).latest = x := by
  unfold vaultAfter at h ⊢
  rw [history_run (VaultInvariant.start keyring) ops] at h
  cases k with
  | zero => exact ⟨Nat.zero_le _, Option.some.inj h⟩
  | succ k =>
    rw [show (VaultState.start keyring : VaultState Key Payload Sealed).history = [none] from rfl,
      List.singleton_append, List.getElem?_cons_succ, List.getElem?_map, Option.map_eq_some_iff] at h
    obtain ⟨i, hi, hx⟩ := h
    obtain ⟨hlt, rfl⟩ := List.getElem?_eq_some_iff.mp hi
    rw [List.length_range] at hlt
    rw [List.getElem_range] at hx
    exact ⟨hlt, hx⟩

/-- What the vault promises about a run and about the step after it. -/
structure VaultLinearizable (aead : Aead Key (List UInt8) String Payload Sealed)
    (identity : CredentialIdentity) (keyring : CredentialKeyring Key)
    (ops : List (VaultOp Key Payload)) : Prop where
  /-- What was returned had been written last in a state between the start and the end of the call. -/
  returned : ∀ r ∈ (vaultAfter aead identity keyring ops).returned, ∃ k, r.since ≤ k ∧ k ≤ r.upTo ∧
    k ≤ ops.length ∧ (vaultAfter aead identity keyring (ops.take k)).latest = some r.payload
  /-- No revision is replaced twice. -/
  replaced : (vaultAfter aead identity keyring ops).replaced.Nodup
  /-- `open` changes the row only by sealing its payload again, at the revision it has read. -/
  opens : ∀ w op, VaultOp.Opens w op →
    let s := vaultAfter aead identity keyring ops
    (vaultStep aead identity s op).row = s.row ∨
      ∃ row row' attempts since payload, s.row = some row ∧
        (s.workers w).phase = .rotating attempts since row.revision payload ∧
        (vaultStep aead identity s op).row = some row' ∧ SameCredential aead identity row row'
  /-- A claim handed out before a store, a claim or a replacement that counted changes nothing. -/
  superseded : ∀ before op after, ops = before ++ op :: after → op.TakesOver →
    let old := vaultAfter aead identity keyring before
    (vaultStep aead identity old op).row ≠ old.row →
    ∀ token < old.nextToken, ∀ w,
      let s := vaultAfter aead identity keyring ops
      (∀ nonce payload expires,
        (vaultStep aead identity s (.replace w token nonce payload expires)).row = s.row) ∧
      (vaultStep aead identity s (.release w token)).row = s.row

/-- **The vault is linearizable**, for any workers, keyrings, clocks and interleaving of their steps. -/
theorem vault_linearizable (aead : Aead Key (List UInt8) String Payload Sealed)
    (identity : CredentialIdentity) (keyring : CredentialKeyring Key)
    (ops : List (VaultOp Key Payload)) : VaultLinearizable aead identity keyring ops where
  returned := by
    intro r hr
    obtain ⟨k, hfrom, hto, hk⟩ := (vaultAfter_invariant keyring ops).returned r hr
    obtain ⟨hlength, hlatest⟩ := latest_of_history hk
    exact ⟨k, hfrom, hto, hlength, hlatest⟩
  replaced := (vaultAfter_invariant keyring ops).replaced_nodup
  opens := fun w op hopens => (vaultAfter_invariant keyring ops).opens_row hopens
  superseded := by
    intro before op after hops htakes old hchanged token htoken w s
    have hinv : VaultInvariant aead identity s := vaultAfter_invariant keyring ops
    have hbelow : token < s.supersededBelow := by
      have hstep := supersededBelow_of_takesOver htakes hchanged
      have hold : VaultInvariant aead identity old := vaultAfter_invariant keyring before
      have hrun := supersededBelow_run (hold.step op) after
      have hs : s = run (vaultStep aead identity) (vaultStep aead identity old op) after := by
        show run _ _ ops = _
        rw [hops, Library.run_append]
        rfl
      rw [← hs, hstep] at hrun
      omega
    exact ⟨fun nonce payload expires => hinv.replace_row hbelow w nonce payload expires,
      hinv.release_row hbelow w⟩

end

end Dayfinch
