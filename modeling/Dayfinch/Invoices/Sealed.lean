/-
# Dayfinch.Invoices.Sealed -- a sealed invoice stays openable and current

The digest of the stored blob is recorded, or the seal that wrote the blob is about to record it; and the
blob shows the invoice as it is, or a seal that will write it over has read the invoice as it is. A run keeps
both as long as no seal writes or records something older over something newer, or fails between its blob
and its digest.
-/
import Dayfinch.Invoices.Documents
import Dayfinch.Library.Table

namespace Dayfinch

open Library (Aead run Guarded guarded_invariant mem_modify_cases getElem?_modify_of_ne getElem?_modify_self)

section

variable {Key Nonce Content Digest Sealed : Type}
variable (vault : InvoiceVault Key Nonce Content Digest Sealed)

namespace SealPhase

/-- The seal has written its blob. -/
def wrote : SealPhase Content Digest → Bool
  | .recording _ | .returning | .sealed => true
  | _ => false

/-- The seal has recorded its digest. -/
def recorded : SealPhase Content Digest → Bool
  | .returning | .sealed => true
  | _ => false

end SealPhase

namespace SealState

/-- The blob of the invoice is sealed over this snapshot. -/
def Stored (s : SealState Content Digest Sealed) (key : DocumentKey) (snapshot : InvoiceRecord Content Digest) :
    Prop :=
  ∃ blob ∈ s.blobs key, blob.magic = documentMagic ∧ vault.aead.Seals vault.key key blob.body snapshot

/-- The stored blob shows the invoice as it is. -/
def ShowsCurrent (s : SealState Content Digest Sealed) (key : DocumentKey) : Prop :=
  ∃ snapshot, s.Stored vault key snapshot ∧ ∃ row ∈ s.invoices key, snapshot.content = row.content

structure Sound (s : SealState Content Digest Sealed) : Prop where
  stored : ∀ key, s.blobs key ≠ none → ∃ snapshot, s.Stored vault key snapshot ∧ (key, snapshot) ∈ s.taken
  saving : ∀ c ∈ s.seals, ∀ snapshot ∈ c.phase.saves, (c.key, snapshot) ∈ s.taken
  wrote : ∀ c ∈ s.seals, c.phase.wrote = true → s.blobs c.key ≠ none
  read : ∀ key snapshot, (key, snapshot) ∈ s.taken → s.invoices key ≠ none
  documents : ∀ key, ∀ row ∈ s.invoices key, ∀ document ∈ row.document, document.key = key
  recorded : ∀ c ∈ s.seals, c.phase.recorded = true → ∃ row ∈ s.invoices c.key, row.document ≠ none
  matched : ∀ key, s.blobs key ≠ none → s.Recorded vault key ∨
    ∃ c ∈ s.seals, c.key = key ∧ ∃ sha256 ∈ c.phase.records, s.OfStored vault key sha256
  current : ∀ key, (∃ c ∈ s.seals, c.key = key) →
    (∃ c ∈ s.seals, c.key = key ∧ (c.phase = .failed ∨ s.Pending c)) ∨ s.ShowsCurrent vault key

variable {vault} {s : SealState Content Digest Sealed}

/-! ## Opening -/

section

variable [DecidableEq Digest]

/-- A document whose digest is recorded opens to what its blob is sealed over. -/
theorem Sound.openDocument (h : s.Sound vault) {key : DocumentKey} {snapshot : InvoiceRecord Content Digest}
    (hrecorded : s.Recorded vault key) (hstored : s.Stored vault key snapshot) :
    s.openDocument vault key = .ok snapshot := by
  obtain ⟨row, hrow, document, hdocument, blob, hblob, hsha⟩ := hrecorded
  obtain ⟨blob', hblob', hmagic, hseals⟩ := hstored
  obtain rfl : blob = blob' := Option.some.inj (hblob.symm.trans hblob')
  have hkey := h.documents key row hrow document hdocument
  have hcolumns : (s.invoices key).bind (·.document) = some document := by
    rw [show s.invoices key = some row from hrow]
    exact hdocument
  have hread : s.blobs document.key = some blob := by rw [hkey]; exact hblob
  unfold SealState.openDocument
  simp only [hcolumns, hread]
  rw [if_neg (not_not.mpr hsha.symm), if_neg (not_not.mpr hmagic), hseals.decrypt]

theorem Sound.staysOpenable (h : s.Sound vault) : s.StaysOpenable vault := by
  intro key ⟨c, hc, hkey, hphase⟩ hidle
  have hblob : s.blobs key ≠ none := by
    rw [← hkey]
    exact h.wrote c hc (by rw [hphase]; rfl)
  have hrecorded : s.Recorded vault key := by
    refine (h.matched key hblob).resolve_right fun ⟨d, hd, hdkey, sha256, hdphase, _⟩ => ?_
    have hended := hidle d hd hdkey
    cases hphase : d.phase <;> simp [hphase, SealPhase.records, SealPhase.ended] at hdphase hended
  obtain ⟨snapshot, hstored, htaken⟩ := h.stored key hblob
  exact ⟨snapshot, h.openDocument hrecorded hstored, htaken⟩

theorem Sound.staysCurrent (h : s.Sound vault) : s.StaysCurrent vault := by
  intro key ⟨c, hc, hkey⟩ hall
  have hblob : s.blobs key ≠ none := by
    rw [← hkey]
    exact h.wrote c hc (by rw [hall c hc hkey]; rfl)
  have hrecorded : s.Recorded vault key := by
    refine (h.matched key hblob).resolve_right fun ⟨d, hd, hdkey, sha256, hdphase, _⟩ => ?_
    rw [hall d hd hdkey] at hdphase
    exact nomatch hdphase
  rcases h.current key ⟨c, hc, hkey⟩ with ⟨d, hd, hdkey, hfailed | hreading | ⟨snapshot, hsaving, _⟩⟩ | hshows
  · exact nomatch hfailed.symm.trans (hall d hd hdkey)
  · exact nomatch hreading.symm.trans (hall d hd hdkey)
  · rw [hall d hd hdkey] at hsaving
    exact nomatch hsaving
  · obtain ⟨snapshot, hstored, row, hrow, hcontent⟩ := hshows
    refine ⟨row, hrow, snapshot.document, ?_⟩
    rw [h.openDocument hrecorded hstored, ← hcontent]

end

/-! ## Moves of a seal -/

section

variable {k : Nat} {c : SealCall Content Digest} {phase : SealPhase Content Digest}

/-- What one of the seals has, one has after the `k`-th has moved, if it was not the `k`-th or still has it. -/
theorem exists_moved {P : SealCall Content Digest → Prop} (hc : s.seals[k]? = some c) (h : ∃ d ∈ s.seals, P d)
    (hk : P c → P { c with phase := phase }) : ∃ d ∈ (s.moveSeal k phase).seals, P d := by
  obtain ⟨d, hd, hP⟩ := h
  obtain ⟨i, hi⟩ := List.mem_iff_getElem?.mp hd
  by_cases heq : i = k
  · subst heq
    obtain rfl : c = d := Option.some.inj (hc.symm.trans hi)
    exact ⟨_, List.mem_of_getElem? (getElem?_modify_self hc), hk hP⟩
  · exact ⟨d, List.mem_of_getElem? (getElem?_modify_of_ne hi heq), hP⟩

theorem forall_moved {P : SealCall Content Digest → Prop} (hc : s.seals[k]? = some c) (h : ∀ d ∈ s.seals, P d)
    (hk : P { c with phase := phase }) : ∀ d ∈ (s.moveSeal k phase).seals, P d := by
  intro d hd
  rcases mem_modify_cases hd with ⟨i, _, hi⟩ | ⟨e, he, rfl⟩
  · exact h d (List.mem_of_getElem? hi)
  · obtain rfl : c = e := Option.some.inj (hc.symm.trans he)
    exact hk

/-- The keys of the seals stay. -/
theorem exists_key_of_moved {key : DocumentKey} (h : ∃ d ∈ (s.moveSeal k phase).seals, d.key = key) :
    ∃ d ∈ s.seals, d.key = key := by
  obtain ⟨d, hd, hkey⟩ := h
  rcases mem_modify_cases hd with ⟨i, _, hi⟩ | ⟨e, he, rfl⟩
  · exact ⟨d, List.mem_of_getElem? hi, hkey⟩
  · exact ⟨e, List.mem_of_getElem? he, hkey⟩

/-- **A seal moves** and nothing else changes. -/
theorem Sound.move (h : s.Sound vault) (hc : s.seals[k]? = some c)
    (hsaving : ∀ snapshot ∈ phase.saves, (c.key, snapshot) ∈ s.taken)
    (hwrote : phase.wrote = true → s.blobs c.key ≠ none)
    (hrecorded : phase.recorded = true → ∃ row ∈ s.invoices c.key, row.document ≠ none)
    (hmatched : ∀ sha256 ∈ c.phase.records, s.OfStored vault c.key sha256 → s.Recorded vault c.key)
    (hcurrent : c.phase = .failed ∨ s.Pending c → phase = .failed ∨ s.Pending { c with phase := phase }) :
    (s.moveSeal k phase).Sound vault where
  stored := h.stored
  saving := forall_moved hc h.saving hsaving
  wrote := forall_moved hc h.wrote hwrote
  read := h.read
  documents := h.documents
  recorded := forall_moved hc h.recorded hrecorded
  matched := by
    intro key hblob
    rcases h.matched key hblob with hdone | ⟨d, hd, hkey, sha256, hphase, hof⟩
    · exact .inl hdone
    · obtain ⟨i, hi⟩ := List.mem_iff_getElem?.mp hd
      by_cases heq : i = k
      · subst heq
        obtain rfl : c = d := Option.some.inj (hc.symm.trans hi)
        subst hkey
        exact .inl (hmatched sha256 hphase hof)
      · exact .inr ⟨d, List.mem_of_getElem? (getElem?_modify_of_ne hi heq), hkey, sha256, hphase, hof⟩
  current := fun key hkey => (h.current key (exists_key_of_moved hkey)).imp_left fun hopen =>
    exists_moved hc hopen fun hP => ⟨hP.1, hcurrent hP.2⟩

/-- **A seal reads the invoice.** -/
theorem Sound.readInvoice (h : s.Sound vault) (hc : s.seals[k]? = some c) (hphase : c.phase = .reading) :
    (s.readInvoice k c.key).Sound vault := by
  have hno : ∀ sha256 ∈ c.phase.records, s.OfStored vault c.key sha256 → s.Recorded vault c.key := by
    rw [hphase]
    exact fun _ hrec => nomatch hrec
  unfold SealState.readInvoice
  split
  · exact h.move hc (fun _ hs => nomatch hs) (fun hw => nomatch hw) (fun hr => nomatch hr) hno fun _ => .inl rfl
  · rename_i snapshot hsnapshot
    have htaken : ({ s with taken := (c.key, snapshot) :: s.taken } : SealState Content Digest Sealed).Sound vault := by
      refine ⟨fun key hblob => ?_, fun d hd snapshot' hs => List.mem_cons_of_mem _ (h.saving d hd snapshot' hs),
        h.wrote, fun key snapshot' hin => ?_, h.documents, h.recorded, h.matched, h.current⟩
      · obtain ⟨snapshot', hstored, hin⟩ := h.stored key hblob
        exact ⟨snapshot', hstored, List.mem_cons_of_mem _ hin⟩
      · rcases List.mem_cons.mp hin with heq | hold
        · obtain ⟨rfl, rfl⟩ := Prod.mk.inj heq
          simp [hsnapshot]
        · exact h.read key snapshot' hold
    refine htaken.move hc (fun snapshot' hs => ?_) (fun hw => nomatch hw) (fun hr => nomatch hr) hno
      fun _ => .inr (.inr ⟨snapshot, rfl, snapshot, hsnapshot, rfl⟩)
    obtain rfl := Option.some.inj hs
    exact List.mem_cons_self

/-- The state with a digest recorded for an invoice. -/
def withDocument (s : SealState Content Digest Sealed) (key : DocumentKey) (row : InvoiceRecord Content Digest)
    (sha256 : Digest) : SealState Content Digest Sealed :=
  { s with invoices := fun key' =>
      if key' = key then some { row with document := some ⟨key, sha256⟩ } else s.invoices key' }

section

variable {key : DocumentKey} {row : InvoiceRecord Content Digest} {sha256 : Digest}

theorem withDocument_self (s : SealState Content Digest Sealed) (key : DocumentKey)
    (row : InvoiceRecord Content Digest) (sha256 : Digest) :
    (s.withDocument key row sha256).invoices key = some { row with document := some ⟨key, sha256⟩ } := if_pos rfl

theorem withDocument_of_ne {key' : DocumentKey} (hne : key' ≠ key) :
    (s.withDocument key row sha256).invoices key' = s.invoices key' := if_neg hne

/-- What the invoices say is what they said. -/
theorem content_withDocument (hrow : s.invoices key = some row) {key' : DocumentKey} {content : Content}
    (h : ∃ r ∈ s.invoices key', content = r.content) :
    ∃ r ∈ (s.withDocument key row sha256).invoices key', content = r.content := by
  obtain ⟨r, hr, hcontent⟩ := h
  by_cases heq : key' = key
  · subst heq
    obtain rfl : row = r := Option.some.inj (hrow.symm.trans hr)
    exact ⟨_, withDocument_self s key' row sha256, hcontent⟩
  · exact ⟨r, (withDocument_of_ne heq).trans hr, hcontent⟩

/-- A digest is recorded that is that of the stored blob if the one before it was. -/
theorem Sound.withDocument (h : s.Sound vault) (hrow : s.invoices key = some row)
    (hguard : s.Recorded vault key → s.OfStored vault key sha256) : (s.withDocument key row sha256).Sound vault where
  stored := h.stored
  saving := h.saving
  wrote := h.wrote
  read := by
    intro key' snapshot hin
    by_cases heq : key' = key
    · subst heq
      simp [withDocument_self]
    · rw [withDocument_of_ne heq]
      exact h.read key' snapshot hin
  documents := by
    intro key' row' hrow' document hdocument
    by_cases heq : key' = key
    · subst heq
      obtain rfl := Option.some.inj ((withDocument_self s key' row sha256).symm.trans hrow')
      rw [← Option.some.inj hdocument]
    · exact h.documents key' row' ((withDocument_of_ne heq).symm.trans hrow') document hdocument
  recorded := by
    intro d hd hphase
    by_cases heq : d.key = key
    · rw [heq]
      exact ⟨_, withDocument_self s key row sha256, Option.some_ne_none _⟩
    · rw [withDocument_of_ne heq]
      exact h.recorded d hd hphase
  matched := by
    intro key' hblob
    refine (h.matched key' hblob).imp_left fun hrecorded => ?_
    by_cases heq : key' = key
    · subst heq
      obtain ⟨blob, hblob', hsha⟩ := hguard hrecorded
      exact ⟨_, withDocument_self s key' row sha256, _, rfl, blob, hblob', hsha⟩
    · obtain ⟨row', hrow', hrest⟩ := hrecorded
      exact ⟨row', (withDocument_of_ne heq).trans hrow', hrest⟩
  current := by
    intro key' hkey'
    refine (h.current key' hkey').imp (fun ⟨d, hd, hdkey, hopen⟩ => ⟨d, hd, hdkey, ?_⟩)
      fun ⟨snapshot, hstored, hcontent⟩ => ⟨snapshot, hstored, content_withDocument hrow hcontent⟩
    refine hopen.imp_right fun hpending => hpending.imp_right fun ⟨snapshot, hphase, hcontent⟩ => ?_
    exact ⟨snapshot, hphase, content_withDocument hrow hcontent⟩

end

/-- **A seal records its digest**, and not over that of a blob which another wrote. -/
theorem Sound.recordDocument (h : s.Sound vault) (hc : s.seals[k]? = some c) {sha256 : Digest}
    (hphase : c.phase = .recording sha256)
    (hguard : s.Recorded vault c.key → s.OfStored vault c.key sha256) :
    (s.recordDocument k c.key sha256).Sound vault := by
  have hblob : s.blobs c.key ≠ none := h.wrote c (List.mem_of_getElem? hc) (by rw [hphase]; rfl)
  obtain ⟨snapshot, _, htaken⟩ := h.stored c.key hblob
  unfold SealState.recordDocument
  split
  · rename_i hnone
    exact absurd hnone (h.read c.key snapshot htaken)
  rename_i row hrow
  have hself := withDocument_self s c.key row sha256
  refine (h.withDocument hrow hguard).move hc (fun _ hs => nomatch hs) (fun _ => hblob)
    (fun _ => ⟨_, hself, Option.some_ne_none _⟩) (fun sha256' hrec hof => ?_) fun hopen => ?_
  · rw [hphase] at hrec
    obtain rfl := Option.some.inj hrec
    obtain ⟨blob, hblob', hsha⟩ := hof
    exact ⟨_, hself, _, rfl, blob, hblob', hsha⟩
  · simp [Pending, SealPhase.saves, hphase] at hopen

/-- The state with a blob written over the one of an invoice. -/
def withBlob (s : SealState Content Digest Sealed) (key : DocumentKey) (blob : DocumentBlob Sealed) :
    SealState Content Digest Sealed :=
  { s with blobs := fun key' => if key' = key then some blob else s.blobs key' }

section

variable {key : DocumentKey} {blob : DocumentBlob Sealed}

theorem withBlob_self (s : SealState Content Digest Sealed) (key : DocumentKey) (blob : DocumentBlob Sealed) :
    (s.withBlob key blob).blobs key = some blob := if_pos rfl

theorem withBlob_of_ne {key' : DocumentKey} (hne : key' ≠ key) : (s.withBlob key blob).blobs key' = s.blobs key' :=
  if_neg hne

theorem withBlob_ne_none {key' : DocumentKey} (h : s.blobs key' ≠ none) : (s.withBlob key blob).blobs key' ≠ none := by
  by_cases heq : key' = key
  · rw [heq, withBlob_self]
    exact Option.some_ne_none _
  · rwa [withBlob_of_ne heq]

end

/-- **A seal writes its blob**, with a snapshot that shows the invoice as it is unless another seal is to
write one yet. -/
theorem Sound.saveBlob (h : s.Sound vault) (hc : s.seals[k]? = some c) {snapshot : InvoiceRecord Content Digest}
    (hphase : c.phase = .saving snapshot)
    (hguard : (∃ row ∈ s.invoices c.key, snapshot.content = row.content) ∨
      ∃ d ∈ s.seals.eraseIdx k, d.key = c.key ∧ s.Pending d) (nonce : Nonce) :
    (s.saveBlob vault k c.key nonce snapshot).Sound vault := by
  set blob : DocumentBlob Sealed := ⟨documentMagic, vault.aead.encrypt vault.key nonce c.key snapshot⟩ with hblob
  have hself := withBlob_self s c.key blob
  have hstored : (s.withBlob c.key blob).Stored vault c.key snapshot :=
    ⟨blob, hself, rfl, vault.aead.seals_encrypt vault.key nonce c.key snapshot⟩
  have hmoved : { c with phase := .recording (vault.sha256 blob) } ∈
      ((s.withBlob c.key blob).moveSeal k (.recording (vault.sha256 blob))).seals :=
    List.mem_of_getElem? (getElem?_modify_self (show (s.withBlob c.key blob).seals[k]? = some c from hc))
  have hsame : ∀ {key'}, key' ≠ c.key → ∀ snapshot', s.Stored vault key' snapshot' →
      (s.withBlob c.key blob).Stored vault key' snapshot' :=
    fun hne snapshot' ⟨b, hb, hrest⟩ => ⟨b, (withBlob_of_ne hne).trans hb, hrest⟩
  refine ⟨fun key' hsome => ?_, ?_, ?_, h.read, h.documents, ?_, fun key' hsome => ?_, fun key' hkey' => ?_⟩
  · by_cases heq : key' = c.key
    · rw [heq]
      exact ⟨snapshot, hstored, h.saving c (List.mem_of_getElem? hc) snapshot (by rw [hphase]; rfl)⟩
    · obtain ⟨snapshot', hold, htaken⟩ := h.stored key' (by rwa [← withBlob_of_ne heq])
      exact ⟨snapshot', hsame heq snapshot' hold, htaken⟩
  · exact forall_moved (s := s.withBlob c.key blob) hc h.saving fun _ hs => nomatch hs
  · refine forall_moved (s := s.withBlob c.key blob) hc (fun d hd hwrote => withBlob_ne_none (h.wrote d hd hwrote)) ?_
    intro _ hnone
    exact nomatch hself.symm.trans hnone
  · exact forall_moved (s := s.withBlob c.key blob) hc h.recorded fun hr => nomatch hr
  · by_cases heq : key' = c.key
    · subst heq
      exact .inr ⟨_, hmoved, rfl, _, rfl, blob, hself, rfl⟩
    · refine (h.matched key' (by rwa [← withBlob_of_ne heq])).imp
        (fun ⟨row, hrow, document, hdocument, b, hb, hsha⟩ =>
          ⟨row, hrow, document, hdocument, b, (withBlob_of_ne heq).trans hb, hsha⟩) fun hopen => ?_
      refine exists_moved (s := s.withBlob c.key blob) hc ?_ fun hP => absurd hP.1.symm heq
      obtain ⟨d, hd, hdkey, sha256, hdphase, b, hb, hsha⟩ := hopen
      exact ⟨d, hd, hdkey, sha256, hdphase, b, (withBlob_of_ne heq).trans hb, hsha⟩
  · by_cases heq : key' = c.key
    · subst heq
      rcases hguard with hcontent | ⟨d, hd, hdkey, hpending⟩
      · exact .inr ⟨snapshot, hstored, hcontent⟩
      · obtain ⟨j, hj, hd⟩ := List.mem_eraseIdx_iff_getElem?.mp hd
        exact .inl ⟨d, List.mem_of_getElem? (getElem?_modify_of_ne hd hj), hdkey, .inr hpending⟩
    · refine (h.current key' (exists_key_of_moved hkey')).imp (fun hopen => ?_)
        fun ⟨snapshot', hold, hcontent⟩ => ⟨snapshot', hsame heq snapshot' hold, hcontent⟩
      exact exists_moved (s := s.withBlob c.key blob) hc hopen fun hP => absurd hP.1.symm heq

/-- **One call of a seal.** -/
theorem Sound.advance (h : s.Sound vault) (nonce : Nonce)
    (hguard : s.Orderly vault (.advance k nonce : SealOp Nonce Content)) : (s.advance vault k nonce).Sound vault := by
  unfold SealState.advance
  split
  · exact h
  rename_i c hc
  obtain ⟨hsave, hrecord⟩ := hguard c hc
  split
  · rename_i hphase
    exact h.readInvoice hc hphase
  · rename_i snapshot hphase
    exact h.saveBlob hc hphase (hsave snapshot (by rw [hphase]; rfl)) nonce
  · rename_i sha256 hphase
    exact h.recordDocument hc hphase (hrecord sha256 (by rw [hphase]; rfl))
  · rename_i hphase
    have hmem : c ∈ s.seals := List.mem_of_getElem? hc
    refine h.move hc (fun _ hs => nomatch hs) (fun _ => h.wrote c hmem (by rw [hphase]; rfl))
      (fun _ => h.recorded c hmem (by rw [hphase]; rfl)) (fun _ hrec => ?_) fun hopen => ?_
    · rw [hphase] at hrec
      exact nomatch hrec
    · simp [Pending, SealPhase.saves, hphase] at hopen
  · exact h
  · exact h

/-- **A seal fails or dies**, and not between its blob and the digest that is missing. -/
theorem Sound.fail (h : s.Sound vault)
    (hguard : s.Orderly vault (.fail k : SealOp Nonce Content)) : (s.fail k).Sound vault := by
  unfold SealState.fail
  split
  · exact h
  rename_i c hc
  split
  · exact h
  · exact h.move hc (fun _ hs => nomatch hs) (fun hw => nomatch hw) (fun hr => nomatch hr) (hguard c hc)
      fun _ => .inl rfl

end

/-! ## Runs -/

/-- A seal that has just begun is to read the invoice. -/
theorem Sound.reseal (h : s.Sound vault) (key : DocumentKey) :
    ({ s with seals := s.seals ++ [{ key := key }] } : SealState Content Digest Sealed).Sound vault where
  stored := h.stored
  saving := by
    intro d hd
    rcases List.mem_append.mp hd with hold | hnew
    · exact h.saving d hold
    · obtain rfl := List.mem_singleton.mp hnew
      exact fun _ hs => nomatch hs
  wrote := by
    intro d hd
    rcases List.mem_append.mp hd with hold | hnew
    · exact h.wrote d hold
    · obtain rfl := List.mem_singleton.mp hnew
      exact fun hw => nomatch hw
  read := h.read
  documents := h.documents
  recorded := by
    intro d hd
    rcases List.mem_append.mp hd with hold | hnew
    · exact h.recorded d hold
    · obtain rfl := List.mem_singleton.mp hnew
      exact fun hr => nomatch hr
  matched := fun key' hblob => (h.matched key' hblob).imp_right fun ⟨d, hd, hrest⟩ =>
    ⟨d, List.mem_append_left _ hd, hrest⟩
  current := by
    intro key' ⟨d, hd, hdkey⟩
    rcases List.mem_append.mp hd with hold | hnew
    · exact (h.current key' ⟨d, hold, hdkey⟩).imp_left fun ⟨e, he, hrest⟩ => ⟨e, List.mem_append_left _ he, hrest⟩
    · obtain rfl := List.mem_singleton.mp hnew
      exact .inl ⟨_, List.mem_append_right _ List.mem_cons_self, hdkey, .inr (.inl rfl)⟩

/-- **A change is committed**, and the seal that follows it is to read the invoice. -/
theorem Sound.change (h : s.Sound vault) (key : DocumentKey) (content : Content) :
    (s.change key content).Sound vault := by
  have hself : (s.change key content).invoices key = some ⟨content, (s.invoices key).bind (·.document)⟩ := if_pos rfl
  have hother : ∀ {key'}, key' ≠ key → (s.change key content).invoices key' = s.invoices key' := fun hne => if_neg hne
  have hbegun := h.reseal key
  -- the columns of the document stay
  have hdocument : ∀ {key'}, ∀ row ∈ s.invoices key',
      ∃ row' ∈ (s.change key content).invoices key', row'.document = row.document := by
    intro key' row hrow
    by_cases heq : key' = key
    · subst heq
      refine ⟨_, hself, ?_⟩
      rw [show s.invoices key' = some row from hrow]
      rfl
    · exact ⟨row, (hother heq).trans hrow, rfl⟩
  refine ⟨h.stored, hbegun.saving, hbegun.wrote, fun key' snapshot hin => ?_, fun key' row hrow document hdoc => ?_,
    fun d hd hphase => ?_, fun key' hblob => ?_, fun key' hkey' => ?_⟩
  · by_cases heq : key' = key
    · subst heq
      exact fun hnone => nomatch hself.symm.trans hnone
    · rw [hother heq]
      exact h.read key' snapshot hin
  · by_cases heq : key' = key
    · subst heq
      obtain rfl := Option.some.inj (hself.symm.trans hrow)
      obtain ⟨row, hold, hdoc'⟩ := Option.bind_eq_some_iff.mp hdoc
      exact h.documents key' row hold document hdoc'
    · exact h.documents key' row ((hother heq).symm.trans hrow) document hdoc
  · obtain ⟨row, hrow, hsome⟩ := hbegun.recorded d hd hphase
    obtain ⟨row', hrow', heq⟩ := hdocument row hrow
    exact ⟨row', hrow', by rw [heq]; exact hsome⟩
  · refine (hbegun.matched key' hblob).imp_left fun ⟨row, hrow, document, hdoc, hrest⟩ => ?_
    obtain ⟨row', hrow', heq⟩ := hdocument row hrow
    exact ⟨row', hrow', document, by rw [heq]; exact hdoc, hrest⟩
  · by_cases heq : key' = key
    · subst heq
      exact .inl ⟨_, List.mem_append_right _ List.mem_cons_self, rfl, .inr (.inl rfl)⟩
    · refine (hbegun.current key' hkey').imp (fun ⟨d, hd, hdkey, hopen⟩ => ⟨d, hd, hdkey, ?_⟩)
        fun ⟨snapshot, hstored, row, hrow, hcontent⟩ => ⟨snapshot, hstored, row, (hother heq).trans hrow, hcontent⟩
      refine hopen.imp_right fun hpending => hpending.imp_right fun ⟨snapshot, hphase, row, hrow, hcontent⟩ => ?_
      subst hdkey
      exact ⟨snapshot, hphase, row, (hother heq).trans hrow, hcontent⟩

/-- **One step.** -/
theorem Sound.step (h : s.Sound vault) (op : SealOp Nonce Content) (hguard : s.Orderly vault op) :
    (s.step vault op).Sound vault := by
  cases op with
  | change key content => exact h.change key content
  | reseal key => exact h.reseal key
  | advance k nonce => exact h.advance nonce hguard
  | fail k => exact h.fail hguard

theorem Sound.empty (vault : InvoiceVault Key Nonce Content Digest Sealed) :
    ({} : SealState Content Digest Sealed).Sound vault where
  stored := fun _ hne => absurd rfl hne
  saving := fun _ hc => (nomatch hc)
  wrote := fun _ hc => (nomatch hc)
  read := fun _ _ hin => (nomatch hin)
  documents := fun _ _ hrow => (nomatch hrow)
  recorded := fun _ hc => (nomatch hc)
  matched := fun _ hne => absurd rfl hne
  current := fun _ ⟨_, hc, _⟩ => (nomatch hc)

/-- **A sealed invoice stays openable and current**, in every run in which no seal writes or records
something older over something newer, or fails between its blob and its digest. -/
theorem sealed_run [DecidableEq Digest] (vault : InvoiceVault Key Nonce Content Digest Sealed)
    {ops : List (SealOp Nonce Content)} (hguard : Guarded (step vault) (Orderly vault) {} ops) :
    (run (step vault) {} ops).StaysOpenable vault ∧ (run (step vault) {} ops).StaysCurrent vault := by
  have hsound := guarded_invariant (Sound vault) (fun _ op hs hop => hs.step op hop) (Sound.empty vault) hguard
  exact ⟨hsound.staysOpenable, hsound.staysCurrent⟩

end SealState

end

/-! ## Examples of runs -/

namespace SealState

/-- A vault whose sealed values can be read by anybody, and whose hash is what the snapshot shows. -/
def openVault : InvoiceVault Unit Unit Nat Nat (Unit × DocumentKey × InvoiceRecord Nat Nat) where
  aead := Aead.labelled Unit Unit DocumentKey (InvoiceRecord Nat Nat)
  key := ()
  sha256 := fun blob => blob.body.2.2.content

/-- The state after a run for the first invoice of the team; a change names what the invoice shows then. -/
def sealing (ops : List (SealOp Unit Nat)) : SealState Nat Nat (Unit × DocumentKey × InvoiceRecord Nat Nat) :=
  run (step openVault) {} ops

def firstInvoice : DocumentKey := ⟨true, 0⟩

/-- The next `n` calls of a seal. -/
def sealCalls (k n : Nat) : List (SealOp Unit Nat) := List.replicate n (.advance k ())

/-- Two changes whose seals overlap: the one that wrote last also records last. -/
theorem sealed_run_overlapping :
    (sealing ([.change firstInvoice 1] ++ sealCalls 0 2 ++ [.change firstInvoice 2] ++ sealCalls 0 2 ++
      sealCalls 1 4)).StaysOpenable openVault ∧
    (sealing ([.change firstInvoice 1] ++ sealCalls 0 2 ++ [.change firstInvoice 2] ++ sealCalls 0 2 ++
      sealCalls 1 4)).StaysCurrent openVault :=
  sealed_run openVault (by decide +kernel)

/-- A seal dies after it has written its blob; of two seals the one that wrote first records last; and a seal
writes what it read before the change that the other seal was for. -/
theorem sealed_fails :
    ¬ (sealing ([.change firstInvoice 1] ++ sealCalls 0 4 ++ [.change firstInvoice 2] ++ sealCalls 1 2 ++
      [.fail 1])).StaysOpenable openVault ∧
    ¬ (sealing ([.change firstInvoice 1] ++ sealCalls 0 2 ++ [.change firstInvoice 2] ++ sealCalls 1 4 ++
      sealCalls 0 2)).StaysOpenable openVault ∧
    ¬ (sealing ([.change firstInvoice 1] ++ sealCalls 0 1 ++ [.change firstInvoice 2] ++ sealCalls 1 4 ++
      sealCalls 0 3)).StaysCurrent openVault := by
  refine ⟨fun h => ?_, fun h => ?_, fun h => ?_⟩
  · obtain ⟨snapshot, hopen, _⟩ := h firstInvoice (by decide +kernel) (by unfold Idle; decide +kernel)
    have herror : (sealing ([.change firstInvoice 1] ++ sealCalls 0 4 ++ [.change firstInvoice 2] ++
        sealCalls 1 2 ++ [.fail 1])).openDocument openVault firstInvoice =
          .error "Encrypted invoice integrity check failed" := by decide +kernel
    exact nomatch herror.symm.trans hopen
  · obtain ⟨snapshot, hopen, _⟩ := h firstInvoice (by decide +kernel) (by unfold Idle; decide +kernel)
    have herror : (sealing ([.change firstInvoice 1] ++ sealCalls 0 2 ++ [.change firstInvoice 2] ++
        sealCalls 1 4 ++ sealCalls 0 2)).openDocument openVault firstInvoice =
          .error "Encrypted invoice integrity check failed" := by decide +kernel
    exact nomatch herror.symm.trans hopen
  · obtain ⟨row, hrow, document, hopen⟩ := h firstInvoice (by decide +kernel) (by decide +kernel)
    have hstale : (sealing ([.change firstInvoice 1] ++ sealCalls 0 1 ++ [.change firstInvoice 2] ++
        sealCalls 1 4 ++ sealCalls 0 3)).openDocument openVault firstInvoice = .ok ⟨1, none⟩ := by decide +kernel
    have hlatest : (sealing ([.change firstInvoice 1] ++ sealCalls 0 1 ++ [.change firstInvoice 2] ++
        sealCalls 1 4 ++ sealCalls 0 3)).invoices firstInvoice = some ⟨2, some ⟨firstInvoice, 1⟩⟩ := by
      decide +kernel
    obtain rfl := Option.some.inj (hlatest.symm.trans hrow)
    exact nomatch (InvoiceRecord.mk.inj (Except.ok.inj (hstale.symm.trans hopen))).1

end SealState

end Dayfinch
