/-
# Dayfinch.Invoices.Documents -- the sealed document of an invoice

Every change of an invoice is followed by a seal: the invoice is read, its snapshot is encrypted and written
to the one key that the invoice has in storage, and then the digest of what was written is recorded in the
invoice's row, in a transaction of its own. The document opens when the stored bytes have the recorded
digest. Seals of one invoice may overlap, and a seal may fail or die before each of its calls, so the digest
that is recorded last need not be that of the bytes that were written last, and the bytes that were written
last need not show the invoice as it is.

Invoices of clients and of the team have the same code with other keys; `DocumentKey` says which invoice it
is, and stands for its storage key and for its associated data. The JSON text of a snapshot is the snapshot,
and what a snapshot shows of the invoice is any type.
-/
import Dayfinch.Library.Run
import Dayfinch.Library.Sealing

namespace Dayfinch

open Library (Aead run run_invariant Guarded guarded_invariant)

/-! ## Data -/

/-- `invoices/{id}.dfenc` or `team-invoices/{id}.dfenc`. -/
structure DocumentKey where
  team : Bool
  invoiceId : Nat
  deriving DecidableEq, Repr

/-- `encrypted_document_key` and `encrypted_document_sha256`. -/
structure DocumentColumns (Digest : Type) where
  key : DocumentKey
  sha256 : Digest
  deriving DecidableEq, Repr

/-- An invoice: what its tables say, and the columns of its document. It is also the snapshot of itself. -/
structure InvoiceRecord (Content Digest : Type) where
  content : Content
  document : Option (DocumentColumns Digest)
  deriving DecidableEq, Repr

/-- The bytes of a document: `MAGIC`, and the nonce with the ciphertext. -/
structure DocumentBlob (Sealed : Type) where
  magic : String
  body : Sealed
  deriving DecidableEq, Repr

/-- The cipher with its key, and the hash function. -/
structure InvoiceVault (Key Nonce Content Digest Sealed : Type) where
  aead : Aead Key Nonce DocumentKey (InvoiceRecord Content Digest) Sealed
  key : Key
  sha256 : DocumentBlob Sealed → Digest

/-- Where a seal is: it is about to read the invoice, to write the blob, to record the digest, or to read the
invoice that it returns. -/
inductive SealPhase (Content Digest : Type)
  | reading
  | saving (snapshot : InvoiceRecord Content Digest)
  | recording (sha256 : Digest)
  | returning
  | sealed
  | failed
  deriving DecidableEq, Repr

structure SealCall (Content Digest : Type) where
  key : DocumentKey
  phase : SealPhase Content Digest := .reading
  deriving DecidableEq, Repr

/-- The invoices, the blobs in storage, the seals, and the snapshots that they have read (which nothing in
the source keeps). -/
structure SealState (Content Digest Sealed : Type) where
  invoices : DocumentKey → Option (InvoiceRecord Content Digest) := fun _ => none
  blobs : DocumentKey → Option (DocumentBlob Sealed) := fun _ => none
  seals : List (SealCall Content Digest) := []
  taken : List (DocumentKey × InvoiceRecord Content Digest) := []

/-- `MAGIC`. -/
def documentMagic : String := "DFINV1"

namespace SealPhase

variable {Content Digest : Type}

/-- The seal has come to its end. -/
def ended : SealPhase Content Digest → Bool
  | .sealed | .failed => true
  | _ => false

/-- The snapshot that is to be written. -/
def saves : SealPhase Content Digest → Option (InvoiceRecord Content Digest)
  | .saving snapshot => some snapshot
  | _ => none

/-- The digest that is to be recorded. -/
def records : SealPhase Content Digest → Option Digest
  | .recording sha256 => some sha256
  | _ => none

end SealPhase

/-! ## The vault -/

section

variable {Key Nonce Content Digest Sealed : Type} [DecidableEq Digest]
variable (vault : InvoiceVault Key Nonce Content Digest Sealed)

namespace SealState

/-- `open` and `open_team`. -/
def openDocument (s : SealState Content Digest Sealed) (key : DocumentKey) :
    Except String (InvoiceRecord Content Digest) :=
  match (s.invoices key).bind (·.document) with
  | none => .error (if key.team then "Team invoice document has not been sealed"
      else "Invoice document has not been sealed")
  | some document =>
    match s.blobs document.key with
    | none => .error "Encrypted invoice document is unavailable"
    | some blob =>
      if vault.sha256 blob ≠ document.sha256 then .error "Encrypted invoice integrity check failed"
      else if blob.magic ≠ documentMagic then .error "Encrypted invoice format is invalid"
      else
        match vault.aead.decrypt vault.key key blob.body with
        | none => .error "Encrypted invoice authentication failed"
        | some snapshot => .ok snapshot

/-- The seal moves on. -/
def moveSeal (s : SealState Content Digest Sealed) (k : Nat) (phase : SealPhase Content Digest) :
    SealState Content Digest Sealed :=
  { s with seals := s.seals.modify k fun c => { c with phase := phase } }

/-- `invoice_snapshot`; an invoice that is not there raises. -/
def readInvoice (s : SealState Content Digest Sealed) (k : Nat) (key : DocumentKey) :
    SealState Content Digest Sealed :=
  match s.invoices key with
  | none => s.moveSeal k .failed
  | some snapshot =>
    { s with taken := (key, snapshot) :: s.taken }.moveSeal k (.saving snapshot)

/-- `save_blob` of the encrypted snapshot, over what the key had. The write is one step here: that two writers of a
key share the name of its `.part` file is not modelled. -/
def saveBlob (s : SealState Content Digest Sealed) (k : Nat) (key : DocumentKey) (nonce : Nonce)
    (snapshot : InvoiceRecord Content Digest) : SealState Content Digest Sealed :=
  let blob := ⟨documentMagic, vault.aead.encrypt vault.key nonce key snapshot⟩
  { s with blobs := fun key' => if key' = key then some blob else s.blobs key' }.moveSeal k
    (.recording (vault.sha256 blob))

/-- `record_invoice_document` and `record_team_invoice_document`. -/
def recordDocument (s : SealState Content Digest Sealed) (k : Nat) (key : DocumentKey) (sha256 : Digest) :
    SealState Content Digest Sealed :=
  match s.invoices key with
  | none => s.moveSeal k .failed
  | some row =>
    { s with invoices := fun key' =>
        if key' = key then some { row with document := some ⟨key, sha256⟩ } else s.invoices key' }.moveSeal k
      .returning

/-- The next call of a seal. -/
def advance (s : SealState Content Digest Sealed) (k : Nat) (nonce : Nonce) : SealState Content Digest Sealed :=
  match s.seals[k]? with
  | none => s
  | some c =>
    match c.phase with
    | .reading => s.readInvoice k c.key
    | .saving snapshot => s.saveBlob vault k c.key nonce snapshot
    | .recording sha256 => s.recordDocument k c.key sha256
    | .returning => s.moveSeal k .sealed
    | .sealed | .failed => s

/-- The next call of a seal raises, or the process dies before it. -/
def fail (s : SealState Content Digest Sealed) (k : Nat) : SealState Content Digest Sealed :=
  match s.seals[k]? with
  | none => s
  | some c => if c.phase.ended then s else s.moveSeal k .failed

/-- A change of an invoice is committed (it is created, or its status, payments or draft change), and its
seal begins. -/
def change (s : SealState Content Digest Sealed) (key : DocumentKey) (content : Content) :
    SealState Content Digest Sealed :=
  { s with
    invoices := fun key' =>
      if key' = key then some ⟨content, (s.invoices key).bind (·.document)⟩ else s.invoices key'
    seals := s.seals ++ [{ key := key }] }

end SealState

/-- One step. `reseal` is a seal that follows no change. -/
inductive SealOp (Nonce Content : Type)
  | change (key : DocumentKey) (content : Content)
  | reseal (key : DocumentKey)
  | advance (call : Nat) (nonce : Nonce)
  | fail (call : Nat)
  deriving DecidableEq, Repr

namespace SealState

def step (s : SealState Content Digest Sealed) : SealOp Nonce Content → SealState Content Digest Sealed
  | .change key content => s.change key content
  | .reseal key => { s with seals := s.seals ++ [{ key := key }] }
  | .advance k nonce => s.advance vault k nonce
  | .fail k => s.fail k

/-! ## What is to hold -/

/-- No seal of the invoice is running. -/
def Idle (s : SealState Content Digest Sealed) (key : DocumentKey) : Prop :=
  ∀ c ∈ s.seals, c.key = key → c.phase.ended = true

/-- The document opens, to a snapshot that a seal of the invoice took. -/
def Opens (s : SealState Content Digest Sealed) (key : DocumentKey) : Prop :=
  ∃ snapshot, s.openDocument vault key = .ok snapshot ∧ (key, snapshot) ∈ s.taken

/-- The document opens, to a snapshot that shows the invoice as it is. -/
def OpensCurrent (s : SealState Content Digest Sealed) (key : DocumentKey) : Prop :=
  ∃ row ∈ s.invoices key, ∃ document, s.openDocument vault key = .ok ⟨row.content, document⟩

/-- Once a seal of an invoice has succeeded, its document opens whenever no seal of it is running. -/
def StaysOpenable (s : SealState Content Digest Sealed) : Prop :=
  ∀ key, (∃ c ∈ s.seals, c.key = key ∧ c.phase = .sealed) → s.Idle key → s.Opens vault key

/-- Once all seals of an invoice have succeeded, its document shows the invoice as it is. -/
def StaysCurrent (s : SealState Content Digest Sealed) : Prop :=
  ∀ key, (∃ c ∈ s.seals, c.key = key) → (∀ c ∈ s.seals, c.key = key → c.phase = .sealed) →
    s.OpensCurrent vault key

/-- The digest that the row has is that of the stored blob. -/
def Recorded (s : SealState Content Digest Sealed) (key : DocumentKey) : Prop :=
  ∃ row ∈ s.invoices key, ∃ document ∈ row.document, ∃ blob ∈ s.blobs key, document.sha256 = vault.sha256 blob

/-- The digest is that of the stored blob. -/
def OfStored (s : SealState Content Digest Sealed) (key : DocumentKey) (sha256 : Digest) : Prop :=
  ∃ blob ∈ s.blobs key, sha256 = vault.sha256 blob

/-- A seal that has yet to write has read the invoice as it is, or will. -/
def Pending (s : SealState Content Digest Sealed) (c : SealCall Content Digest) : Prop :=
  c.phase = .reading ∨ ∃ snapshot ∈ c.phase.saves, ∃ row ∈ s.invoices c.key, snapshot.content = row.content

/-- A seal writes a snapshot that shows the invoice as it is, unless another seal of it is to do so yet; it
records no other digest over that of the stored blob, and does not fail with the one that is missing. -/
def Orderly (s : SealState Content Digest Sealed) : SealOp Nonce Content → Prop
  | .advance k _ => ∀ c ∈ s.seals[k]?,
    (∀ snapshot ∈ c.phase.saves, (∃ row ∈ s.invoices c.key, snapshot.content = row.content) ∨
      ∃ d ∈ s.seals.eraseIdx k, d.key = c.key ∧ s.Pending d) ∧
    ∀ sha256 ∈ c.phase.records, s.Recorded vault c.key → s.OfStored vault c.key sha256
  | .fail k => ∀ c ∈ s.seals[k]?, ∀ sha256 ∈ c.phase.records, s.OfStored vault c.key sha256 →
    s.Recorded vault c.key
  | _ => True

instance (s : SealState Content Digest Sealed) (key : DocumentKey) : Decidable (s.Recorded vault key) :=
  inferInstanceAs (Decidable (∃ row ∈ s.invoices key, _))

instance (s : SealState Content Digest Sealed) (key : DocumentKey) (sha256 : Digest) :
    Decidable (s.OfStored vault key sha256) :=
  inferInstanceAs (Decidable (∃ blob ∈ s.blobs key, _))

instance [DecidableEq Content] (s : SealState Content Digest Sealed) (c : SealCall Content Digest) :
    Decidable (s.Pending c) :=
  inferInstanceAs (Decidable (_ ∨ _))

instance [DecidableEq Content] (s : SealState Content Digest Sealed) (op : SealOp Nonce Content) :
    Decidable (s.Orderly vault op) := by
  cases op <;> unfold Orderly <;> infer_instance

end SealState

end

end Dayfinch
