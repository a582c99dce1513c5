/-
# Dayfinch.Backup.Tampering -- what a restore refuses before it changes anything

An archive that has not been sealed with the key is not decrypted, a member that would leave the directory is
not extracted, and a directory whose payloads do not bear out the manifest does not pass (`Verifies`). In each
case the restore raises with the database and the storage as they were.

The manifest itself is covered by the seal of the archive alone: an entry that is left out of a manifest that is
otherwise sound is not missed, and its object is not restored (`manifest_entry_not_missed`).
-/
import Dayfinch.Backup.Faithful
import Mathlib.Tactic.DeriveEncodable
import Mathlib.Logic.Equiv.List

namespace Dayfinch.Backup

open Library (Procedure)

variable {tools : Tools} {source : Source} {σ : Type} {backend : Backend σ}
  {sealed : Bytes → Bytes → Bytes → Prop}

/-- The restore raises, with nothing changed. -/
def Refuses (restore : Procedure (World σ) BackupError Unit) : Prop := ∀ w, ∃ e, restore w = (.error e, w)

theorem refuses_lift {α : Type} {x : Except BackupError α} {f : α → Procedure (World σ) BackupError Unit}
    (h : ∀ a, x ≠ .ok a) : Refuses (Procedure.lift x >>= f) := by
  intro w
  cases x with
  | error e => exact ⟨e, Procedure.lift_bind_error rfl⟩
  | ok a => exact absurd rfl (h a)

/-! ## The archive -/

/-- An archive that differs from all that have been sealed. -/
theorem refuses_unsealed (hcipher : tools.Authentic sealed) {archive : Bytes}
    (h : ∀ nonce plaintext, sealed nonce (magic ++ nonce) plaintext → archive ≠ encrypt tools nonce plaintext) :
    Refuses (restoreBackup tools backend archive) := by
  refine refuses_lift fun plaintext hdecrypt => ?_
  obtain ⟨nonce, hsealed, harchive⟩ := decrypt_sealed hcipher hdecrypt
  exact h nonce plaintext hsealed harchive

theorem safe_of_safeExtract (members : List Member) :
    ∀ {tree result : Tree}, safeExtract members tree = .ok result →
      ∀ member ∈ members, isUnsafe member.name = false ∧ member.isfile = true := by
  induction members with
  | nil => exact fun _ _ h => absurd h List.not_mem_nil
  | cons member members ih =>
    intro tree result hextract other hother
    unfold safeExtract at hextract
    split at hextract
    next => cases hextract
    next hsafe =>
      split at hextract
      next => cases hextract
      next =>
        rcases List.mem_cons.mp hother with rfl | hlater
        · rw [not_or, Bool.not_eq_true, Bool.not_eq_false] at hsafe
          exact hsafe
        · exact ih hextract other hlater

/-- A member whose path leads out of the directory, or that is no file. -/
theorem refuses_unsafeMember {payload : Bytes} {members : List Member} (huntar : tools.untar payload = some members)
    {member : Member} (hmember : member ∈ members) (hleads : isUnsafe member.name = true ∨ member.isfile = false) :
    Refuses (restoreTar tools backend payload) := by
  intro w
  have hread : (((tools.untar payload).elim (.error .unreadable) .ok : Except BackupError (List Member))) =
      .ok members := by
    rw [huntar]
    rfl
  have hnone : ∀ tree, safeExtract members [] ≠ .ok tree := by
    intro tree hextract
    obtain ⟨hsafe, hfile⟩ := safe_of_safeExtract members hextract member hmember
    rw [hsafe, hfile] at hleads
    exact hleads.elim Bool.false_ne_true Bool.false_ne_true.symm
  unfold restoreTar
  rw [Procedure.lift_bind_ok hread]
  exact refuses_lift hnone w

/-! ## The manifest -/

/-- The payload of an entry is there and is the one described. -/
structure Item.BorneOut (tools : Tools) (tree : Tree) (item : Item) : Prop where
  inside : isUnsafe item.archivePath = false ∧ parts item.archivePath ≠ []
  payload : ∃ data, tree.file (parts item.archivePath) = some data ∧
    item.size = some data.length ∧ item.sha256 = some (tools.sha256 data)

/-- A directory that passes: its manifest can be used, and the payloads bear out all of its entries. -/
def Verifies (tools : Tools) (tree : Tree) : Prop :=
  ∃ manifest dump objects, (tree.file (parts "manifest.json")).bind tools.decodeManifest = some manifest ∧
    manifest.supported = true ∧ manifest.databaseDump = some dump ∧ manifest.objects = some objects ∧
    ∀ entry ∈ some dump :: objects, ∃ item, entry = some item ∧ item.BorneOut tools tree

theorem borneOut_of_verifyItem {tree : Tree} {entry : Option Item} (h : verifyItem tools tree entry = .ok ()) :
    ∃ item, entry = some item ∧ item.BorneOut tools tree := by
  unfold verifyItem at h
  split at h
  next => cases h
  next item =>
    refine ⟨item, rfl, ?_⟩
    split at h
    next => cases h
    next hinside =>
      rw [not_or, Bool.not_eq_true] at hinside
      split at h
      next => cases h
      next data hfile =>
        split at h
        next => cases h
        next hsame =>
          rw [not_or, ne_eq, ne_eq, not_not, not_not] at hsame
          exact ⟨hinside, data, hfile, hsame.1.symm, hsame.2.symm⟩

theorem of_forM_ok {α : Type} {f : α → Except BackupError Unit} {xs : List α} (h : xs.forM f = .ok ()) :
    ∀ x ∈ xs, f x = .ok () := by
  induction xs with
  | nil => exact fun _ h => absurd h List.not_mem_nil
  | cons x xs ih =>
    obtain ⟨⟨⟩, hfirst, hrest⟩ := Library.bind_eq_ok.mp (show (f x >>= fun _ => xs.forM f) = .ok () from h)
    intro y hy
    rcases List.mem_cons.mp hy with rfl | hlater
    · exact hfirst
    · exact ih hrest y hlater

theorem verifies_of_loadAndVerifyManifest {tree : Tree} {objects : List (Option Item)}
    (h : loadAndVerifyManifest tools tree = .ok objects) : Verifies tools tree := by
  unfold loadAndVerifyManifest at h
  split at h
  next => cases h
  next manifest hmanifest =>
    split at h
    next => cases h
    next hsupported =>
      split at h
      next dump entries hdump hentries =>
        obtain ⟨⟨⟩, hall, _⟩ := Library.bind_eq_ok.mp h
        exact ⟨manifest, dump, entries, hmanifest, (Bool.not_eq_false _).mp hsupported, hdump, hentries,
          fun entry hentry => borneOut_of_verifyItem (of_forM_ok hall entry hentry)⟩
      next => cases h

/-- A directory that does not pass. -/
theorem refuses_unverified {tree : Tree} (h : ¬ Verifies tools tree) :
    Refuses (restoreExtracted tools backend tree) :=
  refuses_lift fun _ hload => h (verifies_of_loadAndVerifyManifest hload)

/-- A payload of a backup that is altered or missing. -/
theorem not_verifies_altered (hdoc : tools.Documented) {dump : Bytes} {objects : List Snapshot} {tree : Tree}
    (hmanifest : tree.file (parts "manifest.json") = some (tools.encodeManifest (manifestOf tools dump objects)))
    {name : String} {data : Bytes} (hpayload : (name, data) ∈ payloadOf tools dump objects)
    (hname : name ≠ "manifest.json") (haltered : tree.file (parts name) ≠ some data)
    (hcollision : ∀ found, tree.file (parts name) = some found → tools.sha256 found = tools.sha256 data →
      found = data) : ¬ Verifies tools tree := by
  rintro ⟨manifest, dumpItem, entries, hload, _, hdump, hentries, hall⟩
  rw [hmanifest, Option.bind_some, hdoc.json] at hload
  obtain rfl := Option.some.inj hload
  obtain rfl := Option.some.inj hdump
  obtain rfl := Option.some.inj hentries
  have hentry : ∃ item, some item ∈ some (dumpItem tools dump) :: (objects.map fun object => some (object.item tools)) ∧
      item.archivePath = name ∧ item.sha256 = some (tools.sha256 data) := by
    rcases List.mem_cons.mp hpayload with hthis | hrest
    · obtain ⟨rfl, rfl⟩ := Prod.mk.inj hthis
      exact ⟨_, List.mem_cons_self, rfl, rfl⟩
    · rcases List.mem_cons.mp hrest with hthis | hobject
      · exact absurd (Prod.mk.inj hthis).1 hname
      · obtain ⟨object, hmem, hthis⟩ := List.mem_map.mp hobject
        obtain ⟨rfl, rfl⟩ := Prod.mk.inj hthis
        exact ⟨_, List.mem_cons_of_mem _ (List.mem_map.mpr ⟨object, hmem, rfl⟩), rfl, rfl⟩
  obtain ⟨item, hmem, rfl, hdigest⟩ := hentry
  obtain ⟨_, hsame, hborne⟩ := hall (some item) hmem
  obtain rfl := Option.some.inj hsame
  obtain ⟨found, hfile, _, hsha⟩ := hborne.payload
  rw [hdigest] at hsha
  obtain rfl := hcollision found hfile (Option.some.inj hsha).symm
  exact haltered hfile

/-- Without its entry in the manifest, an object is left out of the restore. -/
theorem manifest_entry_not_missed (hdoc : tools.Documented) {db : BackupDatabase} {tree : Tree}
    (hdump : tree.file (parts "database.dump") = some (tools.pgDump db))
    (hmanifest : tree.file (parts "manifest.json") =
      some (tools.encodeManifest (manifestOf tools (tools.pgDump db) []))) {w : World σ}
    (hempty : w.db = ⟨fun _ => []⟩) :
    restoreExtracted tools backend tree w = (.ok (), { w with db, changes := w.changes ++ [.pgRestore] }) := by
  have hverified : verifyItem tools tree (some (dumpItem tools (tools.pgDump db))) = .ok () := by
    refine verifyItem_ok isUnsafe_dump ?_ hdump rfl rfl
    show parts "database.dump" ≠ []
    rw [parts_dump]
    exact List.cons_ne_nil _ _
  have hload : loadAndVerifyManifest tools tree = .ok [] := by
    unfold loadAndVerifyManifest
    rw [hmanifest, Option.bind_some, hdoc.json]
    unfold manifestOf
    dsimp only
    rw [if_neg (by decide), forM_ok]
    · rfl
    · intro item hitem
      rw [List.map_nil, List.mem_singleton] at hitem
      rw [hitem]
      exact hverified
  have hpg : runPgRestore tools tree w = (.ok (), { w with db, changes := w.changes ++ [.pgRestore] }) := by
    unfold runPgRestore
    rw [hdump]
    dsimp only
    rw [hempty, hdoc.pg]
    rfl
  unfold restoreExtracted
  rw [Procedure.lift_bind_ok hload, Procedure.run_bind_ok hpg]
  show (Except.ok (), (⟨db, w.storage, w.changes ++ [.pgRestore] ++ []⟩ : World σ)) = _
  rw [List.append_nil]

/-! ## Tools and storages for the examples -/

instance encodableUInt8 : Encodable UInt8 := Encodable.ofLeftInverse UInt8.toNat UInt8.ofNat fun _ => UInt8.ofNat_toNat

instance encodableChar : Encodable Char := Encodable.ofLeftInverse Char.toNat Char.ofNat Char.ofNat_toNat

instance encodableString : Encodable String := Encodable.ofLeftInverse String.toList String.ofList fun _ => String.ofList_toList

deriving instance Encodable for Reference, Item, Manifest, TableRow

/-- A value as the length of a list of zeros. -/
def written {α : Type} [Encodable α] (a : α) : Bytes := List.replicate (Encodable.encode a) 0

def readBack {α : Type} [Encodable α] (data : Bytes) : Option α := Encodable.decode data.length

theorem readBack_written {α : Type} [Encodable α] (a : α) : readBack (written a) = some a := by
  unfold readBack written
  rw [List.length_replicate, Encodable.encodek]

/-- The tables as a triple. -/
def BackupDatabase.triple (db : BackupDatabase) : List TableRow × List TableRow × List TableRow :=
  (db.rows .activityRecords, db.rows .invoices, db.rows .teamInvoices)

def ofTriple (tables : List TableRow × List TableRow × List TableRow) : BackupDatabase where
  rows
    | .activityRecords => tables.1
    | .invoices => tables.2.1
    | .teamInvoices => tables.2.2

def blankTag : Bytes := List.replicate tagSize 0

/-- Tools that do what the real ones promise. -/
def sampleTools : Tools where
  gcmEncrypt _ _ plaintext := (plaintext, blankTag)
  gcmDecrypt _ _ ciphertext tag := if tag = blankTag then some ciphertext else none
  tar files := written files
  untar data := (readBack (α := List (String × Bytes)) data).map fun files =>
    files.map fun file => ⟨file.1, true, file.2⟩
  encodeManifest manifest := written manifest
  decodeManifest data := readBack data
  sha256 data := String.ofList (List.replicate (Encodable.encode data) 'a')
  pgDump db := written db.triple
  pgRestore dump db := match readBack dump with
    | some tables => (true, ofTriple tables)
    | none => (false, db)

theorem sampleTools_documented : sampleTools.Documented where
  tar files := by
    show (readBack (written files)).map _ = _
    rw [readBack_written]
    rfl
  json dump objects := readBack_written _
  sha256_hex data c hc := by
    have hlist : (sampleTools.sha256 data).toList = List.replicate (Encodable.encode data) 'a' :=
      String.toList_ofList
    rw [hlist] at hc
    rw [(List.mem_replicate.mp hc).2]
    decide
  pg db := by
    have hrows : ofTriple db.triple = db := by
      obtain ⟨rows⟩ := db
      exact congrArg BackupDatabase.mk (funext fun table => by cases table <;> rfl)
    have hread : readBack (sampleTools.pgDump db) = some db.triple := readBack_written _
    show (match readBack (sampleTools.pgDump db) with
      | some tables => (true, ofTriple tables)
      | none => (false, _)) = (true, db)
    rw [hread]
    dsimp only
    rw [hrows]

/-- What `sampleTools` seals has the blank tag. -/
theorem sampleTools_authentic : sampleTools.Authentic fun _ _ _ => True where
  opens nonce header plaintext _ := by
    show (if blankTag = blankTag then some plaintext else none) = some plaintext
    rw [if_pos rfl]
  only nonce header ciphertext tag plaintext h := by
    obtain ⟨htag, hplain⟩ := Option.ite_none_right_eq_some.mp h
    refine ⟨trivial, ?_⟩
    rw [htag, ← Option.some.inj hplain]
    rfl
  tag _ _ _ := rfl

theorem sampleTools_sha256_inj {data other : Bytes} (h : sampleTools.sha256 data = sampleTools.sha256 other) :
    data = other := by
  have hlength := congrArg (fun s => s.toList.length) h
  have hsize : ∀ d, (sampleTools.sha256 d).toList.length = Encodable.encode d := by
    intro d
    show (String.ofList _).toList.length = _
    rw [String.toList_ofList, List.length_replicate]
  rw [hsize, hsize] at hlength
  exact Encodable.encode_injective hlength

/-- A directory of files, as `LocalScreenshotStorage` keeps them: a version is ignored. -/
def localStorage : Backend (List (String × Bytes)) where
  saveBlob storage key data _ := ((key, data) :: storage, none)
  read storage key _ := (storage.find? (·.1 == key)).map Prod.snd

theorem localStorage_documented : localStorage.Documented where
  read_saved storage key data contentType := by simp [localStorage]
  read_other storage key data contentType key' version h := by
    simp [localStorage, h.symm]
  read_same storage key data contentType version := .inl (by simp [localStorage])
  version _ _ _ _ := by simp [localStorage]

/-- An image that differs from others in its last byte. -/
def jpeg (last : UInt8) : Bytes := [0xff, 0xd8, 0xff, last]

/-- A storage with two versions of every object. -/
def sampleSource : Source where
  object _ version := some (if version = some "2" then jpeg 2 else jpeg 1, "image/jpeg")
  isImage data := [0xff, 0xd8, 0xff].isPrefixOf data

/-- A screenshot and an invoice that refer to one object. -/
def sharedRows : BackupDatabase := ofTriple ([⟨"a", "k", none, none⟩], [⟨"b", "k", none, none⟩], [])

/-- Two screenshots that refer to two versions of one object. -/
def versionRows : BackupDatabase := ofTriple ([⟨"a", "k", some "1", none⟩, ⟨"b", "k", some "2", none⟩], [], [])

def sampleNonce : Bytes := List.replicate 12 7

/-- An empty target. -/
def emptyWorld : World (List (String × Bytes)) := ⟨⟨fun _ => []⟩, [], []⟩

theorem sharedRows_wellFormed : sharedRows.WellFormed where
  ids table := by cases table <;> decide
  keys table := by cases table <;> decide

theorem versionRows_wellFormed : versionRows.WellFormed where
  ids table := by cases table <;> decide
  keys table := by cases table <;> decide

theorem sampleTools_namesDiffer (db : BackupDatabase) : NamesDiffer sampleTools db :=
  fun _ _ _ _ h => sampleTools_sha256_inj h

def sharedObject : Snapshot where
  key := "k"
  version := none
  archivePath := archiveObjectPath sampleTools "k" none
  contentType := "image/jpeg"
  data := jpeg 1
  references := [⟨"activity_records", "a"⟩, ⟨"invoices", "b"⟩]

theorem sharedRows_sameBytes : SameBytesPerKey sampleSource sharedRows := by
  unfold SameBytesPerKey
  decide

/-! ## The whole -/

/-- **A backup is restored faithfully, and what does not bear out its manifest is refused before any change.** The
storage that it is restored to keeps versions, or the versions of a key have the same bytes. -/
theorem backup_restored_or_refused (hdoc : tools.Documented) (hcipher : tools.Authentic sealed)
    (hbackend : backend.Documented) {db : BackupDatabase} (hdb : db.WellFormed) (hnames : NamesDiffer tools db)
    (hkeeps : backend.KeepsVersions ∨ SameBytesPerKey source db) {nonce archive : Bytes}
    (hnonce : nonce.length = 12) (hcreate : createBackup tools source db nonce = .ok archive)
    (hsealed : ∀ plaintext, archive = encrypt tools nonce plaintext → sealed nonce (magic ++ nonce) plaintext) :
    (∀ w : World σ, w.db = ⟨fun _ => []⟩ → ∃ w', restoreBackup tools backend archive w = (.ok (), w') ∧
      ∀ table, List.Forall₂ (Restored source backend w'.storage table) (db.rows table) (w'.db.rows table)) ∧
    (∀ altered, (∀ nonce plaintext, sealed nonce (magic ++ nonce) plaintext →
        altered ≠ encrypt tools nonce plaintext) → Refuses (restoreBackup tools backend altered)) ∧
    (∀ payload members member, tools.untar payload = some members → member ∈ members →
      (isUnsafe member.name = true ∨ member.isfile = false) → Refuses (restoreTar tools backend payload)) ∧
    (∀ tree, ¬ Verifies tools tree → Refuses (restoreExtracted tools backend tree)) ∧
    (∀ objects tree name data,
      tree.file (parts "manifest.json") = some (tools.encodeManifest (manifestOf tools (tools.pgDump db) objects)) →
      (name, data) ∈ payloadOf tools (tools.pgDump db) objects → name ≠ "manifest.json" →
      tree.file (parts name) ≠ some data →
      (∀ found, tree.file (parts name) = some found → tools.sha256 found = tools.sha256 data → found = data) →
      Refuses (restoreExtracted tools backend tree)) := by
  refine ⟨fun w hempty => ?_, fun altered haltered => ?_, fun payload members member huntar hmember hleads => ?_,
    fun tree htree => ?_, fun objects tree name data hmanifest hpayload hname haltered hcollision => ?_⟩
  · exact restore_createBackup hdoc hcipher hbackend hdb hnames hkeeps hnonce hcreate hsealed hempty
  · exact refuses_unsealed hcipher haltered
  · exact refuses_unsafeMember huntar hmember hleads
  · exact refuses_unverified htree
  · exact refuses_unverified (not_verifies_altered hdoc hmanifest hpayload hname haltered hcollision)

/-- The object that two rows share, and an archive with another last byte. -/
theorem backup_restored_or_refused_shared :
    ∃ archive, createBackup sampleTools sampleSource sharedRows sampleNonce = .ok archive ∧
      (∃ w', restoreBackup sampleTools localStorage archive emptyWorld = (.ok (), w') ∧
        ∀ table, List.Forall₂ (Restored sampleSource localStorage w'.storage table) (sharedRows.rows table)
          (w'.db.rows table)) ∧
      Refuses (restoreBackup sampleTools localStorage (archive.dropLast ++ [1])) := by
  refine ⟨_, rfl, ?_⟩
  have hkeeps : localStorage.KeepsVersions ∨ SameBytesPerKey sampleSource sharedRows := .inr sharedRows_sameBytes
  have hnonce : sampleNonce.length = 12 := rfl
  have hwhole := backup_restored_or_refused sampleTools_documented sampleTools_authentic localStorage_documented
    sharedRows_wellFormed (sampleTools_namesDiffer sharedRows) hkeeps hnonce rfl fun _ _ => trivial
  refine ⟨hwhole.1 emptyWorld rfl, hwhole.2.1 _ fun nonce plaintext _ heq => ?_⟩
  -- the tag of what is sealed ends with a zero
  have hsealed : encrypt sampleTools nonce plaintext = (magic ++ nonce ++ plaintext ++ List.replicate 15 0) ++ [0] := by
    rw [List.append_assoc]
    rfl
  rw [hsealed] at heq
  exact absurd (List.append_inj_right' heq rfl) (by decide)

def versionObject (reference : Reference) (version : String) (data : Bytes) : Snapshot where
  key := "k"
  version := some version
  archivePath := archiveObjectPath sampleTools "k" (some version)
  contentType := "image/jpeg"
  data := data
  references := [reference]

def versionObjects : List Snapshot :=
  [versionObject ⟨"activity_records", "a"⟩ "1" (jpeg 1), versionObject ⟨"activity_records", "b"⟩ "2" (jpeg 2)]

/-- The payloads of `sharedRows`, with a manifest that has no entry for the object. -/
def shortTree : Tree :=
  [(parts "database.dump", sampleTools.pgDump sharedRows),
    (parts "manifest.json",
      sampleTools.encodeManifest (manifestOf sampleTools (sampleTools.pgDump sharedRows) [])),
    (parts sharedObject.archivePath, sharedObject.data)]

/-- A storage without versions holds one of two versions of an object when both have been restored; and a restore
from a directory whose manifest misses an entry succeeds, without the object. -/
theorem version_lost_and_entry_not_missed :
    (∃ archive w', createBackup sampleTools sampleSource versionRows sampleNonce = .ok archive ∧
      restoreBackup sampleTools localStorage archive emptyWorld = (.ok (), w') ∧
      ¬ List.Forall₂ (Restored sampleSource localStorage w'.storage .activityRecords)
        (versionRows.rows .activityRecords) (w'.db.rows .activityRecords)) ∧
    restoreExtracted sampleTools localStorage shortTree emptyWorld =
      (.ok (), { emptyWorld with db := sharedRows, changes := [.pgRestore] }) := by
  constructor
  · have hobjects : snapshotObjects sampleTools sampleSource (objectRows versionRows) [] = .ok versionObjects := rfl
    have hheld : Held sampleTools sampleSource (objectRows versionRows) versionObjects :=
      snapshotObjects_held (objectRows versionRows) held_nil hobjects
    have hpacked := hheld.packed sampleTools_documented versionRows_wellFormed (sampleTools_namesDiffer versionRows)
    have hfile := hpacked.objectFile sampleTools_documented (sampleTools.pgDump versionRows)
      (List.mem_cons_self (a := versionObject ⟨"activity_records", "a"⟩ "1" (jpeg 1)))
    have hfile' := hpacked.objectFile sampleTools_documented (sampleTools.pgDump versionRows)
      (List.mem_cons_of_mem _ (List.mem_cons_self (a := versionObject ⟨"activity_records", "b"⟩ "2" (jpeg 2))))
    -- the second version is saved under the key of the first
    have hsave : saveObjects localStorage (treeOf sampleTools (sampleTools.pgDump versionRows) versionObjects)
        (versionObjects.map fun object => some (object.item sampleTools))
        ⟨versionRows, emptyWorld.storage, emptyWorld.changes ++ [.pgRestore]⟩ =
          (.ok [(⟨"activity_records", "a"⟩, none), (⟨"activity_records", "b"⟩, none)],
            ⟨versionRows, [("k", jpeg 2), ("k", jpeg 1)], [.pgRestore, .saveBlob "k", .saveBlob "k"]⟩) := by
      show saveObjects localStorage _ [some _, some _] _ = _
      rw [saveObjects_cons hfile, Procedure.run_bind, saveObjects_cons hfile']
      rfl
    obtain ⟨db, hupdates, hrows⟩ : ∃ db, updateRows
        [(⟨"activity_records", "a"⟩, none), (⟨"activity_records", "b"⟩, none)] versionRows = .ok db ∧
        db.rows .activityRecords = [⟨"a", "k", none, none⟩, ⟨"b", "k", none, none⟩] := ⟨_, rfl, rfl⟩
    have hcreate : createBackup sampleTools sampleSource versionRows sampleNonce = .ok (encrypt sampleTools
        sampleNonce (sampleTools.tar (payloadOf sampleTools (sampleTools.pgDump versionRows) versionObjects))) := rfl
    have hrestore : restoreBackup sampleTools localStorage (encrypt sampleTools sampleNonce
        (sampleTools.tar (payloadOf sampleTools (sampleTools.pgDump versionRows) versionObjects))) emptyWorld =
          (.ok (), ⟨db, [("k", jpeg 2), ("k", jpeg 1)], [.pgRestore, .saveBlob "k", .saveBlob "k",
            .updateRow "activity_records" "a", .updateRow "activity_records" "b"]⟩) := by
      rw [restoreBackup_eq sampleTools_documented sampleTools_authentic hpacked rfl trivial rfl]
      unfold restoreObjects
      rw [Procedure.run_bind_ok hsave, Procedure.run_bind_ok (Procedure.run_read _), Procedure.lift_bind_ok hupdates]
      rfl
    refine ⟨_, _, hcreate, hrestore, fun hrestored => ?_⟩
    rw [hrows] at hrestored
    obtain ⟨content, hcontent, hread⟩ := (List.forall₂_cons.mp hrestored).1.bytes (by decide)
    have hbacked : some (jpeg 1, "image/jpeg") = some content := hcontent
    have hstored : some (jpeg 2) = some content.1 := hread
    rw [← Option.some.inj hbacked] at hstored
    exact absurd hstored (by decide)
  · have hdump : shortTree.file (parts "database.dump") = some (sampleTools.pgDump sharedRows) := by
      unfold Tree.file shortTree
      rw [List.find?_cons_of_pos (by simp), Option.map_some]
    have hmanifest : shortTree.file (parts "manifest.json") = some
        (sampleTools.encodeManifest (manifestOf sampleTools (sampleTools.pgDump sharedRows) [])) := by
      unfold Tree.file shortTree
      rw [List.find?_cons_of_neg (by rw [parts_dump, parts_manifest]; decide), List.find?_cons_of_pos (by simp),
        Option.map_some]
    exact manifest_entry_not_missed sampleTools_documented hdump hmanifest rfl

end Dayfinch.Backup
