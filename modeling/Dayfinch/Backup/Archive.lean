/-
# Dayfinch.Backup.Archive -- encrypted backups and how they are restored

A backup reads every object that a row refers to, once for each key and version, and packs the objects, the
database dump and a manifest into a tar archive, which is encrypted. A restore decrypts the archive, extracts
it, verifies every payload against the manifest, restores the database, saves every object under its key and
writes the version that the storage gives it into the rows that the manifest names.

A restore is a `Procedure` on the database, the storage and a log of the changes it has begun: `pg_restore`,
the objects it saves and the rows it updates. The programs it uses (the cipher, tar, JSON, SHA-256, pg_dump
and pg_restore) are the fields of `Tools`, and the storage is a `Backend`.
-/
import Dayfinch.Library.Procedures
import Dayfinch.Library.Text
import Mathlib.Data.List.Nodup

namespace Dayfinch.Backup

open Library (Procedure)

abbrev Bytes := List UInt8

/-! ## The database -/

/-- The tables whose rows refer to objects. -/
inductive RowTable
  | activityRecords | invoices | teamInvoices
  deriving DecidableEq, Repr

/-- The name of the table. -/
def RowTable.name : RowTable → String
  | .activityRecords => "activity_records"
  | .invoices => "invoices"
  | .teamInvoices => "team_invoices"

/-- The table of that name. -/
def tableNamed (name : String) : Option RowTable :=
  [RowTable.activityRecords, .invoices, .teamInvoices].find? fun table => table.name == name

/-- A row of one of the tables: its key is empty when it refers to no object. -/
structure TableRow where
  id : String
  objectKey : String
  versionId : Option String
  expectedSha256 : Option String
  deriving DecidableEq, Repr

/-- The tables, in the order of their ids. -/
structure BackupDatabase where
  rows : RowTable → List TableRow

/-- A row of `_object_rows`. -/
structure ObjectRow where
  table : RowTable
  id : String
  key : String
  versionId : Option String
  expectedSha256 : Option String
  deriving DecidableEq, Repr

def objectRow (table : RowTable) (row : TableRow) : ObjectRow :=
  ⟨table, row.id, row.objectKey, row.versionId, row.expectedSha256⟩

/-- The rows of one table that refer to objects. -/
def objectRowsOf (table : RowTable) (rows : List TableRow) : List ObjectRow :=
  (rows.filter (·.objectKey != "")).map (objectRow table)

/-- `_object_rows`. -/
def objectRows (db : BackupDatabase) : List ObjectRow :=
  objectRowsOf .activityRecords (db.rows .activityRecords) ++ objectRowsOf .invoices (db.rows .invoices) ++
    objectRowsOf .teamInvoices (db.rows .teamInvoices)

/-- `str(row["version_id"]) if row.get("version_id") else None`. -/
def ObjectRow.version (row : ObjectRow) : Option String := row.versionId.filter (· != "")

/-- What an object is read by. -/
def ObjectRow.identity (row : ObjectRow) : String × Option String := (row.key, row.version)

/-! ## The manifest -/

/-- A row that an object belongs to. -/
structure Reference where
  table : String
  id : String
  deriving DecidableEq, Repr

/-- The description of a payload. A field that is missing or has no use for its type is `none`; so are
references that are no list and a reference that is no dictionary. -/
structure Item where
  key : Option String
  archivePath : String
  size : Option Nat
  sha256 : Option String
  contentType : Option String
  references : Option (List (Option Reference))
  deriving DecidableEq, Repr

/-- A manifest as it is loaded; an item that is no dictionary is `none`. -/
structure Manifest where
  /-- The format and the version are the ones that this program writes. -/
  supported : Bool
  databaseDump : Option Item
  objects : Option (List (Option Item))
  deriving DecidableEq, Repr

/-- An entry of a tar archive. -/
structure Member where
  name : String
  isfile : Bool
  data : Bytes
  deriving DecidableEq, Repr

/-- The programs and libraries; the cipher is used with one key. -/
structure Tools where
  /-- The ciphertext and the tag: nonce, associated data, plaintext. -/
  gcmEncrypt : Bytes → Bytes → Bytes → Bytes × Bytes
  /-- The plaintext, if the tag is right: nonce, associated data, ciphertext, tag. -/
  gcmDecrypt : Bytes → Bytes → Bytes → Bytes → Option Bytes
  tar : List (String × Bytes) → Bytes
  untar : Bytes → Option (List Member)
  encodeManifest : Manifest → Bytes
  decodeManifest : Bytes → Option Manifest
  /-- `hashlib.sha256(data).hexdigest()`. -/
  sha256 : Bytes → String
  pgDump : BackupDatabase → Bytes
  /-- Whether it succeeds, and the database it leaves. -/
  pgRestore : Bytes → BackupDatabase → Bool × BackupDatabase

/-- An object storage: `saveBlob` gives the version, if the storage keeps versions. -/
structure Backend (σ : Type) where
  saveBlob : σ → String → Bytes → String → σ × Option String
  read : σ → String → Option String → Option Bytes

inductive BackupError
  | truncated | format | authentication
  | unsafeMember | unreadable | occupied
  | manifest | unsupported | malformed | item | unsafePath | missing (path : String) | integrity (path : String)
  | pgRestore
  | noKey | references | reference | unsupportedTable | rowNotFound (table id : String)
  | storage (key : String)
  deriving DecidableEq, Repr

variable (tools : Tools)

/-! ## Encryption -/

/-- `MAGIC`. -/
def magic : Bytes := [68, 70, 66, 65, 67, 75, 85, 80, 49]

def tagSize : Nat := 16

/-- `_encrypt`, with the nonce that is drawn. -/
def encrypt (nonce plaintext : Bytes) : Bytes :=
  let header := magic ++ nonce
  header ++ (tools.gcmEncrypt nonce header plaintext).1 ++ (tools.gcmEncrypt nonce header plaintext).2

/-- `_decrypt`. -/
def decrypt (archive : Bytes) : Except BackupError Bytes :=
  if archive.length < magic.length + 12 + tagSize then .error .truncated
  else
    let header := archive.take (magic.length + 12)
    if ¬ magic <+: header then .error .format
    else
      let nonce := header.drop magic.length
      let tag := archive.drop (archive.length - tagSize)
      let ciphertext := (archive.drop header.length).take (archive.length - header.length - tagSize)
      match tools.gcmDecrypt nonce header ciphertext tag with
      | none => .error .authentication
      | some plaintext => .ok plaintext

/-! ## Writing a backup -/

/-- A version of an object as a backup holds it. -/
structure Snapshot where
  key : String
  version : Option String
  archivePath : String
  contentType : String
  data : Bytes
  references : List Reference
  deriving DecidableEq, Repr

def Snapshot.identity (object : Snapshot) : String × Option String := (object.key, object.version)

/-- The UTF-8 encoding of a text. -/
def utf8 (s : String) : Bytes := s.toUTF8.data.toList

/-- `_archive_object_path`. -/
def archiveObjectPath (key : String) (version : Option String) : String :=
  "objects/" ++ tools.sha256 (utf8 (key ++ "\x00" ++ version.getD "")) ++ ".blob"

/-- `storage.read` for a screenshot and `storage.read_blob` for an invoice. -/
structure Source where
  /-- The bytes and the content type of a version of an object. -/
  object : String → Option String → Option (Bytes × String)
  /-- `read` takes images only. -/
  isImage : Bytes → Bool

/-- What is read for a row. -/
def Source.read (source : Source) (row : ObjectRow) : Option (Bytes × String) :=
  (source.object row.key row.version).bind fun content =>
    match row.table with
    | .activityRecords => if source.isImage content.1 then some content else none
    | _ => some (content.1, "application/octet-stream")

def ObjectRow.reference (row : ObjectRow) : Reference := ⟨row.table.name, row.id⟩

/-- The loop of `_snapshot_objects`. -/
def snapshotObjects (source : Source) : List ObjectRow → List Snapshot → Except BackupError (List Snapshot)
  | [], objects => .ok objects
  | row :: rows, objects =>
    if ∃ object ∈ objects, object.identity = row.identity then
      snapshotObjects source rows (objects.map fun object =>
        if object.identity = row.identity then { object with references := object.references ++ [row.reference] }
        else object)
    else
      match source.read row with
      | none => .error (.storage row.key)
      | some (data, contentType) =>
        if row.expectedSha256.getD "" ≠ "" ∧ some (tools.sha256 data) ≠ row.expectedSha256 then
          .error (.integrity row.key)
        else
          snapshotObjects source rows (objects ++
            [⟨row.key, row.version, archiveObjectPath tools row.key row.version, contentType, data,
              [row.reference]⟩])

/-- The entry of an object in the manifest. -/
def Snapshot.item (object : Snapshot) : Item where
  key := some object.key
  archivePath := object.archivePath
  size := some object.data.length
  sha256 := some (tools.sha256 object.data)
  contentType := some object.contentType
  references := some (object.references.map some)

/-- The entry of the database dump. -/
def dumpItem (dump : Bytes) : Item :=
  ⟨none, "database.dump", some dump.length, some (tools.sha256 dump), none, none⟩

/-- The manifest of a backup. -/
def manifestOf (dump : Bytes) (objects : List Snapshot) : Manifest where
  supported := true
  databaseDump := some (dumpItem tools dump)
  objects := some (objects.map fun object => some (object.item tools))

/-- The files of a backup. -/
def payloadOf (dump : Bytes) (objects : List Snapshot) : List (String × Bytes) :=
  ("database.dump", dump) :: ("manifest.json", tools.encodeManifest (manifestOf tools dump objects)) ::
    objects.map fun object => (object.archivePath, object.data)

/-- `create_backup`. -/
def createBackup (source : Source) (db : BackupDatabase) (nonce : Bytes) : Except BackupError Bytes := do
  let objects ← snapshotObjects tools source (objectRows db) []
  return encrypt tools nonce (tools.tar (payloadOf tools (tools.pgDump db) objects))

/-! ## Extracting and verifying -/

/-- `PurePosixPath(name).parts`, the root aside. -/
def parts (name : String) : List (List Char) :=
  (name.toList.splitOn '/').filter fun part => part ≠ [] ∧ part ≠ ['.']

/-- The path leads out of the directory. -/
def isUnsafe (name : String) : Bool := name.toList.head? == some '/' || ['.', '.'] ∈ parts name

/-- The files of a directory, by the parts of their paths. -/
abbrev Tree := List (List (List Char) × Bytes)

/-- The file of that path. -/
def Tree.file (tree : Tree) (path : List (List Char)) : Option Bytes :=
  (tree.find? (·.1 == path)).map Prod.snd

/-- A file of that path cannot be made: there is one, or a file or a directory is in the way. -/
def Tree.Occupied (tree : Tree) (path : List (List Char)) : Prop :=
  path = [] ∨ ∃ file ∈ tree, file.1 <+: path ∨ path <+: file.1

instance (tree : Tree) (path : List (List Char)) : Decidable (tree.Occupied path) :=
  inferInstanceAs (Decidable (_ ∨ _))

/-- `_safe_extract`. -/
def safeExtract : List Member → Tree → Except BackupError Tree
  | [], tree => .ok tree
  | member :: members, tree =>
    if isUnsafe member.name ∨ member.isfile = false then .error .unsafeMember
    else if tree.Occupied (parts member.name) then .error .occupied
    else safeExtract members (tree ++ [(parts member.name, member.data)])

/-- The check of one item of the manifest. -/
def verifyItem (tree : Tree) : Option Item → Except BackupError Unit
  | none => .error .item
  | some item =>
    if isUnsafe item.archivePath ∨ parts item.archivePath = [] then .error .unsafePath
    else
      match tree.file (parts item.archivePath) with
      | none => .error (.missing item.archivePath)
      | some data =>
        if some data.length ≠ item.size ∨ some (tools.sha256 data) ≠ item.sha256 then
          .error (.integrity item.archivePath)
        else .ok ()

/-- `_load_and_verify_manifest`: the manifest and its objects. -/
def loadAndVerifyManifest (tree : Tree) : Except BackupError (List (Option Item)) :=
  match (tree.file (parts "manifest.json")).bind tools.decodeManifest with
  | none => .error .manifest
  | some manifest =>
    if manifest.supported = false then .error .unsupported
    else
      match manifest.databaseDump, manifest.objects with
      | some dump, some objects => do
        (some dump :: objects).forM (verifyItem tools tree)
        return objects
      | _, _ => .error .malformed

/-! ## Restoring -/

/-- A change that a restore has begun. -/
inductive Change
  | pgRestore
  | saveBlob (key : String)
  | updateRow (table id : String)
  deriving DecidableEq, Repr

/-- What a restore works on. -/
structure World (σ : Type) where
  db : BackupDatabase
  storage : σ
  changes : List Change

variable {σ : Type} (backend : Backend σ)

/-- `storage.save_blob`. -/
def saveBlob (key : String) (data : Bytes) (contentType : String) : Procedure (World σ) BackupError (Option String) :=
  fun w =>
    let saved := backend.saveBlob w.storage key data contentType
    (.ok saved.2, { w with storage := saved.1, changes := w.changes ++ [.saveBlob key] })

/-- The references of an item, each with the version of the object. -/
def referencesOf (item : Item) (version : Option String) :
    Except BackupError (List (Reference × Option String)) :=
  match item.references with
  | none => .error .references
  | some references =>
    references.mapM fun reference =>
      match reference with
      | none => .error .reference
      | some reference => .ok (reference, version)

/-- The first loop of `_restore_objects`: the objects are saved, and the updates of the rows are returned. -/
def saveObjects (tree : Tree) : List (Option Item) →
    Procedure (World σ) BackupError (List (Reference × Option String))
  | [] => pure []
  | none :: _ => Procedure.raise .item
  | some item :: items =>
    match item.key, tree.file (parts item.archivePath) with
    | some key, some data => do
      let version ← saveBlob backend key data (item.contentType.getD "application/octet-stream")
      let updates ← Procedure.lift (referencesOf item version)
      let rest ← saveObjects tree items
      pure (updates ++ rest)
    | none, _ => Procedure.raise .noKey
    | some _, none => Procedure.raise (.missing item.archivePath)

/-- The database with another version in one row, if there is exactly one row of that id. -/
def updateVersion (db : BackupDatabase) (table : RowTable) (id : String) (version : Option String) :
    Option BackupDatabase :=
  if (db.rows table).countP (·.id == id) = 1 then
    some ⟨Function.update db.rows table
      ((db.rows table).map fun row => if row.id = id then { row with versionId := version } else row)⟩
  else none

/-- The second loop of `_restore_objects`; it is one transaction. -/
def updateRows : List (Reference × Option String) → BackupDatabase → Except BackupError BackupDatabase
  | [], db => .ok db
  | (reference, version) :: updates, db =>
    match tableNamed reference.table with
    | none => .error .unsupportedTable
    | some table =>
      match updateVersion db table reference.id version with
      | none => .error (.rowNotFound reference.table reference.id)
      | some db => updateRows updates db

/-- `_restore_objects`. -/
def restoreObjects (tree : Tree) (items : List (Option Item)) : Procedure (World σ) BackupError Unit := do
  let updates ← saveObjects backend tree items
  let w ← Procedure.read
  let db ← Procedure.lift (updateRows updates w.db)
  Procedure.modify fun w => { w with
    db, changes := w.changes ++ updates.map fun update => .updateRow update.1.table update.1.id }

/-- `pg_restore` of the dump in the directory; it does nothing without that file. -/
def runPgRestore (tree : Tree) : Procedure (World σ) BackupError Unit := fun w =>
  match tree.file (parts "database.dump") with
  | none => (.error .pgRestore, w)
  | some dump =>
    let restored := tools.pgRestore dump w.db
    (if restored.1 then .ok () else .error .pgRestore,
      { w with db := restored.2, changes := w.changes ++ [.pgRestore] })

/-- `restore_backup`, once the archive has been extracted. -/
def restoreExtracted (tree : Tree) : Procedure (World σ) BackupError Unit := do
  let items ← Procedure.lift (loadAndVerifyManifest tools tree)
  runPgRestore tools tree
  restoreObjects backend tree items

/-- `restore_backup`, once the archive has been decrypted. -/
def restoreTar (payload : Bytes) : Procedure (World σ) BackupError Unit := do
  let members ← Procedure.lift ((tools.untar payload).elim (.error .unreadable) .ok)
  let tree ← Procedure.lift (safeExtract members [])
  restoreExtracted tools backend tree

/-- `restore_backup`. -/
def restoreBackup (archive : Bytes) : Procedure (World σ) BackupError Unit := do
  let payload ← Procedure.lift (decrypt tools archive)
  restoreTar tools backend payload

end Dayfinch.Backup
