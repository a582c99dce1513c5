/-
# Dayfinch.Backup.Faithful -- a backup that is restored

What `_decrypt` makes of a sealed archive, what the objects are read as once all of them have been saved
(`saveObjects_run`), which rows are updated (`updateRows_ok`), and from these the round trip: a restore of a
backup into an empty database succeeds, and every row that refers to an object reads the bytes that the backup
read, provided that saving one version of an object does not take another one away.
-/
import Dayfinch.Backup.Snapshots
import Mathlib.Data.List.Forall2

namespace Dayfinch.Backup

open Library (Procedure)

variable {tools : Tools} {source : Source} {σ : Type} {backend : Backend σ}

/-! ## The cipher -/

/-- AES-GCM with one key: the messages that are `sealed` with it open, and no others. -/
structure Tools.Authentic (tools : Tools) (sealed : Bytes → Bytes → Bytes → Prop) : Prop where
  opens : ∀ nonce header plaintext, sealed nonce header plaintext →
    tools.gcmDecrypt nonce header (tools.gcmEncrypt nonce header plaintext).1
      (tools.gcmEncrypt nonce header plaintext).2 = some plaintext
  only : ∀ nonce header ciphertext tag plaintext, tools.gcmDecrypt nonce header ciphertext tag = some plaintext →
    sealed nonce header plaintext ∧ tools.gcmEncrypt nonce header plaintext = (ciphertext, tag)
  tag : ∀ nonce header plaintext, (tools.gcmEncrypt nonce header plaintext).2.length = tagSize

variable {sealed : Bytes → Bytes → Bytes → Prop}

theorem decrypt_encrypt (hcipher : tools.Authentic sealed) {nonce plaintext : Bytes} (hnonce : nonce.length = 12)
    (hsealed : sealed nonce (magic ++ nonce) plaintext) :
    decrypt tools (encrypt tools nonce plaintext) = .ok plaintext := by
  have hopen := hcipher.opens nonce (magic ++ nonce) plaintext hsealed
  have htag := hcipher.tag nonce (magic ++ nonce) plaintext
  unfold encrypt
  dsimp only
  generalize tools.gcmEncrypt nonce (magic ++ nonce) plaintext = message at hopen htag
  obtain ⟨ciphertext, tag⟩ := message
  dsimp only at hopen htag ⊢
  have hheader : (magic ++ nonce).length = magic.length + 12 := by
    rw [List.length_append, hnonce]
  have htake : (magic ++ nonce ++ ciphertext ++ tag).take (magic.length + 12) = magic ++ nonce := by
    rw [List.append_assoc, ← hheader, List.take_left]
  have hlength : (magic ++ nonce ++ ciphertext ++ tag).length =
      (magic.length + 12) + ciphertext.length + tagSize := by
    rw [List.length_append, List.length_append, hheader, htag]
  have hlast : (magic ++ nonce ++ ciphertext ++ tag).drop
      ((magic ++ nonce ++ ciphertext ++ tag).length - tagSize) = tag := by
    have hinit : (magic ++ nonce ++ ciphertext ++ tag).length - tagSize =
        (magic ++ nonce ++ ciphertext).length := by
      rw [hlength, List.length_append, hheader, Nat.add_sub_cancel]
    rw [hinit, List.drop_left]
  have hmiddle : ((magic ++ nonce ++ ciphertext ++ tag).drop (magic ++ nonce).length).take
      ((magic ++ nonce ++ ciphertext ++ tag).length - (magic ++ nonce).length - tagSize) = ciphertext := by
    have hsize : (magic ++ nonce ++ ciphertext ++ tag).length - (magic ++ nonce).length - tagSize =
        ciphertext.length := by
      rw [hlength, hheader]
      omega
    rw [hsize, List.append_assoc (magic ++ nonce), List.drop_left, List.take_left]
  have hlong : ¬ (magic ++ nonce ++ ciphertext ++ tag).length < magic.length + 12 + tagSize := by
    rw [hlength]
    omega
  have hmagic : ¬ ¬ magic <+: magic ++ nonce := not_not_intro (List.prefix_append _ _)
  unfold decrypt
  dsimp only
  rw [if_neg hlong, htake, if_neg hmagic, hlast, hmiddle, List.drop_left, hopen]

/-- Only an archive that has been sealed is decrypted. -/
theorem decrypt_sealed (hcipher : tools.Authentic sealed) {archive plaintext : Bytes}
    (h : decrypt tools archive = .ok plaintext) :
    ∃ nonce, sealed nonce (magic ++ nonce) plaintext ∧ archive = encrypt tools nonce plaintext := by
  unfold decrypt at h
  dsimp only at h
  split at h
  next => cases h
  next hlong =>
    split at h
    next => cases h
    next hmagic =>
      obtain ⟨nonce, hheader⟩ := not_not.mp hmagic
      have hdrop : (archive.take (magic.length + 12)).drop magic.length = nonce := by
        rw [← hheader, List.drop_left]
      rw [hdrop, ← hheader] at h
      split at h
      next => cases h
      next opened hopen =>
        obtain ⟨hsealed, hmessage⟩ := hcipher.only _ _ _ _ _ hopen
        rw [← Except.ok.inj h]
        refine ⟨nonce, hsealed, ?_⟩
        have hlength : (magic ++ nonce).length = magic.length + 12 := by
          rw [hheader, List.length_take]
          omega
        unfold encrypt
        dsimp only
        rw [hmessage]
        dsimp only
        rw [hlength]
        -- the header, the ciphertext and the tag are the archive, cut at two places
        have hsize : archive.length - (magic.length + 12) - tagSize =
            (archive.drop (magic.length + 12)).length - tagSize := by
          rw [List.length_drop]
        have htail : archive.drop (archive.length - tagSize) =
            (archive.drop (magic.length + 12)).drop ((archive.drop (magic.length + 12)).length - tagSize) := by
          rw [List.drop_drop, List.length_drop]
          congr 1
          omega
        rw [htail, hsize, hheader, List.append_assoc, List.take_append_drop, List.take_append_drop]

/-! ## The storage -/

/-- What a storage does with an object that is saved. -/
structure Backend.Documented (backend : Backend σ) : Prop where
  read_saved : ∀ storage key data contentType,
    backend.read (backend.saveBlob storage key data contentType).1 key
      (backend.saveBlob storage key data contentType).2 = some data
  read_other : ∀ storage key data contentType key' version, key' ≠ key →
    backend.read (backend.saveBlob storage key data contentType).1 key' version = backend.read storage key' version
  read_same : ∀ storage key data contentType version,
    backend.read (backend.saveBlob storage key data contentType).1 key version = some data ∨
    backend.read (backend.saveBlob storage key data contentType).1 key version = backend.read storage key version
  version : ∀ storage key data contentType, (backend.saveBlob storage key data contentType).2 ≠ some ""

/-- The storage keeps the earlier versions of an object: a new one has an id of its own. -/
structure Backend.KeepsVersions (backend : Backend σ) : Prop where
  versioned : ∀ storage key data contentType, (backend.saveBlob storage key data contentType).2 ≠ none
  fresh : ∀ storage key data contentType,
    backend.read storage key (backend.saveBlob storage key data contentType).2 = none
  kept : ∀ storage key data contentType version, version ≠ none →
    version ≠ (backend.saveBlob storage key data contentType).2 →
    backend.read (backend.saveBlob storage key data contentType).1 key version = backend.read storage key version

/-- The objects, each with the version that the storage has given it, are all there. -/
structure Kept (backend : Backend σ) (storage : σ) (saved : List (Snapshot × Option String)) : Prop where
  read : ∀ object ∈ saved, backend.read storage object.1.key object.2 = some object.1.data
  given : ∀ object ∈ saved, ∃ before key data contentType,
    object.2 = (backend.saveBlob before key data contentType).2

/-- Versions of one key have the same bytes. -/
def SameBytes (objects : List Snapshot) : Prop :=
  ∀ object ∈ objects, ∀ other ∈ objects, object.key = other.key → object.data = other.data

/-- Saving one object more takes none away. -/
theorem Kept.save (hbackend : backend.Documented) {storage : σ} {saved : List (Snapshot × Option String)}
    (h : Kept backend storage saved) {object : Snapshot}
    (hkeeps : backend.KeepsVersions ∨ SameBytes (saved.map Prod.fst ++ [object])) (contentType : String) :
    Kept backend (backend.saveBlob storage object.key object.data contentType).1
      (saved ++ [(object, (backend.saveBlob storage object.key object.data contentType).2)]) where
  read other hother := by
    rcases List.mem_append.mp hother with hold | hnew
    · have hread := h.read other hold
      by_cases hkey : other.1.key = object.key
      · rw [hkey] at hread ⊢
        rcases hkeeps with hkeeps | hsame
        · obtain ⟨before, key, data, type, hgiven⟩ := h.given other hold
          have hversioned : other.2 ≠ none := by
            rw [hgiven]
            exact hkeeps.versioned before key data type
          have hdiffer : other.2 ≠ (backend.saveBlob storage object.key object.data contentType).2 := by
            intro heq
            have hfresh := hkeeps.fresh storage object.key object.data contentType
            rw [← heq, hread] at hfresh
            cases hfresh
          rw [hkeeps.kept storage object.key object.data contentType other.2 hversioned hdiffer]
          exact hread
        · have hdata : other.1.data = object.data :=
            hsame other.1 (List.mem_append_left _ (List.mem_map_of_mem hold)) object
              (List.mem_append_right _ List.mem_cons_self) hkey
          rcases hbackend.read_same storage object.key object.data contentType other.2 with hthis | hbefore
          · rw [hthis, hdata]
          · rw [hbefore]
            exact hread
      · rw [hbackend.read_other storage object.key object.data contentType other.1.key other.2 hkey]
        exact hread
    · rw [List.mem_singleton.mp hnew]
      exact hbackend.read_saved storage object.key object.data contentType
  given other hother := by
    rcases List.mem_append.mp hother with hold | hnew
    · exact h.given other hold
    · rw [List.mem_singleton.mp hnew]
      exact ⟨storage, object.key, object.data, contentType, rfl⟩

/-! ## Saving the objects -/

/-- The updates for the objects that have been saved. -/
def updatesOf (saved : List (Snapshot × Option String)) : List (Reference × Option String) :=
  saved.flatMap fun object => object.1.references.map fun reference => (reference, object.2)

theorem updatesOf_cons (object : Snapshot × Option String) (saved : List (Snapshot × Option String)) :
    updatesOf (object :: saved) = updatesOf [object] ++ updatesOf saved := by
  unfold updatesOf
  rw [List.flatMap_cons, List.flatMap_singleton]

theorem referencesOf_item (object : Snapshot) (version : Option String) :
    referencesOf (object.item tools) version =
      .ok (object.references.map fun reference => (reference, version)) := by
  unfold referencesOf Snapshot.item
  dsimp only
  induction object.references with
  | nil => rfl
  | cons reference references ih =>
    rw [List.map_cons, List.mapM_cons, ih]
    rfl

/-- The first object is saved under its key. -/
theorem saveObjects_cons {tree : Tree} {object : Snapshot}
    (hfile : tree.file (parts object.archivePath) = some object.data) (items : List (Option Item)) (w : World σ) :
    saveObjects backend tree (some (object.item tools) :: items) w =
      (saveObjects backend tree items >>= fun rest => pure (updatesOf
          [(object, (backend.saveBlob w.storage object.key object.data object.contentType).2)] ++ rest))
        { w with
          storage := (backend.saveBlob w.storage object.key object.data object.contentType).1
          changes := w.changes ++ [.saveBlob object.key] } := by
  have hpath : (object.item tools).archivePath = object.archivePath := rfl
  have hkey : (object.item tools).key = some object.key := rfl
  have htype : (object.item tools).contentType = some object.contentType := rfl
  have hsave : saveBlob backend object.key object.data object.contentType w =
      (.ok (backend.saveBlob w.storage object.key object.data object.contentType).2,
        { w with
          storage := (backend.saveBlob w.storage object.key object.data object.contentType).1
          changes := w.changes ++ [.saveBlob object.key] }) := rfl
  rw [saveObjects, hpath, hfile, hkey, htype]
  dsimp only [Option.getD_some]
  rw [Procedure.run_bind_ok hsave, Procedure.lift_bind_ok (referencesOf_item object _)]
  unfold updatesOf
  rw [List.flatMap_singleton]

/-- The database is not touched while the objects are saved, and afterwards all of them are there. -/
theorem saveObjects_run (hbackend : backend.Documented) {tree : Tree} (objects : List Snapshot) :
    ∀ (saved : List (Snapshot × Option String)) (w : World σ),
      (∀ object ∈ objects, tree.file (parts object.archivePath) = some object.data) →
      (backend.KeepsVersions ∨ SameBytes (saved.map Prod.fst ++ objects)) → Kept backend w.storage saved →
      ∃ added w', saveObjects backend tree (objects.map fun object => some (object.item tools)) w =
          (.ok (updatesOf added), w') ∧
        w'.db = w.db ∧ added.map Prod.fst = objects ∧ Kept backend w'.storage (saved ++ added) := by
  induction objects with
  | nil =>
    intro saved w _ _ hkept
    refine ⟨[], w, rfl, rfl, rfl, ?_⟩
    rw [List.append_nil]
    exact hkept
  | cons object objects ih =>
    intro saved w hfiles hkeeps hkept
    have hfile := hfiles object List.mem_cons_self
    have hfirst : backend.KeepsVersions ∨ SameBytes (saved.map Prod.fst ++ [object]) := by
      refine hkeeps.imp_right fun hsame x hx y hy => ?_
      have hwithin : ∀ z ∈ saved.map Prod.fst ++ [object], z ∈ saved.map Prod.fst ++ object :: objects := by
        intro z hz
        rw [List.append_cons]
        exact List.mem_append_left _ hz
      exact hsame x (hwithin x hx) y (hwithin y hy)
    have hnext := hkept.save hbackend hfirst object.contentType
    generalize hversion : (backend.saveBlob w.storage object.key object.data object.contentType).2 = version
      at hnext
    generalize hstorage : (backend.saveBlob w.storage object.key object.data object.contentType).1 = storage
      at hnext
    have hrest := ih (saved ++ [(object, version)])
      { w with storage, changes := w.changes ++ [.saveBlob object.key] }
      (fun other hother => hfiles other (List.mem_cons_of_mem _ hother))
      (by rw [List.map_append, List.map_singleton, List.append_assoc]; exact hkeeps) hnext
    obtain ⟨added, w', hrun, hdb, hadded, hall⟩ := hrest
    refine ⟨(object, version) :: added, w', ?_, hdb, congrArg (object :: ·) hadded, ?_⟩
    · rw [List.map_cons, saveObjects_cons hfile, hversion, hstorage, Procedure.run_bind_ok hrun, Procedure.run_pure,
        ← updatesOf_cons]
    · rw [List.append_assoc] at hall
      exact hall

/-! ## Updating the rows -/

/-- The reference to a row. -/
def referenceTo (table : RowTable) (row : TableRow) : Reference := ⟨table.name, row.id⟩

/-- A row after the updates that name it. -/
def updated (table : RowTable) : List (Reference × Option String) → TableRow → TableRow
  | [], row => row
  | (reference, version) :: updates, row =>
    updated table updates (if reference = referenceTo table row then { row with versionId := version } else row)

theorem tableNamed_name (table : RowTable) : tableNamed table.name = some table := by
  cases table <;> decide

theorem RowTable.name_injective : Function.Injective RowTable.name := by
  intro table table' h
  cases table <;> cases table' <;> first | rfl | exact absurd h (by decide)

/-- The updates of rows that are there all succeed. -/
theorem updateRows_ok (updates : List (Reference × Option String)) :
    ∀ db : BackupDatabase, (∀ table, ((db.rows table).map (·.id)).Nodup) →
      (∀ update ∈ updates, ∃ table, ∃ row ∈ db.rows table, update.1 = referenceTo table row) →
      updateRows updates db = .ok ⟨fun table => (db.rows table).map (updated table updates)⟩ := by
  induction updates with
  | nil =>
    intro db _ _
    have hsame : (fun table => (db.rows table).map (updated table [])) = db.rows :=
      funext fun table => List.map_id (db.rows table)
    rw [hsame]
    rfl
  | cons update updates ih =>
    intro db hids hthere
    obtain ⟨⟨name, id⟩, version⟩ := update
    obtain ⟨table, row, hrow, hreference⟩ := hthere _ List.mem_cons_self
    obtain ⟨rfl, rfl⟩ := Reference.mk.inj hreference
    have hone : (db.rows table).countP (·.id == row.id) = 1 := by
      have hcount := List.count_eq_one_of_mem (hids table) (List.mem_map_of_mem hrow)
      rw [List.count, List.countP_map] at hcount
      exact hcount
    unfold updateRows
    rw [tableNamed_name]
    dsimp only
    unfold updateVersion
    rw [if_pos hone]
    dsimp only
    -- what the first update makes of the rows of any table
    have hfirst : ∀ other, Function.update db.rows table ((db.rows table).map fun other =>
          if other.id = row.id then { other with versionId := version } else other) other =
        (db.rows other).map (updated other [(⟨table.name, row.id⟩, version)]) := by
      intro other
      by_cases hother : other = table
      · rw [hother, Function.update_self]
        refine List.map_congr_left fun x _ => ?_
        show _ = ite _ _ _
        by_cases hid : x.id = row.id
        · rw [if_pos hid]
          exact (if_pos (congrArg (Reference.mk table.name) hid.symm)).symm
        · rw [if_neg hid]
          exact (if_neg fun heq => hid (Reference.mk.inj heq).2.symm).symm
      · rw [Function.update_of_ne hother]
        refine ((List.map_congr_left fun x _ => ?_).trans (List.map_id _)).symm
        exact if_neg fun heq => hother (RowTable.name_injective (Reference.mk.inj heq).1.symm)
    have hid : ∀ other x, (updated other [(⟨table.name, row.id⟩, version)] x).id = x.id := by
      intro other x
      show (ite _ _ _ : TableRow).id = x.id
      split <;> rfl
    rw [ih]
    · refine congrArg (fun rows => Except.ok (BackupDatabase.mk rows)) (funext fun other => ?_)
      dsimp only
      rw [hfirst, List.map_map]
      rfl
    · intro other
      dsimp only
      rw [hfirst, List.map_map]
      have hsame : (fun x => x.id) ∘ updated other [(⟨table.name, row.id⟩, version)] = TableRow.id :=
        funext (hid other)
      rw [hsame]
      exact hids other
    · intro later hlater
      obtain ⟨other, x, hx, hnames⟩ := hthere later (List.mem_cons_of_mem _ hlater)
      refine ⟨other, updated other [(⟨table.name, row.id⟩, version)] x, ?_, ?_⟩
      · dsimp only
        rw [hfirst]
        exact List.mem_map_of_mem hx
      · rw [hnames]
        exact congrArg (Reference.mk other.name) (hid other x).symm

theorem updated_of_notMem {table : RowTable} (updates : List (Reference × Option String)) :
    ∀ row : TableRow, referenceTo table row ∉ updates.map Prod.fst → updated table updates row = row := by
  induction updates with
  | nil => exact fun _ _ => rfl
  | cons update updates ih =>
    intro row h
    rw [List.map_cons, List.mem_cons, not_or] at h
    unfold updated
    rw [if_neg fun heq => h.1 heq.symm]
    exact ih row h.2

/-- A row that is named once has the version of that update. -/
theorem updated_of_mem {table : RowTable} {version : Option String}
    (updates : List (Reference × Option String)) :
    ∀ row : TableRow, (updates.map Prod.fst).Nodup → (referenceTo table row, version) ∈ updates →
      updated table updates row = { row with versionId := version } := by
  induction updates with
  | nil => exact fun _ _ h => absurd h List.not_mem_nil
  | cons update updates ih =>
    intro row hnodup hmem
    rw [List.map_cons, List.nodup_cons] at hnodup
    unfold updated
    rcases List.mem_cons.mp hmem with heq | hlater
    · rw [← heq] at hnodup ⊢
      dsimp only
      rw [if_pos rfl]
      exact updated_of_notMem updates _ hnodup.1
    · have hother : update.1 ≠ referenceTo table row := by
        intro heq
        rw [heq] at hnodup
        exact hnodup.1 (List.mem_map_of_mem (f := Prod.fst) hlater)
      rw [if_neg hother]
      exact ih row hnodup.2 hlater

/-! ## The rows that refer to objects -/

/-- What the tables of a database promise: ids are unique and texts have no NUL. -/
structure BackupDatabase.WellFormed (db : BackupDatabase) : Prop where
  ids : ∀ table, ((db.rows table).map (·.id)).Nodup
  keys : ∀ table, ∀ row ∈ db.rows table, '\x00' ∉ row.objectKey.toList

theorem mem_objectRows {db : BackupDatabase} {object : ObjectRow} :
    object ∈ objectRows db ↔ ∃ table, ∃ row ∈ db.rows table, row.objectKey ≠ "" ∧ object = objectRow table row := by
  have hone : ∀ table, object ∈ objectRowsOf table (db.rows table) ↔
      ∃ row ∈ db.rows table, row.objectKey ≠ "" ∧ object = objectRow table row := by
    intro table
    unfold objectRowsOf
    simp only [List.mem_map, List.mem_filter, bne_iff_ne, and_assoc]
    exact exists_congr fun row => and_congr_right fun _ => and_congr_right fun _ => eq_comm
  unfold objectRows
  rw [List.mem_append, List.mem_append, hone, hone, hone]
  constructor
  · rintro ((h | h) | h)
    · exact ⟨.activityRecords, h⟩
    · exact ⟨.invoices, h⟩
    · exact ⟨.teamInvoices, h⟩
  · rintro ⟨table, h⟩
    cases table with
    | activityRecords => exact .inl (.inl h)
    | invoices => exact .inl (.inr h)
    | teamInvoices => exact .inr h

/-- No row is referred to twice. -/
theorem nodup_references {db : BackupDatabase} (hdb : db.WellFormed) :
    ((objectRows db).map ObjectRow.reference).Nodup := by
  have hone : ∀ table, ((objectRowsOf table (db.rows table)).map ObjectRow.reference).Nodup := by
    intro table
    refine List.Nodup.of_map Reference.id ?_
    unfold objectRowsOf
    rw [List.map_map, List.map_map]
    exact (hdb.ids table).sublist (List.filter_sublist.map _)
  have hapart : ∀ table table' : RowTable, table ≠ table' →
      ((objectRowsOf table (db.rows table)).map ObjectRow.reference).Disjoint
        ((objectRowsOf table' (db.rows table')).map ObjectRow.reference) := by
    intro table table' hne reference h h'
    have hname : ∀ other, reference ∈ (objectRowsOf other (db.rows other)).map ObjectRow.reference →
        reference.table = other.name := by
      intro other hmem
      obtain ⟨object, hobject, rfl⟩ := List.mem_map.mp hmem
      obtain ⟨row, _, rfl⟩ := List.mem_map.mp hobject
      rfl
    exact hne (RowTable.name_injective ((hname table h).symm.trans (hname table' h')))
  unfold objectRows
  rw [List.map_append, List.map_append]
  refine List.Nodup.append (List.Nodup.append (hone _) (hone _) (hapart _ _ (by decide))) (hone _) ?_
  exact List.disjoint_append_left.mpr ⟨hapart _ _ (by decide), hapart _ _ (by decide)⟩

/-! ## The round trip -/

/-- The names in the archive do not collide. -/
def NamesDiffer (tools : Tools) (db : BackupDatabase) : Prop :=
  ∀ row ∈ objectRows db, ∀ other ∈ objectRows db,
    tools.sha256 (nameText row.key row.version) = tools.sha256 (nameText other.key other.version) →
    nameText row.key row.version = nameText other.key other.version

/-- The versions of a key that the rows refer to have the same bytes. -/
def SameBytesPerKey (source : Source) (db : BackupDatabase) : Prop :=
  ∀ row ∈ objectRows db, ∀ other ∈ objectRows db, row.key = other.key →
    (source.object row.key row.version).map Prod.fst = (source.object other.key other.version).map Prod.fst

/-- The row refers to the same object as before, and where it is now its bytes are those that were backed up. -/
structure Restored (source : Source) (backend : Backend σ) (storage : σ) (table : RowTable) (row row' : TableRow) :
    Prop where
  same : row'.id = row.id ∧ row'.objectKey = row.objectKey ∧ row'.expectedSha256 = row.expectedSha256
  bytes : row.objectKey ≠ "" → ∃ content,
    source.object row.objectKey (objectRow table row).version = some content ∧
    backend.read storage row'.objectKey (objectRow table row').version = some content.1

theorem Held.packed (hdoc : tools.Documented) {db : BackupDatabase} (hdb : db.WellFormed)
    (hnames : NamesDiffer tools db) {objects : List Snapshot} (h : Held tools source (objectRows db) objects) :
    Packed tools objects where
  named object hobject := (h.read object hobject).1
  distinct := by
    refine h.identities.of_map.map_on fun object hobject other hother heq => ?_
    rw [(h.read object hobject).1, (h.read other hother).1] at heq
    obtain ⟨row, hrow, hidentity⟩ := h.origin object hobject
    obtain ⟨row', hrow', hidentity'⟩ := h.origin other hother
    obtain ⟨hkey, hversion⟩ := Prod.mk.inj hidentity
    obtain ⟨hkey', hversion'⟩ := Prod.mk.inj hidentity'
    have hproper : ∀ row ∈ objectRows db, '\x00' ∉ row.key.toList ∧ row.version ≠ some "" := by
      intro row hrow
      obtain ⟨table, tableRow, hmem, _, rfl⟩ := mem_objectRows.mp hrow
      refine ⟨hdb.keys table tableRow hmem, fun hempty => ?_⟩
      obtain ⟨_, hfilter⟩ := Option.filter_eq_some_iff.mp hempty
      exact absurd hfilter (by decide)
    rw [← hkey, ← hversion, ← hkey', ← hversion'] at heq
    have hsame := archiveObjectPath_inj hdoc (hnames row hrow row' hrow') (hproper row hrow).1
      (hproper row' hrow').1 (hproper row hrow).2 (hproper row' hrow').2 heq
    refine List.inj_on_of_nodup_map h.identities hobject hother ?_
    rw [← hidentity, ← hidentity']
    exact Prod.ext hsame.1 hsame.2

theorem Held.sameBytes {db : BackupDatabase} {objects : List Snapshot}
    (h : Held tools source (objectRows db) objects) (hsame : SameBytesPerKey source db) : SameBytes objects := by
  intro object hobject other hother hkeys
  obtain ⟨row, hrow, hidentity⟩ := h.origin object hobject
  obtain ⟨row', hrow', hidentity'⟩ := h.origin other hother
  obtain ⟨hkey, hversion⟩ := Prod.mk.inj hidentity
  obtain ⟨hkey', hversion'⟩ := Prod.mk.inj hidentity'
  have hbytes := hsame row hrow row' hrow' (hkey.trans (hkeys.trans hkey'.symm))
  rw [hkey, hversion, hkey', hversion', (h.read object hobject).2, (h.read other hother).2] at hbytes
  exact Option.some.inj hbytes

/-- The rows after the updates, when the objects are all there. -/
theorem restored_of_updated (hbackend : backend.Documented) {db : BackupDatabase} (hdb : db.WellFormed)
    {objects : List Snapshot} (hheld : Held tools source (objectRows db) objects)
    {saved : List (Snapshot × Option String)} (hsaved : saved.map Prod.fst = objects) {storage : σ}
    (hkept : Kept backend storage saved) {table : RowTable} {row : TableRow} (hrow : row ∈ db.rows table) :
    Restored source backend storage table row (updated table (updatesOf saved) row) := by
  have hlinks : (updatesOf saved).map Prod.fst = (links objects).map Prod.fst := by
    unfold updatesOf links
    rw [← hsaved, List.flatMap_map, List.map_flatMap, List.map_flatMap]
    refine congrArg (List.flatMap · saved) (funext fun object => ?_)
    rw [List.map_map, List.map_map]
    rfl
  have hreferences : ((updatesOf saved).map Prod.fst).Perm ((objectRows db).map ObjectRow.reference) := by
    rw [hlinks]
    have hperm := hheld.linked.map Prod.fst
    rw [List.map_map] at hperm
    exact hperm
  have hnodup : ((updatesOf saved).map Prod.fst).Nodup := hreferences.nodup_iff.mpr (nodup_references hdb)
  by_cases hempty : row.objectKey = ""
  · have hnone : referenceTo table row ∉ (updatesOf saved).map Prod.fst := by
      intro hmem
      obtain ⟨object, hobject, hreference⟩ := List.mem_map.mp (hreferences.mem_iff.mp hmem)
      obtain ⟨table', row', hrow', hkey, rfl⟩ := mem_objectRows.mp hobject
      obtain ⟨hname, hid⟩ := Reference.mk.inj hreference
      obtain rfl := RowTable.name_injective hname
      obtain rfl := List.inj_on_of_nodup_map (hdb.ids table') hrow' hrow hid
      exact hkey hempty
    rw [updated_of_notMem _ row hnone]
    exact ⟨⟨rfl, rfl, rfl⟩, fun hkey => absurd hempty hkey⟩
  · -- the object of the row, and the version it has been given
    have hobject : objectRow table row ∈ objectRows db := mem_objectRows.mpr ⟨table, row, hrow, hempty, rfl⟩
    have hlink : (referenceTo table row, (objectRow table row).identity) ∈ links objects :=
      hheld.linked.mem_iff.mpr (List.mem_map.mpr ⟨_, hobject, rfl⟩)
    obtain ⟨object, hmem, hreference⟩ := List.mem_flatMap.mp hlink
    obtain ⟨reference, hof, hpair⟩ := List.mem_map.mp hreference
    obtain ⟨rfl, hidentity⟩ := Prod.mk.inj hpair
    rw [← hsaved] at hmem
    obtain ⟨⟨object, version⟩, hin, rfl⟩ := List.mem_map.mp hmem
    have hupdate : (referenceTo table row, version) ∈ updatesOf saved :=
      List.mem_flatMap.mpr ⟨_, hin, List.mem_map.mpr ⟨_, hof, rfl⟩⟩
    rw [updated_of_mem _ row hnodup hupdate]
    refine ⟨⟨rfl, rfl, rfl⟩, fun _ => ?_⟩
    have hheldObject : object ∈ objects := hsaved ▸ hmem
    have hread := (hheld.read object hheldObject).2
    obtain ⟨hkey, hversion⟩ := Prod.mk.inj hidentity
    dsimp only at hkey hversion
    rw [hkey, hversion] at hread
    obtain ⟨content, hcontent, hbytes⟩ := Option.map_eq_some_iff.mp hread
    refine ⟨content, hcontent, ?_⟩
    have hgiven : version ≠ some "" := by
      obtain ⟨before, key, data, contentType, hversion⟩ := hkept.given _ hin
      intro heq
      exact hbackend.version before key data contentType (hversion.symm.trans heq)
    have hshown : (objectRow table { row with versionId := version }).version = version := by
      show version.filter (· != "") = version
      cases version with
      | none => rfl
      | some v =>
        refine Option.filter_eq_some_iff.mpr ⟨rfl, ?_⟩
        rw [bne_iff_ne]
        exact fun heq => hgiven (congrArg some heq)
    have hstored := hkept.read _ hin
    dsimp only at hstored
    rw [hshown, hbytes]
    rw [hkey] at hstored
    exact hstored

/-- What a restore of a backup comes down to: the archive is decrypted, extracted and verified, and the database
is the one of the backup. -/
theorem restoreBackup_eq (hdoc : tools.Documented) (hcipher : tools.Authentic sealed) {db : BackupDatabase}
    {objects : List Snapshot} (hpacked : Packed tools objects) {nonce : Bytes} (hnonce : nonce.length = 12)
    (hsealed : sealed nonce (magic ++ nonce) (tools.tar (payloadOf tools (tools.pgDump db) objects)))
    {w : World σ} (hempty : w.db = ⟨fun _ => []⟩) :
    restoreBackup tools backend (encrypt tools nonce (tools.tar (payloadOf tools (tools.pgDump db) objects))) w =
      restoreObjects backend (treeOf tools (tools.pgDump db) objects)
        (objects.map fun object => some (object.item tools)) { w with db, changes := w.changes ++ [.pgRestore] } := by
  have huntar : ((tools.untar (tools.tar (payloadOf tools (tools.pgDump db) objects))).elim
      (.error .unreadable) .ok : Except BackupError (List Member)) =
      .ok ((payloadOf tools (tools.pgDump db) objects).map fun file => ⟨file.1, true, file.2⟩) := by
    rw [hdoc.tar]
    rfl
  have hpg : runPgRestore tools (treeOf tools (tools.pgDump db) objects) w =
      (.ok (), { w with db, changes := w.changes ++ [.pgRestore] }) := by
    unfold runPgRestore
    rw [hpacked.file hdoc List.mem_cons_self]
    dsimp only
    rw [hempty, hdoc.pg]
    rfl
  unfold restoreBackup restoreTar restoreExtracted
  rw [Procedure.lift_bind_ok (decrypt_encrypt hcipher hnonce hsealed), Procedure.lift_bind_ok huntar,
    Procedure.lift_bind_ok (hpacked.extract hdoc _), Procedure.lift_bind_ok (hpacked.verified hdoc _),
    Procedure.run_bind_ok hpg]

theorem Packed.objectFile (hdoc : tools.Documented) {objects : List Snapshot} (h : Packed tools objects)
    (dump : Bytes) {object : Snapshot} (hobject : object ∈ objects) :
    (treeOf tools dump objects).file (parts object.archivePath) = some object.data :=
  h.file hdoc (List.mem_cons_of_mem _ (List.mem_cons_of_mem _ (List.mem_map.mpr ⟨object, hobject, rfl⟩)))

/-- **A backup that succeeds can be restored**: into an empty database, every row that refers to an object reads
the bytes that were backed up. -/
theorem restore_createBackup (hdoc : tools.Documented) (hcipher : tools.Authentic sealed)
    (hbackend : backend.Documented) {db : BackupDatabase} (hdb : db.WellFormed) (hnames : NamesDiffer tools db)
    (hkeeps : backend.KeepsVersions ∨ SameBytesPerKey source db) {nonce archive : Bytes}
    (hnonce : nonce.length = 12) (hcreate : createBackup tools source db nonce = .ok archive)
    (hsealed : ∀ plaintext, archive = encrypt tools nonce plaintext → sealed nonce (magic ++ nonce) plaintext)
    {w : World σ} (hempty : w.db = ⟨fun _ => []⟩) :
    ∃ w', restoreBackup tools backend archive w = (.ok (), w') ∧
      ∀ table, List.Forall₂ (Restored source backend w'.storage table) (db.rows table) (w'.db.rows table) := by
  obtain ⟨objects, hobjects, harchive⟩ := Library.bind_eq_ok.mp hcreate
  have harchive := (Except.ok.inj harchive).symm
  have hheld : Held tools source (objectRows db) objects := snapshotObjects_held (objectRows db) held_nil hobjects
  have hpacked := hheld.packed hdoc hdb hnames
  have hrestore : restoreBackup tools backend _ w = _ := restoreBackup_eq hdoc hcipher hpacked hnonce (hsealed _ harchive) hempty
  -- the objects are saved
  obtain ⟨saved, savedWorld, hsave, hdbSaved, hsaved, hkept⟩ := saveObjects_run hbackend objects []
    { w with db, changes := w.changes ++ [.pgRestore] } (fun _ hobject => hpacked.objectFile hdoc _ hobject)
    (hkeeps.imp_right hheld.sameBytes) ⟨fun _ h => absurd h List.not_mem_nil, fun _ h => absurd h List.not_mem_nil⟩
  -- and every reference names a row
  have hupdates : updateRows (updatesOf saved) savedWorld.db =
      .ok ⟨fun table => (db.rows table).map (updated table (updatesOf saved))⟩ := by
    rw [hdbSaved]
    refine updateRows_ok _ db hdb.ids fun update hupdate => ?_
    obtain ⟨⟨object, version⟩, hin, hof⟩ := List.mem_flatMap.mp hupdate
    obtain ⟨reference, hreference, rfl⟩ := List.mem_map.mp hof
    have hobject : object ∈ objects := hsaved ▸ List.mem_map_of_mem (f := Prod.fst) hin
    have hlink : (reference, object.identity) ∈ links objects :=
      List.mem_flatMap.mpr ⟨object, hobject, List.mem_map.mpr ⟨reference, hreference, rfl⟩⟩
    obtain ⟨row, hrow, hpair⟩ := List.mem_map.mp (hheld.linked.mem_iff.mp hlink)
    obtain ⟨table, tableRow, hmem, _, rfl⟩ := mem_objectRows.mp hrow
    exact ⟨table, tableRow, hmem, (Prod.mk.inj hpair).1.symm⟩
  refine ⟨{ savedWorld with
      db := ⟨fun table => (db.rows table).map (updated table (updatesOf saved))⟩
      changes := savedWorld.changes ++ (updatesOf saved).map fun update => .updateRow update.1.table update.1.id },
    ?_, fun table => ?_⟩
  · rw [harchive, hrestore]
    unfold restoreObjects
    rw [Procedure.run_bind_ok hsave, Procedure.run_bind_ok (Procedure.run_read _), Procedure.lift_bind_ok hupdates]
    rfl
  · dsimp only
    rw [List.forall₂_map_right_iff, List.forall₂_same]
    exact fun row hrow => restored_of_updated hbackend hdb hheld hsaved hkept hrow

end Dayfinch.Backup
