/-
# Dayfinch.Backup.Snapshots -- what a backup holds and how it is unpacked

`Snapshot` lists follow the loop of `_snapshot_objects`: one object for each key and version, and the
references of all objects together are the rows, each with what it is read by (`Held.linked`). The names in the
archive are then distinct, so that extracting gives every payload back and the manifest verifies.
-/
import Dayfinch.Backup.Archive
import Dayfinch.Library.Outcome

namespace Dayfinch.Backup

variable {tools : Tools} {source : Source}

/-! ## What the tools do -/

/-- The documented behaviour of the tools that a round trip rests on. -/
structure Tools.Documented (tools : Tools) : Prop where
  tar : ∀ files, tools.untar (tools.tar files) = some (files.map fun file => ⟨file.1, true, file.2⟩)
  json : ∀ dump objects, tools.decodeManifest (tools.encodeManifest (manifestOf tools dump objects)) =
    some (manifestOf tools dump objects)
  sha256_hex : ∀ data, ∀ c ∈ (tools.sha256 data).toList, c.isAlphanum = true
  pg : ∀ db, tools.pgRestore (tools.pgDump db) ⟨fun _ => []⟩ = (true, db)

/-! ## Collecting the objects -/

/-- The references of the objects, each with the identity of its object. -/
def links (objects : List Snapshot) : List (Reference × String × Option String) :=
  objects.flatMap fun object => object.references.map fun reference => (reference, object.identity)

/-- What the objects are when these rows have been seen. -/
structure Held (tools : Tools) (source : Source) (rows : List ObjectRow) (objects : List Snapshot) : Prop where
  identities : (objects.map Snapshot.identity).Nodup
  read : ∀ object ∈ objects, object.archivePath = archiveObjectPath tools object.key object.version ∧
    (source.object object.key object.version).map Prod.fst = some object.data
  origin : ∀ object ∈ objects, ∃ row ∈ rows, row.identity = object.identity
  linked : (links objects).Perm (rows.map fun row => (row.reference, row.identity))

/-- Another reference to the object of that identity. -/
def addReference (row : ObjectRow) (object : Snapshot) : Snapshot :=
  if object.identity = row.identity then { object with references := object.references ++ [row.reference] }
  else object

theorem addReference_identity (row : ObjectRow) (object : Snapshot) :
    (addReference row object).identity = object.identity := by
  unfold addReference
  split <;> rfl

theorem links_cons (object : Snapshot) (objects : List Snapshot) :
    links (object :: objects) =
      (object.references.map fun reference => (reference, object.identity)) ++ links objects :=
  List.flatMap_cons

theorem map_addReference_of_notMem {row : ObjectRow} {objects : List Snapshot}
    (h : row.identity ∉ objects.map Snapshot.identity) : objects.map (addReference row) = objects := by
  refine (List.map_congr_left fun object hobject => ?_).trans (List.map_id objects)
  refine if_neg fun heq => h ?_
  rw [← heq]
  exact List.mem_map_of_mem hobject

/-- The reference is added once. -/
theorem links_addReference {row : ObjectRow} {objects : List Snapshot}
    (hnodup : (objects.map Snapshot.identity).Nodup) (hmem : row.identity ∈ objects.map Snapshot.identity) :
    (links (objects.map (addReference row))).Perm ((row.reference, row.identity) :: links objects) := by
  induction objects with
  | nil => cases hmem
  | cons object objects ih =>
    rw [List.map_cons, List.nodup_cons] at hnodup
    rw [List.map_cons, links_cons, links_cons]
    by_cases heq : object.identity = row.identity
    · have hrest : row.identity ∉ objects.map Snapshot.identity := heq ▸ hnodup.1
      have hadd : addReference row object =
          { object with references := object.references ++ [row.reference] } := if_pos heq
      rw [map_addReference_of_notMem hrest, addReference_identity, hadd]
      dsimp only
      rw [List.map_append, List.map_singleton, heq, List.append_assoc]
      exact List.perm_middle
    · have hadd : addReference row object = object := if_neg heq
      rw [hadd]
      have hrest : row.identity ∈ objects.map Snapshot.identity :=
        (List.mem_cons.mp hmem).resolve_left fun h => heq h.symm
      exact ((ih hnodup.2 hrest).append_left _).trans List.perm_middle

theorem Held.addReference {rows : List ObjectRow} {objects : List Snapshot} (h : Held tools source rows objects)
    {row : ObjectRow} (hmem : row.identity ∈ objects.map Snapshot.identity) :
    Held tools source (rows ++ [row]) (objects.map (addReference row)) where
  identities := by
    rw [List.map_map]
    have hsame : Snapshot.identity ∘ Backup.addReference row = Snapshot.identity :=
      funext (addReference_identity row)
    rw [hsame]
    exact h.identities
  read object hobject := by
    obtain ⟨old, hold, rfl⟩ := List.mem_map.mp hobject
    have hread := h.read old hold
    unfold Backup.addReference
    split
    · exact hread
    · exact hread
  origin object hobject := by
    obtain ⟨old, hold, rfl⟩ := List.mem_map.mp hobject
    obtain ⟨seen, hseen, hidentity⟩ := h.origin old hold
    exact ⟨seen, List.mem_append_left _ hseen, hidentity.trans (addReference_identity row old).symm⟩
  linked := by
    rw [List.map_append, List.map_singleton]
    refine (links_addReference h.identities hmem).trans ?_
    exact (h.linked.cons _).trans (List.perm_append_singleton _ _).symm

theorem Held.addObject {rows : List ObjectRow} {objects : List Snapshot} (h : Held tools source rows objects)
    {row : ObjectRow} (hnew : row.identity ∉ objects.map Snapshot.identity) {data : Bytes} {contentType : String}
    (hread : source.read row = some (data, contentType)) :
    Held tools source (rows ++ [row]) (objects ++
      [⟨row.key, row.version, archiveObjectPath tools row.key row.version, contentType, data, [row.reference]⟩]) where
  identities := by
    rw [List.map_append, List.map_singleton]
    refine List.nodup_append.mpr ⟨h.identities, List.nodup_singleton _, ?_⟩
    rintro identity hidentity other hother rfl
    rw [List.mem_singleton.mp hother] at hidentity
    exact hnew hidentity
  read object hobject := by
    rcases List.mem_append.mp hobject with hold | hadded
    · exact h.read object hold
    · rw [List.mem_singleton.mp hadded]
      refine ⟨rfl, ?_⟩
      obtain ⟨content, hcontent, hkind⟩ := Option.bind_eq_some_iff.mp hread
      have hdata : content.1 = data := by
        split at hkind
        · exact congrArg Prod.fst (Option.some.inj (Option.ite_none_right_eq_some.mp hkind).2)
        · exact congrArg Prod.fst (Option.some.inj hkind)
      show (source.object row.key row.version).map Prod.fst = some data
      rw [hcontent, ← hdata]
      rfl
  origin object hobject := by
    rcases List.mem_append.mp hobject with hold | hadded
    · obtain ⟨seen, hseen, hidentity⟩ := h.origin object hold
      exact ⟨seen, List.mem_append_left _ hseen, hidentity⟩
    · rw [List.mem_singleton.mp hadded]
      exact ⟨row, List.mem_append_right _ List.mem_cons_self, rfl⟩
  linked := by
    have happend : ∀ object, links (objects ++ [object]) =
        links objects ++ (object.references.map fun reference => (reference, object.identity)) := by
      intro object
      unfold links
      rw [List.flatMap_append, List.flatMap_singleton]
    rw [happend, List.map_append, List.map_singleton]
    exact h.linked.append_right _

/-- **Every row is held**, when the backup succeeds. -/
theorem snapshotObjects_held (rows : List ObjectRow) :
    ∀ {seen : List ObjectRow} {objects result : List Snapshot}, Held tools source seen objects →
      snapshotObjects tools source rows objects = .ok result → Held tools source (seen ++ rows) result := by
  induction rows with
  | nil =>
    intro seen objects result h hrun
    rw [List.append_nil, ← Except.ok.inj hrun]
    exact h
  | cons row rows ih =>
    intro seen objects result h hrun
    rw [List.append_cons]
    unfold snapshotObjects at hrun
    split at hrun
    next hexists =>
      obtain ⟨object, hobject, hidentity⟩ := hexists
      exact ih (h.addReference (hidentity ▸ List.mem_map_of_mem hobject)) hrun
    next hnew =>
      have hfresh : row.identity ∉ objects.map Snapshot.identity := by
        intro hmem
        obtain ⟨object, hobject, hidentity⟩ := List.mem_map.mp hmem
        exact hnew ⟨object, hobject, hidentity⟩
      split at hrun
      next => cases hrun
      next data contentType hread =>
        split at hrun
        next => cases hrun
        next => exact ih (h.addObject hfresh hread) hrun

theorem held_nil : Held tools source [] [] where
  identities := List.nodup_nil
  read object h := by cases h
  origin object h := by cases h
  linked := List.Perm.refl _

/-! ## The names in the archive -/

/-- What the name of an object is the digest of. -/
def nameText (key : String) (version : Option String) : Bytes := utf8 (key ++ "\x00" ++ version.getD "")

theorem parts_of_single {name : String} (h : '/' ∉ name.toList) (hne : name.toList ≠ [])
    (hdot : name.toList ≠ ['.']) : parts name = [name.toList] := by
  unfold parts
  rw [List.splitOn_eq_singleton h, List.filter_singleton]
  simp [hne, hdot]

theorem toList_archiveObjectPath (tools : Tools) (key : String) (version : Option String) :
    (archiveObjectPath tools key version).toList =
      "objects".toList ++ '/' :: ((tools.sha256 (utf8 (key ++ "\x00" ++ version.getD ""))).toList ++ ".blob".toList) := by
  unfold archiveObjectPath
  rw [String.toList_append, String.toList_append, List.append_assoc]
  rfl

/-- The parts of the name of an object. -/
theorem parts_archiveObjectPath (hdoc : tools.Documented) (key : String) (version : Option String) :
    parts (archiveObjectPath tools key version) =
      ["objects".toList, (tools.sha256 (utf8 (key ++ "\x00" ++ version.getD ""))).toList ++ ".blob".toList] := by
  have hhex : '/' ∉ (tools.sha256 (utf8 (key ++ "\x00" ++ version.getD ""))).toList ++ ".blob".toList := by
    intro hmem
    rcases List.mem_append.mp hmem with hdigit | hend
    · exact absurd (hdoc.sha256_hex _ _ hdigit) (by decide)
    · exact absurd hend (by decide)
  unfold parts
  rw [toList_archiveObjectPath, List.splitOn_append_cons_self_of_not_mem (by decide),
    List.splitOn_eq_singleton hhex]
  generalize tools.sha256 (utf8 (key ++ "\x00" ++ version.getD "")) = digest
  rw [List.filter_eq_self]
  intro part hpart
  rw [decide_eq_true_eq]
  rcases List.mem_cons.mp hpart with rfl | hlast
  · decide
  · rw [List.mem_singleton.mp hlast]
    constructor
    · intro hnil
      exact absurd (List.append_eq_nil_iff.mp hnil).2 (by decide)
    · intro hdot
      have hlength := congrArg List.length hdot
      rw [List.length_append] at hlength
      have hblob : ".blob".toList.length = 5 := rfl
      simp only [List.length_singleton] at hlength
      omega

theorem isUnsafe_archiveObjectPath (hdoc : tools.Documented) (key : String) (version : Option String) :
    isUnsafe (archiveObjectPath tools key version) = false := by
  unfold isUnsafe
  rw [parts_archiveObjectPath hdoc, toList_archiveObjectPath]
  rw [Bool.or_eq_false_iff, decide_eq_false_iff_not]
  refine ⟨by simp, fun hmem => ?_⟩
  rcases List.mem_cons.mp hmem with hfirst | hlast
  · exact absurd hfirst (by decide)
  · have heq := congrArg List.length (List.mem_singleton.mp hlast)
    rw [List.length_append] at heq
    have hblob : ".blob".toList.length = 5 := rfl
    have htwo : ['.', '.'].length = 2 := rfl
    omega

theorem utf8_injective : Function.Injective utf8 := by
  intro s t h
  have hdata : s.toUTF8.data = t.toUTF8.data := Array.toList_inj.mp h
  exact String.toByteArray_inj.mp (ByteArray.ext hdata)

/-- Versions that differ have names that differ. -/
theorem archiveObjectPath_inj (hdoc : tools.Documented) {key key' : String} {version version' : Option String}
    (hcollision : tools.sha256 (nameText key version) = tools.sha256 (nameText key' version') →
      nameText key version = nameText key' version')
    (hkey : '\x00' ∉ key.toList) (hkey' : '\x00' ∉ key'.toList) (hversion : version ≠ some "")
    (hversion' : version' ≠ some "")
    (h : parts (archiveObjectPath tools key version) = parts (archiveObjectPath tools key' version')) :
    key = key' ∧ version = version' := by
  rw [parts_archiveObjectPath hdoc, parts_archiveObjectPath hdoc] at h
  have hdigest := List.append_cancel_right (List.cons.inj (List.cons.inj h).2).1
  have htext := utf8_injective (hcollision (String.toList_inj.mp hdigest))
  have hlist := congrArg String.toList htext
  rw [String.toList_append, String.toList_append, String.toList_append, String.toList_append,
    List.append_assoc, List.append_assoc] at hlist
  obtain ⟨hfirst, hsecond⟩ := Library.Text.split_at_separator hkey hkey' hlist
  refine ⟨String.toList_inj.mp hfirst, ?_⟩
  have hgetD : version.getD "" = version'.getD "" := String.toList_inj.mp hsecond
  cases version with
  | none =>
    cases version' with
    | none => rfl
    | some v => exact absurd (congrArg some hgetD.symm) hversion'
  | some v =>
    cases version' with
    | none => exact absurd (congrArg some hgetD) hversion
    | some v' => exact congrArg some hgetD

/-! ## Unpacking -/

/-- Neither path leads through the other. -/
def Apart (path path' : List (List Char)) : Prop := ¬ path <+: path' ∧ ¬ path' <+: path

theorem safeExtract_ok (members : List Member) :
    ∀ tree : Tree, (∀ member ∈ members, isUnsafe member.name = false ∧ member.isfile = true ∧ parts member.name ≠ []) →
      (members.map fun member => parts member.name).Pairwise Apart →
      (∀ file ∈ tree, ∀ member ∈ members, Apart file.1 (parts member.name)) →
      safeExtract members tree = .ok (tree ++ members.map fun member => (parts member.name, member.data)) := by
  induction members with
  | nil =>
    intro tree _ _ _
    exact congrArg Except.ok (List.append_nil tree).symm
  | cons member members ih =>
    intro tree hsafe hapart htree
    obtain ⟨hleads, hfile, hparts⟩ := hsafe member List.mem_cons_self
    rw [List.map_cons, List.pairwise_cons] at hapart
    have hfree : ¬ tree.Occupied (parts member.name) := by
      rintro (hnil | ⟨file, hmem, hlead⟩)
      · exact hparts hnil
      · obtain ⟨hnot, hnot'⟩ := htree file hmem member List.mem_cons_self
        exact hlead.elim hnot hnot'
    rw [safeExtract, if_neg (by rw [hleads, hfile]; decide), if_neg hfree, ih, List.append_assoc]
    · rfl
    · exact fun m hm => hsafe m (List.mem_cons_of_mem _ hm)
    · exact hapart.2
    · intro file hmem m hm
      rcases List.mem_append.mp hmem with hold | hadded
      · exact htree file hold m (List.mem_cons_of_mem _ hm)
      · rw [List.mem_singleton.mp hadded]
        exact hapart.1 _ (List.mem_map_of_mem hm)

theorem file_of_mem {tree : Tree} (hnodup : (tree.map Prod.fst).Nodup) {path : List (List Char)} {data : Bytes}
    (h : (path, data) ∈ tree) : tree.file path = some data := by
  unfold Tree.file
  induction tree with
  | nil => cases h
  | cons file tree ih =>
    rw [List.map_cons, List.nodup_cons] at hnodup
    rcases List.mem_cons.mp h with rfl | htail
    · rw [List.find?_cons_of_pos (by simp)]
      rfl
    · have hother : file.1 ≠ path := fun heq => hnodup.1 (heq ▸ List.mem_map_of_mem (f := Prod.fst) htail)
      rw [List.find?_cons_of_neg (by simpa using hother)]
      exact ih hnodup.2 htail

/-- The files of a backup on the disk. -/
def treeOf (tools : Tools) (dump : Bytes) (objects : List Snapshot) : Tree :=
  (payloadOf tools dump objects).map fun file => (parts file.1, file.2)

/-- The objects have names that differ. -/
structure Packed (tools : Tools) (objects : List Snapshot) : Prop where
  named : ∀ object ∈ objects, object.archivePath = archiveObjectPath tools object.key object.version
  distinct : (objects.map fun object => parts object.archivePath).Nodup

theorem parts_dump : parts "database.dump" = ["database.dump".toList] :=
  parts_of_single (by decide) (by decide) (by decide)

theorem parts_manifest : parts "manifest.json" = ["manifest.json".toList] :=
  parts_of_single (by decide) (by decide) (by decide)

theorem isUnsafe_dump : isUnsafe "database.dump" = false := by decide

theorem isUnsafe_manifest : isUnsafe "manifest.json" = false := by decide

theorem Packed.pairwise (hdoc : tools.Documented) {objects : List Snapshot} (h : Packed tools objects)
    (dump : Bytes) : ((payloadOf tools dump objects).map fun file => parts file.1).Pairwise Apart := by
  have hparts : ∀ object ∈ objects, ∃ name, parts object.archivePath = ["objects".toList, name] := by
    intro object hobject
    rw [h.named object hobject]
    exact ⟨_, parts_archiveObjectPath hdoc _ _⟩
  have hsingle : ∀ name : List Char, name ≠ "objects".toList → ∀ object ∈ objects,
      Apart [name] (parts object.archivePath) := by
    intro name hname object hobject
    obtain ⟨rest, hrest⟩ := hparts object hobject
    rw [hrest]
    constructor
    · intro hlead
      exact hname (List.cons_prefix_cons.mp hlead).1
    · intro hlead
      exact hname (List.cons_prefix_cons.mp hlead).1.symm
  unfold payloadOf
  rw [List.map_cons, List.map_cons, List.map_map, List.pairwise_cons, List.pairwise_cons, parts_dump, parts_manifest]
  refine ⟨fun path hpath => ?_, fun path hpath => ?_, ?_⟩
  · rcases List.mem_cons.mp hpath with rfl | hobject
    · constructor <;> decide
    · obtain ⟨object, hheld, rfl⟩ := List.mem_map.mp hobject
      exact hsingle _ (by decide) object hheld
  · obtain ⟨object, hheld, rfl⟩ := List.mem_map.mp hpath
    exact hsingle _ (by decide) object hheld
  · -- names of two parts each, so that one leads through the other only if they are equal
    have hdistinct : (objects.map fun object => parts object.archivePath).Pairwise fun path path' => path ≠ path' :=
      h.distinct
    refine hdistinct.imp_of_mem fun {path path'} hpath hpath' hne => ?_
    obtain ⟨object, hobject, rfl⟩ := List.mem_map.mp hpath
    obtain ⟨object', hobject', rfl⟩ := List.mem_map.mp hpath'
    obtain ⟨name, hname⟩ := hparts object hobject
    obtain ⟨name', hname'⟩ := hparts object' hobject'
    have hlength : (parts object.archivePath).length = (parts object'.archivePath).length := by
      rw [hname, hname']
      rfl
    exact ⟨fun hlead => hne (hlead.eq_of_length hlength), fun hlead => hne (hlead.eq_of_length hlength.symm).symm⟩

theorem Packed.extract (hdoc : tools.Documented) {objects : List Snapshot} (h : Packed tools objects)
    (dump : Bytes) :
    safeExtract ((payloadOf tools dump objects).map fun file => ⟨file.1, true, file.2⟩) [] =
      .ok (treeOf tools dump objects) := by
  rw [safeExtract_ok]
  · rw [List.nil_append, List.map_map]
    rfl
  · intro member hmember
    obtain ⟨file, hfile, rfl⟩ := List.mem_map.mp hmember
    rcases List.mem_cons.mp hfile with rfl | hrest
    · refine ⟨isUnsafe_dump, rfl, ?_⟩
      show parts "database.dump" ≠ []
      rw [parts_dump]
      exact List.cons_ne_nil _ _
    · rcases List.mem_cons.mp hrest with rfl | hobject
      · refine ⟨isUnsafe_manifest, rfl, ?_⟩
        show parts "manifest.json" ≠ []
        rw [parts_manifest]
        exact List.cons_ne_nil _ _
      · obtain ⟨object, hheld, rfl⟩ := List.mem_map.mp hobject
        dsimp only
        rw [h.named object hheld]
        refine ⟨isUnsafe_archiveObjectPath hdoc _ _, rfl, ?_⟩
        rw [parts_archiveObjectPath hdoc]
        exact List.cons_ne_nil _ _
  · rw [List.map_map]
    exact h.pairwise hdoc dump
  · intro file hfile
    cases hfile

/-- Every payload is found again. -/
theorem Packed.file (hdoc : tools.Documented) {objects : List Snapshot} (h : Packed tools objects) {dump : Bytes}
    {name : String} {data : Bytes} (hmem : (name, data) ∈ payloadOf tools dump objects) :
    (treeOf tools dump objects).file (parts name) = some data := by
  refine file_of_mem ?_ (List.mem_map.mpr ⟨(name, data), hmem, rfl⟩)
  unfold treeOf
  rw [List.map_map]
  refine (h.pairwise hdoc dump).imp fun {path path'} hapart heq => ?_
  exact hapart.1 (heq ▸ List.prefix_refl path)

/-! ## The manifest verifies -/

theorem verifyItem_ok {tree : Tree} {item : Item} {data : Bytes} (hsafe : isUnsafe item.archivePath = false)
    (hparts : parts item.archivePath ≠ []) (hfile : tree.file (parts item.archivePath) = some data)
    (hsize : item.size = some data.length) (hdigest : item.sha256 = some (tools.sha256 data)) :
    verifyItem tools tree (some item) = .ok () := by
  unfold verifyItem
  dsimp only
  rw [if_neg (by rw [hsafe]; exact fun h => h.elim Bool.false_ne_true hparts), hfile]
  dsimp only
  rw [if_neg (by rw [hsize, hdigest]; simp)]

theorem forM_ok {α : Type} {f : α → Except BackupError Unit} {xs : List α} (h : ∀ x ∈ xs, f x = .ok ()) :
    xs.forM f = .ok () := by
  induction xs with
  | nil => rfl
  | cons x xs ih =>
    show (f x >>= fun _ => xs.forM f) = .ok ()
    rw [h x List.mem_cons_self]
    exact ih fun y hy => h y (List.mem_cons_of_mem _ hy)

theorem Packed.verified (hdoc : tools.Documented) {objects : List Snapshot} (h : Packed tools objects)
    (dump : Bytes) :
    loadAndVerifyManifest tools (treeOf tools dump objects) =
      .ok (objects.map fun object => some (object.item tools)) := by
  have hmanifest := h.file hdoc
    (List.mem_cons_of_mem _ List.mem_cons_self : ("manifest.json", _) ∈ payloadOf tools dump objects)
  have hall : ∀ item ∈ (some (dumpItem tools dump) ::
      objects.map fun object => some (object.item tools)),
      verifyItem tools (treeOf tools dump objects) item = .ok () := by
    intro item hitem
    rcases List.mem_cons.mp hitem with rfl | hobject
    · refine verifyItem_ok isUnsafe_dump ?_ (h.file hdoc List.mem_cons_self) rfl rfl
      show parts "database.dump" ≠ []
      rw [parts_dump]
      exact List.cons_ne_nil _ _
    · obtain ⟨object, hheld, rfl⟩ := List.mem_map.mp hobject
      have hmem : (object.archivePath, object.data) ∈ payloadOf tools dump objects :=
        List.mem_cons_of_mem _ (List.mem_cons_of_mem _ (List.mem_map.mpr ⟨object, hheld, rfl⟩))
      refine verifyItem_ok ?_ ?_ (h.file hdoc hmem) rfl rfl
      · show isUnsafe object.archivePath = false
        rw [h.named object hheld]
        exact isUnsafe_archiveObjectPath hdoc _ _
      · show parts object.archivePath ≠ []
        rw [h.named object hheld, parts_archiveObjectPath hdoc]
        exact List.cons_ne_nil _ _
  unfold loadAndVerifyManifest
  rw [hmanifest, Option.bind_some, hdoc.json]
  unfold manifestOf
  dsimp only
  rw [if_neg (by decide), forM_ok hall]
  rfl

end Dayfinch.Backup
