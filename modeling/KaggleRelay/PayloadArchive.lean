/-
What archive of a version is accepted.

The archive holds the files of a version, in any order, as plain members.  It
is accepted exactly when their names, sizes and digests are what
`upload_content_inventory` expects of the Dataset's directory.

* `RemoteTree`, `Packs` — the files of a version, and an archive of them;
* `zipMembers_packs` — such an archive passes `zip_members`;
* `expandedPayloadInventory_nodup`, `looseInventory_nodup` — nothing is expected
  twice;
* `verifyUploadArchive_iff` — which archives are accepted.
-/
import KaggleRelay.FileVerification
import KaggleRelay.PayloadContract

namespace KaggleRelay

open Effects

namespace Payload

variable {lib : Library} {zip : ZipReader}

/-! ### The files of a version -/

/-- Files by their names. -/
abbrev FileTree := List (String × Bytes)

/-- The names of a version are valid, distinct up to case, and no file is a
folder of another. -/
structure RemoteTree (lib : Library) (files : FileTree) : Prop where
  nonempty : files ≠ []
  few : files.length ≤ 100000
  valid : ∀ file ∈ files, validName file.1 = true
  distinct : (files.map fun file => lib.casefold file.1).Nodup
  apart : ∀ file ∈ files, ∀ parent ∈ parents file.1, parent ∉ files.map Prod.fst

/-- Sizes and digests of files. -/
def contents (lib : Library) (files : FileTree) : Expected :=
  files.map fun file => (file.1, file.2.length, lib.sha256 file.2)

/-- The inventory of a version. -/
def treeInventory (lib : Library) (files : FileTree) : Inventory := Std.ExtTreeMap.ofList (contents lib files)

/-- A member that stores a file. -/
structure Stores (info : ZipInfo) (file : String × Bytes) : Prop where
  filename : info.filename = file.1
  origFilename : info.origFilename = file.1
  plain : info.flagBits % 2 = 0
  format : info.format = 0 ∨ info.format = 0o100000
  fileSize : info.fileSize = file.2.length
  content : info.content = .ok file.2

/-- An archive of exactly these files. -/
abbrev Packs (infos : List ZipInfo) (files : FileTree) : Prop := List.Forall₂ Stores infos files

theorem RemoteTree.nodup {files : FileTree} (h : RemoteTree lib files) : (files.map Prod.fst).Nodup := by
  refine List.Nodup.of_map lib.casefold ?_
  rw [List.map_map]
  exact h.distinct

theorem map_fst_contents (lib : Library) (files : FileTree) : (contents lib files).map Prod.fst = files.map Prod.fst := by
  rw [contents, List.map_map]
  rfl

/-! ### Members of such an archive -/

/-- A valid name does not end in a slash. -/
theorem getLast?_of_validName {name : String} (h : validName name = true) : name.toList.getLast? ≠ some '/' := by
  intro hlast
  obtain ⟨front, hfront⟩ := List.getLast?_eq_some_iff.mp hlast
  have hempty : "" ∈ Text.split name '/' := by
    rw [Text.split, hfront]
    refine List.mem_map.mpr ⟨[], ?_, rfl⟩
    rw [List.splitOn_append_cons_self]
    exact List.mem_append_right _ (by simp)
  rw [validName, Bool.not_eq_true', Bool.or_eq_false_iff, List.any_eq_false] at h
  exact h.2 "" hempty rfl

theorem Stores.name {info : ZipInfo} {file : String × Bytes} (h : Stores info file) (hvalid : validName file.1 = true) :
    info.name = file.1 := by
  have hlast := getLast?_of_validName hvalid
  rw [ZipInfo.name, Text.stripSets, h.filename]
  have hleft : file.1.toList.dropWhile ([] : List Char).contains = file.1.toList :=
    List.dropWhile_eq_self_iff.mpr fun _ => by simp
  have hright : file.1.toList.reverse.dropWhile ['/'].contains = file.1.toList.reverse := by
    refine List.dropWhile_eq_self_iff.mpr fun hpos hslash => hlast ?_
    rw [← List.head?_reverse, List.head?_eq_getElem?, List.getElem?_eq_getElem hpos]
    simpa using hslash
  rw [hleft, hright, List.reverse_reverse, String.ofList_toList]

theorem Stores.isDir {info : ZipInfo} {file : String × Bytes} (h : Stores info file)
    (hvalid : validName file.1 = true) : info.isDir = false := by
  rw [ZipInfo.isDir, h.filename]
  exact beq_eq_false_iff_ne.mpr (getLast?_of_validName hvalid)

theorem Stores.safe {info : ZipInfo} {file : String × Bytes} {seen : List String} (h : Stores info file)
    (hvalid : validName file.1 = true) (hnew : lib.casefold file.1 ∉ seen) : unsafeMember lib info seen = false := by
  have hformat : info.format ≠ 0o040000 := by
    rcases h.format with hf | hf <;> rw [hf] <;> decide
  have hknown : (info.format == 0 || info.format == 0o100000 || info.format == 0o040000) = true := by
    rcases h.format with hf | hf <;> rw [hf] <;> rfl
  rw [validName, Bool.not_eq_true', Bool.or_eq_false_iff, Bool.or_eq_false_iff, Bool.or_eq_false_iff] at hvalid
  obtain ⟨⟨⟨hempty, hback⟩, hcolon⟩, hparts⟩ := hvalid
  rw [unsafeMember, h.name (by rw [validName, hempty, hback, hcolon, hparts]; rfl), hempty, hback, hcolon, hparts,
    hknown, h.filename, h.origFilename, bne_self_eq_false, h.plain, beq_eq_false_iff_ne.mpr hformat, Bool.and_false]
  simpa using hnew

/-- The members by their names. -/
def named (infos : List ZipInfo) (files : FileTree) : Members := (files.map Prod.fst).zip infos

theorem collectMembers_packs {infos : List ZipInfo} {files : FileTree} {seen : List String} {members : Members}
    (hpacks : Packs infos files) (hvalid : ∀ file ∈ files, validName file.1 = true)
    (hdistinct : (seen ++ files.map fun file => lib.casefold file.1).Nodup) :
    collectMembers lib infos seen members = .ok (members ++ named infos files) := by
  induction hpacks generalizing seen members with
  | nil => simp [collectMembers, named]
  | @cons info file infos files hstores _ ih =>
    have hfile := hvalid file List.mem_cons_self
    have hmoved : (lib.casefold file.1 :: seen ++ files.map fun file => lib.casefold file.1).Nodup := by
      rw [List.map_cons, List.nodup_middle] at hdistinct
      exact hdistinct
    have hnew : lib.casefold file.1 ∉ seen := by
      intro hmem
      exact (List.nodup_cons.mp hmoved).1 (List.mem_append_left _ hmem)
    rw [collectMembers, hstores.safe hfile hnew, if_neg (by decide), hstores.isDir hfile, if_neg (by decide),
      hstores.name hfile, ih (fun f hf => hvalid f (List.mem_cons_of_mem _ hf)) hmoved, List.append_assoc]
    rfl

theorem map_fst_named {infos : List ZipInfo} {files : FileTree} (h : Packs infos files) :
    (named infos files).map Prod.fst = files.map Prod.fst := by
  rw [named, List.map_fst_zip (by rw [List.length_map, h.length_eq])]

/-- An archive of a version has its files as members. -/
theorem zipMembers_packs {infos : List ZipInfo} {files : FileTree} (hpacks : Packs infos files)
    (htree : RemoteTree lib files) : zipMembers lib infos = .ok (named infos files) := by
  have hapart : ((named infos files).all fun file =>
      !(parents file.1).any fun parent => ((named infos files).map Prod.fst).contains parent) = true := by
    rw [List.all_eq_true]
    intro item hitem
    have hname : item.1 ∈ files.map Prod.fst := map_fst_named hpacks ▸ List.mem_map_of_mem hitem
    obtain ⟨file, hfile, hsame⟩ := List.mem_map.mp hname
    rw [Bool.not_eq_true', List.any_eq_false, ← hsame]
    intro parent hparent
    rw [map_fst_named hpacks, List.contains_iff_mem]
    exact htree.apart file hfile parent hparent
  rw [zipMembers, collectMembers_packs hpacks htree.valid (by simpa using htree.distinct)]
  show (require _ _ >>= fun _ => _) = _
  rw [List.nil_append, require, if_pos hapart]
  rfl

/-- The member of a name stores its file. -/
theorem member_named {infos : List ZipInfo} {files : FileTree} {file : String × Bytes} (hpacks : Packs infos files)
    (hnodup : (files.map Prod.fst).Nodup) (hfile : file ∈ files) :
    ∃ info, member (named infos files) file.1 = some info ∧ Stores info file := by
  induction hpacks with
  | nil => cases hfile
  | @cons info head infos files hstores _ ih =>
    obtain ⟨hhead, htail⟩ := List.nodup_cons.mp hnodup
    rcases List.mem_cons.mp hfile with rfl | hfile
    · refine ⟨info, ?_, hstores⟩
      simp [member, named]
    · obtain ⟨found, hfound, hstored⟩ := ih htail hfile
      refine ⟨found, ?_, hstored⟩
      have hne : head.1 ≠ file.1 := fun heq => hhead (heq ▸ List.mem_map_of_mem hfile)
      simpa [member, named, hne] using hfound

theorem member_eq_none {members : Members} {name : String} :
    member members name = none ↔ name ∉ members.map Prod.fst := by
  rw [member, Option.map_eq_none_iff, List.find?_eq_none, List.mem_map]
  constructor
  · rintro h ⟨item, hitem, rfl⟩
    exact h item hitem (beq_self_eq_true _)
  · intro h item hitem heq
    exact h ⟨item, hitem, beq_iff_eq.mp heq⟩

/-! ### What is expected has different names -/

theorem collectMembers_nodup {infos : List ZipInfo} {seen : List String} {files members : Members}
    (h : collectMembers lib infos seen files = .ok members) (hnodup : (files.map Prod.fst).Nodup)
    (hseen : ∀ file ∈ files, lib.casefold file.1 ∈ seen) : (members.map Prod.fst).Nodup := by
  induction infos generalizing seen files with
  | nil =>
    cases h
    exact hnodup
  | cons info infos ih =>
    rw [collectMembers] at h
    split at h
    · cases h
    · rename_i hsafe
      have hnew : lib.casefold info.name ∉ seen := by
        intro hmem
        refine hsafe ?_
        rw [unsafeMember, List.contains_iff_mem.mpr hmem, Bool.or_true]
      split at h
      · exact ih h hnodup fun file hfile => List.mem_cons_of_mem _ (hseen file hfile)
      · refine ih h ?_ fun file hfile => ?_
        · rw [List.map_append, List.nodup_append_comm]
          refine List.nodup_cons.mpr ⟨fun hmem => hnew ?_, hnodup⟩
          obtain ⟨file, hfile, hsame⟩ := List.mem_map.mp hmem
          have hsame : file.1 = info.name := hsame
          rw [← hsame]
          exact hseen file hfile
        · rcases List.mem_append.mp hfile with hfile | hfile
          · exact List.mem_cons_of_mem _ (hseen file hfile)
          · rw [List.mem_singleton.mp hfile]
            exact List.mem_cons_self

theorem zipMembers_nodup {infos : List ZipInfo} {members : Members} (h : zipMembers lib infos = .ok members) :
    (members.map Prod.fst).Nodup := by
  obtain ⟨files, hfiles, h⟩ := ok_bind.mp h
  obtain ⟨_, -, h⟩ := ok_bind.mp h
  cases h
  exact collectMembers_nodup hfiles List.nodup_nil fun _ hfile => by cases hfile

theorem map_fst_archiveInventory {members : Members} {inventory : Expected}
    (h : archiveInventory lib members = .ok inventory) : inventory.map Prod.fst = members.map Prod.fst := by
  induction members generalizing inventory with
  | nil =>
    cases h
    rfl
  | cons item members ih =>
    rw [archiveInventory, List.mapM_cons] at h
    obtain ⟨entry, hentry, h⟩ := ok_bind.mp h
    obtain ⟨rest, hrest, h⟩ := ok_bind.mp h
    obtain ⟨bytes, -, hentry⟩ := ok_bind.mp hentry
    cases h
    cases hentry
    rw [List.map_cons, List.map_cons, ih hrest]

theorem addExpanded_nodup {folder : String} {rest expected result : Expected}
    (h : addExpanded folder rest expected = .ok result) (hnodup : (expected.map Prod.fst).Nodup) :
    (result.map Prod.fst).Nodup := by
  induction rest generalizing expected with
  | nil =>
    cases h
    exact hnodup
  | cons item rest ih =>
    obtain ⟨_, hnew, h⟩ := ok_bind.mp h
    refine ih h ?_
    rw [List.map_append, List.nodup_append_comm]
    refine List.nodup_cons.mpr ⟨fun hmem => ?_, hnodup⟩
    rw [require, if_neg (by simpa using hmem)] at hnew
    cases hnew

theorem expandRuntime_nodup {members : Members} {names : List String} {path : String} {maxFiles : ℕ}
    {expected result : Expected} (h : expandRuntime lib zip members names path maxFiles expected = .ok result)
    (hnodup : (expected.map Prod.fst).Nodup) : (result.map Prod.fst).Nodup := by
  unfold expandRuntime at h
  split at h
  · cases h
    exact hnodup
  · split at h
    · cases h
      exact hnodup
    · obtain ⟨_, -, h⟩ := ok_bind.mp h
      obtain ⟨_, -, h⟩ := ok_bind.mp h
      obtain ⟨_, -, h⟩ := ok_bind.mp h
      obtain ⟨_, -, h⟩ := ok_bind.mp h
      obtain ⟨_, -, h⟩ := ok_bind.mp h
      obtain ⟨_, -, h⟩ := ok_bind.mp h
      exact addExpanded_nodup h (hnodup.sublist (List.filter_sublist.map _))

theorem expandRuntimes_nodup {members : Members} {names : List String} {paths : List (String × ℕ)}
    {expected result : Expected} (h : expandRuntimes lib zip members names paths expected = .ok result)
    (hnodup : (expected.map Prod.fst).Nodup) : (result.map Prod.fst).Nodup := by
  induction paths generalizing expected with
  | nil =>
    cases h
    exact hnodup
  | cons path paths ih =>
    obtain ⟨next, hnext, h⟩ := ok_bind.mp h
    exact ih h (expandRuntime_nodup hnext hnodup)

theorem expandedPayloadInventory_nodup {payload : Bytes} {names : List String} {expected : Expected}
    (h : expandedPayloadInventory lib zip payload names = .ok expected) : (expected.map Prod.fst).Nodup := by
  obtain ⟨original, -, h⟩ := ok_bind.mp h
  obtain ⟨members, hmembers, h⟩ := ok_bind.mp h
  obtain ⟨inventory, hinventory, h⟩ := ok_bind.mp h
  exact expandRuntimes_nodup h (map_fst_archiveInventory hinventory ▸ zipMembers_nodup hmembers)

theorem looseInventory_nodup {nodes : List (String × Node)} {expected result : Expected}
    (h : looseInventory lib nodes expected = .ok result)
    (hnodup : (expected.map Prod.fst ++ nodes.map Prod.fst).Nodup) : (result.map Prod.fst).Nodup := by
  induction nodes generalizing expected with
  | nil =>
    cases h
    simpa using hnodup
  | cons item nodes ih =>
    obtain ⟨path, node⟩ := item
    have hskip : (expected.map Prod.fst ++ nodes.map Prod.fst).Nodup :=
      hnodup.sublist (List.Sublist.append_left (List.sublist_cons_self _ _) _)
    cases node with
    | symlink target => cases h
    | directory => exact ih h hskip
    | file content =>
      simp only [looseInventory] at h
      split at h
      · exact ih h hskip
      · refine ih h ?_
        rw [List.map_append, List.append_assoc]
        exact hnodup

/-! ### The archive -/

/-- Only which names there are matters, not their order. -/
theorem expandRuntimes_congr {members : Members} {names names' : List String} {paths : List (String × ℕ)}
    {expected : Expected} (hsame : ∀ name, name ∈ names ↔ name ∈ names') :
    expandRuntimes lib zip members names paths expected = expandRuntimes lib zip members names' paths expected := by
  have hcontains : ∀ name, names.contains name = names'.contains name := fun name => by
    rw [Bool.eq_iff_iff, List.contains_iff_mem, List.contains_iff_mem, hsame]
  induction paths generalizing expected with
  | nil => rfl
  | cons path paths ih =>
    have hone : expandRuntime lib zip members names path.1 path.2 expected =
        expandRuntime lib zip members names' path.1 path.2 expected := by
      rw [expandRuntime, expandRuntime, hcontains]
    show (expandRuntime _ _ _ _ _ _ _ >>= _) = (expandRuntime _ _ _ _ _ _ _ >>= _)
    rw [hone]
    congr 1
    funext next
    exact ih

theorem expandedPayloadInventory_congr {payload : Bytes} {names names' : List String}
    (hsame : ∀ name, name ∈ names ↔ name ∈ names') :
    expandedPayloadInventory lib zip payload names = expandedPayloadInventory lib zip payload names' := by
  unfold expandedPayloadInventory
  congr 1
  funext original
  congr 1
  funext members
  congr 1
  funext expected
  exact expandRuntimes_congr hsame

theorem uploadContentInventory_congr {dir : DatasetDir} {names names' : List String}
    (hsame : ∀ name, name ∈ names ↔ name ∈ names') :
    uploadContentInventory lib zip dir names = uploadContentInventory lib zip dir names' := by
  have hcontains : names.contains "payload.zip" = names'.contains "payload.zip" := by
    rw [Bool.eq_iff_iff, List.contains_iff_mem, List.contains_iff_mem, hsame]
  unfold uploadContentInventory
  rw [hcontains]
  simp only [expandedPayloadInventory_congr hsame]

theorem compareMembers_ok {actual : Members} {expected : Expected} :
    compareMembers lib actual expected = .ok () ↔ ∀ item ∈ expected, ∃ info bytes,
      member actual item.1 = some info ∧ info.fileSize = item.2.1 ∧ info.content = .ok bytes ∧
        lib.sha256 bytes = item.2.2 := by
  induction expected with
  | nil => exact ⟨fun _ _ h => (by cases h), fun _ => rfl⟩
  | cons item expected ih =>
    obtain ⟨name, size, digest⟩ := item
    rw [List.forall_mem_cons, ← ih, compareMembers, ok_bind]
    constructor
    · rintro ⟨info, hinfo, h⟩
      obtain ⟨_, hsize, h⟩ := ok_bind.mp h
      obtain ⟨bytes, hbytes, h⟩ := ok_bind.mp h
      obtain ⟨_, hdigest, h⟩ := ok_bind.mp h
      exact ⟨⟨info, bytes, ok_orError.mp hinfo, ok_require.mp hsize, hbytes, ok_require.mp hdigest⟩, h⟩
    · rintro ⟨⟨info, bytes, hinfo, hsize, hbytes, hdigest⟩, h⟩
      refine ⟨info, ok_orError.mpr hinfo, ok_bind.mpr ⟨(), ok_require.mpr hsize, ok_bind.mpr ⟨bytes, hbytes, ?_⟩⟩⟩
      exact ok_bind.mpr ⟨(), ok_require.mpr hdigest, h⟩

/-- The members of an archive of a version are what is expected exactly when its
inventory is. -/
theorem verifyInventory_ok {infos : List ZipInfo} {files : FileTree} {expected : Expected}
    (hpacks : Packs infos files) (htree : RemoteTree lib files) (hnodup : (expected.map Prod.fst).Nodup) :
    verifyInventory lib zip (named infos files) expected = .ok () ↔
      Std.ExtTreeMap.ofList expected = treeInventory lib files := by
  have hkeys : ((contents lib files).map Prod.fst).Nodup := map_fst_contents lib files ▸ htree.nodup
  rw [treeInventory, Dict.ofList_eq_iff hnodup hkeys, verifyInventory, ok_bind]
  have hmember : ∀ name info, member (named infos files) name = some info → ∀ bytes, info.content = .ok bytes →
      (name, info.fileSize, lib.sha256 bytes) ∈ contents lib files := by
    intro name info hinfo bytes hbytes
    have hname : name ∈ (named infos files).map Prod.fst := by
      by_contra hnone
      rw [member_eq_none.mpr hnone] at hinfo
      cases hinfo
    rw [map_fst_named hpacks] at hname
    obtain ⟨file, hfile, rfl⟩ := List.mem_map.mp hname
    obtain ⟨found, hfound, hstores⟩ := member_named hpacks htree.nodup hfile
    obtain rfl := Option.some.inj (hinfo.symm.trans hfound)
    rw [hstores.content] at hbytes
    obtain rfl := Except.ok.inj hbytes
    rw [hstores.fileSize]
    exact List.mem_map.mpr ⟨file, hfile, rfl⟩
  constructor
  · rintro ⟨_, hnames, hcompare⟩
    have hnames := ok_require.mp hnames
    rw [compareMembers_ok] at hcompare
    have hsubset : ∀ item ∈ expected, item ∈ contents lib files := by
      rintro ⟨name, size, digest⟩ hitem
      obtain ⟨info, bytes, hinfo, hsize, hbytes, hdigest⟩ := hcompare _ hitem
      dsimp only at hinfo hsize hdigest
      rw [← hsize, ← hdigest]
      exact hmember name info hinfo bytes hbytes
    refine fun item => ⟨hsubset item, fun hitem => ?_⟩
    have hname : item.1 ∈ expected.map Prod.fst := by
      refine hnames.1 item.1 ?_
      rw [map_fst_named hpacks, ← map_fst_contents lib]
      exact List.mem_map_of_mem hitem
    obtain ⟨item', hitem', hsame⟩ := List.mem_map.mp hname
    obtain rfl := List.inj_on_of_nodup_map hkeys (hsubset item' hitem') hitem hsame
    exact hitem'
  · intro hsame
    have hnames : expected.map Prod.fst ⊆ files.map Prod.fst ∧ files.map Prod.fst ⊆ expected.map Prod.fst := by
      rw [← map_fst_contents lib]
      exact ⟨List.map_subset _ fun item => (hsame item).mp, List.map_subset _ fun item => (hsame item).mpr⟩
    refine ⟨(), ok_require.mpr ?_, compareMembers_ok.mpr fun item hitem => ?_⟩
    · rw [map_fst_named hpacks]
      exact ⟨fun name hname => hnames.2 hname, fun name hname => hnames.1 hname⟩
    · obtain ⟨file, hfile, rfl⟩ := List.mem_map.mp ((hsame item).mp hitem)
      obtain ⟨info, hinfo, hstores⟩ := member_named hpacks htree.nodup hfile
      exact ⟨info, file.2, hinfo, hstores.fileSize, hstores.content, rfl⟩

/-- A directory without links. -/
structure DatasetDir.Linkless (dir : DatasetDir) : Prop where
  root : dir.isLink = false
  nodes : ∀ path target, (path, Node.symlink target) ∉ dir.nodes

theorem DatasetDir.Linkless.linked {dir : DatasetDir} (h : dir.Linkless) : dir.linked = false := by
  rw [DatasetDir.linked, h.root, Bool.false_or]
  split
  · rename_i target hnode
    obtain ⟨⟨path, node⟩, hfound, rfl⟩ := Option.map_eq_some_iff.mp hnode
    exact absurd (List.mem_of_find?_eq_some hfound) (h.nodes path target)
  · rfl

/-- The files of a version are those that are expected of this directory. -/
def Expects (lib : Library) (zip : ZipReader) (dir : DatasetDir) (files : FileTree) : Prop :=
  ∃ expected, uploadContentInventory lib zip dir (files.map Prod.fst) = .ok expected ∧
    Std.ExtTreeMap.ofList expected = treeInventory lib files

/-- A version that keeps `payload.zip` has nothing else. -/
theorem preserved_ok {infos : List ZipInfo} {files : FileTree} {payload : Bytes} {info : ZipInfo}
    (hpacks : Packs infos files) (htree : RemoteTree lib files)
    (hinfo : member (named infos files) "payload.zip" = some info) :
    (do
      require ((∀ name ∈ (named infos files).map Prod.fst, name = "payload.zip") ∧ info.fileSize = payload.length)
        "payload_inventory_mismatch"
      let bytes ← info.content
      require (lib.sha256 bytes = lib.sha256 payload) "payload_digest_mismatch" : Except Exc Unit) = .ok () ↔
      Std.ExtTreeMap.ofList [("payload.zip", payload.length, lib.sha256 payload)] = treeInventory lib files := by
  have hnamed : "payload.zip" ∈ files.map Prod.fst := by
    rw [← map_fst_named hpacks]
    by_contra hnone
    rw [member_eq_none.mpr hnone] at hinfo
    cases hinfo
  obtain ⟨file, hfile, hname⟩ := List.mem_map.mp hnamed
  obtain ⟨found, hfound, hstores⟩ := member_named hpacks htree.nodup hfile
  rw [hname, hinfo] at hfound
  obtain rfl := Option.some.inj hfound
  have hkeys : ((contents lib files).map Prod.fst).Nodup := map_fst_contents lib files ▸ htree.nodup
  have hitem : ("payload.zip", file.2.length, lib.sha256 file.2) ∈ contents lib files :=
    List.mem_map.mpr ⟨file, hfile, by rw [hname]⟩
  have hone : (([("payload.zip", payload.length, lib.sha256 payload)] : Expected).map Prod.fst).Nodup :=
    List.nodup_singleton _
  rw [treeInventory, Dict.ofList_eq_iff hone hkeys, ok_bind]
  constructor
  · rintro ⟨_, hfirst, h⟩
    obtain ⟨honly, hsize⟩ := ok_require.mp hfirst
    rw [map_fst_named hpacks, ← map_fst_contents lib] at honly
    obtain ⟨bytes, hbytes, hdigest⟩ := ok_bind.mp h
    rw [hstores.content] at hbytes
    obtain rfl := Except.ok.inj hbytes
    rw [← hsize, ← ok_require.mp hdigest, hstores.fileSize]
    intro item
    rw [List.mem_singleton]
    constructor
    · rintro rfl
      exact hitem
    · intro hmem
      exact List.inj_on_of_nodup_map hkeys hmem hitem (honly _ (List.mem_map_of_mem hmem))
  · intro hsame
    have heq := List.mem_singleton.mp ((hsame _).mpr hitem)
    have hlength := congrArg (fun item : String × (ℕ × String) => item.2.1) heq
    have hdigest := congrArg (fun item : String × (ℕ × String) => item.2.2) heq
    dsimp only at hlength hdigest
    have honly : ∀ name ∈ (named infos files).map Prod.fst, name = "payload.zip" := by
      intro name hname
      rw [map_fst_named hpacks, ← map_fst_contents lib] at hname
      obtain ⟨item, hmem, rfl⟩ := List.mem_map.mp hname
      rw [List.mem_singleton.mp ((hsame item).mpr hmem)]
    exact ⟨(), ok_require.mpr ⟨honly, hstores.fileSize.trans hlength⟩,
      ok_bind.mpr ⟨file.2, hstores.content, ok_require.mpr hdigest⟩⟩

theorem uploadContentInventory_loose {dir : DatasetDir} {names : List String} (hdir : dir.Linkless)
    (h : dir.payloadFile = none) : uploadContentInventory lib zip dir names = looseInventory lib dir.nodes [] := by
  simp only [uploadContentInventory, h, (ok_require (u := ())).mpr hdir.linked]
  rfl

theorem uploadContentInventory_payload {dir : DatasetDir} {names : List String} {payload : Bytes}
    (hdir : dir.Linkless) (h : dir.payloadFile = some payload) : uploadContentInventory lib zip dir names =
      if names.contains "payload.zip" then .ok [("payload.zip", payload.length, lib.sha256 payload)]
      else expandedPayloadInventory lib zip payload names := by
  simp only [uploadContentInventory, h, (ok_require (u := ())).mpr hdir.linked]
  rfl

/-- The archive of a version that was uploaded as `payload.zip`. -/
theorem verifyPayloadArchive_ok {dir : DatasetDir} {payload downloaded : Bytes} {infos : List ZipInfo}
    {files : FileTree} (hdir : dir.Linkless) (hfile : dir.payloadFile = some payload)
    (hzip : zip.infolist downloaded = .ok infos) (hpacks : Packs infos files) (htree : RemoteTree lib files) :
    verifyPayloadArchive lib zip payload downloaded = .ok () ↔ Expects lib zip dir files := by
  have hmembers := zipMembers_packs hpacks htree
  rw [Expects, uploadContentInventory_payload hdir hfile]
  rcases hinfo : member (named infos files) "payload.zip" with _ | info
  · have hnone := member_eq_none.mp hinfo
    rw [map_fst_named hpacks] at hnone
    have hrun : verifyPayloadArchive lib zip payload downloaded = (do
        let expected ← expandedPayloadInventory lib zip payload ((named infos files).map Prod.fst)
        verifyInventory lib zip (named infos files) expected) := by
      simp only [verifyPayloadArchive, hzip, hmembers, bind, Except.bind, hinfo]
    rw [if_neg (by simpa using hnone), hrun, ok_bind, map_fst_named hpacks]
    refine exists_congr fun expected => and_congr_right fun hexpected => ?_
    exact verifyInventory_ok hpacks htree (expandedPayloadInventory_nodup hexpected)
  · have hsome : "payload.zip" ∈ files.map Prod.fst := by
      rw [← map_fst_named hpacks]
      by_contra hnone
      rw [member_eq_none.mpr hnone] at hinfo
      cases hinfo
    have hrun : verifyPayloadArchive lib zip payload downloaded = (do
        require ((∀ name ∈ (named infos files).map Prod.fst, name = "payload.zip") ∧ info.fileSize = payload.length)
          "payload_inventory_mismatch"
        let bytes ← info.content
        require (lib.sha256 bytes = lib.sha256 payload) "payload_digest_mismatch") := by
      simp only [verifyPayloadArchive, hzip, hmembers, bind, Except.bind, hinfo]
    rw [if_pos (by simpa using hsome), hrun, preserved_ok hpacks htree hinfo]
    exact ⟨fun h => ⟨_, rfl, h⟩, fun ⟨_, heq, h⟩ => Except.ok.inj heq ▸ h⟩

/-- **The archive** of a version is accepted exactly when its files are those
that are expected. -/
theorem verifyUploadArchive_iff {dir : DatasetDir} {downloaded : Bytes} {infos : List ZipInfo} {files : FileTree}
    (hdir : dir.Linkless) (hzip : zip.infolist downloaded = .ok infos) (hpacks : Packs infos files)
    (htree : RemoteTree lib files) :
    verifyUploadArchive lib zip dir downloaded = .ok () ↔ Expects lib zip dir files := by
  rcases hfile : dir.payloadFile with _ | payload
  · -- loose files
    have hmembers := zipMembers_packs hpacks htree
    have hrun : verifyUploadArchive lib zip dir downloaded = (do
        let expected ← looseInventory lib dir.nodes []
        verifyInventory lib zip (named infos files) expected) := by
      simp only [verifyUploadArchive, hfile, hzip, hmembers, bind, Except.bind]
    rw [Expects, uploadContentInventory_loose hdir hfile, hrun, ok_bind]
    refine exists_congr fun expected => and_congr_right fun hexpected => ?_
    exact verifyInventory_ok hpacks htree (looseInventory_nodup hexpected (by simpa using dir.distinct))
  · have hrun : verifyUploadArchive lib zip dir downloaded = verifyPayloadArchive lib zip payload downloaded := by
      simp only [verifyUploadArchive, hfile]
    rw [hrun]
    exact verifyPayloadArchive_ok hdir hfile hzip hpacks htree

end Payload

end KaggleRelay
