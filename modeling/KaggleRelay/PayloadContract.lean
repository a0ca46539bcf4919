/-
The layouts in which a Dataset may come back.

An uploaded `payload.zip` is kept whole or expanded, and an expanded one keeps
its runtime archives whole or expands them too; loose uploads keep their names.
The functions of the source, over listed archives: what `zipfile` makes of the
bytes of an archive is a parameter, and what `open` streams of a member is part
of the member.

* `zipMembers` — the files of an archive without unsafe members;
* `expandedPayloadInventory`, `uploadContentInventory` — what is expected;
* `verifyUploadArchive` — the archive of a version against it.
-/
import KaggleRelay.Archive
import KaggleRelay.PythonValues
import KaggleRelay.VerificationState

namespace KaggleRelay

open Effects

namespace Payload

/-- `zipfile.ZipInfo`, and what `archive.open(info)` streams. -/
structure ZipInfo where
  filename : String
  origFilename : String
  flagBits : ℕ
  externalAttr : ℕ
  fileSize : ℕ
  content : Except Exc Bytes

/-- `info.is_dir()`. -/
def ZipInfo.isDir (info : ZipInfo) : Bool := info.filename.toList.getLast? == some '/'

/-- `info.filename.rstrip("/")`. -/
def ZipInfo.name (info : ZipInfo) : String := Text.stripSets [] ['/'] info.filename

/-- `stat.S_IFMT(info.external_attr >> 16)`. -/
def ZipInfo.format (info : ZipInfo) : ℕ := info.externalAttr >>> 16 &&& 0o170000

/-- What Python's library does with archives and with the texts of an error. -/
structure ZipReader where
  /-- `zipfile.ZipFile(...).infolist()` on the bytes of a file. -/
  infolist : Bytes → Except Exc (List ZipInfo)
  /-- `repr` of a list of texts. -/
  repr : List String → String

/-- A dict of members, in the order in which they were added. -/
abbrev Members := List (String × ZipInfo)

/-- A dict of sizes and digests, in that order. -/
abbrev Expected := List (String × (ℕ × String))

variable (lib : Library) (zip : ZipReader)

/-! ### Members -/

/-- The member is refused; `seen` are the casefolded names before it. -/
def unsafeMember (info : ZipInfo) (seen : List String) : Bool :=
  info.name == "" || info.filename != info.origFilename || Text.isIn "\\" info.name ||
    Text.isIn ":" info.name || (Text.split info.name '/').any (fun p => p == "" || p == "." || p == "..") ||
    info.flagBits % 2 == 1 || !(info.format == 0 || info.format == 0o100000 || info.format == 0o040000) ||
    (!info.isDir && info.format == 0o040000) || seen.contains (lib.casefold info.name)

/-- The first loop of `zip_members`. -/
def collectMembers : List ZipInfo → List String → Members → Except Exc Members
  | [], _, files => .ok files
  | info :: infos, seen, files =>
    if unsafeMember lib info seen then .error (.valueError "payload_unsafe_member")
    else collectMembers infos (lib.casefold info.name :: seen)
      (if info.isDir then files else files ++ [(info.name, info)])

/-- `"/".join(parts[:i])` for every `i` from 1 to the last part. -/
def parents (name : String) : List String :=
  let parts := Text.split name '/'
  (List.range (parts.length - 1)).map fun i => "/".intercalate (parts.take (i + 1))

/-- `zip_members`. -/
def zipMembers (infos : List ZipInfo) : Except Exc Members := do
  let files ← collectMembers lib infos [] []
  require (files.all fun file => !(parents file.1).any fun parent => (files.map Prod.fst).contains parent)
    "payload_path_conflict"
  return files

/-- The member of a name. -/
def member (files : Members) (name : String) : Option ZipInfo := (files.find? (·.1 == name)).map (·.2)

/-- `_archive_inventory`. -/
def archiveInventory (members : Members) : Except Exc Expected :=
  members.mapM fun (name, info) => do
    let bytes ← info.content
    return (name, info.fileSize, lib.sha256 bytes)

/-! ### What is expected -/

def runtimePath : String := "model_source/kaggle_runtime/runtime.zip"

def maxRuntimeBytes : ℕ := 4 * 1024 * 1024

/-- The runtime archives, and how many files each may hold. -/
def runtimes : List (String × ℕ) := [(runtimePath, 32), ("model_source/p6_runtime/runtime.zip", 128)]

/-- `runtime_path[:-4] + "/"`. -/
def runtimeFolder (path : String) : String := String.ofList (path.toList.take (path.toList.length - 4)) ++ "/"

/-- The expanded files of a runtime archive take its place. -/
def addExpanded (folder : String) : Expected → Expected → Except Exc Expected
  | [], expected => .ok expected
  | (name, value) :: rest, expected => do
    require (¬(expected.map Prod.fst).contains (folder ++ name)) "payload_path_conflict"
    addExpanded folder rest (expected ++ [(folder ++ name, value)])

/-- One turn of the loop over the runtime archives. -/
def expandRuntime (members : Members) (actualNames : List String) (path : String) (maxFiles : ℕ)
    (expected : Expected) : Except Exc Expected :=
  match member members path with
  | none => .ok expected
  | some runtime =>
    if actualNames.contains path then .ok expected
    else do
      require (runtime.fileSize ≤ maxRuntimeBytes) "runtime_expansion_limit"
      let bytes ← runtime.content
      let package ← zip.infolist bytes
      let sources ← zipMembers lib package
      require (¬(sources.length > maxFiles ∨ (sources.map (·.2.fileSize)).sum > maxRuntimeBytes))
        "runtime_expansion_limit"
      let expanded ← archiveInventory lib sources
      addExpanded (runtimeFolder path) expanded (expected.filter (·.1 != path))

/-- The loop over the runtime archives. -/
def expandRuntimes (members : Members) (actualNames : List String) :
    List (String × ℕ) → Expected → Except Exc Expected
  | [], expected => .ok expected
  | (path, maxFiles) :: rest, expected => do
    let expected ← expandRuntime lib zip members actualNames path maxFiles expected
    expandRuntimes members actualNames rest expected

/-- `_expanded_payload_inventory`. -/
def expandedPayloadInventory (payload : Bytes) (actualNames : List String) : Except Exc Expected := do
  let original ← zip.infolist payload
  let members ← zipMembers lib original
  let expected ← archiveInventory lib members
  expandRuntimes lib zip members actualNames runtimes expected

/-- What is at a path below the Dataset's directory. -/
inductive Node where
  | file (content : Bytes)
  | directory
  /-- A link, with the content of the file it leads to, if it leads to one. -/
  | symlink (target : Option Bytes)

/-- The extracted directory of a Dataset. -/
structure DatasetDir where
  isLink : Bool
  /-- What `root.rglob("*")` yields, as POSIX paths from the root. -/
  nodes : List (String × Node)
  distinct : (nodes.map Prod.fst).Nodup

namespace DatasetDir

variable (dir : DatasetDir)

/-- What is at `root / "payload.zip"`. -/
def payload : Option Node := (dir.nodes.find? (·.1 == "payload.zip")).map (·.2)

/-- The file at `root / "payload.zip"`, if `is_file()`. -/
def payloadFile : Option Bytes :=
  match dir.payload with
  | some (.file content) => some content
  | some (.symlink target) => target
  | _ => none

/-- `payload.is_symlink() or root.is_symlink()`. -/
def linked : Bool :=
  dir.isLink || match dir.payload with
    | some (.symlink _) => true
    | _ => false

end DatasetDir

/-- `path.name`. -/
def baseName (path : String) : String := (Text.split path '/').getLastD ""

/-- The loop over `root.rglob("*")`. -/
def looseInventory : List (String × Node) → Expected → Except Exc Expected
  | [], expected => .ok expected
  | (path, node) :: rest, expected =>
    match node with
    | .symlink _ => .error (.valueError "payload_unsafe_member")
    | .directory => looseInventory rest expected
    | .file content =>
      if baseName path = "dataset-metadata.json" then looseInventory rest expected
      else looseInventory rest (expected ++ [(path, content.length, lib.sha256 content)])

/-- `upload_content_inventory`. -/
def uploadContentInventory (dir : DatasetDir) (actualNames : List String) : Except Exc Expected := do
  require (dir.linked = false) "payload_unsafe_member"
  match dir.payloadFile with
  | some payload =>
    if actualNames.contains "payload.zip" then
      return [("payload.zip", payload.length, lib.sha256 payload)]
    else expandedPayloadInventory lib zip payload actualNames
  | none => looseInventory lib dir.nodes []

/-! ### The archive of a version -/

/-- `sorted(set(names) - set(others))[:3]`. -/
def sample (names others : List String) : List String :=
  ((names.filter (!others.contains ·)).mergeSort (· ≤ ·)).take 3

/-- The loop of `_verify_inventory` over what is expected. -/
def compareMembers (actual : Members) : Expected → Except Exc Unit
  | [] => .ok ()
  | (name, size, digest) :: rest => do
    let info ← orError (member actual name) ⟨.other, name⟩
    require (info.fileSize = size) "payload_size_mismatch"
    let bytes ← info.content
    require (lib.sha256 bytes = digest) "payload_digest_mismatch"
    compareMembers actual rest

/-- `_verify_inventory`. -/
def verifyInventory (actual : Members) (expected : Expected) : Except Exc Unit := do
  let names := actual.map Prod.fst
  let wanted := expected.map Prod.fst
  require ((∀ name ∈ names, name ∈ wanted) ∧ ∀ name ∈ wanted, name ∈ names)
    ("payload_inventory_mismatch: missing=" ++ zip.repr (sample wanted names) ++ ", unexpected=" ++
      zip.repr (sample names wanted))
  compareMembers lib actual expected

/-- `verify_payload_archive`. -/
def verifyPayloadArchive (payload downloaded : Bytes) : Except Exc Unit := do
  let remote ← zip.infolist downloaded
  let actual ← zipMembers lib remote
  match member actual "payload.zip" with
  | some info => do
    require ((∀ name ∈ actual.map Prod.fst, name = "payload.zip") ∧ info.fileSize = payload.length)
      "payload_inventory_mismatch"
    let bytes ← info.content
    require (lib.sha256 bytes = lib.sha256 payload) "payload_digest_mismatch"
  | none => do
    let expected ← expandedPayloadInventory lib zip payload (actual.map Prod.fst)
    verifyInventory lib zip actual expected

/-- `verify_upload_archive`. -/
def verifyUploadArchive (dir : DatasetDir) (downloaded : Bytes) : Except Exc Unit := do
  match dir.payloadFile with
  | some payload => verifyPayloadArchive lib zip payload downloaded
  | none => do
    let expected ← looseInventory lib dir.nodes []
    let remote ← zip.infolist downloaded
    let actual ← zipMembers lib remote
    verifyInventory lib zip actual expected

end Payload

end KaggleRelay
