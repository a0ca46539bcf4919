/-
The result of a P6 run.

A result is a directory with a manifest of its files.  What is accepted is
assembled from the manifest and the documents it lists: the training result,
the deployment manifest and the list of references each bind files of their
own, and every file has to be bound.

* `readJson`, `plain`, `inventory`, `validateResult` — the functions of the
  source;
* `checkHeader`, `checkTraining`, `checkDeployment`, … — what is asked of each
  document;
* `looking_validateResult` — validation only looks at the files, and ends.
-/
import KaggleRelay.DinoTransport
import KaggleRelay.PythonValues
import KaggleRelay.Regex

namespace KaggleRelay

open Effects JsonText

namespace P6

open Packager

/-! ### Constants -/

/-- An entry of `FORMATS`. -/
structure Version where
  contract : String
  deploymentFormat : String
  taskFormat : String
  deriving DecidableEq

def contractV1 : String := "patchcore_dinov2_251_onnx_v1"

def contractV2 : String := "patchcore_dinov2_251_onnx_v2"

/-- `FORMATS`. -/
def formats : List (String × Version) :=
  [("dino_cloud_result_p6_v1",
      ⟨contractV1, "dino_onnx_deployment_p6_v1", "dino_cloud_task_p6_v1"⟩),
    ("dino_cloud_result_p6_v2",
      ⟨contractV2, "dino_onnx_deployment_p6_v2", "dino_cloud_task_p6_v2"⟩)]

/-- `MANIFEST`. -/
def manifestName : String := "result_manifest.json"

/-- `TRAINING_FILES`. -/
def trainingFiles : List String :=
  ["training/model.ckpt", "training/threshold.json", "training/metrics.json",
    "training/runtime_result.json"]

/-- `DEPLOYMENT_FILES`. -/
def deploymentFiles : List String :=
  ["deployment/deployment.json", "deployment/model.onnx", "deployment/threshold.json",
    "deployment/verification_report.json", "deployment/runtime_requirements.txt",
    "deployment/README_deployment.md"]

section Patterns

open Regex

/-- `[a-zA-Z0-9_-]`. -/
def isNameChar (c : Char) : Bool :=
  (97 ≤ c.toNat && c.toNat ≤ 122) || (65 ≤ c.toNat && c.toNat ≤ 90) ||
    (48 ≤ c.toNat && c.toNat ≤ 57) || c == '_' || c == '-'

/-- `[a-zA-Z0-9_-]+`. -/
def namePattern : Regex := .chars isNameChar 1 none

/-- `[/\\]`. -/
def anySlash : Regex := one fun c => c == '/' || c == '\\'

/-- The first alternative that leads to a match. -/
def firstOf : List Regex → Regex
  | [] => .empty
  | [r] => r
  | r :: rs => .alt r (firstOf rs)

/-- The pattern of the reports. -/
def reportPattern : Regex := cat [lit "reports/", namePattern, lit ".json"]

/-- `DOWNLOAD_PATTERN`. -/
def downloadPattern : Regex :=
  cat [lit "p6_result", anySlash, firstOf [
    lit "result_manifest.json",
    cat [lit "training", anySlash,
      firstOf [lit "model.ckpt", lit "threshold.json", lit "metrics.json",
        lit "runtime_result.json"]],
    cat [lit "reports", anySlash, namePattern, lit ".json"],
    cat [lit "validation", anySlash,
      firstOf [lit "reference.json",
        cat [lit "reference", anySlash, namePattern, lit ".", firstOf [lit "npz", lit "npy"]]]],
    cat [lit "deployment", anySlash,
      firstOf [lit "deployment.json", lit "training_candidate_threshold.json",
        lit "threshold.json", lit "verification_report.json", lit "runtime_requirements.txt",
        lit "README_deployment.md",
        cat [lit "model.onnx",
          firstOf [cat [lit ".data",
              firstOf [cat [lit ".", .chars (fun c => 48 ≤ c.toNat && c.toNat ≤ 57) 1 none],
                .empty]],
            .empty]]]]]]

end Patterns

/-! ### Files -/

/-- A name that is no path below the result: empty, with a drive or a
backslash, or with a segment that is empty, a dot segment, or ends with a
space or a dot. -/
def unsafePath (name : String) : Bool :=
  name == "" || name.toList.contains ':' || name.toList.contains '\\' ||
    (Text.split name '/').any fun part =>
      part == "" || part == "." || part == ".." ||
        part.toList.getLast? == some ' ' || part.toList.getLast? == some '.'

/-- `plain`. -/
def plain (name : String) : Packager Unit := do
  Eff.raiseIf (unsafePath name = true) (.valueError "unsafe P6 relative path")
  let link ← linked name
  Eff.raiseIf (link = true) (.valueError "P6 links/reparse points forbidden")
  let file ← isFile name
  Eff.raiseIf (file = false) (.valueError ("missing P6 regular file: " ++ name))

/-- A JSON object, with what `json.loads` raises. -/
def parseObject (reader : Reader) (raw : Bytes) : Except Exc Json :=
  match reader.loads raw with
  | some (.obj fields) => .ok (.obj fields)
  | some _ => .error (.valueError "P6 JSON object required")
  | none => .error (.valueError "invalid P6 JSON")

/-- `read_json`. -/
def readJson (reader : Reader) (name : String) : Packager Json := do
  let size ← statSize name
  Eff.raiseIf (16 * 1024 ^ 2 < size) (.valueError "P6 JSON budget exceeded")
  let raw ← readBytes name
  Eff.lift (parseObject reader raw)

/-- `read_json(plain(root, name))`. -/
def readPlain (reader : Reader) (name : String) : Packager Json := do
  plain name
  readJson reader name

/-- An entry of the inventory; a path that is no text is an unsafe one. -/
def entry : Json → Except Exc FileRow
  | .obj fields =>
    match getField fields "path", getField fields "size", getField fields "sha256" with
    | some path, some (.int size), some (.str sha256) =>
      if fields.length = 3 ∧ 1 ≤ size ∧ isSha256Hex sha256 then
        match path with
        | .str path => .ok ⟨path, size.toNat, sha256⟩
        | _ => .error (.valueError "unsafe P6 relative path")
      else .error (.valueError "invalid P6 file entry")
    | _, _, _ => .error (.valueError "invalid P6 file entry")
  | _ => .error (.valueError "invalid P6 file entry")

section Inventory

variable (lib : Library) (maxBytes : ℕ)

/-- The checks of one file: `seen` are the names before it, `total` is their
size. -/
def inventoryRow (seen : List String) (total : ℕ) (row : FileRow) : Packager Unit := do
  plain row.path
  Eff.raiseIf (lib.casefold row.path ∈ seen) (.valueError "duplicate P6 file")
  Eff.raiseIf (maxBytes < total + row.size) (.valueError "P6 file budget/content mismatch")
  let size ← statSize row.path
  Eff.raiseIf (size ≠ row.size) (.valueError "P6 file budget/content mismatch")
  let bytes ← readBytes row.path
  Eff.raiseIf (lib.sha256 bytes ≠ row.sha256) (.valueError "P6 file budget/content mismatch")

/-- The loop of `inventory`. -/
def inventoryRows : List String → ℕ → List Json → Packager (List FileRow)
  | _, _, [] => pure []
  | seen, total, item :: items => do
    let row ← Eff.lift (entry item)
    inventoryRow lib maxBytes seen total row
    let rows ← inventoryRows (lib.casefold row.path :: seen) (total + row.size) items
    pure (row :: rows)

/-- The list of a manifest, if it is neither empty nor too long. -/
def fileList : Json → Except Exc (List Json)
  | .arr items =>
    if 1 ≤ items.length ∧ items.length ≤ 100000 then .ok items
    else .error (.valueError "P6 file count budget exceeded")
  | _ => .error (.valueError "P6 file count budget exceeded")

/-- `inventory`. -/
def inventory (files : Json) : Packager (List FileRow) := do
  let items ← Eff.lift (fileList files)
  inventoryRows lib maxBytes [] 0 items

end Inventory

/-! ### Documents -/

/-- `FORMATS.get(format)`. -/
def formatOf : Json → Except Exc (Option Version)
  | .str s => .ok (formats.lookup s)
  | x => do
    let _ ← x.hashed
    pure none

/-- What the job froze, and the limits. -/
structure Expected where
  identity : Dino.ExpectedIdentity
  taskSha256 : String
  contract : Option String
  maxBytes : ℕ

section Checks

variable (lib : Library) (reader : Reader) (expected : Expected)

/-- `document.get(field, {}).get(k) == expected_identity[k]` for the keys. -/
def sameIdentity (field message : String) (document : Json) (identity : JsonObject) :
    List String → Except Exc Unit
  | [] => .ok ()
  | key :: keys => do
    let value := (getField identity key).getD .null
    require (reader.truthy value = true) message
    let actual ← (← document.getOrEmpty field).get key
    require (reader.pyEq actual value = true) message
    sameIdentity field message document identity keys

/-- The checks of the manifest before its files. -/
def checkHeader (document : Json) : Except Exc (Version × JsonObject) := do
  let unsupported := "unsupported P6 result contract"
  let versions ← formatOf (← document.get "format")
  let version ← orError versions (.valueError unsupported)
  let contract ← document.get "artifact_contract"
  let training ← document.get "training_status"
  let windows ← document.get "windows_status"
  require (contract.isStr version.contract ∧ (∀ c ∈ expected.contract, version.contract = c) ∧
    training.isStr "PASS" ∧ windows.isStr "PENDING") unsupported
  require (isSha256Hex expected.taskSha256 = true) "trusted frozen task digest required"
  let task ← document.get "task_sha256"
  require (task.isStr expected.taskSha256 = true) "P6 task mismatch"
  let identity ← orError expected.identity (.valueError "P6 frozen identity mismatch")
  sameIdentity reader "identity" "P6 frozen identity mismatch" document identity
    Dino.identityFields
  pure (version, identity)

/-- The paths of the rows. -/
def paths (rows : List FileRow) : List String := rows.map FileRow.path

/-- The dict of a row. -/
def rowJson (row : FileRow) : Json :=
  .obj [("path", .str row.path), ("size", .int row.size), ("sha256", .str row.sha256)]

/-- `rows.get(folder + row['path']) != {**row, 'path': folder + row['path']}`,
and the path. -/
def boundPath (rows : List FileRow) (folder message : String) (item : Json) :
    Except Exc String := do
  let path ← (← item.item "path").text
  match item, rows.find? (·.path == folder ++ path) with
  | .obj fields, some row =>
    require (reader.pyEq (rowJson row) (.obj (setField fields "path" (.str (folder ++ path)))) = true)
      message
    pure (folder ++ path)
  | _, _ => .error (.valueError message)

/-- The loop over the rows a document binds. -/
def boundPaths (rows : List FileRow) (folder message : String) :
    List Json → Except Exc (List String)
  | [] => .ok []
  | item :: items => do
    let path ← boundPath reader rows folder message item
    let more ← boundPaths rows folder message items
    pure (path :: more)

/-- The files of the training subpackage. -/
def subpackageNames : List String := ["model.ckpt", "threshold.json", "metrics.json"]

/-- The checks of `training/runtime_result.json`; the files it binds. -/
def checkTraining (rows : List FileRow) (identity : JsonObject) (training : Json) :
    Except Exc (List String) := do
  let format ← training.get "format"
  let status ← training.get "training_status"
  require (format.isStr "vision_workshop_dinov2_251_training_stage_v1" ∧ status.isStr "completed")
    "invalid P6 training stage"
  sameIdentity reader "run_identity" "P6 training identity mismatch" training identity
    Dino.identityFields
  let items ← (← training.getOrList "files").iter
  let names ← items.mapM fun item => item.get "path" >>= Json.hashed
  require ((∀ name ∈ names, subpackageNames.any (name.isStr ·)) ∧
    ∀ name ∈ subpackageNames, names.any (·.isStr name)) "P6 training subpackage incomplete"
  boundPaths reader rows "training/" "P6 training subpackage inventory mismatch" items

/-- The checks of `training/threshold.json`. -/
def checkThreshold (rows : List FileRow) (threshold : Json) : Except Exc Unit := do
  let value ← threshold.get "threshold"
  let finite ← reader.isFinite value
  let model ← threshold.get "model_sha256"
  let kind ← threshold.get "score_kind"
  let rule ← threshold.get "decision_rule"
  let owner ← threshold.get "calibration_owner"
  require (finite = true ∧
    (rows.find? (·.path == "training/model.ckpt")).any (model.isStr ·.sha256) ∧
    kind.isStr "patchcore_dinov2_l2_nnmax_raw_v1" ∧ rule.isStr "score_gte_threshold" ∧
    owner.isStr "training") "P6 training threshold binding mismatch"

/-- The statuses of an export. -/
def statuses : List String := ["PASS", "FAIL", "TIMEOUT", "CANCELED", "NOT_RUN"]

/-- `onnx_status`, once there is a report. -/
def checkStatus (rows : List FileRow) (document : Json) : Except Exc String := do
  let status ← document.get "onnx_status" >>= Json.hashed
  let status ← orError (statuses.find? (status.isStr ·)) (.valueError "invalid P6 format status")
  require ((paths rows).any (Text.startswith · "reports/") = true) "P6 stage report required"
  pure status

/-- The rows the deployment manifest binds. -/
def boundRows (version : Version) (deployment : Json) : Except Exc (List Json) := do
  let graph ← (← (← deployment.item "graph").item "files").list
  let threshold ← deployment.item "threshold_file"
  let report ← deployment.item "verification_report"
  let support ← (← deployment.item "support_files").list
  if version.contract = contractV2 then
    let candidate ← deployment.item "training_candidate_file"
    pure (graph ++ [threshold, report] ++ support ++ [candidate])
  else pure (graph ++ [threshold, report] ++ support)

/-- The checks of the deployment manifest; the rows it binds. -/
def checkDeployment (version : Version) (deployment : Json) : Except Exc (List Json) := do
  let mismatch := "P6 deployment source/qualification mismatch"
  let format ← deployment.get "format"
  require (format.isStr version.deploymentFormat = true) mismatch
  let taskFormat ← (← deployment.getOrEmpty "task_contract").get "format"
  let task ← deployment.get "task_sha256"
  require (taskFormat.isStr version.taskFormat ∧ task.isStr expected.taskSha256) mismatch
  let hash ← reader.canonicalHash lib (← deployment.get "task_contract")
  let cloud ← deployment.get "cloud_qualification"
  let windows ← deployment.get "windows_qualification"
  require (hash = expected.taskSha256 ∧ cloud.isStr "PASS" ∧ windows.isStr "PENDING") mismatch
  boundRows version deployment

/-- The checks of `deployment/threshold.json` in the second version. -/
def checkCalibration (deployment calibration : Json) : Except Exc Unit := do
  let mismatch := "P6 v2 deployment calibration binding mismatch"
  let format ← calibration.get "format"
  let state ← deployment.get "deployment_calibration_state"
  let task ← calibration.get "task_sha256"
  require (format.isStr "dino_onnx_rgb_calibration_p6_v2" ∧ state.isStr "FROZEN" ∧
    task.isStr expected.taskSha256) mismatch
  let graph ← calibration.get "graph_files"
  let files ← (← deployment.item "graph").item "files"
  require (reader.pyEq graph files = true) mismatch
  let scope ← (← calibration.getOrEmpty "environment").get "scope"
  require (scope.isStr "linux_cloud" = true) mismatch
  let value ← calibration.get "threshold"
  require (reader.pyEq value (← deployment.item "threshold") = true) mismatch

/-- The rows an item of the reference list binds. -/
def referenceKeys (version : Version) : List String :=
  if version.contract = contractV2 then ["reference", "deployment_reference"] else ["reference"]

/-- The inner loop over the reference list. -/
def itemPaths (rows : List FileRow) (item : Json) : List String → Except Exc (List String)
  | [] => .ok []
  | key :: keys => do
    let path ← boundPath reader rows "validation/" "P6 validation reference file mismatch"
      (← item.item key)
    let more ← itemPaths rows item keys
    pure (path :: more)

/-- The loop over the reference list. -/
def referencePaths (rows : List FileRow) (version : Version) :
    List Json → Except Exc (List String)
  | [] => .ok []
  | item :: items => do
    let paths ← itemPaths reader rows item (referenceKeys version)
    let more ← referencePaths rows version items
    pure (paths ++ more)

/-- The calibration a reference list of the second version was made with. -/
def checkReferenceDigest (version : Version) (deployment reference : Json) : Except Exc Unit :=
  if version.contract = contractV2 then do
    let digest ← reference.get "deployment_calibration_sha256"
    require (reader.pyEq digest (← (← deployment.item "threshold_file").item "sha256") = true)
      "P6 v2 deployment reference calibration mismatch"
  else pure ()

/-- The checks of the reference list; the files it binds. -/
def checkReference (rows : List FileRow) (version : Version) (deployment reference : Json) :
    Except Exc (List String) := do
  let differs := "P6 training reference differs from deployment"
  require (reader.pyEq (← reference.item "graph") (← deployment.item "graph") = true) differs
  require (reader.pyEq (← reference.item "threshold") (← deployment.item "threshold") = true) differs
  checkReferenceDigest reader version deployment reference
  referencePaths reader rows version (← (← reference.item "items").iter)

/-- The last check. -/
def checkClosed (rows : List FileRow) (allowed : List String) : Except Exc Unit :=
  require ((∀ path ∈ paths rows, path ∈ allowed) ∧ (∀ path ∈ allowed, path ∈ paths rows) ∧
      ∀ path ∈ paths rows, (downloadPattern.fullmatch ("p6_result/" ++ path)).isSome)
    "P6 undeclared/disallowed file"

/-! ### Validation -/

/-- What validation reports; the last two fields are set by the packaging. -/
structure Receipt where
  format : String
  identity : List (String × Json)
  taskSha256 : String
  resultManifestSha256 : String
  fileSetSha256 : Json
  deploymentManifestSha256 : String
  onnxStatus : String
  archiveSha256 : Option String
  archiveSize : Option ℕ

/-- The calibration of a deployment of the second version. -/
def validateCalibration (version : Version) (deployment : Json) : Packager Unit :=
  if version.contract = contractV2 then do
    let calibration ← readPlain reader "deployment/threshold.json"
    Eff.lift (checkCalibration reader expected deployment calibration)
  else pure ()

/-- The files that a passed export allows besides, and the digest of its
manifest. -/
def validateDeployment (version : Version) (rows : List FileRow) :
    Packager (List String × String) := do
  Eff.lift (require (∀ path ∈ deploymentFiles, path ∈ paths rows) "P6 deployment incomplete")
  let deployment ← readPlain reader "deployment/deployment.json"
  let bound ← Eff.lift (checkDeployment lib reader expected version deployment)
  validateCalibration reader expected version deployment
  let files ← Eff.lift
    (boundPaths reader rows "deployment/" "P6 deployment file binding mismatch" bound)
  let reference ← readPlain reader "validation/reference.json"
  let references ← Eff.lift (checkReference reader rows version deployment reference)
  let digest := (rows.find? (·.path == "deployment/deployment.json")).elim "" FileRow.sha256
  pure (files ++ ["deployment/deployment.json", "validation/reference.json"] ++ references, digest)

/-- What the status of the export allows. -/
def validateExport (version : Version) (rows : List FileRow) (status : String) :
    Packager (List String × String) :=
  if status = "PASS" then validateDeployment lib reader expected version rows else pure ([], "")

/-- `validate_result`. -/
def validateResult : Packager Receipt := do
  let document ← readPlain reader manifestName
  let (version, identity) ← Eff.lift (checkHeader reader expected document)
  let files ← Eff.lift (document.item "files")
  let rows ← inventory lib expected.maxBytes files
  let fileSet ← Eff.lift (document.get "file_set_sha256")
  let hash ← Eff.lift (reader.canonicalHash lib files)
  Eff.lift (require (fileSet.isStr hash ∧ ∀ path ∈ trainingFiles, path ∈ paths rows)
    "P6 training inventory incomplete")
  let training ← readPlain reader "training/runtime_result.json"
  let _ ← Eff.lift (checkTraining reader rows identity training)
  let threshold ← readPlain reader "training/threshold.json"
  Eff.lift (checkThreshold reader rows threshold)
  let status ← Eff.lift (checkStatus rows document)
  let reports := (paths rows).filter fun path => (reportPattern.fullmatch path).isSome
  let (allowed, digest) ← validateExport lib reader expected version rows status
  Eff.lift (checkClosed rows (trainingFiles ++ reports ++ allowed))
  let manifest ← readBytes manifestName
  pure {
    format := if version.contract = contractV2 then "dino_p6_verified_receipt_v2"
      else "dino_p6_verified_receipt_v1"
    identity := Dino.identityFields.map fun key => (key, (getField identity key).getD .null)
    taskSha256 := expected.taskSha256
    resultManifestSha256 := lib.sha256 manifest
    fileSetSha256 := fileSet
    deploymentManifestSha256 := digest
    onnxStatus := status
    archiveSha256 := none
    archiveSize := none }

end Checks

/-! ### What validation does -/

section Programs

open Packaging

variable {lib : Library} {reader : Reader} {expected : Expected}

/-- A program of looks at the files. -/
abbrev Looking {α : Type} (p : Packager α) : Prop := Bounded Looks p

theorem looking_plain (name : String) : Looking (plain name) := by
  refine Bounded.seq ⟨trivial, trivial⟩ fun _ => ?_
  refine Bounded.seq ⟨Uses.perform trivial, Ends.perform _⟩ fun _ => ?_
  refine Bounded.seq ⟨trivial, trivial⟩ fun _ => ?_
  exact Bounded.seq ⟨Uses.perform trivial, Ends.perform _⟩ fun _ => ⟨trivial, trivial⟩

theorem looking_readJson (name : String) : Looking (readJson reader name) := by
  refine Bounded.seq ⟨Uses.perform trivial, Ends.perform _⟩ fun _ => ?_
  refine Bounded.seq ⟨trivial, trivial⟩ fun _ => ?_
  exact Bounded.seq ⟨Uses.perform trivial, Ends.perform _⟩ fun _ => ⟨trivial, trivial⟩

theorem looking_readPlain (name : String) : Looking (readPlain reader name) :=
  Bounded.seq (looking_plain name) fun _ => looking_readJson name

theorem looking_inventoryRow (maxBytes : ℕ) (seen : List String) (total : ℕ) (row : FileRow) :
    Looking (inventoryRow lib maxBytes seen total row) := by
  refine Bounded.seq (looking_plain row.path) fun _ => ?_
  refine Bounded.seq ⟨trivial, trivial⟩ fun _ => Bounded.seq ⟨trivial, trivial⟩ fun _ => ?_
  refine Bounded.seq ⟨Uses.perform trivial, Ends.perform _⟩ fun _ => ?_
  refine Bounded.seq ⟨trivial, trivial⟩ fun _ => ?_
  exact Bounded.seq ⟨Uses.perform trivial, Ends.perform _⟩ fun _ => ⟨trivial, trivial⟩

theorem looking_inventoryRows (maxBytes : ℕ) (seen : List String) (total : ℕ) (items : List Json) :
    Looking (inventoryRows lib maxBytes seen total items) := by
  induction items generalizing seen total with
  | nil => exact ⟨trivial, trivial⟩
  | cons item items ih =>
    refine Bounded.seq ⟨trivial, trivial⟩ fun row => ?_
    refine Bounded.seq (looking_inventoryRow maxBytes seen total row) fun _ => ?_
    exact Bounded.seq (ih _ _) fun _ => ⟨trivial, trivial⟩

theorem looking_inventory (maxBytes : ℕ) (files : Json) : Looking (inventory lib maxBytes files) :=
  Bounded.seq ⟨trivial, trivial⟩ fun items => looking_inventoryRows maxBytes [] 0 items

theorem looking_validateDeployment (version : Version) (rows : List FileRow) :
    Looking (validateDeployment lib reader expected version rows) := by
  refine Bounded.seq ⟨trivial, trivial⟩ fun _ => ?_
  refine Bounded.seq (looking_readPlain _) fun deployment => ?_
  refine Bounded.seq ⟨trivial, trivial⟩ fun bound => Bounded.seq ?_ fun _ => ?_
  · unfold validateCalibration
    split
    · exact Bounded.seq (looking_readPlain _) fun _ => ⟨trivial, trivial⟩
    · exact ⟨trivial, trivial⟩
  refine Bounded.seq ⟨trivial, trivial⟩ fun _ => ?_
  refine Bounded.seq (looking_readPlain _) fun _ => ?_
  exact Bounded.seq ⟨trivial, trivial⟩ fun _ => ⟨trivial, trivial⟩

theorem looking_validateExport (version : Version) (rows : List FileRow) (status : String) :
    Looking (validateExport lib reader expected version rows status) := by
  unfold validateExport
  split
  · exact looking_validateDeployment version rows
  · exact ⟨trivial, trivial⟩

theorem looking_validateResult : Looking (validateResult lib reader expected) := by
  refine Bounded.seq (looking_readPlain _) fun document => ?_
  refine Bounded.seq ⟨trivial, trivial⟩ fun header => ?_
  refine Bounded.seq ⟨trivial, trivial⟩ fun files => ?_
  refine Bounded.seq (looking_inventory _ _) fun rows => ?_
  refine Bounded.seq ⟨trivial, trivial⟩ fun _ => Bounded.seq ⟨trivial, trivial⟩ fun _ => ?_
  refine Bounded.seq ⟨trivial, trivial⟩ fun _ => ?_
  refine Bounded.seq (looking_readPlain _) fun _ => Bounded.seq ⟨trivial, trivial⟩ fun _ => ?_
  refine Bounded.seq (looking_readPlain _) fun _ => Bounded.seq ⟨trivial, trivial⟩ fun _ => ?_
  refine Bounded.seq ⟨trivial, trivial⟩ fun status => ?_
  refine Bounded.seq (looking_validateExport _ _ status) fun allowed => ?_
  refine Bounded.seq ⟨trivial, trivial⟩ fun _ => ?_
  refine Bounded.seq ⟨Uses.perform trivial, Ends.perform _⟩ fun manifest => ?_
  exact ⟨trivial, trivial⟩

end Programs

end P6

end KaggleRelay
