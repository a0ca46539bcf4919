/-
The optional CNN ONNX package of a PatchCore run.

The output of a run is a directory; the training artifacts lie at its top, and
ONNX packages below `cnn_onnx`.  A package is checked against its own manifest
and against the source the run itself names.

* `sourceFromRun`, `inventory`, `validatePackage` — the functions of the
  source;
* `packageArtifacts` — what is checked before the directory is packed as a
  whole;
* `packagingOptions`, `publishArtifacts` — how a job asks for it.
-/
import KaggleRelay.P6Accepted

namespace KaggleRelay

open JsonText

namespace Cnn

/-- A path below the output directory, by its parts. -/
abbrev Path := List String

/-- `path.as_posix()`. -/
def posix : Path → String
  | [] => "."
  | [part] => part
  | part :: rest => part ++ "/" ++ posix rest

/-- The output of a run, as it lies there. -/
structure OutputDir where
  /-- `sorted(output_dir.rglob("*"))`. -/
  paths : List Path
  /-- The bytes of a file, or of the file a link leads to; `none` for what is
  no file. -/
  file : Path → Option Bytes
  /-- The path or a directory on it is a link. -/
  linked : Path → Bool

/-- `PROFILE`. -/
def profile : String := "cnn_fp32_features_fp64_full_l2_cpu_basic_v1"

/-- `PARAMETERS`. -/
def parameters : List String :=
  ["backbone", "layers", "coreset_sampling_ratio", "num_neighbors", "pre_trained", "image_size"]

/-- `IDENTITY`. -/
def identityFields : List String :=
  ["dataset_id", "identity_sha256", "run_id", "run_identity_sha256"]

/-! ### Files -/

namespace OutputDir

variable (D : OutputDir)

/-- `plain`. -/
def plain (path : Path) : Except Exc Unit := require (D.linked path = false) "unsafe_path"

/-- The bytes of a file. -/
def bytes (path : Path) : Except Exc Bytes := orError (D.file path) (P6.missing (posix path))

/-- `path.stat().st_size`. -/
def size (path : Path) : Except Exc ℕ := return (← D.bytes path).length

/-- `digest`. -/
def digest (lib : Library) (path : Path) : Except Exc String := do
  D.plain path
  return lib.sha256 (← D.bytes path)

/-- `read`. -/
def read (reader : Reader) (path : Path) : Except Exc Json := do
  D.plain path
  let raw ← D.bytes path
  orError (reader.loads raw) (.valueError "invalid JSON")

/-- The files below a directory, in the order of the walk, by the parts below it. -/
def filesBelow (root : Path) : List Path :=
  D.paths.filterMap fun path =>
    if root <+: path ∧ root.length < path.length ∧ (D.file path).isSome then
      some (path.drop root.length)
    else none

/-- A row of an inventory. -/
def inventoryRow (lib : Library) (root path : Path) : Except Exc Json := do
  let size ← D.size (root ++ path)
  let sha256 ← D.digest lib (root ++ path)
  return .obj [("path", .str (posix path)), ("size", .int size), ("sha256", .str sha256)]

/-- `inventory`. -/
def inventory (lib : Library) (root : Path) : Except Exc (List Json) := do
  D.plain root
  ((D.filesBelow root).filter fun path => path.getLast? ≠ some "deployment.json").mapM
    (D.inventoryRow lib root)

end OutputDir

/-! ### The source of a run -/

/-- What `source_from_run` returns. -/
structure Source where
  paths : List (String × Path)
  hashes : List (String × String)
  params : Json
  modelThreshold : Json
  environment : Json
  identity : JsonObject

/-- `source_binding`. -/
def sourceBinding (source : Source) : Json :=
  .obj [("hashes", .obj (source.hashes.map fun item => (item.1, .str item.2))),
    ("params", source.params), ("identity", .obj source.identity),
    ("threshold", source.modelThreshold)]

/-- `key in value`. -/
def contains (value : Json) (key : String) : Except Exc Bool :=
  match value with
  | .obj fields => .ok (fields.lookup key).isSome
  | .arr items => .ok (items.any (·.isStr key))
  | .str s => .ok (decide (key.toList <:+: s.toList))
  | _ => .error (.typeError "argument is not iterable")

/-- `all(key in params for key in keys)`. -/
def containsAll (params : Json) : List String → Except Exc Bool
  | [] => .ok true
  | key :: keys => do
    if ← contains params key then containsAll params keys else .ok false

/-- `value.get(key, default)`. -/
def getOr (value : Json) (key : String) (default : Json) : Except Exc Json :=
  match value with
  | .obj fields => .ok ((getField fields key).getD default)
  | _ => .error .noGet

/-- `value.get(key) == text`, or an exception. -/
def expectText (value : Json) (key text message : String) : Except Exc Unit := do
  let x ← value.get key
  require (x.isStr text = true) message

/-- `item["path"]` of every item, for the keys of a dict. -/
def entryPaths (items : List Json) : Except Exc (List (Json × Json)) :=
  items.mapM fun item => do
    let path ← item.item "path"
    return (← path.hashed, item)

/-- `entries[name]`; the last item of a name is the one that counts. -/
def entryOf (entries : List (Json × Json)) (name : String) : Except Exc Json :=
  orError ((entries.reverse.find? fun entry => entry.1.isStr name).map (·.2)) (.keyError name)

/-- A file is as its item says. -/
def checkEntry (lib : Library) (reader : Reader) (D : OutputDir) (entries : List (Json × Json))
    (name : String) : Except Exc Unit := do
  let item ← entryOf entries name
  let sha256 ← item.item "sha256"
  let actual ← D.digest lib [name]
  require (reader.pyEq (.str actual) sha256 = true) "source_changed"
  let size ← item.item "size"
  let actualSize ← D.size [name]
  require (reader.pyEq (.int actualSize) size = true) "source_changed"

/-- `type(value) in (float, int) and math.isfinite(value)`. -/
def checkCalibrated (reader : Reader) (value : Json) : Except Exc Unit := do
  let finite ← reader.isFinite value
  require (finite = true) "uncalibrated"

/-- `{key: manifest[key] for key in IDENTITY if manifest.get(key)}`. -/
def identityOf (reader : Reader) (manifest : Json) : JsonObject :=
  identityFields.filterMap fun key =>
    match manifest.get key with
    | .ok value => if reader.truthy value then some (key, value) else none
    | .error _ => none

/-- The paths of the files of a source. -/
def sourcePaths : List (String × Path) :=
  [("model", ["model.ckpt"]), ("bundle_model", ["model.ckpt"]),
    ("manifest", ["training_artifacts.json"]), ("threshold", ["threshold.json"]),
    ("environment", ["environment.json"])]

/-- What the documents of a source have to say. -/
def checkSource (manifest environment threshold params : Json) (model bundleModel : String) :
    Except Exc Unit := do
  expectText manifest "implementation" "anomalib" "identity_mismatch"
  expectText manifest "anomalib_version" "2.5.1" "identity_mismatch"
  let packages ← environment.getOrEmpty "packages"
  expectText packages "anomalib" "2.5.1" "identity_mismatch"
  require (model = bundleModel) "identity_mismatch"
  expectText threshold "model_sha256" model "identity_mismatch"
  expectText threshold "score_kind" "patchcore_anomalib_raw_image_score" "identity_mismatch"
  expectText threshold "decision_rule" "score_gte_threshold" "identity_mismatch"
  let complete ← containsAll params parameters
  require (complete = true) "identity_mismatch"

/-- The hash of a file of the source. -/
def hashOf (hashes : List (String × String)) (key : String) : String :=
  (hashes.lookup key).getD ""

/-- `source_from_run`, for the model of the output. -/
def sourceFromRun (lib : Library) (reader : Reader) (D : OutputDir) : Except Exc Source := do
  D.plain ["model.ckpt"]
  D.plain ["training_artifacts.json"]
  let manifest ← D.read reader ["training_artifacts.json"]
  let hashes ← sourcePaths.mapM fun item => return (item.1, ← D.digest lib item.2)
  let threshold ← D.read reader ["threshold.json"]
  let environment ← D.read reader ["environment.json"]
  let params ← manifest.getOrEmpty "patchcore_params"
  checkSource manifest environment threshold params (hashOf hashes "model")
    (hashOf hashes "bundle_model")
  let artifacts ← manifest.item "artifacts"
  let items ← artifacts.iter
  let entries ← entryPaths items
  checkEntry lib reader D entries "model.ckpt"
  checkEntry lib reader D entries "threshold.json"
  checkEntry lib reader D entries "environment.json"
  let value ← threshold.get "threshold"
  checkCalibrated reader value
  return ⟨sourcePaths, hashes, params, value, environment, identityOf reader manifest⟩

/-! ### Packages -/

/-- A character of `[A-Za-z0-9_.-]`. -/
def isFlatChar (c : Char) : Bool := P6.isNameChar c || c == '.'

/-- `re.fullmatch(r"[A-Za-z0-9_.-]+", name)`. -/
def isFlatName (name : String) : Bool := name != "" && name.toList.all isFlatChar

/-- `re.fullmatch(r"package-[a-f0-9]{32}", name)`. -/
def isPackageName (name : String) : Bool :=
  "package-".toList.isPrefixOf name.toList && name.length == 40 &&
    (name.toList.drop 8).all fun c =>
      (48 ≤ c.toNat && c.toNat ≤ 57) || (97 ≤ c.toNat && c.toNat ≤ 102)

/-- A text, where `re.fullmatch` needs one. -/
def asText : Json → Except Exc String
  | .str s => .ok s
  | _ => .error (.typeError "expected string or bytes-like object")

/-- The rows of a manifest, one after the other, with the names seen. -/
def checkRows (lib : Library) (reader : Reader) (D : OutputDir) (root : Path) (names : List String) :
    List Json → Except Exc (List String)
  | [] => .ok names
  | row :: rows => do
    let value ← getOr row "path" (.str "")
    let name ← asText value
    require (isFlatName name = true ∧ name ∉ [".", "..", "deployment.json"] ∧
      lib.casefold name ∉ names) "onnx_unsafe_file"
    D.plain (root ++ [name])
    let actualSize ← D.size (root ++ [name])
    let size ← row.item "size"
    require (reader.pyEq (.int actualSize) size = true) "onnx_content_changed"
    let actual ← D.digest lib (root ++ [name])
    let sha256 ← row.item "sha256"
    require (reader.pyEq (.str actual) sha256 = true) "onnx_content_changed"
    checkRows lib reader D root (lib.casefold name :: names) rows

/-- The names every package has. -/
def requiredNames : List String :=
  ["model.onnx", "predict.py", "preprocess.py", "verification.json", "threshold.json"]

/-- `isinstance(files, list) and files and len(files) <= 32`. -/
def fileList : Json → Except Exc (List Json)
  | .arr items =>
    if 1 ≤ items.length ∧ items.length ≤ 32 then .ok items
    else .error (.valueError "onnx_inventory_invalid")
  | _ => .error (.valueError "onnx_inventory_invalid")

/-- A sample has passed under each key. -/
def samplePasses (row : Json) : List String → Except Exc Bool
  | [] => .ok true
  | key :: keys => do
    let check ← row.getOrEmpty key
    let status ← check.get "status"
    if status.isStr "PASS" then samplePasses row keys else .ok false

def samplesPass : List Json → Except Exc Bool
  | [] => .ok true
  | row :: rows => do
    if ← samplePasses row ["preprocessing", "onnx_parity", "ckpt_compatibility"] then
      samplesPass rows
    else .ok false

/-- What a success has to show. -/
def checkSamples (reader : Reader) (report : Json) : Except Exc Unit := do
  let samples ← report.get "samples"
  require (reader.truthy samples = true) "onnx_false_success"
  let rows ← report.item "samples"
  let items ← rows.iter
  let passed ← samplesPass items
  require (passed = true) "onnx_false_success"

/-- The reports of a package. -/
def checkReports (reader : Reader) (D : OutputDir) (root : Path) (document : Json) :
    Except Exc Unit := do
  let report ← D.read reader (root ++ ["verification.json"])
  let threshold ← D.read reader (root ++ ["threshold.json"])
  let reported ← report.get "status"
  let status ← document.item "status"
  require (reader.pyEq status reported = true) "onnx_report_mismatch"
  let value ← threshold.get "threshold"
  let bound ← document.item "source"
  let boundValue ← bound.item "threshold"
  require (reader.pyEq boundValue value = true) "onnx_report_mismatch"
  expectText threshold "decision_rule" "score_gte_threshold" "onnx_report_mismatch"
  if status.isStr "PASS" then checkSamples reader report else return ()

/-- `value in statuses`. -/
def oneOf (value : Json) (statuses : List String) : Except Exc Bool := do
  let hashed ← value.hashed
  return statuses.any (hashed.isStr ·)

/-- What the manifest of a package has to say. -/
def checkManifest (reader : Reader) (document : Json) (source : Source) : Except Exc (List Json) := do
  expectText document "schema" "cnn_onnx_v1" "onnx_not_verified"
  expectText document "profile" profile "onnx_not_verified"
  let status ← document.get "status"
  let known ← oneOf status ["PASS", "PENDING", "FAIL"]
  require (known = true) "onnx_not_verified"
  let bound ← document.get "source"
  require (reader.pyEq (sourceBinding source) bound = true) "onnx_source_mismatch"
  let files ← document.get "files"
  fileList files

/-- `validate_package(root, source=source)`. -/
def validatePackage (lib : Library) (reader : Reader) (D : OutputDir) (root : Path)
    (source : Source) : Except Exc Json := do
  D.plain root
  let document ← D.read reader (root ++ ["deployment.json"])
  let files ← checkManifest reader document source
  let names ← checkRows lib reader D root [] files
  require (∀ name ∈ requiredNames, name ∈ names) "onnx_inventory_missing"
  let actual ← D.inventory lib root
  require (reader.pyEq (.arr actual) (.arr files) = true) "onnx_inventory_mismatch"
  checkReports reader D root document
  return document

/-! ### Packing -/

/-- What has been published, and what has been checked for it. -/
structure Published where
  members : List (Path × Bytes)
  /-- The source of the run, where there is a CNN result. -/
  source : Option Source
  /-- The package that has been validated, and its manifest. -/
  package : Option (String × Json)

/-- What has been checked of a CNN result. -/
structure Checked where
  source : Source
  package : Option (String × Json)

/-- `expected_identity and any(...)`. -/
def checkIdentity (reader : Reader) (expected : JsonObject) (source : Source) : Except Exc Unit :=
  require (∀ field ∈ expected,
    reader.pyEq field.2 ((getField source.identity field.1).getD .null) = true)
    "onnx_identity_mismatch"

/-- The package of a result, where it names one. -/
def checkNamed (lib : Library) (reader : Reader) (D : OutputDir) (source : Source)
    (report value : Json) : Except Exc (Option (String × Json)) := do
  let name ← asText value
  require (isPackageName name = true) "onnx_package_path_invalid"
  let document ← validatePackage lib reader D ["cnn_onnx", name] source
  let status ← report.item "status"
  let found ← document.item "status"
  require (reader.pyEq status found = true) "onnx_status_mismatch"
  return some (name, document)

/-- The checks of a CNN result. -/
def checkResult (lib : Library) (reader : Reader) (D : OutputDir) (expected : Option JsonObject) :
    Except Exc Checked := do
  let source ← sourceFromRun lib reader D
  checkIdentity reader (expected.getD []) source
  let report ← D.read reader ["cnn_onnx", "result.json"]
  let status ← report.get "status"
  let known ← oneOf status ["PASS", "FAIL", "CANCELLED", "PENDING"]
  require (known = true) "onnx_status_invalid"
  let value ← getOr report "package" (.str "")
  if reader.truthy value then
    let package ← checkNamed lib reader D source report value
    return ⟨source, package⟩
  else
    require (status.isStr "PASS" = false) "onnx_package_missing"
    return ⟨source, none⟩

/-- The exceptions that are no failed check: an attribute that is missing, and
an integer beyond the floats. -/
def uncaught : List Exc := [.noGet, .typeError "int too large to convert to float"]

/-- `except (OSError, KeyError, TypeError, ValueError)`. -/
def asAdapterError (e : Exc) : Exc :=
  if e ∈ uncaught then e
  else ⟨.kaggleAdapterError, "CNN ONNX artifact validation failed: " ++ e.text⟩

/-- `REQUIRED_ARTIFACT_FILES`. -/
def requiredFiles : String → Option (List Path)
  | "yolo" => some [["best.pt"]]
  | "patchcore" => some [["model.ckpt"], ["threshold.json"], ["anomaly_metrics.json"],
      ["environment.json"], ["training_artifacts.json"]]
  | _ => none

/-- `require_file`. -/
def requireFile (D : OutputDir) (path : Path) : Except Exc Unit :=
  if (D.file path).isSome then .ok ()
  else .error (.archiveError ("required file missing: " ++ posix path))

/-- The members of the ZIP: every file of the walk. -/
def packMembers (checkFree : ℕ → Except Exc Unit) (D : OutputDir) :
    List Path → Except Exc (List (Path × Bytes))
  | [] => .ok []
  | path :: paths =>
    match D.file path with
    | none => packMembers checkFree D paths
    | some bytes => do
      checkFree bytes.length
      let rest ← packMembers checkFree D paths
      return (path, bytes) :: rest

/-- The CNN result of a PatchCore run, where there is one. -/
def checkCnn (lib : Library) (reader : Reader) (D : OutputDir) (contract : String)
    (expected : Option JsonObject) : Except Exc (Option Checked) :=
  if contract = "patchcore" ∧ (D.file ["cnn_onnx", "result.json"]).isSome then
    match checkResult lib reader D expected with
    | .ok checked => .ok (some checked)
    | .error e => .error (asAdapterError e)
  else .ok none

/-- `package_artifacts`, for the contracts whose output is packed as a whole. -/
def packageArtifacts (lib : Library) (reader : Reader) (checkFree : ℕ → Except Exc Unit)
    (D : OutputDir) (contract : String) (expected : Option JsonObject) : Except Exc Published := do
  let required ← orError (requiredFiles contract)
    ⟨.kaggleAdapterError, "unknown artifact contract: " ++ contract⟩
  let _ ← required.mapM (requireFile D)
  let checked ← checkCnn lib reader D contract expected
  let members ← packMembers checkFree D D.paths
  return ⟨members, checked.map (·.source), checked.bind (·.package)⟩

/-! ### The job -/

/-- The identity a job froze when it was created: no field is blank. -/
structure FrozenIdentity where
  datasetId : String
  identitySha256 : String
  runId : String
  runIdentitySha256 : String
  frozen : ∀ value ∈ [datasetId, identitySha256, runId, runIdentitySha256], Text.strip value ≠ ""

/-- The fields of a job that are its identity. -/
def FrozenIdentity.fields (job : FrozenIdentity) : JsonObject :=
  [("dataset_id", .str job.datasetId), ("identity_sha256", .str job.identitySha256),
    ("run_id", .str job.runId), ("run_identity_sha256", .str job.runIdentitySha256)]

/-- The contracts whose jobs pass their identity on. -/
def dinoContracts : List String := ["patchcore_dinov2_v3", P6.contractV1, P6.contractV2]

/-- The `packaging_options` of `finish_kernel_job`, as far as they go to these contracts. -/
def packagingOptions (contract : String) (job : FrozenIdentity) : Option JsonObject :=
  if contract ∈ dinoContracts then some job.fields else none

/-- The packaging of `finish_kernel_job`: what it returns is published as the
artifact of the job. -/
def publishArtifacts (lib : Library) (reader : Reader) (checkFree : ℕ → Except Exc Unit)
    (D : OutputDir) (contract : String) (job : FrozenIdentity) : Except Exc Published :=
  packageArtifacts lib reader checkFree D contract (packagingOptions contract job)

end Cnn

end KaggleRelay
