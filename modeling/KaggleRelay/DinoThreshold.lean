/-
The threshold policy of DINO submissions.

The script of a submission gets the guards in front, and after each import of
`run` from the bootstrap an assignment that wraps it. A script that has them
already is brought to the same form.

* `prefixStatements` — what is put in front;
* `removeLegacy` — the overlay of the previous version, taken out;
* `expand` — an import with its wrappers, and a wrapper of before removed;
* `rewriteModule`, `applyDinoThresholdPolicy` — the script, rewritten.
-/
import KaggleRelay.Archive
import KaggleRelay.DinoGuards

namespace KaggleRelay

open PythonAst

namespace Threshold

/-! ### The prefix -/

/-- `IMAGE_POLICY_SHA256`. -/
def imagePolicySha256 : String := "b764a98d1691d086e6a4918e42905d5573aa3e05c67c8854dcbf28e20fc6d88f"

/-- `POLICY_SHA256`. -/
def policySha256 : String := "95171e33792669e93e840baa813ff8d636428a2dc7a099491d979effc7b7fed9"

/-- `_LEGACY_POLICY_SHA256`. -/
def legacyPolicySha256 : String := "832a35b6f46b1eb5c55ab5fcaa9fd72d5fcd5878846453532c85a262afbb287d"

/-- `_GUARD`. -/
def guardText : String :=
  "_RELAY_DINO_IMAGE_POLICY_SHA256 = '" ++ imagePolicySha256 ++ "'\n" ++ String.join imageGuardLines ++
    "\n" ++ String.join thresholdGuardLines

/-- The first line of a worker. -/
def workerHeader (sha256 : String) : String := "_RELAY_DINO_POLICY_SHA256 = '" ++ sha256 ++ "'\n"

def workerFooter : String := "\nraise SystemExit(_relay_dino_worker_main())\n"

/-- `_WORKER`. -/
def workerText : String := workerHeader policySha256 ++ guardText ++ workerFooter

/-- The two statements in front of a guard. -/
def workerStatements (sha256 worker : String) : List Ast :=
  [assign (target "_RELAY_DINO_POLICY_SHA256") (str sha256),
    assign (target "_RELAY_DINO_WORKER_SOURCE") (str worker)]

/-- `ast.parse(_GUARD).body`. -/
def guardStatements : List Ast :=
  assign (target "_RELAY_DINO_IMAGE_POLICY_SHA256") (str imagePolicySha256) :: (imageGuard ++ thresholdGuard)

/-- `ast.parse(_PREFIX).body`. -/
def prefixStatements : List Ast := workerStatements policySha256 workerText ++ guardStatements

def policyMessage : String :=
  "Gateway DINO F1 threshold policy: lower by twice the native score tolerance, " ++
    "bounded by the calibration score gap; record policy in threshold/metrics/PT receipts. " ++
    "Opaque RGBA image policy: verify original bytes and read fully opaque inputs as RGB. " ++
    "policy_sha256=" ++ policySha256 ++ " image_policy_sha256=" ++ imagePolicySha256

/-- What the policy asks of Python; `none` is a `SyntaxError`. -/
structure Python where
  parse : String → Option (List Ast)
  unparse : List Ast → String
  /-- `compile(...)` raises nothing. -/
  compiles : String → Bool
  /-- `hashlib.sha256(text.encode("utf-8")).hexdigest()`. -/
  sha256 : String → String

/-! ### Assignments -/

/-- The name that an expression is. -/
def nameId : Ast → Option String
  | .node .Name [(.id, .leaf (.str id)), _] => some id
  | _ => none

/-- The one name that a statement assigns, and the value. -/
def assigned : Ast → Option (String × Ast)
  | .node .Assign [(.targets, .list [t]), (.value, value), _] => (nameId t).map fun x => (x, value)
  | _ => none

/-- The text that an expression is. -/
def constantText : Ast → Option String
  | .node .Constant [(.value, .leaf (.str s)), _] => some s
  | _ => none

/-! ### The previous overlay -/

/-- `worker.startswith(header) and worker.endswith(footer)`. -/
def isLegacyWorker (worker : String) : Bool :=
  (workerHeader legacyPolicySha256).toList.isPrefixOf worker.toList &&
    workerFooter.toList.isSuffixOf worker.toList

/-- The worker of the previous overlay that a statement assigns. -/
def legacyWorker (stmt : Ast) : Option String :=
  match assigned stmt with
  | some (x, value) =>
    if x = "_RELAY_DINO_WORKER_SOURCE" then (constantText value).filter isLegacyWorker else none
  | none => none

/-- `worker[len(header):-len(footer)]`. -/
def legacyGuard (worker : String) : String :=
  String.ofList ((worker.toList.drop (workerHeader legacyPolicySha256).length).take
    (worker.length - (workerHeader legacyPolicySha256).length - workerFooter.length))

/-- `ast.parse(header + f"_RELAY_DINO_WORKER_SOURCE = {worker!r}\n" + guard).body`. -/
def legacyStatements (py : Python) (worker : String) : Option (List Ast) :=
  (py.parse (legacyGuard worker)).map fun body => workerStatements legacyPolicySha256 worker ++ body

/-- What is done at the statement with the worker. -/
def removeOverlay (py : Python) (body : List Ast) (index : ℕ) (worker : String) :
    Except Exc (List Ast) :=
  if py.sha256 (legacyGuard worker) ≠ legacyPolicySha256 then
    .error (.archiveError "previous DINO gateway overlay integrity mismatch")
  else
    match legacyStatements py worker with
    | none => .error (.archiveError "invalid syntax")
    | some overlay =>
      if index = 0 ∨ (body.drop (index - 1)).take overlay.length ≠ overlay then
        .error (.archiveError "previous DINO gateway overlay is incomplete or modified")
      else .ok (body.take (index - 1) ++ body.drop (index - 1 + overlay.length))

/-- `_remove_legacy_prefix`: the first such statement decides. -/
def removeLegacyFrom (py : Python) (body : List Ast) (index : ℕ) : List Ast → Except Exc (List Ast)
  | [] => .ok body
  | stmt :: rest =>
    match legacyWorker stmt with
    | none => removeLegacyFrom py body (index + 1) rest
    | some worker => removeOverlay py body index worker

def removeLegacy (py : Python) (body : List Ast) : Except Exc (List Ast) := removeLegacyFrom py body 0 body

/-! ### Imports and their wrappers -/

/-- What an alias of `run` is called. -/
def runName (alias' : Ast) : Option String :=
  if alias'.get .name = some (text "run") then
    match alias'.get .asname with
    | some (.leaf (.str asname)) => some (if asname = "" then "run" else asname)
    | _ => some "run"
  else none

/-- `not node.level`. -/
def isAbsolute (stmt : Ast) : Bool :=
  stmt.get .level == some (.leaf (.int 0)) || stmt.get .level == some absent

def isBootstrap (stmt : Ast) : Bool :=
  isAbsolute stmt && stmt.get .moduleName == some (text "patchcore_dino_runtime.kaggle_bootstrap")

/-- The names that a statement imports `run` under. -/
def runNames (stmt : Ast) : List String :=
  if isA .ImportFrom stmt && isBootstrap stmt then
    match stmt.get .names with
    | some (.list names) => names.filterMap runName
    | _ => []
  else []

/-- `name = _relay_dino_wrap_run(name)`. -/
def wrapper (x : String) : Ast :=
  assign (target x) (call (name "_relay_dino_wrap_run") [name x] [])

/-- A call of the wrapping function with one name. -/
def wrapsName (x : String) (value : Ast) : Bool :=
  match callParts value with
  | some (func, [arg], []) => nameId func == some "_relay_dino_wrap_run" && nameId arg == some x
  | _ => false

/-- What `visit_Assign` removes. -/
def isWrapper (stmt : Ast) : Bool :=
  (assigned stmt).any fun (x, value) => wrapsName x value

/-- The nodes with a method of their own, which visits nothing below. -/
def visited (cls : Cls) : Bool := cls == .ImportFrom || cls == .Assign

/-- `visit_ImportFrom` and `visit_Assign`: what becomes of a statement. -/
def expand (stmt : Ast) : List Ast :=
  if isWrapper stmt then [] else stmt :: (runNames stmt).map wrapper

/-- `_WrapBootstrap().visit`, on the statements of a module. -/
def wrapBootstrap (body : List Ast) : List Ast := SyntaxTree.expandItems visited expand body

/-- `wrapper.matches`. -/
def bootstraps (body : List Ast) : ℕ := SyntaxTree.weightItems visited (fun stmt => (runNames stmt).length) body

/-! ### The script -/

/-- The statements that are not of the prefix. -/
def kept (body : List Ast) : List Ast := body.filter fun stmt => stmt ∉ prefixStatements

/-- The statements of the script that is written. -/
def rewriteModule (py : Python) (body : List Ast) : Except Exc (List Ast) := do
  let rest ← removeLegacy py body
  if bootstraps (kept rest) = 0 then
    .error (.archiveError "DINO threshold policy requires the supported bound-wheel bootstrap")
  else .ok (insertAfterOpening prefixStatements (wrapBootstrap (kept rest)))

/-- The text of a script. -/
def printed (py : Python) (body : List Ast) : String := py.unparse body ++ "\n"

/-- The source, rewritten. -/
def rewriteSource (py : Python) (source : String) : Except Exc String :=
  match py.parse source with
  | none => .error (.archiveError "invalid syntax")
  | some body => do
    let updated ← rewriteModule py body
    if py.compiles (printed py updated) then .ok (printed py updated)
    else .error (.archiveError "invalid syntax")

/-- An `ArchiveError` is a `ValueError`, and so is caught with the others. -/
def prepareError : Exc := .archiveError "DINO threshold policy could not prepare the submission"

/-- What is returned, and the source that is written. -/
def applyDinoThresholdPolicy (py : Python) (artifactContract source : String) :
    Except Exc (Option (String × String)) :=
  if artifactContract ≠ "patchcore_dinov2_v3" then .ok none
  else
    match rewriteSource py source with
    | .ok updated => .ok (some (policyMessage, updated))
    | .error _ => .error prepareError

end Threshold

end KaggleRelay
