/-
The GPU guard of YOLO kernels.

A kernel is rewritten before it is submitted: every call `x.train(...)` that
names its data goes through a helper, and the helper is put at the top of the
script, or into a first cell of the notebook.

* `helper` — the guard, as a syntax tree and as the source of a cell;
* `devicePolicy` — the calls, rewritten;
* `rewritePython`, `rewriteNotebook` — scripts and notebooks.
-/
import KaggleRelay.Archive
import KaggleRelay.PythonAst
import KaggleRelay.PythonValues

namespace KaggleRelay

open JsonText PythonAst

namespace Gpu

/-! ### The helper -/

/-- The body of the helper. -/
def helperBody : List Ast :=
  [assign (target "requested") (call (attr (name "kwargs") "get") [str "device"] []),
   ifStmt
     (boolOp .And [call (name "isinstance") [name "requested", name "str"] [],
                   compare
                     (call (attr (call (attr (name "requested") "strip") [] []) "lower") [] [])
                     [.In] [setOf [str "cpu", str "mps"]]])
     [returnStmt (call (name "train") [starred (name "args")] [doubleStarred (name "kwargs")])] [],
   ifStmt (call (name "isinstance") [name "requested", tuple [name "tuple", name "list"]] [])
     [assign (target "devices") (call (name "list") [name "requested"] [])]
     [ifStmt
        (boolOp .Or [compare (name "requested") [.Is] [noneValue],
                     compare
                       (call
                          (attr
                             (call (attr (call (name "str") [name "requested"] []) "strip") [] [])
                             "lower") [] []) [.In] [setOf [str "", str "auto"]]])
        [returnStmt (call (name "train") [starred (name "args")] [doubleStarred (name "kwargs")])]
        [assign (target "devices")
           (listComp (call (attr (name "part") "strip") [] [])
              [comprehension (target "part")
                 (call (attr (call (name "str") [name "requested"] []) "split") [str ","] [])
                 [call (attr (name "part") "strip") [] []]])]],
   ifStmt (compare (call (name "len") [name "devices"] []) [.Lt] [int 2])
     [returnStmt (call (name "train") [starred (name "args")] [doubleStarred (name "kwargs")])] [],
   assign (target "task")
     (call (name "getattr") [call (name "getattr") [name "train", str "__self__", noneValue] [],
                             str "task", str "detect"] []),
   ifStmt
     (compare (name "task") [.NotIn] [setOf [str "detect", str "segment", str "pose", str "obb"]])
     [returnStmt (call (name "train") [starred (name "args")] [doubleStarred (name "kwargs")])] [],
   importFrom "ultralytics.data.dataset" [importAlias "YOLODataset"] 0,
   importFrom "ultralytics.data.utils" [importAlias "check_det_dataset"] 0,
   assign (target "data")
     (call (name "check_det_dataset") [subscript (name "kwargs") (str "data")]
        [keyword "autodownload" falseValue]), assign (target "counts") (dict [] []),
   forStmt (target "split") (tuple [str "train", str "val"])
     [assign (target "dataset")
        (call (name "YOLODataset") [] [keyword "img_path" (subscript (name "data") (name "split")),
                                       keyword "data" (name "data"), keyword "task" (name "task"),
                                       keyword "imgsz"
                                         (call (attr (name "kwargs") "get") [str "imgsz", int 640]
                                            []), keyword "augment" falseValue,
                                       keyword "cache" falseValue, keyword "rect" falseValue,
                                       keyword "single_cls"
                                         (call (attr (name "kwargs") "get")
                                            [str "single_cls", falseValue] []),
                                       keyword "classes"
                                         (call (attr (name "kwargs") "get") [str "classes"] []),
                                       keyword "fraction"
                                         (ifExp (compare (name "split") [.Eq] [str "train"])
                                            (call (attr (name "kwargs") "get")
                                               [str "fraction", constant (.other "1.0")] [])
                                            (constant (.other "1.0"))),
                                       keyword "prefix"
                                         (joinedStr [str "[RELAY GPU POLICY] ",
                                                     formatted (name "split"), str ": "])]),
      assign (subscriptTarget (name "counts") (name "split"))
        (call (name "len") [name "dataset"] []), delete [deleted "dataset"]],
   ifStmt
     (compare (call (name "min") [call (attr (name "counts") "values") [] []] []) [.Lt]
        [call (name "len") [name "devices"] []])
     [assign (subscriptTarget (name "kwargs") (str "device"))
        (call (name "str") [subscript (name "devices") (int 0)] []),
      assign (target "decision")
        (joinedStr [str "using single GPU ", formatted (subscript (name "devices") (int 0)),
                    str " to avoid empty DDP shards"])]
     [assign (target "decision") (str "keeping requested multi-GPU training")],
   exprStmt
     (call (name "print") [joinedStr [str "[RELAY GPU POLICY] train=",
                                      formatted (subscript (name "counts") (str "train")),
                                      str " val=",
                                      formatted (subscript (name "counts") (str "val")),
                                      str " requested_gpus=",
                                      formatted (call (name "len") [name "devices"] []), str "; ",
                                      formatted (name "decision")]] [keyword "flush" trueValue]),
   returnStmt (call (name "train") [starred (name "args")] [doubleStarred (name "kwargs")])]

/-- The statement `_PREFIX` consists of. -/
def helper : Ast :=
  functionDef "_relay_yolo_train"
    (arguments [arg "train"] (arg "args") (arg "kwargs") []) helperBody []

/-- `_PREFIX.splitlines(keepends=True)`. -/
def prefixLines : List String :=
  ["# Embedded by the gateway; executed in Kaggle immediately before model.train.\n",
    "def _relay_yolo_train(train, *args, **kwargs):\n",
    "    requested = kwargs.get(\"device\")\n",
    "    if isinstance(requested, str) and requested.strip().lower() in \x7b\"cpu\", \"mps\"\x7d:\n",
    "        return train(*args, **kwargs)\n",
    "    if isinstance(requested, (tuple, list)):\n",
    "        devices = list(requested)\n",
    "    elif requested is None or str(requested).strip().lower() in \x7b\"\", \"auto\"\x7d:\n",
    "        # The generated client resolves auto before this call; Ultralytics\n",
    "        # itself defaults to one GPU when the device argument is omitted.\n",
    "        return train(*args, **kwargs)\n",
    "    else:\n",
    "        devices = [part.strip() for part in str(requested).split(\",\") if part.strip()]\n",
    "    if len(devices) < 2:\n",
    "        return train(*args, **kwargs)\n",
    "    task = getattr(getattr(train, \"__self__\", None), \"task\", \"detect\")\n",
    "    if task not in \x7b\"detect\", \"segment\", \"pose\", \"obb\"\x7d:\n",
    "        return train(*args, **kwargs)\n",
    "\n",
    "    from ultralytics.data.dataset import YOLODataset\n",
    "    from ultralytics.data.utils import check_det_dataset\n",
    "\n",
    "    # Run after client archive extraction/YAML repair, including cache hits.\n",
    "    # Use training's own image/label validator, so corrupt samples don't count.\n",
    "    data = check_det_dataset(kwargs[\"data\"], autodownload=False)\n",
    "    counts = \x7b\x7d\n",
    "    for split in (\"train\", \"val\"):\n",
    "        dataset = YOLODataset(\n",
    "            img_path=data[split], data=data, task=task,\n",
    "            imgsz=kwargs.get(\"imgsz\", 640), augment=False, cache=False, rect=False,\n",
    "            single_cls=kwargs.get(\"single_cls\", False), classes=kwargs.get(\"classes\"),\n",
    "            fraction=kwargs.get(\"fraction\", 1.0) if split == \"train\" else 1.0,\n",
    "            prefix=f\"[RELAY GPU POLICY] \x7bsplit\x7d: \",\n",
    "        )\n",
    "        counts[split] = len(dataset)\n",
    "        del dataset\n",
    "    if min(counts.values()) < len(devices):\n",
    "        kwargs[\"device\"] = str(devices[0])\n",
    "        decision = f\"using single GPU \x7bdevices[0]\x7d to avoid empty DDP shards\"\n",
    "    else:\n",
    "        decision = \"keeping requested multi-GPU training\"\n",
    "    print(\n",
    "        f\"[RELAY GPU POLICY] train=\x7bcounts['train']\x7d val=\x7bcounts['val']\x7d \"\n",
    "        f\"requested_gpus=\x7blen(devices)\x7d; \x7bdecision\x7d\", flush=True,\n",
    "    )\n",
    "    return train(*args, **kwargs)\n"]

/-! ### The calls -/

/-- `_DEVICE_HELPER`. -/
def deviceHelper : String := "_relay_yolo_train"

/-- `isinstance(func, ast.Attribute) and func.attr == "train"`. -/
def isTrainMethod (func : Ast) : Bool :=
  isA .Attribute func && func.get .attr == some (text "train")

/-- `keyword.arg == "data"`. -/
def isDataKeyword (keyword : Ast) : Bool := keyword.get .arg == some (text "data")

/-- The parts of a call that is to go through the helper. -/
def trainCall (node : Ast) : Option (Ast × List Ast × List Ast) :=
  match callParts node with
  | some (func, args, keywords) =>
    if isTrainMethod func && keywords.any isDataKeyword then some (func, args, keywords) else none
  | none => none

/-- `visit_Call`, after `generic_visit`; a node of another class stays as it is. -/
def visitCall (node : Ast) : Ast :=
  match trainCall node with
  | some (func, args, keywords) => call (name deviceHelper) (func :: args) keywords
  | none => node

/-- `_DevicePolicy().visit`. -/
def devicePolicy : Ast → Ast := SyntaxTree.mapNodes visitCall

/-! ### Scripts and cells -/

/-- The parser and the printer of Python; `none` is a `SyntaxError`. -/
structure Python where
  parse : String → Option (List Ast)
  unparse : List Ast → String

/-- The body that `_rewrite_python` prints for a script. -/
def rewriteScript (body : List Ast) : List Ast :=
  insertAfterOpening [helper] ((body.filter fun node => node ∉ [helper]).map devicePolicy)

/-- The body that `_rewrite_python` prints for a cell. -/
def rewriteCell (body : List Ast) : List Ast := body.map devicePolicy

/-- `_rewrite_python`. -/
def rewritePython (py : Python) (source : String) (script : Bool) : Option String :=
  (py.parse source).map fun body =>
    py.unparse (if script then rewriteScript body else rewriteCell body) ++ "\n"

/-! ### Notebooks -/

/-- `text.splitlines(keepends=True)`, on the characters. -/
def splitKeep : List Char → List Char → List (List Char)
  | [], [] => []
  | [], line => [line]
  | '\r' :: '\n' :: rest, line => (line ++ ['\r', '\n']) :: splitKeep rest []
  | c :: rest, line =>
    if c.toNat ∈ [10, 11, 12, 13, 28, 29, 30, 133, 8232, 8233] then (line ++ [c]) :: splitKeep rest []
    else splitKeep rest (line ++ [c])

def splitLines (s : String) : List String := (splitKeep s.toList []).map String.ofList

/-- The `id` of the cell that is put first. -/
def policyCellId : String := "relay-small-dataset-gpu-policy"

/-- The cell that is put first. -/
def policyCell : JsonObject :=
  [("cell_type", .str "code"), ("id", .str policyCellId), ("metadata", .obj []),
    ("execution_count", .null), ("outputs", .arr []), ("source", .arr (prefixLines.map .str))]

/-- `"".join(source)`. -/
def joinLines : List Json → Except Exc String
  | [] => .ok ""
  | .str s :: rest => do return s ++ (← joinLines rest)
  | _ :: _ => .error (.typeError "sequence item: expected str instance")

/-- The text of a cell. -/
def cellText (cell : JsonObject) : Except Exc String :=
  match (getField cell "source").getD (.arr []) with
  | .str s => .ok s
  | source => do joinLines (← source.iter)

/-- A code cell. -/
def isCode (cell : JsonObject) : Bool := (getField cell "cell_type").any (·.isStr "code")

/-- The policy cell of an earlier application, or one with its id. -/
def isPolicy (cell : JsonObject) : Bool := (getField cell "id").any (·.isStr policyCellId)

/-- One turn of the loop over the cells. -/
def visitCell (py : Python) (cell : JsonObject) : Except Exc JsonObject :=
  if isCode cell then do
    let source ← cellText cell
    match rewritePython py source false with
    | some updated => return setField cell "source" (.arr ((splitLines updated).map .str))
    | none => return cell
  else .ok cell

/-- `isinstance(cells, list) and all(isinstance(cell, dict) for cell in cells)`. -/
def cellList : Json → Except Exc (List JsonObject)
  | .arr items => orError (items.mapM fun item =>
      match item with
      | .obj fields => some fields
      | _ => none) (.archiveError "GPU policy requires a valid notebook cells list")
  | _ => .error (.archiveError "GPU policy requires a valid notebook cells list")

/-- The cells of a rewritten notebook. -/
def rewriteCells (py : Python) (cells : List JsonObject) : Except Exc (List JsonObject) := do
  let visited ← (cells.filter fun cell => !isPolicy cell).mapM (visitCell py)
  return policyCell :: visited

/-- The notebook branch of `apply_yolo_gpu_policy`, on the document. -/
def rewriteNotebook (py : Python) (notebook : Json) : Except Exc Json := do
  let field ← notebook.item "cells"
  let cells ← cellList field
  let updated ← rewriteCells py cells
  match notebook with
  | .obj fields => return .obj (setField fields "cells" (.arr (updated.map .obj)))
  | _ => .error (.typeError "indices must be integers")

end Gpu

end KaggleRelay
