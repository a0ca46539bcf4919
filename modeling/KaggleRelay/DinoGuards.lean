/-
The guards that the gateway puts into DINO submissions.

`dino_image_guard.py` and `dino_threshold_guard.py`, each as its statements and
as its lines.
-/
import KaggleRelay.PythonAst

namespace KaggleRelay

open PythonAst

namespace Threshold

/-- `_relay_dino_decode_rgb`. -/
def decodeRgb : Ast :=
  functionDef "_relay_dino_decode_rgb"
    (argumentsWith [arg "original", arg "path", arg "expected_sha256"] absent [arg "converted"]
       [absent] absent [noneValue])
    [importStmt [importAlias "cv2"], importStmt [importAliasAs "numpy" "np"],
     assign (target "path") (call (name "Path") [name "path"] []),
     ifStmt
       (compare (attr (call (attr (name "path") "stat") [] []) "st_size") [.Gt]
          [binOp (binOp (int 128) .Mult (int 1024)) .Mult (int 1024)])
       [raiseStmt
          (call (name "ValueError") [joinedStr [str "image exceeds encoded byte budget: ",
                                                formatted (attr (name "path") "name")]] []) absent]
       [], assign (target "raw") (call (attr (name "path") "read_bytes") [] []),
     assign (target "digest")
       (call (attr (call (attr (name "hashlib") "sha256") [name "raw"] []) "hexdigest") [] []),
     ifStmt
       (boolOp .And [compare (name "expected_sha256") [.IsNot] [noneValue],
                     compare (name "digest") [.NotEq] [name "expected_sha256"]])
       [raiseStmt
          (call (name "ValueError") [joinedStr [str "frozen image SHA-256 mismatch: ",
                                                formatted (attr (name "path") "name")]] []) absent]
       [],
     tryStmt [assign (target "image")
                (call (attr (name "cv2") "imdecode")
                   [call (attr (name "np") "frombuffer") [name "raw"]
                      [keyword "dtype" (attr (name "np") "uint8")],
                    attr (name "cv2") "IMREAD_UNCHANGED"] [])]
       [exceptHandler (attr (name "cv2") "error") (text "exc")
          [raiseStmt
             (call (name "ValueError") [joinedStr [str "image decoding failed: ",
                                                   formatted (attr (name "path") "name")]] [])
             (name "exc")]] [] [],
     ifStmt
       (boolOp .Or [compare (name "image") [.Is] [noneValue],
                    compare (attr (name "image") "dtype") [.NotEq] [attr (name "np") "uint8"]])
       [raiseStmt
          (call (name "ValueError") [joinedStr [str "image must decode to 8-bit pixels: ",
                                                formatted (attr (name "path") "name")]] []) absent]
       [],
     ifStmt
       (boolOp .And [compare (attr (name "image") "ndim") [.Eq] [int 3],
                     compare (subscript (attr (name "image") "shape") (int 2)) [.Eq] [int 4]])
       [ifStmt
          (unaryOp .Not
             (call (attr (name "np") "all")
                [compare
                   (subscript (name "image")
                      (tuple [slice absent absent absent, slice absent absent absent, int 3])) [.Eq]
                   [int 255]] [])) [raiseStmt
                                      (call (name "ValueError")
                                         [joinedStr [str
                                                       "transparent or semitransparent RGBA is unsupported: ",
                                                     formatted (attr (name "path") "name")]] [])
                                      absent] [],
        assign (target "color")
          (call (attr (name "cv2") "imdecode")
             [call (attr (name "np") "frombuffer") [name "raw"]
                [keyword "dtype" (attr (name "np") "uint8")], attr (name "cv2") "IMREAD_COLOR"] []),
        ifStmt (compare (name "color") [.Is] [noneValue])
          [raiseStmt
             (call (name "ValueError") [joinedStr [str "RGB decoding failed: ",
                                                   formatted (attr (name "path") "name")]] [])
             absent] [], exprStmt (call (attr (name "converted") "add") [name "digest"] []),
        returnStmt
          (call (attr (name "cv2") "cvtColor") [name "color", attr (name "cv2") "COLOR_BGR2RGB"]
             [])] [],
     tryStmt [returnStmt (call (name "original") [name "path", name "expected_sha256"] [])]
       [exceptHandler (name "ValueError") (text "exc")
          [raiseStmt
             (call (name "ValueError") [joinedStr [formatted (name "exc"), str ": ",
                                                   formatted (attr (name "path") "name")]] [])
             (name "exc")]] [] []] []

/-- `_relay_dino_image_scope`. -/
def imageScope : Ast :=
  functionDef "_relay_dino_image_scope" (arguments [arg "contract"] absent absent [])
    [importFrom "patchcore_dino_runtime" [importAlias "data", importAlias "remote_training"] 0,
     assign (target "decode") (attr (name "data") "decode_rgb"),
     assign (target "validate") (attr (name "remote_training") "validate_payload"),
     assign (target "make_threshold") (attr (name "contract") "make_threshold_document"),
     assign (target "converted") (call (name "set") [] []),
     assign (target "receipt")
       (dict [str "id", str "source_sha256", str "base_runtime_sha256",
              str "original_bytes_preserved", str "converted_sample_count"]
          [name "_RELAY_DINO_IMAGE_POLICY_ID", name "_RELAY_DINO_IMAGE_POLICY_SHA256",
           name "_RELAY_DINO_RUNTIME", trueValue, int 0]),
     functionDef "validate_payload" (arguments [] (arg "args") (arg "kwargs") [])
       [assign (target "inputs")
          (call (name "validate") [starred (name "args")] [doubleStarred (name "kwargs")]),
        assign (target "workers")
          (call
             (attr (subscript (subscript (name "inputs") (str "request")) (str "training")) "get")
             [str "workers", int 0] []),
        ifStmt
          (boolOp .And [name "workers",
                        compare (call (attr (name "multiprocessing") "get_start_method") [] [])
                          [.NotEq] [str "fork"]])
          [raiseStmt
             (call (name "RuntimeError") [str
                                            "DINO gateway image policy requires fork for DataLoader workers"]
                []) absent] [], exprStmt (call (attr (name "converted") "clear") [] []),
        forStmt (target "sample") (subscript (name "inputs") (str "samples"))
          [exprStmt
             (call (attr (name "data") "decode_rgb")
                [subscript (name "sample") (str "path"), subscript (name "sample") (str "sha256")]
                [])],
        assign (target "records")
          (call (name "sorted") [generatorExp
                                   (tuple [subscript (name "sample") (str "sample_id"),
                                           subscript (name "sample") (str "sha256")])
                                   [comprehension (target "sample")
                                      (subscript (name "inputs") (str "samples"))
                                      [compare (subscript (name "sample") (str "sha256")) [.In]
                                         [name "converted"]]]] []),
        assign (subscriptTarget (name "receipt") (str "converted_sample_count"))
          (call (name "len") [name "records"] []),
        assign (subscriptTarget (name "receipt") (str "converted_samples_sha256"))
          (call
             (attr
                (call (attr (name "hashlib") "sha256")
                   [call
                      (attr
                         (call (attr (name "json") "dumps") [name "records"]
                            [keyword "separators" (tuple [str ",", str ":"]),
                             keyword "ensure_ascii" trueValue]) "encode") [str "utf-8"] []] [])
                "hexdigest") [] []),
        exprStmt
          (call (name "print") [joinedStr [str "Gateway DINO image policy ",
                                           formatted (name "_RELAY_DINO_IMAGE_POLICY_ID"), str ": ",
                                           formatted (call (name "len") [name "records"] []),
                                           str
                                             " opaque RGBA samples read as RGB; original bytes preserved"]]
             [keyword "file" (attr (name "sys") "stderr"), keyword "flush" trueValue]),
        returnStmt (name "inputs")] [],
     functionDef "make_threshold_document"
       (arguments [arg "threshold", arg "calibration"] (arg "args") (arg "kwargs") [noneValue])
       [assign (target "calibration")
          (call (name "dict") [boolOp .Or [name "calibration", dict [] []]] []),
        assign (subscriptTarget (name "calibration") (str "gateway_image_policy"))
          (call (name "dict") [name "receipt"] []),
        returnStmt
          (call (name "make_threshold") [name "threshold", name "calibration",
                                         starred (name "args")] [doubleStarred (name "kwargs")])]
       [],
     assign (attrTarget (name "data") "decode_rgb")
       (call (attr (name "functools") "partial") [name "_relay_dino_decode_rgb", name "decode"]
          [keyword "converted" (name "converted")]),
     assign (attrTarget (name "remote_training") "validate_payload") (name "validate_payload"),
     assign (attrTarget (name "contract") "make_threshold_document")
       (name "make_threshold_document"),
     tryStmt [exprStmt (yieldValue absent)] [] []
       [assign (attrTarget (name "data") "decode_rgb") (name "decode"),
        assign (attrTarget (name "remote_training") "validate_payload") (name "validate"),
        assign (attrTarget (name "contract") "make_threshold_document") (name "make_threshold")]]
    [attr (name "contextlib") "contextmanager"]

/-- The statements of `dino_image_guard.py`. -/
def imageGuard : List Ast :=
  [exprStmt (str "Read opaque RGBA inputs without modifying the frozen submission."),
   importStmt [importAlias "contextlib"], importStmt [importAlias "functools"],
   importStmt [importAlias "hashlib"], importStmt [importAlias "json"],
   importStmt [importAlias "multiprocessing"], importFrom "pathlib" [importAlias "Path"] 0,
   importStmt [importAlias "sys"],
   assign (target "_RELAY_DINO_IMAGE_POLICY_ID") (str "dino_opaque_rgba_rgb_v1"), decodeRgb,
   imageScope]

/-- `_relay_dino_lower_threshold`. -/
def lowerThreshold : Ast :=
  functionDef "_relay_dino_lower_threshold"
    (arguments [arg "original", arg "normal_scores", arg "defect_scores", arg "policy_sha256"]
       absent absent []) [assign (tupleTarget [target "calibration", target "threshold"])
                            (call (name "original") [name "normal_scores", name "defect_scores"]
                               []),
                          assign (target "threshold") (call (name "float") [name "threshold"] []),
                          assign (target "scores")
                            (listComp (call (name "float") [name "value"] [])
                               [comprehension (target "group")
                                  (tuple [name "normal_scores", name "defect_scores"]) [],
                                comprehension (target "value") (name "group") []]),
                          ifStmt
                            (boolOp .Or [unaryOp .Not (name "scores"),
                                         unaryOp .Not
                                           (call (name "all")
                                              [generatorExp
                                                 (call (attr (name "math") "isfinite")
                                                    [name "value"] [])
                                                 [comprehension (target "value")
                                                    (listOf
                                                       [name "threshold", starred (name "scores")])
                                                    []]] [])])
                            [raiseStmt
                               (call (name "ValueError") [str
                                                            "DINO gateway threshold policy requires finite calibration scores"]
                                  []) absent] [],
                          assign (target "requested_margin")
                            (binOp (int 2) .Mult
                               (binOp (constant (.other "1e-05")) .Add
                                  (binOp (constant (.other "0.0001")) .Mult
                                     (call (name "abs") [name "threshold"] [])))),
                          assign (target "lower_scores")
                            (listComp (name "value") [comprehension (target "value") (name "scores")
                                                        [compare (name "value") [.Lt]
                                                           [name "threshold"]]]),
                          assign (target "lower_bound")
                            (ifExp (name "lower_scores")
                               (call (name "max") [name "lower_scores"] []) noneValue),
                          assign (target "effective")
                            (binOp (name "threshold") .Sub (name "requested_margin")),
                          ifStmt (compare (name "lower_bound") [.IsNot] [noneValue])
                            [assign (target "effective")
                               (call (name "max") [name "effective",
                                                   binOp (binOp (name "lower_bound") .Div (int 2))
                                                     .Add (binOp (name "threshold") .Div (int 2))]
                                  [])] [],
                          ifStmt
                            (boolOp .Or [unaryOp .Not
                                           (call (attr (name "math") "isfinite") [name "effective"]
                                              []),
                                         unaryOp .Not
                                           (compare (name "effective") [.Lt] [name "threshold"]),
                                         boolOp .And [compare (name "lower_bound") [.IsNot]
                                                        [noneValue],
                                                      unaryOp .Not
                                                        (compare (name "lower_bound") [.Lt]
                                                           [name "effective"])]])
                            [raiseStmt
                               (call (name "ValueError") [str
                                                            "DINO threshold has no representable lower margin preserving calibration labels"]
                                  []) absent] [],
                          ifStmt
                            (call (name "any") [generatorExp
                                                  (compare
                                                     (compare (name "value") [.GtE]
                                                        [name "threshold"]) [.NotEq]
                                                     [compare (name "value") [.GtE]
                                                        [name "effective"]])
                                                  [comprehension (target "value") (name "scores")
                                                     []]] [])
                            [raiseStmt
                               (call (name "ValueError") [str
                                                            "DINO gateway threshold policy would change calibration labels"]
                                  []) absent] [],
                          assign (target "calibration")
                            (call (name "dict") [name "calibration"] []),
                          assign
                            (subscriptTarget (name "calibration") (str "gateway_threshold_policy"))
                            (dict [str "id", str "source_sha256", str "base_runtime_sha256",
                                   str "original_threshold", str "effective_threshold",
                                   str "requested_margin", str "applied_margin",
                                   str "lower_calibration_score",
                                   str "calibration_labels_preserved"]
                               [name "_RELAY_DINO_POLICY_ID", name "policy_sha256",
                                name "_RELAY_DINO_RUNTIME", name "threshold", name "effective",
                                name "requested_margin",
                                binOp (name "threshold") .Sub (name "effective"),
                                name "lower_bound", trueValue]),
                          exprStmt
                            (call (name "print") [joinedStr
                                                    [str "Gateway DINO threshold policy ",
                                                     formatted (name "_RELAY_DINO_POLICY_ID"),
                                                     str ": ",
                                                     formattedAs (name "threshold")
                                                       (joinedStr [str ".17g"]), str " -> ",
                                                     formattedAs (name "effective")
                                                       (joinedStr [str ".17g"])]]
                               [keyword "file" (attr (name "sys") "stderr"),
                                keyword "flush" trueValue]),
                          returnStmt (tuple [name "calibration", name "effective"])] []

/-- `_relay_dino_worker_main`. -/
def workerMain : Ast :=
  functionDef "_relay_dino_worker_main" (arguments [] absent absent [])
    [importFrom "patchcore_dino_runtime.worker" [importAlias "verify_runtime"] 0,
     importFrom "patchcore_dino_runtime.calibration" [importAlias "score_contract"] 0,
     importFrom "patchcore_dino_runtime.remote_training" [importAlias "main"] 0,
     ifStmt (compare (call (name "verify_runtime") [] []) [.NotEq] [name "_RELAY_DINO_RUNTIME"])
       [raiseStmt
          (call (name "RuntimeError") [str "DINO gateway threshold policy runtime mismatch"] [])
          absent] [], assign (target "contract") (call (name "score_contract") [] []),
     assign (target "original") (attr (name "contract") "calibration_details"),
     assign (attrTarget (name "contract") "calibration_details")
       (call (attr (name "functools") "partial")
          [name "_relay_dino_lower_threshold", name "original"]
          [keyword "policy_sha256" (name "_RELAY_DINO_POLICY_SHA256")]),
     tryStmt [withStmt [withItem (call (name "_relay_dino_image_scope") [name "contract"] [])
                          absent] [returnStmt (call (name "main") [] [])]] [] []
       [assign (attrTarget (name "contract") "calibration_details") (name "original")]] []

/-- `_relay_dino_wrap_run`. -/
def wrapRun : Ast :=
  functionDef "_relay_dino_wrap_run" (arguments [arg "original"] absent absent [])
    [functionDef "run"
       (arguments [arg "dataset_root", arg "working_root", arg "config"] absent absent [])
       [importStmt [importAliasAs "patchcore_dino_runtime.kaggle_bootstrap" "bootstrap"],
        ifStmt
          (compare (call (attr (name "config") "get") [str "runtime_sha256"] []) [.NotEq]
             [name "_RELAY_DINO_RUNTIME"])
          [exprStmt
             (call (name "print") [str
                                     "Gateway DINO threshold policy skipped: unrecognized frozen runtime"]
                [keyword "flush" trueValue]),
           returnStmt
             (call (name "original") [name "dataset_root", name "working_root", name "config"] [])]
          [], assign (target "original_worker") (attr (name "bootstrap") "run_worker"),
        functionDef "run_worker" (arguments [arg "command"] absent (arg "kwargs") [])
          [ifStmt
             (compare (subscript (name "command") (slice (int 1) (int 6) absent)) [.NotEq]
                [listOf [str "-I", str "-X", str "utf8", str "-m",
                         str "patchcore_dino_runtime.remote_training"]])
             [raiseStmt
                (call (name "RuntimeError") [str
                                               "DINO threshold policy requires the isolated cloud worker entrypoint"]
                   []) absent] [],
           assign (target "command")
             (listOf [subscript (name "command") (int 0), str "-I", str "-X", str "utf8", str "-c",
                      name "_RELAY_DINO_WORKER_SOURCE",
                      starred (subscript (name "command") (slice (int 6) absent absent))]),
           returnStmt
             (call (name "original_worker") [name "command"] [doubleStarred (name "kwargs")])] [],
        assign (attrTarget (name "bootstrap") "run_worker") (name "run_worker"),
        tryStmt [returnStmt
                   (call (name "original") [name "dataset_root", name "working_root", name "config"]
                      [])] [] [] [assign (attrTarget (name "bootstrap") "run_worker")
                                    (name "original_worker")]]
       [call (attr (name "functools") "wraps") [name "original"] []], returnStmt (name "run")] []

/-- The statements of `dino_threshold_guard.py`. -/
def thresholdGuard : List Ast :=
  [exprStmt
     (str
        "Gateway calibration overlay, executed only in the submitted Kaggle worker.\n\nThe frozen wheel remains the base runtime. Its integrity checks still run;\nthe separate policy and its digest are recorded in the calibration receipt.\n"),
   importStmt [importAlias "functools"], importStmt [importAlias "math"],
   importStmt [importAlias "sys"],
   assign (target "_RELAY_DINO_POLICY_ID") (str "dino_f1_lower_margin_v1"),
   assign (target "_RELAY_DINO_RUNTIME")
     (str "d31e1303ff94dd205ea5a9438cfb3f5247aa4002a0af876b2bc06c6f5fe5a266"), lowerThreshold,
   workerMain, wrapRun]

/-- The lines of `dino_image_guard.py`. -/
def imageGuardLines : List String :=
  ["\"\"\"Read opaque RGBA inputs without modifying the frozen submission.\"\"\"\n",
    "\n",
    "import contextlib\n",
    "import functools\n",
    "import hashlib\n",
    "import json\n",
    "import multiprocessing\n",
    "from pathlib import Path\n",
    "import sys\n",
    "\n",
    "\n",
    "_RELAY_DINO_IMAGE_POLICY_ID = \"dino_opaque_rgba_rgb_v1\"\n",
    "\n",
    "\n",
    "def _relay_dino_decode_rgb(original, path, expected_sha256=None, *, converted):\n",
    "    import cv2\n",
    "    import numpy as np\n",
    "\n",
    "    path = Path(path)\n",
    "    if path.stat().st_size > 128 * 1024 * 1024:\n",
    "        raise ValueError(f\"image exceeds encoded byte budget: \x7bpath.name\x7d\")\n",
    "    raw = path.read_bytes()\n",
    "    digest = hashlib.sha256(raw).hexdigest()\n",
    "    if expected_sha256 is not None and digest != expected_sha256:\n",
    "        raise ValueError(f\"frozen image SHA-256 mismatch: \x7bpath.name\x7d\")\n",
    "    try:\n",
    "        image = cv2.imdecode(np.frombuffer(raw, dtype=np.uint8), cv2.IMREAD_UNCHANGED)\n",
    "    except cv2.error as exc:\n",
    "        raise ValueError(f\"image decoding failed: \x7bpath.name\x7d\") from exc\n",
    "    if image is None or image.dtype != np.uint8:\n",
    "        raise ValueError(f\"image must decode to 8-bit pixels: \x7bpath.name\x7d\")\n",
    "    if image.ndim == 3 and image.shape[2] == 4:\n",
    "        if not np.all(image[:, :, 3] == 255):\n",
    "            raise ValueError(f\"transparent or semitransparent RGBA is unsupported: \x7bpath.name\x7d\")\n",
    "        # Preserve the base decoder's IMREAD_COLOR orientation and RGB order.\n",
    "        color = cv2.imdecode(np.frombuffer(raw, dtype=np.uint8), cv2.IMREAD_COLOR)\n",
    "        if color is None:\n",
    "            raise ValueError(f\"RGB decoding failed: \x7bpath.name\x7d\")\n",
    "        converted.add(digest)\n",
    "        return cv2.cvtColor(color, cv2.COLOR_BGR2RGB)\n",
    "    try:\n",
    "        return original(path, expected_sha256)\n",
    "    except ValueError as exc:\n",
    "        raise ValueError(f\"\x7bexc\x7d: \x7bpath.name\x7d\") from exc\n",
    "\n",
    "\n",
    "@contextlib.contextmanager\n",
    "def _relay_dino_image_scope(contract):\n",
    "    from patchcore_dino_runtime import data, remote_training\n",
    "\n",
    "    decode = data.decode_rgb\n",
    "    validate = remote_training.validate_payload\n",
    "    make_threshold = contract.make_threshold_document\n",
    "    converted = set()\n",
    "    receipt = \x7b\n",
    "        \"id\": _RELAY_DINO_IMAGE_POLICY_ID,\n",
    "        \"source_sha256\": _RELAY_DINO_IMAGE_POLICY_SHA256,\n",
    "        \"base_runtime_sha256\": _RELAY_DINO_RUNTIME,\n",
    "        \"original_bytes_preserved\": True,\n",
    "        \"converted_sample_count\": 0,\n",
    "    \x7d\n",
    "\n",
    "    def validate_payload(*args, **kwargs):\n",
    "        inputs = validate(*args, **kwargs)\n",
    "        workers = inputs[\"request\"][\"training\"].get(\"workers\", 0)\n",
    "        if workers and multiprocessing.get_start_method() != \"fork\":\n",
    "            raise RuntimeError(\"DINO gateway image policy requires fork for DataLoader workers\")\n",
    "        converted.clear()\n",
    "        for sample in inputs[\"samples\"]:\n",
    "            data.decode_rgb(sample[\"path\"], sample[\"sha256\"])\n",
    "        records = sorted((sample[\"sample_id\"], sample[\"sha256\"]) for sample in inputs[\"samples\"]\n",
    "                         if sample[\"sha256\"] in converted)\n",
    "        receipt[\"converted_sample_count\"] = len(records)\n",
    "        receipt[\"converted_samples_sha256\"] = hashlib.sha256(\n",
    "            json.dumps(records, separators=(\",\", \":\"), ensure_ascii=True).encode(\"utf-8\")\n",
    "        ).hexdigest()\n",
    "        print(f\"Gateway DINO image policy \x7b_RELAY_DINO_IMAGE_POLICY_ID\x7d: \"\n",
    "              f\"\x7blen(records)\x7d opaque RGBA samples read as RGB; original bytes preserved\",\n",
    "              file=sys.stderr, flush=True)\n",
    "        return inputs\n",
    "\n",
    "    def make_threshold_document(threshold, calibration=None, *args, **kwargs):\n",
    "        calibration = dict(calibration or \x7b\x7d)\n",
    "        calibration[\"gateway_image_policy\"] = dict(receipt)\n",
    "        return make_threshold(threshold, calibration, *args, **kwargs)\n",
    "\n",
    "    data.decode_rgb = functools.partial(_relay_dino_decode_rgb, decode, converted=converted)\n",
    "    remote_training.validate_payload = validate_payload\n",
    "    contract.make_threshold_document = make_threshold_document\n",
    "    try:\n",
    "        yield\n",
    "    finally:\n",
    "        data.decode_rgb = decode\n",
    "        remote_training.validate_payload = validate\n",
    "        contract.make_threshold_document = make_threshold\n"]

/-- The lines of `dino_threshold_guard.py`. -/
def thresholdGuardLines : List String :=
  ["\"\"\"Gateway calibration overlay, executed only in the submitted Kaggle worker.\n",
    "\n",
    "The frozen wheel remains the base runtime. Its integrity checks still run;\n",
    "the separate policy and its digest are recorded in the calibration receipt.\n",
    "\"\"\"\n",
    "\n",
    "import functools\n",
    "import math\n",
    "import sys\n",
    "\n",
    "\n",
    "_RELAY_DINO_POLICY_ID = \"dino_f1_lower_margin_v1\"\n",
    "_RELAY_DINO_RUNTIME = \"d31e1303ff94dd205ea5a9438cfb3f5247aa4002a0af876b2bc06c6f5fe5a266\"\n",
    "\n",
    "\n",
    "def _relay_dino_lower_threshold(original, normal_scores, defect_scores, policy_sha256):\n",
    "    calibration, threshold = original(normal_scores, defect_scores)\n",
    "    threshold = float(threshold)\n",
    "    scores = [float(value) for group in (normal_scores, defect_scores) for value in group]\n",
    "    if not scores or not all(math.isfinite(value) for value in [threshold, *scores]):\n",
    "        raise ValueError(\"DINO gateway threshold policy requires finite calibration scores\")\n",
    "    # Twice the native verifier's absolute + relative score tolerance.\n",
    "    requested_margin = 2 * (1e-5 + 1e-4 * abs(threshold))\n",
    "    lower_scores = [value for value in scores if value < threshold]\n",
    "    lower_bound = max(lower_scores) if lower_scores else None\n",
    "    effective = threshold - requested_margin\n",
    "    if lower_bound is not None:\n",
    "        effective = max(effective, lower_bound / 2 + threshold / 2)\n",
    "    if (not math.isfinite(effective) or not effective < threshold\n",
    "            or (lower_bound is not None and not lower_bound < effective)):\n",
    "        raise ValueError(\"DINO threshold has no representable lower margin preserving calibration labels\")\n",
    "    if any((value >= threshold) != (value >= effective) for value in scores):\n",
    "        raise ValueError(\"DINO gateway threshold policy would change calibration labels\")\n",
    "    calibration = dict(calibration)\n",
    "    calibration[\"gateway_threshold_policy\"] = \x7b\n",
    "        \"id\": _RELAY_DINO_POLICY_ID,\n",
    "        \"source_sha256\": policy_sha256,\n",
    "        \"base_runtime_sha256\": _RELAY_DINO_RUNTIME,\n",
    "        \"original_threshold\": threshold,\n",
    "        \"effective_threshold\": effective,\n",
    "        \"requested_margin\": requested_margin,\n",
    "        \"applied_margin\": threshold - effective,\n",
    "        \"lower_calibration_score\": lower_bound,\n",
    "        \"calibration_labels_preserved\": True,\n",
    "    \x7d\n",
    "    print(f\"Gateway DINO threshold policy \x7b_RELAY_DINO_POLICY_ID\x7d: \"\n",
    "          f\"\x7bthreshold:.17g\x7d -> \x7beffective:.17g\x7d\", file=sys.stderr, flush=True)\n",
    "    return calibration, effective\n",
    "\n",
    "\n",
    "def _relay_dino_worker_main():\n",
    "    from patchcore_dino_runtime.worker import verify_runtime\n",
    "    from patchcore_dino_runtime.calibration import score_contract\n",
    "    from patchcore_dino_runtime.remote_training import main\n",
    "\n",
    "    if verify_runtime() != _RELAY_DINO_RUNTIME:\n",
    "        raise RuntimeError(\"DINO gateway threshold policy runtime mismatch\")\n",
    "    # score_contract verifies the original calibration source before loading it.\n",
    "    contract = score_contract()\n",
    "    original = contract.calibration_details\n",
    "    contract.calibration_details = functools.partial(\n",
    "        _relay_dino_lower_threshold, original, policy_sha256=_RELAY_DINO_POLICY_SHA256,\n",
    "    )\n",
    "    try:\n",
    "        with _relay_dino_image_scope(contract):\n",
    "            return main()\n",
    "    finally:\n",
    "        contract.calibration_details = original\n",
    "\n",
    "\n",
    "def _relay_dino_wrap_run(original):\n",
    "    @functools.wraps(original)\n",
    "    def run(dataset_root, working_root, config):\n",
    "        import patchcore_dino_runtime.kaggle_bootstrap as bootstrap\n",
    "\n",
    "        if config.get(\"runtime_sha256\") != _RELAY_DINO_RUNTIME:\n",
    "            print(\"Gateway DINO threshold policy skipped: unrecognized frozen runtime\", flush=True)\n",
    "            return original(dataset_root, working_root, config)\n",
    "        original_worker = bootstrap.run_worker\n",
    "\n",
    "        def run_worker(command, **kwargs):\n",
    "            # Keep the bootstrap's isolated interpreter, environment, request and\n",
    "            # output arguments. Only add the explicit calibration policy launcher.\n",
    "            if command[1:6] != [\"-I\", \"-X\", \"utf8\", \"-m\", \"patchcore_dino_runtime.remote_training\"]:\n",
    "                raise RuntimeError(\"DINO threshold policy requires the isolated cloud worker entrypoint\")\n",
    "            command = [command[0], \"-I\", \"-X\", \"utf8\", \"-c\", _RELAY_DINO_WORKER_SOURCE, *command[6:]]\n",
    "            return original_worker(command, **kwargs)\n",
    "\n",
    "        bootstrap.run_worker = run_worker\n",
    "        try:\n",
    "            return original(dataset_root, working_root, config)\n",
    "        finally:\n",
    "            bootstrap.run_worker = original_worker\n",
    "    return run\n"]

end Threshold

end KaggleRelay
