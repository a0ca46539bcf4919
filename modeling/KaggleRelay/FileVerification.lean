/-
Verifying an exact Dataset version file by file: the program.

`verifyVersionFiles` lists the version, compares the listing with the local
inventory, takes up the checkpoint, streams every file that is not verified
yet, marks it, and lists the version again.  The listing, the streams, the
clock and the interruption check answer as they like; the checkpoint is the
store of `VerificationState`.  Log lines are left out.
-/
import KaggleRelay.Prog
import KaggleRelay.VerificationState

namespace KaggleRelay

open Effects JsonText

/-! ### Operations -/

/-- An entry of a listing; `none` where an attribute has not the type the code
asks for. -/
structure RemoteFile where
  name : Option String
  totalBytes : Option ℤ
  deriving DecidableEq

/-- `next_page_token`: missing, a text, or some other value that is true. -/
inductive PageToken where
  | missing
  | text (token : String)
  | other
  deriving DecidableEq

/-- A response of `dataset_list_files`. -/
structure ListResponse where
  /-- `error_message` or `errorMessage` says something. -/
  error : Bool
  /-- `files`, or else `dataset_files`. -/
  files : Option (List RemoteFile)
  nextPageToken : PageToken
  deriving DecidableEq

/-- `ApiDownloadDatasetRequest`. -/
structure DownloadRequest where
  ownerSlug : String
  datasetSlug : String
  datasetVersionNumber : ℤ
  fileName : String
  deriving DecidableEq

/-- What a verification does to the outside. -/
inductive VerifyOp where
  /-- How many turns an endless loop gets. -/
  | turns
  /-- `time.monotonic()`. -/
  | monotonic
  /-- The `check` callback: interruption, cancellation, deadline. -/
  | check
  | datasetListFiles (targetRef : String) (pageToken : Option String)
  | uploadContentInventory (datasetDir : String) (actualNames : List String)
  | buildKaggleClient
  /-- `download_dataset(request)` and `raise_for_status()`. -/
  | downloadDataset (request : DownloadRequest)
  /-- The next block of `iter_content`, `none` at its end. -/
  | nextBlock (request : DownloadRequest)
  | load (binding : Binding) (expected : Inventory)
  | markFile (scope name : String) (value : ℕ × String)
  | markComplete (scope : String)

/-- The answers. -/
def VerifyOp.Res : VerifyOp → Type
  | .turns => ℕ
  | .monotonic => ℚ
  | .check => Except Exc Unit
  | .datasetListFiles _ _ => Except Exc ListResponse
  | .uploadContentInventory _ _ => Except Exc Inventory
  | .buildKaggleClient => Except Exc Unit
  | .downloadDataset _ => Except Exc Unit
  | .nextBlock _ => Except Exc (Option (List UInt8))
  | .load _ _ => Except Exc (String × Inventory)
  | .markFile _ _ _ => Except Exc Unit
  | .markComplete _ => Except Exc Unit

def VerifySig : Sig := ⟨VerifyOp, VerifyOp.Res⟩

/-- Programs that verify. -/
abbrev Verify (α : Type) := Eff VerifySig Exc α

namespace Verify

def turns : Verify ℕ := Eff.perform (S := VerifySig) .turns
def monotonic : Verify ℚ := Eff.perform (S := VerifySig) .monotonic
def check : Verify Unit := Prog.perform (S := VerifySig) .check
def datasetListFiles (targetRef : String) (pageToken : Option String) : Verify ListResponse :=
  Prog.perform (S := VerifySig) (.datasetListFiles targetRef pageToken)
def uploadContentInventory (datasetDir : String) (actualNames : List String) : Verify Inventory :=
  Prog.perform (S := VerifySig) (.uploadContentInventory datasetDir actualNames)
def buildKaggleClient : Verify Unit := Prog.perform (S := VerifySig) .buildKaggleClient
def downloadDataset (request : DownloadRequest) : Verify Unit :=
  Prog.perform (S := VerifySig) (.downloadDataset request)
def nextBlock (request : DownloadRequest) : Verify (Option (List UInt8)) :=
  Prog.perform (S := VerifySig) (.nextBlock request)
def load (binding : Binding) (expected : Inventory) : Verify (String × Inventory) :=
  Prog.perform (S := VerifySig) (.load binding expected)
def markFile (scope name : String) (value : ℕ × String) : Verify Unit :=
  Prog.perform (S := VerifySig) (.markFile scope name value)
def markComplete (scope : String) : Verify Unit :=
  Prog.perform (S := VerifySig) (.markComplete scope)

end Verify

/-- What the outside saw of a verification. -/
inductive VerifyEvent where
  | listed (targetRef : String) (pageToken : Option String) (response : ListResponse)
  | inventoried (datasetDir : String) (expected : Inventory)
  | opened (request : DownloadRequest)
  | block (request : DownloadRequest) (bytes : List UInt8)
  | ended (request : DownloadRequest)

/-- The store, and what has happened so far. -/
structure Verification where
  candidates : Candidates
  trace : List VerifyEvent

def Verification.log (w : Verification) (event : VerifyEvent) : Verification :=
  { w with trace := w.trace ++ [event] }

/-- An answer proposed for every operation. -/
abbrev VerifyOracle := (o : VerifyOp) → o.Res

variable (lib : Library)

/-- The store computes its answers; everything else answers as proposed. -/
def verifySem : Prog.Sem VerifySig VerifyOracle Verification
  | .load b expected, _, w =>
    let (r, rows) := load lib b expected w.candidates
    some (r, { w with candidates := rows })
  | .markFile scope name value, _, w =>
    let (r, rows) := markFile scope name value w.candidates
    some (r, { w with candidates := rows })
  | .markComplete scope, _, w =>
    let (r, rows) := markComplete scope w.candidates
    some (r, { w with candidates := rows })
  | .datasetListFiles targetRef pageToken, c, w =>
    match c (.datasetListFiles targetRef pageToken) with
    | .ok response => some (.ok response, w.log (.listed targetRef pageToken response))
    | .error e => some (.error e, w)
  | .uploadContentInventory dir names, c, w =>
    match c (.uploadContentInventory dir names) with
    | .ok expected => some (.ok expected, w.log (.inventoried dir expected))
    | .error e => some (.error e, w)
  | .downloadDataset request, c, w =>
    match c (.downloadDataset request) with
    | .ok () => some (.ok (), w.log (.opened request))
    | .error e => some (.error e, w)
  | .nextBlock request, c, w =>
    match c (.nextBlock request) with
    | .ok (some bytes) => some (.ok (some bytes), w.log (.block request bytes))
    | .ok none => some (.ok none, w.log (.ended request))
    | .error e => some (.error e, w)
  | .turns, c, w => some (c .turns, w)
  | .monotonic, c, w => some (c .monotonic, w)
  | .check, c, w => some (c .check, w)
  | .buildKaggleClient, c, w => some (c .buildKaggleClient, w)

/-! ### The program -/

/-- `not token`. -/
def PageToken.isEmpty : PageToken → Bool
  | .missing => true
  | .text t => t == ""
  | .other => false

/-- The token where it is a text. -/
def PageToken.text? : PageToken → Option String
  | .text t => some t
  | _ => none

/-- A name the listing may hold. -/
def validName (name : String) : Bool :=
  !(name == "" || Text.isIn "\\" name || Text.isIn ":" name ||
    (Text.split name '/').any fun p => p == "" || p == "." || p == "..")

/-- The entries of one page, added to the inventory; `names` are the casefolded
names so far. -/
def addFiles : List RemoteFile → Dict ℕ → List String → Except Exc (Dict ℕ × List String)
  | [], inventory, names => .ok (inventory, names)
  | item :: items, inventory, names =>
    match item.name, item.totalBytes with
    | some name, some (.ofNat size) =>
      if !validName name || names.contains (lib.casefold name) then
        .error (.valueError "payload_file_listing_invalid")
      else addFiles items (inventory.insert name size) (lib.casefold name :: names)
    | _, _ => .error (.valueError "payload_file_listing_invalid")

/-- The loop of `version_file_inventory`. -/
def listPages (targetRef : String) :
    ℕ → Option String → Dict ℕ → List String → List String → Verify (Dict ℕ)
  | 0, _, _, _, _ => Eff.hang
  | n + 1, token, inventory, names, tokens => do
    Verify.check
    let response ← Verify.datasetListFiles targetRef token
    Eff.raiseIf response.error (.valueError "payload_file_listing_failed")
    let files ← Eff.orRaise response.files (.valueError "payload_file_listing_missing")
    let (inventory, names) ← Eff.lift (addFiles lib files inventory names)
    Eff.raiseIf (inventory.size > 100000) (.valueError "payload_file_listing_limit")
    if response.nextPageToken.isEmpty then
      Eff.raiseIf inventory.isEmpty (.versionNotReady "payload_file_listing_empty")
      pure inventory
    else
      let t ← Eff.orRaise response.nextPageToken.text?
        (.valueError "payload_file_listing_pagination_loop")
      Eff.raiseIf (t ∈ tokens) (.valueError "payload_file_listing_pagination_loop")
      listPages targetRef n (some t) inventory names (t :: tokens)

/-- `version_file_inventory`. -/
def versionFileInventory (targetRef : String) : Verify (Dict ℕ) := do
  let turns ← Verify.turns
  listPages lib targetRef turns none ∅ [] []

/-- The blocks of one file, no more of them than it may have bytes. -/
def readBody (request : DownloadRequest) (size : ℕ) : ℕ → List UInt8 → Verify (List UInt8)
  | 0, _ => Eff.hang
  | n + 1, received => do
    match ← Verify.nextBlock request with
    | none => pure received
    | some block =>
      Verify.check
      let received := received ++ block
      Eff.raiseIf (received.length > size) (.valueError "payload_size_mismatch")
      readBody request size n received

def fileBatchLimit : ℕ := 64

def fileBatchSeconds : ℚ := 120

def progressRecheckSeconds : ℚ := 15

/-- `VerificationDeferred` at the end of a background batch. -/
def batchPending (verified expected : ℕ) : Exc :=
  ⟨.verificationDeferred progressRecheckSeconds false,
    "dataset_verification_batch_pending: verified " ++ intText verified ++ "/" ++ intText expected ++
      " files; original version retained"⟩

/-- A background batch ends after 64 files or two minutes. -/
def batchDue (background : Bool) (started : ℚ) (checked : ℕ) (verified expected : ℕ) :
    Verify Unit := do
  if background then
    let now ← Verify.monotonic
    Eff.raiseIf (checked ≥ fileBatchLimit ∨ now - started ≥ fileBatchSeconds)
      (batchPending verified expected)

/-- One file streamed and compared with its expected size and digest. -/
def verifyFile (request : DownloadRequest) (value : ℕ × String) : Verify Unit := do
  Verify.downloadDataset request
  let turns ← Verify.turns
  let received ← readBody request value.1 turns []
  Eff.raiseIf (received.length ≠ value.1) (.valueError "payload_size_mismatch")
  Eff.raiseIf (lib.sha256 received ≠ value.2) (.valueError "payload_digest_mismatch")

/-- The loop over the expected files, in the order of their names. -/
def verifyFiles (owner slug : String) (version : ℤ) (scope : String) (background : Bool)
    (started : ℚ) (total : ℕ) : List (String × (ℕ × String)) → Inventory → ℕ → Verify Unit
  | [], _, _ => pure ()
  | (name, value) :: rest, verified, checked => do
    Verify.check
    if verified.contains name then
      verifyFiles owner slug version scope background started total rest verified checked
    else
      batchDue background started checked verified.size total
      verifyFile lib ⟨owner, slug, version, name⟩ value
      Verify.markFile scope name value
      verifyFiles owner slug version scope background started total rest
        (verified.insert name value) (checked + 1)

/-- `DatasetVersionNotReady("payload_inventory_mismatch ...")`. -/
def inventoryMismatch (version : ℤ) (expected actual : List String) : Exc :=
  let missing := expected.filter (!actual.contains ·)
  let extra := actual.filter (!expected.contains ·)
  .versionNotReady ("payload_inventory_mismatch " ++ dumps .spaced (.obj [
    ("version", .int version), ("expected_files", .int expected.length),
    ("actual_files", .int actual.length), ("missing_count", .int missing.length),
    ("unexpected_count", .int extra.length), ("missing_sample", .arr ((missing.take 3).map .str)),
    ("unexpected_sample", .arr ((extra.take 3).map .str))]))

/-- `DatasetVersionNotReady("payload_size_mismatch ...")`; the items are a
name, the expected and the actual size. -/
def sizeMismatch (version : ℤ) (wrong : List (String × ℕ × ℕ)) : Exc :=
  .versionNotReady ("payload_size_mismatch " ++ dumps .spaced (.obj [
    ("version", .int version), ("count", .int wrong.length),
    ("sample", .arr ((wrong.take 3).map fun w => .arr [.str w.1, .int w.2.1, .int w.2.2]))]))

/-- `owner, slug = dataset_ref.split("/")`. -/
def ownerAndSlug (datasetRef : String) : Except Exc (String × String) :=
  match Text.split datasetRef '/' with
  | [owner, slug] => .ok (owner, slug)
  | [_] => .error (.valueError "not enough values to unpack (expected 2, got 1)")
  | _ => .error (.valueError "too many values to unpack (expected 2)")

/-- `f"{dataset_ref}/{version_number}"`. -/
def targetRef (datasetRef : String) (version : ℤ) : String :=
  datasetRef ++ "/" ++ intText version

/-- The names whose listed size is not the expected one, with both sizes. -/
def wrongSizes (expected : Inventory) (actual : Dict ℕ) : List (String × ℕ × ℕ) :=
  expected.toList.filterMap fun item =>
    if actual[item.1]? = some item.2.1 then none
    else some (item.1, item.2.1, (actual[item.1]?).getD 0)

/-- `verify_version_files`. -/
def verifyVersionFiles (b : Binding) (background : Bool) : Verify String := do
  Eff.raiseIf (b.version ≤ 0) (.valueError "payload_version_invalid")
  let (owner, slug) ← Eff.lift (ownerAndSlug b.datasetRef)
  let actual ← versionFileInventory lib (targetRef b.datasetRef b.version)
  let expected ← Verify.uploadContentInventory b.datasetDir actual.keys
  Eff.raiseIf (actual.keys ≠ expected.keys)
    (inventoryMismatch b.version expected.keys actual.keys)
  Eff.raiseIf (wrongSizes expected actual ≠ [])
    (sizeMismatch b.version (wrongSizes expected actual))
  let (scope, verified) ← Verify.load b expected
  let started ← Verify.monotonic
  Verify.buildKaggleClient
  verifyFiles lib owner slug b.version scope background started expected.size expected.toList
    verified 0
  let last ← versionFileInventory lib (targetRef b.datasetRef b.version)
  Eff.raiseIf (last ≠ actual) (.versionNotReady "payload_file_listing_changed")
  pure scope

end KaggleRelay
