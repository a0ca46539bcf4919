/-
The transport package of a DINO v3 run.

The manifest is read once, checked, and goes into the package as it was read;
the thirteen files it lists are hashed while they are copied.

* `checkDocument` — everything that is asked of the manifest;
* `readTransportManifest`, `packageArtifacts` — the functions of the source;
* `package_artifacts_exact` — a package holds what the checked manifest says,
  whatever happens to the files meanwhile, and otherwise the destination is
  left alone.
-/
import Mathlib.Data.List.Forall2
import KaggleRelay.KernelMetadata
import KaggleRelay.Packaging

namespace KaggleRelay

open Effects JsonText

/-- The elements of a list that a partial function maps as a whole. -/
theorem forall₂_of_mapM {α β : Type} {f : α → Option β} :
    ∀ {items : List α} {rows : List β}, items.mapM f = some rows →
      List.Forall₂ (fun item row => f item = some row) items rows
  | [], rows, h => by
    rw [List.mapM_nil] at h
    cases h
    exact .nil
  | item :: items, rows, h => by
    rw [List.mapM_cons] at h
    obtain ⟨row, hrow, h⟩ := Option.bind_eq_some_iff.mp h
    obtain ⟨rest, hrest, h⟩ := Option.bind_eq_some_iff.mp h
    cases h
    exact .cons hrow (forall₂_of_mapM hrest)

/-- A row of an inventory. -/
structure FileRow where
  path : String
  size : ℕ
  sha256 : String
  deriving DecidableEq

/-- `re.fullmatch(r"[0-9a-f]{64}", text)`. -/
def isSha256Hex (text : String) : Bool :=
  text.length == 64 && text.toList.all fun c =>
    (48 ≤ c.toNat && c.toNat ≤ 57) || (97 ≤ c.toNat && c.toNat ≤ 102)

namespace Dino

open Packager

def manifestName : String := "training_artifacts.json"

def artifactSubdir : String := "artifacts"

/-- `IDENTITY_FIELDS`. -/
def identityFields : List String :=
  ["dataset_id", "identity_sha256", "run_id", "run_identity_sha256"]

/-- `REQUIRED_FILES`. -/
def requiredFiles : List String :=
  ["model.ckpt", "threshold.json", "metrics.json", "runtime_result.json", "resolved_spec.json",
    "runtime.json", "environment.json", "anomaly_metrics.json", "com_dinov2_small.pt",
    "native_candidate.json", "pt_export.json", "pt_verification.json", "source_artifacts.json"]

/-- What the manifest has to say, besides its schema version. -/
def fixedFields : List (String × String) :=
  [("artifact_format", "vision_workshop_dinov2_artifacts_v3"), ("backend", "patchcore"),
    ("task", "anomaly"), ("implementation", "anomalib"), ("anomalib_version", "2.2.0"),
    ("training_status", "completed"), ("export_status", "PASS"),
    ("pt_model_path", "com_dinov2_small.pt"), ("pt_export_path", "pt_export.json"),
    ("verification_path", "pt_verification.json"),
    ("source_artifact_manifest_path", "source_artifacts.json")]

/-- `document.get(key) == text`. -/
def fieldIs (document : JsonObject) (key text : String) : Bool :=
  match getField document key with
  | some (.str value) => value == text
  | _ => false

/-- `type(document.get(key)) is int`, and what it is. -/
def intIs (document : JsonObject) (key : String) (value : ℤ) : Bool :=
  match getField document key with
  | some (.int z) => z == value
  | _ => false

/-- An entry of the inventory that passes its checks. -/
def parseRow : Json → Option FileRow
  | .obj fields =>
    match getField fields "path", getField fields "size", getField fields "sha256" with
    | some (.str path), some (.int size), some (.str sha256) =>
      if fields.length = 3 ∧ path ∈ requiredFiles ∧ 1 ≤ size ∧ isSha256Hex sha256 then
        some ⟨path, size.toNat, sha256⟩
      else none
    | _, _, _ => none
  | _ => none

/-- `json.dumps(rows, sort_keys=True, separators=(",", ":"))`. -/
def rowsText (rows : List FileRow) : String :=
  dumps .compact (.arr (rows.map fun row =>
    .obj [("path", .str row.path), ("sha256", .str row.sha256), ("size", .int row.size)]))

/-- The identity a job froze; `None` where the argument is no dict. -/
abbrev ExpectedIdentity := Option JsonObject

/-- The value of a frozen field, where it is a text that is not blank. -/
def expectedText (expected : JsonObject) (key : String) : Option String :=
  match getField expected key with
  | some (.str value) => if Text.strip value = "" then none else some value
  | _ => none

/-- The checks of the inventory. -/
def checkRows (lib : Library) (document : JsonObject) (items : List Json) :
    Except Exc (List FileRow) :=
  match items.mapM parseRow with
  | none => .error (.archiveError "invalid DINO artifact inventory entry")
  | some rows =>
    if ¬(∀ name ∈ requiredFiles, name ∈ rows.map FileRow.path) ∨
        rows ≠ rows.insertionSort (fun a b => a.path ≤ b.path) then
      .error (.archiveError "DINO artifact inventory duplicate or unsorted")
    else if fieldIs document "artifact_set_sha256" (lib.sha256Text (rowsText rows)) = false then
      .error (.archiveError "DINO artifact inventory hash mismatch")
    else .ok rows

/-- The checks of the document, up to the sizes of the files. -/
def checkDocument (lib : Library) (expectedIdentity : ExpectedIdentity) :
    Json → Except Exc (List FileRow)
  | .obj document =>
    if ¬(intIs document "schema_version" 3 ∧ fixedFields.all fun f => fieldIs document f.1 f.2) then
      .error (.archiveError "DINO manifest format/status mismatch")
    else
      match expectedIdentity with
      | none => .error (.archiveError "DINO transport requires frozen job identity")
      | some expected =>
        match identityFields.find? fun key =>
            !(expectedText expected key).any (fieldIs document key ·) with
        | some key => .error (.archiveError ("DINO frozen job identity mismatch: " ++ key))
        | none =>
          match getField document "artifacts" with
          | some (.arr items) =>
            if items.length ≠ requiredFiles.length then
              .error (.archiveError "DINO artifact inventory incomplete")
            else checkRows lib document items
          | _ => .error (.archiveError "DINO artifact inventory incomplete")
  | _ => .error (.archiveError "DINO manifest format/status mismatch")

/-- `_plain_file`. -/
def plainFile (name : String) : Packager Unit := do
  let ok ← regular name
  Eff.raiseIf (ok = false)
    (.archiveError ("DINO required regular root file missing or unsafe: " ++ name))

/-- The last loop of `read_transport_manifest`. -/
def checkSizes : List FileRow → Packager Unit
  | [] => pure ()
  | row :: rows => do
    plainFile row.path
    let size ← statSize row.path
    Eff.raiseIf (size ≠ row.size) (.archiveError ("DINO artifact size mismatch: " ++ row.path))
    checkSizes rows

variable (lib : Library) (loads : Bytes → Option Json) (expectedIdentity : ExpectedIdentity)

/-- What `json.loads` and the checks make of the bytes of a manifest. -/
def checkManifest (raw : Bytes) : Except Exc (List FileRow) :=
  if 1048576 < raw.length then .error (.archiveError "DINO manifest exceeds 1 MiB")
  else
    match loads raw with
    | none => .error (.archiveError "invalid DINO transport manifest")
    | some document => checkDocument lib expectedIdentity document

/-- `read_transport_manifest`. -/
def readTransportManifest : Packager (Bytes × List FileRow) := do
  let safe ← safeRoot
  Eff.raiseIf (safe = false) (.archiveError "unsafe DINO output directory")
  plainFile manifestName
  let raw ← readUpTo manifestName 1048577
  let rows ← Eff.lift (checkManifest lib loads expectedIdentity raw)
  checkSizes rows
  pure (raw, rows)

/-- The bytes of a file agree with its row. -/
def FileRow.Matches (row : FileRow) (bytes : Bytes) : Prop :=
  bytes.length = row.size ∧ lib.sha256 bytes = row.sha256

instance (row : FileRow) (bytes : Bytes) : Decidable (FileRow.Matches lib row bytes) :=
  inferInstanceAs (Decidable (_ ∧ _))

/-- The body of the loop over the rows. -/
def packRow (row : FileRow) : Packager Unit := do
  checkFree (.int row.size)
  plainFile row.path
  openSource row.path
  openMember (artifactSubdir ++ "/" ++ row.path)
  let copied ← Packager.copyBlocks row.path row.size
    (.archiveError ("DINO artifact grew during packaging: " ++ row.path)) []
  closeMember
  Eff.raiseIf (¬FileRow.Matches lib row copied)
    (.archiveError ("DINO artifact hash/size mismatch: " ++ row.path))

def packRows : List FileRow → Packager Unit
  | [] => pure ()
  | row :: rows => do
    packRow lib row
    packRows rows

/-- What is done with the temporary file. -/
def packArchive (manifest : Bytes) (rows : List FileRow) : Packager Unit := do
  openZip
  packRows lib rows
  checkFree (.int manifest.length)
  openMember (artifactSubdir ++ "/" ++ manifestName)
  write manifest
  closeMember
  closeZip
  Packager.replace

/-- `package_artifacts`. -/
def packageArtifacts : Packager Unit := do
  let (manifest, rows) ← readTransportManifest lib loads expectedIdentity
  atomically (packArchive lib manifest rows)

/-! ### What an accepted manifest lists -/

variable {lib loads expectedIdentity}

theorem rows_of_checkRows {document : JsonObject} {items : List Json} {rows : List FileRow}
    (h : checkRows lib document items = .ok rows) :
    items.mapM parseRow = some rows ∧ ∀ name ∈ requiredFiles, name ∈ rows.map FileRow.path := by
  unfold checkRows at h
  split at h
  · cases h
  · next parsed hparsed =>
    split at h
    · cases h
    split at h
    · cases h
    next hchecks _ =>
    cases h
    exact ⟨hparsed, not_not.mp fun hall => hchecks (.inl hall)⟩

/-- An accepted document has as many entries as there are required files. -/
theorem items_of_checkDocument {document : Json} {rows : List FileRow}
    (h : checkDocument lib expectedIdentity document = .ok rows) :
    ∃ fields items, checkRows lib fields items = .ok rows ∧
      items.length = requiredFiles.length := by
  unfold checkDocument at h
  split at h
  · next fields =>
    split at h
    · cases h
    split at h
    · cases h
    split at h
    · cases h
    split at h
    · next items _ =>
      split at h
      · cases h
      · next hlength => exact ⟨fields, items, h, not_not.mp hlength⟩
    · cases h
  · cases h

/-- The rows of an accepted document are those of the required files. -/
theorem paths_of_checkDocument {document : Json} {rows : List FileRow}
    (h : checkDocument lib expectedIdentity document = .ok rows) :
    (rows.map FileRow.path).Perm requiredFiles := by
  obtain ⟨fields, items, hrows, hitems⟩ := items_of_checkDocument h
  obtain ⟨hparsed, hall⟩ := rows_of_checkRows hrows
  have hlength : (rows.map FileRow.path).length = requiredFiles.length := by
    rw [List.length_map, ← hitems, (forall₂_of_mapM hparsed).length_eq]
  have hnodup : requiredFiles.Nodup := by decide
  -- as many paths as there are names, and every name among them
  exact ((List.subperm_of_subset hnodup hall).perm_of_length_le hlength.le).symm

theorem paths_of_checkManifest {raw : Bytes} {rows : List FileRow}
    (h : checkManifest lib loads expectedIdentity raw = .ok rows) :
    (rows.map FileRow.path).Perm requiredFiles := by
  unfold checkManifest at h
  split at h
  · cases h
  split at h
  · cases h
  · exact paths_of_checkDocument h

/-! ### The package -/

/-- A member of the package, and the row it was copied for. -/
def Packed (lib : Library) (row : FileRow) (member : String × Bytes) : Prop :=
  member.1 = artifactSubdir ++ "/" ++ row.path ∧ FileRow.Matches lib row member.2

section Rules

variable {d : Option Packaging.Content} {members : List (String × Bytes)} {w : Packaging.World}

open Packaging

theorem uses_plainFile (name : String) :
    Uses Looks (plainFile name : Prog FileSig (Except Exc Unit)) :=
  Uses.seq (Uses.perform trivial) fun _ => Uses.pure _

theorem uses_checkSizes (rows : List FileRow) :
    Uses Looks (checkSizes rows : Prog FileSig (Except Exc Unit)) := by
  induction rows with
  | nil => trivial
  | cons row rows ih =>
    refine Uses.seq (uses_plainFile row.path) fun _ => ?_
    exact Uses.seq (Uses.perform trivial) fun _ => Uses.seq (Uses.pure _) fun _ => ih

/-- A file that has been copied agrees with its row. -/
theorem safe_packRow {row : FileRow} (hw : At d (some members) w) :
    Safe sem (fun _ => True)
      (post (fun _ w' => ∃ member, At d (some (members ++ [member])) w' ∧ Packed lib row member)
        fun _ w' => w'.destination = d)
      (packRow lib row) w := by
  rw [packRow]
  have hlooks : ∀ {p : Packager Unit} {w : World}, Uses Looks p → At d (some members) w →
      Safe sem (fun _ => True)
        (post (fun _ w' => At d (some members) w') fun _ w' => w'.destination = d) p w :=
    fun hp hw => safe_looks hp hw
  refine Safe.seq (hlooks (Uses.perform trivial) hw) ?_
  intro _ w₁ hw₁
  refine Safe.seq (hlooks (uses_plainFile row.path) hw₁) ?_
  intro _ w₂ hw₂
  refine Safe.seq (hlooks (Uses.perform trivial) hw₂) ?_
  intro _ w₃ hw₃
  refine Safe.seq (safe_openMember _ hw₃) ?_
  intro _ w₄ hw₄
  refine Safe.seq (safe_copyBlocks hw₄) ?_
  intro bytes w₅ hw₅
  have hclose : Safe sem (fun _ => True)
      (post (fun _ w' => At d (some (members ++ [(artifactSubdir ++ "/" ++ row.path, bytes)])) w')
        fun _ w' => w'.destination = d) closeMember w₅ :=
    safe_looks (Uses.perform trivial) hw₅
  refine Safe.seq hclose ?_
  intro _ w₆ hw₆
  refine Safe.mono (Safe.raiseIf (E := fun _ w' => w'.destination = d) fun _ => hw₆.1) ?_
  rintro (e | _) w' h
  · exact h
  · obtain ⟨hmatches, rfl⟩ := h
    exact ⟨_, hw₆, rfl, not_not.mp hmatches⟩

theorem safe_packRows {rows : List FileRow} (hw : At d (some members) w) :
    Safe sem (fun _ => True)
      (post (fun _ w' => ∃ packed, At d (some (members ++ packed)) w' ∧
          List.Forall₂ (Packed lib) rows packed)
        fun _ w' => w'.destination = d)
      (packRows lib rows) w := by
  induction rows generalizing members w with
  | nil => exact ⟨[], by rw [List.append_nil]; exact hw, .nil⟩
  | cons row rows ih =>
    rw [packRows]
    refine Safe.seq (safe_packRow hw) ?_
    rintro _ w₁ ⟨member, hw₁, hmember⟩
    refine Safe.mono (ih hw₁) ?_
    rintro (e | _) w' h
    · exact h
    · obtain ⟨packed, hw', hpacked⟩ := h
      rw [List.append_assoc] at hw'
      exact ⟨member :: packed, hw', .cons hmember hpacked⟩

/-- What a package holds: the files of the rows, and the manifest as it was
read. -/
def Holds (lib : Library) (manifest : Bytes) (rows : List FileRow) (d : Option Content) : Prop :=
  ∃ members, List.Forall₂ (Packed lib) rows members ∧
    d = some (.zip (members ++ [(artifactSubdir ++ "/" ++ manifestName, manifest)]))

theorem safe_packArchive {manifest : Bytes} {rows : List FileRow} (hw : At d (some []) w) :
    Safe sem (fun _ => True)
      (post (fun _ w' => Holds lib manifest rows w'.destination) fun _ w' => w'.destination = d)
      (packArchive lib manifest rows) w := by
  rw [packArchive]
  have hopen : Safe sem (fun _ => True)
      (post (fun _ w' => At d (some []) w') fun _ w' => w'.destination = d) openZip w :=
    safe_looks (Uses.perform trivial) hw
  refine Safe.seq hopen ?_
  intro _ w₁ hw₁
  refine Safe.seq (safe_packRows hw₁) ?_
  rintro _ w₂ ⟨packed, hw₂, hpacked⟩
  rw [List.nil_append] at hw₂
  have hfree : Safe sem (fun _ => True)
      (post (fun _ w' => At d (some packed) w') fun _ w' => w'.destination = d)
      (checkFree (.int manifest.length)) w₂ :=
    safe_looks (Uses.perform trivial) hw₂
  refine Safe.seq hfree ?_
  intro _ w₃ hw₃
  refine Safe.seq (safe_openMember _ hw₃) ?_
  intro _ w₄ hw₄
  refine Safe.seq (safe_write manifest hw₄) ?_
  intro _ w₅ hw₅
  rw [List.nil_append] at hw₅
  have hclose : ∀ {p : Packager Unit} {w : World}, Uses Looks p →
      At d (some (packed ++ [(artifactSubdir ++ "/" ++ manifestName, manifest)])) w →
      Safe sem (fun _ => True)
        (post (fun _ w' => At d
            (some (packed ++ [(artifactSubdir ++ "/" ++ manifestName, manifest)])) w')
          fun _ w' => w'.destination = d) p w :=
    fun hp hw => safe_looks hp hw
  refine Safe.seq (hclose (Uses.perform trivial) hw₅) ?_
  intro _ w₆ hw₆
  refine Safe.seq (hclose (Uses.perform trivial) hw₆) ?_
  intro _ w₇ hw₇
  refine Safe.mono (safe_replace hw₇) ?_
  rintro (e | _) w' h
  · exact h
  · exact ⟨packed, hpacked, h⟩

/-- The manifest that has been read has been checked, and the read is on
record. -/
theorem safe_readTransportManifest (hw : At d none w) :
    Safe sem (fun _ => True)
      (post (fun r w' => At d none w' ∧ (∃ older, (manifestName, r.1) :: older <:+ w'.reads) ∧
          checkManifest lib loads expectedIdentity r.1 = .ok r.2)
        fun _ w' => At d none w')
      (readTransportManifest lib loads expectedIdentity) w := by
  rw [readTransportManifest]
  have hraise : ∀ {c : Prop} [Decidable c] {e : Exc} {w : World}, At d none w →
      Safe sem (fun _ => True) (post (fun _ w' => At d none w') fun _ w' => At d none w')
        (Eff.raiseIf c e : Packager Unit) w :=
    fun hw => safe_looks_at (Uses.pure _) hw
  have hsafe : Safe sem (fun _ => True)
      (post (fun _ w' => At d none w') fun _ w' => At d none w') safeRoot w :=
    safe_looks_at (Uses.perform trivial) hw
  refine Safe.seq hsafe ?_
  intro safe w₁ hw₁
  refine Safe.seq (hraise hw₁) ?_
  intro _ w₂ hw₂
  have hplain : Safe sem (fun _ => True)
      (post (fun _ w' => At d none w') fun _ w' => At d none w') (plainFile manifestName) w₂ :=
    safe_looks_at (uses_plainFile _) hw₂
  refine Safe.seq hplain ?_
  intro _ w₃ hw₃
  refine Safe.seq (safe_readUpTo manifestName 1048577 hw₃) ?_
  rintro raw w₄ ⟨hw₄, hraw⟩
  have hcheck : Safe sem (fun _ => True)
      (post (fun rows w' => checkManifest lib loads expectedIdentity raw = .ok rows ∧ w' = w₄)
        fun _ w' => At d none w')
      (Eff.lift (checkManifest lib loads expectedIdentity raw) : Packager _) w₄ :=
    Safe.lift (fun _ hrows => ⟨hrows, rfl⟩) fun _ _ => hw₄
  refine Safe.seq hcheck ?_
  rintro rows w₅ ⟨hrows, rfl⟩
  have hsuffix : (manifestName, raw) :: w₃.reads <:+ w₅.reads := by rw [hraw]
  refine Safe.seq (safe_looks_read (uses_checkSizes rows) hw₄ hsuffix) ?_
  rintro _ w₆ ⟨hw₆, hread⟩
  exact ⟨hw₆, ⟨_, hread⟩, hrows⟩

/-- A run that returns has published what a manifest it has read lists; one
that raises has changed nothing. -/
theorem safe_packageArtifacts (hw : At d none w) :
    Safe sem (fun _ => True)
      (post (fun _ w' => (∃ raw rows, (manifestName, raw) ∈ w'.reads ∧
            checkManifest lib loads expectedIdentity raw = .ok rows ∧
            Holds lib raw rows w'.destination) ∧ w'.temporary = none)
        fun _ w' => At d none w')
      (packageArtifacts lib loads expectedIdentity) w := by
  rw [packageArtifacts]
  refine Safe.seq (safe_readTransportManifest hw) ?_
  rintro ⟨raw, rows⟩ w₁ ⟨hw₁, ⟨older, hread⟩, hrows⟩
  have hbody : Safe sem (fun _ => True)
      (post (fun _ w' => Holds lib raw rows w'.destination ∧ w'.temporary = none)
        fun _ w' => At d none w')
      (atomically (packArchive lib raw rows)) w₁ :=
    safe_atomically (Q := fun _ d _ => Holds lib raw rows d) hw₁ fun _ hw => safe_packArchive hw
  refine Safe.mono (Safe.and hbody (safe_reads hread _)) ?_
  rintro (e | _) w' ⟨h, hread'⟩
  · exact h
  · exact ⟨⟨raw, rows, hread'.mem List.mem_cons_self, hrows, h.1⟩, h.2⟩

end Rules

/-! ### Runs -/

section Runs

open Packaging

theorem bounded_plainFile (name : String) : Bounded (fun _ => True) (plainFile name) :=
  Bounded.seq ⟨Uses.perform trivial, Ends.perform _⟩ fun _ => ⟨trivial, trivial⟩

theorem bounded_checkSizes (rows : List FileRow) : Bounded (fun _ => True) (checkSizes rows) := by
  induction rows with
  | nil => exact ⟨trivial, trivial⟩
  | cons row rows ih =>
    refine Bounded.seq (bounded_plainFile _) fun _ => ?_
    refine Bounded.seq ⟨Uses.perform trivial, Ends.perform _⟩ fun _ => ?_
    exact Bounded.seq ⟨trivial, trivial⟩ fun _ => ih

theorem bounded_packRow (row : FileRow) : Bounded (fun _ => True) (packRow lib row) := by
  refine Bounded.seq ⟨Uses.perform trivial, Ends.perform _⟩ fun _ => ?_
  refine Bounded.seq (bounded_plainFile _) fun _ => ?_
  refine Bounded.seq ⟨Uses.perform trivial, Ends.perform _⟩ fun _ => ?_
  refine Bounded.seq ⟨Uses.perform trivial, Ends.perform _⟩ fun _ => ?_
  refine Bounded.seq (bounded_copyBlocks _ _ _ _ trivial fun _ => trivial) fun _ => ?_
  exact Bounded.seq ⟨Uses.perform trivial, Ends.perform _⟩ fun _ => ⟨trivial, trivial⟩

theorem bounded_packRows (rows : List FileRow) : Bounded (fun _ => True) (packRows lib rows) := by
  induction rows with
  | nil => exact ⟨trivial, trivial⟩
  | cons row rows ih => exact Bounded.seq (bounded_packRow row) fun _ => ih

theorem bounded_readTransportManifest :
    Bounded (fun _ => True) (readTransportManifest lib loads expectedIdentity) := by
  refine Bounded.seq ⟨Uses.perform trivial, Ends.perform _⟩ fun _ => ?_
  refine Bounded.seq ⟨trivial, trivial⟩ fun _ => Bounded.seq (bounded_plainFile _) fun _ => ?_
  refine Bounded.seq ⟨Uses.perform trivial, Ends.perform _⟩ fun raw => ?_
  refine Bounded.seq ⟨trivial, trivial⟩ fun rows => ?_
  exact Bounded.seq (bounded_checkSizes rows) fun _ => ⟨trivial, trivial⟩

theorem ends_packageArtifacts (lib : Library) (loads : Bytes → Option Json)
    (expectedIdentity : ExpectedIdentity) :
    Ends (packageArtifacts lib loads expectedIdentity : Prog FileSig (Except Exc Unit)) := by
  have hbounded : Bounded (fun _ => True) (packageArtifacts lib loads expectedIdentity) := by
    refine Bounded.seq bounded_readTransportManifest fun r => ?_
    refine bounded_atomically ?_ trivial trivial trivial
    refine Bounded.seq ⟨Uses.perform trivial, Ends.perform _⟩ fun _ => ?_
    refine Bounded.seq (bounded_packRows r.2) fun _ => ?_
    refine Bounded.seq ⟨Uses.perform trivial, Ends.perform _⟩ fun _ => ?_
    refine Bounded.seq ⟨Uses.perform trivial, Ends.perform _⟩ fun _ => ?_
    refine Bounded.seq ⟨Uses.perform trivial, Ends.perform _⟩ fun _ => ?_
    refine Bounded.seq ⟨Uses.perform trivial, Ends.perform _⟩ fun _ => ?_
    refine Bounded.seq ⟨Uses.perform trivial, Ends.perform _⟩ fun _ => ?_
    exact ⟨Uses.perform trivial, Ends.perform _⟩
  exact hbounded.2

end Runs

/-- **The package of a run**: whatever answers the file system gives, one after
the other, `package_artifacts` ends.  Either it has published a ZIP of the
thirteen required files, each with the size and SHA-256 value that the checked
manifest lists for it, and of that manifest as it was read; or it has raised,
and the destination is what it was.  No temporary file is left. -/
theorem package_artifacts_exact (lib : Library) (loads : Bytes → Option Json)
    (expectedIdentity : ExpectedIdentity) (d : Option Packaging.Content)
    (answers : ℕ → Packaging.Answers) :
    ∃ n result w, (packageArtifacts lib loads expectedIdentity).exec Packaging.sem
        ((List.range n).map answers) (.start d) = (.pure result, w) ∧
      w.temporary = none ∧
      match result with
      | .ok () => ∃ raw rows members, (manifestName, raw) ∈ w.reads ∧
          checkManifest lib loads expectedIdentity raw = .ok rows ∧
          (rows.map FileRow.path).Perm requiredFiles ∧
          List.Forall₂ (fun row member => member.1 = artifactSubdir ++ "/" ++ row.path ∧
            FileRow.Matches lib row member.2) rows members ∧
          w.destination =
            some (.zip (members ++ [(artifactSubdir ++ "/" ++ manifestName, raw)]))
      | .error _ => w.destination = d := by
  obtain ⟨n, result, hrun⟩ :=
    Ends.returns Packaging.sem_isSome (ends_packageArtifacts lib loads expectedIdentity) answers
      (.start d)
  obtain ⟨hend, hpost⟩ := And.intro hrun (Safe.exec_post (safe_packageArtifacts ⟨rfl, rfl⟩) hrun)
  refine ⟨n, result, _, Prod.ext hend rfl, ?_⟩
  cases result with
  | error e => exact ⟨hpost.2, hpost.1⟩
  | ok u =>
    obtain ⟨⟨raw, rows, hread, hrows, members, hmembers, hdest⟩, htemp⟩ := hpost
    exact ⟨htemp, raw, rows, members, hread, hrows, paths_of_checkManifest hrows, hmembers, hdest⟩

end Dino

end KaggleRelay
