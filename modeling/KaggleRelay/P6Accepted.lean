/-
What an accepted P6 result is.

The directory does not change while it is validated.  Every check of
`validate_result` is turned into the fact it establishes, and these say
together that the inventory is closed.

* `Directory` — the files of a result;
* `Listed`, `SameRow`, `Binds` — a file that is as its row says, and the rows
  of another document;
* `validate_result_closed` — the manifest of an accepted result lists the
  files that are bound, each as it is, and no others.
-/
import KaggleRelay.DatasetSources
import KaggleRelay.P6Result

namespace KaggleRelay

open Effects JsonText

namespace P6

open Packager

/-- The files below a directory that nobody changes. -/
structure Directory where
  file : String → Option Bytes
  linked : String → Bool

/-- `FileNotFoundError`. -/
def missing (name : String) : Exc := ⟨.osError, "No such file or directory: " ++ name⟩

/-- The answers such a directory gives. -/
def Directory.answers (D : Directory) : Packaging.Answers
  | .safeRoot => .ok true
  | .regular name => .ok ((D.file name).isSome && !D.linked name)
  | .linked name => .ok (D.linked name)
  | .isFile name => .ok (D.file name).isSome
  | .statSize name => (D.file name).elim (.error (missing name)) fun bytes => .ok bytes.length
  | .readBytes name => (D.file name).elim (.error (missing name)) .ok
  | .readUpTo name n => (D.file name).elim (.error (missing name)) fun bytes => .ok (bytes.take n)
  | .readBlock _ => .ok []
  | .archiveBytes => .ok []
  | .archiveSize => .ok 0
  | .openSource _ | .checkFree _ | .makeParent | .makeTemporary | .openZip | .openMember _
  | .write _ | .closeMember | .closeZip | .replace => .ok ()
  | .unlink => ()

/-- The answers, by the signature. -/
def Directory.answer (D : Directory) : (o : FileSig.Op) → FileSig.Res o := D.answers

/-- A document of the directory. -/
def Document (reader : Reader) (D : Directory) (name : String) (document : Json) : Prop :=
  ∃ raw, D.file name = some raw ∧ parseObject reader raw = .ok document

/-- A path below the result: no drive, no backslash, no segment that is empty
or a dot segment. -/
def Relative (path : String) : Prop :=
  ':' ∉ path.toList ∧ '\\' ∉ path.toList ∧
    ∀ part ∈ Text.split path '/', part ≠ "" ∧ part ≠ "." ∧ part ≠ ".."

/-- A file that is as its row says. -/
structure Listed (lib : Library) (D : Directory) (row : FileRow) : Prop where
  relative : Relative row.path
  plain : D.linked row.path = false
  file : ∃ bytes, D.file row.path = some bytes ∧ bytes.length = row.size ∧
    lib.sha256 bytes = row.sha256

/-- A row of another document that is the row of the manifest, but for the
folder: the same path, size and hash, and nothing else. -/
structure SameRow (reader : Reader) (row : FileRow) (folder : String) (fields : JsonObject) :
    Prop where
  path : ∃ name, getField fields "path" = some (.str name) ∧ row.path = folder ++ name
  size : ∃ size, getField fields "size" = some size ∧ reader.number size = some (.inl row.size)
  sha256 : getField fields "sha256" = some (.str row.sha256)
  fields : fields.length = 3

/-- The rows of another document are rows of the manifest, of these files. -/
def Binds (reader : Reader) (rows : List FileRow) (folder : String) (items : List Json)
    (files : List String) : Prop :=
  List.Forall₂ (fun item path => ∃ row ∈ rows, row.path = path ∧
    ∃ fields, item = .obj fields ∧ SameRow reader row folder fields) items files

/-- The rows of a reference list: those its items have under these keys. -/
def BindsReferences (reader : Reader) (rows : List FileRow) (keys : List String)
    (items : List Json) (files : List String) : Prop :=
  ∃ values, List.Forall₂ (fun (slot : Json × String) value => slot.1.item slot.2 = .ok value)
      (items.flatMap fun item => keys.map (item, ·)) values ∧
    Binds reader rows "validation/" values files

/-- The files a passed export adds: the deployment manifest and the files it
binds, the reference list and the files it binds. -/
def Exported (reader : Reader) (D : Directory) (version : Version) (rows : List FileRow)
    (files : List String) : Prop :=
  ∃ deployment bound deployed reference items references,
    Document reader D "deployment/deployment.json" deployment ∧
      boundRows version deployment = .ok bound ∧ Binds reader rows "deployment/" bound deployed ∧
      Document reader D "validation/reference.json" reference ∧
      (reference.item "items" >>= Json.iter) = .ok items ∧
      BindsReferences reader rows (referenceKeys version) items references ∧
      files = deployed ++ ["deployment/deployment.json", "validation/reference.json"] ++ references

/-- An accepted result: its manifest, the version and the export status of it,
and the rows it lists. -/
structure Accepted (lib : Library) (reader : Reader) (D : Directory) (document : Json)
    (version : Version) (status : String) (rows : List FileRow) : Prop where
  manifest : Document reader D manifestName document
  format : ∃ format, document.get "format" = .ok (.str format) ∧
    formats.lookup format = some version
  exportStatus : document.get "onnx_status" = .ok (.str status)
  entries : ∃ items, document.item "files" = .ok (.arr items) ∧
    List.Forall₂ (fun item row => entry item = .ok row) items rows
  /-- Every file exists, with its size and hash, is below the result and no link. -/
  listed : ∀ row ∈ rows, Listed lib D row
  pattern : ∀ row ∈ rows, (downloadPattern.fullmatch ("p6_result/" ++ row.path)).isSome
  once : (rows.map fun row => lib.casefold row.path).Nodup
  training : ∃ training items files, Document reader D "training/runtime_result.json" training ∧
    (training.getOrList "files" >>= Json.iter) = .ok items ∧
    Binds reader rows "training/" items files
  /-- The training files, the reports, and what a passed export adds. -/
  closed : ∃ files, (status = "PASS" → Exported reader D version rows files) ∧
    (status ≠ "PASS" → files = []) ∧
    ∀ path, path ∈ paths rows ↔ path ∈ trainingFiles ∨
      (path ∈ paths rows ∧ (reportPattern.fullmatch path).isSome) ∨ path ∈ files

section Rules

variable {D : Directory} {lib : Library} {reader : Reader} {expected : Expected}

theorem yields_seq {α β : Type} {p : Packager α} {f : α → Packager β} {b : β} :
    Eff.Yields D.answer (p >>= f) b ↔
      ∃ a, Eff.Yields D.answer p a ∧ Eff.Yields D.answer (f a) b :=
  yields_bind

theorem yields_return {α : Type} {a b : α} :
    Eff.Yields D.answer (pure a : Packager α) b ↔ a = b :=
  yields_pure

theorem yields_linked {name : String} {b : Bool} :
    Eff.Yields D.answer (linked name) b ↔ D.linked name = b := by
  constructor
  · intro h
    exact Except.ok.inj (Option.some.inj h)
  · rintro rfl
    rfl

theorem yields_statSize {name : String} {n : ℕ} :
    Eff.Yields D.answer (statSize name) n ↔ ∃ bytes, D.file name = some bytes ∧ bytes.length = n := by
  have h : Eff.Yields D.answer (statSize name) n ↔
      (D.file name).elim (.error (missing name)) (fun bytes => .ok bytes.length) =
        (.ok n : Except Exc ℕ) := ⟨Option.some.inj, congrArg some⟩
  rw [h]
  cases D.file name <;> simp

theorem yields_readBytes {name : String} {bytes : Bytes} :
    Eff.Yields D.answer (readBytes name) bytes ↔ D.file name = some bytes := by
  have h : Eff.Yields D.answer (readBytes name) bytes ↔
      (D.file name).elim (.error (missing name)) .ok = (.ok bytes : Except Exc Bytes) :=
    ⟨Option.some.inj, congrArg some⟩
  rw [h]
  cases D.file name <;> simp

/-! ### Files -/

theorem relative_of_safe {path : String} (h : unsafePath path = false) : Relative path := by
  simp only [unsafePath, Bool.or_eq_false_iff, List.any_eq_false, List.contains_eq_mem,
    decide_eq_false_iff_not, Bool.or_eq_true, beq_iff_eq, not_or] at h
  obtain ⟨⟨⟨-, hdrive⟩, hback⟩, hparts⟩ := h
  refine ⟨hdrive, hback, fun part hpart => ?_⟩
  obtain ⟨⟨⟨⟨hempty, hdot⟩, hdots⟩, -⟩, -⟩ := hparts part hpart
  exact ⟨hempty, hdot, hdots⟩

theorem of_plain {name : String} {u : Unit} (h : Eff.Yields D.answer (plain name) u) :
    Relative name ∧ D.linked name = false := by
  simp only [plain, yields_seq, yields_raiseIf, yields_linked] at h
  obtain ⟨_, hsafe, link, hlink, _, hplain, _⟩ := h
  exact ⟨relative_of_safe (Bool.not_eq_true _ ▸ hsafe), by rw [hlink]; exact Bool.not_eq_true _ ▸ hplain⟩

theorem of_readPlain {name : String} {document : Json}
    (h : Eff.Yields D.answer (readPlain reader name) document) :
    Document reader D name document := by
  simp only [readPlain, readJson, yields_seq, yields_lift, yields_readBytes] at h
  obtain ⟨_, _, _, _, _, _, raw, hraw, hparse⟩ := h
  exact ⟨raw, hraw, hparse⟩

theorem of_inventoryRow {maxBytes : ℕ} {seen : List String} {total : ℕ} {row : FileRow} {u : Unit}
    (h : Eff.Yields D.answer (inventoryRow lib maxBytes seen total row) u) :
    Listed lib D row ∧ lib.casefold row.path ∉ seen := by
  simp only [inventoryRow, yields_seq, yields_raiseIf, yields_statSize, yields_readBytes] at h
  obtain ⟨_, hplain, _, hseen, _, _, size, ⟨bytes, hbytes, hlength⟩, _, hsize, bytes', hbytes',
    hsha⟩ := h
  obtain rfl := Option.some.inj (hbytes.symm.trans hbytes')
  obtain ⟨hrelative, hlink⟩ := of_plain hplain
  exact ⟨⟨hrelative, hlink, bytes, hbytes, hlength.trans (not_not.mp hsize), not_not.mp hsha⟩, hseen⟩

/-- **The inventory**: every row is checked against its file, and no name comes
twice. -/
theorem of_inventoryRows {maxBytes : ℕ} {items : List Json} {seen : List String} {total : ℕ}
    {rows : List FileRow}
    (h : Eff.Yields D.answer (inventoryRows lib maxBytes seen total items) rows) :
    List.Forall₂ (fun item row => entry item = .ok row) items rows ∧
      (∀ row ∈ rows, Listed lib D row) ∧
      (rows.map fun row => lib.casefold row.path).Nodup ∧
      ∀ row ∈ rows, lib.casefold row.path ∉ seen := by
  induction items generalizing seen total rows with
  | nil =>
    obtain rfl := yields_pure.mp h
    exact ⟨.nil, by simp⟩
  | cons item items ih =>
    simp only [inventoryRows, yields_seq, yields_lift, yields_return] at h
    obtain ⟨row, hrow, _, hcheck, rest, hrest, rfl⟩ := h
    obtain ⟨hlisted, hseen⟩ := of_inventoryRow hcheck
    obtain ⟨hentries, hall, hnodup, hfresh⟩ := ih hrest
    refine ⟨.cons hrow hentries, ?_, ?_, ?_⟩
    · exact List.forall_mem_cons.mpr ⟨hlisted, hall⟩
    · rw [List.map_cons, List.nodup_cons]
      refine ⟨fun hmem => ?_, hnodup⟩
      -- a later row of the same name would have been refused
      obtain ⟨other, hother, hname⟩ := List.mem_map.mp hmem
      exact hfresh other hother (hname ▸ List.mem_cons_self)
    · refine List.forall_mem_cons.mpr ⟨hseen, fun other hother hmem => ?_⟩
      exact hfresh other hother (List.mem_cons_of_mem _ hmem)

/-! ### Bound rows -/

theorem length_setField {fields : JsonObject} {key : String} {x y : Json}
    (h : getField fields key = some x) : (setField fields key y).length = fields.length := by
  have hany : fields.any (·.1 == key) = true := by
    by_contra hall
    have hnone : fields.lookup key = none := by
      rw [List.lookup_eq_none_iff]
      intro field hfield
      simp only [List.any_eq_true, not_exists, not_and] at hall
      simpa using Ne.symm (by simpa using hall field hfield)
    cases h.symm.trans hnone
  rw [setField, if_pos hany, List.length_map]

/-- A field of an object that is equal to another one. -/
theorem pyEq_field {xs ys : JsonObject} {key : String} {x : Json}
    (h : reader.pyEqFields xs ys = true) (hx : (key, x) ∈ xs) :
    ∃ y, ys.lookup key = some y ∧ reader.pyEq x y = true := by
  induction xs with
  | nil => cases hx
  | cons field xs ih =>
    obtain ⟨k, v⟩ := field
    rw [Reader.pyEqFields, Bool.and_eq_true, Option.any_eq_true] at h
    obtain ⟨⟨y, hy, heq⟩, hrest⟩ := h
    rcases List.mem_cons.mp hx with hhead | htail
    · obtain ⟨rfl, rfl⟩ := Prod.mk.inj hhead
      exact ⟨y, hy, heq⟩
    · exact ih hrest htail

theorem sameRow_of_pyEq {row : FileRow} {folder name : String} {fields : JsonObject}
    (hname : getField fields "path" = some (.str name)) (hpath : row.path = folder ++ name)
    (h : reader.pyEq (rowJson row) (.obj (setField fields "path" (.str (folder ++ name)))) = true) :
    SameRow reader row folder fields := by
  rw [rowJson, Reader.pyEq, Bool.and_eq_true, beq_iff_eq, length_setField hname] at h
  obtain ⟨hlength, hfields⟩ := h
  have hsizeMem : ("size", Json.int row.size) ∈
      [("path", Json.str row.path), ("size", .int row.size), ("sha256", .str row.sha256)] := by
    simp
  have hshaMem : ("sha256", Json.str row.sha256) ∈
      [("path", Json.str row.path), ("size", .int row.size), ("sha256", .str row.sha256)] := by
    simp
  obtain ⟨size, hsize, hsizeEq⟩ := pyEq_field hfields hsizeMem
  obtain ⟨sha, hsha, hshaEq⟩ := pyEq_field hfields hshaMem
  rw [lookup_setField, if_neg (by decide)] at hsize hsha
  have hnumber : reader.number size = some (.inl row.size) := by
    rw [Reader.pyEq_int hsizeEq, Int.cast_natCast]
  exact {
    path := ⟨name, hname, hpath⟩
    size := ⟨size, hsize, hnumber⟩
    sha256 := hsha.trans (congrArg some (Reader.pyEq_str hshaEq))
    fields := hlength.symm }

/-- A text that an object has under a key. -/
theorem field_of_item {fields : JsonObject} {key name : String} {value : Json}
    (hvalue : Json.item (.obj fields) key = .ok value) (hname : value.text = .ok name) :
    getField fields key = some (.str name) := by
  unfold Json.item at hvalue
  simp only at hvalue
  split at hvalue
  · next x hx =>
    cases hvalue
    unfold Json.text at hname
    split at hname
    · cases hname
      exact hx
    · cases hname
  · cases hvalue

theorem of_boundPath {rows : List FileRow} {folder message : String} {item : Json} {path : String}
    (h : boundPath reader rows folder message item = .ok path) :
    ∃ row ∈ rows, row.path = path ∧
      ∃ fields, item = .obj fields ∧ SameRow reader row folder fields := by
  simp only [boundPath, ok_bind] at h
  obtain ⟨value, hvalue, name, hname, h⟩ := h
  split at h
  · next fields row hrow =>
    simp only [ok_bind, ok_require, ok_pure] at h
    obtain ⟨_, heq, rfl⟩ := h
    have hpath : row.path = folder ++ name := by simpa using List.find?_some hrow
    refine ⟨row, List.mem_of_find?_eq_some hrow, hpath, fields, rfl, ?_⟩
    exact sameRow_of_pyEq (field_of_item hvalue hname) hpath heq
  · cases h

/-- A row is bound for every item. -/
theorem of_boundPaths {rows : List FileRow} {folder message : String} {items : List Json}
    {files : List String} (h : boundPaths reader rows folder message items = .ok files) :
    Binds reader rows folder items files := by
  induction items generalizing files with
  | nil =>
    cases h
    exact .nil
  | cons item items ih =>
    simp only [boundPaths, ok_bind, ok_pure] at h
    obtain ⟨path, hpath, more, hmore, rfl⟩ := h
    exact .cons (of_boundPath hpath) (ih hmore)

/-- The rows the training result binds. -/
theorem of_checkTraining {rows : List FileRow} {identity : JsonObject} {training : Json}
    {files : List String} (h : checkTraining reader rows identity training = .ok files) :
    ∃ items, (training.getOrList "files" >>= Json.iter) = .ok items ∧
      Binds reader rows "training/" items files := by
  simp only [checkTraining, ok_bind] at h
  obtain ⟨_, _, _, _, _, _, _, _, value, hvalue, items, hitems, _, _, _, _, hfiles⟩ := h
  exact ⟨items, ok_bind.mpr ⟨value, hvalue, hitems⟩, of_boundPaths hfiles⟩

theorem of_itemPaths {rows : List FileRow} {item : Json} {keys files : List String}
    (h : itemPaths reader rows item keys = .ok files) :
    ∃ values, List.Forall₂ (fun (slot : Json × String) value => slot.1.item slot.2 = .ok value)
        (keys.map (item, ·)) values ∧ Binds reader rows "validation/" values files := by
  induction keys generalizing files with
  | nil =>
    cases h
    exact ⟨[], .nil, .nil⟩
  | cons key keys ih =>
    simp only [itemPaths, ok_bind, ok_pure] at h
    obtain ⟨value, hvalue, path, hpath, more, hmore, rfl⟩ := h
    obtain ⟨values, hvalues, hbinds⟩ := ih hmore
    exact ⟨value :: values, .cons hvalue hvalues, .cons (of_boundPath hpath) hbinds⟩

theorem of_referencePaths {rows : List FileRow} {version : Version} {items : List Json}
    {files : List String} (h : referencePaths reader rows version items = .ok files) :
    BindsReferences reader rows (referenceKeys version) items files := by
  induction items generalizing files with
  | nil =>
    cases h
    exact ⟨[], .nil, .nil⟩
  | cons item items ih =>
    simp only [referencePaths, ok_bind, ok_pure] at h
    obtain ⟨paths, hpaths, more, hmore, rfl⟩ := h
    obtain ⟨values, hvalues, hbinds⟩ := of_itemPaths hpaths
    obtain ⟨rest, hrest, hmoreBinds⟩ := ih hmore
    refine ⟨values ++ rest, ?_, List.rel_append hbinds hmoreBinds⟩
    rw [List.flatMap_cons]
    exact List.rel_append hvalues hrest

theorem of_checkDeployment {version : Version} {deployment : Json} {bound : List Json}
    (h : checkDeployment lib reader expected version deployment = .ok bound) :
    boundRows version deployment = .ok bound := by
  simp only [checkDeployment, ok_bind] at h
  obtain ⟨_, _, _, _, _, _, _, _, _, _, _, _, _, _, _, _, _, _, _, _, _, _, hbound⟩ := h
  exact hbound

theorem of_validateDeployment {version : Version} {rows : List FileRow}
    {allowed : List String × String}
    (h : Eff.Yields D.answer (validateDeployment lib reader expected version rows) allowed) :
    Exported reader D version rows allowed.1 := by
  simp only [validateDeployment, yields_seq, yields_lift, yields_return] at h
  obtain ⟨_, _, deployment, hdeployment, bound, hbound, _, _, deployed, hdeployed, reference,
    hreference, references, hreferences, rfl⟩ := h
  simp only [checkReference, ok_bind] at hreferences
  obtain ⟨_, _, _, _, _, _, _, _, _, _, _, _, _, _, value, hvalue, items, hitems, hpaths⟩ := hreferences
  exact ⟨deployment, bound, deployed, reference, items, references, of_readPlain hdeployment,
    of_checkDeployment hbound, of_boundPaths hdeployed, of_readPlain hreference,
    ok_bind.mpr ⟨value, hvalue, hitems⟩, of_referencePaths hpaths, rfl⟩

theorem of_validateExport {version : Version} {rows : List FileRow} {status : String}
    {allowed : List String × String}
    (h : Eff.Yields D.answer (validateExport lib reader expected version rows status) allowed) :
    (status = "PASS" → Exported reader D version rows allowed.1) ∧
      (status ≠ "PASS" → allowed.1 = []) := by
  unfold validateExport at h
  by_cases hpass : status = "PASS"
  · rw [if_pos hpass] at h
    exact ⟨fun _ => of_validateDeployment h, fun hne => (hne hpass).elim⟩
  · rw [if_neg hpass] at h
    obtain rfl := yields_return.mp h
    exact ⟨fun heq => (hpass heq).elim, fun _ => rfl⟩

theorem eq_of_hashed {value x : Json} (h : value.hashed = .ok x) : x = value := by
  unfold Json.hashed at h
  split at h
  · cases h
  · cases h
  · exact (Except.ok.inj h).symm

theorem eq_str_of_isStr {value : Json} {text : String} (h : value.isStr text = true) :
    value = .str text := by
  unfold Json.isStr at h
  split at h
  · rw [eq_of_beq h]
  · cases h

theorem of_checkStatus {rows : List FileRow} {document : Json} {status : String}
    (h : checkStatus rows document = .ok status) :
    document.get "onnx_status" = .ok (.str status) := by
  simp only [checkStatus, ok_bind, ok_orError, ok_pure] at h
  obtain ⟨hashed, ⟨value, hvalue, hhashed⟩, name, hname, _, _, rfl⟩ := h
  have hstr : hashed.isStr name = true := by simpa using List.find?_some hname
  rw [hvalue, ← eq_of_hashed hhashed, eq_str_of_isStr hstr]

theorem of_checkHeader {document : Json} {header : Version × JsonObject}
    (h : checkHeader reader expected document = .ok header) :
    ∃ format, document.get "format" = .ok (.str format) ∧
      formats.lookup format = some header.1 := by
  simp only [checkHeader, ok_bind, ok_orError, ok_pure] at h
  obtain ⟨value, hvalue, versions, hversions, version, rfl, _, _, _, _, _, _, _, _, _, _, _, _, _,
    _, _, _, _, _, rfl⟩ := h
  unfold formatOf at hversions
  split at hversions
  · next format => exact ⟨format, hvalue, Except.ok.inj hversions⟩
  · simp only [ok_bind, ok_pure] at hversions
    obtain ⟨_, _, hnone⟩ := hversions
    cases hnone

theorem eq_of_fileList {files : Json} {items : List Json} (h : fileList files = .ok items) :
    files = .arr items ∧ 1 ≤ items.length := by
  unfold fileList at h
  split at h
  · split at h
    · next hlength =>
      cases h
      exact ⟨rfl, hlength.1⟩
    · cases h
  · cases h

/-- What the list of an accepted manifest is. -/
theorem of_inventory {maxBytes : ℕ} {files : Json} {rows : List FileRow}
    (h : Eff.Yields D.answer (inventory lib maxBytes files) rows) :
    ∃ items, files = .arr items ∧
      Eff.Yields D.answer (inventoryRows lib maxBytes [] 0 items) rows := by
  simp only [inventory, yields_seq, yields_lift] at h
  obtain ⟨items, hitems, hrows⟩ := h
  exact ⟨items, (eq_of_fileList hitems).1, hrows⟩

theorem of_validateResult {receipt : Receipt}
    (h : Eff.Yields D.answer (validateResult lib reader expected) receipt) :
    ∃ document version rows, Accepted lib reader D document version receipt.onnxStatus rows := by
  simp only [validateResult, yields_seq, yields_lift, yields_return] at h
  obtain ⟨document, hdocument, header, hheader, files, hfiles, rows, hrows, _, _, _, _, _, _,
    training, htraining, bound, hbound, _, _, _, _, status, hstatus, allowed, hallowed, _, hclosed,
    _, _, rfl⟩ := h
  obtain ⟨items, rfl, hitems⟩ := of_inventory hrows
  obtain ⟨hentries, hlisted, honce, -⟩ := of_inventoryRows hitems
  obtain ⟨bindings, hbindings, hbinds⟩ := of_checkTraining hbound
  obtain ⟨hpass, hother⟩ := of_validateExport hallowed
  obtain ⟨hsubset, hall, hpattern⟩ := ok_require.mp hclosed
  refine ⟨document, header.1, rows, ?_⟩
  exact {
    manifest := of_readPlain hdocument
    format := of_checkHeader hheader
    exportStatus := of_checkStatus hstatus
    entries := ⟨items, hfiles, hentries⟩
    listed := hlisted
    pattern := fun row hrow => hpattern row.path (List.mem_map_of_mem hrow)
    once := honce
    training := ⟨training, bindings, bound, of_readPlain htraining, hbindings, hbinds⟩
    closed := by
      refine ⟨allowed.1, hpass, hother, fun path => ⟨fun hpath => ?_, fun hpath => ?_⟩⟩
      · have hmem := hsubset path hpath
        rw [List.mem_append, List.mem_append, List.mem_filter] at hmem
        rcases hmem with (hmem | hmem) | hmem
        · exact .inl hmem
        · exact .inr (.inl hmem)
        · exact .inr (.inr hmem)
      · apply hall
        rw [List.mem_append, List.mem_append, List.mem_filter]
        rcases hpath with hmem | hmem | hmem
        · exact .inl (.inl hmem)
        · exact .inl (.inr hmem)
        · exact .inr hmem }

end Rules

/-- **The inventory of an accepted result**: validation of a directory that
does not change ends, and what it accepts is a closed inventory. -/
theorem validate_result_closed (lib : Library) (reader : Reader) (expected : Expected)
    (D : Directory) :
    ∃ result, Prog.eval D.answer (validateResult lib reader expected) = some result ∧
      ∀ receipt, result = .ok receipt →
        ∃ document version rows, Accepted lib reader D document version receipt.onnxStatus rows := by
  have hsome : (Prog.eval D.answer (validateResult lib reader expected)).isSome :=
    Ends.eval_isSome looking_validateResult.2
  obtain ⟨result, hresult⟩ := Option.isSome_iff_exists.mp hsome
  refine ⟨result, hresult, ?_⟩
  rintro receipt rfl
  exact of_validateResult hresult

/-! ### A result with a passed export -/

section Sample

/-- The bytes of a document. -/
def bytesOf (x : Json) : Bytes := (dump .compact x).map fun c => UInt8.ofNat c.toNat

/-- What tells the files apart: the first byte and the twelfth. -/
def mark (bytes : Bytes) : Option UInt8 × Option UInt8 := (bytes.head?, (bytes.drop 11).head?)

/-- The SHA-256 values of the files that are tried. -/
def modelHash : String := "50e721e49c013f00c62cf59f2163542a9d8df02464efeb615d31051b0fddc326"

def emptyHash : String := "44136fa355b3678a1146ad16f7e8649e94fb4fc21fe77e8310c060f61caaff8a"

def thresholdHash : String := "901a1de9b50f967072166b2bb572a6a154ce328adb002540d4e306cc39a06b30"

def trainingHash : String := "24890b5b6d75f3cd36c89e3552e1da9488105cbecae0e21341f182713ad0f2d0"

def deploymentHash : String := "6d13567587302a966d1de16e8bc514d74d49475f3bf8c36eb13468c31f5c5ddd"

def referenceHash : String := "7e656635aec61b128fc906f52492a9443e6cf2b02bdacc942172a85222835fc2"

def sampleTask : String := "01c6ebf73a19836a1c95392f9ccb768d7730fa48055ab4e1c4a91ce9c357775a"

def sampleFileSet : String := "59bfd0901d07e744255d74974a0d6c4071c0854b35842c191c8f6a4af8dd0837"

def sampleManifestHash : String := "eceba6381f3cf2dbc2a0bcbc5ef86fe281c81d3c0fe0750dfafc012847d0b592"

def trialIdentity : JsonObject :=
  [("dataset_id", .str "a"), ("identity_sha256", .str "b"), ("run_id", .str "run"),
    ("run_identity_sha256", .str "c")]

def trialThreshold : Json :=
  .obj [("threshold", .int 1), ("model_sha256", .str modelHash),
    ("score_kind", .str "patchcore_dinov2_l2_nnmax_raw_v1"),
    ("decision_rule", .str "score_gte_threshold"), ("calibration_owner", .str "training")]

def trialRow (path : String) (size : ℕ) (sha256 : String) : Json :=
  .obj [("path", .str path), ("size", .int size), ("sha256", .str sha256)]

def trialTraining : Json :=
  .obj [("format", .str "vision_workshop_dinov2_251_training_stage_v1"),
    ("training_status", .str "completed"), ("run_identity", .obj trialIdentity),
    ("files", .arr [trialRow "model.ckpt" 1 modelHash, trialRow "threshold.json" 214 thresholdHash,
      trialRow "metrics.json" 2 emptyHash])]

def sampleGraph : Json := .obj [("files", .arr [trialRow "model.onnx" 1 modelHash])]

def sampleDeployment : Json :=
  .obj [("task_contract", .obj [("format", .str "dino_cloud_task_p6_v1")]),
    ("format", .str "dino_onnx_deployment_p6_v1"),
    ("task_sha256", .str sampleTask), ("cloud_qualification", .str "PASS"),
    ("windows_qualification", .str "PENDING"), ("graph", sampleGraph), ("threshold", .int 1),
    ("threshold_file", trialRow "threshold.json" 2 emptyHash),
    ("verification_report", trialRow "verification_report.json" 2 emptyHash),
    ("support_files", .arr [trialRow "runtime_requirements.txt" 1 modelHash,
      trialRow "README_deployment.md" 1 modelHash])]

def sampleReference : Json :=
  .obj [("graph", sampleGraph), ("threshold", .int 1),
    ("items", .arr [.obj [("reference", trialRow "reference/a.npz" 1 modelHash)]])]

def sampleManifest : Json :=
  .obj [("artifact_contract", .str contractV1), ("format", .str "dino_cloud_result_p6_v1"),
    ("identity", .obj trialIdentity), ("task_sha256", .str sampleTask),
    ("training_status", .str "PASS"), ("onnx_status", .str "PASS"),
    ("windows_status", .str "PENDING"),
    ("files", .arr [trialRow "training/model.ckpt" 1 modelHash,
      trialRow "training/threshold.json" 214 thresholdHash,
      trialRow "training/metrics.json" 2 emptyHash,
      trialRow "training/runtime_result.json" 523 trainingHash,
      trialRow "reports/export.json" 2 emptyHash,
      trialRow "deployment/deployment.json" 902 deploymentHash,
      trialRow "deployment/model.onnx" 1 modelHash,
      trialRow "deployment/threshold.json" 2 emptyHash,
      trialRow "deployment/verification_report.json" 2 emptyHash,
      trialRow "deployment/runtime_requirements.txt" 1 modelHash,
      trialRow "deployment/README_deployment.md" 1 modelHash,
      trialRow "validation/reference.json" 278 referenceHash,
      trialRow "validation/reference/a.npz" 1 modelHash]),
    ("file_set_sha256", .str sampleFileSet)]

/-- The hash function, on the files of the result and the texts that are hashed. -/
def sampleLibrary : Library where
  sha256 bytes :=
    (([((some 119, none), modelHash), ((some 123, none), emptyHash),
      ((some 123, some 34), thresholdHash), ((some 123, some 118), trainingHash),
      ((some 123, some 114), deploymentHash), ((some 123, some 102), referenceHash),
      ((some 123, some 99), sampleManifestHash), ((some 123, some 100), sampleTask),
      ((some 91, some 114), sampleFileSet)] :
      List ((Option UInt8 × Option UInt8) × String)).lookup (mark bytes)).getD ""
  casefold text := text
  lower text := text

/-- The parser, on the documents of the result. -/
def sampleReader : Reader where
  loads raw :=
    ([((some 123, none), .obj []), ((some 123, some 34), trialThreshold),
      ((some 123, some 118), trialTraining), ((some 123, some 114), sampleDeployment),
      ((some 123, some 102), sampleReference), ((some 123, some 99), sampleManifest)] :
      List ((Option UInt8 × Option UInt8) × Json)).lookup (mark raw)
  float _ := none

/-- A result whose export has passed. -/
def sampleDirectory : Directory where
  file name :=
    [(manifestName, bytesOf sampleManifest), ("training/model.ckpt", [119]),
      ("training/threshold.json", bytesOf trialThreshold),
      ("training/metrics.json", bytesOf (.obj [])),
      ("training/runtime_result.json", bytesOf trialTraining),
      ("reports/export.json", bytesOf (.obj [])),
      ("deployment/deployment.json", bytesOf sampleDeployment), ("deployment/model.onnx", [119]),
      ("deployment/threshold.json", bytesOf (.obj [])),
      ("deployment/verification_report.json", bytesOf (.obj [])),
      ("deployment/runtime_requirements.txt", [119]), ("deployment/README_deployment.md", [119]),
      ("validation/reference.json", bytesOf sampleReference),
      ("validation/reference/a.npz", [119])].lookup name
  linked _ := false

def sampleExpected : Expected := ⟨some trialIdentity, sampleTask, some contractV1, 8 * 1024 ^ 3⟩

/-- What the validation of that result comes to. -/
def sampleValidation : Option (Except Exc Receipt) :=
  Prog.eval sampleDirectory.answer (validateResult sampleLibrary sampleReader sampleExpected)

theorem sampleValidation_eq : sampleValidation =
    Prog.eval sampleDirectory.answer (validateResult sampleLibrary sampleReader sampleExpected) := by
  rw [sampleValidation]

theorem sampleValidation_status :
    sampleValidation.map (fun result => result.toOption.map Receipt.onnxStatus) =
      some (some "PASS") := by
  decide +kernel

attribute [irreducible] sampleValidation

theorem validate_result_closed_sample :
    ∃ receipt, sampleValidation = some (.ok receipt) ∧ receipt.onnxStatus = "PASS" ∧
      ∃ document version rows,
        Accepted sampleLibrary sampleReader sampleDirectory document version "PASS" rows := by
  obtain ⟨result, hresult, hclosed⟩ :=
    validate_result_closed sampleLibrary sampleReader sampleExpected sampleDirectory
  rw [← sampleValidation_eq] at hresult
  have hstatus := sampleValidation_status
  rw [hresult, Option.map_some, Option.some.injEq] at hstatus
  cases result with
  | error e => cases hstatus
  | ok receipt =>
    have hpass : receipt.onnxStatus = "PASS" := Option.some.inj hstatus
    have haccepted := hclosed receipt rfl
    rw [hpass] at haccepted
    exact ⟨receipt, hresult, hpass, haccepted⟩

end Sample

end P6

end KaggleRelay
