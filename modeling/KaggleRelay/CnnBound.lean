/-
What a published CNN result is bound to.

* `Bound` — the source is that of the job, and what lies in a package was
  validated;
* `Undisturbed` — the output names that source, holds no other package, and no
  second manifest below the package;
* `bound_iff_undisturbed` — the one is the other, since the job's identity is
  never asked for and the walk goes wider than the validation;
* `other_run_published` — the output of another run, published.
-/
import KaggleRelay.CnnOnnx
import KaggleRelay.P6Package

namespace KaggleRelay

open JsonText

namespace Cnn

variable {lib : Library} {reader : Reader} {D : OutputDir} {root : Path} {source : Source}

/-- A file below a package directory. -/
structure InPackage (path : Path) (name : String) (rest : Path) : Prop where
  path_eq : path = "cnn_onnx" :: name :: rest
  name_ok : isPackageName name = true
  below : rest ≠ []

/-- A row of a manifest that describes a file. -/
def Describes (lib : Library) (reader : Reader) (row : Json) (path : Path) (bytes : Bytes) : Prop :=
  ∃ fields size, row = .obj fields ∧ getField fields "path" = some (.str (posix path)) ∧
    getField fields "size" = some size ∧ reader.number size = some (.inl bytes.length) ∧
    getField fields "sha256" = some (.str (lib.sha256 bytes))

/-- The manifest itself, or a file one of its rows describes. -/
def Covered (lib : Library) (reader : Reader) (document : Json) (path : Path) (bytes : Bytes) :
    Prop :=
  path = ["deployment.json"] ∨
    ∃ items, document.get "files" = .ok (.arr items) ∧ ∃ row ∈ items, Describes lib reader row path bytes

/-- The source of the run is that of the job, and every published file of a
package was validated against the manifest of the package. -/
structure Bound (lib : Library) (reader : Reader) (D : OutputDir) (job : FrozenIdentity)
    (published : Published) : Prop where
  identity : ∃ source, published.source = some source ∧ source.identity = job.fields
  packages : ∀ path bytes, (path, bytes) ∈ published.members →
    ∀ name rest, InPackage path name rest → ∃ document, published.package = some (name, document) ∧
      (∃ source, published.source = some source ∧
        validatePackage lib reader D ["cnn_onnx", name] source = .ok document) ∧
      Covered lib reader document rest bytes

/-- The document a file holds. -/
def Holds (reader : Reader) (D : OutputDir) (path : Path) (fields : JsonObject) : Prop :=
  ∃ raw, D.file path = some raw ∧ reader.loads raw = some (.obj fields)

/-- The result of the output names this package. -/
def Names (reader : Reader) (D : OutputDir) (name : String) : Prop :=
  ∃ fields, Holds reader D ["cnn_onnx", "result.json"] fields ∧
    getField fields "package" = some (.str name)

/-- The output states the identity of the job, every file of a package belongs
to the one the result names, and the only manifest of a package is its own. -/
structure Undisturbed (reader : Reader) (D : OutputDir) (job : FrozenIdentity) : Prop where
  identity : ∃ manifest, Holds reader D ["training_artifacts.json"] manifest ∧
    ∀ field ∈ job.fields, getField manifest field.1 = some field.2
  packages : ∀ path ∈ D.paths, (D.file path).isSome → ∀ name rest, InPackage path name rest →
    Names reader D name ∧ (rest.getLast? = some "deployment.json" → rest = ["deployment.json"])

/-! ### Reading -/

theorem ok_bytes {path : Path} {bytes : Bytes} :
    D.bytes path = .ok bytes ↔ D.file path = some bytes := ok_orError

theorem file_of_read {path : Path} {document : Json} (h : D.read reader path = .ok document) :
    ∃ raw, D.file path = some raw ∧ reader.loads raw = some document := by
  simp only [OutputDir.read, ok_bind, ok_orError, ok_bytes] at h
  obtain ⟨_, _, raw, hraw, hdocument⟩ := h
  exact ⟨raw, hraw, hdocument⟩

theorem obj_of_get {value x : Json} {key : String} (h : value.get key = .ok x) :
    ∃ fields, value = .obj fields ∧ (getField fields key).getD .null = x := by
  unfold Json.get at h
  split at h
  · next fields => exact ⟨fields, rfl, Except.ok.inj h⟩
  · cases h

theorem obj_of_getOr {value x default : Json} {key : String} (h : getOr value key default = .ok x) :
    ∃ fields, value = .obj fields ∧ (getField fields key).getD default = x := by
  unfold getOr at h
  split at h
  · next fields => exact ⟨fields, rfl, Except.ok.inj h⟩
  · cases h

theorem eq_of_asText {value : Json} {text : String} (h : asText value = .ok text) :
    value = .str text := by
  unfold asText at h
  split at h
  · rw [Except.ok.inj h]
  · cases h

/-- The members of the list a `mapM` yields. -/
theorem mem_of_mapM {α β : Type} {f : α → Except Exc β} {xs : List α} {ys : List β}
    (h : xs.mapM f = .ok ys) {x : α} (hx : x ∈ xs) : ∃ y ∈ ys, f x = .ok y := by
  induction xs generalizing ys with
  | nil => cases hx
  | cons a xs ih =>
    rw [List.mapM_cons] at h
    simp only [ok_bind, ok_pure] at h
    obtain ⟨b, hb, bs, hbs, rfl⟩ := h
    obtain rfl | htail := List.mem_cons.mp hx
    · exact ⟨b, List.mem_cons_self, hb⟩
    · obtain ⟨y, hy, hfy⟩ := ih hbs htail
      exact ⟨y, List.mem_cons_of_mem b hy, hfy⟩

/-! ### Packages -/

theorem mem_filesBelow {path : Path} :
    path ∈ D.filesBelow root ↔ path ≠ [] ∧ root ++ path ∈ D.paths ∧ (D.file (root ++ path)).isSome := by
  rw [OutputDir.filesBelow, List.mem_filterMap]
  constructor
  · rintro ⟨whole, hmem, h⟩
    split at h
    · next hbelow =>
      obtain ⟨⟨rest, rfl⟩, hlength, hfile⟩ := hbelow
      obtain rfl : rest = path := by simpa using h
      refine ⟨?_, hmem, hfile⟩
      rintro rfl
      simp at hlength
    · cases h
  · rintro ⟨hne, hmem, hfile⟩
    have hpos : 0 < path.length := List.length_pos_of_ne_nil hne
    refine ⟨root ++ path, hmem, ?_⟩
    rw [if_pos ⟨List.prefix_append root path, by rw [List.length_append]; omega, hfile⟩]
    simp

/-- A row that is equal to that of the inventory describes the file. -/
theorem describes_of_pyEq {path : Path} {bytes : Bytes} {actual row : Json}
    (hactual : D.inventoryRow lib root path = .ok actual) (hfile : D.file (root ++ path) = some bytes)
    (h : reader.pyEq actual row = true) : Describes lib reader row path bytes := by
  simp only [OutputDir.inventoryRow, OutputDir.size, OutputDir.digest, ok_bind, ok_pure, ok_bytes,
    hfile, Option.some.injEq] at hactual
  obtain ⟨_, ⟨_, rfl, rfl⟩, _, ⟨_, _, _, rfl, rfl⟩, rfl⟩ := hactual
  cases row with
  | obj fields =>
    rw [Reader.pyEq, Bool.and_eq_true] at h
    obtain ⟨-, hfields⟩ := h
    obtain ⟨p, hp, hpEq⟩ := P6.pyEq_field hfields List.mem_cons_self
    obtain ⟨n, hn, hnEq⟩ := P6.pyEq_field hfields (List.mem_cons_of_mem _ List.mem_cons_self)
    obtain ⟨s, hs, hsEq⟩ := P6.pyEq_field hfields
      (List.mem_cons_of_mem _ (List.mem_cons_of_mem _ List.mem_cons_self))
    refine ⟨fields, n, rfl, ?_, hn, ?_, ?_⟩
    · rw [getField, hp, Reader.pyEq_str hpEq]
    · rw [Reader.pyEq_int hnEq, Int.cast_natCast]
    · rw [getField, hs, Reader.pyEq_str hsEq]
  | _ =>
    rw [Reader.pyEq] at h
    all_goals cases h

/-- Equal lists have equal items. -/
theorem mem_of_pyEqItems {xs ys : List Json} (h : reader.pyEqItems xs ys = true) {x : Json}
    (hx : x ∈ xs) : ∃ y ∈ ys, reader.pyEq x y = true := by
  induction xs generalizing ys with
  | nil => cases hx
  | cons a xs ih =>
    cases ys with
    | nil => cases h
    | cons b ys =>
      rw [Reader.pyEqItems, Bool.and_eq_true] at h
      obtain rfl | htail := List.mem_cons.mp hx
      · exact ⟨b, List.mem_cons_self, h.1⟩
      · obtain ⟨y, hy, heq⟩ := ih h.2 htail
        exact ⟨y, List.mem_cons_of_mem b hy, heq⟩

/-- The rows of an accepted manifest have flat names. -/
theorem flat_of_checkRows {names seen : List String} {items : List Json}
    (h : checkRows lib reader D root names items = .ok seen) {row : Json} (hrow : row ∈ items)
    {fields : JsonObject} {name : String} (hfields : row = .obj fields)
    (hname : getField fields "path" = some (.str name)) :
    isFlatName name = true ∧ name ≠ "deployment.json" := by
  induction items generalizing names with
  | nil => cases hrow
  | cons item items ih =>
    simp only [checkRows, ok_bind, ok_require] at h
    obtain ⟨value, hvalue, text, htext, _, ⟨hflat, hfixed, _⟩, _, _, _, _, _, _, _, _, _, _, _, _, _, _,
      hrest⟩ := h
    obtain rfl | htail := List.mem_cons.mp hrow
    · rw [hfields, getOr, hname] at hvalue
      have hstr : Json.str name = value := Except.ok.inj hvalue
      rw [← hstr] at htext
      have heq : name = text := Except.ok.inj htext
      rw [heq]
      exact ⟨hflat, fun hdeployment => hfixed (by simp [hdeployment])⟩
    · exact ih hrest htail

/-- A path with more than one part is no flat name. -/
theorem not_flat_posix {path : Path} (hpath : 2 ≤ path.length) : isFlatName (posix path) = false := by
  match path, hpath with
  | a :: b :: rest, _ =>
    have hslash : '/' ∈ (posix (a :: b :: rest)).toList := by
      rw [posix]
      · simp
      · simp
    rw [Bool.eq_false_iff]
    intro hflat
    rw [isFlatName, Bool.and_eq_true, List.all_eq_true] at hflat
    exact absurd (hflat.2 '/' hslash) (by decide)

/-- What an accepted package is: its rows are flat, and describe its files. -/
theorem of_validatePackage {document : Json} (h : validatePackage lib reader D root source = .ok document) :
    ∃ items, document.get "files" = .ok (.arr items) ∧
      (∀ row ∈ items, ∀ path bytes, Describes lib reader row path bytes →
        path.length < 2 ∧ posix path ≠ "deployment.json") ∧
      ∀ path bytes, path ≠ [] → root ++ path ∈ D.paths → D.file (root ++ path) = some bytes →
        path.getLast? ≠ some "deployment.json" → ∃ row ∈ items, Describes lib reader row path bytes := by
  simp only [validatePackage, checkManifest, ok_bind, ok_pure, ok_require] at h
  obtain ⟨_, _, document', _, items, ⟨_, _, _, _, _, _, _, _, _, _, _, _, _, _, files, hfiles, hitems⟩, seen,
    hrows, _, _, actual, hactual, _, hequal, _, _, rfl⟩ := h
  have harr : files = .arr items := by
    unfold fileList at hitems
    split at hitems
    · split at hitems
      · rw [Except.ok.inj hitems]
      · cases hitems
    · cases hitems
  refine ⟨items, by rw [hfiles, harr], ?_, ?_⟩
  · rintro row hrow path bytes ⟨fields, size, hobj, hpath, -⟩
    obtain ⟨hflat, hne⟩ := flat_of_checkRows hrows hrow hobj hpath
    refine ⟨?_, hne⟩
    by_contra hlong
    rw [not_flat_posix (not_lt.mp hlong)] at hflat
    cases hflat
  · intro path bytes hne hmem hfile hlast
    simp only [OutputDir.inventory, ok_bind] at hactual
    obtain ⟨_, _, hmap⟩ := hactual
    have hlisted : path ∈ (D.filesBelow root).filter fun path => path.getLast? ≠ some "deployment.json" := by
      rw [List.mem_filter]
      exact ⟨mem_filesBelow.mpr ⟨hne, hmem, by rw [hfile]; rfl⟩, decide_eq_true hlast⟩
    obtain ⟨y, hy, hrow⟩ := mem_of_mapM hmap hlisted
    rw [Reader.pyEq] at hequal
    obtain ⟨row, hrowMem, hpy⟩ := mem_of_pyEqItems hequal hy
    exact ⟨row, hrowMem, describes_of_pyEq hrow hfile hpy⟩

/-! ### The source and the result -/

theorem of_sourceFromRun (h : sourceFromRun lib reader D = .ok source) :
    ∃ manifest, Holds reader D ["training_artifacts.json"] manifest ∧
      source.identity = identityOf reader (.obj manifest) := by
  simp only [sourceFromRun, checkSource, expectText, ok_bind, ok_pure] at h
  obtain ⟨_, _, _, _, document, hdocument, _, _, _, _, _, _, _, _, _, ⟨_, ⟨value, hvalue, _⟩, _⟩, _, _, _,
    _, _, _, _, _, _, _, _, _, _, _, _, _, rfl⟩ := h
  obtain ⟨raw, hraw, hloads⟩ := file_of_read hdocument
  obtain ⟨fields, rfl, -⟩ := obj_of_get hvalue
  exact ⟨fields, ⟨raw, hraw, hloads⟩, rfl⟩

theorem mem_identityOf {manifest : JsonObject} {key : String} {value : Json} :
    (key, value) ∈ identityOf reader (.obj manifest) ↔
      key ∈ identityFields ∧ (getField manifest key).getD .null = value ∧ reader.truthy value = true := by
  rw [identityOf, List.mem_filterMap]
  constructor
  · rintro ⟨k, hk, h⟩
    simp only [Json.get] at h
    split at h
    · next htruthy =>
      obtain ⟨rfl, rfl⟩ := Prod.mk.inj (Option.some.inj h)
      exact ⟨hk, rfl, htruthy⟩
    · cases h
  · rintro ⟨hk, rfl, htruthy⟩
    refine ⟨key, hk, ?_⟩
    simp only [Json.get]
    rw [if_pos htruthy]

/-- A frozen field is a text that is not empty. -/
theorem FrozenIdentity.truthy (job : FrozenIdentity) {field : String × Json} (hfield : field ∈ job.fields) :
    ∃ text, field.2 = .str text ∧ reader.truthy field.2 = true := by
  have hne : ∀ {text : String}, Text.strip text ≠ "" → reader.truthy (.str text) = true := by
    intro text hstrip
    rw [Reader.truthy, bne_iff_ne]
    rintro rfl
    exact hstrip (by decide)
  have hfrozen := job.frozen
  simp only [List.forall_mem_cons] at hfrozen
  obtain ⟨hdataset, hsha, hrun, hrunSha, -⟩ := hfrozen
  simp only [FrozenIdentity.fields, List.mem_cons, List.not_mem_nil, or_false] at hfield
  obtain rfl | rfl | rfl | rfl := hfield
  · exact ⟨_, rfl, hne hdataset⟩
  · exact ⟨_, rfl, hne hsha⟩
  · exact ⟨_, rfl, hne hrun⟩
  · exact ⟨_, rfl, hne hrunSha⟩

/-- The identity a manifest states is that of a job when each field is. -/
theorem identityOf_eq_fields {manifest : JsonObject} {job : FrozenIdentity} :
    identityOf reader (.obj manifest) = job.fields ↔
      ∀ field ∈ job.fields, getField manifest field.1 = some field.2 := by
  constructor
  · intro h field hfield
    obtain ⟨text, htext, -⟩ : ∃ text, field.2 = .str text ∧ reader.truthy field.2 = true := job.truthy hfield
    have hmem : (field.1, field.2) ∈ identityOf reader (.obj manifest) := h ▸ hfield
    obtain ⟨-, hvalue, -⟩ := mem_identityOf.mp hmem
    rw [htext] at hvalue
    rw [htext]
    cases hget : getField manifest field.1 with
    | none =>
      rw [hget] at hvalue
      cases hvalue
    | some value =>
      rw [hget] at hvalue
      exact congrArg some hvalue
  · intro h
    have hkeys : identityFields = job.fields.map (·.1) := rfl
    rw [identityOf, hkeys, List.filterMap_map]
    refine (List.filterMap_congr fun field hfield => ?_).trans List.filterMap_some
    obtain ⟨text, -, htruthy⟩ : ∃ text, field.2 = .str text ∧ reader.truthy field.2 = true := job.truthy hfield
    simp only [Function.comp_apply, Json.get, h field hfield, Option.getD_some]
    rw [if_pos htruthy]

/-- What the checks of a result come to. -/
theorem of_checkResult {expected : Option JsonObject} {checked : Checked}
    (h : checkResult lib reader D expected = .ok checked) :
    sourceFromRun lib reader D = .ok checked.source ∧
      (∀ name document, checked.package = some (name, document) →
        validatePackage lib reader D ["cnn_onnx", name] checked.source = .ok document) ∧
      ∀ name, isPackageName name = true →
        (Names reader D name ↔ ∃ document, checked.package = some (name, document)) := by
  simp only [checkResult, ok_bind] at h
  obtain ⟨source, hsource, _, _, report, hreport, _, _, _, _, _, _, value, hvalue, h⟩ := h
  obtain ⟨fields, rfl, hpackage⟩ := obj_of_getOr hvalue
  obtain ⟨raw, hraw, hloads⟩ := file_of_read hreport
  have hnames : ∀ name, isPackageName name = true → (Names reader D name ↔ value = .str name) := by
    intro name hname
    constructor
    · rintro ⟨fields', ⟨raw', hraw', hloads'⟩, hfield⟩
      obtain rfl : raw' = raw := Option.some.inj (hraw'.symm.trans hraw)
      obtain rfl : fields' = fields := Json.obj.inj (Option.some.inj (hloads'.symm.trans hloads))
      rw [← hpackage, hfield, Option.getD_some]
    · rintro rfl
      refine ⟨fields, ⟨raw, hraw, hloads⟩, ?_⟩
      cases hget : getField fields "package" with
      | none =>
        rw [hget, Option.getD_none] at hpackage
        obtain rfl : "" = name := Json.str.inj hpackage
        exact absurd hname (by decide)
      | some x =>
        rw [hget, Option.getD_some] at hpackage
        rw [hpackage]
  split at h
  · simp only [checkNamed, ok_bind, ok_pure, ok_require] at h
    obtain ⟨_, ⟨name, htext, _, hname, document, hvalid, _, _, _, _, _, _, rfl⟩, rfl⟩ := h
    obtain rfl := eq_of_asText htext
    refine ⟨hsource, ?_, ?_⟩
    · intro name' document' heq
      obtain ⟨rfl, rfl⟩ := Prod.mk.inj (Option.some.inj heq)
      exact hvalid
    · intro name' hname'
      rw [hnames name' hname']
      constructor
      · intro heq
        rw [Json.str.inj heq]
        exact ⟨document, rfl⟩
      · rintro ⟨_, heq⟩
        rw [(Prod.mk.inj (Option.some.inj heq)).1]
  · next hfalsy =>
    simp only [ok_bind, ok_pure] at h
    obtain ⟨_, _, rfl⟩ := h
    refine ⟨hsource, fun _ _ heq => (by cases heq), ?_⟩
    intro name hname
    rw [hnames name hname]
    constructor
    · rintro rfl
      -- a name of a package is not empty
      refine (hfalsy ?_).elim
      rw [Reader.truthy, bne_iff_ne]
      rintro rfl
      exact absurd hname (by decide)
    · rintro ⟨_, heq⟩
      cases heq

/-! ### Publishing -/

theorem mem_packMembers {checkFree : ℕ → Except Exc Unit} {paths : List Path}
    {members : List (Path × Bytes)} (h : packMembers checkFree D paths = .ok members) (path : Path)
    (bytes : Bytes) : (path, bytes) ∈ members ↔ path ∈ paths ∧ D.file path = some bytes := by
  induction paths generalizing members with
  | nil =>
    cases h
    simp
  | cons p paths ih =>
    rw [packMembers] at h
    cases hp : D.file p with
    | none =>
      simp only [hp] at h
      rw [ih h, List.mem_cons]
      constructor
      · rintro ⟨hmem, hfile⟩
        exact ⟨.inr hmem, hfile⟩
      · rintro ⟨rfl | hmem, hfile⟩
        · rw [hp] at hfile
          cases hfile
        · exact ⟨hmem, hfile⟩
    | some b =>
      simp only [hp, ok_bind, ok_pure] at h
      obtain ⟨_, _, rest, hrest, rfl⟩ := h
      rw [List.mem_cons, List.mem_cons, ih hrest, Prod.mk.injEq]
      constructor
      · rintro (⟨rfl, rfl⟩ | ⟨hmem, hfile⟩)
        · exact ⟨.inl rfl, hp⟩
        · exact ⟨.inr hmem, hfile⟩
      · rintro ⟨rfl | hmem, hfile⟩
        · exact .inl ⟨rfl, Option.some.inj (hfile.symm.trans hp)⟩
        · exact .inr ⟨hmem, hfile⟩

/-- What a PatchCore job publishes of an output with a CNN result. -/
theorem of_publishArtifacts {checkFree : ℕ → Except Exc Unit} {job : FrozenIdentity}
    {published : Published}
    (h : publishArtifacts lib reader checkFree D "patchcore" job = .ok published)
    (hresult : (D.file ["cnn_onnx", "result.json"]).isSome) :
    (∀ path bytes, (path, bytes) ∈ published.members ↔ path ∈ D.paths ∧ D.file path = some bytes) ∧
      ∃ checked, checkResult lib reader D none = .ok checked ∧
        published.source = some checked.source ∧ published.package = checked.package := by
  have hoptions : packagingOptions "patchcore" job = none := if_neg (by decide)
  simp only [publishArtifacts, hoptions, packageArtifacts, ok_bind, ok_pure] at h
  obtain ⟨_, _, _, _, checked?, hchecked, members, hmembers, rfl⟩ := h
  rw [checkCnn, if_pos ⟨rfl, hresult⟩] at hchecked
  refine ⟨mem_packMembers hmembers, ?_⟩
  split at hchecked
  · next checked hok =>
    cases hchecked
    exact ⟨checked, hok, rfl, rfl⟩
  · cases hchecked

/-- What is published is bound to the job when, and only when, the output
states its identity, holds one package at most, and that one manifest. -/
theorem bound_iff_undisturbed (lib : Library) (reader : Reader) (checkFree : ℕ → Except Exc Unit)
    (D : OutputDir) (job : FrozenIdentity) :
    match publishArtifacts lib reader checkFree D "patchcore" job with
    | .error _ => True
    | .ok published => (D.file ["cnn_onnx", "result.json"]).isSome →
        (Bound lib reader D job published ↔ Undisturbed reader D job) := by
  cases hpublish : publishArtifacts lib reader checkFree D "patchcore" job with
  | error e => trivial
  | ok published =>
    intro hresult
    obtain ⟨hmembers, checked, hchecked, hsource, hpackage⟩ := of_publishArtifacts hpublish hresult
    obtain ⟨hrun, hvalid, hnamed⟩ := of_checkResult hchecked
    obtain ⟨manifest, hmanifest, hidentity⟩ := of_sourceFromRun hrun
    constructor
    · rintro ⟨⟨source, hsource', hequal⟩, hpackages⟩
      obtain rfl : checked.source = source := Option.some.inj (hsource.symm.trans hsource')
      refine ⟨⟨manifest, hmanifest, identityOf_eq_fields.mp (hidentity.symm.trans hequal)⟩, ?_⟩
      intro path hpath hfile name rest hin
      obtain ⟨bytes, hbytes⟩ := Option.isSome_iff_exists.mp hfile
      obtain ⟨document, hdocument, -, hcovered⟩ :=
        hpackages path bytes ((hmembers path bytes).mpr ⟨hpath, hbytes⟩) name rest hin
      rw [hpackage] at hdocument
      refine ⟨(hnamed name hin.name_ok).mpr ⟨document, hdocument⟩, ?_⟩
      intro hlast
      obtain hown | ⟨items, hitems, row, hrow, hdescribes⟩ := hcovered
      · exact hown
      · -- a row has one part, and is not the manifest
        obtain ⟨items', hitems', hflat, -⟩ := of_validatePackage (hvalid name document hdocument)
        obtain rfl : items = items' := Json.arr.inj (Except.ok.inj (hitems.symm.trans hitems'))
        obtain ⟨hlength, hne⟩ := hflat row hrow rest bytes hdescribes
        match rest, hin.below, hlength with
        | [part], _, _ =>
          obtain rfl : part = "deployment.json" := Option.some.inj hlast
          exact absurd rfl hne
    · rintro ⟨⟨fields, ⟨raw, hraw, hloads⟩, hfields⟩, hpackages⟩
      obtain ⟨raw', hraw', hloads'⟩ := hmanifest
      obtain rfl : raw' = raw := Option.some.inj (hraw'.symm.trans hraw)
      obtain rfl : manifest = fields := Json.obj.inj (Option.some.inj (hloads'.symm.trans hloads))
      refine ⟨⟨checked.source, hsource, hidentity.trans (identityOf_eq_fields.mpr hfields)⟩, ?_⟩
      intro path bytes hmem name rest hin
      obtain ⟨hpath, hbytes⟩ := (hmembers path bytes).mp hmem
      obtain ⟨hnames, honly⟩ := hpackages path hpath (by rw [hbytes]; rfl) name rest hin
      obtain ⟨document, hdocument⟩ := (hnamed name hin.name_ok).mp hnames
      have haccepted := hvalid name document hdocument
      refine ⟨document, hpackage.trans hdocument, ⟨checked.source, hsource, haccepted⟩, ?_⟩
      by_cases hlast : rest.getLast? = some "deployment.json"
      · exact .inl (honly hlast)
      · obtain ⟨items, hitems, -, hrows⟩ := of_validatePackage haccepted
        have hwhole : ["cnn_onnx", name] ++ rest = path := hin.path_eq.symm
        obtain ⟨row, hrow, hdescribes⟩ := hrows rest bytes hin.below (by rw [hwhole]; exact hpath)
          (by rw [hwhole]; exact hbytes) hlast
        exact .inr ⟨items, hitems, row, hrow, hdescribes⟩

/-! ### The output of another run -/

section Trial

open P6 (bytesOf mark modelHash)

def otherThresholdHash : String :=
  "0003e79e6d1df6e412c68f2cb7164f04e7dfd5ebc11ffab943c93b5c72fb5d85"

def otherEnvironmentHash : String :=
  "99e95593fdca3ef8a34e1090b0c9930a4ff64a4e714255131e883634ed11d139"

def otherThreshold : Json :=
  .obj [("threshold", .int 1), ("model_sha256", .str modelHash),
    ("score_kind", .str "patchcore_anomalib_raw_image_score"),
    ("decision_rule", .str "score_gte_threshold")]

def otherEnvironment : Json := .obj [("packages", .obj [("anomalib", .str "2.5.1")])]

def otherRow (path sha256 : String) (size : ℕ) : Json :=
  .obj [("path", .str path), ("sha256", .str sha256), ("size", .int size)]

/-- The manifest of the run that was downloaded. -/
def otherManifest : JsonObject :=
  [("implementation", .str "anomalib"), ("anomalib_version", .str "2.5.1"),
    ("dataset_id", .str "a"), ("identity_sha256", .str "b"), ("run_id", .str "other"),
    ("run_identity_sha256", .str "c"),
    ("patchcore_params", .obj [("backbone", .str "resnet18"), ("layers", .arr [.str "layer2"]),
      ("coreset_sampling_ratio", .int 1), ("num_neighbors", .int 1), ("pre_trained", .bool false),
      ("image_size", .int 32)]),
    ("artifacts", .arr [otherRow "model.ckpt" modelHash 1,
      otherRow "threshold.json" otherThresholdHash 185,
      otherRow "environment.json" otherEnvironmentHash 33])]

def otherResult : Json := .obj [("status", .str "PENDING")]

/-- The hash function, on the files of the run. -/
def otherLibrary : Library where
  sha256 bytes :=
    (([((some 119, none), modelHash), ((some 123, some 34), otherThresholdHash),
      ((some 123, some 58), otherEnvironmentHash),
      ((some 123, some 97), "c00eef7ee4bd385d83d9c64aa3a3a8897afe4bfb769869d429f0e0e87af91698")] :
      List ((Option UInt8 × Option UInt8) × String)).lookup (mark bytes)).getD ""
  casefold text := text
  lower text := text

/-- The parser, on the documents of the run. -/
def otherReader : Reader where
  loads raw :=
    ([((some 123, some 34), otherThreshold), ((some 123, some 58), otherEnvironment),
      ((some 123, some 97), .obj otherManifest), ((some 123, some 80), otherResult)] :
      List ((Option UInt8 × Option UInt8) × Json)).lookup (mark raw)
  float _ := none

/-- The files of the run. -/
def otherFiles : List (Path × Bytes) :=
  [(["anomaly_metrics.json"], bytesOf (.obj [])), (["cnn_onnx", "result.json"], bytesOf otherResult),
    (["environment.json"], bytesOf otherEnvironment), (["model.ckpt"], [119]),
    (["threshold.json"], bytesOf otherThreshold),
    (["training_artifacts.json"], bytesOf (.obj otherManifest))]

def otherOutput : OutputDir where
  paths := ["cnn_onnx"] :: otherFiles.map (·.1)
  file path := otherFiles.lookup path
  linked _ := false

/-- The job is about the run `run`. -/
def ownJob : FrozenIdentity := ⟨"a", "b", "run", "c", by decide⟩

theorem otherOutput_published :
    (publishArtifacts otherLibrary otherReader (fun _ => .ok ()) otherOutput "patchcore" ownJob).isOk :=
  by decide +kernel

/-- The output of another run is published for the job. -/
theorem other_run_published : ∃ lib reader checkFree D job published,
    publishArtifacts lib reader checkFree D "patchcore" job = .ok published ∧
      (D.file ["cnn_onnx", "result.json"]).isSome ∧ ¬Bound lib reader D job published := by
  obtain ⟨published, hpublished⟩ : ∃ published, publishArtifacts otherLibrary otherReader
      (fun _ => .ok ()) otherOutput "patchcore" ownJob = .ok published := by
    have hok := otherOutput_published
    cases h : publishArtifacts otherLibrary otherReader (fun _ => .ok ()) otherOutput "patchcore"
        ownJob with
    | ok published => exact ⟨published, rfl⟩
    | error e =>
      rw [h] at hok
      cases hok
  have hresult : (otherOutput.file ["cnn_onnx", "result.json"]).isSome := by decide
  refine ⟨otherLibrary, otherReader, fun _ => .ok (), otherOutput, ownJob, published, hpublished,
    hresult, ?_⟩
  rintro ⟨⟨source, hsource, hequal⟩, -⟩
  obtain ⟨-, checked, hchecked, hsource', -⟩ := of_publishArtifacts hpublished hresult
  obtain rfl : checked.source = source := Option.some.inj (hsource'.symm.trans hsource)
  obtain ⟨manifest, ⟨raw, hraw, hloads⟩, hidentity⟩ := of_sourceFromRun (of_checkResult hchecked).1
  have hfile : otherOutput.file ["training_artifacts.json"] = some (bytesOf (.obj otherManifest)) :=
    by decide +kernel
  obtain rfl : bytesOf (.obj otherManifest) = raw := Option.some.inj (hfile.symm.trans hraw)
  have hmark : mark (bytesOf (.obj otherManifest)) = (some 123, some 97) := by decide +kernel
  have hparse : otherReader.loads (bytesOf (.obj otherManifest)) = some (.obj otherManifest) := by
    simp only [otherReader, hmark]
    rfl
  obtain rfl : otherManifest = manifest := Json.obj.inj (Option.some.inj (hparse.symm.trans hloads))
  -- the manifest names the other run
  have hrun : getField otherManifest "run_id" = some (.str ownJob.runId) :=
    identityOf_eq_fields.mp (hidentity.symm.trans hequal) ("run_id", .str ownJob.runId)
      (by simp [FrozenIdentity.fields])
  have hother : getField otherManifest "run_id" = some (.str "other") := rfl
  exact absurd (Json.str.inj (Option.some.inj (hother.symm.trans hrun))) (by decide)

end Trial

end Cnn

end KaggleRelay
