/-
The metadata files of a job's payloads.

`rewriteDatasetSources` points the entries of a kernel's `dataset_sources` that
name the job's Dataset at the reference it is given, and
`pinKernelDatasetVersion` writes the version into them.
-/
import KaggleRelay.RelayOps

namespace KaggleRelay

open Effects JsonText

/-- `str.lower`; on ASCII it is what Lean's is. -/
def Library.lowerText (lib : Library) (text : String) : String :=
  if text.toList.all (·.toNat < 128) then String.ofList (text.toList.map Char.toLower)
  else lib.lower text

/-! ### References -/

/-- `split_kaggle_ref`. -/
def splitKaggleRef (value name : String) : Except Exc (String × String) :=
  let ref := Text.strip value
  let (owner, slug) := (ref.toList.takeWhile (· ≠ '/'), ref.toList.dropWhile (· ≠ '/'))
  match slug with
  | [] => .error ⟨.archiveError, name ++ " must be in owner/slug format"⟩
  | _ :: slug =>
    let owner := Text.strip (String.ofList owner)
    let slug := Text.strip (String.ofList slug)
    if owner = "" ∨ slug = "" then .error ⟨.archiveError, name ++ " must be in owner/slug format"⟩
    else .ok (owner, slug)

/-- `kaggle_ref_slug`. -/
def kaggleRefSlug (value : String) : String :=
  match Text.split (Text.strip value) '/' with
  | _ :: slug :: _ => Text.strip slug
  | _ => ""

/-- `rewrite_ref_owner`. -/
def rewriteRefOwner (value owner : String) : Except Exc String :=
  let owner := Text.strip owner
  if owner = "" then .ok (Text.strip value)
  else (splitKaggleRef value "kaggle ref").map fun (_, slug) => owner ++ "/" ++ slug

/-- `f"{dataset_ref}/{version_number}"`. -/
def versionedRef (datasetRef : String) (version : ℤ) : String :=
  datasetRef ++ "/" ++ intText version

/-! ### Dataset statuses -/

/-- `str(value or "")`. -/
def Settings.strOr (s : Settings) : Option Json → String
  | none | some .null | some (.bool false) => ""
  | some (.bool true) => "True"
  | some (.int z) => if z = 0 then "" else intText z
  | some (.str text) => text
  | some x => s.textOf x

/-- `metadata.get(key)`. -/
def getField (object : JsonObject) (key : String) : Option Json := object.lookup key

theorem lookup_cons_ite (f : String × Json) (fields : JsonObject) (j : String) :
    List.lookup j (f :: fields) = if j = f.1 then some f.2 else fields.lookup j := by
  rw [List.lookup_cons]
  by_cases h : j = f.1
  · rw [if_pos h, beq_iff_eq.mpr h]
  · rw [if_neg h, beq_eq_false_iff_ne.mpr h]

theorem lookup_map_set (fields : JsonObject) (k j : String) (x : Json) :
    (fields.map fun f => if f.1 == k then (k, x) else f).lookup j =
      if j = k ∧ fields.any (·.1 == k) then some x else fields.lookup j := by
  induction fields with
  | nil => simp
  | cons f fields ih =>
    rw [List.map_cons, lookup_cons_ite, lookup_cons_ite, ih, List.any_cons]
    by_cases hf : f.1 = k
    · by_cases hj : j = k <;> simp [hf, hj]
    · have hb : (f.1 == k) = false := beq_eq_false_iff_ne.mpr hf
      simp only [hb, Bool.false_or, Bool.false_eq_true, if_false]
      by_cases hj : j = f.1
      · rw [if_pos hj, if_pos hj, if_neg fun h => hf (hj.symm.trans h.1)]
      · rw [if_neg hj, if_neg hj]

theorem lookup_setField (fields : JsonObject) (k j : String) (x : Json) :
    (setField fields k x).lookup j = if j = k then some x else fields.lookup j := by
  unfold setField
  split
  · next hany =>
    rw [lookup_map_set]
    simp [hany]
  · next hany =>
    rw [List.lookup_append, lookup_cons_ite, List.lookup_nil]
    by_cases hj : j = k
    · have hnone : fields.lookup k = none := by
        rw [List.lookup_eq_none_iff]
        intro f hf
        simp only [List.any_eq_true, not_exists, not_and] at hany
        simpa using Ne.symm (by simpa using hany f hf)
      rw [if_pos hj, if_pos hj, hj, hnone]
      rfl
    · rw [if_neg hj, if_neg hj, Option.or_none]

theorem getField_setField (fields : JsonObject) (k j : String) (x : Json) :
    getField (setField fields k x) j = if j = k then some x else getField fields j :=
  lookup_setField fields k j x

/-- Setting a field twice to one value. -/
theorem setField_setField (fields : JsonObject) (k : String) (x : Json) :
    setField (setField fields k x) k x = setField fields k x := by
  have hany : (setField fields k x).any (·.1 == k) = true := by
    by_contra hnone
    have hlookup := lookup_setField fields k k x
    rw [if_pos rfl] at hlookup
    have hmissing : (setField fields k x).lookup k = none := by
      rw [List.lookup_eq_none_iff]
      intro field hfield
      rw [bne_iff_ne]
      rintro rfl
      exact hnone (List.any_eq_true.mpr ⟨field, hfield, beq_self_eq_true _⟩)
    rw [hmissing] at hlookup
    cases hlookup
  rw [setField, if_pos hany]
  have hself : ∀ field ∈ setField fields k x, (if field.1 == k then (k, x) else field) = field := by
    intro field hfield
    by_cases hk : field.1 = k
    · rw [if_pos (beq_iff_eq.mpr hk)]
      -- the field has been set before
      rw [setField] at hfield
      split at hfield
      · obtain ⟨before, -, rfl⟩ := List.mem_map.mp hfield
        by_cases hbefore : before.1 = k
        · rw [if_pos (beq_iff_eq.mpr hbefore)]
        · rw [if_neg (by simpa using hbefore)] at hk
          exact (hbefore hk).elim
      · next hfresh =>
        obtain hold | hnew := List.mem_append.mp hfield
        · exact (hfresh (List.any_eq_true.mpr ⟨field, hold, beq_iff_eq.mpr hk⟩)).elim
        · rw [List.mem_singleton.mp hnew]
    · rw [if_neg (by simpa using hk)]
  exact (List.map_congr_left hself).trans (List.map_id _)

/-- `int(value)`, `none` where it raises. -/
def Settings.toInt (s : Settings) : Json → Option ℤ
  | .int z => some z
  | .bool b => some (if b then 1 else 0)
  | .null | .arr _ | .obj _ => none
  | x => s.intOf x

/-- `parse_kaggle_dataset_status`. -/
def Settings.parseKaggleDatasetStatus (s : Settings) (output : String) : String × Option ℤ :=
  let text := Text.strip output
  let payload : Option JsonObject :=
    match Text.find text openBrace, Text.rfind text closeBrace with
    | some i, some j =>
      if i < j then
        match loads (Text.slice text i j) with
        | some (.obj fields) => some fields
        | _ => none
      else none
    | _, _ => none
  match payload with
  | some payload =>
    let status := s.lib.lowerText (Text.strip (s.strOr (getField payload "status")))
    let version := ((getField payload "current_version_number").or
      (getField payload "currentVersionNumber")).bind s.toInt
    (status, version)
  | none =>
    let lines := s.statusLines text
    let known := lines.reverse.find? fun line =>
      line ∈ ["ready", "complete", "ok", "failed", "error", "deleted"]
    (known.getD (lines.getLast?.getD ""), none)

/-- `is_ready_dataset_status`. -/
def Settings.isReadyDatasetStatus (s : Settings) (status : String) : Bool :=
  ["ready", "complete", "ok"].contains (s.parseKaggleDatasetStatus status).1

/-- `ready_dataset_version`. -/
def Settings.readyDatasetVersion (s : Settings) (status : String) : Option ℤ :=
  match s.parseKaggleDatasetStatus status with
  | (name, some version) =>
    if ["ready", "complete", "ok"].contains name ∧ 0 < version then some version else none
  | (_, none) => none

/-! ### Rewriting `dataset_sources` -/

/-- The entry names the Dataset with this slug, in lower case. -/
def Settings.namesSlug (s : Settings) (slug : String) : Json → Bool
  | .str source => s.lib.lowerText (kaggleRefSlug source) == slug
  | _ => false

/-- `rewrite_dataset_sources`: the metadata with the entries replaced, `none`
where nothing changes. -/
def Settings.rewriteDatasetSources (s : Settings) (metadata : JsonObject)
    (finalDatasetRef : String) : Option JsonObject :=
  let finalSlug := s.lib.lowerText (kaggleRefSlug finalDatasetRef)
  if finalSlug = "" then none
  else
    match getField metadata "dataset_sources" with
    | some (.arr sources) =>
      let changed := sources.any fun source =>
        s.namesSlug finalSlug source && match source with
          | .str ref => ref != finalDatasetRef
          | _ => false
      if changed then
        some (setField metadata "dataset_sources" (.arr (sources.map fun source =>
          if s.namesSlug finalSlug source then .str finalDatasetRef else source)))
      else none
    | _ => none

/-! ### Checking and preparing the files -/

/-- The file's name. -/
def MetadataFile.name : MetadataFile → String
  | .dataset => "dataset-metadata.json"
  | .kernel => "kernel-metadata.json"

namespace Relay

variable (s : Settings)

/-- `require_file`. -/
def requireFile (dir name : String) : Relay Unit := call (.requireFile dir name)

/-- `pin_kernel_dataset_version`. -/
def pinKernelDatasetVersion (kernelDir datasetRef : String) (version : ℤ) : Relay Unit :=
  if version ≤ 0 then pure ()
  else do
    requireFile kernelDir MetadataFile.kernel.name
    let metadata ← readMetadata kernelDir .kernel
    match s.rewriteDatasetSources metadata (versionedRef datasetRef version) with
    | some metadata => writeMetadata kernelDir .kernel metadata
    | none => pure ()

/-- The `id` of a metadata file agrees with the reference it is for. -/
def checkMetadataId (file : MetadataFile) (metadataRef expectedRef : String) : Except Exc Unit :=
  if metadataRef = "" then .ok ()
  else do
    let (_, metadataSlug) ← splitKaggleRef metadataRef (file.name ++ " id")
    let (_, expectedSlug) ← splitKaggleRef expectedRef (file.name ++ " requested ref")
    if s.lib.lowerText metadataSlug ≠ s.lib.lowerText expectedSlug then
      .error ⟨.archiveError,
        file.name ++ " id " ++ metadataRef ++ " does not match requested ref " ++ expectedRef⟩
    else .ok ()

/-- `prepare_metadata_ref`. -/
def prepareMetadataRef (dir : String) (file : MetadataFile) (expectedRef finalDatasetRef : String) :
    Relay JsonObject := do
  let metadata ← readMetadata dir file
  let metadataRef := Text.strip (s.strOr (getField metadata "id"))
  Eff.lift (if expectedRef = "" then .ok () else checkMetadataId s file metadataRef expectedRef)
  let renamed := expectedRef ≠ "" ∧ metadataRef ≠ expectedRef
  let metadata := if renamed then setField metadata "id" (.str expectedRef) else metadata
  let rewritten := if file = .kernel then s.rewriteDatasetSources metadata finalDatasetRef else none
  let metadata := rewritten.getD metadata
  if renamed ∨ rewritten.isSome then do
    writeMetadata dir file metadata
    pure metadata
  else pure metadata

/-- `validate_metadata_ref`. -/
def validateMetadataRef (metadata : JsonObject) (file : MetadataFile)
    (expectedRef username : String) : Except Exc Unit := do
  let metadataRef := Text.strip (s.strOr (getField metadata "id"))
  if metadataRef = "" then
    throw ⟨.archiveError, file.name ++ " requires id"⟩
  let (metadataOwner, _) ← splitKaggleRef metadataRef (file.name ++ " id")
  if expectedRef ≠ "" ∧ s.lib.lowerText metadataRef ≠ s.lib.lowerText expectedRef then
    throw ⟨.archiveError,
      file.name ++ " id " ++ metadataRef ++ " does not match requested ref " ++ expectedRef⟩
  let username := Text.strip username
  if username ≠ "" ∧ s.lib.lowerText metadataOwner ≠ s.lib.lowerText username then
    throw ⟨.archiveError,
      file.name ++ " owner " ++ metadataOwner ++ " does not match Kaggle key username " ++ username⟩

/-- `validate_kernel_payload`. -/
def validateKernelPayload (kernelDir kernelRef username datasetRef : String) : Relay Unit := do
  requireFile kernelDir MetadataFile.kernel.name
  let metadata ← prepareMetadataRef s kernelDir .kernel kernelRef datasetRef
  Eff.lift (validateMetadataRef s metadata .kernel kernelRef username)
  let codeFile := s.strOr ((getField metadata "code_file").getD (.str "train.py"))
  requireFile kernelDir (if codeFile = "" then "train.py" else codeFile)

/-- `validate_payloads`. -/
def validatePayloads (datasetDir kernelDir datasetRef kernelRef username : String) : Relay Unit := do
  requireFile datasetDir MetadataFile.dataset.name
  let metadata ← prepareMetadataRef s datasetDir .dataset datasetRef ""
  Eff.lift (validateMetadataRef s metadata .dataset datasetRef username)
  validateKernelPayload s kernelDir kernelRef username datasetRef

end Relay

end KaggleRelay
