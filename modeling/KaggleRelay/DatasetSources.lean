/-
The entries of a kernel's `dataset_sources`.

A rewrite replaces the entries that name the Dataset of its target.  What it
makes of a file depends on the last target alone, however often accounts are
bound again and versions pinned before.

* `Redirects` — replacing by key, over any type;
* `rewriteDatasetSources_eq` — a call is such a replacement, entry by entry;
* `kaggleRefSlug_versionedRef` — a version does not change the slug;
* `dataset_sources_last_wins` — the algebra of calls, and of the two functions
  that make them on a file.
-/
import Mathlib.Data.List.TakeWhile
import KaggleRelay.Runs

/-! ### Replacing by key -/

namespace Redirects

variable {α κ : Type} [DecidableEq κ] (key : α → Option κ)

/-- The elements that `target` stands for: those with its key. -/
def Names (target a : α) : Prop := (key target).isSome ∧ key a = key target

instance (target a : α) : Decidable (Names key target a) :=
  inferInstanceAs (Decidable (_ ∧ _))

/-- `target` in the place of what it stands for. -/
def redirect (target a : α) : α := if Names key target a then target else a

variable {key} {target other a : α}

theorem redirect_of_names (h : Names key target a) : redirect key target a = target := if_pos h

theorem redirect_of_not_names (h : ¬Names key target a) : redirect key target a = a := if_neg h

theorem key_redirect : key (redirect key target a) = key a := by
  by_cases h : Names key target a
  · rw [redirect_of_names h, h.2]
  · rw [redirect_of_not_names h]

theorem names_redirect : Names key target (redirect key other a) ↔ Names key target a := by
  have h : key (redirect key other a) = key a := key_redirect
  rw [Names, Names, h]

/-- A later replacement with the same key undoes an earlier one. -/
theorem redirect_redirect (h : key other = key target) :
    redirect key target (redirect key other a) = redirect key target a := by
  by_cases ha : Names key target a
  · rw [redirect_of_names ha, redirect_of_names (names_redirect.mpr ha)]
  · have ho : ¬Names key other a := by
      rw [Names, h]
      exact ha
    rw [redirect_of_not_names ho]

theorem redirect_self : redirect key target (redirect key target a) = redirect key target a :=
  redirect_redirect rfl

/-- Of replacements with one key the last one counts. -/
theorem foldl_redirect (targets : List α) (h : ∀ t ∈ targets, key t = key target) :
    redirect key target (targets.foldl (fun a t => redirect key t a) a) = redirect key target a := by
  induction targets generalizing a with
  | nil => rfl
  | cons t targets ih =>
    rw [List.foldl_cons, ih fun u hu => h u (List.mem_cons_of_mem t hu)]
    exact redirect_redirect (h t List.mem_cons_self)

end Redirects

/-! ### Texts -/

namespace Text

theorem dropWhile_append_of_exists {p : Char → Bool} {l m : List Char} (h : ∃ c ∈ l, p c = false) :
    (l ++ m).dropWhile p = l.dropWhile p ++ m := by
  induction l with
  | nil =>
    obtain ⟨c, hc, -⟩ := h
    cases hc
  | cons c l ih =>
    rw [List.cons_append, List.dropWhile_cons, List.dropWhile_cons]
    by_cases hc : p c = true
    · rw [if_pos hc, if_pos hc]
      refine ih ?_
      obtain ⟨d, hd, hpd⟩ := h
      rcases List.mem_cons.mp hd with rfl | hd
      · simp [hc] at hpd
      · exact ⟨d, hd, hpd⟩
    · rw [if_neg hc, if_neg hc, List.cons_append]

/-- White space at the end does not matter. -/
theorem stripList_append_spaces (l : List Char) {spaces : List Char}
    (h : ∀ c ∈ spaces, isSpace c = true) : stripList (l ++ spaces) = stripList l := by
  unfold stripList
  by_cases hl : ∃ c ∈ l, isSpace c = false
  · rw [dropWhile_append_of_exists hl, List.reverse_append,
      List.dropWhile_append_of_pos (by simpa using h)]
  · have hall : ∀ c ∈ l, isSpace c = true := by
      intro c hc
      by_contra hne
      exact hl ⟨c, hc, by simpa using hne⟩
    have hboth : ∀ c ∈ l ++ spaces, isSpace c = true := by
      intro c hc
      rcases List.mem_append.mp hc with hc | hc
      · exact hall c hc
      · exact h c hc
    rw [List.dropWhile_eq_nil_iff.mpr hall, List.dropWhile_eq_nil_iff.mpr hboth]

/-- What stripping leaves, and what it takes away at the end. -/
theorem exists_spaces (l : List Char) :
    ∃ spaces, l.dropWhile isSpace = stripList l ++ spaces ∧ ∀ c ∈ spaces, isSpace c = true := by
  refine ⟨((l.dropWhile isSpace).reverse.takeWhile isSpace).reverse, ?_, ?_⟩
  · rw [stripList, ← List.reverse_append, List.takeWhile_append_dropWhile, List.reverse_reverse]
  · intro c hc
    exact List.mem_takeWhile_imp (List.mem_reverse.mp hc)

/-- A text that goes on with characters that are no white space is stripped at
its beginning only. -/
theorem stripList_append_solid {l solid : List Char} (h : ∀ c ∈ solid, isSpace c = false)
    (hne : solid ≠ []) : stripList (l ++ solid) = l.dropWhile isSpace ++ solid := by
  have hdrop : (l ++ solid).dropWhile isSpace = l.dropWhile isSpace ++ solid := by
    by_cases hl : ∃ c ∈ l, isSpace c = false
    · exact dropWhile_append_of_exists hl
    · have hall : ∀ c ∈ l, isSpace c = true := by
        intro c hc
        by_contra hc'
        exact hl ⟨c, hc, by simpa using hc'⟩
      rw [List.dropWhile_append_of_pos hall, List.dropWhile_eq_nil_iff.mpr hall, List.nil_append]
      obtain ⟨c, rest, rfl⟩ := List.exists_cons_of_ne_nil hne
      rw [List.dropWhile_cons_of_neg (by simp [h c List.mem_cons_self])]
  have hlast : ∀ m : List Char, ((m ++ solid).reverse.dropWhile isSpace).reverse = m ++ solid := by
    intro m
    obtain ⟨c, rest, hsolid⟩ := List.exists_cons_of_ne_nil (List.reverse_ne_nil_iff.mpr hne)
    have hc : isSpace c = false := h c (by rw [← List.mem_reverse, hsolid]; exact List.mem_cons_self)
    rw [List.reverse_append, hsolid, List.cons_append, List.dropWhile_cons_of_neg (by simp [hc]),
      ← List.cons_append, ← hsolid, ← List.reverse_append, List.reverse_reverse]
  rw [stripList, hdrop, hlast]

end Text

namespace KaggleRelay

open Effects JsonText Redirects

/-! ### Slugs -/

/-- The slug of the text from a slash on. -/
theorem kaggleRefSlug_of_strip {value : String} {first rest : List Char}
    (h : Text.stripList value.toList = first ++ '/' :: rest) (hfirst : '/' ∉ first) :
    kaggleRefSlug value =
      String.ofList (Text.stripList (rest.takeWhile (· ≠ '/'))) := by
  have hsplit : (first ++ '/' :: rest).splitOn '/' = first :: rest.splitOn '/' := by
    rw [List.splitOn_append_cons_self, List.splitOn_eq_singleton hfirst]
    rfl
  have hsecond : ∃ more, rest.splitOn '/' = rest.takeWhile (· ≠ '/') :: more := by
    by_cases hrest : '/' ∈ rest
    · obtain ⟨second, tail, rfl, hsecond⟩ := List.eq_append_cons_of_mem hrest
      refine ⟨tail.splitOn '/', ?_⟩
      rw [List.splitOn_append_cons_self, List.splitOn_eq_singleton hsecond,
        List.takeWhile_append_of_pos (by intro c hc; simpa using ne_of_mem_of_not_mem hc hsecond)]
      simp
    · refine ⟨[], ?_⟩
      rw [List.splitOn_eq_singleton hrest, List.takeWhile_eq_self_iff.mpr]
      intro c hc
      simpa using ne_of_mem_of_not_mem hc hrest
  obtain ⟨more, hmore⟩ := hsecond
  rw [kaggleRefSlug, Text.split, Text.strip, String.toList_ofList, h, hsplit, hmore]
  simp only [List.map_cons, Text.strip, String.toList_ofList]

/-- A number has neither white space nor slashes in it. -/
theorem solid_intText (z : ℤ) : ∀ c ∈ (intText z).toList, Text.isSpace c = false := by
  have hdigit : ∀ c : Char, c.isDigit = true → Text.isSpace c = false := by
    intro c hc
    simp only [Char.isDigit, Bool.and_eq_true, decide_eq_true_eq, UInt32.le_iff_toNat_le] at hc
    have hlow : 48 ≤ c.toNat := hc.1
    have hhigh : c.toNat ≤ 57 := hc.2
    simp only [Text.isSpace, Bool.or_eq_false_iff, Bool.and_eq_false_iff, decide_eq_false_iff_not,
      beq_eq_false_iff_ne]
    omega
  intro c hc
  rw [intText, String.toList_ofList] at hc
  cases z with
  | ofNat n => exact hdigit c (isDigit_toDigits hc)
  | negSucc n =>
    rcases List.mem_cons.mp hc with rfl | hc
    · decide
    · exact hdigit c (isDigit_toDigits hc)

/-- A version after a reference that has a slug does not change it. -/
theorem kaggleRefSlug_versionedRef {datasetRef : String} (version : ℤ)
    (h : kaggleRefSlug datasetRef ≠ "") :
    kaggleRefSlug (versionedRef datasetRef version) = kaggleRefSlug datasetRef := by
  have hslash : '/' ∈ Text.stripList datasetRef.toList := by
    by_contra hno
    refine h ?_
    rw [kaggleRefSlug, Text.split, Text.strip, String.toList_ofList, List.splitOn_eq_singleton hno]
    rfl
  obtain ⟨first, rest, hcore, hfirst⟩ := List.eq_append_cons_of_mem hslash
  obtain ⟨spaces, hspaces, hall⟩ := Text.exists_spaces datasetRef.toList
  have hversioned : Text.stripList (versionedRef datasetRef version).toList =
      first ++ '/' :: (rest ++ spaces ++ '/' :: (intText version).toList) := by
    have hlist : (versionedRef datasetRef version).toList =
        datasetRef.toList ++ '/' :: (intText version).toList := by
      simp [versionedRef, String.toList_append]
    have hsolid : ∀ c ∈ '/' :: (intText version).toList, Text.isSpace c = false := by
      intro c hc
      rcases List.mem_cons.mp hc with rfl | hc
      · decide
      · exact solid_intText version c hc
    rw [hlist, Text.stripList_append_solid hsolid (by simp), hspaces, hcore]
    simp
  rw [kaggleRefSlug_of_strip hversioned hfirst, kaggleRefSlug_of_strip hcore hfirst]
  congr 1
  by_cases hrest : '/' ∈ rest
  · -- the slug ends at the next slash of the reference
    obtain ⟨second, tail, rfl, hsecond⟩ := List.eq_append_cons_of_mem hrest
    have hpos : ∀ c ∈ second, decide (c ≠ '/') = true := by
      intro c hc
      simpa using ne_of_mem_of_not_mem hc hsecond
    rw [List.append_assoc, List.append_assoc, List.takeWhile_append_of_pos hpos,
      List.takeWhile_append_of_pos hpos]
    simp
  · -- it is the rest of the reference, and the white space stripped from it
    have hpos : ∀ c ∈ rest, decide (c ≠ '/') = true := by
      intro c hc
      simpa using ne_of_mem_of_not_mem hc hrest
    have hpos' : ∀ c ∈ rest ++ spaces, decide (c ≠ '/') = true := by
      intro c hc
      rcases List.mem_append.mp hc with hc | hc
      · exact hpos c hc
      · have := hall c hc
        simp only [ne_eq, decide_not, Bool.not_eq_true', decide_eq_false_iff_not]
        rintro rfl
        exact absurd this (by decide)
    rw [List.takeWhile_append_of_pos hpos', List.takeWhile_eq_self_iff.mpr hpos,
      List.takeWhile_cons_of_neg (by simp), List.append_nil, Text.stripList_append_spaces rest hall]

/-! ### One call -/

/-- The slug of the Dataset an entry names, in lower case.  What is no text
names none, and neither does a reference without a slug. -/
def Settings.slugOf (s : Settings) : Json → Option String
  | .str ref =>
    let slug := s.lib.lowerText (kaggleRefSlug ref)
    if slug = "" then none else some slug
  | _ => none

/-- The metadata after a call. -/
def Settings.rewritten (s : Settings) (metadata : JsonObject) (ref : String) : JsonObject :=
  (s.rewriteDatasetSources metadata ref).getD metadata

/-- The entries of `dataset_sources`, where it is a list. -/
def datasetSources (metadata : JsonObject) : Option (List Json) :=
  match getField metadata "dataset_sources" with
  | some (.arr sources) => some sources
  | _ => none

theorem datasetSources_setField (metadata : JsonObject) (sources : List Json) :
    datasetSources (setField metadata "dataset_sources" (.arr sources)) = some sources := by
  rw [datasetSources, getField, lookup_setField, if_pos rfl]

/-- Another field does not matter. -/
theorem datasetSources_setField_ne {metadata : JsonObject} {k : String} {x : Json}
    (h : k ≠ "dataset_sources") : datasetSources (setField metadata k x) = datasetSources metadata := by
  rw [datasetSources, getField, lookup_setField, if_neg (Ne.symm h)]
  rfl

variable {s : Settings} {metadata : JsonObject} {sources : List Json} {ref : String}

theorem slugOf_eq_none (h : s.lib.lowerText (kaggleRefSlug ref) = "") : s.slugOf (.str ref) = none := by
  simp only [Settings.slugOf, h, if_true]

theorem slugOf_eq_some (h : s.lib.lowerText (kaggleRefSlug ref) ≠ "") :
    s.slugOf (.str ref) = some (s.lib.lowerText (kaggleRefSlug ref)) := by
  simp only [Settings.slugOf, if_neg h]

theorem slugOf_of_not_str {source : Json} (h : ∀ text, source ≠ .str text) :
    s.slugOf source = none := by
  cases source with
  | str text => exact absurd rfl (h text)
  | _ => rfl

-- from here on a slug is what these lemmas say
attribute [irreducible] Settings.slugOf

theorem map_eq_self_iff {α : Type} {f : α → α} {l : List α} : l.map f = l ↔ ∀ a ∈ l, f a = a := by
  constructor
  · intro h a ha
    exact List.map_inj_left.mp (h.trans (List.map_id l).symm) a ha
  · intro h
    rw [List.map_congr_left h]
    exact List.map_id l

/-- The comparison of the code, for a target that has a slug. -/
theorem namesSlug_iff (h : s.lib.lowerText (kaggleRefSlug ref) ≠ "") (source : Json) :
    s.namesSlug (s.lib.lowerText (kaggleRefSlug ref)) source = true ↔
      Names s.slugOf (.str ref) source := by
  rw [Names, slugOf_eq_some h, Option.isSome_some]
  cases source with
  | str text =>
    rw [Settings.namesSlug, beq_iff_eq]
    constructor
    · intro heq
      have htext : s.lib.lowerText (kaggleRefSlug text) ≠ "" := by
        rw [heq]
        exact h
      rw [slugOf_eq_some htext, heq]
      exact ⟨rfl, rfl⟩
    · rintro ⟨-, hslug⟩
      by_cases hempty : s.lib.lowerText (kaggleRefSlug text) = ""
      · rw [slugOf_eq_none hempty] at hslug
        cases hslug
      · rw [slugOf_eq_some hempty] at hslug
        exact Option.some.inj hslug
  | _ => simp [Settings.namesSlug, slugOf_of_not_str]

/-- **One call**: it puts its target in the place of every entry that names the
Dataset, and tells whether that makes a difference. -/
theorem rewriteDatasetSources_eq (h : datasetSources metadata = some sources) (ref : String) :
    datasetSources (s.rewritten metadata ref) =
        some (sources.map (redirect s.slugOf (.str ref))) ∧
      ((s.rewriteDatasetSources metadata ref).isSome ↔
        sources.map (redirect s.slugOf (.str ref)) ≠ sources) := by
  have hfield : getField metadata "dataset_sources" = some (.arr sources) := by
    unfold datasetSources at h
    split at h
    · next l heq => rw [heq, Option.some.inj h]
    · cases h
  by_cases hslug : s.lib.lowerText (kaggleRefSlug ref) = ""
  · -- a target without a slug
    have hsame : sources.map (redirect s.slugOf (.str ref)) = sources := by
      have hid : redirect s.slugOf (.str ref) = id := by
        funext source
        refine redirect_of_not_names fun hnames => ?_
        rw [Names, slugOf_eq_none hslug] at hnames
        exact absurd hnames.1 (by simp)
      rw [hid, List.map_id]
    have hcall : s.rewriteDatasetSources metadata ref = none := by
      simp only [Settings.rewriteDatasetSources, if_pos hslug]
    rw [Settings.rewritten, hcall, hsame]
    exact ⟨h, by simp⟩
  · have hmap : (sources.map fun source =>
        if s.namesSlug (s.lib.lowerText (kaggleRefSlug ref)) source then .str ref else source) =
          sources.map (redirect s.slugOf (.str ref)) := by
      refine List.map_congr_left fun source _ => ?_
      by_cases hnames : Names s.slugOf (.str ref) source
      · rw [if_pos ((namesSlug_iff hslug source).mpr hnames), redirect_of_names hnames]
      · rw [if_neg fun hn => hnames ((namesSlug_iff hslug source).mp hn),
          redirect_of_not_names hnames]
    have hchanged : (sources.any fun source =>
        s.namesSlug (s.lib.lowerText (kaggleRefSlug ref)) source && match source with
          | .str text => text != ref
          | _ => false) = true ↔ sources.map (redirect s.slugOf (.str ref)) ≠ sources := by
      rw [List.any_eq_true, Ne, map_eq_self_iff]
      push Not
      refine exists_congr fun source => and_congr_right fun _ => ?_
      by_cases hnames : Names s.slugOf (.str ref) source
      · rw [(namesSlug_iff hslug source).mpr hnames, redirect_of_names hnames, Bool.true_and]
        cases source with
        | str text => simpa using ne_comm
        | _ => exact absurd hnames.2 (by rw [slugOf_eq_some hslug]; simp [slugOf_of_not_str])
      · have hfalse : s.namesSlug (s.lib.lowerText (kaggleRefSlug ref)) source = false := by
          rw [← Bool.not_eq_true, namesSlug_iff hslug]
          exact hnames
        rw [hfalse, redirect_of_not_names hnames]
        simp
    by_cases hdiff : sources.map (redirect s.slugOf (.str ref)) = sources
    · have hcall : s.rewriteDatasetSources metadata ref = none := by
        simp only [Settings.rewriteDatasetSources, if_neg hslug, hfield]
        exact if_neg fun h' => hchanged.mp h' hdiff
      rw [Settings.rewritten, hcall, Option.getD_none, h, hdiff]
      simp
    · have hcall : s.rewriteDatasetSources metadata ref =
          some (setField metadata "dataset_sources"
            (.arr (sources.map (redirect s.slugOf (.str ref))))) := by
        simp only [Settings.rewriteDatasetSources, if_neg hslug, hfield, hmap]
        exact if_pos (hchanged.mpr hdiff)
      rw [Settings.rewritten, hcall, Option.getD_some, datasetSources_setField]
      simpa using hdiff

/-- A call on what an earlier one of the same target left. -/
theorem rewriteDatasetSources_rewritten (h : datasetSources metadata = some sources) (ref : String) :
    s.rewriteDatasetSources (s.rewritten metadata ref) ref = none := by
  have hfirst := (rewriteDatasetSources_eq (s := s) h ref).1
  have hsecond := (rewriteDatasetSources_eq (s := s) hfirst ref).2
  have hsame : (sources.map (redirect s.slugOf (.str ref))).map (redirect s.slugOf (.str ref)) =
      sources.map (redirect s.slugOf (.str ref)) := by
    rw [List.map_map]
    exact List.map_congr_left fun source _ => redirect_self
  rw [hsame] at hsecond
  simpa using hsecond

/-- **Runs of calls**: entry by entry, a list of calls is a list of
replacements. -/
theorem datasetSources_foldl (h : datasetSources metadata = some sources) (refs : List String) :
    datasetSources (refs.foldl s.rewritten metadata) =
      some (sources.map fun source =>
        (refs.map Json.str).foldl (fun source target => redirect s.slugOf target source) source) := by
  induction refs generalizing metadata sources with
  | nil => simpa using h
  | cons ref refs ih =>
    rw [List.foldl_cons, ih (rewriteDatasetSources_eq h ref).1, List.map_map]
    rfl

/-! ### The file -/

/-- The metadata file of a kernel directory: reads and writes may fail, and
nobody else writes to it. -/
def kernelFile (dir : String) : Prog.Sem RelaySig Answers JsonObject
  | .readMetadata d file, c, metadata =>
    if d = dir ∧ file = .kernel then
      some ((c (.readMetadata d file)).map fun _ => metadata, metadata)
    else some (c (.readMetadata d file), metadata)
  | .writeMetadata d file value, c, metadata =>
    match c (.writeMetadata d file value) with
    | .ok () => some (.ok (), if d = dir ∧ file = .kernel then value else metadata)
    | .error e => some (.error e, metadata)
  | o, c, metadata => some (c o, metadata)

section File

variable {dir : String} {Q : JsonObject → Prop}

/-- A read gives the content. -/
theorem safe_readMetadata :
    Safe (kernelFile dir) (fun _ => True)
      (post (fun value metadata' => value = metadata ∧ metadata' = metadata) fun _ _ => True)
      (Relay.readMetadata dir .kernel) metadata := by
  intro c r metadata' hstep
  simp only [kernelFile, and_self, if_true, Option.some.injEq] at hstep
  obtain ⟨rfl, rfl⟩ := Prod.mk.inj hstep
  refine ⟨trivial, ?_⟩
  generalize c (.readMetadata dir .kernel) = answer
  cases answer with
  | error e => trivial
  | ok value => exact ⟨rfl, rfl⟩

/-- A write that does not fail sets it. -/
theorem safe_writeMetadata (value : JsonObject) :
    Safe (kernelFile dir) (fun _ => True)
      (post (fun _ metadata' => metadata' = value) fun _ _ => True)
      (Relay.writeMetadata dir .kernel value) metadata := by
  intro c r metadata' hstep
  simp only [kernelFile] at hstep
  refine ⟨trivial, ?_⟩
  split at hstep
  · obtain ⟨rfl, rfl⟩ := Prod.mk.inj (Option.some.inj hstep)
    simp [Safe, post]
  · obtain ⟨rfl, rfl⟩ := Prod.mk.inj (Option.some.inj hstep)
    trivial

theorem safe_requireFile (name : String) :
    Safe (kernelFile dir) (fun _ => True)
      (post (fun _ metadata' => metadata' = metadata) fun _ _ => True)
      (Relay.requireFile dir name) metadata := by
  intro c r metadata' hstep
  obtain ⟨rfl, rfl⟩ := Prod.mk.inj (Option.some.inj hstep)
  refine ⟨trivial, ?_⟩
  generalize c (.call (.requireFile dir name)) = answer
  cases answer with
  | error e => trivial
  | ok value => rfl

/-- `prepare_metadata_ref` is a call, with another `id` perhaps. -/
theorem safe_prepareMetadataRef (h : datasetSources metadata = some sources)
    (expectedRef finalDatasetRef : String) :
    Safe (kernelFile dir) (fun _ => True)
      (post (fun _ metadata' => datasetSources metadata' =
        some (sources.map (redirect s.slugOf (.str finalDatasetRef)))) fun _ _ => True)
      (Relay.prepareMetadataRef s dir .kernel expectedRef finalDatasetRef) metadata := by
  rw [Relay.prepareMetadataRef]
  refine Safe.seq safe_readMetadata ?_
  intro content metadata' hread
  rw [hread.1, hread.2]
  have hchecked : ∀ check : Except Exc Unit, Safe (kernelFile dir) (fun _ => True)
      (post (fun _ metadata' => metadata' = metadata) fun _ _ => True)
      (Eff.lift check : Relay Unit) metadata :=
    fun check => Safe.lift (fun _ _ => rfl) fun _ _ => trivial
  refine Safe.seq (hchecked _) ?_
  intro _ metadata' hsame
  rw [show metadata' = metadata from hsame]
  dsimp only
  have hwrite : ∀ base, datasetSources base = some sources →
      Safe (kernelFile dir) (fun _ => True)
        (post (fun _ metadata' => datasetSources metadata' =
          some (sources.map (redirect s.slugOf (.str finalDatasetRef)))) fun _ _ => True)
        (do
          Relay.writeMetadata dir .kernel (s.rewritten base finalDatasetRef)
          pure (s.rewritten base finalDatasetRef) : Relay JsonObject) metadata := by
    intro base hbase
    refine Safe.seq (safe_writeMetadata _) ?_
    intro _ metadata' hwritten
    rw [show metadata' = _ from hwritten]
    exact (rewriteDatasetSources_eq hbase finalDatasetRef).1
  rw [if_pos rfl]
  by_cases hrenamed : expectedRef ≠ "" ∧
      Text.strip (s.strOr (getField metadata "id")) ≠ expectedRef
  · rw [if_pos (Or.inl hrenamed), if_pos hrenamed]
    have hid : "id" ≠ "dataset_sources" := by decide
    exact hwrite _ (by rw [datasetSources_setField_ne hid, h])
  · rw [if_neg hrenamed]
    by_cases hrewritten : (s.rewriteDatasetSources metadata finalDatasetRef).isSome = true
    · rw [if_pos (Or.inr hrewritten)]
      exact hwrite _ h
    · -- nothing to write: the entries are what the call would make of them
      rw [if_neg (not_or.mpr ⟨hrenamed, hrewritten⟩)]
      have hcall := (rewriteDatasetSources_eq (s := s) h finalDatasetRef).1
      rw [Settings.rewritten, Option.not_isSome_iff_eq_none.mp hrewritten] at hcall
      exact hcall

/-- `pin_kernel_dataset_version` is one, for a positive version. -/
theorem safe_pinKernelDatasetVersion (h : datasetSources metadata = some sources)
    (datasetRef : String) {version : ℤ} (hversion : 0 < version) :
    Safe (kernelFile dir) (fun _ => True)
      (post (fun _ metadata' => datasetSources metadata' =
        some (sources.map (redirect s.slugOf (.str (versionedRef datasetRef version)))))
        fun _ _ => True)
      (Relay.pinKernelDatasetVersion s dir datasetRef version) metadata := by
  rw [Relay.pinKernelDatasetVersion, if_neg (by omega)]
  refine Safe.seq (safe_requireFile _) ?_
  intro _ metadata' hrequired
  obtain rfl : metadata' = metadata := hrequired
  refine Safe.seq safe_readMetadata ?_
  intro content metadata hread
  rw [hread.1, hread.2]
  have hcall := (rewriteDatasetSources_eq (s := s) h (versionedRef datasetRef version)).1
  rw [Settings.rewritten] at hcall
  cases hrewrite : s.rewriteDatasetSources metadata' (versionedRef datasetRef version) with
  | none =>
    rw [hrewrite] at hcall
    exact hcall
  | some value =>
    rw [hrewrite] at hcall
    refine Safe.mono (safe_writeMetadata value) ?_
    rintro (e | u) _ hpost
    · trivial
    · rw [show _ = value from hpost]
      exact hcall

end File

/-! ### The algebra -/

/-- What calls do to a list of entries. -/
structure LastWins (s : Settings) (metadata : JsonObject) (sources : List Json) : Prop where
  /-- A call keeps the length and the places.  The entries of its Dataset become
  its target, all others stay, and it reports whether the list differs. -/
  called : ∀ ref, ∃ sources', datasetSources (s.rewritten metadata ref) = some sources' ∧
    sources'.length = sources.length ∧
    (∀ (i : ℕ) source, sources[i]? = some source → Names s.slugOf (.str ref) source →
      sources'[i]? = some (.str ref)) ∧
    (∀ (i : ℕ) source, sources[i]? = some source → ¬Names s.slugOf (.str ref) source →
      sources'[i]? = some source) ∧
    ((s.rewriteDatasetSources metadata ref).isSome ↔ sources' ≠ sources)
  /-- Repeated, it reports no change, and makes none. -/
  repeated : ∀ ref, s.rewriteDatasetSources (s.rewritten metadata ref) ref = none
  /-- Of calls with one slug the last one counts. -/
  last : ∀ (refs : List String) ref, (∀ r ∈ refs, s.slugOf (.str r) = s.slugOf (.str ref)) →
    datasetSources (s.rewritten (refs.foldl s.rewritten metadata) ref) =
      datasetSources (s.rewritten metadata ref)
  /-- Prepared and pinned, the entries that have named the Dataset are the pinned
  reference, each in its place and nothing else, whatever was prepared. -/
  pinned : ∀ dir kernelRef datasetRef version answers metadata', 0 < version →
    ((do
      let _ ← Relay.prepareMetadataRef s dir .kernel kernelRef datasetRef
      Relay.pinKernelDatasetVersion s dir datasetRef version :
        Relay Unit).exec (kernelFile dir) answers metadata) = (Prog.pure (.ok ()), metadata') →
    ∃ sources', datasetSources metadata' = some sources' ∧
      (∀ slug, s.slugOf (.str datasetRef) = some slug →
        datasetSources (s.rewritten metadata (versionedRef datasetRef version)) = some sources' ∧
        (∀ (i : ℕ) source, sources[i]? = some source →
          sources'[i]? = some (if s.slugOf source = some slug then .str (versionedRef datasetRef version)
            else source)) ∧
        ∀ source ∈ sources', s.slugOf source = some slug →
          source = .str (versionedRef datasetRef version))

theorem slugOf_versionedRef {datasetRef slug : String} (version : ℤ)
    (h : s.slugOf (.str datasetRef) = some slug) :
    s.slugOf (.str (versionedRef datasetRef version)) = some slug := by
  have hlower : s.lib.lowerText (kaggleRefSlug datasetRef) ≠ "" := by
    intro hempty
    rw [slugOf_eq_none hempty] at h
    cases h
  have hslug : kaggleRefSlug datasetRef ≠ "" := by
    intro hempty
    rw [hempty] at hlower
    exact hlower rfl
  have heq := kaggleRefSlug_versionedRef version hslug
  rw [slugOf_eq_some (by rw [heq]; exact hlower), heq, ← slugOf_eq_some hlower, h]

/-- **Dataset sources**: whatever accounts a job was bound to and whatever
versions were pinned before, a call of the same slug makes of the entries what
it would have made of the first ones. -/
theorem dataset_sources_last_wins (s : Settings) (metadata : JsonObject) (sources : List Json)
    (h : datasetSources metadata = some sources) : LastWins s metadata sources := by
  constructor
  case called =>
    intro ref
    obtain ⟨hsources, hreport⟩ := rewriteDatasetSources_eq (s := s) h ref
    refine ⟨_, hsources, List.length_map _, fun i source hsource hnames => ?_,
      fun i source hsource hnames => ?_, hreport⟩
    · rw [List.getElem?_map, hsource, Option.map_some, redirect_of_names hnames]
    · rw [List.getElem?_map, hsource, Option.map_some, redirect_of_not_names hnames]
  case repeated => exact rewriteDatasetSources_rewritten h
  case last =>
    intro refs ref hrefs
    have hfold := datasetSources_foldl (s := s) h refs
    rw [(rewriteDatasetSources_eq hfold ref).1, (rewriteDatasetSources_eq h ref).1, List.map_map]
    congr 1
    refine List.map_congr_left fun source _ => ?_
    refine foldl_redirect (refs.map Json.str) fun target htarget => ?_
    obtain ⟨r, hr, rfl⟩ := List.mem_map.mp htarget
    exact hrefs r hr
  case pinned =>
    intro dir kernelRef datasetRef version answers metadata' hversion hrun
    have hsafe : Safe (kernelFile dir) (fun _ => True)
        (post (fun _ metadata' => datasetSources metadata' =
          some ((sources.map (redirect s.slugOf (.str datasetRef))).map
            (redirect s.slugOf (.str (versionedRef datasetRef version))))) fun _ _ => True)
        (do
          let _ ← Relay.prepareMetadataRef s dir .kernel kernelRef datasetRef
          Relay.pinKernelDatasetVersion s dir datasetRef version : Relay Unit) metadata := by
      refine Safe.seq (safe_prepareMetadataRef h kernelRef datasetRef) ?_
      intro _ content hprepared
      exact safe_pinKernelDatasetVersion hprepared datasetRef hversion
    have hpost := hsafe.exec_post (congrArg Prod.fst hrun)
    rw [hrun] at hpost
    refine ⟨_, hpost, fun slug hslug => ?_⟩
    have hpinned := slugOf_versionedRef version hslug
    have hkey : s.slugOf (.str datasetRef) = s.slugOf (.str (versionedRef datasetRef version)) := by
      rw [hslug, hpinned]
    have hnames : ∀ source, Names s.slugOf (.str (versionedRef datasetRef version)) source ↔
        s.slugOf source = some slug := by
      intro source
      rw [Names, hpinned]
      exact and_iff_right rfl
    rw [List.map_map, (rewriteDatasetSources_eq h _).1]
    refine ⟨?_, ?_, ?_⟩
    · congr 1
      refine List.map_congr_left fun source _ => ?_
      exact (redirect_redirect hkey).symm
    · intro i source hsource
      rw [List.getElem?_map, hsource, Option.map_some, Function.comp_apply, redirect_redirect hkey, redirect]
      simp only [hnames]
    · intro source hsource hnamed
      obtain ⟨source, -, rfl⟩ := List.mem_map.mp hsource
      rw [Function.comp_apply, redirect_redirect hkey] at hnamed ⊢
      have hsource : s.slugOf source = some slug := by
        exact key_redirect.symm.trans hnamed
      exact redirect_of_names ((hnames source).mpr hsource)

theorem dataset_sources_last_wins_sample :
    LastWins World.trialSettings
      [("id", .str "ada/kernel"), ("dataset_sources", .arr [.str "Bob/Digits/2", .null])]
      [.str "Bob/Digits/2", .null] :=
  dataset_sources_last_wins _ _ _ rfl

end KaggleRelay
