/-
Extraction of an uploaded ZIP.

The names, the attributes and the declared sizes of the members are anything.
A member is looked at, its target is resolved, and only then something is
written; every step may fail.

* `safeMemberTarget`, `safeExtractZip` — the functions of the source, over a
  file system of resolved locations;
* `Confined` — what holds after every member;
* `safe_extract_zip_confined` — whatever happens, everything that has been
  written is below the destination, and its declared size is bounded.
-/
import Mathlib.Algebra.BigOperators.Group.Finset.Basic
import Mathlib.Algebra.Order.BigOperators.Group.Finset
import Mathlib.Logic.Function.Basic
import KaggleRelay.Archive
import KaggleRelay.Text

namespace KaggleRelay

namespace Zip

/-- A location without links, by its parts from the root. -/
abbrev Location := List String

/-- What is at a location; a link with the location it leads to. -/
inductive FileEntry where
  | dir
  | file (content : Bytes)
  | link (target : Location)
  deriving DecidableEq

abbrev Files := Location → Option FileEntry

/-- An entry of `archive.infolist()`. -/
structure Info where
  filename : String
  externalAttr : ℕ
  fileSize : ℕ

/-- `stat.S_ISLNK((info.external_attr >> 16) & 0o777777)`. -/
def Info.isLink (info : Info) : Bool := (info.externalAttr >>> 16 &&& 0o777777) &&& 0o170000 == 0o120000

/-- `info.is_dir()`. -/
def Info.isDir (info : Info) : Bool := info.filename.toList.getLast? == some '/'

/-- What the file system and the archive do for a member. -/
structure Fate where
  /-- How many directories can still be made. -/
  folders : ℕ
  /-- `archive.open(info)` succeeds. -/
  source : Bool
  /-- `target.open("wb")` is permitted. -/
  target : Bool
  /-- What is copied until the end, or until an error. -/
  blocks : List Bytes
  copied : Bool

/-! ### The functions of the source -/

/-- `member_name.replace("\\", "/")`. -/
def normalized (name : String) : String :=
  String.ofList (name.toList.map fun c => if c = '\\' then '/' else c)

/-- One part of a path, from a location on. -/
def follow (files : Files) (here : Location) (part : String) : Location :=
  if part = "" ∨ part = "." then here
  else if part = ".." then here.dropLast
  else
    match files (here ++ [part]) with
    | some (.link target) => target
    | _ => here ++ [part]

/-- `(dest_dir / name).resolve()`. -/
def resolve (files : Files) (dest : Location) (name : String) : Location :=
  (Text.split name '/').foldl (follow files) dest

/-- `_safe_member_target`; `dest` is `dest_dir.resolve()`. -/
def safeMemberTarget (files : Files) (dest : Location) (name : String) : Except Exc Location :=
  let n := normalized name
  if Text.startswith n "/" ∨ Text.startswith n "../" ∨ Text.isIn "/../" n then
    .error (.archiveError ("unsafe zip path: " ++ name))
  else if n = "" ∨ n = "." ∨ n = ".." then .error (.archiveError ("unsafe zip path: " ++ name))
  else if dest.isPrefixOf (resolve files dest n) then .ok (resolve files dest n)
  else .error (.archiveError ("unsafe zip path: " ++ name))

/-- What an extraction has done: the directories and the files it has made,
the files with the index of their member. -/
structure Extraction where
  files : Files
  made : List Location
  written : List (ℕ × Location)

/-- An error of the file system. -/
def failed (text : String) : Exc := ⟨.osError, text⟩

/-- The directories of a path, the outermost first. -/
def makeFolders : ℕ → List Location → Extraction → Except Exc Unit × Extraction
  | _, [], x => (.ok (), x)
  | n, p :: ps, x =>
    if x.files p = some .dir then makeFolders n ps x
    else if (x.files p).isSome then (.error (failed "File exists"), x)
    else if n = 0 then (.error (failed "No space left on device"), x)
    else
      makeFolders (n - 1) ps
        { x with files := Function.update x.files p (some .dir), made := x.made ++ [p] }

/-- `path.mkdir(parents=True, exist_ok=True)`. -/
def mkdir (n : ℕ) (path : Location) (x : Extraction) : Except Exc Unit × Extraction :=
  makeFolders n path.inits x

/-- `archive.open(info)`, `target.open("wb")`, and the copying. -/
def writeMember (fate : Fate) (index : ℕ) (target : Location) (x : Extraction) :
    Except Exc Unit × Extraction :=
  if fate.source = false then (.error (failed "Bad magic number for file header"), x)
  else if x.files target = some .dir ∨ fate.target = false then (.error (failed "Is a directory"), x)
  else
    (if fate.copied then .ok () else .error (failed "Bad CRC-32 for file"),
      { x with files := Function.update x.files target (some (.file fate.blocks.flatten)),
               written := x.written ++ [(index, target)] })

/-- The body of the loop, once the size is known to fit. -/
def extractMember (fate : Fate) (index : ℕ) (info : Info) (target : Location) (x : Extraction) :
    Except Exc Unit × Extraction :=
  if info.isDir then mkdir fate.folders target x
  else
    match mkdir fate.folders target.dropLast x with
    | (.ok (), y) => writeMember fate index target y
    | failure => failure

/-- The loop over the members, from an index on, with the size so far. -/
def extractMembers (dest : Location) (limit : ℕ) :
    ℕ → ℕ → List (Info × Fate) → Extraction → Except Exc Unit × Extraction
  | _, _, [], x => (.ok (), x)
  | index, total, (info, fate) :: members, x =>
    if info.isLink then
      (.error (.archiveError ("zip symlink is not allowed: " ++ info.filename)), x)
    else
      match safeMemberTarget x.files dest info.filename with
      | .error e => (.error e, x)
      | .ok target =>
        if limit < total + info.fileSize then
          (.error (.archiveError "zip uncompressed size exceeds relay safety limit"), x)
        else
          match extractMember fate index info target x with
          | (.ok (), y) => extractMembers dest limit (index + 1) (total + info.fileSize) members y
          | failure => failure

/-- `max_uncompressed`. -/
def maxUncompressed (expectedMaxSize : ℕ) : ℕ :=
  max (expectedMaxSize * 20) (expectedMaxSize + 1024 * 1024 * 1024)

/-- `shutil.rmtree(dest_dir)` where there is something, and `dest_dir.mkdir`. -/
def freshFolder (n : ℕ) (dest : Location) (files : Files) : Except Exc Unit × Extraction :=
  match files dest with
  | none => mkdir n dest ⟨files, [], []⟩
  | some .dir => mkdir n dest ⟨fun p => if dest.isPrefixOf p then none else files p, [], []⟩
  | some _ => (.error (failed "Not a directory"), ⟨files, [], []⟩)

/-- `safe_extract_zip`; `n` is how many directories can be made for the
destination, and `opened` whether the ZIP can be read.  What has been made for
the destination itself is no member's. -/
def safeExtractZip (files : Files) (dest : Location) (n : ℕ) (opened : Bool)
    (members : List (Info × Fate)) (expectedMaxSize : ℕ) : Except Exc Unit × Extraction :=
  match freshFolder n dest files with
  | (.error e, x) => (.error e, { x with made := [] })
  | (.ok (), x) =>
    if opened then
      extractMembers dest (maxUncompressed expectedMaxSize) 0 0 members { x with made := [] }
    else (.error (failed "File is not a zip file"), { x with made := [] })

/-! ### What holds after every member -/

/-- The declared size of a member. -/
def sizeAt (members : List (Info × Fate)) (index : ℕ) : ℕ :=
  members[index]?.elim 0 fun m => m.1.fileSize

/-- The declared size of the members before an index. -/
def sizeBefore (members : List (Info × Fate)) (index : ℕ) : ℕ :=
  ((List.range index).map (sizeAt members)).sum

/-- A member that has passed the checks: no link, a target below the
destination, and a size that fits with those before it. -/
def Passed (dest : Location) (limit : ℕ) (members : List (Info × Fate)) (index : ℕ)
    (target : Location) : Prop :=
  ∃ info fate files, members[index]? = some (info, fate) ∧ info.isLink = false ∧
    safeMemberTarget files dest info.filename = .ok target ∧ sizeBefore members (index + 1) ≤ limit

/-- An extraction that has looked at the members before an index. -/
structure Confined (base : Files) (dest : Location) (limit : ℕ) (members : List (Info × Fate))
    (index : ℕ) (x : Extraction) : Prop where
  folders : ∀ p, p <+: dest → x.files p = some .dir
  made : ∀ p ∈ x.made, dest <+: p
  written : ∀ w ∈ x.written, dest <+: w.2 ∧ w.2 ≠ dest
  /-- Nothing else has changed. -/
  changed : ∀ p, x.files p ≠ base p → p ∈ x.made ∨ p ∈ x.written.map Prod.snd
  passed : ∀ w ∈ x.written, w.1 < index ∧ Passed dest limit members w.1 w.2
  /-- No member is written twice. -/
  once : (x.written.map Prod.fst).Nodup

section Steps

variable {base : Files} {dest : Location} {limit index : ℕ} {members : List (Info × Fate)}
  {x : Extraction}

/-- Directories that contain the destination or lie in it can be made. -/
theorem confined_makeFolders {n : ℕ} {ps : List Location}
    (h : Confined base dest limit members index x) (hps : ∀ p ∈ ps, p <+: dest ∨ dest <+: p) :
    Confined base dest limit members index (makeFolders n ps x).2 ∧
      (makeFolders n ps x).2.written = x.written := by
  induction ps generalizing n x with
  | nil => exact ⟨h, rfl⟩
  | cons p ps ih =>
    have hrest : ∀ q ∈ ps, q <+: dest ∨ dest <+: q := fun q hq => hps q (List.mem_cons_of_mem _ hq)
    rw [makeFolders]
    split
    · exact ih h hrest
    split
    · exact ⟨h, rfl⟩
    split
    · exact ⟨h, rfl⟩
    · next _ hsome _ =>
      have hnone : x.files p = none := Option.not_isSome_iff_eq_none.mp hsome
      have hp : dest <+: p := by
        rcases hps p List.mem_cons_self with hp | hp
        · cases hnone.symm.trans (h.folders p hp)
        · exact hp
      refine ih ?_ hrest
      exact {
        folders := fun q hq => by
          have hne : q ≠ p := fun heq => by cases hnone.symm.trans (heq ▸ h.folders q hq)
          show Function.update x.files p _ q = _
          rw [Function.update_of_ne hne]
          exact h.folders q hq
        made := fun q hq => by
          rcases List.mem_append.mp hq with hq | hq
          · exact h.made q hq
          · rw [List.mem_singleton.mp hq]
            exact hp
        written := h.written
        changed := fun q hq => by
          by_cases heq : q = p
          · exact .inl (List.mem_append_right _ (List.mem_singleton.mpr heq))
          · have hq : x.files q ≠ base q := by
              rw [← Function.update_of_ne heq (some .dir) x.files]
              exact hq
            exact (h.changed q hq).imp_left (List.mem_append_left _)
        passed := h.passed
        once := h.once }

theorem confined_mkdir {n : ℕ} {target path : Location}
    (h : Confined base dest limit members index x) (htarget : dest <+: target)
    (hpath : path <+: target) :
    Confined base dest limit members index (mkdir n path x).2 ∧
      (mkdir n path x).2.written = x.written := by
  refine confined_makeFolders h fun p hp => ?_
  have hp : p <+: target := ((List.mem_inits p path).mp hp).trans hpath
  exact List.prefix_or_prefix_of_prefix hp htarget

theorem confined_writeMember {fate : Fate} {target : Location}
    (h : Confined base dest limit members index x) (htarget : dest <+: target)
    (hpassed : Passed dest limit members index target) :
    Confined base dest limit members (index + 1) (writeMember fate index target x).2 := by
  have hnext : ∀ w ∈ x.written, w.1 < index + 1 ∧ Passed dest limit members w.1 w.2 :=
    fun w hw => ⟨(h.passed w hw).1.trans (Nat.lt_succ_self index), (h.passed w hw).2⟩
  have hsame : Confined base dest limit members (index + 1) x := { h with passed := hnext }
  unfold writeMember
  split
  · exact hsame
  split
  · exact hsame
  · next _ hopen =>
    -- a directory cannot be opened, hence the target is not the destination
    have hne : target ≠ dest := fun heq =>
      hopen (.inl (heq ▸ h.folders dest List.prefix_rfl))
    exact {
      folders := fun p hp => by
        have hp' : p ≠ target := by
          rintro rfl
          exact hne (hp.eq_of_length_le htarget.length_le)
        show Function.update x.files target _ p = _
        rw [Function.update_of_ne hp']
        exact h.folders p hp
      made := h.made
      written := fun w hw => by
        rcases List.mem_append.mp hw with hw | hw
        · exact h.written w hw
        · rw [List.mem_singleton.mp hw]
          exact ⟨htarget, hne⟩
      changed := fun p hp => by
        by_cases heq : p = target
        · right
          rw [heq]
          show target ∈ (x.written ++ [(index, target)]).map Prod.snd
          rw [List.map_append]
          exact List.mem_append_right _ List.mem_cons_self
        · have hp : x.files p ≠ base p := by
            rw [← Function.update_of_ne heq (some (.file fate.blocks.flatten)) x.files]
            exact hp
          show p ∈ x.made ∨ p ∈ (x.written ++ [(index, target)]).map Prod.snd
          rw [List.map_append]
          exact (h.changed p hp).imp_right (List.mem_append_left _)
      passed := fun w hw => by
        rcases List.mem_append.mp hw with hw | hw
        · exact hnext w hw
        · rw [List.mem_singleton.mp hw]
          exact ⟨Nat.lt_succ_self index, hpassed⟩
      once := by
        show ((x.written ++ [(index, target)]).map Prod.fst).Nodup
        rw [List.map_append]
        refine List.Nodup.append h.once (List.nodup_singleton _) fun i hi hmem => ?_
        obtain ⟨w, hw, rfl⟩ := List.mem_map.mp hi
        exact absurd (List.mem_singleton.mp hmem) (h.passed w hw).1.ne }

theorem confined_extractMember {fate : Fate} {info : Info} {target : Location}
    (h : Confined base dest limit members index x) (htarget : dest <+: target)
    (hpassed : Passed dest limit members index target) :
    Confined base dest limit members (index + 1) (extractMember fate index info target x).2 := by
  have hnext : ∀ {y : Extraction}, Confined base dest limit members index y →
      Confined base dest limit members (index + 1) y := fun hy =>
    { hy with passed := fun w hw =>
        ⟨(hy.passed w hw).1.trans (Nat.lt_succ_self index), (hy.passed w hw).2⟩ }
  unfold extractMember
  split
  · exact hnext (confined_mkdir h htarget List.prefix_rfl).1
  · have hparent := (confined_mkdir (n := fate.folders) h htarget (List.dropLast_prefix target)).1
    split
    · next y hy =>
      rw [hy] at hparent
      exact confined_writeMember hparent htarget hpassed
    · exact hnext hparent

theorem prefix_of_safeMemberTarget {files : Files} {name : String} {target : Location}
    (h : safeMemberTarget files dest name = .ok target) : dest <+: target := by
  unfold safeMemberTarget at h
  simp only at h
  split at h
  · cases h
  split at h
  · cases h
  split at h
  · next hprefix =>
    cases h
    exact List.isPrefixOf_iff_prefix.mp hprefix
  · cases h

/-- **The loop**: what holds for the members looked at holds for all of them,
wherever the loop ends. -/
theorem confined_extractMembers {total : ℕ} {rest : List (Info × Fate)}
    (hrest : members.drop index = rest) (htotal : total = sizeBefore members index)
    (h : Confined base dest limit members index x) :
    ∃ last, Confined base dest limit members last
      (extractMembers dest limit index total rest x).2 := by
  induction rest generalizing index total x with
  | nil => exact ⟨index, h⟩
  | cons member rest ih =>
    obtain ⟨info, fate⟩ := member
    have hmember : members[index]? = some (info, fate) := by
      rw [← List.head?_drop, hrest, List.head?_cons]
    have hsize : sizeBefore members (index + 1) = total + info.fileSize := by
      rw [sizeBefore, List.range_succ, List.map_append, List.sum_append, ← sizeBefore, ← htotal,
        List.map_singleton, List.sum_singleton, sizeAt, hmember]
      rfl
    unfold extractMembers
    split
    · exact ⟨index, h⟩
    next hlink =>
    split
    · exact ⟨index, h⟩
    next target htarget =>
    split
    · exact ⟨index, h⟩
    next hfits =>
    have hpassed : Passed dest limit members index target :=
      ⟨info, fate, x.files, hmember, Bool.not_eq_true _ ▸ hlink, htarget, by omega⟩
    have hstep : Confined base dest limit members (index + 1) (extractMember fate index info target x).2 :=
      confined_extractMember h (prefix_of_safeMemberTarget htarget) hpassed
    split
    · next y hy =>
      rw [hy] at hstep
      have hdrop : members.drop (index + 1) = rest := by
        rw [← List.drop_drop, hrest]
        rfl
      exact ih hdrop hsize.symm hstep
    · exact ⟨index + 1, hstep⟩

end Steps

/-- Directories that have been made are there. -/
theorem folders_of_makeFolders {n : ℕ} {ps : List Location} {x y : Extraction}
    (h : makeFolders n ps x = (.ok (), y)) :
    (∀ p ∈ ps, y.files p = some .dir) ∧ (∀ p, x.files p = some .dir → y.files p = some .dir) ∧
      y.written = x.written := by
  induction ps generalizing n x with
  | nil =>
    cases h
    exact ⟨fun _ hp => absurd hp List.not_mem_nil, fun p hp => hp, rfl⟩
  | cons p ps ih =>
    rw [makeFolders] at h
    split at h
    · next hdir =>
      obtain ⟨hall, hkept, hwritten⟩ := ih h
      exact ⟨List.forall_mem_cons.mpr ⟨hkept p hdir, hall⟩, hkept, hwritten⟩
    split at h
    · cases h
    split at h
    · cases h
    · obtain ⟨hall, hkept, hwritten⟩ := ih h
      have hkept' : ∀ q, Function.update x.files p (some .dir) q = some .dir →
          y.files q = some .dir := hkept
      refine ⟨List.forall_mem_cons.mpr ⟨hkept' p (Function.update_self p _ _), hall⟩, ?_, hwritten⟩
      intro q hq
      by_cases heq : q = p
      · exact heq ▸ hkept' p (Function.update_self p _ _)
      · exact hkept' q (by rw [Function.update_of_ne heq]; exact hq)

theorem folders_of_freshFolder {n : ℕ} {dest : Location} {files : Files} {x : Extraction}
    (h : freshFolder n dest files = (.ok (), x)) :
    (∀ p, p <+: dest → x.files p = some .dir) ∧ x.written = [] := by
  have hmkdir : ∀ {start : Files}, mkdir n dest ⟨start, [], []⟩ = (.ok (), x) →
      (∀ p, p <+: dest → x.files p = some .dir) ∧ x.written = [] := by
    intro start hstart
    obtain ⟨hall, -, hwritten⟩ := folders_of_makeFolders hstart
    exact ⟨fun p hp => hall p ((List.mem_inits p dest).mpr hp), hwritten⟩
  unfold freshFolder at h
  split at h
  · exact hmkdir h
  · exact hmkdir h
  · cases h

theorem written_of_makeFolders (n : ℕ) (ps : List Location) (x : Extraction) :
    (makeFolders n ps x).2.written = x.written := by
  induction ps generalizing n x with
  | nil => rfl
  | cons p ps ih =>
    rw [makeFolders]
    split
    · exact ih n x
    split
    · rfl
    split
    · rfl
    · exact ih _ _

theorem written_of_freshFolder (n : ℕ) (dest : Location) (files : Files) :
    (freshFolder n dest files).2.written = [] := by
  unfold freshFolder
  split
  · exact written_of_makeFolders _ _ _
  · exact written_of_makeFolders _ _ _
  · rfl

/-- Different members that have passed fit together: the last of them fits with
all members before it. -/
theorem sum_le_of_passed {dest : Location} {limit : ℕ} {members : List (Info × Fate)}
    {written : List (ℕ × Location)} (honce : (written.map Prod.fst).Nodup)
    (hpassed : ∀ w ∈ written, Passed dest limit members w.1 w.2) :
    (written.map fun w => sizeAt members w.1).sum ≤ limit := by
  have hsum : (written.map fun w => sizeAt members w.1).sum =
      ∑ i ∈ (written.map Prod.fst).toFinset, sizeAt members i := by
    rw [List.sum_toFinset _ honce, List.map_map]
    rfl
  rcases (written.map Prod.fst).toFinset.eq_empty_or_nonempty with hempty | hnonempty
  · rw [hsum, hempty]
    exact Nat.zero_le limit
  · obtain ⟨last, hlast, hmax⟩ := Finset.exists_max_image _ id hnonempty
    obtain ⟨w, hw, rfl⟩ := List.mem_map.mp (List.mem_toFinset.mp hlast)
    obtain ⟨info, fate, files, -, -, -, hfits⟩ := hpassed w hw
    have hbefore : sizeBefore members (w.1 + 1) =
        ∑ i ∈ (List.range (w.1 + 1)).toFinset, sizeAt members i :=
      (List.sum_toFinset _ List.nodup_range).symm
    have hsubset : (written.map Prod.fst).toFinset ⊆ (List.range (w.1 + 1)).toFinset := by
      intro i hi
      rw [List.mem_toFinset, List.mem_range]
      exact Nat.lt_succ_of_le (hmax i hi)
    calc (written.map fun w => sizeAt members w.1).sum
        ≤ sizeBefore members (w.1 + 1) := by
          rw [hsum, hbefore]
          exact Finset.sum_le_sum_of_subset hsubset
      _ ≤ limit := hfits

/-- **Extraction is confined and bounded**: wherever an extraction ends, the
files it has written for members lie strictly below the destination, the
directories it has made for members are the destination or below it, and
nothing else has changed; a member something was written for has passed the
checks, and the declared sizes of these members fit into the limit. -/
theorem safe_extract_zip_confined (files : Files) (dest : Location) (n : ℕ) (opened : Bool)
    (members : List (Info × Fate)) (E : ℕ) :
    let x := (safeExtractZip files dest n opened members E).2
    (∀ w ∈ x.written, dest <+: w.2 ∧ w.2 ≠ dest) ∧ (∀ p ∈ x.made, dest <+: p) ∧
      (∀ p, x.files p ≠ (freshFolder n dest files).2.files p →
        p ∈ x.made ∨ p ∈ x.written.map Prod.snd) ∧
      (∀ w ∈ x.written, Passed dest (max (20 * E) (E + 2 ^ 30)) members w.1 w.2) ∧
      (x.written.map Prod.fst).Nodup ∧
      (x.written.map fun w => sizeAt members w.1).sum ≤ max (20 * E) (E + 2 ^ 30) := by
  intro x
  have hlimit : maxUncompressed E = max (20 * E) (E + 2 ^ 30) := by
    rw [maxUncompressed, Nat.mul_comm]
    norm_num
  have hfresh : ∀ y : Extraction, y.written = [] → y.made = [] →
      y.files = (freshFolder n dest files).2.files →
      (∀ p, p <+: dest → y.files p = some .dir) →
      Confined (freshFolder n dest files).2.files dest (maxUncompressed E) members 0 y :=
    fun y hwritten hmade hfiles hfolders => {
      folders := hfolders
      made := fun p hp => by rw [hmade] at hp; cases hp
      written := fun w hw => by rw [hwritten] at hw; cases hw
      changed := fun p hp => (hp (by rw [hfiles])).elim
      passed := fun w hw => by rw [hwritten] at hw; cases hw
      once := by rw [hwritten]; exact List.nodup_nil }
  have hx : (x.written = [] ∧ x.made = [] ∧ x.files = (freshFolder n dest files).2.files) ∨
      ∃ last, Confined (freshFolder n dest files).2.files dest (maxUncompressed E) members last x := by
    have hwritten := written_of_freshFolder n dest files
    rw [show x = (safeExtractZip files dest n opened members E).2 from rfl, safeExtractZip]
    split
    · next e y hy =>
      rw [hy] at hwritten ⊢
      exact .inl ⟨hwritten, rfl, rfl⟩
    · next y hy =>
      obtain ⟨hfolders, -⟩ := folders_of_freshFolder hy
      rw [hy] at hwritten hfresh ⊢
      split
      · right
        exact confined_extractMembers rfl rfl (hfresh _ hwritten rfl rfl hfolders)
      · exact .inl ⟨hwritten, rfl, rfl⟩
  rcases hx with ⟨hwritten, hmade, hfiles⟩ | ⟨last, hlast⟩
  · rw [hwritten, hmade, hfiles]
    exact ⟨fun _ hw => absurd hw List.not_mem_nil, fun _ hp => absurd hp List.not_mem_nil,
      fun _ hp => absurd rfl hp, fun _ hw => absurd hw List.not_mem_nil, List.nodup_nil,
      Nat.zero_le _⟩
  · rw [hlimit] at hlast
    have hpassed : ∀ w ∈ x.written, Passed dest (max (20 * E) (E + 2 ^ 30)) members w.1 w.2 :=
      fun w hw => (hlast.passed w hw).2
    exact ⟨hlast.written, hlast.made, hlast.changed, hpassed, hlast.once,
      sum_le_of_passed hlast.once hpassed⟩

end Zip

end KaggleRelay
