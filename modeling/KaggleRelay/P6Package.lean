/-
The package of a P6 result, while somebody else may write to it.

`package_result` validates the result, reads the manifest again, and copies
the files that this second reading lists; the manifest goes into the package
last, against the hash that validation took of it at its end.

* `packageResult` — the function of the source;
* `Validated`, `Publishes` — what has been validated, and a package that holds
  just that;
* `package_result_exact_iff` — when a package holds what has been validated;
* `package_result_publishes_other` — a run in which it holds something else.
-/
import Mathlib.Data.List.Perm.Basic
import KaggleRelay.P6Accepted

namespace KaggleRelay

open Effects JsonText

namespace P6

open Packager

variable (lib : Library) (reader : Reader) (expected : Expected)

/-- The path of a row, where it is a text. -/
def pathOf : Json → Except Exc String
  | .str path => .ok path
  | _ => .error (.valueError "unsafe P6 relative path")

/-- The body of the loop over the rows; no size matches that is no finite
number. -/
def packRow (row : Json) : Packager Unit := do
  let size ← Eff.lift (row.item "size")
  checkFree size
  let path ← Eff.lift (row.item "path" >>= pathOf)
  plain path
  openSource path
  openMember ("p6_result/" ++ path)
  let limit ← Eff.orRaise (reader.finiteNumber size)
    (.valueError "P6 source changed during packaging")
  let copied ← Packager.copyBlocks path limit (.valueError "P6 source grew during packaging") []
  closeMember
  let sha256 ← Eff.lift (row.item "sha256")
  Eff.raiseIf (¬(((copied.length : ℕ) : ℚ) = limit ∧ sha256.isStr (lib.sha256 copied)))
    (.valueError "P6 source changed during packaging")

def packRows : List Json → Packager Unit
  | [] => pure ()
  | row :: rows => do
    packRow lib reader row
    packRows rows

/-- The row of the manifest itself. -/
def manifestRow (receipt : Receipt) (size : ℕ) : Json :=
  .obj [("path", .str manifestName), ("sha256", .str receipt.resultManifestSha256),
    ("size", .int size)]

/-- What is done with the temporary file. -/
def packArchive (receipt : Receipt) (files : Json) : Packager Receipt := do
  openZip
  let size ← statSize manifestName
  let rows ← Eff.lift files.list
  packRows lib reader (rows ++ [manifestRow receipt size])
  closeZip
  let bytes ← archiveBytes
  let size ← archiveSize
  Packager.replace
  pure { receipt with archiveSha256 := some (lib.sha256 bytes), archiveSize := some size }

/-- `package_result`. -/
def packageResult : Packager Receipt := do
  let receipt ← validateResult lib reader expected
  let document ← readJson reader manifestName
  let files ← Eff.lift (document.item "files")
  atomically (packArchive lib reader receipt files)

/-! ### What a package holds -/

/-- A file by its name, size and hash. -/
abbrev Slot := String × ℚ × String

variable {lib reader expected}

/-- What a row asks for. -/
def FileRow.slot (row : FileRow) : Slot := (row.path, row.size, row.sha256)

/-- What an item of an unchecked list asks for. -/
def slotOf (reader : Reader) (item : Json) : Option Slot := do
  let path ← (item.item "path" >>= pathOf).toOption
  let size ← (item.item "size").toOption.bind reader.finiteNumber
  let sha256 ← (item.item "sha256" >>= Json.text).toOption
  some (path, size, sha256)

/-- A member of the ZIP. -/
def described (lib : Library) (member : String × Bytes) : Slot :=
  (member.1, (member.2.length : ℕ), lib.sha256 member.2)

/-- The member that is to be made of a file. -/
def inFolder (slot : Slot) : Slot := ("p6_result/" ++ slot.1, slot.2)

/-- The member that holds what has been read of a file. -/
def memberOf (source : String × Bytes) : String × Bytes := ("p6_result/" ++ source.1, source.2)

/-- The rows that the bytes of a manifest list, each one valid. -/
def Validated (reader : Reader) (raw : Bytes) (rows : List FileRow) : Prop :=
  ∃ document files items, parseObject reader raw = .ok document ∧
    document.item "files" = .ok files ∧ fileList files = .ok items ∧
    List.Forall₂ (fun item row => entry item = .ok row) items rows

/-- What the bytes of a manifest list, unchecked. -/
def listedSlots (reader : Reader) (raw : Bytes) : Option (List Slot) :=
  ((parseObject reader raw >>= (·.item "files")) >>= Json.list).toOption.bind
    (·.mapM (slotOf reader))

/-- The members are the files of the rows, with their sizes and hashes, and
the manifest is the one with these bytes. -/
def Publishes (lib : Library) (rows : List FileRow) (raw : Bytes) (members : List (String × Bytes))
    (manifest : Bytes) : Prop :=
  (members.map (described lib)).Perm (rows.map fun row => inFolder (FileRow.slot row)) ∧
    manifest = raw

theorem inFolder_injective : Function.Injective inFolder := by
  rintro ⟨path, rest⟩ ⟨path', rest'⟩ h
  obtain ⟨hpath, rfl⟩ := Prod.mk.inj h
  rw [String.append_right_inj] at hpath
  exact Prod.ext hpath rfl

/-- A package of what a second manifest lists holds the files of the first one
just when they list the same. -/
theorem publishes_iff {rows : List FileRow} {raw manifest : Bytes} {slots : List Slot}
    {members : List (String × Bytes)} (h : members.map (described lib) = slots.map inFolder) :
    Publishes lib rows raw members manifest ↔
      slots.Perm (rows.map FileRow.slot) ∧ manifest = raw := by
  have hmap : rows.map (fun row => inFolder (FileRow.slot row)) =
      (rows.map FileRow.slot).map inFolder := by rw [List.map_map]; rfl
  rw [Publishes, h, hmap, List.map_perm_map_iff inFolder_injective]

section Rules

open Packaging

variable {d : Option Content} {members copies : List (String × Bytes)} {w : Packaging.World}

theorem uses_plain {φ : FileOp → Prop} (name : String) (hlinked : φ (.linked name)) (hfile : φ (.isFile name)) :
    Uses φ (plain name : Prog FileSig (Except Exc Unit)) := by
  refine Uses.seq (Uses.pure _) fun _ => Uses.seq (Uses.perform hlinked) fun _ => ?_
  exact Uses.seq (Uses.pure _) fun _ => Uses.seq (Uses.perform hfile) fun _ => Uses.pure _

/-- The members in the temporary file, and the files that have been copied. -/
def Packed (d : Option Content) (members copies : List (String × Bytes)) (w : Packaging.World) : Prop :=
  At d (some members) w ∧ w.copies = copies

/-- Looks that copy nothing. -/
theorem safe_packed {α : Type} {p : Packager α} (hlooks : Uses Looks (p : Prog FileSig (Except Exc α)))
    (huncopied : Uses Uncopied (p : Prog FileSig (Except Exc α))) (hw : Packed d members copies w) :
    Safe sem (fun _ => True)
      (post (fun _ w' => Packed d members copies w') fun _ w' => w'.destination = d) p w := by
  refine Safe.mono (Safe.and (safe_looks hlooks hw.1) (safe_uncopied hw.2 huncopied)) ?_
  rintro (e | a) w' ⟨hat, hcopies⟩
  · exact hat
  · exact ⟨hat, hcopies⟩

/-- A row that has been packed is one that asks for a file, and the member is
what has been read of that file. -/
theorem safe_packRow {row : Json} (hw : Packed d members copies w) :
    Safe sem (fun _ => True)
      (post (fun _ w' => ∃ source slot, Packed d (members ++ [memberOf source]) (source :: copies) w' ∧
          slotOf reader row = some slot ∧ described lib (memberOf source) = inFolder slot)
        fun _ w' => w'.destination = d)
      (packRow lib reader row) w := by
  rw [packRow]
  have hlift : ∀ {α : Type} {r : Except Exc α} {w : Packaging.World}, Packed d members copies w →
      Safe sem (fun _ => True)
        (post (fun a w' => r = .ok a ∧ Packed d members copies w') fun _ w' => w'.destination = d)
        (Eff.lift r : Packager α) w :=
    fun hw => Safe.lift (fun _ hr => ⟨hr, hw⟩) fun _ _ => hw.1.1
  refine Safe.seq (hlift hw) ?_
  rintro size w₁ ⟨hsize, hw₁⟩
  refine Safe.seq (safe_packed (Uses.perform trivial) (Uses.perform trivial) hw₁) ?_
  intro _ w₂ hw₂
  refine Safe.seq (hlift hw₂) ?_
  rintro path w₃ ⟨hpath, hw₃⟩
  refine Safe.seq (safe_packed (looking_plain path).1 (uses_plain path trivial trivial) hw₃) ?_
  intro _ w₄ hw₄
  have hopen : Safe sem (fun _ => True)
      (post (fun _ w' => Packed d members ((path, []) :: copies) w') fun _ w' => w'.destination = d)
      (openSource path) w₄ := by
    refine Safe.mono (Safe.and (safe_looks (Uses.perform trivial) hw₄.1) (safe_openSource path)) ?_
    rintro (e | u) w' ⟨hat, hcopies⟩
    · exact hat
    · exact ⟨hat, hcopies.trans (by rw [hw₄.2])⟩
  refine Safe.seq hopen ?_
  intro _ w₅ hw₅
  have hmember : Safe sem (fun _ => True)
      (post (fun _ w' => Packed d (members ++ [("p6_result/" ++ path, [])]) ((path, []) :: copies) w')
        fun _ w' => w'.destination = d) (openMember ("p6_result/" ++ path)) w₅ := by
    refine Safe.mono (Safe.and (safe_openMember _ hw₅.1) (safe_uncopied hw₅.2 (Uses.perform trivial))) ?_
    rintro (e | u) w' ⟨hat, hcopies⟩
    · exact hat
    · exact ⟨hat, hcopies⟩
  refine Safe.seq hmember ?_
  intro _ w₆ hw₆
  have hlimit : Safe sem (fun _ => True)
      (post (fun limit w' => reader.finiteNumber size = some limit ∧ w' = w₆)
        fun _ w' => w'.destination = d)
      (Eff.orRaise (reader.finiteNumber size)
        (.valueError "P6 source changed during packaging") : Packager ℚ) w₆ :=
    Safe.orRaise fun _ => hw₆.1.1
  refine Safe.seq hlimit ?_
  rintro limit w₇ ⟨hnumber, rfl⟩
  have hcopy : Safe sem (fun _ => True)
      (post (fun bytes w' => Packed d (members ++ [memberOf (path, bytes)]) ((path, bytes) :: copies) w')
        fun _ w' => w'.destination = d)
      (Packager.copyBlocks path limit (.valueError "P6 source grew during packaging") []) w₇ := by
    refine Safe.mono (Safe.and (safe_copyBlocks hw₆.1) (safe_copyBlocks_copies hw₆.2)) ?_
    rintro (e | bytes) w' ⟨hat, hcopies⟩
    · exact hat
    · exact ⟨hat, hcopies⟩
  refine Safe.seq hcopy ?_
  intro bytes w₈ hw₈
  refine Safe.seq (safe_packed (Uses.perform trivial) (Uses.perform trivial) hw₈) ?_
  intro _ w₉ hw₉
  have hitem : Safe sem (fun _ => True)
      (post (fun sha w' => row.item "sha256" = .ok sha ∧ w' = w₉) fun _ w' => w'.destination = d)
      (Eff.lift (row.item "sha256") : Packager Json) w₉ :=
    Safe.lift (fun _ hr => ⟨hr, rfl⟩) fun _ _ => hw₉.1.1
  refine Safe.seq hitem ?_
  rintro sha w₁₀ ⟨hsha, rfl⟩
  refine Safe.mono (Safe.raiseIf (E := fun _ w' => w'.destination = d) fun _ => hw₉.1.1) ?_
  rintro (e | _) w' h
  · exact h
  · obtain ⟨hchecks, rfl⟩ := h
    obtain ⟨hlength, hstr⟩ := not_not.mp hchecks
    refine ⟨(path, bytes), (path, limit, lib.sha256 bytes), hw₉, ?_, ?_⟩
    · rw [slotOf, hpath, hsize, hsha, eq_str_of_isStr hstr]
      simp [Except.toOption, hnumber, Json.text, bind, Except.bind]
    · rw [described, inFolder, memberOf, hlength]

/-- The members are what has been read of the files the rows ask for, in their
order. -/
theorem safe_packRows {rows : List Json} (hw : Packed d members copies w) :
    Safe sem (fun _ => True)
      (post (fun _ w' => ∃ (sources : List (String × Bytes)) (slots : List Slot),
          Packed d (members ++ sources.map memberOf) (sources.reverse ++ copies) w' ∧
          rows.mapM (slotOf reader) = some slots ∧
          sources.map (fun source => described lib (memberOf source)) = slots.map inFolder)
        fun _ w' => w'.destination = d)
      (packRows lib reader rows) w := by
  induction rows generalizing members copies w with
  | nil => exact ⟨[], [], by rw [List.map_nil, List.append_nil]; exact hw, rfl, rfl⟩
  | cons row rows ih =>
    rw [packRows]
    refine Safe.seq (safe_packRow hw) ?_
    rintro _ w₁ ⟨source, slot, hw₁, hslot, hsource⟩
    refine Safe.mono (ih hw₁) ?_
    rintro (e | _) w' h
    · exact h
    · obtain ⟨sources, slots, hw', hslots, hsources⟩ := h
      refine ⟨source :: sources, slot :: slots, ?_, ?_, ?_⟩
      · rw [List.map_cons, List.reverse_cons, List.append_assoc, List.singleton_append]
        rw [List.append_assoc, List.singleton_append] at hw'
        exact hw'
      · rw [List.mapM_cons, hslot, hslots]
        rfl
      · rw [List.map_cons, List.map_cons, hsource, hsources]

/-- What a run of the packaging has put in the place of the destination, and has
read of the manifest when it copied it. -/
def Packs (lib : Library) (reader : Reader) (files : Json) (d : Option Content)
    (copied : Option (String × Bytes)) : Prop :=
  ∃ items slots members manifest, files = .arr items ∧ items.mapM (slotOf reader) = some slots ∧
    members.map (described lib) = slots.map inFolder ∧
    d = some (.zip (members ++ [("p6_result/" ++ manifestName, manifest)])) ∧
    copied = some (manifestName, manifest)

theorem mapM_concat {α β : Type} {f : α → Option β} {xs : List α} {x : α} {ys : List β}
    (h : (xs ++ [x]).mapM f = some ys) :
    ∃ front last, ys = front ++ [last] ∧ xs.mapM f = some front ∧ f x = some last := by
  rw [List.mapM_append] at h
  obtain ⟨front, hfront, h⟩ := Option.bind_eq_some_iff.mp h
  obtain ⟨back, hback, h⟩ := Option.bind_eq_some_iff.mp h
  rw [List.mapM_cons, List.mapM_nil] at hback
  obtain ⟨last, hlast, hback⟩ := Option.bind_eq_some_iff.mp hback
  cases hback
  exact ⟨front, last, (Option.some.inj h).symm, hfront, hlast⟩

theorem slotOf_manifestRow {receipt : Receipt} {size : ℕ} {slot : Slot}
    (h : slotOf reader (manifestRow receipt size) = some slot) : slot.1 = manifestName := by
  have hpath : ((manifestRow receipt size).item "path" >>= pathOf).toOption = some manifestName :=
    rfl
  rw [slotOf, hpath] at h
  obtain ⟨path, hname, h⟩ := Option.bind_eq_some_iff.mp h
  obtain ⟨_, _, h⟩ := Option.bind_eq_some_iff.mp h
  obtain ⟨_, _, h⟩ := Option.bind_eq_some_iff.mp h
  rw [← Option.some.inj h]
  exact (Option.some.inj hname).symm

theorem safe_packArchive {receipt : Receipt} {files : Json} (hw : At d (some []) w) :
    Safe sem (fun _ => True)
      (post (fun _ w' => Packs lib reader files w'.destination w'.copies.head?)
        fun _ w' => w'.destination = d)
      (packArchive lib reader receipt files) w := by
  rw [packArchive]
  refine Safe.seq (safe_packed (Uses.perform trivial) (Uses.perform trivial) ⟨hw, rfl⟩) ?_
  intro _ w₁ hw₁
  refine Safe.seq (safe_packed (Uses.perform trivial) (Uses.perform trivial) hw₁) ?_
  intro size w₂ hw₂
  have hlist : Safe sem (fun _ => True)
      (post (fun items w' => files = .arr items ∧ w' = w₂) fun _ w' => w'.destination = d)
      (Eff.lift files.list : Packager (List Json)) w₂ := by
    refine Safe.lift (fun items hitems => ?_) fun _ _ => hw₂.1.1
    cases files <;> cases hitems
    exact ⟨rfl, rfl⟩
  refine Safe.seq hlist ?_
  rintro items w₃ ⟨rfl, rfl⟩
  refine Safe.seq (safe_packRows hw₂) ?_
  rintro _ w₄ ⟨sources, slots, hw₄, hslots, hsources⟩
  rw [List.nil_append] at hw₄
  refine Safe.seq (safe_packed (Uses.perform trivial) (Uses.perform trivial) hw₄) ?_
  intro _ w₅ hw₅
  refine Safe.seq (safe_packed (Uses.perform trivial) (Uses.perform trivial) hw₅) ?_
  intro bytes w₆ hw₆
  refine Safe.seq (safe_packed (Uses.perform trivial) (Uses.perform trivial) hw₆) ?_
  intro archived w₇ hw₇
  have hreplace : Safe sem (fun _ => True)
      (post (fun _ w' => w'.destination = some (.zip (sources.map memberOf)) ∧
          w'.copies = sources.reverse ++ w.copies) fun _ w' => w'.destination = d)
      Packager.replace w₇ := by
    refine Safe.mono (Safe.and (safe_replace hw₇.1) (safe_uncopied hw₇.2 (Uses.perform trivial))) ?_
    rintro (e | u) w' ⟨hdest, hcopies⟩
    · exact hdest
    · exact ⟨hdest, hcopies⟩
  refine Safe.seq hreplace ?_
  rintro _ w₈ ⟨hdest, hcopies⟩
  -- the last row is that of the manifest
  obtain ⟨slots', manifestSlot, rfl, hitems, hlast⟩ := mapM_concat hslots
  rw [List.map_append, List.map_singleton] at hsources
  obtain ⟨others, lasts, rfl, hothers, hlasts⟩ := List.map_eq_append_iff.mp hsources
  obtain ⟨⟨name, manifest⟩, rfl, hmanifest⟩ := List.map_eq_singleton_iff.mp hlasts
  have hname : name = manifestName := by
    have hfolder : "p6_result/" ++ name = "p6_result/" ++ manifestName := by
      rw [← slotOf_manifestRow hlast]
      exact congrArg Prod.fst hmanifest
    exact (String.append_right_inj _).mp hfolder
  subst hname
  refine ⟨items, slots', others.map memberOf, manifest, rfl, hitems, ?_, ?_, ?_⟩
  · rw [List.map_map]
    exact hothers
  · show w₈.destination = _
    rw [hdest, List.map_append]
    rfl
  · show w₈.copies.head? = _
    rw [hcopies, List.reverse_append, List.reverse_singleton]
    rfl

theorem safe_inventoryRows (maxBytes : ℕ) (seen : List String) (total : ℕ) (items : List Json)
    (w : Packaging.World) :
    Safe sem (fun _ => True)
      (post (fun rows _ => List.Forall₂ (fun item row => entry item = .ok row) items rows)
        fun _ _ => True)
      (inventoryRows lib maxBytes seen total items) w := by
  induction items generalizing seen total w with
  | nil => exact .nil
  | cons item items ih =>
    rw [inventoryRows]
    have hentry : Safe sem (fun _ => True)
        (post (fun row _ => entry item = .ok row) fun _ _ => True)
        (Eff.lift (entry item) : Packager FileRow) w :=
      Safe.lift (fun _ hrow => hrow) fun _ _ => trivial
    refine Safe.seq hentry ?_
    intro row w₁ hrow
    have hcheck : Safe sem (fun _ => True) (post (fun _ _ => True) fun _ _ => True)
        (inventoryRow lib maxBytes seen total row) w₁ :=
      Safe.mono (Safe.any _ w₁) fun r _ _ => by cases r <;> trivial
    refine Safe.seq hcheck ?_
    intro _ w₂ _
    refine Safe.seq (ih _ _ w₂) ?_
    intro rows w₃ hrows
    exact .cons hrow hrows

/-- The bytes a validation starts with are on record, as the oldest read, and
their rows are those it has checked. -/
theorem safe_validated (hreads : w.reads = []) :
    Safe sem (fun _ => True)
      (post (fun _ w' => ∃ raw rows, [(manifestName, raw)] <:+ w'.reads ∧ Validated reader raw rows)
        fun _ _ => True)
      (validateResult lib reader expected) w := by
  have hunread : ∀ {α : Type} {p : Packager α} {w : Packaging.World},
      Uses Unread (p : Prog FileSig (Except Exc α)) → w.reads = [] → Safe sem (fun _ => True)
        (post (fun _ w' => w'.reads = []) fun _ _ => True) p w := by
    intro α p w hp hw
    refine Safe.mono (safe_unread hw hp) ?_
    rintro (e | a) w' h
    · trivial
    · exact h
  rw [validateResult]
  have hdocument : Safe sem (fun _ => True)
      (post (fun document w' => ∃ raw, w'.reads = [(manifestName, raw)] ∧
          parseObject reader raw = .ok document) fun _ _ => True)
      (readPlain reader manifestName) w := by
    rw [readPlain]
    refine Safe.seq (hunread (uses_plain manifestName trivial trivial) hreads) ?_
    intro _ w₁ hw₁
    rw [readJson]
    refine Safe.seq (hunread (Uses.perform trivial) hw₁) ?_
    intro size w₂ hw₂
    refine Safe.seq (hunread (Uses.pure _) hw₂) ?_
    intro _ w₃ hw₃
    have hread : Safe sem (fun _ => True)
        (post (fun raw w' => w'.reads = [(manifestName, raw)]) fun _ _ => True)
        (readBytes manifestName) w₃ := by
      refine Safe.mono (safe_readBytes manifestName ⟨rfl, rfl⟩) ?_
      rintro (e | raw) w' h
      · trivial
      · exact h.2.trans (by rw [hw₃])
    refine Safe.seq hread ?_
    intro raw w₄ hw₄
    exact Safe.lift (fun document hparse => ⟨raw, hw₄, hparse⟩) fun _ _ => trivial
  refine Safe.seq hdocument ?_
  rintro document w₁ ⟨raw, hraw, hparse⟩
  have hlift : ∀ {α : Type} {r : Except Exc α} {w : Packaging.World}, w = w₁ →
      Safe sem (fun _ => True) (post (fun a w' => r = .ok a ∧ w' = w₁) fun _ _ => True)
        (Eff.lift r : Packager α) w :=
    fun hw => Safe.lift (fun _ hr => ⟨hr, hw⟩) fun _ _ => trivial
  refine Safe.seq (hlift rfl) ?_
  rintro header w₂ ⟨-, hw₂⟩
  refine Safe.seq (hlift hw₂) ?_
  rintro files w₃ ⟨hfiles, hw₃⟩
  have hinventory : Safe sem (fun _ => True)
      (post (fun rows w' => [(manifestName, raw)] <:+ w'.reads ∧ Validated reader raw rows)
        fun _ _ => True)
      (inventory lib expected.maxBytes files) w₃ := by
    rw [inventory]
    refine Safe.seq (hlift hw₃) ?_
    rintro items w₄ ⟨hitems, rfl⟩
    have hsuffix : [(manifestName, raw)] <:+ w₄.reads := by rw [hraw]
    refine Safe.mono (Safe.and (safe_inventoryRows _ _ _ items w₄) (safe_reads hsuffix _)) ?_
    rintro (e | rows) w' ⟨hrows, hreads'⟩
    · trivial
    · exact ⟨hreads', document, files, items, hparse, hfiles, hitems, hrows⟩
  refine Safe.seq hinventory ?_
  rintro rows w₄ ⟨hsuffix, hvalid⟩
  -- nothing that follows forgets the first read
  refine Safe.mono (safe_reads hsuffix _) ?_
  rintro (e | receipt) w' h
  · trivial
  · exact ⟨raw, rows, h, hvalid⟩

theorem safe_validateResult (hw : At d none w) (hreads : w.reads = []) :
    Safe sem (fun _ => True)
      (post (fun _ w' => At d none w' ∧ ∃ raw rows, [(manifestName, raw)] <:+ w'.reads ∧
          Validated reader raw rows)
        fun _ w' => At d none w')
      (validateResult lib reader expected) w := by
  refine Safe.mono (Safe.and (safe_looks_at looking_validateResult.1 hw) (safe_validated hreads)) ?_
  rintro (e | receipt) w' ⟨hw', h⟩
  · exact hw'
  · exact ⟨hw', h⟩

theorem bounded_packRows (rows : List Json) : Bounded Unread (packRows lib reader rows) := by
  induction rows with
  | nil => exact ⟨trivial, trivial⟩
  | cons row rows ih =>
    refine Bounded.seq ?_ fun _ => ih
    refine Bounded.seq ⟨trivial, trivial⟩ fun size => ?_
    refine Bounded.seq ⟨Uses.perform trivial, Ends.perform _⟩ fun _ => ?_
    refine Bounded.seq ⟨trivial, trivial⟩ fun path => ?_
    refine Bounded.seq ⟨uses_plain path trivial trivial, (looking_plain path).2⟩ fun _ => ?_
    refine Bounded.seq ⟨Uses.perform trivial, Ends.perform _⟩ fun _ => ?_
    refine Bounded.seq ⟨Uses.perform trivial, Ends.perform _⟩ fun _ => ?_
    refine Bounded.seq ⟨trivial, trivial⟩ fun limit => ?_
    refine Bounded.seq (bounded_copyBlocks _ _ _ _ trivial fun _ => trivial) fun _ => ?_
    refine Bounded.seq ⟨Uses.perform trivial, Ends.perform _⟩ fun _ => ?_
    exact Bounded.seq ⟨trivial, trivial⟩ fun _ => ⟨trivial, trivial⟩

/-- The packing reads no file as a whole. -/
theorem bounded_pack (receipt : Receipt) (files : Json) :
    Bounded Unread (atomically (packArchive lib reader receipt files)) := by
  refine bounded_atomically ?_ trivial trivial trivial
  refine Bounded.seq ⟨Uses.perform trivial, Ends.perform _⟩ fun _ => ?_
  refine Bounded.seq ⟨Uses.perform trivial, Ends.perform _⟩ fun size => ?_
  refine Bounded.seq ⟨trivial, trivial⟩ fun rows => ?_
  refine Bounded.seq (bounded_packRows _) fun _ => ?_
  refine Bounded.seq ⟨Uses.perform trivial, Ends.perform _⟩ fun _ => ?_
  refine Bounded.seq ⟨Uses.perform trivial, Ends.perform _⟩ fun bytes => ?_
  refine Bounded.seq ⟨Uses.perform trivial, Ends.perform _⟩ fun size => ?_
  exact Bounded.seq ⟨Uses.perform trivial, Ends.perform _⟩ fun _ => ⟨trivial, trivial⟩

theorem ends_packageResult : Ends (packageResult lib reader expected :
    Prog FileSig (Except Exc Receipt)) := by
  refine Ends.seq looking_validateResult.2 fun receipt => ?_
  refine Ends.seq (looking_readJson manifestName).2 fun document => ?_
  exact Ends.seq (Ends.pure _) fun files => (bounded_pack receipt files).2

/-- A run that returns has packed what a second manifest lists; one that raises
has changed nothing. -/
theorem safe_packageResult (hw : At d none w) (hreads : w.reads = []) :
    Safe sem (fun _ => True)
      (post (fun _ w' => (∃ raw rows again older files, w'.reads = (manifestName, again) :: older ∧
            [(manifestName, raw)] <:+ older ∧ Validated reader raw rows ∧
            (parseObject reader again >>= (·.item "files")) = .ok files ∧
            Packs lib reader files w'.destination w'.copies.head?) ∧ w'.temporary = none)
        fun _ w' => At d none w')
      (packageResult lib reader expected) w := by
  rw [packageResult]
  refine Safe.seq (safe_validateResult hw hreads) ?_
  rintro receipt w₁ ⟨hw₁, raw, rows, hsuffix, hvalid⟩
  have hagain : Safe sem (fun _ => True)
      (post (fun document w' => At d none w' ∧ ∃ again older,
          w'.reads = (manifestName, again) :: older ∧ [(manifestName, raw)] <:+ older ∧
          parseObject reader again = .ok document) fun _ w' => At d none w')
      (readJson reader manifestName) w₁ := by
    rw [readJson]
    have hsize : Uses Looks (statSize manifestName : Prog FileSig (Except Exc ℕ)) :=
      Uses.perform trivial
    refine Safe.seq (safe_looks_read hsize hw₁ hsuffix) ?_
    rintro size w₂ ⟨hw₂, hsuffix₂⟩
    refine Safe.seq (safe_looks_read (Uses.pure _) hw₂ hsuffix₂) ?_
    rintro _ w₃ ⟨hw₃, hsuffix₃⟩
    refine Safe.seq (safe_readBytes manifestName hw₃) ?_
    rintro again w₄ ⟨hw₄, hread⟩
    exact Safe.lift (fun document hparse => ⟨hw₄, again, w₃.reads, hread, hsuffix₃, hparse⟩)
      fun _ _ => hw₄
  refine Safe.seq hagain ?_
  rintro document w₂ ⟨hw₂, again, older, hread, holder, hparse⟩
  have hfiles : Safe sem (fun _ => True)
      (post (fun files w' => document.item "files" = .ok files ∧ w' = w₂) fun _ w' => At d none w')
      (Eff.lift (document.item "files") : Packager Json) w₂ :=
    Safe.lift (fun _ h => ⟨h, rfl⟩) fun _ _ => hw₂
  refine Safe.seq hfiles ?_
  rintro files w₃ ⟨hitem, rfl⟩
  have hpack : Safe sem (fun _ => True)
      (post (fun _ w' => Packs lib reader files w'.destination w'.copies.head? ∧ w'.temporary = none)
        fun _ w' => At d none w')
      (atomically (packArchive lib reader receipt files)) w₃ :=
    safe_atomically (Q := fun _ d copies => Packs lib reader files d copies.head?) hw₂ fun _ hw =>
      safe_packArchive hw
  refine Safe.mono (Safe.and hpack (safe_unread hread (bounded_pack receipt files).1)) ?_
  rintro (e | _) w' ⟨h, hread'⟩
  · exact h
  · refine ⟨⟨raw, rows, again, older, files, hread', holder, hvalid, ?_, h.1⟩, h.2⟩
    exact ok_bind.mpr ⟨document, hparse, hitem⟩

/-- What a run that returns has validated. -/
theorem validated_of_run {cs : List Packaging.Answers} {receipt : Receipt}
    {run : Prog FileSig (Except Exc Receipt) × Packaging.World}
    (hrun : run = (packageResult lib reader expected).exec sem cs (.start d))
    (hreceipt : run.1 = .pure (.ok receipt)) :
    ∃ raw rows, run.2.reads.getLast? = some (manifestName, raw) ∧ Validated reader raw rows := by
  subst hrun
  obtain ⟨⟨raw, rows, again, older, files, hreads, ⟨newer, holder⟩, hvalid, -⟩, -⟩ :=
    Safe.exec_post (safe_packageResult ⟨rfl, rfl⟩ rfl) hreceipt
  refine ⟨raw, rows, ?_, hvalid⟩
  rw [hreads, ← holder, ← List.cons_append, List.getLast?_concat]

end Rules

/-- **What is published**: whatever answers the file system gives, one after
the other, `package_result` ends.  Where it raises, the destination is what it
was.  Where it does not, the members are the files that were validated, and
the manifest the one that was, exactly when the manifest that is read again
lists the same files and the blocks that are read of it in the end are those
bytes again.  No temporary file is left. -/
theorem package_result_exact_iff (lib : Library) (reader : Reader) (expected : Expected)
    (d : Option Packaging.Content) (answers : ℕ → Packaging.Answers) :
    ∃ n result w, (packageResult lib reader expected).exec Packaging.sem
        ((List.range n).map answers) (.start d) = (.pure result, w) ∧
      w.temporary = none ∧
      match result with
      | .ok _ => ∃ raw rows again copied members manifest,
          w.reads.getLast? = some (manifestName, raw) ∧ Validated reader raw rows ∧
          w.reads.head? = some (manifestName, again) ∧ w.copies.head? = some (manifestName, copied) ∧
          w.destination = some (.zip (members ++ [("p6_result/" ++ manifestName, manifest)])) ∧
          (Publishes lib rows raw members manifest ↔
            (∃ slots, listedSlots reader again = some slots ∧
              slots.Perm (rows.map FileRow.slot)) ∧ copied = raw)
      | .error _ => w.destination = d := by
  have hends : Ends (packageResult lib reader expected : Prog FileSig (Except Exc Receipt)) := ends_packageResult
  obtain ⟨n, result, hrun⟩ := Ends.returns Packaging.sem_isSome hends answers (.start d)
  have hpost := Safe.exec_post (safe_packageResult ⟨rfl, rfl⟩ rfl) hrun
  refine ⟨n, result, _, Prod.ext hrun rfl, ?_⟩
  cases result with
  | error e => exact ⟨hpost.2, hpost.1⟩
  | ok receipt =>
    obtain ⟨⟨raw, rows, again, older, files, hreads, ⟨newer, holder⟩, hvalid, hagain, items, slots,
      members, manifest, rfl, hslots, hmembers, hdest, hcopied⟩, htemp⟩ := hpost
    have hlast : ((manifestName, again) :: older).getLast? = some (manifestName, raw) := by
      rw [← holder, ← List.cons_append, List.getLast?_concat]
    have hlisted : listedSlots reader again = some slots := by
      rw [listedSlots, hagain]
      exact hslots
    refine ⟨htemp, raw, rows, again, manifest, members, manifest, ?_, hvalid, ?_, hcopied, hdest, ?_⟩
    · rw [hreads, hlast]
    · rw [hreads, List.head?_cons]
    · rw [publishes_iff hmembers, hlisted]
      simp

/-! ### A run in which the manifest is replaced -/

section Trial

/-- The SHA-256 values of its list of files, and of the manifest that replaces it. -/
def fileSetHash : String := "989c2cd9bed6441a7e9de55b2be90a4fbe5a11af922e0dfb0bf0881b4ff9e5b5"

def laterHash : String := "602e35a92eec4bc0a2ec6ae113f07bfc6933322fb69fe8dee416e5a67217e2a2"

def trialFiles : Json :=
  .arr [trialRow "training/model.ckpt" 1 modelHash,
    trialRow "training/threshold.json" 214 thresholdHash,
    trialRow "training/metrics.json" 2 emptyHash,
    trialRow "training/runtime_result.json" 523 trainingHash,
    trialRow "reports/export.json" 2 emptyHash]

def trialTask : String := String.ofList (List.replicate 64 'd')

def trialManifest : Json :=
  .obj [("format", .str "dino_cloud_result_p6_v1"), ("artifact_contract", .str contractV1),
    ("identity", .obj trialIdentity), ("task_sha256", .str trialTask),
    ("training_status", .str "PASS"), ("onnx_status", .str "NOT_RUN"),
    ("windows_status", .str "PENDING"), ("files", trialFiles),
    ("file_set_sha256", .str fileSetHash)]

/-- The manifest another process writes. -/
def laterManifest : Json := .obj [("files", .arr [])]

/-- The hash function, on the files of the run. -/
def trialLibrary : Library where
  sha256 bytes :=
    (([((some 119, none), modelHash), ((some 123, none), emptyHash),
      ((some 123, some 34), thresholdHash), ((some 123, some 118), trainingHash),
      ((some 91, some 114), fileSetHash), ((some 123, some 125), laterHash)] :
      List ((Option UInt8 × Option UInt8) × String)).lookup (mark bytes)).getD ""
  casefold text := text
  lower text := text

/-- The parser, on the documents of the run. -/
def trialReader : Reader where
  loads raw :=
    ([((some 123, some 100), trialManifest), ((some 123, some 118), trialTraining),
      ((some 123, some 34), trialThreshold), ((some 123, some 125), laterManifest)] :
      List ((Option UInt8 × Option UInt8) × Json)).lookup (mark raw)
  float _ := none

def trialExpected : Expected := ⟨some trialIdentity, trialTask, some contractV1, 8 * 1024 ^ 3⟩

/-- The result, with one manifest or the other. -/
def trialDirectory (manifest : Json) : Directory where
  file name :=
    [(manifestName, bytesOf manifest), ("training/model.ckpt", [119]),
      ("training/threshold.json", bytesOf trialThreshold),
      ("training/metrics.json", bytesOf (.obj [])),
      ("training/runtime_result.json", bytesOf trialTraining),
      ("reports/export.json", bytesOf (.obj []))].lookup name
  linked _ := false

/-- The sizes of its files. -/
def trialSize (manifest : ℕ) (name : String) : ℕ :=
  ([(manifestName, manifest), ("training/model.ckpt", 1), ("training/threshold.json", 214),
    ("training/metrics.json", 2), ("training/runtime_result.json", 523),
    ("reports/export.json", 2)].lookup name).getD 0

/-- The manifest is replaced when validation has made all its checks, and is
copied in one block. -/
def trialAnswers (i : ℕ) : Packaging.Answers := fun o =>
  match o with
  | .readBlock _ => .ok (if i = 44 then bytesOf laterManifest else [])
  | .statSize name => .ok (trialSize (if i < 32 then 1031 else 12) name)
  | o => (trialDirectory (if i < 32 then trialManifest else laterManifest)).answers o

def trialRun : Prog FileSig (Except Exc Receipt) × Packaging.World :=
  (packageResult trialLibrary trialReader trialExpected).exec Packaging.sem
    ((List.range 60).map trialAnswers) (.start none)

theorem trialRun_eq : trialRun =
    (packageResult trialLibrary trialReader trialExpected).exec Packaging.sem
      ((List.range 60).map trialAnswers) (.start none) := by
  rw [trialRun]

/-- The program has returned a receipt. -/
def hasReceipt : Prog FileSig (Except Exc Receipt) → Bool
  | .pure (.ok _) => true
  | _ => false

theorem trialRun_published : hasReceipt trialRun.1 = true ∧ trialRun.2.destination =
    some (.zip ([] ++ [("p6_result/" ++ manifestName, bytesOf laterManifest)])) := by
  decide +kernel

attribute [irreducible] trialRun

/-- A package that was published after another process had replaced the
manifest: none of the five files that were validated is in it. -/
theorem package_result_publishes_other : ∃ lib reader expected answers n receipt w raw rows members
    manifest, (packageResult lib reader expected).exec Packaging.sem
        ((List.range n).map answers) (.start none) = (.pure (.ok receipt), w) ∧
      w.reads.getLast? = some (manifestName, raw) ∧ Validated reader raw rows ∧
      w.destination = some (.zip (members ++ [("p6_result/" ++ manifestName, manifest)])) ∧
      ¬Publishes lib rows raw members manifest := by
  obtain ⟨run, hrun, hreturned, hdest⟩ :
      ∃ run : Prog FileSig (Except Exc Receipt) × Packaging.World, run =
      (packageResult trialLibrary trialReader trialExpected).exec Packaging.sem
        ((List.range 60).map trialAnswers) (.start none) ∧ hasReceipt run.1 = true ∧
        run.2.destination =
          some (.zip ([] ++ [("p6_result/" ++ manifestName, bytesOf laterManifest)])) :=
    ⟨trialRun, trialRun_eq, trialRun_published⟩
  obtain ⟨receipt, hreceipt⟩ : ∃ receipt, run.1 = .pure (.ok receipt) := by
    unfold hasReceipt at hreturned
    split at hreturned
    · next receipt h => exact ⟨receipt, h⟩
    · cases hreturned
  obtain ⟨raw, rows, hfirst, hvalid⟩ := validated_of_run hrun hreceipt
  refine ⟨trialLibrary, trialReader, trialExpected, trialAnswers, 60, receipt, run.2, raw, rows, [],
    bytesOf laterManifest, ?_, hfirst, hvalid, hdest, ?_⟩
  · rw [← hrun, ← hreceipt]
  · rintro ⟨hperm, -⟩
    -- what has been validated is never empty
    obtain ⟨document, files, items, -, -, hitems, hrows⟩ := hvalid
    have hlength : 1 ≤ items.length := (eq_of_fileList hitems).2
    have hempty := hperm.length_eq
    rw [List.length_map, List.length_map, ← hrows.length_eq] at hempty
    exact absurd hempty (Nat.ne_of_lt hlength)

end Trial

end P6

end KaggleRelay
