/-
Durable checkpoints of exact-version verification.

The store keeps one row for each scope (a Dataset ref with a local directory).
A row is text and counters: the binding, the expected and the verified
inventory as JSON, and their sizes.

* `load`, `markFile`, `markComplete` — the three transactions on a row, as the
  code computes them on texts;
* `Checkpoint` — what a row stands for: a binding, an inventory and the part of
  it that has been verified.  It cannot hold a verified file that is not
  expected, nor be complete too early;
* `load_row`, `load_row_of_ne`, `markFile_row`, `markComplete_row` — on rows
  that encode checkpoints the transactions are the operations of `Checkpoint`.
-/
import Mathlib.Algebra.Ring.Nat
import KaggleRelay.Dict
import KaggleRelay.Errors
import KaggleRelay.JsonText

namespace KaggleRelay

open JsonText

/-- Functions of the Python library the code calls and whose values no result
here depends on. -/
structure Library where
  /-- `hashlib.sha256(data).hexdigest()`. -/
  sha256 : List UInt8 → String
  /-- `str.casefold`. -/
  casefold : String → String
  /-- `str.lower`. -/
  lower : String → String

/-- `hashlib.sha256(text.encode()).hexdigest()`. -/
def Library.sha256Text (lib : Library) (text : String) : String :=
  lib.sha256 text.toUTF8.data.toList

/-- Sizes and SHA-256 values by file name. -/
abbrev Inventory := Dict (ℕ × String)

/-- `sum(v[0] for v in inventory.values())`. -/
def totalBytes (inventory : Inventory) : ℕ := (inventory.toList.map (·.2.1)).sum

/-! ### Inventories as JSON -/

/-- `[size, sha256]`. -/
def fileJson (value : ℕ × String) : Json := .arr [.int value.1, .str value.2]

/-- The object `json.dumps(inventory, sort_keys=True)` writes. -/
def inventoryJson (inventory : Inventory) : Json :=
  .obj (inventory.toList.map fun item => (item.1, fileJson item.2))

/-- `json.dumps(inventory, sort_keys=True, separators=(",", ":"))`. -/
def encodeInventory (inventory : Inventory) : String := dumps .compact (inventoryJson inventory)

/-- A size and a digest in a JSON list of two. -/
def fileOfJson : Json → Option (ℕ × String)
  | .arr [.int (.ofNat size), .str sha256] => some (size, sha256)
  | _ => none

/-- The inventory an object spells, `none` if some value is not one of a file. -/
def inventoryOfJson : Json → Option Inventory
  | .obj fields => do
    let items ← fields.mapM fun field => (fileOfJson field.2).map (field.1, ·)
    some (Std.ExtTreeMap.ofList items)
  | _ => none

theorem plainFields_map_fileJson (items : List (String × (ℕ × String))) :
    PlainFields (items.map fun item => (item.1, fileJson item.2)) := by
  induction items with
  | nil => trivial
  | cons item items ih => exact ⟨⟨trivial, trivial, trivial⟩, ih⟩

theorem plain_inventoryJson (inventory : Inventory) : Plain (inventoryJson inventory) := by
  refine ⟨?_, plainFields_map_fileJson _⟩
  rw [List.map_map]
  exact Dict.nodup_keys_toList inventory

theorem inventoryOfJson_inventoryJson (inventory : Inventory) :
    inventoryOfJson (inventoryJson inventory) = some inventory := by
  have hitems : ∀ items : List (String × (ℕ × String)),
      (items.map fun item => (item.1, fileJson item.2)).mapM
        (fun field => (fileOfJson field.2).map (field.1, ·)) = some items := by
    intro items
    induction items with
    | nil => rfl
    | cons item items ih =>
      rw [List.map_cons, List.mapM_cons, ih]
      rfl
  simp only [inventoryJson, inventoryOfJson, hitems, Option.bind_eq_bind, Option.bind_some,
    Dict.ofList_toList]

theorem loads_encodeInventory (inventory : Inventory) :
    loads (encodeInventory inventory) = some (inventoryJson inventory) :=
  loads_dumps _ (plain_inventoryJson inventory)

/-- Inventories with one text are one inventory. -/
theorem encodeInventory_injective {m n : Inventory} (h : encodeInventory m = encodeInventory n) :
    m = n := by
  have hj := dumps_injective _ (plain_inventoryJson m) (plain_inventoryJson n) h
  have hm := inventoryOfJson_inventoryJson m
  rw [hj, inventoryOfJson_inventoryJson n] at hm
  exact (Option.some.inj hm).symm

/-! ### Rows and transactions -/

/-- What a candidate is bound to; the directory is its absolute path. -/
structure Binding where
  datasetRef : String
  version : ℤ
  datasetDir : String
  contentSha256 : String
  deriving DecidableEq

/-- The `binding` column. -/
def Binding.text (b : Binding) : String :=
  dumps .compact
    (.arr [.str b.datasetRef, .int b.version, .str b.datasetDir, .str b.contentSha256])

theorem Binding.text_injective {a b : Binding} (h : a.text = b.text) : a = b := by
  have hj := dumps_injective _ (by simp [Plain, PlainItems]) (by simp [Plain, PlainItems]) h
  simp only [Json.arr.injEq, List.cons.injEq, Json.str.injEq, Json.int.injEq] at hj
  obtain ⟨h1, h2, h3, h4, _⟩ := hj
  cases a
  cases b
  simp_all

/-- A row of `candidates`. -/
structure Candidate where
  binding : String
  expected : String
  verified : String
  totalFiles : ℕ
  totalBytes : ℕ
  verifiedFiles : ℕ
  verifiedBytes : ℕ
  complete : ℕ
  deriving DecidableEq

/-- The table `candidates`, by scope. -/
abbrev Candidates := Dict Candidate

variable (lib : Library)

def candidateScope (datasetRef datasetDir : String) : String :=
  lib.sha256Text (dumps .compact (.arr [.str datasetRef, .str datasetDir]))

/-- The scope of the candidate a binding names. -/
def Binding.scope (b : Binding) : String := candidateScope lib b.datasetRef b.datasetDir

/-- The checks `load` makes on a stored row, and the verified inventory it
returns.  The text of a JSON decoding error is not modelled. -/
def checkRow (row : Candidate) (b : Binding) (expected : Inventory) : Except Exc Inventory :=
  if row.binding ≠ b.text ∨ row.expected ≠ encodeInventory expected then
    .error (.valueError "payload_checkpoint_scope_or_inventory_mismatch")
  else
    match loads row.verified with
    | none => .error (.valueError "")
    | some value =>
      match inventoryOfJson value with
      | none => .error (.valueError "payload_checkpoint_invalid")
      | some verified =>
        if verified.toList.any (fun item => expected[item.1]? != some item.2) ∨
            row.verifiedFiles ≠ verified.size ∨
            row.verifiedBytes ≠ totalBytes verified ∨
            row.totalFiles ≠ expected.size ∨
            row.totalBytes ≠ totalBytes expected ∨
            row.complete ∉ [0, 1] ∨
            (row.complete ≠ 0 ∧ verified.size ≠ expected.size) then
          .error (.valueError "payload_checkpoint_invalid")
        else .ok verified

/-- `VerificationStore.load`: the scope and what has been verified in it. -/
def load (b : Binding) (expected : Inventory) (rows : Candidates) :
    Except Exc (String × Inventory) × Candidates :=
  match rows[b.scope lib]? with
  | none =>
    (.ok (b.scope lib, ∅), rows.insert (b.scope lib)
      { binding := b.text, expected := encodeInventory expected, verified := encodeInventory ∅,
        totalFiles := expected.size, totalBytes := totalBytes expected,
        verifiedFiles := 0, verifiedBytes := 0, complete := 0 })
  | some row => ((checkRow row b expected).map (b.scope lib, ·), rows)

/-- `VerificationStore.mark_file`. -/
def markFile (scope name : String) (value : ℕ × String) (rows : Candidates) :
    Except Exc Unit × Candidates :=
  match rows[scope]? with
  | none => (.error ⟨.other, "'NoneType' object is not subscriptable"⟩, rows)
  | some row =>
    match (loads row.expected).bind inventoryOfJson, (loads row.verified).bind inventoryOfJson with
    | some expected, some verified =>
      if expected[name]? ≠ some value then
        (.error (.valueError "payload_checkpoint_file_mismatch"), rows)
      else
        let verified := verified.insert name value
        (.ok (), rows.insert scope
          { row with verified := encodeInventory verified, verifiedFiles := verified.size,
                     verifiedBytes := totalBytes verified })
    | _, _ => (.error (.valueError ""), rows)

/-- `VerificationStore.mark_complete`: an update with its condition in the
`WHERE` clause. -/
def markComplete (scope : String) (rows : Candidates) : Except Exc Unit × Candidates :=
  match rows[scope]? with
  | none => (.error (.valueError "payload_checkpoint_incomplete"), rows)
  | some row =>
    if row.verifiedFiles = row.totalFiles ∧ row.verifiedBytes = row.totalBytes then
      (.ok (), rows.insert scope { row with complete := 1 })
    else (.error (.valueError "payload_checkpoint_incomplete"), rows)

/-! ### Checkpoints -/

/-- What a row stands for. -/
structure Checkpoint where
  binding : Binding
  expected : Inventory
  verified : Inventory
  complete : Bool
  within : Dict.Within verified expected
  all_of_complete : complete = true → verified = expected

namespace Checkpoint

/-- The row of a checkpoint. -/
def row (c : Checkpoint) : Candidate where
  binding := c.binding.text
  expected := encodeInventory c.expected
  verified := encodeInventory c.verified
  totalFiles := c.expected.size
  totalBytes := KaggleRelay.totalBytes c.expected
  verifiedFiles := c.verified.size
  verifiedBytes := KaggleRelay.totalBytes c.verified
  complete := if c.complete then 1 else 0

/-- Nothing verified yet. -/
def start (b : Binding) (expected : Inventory) : Checkpoint where
  binding := b
  expected := expected
  verified := ∅
  complete := false
  within := Dict.within_empty expected
  all_of_complete := nofun

/-- One more expected file verified. -/
def mark (c : Checkpoint) (name : String) (value : ℕ × String)
    (h : c.expected[name]? = some value) : Checkpoint where
  binding := c.binding
  expected := c.expected
  verified := c.verified.insert name value
  complete := c.complete
  within := c.within.insert h
  all_of_complete hc := by
    have hall := c.all_of_complete hc
    refine Std.ExtTreeMap.ext_getElem? fun k => ?_
    rw [Std.ExtTreeMap.getElem?_insert, hall]
    split
    · next heq => rw [← Std.LawfulEqCmp.eq_of_compare heq, h]
    · rfl

/-- Every expected file verified, and said so. -/
def finish (c : Checkpoint) (h : c.verified = c.expected) : Checkpoint where
  binding := c.binding
  expected := c.expected
  verified := c.verified
  complete := true
  within := c.within
  all_of_complete _ := h

end Checkpoint

/-- `load` accepts the row of a checkpoint under its own binding and inventory
and returns what it has verified. -/
theorem load_row {c : Checkpoint} {rows : Candidates}
    (h : rows[c.binding.scope lib]? = some c.row) :
    load lib c.binding c.expected rows = (.ok (c.binding.scope lib, c.verified), rows) := by
  have hwithin : c.verified.toList.any (fun item => c.expected[item.1]? != some item.2) = false := by
    rw [List.any_eq_false]
    intro item hitem
    have := c.within item.1 item.2 (Std.ExtTreeMap.mem_toList_iff_getElem?_eq_some.mp hitem)
    simp [this]
  have hcomplete : ¬((if c.complete then 1 else 0) ≠ 0 ∧ c.verified.size ≠ c.expected.size) := by
    rintro ⟨hc, hs⟩
    rw [c.all_of_complete (by simpa using hc)] at hs
    exact hs rfl
  have hflag : ¬(if c.complete then 1 else 0) ∉ [0, 1] := by
    cases c.complete <;> simp
  have hrow : checkRow c.row c.binding c.expected = .ok c.verified := by
    simp only [checkRow, Checkpoint.row, loads_encodeInventory, inventoryOfJson_inventoryJson,
      hwithin, ne_eq, not_true_eq_false, or_self, if_false, Bool.false_eq_true, hflag, false_or]
    rw [if_neg hcomplete]
  simp only [load, h, hrow]
  rfl

/-- Under any other binding or inventory of the same scope `load` refuses. -/
theorem load_row_of_ne {c : Checkpoint} {b : Binding} {expected : Inventory} {rows : Candidates}
    (h : rows[b.scope lib]? = some c.row) (hne : b ≠ c.binding ∨ expected ≠ c.expected) :
    load lib b expected rows =
      (.error (.valueError "payload_checkpoint_scope_or_inventory_mismatch"), rows) := by
  have hdiff : c.row.binding ≠ b.text ∨ c.row.expected ≠ encodeInventory expected := by
    rcases hne with hb | he
    · exact Or.inl fun heq => hb (Binding.text_injective heq).symm
    · exact Or.inr fun heq => he (encodeInventory_injective heq).symm
  simp only [load, h, checkRow, if_pos hdiff]
  rfl

/-- The first `load` of a scope starts its checkpoint. -/
theorem load_none {b : Binding} {expected : Inventory} {rows : Candidates}
    (h : rows[b.scope lib]? = none) :
    load lib b expected rows =
      (.ok (b.scope lib, ∅), rows.insert (b.scope lib) (Checkpoint.start b expected).row) := by
  simp only [load, h]
  rfl

/-- `mark_file` on the row of a checkpoint marks an expected file, and refuses
anything else. -/
theorem markFile_row {c : Checkpoint} {scope name : String} {value : ℕ × String}
    {rows : Candidates} (h : rows[scope]? = some c.row) :
    markFile scope name value rows =
      if hv : c.expected[name]? = some value then
        (.ok (), rows.insert scope (c.mark name value hv).row)
      else (.error (.valueError "payload_checkpoint_file_mismatch"), rows) := by
  simp only [markFile, h, Checkpoint.row, loads_encodeInventory, Option.bind_some,
    inventoryOfJson_inventoryJson]
  by_cases hv : c.expected[name]? = some value
  · rw [if_neg (by simp [hv]), dif_pos hv]
    rfl
  · rw [if_pos hv, dif_neg hv]

/-- `mark_complete` on the row of a checkpoint finishes it exactly when every
expected file is verified. -/
theorem markComplete_row {c : Checkpoint} {scope : String} {rows : Candidates}
    (h : rows[scope]? = some c.row) :
    markComplete scope rows =
      if hv : c.verified = c.expected then (.ok (), rows.insert scope (c.finish hv).row)
      else (.error (.valueError "payload_checkpoint_incomplete"), rows) := by
  simp only [markComplete, h, Checkpoint.row]
  by_cases hv : c.verified = c.expected
  · rw [if_pos (by simp [hv]), dif_pos hv]
    rfl
  · have hs : ¬(c.verified.size = c.expected.size ∧
        KaggleRelay.totalBytes c.verified = KaggleRelay.totalBytes c.expected) :=
      fun hs => hv (c.within.eq_of_size hs.1)
    rw [if_neg hs, dif_neg hv]

end KaggleRelay
