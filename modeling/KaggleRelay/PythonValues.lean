/-
JSON documents as the Python values that `json.loads` makes of them.

Checks of a document subscript it, call `get`, iterate, and compare values;
what has the wrong type raises.

* `item`, `get`, `iter`, `add` — the operations;
* `pyEq` — `==`: numbers by their value, objects whatever the order of their
  fields;
* `canonicalHash` — the hash of the canonical text of a value;
* `pyEq_str`, `pyEq_int` — what is equal to a text or an integer.
-/
import Mathlib.Algebra.Order.Field.Rat
import Mathlib.Data.List.Sort
import KaggleRelay.KernelMetadata

namespace KaggleRelay

open JsonText

/-- `KeyError(key)`. -/
def Exc.keyError (key : String) : Exc := ⟨.other, "'" ++ key ++ "'"⟩

/-- `AttributeError` of a value without `get`. -/
def Exc.noGet : Exc := ⟨.other, "object has no attribute 'get'"⟩

/-- How documents are read. -/
structure Reader where
  /-- `json.loads`, with the hooks for duplicate keys and constants; `none`
  where it raises. -/
  loads : List UInt8 → Option Json
  /-- The value of a float with this representation, if it is finite. -/
  float : String → Option ℚ

/-! ### Checks -/

/-- `if not c: raise ValueError(message)`. -/
def require (c : Prop) [Decidable c] (message : String) : Except Exc Unit :=
  if c then .ok () else .error (.valueError message)

/-- The value, where there is one. -/
def orError {α : Type} (x : Option α) (e : Exc) : Except Exc α := x.elim (.error e) .ok

theorem ok_bind {α β : Type} {x : Except Exc α} {f : α → Except Exc β} {b : β} :
    (x >>= f) = .ok b ↔ ∃ a, x = .ok a ∧ f a = .ok b := by
  cases x with
  | error e => exact ⟨fun h => (by cases h), fun ⟨_, h, _⟩ => (by cases h)⟩
  | ok a => exact ⟨fun h => ⟨a, rfl, h⟩, fun ⟨_, ha, h⟩ => Except.ok.inj ha ▸ h⟩

theorem ok_pure {α : Type} {a b : α} : (pure a : Except Exc α) = .ok b ↔ a = b :=
  ⟨Except.ok.inj, congrArg _⟩

theorem ok_require {c : Prop} [Decidable c] {message : String} {u : Unit} :
    require c message = .ok u ↔ c := by
  by_cases hc : c
  · rw [require, if_pos hc]
    exact ⟨fun _ => hc, fun _ => rfl⟩
  · rw [require, if_neg hc]
    exact ⟨fun h => (by cases h), fun h => (hc h).elim⟩

theorem ok_orError {α : Type} {x : Option α} {e : Exc} {a : α} :
    orError x e = .ok a ↔ x = some a := by
  cases x with
  | none => exact ⟨fun h => (by cases h), fun h => (by cases h)⟩
  | some b => exact ⟨fun h => congrArg some (Except.ok.inj h), fun h => congrArg _ (Option.some.inj h)⟩

end KaggleRelay

/-! ### Operations -/

namespace JsonText.Json

open KaggleRelay

/-- A value that is to be in a set. -/
def hashed : Json → Except Exc Json
  | .arr _ => .error (.typeError "unhashable type: 'list'")
  | .obj _ => .error (.typeError "unhashable type: 'dict'")
  | x => .ok x

/-- `value[key]`. -/
def item (value : Json) (key : String) : Except Exc Json :=
  match value with
  | .obj fields =>
    match getField fields key with
    | some x => .ok x
    | none => .error (.keyError key)
  | _ => .error (.typeError "indices must be integers")

/-- `value.get(key)`. -/
def get (value : Json) (key : String) : Except Exc Json :=
  match value with
  | .obj fields => .ok ((getField fields key).getD .null)
  | _ => .error .noGet

/-- `value.get(key, {})`. -/
def getOrEmpty (value : Json) (key : String) : Except Exc Json :=
  match value with
  | .obj fields => .ok ((getField fields key).getD (.obj []))
  | _ => .error .noGet

/-- `value.get(key, [])`. -/
def getOrList (value : Json) (key : String) : Except Exc Json :=
  match value with
  | .obj fields => .ok ((getField fields key).getD (.arr []))
  | _ => .error .noGet

/-- What `for x in value` goes through. -/
def iter : Json → Except Exc (List Json)
  | .arr items => .ok items
  | .obj fields => .ok (fields.map fun field => .str field.1)
  | .str s => .ok (s.toList.map fun c => .str (String.ofList [c]))
  | _ => .error (.typeError "object is not iterable")

/-- A list, where `+` needs one. -/
def list : Json → Except Exc (List Json)
  | .arr items => .ok items
  | _ => .error (.typeError "can only concatenate list to list")

/-- `value == text`. -/
def isStr (value : Json) (text : String) : Bool :=
  match value with
  | .str s => s == text
  | _ => false

/-- A text, where `+` needs one. -/
def text : Json → Except Exc String
  | .str s => .ok s
  | _ => .error (.typeError "can only concatenate str to str")

end JsonText.Json

namespace KaggleRelay.Reader

open JsonText

variable (r : Reader)

/-- The value of a number; an infinite one by its representation. -/
def number : Json → Option (ℚ ⊕ String)
  | .int z => some (.inl z)
  | .bool b => some (.inl (if b then 1 else 0))
  | .float literal => some (match r.float literal with
    | some q => .inl q
    | none => .inr literal)
  | _ => none

/-- A number that is finite. -/
def finiteNumber (value : Json) : Option ℚ := (r.number value).bind Sum.getLeft?

mutual

/-- `a == b`. -/
def pyEq : Json → Json → Bool
  | .null, .null => true
  | .str a, .str b => a == b
  | .arr xs, .arr ys => pyEqItems xs ys
  | .obj xs, .obj ys => xs.length == ys.length && pyEqFields xs ys
  | .int z, b => decide (r.number b = some (.inl z))
  | .bool a, b => decide (r.number b = some (.inl (if a then 1 else 0)))
  | .float literal, b => decide (r.number b = r.number (.float literal))
  | _, _ => false

def pyEqItems : List Json → List Json → Bool
  | [], [] => true
  | x :: xs, y :: ys => pyEq x y && pyEqItems xs ys
  | _, _ => false

def pyEqFields : List (String × Json) → List (String × Json) → Bool
  | [], _ => true
  | (key, x) :: xs, ys => (ys.lookup key).any (pyEq x) && pyEqFields xs ys

end

/-- `bool(value)`. -/
def truthy : Json → Bool
  | .null => false
  | .str s => s != ""
  | .arr items => !items.isEmpty
  | .obj fields => !fields.isEmpty
  | .int z => z != 0
  | .bool b => b
  | .float literal => decide (r.float literal ≠ some 0)

/-- `math.isfinite(value)` of an integer or a float, with the integers that are
too large for a float; other types fail the check. -/
def isFinite : Json → Except Exc Bool
  | .int z =>
    if z.natAbs < 2 ^ 1024 - 2 ^ 970 then .ok true
    else .error (.typeError "int too large to convert to float")
  | .float literal => .ok (r.float literal).isSome
  | _ => .ok false

mutual

/-- The value with the fields of every object in the order of their names. -/
def sortKeys : Json → Json
  | .arr items => .arr (sortItems items)
  | .obj fields => .obj ((sortFields fields).insertionSort fun a b => a.1 ≤ b.1)
  | x => x

def sortItems : List Json → List Json
  | [] => []
  | x :: xs => sortKeys x :: sortItems xs

def sortFields : List (String × Json) → List (String × Json)
  | [] => []
  | (key, x) :: xs => (key, sortKeys x) :: sortFields xs

end

mutual

/-- No number of the value is infinite. -/
def finite : Json → Bool
  | .float literal => (r.float literal).isSome
  | .arr items => finiteItems items
  | .obj fields => finiteFields fields
  | _ => true

def finiteItems : List Json → Bool
  | [] => true
  | x :: xs => finite x && finiteItems xs

def finiteFields : List (String × Json) → Bool
  | [] => true
  | (_, x) :: xs => finite x && finiteFields xs

end

/-- `canonical_hash`. -/
def canonicalHash (lib : Library) (value : Json) : Except Exc String :=
  if r.finite value then .ok (lib.sha256Text (dumps .compact (sortKeys value)))
  else .error (.valueError "Out of range float values are not JSON compliant")

variable {r}

theorem pyEq_str {s : String} {value : Json} (h : r.pyEq (.str s) value = true) :
    value = .str s := by
  cases value with
  | str t =>
    rw [pyEq] at h
    rw [eq_of_beq h]
  | _ =>
    rw [pyEq] at h
    all_goals cases h

theorem pyEq_int {z : ℤ} {value : Json} (h : r.pyEq (.int z) value = true) :
    r.number value = some (.inl z) := by
  cases value <;> exact of_decide_eq_true h

end KaggleRelay.Reader
