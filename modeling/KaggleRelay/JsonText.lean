/-
JSON texts as Python's `json` module writes and reads them.

* `dumps` — `json.dumps` with `ensure_ascii` on, for any pair of separators;
* `loads` — `json.loads`; a number with a fraction or an exponent is kept as
  its literal, and a lone surrogate escape, which no Lean string holds, is
  refused;
* `loads_dumps` — reading back what was written, for every value without such
  literals;
* `dumps_injective` — two such values with one text are one value.

Everything runs on lists of characters.  Braces are written by code point.
-/
import KaggleRelay.Text

namespace JsonText

/-- A JSON value.  The fields of an object keep their order. -/
inductive Json where
  | null
  | bool (b : Bool)
  | int (z : ℤ)
  | float (literal : String)
  | str (s : String)
  | arr (items : List Json)
  | obj (fields : List (String × Json))

/-- The separators: those of `json.dumps(value)`, and those of
`json.dumps(value, separators=(",", ":"))`. -/
inductive Style where
  | spaced | compact

/-- What follows a comma or a colon. -/
def Style.gap : Style → List Char
  | .spaced => [' ']
  | .compact => []

def openBrace : Char := Char.ofNat 123

def closeBrace : Char := Char.ofNat 125

/-! ### Equality -/

mutual

def same : Json → Json → Bool
  | .null, .null => true
  | .bool a, .bool b => a == b
  | .int a, .int b => decide (a = b)
  | .float a, .float b => decide (a = b)
  | .str a, .str b => decide (a = b)
  | .arr xs, .arr ys => sameItems xs ys
  | .obj xs, .obj ys => sameFields xs ys
  | _, _ => false

def sameItems : List Json → List Json → Bool
  | [], [] => true
  | x :: xs, y :: ys => same x y && sameItems xs ys
  | _, _ => false

def sameFields : List (String × Json) → List (String × Json) → Bool
  | [], [] => true
  | (k, x) :: xs, (l, y) :: ys => decide (k = l) && same x y && sameFields xs ys
  | _, _ => false

end

mutual

theorem same_iff : ∀ x y : Json, same x y = true ↔ x = y
  | .null, .null => ⟨fun _ => rfl, fun _ => rfl⟩
  | .bool a, .bool b => by rw [same, beq_iff_eq, Json.bool.injEq]
  | .int a, .int b => by rw [same, decide_eq_true_iff, Json.int.injEq]
  | .float a, .float b => by rw [same, decide_eq_true_iff, Json.float.injEq]
  | .str a, .str b => by rw [same, decide_eq_true_iff, Json.str.injEq]
  | .arr xs, .arr ys => by rw [same, sameItems_iff xs ys, Json.arr.injEq]
  | .obj xs, .obj ys => by rw [same, sameFields_iff xs ys, Json.obj.injEq]
  | .null, .bool _ | .null, .int _ | .null, .float _ | .null, .str _ | .null, .arr _ | .null, .obj _
  | .bool _, .null | .bool _, .int _ | .bool _, .float _ | .bool _, .str _ | .bool _, .arr _
  | .bool _, .obj _ | .int _, .null | .int _, .bool _ | .int _, .float _ | .int _, .str _
  | .int _, .arr _ | .int _, .obj _ | .float _, .null | .float _, .bool _ | .float _, .int _
  | .float _, .str _ | .float _, .arr _ | .float _, .obj _ | .str _, .null | .str _, .bool _
  | .str _, .int _ | .str _, .float _ | .str _, .arr _ | .str _, .obj _ | .arr _, .null
  | .arr _, .bool _ | .arr _, .int _ | .arr _, .float _ | .arr _, .str _ | .arr _, .obj _
  | .obj _, .null | .obj _, .bool _ | .obj _, .int _ | .obj _, .float _ | .obj _, .str _
  | .obj _, .arr _ => by
    constructor <;> intro h <;> cases h

theorem sameItems_iff : ∀ xs ys : List Json, sameItems xs ys = true ↔ xs = ys
  | [], [] => ⟨fun _ => rfl, fun _ => rfl⟩
  | x :: xs, y :: ys => by
    rw [sameItems, Bool.and_eq_true, same_iff x y, sameItems_iff xs ys, List.cons.injEq]
  | [], _ :: _ | _ :: _, [] => by
    constructor <;> intro h <;> cases h

theorem sameFields_iff : ∀ xs ys : List (String × Json), sameFields xs ys = true ↔ xs = ys
  | [], [] => ⟨fun _ => rfl, fun _ => rfl⟩
  | (k, x) :: xs, (l, y) :: ys => by
    rw [sameFields, Bool.and_eq_true, Bool.and_eq_true, decide_eq_true_iff, same_iff x y,
      sameFields_iff xs ys, List.cons.injEq, Prod.mk.injEq]
  | [], _ :: _ | _ :: _, [] => by
    constructor <;> intro h <;> cases h

end

instance : DecidableEq Json := fun x y => decidable_of_iff _ (same_iff x y)

/-! ### Writing -/

/-- A hexadecimal digit below 16. -/
def hexDigit (n : ℕ) : Char :=
  if n < 10 then Char.ofNat (48 + n) else Char.ofNat (87 + n)

/-- Four hexadecimal digits. -/
def hexDigits (n : ℕ) : List Char :=
  [hexDigit (n / 4096 % 16), hexDigit (n / 256 % 16), hexDigit (n / 16 % 16), hexDigit (n % 16)]

/-- The escape of one UTF-16 code unit. -/
def unicodeEscape (n : ℕ) : List Char := '\\' :: 'u' :: hexDigits n

/-- One character of a string literal: short escapes, printable ASCII as it
is, everything else as one or two UTF-16 escapes. -/
def escapeChar (c : Char) : List Char :=
  if c = '\\' then ['\\', '\\']
  else if c = '"' then ['\\', '"']
  else if c = '\n' then ['\\', 'n']
  else if c = '\r' then ['\\', 'r']
  else if c = '\t' then ['\\', 't']
  else if c.toNat = 12 then ['\\', 'f']
  else if c.toNat = 8 then ['\\', 'b']
  else if 32 ≤ c.toNat ∧ c.toNat ≤ 126 then [c]
  else if c.toNat < 0x10000 then unicodeEscape c.toNat
  else unicodeEscape (0xD800 + (c.toNat - 0x10000) / 0x400) ++
    unicodeEscape (0xDC00 + (c.toNat - 0x10000) % 0x400)

/-- A string literal. -/
def quote (s : String) : List Char := '"' :: (s.toList.flatMap escapeChar ++ ['"'])

/-- `int.__repr__`. -/
def intChars : ℤ → List Char
  | .ofNat n => Nat.toDigits 10 n
  | .negSucc n => '-' :: Nat.toDigits 10 (n + 1)

/-- `str(z)` of an integer. -/
def intText (z : ℤ) : String := String.ofList (intChars z)

mutual

/-- The text of a value. -/
def dump (st : Style) : Json → List Char
  | .null => ['n', 'u', 'l', 'l']
  | .bool true => ['t', 'r', 'u', 'e']
  | .bool false => ['f', 'a', 'l', 's', 'e']
  | .int z => intChars z
  | .float literal => literal.toList
  | .str s => quote s
  | .arr items => '[' :: (dumpItems st items ++ [']'])
  | .obj fields => openBrace :: (dumpFields st fields ++ [closeBrace])

/-- The items of an array, separated. -/
def dumpItems (st : Style) : List Json → List Char
  | [] => []
  | x :: xs => dump st x ++ dumpMoreItems st xs

/-- The items after the first. -/
def dumpMoreItems (st : Style) : List Json → List Char
  | [] => []
  | x :: xs => ',' :: st.gap ++ dump st x ++ dumpMoreItems st xs

/-- The fields of an object, separated. -/
def dumpFields (st : Style) : List (String × Json) → List Char
  | [] => []
  | (k, x) :: fs => quote k ++ ':' :: st.gap ++ dump st x ++ dumpMoreFields st fs

/-- The fields after the first. -/
def dumpMoreFields (st : Style) : List (String × Json) → List Char
  | [] => []
  | (k, x) :: fs => ',' :: st.gap ++ quote k ++ ':' :: st.gap ++ dump st x ++ dumpMoreFields st fs

end

/-- `json.dumps`. -/
def dumps (st : Style) (x : Json) : String := String.ofList (dump st x)

/-! ### Reading -/

/-- JSON white space. -/
def isBlank (c : Char) : Bool := c == ' ' || c == '\t' || c == '\n' || c == '\r'

def skipBlanks (l : List Char) : List Char := l.dropWhile isBlank

def hexValue (c : Char) : Option ℕ :=
  if 48 ≤ c.toNat ∧ c.toNat ≤ 57 then some (c.toNat - 48)
  else if 97 ≤ c.toNat ∧ c.toNat ≤ 102 then some (c.toNat - 87)
  else if 65 ≤ c.toNat ∧ c.toNat ≤ 70 then some (c.toNat - 55)
  else none

/-- One UTF-16 code unit in hexadecimal. -/
def codeUnit : List Char → Option (ℕ × List Char)
  | a :: b :: c :: d :: rest => do
    let a ← hexValue a
    let b ← hexValue b
    let c ← hexValue c
    let d ← hexValue d
    some (a * 4096 + b * 256 + c * 16 + d, rest)
  | _ => none

/-- What follows `\u`: one code unit, or two that form a surrogate pair. -/
def unicodeChar (l : List Char) : Option (Char × List Char) := do
  let (u, rest) ← codeUnit l
  if u < 0xD800 ∨ 0xE000 ≤ u then some (Char.ofNat u, rest)
  else if u < 0xDC00 then
    match rest with
    | '\\' :: 'u' :: rest =>
      let (v, rest) ← codeUnit rest
      if 0xDC00 ≤ v ∧ v < 0xE000 then
        some (Char.ofNat (0x10000 + (u - 0xD800) * 0x400 + (v - 0xDC00)), rest)
      else none
    | _ => none
  else none

/-- What follows a backslash. -/
def escape : List Char → Option (Char × List Char)
  | [] => none
  | e :: rest =>
    if e = 'u' then unicodeChar rest
    else if e = '"' then some ('"', rest)
    else if e = '\\' then some ('\\', rest)
    else if e = '/' then some ('/', rest)
    else if e = 'b' then some (Char.ofNat 8, rest)
    else if e = 'f' then some (Char.ofNat 12, rest)
    else if e = 'n' then some ('\n', rest)
    else if e = 'r' then some ('\r', rest)
    else if e = 't' then some ('\t', rest)
    else none

/-- A string literal after its opening quote. -/
def stringBody : ℕ → List Char → Option (List Char × List Char)
  | 0, _ => none
  | _ + 1, [] => none
  | n + 1, c :: rest =>
    if c = '"' then some ([], rest)
    else if c = '\\' then do
      let (d, rest) ← escape rest
      let (s, rest) ← stringBody n rest
      some (d :: s, rest)
    else if c.toNat < 32 then none
    else do
      let (s, rest) ← stringBody n rest
      some (c :: s, rest)

/-- A fraction, or nothing where none is there. -/
def fraction : List Char → List Char × List Char
  | '.' :: rest =>
    let ds := rest.takeWhile Char.isDigit
    if ds.isEmpty then ([], '.' :: rest) else ('.' :: ds, rest.dropWhile Char.isDigit)
  | rest => ([], rest)

/-- An exponent, or nothing where none is there. -/
def exponent : List Char → List Char × List Char
  | e :: rest =>
    if e = 'e' ∨ e = 'E' then
      let (sign, body) := match rest with
        | c :: r => if c = '+' ∨ c = '-' then ([c], r) else ([], rest)
        | [] => ([], rest)
      let ds := body.takeWhile Char.isDigit
      if ds.isEmpty then ([], e :: rest) else (e :: sign ++ ds, body.dropWhile Char.isDigit)
    else ([], e :: rest)
  | [] => ([], [])

/-- A number without its sign; a leading zero stands alone. -/
def number (negative : Bool) (l : List Char) : Option (Json × List Char) :=
  let ds := l.takeWhile Char.isDigit
  match ds with
  | [] => none
  | d :: more =>
    if d = '0' ∧ more ≠ [] then none
    else
      let (f, rest) := fraction (l.dropWhile Char.isDigit)
      let (e, rest) := exponent rest
      if f.isEmpty ∧ e.isEmpty then
        let n : ℤ := Nat.ofDigitChars 10 ds 0
        some (.int (if negative then -n else n), rest)
      else some (.float (String.ofList ((if negative then ['-'] else []) ++ ds ++ f ++ e)), rest)

/-- A keyword or a number. -/
def scalar : List Char → Option (Json × List Char)
  | 'n' :: 'u' :: 'l' :: 'l' :: rest => some (.null, rest)
  | 't' :: 'r' :: 'u' :: 'e' :: rest => some (.bool true, rest)
  | 'f' :: 'a' :: 'l' :: 's' :: 'e' :: rest => some (.bool false, rest)
  | 'N' :: 'a' :: 'N' :: rest => some (.float "NaN", rest)
  | 'I' :: 'n' :: 'f' :: 'i' :: 'n' :: 'i' :: 't' :: 'y' :: rest => some (.float "Infinity", rest)
  | '-' :: 'I' :: 'n' :: 'f' :: 'i' :: 'n' :: 'i' :: 't' :: 'y' :: rest =>
    some (.float "-Infinity", rest)
  | '-' :: rest => number true rest
  | rest => number false rest

/-- Python's dict of a list of pairs: a later value replaces an earlier one in
its place. -/
def setField (fields : List (String × Json)) (k : String) (x : Json) : List (String × Json) :=
  if fields.any (·.1 == k) then fields.map fun f => if f.1 == k then (k, x) else f
  else fields ++ [(k, x)]

def dictOf (pairs : List (String × Json)) : List (String × Json) :=
  pairs.foldl (fun fields p => setField fields p.1 p.2) []

mutual

/-- A value that starts here. -/
def value : ℕ → List Char → Option (Json × List Char)
  | 0, _ => none
  | _ + 1, [] => none
  | n + 1, c :: rest =>
    if c = '"' then do
      let (s, rest) ← stringBody (rest.length + 1) rest
      some (.str (String.ofList s), rest)
    else if c = '[' then
      match skipBlanks rest with
      | [] => none
      | d :: r =>
        if d = ']' then some (.arr [], r)
        else do
          let (xs, r) ← items n (d :: r)
          some (.arr xs, r)
    else if c = openBrace then
      match skipBlanks rest with
      | [] => none
      | d :: r =>
        if d = closeBrace then some (.obj [], r)
        else do
          let (fs, r) ← fields n (d :: r)
          some (.obj (dictOf fs), r)
    else scalar (c :: rest)

/-- The items of an array up to its bracket. -/
def items : ℕ → List Char → Option (List Json × List Char)
  | 0, _ => none
  | n + 1, l => do
    let (x, rest) ← value n l
    match skipBlanks rest with
    | [] => none
    | c :: r =>
      if c = ']' then some ([x], r)
      else if c = ',' then do
        let (xs, r) ← items n (skipBlanks r)
        some (x :: xs, r)
      else none

/-- The fields of an object up to its brace. -/
def fields : ℕ → List Char → Option (List (String × Json) × List Char)
  | 0, _ => none
  | _ + 1, [] => none
  | n + 1, q :: l =>
    if q = '"' then do
      let (k, rest) ← stringBody (l.length + 1) l
      match skipBlanks rest with
      | [] => none
      | c :: r =>
        if c = ':' then do
          let (x, rest) ← value n (skipBlanks r)
          match skipBlanks rest with
          | [] => none
          | c :: r =>
            if c = closeBrace then some ([(String.ofList k, x)], r)
            else if c = ',' then do
              let (fs, r) ← fields n (skipBlanks r)
              some ((String.ofList k, x) :: fs, r)
            else none
        else none
    else none

end

/-- `json.loads`, `none` where it raises. -/
def loads (s : String) : Option Json :=
  match value (2 * s.toList.length + 2) (skipBlanks s.toList) with
  | some (x, rest) => if (skipBlanks rest).isEmpty then some x else none
  | none => none

/-! ### Reading back: strings -/

theorem hexValue_hexDigit : ∀ n < 16, hexValue (hexDigit n) = some n := by decide

theorem codeUnit_hexDigits {n : ℕ} (h : n < 65536) (rest : List Char) :
    codeUnit (hexDigits n ++ rest) = some (n, rest) := by
  have h1 := hexValue_hexDigit (n / 4096 % 16) (Nat.mod_lt _ (by decide))
  have h2 := hexValue_hexDigit (n / 256 % 16) (Nat.mod_lt _ (by decide))
  have h3 := hexValue_hexDigit (n / 16 % 16) (Nat.mod_lt _ (by decide))
  have h4 := hexValue_hexDigit (n % 16) (Nat.mod_lt _ (by decide))
  have hn : n / 4096 % 16 * 4096 + n / 256 % 16 * 256 + n / 16 % 16 * 16 + n % 16 = n := by omega
  simp only [hexDigits, List.cons_append, List.nil_append, codeUnit, h1, h2, h3, h4,
    Option.bind_eq_bind, Option.bind_some, hn]

/-- No character lies in the surrogate range. -/
theorem char_range (c : Char) : c.toNat < 0xD800 ∨ (0xE000 ≤ c.toNat ∧ c.toNat < 0x110000) := by
  have h := c.valid
  simp only [UInt32.isValidChar, Nat.isValidChar] at h
  have hc : c.toNat = c.val.toNat := rfl
  omega

/-- A code unit outside the surrogate range is its character. -/
theorem unicodeChar_unit {u : ℕ} (h : u < 65536) (hu : u < 0xD800 ∨ 0xE000 ≤ u)
    (rest : List Char) :
    unicodeChar (hexDigits u ++ rest) = some (Char.ofNat u, rest) := by
  simp only [unicodeChar, codeUnit_hexDigits h, Option.bind_eq_bind, Option.bind_some, if_pos hu]

/-- A surrogate pair is the character it stands for. -/
theorem unicodeChar_pair {u v : ℕ} (hu : 0xD800 ≤ u ∧ u < 0xDC00) (hv : 0xDC00 ≤ v ∧ v < 0xE000)
    (rest : List Char) :
    unicodeChar (hexDigits u ++ (unicodeEscape v ++ rest)) =
      some (Char.ofNat (0x10000 + (u - 0xD800) * 0x400 + (v - 0xDC00)), rest) := by
  have hn : ¬(u < 0xD800 ∨ 0xE000 ≤ u) := by omega
  have hu' : u < 65536 := by omega
  have hv' : v < 65536 := by omega
  simp only [unicodeChar, codeUnit_hexDigits hu', Option.bind_eq_bind, Option.bind_some, if_neg hn,
    if_pos hu.2, unicodeEscape, List.cons_append, codeUnit_hexDigits hv', if_pos hv]

/-- The two surrogates of a character beyond the first plane give it back. -/
theorem ofNat_surrogates {c : Char} (h : ¬ c.toNat < 0x10000) :
    Char.ofNat (0x10000 + (0xD800 + (c.toNat - 0x10000) / 0x400 - 0xD800) * 0x400 +
      (0xDC00 + (c.toNat - 0x10000) % 0x400 - 0xDC00)) = c := by
  have hsum : 0x10000 + (0xD800 + (c.toNat - 0x10000) / 0x400 - 0xD800) * 0x400 +
      (0xDC00 + (c.toNat - 0x10000) % 0x400 - 0xDC00) = c.toNat := by omega
  rw [hsum, Char.ofNat_toNat]

/-- The body of a literal is read one written character at a time. -/
theorem stringBody_escapeChar (n : ℕ) (c : Char) (rest : List Char) :
    stringBody (n + 1) (escapeChar c ++ rest) =
      (stringBody n rest).bind fun p => some (c :: p.1, p.2) := by
  have hesc : ∀ e d : Char, e ≠ '"' → escape (e :: rest) = some (d, rest) →
      stringBody (n + 1) (['\\', e] ++ rest) =
        (stringBody n rest).bind fun p => some (d :: p.1, p.2) := by
    intro e d _ h
    simp [stringBody, h]
  unfold escapeChar
  split_ifs with h1 h2 h3 h4 h5 h6 h7 h8 h9
  · subst h1; exact hesc '\\' '\\' (by decide) (by simp [escape])
  · subst h2; simp [stringBody, escape]
  · subst h3; exact hesc 'n' '\n' (by decide) (by simp [escape])
  · subst h4; exact hesc 'r' '\r' (by decide) (by simp [escape])
  · subst h5; exact hesc 't' '\t' (by decide) (by simp [escape])
  · have hc : c = Char.ofNat 12 := by rw [← h6, Char.ofNat_toNat]
    subst hc
    exact hesc 'f' _ (by decide) (by simp [escape])
  · have hc : c = Char.ofNat 8 := by rw [← h7, Char.ofNat_toNat]
    subst hc
    exact hesc 'b' _ (by decide) (by simp [escape])
  · have h32 : ¬ c.toNat < 32 := by omega
    simp [stringBody, h1, h2, h32]
  · have hr := char_range c
    have h := unicodeChar_unit h9 (by omega) rest
    rw [Char.ofNat_toNat] at h
    simp [stringBody, unicodeEscape, escape, h]
  · have hr := char_range c
    have h := unicodeChar_pair (u := 0xD800 + (c.toNat - 0x10000) / 0x400)
      (v := 0xDC00 + (c.toNat - 0x10000) % 0x400) (by omega) (by omega) rest
    rw [ofNat_surrogates h9] at h
    rw [List.append_assoc]
    generalize unicodeEscape (0xDC00 + (c.toNat - 0x10000) % 0x400) ++ rest = tail at h ⊢
    simp [stringBody, unicodeEscape, escape, h]

theorem stringBody_quote {s : List Char} {n : ℕ} (rest : List Char) (h : s.length < n) :
    stringBody n (s.flatMap escapeChar ++ '"' :: rest) = some (s, rest) := by
  induction s generalizing n with
  | nil =>
    obtain ⟨n, rfl⟩ := Nat.exists_eq_succ_of_ne_zero (Nat.ne_of_gt h)
    simp [stringBody]
  | cons c s ih =>
    obtain ⟨n, rfl⟩ := Nat.exists_eq_succ_of_ne_zero (Nat.ne_of_gt (Nat.zero_lt_of_lt h))
    rw [List.flatMap_cons, List.append_assoc, stringBody_escapeChar,
      ih (by simpa using h)]
    rfl

theorem length_le_flatMap_escapeChar (s : List Char) : s.length ≤ (s.flatMap escapeChar).length := by
  have hone : ∀ c, 1 ≤ (escapeChar c).length := by
    intro c
    unfold escapeChar unicodeEscape
    split_ifs <;> simp
  induction s with
  | nil => simp
  | cons c s ih =>
    have := hone c
    simp only [List.flatMap_cons, List.length_cons, List.length_append]
    omega

/-- A written literal is read back, whatever follows it. -/
theorem stringBody_literal (s : String) (rest : List Char) :
    stringBody ((s.toList.flatMap escapeChar ++ '"' :: rest).length + 1)
      (s.toList.flatMap escapeChar ++ '"' :: rest) = some (s.toList, rest) := by
  refine stringBody_quote rest ?_
  have := length_le_flatMap_escapeChar s.toList
  simp only [List.length_append, List.length_cons]
  omega

/-! ### Reading back: numbers -/

/-- What may follow a number: nothing that would continue it. -/
def Ends (rest : List Char) : Prop :=
  ∀ c t, rest = c :: t → c.isDigit = false ∧ c ≠ '.' ∧ c ≠ 'e' ∧ c ≠ 'E'

theorem ends_nil : Ends [] := by
  intro c t h
  cases h

theorem ends_cons {c : Char} {t : List Char}
    (h : c.isDigit = false ∧ c ≠ '.' ∧ c ≠ 'e' ∧ c ≠ 'E') : Ends (c :: t) := by
  intro d u hd
  cases hd
  exact h

theorem isDigit_toDigits {n : ℕ} {c : Char} (h : c ∈ Nat.toDigits 10 n) : c.isDigit = true :=
  Nat.isDigit_of_mem_toDigits (by decide) (by decide) h

theorem toDigits_head (n : ℕ) : ∃ d t, Nat.toDigits 10 n = d :: t ∧ (d = '0' → t = []) := by
  induction n using Nat.strong_induction_on with
  | _ n ih =>
    rcases Nat.lt_or_ge n 10 with h | h
    · exact ⟨n.digitChar, [], Nat.toDigits_of_lt_base h, fun _ => rfl⟩
    · obtain ⟨d, t, hdt, hz⟩ := ih (n / 10) (by omega)
      refine ⟨d, t ++ [(n % 10).digitChar], ?_, ?_⟩
      · rw [Nat.toDigits_of_base_le (by decide) h, hdt]
        rfl
      · intro hd
        have hval : Nat.ofDigitChars 10 (Nat.toDigits 10 (n / 10)) 0 = n / 10 :=
          Nat.ofDigitChars_ten_toDigits
        rw [hdt, hz hd, hd] at hval
        have : Nat.ofDigitChars 10 ['0'] 0 = 0 := by decide
        omega

theorem takeWhile_digits {ds rest : List Char} (hd : ∀ c ∈ ds, c.isDigit = true) (hr : Ends rest) :
    (ds ++ rest).takeWhile Char.isDigit = ds ∧ (ds ++ rest).dropWhile Char.isDigit = rest := by
  have htake : rest.takeWhile Char.isDigit = [] := by
    cases rest with
    | nil => rfl
    | cons c t => simp [(hr c t rfl).1]
  have hdrop : rest.dropWhile Char.isDigit = rest := by
    cases rest with
    | nil => rfl
    | cons c t => simp [(hr c t rfl).1]
  rw [List.takeWhile_append_of_pos hd, List.dropWhile_append_of_pos hd, htake, hdrop]
  exact ⟨List.append_nil ds, rfl⟩

theorem fraction_ends {rest : List Char} (h : Ends rest) : fraction rest = ([], rest) := by
  cases rest with
  | nil => rfl
  | cons c t =>
    have hc := (h c t rfl).2.1
    unfold fraction
    split
    · next heq => cases heq; exact absurd rfl hc
    · rfl

theorem exponent_ends {rest : List Char} (h : Ends rest) : exponent rest = ([], rest) := by
  cases rest with
  | nil => rfl
  | cons c t =>
    have hc := (h c t rfl).2.2
    simp [exponent, hc.1, hc.2]

theorem number_toDigits (negative : Bool) (n : ℕ) {rest : List Char} (hr : Ends rest) :
    number negative (Nat.toDigits 10 n ++ rest) =
      some (.int (if negative then -(n : ℤ) else n), rest) := by
  have hdigits : ∀ c ∈ Nat.toDigits 10 n, c.isDigit = true := fun c hc => isDigit_toDigits hc
  obtain ⟨htake, hdrop⟩ := takeWhile_digits hdigits hr
  obtain ⟨d, t, hdt, hz⟩ := toDigits_head n
  have hlead : ¬(d = '0' ∧ t ≠ []) := fun h => h.2 (hz h.1)
  have hval : Nat.ofDigitChars 10 (Nat.toDigits 10 n) 0 = n := Nat.ofDigitChars_ten_toDigits
  rw [hdt] at htake hdrop hval
  simp only [hdt, number, htake, hdrop, fraction_ends hr, exponent_ends hr, if_neg hlead, hval]
  rfl

theorem scalar_digit {d : Char} {t : List Char} (h : d.isDigit = true) :
    scalar (d :: t) = number false (d :: t) := by
  unfold scalar
  split
  all_goals first
    | rfl
    | (next heq => cases heq; exact absurd h (by decide))

theorem scalar_minus {d : Char} {t : List Char} (h : d.isDigit = true) :
    scalar ('-' :: d :: t) = number true (d :: t) := by
  unfold scalar
  split
  all_goals first
    | (next heq => cases heq; done)
    | (next heq => cases heq; exact absurd h (by decide))
    | (next heq => cases heq; rfl)
    | (next hne => exact absurd rfl (hne _))

theorem scalar_intChars (z : ℤ) {rest : List Char} (hr : Ends rest) :
    scalar (intChars z ++ rest) = some (.int z, rest) := by
  cases z with
  | ofNat n =>
    obtain ⟨d, t, hdt, _⟩ := toDigits_head n
    have hd : d.isDigit = true := isDigit_toDigits (n := n) (by simp [hdt])
    have h := number_toDigits false n hr
    rw [hdt, List.cons_append] at h
    rw [intChars, hdt, List.cons_append, scalar_digit hd, h]
    rfl
  | negSucc n =>
    obtain ⟨d, t, hdt, _⟩ := toDigits_head (n + 1)
    have hd : d.isDigit = true := isDigit_toDigits (n := n + 1) (by simp [hdt])
    have h := number_toDigits true (n + 1) hr
    rw [hdt, List.cons_append] at h
    rw [intChars, hdt, List.cons_append, List.cons_append, scalar_minus hd, h]
    rfl

/-! ### Reading back: values -/

mutual

/-- Values without number literals whose objects have distinct keys. -/
def Plain : Json → Prop
  | .float _ => False
  | .arr xs => PlainItems xs
  | .obj fs => (fs.map Prod.fst).Nodup ∧ PlainFields fs
  | _ => True

def PlainItems : List Json → Prop
  | [] => True
  | x :: xs => Plain x ∧ PlainItems xs

def PlainFields : List (String × Json) → Prop
  | [] => True
  | (_, x) :: fs => Plain x ∧ PlainFields fs

end

mutual

/-- The number of nodes, which bounds the depth of the reader's recursion. -/
def size : Json → ℕ
  | .arr xs => 1 + sizeItems xs
  | .obj fs => 1 + sizeFields fs
  | _ => 1

def sizeItems : List Json → ℕ
  | [] => 0
  | x :: xs => 1 + size x + sizeItems xs

def sizeFields : List (String × Json) → ℕ
  | [] => 0
  | (_, x) :: fs => 1 + size x + sizeFields fs

end

theorem dictOf_nodup {fs : List (String × Json)} (h : (fs.map Prod.fst).Nodup) :
    dictOf fs = fs := by
  have hfold : ∀ (fs acc : List (String × Json)), ((acc ++ fs).map Prod.fst).Nodup →
      fs.foldl (fun fields p => setField fields p.1 p.2) acc = acc ++ fs := by
    intro fs
    induction fs with
    | nil => intro acc _; simp
    | cons f fs ih =>
      intro acc hacc
      have hf : acc.any (·.1 == f.1) = false := by
        simp only [List.map_append, List.map_cons, List.nodup_append, List.mem_map,
          List.mem_cons] at hacc
        rw [List.any_eq_false]
        intro g hg
        have := hacc.2.2 g.1 ⟨g, hg, rfl⟩ f.1 (Or.inl rfl)
        simpa using this
      rw [List.foldl_cons, setField, if_neg (by simp [hf]), ih (acc ++ [(f.1, f.2)]) (by simpa using hacc)]
      simp
  simpa [dictOf] using hfold fs [] (by simpa using h)

theorem skipBlanks_gap (st : Style) {c : Char} {l : List Char} (h : isBlank c = false) :
    skipBlanks (st.gap ++ c :: l) = c :: l := by
  have hc : List.dropWhile isBlank (c :: l) = c :: l := by simp [h]
  cases st
  · rw [Style.gap, skipBlanks, List.singleton_append, List.dropWhile_cons_of_pos (by decide), hc]
  · exact hc

theorem skipBlanks_cons {c : Char} {l : List Char} (h : isBlank c = false) :
    skipBlanks (c :: l) = c :: l := by
  simp [skipBlanks, h]

/-- A character that may open a value. -/
def opens (c : Char) : Bool :=
  c == '"' || c == '[' || c == openBrace || c == '-' || c == 'n' || c == 't' || c == 'f' ||
    c.isDigit

theorem opens_spec {c : Char} (h : opens c = true) :
    isBlank c = false ∧ c ≠ ']' ∧ c ≠ closeBrace := by
  refine ⟨?_, ?_, ?_⟩
  · cases hb : isBlank c with
    | false => rfl
    | true =>
      exfalso
      simp only [isBlank, Bool.or_eq_true, beq_iff_eq] at hb
      rcases hb with ((rfl | rfl) | rfl) | rfl <;> exact absurd h (by decide)
  · rintro rfl
    exact absurd h (by decide)
  · rintro rfl
    exact absurd h (by decide)

theorem opens_digit {c : Char} (h : c.isDigit = true) : opens c = true := by
  simp [opens, h]

/-- Every text opens with such a character. -/
theorem dump_opens (st : Style) {x : Json} (h : Plain x) :
    ∃ c t, dump st x = c :: t ∧ opens c = true := by
  cases x with
  | null => exact ⟨_, _, rfl, by decide⟩
  | bool b => cases b <;> exact ⟨_, _, rfl, by decide⟩
  | int z =>
    cases z with
    | ofNat n =>
      obtain ⟨d, t, hdt, _⟩ := toDigits_head n
      refine ⟨d, t, by rw [dump, intChars, hdt], opens_digit (isDigit_toDigits (n := n) ?_)⟩
      simp [hdt]
    | negSucc n => exact ⟨_, _, rfl, by decide⟩
  | float l => exact absurd h (by simp [Plain])
  | str s => exact ⟨_, _, rfl, by decide⟩
  | arr xs => exact ⟨_, _, rfl, by decide⟩
  | obj fs => exact ⟨_, _, rfl, by decide⟩

mutual

/-- The reader gives back a written value and leaves what follows it. -/
theorem value_dump (st : Style) : ∀ (x : Json) (n : ℕ) (rest : List Char), Plain x →
    size x ≤ n → Ends rest → value n (dump st x ++ rest) = some (x, rest)
  | .null, n, rest, _, hn, _ => by
    obtain ⟨n, rfl⟩ := Nat.exists_eq_add_of_le' hn
    rfl
  | .bool b, n, rest, _, hn, _ => by
    obtain ⟨n, rfl⟩ := Nat.exists_eq_add_of_le' hn
    cases b <;> rfl
  | .int z, n, rest, _, hn, hr => by
    obtain ⟨n, rfl⟩ := Nat.exists_eq_add_of_le' (show 1 ≤ n from hn)
    have hs := scalar_intChars z hr
    obtain ⟨c, t, hct, hc⟩ : ∃ c t, intChars z = c :: t ∧ (c = '-' ∨ c.isDigit = true) := by
      cases z with
      | ofNat m =>
        obtain ⟨d, t, hdt, _⟩ := toDigits_head m
        exact ⟨d, t, hdt, Or.inr (isDigit_toDigits (n := m) (by simp [hdt]))⟩
      | negSucc m => exact ⟨'-', _, rfl, Or.inl rfl⟩
    have h1 : c ≠ '"' := by rintro rfl; revert hc; decide
    have h2 : c ≠ '[' := by rintro rfl; revert hc; decide
    have h3 : c ≠ openBrace := by rintro rfl; revert hc; decide
    rw [hct, List.cons_append] at hs
    rw [dump, hct, List.cons_append, value, if_neg h1, if_neg h2, if_neg h3, hs]
  | .float l, n, rest, h, _, _ => absurd h (by simp [Plain])
  | .str s, n, rest, _, hn, _ => by
    obtain ⟨n, rfl⟩ := Nat.exists_eq_add_of_le' (show 1 ≤ n from hn)
    have hb := stringBody_literal s rest
    simp only [dump, quote, List.cons_append, List.append_assoc, List.nil_append]
    rw [value, if_pos rfl, hb]
    simp [String.ofList_toList]
  | .arr [], n, rest, _, hn, _ => by
    obtain ⟨n, rfl⟩ := Nat.exists_eq_add_of_le' (show 1 ≤ n from hn)
    rfl
  | .arr (x :: xs), n, rest, h, hn, _ => by
    rw [size] at hn
    obtain ⟨n, rfl⟩ := Nat.exists_eq_add_of_le' (Nat.le_trans (Nat.le_add_right 1 _) hn)
    rw [Plain] at h
    have hi := items_dump st x xs n rest h (by omega)
    obtain ⟨c, t, hct, hc⟩ := dump_opens st h.1
    obtain ⟨hblank, hclose, _⟩ := opens_spec hc
    rw [hct, List.cons_append] at hi
    simp only [dump, dumpItems, List.cons_append, List.append_assoc, List.nil_append, hct]
    rw [value, if_neg (by decide), if_pos rfl, skipBlanks_cons hblank]
    simp [hclose, hi]
  | .obj [], n, rest, _, hn, _ => by
    obtain ⟨n, rfl⟩ := Nat.exists_eq_add_of_le' (show 1 ≤ n from hn)
    rfl
  | .obj ((k, x) :: fs), n, rest, h, hn, _ => by
    rw [size] at hn
    obtain ⟨n, rfl⟩ := Nat.exists_eq_add_of_le' (Nat.le_trans (Nat.le_add_right 1 _) hn)
    rw [Plain] at h
    have hi := fields_dump st k x fs n rest h.2 (by omega)
    have hq : ('"' : Char) ≠ closeBrace := by decide
    rw [quote, List.cons_append] at hi
    simp only [dump, dumpFields, quote, List.cons_append, List.append_assoc, List.nil_append] at hi ⊢
    rw [value, if_neg (by decide), if_neg (by decide), if_pos rfl, skipBlanks_cons (by decide)]
    simp only [hq, hi, dictOf_nodup h.1, if_false, Option.bind_eq_bind, Option.bind_some]
termination_by x => sizeOf x

/-- The items of a written array are read back up to its bracket. -/
theorem items_dump (st : Style) : ∀ (x : Json) (xs : List Json) (n : ℕ) (rest : List Char),
    PlainItems (x :: xs) → sizeItems (x :: xs) ≤ n →
    items n (dump st x ++ (dumpMoreItems st xs ++ ']' :: rest)) = some (x :: xs, rest)
  | x, [], n, rest, h, hn => by
    rw [sizeItems] at hn
    rw [PlainItems] at h
    obtain ⟨n, rfl⟩ := Nat.exists_eq_add_of_le' (Nat.le_trans (by omega) hn : 1 ≤ n)
    have hv := value_dump st x n (']' :: rest) h.1 (by omega) (ends_cons (by decide))
    rw [dumpMoreItems, List.nil_append, items, hv]
    simp [skipBlanks_cons (show isBlank ']' = false by decide)]
  | x, y :: ys, n, rest, h, hn => by
    rw [sizeItems] at hn
    rw [PlainItems] at h
    obtain ⟨n, rfl⟩ := Nat.exists_eq_add_of_le' (Nat.le_trans (by omega) hn : 1 ≤ n)
    have hi := items_dump st y ys n rest h.2 (by omega)
    obtain ⟨c, t, hyt, hc⟩ := dump_opens st (PlainItems.eq_2 y ys ▸ h.2).1
    have hv := value_dump st x n (',' :: (st.gap ++ (dump st y ++ (dumpMoreItems st ys ++ ']' :: rest))))
      h.1 (by omega) (ends_cons (by decide))
    simp only [dumpMoreItems, List.cons_append, List.append_assoc]
    rw [items, hv]
    rw [hyt, List.cons_append] at hi ⊢
    simp [skipBlanks_cons (show isBlank ',' = false by decide), skipBlanks_gap st (opens_spec hc).1, hi]
termination_by x xs => sizeOf (x :: xs)

/-- The fields of a written object are read back up to its brace. -/
theorem fields_dump (st : Style) : ∀ (k : String) (x : Json) (fs : List (String × Json)) (n : ℕ)
    (rest : List Char), PlainFields ((k, x) :: fs) → sizeFields ((k, x) :: fs) ≤ n →
    fields n (quote k ++ (':' :: (st.gap ++ (dump st x ++
      (dumpMoreFields st fs ++ closeBrace :: rest))))) = some ((k, x) :: fs, rest)
  | k, x, [], n, rest, h, hn => by
    rw [sizeFields] at hn
    rw [PlainFields] at h
    obtain ⟨n, rfl⟩ := Nat.exists_eq_add_of_le' (Nat.le_trans (by omega) hn : 1 ≤ n)
    obtain ⟨c, t, hct, hc⟩ := dump_opens st h.1
    have hv := value_dump st x n (closeBrace :: rest) h.1 (by omega) (ends_cons (by decide))
    have hk := stringBody_literal k (':' :: (st.gap ++ (dump st x ++ closeBrace :: rest)))
    rw [hct, List.cons_append] at hv hk
    simp only [quote, dumpMoreFields, List.cons_append, List.append_assoc, List.nil_append, hct]
    rw [fields, if_pos rfl, hk]
    simp [skipBlanks_cons (show isBlank ':' = false by decide), skipBlanks_gap st (opens_spec hc).1,
      hv, skipBlanks_cons (show isBlank closeBrace = false by decide), String.ofList_toList]
  | k, x, (k', y) :: fs, n, rest, h, hn => by
    rw [sizeFields] at hn
    rw [PlainFields] at h
    obtain ⟨n, rfl⟩ := Nat.exists_eq_add_of_le' (Nat.le_trans (by omega) hn : 1 ≤ n)
    have hi := fields_dump st k' y fs n rest h.2 (by omega)
    obtain ⟨c, t, hct, hc⟩ := dump_opens st h.1
    let more := ',' :: (st.gap ++ (quote k' ++ (':' :: (st.gap ++ (dump st y ++
      (dumpMoreFields st fs ++ closeBrace :: rest))))))
    have hv := value_dump st x n more h.1 (by omega) (ends_cons (by decide))
    have hk := stringBody_literal k (':' :: (st.gap ++ (dump st x ++ more)))
    have hne : (',' : Char) ≠ closeBrace := by decide
    have hgap : skipBlanks (st.gap ++ (quote k' ++ (':' :: (st.gap ++ (dump st y ++
        (dumpMoreFields st fs ++ closeBrace :: rest)))))) = quote k' ++ (':' :: (st.gap ++ (dump st y ++
        (dumpMoreFields st fs ++ closeBrace :: rest)))) := by
      rw [quote, List.cons_append]
      exact skipBlanks_gap st (by decide)
    rw [hct, List.cons_append] at hv hk
    rw [quote, dumpMoreFields]
    simp only [List.cons_append, List.append_assoc, List.nil_append, hct]
    rw [fields, if_pos rfl, hk]
    simp [skipBlanks_cons (show isBlank ':' = false by decide), skipBlanks_gap st (opens_spec hc).1,
      hv, more, skipBlanks_cons (show isBlank ',' = false by decide), hne, hgap, hi,
      String.ofList_toList]
termination_by k x fs => sizeOf ((k, x) :: fs)

end

/-! ### Texts -/

mutual

theorem size_le_length (st : Style) : ∀ x, Plain x → size x ≤ 2 * (dump st x).length
  | .null, _ => by simp [size, dump]
  | .bool true, _ => by simp [size, dump]
  | .bool false, _ => by simp [size, dump]
  | .int z, h => by
    obtain ⟨c, t, hct, _⟩ := dump_opens st h
    rw [hct, size]
    · simp only [List.length_cons]
      omega
    all_goals simp
  | .float l, h => absurd h (by simp [Plain])
  | .str s, _ => by simp [size, dump, quote]; omega
  | .arr [], _ => by simp [size, sizeItems, dump, dumpItems]
  | .arr (x :: xs), h => by
    have hx := size_le_length st x h.1
    have hxs := sizeItems_le_length st xs h.2
    simp only [size, sizeItems, dump, dumpItems, List.length_cons, List.length_append,
      List.length_nil]
    omega
  | .obj [], _ => by simp [size, sizeFields, dump, dumpFields]
  | .obj ((k, x) :: fs), h => by
    have hx := size_le_length st x h.2.1
    have hfs := sizeFields_le_length st fs h.2.2
    simp only [size, sizeFields, dump, dumpFields, List.length_cons, List.length_append,
      List.length_nil]
    omega

theorem sizeItems_le_length (st : Style) : ∀ xs, PlainItems xs →
    sizeItems xs ≤ 2 * (dumpMoreItems st xs).length
  | [], _ => by simp [sizeItems]
  | x :: xs, h => by
    have hx := size_le_length st x h.1
    have hxs := sizeItems_le_length st xs h.2
    simp only [sizeItems, dumpMoreItems, List.length_cons, List.length_append]
    omega

theorem sizeFields_le_length (st : Style) : ∀ fs, PlainFields fs →
    sizeFields fs ≤ 2 * (dumpMoreFields st fs).length
  | [], _ => by simp [sizeFields]
  | (k, x) :: fs, h => by
    have hx := size_le_length st x h.1
    have hfs := sizeFields_le_length st fs h.2
    simp only [sizeFields, dumpMoreFields, List.length_cons, List.length_append]
    omega

end

/-- **Round trip**: `json.loads` gives back what `json.dumps` wrote. -/
theorem loads_dumps (st : Style) {x : Json} (h : Plain x) : loads (dumps st x) = some x := by
  obtain ⟨c, t, hct, hc⟩ := dump_opens st h
  have hskip : skipBlanks (dump st x) = dump st x := by
    rw [hct]
    exact skipBlanks_cons (opens_spec hc).1
  have hv := value_dump st x (2 * (dump st x).length + 2) [] h
    (Nat.le_add_right_of_le (size_le_length st x h)) ends_nil
  rw [List.append_nil] at hv
  rw [loads, dumps, String.toList_ofList, hskip, hv]
  rfl

/-- Two plain values with one text are one value. -/
theorem dumps_injective (st : Style) {x y : Json} (hx : Plain x) (hy : Plain y)
    (h : dumps st x = dumps st y) : x = y := by
  have hl := loads_dumps st hx
  rw [h, loads_dumps st hy] at hl
  exact (Option.some.inj hl).symm

end JsonText
