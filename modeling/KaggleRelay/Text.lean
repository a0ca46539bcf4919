/-
Python's text operations, on Lean strings.

Only the operations the relay's code uses, each as Python documents it:
`startswith`, `in`, `split` on one character, `strip` with Python's table of
white space, `splitlines`, and `find`/`rfind` of one character.  They compute
on the list of characters, so that they reduce inside proofs.
-/
import Mathlib.Data.List.DropRight
import Mathlib.Data.String.Basic

namespace Text

/-- `s.startswith(p)`. -/
def startswith (s p : String) : Bool := p.toList.isPrefixOf s.toList

/-- `p in s`. -/
def isIn (p s : String) : Bool := s.toList.tails.any fun t => p.toList.isPrefixOf t

/-- `s.split(sep)` for a one-character separator: never empty, and adjacent
separators give empty parts. -/
def split (s : String) (sep : Char) : List String :=
  (s.toList.splitOn sep).map String.ofList

/-- `str.isspace` on one character. -/
def isSpace (c : Char) : Bool :=
  let n := c.toNat
  (0x9 ≤ n && n ≤ 0xD) || (0x1C ≤ n && n ≤ 0x20) || n == 0x85 || n == 0xA0 || n == 0x1680 ||
    (0x2000 ≤ n && n ≤ 0x200A) || n == 0x2028 || n == 0x2029 || n == 0x202F || n == 0x205F ||
    n == 0x3000

/-- White space removed at both ends. -/
def stripList (l : List Char) : List Char :=
  ((l.dropWhile isSpace).reverse.dropWhile isSpace).reverse

/-- `s.strip()`. -/
def strip (s : String) : String := String.ofList (stripList s.toList)

/-- `s.lstrip(left).rstrip(right)` for two sets of characters. -/
def stripSets (left right : List Char) (s : String) : String :=
  String.ofList
    (((s.toList.dropWhile left.contains).reverse.dropWhile right.contains).reverse)

/-- The line boundaries of `str.splitlines`. -/
def isLineBreak (c : Char) : Bool :=
  let n := c.toNat
  (0xA ≤ n && n ≤ 0xD) || (0x1C ≤ n && n ≤ 0x1E) || n == 0x85 || n == 0x2028 || n == 0x2029

/-- The lines from a place on, `line` being the current one read backwards;
after a carriage return a line feed belongs to the same boundary. -/
def splitlinesFrom : Bool → List Char → List Char → List String
  | _, line, [] => if line.isEmpty then [] else [String.ofList line.reverse]
  | afterReturn, line, c :: rest =>
    if afterReturn && c == '\n' then splitlinesFrom false line rest
    else if isLineBreak c then String.ofList line.reverse :: splitlinesFrom (c == '\r') [] rest
    else splitlinesFrom false (c :: line) rest

/-- `s.splitlines()`. -/
def splitlines (s : String) : List String := splitlinesFrom false [] s.toList

/-- `s.find(c)` for a character: the index of its first occurrence. -/
def find (s : String) (c : Char) : Option ℕ := s.toList.findIdx? (· == c)

/-- `s.rfind(c)`: the index of the last occurrence. -/
def rfind (s : String) (c : Char) : Option ℕ :=
  (s.toList.reverse.findIdx? (· == c)).map fun i => s.length - 1 - i

/-- `s[i:j + 1]`. -/
def slice (s : String) (i j : ℕ) : String := String.ofList ((s.toList.take (j + 1)).drop i)

/-- `s[-n:]`. -/
def lastChars (n : ℕ) (s : String) : String :=
  String.ofList (s.toList.drop (s.length - n))

theorem startswith_append (p s : String) : startswith (p ++ s) p = true := by
  simp [startswith, String.toList_append]

/-- Stripping twice is stripping once. -/
theorem stripList_stripList (l : List Char) : stripList (stripList l) = stripList l := by
  have hprefix : stripList l <+: l.dropWhile isSpace := by
    have hsuffix := List.dropWhile_suffix (l := (l.dropWhile isSpace).reverse) isSpace
    have hreversed := List.reverse_prefix.mpr hsuffix
    rwa [List.reverse_reverse] at hreversed
  have hback : (stripList l).reverse.dropWhile isSpace = (stripList l).reverse := by
    rw [stripList, List.reverse_reverse, List.dropWhile_idempotent]
  have hfront : (stripList l).dropWhile isSpace = stripList l := by
    obtain ⟨rest, hrest⟩ := hprefix
    cases hl : stripList l with
    | nil => rfl
    | cons c m =>
      rw [hl, List.cons_append] at hrest
      have hc : isSpace c = false := by
        have hhead := List.head?_dropWhile_not isSpace l
        rw [← hrest] at hhead
        simpa using hhead
      rw [List.dropWhile_cons_of_neg (by simp [hc])]
  calc stripList (stripList l) = ((stripList l).reverse.dropWhile isSpace).reverse := by rw [stripList, hfront]
    _ = stripList l := by rw [hback, List.reverse_reverse]

theorem strip_strip (s : String) : strip (strip s) = strip s := by
  rw [strip, strip, String.toList_ofList, stripList_stripList]
end Text
