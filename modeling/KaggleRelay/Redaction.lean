/-
Redaction of secrets in a text.

`redactSecrets` is `redact_secrets` of `security.py`: the registered secrets
are replaced, the longer ones first, then what the token patterns match.

`redactSecrets_eq_self` — a text with no secret and no token in it is left as
it is.
-/
import Mathlib.Data.List.Sort
import KaggleRelay.Regex
import KaggleRelay.Text

namespace KaggleRelay

/-- What a secret is replaced by. -/
def stars : List Char := ['*', '*', '*']

/-! ### Replacing a text -/

/-- `s.replace(old, new)` from a place on: `skip` characters still belong to
the last occurrence. -/
def replaceFrom (old new : List Char) : ℕ → List Char → List Char
  | _, [] => []
  | skip + 1, _ :: rest => replaceFrom old new skip rest
  | 0, c :: rest =>
    if old.isPrefixOf (c :: rest) then new ++ replaceFrom old new (old.length - 1) rest
    else c :: replaceFrom old new 0 rest

/-- `s.replace(old, new)` for a nonempty `old`. -/
def replace (old new s : List Char) : List Char := replaceFrom old new 0 s

/-- `old in s`. -/
def occursIn (old s : List Char) : Bool := s.tails.any fun t => old.isPrefixOf t

theorem replace_eq_self {old new : List Char} :
    ∀ {s : List Char}, occursIn old s = false → replace old new s = s := by
  intro s
  induction s with
  | nil =>
    intro _
    rfl
  | cons c rest ih =>
    intro h
    rw [occursIn, List.tails, List.any_cons, Bool.or_eq_false_iff] at h
    rw [replace, replaceFrom, h.1]
    exact congrArg (c :: ·) (ih h.2)

/-! ### The token patterns -/

/-- Upper and lower case as `re.IGNORECASE` identifies them: the letters of
ASCII, and the four others that fold to one of them. -/
def foldCase (c : Char) : Char :=
  if c.toNat = 0x130 ∨ c.toNat = 0x131 then 'i'
  else if c.toNat = 0x17F then 's'
  else if c.toNat = 0x212A then 'k'
  else c.toLower

/-- A text in either case. -/
def anyCase (s : String) : Regex :=
  s.toList.foldr (fun c r => .seq (.one fun d => foldCase d == foldCase c) r) .empty

/-- `[A-Za-z0-9_\-]`. -/
def tokenChar (c : Char) : Bool := c.isAlphanum || c == '_' || c == '-'

/-- A pattern of `TOKEN_PATTERNS`, and whether it has a group. -/
structure TokenPattern where
  pattern : Regex
  grouped : Bool

/-- `TOKEN_PATTERNS`. -/
def tokenPatterns : List TokenPattern :=
  [ { pattern := .cat [.group 1 (.cat [anyCase "Authorization:", .chars Text.isSpace 0 none,
        anyCase "Bearer", .chars Text.isSpace 1 none]), .chars (fun c => !Text.isSpace c) 1 none]
      grouped := true },
    { pattern := .cat [.group 1 (.cat [anyCase "Bearer", .chars Text.isSpace 1 none]),
        .chars (fun c => tokenChar (foldCase c) || c == '.') 1 none]
      grouped := true },
    { pattern := .cat [.lit "KGAT_", .chars tokenChar 1 none]
      grouped := false },
    { pattern := .cat [.group 1 (.cat [anyCase "KAGGLE_",
        .alt (anyCase "API_TOKEN") (.alt (anyCase "KEY") (anyCase "USERNAME")), anyCase "="]),
        .chars (fun c => !Text.isSpace c) 1 none]
      grouped := true } ]

/-- What a match of a token pattern is replaced by. -/
def TokenPattern.replacement (p : TokenPattern) (m : Regex.Cursor) : List Char :=
  if p.grouped then m.group 1 ++ stars else stars

/-- `redact_secrets`. -/
def redactSecrets (extraSecrets : List String) (text : String) : String :=
  let value := (extraSecrets.insertionSort fun a b => b.length ≤ a.length).foldl
    (fun value secret => replace secret.toList stars value) text.toList
  String.ofList (tokenPatterns.foldl (fun value p => p.pattern.sub p.replacement value) value)

/-! ### Texts without a secret -/

theorem foldl_eq_self {α β : Type} {f : β → α → β} {b : β} :
    ∀ {l : List α}, (∀ a ∈ l, f b a = b) → l.foldl f b = b := by
  intro l
  induction l with
  | nil =>
    intro _
    rfl
  | cons a l ih =>
    intro h
    rw [List.foldl_cons, h a (by simp)]
    exact ih fun a' ha => h a' (by simp [ha])

/-- No token pattern matches anywhere in a text. -/
def tokenFree (text : String) : Bool := tokenPatterns.all fun p => !p.pattern.search text.toList

/-- A text with no secret and no token in it is left as it is. -/
theorem redactSecrets_eq_self {extraSecrets : List String} {text : String}
    (hs : ∀ secret ∈ extraSecrets, occursIn secret.toList text.toList = false)
    (ht : tokenFree text = true) : redactSecrets extraSecrets text = text := by
  have hsecrets : (extraSecrets.insertionSort fun a b => b.length ≤ a.length).foldl
      (fun value secret => replace secret.toList stars value) text.toList = text.toList := by
    refine foldl_eq_self fun secret hsecret => ?_
    exact replace_eq_self (hs secret ((List.mem_insertionSort _).mp hsecret))
  have htokens : tokenPatterns.foldl (fun value p => p.pattern.sub p.replacement value) text.toList =
      text.toList := by
    refine foldl_eq_self fun p hp => ?_
    refine Regex.sub_eq_self _ ?_
    have := List.all_eq_true.mp ht p hp
    simpa using this
  rw [redactSecrets, hsecrets, htokens, String.ofList_toList]

end KaggleRelay
