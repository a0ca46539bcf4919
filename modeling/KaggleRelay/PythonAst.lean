/-
The syntax trees of Python modules, as `ast.parse` returns them.

* `Cls`, `Field`, `Leaf` — the classes of `ast`, their fields, and what a field
  holds that is no tree;
* `name`, `call`, `assign`, … — the nodes, each with all its fields;
* `callParts` — what a call is made of;
* `opening` — where a statement goes that is to come after the docstring and
  the `__future__` imports.
-/
import Mathlib.Data.List.TakeWhile
import KaggleRelay.SyntaxTree

namespace PythonAst

/-- The classes of nodes. -/
inductive Cls where
  | Module | Interactive | Expression | FunctionType
  | FunctionDef | AsyncFunctionDef | ClassDef | Return | Delete | Assign | AugAssign | AnnAssign
  | For | AsyncFor | While | If | With | AsyncWith | Match | Raise | Try | TryStar | Assert
  | Import | ImportFrom | Global | Nonlocal | Expr | Pass | Break | Continue
  | BoolOp | NamedExpr | BinOp | UnaryOp | Lambda | IfExp | Dict | Set | ListComp | SetComp
  | DictComp | GeneratorExp | Await | Yield | YieldFrom | Compare | Call | FormattedValue
  | JoinedStr | Constant | Attribute | Subscript | Starred | Name | List | Tuple | Slice
  | Load | Store | Del
  | And | Or | Add | Sub | Mult | MatMult | Div | Mod | Pow | LShift | RShift | BitOr | BitXor
  | BitAnd | FloorDiv | Invert | Not | UAdd | USub
  | Eq | NotEq | Lt | LtE | Gt | GtE | Is | IsNot | In | NotIn
  | Comprehension | ExceptHandler | Arguments | Arg | Keyword | Alias | WithItem | MatchCase
  | MatchValue | MatchSingleton | MatchSequence | MatchMapping | MatchClass | MatchStar | MatchAs
  | MatchOr | TypeIgnore
  deriving DecidableEq

/-- The names of fields. -/
inductive Field where
  | body | typeIgnores | argtypes | returns | name | args | decoratorList | typeComment | bases
  | keywords | value | targets | target | op | annotation | simple | iter | orelse | test | items
  | subject | cases | exc | cause | handlers | finalbody | msg | names | moduleName | level
  | values | left | right | operand | keys | elts | elt | generators | key | ops | comparators
  | func | conversion | formatSpec | kind | attr | ctx | slice | id | lower | upper | step | ifs
  | isAsync | type | posonlyargs | vararg | kwonlyargs | kwDefaults | kwarg | defaults | arg
  | asname | contextExpr | optionalVars | pattern | guard | patterns | rest | cls | kwdAttrs
  | kwdPatterns | lineno | tag
  deriving DecidableEq

/-- What is no tree: an identifier or a string, an integer, `None`, or another
constant by its representation. -/
inductive Leaf where
  | none
  | str (s : String)
  | int (z : ℤ)
  | other (repr : String)
  deriving DecidableEq

abbrev Ast := SyntaxTree Cls Field Leaf

instance : LawfulBEq Ast := inferInstance

def text (s : String) : Ast := .leaf (.str s)

def absent : Ast := .leaf .none

/-! ### Expressions -/

def load : Ast := .node .Load []

def store : Ast := .node .Store []

def name (id : String) : Ast := .node .Name [(.id, text id), (.ctx, load)]

/-- A name that is assigned. -/
def target (id : String) : Ast := .node .Name [(.id, text id), (.ctx, store)]

/-- A name that is deleted. -/
def deleted (id : String) : Ast := .node .Name [(.id, text id), (.ctx, .node .Del [])]

def attr (value : Ast) (attr : String) : Ast :=
  .node .Attribute [(.value, value), (.attr, text attr), (.ctx, load)]

def attrTarget (value : Ast) (attr : String) : Ast :=
  .node .Attribute [(.value, value), (.attr, text attr), (.ctx, store)]

def call (func : Ast) (args keywords : List Ast) : Ast :=
  .node .Call [(.func, func), (.args, .list args), (.keywords, .list keywords)]

def keyword (arg : String) (value : Ast) : Ast :=
  .node .Keyword [(.arg, text arg), (.value, value)]

/-- `**value` in a call. -/
def doubleStarred (value : Ast) : Ast := .node .Keyword [(.arg, absent), (.value, value)]

def starred (value : Ast) : Ast := .node .Starred [(.value, value), (.ctx, load)]

def constant (value : Leaf) : Ast := .node .Constant [(.value, .leaf value), (.kind, absent)]

def str (s : String) : Ast := constant (.str s)

def int (z : ℤ) : Ast := constant (.int z)

def noneValue : Ast := constant .none

def trueValue : Ast := constant (.other "True")

def falseValue : Ast := constant (.other "False")

def operator (op : Cls) : Ast := .node op []

def compare (left : Ast) (ops : List Cls) (comparators : List Ast) : Ast :=
  .node .Compare [(.left, left), (.ops, .list (ops.map operator)), (.comparators, .list comparators)]

def boolOp (op : Cls) (values : List Ast) : Ast :=
  .node .BoolOp [(.op, operator op), (.values, .list values)]

def binOp (left : Ast) (op : Cls) (right : Ast) : Ast :=
  .node .BinOp [(.left, left), (.op, operator op), (.right, right)]

def unaryOp (op : Cls) (operand : Ast) : Ast :=
  .node .UnaryOp [(.op, operator op), (.operand, operand)]

def ifExp (test body orelse : Ast) : Ast :=
  .node .IfExp [(.test, test), (.body, body), (.orelse, orelse)]

def subscript (value slice : Ast) : Ast :=
  .node .Subscript [(.value, value), (.slice, slice), (.ctx, load)]

def subscriptTarget (value slice : Ast) : Ast :=
  .node .Subscript [(.value, value), (.slice, slice), (.ctx, store)]

def slice (lower upper step : Ast) : Ast :=
  .node .Slice [(.lower, lower), (.upper, upper), (.step, step)]

def tuple (elts : List Ast) : Ast := .node .Tuple [(.elts, .list elts), (.ctx, load)]

def tupleTarget (elts : List Ast) : Ast := .node .Tuple [(.elts, .list elts), (.ctx, store)]

def listOf (elts : List Ast) : Ast := .node .List [(.elts, .list elts), (.ctx, load)]

def setOf (elts : List Ast) : Ast := .node .Set [(.elts, .list elts)]

def dict (keys values : List Ast) : Ast :=
  .node .Dict [(.keys, .list keys), (.values, .list values)]

def comprehension (target iter : Ast) (ifs : List Ast) : Ast :=
  .node .Comprehension [(.target, target), (.iter, iter), (.ifs, .list ifs),
    (.isAsync, .leaf (.int 0))]

def listComp (elt : Ast) (generators : List Ast) : Ast :=
  .node .ListComp [(.elt, elt), (.generators, .list generators)]

def generatorExp (elt : Ast) (generators : List Ast) : Ast :=
  .node .GeneratorExp [(.elt, elt), (.generators, .list generators)]

def joinedStr (values : List Ast) : Ast := .node .JoinedStr [(.values, .list values)]

/-- A value in a formatted string, with its format. -/
def formattedAs (value formatSpec : Ast) : Ast :=
  .node .FormattedValue [(.value, value), (.conversion, .leaf (.int (-1))),
    (.formatSpec, formatSpec)]

def formatted (value : Ast) : Ast := formattedAs value absent

def yieldValue (value : Ast) : Ast := .node .Yield [(.value, value)]

/-! ### Statements -/

def assign (target value : Ast) : Ast :=
  .node .Assign [(.targets, .list [target]), (.value, value), (.typeComment, absent)]

def exprStmt (value : Ast) : Ast := .node .Expr [(.value, value)]

def returnStmt (value : Ast) : Ast := .node .Return [(.value, value)]

def delete (targets : List Ast) : Ast := .node .Delete [(.targets, .list targets)]

def ifStmt (test : Ast) (body orelse : List Ast) : Ast :=
  .node .If [(.test, test), (.body, .list body), (.orelse, .list orelse)]

def forStmt (target iter : Ast) (body : List Ast) : Ast :=
  .node .For [(.target, target), (.iter, iter), (.body, .list body), (.orelse, .list []),
    (.typeComment, absent)]

def withItem (contextExpr optionalVars : Ast) : Ast :=
  .node .WithItem [(.contextExpr, contextExpr), (.optionalVars, optionalVars)]

def withStmt (items body : List Ast) : Ast :=
  .node .With [(.items, .list items), (.body, .list body), (.typeComment, absent)]

def raiseStmt (exc cause : Ast) : Ast := .node .Raise [(.exc, exc), (.cause, cause)]

def exceptHandler (type name : Ast) (body : List Ast) : Ast :=
  .node .ExceptHandler [(.type, type), (.name, name), (.body, .list body)]

def tryStmt (body handlers orelse finalbody : List Ast) : Ast :=
  .node .Try [(.body, .list body), (.handlers, .list handlers), (.orelse, .list orelse),
    (.finalbody, .list finalbody)]

def importAlias (name : String) : Ast := .node .Alias [(.name, text name), (.asname, absent)]

def importAliasAs (name asname : String) : Ast := .node .Alias [(.name, text name), (.asname, text asname)]

def importStmt (names : List Ast) : Ast := .node .Import [(.names, .list names)]

def importFrom (moduleName : String) (names : List Ast) (level : ℤ) : Ast :=
  .node .ImportFrom [(.moduleName, text moduleName), (.names, .list names), (.level, .leaf (.int level))]

def arg (name : String) : Ast :=
  .node .Arg [(.arg, text name), ( Field.annotation, absent), (.typeComment, absent)]

def arguments (args : List Ast) (vararg kwarg : Ast) (defaults : List Ast) : Ast :=
  .node .Arguments [(.posonlyargs, .list []), (.args, .list args), (.vararg, vararg),
    (.kwonlyargs, .list []), (.kwDefaults, .list []), (.kwarg, kwarg), (.defaults, .list defaults)]

/-- The arguments of a function that has keyword-only ones. -/
def argumentsWith (args : List Ast) (vararg : Ast) (kwonlyargs kwDefaults : List Ast) (kwarg : Ast)
    (defaults : List Ast) : Ast :=
  .node .Arguments [(.posonlyargs, .list []), (.args, .list args), (.vararg, vararg),
    (.kwonlyargs, .list kwonlyargs), (.kwDefaults, .list kwDefaults), (.kwarg, kwarg),
    (.defaults, .list defaults)]

def functionDef (name : String) (args : Ast) (body decoratorList : List Ast) : Ast :=
  .node .FunctionDef [(.name, text name), (.args, args), (.body, .list body),
    (.decoratorList, .list decoratorList), (.returns, absent), (.typeComment, absent)]

/-! ### What a node is -/

/-- `isinstance(node, cls)`. -/
def isA (cls : Cls) : Ast → Bool
  | .node c _ => c == cls
  | _ => false

/-- The function, the arguments and the keywords of a call. -/
def callParts : Ast → Option (Ast × List Ast × List Ast)
  | .node .Call [(.func, func), (.args, .list args), (.keywords, .list keywords)] =>
    some (func, args, keywords)
  | _ => none

@[simp] theorem callParts_call (func : Ast) (args keywords : List Ast) :
    callParts (call func args keywords) = some (func, args, keywords) := rfl

theorem eq_call_of_callParts {t func : Ast} {args keywords : List Ast}
    (h : callParts t = some (func, args, keywords)) : t = call func args keywords := by
  unfold callParts at h
  split at h
  · obtain ⟨rfl, rfl, rfl⟩ := by simpa using h
    rfl
  · cases h

/-- An expression statement that is a string. -/
def isDocstring (stmt : Ast) : Bool :=
  isA .Expr stmt && (stmt.get .value).any fun value =>
    isA .Constant value && (value.get .value).any fun v =>
      match v with
      | .leaf (.str _) => true
      | _ => false

/-- An import from the module `__future__`. -/
def isFuture (stmt : Ast) : Bool :=
  isA .ImportFrom stmt && stmt.get .moduleName == some (text "__future__")

/-- The statements before the place where a prefix is inserted. -/
def opening (body : List Ast) : ℕ :=
  match body with
  | first :: rest =>
    if isDocstring first then 1 + (rest.takeWhile isFuture).length
    else (body.takeWhile isFuture).length
  | [] => 0

/-- `body[insertion:insertion] = prefix`. -/
def insertAfterOpening (statements body : List Ast) : List Ast :=
  body.take (opening body) ++ statements ++ body.drop (opening body)

theorem insertAfterOpening_perm (statements body : List Ast) :
    (insertAfterOpening statements body).Perm (statements ++ body) := by
  have hsplit : insertAfterOpening statements body =
      (body.take (opening body) ++ statements) ++ body.drop (opening body) := rfl
  rw [hsplit]
  refine (List.Perm.append_right _ List.perm_append_comm).trans ?_
  rw [List.append_assoc, List.take_append_drop]

/-- What an opening is: a docstring, if there is one, and the imports that follow. -/
structure Opening (head tail : List Ast) : Prop where
  parts : ∃ doc futures, head = doc ++ futures ∧ doc.length ≤ 1 ∧ (∀ s ∈ doc, isDocstring s) ∧
    (∀ s ∈ futures, isFuture s) ∧ (doc = [] → ∀ s, (head ++ tail).head? = some s → isDocstring s = false)
  stops : ∀ s, tail.head? = some s → isFuture s = false

theorem opening_split (body : List Ast) :
    Opening (body.take (opening body)) (body.drop (opening body)) := by
  have hwhile : ∀ l : List Ast, l.take (l.takeWhile isFuture).length = l.takeWhile isFuture ∧
      l.drop (l.takeWhile isFuture).length = l.dropWhile isFuture := by
    intro l
    have htake : l.takeWhile isFuture = l.take (l.takeWhile isFuture).length :=
      List.prefix_iff_eq_take.mp (List.takeWhile_prefix isFuture)
    refine ⟨htake.symm, ?_⟩
    have hsplit : l.takeWhile isFuture ++ l.dropWhile isFuture = l := List.takeWhile_append_dropWhile
    have hcut := (List.take_append_drop (l.takeWhile isFuture).length l).trans hsplit.symm
    rw [← htake] at hcut
    exact List.append_cancel_left hcut
  have hstops : ∀ (l : List Ast) s, (l.dropWhile isFuture).head? = some s → isFuture s = false := by
    intro l s hs
    have h := List.head?_dropWhile_not isFuture l
    rw [hs] at h
    simpa using h
  have hfutures : ∀ (l : List Ast), ∀ s ∈ l.takeWhile isFuture, isFuture s = true := by
    intro l s hs
    exact List.mem_takeWhile_imp hs
  cases body with
  | nil => exact ⟨⟨[], [], rfl, Nat.zero_le 1, by simp, by simp, by simp⟩, by simp⟩
  | cons first rest =>
    rw [opening]
    split
    · next hdoc =>
      rw [Nat.add_comm 1, List.take_succ_cons, List.drop_succ_cons, (hwhile rest).1, (hwhile rest).2]
      refine ⟨⟨[first], rest.takeWhile isFuture, rfl, Nat.le_refl 1, ?_, hfutures rest, by simp⟩, hstops rest⟩
      intro s hs
      rw [List.mem_singleton.mp hs]
      exact hdoc
    · next hdoc =>
      rw [(hwhile (first :: rest)).1, (hwhile (first :: rest)).2]
      refine ⟨⟨[], (first :: rest).takeWhile isFuture, rfl, Nat.zero_le 1, by simp,
        hfutures (first :: rest), ?_⟩, hstops (first :: rest)⟩
      intro _ s hs
      rw [List.takeWhile_append_dropWhile] at hs
      rw [← Option.some.inj hs]
      exact Bool.eq_false_iff.mpr hdoc

end PythonAst
