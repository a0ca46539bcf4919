/-
What the GPU policy makes of a script.

* `Rewritten` — the rule: every `x.train(...)` with data becomes one call of the
  helper with the same parts, themselves rewritten;
* `devicePolicy_rewritten`, `trainCalls_devicePolicy`,
  `helperCalls_devicePolicy` — the policy follows it, leaves no such call, and
  adds one call of the helper for each;
* `devicePolicy_eq_self` — where there is no such call nothing changes, so
  that a second application changes nothing.
-/
import KaggleRelay.GpuPolicy

namespace KaggleRelay

open JsonText PythonAst

namespace Gpu

/-! ### Calls -/

/-- A call `x.train(...)` that names its data. -/
structure TrainCall (node func : Ast) (args keywords : List Ast) : Prop where
  parts : node = call func args keywords
  method : isTrainMethod func = true
  data : ∃ keyword ∈ keywords, isDataKeyword keyword = true

theorem trainCall_iff {node func : Ast} {args keywords : List Ast} :
    trainCall node = some (func, args, keywords) ↔ TrainCall node func args keywords := by
  rw [trainCall]
  constructor
  · intro h
    split at h
    · next func' args' keywords' hparts =>
      split at h
      · next hcond =>
        obtain ⟨rfl, rfl, rfl⟩ : func' = func ∧ args' = args ∧ keywords' = keywords := by
          simpa using h
        rw [Bool.and_eq_true, List.any_eq_true] at hcond
        exact ⟨eq_call_of_callParts hparts, hcond.1, hcond.2⟩
      · cases h
    · cases h
  · rintro ⟨rfl, hmethod, hdata⟩
    rw [callParts_call]
    simp only
    rw [if_pos (by rw [Bool.and_eq_true, List.any_eq_true]; exact ⟨hmethod, hdata⟩)]

/-- The fields of a node, rewritten. -/
def visitFields (fields : List (PythonAst.Field × Ast)) : List (PythonAst.Field × Ast) :=
  fields.map fun field => (field.1, devicePolicy field.2)

theorem devicePolicy_node (cls : Cls) (fields : List (PythonAst.Field × Ast)) :
    devicePolicy (.node cls fields) = visitCall (.node cls (visitFields fields)) :=
  SyntaxTree.mapNodes_node visitCall cls fields

@[simp] theorem devicePolicy_leaf (value : Leaf) : devicePolicy (.leaf value) = .leaf value :=
  SyntaxTree.mapNodes_leaf visitCall value

@[simp] theorem devicePolicy_list (items : List Ast) :
    devicePolicy (.list items) = .list (items.map devicePolicy) :=
  SyntaxTree.mapNodes_list visitCall items

theorem visitCall_eq (node : Ast) :
    (trainCall node = none ∧ visitCall node = node) ∨
      ∃ func args keywords, TrainCall node func args keywords ∧
        visitCall node = call (name deviceHelper) (func :: args) keywords := by
  rw [visitCall]
  cases h : trainCall node with
  | none => exact .inl ⟨rfl, rfl⟩
  | some parts =>
    obtain ⟨func, args, keywords⟩ := parts
    exact .inr ⟨func, args, keywords, trainCall_iff.mp h, rfl⟩

/-- A node stays a node. -/
theorem visitCall_node (cls : Cls) (fields : List (PythonAst.Field × Ast)) :
    ∃ cls' fields', visitCall (.node cls fields) = .node cls' fields' := by
  obtain ⟨-, h⟩ | ⟨func, args, keywords, -, h⟩ := visitCall_eq (.node cls fields)
  · exact ⟨cls, fields, h⟩
  · exact ⟨_, _, h⟩

theorem devicePolicy_eq_leaf {t : Ast} {value : Leaf} :
    devicePolicy t = .leaf value ↔ t = .leaf value := by
  cases t with
  | leaf v => rw [devicePolicy_leaf]
  | node cls fields =>
    rw [devicePolicy_node]
    obtain ⟨cls', fields', h⟩ := visitCall_node cls (visitFields fields)
    rw [h]
    constructor <;> intro heq <;> cases heq
  | list items =>
    rw [devicePolicy_list]
    constructor <;> intro heq <;> cases heq

theorem of_devicePolicy_list {t : Ast} {items : List Ast} (h : devicePolicy t = .list items) :
    ∃ items', t = .list items' ∧ items = items'.map devicePolicy := by
  cases t with
  | leaf v =>
    rw [devicePolicy_leaf] at h
    cases h
  | node cls fields =>
    rw [devicePolicy_node] at h
    obtain ⟨cls', fields', heq⟩ := visitCall_node cls (visitFields fields)
    rw [heq] at h
    cases h
  | list items' =>
    rw [devicePolicy_list] at h
    exact ⟨items', rfl, (SyntaxTree.list.inj h).symm⟩

/-- A node that is no call came from one of the same class. -/
theorem of_devicePolicy_node {t : Ast} {cls : Cls} {fields : List (PythonAst.Field × Ast)} (hcls : cls ≠ .Call)
    (h : devicePolicy t = .node cls fields) :
    ∃ fields', t = .node cls fields' ∧ fields = visitFields fields' := by
  cases t with
  | leaf v =>
    rw [devicePolicy_leaf] at h
    cases h
  | list items =>
    rw [devicePolicy_list] at h
    cases h
  | node cls' fields' =>
    rw [devicePolicy_node] at h
    obtain ⟨-, heq⟩ | ⟨func, args, keywords, -, heq⟩ := visitCall_eq (.node cls' (visitFields fields'))
    · rw [heq] at h
      obtain ⟨rfl, rfl⟩ := SyntaxTree.node.inj h
      exact ⟨fields', rfl, rfl⟩
    · rw [heq] at h
      exact (hcls (SyntaxTree.node.inj h).1.symm).elim

theorem lookup_visitFields (fields : List (PythonAst.Field × Ast)) (field : PythonAst.Field) :
    (visitFields fields).lookup field = (fields.lookup field).map devicePolicy :=
  SyntaxTree.lookup_mapNodes visitCall fields field

/-- A text in a field of a node that is rewritten. -/
theorem get_visitFields (cls : Cls) (fields : List (PythonAst.Field × Ast)) (field : PythonAst.Field) (s : String) :
    SyntaxTree.get (.node cls (visitFields fields)) field = some (text s) ↔
      SyntaxTree.get (.node cls fields) field = some (text s) := by
  show (visitFields fields).lookup field = _ ↔ fields.lookup field = _
  rw [lookup_visitFields]
  constructor
  · intro h
    obtain ⟨t, ht, heq⟩ := Option.map_eq_some_iff.mp h
    rw [ht, devicePolicy_eq_leaf.mp heq]
    rfl
  · intro h
    rw [h]
    exact congrArg some (devicePolicy_leaf _)

/-- A call is neither a method nor a keyword. -/
theorem not_method_call (func : Ast) (args keywords : List Ast) :
    isTrainMethod (call func args keywords) = false ∧
      isDataKeyword (call func args keywords) = false := ⟨rfl, rfl⟩

theorem isTrainMethod_devicePolicy (t : Ast) : isTrainMethod (devicePolicy t) = isTrainMethod t := by
  cases t with
  | leaf v => rw [devicePolicy_leaf]
  | list items => rw [devicePolicy_list]; rfl
  | node cls fields =>
    rw [devicePolicy_node]
    obtain ⟨-, h⟩ | ⟨func, args, keywords, hcall, h⟩ := visitCall_eq (.node cls (visitFields fields))
    · rw [h, isTrainMethod, isTrainMethod, Bool.eq_iff_iff, Bool.and_eq_true, Bool.and_eq_true,
        beq_iff_eq, beq_iff_eq, get_visitFields]
      rfl
    · obtain rfl : cls = .Call := (SyntaxTree.node.inj hcall.parts).1
      rw [h]
      rfl

theorem isDataKeyword_devicePolicy (t : Ast) : isDataKeyword (devicePolicy t) = isDataKeyword t := by
  cases t with
  | leaf v => rw [devicePolicy_leaf]
  | list items => rw [devicePolicy_list]; rfl
  | node cls fields =>
    rw [devicePolicy_node]
    obtain ⟨-, h⟩ | ⟨func, args, keywords, hcall, h⟩ := visitCall_eq (.node cls (visitFields fields))
    · rw [h, isDataKeyword, isDataKeyword, Bool.eq_iff_iff, beq_iff_eq, beq_iff_eq, get_visitFields]
    · -- a call has no field `arg`, before and after
      have hcls : (visitFields fields).lookup PythonAst.Field.arg = none := by
        rw [(SyntaxTree.node.inj hcall.parts).2]
        rfl
      rw [lookup_visitFields, Option.map_eq_none_iff] at hcls
      rw [h, (not_method_call _ _ _).2, isDataKeyword]
      show _ = (fields.lookup PythonAst.Field.arg == _)
      rw [hcls]
      rfl

/-- Whether a call is one of those does not depend on what is below it. -/
theorem trainCall_visitFields (cls : Cls) (fields : List (PythonAst.Field × Ast)) :
    trainCall (.node cls (visitFields fields)) = (trainCall (.node cls fields)).map fun parts =>
      (devicePolicy parts.1, parts.2.1.map devicePolicy, parts.2.2.map devicePolicy) := by
  have hdata : ∀ keywords : List Ast, (∃ keyword ∈ keywords.map devicePolicy, isDataKeyword keyword = true) ↔
      ∃ keyword ∈ keywords, isDataKeyword keyword = true := by
    intro keywords
    simp only [List.mem_map, exists_exists_and_eq_and, isDataKeyword_devicePolicy]
  cases h : trainCall (.node cls fields) with
  | some parts =>
    obtain ⟨func, args, keywords⟩ := parts
    obtain ⟨hparts, hmethod, hkeyword⟩ := trainCall_iff.mp h
    obtain ⟨rfl, rfl⟩ := SyntaxTree.node.inj hparts
    refine trainCall_iff.mpr ⟨?_, (isTrainMethod_devicePolicy func).trans hmethod, (hdata keywords).mpr hkeyword⟩
    simp only [visitFields, List.map_cons, List.map_nil, devicePolicy_list]
    rfl
  | none =>
    cases hmapped : trainCall (.node cls (visitFields fields)) with
    | none => rfl
    | some parts =>
      obtain ⟨func, args, keywords⟩ := parts
      obtain ⟨hparts, hmethod, hkeyword⟩ := trainCall_iff.mp hmapped
      obtain ⟨rfl, hfields⟩ := SyntaxTree.node.inj hparts
      -- the fields it came from have the same shape
      have hlength : fields.length = 3 := by
        have hmap := congrArg List.length hfields
        rwa [visitFields, List.length_map] at hmap
      obtain ⟨⟨_, t⟩, ⟨_, u⟩, ⟨_, v⟩, rfl⟩ := List.length_eq_three.mp hlength
      simp only [visitFields, List.map_cons, List.map_nil, List.cons.injEq, Prod.mk.injEq,
        and_true] at hfields
      obtain ⟨⟨rfl, rfl⟩, ⟨rfl, hargs⟩, rfl, hkeywords⟩ := hfields
      obtain ⟨args', rfl, rfl⟩ := of_devicePolicy_list hargs
      obtain ⟨keywords', rfl, rfl⟩ := of_devicePolicy_list hkeywords
      have hbefore : trainCall (call t args' keywords') = some (t, args', keywords') :=
        trainCall_iff.mpr ⟨rfl, (isTrainMethod_devicePolicy t).symm.trans hmethod,
          (hdata keywords').mp hkeyword⟩
      cases hbefore.symm.trans h

/-- A call of the kind, rewritten. -/
theorem devicePolicy_trainCall {cls : Cls} {fields : List (PythonAst.Field × Ast)} {func : Ast}
    {args keywords : List Ast} (h : trainCall (.node cls fields) = some (func, args, keywords)) :
    devicePolicy (.node cls fields) =
      call (name deviceHelper) (devicePolicy func :: args.map devicePolicy)
        (keywords.map devicePolicy) := by
  rw [devicePolicy_node, visitCall, trainCall_visitFields, h]
  rfl

/-- Another node, rewritten. -/
theorem devicePolicy_other {cls : Cls} {fields : List (PythonAst.Field × Ast)}
    (h : trainCall (.node cls fields) = none) :
    devicePolicy (.node cls fields) = .node cls (visitFields fields) := by
  rw [devicePolicy_node, visitCall, trainCall_visitFields, h]
  rfl

/-! ### The rule -/

/-- What becomes of a tree. -/
inductive Rewritten : Ast → Ast → Prop
  | leaf (value : Leaf) : Rewritten (.leaf value) (.leaf value)
  | list {items items' : List Ast} (below : List.Forall₂ Rewritten items items') :
      Rewritten (.list items) (.list items')
  /-- A call of the kind is one call of the helper, with the same parts. -/
  | train {node func func' : Ast} {args args' keywords keywords' : List Ast}
      (isTrain : TrainCall node func args keywords) (receiver : Rewritten func func')
      (arguments : List.Forall₂ Rewritten args args')
      (named : List.Forall₂ Rewritten keywords keywords') :
      Rewritten node (call (name deviceHelper) (func' :: args') keywords')
  /-- Every other node keeps its class and its fields. -/
  | other {cls : Cls} {fields fields' : List (PythonAst.Field × Ast)}
      (noTrain : ∀ func args keywords, ¬TrainCall (.node cls fields) func args keywords)
      (sameNames : fields.map Prod.fst = fields'.map Prod.fst)
      (below : List.Forall₂ Rewritten (fields.map Prod.snd) (fields'.map Prod.snd)) :
      Rewritten (.node cls fields) (.node cls fields')

theorem forall₂_map {α β : Type} {R : α → β → Prop} {f : α → β} {xs : List α}
    (h : ∀ x ∈ xs, R x (f x)) : List.Forall₂ R xs (xs.map f) := by
  induction xs with
  | nil => exact .nil
  | cons x xs ih =>
    have hall := List.forall_mem_cons.mp h
    exact .cons hall.1 (ih hall.2)

/-- What is below a node, where it holds of the fields of a call. -/
theorem forall_call {P : Ast → Prop} {cls : Cls} {fields : List (PythonAst.Field × Ast)} {func : Ast}
    {args keywords : List Ast} (hcall : TrainCall (.node cls fields) func args keywords)
    (h : ∀ field ∈ fields, P field.2) : P func ∧ P (.list args) ∧ P (.list keywords) := by
  obtain ⟨rfl, rfl⟩ := SyntaxTree.node.inj hcall.parts
  refine ⟨h (.func, func) ?_, h (.args, .list args) ?_, h (.keywords, .list keywords) ?_⟩
  · exact List.mem_cons_self
  · exact List.mem_cons_of_mem _ List.mem_cons_self
  · exact List.mem_cons_of_mem _ (List.mem_cons_of_mem _ List.mem_cons_self)

/-- The policy follows the rule. -/
theorem rewritten_devicePolicy (t : Ast) : Rewritten t (devicePolicy t) := by
  induction t using SyntaxTree.induct with
  | leaf value =>
    rw [devicePolicy_leaf]
    exact .leaf value
  | list items ih =>
    rw [devicePolicy_list]
    exact .list (forall₂_map ih)
  | node cls fields ih =>
    cases h : trainCall (.node cls fields) with
    | none =>
      rw [devicePolicy_other h]
      refine .other ?_ ?_ ?_
      · intro func args keywords hcall
        rw [trainCall_iff.mpr hcall] at h
        cases h
      · rw [visitFields, List.map_map]
        rfl
      · have hbelow : (visitFields fields).map Prod.snd = (fields.map Prod.snd).map devicePolicy := by
          rw [visitFields, List.map_map, List.map_map]
          rfl
        rw [hbelow]
        refine forall₂_map fun t ht => ?_
        obtain ⟨field, hfield, rfl⟩ := List.mem_map.mp ht
        exact ih field hfield
    | some parts =>
      obtain ⟨func, args, keywords⟩ := parts
      have hcall := trainCall_iff.mp h
      obtain ⟨hfunc, hargs, hkeywords⟩ := forall_call (P := fun t => Rewritten t (devicePolicy t))
        hcall ih
      rw [devicePolicy_list] at hargs hkeywords
      rw [devicePolicy_trainCall h]
      refine .train hcall hfunc ?_ ?_
      · cases hargs with
        | list below => exact below
      · cases hkeywords with
        | list below => exact below

/-! ### How many calls -/

/-- The calls `x.train(...)` with data, at any depth. -/
def trainCalls : Ast → ℕ := SyntaxTree.count fun node => (trainCall node).isSome

/-- A call of the helper. -/
def isHelperCall (node : Ast) : Bool :=
  (callParts node).any fun parts => decide (parts.1 = name deviceHelper)

/-- The calls of the helper, at any depth. -/
def helperCalls : Ast → ℕ := SyntaxTree.count isHelperCall

theorem trainCalls_node (cls : Cls) (fields : List (PythonAst.Field × Ast)) :
    trainCalls (.node cls fields) = (if (trainCall (.node cls fields)).isSome then 1 else 0) +
      (fields.map fun field => trainCalls field.2).sum :=
  SyntaxTree.count_node _ cls fields

@[simp] theorem trainCalls_list (items : List Ast) :
    trainCalls (.list items) = (items.map trainCalls).sum := SyntaxTree.count_list _ items

theorem helperCalls_node (cls : Cls) (fields : List (PythonAst.Field × Ast)) :
    helperCalls (.node cls fields) = (if isHelperCall (.node cls fields) then 1 else 0) +
      (fields.map fun field => helperCalls field.2).sum :=
  SyntaxTree.count_node _ cls fields

@[simp] theorem helperCalls_list (items : List Ast) :
    helperCalls (.list items) = (items.map helperCalls).sum := SyntaxTree.count_list _ items

theorem sum_eq_zero_of_forall {α : Type} {f : α → ℕ} {xs : List α} (h : ∀ x ∈ xs, f x = 0) :
    (xs.map f).sum = 0 := by
  rw [List.sum_eq_zero_iff]
  intro n hn
  obtain ⟨x, hx, rfl⟩ := List.mem_map.mp hn
  exact h x hx

theorem forall_of_sum_eq_zero {α : Type} {f : α → ℕ} {xs : List α} (h : (xs.map f).sum = 0) :
    ∀ x ∈ xs, f x = 0 := fun x hx =>
  List.sum_eq_zero_iff.mp h (f x) (List.mem_map_of_mem hx)

/-- The calls of a call: its own, and those of its parts. -/
theorem trainCalls_call (func : Ast) (args keywords : List Ast) :
    trainCalls (call func args keywords) =
      (if (trainCall (call func args keywords)).isSome then 1 else 0) +
        (trainCalls func + ((args.map trainCalls).sum + (keywords.map trainCalls).sum)) := by
  rw [call, trainCalls_node]
  simp

theorem helperCalls_call (func : Ast) (args keywords : List Ast) :
    helperCalls (call func args keywords) =
      (if func = name deviceHelper then 1 else 0) +
        (helperCalls func + ((args.map helperCalls).sum + (keywords.map helperCalls).sum)) := by
  rw [call, helperCalls_node]
  have hown : isHelperCall (call func args keywords) = decide (func = name deviceHelper) := by
    rw [isHelperCall, callParts_call]
    rfl
  rw [call] at hown
  rw [hown]
  simp

theorem trainCall_helperCall (args keywords : List Ast) :
    trainCall (call (name deviceHelper) args keywords) = none := by
  rw [trainCall, callParts_call]
  rfl

theorem calls_name (id : String) : trainCalls (name id) = 0 ∧ helperCalls (name id) = 0 := ⟨rfl, rfl⟩

/-- No call of the kind is left. -/
theorem trainCalls_devicePolicy (t : Ast) : trainCalls (devicePolicy t) = 0 := by
  induction t using SyntaxTree.induct with
  | leaf value => rfl
  | list items ih =>
    rw [devicePolicy_list, trainCalls_list, List.map_map]
    exact sum_eq_zero_of_forall ih
  | node cls fields ih =>
    cases h : trainCall (.node cls fields) with
    | none =>
      have hbelow : ((visitFields fields).map fun field => trainCalls field.2).sum = 0 := by
        rw [visitFields, List.map_map]
        exact sum_eq_zero_of_forall ih
      rw [devicePolicy_other h, trainCalls_node, trainCall_visitFields, h, hbelow]
      rfl
    | some parts =>
      obtain ⟨func, args, keywords⟩ := parts
      obtain ⟨hfunc, hargs, hkeywords⟩ := forall_call (P := fun t => trainCalls (devicePolicy t) = 0)
        (trainCall_iff.mp h) ih
      rw [devicePolicy_list, trainCalls_list] at hargs hkeywords
      rw [devicePolicy_trainCall h, trainCalls_call, trainCall_helperCall, List.map_cons,
        List.sum_cons, hfunc, hargs, hkeywords, (calls_name deviceHelper).1]
      rfl

/-- Where there is no such call, nothing changes. -/
theorem devicePolicy_eq_self (t : Ast) (h : trainCalls t = 0) : devicePolicy t = t := by
  induction t using SyntaxTree.induct with
  | leaf value => rw [devicePolicy_leaf]
  | list items ih =>
    rw [trainCalls_list] at h
    rw [devicePolicy_list]
    have hsame : items.map devicePolicy = items.map id :=
      List.map_congr_left fun t ht => ih t ht (forall_of_sum_eq_zero h t ht)
    rw [hsame, List.map_id]
  | node cls fields ih =>
    rw [trainCalls_node, Nat.add_eq_zero_iff] at h
    have hnone : trainCall (.node cls fields) = none := by
      cases hcall : trainCall (.node cls fields) with
      | none => rfl
      | some parts =>
        rw [hcall] at h
        cases h.1
    rw [devicePolicy_other hnone]
    have hsame : visitFields fields = fields := by
      have hmap : visitFields fields = fields.map id := by
        refine List.map_congr_left fun field hfield => ?_
        have hzero := forall_of_sum_eq_zero (f := fun field => trainCalls field.2) h.2 field hfield
        rw [ih field hfield hzero]
        rfl
      rw [hmap, List.map_id]
    rw [hsame]

/-- A name comes from that name. -/
theorem of_devicePolicy_name {t : Ast} {id : String} (h : devicePolicy t = name id) : t = name id := by
  obtain ⟨fields, rfl, hfields⟩ := of_devicePolicy_node (by decide) h
  have hlength : fields.length = 2 := by
    have hmap := congrArg List.length hfields
    rwa [visitFields, List.length_map, eq_comm] at hmap
  obtain ⟨⟨_, x⟩, ⟨_, y⟩, rfl⟩ := List.length_eq_two.mp hlength
  simp only [visitFields, List.map_cons, List.map_nil, List.cons.injEq, Prod.mk.injEq, and_true] at hfields
  obtain ⟨⟨rfl, hx⟩, rfl, hy⟩ := hfields
  obtain ⟨below, rfl, hbelow⟩ := of_devicePolicy_node (by decide) hy.symm
  rw [devicePolicy_eq_leaf.mp hx.symm, List.map_eq_nil_iff.mp hbelow.symm]
  rfl

/-- A call of the helper was one before. -/
theorem isHelperCall_visitFields (cls : Cls) (fields : List (PythonAst.Field × Ast)) :
    isHelperCall (.node cls (visitFields fields)) = isHelperCall (.node cls fields) := by
  have hiff : ∀ node : Ast, isHelperCall node = true ↔
      ∃ args keywords, node = call (name deviceHelper) args keywords := by
    intro node
    rw [isHelperCall, Option.any_eq_true]
    constructor
    · rintro ⟨⟨func, args, keywords⟩, hparts, hname⟩
      obtain rfl : func = name deviceHelper := of_decide_eq_true hname
      exact ⟨args, keywords, eq_call_of_callParts hparts⟩
    · rintro ⟨args, keywords, rfl⟩
      exact ⟨_, callParts_call _ _ _, decide_eq_true rfl⟩
  rw [Bool.eq_iff_iff, hiff, hiff]
  constructor
  · rintro ⟨args, keywords, h⟩
    obtain ⟨rfl, hfields⟩ := SyntaxTree.node.inj h
    have hlength : fields.length = 3 := by
      have hmap := congrArg List.length hfields
      rwa [visitFields, List.length_map] at hmap
    obtain ⟨⟨_, x⟩, ⟨_, y⟩, ⟨_, z⟩, rfl⟩ := List.length_eq_three.mp hlength
    simp only [visitFields, List.map_cons, List.map_nil, List.cons.injEq, Prod.mk.injEq,
      and_true] at hfields
    obtain ⟨⟨rfl, hx⟩, ⟨rfl, hy⟩, rfl, hz⟩ := hfields
    obtain ⟨args', rfl, -⟩ := of_devicePolicy_list hy
    obtain ⟨keywords', rfl, -⟩ := of_devicePolicy_list hz
    exact ⟨args', keywords', by rw [of_devicePolicy_name hx]; rfl⟩
  · rintro ⟨args, keywords, h⟩
    obtain ⟨rfl, rfl⟩ := SyntaxTree.node.inj h
    have hname : devicePolicy (name deviceHelper) = name deviceHelper :=
      devicePolicy_eq_self _ (calls_name deviceHelper).1
    refine ⟨args.map devicePolicy, keywords.map devicePolicy, ?_⟩
    simp only [visitFields, List.map_cons, List.map_nil, devicePolicy_list, hname]
    rfl

/-- Every such call has become one call of the helper. -/
theorem helperCalls_devicePolicy (t : Ast) :
    helperCalls (devicePolicy t) = helperCalls t + trainCalls t := by
  have hsum : ∀ {items : List Ast}, (∀ t ∈ items, helperCalls (devicePolicy t) = helperCalls t + trainCalls t) →
      ((items.map devicePolicy).map helperCalls).sum =
        (items.map helperCalls).sum + (items.map trainCalls).sum := by
    intro items h
    rw [List.map_map, ← List.sum_map_add]
    exact congrArg List.sum (List.map_congr_left h)
  induction t using SyntaxTree.induct with
  | leaf value => rfl
  | list items ih =>
    rw [devicePolicy_list, helperCalls_list, helperCalls_list, trainCalls_list, hsum ih]
  | node cls fields ih =>
    cases h : trainCall (.node cls fields) with
    | none =>
      have hfields : ((visitFields fields).map fun field => helperCalls field.2).sum =
          (fields.map fun field => helperCalls field.2).sum +
            (fields.map fun field => trainCalls field.2).sum := by
        rw [visitFields, List.map_map, ← List.sum_map_add]
        exact congrArg List.sum (List.map_congr_left ih)
      have hown := isHelperCall_visitFields cls fields
      have hnone : (trainCall (.node cls fields)).isSome = false := by
        rw [h]
        rfl
      rw [devicePolicy_other h, helperCalls_node, helperCalls_node, trainCalls_node, hfields, hown,
        hnone, if_neg Bool.false_ne_true, Nat.zero_add, Nat.add_assoc]
    | some parts =>
      obtain ⟨func, args, keywords⟩ := parts
      have hcall := trainCall_iff.mp h
      obtain ⟨hfunc, hargs, hkeywords⟩ := forall_call
        (P := fun t => helperCalls (devicePolicy t) = helperCalls t + trainCalls t) hcall ih
      rw [devicePolicy_list, helperCalls_list, helperCalls_list, trainCalls_list] at hargs hkeywords
      have hmethod : func ≠ name deviceHelper := by
        rintro rfl
        cases hcall.method
      rw [devicePolicy_trainCall h, hcall.parts, helperCalls_call, helperCalls_call, trainCalls_call,
        if_pos rfl, if_neg hmethod, List.map_cons, List.sum_cons, hfunc, hargs, hkeywords,
        (calls_name deviceHelper).2, ← hcall.parts, h]
      simp only [Option.isSome_some, if_true]
      omega

/-! ### Scripts -/

theorem calls_helper : trainCalls helper = 0 ∧ helperCalls helper = 0 := by
  decide +kernel

/-- What becomes the helper is the helper. -/
theorem of_devicePolicy_helper {t : Ast} (h : devicePolicy t = helper) : t = helper := by
  have hcalls := helperCalls_devicePolicy t
  rw [h, calls_helper.2] at hcalls
  have hsame := devicePolicy_eq_self t (by omega)
  rw [← hsame, h]

/-- The statements of a script that are rewritten. -/
def kept (body : List Ast) : List Ast := body.filter fun node => node ∉ [helper]

theorem rewriteScript_eq (body : List Ast) :
    rewriteScript body = insertAfterOpening [helper] ((kept body).map devicePolicy) := rfl

theorem helper_notMem (body : List Ast) : helper ∉ (kept body).map devicePolicy := by
  intro hmem
  obtain ⟨t, ht, heq⟩ := List.mem_map.mp hmem
  obtain ⟨-, hkept⟩ := List.mem_filter.mp ht
  rw [of_devicePolicy_helper heq] at hkept
  exact of_decide_eq_true hkept List.mem_cons_self

/-- What a script becomes: the statements, rewritten, with the helper once, after
the docstring and the imports from `__future__`. -/
structure Guarded (body result : List Ast) : Prop where
  placed : ∃ head tail, result = head ++ helper :: tail ∧ Opening head tail ∧
    helper ∉ head ++ tail ∧ List.Forall₂ Rewritten (kept body) (head ++ tail)
  once : result.count helper = 1
  noTrain : ∀ stmt ∈ result, trainCalls stmt = 0
  helperCalls : (result.map helperCalls).sum =
    ((kept body).map helperCalls).sum + ((kept body).map trainCalls).sum

theorem guarded_rewriteScript (body : List Ast) : Guarded body (rewriteScript body) := by
  have hsplit : ∀ visited : List Ast, insertAfterOpening [helper] visited =
      visited.take (opening visited) ++ helper :: visited.drop (opening visited) := by
    intro visited
    rw [insertAfterOpening, List.append_assoc]
    rfl
  have hperm : (rewriteScript body).Perm (helper :: (kept body).map devicePolicy) := by
    rw [rewriteScript_eq, hsplit]
    refine List.perm_middle.trans ?_
    rw [List.take_append_drop]
  constructor
  · refine ⟨_, _, (rewriteScript_eq body).trans (hsplit _), opening_split _, ?_, ?_⟩
    · rw [List.take_append_drop]
      exact helper_notMem body
    · rw [List.take_append_drop]
      exact forall₂_map fun t _ => rewritten_devicePolicy t
  · rw [hperm.count_eq, List.count_cons_self, List.count_eq_zero_of_not_mem (helper_notMem body)]
  · intro stmt hstmt
    obtain rfl | hvisited := List.mem_cons.mp (hperm.mem_iff.mp hstmt)
    · exact calls_helper.1
    · obtain ⟨t, -, rfl⟩ := List.mem_map.mp hvisited
      exact trainCalls_devicePolicy t
  · rw [(hperm.map _).sum_eq, List.map_cons, List.sum_cons, calls_helper.2, Nat.zero_add,
      List.map_map, ← List.sum_map_add]
    exact congrArg List.sum (List.map_congr_left fun t _ => helperCalls_devicePolicy t)

/-- Statements without such calls stay as they are. -/
theorem map_devicePolicy_eq_self {body : List Ast} (h : ∀ stmt ∈ body, trainCalls stmt = 0) :
    body.map devicePolicy = body := by
  have hsame : body.map devicePolicy = body.map id :=
    List.map_congr_left fun stmt hstmt => devicePolicy_eq_self stmt (h stmt hstmt)
  rw [hsame, List.map_id]

/-- A script that has been rewritten stays as it is. -/
theorem rewriteScript_rewriteScript (body : List Ast) :
    rewriteScript (rewriteScript body) = rewriteScript body := by
  have hkept : kept (rewriteScript body) = (kept body).map devicePolicy := by
    have hnone : ∀ t ∈ (kept body).map devicePolicy, t ∉ [helper] := by
      intro t ht hhelper
      rw [List.mem_singleton.mp hhelper] at ht
      exact helper_notMem body ht
    have hall : ∀ part : List Ast, (∀ t ∈ part, t ∈ (kept body).map devicePolicy) → kept part = part := by
      intro part hpart
      exact List.filter_eq_self.mpr fun t ht => decide_eq_true (hnone t (hpart t ht))
    have hhelper : kept [helper] = [] := by
      rw [kept, List.filter_cons, if_neg (by simp)]
      rfl
    rw [rewriteScript_eq, insertAfterOpening, kept, List.filter_append, List.filter_append]
    show kept _ ++ kept [helper] ++ kept _ = _
    rw [hhelper, hall _ fun t ht => List.mem_of_mem_take ht, hall _ fun t ht => List.mem_of_mem_drop ht,
      List.append_nil, List.take_append_drop]
  have hvisited : ((kept body).map devicePolicy).map devicePolicy = (kept body).map devicePolicy := by
    refine map_devicePolicy_eq_self ?_
    intro stmt hstmt
    obtain ⟨t, -, rfl⟩ := List.mem_map.mp hstmt
    exact trainCalls_devicePolicy t
  rw [rewriteScript_eq (rewriteScript body), hkept, hvisited, rewriteScript_eq]

theorem rewriteCell_rewriteCell (body : List Ast) : rewriteCell (rewriteCell body) = rewriteCell body := by
  refine map_devicePolicy_eq_self ?_
  intro stmt hstmt
  obtain ⟨t, -, rfl⟩ := List.mem_map.mp hstmt
  exact trainCalls_devicePolicy t

/-- Printing these statements and parsing the text gives them back. -/
def RoundTrips (py : Python) (body : List Ast) : Prop := py.parse (py.unparse body ++ "\n") = some body

theorem rewritePython_script {py : Python} {source : String} {body : List Ast}
    (hparse : py.parse source = some body) (htrip : RoundTrips py (rewriteScript body)) :
    rewritePython py source true = some (py.unparse (rewriteScript body) ++ "\n") ∧
      rewritePython py (py.unparse (rewriteScript body) ++ "\n") true =
        some (py.unparse (rewriteScript body) ++ "\n") := by
  have htrip' : py.parse (py.unparse (rewriteScript body) ++ "\n") = some (rewriteScript body) := htrip
  constructor
  · rw [rewritePython, hparse]
    rfl
  · rw [rewritePython, htrip', Option.map_some, if_pos rfl, rewriteScript_rewriteScript]

theorem rewritePython_cell {py : Python} {source : String} {body : List Ast}
    (hparse : py.parse source = some body) (htrip : RoundTrips py (rewriteCell body)) :
    rewritePython py source false = some (py.unparse (rewriteCell body) ++ "\n") ∧
      rewritePython py (py.unparse (rewriteCell body) ++ "\n") false =
        some (py.unparse (rewriteCell body) ++ "\n") := by
  have htrip' : py.parse (py.unparse (rewriteCell body) ++ "\n") = some (rewriteCell body) := htrip
  constructor
  · rw [rewritePython, hparse]
    rfl
  · rw [rewritePython, htrip', Option.map_some, if_neg Bool.false_ne_true, rewriteCell_rewriteCell]

end Gpu

end KaggleRelay
