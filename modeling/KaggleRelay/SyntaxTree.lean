/-
Syntax trees with named fields, and rewriting them.

A tree is a leaf, a node of a class with its fields, or the list that a field
holds.

* `SyntaxTree.induct` — the induction over all three;
* `SyntaxTree.same` — equality, decided;
* `mapNodes` — every node rewritten, after what is below it;
* `count` — the number of nodes with a property;
* `expandLists` — the items of every list replaced, without entering some nodes;
* `expandLists_expandLists`, `everyList_expandLists`, `weight_expandLists` — when
  a second time changes nothing, what every list is like, and what is preserved.
-/
import Mathlib.Algebra.Order.BigOperators.Group.List
import Mathlib.Algebra.Order.Ring.Nat

inductive SyntaxTree (C F L : Type) where
  | leaf (value : L)
  | node (cls : C) (fields : List (F × SyntaxTree C F L))
  | list (items : List (SyntaxTree C F L))

namespace SyntaxTree

variable {C F L : Type}

theorem sizeOf_field {fields : List (F × SyntaxTree C F L)} {field : F × SyntaxTree C F L} (h : field ∈ fields) :
    sizeOf field.2 < sizeOf fields := by
  have hlt : sizeOf field < sizeOf fields := List.sizeOf_lt_of_mem h
  have hfield : sizeOf field = 1 + sizeOf field.1 + sizeOf field.2 := by
    obtain ⟨name, tree⟩ := field
    simp
  omega

/-- Induction over a tree, its fields and its lists. -/
theorem induct {motive : SyntaxTree C F L → Prop} (leaf : ∀ value, motive (.leaf value))
    (node : ∀ cls fields, (∀ field ∈ fields, motive field.2) → motive (.node cls fields))
    (list : ∀ items, (∀ t ∈ items, motive t) → motive (.list items)) : ∀ t, motive t
  | .leaf value => leaf value
  | .node cls fields => node cls fields fun field hfield => by
      have := sizeOf_field hfield
      exact induct leaf node list field.2
  | .list items => list items fun t ht => by
      have := List.sizeOf_lt_of_mem ht
      exact induct leaf node list t
termination_by t => sizeOf t

/-- A field of a node. -/
def get [DecidableEq F] : SyntaxTree C F L → F → Option (SyntaxTree C F L)
  | .node _ fields, name => fields.lookup name
  | _, _ => none

/-! ### Equality -/

section Same

variable [DecidableEq C] [DecidableEq F] [DecidableEq L]

mutual

def same : SyntaxTree C F L → SyntaxTree C F L → Bool
  | .leaf a, .leaf b => decide (a = b)
  | .node a xs, .node b ys => decide (a = b) && sameFields xs ys
  | .list xs, .list ys => sameItems xs ys
  | _, _ => false

def sameFields : List (F × SyntaxTree C F L) → List (F × SyntaxTree C F L) → Bool
  | [], [] => true
  | (a, x) :: xs, (b, y) :: ys => decide (a = b) && same x y && sameFields xs ys
  | _, _ => false

def sameItems : List (SyntaxTree C F L) → List (SyntaxTree C F L) → Bool
  | [], [] => true
  | x :: xs, y :: ys => same x y && sameItems xs ys
  | _, _ => false

end

mutual

theorem same_iff : ∀ x y : SyntaxTree C F L, same x y = true ↔ x = y
  | .leaf a, .leaf b => by
    rw [same, decide_eq_true_iff]
    exact ⟨congrArg _, SyntaxTree.leaf.inj⟩
  | .node a xs, .node b ys => by
    rw [same, Bool.and_eq_true, decide_eq_true_iff, sameFields_iff xs ys]
    exact ⟨fun ⟨h, h'⟩ => h ▸ h' ▸ rfl, SyntaxTree.node.inj⟩
  | .list xs, .list ys => by
    rw [same, sameItems_iff xs ys]
    exact ⟨congrArg _, SyntaxTree.list.inj⟩
  | .leaf _, .node _ _ | .leaf _, .list _ | .node _ _, .leaf _ | .node _ _, .list _
  | .list _, .leaf _ | .list _, .node _ _ => by
    constructor <;> intro h <;> cases h

theorem sameFields_iff : ∀ xs ys : List (F × SyntaxTree C F L), sameFields xs ys = true ↔ xs = ys
  | [], [] => ⟨fun _ => rfl, fun _ => rfl⟩
  | (a, x) :: xs, (b, y) :: ys => by
    rw [sameFields, Bool.and_eq_true, Bool.and_eq_true, decide_eq_true_iff, same_iff x y,
      sameFields_iff xs ys, List.cons.injEq, Prod.mk.injEq]
  | [], _ :: _ | _ :: _, [] => by
    constructor <;> intro h <;> cases h

theorem sameItems_iff : ∀ xs ys : List (SyntaxTree C F L), sameItems xs ys = true ↔ xs = ys
  | [], [] => ⟨fun _ => rfl, fun _ => rfl⟩
  | x :: xs, y :: ys => by
    rw [sameItems, Bool.and_eq_true, same_iff x y, sameItems_iff xs ys, List.cons.injEq]
  | [], _ :: _ | _ :: _, [] => by
    constructor <;> intro h <;> cases h

end

instance : DecidableEq (SyntaxTree C F L) := fun x y => decidable_of_iff _ (same_iff x y)

end Same

/-! ### Rewriting every node -/

section Map

variable (f : SyntaxTree C F L → SyntaxTree C F L)

mutual

/-- Every node rewritten, after what is below it. -/
def mapNodes : SyntaxTree C F L → SyntaxTree C F L
  | .leaf value => .leaf value
  | .node cls fields => f (.node cls (mapFields fields))
  | .list items => .list (mapItems items)

def mapFields : List (F × SyntaxTree C F L) → List (F × SyntaxTree C F L)
  | [] => []
  | (name, t) :: rest => (name, mapNodes t) :: mapFields rest

def mapItems : List (SyntaxTree C F L) → List (SyntaxTree C F L)
  | [] => []
  | t :: rest => mapNodes t :: mapItems rest

end

theorem mapFields_eq (fields : List (F × SyntaxTree C F L)) :
    mapFields f fields = fields.map fun field => (field.1, mapNodes f field.2) := by
  induction fields with
  | nil => rfl
  | cons field rest ih => rw [mapFields, ih, List.map_cons]

theorem mapItems_eq (items : List (SyntaxTree C F L)) : mapItems f items = items.map (mapNodes f) := by
  induction items with
  | nil => rfl
  | cons t rest ih => rw [mapItems, ih, List.map_cons]

@[simp] theorem mapNodes_leaf (value : L) : mapNodes f (.leaf value) = .leaf value := by
  rw [mapNodes]

@[simp] theorem mapNodes_list (items : List (SyntaxTree C F L)) :
    mapNodes f (.list items) = .list (items.map (mapNodes f)) := by
  rw [mapNodes, mapItems_eq]

theorem mapNodes_node (cls : C) (fields : List (F × SyntaxTree C F L)) :
    mapNodes f (.node cls fields) =
      f (.node cls (fields.map fun field => (field.1, mapNodes f field.2))) := by
  rw [mapNodes, mapFields_eq]

/-- The fields of a node that has been rewritten below. -/
theorem lookup_mapNodes [DecidableEq F] (fields : List (F × SyntaxTree C F L)) (name : F) :
    (fields.map fun field => (field.1, mapNodes f field.2)).lookup name =
      (fields.lookup name).map (mapNodes f) := by
  induction fields with
  | nil => rfl
  | cons field rest ih =>
    rw [List.map_cons, List.lookup_cons, List.lookup_cons, ih]
    split <;> rfl

end Map

/-! ### Counting nodes -/

section Count

variable (p : SyntaxTree C F L → Bool)

mutual

/-- The number of nodes with a property. -/
def count : SyntaxTree C F L → ℕ
  | .leaf _ => 0
  | .node cls fields => (if p (.node cls fields) then 1 else 0) + countFields fields
  | .list items => countItems items

def countFields : List (F × SyntaxTree C F L) → ℕ
  | [] => 0
  | (_, t) :: rest => count t + countFields rest

def countItems : List (SyntaxTree C F L) → ℕ
  | [] => 0
  | t :: rest => count t + countItems rest

end

theorem countFields_eq (fields : List (F × SyntaxTree C F L)) :
    countFields p fields = (fields.map fun field => count p field.2).sum := by
  induction fields with
  | nil => rfl
  | cons field rest ih => rw [countFields, ih, List.map_cons, List.sum_cons]

theorem countItems_eq (items : List (SyntaxTree C F L)) :
    countItems p items = (items.map (count p)).sum := by
  induction items with
  | nil => rfl
  | cons t rest ih => rw [countItems, ih, List.map_cons, List.sum_cons]

@[simp] theorem count_leaf (value : L) : count p (.leaf value) = 0 := by
  rw [count]

@[simp] theorem count_list (items : List (SyntaxTree C F L)) :
    count p (.list items) = (items.map (count p)).sum := by
  rw [count, countItems_eq]

theorem count_node (cls : C) (fields : List (F × SyntaxTree C F L)) :
    count p (.node cls fields) =
      (if p (.node cls fields) then 1 else 0) + (fields.map fun field => count p field.2).sum := by
  rw [count, countFields_eq]

end Count

/-! ### Replacing the items of lists -/

section Lists

variable (stop : C → Bool) (expand : SyntaxTree C F L → List (SyntaxTree C F L))

/-- A node that is not entered. -/
def stopped : SyntaxTree C F L → Bool
  | .node cls _ => stop cls
  | _ => false

mutual

/-- In every list the stopped nodes replaced, and the others rewritten below. -/
def expandLists : SyntaxTree C F L → SyntaxTree C F L
  | .leaf value => .leaf value
  | .node cls fields => if stop cls then .node cls fields else .node cls (expandFields fields)
  | .list items => .list (expandItems items)

def expandFields : List (F × SyntaxTree C F L) → List (F × SyntaxTree C F L)
  | [] => []
  | (name, t) :: rest => (name, expandLists t) :: expandFields rest

def expandItems : List (SyntaxTree C F L) → List (SyntaxTree C F L)
  | [] => []
  | t :: rest => (if stopped stop t then expand t else [expandLists t]) ++ expandItems rest

end

/-- What one item becomes. -/
def expandItem (t : SyntaxTree C F L) : List (SyntaxTree C F L) :=
  if stopped stop t then expand t else [expandLists stop expand t]

theorem expandFields_eq (fields : List (F × SyntaxTree C F L)) :
    expandFields stop expand fields =
      fields.map fun field => (field.1, expandLists stop expand field.2) := by
  induction fields with
  | nil => rfl
  | cons field rest ih => rw [expandFields, ih, List.map_cons]

theorem expandItems_eq (items : List (SyntaxTree C F L)) :
    expandItems stop expand items = items.flatMap (expandItem stop expand) := by
  induction items with
  | nil => rfl
  | cons t rest ih => rw [expandItems, ih, List.flatMap_cons, expandItem]

@[simp] theorem expandLists_leaf (value : L) : expandLists stop expand (.leaf value) = .leaf value := by
  rw [expandLists]

@[simp] theorem expandLists_list (items : List (SyntaxTree C F L)) :
    expandLists stop expand (.list items) = .list (expandItems stop expand items) := by
  rw [expandLists]

theorem expandLists_stopped {cls : C} (hstop : stop cls = true) (fields : List (F × SyntaxTree C F L)) :
    expandLists stop expand (.node cls fields) = .node cls fields := by
  rw [expandLists, if_pos hstop]

theorem expandLists_entered {cls : C} (hstop : stop cls = false) (fields : List (F × SyntaxTree C F L)) :
    expandLists stop expand (.node cls fields) =
      .node cls (fields.map fun field => (field.1, expandLists stop expand field.2)) := by
  rw [expandLists, hstop, if_neg Bool.false_ne_true, expandFields_eq]

/-- The class of a node does not change. -/
@[simp] theorem stopped_expandLists (t : SyntaxTree C F L) :
    stopped stop (expandLists stop expand t) = stopped stop t := by
  cases t with
  | leaf value => rw [expandLists_leaf]
  | list items => rw [expandLists_list]; rfl
  | node cls fields =>
    by_cases hstop : stop cls = true
    · rw [expandLists_stopped stop expand hstop]
    · rw [expandLists_entered stop expand (Bool.eq_false_iff.mpr hstop)]
      rfl

theorem expandItem_stopped {t : SyntaxTree C F L} (h : stopped stop t = true) :
    expandItem stop expand t = expand t := by
  rw [expandItem, if_pos h]

theorem expandItem_entered {t : SyntaxTree C F L} (h : stopped stop t = false) :
    expandItem stop expand t = [expandLists stop expand t] := by
  rw [expandItem, h, if_neg Bool.false_ne_true]

theorem expandItems_append (xs ys : List (SyntaxTree C F L)) :
    expandItems stop expand (xs ++ ys) = expandItems stop expand xs ++ expandItems stop expand ys := by
  rw [expandItems_eq, expandItems_eq, expandItems_eq, List.flatMap_append]

variable {stop expand}

/-- Where a second expansion of a stopped node changes nothing, neither does one
of a whole tree. -/
theorem expandLists_expandLists (hstop : ∀ t, stopped stop t = true → ∀ u ∈ expand t, stopped stop u = true)
    (hidem : ∀ t, stopped stop t = true → (expand t).flatMap expand = expand t) (t : SyntaxTree C F L) :
    expandLists stop expand (expandLists stop expand t) = expandLists stop expand t := by
  induction t using SyntaxTree.induct with
  | leaf value => rw [expandLists_leaf, expandLists_leaf]
  | node cls fields ih =>
    by_cases hcls : stop cls = true
    · rw [expandLists_stopped stop expand hcls, expandLists_stopped stop expand hcls]
    · have hcls' : stop cls = false := Bool.eq_false_iff.mpr hcls
      rw [expandLists_entered stop expand hcls', expandLists_entered stop expand hcls', List.map_map]
      congr 1
      refine List.map_congr_left ?_
      intro field hfield
      show (field.1, _) = (field.1, _)
      rw [ih field hfield]
  | list items ih =>
    rw [expandLists_list, expandLists_list, expandItems_eq, expandItems_eq, List.flatMap_assoc]
    congr 1
    refine List.flatMap_congr ?_
    intro t ht
    by_cases hs : stopped stop t = true
    · rw [expandItem_stopped stop expand hs]
      have hsame : (expand t).flatMap (expandItem stop expand) = (expand t).flatMap expand :=
        List.flatMap_congr fun u hu => expandItem_stopped stop expand (hstop t hs u hu)
      rw [hsame, hidem t hs]
    · have hs' : stopped stop t = false := Bool.eq_false_iff.mpr hs
      rw [expandItem_entered stop expand hs', List.flatMap_singleton,
        expandItem_entered stop expand ((stopped_expandLists stop expand t).trans hs'), ih t ht]

theorem expandItems_expandItems (hstop : ∀ t, stopped stop t = true → ∀ u ∈ expand t, stopped stop u = true)
    (hidem : ∀ t, stopped stop t = true → (expand t).flatMap expand = expand t)
    (items : List (SyntaxTree C F L)) :
    expandItems stop expand (expandItems stop expand items) = expandItems stop expand items := by
  have h := expandLists_expandLists hstop hidem (.list items)
  rw [expandLists_list, expandLists_list] at h
  exact SyntaxTree.list.inj h

variable (stop) in
/-- Every list that is not below a stopped node has the property. -/
inductive EveryList (P : List (SyntaxTree C F L) → Prop) : SyntaxTree C F L → Prop
  | leaf (value : L) : EveryList P (.leaf value)
  | stopped {cls : C} {fields : List (F × SyntaxTree C F L)} : stop cls = true → EveryList P (.node cls fields)
  | node {cls : C} {fields : List (F × SyntaxTree C F L)} :
      (∀ field ∈ fields, EveryList P field.2) → EveryList P (.node cls fields)
  | list {items : List (SyntaxTree C F L)} : P items → (∀ t ∈ items, EveryList P t) → EveryList P (.list items)

/-- What the expansion of every list has, every list has in the end. -/
theorem everyList_expandLists {P : List (SyntaxTree C F L) → Prop}
    (hstop : ∀ t, stopped stop t = true → ∀ u ∈ expand t, stopped stop u = true)
    (h : ∀ items, P (expandItems stop expand items)) (t : SyntaxTree C F L) :
    EveryList stop P (expandLists stop expand t) := by
  have hstopped : ∀ u : SyntaxTree C F L, stopped stop u = true → EveryList stop P u := by
    intro u hu
    cases u with
    | leaf value => exact .leaf value
    | node cls fields => exact .stopped hu
    | list items => cases hu
  induction t using SyntaxTree.induct with
  | leaf value =>
    rw [expandLists_leaf]
    exact .leaf value
  | node cls fields ih =>
    by_cases hcls : stop cls = true
    · rw [expandLists_stopped stop expand hcls]
      exact .stopped hcls
    · rw [expandLists_entered stop expand (Bool.eq_false_iff.mpr hcls)]
      refine .node ?_
      intro field hfield
      obtain ⟨field', hfield', rfl⟩ := List.mem_map.mp hfield
      exact ih field' hfield'
  | list items ih =>
    rw [expandLists_list]
    refine .list (h items) ?_
    intro u hu
    rw [expandItems_eq, List.mem_flatMap] at hu
    obtain ⟨t, ht, hu⟩ := hu
    by_cases hs : stopped stop t = true
    · rw [expandItem_stopped stop expand hs] at hu
      exact hstopped u (hstop t hs u hu)
    · rw [expandItem_entered stop expand (Bool.eq_false_iff.mpr hs), List.mem_singleton] at hu
      rw [hu]
      exact ih t ht

/-! ### A weight of the stopped nodes -/

variable (stop) (weigh : SyntaxTree C F L → ℕ)

mutual

/-- The weight of the stopped nodes in the lists. -/
def weight : SyntaxTree C F L → ℕ
  | .leaf _ => 0
  | .node cls fields => if stop cls then 0 else weightFields fields
  | .list items => weightItems items

def weightFields : List (F × SyntaxTree C F L) → ℕ
  | [] => 0
  | (_, t) :: rest => weight t + weightFields rest

def weightItems : List (SyntaxTree C F L) → ℕ
  | [] => 0
  | t :: rest => (if stopped stop t then weigh t else weight t) + weightItems rest

end

/-- What one item weighs. -/
def weightItem (t : SyntaxTree C F L) : ℕ := if stopped stop t then weigh t else weight stop weigh t

theorem weightFields_eq (fields : List (F × SyntaxTree C F L)) :
    weightFields stop weigh fields = (fields.map fun field => weight stop weigh field.2).sum := by
  induction fields with
  | nil => rfl
  | cons field rest ih => rw [weightFields, ih, List.map_cons, List.sum_cons]

theorem weightItems_eq (items : List (SyntaxTree C F L)) :
    weightItems stop weigh items = (items.map (weightItem stop weigh)).sum := by
  induction items with
  | nil => rfl
  | cons t rest ih => rw [weightItems, ih, List.map_cons, List.sum_cons, weightItem]

theorem weightItems_append (xs ys : List (SyntaxTree C F L)) :
    weightItems stop weigh (xs ++ ys) = weightItems stop weigh xs + weightItems stop weigh ys := by
  rw [weightItems_eq, weightItems_eq, weightItems_eq, List.map_append, List.sum_append]

variable {stop weigh}

/-- Where the expansion of a stopped node weighs what the node does, so does that
of a whole tree. -/
theorem weight_expandLists (hstop : ∀ t, stopped stop t = true → ∀ u ∈ expand t, stopped stop u = true)
    (hweigh : ∀ t, stopped stop t = true → ((expand t).map weigh).sum = weigh t) (t : SyntaxTree C F L) :
    weight stop weigh (expandLists stop expand t) = weight stop weigh t := by
  induction t using SyntaxTree.induct with
  | leaf value => rw [expandLists_leaf]
  | node cls fields ih =>
    by_cases hcls : stop cls = true
    · rw [expandLists_stopped stop expand hcls]
    · rw [expandLists_entered stop expand (Bool.eq_false_iff.mpr hcls), weight, weight, if_neg hcls,
        if_neg hcls, weightFields_eq, weightFields_eq, List.map_map]
      exact congrArg List.sum (List.map_congr_left ih)
  | list items ih =>
    rw [expandLists_list, weight, weight]
    induction items with
    | nil => rfl
    | cons t rest ihrest =>
      rw [expandItems, weightItems_append, weightItems,
        ihrest fun u hu => ih u (List.mem_cons_of_mem t hu)]
      congr 1
      by_cases hs : stopped stop t = true
      · rw [if_pos hs, if_pos hs, weightItems_eq, ← hweigh t hs]
        refine congrArg List.sum (List.map_congr_left ?_)
        intro u hu
        rw [weightItem, if_pos (hstop t hs u hu)]
      · rw [if_neg hs, if_neg hs, weightItems, stopped_expandLists, if_neg hs,
          ih t List.mem_cons_self]
        rfl

theorem weightItems_expandItems (hstop : ∀ t, stopped stop t = true → ∀ u ∈ expand t, stopped stop u = true)
    (hweigh : ∀ t, stopped stop t = true → ((expand t).map weigh).sum = weigh t)
    (items : List (SyntaxTree C F L)) :
    weightItems stop weigh (expandItems stop expand items) = weightItems stop weigh items := by
  have h := weight_expandLists hstop hweigh (.list items)
  rwa [expandLists_list, weight, weight] at h

/-- Where the stopped nodes weigh nothing, two expansions that agree on such
nodes are the same. -/
theorem expandLists_congr {expand' : SyntaxTree C F L → List (SyntaxTree C F L)}
    (hsame : ∀ t, stopped stop t = true → weigh t = 0 → expand t = expand' t)
    (t : SyntaxTree C F L) (hzero : weight stop weigh t = 0) :
    expandLists stop expand t = expandLists stop expand' t := by
  induction t using SyntaxTree.induct with
  | leaf value => rw [expandLists_leaf, expandLists_leaf]
  | node cls fields ih =>
    by_cases hcls : stop cls = true
    · rw [expandLists_stopped stop expand hcls, expandLists_stopped stop expand' hcls]
    · have hcls' : stop cls = false := Bool.eq_false_iff.mpr hcls
      rw [weight, if_neg hcls, weightFields_eq, List.sum_eq_zero_iff] at hzero
      rw [expandLists_entered stop expand hcls', expandLists_entered stop expand' hcls']
      congr 1
      refine List.map_congr_left ?_
      intro field hfield
      rw [ih field hfield (hzero _ (List.mem_map_of_mem hfield))]
  | list items ih =>
    rw [weight, weightItems_eq, List.sum_eq_zero_iff] at hzero
    rw [expandLists_list, expandLists_list, expandItems_eq, expandItems_eq]
    congr 1
    refine List.flatMap_congr ?_
    intro u hu
    have hu0 := hzero _ (List.mem_map_of_mem hu)
    rw [weightItem] at hu0
    by_cases hs : stopped stop u = true
    · rw [if_pos hs] at hu0
      rw [expandItem_stopped stop expand hs, expandItem_stopped stop expand' hs, hsame u hs hu0]
    · have hs' : stopped stop u = false := Bool.eq_false_iff.mpr hs
      rw [if_neg hs] at hu0
      rw [expandItem_entered stop expand hs', expandItem_entered stop expand' hs', ih u hu hu0]

/-- One that replaces every stopped node by itself changes nothing. -/
theorem expandLists_singleton (t : SyntaxTree C F L) : expandLists stop (fun u => [u]) t = t := by
  induction t using SyntaxTree.induct with
  | leaf value => rw [expandLists_leaf]
  | node cls fields ih =>
    by_cases hcls : stop cls = true
    · rw [expandLists_stopped stop _ hcls]
    · rw [expandLists_entered stop _ (Bool.eq_false_iff.mpr hcls)]
      congr 1
      conv_rhs => rw [← List.map_id fields]
      refine List.map_congr_left ?_
      intro field hfield
      show (field.1, _) = (field.1, field.2)
      rw [ih field hfield]
  | list items ih =>
    rw [expandLists_list, expandItems_eq]
    congr 1
    conv_rhs => rw [← List.flatMap_singleton' items]
    refine List.flatMap_congr ?_
    intro u hu
    by_cases hs : stopped stop u = true
    · rw [expandItem_stopped stop _ hs]
    · rw [expandItem_entered stop _ (Bool.eq_false_iff.mpr hs), ih u hu]

theorem expandItems_eq_self (hsame : ∀ t, stopped stop t = true → weigh t = 0 → expand t = [t])
    {items : List (SyntaxTree C F L)} (hzero : weightItems stop weigh items = 0) :
    expandItems stop expand items = items := by
  have h := expandLists_congr hsame (.list items) (by rw [weight, hzero])
  rw [expandLists_singleton, expandLists_list] at h
  exact SyntaxTree.list.inj h

end Lists

end SyntaxTree
