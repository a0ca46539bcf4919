/-
Dicts with text keys.

A `Dict` is a Python dict whose order nobody observes: two dicts with the same
items are equal, and `toList` lists the items in the order of `sorted(d)`.  It
is the ordered map of the standard library; here are the facts about sizes and
contained dicts that it lacks.
-/
import Std.Data.ExtTreeMap.Lemmas
import Mathlib.Data.List.Perm.Subperm

/-- A dict with text keys. -/
abbrev Dict (V : Type) := Std.ExtTreeMap String V compare

namespace Dict

variable {V : Type}

/-- Every item of `m` is an item of `n`. -/
def Within (m n : Dict V) : Prop := ∀ (k : String) (v : V), m[k]? = some v → n[k]? = some v

theorem Within.refl (m : Dict V) : Within m m := fun _ _ h => h

theorem within_empty (n : Dict V) : Within ∅ n := by
  intro k v h
  simp at h

/-- Adding an item of the larger dict keeps the smaller one within it. -/
theorem Within.insert {m n : Dict V} {k : String} {v : V} (h : Within m n)
    (hk : n[k]? = some v) : Within (m.insert k v) n := by
  intro j u hj
  rw [Std.ExtTreeMap.getElem?_insert] at hj
  split at hj
  · next heq =>
    rw [Std.LawfulEqCmp.eq_of_compare heq] at hk
    rw [hk, hj]
  · exact h j u hj

/-- A dict within another of the same size is that dict. -/
theorem Within.eq_of_size {m n : Dict V} (h : Within m n) (hs : m.size = n.size) : m = n := by
  have hsub : m.keys ⊆ n.keys := by
    intro k hk
    rw [Std.ExtTreeMap.mem_keys] at hk ⊢
    have := h k m[k] (Std.ExtTreeMap.getElem?_eq_some_getElem hk)
    exact Std.ExtTreeMap.mem_iff_isSome_getElem?.mpr (by simp [this])
  have hperm : m.keys.Perm n.keys := by
    refine (List.subperm_of_subset Std.ExtTreeMap.nodup_keys hsub).perm_of_length_le ?_
    exact Nat.le_of_eq (by rw [Std.ExtTreeMap.length_keys, Std.ExtTreeMap.length_keys, hs])
  refine Std.ExtTreeMap.ext_getElem? fun k => ?_
  by_cases hk : k ∈ m
  · have hmk := Std.ExtTreeMap.getElem?_eq_some_getElem hk
    rw [hmk, h k _ hmk]
  · have hkn : k ∉ n := by
      intro hkn
      rw [← Std.ExtTreeMap.mem_keys] at hkn
      exact hk (Std.ExtTreeMap.mem_keys.mp (hperm.mem_iff.mpr hkn))
    rw [Std.ExtTreeMap.getElem?_eq_none hk, Std.ExtTreeMap.getElem?_eq_none hkn]

theorem ofList_toList (m : Dict V) : (Std.ExtTreeMap.ofList m.toList : Dict V) = m := by
  refine Std.ExtTreeMap.ext_getElem? fun k => ?_
  cases hk : m[k]? with
  | none =>
    rw [Std.ExtTreeMap.getElem?_ofList_of_contains_eq_false]
    rw [Std.ExtTreeMap.map_fst_toList_eq_keys]
    have : k ∉ m := by
      intro h
      rw [Std.ExtTreeMap.mem_iff_isSome_getElem?, hk] at h
      cases h
    simpa using this
  | some v =>
    exact Std.ExtTreeMap.getElem?_ofList_of_mem Std.ReflCmp.compare_self
      Std.ExtTreeMap.distinct_keys_toList
      (Std.ExtTreeMap.mem_toList_iff_getElem?_eq_some.mpr hk)

/-- No key is listed twice. -/
theorem nodup_keys_toList (m : Dict V) : (m.toList.map Prod.fst).Nodup := by
  rw [Std.ExtTreeMap.map_fst_toList_eq_keys]
  exact Std.ExtTreeMap.nodup_keys

/-! ### Dicts of listed items -/

theorem pairwise_of_nodup {items : List (String × V)} (h : (items.map Prod.fst).Nodup) :
    items.Pairwise fun a b => ¬compare a.1 b.1 = .eq := by
  have hpairwise : items.Pairwise fun a b => a.1 ≠ b.1 := List.pairwise_map.mp h
  exact hpairwise.imp fun hne heq => hne (Std.LawfulEqCmp.eq_of_compare heq)

theorem size_ofList {items : List (String × V)} (h : (items.map Prod.fst).Nodup) :
    (Std.ExtTreeMap.ofList items : Dict V).size = items.length :=
  Std.ExtTreeMap.size_ofList (pairwise_of_nodup h)

/-- The items of a dict of items with different keys. -/
theorem getElem?_ofList {items : List (String × V)} (h : (items.map Prod.fst).Nodup) (k : String)
    (v : V) : (Std.ExtTreeMap.ofList items : Dict V)[k]? = some v ↔ (k, v) ∈ items := by
  have hof : ∀ u, (k, u) ∈ items → (Std.ExtTreeMap.ofList items : Dict V)[k]? = some u := fun u hu =>
    Std.ExtTreeMap.getElem?_ofList_of_mem Std.ReflCmp.compare_self (pairwise_of_nodup h) hu
  constructor
  · intro hv
    by_cases hk : k ∈ items.map Prod.fst
    · obtain ⟨⟨k', u⟩, hu, rfl⟩ := List.mem_map.mp hk
      rw [hof u hu] at hv
      rw [← Option.some.inj hv]
      exact hu
    · rw [Std.ExtTreeMap.getElem?_ofList_of_contains_eq_false (by simpa using hk)] at hv
      cases hv
  · exact hof v

/-- Two lists of items with different keys make one dict when they hold the same items. -/
theorem ofList_eq_iff {items items' : List (String × V)} (h : (items.map Prod.fst).Nodup)
    (h' : (items'.map Prod.fst).Nodup) :
    (Std.ExtTreeMap.ofList items : Dict V) = Std.ExtTreeMap.ofList items' ↔ ∀ item, item ∈ items ↔ item ∈ items' := by
  constructor
  · rintro heq ⟨k, v⟩
    rw [← getElem?_ofList h, heq, getElem?_ofList h']
  · intro hsame
    refine Std.ExtTreeMap.ext_getElem? fun k => ?_
    refine Option.ext fun v => ?_
    rw [getElem?_ofList h, getElem?_ofList h', hsame]

/-- The keys of such a dict. -/
theorem mem_keys_ofList {items : List (String × V)} (h : (items.map Prod.fst).Nodup) {k : String} :
    k ∈ (Std.ExtTreeMap.ofList items : Dict V).keys ↔ k ∈ items.map Prod.fst := by
  rw [Std.ExtTreeMap.mem_keys, Std.ExtTreeMap.mem_iff_isSome_getElem?, Option.isSome_iff_exists]
  constructor
  · rintro ⟨v, hv⟩
    exact List.mem_map.mpr ⟨(k, v), (getElem?_ofList h k v).mp hv, rfl⟩
  · intro hk
    obtain ⟨⟨k', v⟩, hmem, rfl⟩ := List.mem_map.mp hk
    exact ⟨v, (getElem?_ofList h k' v).mpr hmem⟩

end Dict
