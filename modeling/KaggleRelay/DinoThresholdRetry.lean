/-
What the parts of the threshold policy do to a script.

* `wrapBootstrap_wrapBootstrap`, `allWrapped_wrapBootstrap` — the wrappers, put
  in order twice, and once;
* `wrapBootstrap_prefixStatements`, `prefixStatements_plain`,
  `legacyWorker_prefixStatements` — the prefix is not touched by it;
* `removeLegacy_iff` — the script less its overlay of the previous version.
-/
import KaggleRelay.DinoThreshold

namespace KaggleRelay

open PythonAst

namespace Threshold

/-! ### Wrappers -/

@[simp] theorem assigned_assign (x : String) (value : Ast) :
    assigned (assign (target x) value) = some (x, value) := rfl

theorem isWrapper_wrapper (x : String) : isWrapper (wrapper x) = true := by
  show (nameId (name "_relay_dino_wrap_run") == some "_relay_dino_wrap_run" && nameId (name x) == some x) = true
  rw [Bool.and_eq_true, beq_iff_eq, beq_iff_eq]
  exact ⟨rfl, rfl⟩

theorem visited_wrapper (x : String) : SyntaxTree.stopped visited (wrapper x) = true := rfl

/-- A statement that assigns is an assignment. -/
theorem isA_of_assigned {stmt : Ast} {x : String} {value : Ast} (h : assigned stmt = some (x, value)) :
    isA .Assign stmt = true ∧ isA .ImportFrom stmt = false := by
  unfold assigned at h
  split at h
  · exact ⟨rfl, rfl⟩
  · cases h

theorem runNames_of_assigned {stmt : Ast} {x : String} {value : Ast} (h : assigned stmt = some (x, value)) :
    runNames stmt = [] := by
  rw [runNames, (isA_of_assigned h).2, Bool.false_and, if_neg Bool.false_ne_true]

theorem assigned_of_isWrapper {stmt : Ast} (h : isWrapper stmt = true) :
    ∃ x value, assigned stmt = some (x, value) ∧ wrapsName x value = true := by
  rw [isWrapper, Option.any_eq_true] at h
  obtain ⟨⟨x, value⟩, hassigned, hwraps⟩ := h
  exact ⟨x, value, hassigned, hwraps⟩

/-- What is not visited has no wrappers and is none. -/
theorem of_not_visited {stmt : Ast} (h : SyntaxTree.stopped visited stmt = false) :
    isWrapper stmt = false ∧ runNames stmt = [] ∧ assigned stmt = none := by
  have hclass : ∀ cls, visited cls = true → isA cls stmt = false := by
    intro cls hcls
    cases stmt with
    | leaf value => rfl
    | list items => rfl
    | node c fields =>
      refine Bool.eq_false_iff.mpr fun hc => ?_
      rw [eq_of_beq (hc : (c == cls) = true)] at h
      exact Bool.false_ne_true (h.symm.trans hcls)
  have hnone : assigned stmt = none := by
    cases hassigned : assigned stmt with
    | none => rfl
    | some pair =>
      have hassign := (isA_of_assigned hassigned).1
      rw [hclass .Assign rfl] at hassign
      cases hassign
  refine ⟨?_, ?_, hnone⟩
  · rw [isWrapper, hnone]
    rfl
  · rw [runNames, hclass .ImportFrom rfl, Bool.false_and, if_neg Bool.false_ne_true]

theorem expand_wrapper {stmt : Ast} (h : isWrapper stmt = true) : expand stmt = [] := by
  rw [expand, if_pos h]

theorem expand_other {stmt : Ast} (h : isWrapper stmt = false) :
    expand stmt = stmt :: (runNames stmt).map wrapper := by
  rw [expand, h, if_neg Bool.false_ne_true]

/-- What an expansion consists of: the statement, and wrappers. -/
theorem mem_expand {stmt u : Ast} (h : u ∈ expand stmt) :
    isWrapper stmt = false ∧ (u = stmt ∨ ∃ x ∈ runNames stmt, u = wrapper x) := by
  by_cases hw : isWrapper stmt = true
  · rw [expand_wrapper hw] at h
    cases h
  · have hw' : isWrapper stmt = false := Bool.eq_false_iff.mpr hw
    rw [expand_other hw', List.mem_cons, List.mem_map] at h
    obtain h | ⟨x, hx, hu⟩ := h
    · exact ⟨hw', .inl h⟩
    · exact ⟨hw', .inr ⟨x, hx, hu.symm⟩⟩

theorem visited_expand (stmt : Ast) (h : SyntaxTree.stopped visited stmt = true) :
    ∀ u ∈ expand stmt, SyntaxTree.stopped visited u = true := by
  intro u hu
  obtain ⟨-, rfl | ⟨x, -, rfl⟩⟩ := mem_expand hu
  · exact h
  · exact visited_wrapper x

theorem expand_expand (stmt : Ast) : (expand stmt).flatMap expand = expand stmt := by
  by_cases hw : isWrapper stmt = true
  · rw [expand_wrapper hw, List.flatMap_nil]
  · have hw' : isWrapper stmt = false := Bool.eq_false_iff.mpr hw
    have hgone : ((runNames stmt).map wrapper).flatMap expand = [] := by
      rw [List.flatMap_eq_nil_iff]
      intro u hu
      obtain ⟨x, -, rfl⟩ := List.mem_map.mp hu
      exact expand_wrapper (isWrapper_wrapper x)
    rw [expand_other hw', List.flatMap_cons, hgone, List.append_nil, expand_other hw']

/-- Neither does a wrapper count as an import, nor does its removal lose one. -/
theorem runNames_expand (stmt : Ast) :
    ((expand stmt).map fun u => (runNames u).length).sum = (runNames stmt).length := by
  by_cases hw : isWrapper stmt = true
  · obtain ⟨x, value, hassigned, -⟩ := assigned_of_isWrapper hw
    rw [expand_wrapper hw, runNames_of_assigned hassigned]
    rfl
  · have hzero : (((runNames stmt).map wrapper).map fun u => (runNames u).length).sum = 0 := by
      rw [List.sum_eq_zero_iff, List.map_map]
      intro n hn
      obtain ⟨x, -, rfl⟩ := List.mem_map.mp hn
      rfl
    rw [expand_other (Bool.eq_false_iff.mpr hw), List.map_cons, List.sum_cons, hzero, Nat.add_zero]

/-- Putting the wrappers in order a second time changes nothing. -/
theorem wrapBootstrap_wrapBootstrap (body : List Ast) :
    wrapBootstrap (wrapBootstrap body) = wrapBootstrap body :=
  SyntaxTree.expandItems_expandItems visited_expand (fun stmt _ => expand_expand stmt) body

theorem bootstraps_wrapBootstrap (body : List Ast) : bootstraps (wrapBootstrap body) = bootstraps body :=
  SyntaxTree.weightItems_expandItems visited_expand (fun stmt _ => runNames_expand stmt) body

theorem wrapBootstrap_append (xs ys : List Ast) :
    wrapBootstrap (xs ++ ys) = wrapBootstrap xs ++ wrapBootstrap ys :=
  SyntaxTree.expandItems_append visited expand xs ys

/-- What a statement of a script becomes. -/
theorem mem_wrapBootstrap {body : List Ast} {u : Ast} (h : u ∈ wrapBootstrap body) :
    ∃ stmt ∈ body, u = SyntaxTree.expandLists visited expand stmt ∨ isWrapper u = true := by
  rw [wrapBootstrap, SyntaxTree.expandItems_eq, List.mem_flatMap] at h
  obtain ⟨stmt, hstmt, hu⟩ := h
  refine ⟨stmt, hstmt, ?_⟩
  by_cases hs : SyntaxTree.stopped visited stmt = true
  · rw [SyntaxTree.expandItem_stopped visited expand hs] at hu
    obtain ⟨-, rfl | ⟨x, -, rfl⟩⟩ := mem_expand hu
    · left
      cases u with
      | leaf value => cases hs
      | list items => cases hs
      | node cls fields => exact (SyntaxTree.expandLists_stopped visited expand hs fields).symm
    · exact .inr (isWrapper_wrapper x)
  · rw [SyntaxTree.expandItem_entered visited expand (Bool.eq_false_iff.mpr hs), List.mem_singleton] at hu
    exact .inl hu

/-- A list of statements in which every import of `run` is followed by one
wrapper for each of its names, and there are no other wrappers. -/
inductive Wrapped : List Ast → Prop
  | nil : Wrapped []
  | statement {stmt : Ast} {rest : List Ast} : isWrapper stmt = false → Wrapped rest →
      Wrapped (stmt :: ((runNames stmt).map wrapper ++ rest))

theorem wrapped_wrapBootstrap (body : List Ast) : Wrapped (wrapBootstrap body) := by
  rw [wrapBootstrap, SyntaxTree.expandItems_eq]
  induction body with
  | nil => exact .nil
  | cons stmt rest ih =>
    rw [List.flatMap_cons]
    by_cases hs : SyntaxTree.stopped visited stmt = true
    · rw [SyntaxTree.expandItem_stopped visited expand hs]
      by_cases hw : isWrapper stmt = true
      · rw [expand_wrapper hw]
        exact ih
      · rw [expand_other (Bool.eq_false_iff.mpr hw), List.cons_append]
        exact .statement (Bool.eq_false_iff.mpr hw) ih
    · have hs' : SyntaxTree.stopped visited stmt = false := Bool.eq_false_iff.mpr hs
      rw [SyntaxTree.expandItem_entered visited expand hs']
      -- what is entered is rewritten below, and stays a statement of its class
      obtain ⟨hw, hnames, -⟩ :=
        of_not_visited ((SyntaxTree.stopped_expandLists visited expand stmt).trans hs')
      have hstep := Wrapped.statement hw ih
      rwa [hnames] at hstep

/-- Every list of statements, at any depth. -/
def AllWrapped (body : List Ast) : Prop := SyntaxTree.EveryList visited Wrapped (.list body)

theorem allWrapped_wrapBootstrap (body : List Ast) : AllWrapped (wrapBootstrap body) := by
  have h := SyntaxTree.everyList_expandLists visited_expand wrapped_wrapBootstrap (.list body)
  rwa [SyntaxTree.expandLists_list] at h

/-! ### The prefix -/

/-- Whether a statement is changed. -/
def changes (stmt : Ast) : ℕ := if isWrapper stmt || !(runNames stmt).isEmpty then 1 else 0

theorem expand_eq_self (stmt : Ast) (h : changes stmt = 0) : expand stmt = [stmt] := by
  rw [changes] at h
  split at h
  · cases h
  · next hsame =>
    rw [Bool.or_eq_true, not_or, Bool.not_eq_true, Bool.not_eq_true, Bool.not_eq_false',
      List.isEmpty_iff] at hsame
    rw [expand_other hsame.1, hsame.2, List.map_nil]

theorem guardStatements_unchanged : SyntaxTree.weightItems visited changes guardStatements = 0 := by
  decide +kernel

/-- No statement of a guard is a wrapper, and none assigns a worker. -/
theorem guardStatements_plain : ∀ stmt ∈ guardStatements, isWrapper stmt = false ∧
    (assigned stmt).all (fun pair => pair.1 ≠ "_RELAY_DINO_WORKER_SOURCE") = true := by
  decide +kernel

theorem workerStatements_unchanged (sha256 worker : String) :
    SyntaxTree.weightItems visited changes (workerStatements sha256 worker) = 0 := rfl

theorem wrapBootstrap_prefixStatements : wrapBootstrap prefixStatements = prefixStatements := by
  have hzero : SyntaxTree.weightItems visited changes prefixStatements = 0 := by
    rw [prefixStatements, SyntaxTree.weightItems_append, workerStatements_unchanged,
      guardStatements_unchanged]
  exact SyntaxTree.expandItems_eq_self (fun stmt _ => expand_eq_self stmt) hzero

theorem prefixStatements_plain {stmt : Ast} (h : stmt ∈ prefixStatements) : isWrapper stmt = false := by
  obtain h | h := List.mem_append.mp h
  · obtain rfl | h := List.mem_cons.mp h
    · rfl
    · rw [List.mem_singleton.mp h]
      rfl
  · exact (guardStatements_plain stmt h).1

/-- The worker is none of the previous version. -/
theorem isLegacyWorker_workerText : isLegacyWorker workerText = false := by
  refine Bool.eq_false_iff.mpr fun h => ?_
  rw [isLegacyWorker, Bool.and_eq_true, List.isPrefixOf_iff_prefix] at h
  have hown : (workerHeader policySha256).toList <+: workerText.toList := by
    rw [workerText, String.append_assoc, String.toList_append]
    exact List.prefix_append _ _
  -- two prefixes of the same length are the same
  have hsame := List.IsPrefix.eq_of_length (List.prefix_of_prefix_length_le hown h.1 (by decide)) (by decide)
  revert hsame
  decide +kernel

theorem legacyWorker_prefixStatements {stmt : Ast} (h : stmt ∈ prefixStatements) :
    legacyWorker stmt = none := by
  obtain h | h := List.mem_append.mp h
  · obtain rfl | h := List.mem_cons.mp h
    · rfl
    · rw [List.mem_singleton.mp h, legacyWorker, assigned_assign]
      show (if _ then Option.filter isLegacyWorker (some workerText) else none) = none
      rw [if_pos rfl, Option.filter_some, isLegacyWorker_workerText, if_neg Bool.false_ne_true]
  · have hplain := (guardStatements_plain stmt h).2
    rw [legacyWorker]
    cases hassigned : assigned stmt with
    | none => rfl
    | some pair =>
      obtain ⟨x, value⟩ := pair
      rw [hassigned] at hplain
      have hx : x ≠ "_RELAY_DINO_WORKER_SOURCE" := by simpa using hplain
      show (if x = _ then _ else none) = none
      rw [if_neg hx]

/-! ### The previous overlay -/

theorem of_legacyWorker {stmt : Ast} {worker : String} (h : legacyWorker stmt = some worker) :
    isLegacyWorker worker = true ∧ ∃ value, assigned stmt = some ("_RELAY_DINO_WORKER_SOURCE", value) := by
  rw [legacyWorker] at h
  cases hassigned : assigned stmt with
  | none =>
    rw [hassigned] at h
    cases h
  | some pair =>
    obtain ⟨x, value⟩ := pair
    rw [hassigned] at h
    simp only at h
    split at h
    · next hx =>
      exact ⟨(Option.filter_eq_some_iff.mp h).2, value, by rw [hx]⟩
    · cases h

/-- The second statement of an overlay gives its worker. -/
theorem legacyWorker_workerStatements {worker : String} (h : isLegacyWorker worker = true) :
    legacyWorker (assign (target "_RELAY_DINO_WORKER_SOURCE") (str worker)) = some worker := by
  rw [legacyWorker, assigned_assign]
  show (if _ then Option.filter isLegacyWorker (some worker) else none) = some worker
  rw [if_pos rfl, Option.filter_some, if_pos h]

/-- A script less its overlay of the previous version, if it has one. -/
inductive LessOverlay (py : Python) : List Ast → List Ast → Prop
  | without {body : List Ast} : (∀ stmt ∈ body, legacyWorker stmt = none) → LessOverlay py body body
  | overlaid {before overlay after : List Ast} {worker : String} :
      (∀ stmt ∈ before, legacyWorker stmt = none) → isLegacyWorker worker = true →
      py.sha256 (legacyGuard worker) = legacyPolicySha256 → legacyStatements py worker = some overlay →
      LessOverlay py (before ++ overlay ++ after) (before ++ after)

theorem removeLegacyFrom_append (py : Python) (body : List Ast) :
    ∀ (before rest : List Ast) (index : ℕ), (∀ stmt ∈ before, legacyWorker stmt = none) →
      removeLegacyFrom py body index (before ++ rest) =
        removeLegacyFrom py body (index + before.length) rest
  | [], rest, index, _ => by rw [List.nil_append, List.length_nil, Nat.add_zero]
  | stmt :: before, rest, index, h => by
    obtain ⟨hstmt, hbefore⟩ := List.forall_mem_cons.mp h
    rw [List.cons_append, removeLegacyFrom, hstmt, List.length_cons]
    show removeLegacyFrom py body (index + 1) (before ++ rest) = _
    rw [removeLegacyFrom_append py body before rest (index + 1) hbefore]
    congr 1
    omega

/-- Without such a statement there is nothing to remove. -/
theorem removeLegacy_without (py : Python) {body : List Ast} (h : ∀ stmt ∈ body, legacyWorker stmt = none) :
    removeLegacy py body = .ok body := by
  have hall := removeLegacyFrom_append py body body [] 0 h
  rw [List.append_nil] at hall
  rw [removeLegacy, hall, removeLegacyFrom]

/-- The first statement of the kind, if there is one. -/
theorem exists_first_legacy (body : List Ast) : (∀ stmt ∈ body, legacyWorker stmt = none) ∨
    ∃ before stmt after worker, body = before ++ stmt :: after ∧
      (∀ s ∈ before, legacyWorker s = none) ∧ legacyWorker stmt = some worker := by
  induction body with
  | nil => exact .inl fun stmt hstmt => nomatch hstmt
  | cons stmt rest ih =>
    cases hstmt : legacyWorker stmt with
    | some worker => exact .inr ⟨[], stmt, rest, worker, rfl, by simp, hstmt⟩
    | none =>
      obtain hrest | ⟨before, s, after, worker, rfl, hbefore, hs⟩ := ih
      · exact .inl (List.forall_mem_cons.mpr ⟨hstmt, hrest⟩)
      · exact .inr ⟨stmt :: before, s, after, worker, rfl, List.forall_mem_cons.mpr ⟨hstmt, hbefore⟩, hs⟩

theorem legacyStatements_eq {py : Python} {worker : String} {overlay : List Ast}
    (h : legacyStatements py worker = some overlay) :
    ∃ guardBody, overlay = workerStatements legacyPolicySha256 worker ++ guardBody := by
  obtain ⟨guardBody, -, rfl⟩ := Option.map_eq_some_iff.mp h
  exact ⟨guardBody, rfl⟩

theorem removeLegacy_iff {py : Python} {body rest : List Ast} :
    removeLegacy py body = .ok rest ↔ LessOverlay py body rest := by
  constructor
  · intro h
    obtain hnone | ⟨before, stmt, after, worker, rfl, hbefore, hstmt⟩ := exists_first_legacy body
    · rw [removeLegacy_without py hnone] at h
      rw [← Except.ok.inj h]
      exact .without hnone
    · rw [removeLegacy, removeLegacyFrom_append py _ before _ 0 hbefore, removeLegacyFrom, hstmt] at h
      simp only [removeOverlay, Nat.zero_add] at h
      split at h
      · cases h
      · next hsha =>
        cases hoverlay : legacyStatements py worker with
        | none =>
          rw [hoverlay] at h
          cases h
        | some overlay =>
          rw [hoverlay] at h
          simp only at h
          split at h
          · cases h
          · next hsame =>
            obtain ⟨hindex, htake⟩ := not_or.mp hsame
            rw [not_not] at htake
            obtain ⟨first, last, rfl⟩ : ∃ first last, before = first ++ [last] := by
              obtain rfl | hne := List.eq_nil_or_concat before
              · exact (hindex rfl).elim
              · obtain ⟨first, last, rfl⟩ := hne
                exact ⟨first, last, List.concat_eq_append ..⟩
            have hlength : (first ++ [last]).length - 1 = first.length := by
              rw [List.length_append, List.length_singleton]
              omega
            rw [hlength] at htake h
            set body := first ++ [last] ++ stmt :: after with hbody
            have hfirst : body.take first.length = first := by
              rw [hbody, List.append_assoc, List.take_left]
            -- the script is what comes before the overlay, the overlay, and the rest
            have hsplit : body = first ++ overlay ++ body.drop (first.length + overlay.length) := by
              conv_lhs => rw [← List.take_append_drop first.length body, hfirst,
                ← List.take_append_drop overlay.length (body.drop first.length), htake, List.drop_drop]
              rw [List.append_assoc]
            rw [hfirst] at h
            rw [← Except.ok.inj h]
            have hless : LessOverlay py (first ++ overlay ++ body.drop (first.length + overlay.length))
                (first ++ body.drop (first.length + overlay.length)) :=
              .overlaid (fun s hs => hbefore s (List.mem_append_left _ hs)) (of_legacyWorker hstmt).1
                (not_not.mp hsha) hoverlay
            rwa [← hsplit] at hless
  · intro h
    obtain ⟨hnone⟩ | ⟨hbefore, hworker, hsha, hoverlay⟩ := h
    · exact removeLegacy_without py hnone
    · next before overlay after worker =>
      obtain ⟨guardBody, rfl⟩ := legacyStatements_eq hoverlay
      set overlay := workerStatements legacyPolicySha256 worker ++ guardBody with hdef
      have hpolicy : legacyWorker (assign (target "_RELAY_DINO_POLICY_SHA256") (str legacyPolicySha256)) = none := rfl
      have hfirst : ∀ s ∈ before ++ [assign (target "_RELAY_DINO_POLICY_SHA256") (str legacyPolicySha256)],
          legacyWorker s = none := by
        intro s hs
        obtain hs | hs := List.mem_append.mp hs
        · exact hbefore s hs
        · rw [List.mem_singleton.mp hs]
          exact hpolicy
      have hbody : before ++ overlay ++ after =
          (before ++ [assign (target "_RELAY_DINO_POLICY_SHA256") (str legacyPolicySha256)]) ++
            (assign (target "_RELAY_DINO_WORKER_SOURCE") (str worker) :: (guardBody ++ after)) := by
        rw [hdef, workerStatements]
        simp only [List.append_assoc, List.cons_append, List.nil_append]
      have hlength : 0 + (before ++ [assign (target "_RELAY_DINO_POLICY_SHA256")
          (str legacyPolicySha256)]).length = before.length + 1 := by
        rw [List.length_append, List.length_singleton, Nat.zero_add]
      have hfrom : removeLegacy py (before ++ overlay ++ after) =
          removeOverlay py (before ++ overlay ++ after) (before.length + 1) worker := by
        rw [removeLegacy]
        conv_lhs => rw [hbody]
        rw [removeLegacyFrom_append py _ _ _ 0 hfirst, removeLegacyFrom,
          legacyWorker_workerStatements hworker, hlength, ← hbody]
      rw [hfrom, removeOverlay, if_neg (not_not.mpr hsha), hoverlay]
      simp only [Nat.add_sub_cancel]
      have hdrop : (before ++ overlay ++ after).drop before.length = overlay ++ after := by
        rw [List.append_assoc, List.drop_left]
      have hafter : (before ++ overlay ++ after).drop (before.length + overlay.length) = after := by
        rw [← List.drop_drop, hdrop, List.drop_left]
      have htake : (before ++ overlay ++ after).take before.length = before := by
        rw [List.append_assoc, List.take_left]
      rw [hdrop, hafter, htake, List.take_left, if_neg]
      rintro (hzero | hne)
      · exact Nat.succ_ne_zero _ hzero
      · exact hne rfl

end Threshold

end KaggleRelay
