/-
What the threshold policy does to a script that has been through it.

* `Settled` — a retry changes nothing, every import of `run` has its wrappers
  and there are no others, and the prefix stands once in its place;
* `Undisguised` — the script has no second overlay of before, and no statement
  that is one of the prefix but for wrappers in it;
* `settled_iff` — the first holds of what is written if and only if the second
  holds of what was read.
-/
import KaggleRelay.DinoThresholdRetry

namespace KaggleRelay

open PythonAst

namespace Threshold

/-! ### Statements less their wrappers -/

/-- A statement without the wrappers in it. -/
def dropWrapper (stmt : Ast) : List Ast := if isWrapper stmt then [] else [stmt]

def stripped : Ast → Ast := SyntaxTree.expandLists visited dropWrapper

/-- The imports of `run` below a statement. -/
def runsBelow : Ast → ℕ := SyntaxTree.weight visited fun stmt => (runNames stmt).length

theorem visited_dropWrapper (stmt : Ast) (h : SyntaxTree.stopped visited stmt = true) :
    ∀ u ∈ dropWrapper stmt, SyntaxTree.stopped visited u = true := by
  intro u hu
  rw [dropWrapper] at hu
  split at hu
  · cases hu
  · rwa [List.mem_singleton.mp hu]

theorem runNames_dropWrapper (stmt : Ast) :
    ((dropWrapper stmt).map fun u => (runNames u).length).sum = (runNames stmt).length := by
  rw [dropWrapper]
  split
  · next hw =>
    obtain ⟨x, value, hassigned, -⟩ := assigned_of_isWrapper hw
    rw [runNames_of_assigned hassigned]
    rfl
  · rw [List.map_singleton, List.sum_singleton]

theorem runsBelow_stripped (stmt : Ast) : runsBelow (stripped stmt) = runsBelow stmt :=
  SyntaxTree.weight_expandLists visited_dropWrapper (fun u _ => runNames_dropWrapper u) stmt

theorem runsBelow_expandLists (stmt : Ast) :
    runsBelow (SyntaxTree.expandLists visited expand stmt) = runsBelow stmt :=
  SyntaxTree.weight_expandLists visited_expand (fun u _ => runNames_expand u) stmt

/-- Where nothing below imports `run`, the wrappers are only removed. -/
theorem expandLists_eq_stripped (stmt : Ast) (h : runsBelow stmt = 0) :
    SyntaxTree.expandLists visited expand stmt = stripped stmt := by
  refine SyntaxTree.expandLists_congr ?_ stmt h
  intro u _ hu
  rw [expand, dropWrapper, List.length_eq_zero_iff.mp hu, List.map_nil]

theorem runsBelow_guardStatements : ∀ stmt ∈ guardStatements, runsBelow stmt = 0 := by
  decide +kernel

theorem runsBelow_prefixStatements {stmt : Ast} (h : stmt ∈ prefixStatements) : runsBelow stmt = 0 := by
  obtain h | h := List.mem_append.mp h
  · obtain rfl | h := List.mem_cons.mp h
    · rfl
    · rw [List.mem_singleton.mp h]
      rfl
  · exact runsBelow_guardStatements stmt h

theorem expandLists_mem_iff (stmt : Ast) :
    SyntaxTree.expandLists visited expand stmt ∈ prefixStatements ↔ stripped stmt ∈ prefixStatements := by
  constructor
  · intro h
    have hzero := runsBelow_prefixStatements h
    rw [runsBelow_expandLists] at hzero
    rwa [← expandLists_eq_stripped stmt hzero]
  · intro h
    have hzero := runsBelow_prefixStatements h
    rw [runsBelow_stripped] at hzero
    rwa [expandLists_eq_stripped stmt hzero]

/-! ### Overlays that are left -/

/-- The statements with a worker of the previous version. -/
def legacyWorkers (body : List Ast) : ℕ := body.countP fun stmt => (legacyWorker stmt).isSome

theorem legacyWorkers_eq_zero {body : List Ast} :
    legacyWorkers body = 0 ↔ ∀ stmt ∈ body, legacyWorker stmt = none := by
  rw [legacyWorkers, List.countP_eq_zero]
  simp only [Option.not_isSome_iff_eq_none]

theorem legacyWorkers_append (xs ys : List Ast) :
    legacyWorkers (xs ++ ys) = legacyWorkers xs + legacyWorkers ys := List.countP_append ..

theorem legacyWorkers_perm {xs ys : List Ast} (h : xs.Perm ys) : legacyWorkers xs = legacyWorkers ys :=
  h.countP_eq _

theorem legacyWorkers_prefixStatements : legacyWorkers prefixStatements = 0 :=
  legacyWorkers_eq_zero.mpr fun _ h => legacyWorker_prefixStatements h

/-- An overlay that is taken out leaves fewer of them. -/
theorem LessOverlay.legacyWorkers_lt {py : Python} {body rest : List Ast} (h : LessOverlay py body rest)
    (hsome : legacyWorkers body ≠ 0) : legacyWorkers rest < legacyWorkers body := by
  obtain ⟨hnone⟩ | ⟨hbefore, hworker, hsha, hoverlay⟩ := h
  · exact (hsome (legacyWorkers_eq_zero.mpr hnone)).elim
  · next before overlay after worker =>
    obtain ⟨guardBody, rfl⟩ := legacyStatements_eq hoverlay
    have hpos : 0 < legacyWorkers (workerStatements legacyPolicySha256 worker ++ guardBody) := by
      refine List.countP_pos_iff.mpr ⟨_, List.mem_append_left _ (List.mem_cons_of_mem _ List.mem_cons_self), ?_⟩
      rw [legacyWorker_workerStatements hworker]
      rfl
    rw [legacyWorkers_append, legacyWorkers_append, legacyWorkers_append]
    omega

/-- Neither the filter nor the wrappers touch them. -/
theorem legacyWorkers_kept (body : List Ast) : legacyWorkers (kept body) = legacyWorkers body := by
  rw [legacyWorkers, kept, List.countP_filter, legacyWorkers]
  refine List.countP_congr ?_
  intro stmt _
  rw [Bool.and_eq_true, decide_eq_true_iff]
  constructor
  · exact fun h => h.1
  · intro h
    refine ⟨h, fun hmem => ?_⟩
    rw [legacyWorker_prefixStatements hmem] at h
    cases h

theorem legacyWorker_of_assigned {stmt : Ast} (h : assigned stmt = none) : legacyWorker stmt = none := by
  rw [legacyWorker, h]

theorem legacyWorker_wrapper {stmt : Ast} (h : isWrapper stmt = true) : legacyWorker stmt = none := by
  obtain ⟨x, value, hassigned, hwraps⟩ := assigned_of_isWrapper h
  rw [legacyWorker, hassigned]
  show (if x = _ then (constantText value).filter isLegacyWorker else none) = none
  have hcall : constantText value = none := by
    rw [wrapsName] at hwraps
    cases hparts : callParts value with
    | none =>
      rw [hparts] at hwraps
      cases hwraps
    | some parts =>
      obtain ⟨func, args, keywords⟩ := parts
      rw [eq_call_of_callParts hparts]
      rfl
  rw [hcall]
  split <;> rfl

theorem legacyWorkers_expandItem (stmt : Ast) :
    legacyWorkers (SyntaxTree.expandItem visited expand stmt) = legacyWorkers [stmt] := by
  by_cases hs : SyntaxTree.stopped visited stmt = true
  · rw [SyntaxTree.expandItem_stopped visited expand hs]
    by_cases hw : isWrapper stmt = true
    · rw [expand_wrapper hw]
      refine (legacyWorkers_eq_zero.mpr ?_).symm
      intro u hu
      rw [List.mem_singleton.mp hu]
      exact legacyWorker_wrapper hw
    · have hzero : legacyWorkers ((runNames stmt).map wrapper) = 0 := by
        refine legacyWorkers_eq_zero.mpr ?_
        intro u hu
        obtain ⟨x, -, rfl⟩ := List.mem_map.mp hu
        exact legacyWorker_wrapper (isWrapper_wrapper x)
      rw [expand_other (Bool.eq_false_iff.mpr hw), ← List.singleton_append, legacyWorkers_append, hzero,
        Nat.add_zero]
  · have hs' : SyntaxTree.stopped visited stmt = false := Bool.eq_false_iff.mpr hs
    have hzero : ∀ u : Ast, SyntaxTree.stopped visited u = false → legacyWorkers [u] = 0 := by
      intro u hu
      refine legacyWorkers_eq_zero.mpr fun v hv => ?_
      rw [List.mem_singleton.mp hv]
      exact legacyWorker_of_assigned (of_not_visited hu).2.2
    rw [SyntaxTree.expandItem_entered visited expand hs', hzero stmt hs',
      hzero _ ((SyntaxTree.stopped_expandLists visited expand stmt).trans hs')]

theorem legacyWorkers_wrapBootstrap (body : List Ast) :
    legacyWorkers (wrapBootstrap body) = legacyWorkers body := by
  rw [wrapBootstrap, SyntaxTree.expandItems_eq]
  induction body with
  | nil => rfl
  | cons stmt rest ih =>
    rw [List.flatMap_cons, legacyWorkers_append, ih, legacyWorkers_expandItem, ← legacyWorkers_append,
      List.singleton_append]

/-! ### The script that is written -/

/-- The statements that are written for a script less its overlay. -/
def overlay (rest : List Ast) : List Ast :=
  insertAfterOpening prefixStatements (wrapBootstrap (kept rest))

theorem rewriteModule_iff {py : Python} {body result : List Ast} :
    rewriteModule py body = .ok result ↔
      ∃ rest, LessOverlay py body rest ∧ bootstraps (kept rest) ≠ 0 ∧ result = overlay rest := by
  rw [rewriteModule]
  constructor
  · intro h
    cases hrest : removeLegacy py body with
    | error e =>
      rw [hrest] at h
      cases h
    | ok rest =>
      rw [hrest] at h
      simp only [bind, Except.bind] at h
      split at h
      · cases h
      · next hmatches => exact ⟨rest, removeLegacy_iff.mp hrest, hmatches, (Except.ok.inj h).symm⟩
  · rintro ⟨rest, hrest, hmatches, rfl⟩
    rw [removeLegacy_iff.mpr hrest]
    show (if bootstraps (kept rest) = 0 then _ else _) = _
    rw [if_neg hmatches, overlay]

theorem overlay_perm (rest : List Ast) :
    (overlay rest).Perm (prefixStatements ++ wrapBootstrap (kept rest)) := insertAfterOpening_perm _ _

theorem legacyWorkers_overlay (rest : List Ast) : legacyWorkers (overlay rest) = legacyWorkers rest := by
  rw [legacyWorkers_perm (overlay_perm rest), legacyWorkers_append, legacyWorkers_prefixStatements,
    legacyWorkers_wrapBootstrap, legacyWorkers_kept, Nat.zero_add]

/-- What stands before the prefix stays there. -/
theorem wrapBootstrap_opening {head tail : List Ast} (hopen : Opening head tail)
    (hsame : wrapBootstrap (head ++ tail) = head ++ tail) :
    wrapBootstrap head = head ∧ wrapBootstrap tail = tail := by
  obtain ⟨⟨doc, futures, rfl, -, hdoc, hfutures, -⟩, -⟩ := hopen
  have hone : ∀ stmt ∈ doc ++ futures, (SyntaxTree.expandItem visited expand stmt).length = 1 := by
    intro stmt hstmt
    by_cases hs : SyntaxTree.stopped visited stmt = true
    · -- a docstring is entered, so this is an import from `__future__`
      have hfuture : isFuture stmt = true := by
        obtain h | h := List.mem_append.mp hstmt
        · have hexpr := hdoc stmt h
          rw [isDocstring, Bool.and_eq_true] at hexpr
          cases stmt with
          | leaf value => cases hs
          | list items => cases hs
          | node cls fields =>
            rw [eq_of_beq (hexpr.1 : (cls == .Expr) = true)] at hs
            cases hs
        · exact hfutures stmt h
      rw [isFuture, Bool.and_eq_true, beq_iff_eq] at hfuture
      have hnames : runNames stmt = [] := by
        rw [runNames, isBootstrap, hfuture.2]
        have hother : (some (text "__future__") == some (text "patchcore_dino_runtime.kaggle_bootstrap")) = false := by
          decide
        rw [hother, Bool.and_false, Bool.and_false, if_neg Bool.false_ne_true]
      have hw : isWrapper stmt = false := by
        refine Bool.eq_false_iff.mpr fun hw => ?_
        obtain ⟨x, value, hassigned, -⟩ := assigned_of_isWrapper hw
        rw [(isA_of_assigned hassigned).2] at hfuture
        exact Bool.false_ne_true hfuture.1
      rw [SyntaxTree.expandItem_stopped visited expand hs, expand_other hw, hnames]
      rfl
    · rw [SyntaxTree.expandItem_entered visited expand (Bool.eq_false_iff.mpr hs), List.length_singleton]
  have hlength : (wrapBootstrap (doc ++ futures)).length = (doc ++ futures).length := by
    rw [wrapBootstrap, SyntaxTree.expandItems_eq, List.length_flatMap]
    have hmap : (doc ++ futures).map (fun stmt => (SyntaxTree.expandItem visited expand stmt).length) =
        (doc ++ futures).map fun _ => 1 := List.map_congr_left hone
    rw [hmap]
    simp
  rw [wrapBootstrap_append] at hsame
  exact List.append_inj hsame hlength

theorem wrapBootstrap_overlay (rest : List Ast) : wrapBootstrap (overlay rest) = overlay rest := by
  set wrapped := wrapBootstrap (kept rest) with hwrapped
  have hsame : wrapBootstrap (wrapped.take (opening wrapped) ++ wrapped.drop (opening wrapped)) =
      wrapped.take (opening wrapped) ++ wrapped.drop (opening wrapped) := by
    rw [List.take_append_drop, hwrapped, wrapBootstrap_wrapBootstrap]
  obtain ⟨hhead, htail⟩ := wrapBootstrap_opening (opening_split wrapped) hsame
  rw [overlay, ← hwrapped, insertAfterOpening, wrapBootstrap_append, wrapBootstrap_append, hhead, htail,
    wrapBootstrap_prefixStatements]

theorem allWrapped_overlay (rest : List Ast) : AllWrapped (overlay rest) := by
  have h := allWrapped_wrapBootstrap (overlay rest)
  rwa [wrapBootstrap_overlay] at h

/-! ### Retries -/

/-- The file after an application to a submission of this contract. -/
def applied (py : Python) (source : String) : Except Exc String :=
  (applyDinoThresholdPolicy py "patchcore_dinov2_v3" source).map fun written =>
    match written with
    | some (_, updated) => updated
    | none => source

/-- The file after a number of applications. -/
def applications (py : Python) : ℕ → String → Except Exc String
  | 0, source => .ok source
  | n + 1, source => applications py n source >>= applied py

theorem applications_one (py : Python) (source : String) : applications py 1 source = applied py source := rfl

theorem applications_succ {py : Python} {n : ℕ} {source updated : String}
    (h : applications py n source = .ok updated) : applications py (n + 1) source = applied py updated := by
  rw [applications, h]
  rfl

/-- Parsing what was printed gives back the statements of every script that is
written. -/
def RoundTrips (py : Python) : Prop := ∀ source body result, py.parse source = some body →
  rewriteModule py body = .ok result → py.compiles (printed py result) = true →
    py.parse (printed py result) = some result

/-- What is written for a source. -/
theorem rewriteSource_iff {py : Python} {source updated : String} :
    rewriteSource py source = .ok updated ↔ ∃ body result, py.parse source = some body ∧
      rewriteModule py body = .ok result ∧ py.compiles (printed py result) = true ∧
      updated = printed py result := by
  constructor
  · intro h
    rw [rewriteSource] at h
    cases hparse : py.parse source with
    | none =>
      rw [hparse] at h
      cases h
    | some body =>
      rw [hparse] at h
      simp only [bind, Except.bind] at h
      cases hresult : rewriteModule py body with
      | error e =>
        rw [hresult] at h
        cases h
      | ok result =>
        rw [hresult] at h
        simp only at h
        split at h
        · next hcompiles => exact ⟨body, result, rfl, hresult, hcompiles, (Except.ok.inj h).symm⟩
        · cases h
  · rintro ⟨body, result, hparse, hresult, hcompiles, rfl⟩
    rw [rewriteSource, hparse]
    simp only [hresult, bind, Except.bind]
    rw [if_pos hcompiles]

theorem applied_iff {py : Python} {source updated : String} :
    applied py source = .ok updated ↔ rewriteSource py source = .ok updated := by
  cases hwritten : rewriteSource py source with
  | error e =>
    have hcontract : applyDinoThresholdPolicy py "patchcore_dinov2_v3" source = .error prepareError := by
      rw [applyDinoThresholdPolicy, hwritten]
      rfl
    rw [applied, hcontract]
    constructor
    · intro h
      simp only [Except.map, reduceCtorEq] at h
    · intro h
      cases h
  | ok written =>
    have hcontract : applyDinoThresholdPolicy py "patchcore_dinov2_v3" source =
        .ok (some (policyMessage, written)) := by
      rw [applyDinoThresholdPolicy, hwritten]
      rfl
    rw [applied, hcontract]
    rfl

theorem applications_of_fixed {py : Python} {source updated : String} (honce : applied py source = .ok updated)
    (hfixed : applied py updated = .ok updated) (n : ℕ) : applications py (n + 1) source = .ok updated := by
  induction n with
  | zero => exact honce
  | succ n ih => rw [applications_succ ih, hfixed]

/-- The prefix stands once among the statements of a script, after the docstring
and the imports from `__future__`. -/
def Placed (body : List Ast) : Prop := ∃ head tail, body = head ++ prefixStatements ++ tail ∧
  Opening head tail ∧ ∀ stmt ∈ head ++ tail, stmt ∉ prefixStatements

/-- The policy is done with a source: it stays as it was written. -/
structure Settled (py : Python) (source updated : String) : Prop where
  retry : ∀ n, 1 ≤ n → applications py n source = .ok updated
  script : ∃ result, py.parse updated = some result ∧ AllWrapped result ∧ Placed result

/-- No second overlay of the previous version, and no statement that differs from
one of the prefix only in wrappers. -/
structure Undisguised (py : Python) (body : List Ast) : Prop where
  overlays : ∀ rest, LessOverlay py body rest → ∀ stmt ∈ rest, legacyWorker stmt = none
  statements : ∀ rest, LessOverlay py body rest → ∀ stmt ∈ rest, stmt ∉ prefixStatements →
    stripped stmt ∉ prefixStatements

theorem LessOverlay.unique {py : Python} {body rest rest' : List Ast} (h : LessOverlay py body rest)
    (h' : LessOverlay py body rest') : rest' = rest := by
  have heq := (removeLegacy_iff.mpr h').symm.trans (removeLegacy_iff.mpr h)
  exact Except.ok.inj heq

theorem mem_kept {body : List Ast} {stmt : Ast} : stmt ∈ kept body ↔ stmt ∈ body ∧ stmt ∉ prefixStatements := by
  rw [kept, List.mem_filter, decide_eq_true_iff]

/-- Without statements in disguise none becomes one of the prefix. -/
theorem wrapBootstrap_disjoint {rest : List Ast}
    (h : ∀ stmt ∈ rest, stmt ∉ prefixStatements → stripped stmt ∉ prefixStatements) :
    ∀ u ∈ wrapBootstrap (kept rest), u ∉ prefixStatements := by
  intro u hu hmem
  obtain ⟨stmt, hstmt, rfl | hw⟩ := mem_wrapBootstrap hu
  · obtain ⟨hrest, hnot⟩ := mem_kept.mp hstmt
    exact h stmt hrest hnot ((expandLists_mem_iff stmt).mp hmem)
  · rw [prefixStatements_plain hmem] at hw
    cases hw

/-- Nothing is left to do in a script that is written without disguises. -/
theorem overlay_overlay {rest : List Ast} (h : ∀ u ∈ wrapBootstrap (kept rest), u ∉ prefixStatements) :
    kept (overlay rest) = wrapBootstrap (kept rest) ∧ overlay (overlay rest) = overlay rest := by
  have hkept : kept (overlay rest) = wrapBootstrap (kept rest) := by
    set wrapped := wrapBootstrap (kept rest)
    have hall : ∀ part : List Ast, (∀ u ∈ part, u ∈ wrapped) → kept part = part := by
      intro part hpart
      exact List.filter_eq_self.mpr fun u hu => decide_eq_true (h u (hpart u hu))
    have hstart : kept prefixStatements = [] := by
      refine List.filter_eq_nil_iff.mpr fun stmt hstmt => ?_
      rw [decide_eq_true_iff]
      exact not_not.mpr hstmt
    show kept (wrapped.take (opening wrapped) ++ prefixStatements ++ wrapped.drop (opening wrapped)) = wrapped
    rw [kept, List.filter_append, List.filter_append]
    show kept _ ++ kept prefixStatements ++ kept _ = wrapped
    rw [hstart, hall _ fun u hu => List.mem_of_mem_take hu, hall _ fun u hu => List.mem_of_mem_drop hu,
      List.append_nil, List.take_append_drop]
  refine ⟨hkept, ?_⟩
  rw [overlay, hkept, wrapBootstrap_wrapBootstrap]
  rfl

theorem placed_overlay {rest : List Ast} (h : ∀ u ∈ wrapBootstrap (kept rest), u ∉ prefixStatements) :
    Placed (overlay rest) := by
  refine ⟨_, _, rfl, opening_split _, ?_⟩
  rw [List.take_append_drop]
  exact h

/-- The statements of the prefix among those of a script. -/
theorem count_placed {body : List Ast} (h : Placed body) :
    body.countP (fun stmt => decide (stmt ∈ prefixStatements)) = prefixStatements.length := by
  obtain ⟨head, tail, rfl, -, hnone⟩ := h
  have hzero : ∀ part : List Ast, (∀ stmt ∈ part, stmt ∈ head ++ tail) →
      part.countP (fun stmt => decide (stmt ∈ prefixStatements)) = 0 := by
    intro part hpart
    refine List.countP_eq_zero.mpr fun stmt hstmt => ?_
    rw [decide_eq_true_iff]
    exact hnone stmt (hpart stmt hstmt)
  have hall : prefixStatements.countP (fun stmt => decide (stmt ∈ prefixStatements)) = prefixStatements.length :=
    List.countP_eq_length.mpr fun stmt hstmt => decide_eq_true hstmt
  rw [List.countP_append, List.countP_append, hall, hzero head fun _ h => List.mem_append_left _ h,
    hzero tail fun _ h => List.mem_append_right _ h, Nat.zero_add, Nat.add_zero]

/-- A statement in disguise stands in the written script beside the prefix. -/
theorem not_placed {rest : List Ast} {stmt : Ast} (hstmt : stmt ∈ rest) (hnot : stmt ∉ prefixStatements)
    (hdisguised : stripped stmt ∈ prefixStatements) : ¬ Placed (overlay rest) := by
  intro hplaced
  have hcount := count_placed hplaced
  rw [(overlay_perm rest).countP_eq, List.countP_append, List.countP_eq_length.mpr fun s hs => decide_eq_true hs]
    at hcount
  have hexpanded := (expandLists_mem_iff stmt).mpr hdisguised
  have hvisited : SyntaxTree.stopped visited stmt = false := by
    refine Bool.eq_false_iff.mpr fun hs => ?_
    cases stmt with
    | leaf value => cases hs
    | list items => cases hs
    | node cls fields =>
      rw [SyntaxTree.expandLists_stopped visited expand hs] at hexpanded
      exact hnot hexpanded
  have hmem : SyntaxTree.expandLists visited expand stmt ∈ wrapBootstrap (kept rest) := by
    rw [wrapBootstrap, SyntaxTree.expandItems_eq, List.mem_flatMap]
    refine ⟨stmt, mem_kept.mpr ⟨hstmt, hnot⟩, ?_⟩
    rw [SyntaxTree.expandItem_entered visited expand hvisited]
    exact List.mem_singleton_self _
  have hpos : 0 < (wrapBootstrap (kept rest)).countP fun s => decide (s ∈ prefixStatements) :=
    List.countP_pos_iff.mpr ⟨_, hmem, decide_eq_true hexpanded⟩
  omega

/-- The policy settles a source if and only if there is nothing in disguise in it. -/
theorem settled_iff {py : Python} (htrip : RoundTrips py) {source updated : String} {body : List Ast}
    (hparse : py.parse source = some body) (happlied : applied py source = .ok updated) :
    Settled py source updated ↔ Undisguised py body := by
  obtain ⟨body', result, hbody, hresult, hcompiles, rfl⟩ := rewriteSource_iff.mp (applied_iff.mp happlied)
  obtain rfl := Option.some.inj (hparse.symm.trans hbody)
  have hback := htrip source body result hparse hresult hcompiles
  obtain ⟨rest, hless, hmatches, rfl⟩ := rewriteModule_iff.mp hresult
  constructor
  · intro hsettled
    constructor
    · intro rest' hless'
      obtain rfl := hless.unique hless'
      refine legacyWorkers_eq_zero.mp ?_
      by_contra hsome
      -- the second application takes out one more, and writes another script
      have htwice : applied py (printed py (overlay rest')) = .ok (printed py (overlay rest')) := by
        have h2 := hsettled.retry 2 (by decide)
        rwa [applications_succ (hsettled.retry 1 (by decide))] at h2
      obtain ⟨body2, result2, hbody2, hresult2, hcompiles2, hsame⟩ := rewriteSource_iff.mp (applied_iff.mp htwice)
      obtain rfl := Option.some.inj (hback.symm.trans hbody2)
      have hback2 := htrip _ _ _ hback hresult2 hcompiles2
      rw [← hsame] at hback2
      obtain rfl := Option.some.inj (hback.symm.trans hback2)
      obtain ⟨rest2, hless2, -, heq⟩ := rewriteModule_iff.mp hresult2
      have hfewer := hless2.legacyWorkers_lt (by rwa [legacyWorkers_overlay])
      rw [heq, legacyWorkers_overlay] at hfewer
      exact lt_irrefl _ hfewer
    · intro rest' hless' stmt hstmt hnot hdisguised
      obtain rfl := hless.unique hless'
      obtain ⟨result, hscript, -, hplaced⟩ := hsettled.script
      obtain rfl := Option.some.inj (hback.symm.trans hscript)
      exact not_placed hstmt hnot hdisguised hplaced
  · intro hundisguised
    have hdisjoint := wrapBootstrap_disjoint (hundisguised.statements rest hless)
    obtain ⟨hkept, hsame⟩ := overlay_overlay hdisjoint
    have hnone : LessOverlay py (overlay rest) (overlay rest) := by
      refine .without (legacyWorkers_eq_zero.mp ?_)
      rw [legacyWorkers_overlay]
      exact legacyWorkers_eq_zero.mpr (hundisguised.overlays rest hless)
    have hagain : rewriteModule py (overlay rest) = .ok (overlay rest) := by
      refine rewriteModule_iff.mpr ⟨overlay rest, hnone, ?_, hsame.symm⟩
      rwa [hkept, bootstraps_wrapBootstrap]
    have hfixed : applied py (printed py (overlay rest)) = .ok (printed py (overlay rest)) :=
      applied_iff.mpr (rewriteSource_iff.mpr ⟨_, _, hback, hagain, hcompiles, rfl⟩)
    constructor
    · intro n hn
      obtain ⟨k, rfl⟩ := Nat.exists_eq_add_of_le' hn
      exact applications_of_fixed happlied hfixed k
    · exact ⟨_, hback, allWrapped_overlay rest, placed_overlay hdisjoint⟩

/-! ### A script with a disguised statement -/

section Trial

def bootstrapImport : Ast :=
  importFrom "patchcore_dino_runtime.kaggle_bootstrap" [importAlias "run"] 0

/-- A function with a wrapper in front of its body. -/
def withWrapper : Ast → Ast
  | .node cls fields => .node cls (fields.map fun (field, t) =>
      match field, t with
      | .body, .list items => (.body, .list (wrapper "run" :: items))
      | field, t => (field, t))
  | t => t

/-- The function of the prefix, and a wrapper in it. -/
def disguised : Ast := withWrapper workerMain

/-- The lines of that function, as they stand in the guard. -/
def workerMainLines : List String := (thresholdGuardLines.take 68).drop 50

def bootstrapSource : String := "from patchcore_dino_runtime.kaggle_bootstrap import run\n"

def disguisedSource : String :=
  bootstrapSource ++ ("def _relay_dino_worker_main():\n    run = _relay_dino_wrap_run(run)\n" ++
    String.join (workerMainLines.drop 1))

def settledBody : List Ast := prefixStatements ++ [bootstrapImport, wrapper "run"]

def disguisedBody : List Ast := prefixStatements ++ [bootstrapImport, wrapper "run", workerMain]

/-- A printed script, but for the source of the worker. -/
def printedText (rest : String) : String :=
  workerHeader policySha256 ++ (guardText ++ bootstrapSource ++ "run = _relay_dino_wrap_run(run)" ++ rest)

/-- The parser, on the texts of the trial. -/
def trialParse (source : String) : Option (List Ast) :=
  if source = bootstrapSource then some [bootstrapImport]
  else if source = disguisedSource then some [bootstrapImport, disguised]
  else if source = printedText "" ++ "\n" then some settledBody
  else if source = printedText ("\n" ++ String.join workerMainLines) ++ "\n" then some disguisedBody
  else none

def trialUnparse (body : List Ast) : String :=
  if body = settledBody then printedText "" else printedText ("\n" ++ String.join workerMainLines)

def trialPython : Python where
  parse := trialParse
  unparse := trialUnparse
  compiles _ := true
  sha256 _ := ""

theorem trialPython_parse : trialPython.parse = trialParse := rfl

theorem printed_trialPython (body : List Ast) : printed trialPython body = trialUnparse body ++ "\n" := rfl

theorem printedText_head (rest : String) : (printedText rest ++ "\n").toList.head? = some '_' := by
  have hheader : (workerHeader policySha256).toList.head? = some '_' := by decide +kernel
  rw [printedText, String.append_assoc, String.toList_append, List.head?_append, hheader]
  rfl

theorem sources_ne : bootstrapSource ≠ disguisedSource ∧
    (∀ rest, printedText rest ++ "\n" ≠ bootstrapSource) ∧
    (∀ rest, printedText rest ++ "\n" ≠ disguisedSource) ∧
    printedText ("\n" ++ String.join workerMainLines) ++ "\n" ≠ printedText "" ++ "\n" := by
  have hhead : ∀ rest source, source.toList.head? = some 'f' → printedText rest ++ "\n" ≠ source := by
    rintro rest source hsource rfl
    rw [printedText_head] at hsource
    cases hsource
  have hbootstrap : bootstrapSource.toList.head? = some 'f' := by decide +kernel
  have hdisguised : disguisedSource.toList.head? = some 'f' := by
    rw [disguisedSource, String.toList_append, List.head?_append, hbootstrap]
    rfl
  refine ⟨?_, fun rest => hhead rest _ hbootstrap, fun rest => hhead rest _ hdisguised, ?_⟩
  · intro h
    have hlength := congrArg String.length h
    rw [disguisedSource, String.length_append, String.length_append] at hlength
    have hpos : 0 < "def _relay_dino_worker_main():\n    run = _relay_dino_wrap_run(run)\n".length := by decide
    omega
  · intro h
    have hlength := congrArg String.length h
    simp only [printedText, String.length_append] at hlength
    have hpos : 0 < "\n".length := by decide
    have hnone : "".length = 0 := rfl
    omega

theorem kept_prefixStatements_append (rest : List Ast) : kept (prefixStatements ++ rest) = kept rest := by
  have hstart : prefixStatements.filter (fun stmt => decide (stmt ∉ prefixStatements)) = [] := by
    refine List.filter_eq_nil_iff.mpr fun stmt hstmt => ?_
    rw [decide_eq_true_iff]
    exact not_not.mpr hstmt
  rw [kept, List.filter_append, hstart, List.nil_append, kept]

/-- Which of the statements are of the prefix. -/
theorem trial_statements : bootstrapImport ∉ prefixStatements ∧ wrapper "run" ∉ prefixStatements ∧
    disguised ∉ prefixStatements ∧ workerMain ∈ prefixStatements := by
  refine ⟨?_, ?_, ?_, ?_⟩
  · decide +kernel
  · intro h
    have hplain := prefixStatements_plain h
    rw [isWrapper_wrapper] at hplain
    cases hplain
  · decide +kernel
  · refine List.mem_append_right _ (List.mem_cons_of_mem _ (List.mem_append_right _ ?_))
    simp [thresholdGuard]

theorem overlay_of_kept {rest wrapped : List Ast} (hwrapped : wrapBootstrap (kept rest) = wrapped)
    (hopening : opening wrapped = 0) : overlay rest = prefixStatements ++ wrapped := by
  rw [overlay, hwrapped, insertAfterOpening, hopening]
  rfl

/-- What becomes of the scripts of the trial. -/
theorem overlay_trial : overlay [bootstrapImport] = settledBody ∧
    overlay [bootstrapImport, disguised] = disguisedBody ∧
    overlay settledBody = settledBody ∧ overlay disguisedBody = settledBody := by
  obtain ⟨himport, hwrapper, hdisguised, hmain⟩ := trial_statements
  have hsingle : kept [bootstrapImport] = [bootstrapImport] := by simp [kept, himport]
  have hpair : kept [bootstrapImport, disguised] = [bootstrapImport, disguised] := by
    simp [kept, himport, hdisguised]
  have hwrapped : kept [bootstrapImport, wrapper "run"] = [bootstrapImport, wrapper "run"] := by
    simp [kept, himport, hwrapper]
  have hthree : kept [bootstrapImport, wrapper "run", workerMain] = [bootstrapImport, wrapper "run"] := by
    simp [kept, himport, hwrapper, hmain]
  refine ⟨overlay_of_kept ?_ rfl, overlay_of_kept ?_ rfl, overlay_of_kept ?_ rfl, overlay_of_kept ?_ rfl⟩
  · rw [hsingle]
    decide +kernel
  · rw [hpair]
    decide +kernel
  · rw [settledBody, kept_prefixStatements_append, hwrapped]
    decide +kernel
  · rw [disguisedBody, kept_prefixStatements_append, hthree]
    decide +kernel

theorem legacyWorkers_trial : ∀ body ∈ [[bootstrapImport], [bootstrapImport, disguised], settledBody, disguisedBody],
    ∀ stmt ∈ body, legacyWorker stmt = none := by
  have hlast : ∀ stmt ∈ [bootstrapImport, wrapper "run", workerMain, disguised], legacyWorker stmt = none := by
    decide +kernel
  intro body hbody stmt hstmt
  by_cases hstart : stmt ∈ prefixStatements
  · exact legacyWorker_prefixStatements hstart
  · refine hlast stmt ?_
    simp only [List.mem_cons, List.not_mem_nil, or_false] at hbody
    obtain rfl | rfl | rfl | rfl := hbody
    · simp_all
    · simp only [List.mem_cons, List.not_mem_nil, or_false] at hstmt ⊢
      tauto
    · rw [settledBody, List.mem_append] at hstmt
      simp only [List.mem_cons, List.not_mem_nil, or_false] at hstmt ⊢
      tauto
    · rw [disguisedBody, List.mem_append] at hstmt
      simp only [List.mem_cons, List.not_mem_nil, or_false] at hstmt ⊢
      tauto

/-- What the policy does with a script that has no overlay of before. -/
theorem rewriteModule_of_legacyFree {py : Python} {body result : List Ast}
    (h : ∀ stmt ∈ body, legacyWorker stmt = none) (hresult : rewriteModule py body = .ok result) :
    result = overlay body := by
  obtain ⟨rest, hless, -, rfl⟩ := rewriteModule_iff.mp hresult
  rw [hless.unique (.without h)]

theorem settledBody_ne : disguisedBody ≠ settledBody := by
  intro h
  have hlength := congrArg List.length h
  rw [disguisedBody, settledBody, List.length_append, List.length_append] at hlength
  simp at hlength

/-- What the parser of the trial knows. -/
theorem parse_trial : trialPython.parse bootstrapSource = some [bootstrapImport] ∧
    trialPython.parse disguisedSource = some [bootstrapImport, disguised] ∧
    trialPython.parse (printed trialPython settledBody) = some settledBody ∧
    trialPython.parse (printed trialPython disguisedBody) = some disguisedBody := by
  obtain ⟨hsources, hbootstrap, hdisguised, htexts⟩ := sources_ne
  have hsettled : printed trialPython settledBody = printedText "" ++ "\n" := by
    rw [printed_trialPython, trialUnparse, if_pos rfl]
  have hother : printed trialPython disguisedBody =
      printedText ("\n" ++ String.join workerMainLines) ++ "\n" := by
    rw [printed_trialPython, trialUnparse, if_neg settledBody_ne]
  rw [hsettled, hother, trialPython_parse]
  refine ⟨?_, ?_, ?_, ?_⟩
  · rw [trialParse, if_pos rfl]
  · rw [trialParse, if_neg (Ne.symm hsources), if_pos rfl]
  · rw [trialParse, if_neg (hbootstrap _), if_neg (hdisguised _), if_pos rfl]
  · rw [trialParse, if_neg (hbootstrap _), if_neg (hdisguised _), if_neg htexts, if_pos rfl]

theorem mem_trial {source : String} {body : List Ast} (h : trialPython.parse source = some body) :
    body ∈ [[bootstrapImport], [bootstrapImport, disguised], settledBody, disguisedBody] := by
  rw [trialPython_parse, trialParse] at h
  simp only [List.mem_cons, List.not_mem_nil, or_false]
  split at h
  · exact .inl (Option.some.inj h).symm
  · split at h
    · exact .inr (.inl (Option.some.inj h).symm)
    · split at h
      · exact .inr (.inr (.inl (Option.some.inj h).symm))
      · split at h
        · exact .inr (.inr (.inr (Option.some.inj h).symm))
        · cases h

theorem roundTrips_trial : RoundTrips trialPython := by
  intro source body result hparse hresult _
  have hbody := mem_trial hparse
  obtain rfl := rewriteModule_of_legacyFree (legacyWorkers_trial body hbody) hresult
  obtain ⟨h1, h2, h3, h4⟩ := overlay_trial
  obtain ⟨-, -, hsettled, hdisguised⟩ := parse_trial
  simp only [List.mem_cons, List.not_mem_nil, or_false] at hbody
  obtain rfl | rfl | rfl | rfl := hbody
  · rw [h1]
    exact hsettled
  · rw [h2]
    exact hdisguised
  · rw [h3]
    exact hsettled
  · rw [h4]
    exact hsettled

/-- The scripts of the trial are accepted. -/
theorem applied_trial {source : String} {body : List Ast} (hparse : trialPython.parse source = some body)
    (hmatches : bootstraps (kept body) ≠ 0) :
    applied trialPython source = .ok (printed trialPython (overlay body)) := by
  have hnone := legacyWorkers_trial body (mem_trial hparse)
  exact applied_iff.mpr (rewriteSource_iff.mpr ⟨body, overlay body, hparse,
    rewriteModule_iff.mpr ⟨body, .without hnone, hmatches, rfl⟩, rfl, rfl⟩)

/-- The import alone is settled. -/
theorem settled_trial : Settled trialPython bootstrapSource (printed trialPython settledBody) := by
  obtain ⟨himport, -, -, -⟩ := trial_statements
  have hkept : kept [bootstrapImport] = [bootstrapImport] := by simp [kept, himport]
  have happlied := applied_trial parse_trial.1 (by rw [hkept]; decide +kernel)
  rw [overlay_trial.1] at happlied
  refine (settled_iff roundTrips_trial parse_trial.1 happlied).mpr ?_
  have hnone := legacyWorkers_trial _ (mem_trial parse_trial.1)
  constructor
  · intro rest hless
    rw [← hless.unique (.without hnone)]
    exact hnone
  · intro rest hless stmt hstmt hnot
    rw [← hless.unique (.without hnone), List.mem_singleton] at hstmt
    rw [hstmt] at hnot ⊢
    have hsame : stripped bootstrapImport = bootstrapImport := by decide +kernel
    rwa [hsame]

/-- A function of the prefix with a wrapper in it stands in the written script as
that function, and the next application drops it. -/
theorem disguised_dropped : RoundTrips trialPython ∧
    trialPython.parse disguisedSource = some [bootstrapImport, disguised] ∧
    (∀ stmt ∈ [bootstrapImport, disguised], legacyWorker stmt = none) ∧
    applications trialPython 1 disguisedSource = .ok (printed trialPython disguisedBody) ∧
    applications trialPython 2 disguisedSource = .ok (printed trialPython settledBody) ∧
    ¬ Settled trialPython disguisedSource (printed trialPython disguisedBody) := by
  obtain ⟨himport, hwrapper, hdisguised, hmain⟩ := trial_statements
  obtain ⟨-, hparse, hsettledParse, hparse2⟩ := parse_trial
  have hpair : kept [bootstrapImport, disguised] = [bootstrapImport, disguised] := by
    simp [kept, himport, hdisguised]
  have hthree : kept disguisedBody = [bootstrapImport, wrapper "run"] := by
    rw [disguisedBody, kept_prefixStatements_append]
    simp [kept, himport, hwrapper, hmain]
  have honce := applied_trial hparse (by rw [hpair]; decide +kernel)
  rw [overlay_trial.2.1] at honce
  have htwice := applied_trial hparse2 (by rw [hthree]; decide +kernel)
  rw [overlay_trial.2.2.2] at htwice
  have h1 : applications trialPython 1 disguisedSource = .ok (printed trialPython disguisedBody) := by
    rw [applications_one, honce]
  have h2 : applications trialPython 2 disguisedSource = .ok (printed trialPython settledBody) := by
    rw [applications_succ h1, htwice]
  refine ⟨roundTrips_trial, hparse, legacyWorkers_trial _ (mem_trial hparse), h1, h2, ?_⟩
  intro hsettled
  have hsame := Except.ok.inj ((hsettled.retry 2 (by decide)).symm.trans h2)
  rw [hsame, hsettledParse] at hparse2
  exact settledBody_ne (Option.some.inj hparse2).symm

end Trial

end Threshold

end KaggleRelay
