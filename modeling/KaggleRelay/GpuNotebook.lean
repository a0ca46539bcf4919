/-
What the GPU policy makes of a notebook, and that it makes it once.

* `VisitedCell` — what becomes of a cell: a code cell that is Python is
  rewritten, another one stays;
* `CellsGuarded` — what becomes of the cells: one policy cell, the first;
* `gpu_policy_sound` — scripts and notebooks follow the rule, and a second
  application changes nothing.
-/
import KaggleRelay.DatasetSources
import KaggleRelay.GpuPolicySound

namespace KaggleRelay

open JsonText PythonAst

namespace Gpu

variable {py : Python} {cell cell' : JsonObject}

/-! ### Lines -/

theorem flatten_splitKeep (l line : List Char) : (splitKeep l line).flatten = line ++ l := by
  induction l, line using splitKeep.induct with
  | case1 => rfl
  | case2 line hne =>
    rw [splitKeep]
    · simp
    · exact hne
  | case3 line rest ih =>
    rw [splitKeep, List.flatten_cons, ih]
    simp
  | case4 c rest line hcrlf hbreak ih =>
    rw [splitKeep, if_pos hbreak, List.flatten_cons, ih]
    · simp
    · exact hcrlf
  | case5 c rest line hcrlf hbreak ih =>
    rw [splitKeep, if_neg hbreak, ih]
    · simp
    · exact hcrlf

theorem joinLines_map (lines : List (List Char)) :
    joinLines ((lines.map String.ofList).map .str) = .ok (String.ofList lines.flatten) := by
  induction lines with
  | nil => rfl
  | cons line lines ih =>
    rw [List.map_cons, List.map_cons, joinLines, ih, List.flatten_cons, String.ofList_append]
    rfl

/-- Joining the lines of a text gives the text. -/
theorem joinLines_splitLines (s : String) : joinLines ((splitLines s).map .str) = .ok s := by
  rw [splitLines, joinLines_map, flatten_splitKeep, List.nil_append, String.ofList_toList]

/-! ### Cells -/

/-- A cell with another source. -/
def withSource (cell : JsonObject) (source : String) : JsonObject :=
  setField cell "source" (.arr ((splitLines source).map .str))

theorem cellText_withSource (cell : JsonObject) (source : String) :
    cellText (withSource cell source) = .ok source := by
  have hsource : getField (withSource cell source) "source" =
      some (.arr ((splitLines source).map .str)) := by
    rw [withSource, getField_setField, if_pos rfl]
  rw [cellText, hsource]
  exact joinLines_splitLines source

theorem isCode_withSource (cell : JsonObject) (source : String) :
    isCode (withSource cell source) = isCode cell := by
  rw [isCode, isCode, withSource, getField_setField, if_neg (by decide)]

theorem isPolicy_withSource (cell : JsonObject) (source : String) :
    isPolicy (withSource cell source) = isPolicy cell := by
  rw [isPolicy, isPolicy, withSource, getField_setField, if_neg (by decide)]

/-- What becomes of a cell. -/
inductive VisitedCell (py : Python) : JsonObject → JsonObject → Prop
  | other {cell : JsonObject} (noCode : isCode cell = false) : VisitedCell py cell cell
  /-- A cell that is no Python, such as one of magic commands. -/
  | unparsable {cell : JsonObject} {source : String} (code : isCode cell = true)
      (reads : cellText cell = .ok source) (fails : py.parse source = none) : VisitedCell py cell cell
  | python {cell : JsonObject} {source : String} {body body' : List Ast} (code : isCode cell = true)
      (reads : cellText cell = .ok source) (parses : py.parse source = some body)
      (rewritten : List.Forall₂ Rewritten body body') (noTrain : ∀ stmt ∈ body', trainCalls stmt = 0) :
      VisitedCell py cell (withSource cell (py.unparse body' ++ "\n"))

theorem visited_of_visitCell (h : visitCell py cell = .ok cell') : VisitedCell py cell cell' := by
  rw [visitCell] at h
  by_cases hcode : isCode cell = true
  · rw [if_pos hcode] at h
    simp only [ok_bind] at h
    obtain ⟨source, hsource, h⟩ := h
    cases hparse : py.parse source with
    | none =>
      rw [rewritePython, hparse] at h
      obtain rfl : cell = cell' := ok_pure.mp h
      exact .unparsable hcode hsource hparse
    | some body =>
      rw [rewritePython, hparse] at h
      obtain rfl := ok_pure.mp h
      refine .python hcode hsource hparse (forall₂_map fun t _ => rewritten_devicePolicy t) ?_
      intro stmt hstmt
      obtain ⟨t, -, rfl⟩ := List.mem_map.mp hstmt
      exact trainCalls_devicePolicy t
  · rw [if_neg hcode] at h
    obtain rfl : cell = cell' := Except.ok.inj h
    exact .other (Bool.eq_false_iff.mpr hcode)

/-- The statements of a cell come back from their text. -/
def CellRoundTrips (py : Python) (cell : JsonObject) : Prop :=
  ∀ source body, cellText cell = .ok source → py.parse source = some body →
    RoundTrips py (rewriteCell body)

/-- A cell that has been visited stays as it is. -/
theorem visitCell_visitCell (htrip : CellRoundTrips py cell) (h : visitCell py cell = .ok cell') :
    visitCell py cell' = .ok cell' := by
  have hfirst := h
  rw [visitCell] at h
  by_cases hcode : isCode cell = true
  · rw [if_pos hcode] at h
    simp only [ok_bind] at h
    obtain ⟨source, hsource, h⟩ := h
    cases hparse : py.parse source with
    | none =>
      rw [rewritePython, hparse] at h
      obtain rfl : cell = cell' := ok_pure.mp h
      exact hfirst
    | some body =>
      obtain ⟨honce, htwice⟩ := rewritePython_cell hparse (htrip source body hsource hparse)
      rw [honce] at h
      obtain rfl : withSource cell (py.unparse (rewriteCell body) ++ "\n") = cell' := ok_pure.mp h
      have hcode' := (isCode_withSource cell (py.unparse (rewriteCell body) ++ "\n")).trans hcode
      rw [visitCell, if_pos hcode', cellText_withSource]
      refine ok_bind.mpr ⟨_, rfl, ?_⟩
      rw [htwice]
      exact congrArg _ (setField_setField cell "source" _)
  · rw [if_neg hcode] at h
    obtain rfl : cell = cell' := Except.ok.inj h
    exact hfirst

/-- No policy cell comes from a cell that is none. -/
theorem isPolicy_visited (h : VisitedCell py cell cell') : isPolicy cell' = isPolicy cell := by
  cases h with
  | other noCode => rfl
  | unparsable code reads fails => rfl
  | python code reads parses rewritten noTrain => exact isPolicy_withSource _ _

/-! ### Notebooks -/

/-- What becomes of the cells of a notebook: the cells but for policy cells,
visited, after the policy cell. -/
structure CellsGuarded (py : Python) (cells cells' : List JsonObject) : Prop where
  visited : ∃ rest, cells' = policyCell :: rest ∧
    List.Forall₂ (VisitedCell py) (cells.filter fun cell => !isPolicy cell) rest
  first : (cells'.filter isPolicy) = [policyCell]

theorem forall₂_of_mapM {α β : Type} {f : α → Except Exc β} {xs : List α} {ys : List β}
    (h : xs.mapM f = .ok ys) : List.Forall₂ (fun x y => f x = .ok y) xs ys := by
  induction xs generalizing ys with
  | nil =>
    cases h
    exact .nil
  | cons x xs ih =>
    rw [List.mapM_cons] at h
    simp only [ok_bind, ok_pure] at h
    obtain ⟨y, hy, ys, hys, rfl⟩ := h
    exact .cons hy (ih hys)

theorem mapM_of_forall {α : Type} {f : α → Except Exc α} {xs : List α} (h : ∀ x ∈ xs, f x = .ok x) :
    xs.mapM f = .ok xs := by
  induction xs with
  | nil => rfl
  | cons x xs ih =>
    obtain ⟨hx, hxs⟩ := List.forall_mem_cons.mp h
    rw [List.mapM_cons, hx, ih hxs]
    rfl

/-- What a member of the right list is related to. -/
theorem forall₂_right {α β : Type} {R : α → β → Prop} {xs : List α} {ys : List β}
    (h : List.Forall₂ R xs ys) {y : β} (hy : y ∈ ys) : ∃ x ∈ xs, R x y := by
  induction h with
  | nil => cases hy
  | cons hxy _ ih =>
    obtain rfl | htail := List.mem_cons.mp hy
    · exact ⟨_, List.mem_cons_self, hxy⟩
    · obtain ⟨x, hx, hrel⟩ := ih htail
      exact ⟨x, List.mem_cons_of_mem _ hx, hrel⟩

theorem isPolicy_policyCell : isPolicy policyCell = true := by decide

/-- No cell after the first is a policy cell. -/
theorem not_policy_of_mapM {cells rest : List JsonObject}
    (h : (cells.filter fun cell => !isPolicy cell).mapM (visitCell py) = .ok rest) :
    ∀ cell' ∈ rest, isPolicy cell' = false := by
  intro cell' hcell'
  obtain ⟨cell, hcell, hvisit⟩ := forall₂_right (forall₂_of_mapM h) hcell'
  rw [isPolicy_visited (visited_of_visitCell hvisit)]
  simpa using (List.mem_filter.mp hcell).2

theorem guarded_rewriteCells {cells cells' : List JsonObject} (h : rewriteCells py cells = .ok cells') :
    CellsGuarded py cells cells' := by
  simp only [rewriteCells, ok_bind, ok_pure] at h
  obtain ⟨rest, hrest, rfl⟩ := h
  refine ⟨⟨rest, rfl, (forall₂_of_mapM hrest).imp fun _ _ => visited_of_visitCell⟩, ?_⟩
  have hnone : ∀ cell' ∈ rest, ¬isPolicy cell' = true := by
    intro cell' hcell'
    rw [not_policy_of_mapM hrest cell' hcell']
    exact Bool.false_ne_true
  rw [List.filter_cons, if_pos isPolicy_policyCell, List.filter_eq_nil_iff.mpr hnone]

/-- Cells that have been rewritten stay as they are. -/
theorem rewriteCells_rewriteCells {cells cells' : List JsonObject}
    (htrip : ∀ cell ∈ cells, CellRoundTrips py cell) (h : rewriteCells py cells = .ok cells') :
    rewriteCells py cells' = .ok cells' := by
  simp only [rewriteCells, ok_bind, ok_pure] at h
  obtain ⟨rest, hrest, rfl⟩ := h
  have hkept : ((policyCell :: rest).filter fun cell => !isPolicy cell) = rest := by
    rw [List.filter_cons, if_neg (by rw [isPolicy_policyCell]; decide)]
    refine List.filter_eq_self.mpr fun cell' hcell' => ?_
    rw [not_policy_of_mapM hrest cell' hcell']
    rfl
  have hagain : rest.mapM (visitCell py) = .ok rest := by
    refine mapM_of_forall fun cell' hcell' => ?_
    obtain ⟨cell, hcell, hvisit⟩ := forall₂_right (forall₂_of_mapM hrest) hcell'
    exact visitCell_visitCell (htrip cell (List.mem_of_mem_filter hcell)) hvisit
  rw [rewriteCells, hkept, hagain]
  rfl

/-- The cells of a notebook. -/
def Cells (notebook : Json) (cells : List JsonObject) : Prop :=
  ∃ field, notebook.item "cells" = .ok field ∧ cellList field = .ok cells

theorem cellList_map (cells : List JsonObject) : cellList (.arr (cells.map .obj)) = .ok cells := by
  rw [cellList, ok_orError]
  induction cells with
  | nil => rfl
  | cons cell cells ih =>
    rw [List.map_cons, List.mapM_cons, ih]
    rfl

theorem item_setField (fields : JsonObject) (k : String) (x : Json) :
    Json.item (.obj (setField fields k x)) k = .ok x := by
  rw [Json.item, getField_setField, if_pos rfl]

theorem of_rewriteNotebook {notebook updated : Json} (h : rewriteNotebook py notebook = .ok updated) :
    ∃ fields cells cells', notebook = .obj fields ∧ Cells notebook cells ∧
      rewriteCells py cells = .ok cells' ∧
      updated = .obj (setField fields "cells" (.arr (cells'.map .obj))) := by
  simp only [rewriteNotebook, ok_bind] at h
  obtain ⟨field, hfield, cells, hcells, cells', hrewrite, h⟩ := h
  split at h
  · next fields =>
    exact ⟨fields, cells, cells', rfl, ⟨field, hfield, hcells⟩, hrewrite, (ok_pure.mp h).symm⟩
  · cases h

/-- The policy on scripts and on notebooks, as often as it is applied. -/
structure PolicySound (py : Python) : Prop where
  /-- A script becomes what `Guarded` says, and stays so. -/
  script : ∀ source body, py.parse source = some body → RoundTrips py (rewriteScript body) →
    ∃ updated, rewritePython py source true = some updated ∧
      py.parse updated = some (rewriteScript body) ∧ Guarded body (rewriteScript body) ∧
      rewritePython py updated true = some updated
  /-- The cells of a notebook become what `CellsGuarded` says, its other fields
  stay, and a second application changes nothing. -/
  notebook : ∀ notebook updated, rewriteNotebook py notebook = .ok updated →
    ∃ cells cells', Cells notebook cells ∧ Cells updated cells' ∧ CellsGuarded py cells cells' ∧
      (∀ field, field ≠ "cells" → updated.get field = notebook.get field) ∧
      ((∀ cell ∈ cells, CellRoundTrips py cell) → rewriteNotebook py updated = .ok updated)

/-- The GPU policy is complete and idempotent. -/
theorem gpu_policy_sound (py : Python) : PolicySound py := by
  constructor
  · intro source body hparse htrip
    obtain ⟨honce, htwice⟩ := rewritePython_script hparse htrip
    exact ⟨_, honce, htrip, guarded_rewriteScript body, htwice⟩
  · intro notebook updated h
    obtain ⟨fields, cells, cells', rfl, hcells, hrewrite, rfl⟩ := of_rewriteNotebook h
    have hcells' : Cells (.obj (setField fields "cells" (.arr (cells'.map .obj)))) cells' :=
      ⟨_, item_setField fields "cells" _, cellList_map cells'⟩
    refine ⟨cells, cells', hcells, hcells', guarded_rewriteCells hrewrite, ?_, ?_⟩
    · intro field hfield
      rw [Json.get, Json.get, getField_setField, if_neg hfield]
    · intro htrip
      have hagain := rewriteCells_rewriteCells htrip hrewrite
      simp only [rewriteNotebook, item_setField, bind, Except.bind, cellList_map, hagain,
        setField_setField]
      rfl

/-! ### A notebook of one cell -/

section Trial

def trialSource : String := "m.train(data='d')"

def trialUpdated : String := "_relay_yolo_train(m.train, data='d')\n"

def trialCall : Ast := exprStmt (call (attr (name "m") "train") [] [keyword "data" (str "d")])

def trialGuarded : Ast :=
  exprStmt (call (name deviceHelper) [attr (name "m") "train"] [keyword "data" (str "d")])

/-- The parser and the printer, on the texts of the trial. -/
def trialPython : Python where
  parse source :=
    if source = trialSource then some [trialCall]
    else if source = trialUpdated then some [trialGuarded] else none
  unparse body := if body = [trialGuarded] then "_relay_yolo_train(m.train, data='d')" else ""

def trialNotebook : Json :=
  .obj [("cells", .arr [.obj [("cell_type", .str "code"), ("source", .str trialSource)]]),
    ("nbformat", .int 4)]

theorem trialNotebook_rewritten : (rewriteNotebook trialPython trialNotebook).isOk = true := by
  decide +kernel

theorem roundTrips_trial : RoundTrips trialPython (rewriteCell [trialCall]) := by
  rw [RoundTrips]
  decide +kernel

/-- The cell is rewritten once. -/
theorem gpu_policy_sound_trial : ∃ updated, rewriteNotebook trialPython trialNotebook = .ok updated ∧
    rewriteNotebook trialPython updated = .ok updated := by
  obtain ⟨updated, hupdated⟩ : ∃ updated, rewriteNotebook trialPython trialNotebook = .ok updated := by
    have hok := trialNotebook_rewritten
    cases h : rewriteNotebook trialPython trialNotebook with
    | ok updated => exact ⟨updated, rfl⟩
    | error e =>
      rw [h] at hok
      cases hok
  refine ⟨updated, hupdated, ?_⟩
  obtain ⟨cells, cells', ⟨field, hfield, hcells⟩, -, -, -, htwice⟩ :=
    (gpu_policy_sound trialPython).notebook trialNotebook updated hupdated
  refine htwice fun cell hcell source body hsource hparse => ?_
  obtain rfl : _ = field := Except.ok.inj (hfield : Except.ok _ = Except.ok field)
  obtain rfl : _ = cells := Except.ok.inj (hcells : Except.ok _ = Except.ok cells)
  obtain rfl := List.mem_singleton.mp hcell
  obtain rfl : trialSource = source := Except.ok.inj hsource
  have hbody : [trialCall] = body := by
    rw [trialPython] at hparse
    simpa using hparse
  rw [← hbody]
  exact roundTrips_trial

end Trial

end Gpu

end KaggleRelay
