/-
Interrupted verification batches are sound.

A batch may be cut off after any of its operations, and the next one takes up
its checkpoint.

* `Recorded` — every row is the row of a checkpoint, and every file verified in
  it has been streamed completely, with its size and digest, from the version
  the row is bound to;
* `verifyVersionFiles_safe` — every operation of a batch keeps `Recorded`, and
  a batch that returns has seen the expected listing first and last;
* `recorded_of_reachable` — hence the same for any number of batches;
* `resumable_verification_sound` — what that means for a batch that returns and
  for every row.
-/
import KaggleRelay.FileVerification

namespace KaggleRelay

open Effects JsonText

variable (lib : Library)

/-! ### What a trace says -/

/-- The names and sizes of a page. -/
def ListResponse.entries (r : ListResponse) : Option (List (String × ℕ)) := do
  let files ← r.files
  files.mapM fun file =>
    match file.name, file.totalBytes with
    | some name, some (.ofNat size) => some (name, size)
    | _, _ => none

/-- Page by page, each asked for with the token the one before gave, up to a
page without token. -/
inductive Listed (targetRef : String) :
    Option String → List VerifyEvent → List (String × ℕ) → Prop
  | last {token : Option String} {response : ListResponse} {files : List (String × ℕ)}
      (hend : response.nextPageToken.isEmpty = true) (hfiles : response.entries = some files) :
      Listed targetRef token [.listed targetRef token response] files
  | more {token : Option String} {t : String} {response : ListResponse}
      {files others : List (String × ℕ)} {evs : List VerifyEvent}
      (hnext : response.nextPageToken = .text t) (hfiles : response.entries = some files)
      (rest : Listed targetRef (some t) evs others) :
      Listed targetRef token (.listed targetRef token response :: evs) (files ++ others)

/-- A whole listing whose paths and sizes are exactly those of an inventory. -/
def Lists (targetRef : String) (evs : List VerifyEvent) (inventory : Dict ℕ) : Prop :=
  ∃ files, Listed targetRef none evs files ∧
    ∀ name size, inventory[name]? = some size ↔ (name, size) ∈ files

/-- The file was opened, read block by block to its end, and the blocks
together are `bytes`. -/
def Streamed (trace : List VerifyEvent) (request : DownloadRequest) (bytes : List UInt8) : Prop :=
  ∃ (before : List VerifyEvent) (blocks : List (List UInt8)) (after : List VerifyEvent),
    trace = before ++ (.opened request :: blocks.map (.block request)) ++ (.ended request :: after) ∧
      blocks.flatten = bytes

theorem Streamed.append {trace : List VerifyEvent} {request : DownloadRequest}
    {bytes : List UInt8} (h : Streamed trace request bytes) (evs : List VerifyEvent) :
    Streamed (trace ++ evs) request bytes := by
  obtain ⟨before, blocks, after, rfl, hb⟩ := h
  exact ⟨before, blocks, after ++ evs, by simp, hb⟩

/-- The request asks for this file of the version the binding names. -/
def Asks (b : Binding) (name : String) (request : DownloadRequest) : Prop :=
  ownerAndSlug b.datasetRef = .ok (request.ownerSlug, request.datasetSlug) ∧
    request.datasetVersionNumber = b.version ∧ request.fileName = name

/-- The file was streamed completely from the version of the binding, with
this size and digest. -/
def FileStreamed (trace : List VerifyEvent) (b : Binding) (name : String) (value : ℕ × String) :
    Prop :=
  ∃ request bytes, Asks b name request ∧ Streamed trace request bytes ∧
    bytes.length = value.1 ∧ lib.sha256 bytes = value.2

theorem FileStreamed.append {trace : List VerifyEvent} {b : Binding} {name : String}
    {value : ℕ × String} (h : FileStreamed lib trace b name value) (evs : List VerifyEvent) :
    FileStreamed lib (trace ++ evs) b name value := by
  obtain ⟨request, bytes, hasks, hstr, hlen, hsha⟩ := h
  exact ⟨request, bytes, hasks, hstr.append evs, hlen, hsha⟩

/-- A row of the store is the row of a checkpoint in its own scope, all of
whose verified files have been streamed. -/
def RowRecorded (trace : List VerifyEvent) (scope : String) (row : Candidate) : Prop :=
  ∃ c : Checkpoint, row = c.row ∧ c.binding.scope lib = scope ∧
    ∀ name value, c.verified[name]? = some value → FileStreamed lib trace c.binding name value

/-- The invariant of the store. -/
def Recorded (w : Verification) : Prop :=
  ∀ scope row, w.candidates[scope]? = some row → RowRecorded lib w.trace scope row

variable {lib}

theorem Recorded.extend {w : Verification} (h : Recorded lib w) (evs : List VerifyEvent) :
    Recorded lib { w with trace := w.trace ++ evs } := by
  intro scope row hrow
  obtain ⟨c, hc, hscope, hstr⟩ := h scope row hrow
  exact ⟨c, hc, hscope, fun name value hv => (hstr name value hv).append lib evs⟩

theorem Recorded.log {w : Verification} (h : Recorded lib w) (e : VerifyEvent) :
    Recorded lib (w.log e) := h.extend [e]

/-- Writing one recorded row keeps the invariant. -/
theorem Recorded.insert {w : Verification} (h : Recorded lib w) {scope : String} {row : Candidate}
    (hrow : RowRecorded lib w.trace scope row) :
    Recorded lib { w with candidates := w.candidates.insert scope row } := by
  intro scope' row' hrow'
  simp only [Std.ExtTreeMap.getElem?_insert] at hrow'
  split at hrow'
  · next heq =>
    rw [← Std.LawfulEqCmp.eq_of_compare heq]
    cases hrow'
    exact hrow
  · exact h scope' row' hrow'

/-! ### The operations, one by one -/

/-- A program that may raise, from a recorded store: the invariant holds
throughout, and `Q` where it returns. -/
def Keeps (lib : Library) {α : Type} (Q : α → Verification → Prop) (p : Verify α)
    (w : Verification) : Prop :=
  Safe (verifySem lib) (Recorded lib) (post Q fun _ _ => True) p w

theorem Keeps.seq {α β : Type} {P : α → Verification → Prop} {Q : β → Verification → Prop}
    {p : Verify α} {f : α → Verify β} {w : Verification} (hp : Keeps lib P p w)
    (hf : ∀ a w, P a w → Keeps lib Q (f a) w) : Keeps lib Q (p >>= f) w :=
  Safe.seq hp hf

theorem Keeps.pure {α : Type} {Q : α → Verification → Prop} {a : α} {w : Verification}
    (h : Q a w) : Keeps lib Q (Pure.pure a) w := h

theorem Keeps.raiseIf {β : Type} {Q : β → Verification → Prop} {c : Prop} [Decidable c] {e : Exc}
    {f : Unit → Verify β} {w : Verification} (h : ¬c → Keeps lib Q (f ()) w) :
    Keeps lib Q (Eff.raiseIf c e >>= f) w := by
  refine Safe.seq (Safe.raiseIf fun _ => trivial) ?_
  rintro _ _ ⟨hc, rfl⟩
  exact h hc

theorem Keeps.raiseIf_last {Q : Unit → Verification → Prop} {c : Prop} [Decidable c] {e : Exc}
    {w : Verification} (h : ¬c → Q () w) : Keeps lib Q (Eff.raiseIf c e) w := by
  refine Safe.mono (Safe.raiseIf (E := fun _ _ => True) fun _ => trivial) ?_
  rintro (e | _) w' hw'
  · trivial
  · obtain ⟨hc, rfl⟩ := hw'
    exact h hc

theorem Keeps.orRaise {α β : Type} {Q : β → Verification → Prop} {r : Option α} {e : Exc}
    {f : α → Verify β} {w : Verification} (h : ∀ a, r = some a → Keeps lib Q (f a) w) :
    Keeps lib Q (Eff.orRaise r e >>= f) w := by
  refine Safe.seq (Safe.orRaise fun _ => trivial) ?_
  rintro a _ ⟨ha, rfl⟩
  exact h a ha

theorem Keeps.lift {α β : Type} {Q : β → Verification → Prop} {r : Except Exc α}
    {f : α → Verify β} {w : Verification} (h : ∀ a, r = .ok a → Keeps lib Q (f a) w) :
    Keeps lib Q (Eff.lift r >>= f) w := by
  refine Safe.seq (Safe.lift (Q := fun a w' => r = .ok a ∧ w' = w) (fun a ha => ⟨ha, rfl⟩)
    fun _ _ => trivial) ?_
  rintro a _ ⟨ha, rfl⟩
  exact h a ha

theorem Keeps.mono {α : Type} {P Q : α → Verification → Prop} {p : Verify α} {w : Verification}
    (h : Keeps lib P p w) (hPQ : ∀ a w, P a w → Q a w) : Keeps lib Q p w := by
  refine Safe.mono h ?_
  rintro (e | a) w' h'
  · exact h'
  · exact hPQ a w' h'

variable {w : Verification}

theorem keeps_turns (h : Recorded lib w) : Keeps lib (fun _ w' => w' = w) Verify.turns w := by
  intro c r w' hs
  cases hs
  exact ⟨h, rfl⟩

theorem keeps_monotonic (h : Recorded lib w) :
    Keeps lib (fun _ w' => w' = w) Verify.monotonic w := by
  intro c r w' hs
  cases hs
  exact ⟨h, rfl⟩

theorem keeps_check (h : Recorded lib w) : Keeps lib (fun _ w' => w' = w) Verify.check w := by
  intro c r w' hs
  cases hs
  refine ⟨h, ?_⟩
  rcases c .check with e | a
  · trivial
  · rfl

theorem keeps_buildKaggleClient (h : Recorded lib w) :
    Keeps lib (fun _ w' => w' = w) Verify.buildKaggleClient w := by
  intro c r w' hs
  cases hs
  refine ⟨h, ?_⟩
  rcases c .buildKaggleClient with e | a
  · trivial
  · rfl

theorem keeps_datasetListFiles (h : Recorded lib w) (target : String) (token : Option String) :
    Keeps lib (fun response w' => w' = w.log (.listed target token response))
      (Verify.datasetListFiles target token) w := by
  intro c r w' hs
  simp only [verifySem] at hs
  split at hs <;> cases hs
  · exact ⟨h.log _, rfl⟩
  · exact ⟨h, trivial⟩

theorem keeps_uploadContentInventory (h : Recorded lib w) (dir : String) (names : List String) :
    Keeps lib (fun expected w' => w' = w.log (.inventoried dir expected))
      (Verify.uploadContentInventory dir names) w := by
  intro c r w' hs
  simp only [verifySem] at hs
  split at hs <;> cases hs
  · exact ⟨h.log _, rfl⟩
  · exact ⟨h, trivial⟩

theorem keeps_downloadDataset (h : Recorded lib w) (request : DownloadRequest) :
    Keeps lib (fun _ w' => w' = w.log (.opened request)) (Verify.downloadDataset request) w := by
  intro c r w' hs
  simp only [verifySem] at hs
  split at hs <;> cases hs
  · exact ⟨h.log _, rfl⟩
  · exact ⟨h, trivial⟩

theorem keeps_nextBlock (h : Recorded lib w) (request : DownloadRequest) :
    Keeps lib (fun block w' => w' = w.log (match block with
      | some bytes => .block request bytes
      | none => .ended request)) (Verify.nextBlock request) w := by
  intro c r w' hs
  simp only [verifySem] at hs
  split at hs <;> cases hs
  · exact ⟨h.log _, rfl⟩
  · exact ⟨h.log _, rfl⟩
  · exact ⟨h, trivial⟩

/-- The checkpoint of a candidate as the store holds it. -/
def Holds (lib : Library) (w : Verification) (c : Checkpoint) : Prop :=
  w.candidates[c.binding.scope lib]? = some c.row ∧
    ∀ name value, c.verified[name]? = some value → FileStreamed lib w.trace c.binding name value

/-- A batch that loads goes on with the checkpoint of its own binding and
inventory. -/
theorem keeps_load (h : Recorded lib w) (b : Binding) (expected : Inventory) :
    Keeps lib (fun r w' => Recorded lib w' ∧ w'.trace = w.trace ∧ r.1 = b.scope lib ∧
      ∃ c, Holds lib w' c ∧ c.binding = b ∧ c.expected = expected ∧ c.verified = r.2)
      (Verify.load b expected) w := by
  intro o r w' hs
  simp only [verifySem] at hs
  cases hrow : w.candidates[b.scope lib]? with
  | none =>
    rw [load_none lib hrow] at hs
    cases hs
    have hstart : RowRecorded lib w.trace (b.scope lib) (Checkpoint.start b expected).row :=
      ⟨_, rfl, rfl, fun name value hv => by simp [Checkpoint.start] at hv⟩
    refine ⟨h.insert hstart, h.insert hstart, rfl, rfl, Checkpoint.start b expected, ⟨?_, ?_⟩, rfl, rfl, rfl⟩
    · exact Std.ExtTreeMap.getElem?_insert_self
    · intro name value hv
      simp [Checkpoint.start] at hv
  | some row =>
    obtain ⟨c, rfl, hscope, hstr⟩ := h _ _ hrow
    by_cases hb : b ≠ c.binding ∨ expected ≠ c.expected
    · rw [load_row_of_ne lib hrow hb] at hs
      cases hs
      exact ⟨h, trivial⟩
    · rw [not_or, not_not, not_not] at hb
      obtain ⟨rfl, rfl⟩ := hb
      rw [load_row lib hrow] at hs
      cases hs
      exact ⟨h, h, rfl, rfl, c, ⟨hrow, hstr⟩, rfl, rfl, rfl⟩

/-- Marking a file that has just been streamed. -/
theorem keeps_markFile (h : Recorded lib w) {c : Checkpoint} (hc : Holds lib w c) {name : String}
    {value : ℕ × String} (hv : c.expected[name]? = some value)
    (hstr : FileStreamed lib w.trace c.binding name value) :
    Keeps lib (fun _ w' => Recorded lib w' ∧ w'.trace = w.trace ∧
        Holds lib w' (c.mark name value hv))
      (Verify.markFile (c.binding.scope lib) name value) w := by
  have hstr' : ∀ n v, (c.mark name value hv).verified[n]? = some v →
      FileStreamed lib w.trace c.binding n v := by
    intro n v hn
    simp only [Checkpoint.mark, Std.ExtTreeMap.getElem?_insert] at hn
    split at hn
    · next heq =>
      cases hn
      rw [← Std.LawfulEqCmp.eq_of_compare heq]
      exact hstr
    · exact hc.2 n v hn
  intro o r w' hs
  simp only [verifySem, markFile_row hc.1, dif_pos hv] at hs
  cases hs
  have hrow : RowRecorded lib w.trace (c.binding.scope lib) (c.mark name value hv).row :=
    ⟨_, rfl, rfl, hstr'⟩
  have h' := h.insert hrow
  exact ⟨h', h', rfl, Std.ExtTreeMap.getElem?_insert_self, hstr'⟩

/-! ### The loops -/

/-- Adding a page adds its entries, and keeps track of every casefolded name. -/
theorem addFiles_ok {files : List RemoteFile} {inventory inventory' : Dict ℕ}
    {names names' : List String}
    (h : addFiles lib files inventory names = .ok (inventory', names'))
    (hnames : ∀ k, k ∈ inventory → lib.casefold k ∈ names) :
    (∀ k, k ∈ inventory' → lib.casefold k ∈ names') ∧
      ∃ entries, ListResponse.entries ⟨false, some files, .missing⟩ = some entries ∧
        ∀ k size, inventory'[k]? = some size ↔ inventory[k]? = some size ∨ (k, size) ∈ entries := by
  induction files generalizing inventory names with
  | nil =>
    cases h
    exact ⟨hnames, [], rfl, by simp⟩
  | cons file files ih =>
    unfold addFiles at h
    split at h
    · next name size hname hsize =>
      split at h
      · cases h
      · next hok =>
        simp only [Bool.or_eq_true, not_or, List.contains_iff_mem] at hok
        have hnew : name ∉ inventory := fun hmem => hok.2 (hnames name hmem)
        obtain ⟨hkeys, entries, hentries, hiff⟩ := ih h (by
          intro k hk
          rw [Std.ExtTreeMap.mem_insert] at hk
          rcases hk with hk | hk
          · rw [Std.LawfulEqCmp.eq_of_compare hk]
            exact List.mem_cons_self
          · exact List.mem_cons_of_mem _ (hnames k hk))
        refine ⟨hkeys, (name, size) :: entries, ?_, ?_⟩
        · simp only [ListResponse.entries, Option.bind_eq_bind, Option.bind_some] at hentries ⊢
          rw [List.mapM_cons, hname, hsize, hentries]
          rfl
        · intro k s
          rw [hiff, Std.ExtTreeMap.getElem?_insert, List.mem_cons, Prod.mk.injEq]
          split
          · next heq =>
            have hk : name = k := Std.LawfulEqCmp.eq_of_compare heq
            subst hk
            have hnone : inventory[name]? = none := Std.ExtTreeMap.getElem?_eq_none hnew
            simp only [hnone, Option.some.injEq, reduceCtorEq, true_and, false_or]
            constructor
            · rintro (rfl | hm)
              · exact Or.inl rfl
              · exact Or.inr hm
            · rintro (rfl | hm)
              · exact Or.inl rfl
              · exact Or.inr hm
          · next hne =>
            have hk : k ≠ name := by
              rintro rfl
              exact hne Std.ReflCmp.compare_self
            simp [hk]
    · cases h

/-- A listing that returns has read all its pages, and holds what it held
before and what they list. -/
theorem keeps_listPages (target : String) {n : ℕ} {token : Option String} {inventory : Dict ℕ}
    {names tokens : List String} (hnames : ∀ k, k ∈ inventory → lib.casefold k ∈ names)
    (h : Recorded lib w) :
    Keeps lib (fun listed w' => ∃ evs files, w' = { w with trace := w.trace ++ evs } ∧
        Listed target token evs files ∧
        ∀ k size, listed[k]? = some size ↔ inventory[k]? = some size ∨ (k, size) ∈ files)
      (listPages lib target n token inventory names tokens) w := by
  induction n generalizing w token inventory names tokens with
  | zero => trivial
  | succ n ih =>
    unfold listPages
    refine (keeps_check h).seq ?_
    rintro _ w₁ rfl
    refine (keeps_datasetListFiles h target token).seq ?_
    rintro response w₂ rfl
    refine Keeps.raiseIf fun _ => Keeps.orRaise fun files hfiles => Keeps.lift ?_
    rintro ⟨inventory', names'⟩ hadd
    obtain ⟨hnames', entries, hentries, hiff⟩ := addFiles_ok hadd hnames
    have hresponse : response.entries = some entries := by
      rw [← hentries, ListResponse.entries, ListResponse.entries, hfiles]
    refine Keeps.raiseIf fun _ => ?_
    split
    · next hend =>
      exact Keeps.raiseIf fun _ =>
        Keeps.pure ⟨_, entries, rfl, Listed.last hend hresponse, hiff⟩
    · refine Keeps.orRaise fun t ht => Keeps.raiseIf fun _ => ?_
      have hnext : response.nextPageToken = .text t := by
        cases htoken : response.nextPageToken <;> simp_all [PageToken.text?]
      refine (ih hnames' (h.log _)).mono ?_
      rintro listed _ ⟨evs, others, rfl, hlisted, hiff'⟩
      refine ⟨.listed target token response :: evs, entries ++ others, ?_,
        Listed.more hnext hresponse hlisted, ?_⟩
      · simp [Verification.log]
      · intro k size
        rw [hiff', hiff, List.mem_append, or_assoc]

theorem keeps_versionFileInventory (target : String) (h : Recorded lib w) :
    Keeps lib (fun listed w' => ∃ evs, w' = { w with trace := w.trace ++ evs } ∧
        Lists target evs listed) (versionFileInventory lib target) w := by
  unfold versionFileInventory
  refine (keeps_turns h).seq ?_
  rintro n w₁ rfl
  refine (keeps_listPages target (by simp) h).mono ?_
  rintro listed _ ⟨evs, files, rfl, hlisted, hiff⟩
  exact ⟨evs, rfl, files, hlisted, by simpa using hiff⟩

/-- A body that returns has been read to its end. -/
theorem keeps_readBody (request : DownloadRequest) (size : ℕ) {n : ℕ} {received : List UInt8}
    (h : Recorded lib w) :
    Keeps lib (fun bytes w' => ∃ blocks : List (List UInt8),
        w' = { w with trace := w.trace ++ (blocks.map (.block request) ++ [.ended request]) } ∧
        bytes = received ++ blocks.flatten) (readBody request size n received) w := by
  induction n generalizing w received with
  | zero => trivial
  | succ n ih =>
    unfold readBody
    refine (keeps_nextBlock h request).seq ?_
    rintro block w₁ rfl
    cases block with
    | none => exact Keeps.pure ⟨[], rfl, by simp⟩
    | some bytes =>
      refine (keeps_check (h.log _)).seq ?_
      rintro _ w₂ rfl
      refine Keeps.raiseIf fun _ => (ih (h.log _)).mono ?_
      rintro all _ ⟨blocks, rfl, rfl⟩
      exact ⟨bytes :: blocks, by simp [Verification.log], by simp⟩

theorem keeps_batchDue {background : Bool} {started : ℚ} {checked verified expected : ℕ}
    (h : Recorded lib w) :
    Keeps lib (fun _ w' => w' = w) (batchDue background started checked verified expected) w := by
  unfold batchDue
  split
  · refine (keeps_monotonic h).seq ?_
    rintro now _ rfl
    exact Keeps.raiseIf_last fun _ => rfl
  · exact Keeps.pure rfl

/-- A file that passes has been streamed completely. -/
theorem keeps_verifyFile {b : Binding} {name : String} {request : DownloadRequest}
    (hasks : Asks b name request) (value : ℕ × String) (h : Recorded lib w) :
    Keeps lib (fun _ w' => ∃ evs, w' = { w with trace := w.trace ++ evs } ∧
        FileStreamed lib w'.trace b name value) (verifyFile lib request value) w := by
  unfold verifyFile
  refine (keeps_downloadDataset h request).seq ?_
  rintro _ _ rfl
  refine (keeps_turns (h.log _)).seq ?_
  rintro n _ rfl
  refine (keeps_readBody request value.1 (h.log _)).seq ?_
  rintro received _ ⟨blocks, rfl, rfl⟩
  rw [List.nil_append]
  refine Keeps.raiseIf fun hlen => Keeps.raiseIf_last fun hsha => ?_
  rw [not_not] at hlen hsha
  refine ⟨.opened request :: blocks.map (.block request) ++ [.ended request], ?_, request,
    blocks.flatten, hasks, ⟨w.trace, blocks, [], ?_, rfl⟩, hlen, hsha⟩
  · simp [Verification.log]
  · simp [Verification.log]

/-- The loop over the files leaves everything it was given verified, and keeps
what was. -/
theorem keeps_verifyFiles {owner slug : String} {background : Bool} {started : ℚ} {total : ℕ}
    {c : Checkpoint} (hasks : ownerAndSlug c.binding.datasetRef = .ok (owner, slug))
    {files : List (String × (ℕ × String))} {checked : ℕ}
    (hfiles : ∀ item ∈ files, c.expected[item.1]? = some item.2) (h : Recorded lib w)
    (hc : Holds lib w c) :
    Keeps lib (fun _ w' => Recorded lib w' ∧ ∃ evs c', w'.trace = w.trace ++ evs ∧
        Holds lib w' c' ∧ c'.binding = c.binding ∧ c'.expected = c.expected ∧
        Dict.Within c.verified c'.verified ∧ ∀ item ∈ files, c'.verified[item.1]? = some item.2)
      (verifyFiles lib owner slug c.binding.version (c.binding.scope lib) background started total
        files c.verified checked) w := by
  induction files generalizing w c checked with
  | nil => exact Keeps.pure ⟨h, [], c, by simp, hc, rfl, rfl, Dict.Within.refl _, by simp⟩
  | cons item files ih =>
    obtain ⟨name, value⟩ := item
    have hv : c.expected[name]? = some value := hfiles _ List.mem_cons_self
    have hrest : ∀ item ∈ files, c.expected[item.1]? = some item.2 :=
      fun item hitem => hfiles item (List.mem_cons_of_mem _ hitem)
    unfold verifyFiles
    refine (keeps_check h).seq ?_
    rintro _ _ rfl
    split
    · next hin =>
      -- the value of a name that is verified already is the expected one
      have hverified : c.verified[name]? = some value := by
        rw [Std.ExtTreeMap.contains_eq_isSome_getElem?, Option.isSome_iff_exists] at hin
        obtain ⟨v, hv'⟩ := hin
        rw [hv', ← hv, c.within name v hv']
      refine (ih hasks hrest h hc).mono ?_
      rintro _ w' ⟨h', evs, c', ht, hc', hb, he, hin', hall⟩
      refine ⟨h', evs, c', ht, hc', hb, he, hin', ?_⟩
      intro item hitem
      rcases List.mem_cons.mp hitem with rfl | hitem
      · exact hin' _ _ hverified
      · exact hall item hitem
    · refine (keeps_batchDue h).seq ?_
      rintro _ w₁ rfl
      have hrequest : Asks c.binding name ⟨owner, slug, c.binding.version, name⟩ :=
        ⟨hasks, rfl, rfl⟩
      refine (keeps_verifyFile hrequest value h).seq ?_
      rintro _ _ ⟨evs₁, rfl, hstr⟩
      have hc₁ : Holds lib { w₁ with trace := w₁.trace ++ evs₁ } c :=
        ⟨hc.1, fun n v hn => (hc.2 n v hn).append lib evs₁⟩
      refine (keeps_markFile (h.extend evs₁) hc₁ hv hstr).seq ?_
      rintro _ w₂ ⟨h₂, ht₂, hc₂⟩
      refine (ih (c := c.mark name value hv) hasks hrest h₂ hc₂).mono ?_
      rintro _ w' ⟨h', evs, c', ht, hc', hb, he, hin', hall⟩
      have hmarked : (c.mark name value hv).verified[name]? = some value :=
        Std.ExtTreeMap.getElem?_insert_self
      refine ⟨h', evs₁ ++ evs, c', ?_, hc', hb, he, ?_, ?_⟩
      · rw [ht, ht₂, List.append_assoc]
      · intro n v hn
        refine hin' n v ?_
        by_cases hnn : n = name
        · subst hnn
          rw [hmarked, ← hv, c.within n v hn]
        · simp only [Checkpoint.mark, Std.ExtTreeMap.getElem?_insert]
          rw [if_neg, hn]
          exact fun heq => hnn (Std.LawfulEqCmp.eq_of_compare heq).symm
      · intro item hitem
        rcases List.mem_cons.mp hitem with rfl | hitem
        · exact hin' _ _ hmarked
        · exact hall item hitem

/-- The sizes an inventory expects. -/
def SameSizes (expected : Inventory) (actual : Dict ℕ) : Prop :=
  ∀ (name : String) (size : ℕ),
    actual[name]? = some size ↔ ∃ sha256, expected[name]? = some (size, sha256)

theorem sameSizes {expected : Inventory} {actual : Dict ℕ} (hkeys : actual.keys = expected.keys)
    (hsizes : wrongSizes expected actual = []) : SameSizes expected actual := by
  have hsize : ∀ (name : String) (value : ℕ × String),
      expected[name]? = some value → actual[name]? = some value.1 := by
    intro name value hv
    have hmem := Std.ExtTreeMap.mem_toList_iff_getElem?_eq_some.mpr hv
    have hnone := List.filterMap_eq_nil_iff.mp hsizes _ hmem
    by_contra hne
    rw [if_neg hne] at hnone
    cases hnone
  intro name size
  constructor
  · intro ha
    have hmem : name ∈ expected.keys := by
      rw [← hkeys, Std.ExtTreeMap.mem_keys, Std.ExtTreeMap.mem_iff_isSome_getElem?, ha]
      rfl
    rw [Std.ExtTreeMap.mem_keys] at hmem
    have hv := Std.ExtTreeMap.getElem?_eq_some_getElem hmem
    have hs := hsize name _ hv
    rw [ha] at hs
    refine ⟨expected[name].2, ?_⟩
    rw [hv, Option.some.inj hs]
  · rintro ⟨sha256, hv⟩
    exact hsize name _ hv

/-- **One batch.**  Wherever it stops the store is recorded; and where it
returns, the version was listed first and last with exactly the expected paths
and sizes, and every expected file has been streamed. -/
theorem verifyVersionFiles_safe (b : Binding) (background : Bool) (h : Recorded lib w) :
    Keeps lib (fun scope w' => scope = b.scope lib ∧ ∃ first between last actual expected,
        w'.trace = w.trace ++ first ++ .inventoried b.datasetDir expected :: between ++ last ∧
        Lists (targetRef b.datasetRef b.version) first actual ∧
        Lists (targetRef b.datasetRef b.version) last actual ∧ SameSizes expected actual ∧
        ∀ name value, expected[name]? = some value → FileStreamed lib w'.trace b name value)
      (verifyVersionFiles lib b background) w := by
  unfold verifyVersionFiles
  refine Keeps.raiseIf fun _ => Keeps.lift ?_
  rintro ⟨owner, slug⟩ hasks
  refine (keeps_versionFileInventory _ h).seq ?_
  rintro actual _ ⟨first, rfl, hfirst⟩
  refine (keeps_uploadContentInventory (h.extend first) _ _).seq ?_
  rintro expected _ rfl
  refine Keeps.raiseIf fun hkeys => Keeps.raiseIf fun hsizes => ?_
  rw [not_not] at hkeys hsizes
  refine (keeps_load ((h.extend first).log _) b expected).seq ?_
  rintro ⟨scope, verified⟩ w₁ ⟨h₁, ht₁, rfl, c, hc, rfl, rfl, rfl⟩
  refine (keeps_monotonic h₁).seq ?_
  rintro started _ rfl
  refine (keeps_buildKaggleClient h₁).seq ?_
  rintro _ _ rfl
  have hfiles : ∀ item ∈ c.expected.toList, c.expected[item.1]? = some item.2 :=
    fun item hitem => Std.ExtTreeMap.mem_toList_iff_getElem?_eq_some.mp hitem
  refine (keeps_verifyFiles hasks hfiles h₁ hc).seq ?_
  rintro _ w₂ ⟨h₂, between, c', ht₂, hc', hb, _, _, hall⟩
  refine (keeps_versionFileInventory _ h₂).seq ?_
  rintro relisted _ ⟨last, rfl, hlast⟩
  refine Keeps.raiseIf fun hsame => ?_
  rw [not_not] at hsame
  subst hsame
  refine Keeps.pure ⟨rfl, first, between, last, relisted, c.expected, ?_, hfirst, hlast,
    sameSizes hkeys hsizes, ?_⟩
  · simp only [ht₂, ht₁, Verification.log, List.append_assoc, List.cons_append, List.nil_append]
  · intro name value hv
    have hmem := Std.ExtTreeMap.mem_toList_iff_getElem?_eq_some.mpr hv
    rw [← hb]
    exact (hc'.2 name value (hall _ hmem)).append lib last

/-! ### Any number of batches -/

/-- Finishing a checkpoint keeps the store recorded. -/
theorem keeps_markComplete (h : Recorded lib w) (scope : String) :
    Keeps lib (fun _ w' => w'.trace = w.trace) (Verify.markComplete scope) w := by
  intro o r w' hs
  simp only [verifySem] at hs
  cases hrow : w.candidates[scope]? with
  | none =>
    simp only [markComplete, hrow] at hs
    cases hs
    exact ⟨h, trivial⟩
  | some row =>
    obtain ⟨c, rfl, hscope, hstr⟩ := h _ _ hrow
    rw [markComplete_row hrow] at hs
    split at hs <;> cases hs
    · next hv =>
      have hfinished : RowRecorded lib w.trace scope (c.finish hv).row := ⟨_, rfl, hscope, hstr⟩
      exact ⟨h.insert hfinished, rfl⟩
    · exact ⟨h, trivial⟩

/-- What any number of batches and completions can lead to from an empty store,
each of them cut off after any of its operations. -/
inductive Verification.Reachable (lib : Library) : Verification → Prop
  | empty : Reachable lib ⟨∅, []⟩
  | batch {w : Verification} (h : Reachable lib w) (b : Binding) (background : Bool)
      (cs : List VerifyOracle) :
      Reachable lib ((verifyVersionFiles lib b background).exec (verifySem lib) cs w).2
  | complete {w : Verification} (h : Reachable lib w) (scope : String) (cs : List VerifyOracle) :
      Reachable lib (Prog.exec (verifySem lib) (Verify.markComplete scope) cs w).2

theorem recorded_of_reachable (h : Verification.Reachable lib w) : Recorded lib w := by
  induction h with
  | empty =>
    intro scope row hrow
    simp at hrow
  | batch _ b background cs ih => exact Safe.exec_inv (verifyVersionFiles_safe b background ih) ih
  | complete _ scope cs ih => exact Safe.exec_inv (keeps_markComplete ih scope) ih

/-- The columns of a row spell a binding, an inventory and a part of it. -/
structure RowSpells (row : Candidate) (b : Binding) (expected verified : Inventory) : Prop where
  binding_eq : row.binding = b.text
  expected_eq : row.expected = encodeInventory expected
  verified_eq : row.verified = encodeInventory verified
  within : Dict.Within verified expected
  totalFiles_eq : row.totalFiles = expected.size
  totalBytes_eq : row.totalBytes = KaggleRelay.totalBytes expected
  verifiedFiles_eq : row.verifiedFiles = verified.size
  verifiedBytes_eq : row.verifiedBytes = KaggleRelay.totalBytes verified
  complete : row.complete = 0 ∨ (row.complete = 1 ∧ verified = expected)

theorem rowSpells_row (c : Checkpoint) : RowSpells c.row c.binding c.expected c.verified where
  binding_eq := rfl
  expected_eq := rfl
  verified_eq := rfl
  within := c.within
  totalFiles_eq := rfl
  totalBytes_eq := rfl
  verifiedFiles_eq := rfl
  verifiedBytes_eq := rfl
  complete := by
    simp only [Checkpoint.row]
    cases hc : c.complete with
    | false => exact Or.inl rfl
    | true => exact Or.inr ⟨rfl, c.all_of_complete hc⟩

/-- **Resumable verification is sound.**  In every state that interrupted
batches can lead to: a batch that returns has found exactly the expected paths
and sizes listed first and last, and every expected file has been streamed
completely from that version, with its size and digest, in this batch or an
earlier one; and every row spells a checkpoint, which `load` gives back under
its own binding and inventory and refuses under any other of its scope. -/
theorem resumable_verification_sound (h : Verification.Reachable lib w) :
    (∀ (b : Binding) (background : Bool) (cs : List VerifyOracle) (scope : String)
        (w' : Verification),
      (verifyVersionFiles lib b background).exec (verifySem lib) cs w = (.pure (.ok scope), w') →
      ∃ first between last actual expected,
        w'.trace = w.trace ++ first ++ .inventoried b.datasetDir expected :: between ++ last ∧
        Lists (targetRef b.datasetRef b.version) first actual ∧
        Lists (targetRef b.datasetRef b.version) last actual ∧ SameSizes expected actual ∧
        ∀ name value, expected[name]? = some value → FileStreamed lib w'.trace b name value) ∧
    (∀ (scope : String) (row : Candidate), w.candidates[scope]? = some row →
      ∃ (b : Binding) (expected verified : Inventory),
        RowSpells row b expected verified ∧ b.scope lib = scope ∧
        load lib b expected w.candidates = (.ok (scope, verified), w.candidates) ∧
        ∀ (b' : Binding) (expected' : Inventory), b'.scope lib = scope →
          b' ≠ b ∨ expected' ≠ expected →
          ∃ e, load lib b' expected' w.candidates = (.error e, w.candidates)) := by
  have hrec := recorded_of_reachable h
  refine ⟨?_, ?_⟩
  · intro b background cs scope w' hexec
    have hpost := Safe.exec_post (verifyVersionFiles_safe b background hrec) (congrArg Prod.fst hexec)
    rw [hexec] at hpost
    exact hpost.2
  · intro scope row hrow
    obtain ⟨c, rfl, rfl, _⟩ := hrec scope row hrow
    refine ⟨c.binding, c.expected, c.verified, rowSpells_row c, rfl, load_row lib hrow, ?_⟩
    intro b' expected' hscope hne
    rw [← hscope] at hrow
    exact ⟨_, load_row_of_ne lib hrow hne⟩

/-- A Dataset of two files, `a` and `b`, that hold one byte each. -/
def sampleLibrary : Library where
  sha256 bytes :=
    if bytes = [65] then "559aead08264d5795d3909718cdd05abd49572e84fe55590eef31a88a08fdffd"
    else if bytes = [66] then "df7e70e5021544f4834bbee64a9e3789febc4be81470df629cad6ddb03320a5c"
    else "e3b0c44298fc1c149afbf4c8996fb92427ae41e4649b934ca495991b7852b855"
  casefold := id
  lower := id

def sampleBinding : Binding where
  datasetRef := "owner/slug"
  version := 1
  datasetDir := "/d"
  contentSha256 := ""

/-- The answers of that Dataset; `ended` says whether a file has been read. -/
def sampleOracle (ended : Bool) : VerifyOracle
  | .turns => (3 : ℕ)
  | .monotonic => (0 : ℚ)
  | .datasetListFiles _ _ => Except.ok ⟨false, some [⟨some "a", some 1⟩, ⟨some "b", some 1⟩], .missing⟩
  | .uploadContentInventory _ _ => Except.ok (((∅ : Inventory).insert "a"
      (1, sampleLibrary.sha256 [65])).insert "b" (1, sampleLibrary.sha256 [66]))
  | .nextBlock request =>
    Except.ok (if ended then none else some (if request.fileName = "a" then [65] else [66]))
  | .check | .buildKaggleClient | .downloadDataset _ | .markFile _ _ _ | .markComplete _ =>
    Except.ok ()
  | .load _ _ => Except.ok ("", ∅)

/-- A batch that is cut off while it reads `b`. -/
def cutRun : Prog VerifySig (Except Exc String) × Verification :=
  (verifyVersionFiles sampleLibrary sampleBinding true).exec (verifySem sampleLibrary)
    (List.replicate 13 (sampleOracle false) ++ List.replicate 2 (sampleOracle true) ++
      List.replicate 5 (sampleOracle false)) ⟨∅, []⟩

/-- The batch that takes up what it has left. -/
def resumedRun : Prog VerifySig (Except Exc String) × Verification :=
  (verifyVersionFiles sampleLibrary sampleBinding true).exec (verifySem sampleLibrary)
    (List.replicate 14 (sampleOracle false) ++ List.replicate 5 (sampleOracle true)) cutRun.2

theorem resumable_verification_sound_sample :
    cutRun.1.result? = none ∧
      ∃ first between last actual expected,
        resumedRun.2.trace =
          cutRun.2.trace ++ first ++ .inventoried "/d" expected :: between ++ last ∧
        Lists (targetRef "owner/slug" 1) first actual ∧
        Lists (targetRef "owner/slug" 1) last actual ∧ SameSizes expected actual ∧
        ∀ name value, expected[name]? = some value →
          FileStreamed sampleLibrary resumedRun.2.trace sampleBinding name value := by
  have hread : (cutRun.1.result?, resumedRun.1.result?) =
      (none, some (.ok (sampleBinding.scope sampleLibrary))) := by decide +kernel
  have hrun : resumedRun = (.pure (.ok (sampleBinding.scope sampleLibrary)), resumedRun.2) :=
    Prod.fst_eq_iff.mp (Prog.result?_eq_some.mp (congrArg Prod.snd hread))
  have hcut : Verification.Reachable sampleLibrary cutRun.2 :=
    .batch .empty sampleBinding true _
  exact ⟨congrArg Prod.fst hread, (resumable_verification_sound hcut).1 sampleBinding true _
    (sampleBinding.scope sampleLibrary) resumedRun.2 hrun⟩

end KaggleRelay
