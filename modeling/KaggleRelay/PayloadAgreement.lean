/-
Two ways to verify a version, one verdict.

A version that Kaggle serves as an archive is verified by `verify_upload_archive`,
any other one file by file by `verify_version_files`.

* `Server`, `serving` — a server that lists the files of a version on any pages
  and streams them in any blocks;
* `total_listPages`, `total_verifyFiles` — the loops against it come to an end;
* `payload_verifiers_agree` — every run against it returns, and accepts exactly
  when an archive of the same files is accepted.
-/
import KaggleRelay.InventoryListing
import KaggleRelay.Outcome
import KaggleRelay.PayloadArchive

namespace KaggleRelay

open Effects

namespace Payload

variable {lib : Library} {zip : ZipReader}

/-! ### A server -/

/-- How Kaggle serves a version. -/
structure Server where
  /-- The pages of the listing: names and sizes. -/
  pages : List (List (String × ℕ))
  /-- The token of a page. -/
  token : ℕ → String
  /-- The blocks of a file. -/
  blocks : String → List Bytes
  /-- The turns that an endless loop gets at the least. -/
  turns : ℕ

namespace Server

/-- The page with this number. -/
def page (server : Server) (k : ℕ) : ListResponse :=
  match server.pages[k]? with
  | none => ⟨true, none, .missing⟩
  | some files =>
    ⟨false, some (files.map fun file => ⟨some file.1, some (.ofNat file.2)⟩),
      if k + 1 < server.pages.length then .text (server.token (k + 1)) else .missing⟩

/-- The page of a token. -/
def pageOf (server : Server) : Option String → ListResponse
  | none => server.page 0
  | some token =>
    match (List.range server.pages.length).find? fun k => server.token k == token with
    | some k => server.page k
    | none => ⟨true, none, .missing⟩

/-- The answers, given the turns and the time, and the blocks still to come. -/
def answers (server : Server) (lib : Library) (zip : ZipReader) (dir : DatasetDir) (c : ℕ × ℚ)
    (stream : List Bytes) : VerifyOracle
  | .turns => c.1
  | .monotonic => c.2
  | .check => .ok ()
  | .datasetListFiles _ token => .ok (server.pageOf token)
  | .uploadContentInventory _ names =>
    (uploadContentInventory lib zip dir names).map fun expected => (Std.ExtTreeMap.ofList expected : Inventory)
  | .buildKaggleClient => .ok ()
  | .downloadDataset _ => .ok ()
  | .nextBlock _ => .ok stream.head?
  | .load _ _ | .markFile _ _ _ | .markComplete _ => .error (.valueError "")

/-- The blocks that are still to come after an operation. -/
def streaming (server : Server) (o : VerifyOp) (stream : List Bytes) : List Bytes :=
  match o with
  | .downloadDataset request => server.blocks request.fileName
  | .nextBlock _ => stream.tail
  | _ => stream

/-- The server serves these files. -/
structure Serves (server : Server) (files : FileTree) : Prop where
  pages : server.pages ≠ []
  listed : server.pages.flatten.Perm (files.map fun file => (file.1, file.2.length))
  tokens : Function.Injective server.token
  token : ∀ k, server.token k ≠ ""
  blocks : ∀ file ∈ files, (server.blocks file.1).flatten = file.2
  pagesEnd : server.pages.length ≤ server.turns
  blocksEnd : ∀ file ∈ files, (server.blocks file.1).length < server.turns

end Server

/-- A verification against the server and the local directory. -/
def serving (lib : Library) (zip : ZipReader) (dir : DatasetDir) (server : Server) :
    Prog.Sem VerifySig (ℕ × ℚ) (Verification × List Bytes) := fun o c w =>
  if c.1 < server.turns then none
  else (verifySem lib o (server.answers lib zip dir c w.2) w.1).map fun step =>
    (step.1, step.2, server.streaming o w.2)

variable {dir : DatasetDir} {server : Server} {files : FileTree} {w : Verification × List Bytes}

/-- The store has not changed. -/
def Kept (w w' : Verification × List Bytes) : Prop := w'.1.candidates = w.1.candidates

theorem Kept.trans {w w' w'' : Verification × List Bytes} (h : Kept w w') (h' : Kept w' w'') : Kept w w'' :=
  Eq.trans h' h

/-- One operation: the store answers, or the server. -/
theorem total_perform {o : VerifyOp} {Q : o.Res → Verification × List Bytes → Prop}
    (h : ∀ c : ℕ × ℚ, server.turns ≤ c.1 → ∃ r w', verifySem lib o (server.answers lib zip dir c w.2) w.1 =
      some (r, w') ∧ Q r (w', server.streaming o w.2)) :
    Total (S := VerifySig) (serving lib zip dir server) Q (Prog.perform (S := VerifySig) o) w := by
  refine ⟨⟨(server.turns, 0), ?_⟩, fun c r w' hs => ?_⟩
  · obtain ⟨r, w', hsem, -⟩ := h (server.turns, 0) le_rfl
    simp only [serving, lt_irrefl, if_false, hsem]
    rfl
  · simp only [serving] at hs
    split at hs
    · cases hs
    · rename_i hturns
      obtain ⟨r', w₁, hsem, hQ⟩ := h c (Nat.le_of_not_lt hturns)
      rw [hsem] at hs
      cases hs
      exact hQ

theorem total_check {E : Exc → Verification × List Bytes → Prop} :
    Total (serving lib zip dir server) (post (fun _ w' => w' = w) E) Verify.check w :=
  total_perform fun _ _ => ⟨_, _, rfl, rfl⟩

theorem total_monotonic {E : Exc → Verification × List Bytes → Prop} :
    Total (serving lib zip dir server) (post (fun _ w' => w' = w) E) Verify.monotonic w :=
  Total.bind (P := fun _ w' => w' = w) (total_perform (o := .monotonic) fun _ _ => ⟨_, _, rfl, rfl⟩)
    fun _ _ h => h

theorem total_turns {E : Exc → Verification × List Bytes → Prop} :
    Total (serving lib zip dir server) (post (fun n w' => server.turns ≤ n ∧ w' = w) E) Verify.turns w :=
  Total.bind (P := fun (n : ℕ) w' => server.turns ≤ n ∧ w' = w)
    (total_perform (o := .turns) fun _ hc => ⟨_, _, rfl, hc, rfl⟩) fun _ _ h => h

theorem total_buildKaggleClient {E : Exc → Verification × List Bytes → Prop} :
    Total (serving lib zip dir server) (post (fun _ w' => w' = w) E) Verify.buildKaggleClient w :=
  total_perform fun _ _ => ⟨_, _, rfl, rfl⟩

theorem total_datasetListFiles {E : Exc → Verification × List Bytes → Prop} (target : String)
    (token : Option String) :
    Total (serving lib zip dir server) (post (fun response w' => response = server.pageOf token ∧ Kept w w') E)
      (Verify.datasetListFiles target token) w :=
  total_perform fun _ _ => ⟨_, _, rfl, rfl, rfl⟩

theorem total_downloadDataset {E : Exc → Verification × List Bytes → Prop} (request : DownloadRequest) :
    Total (serving lib zip dir server)
      (post (fun _ w' => Kept w w' ∧ w'.2 = server.blocks request.fileName) E) (Verify.downloadDataset request) w :=
  total_perform fun _ _ => ⟨_, _, rfl, rfl, rfl⟩

theorem total_nextBlock {E : Exc → Verification × List Bytes → Prop} (request : DownloadRequest) :
    Total (serving lib zip dir server)
      (post (fun block w' => block = w.2.head? ∧ Kept w w' ∧ w'.2 = w.2.tail) E) (Verify.nextBlock request) w := by
  refine total_perform fun c _ => ?_
  have hanswer : server.answers lib zip dir c w.2 (.nextBlock request) = .ok w.2.head? := rfl
  rcases hhead : w.2.head? with _ | block
  · refine ⟨.ok none, w.1.log (.ended request), ?_, rfl, rfl, rfl⟩
    simp only [verifySem, hanswer, hhead]
  · refine ⟨.ok (some block), w.1.log (.block request block), ?_, rfl, rfl, rfl⟩
    simp only [verifySem, hanswer, hhead]

/-! ### The listing -/

/-- The sizes of a version. -/
def treeSizes (files : FileTree) : Dict ℕ := Std.ExtTreeMap.ofList (files.map fun file => (file.1, file.2.length))

/-- What the pages before the `k`-th list. -/
def before (server : Server) (k : ℕ) : List (String × ℕ) := (server.pages.take k).flatten

theorem pageOf_token (hserves : server.Serves files) {k : ℕ} (hk : k < server.pages.length) :
    server.pageOf (some (server.token k)) = server.page k := by
  rw [Server.pageOf]
  have hfind : (List.range server.pages.length).find? (fun j => server.token j == server.token k) = some k := by
    rw [List.find?_range_eq_some]
    refine ⟨beq_self_eq_true _, List.mem_range.mpr hk, fun j hj => ?_⟩
    rw [Bool.not_eq_true', beq_eq_false_iff_ne]
    intro heq
    exact absurd (hserves.tokens heq) (Nat.ne_of_lt hj)
  rw [hfind]

/-- The token a page is asked for with. -/
def tokenAt (server : Server) (k : ℕ) : Option String := if k = 0 then none else some (server.token k)

/-- The tokens seen before a page is asked for. -/
def tokensBefore (server : Server) (k : ℕ) : List String :=
  ((List.range k).map fun i => server.token (i + 1)).reverse

theorem pageOf_tokenAt (hserves : server.Serves files) {k : ℕ} (hk : k < server.pages.length) :
    server.pageOf (tokenAt server k) = server.page k := by
  rw [tokenAt]
  split
  · rename_i hzero
    rw [hzero]
    rfl
  · exact pageOf_token hserves hk

theorem tokensBefore_succ (server : Server) (k : ℕ) :
    tokensBefore server (k + 1) = server.token (k + 1) :: tokensBefore server k := by
  rw [tokensBefore, List.range_succ, List.map_append, List.reverse_append]
  rfl

theorem before_succ (server : Server) {k : ℕ} (hk : k < server.pages.length) :
    before server (k + 1) = before server k ++ server.pages[k] := by
  rw [before, List.take_add_one, List.flatten_append, List.getElem?_eq_getElem hk]
  simp [before]

theorem before_sublist (server : Server) (k : ℕ) : (before server k).Sublist server.pages.flatten :=
  (List.take_sublist k _).flatten

theorem mapM_entryOf (page : List (String × ℕ)) :
    (page.map fun file => (⟨some file.1, some (.ofNat file.2)⟩ : RemoteFile)).mapM Pages.entryOf = some page := by
  induction page with
  | nil => rfl
  | cons file page ih =>
    rw [List.map_cons, List.mapM_cons, ih]
    rfl

theorem isEmpty_treeSizes (htree : RemoteTree lib files) : (treeSizes files).isEmpty = false := by
  have hsize : (treeSizes files).size = files.length := by
    rw [treeSizes, Dict.size_ofList (by rw [List.map_map]; exact htree.nodup), List.length_map]
  have hpos := List.length_pos_iff.mpr htree.nonempty
  rw [Std.ExtTreeMap.isEmpty_eq_size_beq_zero, hsize, beq_eq_false_iff_ne]
  omega

section Listing

variable (htree : RemoteTree lib files) (hserves : server.Serves files)
include htree hserves

theorem nodup_before (k : ℕ) : ((before server k).map (Pages.key lib)).Nodup := by
  have hall : (server.pages.flatten.map (Pages.key lib)).Nodup := by
    rw [(hserves.listed.map _).nodup_iff, List.map_map]
    exact htree.distinct
  exact hall.sublist ((before_sublist server k).map _)

theorem valid_page {k : ℕ} (hk : k < server.pages.length) : ∀ entry ∈ server.pages[k], validName entry.1 = true := by
  intro entry hentry
  have hmem : entry ∈ server.pages.flatten := List.mem_flatten.mpr ⟨_, List.getElem_mem hk, hentry⟩
  obtain ⟨file, hfile, rfl⟩ := List.mem_map.mp (hserves.listed.mem_iff.mp hmem)
  exact htree.valid file hfile

theorem ofList_pages : (Std.ExtTreeMap.ofList server.pages.flatten : Dict ℕ) = treeSizes files := by
  have hlisted : (server.pages.flatten.map Prod.fst).Nodup := by
    rw [(hserves.listed.map _).nodup_iff, List.map_map]
    exact htree.nodup
  have hfiles : ((files.map fun file => (file.1, file.2.length)).map Prod.fst).Nodup := by
    rw [List.map_map]
    exact htree.nodup
  rw [treeSizes, Dict.ofList_eq_iff hlisted hfiles]
  exact fun item => hserves.listed.mem_iff

theorem size_before (k : ℕ) : (Std.ExtTreeMap.ofList (before server k) : Dict ℕ).size ≤ 100000 := by
  have hlength : server.pages.flatten.length = files.length := by
    rw [hserves.listed.length_eq, List.length_map]
  exact (Std.ExtTreeMap.size_ofList_le.trans (before_sublist server k).length_le).trans (hlength ▸ htree.few)

/-- One page is taken up, and leads to the next one or is the last. -/
theorem afterResponse_page {k : ℕ} (hk : k < server.pages.length) :
    Pages.afterResponse lib (server.page k) (Std.ExtTreeMap.ofList (before server k))
        ((before server k).map (Pages.key lib)).reverse (tokensBefore server k) =
      if k + 1 < server.pages.length then
        .ok (.next (server.token (k + 1)) (Std.ExtTreeMap.ofList (before server (k + 1)))
          ((before server (k + 1)).map (Pages.key lib)).reverse)
      else .ok (.done (treeSizes files)) := by
  have hpage : server.page k = ⟨false, some (server.pages[k].map fun file => ⟨some file.1, some (.ofNat file.2)⟩),
      if k + 1 < server.pages.length then .text (server.token (k + 1)) else .missing⟩ := by
    rw [Server.page, List.getElem?_eq_getElem hk]
  have hnames₀ : ((before server k).map (Pages.key lib)).reverse.Nodup :=
    List.nodup_reverse.mpr (nodup_before htree hserves k)
  have hadded : addFiles lib (server.pages[k].map fun file => ⟨some file.1, some (.ofNat file.2)⟩)
      (Std.ExtTreeMap.ofList (before server k)) ((before server k).map (Pages.key lib)).reverse =
      .ok ((Std.ExtTreeMap.ofList (before server k)).insertMany server.pages[k],
        (server.pages[k].map (Pages.key lib)).reverse ++ ((before server k).map (Pages.key lib)).reverse) :=
    (Pages.addFiles_iff hnames₀).mpr
    ⟨server.pages[k], mapM_entryOf _, valid_page htree hserves hk, by
      rw [List.reverse_reverse, ← List.map_append, ← before_succ server hk]
      exact nodup_before htree hserves (k + 1), rfl, rfl⟩
  have hinventory : (Std.ExtTreeMap.ofList (before server k) : Dict ℕ).insertMany server.pages[k] =
      Std.ExtTreeMap.ofList (before server (k + 1)) := by
    rw [before_succ server hk, Std.ExtTreeMap.ofList_eq_insertMany_empty, Std.ExtTreeMap.ofList_eq_insertMany_empty,
      Std.ExtTreeMap.insertMany_append]
  have hnames : (server.pages[k].map (Pages.key lib)).reverse ++ ((before server k).map (Pages.key lib)).reverse =
      ((before server (k + 1)).map (Pages.key lib)).reverse := by
    rw [before_succ server hk, List.map_append, List.reverse_append]
  rw [hinventory, hnames] at hadded
  have hsize := size_before htree hserves (k + 1)
  rw [Pages.afterResponse, hpage]
  show (addFiles lib _ _ _ >>= _) = _
  rw [hadded]
  show (require _ _ >>= fun _ => _) = _
  rw [(ok_require (u := ())).mpr hsize]
  show Pages.endOfPage _ _ _ _ = _
  dsimp only
  rw [Pages.endOfPage]
  split
  · -- there is another page
    have hempty : (PageToken.text (server.token (k + 1))).isEmpty = false :=
      beq_eq_false_iff_ne.mpr (hserves.token _)
    have hnew : server.token (k + 1) ∉ tokensBefore server k := by
      intro hmem
      obtain ⟨i, hi, heq⟩ := List.mem_map.mp (List.mem_reverse.mp hmem)
      have hlt := List.mem_range.mp hi
      have := hserves.tokens heq
      omega
    rw [hempty, if_neg Bool.false_ne_true]
    show (require _ _ >>= fun _ => _) = _
    rw [(ok_require (u := ())).mpr hnew]
    rfl
  · have hlast : before server (k + 1) = server.pages.flatten := by
      rw [before, List.take_of_length_le (by omega)]
    rw [hlast, ofList_pages htree hserves, isEmpty_treeSizes htree]
    rfl

/-- The loop over the pages ends with the sizes of the version. -/
theorem total_listPages (target : String) {k n : ℕ} (hk : k < server.pages.length) (hn : server.pages.length ≤ k + n)
    (w : Verification × List Bytes) :
    Total (serving lib zip dir server) (post (fun inventory w' => inventory = treeSizes files ∧ Kept w w')
        fun _ _ => False)
      (listPages lib target n (tokenAt server k) (Std.ExtTreeMap.ofList (before server k))
        ((before server k).map (Pages.key lib)).reverse (tokensBefore server k)) w := by
  induction n generalizing k w with
  | zero => omega
  | succ n ih =>
    rw [Pages.listPages_succ]
    refine Total.seq total_check fun _ w₀ hw₀ => ?_
    obtain rfl := hw₀
    refine Total.seq (total_datasetListFiles target _) fun response w₁ hresponse => ?_
    obtain ⟨rfl, hkept⟩ := hresponse
    rw [pageOf_tokenAt hserves hk, afterResponse_page htree hserves hk]
    split
    · rename_i hnext
      have hrest := ih hnext (by omega) w₁
      rw [tokensBefore_succ] at hrest
      refine hrest.mono ?_
      rintro (e | inventory) w₂ hpost
      · exact hpost
      · exact ⟨hpost.1, hkept.trans hpost.2⟩
    · exact ⟨rfl, hkept⟩

/-- **The listing** is the sizes of the version. -/
theorem total_versionFileInventory (target : String) (w : Verification × List Bytes) :
    Total (serving lib zip dir server) (post (fun inventory w' => inventory = treeSizes files ∧ Kept w w')
        fun _ _ => False)
      (versionFileInventory lib target) w := by
  refine Total.seq total_turns fun n w₀ hturns => ?_
  obtain ⟨hturns, rfl⟩ := hturns
  have hpages := List.length_pos_iff.mpr hserves.pages
  have hend := hserves.pagesEnd
  exact total_listPages htree hserves target (k := 0) hpages (by omega) w₀

end Listing

/-! ### The files -/

theorem total_readBody (request : DownloadRequest) {size n : ℕ} {received : Bytes} {w : Verification × List Bytes}
    (hn : w.2.length < n) (hsize : (received ++ w.2.flatten).length = size) :
    Total (serving lib zip dir server) (post (fun got w' => got = received ++ w.2.flatten ∧ Kept w w')
        fun _ _ => False)
      (readBody request size n received) w := by
  induction n generalizing received w with
  | zero => omega
  | succ n ih =>
    refine Total.seq (total_nextBlock request) fun block w₁ hblock => ?_
    obtain ⟨rfl, hkept, hstream⟩ := hblock
    rcases hblocks : w.2 with _ | ⟨first, rest⟩
    · refine ⟨?_, hkept⟩
      rw [List.flatten_nil, List.append_nil]
    · rw [hblocks, List.flatten_cons] at hsize
      refine Total.seq total_check fun _ w₂ hw₂ => ?_
      obtain rfl := hw₂
      refine Total.seq (Total.raiseIf fun hlong => ?_) fun _ w₃ hw₃ => ?_
      · rw [List.length_append] at hlong
        rw [List.length_append, List.length_append] at hsize
        omega
      · obtain ⟨-, rfl⟩ := hw₃
        rw [hblocks, List.tail_cons] at hstream
        have hlength : w₃.2.length < n := by
          rw [hstream]
          rw [hblocks, List.length_cons] at hn
          omega
        refine (ih hlength (by rw [hstream, List.append_assoc]; exact hsize)).mono ?_
        rintro (e | got) w₄ hpost
        · exact hpost
        · refine ⟨?_, hkept.trans hpost.2⟩
          rw [hpost.1, hstream, List.append_assoc, List.flatten_cons]

/-- A file passes exactly when its digest is the expected one. -/
theorem total_verifyFile (hserves : server.Serves files) {file : String × Bytes} (hfile : file ∈ files)
    {request : DownloadRequest} (hrequest : request.fileName = file.1) (digest : String)
    (w : Verification × List Bytes) :
    Total (serving lib zip dir server) (post (fun _ w' => lib.sha256 file.2 = digest ∧ Kept w w')
        fun _ _ => lib.sha256 file.2 ≠ digest)
      (verifyFile lib request (file.2.length, digest)) w := by
  have hblocks := hserves.blocks file hfile
  refine Total.seq (total_downloadDataset request) fun _ w₁ hopened => ?_
  obtain ⟨hkept, hstream⟩ := hopened
  rw [hrequest] at hstream
  refine Total.seq total_turns fun n w₂ hturns => ?_
  obtain ⟨hturns, rfl⟩ := hturns
  have hend := hserves.blocksEnd file hfile
  have hread : Total (serving lib zip dir server) (post (fun got w' => got = [] ++ w₂.2.flatten ∧ Kept w₂ w')
      fun _ _ => False) (readBody request file.2.length n []) w₂ :=
    total_readBody request (by rw [hstream]; omega) (by rw [hstream, hblocks]; rfl)
  have hread' : Total (serving lib zip dir server) (post (fun got w' => got = file.2 ∧ Kept w₂ w')
      fun _ _ => lib.sha256 file.2 ≠ digest) (readBody request file.2.length n []) w₂ := by
    refine hread.mono ?_
    rintro (e | got) w' hpost
    · exact hpost.elim
    · refine ⟨?_, hpost.2⟩
      rw [hpost.1, hstream, hblocks]
      rfl
  refine Total.seq hread' fun got w₃ hgot => ?_
  obtain ⟨rfl, hkept'⟩ := hgot
  refine Total.seq (Total.raiseIf fun hlength => absurd rfl hlength) fun _ w₄ hw₄ => ?_
  obtain ⟨-, rfl⟩ := hw₄
  have hlast : Total (serving lib zip dir server) (post (fun _ w' => ¬lib.sha256 file.2 ≠ digest ∧ w' = w₄)
      fun _ _ => lib.sha256 file.2 ≠ digest)
      (Eff.raiseIf (lib.sha256 file.2 ≠ digest) (Exc.valueError "payload_digest_mismatch") : Verify Unit) w₄ :=
    Total.raiseIf fun hdigest => hdigest
  refine hlast.mono ?_
  rintro (e | _) w' hpost
  · exact hpost
  · obtain ⟨hdigest, rfl⟩ := hpost
    exact ⟨not_not.mp hdigest, hkept.trans hkept'⟩

/-- Marking an expected file. -/
theorem total_markFile {E : Exc → Verification × List Bytes → Prop} {scope name : String} {value : ℕ × String}
    {c : Checkpoint} (hc : w.1.candidates[scope]? = some c.row) (hv : c.expected[name]? = some value) :
    Total (serving lib zip dir server) (post (fun _ w' => w'.1.candidates[scope]? = some (c.mark name value hv).row) E)
      (Verify.markFile scope name value) w := by
  refine total_perform fun _ _ => ⟨.ok (),
    { w.1 with candidates := w.1.candidates.insert scope (c.mark name value hv).row }, ?_,
    Std.ExtTreeMap.getElem?_insert_self⟩
  simp only [verifySem, markFile_row hc, dif_pos hv]

/-- The loop over the files passes exactly when every one of them is as expected. -/
theorem total_verifyFiles (htree : RemoteTree lib files) (hserves : server.Serves files)
    {owner slug scope : String} {version : ℤ} {started : ℚ}
    {total checked : ℕ} {items : List (String × (ℕ × String))} {c : Checkpoint} {w : Verification × List Bytes}
    (hc : w.1.candidates[scope]? = some c.row) (hitems : ∀ item ∈ items, c.expected[item.1]? = some item.2)
    (hnodup : (items.map Prod.fst).Nodup) (hfresh : ∀ item ∈ items, item.1 ∉ c.verified)
    (hsizes : ∀ item ∈ items, ∃ file ∈ files, item.1 = file.1 ∧ item.2.1 = file.2.length) :
    Total (serving lib zip dir server) (post (fun _ _ => ∀ item ∈ items, item ∈ contents lib files)
        fun _ _ => ∃ item ∈ items, item ∉ contents lib files)
      (verifyFiles lib owner slug version scope false started total items c.verified checked) w := by
  induction items generalizing c w checked with
  | nil => exact fun _ h => by cases h
  | cons item items ih =>
    obtain ⟨name, size, digest⟩ := item
    obtain ⟨file, hfile, hname, hsize⟩ := hsizes _ List.mem_cons_self
    dsimp only at hname hsize
    subst hname hsize
    obtain ⟨hhead, htail⟩ := List.nodup_cons.mp hnodup
    refine Total.seq total_check fun _ w₀ hw₀ => ?_
    obtain rfl := hw₀
    have hnew : c.verified.contains file.1 = false := by
      rw [← Bool.not_eq_true, Std.ExtTreeMap.contains_iff_mem]
      exact hfresh _ List.mem_cons_self
    rw [hnew, if_neg Bool.false_ne_true]
    refine Total.seq (P := fun _ w' => w' = w₀) rfl fun _ w₁ hw₁ => ?_
    obtain rfl := hw₁
    have hfileRun : Total (serving lib zip dir server)
        (post (fun _ w' => lib.sha256 file.2 = digest ∧ Kept w₁ w')
          fun _ _ => ∃ item ∈ (file.1, file.2.length, digest) :: items, item ∉ contents lib files)
        (verifyFile lib ⟨owner, slug, version, file.1⟩ (file.2.length, digest)) w₁ := by
      refine (total_verifyFile hserves hfile rfl digest w₁).mono ?_
      rintro (e | _) w' hpost
      · refine ⟨_, List.mem_cons_self, fun hmem => hpost ?_⟩
        -- the only item of that name has the digest of the file
        obtain ⟨file', hfile', heq⟩ := List.mem_map.mp hmem
        have hname : file'.1 = file.1 := (Prod.mk.inj heq).1
        obtain rfl := List.inj_on_of_nodup_map htree.nodup hfile' hfile hname
        exact congrArg (fun item : String × (ℕ × String) => item.2.2) heq
      · exact hpost
    refine Total.seq hfileRun fun _ w₂ hverified => ?_
    obtain ⟨rfl, hkept⟩ := hverified
    have hvalue := hitems _ List.mem_cons_self
    refine Total.seq (total_markFile (hkept ▸ hc) hvalue) fun _ w₃ hmarked => ?_
    have hrest : Total (serving lib zip dir server) (post (fun _ _ => ∀ item ∈ items, item ∈ contents lib files)
        fun _ _ => ∃ item ∈ items, item ∉ contents lib files)
        (verifyFiles lib owner slug version scope false started total items (c.mark _ _ hvalue).verified (checked + 1))
        w₃ := by
      refine ih hmarked (fun item hitem => hitems item (List.mem_cons_of_mem _ hitem)) htail ?_
        (fun item hitem => hsizes item (List.mem_cons_of_mem _ hitem))
      intro item hitem hmem
      rcases Std.ExtTreeMap.mem_insert.mp hmem with heq | hmem
      · have hsame := Std.LawfulEqCmp.eq_of_compare heq
        exact hhead (hsame ▸ List.mem_map_of_mem hitem)
      · exact hfresh item (List.mem_cons_of_mem _ hitem) hmem
    refine hrest.mono ?_
    rintro (e | _) w' hpost
    · obtain ⟨item, hitem, hnot⟩ := hpost
      exact ⟨item, List.mem_cons_of_mem _ hitem, hnot⟩
    · exact List.forall_mem_cons.mpr ⟨List.mem_map.mpr ⟨file, hfile, rfl⟩, hpost⟩

/-! ### The verdict -/

/-- The keys and the sizes of what is expected are those of the version. -/
theorem treeSizes_eq (htree : RemoteTree lib files) :
    treeSizes files = (treeInventory lib files).map fun _ value => value.1 := by
  have hsizes : ((files.map fun file => (file.1, file.2.length)).map Prod.fst).Nodup := by
    rw [List.map_map]
    exact htree.nodup
  have hcontents : ((contents lib files).map Prod.fst).Nodup := map_fst_contents lib files ▸ htree.nodup
  refine Std.ExtTreeMap.ext_getElem? fun k => Option.ext fun size => ?_
  rw [treeSizes, Dict.getElem?_ofList hsizes, Std.ExtTreeMap.getElem?_map, Option.map_eq_some_iff]
  constructor
  · intro hmem
    obtain ⟨file, hfile, heq⟩ := List.mem_map.mp hmem
    cases heq
    exact ⟨_, (Dict.getElem?_ofList hcontents _ _).mpr (List.mem_map.mpr ⟨file, hfile, rfl⟩), rfl⟩
  · rintro ⟨value, hvalue, rfl⟩
    obtain ⟨file, hfile, heq⟩ := List.mem_map.mp ((Dict.getElem?_ofList hcontents _ _).mp hvalue)
    cases heq
    exact List.mem_map.mpr ⟨file, hfile, rfl⟩

/-- The names of the listing. -/
theorem mem_keys_treeSizes (htree : RemoteTree lib files) (name : String) :
    name ∈ (treeSizes files).keys ↔ name ∈ files.map Prod.fst := by
  have hsame : (files.map fun file => (file.1, file.2.length)).map Prod.fst = files.map Prod.fst := by
    rw [List.map_map]
    rfl
  rw [treeSizes, Dict.mem_keys_ofList (hsame ▸ htree.nodup), hsame]

theorem keys_treeInventory (htree : RemoteTree lib files) :
    (treeSizes files).keys = (treeInventory lib files).keys := by
  rw [treeSizes_eq htree, Std.ExtTreeMap.keys_map]

theorem wrongSizes_treeInventory (htree : RemoteTree lib files) :
    wrongSizes (treeInventory lib files) (treeSizes files) = [] := by
  rw [wrongSizes, List.filterMap_eq_nil_iff]
  intro item hitem
  have hvalue := Std.ExtTreeMap.mem_toList_iff_getElem?_eq_some.mp hitem
  rw [treeSizes_eq htree, Std.ExtTreeMap.getElem?_map, hvalue, Option.map_some, if_pos rfl]

section Expected

variable (htree : RemoteTree lib files) {expected : Inventory}
include htree

theorem mem_toList_treeInventory (item : String × (ℕ × String)) :
    item ∈ (treeInventory lib files).toList ↔ item ∈ contents lib files := by
  have hcontents : ((contents lib files).map Prod.fst).Nodup := map_fst_contents lib files ▸ htree.nodup
  rw [Std.ExtTreeMap.mem_toList_iff_getElem?_eq_some, treeInventory, Dict.getElem?_ofList hcontents]

/-- Every expected file of the right size is a file of the version. -/
theorem file_of_sameSizes (h : SameSizes expected (treeSizes files)) :
    ∀ item ∈ expected.toList, ∃ file ∈ files, item.1 = file.1 ∧ item.2.1 = file.2.length := by
  rintro ⟨name, size, digest⟩ hitem
  have hvalue := Std.ExtTreeMap.mem_toList_iff_getElem?_eq_some.mp hitem
  have hsize := (h name size).mpr ⟨digest, hvalue⟩
  have hlisted : ((files.map fun file => (file.1, file.2.length)).map Prod.fst).Nodup := by
    rw [List.map_map]
    exact htree.nodup
  obtain ⟨file, hfile, heq⟩ := List.mem_map.mp ((Dict.getElem?_ofList hlisted name size).mp hsize)
  cases heq
  exact ⟨file, hfile, rfl, rfl⟩

/-- Where the names agree, the expected files are those of the version as soon as
every one of them is. -/
theorem eq_treeInventory (hkeys : (treeSizes files).keys = expected.keys)
    (h : ∀ item ∈ expected.toList, item ∈ contents lib files) : expected = treeInventory lib files := by
  have hwithin : Dict.Within expected (treeInventory lib files) := by
    intro k v hv
    have hmem := h (k, v) (Std.ExtTreeMap.mem_toList_iff_getElem?_eq_some.mpr hv)
    exact Std.ExtTreeMap.mem_toList_iff_getElem?_eq_some.mp ((mem_toList_treeInventory htree _).mpr hmem)
  refine hwithin.eq_of_size ?_
  rw [← Std.ExtTreeMap.length_keys, ← hkeys, keys_treeInventory htree, Std.ExtTreeMap.length_keys]

end Expected

theorem total_uploadContentInventory {E : Exc → Verification × List Bytes → Prop} (datasetDir : String)
    {names : List String} (hnames : ∀ name, name ∈ names ↔ name ∈ files.map Prod.fst)
    (herror : ∀ e w', uploadContentInventory lib zip dir (files.map Prod.fst) = .error e → E e w') :
    Total (serving lib zip dir server)
      (post (fun inventory w' => Kept w w' ∧ ∃ expected,
        uploadContentInventory lib zip dir (files.map Prod.fst) = .ok expected ∧
          inventory = Std.ExtTreeMap.ofList expected) E)
      (Verify.uploadContentInventory datasetDir names) w := by
  refine total_perform fun c _ => ?_
  have hanswer : server.answers lib zip dir c w.2 (.uploadContentInventory datasetDir names) =
      (uploadContentInventory lib zip dir (files.map Prod.fst)).map
        fun expected => (Std.ExtTreeMap.ofList expected : Inventory) := by
    rw [← uploadContentInventory_congr hnames]
    rfl
  rcases hrun : uploadContentInventory lib zip dir (files.map Prod.fst) with e | expected
  · rw [hrun] at hanswer
    refine ⟨.error e, w.1, ?_, herror e _ hrun⟩
    simp only [verifySem, hanswer]
    rfl
  · rw [hrun] at hanswer
    refine ⟨.ok (Std.ExtTreeMap.ofList expected),
      w.1.log (.inventoried datasetDir (Std.ExtTreeMap.ofList expected)), ?_, rfl, expected, rfl, rfl⟩
    simp only [verifySem, hanswer]
    rfl

theorem total_load {E : Exc → Verification × List Bytes → Prop} (b : Binding) (expected : Inventory)
    (hfresh : w.1.candidates[b.scope lib]? = none) :
    Total (serving lib zip dir server)
      (post (fun loaded w' => loaded = (b.scope lib, (Checkpoint.start b expected).verified) ∧
        w'.1.candidates[b.scope lib]? = some (Checkpoint.start b expected).row) E)
      (Verify.load b expected) w := by
  refine total_perform fun _ _ => ⟨.ok (b.scope lib, (Checkpoint.start b expected).verified),
    { w.1 with candidates := w.1.candidates.insert (b.scope lib) (Checkpoint.start b expected).row }, ?_, rfl,
    Std.ExtTreeMap.getElem?_insert_self⟩
  simp only [verifySem, load_none lib hfresh]
  rfl

/-- The files, once the names and the sizes agree. -/
theorem total_expectedFiles (htree : RemoteTree lib files) (hserves : server.Serves files) {b : Binding}
    {owner slug : String} {started : ℚ} {expected : Inventory} {w : Verification × List Bytes}
    (hkeys : (treeSizes files).keys = expected.keys) (hsizes : wrongSizes expected (treeSizes files) = [])
    (hrow : w.1.candidates[b.scope lib]? = some (Checkpoint.start b expected).row) :
    Total (serving lib zip dir server) (post (fun _ _ => expected = treeInventory lib files)
        fun _ _ => expected ≠ treeInventory lib files)
      (verifyFiles lib owner slug b.version (b.scope lib) false started expected.size expected.toList
        (Checkpoint.start b expected).verified 0) w := by
  have hfiles : Total (serving lib zip dir server)
      (post (fun _ _ => ∀ item ∈ expected.toList, item ∈ contents lib files)
        fun _ _ => ∃ item ∈ expected.toList, item ∉ contents lib files)
      (verifyFiles lib owner slug b.version (b.scope lib) false started expected.size expected.toList
        (Checkpoint.start b expected).verified 0) w := total_verifyFiles htree hserves hrow
    (fun item hitem => Std.ExtTreeMap.mem_toList_iff_getElem?_eq_some.mp hitem) (Dict.nodup_keys_toList _)
    (fun item _ => Std.ExtTreeMap.not_mem_empty) (file_of_sameSizes htree (sameSizes hkeys hsizes))
  refine hfiles.mono ?_
  rintro (e | _) w' hpost
  · obtain ⟨item, hitem, hnot⟩ := hpost
    rintro rfl
    exact hnot ((mem_toList_treeInventory htree item).mp hitem)
  · exact eq_treeInventory htree hkeys hpost

/-- A run file by file returns, and accepts exactly what is expected. -/
theorem total_verifyVersionFiles (htree : RemoteTree lib files) (hserves : server.Serves files) {b : Binding}
    (hversion : 0 < b.version) {asked : String × String} (hasks : ownerAndSlug b.datasetRef = .ok asked)
    (hfresh : w.1.candidates[b.scope lib]? = none) :
    Total (serving lib zip dir server) (post (fun _ _ => Expects lib zip dir files)
        fun _ _ => ¬Expects lib zip dir files)
      (verifyVersionFiles lib b false) w := by
  obtain ⟨owner, slug⟩ := asked
  have hlisting : ∀ w : Verification × List Bytes, Total (serving lib zip dir server)
      (post (fun inventory w' => inventory = treeSizes files ∧ Kept w w') fun _ _ => ¬Expects lib zip dir files)
      (versionFileInventory lib (targetRef b.datasetRef b.version)) w := by
    intro w
    refine (total_versionFileInventory htree hserves _ w).mono ?_
    rintro (e | inventory) w' hpost
    · exact hpost.elim
    · exact hpost
  refine Total.seq (Total.raiseIf fun hnot => absurd hversion (by omega)) fun _ w₀ hw₀ => ?_
  obtain ⟨-, rfl⟩ := hw₀
  refine Total.seq (P := fun found w' => found = (owner, slug) ∧ w' = w₀) ?_ fun found w₁ hfound => ?_
  · rw [hasks]
    exact ⟨rfl, rfl⟩
  obtain ⟨rfl, rfl⟩ := hfound
  refine Total.seq (hlisting w₁) fun actual w₂ hactual => ?_
  obtain ⟨rfl, hkept⟩ := hactual
  have hrefused : ∀ e, uploadContentInventory lib zip dir (files.map Prod.fst) = .error e →
      ¬Expects lib zip dir files := by
    rintro e herror ⟨expected, hok, -⟩
    rw [herror] at hok
    cases hok
  refine Total.seq (total_uploadContentInventory b.datasetDir (mem_keys_treeSizes htree)
    fun e _ herror => hrefused e herror) fun expected w₃ hexpected => ?_
  obtain ⟨hkept', items, hok, rfl⟩ := hexpected
  set expected : Inventory := Std.ExtTreeMap.ofList items with hexpected
  have hexpects : Expects lib zip dir files ↔ expected = treeInventory lib files := by
    constructor
    · rintro ⟨items', hok', heq⟩
      rw [hok] at hok'
      obtain rfl := Except.ok.inj hok'
      exact heq
    · exact fun heq => ⟨items, hok, heq⟩
  refine Total.seq (Total.raiseIf fun hdiffer h => hdiffer ?_) fun _ w₄ hw₄ => ?_
  · rw [hexpects.mp h]
    exact keys_treeInventory htree
  obtain ⟨hkeys, rfl⟩ := hw₄
  refine Total.seq (Total.raiseIf fun hwrong h => hwrong ?_) fun _ w₅ hw₅ => ?_
  · rw [hexpects.mp h]
    exact wrongSizes_treeInventory htree
  obtain ⟨hsizes, rfl⟩ := hw₅
  have hstore : w₅.1.candidates[b.scope lib]? = none := (hkept.trans hkept') ▸ hfresh
  refine Total.seq (total_load b _ hstore) fun loaded w₆ hloaded => ?_
  obtain ⟨rfl, hrow⟩ := hloaded
  refine Total.seq total_monotonic fun started w₇ hw₇ => ?_
  obtain rfl := hw₇
  refine Total.seq total_buildKaggleClient fun _ w₈ hw₈ => ?_
  obtain rfl := hw₈
  have hfiles : Total (serving lib zip dir server) (post (fun _ _ => Expects lib zip dir files)
      fun _ _ => ¬Expects lib zip dir files)
      (verifyFiles lib owner slug b.version (b.scope lib) false started expected.size expected.toList
        (Checkpoint.start b expected).verified 0) w₈ := by
    refine (total_expectedFiles htree hserves (not_not.mp hkeys) (not_not.mp hsizes) hrow).mono ?_
    rintro (e | _) w' hpost
    · exact fun h => hpost (hexpects.mp h)
    · exact hexpects.mpr hpost
  refine Total.seq hfiles fun _ w₉ hdone => ?_
  refine Total.seq (hlisting w₉) fun last w' hlast => ?_
  obtain ⟨rfl, -⟩ := hlast
  exact Total.seq (Total.raiseIf fun hchanged => absurd rfl hchanged) fun _ _ _ => hdone

/-- **One verdict.**  The files of a version in an archive, and the same files
behind a server, on any pages, in any order and in any blocks: the run file by
file returns, and accepts exactly when the archive is accepted. -/
theorem payload_verifiers_agree (lib : Library) (zip : ZipReader) {dir : DatasetDir} {downloaded : Bytes}
    {infos : List ZipInfo} {files : FileTree} {server : Server} {b : Binding} {candidates : Candidates}
    {asked : String × String} (hdir : dir.Linkless) (hzip : zip.infolist downloaded = .ok infos)
    (hpacks : Packs infos files) (htree : RemoteTree lib files) (hserves : server.Serves files)
    (hversion : 0 < b.version) (hasks : ownerAndSlug b.datasetRef = .ok asked)
    (hfresh : candidates[b.scope lib]? = none) :
    Total (serving lib zip dir server) (fun r _ => r.isOk = (verifyUploadArchive lib zip dir downloaded).isOk)
      (verifyVersionFiles lib b false : Prog VerifySig (Except Exc String)) (⟨candidates, []⟩, []) := by
  have harchive := verifyUploadArchive_iff hdir hzip hpacks htree
  refine (total_verifyVersionFiles htree hserves hversion hasks hfresh).mono ?_
  rintro (e | scope) w hpost
  · rcases hrun : verifyUploadArchive lib zip dir downloaded with e' | _
    · rfl
    · exact absurd (harchive.mp hrun) hpost
  · rw [harchive.mpr hpost]
    rfl

/-! ### A payload that comes back expanded -/

/-- A digest that says what the bytes are. -/
def payloadLibrary : Library where
  sha256 bytes := String.ofList (bytes.map fun byte => Char.ofNat byte.toNat)
  casefold := id
  lower := id

/-- A member with this name and content. -/
def trialMember (name : String) (content : Bytes) : ZipInfo := ⟨name, name, 0, 0, content.length, .ok content⟩

/-- The payload, its runtime archive, and the archive of the version. -/
def trialZip : ZipReader where
  infolist
    | [1] => .ok [trialMember runtimePath [2], trialMember "train.csv" [4, 5, 6]]
    | [2] => .ok [trialMember "run.py" [7, 8]]
    | [3] => .ok (([("train.csv", [4, 5, 6]), ("model_source/kaggle_runtime/runtime/run.py", [7, 8])] : FileTree).map
        fun file => trialMember file.1 file.2)
    | _ => .error ⟨.archiveError, "File is not a zip file"⟩
  repr names := ", ".intercalate names

def trialFiles : FileTree := [("train.csv", [4, 5, 6]), ("model_source/kaggle_runtime/runtime/run.py", [7, 8])]

def trialDir : DatasetDir where
  isLink := false
  nodes := [("payload.zip", .file [1])]
  distinct := List.nodup_singleton _

/-- Two pages, the second name first, and blocks of one or two bytes. -/
def trialServer : Server where
  pages := [[("model_source/kaggle_runtime/runtime/run.py", 2)], [("train.csv", 3)]]
  token k := String.ofList (List.replicate (k + 1) 'n')
  blocks name := if name = "train.csv" then [[4], [5, 6]] else [[7, 8]]
  turns := 3

theorem serves_trialServer : trialServer.Serves trialFiles where
  pages := List.cons_ne_nil _ _
  listed := List.Perm.swap _ _ _
  tokens i j h := by
    have hlists := congrArg (fun token : String => token.toList.length) h
    simp only [trialServer, String.toList_ofList, List.length_replicate] at hlists
    omega
  token k h := by
    have hlists := congrArg (fun token : String => token.toList.length) h
    simp only [trialServer, String.toList_ofList, List.length_replicate] at hlists
    exact absurd hlists (Nat.succ_ne_zero k)
  blocks file hfile := by
    simp only [trialFiles, List.mem_cons, List.not_mem_nil, or_false] at hfile
    obtain rfl | rfl := hfile <;> rfl
  pagesEnd := by decide
  blocksEnd file hfile := by
    simp only [trialFiles, List.mem_cons, List.not_mem_nil, or_false] at hfile
    obtain rfl | rfl := hfile <;> decide

theorem remoteTree_trialFiles : RemoteTree payloadLibrary trialFiles where
  nonempty := List.cons_ne_nil _ _
  few := by decide
  valid := by decide +kernel
  distinct := by decide +kernel
  apart := by decide +kernel

theorem payload_verifiers_agree_trial :
    (verifyUploadArchive payloadLibrary trialZip trialDir [3]).isOk = true ∧
      Total (serving payloadLibrary trialZip trialDir trialServer)
        (fun r _ => r.isOk = (verifyUploadArchive payloadLibrary trialZip trialDir [3]).isOk)
        (verifyVersionFiles payloadLibrary ⟨"alice/data", 1, "d", ""⟩ false : Prog VerifySig (Except Exc String))
        (⟨∅, []⟩, []) := by
  have hpacks : Packs (trialFiles.map fun file => trialMember file.1 file.2) trialFiles := by
    rw [Packs, List.forall₂_map_left_iff]
    have hformat : 0 >>> 16 &&& 0o170000 = 0 := by decide
    exact List.forall₂_same.mpr fun file _ => ⟨rfl, rfl, rfl, .inl hformat, rfl, rfl⟩
  exact ⟨by decide +kernel, payload_verifiers_agree payloadLibrary trialZip ⟨rfl, by
    intro path target hmem
    cases List.mem_singleton.mp hmem⟩ rfl hpacks remoteTree_trialFiles serves_trialServer (by decide) rfl
    Std.ExtTreeMap.getElem?_empty⟩

end Payload

end KaggleRelay
