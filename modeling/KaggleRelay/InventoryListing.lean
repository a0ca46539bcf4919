/-
Listing the files of a Dataset version.

`versionFileInventory` asks for one page after the other until a page brings no
token.  What ends it otherwise is a page that is malformed, a token it has seen,
or too many files; a page without files and with a new token ends nothing.

* `Behaviour` — the answers to all requests there may be;
* `GoesOn` — a page after which the next one is asked for;
* `Faithful` — what an inventory that is returned is;
* `listing_iff` — the listing ends, faithfully, unless the server goes on
  forever with empty pages;
* `endless_pages` — a server that does.
-/
import Mathlib.Order.Lattice.Nat
import KaggleRelay.PythonValues
import KaggleRelay.ResumableVerification

namespace KaggleRelay

open Effects

namespace Pages

/-- What the interruption check and the server answer, turn by turn. -/
structure Behaviour where
  check : ℕ → Except Exc Unit
  response : ℕ → Except Exc ListResponse

/-- The answers of one turn, in a run that gives the loop `n` turns; nothing
else is asked. -/
def Behaviour.answers (b : Behaviour) (n k : ℕ) : VerifyOracle
  | .turns => n
  | .check => b.check k
  | .datasetListFiles _ _ => b.response k
  | .monotonic => (0 : ℚ)
  | .uploadContentInventory _ _ | .buildKaggleClient | .downloadDataset _ | .nextBlock _
  | .load _ _ | .markFile _ _ _ | .markComplete _ => .error (.valueError "")

/-- The choices of the turns from `k` on. -/
def Behaviour.choices (b : Behaviour) (n : ℕ) : ℕ → ℕ → List VerifyOracle
  | _, 0 => []
  | k, m + 1 => b.answers n k :: b.answers n k :: b.choices n (k + 1) m

variable (lib : Library)

/-- `version_file_inventory`, with `n` turns of its loop. -/
def listing (target : String) (b : Behaviour) (n : ℕ) (w : Verification) :
    Prog VerifySig (Except Exc (Dict ℕ)) × Verification :=
  (versionFileInventory lib target).exec (verifySem lib) (b.answers n 0 :: b.choices n 0 n) w

/-! ### One turn -/

/-- What a turn leads to: the inventory, or the next token with what has been
collected. -/
inductive Turn where
  | done (inventory : Dict ℕ)
  | next (token : String) (inventory : Dict ℕ) (names : List String)

/-- How a page ends. -/
def endOfPage (token : PageToken) (inventory : Dict ℕ) (names tokens : List String) :
    Except Exc Turn :=
  if token.isEmpty then
    if inventory.isEmpty then .error (.versionNotReady "payload_file_listing_empty")
    else .ok (.done inventory)
  else do
    let t ← orError token.text? (.valueError "payload_file_listing_pagination_loop")
    require (t ∉ tokens) "payload_file_listing_pagination_loop"
    return .next t inventory names

/-- The loop body of `version_file_inventory`. -/
def turn (check : Except Exc Unit) (answer : Except Exc ListResponse) (inventory : Dict ℕ)
    (names tokens : List String) : Except Exc Turn := do
  check
  let response ← answer
  require (response.error = false) "payload_file_listing_failed"
  let files ← orError response.files (.valueError "payload_file_listing_missing")
  let (inventory, names) ← addFiles lib files inventory names
  require (inventory.size ≤ 100000) "payload_file_listing_limit"
  endOfPage response.nextPageToken inventory names tokens

/-- The loop, from turn `k` on, with so many turns left; `none` where they do
not do. -/
def loop (b : Behaviour) : ℕ → ℕ → Dict ℕ → List String → List String →
    Option (Except Exc (Dict ℕ))
  | _, 0, _, _, _ => none
  | k, n + 1, inventory, names, tokens =>
    match turn lib (b.check k) (b.response k) inventory names tokens with
    | .error e => some (.error e)
    | .ok (.done inventory) => some (.ok inventory)
    | .ok (.next t inventory names) => loop b (k + 1) n inventory names (t :: tokens)

theorem exec_check {α : Type} (f : Unit → Verify α) (c : VerifyOracle) (cs : List VerifyOracle)
    (w : Verification) :
    ((Verify.check >>= f : Verify α) : Prog VerifySig (Except Exc α)).exec (verifySem lib) (c :: cs) w =
      match c .check with
      | .ok u => (f u : Prog VerifySig (Except Exc α)).exec (verifySem lib) cs w
      | .error e => (.pure (.error e), w) := by
  have hsem : verifySem lib .check c w = some (c .check, w) := rfl
  refine (Prog.exec_perform hsem).trans ?_
  cases c .check with
  | error e => exact Prog.exec_pure _ _ _
  | ok u => rfl

theorem exec_datasetListFiles {α : Type} (target : String) (token : Option String)
    (f : ListResponse → Verify α) (c : VerifyOracle) (cs : List VerifyOracle) (w : Verification) :
    ((Verify.datasetListFiles target token >>= f : Verify α) :
        Prog VerifySig (Except Exc α)).exec (verifySem lib) (c :: cs) w =
      match c (.datasetListFiles target token) with
      | .ok response => (f response : Prog VerifySig (Except Exc α)).exec (verifySem lib) cs
          (w.log (.listed target token response))
      | .error e => (.pure (.error e), w) := by
  cases hanswer : c (.datasetListFiles target token) with
  | error e =>
    have hsem : verifySem lib (.datasetListFiles target token) c w = some (.error e, w) := by
      simp only [verifySem, hanswer]
    exact (Prog.exec_perform hsem).trans (Prog.exec_pure _ _ _)
  | ok response =>
    have hsem : verifySem lib (.datasetListFiles target token) c w =
        some (.ok response, w.log (.listed target token response)) := by
      simp only [verifySem, hanswer]
    exact (Prog.exec_perform hsem).trans rfl

/-- The program of a loop that has come to the end of a page. -/
def afterTurn (target : String) (n : ℕ) (tokens : List String) : Except Exc Turn → Verify (Dict ℕ)
  | .error e => Eff.throw e
  | .ok (.done inventory) => pure inventory
  | .ok (.next t inventory names) => listPages lib target n (some t) inventory names (t :: tokens)

/-- What the loop does with a response. -/
def afterResponse (response : ListResponse) (inventory : Dict ℕ) (names tokens : List String) :
    Except Exc Turn := do
  require (response.error = false) "payload_file_listing_failed"
  let files ← orError response.files (.valueError "payload_file_listing_missing")
  let (inventory, names) ← addFiles lib files inventory names
  require (inventory.size ≤ 100000) "payload_file_listing_limit"
  endOfPage response.nextPageToken inventory names tokens

/-- The loop body is that of one turn. -/
theorem listPages_succ (target : String) (n : ℕ) (token : Option String) (inventory : Dict ℕ)
    (names tokens : List String) :
    listPages lib target (n + 1) token inventory names tokens =
      Verify.check >>= fun _ => Verify.datasetListFiles target token >>= fun response =>
        afterTurn lib target n tokens (afterResponse lib response inventory names tokens) := by
  rw [listPages]
  congr 1
  funext _
  congr 1
  funext response
  rw [afterResponse]
  by_cases herror : response.error = true
  · rw [herror]
    rfl
  · rw [require, if_pos (Bool.eq_false_iff.mpr herror), Eff.raiseIf, if_neg herror]
    cases response.files with
    | none => rfl
    | some files =>
      show Eff.bind (Eff.lift (addFiles lib files inventory names)) _ =
        afterTurn lib target n tokens (addFiles lib files inventory names >>= _)
      cases addFiles lib files inventory names with
      | error e => rfl
      | ok added =>
        obtain ⟨inventory, names⟩ := added
        show Eff.bind (Eff.raiseIf (inventory.size > 100000) _) _ =
          afterTurn lib target n tokens (require (inventory.size ≤ 100000) _ >>= _)
        by_cases hsize : inventory.size ≤ 100000
        · rw [require, if_pos hsize, Eff.raiseIf, if_neg (Nat.not_lt.mpr hsize)]
          show (if response.nextPageToken.isEmpty then _ else _) = afterTurn lib target n tokens
            (endOfPage response.nextPageToken inventory names tokens)
          rw [endOfPage]
          by_cases hempty : response.nextPageToken.isEmpty = true
          · rw [if_pos hempty, if_pos hempty]
            by_cases hnone : inventory.isEmpty = true
            · rw [if_pos hnone, Eff.raiseIf, if_pos hnone]
              rfl
            · rw [if_neg hnone, Eff.raiseIf, if_neg hnone]
              rfl
          · rw [if_neg hempty, if_neg hempty]
            cases response.nextPageToken.text? with
            | none => rfl
            | some t =>
              show Eff.bind (Eff.raiseIf (t ∈ tokens) _) _ = afterTurn lib target n tokens
                (require (t ∉ tokens) _ >>= _)
              by_cases hseen : t ∈ tokens
              · rw [require, if_neg (not_not.mpr hseen), Eff.raiseIf, if_pos hseen]
                rfl
              · rw [require, if_pos hseen, Eff.raiseIf, if_neg hseen]
                rfl
        · rw [require, if_neg hsize, Eff.raiseIf, if_pos (Nat.lt_of_not_le hsize)]
          rfl

theorem turn_eq {check : Except Exc Unit} {answer : Except Exc ListResponse} {inventory : Dict ℕ}
    {names tokens : List String} : turn lib check answer inventory names tokens =
      match check with
      | .error e => .error e
      | .ok _ => match answer with
        | .error e => .error e
        | .ok response => afterResponse lib response inventory names tokens := by
  cases check with
  | error e => rfl
  | ok u =>
    cases answer with
    | error e => rfl
    | ok response => rfl

/-- The loop of the program is the loop over the answers. -/
theorem exec_listPages (target : String) (b : Behaviour) (N : ℕ) {n k : ℕ} {token : Option String}
    {inventory : Dict ℕ} {names tokens : List String} {w : Verification} :
    (((listPages lib target n token inventory names tokens : Verify (Dict ℕ)) :
        Prog VerifySig (Except Exc (Dict ℕ))).exec (verifySem lib) (b.choices N k n) w).1 =
      (loop lib b k n inventory names tokens).elim .stuck .pure := by
  induction n generalizing k token inventory names tokens w with
  | zero => rfl
  | succ n ih =>
    rw [listPages_succ, Behaviour.choices, exec_check, loop, turn_eq]
    have hcheck : b.answers N k .check = b.check k := rfl
    rw [hcheck]
    cases b.check k with
    | error e => rfl
    | ok u =>
      simp only
      rw [exec_datasetListFiles]
      have hresponse : b.answers N k (.datasetListFiles target token) = b.response k := rfl
      rw [hresponse]
      cases b.response k with
      | error e => rfl
      | ok response =>
        simp only
        cases afterResponse lib response inventory names tokens with
        | error e => exact congrArg Prod.fst (Prog.exec_pure _ _ _)
        | ok next =>
          cases next with
          | done inventory => exact congrArg Prod.fst (Prog.exec_pure _ _ _)
          | next t inventory names => exact ih

/-- A run of the program. -/
theorem listing_eq (target : String) (b : Behaviour) (n : ℕ) (w : Verification) :
    (listing lib target b n w).1 = (loop lib b 0 n ∅ [] []).elim .stuck .pure := by
  have hsem : verifySem lib .turns (b.answers n 0) w = some (n, w) := rfl
  exact (congrArg Prod.fst (Prog.exec_perform hsem)).trans (exec_listPages lib target b n)

/-! ### Pages -/

/-- The names and sizes of the `k`-th response. -/
def entriesAt (b : Behaviour) (k : ℕ) : List (String × ℕ) :=
  match b.response k with
  | .ok response => response.entries.getD []
  | .error _ => []

/-- The text token of the `k`-th response. -/
def tokenAt (b : Behaviour) (k : ℕ) : String :=
  match b.response k with
  | .ok response => response.nextPageToken.text?.getD ""
  | .error _ => ""

/-- What the first `n` responses list. -/
def listed (b : Behaviour) (n : ℕ) : List (String × ℕ) := (List.range n).flatMap (entriesAt b)

/-- What two names must not have in common. -/
def key (entry : String × ℕ) : String := lib.casefold entry.1

/-- The `k`-th response is a page: well formed, of new names, and not too many
of them. -/
structure Accepted (b : Behaviour) (k : ℕ) (response : ListResponse) : Prop where
  checked : b.check k = .ok ()
  answered : b.response k = .ok response
  noError : response.error = false
  entries : response.entries = some (entriesAt b k)
  valid : ∀ entry ∈ entriesAt b k, validName entry.1 = true
  distinct : ((listed b (k + 1)).map (key lib)).Nodup
  few : (listed b (k + 1)).length ≤ 100000

/-- The `k`-th response is a page with a new token. -/
def GoesOn (b : Behaviour) (k : ℕ) : Prop :=
  ∃ response, Accepted lib b k response ∧ response.nextPageToken = .text (tokenAt b k) ∧
    tokenAt b k ≠ "" ∧ ∀ j < k, tokenAt b j ≠ tokenAt b k

/-- The `k`-th response is a page without token. -/
def IsLast (b : Behaviour) (k : ℕ) : Prop :=
  ∃ response, Accepted lib b k response ∧ response.nextPageToken.isEmpty = true

/-- The server goes on forever, and from some response on lists nothing. -/
structure Endless (b : Behaviour) : Prop where
  goesOn : ∀ k, GoesOn lib b k
  idle : ∃ N, ∀ k, N ≤ k → entriesAt b k = []

/-- An inventory is what all pages list up to the first one without token: names
and sizes, no two names that casefolding makes one, at least one and at most
100000 of them. -/
structure Faithful (b : Behaviour) (n : ℕ) (inventory : Dict ℕ) : Prop where
  pages : ∀ k < n, GoesOn lib b k
  last : IsLast lib b n
  items : ∀ name size, inventory[name]? = some size ↔ (name, size) ∈ listed b (n + 1)
  distinct : ((listed b (n + 1)).map (key lib)).Nodup
  size : inventory.size = (listed b (n + 1)).length
  nonempty : 0 < inventory.size
  few : inventory.size ≤ 100000

variable {lib}

/-- An entry that has the types the code asks for. -/
def entryOf (file : RemoteFile) : Option (String × ℕ) :=
  match file.name, file.totalBytes with
  | some name, some (.ofNat size) => some (name, size)
  | _, _ => none

theorem entries_of_files {response : ListResponse} {files : List RemoteFile}
    (h : response.files = some files) : response.entries = files.mapM entryOf := by
  rw [ListResponse.entries, h]
  rfl

theorem addFiles_cons (file : RemoteFile) (files : List RemoteFile) (inventory : Dict ℕ)
    (names : List String) :
    addFiles lib (file :: files) inventory names =
      (entryOf file).elim (.error (.valueError "payload_file_listing_invalid")) fun entry =>
        if !validName entry.1 || names.contains (key lib entry) then
          .error (.valueError "payload_file_listing_invalid")
        else addFiles lib files (inventory.insert entry.1 entry.2) (key lib entry :: names) := by
  obtain ⟨name, totalBytes⟩ := file
  rw [addFiles, entryOf]
  cases name with
  | none => rfl
  | some name =>
    cases totalBytes with
    | none => rfl
    | some size =>
      cases size with
      | ofNat size => rfl
      | negSucc size => rfl

/-- What the entries of a page become in an inventory. -/
theorem addFiles_iff {files : List RemoteFile} {inventory inventory' : Dict ℕ}
    {names names' : List String} (hnames : names.Nodup) :
    addFiles lib files inventory names = .ok (inventory', names') ↔
      ∃ entries, files.mapM entryOf = some entries ∧
        (∀ entry ∈ entries, validName entry.1 = true) ∧
        (names.reverse ++ entries.map (key lib)).Nodup ∧
        inventory' = inventory.insertMany entries ∧
        names' = (entries.map (key lib)).reverse ++ names := by
  induction files generalizing inventory names with
  | nil =>
    rw [addFiles]
    constructor
    · intro h
      obtain ⟨rfl, rfl⟩ := Prod.mk.inj (Except.ok.inj h)
      exact ⟨[], rfl, by simp, by simpa using hnames, rfl, rfl⟩
    · rintro ⟨entries, hentries, -, -, rfl, rfl⟩
      obtain rfl : [] = entries := Option.some.inj hentries
      rfl
  | cons file files ih =>
    rw [addFiles_cons, List.mapM_cons]
    cases entryOf file with
    | none =>
      constructor
      · intro h
        cases h
      · rintro ⟨entries, hentries, -⟩
        cases hentries
    | some entry =>
      have hmapM : ∀ entries, (do
          let rest ← files.mapM entryOf
          pure (entry :: rest) : Option (List (String × ℕ))) = some entries ↔
          ∃ rest, files.mapM entryOf = some rest ∧ entry :: rest = entries := by
        intro entries
        simp only [bind, Option.bind_eq_some_iff, pure, Option.some.injEq]
      have hmore : ∀ rest : List (String × ℕ), (key lib entry :: names).reverse ++
          rest.map (key lib) = names.reverse ++ (entry :: rest).map (key lib) := by
        intro rest
        rw [List.reverse_cons, List.append_assoc]
        rfl
      simp only [Option.elim_some, bind, Option.bind_some]
      by_cases hbad : (!validName entry.1 || names.contains (key lib entry)) = true
      · rw [if_pos hbad]
        constructor
        · intro h
          cases h
        · rintro ⟨entries, hentries, hvalid, hnodup, -, -⟩
          obtain ⟨rest, -, rfl⟩ := (hmapM entries).mp hentries
          rw [Bool.or_eq_true, Bool.not_eq_true', List.contains_iff_mem] at hbad
          obtain hinvalid | hseen := hbad
          · rw [hvalid entry List.mem_cons_self] at hinvalid
            cases hinvalid
          · -- the name has been seen
            have hdisjoint := (List.nodup_append.mp hnodup).2.2
            exact absurd rfl (hdisjoint (key lib entry) (List.mem_reverse.mpr hseen)
              (key lib entry) List.mem_cons_self)
      · rw [if_neg hbad]
        rw [Bool.or_eq_true, not_or, Bool.not_eq_true', Bool.not_eq_false, List.contains_iff_mem] at hbad
        obtain ⟨hvalid, hnew⟩ := hbad
        rw [ih (List.nodup_cons.mpr ⟨hnew, hnames⟩)]
        constructor
        · rintro ⟨rest, hrest, hvalids, hnodup, rfl, rfl⟩
          refine ⟨entry :: rest, (hmapM _).mpr ⟨rest, hrest, rfl⟩, ?_, ?_, ?_, ?_⟩
          · exact List.forall_mem_cons.mpr ⟨hvalid, hvalids⟩
          · rw [← hmore]
            exact hnodup
          · rw [← Std.ExtTreeMap.insertMany_cons]
          · rw [List.map_cons, List.reverse_cons, List.append_assoc]
            rfl
        · rintro ⟨entries, hentries, hvalids, hnodup, rfl, rfl⟩
          obtain ⟨rest, hrest, rfl⟩ := (hmapM entries).mp hentries
          refine ⟨rest, hrest, (List.forall_mem_cons.mp hvalids).2, ?_, ?_, ?_⟩
          · rw [hmore]
            exact hnodup
          · rw [← Std.ExtTreeMap.insertMany_cons]
          · rw [List.map_cons, List.reverse_cons, List.append_assoc]
            rfl

/-! ### Turns -/

/-- What has been collected before turn `k`. -/
def collected (b : Behaviour) (k : ℕ) : Dict ℕ := Std.ExtTreeMap.ofList (listed b k)

variable (lib) in
def namesBefore (b : Behaviour) (k : ℕ) : List String := ((listed b k).map (key lib)).reverse

def tokensBefore (b : Behaviour) (k : ℕ) : List String := ((List.range k).map (tokenAt b)).reverse

variable {b : Behaviour} {k n : ℕ}

theorem listed_succ (b : Behaviour) (k : ℕ) : listed b (k + 1) = listed b k ++ entriesAt b k := by
  rw [listed, List.range_succ, List.flatMap_append, List.flatMap_singleton]
  rfl

theorem tokensBefore_succ (b : Behaviour) (k : ℕ) :
    tokensBefore b (k + 1) = tokenAt b k :: tokensBefore b k := by
  rw [tokensBefore, List.range_succ, List.map_append, List.reverse_append]
  rfl

/-- Names that differ up to case differ. -/
theorem nodup_names {entries : List (String × ℕ)} (h : (entries.map (key lib)).Nodup) :
    (entries.map Prod.fst).Nodup := by
  have hmap : entries.map (key lib) = (entries.map Prod.fst).map lib.casefold := by
    rw [List.map_map]
    rfl
  rw [hmap] at h
  exact List.Nodup.of_map _ h

/-- A turn after pages without fault accepts the next page, or raises. -/
theorem accepted_iff (hbefore : ((listed b k).map (key lib)).Nodup) {P : Except Exc Turn → Prop}
    (hP : ∀ e, ¬P (.error e)) :
    P (turn lib (b.check k) (b.response k) (collected b k) (namesBefore lib b k) (tokensBefore b k)) ↔
      ∃ response, Accepted lib b k response ∧ P (endOfPage response.nextPageToken
        (collected b (k + 1)) (namesBefore lib b (k + 1)) (tokensBefore b k)) := by
  have hnames : (namesBefore lib b k).Nodup := List.nodup_reverse.mpr hbefore
  have hcollected : (collected b k).insertMany (entriesAt b k) = collected b (k + 1) := by
    rw [collected, collected, listed_succ, Std.ExtTreeMap.ofList_eq_insertMany_empty,
      Std.ExtTreeMap.ofList_eq_insertMany_empty, Std.ExtTreeMap.insertMany_append]
  have hnamed : ((entriesAt b k).map (key lib)).reverse ++ namesBefore lib b k =
      namesBefore lib b (k + 1) := by
    rw [namesBefore, namesBefore, listed_succ, List.map_append, List.reverse_append]
  have hall : (namesBefore lib b k).reverse ++ (entriesAt b k).map (key lib) =
      (listed b (k + 1)).map (key lib) := by
    rw [namesBefore, List.reverse_reverse, listed_succ, List.map_append]
  constructor
  · intro h
    rw [turn_eq] at h
    cases hcheck : b.check k with
    | error e =>
      rw [hcheck] at h
      exact (hP e h).elim
    | ok u =>
      cases hresponse : b.response k with
      | error e =>
        rw [hcheck, hresponse] at h
        exact (hP e h).elim
      | ok response =>
        rw [hcheck, hresponse] at h
        simp only [afterResponse] at h
        by_cases herror : response.error = false
        · rw [require, if_pos herror] at h
          cases hfiles : response.files with
          | none =>
            rw [hfiles] at h
            exact (hP _ h).elim
          | some files =>
            rw [hfiles] at h
            cases hadd : addFiles lib files (collected b k) (namesBefore lib b k) with
            | error e =>
              simp only [orError, Option.elim_some, bind, Except.bind, hadd] at h
              exact (hP e h).elim
            | ok added =>
              obtain ⟨inventory, names⟩ := added
              simp only [orError, Option.elim_some, bind, Except.bind, hadd] at h
              obtain ⟨entries, hentries, hvalid, hnodup, rfl, rfl⟩ := (addFiles_iff hnames).mp hadd
              have hat : entriesAt b k = entries := by
                rw [entriesAt, hresponse]
                simp only
                rw [entries_of_files hfiles, hentries, Option.getD_some]
              subst hat
              rw [hcollected, hnamed] at h
              rw [hall] at hnodup
              by_cases hsize : (collected b (k + 1)).size ≤ 100000
              · rw [require, if_pos hsize] at h
                refine ⟨response, ?_, h⟩
                exact {
                  checked := hcheck
                  answered := hresponse
                  noError := herror
                  entries := (entries_of_files hfiles).trans hentries
                  valid := hvalid
                  distinct := hnodup
                  few := by rwa [collected, Dict.size_ofList (nodup_names hnodup)] at hsize }
              · rw [require, if_neg hsize] at h
                exact (hP _ h).elim
        · rw [require, if_neg herror] at h
          exact (hP _ h).elim
  · rintro ⟨response, haccepted, h⟩
    rw [turn_eq, haccepted.checked, haccepted.answered]
    simp only [afterResponse]
    rw [require, if_pos haccepted.noError]
    have hentries := haccepted.entries
    cases hfiles : response.files with
    | none =>
      rw [ListResponse.entries, hfiles] at hentries
      cases hentries
    | some files =>
      rw [entries_of_files hfiles] at hentries
      have hadd : addFiles lib files (collected b k) (namesBefore lib b k) =
          .ok (collected b (k + 1), namesBefore lib b (k + 1)) :=
        (addFiles_iff hnames).mpr ⟨entriesAt b k, hentries, haccepted.valid,
          by rw [hall]; exact haccepted.distinct, hcollected.symm, hnamed.symm⟩
      have hsize : (collected b (k + 1)).size ≤ 100000 := by
        rw [collected, Dict.size_ofList (nodup_names haccepted.distinct)]
        exact haccepted.few
      simp only [orError, Option.elim_some, bind, Except.bind, hadd]
      rw [require, if_pos hsize]
      exact h

theorem mem_tokensBefore {t : String} : t ∈ tokensBefore b k ↔ ∃ j < k, tokenAt b j = t := by
  rw [tokensBefore, List.mem_reverse, List.mem_map]
  simp only [List.mem_range]

theorem endOfPage_next {token : PageToken} {inventory inventory' : Dict ℕ}
    {names names' tokens : List String} {t : String} :
    endOfPage token inventory names tokens = .ok (.next t inventory' names') ↔
      token = .text t ∧ t ≠ "" ∧ t ∉ tokens ∧ inventory' = inventory ∧ names' = names := by
  rw [endOfPage]
  cases token with
  | missing =>
    have hmissing : PageToken.missing.isEmpty = true := rfl
    rw [if_pos hmissing]
    constructor
    · intro h
      split at h <;> cases h
    · rintro ⟨htoken, -⟩
      cases htoken
  | other =>
    rw [if_neg (by decide)]
    constructor <;> intro h
    · cases h
    · cases h.1
  | text u =>
    by_cases hu : u = ""
    · rw [if_pos (by rw [PageToken.isEmpty, hu]; rfl)]
      constructor
      · intro h
        split at h <;> cases h
      · rintro ⟨htoken, hne, -⟩
        rw [PageToken.text.injEq] at htoken
        exact (hne (htoken.symm.trans hu)).elim
    · rw [if_neg (by rw [PageToken.isEmpty, beq_iff_eq]; exact hu)]
      simp only [ok_bind, ok_orError, ok_require, ok_pure, PageToken.text?, Option.some.injEq]
      constructor
      · rintro ⟨_, rfl, _, hnew, heq⟩
        obtain ⟨rfl, rfl, rfl⟩ := Turn.next.inj heq
        exact ⟨rfl, hu, hnew, rfl, rfl⟩
      · rintro ⟨htoken, -, hnew, rfl, rfl⟩
        obtain rfl : u = t := PageToken.text.inj htoken
        exact ⟨u, rfl, (), hnew, rfl⟩

theorem endOfPage_done {token : PageToken} {inventory inventory' : Dict ℕ}
    {names tokens : List String} :
    endOfPage token inventory names tokens = .ok (.done inventory') ↔
      token.isEmpty = true ∧ inventory.isEmpty = false ∧ inventory' = inventory := by
  rw [endOfPage]
  by_cases hempty : token.isEmpty = true
  · rw [if_pos hempty]
    by_cases hnone : inventory.isEmpty = true
    · rw [if_pos hnone]
      constructor
      · intro h
        cases h
      · rintro ⟨-, hsome, -⟩
        rw [hnone] at hsome
        cases hsome
    · rw [if_neg hnone]
      constructor
      · intro h
        exact ⟨hempty, Bool.eq_false_iff.mpr hnone, (Turn.done.inj (Except.ok.inj h)).symm⟩
      · rintro ⟨-, -, rfl⟩
        rfl
  · rw [if_neg hempty]
    simp only [ok_bind, ok_orError, ok_require, ok_pure]
    constructor
    · rintro ⟨_, _, _, _, h⟩
      cases h
    · rintro ⟨h, -⟩
      exact (hempty h).elim

theorem next_iff (hbefore : ((listed b k).map (key lib)).Nodup) {t : String} {inventory : Dict ℕ}
    {names : List String} :
    turn lib (b.check k) (b.response k) (collected b k) (namesBefore lib b k) (tokensBefore b k) =
        .ok (.next t inventory names) ↔
      GoesOn lib b k ∧ t = tokenAt b k ∧ inventory = collected b (k + 1) ∧
        names = namesBefore lib b (k + 1) := by
  rw [accepted_iff (P := fun x => x = .ok (.next t inventory names)) hbefore (fun e h => by cases h)]
  have htext : ∀ {response : ListResponse} {u : String}, Accepted lib b k response →
      response.nextPageToken = .text u → tokenAt b k = u := by
    intro response u haccepted htoken
    rw [tokenAt, haccepted.answered]
    simp only
    rw [htoken]
    rfl
  constructor
  · rintro ⟨response, haccepted, hend⟩
    obtain ⟨htoken, hne, hnew, rfl, rfl⟩ := endOfPage_next.mp hend
    obtain rfl := htext haccepted htoken
    refine ⟨⟨response, haccepted, htoken, hne, ?_⟩, rfl, rfl, rfl⟩
    intro j hj heq
    exact hnew (mem_tokensBefore.mpr ⟨j, hj, heq⟩)
  · rintro ⟨⟨response, haccepted, htoken, hne, hfresh⟩, rfl, rfl, rfl⟩
    refine ⟨response, haccepted, endOfPage_next.mpr ⟨htoken, hne, ?_, rfl, rfl⟩⟩
    intro hmem
    obtain ⟨j, hj, heq⟩ := mem_tokensBefore.mp hmem
    exact hfresh j hj heq

theorem done_iff (hbefore : ((listed b k).map (key lib)).Nodup) {inventory : Dict ℕ} :
    turn lib (b.check k) (b.response k) (collected b k) (namesBefore lib b k) (tokensBefore b k) =
        .ok (.done inventory) ↔
      IsLast lib b k ∧ (collected b (k + 1)).isEmpty = false ∧ inventory = collected b (k + 1) := by
  rw [accepted_iff (P := fun x => x = .ok (.done inventory)) hbefore (fun e h => by cases h)]
  constructor
  · rintro ⟨response, haccepted, hend⟩
    obtain ⟨hempty, hsome, rfl⟩ := endOfPage_done.mp hend
    exact ⟨⟨response, haccepted, hempty⟩, hsome, rfl⟩
  · rintro ⟨⟨response, haccepted, hempty⟩, hsome, rfl⟩
    exact ⟨response, haccepted, endOfPage_done.mpr ⟨hempty, hsome, rfl⟩⟩

/-! ### The loop -/

theorem nodup_listed (h : ∀ j < k, GoesOn lib b j) : ((listed b k).map (key lib)).Nodup := by
  cases k with
  | zero => exact List.nodup_nil
  | succ k =>
    obtain ⟨response, haccepted, -⟩ := h k (Nat.lt_succ_self k)
    exact haccepted.distinct

theorem length_listed (h : ∀ j < k, GoesOn lib b j) : (listed b k).length ≤ 100000 := by
  cases k with
  | zero => exact Nat.zero_le _
  | succ k =>
    obtain ⟨response, haccepted, -⟩ := h k (Nat.lt_succ_self k)
    exact haccepted.few

/-- The loop uses up its turns when every page goes on. -/
theorem loop_eq_none (h : ∀ j < k, GoesOn lib b j) :
    loop lib b k n (collected b k) (namesBefore lib b k) (tokensBefore b k) = none ↔
      ∀ j < k + n, GoesOn lib b j := by
  induction n generalizing k with
  | zero => exact ⟨fun _ => h, fun _ => rfl⟩
  | succ n ih =>
    rw [loop]
    by_cases hgo : GoesOn lib b k
    · rw [(next_iff (nodup_listed h)).mpr ⟨hgo, rfl, rfl, rfl⟩]
      have hnext : ∀ j < k + 1, GoesOn lib b j := by
        intro j hj
        obtain hlt | rfl := Nat.lt_succ_iff_lt_or_eq.mp hj
        · exact h j hlt
        · exact hgo
      simp only
      rw [← tokensBefore_succ, ih hnext, Nat.add_right_comm, Nat.add_assoc]
    · constructor
      · intro hnone
        split at hnone
        · cases hnone
        · cases hnone
        · next t inventory names hturn => exact (hgo ((next_iff (nodup_listed h)).mp hturn).1).elim
      · intro hall
        exact (hgo (hall k (by omega))).elim

/-- An inventory the loop returns is what the pages up to the last one list. -/
theorem of_loop_ok {inventory : Dict ℕ} (h : ∀ j < k, GoesOn lib b j)
    (hloop : loop lib b k n (collected b k) (namesBefore lib b k) (tokensBefore b k) =
      some (.ok inventory)) :
    ∃ m < k + n, (∀ j < m, GoesOn lib b j) ∧ IsLast lib b m ∧ inventory = collected b (m + 1) ∧
      inventory.isEmpty = false := by
  induction n generalizing k with
  | zero => cases hloop
  | succ n ih =>
    rw [loop] at hloop
    split at hloop
    · cases hloop
    · next inventory' hturn =>
      obtain rfl : inventory' = inventory := Except.ok.inj (Option.some.inj hloop)
      obtain ⟨hlast, hsome, hequal⟩ := (done_iff (nodup_listed h)).mp hturn
      exact ⟨k, by omega, h, hlast, hequal, hequal ▸ hsome⟩
    · next t inventory' names hturn =>
      obtain ⟨hgo, rfl, rfl, rfl⟩ := (next_iff (nodup_listed h)).mp hturn
      have hnext : ∀ j < k + 1, GoesOn lib b j := by
        intro j hj
        obtain hlt | rfl := Nat.lt_succ_iff_lt_or_eq.mp hj
        · exact h j hlt
        · exact hgo
      rw [← tokensBefore_succ] at hloop
      obtain ⟨m, hm, hresult⟩ := ih hnext hloop
      exact ⟨m, by omega, hresult⟩

/-- More turns do not change a result. -/
theorem loop_mono {m : ℕ} {inventory : Dict ℕ} {names tokens : List String}
    {result : Except Exc (Dict ℕ)} (hle : n ≤ m)
    (h : loop lib b k n inventory names tokens = some result) :
    loop lib b k m inventory names tokens = some result := by
  induction n generalizing k m inventory names tokens with
  | zero => cases h
  | succ n ih =>
    obtain ⟨m, rfl⟩ : ∃ m', m = m' + 1 := ⟨m - 1, by omega⟩
    rw [loop] at h ⊢
    split at h
    · exact h
    · exact h
    · exact ih (Nat.le_of_succ_le_succ hle) h

/-! ### The listing -/

/-- How many of the first responses list nothing. -/
def idleResponses (b : Behaviour) (n : ℕ) : ℕ :=
  ((List.range n).filter fun k => (entriesAt b k).isEmpty).length

theorem le_idle_add_listed (b : Behaviour) (n : ℕ) : n ≤ idleResponses b n + (listed b n).length := by
  induction n with
  | zero => exact Nat.zero_le _
  | succ n ih =>
    rw [listed_succ, idleResponses, List.range_succ, List.filter_append, List.length_append,
      List.length_append]
    rw [idleResponses] at ih
    cases hentries : entriesAt b n with
    | nil =>
      have hone : ([n].filter fun k => (entriesAt b k).isEmpty).length = 1 := by
        rw [List.filter_cons, if_pos (by rw [hentries]; rfl)]
        rfl
      rw [hone, List.length_nil]
      omega
    | cons entry rest =>
      rw [List.length_cons]
      omega

/-- Pages that go on forever list nothing in the end. -/
theorem idle_of_goesOn (h : ∀ k, GoesOn lib b k) : ∃ N, ∀ k, N ≤ k → entriesAt b k = [] := by
  have hbound : BddAbove (Set.range fun n => (listed b n).length) := by
    refine ⟨100000, ?_⟩
    rintro _ ⟨n, rfl⟩
    exact length_listed fun j _ => h j
  obtain ⟨N, hN⟩ := Nat.sSup_mem (Set.range_nonempty fun n => (listed b n).length) hbound
  have hmono : ∀ m, N ≤ m → (listed b N).length ≤ (listed b m).length := by
    intro m hm
    induction m, hm using Nat.le_induction with
    | base => exact le_rfl
    | succ m _ ih =>
      rw [listed_succ, List.length_append]
      omega
  refine ⟨N, fun k hk => ?_⟩
  -- one more entry would be more than the largest number of them
  have hmax : (listed b (k + 1)).length ≤ (listed b N).length := by
    rw [show (listed b N).length = _ from hN]
    exact le_csSup hbound ⟨k + 1, rfl⟩
  have hmono' := hmono k hk
  rw [listed_succ, List.length_append] at hmax
  exact List.length_eq_zero_iff.mp (by omega)

/-- The listing ends, after a number of requests that only grows with the
responses that list nothing, and what it returns is faithful. -/
structure ListsFaithfully (lib : Library) (target : String) (b : Behaviour) (w : Verification) :
    Prop where
  bounded : ∃ n result, n ≤ 100001 + idleResponses b n ∧
    ∀ m, n ≤ m → (listing lib target b m w).1 = .pure result
  faithful : ∀ m inventory, (listing lib target b m w).1 = .pure (.ok inventory) →
    ∃ n < m, Faithful lib b n inventory

theorem faithful_of_listing {target : String} {w : Verification} {m : ℕ} {inventory : Dict ℕ}
    (h : (listing lib target b m w).1 = .pure (.ok inventory)) :
    ∃ n < m, Faithful lib b n inventory := by
  rw [listing_eq] at h
  obtain ⟨result, hresult⟩ : ∃ result, loop lib b 0 m ∅ [] [] = some result := by
    cases hloop : loop lib b 0 m ∅ [] [] with
    | none =>
      rw [hloop] at h
      cases h
    | some result => exact ⟨result, rfl⟩
  rw [hresult] at h
  obtain rfl : result = .ok inventory := Prog.pure.inj h
  have hnone : ∀ j < 0, GoesOn lib b j := fun j hj => (Nat.not_lt_zero j hj).elim
  obtain ⟨n, hn, hpages, hlast, rfl, hsome⟩ := of_loop_ok hnone hresult
  have haccepted : ∃ response, Accepted lib b n response := hlast.imp fun _ h => h.1
  obtain ⟨response, haccepted⟩ := haccepted
  have hnodup := nodup_names haccepted.distinct
  have hsize : (collected b (n + 1)).size = (listed b (n + 1)).length := Dict.size_ofList hnodup
  refine ⟨n, by omega, ?_⟩
  exact {
    pages := hpages
    last := hlast
    items := fun name size => Dict.getElem?_ofList hnodup name size
    distinct := haccepted.distinct
    size := hsize
    nonempty := by
      rw [Std.ExtTreeMap.isEmpty_eq_size_beq_zero, beq_eq_false_iff_ne] at hsome
      exact Nat.pos_of_ne_zero hsome
    few := hsize ▸ haccepted.few }

/-- The listing ends, and faithfully, unless the server goes on forever with
empty pages. -/
theorem listing_iff (lib : Library) (target : String) (b : Behaviour) (w : Verification) :
    ListsFaithfully lib target b w ↔ ¬Endless lib b := by
  have hnone : ∀ j < 0, GoesOn lib b j := fun j hj => (Nat.not_lt_zero j hj).elim
  have hturns : ∀ n, loop lib b 0 n ∅ [] [] = none ↔ ∀ j < n, GoesOn lib b j := by
    intro n
    have h := loop_eq_none (n := n) hnone
    rwa [Nat.zero_add] at h
  constructor
  · rintro ⟨⟨n, result, -, hreturns⟩, -⟩ hendless
    have hstuck := hreturns n le_rfl
    rw [listing_eq, (hturns n).mpr fun j _ => hendless.goesOn j] at hstuck
    cases hstuck
  · intro hends
    refine ⟨?_, fun m inventory h => faithful_of_listing h⟩
    have hstops : ∃ n, loop lib b 0 n ∅ [] [] ≠ none := by
      by_contra hforever
      rw [not_exists] at hforever
      have hgoes : ∀ k, GoesOn lib b k := fun k =>
        (hturns (k + 1)).mp (not_not.mp (hforever (k + 1))) k (Nat.lt_succ_self k)
      exact hends ⟨hgoes, idle_of_goesOn hgoes⟩
    classical
    -- the first number of turns that is enough
    obtain ⟨result, hresult⟩ := Option.ne_none_iff_exists'.mp (Nat.find_spec hstops)
    refine ⟨Nat.find hstops, result, ?_, ?_⟩
    · have hbefore : ∀ j < Nat.find hstops - 1, GoesOn lib b j := by
        intro j hj
        have hfew : loop lib b 0 (j + 1) ∅ [] [] = none := by
          by_contra hsome
          exact Nat.find_min hstops (by omega) hsome
        exact (hturns (j + 1)).mp hfew j (Nat.lt_succ_self j)
      have hcount := le_idle_add_listed b (Nat.find hstops - 1)
      have hfew := length_listed hbefore
      have hidle : idleResponses b (Nat.find hstops - 1) ≤ idleResponses b (Nat.find hstops) := by
        have hsub : (List.range (Nat.find hstops - 1)).Sublist (List.range (Nat.find hstops)) :=
          List.range_sublist.mpr (Nat.sub_le _ 1)
        exact (hsub.filter _).length_le
      omega
    · intro m hm
      rw [listing_eq, loop_mono hm hresult]
      rfl

/-! ### A server that never ends the listing -/

/-- Every response is an empty page, each with a longer token. -/
def emptyPages : Behaviour where
  check _ := .ok ()
  response k := .ok ⟨false, some [], .text (String.ofList (List.replicate (k + 1) 'a'))⟩

theorem tokenAt_emptyPages (k : ℕ) :
    tokenAt emptyPages k = String.ofList (List.replicate (k + 1) 'a') := rfl

theorem length_tokenAt_emptyPages (k : ℕ) : (tokenAt emptyPages k).length = k + 1 := by
  rw [tokenAt_emptyPages, String.length_ofList, List.length_replicate]

theorem listed_emptyPages (n : ℕ) : listed emptyPages n = [] := by
  rw [listed, List.flatMap_eq_nil_iff]
  intro k _
  rfl

theorem goesOn_emptyPages (lib : Library) (k : ℕ) : GoesOn lib emptyPages k := by
  refine ⟨⟨false, some [], .text (tokenAt emptyPages k)⟩, ?_, rfl, ?_, ?_⟩
  · exact {
      checked := rfl
      answered := rfl
      noError := rfl
      entries := rfl
      valid := fun entry hentry => (by cases hentry)
      distinct := by rw [listed_emptyPages]; exact List.nodup_nil
      few := by rw [listed_emptyPages]; exact Nat.zero_le _ }
  · intro hempty
    have hlength := length_tokenAt_emptyPages k
    rw [hempty] at hlength
    cases hlength
  · intro j hj heq
    have hlength := congrArg String.length heq
    rw [length_tokenAt_emptyPages, length_tokenAt_emptyPages] at hlength
    omega

/-- The listing of such a server has not ended after any number of requests. -/
theorem endless_pages : ∃ lib target b w, ¬ListsFaithfully lib target b w := by
  refine ⟨⟨fun _ => "", id, id⟩, "owner/data/7", emptyPages, ⟨∅, []⟩, ?_⟩
  rintro ⟨⟨n, result, -, hreturns⟩, -⟩
  have hnone : ∀ j < 0, GoesOn ⟨fun _ => "", id, id⟩ emptyPages j := fun j hj =>
    (Nat.not_lt_zero j hj).elim
  have hturns : loop ⟨fun _ => "", id, id⟩ emptyPages 0 n ∅ [] [] = none :=
    (loop_eq_none hnone).mpr fun j _ => goesOn_emptyPages _ j
  have hstuck := hreturns n le_rfl
  rw [listing_eq, hturns] at hstuck
  cases hstuck

end Pages

end KaggleRelay
