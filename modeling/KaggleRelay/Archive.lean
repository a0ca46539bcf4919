/-
Chunked archives.

How many chunks an archive has, which indices are valid, and how the part
files are put together.  `space` answers the free-space checks of the copying,
in the order in which they are made.

* `expectedChunkCount_eq` — the float division in the source gives the exact
  number of chunks for every size below `2 ^ 53`;
* `assembleArchive_ok` — what a successful assembly has written.
-/
import KaggleRelay.Binary64
import KaggleRelay.Tiling
import KaggleRelay.VerificationState

namespace KaggleRelay

open Tiling

abbrev Bytes := List UInt8

def Exc.archiveError (text : String) : Exc := ⟨.archiveError, text⟩

/-- What `StorageBudget.check_free` raises. -/
def Exc.storageFull : Exc :=
  ⟨.capacityError, "relay storage is full or below its reserved free-space limit; retry later"⟩

/-! ### Chunk indices -/

def expectedChunkCount (totalSize chunkSize : ℤ) : Except Exc ℕ :=
  if totalSize < 0 ∨ chunkSize ≤ 0 then
    .error (.archiveError "invalid archive size or chunk size")
  else
    -- `/` of two `int` is the double nearest to the quotient
    .ok (max 1 ⌈Binary64.round (totalSize / chunkSize)⌉).toNat

def validateChunkIndex (index totalSize chunkSize : ℤ) : Except Exc Unit :=
  match expectedChunkCount totalSize chunkSize with
  | .error e => .error e
  | .ok count =>
    if index < 0 ∨ count ≤ index then
      .error (.archiveError
        ("chunk index " ++ toString index ++ " out of range 0.." ++ toString ((count : ℤ) - 1)))
    else .ok ()

/-- The exact number of chunks. -/
def chunkCount (totalSize chunkSize : ℕ) : ℕ := max 1 ((totalSize + chunkSize - 1) / chunkSize)

theorem ceil_div_eq {t c : ℕ} (hc : 0 < c) : ⌈(t / c : ℚ)⌉ = ((t + c - 1) / c : ℕ) := by
  have hc' : (0 : ℚ) < c := by exact_mod_cast hc
  have hdiv := Nat.div_add_mod (t + c - 1) c
  have hmod := Nat.mod_lt (t + c - 1) hc
  set q := (t + c - 1) / c
  have hupper : t ≤ q * c := by
    rw [Nat.mul_comm q c]
    omega
  have hlower : q * c < t + c := by
    rw [Nat.mul_comm q c]
    omega
  rw [Int.ceil_eq_iff]
  refine ⟨?_, ?_⟩
  · rw [lt_div_iff₀ hc']
    have h : (q * c : ℚ) < t + c := by exact_mod_cast hlower
    push_cast
    linarith
  · rw [div_le_iff₀ hc']
    exact_mod_cast hupper

/-- **The chunk count is exact** below `2 ^ 53`. -/
theorem expectedChunkCount_eq {t c : ℕ} (ht : t < 2 ^ 53) (hc : 0 < c) :
    expectedChunkCount t c = .ok (chunkCount t c) := by
  have hneg : ¬((t : ℤ) < 0 ∨ (c : ℤ) ≤ 0) := by omega
  rw [expectedChunkCount, if_neg hneg]
  congr 1
  push_cast
  have hceil := ceil_div_eq (t := t) hc
  by_cases hct : c ≤ t
  · rw [Binary64.ceil_round_div ht hc hct, hceil, chunkCount]
    omega
  · -- below one chunk the rounded quotient is one at most
    have hround := Binary64.ceil_round_div_le_one (Nat.lt_of_not_le hct)
    have hq : (t + c - 1) / c ≤ 1 := Nat.lt_succ_iff.mp (Nat.div_lt_of_lt_mul (by omega))
    rw [chunkCount]
    omega

theorem validateChunkIndex_ok {index : ℤ} {t c : ℕ} (ht : t < 2 ^ 53) (hc : 0 < c)
    (h : validateChunkIndex index t c = .ok ()) : ∃ i : ℕ, index = i ∧ i < chunkCount t c := by
  rw [validateChunkIndex, expectedChunkCount_eq ht hc] at h
  by_cases hi : index < 0 ∨ (chunkCount t c : ℤ) ≤ index
  · simp only [if_pos hi] at h
    cases h
  · obtain ⟨i, rfl⟩ := Int.eq_ofNat_of_zero_le (show 0 ≤ index by omega)
    exact ⟨i, rfl, by omega⟩

theorem le_chunkCount_mul {t c : ℕ} (hc : 0 < c) : t ≤ chunkCount t c * c := by
  have hdiv := Nat.div_add_mod (t + c - 1) c
  have hmod := Nat.mod_lt (t + c - 1) hc
  have hle : (t + c - 1) / c * c ≤ chunkCount t c * c := Nat.mul_le_mul_right c (le_max_right _ _)
  rw [Nat.mul_comm ((t + c - 1) / c) c] at hle
  omega

/-! ### Assembly -/

/-- `1024 * 1024`. -/
def blockSize : ℕ := 1048576

/-- The archive being written, and how many space checks have been made. -/
structure Writer where
  out : Bytes
  checks : ℕ

variable (space : ℕ → Bool)

/-- The loop of `_copy_file`, for a number of reads. -/
def copyBlocks : ℕ → Bytes → Writer → Except Exc Unit × Writer
  | 0, _, w => (.ok (), w)
  | reads + 1, src, w =>
    if src.take blockSize = [] then (.ok (), w)
    else if space w.checks then
      copyBlocks reads (src.drop blockSize) ⟨w.out ++ src.take blockSize, w.checks + 1⟩
    else (.error .storageFull, ⟨w.out, w.checks + 1⟩)

/-- `_copy_file(src, out, space_check)`. -/
def copyFile (src : Bytes) (w : Writer) : Except Exc Unit × Writer :=
  copyBlocks space (src.length + 1) src w

/-- The loop of `assemble_archive` over the chunk indices. -/
def copyChunks (parts : ℕ → Option Bytes) : List ℕ → Writer → Except Exc Unit × Writer
  | [], w => (.ok (), w)
  | i :: is, w =>
    match parts i with
    | none => (.error (.archiveError ("missing chunk " ++ toString i)), w)
    | some src =>
      match copyFile space src w with
      | (.error e, w) => (.error e, w)
      | (.ok (), w) => copyChunks parts is w

/-- What `assemble_archive` leaves behind: the bytes of the archive file, and
the digest where it returned one. -/
structure Assembled where
  content : Bytes
  digest : Option String

variable (lib : Library)

/-- `assemble_archive`, on the part files of one archive. -/
def assembleArchive (parts : ℕ → Option Bytes) (totalSize chunkSize : ℕ)
    (expectedSha256 : String) : Except Exc String × Bytes :=
  match expectedChunkCount totalSize chunkSize with
  | .error e => (.error e, [])
  | .ok count =>
    match copyChunks space parts (List.range count) ⟨[], 0⟩ with
    | (.error e, w) => (.error e, w.out)
    | (.ok (), w) =>
      if w.out.length ≠ totalSize then
        (.error (.archiveError ("archive size mismatch: expected " ++ toString totalSize ++
          ", got " ++ toString w.out.length)), w.out)
      else if lib.lower (lib.sha256 w.out) ≠ lib.lower expectedSha256 then
        (.error (.archiveError "archive sha256 mismatch"), w.out)
      else (.ok (lib.sha256 w.out), w.out)

variable {space}

/-- With reads to spare the loop copies everything or fails. -/
theorem copyBlocks_ok {reads : ℕ} {src : Bytes} {w w' : Writer} (hreads : src.length < reads)
    (h : copyBlocks space reads src w = (.ok (), w')) : w'.out = w.out ++ src := by
  induction reads generalizing src w with
  | zero => omega
  | succ reads ih =>
    rw [copyBlocks] at h
    split_ifs at h with hend hspace
    · -- an empty read is the end of the file
      have hsrc : src = [] := by
        rcases src with _ | ⟨b, src⟩
        · rfl
        · simp [blockSize] at hend
      cases h
      rw [hsrc, List.append_nil]
    · have hpos : 0 < src.length := by
        refine List.length_pos_of_ne_nil fun hsrc => hend ?_
        rw [hsrc, List.take_nil]
      have hshort : (src.drop blockSize).length < reads := by
        rw [List.length_drop, blockSize]
        omega
      rw [ih hshort h]
      simp only [List.append_assoc, List.take_append_drop]
    · cases h

theorem copyFile_ok {src : Bytes} {w w' : Writer} (h : copyFile space src w = (.ok (), w')) :
    w'.out = w.out ++ src :=
  copyBlocks_ok (Nat.lt_succ_self _) h

theorem copyChunks_ok {parts : ℕ → Option Bytes} {is : List ℕ} {w w' : Writer}
    (h : copyChunks space parts is w = (.ok (), w')) :
    (∀ i ∈ is, (parts i).isSome) ∧ w'.out = w.out ++ is.flatMap fun i => (parts i).getD [] := by
  induction is generalizing w with
  | nil =>
    rw [copyChunks] at h
    cases h
    exact ⟨by simp, by simp⟩
  | cons i is ih =>
    rw [copyChunks] at h
    cases hpart : parts i with
    | none => simp [hpart] at h
    | some src =>
      simp only [hpart] at h
      split at h
      · cases h
      · next w₁ hcopy =>
        obtain ⟨hall, hout⟩ := ih h
        refine ⟨?_, ?_⟩
        · intro j hj
          rcases List.mem_cons.mp hj with rfl | hj
          · rw [hpart]
            rfl
          · exact hall j hj
        · rw [hout, copyFile_ok hcopy, List.flatMap_cons, hpart, Option.getD_some,
            List.append_assoc]

/-- **A successful assembly** has found every part and has written them one
after the other, with the declared length and digest. -/
theorem assembleArchive_ok {parts : ℕ → Option Bytes} {t c : ℕ} {sha256 digest : String}
    {out : Bytes} (ht : t < 2 ^ 53) (hc : 0 < c)
    (h : assembleArchive space lib parts t c sha256 = (.ok digest, out)) :
    (∀ i < chunkCount t c, (parts i).isSome) ∧
      out = glue (chunkCount t c) (fun i => (parts i).getD []) ∧ out.length = t ∧
      digest = lib.sha256 out ∧ lib.lower digest = lib.lower sha256 := by
  rw [assembleArchive, expectedChunkCount_eq ht hc] at h
  dsimp only at h
  split at h
  · cases h
  · next w hcopy =>
    obtain ⟨hall, hout⟩ := copyChunks_ok hcopy
    split_ifs at h with hlength hsha
    · cases h
    · cases h
    · cases h
      refine ⟨fun i hi => hall i (List.mem_range.mpr hi), ?_, not_not.mp hlength, rfl,
        not_not.mp hsha⟩
      rw [hout]
      rfl

end KaggleRelay
