/-
Packaging a directory that somebody else may write to.

A packager checks files, copies them into a new ZIP beside the destination and
puts it in the place of the destination at the end.  Every look at the
directory is one operation, and its answer is anything: the files may have been
changed since the last one.

* `copyBlocks` — the copying of one file, with a bound on its size;
* `atomically` — the temporary file, and what is done with it;
* `Packaging.World` — the destination, the temporary file, and what has been
  read;
* `safe_copyBlocks`, `safe_copyBlocks_copies` — a member is what has been read of
  the file that was opened for it;
* `safe_atomically` — the destination is replaced as a whole or not at all.
-/
import KaggleRelay.Archive
import KaggleRelay.JsonText
import KaggleRelay.Prog

namespace KaggleRelay

open Effects

/-- What a packager does. -/
inductive FileOp where
  /-- The directory itself is no link, and is where its path says. -/
  | safeRoot
  /-- The file is a regular file of the directory, and no link. -/
  | regular (name : String)
  /-- The path or a directory on it is a link. -/
  | linked (name : String)
  | isFile (name : String)
  | statSize (name : String)
  /-- All bytes of the file, read at once or by a loop. -/
  | readBytes (name : String)
  /-- `stream.read(n)`. -/
  | readUpTo (name : String) (n : ℕ)
  | openSource (name : String)
  /-- `source.read(1024 * 1024)`. -/
  | readBlock (name : String)
  /-- `storage_budget.check_free`, where there is a budget. -/
  | checkFree (size : JsonText.Json)
  /-- `destination.parent.mkdir(parents=True, exist_ok=True)`. -/
  | makeParent
  /-- `tempfile.mkstemp`, and the descriptor closed. -/
  | makeTemporary
  | openZip
  /-- `archive.open(name, "w")`. -/
  | openMember (name : String)
  | write (data : Bytes)
  | closeMember
  | closeZip
  /-- All bytes of the temporary file. -/
  | archiveBytes
  | archiveSize
  /-- `os.replace(temporary, destination)`. -/
  | replace
  /-- `Path(temporary).unlink(missing_ok=True)`. -/
  | unlink

/-- The answers. -/
def FileOp.Res : FileOp → Type
  | .safeRoot | .regular _ | .linked _ | .isFile _ => Except Exc Bool
  | .statSize _ | .archiveSize => Except Exc ℕ
  | .readBytes _ | .readUpTo _ _ | .readBlock _ | .archiveBytes => Except Exc Bytes
  | .openSource _ | .checkFree _ | .makeParent | .makeTemporary | .openZip | .openMember _
  | .write _ | .closeMember | .closeZip | .replace => Except Exc Unit
  | .unlink => Unit

def FileSig : Sig := ⟨FileOp, FileOp.Res⟩

/-- Programs of a packager. -/
abbrev Packager (α : Type) := Eff FileSig Exc α

namespace Packager

def safeRoot : Packager Bool := Prog.perform (S := FileSig) .safeRoot
def regular (name : String) : Packager Bool := Prog.perform (S := FileSig) (.regular name)
def linked (name : String) : Packager Bool := Prog.perform (S := FileSig) (.linked name)
def isFile (name : String) : Packager Bool := Prog.perform (S := FileSig) (.isFile name)
def statSize (name : String) : Packager ℕ := Prog.perform (S := FileSig) (.statSize name)
def readBytes (name : String) : Packager Bytes := Prog.perform (S := FileSig) (.readBytes name)
def readUpTo (name : String) (n : ℕ) : Packager Bytes :=
  Prog.perform (S := FileSig) (.readUpTo name n)
def openSource (name : String) : Packager Unit := Prog.perform (S := FileSig) (.openSource name)
def readBlock (name : String) : Packager Bytes := Prog.perform (S := FileSig) (.readBlock name)
def checkFree (size : JsonText.Json) : Packager Unit := Prog.perform (S := FileSig) (.checkFree size)
def makeParent : Packager Unit := Prog.perform (S := FileSig) .makeParent
def makeTemporary : Packager Unit := Prog.perform (S := FileSig) .makeTemporary
def openZip : Packager Unit := Prog.perform (S := FileSig) .openZip
def openMember (name : String) : Packager Unit := Prog.perform (S := FileSig) (.openMember name)
def write (data : Bytes) : Packager Unit := Prog.perform (S := FileSig) (.write data)
def closeMember : Packager Unit := Prog.perform (S := FileSig) .closeMember
def closeZip : Packager Unit := Prog.perform (S := FileSig) .closeZip
def archiveBytes : Packager Bytes := Prog.perform (S := FileSig) .archiveBytes
def archiveSize : Packager ℕ := Prog.perform (S := FileSig) .archiveSize
def replace : Packager Unit := Prog.perform (S := FileSig) .replace
def unlink : Packager Unit := Eff.perform (S := FileSig) .unlink

/-- The loop that copies a file: it ends with an empty block, and with an
exception when there are more bytes than `limit`. -/
def copyBlocks (name : String) (limit : ℚ) (grew : Exc) (copied : Bytes) : Packager Bytes :=
  Eff.bind (readBlock name) fun block =>
    if block = [] then Eff.lift (.ok copied)
    else if limit < copied.length + block.length then Eff.throw grew
    else Eff.bind (write block) fun _ => copyBlocks name limit grew (copied ++ block)
termination_by ⌊limit⌋₊ - copied.length
decreasing_by
  have hpos : 0 < block.length := List.length_pos_of_ne_nil ‹_›
  have hle : copied.length + block.length ≤ ⌊limit⌋₊ := Nat.le_floor (by push_cast; exact not_lt.mp ‹_›)
  rw [List.length_append]
  omega

/-- The temporary file beside the destination, what is done with it, and its
removal whatever happens. -/
def atomically {α : Type} (body : Packager α) : Packager α := do
  makeParent
  makeTemporary
  let outcome ← Eff.attempt body
  unlink
  Eff.lift outcome

end Packager

/-! ### The world of a packager -/

namespace Packaging

/-- The content of the destination: a ZIP by its members, or what it was before. -/
inductive Content where
  | other (bytes : Bytes)
  | zip (members : List (String × Bytes))
  deriving DecidableEq

structure World where
  /-- The file at the destination. -/
  destination : Option Content
  /-- The members written to the temporary file, where there is one. -/
  temporary : Option (List (String × Bytes))
  /-- The files read as a whole, the last one first. -/
  reads : List (String × Bytes)
  /-- The files opened, with the blocks read from each, the last one first. -/
  copies : List (String × Bytes)

/-- Nothing done yet. -/
def World.start (destination : Option Content) : World := ⟨destination, none, [], []⟩

/-- An answer for every operation. -/
abbrev Answers := (o : FileOp) → o.Res

/-- More bytes for the last member. -/
def writeMember (data : Bytes) : List (String × Bytes) → List (String × Bytes)
  | [] => []
  | [(name, bytes)] => [(name, bytes ++ data)]
  | member :: members => member :: writeMember data members

/-- One more block of the file opened last. -/
def readMore (block : Bytes) : List (String × Bytes) → List (String × Bytes)
  | [] => []
  | (name, bytes) :: older => (name, bytes ++ block) :: older

/-- What an operation does: looks at the directory answer anything, and what
raises has no effect. -/
def perform (c : Answers) (o : FileOp) (w : World) : o.Res × World :=
  (c o, match o with
    | .readBytes name =>
      match c (.readBytes name) with
      | .ok bytes => { w with reads := (name, bytes) :: w.reads }
      | .error _ => w
    | .readUpTo name n =>
      match c (.readUpTo name n) with
      | .ok bytes => { w with reads := (name, bytes) :: w.reads }
      | .error _ => w
    | .openSource name =>
      match c (.openSource name) with
      | .ok () => { w with copies := (name, []) :: w.copies }
      | .error _ => w
    | .readBlock name =>
      match c (.readBlock name) with
      | .ok block => { w with copies := readMore block w.copies }
      | .error _ => w
    | .makeTemporary =>
      match c .makeTemporary with
      | .ok () => { w with temporary := some [] }
      | .error _ => w
    | .openMember name =>
      match c (.openMember name) with
      | .ok () => { w with temporary := w.temporary.map (· ++ [(name, [])]) }
      | .error _ => w
    | .write data =>
      match c (.write data) with
      | .ok () => { w with temporary := w.temporary.map (writeMember data) }
      | .error _ => w
    | .replace =>
      match c .replace with
      | .ok () => { w with destination := w.temporary.map .zip, temporary := none }
      | .error _ => w
    | .unlink => { w with temporary := none }
    | _ => w)

/-- Every operation has an answer. -/
def sem : Prog.Sem FileSig Answers World := fun o c w => some (perform c o w)

theorem sem_isSome (o : FileOp) (c : Answers) (w : World) : (sem o c w).isSome := rfl

/-- An operation that touches neither the destination nor the temporary file. -/
def Looks : FileOp → Prop
  | .makeTemporary | .openMember _ | .write _ | .replace | .unlink => False
  | _ => True

/-- What such an operation leaves alone. -/
theorem looks_frame {o : FileOp} (ho : Looks o) (c : Answers) (w : World) :
    (perform c o w).2.destination = w.destination ∧ (perform c o w).2.temporary = w.temporary := by
  cases o with
  | readBytes name | readUpTo name n | openSource name | readBlock name =>
    simp only [perform]
    split <;> exact ⟨rfl, rfl⟩
  | makeTemporary => exact ho.elim
  | openMember name => exact ho.elim
  | write data => exact ho.elim
  | replace => exact ho.elim
  | unlink => exact ho.elim
  | _ => exact ⟨rfl, rfl⟩

/-- An operation that reads no file as a whole. -/
def Unread : FileOp → Prop
  | .readBytes _ | .readUpTo _ _ => False
  | _ => True

theorem reads_of_unread {o : FileOp} (ho : Unread o) (c : Answers) (w : World) :
    (perform c o w).2.reads = w.reads := by
  cases o with
  | readBytes name => exact ho.elim
  | readUpTo name n => exact ho.elim
  | openSource name | readBlock name | makeTemporary | openMember name | write data | replace =>
    simp only [perform]
    split <;> rfl
  | _ => rfl

theorem reads_suffix (o : FileOp) (c : Answers) (w : World) :
    w.reads <:+ (perform c o w).2.reads := by
  by_cases ho : Unread o
  · rw [reads_of_unread ho]
  · cases o with
    | readBytes name | readUpTo name n =>
      simp only [perform]
      split
      · exact List.suffix_cons _ _
      · exact List.suffix_rfl
    | _ => exact (ho trivial).elim

theorem safe_unread {α : Type} {reads : List (String × Bytes)} {w : World} (hw : w.reads = reads)
    {p : Packager α} (hp : Uses Unread (p : Prog FileSig (Except Exc α))) :
    Safe sem (fun _ => True) (fun _ w' => w'.reads = reads) p w := by
  refine Safe.of_uses (J := fun w : World => w.reads = reads) (fun _ _ => trivial) ?_ hp hw
  intro o ho c r w w' hw hs
  obtain ⟨rfl, rfl⟩ := Prod.mk.inj (Option.some.inj hs)
  exact (reads_of_unread ho c w).trans hw

/-- An operation that opens no file and reads no block of one. -/
def Uncopied : FileOp → Prop
  | .openSource _ | .readBlock _ => False
  | _ => True

theorem copies_of_uncopied {o : FileOp} (ho : Uncopied o) (c : Answers) (w : World) :
    (perform c o w).2.copies = w.copies := by
  cases o with
  | openSource name => exact ho.elim
  | readBlock name => exact ho.elim
  | readBytes name | readUpTo name n | makeTemporary | openMember name | write data | replace =>
    simp only [perform]
    split <;> rfl
  | _ => rfl

theorem safe_uncopied {α : Type} {copies : List (String × Bytes)} {w : World} (hw : w.copies = copies)
    {p : Packager α} (hp : Uses Uncopied (p : Prog FileSig (Except Exc α))) :
    Safe sem (fun _ => True) (post (fun _ w' => w'.copies = copies) fun _ _ => True) p w := by
  refine Safe.mono (Safe.of_uses (J := fun w : World => w.copies = copies) (fun _ _ => trivial) ?_ hp hw) ?_
  · intro o ho c r w w' hw hs
    obtain ⟨rfl, rfl⟩ := Prod.mk.inj (Option.some.inj hs)
    exact (copies_of_uncopied ho c w).trans hw
  · rintro (e | a) w' h
    · trivial
    · exact h

/-- What has been read stays read. -/
theorem safe_reads {α : Type} {w : World} {reads : List (String × Bytes)} (hreads : reads <:+ w.reads)
    (p : Packager α) :
    Safe sem (fun _ => True) (fun _ (w' : World) => reads <:+ w'.reads) p w := by
  have hall : Uses (fun _ => True) p := Uses.all (fun _ => trivial) p
  refine Safe.of_uses (J := fun w : World => reads <:+ w.reads) (fun _ _ => trivial) ?_ hall hreads
  intro o _ c r w w' hw hs
  obtain ⟨rfl, rfl⟩ := Prod.mk.inj (Option.some.inj hs)
  exact hw.trans (reads_suffix o c w)

section Rules

variable {d : Option Content} {t : Option (List (String × Bytes))} {w : World} {α : Type}

/-- The destination and the temporary file. -/
def At (d : Option Content) (t : Option (List (String × Bytes))) (w : World) : Prop :=
  w.destination = d ∧ w.temporary = t

/-- A program of looks leaves both alone. -/
theorem safe_looks_at {p : Packager α} (hp : Uses Looks p) (hw : At d t w) :
    Safe sem (fun _ => True) (post (fun _ w' => At d t w') fun _ w' => At d t w') p w := by
  refine Safe.mono (Safe.of_uses (J := At d t) (fun _ _ => trivial) ?_ hp hw) ?_
  · intro o ho c r w w' hw hs
    obtain ⟨rfl, rfl⟩ := Prod.mk.inj (Option.some.inj hs)
    obtain ⟨hdest, htemp⟩ := looks_frame ho c w
    exact ⟨hdest.trans hw.1, htemp.trans hw.2⟩
  · rintro (e | a) w' h <;> exact h

theorem safe_looks {p : Packager α} (hp : Uses Looks p) (hw : At d t w) :
    Safe sem (fun _ => True) (post (fun _ w' => At d t w') fun _ w' => w'.destination = d) p w := by
  refine Safe.mono (safe_looks_at hp hw) ?_
  rintro (e | a) w' h
  · exact h.1
  · exact h

/-- A file that has been read as a whole is on record. -/
theorem safe_readUpTo (name : String) (n : ℕ) (hw : At d t w) :
    Safe sem (fun _ => True)
      (post (fun bytes w' => At d t w' ∧ w'.reads = (name, bytes) :: w.reads) fun _ w' => At d t w')
      (Packager.readUpTo name n) w := by
  intro c r w' hs
  obtain ⟨rfl, rfl⟩ := Prod.mk.inj (Option.some.inj hs)
  refine ⟨trivial, ?_⟩
  simp only
  cases c (.readUpTo name n) with
  | error e => exact hw
  | ok bytes => exact ⟨hw, rfl⟩

theorem safe_readBytes (name : String) (hw : At d t w) :
    Safe sem (fun _ => True)
      (post (fun bytes w' => At d t w' ∧ w'.reads = (name, bytes) :: w.reads) fun _ w' => At d t w')
      (Packager.readBytes name) w := by
  intro c r w' hs
  obtain ⟨rfl, rfl⟩ := Prod.mk.inj (Option.some.inj hs)
  refine ⟨trivial, ?_⟩
  simp only
  cases c (.readBytes name) with
  | error e => exact hw
  | ok bytes => exact ⟨hw, rfl⟩

/-- Looks after a read. -/
theorem safe_looks_read {p : Packager α} {reads : List (String × Bytes)} (hp : Uses Looks p)
    (hw : At d t w) (hreads : reads <:+ w.reads) :
    Safe sem (fun _ => True)
      (post (fun _ w' => At d t w' ∧ reads <:+ w'.reads) fun _ w' => At d t w') p w := by
  refine Safe.mono (Safe.and (safe_looks_at hp hw) (safe_reads hreads p)) ?_
  rintro (e | a) w' ⟨hw', hreads'⟩
  · exact hw'
  · exact ⟨hw', hreads'⟩

theorem safe_openMember {members : List (String × Bytes)} (name : String)
    (hw : At d (some members) w) :
    Safe sem (fun _ => True)
      (post (fun _ w' => At d (some (members ++ [(name, [])])) w') fun _ w' => w'.destination = d)
      (Packager.openMember name) w := by
  intro c r w' hs
  obtain ⟨rfl, rfl⟩ := Prod.mk.inj (Option.some.inj hs)
  refine ⟨trivial, ?_⟩
  simp only
  cases c (.openMember name) with
  | error e => exact hw.1
  | ok u => exact ⟨hw.1, by rw [hw.2]; rfl⟩

theorem writeMember_append (members : List (String × Bytes)) (name : String) (bytes data : Bytes) :
    writeMember data (members ++ [(name, bytes)]) = members ++ [(name, bytes ++ data)] := by
  induction members with
  | nil => rfl
  | cons member members ih =>
    rw [List.cons_append, List.cons_append, ← ih]
    cases members <;> rfl

theorem safe_write {members : List (String × Bytes)} {name : String} {bytes : Bytes} (data : Bytes)
    (hw : At d (some (members ++ [(name, bytes)])) w) :
    Safe sem (fun _ => True)
      (post (fun _ w' => At d (some (members ++ [(name, bytes ++ data)])) w')
        fun _ w' => w'.destination = d)
      (Packager.write data) w := by
  intro c r w' hs
  obtain ⟨rfl, rfl⟩ := Prod.mk.inj (Option.some.inj hs)
  refine ⟨trivial, ?_⟩
  simp only
  cases c (.write data) with
  | error e => exact hw.1
  | ok u => exact ⟨hw.1, by rw [hw.2, Option.map_some, writeMember_append]⟩

/-- **The copying of a file**: the member is what has been read, and not longer
than the limit. -/
theorem safe_copyBlocks {members : List (String × Bytes)} {member name : String} {limit : ℚ}
    {grew : Exc} {copied : Bytes} (hw : At d (some (members ++ [(member, copied)])) w) :
    Safe sem (fun _ => True)
      (post (fun bytes w' => At d (some (members ++ [(member, bytes)])) w')
        fun _ w' => w'.destination = d)
      (Packager.copyBlocks name limit grew copied) w := by
  induction copied using Packager.copyBlocks.induct limit generalizing w with
  | case1 copied ih =>
    rw [Packager.copyBlocks]
    have hread : Safe sem (fun _ => True)
        (post (fun _ w' => At d (some (members ++ [(member, copied)])) w')
          fun _ w' => w'.destination = d) (Packager.readBlock name) w :=
      safe_looks (Uses.perform trivial) hw
    refine Safe.seq hread ?_
    intro block w' hw'
    split
    · exact Safe.lift (fun bytes hbytes => Except.ok.inj hbytes ▸ hw') fun _ _ => hw'.1
    split
    · exact hw'.1
    · next hne hlimit =>
      refine Safe.seq (safe_write block hw') ?_
      intro _ w'' hw''
      exact ih block hne hlimit hw''

/-- An opened file is on record. -/
theorem safe_openSource (name : String) :
    Safe sem (fun _ => True) (post (fun _ w' => w'.copies = (name, []) :: w.copies) fun _ _ => True)
      (Packager.openSource name) w := by
  intro c r w' hs
  obtain ⟨rfl, rfl⟩ := Prod.mk.inj (Option.some.inj hs)
  refine ⟨trivial, ?_⟩
  simp only
  cases c (.openSource name) with
  | error e => trivial
  | ok u => rfl

theorem safe_readBlock {name : String} {copied : Bytes} {older : List (String × Bytes)} (source : String)
    (hw : w.copies = (name, copied) :: older) :
    Safe sem (fun _ => True)
      (post (fun block w' => w'.copies = (name, copied ++ block) :: older) fun _ _ => True)
      (Packager.readBlock source) w := by
  intro c r w' hs
  obtain ⟨rfl, rfl⟩ := Prod.mk.inj (Option.some.inj hs)
  refine ⟨trivial, ?_⟩
  simp only
  cases c (.readBlock source) with
  | error e => trivial
  | ok block =>
    show readMore block w.copies = _
    rw [hw, readMore]

/-- What a copy returns is what has been read of the file since it was opened. -/
theorem safe_copyBlocks_copies {name source : String} {limit : ℚ} {grew : Exc} {copied : Bytes}
    {older : List (String × Bytes)} (hw : w.copies = (name, copied) :: older) :
    Safe sem (fun _ => True)
      (post (fun bytes w' => w'.copies = (name, bytes) :: older) fun _ _ => True)
      (Packager.copyBlocks source limit grew copied) w := by
  induction copied using Packager.copyBlocks.induct limit generalizing w with
  | case1 copied ih =>
    rw [Packager.copyBlocks]
    refine Safe.seq (safe_readBlock source hw) ?_
    intro block w' hw'
    split
    · next hempty =>
      rw [hempty, List.append_nil] at hw'
      exact Safe.lift (fun bytes hbytes => Except.ok.inj hbytes ▸ hw') fun _ _ => trivial
    split
    · trivial
    · next hne hlimit =>
      refine Safe.seq (safe_uncopied hw' (Uses.perform trivial)) ?_
      intro _ w'' hw''
      exact ih block hne hlimit hw''

theorem safe_makeTemporary (hw : At d none w) :
    Safe sem (fun _ => True)
      (post (fun _ w' => At d (some []) w') fun _ w' => At d none w') Packager.makeTemporary w := by
  intro c r w' hs
  obtain ⟨rfl, rfl⟩ := Prod.mk.inj (Option.some.inj hs)
  refine ⟨trivial, ?_⟩
  simp only
  cases c .makeTemporary with
  | error e => exact hw
  | ok u => exact ⟨hw.1, rfl⟩

theorem safe_unlink {E : Exc → World → Prop} {d : Option Content} (hw : w.destination = d) :
    Safe sem (fun _ => True) (post (fun _ w' => At d none w' ∧ w'.copies = w.copies) E) Packager.unlink w := by
  intro c r w' hs
  obtain ⟨rfl, rfl⟩ := Prod.mk.inj (Option.some.inj hs)
  exact ⟨trivial, ⟨hw, rfl⟩, rfl⟩

/-- **Publication**: what a body has put in the place of the destination stays
there, and otherwise the destination is what it was.  No temporary file is
left. -/
theorem safe_atomically {body : Packager α} {Q : α → Option Content → List (String × Bytes) → Prop}
    (hw : At d none w)
    (hbody : ∀ w, At d (some []) w →
      Safe sem (fun _ => True)
        (post (fun a w' => Q a w'.destination w'.copies) fun _ w' => w'.destination = d) body w) :
    Safe sem (fun _ => True)
      (post (fun a w' => Q a w'.destination w'.copies ∧ w'.temporary = none) fun _ w' => At d none w')
      (Packager.atomically body) w := by
  rw [Packager.atomically]
  have hparent : Safe sem (fun _ => True)
      (post (fun _ w' => At d none w') fun _ w' => At d none w') Packager.makeParent w :=
    safe_looks_at (Uses.perform trivial) hw
  refine Safe.seq hparent ?_
  intro _ w₁ hw₁
  refine Safe.seq (safe_makeTemporary hw₁) ?_
  intro _ w₂ hw₂
  have hattempt : Safe sem (fun _ => True)
      (post (fun outcome w' => match outcome with
        | .ok a => Q a w'.destination w'.copies
        | .error _ => w'.destination = d) fun _ w' => At d none w')
      (Eff.attempt body) w₂ := by
    refine Safe.bind (hbody w₂ hw₂) ?_
    rintro (e | a) w' h <;> exact h
  refine Safe.seq hattempt ?_
  intro outcome w₃ hw₃
  have hunlink : Safe sem (fun _ => True)
      (post (fun _ w' => At w₃.destination none w' ∧ w'.copies = w₃.copies) fun _ w' => At d none w')
      Packager.unlink w₃ := safe_unlink rfl
  refine Safe.seq hunlink ?_
  rintro _ w₄ ⟨⟨hdest, htemp⟩, hcopies⟩
  cases outcome with
  | error e => exact ⟨hdest.trans hw₃, htemp⟩
  | ok a => exact ⟨by rw [hdest, hcopies]; exact hw₃, htemp⟩

/-- The replacement of the destination. -/
theorem safe_replace {members : List (String × Bytes)} (hw : At d (some members) w) :
    Safe sem (fun _ => True)
      (post (fun _ w' => w'.destination = some (.zip members)) fun _ w' => w'.destination = d)
      Packager.replace w := by
  intro c r w' hs
  obtain ⟨rfl, rfl⟩ := Prod.mk.inj (Option.some.inj hs)
  refine ⟨trivial, ?_⟩
  simp only
  cases c .replace with
  | error e => exact hw.1
  | ok u => exact congrArg (Option.map Content.zip) hw.2

end Rules

/-! ### Packagers end -/

/-- A program of operations of a kind, without endless loops. -/
abbrev Bounded {α : Type} (φ : FileOp → Prop) (p : Packager α) : Prop :=
  Uses φ (p : Prog FileSig (Except Exc α)) ∧ Ends (p : Prog FileSig (Except Exc α))

section Bounded

variable {φ : FileOp → Prop} {α β : Type}

theorem Bounded.seq {p : Packager α} {f : α → Packager β} (hp : Bounded φ p)
    (hf : ∀ a, Bounded φ (f a)) : Bounded φ (p >>= f) :=
  ⟨Uses.seq hp.1 fun a => (hf a).1, Ends.seq hp.2 fun a => (hf a).2⟩

theorem bounded_copyBlocks (name : String) (limit : ℚ) (grew : Exc) (copied : Bytes)
    (hread : φ (.readBlock name)) (hwrite : ∀ data, φ (.write data)) :
    Bounded φ (Packager.copyBlocks name limit grew copied) := by
  induction copied using Packager.copyBlocks.induct limit with
  | case1 copied ih =>
    rw [Packager.copyBlocks]
    refine Bounded.seq ⟨Uses.perform hread, Ends.perform _⟩ fun block => ?_
    split
    · exact ⟨trivial, trivial⟩
    split
    · exact ⟨trivial, trivial⟩
    · next hne hlimit =>
      exact Bounded.seq ⟨Uses.perform (hwrite block), Ends.perform _⟩ fun _ => ih block hne hlimit

theorem bounded_atomically {body : Packager α} (hbody : Bounded φ body) (hparent : φ .makeParent)
    (htemporary : φ .makeTemporary) (hunlink : φ .unlink) :
    Bounded φ (Packager.atomically body) := by
  refine Bounded.seq ⟨Uses.perform hparent, Ends.perform _⟩ fun _ => ?_
  refine Bounded.seq ⟨Uses.perform htemporary, Ends.perform _⟩ fun _ => ?_
  refine Bounded.seq ⟨Uses.bind hbody.1 fun _ => trivial, Ends.attempt hbody.2⟩ fun _ => ?_
  exact Bounded.seq ⟨⟨hunlink, fun _ => trivial⟩, fun _ => trivial⟩ fun _ => ⟨trivial, trivial⟩

end Bounded

end Packaging

end KaggleRelay
