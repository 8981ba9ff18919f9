import Net2Modbus.StringSearch
import Net2Modbus.TftpRead

/-!
# A string in a file

`FindFileString` reads the open file into `filebuf`, 512 bytes at a time, and searches what
lies there up to a zero byte. The buffer keeps what a short read does not replace, and no
zero byte stands behind it.
-/
namespace Net2Modbus

/-- `strstr`, in the memory from the text on. -/
def strstrScan (str memory : List UInt8) : Search := search 0 str memory

/-- What `FindFileString` returns; for each read, the bytes that were read and those that the
    search looked at. -/
structure FindRun where
  offset : UInt32
  looks : List (Nat × Nat)
  deriving DecidableEq, Repr

/-- A full read leaves less of the file. -/
theorem fileRead_full {file : EfsFile} (full : (fileRead true 512 file).2.length = 512) :
    (fileRead true 512 file).1.contents.length - (fileRead true 512 file).1.filePtr <
      file.contents.length - file.filePtr := by
  unfold fileRead at full ⊢
  split at full
  · rename_i opened
    rw [if_pos opened]
    dsimp only at full ⊢
    rw [full]
    rw [List.length_take,List.length_drop] at full
    omega
  · contradiction
/-- The loop of `FindFileString`; `beyond` lies behind `filebuf`. -/
def findLoop (str beyond : List UInt8) (index : UInt32) (file : EfsFile) (filebuf : Block UInt8 512) : FindRun :=
  let len := (fileRead true 512 file).2.length
  let filled := filebuf.copy (fileRead true 512 file).2
  let p := strstrScan str (filled.cells ++ beyond)
  match p.found with
  | some offset => ⟨UInt32.ofNat offset + index * 512,[(len,p.looked)]⟩
  | none =>
    if len = 512 then
      let next := findLoop str beyond (index + 1) (fileRead true 512 file).1 filled
      { next with looks := (len,p.looked) :: next.looks }
    else ⟨0,[(len,p.looked)]⟩
termination_by file.contents.length - file.filePtr
decreasing_by exact fileRead_full ‹_›
/-- `FindFileString`, in the file that is open. -/
def findFileString (str beyond : List UInt8) (file : EfsFile) (filebuf : Block UInt8 512) : FindRun :=
  findLoop str beyond 0 file filebuf

/-- A pattern as a C string: without a zero byte, and shorter than a read. -/
structure CPattern where
  chars : List UInt8
  nonempty : chars ≠ []
  short : chars.length < 512
  text : 0 ∉ chars
/-- What a file holds; the file system counts it in 32 bits. -/
structure FileBytes where
  contents : List UInt8
  fileSize : contents.length < 4294967296

/-- Only bytes that were read are looked at, and the place of the first occurrence is
    returned, or 0. -/
structure FindKept (str file : List UInt8) (run : FindRun) : Prop where
  looks : ∀ look ∈ run.looks, look.2 ≤ look.1
  found : ∀ a, FirstAt str file a → run.offset.toNat = a
  missing : (¬ ∃ a, OccursAt str file a) → run.offset = 0

/-- Every block up to the one with the first occurrence holds a zero byte, and that one none in
    front of the occurrence, which is not cut; or every block holds one, the last one too. -/
def Findable (str file : List UInt8) : Prop :=
  (∃ k a, FirstAt str file (512 * k + a) ∧ a + str.length ≤ 512 ∧ 0 ∉ (chunk 512 file (k + 1)).take a ∧
    ∀ i < k, 0 ∈ chunk 512 file (i + 1)) ∨
  (¬ ∃ a, OccursAt str file a) ∧ ∀ i < lastChunk 512 file, 0 ∈ chunk 512 file (i + 1)

section
variable {str file beyond : List UInt8} {k a : Nat}

/-- A block in which the search ends with the string. -/
def Visible (str file : List UInt8) (k a : Nat) : Prop :=
  FirstAt str (chunk 512 file (k + 1)) a ∧ 0 ∉ (chunk 512 file (k + 1)).take a
/-- A block in which it ends at a zero byte. -/
def Passed (str file : List UInt8) (k : Nat) : Prop := 0 ∈ chunk 512 file (k + 1) ∧ ∀ a, ¬ Visible str file k a

theorem Visible.occurs (nonempty : str ≠ []) (visible : Visible str file k a) :
    OccursAt str file (512 * k + a) ∧ a + str.length ≤ 512 :=
  (occursAt_chunk nonempty).mp visible.1.occurs
theorem visible_of_first (nonempty : str ≠ []) (first : FirstAt str file (512 * k + a)) (uncut : a + str.length ≤ 512)
    (clear : 0 ∉ (chunk 512 file (k + 1)).take a) : Visible str file k a := by
  refine ⟨⟨(occursAt_chunk nonempty).mpr ⟨first.occurs,uncut⟩,?_⟩,clear⟩
  intro b before occurs
  exact first.first (512 * k + b) (by omega) ((occursAt_chunk nonempty).mp occurs).1
/-- The block that an occurrence lies in has been read. -/
theorem Visible.before_last (nonempty : str ≠ []) (visible : Visible str file k a) : k < lastChunk 512 file := by
  have inside := (visible.occurs nonempty).1.inside nonempty
  unfold lastChunk
  omega

/-- Behind the bytes of a block lie the rest of the buffer and other memory. -/
theorem strstr_visible (nonempty : str ≠ []) (text : 0 ∉ str) (visible : Visible str file k a) (rest : List UInt8) :
    strstrScan str (chunk 512 file (k + 1) ++ rest) = ⟨some a,a + str.length⟩ := by
  have found := (search_found_iff nonempty).mpr visible
  have inside : (search 0 str (chunk 512 file (k + 1))).looked ≤ (chunk 512 file (k + 1)).length := by
    rw [search_looked found]
    exact visible.1.occurs.inside nonempty
  have whole : search 0 str (chunk 512 file (k + 1) ++ rest) = search 0 str (chunk 512 file (k + 1)) :=
    search_append nonempty text inside
  rw [strstrScan,whole,← found,← search_looked found]
theorem strstr_passed (nonempty : str ≠ []) (text : 0 ∉ str) (passed : Passed str file k) (rest : List UInt8) :
    (strstrScan str (chunk 512 file (k + 1) ++ rest)).found = none ∧
      (strstrScan str (chunk 512 file (k + 1) ++ rest)).looked ≤ (chunk 512 file (k + 1)).length := by
  have inside := (search_inside_iff nonempty).mpr (.inl passed.1)
  rw [strstrScan,search_append nonempty text inside]
  refine ⟨?_,inside⟩
  cases found : (search 0 str (chunk 512 file (k + 1))).found with
  | none => rfl
  | some a => exact absurd ((search_found_iff nonempty).mp found) (passed.2 a)
theorem strstr_leaves (nonempty : str ≠ []) (zero : 0 ∉ chunk 512 file (k + 1)) (hidden : ∀ a, ¬ Visible str file k a)
    (rest : List UInt8) :
    ¬ (strstrScan str (chunk 512 file (k + 1) ++ rest)).looked ≤ (chunk 512 file (k + 1)).length := by
  intro inside
  rcases (search_inside_iff nonempty).mp (search_leaves nonempty inside) with member | ⟨a,occurs⟩
  · exact zero member
  · obtain ⟨b,-,first⟩ := occurs.exists_first
    exact hidden b ⟨first,fun member => zero (List.mem_of_mem_take member)⟩

/-- What the search sees after a read. -/
theorem fill_chunk (filebuf : Block UInt8 512) :
    ((filebuf.copy (chunk 512 file (k + 1))).cells ++ beyond) =
      chunk 512 file (k + 1) ++ (filebuf.cells.drop (chunk 512 file (k + 1)).length ++ beyond) := by
  rw [filebuf.copy_cells (chunk_length_le 512 file (k + 1)),List.append_assoc]
theorem findLoop_visible (nonempty : str ≠ []) (text : 0 ∉ str) (visible : Visible str file k a) (index : UInt32)
    (filebuf : Block UInt8 512) :
    findLoop str beyond index (readTo file k) filebuf =
      ⟨UInt32.ofNat a + index * 512,[((chunk 512 file (k + 1)).length,a + str.length)]⟩ := by
  have read := fileRead_next file k
  rw [tftpDataLenMax] at read
  rw [findLoop]
  simp only [read,fill_chunk,strstr_visible nonempty text visible]
theorem findLoop_missed (index : UInt32) {filebuf filled : Block UInt8 512}
    (fill : filebuf.copy (chunk 512 file (k + 1)) = filled) (missed : (strstrScan str (filled.cells ++ beyond)).found = none) :
    findLoop str beyond index (readTo file k) filebuf =
      if (chunk 512 file (k + 1)).length = 512 then
        ⟨(findLoop str beyond (index + 1) (readTo file (k + 1)) filled).offset,
          ((chunk 512 file (k + 1)).length,(strstrScan str (filled.cells ++ beyond)).looked) ::
            (findLoop str beyond (index + 1) (readTo file (k + 1)) filled).looks⟩
      else ⟨0,[((chunk 512 file (k + 1)).length,(strstrScan str (filled.cells ++ beyond)).looked)]⟩ := by
  subst fill
  have read := fileRead_next file k
  rw [tftpDataLenMax] at read
  rw [findLoop]
  simp only [read,missed]
/-- The first look of the loop. -/
theorem findLoop_looks (index : UInt32) (filebuf : Block UInt8 512) :
    ((chunk 512 file (k + 1)).length,(strstrScan str ((filebuf.copy (chunk 512 file (k + 1))).cells ++ beyond)).looked) ∈
      (findLoop str beyond index (readTo file k) filebuf).looks := by
  have read := fileRead_next file k
  rw [tftpDataLenMax] at read
  rw [findLoop]
  simp only [read]
  split
  · exact List.mem_singleton_self _
  · split
    · exact List.mem_cons_self
    · exact List.mem_singleton_self _

/-- How the loop ends: at the first block that is not passed, with the string or with a look
    beyond what was read, or with the file. -/
inductive Ending (str file : List UInt8) (k : Nat) (run : FindRun) : Prop
  | visible (j a : Nat) (le : k ≤ j) (visible : Visible str file j a) (passed : ∀ i, k ≤ i → i < j → Passed str file i)
      (looks : ∀ look ∈ run.looks, look.2 ≤ look.1) (offset : run.offset = UInt32.ofNat (512 * j + a))
  | passed (passed : ∀ i, k ≤ i → i < lastChunk 512 file → Passed str file i)
      (looks : ∀ look ∈ run.looks, look.2 ≤ look.1) (offset : run.offset = 0)
  | leaves (j : Nat) (le : k ≤ j) (inside : j < lastChunk 512 file) (zero : 0 ∉ chunk 512 file (j + 1))
      (hidden : ∀ a, ¬ Visible str file j a) (passed : ∀ i, k ≤ i → i < j → Passed str file i)
      (looks : ¬ ∀ look ∈ run.looks, look.2 ≤ look.1)

theorem findLoop_ends (nonempty : str ≠ []) (text : 0 ∉ str) (inside : k < lastChunk 512 file) (filebuf : Block UInt8 512) :
    Ending str file k (findLoop str beyond (UInt32.ofNat k) (readTo file k) filebuf) := by
  induction left : lastChunk 512 file - k generalizing k filebuf with
  | zero => omega
  | succ n ih =>
    by_cases sees : ∃ a, Visible str file k a
    · obtain ⟨a,visible⟩ := sees
      rw [findLoop_visible nonempty text visible]
      refine .visible k a le_rfl visible ?_ ?_ ?_
      · intro i low high
        omega
      · rw [List.forall_mem_singleton]
        exact visible.1.occurs.inside nonempty
      · rw [Nat.mul_comm,UInt32.ofNat_add,UInt32.ofNat_mul,UInt32.add_comm]
        rfl
    have hidden : ∀ a, ¬ Visible str file k a := not_exists.mp sees
    by_cases zero : 0 ∈ chunk 512 file (k + 1)
    · have here : Passed str file k := ⟨zero,hidden⟩
      obtain ⟨missed,looked⟩ := strstr_passed nonempty text here (filebuf.cells.drop (chunk 512 file (k + 1)).length ++ beyond)
      rw [← fill_chunk] at missed looked
      rw [findLoop_missed _ rfl missed]
      have short : (chunk 512 file (k + 1)).length < 512 ↔ k + 1 = lastChunk 512 file := chunk_short_iff (by decide) inside
      by_cases full : (chunk 512 file (k + 1)).length = 512
      · have more : k + 1 < lastChunk 512 file := by omega
        have later := ih more (filebuf.copy (chunk 512 file (k + 1))) (by omega)
        rw [UInt32.ofNat_add] at later
        rw [if_pos full]
        have extend {j : Nat} (passed : ∀ i, k + 1 ≤ i → i < j → Passed str file i) :
            ∀ i, k ≤ i → i < j → Passed str file i := by
          intro i low high
          rcases Nat.eq_or_lt_of_le low with same | above
          · exact same ▸ here
          · exact passed i above high
        cases later with
        | visible j a le visible passed looks offset =>
          exact .visible j a (by omega) visible (extend passed) (List.forall_mem_cons.mpr ⟨looked,looks⟩) offset
        | passed passed looks offset => exact .passed (extend passed) (List.forall_mem_cons.mpr ⟨looked,looks⟩) offset
        | leaves j le bound zero hidden passed looks =>
          exact .leaves j (by omega) bound zero hidden (extend passed) fun all => looks (List.forall_mem_cons.mp all).2
      · rw [if_neg full]
        refine .passed ?_ (by simpa using looked) rfl
        intro i low high
        have last := short.mp (Nat.lt_of_le_of_ne (chunk_length_le 512 file (k + 1)) full)
        have same : i = k := by omega
        exact same ▸ here
    · refine .leaves k le_rfl inside zero hidden ?_ ?_
      · intro i low high
        omega
      · intro looks
        have look := looks _ (findLoop_looks _ filebuf)
        rw [fill_chunk] at look
        exact strstr_leaves nonempty zero hidden _ look

end

/-- `FindFileString` does what it should exactly on the files that `Findable` describes. -/
theorem find_file_string_iff (str : CPattern) (file : FileBytes) (beyond : List UInt8) (filebuf : Block UInt8 512) :
    FindKept str.chars file.contents (findFileString str.chars beyond (fileFopen false file.contents) filebuf) ↔
      Findable str.chars file.contents := by
  obtain ⟨str,nonempty,short,text⟩ := str
  obtain ⟨file,fileSize⟩ := file
  have start : fileFopen false file = readTo file 0 := by simp [readTo,fileFopen]
  have ending : Ending str file 0 (findLoop str beyond 0 (readTo file 0) filebuf) :=
    findLoop_ends nonempty text (Nat.succ_pos (file.length / 512)) filebuf
  dsimp only
  rw [findFileString,start]
  generalize findLoop str beyond 0 (readTo file 0) filebuf = run at ending ⊢
  constructor
  · rintro ⟨looks,found,missing⟩
    cases ending with
    | visible j a le visible passed inside offset =>
      obtain ⟨occurs,uncut⟩ := visible.occurs nonempty
      have within := occurs.inside nonempty
      obtain ⟨b,-,first⟩ := occurs.exists_first
      have place := found b first
      have wide : 512 * j + a < 4294967296 := by omega
      rw [offset,UInt32.toNat_ofNat_of_lt' wide] at place
      exact .inl ⟨j,a,place ▸ first,uncut,visible.2,fun i before => (passed i (Nat.zero_le i) before).1⟩
    | passed passed inside offset =>
      refine .inr ⟨?_,fun i before => (passed i (Nat.zero_le i) before).1⟩
      rintro ⟨a,occurs⟩
      obtain ⟨b,-,first⟩ := occurs.exists_first
      have place := found b first
      rw [offset] at place
      -- an occurrence at the front is neither cut nor behind a zero byte
      obtain rfl : b = 0 := place.symm
      have visible : Visible str file 0 0 := visible_of_first nonempty first (by omega) List.not_mem_nil
      exact (passed 0 le_rfl (Nat.succ_pos _)).2 0 visible
    | leaves j le inside zero hidden passed out => exact absurd looks out
  · rintro (⟨k,a,first,uncut,clear,zeros⟩ | ⟨missing,zeros⟩)
    · have visible := visible_of_first nonempty first uncut clear
      have bound := visible.before_last nonempty
      cases ending with
      | visible j b le visibleJ passed looks offset =>
        have same : j = k := by
          rcases Nat.lt_trichotomy j k with less | same | more
          · obtain ⟨occurs,-⟩ := visibleJ.occurs nonempty
            have positive := List.length_pos_of_ne_nil nonempty
            have earlier := (visibleJ.occurs nonempty).2
            exact absurd occurs (first.first (512 * j + b) (by omega))
          · exact same
          · exact absurd visible ((passed k (Nat.zero_le k) more).2 a)
        subst same
        have place : b = a := visibleJ.1.unique visible.1
        subst place
        have within := first.occurs.inside nonempty
        have wide : 512 * j + b < 4294967296 := by omega
        refine ⟨looks,?_,?_⟩
        · intro c firstC
          rw [offset,UInt32.toNat_ofNat_of_lt' wide]
          exact first.unique firstC
        · intro none
          exact absurd ⟨_,first.occurs⟩ none
      | passed passed looks offset => exact absurd visible ((passed k (Nat.zero_le k) bound).2 a)
      | leaves j le inside zero hidden passed out =>
        rcases Nat.lt_trichotomy j k with less | same | more
        · exact absurd (zeros j less) zero
        · exact absurd (same ▸ visible) (hidden a)
        · exact absurd visible ((passed k (Nat.zero_le k) more).2 a)
    · cases ending with
      | visible j a le visible passed looks offset => exact absurd ⟨_,(visible.occurs nonempty).1⟩ missing
      | passed passed looks offset =>
        refine ⟨looks,?_,fun _ => offset⟩
        intro a first
        exact absurd ⟨a,first.occurs⟩ missing
      | leaves j le inside zero hidden passed out => exact absurd (zeros j inside) zero

/-- A file without the letter, read into a buffer that is full of it. -/
theorem find_file_string_stale :
    ¬ ∀ (str : CPattern) (file : FileBytes) (beyond : List UInt8) (filebuf : Block UInt8 512),
      FindKept str.chars file.contents (findFileString str.chars beyond (fileFopen false file.contents) filebuf) := by
  intro kept
  have run := kept ⟨[97],by decide,by decide,by decide⟩ ⟨[98],by decide⟩ [] (Block.fill 97)
  have missing : ¬ ∃ a, OccursAt [97] ([98] : List UInt8) a := by
    rintro ⟨a,occurs⟩
    have inside := occurs.inside (by decide)
    cases a with
    | zero => exact absurd occurs (by decide)
    | succ a => simp at inside
  have offset := run.missing missing
  have found : (strstrScan [97] ((Block.fill 97 : Block UInt8 512).copy [98]).cells).found = some 1 := by decide
  rw [findFileString,findLoop] at offset
  simp [fileFopen,fileRead,found] at offset

end Net2Modbus
