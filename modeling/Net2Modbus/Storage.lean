import Net2Modbus.Block
import Net2Modbus.Machine

/-!
# Storage with unwritten cells

Arrays whose cells may not have been written yet, and the instructions that a
program carries out on them. Every use of an array is reported with the number of
cells that are there, and what is sent is reported cell by cell, so that a program
is sound when it stays inside its arrays and sends only what it has written.
-/
namespace Net2Modbus
universe u v

/-- Arrays by name. An array that is not there has no cells. -/
abbrev Storage (Array : Type u) (Cell : Type v) := Array → List (Option Cell)

/-- A part of an array, unwritten beyond the end. -/
def readCells {Cell : Type v} (cells : List (Option Cell)) (offset count : Nat) : List (Option Cell) :=
  (cells.drop offset).take count ++ List.replicate (count - (cells.length - offset)) none
/-- Cells replaced from an offset on, cut at the end. -/
def writeCells {Cell : Type v} (cells : List (Option Cell)) (offset : Nat) (new : List (Option Cell)) :
    List (Option Cell) :=
  (cells.take offset ++ new ++ cells.drop (offset + new.length)).take cells.length

inductive Instruction (Array : Type u) (Cell : Type v)
  /-- A new array, none of whose cells are written. -/
  | alloc (array : Array) (size : Nat)
  /-- Cells are assigned, one after the other. -/
  | store (array : Array) (offset : Nat) (cells : List Cell)
  /-- Cells are looked at. -/
  | load (array : Array) (offset count : Nat)
  | copy (target : Array) (targetOffset : Nat) (source : Array) (sourceOffset count : Nat)
  /-- The first cells of an array are handed over. -/
  | send (array : Array) (count : Nat)

/-- A use of an array that has so many cells, and what is sent. -/
inductive Notice (Array : Type u) (Cell : Type v)
  | access (use : Access Array) (size : Nat)
  | sent (cells : List (Option Cell))
  deriving DecidableEq, Repr

/-- A use stays inside the array, if it is one that counts, and all that is sent has been
    written. -/
def Notice.Sound {Array : Type u} {Cell : Type v} (counts : Array → Bool) : Notice Array Cell → Prop
  | .access use size => counts use.array = true → use.Inside fun _ => size
  | .sent cells => ∀ cell ∈ cells, cell.isSome = true

instance {Array : Type u} {Cell : Type v} (counts : Array → Bool) (n : Notice Array Cell) :
    Decidable (n.Sound counts) :=
  match n with
  | .access _ _ => inferInstanceAs (Decidable (_ → _))
  | .sent _ => inferInstanceAs (Decidable (∀ _ ∈ _, _))

section
variable {Array : Type u} {Cell : Type v} [DecidableEq Array]

def storageStep (m : Storage Array Cell) : Instruction Array Cell → Storage Array Cell × List (Notice Array Cell)
  | .alloc array size => (Function.update m array (List.replicate size none),[])
  | .store array offset cells =>
    (Function.update m array (writeCells (m array) offset (cells.map some)),
      [.access ⟨array,offset,cells.length⟩ (m array).length])
  | .load array offset count => (m,[.access ⟨array,offset,count⟩ (m array).length])
  | .copy target targetOffset source sourceOffset count =>
    (Function.update m target (writeCells (m target) targetOffset (readCells (m source) sourceOffset count)),
      [.access ⟨source,sourceOffset,count⟩ (m source).length,.access ⟨target,targetOffset,count⟩ (m target).length])
  | .send array count => (m,[.access ⟨array,0,count⟩ (m array).length,.sent (readCells (m array) 0 count)])

/-- The storage under its instructions. -/
def storage : Machine (Storage Array Cell) (Instruction Array Cell) (Notice Array Cell) := ⟨fun _ _ => True,storageStep⟩

/-- Cells that are looked at one after the other. -/
def loads (array : Array) (uses : List (Nat × Nat)) : List (Instruction Array Cell) :=
  uses.map fun use => .load array use.1 use.2

/-- A program uses its arrays soundly. -/
def Sound (counts : Array → Bool) (m : Storage Array Cell) (program : List (Instruction Array Cell)) : Prop :=
  ∀ n ∈ storage.trace m program, n.Sound counts

instance (counts : Array → Bool) (m : Storage Array Cell) (program : List (Instruction Array Cell)) :
    Decidable (Sound counts m program) := inferInstanceAs (Decidable (∀ _ ∈ _, _))
end

section
variable {Cell : Type v} {cells front rest new : List (Option Cell)} {offset count : Nat}

@[simp] theorem readCells_length : (readCells cells offset count).length = count := by
  simp [readCells]
  omega
@[simp] theorem writeCells_length : (writeCells cells offset new).length = cells.length := by
  simp [writeCells]
  omega
/-- What is read from inside an array are its cells. -/
theorem readCells_front (inside : count ≤ cells.length) : readCells cells 0 count = cells.take count := by
  simp [readCells,Nat.sub_eq_zero_of_le inside]
/-- What is written behind a known front. -/
theorem writeCells_append (fits : new.length ≤ rest.length) :
    writeCells (front ++ rest) front.length new = front ++ new ++ rest.drop new.length := by
  simp only [writeCells,List.take_left]
  rw [List.drop_append,List.drop_of_length_le (Nat.le_add_right ..),List.nil_append,Nat.add_sub_cancel_left]
  exact List.take_of_length_le (by simp; omega)
theorem writeCells_front (fits : new.length ≤ cells.length) :
    writeCells cells 0 new = new ++ cells.drop new.length :=
  @writeCells_append Cell [] cells new fits
end

section
variable {Array : Type u} {Cell : Type v} [DecidableEq Array] {counts : Array → Bool} {m : Storage Array Cell}
  {front back : List (Instruction Array Cell)}

theorem sound_append : Sound counts m (front ++ back) ↔ Sound counts m front ∧ Sound counts (storage.after m front) back := by
  simp only [Sound,Machine.trace_append,List.forall_mem_append]
@[simp] theorem sound_nil : Sound counts m [] := List.forall_mem_nil _
theorem sound_cons {i : Instruction Array Cell} : Sound counts m (i :: back) ↔
    (∀ n ∈ (storageStep m i).2, n.Sound counts) ∧ Sound counts (storageStep m i).1 back :=
  List.forall_mem_append

/-- The first cells of an array are there and have been written. -/
def Written (cells : List (Option Cell)) (count : Nat) : Prop :=
  count ≤ cells.length ∧ ∀ cell ∈ cells.take count, cell.isSome = true

/-- What was just stored has been written. -/
theorem written_stored {cells : List (Option Cell)} {new : List Cell} (fits : new.length ≤ cells.length) :
    Written (writeCells cells 0 (new.map some)) new.length := by
  rw [writeCells_front (by simpa using fits)]
  refine ⟨by simp,?_⟩
  rw [List.take_left' (by simp)]
  simp
/-- An unwritten cell among those that are sent. -/
theorem not_written {cells : List (Option Cell)} {count i : Nat} (bound : i < count) (unwritten : cells[i]? = some none) :
    ¬ Written cells count := by
  intro written
  have among : none ∈ cells.take count := List.mem_of_getElem? (by rw [List.getElem?_take_of_lt bound]; exact unwritten)
  exact Bool.false_ne_true (written.2 none among)

omit [DecidableEq Array] in
theorem sound_access {array : Array} {offset count size : Nat} :
    (Notice.access ⟨array,offset,count⟩ size : Notice Array Cell).Sound counts ↔
      (counts array = true → offset + count ≤ size) := by
  refine imp_congr_right ?_
  intro _
  simp only [Access.Inside]
  omega
theorem sound_store {array : Array} {offset : Nat} {cells : List Cell} :
    Sound counts m (.store array offset cells :: back) ↔ (counts array = true → offset + cells.length ≤ (m array).length) ∧
      Sound counts (Function.update m array (writeCells (m array) offset (cells.map some))) back := by
  rw [sound_cons]
  refine and_congr ?_ Iff.rfl
  rw [storageStep,List.forall_mem_singleton,sound_access]
theorem sound_copy {target source : Array} {targetOffset sourceOffset count : Nat} :
    Sound counts m (.copy target targetOffset source sourceOffset count :: back) ↔
      ((counts source = true → sourceOffset + count ≤ (m source).length) ∧
        (counts target = true → targetOffset + count ≤ (m target).length)) ∧
        Sound counts (Function.update m target
          (writeCells (m target) targetOffset (readCells (m source) sourceOffset count))) back := by
  rw [sound_cons]
  refine and_congr ?_ Iff.rfl
  rw [storageStep,List.forall_mem_cons,List.forall_mem_singleton,sound_access,sound_access]
theorem sound_send {array : Array} {count : Nat} (counted : counts array = true) :
    Sound counts m (.send array count :: back) ↔ Written (m array) count ∧ Sound counts m back := by
  rw [sound_cons]
  refine and_congr ?_ Iff.rfl
  have use := @sound_access Array Cell counts array 0 count (m array).length
  rw [storageStep,List.forall_mem_cons,List.forall_mem_singleton,← Nat.cast_zero,use,Nat.zero_add]
  simp only [counted,forall_const]
  refine and_congr_right ?_
  intro inside
  rw [readCells_front inside]
  exact Iff.rfl
theorem sound_load {array : Array} {offset count : Nat} :
    Sound counts m (.load array offset count :: back) ↔
      (counts array = true → offset + count ≤ (m array).length) ∧ Sound counts m back := by
  rw [sound_cons]
  refine and_congr ?_ Iff.rfl
  rw [storageStep,List.forall_mem_singleton,sound_access]
theorem sound_looked {array : Array} {offset count : Nat} (inside : offset + count ≤ (m array).length)
    (sound : Sound counts m back) : Sound counts m (.load array offset count :: back) :=
  sound_load.mpr ⟨fun _ => inside,sound⟩
omit [DecidableEq Array] in
theorem loads_cons {array : Array} {use : Nat × Nat} {uses : List (Nat × Nat)} :
    (loads array (use :: uses) : List (Instruction Array Cell)) = .load array use.1 use.2 :: loads array uses := rfl
/-- Looking changes nothing. -/
theorem after_loads {array : Array} (uses : List (Nat × Nat)) : storage.after m (loads array uses) = m := by
  induction uses with
  | nil => rfl
  | cons use rest ih => exact ih
theorem sound_loads {array : Array} {uses : List (Nat × Nat)} (counted : counts array = true) :
    Sound counts m (loads array uses) ↔ ∀ use ∈ uses, use.1 + use.2 ≤ (m array).length := by
  induction uses with
  | nil => exact iff_of_true sound_nil (List.forall_mem_nil _)
  | cons use rest ih =>
    rw [loads_cons,sound_load,List.forall_mem_cons,ih]
    simp only [counted,forall_const]
/-- A new array is filled from the front of another one and sent: nothing but an equal number of
    written cells will do. -/
theorem sound_reply {target source : Array} {size count : Nat} (apart : source ≠ target)
    (countedTarget : counts target = true) (countedSource : counts source = true) :
    Sound counts m [.alloc target size,.copy target 0 source 0 count,.send target size] ↔
      count = size ∧ Written (m source) count := by
  rw [sound_cons,sound_copy,sound_send countedTarget]
  simp only [storageStep,Function.update_self,Function.update_of_ne apart,List.length_replicate,sound_nil,and_true,
    Nat.zero_add,countedTarget,countedSource,forall_const]
  constructor
  · rintro ⟨-,⟨there,room⟩,-,written⟩
    rw [List.take_of_length_le (by simp),writeCells_front (by simpa using room),readCells_front there,
      List.forall_mem_append] at written
    have enough : size ≤ count := by
      by_contra short
      have left := written.2 none (by simp [there]; omega)
      contradiction
    exact ⟨by omega,there,written.1⟩
  · rintro ⟨rfl,there,written⟩
    refine ⟨List.forall_mem_nil _,⟨there,Nat.le_refl _⟩,by simp,?_⟩
    rw [List.take_of_length_le (by simp),writeCells_front (by simp),readCells_front there,List.forall_mem_append]
    refine ⟨written,?_⟩
    rw [List.drop_of_length_le (by simp [there])]
    exact List.forall_mem_nil _
end

/-- What a program hands over, in order. -/
def sentCells {Array : Type u} {Cell : Type v} (notices : List (Notice Array Cell)) : List (List (Option Cell)) :=
  notices.filterMap fun
    | .sent cells => some cells
    | .access _ _ => none

/-- A list of values is a possible account of some cells: it has the values of those that have been
    written. -/
def Agrees {Cell : Type v} (cells : List (Option Cell)) (values : List Cell) : Prop :=
  cells.length = values.length ∧ ∀ (i : Nat) (c : Cell), cells[i]? = some (some c) → values[i]? = some c

section
variable {Cell : Type v} {cells : List (Option Cell)} {values front rest : List Cell} {offset count : Nat}

theorem agrees_map (values : List Cell) : Agrees (values.map some) values := by
  constructor
  · simp
  · intro i c written
    simpa using written
/-- Behind what was written there can be anything. -/
theorem agrees_append (front rest : List Cell) : Agrees (front.map some ++ List.replicate rest.length none) (front ++ rest) := by
  constructor
  · simp
  · intro i c written
    by_cases inside : i < front.length
    · rw [List.getElem?_append_left (by simpa using inside)] at written
      rw [List.getElem?_append_left inside]
      exact (agrees_map front).2 i c written
    · rw [List.getElem?_append_right (by simpa using inside)] at written
      have blank := List.eq_of_mem_replicate (List.mem_of_getElem? written)
      contradiction
theorem Agrees.take (agrees : Agrees cells values) (count : Nat) : Agrees (cells.take count) (values.take count) := by
  constructor
  · simp [agrees.1]
  · intro i c written
    rw [List.getElem?_take] at written ⊢
    split at written
    · rename_i inside
      rw [if_pos inside]
      exact agrees.2 i c written
    · contradiction
theorem Agrees.append {more : List (Option Cell)} (agrees : Agrees cells values) (later : Agrees more rest) :
    Agrees (cells ++ more) (values ++ rest) := by
  constructor
  · simp [agrees.1,later.1]
  · intro i c written
    by_cases inside : i < cells.length
    · rw [List.getElem?_append_left inside] at written
      rw [List.getElem?_append_left (agrees.1 ▸ inside)]
      exact agrees.2 i c written
    · rw [List.getElem?_append_right (Nat.le_of_not_lt inside)] at written
      rw [List.getElem?_append_right (agrees.1 ▸ Nat.le_of_not_lt inside),← agrees.1]
      exact later.2 _ c written
/-- Cells that are not there read as unwritten. -/
theorem agrees_unwritten (values : List Cell) : Agrees (List.replicate values.length none) values :=
  agrees_append [] values
/-- What was just stored is read back, as far as there are cells. -/
theorem agrees_stored (cells : List (Option Cell)) (new : List Cell) :
    Agrees (readCells (writeCells cells 0 (new.map some)) 0 new.length) new := by
  by_cases fits : new.length ≤ cells.length
  · rw [readCells_front (by simpa using fits),writeCells_front (by simpa using fits),List.take_left' (by simp)]
    exact agrees_map new
  · have short : cells.length ≤ new.length := Nat.le_of_not_le fits
    have stored : readCells (writeCells cells 0 (new.map some)) 0 new.length =
        (new.map some).take cells.length ++ List.replicate (new.drop cells.length).length none := by
      have written : writeCells cells 0 (new.map some) = (new.map some).take cells.length := by
        simp [writeCells,List.drop_of_length_le short]
      rw [written,readCells,List.drop_zero,List.take_of_length_le (by simp)]
      simp [short]
    have agrees := ((agrees_map new).take cells.length).append (agrees_unwritten (new.drop cells.length))
    rw [List.take_append_drop] at agrees
    rwa [stored]
/-- A copy into a new array, cut at its end or followed by what was there. -/
theorem agrees_copied {size : Nat} (agrees : Agrees cells values) (fill : Cell) :
    Agrees (readCells (writeCells (List.replicate size none) 0 cells) 0 size)
      ((values ++ List.replicate size fill).take size) := by
  have copied : writeCells (List.replicate size none) 0 cells = (cells ++ List.replicate size none).take size := by
    simp [writeCells,List.take_append,List.take_replicate]
  have unwritten : Agrees (List.replicate size none) (List.replicate size fill) := by
    simpa using agrees_unwritten (List.replicate size fill)
  rw [readCells_front (by simp),copied,List.take_take,Nat.min_self]
  exact (agrees.append unwritten).take size
end

end Net2Modbus
