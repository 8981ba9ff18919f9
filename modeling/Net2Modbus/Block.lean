import Mathlib

/-!
# Blocks of memory

Arrays of a fixed size, as a C program declares them: single cells are read and
written, and lists are copied to the front, cut at the end of the array. The
accesses of a program are recorded apart, so that a program that leaves an
array still has a meaning here and the record tells that it left it.
-/
namespace Net2Modbus
universe u v

/-- An array of exactly `size` cells. -/
structure Block (Cell : Type u) (size : Nat) where
  cells : List Cell
  size_eq : cells.length = size
  deriving DecidableEq, Repr

namespace Block
variable {Cell : Type u} {size : Nat} (b : Block Cell size)

@[ext] theorem ext {a b : Block Cell size} (same : a.cells = b.cells) : a = b := by
  cases a; cases b; cases same; rfl

/-- Every cell holds the same value. -/
def fill (c : Cell) : Block Cell size := ⟨List.replicate size c,List.length_replicate⟩
/-- The cell at an index, the default beyond the end. -/
def peek [Inhabited Cell] (i : Nat) : Cell := b.cells.getD i default
/-- One cell replaced; nothing changes beyond the end. -/
def poke (i : Nat) (c : Cell) : Block Cell size := ⟨b.cells.set i c,by simp [b.size_eq]⟩
/-- A list copied to the front, cut at the end. -/
def copy (source : List Cell) : Block Cell size :=
  ⟨(source ++ b.cells.drop source.length).take size,by simp [b.size_eq]; omega⟩
/-- The cells from an offset on, as many as a count and the end allow. -/
def slice (offset count : Nat) : List Cell := (b.cells.drop offset).take count

@[simp] theorem cells_length : b.cells.length = size := b.size_eq
@[simp] theorem poke_cells (i : Nat) (c : Cell) : (b.poke i c).cells = b.cells.set i c := rfl
@[simp] theorem fill_cells (c : Cell) : (fill c : Block Cell size).cells = List.replicate size c := rfl
@[simp] theorem slice_zero (offset : Nat) : b.slice offset 0 = [] := by simp [slice]

theorem peek_fill [Inhabited Cell] (c : Cell) {i : Nat} (inside : i < size) : (fill c : Block Cell size).peek i = c := by
  simp [peek,inside]
theorem copy_cells {source : List Cell} (fits : source.length ≤ size) :
    (b.copy source).cells = source ++ b.cells.drop source.length := by
  simp only [copy]
  exact List.take_of_length_le (by simp [b.size_eq]; omega)
theorem slice_length (offset count : Nat) (inside : offset + count ≤ size) : (b.slice offset count).length = count := by
  simp [slice,b.size_eq]; omega
theorem slice_length_le (offset count : Nat) : (b.slice offset count).length ≤ count :=
  List.length_take_le _ _
/-- A part of what was copied is read back, also when the end of it was cut. -/
theorem slice_copy_part (source : List Cell) (offset count : Nat) (fits : offset + count ≤ size)
    (inside : offset + count ≤ source.length) :
    (b.copy source).slice offset count = (source.drop offset).take count := by
  have cut : min count (size - offset) = count := by omega
  simp only [slice,copy,List.drop_take,List.take_take,cut]
  rw [List.drop_append_of_le_length (by omega),List.take_append_of_le_length (by simp; omega)]
/-- What is copied is read back. -/
theorem slice_copy (source : List Cell) (fits : source.length ≤ size) :
    (b.copy source).slice 0 source.length = source := by
  have read := b.slice_copy_part source 0 source.length (by omega) (by omega)
  simpa using read
/-- The first cell of a part and the rest of it. -/
theorem slice_succ [Inhabited Cell] {offset count : Nat} (inside : offset < size) :
    b.slice offset (count + 1) = b.peek offset :: b.slice (offset + 1) count := by
  have bound : offset < b.cells.length := by simpa using inside
  rw [slice,List.drop_eq_getElem_cons bound,List.take_succ_cons,peek,List.getD_eq_getElem?_getD,
    List.getElem?_eq_getElem bound]
  rfl
/-- The cells of a front part, one after the other. -/
theorem range_peek [Inhabited Cell] {n : Nat} (inside : n ≤ size) : (List.range n).map b.peek = b.slice 0 n := by
  induction n with
  | zero => simp
  | succ n ih =>
    have bound : n < b.cells.length := by simpa using inside
    rw [List.range_succ,List.map_append,ih (Nat.le_of_succ_le inside),slice,slice,List.drop_zero,List.take_add_one,
      List.getElem?_eq_getElem bound,List.map_singleton,peek,List.getD_eq_getElem?_getD,List.getElem?_eq_getElem bound]
    rfl
/-- Writing the next cell after a front part extends the part by it. -/
theorem slice_poke_next {i : Nat} (c : Cell) (inside : i < size) :
    (b.poke i c).slice 0 (i + 1) = b.slice 0 i ++ [c] := by
  have bound : i < b.cells.length := by simpa using inside
  simp only [slice,poke_cells,List.drop_zero]
  rw [List.take_add_one,List.getElem?_set_self bound,List.take_set_of_le (Nat.le_refl i)]
  rfl
/-- Cells behind what is copied stay. -/
theorem drop_copy {source : List Cell} {n : Nat} (fits : source.length ≤ size) (behind : source.length ≤ n) :
    (b.copy source).cells.drop n = b.cells.drop n := by
  rw [b.copy_cells fits,List.drop_append,List.drop_of_length_le behind,List.nil_append,List.drop_drop,
    Nat.add_sub_cancel' behind]
variable {b} in
/-- A cell behind a known front. -/
theorem peek_append [Inhabited Cell] {front rest : List Cell} (same : b.cells = front ++ rest) (i : Nat) :
    b.peek (front.length + i) = rest.getD i default := by
  rw [peek,same,List.getD_eq_getElem?_getD,List.getElem?_append_right (Nat.le_add_right ..),Nat.add_sub_cancel_left,
    List.getD_eq_getElem?_getD]
variable {b} in
theorem slice_append {front middle rest : List Cell} (same : b.cells = front ++ (middle ++ rest)) :
    b.slice front.length middle.length = middle := by
  rw [slice,same,List.drop_left,List.take_left]
/-- The cells that are copied and those behind them. -/
theorem peek_copy_of_lt [Inhabited Cell] {source : List Cell} {i : Nat} (bound : i < size)
    (inside : i < source.length) : (b.copy source).peek i = source.getD i default := by
  rw [peek,copy,List.getD_eq_getElem?_getD,List.getElem?_take_of_lt bound,List.getElem?_append_left inside,
    List.getD_eq_getElem?_getD]
theorem peek_copy_of_le [Inhabited Cell] {source : List Cell} {i : Nat} (bound : i < size)
    (behind : source.length ≤ i) : (b.copy source).peek i = b.peek i := by
  rw [peek,copy,List.getD_eq_getElem?_getD,List.getElem?_take_of_lt bound,List.getElem?_append_right behind,
    List.getElem?_drop,Nat.add_sub_cancel' behind,peek,List.getD_eq_getElem?_getD]
theorem getD_slice [Inhabited Cell] {offset count i : Nat} (inside : i < count) :
    (b.slice offset count).getD i default = b.peek (offset + i) := by
  rw [slice,List.getD_eq_getElem?_getD,List.getElem?_take_of_lt inside,List.getElem?_drop,peek,
    List.getD_eq_getElem?_getD]
/-- A cell is one of those behind any earlier place. -/
theorem peek_mem_drop [Inhabited Cell] {n i : Nat} (behind : n ≤ i) (inside : i < size) : b.peek i ∈ b.cells.drop n := by
  have bound : i < b.cells.length := by simpa using inside
  refine List.mem_of_getElem? (i := i - n) ?_
  rw [List.getElem?_drop,Nat.add_sub_cancel' behind,peek,List.getD_eq_getElem?_getD,List.getElem?_eq_getElem bound]
  rfl
theorem peek_poke [Inhabited Cell] {i : Nat} (c : Cell) (inside : i < size) : (b.poke i c).peek i = c := by
  rw [peek,poke_cells,List.getD_eq_getElem?_getD,List.getElem?_set_self (by simpa using inside)]
  rfl

end Block

/-- One use of an array: where it starts and how many cells it takes. -/
structure Access (Array : Type u) where
  array : Array
  offset : Int
  count : Nat
  deriving DecidableEq, Repr

/-- A use that stays between the first and the last cell. -/
def Access.Inside {Array : Type u} (size : Array → Nat) (a : Access Array) : Prop :=
  0 ≤ a.offset ∧ a.offset + a.count ≤ size a.array

instance {Array : Type u} (size : Array → Nat) (a : Access Array) : Decidable (a.Inside size) :=
  inferInstanceAs (Decidable (_ ∧ _))

end Net2Modbus
