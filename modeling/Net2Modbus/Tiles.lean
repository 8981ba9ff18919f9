import Net2Modbus.Block

/-!
# Lists cut into tiles

A list with a part of it replaced, the same for an array of a fixed size, and a list that
is put together from pieces of one size: where its elements lie in the pieces, and what a
change of one piece changes.
-/
namespace Net2Modbus
universe u v

section
variable {Cell : Type u} {xs ys a b : List Cell} {i j n : Nat}

/-- A list in which another one stands from a place on. -/
def splice (xs : List Cell) (i : Nat) (new : List Cell) : List Cell := xs.take i ++ new ++ xs.drop (i + new.length)

@[simp] theorem splice_nil : splice xs i [] = xs := by simp [splice]
theorem splice_end (end_ : xs.length = i) : splice xs i a = xs ++ a := by
  rw [splice,List.take_of_length_le (Nat.le_of_eq end_),List.drop_of_length_le (by omega),List.append_nil]
theorem splice_length (inside : i + a.length ≤ xs.length) : (splice xs i a).length = xs.length := by
  simp only [splice,List.length_append,List.length_take,List.length_drop]
  omega
/-- Where a place of the new list comes from. -/
theorem getElem?_splice (inside : i ≤ xs.length) :
    (splice xs i a)[j]? = if j < i then xs[j]? else if j < i + a.length then a[j - i]? else xs[j]? := by
  have front : (xs.take i).length = i := List.length_take_of_le inside
  rw [splice,List.append_assoc]
  by_cases before : j < i
  · rw [if_pos before,List.getElem?_append_left (by rw [front]; exact before),List.getElem?_take_of_lt before]
  · rw [if_neg before,List.getElem?_append_right (by rw [front]; exact Nat.le_of_not_lt before),front]
    by_cases among : j < i + a.length
    · rw [if_pos among,List.getElem?_append_left (by omega)]
    · rw [if_neg among,List.getElem?_append_right (by omega),List.getElem?_drop]
      congr 1
      omega
/-- Two parts that meet are replaced one after the other. -/
theorem splice_splice (inside : i + a.length ≤ xs.length) :
    splice (splice xs i a) (i + a.length) b = splice xs i (a ++ b) := by
  apply List.ext_getElem?
  intro j
  rw [getElem?_splice (by rw [splice_length inside]; exact inside),getElem?_splice (by omega),
    getElem?_splice (by omega),List.length_append]
  by_cases before : j < i
  · rw [if_pos (by omega),if_pos before,if_pos before]
  · rw [if_neg before,if_neg before]
    by_cases first : j < i + a.length
    · rw [if_pos first,if_pos first,if_pos (by omega),List.getElem?_append_left (by omega)]
    · rw [if_neg first,if_neg first,← Nat.add_assoc]
      by_cases second : j < i + a.length + b.length
      · rw [if_pos second,if_pos second,List.getElem?_append_right (by omega)]
        congr 1
        omega
      · rw [if_neg second,if_neg second]
/-- A front part that has what is replaced in it, and that grows with it. -/
theorem take_splice (inside : i ≤ n) (fits : i + a.length ≤ xs.length) :
    (splice xs i a).take (max n (i + a.length)) = splice (xs.take n) i a := by
  have front : (xs.take i).length = i := List.length_take_of_le (by omega)
  have part : i + a.length ≤ max n (i + a.length) := Nat.le_max_right ..
  rw [splice,splice,List.append_assoc,List.append_assoc,List.take_append,front,List.take_append,List.take_of_length_le
    (by rw [front]; omega),List.take_of_length_le (by omega : a.length ≤ _),List.take_take,Nat.min_eq_left inside,
    List.drop_take]
  congr 2
  by_cases small : n ≤ i + a.length
  · rw [Nat.max_eq_right small,Nat.sub_eq_zero_of_le small]
    congr 1
    omega
  · rw [Nat.max_eq_left (by omega)]
    congr 1
    omega
end

namespace Block
variable {Cell : Type u} [Inhabited Cell] {size : Nat} {b : Block Cell size} {new : List Cell} {i j k : Nat} {c : Cell}

omit [Inhabited Cell] in
/-- A part of an array replaced, cut at the end of it. -/
def overwrite (b : Block Cell size) (i : Nat) (new : List Cell) : Block Cell size :=
  ⟨(splice b.cells i new).take size,by simp [splice,b.size_eq]; omega⟩

omit [Inhabited Cell] in
theorem overwrite_cells (inside : i + new.length ≤ size) : (b.overwrite i new).cells = splice b.cells i new := by
  apply List.take_of_length_le
  rw [splice_length (by rwa [b.size_eq]),b.size_eq]
omit [Inhabited Cell] in
theorem overwrite_all (all : new.length = size) : (b.overwrite 0 new).cells = new := by
  rw [overwrite_cells (by omega),splice,List.take_zero,List.nil_append,List.drop_of_length_le (by rw [b.size_eq]; omega),
    List.append_nil]
/-- What has been put there is read, and what lies outside of it as before. -/
theorem peek_overwrite (inside : i + new.length ≤ size) (before : j < new.length) :
    (b.overwrite i new).peek (i + j) = new.getD j default := by
  rw [peek,overwrite_cells inside,List.getD_eq_getElem?_getD,getElem?_splice (by rw [b.size_eq]; omega),if_neg (by omega),
    if_pos (by omega),Nat.add_sub_cancel_left,List.getD_eq_getElem?_getD]
theorem peek_overwrite_apart (inside : i + new.length ≤ size) (apart : j < i ∨ i + new.length ≤ j) :
    (b.overwrite i new).peek j = b.peek j := by
  rw [peek,overwrite_cells inside,List.getD_eq_getElem?_getD,getElem?_splice (by rw [b.size_eq]; omega),peek,
    List.getD_eq_getElem?_getD]
  rcases apart with before | behind
  · rw [if_pos before]
  · rw [if_neg (by omega),if_neg (by omega)]
omit [Inhabited Cell] in
theorem poke_overwrite (inside : i < size) : b.poke i c = b.overwrite i [c] := by
  refine Block.ext ?_
  rw [overwrite_cells (Nat.succ_le_of_lt inside),poke_cells,splice,List.set_eq_take_append_cons_drop,
    if_pos (by rwa [b.size_eq]),List.append_assoc]
  rfl
omit [Inhabited Cell] in
/-- Two parts that meet. -/
theorem overwrite_overwrite {more : List Cell} (inside : i + new.length + more.length ≤ size) (next : k = i + new.length) :
    (b.overwrite i new).overwrite k more = b.overwrite i (new ++ more) := by
  subst next
  refine Block.ext ?_
  rw [overwrite_cells inside,overwrite_cells (by omega),splice_splice (by rw [b.size_eq]; omega),
    overwrite_cells (by rw [List.length_append]; omega)]

end Block

section
variable {Cell : Type u} {Place : Type v} {piece piece' : Place → List Cell} {places : List Place} {size j k r m : Nat}
  {p : Place} {new : List Cell}

theorem flatMap_length (each : ∀ p, (piece p).length = size) : (places.flatMap piece).length = size * places.length := by
  induction places with
  | nil => simp
  | cons p rest ih => rw [List.flatMap_cons,List.length_append,each,ih,List.length_cons,Nat.mul_succ,Nat.add_comm]
/-- An element lies in the piece whose number is the quotient, at the place that is the
    remainder. -/
theorem getElem?_flatMap (each : ∀ p, (piece p).length = size) (positive : 0 < size) :
    (places.flatMap piece)[k]? = (places[k / size]?).bind fun p => (piece p)[k % size]? := by
  induction places generalizing k with
  | nil => simp
  | cons p rest ih =>
    rw [List.flatMap_cons]
    by_cases first : k < size
    · rw [List.getElem?_append_left (by rw [each]; exact first),Nat.div_eq_of_lt first,Nat.mod_eq_of_lt first]
      rfl
    · have back : size ≤ k := Nat.le_of_not_lt first
      rw [List.getElem?_append_right (by rw [each]; exact back),each,ih,Nat.mod_eq_sub_mod back,
        Nat.div_eq_sub_div positive back,List.getElem?_cons_succ]
variable (piece) in
/-- A part that lies in one piece. -/
theorem flatMap_slice (each : ∀ p, (piece p).length = size) (found : places[j]? = some p) (inside : r + m ≤ size) :
    ((places.flatMap piece).drop (size * j + r)).take m = ((piece p).drop r).take m := by
  apply List.ext_getElem?
  intro i
  by_cases before : i < m
  · have positive : 0 < size := by omega
    rw [List.getElem?_take_of_lt before,List.getElem?_take_of_lt before,List.getElem?_drop,List.getElem?_drop,
      getElem?_flatMap each positive,Nat.add_assoc,Nat.mul_add_div positive,Nat.div_eq_of_lt (by omega),Nat.add_zero,found,
      Nat.mul_add_mod,Nat.mod_eq_of_lt (by omega)]
    rfl
  · rw [List.getElem?_take_eq_none (Nat.le_of_not_lt before),List.getElem?_take_eq_none (Nat.le_of_not_lt before)]
variable (piece piece') in
/-- A part is replaced in one piece, and the pieces of the other places stay. -/
theorem flatMap_splice (each : ∀ p, (piece p).length = size) (found : places[j]? = some p) (apart : places.Nodup)
    (inside : r + new.length ≤ size) (here : piece' p = splice (piece p) r new)
    (others : ∀ q ∈ places, q ≠ p → piece' q = piece q) :
    places.flatMap piece' = splice (places.flatMap piece) (size * j + r) new := by
  induction places generalizing j with
  | nil => simp at found
  | cons q rest ih =>
    rw [List.nodup_cons] at apart
    rw [List.forall_mem_cons] at others
    rw [List.flatMap_cons,List.flatMap_cons]
    cases j with
    | zero =>
      obtain rfl := Option.some.inj found
      have same : rest.flatMap piece' = rest.flatMap piece := by
        apply List.flatMap_congr
        intro p' mem
        exact others.2 p' mem fun equal => apart.1 (equal ▸ mem)
      rw [here,same,Nat.mul_zero,Nat.zero_add,splice,splice,List.take_append_of_le_length (by rw [each]; omega),
        List.drop_append_of_le_length (by rw [each]; exact inside),List.append_assoc,List.append_assoc]
    | succ j =>
      have mem : p ∈ rest := List.mem_of_getElem? found
      have place : size * (j + 1) + r = (piece q).length + (size * j + r) := by rw [each]; ring
      rw [others.1 fun equal => apart.1 (equal ▸ mem),ih found apart.2 others.2,splice,splice,place,
        Nat.add_assoc (piece q).length,List.take_length_add_append,List.drop_length_add_append,List.append_assoc,
        List.append_assoc,List.append_assoc]
end
end Net2Modbus
