import Net2Modbus.Block

/-!
# Rings

A ring of cells that one side fills and the other side empties, round and round: a queue
of bounded length. What it is for a cell to hold an item, and to be free, is a parameter.
-/
namespace Net2Modbus
universe u v

section
variable {Cell : Type u} {Item : Type v} [Inhabited Cell] {size : Nat}

/-- From a cell on the ring holds some items in order, and its other cells are free. -/
structure Queued (Holds : Cell → Item → Prop) (Free : Cell → Prop) (ring : Block Cell size) (start : Nat)
    (items : List Item) : Prop where
  fits : items.length ≤ size
  holds : ∀ i item, items[i]? = some item → Holds (ring.peek ((start + i) % size)) item
  free : ∀ i, items.length ≤ i → i < size → Free (ring.peek ((start + i) % size))

variable {Holds : Cell → Item → Prop} {Free : Cell → Prop} {ring : Block Cell size} {start : Nat} {item : Item}
  {items : List Item} {c : Cell}

omit [Inhabited Cell] in
/-- Of two writes to a cell the second one stays. -/
theorem poke_poke (ring : Block Cell size) (i : Nat) (c c' : Cell) : (ring.poke i c).poke i c' = ring.poke i c' :=
  Block.ext (List.set_set ..)
/-- Places on the ring are different while they are less than one round apart. -/
theorem ring_place_inj {i j : Nat} (left : i < size) (right : j < size)
    (same : (start + i) % size = (start + j) % size) : i = j := by
  have apart : i % size = j % size := Nat.ModEq.add_left_cancel' start same
  rwa [Nat.mod_eq_of_lt left,Nat.mod_eq_of_lt right] at apart
variable (ring start c) in
theorem peek_poke_place {i j : Nat} (left : i < size) (right : j < size) :
    (ring.poke ((start + j) % size) c).peek ((start + i) % size) =
      if i = j then c else ring.peek ((start + i) % size) := by
  have inside := Nat.mod_lt (start + j) (Nat.lt_of_le_of_lt (Nat.zero_le j) right)
  by_cases same : i = j
  · rw [if_pos same,same,Block.peek_poke _ _ inside]
  · have apart : (start + i) % size ≠ (start + j) % size := fun equal => same (ring_place_inj left right equal)
    rw [if_neg same,Block.peek,Block.poke_cells,List.getD_eq_getElem?_getD,List.getElem?_set_ne (Ne.symm apart)]
    rfl

/-- A full ring comes back to its first item. -/
theorem Queued.next_full (q : Queued Holds Free ring start (item :: items)) (full : (item :: items).length = size) :
    Holds (ring.peek ((start + (item :: items).length) % size)) item := by
  have first := q.holds 0 item rfl
  rw [full,Nat.add_mod_right]
  exact first
theorem Queued.first (q : Queued Holds Free ring start (item :: items)) (inside : start < size) :
    Holds (ring.peek start) item := by
  have first := q.holds 0 item rfl
  rwa [Nat.add_zero,Nat.mod_eq_of_lt inside] at first
theorem Queued.empty_free (q : Queued Holds Free ring start ([] : List Item)) (inside : start < size) :
    Free (ring.peek start) := by
  have first := q.free 0 (Nat.le_refl 0) (Nat.lt_of_le_of_lt (Nat.zero_le start) inside)
  rwa [Nat.add_zero,Nat.mod_eq_of_lt inside] at first
/-- An item is put behind the others. -/
theorem Queued.push (q : Queued Holds Free ring start items) (room : items.length < size) (new : Holds c item) :
    Queued Holds Free (ring.poke ((start + items.length) % size) c) start (items ++ [item]) := by
  refine ⟨by rw [List.length_append]; exact room,?_,?_⟩
  · intro i x found
    rw [List.getElem?_append] at found
    split at found
    · next before =>
      rw [peek_poke_place _ _ _ (Nat.lt_trans before room) room,if_neg (Nat.ne_of_lt before)]
      exact q.holds i x found
    · next behind =>
      obtain rfl : i = items.length := by
        have last := List.getElem?_eq_some_iff.mp found
        obtain ⟨bound,-⟩ := last
        rw [List.length_singleton] at bound
        omega
      rw [Nat.sub_self] at found
      obtain rfl := Option.some.inj found
      rw [peek_poke_place _ _ _ room room,if_pos rfl]
      exact new
  · intro i behind inside
    rw [List.length_append,List.length_singleton] at behind
    rw [peek_poke_place _ _ _ inside room,if_neg (by omega)]
    exact q.free i (by omega) inside
/-- The first item is taken out. -/
theorem Queued.pop (q : Queued Holds Free ring start (item :: items)) (inside : start < size) (empty : Free c) :
    Queued Holds Free (ring.poke start c) ((start + 1) % size) items := by
  have fits := q.fits
  rw [List.length_cons] at fits
  have here : start = (start + 0) % size := by rw [Nat.add_zero,Nat.mod_eq_of_lt inside]
  have next (i : Nat) : ((start + 1) % size + i) % size = (start + (i + 1)) % size := by
    rw [Nat.mod_add_mod,Nat.add_assoc,Nat.add_comm 1 i]
  refine ⟨by omega,?_,?_⟩
  · intro i x found
    have few : i < items.length := (List.getElem?_eq_some_iff.mp found).1
    rw [next]
    have kept := peek_poke_place ring start c (show i + 1 < size by omega) (show 0 < size by omega)
    rw [← here,if_neg (Nat.succ_ne_zero i)] at kept
    rw [kept]
    exact q.holds (i + 1) x found
  · intro i behind bound
    rw [next]
    by_cases round : i + 1 = size
    · rw [round,Nat.add_mod_right,Nat.mod_eq_of_lt inside,Block.peek_poke _ _ inside]
      exact empty
    · have kept := peek_poke_place ring start c (show i + 1 < size by omega) (show 0 < size by omega)
      rw [← here,if_neg (Nat.succ_ne_zero i)] at kept
      rw [kept]
      exact q.free (i + 1) (by rw [List.length_cons]; omega) (by omega)

end
end Net2Modbus
