import Mathlib

/-!
# Chains in a table

A table that leads from each cell to the next one, with values that end a chain instead.
A chain that ends visits no cell twice, and it is known from its first cell. Chains are
walked, made longer at their end, and left alone by changes of other cells.
-/
namespace Net2Modbus
universe u

section
variable {Cell : Type u} (next : Cell → Cell) (Ends : Cell → Prop)

/-- The table leads on from a cell to another one. -/
def LeadsOn (c d : Cell) : Prop := next c = d ∧ ¬ Ends d
/-- A chain from its first cell to the one whose entry ends it. -/
structure Linked (l : List Cell) : Prop where
  path : l.IsChain (LeadsOn next Ends)
  ends : ∃ c, l.getLast? = some c ∧ Ends (next c)

variable {next Ends} {next' : Cell → Cell} {l l' front : List Cell} {c d : Cell} {i : Nat}

theorem Linked.tail (linked : Linked next Ends (c :: d :: l)) : Linked next Ends (d :: l) := by
  obtain ⟨path,ends⟩ := linked
  refine ⟨path.tail,?_⟩
  rwa [List.getLast?_cons_cons] at ends
theorem Linked.suffix (linked : Linked next Ends (front ++ c :: l)) : Linked next Ends (c :: l) := by
  induction front with
  | nil => exact linked
  | cons d rest ih =>
    cases rest with
    | nil => exact linked.tail
    | cons e rest => exact ih linked.tail
/-- The first cell tells the whole chain. -/
theorem Linked.unique (left : Linked next Ends (c :: l)) (right : Linked next Ends (c :: l')) : l = l' := by
  induction l generalizing c l' with
  | nil =>
    cases l' with
    | nil => rfl
    | cons d rest =>
      obtain ⟨_,last,stop⟩ := left.ends
      obtain rfl := Option.some.inj last
      obtain ⟨⟨leads,on⟩,-⟩ := List.isChain_cons_cons.mp right.path
      exact absurd (leads ▸ stop) on
  | cons d rest ih =>
    obtain ⟨⟨leads,on⟩,-⟩ := List.isChain_cons_cons.mp left.path
    cases l' with
    | nil =>
      obtain ⟨_,last,stop⟩ := right.ends
      obtain rfl := Option.some.inj last
      exact absurd (leads ▸ stop) on
    | cons e rest' =>
      obtain ⟨⟨leads',-⟩,-⟩ := List.isChain_cons_cons.mp right.path
      obtain rfl : d = e := leads.symm.trans leads'
      rw [ih left.tail right.tail]
theorem Linked.nodup (linked : Linked next Ends l) : l.Nodup := by
  induction l with
  | nil => exact List.nodup_nil
  | cons c rest ih =>
    rw [List.nodup_cons]
    constructor
    · intro again
      obtain ⟨front,back,split⟩ := List.append_of_mem again
      have later : Linked next Ends (c :: back) := by
        rw [split,← List.cons_append] at linked
        exact linked.suffix
      have same := congrArg List.length (linked.unique later)
      rw [split,List.length_append,List.length_cons] at same
      omega
    · cases rest with
      | nil => exact List.nodup_nil
      | cons d rest => exact ih linked.tail
theorem Linked.link (linked : Linked next Ends l) (here : l[i]? = some c) (there : l[i + 1]? = some d) :
    LeadsOn next Ends c d := by
  obtain ⟨bound,rfl⟩ := List.getElem?_eq_some_iff.mp there
  obtain ⟨bound',rfl⟩ := List.getElem?_eq_some_iff.mp here
  exact List.isChain_iff_getElem.mp linked.path i bound
theorem Linked.stop (linked : Linked next Ends l) (here : l[i]? = some c) (beyond : l[i + 1]? = none) : Ends (next c) := by
  obtain ⟨last,found,ends⟩ := linked.ends
  obtain ⟨bound,-⟩ := List.getElem?_eq_some_iff.mp here
  rw [List.getElem?_eq_none_iff] at beyond
  obtain rfl : i = l.length - 1 := by omega
  rw [← List.getLast?_eq_getElem?,found] at here
  obtain rfl := Option.some.inj here
  exact ends
/-- A chain stays what it is while the entries of its own cells stay. -/
theorem Linked.congr (linked : Linked next Ends l) (same : ∀ c ∈ l, next' c = next c) : Linked next' Ends l := by
  obtain ⟨path,c,last,ends⟩ := linked
  refine ⟨path.imp_of_mem_imp ?_,c,last,by rwa [same c (List.mem_of_getLast? last)]⟩
  rintro a b memA - ⟨leads,on⟩
  exact ⟨by rwa [same a memA],on⟩
/-- A chain lives among finitely many cells, so that it is no longer than they are many. -/
theorem Linked.length_le {cells : List Cell} (linked : Linked next Ends l) (inside : ∀ c ∈ l, c ∈ cells) :
    l.length ≤ cells.length :=
  (linked.nodup.subperm inside).length_le

variable [DecidableEq Cell]

/-- The entry of the last cell of a path is not part of it. -/
theorem path_update (path : (front ++ [c]).IsChain (LeadsOn next Ends)) (new : c ∉ front) :
    (front ++ [c]).IsChain (LeadsOn (Function.update next c d) Ends) := by
  have kept (a : Cell) (mem : a ∈ front) : Function.update next c d a = next a :=
    Function.update_of_ne (ne_of_mem_of_not_mem mem new) ..
  rw [List.isChain_append] at path ⊢
  obtain ⟨before,-,step⟩ := path
  refine ⟨?_,List.isChain_singleton c,?_⟩
  · apply before.imp_of_mem_imp
    rintro a b mem - ⟨leads,go⟩
    exact ⟨by rwa [kept a mem],go⟩
  · intro a last b first
    obtain ⟨leads,go⟩ := step a last b first
    exact ⟨by rwa [kept a (List.mem_of_getLast? last)],go⟩
/-- The last cell of a path is led on to one more cell. -/
theorem path_push (path : (front ++ [c]).IsChain (LeadsOn next Ends)) (new : c ∉ front) (on : ¬ Ends d) :
    (front ++ [c] ++ [d]).IsChain (LeadsOn (Function.update next c d) Ends) := by
  apply (path_update path new).append (List.isChain_singleton d)
  intro a last b first
  rw [List.getLast?_concat] at last
  obtain rfl := Option.some.inj last
  obtain rfl := Option.some.inj first
  exact ⟨Function.update_self ..,on⟩
/-- The last cell of a path is given an entry that ends it. -/
theorem path_close (path : (front ++ [c]).IsChain (LeadsOn next Ends)) (new : c ∉ front) (stop : Ends d) :
    Linked (Function.update next c d) Ends (front ++ [c]) :=
  ⟨path_update path new,c,List.getLast?_concat,by rwa [Function.update_self]⟩

end
end Net2Modbus
