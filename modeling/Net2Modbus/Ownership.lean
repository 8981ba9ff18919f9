import Mathlib

/-!
# Tables and owners

Tables whose slots are open or not, and owners of things, where each thing that lives
has one owner.
-/
namespace Net2Modbus
universe u v

/-- The slots of a table that hold something. -/
def openOf {Args : Type} (pcbs : List (Option Args)) (n : Nat) : Bool := (pcbs[n]?).join.isSome

section
variable {Args : Type} {pcbs : List (Option Args)} {n : Nat} {args : Args}

variable (pcbs) in
theorem openOf_fresh : openOf pcbs pcbs.length = false := by simp [openOf]
theorem openOf_lt (registered : openOf pcbs n = true) : n < pcbs.length := by
  by_contra outside
  rw [openOf,List.getElem?_eq_none (Nat.le_of_not_lt outside)] at registered
  contradiction
theorem openOf_set (inside : n < pcbs.length) (new : Option Args) :
    openOf (pcbs.set n new) = Function.update (openOf pcbs) n new.isSome := by
  funext k
  rw [Function.update_apply,openOf]
  split
  next same => rw [same,List.getElem?_set_self inside]; rfl
  next other => rw [List.getElem?_set_ne (Ne.symm other)]; rfl
theorem openOf_snoc (new : Option Args) : openOf (pcbs ++ [new]) = Function.update (openOf pcbs) pcbs.length new.isSome := by
  funext k
  rw [Function.update_apply,openOf]
  split
  next same => rw [same,List.getElem?_concat_length]; rfl
  next other =>
    by_cases old : k < pcbs.length
    · rw [List.getElem?_append_left old]
      rfl
    · rw [openOf,List.getElem?_eq_none (by simp; omega),List.getElem?_eq_none (Nat.le_of_not_lt old)]
theorem openOf_modify (f : Args → Args) : openOf (pcbs.modify n (Option.map f)) = openOf pcbs := by
  funext k
  rw [openOf,openOf,List.getElem?_modify]
  rcases pcbs[k]? with _ | _ | _ <;> split <;> rfl

end

/-- What an owner has lives, and what lives has one owner. -/
structure Matched {Owner : Type u} {Owned : Type v} (has : Owner → Option Owned) (live : Owned → Bool) : Prop where
  alive : ∀ n k, has n = some k → live k = true
  owner : ∀ k, live k = true → ∃ n, has n = some k
  single : ∀ n m k, has n = some k → has m = some k → n = m

/-- What lives when something is given up, or nothing is. -/
def without {Owned : Type v} [DecidableEq Owned] (live : Owned → Bool) : Option Owned → Owned → Bool
  | some k => Function.update live k false
  | none => live

namespace Matched
variable {Owner : Type u} {Owned : Type v} {has : Owner → Option Owned} {live : Owned → Bool} {n m : Owner} {j k : Owned}

theorem nothing : Matched (fun _ : Owner => none) (fun _ : Owned => false) where
  alive _ _ owned := by contradiction
  owner _ lives := by contradiction
  single _ _ _ owned _ := by contradiction

variable [DecidableEq Owner]

/-- What an owner has behind a change at one owner. -/
theorem of_update {new : Option Owned} (owned : Function.update has n new m = some j) :
    m = n ∧ new = some j ∨ m ≠ n ∧ has m = some j := by
  by_cases mine : m = n
  · subst mine
    rw [Function.update_self] at owned
    exact .inl ⟨rfl,owned⟩
  · rw [Function.update_of_ne mine] at owned
    exact .inr ⟨mine,owned⟩

variable [DecidableEq Owned]

/-- An owner without anything takes something new. -/
theorem acquire (matched : Matched has live) (free : has n = none) (new : live k = false) :
    Matched (Function.update has n (some k)) (Function.update live k true) := by
  have unowned : ∀ m, has m ≠ some k := by
    intro m owned
    have lives := matched.alive m k owned
    rw [new] at lives
    contradiction
  constructor
  · intro m j owned
    rcases of_update owned with ⟨-,same⟩ | ⟨-,old⟩
    · rw [Option.some_inj.mp same,Function.update_self]
    · have apart : j ≠ k := by
        rintro rfl
        exact unowned m old
      rw [Function.update_of_ne apart]
      exact matched.alive m j old
  · intro j lives
    by_cases newer : j = k
    · exact ⟨n,by rw [newer,Function.update_self]⟩
    · rw [Function.update_of_ne newer] at lives
      obtain ⟨m,owned⟩ := matched.owner j lives
      have other : m ≠ n := by
        rintro rfl
        rw [free] at owned
        contradiction
      exact ⟨m,(Function.update_of_ne other ..).trans owned⟩
  · intro m i j left right
    rcases of_update left with ⟨rfl,same⟩ | ⟨-,old⟩
    · rcases of_update right with ⟨rfl,-⟩ | ⟨-,old⟩
      · rfl
      · rw [← same] at old
        exact absurd old (unowned i)
    · rcases of_update right with ⟨-,same⟩ | ⟨-,old'⟩
      · rw [← same] at old
        exact absurd old (unowned m)
      · exact matched.single m i j old old'
/-- An owner gives up what it has. -/
theorem release (matched : Matched has live) (n : Owner) :
    Matched (Function.update has n none) (without live (has n)) := by
  cases owns : has n with
  | none =>
    rw [← owns,Function.update_eq_self,owns]
    exact matched
  | some k =>
    constructor
    · intro m j owned
      rcases of_update owned with ⟨-,gone⟩ | ⟨other,old⟩
      · contradiction
      · have apart : j ≠ k := by
          rintro rfl
          exact other (matched.single m n j old owns)
        exact (Function.update_of_ne apart ..).trans (matched.alive m j old)
    · intro j lives
      have apart : j ≠ k := by
        rintro rfl
        rw [without,Function.update_self] at lives
        contradiction
      rw [without,Function.update_of_ne apart] at lives
      obtain ⟨m,owned⟩ := matched.owner j lives
      have other : m ≠ n := by
        rintro rfl
        exact apart (Option.some_inj.mp (owned.symm.trans owns))
      exact ⟨m,(Function.update_of_ne other ..).trans owned⟩
    · intro m i j left right
      rcases of_update left with ⟨-,gone⟩ | ⟨-,old⟩
      · contradiction
      · rcases of_update right with ⟨-,gone⟩ | ⟨-,old'⟩
        · contradiction
        · exact matched.single m i j old old'

end Matched
end Net2Modbus
