import Net2Modbus.Lockstep

/-!
# Searching a text

The places where a string occurs in a text, and a search from the front that ends with the
string, at a stop or behind the end, with the number of cells it has looked at by then.
-/
namespace Net2Modbus
universe u

section
variable {Cell : Type u} {str text : List Cell} {a b : Nat}

def OccursAt (str text : List Cell) (a : Nat) : Prop := str <+: text.drop a
instance [DecidableEq Cell] : Decidable (OccursAt str text a) := inferInstanceAs (Decidable (_ <+: _))
structure FirstAt (str text : List Cell) (a : Nat) : Prop where
  occurs : OccursAt str text a
  first : ∀ b < a, ¬ OccursAt str text b

theorem OccursAt.inside (nonempty : str ≠ []) (occurs : OccursAt str text a) : a + str.length ≤ text.length := by
  have positive := List.length_pos_of_ne_nil nonempty
  have short := occurs.length_le
  rw [List.length_drop] at short
  omega
theorem OccursAt.exists_first (occurs : OccursAt str text a) : ∃ b ≤ a, FirstAt str text b := by
  induction a using Nat.strong_induction_on with
  | _ a ih =>
    by_cases earlier : ∃ b < a, OccursAt str text b
    · obtain ⟨b,before,occursB⟩ := earlier
      obtain ⟨c,le,first⟩ := ih b before occursB
      exact ⟨c,by omega,first⟩
    · refine ⟨a,le_rfl,occurs,?_⟩
      intro b before occursB
      exact earlier ⟨b,before,occursB⟩
theorem FirstAt.unique (firstA : FirstAt str text a) (firstB : FirstAt str text b) : a = b := by
  rcases Nat.lt_trichotomy a b with less | same | more
  · exact absurd firstA.occurs (firstB.first a less)
  · exact same
  · exact absurd firstB.occurs (firstA.first b more)
theorem firstAt_cons {c : Cell} {rest : List Cell} (other : ¬ str <+: c :: rest) :
    FirstAt str (c :: rest) (a + 1) ↔ FirstAt str rest a := by
  constructor
  · rintro ⟨occurs,first⟩
    refine ⟨occurs,?_⟩
    intro b before
    exact first (b + 1) (Nat.succ_lt_succ before)
  · rintro ⟨occurs,first⟩
    refine ⟨occurs,?_⟩
    intro b before
    cases b with
    | zero => exact other
    | succ b => exact first b (Nat.lt_of_succ_lt_succ before)
/-- What occurs in a block occurs in the file, and the other way round when it is not cut. -/
theorem occursAt_chunk {size k : Nat} {file : List Cell} (nonempty : str ≠ []) :
    OccursAt str (chunk size file (k + 1)) a ↔ OccursAt str file (size * k + a) ∧ a + str.length ≤ size := by
  have positive := List.length_pos_of_ne_nil nonempty
  have uncut : str.length ≤ size - a ↔ a + str.length ≤ size := by omega
  rw [OccursAt,chunk,Nat.add_sub_cancel,List.drop_take,List.drop_drop,List.prefix_take_iff,uncut]
  rfl

end

/-- Where the string was found, and how many cells were looked at. -/
structure Search where
  found : Option Nat
  looked : Nat
  deriving DecidableEq, Repr

section
variable {Cell : Type u} [DecidableEq Cell] {stop : Cell} {str text front rest : List Cell} {a : Nat}

/-- A text that ends without a stop is left by one cell. -/
def search (stop : Cell) (str : List Cell) : List Cell → Search
  | [] => ⟨none,1⟩
  | c :: rest =>
    if str <+: c :: rest then ⟨some 0,str.length⟩
    else if c = stop then ⟨none,1⟩
    else ⟨(search stop str rest).found.map (· + 1),(search stop str rest).looked + 1⟩

theorem search_here {c : Cell} (here : str <+: c :: rest) : search stop str (c :: rest) = ⟨some 0,str.length⟩ := by
  rw [search,if_pos here]
theorem search_stop (other : ¬ str <+: stop :: rest) : search stop str (stop :: rest) = ⟨none,1⟩ := by
  rw [search,if_neg other,if_pos rfl]
theorem search_onward {c : Cell} (other : ¬ str <+: c :: rest) (goes : c ≠ stop) :
    search stop str (c :: rest) = ⟨(search stop str rest).found.map (· + 1),(search stop str rest).looked + 1⟩ := by
  rw [search,if_neg other,if_neg goes]

/-- The search finds the first occurrence, unless a stop comes before it. -/
theorem search_found_iff (nonempty : str ≠ []) :
    (search stop str text).found = some a ↔ FirstAt str text a ∧ stop ∉ text.take a := by
  induction text generalizing a with
  | nil =>
    constructor
    · intro found
      contradiction
    · rintro ⟨⟨occurs,-⟩,-⟩
      rw [OccursAt,List.drop_nil,List.prefix_nil] at occurs
      contradiction
  | cons c rest ih =>
    by_cases here : str <+: c :: rest
    · rw [search_here here,Option.some.injEq]
      constructor
      · rintro rfl
        exact ⟨⟨here,nofun⟩,List.not_mem_nil⟩
      · rintro ⟨first,-⟩
        exact FirstAt.unique ⟨here,nofun⟩ first
    cases a with
    | zero =>
      have missed : ¬ FirstAt str (c :: rest) 0 := by
        rintro ⟨occurs,-⟩
        exact here occurs
      by_cases halt : c = stop
      · subst halt
        simp [search_stop here,missed]
      · simp [search_onward here halt,missed]
    | succ a =>
      by_cases halt : c = stop
      · subst halt
        simp [search_stop here]
      · rw [search_onward here halt,firstAt_cons here,List.take_succ_cons,List.mem_cons,not_or]
        have goes : stop ≠ c := Ne.symm halt
        simp [ih,goes]
theorem search_looked (found : (search stop str text).found = some a) : (search stop str text).looked = a + str.length := by
  induction text generalizing a with
  | nil => contradiction
  | cons c rest ih =>
    by_cases here : str <+: c :: rest
    · rw [search_here here,Option.some.injEq] at found
      rw [search_here here,← found,Nat.zero_add]
    by_cases halt : c = stop
    · subst halt
      rw [search_stop here] at found
      contradiction
    · rw [search_onward here halt] at found ⊢
      obtain ⟨b,next,rfl⟩ := Option.map_eq_some_iff.mp found
      change (search stop str rest).looked + 1 = b + 1 + str.length
      rw [ih next]
      omega
theorem search_looked_pos (nonempty : str ≠ []) : 0 < (search stop str text).looked := by
  cases text with
  | nil => exact Nat.one_pos
  | cons c rest =>
    rw [search]
    split
    · exact List.length_pos_of_ne_nil nonempty
    · split
      · exact Nat.one_pos
      · exact Nat.succ_pos _
/-- The search stays in a text that holds the string or a stop. -/
theorem search_inside_iff (nonempty : str ≠ []) :
    (search stop str text).looked ≤ text.length ↔ stop ∈ text ∨ ∃ a, OccursAt str text a := by
  induction text with
  | nil =>
    constructor
    · intro inside
      exact absurd inside (by simp [search])
    · rintro (member | ⟨a,occurs⟩)
      · exact absurd member List.not_mem_nil
      · rw [OccursAt,List.drop_nil,List.prefix_nil] at occurs
        contradiction
  | cons c rest ih =>
    by_cases here : str <+: c :: rest
    · rw [search_here here]
      exact iff_of_true here.length_le (.inr ⟨0,here⟩)
    by_cases halt : c = stop
    · subst halt
      rw [search_stop here]
      exact iff_of_true (Nat.succ_pos _) (.inl List.mem_cons_self)
    have later : (∃ a, OccursAt str (c :: rest) a) ↔ ∃ a, OccursAt str rest a := by
      constructor
      · rintro ⟨a,occurs⟩
        cases a with
        | zero => exact absurd occurs here
        | succ a => exact ⟨a,occurs⟩
      · rintro ⟨a,occurs⟩
        exact ⟨a + 1,occurs⟩
    have goes : stop ≠ c := Ne.symm halt
    rw [search_onward here halt,List.length_cons,Nat.succ_le_succ_iff,ih,later,List.mem_cons]
    simp [goes]

/-- A search that ends in a text does not depend on what lies behind it. -/
theorem search_append (nonempty : str ≠ []) (free : stop ∉ str) (inside : (search stop str front).looked ≤ front.length) :
    search stop str (front ++ rest) = search stop str front := by
  induction front with
  | nil => exact absurd inside (by simp [search])
  | cons c front ih =>
    by_cases here : str <+: c :: front
    · have still : str <+: c :: (front ++ rest) := here.trans (List.prefix_append (c :: front) rest)
      rw [search_here here,List.cons_append,search_here still]
    -- a string that goes on behind the text fills it, without a stop and without itself in it
    have other : ¬ str <+: c :: (front ++ rest) := by
      intro cut
      have covers : c :: front <+: str := by
        refine List.prefix_of_prefix_length_le (List.prefix_append (c :: front) rest) cut ?_
        by_contra short
        exact here (List.prefix_of_prefix_length_le cut (List.prefix_append (c :: front) rest) (by omega))
      rcases (search_inside_iff nonempty).mp inside with member | ⟨a,occurs⟩
      · exact free (covers.subset member)
      · have long := covers.length_le
        have short := occurs.inside nonempty
        exact here (covers.eq_of_length (by omega) ▸ List.prefix_rfl)
    by_cases halt : c = stop
    · subst halt
      rw [search_stop here,List.cons_append,search_stop other]
    · rw [search_onward here halt,List.length_cons,Nat.succ_le_succ_iff] at inside
      rw [search_onward here halt,List.cons_append,search_onward other halt,ih inside]
/-- A search that leaves a text leaves it whatever lies behind. -/
theorem search_leaves (nonempty : str ≠ []) (inside : (search stop str (front ++ rest)).looked ≤ front.length) :
    (search stop str front).looked ≤ front.length := by
  induction front with
  | nil => exact absurd (search_looked_pos nonempty) (Nat.not_lt.mpr inside)
  | cons c front ih =>
    rw [List.cons_append] at inside
    by_cases here : str <+: c :: front
    · rw [search_here here]
      exact here.length_le
    have other : ¬ str <+: c :: (front ++ rest) := by
      intro cut
      rw [search_here cut] at inside
      exact here (List.prefix_of_prefix_length_le cut (List.prefix_append (c :: front) rest) inside)
    by_cases halt : c = stop
    · subst halt
      rw [search_stop here]
      exact Nat.succ_pos _
    · rw [search_onward other halt,List.length_cons,Nat.succ_le_succ_iff] at inside
      rw [search_onward here halt,List.length_cons,Nat.succ_le_succ_iff]
      exact ih inside

end
end Net2Modbus
