import Mathlib

/-!
# Searching a set of words

A finite set of binary words that is only asked whether a word with the front chosen so far
goes on with `false`, and whether one goes on with `true`. One descent finds one word; where
both branches exist it follows an earlier word up to a mark. Descents that each start from
the word and the mark of the one before find all words in lexicographic order.
-/
namespace Net2Modbus
namespace WordSearch

/-- What follows a first letter. -/
def rest (b : Bool) (words : List (List Bool)) : List (List Bool) :=
  words.filterMap fun
    | [] => none
    | c :: w => if c = b then some w else none

/-- The branch that a descent takes: the only one, or that of the earlier word before the
    mark, `true` at the mark and `false` behind it. -/
def choice (words : List (List Bool)) (earlier : List Bool) (mark : Nat) : Bool :=
  if rest false words = [] then true
  else if rest true words = [] then false
  else if 1 < mark then earlier.headD false
  else decide (mark = 1)

/-- The last place, counted from one, where a word has `false` and some word with the same
    front has `true`. -/
def lastTurn : List (List Bool) → List Bool → Nat
  | _,[] => 0
  | words,b :: w =>
    let later := lastTurn (rest b words) w
    if later ≠ 0 then later + 1 else if b = false ∧ rest true words ≠ [] then 1 else 0

/-- One descent over `n` letters. -/
def descend : Nat → List (List Bool) → List Bool → Nat → List Bool
  | 0,_,_,_ => []
  | n + 1,words,earlier,mark =>
    let b := choice words earlier mark
    b :: descend n (rest b words) earlier.tail (mark - 1)

/-- The words of length `n`, each once, in lexicographic order. -/
def ordered : Nat → List (List Bool) → List (List Bool)
  | 0,words => if [] ∈ words then [[]] else []
  | n + 1,words => (ordered n (rest false words)).map (false :: ·) ++ (ordered n (rest true words)).map (true :: ·)

variable {n mark : Nat} {words : List (List Bool)} {earlier w w' : List Bool} {b : Bool}

@[simp] theorem mem_rest : w ∈ rest b words ↔ b :: w ∈ words := by
  rw [rest,List.mem_filterMap]
  constructor
  · rintro ⟨_ | ⟨c,v⟩,member,same⟩
    · contradiction
    · dsimp only at same
      by_cases first : c = b
      · rw [if_pos first] at same
        rw [← Option.some.inj same,← first]
        exact member
      · rw [if_neg first] at same
        contradiction
  · exact fun member => ⟨b :: w,member,if_pos rfl⟩
theorem rest_cons (c : Bool) : rest b ((c :: w) :: words) = if c = b then w :: rest b words else rest b words := by
  rw [rest,List.filterMap_cons]
  by_cases first : c = b
  · simp only [if_pos first]
    rfl
  · simp only [if_neg first]
    rfl
theorem rest_length (all : ∀ w ∈ words, w.length = n + 1) : ∀ w ∈ rest b words, w.length = n :=
  fun w member => Nat.succ.inj (all (b :: w) (mem_rest.mp member))
/-- Some branch exists. -/
theorem rest_cases (all : ∀ w ∈ words, w.length = n + 1) (nonempty : words ≠ []) :
    rest false words ≠ [] ∨ rest true words ≠ [] := by
  obtain ⟨w,member⟩ := List.exists_mem_of_ne_nil words nonempty
  cases w with
  | nil => exact absurd (all [] member) (Nat.succ_ne_zero n).symm
  | cons b v =>
    have branch : rest b words ≠ [] := List.ne_nil_of_mem (mem_rest.mpr member)
    cases b with
    | false => exact .inl branch
    | true => exact .inr branch
/-- The branch that is taken exists. -/
theorem choice_ne_nil (all : ∀ w ∈ words, w.length = n + 1) (nonempty : words ≠ []) :
    rest (choice words earlier mark) words ≠ [] := by
  unfold choice
  by_cases zeros : rest false words = []
  · rw [if_pos zeros]
    exact (rest_cases all nonempty).resolve_left (not_not.mpr zeros)
  · rw [if_neg zeros]
    by_cases ones : rest true words = []
    · rw [if_pos ones]
      exact zeros
    · rw [if_neg ones]
      cases if 1 < mark then earlier.headD false else decide (mark = 1) with
      | false => exact zeros
      | true => exact ones

theorem descend_mem (all : ∀ w ∈ words, w.length = n) (nonempty : words ≠ []) : descend n words earlier mark ∈ words := by
  induction n generalizing words earlier mark with
  | zero =>
    obtain ⟨w,member⟩ := List.exists_mem_of_ne_nil words nonempty
    rw [descend,← List.eq_nil_of_length_eq_zero (all w member)]
    exact member
  | succ n ih => exact mem_rest.mp (ih (rest_length all) (choice_ne_nil all nonempty))

theorem mem_ordered : w ∈ ordered n words ↔ w ∈ words ∧ w.length = n := by
  induction n generalizing words w with
  | zero =>
    rw [ordered,List.length_eq_zero_iff]
    by_cases there : [] ∈ words
    · rw [if_pos there,List.mem_singleton]
      constructor
      · intro same
        exact ⟨same ▸ there,same⟩
      · intro held
        exact held.2
    · rw [if_neg there]
      constructor
      · intro member
        exact absurd member List.not_mem_nil
      · intro held
        rw [held.2] at held
        exact absurd held.1 there
  | succ n ih =>
    rw [ordered,List.mem_append,List.mem_map,List.mem_map]
    constructor
    · rintro (⟨v,member,rfl⟩ | ⟨v,member,rfl⟩)
      · obtain ⟨member,len⟩ := ih.mp member
        exact ⟨mem_rest.mp member,congrArg (· + 1) len⟩
      · obtain ⟨member,len⟩ := ih.mp member
        exact ⟨mem_rest.mp member,congrArg (· + 1) len⟩
    · rintro ⟨member,len⟩
      cases w with
      | nil => contradiction
      | cons b v =>
        have deeper : v ∈ ordered n (rest b words) := ih.mpr ⟨mem_rest.mpr member,Nat.succ.inj len⟩
        cases b with
        | false => exact .inl ⟨v,deeper,rfl⟩
        | true => exact .inr ⟨v,deeper,rfl⟩
theorem ordered_pairwise : (ordered n words).Pairwise (· < ·) := by
  induction n generalizing words with
  | zero =>
    rw [ordered]
    split
    · exact List.pairwise_singleton _ _
    · exact List.Pairwise.nil
  | succ n ih =>
    rw [ordered,List.pairwise_append,List.pairwise_map,List.pairwise_map]
    refine ⟨ih.imp fun less => List.Lex.cons less,ih.imp fun less => List.Lex.cons less,?_⟩
    intro x low y high
    rw [List.mem_map] at low high
    obtain ⟨v,-,rfl⟩ := low
    obtain ⟨v',-,rfl⟩ := high
    exact List.Lex.rel rfl

theorem ordered_ne_nil (all : ∀ w ∈ words, w.length = n) (nonempty : words ≠ []) : ordered n words ≠ [] := by
  obtain ⟨w,member⟩ := List.exists_mem_of_ne_nil words nonempty
  exact List.ne_nil_of_mem (mem_ordered.mpr ⟨member,all w member⟩)
@[simp] theorem ordered_nil : ordered n [] = [] := by
  induction n with
  | zero => rfl
  | succ n ih => simp [ordered,rest,ih]

variable (earlier) in
/-- A descent without a mark finds the first word. -/
theorem ordered_head (all : ∀ w ∈ words, w.length = n) (nonempty : words ≠ []) :
    (ordered n words).head? = some (descend n words earlier 0) := by
  induction n generalizing words earlier with
  | zero =>
    have found : descend 0 words earlier 0 ∈ words := descend_mem all nonempty
    have empty : [] ∈ words := found
    rw [ordered,if_pos empty]
    rfl
  | succ n ih =>
    rw [ordered,List.head?_append,List.head?_map,List.head?_map,descend]
    by_cases zeros : rest false words = []
    · have ones := (rest_cases all nonempty).resolve_left (not_not.mpr zeros)
      have taken : choice words earlier 0 = true := if_pos zeros
      rw [taken,zeros,ordered_nil,ih _ (rest_length all) ones]
      rfl
    · have taken : choice words earlier 0 = false := by
        rw [choice,if_neg zeros]
        split <;> rfl
      rw [taken,ih _ (rest_length all) zeros]
      rfl
/-- The last word takes no turn that is left. -/
theorem ordered_last (all : ∀ w ∈ words, w.length = n) (last : (ordered n words).getLast? = some w) :
    lastTurn words w = 0 := by
  induction n generalizing words w with
  | zero =>
    have member := (mem_ordered.mp (List.mem_of_getLast? last)).2
    rw [List.eq_nil_of_length_eq_zero member]
    rfl
  | succ n ih =>
    rw [ordered,List.getLast?_append,List.getLast?_map,List.getLast?_map] at last
    cases ones : (ordered n (rest true words)).getLast? with
    | some v =>
      rw [ones] at last
      obtain rfl := Option.some.inj last
      simp [lastTurn,ih (rest_length all) ones]
    | none =>
      have empty : rest true words = [] := by
        by_contra there
        exact ordered_ne_nil (rest_length all) there (List.getLast?_eq_none_iff.mp ones)
      rw [ones] at last
      cases zeros : (ordered n (rest false words)).getLast? with
      | none =>
        rw [zeros] at last
        contradiction
      | some v =>
        rw [zeros] at last
        obtain rfl := Option.some.inj last
        simp [lastTurn,ih (rest_length all) zeros,empty]

/-- The descent that starts from a word and its last turn finds another word. -/
def Follows (n : Nat) (words : List (List Bool)) (w w' : List Bool) : Prop :=
  lastTurn words w ≠ 0 ∧ descend n words w (lastTurn words w) = w'

/-- Before the mark the branch of the earlier word is taken when it exists. -/
theorem choice_follows (there : rest b words ≠ []) (before : 1 < mark) : choice words (b :: w) mark = b := by
  unfold choice
  by_cases zeros : rest false words = []
  · rw [if_pos zeros]
    cases b with
    | false => contradiction
    | true => rfl
  · by_cases ones : rest true words = []
    · rw [if_neg zeros,if_pos ones]
      cases b with
      | false => rfl
      | true => contradiction
    · rw [if_neg zeros,if_neg ones,if_pos before]
      rfl
/-- Below a first letter. -/
theorem Follows.cons (follows : Follows n (rest b words) w w') (there : rest b words ≠ []) :
    Follows (n + 1) words (b :: w) (b :: w') := by
  obtain ⟨turn,found⟩ := follows
  have mark : lastTurn words (b :: w) = lastTurn (rest b words) w + 1 := by rw [lastTurn,if_pos turn]
  have taken : choice words (b :: w) (lastTurn (rest b words) w + 1) = b := choice_follows there (by omega)
  refine ⟨by rw [mark]; exact Nat.succ_ne_zero _,?_⟩
  rw [mark,descend,taken]
  exact congrArg (b :: ·) found
/-- A word that no other one shares all but the last letter with is found again by a
    descent that follows it to its end. -/
theorem descend_again (all : ∀ w ∈ words, w.length = n) (member : w ∈ words)
    (sole : ∀ v ∈ words, v.take (n - 1) = w.take (n - 1) → v = w) : descend n words w n = w := by
  induction n generalizing words w with
  | zero => exact (List.eq_nil_of_length_eq_zero (all w member)).symm
  | succ n ih =>
    cases w with
    | nil => exact absurd (all [] member) (Nat.succ_ne_zero n).symm
    | cons b w =>
      have there : rest b words ≠ [] := List.ne_nil_of_mem (mem_rest.mpr member)
      have taken : choice words (b :: w) (n + 1) = b := by
        by_cases last : n = 0
        · subst last
          by_cases other : rest (!b) words = []
          · unfold choice
            cases b <;> simp_all
          · obtain ⟨v,member'⟩ := List.exists_mem_of_ne_nil _ other
            have same := sole _ (mem_rest.mp member') rfl
            simp at same
        · exact choice_follows there (by omega)
      have again : descend n (rest b words) w n = w := by
        refine ih (rest_length all) (mem_rest.mpr member) ?_
        intro v member' front
        cases n with
        | zero =>
          have empty := rest_length all v member'
          have empty' := rest_length all w (mem_rest.mpr member)
          rw [List.eq_nil_of_length_eq_zero empty,List.eq_nil_of_length_eq_zero empty']
        | succ n =>
          have same := sole (b :: v) (mem_rest.mp member') (congrArg (b :: ·) front)
          exact (List.cons.inj same).2
      rw [descend,taken]
      exact congrArg (b :: ·) again
/-- From the last word with `false` to the first word with `true`. -/
theorem Follows.turn (all : ∀ w ∈ words, w.length = n + 1) (zeros : rest false words ≠ []) (ones : rest true words ≠ [])
    (last : lastTurn (rest false words) w = 0) (first : (ordered n (rest true words)).head? = some w') :
    Follows (n + 1) words (false :: w) (true :: w') := by
  have mark : lastTurn words (false :: w) = 1 := by simp [lastTurn,last,ones]
  have taken : choice words (false :: w) 1 = true := by simp [choice,zeros,ones]
  have found := ordered_head w (rest_length all) ones
  refine ⟨by rw [mark]; exact Nat.one_ne_zero,?_⟩
  rw [mark,descend,taken]
  exact congrArg (true :: ·) (Option.some.inj (found.symm.trans first))
/-- Each word but the last is followed by the next one. -/
theorem ordered_chain (all : ∀ w ∈ words, w.length = n) : (ordered n words).IsChain (Follows n words) := by
  induction n generalizing words with
  | zero =>
    rw [ordered]
    split
    · exact List.isChain_singleton _
    · exact List.isChain_nil
  | succ n ih =>
    have below (b : Bool) : ((ordered n (rest b words)).map (b :: ·)).IsChain (Follows (n + 1) words) := by
      rw [List.isChain_map]
      by_cases there : rest b words = []
      · rw [there,ordered_nil]
        exact List.isChain_nil
      · exact (ih (rest_length all)).imp fun _ _ follows => follows.cons there
    rw [ordered,List.isChain_append]
    refine ⟨below false,below true,?_⟩
    intro x low y high
    rw [List.getLast?_map,Option.mem_map] at low
    rw [List.head?_map,Option.mem_map] at high
    obtain ⟨w,last,rfl⟩ := low
    obtain ⟨w',first,rfl⟩ := high
    have zeros : rest false words ≠ [] :=
      List.ne_nil_of_mem (mem_ordered.mp (List.mem_of_getLast? last)).1
    have ones : rest true words ≠ [] :=
      List.ne_nil_of_mem (mem_ordered.mp (List.mem_of_head? first)).1
    exact Follows.turn all zeros ones (ordered_last (rest_length all) last) first

end WordSearch
end Net2Modbus
