import Mathlib

/-!
# First fit

A stretch of memory that is cut into extents, each behind a header, of which some are used.
A request takes the first free extent that is large enough and leaves the rest of it free
when that is worth a header; an extent that is released becomes one with its free
neighbours. Whoever holds an extent keeps it whatever others ask for and release.
-/
namespace Net2Modbus

/-- The room behind a header, and whether somebody has it. -/
structure Extent where
  room : Nat
  used : Bool
  deriving DecidableEq, Repr

namespace FirstFit
variable (header least : Nat)

/-- What extents take with their headers. -/
def span : List Extent → Nat
  | [] => 0
  | e :: rest => header + e.room + span rest
/-- A free extent that is large enough. -/
def Fits (n : Nat) (e : Extent) : Prop := e.used = false ∧ n ≤ e.room

instance (n : Nat) (e : Extent) : Decidable (Fits n e) := inferInstanceAs (Decidable (_ ∧ _))

/-- An extent that is taken; what is left becomes an extent when it holds a least room. -/
def carve (n : Nat) (e : Extent) : List Extent :=
  if n + header + least ≤ e.room then [⟨n,true⟩,⟨e.room - n - header,false⟩] else [⟨e.room,true⟩]
/-- The first extent that fits, by the place of its header, and the extents when it is
    taken. -/
def take (n : Nat) : Nat → List Extent → Option (Nat × List Extent)
  | _,[] => none
  | base,e :: rest =>
    if Fits n e then some (base,carve header least n e ++ rest)
    else (take n (base + header + e.room) rest).map fun found => (found.1,e :: found.2)
/-- Two free extents at the front become one. -/
def merge : List Extent → List Extent
  | ⟨m,false⟩ :: ⟨n,false⟩ :: rest => ⟨m + header + n,false⟩ :: rest
  | extents => extents
/-- The extent at a place is released. -/
def release (place : Nat) : Nat → List Extent → List Extent
  | _,[] => []
  | base,e :: rest =>
    if place = base then merge header (⟨e.room,false⟩ :: rest)
    else if place = base + header + e.room then merge header (e :: release place (base + header + e.room) rest)
    else e :: release place (base + header + e.room) rest
/-- The place of the first free extent, or the end. -/
def lowest : Nat → List Extent → Nat
  | base,[] => base
  | base,e :: rest => if e.used then lowest (base + header + e.room) rest else base
/-- The extent at a place is used and holds so much. -/
def Holds (place n : Nat) : Nat → List Extent → Prop
  | _,[] => False
  | base,e :: rest => (place = base ∧ e.used = true ∧ n ≤ e.room) ∨ Holds place n (base + header + e.room) rest

variable {header least} {extents extents' front back : List Extent} {e d : Extent} {place place' base n m : Nat}

@[simp] theorem span_nil : span header [] = 0 := rfl
@[simp] theorem span_cons : span header (e :: back) = header + e.room + span header back := rfl
@[simp] theorem span_append : span header (front ++ back) = span header front + span header back := by
  induction front with
  | nil => simp
  | cons e rest ih => simp [ih]; omega
/-- Extents with headers and rooms are no more than fit. -/
theorem length_le_span (header : Nat) (rooms : ∀ e ∈ extents, least ≤ e.room) :
    extents.length * (header + least) ≤ span header extents := by
  induction extents with
  | nil => simp
  | cons e rest ih =>
    obtain ⟨here,there⟩ := List.forall_mem_cons.mp rooms
    have more := ih there
    rw [List.length_cons,Nat.succ_mul,span_cons]
    omega

theorem room_le_span (header : Nat) (mem : e ∈ extents) : header + e.room ≤ span header extents := by
  induction extents with
  | nil => contradiction
  | cons d rest ih =>
    rw [span_cons]
    rcases List.mem_cons.mp mem with rfl | later
    · omega
    · have := ih later
      omega

theorem take_append (fit : Fits n e) (before : ∀ d ∈ front, ¬ Fits n d) :
    take header least n base (front ++ e :: back) = some (base + span header front,front ++ carve header least n e ++ back) := by
  induction front generalizing base with
  | nil => simp [take,fit]
  | cons d rest ih =>
    obtain ⟨here,there⟩ := List.forall_mem_cons.mp before
    rw [List.cons_append,take,if_neg here,ih there]
    simp
    omega
theorem take_none (none : ∀ d ∈ extents, ¬ Fits n d) : take header least n base extents = .none := by
  induction extents generalizing base with
  | nil => rfl
  | cons d rest ih =>
    obtain ⟨here,there⟩ := List.forall_mem_cons.mp none
    rw [take,if_neg here,ih there]
    rfl
/-- The search may begin behind extents that are used. -/
theorem take_append_used (used : ∀ d ∈ front, d.used = true) :
    take header least n base (front ++ back) =
      (take header least n (base + span header front) back).map fun found => (found.1,front ++ found.2) := by
  induction front generalizing base with
  | nil => simp
  | cons d rest ih =>
    obtain ⟨here,there⟩ := List.forall_mem_cons.mp used
    rw [List.cons_append,take,if_neg (by simp [Fits,here]),ih there,Option.map_map,span_cons,← Nat.add_assoc,
      ← Nat.add_assoc]
    rfl
/-- Either nothing fits, or there is a first extent that does. -/
theorem fit_cases (n : Nat) (extents : List Extent) :
    (∀ d ∈ extents, ¬ Fits n d) ∨
      ∃ front e back, extents = front ++ e :: back ∧ Fits n e ∧ ∀ d ∈ front, ¬ Fits n d := by
  induction extents with
  | nil => exact .inl (List.forall_mem_nil _)
  | cons d rest ih =>
    by_cases here : Fits n d
    · exact .inr ⟨[],d,rest,rfl,here,List.forall_mem_nil _⟩
    · rcases ih with none | ⟨front,e,back,rfl,fit,before⟩
      · exact .inl (List.forall_mem_cons.mpr ⟨here,none⟩)
      · exact .inr ⟨d :: front,e,back,rfl,fit,List.forall_mem_cons.mpr ⟨here,before⟩⟩
theorem carve_span (header least : Nat) (fit : Fits n e) : span header (carve header least n e) = header + e.room := by
  unfold carve
  obtain ⟨-,large⟩ := fit
  split
  · simp only [span_cons,span_nil]
    omega
  · rfl
theorem merge_single : merge header [e] = [e] := by
  obtain ⟨m,_ | _⟩ := e <;> rfl
theorem merge_free (free : e.used = false) (free' : d.used = false) :
    merge header (e :: d :: back) = ⟨e.room + header + d.room,false⟩ :: back := by
  obtain ⟨m,_⟩ := e
  obtain ⟨n,_⟩ := d
  subst free free'
  rfl
theorem merge_first (header : Nat) (free : e.used = false) (back : List Extent) :
    ∃ d back', merge header (e :: back) = d :: back' ∧ d.used = false := by
  unfold merge
  split
  · exact ⟨_,_,rfl,rfl⟩
  · exact ⟨e,back,rfl,free⟩
theorem merge_used (used : e.used = true) : merge header (e :: back) = e :: back := by
  obtain ⟨r,_⟩ := e
  subst used
  rfl
theorem merge_before_used (used : d.used = true) : merge header (e :: d :: back) = e :: d :: back := by
  obtain ⟨r,_⟩ := d
  subst used
  unfold merge
  split <;> simp_all

theorem Holds.inside (holds : Holds header place n base extents) :
    base ≤ place ∧ place + header + n ≤ base + span header extents := by
  induction extents generalizing base with
  | nil => exact holds.elim
  | cons e rest ih =>
    rw [span_cons]
    rcases holds with ⟨rfl,-,room⟩ | later
    · omega
    · have := ih later
      omega
theorem Holds.split (holds : Holds header place n base extents) :
    ∃ front e back, extents = front ++ e :: back ∧ place = base + span header front ∧ e.used = true ∧ n ≤ e.room := by
  induction extents generalizing base with
  | nil => exact holds.elim
  | cons e rest ih =>
    rcases holds with ⟨rfl,used,room⟩ | later
    · exact ⟨[],e,rest,rfl,rfl,used,room⟩
    · obtain ⟨front,d,back,rfl,here,used,room⟩ := ih later
      refine ⟨e :: front,d,back,rfl,?_,used,room⟩
      rw [here,span_cons]
      omega
theorem holds_append :
    Holds header place n base (front ++ back) ↔
      Holds header place n base front ∨ Holds header place n (base + span header front) back := by
  induction front generalizing base with
  | nil => simp [Holds]
  | cons e rest ih =>
    rw [List.cons_append,Holds,Holds,ih,span_cons,or_assoc,show base + header + e.room + span header rest =
      base + (header + e.room + span header rest) by omega]
/-- What is held stays so when neighbours are joined. -/
theorem Holds.merge (holds : Holds header place n base extents) : Holds header place n base (merge header extents) := by
  unfold FirstFit.merge
  split
  · rename_i rest
    rcases holds with ⟨-,used,-⟩ | ⟨-,used,-⟩ | later
    · contradiction
    · contradiction
    · refine .inr ?_
      rwa [← Nat.add_assoc,← Nat.add_assoc]
  · exact holds
/-- What is held stays so when something else is taken. -/
theorem Holds.take (holds : Holds header place m base extents) (positive : 0 < header)
    (taken : take header least n base extents = some (place',extents')) :
    Holds header place m base extents' ∧ place ≠ place' := by
  obtain none | ⟨front,e,back,rfl,fit,before⟩ := fit_cases n extents
  · rw [take_none none] at taken
    contradiction
  · rw [take_append fit before] at taken
    obtain ⟨rfl,rfl⟩ := Prod.mk.inj (Option.some.inj taken)
    rw [List.append_assoc,holds_append,holds_append,carve_span _ _ fit]
    rcases holds_append.mp holds with ahead | ⟨-,used,-⟩ | behind
    · have := ahead.inside
      exact ⟨.inl ahead,by omega⟩
    · exact absurd used (by simp [fit.1])
    · have := behind.inside
      exact ⟨.inr (.inr (by rwa [← Nat.add_assoc])),by omega⟩
/-- What is taken is held. -/
theorem take_holds (taken : FirstFit.take header least n base extents = some (place',extents')) :
    Holds header place' n base extents' := by
  obtain none | ⟨front,e,back,rfl,fit,before⟩ := fit_cases n extents
  · rw [take_none none] at taken
    contradiction
  · rw [take_append fit before] at taken
    obtain ⟨rfl,rfl⟩ := Prod.mk.inj (Option.some.inj taken)
    rw [List.append_assoc,holds_append,holds_append]
    refine .inr (.inl ?_)
    unfold carve
    split
    · exact .inl ⟨rfl,rfl,le_rfl⟩
    · exact .inl ⟨rfl,rfl,fit.2⟩
/-- What is held stays so when something else is released. -/
theorem Holds.release (holds : Holds header place n base extents) (other : place ≠ place') :
    Holds header place n base (release header place' base extents) := by
  induction extents generalizing base with
  | nil => exact holds.elim
  | cons e rest ih =>
    rw [FirstFit.release]
    by_cases here : place' = base
    · rw [if_pos here]
      refine Holds.merge ?_
      rcases holds with ⟨rfl,-⟩ | later
      · exact absurd here.symm other
      · exact .inr later
    · rw [if_neg here]
      have kept : Holds header place n base (e :: FirstFit.release header place' (base + header + e.room) rest) := by
        rcases holds with now | later
        · exact .inl now
        · exact .inr (ih later)
      split
      · exact kept.merge
      · exact kept

theorem release_first : release header base base (e :: back) = merge header (⟨e.room,false⟩ :: back) := if_pos rfl
theorem release_append (positive : 0 < header) (base : Nat) (front : List Extent) (d e : Extent) (back : List Extent) :
    release header (base + span header front + (header + d.room)) base (front ++ d :: e :: back) =
      front ++ merge header (d :: merge header (⟨e.room,false⟩ :: back)) := by
  induction front generalizing base with
  | nil =>
    rw [List.nil_append,release,if_neg (by simp; omega),if_pos (by simp; omega),release,if_pos (by simp; omega)]
    rfl
  | cons c rest ih =>
    have place : base + span header (c :: rest) + (header + d.room) =
        base + header + c.room + span header rest + (header + d.room) := by
      rw [span_cons]
      omega
    rw [List.cons_append,release,if_neg (by simp; omega),if_neg (by simp; omega),place,ih]
    rfl

theorem lowest_append_used (used : ∀ d ∈ front, d.used = true) :
    lowest header base (front ++ back) = lowest header (base + span header front) back := by
  induction front generalizing base with
  | nil => rfl
  | cons e rest ih =>
    obtain ⟨here,there⟩ := List.forall_mem_cons.mp used
    rw [List.cons_append,lowest,if_pos here,ih there,span_cons]
    congr 1
    omega
theorem lowest_append_free (header base : Nat) (free : ¬ ∀ d ∈ front, d.used = true) (back : List Extent) :
    lowest header base (front ++ back) = lowest header base front ∧
      lowest header base front + header ≤ base + span header front := by
  induction front generalizing base with
  | nil => exact absurd (List.forall_mem_nil _) free
  | cons e rest ih =>
    rw [List.cons_append,lowest,lowest,span_cons]
    by_cases here : e.used = true
    · rw [if_pos here,if_pos here]
      obtain ⟨same,bound⟩ := ih (base + header + e.room) fun there => free (List.forall_mem_cons.mpr ⟨here,there⟩)
      exact ⟨same,by omega⟩
    · rw [if_neg here,if_neg here]
      exact ⟨rfl,by omega⟩
/-- Extents that are used, and then a free one or the end. -/
theorem lowest_split (header base : Nat) (extents : List Extent) :
    ∃ front back, extents = front ++ back ∧ (∀ d ∈ front, d.used = true) ∧
      lowest header base extents = base + span header front := by
  induction extents generalizing base with
  | nil => exact ⟨[],[],rfl,List.forall_mem_nil _,rfl⟩
  | cons e rest ih =>
    rw [lowest]
    by_cases here : e.used = true
    · obtain ⟨front,back,rfl,used,place⟩ := ih (base + header + e.room)
      refine ⟨e :: front,back,rfl,List.forall_mem_cons.mpr ⟨here,used⟩,?_⟩
      rw [if_pos here,place,span_cons]
      omega
    · exact ⟨[],e :: rest,rfl,List.forall_mem_nil _,if_neg here⟩
/-- Nothing behind a free extent matters. -/
theorem lowest_congr (free : e.used = false) (free' : d.used = false) :
    lowest header base (front ++ e :: back) = lowest header base (front ++ d :: extents) := by
  induction front generalizing base with
  | nil => simp [lowest,free,free']
  | cons c rest ih =>
    rw [List.cons_append,List.cons_append,lowest,lowest,ih]
theorem lowest_le (header base : Nat) (front back : List Extent) (free : e.used = false) :
    lowest header base (front ++ e :: back) ≤ base + span header front := by
  by_cases used : ∀ d ∈ front, d.used = true
  · rw [lowest_append_used used,lowest,if_neg (by simp [free])]
  · obtain ⟨same,bound⟩ := lowest_append_free header base used (e :: back)
    omega
theorem le_lowest : base ≤ lowest header base extents := by
  induction extents generalizing base with
  | nil => exact le_rfl
  | cons e rest ih =>
    rw [lowest]
    split
    · have above : base + header + e.room ≤ lowest header (base + header + e.room) rest := ih
      omega
    · exact le_rfl

end FirstFit
end Net2Modbus
