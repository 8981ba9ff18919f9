import Net2Modbus.HeapLayout

/-!
# The users of the heap

The blocks that are held, by their addresses and sizes, and what those who hold them do:
they ask for more, give back what they have, and write into it. As long as they stay inside
of their blocks the heap gives what a first-fit allocator gives, and what one of them holds is
not given to another.
-/
namespace Net2Modbus
open FirstFit

structure Memory where
  heap : Heap
  held : List (Nat × Nat)

/-- The memory after `mem_init`. -/
def Memory.init (ram : Nat → UInt8) : Memory := ⟨memInit ram,[]⟩
def freshExtents : List Extent := [⟨memSizeAligned - sizeofStructMem,false⟩]

/-- `mem_malloc`, with the address that it returns. -/
def Memory.malloc (size : UInt16) (m : Memory) : Option (Memory × Option Nat) :=
  match m.heap.memMalloc size with
  | none => none
  | some (heap,none) => some ({ m with heap },none)
  | some (heap,some p) => some (⟨heap,(p,(mallocSize size).getD 0) :: m.held⟩,some p)
def Memory.free (p : Nat) (m : Memory) : Memory := ⟨m.heap.memFree p,m.held.filter (·.1 ≠ p)⟩
def Memory.write (a : Nat) (bytes : List UInt8) (m : Memory) : Memory := { m with heap := m.heap.write a bytes }

/-- What a user of the heap does. -/
inductive HeapCall
  | malloc (size : UInt16)
  | free (p : Nat)
  | write (p offset : Nat) (bytes : List UInt8)
  deriving DecidableEq, Repr

/-- Users give back and write what is held. -/
def HeapCall.Legal (m : Memory) : HeapCall → Prop
  | .malloc _ => True
  | .free p => ∃ b ∈ m.held, b.1 = p
  | .write p offset bytes => ∃ b ∈ m.held, b.1 = p ∧ offset + bytes.length ≤ b.2

instance (m : Memory) (c : HeapCall) : Decidable (c.Legal m) :=
  match c with
  | .malloc _ => isTrue trivial
  | .free _ | .write _ _ _ => inferInstanceAs (Decidable (∃ b ∈ _, _))

/-- The memory after a call, if the call comes back. -/
def HeapCall.carryOut (m : Memory) : HeapCall → Option Memory
  | .malloc size => (m.malloc size).map Prod.fst
  | .free p => some (m.free p)
  | .write p offset bytes => some (m.write (p + offset) bytes)
def HeapCall.onExtents (extents : List Extent) : HeapCall → List Extent
  | .malloc size => (mallocExtents size extents).elim extents Prod.snd
  | .free p => release sizeofStructMem (p - sizeofStructMem) 0 extents
  | .write _ _ _ => extents

/-- Several calls, each of them legal when it is made. -/
def LegalCalls : List HeapCall → Memory → Prop
  | [],_ => True
  | c :: rest,m => c.Legal m ∧ ∀ m', c.carryOut m = some m' → LegalCalls rest m'
def carryOutAll : List HeapCall → Memory → Option Memory
  | [],m => some m
  | c :: rest,m => (c.carryOut m).bind (carryOutAll rest)

/-- The memory is that of a first-fit allocator, and the blocks that are held are used extents,
    each held once. -/
structure Memory.Kept (m : Memory) (extents : List Extent) : Prop where
  lays : m.heap.Lays extents
  held : ∀ b ∈ m.held, ∃ place, b.1 = place + sizeofStructMem ∧ Holds sizeofStructMem place b.2 0 extents
  apart : (m.held.map Prod.fst).Nodup

section
variable {m : Memory} {extents : List Extent} {p n : Nat} {size : UInt16} {bytes : List UInt8}

theorem init_kept (ram : Nat → UInt8) : (Memory.init ram).Kept freshExtents :=
  ⟨memInit_lays ram,fun _ mem => absurd mem List.not_mem_nil,List.nodup_nil⟩

theorem mallocExtents_some {place : Nat} {extents' : List Extent}
    (taken : mallocExtents size extents = some (place,extents')) :
    ∃ n, mallocSize size = some n ∧ take sizeofStructMem minSizeAligned n 0 extents = some (place,extents') := by
  obtain ⟨n,asked,found⟩ := Option.bind_eq_some_iff.mp taken
  exact ⟨n,asked,found⟩

/-- A request comes back with what first fit takes, and nothing that is held changes hands. -/
theorem Memory.Kept.malloc (kept : m.Kept extents) (size : UInt16) :
    match mallocExtents size extents with
    | none => ∃ m', m.malloc size = some (m',none) ∧ m'.Kept extents ∧ m'.held = m.held
    | some (place,extents') => ∃ m', m.malloc size = some (m',some (place + sizeofStructMem)) ∧ m'.Kept extents' ∧
        m'.held = (place + sizeofStructMem,(mallocSize size).getD 0) :: m.held := by
  obtain ⟨heap,done,lays⟩ := kept.lays.memMalloc size
  unfold Memory.malloc
  rw [done]
  cases taken : mallocExtents size extents with
  | none =>
    rw [taken] at lays
    exact ⟨{ m with heap },rfl,⟨lays,kept.held,kept.apart⟩,rfl⟩
  | some found =>
    obtain ⟨place,extents'⟩ := found
    rw [taken] at lays
    obtain ⟨n,asked,found⟩ := mallocExtents_some taken
    have positive : 0 < sizeofStructMem := by decide
    refine ⟨⟨heap,_⟩,rfl,⟨lays,?_,?_⟩,rfl⟩
    · intro b mem
      rcases List.mem_cons.mp mem with rfl | old
      · rw [asked]
        exact ⟨place,rfl,take_holds found⟩
      · obtain ⟨place',here,holds⟩ := kept.held b old
        exact ⟨place',here,(holds.take positive found).1⟩
    · rw [List.map_cons,List.nodup_cons]
      refine ⟨?_,kept.apart⟩
      intro again
      obtain ⟨b,old,same⟩ := List.mem_map.mp again
      obtain ⟨place',here,holds⟩ := kept.held b old
      have other := (holds.take positive found).2
      dsimp only at same
      omega
theorem Memory.Kept.free (kept : m.Kept extents) (held : ∃ b ∈ m.held, b.1 = p) :
    (m.free p).Kept (release sizeofStructMem (p - sizeofStructMem) 0 extents) := by
  obtain ⟨b,mem,rfl⟩ := held
  obtain ⟨place,here,holds⟩ := kept.held b mem
  rw [here,Nat.add_sub_cancel]
  refine ⟨?_,?_,?_⟩
  · obtain ⟨front,e,back,rfl,at_,used,-⟩ := holds.split
    rw [Nat.zero_add] at at_
    subst at_
    exact kept.lays.memFree used
  · intro c old
    obtain ⟨old,other⟩ := List.mem_filter.mp old
    obtain ⟨place',here',holds'⟩ := kept.held c old
    refine ⟨place',here',holds'.release ?_⟩
    rintro rfl
    simp [here'] at other
  · exact (List.filter_sublist.map Prod.fst).nodup kept.apart
theorem Memory.Kept.write {offset : Nat} (kept : m.Kept extents)
    (held : ∃ b ∈ m.held, b.1 = p ∧ offset + bytes.length ≤ b.2) : (m.write (p + offset) bytes).Kept extents := by
  obtain ⟨b,mem,rfl,inside⟩ := held
  obtain ⟨place,here,holds⟩ := kept.held b mem
  refine ⟨?_,kept.held,kept.apart⟩
  rw [here]
  exact kept.lays.write holds inside

/-- What one call keeps. -/
theorem Memory.Kept.call (kept : m.Kept extents) (c : HeapCall) (legal : c.Legal m) :
    ∃ m', c.carryOut m = some m' ∧ m'.Kept (c.onExtents extents) := by
  cases c with
  | malloc size =>
    have done := kept.malloc size
    rw [HeapCall.onExtents]
    cases taken : mallocExtents size extents with
    | none =>
      rw [taken] at done
      obtain ⟨m',came,kept',-⟩ := done
      exact ⟨m',by rw [HeapCall.carryOut,came]; rfl,kept'⟩
    | some found =>
      rw [taken] at done
      obtain ⟨m',came,kept',-⟩ := done
      exact ⟨m',by rw [HeapCall.carryOut,came]; rfl,kept'⟩
  | free p => exact ⟨_,rfl,kept.free legal⟩
  | write p offset bytes => exact ⟨_,rfl,kept.write legal⟩
/-- What several calls keep; a block that none of them gives back stays with who holds it. -/
theorem Memory.Kept.calls {calls : List HeapCall} (kept : m.Kept extents) (legal : LegalCalls calls m) :
    ∃ m', carryOutAll calls m = some m' ∧ m'.Kept (calls.foldl HeapCall.onExtents extents) ∧
      ∀ b ∈ m.held, .free b.1 ∉ calls → b ∈ m'.held := by
  induction calls generalizing m extents with
  | nil => exact ⟨m,rfl,kept,fun _ mem _ => mem⟩
  | cons c rest ih =>
    obtain ⟨now,later⟩ := legal
    obtain ⟨m',came,kept'⟩ := kept.call c now
    obtain ⟨last,ends,keeps,stays⟩ := ih kept' (later m' came)
    refine ⟨last,by rw [carryOutAll,came]; exact ends,keeps,?_⟩
    intro b mem never
    obtain ⟨first,others⟩ := not_or.mp (mt List.mem_cons.mpr never)
    refine stays b ?_ others
    cases c with
    | malloc size =>
      have done := kept.malloc size
      obtain ⟨⟨_,_⟩,called,rfl⟩ := Option.map_eq_some_iff.mp came
      split at done
      · obtain ⟨_,same,-,held⟩ := done
        rw [called] at same
        obtain ⟨rfl,-⟩ := Prod.mk.inj (Option.some.inj same)
        exact held ▸ mem
      · obtain ⟨_,same,-,held⟩ := done
        rw [called] at same
        obtain ⟨rfl,-⟩ := Prod.mk.inj (Option.some.inj same)
        exact held ▸ List.mem_cons_of_mem _ mem
    | free p =>
      obtain rfl := Option.some.inj came
      refine List.mem_filter.mpr ⟨mem,?_⟩
      simp only [ne_eq,decide_not,Bool.not_eq_true',decide_eq_false_iff_not]
      rintro rfl
      exact first rfl
    | write p offset bytes =>
      obtain rfl := Option.some.inj came
      exact mem

/-- Blocks are aligned. -/
theorem Memory.Kept.aligned {b : Nat × Nat} (kept : m.Kept extents) (mem : b ∈ m.held) : 4 ∣ b.1 := by
  obtain ⟨place,here,holds⟩ := kept.held b mem
  obtain ⟨front,e,back,rfl,at_,-,-⟩ := holds.split
  have all (part : List Extent) (sized : ∀ e ∈ part, e.Sized) : 4 ∣ span sizeofStructMem part := by
    induction part with
    | nil => exact Nat.dvd_zero 4
    | cons d rest ih =>
      obtain ⟨⟨-,four⟩,others⟩ := List.forall_mem_cons.mp sized
      have := ih others
      rw [span_cons]
      obtain ⟨s8,-⟩ := heapSizes
      omega
  have before := all front fun d there => kept.lays.sized d (List.mem_append_left _ there)
  obtain ⟨s8,-⟩ := heapSizes
  omega

end
end Net2Modbus
