import Net2Modbus.Heap

/-!
# The heap as extents

The links of the heap against a first-fit allocator over a list of extents: `mem_malloc`
takes what the allocator takes and always comes back, and `mem_free` releases what the
allocator releases. Whoever writes into the blocks that it holds leaves the links alone.
-/
namespace Net2Modbus
open FirstFit

/-- The `struct mem` of an extent. -/
structure Heap.Heads (h : Heap) (prev place : Nat) (e : Extent) : Prop where
  next : (h.mem place).next.toNat = place + sizeofStructMem + e.room
  prev : (h.mem place).prev.toNat = prev
  used : (h.mem place).used = 0 ↔ e.used = false

/-- Extents one behind the other from a place on. -/
def Heap.Tiled (h : Heap) : Nat → Nat → List Extent → Prop
  | _,_,[] => True
  | prev,place,e :: rest => h.Heads prev place e ∧ h.Tiled place (place + sizeofStructMem + e.room) rest

/-- The place of the last extent of some. -/
def lastPlace : Nat → Nat → List Extent → Nat
  | prev,_,[] => prev
  | _,place,e :: rest => lastPlace place (place + sizeofStructMem + e.room) rest

/-- A room that a block can have. -/
def Extent.Sized (e : Extent) : Prop := minSizeAligned ≤ e.room ∧ 4 ∣ e.room

/-- The heap is cut into extents. -/
structure Heap.Cut (h : Heap) (extents : List Extent) : Prop where
  tiled : h.Tiled 0 0 extents
  whole : span sizeofStructMem extents = memSizeAligned
  sized : ∀ e ∈ extents, e.Sized

/-- The heap is cut into extents, and it knows the lowest free one. -/
structure Heap.Lays (h : Heap) (extents : List Extent) : Prop extends h.Cut extents where
  lowest : h.lfree = FirstFit.lowest sizeofStructMem 0 extents

theorem heapSizes : sizeofStructMem = 8 ∧ memSizeAligned = 6144 ∧ minSizeAligned = 12 ∧ memFuel = 769 := ⟨rfl,rfl,rfl,rfl⟩

section
variable {h h' : Heap} {prev prev' place n : Nat} {extents front back : List Extent} {e d : Extent}

theorem tiled_append :
    h.Tiled prev place (front ++ back) ↔
      h.Tiled prev place front ∧ h.Tiled (lastPlace prev place front) (place + span sizeofStructMem front) back := by
  induction front generalizing prev place with
  | nil => simp [Heap.Tiled,lastPlace]
  | cons e rest ih =>
    rw [List.cons_append,Heap.Tiled,Heap.Tiled,ih,lastPlace,span_cons,and_assoc,
      show place + sizeofStructMem + e.room + span sizeofStructMem rest =
        place + (sizeofStructMem + e.room + span sizeofStructMem rest) by omega]
theorem Heap.Heads.congr (heads : h.Heads prev place e) (same : h'.mem place = h.mem place) : h'.Heads prev place e := by
  obtain ⟨next,prev,used⟩ := heads
  constructor
  all_goals rwa [same]
/-- The extents stay while their headers do. -/
theorem Heap.Tiled.congr (tiled : h.Tiled prev place extents)
    (same : ∀ q, place ≤ q → q + sizeofStructMem ≤ place + span sizeofStructMem extents → h'.mem q = h.mem q) :
    h'.Tiled prev place extents := by
  induction extents generalizing prev place with
  | nil => trivial
  | cons e rest ih =>
    rw [span_cons] at same
    refine ⟨tiled.1.congr (same place le_rfl (by omega)),ih tiled.2 ?_⟩
    intro q above below
    exact same q (by omega) (by omega)
/-- Only the link back of the first header changes. -/
theorem Heap.Tiled.relink (tiled : h.Tiled prev place extents)
    (same : ∀ q, place + sizeofStructMem ≤ q → q + sizeofStructMem ≤ place + span sizeofStructMem extents → h'.mem q = h.mem q)
    (first : extents ≠ [] → ∃ link, h'.mem place = { h.mem place with prev := link } ∧ link.toNat = prev') :
    h'.Tiled prev' place extents := by
  cases extents with
  | nil => trivial
  | cons e rest =>
    obtain ⟨⟨next,-,used⟩,later⟩ := tiled
    obtain ⟨link,here,back⟩ := first (List.cons_ne_nil _ _)
    rw [span_cons] at same
    refine ⟨⟨?_,?_,?_⟩,later.congr ?_⟩
    · rwa [here]
    · rwa [here]
    · rwa [here]
    · intro q above below
      exact same q (by omega) (by omega)

theorem Heap.Cut.few (cut : h.Cut extents) : extents.length < memFuel := by
  have rooms : extents.length * (sizeofStructMem + minSizeAligned) ≤ span sizeofStructMem extents :=
    length_le_span _ fun e mem => (cut.sized e mem).1
  obtain ⟨s8,s6144,s12,fuel⟩ := heapSizes
  rw [cut.whole,s8,s12,s6144] at rooms
  omega

/-- Some extents become others in the same place. -/
theorem Heap.Cut.replace (old new : List Extent) (cut : h.Cut (front ++ (old ++ back)))
    (total : span sizeofStructMem new = span sizeofStructMem old) (sized : ∀ e ∈ new, e.Sized)
    (ahead : ∀ q, q + sizeofStructMem ≤ span sizeofStructMem front → h'.mem q = h.mem q)
    (here : h'.Tiled (lastPlace 0 0 front) (span sizeofStructMem front) new)
    (behind : h.Tiled (lastPlace (lastPlace 0 0 front) (span sizeofStructMem front) old)
        (span sizeofStructMem front + span sizeofStructMem old) back →
      h'.Tiled (lastPlace (lastPlace 0 0 front) (span sizeofStructMem front) new)
        (span sizeofStructMem front + span sizeofStructMem old) back) :
    h'.Cut (front ++ (new ++ back)) := by
  obtain ⟨tiled,whole,sized'⟩ := cut
  obtain ⟨before,rest⟩ := tiled_append.mp tiled
  obtain ⟨-,after⟩ := tiled_append.mp rest
  obtain ⟨sized1,sized2⟩ := List.forall_mem_append.mp sized'
  obtain ⟨-,sized3⟩ := List.forall_mem_append.mp sized2
  rw [Nat.zero_add] at after
  refine ⟨tiled_append.mpr ⟨before.congr ?_,tiled_append.mpr ⟨?_,?_⟩⟩,?_,?_⟩
  · intro q _ below
    exact ahead q (by rwa [Nat.zero_add] at below)
  · rwa [Nat.zero_add]
  · rw [Nat.zero_add,total]
    exact behind after
  · simpa [total] using whole
  · exact List.forall_mem_append.mpr ⟨sized1,List.forall_mem_append.mpr ⟨sized,sized3⟩⟩
/-- The first header of the extents behind some. -/
theorem Heap.Cut.heads (cut : h.Cut (front ++ e :: back)) :
    h.Heads (lastPlace 0 0 front) (span sizeofStructMem front) e ∧ e.Sized ∧
      span sizeofStructMem front + sizeofStructMem + e.room + span sizeofStructMem back = memSizeAligned := by
  obtain ⟨tiled,whole,sized⟩ := cut
  have heads := (tiled_append.mp tiled).2.1
  rw [Nat.zero_add] at heads
  simp only [span_append,span_cons] at whole
  exact ⟨heads,sized e (by simp),by omega⟩

/-- What `join` does to the headers. -/
theorem join_mem {p q r : Nat} (next : (h.mem q).next.toNat = r) (before : p + 5 ≤ q) (behind : q + 5 ≤ r) :
    (h.join p q).mem p = { h.mem p with next := (h.mem q).next } ∧
      (h.join p q).mem r = { h.mem r with prev := UInt16.ofNat p } ∧
      ∀ a, (a + 5 ≤ p ∨ p + 5 ≤ a) → (a + 5 ≤ r ∨ r + 5 ≤ a) → (h.join p q).mem a = h.mem a := by
  have kept : ((h.setMem p { h.mem p with next := (h.mem q).next }).mem q).next.toNat = r := by
    rw [mem_setMem_apart (.inr before),next]
  simp only [Heap.join,kept]
  refine ⟨?_,?_,?_⟩
  · rw [mem_setMem_apart (by omega),mem_setMem]
  · rw [mem_setMem,mem_setMem_apart (by omega)]
  · intro a apart apart'
    rw [mem_setMem_apart (by omega),mem_setMem_apart (by omega)]
@[simp] theorem join_lfree {p q : Nat} : (h.join p q).lfree = h.lfree := rfl
/-- Two free blocks become one, by either half of `plug_holes`. -/
theorem Heap.Cut.join (cut : h.Cut (front ++ e :: d :: back)) (free : e.used = false) :
    (h.join (span sizeofStructMem front) (span sizeofStructMem front + sizeofStructMem + e.room)).Cut
      (front ++ ⟨e.room + sizeofStructMem + d.room,false⟩ :: back) := by
  obtain ⟨heads,⟨least,four⟩,whole⟩ := cut.heads
  obtain ⟨⟨next,-,-⟩,⟨least',four'⟩⟩ : h.Heads (span sizeofStructMem front) (span sizeofStructMem front + sizeofStructMem +
      e.room) d ∧ d.Sized := by
    have there := (tiled_append.mp cut.tiled).2.2.1
    rw [Nat.zero_add] at there
    exact ⟨there,cut.sized d (by simp)⟩
  obtain ⟨s8,s6144,s12,-⟩ := heapSizes
  rw [span_cons] at whole
  obtain ⟨atP,atR,kept⟩ := join_mem (p := span sizeofStructMem front) next (by omega) (by omega)
  refine Heap.Cut.replace [e,d] [⟨e.room + sizeofStructMem + d.room,false⟩] cut ?_ ?_ ?_ ⟨⟨?_,?_,?_⟩,trivial⟩ ?_
  · simp only [span_cons,span_nil]
    omega
  · rintro c mem
    obtain rfl := List.mem_singleton.mp mem
    exact ⟨by dsimp only; omega,by dsimp only; omega⟩
  · intro q below
    exact kept q (by omega) (by omega)
  · rw [atP,next]
    dsimp only
    omega
  · rw [atP,heads.prev]
  · rw [atP]
    exact heads.used.trans (by simp [free])
  · rw [show span sizeofStructMem front + span sizeofStructMem [e,d] =
      span sizeofStructMem front + sizeofStructMem + e.room + sizeofStructMem + d.room by
        simp only [span_cons,span_nil]; omega]
    intro behind
    refine behind.relink ?_ fun _ => ⟨_,atR,?_⟩
    · intro q above _
      exact kept q (by omega) (by omega)
    · exact UInt16.toNat_ofNat_of_lt' (by simp only [UInt16.size]; omega)

/-- A header whose mark alone is set. -/
theorem Heap.Cut.mark (cut : h.Cut (front ++ e :: back)) {mark : UInt8} {used : Bool} (same : mark = 0 ↔ used = false) :
    (h.setMem (span sizeofStructMem front) { h.mem (span sizeofStructMem front) with used := mark }).Cut
      (front ++ ⟨e.room,used⟩ :: back) := by
  obtain ⟨heads,size,-⟩ := cut.heads
  obtain ⟨s8,-⟩ := heapSizes
  refine Heap.Cut.replace [e] [⟨e.room,used⟩] cut rfl ?_ ?_ ⟨⟨?_,?_,?_⟩,trivial⟩ ?_
  · rintro c mem
    obtain rfl := List.mem_singleton.mp mem
    exact size
  · intro q below
    exact mem_setMem_apart (by omega)
  · rw [mem_setMem,heads.next]
  · rw [mem_setMem,heads.prev]
  · rwa [mem_setMem]
  · intro behind
    refine behind.congr ?_
    intro q above _
    rw [span_cons] at above
    exact mem_setMem_apart (by omega)
theorem Heap.Cut.lfree (cut : h.Cut extents) (lfree : Nat) : Heap.Cut { h with lfree } extents :=
  ⟨cut.tiled.congr fun _ _ _ => mem_lfree _,cut.whole,cut.sized⟩
theorem Heap.Lays.unuse (lays : h.Lays (front ++ e :: back)) (used : e.used = true) :
    (h.unuse (span sizeofStructMem front)).Lays (front ++ ⟨e.room,false⟩ :: back) := by
  refine ⟨(lays.toCut.mark (iff_of_true rfl rfl)).lfree _,?_⟩
  have low : (h.unuse (span sizeofStructMem front)).lfree =
      if span sizeofStructMem front < h.lfree then span sizeofStructMem front else h.lfree := rfl
  obtain ⟨s8,-⟩ := heapSizes
  rw [low,lays.lowest]
  by_cases all : ∀ d ∈ front, d.used = true
  · have above : span sizeofStructMem front + sizeofStructMem + e.room ≤
        FirstFit.lowest sizeofStructMem (span sizeofStructMem front + sizeofStructMem + e.room) back := le_lowest
    have before : FirstFit.lowest sizeofStructMem 0 (front ++ e :: back) =
        FirstFit.lowest sizeofStructMem (span sizeofStructMem front + sizeofStructMem + e.room) back := by
      rw [lowest_append_used all,Nat.zero_add,FirstFit.lowest,if_pos used]
    have after : FirstFit.lowest sizeofStructMem 0 (front ++ ⟨e.room,false⟩ :: back) = span sizeofStructMem front := by
      rw [lowest_append_used all,Nat.zero_add]
      rfl
    rw [before,after,if_pos (by omega)]
  · obtain ⟨same,bound⟩ := lowest_append_free sizeofStructMem 0 all (e :: back)
    obtain ⟨same',-⟩ := lowest_append_free sizeofStructMem 0 all (⟨e.room,false⟩ :: back)
    rw [same,same',if_neg (by omega)]

theorem Heap.Lays.plugForward (lays : h.Lays (front ++ e :: back)) (free : e.used = false) :
    (h.plugForward (span sizeofStructMem front)).Lays (front ++ merge sizeofStructMem (e :: back)) := by
  obtain ⟨ahead,heads,behind⟩ := tiled_append.mp lays.tiled
  obtain ⟨s8,s6144,-⟩ := heapSizes
  have whole := lays.whole
  have low := lowest_le sizeofStructMem 0 front back free
  rw [← lays.lowest] at low
  simp only [span_append,span_cons,Nat.zero_add] at whole heads behind low
  unfold Heap.plugForward
  rw [heads.next]
  cases back with
  | nil =>
    rw [span_nil] at whole
    rw [if_neg (by omega),merge_single]
    exact lays
  | cons d back =>
    rw [span_cons] at whole
    by_cases used : d.used = true
    · have there : (h.mem (span sizeofStructMem front + sizeofStructMem + e.room)).used ≠ 0 := by
        simp [behind.1.used,used]
      rw [if_neg (fun both => there both.2.1),merge_before_used used]
      exact lays
    · have free' : d.used = false := by simpa using used
      rw [if_pos ⟨by omega,behind.1.used.mpr free',by omega⟩,if_neg (by omega),merge_free free free']
      refine ⟨lays.toCut.join free,?_⟩
      rw [join_lfree,lays.lowest]
      exact lowest_congr free rfl
theorem Heap.Lays.plugBackward (lays : h.Lays (front ++ d :: e :: back)) (free : e.used = false) :
    (h.plugBackward (span sizeofStructMem front + sizeofStructMem + d.room)).Lays
      (front ++ merge sizeofStructMem (d :: e :: back)) := by
  obtain ⟨ahead,heads,behind⟩ := tiled_append.mp lays.tiled
  obtain ⟨s8,-⟩ := heapSizes
  simp only [Nat.zero_add] at heads behind
  unfold Heap.plugBackward
  rw [behind.1.prev]
  by_cases used : d.used = true
  · have there : (h.mem (span sizeofStructMem front)).used ≠ 0 := by simp [heads.used,used]
    rw [if_neg (fun both => there both.2),merge_used used]
    exact lays
  · have free' : d.used = false := by simpa using used
    have low := lowest_le sizeofStructMem 0 front (e :: back) free'
    rw [← lays.lowest] at low
    rw [if_pos ⟨by omega,heads.used.mpr free'⟩,if_neg (by omega),merge_free free' free]
    refine ⟨lays.toCut.join free',?_⟩
    rw [join_lfree,lays.lowest]
    exact lowest_congr free' rfl
theorem plugBackward_first (lays : h.Lays (e :: back)) : h.plugBackward 0 = h := by
  have first := lays.tiled.1.prev
  unfold Heap.plugBackward
  rw [first]
  exact if_neg fun both => both.1 rfl

/-- `mem_free` releases a block that is used. -/
theorem Heap.Lays.memFree (lays : h.Lays (front ++ e :: back)) (used : e.used = true) :
    (h.memFree (span sizeofStructMem front + sizeofStructMem)).Lays
      (release sizeofStructMem (span sizeofStructMem front) 0 (front ++ e :: back)) := by
  obtain ⟨s8,s6144,s12,-⟩ := heapSizes
  have whole := lays.whole
  have size := (lays.sized e (by simp)).1
  simp only [span_append,span_cons] at whole
  have free := (lays.unuse used).plugForward rfl
  obtain ⟨c,back',merged,unused⟩ := merge_first (e := ⟨e.room,false⟩) sizeofStructMem rfl back
  rw [merged] at free
  rw [Heap.memFree,if_neg (by omega)]
  dsimp only
  rw [Nat.add_sub_cancel]
  rcases List.eq_nil_or_concat front with rfl | ⟨front,d,rfl⟩
  · rw [List.nil_append,span_nil,release_first,merged]
    have first := plugBackward_first (h := _) free
    rw [span_nil] at first free
    rwa [first]
  · rw [List.concat_eq_append] at free ⊢
    have place : span sizeofStructMem (front ++ [d]) = span sizeofStructMem front + sizeofStructMem + d.room := by
      simp only [span_append,span_cons,span_nil]
      omega
    have released := release_append (show 0 < sizeofStructMem by decide) 0 front d e back
    rw [merged,Nat.zero_add,← Nat.add_assoc] at released
    rw [place,List.append_assoc,List.singleton_append] at free ⊢
    rw [released]
    exact free.plugBackward unused

/-- What is left of the links when a block is split off. -/
theorem split_mem {ptr r : Nat} (next : (h.mem ptr).next.toNat = r)
    (room : ptr + sizeofStructMem + n + sizeofStructMem + minSizeAligned ≤ r) (large : minSizeAligned ≤ n) :
    (h.split n ptr).mem ptr = { h.mem ptr with next := UInt16.ofNat (ptr + sizeofStructMem + n), used := 1 } ∧
      (h.split n ptr).mem (ptr + sizeofStructMem + n) = ⟨(h.mem ptr).next,UInt16.ofNat ptr,0⟩ ∧
      (r ≠ memSizeAligned →
        (h.split n ptr).mem r = { h.mem r with prev := UInt16.ofNat (ptr + sizeofStructMem + n) }) ∧
      ∀ a, (a + sizeofStructMem ≤ ptr ∨ r + sizeofStructMem ≤ a) → (h.split n ptr).mem a = h.mem a := by
  obtain ⟨s8,s6144,s12,-⟩ := heapSizes
  have bound := (h.mem ptr).next.toNat_lt
  have user : h.userSize ptr = r - (ptr + sizeofStructMem) := by
    unfold Heap.userSize
    omega
  have place : (UInt16.ofNat (ptr + sizeofStructMem + n)).toNat = ptr + sizeofStructMem + n :=
    UInt16.toNat_ofNat_of_lt' (by simp only [UInt16.size]; omega)
  have next' : (((h.setMem (ptr + sizeofStructMem + n) ⟨(h.mem ptr).next,UInt16.ofNat ptr,0⟩).setMem ptr
      { (h.setMem (ptr + sizeofStructMem + n) ⟨(h.mem ptr).next,UInt16.ofNat ptr,0⟩).mem ptr with
        next := UInt16.ofNat (ptr + sizeofStructMem + n), used := 1 }).mem (ptr + sizeofStructMem + n)).next.toNat = r := by
    rw [mem_setMem_apart (by omega),mem_setMem,next]
  unfold Heap.split
  rw [if_pos (by omega)]
  simp only [place,next']
  split
  · rename_i away
    refine ⟨?_,?_,?_,?_⟩
    · rw [mem_setMem_apart (by omega),mem_setMem,mem_setMem_apart (by omega)]
    · rw [mem_setMem_apart (by omega),mem_setMem_apart (by omega),mem_setMem]
    · intro _
      rw [mem_setMem,mem_setMem_apart (by omega),mem_setMem_apart (by omega)]
    · intro a apart
      rw [mem_setMem_apart (by omega),mem_setMem_apart (by omega),mem_setMem_apart (by omega)]
  · rename_i atEnd
    refine ⟨?_,?_,?_,?_⟩
    · rw [mem_setMem,mem_setMem_apart (by omega)]
    · rw [mem_setMem_apart (by omega),mem_setMem]
    · intro away
      exact absurd away atEnd
    · intro a apart
      rw [mem_setMem_apart (by omega),mem_setMem_apart (by omega)]
@[simp] theorem split_lfree {ptr : Nat} : (h.split n ptr).lfree = h.lfree := by
  unfold Heap.split
  split
  · dsimp only
    split <;> rfl
  · rfl
theorem Heap.Cut.split (cut : h.Cut (front ++ e :: back)) (fit : Fits n e) (size : minSizeAligned ≤ n) (four : 4 ∣ n) :
    (h.split n (span sizeofStructMem front)).Cut (front ++ (carve sizeofStructMem minSizeAligned n e ++ back)) := by
  obtain ⟨heads,⟨least,four'⟩,whole⟩ := cut.heads
  obtain ⟨s8,s6144,s12,-⟩ := heapSizes
  have user : h.userSize (span sizeofStructMem front) = e.room := by
    unfold Heap.userSize
    rw [heads.next]
    omega
  have total := carve_span sizeofStructMem minSizeAligned fit
  unfold carve at total ⊢
  by_cases room : n + sizeofStructMem + minSizeAligned ≤ e.room
  · rw [if_pos room] at total ⊢
    obtain ⟨first,second,link,kept⟩ := split_mem heads.next (by omega) size
    have place : (UInt16.ofNat (span sizeofStructMem front + sizeofStructMem + n)).toNat =
        span sizeofStructMem front + sizeofStructMem + n := UInt16.toNat_ofNat_of_lt' (by simp only [UInt16.size]; omega)
    refine Heap.Cut.replace [e] _ cut total ?_ ?_ ⟨⟨?_,?_,?_⟩,⟨?_,?_,?_⟩,trivial⟩ ?_
    · refine List.forall_mem_cons.mpr ⟨⟨size,four⟩,List.forall_mem_singleton.mpr ⟨?_,?_⟩⟩
      · dsimp only
        omega
      · dsimp only
        omega
    · intro q below
      exact kept q (by omega)
    · rw [first]
      exact place
    · rw [first,heads.prev]
    · rw [first]
      exact iff_of_false (by decide : (1 : UInt8) ≠ 0) (by simp)
    · dsimp only
      rw [second,heads.next]
      omega
    · dsimp only
      rw [second]
      exact UInt16.toNat_ofNat_of_lt' (by simp only [UInt16.size]; omega)
    · dsimp only
      rw [second]
      exact iff_of_true rfl rfl
    · rw [span_cons,span_nil,Nat.add_zero,← Nat.add_assoc]
      intro behind
      refine behind.relink ?_ ?_
      · intro q above _
        exact kept q (by omega)
      · intro some_
        refine ⟨_,link ?_,place⟩
        cases back with
        | nil => contradiction
        | cons d rest =>
          rw [span_cons] at whole
          omega
  · have near : h.split n (span sizeofStructMem front) = h.setMem (span sizeofStructMem front)
        { h.mem (span sizeofStructMem front) with used := 1 } := by
      unfold Heap.split
      exact if_neg (by omega)
    rw [if_neg room,near]
    exact cut.mark (iff_of_false (by decide) (by simp))

/-- The search comes to what first fit takes. -/
theorem Heap.Tiled.scan {fuel : Nat} (tiled : h.Tiled prev place extents)
    (whole : place + span sizeofStructMem extents = memSizeAligned) (enough : extents.length < fuel) :
    h.scan n fuel place = some ((take sizeofStructMem minSizeAligned n place extents).map Prod.fst) := by
  obtain ⟨s8,s6144,-⟩ := heapSizes
  induction extents generalizing prev place fuel with
  | nil =>
    obtain ⟨fuel,rfl⟩ : ∃ more, fuel = more + 1 := ⟨fuel - 1,by simp at enough; omega⟩
    rw [span_nil] at whole
    exact if_neg (by omega)
  | cons e rest ih =>
    obtain ⟨fuel,rfl⟩ : ∃ more, fuel = more + 1 := ⟨fuel - 1,by simp at enough; omega⟩
    obtain ⟨heads,later⟩ := tiled
    rw [span_cons] at whole
    have user : h.userSize place = e.room := by
      unfold Heap.userSize
      rw [heads.next]
      omega
    have fits : ((h.mem place).used = 0 ∧ n ≤ h.userSize place) ↔ Fits n e := by
      rw [user]
      exact and_congr_left' heads.used
    rw [Heap.scan,take]
    by_cases fit : Fits n e
    · have large := fit.2
      rw [if_pos (by omega),if_pos (fits.mpr fit),if_pos fit]
      rfl
    · rw [if_neg fit]
      by_cases inside : place < memSizeAligned - n
      · rw [if_pos inside,if_neg (mt fits.mp fit),heads.next,ih later (by omega) (by simpa using enough),Option.map_map]
        rfl
      · rw [if_neg inside,take_none]
        · rfl
        · rintro d mem ⟨-,large⟩
          have := room_le_span sizeofStructMem mem
          omega
theorem Heap.Lays.scan (lays : h.Lays extents) :
    h.scan n memFuel h.lfree = some ((take sizeofStructMem minSizeAligned n 0 extents).map Prod.fst) := by
  obtain ⟨front,back,rfl,used,low⟩ := lowest_split sizeofStructMem 0 extents
  obtain ⟨-,behind⟩ := tiled_append.mp lays.tiled
  have whole := lays.whole
  have few := lays.few
  rw [span_append] at whole
  rw [List.length_append] at few
  rw [lays.lowest,low,behind.scan (by omega) (by omega),take_append_used used,Option.map_map]
  rfl
theorem Heap.Tiled.nextFree {fuel : Nat} (tiled : h.Tiled prev place extents)
    (whole : place + span sizeofStructMem extents = memSizeAligned) (enough : extents.length < fuel) :
    h.nextFree fuel place = some (FirstFit.lowest sizeofStructMem place extents) := by
  obtain ⟨s8,s6144,-⟩ := heapSizes
  induction extents generalizing prev place fuel with
  | nil =>
    obtain ⟨fuel,rfl⟩ : ∃ more, fuel = more + 1 := ⟨fuel - 1,by simp at enough; omega⟩
    rw [span_nil] at whole
    exact if_neg fun both => both.2 whole
  | cons e rest ih =>
    obtain ⟨fuel,rfl⟩ : ∃ more, fuel = more + 1 := ⟨fuel - 1,by simp at enough; omega⟩
    obtain ⟨heads,later⟩ := tiled
    rw [span_cons] at whole
    rw [Heap.nextFree,FirstFit.lowest]
    by_cases used : e.used = true
    · have mark : (h.mem place).used ≠ 0 := by simp [heads.used,used]
      rw [if_pos ⟨mark,by omega⟩,if_pos used,heads.next,ih later (by omega) (by simpa using enough)]
    · have mark : (h.mem place).used = 0 := heads.used.mpr (by simpa using used)
      rw [if_neg (fun both => both.1 mark),if_neg used]

/-- First fit on the extents, for the sizes that `mem_malloc` takes. -/
def mallocExtents (size : UInt16) (extents : List Extent) : Option (Nat × List Extent) :=
  (mallocSize size).bind fun n => take sizeofStructMem minSizeAligned n 0 extents

theorem mallocSize_spec {size : UInt16} (asked : mallocSize size = some n) : minSizeAligned ≤ n ∧ 4 ∣ n := by
  unfold mallocSize at asked
  obtain ⟨-,-,s12,-⟩ := heapSizes
  split at asked
  · contradiction
  · dsimp only at asked
    split at asked
    · contradiction
    · obtain rfl := Option.some.inj asked
      unfold lwipMemAlignSize
      omega
/-- `mem_malloc` comes back, with what first fit takes. -/
theorem Heap.Lays.memMalloc (lays : h.Lays extents) (size : UInt16) :
    ∃ h', h.memMalloc size = some (h',(mallocExtents size extents).map fun found => found.1 + sizeofStructMem) ∧
      h'.Lays ((mallocExtents size extents).elim extents Prod.snd) := by
  unfold Heap.memMalloc mallocExtents
  cases asked : mallocSize size with
  | none => exact ⟨h,rfl,lays⟩
  | some n =>
    obtain ⟨least,four⟩ := mallocSize_spec asked
    simp only [Option.bind_some,lays.scan]
    obtain none | ⟨front,e,back,rfl,fit,before⟩ := fit_cases n extents
    · rw [take_none none]
      exact ⟨h,rfl,lays⟩
    · rw [take_append fit before,Nat.zero_add,List.append_assoc]
      have cut := lays.toCut.split fit least four
      have few := cut.few
      have whole := cut.whole
      have low := lays.lowest
      simp only [Option.map_some,Option.elim_some,split_lfree]
      by_cases all : ∀ d ∈ front, d.used = true
      · rw [lowest_append_used all,Nat.zero_add,FirstFit.lowest,if_neg (by simp [fit.1])] at low
        obtain ⟨-,behind⟩ := tiled_append.mp cut.tiled
        rw [span_append] at whole
        rw [List.length_append] at few
        have next := behind.nextFree (by omega) (show _ < memFuel by omega)
        rw [Nat.zero_add] at next
        rw [if_pos low.symm,low,next]
        refine ⟨_,rfl,⟨cut.lfree _,?_⟩⟩
        rw [lowest_append_used all,Nat.zero_add]
      · obtain ⟨same,bound⟩ := lowest_append_free sizeofStructMem 0 all (e :: back)
        obtain ⟨same',-⟩ := lowest_append_free sizeofStructMem 0 all (carve sizeofStructMem minSizeAligned n e ++ back)
        obtain ⟨s8,-⟩ := heapSizes
        rw [if_neg (by omega)]
        refine ⟨_,rfl,⟨cut,?_⟩⟩
        rw [split_lfree,low,same,same']

/-- What is written into a block that is held leaves the links alone. -/
theorem Heap.Lays.write {p offset m : Nat} {bytes : List UInt8} (lays : h.Lays extents)
    (holds : Holds sizeofStructMem p m 0 extents) (inside : offset + bytes.length ≤ m) :
    (h.write (p + sizeofStructMem + offset) bytes).Lays extents := by
  obtain ⟨front,e,back,rfl,place,-,room⟩ := holds.split
  obtain ⟨ahead,heads,behind⟩ := tiled_append.mp lays.tiled
  obtain ⟨s8,-⟩ := heapSizes
  simp only [Nat.zero_add] at place behind heads
  refine ⟨⟨tiled_append.mpr ⟨ahead.congr ?_,?_,?_⟩,lays.whole,lays.sized⟩,lays.lowest⟩
  · intro q _ below
    exact mem_write (by omega)
  · rw [Nat.zero_add]
    exact heads.congr (mem_write (by omega))
  · rw [Nat.zero_add]
    refine behind.congr ?_
    intro q above _
    exact mem_write (by omega)
theorem memInit_lays (ram : Nat → UInt8) : (memInit ram).Lays [⟨memSizeAligned - sizeofStructMem,false⟩] := by
  have first : (memInit ram).mem 0 = ⟨UInt16.ofNat memSizeAligned,0,0⟩ := by
    unfold memInit
    rw [mem_setMem_apart (.inl (by decide)),mem_setMem]
  refine ⟨⟨⟨⟨?_,?_,?_⟩,trivial⟩,by decide,?_⟩,rfl⟩
  · rw [first]
    decide
  · rw [first]
    rfl
  · rw [first]
    exact iff_of_true rfl rfl
  · rintro e mem
    obtain rfl := List.mem_singleton.mp mem
    exact ⟨by decide,by decide⟩

end
end Net2Modbus
