import Net2Modbus.FirstFit

/-!
# The heap of the network stack

`mem.c` of lwIP as it is configured: blocks behind a `struct mem` each, which gives the place
of the next and of the previous one, in the bytes of the heap itself. Places are offsets into
`ram`. What stands behind the heap is memory too, so that a heap whose links have been
overwritten still has a meaning here.
-/
namespace Net2Modbus

def memSizeAligned : Nat := 6144
def sizeofStructMem : Nat := 8
def minSizeAligned : Nat := 12
/-- `LWIP_MEM_ALIGN_SIZE` -/
def lwipMemAlignSize (size : Nat) : Nat := (size + 3) / 4 * 4

/-- `struct mem` -/
structure Mem where
  next : UInt16
  prev : UInt16
  used : UInt8
  deriving DecidableEq, Repr

structure Heap where
  ram : Nat → UInt8
  lfree : Nat

/-- Bytes that are stored from an address on. -/
def Heap.write (p : Nat) (bytes : List UInt8) (h : Heap) : Heap :=
  { h with ram := fun a => if p ≤ a ∧ a < p + bytes.length then bytes.getD (a - p) 0 else h.ram a }

def lowByte (w : UInt16) : UInt8 := w.toUInt8
def highByte (w : UInt16) : UInt8 := (w >>> 8).toUInt8
def halfWord (low high : UInt8) : UInt16 := low.toUInt16 + (high.toUInt16 <<< 8)

/-- The `struct mem` at a place. -/
def Heap.mem (p : Nat) (h : Heap) : Mem where
  next := halfWord (h.ram p) (h.ram (p + 1))
  prev := halfWord (h.ram (p + 2)) (h.ram (p + 3))
  used := h.ram (p + 4)
def Heap.setMem (p : Nat) (m : Mem) (h : Heap) : Heap :=
  h.write p [lowByte m.next,highByte m.next,lowByte m.prev,highByte m.prev,m.used]

/-- `mem_init` -/
def memInit (ram : Nat → UInt8) : Heap :=
  let h : Heap := ⟨ram,0⟩
  let h := h.setMem 0 ⟨UInt16.ofNat memSizeAligned,0,0⟩
  h.setMem memSizeAligned ⟨UInt16.ofNat memSizeAligned,UInt16.ofNat memSizeAligned,1⟩

/-- A `struct mem` takes in the one behind it. -/
def Heap.join (p q : Nat) (h : Heap) : Heap :=
  let h := h.setMem p { h.mem p with next := (h.mem q).next }
  let next := (h.mem q).next.toNat
  h.setMem next { h.mem next with prev := UInt16.ofNat p }
/-- `plug_holes`, first with the next block, -/
def Heap.plugForward (mem : Nat) (h : Heap) : Heap :=
  let nmem := (h.mem mem).next.toNat
  if mem ≠ nmem ∧ (h.mem nmem).used = 0 ∧ nmem ≠ memSizeAligned then
    { h with lfree := if h.lfree = nmem then mem else h.lfree }.join mem nmem
  else h
/-- and then with the previous one. -/
def Heap.plugBackward (mem : Nat) (h : Heap) : Heap :=
  let pmem := (h.mem mem).prev.toNat
  if pmem ≠ mem ∧ (h.mem pmem).used = 0 then
    { h with lfree := if h.lfree = mem then pmem else h.lfree }.join pmem mem
  else h
/-- The first part of `mem_free`: the block is unused, and perhaps the lowest one. -/
def Heap.unuse (mem : Nat) (h : Heap) : Heap :=
  let h := h.setMem mem { h.mem mem with used := 0 }
  { h with lfree := if mem < h.lfree then mem else h.lfree }
/-- `mem_free`, for an address that is not below the heap. -/
def Heap.memFree (rmem : Nat) (h : Heap) : Heap :=
  if memSizeAligned ≤ rmem then h
  else
    let mem := rmem - sizeofStructMem
    ((h.unuse mem).plugForward mem).plugBackward mem

/-- The size of the block that `mem_malloc` looks for. -/
def mallocSize (size : UInt16) : Option Nat :=
  if size = 0 then none
  else
    let size := max (lwipMemAlignSize size.toNat % 65536) minSizeAligned
    if memSizeAligned < size then none else some size
/-- `mem->next - (ptr + SIZEOF_STRUCT_MEM)`, an unsigned number. -/
def Heap.userSize (ptr : Nat) (h : Heap) : Nat :=
  ((h.mem ptr).next.toNat + 2 ^ 32 - (ptr + sizeofStructMem)) % 2 ^ 32
/-- The search of `mem_malloc`, which may go round for ever. -/
def Heap.scan (size : Nat) (h : Heap) : Nat → Nat → Option (Option Nat)
  | 0,_ => none
  | fuel + 1,ptr =>
    if ptr < memSizeAligned - size then
      if (h.mem ptr).used = 0 ∧ size ≤ h.userSize ptr then some (some ptr)
      else h.scan size fuel (h.mem ptr).next.toNat
    else some none
/-- The block is taken, and split when it is large enough for another one. -/
def Heap.split (size ptr : Nat) (h : Heap) : Heap :=
  if size + sizeofStructMem + minSizeAligned ≤ h.userSize ptr then
    let ptr2 := UInt16.ofNat (ptr + sizeofStructMem + size)
    let mem2 := ptr2.toNat
    let h := h.setMem mem2 ⟨(h.mem ptr).next,UInt16.ofNat ptr,0⟩
    let h := h.setMem ptr { h.mem ptr with next := ptr2, used := 1 }
    let next := (h.mem mem2).next.toNat
    if next ≠ memSizeAligned then h.setMem next { h.mem next with prev := ptr2 } else h
  else h.setMem ptr { h.mem ptr with used := 1 }
/-- The next free block, for `lfree`; this may go round for ever too. -/
def Heap.nextFree (h : Heap) : Nat → Nat → Option Nat
  | 0,_ => none
  | fuel + 1,cur =>
    if (h.mem cur).used ≠ 0 ∧ cur ≠ memSizeAligned then h.nextFree fuel (h.mem cur).next.toNat else some cur

/-- More steps than there are places for a `struct mem`. -/
def memFuel : Nat := memSizeAligned / sizeofStructMem + 1

/-- `mem_malloc`: the heap and the address of the block or `NULL`; `none` when it does not
    come back. -/
def Heap.memMalloc (size : UInt16) (h : Heap) : Option (Heap × Option Nat) :=
  match mallocSize size with
  | none => some (h,none)
  | some size =>
    match h.scan size memFuel h.lfree with
    | none => none
    | some none => some (h,none)
    | some (some ptr) =>
      let h := h.split size ptr
      if ptr = h.lfree then
        (h.nextFree memFuel h.lfree).map fun cur => ({ h with lfree := cur },some (ptr + sizeofStructMem))
      else some (h,some (ptr + sizeofStructMem))

theorem halfWord_bytes (w : UInt16) : halfWord (lowByte w) (highByte w) = w := by
  have bound := w.toNat_lt
  rw [← UInt16.toNat_inj]
  simp [halfWord,lowByte,highByte,Nat.shiftLeft_eq,Nat.shiftRight_eq_div_pow]
  omega

section
variable {h : Heap} {p q : Nat} {m : Mem} {bytes : List UInt8}

@[simp] theorem write_lfree : (h.write p bytes).lfree = h.lfree := rfl
@[simp] theorem setMem_lfree : (h.setMem p m).lfree = h.lfree := rfl
@[simp] theorem mem_lfree (lfree : Nat) : Heap.mem p { h with lfree := lfree } = h.mem p := rfl
theorem write_inside {i : Nat} (inside : i < bytes.length) : (h.write p bytes).ram (p + i) = bytes.getD i 0 := by
  simp [Heap.write,inside]
theorem write_outside (outside : q < p ∨ p + bytes.length ≤ q) : (h.write p bytes).ram q = h.ram q := by
  refine if_neg ?_
  omega
@[simp] theorem mem_setMem : (h.setMem p m).mem p = m := by
  have cell (i : Nat) (inside : i < 5) : (h.setMem p m).ram (p + i) =
      [lowByte m.next,highByte m.next,lowByte m.prev,highByte m.prev,m.used].getD i 0 := write_inside inside
  have first := cell 0 (by decide)
  rw [Nat.add_zero] at first
  simp only [Heap.mem,first,cell 1 (by decide),cell 2 (by decide),cell 3 (by decide),cell 4 (by decide)]
  simp [halfWord_bytes]
/-- A `struct mem` that lies apart from what is written. -/
theorem mem_write (apart : q + 5 ≤ p ∨ p + bytes.length ≤ q) : (h.write p bytes).mem q = h.mem q := by
  simp only [Heap.mem]
  rw [write_outside (by omega),write_outside (by omega),write_outside (by omega),write_outside (by omega),
    write_outside (by omega)]
theorem mem_setMem_apart (apart : q + 5 ≤ p ∨ p + 5 ≤ q) : (h.setMem p m).mem q = h.mem q := mem_write apart

end
end Net2Modbus
