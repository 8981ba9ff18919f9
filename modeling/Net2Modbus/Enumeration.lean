import Net2Modbus.OneWire
import Net2Modbus.WordSearch

/-!
# Finding every device of the 1-Wire bus

`OWSearch` against a descent through the set of ROM codes on the bus: every call finds the
next code in the order of the bits as they are sent, until all have been found.
-/
namespace Net2Modbus
open WordSearch

/-- A bit goes into the shift register for the polynomial x^8 + x^5 + x^4 + 1. -/
def crcShift (crc : UInt8) (bit : Bool) : UInt8 :=
  if crc.toBitVec.getLsbD 0 = bit then crc >>> 1 else (crc >>> 1) ^^^ 0x8C
/-- The register after some bits. -/
def crcBits (bits : List Bool) : UInt8 := bits.foldl crcShift 0

/-- The last byte of a code is the checksum of the 56 bits before it, and its family code is
    not zero. -/
def RomValid (r : Rom) : Prop := r.peek 7 = crcBits ((romBits r).take 56) ∧ r.peek 0 ≠ 0

instance (r : Rom) : Decidable (RomValid r) := inferInstanceAs (Decidable (_ ∧ _))

/-- The low bits of a byte. -/
def lowBits (count : Nat) (byte : UInt8) : List Bool := (List.range count).map byte.toBitVec.getLsbD

theorem lowBits_succ (count : Nat) (byte : UInt8) :
    lowBits (count + 1) byte = byte.toBitVec.getLsbD 0 :: lowBits count (byte >>> 1) := by
  rw [lowBits,List.range_succ_eq_map,List.map_cons,List.map_map,lowBits]
  congr 1
  refine List.map_congr_left ?_
  intro i _
  simp [Nat.add_comm]
/-- A bit that is fed in may as well be in the register. -/
theorem crcShift_xor (crc byte : UInt8) :
    crcShift crc (byte.toBitVec.getLsbD 0) ^^^ (byte >>> 1) = crcShift (crc ^^^ byte) false := by
  have move : (crc ^^^ byte) >>> 1 = (crc >>> 1) ^^^ (byte >>> 1) := UInt8.shiftRight_xor
  unfold crcShift
  rw [UInt8.toBitVec_xor,BitVec.getLsbD_xor,move]
  cases crc.toBitVec.getLsbD 0 <;> cases byte.toBitVec.getLsbD 0 <;>
    simp [UInt8.xor_assoc,UInt8.xor_comm (byte >>> 1)]
theorem crc_lowBits (count : Nat) (crc byte : UInt8) (small : byte.toNat < 2 ^ count) :
    (lowBits count byte).foldl crcShift crc = (List.replicate count false).foldl crcShift (crc ^^^ byte) := by
  induction count generalizing crc byte with
  | zero =>
    have zero : byte = 0 := UInt8.toNat_inj.mp (by simp at small; simpa using small)
    simp [lowBits,zero]
  | succ count ih =>
    have half : (byte >>> 1).toNat < 2 ^ count := by
      rw [UInt8.toNat_shiftRight,Nat.shiftRight_eq_div_pow]
      rw [Nat.pow_succ] at small
      simp
      omega
    rw [lowBits_succ,List.foldl_cons,ih _ _ half,crcShift_xor,List.replicate_succ,List.foldl_cons]
/-- The table has the register after a byte. -/
theorem docrc8_eq (value crc : UInt8) : docrc8 value crc = (lowBits 8 value).foldl crcShift crc := by
  have table : ∀ i : Fin 256, dscrcTable.getD i 0 = (List.replicate 8 false).foldl crcShift (UInt8.ofFin i) := by
    decide +kernel
  rw [crc_lowBits 8 crc value value.toNat_lt,docrc8]
  exact table (crc ^^^ value).toFin

section
variable {r r' : Rom} {p : Nat}

theorem rom_cell (r : Rom) {j : Nat} (inside : j < 8) : r.cells[j]? = some (r.peek j) := by
  have bound : j < r.cells.length := by simpa using inside
  rw [Block.peek,List.getD_eq_getElem?_getD,List.getElem?_eq_getElem bound]
  rfl
@[simp] theorem romBits_length (r : Rom) : (romBits r).length = 64 := by simp [romBits]
theorem allBits (devices : List Rom) : ∀ w ∈ devices.map romBits, w.length = 64 := by
  intro w member
  obtain ⟨r,-,rfl⟩ := List.mem_map.mp member
  exact romBits_length r
theorem romBits_drop (r : Rom) (inside : p < 64) : (romBits r).drop p = romBit r p :: (romBits r).drop (p + 1) := by
  rw [List.drop_eq_getElem_cons (by simpa using inside)]
  simp [romBits]
theorem romBits_inj (same : romBits r = romBits r') : r = r' := by
  have bit (i : Nat) (inside : i < 64) : romBit r i = romBit r' i := by
    have at_ := congrArg (·[i]?) same
    simpa [romBits,inside] using at_
  have byte (j : Nat) (inside : j < 8) : r.peek j = r'.peek j := by
    rw [← UInt8.toBitVec_inj]
    refine BitVec.eq_of_getLsbD_eq ?_
    intro k low
    have here := bit (8 * j + k) (by omega)
    have row : (8 * j + k) / 8 = j := by omega
    have column : (8 * j + k) % 8 = k := by omega
    simpa only [romBit,row,column] using here
  refine Block.ext (List.ext_getElem? ?_)
  intro j
  by_cases inside : j < 8
  · rw [rom_cell r inside,rom_cell r' inside,byte j inside]
  · rw [List.getElem?_eq_none (by simpa using inside),List.getElem?_eq_none (by simpa using inside)]
/-- `crc8` after the first bytes. -/
def romCrc (r : Rom) (count : Nat) : UInt8 := (r.cells.take count).foldl (fun crc byte => docrc8 byte crc) 0

theorem romCrc_succ (r : Rom) {count : Nat} (inside : count < 8) :
    romCrc r (count + 1) = docrc8 (r.peek count) (romCrc r count) := by
  have cell : r.cells.take (count + 1) = r.cells.take count ++ [r.peek count] := by
    rw [List.take_add_one,rom_cell r inside]
    rfl
  rw [romCrc,cell,List.foldl_append]
  rfl
/-- The checksum of the first bytes, from their bits. -/
theorem crc_bytes (r : Rom) {count : Nat} (inside : count ≤ 8) :
    crcBits ((romBits r).take (8 * count)) = romCrc r count := by
  induction count with
  | zero => rfl
  | succ count ih =>
    have row : ((romBits r).drop (8 * count)).take 8 = lowBits 8 (r.peek count) := by
      refine List.ext_getElem (by simp [lowBits]; omega) ?_
      intro k low high
      have small : k < 8 := by simpa [lowBits] using high
      have place : (8 * count + k) / 8 = count ∧ (8 * count + k) % 8 = k := by omega
      simp [romBits,romBit,lowBits,place]
    rw [Nat.mul_succ,List.take_add,row,crcBits,List.foldl_append,← docrc8_eq,romCrc_succ r inside]
    exact congrArg (docrc8 (r.peek count)) (ih (Nat.le_of_succ_le inside))

theorem RomValid.crc (valid : RomValid r) : romCrc r 8 = 0 := by
  have bits : crcBits ((romBits r).take (8 * 7)) = romCrc r 7 := crc_bytes r (by omega)
  have seven : romCrc r 7 = r.peek 7 := bits.symm.trans valid.1.symm
  rw [romCrc_succ r (by omega),seven,docrc8,UInt8.xor_self]
  rfl

/-- The mask of a bit in its byte. -/
def bitMask (k : Nat) : UInt8 := 1 <<< UInt8.ofNat k

theorem bitMask_bit {k j : Nat} (low : k < 8) (low' : j < 8) : (bitMask k).toBitVec.getLsbD j = decide (j = k) := by
  have all : ∀ k < 8, ∀ j < 8, (bitMask k).toBitVec.getLsbD j = decide (j = k) := by decide
  exact all k low j low'
/-- The mask moves to the next bit, and out of the byte behind the last one. -/
theorem bitMask_next {k : Nat} (low : k < 8) : bitMask k <<< 1 = if k = 7 then 0 else bitMask (k + 1) := by
  have all : ∀ k < 8, bitMask k <<< 1 = if k = 7 then 0 else bitMask (k + 1) := by decide
  exact all k low
theorem bitMask_ne_zero {k : Nat} (low : k < 8) : bitMask k ≠ 0 := by
  have all : ∀ k < 8, bitMask k ≠ 0 := by decide
  exact all k low

/-- A byte with one bit set or cleared. -/
def withBit (byte : UInt8) (k : Nat) (b : Bool) : UInt8 := if b then byte ||| bitMask k else byte &&& ~~~bitMask k

theorem withBit_bit (byte : UInt8) {k j : Nat} (b : Bool) (low : k < 8) (low' : j < 8) :
    (withBit byte k b).toBitVec.getLsbD j = if j = k then b else byte.toBitVec.getLsbD j := by
  have mask := bitMask_bit low low'
  cases b with
  | false =>
    simp only [withBit,Bool.false_eq_true,if_false,UInt8.toBitVec_and,UInt8.toBitVec_not,BitVec.getLsbD_and,
      BitVec.getLsbD_not,mask]
    by_cases same : j = k <;> simp [same,low']
  | true =>
    simp only [withBit,if_true,UInt8.toBitVec_or,BitVec.getLsbD_or,mask]
    by_cases same : j = k <;> simp [same]
/-- The test for a bit with its mask. -/
theorem mask_test (byte : UInt8) {k : Nat} (low : k < 8) : decide (0 < byte &&& bitMask k) = byte.toBitVec.getLsbD k := by
  have bits (j : Nat) (low' : j < 8) : (byte &&& bitMask k).toBitVec.getLsbD j = (byte.toBitVec.getLsbD j && decide (j = k)) := by
    rw [UInt8.toBitVec_and,BitVec.getLsbD_and,bitMask_bit low low']
  by_cases on : byte.toBitVec.getLsbD k = true
  · have some : byte &&& bitMask k ≠ 0 := by
      intro none
      have here := bits k low
      rw [none,on] at here
      simp at here
    rw [on,decide_eq_true (UInt8.pos_iff_ne_zero.mpr some)]
  · have none : byte &&& bitMask k = 0 := by
      rw [← UInt8.toBitVec_inj]
      refine BitVec.eq_of_getLsbD_eq ?_
      intro j low'
      rw [bits j low']
      by_cases same : j = k
      · simp [same,on]
      · simp [same]
    rw [Bool.eq_false_of_not_eq_true on,none]
    rfl
/-- A code with one bit changed. -/
theorem romBits_poke (r : Rom) (b : Bool) (inside : p < 64) :
    romBits (r.poke (p / 8) (withBit (r.peek (p / 8)) (p % 8) b)) = (romBits r).set p b := by
  refine List.ext_getElem (by simp) ?_
  intro i low high
  have small : i < 64 := by simpa using low
  simp only [romBits,List.getElem_map,List.getElem_range,List.getElem_set,romBit]
  by_cases same : i / 8 = p / 8
  · rw [same,Block.peek_poke _ _ (by omega),withBit_bit _ _ (by omega) (by omega)]
    by_cases here : p = i
    · rw [if_pos here,if_pos (by rw [here])]
    · rw [if_neg here,if_neg (by omega)]
  · have other : (r.poke (p / 8) (withBit (r.peek (p / 8)) (p % 8) b)).peek (i / 8) = r.peek (i / 8) := by
      show (r.cells.set (p / 8) _).getD (i / 8) default = r.cells.getD (i / 8) default
      rw [List.getD_eq_getElem?_getD,List.getElem?_set_ne (Ne.symm same),List.getD_eq_getElem?_getD]
    rw [other,if_neg (by omega)]

end

/-- The words that the devices of a search still have to send. -/
def wordsFrom (p : Nat) (devices : List Rom) : List (List Bool) := devices.map fun r => (romBits r).drop p

/-- The loop stands before a bit. -/
structure AtBit (v : OwLoop) (p : Nat) : Prop where
  id : v.idBitNumber = p + 1
  byte : v.romByteNumber = p / 8
  mask : v.romByteMask = bitMask (p % 8)
  crc : v.state.crc8 = romCrc v.state.romNo (p / 8)
  number : v.bus.bitNumber = p
/-- One turn has taken a branch. -/
structure Turned (v v' : OwLoop) (p : Nat) (b : Bool) : Prop where
  next : AtBit v' (p + 1)
  plain : v'.bus.complement = false
  bits : romBits v'.state.romNo = (romBits v.state.romNo).set p b
  selected : v'.bus.selected = v.bus.selected.filter fun r => romBit r p == b
  devices : v'.bus.devices = v.bus.devices
  discrepancy : v'.state.lastDiscrepancy = v.state.lastDiscrepancy
  flag : v'.state.lastDeviceFlag = v.state.lastDeviceFlag

section
variable {v v' : OwLoop} {p : Nat} {b : Bool} {devices : List Rom}

theorem wordsFrom_length (devices : List Rom) (p : Nat) : ∀ w ∈ wordsFrom p devices, w.length = 64 - p := by
  intro w member
  obtain ⟨r,-,rfl⟩ := List.mem_map.mp member
  simp
/-- The devices that stay in the search. -/
theorem rest_wordsFrom (inside : p < 64) :
    rest b (wordsFrom p devices) = wordsFrom (p + 1) (devices.filter fun r => romBit r p == b) := by
  induction devices with
  | nil => rfl
  | cons r devices ih =>
    have first : wordsFrom p (r :: devices) = (romBit r p :: (romBits r).drop (p + 1)) :: wordsFrom p devices := by
      rw [← romBits_drop r inside]
      rfl
    rw [first,rest_cons,List.filter_cons]
    by_cases same : romBit r p = b
    · rw [if_pos same,if_pos (beq_iff_eq.mpr same),ih]
      rfl
    · rw [if_neg same,if_neg fun there => same (beq_iff_eq.mp there),ih]
/-- The two reads of a bit tell which branches exist. -/
theorem read_iff (inside : p < 64) (b : Bool) :
    (devices.all fun r => romBit r p != b) = true ↔ rest b (wordsFrom p devices) = [] := by
  rw [rest_wordsFrom inside,wordsFrom,List.map_eq_nil_iff,List.filter_eq_nil_iff,List.all_eq_true]
  simp

theorem take_turned (at_ : AtBit v p) (inside : p < 64) : Turned v (v.take b) p b := by
  obtain ⟨id,byte,mask,crc,number⟩ := at_
  have low : p % 8 < 8 := Nat.mod_lt _ (by omega)
  generalize code : v.state.romNo.poke v.romByteNumber (if b then v.state.romNo.peek v.romByteNumber ||| v.romByteMask
    else v.state.romNo.peek v.romByteNumber &&& ~~~v.romByteMask) = romNo
  have stored : v.state.romNo.poke (p / 8) (withBit (v.state.romNo.peek (p / 8)) (p % 8) b) = romNo := by
    rw [← code,byte,mask]
    rfl
  have bits : romBits romNo = (romBits v.state.romNo).set p b := stored ▸ romBits_poke _ b inside
  -- The bytes before the one that changes keep their checksum.
  have before : romCrc romNo (p / 8) = v.state.crc8 := by
    rw [crc,← stored,romCrc,romCrc,Block.poke_cells,List.take_set_of_le (Nat.le_refl _)]
  have next := bitMask_next low
  have selected : (owWriteBit b v.bus).selected = v.bus.selected.filter fun r => romBit r p == b := by
    rw [← number]
    rfl
  simp only [OwLoop.take,code]
  simp only [byte,mask,next]
  by_cases last : p % 8 = 7
  · have row : (p + 1) / 8 = p / 8 + 1 ∧ (p + 1) % 8 = 0 := by omega
    simp only [if_pos last,if_true]
    refine ⟨⟨congrArg (· + 1) id,row.1.symm,?_,?_,congrArg (· + 1) number⟩,rfl,bits,selected,rfl,rfl,rfl⟩
    · rw [row.2]
      rfl
    · rw [row.1,romCrc_succ _ (by omega),before]
  · have row : (p + 1) / 8 = p / 8 ∧ (p + 1) % 8 = p % 8 + 1 := by omega
    simp only [if_neg last,if_neg (bitMask_ne_zero (k := p % 8 + 1) (by omega))]
    refine ⟨⟨congrArg (· + 1) id,row.1.symm,?_,?_,congrArg (· + 1) number⟩,rfl,bits,selected,rfl,rfl,rfl⟩
    · rw [row.2]
    · rw [row.1,before]

theorem take_lastZero : (v.take b).lastZero = v.lastZero := by
  unfold OwLoop.take
  dsimp only
  split <;> rfl
/-- The branch of the words that are still sent. -/
def OwLoop.branch (v : OwLoop) (p : Nat) : Bool :=
  choice (wordsFrom p v.bus.selected) ((romBits v.state.romNo).drop p) (v.state.lastDiscrepancy - p)

theorem discrepancy_eq (at_ : AtBit v p) (inside : p < 64) (zeros : rest false (wordsFrom p v.bus.selected) ≠ [])
    (ones : rest true (wordsFrom p v.bus.selected) ≠ []) : v.discrepancy = v.branch p := by
  have low : p % 8 < 8 := Nat.mod_lt _ (by omega)
  unfold OwLoop.discrepancy OwLoop.branch choice
  rw [if_neg zeros,if_neg ones,at_.id,at_.byte,at_.mask,mask_test _ low,romBits_drop _ inside]
  by_cases before : p + 1 < v.state.lastDiscrepancy
  · rw [if_pos before,if_pos (by omega)]
    rfl
  · rw [if_neg before,if_neg (by omega)]
    exact decide_eq_decide.mpr (by omega)
/-- The loop after both reads of a bit. -/
def OwLoop.read (v : OwLoop) : OwLoop := { v with bus := { v.bus with complement := true } }

theorem searchTurn_eq (v : OwLoop) :
    owSearchTurn v =
      if (owReadBit v.bus).2 = true ∧ (owReadBit v.read.bus).2 = true then (v.read,false)
      else if (owReadBit v.bus).2 ≠ (owReadBit v.read.bus).2 then (v.read.take (owReadBit v.bus).2,true)
      else if v.read.discrepancy then (v.read.take true,true)
      else (v.read.recordZero.take false,true) := rfl
/-- A turn of the loop takes the branch of a descent. -/
theorem searchTurn_turned (at_ : AtBit v p) (inside : p < 64) (plain : v.bus.complement = false)
    (nonempty : v.bus.selected ≠ []) :
    (owSearchTurn v).2 = true ∧ Turned v (owSearchTurn v).1 p (v.branch p) ∧
      (owSearchTurn v).1.lastZero =
        if v.branch p = false ∧ rest true (wordsFrom p v.bus.selected) ≠ [] then p + 1 else v.lastZero := by
  have idBit : (owReadBit v.bus).2 = true ↔ rest false (wordsFrom p v.bus.selected) = [] := by
    rw [← read_iff inside false,owReadBit,plain,at_.number]
  have cmpIdBit : (owReadBit v.read.bus).2 = true ↔ rest true (wordsFrom p v.bus.selected) = [] := by
    rw [← read_iff inside true,← at_.number]
    rfl
  have atRead : AtBit v.read p := ⟨at_.id,at_.byte,at_.mask,at_.crc,at_.number⟩
  have turned {b : Bool} {v' : OwLoop} (turn : Turned v.read v' p b) : Turned v v' p b :=
    ⟨turn.next,turn.plain,turn.bits,turn.selected,turn.devices,turn.discrepancy,turn.flag⟩
  have lastZero : v.read.lastZero = v.lastZero := rfl
  rw [searchTurn_eq]
  by_cases zeros : rest false (wordsFrom p v.bus.selected) = []
  · have ones := (rest_cases (n := 64 - p - 1) (fun w member => by
      rw [wordsFrom_length _ _ w member]
      omega) (by simpa [wordsFrom] using nonempty)).resolve_left (not_not.mpr zeros)
    have taken : v.branch p = true := if_pos zeros
    simp only [idBit.mpr zeros,Bool.eq_false_of_not_eq_true (fun high => ones (cmpIdBit.mp high)),taken]
    exact ⟨rfl,turned (take_turned atRead inside),take_lastZero⟩
  · have low := Bool.eq_false_of_not_eq_true (fun high => zeros (idBit.mp high))
    by_cases ones : rest true (wordsFrom p v.bus.selected) = []
    · have taken : v.branch p = false := (if_neg zeros).trans (if_pos ones)
      simp only [low,cmpIdBit.mpr ones,taken]
      exact ⟨rfl,turned (take_turned atRead inside),take_lastZero.trans (if_neg fun both => both.2 ones).symm⟩
    · have direction : v.read.discrepancy = v.branch p := discrepancy_eq atRead inside zeros ones
      simp only [low,Bool.eq_false_of_not_eq_true (fun high => ones (cmpIdBit.mp high)),direction]
      cases branch : v.branch p with
      | true => exact ⟨rfl,turned (take_turned atRead inside),take_lastZero⟩
      | false =>
        have recorded : AtBit v.read.recordZero p := ⟨atRead.id,atRead.byte,atRead.mask,atRead.crc,atRead.number⟩
        have turn := take_turned (b := false) recorded inside
        refine ⟨rfl,turned ⟨turn.next,turn.plain,turn.bits,turn.selected,turn.devices,turn.discrepancy,turn.flag⟩,?_⟩
        exact (take_lastZero.trans at_.id).trans (if_pos ⟨rfl,ones⟩).symm

/-! ### A whole search -/

/-- The loop has found the word of a descent. -/
structure Descended (v v' : OwLoop) (p : Nat) (w : List Bool) : Prop where
  ended : AtBit v' 64
  bits : romBits v'.state.romNo = (romBits v.state.romNo).take p ++ w
  zero : v'.lastZero = if lastTurn (wordsFrom p v.bus.selected) w = 0 then v.lastZero
    else p + lastTurn (wordsFrom p v.bus.selected) w
  devices : v'.bus.devices = v.bus.devices
  flag : v'.state.lastDeviceFlag = v.state.lastDeviceFlag

/-- A turn in front of a descent. -/
theorem Descended.cons {v'' : OwLoop} {w : List Bool} (turn : Turned v v' p b)
    (zero : v'.lastZero = if b = false ∧ rest true (wordsFrom p v.bus.selected) ≠ [] then p + 1 else v.lastZero)
    (inside : p < 64) (found : Descended v' v'' (p + 1) w) : Descended v v'' p (b :: w) := by
  have words : wordsFrom (p + 1) v'.bus.selected = rest b (wordsFrom p v.bus.selected) := by
    rw [rest_wordsFrom inside,turn.selected]
  have front : ((romBits v.state.romNo).set p b).take (p + 1) = (romBits v.state.romNo).take p ++ [b] := by
    rw [List.take_add_one,List.getElem?_set_self (by simpa using inside),List.take_set_of_le (Nat.le_refl p)]
    rfl
  refine ⟨found.ended,?_,?_,found.devices.trans turn.devices,found.flag.trans turn.flag⟩
  · rw [found.bits,turn.bits,front,List.append_assoc]
    rfl
  · rw [found.zero,words,zero,lastTurn]
    generalize lastTurn (rest b (wordsFrom p v.bus.selected)) w = later
    by_cases none : later = 0
    · by_cases turned : b = false ∧ rest true (wordsFrom p v.bus.selected) ≠ []
      · simp [none,turned]
      · simp only [none,if_neg turned]
        simp
    · simp [none]
      omega
theorem searchLoop_descended (turns : Nat) (at_ : AtBit v p) (left : p + (turns + 1) = 64)
    (plain : v.bus.complement = false) (nonempty : v.bus.selected ≠ []) :
    Descended v (owSearchLoop (turns + 1) v) p
      (descend (turns + 1) (wordsFrom p v.bus.selected) ((romBits v.state.romNo).drop p) (v.state.lastDiscrepancy - p)) := by
  induction turns generalizing v p with
  | zero =>
    obtain ⟨-,turn,zero⟩ := searchTurn_turned at_ (by omega) plain nonempty
    have only : owSearchLoop (0 + 1) v = (owSearchTurn v).1 := by
      rw [owSearchLoop]
      split <;> rfl
    rw [only]
    refine Descended.cons turn zero (by omega) ⟨left ▸ turn.next,?_,?_,rfl,rfl⟩
    · rw [left,List.take_of_length_le (by simp)]
      simp [descend]
    · simp [descend,lastTurn]
  | succ turns ih =>
    obtain ⟨go,turn,zero⟩ := searchTurn_turned at_ (by omega) plain nonempty
    have more : (owSearchTurn v).1.romByteNumber < 8 := by
      rw [turn.next.byte]
      omega
    have words : wordsFrom (p + 1) (owSearchTurn v).1.bus.selected = rest (v.branch p) (wordsFrom p v.bus.selected) := by
      rw [rest_wordsFrom (by omega),turn.selected]
    have stay : (owSearchTurn v).1.bus.selected ≠ [] := by
      intro gone
      rw [gone] at words
      refine choice_ne_nil (n := 64 - p - 1) ?_ ?_ words.symm
      · intro w member
        rw [wordsFrom_length _ _ w member]
        omega
      · simpa [wordsFrom] using nonempty
    have earlier : (romBits (owSearchTurn v).1.state.romNo).drop (p + 1) = ((romBits v.state.romNo).drop p).tail := by
      rw [turn.bits,List.drop_set_of_lt (Nat.lt_succ_self p),List.tail_drop]
    have later := ih turn.next (by omega) turn.plain stay
    rw [words,earlier,turn.discrepancy,← Nat.sub_sub] at later
    rw [owSearchLoop,if_pos ⟨go,more⟩]
    exact Descended.cons turn zero (by omega) later

end

/-- What a search that finds a device leaves. -/
structure Found (devices : List Rom) (w : List Bool) (done : OneWire × OwState × Bool) : Prop where
  success : done.2.2 = true
  bits : romBits done.2.1.romNo = w
  discrepancy : done.2.1.lastDiscrepancy = lastTurn (devices.map romBits) w
  flag : done.2.1.lastDeviceFlag = decide (lastTurn (devices.map romBits) w = 0)
  devices : done.1.devices = devices

theorem owReset_present {bus : OneWire} (nonempty : bus.devices ≠ []) : (owReset bus).2 = true := by
  cases devices : bus.devices with
  | nil => contradiction
  | cons r devices => simp [owReset,devices]
/-- A search on a bus with devices, after one that did not end at the last of them. -/
theorem owSearch_more {bus : OneWire} {s : OwState} (nonempty : bus.devices ≠ []) (more : s.lastDeviceFlag = false) :
    let v := owSearchLoop 64 ⟨1,0,0,1,{ s with crc8 := 0 },owWriteByte searchRom (owReset bus).1⟩
    owSearch bus s = (v.bus,owFound v.result) := by
  have unfolded : owSearch bus s = if s.lastDeviceFlag then (bus,owFound ({ s with crc8 := 0 },false)) else
      if (owReset bus).2 then
        ((owSearchLoop 64 ⟨1,0,0,1,{ s with crc8 := 0 },owWriteByte searchRom (owReset bus).1⟩).bus,
          owFound (owSearchLoop 64 ⟨1,0,0,1,{ s with crc8 := 0 },owWriteByte searchRom (owReset bus).1⟩).result)
      else ((owReset bus).1,({ s with crc8 := 0 } : OwState).restart,false) := rfl
  rw [unfolded,more,owReset_present nonempty]
  rfl

/-- A search is a descent through the codes of the bus. -/
theorem owSearch_found {bus : OneWire} {s : OwState} (nonempty : bus.devices ≠ []) (valid : ∀ r ∈ bus.devices, RomValid r)
    (more : s.lastDeviceFlag = false) :
    Found bus.devices (descend 64 (bus.devices.map romBits) (romBits s.romNo) s.lastDiscrepancy) (owSearch bus s) := by
  have words : wordsFrom 0 bus.devices = bus.devices.map romBits := by simp [wordsFrom]
  generalize start : (⟨1,0,0,1,{ s with crc8 := 0 },owWriteByte searchRom (owReset bus).1⟩ : OwLoop) = v
  have loop : Descended v (owSearchLoop 64 v) 0 (descend 64 (bus.devices.map romBits) (romBits s.romNo) s.lastDiscrepancy) := by
    subst start
    rw [← words]
    exact searchLoop_descended 63 ⟨rfl,rfl,rfl,rfl,rfl⟩ rfl rfl nonempty
  have member : descend 64 (bus.devices.map romBits) (romBits s.romNo) s.lastDiscrepancy ∈ bus.devices.map romBits :=
    descend_mem (allBits bus.devices) (by simpa using nonempty)
  generalize descend 64 (bus.devices.map romBits) (romBits s.romNo) s.lastDiscrepancy = w at loop member
  -- The code that was found is that of a device.
  obtain ⟨r,there,same⟩ := List.mem_map.mp member
  have bits : romBits (owSearchLoop 64 v).state.romNo = w := by simpa using loop.bits
  have code : (owSearchLoop 64 v).state.romNo = r := romBits_inj (bits.trans same.symm)
  have crc : (owSearchLoop 64 v).state.crc8 = 0 := by
    rw [loop.ended.crc,code]
    exact (valid r there).crc
  have zero : (owSearchLoop 64 v).lastZero = lastTurn (bus.devices.map romBits) w := by
    have zero := loop.zero
    rw [← start] at zero
    rw [← words,← start,zero,Nat.zero_add]
    exact ite_eq_right_iff.mpr Eq.symm
  have result : (owSearchLoop 64 v).result = ({ (owSearchLoop 64 v).state with
      lastDiscrepancy := (owSearchLoop 64 v).lastZero
      lastDeviceFlag := if (owSearchLoop 64 v).lastZero = 0 then true else (owSearchLoop 64 v).state.lastDeviceFlag },true) := by
    refine if_neg ?_
    rw [loop.ended.id,crc]
    simp
  have family : (owSearchLoop 64 v).state.romNo.peek 0 ≠ 0 := code ▸ (valid r there).2
  have found : owFound (owSearchLoop 64 v).result = (owSearchLoop 64 v).result := by
    rw [result]
    exact if_neg (by simp [family])
  have done : owSearch bus s = ((owSearchLoop 64 v).bus,owFound (owSearchLoop 64 v).result) := by
    rw [← start]
    exact owSearch_more nonempty more
  rw [done,found,result]
  refine ⟨rfl,bits,zero,?_,?_⟩
  · have off : (owSearchLoop 64 v).state.lastDeviceFlag = false := by
      rw [loop.flag,← start]
      exact more
    dsimp only
    rw [zero,off]
    by_cases none : lastTurn (bus.devices.map romBits) w = 0 <;> simp [none]
  · dsimp only
    rw [loop.devices,← start]
    rfl
/-- A search behind the last device finds nothing, and the next one starts again. -/
theorem owSearch_last {bus : OneWire} {s : OwState} (last : s.lastDeviceFlag = true) :
    owSearch bus s = (bus,({ s with crc8 := 0 } : OwState).restart,false) := by
  have unfolded : owSearch bus s = if s.lastDeviceFlag then (bus,({ s with crc8 := 0 } : OwState).restart,false)
      else owSearch bus s := by
    rw [last]
    simp only [owSearch,last]
    rfl
  rw [unfolded,if_pos last]

/-! ### The enumeration -/

/-- The state behind a call that returned a code or nothing. -/
def Returned (devices : List Rom) (m : OwMaster) : Option Rom → Prop
  | some r => m.bus.devices = devices ∧ m.state.romNo = r ∧
      m.state.lastDiscrepancy = lastTurn (devices.map romBits) (romBits r) ∧
      m.state.lastDeviceFlag = decide (lastTurn (devices.map romBits) (romBits r) = 0)
  | none => m.bus.devices = devices ∧ m.state.lastDiscrepancy = 0 ∧ m.state.lastDeviceFlag = false

section
variable {devices found : List Rom}

/-- The codes in the order of their bits. -/
theorem exists_order (devices : List Rom) : ∃ found : List Rom, found.map romBits = ordered 64 (devices.map romBits) := by
  have all : ordered 64 (devices.map romBits) ∈ Set.range (List.map romBits) := by
    rw [Set.range_list_map]
    intro w member
    obtain ⟨r,-,same⟩ := List.mem_map.mp (mem_ordered.mp member).1
    exact ⟨r,same⟩
  exact all
theorem Found.returned {r : Rom} {done : OneWire × OwState × Bool} (search : Found devices (romBits r) done) :
    (OwMaster.searched done).2 = [.searched (some r)] ∧ Returned devices (OwMaster.searched done).1 (some r) := by
  have code := romBits_inj search.bits
  refine ⟨?_,search.devices,code,search.discrepancy,search.flag⟩
  rw [OwMaster.searched,search.success,code]
  rfl

variable (order : found.map romBits = ordered 64 (devices.map romBits)) (nonempty : devices ≠ [])
  (valid : ∀ r ∈ devices, RomValid r)
include order nonempty valid

/-- From a state without a discrepancy the first code is found. -/
theorem search_first {m : OwMaster} (bus : m.bus.devices = devices) (discrepancy : m.state.lastDiscrepancy = 0)
    (more : m.state.lastDeviceFlag = false) :
    (OwMaster.searched (owSearch m.bus m.state)).2 = [.searched found[0]?] ∧
      Returned devices (OwMaster.searched (owSearch m.bus m.state)).1 found[0]? := by
  subst bus
  have search := owSearch_found nonempty valid more
  rw [discrepancy] at search
  have first := ordered_head (romBits m.state.romNo) (allBits m.bus.devices) (by simpa using nonempty)
  rw [← order,List.head?_map,Option.map_eq_some_iff] at first
  obtain ⟨r,head,same⟩ := first
  rw [← same] at search
  rw [← List.head?_eq_getElem?,head]
  exact search.returned
/-- Every search returns the code behind the one that was returned before, or nothing behind
    the last one. -/
theorem search_next {m : OwMaster} {j : Nat} (within : j ≤ found.length) (returned : Returned devices m found[j]?) :
    (OwMaster.searched (owSearch m.bus m.state)).2 = [.searched found[(j + 1) % (found.length + 1)]?] ∧
      Returned devices (OwMaster.searched (owSearch m.bus m.state)).1 found[(j + 1) % (found.length + 1)]? := by
  by_cases ended : j = found.length
  · subst ended
    rw [List.getElem?_eq_none (Nat.le_refl _)] at returned
    rw [Nat.mod_self]
    exact search_first order nonempty valid returned.1 returned.2.1 returned.2.2
  · have inside : j < found.length := by omega
    rw [Nat.mod_eq_of_lt (by omega)]
    rw [List.getElem?_eq_getElem inside] at returned
    obtain ⟨bus,code,discrepancy,flag⟩ := returned
    by_cases last : j + 1 = found.length
    · have turn : lastTurn (devices.map romBits) (romBits found[j]) = 0 := by
        refine ordered_last (n := 64) (allBits devices) ?_
        rw [← order,List.getLast?_map,List.getLast?_eq_getElem?,← last,Nat.add_sub_cancel,List.getElem?_eq_getElem inside]
        rfl
      rw [turn] at flag
      rw [last,List.getElem?_eq_none (Nat.le_refl _),owSearch_last flag]
      exact ⟨rfl,bus,rfl,rfl⟩
    · have chain := ordered_chain (n := 64) (allBits devices)
      rw [← order,List.isChain_map,List.isChain_iff_getElem] at chain
      obtain ⟨turn,next⟩ := chain j (by omega)
      subst bus
      rw [decide_eq_false turn] at flag
      have search := owSearch_found nonempty valid flag
      rw [discrepancy,code,next] at search
      rw [List.getElem?_eq_getElem (by omega)]
      exact search.returned
/-- The searches of a run, in turn. -/
theorem searches_returned {m : OwMaster} {j : Nat} (within : j ≤ found.length) (returned : Returned devices m found[j]?)
    (calls : List OwCall) (next : ∀ c ∈ calls, c = .owNext ∨ c = .owSearch) :
    oneWire.trace m calls = (List.range calls.length).map fun k => .searched found[(j + 1 + k) % (found.length + 1)]? := by
  induction calls generalizing m j with
  | nil => rfl
  | cons c calls ih =>
    rw [List.forall_mem_cons] at next
    obtain ⟨events,later⟩ := search_next order nonempty valid within returned
    have step : oneWire.step m c = OwMaster.searched (owSearch m.bus m.state) := by
      rcases next.1 with rfl | rfl <;> rfl
    have wrapped : (j + 1) % (found.length + 1) ≤ found.length := Nat.le_of_lt_succ (Nat.mod_lt _ (Nat.succ_pos _))
    rw [Machine.trace_cons,step,events,ih wrapped later next.2,List.length_cons,List.range_succ_eq_map,List.map_cons,List.map_map]
    refine congrArg (OwEvent.searched found[(j + 1) % (found.length + 1)]? :: ·) (List.map_congr_left ?_)
    intro k _
    have index : ((j + 1) % (found.length + 1) + 1 + k) % (found.length + 1) = (j + 1 + (k + 1)) % (found.length + 1) := by
      rw [Nat.add_assoc,Nat.mod_add_mod,Nat.add_comm 1 k]
    rw [index]
    rfl

end

/-- `OWFirst` and the searches behind it return every code on the bus once, in the order of
    the bits as they are sent, then nothing, and then start again. -/
theorem ow_enumeration (devices : List Rom) (nonempty : devices ≠ []) (valid : ∀ r ∈ devices, RomValid r) :
    ∃ found : List Rom, found.Pairwise (fun r r' => romBits r < romBits r') ∧ (∀ r, r ∈ found ↔ r ∈ devices) ∧
      ∀ (m : OwMaster) (calls : List OwCall), m.bus.devices = devices → (∀ c ∈ calls, c = .owNext ∨ c = .owSearch) →
        oneWire.trace m (.owFirst :: calls) =
          (List.range (calls.length + 1)).map fun k => .searched found[k % (found.length + 1)]? := by
  obtain ⟨found,order⟩ := exists_order devices
  have inj : Function.Injective romBits := fun _ _ => romBits_inj
  refine ⟨found,?_,?_,?_⟩
  · rw [← List.pairwise_map (f := romBits),order]
    exact ordered_pairwise
  · intro r
    rw [← List.mem_map_of_injective inj,order,mem_ordered,List.mem_map_of_injective inj]
    exact and_iff_left (romBits_length r)
  · intro m calls bus next
    obtain ⟨events,later⟩ := search_first order nonempty valid (m := ⟨m.bus,m.state.restart⟩) bus rfl rfl
    have step : oneWire.step m .owFirst = OwMaster.searched (owSearch m.bus m.state.restart) := rfl
    rw [Machine.trace_cons,step,events,searches_returned order nonempty valid (Nat.zero_le _) later calls next,
      List.range_succ_eq_map,List.map_cons,List.map_map]
    refine congrArg (OwEvent.searched found[0]? :: ·) (List.map_congr_left ?_)
    intro k _
    rw [Nat.zero_add,Nat.add_comm 1 k]
    rfl
/-- Two sensors and a serial number. -/
theorem ow_enumeration_three :
    let devices : List Rom := [⟨[0x28,1,2,3,4,5,7,192],rfl⟩,⟨[0x02,0x1C,0xB8,0x01,0,0,0,0xA2],rfl⟩,⟨[0x28,1,2,3,4,5,6,158],rfl⟩]
    ∃ found : List Rom, found.Pairwise (fun r r' => romBits r < romBits r') ∧ (∀ r, r ∈ found ↔ r ∈ devices) ∧
      ∀ (m : OwMaster) (calls : List OwCall), m.bus.devices = devices → (∀ c ∈ calls, c = .owNext ∨ c = .owSearch) →
        oneWire.trace m (.owFirst :: calls) =
          (List.range (calls.length + 1)).map fun k => .searched found[k % (found.length + 1)]? :=
  ow_enumeration [⟨[0x28,1,2,3,4,5,7,192],rfl⟩,⟨[0x02,0x1C,0xB8,0x01,0,0,0,0xA2],rfl⟩,⟨[0x28,1,2,3,4,5,6,158],rfl⟩]
    (by decide) (by decide +kernel)

end Net2Modbus
