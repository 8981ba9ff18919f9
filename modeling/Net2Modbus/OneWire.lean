import Net2Modbus.Block
import Net2Modbus.Machine

/-!
# The search of the 1-Wire bus

The functions of `ds18b20sech.c` that find the devices of the bus, and the bus: devices that
send their ROM codes at the same time, each bit and its complement, and leave the search when
the master writes another bit than theirs.
-/
namespace Net2Modbus

/-- The eight bytes of a ROM code. -/
abbrev Rom := Block UInt8 8

/-- The bits of a code in the order in which they are sent, the lowest of a byte first. -/
def romBit (r : Rom) (i : Nat) : Bool := (r.peek (i / 8)).toBitVec.getLsbD (i % 8)
def romBits (r : Rom) : List Bool := (List.range 64).map (romBit r)

def dscrcTable : List UInt8 :=
  [0,94,188,226,97,63,221,131,194,156,126,32,163,253,31,65,
    157,195,33,127,252,162,64,30,95,1,227,189,62,96,130,220,
    35,125,159,193,66,28,254,160,225,191,93,3,128,222,60,98,
    190,224,2,92,223,129,99,61,124,34,192,158,29,67,161,255,
    70,24,250,164,39,121,155,197,132,218,56,102,229,187,89,7,
    219,133,103,57,186,228,6,88,25,71,165,251,120,38,196,154,
    101,59,217,135,4,90,184,230,167,249,27,69,198,152,122,36,
    248,166,68,26,153,199,37,123,58,100,134,216,91,5,231,185,
    140,210,48,110,237,179,81,15,78,16,242,172,47,113,147,205,
    17,79,173,243,112,46,204,146,211,141,111,49,178,236,14,80,
    175,241,19,77,206,144,114,44,109,51,209,143,12,82,176,238,
    50,108,142,208,83,13,239,177,240,174,76,18,145,207,45,115,
    202,148,118,40,171,245,23,73,8,86,180,234,105,55,213,139,
    87,9,235,181,54,104,138,212,149,203,41,119,244,170,72,22,
    233,183,85,11,136,214,52,106,43,117,151,201,74,20,246,168,
    116,42,200,150,21,75,169,247,182,232,10,84,215,137,107,53]

/-- `docrc8`, with the variable `crc8`. -/
def docrc8 (value crc8 : UInt8) : UInt8 := dscrcTable.getD (crc8 ^^^ value).toNat 0

def searchRom : UInt8 := 0xf0

/-- `selected` are the devices that take part in a search; they all send the bit with the
    same number, or its complement. -/
structure OneWire where
  devices : List Rom
  selected : List Rom
  bitNumber : Nat
  complement : Bool
  deriving DecidableEq, Repr

/-- A reset, and whether a device answers. -/
def owReset (bus : OneWire) : OneWire × Bool := ({ bus with selected := [] },!bus.devices.isEmpty)
/-- After the command to search all devices take part; no other command is followed by one. -/
def owWriteByte (byte : UInt8) (bus : OneWire) : OneWire :=
  if byte = searchRom then { bus with selected := bus.devices, bitNumber := 0, complement := false }
  else { bus with selected := [] }
/-- The line is high when no device pulls it down. -/
def owReadBit (bus : OneWire) : OneWire × Bool :=
  ({ bus with complement := true },bus.selected.all fun r => romBit r bus.bitNumber != bus.complement)
def owWriteBit (bit : Bool) (bus : OneWire) : OneWire :=
  { bus with
    selected := bus.selected.filter fun r => romBit r bus.bitNumber == bit
    bitNumber := bus.bitNumber + 1
    complement := false }

/-- The global search state. -/
structure OwState where
  romNo : Rom
  lastDiscrepancy : Nat
  lastFamilyDiscrepancy : Nat
  lastDeviceFlag : Bool
  crc8 : UInt8
  deriving DecidableEq, Repr

/-- The variables of the loop of `OWSearch`. -/
structure OwLoop where
  idBitNumber : Nat
  lastZero : Nat
  romByteNumber : Nat
  romByteMask : UInt8
  state : OwState
  bus : OneWire
  deriving DecidableEq, Repr

/-- The direction for a bit where devices differ. -/
def OwLoop.discrepancy (v : OwLoop) : Bool :=
  if v.idBitNumber < v.state.lastDiscrepancy then decide (0 < v.state.romNo.peek v.romByteNumber &&& v.romByteMask)
  else decide (v.idBitNumber = v.state.lastDiscrepancy)
/-- Where zero is picked its position is recorded. -/
def OwLoop.recordZero (v : OwLoop) : OwLoop :=
  { v with
    lastZero := v.idBitNumber
    state := { v.state with
      lastFamilyDiscrepancy := if v.idBitNumber < 9 then v.idBitNumber else v.state.lastFamilyDiscrepancy } }
/-- The bit is stored in `ROM_NO` and written to the bus, and the loop goes on to the next
    bit, which may be in the next byte. -/
def OwLoop.take (direction : Bool) (v : OwLoop) : OwLoop :=
  let byte := v.state.romNo.peek v.romByteNumber
  let romNo := v.state.romNo.poke v.romByteNumber (if direction then byte ||| v.romByteMask else byte &&& ~~~v.romByteMask)
  let mask := v.romByteMask <<< 1
  let v := { v with idBitNumber := v.idBitNumber + 1, bus := owWriteBit direction v.bus }
  if mask = 0 then
    { v with
      romByteNumber := v.romByteNumber + 1
      romByteMask := 1
      state := { v.state with romNo, crc8 := docrc8 (romNo.peek v.romByteNumber) v.state.crc8 } }
  else { v with romByteMask := mask, state := { v.state with romNo } }
/-- One turn of the loop, and whether it does not leave the loop by `break`. -/
def owSearchTurn (v : OwLoop) : OwLoop × Bool :=
  let (bus,idBit) := owReadBit v.bus
  let (bus,cmpIdBit) := owReadBit bus
  let v := { v with bus }
  if idBit = true ∧ cmpIdBit = true then (v,false)
  else if idBit ≠ cmpIdBit then (v.take idBit,true)
  else if v.discrepancy then (v.take true,true)
  else (v.recordZero.take false,true)
/-- The loop, which ends after 64 bits at the latest. -/
def owSearchLoop : Nat → OwLoop → OwLoop
  | 0,v => v
  | turns + 1,v =>
    let turn := owSearchTurn v
    if turn.2 = true ∧ turn.1.romByteNumber < 8 then owSearchLoop turns turn.1 else turn.1

/-- The search state when nothing was found. -/
def OwState.restart (s : OwState) : OwState :=
  { s with lastDiscrepancy := 0, lastDeviceFlag := false, lastFamilyDiscrepancy := 0 }
/-- The state after the loop, and `search_result`. -/
def OwLoop.result (v : OwLoop) : OwState × Bool :=
  if v.idBitNumber < 65 ∨ v.state.crc8 ≠ 0 then (v.state,false)
  else
    ({ v.state with
        lastDiscrepancy := v.lastZero
        lastDeviceFlag := if v.lastZero = 0 then true else v.state.lastDeviceFlag },true)
/-- The end of `OWSearch`, which also fails for the family code zero. -/
def owFound (result : OwState × Bool) : OwState × Bool :=
  if result.2 = false ∨ result.1.romNo.peek 0 = 0 then (result.1.restart,false) else result

/-- `OWSearch` -/
def owSearch (bus : OneWire) (s : OwState) : OneWire × OwState × Bool :=
  let s := { s with crc8 := 0 }
  if s.lastDeviceFlag then (bus,owFound (s,false))
  else
    let (bus,present) := owReset bus
    if present then
      let v := owSearchLoop 64 ⟨1,0,0,1,s,owWriteByte searchRom bus⟩
      (v.bus,owFound v.result)
    else (bus,s.restart,false)
def owFirst (bus : OneWire) (s : OwState) : OneWire × OwState × Bool := owSearch bus s.restart
def owNext (bus : OneWire) (s : OwState) : OneWire × OwState × Bool := owSearch bus s
/-- `OWVerify`, which searches for the code in `ROM_NO` and then restores the state. -/
def owVerify (bus : OneWire) (s : OwState) : OneWire × OwState × Bool :=
  let (bus,found,result) := owSearch bus { s with lastDiscrepancy := 64, lastDeviceFlag := false }
  (bus,{ s with crc8 := found.crc8 },result && found.romNo == s.romNo)

structure OwMaster where
  bus : OneWire
  state : OwState
  deriving DecidableEq, Repr

/-- Calls of the functions, and another code stored in `ROM_NO`. -/
inductive OwCall
  | owFirst | owNext | owSearch | owVerify
  | store (rom : Rom)
  deriving DecidableEq, Repr

/-- What a call of a search returns: the code in `ROM_NO` for `TRUE`; and what `OWVerify`
    returns. -/
inductive OwEvent
  | searched (found : Option Rom)
  | verified (present : Bool)
  deriving DecidableEq, Repr

def OwMaster.searched (done : OneWire × OwState × Bool) : OwMaster × List OwEvent :=
  (⟨done.1,done.2.1⟩,[.searched (if done.2.2 then some done.2.1.romNo else none)])

def owStep (m : OwMaster) : OwCall → OwMaster × List OwEvent
  | .owFirst => OwMaster.searched (owFirst m.bus m.state)
  | .owNext => OwMaster.searched (owNext m.bus m.state)
  | .owSearch => OwMaster.searched (owSearch m.bus m.state)
  | .owVerify =>
    let done := owVerify m.bus m.state
    (⟨done.1,done.2.1⟩,[.verified done.2.2])
  | .store rom => ({ m with state := { m.state with romNo := rom } },[])

def oneWire : Machine OwMaster OwCall OwEvent := ⟨fun _ _ => True,owStep⟩

end Net2Modbus
