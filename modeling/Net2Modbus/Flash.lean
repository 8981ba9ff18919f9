import Net2Modbus.Event

/-!
# The configuration words in flash

The driver of `flash_if.c` as the configuration uses it: the words of the flash,
what the coming erase and program operations will return, and whether
interrupts are enabled.
-/
namespace Net2Modbus

def userFlashEndAddress : UInt32 := 0x0803FFFF
def flashPageSize : UInt32 := 0x800
def ipAddrFlash : UInt32 := 0x0803f800
def ipPortFlash : UInt32 := 0x0803f800 + 4
def iapModeFlageFlash : UInt32 := 0x0803f800 + 8
def rfChannelFlageFlash : UInt32 := 0x0803f800 + 12
/-- A word that nothing was written to since its page was erased. -/
def blankWord : UInt32 := 0xffffffff

/-- `outcomes` has the results of the coming operations, `true` for
    `FLASH_COMPLETE`; beyond its end every operation completes. -/
structure Flash where
  word : UInt32 → UInt32
  outcomes : List Bool
  irqEnabled : Bool

/-- The result of the next operation. -/
def Flash.next (f : Flash) : Flash × Bool :=
  match f.outcomes with
  | [] => (f,true)
  | complete :: rest => ({ f with outcomes := rest },complete)

def flashErasePage (page : UInt32) (f : Flash) : Flash × Bool :=
  let (f,complete) := f.next
  if complete then
    ({ f with word := fun a => if page ≤ a ∧ a < page + flashPageSize then blankWord else f.word a },true)
  else (f,false)
def flashProgramWord (address data : UInt32) (f : Flash) : Flash × Bool :=
  let (f,complete) := f.next
  if complete then ({ f with word := fun a => if a = address then data else f.word a },true)
  else (f,false)

/-- Interrupts are enabled on return, whatever they were before. -/
def flashIfInit (f : Flash) : Flash := { f with irqEnabled := true }

/-- The loop stores every word at the same place and goes on by 16 bytes a turn. -/
def flashIfDataFlashRead (flashAddress data : UInt32) (dataLength : Nat) (f : Flash) : Flash × UInt32 :=
  ({ f with irqEnabled := true },
    (List.range dataLength).foldl
      (fun data i =>
        if flashAddress ≤ userFlashEndAddress - 4 then f.word (flashAddress + 16 * UInt32.ofNat i) else data)
      data)

/-- The loop of `FLASH_If_DataFlashWrite`. -/
def dataFlashWriteLoop (flashAddress : UInt32) (f : Flash) : List UInt32 → Flash
  | [] => f
  | data :: rest =>
    if flashAddress ≤ userFlashEndAddress - 4 then
      let (f,complete) := flashProgramWord flashAddress data f
      if complete then dataFlashWriteLoop (flashAddress + 4) f rest else { f with irqEnabled := true }
    else { f with irqEnabled := true }
/-- Only the error exits enable the interrupts again. -/
def flashIfDataFlashWrite (flashAddress : UInt32) (data : List UInt32) (f : Flash) : Flash :=
  dataFlashWriteLoop flashAddress { f with irqEnabled := false } data

/-- The four configuration words: IP, port, mode and channel. -/
def getIpFromFlash (f : Flash) : Flash × Block UInt32 4 :=
  let f := flashIfInit f
  let (f,ip) := flashIfDataFlashRead ipAddrFlash 0 1 f
  let (f,port) := flashIfDataFlashRead ipPortFlash 0 1 f
  let (f,iapMode) := flashIfDataFlashRead iapModeFlageFlash 0 1 f
  let (f,channel) := flashIfDataFlashRead rfChannelFlageFlash 0 1 f
  if ip = blankWord ∨ port = blankWord ∨ channel = blankWord then
    let (f,_) := flashErasePage ipAddrFlash f
    (flashIfDataFlashWrite ipAddrFlash [0x7B3B60E9,0x162F,iapMode,0] f,⟨[0x7B3B60E9,0x162F,iapMode,0],rfl⟩)
  else (f,⟨[ip,port,iapMode,channel],rfl⟩)

/-- The length parameter of the source is not used. -/
def writeIpToFlash (ptr : Block UInt32 4) (f : Flash) : Flash :=
  let f := flashIfInit { f with irqEnabled := false }
  let (f,_) := flashErasePage ipAddrFlash f
  { flashIfDataFlashWrite ipAddrFlash ptr.cells f with irqEnabled := true }

end Net2Modbus
