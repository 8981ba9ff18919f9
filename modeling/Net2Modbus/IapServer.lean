import Net2Modbus.Machine
import Net2Modbus.Flash
import Net2Modbus.Resources

/-!
# The server for new firmware

The TFTP server of `tftpserver_iap.c`: write requests on port 69, each of which
opens a port of its own, the packets on these ports, and the flash that they are
written to. The write address is one global variable; the block number belongs to
the transfer.
-/
namespace Net2Modbus

def flashFirstPageAddress : UInt32 := 0x08010000
def userFlashLastPageAddress : UInt32 := 0x0803F000

/-- The loop of `FLASH_If_Erase`, with the number of turns that are left. -/
def eraseLoop (f : Flash) (flashAddress : UInt32) : Nat → Flash × Bool
  | 0 => (f,true)
  | turns + 1 =>
    if flashAddress ≤ userFlashLastPageAddress then
      let (f,complete) := flashErasePage flashAddress f
      if complete then eraseLoop f (flashAddress + flashPageSize) turns else (f,false)
    else (f,true)
/-- The last page is reached in as many turns as there are pages. -/
def flashIfErase (startSector : UInt32) (f : Flash) : Flash × Bool :=
  let (f,complete) := eraseLoop { f with irqEnabled := false } startSector
    ((userFlashLastPageAddress.toNat - startSector.toNat) / flashPageSize.toNat + 1)
  ({ f with irqEnabled := true },complete)

/-- The loop of `FLASH_If_Write`, which moves the address on word by word. -/
def writeLoop (flashAddress : UInt32) (f : Flash) : List UInt32 → UInt32 × Flash
  | [] => (flashAddress,f)
  | data :: rest =>
    if flashAddress ≤ userFlashEndAddress - 4 then
      let (f,complete) := flashProgramWord flashAddress data f
      if complete then writeLoop (flashAddress + 4) f rest else (flashAddress,f)
    else (flashAddress,f)
def flashIfWrite (flashAddress : UInt32) (data : List UInt32) (f : Flash) : UInt32 × Flash :=
  let (flashAddress,f) := writeLoop flashAddress { f with irqEnabled := false } data
  (flashAddress,{ f with irqEnabled := true })

def tftpDataPktHdrLen : Nat := 4
def tftpDataPktLenMax : Nat := 516

/-- The opcodes of `tftp_opcode`. -/
def tftpRrq : UInt8 := 1
def tftpWrq : UInt8 := 2
def tftpData : UInt8 := 3
def tftpAck : UInt8 := 4

/-- A received datagram: the bytes of its first pbuf, its whole length, and what the
    memory holds behind the first pbuf. -/
structure Packet where
  bytes : List UInt8
  totLen : Nat
  behind : List UInt8
  deriving DecidableEq, Repr

def Packet.byteAt (p : Packet) (i : Nat) : UInt8 := (p.bytes ++ p.behind).getD i 0
/-- The datagram takes more than one pbuf. -/
def Packet.Chained (p : Packet) : Prop := p.bytes.length ≠ p.totLen

instance (p : Packet) : Decidable p.Chained := inferInstanceAs (Decidable (_ ≠ _))

/-- `IAP_tftp_decode_op` -/
def iapTftpDecodeOp (p : Packet) : UInt8 := p.byteAt 1
/-- `IAP_tftp_extract_block` -/
def iapTftpExtractBlock (p : Packet) : Nat := (p.byteAt 2).toNat * 256 + (p.byteAt 3).toNat

/-- The address and the port of a host. -/
structure Peer where
  addr : UInt32
  port : UInt16
  deriving DecidableEq, Repr

/-- The members of `tftp_connection_args` that the server sets; `op` is `TFTP_WRQ` in
    all of them. -/
structure IapArgs where
  peer : Peer
  block : Nat
  totBytes : Nat
  deriving DecidableEq, Repr

/-- The buffer of the packet that is handled, and the control block and the arguments
    that belong to a request. -/
inductive TftpResource
  | pbuf
  | pcb (n : Nat)
  | args (n : Nat)
  deriving DecidableEq, Repr

inductive IapEvent
  | handling (h : Handling TftpResource)
  /-- An acknowledgement that is sent from the port of a transfer. -/
  | ack (pcb : Nat) (addr : Peer) (block : UInt16)
  /-- A call of `IAP_EndSetFlash` by a transfer, with the flash that it finds. -/
  | endSetFlash (pcb : Nat) (flash : Flash)
  /-- The jump to the new program. -/
  | jump

/-- `pcbs` has an entry for each control block that was made for a request: the
    arguments while its callback is registered. -/
structure IapServer where
  flash : Flash
  flashWriteAddress : UInt32
  totalCount : UInt32
  flashNetBuf : Block UInt32 4
  pcbs : List (Option IapArgs)
  jumped : Bool

/-- What the calls to lwIP return while a packet is handled, what stands on the stack
    from `data_buffer` on, and the results of the operations on the flash. -/
structure IapEnv where
  udpNew : Bool
  udpBind : Bool
  memMalloc : Bool
  pbufAlloc : Bool
  stack : List UInt8
  outcomes : List Bool

/-- Everything succeeds. -/
def IapEnv.plain : IapEnv := ⟨true,true,true,true,[],[]⟩

def usePbuf : IapEvent := .handling (.use .pbuf)
def freePbuf : IapEvent := .handling (.release .pbuf)

/-- `IAP_tftp_send_ack_packet`; the block number is cut to 16 bits. -/
def iapTftpSendAckPacket (env : IapEnv) (pcb : Nat) (addr : Peer) (block : Nat) : List IapEvent :=
  if env.pbufAlloc then [.handling (.use (.pcb pcb)),.ack pcb addr (UInt16.ofNat block)] else []

/-- `IAP_tftp_cleanup_wr`, for a control block with or without arguments. -/
def iapTftpCleanupWr (pcb : Nat) (args : Bool) : List IapEvent :=
  (if args then [.handling (.release (.args pcb))] else []) ++
    [.handling (.use (.pcb pcb)),.handling (.release (.pcb pcb))]

/-- A word whose first byte in memory is the lowest. -/
def littleEndian (b0 b1 b2 b3 : UInt8) : UInt32 :=
  (b3.toUInt32 <<< 24) + (b2.toUInt32 <<< 16) + (b1.toUInt32 <<< 8) + b0.toUInt32
/-- The words at the start of a memory. -/
def wordsOf (memory : List UInt8) (count : Nat) : List UInt32 :=
  (List.range count).map fun i =>
    littleEndian (memory.getD (4 * i) 0) (memory.getD (4 * i + 1) 0) (memory.getD (4 * i + 2) 0) (memory.getD (4 * i + 3) 0)
/-- `count` of the callback: the words that some bytes need. -/
def wordCount (bytes : Nat) : Nat := if bytes % 4 ≠ 0 then bytes / 4 + 1 else bytes / 4

/-- The jump is taken when the first word can be a stack pointer. -/
def iapEndSetFlash (s : IapServer) : IapServer × List IapEvent :=
  if s.flash.word flashFirstPageAddress &&& 0x2FFE0000 = 0x20000000 then
    let words := s.flashNetBuf.poke 2 0xAAAAAAAA
    ({ s with flashNetBuf := words, flash := writeIpToFlash words s.flash, jumped := true },[.jump])
  else (s,[])

/-- The part of `IAP_wrq_recv_callback` that accepts a block: with data, which goes to
    the flash, or without. -/
def iapAccept (env : IapEnv) (args : IapArgs) (p : Packet) (s : IapServer) : IapServer × IapArgs :=
  if iapTftpExtractBlock p = args.block + 1 then
    if tftpDataPktHdrLen < p.bytes.length then
      let size := p.bytes.length - tftpDataPktHdrLen
      let written := flashIfWrite s.flashWriteAddress
        (wordsOf (p.bytes.drop tftpDataPktHdrLen ++ env.stack.drop size) (wordCount size)) s.flash
      ({ s with flashWriteAddress := written.1, flash := written.2, totalCount := s.totalCount + UInt32.ofNat size },
        { args with block := args.block + 1, totBytes := args.totBytes + size })
    else (s,{ args with block := args.block + 1 })
  else (s,args)

/-- `IAP_wrq_recv_callback`. A short packet ends the transfer, whether it was accepted or
    not. -/
def iapWrqRecvCallback (env : IapEnv) (pcb : Nat) (args : IapArgs) (addr : Peer) (p : Packet) (s : IapServer) :
    IapServer × List IapEvent :=
  if p.Chained then (s,[usePbuf])
  else
    let (s,args) := iapAccept env args p s
    let ack := [usePbuf,.handling (.use (.args pcb))] ++ iapTftpSendAckPacket env pcb addr args.block
    if p.bytes.length < tftpDataPktLenMax then
      let s := { s with pcbs := s.pcbs.set pcb none }
      let done := iapEndSetFlash s
      (done.1,ack ++ iapTftpCleanupWr pcb true ++ [freePbuf,.endSetFlash pcb s.flash] ++ done.2)
    else ({ s with pcbs := s.pcbs.set pcb (some args) },ack ++ [freePbuf])

/-- `IAP_tftp_process_write`, for the newest control block. -/
def iapTftpProcessWrite (env : IapEnv) (addr : Peer) (s : IapServer) : IapServer × List IapEvent :=
  let pcb := s.pcbs.length
  if env.memMalloc then
    let erased := flashIfErase flashFirstPageAddress (flashIfInit s.flash)
    ({ s with pcbs := s.pcbs ++ [some ⟨addr,0,0⟩], totalCount := 0, flash := erased.1,
              flashWriteAddress := flashFirstPageAddress },
      [.handling (.acquire (.args pcb)),.handling (.use (.args pcb)),.handling (.use (.pcb pcb))] ++
        iapTftpSendAckPacket env pcb addr 0)
  else ({ s with pcbs := s.pcbs ++ [none] },iapTftpCleanupWr pcb false)

/-- `IAP_tftp_recv_callback` on port 69. -/
def iapTftpRecvCallback (env : IapEnv) (addr : Peer) (p : Packet) (s : IapServer) : IapServer × List IapEvent :=
  let pcb := s.pcbs.length
  if env.udpNew then
    if env.udpBind then
      if iapTftpDecodeOp p = tftpWrq then
        let done := iapTftpProcessWrite env addr s
        (done.1,[.handling (.acquire (.pcb pcb)),.handling (.use (.pcb pcb)),usePbuf] ++ done.2 ++ [freePbuf])
      else
        ({ s with pcbs := s.pcbs ++ [none] },
          [.handling (.acquire (.pcb pcb)),.handling (.use (.pcb pcb)),usePbuf,.handling (.release (.pcb pcb)),freePbuf])
    else ({ s with pcbs := s.pcbs ++ [none] },[.handling (.acquire (.pcb pcb)),.handling (.use (.pcb pcb))])
  else (s,[])

/-- A datagram for port 69, or for the port of a transfer. -/
inductive IapInput
  | request (env : IapEnv) (addr : Peer) (p : Packet)
  | data (env : IapEnv) (pcb : Nat) (addr : Peer) (p : Packet)

/-- The arguments of a transfer whose callback is registered. -/
def IapServer.args (s : IapServer) (pcb : Nat) : Option IapArgs := (s.pcbs[pcb]?).join

/-- A datagram for another port reaches no callback, and after the jump nothing does. -/
def iapEnabled (s : IapServer) : IapInput → Prop
  | .request _ _ p => s.jumped = false ∧ p.bytes.length ≤ p.totLen ∧ p.totLen < 65536
  | .data _ pcb _ p => s.jumped = false ∧ (s.args pcb).isSome = true ∧ p.bytes.length ≤ p.totLen ∧ p.totLen < 65536

def IapServer.withOutcomes (outcomes : List Bool) (s : IapServer) : IapServer :=
  { s with flash := { s.flash with outcomes := outcomes } }

def iapStep (s : IapServer) : IapInput → IapServer × List IapEvent
  | .request env addr p =>
    let done := iapTftpRecvCallback env addr p (s.withOutcomes env.outcomes)
    (done.1,.handling (.acquire .pbuf) :: done.2)
  | .data env pcb addr p =>
    match s.args pcb with
    | none => (s,[])
    | some args =>
      let done := iapWrqRecvCallback env pcb args addr p (s.withOutcomes env.outcomes)
      (done.1,.handling (.acquire .pbuf) :: done.2)

def iap : Machine IapServer IapInput IapEvent := ⟨iapEnabled,iapStep⟩

instance (s : IapServer) (i : IapInput) : Decidable (iap.enabled s i) :=
  match i with
  | .request _ _ _ | .data _ _ _ _ => inferInstanceAs (Decidable (_ ∧ _))

/-- The server after `IAP_main`, over a flash whose configuration was loaded. -/
def iapStarted (flash : Flash) : IapServer where
  flash := (getIpFromFlash flash).1
  flashWriteAddress := 0
  totalCount := 0
  flashNetBuf := (getIpFromFlash flash).2
  pcbs := []
  jumped := false

end Net2Modbus
