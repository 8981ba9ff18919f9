import Net2Modbus.IapServer

/-!
# The server for files

The TFTP server of `tftpserver.c`: read and write requests on port 69, the packets of the
transfers, the two open files, and the timeout of reads. The files of the card are seen
as `efsl` hands them out: what a file contains when it is opened, and how much of a write
is done, are inputs.
-/
namespace Net2Modbus

def tftpDataLenMax : Nat := 512

/-- An open file: whether it may be written, its bytes, and the position. -/
structure EfsFile where
  isOpen : Bool
  isWrite : Bool
  contents : List UInt8
  filePtr : Nat
  deriving DecidableEq, Repr

/-- `file_fopen`. A file that exists keeps its bytes, also when it is opened to be written. -/
def fileFopen (isWrite : Bool) (contents : List UInt8) : EfsFile := ⟨true,isWrite,contents,0⟩
/-- `file_fclose` -/
def fileFclosed : EfsFile := ⟨false,false,[],0⟩
/-- `file_read`; nothing is read when the card fails. -/
def fileRead (ok : Bool) (size : Nat) (f : EfsFile) : EfsFile × List UInt8 :=
  if f.isOpen = true ∧ ok = true then
    let bytes := (f.contents.drop f.filePtr).take size
    ({ f with filePtr := f.filePtr + bytes.length },bytes)
  else (f,[])
/-- `file_write`, which writes as many bytes as the card takes. -/
def fileWrite (takes : Nat) (data : List UInt8) (f : EfsFile) : EfsFile × List UInt8 :=
  if f.isOpen = true ∧ f.isWrite = true then
    let bytes := data.take takes
    ({ f with
        contents := f.contents.take f.filePtr ++ bytes ++ f.contents.drop (f.filePtr + bytes.length)
        filePtr := f.filePtr + bytes.length },bytes)
  else (f,[])

/-- `tftp_errorcode`; the text that belongs to a code is left out. -/
inductive TftpErrorcode
  | notdefined | fileNotFound | accessViolation | diskfull | illegalop | uknownTransferId
  | fileAlreadyExists | noSuchUser
  deriving DecidableEq, Repr

/-- The members of `tftp_connection_args` that the callbacks use; `op` is `TFTP_RRQ` or
    `TFTP_WRQ`. -/
structure TftpArgs where
  op : UInt8
  peer : Peer
  block : Nat
  dataLen : Nat
  totBytes : Nat
  deriving DecidableEq, Repr

inductive TftpEvent
  | handling (h : Handling TftpResource)
  | error (pcb : Nat) (addr : Peer) (code : TftpErrorcode)
  | ack (pcb : Nat) (addr : Peer) (block : UInt16)
  | data (pcb : Nat) (addr : Peer) (block : UInt16) (bytes : List UInt8)
  /-- Bytes that `file_write` wrote to the file of a transfer. -/
  | wrote (pcb : Nat) (bytes : List UInt8)
  | cleanupRd (pcb : Nat)
  /-- The clean-up of a write, with the file that it closes. -/
  | cleanupWr (pcb : Nat) (file : EfsFile)
  deriving DecidableEq, Repr

/-- `port69` tells whether requests are taken; `pcbs` has an entry for each control block
    that was made for a request: the arguments while its callback is registered. -/
structure TftpServer where
  port69 : Bool
  fileSD : EfsFile
  fileCR : EfsFile
  pcbs : List (Option TftpArgs)
  tftptimeoutTimer : Bool
  tftptimeout : UInt8
  timeoutupcb : Nat
  timeoutaddr : Peer
  deriving DecidableEq, Repr

/-- What the calls to lwIP and `efsl` return while an input is handled: `fopen` has the
    bytes of the file that is opened, `takes` how many bytes are written, `errorAlloc` and
    `replyAlloc` whether there is a pbuf for a message, and `removedSends` whether
    `udp_sendto` still sends from a control block that was removed. -/
structure TftpEnv where
  udpNew : Bool
  udpBind : Bool
  efsInit : Bool
  lsOpenDir : Bool
  fopen : Option (List UInt8)
  memMalloc : Bool
  errorAlloc : Bool
  replyAlloc : Bool
  takes : Nat
  readOk : Bool
  removedSends : Bool

/-- Everything succeeds, with a file. -/
def TftpEnv.plain (contents : List UInt8) : TftpEnv :=
  ⟨true,true,true,true,some contents,true,true,true,512,true,true⟩

/-- The arguments of a transfer whose callback is registered. -/
def TftpServer.args (s : TftpServer) (pcb : Nat) : Option TftpArgs := (s.pcbs[pcb]?).join
/-- The arguments change where a callback is still registered with them. -/
def TftpServer.setArgs (pcb : Nat) (args : TftpArgs) (s : TftpServer) : TftpServer :=
  { s with pcbs := s.pcbs.modify pcb (Option.map fun _ => args) }

def TftpEvent.usePbuf : TftpEvent := .handling (.use .pbuf)
def TftpEvent.freePbuf : TftpEvent := .handling (.release .pbuf)

/-- `tftp_send_error_message` -/
def tftpSendErrorMessage (env : TftpEnv) (pcb : Nat) (addr : Peer) (code : TftpErrorcode) : List TftpEvent :=
  if env.errorAlloc then [.handling (.use (.pcb pcb)),.error pcb addr code] else []
/-- `tftp_send_ack_packet`; the block number is cut to 16 bits. -/
def tftpSendAckPacket (env : TftpEnv) (pcb : Nat) (addr : Peer) (block : Nat) : List TftpEvent :=
  if env.replyAlloc then [.handling (.use (.pcb pcb)),.ack pcb addr (UInt16.ofNat block)] else []
/-- `tftp_send_data_packet`, from a control block that may have been removed. -/
def tftpSendDataPacket (env : TftpEnv) (removed : Bool) (pcb : Nat) (addr : Peer) (block : Nat) (bytes : List UInt8) :
    List TftpEvent :=
  if env.replyAlloc then
    .handling (.use (.pcb pcb)) ::
      if removed = true ∧ env.removedSends = false then [] else [.data pcb addr (UInt16.ofNat block) bytes]
  else []

/-- What both clean-up functions do, for a control block with or without arguments. -/
def tftpCleanup (pcb : Nat) (args : Bool) : List TftpEvent :=
  (if args then [TftpEvent.handling (.release (.args pcb))] else []) ++
    [TftpEvent.handling (.use (.pcb pcb)),.handling (.release (.pcb pcb))]
def tftpCleanupRd (pcb : Nat) (args : Bool) (s : TftpServer) : TftpServer × List TftpEvent :=
  ({ s with fileSD := fileFclosed, pcbs := s.pcbs.set pcb none, port69 := true },.cleanupRd pcb :: tftpCleanup pcb args)
def tftpCleanupWr (pcb : Nat) (args : Bool) (s : TftpServer) : TftpServer × List TftpEvent :=
  ({ s with fileCR := fileFclosed, pcbs := s.pcbs.set pcb none, port69 := true },
    .cleanupWr pcb s.fileCR :: tftpCleanup pcb args)

/-- `tftp_is_correct_ack`; the number is compared with the whole block counter. -/
def tftpIsCorrectAck (p : Packet) (block : Nat) : Prop := iapTftpDecodeOp p = tftpAck ∧ iapTftpExtractBlock p = block

instance (p : Packet) (block : Nat) : Decidable (tftpIsCorrectAck p block) := inferInstanceAs (Decidable (_ ∧ _))

/-- `tftp_send_next_block` -/
def tftpSendNextBlock (env : TftpEnv) (removed : Bool) (pcb : Nat) (args : TftpArgs) (addr : Peer) (s : TftpServer) :
    TftpServer × TftpArgs × List TftpEvent :=
  let (file,bytes) := fileRead env.readOk tftpDataLenMax s.fileSD
  ({ s with fileSD := file },{ args with dataLen := bytes.length },
    .handling (.use (.args pcb)) :: tftpSendDataPacket env removed pcb addr args.block bytes)

/-- `rrq_recv_callback`. After the clean-up it goes on with what it has given back. -/
def rrqRecvCallback (env : TftpEnv) (pcb : Nat) (args : TftpArgs) (addr : Peer) (p : Packet) (s : TftpServer) :
    TftpServer × List TftpEvent :=
  let s := { s with tftptimeout := 0 }
  let args := if tftpIsCorrectAck p args.block then { args with block := args.block + 1 } else args
  let start := [TftpEvent.usePbuf,.handling (.use (.args pcb))]
  if args.dataLen < tftpDataLenMax then
    let closed := tftpCleanupRd pcb true { s with tftptimeoutTimer := false }
    let sent := tftpSendNextBlock env true pcb args addr closed.1
    (sent.1,start ++ closed.2 ++ [TftpEvent.freePbuf] ++ sent.2.2 ++ [TftpEvent.freePbuf])
  else
    let sent := tftpSendNextBlock env false pcb args addr s
    (sent.1.setArgs pcb sent.2.1,start ++ sent.2.2 ++ [TftpEvent.freePbuf])

/-- `tftp_process_read` -/
def tftpProcessRead (env : TftpEnv) (pcb : Nat) (addr : Peer) (s : TftpServer) : TftpServer × List TftpEvent :=
  match env.fopen with
  | none =>
    let closed := tftpCleanupRd pcb false s
    (closed.1,tftpSendErrorMessage env pcb addr .fileNotFound ++ closed.2)
  | some contents =>
    let s := { s with fileSD := fileFopen false contents }
    if env.memMalloc then
      let sent := tftpSendNextBlock env false pcb ⟨tftpRrq,addr,1,0,0⟩ addr s
      ({ sent.1 with pcbs := sent.1.pcbs.set pcb (some sent.2.1), timeoutupcb := pcb, tftptimeoutTimer := true },
        [.handling (.acquire (.args pcb)),.handling (.use (.args pcb)),.handling (.use (.pcb pcb))] ++ sent.2.2)
    else
      let closed := tftpCleanupRd pcb false s
      (closed.1,tftpSendErrorMessage env pcb addr .notdefined ++ closed.2)

/-- The part of `wrq_recv_callback` that accepts a block. When nothing could be written the
    transfer is cleaned up, and the callback goes on. -/
def wrqAccept (env : TftpEnv) (pcb : Nat) (args : TftpArgs) (addr : Peer) (p : Packet) (s : TftpServer) :
    TftpServer × TftpArgs × List TftpEvent :=
  if iapTftpExtractBlock p = args.block + 1 then
    if tftpDataPktHdrLen < p.bytes.length then
      let (file,bytes) := fileWrite env.takes (p.bytes.drop tftpDataPktHdrLen) s.fileCR
      let s := { s with fileCR := file }
      let args := { args with block := args.block + 1, totBytes := args.totBytes + (p.bytes.length - tftpDataPktHdrLen) }
      if bytes = [] then
        let closed := tftpCleanupWr pcb true s
        (closed.1,args,tftpSendErrorMessage env pcb addr .fileNotFound ++ closed.2)
      else (s,args,[.wrote pcb bytes])
    else (s,{ args with block := args.block + 1 },[])
  else (s,args,[])

/-- `wrq_recv_callback`. A short packet ends the transfer, whether it was accepted or not. -/
def wrqRecvCallback (env : TftpEnv) (pcb : Nat) (args : TftpArgs) (addr : Peer) (p : Packet) (s : TftpServer) :
    TftpServer × List TftpEvent :=
  if p.Chained then (s,[.usePbuf])
  else
    let accepted := wrqAccept env pcb args addr p s
    let args := accepted.2.1
    let s := accepted.1.setArgs pcb args
    let events := [TftpEvent.usePbuf,.handling (.use (.args pcb))] ++ accepted.2.2 ++
      [TftpEvent.handling (.use (.args pcb))] ++ tftpSendAckPacket env pcb addr args.block
    if p.bytes.length < tftpDataPktLenMax then
      let closed := tftpCleanupWr pcb true s
      (closed.1,events ++ closed.2 ++ [TftpEvent.freePbuf])
    else (s,events ++ [TftpEvent.freePbuf])

/-- `tftp_process_write` -/
def tftpProcessWrite (env : TftpEnv) (pcb : Nat) (addr : Peer) (s : TftpServer) : TftpServer × List TftpEvent :=
  match env.fopen with
  | none =>
    let closed := tftpCleanupWr pcb false s
    (closed.1,tftpSendErrorMessage env pcb addr .fileAlreadyExists ++ closed.2)
  | some contents =>
    let s := { s with fileCR := fileFopen true contents }
    if env.memMalloc then
      ({ s with pcbs := s.pcbs.set pcb (some ⟨tftpWrq,addr,0,0,0⟩) },
        [.handling (.acquire (.args pcb)),.handling (.use (.args pcb)),.handling (.use (.pcb pcb))] ++
          tftpSendAckPacket env pcb addr 0)
    else
      let closed := tftpCleanupWr pcb false s
      (closed.1,tftpSendErrorMessage env pcb addr .notdefined ++ closed.2)

/-- A request that is refused: the control block is removed and port 69 taken up again. -/
def tftpRefuse (env : TftpEnv) (pcb : Nat) (addr : Peer) (code : TftpErrorcode) (s : TftpServer) : TftpServer × List TftpEvent :=
  ({ s with port69 := true },tftpSendErrorMessage env pcb addr code ++ [.handling (.release (.pcb pcb))])

/-- `process_tftp_request` -/
def processTftpRequest (env : TftpEnv) (addr : Peer) (p : Packet) (s : TftpServer) : TftpServer × List TftpEvent :=
  let op := iapTftpDecodeOp p
  if env.udpNew then
    let pcb := s.pcbs.length
    let s := { s with port69 := false, pcbs := s.pcbs ++ [none] }
    let made := [TftpEvent.usePbuf,.handling (.acquire (.pcb pcb)),.handling (.use (.pcb pcb))]
    if env.udpBind then
      let done :=
        if op = tftpRrq then
          if env.efsInit then
            if env.lsOpenDir then tftpProcessRead env pcb addr { s with timeoutaddr := addr }
            else tftpRefuse env pcb addr .fileNotFound s
          else tftpRefuse env pcb addr .fileNotFound s
        else if op = tftpWrq then
          if env.efsInit then
            if env.lsOpenDir then tftpProcessWrite env pcb addr s
            else tftpRefuse env pcb addr .fileNotFound s
          else tftpRefuse env pcb addr .fileNotFound s
        else tftpRefuse env pcb addr .accessViolation s
      (done.1,made ++ done.2)
    else ({ s with port69 := true },made ++ [.handling (.release (.pcb pcb))])
  else ({ s with port69 := true },[.usePbuf])

/-- `recv_callback_tftp` on port 69. -/
def recvCallbackTftp (env : TftpEnv) (addr : Peer) (p : Packet) (s : TftpServer) : TftpServer × List TftpEvent :=
  let done := processTftpRequest env addr p s
  (done.1,done.2 ++ [TftpEvent.freePbuf])

/-- `TftpTrm250ms` -/
def tftpTrm250ms (env : TftpEnv) (s : TftpServer) : TftpServer × List TftpEvent :=
  if s.tftptimeoutTimer then
    let s := { s with tftptimeout := s.tftptimeout + 1 }
    if 85 < s.tftptimeout then
      let closed := tftpCleanupRd s.timeoutupcb true s
      ({ closed.1 with tftptimeoutTimer := false, tftptimeout := 0 },
        tftpSendErrorMessage env s.timeoutupcb s.timeoutaddr .notdefined ++ closed.2)
    else (s,[])
  else (s,[])

/-- A datagram for port 69, a datagram for the port of a transfer, or a tick. -/
inductive TftpInput
  | request (env : TftpEnv) (addr : Peer) (p : Packet)
  | data (env : TftpEnv) (pcb : Nat) (addr : Peer) (p : Packet)
  | tick (env : TftpEnv)

/-- A datagram that no callback is registered for is dropped by lwIP. -/
def tftpEnabled (s : TftpServer) : TftpInput → Prop
  | .request _ _ p => s.port69 = true ∧ p.bytes.length ≤ p.totLen ∧ p.totLen < 65536
  | .data _ pcb _ p => (s.args pcb).isSome = true ∧ p.bytes.length ≤ p.totLen ∧ p.totLen < 65536
  | .tick _ => True

def tftpStep (s : TftpServer) : TftpInput → TftpServer × List TftpEvent
  | .request env addr p =>
    let done := recvCallbackTftp env addr p s
    (done.1,.handling (.acquire .pbuf) :: done.2)
  | .data env pcb addr p =>
    match s.args pcb with
    | none => (s,[])
    | some args =>
      let done := if args.op = tftpRrq then rrqRecvCallback env pcb args addr p s else wrqRecvCallback env pcb args addr p s
      (done.1,.handling (.acquire .pbuf) :: done.2)
  | .tick env => tftpTrm250ms env s

def tftp : Machine TftpServer TftpInput TftpEvent := ⟨tftpEnabled,tftpStep⟩

instance (s : TftpServer) (i : TftpInput) : Decidable (tftp.enabled s i) :=
  match i with
  | .request _ _ _ | .data _ _ _ _ => inferInstanceAs (Decidable (_ ∧ _))
  | .tick _ => isTrue trivial

/-- The server after `tftpd_init`. -/
def tftpStarted : TftpServer := ⟨true,fileFclosed,fileFclosed,[],false,0,0,⟨0,0⟩⟩

/-- A request that opens a file. -/
structure OpensFile (op : UInt8) (env : TftpEnv) (p : Packet) (file : List UInt8) : Prop where
  new : env.udpNew = true
  bind : env.udpBind = true
  opcode : iapTftpDecodeOp p = op
  init : env.efsInit = true
  dir : env.lsOpenDir = true
  fopen : env.fopen = some file
  malloc : env.memMalloc = true

/-- What is done with the control block and the arguments of a transfer that is opened. -/
def opening (pcb : Nat) : List TftpEvent :=
  [.usePbuf,.handling (.acquire (.pcb pcb)),.handling (.use (.pcb pcb)),.handling (.acquire (.args pcb)),
    .handling (.use (.args pcb)),.handling (.use (.pcb pcb))]

/-- What becomes of the control block of a request: it is removed, and port 69 taken up again, or the
    request is processed with it. -/
inductive Requested (env : TftpEnv) (addr : Peer) (p : Packet) (s : TftpServer) : TftpServer × List TftpEvent → Prop
  | unbound : Requested env addr p s
      ({ s with port69 := true, pcbs := s.pcbs ++ [none] },[.handling (.release (.pcb s.pcbs.length))])
  | refused (code : TftpErrorcode) : Requested env addr p s
      (tftpRefuse env s.pcbs.length addr code { s with port69 := false, pcbs := s.pcbs ++ [none] })
  | reads (new : env.udpNew = true) (bind : env.udpBind = true) (opcode : iapTftpDecodeOp p = tftpRrq)
      (init : env.efsInit = true) (dir : env.lsOpenDir = true) : Requested env addr p s
      (tftpProcessRead env s.pcbs.length addr { s with port69 := false, pcbs := s.pcbs ++ [none], timeoutaddr := addr })
  | writes (new : env.udpNew = true) (bind : env.udpBind = true) (opcode : iapTftpDecodeOp p = tftpWrq)
      (init : env.efsInit = true) (dir : env.lsOpenDir = true) : Requested env addr p s
      (tftpProcessWrite env s.pcbs.length addr { s with port69 := false, pcbs := s.pcbs ++ [none] })

section
variable {s : TftpServer} {pcb : Nat} {env : TftpEnv} {addr : Peer} {p : Packet}

variable (env addr p s) in
/-- There is no control block for a request, or the packet is freed behind whatever becomes of it. -/
theorem request_cases :
    tftp.step s (.request env addr p) =
        ({ s with port69 := true },[.handling (.acquire .pbuf),.usePbuf,.freePbuf]) ∨
      ∃ done, Requested env addr p s done ∧ tftp.step s (.request env addr p) =
        (done.1,.handling (.acquire .pbuf) :: (([TftpEvent.usePbuf,.handling (.acquire (.pcb s.pcbs.length)),
          .handling (.use (.pcb s.pcbs.length))] ++ done.2) ++ [TftpEvent.freePbuf])) := by
  simp only [tftp,tftpStep,recvCallbackTftp,processTftpRequest]
  by_cases new : env.udpNew = true
  · by_cases bind : env.udpBind = true
    · by_cases read : iapTftpDecodeOp p = tftpRrq
      · simp only [if_pos new,if_pos bind,if_pos read]
        by_cases init : env.efsInit = true
        · by_cases dir : env.lsOpenDir = true
          · simp only [if_pos init,if_pos dir]
            exact .inr ⟨_,.reads new bind read init dir,rfl⟩
          · simp only [if_pos init,if_neg dir]
            exact .inr ⟨_,.refused .fileNotFound,rfl⟩
        · simp only [if_neg init]
          exact .inr ⟨_,.refused .fileNotFound,rfl⟩
      · by_cases write : iapTftpDecodeOp p = tftpWrq
        · simp only [if_pos new,if_pos bind,if_neg read,if_pos write]
          by_cases init : env.efsInit = true
          · by_cases dir : env.lsOpenDir = true
            · simp only [if_pos init,if_pos dir]
              exact .inr ⟨_,.writes new bind write init dir,rfl⟩
            · simp only [if_pos init,if_neg dir]
              exact .inr ⟨_,.refused .fileNotFound,rfl⟩
          · simp only [if_neg init]
            exact .inr ⟨_,.refused .fileNotFound,rfl⟩
        · simp only [if_pos new,if_pos bind,if_neg read,if_neg write]
          exact .inr ⟨_,.refused .accessViolation,rfl⟩
    · simp only [if_pos new,if_neg bind]
      exact .inr ⟨_,.unbound,rfl⟩
  · simp only [if_neg new]
    exact .inl rfl
theorem rrq_step {args : TftpArgs} (registered : s.args pcb = some args) (read : args.op = tftpRrq) :
    tftp.step s (.data env pcb addr p) = ((rrqRecvCallback env pcb args addr p s).1,
      .handling (.acquire .pbuf) :: (rrqRecvCallback env pcb args addr p s).2) := by
  simp only [tftp,tftpStep,registered,if_pos read]
theorem wrq_step {args : TftpArgs} (registered : s.args pcb = some args) (write : args.op ≠ tftpRrq) :
    tftp.step s (.data env pcb addr p) = ((wrqRecvCallback env pcb args addr p s).1,
      .handling (.acquire .pbuf) :: (wrqRecvCallback env pcb args addr p s).2) := by
  simp only [tftp,tftpStep,registered,if_neg write]

/-- The arguments that stay registered. -/
theorem setArgs_args {args args' : TftpArgs} (registered : s.args pcb = some args) :
    (s.setArgs pcb args').args pcb = some args' := by
  unfold TftpServer.args TftpServer.setArgs at *
  rw [Option.join_eq_some_iff] at registered ⊢
  rw [List.getElem?_modify_eq,registered]
  rfl
theorem set_none_args (s : TftpServer) (pcb : Nat) : ((s.pcbs.set pcb none)[pcb]?).join = (none : Option TftpArgs) := by
  rw [List.getElem?_set]
  split
  · split <;> rfl
  · contradiction

theorem extractBlock_lt (p : Packet) : iapTftpExtractBlock p < 65536 := by
  have high := (p.byteAt 2).toNat_lt
  have low := (p.byteAt 3).toNat_lt
  unfold iapTftpExtractBlock
  omega

end
end Net2Modbus
