import Net2Modbus.FirmwareImage
import Net2Modbus.TftpServer

/-!
# What the TFTP servers read of a datagram

The uses of memory when a datagram is taken apart, on port 69 and on the ports of the
transfers of both servers: the bytes that are looked at, the file name and the data that
are copied, and the words that are programmed. `file_write` has no bound of its own: a file
grows with what is written.
-/
namespace Net2Modbus

/-- The bytes of the first pbuf, the local arrays of the callbacks, and the flash from
    `Flash_First_Page_Address` on. -/
inductive TftpArr
  | datagram | fileName | dataBuffer | userFlash
  deriving DecidableEq, Repr
def TftpArr.size (p : Packet) : TftpArr → Nat
  | .datagram => p.bytes.length
  | .fileName => 30
  | .dataBuffer => 512
  | .userFlash => 196608

/-- The uses stay inside the datagram and the arrays. -/
def StaysInside (p : Packet) (uses : List (Access TftpArr)) : Prop := ∀ use ∈ uses, use.Inside (TftpArr.size p)

instance (p : Packet) (uses : List (Access TftpArr)) : Decidable (StaysInside p uses) :=
  inferInstanceAs (Decidable (∀ _ ∈ _, _))

/-- `tftp_decode_op` and `tftp_extract_block` of both servers. -/
def decodeOpUses : List (Access TftpArr) := [⟨.datagram,1,1⟩]
def extractBlockUses : List (Access TftpArr) := [⟨.datagram,2,2⟩]
/-- The characters up to the first zero byte in memory. -/
def nameLength (p : Packet) : Nat := (((p.bytes ++ p.behind).drop 2).takeWhile fun c => c != 0).length
/-- `tftp_extract_filename`, which copies the zero byte too. -/
def extractFilenameUses (p : Packet) : List (Access TftpArr) :=
  [⟨.datagram,2,nameLength p + 1⟩,⟨.fileName,0,nameLength p + 1⟩]

/-- `process_tftp_request`; the opcode is read before the control block is made. -/
def requestUses (env : TftpEnv) (p : Packet) : List (Access TftpArr) :=
  decodeOpUses ++
    if env.udpNew = true ∧ env.udpBind = true ∧ (iapTftpDecodeOp p = tftpRrq ∨ iapTftpDecodeOp p = tftpWrq) then
      extractFilenameUses p
    else []
/-- `rrq_recv_callback`; the block number of an acknowledgement only. -/
def rrqUses (p : Packet) : List (Access TftpArr) :=
  decodeOpUses ++ if iapTftpDecodeOp p = tftpAck then extractBlockUses else []
/-- What both callbacks for writes do with a packet that may be the next block: without
    data, or with another number, the number is looked at in the second condition too. -/
def acceptUses (p : Packet) (next : Prop) [Decidable next] (data : List (Access TftpArr)) : List (Access TftpArr) :=
  if p.Chained then []
  else if tftpDataPktHdrLen < p.bytes.length then extractBlockUses ++ if next then data else extractBlockUses
  else extractBlockUses
/-- `wrq_recv_callback` -/
def wrqUses (args : TftpArgs) (p : Packet) : List (Access TftpArr) :=
  acceptUses p (iapTftpExtractBlock p = args.block + 1) [⟨.datagram,4,p.bytes.length - tftpDataPktHdrLen⟩]
/-- The loop of `FLASH_If_Write` over `data_buffer`, from a word on. -/
def writeLoopUses (flashAddress : UInt32) (f : Flash) (i : Nat) : List UInt32 → List (Access TftpArr)
  | [] => []
  | data :: rest =>
    if flashAddress ≤ userFlashEndAddress - 4 then
      let (f,complete) := flashProgramWord flashAddress data f
      ⟨.dataBuffer,4 * i,4⟩ :: ⟨.userFlash,(flashAddress.toNat : Int) - flashFirstPageAddress.toNat,4⟩ ::
        if complete then writeLoopUses (flashAddress + 4) f (i + 1) rest else []
    else []
/-- `IAP_wrq_recv_callback`; the data goes through `data_buffer` to the flash. -/
def iapWrqUses (env : IapEnv) (args : IapArgs) (p : Packet) (s : IapServer) : List (Access TftpArr) :=
  acceptUses p (args.Next p)
    ([⟨.datagram,4,p.bytes.length - tftpDataPktHdrLen⟩,⟨.dataBuffer,0,p.bytes.length - tftpDataPktHdrLen⟩] ++
      writeLoopUses s.flashWriteAddress s.flash 0 (blockWords env p))
/-- `IAP_tftp_recv_callback` on port 69; the opcode is read behind the control block. -/
def iapRequestUses (env : IapEnv) : List (Access TftpArr) :=
  if env.udpNew = true ∧ env.udpBind = true then decodeOpUses else []

/-- The callback that takes a datagram uses only the datagram and its own arrays. -/
def TftpStays (s : TftpServer) : TftpInput → Prop
  | .request env _ p => StaysInside p (requestUses env p)
  | .data _ pcb _ p => ∀ args ∈ s.args pcb, StaysInside p (if args.op = tftpRrq then rrqUses p else wrqUses args p)
  | .tick _ => True
def IapStays (s : IapServer) : IapInput → Prop
  | .request env _ p => StaysInside p (iapRequestUses env)
  | .data env pcb _ p => ∀ args ∈ s.args pcb, StaysInside p (iapWrqUses env args p (s.withOutcomes env.outcomes))

/-- The datagrams that can be taken apart: an opcode is there, and the name of a request
    ends in the first 30 bytes; the number of an acknowledgement is there; the number of a
    block is there, and `data_buffer` has room for the next one. -/
def TftpFits (s : TftpServer) : TftpInput → Prop
  | .request env _ p => 2 ≤ p.bytes.length ∧
    (env.udpNew = true → env.udpBind = true → iapTftpDecodeOp p = tftpRrq ∨ iapTftpDecodeOp p = tftpWrq →
      0 ∈ (p.bytes.drop 2).take 30)
  | .data _ pcb _ p => ∀ args ∈ s.args pcb,
    if args.op = tftpRrq then 2 ≤ p.bytes.length ∧ (iapTftpDecodeOp p = tftpAck → 4 ≤ p.bytes.length)
    else p.Chained ∨ 4 ≤ p.bytes.length
  | .tick _ => True
def IapFits (s : IapServer) : IapInput → Prop
  | .request env _ p => env.udpNew = true → env.udpBind = true → 2 ≤ p.bytes.length
  | .data _ pcb _ p => ∀ args ∈ s.args pcb,
    p.Chained ∨ 4 ≤ p.bytes.length ∧ (args.Next p → p.bytes.length ≤ tftpDataPktLenMax)

section
variable {p : Packet} {uses uses' : List (Access TftpArr)}

@[simp] theorem staysInside_nil : StaysInside p [] := List.forall_mem_nil _
@[simp] theorem staysInside_append : StaysInside p (uses ++ uses') ↔ StaysInside p uses ∧ StaysInside p uses' :=
  List.forall_mem_append
@[simp] theorem staysInside_cons {use : Access TftpArr} :
    StaysInside p (use :: uses) ↔ use.Inside (TftpArr.size p) ∧ StaysInside p uses := List.forall_mem_cons

theorem decodeOp_inside : StaysInside p decodeOpUses ↔ 2 ≤ p.bytes.length := by
  simp [decodeOpUses,Access.Inside,TftpArr.size]
theorem extractBlock_inside : StaysInside p extractBlockUses ↔ 4 ≤ p.bytes.length := by
  simp [extractBlockUses,Access.Inside,TftpArr.size]
/-- The first zero byte of a memory is one of its first bytes. -/
theorem takeWhile_lt_iff {memory : List UInt8} {n : Nat} (inside : n ≤ memory.length) :
    (memory.takeWhile fun c => c != 0).length < n ↔ 0 ∈ memory.take n := by
  induction memory generalizing n with
  | nil =>
    obtain rfl := Nat.le_zero.mp inside
    simp
  | cons c rest ih =>
    cases n with
    | zero => simp
    | succ n =>
      by_cases zero : c = 0
      · subst zero
        simp
      · have goes : (c != 0) = true := bne_iff_ne.mpr zero
        have differs : ¬ 0 = c := fun same => zero same.symm
        rw [List.takeWhile_cons_of_pos (p := fun c => c != 0) goes,List.length_cons,Nat.succ_lt_succ_iff,
          ih (Nat.le_of_succ_le_succ inside),List.take_succ_cons,List.mem_cons]
        simp [differs]
/-- The name stays in the datagram and in `FileName` when it ends in the first 30 bytes. -/
theorem extractFilename_inside : StaysInside p (extractFilenameUses p) ↔ 0 ∈ (p.bytes.drop 2).take 30 := by
  have room : min 30 (p.bytes.length - 2) ≤ ((p.bytes ++ p.behind).drop 2).length := by
    simp
    omega
  have front : ((p.bytes ++ p.behind).drop 2).take (min 30 (p.bytes.length - 2)) = (p.bytes.drop 2).take 30 := by
    rw [List.drop_append,← List.take_take,← List.length_drop,List.take_left]
  rw [← front,← takeWhile_lt_iff room]
  simp [extractFilenameUses,Access.Inside,TftpArr.size,nameLength]
  omega
theorem accept_inside {next : Prop} [Decidable next] {data : List (Access TftpArr)} :
    StaysInside p (acceptUses p next data) ↔
      p.Chained ∨ 4 ≤ p.bytes.length ∧ (4 < p.bytes.length → next → StaysInside p data) := by
  unfold acceptUses tftpDataPktHdrLen
  by_cases chained : p.Chained
  · simp [chained]
  by_cases long : 4 < p.bytes.length
  · have header : 4 ≤ p.bytes.length := Nat.le_of_lt long
    by_cases here : next
    · simp [chained,long,here,extractBlock_inside,header]
    · simp [chained,long,here,extractBlock_inside,header]
  · simp [chained,long,extractBlock_inside]

theorem request_inside {env : TftpEnv} : StaysInside p (requestUses env p) ↔ 2 ≤ p.bytes.length ∧
    (env.udpNew = true → env.udpBind = true → iapTftpDecodeOp p = tftpRrq ∨ iapTftpDecodeOp p = tftpWrq →
      0 ∈ (p.bytes.drop 2).take 30) := by
  rw [requestUses,staysInside_append,decodeOp_inside]
  split
  · rename_i named
    simp [extractFilename_inside,named]
  · rename_i unnamed
    have none : env.udpNew = true → env.udpBind = true → iapTftpDecodeOp p = tftpRrq ∨ iapTftpDecodeOp p = tftpWrq →
        0 ∈ (p.bytes.drop 2).take 30 := fun new bind op => absurd ⟨new,bind,op⟩ unnamed
    exact and_congr_right fun _ => iff_of_true staysInside_nil none
theorem rrq_inside : StaysInside p (rrqUses p) ↔
    2 ≤ p.bytes.length ∧ (iapTftpDecodeOp p = tftpAck → 4 ≤ p.bytes.length) := by
  rw [rrqUses,staysInside_append,decodeOp_inside]
  by_cases ack : iapTftpDecodeOp p = tftpAck
  · simp [ack,extractBlock_inside]
  · simp [ack]
theorem wrq_inside {args : TftpArgs} : StaysInside p (wrqUses args p) ↔ p.Chained ∨ 4 ≤ p.bytes.length := by
  have data : 4 ≤ p.bytes.length → StaysInside p [⟨.datagram,4,p.bytes.length - tftpDataPktHdrLen⟩] := by
    intro header
    simp [Access.Inside,TftpArr.size,tftpDataPktHdrLen]
    omega
  rw [wrqUses,accept_inside]
  constructor
  · rintro (chained | ⟨header,-⟩)
    · exact .inl chained
    · exact .inr header
  · rintro (chained | header)
    · exact .inl chained
    · exact .inr ⟨header,fun _ _ => data header⟩
theorem iapRequest_inside {env : IapEnv} : StaysInside p (iapRequestUses env) ↔
    (env.udpNew = true → env.udpBind = true → 2 ≤ p.bytes.length) := by
  rw [iapRequestUses]
  split
  · rename_i made
    simp [decodeOp_inside,made]
  · rename_i unmade
    have none : env.udpNew = true → env.udpBind = true → 2 ≤ p.bytes.length :=
      fun new bind => absurd ⟨new,bind⟩ unmade
    exact iff_of_true staysInside_nil none

/-- Words from the front of `data_buffer` are programmed below the write limit. -/
theorem writeLoop_inside {data : List UInt32} {i first : Nat} (f : Flash) (room : i + data.length ≤ 128)
    (small : first ≤ userWords) : StaysInside p (writeLoopUses (userAddress first) f i data) := by
  induction data generalizing f i first with
  | nil => exact staysInside_nil
  | cons word rest ih =>
    have bound : first < 1048576 := by
      unfold userWords at small
      omega
    rw [List.length_cons] at room
    by_cases below : userAddress first ≤ userFlashEndAddress - 4
    · have limit := (userAddress_le bound).mp below
      have place : ((userAddress first).toNat : Int) - flashFirstPageAddress.toNat = 4 * first := by
        rw [userAddress_toNat bound]
        have start : flashFirstPageAddress.toNat = 134283264 := rfl
        omega
      have read : (Access.mk TftpArr.dataBuffer (4 * i) 4).Inside (TftpArr.size p) := by
        simp only [Access.Inside,TftpArr.size]
        omega
      have programmed : (Access.mk TftpArr.userFlash ((userAddress first).toNat - flashFirstPageAddress.toNat) 4).Inside
          (TftpArr.size p) := by
        unfold userWords at limit
        rw [place]
        simp only [Access.Inside,TftpArr.size]
        omega
      cases complete : (flashProgramWord (userAddress first) word f).2 with
      | true =>
        simp only [writeLoopUses,if_pos below,complete,if_true,userAddress_succ]
        exact staysInside_cons.mpr ⟨read,staysInside_cons.mpr ⟨programmed,ih _ (by omega) limit⟩⟩
      | false =>
        simp only [writeLoopUses,if_pos below,complete,Bool.false_eq_true,if_false]
        exact staysInside_cons.mpr ⟨read,staysInside_cons.mpr ⟨programmed,staysInside_nil⟩⟩
    · simp only [writeLoopUses,if_neg below]
      exact staysInside_nil
theorem iapWrq_inside {env : IapEnv} {args : IapArgs} {s : IapServer} {first : Nat}
    (address : s.flashWriteAddress = userAddress first) (small : first ≤ userWords) :
    StaysInside p (iapWrqUses env args p s) ↔
      p.Chained ∨ 4 ≤ p.bytes.length ∧ (args.Next p → p.bytes.length ≤ tftpDataPktLenMax) := by
  have data : 4 < p.bytes.length →
      (StaysInside p ([⟨.datagram,4,p.bytes.length - tftpDataPktHdrLen⟩,⟨.dataBuffer,0,p.bytes.length - tftpDataPktHdrLen⟩] ++
        writeLoopUses s.flashWriteAddress s.flash 0 (blockWords env p)) ↔ p.bytes.length ≤ tftpDataPktLenMax) := by
    intro long
    have words := (wordCount_covers (p.bytes.length - 4)).2
    unfold tftpDataPktHdrLen tftpDataPktLenMax
    constructor
    · intro inside
      have copied := (staysInside_cons.mp (staysInside_cons.mp inside).2).1
      simp only [Access.Inside,TftpArr.size] at copied
      omega
    · intro fits
      rw [address,staysInside_append]
      refine ⟨?_,writeLoop_inside s.flash (by rw [blockWords_length]; omega) small⟩
      simp [Access.Inside,TftpArr.size]
      omega
  rw [iapWrqUses,accept_inside]
  constructor
  · rintro (chained | ⟨header,inside⟩)
    · exact .inl chained
    · refine .inr ⟨header,?_⟩
      intro next
      by_cases long : 4 < p.bytes.length
      · exact (data long).mp (inside long next)
      · unfold tftpDataPktLenMax
        omega
  · rintro (chained | ⟨header,fits⟩)
    · exact .inl chained
    · exact .inr ⟨header,fun long next => (data long).mpr (fits next)⟩

end

/-- At every step of a run of either server the callback stays inside exactly when the
    datagram fits. -/
theorem tftp_parsing_iff (flash : Flash) (inputs : List TftpInput) (iapInputs : List IapInput) :
    tftp.Each (fun s i => TftpStays s i ↔ TftpFits s i) tftpStarted inputs ∧
      iap.Each (fun s i => IapStays s i ↔ IapFits s i) (iapStarted flash) iapInputs := by
  constructor
  · have any : tftp.Each (fun _ _ => True) tftpStarted inputs := tftp.each_of_forall fun _ _ => trivial
    refine tftp.each_of_invariant (R := fun _ => True) (fun _ _ _ _ => trivial) ?_ trivial any
    intro s i _ _
    cases i with
    | request env addr p => exact request_inside
    | data env pcb addr p =>
      refine forall₂_congr ?_
      intro args registered
      split
      · exact rrq_inside
      · exact wrq_inside
    | tick env => exact Iff.rfl
  · have any : iap.Each (fun _ _ => True) (iapStarted flash) iapInputs := iap.each_of_forall fun _ _ => trivial
    refine iap.each_of_invariant (R := Addressed) (fun s i addressed _ => addressed_step addressed i) ?_
      (iapStarted_addressed flash) any
    intro s i addressed _
    cases i with
    | request env addr p => exact iapRequest_inside
    | data env pcb addr p =>
      refine forall₂_congr ?_
      intro args registered
      obtain ⟨first,small,address⟩ := addressed.registered registered
      exact iapWrq_inside address small

/-- A read request for a name of 30 characters, with the mode behind it. -/
def longName : Packet :=
  ⟨[0,1] ++ List.replicate 30 0x61 ++ [0,0x6F,0x63,0x74,0x65,0x74,0],39,[]⟩
/-- The zero byte of the name does not fit into `FileName`. -/
theorem tftp_parsing_overflow :
    ¬ ∀ (flash : Flash) (inputs : List TftpInput) (iapInputs : List IapInput),
      tftp.Each TftpStays tftpStarted inputs ∧ iap.Each IapStays (iapStarted flash) iapInputs := by
  intro stays
  have request := (stays ⟨fun _ => blankWord,[],true⟩ [.request (.plain []) ⟨0,0⟩ longName] []).1.1
  exact absurd (show StaysInside longName (requestUses (.plain []) longName) from request) (by decide)

/-- The same datagram with other memory behind it. -/
def Packet.over (behind : List UInt8) (p : Packet) : Packet := { p with behind := behind }
def TftpInput.over (behind : List UInt8) : TftpInput → TftpInput
  | .request env addr p => .request env addr (p.over behind)
  | .data env pcb addr p => .data env pcb addr (p.over behind)
  | .tick env => .tick env
def IapInput.over (behind : List UInt8) : IapInput → IapInput
  | .request env addr p => .request env addr (p.over behind)
  | .data env pcb addr p => .data env pcb addr (p.over behind)

section
variable {p : Packet} {behind : List UInt8}

theorem over_byteAt {i : Nat} (inside : i < p.bytes.length) : (p.over behind).byteAt i = p.byteAt i := by
  unfold Packet.byteAt Packet.over
  rw [List.getD_append _ _ _ _ inside,List.getD_append _ _ _ _ inside]
theorem over_decodeOp (opcode : 2 ≤ p.bytes.length) : iapTftpDecodeOp (p.over behind) = iapTftpDecodeOp p :=
  over_byteAt opcode
theorem over_extractBlock (header : 4 ≤ p.bytes.length) :
    iapTftpExtractBlock (p.over behind) = iapTftpExtractBlock p := by
  unfold iapTftpExtractBlock
  rw [over_byteAt (by omega),over_byteAt (by omega)]
theorem over_isCorrectAck {block : Nat} (opcode : 2 ≤ p.bytes.length)
    (header : iapTftpDecodeOp p = tftpAck → 4 ≤ p.bytes.length) :
    tftpIsCorrectAck (p.over behind) block ↔ tftpIsCorrectAck p block := by
  unfold tftpIsCorrectAck
  rw [over_decodeOp opcode]
  refine and_congr_right ?_
  intro ack
  rw [over_extractBlock (header ack)]

/-- A server that stays inside a datagram does the same whatever lies behind it. -/
theorem tftpStep_over {s : TftpServer} {i : TftpInput} (fits : TftpFits s i) :
    tftpStep s (i.over behind) = tftpStep s i := by
  cases i with
  | request env addr p =>
    simp only [TftpInput.over,tftpStep,recvCallbackTftp,processTftpRequest,over_decodeOp fits.1]
  | data env pcb addr p =>
    cases registered : s.args pcb with
    | none => simp only [TftpInput.over,tftpStep,registered]
    | some args =>
      have fit := fits args registered
      simp only [TftpInput.over,tftpStep,registered]
      split at fit
      · rename_i read
        simp only [if_pos read,rrqRecvCallback,over_isCorrectAck fit.1 fit.2]
      · rename_i write
        rw [if_neg write,if_neg write,wrqRecvCallback,wrqRecvCallback]
        rcases fit with chained | header
        · have chainedOver : (p.over behind).Chained := chained
          rw [if_pos chained,if_pos chainedOver]
        · have same : wrqAccept env pcb args addr (p.over behind) s = wrqAccept env pcb args addr p s := by
            simp only [wrqAccept,over_extractBlock header]
            rfl
          rw [same]
          rfl
  | tick env => rfl
theorem iapStep_over {s : IapServer} {i : IapInput} (fits : IapFits s i) :
    iapStep s (i.over behind) = iapStep s i := by
  cases i with
  | request env addr p =>
    simp only [IapInput.over,iapStep,iapTftpRecvCallback]
    by_cases new : env.udpNew = true
    · by_cases bind : env.udpBind = true
      · simp only [over_decodeOp (fits new bind)]
      · simp only [if_neg bind]
    · simp only [if_neg new]
  | data env pcb addr p =>
    cases registered : s.args pcb with
    | none => simp only [IapInput.over,iapStep,registered]
    | some args =>
      rw [IapInput.over,iapStep_data registered,iapStep_data registered,iapWrqRecvCallback,iapWrqRecvCallback]
      rcases fits args registered with chained | ⟨header,-⟩
      · have chainedOver : (p.over behind).Chained := chained
        rw [if_pos chained,if_pos chainedOver]
      · have same (s : IapServer) : iapAccept env args (p.over behind) s = iapAccept env args p s := by
          simp only [iapAccept,over_extractBlock header]
          rfl
        rw [same]
        rfl

end
end Net2Modbus
