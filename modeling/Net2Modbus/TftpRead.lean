import Net2Modbus.Lockstep
import Net2Modbus.TftpServer

/-!
# Read transfers

A file that is read from the server: the blocks that are sent, against the blocks that the
packets of the client have acknowledged.
-/
namespace Net2Modbus

/-- The blocks of a transfer that have been acknowledged in order, by numbers of 16 bits. -/
def ackedBy (pcb : Nat) (acked : Nat) : TftpInput → Nat
  | .data _ n _ p =>
    if n = pcb ∧ iapTftpDecodeOp p = tftpAck ∧ iapTftpExtractBlock p = (acked + 1) % 65536 then acked + 1 else acked
  | .request _ _ _ | .tick _ => acked

/-- The server and the blocks of one transfer that have been acknowledged. -/
def ackedTftp (pcb : Nat) : Machine (TftpServer × Nat) TftpInput TftpEvent := tftp.observe fun acked _ i => ackedBy pcb acked i

/-- A DATA packet carries a block of the file that is at most one ahead of what has been
    acknowledged. -/
def TftpEvent.OfFile (file : List UInt8) (pcb : Nat) (acked : Nat) : TftpEvent → Prop
  | .data n _ block bytes =>
    n = pcb → ∃ j, 1 ≤ j ∧ j ≤ acked + 1 ∧ block = UInt16.ofNat j ∧ bytes = chunk tftpDataLenMax file j
  | _ => True

/-- The blocks that are sent, and no packet closes the transfer before the last one has been
    acknowledged. -/
def ReadSound (file : List UInt8) (pcb : Nat) (s : TftpServer × Nat) (i : TftpInput) : Prop :=
  (∀ e ∈ (tftp.step s.1 i).2, e.OfFile file pcb (ackedBy pcb s.2 i)) ∧
    match i with
    | .data _ _ _ _ => .cleanupRd pcb ∈ (tftp.step s.1 i).2 → ackedBy pcb s.2 i = lastChunk tftpDataLenMax file
    | .request _ _ _ | .tick _ => True

/-- Every packet of the client acknowledges the block that was sent last. -/
def ReadClear (pcb : Nat) (s : TftpServer × Nat) : TftpInput → Prop
  | .data _ _ _ p => ∀ args ∈ s.1.args pcb, tftpIsCorrectAck p args.block
  | .request _ _ _ | .tick _ => True

/-- A read request that opens a file. -/
structure OpensRead (env : TftpEnv) (p : Packet) (file : List UInt8) : Prop extends OpensFile tftpRrq env p file where
  readable : env.readOk = true

/-- A packet for the transfer, while the card can be read, or a tick. -/
def TftpInput.ForRead (pcb : Nat) : TftpInput → Prop
  | .data env n _ _ => n = pcb ∧ env.readOk = true
  | .tick _ => True
  | .request _ _ _ => False

instance (pcb : Nat) (s : TftpServer × Nat) (i : TftpInput) : Decidable (ReadClear pcb s i) :=
  match i with
  | .data _ _ _ _ => inferInstanceAs (Decidable (∀ _ ∈ _, _))
  | .request _ _ _ | .tick _ => isTrue trivial
instance (pcb : Nat) (s : TftpServer × Nat) (i : TftpInput) : Decidable ((ackedTftp pcb).enabled s i) :=
  inferInstanceAs (Decidable (tftp.enabled s.1 i))
instance (pcb : Nat) (i : TftpInput) : Decidable (i.ForRead pcb) :=
  match i with
  | .data _ _ _ _ => inferInstanceAs (Decidable (_ ∧ _))
  | .tick _ => isTrue trivial
  | .request _ _ _ => isFalse id

/-- The file is read up to some block. -/
def readTo (file : List UInt8) (k : Nat) : EfsFile := ⟨true,false,file,(file.take (tftpDataLenMax * k)).length⟩

theorem fileRead_next (file : List UInt8) (k : Nat) :
    fileRead true tftpDataLenMax (readTo file k) = (readTo file (k + 1),chunk tftpDataLenMax file (k + 1)) := by
  have bytes : (file.drop (file.take (tftpDataLenMax * k)).length).take tftpDataLenMax = chunk tftpDataLenMax file (k + 1) := by
    rw [chunk,Nat.add_sub_cancel,List.length_take]
    by_cases inside : tftpDataLenMax * k ≤ file.length
    · rw [Nat.min_eq_left inside]
    · rw [Nat.min_eq_right (by omega),List.drop_length,List.drop_of_length_le (by omega)]
  have grown : (file.take (tftpDataLenMax * k)).length + (chunk tftpDataLenMax file (k + 1)).length =
      (file.take (tftpDataLenMax * (k + 1))).length := by
    rw [← List.length_append,chunk_succ]
  simp only [fileRead,readTo,and_self,if_true,bytes,grown]
theorem fileRead_closed (ok : Bool) : fileRead ok tftpDataLenMax fileFclosed = (fileFclosed,[]) := rfl

/-- The block behind those acknowledged has been sent. -/
structure Reading (file : List UInt8) (pcb : Nat) (s : TftpServer) (acked : Nat) : Prop where
  registered : ∃ args, s.args pcb = some args ∧ args.op = tftpRrq ∧ args.block = acked + 1 ∧
    args.dataLen = (chunk tftpDataLenMax file (acked + 1)).length
  before : acked < lastChunk tftpDataLenMax file
  file : s.fileSD = readTo file (acked + 1)
  timeout : s.timeoutupcb = pcb

section
variable {file : List UInt8} {pcb acked : Nat} {s : TftpServer} {env : TftpEnv} {addr : Peer} {p : Packet}

theorem sendData_ofFile {removed : Bool} {j : Nat} (low : 1 ≤ j) (high : j ≤ acked + 1) :
    ∀ e ∈ tftpSendDataPacket env removed pcb addr j (chunk tftpDataLenMax file j), e.OfFile file pcb acked := by
  unfold tftpSendDataPacket
  split
  · rw [List.forall_mem_cons]
    refine ⟨trivial,?_⟩
    split
    · exact List.forall_mem_nil _
    · rw [List.forall_mem_singleton]
      exact fun _ => ⟨j,low,high,rfl,rfl⟩
  · exact List.forall_mem_nil _
theorem sendData_open {removed : Bool} {j : Nat} {bytes : List UInt8} :
    .cleanupRd pcb ∉ tftpSendDataPacket env removed pcb addr j bytes := by
  unfold tftpSendDataPacket
  split
  · split <;> simp
  · simp
theorem cleanup_ofFile {n : Nat} {args : Bool} : ∀ e ∈ tftpCleanup n args, e.OfFile file pcb acked := by
  cases args <;> simp [tftpCleanup,TftpEvent.OfFile]
theorem opening_ofFile {n : Nat} : ∀ e ∈ opening n, e.OfFile file pcb acked := by
  simp [opening,TftpEvent.usePbuf,TftpEvent.OfFile]
theorem error_ofFile {n : Nat} {code : TftpErrorcode} :
    ∀ e ∈ tftpSendErrorMessage env n addr code, e.OfFile file pcb acked := by
  unfold tftpSendErrorMessage
  split <;> simp [TftpEvent.OfFile]

section
variable {args : TftpArgs} (registered : s.args pcb = some args) (read : args.op = tftpRrq)
  (correct : tftpIsCorrectAck p args.block)
include registered read correct

/-- After the last block the transfer is closed, and a block without bytes is sent. -/
theorem ack_closes (short : args.dataLen < tftpDataLenMax) :
    tftp.step s (.data env pcb addr p) =
      ({ s with tftptimeout := 0, tftptimeoutTimer := false, fileSD := fileFclosed, pcbs := s.pcbs.set pcb none, port69 := true },
        TftpEvent.handling (.acquire .pbuf) :: ([TftpEvent.usePbuf,.handling (.use (.args pcb))] ++
          (.cleanupRd pcb :: tftpCleanup pcb true) ++ [TftpEvent.freePbuf] ++
          (.handling (.use (.args pcb)) :: tftpSendDataPacket env true pcb addr (args.block + 1) []) ++
          [TftpEvent.freePbuf])) := by
  rw [rrq_step registered read]
  simp only [rrqRecvCallback,if_pos correct,if_pos short,tftpCleanupRd,tftpSendNextBlock,fileRead_closed]
/-- After another block the next one is read and sent. -/
theorem ack_next (full : ¬ args.dataLen < tftpDataLenMax) (readable : env.readOk = true) {k : Nat}
    (open_file : s.fileSD = readTo file k) :
    tftp.step s (.data env pcb addr p) =
      (({ s with tftptimeout := 0, fileSD := readTo file (k + 1) } : TftpServer).setArgs pcb
          { args with block := args.block + 1, dataLen := (chunk tftpDataLenMax file (k + 1)).length },
        TftpEvent.handling (.acquire .pbuf) :: ([TftpEvent.usePbuf,.handling (.use (.args pcb))] ++
          (.handling (.use (.args pcb)) :: tftpSendDataPacket env false pcb addr (args.block + 1)
            (chunk tftpDataLenMax file (k + 1))) ++ [TftpEvent.freePbuf])) := by
  rw [rrq_step registered read]
  simp only [rrqRecvCallback,if_pos correct,if_neg full,tftpSendNextBlock,readable,open_file,fileRead_next]

end

/-- The acknowledgement of the block that was sent last brings the next one, or ends the
    transfer. -/
theorem Reading.data (r : Reading file pcb s acked) (readable : env.readOk = true)
    (clear : ReadClear pcb (s,acked) (.data env pcb addr p)) :
    (Reading file pcb (tftp.step s (.data env pcb addr p)).1 (ackedBy pcb acked (.data env pcb addr p)) ∨
        (tftp.step s (.data env pcb addr p)).1.args pcb = none) ∧
      ReadSound file pcb (s,acked) (.data env pcb addr p) := by
  obtain ⟨args,registered,op,block,length⟩ := r.registered
  have correct : tftpIsCorrectAck p args.block := clear args registered
  have number : iapTftpExtractBlock p = args.block := correct.2
  have small := extractBlock_lt p
  have next : ackedBy pcb acked (.data env pcb addr p) = acked + 1 := by
    refine if_pos ⟨rfl,correct.1,?_⟩
    rw [Nat.mod_eq_of_lt (by omega)]
    omega
  have positive : 0 < tftpDataLenMax := by decide
  have last_iff := chunk_short_iff positive r.before
  rw [← length] at last_iff
  by_cases short : args.dataLen < tftpDataLenMax
  · have last := last_iff.mp short
    have result := @ack_closes pcb s env addr p args registered op correct short
    refine ⟨.inr ?_,?_,?_⟩
    · rw [result]
      exact set_none_args s pcb
    · rw [result,next,block]
      have sent := @sendData_ofFile file pcb (acked + 1) env addr true _ (Nat.succ_pos (acked + 1)) (Nat.le_refl _)
      rw [last,chunk_beyond positive,← last] at sent
      simp only [List.forall_mem_cons,List.forall_mem_append]
      exact ⟨trivial,⟨⟨⟨⟨⟨trivial,trivial,List.forall_mem_nil _⟩,trivial,cleanup_ofFile⟩,trivial,List.forall_mem_nil _⟩,
        trivial,sent⟩,trivial,List.forall_mem_nil _⟩⟩
    · intro _
      rw [next,last]
  · have more : acked + 1 < lastChunk tftpDataLenMax file :=
      Nat.lt_of_le_of_ne r.before fun last => short (last_iff.mpr last)
    have result := @ack_next file pcb s env addr p args registered op correct short readable _ r.file
    rw [block] at result
    refine ⟨.inl ?_,?_,?_⟩
    · rw [result,next]
      exact ⟨⟨_,setArgs_args registered,op,rfl,rfl⟩,more,rfl,r.timeout⟩
    · rw [result,next]
      simp only [List.forall_mem_cons,List.forall_mem_append]
      exact ⟨trivial,⟨⟨trivial,trivial,List.forall_mem_nil _⟩,trivial,
        sendData_ofFile (Nat.succ_pos (acked + 1)) (Nat.le_refl (acked + 1 + 1))⟩,trivial,List.forall_mem_nil _⟩
    · intro closed
      rw [result] at closed
      simp [TftpEvent.usePbuf,TftpEvent.freePbuf,sendData_open] at closed

/-- A tick goes on counting or closes the transfer. -/
theorem tick_ofFile : ∀ e ∈ (tftp.step s (.tick env)).2, e.OfFile file pcb acked := by
  simp only [tftp,tftpStep,tftpTrm250ms]
  split
  · split
    · rw [List.forall_mem_append]
      exact ⟨error_ofFile,List.forall_mem_cons.mpr ⟨trivial,cleanup_ofFile⟩⟩
    · exact List.forall_mem_nil _
  · exact List.forall_mem_nil _
theorem Reading.tick (r : Reading file pcb s acked) :
    Reading file pcb (tftp.step s (.tick env)).1 acked ∨ (tftp.step s (.tick env)).1.args pcb = none := by
  simp only [tftp,tftpStep,tftpTrm250ms]
  split
  · split
    · refine .inr ?_
      rw [TftpServer.args,r.timeout]
      exact set_none_args s pcb
    · exact .inl ⟨r.registered,r.before,r.file,r.timeout⟩
  · exact .inl r
theorem tick_closed (closed : s.args pcb = none) : (tftp.step s (.tick env)).1.args pcb = none := by
  simp only [tftp,tftpStep,tftpTrm250ms]
  split
  · split
    · by_cases same : s.timeoutupcb = pcb
      · rw [TftpServer.args,same]
        exact set_none_args s pcb
      · rw [TftpServer.args]
        show ((s.pcbs.set s.timeoutupcb none)[pcb]?).join = none
        rw [List.getElem?_set_ne same]
        exact closed
    · exact closed
  · exact closed

variable (s addr) in
/-- The request opens the file and sends its first block. -/
theorem OpensRead.step (opens : OpensRead env p file) :
    Reading file s.pcbs.length (tftp.step s (.request env addr p)).1 0 ∧
      ReadSound file s.pcbs.length (s,0) (.request env addr p) := by
  obtain ⟨⟨new,bind,opcode,init,dir,fopen,malloc⟩,readable⟩ := opens
  have opened : fileFopen false file = readTo file 0 := rfl
  have result : tftp.step s (.request env addr p) =
      ({ s with
          port69 := false
          timeoutaddr := addr
          fileSD := readTo file 1
          pcbs := (s.pcbs ++ [none]).set s.pcbs.length
            (some ⟨tftpRrq,addr,1,(chunk tftpDataLenMax file 1).length,0⟩)
          timeoutupcb := s.pcbs.length
          tftptimeoutTimer := true },
        TftpEvent.handling (.acquire .pbuf) :: (opening s.pcbs.length ++ (.handling (.use (.args s.pcbs.length)) ::
          tftpSendDataPacket env false s.pcbs.length addr 1 (chunk tftpDataLenMax file 1)) ++ [TftpEvent.freePbuf])) := by
    simp only [tftp,tftpStep,recvCallbackTftp,processTftpRequest,tftpProcessRead,new,bind,opcode,init,dir,fopen,malloc,
      if_true,tftpSendNextBlock,readable,opened,fileRead_next]
    rfl
  refine ⟨?_,?_,trivial⟩
  · rw [result]
    refine ⟨⟨⟨tftpRrq,addr,1,(chunk tftpDataLenMax file 1).length,0⟩,?_,rfl,rfl,rfl⟩,Nat.succ_pos _,rfl,rfl⟩
    rw [TftpServer.args,List.getElem?_set_self (by simp)]
    rfl
  · rw [result]
    simp only [List.forall_mem_cons,List.forall_mem_append]
    exact ⟨trivial,⟨opening_ofFile,trivial,sendData_ofFile (Nat.le_refl 1) (Nat.le_refl 1)⟩,trivial,List.forall_mem_nil _⟩

/-- An input of the run. -/
theorem readState_step (state : Reading file pcb s acked ∨ s.args pcb = none) {i : TftpInput} (own : i.ForRead pcb)
    (now : tftp.enabled s i) (clear : ReadClear pcb (s,acked) i) :
    (Reading file pcb (tftp.step s i).1 (ackedBy pcb acked i) ∨ (tftp.step s i).1.args pcb = none) ∧
      ReadSound file pcb (s,acked) i := by
  cases i with
  | request env addr p => exact absurd own id
  | data env n addr p =>
    obtain ⟨rfl,readable⟩ := own
    rcases state with r | closed
    · exact r.data readable clear
    · obtain ⟨registered,-⟩ := now
      rw [closed] at registered
      contradiction
  | tick env =>
    refine ⟨?_,tick_ofFile,trivial⟩
    rcases state with r | closed
    · exact r.tick
    · exact .inr (tick_closed closed)

end

/-- When every packet of the client acknowledges the block that was sent last, the blocks of a
    file are sent in order and the transfer is closed after the last one. -/
theorem read_transfer (file : List UInt8) (s : TftpServer) (env : TftpEnv) (addr : Peer) (p : Packet)
    (opens : OpensRead env p file) (inputs : List TftpInput) (own : ∀ i ∈ inputs, i.ForRead s.pcbs.length)
    (admissible : (ackedTftp s.pcbs.length).Admissible (s,0) (.request env addr p :: inputs))
    (clear : (ackedTftp s.pcbs.length).Each (ReadClear s.pcbs.length) (s,0) (.request env addr p :: inputs)) :
    (ackedTftp s.pcbs.length).Each (ReadSound file s.pcbs.length) (s,0) (.request env addr p :: inputs) := by
  obtain ⟨reading,sound⟩ := opens.step s addr
  refine ⟨sound,?_⟩
  have all := Machine.each_and.mpr ⟨Machine.each_and.mpr ⟨admissible.2,clear.2⟩,Machine.each_of_forall own⟩
  refine Machine.each_of_invariant
    (R := fun s' : TftpServer × Nat => Reading file s.pcbs.length s'.1 s'.2 ∨ s'.1.args s.pcbs.length = none)
    (fun s' i state now => ?_) (fun s' i state now => ?_) (.inl reading) all
  · exact (readState_step state now.2 now.1.1 now.1.2).1
  · exact (readState_step state now.2 now.1.1 now.1.2).2
/-- A file of two bytes. -/
theorem read_transfer_two_bytes :
    (ackedTftp 0).Each (ReadSound [7,8] 0) (tftpStarted,0)
      [.request (.plain [7,8]) ⟨1,2⟩ ⟨[0,1],2,[]⟩,.data (.plain []) 0 ⟨1,2⟩ ⟨[0,4,0,1],4,[]⟩,.tick (.plain [])] :=
  read_transfer [7,8] tftpStarted (.plain [7,8]) ⟨1,2⟩ ⟨[0,1],2,[]⟩ ⟨⟨rfl,rfl,rfl,rfl,rfl,rfl,rfl⟩,rfl⟩
    [.data (.plain []) 0 ⟨1,2⟩ ⟨[0,4,0,1],4,[]⟩,.tick (.plain [])] (by decide) (by decide) (by decide)
/-- A file of 513 bytes, whose first block is acknowledged twice. -/
theorem read_transfer_fails :
    (ackedTftp 0).Admissible (tftpStarted,0)
        [.request (.plain (.replicate 513 7)) ⟨1,2⟩ ⟨[0,1],2,[]⟩,.data (.plain []) 0 ⟨1,2⟩ ⟨[0,4,0,1],4,[]⟩,
          .data (.plain []) 0 ⟨1,2⟩ ⟨[0,4,0,1],4,[]⟩] ∧
      ¬ (ackedTftp 0).Each (ReadSound (.replicate 513 7) 0) (tftpStarted,0)
        [.request (.plain (.replicate 513 7)) ⟨1,2⟩ ⟨[0,1],2,[]⟩,.data (.plain []) 0 ⟨1,2⟩ ⟨[0,4,0,1],4,[]⟩,
          .data (.plain []) 0 ⟨1,2⟩ ⟨[0,4,0,1],4,[]⟩] := by
  refine ⟨by decide +kernel,?_⟩
  rintro ⟨-,-,⟨-,closes⟩,-⟩
  have acknowledged := closes (by decide +kernel)
  revert acknowledged
  decide +kernel

end Net2Modbus
