import Net2Modbus.FirmwareImage
import Net2Modbus.TftpServer

/-!
# Write transfers

A file that is written to the server by a sender that waits for each acknowledgement, over
a network that repeats and delays its packets: what is acknowledged, against what has been
written, and the file that is closed.
-/
namespace Net2Modbus

/-- The number that an event acknowledges to the peer of a transfer. -/
def TftpEvent.acked (pcb : Nat) (peer : Peer) : TftpEvent → Option UInt16
  | .ack n addr block => if n = pcb ∧ addr = peer then some block else none
  | _ => none
/-- The bytes that have been written to the file of a transfer, in order. -/
def bytesWritten (pcb : Nat) (past : List TftpEvent) : List UInt8 :=
  past.flatMap fun
    | .wrote n bytes => if n = pcb then bytes else []
    | _ => []
/-- An error was sent for the transfer. -/
def Refused (pcb : Nat) (past : List TftpEvent) : Prop :=
  ∃ e ∈ past, match e with
    | .error n _ _ => n = pcb
    | _ => False

/-- A block is acknowledged when the blocks up to it have been written, and without an error
    the file that is closed is the file of the sender. -/
def TftpEvent.Confirms (file : List UInt8) (pcb : Nat) (past : List TftpEvent) : TftpEvent → Prop
  | .ack n _ block =>
    n = pcb → ∃ j ≤ lastChunk 512 file, block = UInt16.ofNat j ∧
      bytesWritten pcb past = file.take (512 * j)
  | .cleanupWr n closed => n = pcb → ¬ Refused pcb past → closed.contents = file
  | _ => True

/-- A sender of a file, the network, and the server with the transfer of the sender. -/
def fileUpload (file : List UInt8) (peer : Peer) (pcb : Nat) :
    Machine (Lockstep TftpServer) (LockstepInput TftpEnv) TftpEvent :=
  lockstep tftp (fun env k => .data env pcb peer (dataPacket file k)) (TftpEvent.acked pcb peer)
    (lastChunk 512 file)

instance (file : List UInt8) (peer : Peer) (pcb : Nat) (u : Lockstep TftpServer) (i : LockstepInput TftpEnv) :
    Decidable ((fileUpload file peer pcb).enabled u i) :=
  inferInstanceAs (Decidable ((lockstep tftp (fun env k => .data env pcb peer (dataPacket file k))
    (TftpEvent.acked pcb peer) (lastChunk 512 file)).enabled u i))

/-- The sender asks for a transfer. -/
def fileUploadStarted (s : TftpServer) (env : TftpEnv) (peer : Peer) (wrq : Packet) : Lockstep TftpServer where
  server := (tftp.step s (.request env peer wrq)).1
  sent := 0
  acks := (tftp.step s (.request env peer wrq)).2.filterMap (TftpEvent.acked s.pcbs.length peer)

/-- A block that is accepted can be written, and the last block has a number of 16 bits and
    finds a file that is not longer than the sender's. -/
def WriteClear (file : List UInt8) (pcb : Nat) (u : Lockstep TftpServer) : LockstepInput TftpEnv → Prop
  | .send => True
  | .deliver env k => ∀ args ∈ u.server.args pcb,
    (iapTftpExtractBlock (dataPacket file k) = args.block + 1 → (chunk 512 file k).length ≤ env.takes) ∧
      (k = lastChunk 512 file → k < 65536 ∧ u.server.fileCR.contents.length ≤ file.length)

instance (file : List UInt8) (pcb : Nat) (u : Lockstep TftpServer) (i : LockstepInput TftpEnv) :
    Decidable (WriteClear file pcb u i) :=
  match i with
  | .send => isTrue trivial
  | .deliver _ _ => inferInstanceAs (Decidable (∀ _ ∈ _, _ ∧ _))

/-- The first blocks of the file have been written. Behind block 65535 no block is accepted,
    and the sender is no longer followed. -/
structure Writing (file : List UInt8) (pcb : Nat) (u : Lockstep TftpServer) (b : Nat) : Prop where
  registered : ∃ args, u.server.args pcb = some args ∧ args.op = tftpWrq ∧ args.block = b
  before : b < lastChunk 512 file
  sent : u.sent ≤ lastChunk 512 file
  small : b < 65536
  isOpen : u.server.fileCR.isOpen = true ∧ u.server.fileCR.isWrite = true
  filePtr : u.server.fileCR.filePtr = 512 * b
  contents : u.server.fileCR.contents.take (512 * b) = file.take (512 * b)
  inStep : b + 1 < 65536 → InStep u b

section
variable {file : List UInt8} {peer addr : Peer} {pcb : Nat} {u : Lockstep TftpServer} {b : Nat} {env : TftpEnv} {k : Nat}
  {s : TftpServer} {args : TftpArgs} {p : Packet} {past : List TftpEvent}

/-- What a block that was accepted, or was not, is answered with. -/
def wrqReply (env : TftpEnv) (pcb : Nat) (addr : Peer) (accepted : List TftpEvent) (block : Nat) : List TftpEvent :=
  let looked : List TftpEvent := [.handling (.acquire .pbuf),.usePbuf,.handling (.use (.args pcb))]
  let used : List TftpEvent := [.handling (.use (.args pcb))]
  looked ++ accepted ++ used ++ tftpSendAckPacket env pcb addr block

theorem ack_acked {block : Nat} :
    ∀ a ∈ (tftpSendAckPacket env pcb addr block).filterMap (TftpEvent.acked pcb addr), a = UInt16.ofNat block := by
  unfold tftpSendAckPacket
  split <;> simp [TftpEvent.acked]
theorem wrqReply_acked {accepted : List TftpEvent} (quiet : accepted.filterMap (TftpEvent.acked pcb addr) = []) {block : Nat} :
    ∀ a ∈ (wrqReply env pcb addr accepted block).filterMap (TftpEvent.acked pcb addr), a = UInt16.ofNat block := by
  rw [wrqReply,List.filterMap_append,List.filterMap_append,List.filterMap_append,quiet]
  exact ack_acked

theorem bytesWritten_append {front back : List TftpEvent} :
    bytesWritten pcb (front ++ back) = bytesWritten pcb front ++ bytesWritten pcb back := List.flatMap_append
theorem ack_written {block : Nat} : bytesWritten pcb (tftpSendAckPacket env pcb addr block) = [] := by
  unfold tftpSendAckPacket
  split <;> rfl
theorem wrqReply_written {accepted : List TftpEvent} {block : Nat} :
    bytesWritten pcb (wrqReply env pcb addr accepted block) = bytesWritten pcb accepted := by
  rw [wrqReply,bytesWritten_append,bytesWritten_append,bytesWritten_append,ack_written,List.append_nil]
  exact List.append_nil _

/-- An answer confirms the blocks that have been written. -/
theorem wrqReply_confirms {accepted : List TftpEvent} {j : Nat} (upto : j ≤ lastChunk 512 file)
    (quiet : EachAfter (TftpEvent.Confirms file pcb)
      (past ++ [TftpEvent.handling (.acquire .pbuf),.usePbuf,.handling (.use (.args pcb))]) accepted)
    (written : bytesWritten pcb (past ++ accepted) = file.take (512 * j)) :
    EachAfter (TftpEvent.Confirms file pcb) past (wrqReply env pcb addr accepted j) := by
  unfold wrqReply
  rw [eachAfter_append,eachAfter_append,eachAfter_append]
  refine ⟨⟨⟨⟨trivial,trivial,trivial,trivial⟩,quiet⟩,trivial,trivial⟩,?_⟩
  unfold tftpSendAckPacket
  split
  · refine ⟨trivial,fun _ => ⟨j,upto,rfl,?_⟩,trivial⟩
    simpa [bytesWritten_append,bytesWritten,TftpEvent.usePbuf] using written
  · trivial

/-- A packet for an open transfer. -/
theorem wrqStep (registered : s.args pcb = some args) (op : args.op = tftpWrq) (single : ¬ p.Chained) :
    tftp.step s (.data env pcb addr p) =
      let accepted := wrqAccept env pcb args addr p s
      let s' := accepted.1.setArgs pcb accepted.2.1
      let reply := wrqReply env pcb addr accepted.2.2 accepted.2.1.block
      if p.bytes.length < tftpDataPktLenMax then
        ((tftpCleanupWr pcb true s').1,reply ++ (tftpCleanupWr pcb true s').2 ++ [TftpEvent.freePbuf])
      else (s',reply ++ [TftpEvent.freePbuf]) := by
  have write : args.op ≠ tftpRrq := by rw [op]; decide
  simp only [tftp,tftpStep,registered,if_neg write,wrqRecvCallback,if_neg single]
  split <;> simp [wrqReply]

/-- The file after the next block. -/
def EfsFile.withBlock (file : List UInt8) (b : Nat) (f : EfsFile) : EfsFile :=
  { f with
    contents := file.take (512 * (b + 1)) ++ f.contents.drop (512 * b + (chunk 512 file (b + 1)).length)
    filePtr := 512 * b + (chunk 512 file (b + 1)).length }

theorem fileWrite_block {f : EfsFile} (isOpen : f.isOpen = true ∧ f.isWrite = true) (filePtr : f.filePtr = 512 * b)
    (contents : f.contents.take (512 * b) = file.take (512 * b)) {takes : Nat}
    (enough : (chunk 512 file (b + 1)).length ≤ takes) :
    fileWrite takes (chunk 512 file (b + 1)) f = (f.withBlock file b,chunk 512 file (b + 1)) := by
  rw [fileWrite,if_pos isOpen]
  simp only [List.take_of_length_le enough,filePtr,contents,chunk_succ,EfsFile.withBlock]
/-- An empty block leaves the file as it is. -/
theorem withBlock_empty {f : EfsFile} (filePtr : f.filePtr = 512 * b)
    (contents : f.contents.take (512 * b) = file.take (512 * b)) (empty : chunk 512 file (b + 1) = []) :
    f.withBlock file b = f := by
  have same : file.take (512 * b) ++ chunk 512 file (b + 1) = file.take (512 * (b + 1)) := chunk_succ
  rw [empty,List.append_nil,← contents] at same
  rw [EfsFile.withBlock,empty,← same,List.length_nil,Nat.add_zero,List.take_append_drop,← filePtr]

/-- The next block, when all of it can be written. -/
theorem Writing.accept (w : Writing file pcb u b) (block : args.block = b) (small : b + 1 < 65536)
    (enough : (chunk 512 file (b + 1)).length ≤ env.takes) :
    wrqAccept env pcb args addr (dataPacket file (b + 1)) u.server =
      ({ u.server with fileCR := u.server.fileCR.withBlock file b },
        { args with block := b + 1, totBytes := args.totBytes + (chunk 512 file (b + 1)).length },
        if chunk 512 file (b + 1) = [] then [] else [.wrote pcb (chunk 512 file (b + 1))]) := by
  have number := dataPacket_block file (b + 1)
  rw [Nat.mod_eq_of_lt small,← block] at number
  have size : (dataPacket file (b + 1)).bytes.length - 4 = (chunk 512 file (b + 1)).length := by
    rw [dataPacket_length,Nat.add_sub_cancel]
  have wrote := fileWrite_block w.isOpen w.filePtr w.contents enough
  rw [wrqAccept,block] at *
  rw [if_pos number]
  by_cases empty : chunk 512 file (b + 1) = []
  · have none : ¬ tftpDataPktHdrLen < (dataPacket file (b + 1)).bytes.length := by
      rw [dataPacket_length,empty]
      decide
    rw [if_neg none,if_pos empty,withBlock_empty w.filePtr w.contents empty,empty]
    rfl
  · have data : tftpDataPktHdrLen < (dataPacket file (b + 1)).bytes.length := by
      have positive := List.length_pos_of_ne_nil empty
      rw [dataPacket_length,tftpDataPktHdrLen]
      omega
    rw [if_pos data]
    simp only [tftpDataPktHdrLen,dataPacket_data,wrote,size,if_neg empty]
/-- Any other block. -/
theorem wrqAccept_other (other : iapTftpExtractBlock p ≠ args.block + 1) : wrqAccept env pcb args addr p s = (s,args,[]) :=
  if_neg other

/-- No packet reaches the transfer. -/
def Closed (pcb : Nat) (u : Lockstep TftpServer) : Prop := u.server.args pcb = none

/-- What the step confirms, and what has been written then. -/
def Confirmed (file : List UInt8) (pcb b b' : Nat) (events : List TftpEvent) : Prop :=
  ∀ past, bytesWritten pcb past = file.take (512 * b) →
    EachAfter (TftpEvent.Confirms file pcb) past events ∧ bytesWritten pcb (past ++ events) = file.take (512 * b')

theorem Writing.ready (w : Writing file pcb u b) : tftp.enabled u.server (.data env pcb peer (dataPacket file k)) := by
  obtain ⟨args,registered,-⟩ := w.registered
  exact ⟨by rw [registered]; rfl,Nat.le_refl _,dataPacket_small file k⟩
theorem numbers_le {acks : List UInt16} (low : b < 65536) (same : ∀ a ∈ acks, a = UInt16.ofNat b) :
    ∀ a ∈ acks, a.toNat ≤ b := by
  intro a member
  rw [same a member,UInt16.toNat_ofNat',Nat.mod_eq_of_lt low]

variable (peer env) in
/-- A block that is not accepted is answered with the number of the last one that was. -/
theorem Writing.other (w : Writing file pcb u b) (full : (chunk 512 file k).length = 512) (other : k % 65536 ≠ b + 1) :
    Writing file pcb ((fileUpload file peer pcb).step u (.deliver env k)).1 b ∧
      Confirmed file pcb b b ((fileUpload file peer pcb).step u (.deliver env k)).2 := by
  obtain ⟨args,registered,op,block⟩ := w.registered
  have long : ¬ (dataPacket file k).bytes.length < tftpDataPktLenMax := by
    rw [dataPacket_length,full]
    decide
  have number : iapTftpExtractBlock (dataPacket file k) ≠ args.block + 1 := by rwa [dataPacket_block,block]
  have step : tftp.step u.server (.data env pcb peer (dataPacket file k)) =
      (u.server.setArgs pcb args,wrqReply env pcb peer [] b ++ [TftpEvent.freePbuf]) := by
    rw [wrqStep registered op (dataPacket_single file k),wrqAccept_other number,if_neg long,block]
  have replied := @wrqReply_acked peer pcb env [] rfl b
  rw [fileUpload,lockstep_taken w.ready,step]
  refine ⟨⟨⟨args,setArgs_args registered,op,block⟩,w.before,w.sent,w.small,w.isOpen,w.filePtr,w.contents,?_⟩,?_⟩
  · intro small
    refine (w.inStep small).take (Nat.le_refl b) (numbers_le w.small ?_)
    rw [List.filterMap_append]
    simpa [TftpEvent.freePbuf,TftpEvent.acked] using replied
  · intro past written
    refine ⟨?_,?_⟩
    · rw [eachAfter_append]
      exact ⟨wrqReply_confirms (Nat.le_of_lt w.before) trivial (by rwa [List.append_nil]),trivial,trivial⟩
    · rw [bytesWritten_append,bytesWritten_append,wrqReply_written,written]
      exact List.append_nil _

/-- What the next block shows of itself. -/
def accepting (pcb : Nat) (block : List UInt8) : List TftpEvent := if block = [] then [] else [.wrote pcb block]

theorem accepting_acked {block : List UInt8} : (accepting pcb block).filterMap (TftpEvent.acked pcb peer) = [] := by
  unfold accepting
  split <;> rfl
theorem accepting_written {block : List UInt8} : bytesWritten pcb (accepting pcb block) = block := by
  unfold accepting
  split
  next empty => exact empty.symm
  · simp [bytesWritten]
theorem accepting_confirms {block : List UInt8} : EachAfter (TftpEvent.Confirms file pcb) past (accepting pcb block) := by
  unfold accepting
  split
  · trivial
  · exact ⟨trivial,trivial⟩

/-- The answer to the next block. -/
theorem reply_confirmed (upto : b + 1 ≤ lastChunk 512 file) :
    Confirmed file pcb b (b + 1) (wrqReply env pcb peer (accepting pcb (chunk 512 file (b + 1))) (b + 1)) := by
  intro past written
  have more : bytesWritten pcb (past ++ accepting pcb (chunk 512 file (b + 1))) = file.take (512 * (b + 1)) := by
    rw [bytesWritten_append,accepting_written,written,chunk_succ]
  refine ⟨wrqReply_confirms upto accepting_confirms more,?_⟩
  rw [bytesWritten_append,wrqReply_written,← bytesWritten_append]
  exact more

variable (peer) in
/-- The next block, when it is not the last one. -/
theorem Writing.taken (w : Writing file pcb u b) (more : b + 1 < lastChunk 512 file) (small : b + 1 < 65536)
    (enough : (chunk 512 file (b + 1)).length ≤ env.takes) :
    Writing file pcb ((fileUpload file peer pcb).step u (.deliver env (b + 1))).1 (b + 1) ∧
      Confirmed file pcb b (b + 1) ((fileUpload file peer pcb).step u (.deliver env (b + 1))).2 := by
  obtain ⟨args,registered,op,block⟩ := w.registered
  have full := chunk_length 512 file b (by unfold lastChunk at more; omega)
  have long : ¬ (dataPacket file (b + 1)).bytes.length < tftpDataPktLenMax := by
    rw [dataPacket_length,full]
    decide
  have step : tftp.step u.server (.data env pcb peer (dataPacket file (b + 1))) =
      (({ u.server with fileCR := u.server.fileCR.withBlock file b } : TftpServer).setArgs pcb
          { args with block := b + 1, totBytes := args.totBytes + (chunk 512 file (b + 1)).length },
        wrqReply env pcb peer (accepting pcb (chunk 512 file (b + 1))) (b + 1) ++ [TftpEvent.freePbuf]) := by
    rw [wrqStep registered op (dataPacket_single file (b + 1)),w.accept block small enough,if_neg long]
    rfl
  have replied := @wrqReply_acked peer pcb env _ (@accepting_acked peer pcb (chunk 512 file (b + 1))) (b + 1)
  have confirmed := @reply_confirmed file peer pcb b env (Nat.le_of_lt more)
  have reached : (file.take (512 * (b + 1))).length = 512 * (b + 1) := by
    rw [← chunk_succ,List.length_append,full,List.length_take_of_le (by unfold lastChunk at more; omega),Nat.mul_succ]
  rw [fileUpload,lockstep_taken w.ready,step]
  refine ⟨⟨⟨_,setArgs_args registered,op,rfl⟩,more,w.sent,small,w.isOpen,?_,?_,?_⟩,?_⟩
  · show 512 * b + (chunk 512 file (b + 1)).length = 512 * (b + 1)
    rw [full,Nat.mul_succ]
  · show (file.take (512 * (b + 1)) ++ _).take (512 * (b + 1)) = _
    rw [List.take_append_of_le_length (Nat.le_of_eq reached.symm),List.take_take,Nat.min_self]
  · intro _
    refine (w.inStep small).take (Nat.le_succ b) (numbers_le small ?_)
    rw [List.filterMap_append]
    simpa [TftpEvent.freePbuf,TftpEvent.acked] using replied
  · intro past written
    obtain ⟨sound,now⟩ := confirmed past written
    refine ⟨eachAfter_append.mpr ⟨sound,trivial,trivial⟩,?_⟩
    rw [← List.append_assoc,bytesWritten_append,now]
    exact List.append_nil _
variable (peer) in
/-- The last block ends the transfer, and the file that is closed is the sender's. -/
theorem Writing.finished (w : Writing file pcb u b) (last : b + 1 = lastChunk 512 file) (small : b + 1 < 65536)
    (enough : (chunk 512 file (b + 1)).length ≤ env.takes) (shorter : u.server.fileCR.contents.length ≤ file.length) :
    Closed pcb ((fileUpload file peer pcb).step u (.deliver env (b + 1))).1 ∧
      Confirmed file pcb b (b + 1) ((fileUpload file peer pcb).step u (.deliver env (b + 1))).2 := by
  obtain ⟨args,registered,op,block⟩ := w.registered
  have length : (chunk 512 file (b + 1)).length = file.length % 512 := last ▸ chunk_last_length (by decide)
  have short : (dataPacket file (b + 1)).bytes.length < tftpDataPktLenMax := by
    rw [dataPacket_length,length,tftpDataPktLenMax]
    omega
  have whole : 512 * b + file.length % 512 = file.length := by
    unfold lastChunk at last
    omega
  have closed : (u.server.fileCR.withBlock file b).contents = file := by
    rw [EfsFile.withBlock,length,whole,List.drop_of_length_le shorter,List.append_nil,last]
    exact take_lastChunk (by decide)
  have step : ∃ s : TftpServer, s.args pcb = none ∧ tftp.step u.server (.data env pcb peer (dataPacket file (b + 1))) =
      (s,wrqReply env pcb peer (accepting pcb (chunk 512 file (b + 1))) (b + 1) ++
        (.cleanupWr pcb (u.server.fileCR.withBlock file b) :: tftpCleanup pcb true) ++ [TftpEvent.freePbuf]) := by
    rw [wrqStep registered op (dataPacket_single file (b + 1)),w.accept block small enough,if_pos short]
    refine ⟨_,?_,rfl⟩
    exact set_none_args _ pcb
  obtain ⟨s,gone,step⟩ := step
  have confirmed := @reply_confirmed file peer pcb b env (Nat.le_of_eq last)
  rw [fileUpload,lockstep_taken w.ready,step]
  refine ⟨gone,?_⟩
  intro past written
  obtain ⟨sound,now⟩ := confirmed past written
  rw [List.append_assoc]
  refine ⟨eachAfter_append.mpr ⟨sound,fun _ _ => closed,trivial,trivial,trivial,trivial,trivial⟩,?_⟩
  rw [← List.append_assoc,bytesWritten_append,now]
  exact List.append_nil _

theorem Closed.deliver (closed : Closed pcb u) : (fileUpload file peer pcb).step u (.deliver env k) = (u,[]) := by
  apply lockstep_lost
  rintro ⟨registered,-⟩
  rw [closed] at registered
  contradiction

/-- The transfer has been closed, or the first blocks have been written. -/
def WriteState (file : List UInt8) (pcb : Nat) (u : Lockstep TftpServer) (past : List TftpEvent) : Prop :=
  Closed pcb u ∨ ∃ b, Writing file pcb u b ∧ bytesWritten pcb past = file.take (512 * b)

theorem writeState_send (state : WriteState file pcb u past) (go : (fileUpload file peer pcb).enabled u .send) :
    WriteState file pcb { u with sent := u.sent + 1 } past := by
  rcases state with closed | ⟨b,w,written⟩
  · exact .inl closed
  · exact .inr ⟨b,⟨w.registered,w.before,go.1,w.small,w.isOpen,w.filePtr,w.contents,
      fun small => (w.inStep small).send small go⟩,written⟩
theorem writeState_deliver (state : WriteState file pcb u past) (ready : (fileUpload file peer pcb).enabled u (.deliver env k))
    (clear : WriteClear file pcb u (.deliver env k)) :
    WriteState file pcb ((fileUpload file peer pcb).step u (.deliver env k)).1
        (past ++ ((fileUpload file peer pcb).step u (.deliver env k)).2) ∧
      EachAfter (TftpEvent.Confirms file pcb) past ((fileUpload file peer pcb).step u (.deliver env k)).2 := by
  obtain ⟨positive,sent⟩ := ready
  rcases state with closed | ⟨b,w,written⟩
  · rw [closed.deliver,List.append_nil]
    exact ⟨.inl closed,trivial⟩
  · obtain ⟨args,registered,op,block⟩ := w.registered
    obtain ⟨enough,final⟩ := clear args registered
    have before := w.before
    have low := w.small
    rw [dataPacket_block,block] at enough
    by_cases next : k % 65536 = b + 1
    · -- Only block `b + 1` has this number as long as the sender is followed.
      have small : b + 1 < 65536 := next ▸ Nat.mod_lt k (by decide)
      have ahead := (w.inStep small).sent
      obtain rfl : k = b + 1 := by omega
      by_cases last : b + 1 = lastChunk 512 file
      · obtain ⟨closed,confirmed⟩ := w.finished peer last small (enough next) (final last).2
        exact ⟨.inl closed,(confirmed past written).1⟩
      · obtain ⟨writing,confirmed⟩ := w.taken peer (by omega) small (enough next)
        exact ⟨.inr ⟨b + 1,writing,(confirmed past written).2⟩,(confirmed past written).1⟩
    · have more : k < lastChunk 512 file := by
        refine Nat.lt_of_le_of_ne (Nat.le_trans sent w.sent) ?_
        intro last
        have number := (final last).1
        by_cases small : b + 1 < 65536
        · have ahead := (w.inStep small).sent
          omega
        · omega
      have full := chunk_length 512 file (k - 1) (by unfold lastChunk at more; omega)
      rw [Nat.sub_add_cancel positive] at full
      obtain ⟨writing,confirmed⟩ := w.other peer env full next
      exact ⟨.inr ⟨b,writing,(confirmed past written).2⟩,(confirmed past written).1⟩

/-- The request opens the file and is answered with number 0. -/
theorem OpensFile.writes {old : List UInt8} (opens : OpensFile tftpWrq env p old) :
    tftp.step s (.request env peer p) =
      ({ s with
          port69 := false
          fileCR := fileFopen true old
          pcbs := (s.pcbs ++ [none]).set s.pcbs.length (some ⟨tftpWrq,peer,0,0,0⟩) },
        TftpEvent.handling (.acquire .pbuf) ::
          (opening s.pcbs.length ++ tftpSendAckPacket env s.pcbs.length peer 0 ++ [TftpEvent.freePbuf])) := by
  obtain ⟨new,bind,opcode,init,dir,fopen,malloc⟩ := opens
  have write : tftpWrq ≠ tftpRrq := by decide
  simp [tftp,tftpStep,recvCallbackTftp,processTftpRequest,tftpProcessWrite,new,bind,opcode,init,dir,fopen,malloc,write,opening]
theorem OpensFile.writing {old : List UInt8} (opens : OpensFile tftpWrq env p old) :
    Writing file s.pcbs.length (fileUploadStarted s env peer p) 0 := by
  have replied := @ack_acked peer s.pcbs.length env 0
  rw [fileUploadStarted,opens.writes]
  refine ⟨⟨⟨tftpWrq,peer,0,0,0⟩,?_,rfl,rfl⟩,Nat.succ_pos _,Nat.zero_le _,Nat.succ_pos _,⟨rfl,rfl⟩,rfl,rfl,
    fun _ => ⟨Nat.zero_le _,numbers_le (Nat.succ_pos _) ?_⟩⟩
  · rw [TftpServer.args,List.getElem?_set_self (by simp)]
    rfl
  · rw [List.filterMap_cons,List.filterMap_append,List.filterMap_append]
    simpa [opening,TftpEvent.usePbuf,TftpEvent.freePbuf,TftpEvent.acked] using replied

end

/-- When every block that is accepted can be written, and the last block has a number of 16
    bits and finds no longer file, blocks are acknowledged when they have been written, and
    the file that is closed is the sender's. -/
theorem write_transfer (file : List UInt8) (s : TftpServer) (env : TftpEnv) (peer : Peer) (wrq : Packet) (old : List UInt8)
    (opens : OpensFile tftpWrq env wrq old) (inputs : List (LockstepInput TftpEnv))
    (admissible : (fileUpload file peer s.pcbs.length).Admissible (fileUploadStarted s env peer wrq) inputs)
    (clear : (fileUpload file peer s.pcbs.length).Each (WriteClear file s.pcbs.length)
      (fileUploadStarted s env peer wrq) inputs) :
    EachAfter (TftpEvent.Confirms file s.pcbs.length) []
      ((fileUpload file peer s.pcbs.length).trace (fileUploadStarted s env peer wrq) inputs) := by
  have run := Machine.events_run
    (R := fun u past => WriteState file s.pcbs.length u past ∧ EachAfter (TftpEvent.Confirms file s.pcbs.length) [] past)
    ?_ [] ⟨.inr ⟨0,opens.writing,rfl⟩,trivial⟩ (Machine.each_and.mpr ⟨admissible,clear⟩)
  · exact run.2
  · rintro u past i ⟨state,sound⟩ ⟨enabled,good⟩
    cases i with
    | send =>
      have quiet : past ++ ((fileUpload file peer s.pcbs.length).step u .send).2 = past := List.append_nil _
      rw [quiet]
      exact ⟨writeState_send state enabled,sound⟩
    | deliver env k =>
      obtain ⟨next,confirmed⟩ := writeState_deliver state enabled good
      exact ⟨next,eachAfter_append.mpr ⟨sound,confirmed⟩⟩
/-- A file of two bytes, whose block arrives twice. -/
theorem write_transfer_two_bytes :
    EachAfter (TftpEvent.Confirms [7,8] 0) []
      ((fileUpload [7,8] ⟨1,2⟩ 0).trace (fileUploadStarted tftpStarted (.plain []) ⟨1,2⟩ ⟨[0,2],2,[]⟩)
        [.send,.deliver (.plain []) 1,.deliver (.plain []) 1]) :=
  write_transfer [7,8] tftpStarted (.plain []) ⟨1,2⟩ ⟨[0,2],2,[]⟩ [] ⟨rfl,rfl,rfl,rfl,rfl,rfl,rfl⟩
    [.send,.deliver (.plain []) 1,.deliver (.plain []) 1] (by decide) (by decide)
/-- One byte that the card does not take. -/
theorem write_transfer_fails :
    let full : TftpEnv := { TftpEnv.plain [] with takes := 0 }
    let started := fileUploadStarted tftpStarted (.plain []) ⟨1,2⟩ ⟨[0,2],2,[]⟩
    (fileUpload [7] ⟨1,2⟩ 0).Admissible started [.send,.deliver full 1] ∧
      ¬ EachAfter (TftpEvent.Confirms [7] 0) [] ((fileUpload [7] ⟨1,2⟩ 0).trace started [.send,.deliver full 1]) := by
  intro full started
  refine ⟨by decide,?_⟩
  intro sound
  let front : List TftpEvent :=
    [.handling (.acquire .pbuf),.usePbuf,.handling (.use (.args 0)),.handling (.use (.pcb 0)),
      .error 0 ⟨1,2⟩ .fileNotFound,.cleanupWr 0 ⟨true,true,[],0⟩,.handling (.release (.args 0)),
      .handling (.use (.pcb 0)),.handling (.release (.pcb 0)),.handling (.use (.args 0)),.handling (.use (.pcb 0))]
  let back : List TftpEvent :=
    [.cleanupWr 0 fileFclosed,.handling (.release (.args 0)),.handling (.use (.pcb 0)),.handling (.release (.pcb 0)),
      .freePbuf]
  have split : (fileUpload [7] ⟨1,2⟩ 0).trace started [.send,.deliver full 1] = front ++ TftpEvent.ack 0 ⟨1,2⟩ 1 :: back := by
    decide
  rw [split,eachAfter_append,eachAfter_cons] at sound
  obtain ⟨j,-,number,written⟩ := sound.2.1 rfl
  cases j with
  | zero => exact absurd number (by decide)
  | succ j =>
    have empty : ([7] : List UInt8).take (512 * (j + 1)) = [] := written.symm
    rw [List.take_eq_nil_iff] at empty
    rcases empty with none | nil
    · omega
    · contradiction

end Net2Modbus
