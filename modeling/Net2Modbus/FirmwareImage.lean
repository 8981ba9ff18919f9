import Net2Modbus.Lockstep
import Net2Modbus.UserFlash

/-!
# The firmware image

One packet of a transfer to the server for new firmware, and a whole upload: a sender
that waits for each acknowledgement and a network that repeats and delays its packets.
When the transfer ends, the flash holds the file.
-/
namespace Net2Modbus

/-- The transfer that calls `IAP_EndSetFlash`, and the flash that it finds. -/
def IapEvent.ending : IapEvent → Option (Nat × Flash)
  | .endSetFlash pcb flash => some (pcb,flash)
  | _ => none
def endings (events : List IapEvent) : List (Nat × Flash) := events.filterMap IapEvent.ending
/-- The number that an event acknowledges to the peer of a transfer. -/
def IapEvent.acked (pcb : Nat) (peer : Peer) : IapEvent → Option UInt16
  | .ack n addr block => if n = pcb ∧ addr = peer then some block else none
  | _ => none

/-- The packet has the number of the next block. -/
def IapArgs.Next (args : IapArgs) (p : Packet) : Prop := iapTftpExtractBlock p = args.block + 1

instance (args : IapArgs) (p : Packet) : Decidable (args.Next p) := inferInstanceAs (Decidable (_ = _))

section
variable {env : IapEnv} {pcb : Nat} {addr : Peer} {p : Packet} {s : IapServer} {args : IapArgs}

theorem iapAccept_of_not_next (other : ¬ args.Next p) : iapAccept env args p s = (s,args) := if_neg other
variable (env args p s) in
/-- What a block leaves alone. -/
theorem iapAccept_frame : (iapAccept env args p s).1.pcbs = s.pcbs ∧ (iapAccept env args p s).1.jumped = s.jumped ∧
    (iapAccept env args p s).2.peer = args.peer ∧
    (iapAccept env args p s).2.block = if args.Next p then args.block + 1 else args.block := by
  by_cases next : args.Next p
  · rw [if_pos next]
    unfold iapAccept
    rw [if_pos (show iapTftpExtractBlock p = args.block + 1 from next)]
    split <;> exact ⟨rfl,rfl,rfl,rfl⟩
  · rw [iapAccept_of_not_next next,if_neg next]
    exact ⟨rfl,rfl,rfl,rfl⟩

theorem wordCount_covers (size : Nat) : size ≤ 4 * wordCount size ∧ 4 * wordCount size < size + 4 := by
  unfold wordCount
  split <;> omega
/-- The words that the bytes of a block become, the last one filled up from the stack. -/
def blockWords (env : IapEnv) (p : Packet) : List UInt32 :=
  wordsOf (p.bytes.drop tftpDataPktHdrLen ++ env.stack.drop (p.bytes.length - 4)) (wordCount (p.bytes.length - 4))

theorem blockWords_length : (blockWords env p).length = wordCount (p.bytes.length - 4) := by simp [blockWords]
variable (env s) in
/-- Words of the next block are written from the write address on. -/
theorem iapAccept_wrote (next : args.Next p) {first : Nat} (address : s.flashWriteAddress = userAddress first)
    (small : first ≤ userWords) :
    ∃ count ≤ wordCount (p.bytes.length - 4), first + count ≤ userWords ∧
      (iapAccept env args p s).1.flashWriteAddress = userAddress (first + count) ∧
      s.flash.Wrote (iapAccept env args p s).1.flash first ((blockWords env p).take count) ∧
      (s.flash.Works (wordCount (p.bytes.length - 4)) → first + wordCount (p.bytes.length - 4) ≤ userWords →
        count = wordCount (p.bytes.length - 4)) := by
  have number : iapTftpExtractBlock p = args.block + 1 := next
  rw [iapAccept,if_pos number]
  by_cases data : tftpDataPktHdrLen < p.bytes.length
  · have wrote := flashIfWrite_wrote (blockWords env p) first small s.flash
    rw [blockWords_length] at wrote
    rw [if_pos data,address]
    exact wrote
  · have none : p.bytes.length - 4 = 0 := by
      unfold tftpDataPktHdrLen at data
      omega
    rw [if_neg data,none]
    exact ⟨0,Nat.zero_le _,small,address,.nil s.flash first,fun _ _ => rfl⟩
variable (env s) in
/-- The next block is written behind the blocks before it. -/
theorem iapAccept_next {b : Nat} (next : args.Next p) (address : s.flashWriteAddress = userAddress (128 * b))
    (works : s.flash.Works (wordCount (p.bytes.length - 4)))
    (fits : 128 * b + wordCount (p.bytes.length - 4) ≤ userWords) :
    (iapAccept env args p s).1.flashWriteAddress = userAddress (128 * b + wordCount (p.bytes.length - 4)) ∧
      (iapAccept env args p s).1.flash.image (512 * b + (p.bytes.length - 4)) =
        s.flash.image (512 * b) ++ p.bytes.drop 4 := by
  obtain ⟨count,-,-,behind,wrote,complete⟩ := iapAccept_wrote env s next address (Nat.le_trans (Nat.le_add_right ..) fits)
  obtain rfl := complete works fits
  obtain ⟨covers,-⟩ := wordCount_covers (p.bytes.length - 4)
  unfold userWords at fits
  have enough : p.bytes.length - 4 ≤
      (p.bytes.drop tftpDataPktHdrLen ++ env.stack.drop (p.bytes.length - 4)).length := by simp [tftpDataPktHdrLen]
  have exactly : p.bytes.length - 4 = (p.bytes.drop tftpDataPktHdrLen).length := by simp [tftpDataPktHdrLen]
  rw [List.take_of_length_le (Nat.le_of_eq blockWords_length)] at wrote
  have image := wrote.image (by omega) covers enough
  rw [← Nat.mul_assoc] at image
  refine ⟨behind,image.trans ?_⟩
  rw [exactly,List.take_left]
  rfl

/-- A packet in one pbuf is answered with the number of the last block. -/
def iapAckNumbers (env : IapEnv) (args : IapArgs) : List UInt16 :=
  if env.pbufAlloc then [UInt16.ofNat args.block] else []

variable (env pcb addr args) in
theorem iapAck_acked : (iapTftpSendAckPacket env pcb addr args.block).filterMap (IapEvent.acked pcb addr) =
    iapAckNumbers env args := by
  unfold iapTftpSendAckPacket iapAckNumbers
  split
  · simp [List.filterMap,IapEvent.acked]
  · rfl
variable (env pcb addr args) in
theorem iapAck_endings : endings (iapTftpSendAckPacket env pcb addr args.block) = [] := by
  unfold iapTftpSendAckPacket
  split <;> rfl
variable (pcb addr s) in
theorem iapEndSetFlash_cases : (iapEndSetFlash s).1.pcbs = s.pcbs ∧ endings (iapEndSetFlash s).2 = [] ∧
    (iapEndSetFlash s).2.filterMap (IapEvent.acked pcb addr) = [] := by
  unfold iapEndSetFlash
  split <;> exact ⟨rfl,rfl,rfl⟩

theorem iapWrqRecvCallback_full (single : ¬ p.Chained) (full : ¬ p.bytes.length < tftpDataPktLenMax) :
    iapWrqRecvCallback env pcb args addr p s =
      ({ (iapAccept env args p s).1 with
          pcbs := (iapAccept env args p s).1.pcbs.set pcb (some (iapAccept env args p s).2) },
        [usePbuf,.handling (.use (.args pcb))] ++
          iapTftpSendAckPacket env pcb addr (iapAccept env args p s).2.block ++ [freePbuf]) := by
  rw [iapWrqRecvCallback,if_neg single]
  rcases iapAccept env args p s with ⟨s',args'⟩
  exact if_neg full
theorem iapWrqRecvCallback_short (single : ¬ p.Chained) (short : p.bytes.length < tftpDataPktLenMax) :
    iapWrqRecvCallback env pcb args addr p s =
      ((iapEndSetFlash { (iapAccept env args p s).1 with pcbs := (iapAccept env args p s).1.pcbs.set pcb none }).1,
        [usePbuf,.handling (.use (.args pcb))] ++
          iapTftpSendAckPacket env pcb addr (iapAccept env args p s).2.block ++ iapTftpCleanupWr pcb true ++
          [freePbuf,.endSetFlash pcb (iapAccept env args p s).1.flash] ++
          (iapEndSetFlash { (iapAccept env args p s).1 with
            pcbs := (iapAccept env args p s).1.pcbs.set pcb none }).2) := by
  rw [iapWrqRecvCallback,if_neg single]
  rcases iapAccept env args p s with ⟨s',args'⟩
  exact if_pos short

/-- What a packet that reaches a transfer brings, if it is the next block. -/
def iapAccepted (env : IapEnv) (args : IapArgs) (p : Packet) (s : IapServer) : IapServer × IapArgs :=
  iapAccept env args p (s.withOutcomes env.outcomes)

theorem iapStep_data (registered : s.args pcb = some args) :
    iapStep s (.data env pcb addr p) =
      ((iapWrqRecvCallback env pcb args addr p (s.withOutcomes env.outcomes)).1,
        .handling (.acquire .pbuf) :: (iapWrqRecvCallback env pcb args addr p (s.withOutcomes env.outcomes)).2) := by
  simp only [iapStep,registered]
/-- A chained packet is dropped. -/
theorem iapStep_chained (registered : s.args pcb = some args) (chained : p.Chained) :
    iapStep s (.data env pcb addr p) = (s.withOutcomes env.outcomes,[.handling (.acquire .pbuf),usePbuf]) := by
  rw [iapStep_data registered,iapWrqRecvCallback,if_pos chained]
variable (env addr) in
/-- A full packet leaves the transfer open. -/
theorem iapStep_full (registered : s.args pcb = some args) (single : ¬ p.Chained)
    (full : ¬ p.bytes.length < tftpDataPktLenMax) :
    (iapStep s (.data env pcb addr p)).1 = { (iapAccepted env args p s).1 with
        pcbs := (iapAccepted env args p s).1.pcbs.set pcb (some (iapAccepted env args p s).2) } ∧
      endings (iapStep s (.data env pcb addr p)).2 = [] ∧
      (iapStep s (.data env pcb addr p)).2.filterMap (IapEvent.acked pcb addr) =
        iapAckNumbers env (iapAccepted env args p s).2 := by
  rw [iapStep_data registered,iapWrqRecvCallback_full single full]
  have acked := iapAck_acked env pcb addr (iapAccepted env args p s).2
  have endless := iapAck_endings env pcb addr (iapAccepted env args p s).2
  unfold iapAccepted at acked endless
  unfold endings at endless
  refine ⟨rfl,?_,?_⟩
  · simp only [endings,List.filterMap_cons,List.filterMap_append,endless]
    rfl
  · simp only [List.filterMap_cons,List.filterMap_append,acked]
    exact List.append_nil _
variable (env addr) in
/-- A short packet ends the transfer. -/
theorem iapStep_short (registered : s.args pcb = some args) (single : ¬ p.Chained)
    (short : p.bytes.length < tftpDataPktLenMax) :
    (iapStep s (.data env pcb addr p)).1.pcbs = (iapAccepted env args p s).1.pcbs.set pcb none ∧
      endings (iapStep s (.data env pcb addr p)).2 = [(pcb,(iapAccepted env args p s).1.flash)] ∧
      (iapStep s (.data env pcb addr p)).2.filterMap (IapEvent.acked pcb addr) =
        iapAckNumbers env (iapAccepted env args p s).2 := by
  rw [iapStep_data registered,iapWrqRecvCallback_short single short]
  have acked := iapAck_acked env pcb addr (iapAccepted env args p s).2
  have endless := iapAck_endings env pcb addr (iapAccepted env args p s).2
  obtain ⟨kept,quiet,silent⟩ := iapEndSetFlash_cases pcb addr
    { (iapAccepted env args p s).1 with pcbs := (iapAccepted env args p s).1.pcbs.set pcb none }
  unfold iapAccepted at acked endless kept quiet silent
  unfold endings at endless quiet
  refine ⟨kept,?_,?_⟩
  · simp only [endings,List.filterMap_cons,List.filterMap_append,endless,quiet]
    rfl
  · simp [List.filterMap_cons,usePbuf,freePbuf,iapTftpCleanupWr,IapEvent.acked,acked,silent]
    rfl
variable (env addr) in
/-- The server goes on, or it has jumped to the new program. -/
theorem iapStep_short_state (registered : s.args pcb = some args) (single : ¬ p.Chained)
    (short : p.bytes.length < tftpDataPktLenMax) :
    (iapStep s (.data env pcb addr p)).1 = { (iapAccepted env args p s).1 with
        pcbs := (iapAccepted env args p s).1.pcbs.set pcb none } ∨
      (iapStep s (.data env pcb addr p)).1.jumped = true := by
  rw [iapStep_data registered,iapWrqRecvCallback_short single short,iapEndSetFlash]
  split
  · exact .inr rfl
  · exact .inl rfl

end

/-- A request that opens a transfer. -/
def Opens (env : IapEnv) (p : Packet) : Prop :=
  env.udpNew = true ∧ env.udpBind = true ∧ iapTftpDecodeOp p = tftpWrq ∧ env.memMalloc = true

instance (env : IapEnv) (p : Packet) : Decidable (Opens env p) := inferInstanceAs (Decidable (_ ∧ _ ∧ _ ∧ _))

/-- The flash is erased, and the transfer starts from its first page. -/
theorem iapStep_opens (addr : Peer) (s : IapServer) {env : IapEnv} {p : Packet} (opens : Opens env p) :
    (iapStep s (.request env addr p)).1 = { s with
        pcbs := s.pcbs ++ [some ⟨addr,0,0⟩]
        totalCount := 0
        flash := (flashIfErase flashFirstPageAddress (flashIfInit { s.flash with outcomes := env.outcomes })).1
        flashWriteAddress := flashFirstPageAddress } ∧
      endings (iapStep s (.request env addr p)).2 = [] ∧
      (iapStep s (.request env addr p)).2.filterMap (IapEvent.acked s.pcbs.length addr) =
        iapAckNumbers env ⟨addr,0,0⟩ := by
  obtain ⟨new,bind,opcode,malloc⟩ := opens
  have acked : (iapTftpSendAckPacket env (s.withOutcomes env.outcomes).pcbs.length addr 0).filterMap
      (IapEvent.acked s.pcbs.length addr) = iapAckNumbers env ⟨addr,0,0⟩ :=
    iapAck_acked env s.pcbs.length addr ⟨addr,0,0⟩
  have endless : (iapTftpSendAckPacket env (s.withOutcomes env.outcomes).pcbs.length addr 0).filterMap
      IapEvent.ending = [] := iapAck_endings env s.pcbs.length addr ⟨addr,0,0⟩
  simp only [iapStep,iapTftpRecvCallback,iapTftpProcessWrite,new,bind,opcode,malloc,if_true]
  refine ⟨rfl,?_,?_⟩
  · simp only [endings,List.filterMap_cons,List.filterMap_append,endless]
    rfl
  · simp only [List.filterMap_cons,List.filterMap_append,acked]
    exact List.append_nil _
/-- Any other request leaves the flash and the transfers alone. -/
theorem iapStep_refuses (addr : Peer) (s : IapServer) {env : IapEnv} {p : Packet} (refuses : ¬ Opens env p) :
    (iapStep s (.request env addr p)).1 = { s.withOutcomes env.outcomes with
        pcbs := s.pcbs ++ if env.udpNew then [none] else [] } ∧
      endings (iapStep s (.request env addr p)).2 = [] ∧
      (iapStep s (.request env addr p)).2.filterMap (IapEvent.acked s.pcbs.length addr) = [] := by
  unfold Opens at refuses
  by_cases new : env.udpNew = true
  · by_cases bind : env.udpBind = true
    · by_cases opcode : iapTftpDecodeOp p = tftpWrq
      · by_cases malloc : env.memMalloc = true
        · exact absurd ⟨new,bind,opcode,malloc⟩ refuses
        · simp only [iapStep,iapTftpRecvCallback,iapTftpProcessWrite,if_pos new,if_pos bind,if_pos opcode,if_neg malloc]
          exact ⟨rfl,rfl,rfl⟩
      · simp only [iapStep,iapTftpRecvCallback,if_pos new,if_pos bind,if_neg opcode]
        exact ⟨rfl,rfl,rfl⟩
    · simp only [iapStep,iapTftpRecvCallback,if_pos new,if_neg bind]
      exact ⟨rfl,rfl,rfl⟩
  · simp only [iapStep,iapTftpRecvCallback,if_neg new]
    refine ⟨?_,rfl,rfl⟩
    rw [List.append_nil]
    rfl

theorem args_lt {s : IapServer} {pcb : Nat} {args : IapArgs} (registered : s.args pcb = some args) :
    pcb < s.pcbs.length := by
  by_contra outside
  rw [IapServer.args,List.getElem?_eq_none (Nat.le_of_not_lt outside)] at registered
  contradiction
/-- A control block without arguments. -/
theorem args_append_none (s : IapServer) (new : Bool) (pcb : Nat) :
    ((s.pcbs ++ if new then [none] else [])[pcb]?).join = s.args pcb := by
  rw [IapServer.args]
  by_cases inside : pcb < s.pcbs.length
  · rw [List.getElem?_append_left inside]
  · have behind := Nat.le_of_not_lt inside
    rw [List.getElem?_append_right behind,List.getElem?_eq_none behind]
    cases new with
    | false => rfl
    | true => rcases pcb - s.pcbs.length with _ | k <;> rfl

/-- The write address of the open transfers counts words. -/
def Addressed (s : IapServer) : Prop :=
  (∀ pcb, s.args pcb = none) ∨ ∃ first ≤ userWords, s.flashWriteAddress = userAddress first

section
variable {s : IapServer}

theorem Addressed.registered {pcb : Nat} {args : IapArgs} (addressed : Addressed s) (registered : s.args pcb = some args) :
    ∃ first ≤ userWords, s.flashWriteAddress = userAddress first := by
  rcases addressed with closed | address
  · rw [closed] at registered
    contradiction
  · exact address
theorem iapStarted_addressed (flash : Flash) : Addressed (iapStarted flash) := .inl fun _ => rfl
/-- A packet for a transfer moves the write address on by words. -/
theorem iapWrq_address (env : IapEnv) (pcb : Nat) (args : IapArgs) (addr : Peer) (p : Packet) {first : Nat}
    (address : s.flashWriteAddress = userAddress first) (small : first ≤ userWords) :
    ∃ first' ≤ userWords, (iapWrqRecvCallback env pcb args addr p s).1.flashWriteAddress = userAddress first' := by
  have accepted : ∃ first' ≤ userWords, (iapAccept env args p s).1.flashWriteAddress = userAddress first' := by
    by_cases next : args.Next p
    · obtain ⟨count,-,inside,moved,-⟩ := iapAccept_wrote env s next address small
      exact ⟨first + count,inside,moved⟩
    · rw [iapAccept_of_not_next next]
      exact ⟨first,small,address⟩
  unfold iapWrqRecvCallback
  split
  · exact ⟨first,small,address⟩
  · dsimp only
    split
    · unfold iapEndSetFlash
      split
      · exact accepted
      · exact accepted
    · exact accepted
theorem addressed_step (addressed : Addressed s) (i : IapInput) : Addressed (iapStep s i).1 := by
  cases i with
  | request env addr p =>
    by_cases opens : Opens env p
    · rw [(iapStep_opens addr s opens).1]
      exact .inr ⟨0,Nat.zero_le _,rfl⟩
    · rw [(iapStep_refuses addr s opens).1]
      rcases addressed with closed | address
      · refine .inl ?_
        intro pcb
        exact (args_append_none s env.udpNew pcb).trans (closed pcb)
      · exact .inr address
  | data env pcb addr p =>
    cases registered : s.args pcb with
    | none =>
      simp only [iapStep,registered]
      exact addressed
    | some args =>
      obtain ⟨first,small,address⟩ := addressed.registered registered
      rw [iapStep_data registered]
      exact .inr (iapWrq_address env pcb args addr p address small)

end

/-! ### Uploads -/

/-- The packet that carries a block; its number is sent in 16 bits. -/
def dataPacket (file : List UInt8) (k : Nat) : Packet :=
  let bytes := [0,tftpData,UInt8.ofNat (k / 256),UInt8.ofNat k] ++ chunk 512 file k
  ⟨bytes,bytes.length,[]⟩

theorem dataPacket_single (file : List UInt8) (k : Nat) : ¬ (dataPacket file k).Chained := by simp [Packet.Chained,dataPacket]
theorem dataPacket_length (file : List UInt8) (k : Nat) :
    (dataPacket file k).bytes.length = (chunk 512 file k).length + 4 := by simp [dataPacket]
theorem dataPacket_small (file : List UInt8) (k : Nat) : (dataPacket file k).totLen < 65536 := by
  have short := chunk_length_le 512 file k
  show (dataPacket file k).bytes.length < 65536
  rw [dataPacket_length]
  omega
theorem dataPacket_data (file : List UInt8) (k : Nat) : (dataPacket file k).bytes.drop 4 = chunk 512 file k := rfl
theorem dataPacket_block (file : List UInt8) (k : Nat) : iapTftpExtractBlock (dataPacket file k) = k % 65536 := by
  have high : (dataPacket file k).byteAt 2 = UInt8.ofNat (k / 256) := rfl
  have low : (dataPacket file k).byteAt 3 = UInt8.ofNat k := rfl
  rw [iapTftpExtractBlock,high,low,UInt8.toNat_ofNat',UInt8.toNat_ofNat']
  omega

/-- A sender of a file, the network, and the server with the transfer of the sender. -/
def upload (file : List UInt8) (peer : Peer) (pcb : Nat) : Machine (Lockstep IapServer) (LockstepInput IapEnv) IapEvent :=
  lockstep iap (fun env k => .data env pcb peer (dataPacket file k)) (IapEvent.acked pcb peer) (lastChunk 512 file)

instance (file : List UInt8) (peer : Peer) (pcb : Nat) (u : Lockstep IapServer) (i : LockstepInput IapEnv) :
    Decidable ((upload file peer pcb).enabled u i) :=
  inferInstanceAs (Decidable ((lockstep iap (fun env k => .data env pcb peer (dataPacket file k))
    (IapEvent.acked pcb peer) (lastChunk 512 file)).enabled u i))

/-- The sender asks for a transfer. -/
def uploadStarted (s : IapServer) (env : IapEnv) (peer : Peer) (wrq : Packet) : Lockstep IapServer where
  server := (iapStep s (.request env peer wrq)).1
  sent := 0
  acks := (iapStep s (.request env peer wrq)).2.filterMap (IapEvent.acked s.pcbs.length peer)

/-- Every operation on the flash completes. -/
def LockstepInput.Complete : LockstepInput IapEnv → Prop
  | .send => True
  | .deliver env _ => ∀ complete ∈ env.outcomes, complete = true

instance decidableAllComplete (i : LockstepInput IapEnv) : Decidable i.Complete :=
  match i with
  | .send => isTrue trivial
  | .deliver env _ => inferInstanceAs (Decidable (∀ complete ∈ env.outcomes, complete = true))

/-- The transfer has taken the first blocks of the file, and their bytes are in the flash. -/
structure Receiving (file : List UInt8) (peer : Peer) (pcb : Nat) (u : Lockstep IapServer) (b : Nat) : Prop where
  running : u.server.jumped = false
  registered : ∃ args, u.server.args pcb = some args ∧ args.block = b
  before : b < lastChunk 512 file
  address : u.server.flashWriteAddress = userAddress (128 * b)
  image : u.server.flash.image (512 * b) = file.take (512 * b)
  inStep : InStep u b
/-- No packet reaches the transfer. -/
def Ended (pcb : Nat) (u : Lockstep IapServer) : Prop := u.server.jumped = true ∨ u.server.args pcb = none

/-- The arguments that a callback is registered with. -/
theorem args_set {s : IapServer} {pcb : Nat} {args : IapArgs} {pcbs : List (Option IapArgs)} (new : Option IapArgs)
    (registered : s.args pcb = some args) (same : pcbs = s.pcbs.set pcb new) : (pcbs[pcb]?).join = new := by
  rw [same,List.getElem?_set_self (args_lt registered)]
  rfl

section
variable {file : List UInt8} {peer : Peer} {pcb : Nat} {u : Lockstep IapServer} {b : Nat} {env : IapEnv} {k : Nat}

theorem lastChunk_small (fits : file.length ≤ 4 * configWord) : lastChunk 512 file ≤ 381 := by
  unfold lastChunk configWord at *
  omega
theorem iap_step : iap.step = iapStep := rfl
/-- A block that has been sent is taken by the server. -/
theorem Receiving.ready (r : Receiving file peer pcb u b) : iap.enabled u.server (.data env pcb peer (dataPacket file k)) := by
  obtain ⟨args,registered,-⟩ := r.registered
  exact ⟨r.running,by rw [registered]; rfl,Nat.le_refl _,dataPacket_small file k⟩
/-- The numbers that a packet is answered with stay below a bound. -/
theorem iapAckNumbers_le {args : IapArgs} (small : args.block < 65536) : ∀ a ∈ iapAckNumbers env args, a.toNat ≤ args.block := by
  unfold iapAckNumbers
  split
  · intro a member
    rw [List.mem_singleton.mp member,UInt16.toNat_ofNat',Nat.mod_eq_of_lt small]
  · exact List.forall_mem_nil _

/-- A block that was taken before changes nothing. -/
theorem Receiving.repeated (r : Receiving file peer pcb u b) (fits : file.length ≤ 4 * configWord) (positive : 1 ≤ k)
    (old : k ≤ b) : Receiving file peer pcb ((upload file peer pcb).step u (.deliver env k)).1 b ∧
      endings ((upload file peer pcb).step u (.deliver env k)).2 = [] := by
  obtain ⟨args,registered,block⟩ := r.registered
  have before := r.before
  have small := lastChunk_small fits
  have number := dataPacket_block file k
  rw [Nat.mod_eq_of_lt (by omega)] at number
  have other : ¬ args.Next (dataPacket file k) := by
    rw [IapArgs.Next,number]
    omega
  have length : (chunk 512 file k).length = 512 := by
    have inside := chunk_length 512 file (k - 1) (by unfold lastChunk at before; omega)
    rwa [Nat.sub_add_cancel positive] at inside
  have full : ¬ (dataPacket file k).bytes.length < tftpDataPktLenMax := by
    rw [dataPacket_length,length]
    decide
  obtain ⟨state,endless,acked⟩ := iapStep_full env peer registered (dataPacket_single file k) full
  rw [upload,lockstep_taken r.ready,iap_step,iapAccepted,iapAccept_of_not_next other] at *
  refine ⟨?_,endless⟩
  rw [state,acked]
  exact ⟨r.running,⟨args,args_set _ registered rfl,block⟩,before,r.address,r.image,
    r.inStep.take (Nat.le_refl b) (block ▸ @iapAckNumbers_le env args (by omega))⟩

/-- What the next block does to the flash. -/
theorem Receiving.accepted (r : Receiving file peer pcb u b) (fits : file.length ≤ 4 * configWord)
    (complete : ∀ c ∈ env.outcomes, c = true) {args : IapArgs} (block : args.block = b) :
    args.Next (dataPacket file (b + 1)) ∧
      (iapAccepted env args (dataPacket file (b + 1)) u.server).1.flashWriteAddress =
        userAddress (128 * b + wordCount (chunk 512 file (b + 1)).length) ∧
      (iapAccepted env args (dataPacket file (b + 1)) u.server).1.flash.image
        (512 * b + (chunk 512 file (b + 1)).length) = file.take (512 * (b + 1)) := by
  have before := r.before
  have small := lastChunk_small fits
  have number := dataPacket_block file (b + 1)
  rw [Nat.mod_eq_of_lt (by omega)] at number
  have next : args.Next (dataPacket file (b + 1)) := by rw [IapArgs.Next,number,block]
  have works : (u.server.withOutcomes env.outcomes).flash.Works (wordCount ((dataPacket file (b + 1)).bytes.length - 4)) :=
    works_of_complete complete _
  have size : (dataPacket file (b + 1)).bytes.length - 4 = (chunk 512 file (b + 1)).length := by
    rw [dataPacket_length,Nat.add_sub_cancel]
  have room : 128 * b + wordCount ((dataPacket file (b + 1)).bytes.length - 4) ≤ userWords := by
    have covers := (wordCount_covers (chunk 512 file (b + 1)).length).2
    have inside : (chunk 512 file (b + 1)).length ≤ file.length - 512 * b := by
      rw [chunk,Nat.add_sub_cancel,List.length_take,List.length_drop]
      exact Nat.min_le_right _ _
    unfold lastChunk at before
    unfold configWord at fits
    rw [size,userWords]
    omega
  have written := iapAccept_next env (u.server.withOutcomes env.outcomes) next r.address works room
  rw [size,dataPacket_data] at written
  refine ⟨next,written.1,written.2.trans ?_⟩
  show u.server.flash.image (512 * b) ++ _ = _
  rw [r.image,chunk_succ]
/-- The next block, when it is not the last one. -/
theorem Receiving.taken (r : Receiving file peer pcb u b) (fits : file.length ≤ 4 * configWord)
    (complete : ∀ c ∈ env.outcomes, c = true) (more : b + 1 < lastChunk 512 file) :
    Receiving file peer pcb ((upload file peer pcb).step u (.deliver env (b + 1))).1 (b + 1) ∧
      endings ((upload file peer pcb).step u (.deliver env (b + 1))).2 = [] := by
  obtain ⟨args,registered,block⟩ := r.registered
  have small := lastChunk_small fits
  have length := chunk_length 512 file b (by unfold lastChunk at more; omega)
  have full : ¬ (dataPacket file (b + 1)).bytes.length < tftpDataPktLenMax := by
    rw [dataPacket_length,length]
    decide
  obtain ⟨next,address,image⟩ := r.accepted fits complete block
  obtain ⟨kept,running,-,count⟩ := iapAccept_frame env (dataPacket file (b + 1))
    (u.server.withOutcomes env.outcomes) args
  obtain ⟨state,endless,acked⟩ := iapStep_full env peer registered
    (dataPacket_single file (b + 1)) full
  rw [if_pos next,block] at count
  rw [length] at address image
  rw [upload,lockstep_taken r.ready,iap_step]
  refine ⟨?_,endless⟩
  rw [state,acked]
  have bound := @iapAckNumbers_le env (iapAccepted env args (dataPacket file (b + 1)) u.server).2
    (count.trans_lt (by omega))
  exact ⟨running.trans r.running,⟨_,args_set _ registered (congrArg (fun l => List.set l pcb (some _)) kept),count⟩,
    more,address,image,r.inStep.take (Nat.le_succ b) fun a member => (bound a member).trans_eq count⟩
/-- The last block ends the transfer, and the flash holds the file. -/
theorem Receiving.finished (r : Receiving file peer pcb u b) (fits : file.length ≤ 4 * configWord)
    (complete : ∀ c ∈ env.outcomes, c = true) (last : b + 1 = lastChunk 512 file) :
    Ended pcb ((upload file peer pcb).step u (.deliver env (b + 1))).1 ∧
      ∃ flash, endings ((upload file peer pcb).step u (.deliver env (b + 1))).2 = [(pcb,flash)] ∧
        flash.image file.length = file := by
  obtain ⟨args,registered,block⟩ := r.registered
  have length : (chunk 512 file (b + 1)).length = file.length % 512 := last ▸ chunk_last_length (by decide)
  have short : (dataPacket file (b + 1)).bytes.length < tftpDataPktLenMax := by
    rw [dataPacket_length,length,tftpDataPktLenMax]
    omega
  obtain ⟨next,address,image⟩ := r.accepted fits complete block
  obtain ⟨kept,-⟩ := iapAccept_frame env (dataPacket file (b + 1))
    (u.server.withOutcomes env.outcomes) args
  obtain ⟨state,ending,-⟩ := iapStep_short env peer registered
    (dataPacket_single file (b + 1)) short
  have whole : 512 * b + file.length % 512 = file.length := by
    unfold lastChunk at last
    omega
  have all : file.take (512 * (b + 1)) = file := by
    rw [last]
    exact take_lastChunk (by decide)
  rw [length,whole,all] at image
  rw [upload,lockstep_taken r.ready,iap_step]
  refine ⟨.inr ?_,_,ending,image⟩
  show (_[pcb]?).join = none
  exact args_set _ registered (state.trans (congrArg (fun l => List.set l pcb none) kept))

/-- After the end nothing more happens. -/
theorem Ended.deliver (ended : Ended pcb u) : (upload file peer pcb).step u (.deliver env k) = (u,[]) := by
  apply lockstep_lost
  rintro ⟨running,registered,-⟩
  rcases ended with jumped | closed
  · rw [jumped] at running
    contradiction
  · rw [closed] at registered
    contradiction

/-- The states of an upload: the request failed, blocks are taken, or the last one was. -/
inductive UploadState (file : List UInt8) (peer : Peer) (pcb : Nat) (u : Lockstep IapServer) : (finished : Bool) → Prop
  | refused (closed : u.server.args pcb = none) (sent : u.sent = 0) (acks : u.acks = []) : UploadState file peer pcb u false
  | receiving (b : Nat) (r : Receiving file peer pcb u b) : UploadState file peer pcb u false
  | ended (e : Ended pcb u) : UploadState file peer pcb u true

/-- One step of an upload, and what it finds in the flash when it ends. -/
theorem upload_step (fits : file.length ≤ 4 * configWord) {finished : Bool} (state : UploadState file peer pcb u finished)
    {i : LockstepInput IapEnv} (enabled : (upload file peer pcb).enabled u i) (complete : i.Complete) :
    UploadState file peer pcb ((upload file peer pcb).step u i).1 (finished || i.delivers (lastChunk 512 file)) ∧
      finished.toNat + (endings ((upload file peer pcb).step u i).2).length =
        (finished || i.delivers (lastChunk 512 file)).toNat ∧
      ∀ e ∈ endings ((upload file peer pcb).step u i).2, e.1 = pcb ∧ e.2.image file.length = file := by
  cases i with
  | send =>
    have quiet : ∀ e ∈ endings ((upload file peer pcb).step u .send).2, e.1 = pcb ∧ e.2.image file.length = file :=
      List.forall_mem_nil _
    rw [LockstepInput.delivers,Bool.or_false]
    refine ⟨?_,rfl,quiet⟩
    cases state with
    | refused closed sent acks =>
      obtain ⟨-,ready⟩ := enabled
      rw [acks] at ready
      exact absurd ready List.not_mem_nil
    | receiving b r =>
      have small := lastChunk_small fits
      have before := r.before
      exact .receiving b ⟨r.running,r.registered,before,r.address,r.image,r.inStep.send (by omega) enabled⟩
    | ended e => exact .ended e
  | deliver env k =>
    obtain ⟨positive,sent⟩ := enabled
    cases state with
    | refused closed none acks => omega
    | ended e =>
      rw [e.deliver,Bool.true_or]
      exact ⟨.ended e,rfl,List.forall_mem_nil _⟩
    | receiving b r =>
      have before := r.before
      have ahead := Nat.le_trans sent r.inStep.sent
      rw [Bool.false_or,LockstepInput.delivers]
      by_cases old : k ≤ b
      · obtain ⟨next,endless⟩ := r.repeated fits positive old
        have other : (k == lastChunk 512 file) = false := beq_false_of_ne (by omega)
        rw [endless,other]
        exact ⟨.receiving b next,rfl,List.forall_mem_nil _⟩
      · obtain rfl : k = b + 1 := by omega
        by_cases last : b + 1 = lastChunk 512 file
        · obtain ⟨closed,flash,ending,image⟩ := r.finished fits complete last
          rw [ending,beq_iff_eq.mpr last]
          refine ⟨.ended closed,rfl,?_⟩
          rw [List.forall_mem_singleton]
          exact ⟨rfl,image⟩
        · obtain ⟨next,endless⟩ := r.taken fits complete (by omega)
          rw [endless,beq_false_of_ne last]
          exact ⟨.receiving (b + 1) next,rfl,List.forall_mem_nil _⟩

/-- The request opens the transfer, or it is not answered. -/
theorem uploadStarted_state {s : IapServer} (running : s.jumped = false) {wrq : Packet} :
    UploadState file peer s.pcbs.length (uploadStarted s env peer wrq) false := by
  by_cases opens : Opens env wrq
  · obtain ⟨state,-,acked⟩ := iapStep_opens peer s opens
    have registered : (s.pcbs ++ [some ⟨peer,0,0⟩])[s.pcbs.length]?.join = some (⟨peer,0,0⟩ : IapArgs) := by
      rw [List.getElem?_concat_length]
      rfl
    refine .receiving 0 ?_
    rw [uploadStarted,state,acked]
    refine ⟨running,⟨_,registered,rfl⟩,Nat.succ_pos _,rfl,rfl,Nat.zero_le _,?_⟩
    exact @iapAckNumbers_le env ⟨peer,0,0⟩ (Nat.succ_pos _)
  · obtain ⟨state,-,acked⟩ := iapStep_refuses peer s opens
    refine .refused ?_ rfl acked
    rw [uploadStarted,state]
    refine (args_append_none s env.udpNew s.pcbs.length).trans ?_
    rw [IapServer.args,List.getElem?_eq_none (Nat.le_refl _)]
    rfl

end

/-- When a sender uploads a file that fits below the page of the configuration, the transfer
    ends once, with its last block, and the flash then holds the file. -/
theorem firmware_image (file : List UInt8) (fits : file.length ≤ (ipAddrFlash - flashFirstPageAddress).toNat)
    (s : IapServer) (running : s.jumped = false) (env : IapEnv) (peer : Peer) (wrq : Packet)
    (inputs : List (LockstepInput IapEnv)) (complete : ∀ i ∈ inputs, i.Complete)
    (admissible : (upload file peer s.pcbs.length).Admissible (uploadStarted s env peer wrq) inputs) :
    let trace := (upload file peer s.pcbs.length).trace (uploadStarted s env peer wrq) inputs
    (∀ e ∈ endings trace, e.1 = s.pcbs.length ∧ e.2.image file.length = file) ∧
      (endings trace).length = (inputs.any (LockstepInput.delivers (lastChunk 512 file))).toNat := by
  have run := Machine.history_run
    (R := fun before u past =>
      UploadState file peer s.pcbs.length u (before.any (LockstepInput.delivers (lastChunk 512 file))) ∧
        (∀ e ∈ endings past, e.1 = s.pcbs.length ∧ e.2.image file.length = file) ∧
          (endings past).length = (before.any (LockstepInput.delivers (lastChunk 512 file))).toNat)
    ?_ [] [] ⟨uploadStarted_state running,List.forall_mem_nil _,rfl⟩
    (Machine.each_and.mpr ⟨admissible,Machine.each_of_forall complete⟩)
  · exact run.2
  · rintro before u past i ⟨state,images,count⟩ ⟨enabled,good⟩
    obtain ⟨next,more,image⟩ := upload_step fits state enabled good
    rw [List.any_append,List.any_cons,List.any_nil,Bool.or_false]
    refine ⟨next,?_,?_⟩
    · rw [endings,List.filterMap_append,List.forall_mem_append]
      exact ⟨images,image⟩
    · rw [endings,List.filterMap_append,List.length_append]
      exact (congrArg (· + _) count).trans more
/-- Five bytes, whose block arrives twice. -/
theorem firmware_image_five_bytes :
    let server := iapStarted ⟨fun _ => blankWord,[],true⟩
    let trace := (upload [1,2,3,4,5] ⟨1,2⟩ 0).trace (uploadStarted server .plain ⟨1,2⟩ ⟨[0,2],2,[]⟩)
      [.send,.deliver .plain 1,.deliver .plain 1]
    (∀ e ∈ endings trace, e.1 = 0 ∧ e.2.image 5 = [1,2,3,4,5]) ∧ (endings trace).length = 1 :=
  firmware_image [1,2,3,4,5] (by decide) (iapStarted ⟨fun _ => blankWord,[],true⟩) rfl .plain ⟨1,2⟩ ⟨[0,2],2,[]⟩
    [.send,.deliver .plain 1,.deliver .plain 1]
    (by decide) (by decide)

end Net2Modbus
