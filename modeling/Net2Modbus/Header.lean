import Net2Modbus.Board
import Net2Modbus.Traffic
import Net2Modbus.Uplink

/-!
# The header of the uplink frames

The frame builders take the direction, the subsystem and the id of the device from
`UID_STM32`, which `getid`, `getrun` and the walker of the poll list all write,
each in a layout of its own. A frame has the documented header exactly when the
last of them left that layout.
-/
namespace Net2Modbus

/-- The documented bytes at the offsets 2 to 6: direction, subsystem and three bytes
    of the id. -/
def identity (uid : Uid) : List UInt8 := [0x01,0x01,byteOf uid.sum 0,byteOf uid.sum 8,byteOf uid.sum 16]

/-- A new frame carries them. -/
def BoardEvent.Identified (uid : Uid) : BoardEvent → Prop
  | .built frame => (frame.drop 2).take 5 = identity uid
  | _ => True

instance (uid : Uid) (e : BoardEvent) : Decidable (e.Identified uid) :=
  match e with
  | .built _ => inferInstanceAs (Decidable (_ = _))
  | .gateway _ | .access _ => isTrue trivial

/-- Who has written `UID_STM32` last. -/
inductive UidWriter
  | nobody | poll | tcpGetid | udpGetid
  | getrun (retry time : UInt32)
  deriving DecidableEq, Repr

/-- What then stands at the offsets 2 to 6. -/
def UidWriter.bytes (uid : Uid) : UidWriter → List UInt8
  | .nobody => [0,0,0,0,0]
  | .poll | .tcpGetid => identity uid
  | .udpGetid => [byteOf uid.sum 0,byteOf uid.sum 8,byteOf uid.sum 16,0xCD,0x24]
  | .getrun retry time => [byteOf retry 16,byteOf retry 8,byteOf retry 0,byteOf time 24,byteOf time 16]

/-- The counts of `getrun` can read as the documented bytes by chance. -/
def UidWriter.Fits (uid : Uid) : UidWriter → Prop
  | .poll | .tcpGetid => True
  | .nobody | .udpGetid => False
  | .getrun retry time => byteOf retry 16 = 0x01 ∧ byteOf retry 8 = 0x01 ∧ byteOf retry 0 = byteOf uid.sum 0 ∧
      byteOf time 24 = byteOf uid.sum 8 ∧ byteOf time 16 = byteOf uid.sum 16

instance (uid : Uid) (w : UidWriter) : Decidable (w.Fits uid) :=
  match w with
  | .poll | .tcpGetid => isTrue trivial
  | .nobody | .udpGetid => isFalse id
  | .getrun _ _ => inferInstanceAs (Decidable (_ ∧ _ ∧ _ ∧ _ ∧ _))

theorem bytes_eq_identity_iff (uid : Uid) (w : UidWriter) : w.bytes uid = identity uid ↔ w.Fits uid := by
  cases w with
  | nobody => simp [UidWriter.bytes,identity,UidWriter.Fits]
  | poll => simp [UidWriter.bytes,UidWriter.Fits]
  | tcpGetid => simp [UidWriter.bytes,UidWriter.Fits]
  | udpGetid =>
    -- The second byte of the id would have to be 1 and 0xCD.
    simp only [UidWriter.bytes,identity,UidWriter.Fits,List.cons.injEq,iff_false,not_and]
    intro _ second _ high
    rw [← high] at second
    exact absurd second (by decide)
  | getrun retry time => simp [UidWriter.bytes,identity,UidWriter.Fits]

/-- A poll that finds an entry. -/
def pollsEntry (time : UInt32) (g : Gateway) : Bool :=
  decide (g.tcpRecvLenth = 0 ∧ g.poller.isDue time ∧ g.poller.tcp2Rs485CmdList.peek 0 ≠ 0 ∧ g.poller.found)

/-- What a command makes of the shared bytes. -/
def Command.writer (getid : UidWriter) (c : Client) : Option Command → Option UidWriter
  | some .getid => some getid
  | some .getrun => some (.getrun c.retryTcpConnect c.systemRunTime)
  | _ => none

/-- The writer among the handlers of one input. -/
def Board.writer (b : Board) : BoardInput → Option UidWriter
  | .gateway (.segment _ p) =>
    Command.writer .tcpGetid b.gateway.client (dispatch tcpCommands (b.gateway.copyIn p))
  | .gateway (.modbusSenttset time) => if pollsEntry time b.gateway then some .poll else none
  | .datagram _ stack p =>
    if p.length < 1024 then Command.writer .udpGetid b.gateway.client (dispatch udpCommands (stack.copy p)) else none
  | .reset => some .nobody
  | _ => none

def lastWriter (w : UidWriter) (b : Board) (i : BoardInput) : UidWriter := (b.writer i).getD w

/-- The input makes one of the builders put a frame together. -/
def Board.Builds (b : Board) : BoardInput → Prop
  | .gateway (.line .masterPoll) => b.gateway.serial.eMBState = .stateEnabled ∧
      b.gateway.serial.queued = some .evMasterExecute ∧ b.gateway.serial.usLength < 256
  | .si4432Thread packet => b.gateway.si4432 = true ∧ packet ≠ [] ∧ b.tcplink = false
  | _ => False

/-- Whenever a frame is built, the last writer left the documented layout. -/
def HeaderClear (s : Board × UidWriter) (i : BoardInput) : Prop := s.1.Builds i → s.2.Fits s.1.gateway.uid

instance (b : Board) (i : BoardInput) : Decidable (b.Builds i) :=
  match i with
  | .gateway (.line .masterPoll) => inferInstanceAs (Decidable (_ ∧ _ ∧ _))
  | .si4432Thread _ => inferInstanceAs (Decidable (_ ∧ _ ∧ _))
  | .gateway (.line (.masterSend _)) | .gateway (.line .txEmpty) | .gateway (.line (.byteReceived _))
  | .gateway (.line .timerExpired) | .gateway (.segment _ _) | .gateway (.modbusSenttset _) | .datagram _ _ _
  | .synruntimHook _ | .tcpClientConnected | .tcpClientClosed | .reset => isFalse id

instance (s : Board × UidWriter) (i : BoardInput) : Decidable (HeaderClear s i) := inferInstanceAs (Decidable (_ → _))

/-- The part of `UID_STM32` that the header takes. -/
def Gateway.shared (g : Gateway) : List UInt8 := g.serial.uidStm32.slice 2 5

theorem slice_five (b : Block UInt8 19) : b.slice 2 5 = [b.peek 2,b.peek 3,b.peek 4,b.peek 5,b.peek 6] := by
  rw [b.slice_succ (by decide),b.slice_succ (by decide),b.slice_succ (by decide),b.slice_succ (by decide),
    b.slice_succ (by decide),b.slice_zero]
theorem setUid_shared (bytes : List UInt8) (g : Gateway) (enough : 7 ≤ bytes.length) :
    (g.setUid bytes).shared = (bytes.drop 2).take 5 :=
  g.serial.uidStm32.slice_copy_part bytes 2 5 (by decide) (by omega)
theorem markPolled_shared (uid : Uid) (s : Serial) : (markPolled uid s).uidStm32.slice 2 5 = identity uid := by
  rw [slice_five]
  simp [markPolled,Block.peek,identity,s.uidStm32.size_eq]

theorem masterSend_shared (slaveAddr : UInt8) (data : List UInt8) (len : Int) (s : Serial) :
    (masterSend slaveAddr data len s).1.uidStm32 = s.uidStm32 ∧
      (masterSend slaveAddr data len s).2.any Event.isUplink = false := by
  unfold masterSend eMBMasterRTUSend
  split
  · exact ⟨rfl,rfl⟩
  · dsimp only
    split
    · exact ⟨rfl,rfl⟩
    · split
      · exact ⟨rfl,rfl⟩
      · exact ⟨rfl,rfl⟩
theorem send_shared {size : Nat} (source : Source) (buffer : Block UInt8 size) (len : Int) (g : Gateway) :
    (g.send source buffer len).1.serial.uidStm32 = g.serial.uidStm32 ∧
      (g.send source buffer len).2.any Event.isUplink = false := by
  obtain ⟨kept,silent⟩ := masterSend_shared 6 buffer.cells len g.serial
  refine ⟨kept,?_⟩
  simp only [Gateway.send,List.any_append,List.any_cons,silent]
  split <;> rfl
theorem sendEntry_shared (g : Gateway) :
    (sendEntry g).1.shared = identity g.uid ∧ (sendEntry g).2.any Event.isUplink = false := by
  obtain ⟨kept,silent⟩ := send_shared .pollList
    ((Block.fill 0 : Block UInt8 24).copy (g.poller.tcp2Rs485CmdList.slice (g.poller.cursor + 3)
      ((((g.poller.tcp2Rs485CmdList.peek (g.poller.cursor + 2)).toNat : Int) - 4) % 4294967296).toNat))
    (((g.poller.tcp2Rs485CmdList.peek (g.poller.cursor + 2)).toNat : Int) - 4)
    { g with serial := markPolled g.uid g.serial }
  constructor
  · simp only [Gateway.shared,sendEntry,kept]
    exact markPolled_shared g.uid g.serial
  · simp only [sendEntry,List.any_append,silent]
    split <;> rfl
theorem senttset_shared (time : UInt32) (g : Gateway) :
    (modbusSenttset time g).1.shared = (if pollsEntry time g then identity g.uid else g.shared) ∧
      (modbusSenttset time g).2.any Event.isUplink = false := by
  obtain ⟨waiting,same⟩ | ⟨empty,due,same⟩ | ⟨-,late,same⟩ := senttset_cases time g <;> rw [same]
  · have full : g.tcpRecvLenth ≠ 0 := UInt32.pos_iff_ne_zero.mp waiting
    obtain ⟨kept,silent⟩ := send_shared .downlink g.tcpRecvBuf g.tcpRecvLenth.toInt32.toInt g
    refine ⟨?_,silent⟩
    simp [pollsEntry,full,Gateway.shared,sendDownlink,kept]
  · unfold walk
    dsimp only
    split
    · rename_i blank
      exact ⟨by simp [pollsEntry,blank,Gateway.shared],rfl⟩
    · rename_i listed
      split
      · rename_i found
        have hit : pollsEntry time g = true := decide_eq_true ⟨empty,due,listed,found⟩
        obtain ⟨marked,silent⟩ := sendEntry_shared { g with poller := { g.poller with masterCallTrm := time } }
        refine ⟨by rw [if_pos hit]; exact marked,?_⟩
        rw [List.any_append,silent]
        simp only [Poller.looks]
        split <;> rfl
      · rename_i missed
        have miss : pollsEntry time g = false := decide_eq_false fun hit => missed hit.2.2.2
        refine ⟨by simp [miss,Gateway.shared],?_⟩
        simp only [Poller.looks]
        split <;> rfl
  · exact ⟨by simp [pollsEntry,late],rfl⟩

theorem tcp_shared (env : Surroundings) (p : List UInt8) (g : Gateway) :
    (tcpClientReciver env p g).1.shared =
        ((Command.writer .tcpGetid g.client (dispatch tcpCommands (g.copyIn p))).elim g.shared (·.bytes g.uid)) ∧
      (tcpClientReciver env p g).2.any Event.isUplink = false := by
  unfold tcpClientReciver
  have copied : (if p.length < 1500 then [Event.access ⟨.tdata,0,p.length⟩] else []).any Event.isUplink = false := by
    split <;> rfl
  dsimp only
  cases dispatch tcpCommands (g.copyIn p) with
  | none => exact ⟨rfl,by rw [List.any_cons,copied]; rfl⟩
  | some c =>
    simp only [List.any_append,List.any_cons,copied]
    cases c with
    | getrun => exact ⟨setUid_shared (runRecord g.client) _ (by simp [runRecord,bigEndian]),rfl⟩
    | getid => exact ⟨setUid_shared (tcpIdRecord g.uid) _ (by simp [tcpIdRecord]),rfl⟩
    | _ => exact ⟨rfl,rfl⟩
theorem udp_shared (env : Surroundings) (stack : Block UInt8 1024) (p : List UInt8) (g : Gateway) :
    (udpClientCallback env stack p g).1.shared =
      (if p.length < 1024 then Command.writer .udpGetid g.client (dispatch udpCommands (stack.copy p)) else none).elim
        g.shared (·.bytes g.uid) := by
  unfold udpClientCallback
  split
  · dsimp only
    cases dispatch udpCommands (stack.copy p) with
    | none => rfl
    | some c =>
      cases c with
      | getrun => exact setUid_shared (runRecord g.client) _ (by simp [runRecord,bigEndian])
      | getid => exact setUid_shared (udpIdRecord g.uid) _ (by simp [udpIdRecord])
      | _ => rfl
  · rfl

theorem uplinkFrame_shared {size n : Nat} (b : Block UInt8 size) (uid : Block UInt8 19) (payload : List UInt8)
    (room : 18 ≤ size) (enough : 7 ≤ n) :
    (((b.copy (uplinkFrame uid payload)).slice 0 n).drop 2).take 5 = uid.slice 2 5 := by
  have header : ((uplinkFrame uid payload).drop 2).take 5 = uid.slice 2 5 := by rw [slice_five]; rfl
  have front := b.slice_copy_part (uplinkFrame uid payload) 2 5 (by omega) (by rw [uplinkFrame_length]; omega)
  have cut : min 5 (n - 2) = 5 := by omega
  rw [← header,← front]
  simp only [Block.slice,List.drop_zero,List.drop_take,List.take_take,cut]

/-- The branch for `EV_MASTER_EXECUTE` is taken and builds a frame. -/
def Serial.Executes (s : Serial) : Prop :=
  s.eMBState = .stateEnabled ∧ s.queued = some .evMasterExecute ∧ s.usLength < 256

theorem executeFrame_shared (s : Serial) : (executeFrame s).1.uidStm32 = s.uidStm32 ∧
    (256 ≤ s.usLength → (executeFrame s).2.any Event.isUplink = false) := by
  unfold executeFrame
  split
  · rename_i short
    exact ⟨rfl,fun long => absurd short (Nat.not_lt.mpr long)⟩
  · exact ⟨rfl,fun _ => rfl⟩
theorem poll_shared (s : Serial) :
    (eMBMasterPoll s).1.uidStm32 = s.uidStm32 ∧
      (¬ s.Executes ∧ (eMBMasterPoll s).2.any Event.isUplink = false ∨
        s.Executes ∧ eMBMasterPoll s = executeFrame { s with xMasterEventInQueue := false }) := by
  have elsewhere {event : EMBMasterEventType} (waiting : s.queued = some event) (other : event ≠ .evMasterExecute) :
      ¬ s.Executes := fun now => other (Option.some.inj (waiting.symm.trans now.2.1))
  unfold eMBMasterPoll
  split
  · rename_i disabled
    exact ⟨rfl,.inl ⟨fun now => disabled now.1,rfl⟩⟩
  · rename_i enabled
    have on : s.eMBState = .stateEnabled := by simpa using enabled
    split
    · rename_i empty
      exact ⟨rfl,.inl ⟨fun now => by simp [Serial.Executes,empty] at now,rfl⟩⟩
    · rename_i event waiting
      cases event with
      | evMasterReady => exact ⟨rfl,.inl ⟨elsewhere waiting (by decide),rfl⟩⟩
      | evMasterErrorProcess => exact ⟨rfl,.inl ⟨elsewhere waiting (by decide),rfl⟩⟩
      | evMasterExecute =>
        obtain ⟨kept,long⟩ := executeFrame_shared { s with xMasterEventInQueue := false }
        by_cases short : s.usLength < 256
        · exact ⟨kept,.inr ⟨⟨on,waiting,short⟩,rfl⟩⟩
        · exact ⟨kept,.inl ⟨fun now => short now.2.2,long (Nat.le_of_not_lt short)⟩⟩
      | evMasterFrameReceived =>
        dsimp only [eMBMasterRTUReceive]
        split
        · exact ⟨rfl,.inl ⟨elsewhere waiting (by decide),rfl⟩⟩
        · exact ⟨rfl,.inl ⟨elsewhere waiting (by decide),rfl⟩⟩
      | evMasterFrameSent =>
        dsimp only [eMBMasterRTUSend]
        split
        · exact ⟨rfl,.inl ⟨elsewhere waiting (by decide),rfl⟩⟩
        · split
          · exact ⟨rfl,.inl ⟨elsewhere waiting (by decide),rfl⟩⟩
          · exact ⟨rfl,.inl ⟨elsewhere waiting (by decide),rfl⟩⟩
/-- The other handlers of the line build nothing. -/
theorem interrupt_shared (s : Serial) {i : SerialInput} (other : i ≠ .masterPoll) :
    (serialStep s i).1.uidStm32 = s.uidStm32 ∧ (serialStep s i).2.any Event.isUplink = false := by
  cases i with
  | masterPoll => exact absurd rfl other
  | masterSend payload => exact masterSend_shared 6 payload payload.length s
  | txEmpty =>
    dsimp only [serialStep,xMBMasterRTUTransmitFSM]
    split
    · exact ⟨rfl,rfl⟩
    · split
      · exact ⟨rfl,rfl⟩
      · split
        · exact ⟨rfl,rfl⟩
        · exact ⟨rfl,rfl⟩
    · exact ⟨rfl,rfl⟩
  | byteReceived byte =>
    dsimp only [serialStep,xMBMasterRTUReceiveFSM]
    split
    · exact ⟨rfl,rfl⟩
    · exact ⟨rfl,rfl⟩
    · exact ⟨rfl,rfl⟩
    · split
      · exact ⟨rfl,rfl⟩
      · exact ⟨rfl,rfl⟩
  | timerExpired =>
    dsimp only [serialStep,xMBMasterRTUTimerExpired,expiredReceive,expiredSend]
    split
    · split <;> exact ⟨rfl,rfl⟩
    · split <;> exact ⟨rfl,rfl⟩
    · split <;> exact ⟨rfl,rfl⟩

/-- A step on the line leaves the shared bytes, and a frame that it builds has them in
    its header. -/
theorem line_shared (uid : Uid) (b : Board) (i : SerialInput) :
    (serialStep b.gateway.serial i).1.uidStm32 = b.gateway.serial.uidStm32 ∧
      ((∀ e ∈ frameBuilt (serialStep b.gateway.serial i).1 (serialStep b.gateway.serial i).2, e.Identified uid) ↔
        (b.Builds (.gateway (.line i)) → b.gateway.shared = identity uid)) := by
  have silent {s' : Serial} {events : List Event} (none : events.any Event.isUplink = false) :
      ∀ e ∈ frameBuilt s' events, e.Identified uid := by simp [frameBuilt,none]
  cases i with
  | masterPoll =>
    obtain ⟨kept,⟨rest,none⟩ | ⟨now,same⟩⟩ := poll_shared b.gateway.serial
    · exact ⟨kept,iff_of_true (silent none) fun builds => absurd builds rest⟩
    · refine ⟨kept,?_⟩
      have lenth : (UInt32.ofNat (b.gateway.serial.usLength + 18)).toNat = b.gateway.serial.usLength + 18 := by
        rw [UInt32.toNat_ofNat']
        have short := now.2.2
        omega
      have header := uplinkFrame_shared b.gateway.serial.mb2TcpBuff b.gateway.serial.uidStm32 b.gateway.serial.frame
        (n := b.gateway.serial.usLength + 18) (by decide) (by omega)
      have built : frameBuilt (serialStep b.gateway.serial .masterPoll).1 (serialStep b.gateway.serial .masterPoll).2 =
          [.built ((b.gateway.serial.mb2TcpBuff.copy
            (uplinkFrame b.gateway.serial.uidStm32 b.gateway.serial.frame)).slice 0 (b.gateway.serial.usLength + 18))] := by
        simp only [serialStep,same,executeFrame,now.2.2,if_true,frameBuilt,lenth]
        rfl
      rw [built]
      simp only [List.forall_mem_singleton,BoardEvent.Identified,header]
      exact ⟨fun right _ => right,fun right => right now⟩
  | masterSend payload =>
    obtain ⟨kept,none⟩ := interrupt_shared b.gateway.serial (i := .masterSend payload) (by simp)
    exact ⟨kept,iff_of_true (silent none) (fun builds => builds.elim)⟩
  | txEmpty =>
    obtain ⟨kept,none⟩ := interrupt_shared b.gateway.serial (i := .txEmpty) (by simp)
    exact ⟨kept,iff_of_true (silent none) (fun builds => builds.elim)⟩
  | byteReceived byte =>
    obtain ⟨kept,none⟩ := interrupt_shared b.gateway.serial (i := .byteReceived byte) (by simp)
    exact ⟨kept,iff_of_true (silent none) (fun builds => builds.elim)⟩
  | timerExpired =>
    obtain ⟨kept,none⟩ := interrupt_shared b.gateway.serial (i := .timerExpired) (by simp)
    exact ⟨kept,iff_of_true (silent none) (fun builds => builds.elim)⟩

theorem si4432_shared (uid : Uid) (packet : List UInt8) {b : Board} (short : packet.length ≤ 64) :
    (si4432Thread packet b).1.gateway = b.gateway ∧
      ((∀ e ∈ (si4432Thread packet b).2, e.Identified uid) ↔
        (b.Builds (.si4432Thread packet) → b.gateway.shared = identity uid)) := by
  have lenth : (UInt8.ofNat packet.length).toNat = packet.length := by
    rw [UInt8.toNat_ofNat']
    omega
  by_cases radio : b.gateway.si4432 = true
  · by_cases some : packet = []
    · subst some
      refine ⟨by simp [si4432Thread,radio],?_⟩
      simp [si4432Thread,radio,Board.Builds,BoardEvent.Identified]
    · have positive : 0 < UInt8.ofNat packet.length := by
        rw [UInt8.lt_iff_toNat_lt,lenth]
        exact List.length_pos_of_ne_nil some
      by_cases linked : b.tcplink = false
      · have header := uplinkFrame_shared (Block.fill 0 : Block UInt8 100) b.gateway.serial.uidStm32
          ((b.rxBuf.copy packet).slice 0 packet.length) (n := packet.length + 18) (by decide) (by omega)
        refine ⟨by simp [si4432Thread,radio,positive,si4432SendDataToSever,linked],?_⟩
        simp only [si4432Thread,radio,positive,si4432SendDataToSever,linked,lenth,if_true,and_self,
          List.forall_mem_cons,BoardEvent.Identified,header,Board.Builds]
        simp [some,Gateway.shared]
      · refine ⟨by simp [si4432Thread,radio,positive,si4432SendDataToSever,linked],?_⟩
        simp [si4432Thread,radio,positive,si4432SendDataToSever,linked,Board.Builds,BoardEvent.Identified]
  · refine ⟨by simp [si4432Thread,radio],?_⟩
    simp [si4432Thread,radio,Board.Builds]

theorem gateway_identified (uid : Uid) (events : List Event) : ∀ e ∈ events.map .gateway, BoardEvent.Identified uid e :=
  List.forall_mem_map.mpr fun _ _ => trivial
theorem unbuilt {s : Serial} {events : List Event} (silent : events.any Event.isUplink = false) :
    frameBuilt s events = [] := by simp [frameBuilt,silent]
theorem tcp_uid (env : Surroundings) (p : List UInt8) (g : Gateway) : (tcpClientReciver env p g).1.uid = g.uid := by
  unfold tcpClientReciver
  dsimp only
  cases dispatch tcpCommands (g.copyIn p) with
  | none => rfl
  | some c => cases c <;> rfl
theorem udp_uid (env : Surroundings) (stack : Block UInt8 1024) (p : List UInt8) (g : Gateway) :
    (udpClientCallback env stack p g).1.uid = g.uid := by
  unfold udpClientCallback
  split
  · dsimp only
    cases dispatch udpCommands (stack.copy p) with
    | none => rfl
    | some c => cases c <;> rfl
  · rfl
theorem senttset_uid (time : UInt32) (g : Gateway) : (modbusSenttset time g).1.uid = g.uid := by
  obtain ⟨-,same⟩ | ⟨-,-,same⟩ | ⟨-,-,same⟩ := senttset_cases time g <;> rw [same]
  · rfl
  · exact (walk_frame time g).uid

/-- What one input does to the shared bytes, and when the frame that it builds has the
    documented header. -/
structure SharedStep (b : Board) (i : BoardInput) : Prop where
  uid : (boardStep b i).1.gateway.uid = b.gateway.uid
  shared : (boardStep b i).1.gateway.shared = (b.writer i).elim b.gateway.shared (·.bytes b.gateway.uid)
  built : (∀ e ∈ (boardStep b i).2, e.Identified b.gateway.uid) ↔
    (b.Builds i → b.gateway.shared = identity b.gateway.uid)

theorem sharedStep (b : Board) (i : BoardInput) (can : board.enabled b i) : SharedStep b i := by
  cases i with
  | gateway i =>
    cases i with
    | segment env p =>
      obtain ⟨written,silent⟩ := tcp_shared env p b.gateway
      refine ⟨tcp_uid env p b.gateway,written,iff_of_true ?_ fun builds => builds.elim⟩
      simp only [boardStep,gatewayStep,unbuilt silent,List.append_nil]
      exact gateway_identified _ _
    | modbusSenttset time =>
      obtain ⟨written,silent⟩ := senttset_shared time b.gateway
      refine ⟨senttset_uid time b.gateway,?_,iff_of_true ?_ fun builds => builds.elim⟩
      · refine written.trans ?_
        simp only [Board.writer]
        split <;> rfl
      · simp only [boardStep,gatewayStep,unbuilt silent,List.append_nil]
        exact gateway_identified _ _
    | line i =>
      obtain ⟨kept,built⟩ := line_shared b.gateway.uid b i
      refine ⟨rfl,?_,?_⟩
      · simp only [Gateway.shared,boardStep,gatewayStep,kept]
        rfl
      · simp only [boardStep,gatewayStep,List.forall_mem_append]
        exact ⟨fun all => built.mp all.2,fun right => ⟨gateway_identified _ _,built.mpr right⟩⟩
  | datagram env stack p =>
    exact ⟨udp_uid env stack p b.gateway,udp_shared env stack p b.gateway,
      iff_of_true (gateway_identified _ _) fun builds => builds.elim⟩
  | si4432Thread packet =>
    obtain ⟨kept,built⟩ := si4432_shared b.gateway.uid packet (b := b) can.2
    refine ⟨?_,?_,built⟩
    · simp only [boardStep,kept]
    · simp only [boardStep,kept]
      rfl
  | synruntimHook time =>
    have kept : (synruntimHook time b).gateway.uid = b.gateway.uid ∧
        (synruntimHook time b).gateway.serial = b.gateway.serial := by
      unfold synruntimHook
      split <;> exact ⟨rfl,rfl⟩
    refine ⟨kept.1,?_,iff_of_true (List.forall_mem_nil _) fun builds => builds.elim⟩
    simp only [Gateway.shared,boardStep,kept.2]
    rfl
  | tcpClientConnected => exact ⟨rfl,rfl,iff_of_true (List.forall_mem_nil _) fun builds => builds.elim⟩
  | tcpClientClosed => exact ⟨rfl,rfl,iff_of_true (List.forall_mem_nil _) fun builds => builds.elim⟩
  | reset => exact ⟨rfl,rfl,iff_of_true (List.forall_mem_nil _) fun builds => builds.elim⟩

/-- The shared bytes are those of the last writer. -/
def HeaderState (uid : Uid) (s : Board × UidWriter) : Prop :=
  s.1.gateway.uid = uid ∧ s.1.gateway.shared = s.2.bytes uid

theorem main_headerState (flash : Flash) (uid : Uid) (si4432 : Bool) :
    HeaderState uid (.main flash uid si4432,.nobody) := ⟨rfl,rfl⟩
theorem HeaderState.step {uid : Uid} {s : Board × UidWriter} (state : HeaderState uid s) {i : BoardInput}
    (can : board.enabled s.1 i) : HeaderState uid ((board.observe lastWriter).step s i).1 := by
  obtain ⟨b,w⟩ := s
  obtain ⟨same,shared⟩ := state
  have one := sharedStep b i can
  refine ⟨one.uid.trans same,one.shared.trans ?_⟩
  show _ = (lastWriter w b i).bytes uid
  cases written : b.writer i with
  | none => simpa [lastWriter,written] using shared
  | some writer => simpa [lastWriter,written] using congrArg writer.bytes same
theorem HeaderState.built {uid : Uid} {s : Board × UidWriter} (state : HeaderState uid s) {i : BoardInput}
    (can : board.enabled s.1 i) :
    (∀ e ∈ ((board.observe lastWriter).step s i).2, e.Identified uid) ↔ HeaderClear s i := by
  obtain ⟨b,w⟩ := s
  obtain ⟨same,shared⟩ := state
  have built := (sharedStep b i can).built
  simp only at same shared
  rw [same,shared,bytes_eq_identity_iff] at built
  refine built.trans ?_
  simp only [HeaderClear,same]

/-- After any start of the board all uplink frames have the documented header exactly
    when at each of them the last writer of the shared bytes left it there. -/
theorem header_identity_iff (flash : Flash) (uid : Uid) (si4432 : Bool) (inputs : List BoardInput)
    (admissible : board.Admissible (.main flash uid si4432) inputs) :
    (∀ e ∈ board.trace (.main flash uid si4432) inputs, e.Identified uid) ↔
      (board.observe lastWriter).Each HeaderClear (.main flash uid si4432,.nobody) inputs := by
  have exact := Machine.forall_trace_iff (m := board.observe lastWriter) (R := HeaderState uid)
    (P := fun s i => board.enabled s.1 i) (G := BoardEvent.Identified uid) (Q := HeaderClear)
    (fun _ _ state can => state.step can) (fun _ _ state can => state.built can)
    (main_headerState flash uid si4432) (Machine.observe_each.mpr admissible)
  rwa [Machine.observe_trace] at exact
/-- A frame of four bytes on the line, polled out. -/
def heardFrame : List BoardInput :=
  [.gateway (.line (.byteReceived 1)),.gateway (.line (.byteReceived 2)),.gateway (.line (.byteReceived 3)),
    .gateway (.line (.byteReceived 4)),.gateway (.line .timerExpired),.gateway (.line .masterPoll),
    .gateway (.line .masterPoll)]
theorem header_identity_iff_polled :
    let inputs := [.gateway (.line .timerExpired),.gateway (.line .masterPoll),
      .gateway (.segment .plain [0xFF,0xBB,0x41,0x23,5,1,0,0,0,9,0xBB,0xFF,0x24,0x0D,0x0A]),
      .gateway (.modbusSenttset 2000),.gateway (.line .txEmpty),.gateway (.line .txEmpty)] ++ heardFrame
    board.Admissible (.main ⟨fun _ => blankWord,[],true⟩ ⟨1,2,3⟩ false) inputs ∧
      ∀ e ∈ board.trace (.main ⟨fun _ => blankWord,[],true⟩ ⟨1,2,3⟩ false) inputs, e.Identified ⟨1,2,3⟩ := by
  intro inputs
  have admissible : board.Admissible (.main ⟨fun _ => blankWord,[],true⟩ ⟨1,2,3⟩ false) inputs := by decide
  exact ⟨admissible,(header_identity_iff ⟨fun _ => blankWord,[],true⟩ ⟨1,2,3⟩ false inputs admissible).mpr
    (by decide)⟩
/-- Without a poll or a `getid` over TCP since the start the header is zero. -/
theorem header_identity_fails :
    board.Admissible (.main ⟨fun _ => blankWord,[],true⟩ ⟨1,2,3⟩ false)
        ([.gateway (.line .timerExpired),.gateway (.line .masterPoll)] ++ heardFrame) ∧
      ¬ ∀ e ∈ board.trace (.main ⟨fun _ => blankWord,[],true⟩ ⟨1,2,3⟩ false)
          ([.gateway (.line .timerExpired),.gateway (.line .masterPoll)] ++ heardFrame), e.Identified ⟨1,2,3⟩ := by
  decide

end Net2Modbus
