import Net2Modbus.Gateway
import Net2Modbus.Line

/-!
# What the entry points of the gateway can do

For each way into the gateway the changes it makes and the events it leaves:
segments by their command, `ModbusSenttset` by its branches, and the serial line.
-/
namespace Net2Modbus

theorem masterSend_onLine (slaveAddr : UInt8) (data : List UInt8) (len : Int) (s : Serial) :
    ∀ e ∈ (masterSend slaveAddr data len s).2, e.onLine = true := by
  unfold masterSend eMBMasterRTUSend
  split
  · simp
  · dsimp only
    split
    · simp
    · split <;> simp [Event.onLine]
theorem poll_onLine (s : Serial) : ∀ e ∈ (eMBMasterPoll s).2, e.onLine = true := by
  unfold eMBMasterPoll
  split
  · simp
  · split
    · simp
    · rename_i event queued
      cases event with
      | evMasterReady => simp
      | evMasterErrorProcess => simp
      | evMasterExecute =>
        simp only [executeFrame]
        split <;> simp [Event.onLine]
      | evMasterFrameSent =>
        simp only [eMBMasterRTUSend]
        split
        · simp
        · split <;> simp [Event.onLine]
      | evMasterFrameReceived =>
        simp only [eMBMasterRTUReceive]
        split <;> simp [xMBMasterPortEventPost,Event.onLine]
theorem expired_onLine (s : Serial) : ∀ e ∈ (xMBMasterRTUTimerExpired s).2, e.onLine = true := by
  have receive (s : Serial) : ∀ e ∈ (expiredReceive s).2, e.onLine = true := by
    unfold expiredReceive
    split <;> simp [xMBMasterPortEventPost,Event.onLine]
  have send (s : Serial) : ∀ e ∈ (expiredSend s).2, e.onLine = true := by
    unfold expiredSend
    split <;> simp [xMBMasterPortEventPost,Event.onLine]
  exact List.forall_mem_cons.mpr ⟨rfl,List.forall_mem_append.mpr ⟨receive _,send _⟩⟩
theorem line_onLine (s : Serial) (i : SerialInput) : ∀ e ∈ (serialStep s i).2, e.onLine = true := by
  cases i with
  | masterSend payload => exact masterSend_onLine 6 payload payload.length s
  | txEmpty =>
    obtain ⟨-,same⟩ | ⟨-,-,same⟩ | ⟨-,-,broadcast,mode,same⟩ | ⟨-,same⟩ := transmit_cases s <;>
      simp [serialStep,same,Event.onLine]
  | byteReceived byte =>
    obtain ⟨-,same⟩ | ⟨-,same⟩ | ⟨-,-,same⟩ | ⟨-,-,same⟩ := receive_cases byte s <;>
      simp [serialStep,same,Event.onLine]
  | timerExpired => exact expired_onLine s
  | masterPoll => exact poll_onLine s

theorem dispatch_downlink {buffer : Block UInt8 1500} (fits : Command.fits buffer .downlink = true) :
    dispatch tcpCommands buffer = some .downlink := by
  simp [dispatch,tcpCommands,fits]
theorem not_both {buffer : Block UInt8 1500} (list : Command.fits buffer .pollList = true) :
    Command.fits buffer .downlink = false := by
  have read : buffer.slice 0 2 = [0xFF,0xBB] := by
    simp only [Command.fits,strncmpEq,Command.word,Bool.and_eq_true,beq_iff_eq] at list
    exact list.1
  simp [Command.fits,strncmpEq,Command.word,read]
theorem dispatch_pollList {buffer : Block UInt8 1500} (fits : Command.fits buffer .pollList = true) :
    dispatch tcpCommands buffer = some .pollList := by
  simp [dispatch,tcpCommands,fits,not_both fits]
theorem dispatch_fits {size : Nat} {commands : List Command} {buffer : Block UInt8 size} {c : Command}
    (found : dispatch commands buffer = some c) : c.fits buffer = true :=
  List.find?_some found

/-- What the commands other than the downlink and the poll list leave alone. -/
structure CommandFrame (g g' : Gateway) : Prop where
  poller : g'.poller = g.poller
  buf : g'.tcpRecvBuf = g.tcpRecvBuf
  lenth : g'.tcpRecvLenth = g.tcpRecvLenth
  serial : ∃ uid, g'.serial = { g.serial with uidStm32 := uid }
  uid : g'.uid = g.uid
  radio : g'.si4432 = g.si4432

/-- The events of these commands: replies, and uses of two arrays, of `Tdata` only
    inside it. -/
def Event.ofCommand : Event → Bool
  | .tcpWrite _ => true
  | .access use => use.array == .uidStm32 || (use.array == .tdata && decide (use.Inside Arr.size))
  | _ => false

theorem tcpExecute_frame (env : Surroundings) (tcplen : Nat) {c : Command} (g : Gateway) (down : c ≠ .downlink)
    (list : c ≠ .pollList) :
    CommandFrame g (tcpExecute env tcplen c g).1 ∧ ∀ e ∈ (tcpExecute env tcplen c g).2, e.ofCommand = true := by
  cases c with
  | downlink => exact absurd rfl down
  | pollList => exact absurd rfl list
  | _ => exact ⟨⟨rfl,rfl,rfl,⟨_,rfl⟩,rfl,rfl⟩,by simp [tcpExecute,Event.ofCommand,Access.Inside,Arr.size]⟩

/-- The events of the copy into `Tdata`. -/
def copyEvents (p : List UInt8) : List Event := if p.length < 1500 then [.access ⟨.tdata,0,p.length⟩] else []

theorem segment_downlink (env : Surroundings) (p : List UInt8) (g : Gateway)
    (fits : Command.fits (g.copyIn p) .downlink = true) :
    tcpClientReciver env p g = ({ g with
      tdata := g.copyIn p, tcpRecvLenth := UInt32.ofNat p.length - 5 - 3,
      tcpRecvBuf := g.tcpRecvBuf.copy ((g.copyIn p).slice 3 (UInt32.ofNat p.length - 5 - 3).toNat) },
      Event.segment p :: copyEvents p ++
        [Event.subtract p.length 8,.access ⟨.tdata,3,(UInt32.ofNat p.length - 5 - 3).toNat⟩,
          .access ⟨.tcpRecvBuf,0,(UInt32.ofNat p.length - 5 - 3).toNat⟩]) := by
  simp [tcpClientReciver,dispatch_downlink fits,tcpExecute,copyEvents]
theorem segment_pollList (env : Surroundings) (p : List UInt8) (g : Gateway)
    (fits : Command.fits (g.copyIn p) .pollList = true) :
    tcpClientReciver env p g = ({ g with
      tdata := g.copyIn p, tcpRecvLenth := 0,
      poller := { g.poller with
        tcp2Rs485CmdList := (g.poller.tcp2Rs485CmdList.copy (List.replicate 1024 0)).copy
          ((g.copyIn p).slice 2 (UInt32.ofNat p.length - 5 - 2).toNat)
        devIndex := 0 } },
      Event.segment p :: copyEvents p ++
        [Event.subtract p.length 7,.access ⟨.tcp2Rs485CmdList,0,1024⟩,
          .access ⟨.tdata,2,(UInt32.ofNat p.length - 5 - 2).toNat⟩,
          .access ⟨.tcp2Rs485CmdList,0,(UInt32.ofNat p.length - 5 - 2).toNat⟩,.tcpWrite ffbbSaved]) := by
  simp only [tcpClientReciver,dispatch_pollList fits,tcpExecute,copyEvents]
theorem segment_other (env : Surroundings) (p : List UInt8) (g : Gateway)
    (down : Command.fits (g.copyIn p) .downlink = false) (list : Command.fits (g.copyIn p) .pollList = false) :
    ∃ g' events, tcpClientReciver env p g = (g',.segment p :: copyEvents p ++ events) ∧ CommandFrame g g' ∧
      ∀ e ∈ events, e.ofCommand = true := by
  cases found : dispatch tcpCommands (g.copyIn p) with
  | none =>
    refine ⟨{ g with tdata := g.copyIn p },[],?_,⟨rfl,rfl,rfl,⟨_,rfl⟩,rfl,rfl⟩,List.forall_mem_nil _⟩
    simp [tcpClientReciver,found,copyEvents]
  | some c =>
    have fits := dispatch_fits found
    have frame := tcpExecute_frame env p.length (c := c) { g with tdata := g.copyIn p }
      (by rintro rfl; simp [down] at fits) (by rintro rfl; simp [list] at fits)
    refine ⟨_,_,?_,⟨frame.1.poller,frame.1.buf,frame.1.lenth,frame.1.serial,frame.1.uid,frame.1.radio⟩,frame.2⟩
    simp [tcpClientReciver,found,copyEvents]
/-- Segments that load no list leave the walker alone. -/
theorem segment_poller (env : Surroundings) {g : Gateway} {p : List UInt8}
    (other : Command.fits (g.copyIn p) .pollList = false) : (tcpClientReciver env p g).1.poller = g.poller := by
  cases down : Command.fits (g.copyIn p) .downlink with
  | true => rw [segment_downlink env p g down]
  | false =>
    obtain ⟨g',events,same,frame,-⟩ := segment_other env p g down other
    rw [same,frame.poller]

/-- A segment alone hands nothing to the serial side. -/
def Event.ofSegment : Event → Bool
  | .segment _ | .tcpWrite _ | .access _ | .subtract _ _ => true
  | _ => false

theorem segment_ofSegment (env : Surroundings) (p : List UInt8) (g : Gateway) :
    ∀ e ∈ (tcpClientReciver env p g).2, e.ofSegment = true := by
  have copied : ∀ e ∈ Event.segment p :: copyEvents p, e.ofSegment = true := by
    unfold copyEvents
    split <;> simp [Event.ofSegment]
  cases down : Command.fits (g.copyIn p) .downlink with
  | true =>
    rw [segment_downlink env p g down]
    exact List.forall_mem_append.mpr ⟨copied,by simp [Event.ofSegment]⟩
  | false =>
    cases list : Command.fits (g.copyIn p) .pollList with
    | true =>
      rw [segment_pollList env p g list]
      exact List.forall_mem_append.mpr ⟨copied,by simp [Event.ofSegment]⟩
    | false =>
      obtain ⟨g',events,same,-,all⟩ := segment_other env p g down list
      rw [same]
      refine List.forall_mem_append.mpr ⟨copied,?_⟩
      intro e member
      have known := all e member
      cases e <;> simp_all [Event.ofSegment,Event.ofCommand]

/-- The unsigned length of a downlink payload. -/
theorem downlink_lenth {n : Nat} (enough : 8 ≤ n) (bound : n < 65536) : (UInt32.ofNat n - 5 - 3).toNat = n - 8 := by
  simp [UInt32.toNat_sub]
  omega
/-- A segment shorter than header and trailer makes the length wrap around. -/
theorem downlink_lenth_wraps {n : Nat} (few : n < 8) : 2147483648 ≤ (UInt32.ofNat n - 5 - 3).toNat := by
  simp [UInt32.toNat_sub]
  omega
/-- The unsigned length of a poll list. -/
theorem pollList_lenth {n : Nat} (enough : 7 ≤ n) (bound : n < 65536) : (UInt32.ofNat n - 5 - 2).toNat = n - 7 := by
  simp [UInt32.toNat_sub]
  omega
theorem pollList_lenth_wraps {n : Nat} (few : n < 7) : 2147483648 ≤ (UInt32.ofNat n - 5 - 2).toNat := by
  simp [UInt32.toNat_sub]
  omega

/-- A length below 2^31 stays what it is as an `int`. -/
theorem toInt32_small {len : UInt32} (small : len.toNat < 2147483648) : len.toInt32.toInt = len.toNat := by
  rw [← Int32.toInt_toBitVec,UInt32.toBitVec_toInt32,
    BitVec.toInt_eq_toNat_of_lt (by rw [UInt32.toNat_toBitVec]; omega)]
  rfl
/-- A wrapped length is negative as an `int`. -/
theorem toInt32_large {len : UInt32} (large : 2147483648 ≤ len.toNat) : len.toInt32.toInt < 0 := by
  rw [← Int32.toInt_toBitVec,UInt32.toBitVec_toInt32,BitVec.toInt_eq_toNat_cond,UInt32.toNat_toBitVec]
  have bound := len.toNat_lt
  split <;> omega

/-- The frame is accepted exactly when the receiver is idle. -/
theorem send_taken {len : Int} (fits : len ≤ 253) (data : List UInt8) (s : Serial) :
    (masterSend 6 data len s).2.any Event.isAccepted = decide (s.eRcvState = .rxIdle) := by
  have short : ¬ (mbPduSizeMax : Int) < len := Int.not_lt.mpr fits
  by_cases idle : s.eRcvState = .rxIdle
  · simp [masterSend,short,eMBMasterRTUSend,mbMasterTotalSlaveNum,idle,Event.isAccepted]
  · simp [masterSend,short,eMBMasterRTUSend,mbMasterTotalSlaveNum,idle,Event.isAccepted]
/-- The radio and the reading of the bytes to send. -/
def Event.ofSend (source : Source) : Event → Bool
  | .radio _ => true
  | .access use => use.array == source.array && decide (use.offset = 0 ∧ use.count ≤ 253)
  | _ => false

/-- What is handed over, between the radio and the serial line. -/
theorem send_events {size : Nat} (source : Source) (buffer : Block UInt8 size) (len : Int) (g : Gateway) :
    ∃ front line : List Event, (g.send source buffer len).2 = front ++
        .handed source (buffer.slice 0 len.toNat) ((masterSend 6 buffer.cells len g.serial).2.any Event.isAccepted) ::
          line ∧
      (∀ e ∈ front, e.ofSend source = true) ∧ ∀ e ∈ line, e.onLine = true := by
  refine ⟨_,_,rfl,?_,masterSend_onLine 6 buffer.cells len g.serial⟩
  refine List.forall_mem_append.mpr ⟨?_,?_⟩
  · by_cases there : g.si4432
    · simp [there,Event.ofSend]
    · simp [there]
  · by_cases fits : len ≤ (mbPduSizeMax : Int)
    · have bound : len ≤ 253 := fits
      simp [Event.ofSend,fits]
      omega
    · simp [Event.ofSend,fits]

/-- The events of a call that finds the mailbox empty. -/
def Event.ofPoll : Event → Bool
  | .due _ | .radio _ | .handed .pollList _ _ => true
  | .access use => use.array == .tcp2Rs485CmdList || use.array == .masterA || use.array == .mb2TcpBuff
  | e => e.onLine

theorem ofPoll_of_onLine {e : Event} (line : e.onLine = true) : e.ofPoll = true := by
  cases e <;> simp_all [Event.ofPoll,Event.onLine]
theorem ofPoll_of_ofSend {e : Event} (send : e.ofSend .pollList = true) : e.ofPoll = true := by
  cases e <;> simp_all [Event.ofPoll,Event.ofSend,Source.array]
theorem sendEntry_ofPoll (g : Gateway) : ∀ e ∈ (sendEntry g).2, e.ofPoll = true := by
  intro e member
  simp only [sendEntry] at member
  rcases List.mem_append.mp member with front | timed
  · rcases List.mem_append.mp front with read | sent
    · simp at read
      rcases read with rfl | rfl | rfl <;> rfl
    · obtain ⟨front,line,same,ofFront,ofLine⟩ := send_events .pollList
        ((Block.fill 0 : Block UInt8 24).copy (g.poller.tcp2Rs485CmdList.slice (g.poller.cursor + 3)
          ((((g.poller.tcp2Rs485CmdList.peek (g.poller.cursor + 2)).toNat : Int) - 4) % 4294967296).toNat))
        (((g.poller.tcp2Rs485CmdList.peek (g.poller.cursor + 2)).toNat : Int) - 4)
        { g with serial := markPolled g.uid g.serial }
      rw [same] at sent
      rcases List.mem_append.mp sent with first | rest
      · exact ofPoll_of_ofSend (ofFront e first)
      · rcases List.mem_cons.mp rest with rfl | last
        · rfl
        · exact ofPoll_of_onLine (ofLine e last)
  · split at timed
    · rw [List.mem_singleton.mp timed]
      rfl
    · simp at timed
theorem looks_ofPoll (q : Poller) : ∀ e ∈ q.looks, e.ofPoll = true := by
  unfold Poller.looks
  split <;> simp [Event.ofPoll]
theorem walk_ofPoll (time : UInt32) (g : Gateway) : ∀ e ∈ (walk time g).2, e.ofPoll = true := by
  unfold walk
  dsimp only
  split
  · simp [Event.ofPoll]
  · split
    · exact List.forall_mem_append.mpr ⟨List.forall_mem_cons.mpr ⟨rfl,looks_ofPoll _⟩,sendEntry_ofPoll _⟩
    · exact List.forall_mem_cons.mpr ⟨rfl,looks_ofPoll _⟩

/-- A poll changes the serial side and the walker alone. -/
structure PollFrame (g g' : Gateway) : Prop where
  client : g'.client = g.client
  tdata : g'.tdata = g.tdata
  buf : g'.tcpRecvBuf = g.tcpRecvBuf
  lenth : g'.tcpRecvLenth = g.tcpRecvLenth
  list : g'.poller.tcp2Rs485CmdList = g.poller.tcp2Rs485CmdList
  uid : g'.uid = g.uid
  radio : g'.si4432 = g.si4432

theorem walk_frame (time : UInt32) (g : Gateway) : PollFrame g (walk time g).1 := by
  unfold walk
  dsimp only
  split
  · exact ⟨rfl,rfl,rfl,rfl,rfl,rfl,rfl⟩
  · split
    · refine ⟨rfl,rfl,rfl,rfl,?_,rfl,rfl⟩
      simp only [Poller.wrapIndex]
      split <;> rfl
    · exact ⟨rfl,rfl,rfl,rfl,rfl,rfl,rfl⟩
/-- A call of `ModbusSenttset`: the mailbox, a poll, or nothing. -/
theorem senttset_cases (time : UInt32) (g : Gateway) :
    (0 < g.tcpRecvLenth ∧ modbusSenttset time g = sendDownlink g) ∨
    (g.tcpRecvLenth = 0 ∧ g.poller.isDue time ∧ modbusSenttset time g = walk time g) ∨
    (g.tcpRecvLenth = 0 ∧ ¬ g.poller.isDue time ∧ modbusSenttset time g = (g,[])) := by
  by_cases waiting : 0 < g.tcpRecvLenth
  · exact .inl ⟨waiting,by simp [modbusSenttset,waiting]⟩
  · have empty : g.tcpRecvLenth = 0 := by
      by_contra full
      exact waiting (UInt32.pos_iff_ne_zero.mpr full)
    by_cases due : g.poller.isDue time
    · exact .inr (.inl ⟨empty,due,by simp [modbusSenttset,empty,due]⟩)
    · exact .inr (.inr ⟨empty,due,by simp [modbusSenttset,empty,due]⟩)

end Net2Modbus
