import Net2Modbus.Connection
import Net2Modbus.Header

/-!
# Uplink frames on their way into TCP

`SendDataToSever` beside everything else that happens to the board: the frame that waits
in `Mb2TcpBuff`, and what becomes of each frame that the EXECUTE branch builds.
-/
namespace Net2Modbus

/-- The board, and the counter of failed writes. -/
structure UplinkSender where
  board : Board
  num : UInt8

/-- An input of the board, or a call of `SendDataToSever` with what `tcp_write` and
    `tcp_output` return. -/
inductive SendInput
  | board (i : BoardInput)
  | sendDataToSever (write output : ErrT)

/-- What becomes of the frames: built, given to `tcp_write`, replaced by a newer one, or given
    up without a connection; and the result of `tcp_output`. -/
inductive SendEvent
  | built (frame : List UInt8)
  | queued (frame : List UInt8)
  | replaced (frame : List UInt8)
  | dropped (frame : List UInt8)
  | output (result : ErrT)
  deriving DecidableEq, Repr

/-- The frame that waits to be sent. -/
def Serial.waitingFrame (s : Serial) : List (List UInt8) :=
  if 0 < s.mb2TcpLenth then [s.mb2TcpBuff.slice 0 s.mb2TcpLenth.toNat] else []
def UplinkSender.serial (u : UplinkSender) : Serial := u.board.gateway.serial
def UplinkSender.clearLenth (u : UplinkSender) : UplinkSender :=
  { u with board := { u.board with gateway := { u.board.gateway with serial := { u.serial with mb2TcpLenth := 0 } } } }

/-- `SendDataToSever`: the length is cleared whatever `tcp_write` returns. -/
def sendDataToSeverWith (write output : ErrT) (u : UplinkSender) : UplinkSender × List SendEvent :=
  if u.board.tcplink = false ∧ 0 < u.serial.mb2TcpLenth then
    let cleared := u.clearLenth
    if write = .ok then (cleared,[.queued (u.serial.mb2TcpBuff.slice 0 u.serial.mb2TcpLenth.toNat),.output output])
    else ({ cleared with num := if 50 ≤ u.num + 1 then 0 else u.num + 1 },[])
  else (if 0 < u.serial.mb2TcpLenth then u.clearLenth else u,u.serial.waitingFrame.map .dropped)

/-- The frames that the EXECUTE branch builds in a step; those of the radio are built elsewhere. -/
def executedFrames (i : BoardInput) (events : List BoardEvent) : List (List UInt8) :=
  match i with
  | .gateway _ => events.filterMap fun
    | .built frame => some frame
    | _ => none
  | _ => []
/-- A frame is replaced when a newer one is built, and a reset forgets it. -/
def uplinkStep (u : UplinkSender) : SendInput → UplinkSender × List SendEvent
  | .board i =>
    let done := boardStep u.board i
    let built := executedFrames i done.2
    let gone : List SendEvent :=
      match i with
      | .reset => u.serial.waitingFrame.map .dropped
      | _ => if built = [] then [] else u.serial.waitingFrame.map .replaced
    ({ u with board := done.1 },gone ++ built.map .built)
  | .sendDataToSever write output => sendDataToSeverWith write output u
def uplinkEnabled (u : UplinkSender) : SendInput → Prop
  | .board i => boardEnabled u.board i
  | .sendDataToSever _ _ => u.board.gateway.client.waiting = false

/-- The board with its uplink. -/
def uplinkSender : Machine UplinkSender SendInput SendEvent := ⟨uplinkEnabled,uplinkStep⟩

instance (u : UplinkSender) (i : SendInput) : Decidable (uplinkSender.enabled u i) :=
  match i with
  | .board i => inferInstanceAs (Decidable (board.enabled u.board i))
  | .sendDataToSever _ _ => inferInstanceAs (Decidable (_ = _))

/-- With a connection a waiting frame is given to TCP once and its length cleared, or nothing
    is changed. -/
def UplinkSender.CallKeeps (u : UplinkSender) (write output : ErrT) : Prop :=
  let done := sendDataToSeverWith write output u
  u.board.tcplink = false → 0 < u.serial.mb2TcpLenth →
    done.2.filterMap (fun | .queued frame => some frame | _ => none) = u.serial.waitingFrame ∧ done.1.serial.mb2TcpLenth = 0 ∨
      done.2.filterMap (fun | .queued frame => some frame | _ => none) = [] ∧
        done.1.serial.mb2TcpBuff = u.serial.mb2TcpBuff ∧ done.1.serial.mb2TcpLenth = u.serial.mb2TcpLenth

/-- A built frame is queued, replaced by a newer one or given up without a connection, in
    the order of the frames, or it still waits. -/
def uplinkLedger : Ledger UplinkSender SendEvent (List UInt8) where
  due
    | .built frame => [frame]
    | _ => []
  paid
    | .queued frame | .replaced frame | .dropped frame => [frame]
    | _ => []
  owed u := u.serial.waitingFrame

/-- What is promised of one input: the calls keep the frame, and with a connection none is
    given up. -/
def UplinkSender.InputKeeps (u : UplinkSender) (i : SendInput) : Prop :=
  match i with
  | .board .reset => True
  | .board _ => ∀ frame, .dropped frame ∉ (uplinkSender.step u i).2
  | .sendDataToSever write output =>
    u.CallKeeps write output ∧ (u.board.tcplink = false → ∀ frame, .dropped frame ∉ (uplinkSender.step u i).2)
/-- No frame is lost in a run: every call keeps it, and every frame is accounted for. -/
def UplinkKept (u : UplinkSender) (inputs : List SendInput) : Prop :=
  uplinkSender.Each UplinkSender.InputKeeps u inputs ∧ uplinkSender.Throughout uplinkLedger.Balanced u [] inputs

/-- No write of a frame fails. -/
def QueueClear (u : UplinkSender) : SendInput → Prop
  | .board _ => True
  | .sendDataToSever write _ => u.board.tcplink = false → 0 < u.serial.mb2TcpLenth → write = .ok

instance (u : UplinkSender) (i : SendInput) : Decidable (QueueClear u i) :=
  match i with
  | .board _ => isTrue trivial
  | .sendDataToSever _ _ => inferInstanceAs (Decidable (_ → _ → _))

/-! ### The waiting frame -/

/-- The buffer and the length. -/
def Serial.mailbox (s : Serial) : Block UInt8 256 × UInt32 := (s.mb2TcpBuff,s.mb2TcpLenth)
/-- The three bytes that every header has as zeros, and that a poll sets to zero again. -/
def Zeroed (buff : Block UInt8 256) : Prop := buff.peek 10 = 0 ∧ buff.peek 11 = 0 ∧ buff.peek 12 = 0

theorem waitingFrame_congr {s t : Serial} (same : t.mailbox = s.mailbox) : t.waitingFrame = s.waitingFrame := by
  obtain ⟨buff,lenth⟩ := Prod.mk.inj same
  rw [Serial.waitingFrame,Serial.waitingFrame,buff,lenth]
theorem poke_same {size i : Nat} {c : UInt8} {b : Block UInt8 size} (inside : i < size) (same : b.peek i = c) : b.poke i c = b := by
  have bound : i < b.cells.length := by simpa using inside
  apply Block.ext
  rw [Block.poke_cells,← same,Block.peek,List.getD_eq_getElem?_getD,List.getElem?_eq_getElem bound]
  exact List.set_getElem_self bound
/-- A poll does not touch a frame that waits. -/
theorem markPolled_mailbox (uid : Uid) {s : Serial} (zeroed : Zeroed s.mb2TcpBuff) : (markPolled uid s).mailbox = s.mailbox := by
  obtain ⟨ten,eleven,twelve⟩ := zeroed
  have same : ((s.mb2TcpBuff.poke 10 0).poke 11 0).poke 12 0 = s.mb2TcpBuff := by
    rw [poke_same (by decide) ten,poke_same (by decide) eleven,poke_same (by decide) twelve]
  simp only [Serial.mailbox,markPolled,same]
theorem masterSend_mailbox (slaveAddr : UInt8) (data : List UInt8) (len : Int) (s : Serial) :
    (masterSend slaveAddr data len s).1.mailbox = s.mailbox := by
  unfold masterSend eMBMasterRTUSend
  split
  · rfl
  · dsimp only
    split
    · rfl
    · split <;> rfl
theorem senttset_mailbox (time : UInt32) {g : Gateway} (zeroed : Zeroed g.serial.mb2TcpBuff) :
    (modbusSenttset time g).1.serial.mailbox = g.serial.mailbox := by
  obtain ⟨-,same⟩ | ⟨-,-,same⟩ | ⟨-,-,same⟩ := senttset_cases time g <;> rw [same]
  · exact masterSend_mailbox ..
  · unfold walk
    dsimp only
    split
    · rfl
    · split
      · exact (masterSend_mailbox ..).trans (markPolled_mailbox g.uid zeroed)
      · rfl
theorem tcp_mailbox (env : Surroundings) (p : List UInt8) (g : Gateway) :
    (tcpClientReciver env p g).1.serial.mailbox = g.serial.mailbox := by
  unfold tcpClientReciver
  dsimp only
  cases dispatch tcpCommands (g.copyIn p) with
  | none => rfl
  | some c => cases c <;> rfl
theorem udp_mailbox (env : Surroundings) (stack : Block UInt8 1024) (p : List UInt8) (g : Gateway) :
    (udpClientCallback env stack p g).1.serial.mailbox = g.serial.mailbox := by
  unfold udpClientCallback
  split
  · dsimp only
    cases dispatch udpCommands (stack.copy p) with
    | none => rfl
    | some c => cases c <;> rfl
  · rfl
theorem interrupt_mailbox (s : Serial) {i : SerialInput} (other : i ≠ .masterPoll) :
    (serialStep s i).1.mailbox = s.mailbox := by
  cases i with
  | masterPoll => exact absurd rfl other
  | masterSend payload => exact masterSend_mailbox 6 payload payload.length s
  | txEmpty =>
    dsimp only [serialStep,xMBMasterRTUTransmitFSM]
    split
    · rfl
    · split
      · rfl
      · split <;> rfl
    · rfl
  | byteReceived byte =>
    dsimp only [serialStep,xMBMasterRTUReceiveFSM]
    split
    · rfl
    · rfl
    · rfl
    · split <;> rfl
  | timerExpired =>
    dsimp only [serialStep,xMBMasterRTUTimerExpired,expiredReceive,expiredSend]
    split <;> split <;> rfl
theorem poll_mailbox {s : Serial} (rest : ¬ s.Executes) : (eMBMasterPoll s).1.mailbox = s.mailbox := by
  unfold eMBMasterPoll
  split
  · rfl
  · rename_i enabled
    have on : s.eMBState = .stateEnabled := by simpa using enabled
    split
    · rfl
    · rename_i event waiting
      cases event with
      | evMasterReady => rfl
      | evMasterErrorProcess => rfl
      | evMasterExecute =>
        have long : ¬ s.usLength < 256 := fun short => rest ⟨on,waiting,short⟩
        dsimp only [executeFrame]
        rw [if_neg long]
        rfl
      | evMasterFrameReceived =>
        dsimp only [eMBMasterRTUReceive]
        split <;> split <;> rfl
      | evMasterFrameSent =>
        dsimp only [eMBMasterRTUSend]
        split
        · rfl
        · split <;> rfl

/-- The branch for `EV_MASTER_EXECUTE` writes a header with zeros and a length that is not zero. -/
theorem executeFrame_mailbox {s : Serial} (short : s.usLength < 256) :
    Zeroed (executeFrame s).1.mb2TcpBuff ∧ 0 < (executeFrame s).1.mb2TcpLenth ∧
      (executeFrame s).2.any Event.isUplink = true := by
  have written {i : Nat} (inside : i < 13) : (s.mb2TcpBuff.copy (uplinkFrame s.uidStm32 s.frame)).peek i =
      (uplinkFrame s.uidStm32 s.frame).getD i default :=
    s.mb2TcpBuff.peek_copy_of_lt (by omega) (by rw [uplinkFrame_length]; omega)
  have positive : 0 < UInt32.ofNat (s.usLength + 18) := by
    rw [UInt32.lt_iff_toNat_lt,UInt32.toNat_ofNat']
    simp only [UInt32.toNat_zero]
    omega
  simp only [executeFrame,if_pos short]
  refine ⟨⟨?_,?_,?_⟩,positive,rfl⟩
  · rw [written (by decide)]
    rfl
  · rw [written (by decide)]
    rfl
  · rw [written (by decide)]
    rfl
/-- Events without an uplink frame are no frame of the EXECUTE branch. -/
theorem executedFrames_silent {s : Serial} {events : List Event} (silent : events.any Event.isUplink = false)
    (i : GatewayInput) : executedFrames (.gateway i) (events.map .gateway ++ frameBuilt s events) = [] := by
  rw [unbuilt silent,List.append_nil,executedFrames,List.filterMap_map]
  exact List.filterMap_eq_nil_iff.mpr fun _ _ => rfl
theorem executedFrames_uplink {s : Serial} {events : List Event} (uplink : events.any Event.isUplink = true)
    (i : GatewayInput) : executedFrames (.gateway i) (events.map .gateway ++ frameBuilt s events) =
      [s.mb2TcpBuff.slice 0 s.mb2TcpLenth.toNat] := by
  have others : (events.map BoardEvent.gateway).filterMap (fun | .built frame => some frame | _ => none) = [] := by
    rw [List.filterMap_map]
    exact List.filterMap_eq_nil_iff.mpr fun _ _ => rfl
  rw [executedFrames,List.filterMap_append,others,frameBuilt,if_pos uplink]
  rfl

/-- An input of the board leaves the waiting frame, or builds the new one. -/
structure MailboxStep (b : Board) (i : BoardInput) : Prop where
  zeroed : Zeroed (boardStep b i).1.gateway.serial.mb2TcpBuff
  frames : executedFrames i (boardStep b i).2 = [] ∧ (boardStep b i).1.gateway.serial.mailbox = b.gateway.serial.mailbox ∨
    executedFrames i (boardStep b i).2 ≠ [] ∧
      (boardStep b i).1.gateway.serial.waitingFrame = executedFrames i (boardStep b i).2

theorem MailboxStep.quiet {b : Board} {i : BoardInput} (zeroed : Zeroed b.gateway.serial.mb2TcpBuff)
    (none : executedFrames i (boardStep b i).2 = [])
    (same : (boardStep b i).1.gateway.serial.mailbox = b.gateway.serial.mailbox) : MailboxStep b i := by
  refine ⟨?_,.inl ⟨none,same⟩⟩
  have buff : (boardStep b i).1.gateway.serial.mb2TcpBuff = b.gateway.serial.mb2TcpBuff := (Prod.mk.inj same).1
  rwa [buff]
theorem mailboxStep_line (b : Board) (i : SerialInput) (zeroed : Zeroed b.gateway.serial.mb2TcpBuff) :
    MailboxStep b (.gateway (.line i)) := by
  by_cases poll : i = .masterPoll
  · subst poll
    obtain ⟨-,⟨rest,silent⟩ | ⟨now,same⟩⟩ := poll_shared b.gateway.serial
    · exact .quiet zeroed (executedFrames_silent silent _) (poll_mailbox rest)
    · obtain ⟨header,positive,uplink⟩ := executeFrame_mailbox (s := { b.gateway.serial with xMasterEventInQueue := false })
        now.2.2
      rw [← same] at header positive uplink
      refine ⟨header,.inr ?_⟩
      rw [show boardStep b (.gateway (.line .masterPoll)) =
        ({ b with gateway := { b.gateway with serial := (eMBMasterPoll b.gateway.serial).1 } },
          (eMBMasterPoll b.gateway.serial).2.map .gateway ++
            frameBuilt (eMBMasterPoll b.gateway.serial).1 (eMBMasterPoll b.gateway.serial).2) from rfl,
        executedFrames_uplink uplink]
      exact ⟨List.cons_ne_nil _ _,if_pos positive⟩
  · obtain ⟨-,silent⟩ := interrupt_shared b.gateway.serial poll
    exact .quiet zeroed (executedFrames_silent silent _) (interrupt_mailbox b.gateway.serial poll)
theorem mailboxStep {b : Board} {i : BoardInput} (zeroed : Zeroed b.gateway.serial.mb2TcpBuff) (can : board.enabled b i)
    (on : i ≠ .reset) : MailboxStep b i := by
  cases i with
  | gateway i =>
    cases i with
    | segment env p =>
      obtain ⟨-,silent⟩ := tcp_shared env p b.gateway
      exact .quiet zeroed (executedFrames_silent silent _) (tcp_mailbox env p b.gateway)
    | modbusSenttset time =>
      obtain ⟨-,silent⟩ := senttset_shared time b.gateway
      exact .quiet zeroed (executedFrames_silent silent _) (senttset_mailbox time zeroed)
    | line i => exact mailboxStep_line b i zeroed
  | datagram env stack p => exact .quiet zeroed rfl (udp_mailbox env stack p b.gateway)
  | si4432Thread packet =>
    obtain ⟨kept,-⟩ := si4432_shared b.gateway.uid packet (b := b) can.2
    exact .quiet zeroed rfl (congrArg (·.serial.mailbox) kept)
  | synruntimHook time =>
    refine .quiet zeroed rfl ?_
    dsimp only [boardStep,synruntimHook]
    split
    · rfl
    · rfl
  | tcpClientConnected => exact .quiet zeroed rfl rfl
  | tcpClientClosed => exact .quiet zeroed rfl rfl
  | reset => exact absurd rfl on

theorem waitingFrame_length (s : Serial) (pending : 0 < s.mb2TcpLenth) : s.waitingFrame.length = 1 := by
  rw [Serial.waitingFrame,if_pos pending]
  rfl
theorem waitingFrame_cleared (u : UplinkSender) : u.clearLenth.serial.waitingFrame = [] := rfl

/-- What a call does: with a connection and a waiting frame the length is cleared in any case,
    and the frame is given up without one. -/
theorem send_frame_cases (write output : ErrT) (u : UplinkSender) :
    (u.board.tcplink = false ∧ 0 < u.serial.mb2TcpLenth ∧ write = .ok ∧
      sendDataToSeverWith write output u = (u.clearLenth,u.serial.waitingFrame.map .queued ++ [.output output])) ∨
    (u.board.tcplink = false ∧ 0 < u.serial.mb2TcpLenth ∧ write ≠ .ok ∧ ∃ num,
      sendDataToSeverWith write output u = ({ u.clearLenth with num := num },[])) ∨
    (u.board.tcplink = true ∧ 0 < u.serial.mb2TcpLenth ∧
      sendDataToSeverWith write output u = (u.clearLenth,u.serial.waitingFrame.map .dropped)) ∨
    (u.serial.mb2TcpLenth = 0 ∧ sendDataToSeverWith write output u = (u,[])) := by
  by_cases pending : 0 < u.serial.mb2TcpLenth
  · have waiting : u.serial.waitingFrame = [u.serial.mb2TcpBuff.slice 0 u.serial.mb2TcpLenth.toNat] := if_pos pending
    cases link : u.board.tcplink with
    | false =>
      by_cases good : write = .ok
      · exact .inl ⟨rfl,pending,good,by simp [sendDataToSeverWith,link,pending,good,waiting]⟩
      · exact .inr (.inl ⟨rfl,pending,good,if 50 ≤ u.num + 1 then 0 else u.num + 1,by
          simp [sendDataToSeverWith,link,pending,good]⟩)
    | true => exact .inr (.inr (.inl ⟨rfl,pending,by simp [sendDataToSeverWith,link,pending]⟩))
  · have none : u.serial.mb2TcpLenth = 0 := by simpa [UInt32.pos_iff_ne_zero] using pending
    exact .inr (.inr (.inr ⟨none,by simp [sendDataToSeverWith,none,Serial.waitingFrame]⟩))

/-- A call keeps the frame exactly when its write does not fail. -/
theorem callKeeps_iff (write output : ErrT) (u : UplinkSender) :
    u.CallKeeps write output ↔ QueueClear u (.sendDataToSever write output) := by
  simp only [UplinkSender.CallKeeps,QueueClear]
  obtain ⟨-,pending,good,same⟩ | ⟨link,pending,bad,num,same⟩ | ⟨link,-,-⟩ | ⟨none,-⟩ := send_frame_cases write output u
  · refine iff_of_true (fun _ _ => .inl ⟨?_,?_⟩) (fun _ _ => good)
    · rw [same,Serial.waitingFrame,if_pos pending]
      rfl
    · rw [same]
      rfl
  · refine iff_of_false ?_ fun clear => bad (clear link pending)
    intro keeps
    rw [same] at keeps
    obtain ⟨queued,-⟩ | ⟨-,-,lenth⟩ := keeps link pending
    · rw [Serial.waitingFrame,if_pos pending] at queued
      exact List.cons_ne_nil _ _ queued.symm
    · have zero : 0 = u.serial.mb2TcpLenth := lenth
      rw [← zero] at pending
      exact absurd pending (by decide)
  · simp [link]
  · simp [none]

/-- What an input of the board does to the frames: nothing, a new one in the place of the one
    that waited, or the start after a reset. -/
theorem board_frame_cases {u : UplinkSender} {i : BoardInput} (zeroed : Zeroed u.serial.mb2TcpBuff)
    (can : board.enabled u.board i) : let done := uplinkStep u (.board i)
    Zeroed done.1.serial.mb2TcpBuff ∧
      (done.1.serial.waitingFrame = u.serial.waitingFrame ∧ done.2 = [] ∨
        i ≠ .reset ∧ done.2 = u.serial.waitingFrame.map .replaced ++ done.1.serial.waitingFrame.map .built ∨
        i = .reset ∧ done.1.serial.waitingFrame = [] ∧ done.2 = u.serial.waitingFrame.map .dropped) := by
  intro done
  by_cases on : i = .reset
  · subst on
    exact ⟨⟨Block.peek_fill 0 (by decide),Block.peek_fill 0 (by decide),Block.peek_fill 0 (by decide)⟩,
      .inr (.inr ⟨rfl,rfl,List.append_nil _⟩)⟩
  · obtain ⟨header,frames⟩ := mailboxStep zeroed can on
    refine ⟨header,?_⟩
    have events : done.2 = (if executedFrames i (boardStep u.board i).2 = [] then []
        else u.serial.waitingFrame.map .replaced) ++ (executedFrames i (boardStep u.board i).2).map .built := by
      cases i with
      | reset => exact absurd rfl on
      | _ => rfl
    obtain ⟨none,same⟩ | ⟨some,waiting⟩ := frames
    · refine .inl ⟨waitingFrame_congr same,?_⟩
      rw [events,none]
      rfl
    · refine .inr (.inl ⟨on,?_⟩)
      rw [events,if_neg some,← waiting]
      rfl

theorem uplink_zeroed {u : UplinkSender} {i : SendInput} (zeroed : Zeroed u.serial.mb2TcpBuff)
    (can : uplinkSender.enabled u i) : Zeroed (uplinkSender.step u i).1.serial.mb2TcpBuff := by
  cases i with
  | board i => exact (board_frame_cases zeroed can).1
  | sendDataToSever write output =>
    obtain ⟨-,-,-,same⟩ | ⟨-,-,-,num,same⟩ | ⟨-,-,same⟩ | ⟨-,same⟩ := send_frame_cases write output u <;>
      simp only [uplinkSender,uplinkStep,same] <;> exact zeroed

/-- Each frame makes one event, which stands for it in the ledger or not at all. -/
theorem each_frame {of : List UInt8 → SendEvent} {items : SendEvent → List (List UInt8)}
    (one : ∀ frame, items (of frame) = [frame]) (frames : List (List UInt8)) : (frames.map of).flatMap items = frames := by
  simp [List.flatMap_map,one]
theorem no_frame {of : List UInt8 → SendEvent} {items : SendEvent → List (List UInt8)}
    (none : ∀ frame, items (of frame) = []) (frames : List (List UInt8)) : (frames.map of).flatMap items = [] := by
  simp [List.flatMap_map,none]

theorem uplink_exact {u : UplinkSender} {i : SendInput} (zeroed : Zeroed u.serial.mb2TcpBuff)
    (can : uplinkSender.enabled u i) (clear : QueueClear u i) :
    uplinkLedger.Exact u (uplinkSender.step u i).1 (uplinkSender.step u i).2 := by
  cases i with
  | board i =>
    obtain ⟨-,⟨kept,silent⟩ | ⟨-,events⟩ | ⟨-,gone,events⟩⟩ := board_frame_cases zeroed can
    · simp only [uplinkSender,Ledger.Exact,silent]
      simp [uplinkLedger,kept]
    · simp only [uplinkSender,Ledger.Exact,events,List.flatMap_append]
      rw [each_frame fun frame => (rfl : uplinkLedger.paid (.replaced frame) = [frame]),no_frame fun _ => rfl,
        no_frame fun _ => rfl,each_frame fun _ => rfl]
      simp [uplinkLedger]
    · simp only [uplinkSender,Ledger.Exact,events]
      rw [each_frame fun _ => rfl,no_frame fun _ => rfl]
      simp [uplinkLedger,gone]
  | sendDataToSever write output =>
    simp only [uplinkSender,uplinkStep,Ledger.Exact]
    obtain ⟨-,-,-,same⟩ | ⟨link,pending,bad,-,-⟩ | ⟨-,-,same⟩ | ⟨-,same⟩ := send_frame_cases write output u
    · rw [same,List.flatMap_append,List.flatMap_append,each_frame fun _ => rfl,no_frame fun _ => rfl]
      simp [uplinkLedger,waitingFrame_cleared]
    · exact absurd (clear link pending) bad
    · rw [same,each_frame fun _ => rfl,no_frame fun _ => rfl]
      simp [uplinkLedger,waitingFrame_cleared]
    · rw [same]
      simp [uplinkLedger]
/-- The frame of a failed write is gone. -/
theorem unclear_uplink_short {u : UplinkSender} {i : SendInput} (unclear : ¬ QueueClear u i) :
    uplinkLedger.Short u (uplinkSender.step u i).1 (uplinkSender.step u i).2 := by
  cases i with
  | board i => exact absurd trivial unclear
  | sendDataToSever write output =>
    simp only [QueueClear,Classical.not_imp] at unclear
    obtain ⟨link,pending,bad⟩ := unclear
    have owed := waitingFrame_length u.serial pending
    simp only [uplinkSender,uplinkStep,Ledger.Short]
    obtain ⟨-,-,good,-⟩ | ⟨-,-,-,num,same⟩ | ⟨unlinked,-,-⟩ | ⟨none,-⟩ := send_frame_cases write output u
    · exact absurd good bad
    · rw [same]
      have gone : ({ u.clearLenth with num := num } : UplinkSender).serial.waitingFrame = [] := waitingFrame_cleared u
      simp [uplinkLedger,gone,owed]
    · rw [link] at unlinked
      contradiction
    · rw [none] at pending
      exact absurd pending (by decide)
/-- Nothing but a call without a connection and a reset gives a frame up. -/
theorem inputKeeps_iff {u : UplinkSender} {i : SendInput} (zeroed : Zeroed u.serial.mb2TcpBuff)
    (can : uplinkSender.enabled u i) : u.InputKeeps i ↔ QueueClear u i := by
  cases i with
  | board i =>
    refine iff_of_true ?_ trivial
    obtain ⟨-,⟨-,silent⟩ | ⟨-,events⟩ | ⟨reset,-⟩⟩ := board_frame_cases zeroed can
    · cases i with
      | reset => trivial
      | _ => exact fun frame => by simp [uplinkSender,silent]
    · cases i with
      | reset => trivial
      | _ => exact fun frame => by simp [uplinkSender,events]
    · rw [reset]
      trivial
  | sendDataToSever write output =>
    refine (and_iff_left ?_).trans (callKeeps_iff write output u)
    intro link frame
    simp only [uplinkSender,uplinkStep]
    obtain ⟨-,-,-,same⟩ | ⟨-,-,-,num,same⟩ | ⟨unlinked,-,-⟩ | ⟨-,same⟩ := send_frame_cases write output u
    · simp [same]
    · simp [same]
    · rw [link] at unlinked
      contradiction
    · simp [same]

/-- After any start of the board no uplink frame is lost exactly when every write of a frame to
    TCP succeeds; what `tcp_output` returns does not matter. -/
theorem uplink_kept_iff (flash : Flash) (uid : Uid) (si4432 : Bool) (num : UInt8) (inputs : List SendInput)
    (admissible : uplinkSender.Admissible ⟨.main flash uid si4432,num⟩ inputs) :
    UplinkKept ⟨.main flash uid si4432,num⟩ inputs ↔ uplinkSender.Each QueueClear ⟨.main flash uid si4432,num⟩ inputs := by
  have start : Zeroed (⟨.main flash uid si4432,num⟩ : UplinkSender).serial.mb2TcpBuff :=
    ⟨Block.peek_fill 0 (by decide),Block.peek_fill 0 (by decide),Block.peek_fill 0 (by decide)⟩
  have keep (u : UplinkSender) (i : SendInput) (zeroed : Zeroed u.serial.mb2TcpBuff) (can : uplinkSender.enabled u i) :
      Zeroed (uplinkSender.step u i).1.serial.mb2TcpBuff := uplink_zeroed zeroed can
  have balanced : uplinkSender.Throughout uplinkLedger.Balanced ⟨.main flash uid si4432,num⟩ [] inputs ↔
      uplinkSender.Each QueueClear ⟨.main flash uid si4432,num⟩ inputs :=
    Ledger.balanced_iff keep
      (fun _ _ zeroed can clear => uplink_exact zeroed can clear) (fun _ _ _ _ => unclear_uplink_short) start rfl admissible
  rw [UplinkKept,balanced]
  refine and_iff_right_of_imp ?_
  intro clear
  exact Machine.each_of_invariant (fun _ _ zeroed now => uplink_zeroed zeroed now.1)
    (fun _ _ zeroed now => (inputKeeps_iff zeroed now.1).mpr now.2) start (Machine.each_and.mpr ⟨admissible,clear⟩)
/-- A frame from the line with a connection, and the call that sends it. -/
def heardAndSent (write : ErrT) : List SendInput :=
  ([BoardInput.tcpClientConnected,.gateway (.line .timerExpired),.gateway (.line .masterPoll)] ++ heardFrame).map .board ++
    [.sendDataToSever write .ok]
theorem uplink_kept_iff_sent : UplinkKept ⟨.main ⟨fun _ => blankWord,[],true⟩ ⟨1,2,3⟩ false,0⟩ (heardAndSent .ok) :=
  (uplink_kept_iff ⟨fun _ => blankWord,[],true⟩ ⟨1,2,3⟩ false 0 (heardAndSent .ok) (by decide)).mpr
    (by decide)
/-- With a full send buffer the frame is neither queued nor kept for a later call. -/
theorem uplink_kept_fails :
    uplinkSender.Admissible ⟨.main ⟨fun _ => blankWord,[],true⟩ ⟨1,2,3⟩ false,0⟩ (heardAndSent .mem) ∧
      ¬ UplinkKept ⟨.main ⟨fun _ => blankWord,[],true⟩ ⟨1,2,3⟩ false,0⟩ (heardAndSent .mem) := by
  refine ⟨by decide,?_⟩
  intro kept
  have last := kept.2.last
  revert last
  decide

end Net2Modbus
