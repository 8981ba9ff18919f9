import Net2Modbus.Serial

/-!
# What the handlers of the serial line can do

One inversion lemma for each handler, and the invariant that ties the interrupt
enables to the two state machines.
-/
namespace Net2Modbus

theorem send_cases (payload : List UInt8) (s : Serial) :
    (mbPduSizeMax < payload.length ∧ masterSend 6 payload payload.length s = (s,[])) ∨
    (payload.length ≤ mbPduSizeMax ∧ s.eRcvState ≠ .rxIdle ∧ masterSend 6 payload payload.length s =
      ({ s with ucMasterRTUSndBuf := s.ucMasterRTUSndBuf.copy payload },[.refused payload])) ∨
    (payload.length ≤ mbPduSizeMax ∧ s.eRcvState = .rxIdle ∧ masterSend 6 payload payload.length s =
      ({ s with
        ucMasterRTUSndBuf := s.ucMasterRTUSndBuf.copy payload, pucMasterSndBufferCur := 0,
        usMasterSndBufferCount := payload.length, eSndState := .txXmit,
        rs485Send := true, rxneEnabled := false, txeEnabled := true },[.accepted payload])) := by
  by_cases long : mbPduSizeMax < payload.length
  · exact .inl ⟨long,by simp [masterSend,long]⟩
  · have fits : payload.length ≤ 253 := Nat.le_of_not_lt long
    have same : ((payload.length : Int) % 65536).toNat = payload.length := by omega
    have read := s.ucMasterRTUSndBuf.slice_copy payload fits
    by_cases idle : s.eRcvState = .rxIdle
    · refine .inr (.inr ⟨fits,idle,?_⟩)
      simp [masterSend,long,same,eMBMasterRTUSend,mbMasterTotalSlaveNum,idle,read,vMBMasterPortSerialEnable]
    · refine .inr (.inl ⟨fits,idle,?_⟩)
      simp [masterSend,long,same,eMBMasterRTUSend,mbMasterTotalSlaveNum,idle,read]
theorem transmit_cases (s : Serial) :
    (s.eSndState = .txIdle ∧ xMBMasterRTUTransmitFSM s =
      ({ s with rs485Send := false, rxneEnabled := true, txeEnabled := false },[])) ∨
    (s.eSndState = .txXmit ∧ s.usMasterSndBufferCount ≠ 0 ∧ xMBMasterRTUTransmitFSM s =
      ({ s with pucMasterSndBufferCur := s.pucMasterSndBufferCur + 1,
                usMasterSndBufferCount := s.usMasterSndBufferCount - 1 },
        [.put (s.ucMasterRTUSndBuf.peek s.pucMasterSndBufferCur)])) ∨
    (s.eSndState = .txXmit ∧ s.usMasterSndBufferCount = 0 ∧ ∃ broadcast mode, xMBMasterRTUTransmitFSM s =
      ({ s with rs485Send := false, rxneEnabled := true, txeEnabled := false,
                xFrameIsBroadcast := broadcast, eSndState := .txXfwr,
                eMasterCurTimerMode := mode, timerEnabled := true },[])) ∨
    (s.eSndState = .txXfwr ∧ xMBMasterRTUTransmitFSM s = (s,[])) := by
  cases sender : s.eSndState with
  | txIdle => exact .inl ⟨rfl,by simp [xMBMasterRTUTransmitFSM,sender,vMBMasterPortSerialEnable]⟩
  | txXfwr => exact .inr (.inr (.inr ⟨rfl,by simp [xMBMasterRTUTransmitFSM,sender]⟩))
  | txXmit =>
    refine .inr ?_
    by_cases done : s.usMasterSndBufferCount = 0
    · refine .inr (.inl ⟨rfl,done,decide (s.ucMasterRTUSndBuf.peek 0 = mbAddressBroadcast),?_⟩)
      by_cases broadcast : s.ucMasterRTUSndBuf.peek 0 = mbAddressBroadcast
      · exact ⟨.tmodeConvertDelay,by simp [xMBMasterRTUTransmitFSM,sender,done,broadcast,vMBMasterPortSerialEnable,
          vMBMasterPortTimersConvertDelayEnable]⟩
      · exact ⟨.tmodeRespondTimeout,by simp [xMBMasterRTUTransmitFSM,sender,done,broadcast,vMBMasterPortSerialEnable,
          vMBMasterPortTimersRespondTimeoutEnable]⟩
    · exact .inl ⟨rfl,done,by simp [xMBMasterRTUTransmitFSM,sender,done]⟩
theorem receive_cases (byte : UInt8) (s : Serial) :
    ((s.eRcvState = .rxInit ∨ s.eRcvState = .rxError) ∧ xMBMasterRTUReceiveFSM byte s =
      ({ s with eMasterCurTimerMode := .tmodeT35, timerEnabled := true },[.received byte])) ∨
    (s.eRcvState = .rxIdle ∧ xMBMasterRTUReceiveFSM byte s =
      ({ s with eSndState := .txIdle, ucMasterRTURcvBuf := s.ucMasterRTURcvBuf.poke 0 byte,
                usMasterRcvBufferPos := 1, eRcvState := .rxRcv,
                eMasterCurTimerMode := .tmodeT35, timerEnabled := true },[.received byte])) ∨
    (s.eRcvState = .rxRcv ∧ s.usMasterRcvBufferPos < mbSerPduSizeMax ∧ xMBMasterRTUReceiveFSM byte s =
      ({ s with ucMasterRTURcvBuf := s.ucMasterRTURcvBuf.poke s.usMasterRcvBufferPos byte,
                usMasterRcvBufferPos := s.usMasterRcvBufferPos + 1,
                eMasterCurTimerMode := .tmodeT35, timerEnabled := true },[.received byte])) ∨
    (s.eRcvState = .rxRcv ∧ mbSerPduSizeMax ≤ s.usMasterRcvBufferPos ∧ xMBMasterRTUReceiveFSM byte s =
      ({ s with eRcvState := .rxError, eMasterCurTimerMode := .tmodeT35, timerEnabled := true },[.received byte])) := by
  cases receiver : s.eRcvState with
  | rxInit => exact .inl ⟨.inl rfl,by simp [xMBMasterRTUReceiveFSM,receiver,vMBMasterPortTimersT35Enable]⟩
  | rxError => exact .inl ⟨.inr rfl,by simp [xMBMasterRTUReceiveFSM,receiver,vMBMasterPortTimersT35Enable]⟩
  | rxIdle =>
    exact .inr (.inl ⟨rfl,by
      simp [xMBMasterRTUReceiveFSM,receiver,vMBMasterPortTimersT35Enable,vMBMasterPortTimersDisable]⟩)
  | rxRcv =>
    refine .inr (.inr ?_)
    by_cases room : s.usMasterRcvBufferPos < mbSerPduSizeMax
    · exact .inl ⟨rfl,room,by simp [xMBMasterRTUReceiveFSM,receiver,room,vMBMasterPortTimersT35Enable]⟩
    · exact .inr ⟨rfl,Nat.le_of_not_lt room,by
        simp [xMBMasterRTUReceiveFSM,receiver,room,vMBMasterPortTimersT35Enable]⟩

@[simp] theorem queued_empty {s : Serial} (empty : s.xMasterEventInQueue = false) : s.queued = none := by
  simp [Serial.queued,empty]
theorem queued_full {s : Serial} (full : s.xMasterEventInQueue = true) : s.queued = some s.eMasterQueuedEvent := by
  simp [Serial.queued,full]
theorem poll_cases {s : Serial} (unasked : s.eMasterQueuedEvent ≠ .evMasterFrameSent) :
    ((s.eMBState ≠ .stateEnabled ∨ s.queued = none) ∧ eMBMasterPoll s = (s,[])) ∨
    (s.eMBState = .stateEnabled ∧ s.queued = some .evMasterFrameReceived ∧ mbSerPduSizeMin ≤ s.usMasterRcvBufferPos ∧
      eMBMasterPoll s = ({ s with usLength := s.usMasterRcvBufferPos, ucMBFrame := .rcvBuf,
                                  xMasterEventInQueue := true, eMasterQueuedEvent := .evMasterExecute },
        [.posted .evMasterExecute none])) ∨
    (s.eMBState = .stateEnabled ∧ s.queued = some .evMasterFrameReceived ∧ s.usMasterRcvBufferPos < mbSerPduSizeMin ∧
      eMBMasterPoll s = ({ s with xMasterEventInQueue := true, eMasterQueuedEvent := .evMasterErrorProcess },
        [.posted .evMasterErrorProcess none])) ∨
    (s.eMBState = .stateEnabled ∧ s.queued = some .evMasterExecute ∧
      eMBMasterPoll s = executeFrame { s with xMasterEventInQueue := false }) ∨
    (s.eMBState = .stateEnabled ∧ (s.queued = some .evMasterReady ∨ s.queued = some .evMasterErrorProcess) ∧
      ∃ busy, eMBMasterPoll s = ({ s with xMasterEventInQueue := false, xMasterIsBusy := busy },[])) := by
  by_cases on : s.eMBState = .stateEnabled
  · cases waiting : s.xMasterEventInQueue with
    | false => exact .inl ⟨.inr (queued_empty waiting),by simp [eMBMasterPoll,on,queued_empty waiting]⟩
    | true =>
      have full := queued_full waiting
      refine .inr ?_
      cases event : s.eMasterQueuedEvent with
      | evMasterReady =>
        rw [event] at full
        exact .inr (.inr (.inr ⟨on,.inl full,s.xMasterIsBusy,by simp [eMBMasterPoll,on,full,event]⟩))
      | evMasterErrorProcess =>
        rw [event] at full
        exact .inr (.inr (.inr ⟨on,.inr full,false,by simp [eMBMasterPoll,on,full,event]⟩))
      | evMasterFrameSent => exact absurd event unasked
      | evMasterExecute =>
        rw [event] at full
        exact .inr (.inr (.inl ⟨on,full,by simp [eMBMasterPoll,on,full,event]⟩))
      | evMasterFrameReceived =>
        rw [event] at full
        by_cases enough : mbSerPduSizeMin ≤ s.usMasterRcvBufferPos
        · refine .inl ⟨on,full,enough,?_⟩
          simp [eMBMasterPoll,on,full,eMBMasterRTUReceive,enough,xMBMasterPortEventPost]
        · refine .inr (.inl ⟨on,full,Nat.lt_of_not_le enough,?_⟩)
          simp [eMBMasterPoll,on,full,eMBMasterRTUReceive,enough,xMBMasterPortEventPost]
  · exact .inl ⟨.inl on,by simp [eMBMasterPoll,on]⟩

/-- How the interrupt enables follow the two state machines, and the events that
    nothing posts. -/
structure LineState (s : Serial) : Prop where
  opposite : s.txeEnabled = !s.rxneEnabled
  listening : s.eRcvState ≠ .rxIdle → s.rxneEnabled = true
  silent : s.eRcvState ≠ .rxIdle → s.eSndState = .txIdle
  driving : s.eSndState = .txXmit → s.txeEnabled = true
  inside : s.eSndState = .txXmit → s.pucMasterSndBufferCur + s.usMasterSndBufferCount ≤ 253
  unasked : s.eMasterQueuedEvent ≠ .evMasterFrameSent

theorem startedIdle_line : LineState startedIdle := by
  constructor <;> decide
theorem LineState.not_xmit {s : Serial} (line : LineState s) (rxne : s.rxneEnabled = true) : s.eSndState ≠ .txXmit := by
  intro xmit
  have txe := line.driving xmit
  rw [line.opposite,rxne] at txe
  contradiction
theorem LineState.idle_of_xmit {s : Serial} (line : LineState s) (xmit : s.eSndState = .txXmit) :
    s.eRcvState = .rxIdle := by
  by_contra busy
  exact line.not_xmit (line.listening busy) xmit

/-- An expiry posts at most one event. -/
theorem expired_cases {s : Serial} (silent : s.eRcvState ≠ .rxIdle → s.eSndState = .txIdle) :
    (∃ event,
      ((event = .evMasterReady ∧ s.eRcvState = .rxInit) ∨ (event = .evMasterFrameReceived ∧ s.eRcvState = .rxRcv) ∨
        (event = .evMasterErrorProcess ∧ s.eRcvState = .rxIdle ∧ s.eSndState = .txXfwr ∧ s.xFrameIsBroadcast = false)) ∧
      xMBMasterRTUTimerExpired s =
        ({ s with eRcvState := .rxIdle, eSndState := .txIdle, timerEnabled := false, xMasterIsBusy := s.busyAfterExpiry,
                  xMasterEventInQueue := true, eMasterQueuedEvent := event },[.gap,.posted event s.queued])) ∨
    ((s.eRcvState = .rxError ∨ s.eRcvState = .rxIdle) ∧ xMBMasterRTUTimerExpired s =
      ({ s with eRcvState := .rxIdle, eSndState := .txIdle, timerEnabled := false,
                xMasterIsBusy := s.busyAfterExpiry },[.gap])) := by
  cases receiver : s.eRcvState with
  | rxInit =>
    have idle := silent (by simp [receiver])
    refine .inl ⟨.evMasterReady,.inl ⟨rfl,rfl⟩,?_⟩
    simp [xMBMasterRTUTimerExpired,expiredReceive,expiredSend,receiver,idle,xMBMasterPortEventPost,
      vMBMasterPortTimersDisable,Serial.busyAfterExpiry]
  | rxRcv =>
    have idle := silent (by simp [receiver])
    refine .inl ⟨.evMasterFrameReceived,.inr (.inl ⟨rfl,rfl⟩),?_⟩
    simp [xMBMasterRTUTimerExpired,expiredReceive,expiredSend,receiver,idle,xMBMasterPortEventPost,
      vMBMasterPortTimersDisable,Serial.busyAfterExpiry]
  | rxError =>
    have idle := silent (by simp [receiver])
    refine .inr ⟨.inl rfl,?_⟩
    simp [xMBMasterRTUTimerExpired,expiredReceive,expiredSend,receiver,idle,vMBMasterPortTimersDisable,
      Serial.busyAfterExpiry]
  | rxIdle =>
    by_cases late : s.eSndState = .txXfwr ∧ s.xFrameIsBroadcast = false
    · refine .inl ⟨.evMasterErrorProcess,.inr (.inr ⟨rfl,rfl,late⟩),?_⟩
      simp [xMBMasterRTUTimerExpired,expiredReceive,expiredSend,receiver,late,xMBMasterPortEventPost,
        vMBMasterPortTimersDisable,Serial.queued,Serial.busyAfterExpiry]
    · refine .inr ⟨.inr rfl,?_⟩
      simp [xMBMasterRTUTimerExpired,expiredReceive,expiredSend,receiver,late,vMBMasterPortTimersDisable,
        Serial.busyAfterExpiry]

theorem LineState.send {s : Serial} (line : LineState s) (payload : List UInt8) :
    LineState (masterSend 6 payload payload.length s).1 := by
  obtain ⟨-,same⟩ | ⟨fits,busy,same⟩ | ⟨fits,idle,same⟩ := send_cases payload s <;> rw [same]
  · exact line
  · exact ⟨line.opposite,line.listening,line.silent,line.driving,line.inside,line.unasked⟩
  · refine ⟨rfl,fun busy => absurd idle busy,fun busy => absurd idle busy,fun _ => rfl,?_,line.unasked⟩
    intro _
    simpa [mbPduSizeMax] using fits
theorem LineState.transmit {s : Serial} (line : LineState s) : LineState (xMBMasterRTUTransmitFSM s).1 := by
  obtain ⟨idle,same⟩ | ⟨xmit,left,same⟩ | ⟨xmit,done,broadcast,mode,same⟩ | ⟨xfwr,same⟩ := transmit_cases s <;> rw [same]
  · exact ⟨rfl,fun _ => rfl,line.silent,fun xmit => by simp [idle] at xmit,fun xmit => by simp [idle] at xmit,line.unasked⟩
  · refine ⟨line.opposite,line.listening,line.silent,line.driving,?_,line.unasked⟩
    intro _
    have bound := line.inside xmit
    dsimp only
    omega
  · exact ⟨rfl,fun _ => rfl,fun busy => absurd (line.idle_of_xmit xmit) busy,nofun,nofun,line.unasked⟩
  · exact line
theorem LineState.receive {s : Serial} (line : LineState s) (rxne : s.rxneEnabled = true) (byte : UInt8) :
    LineState (xMBMasterRTUReceiveFSM byte s).1 := by
  obtain ⟨-,same⟩ | ⟨idle,same⟩ | ⟨rcv,room,same⟩ | ⟨rcv,full,same⟩ := receive_cases byte s <;> rw [same]
  · exact ⟨line.opposite,line.listening,line.silent,line.driving,line.inside,line.unasked⟩
  · exact ⟨line.opposite,fun _ => rxne,fun _ => rfl,nofun,nofun,line.unasked⟩
  · exact ⟨line.opposite,line.listening,line.silent,line.driving,line.inside,line.unasked⟩
  · exact ⟨line.opposite,fun _ => rxne,fun _ => line.silent (by simp [rcv]),line.driving,line.inside,line.unasked⟩
theorem LineState.expire {s : Serial} (line : LineState s) : LineState (xMBMasterRTUTimerExpired s).1 := by
  obtain ⟨event,known,same⟩ | ⟨-,same⟩ := expired_cases line.silent <;> rw [same]
  · have other : event ≠ .evMasterFrameSent := by
      rintro rfl
      simp at known
    exact ⟨line.opposite,nofun,nofun,nofun,nofun,other⟩
  · exact ⟨line.opposite,nofun,nofun,nofun,nofun,line.unasked⟩
theorem LineState.poll {s : Serial} (line : LineState s) : LineState (eMBMasterPoll s).1 := by
  obtain ⟨-,same⟩ | ⟨-,-,-,same⟩ | ⟨-,-,-,same⟩ | ⟨-,-,same⟩ | ⟨-,-,busy,same⟩ := poll_cases line.unasked <;> rw [same]
  · exact line
  · exact ⟨line.opposite,line.listening,line.silent,line.driving,line.inside,nofun⟩
  · exact ⟨line.opposite,line.listening,line.silent,line.driving,line.inside,nofun⟩
  · unfold executeFrame
    split <;> exact ⟨line.opposite,line.listening,line.silent,line.driving,line.inside,line.unasked⟩
  · exact ⟨line.opposite,line.listening,line.silent,line.driving,line.inside,line.unasked⟩
theorem LineState.step {s : Serial} (line : LineState s) {i : SerialInput} (can : serial.enabled s i) :
    LineState (serial.step s i).1 := by
  cases i with
  | masterSend payload => exact line.send payload
  | txEmpty => exact line.transmit
  | byteReceived byte => exact line.receive can byte
  | timerExpired => exact line.expire
  | masterPoll => exact line.poll
/-- The invariant holds in every state that a run from an idle line reaches. -/
theorem LineState.run {s : Serial} {inputs : List SerialInput} (line : LineState s)
    (admissible : serial.Admissible s inputs) : LineState (serial.after s inputs) :=
  Machine.invariant_run (fun _ _ line can => line.step can) line admissible

end Net2Modbus
