import Net2Modbus.Uplink

/-!
# Uplink framing

One frame from an idle line to `Mb2TcpBuff`: its bytes, the gap behind it and two
polls. Lengths that the receive path accepts and `Mb2TcpBuff` has room for differ
by the 18 bytes of header and trailer.
-/
namespace Net2Modbus

/-- The line is idle, the stack is enabled and nothing waits. -/
structure Quiescent (s : Serial) : Prop where
  line : LineState s
  idle : s.eRcvState = .rxIdle
  empty : s.queued = none
  enabled : s.eMBState = .stateEnabled
  rxne : s.rxneEnabled = true

/-- The gap behind a frame and two polls. -/
def framePolled : List SerialInput := [.timerExpired,.masterPoll,.masterPoll]
/-- A frame on the line, up to the two polls. -/
def frameInputs (frame : List UInt8) : List SerialInput := frame.map .byteReceived ++ framePolled

/-- An accepted frame becomes the uplink frame in `Mb2TcpBuff`, written inside
    it, and any other leaves buffer and length alone. -/
def UplinkFraming (s : Serial) (frame : List UInt8) : Prop :=
  let s' := serial.after s (frameInputs frame)
  if uplinked frame then
    s'.mb2TcpBuff.slice 0 (frame.length + 18) = uplinkFrame s.uidStm32 frame ∧
      s'.mb2TcpLenth = UInt32.ofNat (frame.length + 18) ∧
      ∀ use ∈ accesses (serial.trace s (frameInputs frame)), use.Inside Arr.size
  else s'.mb2TcpBuff = s.mb2TcpBuff ∧ s'.mb2TcpLenth = s.mb2TcpLenth

/-- What reception leaves alone. -/
structure SameUplink (s t : Serial) : Prop where
  buff : t.mb2TcpBuff = s.mb2TcpBuff
  lenth : t.mb2TcpLenth = s.mb2TcpLenth
  uid : t.uidStm32 = s.uidStm32
  queued : t.queued = s.queued
  enabled : t.eMBState = s.eMBState
  rxne : t.rxneEnabled = s.rxneEnabled

theorem receive_same (byte : UInt8) (s : Serial) : SameUplink s (xMBMasterRTUReceiveFSM byte s).1 := by
  obtain ⟨-,same⟩ | ⟨-,same⟩ | ⟨-,-,same⟩ | ⟨-,-,same⟩ := receive_cases byte s <;> rw [same] <;>
    exact ⟨rfl,rfl,rfl,rfl,rfl,rfl⟩
theorem SameUplink.trans {s t u : Serial} (first : SameUplink s t) (second : SameUplink t u) : SameUplink s u :=
  ⟨second.buff.trans first.buff,second.lenth.trans first.lenth,second.uid.trans first.uid,
    second.queued.trans first.queued,second.enabled.trans first.enabled,second.rxne.trans first.rxne⟩
/-- The bytes of a frame are heard one by one. -/
theorem bytes_run {s : Serial} {past : List Event} {heard : List UInt8} (frame : List UInt8) (hears : Hears s past)
    (rxne : s.rxneEnabled = true) (current : (reception past).current = some heard) :
    SameUplink s (serial.after s (frame.map .byteReceived)) ∧
      accesses (serial.trace s (frame.map .byteReceived)) = [] ∧
      ∃ past', Hears (serial.after s (frame.map .byteReceived)) past' ∧
        (reception past').current = some (heard ++ frame) := by
  induction frame generalizing s past heard with
  | nil => exact ⟨⟨rfl,rfl,rfl,rfl,rfl,rfl⟩,rfl,past,hears,by simpa using current⟩
  | cons byte rest ih =>
    have same := receive_same byte s
    have next : (reception (past ++ (xMBMasterRTUReceiveFSM byte s).2)).current = some (heard ++ [byte]) := by
      obtain ⟨-,same⟩ | ⟨-,same⟩ | ⟨-,-,same⟩ | ⟨-,-,same⟩ := receive_cases byte s <;> rw [same] <;>
        simp [Reception.hear,current]
    have quiet : accesses (serial.step s (.byteReceived byte)).2 = [] := by
      simp only [serial,serialStep]
      obtain ⟨-,same⟩ | ⟨-,same⟩ | ⟨-,-,same⟩ | ⟨-,-,same⟩ := receive_cases byte s <;> rw [same] <;> rfl
    obtain ⟨later,silent,past',hears',current'⟩ := ih (hears.receive rxne byte) (same.rxne.trans rxne) next
    refine ⟨same.trans later,?_,past',hears',by simpa using current'⟩
    rw [List.map_cons,Machine.trace_cons,accesses_append,quiet]
    exact silent

theorem polled_frame {t : Serial} (line : LineState t) (rcv : t.eRcvState = .rxRcv) (enabled : t.eMBState = .stateEnabled)
    (enough : mbSerPduSizeMin ≤ t.usMasterRcvBufferPos) (short : t.usMasterRcvBufferPos < 256) :
    (serial.after t framePolled).mb2TcpBuff =
        t.mb2TcpBuff.copy (uplinkFrame t.uidStm32 (t.ucMasterRTURcvBuf.slice 0 t.usMasterRcvBufferPos)) ∧
      (serial.after t framePolled).mb2TcpLenth = UInt32.ofNat (t.usMasterRcvBufferPos + 18) ∧
      accesses (serial.trace t framePolled) = [⟨.mb2TcpBuff,0,t.usMasterRcvBufferPos + 18⟩] := by
  obtain ⟨event,known,same⟩ | ⟨quiet,same⟩ := expired_cases line.silent
  · obtain ⟨rfl,-⟩ : event = .evMasterFrameReceived ∧ t.eRcvState = .rxRcv := by simpa [rcv] using known
    simp [framePolled,serial,serialStep,same,eMBMasterPoll,enabled,Serial.queued,eMBMasterRTUReceive,enough,
      xMBMasterPortEventPost,executeFrame,short,Serial.frame,accesses]
  · simp [rcv] at quiet
theorem unpolled_frame {t : Serial} (line : LineState t) (empty : t.queued = none)
    (refused : t.eRcvState = .rxRcv → t.usMasterRcvBufferPos < mbSerPduSizeMin ∨ 256 ≤ t.usMasterRcvBufferPos) :
    (serial.after t framePolled).mb2TcpBuff = t.mb2TcpBuff ∧ (serial.after t framePolled).mb2TcpLenth = t.mb2TcpLenth := by
  by_cases enabled : t.eMBState = .stateEnabled
  · obtain ⟨event,known,same⟩ | ⟨quiet,same⟩ := expired_cases line.silent
    · rcases known with ⟨rfl,init⟩ | ⟨rfl,rcv⟩ | ⟨rfl,idle,xfwr⟩
      · simp [framePolled,serial,serialStep,same,eMBMasterPoll,enabled,Serial.queued]
      · rcases refused rcv with short | long
        · have few : ¬ mbSerPduSizeMin ≤ t.usMasterRcvBufferPos := Nat.not_le_of_lt short
          simp [framePolled,serial,serialStep,same,eMBMasterPoll,enabled,Serial.queued,eMBMasterRTUReceive,few,
            xMBMasterPortEventPost]
        · have enough : mbSerPduSizeMin ≤ t.usMasterRcvBufferPos := Nat.le_trans (by decide) long
          have many : ¬ t.usMasterRcvBufferPos < 256 := Nat.not_lt_of_le long
          simp [framePolled,serial,serialStep,same,eMBMasterPoll,enabled,Serial.queued,eMBMasterRTUReceive,enough,
            xMBMasterPortEventPost,executeFrame,many]
      · simp [framePolled,serial,serialStep,same,eMBMasterPoll,enabled,Serial.queued]
    · have waiting : t.xMasterEventInQueue = false := by
        by_contra full
        simp [Serial.queued,full] at empty
      simp [framePolled,serial,serialStep,same,eMBMasterPoll,enabled,Serial.queued,waiting]
  · obtain ⟨event,known,same⟩ | ⟨quiet,same⟩ := expired_cases line.silent <;>
      simp [framePolled,serial,serialStep,same,eMBMasterPoll,enabled]

theorem Quiescent.hears {s : Serial} (quiet : Quiescent s) : Hears s [.gap] := by
  refine hears_free quiet.line quiet.idle ?_ rfl rfl (by simp [Overwrites])
  simp [FramePending,quiet.empty]
/-- After its last byte a frame stands in the receive buffer, unless it is too
    long or has no byte. -/
theorem Hears.frame_heard {t : Serial} {past : List Event} {frame : List UInt8} (hears : Hears t past)
    (current : (reception past).current = some frame) :
    (t.eRcvState = .rxRcv ∧ t.usMasterRcvBufferPos = frame.length ∧
      t.ucMasterRTURcvBuf.slice 0 t.usMasterRcvBufferPos = frame) ∨
    (t.eRcvState ≠ .rxRcv ∧ uplinked frame = false) := by
  cases receiver : t.eRcvState with
  | rxInit =>
    have silent := hears.init receiver
    simp [silent] at current
  | rxIdle =>
    have silent := hears.idle receiver
    simp only [silent,Option.some.injEq] at current
    subst current
    exact .inr ⟨nofun,rfl⟩
  | rxRcv =>
    obtain ⟨-,bound,heard⟩ := hears.rcv receiver
    have same : t.ucMasterRTURcvBuf.slice 0 t.usMasterRcvBufferPos = frame :=
      Option.some.inj (heard.symm.trans current)
    have length := t.ucMasterRTURcvBuf.slice_length 0 t.usMasterRcvBufferPos (by omega)
    rw [same] at length
    exact .inl ⟨rfl,length.symm,same⟩
  | rxError =>
    obtain ⟨bytes,heard,long⟩ := hears.error receiver
    obtain rfl : bytes = frame := Option.some.inj (heard.symm.trans current)
    refine .inr ⟨nofun,?_⟩
    simp only [uplinked,decide_eq_false_iff_not]
    omega
/-- What an accepted frame leaves. -/
theorem accepted_frame {s : Serial} (quiet : Quiescent s) {frame : List UInt8} (accepted : uplinked frame = true) :
    (serial.after s (frameInputs frame)).mb2TcpBuff = s.mb2TcpBuff.copy (uplinkFrame s.uidStm32 frame) ∧
      (serial.after s (frameInputs frame)).mb2TcpLenth = UInt32.ofNat (frame.length + 18) ∧
      accesses (serial.trace s (frameInputs frame)) = [⟨.mb2TcpBuff,0,frame.length + 18⟩] := by
  obtain ⟨kept,silent,past,hears,current⟩ := bytes_run frame quiet.hears quiet.rxne rfl
  rw [List.nil_append] at current
  obtain ⟨enough,short⟩ := uplinked_length.mp accepted
  obtain ⟨rcv,pos,same⟩ | ⟨-,refused⟩ := hears.frame_heard current
  · obtain ⟨buff,lenth,used⟩ := polled_frame hears.line rcv (kept.enabled.trans quiet.enabled)
      (by rw [pos]; exact enough) (by rw [pos]; exact short)
    rw [pos] at same
    rw [pos,same,kept.buff,kept.uid] at buff
    rw [pos] at lenth used
    rw [frameInputs,Machine.after_append,Machine.trace_append]
    refine ⟨buff,lenth,?_⟩
    rw [accesses_append,silent,used]
    rfl
  · simp [accepted] at refused
/-- A frame that is not accepted leaves buffer and length. -/
theorem refused_frame {s : Serial} (quiet : Quiescent s) {frame : List UInt8} (refused : uplinked frame = false) :
    (serial.after s (frameInputs frame)).mb2TcpBuff = s.mb2TcpBuff ∧
      (serial.after s (frameInputs frame)).mb2TcpLenth = s.mb2TcpLenth := by
  obtain ⟨kept,silent,past,hears,current⟩ := bytes_run frame quiet.hears quiet.rxne rfl
  rw [List.nil_append] at current
  have unpolled := unpolled_frame hears.line (kept.queued.trans quiet.empty) fun rcv => by
    obtain ⟨-,pos,-⟩ | ⟨other,-⟩ := hears.frame_heard current
    · simp only [uplinked,decide_eq_false_iff_not] at refused
      rw [pos]
      omega
    · exact absurd rcv other
  rw [frameInputs,Machine.after_append]
  exact ⟨unpolled.1.trans kept.buff,unpolled.2.trans kept.lenth⟩
/-- With header and trailer a frame of 239 bytes no longer fits. -/
theorem uplinkFraming_long {s : Serial} (quiet : Quiescent s) {frame : List UInt8} (long : 239 ≤ frame.length)
    (short : frame.length ≤ 255) : ¬ UplinkFraming s frame := by
  have accepted : uplinked frame = true := uplinked_length.mpr ⟨by omega,by omega⟩
  obtain ⟨-,-,used⟩ := accepted_frame quiet accepted
  intro framing
  simp only [UplinkFraming,accepted,if_true,used] at framing
  have inside := framing.2.2 _ (List.mem_singleton_self _)
  simp [Access.Inside,Arr.size] at inside
  omega

/-- From an idle line exactly the frames of 239 to 255 bytes break the framing. -/
theorem uplink_framing_iff (s : Serial) (quiet : Quiescent s) (frame : List UInt8) :
    UplinkFraming s frame ↔ ¬ (239 ≤ frame.length ∧ frame.length ≤ 255) := by
  constructor
  · rintro framing ⟨long,short⟩
    exact uplinkFraming_long quiet long short framing
  · intro lengths
    cases accepted : uplinked frame with
    | false =>
      simp only [UplinkFraming,accepted]
      exact refused_frame quiet accepted
    | true =>
      obtain ⟨enough,short⟩ := uplinked_length.mp accepted
      obtain ⟨buff,lenth,used⟩ := accepted_frame quiet accepted
      have length := uplinkFrame_length s.uidStm32 frame
      have fits : (uplinkFrame s.uidStm32 frame).length ≤ 256 := by omega
      simp only [UplinkFraming,accepted,if_true]
      refine ⟨?_,lenth,?_⟩
      · rw [buff,← length]
        exact Block.slice_copy _ _ fits
      · rw [used]
        simp [Access.Inside,Arr.size]
        omega
theorem startedIdle_quiescent : Quiescent startedIdle :=
  ⟨startedIdle_line,by decide,by decide,by decide,by decide⟩
theorem uplink_framing_iff_startedIdle :
    UplinkFraming startedIdle [1,3,2,0] ↔ ¬ (239 ≤ [1,3,2,0].length ∧ [1,3,2,0].length ≤ 255) :=
  uplink_framing_iff startedIdle startedIdle_quiescent [1,3,2,0]
/-- 239 zero bytes are accepted, and the uplink frame ends outside `Mb2TcpBuff`. -/
theorem uplink_framing_fails : Quiescent startedIdle ∧ ¬ UplinkFraming startedIdle (List.replicate 239 0) :=
  ⟨startedIdle_quiescent,uplinkFraming_long startedIdle_quiescent (List.length_replicate ▸ Nat.le_refl 239)
    (by rw [List.length_replicate]; decide)⟩

end Net2Modbus
