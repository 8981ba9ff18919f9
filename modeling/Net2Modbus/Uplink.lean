import Net2Modbus.Line

/-!
# The uplink of the serial line

What a listener on the line hears, cut into frames by the idle gaps, against what
the branch for `EV_MASTER_EXECUTE` places in `Mb2TcpBuff`. The two agree as long
as the main loop polls a frame out before the receive buffer and the event queue
are used again.
-/
namespace Net2Modbus

/-- What has been heard on the line: the bytes since the last gap, once there was
    one, and the complete frames. -/
structure Reception where
  current : Option (List UInt8)
  frames : List (List UInt8)
  deriving DecidableEq, Repr

/-- The frames once a gap closes the current one, which may be empty. -/
def Reception.closed (r : Reception) : List (List UInt8) :=
  match r.current with
  | some (byte :: rest) => r.frames ++ [byte :: rest]
  | _ => r.frames
def Reception.hear (r : Reception) : Event → Reception
  | .gap => ⟨some [],r.closed⟩
  | .received byte => { r with current := r.current.map (· ++ [byte]) }
  | _ => r
def reception (past : List Event) : Reception := past.foldl .hear ⟨none,[]⟩

/-- The payloads placed in `Mb2TcpBuff`, in order. -/
def placed (past : List Event) : List (List UInt8) :=
  past.filterMap fun
    | .uplink payload => some payload
    | _ => none

/-- A posted event that takes the place of a frame in the queue. -/
def Overwrites : Event → Prop
  | .posted _ lost => lost = some .evMasterFrameReceived ∨ lost = some .evMasterExecute
  | _ => False

/-- Every placed payload is a received frame, in the order of reception and each
    at most once, and no event of a frame was overwritten. -/
def UplinkIntegrity (past : List Event) : Prop :=
  (placed past).Sublist (reception past).frames ∧ ∀ event ∈ past, ¬ Overwrites event

/-- The event of a frame waits in the queue. -/
def FramePending (s : Serial) : Prop :=
  s.queued = some .evMasterFrameReceived ∨ s.queued = some .evMasterExecute

instance (s : Serial) : Decidable (FramePending s) := inferInstanceAs (Decidable (_ ∨ _))

/-- The lengths that `eMBMasterRTUReceive` and the branch for
    `EV_MASTER_EXECUTE` let through. -/
def uplinked (frame : List UInt8) : Bool := decide (mbSerPduSizeMin ≤ frame.length ∧ frame.length < 256)

/-- No frame of an admitted length is missing but for the one that waits. -/
def UplinkComplete (s : Serial) (past : List Event) : Prop :=
  (FramePending s → placed past = (reception past).frames.dropLast.filter uplinked) ∧
    (¬ FramePending s → placed past = (reception past).frames.filter uplinked)

instance (event : Event) : Decidable (Overwrites event) :=
  match event with
  | .gap | .put _ | .accepted _ | .refused _ | .received _ | .uplink _ | .segment _ | .handed _ _ _ | .radio _ | .due _ |
    .tcpWrite _ | .udpSend _ | .access _ | .subtract _ _ => isFalse id
  | .posted _ _ => inferInstanceAs (Decidable (_ ∨ _))

instance (past : List Event) : Decidable (UplinkIntegrity past) := inferInstanceAs (Decidable (_ ∧ _))

instance (s : Serial) (past : List Event) : Decidable (UplinkComplete s past) := inferInstanceAs (Decidable (_ ∧ _))

/-- While a frame waits, the poll finds the receiver idle and an expiry finds nothing to
    post, neither a frame that has come in nor the error of a response that does not come
    (after a broadcast there is none). The payload of a frame that is placed fits behind the
    header. -/
def UplinkClear (s : Serial) : SerialInput → Prop
  | .masterPoll => FramePending s → s.eRcvState = .rxIdle ∧
      (s.queued = some .evMasterExecute → s.usLength ≤ 243 ∨ 256 ≤ s.usLength)
  | .timerExpired => FramePending s → s.eRcvState = .rxIdle ∧ ¬ (s.eSndState = .txXfwr ∧ s.xFrameIsBroadcast = false)
  | _ => True

instance (s : Serial) (i : SerialInput) : Decidable (UplinkClear s i) :=
  match i with
  | .masterPoll | .timerExpired => inferInstanceAs (Decidable (_ → _))
  | .masterSend _ | .txEmpty | .byteReceived _ => isTrue trivial

theorem uplinked_length {frame : List UInt8} : uplinked frame = true ↔ 4 ≤ frame.length ∧ frame.length < 256 := by
  rw [uplinked,decide_eq_true_eq]
  exact Iff.rfl
@[simp] theorem reception_nil : reception [] = ⟨none,[]⟩ := rfl
@[simp] theorem reception_snoc (past : List Event) (event : Event) :
    reception (past ++ [event]) = (reception past).hear event := by
  simp [reception,List.foldl_append]
@[simp] theorem placed_append (past events : List Event) : placed (past ++ events) = placed past ++ placed events :=
  List.filterMap_append

/-- The receive buffer has the bytes since the last gap, and the event that waits
    stands for the last frame. -/
structure Hears (s : Serial) (past : List Event) : Prop where
  line : LineState s
  init : s.eRcvState = .rxInit → (reception past).current = none
  idle : s.eRcvState = .rxIdle → (reception past).current = some []
  rcv : s.eRcvState = .rxRcv → 0 < s.usMasterRcvBufferPos ∧ s.usMasterRcvBufferPos ≤ 256 ∧
    (reception past).current = some (s.ucMasterRTURcvBuf.slice 0 s.usMasterRcvBufferPos)
  error : s.eRcvState = .rxError → ∃ bytes, (reception past).current = some bytes ∧ 256 < bytes.length
  latest : s.queued = some .evMasterFrameReceived → s.eRcvState = .rxIdle →
    s.usMasterRcvBufferPos ≤ 256 ∧
      (reception past).frames.getLast? = some (s.ucMasterRTURcvBuf.slice 0 s.usMasterRcvBufferPos)
  latched : s.queued = some .evMasterExecute → s.eRcvState = .rxIdle →
    mbSerPduSizeMin ≤ s.usLength ∧ s.usLength ≤ 256 ∧ s.ucMBFrame = .rcvBuf ∧
      (reception past).frames.getLast? = some (s.ucMasterRTURcvBuf.slice 0 s.usLength)
  complete : UplinkComplete s past
  kept : ∀ event ∈ past, ¬ Overwrites event

theorem started_hears : Hears started [] := by
  refine ⟨⟨?_,?_,?_,?_,?_,?_⟩,?_,?_,?_,?_,?_,?_,?_,List.forall_mem_nil _⟩ <;> decide

theorem UplinkComplete.same {s s' : Serial} {past past' : List Event} (complete : UplinkComplete s past)
    (queued : s'.queued = s.queued) (heard : (reception past').frames = (reception past).frames)
    (unplaced : placed past' = placed past) : UplinkComplete s' past' := by
  simp only [UplinkComplete,FramePending] at *
  rw [queued,heard,unplaced]
  exact complete
/-- A step that leaves the receiver and the queue alone. -/
theorem Hears.frame {s s' : Serial} {past events : List Event} (hears : Hears s past) (line : LineState s')
    (receiver : s'.eRcvState = s.eRcvState ∧ s'.ucMasterRTURcvBuf = s.ucMasterRTURcvBuf ∧
      s'.usMasterRcvBufferPos = s.usMasterRcvBufferPos)
    (poll : s'.queued = s.queued ∧ s'.usLength = s.usLength ∧ s'.ucMBFrame = s.ucMBFrame)
    (unheard : reception (past ++ events) = reception past) (unplaced : placed events = [])
    (kept : ∀ event ∈ events, ¬ Overwrites event) : Hears s' (past ++ events) := by
  obtain ⟨state,buffer,pos⟩ := receiver
  obtain ⟨queued,length,frame⟩ := poll
  refine ⟨line,?_,?_,?_,?_,?_,?_,?_,?_⟩
  · simpa [state,unheard] using hears.init
  · simpa [state,unheard] using hears.idle
  · simpa [state,buffer,pos,unheard] using hears.rcv
  · simpa [state,unheard] using hears.error
  · simpa [state,buffer,pos,queued,unheard] using hears.latest
  · simpa [state,buffer,length,frame,queued,unheard] using hears.latched
  · exact hears.complete.same queued (by rw [unheard]) (by simp [unplaced])
  · exact List.forall_mem_append.mpr ⟨hears.kept,kept⟩

theorem Hears.send {s : Serial} {past : List Event} (hears : Hears s past) (payload : List UInt8) :
    Hears (masterSend 6 payload payload.length s).1 (past ++ (masterSend 6 payload payload.length s).2) := by
  have line := hears.line.send payload
  obtain ⟨-,same⟩ | ⟨-,-,same⟩ | ⟨-,-,same⟩ := send_cases payload s <;> rw [same] at line ⊢
  · simpa using hears
  · exact hears.frame line ⟨rfl,rfl,rfl⟩ ⟨rfl,rfl,rfl⟩ (by simp [Reception.hear]) rfl (by simp [Overwrites])
  · exact hears.frame line ⟨rfl,rfl,rfl⟩ ⟨rfl,rfl,rfl⟩ (by simp [Reception.hear]) rfl (by simp [Overwrites])
theorem Hears.transmit {s : Serial} {past : List Event} (hears : Hears s past) :
    Hears (xMBMasterRTUTransmitFSM s).1 (past ++ (xMBMasterRTUTransmitFSM s).2) := by
  have line := hears.line.transmit
  obtain ⟨-,same⟩ | ⟨-,-,same⟩ | ⟨-,-,broadcast,mode,same⟩ | ⟨-,same⟩ := transmit_cases s <;> rw [same] at line ⊢
  · exact hears.frame line ⟨rfl,rfl,rfl⟩ ⟨rfl,rfl,rfl⟩ (by simp) rfl (List.forall_mem_nil _)
  · exact hears.frame line ⟨rfl,rfl,rfl⟩ ⟨rfl,rfl,rfl⟩ (by simp [Reception.hear]) rfl (by simp [Overwrites])
  · exact hears.frame line ⟨rfl,rfl,rfl⟩ ⟨rfl,rfl,rfl⟩ (by simp) rfl (List.forall_mem_nil _)
  · simpa using hears
theorem Hears.receive {s : Serial} {past : List Event} (hears : Hears s past) (rxne : s.rxneEnabled = true)
    (byte : UInt8) :
    Hears (xMBMasterRTUReceiveFSM byte s).1 (past ++ (xMBMasterRTUReceiveFSM byte s).2) := by
  have line := hears.line.receive rxne byte
  have heard : reception (past ++ [Event.received byte]) =
      { reception past with current := (reception past).current.map (· ++ [byte]) } := by simp [Reception.hear]
  have complete {s' : Serial} (queued : s'.queued = s.queued) : UplinkComplete s' (past ++ [Event.received byte]) :=
    hears.complete.same queued (by rw [heard]) (by simp [placed])
  have kept : ∀ event ∈ past ++ [Event.received byte], ¬ Overwrites event :=
    List.forall_mem_append.mpr ⟨hears.kept,by simp [Overwrites]⟩
  obtain ⟨quiet,same⟩ | ⟨idle,same⟩ | ⟨rcv,room,same⟩ | ⟨rcv,full,same⟩ := receive_cases byte s <;>
    rw [same] at line ⊢
  · refine ⟨line,?_,?_,?_,?_,?_,?_,complete rfl,kept⟩
    · intro (init : s.eRcvState = .rxInit)
      simp [heard,hears.init init]
    · intro (idle : s.eRcvState = .rxIdle)
      simp [idle] at quiet
    · intro (rcv : s.eRcvState = .rxRcv)
      simp [rcv] at quiet
    · intro (error : s.eRcvState = .rxError)
      obtain ⟨bytes,current,long⟩ := hears.error error
      exact ⟨bytes ++ [byte],by simp [heard,current],by simp; omega⟩
    · intro _ (idle : s.eRcvState = .rxIdle)
      simp [idle] at quiet
    · intro _ (idle : s.eRcvState = .rxIdle)
      simp [idle] at quiet
  · have first : (s.ucMasterRTURcvBuf.poke 0 byte).slice 0 1 = [byte] := by
      simpa using Block.slice_poke_next s.ucMasterRTURcvBuf (i := 0) byte (by decide)
    refine ⟨line,by simp,by simp,fun _ => ⟨Nat.one_pos,?_,?_⟩,by simp,by simp,by simp,complete rfl,kept⟩
    · simp
    · simp [heard,hears.idle idle,first]
  · obtain ⟨some,bound,current⟩ := hears.rcv rcv
    have next := Block.slice_poke_next s.ucMasterRTURcvBuf byte room
    refine ⟨line,by simp [rcv],by simp [rcv],fun _ => ⟨Nat.succ_pos _,room,?_⟩,by simp [rcv],
      fun _ => by simp [rcv],fun _ => by simp [rcv],complete rfl,kept⟩
    simp [heard,current,next]
  · obtain ⟨-,bound,current⟩ := hears.rcv rcv
    refine ⟨line,by simp,by simp,by simp,
      fun _ => ⟨s.ucMasterRTURcvBuf.slice 0 s.usMasterRcvBufferPos ++ [byte],?_,?_⟩,by simp,by simp,complete rfl,kept⟩
    · simp [heard,current]
    · have length := s.ucMasterRTURcvBuf.slice_length 0 s.usMasterRcvBufferPos (by omega)
      have long : 256 ≤ s.usMasterRcvBufferPos := full
      simp [length]
      omega

/-- With an idle receiver and no frame in the queue only the frames heard and
    placed matter. -/
theorem hears_free {s : Serial} {past : List Event} (line : LineState s) (idle : s.eRcvState = .rxIdle)
    (free : ¬ FramePending s) (quiet : (reception past).current = some [])
    (complete : placed past = (reception past).frames.filter uplinked)
    (kept : ∀ event ∈ past, ¬ Overwrites event) : Hears s past := by
  refine ⟨line,?_,fun _ => quiet,?_,?_,?_,?_,⟨fun busy => absurd busy free,fun _ => complete⟩,kept⟩
  · simp [idle]
  · simp [idle]
  · simp [idle]
  · exact fun received => absurd (.inl received) free
  · exact fun execute => absurd (.inr execute) free
theorem reception_gap (past : List Event) : reception (past ++ [Event.gap]) = ⟨some [],(reception past).closed⟩ := by
  simp [Reception.hear]
theorem closed_none {r : Reception} (before : r.current = none) : r.closed = r.frames := by
  simp [Reception.closed,before]
theorem closed_empty {r : Reception} (silent : r.current = some []) : r.closed = r.frames := by
  simp [Reception.closed,silent]
theorem closed_frame {r : Reception} {frame : List UInt8} (current : r.current = some frame) (some : 0 < frame.length) :
    r.closed = r.frames ++ [frame] := by
  cases frame with
  | nil => simp at some
  | cons byte rest => simp [Reception.closed,current]
theorem reception_gap_posted (past : List Event) (event : EMBMasterEventType) (lost : Option EMBMasterEventType) :
    reception (past ++ [Event.gap,.posted event lost]) = reception (past ++ [Event.gap]) := by
  simp [reception,List.foldl_append,Reception.hear]
theorem Hears.expire {s : Serial} {past : List Event} (hears : Hears s past) (clear : UplinkClear s .timerExpired) :
    Hears (xMBMasterRTUTimerExpired s).1 (past ++ (xMBMasterRTUTimerExpired s).2) := by
  have line := hears.line.expire
  have unplaced (event : EMBMasterEventType) : placed (past ++ [Event.gap,.posted event s.queued]) = placed past := by
    simp [placed]
  have kept (free : ¬ FramePending s) (event : EMBMasterEventType) :
      ∀ e ∈ past ++ [Event.gap,.posted event s.queued], ¬ Overwrites e :=
    List.forall_mem_append.mpr ⟨hears.kept,by simpa [Overwrites,FramePending] using free⟩
  have keptGap : ∀ e ∈ past ++ [Event.gap], ¬ Overwrites e :=
    List.forall_mem_append.mpr ⟨hears.kept,by simp [Overwrites]⟩
  obtain ⟨event,known,same⟩ | ⟨quiet,same⟩ := expired_cases hears.line.silent <;> rw [same] at line ⊢
  · rcases known with ⟨rfl,init⟩ | ⟨rfl,rcv⟩ | ⟨rfl,idle,xfwr⟩
    · have free : ¬ FramePending s := fun busy => by simpa [init] using (clear busy).1
      refine hears_free line rfl (by simp [FramePending,Serial.queued]) ?_ ?_ (kept free _)
      · rw [reception_gap_posted,reception_gap]
      · rw [reception_gap_posted,reception_gap,unplaced,closed_none (hears.init init)]
        exact hears.complete.2 free
    · have free : ¬ FramePending s := fun busy => by simpa [rcv] using (clear busy).1
      obtain ⟨positive,bound,current⟩ := hears.rcv rcv
      have length := s.ucMasterRTURcvBuf.slice_length 0 s.usMasterRcvBufferPos (by omega)
      have heard : reception (past ++ [Event.gap,.posted .evMasterFrameReceived s.queued]) =
          ⟨some [],(reception past).frames ++ [s.ucMasterRTURcvBuf.slice 0 s.usMasterRcvBufferPos]⟩ := by
        rw [reception_gap_posted,reception_gap,closed_frame current (by omega)]
      refine ⟨line,by simp,fun _ => by rw [heard],by simp,by simp,fun _ _ => ⟨bound,by simp [heard]⟩,?_,
        ⟨fun _ => ?_,?_⟩,kept free _⟩
      · simp [Serial.queued]
      · rw [heard,unplaced]
        simpa using hears.complete.2 free
      · simp [FramePending,Serial.queued]
    · have free : ¬ FramePending s := fun busy => (clear busy).2 xfwr
      refine hears_free line rfl (by simp [FramePending,Serial.queued]) ?_ ?_ (kept free _)
      · rw [reception_gap_posted,reception_gap]
      · rw [reception_gap_posted,reception_gap,unplaced,closed_empty (hears.idle idle)]
        exact hears.complete.2 free
  · rcases quiet with error | idle
    · have free : ¬ FramePending s := fun busy => by simpa [error] using (clear busy).1
      obtain ⟨bytes,current,long⟩ := hears.error error
      have skipped : uplinked bytes = false := by
        simp only [uplinked,decide_eq_false_iff_not]
        omega
      refine hears_free line rfl free ?_ ?_ keptGap
      · rw [reception_gap]
      · rw [reception_gap,closed_frame current (by omega)]
        simpa [skipped,placed] using hears.complete.2 free
    · have heard : reception (past ++ [Event.gap]) = reception past := by
        rw [reception_gap,closed_empty (hears.idle idle),← hears.idle idle]
      refine ⟨line,by simp,?_,by simp,by simp,?_,?_,?_,keptGap⟩
      · intro _
        rw [heard,hears.idle idle]
      · intro received _
        rw [heard]
        exact hears.latest received idle
      · intro execute _
        rw [heard]
        exact hears.latched execute idle
      · exact hears.complete.same rfl (by rw [heard]) (by simp [placed])

@[simp] theorem uplinkHeader_length (uid : Block UInt8 19) : (uplinkHeader uid).length = 13 := rfl
@[simp] theorem uplinkTrailer_length : uplinkTrailer.length = 5 := rfl
theorem uplinkFrame_length (uid : Block UInt8 19) (payload : List UInt8) :
    (uplinkFrame uid payload).length = payload.length + 18 := by
  simp [uplinkFrame]
  omega
/-- The payload of an uplink frame is read back behind the header, also when the
    trailer is cut. -/
theorem uplinkFrame_payload (b : Block UInt8 256) (uid : Block UInt8 19) (payload : List UInt8)
    (fits : payload.length ≤ 243) : (b.copy (uplinkFrame uid payload)).slice 13 payload.length = payload := by
  rw [Block.slice_copy_part _ _ _ _ (by omega) (by rw [uplinkFrame_length]; omega)]
  have behind : (uplinkFrame uid payload).drop 13 = payload ++ uplinkTrailer := by
    rw [uplinkFrame,List.append_assoc,← uplinkHeader_length uid,List.drop_left]
  rw [behind,List.take_left]
theorem frame_length {s : Serial} (bound : s.usLength ≤ 256) (source : s.ucMBFrame = .rcvBuf) :
    s.frame.length = s.usLength := by
  simp [Serial.frame,source,s.ucMasterRTURcvBuf.slice_length 0 s.usLength (by omega)]
theorem Hears.execute {s : Serial} {past : List Event} (hears : Hears s past) (execute : s.queued = some .evMasterExecute)
    (line : LineState (executeFrame { s with xMasterEventInQueue := false }).1)
    (idle : s.eRcvState = .rxIdle) (fits : s.usLength ≤ 243 ∨ 256 ≤ s.usLength) :
    Hears (executeFrame { s with xMasterEventInQueue := false }).1
      (past ++ (executeFrame { s with xMasterEventInQueue := false }).2) := by
  obtain ⟨enough,bound,source,last⟩ := hears.latched execute idle
  have before := hears.complete.1 (.inr execute)
  have frame : s.frame = s.ucMasterRTURcvBuf.slice 0 s.usLength := by simp [Serial.frame,source]
  have length := frame_length bound source
  rw [← frame] at last
  have split := List.dropLast_append_getLast? s.frame last
  by_cases short : s.usLength < 256
  · have payload := uplinkFrame_payload s.mb2TcpBuff s.uidStm32 s.frame (by omega)
    have admitted : uplinked s.frame = true := by
      simp only [uplinked,decide_eq_true_eq,length]
      exact ⟨enough,short⟩
    have same : executeFrame { s with xMasterEventInQueue := false } =
        ({ s with xMasterEventInQueue := false, mb2TcpBuff := s.mb2TcpBuff.copy (uplinkFrame s.uidStm32 s.frame),
                  mb2TcpLenth := UInt32.ofNat (s.usLength + 18) },
          [.access ⟨.mb2TcpBuff,0,s.usLength + 18⟩,.uplink s.frame]) := by
      rw [length] at payload
      simp only [executeFrame,short,if_true]
      simp [Serial.frame] at payload ⊢
      exact payload
    rw [same] at line ⊢
    have heard : reception (past ++ [Event.access ⟨.mb2TcpBuff,0,s.usLength + 18⟩,.uplink s.frame]) = reception past := by
      simp [reception,List.foldl_append,Reception.hear]
    have kept : ∀ e ∈ past ++ [Event.access ⟨.mb2TcpBuff,0,s.usLength + 18⟩,.uplink s.frame], ¬ Overwrites e :=
      List.forall_mem_append.mpr ⟨hears.kept,by simp [Overwrites]⟩
    refine hears_free line idle (by simp [FramePending]) ?_ ?_ kept
    · rw [heard,hears.idle idle]
    · rw [heard,← split,List.filter_append,← before]
      simp [placed,admitted]
  · have skipped : uplinked s.frame = false := by
      simp only [uplinked,decide_eq_false_iff_not,length]
      omega
    have same : executeFrame { s with xMasterEventInQueue := false } = ({ s with xMasterEventInQueue := false },[]) := by
      simp [executeFrame,short]
    rw [same] at line ⊢
    simp only [List.append_nil]
    refine hears_free line idle (by simp [FramePending]) (hears.idle idle) ?_ hears.kept
    rw [← split,List.filter_append,← before]
    simp [skipped]
theorem Hears.poll {s : Serial} {past : List Event} (hears : Hears s past) (clear : UplinkClear s .masterPoll) :
    Hears (eMBMasterPoll s).1 (past ++ (eMBMasterPoll s).2) := by
  have line := hears.line.poll
  obtain ⟨-,same⟩ | ⟨-,received,enough,same⟩ | ⟨-,received,short,same⟩ | ⟨-,execute,same⟩ | ⟨-,other,busy,same⟩ :=
    poll_cases hears.line.unasked <;> rw [same] at line ⊢
  · simpa using hears
  · have pending : FramePending s := .inl received
    have idle := (clear pending).1
    obtain ⟨bound,last⟩ := hears.latest received idle
    have heard : reception (past ++ [Event.posted .evMasterExecute none]) = reception past := by simp [Reception.hear]
    refine ⟨line,?_,?_,?_,?_,?_,fun _ _ => ⟨enough,bound,rfl,?_⟩,⟨?_,?_⟩,?_⟩
    · simp [idle]
    · intro _
      rw [heard,hears.idle idle]
    · simp [idle]
    · simp [idle]
    · simp [Serial.queued]
    · rw [heard,last]
    · intro _
      rw [heard]
      simpa [placed] using hears.complete.1 pending
    · intro free
      simp [FramePending,Serial.queued] at free
    · exact List.forall_mem_append.mpr ⟨hears.kept,by simp [Overwrites]⟩
  · have pending : FramePending s := .inl received
    have idle := (clear pending).1
    obtain ⟨bound,last⟩ := hears.latest received idle
    have heard : reception (past ++ [Event.posted .evMasterErrorProcess none]) = reception past := by simp [Reception.hear]
    have skipped : uplinked (s.ucMasterRTURcvBuf.slice 0 s.usMasterRcvBufferPos) = false := by
      have length := s.ucMasterRTURcvBuf.slice_length 0 s.usMasterRcvBufferPos (by omega)
      simp only [uplinked,length,decide_eq_false_iff_not]
      omega
    have split := List.dropLast_append_getLast? _ last
    refine hears_free line idle (by simp [FramePending,Serial.queued]) ?_ ?_ ?_
    · rw [heard,hears.idle idle]
    · rw [heard,← split]
      simpa [placed,skipped] using hears.complete.1 pending
    · exact List.forall_mem_append.mpr ⟨hears.kept,by simp [Overwrites]⟩
  · obtain ⟨idle,fits⟩ := clear (.inr execute)
    exact hears.execute execute line idle (fits execute)
  · have free : ¬ FramePending s := by
      rcases other with ready | error
      · simp [FramePending,ready]
      · simp [FramePending,error]
    simp only [List.append_nil]
    refine ⟨line,hears.init,hears.idle,hears.rcv,hears.error,?_,?_,⟨?_,fun _ => hears.complete.2 free⟩,hears.kept⟩
    · simp
    · simp
    · simp [FramePending]

theorem Hears.step {s : Serial} {past : List Event} (hears : Hears s past) {i : SerialInput} (can : serial.enabled s i)
    (clear : UplinkClear s i) : Hears (serial.step s i).1 (past ++ (serial.step s i).2) := by
  cases i with
  | masterSend payload => exact hears.send payload
  | txEmpty => exact hears.transmit
  | byteReceived byte => exact hears.receive can byte
  | timerExpired => exact hears.expire clear
  | masterPoll => exact hears.poll clear
theorem Hears.integrity {s : Serial} {past : List Event} (hears : Hears s past) : UplinkIntegrity past := by
  refine ⟨?_,hears.kept⟩
  by_cases pending : FramePending s
  · rw [hears.complete.1 pending]
    exact List.filter_sublist.trans (List.dropLast_sublist _)
  · rw [hears.complete.2 pending]
    exact List.filter_sublist

/-- While every frame is polled out before the line is heard again, the uplink
    places received frames, in order and once each, and misses none. -/
theorem uplink_integrity (inputs : List SerialInput) (admissible : serial.Admissible started inputs)
    (clear : serial.Each UplinkClear started inputs) :
    serial.Throughout (fun s past => UplinkIntegrity past ∧ UplinkComplete s past) started [] inputs := by
  have both := Machine.each_and.mpr ⟨admissible,clear⟩
  have kept := Machine.throughout_run (R := Hears) (fun _ _ _ hears can => hears.step can.1 can.2) started_hears both
  exact kept.mono fun _ _ hears => ⟨hears.integrity,hears.complete⟩
theorem uplink_integrity_one_frame :
    serial.Throughout (fun s past => UplinkIntegrity past ∧ UplinkComplete s past) started []
      [.timerExpired,.masterPoll,.byteReceived 1,.byteReceived 2,.byteReceived 3,.byteReceived 4,
        .timerExpired,.masterPoll,.masterPoll] :=
  uplink_integrity _ (by decide) (by decide)
/-- A byte that comes between the two polls of a frame gets into the frame. -/
theorem uplink_integrity_fails :
    serial.Admissible started [.timerExpired,.masterPoll,.byteReceived 1,.byteReceived 2,.byteReceived 3,
        .byteReceived 4,.timerExpired,.masterPoll,.byteReceived 9,.masterPoll] ∧
      ¬ UplinkIntegrity (serial.trace started [.timerExpired,.masterPoll,.byteReceived 1,.byteReceived 2,
        .byteReceived 3,.byteReceived 4,.timerExpired,.masterPoll,.byteReceived 9,.masterPoll]) := by
  decide

end Net2Modbus
