import Net2Modbus.Line

/-!
# The line under sends of any length

`eMBMasterRTUSend` and `Master_Send` with whatever address, bytes and length they
are called with, between the interrupts in any order. The receiver keeps the
bytes since the last expiry and no frame that is too long; the transceiver comes
back to receive mode after as many interrupts as there are bytes left, and one.
-/
namespace Net2Modbus

/-- What can happen to the state machines of the line. A send may have any length:
    `Master_Send` takes an `int`, `eMBMasterRTUSend` 16 bits. -/
inductive LineInput
  | rtuSend (ucSlaveAddress : UInt8) (usLength : UInt16)
  | masterSend (slaveAddr : UInt8) (data : List UInt8) (len : Int)
  | txEmpty
  | byteReceived (byte : UInt8)
  | timerExpired
  | masterPoll
  deriving DecidableEq, Repr

namespace LineInput

def IsSend : LineInput → Prop
  | .rtuSend _ _ | .masterSend _ _ _ => True
  | _ => False
/-- The byte that an input brings in. -/
def byte : LineInput → Option UInt8
  | .byteReceived byte => some byte
  | _ => none

instance (i : LineInput) : Decidable i.IsSend :=
  match i with
  | .rtuSend _ _ | .masterSend _ _ _ => isTrue trivial
  | .txEmpty | .byteReceived _ | .timerExpired | .masterPoll => isFalse id

end LineInput

/-- The line with its handlers. A byte is taken only while the receive interrupt
    is enabled; nothing else is asked, so that an interrupt may also come late. -/
def rtuLine : Machine Serial LineInput Event where
  enabled s
    | .byteReceived _ => s.rxneEnabled = true
    | _ => True
  step s
    | .rtuSend ucSlaveAddress usLength =>
      let sent := eMBMasterRTUSend ucSlaveAddress usLength.toNat s
      (sent.1,sent.2.1)
    | .masterSend slaveAddr data len => masterSend slaveAddr data len s
    | .txEmpty => xMBMasterRTUTransmitFSM s
    | .byteReceived byte => xMBMasterRTUReceiveFSM byte s
    | .timerExpired => xMBMasterRTUTimerExpired s
    | .masterPoll => eMBMasterPoll s

instance (s : Serial) (i : LineInput) : Decidable (rtuLine.enabled s i) :=
  match i with
  | .byteReceived _ => inferInstanceAs (Decidable (_ = _))
  | .rtuSend _ _ | .masterSend _ _ _ | .txEmpty | .timerExpired | .masterPoll => isTrue trivial

/-- The bytes received since the last expiry. -/
def sinceExpiry (inputs : List LineInput) : List UInt8 :=
  inputs.foldl (fun bytes i => if i = .timerExpired then [] else bytes ++ i.byte.toList) []

@[simp] theorem sinceExpiry_nil : sinceExpiry [] = [] := rfl
@[simp] theorem sinceExpiry_snoc (inputs : List LineInput) (i : LineInput) :
    sinceExpiry (inputs ++ [i]) = if i = .timerExpired then [] else sinceExpiry inputs ++ i.byte.toList := by
  simp [sinceExpiry,List.foldl_append]
/-- A stretch without an expiry adds all of its bytes. -/
theorem sinceExpiry_append {front run : List LineInput} (unexpired : .timerExpired ∉ run) :
    sinceExpiry (front ++ run) = sinceExpiry front ++ run.filterMap LineInput.byte := by
  induction run using List.reverseRecOn with
  | nil => simp
  | append_singleton run i ih =>
    rw [List.mem_append,not_or,List.mem_singleton] at unexpired
    rw [← List.append_assoc,sinceExpiry_snoc,if_neg (Ne.symm unexpired.2),ih unexpired.1,List.append_assoc,
      List.filterMap_append]
    cases byte : i.byte <;> simp [byte]

/-- Receiver, sender, interrupt enables and the direction of the transceiver. -/
structure HalfDuplex (s : Serial) : Prop where
  opposite : s.txeEnabled = !s.rxneEnabled
  direction : s.rs485Send = !s.rxneEnabled
  listening : s.eRcvState ≠ .rxIdle → s.rxneEnabled = true
  silent : s.eRcvState ≠ .rxIdle → s.eSndState = .txIdle
  driving : s.eSndState = .txXmit → s.rxneEnabled = false
  answered : s.eSndState = .txXfwr → s.rxneEnabled = true
  unasked : s.eMasterQueuedEvent ≠ .evMasterFrameSent

theorem started_halfDuplex : HalfDuplex started := by
  constructor <;> decide

/-- A send starts the transmitter when the receiver is idle; otherwise it leaves
    both state machines alone. -/
inductive Sends (s s' : Serial) (events : List Event) : Prop
  | kept (buf : Block UInt8 253) : s' = { s with ucMasterRTUSndBuf := buf } →
      (∀ e ∈ events, ∃ frame, e = .refused frame) → Sends s s' events
  | started (buf : Block UInt8 253) (count : Nat) (frame : List UInt8) : s.eRcvState = .rxIdle →
      s' = { s with
        ucMasterRTUSndBuf := buf, pucMasterSndBufferCur := 0, usMasterSndBufferCount := count, eSndState := .txXmit,
        rs485Send := true, rxneEnabled := false, txeEnabled := true } → events = [.accepted frame] → Sends s s' events

theorem rtuSend_sends (ucSlaveAddress : UInt8) (usLength : Nat) (s : Serial) (buf : Block UInt8 253) :
    Sends s (eMBMasterRTUSend ucSlaveAddress usLength { s with ucMasterRTUSndBuf := buf }).1
      (eMBMasterRTUSend ucSlaveAddress usLength { s with ucMasterRTUSndBuf := buf }).2.1 := by
  unfold eMBMasterRTUSend
  by_cases other : mbMasterTotalSlaveNum < ucSlaveAddress
  · rw [if_pos other]
    exact .kept buf rfl (List.forall_mem_nil _)
  · rw [if_neg other]
    by_cases idle : s.eRcvState = .rxIdle
    · rw [if_pos idle]
      exact .started buf usLength (buf.slice 0 usLength) idle rfl rfl
    · rw [if_neg idle]
      exact .kept buf rfl (by simp)
theorem masterSend_sends (slaveAddr : UInt8) (data : List UInt8) (len : Int) (s : Serial) :
    Sends s (masterSend slaveAddr data len s).1 (masterSend slaveAddr data len s).2 := by
  unfold masterSend
  by_cases long : (mbPduSizeMax : Int) < len
  · rw [if_pos long]
    exact .kept s.ucMasterRTUSndBuf rfl (List.forall_mem_nil _)
  · rw [if_neg long]
    exact rtuSend_sends ..
/-- The two ways to send are one kind of step. -/
theorem rtuLine_sends {s : Serial} {i : LineInput} (send : i.IsSend) :
    Sends s (rtuLine.step s i).1 (rtuLine.step s i).2 := by
  cases i with
  | rtuSend ucSlaveAddress usLength => exact rtuSend_sends ucSlaveAddress usLength.toNat s s.ucMasterRTUSndBuf
  | masterSend slaveAddr data len => exact masterSend_sends slaveAddr data len s
  | txEmpty | byteReceived _ | timerExpired | masterPoll => exact absurd send id

namespace HalfDuplex
variable {s : Serial}

theorem idle_of_xmit (duplex : HalfDuplex s) (xmit : s.eSndState = .txXmit) : s.eRcvState = .rxIdle := by
  by_contra busy
  rw [duplex.silent busy] at xmit
  contradiction

theorem send {s' : Serial} {events : List Event} (duplex : HalfDuplex s) (sends : Sends s s' events) : HalfDuplex s' := by
  obtain ⟨opposite,direction,listening,silent,driving,answered,unasked⟩ := duplex
  cases sends with
  | kept buf same refused =>
    subst same
    exact ⟨opposite,direction,listening,silent,driving,answered,unasked⟩
  | started buf count frame idle same accepted =>
    subst same
    constructor
    · rfl
    · rfl
    · intro busy
      exact absurd idle busy
    · intro busy
      exact absurd idle busy
    · intro _
      rfl
    · intro xfwr
      cases xfwr
    · exact unasked
theorem transmit (duplex : HalfDuplex s) : HalfDuplex (xMBMasterRTUTransmitFSM s).1 := by
  have quiet := duplex.idle_of_xmit
  obtain ⟨opposite,direction,listening,silent,driving,answered,unasked⟩ := duplex
  obtain ⟨idle,same⟩ | ⟨xmit,left,same⟩ | ⟨xmit,done,broadcast,mode,same⟩ | ⟨xfwr,same⟩ := transmit_cases s <;> rw [same]
  · refine ⟨rfl,rfl,fun _ => rfl,silent,?_,fun _ => rfl,unasked⟩
    intro (xmit : s.eSndState = .txXmit)
    rw [idle] at xmit
    contradiction
  · exact ⟨opposite,direction,listening,silent,driving,answered,unasked⟩
  · refine ⟨rfl,rfl,fun _ => rfl,?_,?_,fun _ => rfl,unasked⟩
    · intro busy
      exact absurd (quiet xmit) busy
    · intro xmit
      cases xmit
  · exact ⟨opposite,direction,listening,silent,driving,answered,unasked⟩
theorem receive (duplex : HalfDuplex s) (rxne : s.rxneEnabled = true) (byte : UInt8) :
    HalfDuplex (xMBMasterRTUReceiveFSM byte s).1 := by
  obtain ⟨opposite,direction,listening,silent,driving,answered,unasked⟩ := duplex
  obtain ⟨-,same⟩ | ⟨idle,same⟩ | ⟨rcv,room,same⟩ | ⟨rcv,full,same⟩ := receive_cases byte s <;> rw [same]
  · exact ⟨opposite,direction,listening,silent,driving,answered,unasked⟩
  · refine ⟨opposite,direction,fun _ => rxne,fun _ => rfl,?_,fun _ => rxne,unasked⟩
    intro xmit
    cases xmit
  · exact ⟨opposite,direction,listening,silent,driving,answered,unasked⟩
  · refine ⟨opposite,direction,fun _ => rxne,?_,driving,answered,unasked⟩
    intro _
    exact silent (by simp [rcv])
theorem expire (duplex : HalfDuplex s) : HalfDuplex (xMBMasterRTUTimerExpired s).1 := by
  obtain ⟨event,known,same⟩ | ⟨-,same⟩ := expired_cases duplex.silent <;> rw [same]
  · refine ⟨duplex.opposite,duplex.direction,?_,fun _ => rfl,?_,?_,?_⟩
    · intro busy
      exact absurd rfl busy
    · intro xmit
      cases xmit
    · intro xfwr
      cases xfwr
    · rintro rfl
      simp at known
  · refine ⟨duplex.opposite,duplex.direction,?_,fun _ => rfl,?_,?_,duplex.unasked⟩
    · intro busy
      exact absurd rfl busy
    · intro xmit
      cases xmit
    · intro xfwr
      cases xfwr
theorem poll (duplex : HalfDuplex s) : HalfDuplex (eMBMasterPoll s).1 := by
  obtain ⟨opposite,direction,listening,silent,driving,answered,unasked⟩ := duplex
  obtain ⟨-,same⟩ | ⟨-,-,-,same⟩ | ⟨-,-,-,same⟩ | ⟨-,-,same⟩ | ⟨-,-,busy,same⟩ := poll_cases unasked <;> rw [same]
  · exact ⟨opposite,direction,listening,silent,driving,answered,unasked⟩
  · refine ⟨opposite,direction,listening,silent,driving,answered,?_⟩
    intro sent
    cases sent
  · refine ⟨opposite,direction,listening,silent,driving,answered,?_⟩
    intro sent
    cases sent
  · unfold executeFrame
    split <;> exact ⟨opposite,direction,listening,silent,driving,answered,unasked⟩
  · exact ⟨opposite,direction,listening,silent,driving,answered,unasked⟩
theorem step (duplex : HalfDuplex s) {i : LineInput} (can : rtuLine.enabled s i) : HalfDuplex (rtuLine.step s i).1 := by
  by_cases sends : i.IsSend
  · exact duplex.send (rtuLine_sends sends)
  · cases i with
    | rtuSend _ _ | masterSend _ _ _ => exact absurd trivial sends
    | txEmpty => exact duplex.transmit
    | byteReceived byte => exact duplex.receive can byte
    | timerExpired => exact duplex.expire
    | masterPoll => exact duplex.poll
/-- The coupling holds in every state that a run from the started line reaches. -/
theorem run {inputs : List LineInput} (duplex : HalfDuplex s) (admissible : rtuLine.Admissible s inputs) :
    HalfDuplex (rtuLine.after s inputs) :=
  Machine.invariant_run (fun _ _ duplex can => duplex.step can) duplex admissible

end HalfDuplex

/-- The receiver against the bytes since the last expiry. -/
structure Holds (s : Serial) (bytes : List UInt8) : Prop where
  duplex : HalfDuplex s
  bound : s.usMasterRcvBufferPos ≤ mbSerPduSizeMax
  idle : s.eRcvState = .rxIdle → bytes = []
  rcv : s.eRcvState = .rxRcv → 0 < s.usMasterRcvBufferPos ∧
    s.ucMasterRTURcvBuf.slice 0 s.usMasterRcvBufferPos = bytes
  error : s.eRcvState = .rxError → mbSerPduSizeMax < bytes.length

theorem started_holds : Holds started [] := by
  refine ⟨started_halfDuplex,?_,?_,?_,?_⟩ <;> decide

namespace Holds
variable {s s' : Serial} {bytes : List UInt8}

/-- A step that leaves the receiver alone. -/
theorem frame (holds : Holds s bytes) (duplex : HalfDuplex s') (state : s'.eRcvState = s.eRcvState)
    (buffer : s'.ucMasterRTURcvBuf = s.ucMasterRTURcvBuf) (pos : s'.usMasterRcvBufferPos = s.usMasterRcvBufferPos) :
    Holds s' bytes := by
  obtain ⟨-,bound,idle,rcv,error⟩ := holds
  constructor
  · exact duplex
  · rwa [pos]
  · rwa [state]
  · rwa [state,buffer,pos]
  · rwa [state]
theorem send {events : List Event} (holds : Holds s bytes) (sends : Sends s s' events) : Holds s' bytes := by
  have duplex := holds.duplex.send sends
  cases sends with
  | kept buf same refused =>
    subst same
    exact holds.frame duplex rfl rfl rfl
  | started buf count frame idle same accepted =>
    subst same
    exact holds.frame duplex rfl rfl rfl
theorem transmit (holds : Holds s bytes) : Holds (xMBMasterRTUTransmitFSM s).1 bytes := by
  have duplex := holds.duplex.transmit
  obtain ⟨-,same⟩ | ⟨-,-,same⟩ | ⟨-,-,broadcast,mode,same⟩ | ⟨-,same⟩ := transmit_cases s <;> rw [same] at duplex ⊢
  · exact holds.frame duplex rfl rfl rfl
  · exact holds.frame duplex rfl rfl rfl
  · exact holds.frame duplex rfl rfl rfl
  · exact holds
theorem receive (holds : Holds s bytes) (rxne : s.rxneEnabled = true) (byte : UInt8) :
    Holds (xMBMasterRTUReceiveFSM byte s).1 (bytes ++ [byte]) := by
  have duplex := holds.duplex.receive rxne byte
  obtain ⟨quiet,same⟩ | ⟨idle,same⟩ | ⟨rcv,room,same⟩ | ⟨rcv,full,same⟩ := receive_cases byte s <;>
    rw [same] at duplex ⊢
  · refine ⟨duplex,holds.bound,?_,?_,?_⟩
    · intro (idle : s.eRcvState = .rxIdle)
      simp [idle] at quiet
    · intro (rcv : s.eRcvState = .rxRcv)
      simp [rcv] at quiet
    · intro (error : s.eRcvState = .rxError)
      have long := holds.error error
      rw [List.length_append]
      omega
  · have first : (s.ucMasterRTURcvBuf.poke 0 byte).slice 0 1 = [byte] := by
      simpa using Block.slice_poke_next s.ucMasterRTURcvBuf (i := 0) byte (by decide)
    refine ⟨duplex,?_,?_,?_,?_⟩
    · exact Nat.le_add_left 1 255
    · intro idle
      cases idle
    · intro _
      rw [holds.idle idle]
      exact ⟨Nat.one_pos,first⟩
    · intro error
      cases error
  · obtain ⟨-,held⟩ := holds.rcv rcv
    have next := Block.slice_poke_next s.ucMasterRTURcvBuf byte room
    refine ⟨duplex,room,?_,?_,?_⟩
    · intro (idle : s.eRcvState = .rxIdle)
      simp [rcv] at idle
    · intro _
      exact ⟨Nat.succ_pos _,by rw [next,held]⟩
    · intro (error : s.eRcvState = .rxError)
      simp [rcv] at error
  · obtain ⟨-,held⟩ := holds.rcv rcv
    have length := s.ucMasterRTURcvBuf.slice_length 0 s.usMasterRcvBufferPos ((Nat.zero_add _).trans_le holds.bound)
    refine ⟨duplex,holds.bound,?_,?_,?_⟩
    · intro idle
      cases idle
    · intro rcv
      cases rcv
    · intro _
      rw [held] at length
      rw [List.length_append,length,List.length_singleton]
      exact Nat.lt_succ_of_le full
theorem expire (holds : Holds s bytes) : Holds (xMBMasterRTUTimerExpired s).1 [] := by
  have duplex := holds.duplex.expire
  obtain ⟨event,-,same⟩ | ⟨-,same⟩ := expired_cases holds.duplex.silent <;> rw [same] at duplex ⊢
  · refine ⟨duplex,holds.bound,fun _ => rfl,?_,?_⟩
    · intro rcv
      cases rcv
    · intro error
      cases error
  · refine ⟨duplex,holds.bound,fun _ => rfl,?_,?_⟩
    · intro rcv
      cases rcv
    · intro error
      cases error
theorem poll (holds : Holds s bytes) : Holds (eMBMasterPoll s).1 bytes := by
  have duplex := holds.duplex.poll
  obtain ⟨-,same⟩ | ⟨-,-,-,same⟩ | ⟨-,-,-,same⟩ | ⟨-,-,same⟩ | ⟨-,-,busy,same⟩ := poll_cases holds.duplex.unasked <;>
    rw [same] at duplex ⊢
  · exact holds
  · exact holds.frame duplex rfl rfl rfl
  · exact holds.frame duplex rfl rfl rfl
  · refine holds.frame duplex ?_ ?_ ?_ <;> (unfold executeFrame; split <;> rfl)
  · exact holds.frame duplex rfl rfl rfl
theorem step {before : List LineInput} (holds : Holds s (sinceExpiry before)) {i : LineInput}
    (can : rtuLine.enabled s i) : Holds (rtuLine.step s i).1 (sinceExpiry (before ++ [i])) := by
  rw [sinceExpiry_snoc]
  by_cases sends : i.IsSend
  · have kept := holds.send (rtuLine_sends sends)
    cases i with
    | rtuSend _ _ | masterSend _ _ _ => simpa [LineInput.byte] using kept
    | txEmpty | byteReceived _ | timerExpired | masterPoll => exact absurd sends id
  · cases i with
    | rtuSend _ _ | masterSend _ _ _ => exact absurd trivial sends
    | txEmpty =>
      change Holds (xMBMasterRTUTransmitFSM s).1 _
      simpa [LineInput.byte] using holds.transmit
    | byteReceived byte => exact holds.receive can byte
    | timerExpired => exact holds.expire
    | masterPoll =>
      change Holds (eMBMasterPoll s).1 _
      simpa [LineInput.byte] using holds.poll
theorem run {before inputs : List LineInput} (holds : Holds s (sinceExpiry before))
    (admissible : rtuLine.Admissible s inputs) : Holds (rtuLine.after s inputs) (sinceExpiry (before ++ inputs)) :=
  Machine.history_run (R := fun before s _ => Holds s (sinceExpiry before)) (P := rtuLine.enabled)
    (fun _ _ _ _ holds can => holds.step can) before [] holds admissible

end Holds

/-- Only an expiry in the middle of a frame says that a frame was received. -/
theorem posts_received {s : Serial} (duplex : HalfDuplex s) {i : LineInput} {lost : Option EMBMasterEventType}
    (posted : .posted .evMasterFrameReceived lost ∈ (rtuLine.step s i).2) : i = .timerExpired ∧ s.eRcvState = .rxRcv := by
  by_cases sends : i.IsSend
  · cases rtuLine_sends (s := s) sends with
    | kept buf same refused =>
      obtain ⟨frame,wrong⟩ := refused _ posted
      cases wrong
    | started buf count frame idle same accepted =>
      rw [accepted] at posted
      simp at posted
  · cases i with
    | rtuSend _ _ | masterSend _ _ _ => exact absurd trivial sends
    | txEmpty =>
      have silent : (rtuLine.step s .txEmpty).2 = (xMBMasterRTUTransmitFSM s).2 := rfl
      obtain ⟨-,same⟩ | ⟨-,-,same⟩ | ⟨-,-,broadcast,mode,same⟩ | ⟨-,same⟩ := transmit_cases s <;>
        simp [silent,same] at posted
    | byteReceived byte =>
      have silent : (rtuLine.step s (.byteReceived byte)).2 = (xMBMasterRTUReceiveFSM byte s).2 := rfl
      obtain ⟨-,same⟩ | ⟨-,same⟩ | ⟨-,-,same⟩ | ⟨-,-,same⟩ := receive_cases byte s <;> simp [silent,same] at posted
    | timerExpired =>
      have expired : (rtuLine.step s .timerExpired).2 = (xMBMasterRTUTimerExpired s).2 := rfl
      obtain ⟨event,known,same⟩ | ⟨-,same⟩ := expired_cases duplex.silent
      · rw [expired,same] at posted
        have received : EMBMasterEventType.evMasterFrameReceived = event := by simpa using And.left (by simpa using posted)
        subst received
        simp at known
        exact ⟨rfl,known⟩
      · simp [expired,same] at posted
    | masterPoll =>
      have polled : (rtuLine.step s .masterPoll).2 = (eMBMasterPoll s).2 := rfl
      obtain ⟨-,same⟩ | ⟨-,-,-,same⟩ | ⟨-,-,-,same⟩ | ⟨-,-,same⟩ | ⟨-,-,busy,same⟩ := poll_cases duplex.unasked <;>
        rw [polled,same] at posted
      · simp at posted
      · simp at posted
      · simp at posted
      · unfold executeFrame at posted
        split at posted <;> simp at posted
      · simp at posted
/-- Without an expiry no frame is said to be received. -/
theorem unexpired_posts {s : Serial} {run : List LineInput} (duplex : HalfDuplex s)
    (admissible : rtuLine.Admissible s run) (unexpired : .timerExpired ∉ run) (lost : Option EMBMasterEventType) :
    .posted .evMasterFrameReceived lost ∉ rtuLine.trace s run := by
  induction run generalizing s with
  | nil => simp
  | cons i rest ih =>
    rw [List.mem_cons,not_or] at unexpired
    rw [Machine.trace_cons,List.mem_append,not_or]
    constructor
    · intro posted
      exact unexpired.1 (posts_received duplex posted).1.symm
    · exact ih (duplex.step admissible.1) admissible.2 unexpired.2

/-- The receive buffer is never overrun; in the middle of a frame it has the bytes
    since the last expiry and the sender is idle; and bytes that do not fit, with
    no expiry between them, are not said to be a frame when the line falls silent. -/
theorem receiver_invariant {inputs : List LineInput} (admissible : rtuLine.Admissible started inputs) :
    (rtuLine.after started inputs).usMasterRcvBufferPos ≤ mbSerPduSizeMax ∧
    ((rtuLine.after started inputs).eRcvState = .rxRcv →
      0 < (rtuLine.after started inputs).usMasterRcvBufferPos ∧
      (rtuLine.after started inputs).eSndState = .txIdle ∧
      (rtuLine.after started inputs).ucMasterRTURcvBuf.slice 0 (rtuLine.after started inputs).usMasterRcvBufferPos =
        sinceExpiry inputs) ∧
    (∀ front run, inputs = front ++ run → .timerExpired ∉ run → mbSerPduSizeMax < (run.filterMap LineInput.byte).length →
      ∀ lost, .posted .evMasterFrameReceived lost ∉
        rtuLine.trace (rtuLine.after started front) (run ++ [.timerExpired])) := by
  have holds : Holds (rtuLine.after started inputs) (sinceExpiry ([] ++ inputs)) := Holds.run started_holds admissible
  rw [List.nil_append] at holds
  refine ⟨holds.bound,?_,?_⟩
  · intro rcv
    obtain ⟨some,held⟩ := holds.rcv rcv
    exact ⟨some,holds.duplex.silent (by simp [rcv]),held⟩
  · rintro front run rfl unexpired long lost
    have each := Machine.each_append.mp admissible
    have before := started_halfDuplex.run each.1
    rw [Machine.trace_append,List.mem_append,not_or]
    constructor
    · exact unexpired_posts before each.2 unexpired lost
    · rw [Machine.trace_cons,Machine.trace_nil,List.append_nil,← Machine.after_append]
      intro posted
      have rcv := (posts_received holds.duplex posted).2
      obtain ⟨-,held⟩ := holds.rcv rcv
      have most := (rtuLine.after started (front ++ run)).ucMasterRTURcvBuf.slice_length_le 0
        (rtuLine.after started (front ++ run)).usMasterRcvBufferPos
      rw [held,sinceExpiry_append unexpired,List.length_append] at most
      have bound := holds.bound
      omega
theorem receiver_invariant_frame :
    (rtuLine.after started [.timerExpired,.byteReceived 7,.byteReceived 9]).ucMasterRTURcvBuf.slice 0 2 = [7,9] :=
  have admissible : rtuLine.Admissible started [.timerExpired,.byteReceived 7,.byteReceived 9] := by decide
  ((receiver_invariant admissible).2.1 (by decide)).2.2

/-! ### The way back to receive mode -/

/-- The receive interrupt is enabled and the transmitter is off. -/
def ReceiveMode (s : Serial) : Prop := s.rxneEnabled = true ∧ s.txeEnabled = false ∧ s.rs485Send = false

/-- The TX-empty interrupts that a line in send mode still takes. -/
def interruptsLeft (s : Serial) : Nat := if s.eSndState = .txXmit then s.usMasterSndBufferCount + 1 else 1

theorem interruptsLeft_le (s : Serial) : interruptsLeft s ≤ s.usMasterSndBufferCount + 1 := by
  unfold interruptsLeft
  split <;> omega
theorem interruptsLeft_same {s s' : Serial} (sender : s'.eSndState = s.eSndState)
    (count : s'.usMasterSndBufferCount = s.usMasterSndBufferCount) : interruptsLeft s' = interruptsLeft s := by
  rw [interruptsLeft,interruptsLeft,sender,count]
theorem one_le_interruptsLeft (s : Serial) : 1 ≤ interruptsLeft s := by
  unfold interruptsLeft
  split <;> omega

/-- A TX-empty interrupt in send mode brings the line one step closer. -/
theorem transmit_returns {s : Serial} (duplex : HalfDuplex s) (sending : s.rxneEnabled = false) :
    ReceiveMode (xMBMasterRTUTransmitFSM s).1 ∨
    (xMBMasterRTUTransmitFSM s).1.rxneEnabled = false ∧
      interruptsLeft (xMBMasterRTUTransmitFSM s).1 + 1 = interruptsLeft s := by
  obtain ⟨-,same⟩ | ⟨xmit,left,same⟩ | ⟨-,-,broadcast,mode,same⟩ | ⟨xfwr,same⟩ := transmit_cases s <;> rw [same]
  · exact .inl ⟨rfl,rfl,rfl⟩
  · refine .inr ⟨sending,?_⟩
    simp only [interruptsLeft,xmit,if_true]
    omega
  · exact .inl ⟨rfl,rfl,rfl⟩
  · have listening := duplex.answered xfwr
    rw [sending] at listening
    contradiction
/-- An expiry in send mode takes the rest of the frame away. -/
theorem expire_returns {s : Serial} (duplex : HalfDuplex s) (sending : s.rxneEnabled = false) :
    (xMBMasterRTUTimerExpired s).1.rxneEnabled = false ∧ interruptsLeft (xMBMasterRTUTimerExpired s).1 ≤ interruptsLeft s := by
  obtain ⟨event,-,same⟩ | ⟨-,same⟩ := expired_cases duplex.silent <;> rw [same]
  · exact ⟨sending,one_le_interruptsLeft s⟩
  · exact ⟨sending,one_le_interruptsLeft s⟩
theorem poll_returns {s : Serial} (duplex : HalfDuplex s) (sending : s.rxneEnabled = false) :
    (eMBMasterPoll s).1.rxneEnabled = false ∧ interruptsLeft (eMBMasterPoll s).1 = interruptsLeft s := by
  obtain ⟨-,same⟩ | ⟨-,-,-,same⟩ | ⟨-,-,-,same⟩ | ⟨-,-,same⟩ | ⟨-,-,busy,same⟩ := poll_cases duplex.unasked <;> rw [same]
  · exact ⟨sending,rfl⟩
  · exact ⟨sending,interruptsLeft_same rfl rfl⟩
  · exact ⟨sending,interruptsLeft_same rfl rfl⟩
  · unfold executeFrame
    split
    · exact ⟨sending,interruptsLeft_same rfl rfl⟩
    · exact ⟨sending,interruptsLeft_same rfl rfl⟩
  · exact ⟨sending,interruptsLeft_same rfl rfl⟩

/-- Without a send, as many TX-empty interrupts as are left bring the line back. -/
theorem returns_of_interrupts {s : Serial} {rest : List LineInput} (duplex : HalfDuplex s) (sending : s.rxneEnabled = false)
    (admissible : rtuLine.Admissible s rest) (unsent : ∀ i ∈ rest, ¬ i.IsSend)
    (enough : interruptsLeft s ≤ rest.count .txEmpty) :
    ∃ front back, rest = front ++ back ∧ front.count .txEmpty ≤ interruptsLeft s ∧ ReceiveMode (rtuLine.after s front) := by
  induction rest generalizing s with
  | nil =>
    have one := one_le_interruptsLeft s
    rw [List.count_nil] at enough
    omega
  | cons i rest ih =>
    rw [List.forall_mem_cons] at unsent
    have later := duplex.step admissible.1
    cases i with
    | rtuSend _ _ | masterSend _ _ _ => exact absurd trivial unsent.1
    | byteReceived byte =>
      have rxne : s.rxneEnabled = true := admissible.1
      rw [sending] at rxne
      contradiction
    | txEmpty =>
      rw [List.count_cons_self] at enough
      rcases transmit_returns duplex sending with arrived | ⟨still,closer⟩
      · exact ⟨[.txEmpty],rest,rfl,one_le_interruptsLeft s,arrived⟩
      · have fewer : interruptsLeft (rtuLine.step s .txEmpty).1 + 1 = interruptsLeft s := closer
        obtain ⟨front,back,split,few,arrived⟩ := ih later still admissible.2 unsent.2 (by omega)
        refine ⟨.txEmpty :: front,back,by rw [split,List.cons_append],?_,arrived⟩
        rw [List.count_cons_self]
        omega
    | timerExpired =>
      rw [List.count_cons_of_ne (by decide)] at enough
      obtain ⟨still,closer⟩ := expire_returns duplex sending
      have fewer : interruptsLeft (rtuLine.step s .timerExpired).1 ≤ interruptsLeft s := closer
      obtain ⟨front,back,split,few,arrived⟩ := ih later still admissible.2 unsent.2 (by omega)
      refine ⟨.timerExpired :: front,back,by rw [split,List.cons_append],?_,arrived⟩
      rw [List.count_cons_of_ne (by decide)]
      omega
    | masterPoll =>
      rw [List.count_cons_of_ne (by decide)] at enough
      obtain ⟨still,closer⟩ := poll_returns duplex sending
      have fewer : interruptsLeft (rtuLine.step s .masterPoll).1 = interruptsLeft s := closer
      obtain ⟨front,back,split,few,arrived⟩ := ih later still admissible.2 unsent.2 (by omega)
      refine ⟨.masterPoll :: front,back,by rw [split,List.cons_append],?_,arrived⟩
      rw [List.count_cons_of_ne (by decide)]
      omega

/-- While the receive interrupt is off the TX-empty interrupt is on, and each way on
    without a send is back in receive mode after the bytes left and one
    interrupt. -/
theorem line_returns {inputs : List LineInput} (admissible : rtuLine.Admissible started inputs)
    (sending : (rtuLine.after started inputs).rxneEnabled = false) :
    (rtuLine.after started inputs).txeEnabled = true ∧
    ∀ rest, rtuLine.Admissible (rtuLine.after started inputs) rest → (∀ i ∈ rest, ¬ i.IsSend) →
      (rtuLine.after started inputs).usMasterSndBufferCount + 1 ≤ rest.count .txEmpty →
      ∃ front back, rest = front ++ back ∧
        front.count .txEmpty ≤ (rtuLine.after started inputs).usMasterSndBufferCount + 1 ∧
        ReceiveMode (rtuLine.after (rtuLine.after started inputs) front) := by
  have duplex := started_halfDuplex.run admissible
  have most := interruptsLeft_le (rtuLine.after started inputs)
  constructor
  · rw [duplex.opposite,sending]
    rfl
  · intro rest later unsent enough
    obtain ⟨front,back,split,few,arrived⟩ := returns_of_interrupts duplex sending later unsent (most.trans enough)
    exact ⟨front,back,split,few.trans most,arrived⟩
theorem line_returns_bytes : ∃ front back, [LineInput.timerExpired,.txEmpty,.txEmpty,.txEmpty] = front ++ back ∧
    front.count .txEmpty ≤ 3 ∧
    ReceiveMode (rtuLine.after (rtuLine.after started [.timerExpired,.masterSend 6 [1,2] 2]) front) :=
  have admissible : rtuLine.Admissible started [.timerExpired,.masterSend 6 [1,2] 2] := by decide
  (line_returns admissible (by decide)).2
    [.timerExpired,.txEmpty,.txEmpty,.txEmpty] (by decide) (by decide) (by decide)

end Net2Modbus
