import Net2Modbus.Line

/-!
# The transmit side of the serial line

What `eMBMasterRTUSend` accepts is owed to the line until the transmit interrupt
has given its last byte to the USART. A frame is delivered whole exactly when no
other frame is accepted and no timer expires before that.
-/
namespace Net2Modbus

/-- The bytes of an accepted frame that are not yet on the line. -/
def Serial.unsent (s : Serial) : List UInt8 :=
  if s.eSndState = .txXmit then s.ucMasterRTUSndBuf.slice s.pucMasterSndBufferCur s.usMasterSndBufferCount else []

/-- The bytes asked for are those of accepted frames, the bytes delivered are
    those put on the line. -/
def transmitLedger : Ledger Serial Event UInt8 where
  due
    | .accepted frame => frame
    | _ => []
  paid
    | .put byte => [byte]
    | _ => []
  owed := Serial.unsent

/-- The transmit interrupt comes as often as bytes are left, and puts exactly
    these. -/
def Delivers (s : Serial) : Prop :=
  serial.Admissible s (List.replicate s.unsent.length .txEmpty) ∧
    serial.trace s (List.replicate s.unsent.length .txEmpty) = s.unsent.map .put

/-- At every point of a run the line has had the accepted frames, byte for byte
    and in order, but for the rest of the last one, which follows. -/
def TransmitIntegrity (inputs : List SerialInput) : Prop :=
  serial.Throughout (fun s past => transmitLedger.Balanced s past ∧ Delivers s) startedIdle [] inputs

/-- The sender is in `STATE_M_TX_XMIT` and has bytes left. -/
def Transmitting (s : Serial) : Prop := s.eSndState = .txXmit ∧ s.usMasterSndBufferCount ≠ 0

instance (s : Serial) : Decidable (Transmitting s) := inferInstanceAs (Decidable (_ ∧ _))

/-- No frame is accepted and no timer expires while bytes are left. -/
def SendClear (s : Serial) : SerialInput → Prop
  | .masterSend payload => payload.length ≤ mbPduSizeMax → s.eRcvState = .rxIdle → ¬ Transmitting s
  | .timerExpired => ¬ Transmitting s
  | _ => True

theorem unsent_of_not_transmitting {s : Serial} (clear : ¬ Transmitting s) : s.unsent = [] := by
  by_cases xmit : s.eSndState = .txXmit
  · have done : s.usMasterSndBufferCount = 0 := by
      by_contra left
      exact clear ⟨xmit,left⟩
    simp [Serial.unsent,done]
  · simp [Serial.unsent,xmit]
theorem unsent_of_not_xmit {s : Serial} (other : s.eSndState ≠ .txXmit) : s.unsent = [] :=
  unsent_of_not_transmitting fun busy => other busy.1
theorem unsent_length {s : Serial} (line : LineState s) (xmit : s.eSndState = .txXmit) :
    s.unsent.length = s.usMasterSndBufferCount := by
  simp [Serial.unsent,xmit,s.ucMasterRTUSndBuf.slice_length _ _ (line.inside xmit)]
/-- The transmit interrupt pays the first byte that is owed. -/
theorem transmit_exact {s : Serial} (line : LineState s) :
    transmitLedger.Exact s (xMBMasterRTUTransmitFSM s).1 (xMBMasterRTUTransmitFSM s).2 := by
  obtain ⟨idle,same⟩ | ⟨xmit,left,same⟩ | ⟨xmit,done,broadcast,mode,same⟩ | ⟨xfwr,same⟩ := transmit_cases s <;> rw [same]
  · simp [Ledger.Exact,transmitLedger,Serial.unsent,idle]
  · have bound := line.inside xmit
    obtain ⟨n,count⟩ := Nat.exists_eq_succ_of_ne_zero left
    have first : s.ucMasterRTUSndBuf.slice s.pucMasterSndBufferCur (n + 1) =
        s.ucMasterRTUSndBuf.peek s.pucMasterSndBufferCur ::
          s.ucMasterRTUSndBuf.slice (s.pucMasterSndBufferCur + 1) n := Block.slice_succ _ (by omega)
    simp [Ledger.Exact,transmitLedger,Serial.unsent,xmit,count,first]
  · simp [Ledger.Exact,transmitLedger,Serial.unsent,xmit,done]
  · simp [Ledger.Exact,transmitLedger]
theorem clear_exact {s : Serial} {i : SerialInput} (line : LineState s) (can : serial.enabled s i)
    (clear : SendClear s i) : transmitLedger.Exact s (serial.step s i).1 (serial.step s i).2 := by
  cases i with
  | masterSend payload =>
    simp only [serial,serialStep]
    obtain ⟨long,same⟩ | ⟨fits,busy,same⟩ | ⟨fits,idle,same⟩ := send_cases payload s <;> rw [same]
    · simp [Ledger.Exact,transmitLedger]
    · simp [Ledger.Exact,transmitLedger,Serial.unsent,line.silent busy]
    · have before := unsent_of_not_transmitting (clear fits idle)
      have fresh := s.ucMasterRTUSndBuf.slice_copy payload fits
      simp only [Ledger.Exact,transmitLedger,before]
      simp [Serial.unsent,fresh]
  | txEmpty => exact transmit_exact line
  | byteReceived byte =>
    have other := line.not_xmit can
    simp only [serial,serialStep]
    obtain ⟨-,same⟩ | ⟨-,same⟩ | ⟨-,-,same⟩ | ⟨-,-,same⟩ := receive_cases byte s <;> rw [same] <;>
      simp [Ledger.Exact,transmitLedger,Serial.unsent,other]
  | timerExpired =>
    have before := unsent_of_not_transmitting clear
    simp only [serial,serialStep]
    obtain ⟨event,-,same⟩ | ⟨-,same⟩ := expired_cases line.silent <;> rw [same] <;>
      simp [Ledger.Exact,transmitLedger,before] <;> simp [Serial.unsent]
  | masterPoll =>
    simp only [serial,serialStep]
    obtain ⟨-,same⟩ | ⟨-,-,-,same⟩ | ⟨-,-,-,same⟩ | ⟨-,-,same⟩ | ⟨-,-,busy,same⟩ := poll_cases line.unasked <;> rw [same]
    case inr.inr.inr.inl =>
      unfold executeFrame
      split <;> simp [Ledger.Exact,transmitLedger,Serial.unsent]
    all_goals simp [Ledger.Exact,transmitLedger,Serial.unsent]
/-- A frame accepted while bytes are left replaces them, and an expiry then
    drops them. -/
theorem unclear_short {s : Serial} {i : SerialInput} (line : LineState s) (unclear : ¬ SendClear s i) :
    transmitLedger.Short s (serial.step s i).1 (serial.step s i).2 := by
  cases i with
  | masterSend payload =>
    simp only [SendClear,Classical.not_imp,not_not] at unclear
    obtain ⟨fits,idle,xmit,left⟩ := unclear
    have owed := unsent_length line xmit
    have fresh := s.ucMasterRTUSndBuf.slice_copy payload fits
    have positive := Nat.pos_of_ne_zero left
    simp only [serial,serialStep]
    obtain ⟨long,-⟩ | ⟨-,busy,-⟩ | ⟨-,-,same⟩ := send_cases payload s
    · omega
    · exact absurd idle busy
    · rw [same]
      simp only [Ledger.Short,transmitLedger,owed]
      simp [Serial.unsent,fresh]
      omega
  | timerExpired =>
    simp only [SendClear,not_not] at unclear
    obtain ⟨xmit,left⟩ := unclear
    have owed := unsent_length line xmit
    have positive := Nat.pos_of_ne_zero left
    simp only [serial,serialStep]
    obtain ⟨event,-,same⟩ | ⟨-,same⟩ := expired_cases line.silent <;> rw [same] <;>
      simp only [Ledger.Short,transmitLedger,owed] <;> simp [Serial.unsent,positive]
  | txEmpty => simp [SendClear] at unclear
  | byteReceived byte => simp [SendClear] at unclear
  | masterPoll => simp [SendClear] at unclear

/-- With `n` bytes left, the transmit interrupt comes `n` times and puts them. -/
theorem drain_run {s : Serial} {n : Nat} (line : LineState s) (xmit : s.eSndState = .txXmit)
    (count : s.usMasterSndBufferCount = n) :
    serial.Admissible s (List.replicate n .txEmpty) ∧ serial.trace s (List.replicate n .txEmpty) =
      (s.ucMasterRTUSndBuf.slice s.pucMasterSndBufferCur n).map .put := by
  induction n generalizing s with
  | zero => simp [Machine.Admissible]
  | succ n ih =>
    have can : serial.enabled s .txEmpty := line.driving xmit
    have kept : LineState (xMBMasterRTUTransmitFSM s).1 := line.step can
    have bound := line.inside xmit
    have stepped : serial.step s .txEmpty = xMBMasterRTUTransmitFSM s := rfl
    obtain ⟨idle,-⟩ | ⟨-,-,same⟩ | ⟨-,done,-⟩ | ⟨xfwr,-⟩ := transmit_cases s
    · simp [idle] at xmit
    · rw [same] at kept
      obtain ⟨admissible,traced⟩ := ih kept xmit (by simp [count])
      have first : s.ucMasterRTUSndBuf.slice s.pucMasterSndBufferCur (n + 1) =
          s.ucMasterRTUSndBuf.peek s.pucMasterSndBufferCur ::
            s.ucMasterRTUSndBuf.slice (s.pucMasterSndBufferCur + 1) n := Block.slice_succ _ (by omega)
      rw [List.replicate_succ,Machine.trace_cons,stepped,same,traced,first]
      refine ⟨⟨can,?_⟩,rfl⟩
      rw [stepped,same]
      exact admissible
    · omega
    · simp [xfwr] at xmit
theorem delivers {s : Serial} (line : LineState s) : Delivers s := by
  by_cases xmit : s.eSndState = .txXmit
  · have drained := drain_run line xmit rfl
    rw [Delivers,unsent_length line xmit]
    simpa [Serial.unsent,xmit] using drained
  · simp [Delivers,unsent_of_not_xmit xmit,Machine.Admissible]

/-- Every accepted frame reaches the line whole, in order and unmixed exactly
    when the run never accepts a frame, and no timer expires, while bytes of an
    earlier frame are left. -/
theorem transmit_integrity_iff (inputs : List SerialInput) (admissible : serial.Admissible startedIdle inputs) :
    TransmitIntegrity inputs ↔ serial.Each SendClear startedIdle inputs := by
  have balanced : serial.Throughout transmitLedger.Balanced startedIdle [] inputs ↔
      serial.Each SendClear startedIdle inputs :=
    Ledger.balanced_iff (fun _ _ line can => line.step can) (fun _ _ => clear_exact)
      (fun _ _ line _ => unclear_short line) startedIdle_line (by decide) admissible
  rw [← balanced]
  constructor
  · exact Machine.Throughout.mono fun _ _ both => both.1
  · intro holds
    rw [TransmitIntegrity,Machine.throughout_iff]
    rw [Machine.throughout_iff] at holds
    rintro front back rfl
    exact ⟨holds front back rfl,delivers (startedIdle_line.run (Machine.each_append.mp admissible).1)⟩
theorem transmit_integrity_iff_two_frames :
    TransmitIntegrity [.masterSend [1,2,3],.txEmpty,.masterSend [9]] ↔
      serial.Each SendClear startedIdle [.masterSend [1,2,3],.txEmpty,.masterSend [9]] :=
  transmit_integrity_iff _ (by decide)
/-- A second frame sent while the first is on the line replaces its last two
    bytes. -/
theorem transmit_integrity_fails :
    serial.Admissible startedIdle [.masterSend [1,2,3],.txEmpty,.masterSend [9]] ∧
      ¬ TransmitIntegrity [.masterSend [1,2,3],.txEmpty,.masterSend [9]] := by
  refine ⟨by decide,?_⟩
  intro holds
  have last := holds.last.1
  revert last
  decide

end Net2Modbus
