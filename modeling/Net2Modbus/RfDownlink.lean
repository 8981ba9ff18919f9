import Net2Modbus.Radio
import Net2Modbus.Downlink

/-!
# A downlink over the radio and over RS485

`ModbusSenttset` gives the bytes of the mailbox to `tx_data`, with the length cut
to eight bits, and to `Master_Send`, which drops what is too long for a PDU. The
two send the same exactly when the length fits both.
-/
namespace Net2Modbus

/-- The bytes that are pushed into the transmit FIFO. -/
def pushed (ops : List Spi) : List UInt8 :=
  ops.filterMap fun op => match op with
    | .write reg value => if reg = 0x7f then some value else none
    | .read _ => none
/-- The packet length that the chip has when the transmitter is started. -/
def programmed (ops : List Spi) : Option UInt8 := lastWrite 0x3e (ops.takeWhile (· ≠ .write 0x07 si4432PwrstateTx))

@[simp] theorem pushed_append (ops rest : List Spi) : pushed (ops ++ rest) = pushed ops ++ pushed rest :=
  List.filterMap_append
theorem pushed_reads (n : Nat) : pushed (List.replicate n (.read 0x03)) = [] := by
  simp [pushed]
theorem pushed_registers (channel : UInt32) : pushed (si4432RegisterSetV26 channel) = [] := by
  unfold si4432RegisterSetV26
  rw [pushed_append]
  split
  · simp [pushed,settingsV26,carrier]
  · simp [pushed,settingsV26]
theorem pushed_restart (channel : UInt32) : pushed (txRestart channel) = [] := by
  have split : txRestart channel = [Spi.write 0x07 0x01] ++ (si4432Init channel ++ rxData) := rfl
  rw [split,pushed_append,pushed_append,si4432Init,pushed_append,pushed_append,pushed_append,pushed_registers]
  decide
theorem pushed_start (pt : Nat → UInt8) (leg : UInt8) : pushed (txStart pt leg) = (List.range leg.toNat).map pt := by
  have load : pushed (txLoad pt leg) = (List.range leg.toNat).map pt := by simp [pushed,txLoad,List.filterMap_map]
  have ready : pushed (txReady leg) = [] := by simp [pushed,txReady]
  rw [txStart,pushed_append,pushed_append,load,ready]
  simp [pushed]
/-- The accesses of a call start with those before the loop, and the bytes go to
    the FIFO there. -/
theorem txData_ops (pt : Nat → UInt8) (leg : UInt8) (channel : UInt32) (status : Nat → UInt8) :
    ∃ rest, (txData pt leg channel status).ops = txStart pt leg ++ rest ∧ pushed rest = [] := by
  unfold txData txSent
  dsimp only
  split
  · refine ⟨_,List.append_assoc ..,?_⟩
    rw [pushed_append,pushed_reads,pushed_restart]
    rfl
  · refine ⟨List.replicate (txPoll status 0) (Spi.read 0x03) ++ (clrInterruputSi4432 ++ txRestart channel),by simp,?_⟩
    rw [pushed_append,pushed_append,pushed_reads,pushed_restart]
    rfl
theorem txData_pushed (pt : Nat → UInt8) (leg : UInt8) (channel : UInt32) (status : Nat → UInt8) :
    pushed (txData pt leg channel status).ops = (List.range leg.toNat).map pt := by
  obtain ⟨rest,same,quiet⟩ := txData_ops pt leg channel status
  rw [same,pushed_append,quiet,List.append_nil,pushed_start]
theorem txData_starts (pt : Nat → UInt8) (leg : UInt8) (channel : UInt32) (status : Nat → UInt8) :
    .write 0x07 si4432PwrstateTx ∈ (txData pt leg channel status).ops := by
  obtain ⟨rest,same,-⟩ := txData_ops pt leg channel status
  simp [same,txStart]
theorem txData_programmed (pt : Nat → UInt8) (leg : UInt8) (channel : UInt32) (status : Nat → UInt8) :
    programmed (txData pt leg channel status).ops = some leg := by
  obtain ⟨rest,same,-⟩ := txData_ops pt leg channel status
  have loaded : ∀ op ∈ txReady leg ++ txLoad pt leg, decide (op ≠ .write 0x07 si4432PwrstateTx) = true := by
    simp [txReady,txLoad,si4432PwrstateReady,si4432PwrstateTx]
  have kept (value : Option UInt8) (bytes : List Nat) :
      (bytes.map fun i => Spi.write 0x7f (pt i)).foldl (Spi.into 0x3e) value = value := by
    induction bytes with
    | nil => rfl
    | cons i rest ih => simpa [Spi.into] using ih
  have front : txStart pt leg ++ rest = (txReady leg ++ txLoad pt leg) ++ .write 0x07 si4432PwrstateTx :: rest := by
    simp [txStart]
  rw [programmed,same,front,List.takeWhile_append_of_pos loaded,lastWrite_append,
    List.takeWhile_cons_of_neg (by simp),List.foldl_nil,lastWrite_append,txLoad,kept]
  rfl

/-- The call of `tx_data` for the payload in the mailbox. -/
def Gateway.transmission (g : Gateway) (status : Nat → UInt8) : Transmission :=
  txData g.tcpRecvBuf.peek g.tcpRecvLenth.toUInt8 (g.client.flashNetBuf.peek 3) status

/-- The radio sends the bytes and the length that are handed to
    `eMBMasterRTUSend`, or neither of them sends. -/
def DownlinkAgrees (time : UInt32) (status : Nat → UInt8) (g : Gateway) : Prop :=
  (∃ frame, .accepted frame ∈ (modbusSenttset time g).2 ∧
      frame.length = (modbusSenttset time g).1.serial.usMasterSndBufferCount ∧
      pushed (g.transmission status).ops = frame ∧
      (programmed (g.transmission status).ops).map UInt8.toNat = some frame.length) ∨
    ((∀ frame, .accepted frame ∉ (modbusSenttset time g).2) ∧
      .write 0x07 si4432PwrstateTx ∉ (g.transmission status).ops)

/-- The lengths that the parser lets through: those of a segment of up to 65535
    bytes without header and trailer, modulo 2^32. -/
def LetThrough (lenth : UInt32) : Prop := lenth.toNat < 65536 ∨ 4294967288 ≤ lenth.toNat

theorem letThrough_empty : LetThrough 0 := .inl (by decide)

theorem transmission_pushed (status : Nat → UInt8) (g : Gateway) :
    pushed (g.transmission status).ops = g.tcpRecvBuf.slice 0 (g.tcpRecvLenth.toNat % 256) := by
  have byte : g.tcpRecvLenth.toUInt8.toNat = g.tcpRecvLenth.toNat % 256 := by simp
  have inside : g.tcpRecvLenth.toNat % 256 ≤ 1500 := by omega
  rw [Gateway.transmission,txData_pushed,byte,g.tcpRecvBuf.range_peek inside]
/-- What `tx_data` pushes is what the gateway reports for a downlink. -/
theorem transmission_radio (status : Nat → UInt8) {g : Gateway} (there : g.si4432 = true) :
    .radio (pushed (g.transmission status).ops) ∈ (sendDownlink g).2 := by
  have byte : (g.tcpRecvLenth.toInt32.toInt % 256).toNat = g.tcpRecvLenth.toNat % 256 := by
    have bound := g.tcpRecvLenth.toNat_lt
    rw [← Int32.toInt_toBitVec,UInt32.toBitVec_toInt32,BitVec.toInt_eq_toNat_cond,UInt32.toNat_toBitVec]
    split <;> omega
  simp [sendDownlink,Gateway.send,there,transmission_pushed,byte]

theorem accepted_sends {source : Source} {size : Nat} {buffer : Block UInt8 size} {len : Int} {g : Gateway}
    {frame : List UInt8} :
    .accepted frame ∈ (g.send source buffer len).2 ↔ .accepted frame ∈ (masterSend 6 buffer.cells len g.serial).2 := by
  unfold Gateway.send
  cases g.si4432 <;> simp
/-- With an idle receiver a length that fits a PDU, or is negative, is handed on. -/
theorem masterSend_idle {size : Nat} (buffer : Block UInt8 size) {len : Int} {s : Serial} (fits : len ≤ 253)
    (idle : s.eRcvState = .rxIdle) :
    (masterSend 6 buffer.cells len s).2 =
      [.accepted ((s.ucMasterRTUSndBuf.copy (buffer.cells.take len.toNat)).slice 0 (len % 65536).toNat)] ∧
    (masterSend 6 buffer.cells len s).1.usMasterSndBufferCount = (len % 65536).toNat := by
  have short : ¬ (mbPduSizeMax : Int) < len := Int.not_lt.mpr fits
  simp [masterSend,short,eMBMasterRTUSend,mbMasterTotalSlaveNum,idle,vMBMasterPortSerialEnable]
theorem masterSend_long {data : List UInt8} {len : Int} {s : Serial} (long : 253 < len) :
    masterSend 6 data len s = (s,[]) :=
  if_pos long

/-- A wrapped length as an `int`. -/
theorem toInt32_wrapped {len : UInt32} (large : 2147483648 ≤ len.toNat) :
    len.toInt32.toInt = (len.toNat : Int) - 4294967296 := by
  rw [← Int32.toInt_toBitVec,UInt32.toBitVec_toInt32,BitVec.toInt_eq_toNat_cond,UInt32.toNat_toBitVec,
    if_neg (by omega)]
  rfl

/-- The two ways agree exactly on the lengths that fit a PDU. -/
theorem downlinkAgrees_iff (time : UInt32) (status : Nat → UInt8) {g : Gateway} (waits : 0 < g.tcpRecvLenth)
    (idle : g.serial.eRcvState = .rxIdle) (known : LetThrough g.tcpRecvLenth) :
    DownlinkAgrees time status g ↔ g.tcpRecvLenth.toNat ≤ 253 := by
  have sent : modbusSenttset time g = sendDownlink g := if_pos waits
  have bytes := transmission_pushed status g
  have length : programmed (g.transmission status).ops = some g.tcpRecvLenth.toUInt8 := txData_programmed ..
  have starts : .write 0x07 si4432PwrstateTx ∈ (g.transmission status).ops := txData_starts ..
  have count : (modbusSenttset time g).1.serial.usMasterSndBufferCount =
      (masterSend 6 g.tcpRecvBuf.cells g.tcpRecvLenth.toInt32.toInt g.serial).1.usMasterSndBufferCount := by rw [sent]; rfl
  have accepts (frame : List UInt8) : .accepted frame ∈ (modbusSenttset time g).2 ↔
      .accepted frame ∈ (masterSend 6 g.tcpRecvBuf.cells g.tcpRecvLenth.toInt32.toInt g.serial).2 := by
    rw [sent]
    exact accepted_sends
  unfold DownlinkAgrees
  simp only [accepts,count,bytes,length]
  by_cases fits : g.tcpRecvLenth.toNat ≤ 253
  · have same : g.tcpRecvLenth.toInt32.toInt = g.tcpRecvLenth.toNat := toInt32_small (by omega)
    have small : g.tcpRecvLenth.toInt32.toInt ≤ 253 := by omega
    obtain ⟨events,left⟩ := masterSend_idle g.tcpRecvBuf small idle
    have number : g.tcpRecvLenth.toInt32.toInt.toNat = g.tcpRecvLenth.toNat := by omega
    have short : (g.tcpRecvLenth.toInt32.toInt % 65536).toNat = g.tcpRecvLenth.toNat := by omega
    have byte : g.tcpRecvLenth.toNat % 256 = g.tcpRecvLenth.toNat := by omega
    have cut : (g.tcpRecvBuf.cells.take g.tcpRecvLenth.toNat).length = g.tcpRecvLenth.toNat := by
      rw [List.length_take,Block.cells_length]
      omega
    have payload : (g.serial.ucMasterRTUSndBuf.copy (g.tcpRecvBuf.cells.take g.tcpRecvLenth.toNat)).slice 0
        g.tcpRecvLenth.toNat = g.tcpRecvBuf.slice 0 g.tcpRecvLenth.toNat := by
      have read := g.serial.ucMasterRTUSndBuf.slice_copy (g.tcpRecvBuf.cells.take g.tcpRecvLenth.toNat) (by omega)
      rwa [cut] at read
    have whole := g.tcpRecvBuf.slice_length 0 g.tcpRecvLenth.toNat (by omega)
    refine iff_of_true (.inl ⟨g.tcpRecvBuf.slice 0 g.tcpRecvLenth.toNat,?_,?_,?_,?_⟩) fits
    · rw [events,number,short,payload]
      exact List.mem_singleton_self _
    · rw [left,short,whole]
    · rw [byte]
    · simp [whole,byte]
  · refine iff_of_false ?_ fits
    rintro (⟨frame,accepted,counted,-,size⟩ | ⟨-,silent⟩)
    · rcases known with long | wrapped
      · have same : g.tcpRecvLenth.toInt32.toInt = g.tcpRecvLenth.toNat := toInt32_small (by omega)
        have much : 253 < g.tcpRecvLenth.toInt32.toInt := by omega
        rw [masterSend_long much] at accepted
        cases accepted
      · have large : 2147483648 ≤ g.tcpRecvLenth.toNat := by omega
        have same := toInt32_wrapped large
        have bound := g.tcpRecvLenth.toNat_lt
        have negative : g.tcpRecvLenth.toInt32.toInt ≤ 253 := by omega
        obtain ⟨-,left⟩ := masterSend_idle g.tcpRecvBuf negative idle
        have byte : g.tcpRecvLenth.toNat % 256 = frame.length := by simpa using size
        rw [left] at counted
        omega
    · exact silent starts

/-- No handler leaves another length in the mailbox. -/
theorem letThrough_step {g : Gateway} {i : GatewayInput} (known : LetThrough g.tcpRecvLenth) (can : gateway.enabled g i) :
    LetThrough (gateway.step g i).1.tcpRecvLenth := by
  cases i with
  | line i => exact known
  | segment env bytes =>
    change LetThrough (tcpClientReciver env bytes g).1.tcpRecvLenth
    cases down : Command.fits (g.copyIn bytes) .downlink with
    | true =>
      have bound : bytes.length < 65536 := can.2
      rw [segment_downlink env bytes g down]
      change (UInt32.ofNat bytes.length - 5 - 3).toNat < 65536 ∨ 4294967288 ≤ (UInt32.ofNat bytes.length - 5 - 3).toNat
      simp [UInt32.toNat_sub]
      omega
    | false =>
      cases list : Command.fits (g.copyIn bytes) .pollList with
      | true =>
        rw [segment_pollList env bytes g list]
        exact letThrough_empty
      | false =>
        obtain ⟨g',events,same,frame,-⟩ := segment_other env bytes g down list
        rw [same]
        exact frame.lenth ▸ known
  | modbusSenttset time =>
    change LetThrough (modbusSenttset time g).1.tcpRecvLenth
    obtain ⟨-,same⟩ | ⟨-,-,same⟩ | ⟨-,-,same⟩ := senttset_cases time g <;> rw [same]
    · exact letThrough_empty
    · exact (walk_frame time g).lenth ▸ known
    · exact known

/-- In every state that the gateway reaches, whatever the radio answers, a waiting
    payload is sent alike over the radio and over an idle RS485 line exactly when
    it has at most 253 bytes. -/
theorem rf_rs485_agree_iff (client : Client) (uid : Uid) {inputs : List GatewayInput} (time : UInt32) (status : Nat → UInt8)
    (reached : gateway.Admissible (gatewayStarted client uid true) inputs)
    (waits : 0 < (gateway.after (gatewayStarted client uid true) inputs).tcpRecvLenth)
    (idle : (gateway.after (gatewayStarted client uid true) inputs).serial.eRcvState = .rxIdle) :
    DownlinkAgrees time status (gateway.after (gatewayStarted client uid true) inputs) ↔
      (gateway.after (gatewayStarted client uid true) inputs).tcpRecvLenth.toNat ≤ 253 := by
  have known : LetThrough (gateway.after (gatewayStarted client uid true) inputs).tcpRecvLenth :=
    Machine.invariant_run (R := fun g => LetThrough g.tcpRecvLenth) (fun _ _ known can => letThrough_step known can)
      letThrough_empty reached
  exact downlinkAgrees_iff time status waits idle known
theorem rf_rs485_agree_iff_three :
    DownlinkAgrees 10 (fun _ => 0x04) (gateway.after (gatewayStarted .boot ⟨1,2,3⟩ true)
      [.line .timerExpired,.segment .plain (downlinkFrame 1 [5,6,7])]) :=
  (rf_rs485_agree_iff .boot ⟨1,2,3⟩ 10 (fun _ => 0x04) (by decide) (by decide) (by decide)).mpr
    (by decide)
/-- A payload of 254 bytes goes out over the radio alone. -/
theorem rf_rs485_disagree :
    gateway.Admissible (gatewayStarted .boot ⟨1,2,3⟩ true)
        [.line .timerExpired,.segment .plain (downlinkFrame 1 (List.replicate 254 7))] ∧
      ¬ DownlinkAgrees 10 (fun _ => 0x04) (gateway.after (gatewayStarted .boot ⟨1,2,3⟩ true)
        [.line .timerExpired,.segment .plain (downlinkFrame 1 (List.replicate 254 7))]) := by
  refine ⟨by decide +kernel,?_⟩
  have length : (gateway.after (gatewayStarted .boot ⟨1,2,3⟩ true)
      [.line .timerExpired,.segment .plain (downlinkFrame 1 (List.replicate 254 7))]).tcpRecvLenth = 254 := by
    decide +kernel
  intro agrees
  have fits := (downlinkAgrees_iff 10 (fun _ => 0x04) (by rw [length]; decide) (by decide +kernel)
    (by rw [length]; exact .inl (by decide))).mp agrees
  rw [length] at fits
  exact absurd fits (by decide)

end Net2Modbus
