import Net2Modbus.Board
import Net2Modbus.Uplink

/-!
# An uplink from the radio

`save_rec_data` reads as many bytes from the receive FIFO as the length register
says, and `Si4432SendDataToSever` frames them. The buffers take what the 64 bytes
of `RX_Buf` take; the frame is then the one of the RS485 side.
-/
namespace Net2Modbus

/-- A packet that the chip reports: its length register, which can have any value,
    and what the receive FIFO gives byte by byte. -/
structure RfPacket where
  leg : UInt8
  fifo : Nat → UInt8

def RfPacket.bytes (p : RfPacket) : List UInt8 := (List.range p.leg.toNat).map p.fifo

@[simp] theorem RfPacket.bytes_length (p : RfPacket) : p.bytes.length = p.leg.toNat := by
  simp [RfPacket.bytes]

/-- `save_rec_data`: nothing is reported while NIRQ is high. The length comes back as
    a `signed char`. -/
def saveRecData (report : Option RfPacket) (b : Board) : (Board × List BoardEvent) × Int8 :=
  match report with
  | some p => (({ b with rxBuf := b.rxBuf.copy p.bytes },[.access ⟨.rxBuf,0,p.leg.toNat⟩]),p.leg.toInt8)
  | none => ((b,[]),0)

/-- `Si4432Thread` with what the chip reports, of whatever length. -/
def rfThread (report : Option RfPacket) (b : Board) : Board × List BoardEvent :=
  if b.gateway.si4432 then
    let saved := saveRecData report b
    let b := { saved.1.1 with rxSi4432Len := saved.2.toUInt8 }
    if 0 < b.rxSi4432Len then
      let sent := si4432SendDataToSever b
      (sent.1,saved.1.2 ++ sent.2)
    else (b,saved.1.2)
  else (b,[])

/-- The frames given to `tcp_write`: each frame that is built is. -/
def written (events : List BoardEvent) : List (List UInt8) :=
  events.filterMap fun e => match e with
    | .built frame => some frame
    | _ => none

/-- A packet goes up inside the buffers, as the one frame that the RS485 side builds
    for the same bytes. -/
structure RfUplinkKept (p : RfPacket) (b : Board) : Prop where
  inside : ∀ use, .access use ∈ (rfThread (some p) b).2 → use.Inside RfArr.size
  written : written (rfThread (some p) b).2 = [uplinkFrame b.gateway.serial.uidStm32 p.bytes]
  lenth : ∀ frame ∈ Net2Modbus.written (rfThread (some p) b).2, frame.length = p.leg.toNat + 18
  alike : ∀ s : Serial, s.uidStm32 = b.gateway.serial.uidStm32 → s.frame = p.bytes → s.usLength = p.leg.toNat →
    [(executeFrame s).1.mb2TcpBuff.slice 0 (executeFrame s).1.mb2TcpLenth.toNat] =
      Net2Modbus.written (rfThread (some p) b).2

theorem signed_leg (leg : UInt8) : leg.toInt8.toUInt8 = leg := by simp
/-- The step of the board, with the packet spelled out. -/
theorem rfThread_packet (p : RfPacket) (b : Board) : rfThread (some p) b = si4432Thread p.bytes b := by
  have lenth : UInt8.ofNat p.leg.toNat = p.leg := by simp
  unfold rfThread si4432Thread
  split
  · simp only [saveRecData,signed_leg,p.bytes_length,lenth]
    split <;> rfl
  · rfl
/-- A packet of no bytes is dropped. -/
theorem rfThread_empty {p : RfPacket} {b : Board} (empty : p.leg = 0) : written (rfThread (some p) b).2 = [] := by
  have none : p.bytes = [] := by simp [RfPacket.bytes,empty]
  rw [rfThread_packet,none,si4432Thread]
  split <;> rfl
theorem rfThread_linked {p : RfPacket} {b : Board} (radio : b.gateway.si4432 = true) (linked : b.tcplink = false)
    (some_ : 0 < p.leg) :
    (rfThread (some p) b).2 = [.access ⟨.rxBuf,0,p.leg.toNat⟩,.access ⟨.rxBuf,0,p.leg.toNat⟩,
      .access ⟨.rf2TcpBuff,0,p.leg.toNat + 18⟩,
      .built (((Block.fill 0 : Block UInt8 100).copy
        (uplinkFrame b.gateway.serial.uidStm32 ((b.rxBuf.copy p.bytes).slice 0 p.leg.toNat))).slice 0 (p.leg.toNat + 18))] := by
  simp [rfThread,radio,saveRecData,si4432SendDataToSever,linked,some_]

/-- A frame that fits `Mb2TcpBuff` comes out whole. -/
theorem executeFrame_short {s : Serial} {payload : List UInt8} (same : s.frame = payload) (length : s.usLength = payload.length)
    (short : payload.length + 18 ≤ 256) :
    (executeFrame s).1.mb2TcpBuff.slice 0 (executeFrame s).1.mb2TcpLenth.toNat = uplinkFrame s.uidStm32 payload := by
  have few : payload.length < 256 := by omega
  have number : (UInt32.ofNat (payload.length + 18)).toNat = payload.length + 18 := by
    rw [UInt32.toNat_ofNat']
    omega
  have whole := s.mb2TcpBuff.slice_copy (uplinkFrame s.uidStm32 payload) (by rw [uplinkFrame_length]; omega)
  rw [uplinkFrame_length] at whole
  simp only [executeFrame,length,few,if_true,same,number,whole]
theorem rfThread_short {p : RfPacket} {b : Board} (radio : b.gateway.si4432 = true) (linked : b.tcplink = false)
    (some_ : 0 < p.leg) (short : p.leg.toNat ≤ 64) :
    written (rfThread (some p) b).2 = [uplinkFrame b.gateway.serial.uidStm32 p.bytes] := by
  have payload := b.rxBuf.slice_copy p.bytes (by rwa [p.bytes_length])
  have whole := (Block.fill 0 : Block UInt8 100).slice_copy (uplinkFrame b.gateway.serial.uidStm32 p.bytes)
    (by rw [uplinkFrame_length,p.bytes_length]; omega)
  rw [uplinkFrame_length] at whole
  rw [p.bytes_length] at payload whole
  rw [rfThread_linked radio linked some_,payload,whole]
  rfl

/-- With the link up a packet of the radio goes up as it should exactly when its length is
    one of 1 to 64, the size of `RX_Buf`. -/
theorem rf_uplink_kept_iff (p : RfPacket) (b : Board) (radio : b.gateway.si4432 = true) (linked : b.tcplink = false) :
    RfUplinkKept p b ↔ 1 ≤ p.leg.toNat ∧ p.leg.toNat ≤ 64 := by
  constructor
  · intro kept
    have some_ : 0 < p.leg := by
      by_contra empty
      have none := rfThread_empty (b := b) (show p.leg = 0 by simpa using empty)
      have sent := kept.written
      rw [none] at sent
      contradiction
    have events := rfThread_linked radio linked some_
    obtain ⟨-,inside⟩ := kept.inside ⟨.rxBuf,0,p.leg.toNat⟩ (by rw [events]; exact List.mem_cons_self)
    refine ⟨UInt8.lt_iff_toNat_lt.mp some_,?_⟩
    simpa [RfArr.size] using inside
  · rintro ⟨positive,short⟩
    have some_ : 0 < p.leg := UInt8.lt_iff_toNat_lt.mpr positive
    have events := rfThread_linked radio linked some_
    have sent := rfThread_short radio linked some_ short
    refine ⟨?_,sent,?_,?_⟩
    · intro use member
      rw [events] at member
      simp only [List.mem_cons,BoardEvent.access.injEq,List.not_mem_nil,or_false,reduceCtorEq] at member
      rcases member with rfl | rfl | rfl
      · simpa [Access.Inside,RfArr.size] using short
      · simpa [Access.Inside,RfArr.size] using short
      · simp [Access.Inside,RfArr.size]
        omega
    · intro frame member
      rw [sent,List.mem_singleton] at member
      rw [member,uplinkFrame_length,p.bytes_length]
    · intro s uid same length
      rw [sent,executeFrame_short same (by rw [length,p.bytes_length]) (by rw [p.bytes_length]; omega),uid]

/-- A board with the radio and a connection. -/
def linkedBoard : Board := { Board.main Client.boot.flash ⟨1,2,3⟩ true with tcplink := false }

theorem rf_uplink_kept_two : RfUplinkKept ⟨2,fun i => UInt8.ofNat i⟩ linkedBoard :=
  (rf_uplink_kept_iff ⟨2,fun i => UInt8.ofNat i⟩ linkedBoard rfl rfl).mpr (by decide)
/-- The length register says 65. -/
theorem rf_uplink_overruns : ¬ RfUplinkKept ⟨65,fun _ => 7⟩ linkedBoard := by
  intro kept
  have events := @rfThread_linked ⟨65,fun _ => 7⟩ linkedBoard rfl rfl (by decide)
  obtain ⟨-,inside⟩ := kept.inside ⟨.rxBuf,0,65⟩ (by rw [events]; exact List.mem_cons_self)
  exact absurd inside (by decide)

end Net2Modbus
