import Mathlib

/-!
# The transmission of the radio

`tx_data` of the SI4432 driver as the accesses to the registers of the chip that it
makes over SPI: the packet is loaded, the transmitter started, the status polled
until the packet is sent or the counter is full, and the chip set up again.
-/
namespace Net2Modbus

/-- An access by `spi_rw`. -/
inductive Spi
  | write (reg value : UInt8)
  | read (reg : UInt8)
  deriving DecidableEq, Repr

def si4432PwrstateReady : UInt8 := 1
def si4432PwrstateTx : UInt8 := 0x09
def si4432PwrstateRx : UInt8 := 5
def si4432PacketSentInterrupt : UInt8 := 4
def si4432RxPacketReceivedInterrupt : UInt8 := 0x02

def clrInterruputSi4432 : List Spi := [.read 0x03,.read 0x04]

/-- The registers 0x76 and 0x77 for each channel: 433.0 to 433.9 MHz, then 432.0 to
    432.9 MHz. -/
def carriers : List (UInt8 × UInt8) :=
  [(0x4b,0x00),(0x4d,0x80),(0x50,0x00),(0x52,0x80),(0x55,0x00),(0x57,0x80),(0x5A,0x00),(0x5C,0x80),(0x5F,0x00),(0x61,0x80),
    (0x32,0x00),(0x34,0x80),(0x37,0x00),(0x39,0x80),(0x3C,0x00),(0x3E,0x80),(0x41,0x00),(0x43,0x80),(0x46,0x00),(0x48,0x80)]

/-- The settings that do not depend on the channel. -/
def settingsV26 : List Spi :=
  [.write 0x1c 0xac,.write 0x1d 0x40,.write 0x20 0x9c,.write 0x21 0x00,.write 0x22 0xd1,.write 0x23 0xb7,.write 0x24 0x00,
    .write 0x25 0x53,.write 0x30 0xac,.write 0x32 0x8c,.write 0x33 0x02,.write 0x34 0x08,.write 0x35 0x2a,.write 0x36 0x2d,
    .write 0x37 0xd4,.write 0x38 0x0,.write 0x39 0x0,.write 0x3a 0x0,.write 0x3b 0x0,.write 0x3c 0x0,.write 0x3d 0x0,
    .write 0x3e 0x0,.write 0x3f 0x0,.write 0x40 0x0,.write 0x41 0x0,.write 0x42 0x0,.write 0x43 0xff,.write 0x44 0xff,
    .write 0x45 0xff,.write 0x46 0xff,.write 0x56 0x00,.write 0x6e 0x9d,.write 0x6f 0x49,.write 0x70 0x2c,.write 0x71 0x2b,
    .write 0x72 0x50]
def carrier (high low : UInt8) : List Spi := [.write 0x75 0x53,.write 0x76 high,.write 0x77 low]

/-- The channel is the low byte of the fourth word of the configuration; one that
    has no case leaves the carrier as it is. -/
def si4432RegisterSetV26 (channel : UInt32) : List Spi :=
  settingsV26 ++ match carriers[channel.toUInt8.toNat]? with
    | some (high,low) => carrier high low
    | none => []

/-- What `SI4432_init` writes before these settings and behind them. -/
def settingsBefore : List Spi :=
  [.write 0x06 0x00,.write 0x07 1,.write 0x09 0x64,.write 0x0a 0x05,.write 0x0b 0xea,.write 0x0c 0xea,.write 0x0d 0xea]
def settingsBehind : List Spi := [.write 0x6d 0x07,.write 0x79 0x0,.write 0x7a 0x0]

def si4432Init (channel : UInt32) : List Spi :=
  clrInterruputSi4432 ++ settingsBefore ++ si4432RegisterSetV26 channel ++ settingsBehind

/-- The antenna is switched to the receiver, the receive FIFO cleared and the chip
    set to receive. -/
def rxData : List Spi :=
  [.read 0x02,.write 0x07 si4432PwrstateReady,.read 0x07,.read 0x02,.write 0x0e 0x02,.write 0x08 0x03,.write 0x08 0x00,
    .write 0x07 si4432PwrstateRx,.read 0x07,.write 0x05 si4432RxPacketReceivedInterrupt]

/-- What `tx_data` does before it loads the packet. -/
def txReady (leg : UInt8) : List Spi :=
  [.write 0x05 si4432PacketSentInterrupt,.write 0x07 si4432PwrstateReady,.read 0x07,.read 0x02,.write 0x0e 0x01,
    .write 0x08 0x03,.write 0x08 0x00,.write 0x34 64,.write 0x3e leg]
/-- The `leg` bytes behind the pointer go to the transmit FIFO. -/
def txLoad (pt : Nat → UInt8) (leg : UInt8) : List Spi := (List.range leg.toNat).map fun i => .write 0x7f (pt i)
def txStart (pt : Nat → UInt8) (leg : UInt8) : List Spi :=
  txReady leg ++ (txLoad pt leg ++ [Spi.write 0x07 si4432PwrstateTx])

/-- The flag of a sent packet is set in a value of the status register. -/
def PacketSent (value : UInt8) : Prop := value &&& 0x04 ≠ 0

instance (value : UInt8) : Decidable (PacketSent value) := inferInstanceAs (Decidable (_ ≠ _))

/-- The loop of `tx_data`: `ct` counts the values of the status register that were
    read, and its value at the exit is the result. -/
def txPoll (status : Nat → UInt8) (ct : Nat) : Nat :=
  if PacketSent (status ct) ∨ 350 ≤ ct + 1 then ct + 1 else txPoll status (ct + 1)
termination_by 350 - ct

/-- What both exits end with. -/
def txRestart (channel : UInt32) : List Spi := .write 0x07 0x01 :: si4432Init channel ++ rxData

/-- A call of `tx_data`: the accesses, how many times the loop read the status, and
    the result. -/
structure Transmission where
  ops : List Spi
  polled : Nat
  result : UInt8

/-- The accesses up to the end of the loop. -/
def txSent (pt : Nat → UInt8) (leg : UInt8) (ct : Nat) : List Spi := txStart pt leg ++ List.replicate ct (.read 0x03)

def txData (pt : Nat → UInt8) (leg : UInt8) (channel : UInt32) (status : Nat → UInt8) : Transmission :=
  let ct := txPoll status 0
  if 350 ≤ ct then ⟨txSent pt leg ct ++ txRestart channel,ct,0⟩
  else ⟨txSent pt leg ct ++ clrInterruputSi4432 ++ txRestart channel,ct,1⟩

/-- The loop ends with the first value that has the flag, and with the 350th value
    at the latest. -/
structure Polled (status : Nat → UInt8) (ct last : Nat) : Prop where
  later : ct < last
  most : last ≤ 350
  unsent : ∀ i, ct ≤ i → i + 1 < last → ¬ PacketSent (status i)
  sent : last < 350 → PacketSent (status (last - 1))

theorem txPoll_polled (status : Nat → UInt8) {ct : Nat} (few : ct < 350) : Polled status ct (txPoll status ct) := by
  induction left : 350 - ct generalizing ct with
  | zero => omega
  | succ left ih =>
    rw [txPoll]
    by_cases flag : PacketSent (status ct)
    · rw [if_pos (.inl flag)]
      refine ⟨Nat.lt_succ_self ct,few,?_,fun _ => flag⟩
      intro i low before
      omega
    · by_cases full : 350 ≤ ct + 1
      · rw [if_pos (.inr full)]
        refine ⟨Nat.lt_succ_self ct,few,?_,?_⟩
        · intro i low before
          omega
        · intro short
          omega
      · rw [if_neg (not_or.mpr ⟨flag,full⟩)]
        have fewer : ct + 1 < 350 := by omega
        obtain ⟨later,most,unsent,sent⟩ := ih fewer (by omega)
        refine ⟨by omega,most,?_,sent⟩
        intro i low before
        rcases Nat.eq_or_lt_of_le low with rfl | next
        · exact flag
        · exact unsent i next before
/-- Without the flag in the first 349 values the loop reads all 350. -/
theorem txPoll_late {status : Nat → UInt8} (unsent : ∀ i < 349, ¬ PacketSent (status i)) : txPoll status 0 = 350 := by
  obtain ⟨later,most,-,sent⟩ := txPoll_polled status (show 0 < 350 by decide)
  by_contra short
  exact unsent (txPoll status 0 - 1) (by omega) (sent (by omega))
theorem txPoll_full_iff (status : Nat → UInt8) : 350 ≤ txPoll status 0 ↔ ∀ i < 349, ¬ PacketSent (status i) := by
  constructor
  · intro full i early
    exact (txPoll_polled status (show 0 < 350 by decide)).unsent i (Nat.zero_le i) (by omega)
  · intro unsent
    exact (txPoll_late unsent).ge

/-- The value of a register after one more access. -/
def Spi.into (reg : UInt8) (value : Option UInt8) : Spi → Option UInt8
  | .write other new => if other = reg then some new else value
  | .read _ => value
/-- The value that a register has after some accesses, when one of them wrote it. -/
def lastWrite (reg : UInt8) (ops : List Spi) : Option UInt8 := ops.foldl (Spi.into reg) none

theorem lastWrite_append (reg : UInt8) (ops rest : List Spi) :
    lastWrite reg (ops ++ rest) = rest.foldl (Spi.into reg) (lastWrite reg ops) :=
  List.foldl_append

/-- The chip receives: its state, its antenna switch and its interrupts. -/
def RadioReceives (ops : List Spi) : Prop :=
  lastWrite 0x07 ops = some si4432PwrstateRx ∧ lastWrite 0x0e ops = some 0x02 ∧
    lastWrite 0x05 ops = some si4432RxPacketReceivedInterrupt

theorem receives_restart (front : List Spi) (channel : UInt32) : RadioReceives (front ++ txRestart channel) := by
  have split : front ++ txRestart channel = (front ++ .write 0x07 0x01 :: si4432Init channel) ++ rxData := by
    simp [txRestart]
  rw [split]
  refine ⟨?_,?_,?_⟩ <;> rw [lastWrite_append] <;> simp [rxData,Spi.into]

/-- What is expected of a call: few polls, success exactly for
    a packet seen to be sent, and the chip set up to receive on both exits. -/
structure TxKept (tx : Transmission) (channel : UInt32) (status : Nat → UInt8) : Prop where
  few : tx.polled ≤ 350
  success : tx.result = 1 ↔ ∃ i < tx.polled, PacketSent (status i)
  restarted : ∃ front, tx.ops = front ++ txRestart channel
  receiving : RadioReceives tx.ops

/-- The flag comes for the first time with the 350th value. -/
def SentAtLast (status : Nat → UInt8) : Prop := PacketSent (status 349) ∧ ∀ i < 349, ¬ PacketSent (status i)

theorem txData_failed {pt : Nat → UInt8} {leg : UInt8} {channel : UInt32} {status : Nat → UInt8}
    (unsent : ∀ i < 349, ¬ PacketSent (status i)) :
    txData pt leg channel status = ⟨txSent pt leg 350 ++ txRestart channel,350,0⟩ := by
  rw [txData,txPoll_late unsent]
  rfl
theorem txData_succeeded {pt : Nat → UInt8} {leg : UInt8} {channel : UInt32} {status : Nat → UInt8} {i : Nat}
    (early : i < 349) (sent : PacketSent (status i)) :
    txData pt leg channel status =
      ⟨txSent pt leg (txPoll status 0) ++ clrInterruputSi4432 ++ txRestart channel,txPoll status 0,1⟩ := by
  have short : ¬ 350 ≤ txPoll status 0 := by
    intro full
    exact (txPoll_full_iff status).mp full i early sent
  rw [txData]
  exact if_neg short

/-- A call keeps its promise unless the flag comes with the last value: then the
    packet was sent and the counter says that it was not. -/
theorem tx_data_kept_iff (pt : Nat → UInt8) (leg : UInt8) (channel : UInt32) (status : Nat → UInt8) :
    TxKept (txData pt leg channel status) channel status ↔ ¬ SentAtLast status := by
  by_cases seen : ∃ i < 349, PacketSent (status i)
  · obtain ⟨i,early,sent⟩ := seen
    obtain ⟨later,most,-,flag⟩ := txPoll_polled status (show 0 < 350 by decide)
    have short : txPoll status 0 < 350 := by
      by_contra full
      exact (txPoll_full_iff status).mp (Nat.le_of_not_lt full) i early sent
    rw [txData_succeeded early sent]
    constructor
    · rintro - ⟨-,before⟩
      exact before i early sent
    · intro clear
      refine ⟨most,?_,⟨_,rfl⟩,receives_restart _ channel⟩
      constructor
      · intro succeeded
        exact ⟨txPoll status 0 - 1,Nat.sub_lt later Nat.one_pos,flag short⟩
      · intro seen
        rfl
  · have unsent : ∀ i < 349, ¬ PacketSent (status i) := fun i early sent => seen ⟨i,early,sent⟩
    rw [txData_failed unsent]
    constructor
    · rintro ⟨-,success,-,-⟩ ⟨last,-⟩
      have failed : (0 : UInt8) = 1 := success.mpr ⟨349,Nat.lt_succ_self 349,last⟩
      contradiction
    · intro clear
      refine ⟨le_rfl,?_,⟨_,rfl⟩,receives_restart _ channel⟩
      constructor
      · intro (failed : (0 : UInt8) = 1)
        contradiction
      · rintro ⟨i,bound,sent⟩
        have bound : i < 350 := bound
        rcases Nat.lt_or_eq_of_le (Nat.le_of_lt_succ bound) with early | rfl
        · exact absurd sent (unsent i early)
        · exact absurd ⟨sent,unsent⟩ clear
/-- The flag comes with the 350th value. -/
def sentLate (i : Nat) : UInt8 := if i = 349 then 0x04 else 0

theorem tx_data_misses : ¬ TxKept (txData (fun _ => 0x55) 1 0 sentLate) 0 sentLate := by
  have unsent : ∀ i < 349, ¬ PacketSent (sentLate i) := by
    intro i early
    rw [sentLate,if_neg early.ne]
    decide
  intro kept
  have success := kept.success
  rw [txData_failed unsent] at success
  have failed : (0 : UInt8) = 1 := success.mpr ⟨349,Nat.lt_succ_self 349,by decide⟩
  exact absurd failed (by decide)

end Net2Modbus
