import Net2Modbus.Block

/-!
# What the firmware lets be seen

The arrays whose bounds matter, and the events of a step: bytes on the serial
line, frames taken or refused, events posted, data handed from one part to the
next, replies, and the uses of arrays and of unsigned subtractions.
-/
namespace Net2Modbus

/-- The arrays of the firmware, with the sizes of their declarations. -/
inductive Arr
  | ucMasterRTUSndBuf | ucMasterRTURcvBuf | mb2TcpBuff | uidStm32
  | tdata | tcpRecvBuf | tcp2Rs485CmdList | masterA
  | data | iap | str | vesion | pbuf (size : Nat)
  deriving DecidableEq, Repr

def Arr.size : Arr → Nat
  | .ucMasterRTUSndBuf => 253
  | .ucMasterRTURcvBuf => 256
  | .mb2TcpBuff => 256
  | .uidStm32 => 16
  | .tdata => 1500
  | .tcpRecvBuf => 1500
  | .tcp2Rs485CmdList => 1400
  | .masterA => 24
  | .data => 1024
  | .iap => 10
  | .str => 17
  | .vesion => 40
  | .pbuf size => size

/-- The events of the master stack (`eMBMasterEventType`). -/
inductive EMBMasterEventType
  | evMasterReady | evMasterFrameReceived | evMasterExecute | evMasterFrameSent | evMasterErrorProcess
  deriving DecidableEq, Repr

/-- Which part of `ModbusSenttset` calls `Master_Send`. -/
inductive Source
  | downlink | pollList
  deriving DecidableEq, Repr

/-- The array whose bytes it hands over. -/
def Source.array : Source → Arr
  | .downlink => .tcpRecvBuf
  | .pollList => .masterA

inductive Event
  /-- A byte given to the USART. -/
  | put (byte : UInt8)
  /-- A frame for which `eMBMasterRTUSend` returned `MB_ENOERR`. -/
  | accepted (frame : List UInt8)
  /-- A frame for which it returned an error. -/
  | refused (frame : List UInt8)
  /-- A byte taken by the receive interrupt. -/
  | received (byte : UInt8)
  /-- An expiry of the timer. -/
  | gap
  /-- A posted event, and the event that it replaced in the queue. -/
  | posted (event : EMBMasterEventType) (lost : Option EMBMasterEventType)
  /-- The bytes that stand behind the header of a new uplink frame. -/
  | uplink (payload : List UInt8)
  /-- A TCP segment given to `tcp_client_reciver`. -/
  | segment (bytes : List UInt8)
  /-- A call of `Master_Send`, and whether `eMBMasterRTUSend` accepted the bytes. -/
  | handed (source : Source) (payload : List UInt8) (taken : Bool)
  /-- A call of `tx_data`. -/
  | radio (bytes : List UInt8)
  /-- A poll whose time has come. -/
  | due (time : UInt32)
  /-- Bytes given to `tcp_write`. -/
  | tcpWrite (bytes : List UInt8)
  /-- A datagram given to `udp_sendto`. -/
  | udpSend (bytes : List UInt8)
  /-- A use of an array. -/
  | access (use : Access Arr)
  /-- A subtraction of unsigned numbers. -/
  | subtract (left right : Nat)
  deriving DecidableEq, Repr

def Event.isAccepted : Event → Bool
  | .accepted _ => true
  | _ => false

/-- The events of the serial line, which tell nothing about TCP, the mailbox or
    the poll list. -/
def Event.onLine : Event → Bool
  | .gap => true
  | .put _ | .accepted _ | .refused _ | .received _ | .posted _ _ | .uplink _ => true
  | .access use => use.array == .mb2TcpBuff
  | _ => false

/-- The uses of arrays among the events. -/
def accesses (events : List Event) : List (Access Arr) :=
  events.filterMap fun
    | .access use => some use
    | _ => none
@[simp] theorem accesses_append (first second : List Event) :
    accesses (first ++ second) = accesses first ++ accesses second :=
  List.filterMap_append

/-- Uses of some arrays stay inside them. -/
def Event.Inside (arrays : List Arr) : Event → Prop
  | .access use => use.array ∈ arrays → use.Inside Arr.size
  | _ => True
/-- A length is subtracted that is longer than what it is subtracted from. -/
def Event.Wraps : Event → Prop
  | .subtract left right => left < right
  | _ => False

/-- Only a subtraction wraps around, and only an access leaves its array. -/
theorem Event.safe (e : Event) {arrays : List Arr} (whole : ∀ left right, e ≠ .subtract left right)
    (inside : ∀ use, e = .access use → use.array ∈ arrays → use.Inside Arr.size) : ¬ e.Wraps ∧ e.Inside arrays := by
  cases e with
  | access use => exact ⟨id,inside use rfl⟩
  | subtract left right => exact absurd rfl (whole left right)
  | _ => exact ⟨id,trivial⟩

instance (arrays : List Arr) (e : Event) : Decidable (e.Inside arrays) :=
  match e with
  | .gap | .put _ | .accepted _ | .refused _ | .received _ | .uplink _ | .segment _ | .handed _ _ _ | .radio _ | .due _ |
    .tcpWrite _ | .udpSend _ | .posted _ _ | .subtract _ _ => isTrue trivial
  | .access _ => inferInstanceAs (Decidable (_ → _))
instance (e : Event) : Decidable e.Wraps :=
  match e with
  | .gap | .put _ | .accepted _ | .refused _ | .received _ | .uplink _ | .segment _ | .handed _ _ _ | .radio _ | .due _ |
    .tcpWrite _ | .udpSend _ | .posted _ _ | .access _ => isFalse id
  | .subtract _ _ => inferInstanceAs (Decidable (_ < _))

end Net2Modbus
