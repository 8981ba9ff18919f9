import Net2Modbus.Machine
import Net2Modbus.Client

/-!
# The gateway

`ModbusSenttset`, which empties the downlink mailbox and otherwise walks the poll
list, and the gateway as one reactive system: TCP segments, calls of
`ModbusSenttset` and what happens on the serial line, in any order.
-/
namespace Net2Modbus

/-- The header bytes that the walker sets for the uplink of the answer. -/
def markPolled (uid : Uid) (s : Serial) : Serial :=
  let id := uid.sum
  { s with
    uidStm32 := ((((((s.uidStm32.poke 2 0x01).poke 3 0x01).poke 4 (byteOf id 0)).poke 5 (byteOf id 8)).poke 6
      (byteOf id 16)).poke 8 0x88).poke 9 0x88
    mb2TcpBuff := ((s.mb2TcpBuff.poke 10 0).poke 11 0).poke 12 0 }

/-- A call of `Master_Send` from `ModbusSenttset`, after one of `tx_data` when the
    radio is there; `tx_data` takes a length of eight bits, and `Master_Send`
    reads nothing when the length is too big for a PDU or negative. -/
def Gateway.send {size : Nat} (source : Source) (buffer : Block UInt8 size) (len : Int) (g : Gateway) :
    Gateway × List Event :=
  let radio : List Event := if g.si4432 then [.radio (buffer.slice 0 (len % 256).toNat)] else []
  let read := if len ≤ mbPduSizeMax then len.toNat else 0
  let sent := masterSend 6 buffer.cells len g.serial
  ({ g with serial := sent.1 },
    radio ++ [Event.access ⟨source.array,0,read⟩] ++
      .handed source (buffer.slice 0 len.toNat) (sent.2.any Event.isAccepted) :: sent.2)

/-- The branch of `ModbusSenttset` for a waiting downlink. -/
def sendDownlink (g : Gateway) : Gateway × List Event :=
  let sent := g.send .downlink g.tcpRecvBuf g.tcpRecvLenth.toInt32.toInt
  ({ sent.1 with tcpRecvLenth := 0 },sent.2)

/-- The period in an entry, at least one. -/
def entryTime (list : Block UInt8 1400) (offset : Nat) : Int32 :=
  let time : UInt32 := ((list.peek offset).toUInt32 <<< 24) + ((list.peek (offset + 1)).toUInt32 <<< 16) +
    ((list.peek (offset + 2)).toUInt32 <<< 8) + (list.peek (offset + 3)).toUInt32
  if time.toInt32 < 1 then 1 else time.toInt32

/-- Where the walker looks: the start of the list for the first entry. -/
def Poller.cursor (q : Poller) : Nat := if q.devIndex = 0 then 0 else q.sptr
/-- The tag of the entry that it looks for. -/
def Poller.tag (q : Poller) : UInt8 := (0x41 + q.devIndex).toUInt8

/-- `memchr(sptr, tag, 1)` finds the tag, and `#` follows. -/
def Poller.found (q : Poller) : Prop :=
  q.tcp2Rs485CmdList.peek q.cursor = q.tag ∧ q.tcp2Rs485CmdList.peek (q.cursor + 1) = 0x23

instance (q : Poller) : Decidable q.found := inferInstanceAs (Decidable (_ ∧ _))

/-- One entry is sent. The length byte counts the command and four bytes of time. -/
def sendEntry (g : Gateway) : Gateway × List Event :=
  let q := g.poller
  let len := (q.tcp2Rs485CmdList.peek (q.cursor + 2)).toNat
  let size := (((len : Int) - 4) % 4294967296).toNat
  let masterA : Block UInt8 24 := (Block.fill 0).copy (q.tcp2Rs485CmdList.slice (q.cursor + 3) size)
  let sent := ({ g with serial := markPolled g.uid g.serial }).send .pollList masterA ((len : Int) - 4)
  let timed : List Event := if q.devIndex = 0 then [.access ⟨.tcp2Rs485CmdList,(q.cursor : Int) + len - 1,4⟩] else []
  let poller := { q with
    msaterTime := if q.devIndex = 0 then entryTime q.tcp2Rs485CmdList (q.cursor + len - 1) else q.msaterTime
    sptr := q.cursor + 3 + len
    devIndex := q.devIndex + 1 }
  ({ sent.1 with poller },
    [.access ⟨.tcp2Rs485CmdList,q.cursor + 2,1⟩,.access ⟨.tcp2Rs485CmdList,q.cursor + 3,size⟩,.access ⟨.masterA,0,size⟩] ++
      sent.2 ++ timed)

/-- The reads that decide whether there is an entry. -/
def Poller.looks (q : Poller) : List Event :=
  [.access ⟨.tcp2Rs485CmdList,0,1⟩,.access ⟨.tcp2Rs485CmdList,q.cursor,1⟩] ++
    if q.tcp2Rs485CmdList.peek q.cursor = q.tag then [.access ⟨.tcp2Rs485CmdList,q.cursor + 1,1⟩] else []

def Poller.wrapIndex (q : Poller) : Poller := if q.devIndex = 255 then { q with devIndex := 0 } else q

/-- A poll whose time has come. -/
def walk (time : UInt32) (g : Gateway) : Gateway × List Event :=
  let g := { g with poller := { g.poller with masterCallTrm := time } }
  if g.poller.tcp2Rs485CmdList.peek 0 = 0 then (g,[.due time,.access ⟨.tcp2Rs485CmdList,0,1⟩])
  else if g.poller.found then
    let sent := sendEntry g
    ({ sent.1 with poller := sent.1.poller.wrapIndex },.due time :: g.poller.looks ++ sent.2)
  else ({ g with poller := { g.poller with devIndex := 0 } },.due time :: g.poller.looks)

/-- The period has passed since the last poll, in the clock that wraps around. -/
def Poller.isDue (time : UInt32) (q : Poller) : Prop := q.msaterTime.toUInt32 ≤ time - q.masterCallTrm

instance (time : UInt32) (q : Poller) : Decidable (q.isDue time) := inferInstanceAs (Decidable (_ ≤ _))

def modbusSenttset (time : UInt32) (g : Gateway) : Gateway × List Event :=
  if 0 < g.tcpRecvLenth then sendDownlink g
  else if g.poller.isDue time then walk time g
  else (g,[])

/-- A TCP segment in one pbuf, a call of `ModbusSenttset` with the time, or
    something on the serial line. -/
inductive GatewayInput
  | segment (env : Surroundings) (bytes : List UInt8)
  | modbusSenttset (time : UInt32)
  | line (i : SerialInput)

/-- Calls of `Master_Send` come from `ModbusSenttset` alone, and the main loop
    does nothing while it waits for the reset. The length of a pbuf has 16 bits. -/
def gatewayEnabled (g : Gateway) : GatewayInput → Prop
  | .segment _ bytes => g.client.waiting = false ∧ bytes.length < 65536
  | .modbusSenttset _ => g.client.waiting = false
  | .line (.masterSend _) => False
  | .line .masterPoll => g.client.waiting = false
  | .line i => serialEnabled g.serial i

def gatewayStep (g : Gateway) : GatewayInput → Gateway × List Event
  | .segment env bytes => tcpClientReciver env bytes g
  | .modbusSenttset time => modbusSenttset time g
  | .line i => ({ g with serial := (serialStep g.serial i).1 },(serialStep g.serial i).2)

def gateway : Machine Gateway GatewayInput Event := ⟨gatewayEnabled,gatewayStep⟩

instance (g : Gateway) (i : GatewayInput) : Decidable (gateway.enabled g i) :=
  match i with
  | .segment _ _ => inferInstanceAs (Decidable (_ ∧ _))
  | .line (.masterSend _) => isFalse id
  | .modbusSenttset _ | .line .masterPoll | .line .txEmpty | .line (.byteReceived _) | .line .timerExpired =>
    inferInstanceAs (Decidable (_ = _))

/-- The static variables of the poll list before `main`. -/
def Poller.boot : Poller where
  tcp2Rs485CmdList := .fill 0
  masterCallTrm := 0
  devIndex := 0
  msaterTime := 1000
  sptr := 0

/-- The gateway after `System_Setup`, whatever its configuration is. -/
def gatewayStarted (client : Client) (uid : Uid) (si4432 : Bool) : Gateway where
  serial := started
  client := client
  poller := .boot
  tdata := .fill 0
  tcpRecvBuf := .fill 0
  tcpRecvLenth := 0
  uid := uid
  si4432 := si4432

end Net2Modbus
