import Net2Modbus.Gateway

/-!
# The board

The gateway with its other inputs: the datagrams of `udp_client_callback`, the
packets of the radio, which go up in the frame of `Si4432SendDataToSever`, the
clock of the running time, the connection to the server, and the start of `main`
after a reset, which the words in flash survive.
-/
namespace Net2Modbus

/-- The buffers of the radio. -/
inductive RfArr
  | rxBuf | rf2TcpBuff
  deriving DecidableEq, Repr

def RfArr.size : RfArr → Nat
  | .rxBuf => 64
  | .rf2TcpBuff => 100

inductive BoardEvent
  /-- Something that the gateway does. -/
  | gateway (e : Event)
  /-- A new uplink frame in `Mb2TcpBuff` or `Rf2TcpBuff`. -/
  | built (frame : List UInt8)
  /-- A use of a buffer of the radio. -/
  | access (use : Access RfArr)
  deriving DecidableEq, Repr

/-- `tcplink` is true while there is no connection to the server. -/
structure Board where
  gateway : Gateway
  tcplink : Bool
  rxBuf : Block UInt8 64
  rxSi4432Len : UInt8
  runSecTimer : UInt32

/-- The load of the configuration in `main`, over the flash as the reset found it. -/
def Client.main (flash : Flash) : Client :=
  let c := { Client.boot with flash := { flash with irqEnabled := true } }.load
  let ip := c.flashNetBuf.peek 0
  { c with ipaddrSever := ⟨[byteOf ip 24,byteOf ip 16,byteOf ip 8,byteOf ip 0],rfl⟩,
           portSever := (c.flashNetBuf.peek 1).toUInt16 }

/-- The board when `main` enters its loop. -/
def Board.main (flash : Flash) (uid : Uid) (si4432 : Bool) : Board where
  gateway := gatewayStarted (.main flash) uid si4432
  tcplink := true
  rxBuf := .fill 0
  rxSi4432Len := 0
  runSecTimer := 0

def Event.isUplink : Event → Bool
  | .uplink _ => true
  | _ => false

/-- The frame that stands in `Mb2TcpBuff` after a step that built one. -/
def frameBuilt (s : Serial) (events : List Event) : List BoardEvent :=
  if events.any Event.isUplink then [.built (s.mb2TcpBuff.slice 0 s.mb2TcpLenth.toNat)] else []

/-- A packet goes up while there is a connection, and its length is forgotten in any
    case. The frame has the parts of one that `eMBMasterPoll` builds. -/
def si4432SendDataToSever (b : Board) : Board × List BoardEvent :=
  if b.tcplink = false ∧ 0 < b.rxSi4432Len then
    let lenth := b.rxSi4432Len.toNat
    let buff : Block UInt8 100 := (Block.fill 0).copy (uplinkFrame b.gateway.serial.uidStm32 (b.rxBuf.slice 0 lenth))
    ({ b with rxSi4432Len := 0 },
      [.access ⟨.rxBuf,0,lenth⟩,.access ⟨.rf2TcpBuff,0,lenth + 18⟩,.built (buff.slice 0 (lenth + 18))])
  else ({ b with rxSi4432Len := 0 },[])

/-- `Si4432Thread`, with the packet that `save_rec_data` finds, which may be empty. -/
def si4432Thread (packet : List UInt8) (b : Board) : Board × List BoardEvent :=
  if b.gateway.si4432 then
    let b := { b with rxBuf := b.rxBuf.copy packet, rxSi4432Len := UInt8.ofNat packet.length }
    if 0 < b.rxSi4432Len then
      let sent := si4432SendDataToSever b
      (sent.1,.access ⟨.rxBuf,0,packet.length⟩ :: sent.2)
    else (b,[.access ⟨.rxBuf,0,packet.length⟩])
  else (b,[])

def Board.setClient (change : Client → Client) (b : Board) : Board :=
  { b with gateway := { b.gateway with client := change b.gateway.client } }

def sysrunTimerMsecs : UInt32 := 500

def synruntimHook (time : UInt32) (b : Board) : Board :=
  if sysrunTimerMsecs ≤ time - b.runSecTimer then
    { b with runSecTimer := time }.setClient fun c => { c with systemRunTime := c.systemRunTime + 1 }
  else b

/-- What can happen to the board. A datagram comes with what the stack held where
    its buffer is. -/
inductive BoardInput
  | gateway (i : GatewayInput)
  | datagram (env : Surroundings) (stack : Block UInt8 1024) (bytes : List UInt8)
  | si4432Thread (packet : List UInt8)
  | synruntimHook (time : UInt32)
  | tcpClientConnected
  | tcpClientClosed
  | reset

/-- The main loop does nothing while it waits for the reset, and the radio has a
    FIFO of 64 bytes. -/
def boardEnabled (b : Board) : BoardInput → Prop
  | .gateway i => gatewayEnabled b.gateway i
  | .datagram _ _ bytes => b.gateway.client.waiting = false ∧ bytes.length < 65536
  | .si4432Thread packet => b.gateway.client.waiting = false ∧ packet.length ≤ 64
  | .tcpClientConnected | .tcpClientClosed => b.gateway.client.waiting = false
  | .synruntimHook _ | .reset => True

def boardStep (b : Board) : BoardInput → Board × List BoardEvent
  | .gateway i =>
    let done := gatewayStep b.gateway i
    ({ b with gateway := done.1 },done.2.map .gateway ++ frameBuilt done.1.serial done.2)
  | .datagram env stack bytes =>
    let done := udpClientCallback env stack bytes b.gateway
    ({ b with gateway := done.1 },done.2.map .gateway)
  | .si4432Thread packet => si4432Thread packet b
  | .synruntimHook time => (synruntimHook time b,[])
  | .tcpClientConnected =>
    ({ b with tcplink := false }.setClient fun c => { c with retryTcpConnect := c.retryTcpConnect + 1 },[])
  | .tcpClientClosed => ({ b with tcplink := true },[])
  | .reset => (.main b.gateway.client.flash b.gateway.uid b.gateway.si4432,[])

def board : Machine Board BoardInput BoardEvent := ⟨boardEnabled,boardStep⟩

instance (b : Board) (i : BoardInput) : Decidable (board.enabled b i) :=
  match i with
  | .gateway i => inferInstanceAs (Decidable (gateway.enabled b.gateway i))
  | .datagram _ _ _ | .si4432Thread _ => inferInstanceAs (Decidable (_ ∧ _))
  | .tcpClientConnected | .tcpClientClosed => inferInstanceAs (Decidable (_ = _))
  | .synruntimHook _ | .reset => isTrue trivial

end Net2Modbus
