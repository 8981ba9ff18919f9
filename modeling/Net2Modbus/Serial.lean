import Net2Modbus.Machine
import Net2Modbus.Event

/-!
# The serial line

The Modbus master stack as the gateway uses it: the port layer (USART2 and TIM3
as far as the handlers set them), the RTU state machines of `mbrtu_m.c`, the
event queue of one event, and `eMBMasterPoll`. Every handler is one step.
-/
namespace Net2Modbus

/-- `eMBMasterRcvState`. -/
inductive EMBMasterRcvState
  | rxInit | rxIdle | rxRcv | rxError
  deriving DecidableEq, Repr
/-- `eMBMasterSndState`. -/
inductive EMBMasterSndState
  | txIdle | txXmit | txXfwr
  deriving DecidableEq, Repr
/-- `eMBMasterTimerMode`. -/
inductive EMBMasterTimerMode
  | tmodeT35 | tmodeRespondTimeout | tmodeConvertDelay
  deriving DecidableEq, Repr
/-- `eMBState` of `mb_m.c`. -/
inductive EMBState
  | stateEnabled | stateDisabled | stateNotInitialized
  deriving DecidableEq, Repr
/-- The error codes that the master functions return. -/
inductive EMBErrorCode
  | mbEnoerr | mbEinval | mbEio | mbEillstate
  deriving DecidableEq, Repr
/-- Where the pointer `ucMBFrame` of `eMBMasterPoll` points. -/
inductive UcMBFrame
  | rcvBuf | sndBuf
  deriving DecidableEq, Repr

def mbSerPduSizeMin : Nat := 4
def mbSerPduSizeMax : Nat := 256
def mbPduSizeMax : Nat := 253
def mbMasterTotalSlaveNum : UInt8 := 16
def mbAddressBroadcast : UInt8 := 0

/-- The state of the serial side. `uidStm32` has the 16 bytes of `UID_STM32` and
    the three behind them, which the `getid` command also writes. -/
structure Serial where
  eSndState : EMBMasterSndState
  eRcvState : EMBMasterRcvState
  ucMasterRTUSndBuf : Block UInt8 253
  ucMasterRTURcvBuf : Block UInt8 256
  ucMasterSendPDULength : UInt8
  pucMasterSndBufferCur : Nat
  usMasterSndBufferCount : Nat
  usMasterRcvBufferPos : Nat
  xFrameIsBroadcast : Bool
  eMasterCurTimerMode : EMBMasterTimerMode
  /-- The receive interrupt (RXNE) of USART2 is enabled. -/
  rxneEnabled : Bool
  /-- The transmit-empty interrupt (TXE) of USART2 is enabled. -/
  txeEnabled : Bool
  /-- The RS485 driver is in send mode. -/
  rs485Send : Bool
  /-- TIM3 counts and its interrupt is enabled. -/
  timerEnabled : Bool
  eMasterQueuedEvent : EMBMasterEventType
  xMasterEventInQueue : Bool
  eMBState : EMBState
  xMasterIsBusy : Bool
  ucMBMasterDestAddress : UInt8
  ucMBFrame : UcMBFrame
  usLength : Nat
  uidStm32 : Block UInt8 19
  mb2TcpBuff : Block UInt8 256
  mb2TcpLenth : UInt32
  deriving DecidableEq, Repr

/-- The static variables before `main`. -/
def Serial.boot : Serial where
  eSndState := .txIdle
  eRcvState := .rxInit
  ucMasterRTUSndBuf := .fill 0
  ucMasterRTURcvBuf := .fill 0
  ucMasterSendPDULength := 0
  pucMasterSndBufferCur := 0
  usMasterSndBufferCount := 0
  usMasterRcvBufferPos := 0
  xFrameIsBroadcast := false
  eMasterCurTimerMode := .tmodeT35
  rxneEnabled := false
  txeEnabled := false
  rs485Send := false
  timerEnabled := false
  eMasterQueuedEvent := .evMasterReady
  xMasterEventInQueue := false
  eMBState := .stateNotInitialized
  xMasterIsBusy := false
  ucMBMasterDestAddress := 0
  ucMBFrame := .rcvBuf
  usLength := 0
  uidStm32 := .fill 0
  mb2TcpBuff := .fill 0
  mb2TcpLenth := 0

def vMBMasterPortSerialEnable (xRxEnable xTxEnable : Bool) (s : Serial) : Serial :=
  { s with rs485Send := !xRxEnable, rxneEnabled := xRxEnable, txeEnabled := xTxEnable }
def vMBMasterPortTimersT35Enable (s : Serial) : Serial :=
  { s with eMasterCurTimerMode := .tmodeT35, timerEnabled := true }
def vMBMasterPortTimersConvertDelayEnable (s : Serial) : Serial :=
  { s with eMasterCurTimerMode := .tmodeConvertDelay, timerEnabled := true }
def vMBMasterPortTimersRespondTimeoutEnable (s : Serial) : Serial :=
  { s with eMasterCurTimerMode := .tmodeRespondTimeout, timerEnabled := true }
def vMBMasterPortTimersDisable (s : Serial) : Serial := { s with timerEnabled := false }

/-- The event that waits in the queue. -/
def Serial.queued (s : Serial) : Option EMBMasterEventType :=
  if s.xMasterEventInQueue then some s.eMasterQueuedEvent else none
/-- The queue holds one event: posting replaces the one that waits. -/
def xMBMasterPortEventPost (eEvent : EMBMasterEventType) (s : Serial) : Serial × List Event :=
  ({ s with xMasterEventInQueue := true, eMasterQueuedEvent := eEvent },[.posted eEvent s.queued])

def eMBMasterRTUStart (s : Serial) : Serial :=
  vMBMasterPortTimersT35Enable (vMBMasterPortSerialEnable true false { s with eRcvState := .rxInit })

/-- `pucFrame` always points to the start of `ucMasterRTUSndBuf`. -/
def eMBMasterRTUSend (ucSlaveAddress : UInt8) (usLength : Nat) (s : Serial) :
    Serial × List Event × EMBErrorCode :=
  if mbMasterTotalSlaveNum < ucSlaveAddress then (s,[],.mbEinval)
  else if s.eRcvState = .rxIdle then
    let s := { s with pucMasterSndBufferCur := 0, usMasterSndBufferCount := usLength, eSndState := .txXmit }
    (vMBMasterPortSerialEnable false true s,[.accepted (s.ucMasterRTUSndBuf.slice 0 usLength)],.mbEnoerr)
  else (s,[.refused (s.ucMasterRTUSndBuf.slice 0 usLength)],.mbEio)

/-- `eMBMasterRTUReceive`: the length latched for the frame in the receive
    buffer. The address and the checksum are not looked at. -/
def eMBMasterRTUReceive (s : Serial) : Serial × EMBErrorCode :=
  if mbSerPduSizeMin ≤ s.usMasterRcvBufferPos then
    ({ s with usLength := s.usMasterRcvBufferPos, ucMBFrame := .rcvBuf },.mbEnoerr)
  else (s,.mbEio)

def xMBMasterRTUReceiveFSM (ucByte : UInt8) (s : Serial) : Serial × List Event :=
  match s.eRcvState with
  | .rxInit => (vMBMasterPortTimersT35Enable s,[.received ucByte])
  | .rxError => (vMBMasterPortTimersT35Enable s,[.received ucByte])
  | .rxIdle =>
    let s := { vMBMasterPortTimersDisable s with
      eSndState := .txIdle, ucMasterRTURcvBuf := s.ucMasterRTURcvBuf.poke 0 ucByte,
      usMasterRcvBufferPos := 1, eRcvState := .rxRcv }
    (vMBMasterPortTimersT35Enable s,[.received ucByte])
  | .rxRcv =>
    if s.usMasterRcvBufferPos < mbSerPduSizeMax then
      (vMBMasterPortTimersT35Enable { s with
        ucMasterRTURcvBuf := s.ucMasterRTURcvBuf.poke s.usMasterRcvBufferPos ucByte,
        usMasterRcvBufferPos := s.usMasterRcvBufferPos + 1 },[.received ucByte])
    else (vMBMasterPortTimersT35Enable { s with eRcvState := .rxError },[.received ucByte])

def xMBMasterRTUTransmitFSM (s : Serial) : Serial × List Event :=
  match s.eSndState with
  | .txIdle => (vMBMasterPortSerialEnable true false s,[])
  | .txXmit =>
    if s.usMasterSndBufferCount ≠ 0 then
      ({ s with pucMasterSndBufferCur := s.pucMasterSndBufferCur + 1,
                usMasterSndBufferCount := s.usMasterSndBufferCount - 1 },
        [.put (s.ucMasterRTUSndBuf.peek s.pucMasterSndBufferCur)])
    else
      let broadcast := decide (s.ucMasterRTUSndBuf.peek 0 = mbAddressBroadcast)
      let s := { vMBMasterPortSerialEnable true false s with xFrameIsBroadcast := broadcast, eSndState := .txXfwr }
      if broadcast then (vMBMasterPortTimersConvertDelayEnable s,[])
      else (vMBMasterPortTimersRespondTimeoutEnable s,[])
  -- The switch of the source has no case for this state.
  | .txXfwr => (s,[])

/-- What an expiry posts for the receiver. -/
def expiredReceive (s : Serial) : Serial × List Event :=
  match s.eRcvState with
  | .rxInit => xMBMasterPortEventPost .evMasterReady s
  | .rxRcv => xMBMasterPortEventPost .evMasterFrameReceived s
  | _ => (s,[])
/-- What an expiry posts for the sender. -/
def expiredSend (s : Serial) : Serial × List Event :=
  if s.eSndState = .txXfwr ∧ s.xFrameIsBroadcast = false then xMBMasterPortEventPost .evMasterErrorProcess s
  else (s,[])

/-- The end of a convert delay frees the master. -/
def Serial.busyAfterExpiry (s : Serial) : Bool :=
  if s.eMasterCurTimerMode = .tmodeConvertDelay then false else s.xMasterIsBusy

def xMBMasterRTUTimerExpired (s : Serial) : Serial × List Event :=
  let (s,first) := expiredReceive s
  let (s,second) := expiredSend { s with eRcvState := .rxIdle }
  let s := vMBMasterPortTimersDisable { s with eSndState := .txIdle }
  ({ s with xMasterIsBusy := s.busyAfterExpiry },.gap :: first ++ second)

/-- `Master_Send`: the first `len` bytes at `data` go to the send buffer, whatever
    the sender is doing, and are then offered to `eMBMasterRTUSend`, whose
    result is dropped. The length parameter of that function has 16 bits. -/
def masterSend (slaveAddr : UInt8) (data : List UInt8) (len : Int) (s : Serial) : Serial × List Event :=
  if (mbPduSizeMax : Int) < len then (s,[])
  else
    let sent := eMBMasterRTUSend slaveAddr (len % 65536).toNat
      { s with ucMasterRTUSndBuf := s.ucMasterRTUSndBuf.copy (data.take len.toNat) }
    (sent.1,sent.2.1)

/-- The 13 bytes before the payload of an uplink frame. -/
def uplinkHeader (uid : Block UInt8 19) : List UInt8 :=
  [0xFF,0xAA,uid.peek 2,uid.peek 3,uid.peek 4,uid.peek 5,uid.peek 6,0x02,uid.peek 8,uid.peek 9,0,0,0]
/-- The five bytes behind it. -/
def uplinkTrailer : List UInt8 := [0xAA,0xFF,0x24,0x0D,0x0A]

/-- An uplink frame with its payload. -/
def uplinkFrame (uid : Block UInt8 19) (payload : List UInt8) : List UInt8 :=
  uplinkHeader uid ++ payload ++ uplinkTrailer

/-- The frame that `ucMBFrame` and `usLength` describe. -/
def Serial.frame (s : Serial) : List UInt8 :=
  match s.ucMBFrame with
  | .rcvBuf => s.ucMasterRTURcvBuf.slice 0 s.usLength
  | .sndBuf => s.ucMasterRTUSndBuf.slice 0 s.usLength

/-- The branch for `EV_MASTER_EXECUTE`. -/
def executeFrame (s : Serial) : Serial × List Event :=
  if s.usLength < 256 then
    let buff := s.mb2TcpBuff.copy (uplinkFrame s.uidStm32 s.frame)
    ({ s with mb2TcpBuff := buff, mb2TcpLenth := UInt32.ofNat (s.usLength + 18) },
      [.access ⟨.mb2TcpBuff,0,s.usLength + 18⟩,.uplink (buff.slice 13 s.usLength)])
  else (s,[])

def eMBMasterPoll (s : Serial) : Serial × List Event :=
  if s.eMBState ≠ .stateEnabled then (s,[])
  else match s.queued with
  | none => (s,[])
  | some eEvent =>
    let s := { s with xMasterEventInQueue := false }
    match eEvent with
    | .evMasterReady => (s,[])
    | .evMasterFrameReceived =>
      let (s,eStatus) := eMBMasterRTUReceive s
      if eStatus = .mbEnoerr then xMBMasterPortEventPost .evMasterExecute s
      else xMBMasterPortEventPost .evMasterErrorProcess s
    | .evMasterExecute => executeFrame s
    | .evMasterFrameSent =>
      let sent := eMBMasterRTUSend s.ucMBMasterDestAddress s.ucMasterSendPDULength.toNat
        { s with xMasterIsBusy := true, ucMBFrame := .sndBuf }
      (sent.1,sent.2.1)
    | .evMasterErrorProcess => ({ s with xMasterIsBusy := false },[])

/-- What can happen on the serial side: a call of `Master_Send` with a payload,
    an interrupt, or a call of `eMBMasterPoll` by the main loop. -/
inductive SerialInput
  | masterSend (payload : List UInt8)
  | txEmpty
  | byteReceived (byte : UInt8)
  | timerExpired
  | masterPoll
  deriving DecidableEq, Repr

/-- An interrupt can come while it is enabled, a call at any time. -/
def serialEnabled (s : Serial) : SerialInput → Prop
  | .masterSend _ => True
  | .txEmpty => s.txeEnabled = true
  | .byteReceived _ => s.rxneEnabled = true
  | .timerExpired => s.timerEnabled = true
  | .masterPoll => True

instance (s : Serial) (i : SerialInput) : Decidable (serialEnabled s i) :=
  match i with
  | .masterSend _ | .masterPoll => isTrue trivial
  | .txEmpty | .byteReceived _ | .timerExpired => inferInstanceAs (Decidable (_ = _))

def serialStep (s : Serial) : SerialInput → Serial × List Event
  | .masterSend payload => masterSend 6 payload payload.length s
  | .txEmpty => xMBMasterRTUTransmitFSM s
  | .byteReceived byte => xMBMasterRTUReceiveFSM byte s
  | .timerExpired => xMBMasterRTUTimerExpired s
  | .masterPoll => eMBMasterPoll s

/-- The serial side as a reactive system. -/
def serial : Machine Serial SerialInput Event := ⟨serialEnabled,serialStep⟩

instance (s : Serial) (i : SerialInput) : Decidable (serial.enabled s i) :=
  inferInstanceAs (Decidable (serialEnabled s i))

/-- `eMBMasterInit( MB_RTU, ... )`, all of whose parts succeed. -/
def eMBMasterInit (s : Serial) : Serial :=
  { s with rxneEnabled := true, timerEnabled := false, xMasterEventInQueue := false, eMBState := .stateDisabled }
def eMBMasterEnable (s : Serial) : Serial × EMBErrorCode :=
  if s.eMBState = .stateDisabled then ({ eMBMasterRTUStart s with eMBState := .stateEnabled },.mbEnoerr)
  else (s,.mbEillstate)

/-- The state that `System_Setup` leaves. -/
def started : Serial := (eMBMasterEnable (eMBMasterInit .boot)).1
/-- The idle state after the start: the line was quiet for t3.5 and the main loop
    has seen `EV_MASTER_READY`. -/
def startedIdle : Serial := serial.after started [.timerExpired,.masterPoll]

end Net2Modbus
