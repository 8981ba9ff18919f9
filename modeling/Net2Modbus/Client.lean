import Net2Modbus.Serial
import Net2Modbus.Flash

/-!
# The commands of the TCP and UDP clients

The state of the gateway, and the dispatchers `tcp_client_reciver` and
`udp_client_callback`: the received bytes are copied into a buffer that keeps
what was there behind them, the buffer is compared with the command words in
turn, and the first command that fits is carried out.
-/
namespace Net2Modbus

/-- The unique device id of the processor. -/
structure Uid where
  uid0_31 : UInt32
  uid32_63 : UInt32
  uid64_95 : UInt32
  deriving DecidableEq, Repr

def Uid.sum (uid : Uid) : UInt32 := uid.uid0_31 + uid.uid32_63 + uid.uid64_95

/-- What the commands read and set besides the Modbus side. -/
structure Client where
  cansent : Bool
  retryTcpConnect : UInt32
  systemRunTime : UInt32
  flashNetBuf : Block UInt32 4
  ipaddrSever : Block UInt8 4
  portSever : UInt16
  flash : Flash
  /-- The main loop is in `while(1)` until the watchdog resets the board. -/
  waiting : Bool

/-- The variables before `main`, over a blank flash. -/
def Client.boot : Client where
  cansent := false
  retryTcpConnect := 0
  systemRunTime := 0
  flashNetBuf := .fill 0
  ipaddrSever := .fill 0
  portSever := 0
  flash := ⟨fun _ => blankWord,[],true⟩
  waiting := false

/-- The poll list and the static variables of its walker; `sptr` is an index into
    the list. -/
structure Poller where
  tcp2Rs485CmdList : Block UInt8 1400
  masterCallTrm : UInt32
  devIndex : UInt32
  msaterTime : Int32
  sptr : Nat
  deriving DecidableEq, Repr

structure Gateway where
  serial : Serial
  client : Client
  poller : Poller
  /-- The static receive buffer of `tcp_client_reciver`. -/
  tdata : Block UInt8 1500
  tcpRecvBuf : Block UInt8 1500
  tcpRecvLenth : UInt32
  uid : Uid
  /-- `Check_si4432_HW` finds the radio. -/
  si4432 : Bool

/-- What a callback gets from outside the modelled code: the text of
    `Getmeminf`, whether `pbuf_alloc` succeeds, the bytes that stand in
    uninitialised variables and in a new pbuf, and the date and time of the build. -/
structure Surroundings where
  memInf : List UInt8
  pbufAlloc : Bool
  stack : Block UInt8 4
  heap : UInt8
  date : Block UInt8 12
  time : Block UInt8 9

/-- Surroundings in which everything succeeds and all unwritten bytes are zero. -/
def Surroundings.plain : Surroundings where
  memInf := []
  pbufAlloc := true
  stack := .fill 0
  heap := 0
  date := .fill 0
  time := .fill 0

def chars (text : List Char) : List UInt8 := text.map Char.toUInt8

/-- The commands of both dispatchers. -/
inductive Command
  | downlink | pollList | mem | start | stop | getrun | getid | getiap | setiap | setapp
  | setchl | setconfig | getchl | getconfig | getver | reboot
  deriving DecidableEq, Repr

def Command.word : Command → List UInt8
  | .downlink => [0xFF,0xAA]
  | .pollList => [0xFF,0xBB]
  | .mem => chars ['m','e','m']
  | .start => chars ['s','t','a','r','t']
  | .stop => chars ['s','t','o','p']
  | .getrun => chars ['g','e','t','r','u','n']
  | .getid => chars ['g','e','t','i','d']
  | .getiap => chars ['g','e','t','i','a','p']
  | .setiap => chars ['s','e','t','i','a','p']
  | .setapp => chars ['s','e','t','a','p','p']
  | .setchl => chars ['s','e','t','c','h','l']
  | .setconfig => chars ['s','e','t','c','o','n','f','i','g']
  | .getchl => chars ['g','e','t','c','h','l']
  | .getconfig => chars ['g','e','t','c','o','n','f','i','g']
  | .getver => chars ['g','e','t','v','e','r']
  | .reboot => chars ['r','e','b','o','o','t']

/-- `strncmp(&buffer[offset], word, |word|) == 0`, for words without a zero byte. -/
def strncmpEq {size : Nat} (buffer : Block UInt8 size) (offset : Nat) (word : List UInt8) : Bool :=
  buffer.slice offset word.length == word

/-- The test of one branch; `setconfig` also asks for a colon. -/
def Command.fits {size : Nat} (buffer : Block UInt8 size) (c : Command) : Bool :=
  strncmpEq buffer 0 c.word && (c != .setconfig || strncmpEq buffer 17 (chars [':']))

/-- The branches of `tcp_client_reciver`, in order. -/
def tcpCommands : List Command :=
  [.downlink,.pollList,.mem,.start,.stop,.getrun,.getid,.setchl,.setconfig,.getchl,.getconfig,.reboot]
/-- The branches of `udp_client_callback`, in order. -/
def udpCommands : List Command :=
  [.getid,.getrun,.getiap,.setiap,.setapp,.setchl,.getchl,.getconfig,.setconfig,.getver,.reboot]

/-- The first branch whose test holds. -/
def dispatch {size : Nat} (commands : List Command) (buffer : Block UInt8 size) : Option Command :=
  commands.find? (·.fits buffer)

/-- One byte of a word, counted from the low end. -/
def byteOf (w shift : UInt32) : UInt8 := (w >>> shift).toUInt8
/-- A word with the high byte first. -/
def bigEndian (w : UInt32) : List UInt8 := [byteOf w 24,byteOf w 16,byteOf w 8,byteOf w 0]
/-- The bytes of a word that is put together from bytes. -/
theorem bigEndian_bytes (a b c d : UInt8) :
    bigEndian ((a.toUInt32 <<< 24) + (b.toUInt32 <<< 16) + (c.toUInt32 <<< 8) + d.toUInt32) = [a,b,c,d] := by
  have ha := a.toNat_lt
  have hb := b.toNat_lt
  have hc := c.toNat_lt
  have hd := d.toNat_lt
  simp only [bigEndian,byteOf,List.cons.injEq,and_true]
  refine ⟨?_,?_,?_,?_⟩
  all_goals
    rw [← UInt8.toNat_inj]
    simp [Nat.shiftLeft_eq,Nat.shiftRight_eq_div_pow]
    omega

def Gateway.setUid (bytes : List UInt8) (g : Gateway) : Gateway :=
  { g with serial := { g.serial with uidStm32 := g.serial.uidStm32.copy bytes } }

/-- The twelve bytes of `getrun`: connections and running time. -/
def runRecord (c : Client) : List UInt8 :=
  [0xAA] ++ bigEndian c.retryTcpConnect ++ bigEndian c.systemRunTime ++ [0xBB,0x0d,0x0a]
/-- The nine bytes of `getid` over UDP. -/
def udpIdRecord (uid : Uid) : List UInt8 :=
  [0xAB,0x00,byteOf uid.sum 0,byteOf uid.sum 8,byteOf uid.sum 16,0xCD,0x24,0x0d,0x0a]
/-- The 19 bytes of `getid` over TCP. -/
def tcpIdRecord (uid : Uid) : List UInt8 :=
  [0xFF,0xAA,0x01,0x01,byteOf uid.sum 0,byteOf uid.sum 8,byteOf uid.sum 16,0x01,0x00,0x26,0,0,0,0x00,
    0xAA,0xFF,0x24,0x0d,0x0a]
def iapRecord (c : Client) : List UInt8 := [0xAB] ++ bigEndian (c.flashNetBuf.peek 2) ++ [0xCD,0x24,0x0d,0x0a]
def channelRecord (c : Client) : List UInt8 :=
  [0xAB] ++ chars ['C','H'] ++ bigEndian (c.flashNetBuf.peek 3) ++ [0xCD,0x24,0x0d,0x0a]
def configRecord (c : Client) : List UInt8 :=
  [0xAB] ++ chars ['I','P'] ++ bigEndian (c.flashNetBuf.peek 0) ++ chars ['P','O','R','T'] ++
    [byteOf (c.flashNetBuf.peek 1) 8,byteOf (c.flashNetBuf.peek 1) 0] ++ [0xCD,0x24,0x0d,0x0a]

/-- `GetIpFromFlash(flash_net_buf)`. -/
def Client.load (c : Client) : Client :=
  let (flash,words) := getIpFromFlash c.flash
  { c with flash, flashNetBuf := words }
/-- One word of `flash_net_buf` is set and all of them are written. -/
def Client.store (index : Nat) (word : UInt32) (c : Client) : Client :=
  let words := c.flashNetBuf.poke index word
  { c with flashNetBuf := words, flash := writeIpToFlash words c.flash }
/-- The address and the port of `setconfig`, at fixed places of the buffer. -/
def Client.setConfig {size : Nat} (buffer : Block UInt8 size) (c : Client) : Client :=
  let (a,b,d,e) := (buffer.peek 10,buffer.peek 12,buffer.peek 14,buffer.peek 16)
  let port : UInt16 := ((buffer.peek 18).toUInt16 <<< 8) + (buffer.peek 19).toUInt16
  let ip : UInt32 := (a.toUInt32 <<< 24) + (b.toUInt32 <<< 16) + (d.toUInt32 <<< 8) + e.toUInt32
  let words := (c.flashNetBuf.poke 0 ip).poke 1 port.toUInt32
  { c with ipaddrSever := ⟨[a,b,d,e],rfl⟩, portSever := port, flashNetBuf := words,
           flash := writeIpToFlash words c.flash }

/-- The texts that are sent with their terminating zero. -/
def ffbbSaved : List UInt8 := chars ['F','F','B','B','s','a','v','e','\r','\n'] ++ [0]
def startSent : List UInt8 := chars ['s','t','a','r','t','s','e','n','t','\r','\n'] ++ [0]
def tcpOk : List UInt8 := chars ['O','K'] ++ [0xA3,0xA1] ++ chars ['\r','\n'] ++ [0]
def udpOk : List UInt8 := chars ['O','K','\r','\n']

/-- The branches of `tcp_client_reciver`. -/
def tcpExecute (env : Surroundings) (tcplen : Nat) (c : Command) (g : Gateway) : Gateway × List Event :=
  match c with
  | .downlink =>
    let lenth := UInt32.ofNat tcplen - 5 - 3
    ({ g with tcpRecvLenth := lenth, tcpRecvBuf := g.tcpRecvBuf.copy (g.tdata.slice 3 lenth.toNat) },
      [.subtract tcplen 8,.access ⟨.tdata,3,lenth.toNat⟩,.access ⟨.tcpRecvBuf,0,lenth.toNat⟩])
  | .pollList =>
    let lenth := UInt32.ofNat tcplen - 5 - 2
    let cleared := g.poller.tcp2Rs485CmdList.copy (List.replicate 1024 0)
    let poller := { g.poller with
      tcp2Rs485CmdList := cleared.copy (g.tdata.slice 2 lenth.toNat), devIndex := 0 }
    ({ g with poller, tcpRecvLenth := 0 },
      [.subtract tcplen 7,.access ⟨.tcp2Rs485CmdList,0,1024⟩,.access ⟨.tdata,2,lenth.toNat⟩,
        .access ⟨.tcp2Rs485CmdList,0,lenth.toNat⟩,.tcpWrite ffbbSaved])
  | .mem => (g,[.tcpWrite env.memInf])
  | .start => ({ g with client := { g.client with cansent := true } },[.tcpWrite startSent])
  | .stop => ({ g with client := { g.client with cansent := false } },[.tcpWrite startSent])
  | .getrun => (g.setUid (runRecord g.client),[.access ⟨.uidStm32,0,12⟩,.tcpWrite (runRecord g.client)])
  | .getid => (g.setUid (tcpIdRecord g.uid),[.access ⟨.uidStm32,0,19⟩,.tcpWrite (tcpIdRecord g.uid)])
  | .setchl =>
    ({ g with client := g.client.store 3 (g.tdata.peek 6).toUInt32 },[.access ⟨.tdata,6,1⟩,.tcpWrite tcpOk])
  | .setconfig =>
    ({ g with client := g.client.setConfig g.tdata },[.access ⟨.tdata,10,10⟩,.tcpWrite tcpOk])
  | .getchl => ({ g with client := g.client.load },[.tcpWrite (channelRecord g.client.load)])
  | .getconfig => ({ g with client := g.client.load },[.tcpWrite (configRecord g.client.load)])
  | .reboot => ({ g with client := { g.client with waiting := true } },[])
  | _ => (g,[])

/-- The receive buffer with a new segment: one of 1500 bytes or more is not
    copied. -/
def Gateway.copyIn (p : List UInt8) (g : Gateway) : Block UInt8 1500 :=
  if p.length < 1500 then g.tdata.copy p else g.tdata

/-- `tcp_client_reciver` for received data, `err == ERR_OK && p != NULL`: the buffer
    is looked at whether the segment was copied or not. -/
def tcpClientReciver (env : Surroundings) (p : List UInt8) (g : Gateway) : Gateway × List Event :=
  let g := { g with tdata := g.copyIn p }
  let copied : List Event := if p.length < 1500 then [.access ⟨.tdata,0,p.length⟩] else []
  match dispatch tcpCommands g.tdata with
  | none => (g,.segment p :: copied)
  | some c =>
    let done := tcpExecute env p.length c g
    (done.1,.segment p :: copied ++ done.2)

/-- A reply in a new pbuf of the given size, whose last bytes may not be written. -/
def udpReply (env : Surroundings) (size : Nat) (bytes : List UInt8) : List Event :=
  if env.pbufAlloc then
    [.access ⟨.pbuf size,0,bytes.length⟩,.udpSend ((bytes ++ List.replicate size env.heap).take size)]
  else []

/-- The branches of `udp_client_callback`. -/
def udpExecute (env : Surroundings) (data : Block UInt8 1024) (c : Command) (g : Gateway) : Gateway × List Event :=
  match c with
  | .getid => (g.setUid (udpIdRecord g.uid),.access ⟨.uidStm32,0,9⟩ :: udpReply env 9 (udpIdRecord g.uid))
  | .getrun => (g.setUid (runRecord g.client),.access ⟨.uidStm32,0,12⟩ :: udpReply env 12 (runRecord g.client))
  | .getiap =>
    -- 17 bytes are copied from the ten of `iap`, of which nine were written. Behind the
    -- twelve that the pbuf has room for lies the next block of the heap.
    let iap := iapRecord g.client.load ++ [env.stack.peek 0] ++ List.replicate 7 env.heap
    ({ g with client := g.client.load },.access ⟨.iap,0,17⟩ :: udpReply env 10 iap)
  | .setiap => ({ g with client := g.client.store 2 0x55555555 },udpReply env 4 udpOk)
  | .setapp => ({ g with client := g.client.store 2 0xAAAAAAAA },udpReply env 4 udpOk)
  | .setchl =>
    ({ g with client := g.client.store 3 (data.peek 6).toUInt32 },.access ⟨.data,6,1⟩ :: udpReply env 4 udpOk)
  | .getchl => ({ g with client := g.client.load },udpReply env 12 (channelRecord g.client.load))
  | .getconfig => ({ g with client := g.client.load },udpReply env 17 (configRecord g.client.load))
  | .setconfig =>
    ({ g with client := g.client.setConfig data },.access ⟨.data,10,10⟩ :: udpReply env 4 udpOk)
  | .getver =>
    let vesion := chars ['v','e','r','s','i','o','n','=',' ','0','.','9','.','0',' '] ++
      env.date.slice 0 11 ++ chars [' '] ++ env.time.cells ++ env.stack.cells
    (g,udpReply env 40 vesion)
  | .reboot => ({ g with client := { g.client with waiting := true } },[])
  | _ => (g,[])

/-- `udp_client_callback`; `data` has what the stack held before. -/
def udpClientCallback (env : Surroundings) (data : Block UInt8 1024) (p : List UInt8) (g : Gateway) :
    Gateway × List Event :=
  if p.length < 1024 then
    let data := data.copy p
    match dispatch udpCommands data with
    | none => (g,[.access ⟨.data,0,p.length⟩])
    | some c =>
      let done := udpExecute env data c g
      (done.1,.access ⟨.data,0,p.length⟩ :: done.2)
  else (g,[])

end Net2Modbus
