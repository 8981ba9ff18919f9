import Net2Modbus.Board
import Net2Modbus.StaleBuffer

/-!
# The stored configuration

The commands that set and get the address of the server, the channel of the radio
and the mode, over both transports, against a record of what was set last. Each of
them, and each start, keeps the four words in flash, their mirror in RAM and the address
that the client uses in agreement.
-/
namespace Net2Modbus

/-- The four words. -/
structure Config where
  ip : UInt32
  port : UInt32
  mode : UInt32
  channel : UInt32
  deriving DecidableEq, Repr

inductive Transport
  | tcp | udp
  deriving DecidableEq, Repr

/-- The commands, with the bytes of their arguments. -/
inductive ConfigCommand
  | setconfig (a b c d high low : UInt8)
  | setchl (channel : UInt8)
  | setiap | setapp | getconfig | getchl | getiap
  deriving DecidableEq, Repr

/-- The branch that is meant. -/
def ConfigCommand.command : ConfigCommand → Command
  | .setconfig _ _ _ _ _ _ => .setconfig
  | .setchl _ => .setchl
  | .setiap => .setiap
  | .setapp => .setapp
  | .getconfig => .getconfig
  | .getchl => .getchl
  | .getiap => .getiap

/-- What follows the word; a dot stands before each byte of the address and a colon
    before the port. -/
def ConfigCommand.arguments : ConfigCommand → List UInt8
  | .setconfig a b c d high low => [0x2E,a,0x2E,b,0x2E,c,0x2E,d,0x3A,high,low]
  | .setchl channel => [channel]
  | _ => []

def ConfigCommand.bytes (c : ConfigCommand) : List UInt8 := c.command.word ++ c.arguments

/-- A command in one packet, or a start of the board. -/
inductive ConfigInput
  | command (t : Transport) (env : Surroundings) (stack : Block UInt8 1024) (c : ConfigCommand)
  | reboot

def ConfigInput.onBoard : ConfigInput → BoardInput
  | .command .tcp env _ c => .gateway (.segment env c.bytes)
  | .command .udp env stack c => .datagram env stack c.bytes
  | .reboot => .reset

/-- The commands that a transport has a branch for. -/
def Transport.commands : Transport → List Command
  | .tcp => tcpCommands
  | .udp => udpCommands

/-- The command that is carried out. -/
def ConfigInput.done : ConfigInput → Option ConfigCommand
  | .command t _ _ c => if c.command ∈ t.commands then some c else none
  | .reboot => none

/-- Address and port that a command sets. -/
def ConfigCommand.setsServer : ConfigCommand → Option (UInt32 × UInt32)
  | .setconfig a b c d high low =>
    some ((a.toUInt32 <<< 24) + (b.toUInt32 <<< 16) + (c.toUInt32 <<< 8) + d.toUInt32,
      ((high.toUInt16 <<< 8) + low.toUInt16).toUInt32)
  | _ => none
def ConfigCommand.setsChannel : ConfigCommand → Option UInt32
  | .setchl channel => some channel.toUInt32
  | _ => none
def ConfigCommand.setsMode : ConfigCommand → Option UInt32
  | .setiap => some 0x55555555
  | .setapp => some 0xAAAAAAAA
  | _ => none

/-- What was set last, for each field, or else what the first start left. -/
def configAfter (first : Config) (inputs : List ConfigInput) : Config :=
  let done := inputs.filterMap ConfigInput.done
  let server := (done.filterMap ConfigCommand.setsServer).getLastD (first.ip,first.port)
  { ip := server.1
    port := server.2
    mode := (done.filterMap ConfigCommand.setsMode).getLastD first.mode
    channel := (done.filterMap ConfigCommand.setsChannel).getLastD first.channel }

/-- The words in flash. -/
def Flash.stored (f : Flash) : Config :=
  ⟨f.word ipAddrFlash,f.word ipPortFlash,f.word iapModeFlageFlash,f.word rfChannelFlageFlash⟩
/-- A word that the first start takes for missing. -/
def Config.blank (c : Config) : Prop := c.ip = blankWord ∨ c.port = blankWord ∨ c.channel = blankWord

instance (c : Config) : Decidable c.blank := inferInstanceAs (Decidable (_ ∨ _ ∨ _))

/-- The words that the first start leaves: the defaults when one is missing. -/
def Config.repaired (c : Config) : Config := if c.blank then ⟨0x7B3B60E9,0x162F,c.mode,0⟩ else c

/-- What a get returns. -/
def ConfigCommand.answer (config : Config) : ConfigCommand → List UInt8
  | .getconfig => [0xAB] ++ chars ['I','P'] ++ bigEndian config.ip ++ chars ['P','O','R','T'] ++
      [byteOf config.port 8,byteOf config.port 0] ++ [0xCD,0x24,0x0d,0x0a]
  | .getchl => [0xAB] ++ chars ['C','H'] ++ bigEndian config.channel ++ [0xCD,0x24,0x0d,0x0a]
  | .getiap => [0xAB] ++ bigEndian config.mode ++ [0xCD,0x24,0x0d,0x0a]
  | _ => []

/-- The bytes of a reply behind the answer, of a pbuf that is one too long. -/
def ConfigCommand.unwritten (env : Surroundings) : ConfigCommand → List UInt8
  | .getchl => [env.heap]
  | .getiap => [env.stack.peek 0]
  | _ => []

/-- The reply to an input: the answer of a get or the text of a set. -/
def ConfigInput.reply (config : Config) : ConfigInput → List (List UInt8)
  | .command .tcp _ _ c =>
    match c with
    | .setconfig _ _ _ _ _ _ | .setchl _ => [tcpOk]
    | .getconfig | .getchl => [c.answer config]
    | .setiap | .setapp | .getiap => []
  | .command .udp env _ c =>
    if env.pbufAlloc then
      match c with
      | .getconfig | .getchl | .getiap => [c.answer config ++ c.unwritten env]
      | .setconfig _ _ _ _ _ _ | .setchl _ | .setiap | .setapp => [udpOk]
    else []
  | .reboot => []

/-- The replies among the events. -/
def replies (events : List BoardEvent) : List (List UInt8) :=
  events.filterMap fun
    | .gateway (.tcpWrite bytes) => some bytes
    | .gateway (.udpSend bytes) => some bytes
    | _ => none

/-- No address is set to 255.255.255.255, which stands for a missing one. -/
def ConfigInput.Settable : ConfigInput → Prop
  | .command _ _ _ (.setconfig a b c d _ _) => ¬ (a = 255 ∧ b = 255 ∧ c = 255 ∧ d = 255)
  | _ => True

/-- The address and the port that the client connects to are those in flash. -/
def Client.ServerAgrees (c : Client) : Prop :=
  c.ipaddrSever.cells = bigEndian (c.flash.word ipAddrFlash) ∧ c.portSever = (c.flash.word ipPortFlash).toUInt16

/-- The page of the configuration with four new words. -/
def Flash.setConfig (c : Config) (f : Flash) : Flash :=
  { f with
    irqEnabled := true
    word := fun a =>
      if a = rfChannelFlageFlash then c.channel else if a = iapModeFlageFlash then c.mode
      else if a = ipPortFlash then c.port else if a = ipAddrFlash then c.ip
      else if ipAddrFlash ≤ a ∧ a < ipAddrFlash + flashPageSize then blankWord else f.word a }

@[simp] theorem setConfig_stored (c : Config) (f : Flash) : (f.setConfig c).stored = c := rfl
@[simp] theorem setConfig_outcomes (c : Config) (f : Flash) : (f.setConfig c).outcomes = f.outcomes := rfl

def Config.words (c : Config) : Block UInt32 4 := ⟨[c.ip,c.port,c.mode,c.channel],rfl⟩

/-- The page is erased and the four words are written. -/
theorem erase_write (c : Config) {f : Flash} (complete : f.outcomes = []) :
    flashIfDataFlashWrite ipAddrFlash c.words.cells (flashErasePage ipAddrFlash f).1 =
      { f.setConfig c with irqEnabled := false } := by
  have a1 : ipAddrFlash ≤ userFlashEndAddress - 4 := by decide
  have a2 : ipPortFlash ≤ userFlashEndAddress - 4 := by decide
  have a3 : iapModeFlageFlash ≤ userFlashEndAddress - 4 := by decide
  have a4 : rfChannelFlageFlash ≤ userFlashEndAddress - 4 := by decide
  have e2 : ipAddrFlash + 4 = ipPortFlash := rfl
  have e3 : ipPortFlash + 4 = iapModeFlageFlash := rfl
  have e4 : iapModeFlageFlash + 4 = rfChannelFlageFlash := rfl
  simp only [flashErasePage,Flash.next,complete,if_true,flashIfDataFlashWrite,Config.words,dataFlashWriteLoop,
    flashProgramWord,a1,a2,a3,a4,e2,e3,e4,Flash.setConfig]
theorem writeIpToFlash_complete (c : Config) {f : Flash} (complete : f.outcomes = []) :
    writeIpToFlash c.words f = f.setConfig c := by
  have written := erase_write c (f := { f with irqEnabled := true }) complete
  simp only [writeIpToFlash,flashIfInit,written]
  rfl
theorem read_one (address data : UInt32) (f : Flash) (inside : address ≤ userFlashEndAddress - 4) :
    flashIfDataFlashRead address data 1 f = ({ f with irqEnabled := true },f.word address) := by
  simp [flashIfDataFlashRead,List.range_succ,inside]
/-- What is read, and the repair when a word is missing. -/
theorem getIpFromFlash_eq (f : Flash) :
    getIpFromFlash f =
      if f.stored.blank then
        (flashIfDataFlashWrite ipAddrFlash (Config.words ⟨0x7B3B60E9,0x162F,f.stored.mode,0⟩).cells
          (flashErasePage ipAddrFlash { f with irqEnabled := true }).1,Config.words ⟨0x7B3B60E9,0x162F,f.stored.mode,0⟩)
      else ({ f with irqEnabled := true },f.stored.words) := by
  have a1 : ipAddrFlash ≤ userFlashEndAddress - 4 := by decide
  have a2 : ipPortFlash ≤ userFlashEndAddress - 4 := by decide
  have a3 : iapModeFlageFlash ≤ userFlashEndAddress - 4 := by decide
  have a4 : rfChannelFlageFlash ≤ userFlashEndAddress - 4 := by decide
  simp only [getIpFromFlash,flashIfInit,read_one _ _ _ a1,read_one _ _ _ a2,read_one _ _ _ a3,read_one _ _ _ a4]
  rfl
theorem getIpFromFlash_present {f : Flash} (present : ¬ f.stored.blank) :
    getIpFromFlash f = ({ f with irqEnabled := true },f.stored.words) := by
  rw [getIpFromFlash_eq,if_neg present]
theorem getIpFromFlash_blank {f : Flash} (complete : f.outcomes = []) (blank : f.stored.blank) :
    getIpFromFlash f = ({ f.setConfig f.stored.repaired with irqEnabled := false },f.stored.repaired.words) := by
  have defaults : f.stored.repaired = ⟨0x7B3B60E9,0x162F,f.stored.mode,0⟩ := if_pos blank
  rw [getIpFromFlash_eq,if_pos blank,defaults,erase_write (f := { f with irqEnabled := true }) _ complete]
  rfl

/-- The words in flash, their mirror and the address in use agree, and no word is
    missing. -/
structure ConfigState (c : Client) (config : Config) : Prop where
  complete : c.flash.outcomes = []
  running : c.waiting = false
  stored : c.flash.stored = config
  mirror : c.flashNetBuf = config.words
  server : c.ServerAgrees
  present : ¬ config.blank

theorem repaired_present (c : Config) : ¬ c.repaired.blank := by
  unfold Config.repaired
  split
  · simp only [Config.blank]
    decide
  · assumption
theorem main_configState {flash : Flash} (complete : flash.outcomes = []) :
    ConfigState (.main flash) flash.stored.repaired := by
  have present := repaired_present flash.stored
  by_cases blank : flash.stored.blank
  · have loaded := getIpFromFlash_blank (f := { flash with irqEnabled := true }) complete blank
    have same : Client.main flash = { Client.boot with
        flash := { flash.setConfig flash.stored.repaired with irqEnabled := false }
        flashNetBuf := flash.stored.repaired.words
        ipaddrSever := ⟨bigEndian flash.stored.repaired.ip,rfl⟩
        portSever := flash.stored.repaired.port.toUInt16 } := by
      simp only [Client.main,Client.load,loaded]
      rfl
    rw [same]
    exact ⟨complete,rfl,rfl,rfl,⟨rfl,rfl⟩,present⟩
  · have loaded := getIpFromFlash_present (f := { flash with irqEnabled := true }) blank
    have kept : flash.stored.repaired = flash.stored := if_neg blank
    have same : Client.main flash = { Client.boot with
        flash := { flash with irqEnabled := true }
        flashNetBuf := flash.stored.words
        ipaddrSever := ⟨bigEndian flash.stored.ip,rfl⟩
        portSever := flash.stored.port.toUInt16 } := by
      simp only [Client.main,Client.load,loaded]
      rfl
    rw [same,kept]
    exact ⟨complete,rfl,rfl,rfl,⟨rfl,rfl⟩,kept ▸ present⟩

/-- Loading the words again changes nothing. -/
theorem ConfigState.load {c : Client} {config : Config} (state : ConfigState c config) :
    ConfigState c.load config ∧ c.load.flashNetBuf = config.words := by
  have present : ¬ c.flash.stored.blank := state.stored.symm ▸ state.present
  have loaded := getIpFromFlash_present present
  have same : c.load = { c with flash := { c.flash with irqEnabled := true }, flashNetBuf := config.words } := by
    simp only [Client.load,loaded,state.stored]
  rw [same]
  exact ⟨⟨state.complete,state.running,state.stored,rfl,state.server,state.present⟩,rfl⟩
/-- All four words are written from the mirror. -/
theorem ConfigState.write {c : Client} {config config' : Config} (state : ConfigState c config)
    {address : Block UInt8 4} {port : UInt16} (same : address.cells = bigEndian config'.ip)
    (low : port = config'.port.toUInt16) (present : ¬ config'.blank) :
    ConfigState { c with ipaddrSever := address, portSever := port, flashNetBuf := config'.words,
                         flash := writeIpToFlash config'.words c.flash } config' := by
  rw [writeIpToFlash_complete config' state.complete]
  exact ⟨state.complete,state.running,rfl,rfl,⟨same,low⟩,present⟩
theorem ConfigState.store {c : Client} {config config' : Config} (state : ConfigState c config) {index : Nat}
    {word : UInt32} (words : config.words.poke index word = config'.words) (ip : config'.ip = config.ip)
    (port : config'.port = config.port) (present : ¬ config'.blank) : ConfigState (c.store index word) config' := by
  have kept := state.stored
  obtain ⟨address,low⟩ := state.server
  have same : c.store index word = { c with
      flashNetBuf := config'.words, flash := writeIpToFlash config'.words c.flash } := by
    simp only [Client.store,state.mirror,words]
  rw [same]
  refine state.write ?_ ?_ present
  · rw [address,ip,← kept]
    rfl
  · rw [low,port,← kept]
    rfl

theorem address_present {a b c d : UInt8} (settable : ¬ (a = 255 ∧ b = 255 ∧ c = 255 ∧ d = 255)) :
    (a.toUInt32 <<< 24) + (b.toUInt32 <<< 16) + (c.toUInt32 <<< 8) + d.toUInt32 ≠ blankWord := by
  intro blank
  have ones : bigEndian blankWord = [255,255,255,255] := by decide
  have bytes := bigEndian_bytes a b c d
  rw [blank,ones] at bytes
  simp only [List.cons.injEq,and_true] at bytes
  exact settable ⟨bytes.1.symm,bytes.2.1.symm,bytes.2.2.1.symm,bytes.2.2.2.symm⟩
theorem byte_present (x : UInt8) : x.toUInt32 ≠ blankWord := by
  intro blank
  have small := x.toNat_lt
  have same := congrArg UInt32.toNat blank
  simp [blankWord] at same
  omega
theorem half_present (x : UInt16) : x.toUInt32 ≠ blankWord := by
  intro blank
  have small := x.toNat_lt
  have same := congrArg UInt32.toNat blank
  simp [blankWord] at same
  omega

/-! ### One command -/

theorem bytes_length (c : ConfigCommand) : c.bytes.length ≤ 20 := by
  cases c <;> exact Nat.le_of_ble_eq_true rfl
/-- The branch that a whole command reaches, whatever stood in the buffer. -/
theorem dispatch_config {size : Nat} (old : Block UInt8 size) (room : 20 ≤ size) (c : ConfigCommand)
    (commands : List Command) :
    dispatch commands (old.copy c.bytes) = if c.command ∈ commands then some c.command else none := by
  have short : c.bytes.length ≤ size := (bytes_length c).trans room
  have word := word_copy old short (List.prefix_append c.command.word c.arguments)
  have colon : c.command = .setconfig → (old.copy c.bytes).peek 17 = 0x3A := by
    intro config
    cases c with
    | setconfig a b c d high low => exact old.peek_copy_of_lt (by omega) (Nat.le_of_ble_eq_true rfl)
    | _ => contradiction
  split
  · rename_i member
    exact dispatch_some (by omega) member ((fits_iff _ (by omega) _).mpr ⟨word,colon⟩)
  · rename_i absent
    refine List.find?_eq_none.mpr ?_
    intro other member fits
    have first := ((fits_iff _ (by omega) other).mp fits).1
    have same : other = c.command := by
      rcases List.prefix_or_prefix_of_prefix first word with front | front
      · exact word_unique front
      · exact (word_unique front).symm
    exact absent (same ▸ member)

/-- A command changes its own field. -/
def ConfigCommand.apply (config : Config) (c : ConfigCommand) : Config :=
  { ip := (c.setsServer.getD (config.ip,config.port)).1
    port := (c.setsServer.getD (config.ip,config.port)).2
    mode := c.setsMode.getD config.mode
    channel := c.setsChannel.getD config.channel }
/-- The branches of the two transports do the same to the client. -/
def ConfigCommand.onClient {size : Nat} (buffer : Block UInt8 size) (client : Client) : ConfigCommand → Client
  | .setconfig _ _ _ _ _ _ => client.setConfig buffer
  | .setchl _ => client.store 3 (buffer.peek 6).toUInt32
  | .setiap => client.store 2 0x55555555
  | .setapp => client.store 2 0xAAAAAAAA
  | .getconfig | .getchl | .getiap => client.load

theorem ConfigState.onClient {size : Nat} {client : Client} {config : Config} (state : ConfigState client config)
    (old : Block UInt8 size) (room : 20 ≤ size) {c : ConfigCommand} {t : Transport} {env : Surroundings}
    {stack : Block UInt8 1024} (settable : ConfigInput.Settable (.command t env stack c)) :
    ConfigState (c.onClient (old.copy c.bytes) client) (c.apply config) := by
  have present := state.present
  simp only [Config.blank,not_or] at present
  have read {i : Nat} (bound : i < 20) (inside : i < c.bytes.length) : (old.copy c.bytes).peek i = c.bytes.getD i 0 :=
    old.peek_copy_of_lt (by omega) inside
  cases c with
  | setconfig a b c d high low =>
    have inside {i : Nat} (bound : i < 20) : i < (ConfigCommand.setconfig a b c d high low).bytes.length := bound
    simp only [ConfigCommand.onClient,Client.setConfig,read (i := 10) (by decide) (inside (by decide)),
      read (i := 12) (by decide) (inside (by decide)),read (i := 14) (by decide) (inside (by decide)),
      read (i := 16) (by decide) (inside (by decide)),read (i := 18) (by decide) (inside (by decide)),
      read (i := 19) (by decide) (inside (by decide)),state.mirror]
    refine @ConfigState.write _ _ (ConfigCommand.apply config (.setconfig a b c d high low)) state _ _ ?_ ?_ ?_
    · exact (bigEndian_bytes a b c d).symm
    · exact (UInt16.toUInt16_toUInt32 _).symm
    · simp only [Config.blank,not_or]
      exact ⟨address_present settable,half_present _,present.2.2⟩
  | setchl channel =>
    have inside : 6 < (ConfigCommand.setchl channel).bytes.length := Nat.le_of_ble_eq_true rfl
    simp only [ConfigCommand.onClient,read (i := 6) (by decide) inside]
    refine state.store rfl rfl rfl ?_
    simp only [Config.blank,not_or]
    exact ⟨present.1,present.2.1,byte_present channel⟩
  | setiap => exact state.store rfl rfl rfl state.present
  | setapp => exact state.store rfl rfl rfl state.present
  | getconfig => exact state.load.1
  | getchl => exact state.load.1
  | getiap => exact state.load.1

/-- What a get sends is read from the mirror. -/
theorem records {c : Client} {config : Config} (mirror : c.flashNetBuf = config.words) :
    configRecord c = ConfigCommand.answer config .getconfig ∧ channelRecord c = ConfigCommand.answer config .getchl ∧
      iapRecord c = ConfigCommand.answer config .getiap := by
  simp only [configRecord,channelRecord,iapRecord,mirror]
  exact ⟨rfl,rfl,rfl⟩

theorem replies_append (front back : List BoardEvent) : replies (front ++ back) = replies front ++ replies back :=
  List.filterMap_append
theorem replies_frameBuilt (s : Serial) (events : List Event) : replies (frameBuilt s events) = [] := by
  unfold frameBuilt
  split <;> rfl

/-- The client and the replies after one input. -/
structure ConfigStep (b : Board) (i : ConfigInput) (config : Config) : Prop where
  enabled : board.enabled b i.onBoard
  state : ConfigState (boardStep b i.onBoard).1.gateway.client (i.done.elim config (·.apply config))
  replies : replies (boardStep b i.onBoard).2 = i.reply config

theorem tcp_config {b : Board} {config : Config} (state : ConfigState b.gateway.client config) (env : Surroundings)
    (stack : Block UInt8 1024) (c : ConfigCommand) (settable : ConfigInput.Settable (.command .tcp env stack c)) :
    ConfigStep b (.command .tcp env stack c) config := by
  have length := bytes_length c
  have short : c.bytes.length < 1500 := by omega
  have copied : b.gateway.copyIn c.bytes = b.gateway.tdata.copy c.bytes := if_pos short
  have found := dispatch_config b.gateway.tdata (by decide) c tcpCommands
  have after := state.onClient b.gateway.tdata (by decide) settable
  have loaded := records state.load.2
  have can : board.enabled b (ConfigInput.command .tcp env stack c).onBoard := ⟨state.running,by omega⟩
  by_cases member : c.command ∈ tcpCommands
  · rw [if_pos member] at found
    have done : (ConfigInput.command .tcp env stack c).done = some c := if_pos member
    refine ⟨can,?_,?_⟩
    · rw [done]
      simp only [ConfigInput.onBoard,boardStep,gatewayStep,tcpClientReciver,copied,found]
      cases c with
      | setiap => exact absurd member (by decide)
      | setapp => exact absurd member (by decide)
      | getiap => exact absurd member (by decide)
      | _ => exact after
    · simp only [ConfigInput.onBoard,boardStep,gatewayStep,tcpClientReciver,copied,found,replies_append,
        replies_frameBuilt,short,if_true,List.append_nil]
      cases c with
      | setiap => exact absurd member (by decide)
      | setapp => exact absurd member (by decide)
      | getiap => exact absurd member (by decide)
      | setconfig a b c d high low => rfl
      | setchl channel => rfl
      | getconfig => exact congrArg (fun bytes => [bytes]) loaded.1
      | getchl => exact congrArg (fun bytes => [bytes]) loaded.2.1
  · rw [if_neg member] at found
    have done : (ConfigInput.command .tcp env stack c).done = none := if_neg member
    refine ⟨can,?_,?_⟩
    · rw [done]
      simp only [ConfigInput.onBoard,boardStep,gatewayStep,tcpClientReciver,copied,found]
      exact state
    · simp only [ConfigInput.onBoard,boardStep,gatewayStep,tcpClientReciver,copied,found,replies_append,
        replies_frameBuilt,short,if_true,List.append_nil]
      cases c with
      | setiap => rfl
      | setapp => rfl
      | getiap => rfl
      | setconfig a b c d high low => exact absurd (show Command.setconfig ∈ tcpCommands by decide) member
      | setchl channel => exact absurd (show Command.setchl ∈ tcpCommands by decide) member
      | getconfig => exact absurd (show Command.getconfig ∈ tcpCommands by decide) member
      | getchl => exact absurd (show Command.getchl ∈ tcpCommands by decide) member
theorem udp_config {b : Board} {config : Config} (state : ConfigState b.gateway.client config) (env : Surroundings)
    (stack : Block UInt8 1024) (c : ConfigCommand) (settable : ConfigInput.Settable (.command .udp env stack c)) :
    ConfigStep b (.command .udp env stack c) config := by
  have length := bytes_length c
  have short : c.bytes.length < 1024 := by omega
  have member : c.command ∈ udpCommands := by cases c <;> simp [ConfigCommand.command,udpCommands]
  have found := (dispatch_config stack (by decide) c udpCommands).trans (if_pos member)
  have after := state.onClient stack (by decide) settable
  have loaded := records state.load.2
  have done : (ConfigInput.command .udp env stack c).done = some c := if_pos member
  refine ⟨⟨state.running,by omega⟩,?_,?_⟩
  · rw [done]
    simp only [ConfigInput.onBoard,boardStep,udpClientCallback,short,if_true,found]
    cases c <;> exact after
  · simp only [ConfigInput.onBoard,boardStep,udpClientCallback,short,if_true,found]
    cases alloc : env.pbufAlloc with
    | false => cases c <;> simp [udpExecute,udpReply,alloc,replies,ConfigInput.reply,ConfigCommand.command]
    | true =>
      cases c with
      | getconfig =>
        simp only [ConfigCommand.command,udpExecute,udpReply,alloc,if_true,loaded.1,ConfigInput.reply]
        rfl
      | getchl =>
        simp only [ConfigCommand.command,udpExecute,udpReply,alloc,if_true,loaded.2.1,ConfigInput.reply]
        rfl
      | getiap =>
        simp only [ConfigCommand.command,udpExecute,udpReply,alloc,if_true,loaded.2.2,ConfigInput.reply]
        rfl
      | _ => simp [udpExecute,udpReply,alloc,replies,ConfigInput.reply,ConfigCommand.command,udpOk,chars]
theorem reboot_config {b : Board} {config : Config} (state : ConfigState b.gateway.client config) :
    ConfigStep b .reboot config := by
  have kept : b.gateway.client.flash.stored.repaired = config := by
    rw [state.stored]
    exact if_neg state.present
  have start := main_configState state.complete
  rw [kept] at start
  exact ⟨trivial,start,rfl⟩
theorem configStep {b : Board} {config : Config} (state : ConfigState b.gateway.client config) (i : ConfigInput)
    (settable : i.Settable) : ConfigStep b i config := by
  cases i with
  | reboot => exact reboot_config state
  | command t env stack c =>
    cases t with
    | tcp => exact tcp_config state env stack c settable
    | udp => exact udp_config state env stack c settable

theorem configAfter_append (first : Config) (inputs : List ConfigInput) (i : ConfigInput) :
    configAfter first (inputs ++ [i]) = i.done.elim (configAfter first inputs) (·.apply (configAfter first inputs)) := by
  cases done : i.done with
  | none => simp [configAfter,done]
  | some c => simp [configAfter,done,ConfigCommand.apply,List.filterMap_append]

end Net2Modbus
