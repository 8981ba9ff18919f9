import Net2Modbus.InterruptMask

/-!
# What an OK promises

The set commands of both callbacks over a flash whose operations may fail: what stands in
flash when the OK is sent, and what a start of the board reads from it.
-/
namespace Net2Modbus

/-- A segment or a datagram with a set command. -/
inductive SetPacket
  | tcp (env : Surroundings) (p : List UInt8)
  | udp (env : Surroundings) (stack : Block UInt8 1024) (p : List UInt8)

namespace SetPacket

/-- The command that the callback finds. -/
def command (g : Gateway) : SetPacket → Option Command
  | .tcp _ p => dispatch tcpCommands (g.copyIn p)
  | .udp _ stack p => if p.length < 1024 then dispatch udpCommands (stack.copy p) else none
def run (g : Gateway) : SetPacket → Gateway × List Event
  | .tcp env p => tcpClientReciver env p g
  | .udp env stack p => udpClientCallback env stack p g
/-- The reply that says OK. -/
def ok : SetPacket → Event
  | .tcp _ _ => .tcpWrite tcpOk
  | .udp _ _ _ => .udpSend udpOk
/-- A reply can be sent. -/
def answers : SetPacket → Bool
  | .tcp _ _ => true
  | .udp env _ _ => env.pbufAlloc

end SetPacket

def setCommands : List Command := [.setconfig,.setchl,.setiap,.setapp]

/-- The four words that a set command asks for. -/
def Command.newWords {size : Nat} (buffer : Block UInt8 size) (words : Block UInt32 4) : Command → Block UInt32 4
  | .setconfig =>
    let ip : UInt32 := ((buffer.peek 10).toUInt32 <<< 24) + ((buffer.peek 12).toUInt32 <<< 16) +
      ((buffer.peek 14).toUInt32 <<< 8) + (buffer.peek 16).toUInt32
    let port : UInt16 := ((buffer.peek 18).toUInt16 <<< 8) + (buffer.peek 19).toUInt16
    (words.poke 0 ip).poke 1 port.toUInt32
  | .setchl => words.poke 3 (buffer.peek 6).toUInt32
  | .setiap => words.poke 2 0x55555555
  | .setapp => words.poke 2 0xAAAAAAAA
  | _ => words
def SetPacket.newWords (g : Gateway) (c : Command) : SetPacket → Block UInt32 4
  | .tcp _ p => c.newWords (g.copyIn p) g.client.flashNetBuf
  | .udp _ stack p => c.newWords (stack.copy p) g.client.flashNetBuf

/-- The four words as a configuration. -/
def Block.config (words : Block UInt32 4) : Config := ⟨words.peek 0,words.peek 1,words.peek 2,words.peek 3⟩

/-- When OK is sent the new words stand in flash and the next start reads them, and when the
    erase or a program fails no OK is sent. -/
def SetPacket.Persists (g : Gateway) (c : Command) (i : SetPacket) : Prop :=
  (i.ok ∈ (i.run g).2 → (i.run g).1.client.flash.stored = (i.newWords g c).config ∧
      (Client.main (i.run g).1.client.flash).flashNetBuf = i.newWords g c) ∧
    (¬ g.client.flash.Works 5 → i.ok ∉ (i.run g).2)

theorem config_words (words : Block UInt32 4) : words.config.words = words := by
  obtain ⟨cells,size⟩ := words
  match cells,size with
  | [_,_,_,_],_ => rfl

/-- What a write that completes leaves. -/
def writeWords : UInt32 → List UInt32 → (UInt32 → UInt32) → UInt32 → UInt32
  | _,[],word => word
  | address,data :: rest,word => writeWords (address + 4) rest fun a => if a = address then data else word a

section
variable {f : Flash}

theorem program_word {address data : UInt32} (complete : (flashProgramWord address data f).2 = true) :
    (flashProgramWord address data f).1.word = fun a => if a = address then data else f.word a := by
  have done : f.next.2 = true := program_result.symm.trans complete
  simp only [flashProgramWord,done,if_true,next_word]
theorem dataFlashWriteLoop_word (data : List UInt32) (address : UInt32) (f : Flash) (all : f.WritesAll address data) :
    (dataFlashWriteLoop address f data).word = writeWords address data f.word := by
  induction data generalizing address f with
  | nil => rfl
  | cons data rest ih =>
    obtain ⟨inside,complete,later⟩ := writesAll_cons.mp all
    rw [dataFlashWriteLoop_cons,if_pos inside,if_pos complete,ih _ _ later,program_word complete]
    rfl
/-- When the erase and the four programs complete the words are new. -/
theorem writeIpToFlash_works (words : Block UInt32 4) (works : f.Works 5) : (writeIpToFlash words f).stored = words.config := by
  have all : ({ (flashErasePage ipAddrFlash { f with irqEnabled := true }).1 with irqEnabled := false } : Flash).WritesAll
      ipAddrFlash words.cells := (repair_writesAll f words).mpr (works_succ.mp works).2
  have written := dataFlashWriteLoop_word _ _ _ all
  obtain ⟨cells,size⟩ := words
  match cells,size with
  | [ip,port,mode,channel],_ =>
    have word : (writeIpToFlash ⟨[ip,port,mode,channel],rfl⟩ f).word =
        writeWords ipAddrFlash [ip,port,mode,channel] (flashErasePage ipAddrFlash { f with irqEnabled := true }).1.word := written
    rw [Flash.stored,word]
    rfl
theorem defaults_present (mode : UInt32) : ¬ (Config.blank ⟨0x7B3B60E9,0x162F,mode,0⟩) := by
  simp only [Config.blank]
  decide
/-- A start reads what is stored exactly when no word is missing. -/
theorem main_reads {words : Block UInt32 4} (stored : f.stored = words.config) :
    (Client.main f).flashNetBuf = words ↔ ¬ words.config.blank := by
  have loaded : (Client.main f).flashNetBuf = (getIpFromFlash { f with irqEnabled := true }).2 := rfl
  have same : ({ f with irqEnabled := true } : Flash).stored = words.config := stored
  rw [loaded,getIpFromFlash_eq,same]
  split
  next blank =>
    refine iff_of_false ?_ (not_not.mpr blank)
    intro read
    rw [← read] at blank
    exact defaults_present _ blank
  next present => exact iff_of_true (config_words words) present

end

section
variable {g : Gateway} {c : Command} {i : SetPacket}

/-- A set command writes its words, and says OK when a reply can be sent. -/
structure SetPacket.Sets (g : Gateway) (c : Command) (i : SetPacket) : Prop where
  mirror : (i.run g).1.client.flashNetBuf = i.newWords g c
  flash : (i.run g).1.client.flash = writeIpToFlash (i.newWords g c) g.client.flash
  ok : i.ok ∈ (i.run g).2 ↔ i.answers = true

theorem tcp_sets {env : Surroundings} {p : List UInt8} (found : SetPacket.command g (.tcp env p) = some c) (set : c ∈ setCommands) :
    SetPacket.Sets g c (.tcp env p) := by
  have member : c ∈ tcpCommands := List.mem_of_find?_eq_some found
  have run : SetPacket.run g (.tcp env p) = ((tcpExecute env p.length c { g with tdata := g.copyIn p }).1,
      Event.segment p :: (if p.length < 1500 then [Event.access ⟨.tdata,0,p.length⟩] else []) ++
        (tcpExecute env p.length c { g with tdata := g.copyIn p }).2) := by
    simp only [SetPacket.command] at found
    simp only [SetPacket.run,tcpClientReciver,found]
  simp only [setCommands,List.mem_cons,List.not_mem_nil,or_false] at set
  rcases set with rfl | rfl | rfl | rfl
  · refine ⟨by rw [run]; rfl,by rw [run]; rfl,iff_of_true ?_ rfl⟩
    rw [run]
    exact List.mem_append_right _ (List.mem_cons_of_mem _ (List.mem_singleton_self _))
  · refine ⟨by rw [run]; rfl,by rw [run]; rfl,iff_of_true ?_ rfl⟩
    rw [run]
    exact List.mem_append_right _ (List.mem_cons_of_mem _ (List.mem_singleton_self _))
  · exact absurd member (by decide)
  · exact absurd member (by decide)
/-- The OK of a datagram. -/
theorem udpReply_ok (env : Surroundings) : .udpSend udpOk ∈ udpReply env 4 udpOk ↔ env.pbufAlloc = true := by
  unfold udpReply
  split
  next alloc => exact iff_of_true (List.mem_cons_of_mem _ (List.mem_singleton_self _)) alloc
  next refused => exact iff_of_false (List.not_mem_nil) refused
theorem udp_sets {env : Surroundings} {stack : Block UInt8 1024} {p : List UInt8}
    (found : SetPacket.command g (.udp env stack p) = some c) (set : c ∈ setCommands) : SetPacket.Sets g c (.udp env stack p) := by
  simp only [SetPacket.command,Option.ite_none_right_eq_some] at found
  obtain ⟨short,found⟩ := found
  have run : SetPacket.run g (.udp env stack p) = ((udpExecute env (stack.copy p) c g).1,
      .access ⟨.data,0,p.length⟩ :: (udpExecute env (stack.copy p) c g).2) := by
    simp only [SetPacket.run,udpClientCallback,short,if_true,found]
  have skip : ∀ use events, (.udpSend udpOk ∈ Event.access use :: events) ↔ .udpSend udpOk ∈ events :=
    fun _ _ => List.mem_cons.trans (or_iff_right Event.noConfusion)
  simp only [setCommands,List.mem_cons,List.not_mem_nil,or_false] at set
  -- `setchl` and `setconfig` look at the datagram once more.
  have replies : .udpSend udpOk ∈ (udpExecute env (stack.copy p) c g).2 ↔ env.pbufAlloc = true := by
    rcases set with rfl | rfl | rfl | rfl
    · exact (skip _ _).trans (udpReply_ok env)
    · exact (skip _ _).trans (udpReply_ok env)
    · exact udpReply_ok env
    · exact udpReply_ok env
  refine ⟨?_,?_,?_⟩
  · rw [run]
    rcases set with rfl | rfl | rfl | rfl <;> rfl
  · rw [run]
    rcases set with rfl | rfl | rfl | rfl <;> rfl
  · rw [run]
    exact (skip _ _).trans replies
theorem packet_sets (found : i.command g = some c) (set : c ∈ setCommands) : i.Sets g c := by
  cases i with
  | tcp env p => exact tcp_sets found set
  | udp env stack p => exact udp_sets found set

end

/-- A set command keeps its promise exactly when it cannot answer, or the erase and the four
    programs complete and no word of the new configuration is 0xffffffff. -/
theorem set_persists (g : Gateway) (c : Command) (i : SetPacket) (found : i.command g = some c) (set : c ∈ setCommands) :
    i.Persists g c ↔ (i.answers = true → g.client.flash.Works 5 ∧ ¬ (i.newWords g c).config.blank) := by
  obtain ⟨-,flash,ok⟩ := packet_sets found set
  have stored : g.client.flash.Works 5 → (i.run g).1.client.flash.stored = (i.newWords g c).config := by
    intro works
    rw [flash]
    exact writeIpToFlash_works _ works
  unfold SetPacket.Persists
  rw [ok]
  constructor
  · rintro ⟨promise,honest⟩ answers
    have works : g.client.flash.Works 5 := by
      by_contra failed
      exact honest failed answers
    exact ⟨works,(main_reads (stored works)).mp (promise answers).2⟩
  · intro good
    constructor
    · intro answers
      obtain ⟨works,present⟩ := good answers
      exact ⟨stored works,(main_reads (stored works)).mpr present⟩
    · intro failed answers
      exact failed (good answers).1
/-- A new channel over TCP. -/
theorem set_persists_channel :
    let g := (Board.main ⟨fun _ => 1,[],true⟩ ⟨1,2,3⟩ false).gateway
    let i := SetPacket.tcp .plain (ConfigCommand.setchl 7).bytes
    i.Persists g .setchl ↔ (i.answers = true → g.client.flash.Works 5 ∧ ¬ (i.newWords g .setchl).config.blank) :=
  set_persists (Board.main ⟨fun _ => 1,[],true⟩ ⟨1,2,3⟩ false).gateway .setchl (.tcp .plain (ConfigCommand.setchl 7).bytes)
    (by decide) (by decide)
/-- The page is erased and the first program fails, over TCP and over UDP. -/
theorem set_persists_fails :
    let g := (Board.main ⟨fun _ => 1,[true,false],true⟩ ⟨1,2,3⟩ false).gateway
    let tcp := SetPacket.tcp .plain (ConfigCommand.setchl 7).bytes
    let udp := SetPacket.udp .plain (.fill 0) ConfigCommand.setiap.bytes
    (tcp.command g = some .setchl ∧ ¬ tcp.Persists g .setchl) ∧ udp.command g = some .setiap ∧ ¬ udp.Persists g .setiap := by
  have failed : ¬ (Board.main ⟨fun _ => 1,[true,false],true⟩ ⟨1,2,3⟩ false).gateway.client.flash.Works 5 :=
    fun works => Bool.false_ne_true (works false (by decide))
  refine ⟨⟨by decide,?_⟩,by decide,?_⟩
  · intro promise
    exact promise.2 failed (by decide)
  · intro promise
    exact promise.2 failed (by decide)

end Net2Modbus
