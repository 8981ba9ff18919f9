import Net2Modbus.ConfigStore
import Net2Modbus.HeapUse

/-!
# The configuration over the network

The configuration commands on a board whose heap is the one of the network stack. A reply over
UDP goes into a new pbuf, which `mem_malloc` gives or does not; the reply to `getiap` is
longer than its pbuf and runs over the link behind it. Until that has happened, every command
is answered for which the heap has room, with what was set last.
-/
namespace Net2Modbus
open FirstFit

/-- The size that `pbuf_alloc(PBUF_TRANSPORT, length, PBUF_RAM)` asks `mem_malloc` for: a
    `struct pbuf` of 16 bytes, 54 for the headers, and the payload. -/
def pbufSize (length : Nat) : UInt16 := UInt16.ofNat (lwipMemAlignSize (16 + 54) + lwipMemAlignSize length)
/-- Where the payload of such a pbuf begins. -/
def pbufPayload (p : Nat) : Nat := lwipMemAlignSize (p + 16 + 54)

/-- The length of the pbuf that a command asks for over UDP. -/
def ConfigCommand.pbufLength : ConfigCommand → Nat
  | .getconfig => 17
  | .getchl => 12
  | .getiap => 10
  | .setconfig _ _ _ _ _ _ | .setchl _ | .setiap | .setapp => 4
/-- What is copied into it; `behind` is what stands on the stack behind `iap`. -/
def ConfigCommand.copied (client : Client) (env : Surroundings) (behind : Block UInt8 7) : ConfigCommand → List UInt8
  | .getconfig => configRecord client.load
  | .getchl => channelRecord client.load
  | .getiap => iapRecord client.load ++ [env.stack.peek 0] ++ behind.cells
  | .setconfig _ _ _ _ _ _ | .setchl _ | .setiap | .setapp => udpOk

/-- The length of the pbuf and of what is copied are those that the callback uses. -/
theorem udpExecute_copies (env : Surroundings) (data : Block UInt8 1024) (g : Gateway) (behind : Block UInt8 7)
    (c : ConfigCommand) :
    .access ⟨.pbuf c.pbufLength,0,(c.copied g.client env behind).length⟩ ∈
      (udpExecute { env with pbufAlloc := true } data c.command g).2 := by
  cases c <;> simp [ConfigCommand.command,ConfigCommand.pbufLength,ConfigCommand.copied,udpExecute,udpReply,iapRecord,
    bigEndian,udpOk]

/-- The pbuf of a reply: it is filled, the stack sends it, with what calls it makes meanwhile,
    and it is freed, unless the stack has queued it. What the stack writes into the pbuf before
    the payload is among the calls. The memory, if all calls come back, and whether there was
    a pbuf. -/
def Memory.reply (length : Nat) (copied : List UInt8) (sending : List HeapCall) (queued : Bool) (m : Memory) :
    Option Memory × Bool :=
  match m.malloc (pbufSize length) with
  | none => (none,false)
  | some (m,none) => (some m,false)
  | some (m,some p) =>
    ((carryOutAll sending (m.write (pbufPayload p) copied)).map fun m => if queued then m else m.free p,true)
/-- The calls that the stack makes meanwhile are legal, and leave the pbuf to the callback. -/
def LegalSending (length : Nat) (copied : List UInt8) (sending : List HeapCall) (m : Memory) : Prop :=
  ∀ m' p, m.malloc (pbufSize length) = some (m',some p) →
    LegalCalls sending (m'.write (pbufPayload p) copied) ∧ .free p ∉ sending

/-- The board with its memory. -/
structure NetBoard where
  board : Board
  memory : Memory

/-- The board when `main` enters its loop, over whatever is in the RAM. -/
def NetBoard.main (flash : Flash) (uid : Uid) (si4432 : Bool) (ram : Nat → UInt8) : NetBoard :=
  ⟨.main flash uid si4432,.init ram⟩

/-- The memory after a call; one that does not come back stops the board until the watchdog
    resets it. -/
def NetBoard.leave (n : NetBoard) : Option Memory → NetBoard
  | some memory => { n with memory }
  | none => { n with board := n.board.setClient fun c => { c with waiting := true } }

theorem leave_board {n : NetBoard} {memory : Option Memory} (came : memory.isSome) : (n.leave memory).board = n.board := by
  obtain ⟨m,rfl⟩ := Option.isSome_iff_exists.mp came
  rfl

/-- What happens to the board: the stack uses its heap, and the inputs of the configuration come
    in. Over UDP it is the heap that says whether `pbuf_alloc` succeeds. -/
inductive NetInput
  | call (c : HeapCall)
  | config (i : ConfigInput) (behind : Block UInt8 7) (sending : List HeapCall) (queued : Bool)

def netEnabled (n : NetBoard) : NetInput → Prop
  | .call c => n.board.gateway.client.waiting = false ∧ c.Legal n.memory
  | .config i behind sending _ =>
    boardEnabled n.board i.onBoard ∧
      match i with
      | .command .udp env _ c =>
        LegalSending c.pbufLength (c.copied n.board.gateway.client env behind) sending n.memory
      | .command .tcp _ _ _ => LegalCalls sending n.memory
      | .reboot => True

def netStep (n : NetBoard) : NetInput → NetBoard × List BoardEvent
  | .call c => (n.leave (c.carryOut n.memory),[])
  | .config (.command .udp env stack c) behind sending queued =>
    let answer := n.memory.reply c.pbufLength (c.copied n.board.gateway.client env behind) sending queued
    let done := boardStep n.board (ConfigInput.onBoard (.command .udp { env with pbufAlloc := answer.2 } stack c))
    (NetBoard.leave ⟨done.1,n.memory⟩ answer.1,done.2)
  | .config (.command .tcp env stack c) _ sending _ =>
    let done := boardStep n.board (ConfigInput.onBoard (.command .tcp env stack c))
    (NetBoard.leave ⟨done.1,n.memory⟩ (carryOutAll sending n.memory),done.2)
  | .config .reboot _ _ _ =>
    let done := boardStep n.board (ConfigInput.onBoard .reboot)
    (⟨done.1,.init n.memory.heap.ram⟩,done.2)

def network : Machine NetBoard NetInput BoardEvent := ⟨netEnabled,netStep⟩

/-- A first-fit allocator has room for a pbuf. -/
def RoomFor (length : Nat) (extents : List Extent) : Bool := (mallocExtents (pbufSize length) extents).isSome

/-- What a reply does to the extents of a first-fit allocator. -/
def replyExtents (length : Nat) (sending : List HeapCall) (queued : Bool) (extents : List Extent) : List Extent :=
  match mallocExtents (pbufSize length) extents with
  | none => extents
  | some (place,extents) =>
    let extents := sending.foldl HeapCall.onExtents extents
    if queued then extents else release sizeofStructMem place 0 extents
/-- The extents of an allocator that is asked for the same, but is not written over. -/
def NetInput.onExtents (extents : List Extent) : NetInput → List Extent
  | .call c => c.onExtents extents
  | .config (.command .udp _ _ c) _ sending queued => replyExtents c.pbufLength sending queued extents
  | .config (.command .tcp _ _ _) _ sending _ => sending.foldl HeapCall.onExtents extents
  | .config .reboot _ _ _ => freshExtents

/-- `getiap` over UDP, when there is room for its pbuf. -/
def NetInput.Overruns (extents : List Extent) : NetInput → Prop
  | .config (.command .udp _ _ .getiap) _ _ _ => RoomFor 10 extents
  | _ => False
/-- No `getiap` over UDP has been answered. -/
def NeverOverruns : List Extent → List NetInput → Prop
  | _,[] => True
  | extents,i :: rest => ¬ i.Overruns extents ∧ NeverOverruns (i.onExtents extents) rest

def NetInput.Settable : NetInput → Prop
  | .call _ => True
  | .config i _ _ _ => i.Settable
/-- The inputs of the configuration among others. -/
def configInputs (inputs : List NetInput) : List ConfigInput :=
  inputs.filterMap fun
    | .call _ => none
    | .config i _ _ _ => some i
/-- What is to be replied: over UDP when there is room for it. -/
def NetInput.reply (extents : List Extent) (config : Config) : NetInput → List (List UInt8)
  | .call _ => []
  | .config (.command .udp env stack c) _ _ _ =>
    ConfigInput.reply config (.command .udp { env with pbufAlloc := RoomFor c.pbufLength extents } stack c)
  | .config i _ _ _ => i.reply config

/-- The configuration is what was set last, and the heap is that of a first-fit allocator. -/
structure NetState (n : NetBoard) (extents : List Extent) (config : Config) : Prop where
  config : ConfigState n.board.gateway.client config
  kept : n.memory.Kept extents

section
variable {m : Memory} {n : NetBoard} {extents : List Extent} {config first : Config} {length : Nat} {copied : List UInt8}
  {sending : List HeapCall} {queued : Bool}

/-- There is a pbuf exactly when there is room for one. -/
theorem Memory.Kept.reply_given (kept : m.Kept extents) :
    (m.reply length copied sending queued).2 = RoomFor length extents := by
  have done := kept.malloc (pbufSize length)
  unfold Memory.reply RoomFor
  split at done
  · rename_i none
    obtain ⟨m',came,-⟩ := done
    rw [none,came]
    rfl
  · rename_i some_
    obtain ⟨m',came,-⟩ := done
    rw [some_,came]
    rfl
/-- A reply that fits into its pbuf leaves the heap in order. -/
theorem Memory.Kept.reply (kept : m.Kept extents) (queued : Bool) (legal : LegalSending length copied sending m)
    (fits : RoomFor length extents → ∀ block, mallocSize (pbufSize length) = some block → 72 + copied.length ≤ block) :
    ∃ m', (m.reply length copied sending queued).1 = some m' ∧ m'.Kept (replyExtents length sending queued extents) := by
  have done := kept.malloc (pbufSize length)
  unfold Memory.reply replyExtents
  cases taken : mallocExtents (pbufSize length) extents with
  | none =>
    rw [taken] at done
    obtain ⟨m',came,kept',-⟩ := done
    rw [came]
    exact ⟨m',rfl,kept'⟩
  | some found =>
    obtain ⟨place,extents'⟩ := found
    rw [taken] at done
    obtain ⟨m',came,kept',held⟩ := done
    obtain ⟨legal,stays⟩ := legal m' _ came
    obtain ⟨block,asked,-⟩ := mallocExtents_some taken
    have inside := fits (by rw [RoomFor,taken]; rfl) block asked
    rw [asked,Option.getD_some] at held
    have mem : (place + sizeofStructMem,block) ∈ m'.held := held ▸ List.mem_cons_self
    have four := kept'.aligned mem
    have payload : pbufPayload (place + sizeofStructMem) = place + sizeofStructMem + 72 := by
      dsimp only at four
      unfold pbufPayload lwipMemAlignSize
      omega
    rw [payload] at legal
    have written : (m'.write (place + sizeofStructMem + 72) copied).Kept extents' := kept'.write ⟨_,mem,rfl,inside⟩
    obtain ⟨last,ends,kept'',remains⟩ := written.calls legal
    rw [came]
    dsimp only
    rw [payload,ends]
    refine ⟨_,rfl,?_⟩
    cases queued with
    | true => exact kept''
    | false =>
      have freed := kept''.free ⟨_,remains _ mem stays,rfl⟩
      rwa [Nat.add_sub_cancel] at freed

/-- Every other reply fits into its pbuf. -/
theorem copied_fits (client : Client) (env : Surroundings) (behind : Block UInt8 7) {c : ConfigCommand} (other : c ≠ .getiap)
    {block : Nat} (asked : mallocSize (pbufSize c.pbufLength) = some block) :
    72 + (c.copied client env behind).length ≤ block := by
  have ok : mallocSize (pbufSize 4) = some 76 := by decide
  have channel : mallocSize (pbufSize 12) = some 84 := by decide
  have config : mallocSize (pbufSize 17) = some 92 := by decide
  cases c with
  | getiap => contradiction
  | getconfig =>
    obtain rfl := Option.some.inj (config.symm.trans asked)
    exact Nat.le_of_ble_eq_true rfl
  | getchl =>
    obtain rfl := Option.some.inj (channel.symm.trans asked)
    exact Nat.le_of_ble_eq_true rfl
  | _ =>
    obtain rfl := Option.some.inj (ok.symm.trans asked)
    exact Nat.le_of_ble_eq_true rfl

theorem settable_env {t : Transport} {env : Surroundings} (env' : Surroundings) {stack : Block UInt8 1024} {c : ConfigCommand}
    (settable : ConfigInput.Settable (.command t env stack c)) : ConfigInput.Settable (.command t env' stack c) := by
  cases c <;> exact settable
section
variable {t : Transport} {env : Surroundings} {stack : Block UInt8 1024} {c : ConfigCommand} {behind : Block UInt8 7}

/-- A datagram is answered when the heap gives a pbuf. -/
theorem datagram_replies (state : ConfigState n.board.gateway.client config)
    (settable : ConfigInput.Settable (.command .udp env stack c)) :
    replies (netStep n (.config (.command .udp env stack c) behind sending queued)).2 =
      ConfigInput.reply config (.command .udp { env with
        pbufAlloc := (n.memory.reply c.pbufLength (c.copied n.board.gateway.client env behind) sending queued).2 } stack c) :=
  (configStep state (.command .udp _ stack c) (settable_env _ settable)).replies
theorem datagram_refused (state : ConfigState n.board.gateway.client config)
    (settable : ConfigInput.Settable (.command .udp env stack c))
    (refused : (n.memory.reply c.pbufLength (c.copied n.board.gateway.client env behind) sending queued).2 = false) :
    replies (netStep n (.config (.command .udp env stack c) behind sending queued)).2 = [] := by
  rw [datagram_replies state settable,refused]
  rfl
/-- It is carried out whether the heap gives a pbuf or not. -/
theorem datagram_state (state : ConfigState n.board.gateway.client config)
    (settable : ConfigInput.Settable (.command .udp env stack c))
    (came : (n.memory.reply c.pbufLength (c.copied n.board.gateway.client env behind) sending queued).1.isSome) :
    ConfigState (netStep n (.config (.command .udp env stack c) behind sending queued)).1.board.gateway.client
      ((ConfigInput.command .udp env stack c).done.elim config (·.apply config)) := by
  rw [netStep,leave_board came]
  exact (configStep state (.command .udp _ stack c) (settable_env _ settable)).state

end

theorem NetState.replies (state : NetState n extents config) {i : NetInput} (settable : i.Settable) :
    replies (netStep n i).2 = i.reply extents config := by
  cases i with
  | call c => rfl
  | config i behind sending queued =>
    cases i with
    | reboot => exact (configStep state.config .reboot trivial).replies
    | command t env stack c =>
      cases t with
      | tcp => exact (configStep state.config (.command .tcp env stack c) settable).replies
      | udp =>
        rw [datagram_replies state.config settable,state.kept.reply_given]
        rfl

/-- What an input does to the configuration. -/
def NetInput.apply (config : Config) : NetInput → Config
  | .call _ => config
  | .config i _ _ _ => i.done.elim config (·.apply config)

theorem configAfter_snoc {inputs : List NetInput} {i : NetInput} :
    configAfter first (configInputs (inputs ++ [i])) = i.apply (configAfter first (configInputs inputs)) := by
  cases i with
  | call c => simp [configInputs,NetInput.apply]
  | config i behind sending queued =>
    rw [configInputs,List.filterMap_append]
    exact configAfter_append ..
/-- What one input keeps, if it does not overrun its pbuf. -/
theorem NetState.step (state : NetState n extents config) {i : NetInput} (settable : i.Settable) (enabled : netEnabled n i)
    (clear : ¬ i.Overruns extents) : NetState (netStep n i).1 (i.onExtents extents) (i.apply config) := by
  cases i with
  | call c =>
    obtain ⟨-,legal⟩ := enabled
    obtain ⟨memory,came,kept⟩ := state.kept.call c legal
    rw [netStep,came]
    exact ⟨state.config,kept⟩
  | config i behind sending queued =>
    obtain ⟨-,legal⟩ := enabled
    cases i with
    | reboot => exact ⟨(configStep state.config .reboot trivial).state,init_kept _⟩
    | command t env stack c =>
      cases t with
      | tcp =>
        obtain ⟨memory,came,kept,-⟩ := state.kept.calls legal
        have one := configStep state.config (.command .tcp env stack c) settable
        rw [netStep,came]
        exact ⟨one.state,kept⟩
      | udp =>
        obtain ⟨memory,came,kept⟩ := state.kept.reply queued legal fun room block asked => by
          by_cases iap : c = .getiap
          · subst iap
            exact absurd room clear
          · exact copied_fits _ _ _ iap asked
        refine ⟨datagram_state state.config settable (by rw [came]; rfl),?_⟩
        rw [netStep,came]
        exact kept
theorem net_run {front inputs : List NetInput} (state : NetState n extents (configAfter first (configInputs front)))
    (settable : ∀ i ∈ inputs, i.Settable) (admissible : network.Admissible n inputs) (clear : NeverOverruns extents inputs) :
    NetState (network.after n inputs) (inputs.foldl NetInput.onExtents extents)
      (configAfter first (configInputs (front ++ inputs))) := by
  induction inputs generalizing n extents front with
  | nil => simpa using state
  | cons i rest ih =>
    obtain ⟨now,later⟩ := List.forall_mem_cons.mp settable
    have one := state.step now admissible.1 clear.1
    rw [← configAfter_snoc] at one
    have last := ih one later admissible.2 clear.2
    rwa [List.append_assoc] at last

/-- The board runs, the words in flash are what was set last, the client's address agrees with
    them, and the commands for whose reply there is room are answered with them. -/
structure ConfigServed (n : NetBoard) (extents : List Extent) (config : Config) : Prop where
  running : n.board.gateway.client.waiting = false
  stored : n.board.gateway.client.flash.stored = config
  server : n.board.gateway.client.ServerAgrees
  replies : ∀ i : NetInput, i.Settable → Net2Modbus.replies (network.step n i).2 = i.reply extents config

/-- Until a `getiap` over UDP has been answered, the configuration is kept over any commands and
    starts with a flash that works, whatever else uses the heap. -/
theorem config_store (flash : Flash) (complete : flash.outcomes = []) (uid : Uid) (si4432 : Bool) (ram : Nat → UInt8)
    (inputs : List NetInput) (settable : ∀ i ∈ inputs, i.Settable)
    (admissible : network.Admissible (.main flash uid si4432 ram) inputs) (clear : NeverOverruns freshExtents inputs) :
    ConfigServed (network.after (.main flash uid si4432 ram) inputs) (inputs.foldl NetInput.onExtents freshExtents)
      (configAfter flash.stored.repaired (configInputs inputs)) := by
  have start : NetState (.main flash uid si4432 ram) freshExtents (configAfter flash.stored.repaired (configInputs [])) :=
    ⟨main_configState complete,init_kept ram⟩
  have last := net_run start settable admissible clear
  rw [List.nil_append] at last
  exact ⟨last.config.running,last.config.stored,last.config.server,fun i now => last.replies now⟩

end

/-- A command over UDP, with the byte `a` on the stack behind `iap`, and no other use of the
    heap. -/
def datagramAlone (c : ConfigCommand) : NetInput := .config (.command .udp .plain (.fill 0) c) (.fill 0x61) [] false

/-- The board over a blank flash. -/
def blankBoard : NetBoard := .main ⟨fun _ => blankWord,[],true⟩ ⟨1,2,3⟩ false fun _ => 0

theorem config_store_set_twice :
    replies (network.step (network.after blankBoard [.call (.malloc 100),datagramAlone (.setconfig 192 168 0 4 8 0xFD),
        .config (.command .tcp .plain (.fill 0) (.setchl 7)) (.fill 0) [.malloc 60] false,.call (.free 8)])
      (datagramAlone .getconfig)).2 =
      [[0xAB,0x49,0x50,192,168,0,4,0x50,0x4F,0x52,0x54,8,0xFD,0xCD,0x24,0x0d,0x0a]] :=
  ((config_store ⟨fun _ => blankWord,[],true⟩ rfl ⟨1,2,3⟩ false (fun _ => 0)
    [.call (.malloc 100),datagramAlone (.setconfig 192 168 0 4 8 0xFD),
      .config (.command .tcp .plain (.fill 0) (.setchl 7)) (.fill 0) [.malloc 60] false,.call (.free 8)]
    (by simp [NetInput.Settable,datagramAlone,ConfigInput.Settable])
    ⟨⟨by decide,trivial⟩,⟨⟨by decide,by decide⟩,fun _ _ _ => ⟨trivial,List.not_mem_nil⟩⟩,
      ⟨⟨by decide,by decide⟩,trivial,fun _ _ => trivial⟩,⟨by decide,by decide⟩,trivial⟩
    ⟨not_false,not_false,not_false,not_false,trivial⟩).replies (datagramAlone .getconfig) trivial).trans (by decide)

/-- The link that the reply to `getiap` has overwritten leads out of the heap, so that the next
    command is not answered although the whole heap is free. -/
theorem config_store_fails :
    network.Admissible blankBoard [datagramAlone .getiap] ∧
      replies (network.step (network.after blankBoard [datagramAlone .getiap]) (datagramAlone .getconfig)).2 = [] ∧
      ¬ ConfigServed (network.after blankBoard [datagramAlone .getiap])
        ([datagramAlone .getiap].foldl NetInput.onExtents freshExtents)
        (configAfter ⟨0x7B3B60E9,0x162F,blankWord,0⟩ (configInputs [datagramAlone .getiap])) := by
  have start : ConfigState blankBoard.board.gateway.client ⟨0x7B3B60E9,0x162F,blankWord,0⟩ := main_configState rfl
  have state : ConfigState (netStep blankBoard (datagramAlone .getiap)).1.board.gateway.client _ :=
    datagram_state start trivial (by decide)
  have silent : replies (netStep (netStep blankBoard (datagramAlone .getiap)).1 (datagramAlone .getconfig)).2 = [] :=
    datagram_refused state trivial (by decide)
  refine ⟨⟨⟨⟨start.running,by decide⟩,fun _ _ _ => ⟨trivial,List.not_mem_nil⟩⟩,trivial⟩,silent,?_⟩
  intro kept
  have wanted := kept.replies (datagramAlone .getconfig) trivial
  exact absurd (silent.symm.trans wanted) (by decide)

end Net2Modbus
