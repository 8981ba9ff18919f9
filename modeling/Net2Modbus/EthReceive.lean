import Net2Modbus.Machine
import Net2Modbus.Ring

/-!
# Received frames

The receive path of `ethernetif.c`: the ring of descriptors that the DMA fills, the array
`Eth_Buff` that a frame is copied through, and the pbuf that goes to lwIP. A transmission that
finds the transmit ring full initialises this ring again too.
-/
namespace Net2Modbus

def ethMaxPacketSize : Nat := 1520
def ethRxbufnb : Nat := 4

/-- What the DMA writes when it completes a descriptor: the error, first and last segment
    bits, the frame length with the CRC, and the bytes in the buffer. -/
structure Completion where
  es : Bool
  fs : Bool
  ls : Bool
  frameLength : Nat
  data : List UInt8
  deriving DecidableEq, Repr

/-- A receive descriptor with its buffer. -/
structure RxDescriptor where
  own : Bool
  es : Bool
  fs : Bool
  ls : Bool
  frameLength : Nat
  buffer : Block UInt8 1520
  deriving DecidableEq

/-- A descriptor after `ETH_DMARxDescChainInit`. -/
instance : Inhabited RxDescriptor := ⟨⟨true,false,false,false,0,.fill 0⟩⟩

/-- `FrameTypeDef`; the buffer and the descriptor by their index. -/
structure FrameTypeDef where
  length : UInt32
  buffer : Option Nat
  descriptor : Option Nat
  deriving DecidableEq, Repr

/-- `dma` is the descriptor that the DMA goes on with. -/
structure Receiver where
  ring : Block RxDescriptor 4
  dma : Nat
  dmaRxDescToGet : Nat
  ethBuff : Block UInt8 1500
  frameds : FrameTypeDef

inductive RxEvent
  | completed (c : Completion)
  /-- A descriptor is taken from the ring, or given back to the DMA. -/
  | took (i : Nat)
  | gave (i : Nat)
  /-- A pbuf is handed to `netif->input`. -/
  | input (bytes : List UInt8)
  /-- There is no pbuf for a frame. -/
  | dropped (bytes : List UInt8)
  /-- The ring is initialised again. -/
  | restarted
  /-- `ETH_Recive_Poll` returns. -/
  | returns
  deriving DecidableEq, Repr

/-- Whether there is a pbuf, what the memory holds behind `Eth_Buff`, and whether an answer that
    lwIP sends before `netif->input` returns finds its transmit descriptor owned by the DMA. -/
structure RxEnv where
  pbufAlloc : Bool
  behind : List UInt8
  txOwned : Bool

/-- A frame without errors that lies in one descriptor. -/
def RxDescriptor.Good (d : RxDescriptor) : Prop := d.es = false ∧ d.ls = true ∧ d.fs = true
def Completion.Good (c : Completion) : Prop := c.es = false ∧ c.ls = true ∧ c.fs = true

instance (d : RxDescriptor) : Decidable d.Good := inferInstanceAs (Decidable (_ ∧ _ ∧ _))
instance decidableGoodCompletion (c : Completion) : Decidable c.Good := inferInstanceAs (Decidable (_ ∧ _ ∧ _))

/-- `ETH_GetRxPktSize` -/
def ethGetRxPktSize (r : Receiver) : Nat :=
  let d := r.ring.peek r.dmaRxDescToGet
  if d.own = false ∧ d.Good then d.frameLength else 0

/-- `ETH_RxPkt_ChainMode`; the length is that without the CRC. -/
def ethRxPktChainMode (r : Receiver) : Receiver × FrameTypeDef :=
  let d := r.ring.peek r.dmaRxDescToGet
  if d.own then (r,⟨0,none,none⟩)
  else
    let frame : FrameTypeDef :=
      if d.Good then ⟨UInt32.ofNat d.frameLength - 4,some r.dmaRxDescToGet,some r.dmaRxDescToGet⟩
      else ⟨0,none,some r.dmaRxDescToGet⟩
    ({ r with dmaRxDescToGet := (r.dmaRxDescToGet + 1) % ethRxbufnb },frame)

/-- A descriptor of which the status is set to `ETH_DMARxDesc_OWN`. -/
def RxDescriptor.giveBack (d : RxDescriptor) : RxDescriptor :=
  { d with own := true, es := false, fs := false, ls := false, frameLength := 0 }

/-- `Read_Eth_Packet`; a frame of more than 1500 bytes is not copied. -/
def readEthPacket (r : Receiver) : Receiver × List RxEvent :=
  let (r,frameds) := ethRxPktChainMode r
  let r := { r with frameds := frameds }
  let r :=
    match frameds.buffer with
    | some i =>
      if frameds.length ≤ 1500 then
        { r with ethBuff := r.ethBuff.copy ((r.ring.peek i).buffer.slice 0 frameds.length.toNat) }
      else r
    | none => r
  match frameds.descriptor with
  | some i => ({ r with ring := r.ring.poke i (r.ring.peek i).giveBack },[.took i,.gave i])
  | none => (r,[])

/-- `ETH_DMARxDescChainInit` in `ETH_TxPkt_ChainMode`, when the DMA owns the descriptor to set. The
    bytes in the buffers stay. -/
def ethDmaRxDescChainInit (r : Receiver) : Receiver :=
  { r with ring := ⟨r.ring.cells.map RxDescriptor.giveBack,by simp⟩, dma := 0, dmaRxDescToGet := 0 }

/-- `ethernetif_input` with `low_level_input`. -/
def ethernetifInput (env : RxEnv) (r : Receiver) : Receiver × List RxEvent :=
  let len := r.frameds.length.toUInt16
  let bytes := (r.ethBuff.cells ++ env.behind).take len.toNat
  if env.pbufAlloc then
    -- `low_level_output` for an answer
    if env.txOwned then (ethDmaRxDescChainInit r,[.input bytes,.restarted]) else (r,[.input bytes])
  else (r,[.dropped bytes])

/-- One turn of the loop of `ETH_Recive_Poll`. -/
def ethRecivePoll (env : RxEnv) (r : Receiver) : Receiver × List RxEvent :=
  if ethGetRxPktSize r ≠ 0 then
    let (r,events) := readEthPacket r
    if 0 < r.frameds.length then
      let (r,answered) := ethernetifInput env r
      ({ r with frameds := ⟨0,none,none⟩ },events ++ answered)
    else (r,events)
  else (r,[.returns])

/-- The DMA completes its descriptor, the loop takes a turn, or a transmission from elsewhere in the
    main loop finds its descriptor owned by the DMA. -/
inductive RxInput
  | complete (c : Completion)
  | turn (env : RxEnv)
  | transmit

/-- The descriptor that the DMA has filled. -/
def RxDescriptor.fill (d : RxDescriptor) (c : Completion) : RxDescriptor :=
  ⟨false,c.es,c.fs,c.ls,c.frameLength,d.buffer.copy c.data⟩

/-- The DMA only fills what it owns; a good frame has at most 1514 bytes and the CRC. -/
def rxEnabled (r : Receiver) : RxInput → Prop
  | .complete c =>
    (r.ring.peek r.dma).own = true ∧ c.data.length ≤ ethMaxPacketSize ∧
      (c.Good → c.frameLength = c.data.length ∧ 4 ≤ c.frameLength ∧ c.frameLength ≤ 1518)
  | .turn _ | .transmit => True

def rxStep (r : Receiver) : RxInput → Receiver × List RxEvent
  | .complete c =>
    ({ r with ring := r.ring.poke r.dma ((r.ring.peek r.dma).fill c), dma := (r.dma + 1) % ethRxbufnb },[.completed c])
  | .turn env => ethRecivePoll env r
  | .transmit => (ethDmaRxDescChainInit r,[.restarted])

def ethReceive : Machine Receiver RxInput RxEvent := ⟨rxEnabled,rxStep⟩

instance (r : Receiver) (i : RxInput) : Decidable (ethReceive.enabled r i) :=
  match i with
  | .complete _ => inferInstanceAs (Decidable (_ ∧ _ ∧ (_ → _)))
  | .turn _ | .transmit => isTrue trivial

/-- The driver after `low_level_init`. -/
def receiverStarted : Receiver where
  ring := .fill default
  dma := 0
  dmaRxDescToGet := 0
  ethBuff := .fill 0
  frameds := ⟨0,none,none⟩

/-! ### What is to be received -/

/-- The bytes of a frame, without the CRC. -/
def Completion.frame (c : Completion) : List UInt8 := c.data.take (c.frameLength - 4)

/-- The frames that have come, and those that went to lwIP or found no pbuf. -/
def RxEvent.due : RxEvent → List (List UInt8)
  | .completed c => if c.Good then [c.frame] else []
  | _ => []
def RxEvent.paid : RxEvent → List (List UInt8)
  | .input bytes => [bytes]
  | .dropped bytes => [bytes]
  | _ => []
def RxEvent.taken : RxEvent → Option Nat
  | .took i => some i
  | _ => none
def RxEvent.given : RxEvent → Option Nat
  | .gave i => some i
  | _ => none

/-- Frames are handed over in order, each once and with its bytes, all of them before a
    poll returns, and descriptors that are taken are given back. -/
def RxSound (_ : Receiver) (past : List RxEvent) : Prop :=
  past.flatMap RxEvent.paid <+: past.flatMap RxEvent.due ∧
    (past.getLast? = some .returns → past.flatMap RxEvent.paid = past.flatMap RxEvent.due) ∧
    past.filterMap RxEvent.taken = past.filterMap RxEvent.given

instance (r : Receiver) (past : List RxEvent) : Decidable (RxSound r past) := inferInstanceAs (Decidable (_ ∧ (_ → _) ∧ _))

/-- A good frame waits in a descriptor. -/
def RxDescriptor.Waiting (d : RxDescriptor) : Prop := d.own = false ∧ d.Good

instance decidableWaiting (d : RxDescriptor) : Decidable d.Waiting := inferInstanceAs (Decidable (_ ∧ _))

/-- A good frame has 1 to 1500 bytes and finds no descriptor that is not good; and no good frame waits when
    the ring is initialised again, but for the one that is handed over. -/
def RxClear (r : Receiver) : RxInput → Prop
  | .complete c => c.Good → (∀ d ∈ r.ring.cells, d.own = false → d.Good) ∧ 4 < c.frameLength ∧ c.frameLength ≤ 1504
  | .turn env =>
    env.pbufAlloc = true → env.txOwned = true → ∀ i < 4, i ≠ r.dmaRxDescToGet → ¬ (r.ring.peek i).Waiting
  | .transmit => ∀ i < 4, ¬ (r.ring.peek i).Waiting

instance (r : Receiver) (i : RxInput) : Decidable (RxClear r i) :=
  match i with
  | .complete _ => inferInstanceAs (Decidable (_ → _ ∧ _ ∧ _))
  | .turn _ => inferInstanceAs (Decidable (_ → _ → ∀ i < 4, _ → ¬ _))
  | .transmit => inferInstanceAs (Decidable (∀ i < 4, ¬ _))

/-- A descriptor that holds what the DMA completed. -/
structure RxHolds (d : RxDescriptor) (c : Completion) : Prop where
  own : d.own = false
  good : d.Good ↔ c.Good
  length : d.frameLength = c.frameLength
  data : d.buffer.slice 0 c.data.length = c.data

/-- Good frames wait in the ring, and behind them descriptors that are not good. -/
structure RxState (r : Receiver) (past : List RxEvent) (frames others : List Completion) : Prop where
  queued : Queued RxHolds (fun d => d.own = true) r.ring r.dmaRxDescToGet (frames ++ others)
  inside : r.dmaRxDescToGet < 4
  dma : r.dma = (r.dmaRxDescToGet + (frames ++ others).length) % 4
  frame : ∀ c ∈ frames, c.Good ∧ c.frameLength = c.data.length ∧ 4 < c.frameLength ∧ c.frameLength ≤ 1504
  other : ∀ c ∈ others, ¬ c.Good
  balanced : past.flatMap RxEvent.paid ++ frames.map Completion.frame = past.flatMap RxEvent.due
  returned : past.getLast? = some .returns → frames = []
  given : past.filterMap RxEvent.taken = past.filterMap RxEvent.given

theorem fill_holds (d : RxDescriptor) {c : Completion} (fits : c.data.length ≤ ethMaxPacketSize) : RxHolds (d.fill c) c :=
  ⟨rfl,Iff.rfl,rfl,d.buffer.slice_copy c.data fits⟩

section
variable {r : Receiver} {past : List RxEvent} {frames others : List Completion}

theorem RxState.sound (state : RxState r past frames others) : RxSound r past := by
  refine ⟨⟨frames.map Completion.frame,state.balanced⟩,?_,state.given⟩
  intro last
  have balanced := state.balanced
  rwa [state.returned last,List.map_nil,List.append_nil] at balanced

/-- The DMA has room when it owns its descriptor. -/
theorem RxState.room (state : RxState r past frames others) (own : (r.ring.peek r.dma).own = true) :
    (frames ++ others).length < 4 := by
  by_contra full
  have fits := state.queued.fits
  cases items : frames ++ others with
  | nil =>
    rw [items] at full
    exact full (by decide)
  | cons c rest =>
    have queued := state.queued
    rw [items] at queued full fits
    have first := queued.next_full (by omega)
    rw [state.dma,items,first.own] at own
    contradiction

/-- A completed descriptor joins the queue. -/
theorem RxState.complete (state : RxState r past frames others) {c : Completion} (now : ethReceive.enabled r (.complete c))
    (clear : RxClear r (.complete c)) :
    ∃ frames' others', RxState (ethReceive.step r (.complete c)).1 (past ++ [RxEvent.completed c]) frames' others' := by
  obtain ⟨own,fits,frame⟩ := now
  have room := state.room own
  have filled := state.queued.push room (fill_holds (r.ring.peek r.dma) fits)
  rw [← state.dma] at filled
  have moved : (r.dma + 1) % 4 = (r.dmaRxDescToGet + (frames ++ others).length + 1) % 4 := by rw [state.dma,Nat.mod_add_mod]
  have given : (past ++ [RxEvent.completed c]).filterMap RxEvent.taken = (past ++ [RxEvent.completed c]).filterMap RxEvent.given := by
    rw [List.filterMap_append,List.filterMap_append,state.given]
    rfl
  have busy : (past ++ [RxEvent.completed c]).getLast? ≠ some .returns := by simp
  by_cases fine : c.Good
  · obtain ⟨clean,some,short⟩ := clear fine
    have none : others = [] := by
      cases others with
      | nil => rfl
      | cons b rest =>
        have member : r.ring.peek ((r.dmaRxDescToGet + frames.length) % 4) ∈ r.ring.cells := by
          rw [Block.peek,List.getD_eq_getElem _ _ (by simpa using Nat.mod_lt _ (by decide))]
          exact List.getElem_mem _
        have held := state.queued.holds frames.length b (by simp)
        exact absurd (held.good.mp (clean _ member held.own)) (state.other b List.mem_cons_self)
    subst none
    refine ⟨frames ++ [c],[],?_,state.inside,?_,?_,List.forall_mem_nil _,?_,fun last => absurd last busy,given⟩
    · show Queued _ _ (r.ring.poke r.dma _) r.dmaRxDescToGet _
      simpa using filled
    · show (r.dma + 1) % 4 = (r.dmaRxDescToGet + _) % 4
      simpa [Nat.add_assoc] using moved
    · rw [List.forall_mem_append,List.forall_mem_singleton]
      exact ⟨state.frame,fine,(frame fine).1,some,short⟩
    · have balanced := state.balanced
      simp [RxEvent.paid,RxEvent.due,fine,← balanced]
  · refine ⟨frames,others ++ [c],?_,state.inside,?_,state.frame,?_,?_,fun last => absurd last busy,given⟩
    · show Queued _ _ (r.ring.poke r.dma _) r.dmaRxDescToGet _
      simpa using filled
    · show (r.dma + 1) % 4 = (r.dmaRxDescToGet + _) % 4
      simpa [Nat.add_assoc] using moved
    · rw [List.forall_mem_append,List.forall_mem_singleton]
      exact ⟨state.other,fine⟩
    · have balanced := state.balanced
      simp [RxEvent.paid,RxEvent.due,fine,← balanced]

/-- The next good frame is read as it came, and its descriptor is given back. -/
theorem readEthPacket_frame {c : Completion} (queued : Queued RxHolds (fun d => d.own = true) r.ring r.dmaRxDescToGet
    ((c :: frames) ++ others)) (inside : r.dmaRxDescToGet < 4) (good : c.Good) (length : c.frameLength = c.data.length)
    (some : 4 < c.frameLength) (short : c.frameLength ≤ 1504) :
    ethGetRxPktSize r ≠ 0 ∧
      (readEthPacket r).1.frameds.length = UInt32.ofNat c.frame.length ∧ c.frame.length = c.frameLength - 4 ∧
      (readEthPacket r).1.ethBuff = r.ethBuff.copy c.frame ∧
      (readEthPacket r).1.ring = r.ring.poke r.dmaRxDescToGet (r.ring.peek r.dmaRxDescToGet).giveBack ∧
      (readEthPacket r).1.dmaRxDescToGet = (r.dmaRxDescToGet + 1) % 4 ∧ (readEthPacket r).1.dma = r.dma ∧
      (readEthPacket r).2 = [.took r.dmaRxDescToGet,.gave r.dmaRxDescToGet] := by
  have held := queued.first inside
  have fine : (r.ring.peek r.dmaRxDescToGet).Good := held.good.mpr good
  have own := held.own
  have size := held.length
  have frame : c.frame.length = c.frameLength - 4 := by
    rw [Completion.frame,List.length_take]
    omega
  have field : UInt32.ofNat c.frameLength - 4 = UInt32.ofNat (c.frameLength - 4) := by
    rw [← UInt32.toNat_inj,UInt32.toNat_sub_of_le _ _ (by rw [UInt32.le_iff_toNat_le,UInt32.toNat_ofNat']; simp; omega)]
    simp
    omega
  have limit : UInt32.ofNat (c.frameLength - 4) ≤ 1500 := by
    rw [UInt32.le_iff_toNat_le,UInt32.toNat_ofNat']
    simp
    omega
  have read : (r.ring.peek r.dmaRxDescToGet).buffer.slice 0 (UInt32.ofNat (c.frameLength - 4)).toNat = c.frame := by
    have data := held.data
    rw [UInt32.toNat_ofNat',Nat.mod_eq_of_lt (by omega),Completion.frame,← data]
    simp only [Block.slice,List.take_take]
    congr 1
    omega
  have packet : ethRxPktChainMode r = ({ r with dmaRxDescToGet := (r.dmaRxDescToGet + 1) % 4 },
      ⟨UInt32.ofNat (c.frameLength - 4),Option.some r.dmaRxDescToGet,Option.some r.dmaRxDescToGet⟩) := by
    simp only [ethRxPktChainMode,own,Bool.false_eq_true,if_false,if_pos fine,size,field]
    rfl
  refine ⟨?_,?_⟩
  · rw [ethGetRxPktSize,if_pos ⟨own,fine⟩,size]
    omega
  · simp only [readEthPacket,packet,limit,if_true,read,frame]
    trivial

/-- Where a good frame of the queue waits. -/
theorem RxState.waiting {c : Completion} {i : Nat} (state : RxState r past frames others) (found : frames[i]? = some c) :
    (r.ring.peek ((r.dmaRxDescToGet + i) % 4)).Waiting := by
  have before : i < frames.length := (List.getElem?_eq_some_iff.mp found).1
  have held := state.queued.holds i c (by rw [List.getElem?_append_left before,found])
  have good := (state.frame c (List.mem_of_getElem? found)).1
  exact ⟨held.own,held.good.mpr good⟩
/-- Where no good frame waits there are none to lose. -/
theorem RxState.none_waiting (state : RxState r past frames others) (idle : ∀ i < 4, ¬ (r.ring.peek i).Waiting) :
    frames = [] := by
  cases frames with
  | nil => rfl
  | cons c rest => exact absurd (state.waiting (i := 0) rfl) (idle _ (Nat.mod_lt _ (by decide)))
theorem chainInit_own (r : Receiver) {i : Nat} (inside : i < 4) : ((ethDmaRxDescChainInit r).ring.peek i).own = true := by
  have bound : i < (r.ring.cells.map RxDescriptor.giveBack).length := by simpa using inside
  rw [ethDmaRxDescChainInit,Block.peek,List.getD_eq_getElem _ _ bound,List.getElem_map]
  rfl
/-- The ring is empty after it is initialised again. -/
theorem RxState.restart (state : RxState r past [] others) :
    RxState (ethDmaRxDescChainInit r) (past ++ [RxEvent.restarted]) [] [] := by
  refine ⟨⟨Nat.zero_le 4,?_,?_⟩,Nat.zero_lt_succ 3,rfl,List.forall_mem_nil _,List.forall_mem_nil _,?_,fun _ => rfl,?_⟩
  · intro i item found
    contradiction
  · intro i _ _
    exact chainInit_own r (Nat.mod_lt _ (by decide))
  · rw [List.flatMap_append,List.flatMap_append,← state.balanced]
    simp [RxEvent.paid,RxEvent.due]
  · rw [List.filterMap_append,List.filterMap_append,state.given]
    rfl

/-- What a turn emits for a frame before the answers. -/
def RxEnv.handed (env : RxEnv) (i : Nat) (bytes : List UInt8) : List RxEvent :=
  [.took i,.gave i,if env.pbufAlloc then .input bytes else .dropped bytes]

/-- A turn hands over the next good frame, and may then initialise the ring. -/
theorem RxState.turn_frame {c : Completion} (state : RxState r past (c :: frames) others) (env : RxEnv) :
    ∃ r', RxState r' (past ++ env.handed r.dmaRxDescToGet c.frame) frames others ∧
      ethReceive.step r (.turn env) =
        if env.pbufAlloc ∧ env.txOwned then
          (ethDmaRxDescChainInit r',env.handed r.dmaRxDescToGet c.frame ++ [.restarted])
        else (r',env.handed r.dmaRxDescToGet c.frame) := by
  obtain ⟨⟨good,length,some,short⟩,later⟩ := List.forall_mem_cons.mp state.frame
  obtain ⟨size,framed,frame,buff,ring,toGet,dma,events⟩ := readEthPacket_frame state.queued state.inside good length some short
  have small : (UInt32.ofNat c.frame.length).toNat = c.frame.length := by
    rw [UInt32.toNat_ofNat',Nat.mod_eq_of_lt (by omega)]
  have positive : 0 < (readEthPacket r).1.frameds.length := by
    rw [framed,UInt32.lt_iff_toNat_lt,small,frame]
    exact Nat.sub_pos_of_lt some
  have len : (readEthPacket r).1.frameds.length.toUInt16.toNat = c.frame.length := by
    rw [framed,UInt32.toNat_toUInt16,small,Nat.mod_eq_of_lt (by omega)]
  have bytes : ((readEthPacket r).1.ethBuff.cells ++ env.behind).take c.frame.length = c.frame := by
    rw [buff,Block.copy_cells _ (by omega),List.append_assoc,List.take_left]
  have popped := state.queued.pop state.inside (show (r.ring.peek r.dmaRxDescToGet).giveBack.own = true from rfl)
  have balanced := state.balanced
  refine ⟨{ (readEthPacket r).1 with frameds := ⟨0,none,none⟩ },⟨?_,?_,?_,later,state.other,?_,?_,?_⟩,?_⟩
  · show Queued _ _ (readEthPacket r).1.ring (readEthPacket r).1.dmaRxDescToGet _
    rw [ring,toGet]
    exact popped
  · show (readEthPacket r).1.dmaRxDescToGet < 4
    rw [toGet]
    exact Nat.mod_lt _ (by decide)
  · show (readEthPacket r).1.dma = ((readEthPacket r).1.dmaRxDescToGet + _) % 4
    rw [dma,toGet,Nat.mod_add_mod,state.dma]
    simp only [List.cons_append,List.length_cons]
    congr 1
    omega
  · simp only [List.flatMap_append,← balanced,RxEnv.handed]
    split <;> simp [RxEvent.paid,RxEvent.due]
  · intro last
    rw [RxEnv.handed] at last
    split at last <;> simp at last
  · rw [List.filterMap_append,List.filterMap_append,state.given,RxEnv.handed]
    split <;> rfl
  · simp only [ethReceive,rxStep,ethRecivePoll,if_pos size,if_pos positive,events,ethernetifInput,len,bytes,RxEnv.handed]
    cases env.pbufAlloc <;> cases env.txOwned <;> rfl
/-- A turn that finds no good frame ends the poll. -/
theorem RxState.turn_idle (state : RxState r past [] others) (env : RxEnv) :
    ethReceive.step r (.turn env) = (r,[.returns]) ∧ RxState r (past ++ [RxEvent.returns]) [] others := by
  have size : ethGetRxPktSize r = 0 := by
    refine if_neg ?_
    rintro ⟨own,good⟩
    have queued := state.queued
    cases others with
    | nil =>
      have free := queued.empty_free state.inside
      rw [own] at free
      contradiction
    | cons b rest =>
      have held := queued.first state.inside
      exact state.other b List.mem_cons_self (held.good.mp good)
  refine ⟨?_,state.queued,state.inside,state.dma,state.frame,state.other,?_,fun _ => rfl,?_⟩
  · simp only [ethReceive,rxStep,ethRecivePoll,size]
    rfl
  · rw [List.flatMap_append,List.flatMap_append,← state.balanced]
    simp [RxEvent.paid,RxEvent.due]
  · rw [List.filterMap_append,List.filterMap_append,state.given]
    rfl

/-- Every input keeps the state. -/
theorem rxState_step (state : RxState r past frames others) {i : RxInput} (now : ethReceive.enabled r i) (clear : RxClear r i) :
    ∃ frames' others', RxState (ethReceive.step r i).1 (past ++ (ethReceive.step r i).2) frames' others' := by
  cases i with
  | complete c => exact state.complete now clear
  | turn env =>
    cases frames with
    | nil =>
      obtain ⟨step,next⟩ := state.turn_idle env
      rw [step]
      exact ⟨[],others,next⟩
    | cons c rest =>
      obtain ⟨r',handed,step⟩ := state.turn_frame env
      rw [step]
      split
      · next answered =>
        cases rest with
        | nil =>
          rw [← List.append_assoc]
          exact ⟨[],[],handed.restart⟩
        | cons d _ =>
          have apart : (r.dmaRxDescToGet + 1) % 4 ≠ r.dmaRxDescToGet := by
            have inside := state.inside
            omega
          have idle := clear answered.1 answered.2 _ (Nat.mod_lt _ (by decide)) apart
          exact absurd (state.waiting (i := 1) rfl) idle
      · exact ⟨rest,others,handed⟩
  | transmit =>
    obtain rfl := state.none_waiting clear
    exact ⟨[],[],state.restart⟩

end

/-- In a run in which good frames of at most 1500 bytes come before any other descriptor and none waits when
    the ring is initialised again, every frame is handed over as it came, or dropped for want of a pbuf. -/
theorem eth_receive (inputs : List RxInput) (admissible : ethReceive.Admissible receiverStarted inputs)
    (clear : ethReceive.Each RxClear receiverStarted inputs) :
    ethReceive.Throughout RxSound receiverStarted [] inputs := by
  have start : RxState receiverStarted [] [] [] := by
    refine ⟨⟨Nat.zero_le 4,?_,?_⟩,by decide,rfl,List.forall_mem_nil _,List.forall_mem_nil _,rfl,fun _ => rfl,rfl⟩
    · intro i item found
      contradiction
    · intro i _ inside
      have free : (receiverStarted.ring.peek ((receiverStarted.dmaRxDescToGet + i) % 4)) = default :=
        Block.peek_fill _ (Nat.mod_lt _ (by decide))
      rw [free]
      rfl
  have both := Machine.each_and.mpr ⟨admissible,clear⟩
  refine (Machine.throughout_run (R := fun r past => ∃ frames others, RxState r past frames others)
    (fun r past i state now => ?_) ⟨[],[],start⟩ both).mono ?_
  · obtain ⟨frames,others,state⟩ := state
    exact rxState_step state now.1 now.2
  · rintro r past ⟨frames,others,state⟩
    exact state.sound
/-- A frame of 60 bytes, of which the answer finds the transmit ring full. -/
theorem eth_receive_one_frame :
    ethReceive.Throughout RxSound receiverStarted []
      [.complete ⟨false,true,true,64,.replicate 64 7⟩,.turn ⟨true,[],true⟩,.turn ⟨true,[],false⟩] :=
  eth_receive [.complete ⟨false,true,true,64,.replicate 64 7⟩,.turn ⟨true,[],true⟩,.turn ⟨true,[],false⟩]
    (by decide) (by decide)
/-- A frame with an error, a good frame, and a poll that returns at once. -/
theorem eth_receive_fails :
    ethReceive.Admissible receiverStarted
        [.complete ⟨true,true,true,64,.replicate 64 7⟩,.complete ⟨false,true,true,64,.replicate 64 7⟩,.turn ⟨true,[],false⟩] ∧
      ¬ ethReceive.Throughout RxSound receiverStarted []
        [.complete ⟨true,true,true,64,.replicate 64 7⟩,.complete ⟨false,true,true,64,.replicate 64 7⟩,.turn ⟨true,[],false⟩] := by
  decide

end Net2Modbus
