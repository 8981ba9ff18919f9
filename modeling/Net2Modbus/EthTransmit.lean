import Net2Modbus.Machine
import Net2Modbus.Ring

/-!
# Transmitted frames

The transmit path of `ethernetif.c`: packets are copied into the buffers of a ring of
descriptors, of which the DMA transmits those that it owns.
-/
namespace Net2Modbus

def ethTxbufnb : Nat := 2

/-- A transmit descriptor with the size field and its buffer. -/
structure TxDescriptor where
  own : Bool
  bufferSize : Nat
  buffer : Block UInt8 1520
  deriving DecidableEq

/-- A descriptor after `ETH_DMATxDescChainInit`. -/
instance : Inhabited TxDescriptor := ⟨⟨false,0,.fill 0⟩⟩

/-- `dma` is the descriptor that the DMA goes on with. -/
structure Transmitter where
  ring : Block TxDescriptor 2
  dma : Nat
  dmaTxDescToSet : Nat

inductive TxEvent
  /-- A transmit buffer is written, while the DMA owns it or not. -/
  | wrote (owned : Bool)
  /-- `low_level_output` returns, with `ERR_OK` or an error. -/
  | output (packet : List UInt8) (ok : Bool)
  | transmitted (bytes : List UInt8)
  deriving DecidableEq, Repr

/-- The descriptors are initialised again; the bytes in the buffers stay. -/
def ethDmaTxDescChainInit (t : Transmitter) : Transmitter where
  ring := ⟨t.ring.cells.map fun d => { d with own := false },by simp⟩
  dma := 0
  dmaTxDescToSet := 0

/-- `ETH_TxPkt_ChainMode`: a ring that is full is initialised again. -/
def ethTxPktChainMode (frameLength : UInt16) (t : Transmitter) : Transmitter × Bool :=
  let d := t.ring.peek t.dmaTxDescToSet
  if d.own then (ethDmaTxDescChainInit t,false)
  else
    ({ t with
        ring := t.ring.poke t.dmaTxDescToSet { d with own := true, bufferSize := frameLength.toNat % 0x2000 }
        dmaTxDescToSet := (t.dmaTxDescToSet + 1) % ethTxbufnb },true)

/-- `low_level_output` for a chain of pbufs. The result of `ETH_TxPkt_ChainMode` is not
    looked at. -/
def lowLevelOutput (chain : List (List UInt8)) (t : Transmitter) : Transmitter × List TxEvent :=
  let d := t.ring.peek t.dmaTxDescToSet
  let t := { t with ring := t.ring.poke t.dmaTxDescToSet { d with buffer := d.buffer.copy chain.flatten } }
  ((ethTxPktChainMode (UInt16.ofNat chain.flatten.length) t).1,[.wrote d.own,.output chain.flatten true])

/-- The stack sends a packet, or the DMA completes its descriptor. -/
inductive TxInput
  | output (chain : List (List UInt8))
  | complete

/-- A packet has at most the 1500 bytes of the MTU and the Ethernet header. -/
def txEnabled (t : Transmitter) : TxInput → Prop
  | .output chain => chain.flatten.length ≤ 1514
  | .complete => (t.ring.peek t.dma).own = true

def txStep (t : Transmitter) : TxInput → Transmitter × List TxEvent
  | .output chain => lowLevelOutput chain t
  | .complete =>
    let d := t.ring.peek t.dma
    ({ t with ring := t.ring.poke t.dma { d with own := false }, dma := (t.dma + 1) % ethTxbufnb },
      [.transmitted (d.buffer.slice 0 d.bufferSize)])

def ethTransmit : Machine Transmitter TxInput TxEvent := ⟨txEnabled,txStep⟩

instance (t : Transmitter) (i : TxInput) : Decidable (ethTransmit.enabled t i) :=
  match i with
  | .output _ => inferInstanceAs (Decidable (_ ≤ _))
  | .complete => inferInstanceAs (Decidable (_ = _))

/-- The driver after `low_level_init`. -/
def transmitterStarted : Transmitter := ⟨.fill default,0,0⟩

/-- The packets that were accepted, and those that were transmitted. -/
def TxEvent.due : TxEvent → List (List UInt8)
  | .output packet true => [packet]
  | _ => []
def TxEvent.paid : TxEvent → List (List UInt8)
  | .transmitted bytes => [bytes]
  | _ => []

/-- No buffer of the DMA is written, and the accepted packets are transmitted in order, but
    for some that the next completions transmit. -/
def TxSound (t : Transmitter) (past : List TxEvent) : Prop :=
  .wrote true ∉ past ∧
    ∃ left, past.flatMap TxEvent.paid ++ left = past.flatMap TxEvent.due ∧
      ethTransmit.Admissible t (.replicate left.length .complete) ∧
      ethTransmit.trace t (.replicate left.length .complete) = left.map .transmitted

/-- A packet finds a descriptor that the DMA does not own. -/
def TxClear (t : Transmitter) : TxInput → Prop
  | .output _ => (t.ring.peek t.dmaTxDescToSet).own = false
  | .complete => True

instance (t : Transmitter) (i : TxInput) : Decidable (TxClear t i) :=
  match i with
  | .output _ => inferInstanceAs (Decidable (_ = _))
  | .complete => isTrue trivial

/-- A descriptor with a packet for the DMA. -/
structure TxHolds (d : TxDescriptor) (packet : List UInt8) : Prop where
  own : d.own = true
  data : d.buffer.slice 0 d.bufferSize = packet

/-- The DMA owns the descriptors of some packets. -/
structure TxQueue (t : Transmitter) (packets : List (List UInt8)) : Prop where
  queued : Queued TxHolds (fun d => d.own = false) t.ring t.dma packets
  inside : t.dma < 2
  toSet : t.dmaTxDescToSet = (t.dma + packets.length) % 2

section
variable {t : Transmitter} {packets : List (List UInt8)} {packet : List UInt8}

theorem TxQueue.complete (q : TxQueue t (packet :: packets)) :
    ethTransmit.enabled t .complete ∧ TxQueue (ethTransmit.step t .complete).1 packets ∧
      (ethTransmit.step t .complete).2 = [.transmitted packet] := by
  have first := q.queued.first q.inside
  have popped := q.queued.pop q.inside
    (show ({ t.ring.peek t.dma with own := false } : TxDescriptor).own = false from rfl)
  refine ⟨first.own,⟨popped,Nat.mod_lt _ (by decide),?_⟩,?_⟩
  · show t.dmaTxDescToSet = ((t.dma + 1) % 2 + packets.length) % 2
    rw [Nat.mod_add_mod,q.toSet,List.length_cons]
    congr 1
    omega
  · show [TxEvent.transmitted _] = _
    rw [first.data]
/-- The next completions transmit the packets that are left. -/
theorem TxQueue.drains (q : TxQueue t packets) :
    ethTransmit.Admissible t (.replicate packets.length .complete) ∧
      ethTransmit.trace t (.replicate packets.length .complete) = packets.map .transmitted := by
  induction packets generalizing t with
  | nil => exact ⟨trivial,rfl⟩
  | cons packet rest ih =>
    obtain ⟨enabled,next,events⟩ := q.complete
    obtain ⟨admissible,trace⟩ := ih next
    rw [List.length_cons,List.replicate_succ,Machine.trace_cons,events,trace]
    exact ⟨⟨enabled,admissible⟩,rfl⟩

/-- A packet that finds room is queued. -/
theorem TxQueue.output (q : TxQueue t packets) {chain : List (List UInt8)} (now : ethTransmit.enabled t (.output chain))
    (clear : TxClear t (.output chain)) :
    TxQueue (ethTransmit.step t (.output chain)).1 (packets ++ [chain.flatten]) ∧
      (ethTransmit.step t (.output chain)).2 = [.wrote false,.output chain.flatten true] := by
  have free : (t.ring.peek t.dmaTxDescToSet).own = false := clear
  have room : packets.length < 2 := by
    by_contra full
    have queued := q.queued
    have fits := queued.fits
    cases packets with
    | nil => exact full (by decide)
    | cons packet rest =>
      have first := queued.next_full (by omega)
      rw [q.toSet,first.own] at free
      contradiction
  have place : t.dmaTxDescToSet < 2 := by
    rw [q.toSet]
    exact Nat.mod_lt _ (by decide)
  have short : chain.flatten.length ≤ 1514 := now
  have size : (UInt16.ofNat chain.flatten.length).toNat % 0x2000 = chain.flatten.length := by
    rw [UInt16.toNat_ofNat']
    omega
  have step : ethTransmit.step t (.output chain) =
      ({ t with
          ring := t.ring.poke t.dmaTxDescToSet
            ⟨true,chain.flatten.length,(t.ring.peek t.dmaTxDescToSet).buffer.copy chain.flatten⟩
          dmaTxDescToSet := (t.dmaTxDescToSet + 1) % 2 },[.wrote false,.output chain.flatten true]) := by
    simp only [ethTransmit,txStep,lowLevelOutput,ethTxPktChainMode,Block.peek_poke _ _ place,free,size,poke_poke,
      Bool.false_eq_true,if_false]
    rfl
  have holds : TxHolds ⟨true,chain.flatten.length,(t.ring.peek t.dmaTxDescToSet).buffer.copy chain.flatten⟩
      chain.flatten := ⟨rfl,Block.slice_copy _ _ (by omega)⟩
  have pushed := q.queued.push room holds
  rw [← q.toSet] at pushed
  rw [step]
  refine ⟨⟨pushed,q.inside,?_⟩,rfl⟩
  show (t.dmaTxDescToSet + 1) % 2 = (t.dma + _) % 2
  rw [q.toSet,Nat.mod_add_mod,List.length_append]
  rfl

end

/-- The transmitter keeps to the protocol of the descriptors exactly when every packet finds a
    descriptor that the DMA does not own. -/
theorem eth_transmit_iff (inputs : List TxInput) (admissible : ethTransmit.Admissible transmitterStarted inputs) :
    ethTransmit.Throughout TxSound transmitterStarted [] inputs ↔ ethTransmit.Each TxClear transmitterStarted inputs := by
  have start : TxQueue transmitterStarted [] := by
    refine ⟨⟨Nat.zero_le 2,?_,?_⟩,by decide,rfl⟩
    · intro i item found
      contradiction
    · intro i _ inside
      have free : transmitterStarted.ring.peek ((transmitterStarted.dma + i) % 2) = default :=
        Block.peek_fill _ (Nat.mod_lt _ (by decide))
      rw [free]
      rfl
  refine Machine.throughout_iff_each
    (R := fun t past => .wrote true ∉ past ∧
      ∃ left, past.flatMap TxEvent.paid ++ left = past.flatMap TxEvent.due ∧ TxQueue t left)
    ?_ ?_ ?_ ⟨by simp,[],rfl,start⟩ admissible
  · rintro t past ⟨clean,left,balanced,q⟩
    exact ⟨clean,left,balanced,q.drains⟩
  · rintro t past i ⟨clean,left,balanced,q⟩ now clear
    cases i with
    | output chain =>
      obtain ⟨next,events⟩ := q.output now clear
      rw [events]
      refine ⟨by simpa using clean,left ++ [chain.flatten],?_,next⟩
      simp only [List.flatMap_append,← balanced]
      simp [TxEvent.paid,TxEvent.due]
    | complete =>
      cases left with
      | nil =>
        have free := q.queued.empty_free q.inside
        have own : (t.ring.peek t.dma).own = true := now
        rw [own] at free
        contradiction
      | cons packet rest =>
        obtain ⟨-,next,events⟩ := q.complete
        rw [events]
        refine ⟨by simpa using clean,rest,?_,next⟩
        simp only [List.flatMap_append,← balanced]
        simp [TxEvent.paid,TxEvent.due]
  · rintro t past i - now blocked ⟨clean,-⟩
    cases i with
    | output chain =>
      have own : (t.ring.peek t.dmaTxDescToSet).own = true := by simpa [TxClear] using blocked
      refine clean (List.mem_append_right _ ?_)
      simp [ethTransmit,txStep,lowLevelOutput,own]
    | complete => exact blocked trivial
/-- Two packets, of which the first is transmitted before the third comes. -/
theorem eth_transmit_iff_three_packets :
    ethTransmit.Throughout TxSound transmitterStarted [] [.output [[1],[2]],.output [[3]],.complete,.output [[4]]] ↔
      ethTransmit.Each TxClear transmitterStarted [.output [[1],[2]],.output [[3]],.complete,.output [[4]]] :=
  eth_transmit_iff [.output [[1],[2]],.output [[3]],.complete,.output [[4]]] (by decide)
/-- Three packets before the first completion. -/
theorem eth_transmit_fails :
    ethTransmit.Admissible transmitterStarted [.output [[1]],.output [[2]],.output [[3]]] ∧
      ¬ ethTransmit.Throughout TxSound transmitterStarted [] [.output [[1]],.output [[2]],.output [[3]]] := by
  refine ⟨by decide,fun holds => holds.last.1 ?_⟩
  decide

end Net2Modbus
