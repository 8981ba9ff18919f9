import Net2Modbus.Gateway

/-!
# Received data in a chain of pbufs

The length of a received pbuf is that of its whole chain, while its payload pointer is
that of its first segment. Both callbacks copy from the one as many bytes as the other
says.
-/
namespace Net2Modbus

/-- A chain: the payload of the first segment with what the memory holds behind it, and the
    payloads of the other segments. -/
structure PbufChain where
  payload : List UInt8
  behind : Nat → UInt8
  next : List (List UInt8)

namespace PbufChain

def segments (p : PbufChain) : List (List UInt8) := p.payload :: p.next
/-- The concatenation of the segments. -/
def bytes (p : PbufChain) : List UInt8 := p.segments.flatten
/-- `p->tot_len`, the sum of the lengths. -/
def totLen (p : PbufChain) : Nat := (p.segments.map List.length).sum
/-- How many bytes each segment has. -/
def segmentSize (p : PbufChain) (i : Nat) : Nat := (p.segments.getD i []).length
/-- `memcpy(…, p->payload, count)` -/
def memcpy (count : Nat) (p : PbufChain) : List UInt8 :=
  (p.payload ++ (List.range (count - p.payload.length)).map p.behind).take count
/-- The same bytes in one segment. -/
def joined (p : PbufChain) : PbufChain := ⟨p.bytes,p.behind,[]⟩

end PbufChain

/-- What lwIP delivers: a datagram, with what the stack holds where its buffer is, or a part of
    the TCP stream. -/
inductive PbufDelivery
  | datagram (stack : Block UInt8 1024) (p : PbufChain)
  | segment (p : PbufChain)

namespace PbufDelivery

def chain : PbufDelivery → PbufChain
  | .datagram _ p | .segment p => p
/-- The size of the receive buffer. -/
def room : PbufDelivery → Nat
  | .datagram _ _ => 1024
  | .segment _ => 1500
def join : PbufDelivery → PbufDelivery
  | .datagram stack p => .datagram stack p.joined
  | .segment p => .segment p.joined
/-- `udp_client_callback` or `tcp_client_reciver` -/
def receive (env : Surroundings) (g : Gateway) : PbufDelivery → Gateway × List Event
  | .datagram stack p => udpClientCallback env stack (p.memcpy p.totLen) g
  | .segment p => tcpClientReciver env (p.memcpy p.totLen) g
/-- What is read of the segments, by their number. -/
def reads (d : PbufDelivery) : List (Access Nat) := if d.chain.totLen < d.room then [⟨0,0,d.chain.totLen⟩] else []
/-- The front of the receive buffer, which is compared with the commands. -/
def parsed (g : Gateway) : PbufDelivery → List UInt8
  | .datagram stack p => (stack.copy (p.memcpy p.totLen)).slice 0 p.totLen
  | .segment p => (g.copyIn (p.memcpy p.totLen)).slice 0 p.totLen

/-- The dispatcher has the concatenation of the segments, does what it does for one segment with
    these bytes, and nothing behind the payload of a segment is read. -/
structure Ingested (g : Gateway) (d : PbufDelivery) : Prop where
  parsed : d.parsed g = d.chain.bytes
  same : ∀ env, d.receive env g = d.join.receive env g
  inside : ∀ use ∈ d.reads, use.Inside d.chain.segmentSize

end PbufDelivery

theorem totLen_eq (p : PbufChain) : p.totLen = p.bytes.length := List.length_flatten.symm
theorem memcpy_length (count : Nat) (p : PbufChain) : (p.memcpy count).length = count := by
  simp [PbufChain.memcpy]
  omega
/-- Within the first segment the copy is right. -/
theorem memcpy_first {count : Nat} {p : PbufChain} (inside : count ≤ p.payload.length) :
    p.memcpy count = p.payload.take count := by
  rw [PbufChain.memcpy,List.take_append_of_le_length inside]
/-- The read stays in the first segment exactly when there is nothing in the others. -/
theorem totLen_le_iff (p : PbufChain) : p.totLen ≤ p.payload.length ↔ ∀ s ∈ p.next, s = [] := by
  have sum : p.totLen = p.payload.length + (p.next.map List.length).sum := by
    simp [PbufChain.totLen,PbufChain.segments]
  rw [sum]
  constructor
  · intro short s among
    have zero : (p.next.map List.length).sum = 0 := by omega
    have none := List.sum_eq_zero_iff.mp zero s.length (List.mem_map_of_mem among)
    exact List.eq_nil_of_length_eq_zero none
  · intro empty
    have zero : (p.next.map List.length).sum = 0 := by
      refine List.sum_eq_zero_iff.mpr ?_
      intro n among
      obtain ⟨s,there,rfl⟩ := List.mem_map.mp among
      rw [empty s there]
      rfl
    omega
/-- All the bytes are then those of the first segment. -/
theorem memcpy_single {p : PbufChain} (empty : ∀ s ∈ p.next, s = []) : p.memcpy p.totLen = p.bytes := by
  have rest : p.next.flatten = [] := List.flatten_eq_nil_iff.mpr empty
  have whole : p.bytes = p.payload := by rw [PbufChain.bytes,PbufChain.segments,List.flatten_cons,rest,List.append_nil]
  rw [memcpy_first ((totLen_le_iff p).mpr empty),totLen_eq,whole]
  exact List.take_length
theorem joined_memcpy (p : PbufChain) : p.joined.memcpy p.joined.totLen = p.bytes := by
  rw [memcpy_single (List.forall_mem_nil _)]
  exact List.append_nil _
theorem parsed_eq {g : Gateway} {d : PbufDelivery} (fits : d.chain.totLen < d.room) :
    d.parsed g = d.chain.memcpy d.chain.totLen := by
  cases d with
  | datagram stack p =>
    have copied := stack.slice_copy (p.memcpy p.totLen) (by rw [memcpy_length]; exact Nat.le_of_lt fits)
    rwa [memcpy_length] at copied
  | segment p =>
    have copied := g.tdata.slice_copy (p.memcpy p.totLen) (by rw [memcpy_length]; exact Nat.le_of_lt fits)
    rw [memcpy_length] at copied
    simp only [PbufDelivery.parsed,Gateway.copyIn,memcpy_length]
    rw [if_pos (show p.totLen < 1500 from fits)]
    exact copied

/-- With all bytes in the first segment a delivery is taken in. -/
theorem ingested_of_single {g : Gateway} {d : PbufDelivery} (fits : d.chain.totLen < d.room)
    (empty : ∀ s ∈ d.chain.next, s = []) : d.Ingested g := by
  have copied := memcpy_single empty
  refine ⟨(parsed_eq fits).trans copied,?_,?_⟩
  · intro env
    cases d with
    | datagram stack p =>
      simp only [PbufDelivery.receive,PbufDelivery.join,joined_memcpy]
      rw [show p.memcpy p.totLen = p.bytes from copied]
    | segment p =>
      simp only [PbufDelivery.receive,PbufDelivery.join,joined_memcpy]
      rw [show p.memcpy p.totLen = p.bytes from copied]
  · intro use read
    rw [PbufDelivery.reads,if_pos fits] at read
    rw [List.mem_singleton.mp read]
    have short := (totLen_le_iff d.chain).mpr empty
    simpa [Access.Inside,PbufChain.segmentSize,PbufChain.segments] using short

/-- `PBUF_POOL_BUFSIZE`: a maximal segment with its headers, aligned. -/
def pbufPoolBufsize : Nat := 1516

/-- The segments behind the first one that `pbuf_alloc( PBUF_RAW, len, PBUF_POOL )` chains for a
    frame, each filled with the next bytes of the frame. -/
def poolTail (frame : List UInt8) : List (List UInt8) :=
  if frame = [] then [] else frame.take pbufPoolBufsize :: poolTail (frame.drop pbufPoolBufsize)
termination_by frame.length
decreasing_by
  rename_i some
  have positive := List.length_pos_of_ne_nil some
  rw [List.length_drop]
  exact Nat.sub_lt positive (by decide)
/-- `low_level_input` -/
def lowLevelInput (behind : Nat → UInt8) (frame : List UInt8) : PbufChain :=
  ⟨frame.take pbufPoolBufsize,behind,poolTail (frame.drop pbufPoolBufsize)⟩
/-- `pbuf_header( p, -count )`, by which lwIP steps over a header in the first segment. -/
def PbufChain.header (count : Nat) (p : PbufChain) : PbufChain := { p with payload := p.payload.drop count }

theorem poolTail_flatten (frame : List UInt8) : (poolTail frame).flatten = frame := by
  fun_induction poolTail frame with
  | case1 => rfl
  | case2 frame some ih => rw [List.flatten_cons,ih,List.take_append_drop]
/-- No byte of a frame is lost between the segments. -/
theorem lowLevelInput_bytes (behind : Nat → UInt8) (frame : List UInt8) : (lowLevelInput behind frame).bytes = frame := by
  rw [PbufChain.bytes,PbufChain.segments,List.flatten_cons]
  simp only [lowLevelInput]
  rw [poolTail_flatten,List.take_append_drop]
/-- An Ethernet frame has one segment, so that what it carries is taken in. -/
theorem frame_ingested (g : Gateway) {d : PbufDelivery} {behind : Nat → UInt8} {frame : List UInt8} {count : Nat}
    (carried : d.chain = (lowLevelInput behind frame).header count) (short : frame.length ≤ pbufPoolBufsize)
    (fits : d.chain.totLen < d.room) : d.Ingested g := by
  have single : d.chain.next = [] := by
    rw [carried]
    simp only [PbufChain.header,lowLevelInput]
    rw [List.drop_of_length_le short,poolTail,if_pos rfl]
  refine ingested_of_single fits ?_
  rw [single]
  exact List.forall_mem_nil _

/-- A delivery that fits into the receive buffer is taken in exactly when the first segment has all of
    its bytes. -/
theorem ingested_iff (g : Gateway) (d : PbufDelivery) (fits : d.chain.totLen < d.room) :
    d.Ingested g ↔ ∀ s ∈ d.chain.next, s = [] := by
  constructor
  · intro ingested
    have looked : ⟨0,0,d.chain.totLen⟩ ∈ d.reads := by
      rw [PbufDelivery.reads,if_pos fits]
      exact List.mem_singleton_self _
    have read := ingested.inside _ looked
    apply (totLen_le_iff d.chain).mp
    simpa [Access.Inside,PbufChain.segmentSize,PbufChain.segments] using read
  · intro single
    exact ingested_of_single fits single
theorem ingested_iff_single : let d := PbufDelivery.datagram (.fill 0) ⟨chars ['g','e','t','r','u','n'],fun _ => 0,[]⟩
    d.Ingested (gatewayStarted .boot ⟨1,2,3⟩ false) :=
  (ingested_iff (gatewayStarted .boot ⟨1,2,3⟩ false) (.datagram (.fill 0) ⟨chars ['g','e','t','r','u','n'],fun _ => 0,[]⟩)
    (by decide)).mpr (List.forall_mem_nil _)

/-- What the fragments of an IP datagram carry. All but the last of them end at a multiple of 8. -/
structure Fragments where
  first : List UInt8
  rest : List (List UInt8)
  aligned : ∀ data ∈ (first :: rest).dropLast, 8 ∣ data.length
  filled : ∀ data ∈ rest, data ≠ []
/-- `ip_reass`: the fragments keep their pbufs, `pbuf_cat` joins them. -/
def Fragments.reass (behind : Nat → UInt8) (f : Fragments) : PbufChain := ⟨f.first,behind,f.rest⟩

/-- A datagram that was reassembled is taken in only when it came in one piece. -/
theorem reass_ingested_iff (g : Gateway) {d : PbufDelivery} {f : Fragments} {behind : Nat → UInt8} {count : Nat}
    (carried : d.chain = (f.reass behind).header count) (fits : d.chain.totLen < d.room) : d.Ingested g ↔ f.rest = [] := by
  have next : d.chain.next = f.rest := by
    rw [carried]
    rfl
  rw [ingested_iff g d fits,next]
  constructor
  · intro empty
    cases rest : f.rest with
    | nil => rfl
    | cons data _ =>
      have among : data ∈ f.rest := rest ▸ List.mem_cons_self
      exact absurd (empty data among) (f.filled data among)
  · intro none
    rw [none]
    exact List.forall_mem_nil _

/-- A segment from port 80 with the flags PSH and ACK, in two fragments: 20 bytes of header and the front of
    the command, then the last two bytes. -/
def getrunFragments : Fragments where
  first := [0,80,4,0,0,0,0,1,0,0,25,111,0x50,0x18,32,0,0x9C,0xF7,0,0] ++ chars ['g','e','t','r']
  rest := [chars ['u','n']]
  aligned := by decide
  filled := by decide
/-- `tcp_input` has stepped over the header. -/
theorem ingested_fails :
    ¬ (PbufDelivery.segment ((getrunFragments.reass fun _ => 0).header 20)).Ingested (gatewayStarted .boot ⟨1,2,3⟩ false) := by
  intro ingested
  have single := (reass_ingested_iff (gatewayStarted .boot ⟨1,2,3⟩ false) rfl (by decide)).mp ingested
  contradiction

end Net2Modbus
