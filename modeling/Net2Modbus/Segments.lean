import Net2Modbus.Downlink

/-!
# Segments and frames

What one segment makes `ModbusSenttset` hand over, for every segment, and what
becomes of a stream of frames that TCP cuts into segments in any way.
-/
namespace Net2Modbus

@[simp] theorem handedFrom_append (source : Source) (front back : List Event) :
    handedFrom source (front ++ back) = handedFrom source front ++ handedFrom source back :=
  List.filterMap_append
theorem handedFrom_none {source : Source} {events : List Event}
    (none : ∀ e ∈ events, ∀ payload taken, e ≠ .handed source payload taken) : handedFrom source events = [] := by
  rw [handedFrom,List.filterMap_eq_nil_iff]
  intro e member
  cases e with
  | handed from_ payload taken =>
    have other : from_ ≠ source := by
      rintro rfl
      exact none _ member payload taken rfl
    simp [other]
  | _ => rfl
/-- Events of a kind that has no call of `Master_Send` hand nothing over. -/
theorem handedFrom_kind {source : Source} {events : List Event} {kind : Event → Bool}
    (silent : ∀ payload taken, kind (.handed source payload taken) = false) (all : ∀ e ∈ events, kind e = true) :
    handedFrom source events = [] :=
  handedFrom_none fun e member payload taken same => by
    have known := all e member
    rw [same,silent payload taken] at known
    contradiction
@[simp] theorem segment_hands (source : Source) (env : Surroundings) (p : List UInt8) (g : Gateway) :
    handedFrom source (tcpClientReciver env p g).2 = [] :=
  handedFrom_kind (fun _ _ => rfl) (segment_ofSegment env p g)

/-- The mailbox branch hands over what the mailbox holds, and nothing for a length
    that has wrapped around. -/
theorem sendDownlink_hands (g : Gateway) : handedFrom .pollList (sendDownlink g).2 = [] ∧
    handedFrom .downlink (sendDownlink g).2 =
      [if g.tcpRecvLenth.toNat < 2147483648 then g.tcpRecvBuf.slice 0 g.tcpRecvLenth.toNat else []] := by
  obtain ⟨front,line,events,ofFront,ofLine⟩ := send_events .downlink g.tcpRecvBuf g.tcpRecvLenth.toInt32.toInt g
  have first (source : Source) : handedFrom source front = [] :=
    handedFrom_kind (fun _ _ => rfl) ofFront
  have last (source : Source) : handedFrom source line = [] :=
    handedFrom_kind (fun _ _ => rfl) ofLine
  have read : g.tcpRecvBuf.slice 0 g.tcpRecvLenth.toInt32.toInt.toNat =
      if g.tcpRecvLenth.toNat < 2147483648 then g.tcpRecvBuf.slice 0 g.tcpRecvLenth.toNat else [] := by
    by_cases small : g.tcpRecvLenth.toNat < 2147483648
    · rw [toInt32_small small,if_pos small,Int.toNat_natCast]
    · have negative := toInt32_large (Nat.le_of_not_lt small)
      rw [Int.toNat_of_nonpos (Int.le_of_lt negative),if_neg small,Block.slice_zero]
  simp only [sendDownlink,events,handedFrom_append,first,read]
  refine ⟨?_,?_⟩
  · simpa [handedFrom] using last .pollList
  · simpa [handedFrom] using last .downlink
/-- With an empty mailbox nothing is handed over for the downlink. -/
theorem senttset_empty_hands (time : UInt32) {g : Gateway} (empty : g.tcpRecvLenth = 0) :
    handedFrom .downlink (modbusSenttset time g).2 = [] := by
  obtain ⟨full,-⟩ | ⟨-,-,same⟩ | ⟨-,-,same⟩ := senttset_cases time g
  · simp [empty] at full
  · rw [same]
    exact handedFrom_kind (fun _ _ => rfl) (walk_ofPoll time g)
  · rw [same]
    rfl
/-- With an empty mailbox and an empty list nothing is handed over at all. -/
theorem senttset_idle (time : UInt32) {g : Gateway} (empty : g.tcpRecvLenth = 0)
    (unlisted : g.poller.tcp2Rs485CmdList.peek 0 = 0) : ∀ e ∈ (modbusSenttset time g).2,
      e = .due time ∨ e = .access ⟨.tcp2Rs485CmdList,0,1⟩ := by
  obtain ⟨full,-⟩ | ⟨-,-,same⟩ | ⟨-,-,same⟩ := senttset_cases time g
  · simp [empty] at full
  · simp [same,walk,unlisted]
  · simp [same]

/-- No call of `ModbusSenttset` subtracts lengths or leaves the two buffers. -/
theorem senttset_safe (time : UInt32) (g : Gateway) :
    ∀ e ∈ (modbusSenttset time g).2, ¬ e.Wraps ∧ e.Inside [.tdata,.tcpRecvBuf] := by
  have line (e : Event) (known : e.onLine = true) : ¬ e.Wraps ∧ e.Inside [.tdata,.tcpRecvBuf] := by
    refine e.safe ?_ ?_
    · rintro left right rfl
      exact Bool.noConfusion known
    · rintro use rfl member
      have uart : use.array = .mb2TcpBuff := beq_iff_eq.mp known
      simp [uart] at member
  have send (e : Event) (known : e.ofSend .downlink = true) : ¬ e.Wraps ∧ e.Inside [.tdata,.tcpRecvBuf] := by
    refine e.safe ?_ ?_
    · rintro left right rfl
      exact Bool.noConfusion known
    · rintro use rfl member
      simp only [Event.ofSend,Source.array,Bool.and_eq_true,beq_iff_eq,decide_eq_true_eq] at known
      obtain ⟨array,offset,bound⟩ := known
      simp only [Access.Inside,Arr.size,array,offset]
      omega
  have poll (e : Event) (known : e.ofPoll = true) : ¬ e.Wraps ∧ e.Inside [.tdata,.tcpRecvBuf] := by
    refine e.safe ?_ ?_
    · rintro left right rfl
      exact Bool.noConfusion known
    · rintro use rfl member
      simp only [Event.ofPoll,Bool.or_eq_true,beq_iff_eq] at known
      rcases known with (list | master) | buff
      · simp [list] at member
      · simp [master] at member
      · simp [buff] at member
  obtain ⟨-,same⟩ | ⟨-,-,same⟩ | ⟨-,-,same⟩ := senttset_cases time g <;> rw [same]
  · obtain ⟨front,last,events,ofFront,ofLine⟩ := send_events .downlink g.tcpRecvBuf g.tcpRecvLenth.toInt32.toInt g
    simp only [sendDownlink,events]
    refine List.forall_mem_append.mpr ⟨fun e member => send e (ofFront e member),
      List.forall_mem_cons.mpr ⟨by simp [Event.Wraps,Event.Inside],fun e member => line e (ofLine e member)⟩⟩
  · exact fun e member => poll e (walk_ofPoll time g e member)
  · exact List.forall_mem_nil _

/-- What the documented form says to hand over: the payload, if it has a byte. -/
def documented (bytes : List UInt8) : List (List UInt8) :=
  match downlinkPayload bytes with
  | some (byte :: rest) => [byte :: rest]
  | _ => []

/-- What the grammar says of one segment and the next call of `ModbusSenttset`: a
    payload of the documented form is handed over, if it has a byte, and nothing
    else is, but for a poll list that the segment itself has loaded; no length
    wraps around, and no copy leaves `Tdata` or `TcpRecvBuf`. -/
def ParserExact (env : Surroundings) (time : UInt32) (g : Gateway) (bytes : List UInt8) : Prop :=
  let events := (tcpClientReciver env bytes g).2 ++ (modbusSenttset time (tcpClientReciver env bytes g).1).2
  handedFrom .downlink events = documented bytes ∧
    (Command.fits (g.copyIn bytes) .pollList = false → handedFrom .pollList events = []) ∧
    ∀ e ∈ events, ¬ e.Wraps ∧ e.Inside [.tdata,.tcpRecvBuf]

/-- The segments that are parsed by the grammar: with the downlink prefix in the
    buffer those of the documented form and those of eight bytes, with the list
    prefix those of at least seven, and all others. -/
def InGrammar (g : Gateway) (bytes : List UInt8) : Prop :=
  (Command.fits (g.copyIn bytes) .downlink = true → bytes.length = 8 ∨ (downlinkPayload bytes).isSome) ∧
    (Command.fits (g.copyIn bytes) .pollList = true → 7 ≤ bytes.length)

instance (g : Gateway) (bytes : List UInt8) : Decidable (InGrammar g bytes) := inferInstanceAs (Decidable (_ ∧ _))

theorem fits_of_payload {g : Gateway} {p payload : List UInt8} (short : p.length < 1500)
    (parsed : downlinkPayload p = some payload) : Command.fits (g.copyIn p) .downlink = true := by
  obtain ⟨kind,rfl⟩ := downlinkPayload_eq_some_iff.mp parsed
  exact fits_downlink short (downlinkFrame_start kind payload)

/-- What a segment and the next call of `ModbusSenttset` hand over, from an empty
    mailbox: with the downlink prefix in the buffer all but eight bytes, whatever
    they are, and an empty payload when the length has wrapped around. -/
theorem drain_hands (env : Surroundings) (time : UInt32) {g : Gateway} {bytes : List UInt8} (short : bytes.length < 1500)
    (empty : g.tcpRecvLenth = 0) :
    handedFrom .downlink (modbusSenttset time (tcpClientReciver env bytes g).1).2 =
      if Command.fits (g.copyIn bytes) .downlink then
        if bytes.length < 8 then [[]]
        else if bytes.length = 8 then [] else [(bytes.drop 3).take (bytes.length - 8)]
      else [] := by
  cases down : Command.fits (g.copyIn bytes) .downlink with
  | true =>
    have received := segment_downlink env bytes g down
    have lenth : (tcpClientReciver env bytes g).1.tcpRecvLenth = UInt32.ofNat bytes.length - 5 - 3 := by rw [received]
    rw [if_pos rfl]
    by_cases few : bytes.length < 8
    · have wrapped := downlink_lenth_wraps few
      have full : 0 < (tcpClientReciver env bytes g).1.tcpRecvLenth := by
        rw [UInt32.lt_iff_toNat_lt,lenth]
        exact Nat.lt_of_lt_of_le (by decide) wrapped
      have same : modbusSenttset time (tcpClientReciver env bytes g).1 = sendDownlink (tcpClientReciver env bytes g).1 := by
        simp [modbusSenttset,full]
      rw [same,(sendDownlink_hands _).2,lenth,if_neg (Nat.not_lt_of_le wrapped),if_pos few]
    · have size := downlink_lenth (Nat.le_of_not_lt few) (by omega)
      rw [if_neg few]
      by_cases eight : bytes.length = 8
      · have none : (tcpClientReciver env bytes g).1.tcpRecvLenth = 0 := by
          rw [lenth,← UInt32.toNat_inj,size,eight]
          rfl
        rw [senttset_empty_hands time none,if_pos eight]
      · have full : 0 < (tcpClientReciver env bytes g).1.tcpRecvLenth := by
          rw [UInt32.lt_iff_toNat_lt,lenth,size]
          exact Nat.sub_pos_of_lt (by omega)
        have same : modbusSenttset time (tcpClientReciver env bytes g).1 = sendDownlink (tcpClientReciver env bytes g).1 := by
          simp [modbusSenttset,full]
        have middle := copyIn_front (g := g) short 3 (bytes.length - 8) (by omega)
        have count : ((bytes.drop 3).take (bytes.length - 8)).length = bytes.length - 8 := by simp; omega
        have stored := g.tcpRecvBuf.slice_copy ((bytes.drop 3).take (bytes.length - 8)) (by omega)
        have buf : (tcpClientReciver env bytes g).1.tcpRecvBuf =
            g.tcpRecvBuf.copy ((bytes.drop 3).take (bytes.length - 8)) := by rw [received,size,middle]
        rw [count] at stored
        rw [same,(sendDownlink_hands _).2,lenth,size,buf,stored,if_neg eight,if_pos (by omega)]
  | false =>
    rw [if_neg (by simp)]
    cases list : Command.fits (g.copyIn bytes) .pollList with
    | true => exact senttset_empty_hands time (by rw [segment_pollList env bytes g list])
    | false =>
      obtain ⟨g',events,same,frame,-⟩ := segment_other env bytes g down list
      rw [same]
      exact senttset_empty_hands time (frame.lenth.trans empty)
/-- No poll command is sent when the segment has loaded no list. -/
theorem drain_unlisted (env : Surroundings) (time : UInt32) {g : Gateway} {bytes : List UInt8}
    (unlisted : g.poller.tcp2Rs485CmdList.peek 0 = 0)
    (other : Command.fits (g.copyIn bytes) .pollList = false) :
    handedFrom .pollList (modbusSenttset time (tcpClientReciver env bytes g).1).2 = [] := by
  have poller := segment_poller env other
  obtain ⟨-,same⟩ | ⟨none,-,-⟩ | ⟨none,-,-⟩ := senttset_cases time (tcpClientReciver env bytes g).1
  · rw [same]
    exact (sendDownlink_hands _).1
  · exact handedFrom_none fun e member payload taken handed => by
      simpa [handed] using senttset_idle time none (by rw [poller]; exact unlisted) e member
  · exact handedFrom_none fun e member payload taken handed => by
      simpa [handed] using senttset_idle time none (by rw [poller]; exact unlisted) e member
/-- Segments long enough for their prefix are copied inside the buffers. -/
theorem segment_safe (env : Surroundings) {g : Gateway} {bytes : List UInt8} (short : bytes.length < 1500)
    (frame : Command.fits (g.copyIn bytes) .downlink = true → 8 ≤ bytes.length)
    (list : Command.fits (g.copyIn bytes) .pollList = true → 7 ≤ bytes.length) :
    ∀ e ∈ (tcpClientReciver env bytes g).2, ¬ e.Wraps ∧ e.Inside [.tdata,.tcpRecvBuf] := by
  have copied : ∀ e ∈ Event.segment bytes :: copyEvents bytes, ¬ e.Wraps ∧ e.Inside [.tdata,.tcpRecvBuf] := by
    simp [copyEvents,short,Event.Wraps,Event.Inside,Access.Inside,Arr.size]
    omega
  cases down : Command.fits (g.copyIn bytes) .downlink with
  | true =>
    have enough := frame down
    rw [segment_downlink env bytes g down,downlink_lenth enough (by omega)]
    refine List.forall_mem_append.mpr ⟨copied,?_⟩
    simp [Event.Wraps,Event.Inside,Access.Inside,Arr.size]
    omega
  | false =>
    cases poll : Command.fits (g.copyIn bytes) .pollList with
    | true =>
      have enough := list poll
      rw [segment_pollList env bytes g poll,pollList_lenth enough (by omega)]
      refine List.forall_mem_append.mpr ⟨copied,?_⟩
      simp [Event.Wraps,Event.Inside,Access.Inside,Arr.size]
      omega
    | false =>
      obtain ⟨g',events,same,-,all⟩ := segment_other env bytes g down poll
      rw [same]
      refine List.forall_mem_append.mpr ⟨copied,?_⟩
      intro e member
      have known := all e member
      refine e.safe ?_ ?_
      · rintro left right rfl
        exact Bool.noConfusion known
      · rintro use rfl listed
        simp only [Event.ofCommand,Bool.or_eq_true,Bool.and_eq_true,beq_iff_eq,decide_eq_true_eq] at known
        rcases known with uid | ⟨-,inside⟩
        · simp [uid] at listed
        · exact inside

/-- The parser follows the grammar on a segment exactly when the segment is one of
    those; with no downlink and no list before it, this is so for every segment
    below 1500 bytes. -/
theorem parser_exact_iff (env : Surroundings) (time : UInt32) (g : Gateway) (bytes : List UInt8)
    (short : bytes.length < 1500) (empty : g.tcpRecvLenth = 0) (unlisted : g.poller.tcp2Rs485CmdList.peek 0 = 0) :
    ParserExact env time g bytes ↔ InGrammar g bytes := by
  have handed := drain_hands env time short empty
  simp only [ParserExact,handedFrom_append,segment_hands,List.nil_append,handed]
  constructor
  · rintro ⟨exact,-,safe⟩
    refine ⟨?_,?_⟩
    · intro down
      rw [if_pos down] at exact
      by_contra outside
      obtain ⟨eight,unparsed⟩ := not_or.mp outside
      rw [documented,Option.not_isSome_iff_eq_none.mp unparsed,if_neg eight] at exact
      split at exact <;> simp at exact
    · intro list
      by_contra few
      have wraps := (safe (.subtract bytes.length 7) (by
        rw [segment_pollList env bytes g list]
        exact List.mem_append_left _ (List.mem_append_right _ (List.mem_cons_self ..)))).1
      exact wraps (Nat.lt_of_not_le few)
  · rintro ⟨frame,list⟩
    refine ⟨?_,drain_unlisted env time unlisted,List.forall_mem_append.mpr ⟨segment_safe env short ?_ list,
      senttset_safe time _⟩⟩
    · cases parsed : downlinkPayload bytes with
      | none =>
        by_cases down : Command.fits (g.copyIn bytes) .downlink = true
        · obtain eight | some := frame down
          · simp [eight,documented,parsed]
          · simp [parsed] at some
        · simp [down,documented,parsed]
      | some payload =>
        rw [if_pos (fits_of_payload short parsed)]
        obtain ⟨kind,rfl⟩ := downlinkPayload_eq_some_iff.mp parsed
        have middle := downlinkFrame_middle kind payload
        simp only [downlinkFrame_length,Nat.add_sub_cancel,middle,documented,parsed]
        cases payload with
        | nil => rfl
        | cons byte rest => simp
    · intro down
      obtain eight | some := frame down
      · exact Nat.le_of_eq eight.symm
      · obtain ⟨payload,parsed⟩ := Option.isSome_iff_exists.mp some
        obtain ⟨kind,rfl⟩ := downlinkPayload_eq_some_iff.mp parsed
        simp
theorem parser_exact_iff_one_frame :
    ParserExact .plain 10 (gatewayStarted .boot ⟨1,2,3⟩ false) (downlinkFrame 1 [5,6]) ↔
      InGrammar (gatewayStarted .boot ⟨1,2,3⟩ false) (downlinkFrame 1 [5,6]) :=
  parser_exact_iff .plain 10 _ _ (by decide) rfl (by decide)
/-- The trailer is not looked at: its five bytes are cut off whatever they are. -/
theorem parser_exact_fails : ¬ ParserExact .plain 10 (gatewayStarted .boot ⟨1,2,3⟩ false) [0xFF,0xAA,1,2,3,4,5,6,7] := by
  intro exact
  have handed := exact.1
  revert handed
  decide

/-- A segment and the call of `ModbusSenttset` that follows it. -/
structure Delivery where
  env : Surroundings
  bytes : List UInt8
  time : UInt32

/-- The mailbox is drained after every segment. -/
def drainInputs (deliveries : List Delivery) : List GatewayInput :=
  deliveries.flatMap fun d => [.segment d.env d.bytes,.modbusSenttset d.time]

/-- Payloads that are taken from segments, each from at most one: the payload is
    eight bytes shorter than its segment, or empty. -/
inductive Taken : List (List UInt8) → List (List UInt8) → Prop
  | nil : Taken [] []
  | skip {bytes segments payloads} : Taken segments payloads → Taken (bytes :: segments) payloads
  | take {bytes payload segments payloads} : payload = [] ∨ payload.length + 8 = bytes.length →
      Taken segments payloads → Taken (bytes :: segments) (payload :: payloads)

/-- The payloads and eight bytes for each are not longer than the segments, and
    when they are as long, every segment has its payload. -/
theorem Taken.lengths {segments payloads : List (List UInt8)} (taken : Taken segments payloads)
    (some : ∀ bytes ∈ segments, bytes ≠ []) (nonempty : ∀ payload ∈ payloads, payload ≠ []) :
    (payloads.map (·.length + 8)).sum ≤ (segments.map List.length).sum ∧
      ((payloads.map (·.length + 8)).sum = (segments.map List.length).sum →
        segments.map List.length = payloads.map (·.length + 8)) := by
  induction taken with
  | nil => simp
  | @skip bytes segments payloads taken ih =>
    obtain ⟨below,-⟩ := ih (fun b member => some b (List.mem_cons_of_mem _ member)) nonempty
    have positive := List.length_pos_iff.mpr (some bytes (List.mem_cons_self ..))
    simp only [List.map_cons,List.sum_cons]
    refine ⟨by omega,?_⟩
    intro same
    omega
  | @take bytes payload segments payloads size taken ih =>
    obtain ⟨below,tight⟩ := ih (fun b member => some b (List.mem_cons_of_mem _ member))
      (fun p member => nonempty p (List.mem_cons_of_mem _ member))
    have eight : payload.length + 8 = bytes.length :=
      size.resolve_left (nonempty payload (List.mem_cons_self ..))
    simp only [List.map_cons,List.sum_cons,eight]
    exact ⟨by omega,fun same => by rw [tight (by omega)]⟩

/-- One segment and its drain leave the mailbox empty. -/
theorem drain_empties (env : Surroundings) (time : UInt32) (g : Gateway) (bytes : List UInt8) :
    (modbusSenttset time (tcpClientReciver env bytes g).1).1.tcpRecvLenth = 0 := by
  obtain ⟨-,same⟩ | ⟨none,-,same⟩ | ⟨none,-,same⟩ := senttset_cases time (tcpClientReciver env bytes g).1 <;> rw [same]
  · rfl
  · rw [(walk_frame _ _).lenth,none]
  · exact none
theorem drain_cons (d : Delivery) (rest : List Delivery) (g : Gateway) :
    handedFrom .downlink (gateway.trace g (drainInputs (d :: rest))) =
      handedFrom .downlink (modbusSenttset d.time (tcpClientReciver d.env d.bytes g).1).2 ++
        handedFrom .downlink (gateway.trace (modbusSenttset d.time (tcpClientReciver d.env d.bytes g).1).1
          (drainInputs rest)) := by
  simp [drainInputs,gateway,gatewayStep]
theorem drain_taken (deliveries : List Delivery) {g : Gateway} (empty : g.tcpRecvLenth = 0)
    (short : ∀ d ∈ deliveries, d.bytes.length < 1500) :
    Taken (deliveries.map Delivery.bytes) (handedFrom .downlink (gateway.trace g (drainInputs deliveries))) := by
  induction deliveries generalizing g with
  | nil => exact .nil
  | cons d rest ih =>
    have later := ih (drain_empties d.env d.time g d.bytes)
      fun e member => short e (List.mem_cons_of_mem _ member)
    have handed := drain_hands d.env d.time (short d (List.mem_cons_self ..)) empty
    rw [drain_cons,handed]
    split
    · split
      · exact .take (.inl rfl) later
      · rename_i many
        split
        · exact .skip later
        · exact .take (.inr (by simp; omega)) later
    · exact .skip later

/-- Whole frames, one to a segment, are handed over one by one. -/
theorem drain_frames (deliveries : List Delivery) (frames : List (UInt8 × List UInt8)) {g : Gateway}
    (empty : g.tcpRecvLenth = 0) (short : ∀ d ∈ deliveries, d.bytes.length < 1500)
    (nonempty : ∀ frame ∈ frames, frame.2 ≠ [])
    (whole : deliveries.map Delivery.bytes = frames.map fun frame => downlinkFrame frame.1 frame.2) :
    handedFrom .downlink (gateway.trace g (drainInputs deliveries)) = frames.map Prod.snd := by
  induction deliveries generalizing g frames with
  | nil =>
    cases frames with
    | nil => rfl
    | cons frame rest => simp at whole
  | cons d rest ih =>
    cases frames with
    | nil => simp at whole
    | cons frame frames =>
      simp only [List.map_cons,List.cons.injEq] at whole
      obtain ⟨same,whole⟩ := whole
      have later := ih frames (drain_empties d.env d.time g d.bytes)
        (fun e member => short e (List.mem_cons_of_mem _ member))
        (fun f member => nonempty f (List.mem_cons_of_mem _ member)) whole
      have fits := short d (List.mem_cons_self ..)
      have handed := drain_hands d.env d.time fits empty
      have down : Command.fits (g.copyIn d.bytes) .downlink = true :=
        fits_downlink fits (same ▸ downlinkFrame_start frame.1 frame.2)
      have positive := List.length_pos_iff.mpr (nonempty frame (List.mem_cons_self ..))
      have length : d.bytes.length = frame.2.length + 8 := by rw [same,downlinkFrame_length]
      rw [if_pos down,if_neg (by omega),if_neg (by omega),length,Nat.add_sub_cancel,same,
        downlinkFrame_middle] at handed
      rw [drain_cons,same,handed,← same,later]
      rfl

/-- A stream of frames with payloads, cut into segments in any way, is handed over
    as its payloads exactly when every segment is one whole frame. -/
theorem segmentation_iff (g : Gateway) (empty : g.tcpRecvLenth = 0) (frames : List (UInt8 × List UInt8))
    (nonempty : ∀ frame ∈ frames, frame.2 ≠ []) (deliveries : List Delivery)
    (short : ∀ d ∈ deliveries, d.bytes ≠ [] ∧ d.bytes.length < 1500)
    (cut : (deliveries.map Delivery.bytes).flatten = (frames.map fun frame => downlinkFrame frame.1 frame.2).flatten) :
    handedFrom .downlink (gateway.trace g (drainInputs deliveries)) = frames.map Prod.snd ↔
      deliveries.map Delivery.bytes = frames.map fun frame => downlinkFrame frame.1 frame.2 := by
  constructor
  · intro handed
    have taken := drain_taken deliveries empty fun d member => (short d member).2
    rw [handed] at taken
    have total := congrArg List.length cut
    rw [List.length_flatten,List.length_flatten] at total
    have lengths : (frames.map fun frame => downlinkFrame frame.1 frame.2).map List.length =
        (frames.map Prod.snd).map (·.length + 8) := by
      simp [Function.comp_def]
    have tight := (taken.lengths (by simpa using fun d member => (short d member).1)
      (by simpa using fun payload kind member => nonempty (kind,payload) member)).2 (by rw [total,lengths])
    rw [List.eq_iff_flatten_eq]
    exact ⟨cut,tight.trans lengths.symm⟩
  · exact drain_frames deliveries frames empty (fun d member => (short d member).2) nonempty
theorem segmentation_iff_one_frame :
    handedFrom .downlink (gateway.trace (gatewayStarted .boot ⟨1,2,3⟩ false)
        (drainInputs [⟨.plain,downlinkFrame 1 [5],10⟩])) = [(1,[5])].map Prod.snd ↔
      [(⟨.plain,downlinkFrame 1 [5],10⟩ : Delivery)].map Delivery.bytes =
        [((1 : UInt8),[(5 : UInt8)])].map fun frame => downlinkFrame frame.1 frame.2 :=
  segmentation_iff _ rfl [(1,[5])] (by simp) [⟨.plain,downlinkFrame 1 [5],10⟩] (by simp [downlinkFrame]) rfl
/-- One frame in one segment is handed over, the same bytes in two segments are
    not. -/
theorem segmentation_fails :
    ([⟨.plain,[0xFF,0xAA,1],10⟩,⟨.plain,[5,0xAA,0xFF,0x24,0x0D,0x0A],20⟩] : List Delivery).flatMap Delivery.bytes =
        downlinkFrame 1 [5] ∧
      handedFrom .downlink (gateway.trace (gatewayStarted .boot ⟨1,2,3⟩ false)
        (drainInputs [⟨.plain,downlinkFrame 1 [5],10⟩])) = [[5]] ∧
      handedFrom .downlink (gateway.trace (gatewayStarted .boot ⟨1,2,3⟩ false)
        (drainInputs [⟨.plain,[0xFF,0xAA,1],10⟩,⟨.plain,[5,0xAA,0xFF,0x24,0x0D,0x0A],20⟩])) ≠ [[5]] := by
  decide

end Net2Modbus
