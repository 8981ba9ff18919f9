import Net2Modbus.Traffic

/-!
# The downlink

Downlink frames `FF AA t d AA FF 24 0D 0A` on their way from a TCP segment through
the mailbox to `Master_Send`: what is delivered over whole runs, which segments
the parser takes, and what becomes of a byte stream cut in other places.
-/
namespace Net2Modbus

/-- The documented form of a downlink frame. -/
def downlinkFrame (kind : UInt8) (payload : List UInt8) : List UInt8 :=
  [0xFF,0xAA,kind] ++ payload ++ [0xAA,0xFF,0x24,0x0D,0x0A]
/-- The payload of a segment of the documented form. -/
def downlinkPayload (bytes : List UInt8) : Option (List UInt8) :=
  let payload := (bytes.drop 3).take (bytes.length - 8)
  if bytes = downlinkFrame (bytes.getD 2 0) payload then some payload else none

@[simp] theorem downlinkFrame_length (kind : UInt8) (payload : List UInt8) :
    (downlinkFrame kind payload).length = payload.length + 8 := by
  simp [downlinkFrame]
theorem downlinkFrame_middle (kind : UInt8) (payload : List UInt8) :
    ((downlinkFrame kind payload).drop 3).take payload.length = payload := by
  simp [downlinkFrame]
@[simp] theorem downlinkPayload_frame (kind : UInt8) (payload : List UInt8) :
    downlinkPayload (downlinkFrame kind payload) = some payload := by
  have middle := downlinkFrame_middle kind payload
  simp only [downlinkPayload,downlinkFrame_length,Nat.add_sub_cancel,middle]
  simp [downlinkFrame]
theorem downlinkPayload_eq_some_iff {bytes payload : List UInt8} :
    downlinkPayload bytes = some payload ↔ ∃ kind, bytes = downlinkFrame kind payload := by
  constructor
  · intro parsed
    simp only [downlinkPayload,Option.ite_none_right_eq_some,Option.some.injEq] at parsed
    obtain ⟨same,rfl⟩ := parsed
    exact ⟨_,same⟩
  · rintro ⟨kind,rfl⟩
    exact downlinkPayload_frame kind payload

/-- What one part of `ModbusSenttset` hands to `Master_Send`. -/
def handedFrom (source : Source) (events : List Event) : List (List UInt8) :=
  events.filterMap fun
    | .handed from_ payload _ => if from_ = source then some payload else none
    | _ => none

/-- Downlink payloads: those of segments are due, those that the serial side
    accepts are paid, and the one in the mailbox is owed. -/
def downlinkLedger : Ledger Gateway Event (List UInt8) where
  due
    | .segment bytes => (downlinkPayload bytes).toList
    | _ => []
  paid
    | .handed .downlink payload true => [payload]
    | _ => []
  owed g := if 0 < g.tcpRecvLenth then [g.tcpRecvBuf.slice 0 g.tcpRecvLenth.toNat] else []

/-- The segments of a server that sends downlink frames of 1 to 253 bytes and poll
    lists, one to a segment. -/
def DownlinkTraffic : GatewayInput → Prop
  | .segment _ bytes => (∃ kind payload, bytes = downlinkFrame kind payload ∧ payload ≠ [] ∧ payload.length ≤ 253) ∨
      (bytes.length < 1500 ∧ [0xFF,0xBB] <+: bytes)
  | _ => True

theorem sendable_iff (bytes : List UInt8) :
    (downlinkPayload bytes).any (fun payload => payload ≠ [] ∧ payload.length ≤ 253) = true ↔
      ∃ kind payload, bytes = downlinkFrame kind payload ∧ payload ≠ [] ∧ payload.length ≤ 253 := by
  simp only [Option.any_eq_true_iff_get,decide_eq_true_eq]
  constructor
  · rintro ⟨some,nonempty,bound⟩
    obtain ⟨kind,same⟩ := downlinkPayload_eq_some_iff.mp (Option.some_get some).symm
    exact ⟨kind,_,same,nonempty,bound⟩
  · rintro ⟨kind,payload,rfl,nonempty,bound⟩
    simp [nonempty,bound]

instance (i : GatewayInput) : Decidable (DownlinkTraffic i) :=
  match i with
  | .segment _ bytes =>
    have := decidable_of_iff _ (sendable_iff bytes)
    inferInstanceAs (Decidable (_ ∨ _))
  | .modbusSenttset _ => isTrue trivial
  | .line _ => isTrue trivial

/-- A segment finds the mailbox empty, and a full mailbox is sent while the
    receiver is idle. -/
def MailboxClear (g : Gateway) : GatewayInput → Prop
  | .segment _ _ => g.tcpRecvLenth = 0
  | .modbusSenttset _ => 0 < g.tcpRecvLenth → g.serial.eRcvState = .rxIdle
  | .line _ => True

/-- Events that neither ask for a payload nor deliver one. -/
def Settled (events : List Event) : Prop :=
  events.flatMap downlinkLedger.due = [] ∧ events.flatMap downlinkLedger.paid = []

theorem settled_of_forall {events : List Event} {kind : Event → Bool}
    (silent : ∀ e, kind e = true → downlinkLedger.due e = [] ∧ downlinkLedger.paid e = [])
    (all : ∀ e ∈ events, kind e = true) : Settled events :=
  ⟨List.flatMap_eq_nil_iff.mpr fun e member => (silent e (all e member)).1,
    List.flatMap_eq_nil_iff.mpr fun e member => (silent e (all e member)).2⟩
theorem onLine_silent (e : Event) (line : e.onLine = true) : downlinkLedger.due e = [] ∧ downlinkLedger.paid e = [] := by
  cases e <;> simp_all [downlinkLedger,Event.onLine]
theorem ofPoll_silent (e : Event) (poll : e.ofPoll = true) : downlinkLedger.due e = [] ∧ downlinkLedger.paid e = [] := by
  cases e with
  | handed source payload taken => cases source <;> simp_all [downlinkLedger,Event.ofPoll,Event.onLine]
  | _ => simp_all [downlinkLedger,Event.ofPoll,Event.onLine]
theorem ofSend_silent (e : Event) (send : e.ofSend .downlink = true) :
    downlinkLedger.due e = [] ∧ downlinkLedger.paid e = [] := by
  cases e <;> simp_all [downlinkLedger,Event.ofSend]
theorem copyEvents_settled (p : List UInt8) : Settled (copyEvents p) := by
  unfold copyEvents
  split <;> exact ⟨rfl,rfl⟩
theorem exact_of_settled {g g' : Gateway} {events : List Event} (settled : Settled events)
    (buf : g'.tcpRecvBuf = g.tcpRecvBuf) (lenth : g'.tcpRecvLenth = g.tcpRecvLenth) :
    downlinkLedger.Exact g g' events := by
  have owed : downlinkLedger.owed g' = downlinkLedger.owed g := by simp [downlinkLedger,buf,lenth]
  simp [Ledger.Exact,settled.1,settled.2,owed]

/-- What stands in the front of `Tdata` after a short segment. -/
theorem copyIn_front {g : Gateway} {p : List UInt8} (short : p.length < 1500) (offset count : Nat)
    (inside : offset + count ≤ p.length) : (g.copyIn p).slice offset count = (p.drop offset).take count := by
  simp only [Gateway.copyIn,short,if_true]
  exact Block.slice_copy_part _ _ _ _ (by omega) inside
theorem fits_downlink {g : Gateway} {p : List UInt8} (short : p.length < 1500) (start : [0xFF,0xAA] <+: p) :
    Command.fits (g.copyIn p) .downlink = true := by
  have front := copyIn_front (g := g) short 0 2 (by simpa using start.length_le)
  obtain ⟨rest,rfl⟩ := start
  simp at front
  simp [Command.fits,strncmpEq,Command.word,front]
theorem fits_pollList {g : Gateway} {p : List UInt8} (short : p.length < 1500) (start : [0xFF,0xBB] <+: p) :
    Command.fits (g.copyIn p) .pollList = true := by
  have front := copyIn_front (g := g) short 0 2 (by simpa using start.length_le)
  obtain ⟨rest,rfl⟩ := start
  simp at front
  simp [Command.fits,strncmpEq,Command.word,front]
theorem downlinkFrame_start (kind : UInt8) (payload : List UInt8) : [0xFF,0xAA] <+: downlinkFrame kind payload :=
  ⟨kind :: (payload ++ [0xAA,0xFF,0x24,0x0D,0x0A]),rfl⟩
theorem downlinkPayload_pollList {p : List UInt8} (start : [0xFF,0xBB] <+: p) : downlinkPayload p = none := by
  rw [Option.eq_none_iff_forall_ne_some]
  intro payload parsed
  obtain ⟨kind,rfl⟩ := downlinkPayload_eq_some_iff.mp parsed
  obtain ⟨rest,same⟩ := start
  simp [downlinkFrame] at same

/-- A downlink frame leaves its payload in the mailbox. -/
theorem segment_frame (env : Surroundings) (kind : UInt8) (payload : List UInt8) (g : Gateway)
    (short : payload.length + 8 < 1500) :
    (tcpClientReciver env (downlinkFrame kind payload) g).1.tcpRecvLenth.toNat = payload.length ∧
      (tcpClientReciver env (downlinkFrame kind payload) g).1.tcpRecvBuf.slice 0 payload.length = payload ∧
      (tcpClientReciver env (downlinkFrame kind payload) g).1.serial = g.serial ∧
      (tcpClientReciver env (downlinkFrame kind payload) g).1.poller = g.poller := by
  have fits : Command.fits (g.copyIn (downlinkFrame kind payload)) .downlink = true :=
    fits_downlink (by simpa using short) (downlinkFrame_start kind payload)
  have lenth := downlink_lenth (n := payload.length + 8) (by omega) (by omega)
  have middle : (g.copyIn (downlinkFrame kind payload)).slice 3 payload.length = payload := by
    rw [copyIn_front (by simpa using short) 3 payload.length (by rw [downlinkFrame_length]; omega)]
    exact downlinkFrame_middle kind payload
  rw [segment_downlink env _ g fits,downlinkFrame_length]
  rw [Nat.add_sub_cancel] at lenth
  refine ⟨lenth,?_,rfl,rfl⟩
  simp only [lenth,middle]
  exact Block.slice_copy _ _ (by omega)
theorem segment_frame_events (env : Surroundings) (kind : UInt8) (payload : List UInt8) (g : Gateway)
    (short : payload.length + 8 < 1500) :
    (tcpClientReciver env (downlinkFrame kind payload) g).2.flatMap downlinkLedger.due = [payload] ∧
      (tcpClientReciver env (downlinkFrame kind payload) g).2.flatMap downlinkLedger.paid = [] := by
  have fits : Command.fits (g.copyIn (downlinkFrame kind payload)) .downlink = true :=
    fits_downlink (by simpa using short) (downlinkFrame_start kind payload)
  have copied := copyEvents_settled (downlinkFrame kind payload)
  rw [segment_downlink env _ g fits]
  simp [copied.1,copied.2]
  simp [downlinkLedger]
/-- A poll list empties the mailbox. -/
theorem segment_list (env : Surroundings) {p : List UInt8} (g : Gateway) (short : p.length < 1500)
    (start : [0xFF,0xBB] <+: p) :
    (tcpClientReciver env p g).1.tcpRecvLenth = 0 ∧ (tcpClientReciver env p g).1.serial = g.serial ∧
      Settled (tcpClientReciver env p g).2 := by
  have copied := copyEvents_settled p
  have other := downlinkPayload_pollList start
  rw [segment_pollList env p g (fits_pollList short start)]
  refine ⟨rfl,rfl,?_,?_⟩
  · simp [copied.1]
    simp [downlinkLedger,other]
  · simp [copied.2]
    simp [downlinkLedger]
/-- The branch for a full mailbox empties it, and delivers when the receiver is
    idle. -/
theorem sendDownlink_effect (g : Gateway) (fits : g.tcpRecvLenth.toNat ≤ 253) :
    (sendDownlink g).1.tcpRecvLenth = 0 ∧ (sendDownlink g).2.flatMap downlinkLedger.due = [] ∧
      (sendDownlink g).2.flatMap downlinkLedger.paid =
        if g.serial.eRcvState = .rxIdle then [g.tcpRecvBuf.slice 0 g.tcpRecvLenth.toNat] else [] := by
  have same : g.tcpRecvLenth.toInt32.toInt = g.tcpRecvLenth.toNat := toInt32_small (by omega)
  obtain ⟨front,line,events,ofFront,ofLine⟩ := send_events .downlink g.tcpRecvBuf g.tcpRecvLenth.toInt32.toInt g
  have silent : Settled front := settled_of_forall ofSend_silent ofFront
  have quiet : Settled line := settled_of_forall onLine_silent ofLine
  refine ⟨rfl,?_,?_⟩
  · simp only [sendDownlink,events,List.flatMap_append,List.flatMap_cons,silent.1,quiet.1]
    rfl
  · simp only [sendDownlink,events,List.flatMap_append,List.flatMap_cons,silent.2,quiet.2]
    rw [same,send_taken (by omega)]
    by_cases idle : g.serial.eRcvState = .rxIdle
    · simp [downlinkLedger,idle]
    · simp [downlinkLedger,idle]

/-- What the ledger says of a gateway whose mailbox is empty or full. -/
theorem owed_empty {g : Gateway} (empty : g.tcpRecvLenth = 0) : downlinkLedger.owed g = [] := by
  simp [downlinkLedger,empty]
theorem owed_full {g : Gateway} (full : 0 < g.tcpRecvLenth) :
    downlinkLedger.owed g = [g.tcpRecvBuf.slice 0 g.tcpRecvLenth.toNat] := by
  simp [downlinkLedger,full]

/-- The mailbox holds at most what one frame may carry. -/
def MailboxFits (g : Gateway) : Prop := g.tcpRecvLenth.toNat ≤ 253

theorem mailbox_keep {g : Gateway} {i : GatewayInput} (fits : MailboxFits g) (traffic : DownlinkTraffic i) :
    MailboxFits (gateway.step g i).1 := by
  cases i with
  | segment env bytes =>
    simp only [gateway,gatewayStep,MailboxFits]
    rcases traffic with ⟨kind,payload,rfl,-,bound⟩ | ⟨short,start⟩
    · rw [(segment_frame env kind _ g (by omega)).1]
      exact bound
    · rw [(segment_list env g short start).1]
      decide
  | modbusSenttset time =>
    simp only [gateway,gatewayStep,MailboxFits]
    obtain ⟨-,same⟩ | ⟨empty,-,same⟩ | ⟨-,-,same⟩ := senttset_cases time g <;> rw [same]
    · rw [(sendDownlink_effect g fits).1]
      decide
    · rw [(walk_frame time g).lenth]
      exact fits
    · exact fits
  | line i => exact fits
theorem mailbox_exact {g : Gateway} {i : GatewayInput} (fits : MailboxFits g) (traffic : DownlinkTraffic i)
    (clear : MailboxClear g i) : downlinkLedger.Exact g (gateway.step g i).1 (gateway.step g i).2 := by
  cases i with
  | segment env bytes =>
    have before := owed_empty clear
    simp only [gateway,gatewayStep]
    rcases traffic with ⟨kind,payload,rfl,nonempty,bound⟩ | ⟨short,start⟩
    · obtain ⟨lenth,stored,-⟩ := segment_frame env kind payload g (by omega)
      obtain ⟨due,paid⟩ := segment_frame_events env kind payload g (by omega)
      have positive := List.length_pos_iff.mpr nonempty
      have full : 0 < (tcpClientReciver env (downlinkFrame kind payload) g).1.tcpRecvLenth := by
        rw [UInt32.lt_iff_toNat_lt,lenth]
        exact positive
      rw [Ledger.Exact,before,due,paid,owed_full full,lenth,stored]
    · obtain ⟨empty,-,settled⟩ := segment_list env g short start
      rw [Ledger.Exact,before,settled.1,settled.2,owed_empty empty]
  | modbusSenttset time =>
    simp only [gateway,gatewayStep]
    obtain ⟨full,same⟩ | ⟨empty,-,same⟩ | ⟨-,-,same⟩ := senttset_cases time g <;> rw [same]
    · obtain ⟨empty,due,paid⟩ := sendDownlink_effect g fits
      rw [Ledger.Exact,due,paid,owed_full full,owed_empty empty,if_pos (clear full)]
    · have frame := walk_frame time g
      exact exact_of_settled (settled_of_forall ofPoll_silent (walk_ofPoll time g)) frame.buf frame.lenth
    · exact exact_of_settled ⟨rfl,rfl⟩ rfl rfl
  | line i =>
    exact exact_of_settled (settled_of_forall onLine_silent (line_onLine g.serial i)) rfl rfl
/-- A segment takes the place of the payload that waits, and a refused payload is
    dropped. -/
theorem mailbox_short {g : Gateway} {i : GatewayInput} (fits : MailboxFits g) (traffic : DownlinkTraffic i)
    (unclear : ¬ MailboxClear g i) : downlinkLedger.Short g (gateway.step g i).1 (gateway.step g i).2 := by
  cases i with
  | segment env bytes =>
    have full : 0 < g.tcpRecvLenth := UInt32.pos_iff_ne_zero.mpr unclear
    have before := owed_full full
    simp only [gateway,gatewayStep]
    rcases traffic with ⟨kind,payload,rfl,nonempty,bound⟩ | ⟨short,start⟩
    · obtain ⟨lenth,stored,-⟩ := segment_frame env kind payload g (by omega)
      obtain ⟨due,paid⟩ := segment_frame_events env kind payload g (by omega)
      have positive := List.length_pos_iff.mpr nonempty
      have after : 0 < (tcpClientReciver env (downlinkFrame kind payload) g).1.tcpRecvLenth := by
        rw [UInt32.lt_iff_toNat_lt,lenth]
        exact positive
      rw [Ledger.Short,before,due,paid,owed_full after]
      simp
    · obtain ⟨empty,-,settled⟩ := segment_list env g short start
      rw [Ledger.Short,before,settled.1,settled.2,owed_empty empty]
      simp
  | modbusSenttset time =>
    simp only [MailboxClear,Classical.not_imp] at unclear
    obtain ⟨full,busy⟩ := unclear
    obtain ⟨empty,due,paid⟩ := sendDownlink_effect g fits
    have same : modbusSenttset time g = sendDownlink g := by simp [modbusSenttset,full]
    simp only [gateway,gatewayStep,same]
    rw [Ledger.Short,due,paid,owed_full full,owed_empty empty,if_neg busy]
    simp
  | line i => simp [MailboxClear] at unclear

/-- At every point of a run the payloads accepted from the downlink path and the
    one that waits are those received so far, in order, exactly when every
    segment finds the mailbox empty and every full mailbox is sent to an idle
    receiver. -/
theorem downlink_delivery_iff (client : Client) (uid : Uid) (si4432 : Bool) (inputs : List GatewayInput)
    (each : gateway.Each (fun g i => gateway.enabled g i ∧ DownlinkTraffic i) (gatewayStarted client uid si4432) inputs) :
    gateway.Throughout downlinkLedger.Balanced (gatewayStarted client uid si4432) [] inputs ↔
      gateway.Each MailboxClear (gatewayStarted client uid si4432) inputs :=
  Ledger.balanced_iff (fun _ _ fits can => mailbox_keep fits can.2) (fun _ _ fits can => mailbox_exact fits can.2)
    (fun _ _ fits can => mailbox_short fits can.2) (Nat.zero_le _ : MailboxFits (gatewayStarted client uid si4432)) rfl each
theorem downlink_delivery_iff_one_frame :
    gateway.Throughout downlinkLedger.Balanced (gatewayStarted .boot ⟨1,2,3⟩ false) []
        [.line .timerExpired,.segment .plain (downlinkFrame 1 [5,6]),.modbusSenttset 10] ↔
      gateway.Each MailboxClear (gatewayStarted .boot ⟨1,2,3⟩ false)
        [.line .timerExpired,.segment .plain (downlinkFrame 1 [5,6]),.modbusSenttset 10] :=
  downlink_delivery_iff .boot ⟨1,2,3⟩ false _ (by decide)
/-- Two frames arrive before the next call of `ModbusSenttset`: the first is lost. -/
theorem downlink_delivery_fails :
    gateway.Each (fun g i => gateway.enabled g i ∧ DownlinkTraffic i) (gatewayStarted .boot ⟨1,2,3⟩ false)
        [.line .timerExpired,.segment .plain (downlinkFrame 1 [5,6]),.segment .plain (downlinkFrame 1 [7])] ∧
      ¬ gateway.Throughout downlinkLedger.Balanced (gatewayStarted .boot ⟨1,2,3⟩ false) []
        [.line .timerExpired,.segment .plain (downlinkFrame 1 [5,6]),.segment .plain (downlinkFrame 1 [7])] := by
  decide

end Net2Modbus
