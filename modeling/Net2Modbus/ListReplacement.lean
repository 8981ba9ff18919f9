import Net2Modbus.Schedule

/-!
# A poll list after another

What a poll list leaves of the one before it. The callback clears 1024 of the 1400
bytes of the table, and the walker looks as far as the entries lead it, so that the
end of a longer list can come back behind a shorter one.
-/
namespace Net2Modbus

/-- Where the next poll looks: the number of the entry and its offset. -/
def Poller.place (q : Poller) : UInt32 × Nat := (q.devIndex,q.cursor)

/-- One poll of a table: the next place, and the command of the entry if there is one. -/
def turn (list : Block UInt8 1400) (place : UInt32 × Nat) : (UInt32 × Nat) × List (List UInt8) :=
  if list.peek 0 = 0 then (place,[])
  else if IsEntry list place.2 place.1.toNat then
    (if place.1 + 1 = 255 then (0,0)
      else (place.1 + 1,if place.1 + 1 = 0 then 0 else place.2 + 3 + entryLength list place.2),
      [entryCommand list place.2])
  else ((0,0),[])
/-- The commands of n polls from a place on. -/
def turns (list : Block UInt8 1400) : Nat → UInt32 × Nat → List (List (List UInt8))
  | 0,_ => []
  | n + 1,place => (turn list place).2 :: turns list n (turn list place).1

/-- A poll does what the turn of its place does, whatever the time is. -/
theorem walk_turn (time : UInt32) (g : Gateway) :
    (handedFrom .pollList (walk time g).2 = (turn g.poller.tcp2Rs485CmdList g.poller.place).2 ∧
      (walk time g).1.poller.place = (turn g.poller.tcp2Rs485CmdList g.poller.place).1) ∧
        (walk time g).1.poller.tcp2Rs485CmdList = g.poller.tcp2Rs485CmdList := by
  refine ⟨?_,(walk_frame time g).list⟩
  unfold turn
  obtain ⟨unlisted,same⟩ | ⟨listed,found,poller,events⟩ | ⟨listed,missing,poller,events⟩ := walk_cases time g
  · rw [if_pos unlisted,same]
    exact ⟨rfl,rfl⟩
  · have entry : IsEntry g.poller.tcp2Rs485CmdList g.poller.place.2 g.poller.place.1.toNat := (Poller.found_iff _).mp found
    rw [if_neg listed,if_pos entry,events,poller,handedFrom_append,looks_hands,sendEntry_command]
    refine ⟨rfl,?_⟩
    by_cases last : g.poller.devIndex + 1 = 255
    · have wrapped : (g.polledAt time).poller.next.wrapIndex = { (g.polledAt time).poller.next with devIndex := 0 } :=
        if_pos last
      rw [wrapped]
      simp only [Poller.place,last,if_true]
      rfl
    · have kept : (g.polledAt time).poller.next.wrapIndex = (g.polledAt time).poller.next := if_neg last
      rw [kept]
      simp only [Poller.place,last,if_false]
      rfl
  · have other : ¬ IsEntry g.poller.tcp2Rs485CmdList g.poller.place.2 g.poller.place.1.toNat :=
      fun entry => missing ((Poller.found_iff _).mpr entry)
    rw [if_neg listed,if_neg other,events,poller,looks_hands]
    exact ⟨rfl,rfl⟩

/-- Between two lists the polls of a run take the turns of the table. -/
theorem pollTicks_turns {g : Gateway} {inputs : List GatewayInput}
    (unlisted : gateway.Each (fun g i => ¬ LoadsList g i) g inputs) : (pollTicks g inputs).map Prod.snd =
      turns g.poller.tcp2Rs485CmdList (pollTicks g inputs).length g.poller.place := by
  induction inputs generalizing g with
  | nil => rfl
  | cons i rest ih =>
    have later := ih (g := (gatewayStep g i).1) unlisted.2
    cases tick : dueTick g i with
    | none =>
      have poller := quiet_poller tick unlisted.1
      simpa [pollTicks,tick,poller] using later
    | some time =>
      obtain ⟨-,same⟩ := dueTick_walk tick
      obtain ⟨⟨handed,place⟩,list⟩ := walk_turn time g
      rw [← same] at handed place list
      rw [list,place] at later
      simp only [pollTicks,tick,Option.map_some,Option.toList_some,List.singleton_append,List.map_cons,List.length_cons,
        turns,handed,later]

/-- The list in a segment, behind the command word and before the trailer. -/
def listPayload (bytes : List UInt8) : List UInt8 := (bytes.drop 2).take (bytes.length - 7)
/-- A table that holds a list and nothing else. -/
def listTable (payload : List UInt8) : Block UInt8 1400 := (Block.fill 0).copy payload

/-- The segment replaces the table: its list is followed by zeros only, the walker starts again, and
    until the next list the polls are those of this list alone. -/
structure Replaced (env : Surroundings) (bytes : List UInt8) (g : Gateway) : Prop where
  table : (tcpClientReciver env bytes g).1.poller.tcp2Rs485CmdList.cells =
    listPayload bytes ++ List.replicate (1400 - (listPayload bytes).length) 0
  restarts : (tcpClientReciver env bytes g).1.poller.place = (0,0)
  commands : ∀ inputs, gateway.Each (fun g i => ¬ LoadsList g i) (tcpClientReciver env bytes g).1 inputs →
    (pollTicks (tcpClientReciver env bytes g).1 inputs).map Prod.snd =
      turns (listTable (listPayload bytes)) (pollTicks (tcpClientReciver env bytes g).1 inputs).length (0,0)

/-- What is neither cleared nor covered by the list is zero already. -/
def TailClear (bytes : List UInt8) (g : Gateway) : Prop :=
  ∀ c ∈ g.poller.tcp2Rs485CmdList.cells.drop (max 1024 (listPayload bytes).length), c = 0

instance (bytes : List UInt8) (g : Gateway) : Decidable (TailClear bytes g) :=
  inferInstanceAs (Decidable (∀ _ ∈ _, _))

theorem listTable_cells {payload : List UInt8} (fits : payload.length ≤ 1400) :
    (listTable payload).cells = payload ++ List.replicate (1400 - payload.length) 0 := by
  rw [listTable,Block.copy_cells _ fits,Block.fill_cells,List.drop_replicate]
/-- The table after the clearing and the copy. -/
theorem loaded_cells (table : Block UInt8 1400) {payload : List UInt8} (fits : payload.length ≤ 1400) :
    ((table.copy (List.replicate 1024 0)).copy payload).cells =
      payload ++ (List.replicate (1024 - payload.length) 0 ++ table.cells.drop (max 1024 payload.length)) := by
  have behind : 1024 + (payload.length - 1024) = max 1024 payload.length := by omega
  rw [Block.copy_cells _ fits,Block.copy_cells _ (by rw [List.length_replicate]; omega),List.length_replicate,
    List.drop_append,List.drop_replicate,List.length_replicate,List.drop_drop,behind]
theorem loaded_clean_iff (table : Block UInt8 1400) {payload : List UInt8} (fits : payload.length ≤ 1400) :
    ((table.copy (List.replicate 1024 0)).copy payload).cells = payload ++ List.replicate (1400 - payload.length) 0 ↔
      ∀ c ∈ table.cells.drop (max 1024 payload.length), c = 0 := by
  have length : (List.replicate (1024 - payload.length) (0 : UInt8) ++
      table.cells.drop (max 1024 payload.length)).length = 1400 - payload.length := by
    simp
    omega
  rw [loaded_cells table fits,List.append_cancel_left_eq,List.eq_replicate_iff,List.forall_mem_append]
  constructor
  · exact fun clean => clean.2.2
  · exact fun clear => ⟨length,fun c among => List.eq_of_mem_replicate among,clear⟩

section
variable {env : Surroundings} {bytes : List UInt8} {g : Gateway}

theorem listPayload_length (fits : bytes.length ≤ 1407) : (listPayload bytes).length ≤ 1400 := by
  simp [listPayload]
  omega
theorem loaded_list (list : Command.fits (g.copyIn bytes) .pollList = true) (enough : 7 ≤ bytes.length)
    (fits : bytes.length ≤ 1407) : (tcpClientReciver env bytes g).1.poller.tcp2Rs485CmdList =
      (g.poller.tcp2Rs485CmdList.copy (List.replicate 1024 0)).copy (listPayload bytes) := by
  rw [segment_pollList env bytes g list]
  exact segment_loads enough fits
theorem Replaced.tailClear (replaced : Replaced env bytes g) (list : Command.fits (g.copyIn bytes) .pollList = true)
    (enough : 7 ≤ bytes.length) (fits : bytes.length ≤ 1407) : TailClear bytes g := by
  have table := replaced.table
  rw [loaded_list list enough fits] at table
  exact (loaded_clean_iff g.poller.tcp2Rs485CmdList (listPayload_length fits)).mp table
end

/-- A list that fits into the table replaces what is there exactly when the table is zero behind what the
    callback clears and what the list covers. -/
theorem list_replaced_iff (env : Surroundings) {bytes : List UInt8} {g : Gateway}
    (list : Command.fits (g.copyIn bytes) .pollList = true) (enough : 7 ≤ bytes.length) (fits : bytes.length ≤ 1407) :
    Replaced env bytes g ↔ TailClear bytes g := by
  constructor
  · intro replaced
    exact replaced.tailClear list enough fits
  · intro clear
    have short := listPayload_length fits
    have start : (tcpClientReciver env bytes g).1.poller.place = (0,0) := by
      rw [segment_pollList env bytes g list]
      rfl
    have table := (loaded_clean_iff g.poller.tcp2Rs485CmdList short).mpr clear
    rw [← loaded_list list enough fits] at table
    refine ⟨table,start,?_⟩
    intro inputs unlisted
    have same : (tcpClientReciver env bytes g).1.poller.tcp2Rs485CmdList = listTable (listPayload bytes) :=
      Block.ext (table.trans (listTable_cells short).symm)
    rw [pollTicks_turns unlisted,same,start]
/-- A segment with a list of the given length that begins with one entry. -/
def oneEntryFrame (padding : Nat) (c : UInt8) : List UInt8 :=
  [0xFF,0xBB,0x41,0x23,5,1,0,0,0,9] ++ List.replicate padding c ++ [0xBB,0xFF,0x24,0x0D,0x0A]
theorem list_replaced_iff_started : Replaced .plain (oneEntryFrame 0 0) (gatewayStarted .boot ⟨1,2,3⟩ false) :=
  (list_replaced_iff .plain (by decide) (by decide) (by decide)).mpr
    fun _ among => List.eq_of_mem_replicate (List.mem_of_mem_drop among)
/-- Of a list of 1108 bytes the end is still there behind a list of eight. -/
theorem list_replaced_fails :
    let g := gateway.after (gatewayStarted .boot ⟨1,2,3⟩ false) [.segment .plain (oneEntryFrame 1100 1)]
    gateway.Admissible (gatewayStarted .boot ⟨1,2,3⟩ false)
        [.segment .plain (oneEntryFrame 1100 1),.segment .plain (oneEntryFrame 0 0)] ∧
      ¬ Replaced .plain (oneEntryFrame 0 0) g := by
  intro g
  refine ⟨by decide +kernel,?_⟩
  intro replaced
  have cell : g.poller.tcp2Rs485CmdList.peek 1100 = 1 := by decide +kernel
  have clear := replaced.tailClear (by decide) (by decide) (by decide)
  have zero := clear _ (g.poller.tcp2Rs485CmdList.peek_mem_drop (by decide) (by decide : 1100 < 1400))
  rw [cell] at zero
  exact absurd zero (by decide)

end Net2Modbus
