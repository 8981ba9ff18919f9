import Net2Modbus.Traffic

/-!
# Walking the poll list

The poll list comes from the network as it is. Where the walker of
`ModbusSenttset` looks is fixed by the list and the number of entries that it
has taken, so the lists that it can walk without leaving the arrays are known
before the first poll.
-/
namespace Net2Modbus

/-- The tag of an entry, counted from zero. -/
def entryTag (i : Nat) : UInt8 := UInt8.ofNat (0x41 + i)
/-- The tag of an entry and the `#` behind it stand at an offset. -/
def IsEntry (list : Block UInt8 1400) (offset i : Nat) : Prop :=
  list.peek offset = entryTag i ∧ list.peek (offset + 1) = 0x23
/-- The length byte of the entry at an offset. -/
def entryLength (list : Block UInt8 1400) (offset : Nat) : Nat := (list.peek (offset + 2)).toNat

instance (list : Block UInt8 1400) (offset i : Nat) : Decidable (IsEntry list offset i) :=
  inferInstanceAs (Decidable (_ ∧ _))

/-- Where the walker looks for an entry, when it has found all entries before it. -/
def entryOffset (list : Block UInt8 1400) : Nat → Option Nat
  | 0 => some 0
  | i + 1 =>
    match entryOffset list i with
    | some offset => if IsEntry list offset i then some (offset + 3 + entryLength list offset) else none
    | none => none

/-- An entry is looked for inside the list; when it is there, its command is not
    longer than `MasterA` and ends inside the list. -/
def PlaceSafe (list : Block UInt8 1400) (offset i : Nat) : Prop :=
  offset < 1400 ∧ (list.peek offset = entryTag i → offset + 1 < 1400) ∧
    (IsEntry list offset i → offset + 2 < 1400 ∧ 4 ≤ entryLength list offset ∧ entryLength list offset ≤ 28 ∧
      offset + entryLength list offset ≤ 1401)
/-- The list is not looked at, or each place where the walker looks is safe. -/
def Walkable (list : Block UInt8 1400) : Prop :=
  list.peek 0 = 0 ∨ ∀ i < 255, ∀ offset ∈ entryOffset list i, PlaceSafe list offset i

instance (list : Block UInt8 1400) (offset i : Nat) : Decidable (PlaceSafe list offset i) :=
  inferInstanceAs (Decidable (_ ∧ _ ∧ _))
instance (list : Block UInt8 1400) : Decidable (Walkable list) := inferInstanceAs (Decidable (_ ∨ _))

/-- The table after a list has been loaded over an earlier one. -/
def loadList (table : Block UInt8 1400) (bytes : List UInt8) : Block UInt8 1400 :=
  (table.copy (List.replicate 1024 0)).copy ((bytes.drop 2).take (bytes.length - 7))

/-- A segment taken as a poll list is long enough for prefix and trailer, its list
    fits into the table, and the list can be walked. -/
def ListClear (g : Gateway) : GatewayInput → Prop
  | .segment _ bytes => Command.fits (g.copyIn bytes) .pollList = true →
      7 ≤ bytes.length ∧ bytes.length ≤ 1407 ∧ Walkable (loadList g.poller.tcp2Rs485CmdList bytes)
  | _ => True

instance (g : Gateway) (i : GatewayInput) : Decidable (ListClear g i) :=
  match i with
  | .segment _ _ => inferInstanceAs (Decidable (_ → _))
  | .modbusSenttset _ | .line _ => isTrue trivial

theorem Poller.tag_eq (q : Poller) : q.tag = entryTag q.devIndex.toNat := by
  apply UInt8.toNat_inj.mp
  simp [Poller.tag,entryTag]
theorem Poller.found_iff (q : Poller) : q.found ↔ IsEntry q.tcp2Rs485CmdList q.cursor q.devIndex.toNat := by
  rw [Poller.found,IsEntry,Poller.tag_eq]

/-- The walker with the time of the last poll. -/
def Gateway.polledAt (time : UInt32) (g : Gateway) : Gateway :=
  { g with poller := { g.poller with masterCallTrm := time } }
/-- The walker behind the entry that it has taken. -/
def Poller.next (q : Poller) : Poller :=
  { q with
    msaterTime := if q.devIndex = 0 then
      entryTime q.tcp2Rs485CmdList (q.cursor + entryLength q.tcp2Rs485CmdList q.cursor - 1) else q.msaterTime
    sptr := q.cursor + 3 + entryLength q.tcp2Rs485CmdList q.cursor
    devIndex := q.devIndex + 1 }

@[simp] theorem polledAt_cursor (time : UInt32) (g : Gateway) : (g.polledAt time).poller.cursor = g.poller.cursor := rfl
@[simp] theorem polledAt_devIndex (time : UInt32) (g : Gateway) :
    (g.polledAt time).poller.devIndex = g.poller.devIndex := rfl
@[simp] theorem polledAt_list (time : UInt32) (g : Gateway) :
    (g.polledAt time).poller.tcp2Rs485CmdList = g.poller.tcp2Rs485CmdList := rfl
@[simp] theorem polledAt_looks (time : UInt32) (g : Gateway) : (g.polledAt time).poller.looks = g.poller.looks := rfl

/-- A poll: no list, the entry, or the end of the list. -/
theorem walk_cases (time : UInt32) (g : Gateway) :
    (g.poller.tcp2Rs485CmdList.peek 0 = 0 ∧
      walk time g = (g.polledAt time,[.due time,.access ⟨.tcp2Rs485CmdList,0,1⟩])) ∨
    (g.poller.tcp2Rs485CmdList.peek 0 ≠ 0 ∧ g.poller.found ∧
      (walk time g).1.poller = (g.polledAt time).poller.next.wrapIndex ∧
      (walk time g).2 = .due time :: g.poller.looks ++ (sendEntry (g.polledAt time)).2) ∨
    (g.poller.tcp2Rs485CmdList.peek 0 ≠ 0 ∧ ¬ g.poller.found ∧
      (walk time g).1.poller = { (g.polledAt time).poller with devIndex := 0 } ∧
      (walk time g).2 = .due time :: g.poller.looks) := by
  have same : walk time g =
      if g.poller.tcp2Rs485CmdList.peek 0 = 0 then (g.polledAt time,[.due time,.access ⟨.tcp2Rs485CmdList,0,1⟩])
      else if g.poller.found then
        ({ (sendEntry (g.polledAt time)).1 with poller := (sendEntry (g.polledAt time)).1.poller.wrapIndex },
          .due time :: g.poller.looks ++ (sendEntry (g.polledAt time)).2)
      else ({ g.polledAt time with poller := { (g.polledAt time).poller with devIndex := 0 } },
        .due time :: g.poller.looks) := rfl
  by_cases unlisted : g.poller.tcp2Rs485CmdList.peek 0 = 0
  · exact .inl ⟨unlisted,by rw [same,if_pos unlisted]⟩
  · by_cases found : g.poller.found
    · refine .inr (.inl ⟨unlisted,found,?_,?_⟩) <;> rw [same,if_neg unlisted,if_pos found]
      rfl
    · refine .inr (.inr ⟨unlisted,found,?_,?_⟩) <;> rw [same,if_neg unlisted,if_neg found]

/-- The walker has taken as many entries as its index says, and looks behind them. -/
def Poller.OnPath (q : Poller) : Prop :=
  q.devIndex.toNat < 255 ∧ entryOffset q.tcp2Rs485CmdList q.devIndex.toNat = some q.cursor

theorem onPath_first {q : Poller} (first : q.devIndex = 0) : q.OnPath := by
  simp [Poller.OnPath,Poller.cursor,first,entryOffset]
/-- The index after an entry, and where the next one is looked for. -/
theorem next_index {q : Poller} (bound : q.devIndex.toNat < 255) : q.next.devIndex.toNat = q.devIndex.toNat + 1 := by
  show (q.devIndex + 1).toNat = _
  rw [UInt32.toNat_add]
  exact Nat.mod_eq_of_lt (by simp; omega)
theorem next_cursor {q : Poller} (bound : q.devIndex.toNat < 255) :
    q.next.cursor = q.cursor + 3 + entryLength q.tcp2Rs485CmdList q.cursor := by
  have size := next_index bound
  have positive : q.next.devIndex ≠ 0 := fun same => by simp [same] at size
  exact if_neg positive
theorem next_inner {q : Poller} (inner : q.devIndex.toNat + 1 < 255) : q.next.wrapIndex = q.next := by
  have size := next_index (q := q) (by omega)
  have other : q.next.devIndex ≠ 255 := fun same => by
    rw [same] at size
    exact absurd size (by simp; omega)
  exact if_neg other
theorem next_onPath {q : Poller} (path : q.OnPath) (found : q.found) : q.next.wrapIndex.OnPath := by
  obtain ⟨bound,offset⟩ := path
  by_cases inner : q.devIndex.toNat + 1 < 255
  · rw [next_inner inner,Poller.OnPath,next_index bound,next_cursor bound]
    refine ⟨inner,?_⟩
    show entryOffset q.tcp2Rs485CmdList (q.devIndex.toNat + 1) = _
    simp only [entryOffset,offset,(Poller.found_iff q).mp found,if_true]
  · have last : q.next.devIndex = 255 := by
      apply UInt32.toNat_inj.mp
      rw [next_index bound]
      simp
      omega
    exact onPath_first (by simp [Poller.wrapIndex,last])

/-- Uses of the poll list and of `MasterA` stay inside them. -/
def Event.ListInside (e : Event) : Prop := e.Inside [.tcp2Rs485CmdList,.masterA]

instance (e : Event) : Decidable e.ListInside := inferInstanceAs (Decidable (e.Inside _))

theorem onLine_listInside (e : Event) (line : e.onLine = true) : e.ListInside := by
  cases e <;> simp_all [Event.onLine,Event.ListInside,Event.Inside]
theorem ofCommand_listInside (e : Event) (command : e.ofCommand = true) : e.ListInside := by
  cases e with
  | access use =>
    simp only [Event.ofCommand,Bool.or_eq_true,Bool.and_eq_true,beq_iff_eq] at command
    rcases command with uid | ⟨tdata,-⟩
    · simp [Event.ListInside,Event.Inside,uid]
    · simp [Event.ListInside,Event.Inside,tdata]
  | _ => trivial
theorem copyEvents_listInside (p : List UInt8) : ∀ e ∈ Event.segment p :: copyEvents p, e.ListInside := by
  unfold copyEvents
  split <;> simp [Event.ListInside,Event.Inside]
theorem sendDownlink_listInside (g : Gateway) : ∀ e ∈ (sendDownlink g).2, e.ListInside := by
  obtain ⟨front,line,events,ofFront,ofLine⟩ := send_events .downlink g.tcpRecvBuf g.tcpRecvLenth.toInt32.toInt g
  have send (e : Event) (known : e.ofSend .downlink = true) : e.ListInside := by
    cases e with
    | access use =>
      simp only [Event.ofSend,Source.array,Bool.and_eq_true,beq_iff_eq] at known
      simp [Event.ListInside,Event.Inside,known.1]
    | _ => trivial
  simp only [sendDownlink,events]
  exact List.forall_mem_append.mpr ⟨fun e member => send e (ofFront e member),
    List.forall_mem_cons.mpr ⟨trivial,fun e member => onLine_listInside e (ofLine e member)⟩⟩

/-- The cells that a place lets the walker read. -/
theorem looks_listInside {q : Poller} (place : PlaceSafe q.tcp2Rs485CmdList q.cursor q.devIndex.toNat) :
    ∀ e ∈ q.looks, e.ListInside := by
  obtain ⟨here,next,-⟩ := place
  rw [← Poller.tag_eq] at next
  unfold Poller.looks
  split
  · rename_i tagged
    have inside := next tagged
    simp [Event.ListInside,Event.Inside,Access.Inside,Arr.size]
    omega
  · simp [Event.ListInside,Event.Inside,Access.Inside,Arr.size]
    omega
/-- `Master_Send` and the radio read no more of `MasterA` than its size. -/
theorem send_listInside (masterA : Block UInt8 24) {len : Int} (g : Gateway) (bound : len ≤ 24) :
    ∀ e ∈ (g.send .pollList masterA len).2, e.ListInside := by
  have line := masterSend_onLine 6 masterA.cells len g.serial
  simp only [Gateway.send]
  refine List.forall_mem_append.mpr ⟨List.forall_mem_append.mpr ⟨?_,?_⟩,
    List.forall_mem_cons.mpr ⟨trivial,fun e member => onLine_listInside e (line e member)⟩⟩
  · split <;> simp [Event.ListInside,Event.Inside]
  · have read : (if len ≤ mbPduSizeMax then len.toNat else 0) ≤ 24 := by split <;> omega
    simp [Event.ListInside,Event.Inside,Access.Inside,Arr.size,Source.array]
    omega
/-- An entry whose length byte is right is copied and sent inside the arrays. -/
theorem sendEntry_listInside {g : Gateway} (enough : 4 ≤ entryLength g.poller.tcp2Rs485CmdList g.poller.cursor)
    (bound : entryLength g.poller.tcp2Rs485CmdList g.poller.cursor ≤ 28) (here : g.poller.cursor + 2 < 1400)
    (inside : g.poller.cursor + entryLength g.poller.tcp2Rs485CmdList g.poller.cursor ≤ 1401)
    (first : g.poller.devIndex = 0 → g.poller.cursor = 0) : ∀ e ∈ (sendEntry g).2, e.ListInside := by
  unfold entryLength at enough bound inside
  have size : ((((g.poller.tcp2Rs485CmdList.peek (g.poller.cursor + 2)).toNat : Int) - 4) % 4294967296).toNat =
      (g.poller.tcp2Rs485CmdList.peek (g.poller.cursor + 2)).toNat - 4 := by omega
  simp only [sendEntry,size]
  refine List.forall_mem_append.mpr ⟨List.forall_mem_append.mpr ⟨?_,?_⟩,?_⟩
  · simp [Event.ListInside,Event.Inside,Access.Inside,Arr.size]
    omega
  · exact send_listInside _ _ (by omega)
  · split
    · rename_i zero
      simp [Event.ListInside,Event.Inside,Access.Inside,Arr.size,first zero] at *
      omega
    · exact List.forall_mem_nil _

/-- The walker is on its way through a list that can be walked. -/
def ListSafe (g : Gateway) : Prop := g.poller.OnPath ∧ Walkable g.poller.tcp2Rs485CmdList

/-- A poll stays inside the arrays. -/
theorem walk_listInside (time : UInt32) {g : Gateway} (safe : ListSafe g) : ∀ e ∈ (walk time g).2, e.ListInside := by
  obtain ⟨path,walkable⟩ := safe
  have place (listed : g.poller.tcp2Rs485CmdList.peek 0 ≠ 0) :
      PlaceSafe g.poller.tcp2Rs485CmdList g.poller.cursor g.poller.devIndex.toNat :=
    walkable.resolve_left listed _ path.1 _ path.2
  obtain ⟨-,same⟩ | ⟨listed,found,-,same⟩ | ⟨listed,-,-,same⟩ := walk_cases time g
  · simp [same,Event.ListInside,Event.Inside,Access.Inside,Arr.size]
  · obtain ⟨here,enough,bound,inside⟩ := (place listed).2.2 ((Poller.found_iff _).mp found)
    rw [same]
    refine List.forall_mem_append.mpr ⟨List.forall_mem_cons.mpr ⟨trivial,looks_listInside (place listed)⟩,?_⟩
    exact sendEntry_listInside (g := g.polledAt time) enough bound here inside fun first => if_pos first
  · rw [same]
    exact List.forall_mem_cons.mpr ⟨trivial,looks_listInside (place listed)⟩
theorem walk_listSafe (time : UInt32) {g : Gateway} (safe : ListSafe g) : ListSafe (walk time g).1 := by
  have list := (walk_frame time g).list
  refine ⟨?_,list ▸ safe.2⟩
  obtain ⟨-,same⟩ | ⟨-,found,same,-⟩ | ⟨-,-,same,-⟩ := walk_cases time g
  · rw [same]
    exact safe.1
  · rw [same]
    exact next_onPath (q := (g.polledAt time).poller) safe.1 found
  · rw [same]
    exact onPath_first rfl

/-- The table after a list that fits, as the dispatcher takes it from `Tdata`. -/
theorem segment_loads {g : Gateway} {bytes : List UInt8} (enough : 7 ≤ bytes.length) (fits : bytes.length ≤ 1407) :
    (g.poller.tcp2Rs485CmdList.copy (List.replicate 1024 0)).copy
        ((g.copyIn bytes).slice 2 (UInt32.ofNat bytes.length - 5 - 2).toNat) =
      loadList g.poller.tcp2Rs485CmdList bytes := by
  have count := pollList_lenth enough (by omega)
  rw [count,Gateway.copyIn,if_pos (by omega),Block.slice_copy_part _ _ _ _ (by omega) (by omega),loadList]

/-- A list that is clear leaves the walker at its start. -/
theorem load_listSafe (env : Surroundings) {g : Gateway} {bytes : List UInt8}
    (list : Command.fits (g.copyIn bytes) .pollList = true) (clear : ListClear g (.segment env bytes)) :
    ListSafe (tcpClientReciver env bytes g).1 ∧ ∀ e ∈ (tcpClientReciver env bytes g).2, e.ListInside := by
  obtain ⟨enough,fits,walkable⟩ := clear list
  rw [segment_pollList env bytes g list]
  refine ⟨⟨onPath_first rfl,?_⟩,List.forall_mem_append.mpr ⟨copyEvents_listInside bytes,?_⟩⟩
  · rw [← segment_loads enough fits] at walkable
    exact walkable
  · rw [pollList_lenth enough (by omega)]
    simp [Event.ListInside,Event.Inside,Access.Inside,Arr.size]
    omega
theorem segment_listSafe (env : Surroundings) {g : Gateway} {bytes : List UInt8} (safe : ListSafe g)
    (clear : ListClear g (.segment env bytes)) :
    ListSafe (tcpClientReciver env bytes g).1 ∧ ∀ e ∈ (tcpClientReciver env bytes g).2, e.ListInside := by
  have copied := copyEvents_listInside bytes
  cases down : Command.fits (g.copyIn bytes) .downlink with
  | true =>
    rw [segment_downlink env bytes g down]
    refine ⟨safe,List.forall_mem_append.mpr ⟨copied,?_⟩⟩
    simp [Event.ListInside,Event.Inside]
  | false =>
    cases list : Command.fits (g.copyIn bytes) .pollList with
    | true => exact load_listSafe env list clear
    | false =>
      obtain ⟨g',events,same,frame,all⟩ := segment_other env bytes g down list
      rw [same]
      refine ⟨?_,List.forall_mem_append.mpr ⟨copied,fun e member => ofCommand_listInside e (all e member)⟩⟩
      rw [ListSafe,frame.poller]
      exact safe

/-- Every step keeps the walker on a list that can be walked, and stays inside the
    arrays, when the lists that are loaded can be walked. -/
theorem listSafe_step {g : Gateway} {i : GatewayInput} (safe : ListSafe g) (clear : ListClear g i) :
    ListSafe (gatewayStep g i).1 ∧ ∀ e ∈ (gatewayStep g i).2, e.ListInside := by
  cases i with
  | segment env bytes => exact segment_listSafe env safe clear
  | modbusSenttset time =>
    show ListSafe (modbusSenttset time g).1 ∧ _
    obtain ⟨-,same⟩ | ⟨-,-,same⟩ | ⟨-,-,same⟩ := senttset_cases time g
    · simp only [gatewayStep,same]
      exact ⟨safe,sendDownlink_listInside g⟩
    · simp only [gatewayStep,same]
      exact ⟨walk_listSafe time safe,walk_listInside time safe⟩
    · simp only [gatewayStep,same]
      exact ⟨safe,List.forall_mem_nil _⟩
  | line i => exact ⟨safe,fun e member => onLine_listInside e (line_onLine g.serial i e member)⟩

theorem listSafe_run {g : Gateway} {inputs : List GatewayInput} (safe : ListSafe g)
    (clear : gateway.Each ListClear g inputs) :
    ListSafe (gateway.after g inputs) ∧ ∀ e ∈ gateway.trace g inputs, e.ListInside := by
  have kept := Machine.events_run
    (R := fun (g : Gateway) (past : List Event) => ListSafe g ∧ ∀ e ∈ past, e.ListInside)
    (fun g past i held now => by
      obtain ⟨kept,inside⟩ := listSafe_step held.1 now
      exact ⟨kept,List.forall_mem_append.mpr ⟨held.2,inside⟩⟩)
    [] ⟨safe,fun e member => absurd member List.not_mem_nil⟩ clear
  simpa using kept

/-- A call of `ModbusSenttset` at the moment when the period ends. -/
def Poller.dueTime (q : Poller) : UInt32 := q.masterCallTrm + q.msaterTime.toUInt32

theorem senttset_due {g : Gateway} (empty : g.tcpRecvLenth = 0) :
    modbusSenttset g.poller.dueTime g = walk g.poller.dueTime g := by
  have due : g.poller.isDue g.poller.dueTime := by
    rw [Poller.isDue,Poller.dueTime,UInt32.add_comm,UInt32.add_sub_cancel]
    exact UInt32.le_refl _
  simp [modbusSenttset,empty,due]
/-- The entry that stands before a place. -/
theorem entryOffset_succ {list : Block UInt8 1400} {i offset : Nat} (reached : entryOffset list (i + 1) = some offset) :
    ∃ before, entryOffset list i = some before ∧ IsEntry list before i ∧
      offset = before + 3 + entryLength list before := by
  cases found : entryOffset list i with
  | none => simp [entryOffset,found] at reached
  | some before =>
    simp only [entryOffset,found] at reached
    split at reached
    · exact ⟨before,rfl,‹_›,by simpa using reached.symm⟩
    · simp at reached
/-- A poll of an entry brings the walker to the next place. -/
theorem walk_found (time : UInt32) {g : Gateway} (listed : g.poller.tcp2Rs485CmdList.peek 0 ≠ 0)
    (found : g.poller.found) (inner : g.poller.devIndex.toNat + 1 < 255) :
    (walk time g).1.poller = (g.polledAt time).poller.next := by
  obtain ⟨unlisted,-⟩ | ⟨-,-,same,-⟩ | ⟨-,missing,-⟩ := walk_cases time g
  · exact absurd unlisted listed
  · rw [same,next_inner (q := (g.polledAt time).poller) inner]
  · exact absurd found missing
/-- Polls bring the walker to each place of its list. -/
theorem polls_reach {g : Gateway} (empty : g.tcpRecvLenth = 0) (first : g.poller.devIndex = 0)
    (listed : g.poller.tcp2Rs485CmdList.peek 0 ≠ 0) {i offset : Nat} (bound : i < 255)
    (reached : entryOffset g.poller.tcp2Rs485CmdList i = some offset) :
    ∃ (times : List UInt32) (g' : Gateway), gateway.after g (times.map .modbusSenttset) = g' ∧
      g'.tcpRecvLenth = 0 ∧ g'.poller.tcp2Rs485CmdList = g.poller.tcp2Rs485CmdList ∧
        g'.poller.devIndex.toNat = i ∧ g'.poller.cursor = offset := by
  induction i generalizing offset with
  | zero =>
    refine ⟨[],g,rfl,empty,rfl,by simp [first],?_⟩
    simpa [Poller.cursor,first,entryOffset] using reached
  | succ i ih =>
    obtain ⟨before,earlier,entry,rfl⟩ := entryOffset_succ reached
    obtain ⟨times,g',run,none,list,index,cursor⟩ := ih (by omega) earlier
    have found : g'.poller.found := by
      rw [Poller.found_iff,list,index,cursor]
      exact entry
    have poller := walk_found g'.poller.dueTime (list ▸ listed) found (by omega)
    have frame := walk_frame g'.poller.dueTime g'
    refine ⟨times ++ [g'.poller.dueTime],(walk g'.poller.dueTime g').1,?_,?_,?_,?_,?_⟩
    · rw [List.map_append,Machine.after_append,run]
      exact congrArg Prod.fst (senttset_due none)
    · rw [frame.lenth,none]
    · rw [frame.list,list]
    · rw [poller,next_index (by simp; omega)]
      simp [index]
    · rw [poller,next_cursor (by simp; omega)]
      simp [list,cursor]
/-- The place that a poll looks at is safe when the poll stays inside the arrays. -/
theorem placeSafe_of_walk (time : UInt32) {g : Gateway} (listed : g.poller.tcp2Rs485CmdList.peek 0 ≠ 0)
    (inside : ∀ e ∈ (walk time g).2, e.ListInside) :
    PlaceSafe g.poller.tcp2Rs485CmdList g.poller.cursor g.poller.devIndex.toNat := by
  have looked : ∀ e ∈ g.poller.looks, e.ListInside := by
    obtain ⟨unlisted,-⟩ | ⟨-,-,-,same⟩ | ⟨-,-,-,same⟩ := walk_cases time g
    · exact absurd unlisted listed
    · rw [same] at inside
      exact fun e member => inside e (List.mem_append_left _ (List.mem_cons_of_mem _ member))
    · rw [same] at inside
      exact fun e member => inside e (List.mem_cons_of_mem _ member)
  unfold Poller.looks at looked
  refine ⟨?_,?_,?_⟩
  · have here := looked (.access ⟨.tcp2Rs485CmdList,g.poller.cursor,1⟩) (by simp)
    simp [Event.ListInside,Event.Inside,Access.Inside,Arr.size] at here
    omega
  · intro tagged
    rw [← Poller.tag_eq] at tagged
    have next := looked (.access ⟨.tcp2Rs485CmdList,g.poller.cursor + 1,1⟩) (by simp [tagged])
    simp [Event.ListInside,Event.Inside,Access.Inside,Arr.size] at next
    omega
  · intro entry
    obtain ⟨unlisted,-⟩ | ⟨-,-,-,same⟩ | ⟨-,missing,-⟩ := walk_cases time g
    · exact absurd unlisted listed
    · have sent (e : Event) (member : e ∈ (sendEntry (g.polledAt time)).2) : e.ListInside :=
        inside e (by rw [same]; exact List.mem_append_right _ member)
      have byte := sent (.access ⟨.tcp2Rs485CmdList,g.poller.cursor + 2,1⟩) (by simp [sendEntry])
      have command := sent (.access ⟨.tcp2Rs485CmdList,g.poller.cursor + 3,
        (((g.poller.tcp2Rs485CmdList.peek (g.poller.cursor + 2)).toNat - 4 : Int) % 4294967296).toNat⟩) (by simp [sendEntry])
      have copied := sent (.access ⟨.masterA,0,
        (((g.poller.tcp2Rs485CmdList.peek (g.poller.cursor + 2)).toNat - 4 : Int) % 4294967296).toNat⟩) (by simp [sendEntry])
      simp [Event.ListInside,Event.Inside,Access.Inside,Arr.size] at byte command copied
      have known := (g.poller.tcp2Rs485CmdList.peek (g.poller.cursor + 2)).toNat_lt
      unfold entryLength
      omega
    · exact absurd ((Poller.found_iff _).mpr entry) missing

/-- A loaded list can be walked exactly when no calls of `ModbusSenttset` after it
    leave the arrays. -/
theorem list_clear_iff (env : Surroundings) {g : Gateway} {bytes : List UInt8} (size : bytes.length < 65536)
    (list : Command.fits (g.copyIn bytes) .pollList = true) :
    ListClear g (.segment env bytes) ↔ ∀ times : List UInt32,
      ∀ e ∈ gateway.trace g (.segment env bytes :: times.map .modbusSenttset), e.ListInside := by
  have received := segment_pollList env bytes g list
  constructor
  · intro clear times
    obtain ⟨safe,inside⟩ := load_listSafe env list clear
    have each : gateway.Each ListClear (tcpClientReciver env bytes g).1 (times.map .modbusSenttset) := by
      generalize (tcpClientReciver env bytes g).1 = g'
      induction times generalizing g' with
      | nil => trivial
      | cons time rest ih => exact ⟨trivial,ih _⟩
    exact List.forall_mem_append.mpr ⟨inside,(listSafe_run safe each).2⟩
  · intro inside _
    have loaded : ∀ e ∈ (tcpClientReciver env bytes g).2, e.ListInside := fun e member =>
      inside [] e (List.mem_append_left _ member)
    have fits : 7 ≤ bytes.length ∧ bytes.length ≤ 1407 := by
      have copied := loaded (.access ⟨.tcp2Rs485CmdList,0,(UInt32.ofNat bytes.length - 5 - 2).toNat⟩)
        (by rw [received]; exact List.mem_append_right _ (by simp))
      simp [Event.ListInside,Event.Inside,Access.Inside,Arr.size] at copied
      by_cases enough : 7 ≤ bytes.length
      · rw [pollList_lenth enough size] at copied
        omega
      · have wraps := pollList_lenth_wraps (Nat.lt_of_not_le enough)
        omega
    refine ⟨fits.1,fits.2,?_⟩
    rw [← segment_loads fits.1 fits.2]
    by_cases listed : (tcpClientReciver env bytes g).1.poller.tcp2Rs485CmdList.peek 0 = 0
    · rw [received] at listed
      exact .inl listed
    · refine .inr ?_
      intro i bound offset reached
      obtain ⟨times,g',run,none,same,index,cursor⟩ := polls_reach (g := (tcpClientReciver env bytes g).1)
        (by rw [received]) (by rw [received]) listed bound (by rw [received]; exact reached)
      have later : ∀ e ∈ (walk g'.poller.dueTime g').2, e.ListInside := by
        intro e member
        refine inside (times ++ [g'.poller.dueTime]) e (List.mem_append_right _ ?_)
        rw [List.map_append,Machine.trace_append]
        refine List.mem_append_right _ ?_
        show e ∈ gateway.trace (gateway.after (tcpClientReciver env bytes g).1 _) _
        rw [run]
        show e ∈ (modbusSenttset g'.poller.dueTime g').2 ++ []
        rwa [List.append_nil,senttset_due none]
      have place := placeSafe_of_walk g'.poller.dueTime (by rw [same]; exact listed) later
      rw [same,index,cursor,received] at place
      exact place

/-- In a run in which every poll list fits into its table and can be walked, no use
    of the table or of `MasterA` leaves them. -/
theorem poll_list_safety (client : Client) (uid : Uid) (si4432 : Bool) (inputs : List GatewayInput)
    (clear : gateway.Each ListClear (gatewayStarted client uid si4432) inputs) :
    gateway.Throughout (fun _ past => ∀ e ∈ past, e.ListInside) (gatewayStarted client uid si4432) [] inputs := by
  have start : ListSafe (gatewayStarted client uid si4432) :=
    ⟨onPath_first rfl,.inl (Block.peek_fill 0 (by decide))⟩
  refine Machine.throughout_iff.mpr ?_
  intro front back split
  subst split
  exact (listSafe_run start (Machine.each_append.mp clear).1).2
theorem poll_list_safety_one_entry :
    gateway.Throughout (fun _ past => ∀ e ∈ past, e.ListInside) (gatewayStarted .boot ⟨1,2,3⟩ false) []
      [.segment .plain [0xFF,0xBB,0x41,0x23,6,1,3,0,0,0,100,0xBB,0xFF,0x24,0x0D,0x0A],.modbusSenttset 1000] :=
  poll_list_safety .boot ⟨1,2,3⟩ false _ (by decide +kernel)
/-- With a length byte of zero a negative length is copied, with one of 255 a
    command longer than `MasterA`. -/
theorem poll_list_safety_fails :
    ¬ gateway.Throughout (fun _ past => ∀ e ∈ past, e.ListInside) (gatewayStarted .boot ⟨1,2,3⟩ false) []
        [.segment .plain [0xFF,0xBB,0x41,0x23,0,0xBB,0xFF,0x24,0x0D,0x0A],.modbusSenttset 1000] ∧
      ¬ gateway.Throughout (fun _ past => ∀ e ∈ past, e.ListInside) (gatewayStarted .boot ⟨1,2,3⟩ false) []
        [.segment .plain [0xFF,0xBB,0x41,0x23,255,0xBB,0xFF,0x24,0x0D,0x0A],.modbusSenttset 1000] := by
  decide

end Net2Modbus
