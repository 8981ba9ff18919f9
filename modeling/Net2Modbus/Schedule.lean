import Net2Modbus.PollList
import Net2Modbus.Segments

/-!
# The schedule of polls

A poll list of well-formed entries is walked in rounds: each due call of
`ModbusSenttset` sends the command of the next entry, one call at the end of the
list sends nothing, and the time of the first entry is the period.
-/
namespace Net2Modbus

/-- A command and the time that goes with it. -/
structure PollEntry where
  cmd : List UInt8
  time : UInt32
  nonempty : cmd ≠ []
  short : cmd.length ≤ 24
  small : time.toNat < 2147483648

/-- The time between polls that an entry sets. -/
def PollEntry.period (e : PollEntry) : UInt32 := max 1 e.time

/-- An entry as it stands in the list: tag, `#`, length, command and time. -/
def encodeEntry (i : Nat) (e : PollEntry) : List UInt8 :=
  [entryTag i,0x23,UInt8.ofNat (e.cmd.length + 4)] ++ e.cmd ++ bigEndian e.time
/-- Entries with consecutive tags. -/
def encodeEntries : Nat → List PollEntry → List UInt8
  | _,[] => []
  | i,e :: rest => encodeEntry i e ++ encodeEntries (i + 1) rest

@[simp] theorem encodeEntry_length (i : Nat) (e : PollEntry) : (encodeEntry i e).length = e.cmd.length + 7 := by
  simp [encodeEntry,bigEndian]
theorem encodeEntries_append (i : Nat) (front back : List PollEntry) :
    encodeEntries i (front ++ back) = encodeEntries i front ++ encodeEntries (i + front.length) back := by
  induction front generalizing i with
  | nil => rfl
  | cons e rest ih =>
    simp only [List.cons_append,encodeEntries,ih,List.append_assoc,List.length_cons]
    rw [Nat.add_right_comm,Nat.add_assoc i]
/-- An entry takes at least eight bytes. -/
theorem encodeEntries_length (i : Nat) (entries : List PollEntry) :
    8 * entries.length ≤ (encodeEntries i entries).length := by
  induction entries generalizing i with
  | nil => simp
  | cons e rest ih =>
    have positive := List.length_pos_iff.mpr e.nonempty
    have later := ih (i + 1)
    simp only [encodeEntries,List.length_append,encodeEntry_length,List.length_cons]
    omega

section
variable {list : Block UInt8 1400} {front rest : List UInt8} {i : Nat} {e : PollEntry}

theorem isEntry_encoded (same : list.cells = front ++ (encodeEntry i e ++ rest)) : IsEntry list front.length i := by
  have tag := Block.peek_append same 0
  have mark := Block.peek_append same 1
  exact ⟨tag,mark⟩
theorem entryLength_encoded (same : list.cells = front ++ (encodeEntry i e ++ rest)) :
    entryLength list front.length = e.cmd.length + 4 := by
  have byte := Block.peek_append same 2
  have short := e.short
  rw [entryLength,byte]
  show (UInt8.ofNat (e.cmd.length + 4)).toNat = _
  simp
  omega
theorem slice_encoded (same : list.cells = front ++ (encodeEntry i e ++ rest)) :
    list.slice (front.length + 3) e.cmd.length = e.cmd := by
  have split : list.cells = (front ++ [entryTag i,0x23,UInt8.ofNat (e.cmd.length + 4)]) ++
      (e.cmd ++ (bigEndian e.time ++ rest)) := by
    rw [same,encodeEntry]
    simp
  simpa using Block.slice_append split
/-- A word from its four bytes. -/
theorem bigEndian_word (w : UInt32) :
    ((byteOf w 24).toUInt32 <<< 24) + ((byteOf w 16).toUInt32 <<< 16) + ((byteOf w 8).toUInt32 <<< 8) +
      (byteOf w 0).toUInt32 = w := by
  apply UInt32.toNat_inj.mp
  have bound := w.toNat_lt
  simp [byteOf,Nat.shiftLeft_eq,Nat.shiftRight_eq_div_pow]
  omega
theorem entryTime_encoded (same : list.cells = front ++ (encodeEntry i e ++ rest)) :
    (entryTime list (front.length + (e.cmd.length + 4) - 1)).toUInt32 = e.period := by
  have split : list.cells = (front ++ [entryTag i,0x23,UInt8.ofNat (e.cmd.length + 4)] ++ e.cmd) ++
      (bigEndian e.time ++ rest) := by
    rw [same,encodeEntry]
    simp
  have place : front.length + (e.cmd.length + 4) - 1 =
      (front ++ [entryTag i,0x23,UInt8.ofNat (e.cmd.length + 4)] ++ e.cmd).length := by
    simp
  have first : list.peek (front.length + (e.cmd.length + 4) - 1) = byteOf e.time 24 := by
    rw [place]
    exact Block.peek_append split 0
  have word := bigEndian_word e.time
  rw [entryTime,first,place,Block.peek_append split 1,Block.peek_append split 2,Block.peek_append split 3]
  simp only [bigEndian,List.cons_append,List.getD_cons_succ,List.getD_cons_zero,word]
  have same := toInt32_small e.small
  by_cases zero : e.time = 0
  · rw [PollEntry.period,zero]
    rfl
  · have positive : 0 < e.time.toNat := Nat.pos_of_ne_zero fun none => zero (UInt32.toNat_inj.mp none)
    have least : ¬ e.time.toInt32 < 1 := by
      rw [Int32.lt_iff_toInt_lt,same]
      simp
      omega
    have larger : (1 : UInt32) ≤ e.time := UInt32.le_iff_toNat_le.mpr positive
    rw [if_neg least,UInt32.toUInt32_toInt32]
    exact (if_pos larger).symm
end

/-- The time of a call of `ModbusSenttset` that polls. -/
def dueTick (g : Gateway) : GatewayInput → Option UInt32
  | .modbusSenttset time => if g.tcpRecvLenth = 0 ∧ g.poller.isDue time then some time else none
  | _ => none
/-- The polls of a run: when each was and what it handed to `Master_Send`. -/
def pollTicks : Gateway → List GatewayInput → List (UInt32 × List (List UInt8))
  | _,[] => []
  | g,i :: rest =>
    ((dueTick g i).map fun time => (time,handedFrom .pollList (gatewayStep g i).2)).toList ++
      pollTicks (gatewayStep g i).1 rest

/-- A step that is no poll hands over nothing from the list, and leaves the walker
    alone unless it loads a list. -/
theorem quiet_step {g : Gateway} {i : GatewayInput} (quiet : dueTick g i = none) :
    handedFrom .pollList (gatewayStep g i).2 = [] := by
  cases i with
  | segment env bytes => exact segment_hands .pollList env bytes g
  | modbusSenttset time =>
    obtain ⟨-,same⟩ | ⟨empty,due,-⟩ | ⟨-,-,same⟩ := senttset_cases time g
    · simp only [gatewayStep,same]
      exact (sendDownlink_hands g).1
    · simp [dueTick,empty,due] at quiet
    · simp only [gatewayStep,same]
      rfl
  | line i => exact handedFrom_kind (fun _ _ => rfl) (line_onLine g.serial i)

/-- A segment that the callback takes as a poll list. -/
def LoadsList (g : Gateway) : GatewayInput → Prop
  | .segment _ bytes => Command.fits (g.copyIn bytes) .pollList = true
  | _ => False

instance (g : Gateway) (i : GatewayInput) : Decidable (LoadsList g i) :=
  match i with
  | .segment _ _ => inferInstanceAs (Decidable (_ = _))
  | .modbusSenttset _ | .line _ => isFalse id

theorem quiet_poller {g : Gateway} {i : GatewayInput} (quiet : dueTick g i = none) (other : ¬ LoadsList g i) :
    (gatewayStep g i).1.poller = g.poller := by
  cases i with
  | segment env bytes => exact segment_poller env (Bool.eq_false_iff.mpr other)
  | modbusSenttset time =>
    obtain ⟨-,same⟩ | ⟨empty,due,-⟩ | ⟨-,-,same⟩ := senttset_cases time g
    · simp only [gatewayStep,same]
      rfl
    · simp [dueTick,empty,due] at quiet
    · simp only [gatewayStep,same]
  | line i => rfl
theorem dueTick_walk {g : Gateway} {i : GatewayInput} {time : UInt32} (tick : dueTick g i = some time) :
    g.poller.isDue time ∧ gatewayStep g i = walk time g := by
  cases i with
  | modbusSenttset now =>
    simp only [dueTick,Option.ite_none_right_eq_some,Option.some.injEq] at tick
    obtain ⟨⟨empty,due⟩,rfl⟩ := tick
    exact ⟨due,by simp [gatewayStep,modbusSenttset,empty,due]⟩
  | segment env bytes => simp [dueTick] at tick
  | line i => simp [dueTick] at tick
/-- What a run hands over from the list is what its polls hand over. -/
theorem pollTicks_hands (g : Gateway) (inputs : List GatewayInput) :
    handedFrom .pollList (gateway.trace g inputs) = (pollTicks g inputs).flatMap Prod.snd := by
  induction inputs generalizing g with
  | nil => rfl
  | cons i rest ih =>
    have later := ih (gatewayStep g i).1
    rw [Machine.trace_cons,handedFrom_append,pollTicks,List.flatMap_append,← later]
    cases tick : dueTick g i with
    | none =>
      have silent := quiet_step tick
      simp [gateway,silent]
    | some time => simp [gateway]

/-- The commands of the n-th poll: one of the entry whose turn it is, none at the
    end of the list. -/
def scheduled (entries : List PollEntry) (n : Nat) : List (List UInt8) :=
  (entries[n % (entries.length + 1)]?.map PollEntry.cmd).toList

/-- The walker after n polls of a list. -/
structure Serving (entries : List PollEntry) (n : Nat) (q : Poller) : Prop where
  list : q.tcp2Rs485CmdList.cells =
    encodeEntries 0 entries ++ List.replicate (1400 - (encodeEntries 0 entries).length) 0
  index : q.devIndex.toNat = n % (entries.length + 1)
  cursor : q.cursor = (encodeEntries 0 (entries.take (n % (entries.length + 1)))).length
  period : 0 < n → ∀ e ∈ entries.head?, q.msaterTime.toUInt32 = e.period

/-- The command that the entry at an offset hands to `Master_Send`. -/
def entryCommand (list : Block UInt8 1400) (offset : Nat) : List UInt8 :=
  let len : Int := (list.peek (offset + 2)).toNat
  let masterA : Block UInt8 24 := (Block.fill 0).copy (list.slice (offset + 3) ((len - 4) % 4294967296).toNat)
  masterA.slice 0 (len - 4).toNat
theorem sendEntry_command (g : Gateway) :
    handedFrom .pollList (sendEntry g).2 = [entryCommand g.poller.tcp2Rs485CmdList g.poller.cursor] := by
  simp only [sendEntry]
  obtain ⟨front,line,events,ofFront,ofLine⟩ := send_events .pollList
    ((Block.fill 0 : Block UInt8 24).copy (g.poller.tcp2Rs485CmdList.slice (g.poller.cursor + 3)
      ((((g.poller.tcp2Rs485CmdList.peek (g.poller.cursor + 2)).toNat : Int) - 4) % 4294967296).toNat))
    (((g.poller.tcp2Rs485CmdList.peek (g.poller.cursor + 2)).toNat : Int) - 4)
    { g with serial := markPolled g.uid g.serial }
  have first : handedFrom .pollList front = [] := handedFrom_kind (fun _ _ => rfl) ofFront
  have last : handedFrom .pollList line = [] := handedFrom_kind (fun _ _ => rfl) ofLine
  rw [events]
  simp only [handedFrom_append,first]
  split <;> simpa [handedFrom,entryCommand] using last
/-- The command of an entry is handed over whole. -/
theorem sendEntry_hands (g : Gateway) {cmd : List UInt8} (short : cmd.length ≤ 24)
    (length : entryLength g.poller.tcp2Rs485CmdList g.poller.cursor = cmd.length + 4)
    (command : g.poller.tcp2Rs485CmdList.slice (g.poller.cursor + 3) cmd.length = cmd) :
    handedFrom .pollList (sendEntry g).2 = [cmd] := by
  have size : ((((cmd.length + 4 : Nat) : Int) - 4) % 4294967296).toNat = cmd.length := by omega
  have count : (((cmd.length + 4 : Nat) : Int) - 4).toNat = cmd.length := by omega
  have stored := (Block.fill 0 : Block UInt8 24).slice_copy cmd short
  unfold entryLength at length
  rw [sendEntry_command,entryCommand]
  simp only [length,size,count,command,stored]

/-- Whose turn comes next in a round of k entries and the end of the list. -/
theorem turn_next {n k : Nat} (inner : n % (k + 1) < k) : (n + 1) % (k + 1) = n % (k + 1) + 1 := by
  conv_lhs => rw [← Nat.div_add_mod n (k + 1),Nat.add_assoc,Nat.mul_add_mod]
  exact Nat.mod_eq_of_lt (by omega)
theorem turn_last {n k : Nat} (last : n % (k + 1) = k) : (n + 1) % (k + 1) = 0 := by
  conv_lhs => rw [← Nat.div_add_mod n (k + 1),Nat.add_assoc,Nat.mul_add_mod,last]
  exact Nat.mod_self _
theorem looks_hands (time : UInt32) (q : Poller) : handedFrom .pollList (.due time :: q.looks) = [] := by
  unfold Poller.looks
  split <;> rfl

section
variable {entries : List PollEntry} {n : Nat} {g : Gateway}

/-- The list around the entry at a place. -/
theorem encodeEntries_split {m : Nat} {e : PollEntry} (turn : entries[m]? = some e) :
    encodeEntries 0 entries =
      encodeEntries 0 (entries.take m) ++ (encodeEntry m e ++ encodeEntries (m + 1) (entries.drop (m + 1))) := by
  obtain ⟨inside,same⟩ := List.getElem?_eq_some_iff.mp turn
  have parts := encodeEntries_append 0 (entries.take m) (entries.drop m)
  rw [List.take_append_drop,List.drop_eq_getElem_cons inside,same,List.length_take_of_le (by omega),Nat.zero_add] at parts
  exact parts
theorem Serving.split {q : Poller} (serving : Serving entries n q) {m : Nat} {e : PollEntry}
    (turn : entries[m]? = some e) :
    ∃ rest, q.tcp2Rs485CmdList.cells = encodeEntries 0 (entries.take m) ++ (encodeEntry m e ++ rest) := by
  refine ⟨encodeEntries (m + 1) (entries.drop (m + 1)) ++ List.replicate (1400 - (encodeEntries 0 entries).length) 0,?_⟩
  rw [serving.list]
  conv_lhs => enter [1]; rw [encodeEntries_split turn]
  simp only [List.append_assoc]
theorem Serving.listed {q : Poller} (serving : Serving entries n q) {e : PollEntry} (first : entries.head? = some e) :
    q.tcp2Rs485CmdList.peek 0 ≠ 0 := by
  rw [List.head?_eq_getElem?] at first
  obtain ⟨rest,same⟩ := serving.split first
  have entry := isEntry_encoded same
  simp only [List.take_zero,encodeEntries,List.length_nil] at entry
  rw [entry.1]
  decide
/-- The cell behind the last entry is zero. -/
theorem Serving.end_zero {q : Poller} (serving : Serving entries n q) (few : (encodeEntries 0 entries).length ≤ 1024) :
    q.tcp2Rs485CmdList.peek (encodeEntries 0 entries).length = 0 := by
  have cell := Block.peek_append serving.list 0
  rw [Nat.add_zero,List.getD_eq_getElem?_getD,List.getElem?_replicate_of_lt (by omega)] at cell
  exact cell

theorem serve_entry (time : UInt32) (serving : Serving entries n g.poller) (few : entries.length < 255) {e : PollEntry}
    (turn : entries[n % (entries.length + 1)]? = some e) :
    handedFrom .pollList (walk time g).2 = [e.cmd] ∧ Serving entries (n + 1) (walk time g).1.poller ∧
      (walk time g).1.poller.masterCallTrm = time := by
  obtain ⟨inside,-⟩ := List.getElem?_eq_some_iff.mp turn
  have next := turn_next inside
  obtain ⟨rest,cells⟩ := serving.split turn
  have entry := isEntry_encoded cells
  have length := entryLength_encoded cells
  have command := slice_encoded cells
  rw [← serving.cursor] at entry length command
  have found : g.poller.found := by
    rw [Poller.found_iff,serving.index]
    exact entry
  have listed : g.poller.tcp2Rs485CmdList.peek 0 ≠ 0 := by
    cases entries with
    | nil => simp at inside
    | cons first others => exact serving.listed rfl
  have inner : g.poller.devIndex.toNat + 1 < 255 := by rw [serving.index]; omega
  have poller := walk_found time listed found inner
  refine ⟨?_,?_,by rw [poller]; rfl⟩
  · obtain ⟨unlisted,-⟩ | ⟨-,-,-,same⟩ | ⟨-,missing,-⟩ := walk_cases time g
    · exact absurd unlisted listed
    · rw [same,handedFrom_append,looks_hands]
      exact sendEntry_hands (g.polledAt time) e.short length command
    · exact absurd found missing
  · rw [poller]
    refine ⟨serving.list,?_,?_,?_⟩
    · rw [next_index (by simp; omega),next,← serving.index]
      rfl
    · rw [next_cursor (by simp; omega),next,List.take_add_one,turn,encodeEntries_append]
      show g.poller.cursor + 3 + entryLength g.poller.tcp2Rs485CmdList g.poller.cursor = _
      rw [length,serving.cursor]
      simp only [Option.toList_some,encodeEntries,List.append_nil,List.length_append,encodeEntry_length]
      omega
    · intro _ first head
      by_cases zero : g.poller.devIndex = 0
      · have start : n % (entries.length + 1) = 0 := by rw [← serving.index,zero]; rfl
        have time := entryTime_encoded cells
        rw [start,← List.head?_eq_getElem?,head] at turn
        rw [Option.some.inj turn,← time,← serving.cursor,← length]
        exact congrArg Int32.toUInt32 (if_pos zero)
      · have later : 0 < n := Nat.pos_of_ne_zero fun none => zero (UInt32.toNat_inj.mp (by
          rw [serving.index,none]
          simp))
        rw [← serving.period later first head]
        exact congrArg Int32.toUInt32 (if_neg zero)
theorem serve_end (time : UInt32) (serving : Serving entries n g.poller) (few : (encodeEntries 0 entries).length ≤ 1024)
    (turn : entries[n % (entries.length + 1)]? = none) :
    handedFrom .pollList (walk time g).2 = [] ∧ Serving entries (n + 1) (walk time g).1.poller ∧
      (walk time g).1.poller.masterCallTrm = time := by
  have last : n % (entries.length + 1) = entries.length := by
    have above := List.getElem?_eq_none_iff.mp turn
    exact Nat.le_antisymm (Nat.le_of_lt_succ (Nat.mod_lt n (Nat.succ_pos entries.length))) above
  have next := turn_last last
  have count := encodeEntries_length 0 entries
  have positive (e : PollEntry) (first : e ∈ entries.head?) : 0 < n := by
    refine Nat.pos_of_ne_zero ?_
    intro none
    rw [none,Nat.zero_mod] at last
    rw [List.eq_nil_of_length_eq_zero last.symm] at first
    simp at first
  obtain ⟨unlisted,same⟩ | ⟨-,found,-⟩ | ⟨-,-,same,events⟩ := walk_cases time g
  · cases entries with
    | cons e rest => exact absurd unlisted (serving.listed rfl)
    | nil =>
      rw [same]
      refine ⟨rfl,⟨serving.list,serving.index.trans (last.trans next.symm),?_,fun _ e first => by simp at first⟩,rfl⟩
      exact serving.cursor.trans (by simp)
  · have tag := ((Poller.found_iff _).mp found).1
    rw [serving.cursor,serving.index,last,List.take_length,serving.end_zero few,← UInt8.toNat_inj] at tag
    simp [entryTag] at tag
    omega
  · rw [same,events,looks_hands]
    refine ⟨rfl,⟨serving.list,?_,?_,fun _ e first => serving.period (positive e first) e first⟩,rfl⟩
    · rw [next]
      rfl
    · rw [next]
      rfl
/-- One poll takes the entry whose turn it is. -/
theorem serve_tick (time : UInt32) (serving : Serving entries n g.poller) (few : (encodeEntries 0 entries).length ≤ 1024) :
    handedFrom .pollList (walk time g).2 = scheduled entries n ∧ Serving entries (n + 1) (walk time g).1.poller ∧
      (walk time g).1.poller.masterCallTrm = time := by
  have count := encodeEntries_length 0 entries
  cases turn : entries[n % (entries.length + 1)]? with
  | none =>
    rw [scheduled,turn]
    exact serve_end time serving few turn
  | some e =>
    rw [scheduled,turn]
    exact serve_entry time serving (by omega) turn
end

/-! ### Whole runs -/

/-- A round-robin run over a list: the polls send the commands in turn, the period
    lies between one poll and the next, nothing else is sent from the list, and
    nothing at all from a list without entries. -/
structure Rounds (entries : List PollEntry) (g : Gateway) (inputs : List GatewayInput) : Prop where
  commands : (pollTicks g inputs).map Prod.snd = (List.range (pollTicks g inputs).length).map (scheduled entries)
  gaps : ∀ e ∈ entries.head?, ((pollTicks g inputs).map Prod.fst).IsChain fun t t' => e.period ≤ t' - t
  others : handedFrom .pollList (gateway.trace g inputs) = (pollTicks g inputs).flatMap Prod.snd
  silent : entries = [] → handedFrom .pollList (gateway.trace g inputs) = []

/-- The time of the last poll, if there was one. -/
def lastPoll (n : Nat) (q : Poller) : List UInt32 := if n = 0 then [] else [q.masterCallTrm]

theorem pollTicks_serving {entries : List PollEntry} (few : (encodeEntries 0 entries).length ≤ 1024) {n : Nat}
    {g : Gateway} {inputs : List GatewayInput} (serving : Serving entries n g.poller)
    (unlisted : gateway.Each (fun g i => ¬ LoadsList g i) g inputs) :
    (pollTicks g inputs).map Prod.snd = (List.range' n (pollTicks g inputs).length).map (scheduled entries) ∧
      ∀ e ∈ entries.head?, (lastPoll n g.poller ++ (pollTicks g inputs).map Prod.fst).IsChain
        fun t t' => e.period ≤ t' - t := by
  induction inputs generalizing n g with
  | nil =>
    refine ⟨rfl,?_⟩
    intro e _
    unfold lastPoll
    split <;> simp [pollTicks]
  | cons i rest ih =>
    cases tick : dueTick g i with
    | none =>
      have poller := quiet_poller tick unlisted.1
      have later := ih (n := n) (g := (gatewayStep g i).1) (poller ▸ serving) unlisted.2
      simpa [pollTicks,tick,poller] using later
    | some time =>
      obtain ⟨due,same⟩ := dueTick_walk tick
      obtain ⟨handed,served,last⟩ := serve_tick time serving few
      rw [← same] at handed served last
      obtain ⟨commands,gaps⟩ := ih served unlisted.2
      simp only [pollTicks,tick,Option.map_some,Option.toList_some,List.singleton_append,List.map_cons,List.length_cons,
        List.range'_succ,handed]
      refine ⟨by rw [commands],?_⟩
      intro e first
      have chain := gaps e first
      simp only [lastPoll,Nat.succ_ne_zero,if_false,last,List.singleton_append] at chain
      by_cases zero : n = 0
      · simpa [lastPoll,zero] using chain
      · have apart := serving.period (Nat.pos_of_ne_zero zero) e first
        rw [Poller.isDue,apart] at due
        simp only [lastPoll,zero,if_false,List.singleton_append]
        exact List.isChain_cons_cons.mpr ⟨due,chain⟩

/-- The segment of a list, which may end in zeros. -/
def pollListFrame (entries : List PollEntry) (padding : Nat) (trailer : List UInt8) : List UInt8 :=
  [0xFF,0xBB] ++ (encodeEntries 0 entries ++ List.replicate padding 0) ++ trailer

/-- A segment that is taken as a poll list has at most 1024 bytes of list, as the
    callback counts them. -/
def ListShort (g : Gateway) : GatewayInput → Prop
  | .segment _ bytes => Command.fits (g.copyIn bytes) .pollList = true →
      (UInt32.ofNat bytes.length - 5 - 2).toNat ≤ 1024
  | _ => True

instance (g : Gateway) (i : GatewayInput) : Decidable (ListShort g i) :=
  match i with
  | .segment _ _ => inferInstanceAs (Decidable (_ → _))
  | .modbusSenttset _ | .line _ => isTrue trivial

/-- What a list does not reach is zero. -/
def TailZero (g : Gateway) : Prop := g.poller.tcp2Rs485CmdList.cells.drop 1024 = List.replicate 376 0

theorem load_tail {table : Block UInt8 1400} {payload : List UInt8} (short : payload.length ≤ 1024) :
    ((table.copy (List.replicate 1024 0)).copy payload).cells.drop 1024 = table.cells.drop 1024 := by
  have zeros : (List.replicate 1024 (0 : UInt8)).length = 1024 := List.length_replicate
  rw [Block.drop_copy _ (by omega) short,Block.drop_copy _ (by omega) (by omega)]
theorem tailZero_step {g : Gateway} {i : GatewayInput} (tail : TailZero g) (short : ListShort g i) :
    TailZero (gatewayStep g i).1 := by
  by_cases loads : LoadsList g i
  · cases i with
    | segment env bytes =>
      have count := short loads
      rw [TailZero,gatewayStep,segment_pollList env bytes g loads]
      exact (load_tail (Nat.le_trans (Block.slice_length_le _ _ _) count)).trans tail
    | modbusSenttset time => exact absurd loads (by simp [LoadsList])
    | line i => exact absurd loads (by simp [LoadsList])
  · cases tick : dueTick g i with
    | none =>
      rw [TailZero,quiet_poller tick loads]
      exact tail
    | some time =>
      rw [TailZero,(dueTick_walk tick).2,(walk_frame time g).list]
      exact tail
/-- A list that has just been loaded. -/
theorem load_serving (env : Surroundings) {g : Gateway} {entries : List PollEntry} {padding : Nat} {trailer : List UInt8}
    (tail : TailZero g) (size : trailer.length = 5) (limit : (encodeEntries 0 entries).length + padding ≤ 1024) :
    Serving entries 0 (tcpClientReciver env (pollListFrame entries padding trailer) g).1.poller := by
  have length : (pollListFrame entries padding trailer).length = (encodeEntries 0 entries).length + padding + 7 := by
    simp [pollListFrame,size]
    omega
  have start : [0xFF,0xBB] <+: pollListFrame entries padding trailer := by
    rw [pollListFrame,List.append_assoc]
    exact List.prefix_append _ _
  have count : (encodeEntries 0 entries ++ List.replicate padding 0).length = (encodeEntries 0 entries).length + padding := by
    simp
  have payload : ((pollListFrame entries padding trailer).drop 2).take ((pollListFrame entries padding trailer).length - 7) =
      encodeEntries 0 entries ++ List.replicate padding 0 := by
    rw [length,Nat.add_sub_cancel,pollListFrame,List.append_assoc]
    exact List.take_left' count
  have cleared : (g.poller.tcp2Rs485CmdList.copy (List.replicate 1024 0)).cells = List.replicate 1400 0 := by
    rw [Block.copy_cells _ (by rw [List.length_replicate]; omega),List.length_replicate,tail,List.replicate_append_replicate]
  rw [segment_pollList env _ g (fits_pollList (by omega) start),segment_loads (by omega) (by omega),loadList,payload]
  refine ⟨?_,by rw [Nat.zero_mod]; rfl,(if_pos rfl).trans (by rw [Nat.zero_mod]; rfl),fun zero => absurd zero (Nat.lt_irrefl 0)⟩
  show Block.cells _ = _
  rw [Block.copy_cells _ (by omega),cleared,List.drop_replicate,List.append_assoc,List.replicate_append_replicate]
  congr 2
  omega

/-- After any lists before it, a list of well-formed entries is served in rounds
    until the next list is loaded. -/
theorem poll_schedule (client : Client) (uid : Uid) (si4432 : Bool) (before after : List GatewayInput)
    (env : Surroundings) (entries : List PollEntry) (padding : Nat) (trailer : List UInt8) (size : trailer.length = 5)
    (limit : (encodeEntries 0 entries).length + padding ≤ 1024)
    (short : gateway.Each ListShort (gatewayStarted client uid si4432) before)
    (unlisted : gateway.Each (fun g i => ¬ LoadsList g i) (gateway.after (gatewayStarted client uid si4432)
      (before ++ [.segment env (pollListFrame entries padding trailer)])) after) :
    Rounds entries (gateway.after (gatewayStarted client uid si4432)
      (before ++ [.segment env (pollListFrame entries padding trailer)])) after := by
  have start : TailZero (gatewayStarted client uid si4432) := List.drop_replicate
  have tail := Machine.invariant_run (R := TailZero) (fun g i now fits => tailZero_step now fits) start short
  have serving : Serving entries 0 (gateway.after (gatewayStarted client uid si4432)
      (before ++ [GatewayInput.segment env (pollListFrame entries padding trailer)])).poller := by
    rw [Machine.after_append]
    exact load_serving env tail size limit
  obtain ⟨commands,gaps⟩ := pollTicks_serving (by omega) serving unlisted
  refine ⟨by rw [List.range_eq_range']; exact commands,gaps,pollTicks_hands _ _,?_⟩
  intro none
  rw [pollTicks_hands,List.flatMap_def,commands,none]
  exact List.flatten_eq_nil_iff.mpr fun sent member => by
    obtain ⟨n,-,rfl⟩ := List.mem_map.mp member
    rfl
theorem poll_schedule_two_entries :
    let entries : List PollEntry := [⟨[1,3],100,by simp,by decide,by decide⟩,⟨[2,4],7,by simp,by decide,by decide⟩]
    Rounds entries (gateway.after (gatewayStarted .boot ⟨1,2,3⟩ false)
        ([.segment .plain (pollListFrame [] 3 [0xBB,0xFF,0x24,0x0D,0x0A])] ++
          [.segment .plain (pollListFrame entries 0 [0xBB,0xFF,0x24,0x0D,0x0A])]))
      [.modbusSenttset 1000,.modbusSenttset 1050,.modbusSenttset 1100,.segment .plain (downlinkFrame 1 [5]),
        .modbusSenttset 1200,.modbusSenttset 1200,.modbusSenttset 1300] :=
  poll_schedule .boot ⟨1,2,3⟩ false _ _ .plain _ 0 _ rfl (by decide) (by decide) (by decide)

end Net2Modbus
