import Net2Modbus.Connection

/-!
# The life of the pcbs

What holds of the client connection along every order of retries, callbacks and
failures, and at which steps it is lost.
-/
namespace Net2Modbus

/-- How often a pcb has been closed, aborted or freed while it was live. -/
def releases (id : Nat) (past : List LinkEvent) : Nat := past.count (.released id)

/-- With a connection `wpcb` is its pcb; what is passed to lwIP is neither null nor
    freed; a live pcb is `wpcb`, and is being connected or connected; and every
    other one has been released exactly once. -/
structure LinkSound (c : Connection) (past : List LinkEvent) : Prop where
  connected : c.tcplink = false → ∃ id, c.wpcb = some id ∧ c.pcb id = some .established
  passed : ∀ id state, .passed id state ∈ past → state ≠ none ∧ state ≠ some .freed
  current : ∀ id state, c.pcb id = some state → state.live = true → c.wpcb = some id
  failed : ∀ id state, c.pcb id = some state → state.live = true → state = .synSent ∨ state = .established
  once : ∀ id state, c.pcb id = some state → releases id past = if state.live then 0 else 1

/-- A due retry without a connection finds memory and a route, and no pcb that
    holds the port, of this client or of another; and a close has memory for its
    FIN. -/
def AttemptClear (c : Connection) : LinkInput → Prop
  | .tcpTestThread time a => tcpCreattrmInterval ≤ time - c.tcpCreatTrm → c.tcplink = true →
      a.memory = true ∧ a.port = true ∧ a.route = true ∧ ∀ state ∈ c.pcbs, state.holdsPort = false
  | .remoteClose _ finSent => finSent = true
  | _ => True

instance (c : Connection) (i : LinkInput) : Decidable (AttemptClear c i) :=
  match i with
  | .tcpTestThread _ _ => inferInstanceAs (Decidable (_ → _))
  | .remoteClose _ _ => inferInstanceAs (Decidable (_ = _))
  | .sendDataToSever _ | .connected _ | .error _ | .stackFrees _ => isTrue trivial

@[simp] theorem setPcb_pcbs (c : Connection) (id : Nat) (state : PcbState) :
    (c.setPcb id state).pcbs = c.pcbs.set id state := rfl
@[simp] theorem setPcb_wpcb (c : Connection) (id : Nat) (state : PcbState) : (c.setPcb id state).wpcb = c.wpcb := rfl
@[simp] theorem setPcb_tcplink (c : Connection) (id : Nat) (state : PcbState) :
    (c.setPcb id state).tcplink = c.tcplink := rfl

/-- The last pcb, and a change of its state. -/
theorem pcb_last {c : Connection} {front : List PcbState} {state : PcbState} (pcbs : c.pcbs = front ++ [state]) :
    c.pcb front.length = some state := by
  simp [Connection.pcb,pcbs]
theorem set_last (front : List PcbState) (state state' : PcbState) :
    (front ++ [state]).set front.length state' = front ++ [state'] := by
  simp

/-- A retry: no memory, no port, no route, or a SYN is sent for the new pcb. -/
theorem callback_cases (a : Attempt) (c : Connection) :
    (a.memory = false ∧ .passed none none ∈ (tcpClientCallback a c).2) ∨
    (a.memory = true ∧ ¬ (a.port = true ∧ ∀ state ∈ c.pcbs, state.holdsPort = false) ∧
      (tcpClientCallback a c).1.pcbs = c.pcbs ++ [.closed]) ∨
    (a.memory = true ∧ a.route = false ∧ (tcpClientCallback a c).1.pcbs = c.pcbs ++ [.bound]) ∨
    (a.memory = true ∧ a.port = true ∧ (∀ state ∈ c.pcbs, state.holdsPort = false) ∧ a.route = true ∧
      tcpClientCallback a c = ({ c with wpcb := some c.pcbs.length, pcbs := c.pcbs ++ [.synSent] },
        [.allocated c.pcbs.length,.passed (some c.pcbs.length) (some .closed),
          .passed (some c.pcbs.length) (some .bound),.passed (some c.pcbs.length) (some .synSent),
          .passed (some c.pcbs.length) (some .synSent)])) := by
  obtain ⟨memory,port,route⟩ := a
  cases memory with
  | false => exact .inl ⟨rfl,by simp [tcpClientCallback,tcpNew,tcpBind,Connection.pass]⟩
  | true =>
    have closed := pcb_last (c := { c with wpcb := some c.pcbs.length, pcbs := c.pcbs ++ [.closed] }) rfl
    by_cases free : port = true ∧ ∀ state ∈ c.pcbs, state.holdsPort = false
    · have bind : tcpBind port { c with wpcb := some c.pcbs.length, pcbs := c.pcbs ++ [.closed] } =
          ({ c with wpcb := some c.pcbs.length, pcbs := c.pcbs ++ [.bound] },true) := by
        have all : ∀ state ∈ c.pcbs ++ [PcbState.closed], state.holdsPort = false :=
          List.forall_mem_append.mpr ⟨free.2,by simp [PcbState.holdsPort]⟩
        simp only [tcpBind,closed,free.1,Connection.setPcb,set_last]
        exact if_pos ⟨trivial,trivial,all⟩
      have bound := pcb_last (c := { c with wpcb := some c.pcbs.length, pcbs := c.pcbs ++ [.bound] }) rfl
      cases route with
      | false =>
        refine .inr (.inr (.inl ⟨rfl,rfl,?_⟩))
        simp [tcpClientCallback,tcpNew,bind,tcpConnect]
      | true =>
        have sent := pcb_last (c := { c with wpcb := some c.pcbs.length, pcbs := c.pcbs ++ [.synSent] }) rfl
        refine .inr (.inr (.inr ⟨rfl,free.1,free.2,rfl,?_⟩))
        simp [tcpClientCallback,tcpNew,bind,tcpConnect,bound,Connection.setPcb,Connection.pass,closed,sent]
    · refine .inr (.inl ⟨rfl,free,?_⟩)
      have refused : tcpBind port { c with wpcb := some c.pcbs.length, pcbs := c.pcbs ++ [.closed] } =
          ({ c with wpcb := some c.pcbs.length, pcbs := c.pcbs ++ [.closed] },false) := by
        refine if_neg fun all => free ⟨all.2.1,fun state member => all.2.2 state (List.mem_append_left _ member)⟩
      simp [tcpClientCallback,tcpNew,refused]

/-- Besides the pcb in `wpcb`, which is being connected, connected, closed or freed,
    all pcbs have been freed. -/
structure Kept (c : Connection) (past : List LinkEvent) : Prop where
  connected : c.tcplink = false → ∃ id, c.wpcb = some id ∧ c.pcb id = some .established
  passed : ∀ id state, .passed id state ∈ past → state ≠ none ∧ state ≠ some .freed
  others : ∀ id state, c.pcb id = some state → c.wpcb ≠ some id → state = .freed
  states : ∀ id state, c.wpcb = some id → c.pcb id = some state →
    state = .synSent ∨ state = .established ∨ state = .lastAck ∨ state = .freed
  once : ∀ id state, c.pcb id = some state → releases id past = if state.live then 0 else 1
  fresh : ∀ id, c.pcb id = none → releases id past = 0

@[simp] theorem releases_append (id : Nat) (past events : List LinkEvent) :
    releases id (past ++ events) = releases id past + releases id events :=
  List.count_append

section
variable {c : Connection} {past : List LinkEvent} (kept : Kept c past)
include kept

theorem Kept.current {id : Nat} {state : PcbState} (pcb : c.pcb id = some state) (used : state ≠ .freed) :
    c.wpcb = some id := by
  by_contra other
  exact used (kept.others id state pcb other)
theorem Kept.sound : LinkSound c past where
  connected := kept.connected
  passed := kept.passed
  current id state pcb live := kept.current pcb (by rintro rfl; simp [PcbState.live] at live)
  failed id state pcb live := by
    have wpcb := kept.current pcb (by rintro rfl; simp [PcbState.live] at live)
    obtain rfl | rfl | rfl | rfl := kept.states id state wpcb pcb
    · exact .inl rfl
    · exact .inr rfl
    · simp [PcbState.live] at live
    · simp [PcbState.live] at live
  once := kept.once

/-- A step that changes the state of the pcb in `wpcb`, and counts its release. -/
theorem Kept.set {c' : Connection} {events : List LinkEvent} {id : Nat} {state state' : PcbState}
    (wpcb : c.wpcb = some id) (old : c.pcb id = some state) (same : c'.wpcb = c.wpcb)
    (pcbs : c'.pcbs = c.pcbs.set id state')
    (next : state' = .synSent ∨ state' = .established ∨ state' = .lastAck ∨ state' = .freed)
    (linked : c'.tcplink = false → state' = .established)
    (passes : ∀ id state, .passed id state ∈ events → state ≠ none ∧ state ≠ some .freed)
    (count : (if state.live then 0 else 1) + releases id events = if state'.live then 0 else 1)
    (silent : ∀ other, other ≠ id → releases other events = 0) : Kept c' (past ++ events) := by
  obtain ⟨inside,-⟩ := List.getElem?_eq_some_iff.mp old
  have here : c'.pcb id = some state' := by
    rw [Connection.pcb,pcbs,List.getElem?_set_self inside]
  have there (other : Nat) (different : other ≠ id) : c'.pcb other = c.pcb other := by
    rw [Connection.pcb,pcbs,List.getElem?_set_ne different.symm]
    rfl
  refine ⟨fun connected => ⟨id,same.trans wpcb,linked connected ▸ here⟩,?_,?_,?_,?_,?_⟩
  · intro other state member
    rcases List.mem_append.mp member with before | now
    · exact kept.passed other state before
    · exact passes other state now
  · intro other state pcb different
    have apart : other ≠ id := by
      rintro rfl
      exact different (same.trans wpcb)
    exact kept.others other state (there other apart ▸ pcb) (same ▸ different)
  · intro other state current pcb
    obtain rfl : id = other := Option.some.inj (wpcb.symm.trans (same ▸ current))
    obtain rfl : state' = state := Option.some.inj (here.symm.trans pcb)
    exact next
  · intro other state pcb
    by_cases apart : other = id
    · subst apart
      obtain rfl : state' = state := Option.some.inj (here.symm.trans pcb)
      rw [releases_append,kept.once other _ old,count]
    · rw [releases_append,silent other apart,kept.once other state (there other apart ▸ pcb)]
      rfl
  · intro other none
    have apart : other ≠ id := by
      rintro rfl
      simp [here] at none
    rw [releases_append,silent other apart,kept.fresh other (there other apart ▸ none)]

/-- A new pcb, when no earlier one holds the port. -/
theorem Kept.new {c' : Connection} {events : List LinkEvent} (free : ∀ state ∈ c.pcbs, state.holdsPort = false)
    (linked : c'.tcplink = true) (wpcb : c'.wpcb = some c.pcbs.length) (pcbs : c'.pcbs = c.pcbs ++ [.synSent])
    (passes : ∀ id state, .passed id state ∈ events → state ≠ none ∧ state ≠ some .freed)
    (silent : ∀ id, releases id events = 0) : Kept c' (past ++ events) := by
  have here : c'.pcb c.pcbs.length = some .synSent := pcb_last pcbs
  have there (id : Nat) (old : id < c.pcbs.length) : c'.pcb id = c.pcb id := by
    rw [Connection.pcb,pcbs,List.getElem?_append_left old]
    rfl
  have inside (id : Nat) (state : PcbState) (pcb : c'.pcb id = some state) : id < c.pcbs.length ∨ id = c.pcbs.length := by
    obtain ⟨bound,-⟩ := List.getElem?_eq_some_iff.mp pcb
    rw [pcbs,List.length_append,List.length_singleton] at bound
    omega
  have freed (id : Nat) (state : PcbState) (pcb : c.pcb id = some state) : state = .freed := by
    by_contra used
    have unheld := free state (List.mem_of_getElem? pcb)
    obtain rfl | rfl | rfl | rfl := kept.states id state (kept.current pcb used) pcb <;>
      simp [PcbState.holdsPort] at unheld used
  have earlier : releases c.pcbs.length past = 0 := kept.fresh _ (List.getElem?_eq_none_iff.mpr (Nat.le_refl _))
  refine ⟨fun connected => by simp [linked] at connected,?_,?_,?_,?_,?_⟩
  · intro id state member
    rcases List.mem_append.mp member with before | now
    · exact kept.passed id state before
    · exact passes id state now
  · intro id state pcb different
    rcases inside id state pcb with old | rfl
    · exact freed id state (there id old ▸ pcb)
    · exact absurd wpcb different
  · intro id state current pcb
    obtain rfl : c.pcbs.length = id := Option.some.inj (wpcb.symm.trans current)
    exact .inl (Option.some.inj (pcb.symm.trans here))
  · intro id state pcb
    rw [releases_append,silent,Nat.add_zero]
    rcases inside id state pcb with old | rfl
    · exact kept.once id state (there id old ▸ pcb)
    · obtain rfl : PcbState.synSent = state := Option.some.inj (here.symm.trans pcb)
      exact earlier
  · intro id none
    rw [releases_append,silent,Nat.add_zero]
    have beyond : c.pcbs.length + 1 ≤ id := by
      have length := List.getElem?_eq_none_iff.mp none
      rwa [pcbs,List.length_append,List.length_singleton] at length
    exact kept.fresh id (List.getElem?_eq_none_iff.mpr (by omega))

/-- Passing `wpcb` over a connection changes nothing. -/
theorem Kept.send (connected : c.tcplink = false) (written : Bool) : Kept c (past ++ (sendDataToSever written c).2) := by
  obtain ⟨id,wpcb,pcb⟩ := kept.connected connected
  have pass : c.pass = .passed (some id) (some .established) := by simp [Connection.pass,wpcb,pcb]
  have unchanged : c.pcbs = c.pcbs.set id .established := by
    obtain ⟨inside,same⟩ := List.getElem?_eq_some_iff.mp pcb
    rw [← same]
    exact (List.set_getElem_self inside).symm
  refine kept.set wpcb pcb rfl unchanged (.inr (.inl rfl)) (fun _ => rfl) ?_ ?_ ?_
  · cases written <;> simp [sendDataToSever,connected,pass]
  · cases written <;> simp [sendDataToSever,connected,pass,releases]
  · cases written <;> simp [sendDataToSever,connected,pass,releases]
end

/-- The end of the stream on the pcb in `wpcb`. -/
theorem remoteClose_current {c : Connection} {id : Nat} (wpcb : c.wpcb = some id) (pcb : c.pcb id = some .established)
    (finSent : Bool) : linkStep c (.remoteClose id finSent) =
      if finSent then ({ c with tcplink := true, pcbs := c.pcbs.set id .lastAck },
        [.passed (some id) (some .closeWait),.released id])
      else ({ c with tcplink := true, pcbs := c.pcbs.set id .closeWait },[.passed (some id) (some .closeWait)]) := by
  obtain ⟨inside,-⟩ := List.getElem?_eq_some_iff.mp pcb
  have waits : ({ c with tcplink := true, pcbs := c.pcbs.set id .closeWait } : Connection).pcb id = some .closeWait :=
    List.getElem?_set_self inside
  rw [wpcb] at waits
  cases finSent <;>
    simp [linkStep,pcb,tcpClientReciverEnd,tcpClose,Connection.setPcb,Connection.pass,wpcb,waits]
/-- A new attempt to connect finds everything it needs. -/
theorem Kept.attempt {c : Connection} {past : List LinkEvent} (kept : Kept c past) {time : UInt32} {a : Attempt}
    (clear : AttemptClear c (.tcpTestThread time a)) :
    Kept (linkStep c (.tcpTestThread time a)).1 (past ++ (linkStep c (.tcpTestThread time a)).2) := by
  simp only [linkStep,tcpTestThread]
  split
  · rename_i due
    have later : Kept { c with tcpCreatTrm := time } past :=
      ⟨kept.connected,kept.passed,kept.others,kept.states,kept.once,kept.fresh⟩
    by_cases linked : c.tcplink = true
    · rw [if_pos linked]
      obtain ⟨memory,port,route,free⟩ := clear due linked
      obtain ⟨none,-⟩ | ⟨-,held,-⟩ | ⟨-,none,-⟩ | ⟨-,-,-,-,same⟩ := callback_cases a { c with tcpCreatTrm := time }
      · simp [memory] at none
      · exact absurd ⟨port,free⟩ held
      · simp [route] at none
      · rw [same]
        refine later.new free linked rfl rfl ?_ ?_
        · intro id state member
          simp at member
          rcases member with ⟨-,rfl⟩ | ⟨-,rfl⟩ | ⟨-,rfl⟩ <;> simp
        · simp [releases]
    · rw [if_neg linked,List.append_nil]
      exact later
  · rw [List.append_nil]
    exact kept
/-- Steps that meet the guard keep the invariant. -/
theorem kept_step {c : Connection} {past : List LinkEvent} {i : LinkInput} (kept : Kept c past)
    (can : linkEnabled c i) (clear : AttemptClear c i) : Kept (linkStep c i).1 (past ++ (linkStep c i).2) := by
  cases i with
  | tcpTestThread time a => exact kept.attempt clear
  | sendDataToSever written =>
    cases linked : c.tcplink with
    | false => exact kept.send linked written
    | true => simpa [linkStep,sendDataToSever,linked] using kept
  | connected id =>
    have old : c.pcb id = some .synSent := can
    exact kept.set (kept.current old (by decide)) old rfl rfl (.inr (.inl rfl)) (fun _ => rfl) (by simp [linkStep])
      (by simp [linkStep,PcbState.live,releases]) (by simp [linkStep,releases])
  | remoteClose id finSent =>
    have sent : finSent = true := clear
    have old : c.pcb id = some .established := by
      rcases can with standing | closing
      · exact standing
      · have known := kept.states id .finWait (kept.current closing (by decide)) closing
        simp at known
    have wpcb := kept.current old (by decide)
    rw [remoteClose_current wpcb old,sent,if_pos rfl]
    refine kept.set wpcb old rfl rfl (.inr (.inr (.inl rfl))) nofun ?_ ?_ ?_
    · simp
    · simp [PcbState.live,releases]
    · intro other different
      simp [releases,different.symm]
  | error id =>
    obtain ⟨state,old,active⟩ := (Option.any_eq_true _ _).mp can
    have wpcb := kept.current old (by rintro rfl; simp [PcbState.active] at active)
    have step : linkStep c (.error id) =
        (tcpClientErr (c.setPcb id .freed),if state.live then [.released id] else []) := by
      simp [linkStep,old]
    rw [step]
    refine kept.set wpcb old rfl rfl (.inr (.inr (.inr rfl))) nofun ?_ ?_ ?_
    · split <;> simp
    · cases live : state.live <;> simp [PcbState.live,releases]
    · intro other different
      cases live : state.live <;> simp [releases,different.symm]
  | stackFrees id =>
    have old : c.pcb id = some .lastAck := by
      rcases can with closing | waiting
      · exact closing
      · have known := kept.states id .timeWait (kept.current waiting (by decide)) waiting
        simp at known
    have wpcb := kept.current old (by decide)
    refine kept.set wpcb old rfl rfl (.inr (.inr (.inr rfl))) ?_ (by simp [linkStep])
      (by simp [linkStep,PcbState.live,releases]) (by simp [linkStep,releases])
    intro connected
    obtain ⟨other,current,standing⟩ := kept.connected connected
    obtain rfl : id = other := Option.some.inj (wpcb.symm.trans current)
    simp [old] at standing
/-- Steps that do not meet the guard lose a pcb, or pass a null pointer. -/
theorem sound_lost {c : Connection} {past : List LinkEvent} {i : LinkInput} (kept : Kept c past)
    (can : linkEnabled c i) (blocked : ¬ AttemptClear c i) : ¬ LinkSound (linkStep c i).1 (past ++ (linkStep c i).2) := by
  intro sound
  cases i with
  | tcpTestThread time a =>
    simp only [AttemptClear,Classical.not_imp] at blocked
    obtain ⟨due,linked,missing⟩ := blocked
    have step : linkStep c (.tcpTestThread time a) = tcpClientCallback a { c with tcpCreatTrm := time } := by
      simp only [linkStep,tcpTestThread,if_pos due]
      exact if_pos linked
    rw [step] at sound
    obtain ⟨-,null⟩ | ⟨-,-,same⟩ | ⟨-,-,same⟩ | ⟨memory,port,free,route,-⟩ :=
      callback_cases a { c with tcpCreatTrm := time }
    · exact (sound.passed none none (List.mem_append_right _ null)).1 rfl
    · have failed := sound.failed _ _ (pcb_last same) rfl
      simp at failed
    · have failed := sound.failed _ _ (pcb_last same) rfl
      simp at failed
    · exact missing ⟨memory,port,route,free⟩
  | remoteClose id finSent =>
    have unsent : finSent = false := Bool.eq_false_iff.mpr blocked
    have old : c.pcb id = some .established := by
      rcases can with standing | closing
      · exact standing
      · have known := kept.states id .finWait (kept.current closing (by decide)) closing
        simp at known
    rw [remoteClose_current (kept.current old (by decide)) old,unsent] at sound
    have failed := sound.failed id .closeWait (List.getElem?_set_self (List.getElem?_eq_some_iff.mp old).1) rfl
    simp at failed
  | sendDataToSever written => exact blocked trivial
  | connected id => exact blocked trivial
  | error id => exact blocked trivial
  | stackFrees id => exact blocked trivial

theorem boot_kept : Kept .boot [] where
  connected := nofun
  passed := nofun
  others id state pcb := by simp [Connection.pcb,Connection.boot] at pcb
  states := nofun
  once id state pcb := by simp [Connection.pcb,Connection.boot] at pcb
  fresh _ _ := rfl

/-- The connection is sound along a run exactly when every due retry finds memory, a
    route and a free port, and every close has memory for its FIN. -/
theorem connection_lifecycle_iff (inputs : List LinkInput) (can : link.Admissible .boot inputs) :
    link.Throughout LinkSound .boot [] inputs ↔ link.Each AttemptClear .boot inputs :=
  Machine.throughout_iff_each (R := Kept) (fun _ _ kept => kept.sound) (fun _ _ _ => kept_step)
    (fun _ _ _ => sound_lost) boot_kept can
theorem connection_lifecycle_iff_reconnect :
    link.Throughout LinkSound .boot [] [.tcpTestThread 5000 ⟨true,true,true⟩,.connected 0,.sendDataToSever true,
        .remoteClose 0 true,.stackFrees 0,.tcpTestThread 10000 ⟨true,true,true⟩] ↔
      link.Each AttemptClear .boot [.tcpTestThread 5000 ⟨true,true,true⟩,.connected 0,.sendDataToSever true,
        .remoteClose 0 true,.stackFrees 0,.tcpTestThread 10000 ⟨true,true,true⟩] :=
  connection_lifecycle_iff _ (by decide)
/-- A retry while the SYN of an earlier attempt is pending leaves a pcb that nobody
    frees, and when the earlier attempt succeeds `wpcb` is not its pcb. -/
theorem connection_lifecycle_fails :
    link.Admissible .boot [.tcpTestThread 5000 ⟨true,true,true⟩,.tcpTestThread 10000 ⟨true,true,true⟩,.connected 0] ∧
      ¬ link.Throughout LinkSound .boot []
        [.tcpTestThread 5000 ⟨true,true,true⟩,.tcpTestThread 10000 ⟨true,true,true⟩,.connected 0] := by
  refine ⟨by decide,?_⟩
  intro holds
  obtain ⟨id,wpcb,standing⟩ := holds.last.connected (by decide)
  have current : 1 = id := Option.some.inj wpcb
  subst current
  exact absurd standing (by decide)

end Net2Modbus
