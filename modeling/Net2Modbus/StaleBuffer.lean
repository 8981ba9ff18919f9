import Net2Modbus.Traffic

/-!
# What is left in the receive buffers

The dispatchers look at fixed places of buffers that are neither cleared nor
terminated. Which segments and datagrams are handled in the same way whatever
the buffers held before, and which are not.
-/
namespace Net2Modbus

/-- What is sent in answer. -/
def Event.isReply : Event → Bool
  | .tcpWrite _ | .udpSend _ => true
  | _ => false

/-- The gateway with other bytes in `Tdata`. -/
def Gateway.withTdata (tdata : Block UInt8 1500) (g : Gateway) : Gateway := { g with tdata := tdata }

/-- A segment causes the same replies and the same state, but for `Tdata` itself,
    whatever `Tdata` holds. -/
def TcpStaleFree (p : List UInt8) : Prop :=
  ∀ (env : Surroundings) (g : Gateway) (old old' : Block UInt8 1500),
    (tcpClientReciver env p (g.withTdata old)).2.filter Event.isReply =
        (tcpClientReciver env p (g.withTdata old')).2.filter Event.isReply ∧
      (tcpClientReciver env p (g.withTdata old)).1.withTdata old =
        (tcpClientReciver env p (g.withTdata old')).1.withTdata old
/-- A datagram causes the same replies and the same state, whatever the stack holds
    in the place of `data`. -/
def UdpStaleFree (p : List UInt8) : Prop :=
  ∀ (env : Surroundings) (g : Gateway) (old old' : Block UInt8 1024),
    (udpClientCallback env old p g).2.filter Event.isReply = (udpClientCallback env old' p g).2.filter Event.isReply ∧
      (udpClientCallback env old p g).1 = (udpClientCallback env old' p g).1

/-- The bytes that a command needs with its arguments. -/
def Command.needs : Command → Nat
  | .downlink => 8
  | .pollList => 7
  | .setchl => 7
  | .setconfig => 20
  | c => c.word.length

/-- Received bytes that are not the beginning of the word of a command, and have all
    arguments when they start with it; `setconfig` is told from other input by a
    colon behind its address. -/
def Complete (p : List UInt8) (c : Command) : Prop :=
  ¬ (p <+: c.word ∧ p.length < c.word.length) ∧
    (c.word <+: p → (c = .setconfig → 18 ≤ p.length) ∧
      ((c = .setconfig → p.getD 17 0 = 0x3A) → c.needs ≤ p.length))

/-- Segments below 1500 bytes that are complete for each command. -/
def TcpClear (p : List UInt8) : Prop := p.length < 1500 ∧ ∀ c ∈ tcpCommands, Complete p c
/-- Datagrams that are dropped for their length, or complete for each command. -/
def UdpClear (p : List UInt8) : Prop := 1024 ≤ p.length ∨ ∀ c ∈ udpCommands, Complete p c

instance (p : List UInt8) (c : Command) : Decidable (Complete p c) := inferInstanceAs (Decidable (_ ∧ _))
instance (p : List UInt8) : Decidable (TcpClear p) := inferInstanceAs (Decidable (_ ∧ _))
instance (p : List UInt8) : Decidable (UdpClear p) := inferInstanceAs (Decidable (_ ∨ _))

/-- No word is the beginning of another. -/
theorem word_unique {c c' : Command} (front : c.word <+: c'.word) : c = c' := by
  revert front
  cases c <;> cases c' <;> decide

/-- A command fits exactly when the buffer starts with its word, for `setconfig` with
    a colon. -/
theorem fits_iff {size : Nat} (buffer : Block UInt8 size) (room : 18 ≤ size) (c : Command) :
    c.fits buffer = true ↔ c.word <+: buffer.cells ∧ (c = .setconfig → buffer.peek 17 = 0x3A) := by
  have word : strncmpEq buffer 0 c.word = true ↔ c.word <+: buffer.cells := by
    simp only [strncmpEq,beq_iff_eq,Block.slice,List.drop_zero]
    rw [List.prefix_iff_eq_take,eq_comm]
  have colon : strncmpEq buffer 17 (chars [':']) = true ↔ buffer.peek 17 = 0x3A := by
    have one : buffer.slice 17 1 = [buffer.peek 17] := by
      rw [buffer.slice_succ (by omega),Block.slice_zero]
    have same : strncmpEq buffer 17 (chars [':']) = (buffer.slice 17 1 == [0x3A]) := rfl
    rw [same,one]
    simp
  rw [Command.fits,Bool.and_eq_true,Bool.or_eq_true,word,colon]
  by_cases config : c = .setconfig <;> simp [config]

section
variable {size : Nat} {p : List UInt8} {c : Command}

/-- Whether a complete command fits does not depend on what the buffer held before. -/
theorem fits_copy_iff (old : Block UInt8 size) (short : p.length ≤ size) (room : 18 ≤ size) (complete : Complete p c) :
    c.fits (old.copy p) = true ↔ c.word <+: p ∧ (c = .setconfig → p.getD 17 0 = 0x3A) := by
  obtain ⟨whole,arguments⟩ := complete
  have cells := old.copy_cells short
  have front : p <+: (old.copy p).cells := cells ▸ List.prefix_append _ _
  have start : c.word <+: (old.copy p).cells ↔ c.word <+: p := by
    constructor
    · intro word
      by_cases enough : c.word.length ≤ p.length
      · exact List.prefix_of_prefix_length_le word front enough
      · have beyond := Nat.lt_of_not_le enough
        exact absurd ⟨List.prefix_of_prefix_length_le front word (Nat.le_of_lt beyond),beyond⟩ whole
    · exact fun word => word.trans front
  rw [fits_iff _ room,start]
  refine and_congr_right fun word => forall_congr' ?_
  intro config
  have enough := (arguments word).1 config
  rw [Block.peek_copy_of_lt _ (by omega) (by omega)]
  rfl
theorem dispatch_copy (old old' : Block UInt8 size) (short : p.length ≤ size) (room : 18 ≤ size) {commands : List Command}
    (complete : ∀ c ∈ commands, Complete p c) : dispatch commands (old.copy p) = dispatch commands (old'.copy p) := by
  refine List.find?_congr ?_
  intro c member
  have now := complete c member
  exact Bool.eq_iff_iff.mpr ((fits_copy_iff old short room now).trans (fits_copy_iff old' short room now).symm)
/-- A complete command that fits has all its arguments. -/
theorem needs_of_fits {old : Block UInt8 size} (short : p.length ≤ size) (room : 18 ≤ size) (complete : Complete p c)
    (fits : c.fits (old.copy p) = true) : c.needs ≤ p.length := by
  obtain ⟨word,colon⟩ := (fits_copy_iff old short room complete).mp fits
  exact (complete.2 word).2 colon
theorem peek_same (old old' : Block UInt8 size) {i : Nat} (short : p.length ≤ size) (inside : i < p.length) :
    (old.copy p).peek i = (old'.copy p).peek i := by
  rw [Block.peek_copy_of_lt _ (by omega) inside,Block.peek_copy_of_lt _ (by omega) inside]
theorem slice_same (old old' : Block UInt8 size) (offset count : Nat) (short : p.length ≤ size)
    (inside : offset + count ≤ p.length) : (old.copy p).slice offset count = (old'.copy p).slice offset count := by
  rw [Block.slice_copy_part _ _ _ _ (by omega) inside,Block.slice_copy_part _ _ _ _ (by omega) inside]
/-- The arguments of `setconfig` are among the first twenty bytes. -/
theorem setConfig_same (old old' : Block UInt8 size) (client : Client) (short : p.length ≤ size)
    (enough : 20 ≤ p.length) : client.setConfig (old.copy p) = client.setConfig (old'.copy p) := by
  have same (i : Nat) (bound : i < 20) := peek_same old old' short (Nat.lt_of_lt_of_le bound enough)
  simp only [Client.setConfig,same 10 (by decide),same 12 (by decide),same 14 (by decide),same 16 (by decide),
    same 18 (by decide),same 19 (by decide)]
end

theorem tcp_clear_staleFree {p : List UInt8} (clear : TcpClear p) : TcpStaleFree p := by
  obtain ⟨short,complete⟩ := clear
  intro env g old old'
  have fits : p.length ≤ 1500 := Nat.le_of_lt short
  have taken (old : Block UInt8 1500) : (g.withTdata old).copyIn p = old.copy p := if_pos short
  simp only [tcpClientReciver,taken,dispatch_copy old old' fits (by decide) complete]
  cases found : dispatch tcpCommands (old'.copy p) with
  | none => exact ⟨rfl,rfl⟩
  | some c =>
    have enough := needs_of_fits fits (by decide) (complete c (List.mem_of_find?_eq_some found)) (dispatch_fits found)
    cases c with
    | downlink =>
      have count := downlink_lenth enough (by omega)
      have read := slice_same old old' 3 (p.length - 8) fits
        (by have := enough; simp only [Command.needs] at this; omega)
      simp only [tcpExecute,count,read,Gateway.withTdata,and_self]
    | pollList =>
      have count := pollList_lenth enough (by omega)
      have read := slice_same old old' 2 (p.length - 7) fits
        (by have := enough; simp only [Command.needs] at this; omega)
      simp only [tcpExecute,count,read,Gateway.withTdata,and_self]
    | setchl =>
      have read := peek_same old old' (i := 6) fits enough
      simp only [tcpExecute,read,Gateway.withTdata,and_self]
    | setconfig =>
      have read := setConfig_same old old' g.client fits enough
      simp only [tcpExecute,read,Gateway.withTdata,and_self]
    | _ => exact ⟨rfl,rfl⟩
theorem udp_clear_staleFree {p : List UInt8} (clear : UdpClear p) : UdpStaleFree p := by
  intro env g old old'
  by_cases short : p.length < 1024
  · have complete := clear.resolve_left (Nat.not_le_of_lt short)
    have fits : p.length ≤ 1024 := Nat.le_of_lt short
    simp only [udpClientCallback,if_pos short,dispatch_copy old old' fits (by decide) complete]
    cases found : dispatch udpCommands (old'.copy p) with
    | none => exact ⟨rfl,rfl⟩
    | some c =>
      have enough := needs_of_fits fits (by decide) (complete c (List.mem_of_find?_eq_some found)) (dispatch_fits found)
      cases c with
      | setchl =>
        have read := peek_same old old' (i := 6) fits enough
        simp only [udpExecute,read,and_self]
      | setconfig =>
        have read := setConfig_same old old' g.client fits enough
        simp only [udpExecute,read,and_self]
      | _ => exact ⟨rfl,rfl⟩
  · simp only [udpClientCallback,if_neg short,and_self]

/-- A part of a word, or a word without its arguments. -/
theorem incomplete_cases {p : List UInt8} {c : Command} (incomplete : ¬ Complete p c) :
    (∃ n < c.word.length, p = c.word.take n) ∨
    (c.word <+: p ∧ c = .setconfig ∧ p.length < 18) ∨
    (c.word <+: p ∧ (c = .setconfig → 18 ≤ p.length ∧ p.getD 17 0 = 0x3A) ∧ p.length < c.needs) := by
  by_cases part : p <+: c.word ∧ p.length < c.word.length
  · exact .inl ⟨p.length,part.2,List.prefix_iff_eq_take.mp part.1⟩
  · simp only [Complete,part,not_false_eq_true,true_and,Classical.not_imp,not_and_or,Nat.not_le] at incomplete
    obtain ⟨word,⟨config,few⟩ | ⟨colon,few⟩⟩ := incomplete
    · exact .inr (.inl ⟨word,config,few⟩)
    · by_cases config : c = .setconfig ∧ p.length < 18
      · exact .inr (.inl ⟨word,config⟩)
      · exact .inr (.inr ⟨word,fun same => ⟨Nat.le_of_not_lt fun less => config ⟨same,less⟩,colon same⟩,few⟩)

section
variable {size : Nat} {commands : List Command} {buffer : Block UInt8 size} {c : Command}

theorem dispatch_some (room : 18 ≤ size) (member : c ∈ commands) (fits : c.fits buffer = true) :
    dispatch commands buffer = some c := by
  obtain ⟨found,same⟩ := Option.isSome_iff_exists.mp (List.find?_isSome.mpr ⟨c,member,fits⟩)
  have first := (fits_iff buffer room found).mp (List.find?_some same)
  have word := (fits_iff buffer room c).mp fits
  rw [dispatch,same]
  rcases List.prefix_or_prefix_of_prefix first.1 word.1 with front | front
  · rw [word_unique front]
  · rw [word_unique front]
theorem dispatch_none (room : 18 ≤ size) (word : c.word <+: buffer.cells) (unfit : c.fits buffer = false) :
    dispatch commands buffer = none := by
  refine List.find?_eq_none.mpr ?_
  intro other _ fits
  have first := (fits_iff buffer room other).mp fits
  have same : other = c := by
    rcases List.prefix_or_prefix_of_prefix first.1 word with front | front
    · exact word_unique front
    · exact (word_unique front).symm
  rw [same,unfit] at fits
  contradiction
end

section
variable {size : Nat} {p : List UInt8} {c : Command}

/-- The word of a received command stands in the buffer. -/
theorem word_copy (old : Block UInt8 size) (short : p.length ≤ size) (word : c.word <+: p) :
    c.word <+: (old.copy p).cells := by
  rw [old.copy_cells short]
  exact word.trans (List.prefix_append _ _)
/-- A place behind what was received still holds what was there. -/
theorem peek_stale (byte : UInt8) {i : Nat} (bound : i < size) (behind : p.length ≤ i) :
    ((Block.fill byte : Block UInt8 size).copy p).peek i = byte := by
  rw [Block.peek_copy_of_le _ bound behind,Block.peek_fill _ bound]
/-- Which command is found when the word has come, and the colon of `setconfig` has
    come, or has not. -/
theorem dispatch_word (byte : UInt8) {commands : List Command} (room : 18 ≤ size) (short : p.length ≤ size)
    (member : c ∈ commands) (word : c.word <+: p) (colon : c = .setconfig → 18 ≤ p.length ∧ p.getD 17 0 = 0x3A) :
    dispatch commands ((Block.fill byte : Block UInt8 size).copy p) = some c := by
  refine dispatch_some room member ((fits_iff _ room c).mpr ⟨word_copy _ short word,?_⟩)
  intro config
  obtain ⟨enough,same⟩ := colon config
  rw [Block.peek_copy_of_lt _ (by omega) (by omega)]
  exact same
theorem dispatch_colon (commands : List Command) (room : 18 ≤ size) (member : .setconfig ∈ commands)
    (word : Command.word .setconfig <+: p) (few : p.length < 18) :
    dispatch commands ((Block.fill 0x3A : Block UInt8 size).copy p) = some .setconfig ∧
      dispatch commands ((Block.fill 0 : Block UInt8 size).copy p) = none := by
  have start (byte : UInt8) := word_copy (Block.fill byte : Block UInt8 size) (by omega) word
  constructor
  · exact dispatch_some room member
      ((fits_iff _ room _).mpr ⟨start 0x3A,fun _ => peek_stale 0x3A (by omega) (by omega)⟩)
  · refine dispatch_none room (start 0) (Bool.eq_false_iff.mpr ?_)
    intro fit
    have colon := ((fits_iff _ room _).mp fit).2 rfl
    rw [peek_stale 0 (by omega) (by omega)] at colon
    contradiction
/-- A copy that goes beyond what was received takes what was there. -/
theorem peek_copy_stale {target : Nat} (b : Block UInt8 target) (byte : UInt8) {offset count i : Nat} (bound : i < target)
    (inside : i < count) (there : offset + i < size) (behind : p.length ≤ offset + i) :
    (b.copy (((Block.fill byte : Block UInt8 size).copy p).slice offset count)).peek i = byte := by
  rw [Block.peek_copy_of_lt _ bound (by simp [Block.slice]; omega),Block.getD_slice _ inside,peek_stale byte there behind]
/-- The channel of `setchl` without its byte, and the port of `setconfig` without its
    last one. -/
theorem store_stale {client : Client} (room : 7 ≤ size) (short : p.length < 7) :
    (client.store 3 (((Block.fill 0 : Block UInt8 size).copy p).peek 6).toUInt32).flashNetBuf ≠
      (client.store 3 (((Block.fill 1 : Block UInt8 size).copy p).peek 6).toUInt32).flashNetBuf := by
  intro same
  have word := congrArg (fun words => words.peek 3) same
  simp only [Client.store] at word
  rw [Block.peek_poke _ _ (by decide),Block.peek_poke _ _ (by decide),peek_stale 0 (by omega) (by omega),
    peek_stale 1 (by omega) (by omega)] at word
  contradiction
theorem setConfig_stale {client : Client} (room : 20 ≤ size) (short : p.length < 20) :
    (client.setConfig ((Block.fill 0 : Block UInt8 size).copy p)).portSever ≠
      (client.setConfig ((Block.fill 1 : Block UInt8 size).copy p)).portSever := by
  have first : ((Block.fill 0 : Block UInt8 size).copy p).peek 19 = 0 := peek_stale 0 (by omega) (by omega)
  have second : ((Block.fill 1 : Block UInt8 size).copy p).peek 19 = 1 := peek_stale 1 (by omega) (by omega)
  intro same
  have low := congrArg (fun port => port.toNat % 256) same
  simp only [Client.setConfig,first,second] at low
  simp [UInt16.toNat_add,UInt16.toNat_shiftLeft,Nat.shiftLeft_eq] at low
end

/-- A gateway and surroundings to run both on. -/
def idleGateway : Gateway := gatewayStarted .boot ⟨0,0,0⟩ false
/-- A whole command word, with a colon at the place of `setconfig`. -/
def Command.sample (c : Command) : List UInt8 := c.word ++ List.replicate (17 - c.word.length) 0 ++ [0x3A]

theorem tcp_some (env : Surroundings) (g : Gateway) {old : Block UInt8 1500} {p : List UInt8} {c : Command}
    (short : p.length < 1500) (found : dispatch tcpCommands (old.copy p) = some c) :
    (tcpClientReciver env p (g.withTdata old)).1 = (tcpExecute env p.length c (g.withTdata (old.copy p))).1 ∧
      (tcpClientReciver env p (g.withTdata old)).2.filter Event.isReply =
        (tcpExecute env p.length c (g.withTdata (old.copy p))).2.filter Event.isReply := by
  have taken : (g.withTdata old).copyIn p = old.copy p := if_pos short
  simp only [tcpClientReciver,taken,found,if_pos short]
  exact ⟨rfl,rfl⟩
theorem tcp_none (env : Surroundings) (g : Gateway) {old : Block UInt8 1500} {p : List UInt8}
    (short : p.length < 1500) (none : dispatch tcpCommands (old.copy p) = none) :
    (tcpClientReciver env p (g.withTdata old)).2.filter Event.isReply = [] := by
  have taken : (g.withTdata old).copyIn p = old.copy p := if_pos short
  simp only [tcpClientReciver,taken,none,if_pos short]
  rfl

/-- What a reply or a change of state can show of two runs on a part of a word. -/
def TcpDiffers (p : List UInt8) (old old' : Block UInt8 1500) : Prop :=
  let r := tcpClientReciver .plain p (idleGateway.withTdata old)
  let r' := tcpClientReciver .plain p (idleGateway.withTdata old')
  r.2.filter Event.isReply ≠ r'.2.filter Event.isReply ∨ r.1.client.waiting ≠ r'.1.client.waiting ∨
    r.1.tcpRecvLenth ≠ r'.1.tcpRecvLenth

instance (p : List UInt8) (old old' : Block UInt8 1500) : Decidable (TcpDiffers p old old') :=
  inferInstanceAs (Decidable (_ ∨ _ ∨ _))

theorem tcp_differs {p : List UInt8} {old old' : Block UInt8 1500} (differs : TcpDiffers p old old') :
    ¬ TcpStaleFree p := by
  intro free
  obtain ⟨replies,state⟩ := free .plain idleGateway old old'
  rcases differs with other | other | other
  · exact other replies
  · exact other (congrArg (fun g => g.client.waiting) state)
  · exact other (congrArg (fun g => g.tcpRecvLenth) state)
/-- A part of a word is a command when the buffer holds the rest of it. -/
theorem tcp_part : ∀ c ∈ tcpCommands, ∀ n < c.word.length,
    TcpDiffers (c.word.take n) ((Block.fill 0).copy c.sample) (.fill 0) := by
  decide
/-- A segment of 1500 bytes or more is a command when the buffer holds one. -/
theorem tcp_long {p : List UInt8} (long : 1500 ≤ p.length) : ¬ TcpStaleFree p := by
  suffices differs : TcpDiffers p ((Block.fill 0).copy (Command.word .reboot)) (.fill 0) from tcp_differs differs
  refine .inr (.inl ?_)
  have kept (old : Block UInt8 1500) : (idleGateway.withTdata old).copyIn p = old := if_neg (Nat.not_lt_of_le long)
  have found : dispatch tcpCommands ((Block.fill 0 : Block UInt8 1500).copy (Command.word .reboot)) = some .reboot := by
    decide
  have none : dispatch tcpCommands (Block.fill 0 : Block UInt8 1500) = none := by decide
  simp only [tcpClientReciver,kept,found,none,tcpExecute]
  decide

/-- A command with the word alone, run over zeros and over ones. -/
theorem tcp_arguments {p : List UInt8} {c : Command} (short : p.length < 1500) (member : c ∈ tcpCommands)
    (word : c.word <+: p) (colon : c = .setconfig → 18 ≤ p.length ∧ p.getD 17 0 = 0x3A) (few : p.length < c.needs) :
    ¬ TcpStaleFree p := by
  intro free
  have found (byte : UInt8) := dispatch_word byte (by decide : 18 ≤ 1500) (Nat.le_of_lt short) member word colon
  obtain ⟨-,state⟩ := free .plain idleGateway (.fill 0) (.fill 1)
  rw [(tcp_some .plain idleGateway short (found 0)).1,(tcp_some .plain idleGateway short (found 1)).1] at state
  cases c with
  | downlink =>
    have wraps := downlink_lenth_wraps few
    have same := congrArg (fun g => g.tcpRecvBuf.peek 1496) state
    simp only [Command.needs] at few
    simp only [tcpExecute,Gateway.withTdata] at same
    rw [peek_copy_stale _ 0 (by decide) (by omega) (by decide) (by omega),
      peek_copy_stale _ 1 (by decide) (by omega) (by decide) (by omega)] at same
    contradiction
  | pollList =>
    have wraps := pollList_lenth_wraps few
    have same := congrArg (fun g => g.poller.tcp2Rs485CmdList.peek 1399) state
    simp only [Command.needs] at few
    simp only [tcpExecute,Gateway.withTdata] at same
    rw [peek_copy_stale _ 0 (by decide) (by omega) (by decide) (by omega),
      peek_copy_stale _ 1 (by decide) (by omega) (by decide) (by omega)] at same
    contradiction
  | setchl =>
    have same := congrArg (fun g => g.client.flashNetBuf) state
    exact store_stale (by decide) few same
  | setconfig =>
    have same := congrArg (fun g => g.client.portSever) state
    exact setConfig_stale (by decide) few same
  | _ => exact absurd word.length_le (Nat.not_le_of_lt few)
/-- `setconfig` without its colon is a command when the buffer has one. -/
theorem tcp_colon {p : List UInt8} (word : Command.word .setconfig <+: p) (few : p.length < 18) : ¬ TcpStaleFree p := by
  intro free
  obtain ⟨found,none⟩ := dispatch_colon tcpCommands (by decide : 18 ≤ 1500) (by decide) word few
  obtain ⟨replies,-⟩ := free .plain idleGateway (.fill 0x3A) (.fill 0)
  rw [(tcp_some .plain idleGateway (by omega) found).2,tcp_none .plain idleGateway (by omega) none] at replies
  simp [tcpExecute,Event.isReply] at replies

theorem tcp_staleFree_clear {p : List UInt8} (free : TcpStaleFree p) : TcpClear p := by
  have short : p.length < 1500 := by
    by_contra long
    exact tcp_long (Nat.le_of_not_lt long) free
  refine ⟨short,?_⟩
  intro c member
  by_contra incomplete
  obtain ⟨n,inner,rfl⟩ | ⟨word,rfl,few⟩ | ⟨word,colon,few⟩ := incomplete_cases incomplete
  · exact tcp_differs (tcp_part c member n inner) free
  · exact tcp_colon word few free
  · exact tcp_arguments short member word colon few free

theorem udp_some (env : Surroundings) (g : Gateway) {old : Block UInt8 1024} {p : List UInt8} {c : Command}
    (short : p.length < 1024) (found : dispatch udpCommands (old.copy p) = some c) :
    (udpClientCallback env old p g).1 = (udpExecute env (old.copy p) c g).1 ∧
      (udpClientCallback env old p g).2.filter Event.isReply =
        (udpExecute env (old.copy p) c g).2.filter Event.isReply := by
  simp only [udpClientCallback,found,if_pos short]
  exact ⟨trivial,rfl⟩
theorem udp_none (env : Surroundings) (g : Gateway) {old : Block UInt8 1024} {p : List UInt8}
    (short : p.length < 1024) (none : dispatch udpCommands (old.copy p) = none) :
    (udpClientCallback env old p g).2.filter Event.isReply = [] := by
  simp only [udpClientCallback,none,if_pos short]
  rfl

/-- What a reply or a change of state can show of two runs on a part of a word. -/
def UdpDiffers (p : List UInt8) (old old' : Block UInt8 1024) : Prop :=
  let r := udpClientCallback .plain old p idleGateway
  let r' := udpClientCallback .plain old' p idleGateway
  r.2.filter Event.isReply ≠ r'.2.filter Event.isReply ∨ r.1.client.waiting ≠ r'.1.client.waiting

instance (p : List UInt8) (old old' : Block UInt8 1024) : Decidable (UdpDiffers p old old') :=
  inferInstanceAs (Decidable (_ ∨ _))

theorem udp_differs {p : List UInt8} {old old' : Block UInt8 1024} (differs : UdpDiffers p old old') :
    ¬ UdpStaleFree p := by
  intro free
  obtain ⟨replies,state⟩ := free .plain idleGateway old old'
  rcases differs with other | other
  · exact other replies
  · exact other (congrArg (fun g => g.client.waiting) state)
theorem udp_part : ∀ c ∈ udpCommands, ∀ n < c.word.length,
    UdpDiffers (c.word.take n) ((Block.fill 0).copy c.sample) (.fill 0) := by
  decide
theorem udp_arguments {p : List UInt8} {c : Command} (short : p.length < 1024) (member : c ∈ udpCommands)
    (word : c.word <+: p) (colon : c = .setconfig → 18 ≤ p.length ∧ p.getD 17 0 = 0x3A) (few : p.length < c.needs) :
    ¬ UdpStaleFree p := by
  intro free
  have found (byte : UInt8) := dispatch_word byte (by decide : 18 ≤ 1024) (Nat.le_of_lt short) member word colon
  obtain ⟨-,state⟩ := free .plain idleGateway (.fill 0) (.fill 1)
  rw [(udp_some .plain idleGateway short (found 0)).1,(udp_some .plain idleGateway short (found 1)).1] at state
  cases c with
  | downlink => exact absurd member (by decide)
  | pollList => exact absurd member (by decide)
  | setchl =>
    have same := congrArg (fun g => g.client.flashNetBuf) state
    exact store_stale (by decide) few same
  | setconfig =>
    have same := congrArg (fun g => g.client.portSever) state
    exact setConfig_stale (by decide) few same
  | _ => exact absurd word.length_le (Nat.not_le_of_lt few)
theorem udp_colon {p : List UInt8} (word : Command.word .setconfig <+: p) (few : p.length < 18) : ¬ UdpStaleFree p := by
  intro free
  obtain ⟨found,none⟩ := dispatch_colon udpCommands (by decide : 18 ≤ 1024) (by decide) word few
  obtain ⟨replies,-⟩ := free .plain idleGateway (.fill 0x3A) (.fill 0)
  rw [(udp_some .plain idleGateway (by omega) found).2,udp_none .plain idleGateway (by omega) none] at replies
  simp [udpExecute,udpReply,Surroundings.plain,Event.isReply] at replies

theorem udp_staleFree_clear {p : List UInt8} (free : UdpStaleFree p) : UdpClear p := by
  by_cases long : 1024 ≤ p.length
  · exact .inl long
  · have short := Nat.lt_of_not_le long
    refine .inr ?_
    intro c member
    by_contra incomplete
    obtain ⟨n,inner,rfl⟩ | ⟨word,rfl,few⟩ | ⟨word,colon,few⟩ := incomplete_cases incomplete
    · exact udp_differs (udp_part c member n inner) free
    · exact udp_colon word few free
    · exact udp_arguments short member word colon few free

/-- What the buffers held before does not matter exactly for segments below 1500
    bytes and datagrams that are complete, and for datagrams that are dropped. -/
theorem stale_buffer_iff (p : List UInt8) : (TcpStaleFree p ↔ TcpClear p) ∧ (UdpStaleFree p ↔ UdpClear p) :=
  ⟨⟨tcp_staleFree_clear,tcp_clear_staleFree⟩,⟨udp_staleFree_clear,udp_clear_staleFree⟩⟩
/-- The first three letters of `reboot` reset the board, over TCP and over UDP, when
    the buffer still holds the rest of the word. -/
theorem stale_buffer_fails :
    ¬ TcpStaleFree (chars ['r','e','b']) ∧ ¬ UdpStaleFree (chars ['r','e','b']) :=
  ⟨tcp_differs (tcp_part .reboot (by decide) 3 (by decide)),udp_differs (udp_part .reboot (by decide) 3 (by decide))⟩

end Net2Modbus
