import Net2Modbus.TftpResources
import Net2Modbus.TftpWrite

/-!
# Whether the server for files can be reached

Port 69 takes requests while no transfer is open, and a transfer whose client is gone has
to end by itself. Reads are ended by `TftpTrm250ms`; nothing ends a write.
-/
namespace Net2Modbus

/-- What `op` the open transfer of a control block has. -/
def opOf (pcbs : List (Option TftpArgs)) (n : Nat) : Option UInt8 := (pcbs[n]?).join.map TftpArgs.op

/-- Port 69 is served exactly while no transfer is open, the timeout runs for an open
    transfer, and 86 ticks without packets end it. -/
structure TftpAvailable (s : TftpServer) : Prop where
  listening : s.port69 = true ↔ ∀ n, s.args n = none
  armed : ∀ n, s.args n ≠ none → s.tftptimeoutTimer = true ∧ s.timeoutupcb = n
  returns : ∀ envs : List TftpEnv, envs.length = 86 →
    (tftp.after s (envs.map .tick)).port69 = true ∧ ∀ n, (tftp.after s (envs.map .tick)).args n = none

/-- A request that opens a file. -/
def TftpInput.Opens (op : UInt8) : TftpInput → Prop
  | .request env _ p => ∃ file, OpensFile op env p file
  | _ => False
/-- The input opens no write. -/
def OpensNoWrite (_ : TftpServer) (i : TftpInput) : Prop := ¬ i.Opens tftpWrq

/-- Nothing is opened or closed, the open transfer is closed, or one is opened while none
    was open. -/
inductive TftpTurn (i : TftpInput) (s s' : TftpServer) : Prop
  | stays (ops : opOf s'.pcbs = opOf s.pcbs) (port : s'.port69 = s.port69)
      (timer : s'.tftptimeoutTimer = s.tftptimeoutTimer) (same : s'.timeoutupcb = s.timeoutupcb)
  | closes (n : Nat) (active : opOf s.pcbs n ≠ none) (ops : opOf s'.pcbs = Function.update (opOf s.pcbs) n none)
      (port : s'.port69 = true)
      (timer : s'.tftptimeoutTimer = false ∨ opOf s.pcbs n ≠ some tftpRrq ∧
        s'.tftptimeoutTimer = s.tftptimeoutTimer ∧ s'.timeoutupcb = s.timeoutupcb)
  | opens (n : Nat) (op : UInt8) (requested : i.Opens op) (ops : opOf s'.pcbs = Function.update (opOf s.pcbs) n (some op))
      (before : s.port69 = true) (port : s'.port69 = false)
      (timer : op = tftpRrq ∧ s'.tftptimeoutTimer = true ∧ s'.timeoutupcb = n ∨
        op = tftpWrq ∧ s'.tftptimeoutTimer = s.tftptimeoutTimer)

section
variable {pcbs : List (Option TftpArgs)} {n : Nat} {args args' : TftpArgs}

variable (pcbs n) in
theorem opOf_close : opOf (pcbs.set n none) = Function.update (opOf pcbs) n none := by
  funext k
  rw [Function.update_apply,opOf]
  split
  next same =>
    rw [same,List.getElem?_set_self']
    cases pcbs[n]? <;> rfl
  next other =>
    rw [List.getElem?_set_ne (Ne.symm other)]
    rfl
variable (pcbs) in
theorem opOf_new : opOf (pcbs ++ [none]) = opOf pcbs := by
  funext k
  unfold opOf
  by_cases old : k < pcbs.length
  · rw [List.getElem?_append_left old]
  · rw [List.getElem?_append_right (Nat.le_of_not_lt old),List.getElem?_eq_none (Nat.le_of_not_lt old)]
    cases k - pcbs.length <;> rfl
variable (pcbs args) in
theorem opOf_open : opOf ((pcbs ++ [none]).set pcbs.length (some args)) =
    Function.update (opOf pcbs) pcbs.length (some args.op) := by
  funext k
  rw [Function.update_apply,← opOf_new pcbs,opOf]
  split
  next same =>
    rw [same,List.getElem?_set_self (by simp)]
    rfl
  next other =>
    rw [List.getElem?_set_ne (Ne.symm other)]
    rfl
theorem opOf_modify (registered : (pcbs[n]?).join = some args) (op : args'.op = args.op) :
    opOf (pcbs.modify n (Option.map fun _ => args')) = opOf pcbs := by
  funext k
  by_cases same : n = k
  · subst same
    rw [opOf,opOf,List.getElem?_modify_eq,registered]
    rw [Option.join_eq_some_iff] at registered
    rw [registered]
    exact congrArg some op
  · rw [opOf,opOf,List.getElem?_modify_ne _ _ same]
theorem opOf_args {s : TftpServer} (registered : s.args n = some args) : opOf s.pcbs n = some args.op := by
  rw [TftpServer.args] at registered
  rw [opOf,registered]
  rfl
theorem args_none_iff {s : TftpServer} : s.args n = none ↔ opOf s.pcbs n = none := Option.map_eq_none_iff.symm

end

section
variable {s : TftpServer} {env : TftpEnv} {addr : Peer} {p : Packet} {n : Nat} {args : TftpArgs}

/-- A request that opens nothing leaves everything as it was. -/
theorem refused_turn (port : s.port69 = true) {i : TftpInput} {s' : TftpServer} (ops : opOf s'.pcbs = opOf s.pcbs)
    (listens : s'.port69 = true) (timer : s'.tftptimeoutTimer = s.tftptimeoutTimer)
    (same : s'.timeoutupcb = s.timeoutupcb) : TftpTurn i s s' :=
  .stays ops (listens.trans port.symm) timer same
theorem cleanup_turn (port : s.port69 = true) {i : TftpInput} {s' : TftpServer}
    (pcbs : s'.pcbs = (s.pcbs ++ [none]).set s.pcbs.length none) (listens : s'.port69 = true)
    (timer : s'.tftptimeoutTimer = s.tftptimeoutTimer) (same : s'.timeoutupcb = s.timeoutupcb) : TftpTurn i s s' := by
  refine refused_turn port ?_ listens timer same
  have fresh : opOf s.pcbs s.pcbs.length = none := by simp [opOf]
  rw [pcbs,opOf_close,opOf_new,← fresh,Function.update_eq_self]
variable (env addr p) in
theorem request_turn (port : s.port69 = true) :
    TftpTurn (.request env addr p) s (tftp.step s (.request env addr p)).1 ∧
      (tftp.step s (.request env addr p)).1.tftptimeout = s.tftptimeout := by
  have new := opOf_new s.pcbs
  rcases request_cases s env addr p with alone | ⟨done,requested,step⟩
  · rw [alone]
    exact ⟨refused_turn port rfl rfl rfl rfl,rfl⟩
  · rw [step]
    cases requested with
    | unbound => exact ⟨refused_turn port new rfl rfl rfl,rfl⟩
    | refused code => exact ⟨refused_turn port new rfl rfl rfl,rfl⟩
    | reads made bind opcode init dir =>
      unfold tftpProcessRead
      cases fopen : env.fopen with
      | none => exact ⟨cleanup_turn port rfl rfl rfl rfl,rfl⟩
      | some file =>
        by_cases malloc : env.memMalloc = true
        · simp only [if_pos malloc]
          exact ⟨.opens s.pcbs.length tftpRrq ⟨file,made,bind,opcode,init,dir,fopen,malloc⟩ (opOf_open ..) port rfl
            (.inl ⟨rfl,rfl,rfl⟩),rfl⟩
        · simp only [if_neg malloc]
          exact ⟨cleanup_turn port rfl rfl rfl rfl,rfl⟩
    | writes made bind opcode init dir =>
      unfold tftpProcessWrite
      cases fopen : env.fopen with
      | none => exact ⟨cleanup_turn port rfl rfl rfl rfl,rfl⟩
      | some file =>
        by_cases malloc : env.memMalloc = true
        · simp only [if_pos malloc]
          exact ⟨.opens s.pcbs.length tftpWrq ⟨file,made,bind,opcode,init,dir,fopen,malloc⟩ (opOf_open ..) port rfl
            (.inr ⟨rfl,rfl⟩),trivial⟩
        · simp only [if_neg malloc]
          exact ⟨cleanup_turn port rfl rfl rfl rfl,rfl⟩

variable (env addr p) in
theorem rrq_turn (registered : s.args n = some args) (read : args.op = tftpRrq) :
    TftpTurn (.data env n addr p) s (tftp.step s (.data env n addr p)).1 ∧
      (tftp.step s (.data env n addr p)).1.tftptimeout = 0 := by
  have op := opOf_args registered
  rw [rrq_step registered read]
  generalize counted : (if tftpIsCorrectAck p args.block then { args with block := args.block + 1 } else args) = args'
  have same : args'.op = args.op := by
    rw [← counted]
    split <;> rfl
  simp only [rrqRecvCallback,counted]
  by_cases short : args'.dataLen < tftpDataLenMax
  · simp only [if_pos short]
    exact ⟨.closes n (op ▸ Option.some_ne_none _) (opOf_close ..) rfl (.inl rfl),rfl⟩
  · simp only [if_neg short]
    exact ⟨.stays (opOf_modify registered same) rfl rfl rfl,rfl⟩

variable (env addr p) in
theorem wrq_turn (registered : s.args n = some args) (write : args.op ≠ tftpRrq) :
    TftpTurn (.data env n addr p) s (tftp.step s (.data env n addr p)).1 ∧
      (tftp.step s (.data env n addr p)).1.tftptimeout = s.tftptimeout := by
  have op := opOf_args registered
  have other : opOf s.pcbs n ≠ some tftpRrq := fun read => write (Option.some.inj (op.symm.trans read))
  have active : opOf s.pcbs n ≠ none := op ▸ Option.some_ne_none _
  rw [wrq_step registered write]
  unfold wrqRecvCallback
  by_cases chained : p.Chained
  · simp only [if_pos chained]
    exact ⟨.stays rfl rfl rfl rfl,trivial⟩
  · simp only [if_neg chained]
    rcases wrqAccept_cases n env addr s args p with ⟨-,⟨file,kept⟩,same,-⟩ | ⟨-,-,-,closed⟩
    · have ops : opOf (s.pcbs.modify n (Option.map fun _ => (wrqAccept env n args addr p s).2.1)) = opOf s.pcbs :=
        opOf_modify registered same
      simp only [kept]
      by_cases short : p.bytes.length < tftpDataPktLenMax
      · simp only [if_pos short]
        refine ⟨.closes n active ?_ rfl (.inr ⟨other,rfl,rfl⟩),rfl⟩
        rw [← ops]
        exact opOf_close ..
      · simp only [if_neg short]
        exact ⟨.stays ops rfl rfl rfl,rfl⟩
    · have gone : ((s.pcbs.set n none)[n]?).join = none := set_none_args s n
      have ops : opOf ((s.pcbs.set n none).modify n (Option.map fun _ => (wrqAccept env n args addr p s).2.1)) =
          Function.update (opOf s.pcbs) n none := by
        rw [← opOf_close]
        funext k
        rw [opOf,opOf,List.getElem?_modify]
        split
        next same =>
          subst same
          rcases there : (s.pcbs.set n none)[n]? with _ | _ | _
          · rfl
          · rfl
          · rw [there] at gone
            contradiction
        next => cases (s.pcbs.set n none)[k]? <;> rfl
      simp only [closed]
      by_cases short : p.bytes.length < tftpDataPktLenMax
      · simp only [if_pos short]
        refine ⟨.closes n active ?_ rfl (.inr ⟨other,rfl,rfl⟩),rfl⟩
        have twice : Function.update (Function.update (opOf s.pcbs) n none) n none = Function.update (opOf s.pcbs) n none :=
          Function.update_idem ..
        rw [← twice,← ops]
        exact opOf_close ..
      · simp only [if_neg short]
        exact ⟨.closes n active ops rfl (.inr ⟨other,rfl,rfl⟩),rfl⟩

end

/-- What holds whatever is requested: one transfer at a time, and the timeout is that of the
    open read. -/
structure TftpTurns (s : TftpServer) : Prop where
  listening : s.port69 = true ↔ ∀ n, opOf s.pcbs n = none
  single : ∀ n m, opOf s.pcbs n ≠ none → opOf s.pcbs m ≠ none → n = m
  owned : s.tftptimeoutTimer = true → opOf s.pcbs s.timeoutupcb = some tftpRrq
  count : s.tftptimeout ≤ 85

section
variable {s s' : TftpServer} {i : TftpInput} {env : TftpEnv} {n : Nat}

/-- Nothing is open once the only transfer is closed. -/
theorem TftpTurns.closed (turns : TftpTurns s) (active : opOf s.pcbs n ≠ none) (k : Nat) :
    Function.update (opOf s.pcbs) n none k = none := by
  rw [Function.update_apply]
  split
  next => rfl
  next other =>
    by_contra still
    exact other (turns.single k n still active)
theorem TftpTurns.idle (turns : TftpTurns s) (free : ∀ n, opOf s.pcbs n = none) : s.tftptimeoutTimer = false := by
  by_contra on
  have read := turns.owned (Bool.eq_true_of_not_eq_false on)
  rw [free] at read
  contradiction
theorem TftpTurn.keeps (turn : TftpTurn i s s') (turns : TftpTurns s) (count : s'.tftptimeout ≤ 85) : TftpTurns s' := by
  obtain ⟨listening,single,owned,-⟩ := id turns
  cases turn with
  | stays ops port timer same =>
    refine ⟨?_,?_,?_,count⟩
    · rw [port,ops]
      exact listening
    · rw [ops]
      exact single
    · rw [timer,ops,same]
      exact owned
  | closes n active ops port timer =>
    have closed (k : Nat) : opOf s'.pcbs k = none := ops ▸ turns.closed active k
    refine ⟨iff_of_true port closed,fun m _ there => absurd (closed m) there,?_,count⟩
    intro on
    rcases timer with off | ⟨other,timer,same⟩
    · rw [off] at on
      contradiction
    · -- The timeout of the open read runs, so this transfer is that read.
      have read := owned (timer ▸ on)
      have mine := single n s.timeoutupcb active (read ▸ Option.some_ne_none _)
      exact absurd (mine ▸ read) other
  | opens n op requested ops before port timer =>
    have free := listening.mp before
    have only (k : Nat) (there : opOf s'.pcbs k ≠ none) : k = n := by
      rw [ops,Function.update_apply] at there
      by_contra other
      rw [if_neg other] at there
      exact there (free k)
    have here : opOf s'.pcbs n = some op := by rw [ops,Function.update_self]
    refine ⟨?_,fun k m one other => (only k one).trans (only m other).symm,?_,count⟩
    · rw [port]
      refine iff_of_false Bool.false_ne_true ?_
      intro all
      rw [all n] at here
      contradiction
    · intro on
      rcases timer with ⟨read,-,same⟩ | ⟨-,timer⟩
      · rw [same,here,read]
      · have read := owned (timer ▸ on)
        rw [free] at read
        contradiction

theorem tick_turn (turns : TftpTurns s) :
    TftpTurn (.tick env) s (tftp.step s (.tick env)).1 ∧ (tftp.step s (.tick env)).1.tftptimeout ≤ 85 := by
  simp only [tftp,tftpStep,tftpTrm250ms]
  by_cases on : s.tftptimeoutTimer = true
  · rw [if_pos on]
    by_cases late : 85 < s.tftptimeout + 1
    · rw [if_pos late]
      exact ⟨.closes s.timeoutupcb (turns.owned on ▸ Option.some_ne_none _) (opOf_close ..) rfl (.inl rfl),UInt8.zero_le⟩
    · rw [if_neg late]
      exact ⟨.stays rfl rfl rfl rfl,UInt8.not_lt.mp late⟩
  · rw [if_neg on]
    exact ⟨.stays rfl rfl rfl rfl,turns.count⟩
theorem TftpTurns.turn (turns : TftpTurns s) (enabled : tftp.enabled s i) :
    TftpTurn i s (tftp.step s i).1 ∧ TftpTurns (tftp.step s i).1 := by
  have done : TftpTurn i s (tftp.step s i).1 ∧ (tftp.step s i).1.tftptimeout ≤ 85 := by
    cases i with
    | request env addr p =>
      obtain ⟨turn,same⟩ := request_turn env addr p enabled.1
      exact ⟨turn,same ▸ turns.count⟩
    | tick env => exact tick_turn turns
    | data env n addr p =>
      obtain ⟨args,registered⟩ := Option.isSome_iff_exists.mp enabled.1
      by_cases read : args.op = tftpRrq
      · obtain ⟨turn,zero⟩ := rrq_turn env addr p registered read
        exact ⟨turn,zero ▸ UInt8.zero_le⟩
      · obtain ⟨turn,same⟩ := wrq_turn env addr p registered read
        exact ⟨turn,same ▸ turns.count⟩
  exact ⟨done.1,done.1.keeps turns done.2⟩
theorem started_turns : TftpTurns tftpStarted :=
  ⟨iff_of_true rfl fun _ => rfl,fun _ _ there => absurd rfl there,fun on => Bool.noConfusion on,UInt8.zero_le⟩

/-- The timeout runs for the open transfer. -/
def TftpArmed (s : TftpServer) : Prop := ∀ n, opOf s.pcbs n ≠ none → s.tftptimeoutTimer = true

/-- Without a new write the timeout goes on for the open transfer. -/
theorem TftpTurn.armed (turn : TftpTurn i s s') (turns : TftpTurns s) (armed : TftpArmed s) (noWrite : ¬ i.Opens tftpWrq) :
    TftpArmed s' := by
  intro m there
  cases turn with
  | stays ops _ timer _ => exact timer ▸ armed m (ops ▸ there)
  | closes n active ops _ _ => exact absurd (ops ▸ turns.closed active m) there
  | opens n op requested _ _ _ timer =>
    rcases timer with ⟨-,on,-⟩ | ⟨write,-⟩
    · exact on
    · exact absurd (write ▸ requested) noWrite

theorem ticks_idle (off : s.tftptimeoutTimer = false) (envs : List TftpEnv) : tftp.after s (envs.map .tick) = s := by
  have step (env : TftpEnv) : (tftp.step s (.tick env)).1 = s := by simp [tftp,tftpStep,tftpTrm250ms,off]
  induction envs with
  | nil => rfl
  | cons env rest ih =>
    rw [List.map_cons,Machine.after_cons,step env]
    exact ih
/-- The ticks that are left until the timeout. -/
theorem ticks_return (turns : TftpTurns s) (armed : TftpArmed s) (envs : List TftpEnv)
    (enough : 86 ≤ s.tftptimeout.toNat + envs.length) :
    (tftp.after s (envs.map .tick)).port69 = true ∧ ∀ n, opOf (tftp.after s (envs.map .tick)).pcbs n = none := by
  induction envs generalizing s with
  | nil =>
    have count := UInt8.le_iff_toNat_le.mp turns.count
    simp at enough count
    omega
  | cons env rest ih =>
    obtain ⟨turn,later⟩ := turns.turn (i := .tick env) trivial
    rw [List.map_cons,Machine.after_cons]
    by_cases on : s.tftptimeoutTimer = true
    · by_cases late : 85 < s.tftptimeout + 1
      · -- The transfer is closed, and the ticks that are left change nothing.
        have closed : (tftp.step s (.tick env)).1.port69 = true ∧ (tftp.step s (.tick env)).1.tftptimeoutTimer = false := by
          simp [tftp,tftpStep,tftpTrm250ms,on,late,tftpCleanupRd]
        rw [ticks_idle closed.2]
        exact ⟨closed.1,later.listening.mp closed.1⟩
      · have counted : (tftp.step s (.tick env)).1.tftptimeout = s.tftptimeout + 1 := by
          simp [tftp,tftpStep,tftpTrm250ms,on,late]
        refine ih later (turn.armed turns armed id) ?_
        have count := UInt8.le_iff_toNat_le.mp turns.count
        rw [counted,UInt8.toNat_add]
        simp at enough count ⊢
        omega
    · have off := Bool.eq_false_of_not_eq_true on
      have free (n : Nat) : opOf s.pcbs n = none := by
        by_contra there
        exact on (armed n there)
      have same : (tftp.step s (.tick env)).1 = s := ticks_idle off [env]
      rw [same,ticks_idle off]
      exact ⟨turns.listening.mpr free,free⟩

theorem available_iff (turns : TftpTurns s) : TftpAvailable s ↔ TftpArmed s := by
  constructor
  · intro available n there
    exact (available.armed n fun free => there (args_none_iff.mp free)).1
  · intro armed
    constructor
    · simp only [args_none_iff]
      exact turns.listening
    · intro n there
      have active : opOf s.pcbs n ≠ none := fun free => there (args_none_iff.mpr free)
      have on := armed n active
      exact ⟨on,turns.single _ _ (turns.owned on ▸ Option.some_ne_none _) active⟩
    · intro envs enough
      simp only [args_none_iff]
      exact ticks_return turns armed envs (by omega)

/-- A write that was opened is not timed. -/
theorem write_unarmed (turns : TftpTurns s) (enabled : tftp.enabled s i) (write : i.Opens tftpWrq) :
    ¬ TftpArmed (tftp.step s i).1 := by
  cases i with
  | request env addr p =>
    obtain ⟨file,opens⟩ := write
    have off := turns.idle (turns.listening.mp enabled.1)
    rw [opens.writes]
    intro armed
    have on : s.tftptimeoutTimer = true := by
      refine armed s.pcbs.length ?_
      rw [opOf_open,Function.update_self]
      exact Option.some_ne_none _
    rw [off] at on
    contradiction
  | data env n addr p => exact write.elim
  | tick env => exact write.elim

end

/-- Port 69 is served exactly while no transfer is open, in every run. -/
theorem tftp_listening {inputs : List TftpInput} (admissible : tftp.Admissible tftpStarted inputs) :
    tftp.Throughout (fun s _ => s.port69 = true ↔ ∀ n, s.args n = none) tftpStarted [] inputs := by
  refine (Machine.throughout_run (R := fun s _ => TftpTurns s) (fun s _ i turns enabled => (turns.turn enabled).2)
    started_turns admissible).mono fun s _ turns => ?_
  simp only [args_none_iff]
  exact turns.listening
/-- The server is available throughout a run exactly when no request opens a file to be
    written. -/
theorem tftp_available (inputs : List TftpInput) (admissible : tftp.Admissible tftpStarted inputs) :
    tftp.Throughout (fun s _ => TftpAvailable s) tftpStarted [] inputs ↔ tftp.Each OpensNoWrite tftpStarted inputs := by
  refine Machine.throughout_iff_each (R := fun s _ => TftpTurns s ∧ TftpArmed s)
    (fun s _ held => (available_iff held.1).mpr held.2)
    (fun s _ i held enabled noWrite => ?_) (fun s _ i held enabled write => ?_)
    ⟨started_turns,fun _ there => absurd rfl there⟩ admissible
  · obtain ⟨turn,later⟩ := held.1.turn enabled
    exact ⟨later,turn.armed held.1 held.2 noWrite⟩
  · obtain ⟨-,later⟩ := held.1.turn enabled
    rw [available_iff later]
    exact write_unarmed held.1 enabled (not_not.mp write)
/-- A file that is read, and a tick. -/
theorem tftp_available_read :
    let inputs := [.request (.plain [7]) ⟨1,2⟩ ⟨[0,1],2,[]⟩,.tick (.plain [])]
    tftp.Throughout (fun s _ => TftpAvailable s) tftpStarted [] inputs ↔ tftp.Each OpensNoWrite tftpStarted inputs :=
  tftp_available [.request (.plain [7]) ⟨1,2⟩ ⟨[0,1],2,[]⟩,.tick (.plain [])] (by decide)
/-- A request to write whose client is not heard of again: 86 ticks later port 69 is still
    deaf. -/
theorem tftp_available_fails :
    let inputs := [TftpInput.request (.plain []) ⟨1,2⟩ ⟨[0,2],2,[]⟩]
    tftp.Admissible tftpStarted inputs ∧ ¬ tftp.Throughout (fun s _ => TftpAvailable s) tftpStarted [] inputs ∧
      (tftp.after tftpStarted (inputs ++ List.replicate 86 (.tick (.plain [])))).port69 = false := by
  refine ⟨by decide,?_,by decide +kernel⟩
  intro all
  have on := (all.last.armed 0 (by decide)).1
  revert on
  decide

end Net2Modbus
