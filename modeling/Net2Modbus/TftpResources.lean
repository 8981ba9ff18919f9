import Net2Modbus.FirmwareImage
import Net2Modbus.Ownership
import Net2Modbus.TftpServer

/-!
# What the TFTP servers hold

The buffers, the control blocks and the arguments of both servers, over every order of
requests, packets and ticks: the control blocks and the arguments that are held are those
of the open transfers, and no buffer is held between two inputs.
-/
namespace Net2Modbus

/-- What is held, from the control blocks and the arguments. -/
def heldBy (pbuf : Bool) (pcbs args : Nat → Bool) : TftpResource → Bool
  | .pbuf => pbuf
  | .pcb n => pcbs n
  | .args n => args n
/-- The open transfers hold their control blocks and their arguments. -/
def heldOpen {Args : Type} (pbuf : Bool) (pcbs : List (Option Args)) : TftpResource → Bool :=
  heldBy pbuf (openOf pcbs) (openOf pcbs)

def TftpEvent.handled : TftpEvent → Option (Handling TftpResource)
  | .handling h => some h
  | _ => none
def tftpHandlings (events : List TftpEvent) : List (Handling TftpResource) := events.filterMap TftpEvent.handled
def IapEvent.handled : IapEvent → Option (Handling TftpResource)
  | .handling h => some h
  | _ => none
def iapHandlings (events : List IapEvent) : List (Handling TftpResource) := events.filterMap IapEvent.handled

/-- Everything was acquired, used and released in turn, and what is held belongs to open
    transfers. -/
def TftpAccounted (s : TftpServer) (past : List TftpEvent) : Prop :=
  Leads (fun _ => false) (tftpHandlings past) (heldOpen false s.pcbs)
def IapAccounted (s : IapServer) (past : List IapEvent) : Prop :=
  Leads (fun _ => false) (iapHandlings past) (heldOpen false s.pcbs)

/-- No packet reaches a read whose last block was sent, and a packet of a write comes in one
    buffer and is not accepted without any of its data being written. -/
def TftpClear (s : TftpServer) : TftpInput → Prop
  | .request _ _ _ | .tick _ => True
  | .data env pcb _ p => ∀ args ∈ s.args pcb,
    if args.op = tftpRrq then ¬ args.dataLen < tftpDataLenMax
    else ¬ p.Chained ∧ (iapTftpExtractBlock p = args.block + 1 → tftpDataPktHdrLen < p.bytes.length →
      (fileWrite env.takes (p.bytes.drop tftpDataPktHdrLen) s.fileCR).2 ≠ [])
/-- There is a control block and a port for a request, and a packet of a transfer comes in
    one buffer. -/
def IapClear (_ : IapServer) : IapInput → Prop
  | .request env _ _ => env.udpNew = true ∧ env.udpBind = true
  | .data _ _ _ p => ¬ p.Chained

instance (s : TftpServer) (i : TftpInput) : Decidable (TftpClear s i) :=
  match i with
  | .request _ _ _ | .tick _ => isTrue trivial
  | .data _ _ _ _ => inferInstanceAs (Decidable (∀ _ ∈ _, ite _ _ _))
instance (s : IapServer) (i : IapInput) : Decidable (IapClear s i) :=
  match i with
  | .request _ _ _ => inferInstanceAs (Decidable (_ ∧ _))
  | .data _ _ _ p => inferInstanceAs (Decidable (¬ p.Chained))

section
variable {b : Bool} {c a : Nat → Bool} {n : Nat}

@[simp] theorem after_use (held : TftpResource → Bool) (r : TftpResource) : (Handling.use r).after held = held := rfl
@[simp] theorem after_acquire_pbuf : (Handling.acquire .pbuf).after (heldBy b c a) = heldBy true c a := by
  funext r
  cases r <;> rfl
@[simp] theorem after_release_pbuf : (Handling.release .pbuf).after (heldBy b c a) = heldBy false c a := by
  funext r
  cases r <;> rfl
@[simp] theorem after_acquire_pcb : (Handling.acquire (.pcb n)).after (heldBy b c a) = heldBy b (Function.update c n true) a := by
  funext r
  cases r <;> simp [Handling.after,heldBy,Function.update_apply]
@[simp] theorem after_release_pcb : (Handling.release (.pcb n)).after (heldBy b c a) = heldBy b (Function.update c n false) a := by
  funext r
  cases r <;> simp [Handling.after,heldBy,Function.update_apply]
@[simp] theorem after_acquire_args : (Handling.acquire (.args n)).after (heldBy b c a) = heldBy b c (Function.update a n true) := by
  funext r
  cases r <;> simp [Handling.after,heldBy,Function.update_apply]
@[simp] theorem after_release_args : (Handling.release (.args n)).after (heldBy b c a) = heldBy b c (Function.update a n false) := by
  funext r
  cases r <;> simp [Handling.after,heldBy,Function.update_apply]

/-- A packet is freed behind what is done with it. -/
theorem pbuf_leads {c' a' : Nat → Bool} {steps : List (Handling TftpResource)}
    (inner : Leads (heldBy true c a) steps (heldBy true c' a')) :
    Leads (heldBy false c a) (.acquire .pbuf :: (steps ++ [.release .pbuf])) (heldBy false c' a') := by
  refine (leads_cons _).mpr ⟨rfl,?_⟩
  rw [after_acquire_pbuf]
  refine inner.append ((leads_cons _).mpr ⟨rfl,?_⟩)
  rw [after_release_pbuf]
  exact leads_nil
/-- A packet that is not freed. -/
theorem pbuf_kept {c' a' : Nat → Bool} {steps : List (Handling TftpResource)} (held : TftpResource → Bool)
    (inner : Leads (heldBy true c a) steps held) (kept : held .pbuf = true) :
    ¬ Leads (heldBy false c a) (.acquire .pbuf :: steps) (heldBy false c' a') := by
  intro all
  obtain ⟨-,all⟩ := (leads_cons _).mp all
  rw [after_acquire_pbuf] at all
  have freed := congrFun (inner.2.symm.trans all.2) .pbuf
  rw [kept] at freed
  contradiction
/-- The packet and the arguments are looked at. -/
theorem look_leads (has : a n = true) : Leads (heldBy true c a) [.use .pbuf,.use (.args n)] (heldBy true c a) :=
  (leads_cons _).mpr ⟨rfl,(leads_cons _).mpr ⟨has,leads_nil⟩⟩
/-- A control block is removed, without arguments or with them. -/
theorem remove_leads (has : c n = true) :
    Leads (heldBy b c a) [.use (.pcb n),.release (.pcb n)] (heldBy b (Function.update c n false) a) := by
  refine (leads_cons _).mpr ⟨has,(leads_cons _).mpr ⟨has,?_⟩⟩
  rw [after_use,after_release_pcb]
  exact leads_nil
theorem remove_args_leads (has : c n = true) (both : a n = true) :
    Leads (heldBy b c a) [.release (.args n),.use (.pcb n),.release (.pcb n)]
      (heldBy b (Function.update c n false) (Function.update a n false)) := by
  refine (leads_cons _).mpr ⟨both,?_⟩
  rw [after_release_args]
  exact remove_leads has

/-- What was free before it was acquired. -/
theorem update_free (free : c n = false) : Function.update c n false = c := by rw [← free,Function.update_eq_self]

end

section
variable {b : Bool} {c a : Nat → Bool} {n : Nat} {env : TftpEnv} {addr : Peer} {s : TftpServer}

@[simp] theorem tftpHandlings_handling (h : Handling TftpResource) (rest : List TftpEvent) :
    tftpHandlings (.handling h :: rest) = h :: tftpHandlings rest := rfl
theorem tftpHandlings_append (front back : List TftpEvent) :
    tftpHandlings (front ++ back) = tftpHandlings front ++ tftpHandlings back := List.filterMap_append

theorem packet_leads {c' a' : Nat → Bool} (events : List TftpEvent)
    (inner : Leads (heldBy true c a) (tftpHandlings events) (heldBy true c' a')) :
    Leads (heldBy false c a) (tftpHandlings (TftpEvent.handling (.acquire .pbuf) :: (events ++ [TftpEvent.freePbuf])))
      (heldBy false c' a') := by
  rw [tftpHandlings_handling,tftpHandlings_append]
  exact pbuf_leads inner
/-- Arguments that were freed are used. -/
theorem uses_freed {held held' : TftpResource → Bool} {front : List TftpEvent} (back : List TftpEvent)
    (held'' : TftpResource → Bool) (first : Leads held (tftpHandlings front) held') (gone : held' (.args n) = false) :
    ¬ Leads held (tftpHandlings (front ++ .handling (.use (.args n)) :: back)) held'' := by
  rw [tftpHandlings_append]
  refine first.not_allowed ?_
  intro there
  rw [Handling.Allowed,gone] at there
  contradiction
/-- A message is sent from a control block that is held. -/
theorem error_leads (has : c n = true) (code : TftpErrorcode) :
    Leads (heldBy b c a) (tftpHandlings (tftpSendErrorMessage env n addr code)) (heldBy b c a) := by
  unfold tftpSendErrorMessage
  split
  · exact (leads_cons _).mpr ⟨has,leads_nil⟩
  · exact leads_nil
theorem ack_leads (has : c n = true) (block : Nat) :
    Leads (heldBy b c a) (tftpHandlings (tftpSendAckPacket env n addr block)) (heldBy b c a) := by
  unfold tftpSendAckPacket
  split
  · exact (leads_cons _).mpr ⟨has,leads_nil⟩
  · exact leads_nil
theorem data_leads (has : c n = true) (removed : Bool) (block : Nat) (bytes : List UInt8) :
    Leads (heldBy b c a) (tftpHandlings (tftpSendDataPacket env removed n addr block bytes)) (heldBy b c a) := by
  unfold tftpSendDataPacket
  split
  · refine (leads_cons _).mpr ⟨has,?_⟩
    split <;> exact leads_nil
  · exact leads_nil
/-- While the timeout runs, its control block is that of a read. -/
def TimerOwned (s : TftpServer) : Prop :=
  s.tftptimeoutTimer = true → ∃ args, s.args s.timeoutupcb = some args ∧ args.op = tftpRrq

theorem openOf_args {args : TftpArgs} (registered : s.args n = some args) : openOf s.pcbs n = true := by
  rw [TftpServer.args] at registered
  rw [openOf,registered]
  rfl
/-- Another control block changes. -/
theorem TimerOwned.set (owned : TimerOwned s) {s' : TftpServer} {new : Option TftpArgs} (pcbs : s'.pcbs = s.pcbs.set n new)
    (other : ∀ args, s.args n = some args → args.op ≠ tftpRrq) (timer : s'.tftptimeoutTimer = s.tftptimeoutTimer)
    (same : s'.timeoutupcb = s.timeoutupcb) : TimerOwned s' := by
  intro on
  obtain ⟨args,registered,op⟩ := owned (timer ▸ on)
  have apart : n ≠ s.timeoutupcb := by
    rintro rfl
    exact other args registered op
  refine ⟨args,?_,op⟩
  rw [TftpServer.args,pcbs,same,List.getElem?_set_ne apart]
  exact registered
theorem TimerOwned.snoc (owned : TimerOwned s) {s' : TftpServer} {new : Option TftpArgs} (pcbs : s'.pcbs = s.pcbs ++ [new])
    (timer : s'.tftptimeoutTimer = s.tftptimeoutTimer) (same : s'.timeoutupcb = s.timeoutupcb) : TimerOwned s' := by
  intro on
  obtain ⟨args,registered,op⟩ := owned (timer ▸ on)
  refine ⟨args,?_,op⟩
  rw [TftpServer.args,pcbs,same,List.getElem?_append_left (openOf_lt (openOf_args registered))]
  exact registered

/-- The timeout of a new read. -/
theorem TimerOwned.opened (inside : n < s.pcbs.length) {s' : TftpServer} {args : TftpArgs}
    (pcbs : s'.pcbs = s.pcbs.set n (some args)) (op : args.op = tftpRrq) (same : s'.timeoutupcb = n) : TimerOwned s' := by
  intro _
  refine ⟨args,?_,op⟩
  rw [TftpServer.args,pcbs,same,List.getElem?_set_self inside]
  rfl

/-- What a new control block becomes: removed again, or the control block of a transfer. -/
structure Settles (n : Nat) (s : TftpServer) (done : TftpServer × List TftpEvent) : Prop where
  leads : Leads (heldBy true (Function.update (openOf s.pcbs) n true) (openOf s.pcbs)) (tftpHandlings done.2)
    (heldOpen true done.1.pcbs)
  timer : TimerOwned done.1

variable (free : openOf s.pcbs n = false)
include free

theorem remove_settles {s' : TftpServer} (pcbs : s'.pcbs = s.pcbs) (timer : TimerOwned s') :
    Settles n s (s',[.handling (.release (.pcb n))]) := by
  refine ⟨(leads_cons _).mpr ⟨Function.update_self ..,?_⟩,timer⟩
  rw [after_release_pcb,Function.update_idem,update_free free,pcbs]
  exact leads_nil
theorem tftpRefuse_settles (owned : TimerOwned s) (code : TftpErrorcode) : Settles n s (tftpRefuse env n addr code s) := by
  refine ⟨?_,owned⟩
  unfold tftpRefuse
  rw [tftpHandlings_append]
  exact (error_leads (Function.update_self ..) code).append (remove_settles free rfl owned).leads

variable (inside : n < s.pcbs.length)
include inside

/-- A clean-up before there are arguments. -/
theorem cleanup_settles (owned : TimerOwned s) (code : TftpErrorcode) {s' : TftpServer} (pcbs : s'.pcbs = s.pcbs.set n none)
    (timer : s'.tftptimeoutTimer = s.tftptimeoutTimer) (same : s'.timeoutupcb = s.timeoutupcb) {event : TftpEvent}
    (quiet : event.handled = none) :
    Settles n s (s',tftpSendErrorMessage env n addr code ++ event :: tftpCleanup n false) := by
  have after := remove_leads (b := true) (c := Function.update (openOf s.pcbs) n true) (a := openOf s.pcbs) (Function.update_self ..)
  have silent : tftpHandlings (event :: tftpCleanup n false) = tftpHandlings (tftpCleanup n false) :=
    List.filterMap_cons_none quiet
  rw [Function.update_idem,update_free free] at after
  refine ⟨?_,owned.set pcbs ?_ timer same⟩
  · rw [tftpHandlings_append,silent,heldOpen,pcbs,openOf_set inside,Option.isSome_none,update_free free]
    exact (error_leads (Function.update_self ..) code).append after
  · intro args registered
    rw [openOf_args registered] at free
    contradiction
/-- The arguments of a transfer are made and registered. -/
theorem opens_settles {s' : TftpServer} {args : TftpArgs} (pcbs : s'.pcbs = s.pcbs.set n (some args))
    (timer : TimerOwned s') {events : List TftpEvent}
    (sent : ∀ {c a : Nat → Bool}, c n = true → a n = true → Leads (heldBy true c a) (tftpHandlings events) (heldBy true c a)) :
    Settles n s (s',[TftpEvent.handling (.acquire (.args n)),.handling (.use (.args n)),.handling (.use (.pcb n))] ++ events) := by
  refine ⟨?_,timer⟩
  rw [heldOpen,pcbs,openOf_set inside,Option.isSome_some]
  refine (leads_cons _).mpr ⟨free,?_⟩
  rw [after_acquire_args]
  refine (leads_cons _).mpr ⟨Function.update_self ..,(leads_cons _).mpr ⟨Function.update_self ..,?_⟩⟩
  exact sent (Function.update_self ..) (Function.update_self ..)
theorem tftpProcessRead_settles (owned : TimerOwned s) : Settles n s (tftpProcessRead env n addr s) := by
  unfold tftpProcessRead
  split
  · refine cleanup_settles free inside owned .fileNotFound ?_ ?_ ?_ ?_ <;> rfl
  · split
    · exact opens_settles free inside rfl (.opened inside rfl rfl rfl) fun has both =>
        (leads_cons _).mpr ⟨both,data_leads has ..⟩
    · refine cleanup_settles free inside owned .notdefined ?_ ?_ ?_ ?_ <;> rfl
theorem tftpProcessWrite_settles (owned : TimerOwned s) : Settles n s (tftpProcessWrite env n addr s) := by
  unfold tftpProcessWrite
  split
  · refine cleanup_settles free inside owned .fileAlreadyExists ?_ ?_ ?_ ?_ <;> rfl
  · split
    · refine opens_settles free inside rfl ?_ fun has _ => ack_leads has 0
      refine owned.set rfl ?_ rfl rfl
      intro args registered
      rw [openOf_args registered] at free
      contradiction
    · refine cleanup_settles free inside owned .notdefined ?_ ?_ ?_ ?_ <;> rfl

omit free inside

/-- An input gives back everything, but for what open transfers hold. -/
structure Keeps (s : TftpServer) (done : TftpServer × List TftpEvent) : Prop where
  leads : Leads (heldOpen false s.pcbs) (tftpHandlings done.2) (heldOpen false done.1.pcbs)
  timer : TimerOwned done.1

theorem request_keeps (owned : TimerOwned s) (p : Packet) : Keeps s (tftp.step s (.request env addr p)) := by
  have fresh := openOf_fresh s.pcbs
  have added : openOf (s.pcbs ++ [none]) = openOf s.pcbs := by
    rw [openOf_snoc,Option.isSome_none,update_free fresh]
  have inside : s.pcbs.length < (s.pcbs ++ [none]).length := by simp
  -- The packet is freed behind whatever the request does with its control block.
  have settled (s' : TftpServer) (done : TftpServer × List TftpEvent) (pcbs : s'.pcbs = s.pcbs ++ [none])
      (settles : openOf s'.pcbs s.pcbs.length = false → s.pcbs.length < s'.pcbs.length → Settles s.pcbs.length s' done) :
      Keeps s (done.1,.handling (.acquire .pbuf) ::
        (([TftpEvent.usePbuf,.handling (.acquire (.pcb s.pcbs.length)),.handling (.use (.pcb s.pcbs.length))] ++ done.2) ++
          [TftpEvent.freePbuf])) := by
    obtain ⟨leads,timer⟩ := settles (by rw [pcbs,added]; exact fresh) (by rw [pcbs]; exact inside)
    rw [pcbs,added] at leads
    have made : Leads (heldOpen true s.pcbs) (tftpHandlings [.usePbuf,.handling (.acquire (.pcb s.pcbs.length)),
        .handling (.use (.pcb s.pcbs.length))])
        (heldBy true (Function.update (openOf s.pcbs) s.pcbs.length true) (openOf s.pcbs)) := by
      refine (leads_cons _).mpr ⟨rfl,(leads_cons _).mpr ⟨fresh,?_⟩⟩
      rw [after_use,heldOpen,after_acquire_pcb]
      exact (leads_cons _).mpr ⟨Function.update_self ..,leads_nil⟩
    refine ⟨packet_leads _ ?_,timer⟩
    rw [tftpHandlings_append]
    exact made.append leads
  rcases request_cases s env addr p with alone | ⟨done,requested,step⟩
  · rw [alone]
    exact ⟨packet_leads [.usePbuf] ((leads_cons _).mpr ⟨rfl,leads_nil⟩),owned⟩
  · rw [step]
    cases requested with
    | unbound =>
      exact settled { s with port69 := false, pcbs := s.pcbs ++ [none] } ({ s with port69 := true, pcbs := s.pcbs ++ [none] },_) rfl
        fun free _ => remove_settles free rfl (owned.snoc rfl rfl rfl)
    | refused code =>
      exact settled { s with port69 := false, pcbs := s.pcbs ++ [none] } _ rfl
        fun free _ => tftpRefuse_settles free (owned.snoc rfl rfl rfl) code
    | reads new bind opcode init dir =>
      exact settled { s with port69 := false, pcbs := s.pcbs ++ [none], timeoutaddr := addr } _ rfl
        fun free inside => tftpProcessRead_settles free inside (owned.snoc rfl rfl rfl)
    | writes new bind opcode init dir =>
      exact settled { s with port69 := false, pcbs := s.pcbs ++ [none] } _ rfl
        fun free inside => tftpProcessWrite_settles free inside (owned.snoc rfl rfl rfl)

theorem setArgs_other {args : TftpArgs} {q : Nat} (apart : q ≠ n) : (s.setArgs n args).args q = s.args q := by
  exact congrArg Option.join (List.getElem?_modify_ne _ _ (Ne.symm apart))
theorem setArgs_open {args : TftpArgs} : openOf (s.setArgs n args).pcbs = openOf s.pcbs := openOf_modify _
theorem TimerOwned.setArgs (owned : TimerOwned s) {args args' : TftpArgs} (registered : s.args n = some args)
    (op : args'.op = args.op) : TimerOwned (s.setArgs n args') := by
  intro on
  obtain ⟨read,there,isRead⟩ := owned on
  by_cases same : s.timeoutupcb = n
  · subst same
    rw [registered] at there
    obtain rfl := Option.some.inj there
    exact ⟨args',setArgs_args registered,op.trans isRead⟩
  · exact ⟨read,(setArgs_other same).trans there,isRead⟩

variable (n env addr s) in
/-- What a packet does to a write before it is answered. -/
theorem wrqAccept_cases (args : TftpArgs) (p : Packet) :
    ((iapTftpExtractBlock p = args.block + 1 → tftpDataPktHdrLen < p.bytes.length →
        (fileWrite env.takes (p.bytes.drop tftpDataPktHdrLen) s.fileCR).2 ≠ []) ∧
      (∃ file, (wrqAccept env n args addr p s).1 = { s with fileCR := file }) ∧
      (wrqAccept env n args addr p s).2.1.op = args.op ∧ tftpHandlings (wrqAccept env n args addr p s).2.2 = []) ∨
    ((iapTftpExtractBlock p = args.block + 1 ∧ tftpDataPktHdrLen < p.bytes.length ∧
        (fileWrite env.takes (p.bytes.drop tftpDataPktHdrLen) s.fileCR).2 = []) ∧
      ∃ file, (wrqAccept env n args addr p s).2.2 =
          tftpSendErrorMessage env n addr .fileNotFound ++ .cleanupWr n file :: tftpCleanup n true ∧
        (wrqAccept env n args addr p s).1 = { s with fileCR := fileFclosed, pcbs := s.pcbs.set n none, port69 := true }) := by
  unfold wrqAccept
  by_cases next : iapTftpExtractBlock p = args.block + 1
  · rw [if_pos next]
    by_cases data : tftpDataPktHdrLen < p.bytes.length
    · rw [if_pos data]
      by_cases none : (fileWrite env.takes (p.bytes.drop tftpDataPktHdrLen) s.fileCR).2 = []
      · simp only [if_pos none]
        exact .inr ⟨⟨next,data,none⟩,_,rfl,rfl⟩
      · simp only [if_neg none]
        exact .inl ⟨fun _ _ => none,⟨_,rfl⟩,trivial,rfl⟩
    · rw [if_neg data]
      exact .inl ⟨fun _ more => absurd more data,⟨_,rfl⟩,rfl,rfl⟩
  · rw [if_neg next]
    exact .inl ⟨fun same => absurd same next,⟨_,rfl⟩,rfl,rfl⟩

section
variable {args : TftpArgs} {p : Packet} (registered : s.args n = some args)
include registered

/-- A read that has more to send. -/
theorem rrq_keeps (owned : TimerOwned s) (read : args.op = tftpRrq) (full : ¬ args.dataLen < tftpDataLenMax) :
    Keeps s (tftp.step s (.data env n addr p)) := by
  have has := openOf_args registered
  rw [rrq_step registered read]
  generalize counted : (if tftpIsCorrectAck p args.block then { args with block := args.block + 1 } else args) = args'
  have len : args'.dataLen = args.dataLen := by
    rw [← counted]
    split <;> rfl
  have op : args'.op = args.op := by
    rw [← counted]
    split <;> rfl
  simp only [rrqRecvCallback,counted,len,if_neg full,tftpSendNextBlock]
  refine ⟨?_,TimerOwned.setArgs owned registered op⟩
  unfold heldOpen
  rw [setArgs_open]
  refine packet_leads _ ?_
  rw [tftpHandlings_append]
  exact (look_leads has).append ((leads_cons _).mpr ⟨has,data_leads has ..⟩)

/-- A read whose last block was sent: the arguments are used after they were freed. -/
theorem rrq_breaks (read : args.op = tftpRrq) (short : args.dataLen < tftpDataLenMax) (held : TftpResource → Bool) :
    ¬ Leads (heldOpen false s.pcbs) (tftpHandlings (tftp.step s (.data env n addr p)).2) held := by
  have has := openOf_args registered
  rw [rrq_step registered read]
  generalize counted : (if tftpIsCorrectAck p args.block then { args with block := args.block + 1 } else args) = args'
  have len : args'.dataLen = args.dataLen := by
    rw [← counted]
    split <;> rfl
  simp only [rrqRecvCallback,counted,len,if_pos short,tftpSendNextBlock,tftpCleanupRd]
  have closed := packet_leads ([TftpEvent.usePbuf,.handling (.use (.args n))] ++ .cleanupRd n :: tftpCleanup n true)
    ((look_leads has).append (remove_args_leads has has))
  intro all
  refine uses_freed (tftpSendDataPacket env true n addr args'.block (fileRead env.readOk tftpDataLenMax fileFclosed).2 ++
    [TftpEvent.freePbuf]) held closed (Function.update_self ..) ?_
  simpa only [heldOpen,List.append_assoc,List.cons_append] using all

/-- A packet of a write that is not accepted without any of its data being written. -/
theorem wrq_keeps (owned : TimerOwned s) (write : args.op ≠ tftpRrq) (single : ¬ p.Chained)
    (wrote : iapTftpExtractBlock p = args.block + 1 → tftpDataPktHdrLen < p.bytes.length →
      (fileWrite env.takes (p.bytes.drop tftpDataPktHdrLen) s.fileCR).2 ≠ []) :
    Keeps s (tftp.step s (.data env n addr p)) := by
  have has := openOf_args registered
  rw [wrq_step registered write]
  simp only [wrqRecvCallback,if_neg single]
  rcases wrqAccept_cases n env addr s args p with ⟨-,⟨file,kept⟩,op,quiet⟩ | ⟨⟨next,data,none⟩,-⟩
  · generalize wrqAccept env n args addr p s = accepted at kept op quiet
    obtain ⟨s',args',events⟩ := accepted
    obtain rfl : s' = { s with fileCR := file } := kept
    have timer : TimerOwned (TftpServer.setArgs n args' { s with fileCR := file }) := TimerOwned.setArgs owned registered op
    have same : openOf (TftpServer.setArgs n args' { s with fileCR := file }).pcbs = openOf s.pcbs := setArgs_open
    have answered : Leads (heldBy true (openOf s.pcbs) (openOf s.pcbs))
        (tftpHandlings ([TftpEvent.usePbuf,.handling (.use (.args n))] ++ events ++ [TftpEvent.handling (.use (.args n))] ++
          tftpSendAckPacket env n addr args'.block)) (heldBy true (openOf s.pcbs) (openOf s.pcbs)) := by
      have again : Leads (heldBy true (openOf s.pcbs) (openOf s.pcbs)) (tftpHandlings [.handling (.use (.args n))])
          (heldBy true (openOf s.pcbs) (openOf s.pcbs)) := (leads_cons _).mpr ⟨has,leads_nil⟩
      rw [tftpHandlings_append,tftpHandlings_append,tftpHandlings_append,quiet,List.append_nil]
      exact ((look_leads has).append again).append (ack_leads has args'.block)
    by_cases short : p.bytes.length < tftpDataPktLenMax
    · simp only [if_pos short]
      have closed := remove_args_leads (b := true) has has
      have inside := openOf_lt (same ▸ has)
      refine ⟨?_,timer.set rfl ?_ rfl rfl⟩
      · have gone := openOf_set inside none
        rw [same,Option.isSome_none] at gone
        unfold heldOpen tftpCleanupWr
        rw [gone]
        refine packet_leads _ ?_
        rw [tftpHandlings_append]
        exact answered.append closed
      · intro a there
        have now : (TftpServer.setArgs n args' { s with fileCR := file }).args n = some args' :=
          setArgs_args (s := { s with fileCR := file }) registered
        rw [now] at there
        rw [← Option.some.inj there,op]
        exact write
    · simp only [if_neg short]
      refine ⟨?_,timer⟩
      unfold heldOpen
      rw [same]
      exact packet_leads _ answered
  · exact absurd none (wrote next data)

/-- A packet of more than one buffer is not freed. -/
theorem chained_breaks (write : args.op ≠ tftpRrq) (chained : p.Chained) (c a : Nat → Bool) :
    ¬ Leads (heldOpen false s.pcbs) (tftpHandlings (tftp.step s (.data env n addr p)).2) (heldBy false c a) := by
  rw [wrq_step registered write]
  simp only [wrqRecvCallback,if_pos chained]
  intro all
  have kept := congrFun all.2 .pbuf
  contradiction
/-- A block of which nothing is written: the arguments are used after they were freed. -/
theorem wrq_breaks (write : args.op ≠ tftpRrq) (single : ¬ p.Chained) (next : iapTftpExtractBlock p = args.block + 1)
    (data : tftpDataPktHdrLen < p.bytes.length)
    (none : (fileWrite env.takes (p.bytes.drop tftpDataPktHdrLen) s.fileCR).2 = []) (held : TftpResource → Bool) :
    ¬ Leads (heldOpen false s.pcbs) (tftpHandlings (tftp.step s (.data env n addr p)).2) held := by
  have has := openOf_args registered
  rcases wrqAccept_cases n env addr s args p with ⟨wrote,-⟩ | ⟨-,file,closes,-⟩
  · exact absurd none (wrote next data)
  · rw [wrq_step registered write]
    simp only [wrqRecvCallback,if_neg single]
    have looked : Leads (heldOpen false s.pcbs)
        (tftpHandlings (.handling (.acquire .pbuf) :: [.usePbuf,.handling (.use (.args n))])) (heldOpen true s.pcbs) := by
      refine (leads_cons _).mpr ⟨rfl,?_⟩
      rw [heldOpen,after_acquire_pbuf]
      exact look_leads has
    have closed : Leads (heldOpen true s.pcbs) (tftpHandlings (wrqAccept env n args addr p s).2.2)
        (heldBy true (Function.update (openOf s.pcbs) n false) (Function.update (openOf s.pcbs) n false)) := by
      rw [closes,tftpHandlings_append]
      exact (error_leads has .fileNotFound).append (remove_args_leads has has)
    have front := looked.append closed
    rw [← tftpHandlings_append] at front
    have blocked (rest : List TftpEvent) : ¬ Leads (heldOpen false s.pcbs) (tftpHandlings (TftpEvent.handling (.acquire .pbuf) ::
        ([TftpEvent.usePbuf,.handling (.use (.args n))] ++ (wrqAccept env n args addr p s).2.2 ++
          [TftpEvent.handling (.use (.args n))] ++
          tftpSendAckPacket env n addr (wrqAccept env n args addr p s).2.1.block ++ rest))) held := by
      intro all
      refine uses_freed (tftpSendAckPacket env n addr (wrqAccept env n args addr p s).2.1.block ++ rest) held front
        (Function.update_self ..) ?_
      simpa only [List.append_assoc,List.cons_append,List.nil_append] using all
    split
    · dsimp only
      rw [List.append_assoc _ _ [TftpEvent.freePbuf]]
      exact blocked _
    · exact blocked _

end

theorem tick_keeps (owned : TimerOwned s) : Keeps s (tftp.step s (.tick env)) := by
  simp only [tftp,tftpStep,tftpTrm250ms]
  by_cases on : s.tftptimeoutTimer = true
  · rw [if_pos on]
    obtain ⟨args,registered,-⟩ := owned on
    have has := openOf_args registered
    split
    · refine ⟨?_,fun off => Bool.noConfusion off⟩
      unfold heldOpen tftpCleanupRd
      rw [openOf_set (openOf_lt has),tftpHandlings_append]
      exact (error_leads has .notdefined).append (remove_args_leads has has)
    · exact ⟨leads_nil,owned⟩
  · rw [if_neg on]
    exact ⟨leads_nil,owned⟩

theorem tftpHandlings_past {past : List TftpEvent} {events : List TftpEvent} {held : TftpResource → Bool}
    (accounted : TftpAccounted s past) :
    Leads (fun _ => false) (tftpHandlings (past ++ events)) held ↔ Leads (heldOpen false s.pcbs) (tftpHandlings events) held := by
  rw [tftpHandlings_append]
  exact ⟨accounted.behind,accounted.append⟩
theorem tftp_step_keeps (owned : TimerOwned s) {i : TftpInput} (enabled : tftp.enabled s i) (clear : TftpClear s i) :
    Keeps s (tftp.step s i) := by
  cases i with
  | request env addr p => exact request_keeps owned p
  | tick env => exact tick_keeps owned
  | data env pcb addr p =>
    obtain ⟨args,registered⟩ := Option.isSome_iff_exists.mp enabled.1
    have safe := clear args registered
    by_cases read : args.op = tftpRrq
    · rw [if_pos read] at safe
      exact rrq_keeps registered owned read safe
    · rw [if_neg read] at safe
      exact wrq_keeps registered owned read safe.1 safe.2
theorem tftp_step_breaks {i : TftpInput} (enabled : tftp.enabled s i) (unclear : ¬ TftpClear s i) (pcbs : List (Option TftpArgs)) :
    ¬ Leads (heldOpen false s.pcbs) (tftpHandlings (tftp.step s i).2) (heldOpen false pcbs) := by
  cases i with
  | request env addr p => exact absurd trivial unclear
  | tick env => exact absurd trivial unclear
  | data env pcb addr p =>
    obtain ⟨args,registered⟩ := Option.isSome_iff_exists.mp enabled.1
    by_cases read : args.op = tftpRrq
    · by_cases short : args.dataLen < tftpDataLenMax
      · exact rrq_breaks registered read short _
      · refine absurd ?_ unclear
        intro a there
        obtain rfl := Option.some.inj (registered.symm.trans there)
        rw [if_pos read]
        exact short
    · by_cases chained : p.Chained
      · exact chained_breaks registered read chained _ _
      · by_cases wrote : iapTftpExtractBlock p = args.block + 1 → tftpDataPktHdrLen < p.bytes.length →
          (fileWrite env.takes (p.bytes.drop tftpDataPktHdrLen) s.fileCR).2 ≠ []
        · refine absurd ?_ unclear
          intro a there
          obtain rfl := Option.some.inj (registered.symm.trans there)
          rw [if_neg read]
          exact ⟨chained,wrote⟩
        · rw [Classical.not_imp,Classical.not_imp,not_not] at wrote
          exact wrq_breaks registered read chained wrote.1 wrote.2.1 wrote.2.2 _
theorem tftp_accounted {inputs : List TftpInput} (admissible : tftp.Admissible tftpStarted inputs) :
    tftp.Throughout TftpAccounted tftpStarted [] inputs ↔ tftp.Each TftpClear tftpStarted inputs := by
  refine Machine.throughout_iff_each (R := fun s past => TftpAccounted s past ∧ TimerOwned s) (fun _ _ held => held.1)
    (fun s past i held enabled clear => ?_) (fun s past i held enabled unclear => ?_) ⟨?_,?_⟩ admissible
  · obtain ⟨leads,timer⟩ := tftp_step_keeps held.2 enabled clear
    exact ⟨(tftpHandlings_past held.1).mpr leads,timer⟩
  · exact fun all => tftp_step_breaks enabled unclear _ ((tftpHandlings_past held.1).mp all)
  · refine ⟨trivial,?_⟩
    funext r
    cases r <;> rfl
  · exact fun off => Bool.noConfusion off

end
/-! ### The server for new firmware -/

section
variable {c a : Nat → Bool} {n : Nat} {env : IapEnv} {addr : Peer} {p : Packet} {s : IapServer} {past events : List IapEvent}

@[simp] theorem iapHandlings_handling (h : Handling TftpResource) (rest : List IapEvent) :
    iapHandlings (.handling h :: rest) = h :: iapHandlings rest := rfl
theorem iapHandlings_append (front back : List IapEvent) :
    iapHandlings (front ++ back) = iapHandlings front ++ iapHandlings back := List.filterMap_append

theorem iapAck_leads (has : c n = true) (block : Nat) :
    Leads (heldBy true c a) (iapHandlings (iapTftpSendAckPacket env n addr block)) (heldBy true c a) := by
  unfold iapTftpSendAckPacket
  split
  · exact (leads_cons _).mpr ⟨has,leads_nil⟩
  · exact leads_nil
theorem iapEndSetFlash_leads : iapHandlings (iapEndSetFlash s).2 = [] := by
  unfold iapEndSetFlash
  split <;> rfl

/-- A request that finds a control block and a port. -/
theorem iap_request_keeps (new : env.udpNew = true) (bind : env.udpBind = true) :
    Leads (heldOpen false s.pcbs) (iapHandlings (iap.step s (.request env addr p)).2)
      (heldOpen false (iap.step s (.request env addr p)).1.pcbs) := by
  have fresh := openOf_fresh s.pcbs
  have none : openOf (s.pcbs ++ [none]) = openOf s.pcbs := by
    rw [openOf_snoc,Option.isSome_none,update_free fresh]
  have some (args : IapArgs) : openOf (s.pcbs ++ [some args]) = Function.update (openOf s.pcbs) s.pcbs.length true :=
    openOf_snoc (some args)
  have made : Leads (heldOpen true s.pcbs) [.acquire (.pcb s.pcbs.length),.use (.pcb s.pcbs.length),.use .pbuf]
      (heldBy true (Function.update (openOf s.pcbs) s.pcbs.length true) (openOf s.pcbs)) := by
    refine (leads_cons _).mpr ⟨fresh,?_⟩
    rw [heldOpen,after_acquire_pcb]
    exact (leads_cons _).mpr ⟨Function.update_self ..,(leads_cons _).mpr ⟨rfl,leads_nil⟩⟩
  simp only [iap,iapStep,iapTftpRecvCallback,new,bind,if_true,IapServer.withOutcomes]
  by_cases write : iapTftpDecodeOp p = tftpWrq
  · simp only [if_pos write,iapTftpProcessWrite]
    by_cases malloc : env.memMalloc = true
    · simp only [if_pos malloc]
      unfold heldOpen
      rw [some,iapHandlings_handling,iapHandlings_append,iapHandlings_append,iapHandlings_append]
      refine pbuf_leads (made.append (Leads.append ?_ (iapAck_leads (Function.update_self ..) 0)))
      refine (leads_cons _).mpr ⟨fresh,?_⟩
      rw [after_acquire_args]
      exact (leads_cons _).mpr ⟨Function.update_self ..,(leads_cons _).mpr ⟨Function.update_self ..,leads_nil⟩⟩
    · simp only [if_neg malloc]
      unfold heldOpen
      have removed := remove_leads (b := true) (a := openOf s.pcbs)
        (Function.update_self s.pcbs.length true (openOf s.pcbs))
      rw [Function.update_idem,update_free fresh] at removed
      rw [none,iapHandlings_handling,iapHandlings_append,iapHandlings_append]
      exact pbuf_leads (made.append removed)
  · simp only [if_neg write]
    unfold heldOpen
    rw [none]
    have removed : Leads (heldBy true (Function.update (openOf s.pcbs) s.pcbs.length true) (openOf s.pcbs))
        [.release (.pcb s.pcbs.length)] (heldBy true (openOf s.pcbs) (openOf s.pcbs)) := by
      refine (leads_cons _).mpr ⟨Function.update_self ..,?_⟩
      rw [after_release_pcb,Function.update_idem,update_free fresh]
      exact leads_nil
    exact pbuf_leads (made.append removed)
/-- Without a control block or a port the packet is not freed. -/
theorem iap_request_breaks (missing : ¬ (env.udpNew = true ∧ env.udpBind = true)) :
    ¬ Leads (heldOpen false s.pcbs) (iapHandlings (iap.step s (.request env addr p)).2) (heldBy false c a) := by
  simp only [iap,iapStep,iapTftpRecvCallback,IapServer.withOutcomes]
  by_cases new : env.udpNew = true
  · have bind : ¬ env.udpBind = true := fun bind => missing ⟨new,bind⟩
    simp only [if_pos new,if_neg bind]
    refine pbuf_kept (heldBy true (Function.update (openOf s.pcbs) s.pcbs.length true) (openOf s.pcbs)) ?_ rfl
    refine (leads_cons _).mpr ⟨openOf_fresh _,?_⟩
    rw [after_acquire_pcb]
    exact (leads_cons _).mpr ⟨Function.update_self ..,leads_nil⟩
  · simp only [if_neg new]
    exact pbuf_kept _ leads_nil rfl

section
variable {args : IapArgs} (registered : s.args n = some args)
include registered

theorem openOf_iapArgs : openOf s.pcbs n = true := by
  rw [IapServer.args] at registered
  rw [openOf,registered]
  rfl
/-- A packet in one buffer. -/
theorem iap_data_keeps (single : ¬ p.Chained) :
    Leads (heldOpen false s.pcbs) (iapHandlings (iap.step s (.data env n addr p)).2)
      (heldOpen false (iap.step s (.data env n addr p)).1.pcbs) := by
  have has := openOf_iapArgs registered
  have inside := openOf_lt has
  have step := @iapStep_data env n addr p s args registered
  obtain ⟨kept,-⟩ := iapAccept_frame env p (s.withOutcomes env.outcomes) args
  have pcbs : (iapAccept env args p (s.withOutcomes env.outcomes)).1.pcbs = s.pcbs := kept
  show Leads _ (iapHandlings (iapStep s (.data env n addr p)).2) (heldOpen false (iapStep s (.data env n addr p)).1.pcbs)
  rw [step]
  by_cases short : p.bytes.length < tftpDataPktLenMax
  · rw [iapWrqRecvCallback_short single short]
    obtain ⟨after,-⟩ := iapEndSetFlash_cases n addr { (iapAccept env args p (s.withOutcomes env.outcomes)).1 with
      pcbs := (iapAccept env args p (s.withOutcomes env.outcomes)).1.pcbs.set n none }
    dsimp only
    unfold heldOpen
    rw [after]
    dsimp only
    rw [pcbs,openOf_set inside,Option.isSome_none,iapHandlings_handling,iapHandlings_append,iapEndSetFlash_leads,
      List.append_nil,iapHandlings_append,iapHandlings_append,iapHandlings_append]
    exact pbuf_leads (((look_leads has).append (iapAck_leads has _)).append (remove_args_leads has has))
  · rw [iapWrqRecvCallback_full single short]
    dsimp only
    unfold heldOpen
    have same : Function.update (openOf s.pcbs) n true = openOf s.pcbs := by rw [← has,Function.update_eq_self]
    rw [pcbs,openOf_set inside,Option.isSome_some,same,iapHandlings_handling,iapHandlings_append,iapHandlings_append]
    exact pbuf_leads ((look_leads has).append (iapAck_leads has _))

theorem iap_data_breaks (chained : p.Chained) :
    ¬ Leads (heldOpen false s.pcbs) (iapHandlings (iap.step s (.data env n addr p)).2) (heldBy false c a) := by
  show ¬ Leads _ (iapHandlings (iapStep s (.data env n addr p)).2) _
  rw [iapStep_chained registered chained]
  have used : Leads (heldOpen true s.pcbs) [.use .pbuf] (heldOpen true s.pcbs) := (leads_cons _).mpr ⟨rfl,leads_nil⟩
  exact pbuf_kept _ used rfl

end

theorem iapHandlings_past {held : TftpResource → Bool} (accounted : IapAccounted s past) :
    Leads (fun _ => false) (iapHandlings (past ++ events)) held ↔ Leads (heldOpen false s.pcbs) (iapHandlings events) held := by
  rw [iapHandlings_append]
  exact ⟨accounted.behind,accounted.append⟩
theorem iap_accounted (flash : Flash) {inputs : List IapInput} (admissible : iap.Admissible (iapStarted flash) inputs) :
    iap.Throughout IapAccounted (iapStarted flash) [] inputs ↔ iap.Each IapClear (iapStarted flash) inputs := by
  refine Machine.throughout_iff_each (R := IapAccounted) (fun _ _ held => held)
    (fun s past i held enabled clear => (iapHandlings_past held).mpr ?_)
    (fun s past i held enabled unclear all => ?_) ⟨trivial,?_⟩ admissible
  · cases i with
    | request env addr p => exact iap_request_keeps clear.1 clear.2
    | data env pcb addr p =>
      obtain ⟨args,registered⟩ := Option.isSome_iff_exists.mp enabled.2.1
      exact iap_data_keeps registered clear
  · have broken := (iapHandlings_past held).mp all
    cases i with
    | request env addr p => exact iap_request_breaks unclear broken
    | data env pcb addr p =>
      obtain ⟨args,registered⟩ := Option.isSome_iff_exists.mp enabled.2.1
      exact iap_data_breaks registered (not_not.mp unclear) broken
  · funext r
    cases r <;> rfl

end

/-- Both servers account for everything exactly when no input finds the fault: in the server
    for files a packet for a read whose last block was sent, a packet of a write in more than
    one buffer, or a block of which nothing is written, and in the server for new firmware a
    packet in more than one buffer or a request without a control block or a port. -/
theorem tftp_resources (inputs : List TftpInput) (admissible : tftp.Admissible tftpStarted inputs) (flash : Flash)
    (iapInputs : List IapInput) (iapAdmissible : iap.Admissible (iapStarted flash) iapInputs) :
    (tftp.Throughout TftpAccounted tftpStarted [] inputs ↔ tftp.Each TftpClear tftpStarted inputs) ∧
      (iap.Throughout IapAccounted (iapStarted flash) [] iapInputs ↔ iap.Each IapClear (iapStarted flash) iapInputs) :=
  ⟨tftp_accounted admissible,iap_accounted flash iapAdmissible⟩
/-- A request to write and its block, at both servers. -/
theorem tftp_resources_two_packets :
    let inputs := [.request (.plain []) ⟨1,2⟩ ⟨[0,2],2,[]⟩,.data (.plain []) 0 ⟨1,2⟩ ⟨[0,3,0,1,7],5,[]⟩]
    let iapInputs := [.request .plain ⟨1,2⟩ ⟨[0,2],2,[]⟩,.data .plain 0 ⟨1,2⟩ ⟨[0,3,0,1,7],5,[]⟩]
    let flash : Flash := ⟨fun _ => blankWord,[],true⟩
    (tftp.Throughout TftpAccounted tftpStarted [] inputs ↔ tftp.Each TftpClear tftpStarted inputs) ∧
      (iap.Throughout IapAccounted (iapStarted flash) [] iapInputs ↔ iap.Each IapClear (iapStarted flash) iapInputs) :=
  tftp_resources [.request (.plain []) ⟨1,2⟩ ⟨[0,2],2,[]⟩,.data (.plain []) 0 ⟨1,2⟩ ⟨[0,3,0,1,7],5,[]⟩] (by decide)
    ⟨fun _ => blankWord,[],true⟩
    [.request .plain ⟨1,2⟩ ⟨[0,2],2,[]⟩,.data .plain 0 ⟨1,2⟩ ⟨[0,3,0,1,7],5,[]⟩] (by decide)
/-- A file of one byte is read and acknowledged, and a packet for the server for new firmware
    finds no control block. -/
theorem tftp_resources_fails :
    let read : List TftpInput := [.request (.plain [7]) ⟨1,2⟩ ⟨[0,1],2,[]⟩,.data (.plain []) 0 ⟨1,2⟩ ⟨[0,4,0,1],4,[]⟩]
    let started := iapStarted ⟨fun _ => blankWord,[],true⟩
    let refused : List IapInput := [.request { IapEnv.plain with udpNew := false } ⟨1,2⟩ ⟨[0,2],2,[]⟩]
    (tftp.Admissible tftpStarted read ∧ ¬ tftp.Throughout TftpAccounted tftpStarted [] read) ∧
      iap.Admissible started refused ∧ ¬ iap.Throughout IapAccounted started [] refused := by
  refine ⟨⟨by decide,?_⟩,by decide,?_⟩
  · intro all
    have disciplined := all.last.1
    revert disciplined
    decide
  · intro all
    have freed := congrFun all.last.2 .pbuf
    contradiction

end Net2Modbus
