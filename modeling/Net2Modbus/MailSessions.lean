import Net2Modbus.Machine
import Net2Modbus.Ownership
import Net2Modbus.Smtp

/-!
# What the mail client holds

The sessions and the pcbs of the mail client, over every order of mails, answers of lwIP
and callbacks: each session has one pcb that serves it, and a pcb without a session is
closed, or its mail has been delivered.
-/
namespace Net2Modbus

/-- A mail to send; the end of a lookup; what lwIP reports of a pcb: the connection stands,
    data or a FIN has come, data was acknowledged, the timer runs, the pcb was given up with
    an error; and the end of a pcb that has been closed. -/
inductive MailInput
  | sendMail (env : MailEnv) (mail : Mail)
  | dnsFound (pcb : Nat) (found : Bool) (connect : ErrT)
  | connected (env : MailTurn) (pcb : Nat) (err : ErrT)
  | recv (env : MailTurn) (pcb : Nat) (bytes : List UInt8) (err : ErrT)
  | recvEnd (env : MailTurn) (pcb : Nat) (err : ErrT)
  | sent (env : MailTurn) (pcb : Nat)
  | poll (env : MailTurn) (pcb : Nat)
  | err (pcb : Nat) (err : ErrT)
  | stackFrees (pcb : Nat)
  deriving DecidableEq, Repr

/-- When lwIP can report something. -/
def mailEnabled (w : MailSystem) : MailInput → Prop
  | .sendMail _ _ => True
  | .dnsFound n _ _ => (w.pcbs[n]?).any (·.dns) = true
  | .connected _ n _ => (w.pcbs[n]?).any (·.state == .synSent) = true
  | .recv _ n _ _ | .recvEnd _ n _ | .sent _ n | .poll _ n | .err n _ => (w.pcbs[n]?).any (·.state.active) = true
  | .stackFrees n => (w.pcbs[n]?).any (fun pcb => !pcb.state.live) = true
/-- A mail is sent, or lwIP changes a pcb and calls its callback. -/
def mailStep (w : MailSystem) : MailInput → MailSystem × List MailEvent
  | .sendMail env mail => smtpSendMail env mail w
  | .dnsFound n found connect => smtpDnsFound found connect n (w.changePcb n fun pcb => { pcb with dns := false })
  | .connected env n err =>
    smtpTcpConnected env (w.arg n) n err (w.changePcb n fun pcb => { pcb with state := .established })
  | .recv env n bytes err => smtpTcpRecv env (w.arg n) n (some bytes) err w
  | .recvEnd env n err =>
    smtpTcpRecv env (w.arg n) n none err (w.changePcb n fun pcb => { pcb with state := pcb.state.finReceived })
  -- smtp_tcp_sent only calls smtp_process
  | .sent env n => smtpProcess env (w.arg n) n none w
  | .poll env n => smtpTcpPoll env (w.arg n) n w
  | .err n err => smtpTcpErr (w.arg n) err (w.changePcb n fun _ => ⟨.freed,none,false⟩)
  | .stackFrees n => (w.changePcb n fun _ => ⟨.freed,none,false⟩,[])
/-- The mail client with lwIP. -/
def mailer : Machine MailSystem MailInput MailEvent where
  enabled := mailEnabled
  step := mailStep
/-- Before the first mail. -/
def mailStarted : MailSystem := ⟨[],[]⟩

instance (w : MailSystem) (i : MailInput) : Decidable (mailer.enabled w i) :=
  match i with
  | .sendMail _ _ => isTrue trivial
  | .dnsFound _ _ _ | .connected _ _ _ | .recv _ _ _ _ | .recvEnd _ _ _ | .sent _ _ | .poll _ _ | .err _ _ |
    .stackFrees _ => inferInstanceAs (Decidable (_ = true))

def MailEvent.handled : MailEvent → Option (Handling Nat)
  | .handling h => some h
  | _ => none
def mailHandlings (events : List MailEvent) : List (Handling Nat) := events.filterMap MailEvent.handled

/-- It connects, is connected, or waits for a lookup. -/
def SmtpPcb.Serves (pcb : SmtpPcb) : Prop := pcb.state.live = true ∧ (pcb.state.active = true ∨ pcb.dns = true)

/-- A lookup that will call back finds it bound, with its session. -/
def SmtpPcb.LookedUp (pcb : SmtpPcb) : Prop := pcb.dns = true → pcb.state = .bound ∧ pcb.arg ≠ none

/-- Every session was allocated, used and freed in turn, those that live have one pcb each,
    which serves them, a lookup goes on for a pcb with a session, and every other pcb has
    been closed or freed, or is excused. -/
structure MailAccounted (excused : Nat → SmtpPcb → List MailEvent → Prop) (w : MailSystem) (past : List MailEvent) : Prop where
  sessions : Leads (fun _ => false) (mailHandlings past) (openOf w.sessions)
  matched : Matched (w.arg ·) (openOf w.sessions)
  serves : ∀ (n : Nat) (pcb : SmtpPcb), w.pcbs[n]? = some pcb → pcb.arg ≠ none → pcb.Serves
  lookups : ∀ (n : Nat) (pcb : SmtpPcb), w.pcbs[n]? = some pcb → pcb.LookedUp
  pcbs : ∀ (n : Nat) (pcb : SmtpPcb), w.pcbs[n]? = some pcb → pcb.state.live = true → pcb.arg = none → excused n pcb past

/-- Its QUIT was written, or it has not been bound. -/
def MailLeft (n : Nat) (pcb : SmtpPcb) (past : List MailEvent) : Prop :=
  pcb.state ≠ .closed → .command n .closed smtpCmdQuit ∈ past

/-- It has no session although it was bound and is alive. -/
def SmtpPcb.Loose (pcb : SmtpPcb) : Prop := pcb.arg = none ∧ pcb.state.live = true ∧ pcb.state ≠ .closed

section
variable {w : MailSystem} {n k : Nat} {pcb : SmtpPcb} {s : SmtpSession}

theorem changePcb_eq (has : w.pcbs[n]? = some pcb) (f : SmtpPcb → SmtpPcb) :
    w.changePcb n f = { w with pcbs := w.pcbs.set n (f pcb) } := by
  rw [MailSystem.changePcb,List.modify_eq_set_getElem?,has]
  rfl
theorem pcbs_set_self (has : w.pcbs[n]? = some pcb) (new : SmtpPcb) : (w.pcbs.set n new)[n]? = some new :=
  List.getElem?_set_self (List.getElem?_eq_some_iff.mp has).1
theorem openOf_session : openOf w.sessions k = (w.session k).isSome := rfl
/-- A session that lives is changed. -/
theorem openOf_setSession (lives : openOf w.sessions k = true) : openOf (w.setSession k s).sessions = openOf w.sessions := by
  rw [MailSystem.setSession,openOf_set (openOf_lt lives),Option.isSome_some,← lives,Function.update_eq_self]
theorem arg_eq (has : w.pcbs[n]? = some pcb) : w.arg n = pcb.arg := by rw [MailSystem.arg,has]; rfl
theorem arg_set {w' : MailSystem} (has : w.pcbs[n]? = some pcb) {new : SmtpPcb} (changed : w'.pcbs = w.pcbs.set n new) :
    (w'.arg ·) = Function.update (w.arg ·) n new.arg := by
  funext m
  rw [Function.update_apply,MailSystem.arg,changed]
  split
  next same => rw [same,pcbs_set_self has]; rfl
  next other => rw [List.getElem?_set_ne (Ne.symm other)]; rfl

end

@[simp] theorem mailHandlings_handling (h : Handling Nat) (rest : List MailEvent) :
    mailHandlings (.handling h :: rest) = h :: mailHandlings rest := rfl
theorem mailHandlings_append (front back : List MailEvent) :
    mailHandlings (front ++ back) = mailHandlings front ++ mailHandlings back := List.filterMap_append

/-- A callback finds its pcb, and the session that is its argument. -/
structure Ready (w : MailSystem) (n : Nat) (pcb : SmtpPcb) : Prop where
  has : w.pcbs[n]? = some pcb
  lives : ∀ k, pcb.arg = some k → openOf w.sessions k = true
  serves : pcb.arg ≠ none → pcb.Serves
  lookup : pcb.LookedUp
/-- It leaves the pcb with its session, or without it and the session freed. -/
structure Served (w : MailSystem) (n : Nat) (pcb : SmtpPcb) (done : MailSystem × List MailEvent) (new : SmtpPcb) : Prop where
  pcbs : done.1.pcbs = w.pcbs.set n new
  serves : new.arg ≠ none → new.Serves
  lookup : new.LookedUp
  loose : new.Loose → pcb.Loose ∨ .command n .closed smtpCmdQuit ∈ done.2
  leads : Leads (openOf w.sessions) (mailHandlings done.2) (openOf done.1.sessions)
  session : new.arg = pcb.arg ∧ openOf done.1.sessions = openOf w.sessions ∨
    new.arg = none ∧ openOf done.1.sessions = without (openOf w.sessions) pcb.arg

section
variable {w w' : MailSystem} {n k : Nat} {pcb new : SmtpPcb} {done : MailSystem × List MailEvent} {past : List MailEvent}

theorem MailAccounted.ready {excused : Nat → SmtpPcb → List MailEvent → Prop} (accounted : MailAccounted excused w past)
    (has : w.pcbs[n]? = some pcb) : Ready w n pcb where
  has := has
  lives k owned := accounted.matched.alive n k ((arg_eq has).trans owned)
  serves := accounted.serves n pcb has
  lookup := accounted.lookups n pcb has
theorem Served.keeps (served : Served w n pcb done new) (has : w.pcbs[n]? = some pcb)
    (accounted : MailAccounted MailLeft w past) : MailAccounted MailLeft done.1 (past ++ done.2) := by
  have other : ∀ m found, done.1.pcbs[m]? = some found → m = n ∧ found = new ∨ w.pcbs[m]? = some found := by
    intro m found there
    rw [served.pcbs] at there
    by_cases same : m = n
    · rw [same,pcbs_set_self has,Option.some_inj] at there
      exact .inl ⟨same,there.symm⟩
    · rw [List.getElem?_set_ne (Ne.symm same)] at there
      exact .inr there
  refine ⟨?_,?_,?_,?_,?_⟩
  · rw [mailHandlings_append]
    exact accounted.sessions.append served.leads
  · rw [arg_set has served.pcbs]
    rcases served.session with ⟨kept,same⟩ | ⟨gone,freed⟩
    · rw [kept,same,← arg_eq has,Function.update_eq_self]
      exact accounted.matched
    · rw [gone,freed,← arg_eq has]
      exact accounted.matched.release n
  · intro m found there
    rcases other m found there with ⟨-,rfl⟩ | there
    · exact served.serves
    · exact accounted.serves m found there
  · intro m found there
    rcases other m found there with ⟨-,rfl⟩ | there
    · exact served.lookup
    · exact accounted.lookups m found there
  · intro m found there lives free bound
    rcases other m found there with ⟨rfl,rfl⟩ | there
    · rcases served.loose ⟨free,lives,bound⟩ with loose | quit
      · exact List.mem_append_left _ (accounted.pcbs m pcb has loose.2.1 loose.1 loose.2.2)
      · exact List.mem_append_right _ quit
    · exact List.mem_append_left _ (accounted.pcbs m found there lives free bound)
/-- The pcb or its session was changed before the callback. -/
theorem Served.behind {changed : SmtpPcb} (served : Served w' n changed done new)
    (pcbs : w'.pcbs = w.pcbs.set n changed) (arg : changed.arg = pcb.arg) (loose : changed.Loose → pcb.Loose)
    (same : openOf w'.sessions = openOf w.sessions) : Served w n pcb done new where
  pcbs := by rw [served.pcbs,pcbs,List.set_set]
  serves := served.serves
  lookup := served.lookup
  loose free := (served.loose free).imp_left loose
  leads := same ▸ served.leads
  session := by rw [← same,← arg]; exact served.session
theorem Served.of_same (served : Served w' n pcb done new) (pcbs : w'.pcbs = w.pcbs)
    (same : openOf w'.sessions = openOf w.sessions) : Served w n pcb done new where
  pcbs := by rw [served.pcbs,pcbs]
  serves := served.serves
  lookup := served.lookup
  loose := served.loose
  leads := same ▸ served.leads
  session := by rw [← same]; exact served.session
/-- The session is used first, or something is done that handles no session. -/
theorem Served.cons (served : Served w n pcb done new) {e : MailEvent}
    (fine : e.handled = none ∨ ∃ k, e = .use k ∧ openOf w.sessions k = true) : Served w n pcb (done.1,e :: done.2) new where
  pcbs := served.pcbs
  serves := served.serves
  lookup := served.lookup
  loose free := (served.loose free).imp_right (List.mem_cons_of_mem _)
  leads := by
    rcases fine with quiet | ⟨k,rfl,lives⟩
    · rw [mailHandlings,List.filterMap_cons_none quiet]
      exact served.leads
    · exact (leads_cons _).mpr ⟨lives,served.leads⟩
  session := served.session

variable (ready : Ready w n pcb)
include ready

theorem Ready.pcbs_same : w.pcbs = w.pcbs.set n pcb := by
  obtain ⟨inside,same⟩ := List.getElem?_eq_some_iff.mp ready.has
  rw [← same,List.set_getElem_self]
/-- Only the session is changed. -/
theorem Ready.kept (pcbs : done.1.pcbs = w.pcbs) (same : openOf done.1.sessions = openOf w.sessions)
    (quiet : mailHandlings done.2 = []) : Served w n pcb done pcb where
  pcbs := pcbs.trans ready.pcbs_same
  serves := ready.serves
  lookup := ready.lookup
  loose := .inl
  leads := by rw [quiet,same]; exact leads_nil
  session := .inl ⟨rfl,same⟩

end

/-! ### The functions of the client -/

section
variable {w : MailSystem} {n k : Nat} {pcb : SmtpPcb} {s : SmtpSession} {env : MailTurn} {result : SmtpResult}
  {srvErr : Nat} {err : ErrT}

theorem settled_lookup (settled : pcb.dns = false) : pcb.LookedUp := by
  intro pending
  rw [settled] at pending
  contradiction
theorem dead_not_loose (dead : pcb.state.live = false) : ¬ pcb.Loose := by
  rintro ⟨-,lives,-⟩
  rw [dead] at lives
  contradiction
/-- What `tcp_close` leaves has been closed, or is as it was. -/
theorem close_done (a : CloseAnswer) (state : PcbState) :
    (state.close a).2 = true ∧ (state.close a).1.live = false ∨ (state.close a).2 = false ∧ (state.close a).1 = state := by
  cases state <;> cases a <;> decide
variable (s result srvErr err) in
theorem smtpFree_leads (lives : openOf w.sessions k = true) :
    Leads (openOf w.sessions) (mailHandlings (smtpFree k s result srvErr err w).2) (without (openOf w.sessions) (some k)) ∧
      openOf (smtpFree k s result srvErr err w).1.sessions = without (openOf w.sessions) (some k) := by
  constructor
  · refine (leads_cons _).mpr ⟨lives,(leads_cons _).mpr ⟨lives,?_⟩⟩
    split <;> exact leads_nil
  · exact openOf_set (openOf_lt lives) none
variable (result srvErr err) in
theorem smtpFreeAt_eq (lives : openOf w.sessions k = true) :
    ∃ s, smtpFreeAt k result srvErr err w = smtpFree k s result srvErr err w := by
  obtain ⟨s,present⟩ := Option.isSome_iff_exists.mp lives
  refine ⟨s,?_⟩
  rw [smtpFreeAt,MailSystem.session,present]
/-- The pcb is given up, and its session is freed. -/
theorem Ready.freed (ready : Ready w n pcb) (owned : pcb.arg = some k) (new : SmtpPcb) (free : new.arg = none)
    (settled : new.dns = false) (front : List MailEvent) (quiet : mailHandlings front = [])
    (loose : new.Loose → .command n .closed smtpCmdQuit ∈ front) :
    let freed := smtpFree k s result srvErr err { w with pcbs := w.pcbs.set n new }
    Served w n pcb (freed.1,front ++ freed.2) new := by
  have lives := ready.lives k owned
  have given := smtpFree_leads (w := { w with pcbs := w.pcbs.set n new }) s result srvErr err lives
  refine ⟨rfl,absurd free,settled_lookup settled,fun free => .inr (List.mem_append_left _ (loose free)),?_,.inr ⟨free,?_⟩⟩
  · rw [mailHandlings_append,quiet,List.nil_append,given.2]
    exact given.1
  · rw [owned]
    exact given.2
theorem Ready.freedAt (ready : Ready w n pcb) (owned : pcb.arg = some k) {new : SmtpPcb} (free : new.arg = none)
    (settled : new.dns = false) (dead : new.state.live = false) :
    Served w n pcb (smtpFreeAt k result srvErr err { w with pcbs := w.pcbs.set n new }) new := by
  have lives : openOf ({ w with pcbs := w.pcbs.set n new } : MailSystem).sessions k = true := ready.lives k owned
  obtain ⟨s,freed⟩ := smtpFreeAt_eq result srvErr err lives
  rw [freed]
  exact ready.freed owned new free settled [] rfl fun loose => absurd loose (dead_not_loose dead)
/-- A pcb without a session is closed. -/
theorem alone_served (free : pcb.arg = none) {new : SmtpPcb} (same : new.arg = none) (settled : new.dns = false)
    (loose : new.Loose → pcb.Loose) :
    Served w n pcb ({ w with pcbs := w.pcbs.set n new },[]) new where
  pcbs := rfl
  serves := absurd same
  lookup := settled_lookup settled
  loose := fun was => .inl (loose was)
  leads := leads_nil
  session := .inl ⟨same.trans free.symm,rfl⟩
theorem smtpClose_eq (has : w.pcbs[n]? = some pcb) (a : CloseAnswer) (arg : Option Nat) :
    smtpClose a arg n result srvErr err w =
      let closed := { w with pcbs := w.pcbs.set n { pcb with arg := none, state := (pcb.state.close a).1 } }
      if (pcb.state.close a).2 then
        match arg with
        | some k => smtpFreeAt k result srvErr err closed
        | none => (closed,[])
      else ({ w with pcbs := w.pcbs.set n { pcb with arg := arg, state := (pcb.state.close a).1 } },[]) := by
  have unowned := changePcb_eq has fun pcb => { pcb with arg := none }
  have closing := changePcb_eq (w := { w with pcbs := w.pcbs.set n { pcb with arg := none } }) (pcbs_set_self has _)
    fun pcb => { pcb with state := (pcb.state.close a).1 }
  have back := changePcb_eq (w := { w with pcbs := w.pcbs.set n { pcb with arg := none, state := (pcb.state.close a).1 } })
    (pcbs_set_self has _) fun pcb => { pcb with arg := arg }
  have closed : mailTcpClose a n (tcpArg n none w) =
      ({ w with pcbs := w.pcbs.set n { pcb with arg := none, state := (pcb.state.close a).1 } },(pcb.state.close a).2) := by
    rw [tcpArg,unowned,mailTcpClose,pcbs_set_self has,closing,List.set_set]
  unfold smtpClose
  rw [closed]
  cases arg with
  | none =>
    dsimp only
    rw [tcpArg,back,List.set_set]
  | some k =>
    dsimp only
    rw [tcpArg,back,List.set_set]
theorem smtpClose_served (ready : Ready w n pcb) (settled : pcb.dns = false) (a : CloseAnswer) :
    ∃ new, Served w n pcb (smtpClose a pcb.arg n result srvErr err w) new := by
  rw [smtpClose_eq ready.has]
  rcases close_done a pcb.state with ⟨yes,dead⟩ | ⟨no,same⟩
  · refine ⟨{ pcb with arg := none, state := (pcb.state.close a).1 },?_⟩
    rw [yes,if_pos rfl]
    cases owned : pcb.arg with
    | none => exact alone_served owned rfl settled fun loose => absurd loose (dead_not_loose dead)
    | some k => exact ready.freedAt owned rfl settled dead
  · refine ⟨pcb,?_⟩
    rw [no,same,if_neg Bool.false_ne_true]
    exact ready.kept ready.pcbs_same.symm rfl rfl

theorem sendBody_handlings : mailHandlings (smtpSendBody env n s).2 = [] := by
  unfold smtpSendBody smtpSendPart
  split
  · dsimp only
    split <;> split <;> rfl
  · rfl
/-- A session is closed with its QUIT. -/
theorem smtpNext_closed {responseCode : Nat} (other : s.state ≠ .closed) (closed : (smtpNext s responseCode).1 = .closed) :
    (smtpNext s responseCode).2 = smtpCmdQuit := by
  have mails : (smtpPrepareAuthOrMail s).1 ≠ .closed := by
    unfold smtpPrepareAuthOrMail
    split
    · split <;> exact SmtpSessionState.noConfusion
    · exact SmtpSessionState.noConfusion
  unfold smtpNext at closed ⊢
  cases at_ : s.state <;> simp only [at_] at closed other ⊢
  case body => contradiction
  case closed => exact absurd rfl other
  all_goals
    split at closed
    next code => first | contradiction | exact (congrArg Prod.snd (if_pos code)).trans rfl
    next => contradiction
theorem smtpAdvance_served (ready : Ready w n pcb) (settled : pcb.dns = false) (owned : pcb.arg = some k)
    {next : SmtpSessionState} {tx : List UInt8}
    (quit : next = .closed → tx = smtpCmdQuit) : ∃ new, Served w n pcb (smtpAdvance env k n next tx s w) new := by
  have kept := fun s' => openOf_setSession (s := s') (ready.lives k owned)
  unfold smtpAdvance
  dsimp only
  split
  · cases next with
    | body => exact ⟨pcb,ready.kept rfl (kept _) sendBody_handlings⟩
    | closed =>
      have unowned := changePcb_eq ready.has fun pcb => { pcb with arg := none }
      have whole : smtpCmdQuit.take (smtpCmdQuit.length % 65536) = smtpCmdQuit := by decide
      rw [tcpArg,unowned,quit rfl,whole]
      exact ⟨_,ready.freed owned { pcb with arg := none } rfl settled [.command n .closed smtpCmdQuit] rfl
        fun _ => List.mem_singleton_self _⟩
    | _ => exact ⟨pcb,ready.kept rfl (kept _) rfl⟩
  · exact ⟨pcb,ready.kept rfl rfl rfl⟩
theorem smtpAnswered_served (ready : Ready w n pcb) (settled : pcb.dns = false) (owned : pcb.arg = some k) (responseCode : Nat) :
    ∃ new, Served w n pcb (smtpAnswered env k n responseCode s w) new := by
  unfold smtpAnswered
  dsimp only
  split
  · exact ⟨pcb,ready.kept rfl rfl rfl⟩
  · next other =>
    split
    · rw [← owned]
      exact smtpClose_served ready settled env.close
    · exact smtpAdvance_served ready settled owned (smtpNext_closed other)
/-- The session has changed since. -/
theorem Ready.setSession (ready : Ready w n pcb) (owned : pcb.arg = some k) : Ready (w.setSession k s) n pcb where
  has := ready.has
  lives j has := by
    rw [openOf_setSession (ready.lives k owned)]
    exact ready.lives j has
  serves := ready.serves
  lookup := ready.lookup
theorem Served.of_setSession {done : MailSystem × List MailEvent} (ready : Ready w n pcb) (owned : pcb.arg = some k)
    (served : ∃ new, Served (w.setSession k s) n pcb done new) : ∃ new, Served w n pcb done new := by
  obtain ⟨new,served⟩ := served
  exact ⟨new,served.of_same rfl (openOf_setSession (ready.lives k owned))⟩
theorem smtpRespond_served (ready : Ready w n pcb) (settled : pcb.dns = false) (owned : pcb.arg = some k) :
    ∃ new, Served w n pcb (smtpRespond env k n s w) new := by
  have kept := fun s' => openOf_setSession (s := s') (ready.lives k owned)
  unfold smtpRespond
  dsimp only
  split
  · exact ⟨pcb,ready.kept rfl (kept _) rfl⟩
  · split
    · exact Served.of_setSession ready owned (smtpAnswered_served (ready.setSession owned) settled owned _)
    · exact ⟨pcb,ready.kept rfl (kept _) rfl⟩
theorem smtpProcess_served (ready : Ready w n pcb) (settled : pcb.dns = false) (p : Option (List UInt8)) :
    ∃ new, Served w n pcb (smtpProcess env pcb.arg n p w) new := by
  unfold smtpProcess
  cases owned : pcb.arg with
  | none => exact ⟨pcb,ready.kept rfl rfl rfl⟩
  | some k =>
    have lives := ready.lives k owned
    obtain ⟨s,present⟩ := Option.isSome_iff_exists.mp (openOf_session.symm.trans lives)
    dsimp only
    rw [present]
    suffices inner : ∃ new, Served w n pcb _ new by
      obtain ⟨new,served⟩ := inner
      exact ⟨new,served.cons (.inr ⟨k,rfl,lives⟩)⟩
    cases p with
    | some bytes => exact smtpRespond_served ready settled owned
    | none =>
      dsimp only
      split
      · rw [← owned]
        exact smtpClose_served ready settled env.close
      · split
        · exact ⟨pcb,ready.kept rfl (openOf_setSession lives) sendBody_handlings⟩
        · exact smtpRespond_served ready settled owned

end

section
variable {w : MailSystem} {n k : Nat} {pcb : SmtpPcb} {env : MailTurn} {err : ErrT} {past : List MailEvent}

/-- lwIP changes the pcb and calls the callback. -/
theorem Ready.change (ready : Ready w n pcb) (changed : SmtpPcb) (arg : changed.arg = pcb.arg)
    (serves : changed.arg ≠ none → changed.Serves) (settled : changed.dns = false) :
    Ready { w with pcbs := w.pcbs.set n changed } n changed where
  has := pcbs_set_self ready.has _
  lives := by rw [arg]; exact ready.lives
  serves := serves
  lookup := settled_lookup settled
theorem Served.of_change (changed : SmtpPcb) {done : MailSystem × List MailEvent} (arg : changed.arg = pcb.arg)
    (loose : changed.Loose → pcb.Loose) (served : ∃ new, Served { w with pcbs := w.pcbs.set n changed } n changed done new) :
    ∃ new, Served w n pcb done new := by
  obtain ⟨new,served⟩ := served
  exact ⟨new,served.behind rfl arg loose rfl⟩
theorem Ready.settled (ready : Ready w n pcb) (active : pcb.state.active = true) : pcb.dns = false := by
  by_contra pending
  rw [(ready.lookup (Bool.eq_true_of_not_eq_false pending)).1] at active
  contradiction
theorem connected_served (ready : Ready w n pcb) (state : pcb.state = .synSent) :
    ∃ new, Served w n pcb (mailStep w (.connected env n err)) new := by
  have settled := ready.settled (by rw [state]; rfl)
  have now := ready.change { pcb with state := .established } rfl (fun _ => ⟨rfl,.inl rfl⟩) settled
  rw [mailStep,changePcb_eq ready.has,arg_eq ready.has]
  have old : pcb.state.live = true ∧ pcb.state ≠ .closed := by
    rw [state]
    exact ⟨rfl,PcbState.noConfusion⟩
  refine Served.of_change { pcb with state := .established } rfl (fun loose => ⟨loose.1,old.1,old.2⟩) ?_
  unfold smtpTcpConnected
  split
  · exact ⟨_,now.kept rfl rfl rfl⟩
  · exact smtpClose_served now settled env.close
theorem recvEnd_served (ready : Ready w n pcb) (active : pcb.state.active = true) :
    ∃ new, Served w n pcb (mailStep w (.recvEnd env n err)) new := by
  have settled := ready.settled active
  have same : pcb.state.live = pcb.state.finReceived.live ∧ (pcb.state.live = true → pcb.state.finReceived.active = true) ∧
      pcb.state ≠ .closed := by
    revert active
    cases pcb.state <;> decide
  have now := ready.change { pcb with state := pcb.state.finReceived } rfl
    (fun owned => ⟨same.1 ▸ (ready.serves owned).1,.inl (same.2.1 (ready.serves owned).1)⟩) settled
  rw [mailStep,changePcb_eq ready.has,arg_eq ready.has]
  refine Served.of_change { pcb with state := pcb.state.finReceived } rfl (fun loose => ⟨loose.1,same.1.trans loose.2.1,same.2.2⟩) ?_
  exact smtpClose_served now settled env.close
theorem poll_served (ready : Ready w n pcb) (active : pcb.state.active = true) :
    ∃ new, Served w n pcb (mailStep w (.poll env n)) new := by
  have settled := ready.settled active
  rw [mailStep,arg_eq ready.has]
  unfold smtpTcpPoll
  cases owned : pcb.arg with
  | none => exact ⟨pcb,ready.kept rfl rfl rfl⟩
  | some k =>
    obtain ⟨s,present⟩ := Option.isSome_iff_exists.mp (openOf_session.symm.trans (ready.lives k owned))
    dsimp only
    rw [present,← owned]
    exact Served.of_setSession ready owned (smtpProcess_served (ready.setSession owned) settled none)
theorem err_served (ready : Ready w n pcb) : ∃ new, Served w n pcb (mailStep w (.err n err)) new := by
  refine ⟨⟨.freed,none,false⟩,?_⟩
  rw [mailStep,changePcb_eq ready.has,arg_eq ready.has]
  unfold smtpTcpErr
  cases owned : pcb.arg with
  | none => exact alone_served owned rfl rfl fun loose => absurd loose (dead_not_loose rfl)
  | some k => exact ready.freedAt owned rfl rfl rfl
theorem stackFrees_served (ready : Ready w n pcb) (closed : pcb.state.live = false) :
    ∃ new, Served w n pcb (mailStep w (.stackFrees n)) new := by
  refine ⟨⟨.freed,none,false⟩,?_⟩
  have alone : pcb.arg = none := by
    by_contra owned
    have lives := (ready.serves owned).1
    rw [closed] at lives
    contradiction
  rw [mailStep,changePcb_eq ready.has]
  exact alone_served alone rfl rfl fun loose => absurd loose (dead_not_loose rfl)
theorem dnsFound_served (ready : Ready w n pcb) (pending : pcb.dns = true) (found : Bool) (connect : ErrT) :
    ∃ new, Served w n pcb (mailStep w (.dnsFound n found connect)) new := by
  obtain ⟨bound,owned⟩ := ready.lookup pending
  obtain ⟨k,owned⟩ := Option.ne_none_iff_exists'.mp owned
  have looked : ({ w with pcbs := w.pcbs.set n ⟨.bound,some k,false⟩ } : MailSystem).pcbs[n]? = some ⟨.bound,some k,false⟩ :=
    pcbs_set_self ready.has _
  have closes : ∀ result err, ∃ new, Served w n pcb (smtpClose .fin (some k) n result 0 err
      { w with pcbs := w.pcbs.set n ⟨.bound,some k,false⟩ }) new := by
    intro result err
    rw [smtpClose_eq looked,List.set_set]
    exact ⟨_,ready.freedAt owned rfl rfl rfl⟩
  rw [mailStep,changePcb_eq ready.has,bound,owned]
  unfold smtpDnsFound
  cases found with
  | false =>
    rw [if_neg Bool.false_ne_true,arg_eq looked]
    exact closes _ _
  | true =>
    have connected : mailTcpConnect connect n { w with pcbs := w.pcbs.set n ⟨.bound,some k,false⟩ } =
        ({ w with pcbs := w.pcbs.set n ⟨if connect = .ok then .synSent else .bound,some k,false⟩ },connect) := by
      rw [mailTcpConnect,looked,changePcb_eq looked,List.set_set]
      rfl
    rw [if_pos rfl,connected]
    dsimp only
    by_cases route : connect = .ok
    · rw [if_pos route,if_pos route]
      exact ⟨⟨.synSent,some k,false⟩,rfl,fun _ => ⟨rfl,.inl rfl⟩,settled_lookup rfl,
        fun loose => absurd loose.1 (Option.some_ne_none k),leads_nil,
        .inl ⟨owned.symm,rfl⟩⟩
    · rw [if_neg route,if_neg route,arg_eq looked]
      exact closes _ _

end

/-! ### A new mail -/

/-- What a call of `smtp_send_mail` leaves that has a session: it is freed again, with no pcb
    or one that nothing will be heard of, or it has a new pcb. -/
structure Sent (w : MailSystem) (k : Nat) (done : MailSystem × List MailEvent) : Prop where
  leads : Leads (Function.update (openOf w.sessions) k true) (mailHandlings done.2) (openOf done.1.sessions)
  pcbs : (∃ new, done.1.pcbs = w.pcbs ++ new ∧ (∀ pcb ∈ new, pcb.arg = none ∧ pcb.dns = false ∧ ¬ pcb.Loose) ∧
      openOf done.1.sessions = openOf w.sessions) ∨
    ∃ new, done.1.pcbs = w.pcbs ++ [new] ∧ new.arg = some k ∧ new.Serves ∧ new.LookedUp ∧
      openOf done.1.sessions = Function.update (openOf w.sessions) k true

section
variable {w w' : MailSystem} {k : Nat} {s : SmtpSession} {env : MailEnv} {done : MailSystem × List MailEvent} {past : List MailEvent}

/-- New pcbs behind the old ones. -/
theorem MailAccounted.appended (accounted : MailAccounted MailLeft w past) {new : List SmtpPcb}
    (pcbs : done.1.pcbs = w.pcbs ++ new) (fine : ∀ pcb ∈ new, (pcb.arg ≠ none → pcb.Serves) ∧ pcb.LookedUp ∧ ¬ pcb.Loose)
    (matched : Matched (done.1.arg ·) (openOf done.1.sessions))
    (leads : Leads (openOf w.sessions) (mailHandlings done.2) (openOf done.1.sessions)) :
    MailAccounted MailLeft done.1 (past ++ done.2) := by
  have found : ∀ (m : Nat) (pcb : SmtpPcb), done.1.pcbs[m]? = some pcb → w.pcbs[m]? = some pcb ∨ pcb ∈ new := by
    intro m pcb there
    rw [pcbs,List.getElem?_append] at there
    split at there
    · exact .inl there
    · exact .inr (List.mem_of_getElem? there)
  refine ⟨?_,matched,?_,?_,?_⟩
  · rw [mailHandlings_append]
    exact accounted.sessions.append leads
  · intro m pcb there owned
    rcases found m pcb there with old | fresh
    · exact accounted.serves m pcb old owned
    · exact (fine pcb fresh).1 owned
  · intro m pcb there
    rcases found m pcb there with old | fresh
    · exact accounted.lookups m pcb old
    · exact (fine pcb fresh).2.1
  · intro m pcb there lives free bound
    rcases found m pcb there with old | fresh
    · exact List.mem_append_left _ (accounted.pcbs m pcb old lives free bound)
    · exact absurd ⟨free,lives,bound⟩ (fine pcb fresh).2.2
/-- Nothing is left but pcbs that nothing will be heard of. -/
theorem MailAccounted.unsent (accounted : MailAccounted MailLeft w past) {new : List SmtpPcb} (pcbs : done.1.pcbs = w.pcbs ++ new)
    (alone : ∀ pcb ∈ new, pcb.arg = none ∧ pcb.dns = false ∧ ¬ pcb.Loose) (same : openOf done.1.sessions = openOf w.sessions)
    (leads : Leads (openOf w.sessions) (mailHandlings done.2) (openOf w.sessions)) :
    MailAccounted MailLeft done.1 (past ++ done.2) := by
  have args : (done.1.arg ·) = (w.arg ·) := by
    funext m
    rw [MailSystem.arg,MailSystem.arg,pcbs,List.getElem?_append]
    split
    · rfl
    next outside =>
      rw [List.getElem?_eq_none (Nat.le_of_not_lt outside)]
      cases there : new[m - w.pcbs.length]? with
      | none => rfl
      | some pcb => exact (alone pcb (List.mem_of_getElem? there)).1
  refine accounted.appended pcbs ?_ ?_ (same ▸ leads)
  · intro pcb fresh
    obtain ⟨free,known,tied⟩ := alone pcb fresh
    exact ⟨fun owned => absurd free owned,settled_lookup known,tied⟩
  · rw [args,same]
    exact accounted.matched
/-- A new session has a new pcb. -/
theorem MailAccounted.sent (accounted : MailAccounted MailLeft w past) (fresh : openOf w.sessions k = false) {new : SmtpPcb}
    (pcbs : done.1.pcbs = w.pcbs ++ [new]) (owned : new.arg = some k) (serves : new.Serves) (lookup : new.LookedUp)
    (open_ : openOf done.1.sessions = Function.update (openOf w.sessions) k true)
    (leads : Leads (openOf w.sessions) (mailHandlings done.2) (openOf done.1.sessions)) :
    MailAccounted MailLeft done.1 (past ++ done.2) := by
  have free : w.arg w.pcbs.length = none := by rw [MailSystem.arg,List.getElem?_eq_none (Nat.le_refl _)]; rfl
  have args : (done.1.arg ·) = Function.update (w.arg ·) w.pcbs.length (some k) := by
    funext m
    rw [MailSystem.arg,pcbs,Function.update_apply]
    split
    next last => rw [last,List.getElem?_concat_length,← owned]; rfl
    next other =>
      by_cases inside : m < w.pcbs.length
      · rw [List.getElem?_append_left inside]
        rfl
      · rw [List.getElem?_eq_none (by simp; omega),MailSystem.arg,List.getElem?_eq_none (Nat.le_of_not_lt inside)]
  refine accounted.appended pcbs ?_ ?_ leads
  · intro pcb last
    obtain rfl := List.mem_singleton.mp last
    exact ⟨fun _ => serves,lookup,fun loose => absurd (owned.symm.trans loose.1) (Option.some_ne_none k)⟩
  · rw [args,open_]
    exact accounted.matched.acquire free fresh

/-- The pcb that was appended is changed. -/
theorem changePcb_last {front : List SmtpPcb} {pcb : SmtpPcb} (last : w.pcbs = front ++ [pcb]) (f : SmtpPcb → SmtpPcb) :
    w.changePcb front.length f = { w with pcbs := front ++ [f pcb] } := by
  have has : w.pcbs[front.length]? = some pcb := by rw [last,List.getElem?_concat_length]
  rw [changePcb_eq has,last,List.set_append_right _ _ (Nat.le_refl _),Nat.sub_self]
  rfl
variable (env) in
theorem smtpLookup_result (last : w'.pcbs = w.pcbs ++ [⟨.bound,some k,false⟩]) :
    (∃ new, smtpLookup env w.pcbs.length w' = ({ w' with pcbs := w.pcbs ++ [new] },.ok) ∧ new.arg = some k ∧ new.Serves ∧
        new.LookedUp) ∨
      (smtpLookup env w.pcbs.length w').1 = w' ∧ (smtpLookup env w.pcbs.length w').2 ≠ .ok := by
  have has : w'.pcbs[w.pcbs.length]? = some ⟨.bound,some k,false⟩ := by rw [last,List.getElem?_concat_length]
  unfold smtpLookup
  split
  · rw [mailTcpConnect,has,changePcb_last last]
    by_cases route : env.connect = .ok
    · refine .inl ⟨⟨.synSent,some k,false⟩,?_,rfl,⟨rfl,.inl rfl⟩,settled_lookup rfl⟩
      rw [route]
      rfl
    · refine .inr ⟨?_,route⟩
      simp only [PcbState.connect,if_neg route,← last]
  · rw [changePcb_last last]
    exact .inl ⟨⟨.bound,some k,true⟩,rfl,rfl,⟨rfl,.inr rfl⟩,fun _ => ⟨rfl,Option.some_ne_none k⟩⟩
  next failed _ => exact .inr ⟨rfl,failed⟩
theorem Sent.cons_use (sent : Sent w k done) : Sent w k (done.1,.use k :: done.2) where
  leads := (leads_cons _).mpr ⟨Function.update_self ..,sent.leads⟩
  pcbs := sent.pcbs

variable (open_ : openOf w'.sessions = Function.update (openOf w.sessions) k true) (fresh : openOf w.sessions k = false)
include open_ fresh

variable (w') in
theorem smtpLeave_sent {err : ErrT} {new : List SmtpPcb} (pcbs : w'.pcbs = w.pcbs ++ new)
    (alone : ∀ pcb ∈ new, pcb.arg = none ∧ pcb.dns = false ∧ ¬ pcb.Loose) : Sent w k (smtpLeave k err w') := by
  have lives : openOf w'.sessions k = true := by rw [open_,Function.update_self]
  have freed : openOf (w'.sessions.set k none) = openOf w.sessions := by
    rw [openOf_set (openOf_lt lives),open_,Function.update_idem,Option.isSome_none,← fresh,Function.update_eq_self]
  refine ⟨?_,.inl ⟨new,pcbs,alone,freed⟩⟩
  refine (leads_cons _).mpr ⟨Function.update_self ..,?_⟩
  rw [Handling.after,Function.update_idem,← fresh,Function.update_eq_self]
  exact freed.symm ▸ leads_nil
/-- The pcb has been bound. -/
theorem smtpLookup_sent (last : w'.pcbs = w.pcbs ++ [⟨.bound,some k,false⟩]) :
    Sent w k (let looked := smtpLookup env w.pcbs.length w'
      if looked.2 = .ok then (looked.1,[.use k,.returned .ok])
      else
        let left := smtpLeave k looked.2 (mailTcpClose .fin w.pcbs.length (tcpArg w.pcbs.length none looked.1)).1
        (left.1,.use k :: left.2)) := by
  rcases smtpLookup_result env last with ⟨new,result,owned,serves,lookup⟩ | ⟨same,failed⟩
  · rw [result,if_pos rfl]
    exact ⟨(leads_cons _).mpr ⟨Function.update_self ..,open_ ▸ leads_nil⟩,.inr ⟨new,rfl,owned,serves,lookup,open_⟩⟩
  · dsimp only
    rw [if_neg failed,same,tcpArg,changePcb_last last]
    refine Sent.cons_use ?_
    have closed : (mailTcpClose .fin w.pcbs.length { w' with pcbs := w.pcbs ++ [⟨.bound,none,false⟩] }).1 =
        { w' with pcbs := w.pcbs ++ [⟨.freed,none,false⟩] } := by
      rw [mailTcpClose,List.getElem?_concat_length]
      exact changePcb_last (w := { w' with pcbs := w.pcbs ++ [⟨.bound,none,false⟩] }) rfl _
    rw [closed]
    refine smtpLeave_sent { w' with pcbs := w.pcbs ++ [⟨.freed,none,false⟩] } open_ fresh rfl ?_
    intro pcb member
    rw [List.mem_singleton.mp member]
    exact ⟨rfl,rfl,dead_not_loose rfl⟩
variable (w' s env) in
theorem smtpBind_sent (last : w'.pcbs = w.pcbs ++ [⟨.closed,none,false⟩]) : Sent w k (smtpBind env k w.pcbs.length s w') := by
  have lives : openOf w'.sessions k = true := by rw [open_,Function.update_self]
  unfold smtpBind
  split
  · have bound := fun s' => changePcb_last (w := w'.setSession k s') last fun pcb => { pcb with state := .bound, arg := some k }
    dsimp only
    rw [bound]
    exact smtpLookup_sent ((openOf_setSession lives).trans open_) fresh rfl
  · refine smtpLeave_sent w' open_ fresh last ?_
    intro pcb member
    rw [List.mem_singleton.mp member]
    exact ⟨rfl,rfl,fun loose => loose.2.2 rfl⟩
variable (w' s env) in
theorem smtpSendMailAlloced_sent (same : w'.pcbs = w.pcbs) : Sent w k (smtpSendMailAlloced env k s w') := by
  have nothing : ∀ pcb ∈ ([] : List SmtpPcb), pcb.arg = none ∧ pcb.dns = false ∧ ¬ pcb.Loose := fun _ member => by contradiction
  have unchanged : w'.pcbs = w.pcbs ++ [] := by rw [same,List.append_nil]
  unfold smtpSendMailAlloced
  split
  · split
    · rw [same]
      have bound := smtpBind_sent { w' with pcbs := w.pcbs ++ [⟨.closed,none,false⟩] } s env open_ fresh rfl
      exact ⟨bound.leads,bound.pcbs⟩
    · exact smtpLeave_sent w' open_ fresh unchanged nothing
  · exact smtpLeave_sent w' open_ fresh unchanged nothing

end

section
variable {w : MailSystem} {past : List MailEvent}

/-- A step without a session. -/
theorem refused_keeps (accounted : MailAccounted MailLeft w past) (err : ErrT) :
    MailAccounted MailLeft w (past ++ [.returned err]) := by
  have unchanged : (w,[MailEvent.returned err]).1.pcbs = w.pcbs ++ [] := by rw [List.append_nil]
  exact accounted.unsent unchanged (fun _ member => by contradiction) rfl leads_nil
theorem sendMail_keeps (accounted : MailAccounted MailLeft w past) (env : MailEnv) (mail : Mail) :
    MailAccounted MailLeft (smtpSendMail env mail w).1 (past ++ (smtpSendMail env mail w).2) := by
  unfold smtpSendMail
  dsimp only
  split
  · exact refused_keeps accounted .mem
  · split
    · have fresh := openOf_fresh w.sessions
      have sent := smtpSendMailAlloced_sent { w with sessions := w.sessions ++ [some mail.session] } mail.session env
        (openOf_snoc _) fresh rfl
      have used := (leads_cons (.acquire w.sessions.length)).mpr ⟨fresh,sent.cons_use.leads⟩
      rcases sent.pcbs with ⟨new,pcbs,alone,same⟩ | ⟨new,pcbs,owned,serves,lookup,open_⟩
      · rw [same] at used
        exact accounted.unsent pcbs alone same used
      · exact accounted.sent fresh pcbs owned serves lookup open_ used
    · exact refused_keeps accounted .mem
theorem pcb_of_any {n : Nat} {f : SmtpPcb → Bool} (any : (w.pcbs[n]?).any f = true) :
    ∃ pcb, w.pcbs[n]? = some pcb ∧ f pcb = true := (Option.any_eq_true ..).mp any
/-- Every step keeps the account. -/
theorem mail_keeps (accounted : MailAccounted MailLeft w past) {i : MailInput} (enabled : mailer.enabled w i) :
    MailAccounted MailLeft (mailer.step w i).1 (past ++ (mailer.step w i).2) := by
  have callback : ∀ {n pcb}, w.pcbs[n]? = some pcb → (∃ new, Served w n pcb (mailStep w i) new) →
      MailAccounted MailLeft (mailStep w i).1 (past ++ (mailStep w i).2) :=
    fun has ⟨_,served⟩ => served.keeps has accounted
  cases i with
  | sendMail env mail => exact sendMail_keeps accounted env mail
  | dnsFound n found connect =>
    obtain ⟨pcb,has,pending⟩ := pcb_of_any enabled
    exact callback has (dnsFound_served (accounted.ready has) pending found connect)
  | connected env n err =>
    obtain ⟨pcb,has,state⟩ := pcb_of_any enabled
    exact callback has (connected_served (accounted.ready has) (eq_of_beq state))
  | recv env n bytes err =>
    obtain ⟨pcb,has,active⟩ := pcb_of_any enabled
    have ready := accounted.ready has
    refine callback has ?_
    rw [mailStep,arg_eq has]
    exact smtpProcess_served ready (ready.settled active) (some bytes)
  | recvEnd env n err =>
    obtain ⟨pcb,has,active⟩ := pcb_of_any enabled
    exact callback has (recvEnd_served (accounted.ready has) active)
  | sent env n =>
    obtain ⟨pcb,has,active⟩ := pcb_of_any enabled
    have ready := accounted.ready has
    refine callback has ?_
    rw [mailStep,arg_eq has]
    exact smtpProcess_served ready (ready.settled active) none
  | poll env n =>
    obtain ⟨pcb,has,active⟩ := pcb_of_any enabled
    exact callback has (poll_served (accounted.ready has) active)
  | err n err =>
    obtain ⟨pcb,has,-⟩ := pcb_of_any enabled
    exact callback has (err_served (accounted.ready has))
  | stackFrees n =>
    obtain ⟨pcb,has,closed⟩ := pcb_of_any enabled
    exact callback has (stackFrees_served (accounted.ready has) (by simpa using closed))

end

theorem mailStarted_accounted : MailAccounted MailLeft mailStarted [] where
  sessions := leads_nil
  matched := Matched.nothing
  serves _ _ there := by contradiction
  lookups _ _ there := by contradiction
  pcbs _ _ there := by contradiction

/-- In every run the sessions and the pcbs are accounted for, but for the pcbs whose QUIT was
    written, which are left to the server, and those that could not be bound. -/
theorem mail_accounted (inputs : List MailInput) (admissible : mailer.Admissible mailStarted inputs) :
    mailer.Throughout (MailAccounted MailLeft) mailStarted [] inputs :=
  Machine.throughout_run (P := mailer.enabled) (fun _ _ _ accounted enabled => mail_keeps accounted enabled)
    mailStarted_accounted admissible

/-- A call and callbacks for which lwIP has memory, and a short mail. -/
def MailEnv.plain : MailEnv := ⟨388,true,true,true,.ok,.ok,[],[]⟩
def MailTurn.plain : MailTurn := ⟨.fin,true,true,true,1000⟩
def Mail.plain : Mail := ⟨ascii "a@b",ascii "c@d",ascii "s",ascii "text",true⟩

/-- A mail whose connection is reset. -/
theorem mail_accounted_reset :
    mailer.Throughout (MailAccounted MailLeft) mailStarted []
      [.sendMail .plain .plain,.connected .plain 0 .ok,.recv .plain 0 (ascii "220 \r\n") .ok,.err 0 .rst] :=
  mail_accounted [.sendMail .plain .plain,.connected .plain 0 .ok,.recv .plain 0 (ascii "220 \r\n") .ok,.err 0 .rst]
    (by decide)
/-- When a mail has been delivered its pcb is connected and has no session. -/
theorem mail_accounted_fails :
    let delivered : List MailInput := [.sendMail .plain .plain,.connected .plain 0 .ok,.recv .plain 0 (ascii "220 \r\n") .ok,
      .recv .plain 0 (ascii "250 \r\n") .ok,.recv .plain 0 (ascii "250 \r\n") .ok,.recv .plain 0 (ascii "250 \r\n") .ok,
      .recv .plain 0 (ascii "354 \r\n") .ok,.recv .plain 0 (ascii "250 \r\n") .ok]
    mailer.Admissible mailStarted delivered ∧
      ¬ mailer.Throughout (MailAccounted fun _ _ _ => False) mailStarted [] delivered := by
  refine ⟨by decide,?_⟩
  intro all
  exact all.last.pcbs 0 ⟨.established,none,false⟩ (by decide) rfl rfl

end Net2Modbus
