import Net2Modbus.Machine

/-!
# The connection to the server

The TCP client between its retry timer and the callbacks of lwIP: the flag
`Tcplink`, the pointer `wpcb` to the pcb in use, and the pcbs that
`tcp_client_callback` has allocated, with what lwIP does to them.
-/
namespace Net2Modbus

/-- `err_t` -/
inductive ErrT
  | ok | mem | buf | timeout | rte | inprogress | val | wouldblock | use | isconn | abrt | rst | clsd | conn | arg | netif
  deriving DecidableEq, Repr

/-- The state of a pcb, whether it is bound while it is in `CLOSED`, and whether it
    has been freed. -/
inductive PcbState
  | closed | bound | synSent | established | closeWait | finWait | lastAck | timeWait | freed
  deriving DecidableEq, Repr

/-- `tcp_bind` finds it on one of the lists with its port. -/
def PcbState.holdsPort : PcbState → Bool
  | .closed | .freed => false
  | _ => true
/-- Nobody has closed, aborted or freed it. -/
def PcbState.live : PcbState → Bool
  | .closed | .bound | .synSent | .established | .closeWait => true
  | _ => false
/-- It is on `tcp_active_pcbs`, where lwIP may give it up. -/
def PcbState.active : PcbState → Bool
  | .synSent | .established | .closeWait | .finWait | .lastAck => true
  | _ => false

/-- The client side, and the pcbs in the order of their allocation. -/
structure Connection where
  /-- `Tcplink`: true as long as there is no connection. -/
  tcplink : Bool
  wpcb : Option Nat
  tcpCreatTrm : UInt32
  retryTcpConnect : UInt32
  pcbs : List PcbState
  deriving DecidableEq, Repr

/-- What can be seen: allocations, the pcbs that are passed to lwIP with their
    states, and the pcbs that are closed, aborted or freed while they are live. -/
inductive LinkEvent
  | allocated (pcb : Nat)
  | passed (pcb : Option Nat) (state : Option PcbState)
  | released (pcb : Nat)
  deriving DecidableEq, Repr

namespace Connection

def pcb (c : Connection) (id : Nat) : Option PcbState := c.pcbs[id]?
def setPcb (id : Nat) (state : PcbState) (c : Connection) : Connection := { c with pcbs := c.pcbs.set id state }
/-- `wpcb` is passed to a function of lwIP. -/
def pass (c : Connection) : LinkEvent := .passed c.wpcb (c.wpcb.bind c.pcb)

end Connection

/-- What lwIP answers to an attempt: `tcp_new` finds memory, no pcb of another
    user holds the port, `tcp_connect` returns `ERR_OK`. A pcb that `tcp_new`
    aborts to get memory is an error before the attempt. -/
structure Attempt where
  memory : Bool
  port : Bool
  route : Bool
  deriving DecidableEq, Repr

/-- `wpcb = tcp_new()`. -/
def tcpNew (memory : Bool) (c : Connection) : Connection × List LinkEvent :=
  if memory then
    ({ c with wpcb := some c.pcbs.length, pcbs := c.pcbs ++ [.closed] },[.allocated c.pcbs.length])
  else ({ c with wpcb := none },[])
/-- `tcp_bind(wpcb, IP_ADDR_ANY, TCP_PORT)`, and whether it returns `ERR_OK`. -/
def tcpBind (port : Bool) (c : Connection) : Connection × Bool :=
  match c.wpcb with
  | some id =>
    if c.pcb id = some .closed ∧ port = true ∧ ∀ state ∈ c.pcbs, state.holdsPort = false then (c.setPcb id .bound,true)
    else (c,false)
  | none => (c,false)
/-- `tcp_connect(wpcb, ...)`, whose result is not looked at. -/
def tcpConnect (route : Bool) (c : Connection) : Connection :=
  match c.wpcb with
  | some id => if c.pcb id = some .bound ∧ route = true then c.setPcb id .synSent else c
  | none => c
/-- `tcp_close(wpcb)`: a pcb without a connection is freed, for a connection a FIN is
    sent if there is memory for it, and nothing is done when it has been closed. -/
def tcpClose (finSent : Bool) (c : Connection) : Connection × List LinkEvent :=
  match c.wpcb with
  | some id =>
    match c.pcb id with
    | some .closed | some .bound | some .synSent => (c.setPcb id .freed,[.released id])
    | some .established => if finSent then (c.setPcb id .finWait,[.released id]) else (c,[])
    | some .closeWait => if finSent then (c.setPcb id .lastAck,[.released id]) else (c,[])
    | _ => (c,[])
  | none => (c,[])

/-- `tcp_client_callback`: a failed `tcp_bind` ends it. -/
def tcpClientCallback (a : Attempt) (c : Connection) : Connection × List LinkEvent :=
  let new := tcpNew a.memory c
  let bound := tcpBind a.port new.1
  if bound.2 then
    let sent := tcpConnect a.route bound.1
    (sent,new.2 ++ [new.1.pass,bound.1.pass,sent.pass,sent.pass])
  else (bound.1,new.2 ++ [new.1.pass])

/-- `TCP_CREATTRM_INTERVAL` -/
def tcpCreattrmInterval : UInt32 := 5000

/-- `TcpTestThread`, but for the UDP side that it starts once. -/
def tcpTestThread (time : UInt32) (a : Attempt) (c : Connection) : Connection × List LinkEvent :=
  if tcpCreattrmInterval ≤ time - c.tcpCreatTrm then
    let c := { c with tcpCreatTrm := time }
    if c.tcplink then tcpClientCallback a c else (c,[])
  else (c,[])

/-- `tcp_client_connected` -/
def tcpClientConnected (c : Connection) : Connection :=
  { c with tcplink := false, retryTcpConnect := c.retryTcpConnect + 1 }
/-- `tcp_client_err`, which does the same for every error. -/
def tcpClientErr (c : Connection) : Connection := { c with tcplink := true }
/-- `tcp_client_reciver` at the end of the stream, `err == ERR_OK && p == NULL`: it
    closes `wpcb`, not the pcb that it is called for. -/
def tcpClientReciverEnd (finSent : Bool) (c : Connection) : Connection × List LinkEvent :=
  let c := { c with tcplink := true }
  let closed := tcpClose finSent c
  (closed.1,c.pass :: closed.2)
/-- `SendDataToSever` with data to send; `tcp_output` follows when `tcp_write`
    returned `ERR_OK`. -/
def sendDataToSever (written : Bool) (c : Connection) : Connection × List LinkEvent :=
  (c,if c.tcplink then [] else c.pass :: if written then [c.pass] else [])

/-- Calls from the main loop, and what lwIP reports of a pcb: the connection stands,
    a FIN has come, it was given up with an error, or it is freed after the close. -/
inductive LinkInput
  | tcpTestThread (time : UInt32) (attempt : Attempt)
  | sendDataToSever (written : Bool)
  | connected (pcb : Nat)
  | remoteClose (pcb : Nat) (finSent : Bool)
  | error (pcb : Nat)
  | stackFrees (pcb : Nat)
  deriving DecidableEq, Repr

def linkEnabled (c : Connection) : LinkInput → Prop
  | .tcpTestThread _ _ | .sendDataToSever _ => True
  | .connected id => c.pcb id = some .synSent
  | .remoteClose id _ => c.pcb id = some .established ∨ c.pcb id = some .finWait
  | .error id => (c.pcb id).any PcbState.active = true
  | .stackFrees id => c.pcb id = some .lastAck ∨ c.pcb id = some .timeWait

/-- The error callback is called for a pcb that has been freed. -/
def linkStep (c : Connection) : LinkInput → Connection × List LinkEvent
  | .tcpTestThread time a => tcpTestThread time a c
  | .sendDataToSever written => sendDataToSever written c
  | .connected id => (tcpClientConnected (c.setPcb id .established),[])
  | .remoteClose id finSent =>
    tcpClientReciverEnd finSent (c.setPcb id (if c.pcb id = some .finWait then .timeWait else .closeWait))
  | .error id =>
    (tcpClientErr (c.setPcb id .freed),if (c.pcb id).any PcbState.live then [.released id] else [])
  | .stackFrees id => (c.setPcb id .freed,[])

def link : Machine Connection LinkInput LinkEvent := ⟨linkEnabled,linkStep⟩

instance (c : Connection) (i : LinkInput) : Decidable (link.enabled c i) :=
  match i with
  | .tcpTestThread _ _ | .sendDataToSever _ => isTrue trivial
  | .connected _ | .error _ => inferInstanceAs (Decidable (_ = _))
  | .remoteClose _ _ | .stackFrees _ => inferInstanceAs (Decidable (_ ∨ _))

/-- The variables before the main loop. -/
def Connection.boot : Connection where
  tcplink := true
  wpcb := none
  tcpCreatTrm := 0
  retryTcpConnect := 0
  pcbs := []

end Net2Modbus
