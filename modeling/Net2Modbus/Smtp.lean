import Net2Modbus.Connection
import Net2Modbus.Resources

/-!
# The mail client

The client of `smtp.c`: the sessions on the heap, the pcbs that it has allocated with
their arguments, and its callbacks. Addresses and texts are lists of bytes. What is put into
`tx_buf`, the commands and the AUTH line of the server's answer to EHLO, is taken to fit its
256 bytes; smtp.c:1086 copies that line without a look at its length.
-/
namespace Net2Modbus

/-- `enum smtp_session_state` -/
inductive SmtpSessionState
  | null | helo | authPlain | authLoginUname | authLoginPass | authLogin | mail | rcpt | data | body | quit | closed
  deriving DecidableEq, Repr

/-- The `SMTP_RESULT_` codes. -/
inductive SmtpResult
  | ok | errUnknown | errConnect | errHostname | errClosed | errTimeout | errSvrResp
  deriving DecidableEq, Repr

/-- `struct smtp_session`, with the bytes of the chain `p`; `callbackFn` tells that there
    is a function to call at the end. -/
structure SmtpSession where
  state : SmtpSessionState
  timer : Nat
  p : Option (List UInt8)
  fromAddr : List UInt8
  toAddr : List UInt8
  subject : List UInt8
  body : List UInt8
  bodySent : Nat
  callbackFn : Bool
  username : List UInt8
  pass : List UInt8
  deriving DecidableEq, Repr

/-- A pcb of the client: its state, its argument, and whether a lookup will call
    `smtp_dns_found` for it. -/
structure SmtpPcb where
  state : PcbState
  arg : Option Nat
  dns : Bool
  deriving DecidableEq, Repr

/-- The sessions and the pcbs, in the order of their allocation. -/
structure MailSystem where
  sessions : List (Option SmtpSession)
  pcbs : List SmtpPcb
  deriving DecidableEq, Repr

/-- What can be seen: the sessions as they are allocated, used and freed, the pcbs that are
    allocated, the commands that `tcp_write` takes with the state that follows, the parts of
    a body and its end, what is reported to the user, and what `smtp_send_mail` returns. -/
inductive MailEvent
  | handling (h : Handling Nat)
  | allocated (pcb : Nat)
  | command (pcb : Nat) (next : SmtpSessionState) (bytes : List UInt8)
  | body (pcb : Nat) (bytes : List UInt8)
  | bodyFinished (pcb : Nat)
  | result (session : Nat) (result : SmtpResult) (srvErr : Nat) (err : ErrT)
  | returned (err : ErrT)
  deriving DecidableEq, Repr

namespace MailSystem

def session (k : Nat) (w : MailSystem) : Option SmtpSession := (w.sessions[k]?).join
def setSession (k : Nat) (s : SmtpSession) (w : MailSystem) : MailSystem := { w with sessions := w.sessions.set k (some s) }
def changePcb (n : Nat) (f : SmtpPcb → SmtpPcb) (w : MailSystem) : MailSystem := { w with pcbs := w.pcbs.modify n f }

end MailSystem

def MailEvent.use (k : Nat) : MailEvent := .handling (.use k)

/-- The answer to `tcp_close` on a connection: a FIN is sent, there is no memory for it, or
    data that was not taken makes it a RST. -/
inductive CloseAnswer
  | fin | full | reset
  deriving DecidableEq, Repr

/-- `tcp_close`: what becomes of a pcb, and whether it returns `ERR_OK`. -/
def PcbState.close (a : CloseAnswer) : PcbState → PcbState × Bool
  | .closed | .bound | .synSent => (.freed,true)
  | .established =>
    match a with
    | .fin => (.finWait,true)
    | .full => (.established,false)
    | .reset => (.timeWait,true)
  | .closeWait =>
    match a with
    | .fin => (.lastAck,true)
    | .full => (.closeWait,false)
    | .reset => (.freed,true)
  | state => (state,true)
/-- `tcp_connect`, which connects from `CLOSED` alone. -/
def PcbState.connect (answer : ErrT) : PcbState → PcbState × ErrT
  | .closed => (if answer = .ok then .synSent else .closed,answer)
  | .bound => (if answer = .ok then .synSent else .bound,answer)
  | state => (state,.isconn)
/-- A FIN has come. -/
def PcbState.finReceived : PcbState → PcbState
  | .established => .closeWait
  | .finWait => .timeWait
  | state => state

/-- What one call of `smtp_send_mail` meets: `sizeof(struct smtp_session)`, whether there is
    memory for the session and a pcb, whether the port is free, what the lookup and
    `tcp_connect` return, and the user of `smtp_set_auth`. A pcb that `tcp_new` aborts to get
    memory is an error before the call. -/
structure MailEnv where
  sessionSize : Nat
  malloc : Bool
  tcpNew : Bool
  tcpBind : Bool
  lookup : ErrT
  connect : ErrT
  username : List UInt8
  pass : List UInt8
  deriving DecidableEq, Repr

/-- What one callback meets: the answer to `tcp_close`, whether `tcp_write` takes the command,
    the part of the body and its end, and `tcp_sndbuf`. -/
structure MailTurn where
  close : CloseAnswer
  write : Bool
  writeBody : Bool
  writeEnd : Bool
  sndBuf : Nat
  deriving DecidableEq, Repr

/-- The arguments of `smtp_send_mail`. -/
structure Mail where
  fromAddr : List UInt8
  toAddr : List UInt8
  subject : List UInt8
  body : List UInt8
  callbackFn : Bool
  deriving DecidableEq, Repr

def ascii (text : String) : List UInt8 := text.toList.map fun c => c.toNat.toUInt8

def smtpTimeout : Nat := 30 * 2
def smtpTimeoutDatablock : Nat := 30 * 2
def smtpTimeoutDataterm : Nat := 30 * 2
def smtpCrlf : List UInt8 := ascii "\r\n"
def smtpRespLoginUname : List UInt8 := ascii "dXNlcm5hbWU6"
def smtpRespLoginPass : List UInt8 := ascii "UGFzc3dvcmQ6"
def smtpKeywordAuthSp : List UInt8 := ascii "OK"
def smtpKeywordAuthEq : List UInt8 := ascii "AUTH="
def smtpAuthParamLogin : List UInt8 := ascii "OK"
def smtpCmdAuthlogin : List UInt8 := ascii "auth login \r\n"
def smtpCmdData : List UInt8 := ascii "data\r\n"
def smtpCmdQuit : List UInt8 := ascii "quit\r\n"

/-- `pbuf_memcmp` inside the chain: zero, or the place behind the first difference. -/
def pbufMemcmp (p : List UInt8) (offset : Nat) (mem : List UInt8) : Nat :=
  match (List.range mem.length).find? fun i => p.getD (offset + i) 0 != mem.getD i 0 with
  | some i => i + 1
  | none => 0
/-- The loop of `pbuf_memfind`, which goes on behind the first difference. -/
def pbufMemfindFrom (p mem : List UInt8) : Nat → Nat → Option Nat
  | 0,_ => none
  | fuel + 1,i =>
    if i ≤ p.length - mem.length then
      let plus := pbufMemcmp p i mem
      if plus = 0 then some i else pbufMemfindFrom p mem fuel (i + plus)
    else none
/-- `pbuf_memfind`, where `none` stands for `0xFFFF`. -/
def pbufMemfind (p mem : List UInt8) (startOffset : Nat) : Option Nat :=
  if mem.length + startOffset ≤ p.length then pbufMemfindFrom p mem (p.length + 1) startOffset else none
def pbufStrstr (p substr : List UInt8) : Option Nat := pbufMemfind p substr 0

/-- The text before the end of a C string. -/
def cString (bytes : List UInt8) : List UInt8 := bytes.takeWhile (· != 0)
def strstr (bytes substr : List UInt8) : Bool := decide (substr <:+: cString bytes)

def isSpace (c : UInt8) : Bool := c == 32 || (9 ≤ c && c ≤ 13)
def isDigit (c : UInt8) : Bool := 48 ≤ c && c ≤ 57
def digitsValue (digits : List UInt8) : Int := digits.foldl (fun n d => 10 * n + (d.toNat - 48 : Int)) 0
/-- `strtol` with base ten. -/
def strtol (text : List UInt8) : Int :=
  match text.dropWhile isSpace with
  | 43 :: rest => digitsValue (rest.takeWhile isDigit)
  | 45 :: rest => - digitsValue (rest.takeWhile isDigit)
  | rest => digitsValue (rest.takeWhile isDigit)

/-- `base64_table` -/
def base64Table : List UInt8 := ascii "ABCDEFGHIJKLMNOPQRSTUVWXYZabcdefghijklmnopqrstuvwxyz0123456789+/"
/-- The bits of a byte, the highest first. -/
def bitsOf (b : UInt8) : List Bool := [7,6,5,4,3,2,1,0].map b.toNat.testBit
def base64Digits : List Bool → List UInt8
  | b5 :: b4 :: b3 :: b2 :: b1 :: b0 :: rest =>
    base64Table.getD ([b5,b4,b3,b2,b1,b0].foldl (fun n b => 2 * n + b.toNat) 0) 0 :: base64Digits rest
  | _ => []
/-- `smtp_base64_encode` -/
def smtpBase64Encode (source : List UInt8) : List UInt8 :=
  let longer := if source.length % 3 = 0 then 0 else 3 - source.length % 3
  let digits := base64Digits ((source ++ List.replicate longer 0).flatMap bitsOf)
  digits.take (digits.length - longer) ++ ascii (String.ofList (List.replicate longer '='))

/-- `smtp_verify` from a place of the text on, behind a CR or not. -/
def smtpVerifyFrom (linebreaksAllowed : Bool) : Bool → List UInt8 → Bool
  | _,[] => true
  | lastWasCr,current :: rest =>
    if current &&& 0x80 ≠ 0 then false
    else if current = 13 then linebreaksAllowed && !lastWasCr && smtpVerifyFrom linebreaksAllowed true rest
    else if current = 10 then lastWasCr && smtpVerifyFrom linebreaksAllowed false rest
    else smtpVerifyFrom linebreaksAllowed false rest
def smtpVerify (data : List UInt8) (linebreaksAllowed : Bool) : Bool := smtpVerifyFrom linebreaksAllowed false data

/-- `smtp_is_response`: zero where there is no code. -/
def smtpIsResponse (s : SmtpSession) : Nat :=
  match s.p with
  | some bytes =>
    if bytes.length < 3 then 0
    else
      let num := strtol (cString (bytes.take 3))
      if num ≤ 0 ∨ 1000 ≤ num then 0 else num.toNat
  | none => 0
/-- `smtp_is_response_finished` from a line on; a line has at least six bytes. -/
def smtpLineFinished (p : List UInt8) : Nat → Nat → Bool
  | 0,_ => false
  | fuel + 1,offset =>
    match pbufMemfind p smtpCrlf (offset + 4) with
    | none => false
    | some crlf =>
      let sp := p.getD (offset + 3) 0
      if sp = 45 then smtpLineFinished p fuel (crlf + 2) else sp = 32
def smtpIsResponseFinished (s : SmtpSession) : Bool :=
  match s.p with
  | some bytes => smtpLineFinished bytes bytes.length 0
  | none => false

/-- `smtp_prepare_helo` -/
def smtpPrepareHelo : SmtpSessionState × List UInt8 := (.helo,ascii "helo [" ++ ascii "wjw" ++ ascii "]\r\n")
/-- `smtp_prepare_mail` -/
def smtpPrepareMail (s : SmtpSession) : SmtpSessionState × List UInt8 := (.mail,ascii "mail from: <" ++ s.fromAddr ++ ascii ">\r\n")
/-- `smtp_prepare_rcpt` -/
def smtpPrepareRcpt (s : SmtpSession) : SmtpSessionState × List UInt8 := (.rcpt,ascii "rcpt to: <" ++ s.toAddr ++ ascii ">\r\n")
/-- `smtp_prepare_header` -/
def smtpPrepareHeader (s : SmtpSession) : SmtpSessionState × List UInt8 :=
  (.body,ascii "From: <" ++ s.fromAddr ++ ascii ">\r\nTo: <" ++ s.toAddr ++ ascii ">\r\nSubject: " ++ s.subject ++ ascii "\r\n\r\n")
/-- `smtp_prepare_quit` -/
def smtpPrepareQuit : SmtpSessionState × List UInt8 := (.closed,smtpCmdQuit)
/-- `smtp_prepare_auth_login_uname` -/
def smtpPrepareAuthLoginUname (s : SmtpSession) : SmtpSessionState × List UInt8 :=
  (.authLoginPass,smtpBase64Encode s.username ++ smtpCrlf)
/-- `smtp_prepare_auth_login_pass` -/
def smtpPrepareAuthLoginPass (s : SmtpSession) : SmtpSessionState × List UInt8 :=
  (.authLogin,smtpBase64Encode s.pass ++ smtpCrlf)
/-- What `smtp_prepare_auth_or_mail` copies to `tx_buf`: the line from the keyword on, which
    is taken to be shorter than the buffer. -/
def smtpAuthLine (p : List UInt8) : Option (List UInt8) :=
  match (pbufStrstr p smtpKeywordAuthSp).or (pbufStrstr p smtpKeywordAuthEq) with
  | none => none
  | some auth =>
    match pbufMemfind p smtpCrlf auth with
    | none => none
    | some crlf => if auth < crlf then some ((p.drop auth).take (crlf - auth)) else none
/-- `smtp_prepare_auth_or_mail` -/
def smtpPrepareAuthOrMail (s : SmtpSession) : SmtpSessionState × List UInt8 :=
  match smtpAuthLine (s.p.getD []) with
  | some line => if strstr line smtpAuthParamLogin then (.authLoginUname,smtpCmdAuthlogin) else smtpPrepareMail s
  | none => smtpPrepareMail s
/-- The `switch` of `smtp_process`: the next state and the command, or the same state. -/
def smtpNext (s : SmtpSession) (responseCode : Nat) : SmtpSessionState × List UInt8 :=
  let stay := (s.state,[])
  match s.state with
  | .null => if responseCode = 220 then smtpPrepareHelo else stay
  | .helo => if responseCode = 250 then smtpPrepareAuthOrMail s else stay
  | .authLogin | .authPlain => if responseCode = 235 then smtpPrepareMail s else stay
  | .authLoginUname =>
    if responseCode = 334 ∧ pbufStrstr (s.p.getD []) smtpRespLoginUname ≠ none then smtpPrepareAuthLoginUname s else stay
  | .authLoginPass =>
    if responseCode = 334 ∧ pbufStrstr (s.p.getD []) smtpRespLoginPass ≠ none then smtpPrepareAuthLoginPass s else stay
  | .mail => if responseCode = 250 then smtpPrepareRcpt s else stay
  | .rcpt => if responseCode = 250 then (.data,smtpCmdData) else stay
  | .data => if responseCode = 354 then smtpPrepareHeader s else stay
  | .body => stay
  | .quit => if responseCode = 250 then smtpPrepareQuit else stay
  | .closed => stay

/-- `smtp_free` -/
def smtpFree (k : Nat) (s : SmtpSession) (result : SmtpResult) (srvErr : Nat) (err : ErrT) (w : MailSystem) :
    MailSystem × List MailEvent :=
  ({ w with sessions := w.sessions.set k none },
    .use k :: .handling (.release k) :: if s.callbackFn then [.result k result srvErr err] else [])
/-- `smtp_free` through a pointer. -/
def smtpFreeAt (k : Nat) (result : SmtpResult) (srvErr : Nat) (err : ErrT) (w : MailSystem) : MailSystem × List MailEvent :=
  match w.session k with
  | some s => smtpFree k s result srvErr err w
  | none => (w,[.use k])
/-- `tcp_arg` -/
def tcpArg (n : Nat) (arg : Option Nat) : MailSystem → MailSystem := .changePcb n fun pcb => { pcb with arg := arg }
/-- `tcp_close`, and whether it returns `ERR_OK`. -/
def mailTcpClose (a : CloseAnswer) (n : Nat) (w : MailSystem) : MailSystem × Bool :=
  match w.pcbs[n]? with
  | some pcb => (w.changePcb n fun pcb => { pcb with state := (pcb.state.close a).1 },(pcb.state.close a).2)
  | none => (w,true)
/-- `smtp_close`: the session is freed when the pcb was closed, else the argument is set back. -/
def smtpClose (a : CloseAnswer) (s : Option Nat) (n : Nat) (result : SmtpResult) (srvErr : Nat) (err : ErrT) (w : MailSystem) :
    MailSystem × List MailEvent :=
  let closed := mailTcpClose a n (tcpArg n none w)
  if closed.2 then
    match s with
    | some k => smtpFreeAt k result srvErr err closed.1
    | none => (closed.1,[])
  else (tcpArg n s closed.1,[])

/-- The first part of `smtp_send_body`: as much of the body as fits. -/
def smtpSendPart (env : MailTurn) (n : Nat) (s : SmtpSession) : SmtpSession × List MailEvent :=
  let sendLen := min (s.body.length - s.bodySent) env.sndBuf
  if 0 < sendLen ∧ env.writeBody then
    ({ s with timer := smtpTimeoutDatablock, bodySent := s.bodySent + sendLen },
      [MailEvent.body n ((s.body.drop s.bodySent).take sendLen)])
  else (s,[])
/-- `smtp_send_body` -/
def smtpSendBody (env : MailTurn) (n : Nat) (s : SmtpSession) : SmtpSession × List MailEvent :=
  if s.state = .body then
    let sent := smtpSendPart env n s
    if sent.1.bodySent = sent.1.body.length ∧ env.writeEnd then
      ({ sent.1 with timer := smtpTimeoutDataterm, state := .quit },sent.2 ++ [.bodyFinished n])
    else sent
  else (s,[])

/-- The end of `smtp_process`: the command is written and the state entered, or nothing
    changes. -/
def smtpAdvance (env : MailTurn) (k n : Nat) (next : SmtpSessionState) (tx : List UInt8) (s : SmtpSession) (w : MailSystem) :
    MailSystem × List MailEvent :=
  let len := tx.length % 65536
  if 0 < len ∧ env.write then
    let s := { s with timer := smtpTimeout, p := none, state := next }
    let written := MailEvent.command n next (tx.take len)
    match next with
    | .body =>
      let sent := smtpSendBody env n s
      (w.setSession k sent.1,written :: sent.2)
    | .closed =>
      let freed := smtpFree k s .ok 0 .ok (tcpArg n none w)
      (freed.1,written :: freed.2)
    | _ => (w.setSession k s,[written])
  else (w,[])
/-- `smtp_process` behind an answer that is complete. -/
def smtpAnswered (env : MailTurn) (k n : Nat) (responseCode : Nat) (s : SmtpSession) (w : MailSystem) :
    MailSystem × List MailEvent :=
  if s.state = .closed then (w,[])
  else
    let next := smtpNext s responseCode
    if s.state = next.1 then smtpClose env.close (some k) n .errSvrResp responseCode .ok w
    else smtpAdvance env k n next.1 next.2 s w
/-- `smtp_process` from the response code on, where the session has what was received. -/
def smtpRespond (env : MailTurn) (k n : Nat) (s : SmtpSession) (w : MailSystem) : MailSystem × List MailEvent :=
  let responseCode := smtpIsResponse s
  if responseCode = 0 then (w.setSession k { s with p := none },[])
  else if smtpIsResponseFinished s then smtpAnswered env k n responseCode s (w.setSession k s)
  else (w.setSession k s,[])
/-- `smtp_process` -/
def smtpProcess (env : MailTurn) (arg : Option Nat) (n : Nat) (p : Option (List UInt8)) (w : MailSystem) :
    MailSystem × List MailEvent :=
  match arg with
  | none => (w,[])
  | some k =>
    match w.session k with
    | none => (w,[.use k])
    | some s =>
      let done :=
        match p with
        | some bytes => smtpRespond env k n { s with p := some (s.p.getD [] ++ bytes) } w
        | none =>
          if s.timer = 0 then smtpClose env.close (some k) n .errTimeout 0 .timeout w
          else if s.state = SmtpSessionState.body then
            let sent := smtpSendBody env n s
            (w.setSession k sent.1,sent.2)
          else smtpRespond env k n s w
      (done.1,.use k :: done.2)

/-- `smtp_tcp_err`; the pcb has been freed. -/
def smtpTcpErr (arg : Option Nat) (err : ErrT) (w : MailSystem) : MailSystem × List MailEvent :=
  match arg with
  | some k => smtpFreeAt k .errClosed 0 err w
  | none => (w,[])
/-- `smtp_tcp_poll` -/
def smtpTcpPoll (env : MailTurn) (arg : Option Nat) (n : Nat) (w : MailSystem) : MailSystem × List MailEvent :=
  let ticked :=
    match arg with
    | some k =>
      match w.session k with
      | some s => w.setSession k { s with timer := s.timer - 1 }
      | none => w
    | none => w
  smtpProcess env arg n none ticked
/-- `smtp_tcp_recv` -/
def smtpTcpRecv (env : MailTurn) (arg : Option Nat) (n : Nat) (p : Option (List UInt8)) (err : ErrT) (w : MailSystem) :
    MailSystem × List MailEvent :=
  match p with
  | some bytes => smtpProcess env arg n (some bytes) w
  | none => smtpClose env.close arg n .errClosed 0 err w
/-- `smtp_tcp_connected` -/
def smtpTcpConnected (env : MailTurn) (arg : Option Nat) (n : Nat) (err : ErrT) (w : MailSystem) :
    MailSystem × List MailEvent :=
  if err = .ok then (w,[]) else smtpClose env.close arg n .errConnect 0 err w

def MailSystem.arg (n : Nat) (w : MailSystem) : Option Nat := w.pcbs[n]?.bind (·.arg)

/-- `tcp_connect`, and what it returns. -/
def mailTcpConnect (answer : ErrT) (n : Nat) (w : MailSystem) : MailSystem × ErrT :=
  match w.pcbs[n]? with
  | some pcb => (w.changePcb n fun pcb => { pcb with state := (pcb.state.connect answer).1 },(pcb.state.connect answer).2)
  | none => (w,.arg)
/-- `smtp_dns_found`; a pcb without a connection is closed whatever lwIP answers. -/
def smtpDnsFound (found : Bool) (connect : ErrT) (n : Nat) (w : MailSystem) : MailSystem × List MailEvent :=
  if found then
    let connected := mailTcpConnect connect n w
    if connected.2 = .ok then (connected.1,[])
    else smtpClose .fin (connected.1.arg n) n .errConnect 0 connected.2 connected.1
  else smtpClose .fin (w.arg n) n .errHostname 0 .arg w

/-- The end of `smtp_send_mail_alloced` from `leave` on. -/
def smtpLeave (k : Nat) (err : ErrT) (w : MailSystem) : MailSystem × List MailEvent :=
  ({ w with sessions := w.sessions.set k none },[.handling (.release k),.returned err])
/-- The lookup, with the connection behind it; a lookup that goes on is no error. -/
def smtpLookup (env : MailEnv) (n : Nat) (w : MailSystem) : MailSystem × ErrT :=
  match env.lookup with
  | .ok => mailTcpConnect env.connect n w
  | .inprogress => (w.changePcb n fun pcb => { pcb with dns := true },.ok)
  | err => (w,err)
/-- `smtp_send_mail_alloced` from `tcp_bind` on. -/
def smtpBind (env : MailEnv) (k n : Nat) (s : SmtpSession) (w : MailSystem) : MailSystem × List MailEvent :=
  if env.tcpBind then
    let s := { s with state := .null, timer := smtpTimeout, username := env.username, pass := env.pass }
    let bound := (w.setSession k s).changePcb n fun pcb => { pcb with state := .bound, arg := some k }
    let looked := smtpLookup env n bound
    if looked.2 = .ok then (looked.1,[.use k,.returned .ok])
    else
      let left := smtpLeave k looked.2 (mailTcpClose .fin n (tcpArg n none looked.1)).1
      (left.1,.use k :: left.2)
  else smtpLeave k .use w
/-- `smtp_send_mail_alloced` -/
def smtpSendMailAlloced (env : MailEnv) (k : Nat) (s : SmtpSession) (w : MailSystem) : MailSystem × List MailEvent :=
  if smtpVerify s.toAddr false && smtpVerify s.fromAddr false && smtpVerify s.subject false && smtpVerify s.body false then
    if env.tcpNew then
      let n := w.pcbs.length
      let done := smtpBind env k n s { w with pcbs := w.pcbs ++ [⟨.closed,none,false⟩] }
      (done.1,.allocated n :: done.2)
    else smtpLeave k .mem w
  else smtpLeave k .arg w
/-- The session that `smtp_send_mail` sets up. -/
def Mail.session (mail : Mail) : SmtpSession :=
  ⟨.null,0,none,mail.fromAddr,mail.toAddr,mail.subject,mail.body,0,mail.callbackFn,[],[]⟩
/-- `smtp_send_mail` -/
def smtpSendMail (env : MailEnv) (mail : Mail) (w : MailSystem) : MailSystem × List MailEvent :=
  let memLen := env.sessionSize +
    (mail.fromAddr.length + mail.toAddr.length + mail.subject.length + mail.body.length + 4)
  if 0xffff < memLen then (w,[.returned .mem])
  else if env.malloc then
    let k := w.sessions.length
    let done := smtpSendMailAlloced env k mail.session { w with sessions := w.sessions ++ [some mail.session] }
    (done.1,.handling (.acquire k) :: .use k :: done.2)
  else (w,[.returned .mem])

end Net2Modbus
