import Net2Modbus.Storage
import Net2Modbus.Traffic

/-!
# The buffers of the replies

The command branches of `udp_client_callback` and `tcp_client_reciver` once more, as
the instructions that they carry out on their arrays: the stores with their offsets,
the copies with their lengths and the new pbufs with their sizes, over cells that may
not have been written.
-/
namespace Net2Modbus

/-- The arrays of the branches. A local `char str[…]` has a size of its own in each of them,
    and `text` is a string literal or the text of `Getmeminf`. -/
inductive ReplyArr
  | data | tdata | tcpRecvBuf | tcp2Rs485CmdList | uidStm32 | iap | str (size : Nat) | vesion | pbuf
  | text (bytes : List UInt8)
  deriving DecidableEq, Repr

/-- The uses that are looked at here. The poll list is not an array of the branches. -/
def ReplyArr.counts : ReplyArr → Bool
  | .tcp2Rs485CmdList => false
  | _ => true

abbrev ReplyInstruction := Instruction ReplyArr UInt8

/-- The arrays when a callback starts: the static ones with what they hold, the local ones
    unwritten, and no pbuf. -/
def Gateway.arrays (g : Gateway) : Storage ReplyArr UInt8
  | .data => List.replicate 1024 none
  | .tdata => g.tdata.cells.map some
  | .tcpRecvBuf => g.tcpRecvBuf.cells.map some
  | .tcp2Rs485CmdList => g.poller.tcp2Rs485CmdList.cells.map some
  | .uidStm32 => (g.serial.uidStm32.slice 0 16).map some
  | .iap => List.replicate 10 none
  | .str size => List.replicate size none
  | .vesion => List.replicate 40 none
  | .pbuf => []
  | .text bytes => bytes.map some

/-- `pbuf_alloc`, and with a pbuf `memcpy` and `udp_sendto`. -/
def pbufReply (env : Surroundings) (size : Nat) (source : ReplyArr) (count : Nat) : List ReplyInstruction :=
  if env.pbufAlloc then [.alloc .pbuf size,.copy .pbuf 0 source 0 count,.send .pbuf size] else []
/-- `tcp_write` of a text with its length. -/
def textReply (bytes : List UInt8) : List ReplyInstruction := [.send (.text bytes) bytes.length]

def okText : ReplyArr := .text (udpOk ++ [0])

/-- `vesion` after its four parts. -/
def versionStores (env : Surroundings) : List ReplyInstruction :=
  [.store .vesion 0 (chars ['v','e','r','s','i','o','n','=',' ','0','.','9','.','0',' ']),
    .store .vesion 15 env.date.cells,.store .vesion 27 env.time.cells,.store .vesion 26 (chars [' '])]

/-- The branches of `udp_client_callback`. -/
def udpBranch (env : Surroundings) (c : Command) (g : Gateway) : List ReplyInstruction :=
  match c with
  | .getid => .store .uidStm32 0 (udpIdRecord g.uid) :: pbufReply env 9 .uidStm32 9
  | .getrun => .store .uidStm32 0 (runRecord g.client) :: pbufReply env 12 .uidStm32 12
  | .getiap => .store .iap 0 (iapRecord g.client.load) :: pbufReply env 10 .iap 17
  | .setiap | .setapp => pbufReply env 4 okText 4
  | .setchl => .load .data 6 1 :: pbufReply env 4 okText 4
  | .getchl => .store (.str 11) 0 (channelRecord g.client.load) :: pbufReply env 12 (.str 11) 11
  | .getconfig => .store (.str 17) 0 (configRecord g.client.load) :: pbufReply env 17 (.str 17) 17
  | .setconfig => .load .data 10 10 :: pbufReply env 4 okText 4
  | .getver => versionStores env ++ pbufReply env 40 .vesion 40
  | _ => []

/-- The branches of `tcp_client_reciver`. -/
def tcpBranch (env : Surroundings) (tcplen : Nat) (c : Command) (g : Gateway) : List ReplyInstruction :=
  match c with
  | .downlink => [.copy .tcpRecvBuf 0 .tdata 3 (UInt32.ofNat tcplen - 5 - 3).toNat]
  | .pollList =>
    [.store .tcp2Rs485CmdList 0 (List.replicate 1024 0),
      .copy .tcp2Rs485CmdList 0 .tdata 2 (UInt32.ofNat tcplen - 5 - 2).toNat] ++ textReply ffbbSaved
  | .mem => textReply env.memInf
  | .start | .stop => textReply startSent
  | .getrun => [.store .uidStm32 0 (runRecord g.client),.send .uidStm32 12]
  | .getid => [.store .uidStm32 0 (tcpIdRecord g.uid),.send .uidStm32 19]
  | .setchl => .load .tdata 6 1 :: textReply tcpOk
  | .setconfig => .load .tdata 10 10 :: textReply tcpOk
  | .getchl => [.store (.str 11) 0 (channelRecord g.client.load),.send (.str 11) 11]
  | .getconfig => [.store (.str 17) 0 (configRecord g.client.load),.send (.str 17) 17]
  | _ => []

/-- The bytes that the test of one branch looks at. -/
def Command.looks {size : Nat} (buffer : Block UInt8 size) (c : Command) : List (Nat × Nat) :=
  (0,c.word.length) :: if c = .setconfig ∧ strncmpEq buffer 0 c.word = true then [(17,1)] else []
/-- The tests up to the first one that holds. -/
def looksUntil {size : Nat} (commands : List Command) (buffer : Block UInt8 size) : List (Nat × Nat) :=
  (commands.takeWhile (fun c => !c.fits buffer) ++ (dispatch commands buffer).toList).flatMap (·.looks buffer)

/-- A datagram or a TCP segment in one pbuf. -/
inductive Received
  | datagram (stack : Block UInt8 1024) (bytes : List UInt8)
  | segment (bytes : List UInt8)

def Received.bytes : Received → List UInt8
  | .datagram _ bytes | .segment bytes => bytes

/-- The command that is found in the receive buffer. -/
def Received.command (g : Gateway) : Received → Option Command
  | .datagram stack bytes => if bytes.length < 1024 then dispatch udpCommands (stack.copy bytes) else none
  | .segment bytes => dispatch tcpCommands (g.copyIn bytes)

/-- What a callback does with its arrays. -/
def replyProgram (env : Surroundings) (r : Received) (g : Gateway) : List ReplyInstruction :=
  match r with
  | .datagram stack bytes =>
    if bytes.length < 1024 then
      [Instruction.store .data 0 bytes] ++
        loads .data (looksUntil udpCommands (stack.copy bytes)) ++
        ((r.command g).elim [] (udpBranch env · g))
    else []
  | .segment bytes =>
    (if bytes.length < 1500 then [Instruction.store .tdata 0 bytes] else []) ++
      loads .tdata (looksUntil tcpCommands (g.copyIn bytes)) ++
      ((r.command g).elim [] (tcpBranch env bytes.length · g))

/-- The callback of the coarser model. -/
def receive (env : Surroundings) (r : Received) (g : Gateway) : Gateway × List Event :=
  match r with
  | .datagram stack bytes => udpClientCallback env stack bytes g
  | .segment bytes => tcpClientReciver env bytes g

/-- Every array is used inside its bounds, a pbuf that is not there is not touched, and every byte
    of a reply has been written. -/
def ReplySound (env : Surroundings) (r : Received) (g : Gateway) : Prop :=
  Sound ReplyArr.counts g.arrays (replyProgram env r g)

instance (env : Surroundings) (r : Received) (g : Gateway) : Decidable (ReplySound env r g) :=
  inferInstanceAs (Decidable (Sound _ _ _))

/-- No command whose sizes do not agree: over UDP `getiap`, `getchl` and `getver` while there is a
    pbuf, over TCP `getid`, and the two commands that take their length from a segment that is too
    short or too long for it. -/
def ReplyClear (env : Surroundings) (g : Gateway) (r : Received) : Prop :=
  match r,r.command g with
  | .datagram _ _,some .getiap | .datagram _ _,some .getchl | .datagram _ _,some .getver => env.pbufAlloc = false
  | .segment _,some .getid => False
  | .segment bytes,some .downlink => 8 ≤ bytes.length ∧ bytes.length ≤ 1505
  | .segment bytes,some .pollList => 7 ≤ bytes.length ∧ bytes.length ≤ 1505
  | _,_ => True

/-- The arrays after the receive buffer was filled. -/
structure Entered (g : Gateway) (m : Storage ReplyArr UInt8) : Prop where
  data : (m .data).length = 1024
  tdata : (m .tdata).length = 1500
  others : ∀ a, a ≠ .data → a ≠ .tdata → m a = g.arrays a

theorem arrays_entered (g : Gateway) : Entered g g.arrays :=
  ⟨List.length_replicate,by simp [Gateway.arrays],fun _ _ _ => rfl⟩
theorem data_entered (g : Gateway) (cells : List (Option UInt8)) :
    Entered g (Function.update g.arrays .data (writeCells (g.arrays .data) 0 cells)) := by
  obtain ⟨data,tdata,-⟩ := arrays_entered g
  refine ⟨?_,?_,fun a other _ => Function.update_of_ne other _ _⟩
  · rw [Function.update_self,writeCells_length,data]
  · rw [Function.update_of_ne (by decide),tdata]
theorem tdata_entered (g : Gateway) (cells : List (Option UInt8)) :
    Entered g (Function.update g.arrays .tdata (writeCells (g.arrays .tdata) 0 cells)) := by
  obtain ⟨data,tdata,-⟩ := arrays_entered g
  refine ⟨?_,?_,fun a _ other => Function.update_of_ne other _ _⟩
  · rw [Function.update_of_ne (by decide),data]
  · rw [Function.update_self,writeCells_length,tdata]

/-- The command words are short, and the colon stands at the offset 17. -/
theorem looks_inside {size : Nat} (buffer : Block UInt8 size) (c : Command) : ∀ use ∈ c.looks buffer, use.1 + use.2 ≤ 18 := by
  have word : c.word.length ≤ 18 := by cases c <;> decide
  rw [Command.looks,List.forall_mem_cons]
  refine ⟨by omega,?_⟩
  split
  · simp
  · exact List.forall_mem_nil _
theorem looksUntil_inside {size : Nat} (commands : List Command) (buffer : Block UInt8 size) :
    ∀ use ∈ looksUntil commands buffer, use.1 + use.2 ≤ 18 := by
  intro use among
  obtain ⟨c,-,looked⟩ := List.mem_flatMap.mp among
  exact looks_inside buffer c use looked

theorem sound_pbufReply {m : Storage ReplyArr UInt8} {env : Surroundings} {size count : Nat} {source : ReplyArr}
    (apart : source ≠ .pbuf) (counted : source.counts = true) :
    Sound ReplyArr.counts m (pbufReply env size source count) ↔
      (env.pbufAlloc = true → count = size ∧ Written (m source) count) := by
  unfold pbufReply
  split
  · rename_i there
    rw [sound_reply apart rfl counted]
    simp [there]
  · rename_i missing
    simp [missing]
/-- A reply whose source, copy and pbuf all have the length of the record. -/
theorem sound_recordReply {m : Storage ReplyArr UInt8} {env : Surroundings} {source : ReplyArr} {record : List UInt8}
    {size : Nat} (apart : source ≠ .pbuf) (counted : source.counts = true) (same : record.length = size)
    (fits : size ≤ (m source).length) :
    Sound ReplyArr.counts m (.store source 0 record :: pbufReply env size source size) := by
  subst same
  rw [sound_store,sound_pbufReply apart counted,Function.update_self]
  exact ⟨fun _ => by omega,fun _ => ⟨rfl,written_stored fits⟩⟩
/-- The same over TCP, where the array itself is handed over. -/
theorem sound_recordSend {m : Storage ReplyArr UInt8} {source : ReplyArr} {record : List UInt8} {size : Nat}
    (counted : source.counts = true) (same : record.length = size) (fits : size ≤ (m source).length) :
    Sound ReplyArr.counts m [.store source 0 record,.send source size] := by
  subst same
  rw [sound_store,sound_send counted,Function.update_self]
  exact ⟨fun _ => by omega,written_stored fits,sound_nil⟩
theorem written_text (bytes : List UInt8) {count : Nat} (fits : count ≤ bytes.length) : Written (bytes.map some) count := by
  constructor
  · simpa using fits
  · intro cell among
    obtain ⟨byte,-,rfl⟩ := List.mem_map.mp (List.mem_of_mem_take among)
    rfl
theorem Entered.text {g : Gateway} {m : Storage ReplyArr UInt8} (entered : Entered g m) (bytes : List UInt8) :
    m (.text bytes) = bytes.map some :=
  entered.others _ (by simp) (by simp)
theorem sound_textReply {m : Storage ReplyArr UInt8} {bytes : List UInt8} (text : m (.text bytes) = bytes.map some) :
    Sound ReplyArr.counts m (textReply bytes) := by
  rw [textReply,sound_send rfl,text]
  exact ⟨written_text bytes (Nat.le_refl _),sound_nil⟩
theorem sound_okReply {g : Gateway} {m : Storage ReplyArr UInt8} (entered : Entered g m) (env : Surroundings) :
    Sound ReplyArr.counts m (pbufReply env 4 okText 4) := by
  rw [sound_pbufReply (by decide) rfl,okText,entered.text]
  exact fun _ => ⟨rfl,written_text _ (by decide)⟩

theorem uid_length {g : Gateway} {m : Storage ReplyArr UInt8} (entered : Entered g m) : (m .uidStm32).length = 16 := by
  rw [entered.others _ (by decide) (by decide)]
  simp [Gateway.arrays,g.serial.uidStm32.slice_length 0 16 (by decide)]
theorem str_length {g : Gateway} {m : Storage ReplyArr UInt8} (entered : Entered g m) (size : Nat) :
    (m (.str size)).length = size := by
  rw [entered.others _ (by simp) (by simp)]
  exact List.length_replicate
/-- `vesion` after its stores: the text, the date without its last zero, a blank, the time, and
    four cells that nothing has written. -/
theorem version_cells (env : Surroundings) :
    writeCells (writeCells (writeCells (writeCells (List.replicate 40 (none : Option UInt8)) 0
      ((chars ['v','e','r','s','i','o','n','=',' ','0','.','9','.','0',' ']).map some)) 15 (env.date.cells.map some)) 27
      (env.time.cells.map some)) 26 ((chars [' ']).map some) =
      (chars ['v','e','r','s','i','o','n','=',' ','0','.','9','.','0',' '] ++ env.date.slice 0 11 ++ chars [' '] ++
        env.time.cells).map some ++ List.replicate 4 none := by
  generalize text : chars ['v','e','r','s','i','o','n','=',' ','0','.','9','.','0',' '] = t
  have length : t.length = 15 := by rw [← text]; rfl
  have date := env.date.cells_length
  have time := env.time.cells_length
  have short : (env.date.slice 0 11).length = 11 := env.date.slice_length 0 11 (by decide)
  have cut : env.date.cells = env.date.slice 0 11 ++ env.date.cells.drop 11 := (List.take_append_drop 11 _).symm
  have first : writeCells (List.replicate 40 none) 0 (t.map some) = t.map some ++ List.replicate 25 none := by
    rw [writeCells_front (by simp [length])]
    simp [length]
  have second : writeCells (t.map some ++ List.replicate 25 none) 15 (env.date.cells.map some) =
      (t ++ env.date.cells).map some ++ List.replicate 13 none := by
    have written := @writeCells_append _ (t.map some) (List.replicate 25 none) (env.date.cells.map some) (by simp)
    simpa [length,date] using written
  have third : writeCells ((t ++ env.date.cells).map some ++ List.replicate 13 none) 27 (env.time.cells.map some) =
      (t ++ env.date.cells ++ env.time.cells).map some ++ List.replicate 4 none := by
    have written := @writeCells_append _ ((t ++ env.date.cells).map some) (List.replicate 13 none)
      (env.time.cells.map some) (by simp)
    simpa [length,date,time] using written
  have fourth : writeCells ((t ++ env.date.cells ++ env.time.cells).map some ++ List.replicate 4 none) 26
      ((chars [' ']).map some) = (t ++ env.date.slice 0 11 ++ chars [' '] ++ env.time.cells).map some ++
        List.replicate 4 none := by
    have written := @writeCells_append _ ((t ++ env.date.slice 0 11).map some)
      ((env.date.cells.drop 11 ++ env.time.cells).map some ++ List.replicate 4 none) ((chars [' ']).map some)
      (by simp [chars])
    rw [cut]
    simpa [length,date,short,chars,List.drop_append] using written
  rw [first,second,third,fourth]

/-- The four stores leave the last four bytes of `vesion`. -/
theorem sound_versionReply {g : Gateway} {m : Storage ReplyArr UInt8} (entered : Entered g m) (env : Surroundings) :
    Sound ReplyArr.counts m (versionStores env ++ pbufReply env 40 .vesion 40) ↔ env.pbufAlloc = false := by
  have blank : m .vesion = List.replicate 40 none := entered.others _ (by decide) (by decide)
  simp only [versionStores,List.cons_append,List.nil_append]
  rw [sound_store,sound_store,sound_store,sound_store,sound_pbufReply (by decide) rfl]
  simp only [Function.update_self,Function.update_idem,writeCells_length,blank,List.length_replicate,env.date.cells_length,
    env.time.cells_length]
  rw [version_cells]
  generalize front : chars ['v','e','r','s','i','o','n','=',' ','0','.','9','.','0',' '] ++ env.date.slice 0 11 ++
    chars [' '] ++ env.time.cells = written
  have length : written.length = 36 := by
    rw [← front]
    simp [chars,Block.slice]
  have last : (written.map some ++ List.replicate 4 none)[39]? = some none := by
    rw [List.getElem?_append_right (by simp [length])]
    simp [length]
  constructor
  · rintro ⟨-,-,-,-,reply⟩
    by_contra there
    exact not_written (by decide : 39 < 40) last (reply (by simpa using there)).2
  · intro missing
    refine ⟨fun _ => by decide,fun _ => by decide,fun _ => by decide,fun _ => by decide,?_⟩
    intro there
    rw [missing] at there
    contradiction

theorem udpBranch_iff {g : Gateway} {m : Storage ReplyArr UInt8} (entered : Entered g m) (env : Surroundings)
    (c : Command) : Sound ReplyArr.counts m (udpBranch env c g) ↔
      (c = .getiap ∨ c = .getchl ∨ c = .getver → env.pbufAlloc = false) := by
  have iap : (m .iap).length = 10 := by
    rw [entered.others _ (by decide) (by decide)]
    exact List.length_replicate
  cases c with
  | getid =>
    refine iff_of_true ?_ (by simp)
    exact sound_recordReply (by decide) rfl rfl (by rw [uid_length entered]; decide)
  | getrun =>
    refine iff_of_true ?_ (by simp)
    exact sound_recordReply (by decide) rfl rfl (by rw [uid_length entered]; decide)
  | getiap =>
    -- 17 bytes are copied into a pbuf of 10.
    simp only [udpBranch]
    rw [sound_store,sound_pbufReply (by decide) rfl,iap]
    simp [iapRecord,bigEndian]
  | setiap => exact iff_of_true (sound_okReply entered env) (by simp)
  | setapp => exact iff_of_true (sound_okReply entered env) (by simp)
  | setchl =>
    refine iff_of_true ?_ (by simp)
    exact sound_looked (by rw [entered.data]; decide) (sound_okReply entered env)
  | getchl =>
    -- 11 bytes are copied into a pbuf of 12.
    simp only [udpBranch]
    rw [sound_store,sound_pbufReply (by decide) rfl,str_length entered]
    simp [channelRecord,bigEndian,chars]
  | getconfig =>
    refine iff_of_true ?_ (by simp)
    exact sound_recordReply (by decide) rfl rfl (by rw [str_length entered])
  | setconfig =>
    refine iff_of_true ?_ (by simp)
    exact sound_looked (by rw [entered.data]; decide) (sound_okReply entered env)
  | getver =>
    refine (sound_versionReply entered env).trans ?_
    simp
  | downlink | pollList | mem | start | stop | reboot => exact iff_of_true sound_nil (by simp)

/-- What the two commands with a payload copy from a receive buffer of 1500 bytes. -/
theorem downlink_inside {n : Nat} (bound : n < 65536) :
    3 + (UInt32.ofNat n - 5 - 3).toNat ≤ 1500 ∧ 0 + (UInt32.ofNat n - 5 - 3).toNat ≤ 1500 ↔ 8 ≤ n ∧ n ≤ 1505 := by
  by_cases enough : 8 ≤ n
  · rw [downlink_lenth enough bound]
    omega
  · have wraps := downlink_lenth_wraps (Nat.lt_of_not_le enough)
    omega
theorem pollList_inside {n : Nat} (bound : n < 65536) : 2 + (UInt32.ofNat n - 5 - 2).toNat ≤ 1500 ↔ 7 ≤ n ∧ n ≤ 1505 := by
  by_cases enough : 7 ≤ n
  · rw [pollList_lenth enough bound]
    omega
  · have wraps := pollList_lenth_wraps (Nat.lt_of_not_le enough)
    omega

theorem tcpBranch_iff {g : Gateway} {m : Storage ReplyArr UInt8} (entered : Entered g m) (env : Surroundings)
    {tcplen : Nat} (bound : tcplen < 65536) (c : Command) : Sound ReplyArr.counts m (tcpBranch env tcplen c g) ↔
      c ≠ .getid ∧ (c = .downlink → 8 ≤ tcplen ∧ tcplen ≤ 1505) ∧ (c = .pollList → 7 ≤ tcplen ∧ tcplen ≤ 1505) := by
  have recvBuf : (m .tcpRecvBuf).length = 1500 := by
    rw [entered.others _ (by decide) (by decide)]
    simp [Gateway.arrays]
  cases c with
  | downlink =>
    simp only [tcpBranch]
    rw [sound_copy,entered.tdata,recvBuf]
    simpa [ReplyArr.counts] using downlink_inside bound
  | pollList =>
    simp only [tcpBranch,List.cons_append,List.nil_append]
    have elsewhere (cells : List (Option UInt8)) :
        Function.update m .tcp2Rs485CmdList cells (.text ffbbSaved) = ffbbSaved.map some := by
      rw [Function.update_of_ne (by decide),entered.text]
    rw [sound_store,sound_copy,Function.update_of_ne (by decide),entered.tdata,Function.update_idem]
    have inside := pollList_inside bound
    -- The poll list is not looked at here.
    have uncounted {bound : Prop} (counted : ReplyArr.counts .tcp2Rs485CmdList = true) : bound :=
      absurd counted Bool.false_ne_true
    constructor
    · rintro ⟨-,⟨there,-⟩,-⟩
      refine ⟨by decide,?_,fun _ => inside.mp (there rfl)⟩
      intro other
      exact absurd other (by decide)
    · rintro ⟨-,-,lengths⟩
      exact ⟨uncounted,⟨fun _ => inside.mpr (lengths trivial),uncounted⟩,sound_textReply (elsewhere _)⟩
  | getid =>
    -- 19 bytes are stored in an array of 16.
    refine iff_of_false ?_ (by simp)
    simp only [tcpBranch]
    rw [sound_store,uid_length entered]
    simp [ReplyArr.counts,tcpIdRecord]
  | mem => exact iff_of_true (sound_textReply (entered.text _)) (by simp)
  | start => exact iff_of_true (sound_textReply (entered.text _)) (by simp)
  | stop => exact iff_of_true (sound_textReply (entered.text _)) (by simp)
  | getrun =>
    refine iff_of_true ?_ (by simp)
    exact sound_recordSend rfl rfl (by rw [uid_length entered]; decide)
  | setchl =>
    refine iff_of_true ?_ (by simp)
    exact sound_looked (by rw [entered.tdata]; decide) (sound_textReply (entered.text _))
  | setconfig =>
    refine iff_of_true ?_ (by simp)
    exact sound_looked (by rw [entered.tdata]; decide) (sound_textReply (entered.text _))
  | getchl =>
    refine iff_of_true ?_ (by simp)
    exact sound_recordSend rfl rfl (by rw [str_length entered])
  | getconfig =>
    refine iff_of_true ?_ (by simp)
    exact sound_recordSend rfl rfl (by rw [str_length entered])
  | getiap | setiap | setapp | getver | reboot => exact iff_of_true sound_nil (by simp)

/-! ### The bytes of the replies -/

/-- What the events hand over. -/
def sentBytes (events : List Event) : List (List UInt8) :=
  events.filterMap fun
    | .tcpWrite bytes | .udpSend bytes => some bytes
    | _ => none

/-- Two accounts of the replies. -/
def RepliesAgree (m : Storage ReplyArr UInt8) (program : List ReplyInstruction) (events : List Event) : Prop :=
  List.Forall₂ Agrees (sentCells (storage.trace m program)) (sentBytes events)

theorem agree_nil {m : Storage ReplyArr UInt8} : RepliesAgree m [] [] := .nil
/-- Stores and looks hand nothing over. -/
theorem agree_store {m : Storage ReplyArr UInt8} {array : ReplyArr} {offset : Nat} {bytes : List UInt8}
    {program : List ReplyInstruction} {events : List Event} :
    RepliesAgree m (.store array offset bytes :: program) events ↔
      RepliesAgree (Function.update m array (writeCells (m array) offset (bytes.map some))) program events := Iff.rfl
theorem agree_copy {m : Storage ReplyArr UInt8} {target source : ReplyArr} {targetOffset sourceOffset count : Nat}
    {program : List ReplyInstruction} {events : List Event} :
    RepliesAgree m (.copy target targetOffset source sourceOffset count :: program) events ↔
      RepliesAgree (Function.update m target (writeCells (m target) targetOffset
        (readCells (m source) sourceOffset count))) program events := Iff.rfl
theorem agree_load {m : Storage ReplyArr UInt8} {array : ReplyArr} {offset count : Nat}
    {program : List ReplyInstruction} {events : List Event} :
    RepliesAgree m (.load array offset count :: program) events ↔ RepliesAgree m program events := Iff.rfl
theorem agree_loads {m : Storage ReplyArr UInt8} {array : ReplyArr} {uses : List (Nat × Nat)}
    {program : List ReplyInstruction} {events : List Event} :
    RepliesAgree m (loads array uses ++ program) events ↔ RepliesAgree m program events := by
  induction uses with
  | nil => exact Iff.rfl
  | cons use rest ih => exact agree_load.trans ih
theorem agree_access {m : Storage ReplyArr UInt8} {program : List ReplyInstruction} {use : Access Arr}
    {events : List Event} : RepliesAgree m program (.access use :: events) ↔ RepliesAgree m program events := Iff.rfl
theorem agree_send {m : Storage ReplyArr UInt8} {array : ReplyArr} {count : Nat} {bytes : List UInt8}
    (agrees : Agrees (readCells (m array) 0 count) bytes) :
    RepliesAgree m [.send array count] [.tcpWrite bytes] := .cons agrees .nil
theorem agree_text {g : Gateway} {m : Storage ReplyArr UInt8} (entered : Entered g m) (bytes : List UInt8) :
    RepliesAgree m (textReply bytes) [.tcpWrite bytes] := by
  refine agree_send ?_
  rw [entered.text,readCells_front (by simp),List.take_of_length_le (by simp)]
  exact agrees_map bytes
theorem agree_pbufReply {m : Storage ReplyArr UInt8} {env : Surroundings} {size count : Nat} {source : ReplyArr}
    {bytes : List UInt8} (apart : source ≠ .pbuf) (agrees : Agrees (readCells (m source) 0 count) bytes) :
    RepliesAgree m (pbufReply env size source count) (udpReply env size bytes) := by
  unfold pbufReply udpReply
  split
  · refine .cons ?_ .nil
    have copied := @agrees_copied UInt8 (readCells (m source) 0 count) bytes size agrees env.heap
    simpa [storage,storageStep,Function.update_of_ne apart] using copied
  · exact agree_nil
theorem agree_recordReply {m : Storage ReplyArr UInt8} {env : Surroundings} {source : ReplyArr} {record : List UInt8}
    {size count : Nat} (apart : source ≠ .pbuf) (same : record.length = count) :
    RepliesAgree m (.store source 0 record :: pbufReply env size source count) (udpReply env size record) := by
  subst same
  rw [agree_store]
  refine agree_pbufReply apart ?_
  rw [Function.update_self]
  exact agrees_stored _ record
theorem agree_recordSend {m : Storage ReplyArr UInt8} {source : ReplyArr} {record : List UInt8} {count : Nat}
    (same : record.length = count) : RepliesAgree m [.store source 0 record,.send source count] [.tcpWrite record] := by
  subst same
  rw [agree_store]
  refine agree_send ?_
  rw [Function.update_self]
  exact agrees_stored _ record

theorem udpBranch_agrees {g : Gateway} {m : Storage ReplyArr UInt8} (entered : Entered g m) (env : Surroundings)
    (data : Block UInt8 1024) (c : Command) : RepliesAgree m (udpBranch env c g) (udpExecute env data c g).2 := by
  have ok : RepliesAgree m (pbufReply env 4 okText 4) (udpReply env 4 udpOk) := by
    refine agree_pbufReply (by decide) ?_
    rw [okText,entered.text,readCells_front (by decide)]
    exact agrees_map udpOk
  cases c with
  | getid => exact agree_recordReply (by decide) rfl
  | getrun => exact agree_recordReply (by decide) rfl
  | getiap =>
    refine agree_access.mpr (agree_store.mpr (agree_pbufReply (by decide) ?_))
    have blank : m .iap = List.replicate 10 none := entered.others _ (by decide) (by decide)
    have front : readCells (writeCells (List.replicate 10 none) 0 ((iapRecord g.client.load).map some)) 0 17 =
        (iapRecord g.client.load).map some ++ List.replicate 8 none := rfl
    rw [Function.update_self,blank,front,List.append_assoc]
    exact agrees_append (iapRecord g.client.load) ([env.stack.peek 0] ++ List.replicate 7 env.heap)
  | setiap => exact ok
  | setapp => exact ok
  | setchl => exact ok
  | setconfig => exact ok
  | getchl => exact agree_recordReply (by decide) rfl
  | getconfig => exact agree_recordReply (by decide) rfl
  | getver =>
    have blank : m .vesion = List.replicate 40 none := entered.others _ (by decide) (by decide)
    refine agree_store.mpr (agree_store.mpr (agree_store.mpr (agree_store.mpr (agree_pbufReply (by decide) ?_))))
    simp only [Function.update_self,blank]
    rw [version_cells,readCells_front (by simp [chars,Block.slice]),List.take_of_length_le (by simp [chars,Block.slice])]
    have agrees := agrees_append (chars ['v','e','r','s','i','o','n','=',' ','0','.','9','.','0',' '] ++
      env.date.slice 0 11 ++ chars [' '] ++ env.time.cells) env.stack.cells
    rwa [env.stack.cells_length] at agrees
  | downlink | pollList | mem | start | stop | reboot => exact agree_nil
theorem tcpBranch_agrees {g : Gateway} {m : Storage ReplyArr UInt8} (entered : Entered g m) (env : Surroundings)
    (tcplen : Nat) (c : Command) : RepliesAgree m (tcpBranch env tcplen c g) (tcpExecute env tcplen c g).2 := by
  cases c with
  | downlink => exact agree_copy.mpr agree_nil
  | pollList =>
    refine agree_store.mpr (agree_copy.mpr (agree_send ?_))
    rw [Function.update_of_ne (by decide),Function.update_of_ne (by decide),entered.text,readCells_front (by simp),
      List.take_of_length_le (by simp)]
    exact agrees_map ffbbSaved
  | mem => exact agree_text entered env.memInf
  | start => exact agree_text entered startSent
  | stop => exact agree_text entered startSent
  | getrun => exact agree_recordSend rfl
  | getid => exact agree_recordSend rfl
  | setchl => exact agree_text entered tcpOk
  | setconfig => exact agree_text entered tcpOk
  | getchl => exact agree_recordSend rfl
  | getconfig => exact agree_recordSend rfl
  | getiap | setiap | setapp | getver | reboot => exact agree_nil

/-- The instructions hand over the bytes that the callback hands over, as far as they have been
    written. -/
theorem replies_agree (env : Surroundings) (r : Received) (g : Gateway) :
    RepliesAgree g.arrays (replyProgram env r g) (receive env r g).2 := by
  cases r with
  | datagram stack bytes =>
    simp only [receive,udpClientCallback,replyProgram,Received.command]
    split
    · rw [List.append_assoc]
      refine agree_store.mpr (agree_loads.mpr ?_)
      cases dispatch udpCommands (stack.copy bytes) with
      | none => exact agree_access.mpr agree_nil
      | some c => exact agree_access.mpr (udpBranch_agrees (data_entered g _) env (stack.copy bytes) c)
    · exact agree_nil
  | segment bytes =>
    have found {m : Storage ReplyArr UInt8} (entered : Entered g m) :
        RepliesAgree m (loads ReplyArr.tdata (looksUntil tcpCommands (g.copyIn bytes)) ++
          ((dispatch tcpCommands (g.copyIn bytes)).elim [] (tcpBranch env bytes.length · g)))
          (tcpClientReciver env bytes g).2 := by
      have branch : RepliesAgree m ((dispatch tcpCommands (g.copyIn bytes)).elim [] (tcpBranch env bytes.length · g))
          ((dispatch tcpCommands (g.copyIn bytes)).elim [] fun c => (tcpExecute env bytes.length c g).2) := by
        cases dispatch tcpCommands (g.copyIn bytes) with
        | none => exact agree_nil
        | some c => exact tcpBranch_agrees entered env bytes.length c
      have replies : sentBytes (tcpClientReciver env bytes g).2 =
          sentBytes ((dispatch tcpCommands (g.copyIn bytes)).elim [] fun c => (tcpExecute env bytes.length c g).2) := by
        unfold tcpClientReciver
        dsimp only
        cases dispatch tcpCommands (g.copyIn bytes) with
        | none => dsimp only; split <;> rfl
        | some c => cases c <;> dsimp only <;> split <;> rfl
      refine agree_loads.mpr ?_
      rw [RepliesAgree,replies]
      exact branch
    simp only [receive,replyProgram,Received.command,List.append_assoc]
    split
    · exact agree_store.mpr (found (tdata_entered g _))
    · exact found (arrays_entered g)

/-- The buffer is looked at, and the branch of the command that is found does the rest. -/
theorem sound_found {m : Storage ReplyArr UInt8} {array : ReplyArr} {uses : List (Nat × Nat)}
    (counted : array.counts = true) (looks : ∀ use ∈ uses, use.1 + use.2 ≤ 18) (room : 18 ≤ (m array).length)
    (branch : List ReplyInstruction) :
    Sound ReplyArr.counts m (loads array uses ++ branch) ↔ Sound ReplyArr.counts m branch := by
  rw [sound_append,after_loads]
  exact and_iff_right ((sound_loads counted).mpr fun use among => (looks use among).trans room)
theorem datagram_sound_iff (env : Surroundings) (stack : Block UInt8 1024) (bytes : List UInt8) (g : Gateway) :
    ReplySound env (.datagram stack bytes) g ↔ ReplyClear env g (.datagram stack bytes) := by
  by_cases fits : bytes.length < 1024
  · have entered := data_entered g (bytes.map some)
    have program : replyProgram env (.datagram stack bytes) g = .store .data 0 bytes ::
        (loads ReplyArr.data (looksUntil udpCommands (stack.copy bytes)) ++
          ((dispatch udpCommands (stack.copy bytes)).elim [] (udpBranch env · g))) := by
      simp [replyProgram,Received.command,fits]
    have command : (Received.datagram stack bytes).command g = dispatch udpCommands (stack.copy bytes) := if_pos fits
    have stored : 0 + bytes.length ≤ (g.arrays .data).length := by
      rw [(arrays_entered g).data]
      omega
    rw [ReplySound,program,sound_store,sound_found rfl (looksUntil_inside _ _) (by rw [entered.data]; decide),
      and_iff_right (fun _ => stored)]
    simp only [ReplyClear,command]
    cases dispatch udpCommands (stack.copy bytes) with
    | none => exact iff_of_true sound_nil trivial
    | some c =>
      refine (udpBranch_iff entered env c).trans ?_
      cases c <;> simp
  · have command : (Received.datagram stack bytes).command g = none := if_neg fits
    refine iff_of_true ?_ ?_
    · rw [ReplySound,replyProgram,if_neg fits]
      exact sound_nil
    · simp only [ReplyClear,command]
theorem segment_sound_iff (env : Surroundings) (bytes : List UInt8) (g : Gateway) (bound : bytes.length < 65536) :
    ReplySound env (.segment bytes) g ↔ ReplyClear env g (.segment bytes) := by
  have found {m : Storage ReplyArr UInt8} (entered : Entered g m) :
      Sound ReplyArr.counts m (loads ReplyArr.tdata (looksUntil tcpCommands (g.copyIn bytes)) ++
        ((dispatch tcpCommands (g.copyIn bytes)).elim [] (tcpBranch env bytes.length · g))) ↔
          ReplyClear env g (.segment bytes) := by
    rw [sound_found rfl (looksUntil_inside _ _) (by rw [entered.tdata]; decide)]
    simp only [ReplyClear,Received.command]
    cases dispatch tcpCommands (g.copyIn bytes) with
    | none => exact iff_of_true sound_nil trivial
    | some c =>
      refine (tcpBranch_iff entered env bound c).trans ?_
      cases c <;> simp
  by_cases fits : bytes.length < 1500
  · have stored : 0 + bytes.length ≤ (g.arrays .tdata).length := by
      rw [(arrays_entered g).tdata]
      omega
    simp only [ReplySound,replyProgram,if_pos fits,List.cons_append,List.nil_append]
    rw [sound_store,and_iff_right (fun _ => stored)]
    exact found (tdata_entered g _)
  · simp only [ReplySound,replyProgram,if_neg fits,List.nil_append]
    exact found (arrays_entered g)

/-- A callback stays inside its arrays and sends what it has written exactly when no command with
    disagreeing sizes is found, and a command with a payload has a segment of a fitting length. -/
theorem reply_sound_iff (env : Surroundings) (r : Received) (g : Gateway) (bound : r.bytes.length < 65536) :
    ReplySound env r g ↔ ReplyClear env g r := by
  cases r with
  | datagram stack bytes => exact datagram_sound_iff env stack bytes g
  | segment bytes => exact segment_sound_iff env bytes g bound
theorem reply_sound_iff_getconfig :
    ReplySound .plain (.segment (chars ['g','e','t','c','o','n','f','i','g'])) (gatewayStarted .boot ⟨1,2,3⟩ false) := by
  have command : (Received.segment (chars ['g','e','t','c','o','n','f','i','g'])).command
      (gatewayStarted .boot ⟨1,2,3⟩ false) = some .getconfig := by decide
  refine (reply_sound_iff .plain (.segment (chars ['g','e','t','c','o','n','f','i','g']))
    (gatewayStarted .boot ⟨1,2,3⟩ false) (by decide)).mpr ?_
  simp only [ReplyClear,command]
/-- Over UDP `getiap` reads and writes 17 bytes where there are ten. -/
theorem reply_sound_fails :
    ¬ ReplySound .plain (.datagram (.fill 0) (chars ['g','e','t','i','a','p'])) (gatewayStarted .boot ⟨1,2,3⟩ false) := by
  decide +kernel

end Net2Modbus
