import Net2Modbus.FirmwareImage

/-!
# Completed updates

What the server takes for the end of a transfer, against a receiver that follows the
protocol: which packets have to be kept away from it so that an update completes only
with the whole image of its transfer in the flash.
-/
namespace Net2Modbus

/-- A transfer as its peer sees it: the blocks that were accepted. -/
structure Transfer where
  peer : Peer
  blocks : List (List UInt8)
  deriving DecidableEq, Repr

/-- A DATA packet of the peer with the next number. -/
def Transfer.Accepts (t : Transfer) (addr : Peer) (p : Packet) : Prop :=
  ¬ p.Chained ∧ addr = t.peer ∧ 4 ≤ p.bytes.length ∧ p.bytes.length ≤ tftpDataPktLenMax ∧
    iapTftpDecodeOp p = tftpData ∧ iapTftpExtractBlock p = t.blocks.length + 1

instance (t : Transfer) (addr : Peer) (p : Packet) : Decidable (t.Accepts addr p) :=
  inferInstanceAs (Decidable (_ ∧ _ ∧ _ ∧ _ ∧ _ ∧ _))

def Transfer.accept (t : Transfer) (p : Packet) : Transfer := { t with blocks := t.blocks ++ [p.bytes.drop 4] }

/-- The transfer of a control block. -/
def transferOf (g : List (Option Transfer)) (pcb : Nat) : Option Transfer := (g[pcb]?).join
/-- No later request opened a transfer. -/
def Latest (g : List (Option Transfer)) (pcb : Nat) : Prop := ∀ t ∈ g.drop (pcb + 1), t = none

instance (g : List (Option Transfer)) (pcb : Nat) : Decidable (Latest g pcb) :=
  inferInstanceAs (Decidable (∀ t ∈ g.drop (pcb + 1), t = none))

/-- The transfers after an input. -/
def followed (g : List (Option Transfer)) : IapInput → List (Option Transfer)
  | .request env addr p => g ++ if env.udpNew then [if Opens env p then some ⟨addr,[]⟩ else none] else []
  | .data _ pcb addr p =>
    match transferOf g pcb with
    | none => g
    | some t => if t.Accepts addr p then g.set pcb (some (t.accept p)) else g

/-- The transfer has taken its short block, and the flash holds its blocks. -/
def Completed (g : List (Option Transfer)) (pcb : Nat) (flash : Flash) : Prop :=
  ∃ t, transferOf g pcb = some t ∧ (∃ block ∈ t.blocks.getLast?, block.length < 512) ∧
    flash.image t.blocks.flatten.length = t.blocks.flatten

/-- The server and the transfers that its packets make up. -/
def followedIap : Machine (IapServer × List (Option Transfer)) IapInput IapEvent :=
  iap.observe fun g _ i => followed g i

/-- An update completes in a step only when its transfer is complete. -/
def UpdateSound (s : IapServer × List (Option Transfer)) (i : IapInput) : Prop :=
  ∀ e ∈ endings (iap.step s.1 i).2, Completed (followed s.2 i) e.1 e.2

/-- A packet that is next or short is a block of the newest transfer, from its peer, and
    all its words can be written. -/
def UpdateClear (s : IapServer × List (Option Transfer)) : IapInput → Prop
  | .request _ _ _ => True
  | .data env pcb addr p =>
    ∀ args ∈ s.1.args pcb, ¬ p.Chained → args.Next p ∨ p.bytes.length < tftpDataPktLenMax →
      args.Next p ∧ Latest s.2 pcb ∧ addr = args.peer ∧ iapTftpDecodeOp p = tftpData ∧ 4 ≤ p.bytes.length ∧
        p.bytes.length ≤ tftpDataPktLenMax ∧
        (∀ complete ∈ env.outcomes.take (wordCount (p.bytes.length - 4)), complete = true) ∧
        s.1.flashWriteAddress.toNat + 4 * wordCount (p.bytes.length - 4) ≤ (userFlashEndAddress - 3).toNat

instance (s : IapServer × List (Option Transfer)) (i : IapInput) : Decidable (UpdateClear s i) :=
  match i with
  | .request _ _ _ => isTrue trivial
  | .data _ _ _ _ => inferInstanceAs (Decidable (∀ _ ∈ _, _ → _ → _))
instance (s : IapServer × List (Option Transfer)) (i : IapInput) : Decidable (followedIap.enabled s i) :=
  inferInstanceAs (Decidable (iap.enabled s.1 i))

/-- What the server knows of a transfer, and where the newest one stands in the flash. -/
structure Follows (s : IapServer) (args : IapArgs) (t : Transfer) (latest : Prop) : Prop where
  peer : t.peer = args.peer
  block : t.blocks.length = args.block
  small : latest → 128 * args.block ≤ userWords
  address : latest → s.flashWriteAddress = userAddress (128 * args.block)
  image : latest → s.flash.image (512 * args.block) = t.blocks.flatten

structure Tracks (s : IapServer) (g : List (Option Transfer)) : Prop where
  length : g.length = s.pcbs.length
  follows : ∀ pcb args, s.args pcb = some args → ∃ t, transferOf g pcb = some t ∧ Follows s args t (Latest g pcb)

theorem transferOf_mem {g : List (Option Transfer)} {a b : Nat} {t : Transfer} (known : transferOf g b = some t)
    (behind : a < b) : some t ∈ g.drop (a + 1) := by
  unfold transferOf at known
  rw [Option.join_eq_some_iff] at known
  rw [List.mem_iff_getElem?]
  refine ⟨b - (a + 1),?_⟩
  rw [List.getElem?_drop,Nat.add_sub_cancel' behind]
  exact known
/-- Only one transfer is the newest. -/
theorem latest_unique {g : List (Option Transfer)} {a b : Nat} {t t' : Transfer} (left : transferOf g a = some t)
    (right : transferOf g b = some t') (first : Latest g a) (second : Latest g b) : a = b := by
  rcases Nat.lt_trichotomy a b with before | same | behind
  · have later := first _ (transferOf_mem right before)
    contradiction
  · exact same
  · have later := second _ (transferOf_mem left behind)
    contradiction

section
variable {s s' : IapServer} {g : List (Option Transfer)} {pcb : Nat} {args : IapArgs} {t : Transfer}

/-- Nothing that a transfer depends on has changed. -/
theorem Follows.same {latest latest' : Prop} (f : Follows s args t latest) (address : s'.flashWriteAddress = s.flashWriteAddress)
    (word : s'.flash.word = s.flash.word) (weaken : latest' → latest) : Follows s' args t latest' := by
  refine ⟨f.peer,f.block,fun last => f.small (weaken last),fun last => address.trans (f.address (weaken last)),?_⟩
  intro last
  have bytes : s'.flash.userByte = s.flash.userByte := by
    funext k
    rw [Flash.userByte,Flash.userByte,Flash.userWord,Flash.userWord,word]
  rw [Flash.image,bytes]
  exact f.image (weaken last)
theorem Tracks.same (tracks : Tracks s g) (length : s'.pcbs.length = s.pcbs.length) (registered : ∀ q, s'.args q = s.args q)
    (address : s'.flashWriteAddress = s.flashWriteAddress) (word : s'.flash.word = s.flash.word) : Tracks s' g := by
  refine ⟨tracks.length.trans length.symm,?_⟩
  intro q a known
  obtain ⟨t,there,f⟩ := tracks.follows q a ((registered q).symm.trans known)
  exact ⟨t,there,f.same address word id⟩
/-- The newest transfer takes a block or ends: only it depends on the flash. -/
theorem Tracks.newest (tracks : Tracks s g) (registered : s.args pcb = some args) (latest : Latest g pcb) {t' : Transfer}
    {new : Option IapArgs} (pcbs : s'.pcbs = s.pcbs.set pcb new)
    (follows : ∀ args', new = some args' → Follows s' args' t' True) : Tracks s' (g.set pcb (some t')) := by
  have inside : pcb < g.length := tracks.length ▸ args_lt registered
  have here : transferOf (g.set pcb (some t')) pcb = some t' := by
    rw [transferOf,List.getElem?_set_self inside]
    rfl
  have last : Latest (g.set pcb (some t')) pcb := by
    rw [Latest,List.drop_set_of_lt (Nat.lt_succ_self pcb)]
    exact latest
  refine ⟨by rw [List.length_set,tracks.length,pcbs,List.length_set],?_⟩
  intro q a known
  by_cases same : q = pcb
  · subst same
    have now : s'.args q = new := args_set new registered pcbs
    obtain ⟨peer,block,small,address,image⟩ := follows a (now.symm.trans known)
    exact ⟨t',here,peer,block,fun _ => small trivial,fun _ => address trivial,fun _ => image trivial⟩
  · have kept : s'.args q = s.args q := by
      rw [IapServer.args,IapServer.args,pcbs,List.getElem?_set_ne (Ne.symm same)]
    obtain ⟨t,there,f⟩ := tracks.follows q a (kept.symm.trans known)
    have there' : transferOf (g.set pcb (some t')) q = some t := by
      rw [transferOf,List.getElem?_set_ne (Ne.symm same)]
      exact there
    have never : ¬ Latest (g.set pcb (some t')) q := fun other => same (latest_unique there' here other last)
    exact ⟨t,there',f.peer,f.block,fun other => absurd other never,fun other => absurd other never,
      fun other => absurd other never⟩

/-- A request that opens a transfer makes it the newest. -/
theorem Tracks.opens (tracks : Tracks s g) {addr : Peer} (pcbs : s'.pcbs = s.pcbs ++ [some ⟨addr,0,0⟩])
    (address : s'.flashWriteAddress = flashFirstPageAddress) : Tracks s' (g ++ [some ⟨addr,[]⟩]) := by
  refine ⟨by simp [tracks.length,pcbs],?_⟩
  intro q a known
  rw [IapServer.args,pcbs] at known
  by_cases old : q < s.pcbs.length
  · rw [List.getElem?_append_left old] at known
    obtain ⟨t,there,f⟩ := tracks.follows q a known
    have inside : q + 1 ≤ g.length := tracks.length ▸ old
    have never : ¬ Latest (g ++ [some ⟨addr,[]⟩]) q := by
      intro other
      have last := other (some ⟨addr,[]⟩) (by simp [List.drop_append_of_le_length inside])
      contradiction
    refine ⟨t,?_,f.peer,f.block,fun other => absurd other never,fun other => absurd other never,
      fun other => absurd other never⟩
    rw [transferOf,List.getElem?_append_left inside]
    exact there
  · by_cases here : q = s.pcbs.length
    · subst here
      rw [List.getElem?_concat_length] at known
      obtain rfl : ⟨addr,0,0⟩ = a := Option.some.inj known
      refine ⟨⟨addr,[]⟩,?_,rfl,rfl,fun _ => Nat.zero_le _,fun _ => address,fun _ => rfl⟩
      rw [← tracks.length,transferOf,List.getElem?_concat_length]
      rfl
    · rw [List.getElem?_eq_none (by simp; omega)] at known
      contradiction
/-- Other requests leave at most a control block without a transfer. -/
theorem Tracks.refuses (tracks : Tracks s g) {new : Bool} (pcbs : s'.pcbs = s.pcbs ++ if new then [none] else [])
    (address : s'.flashWriteAddress = s.flashWriteAddress) (word : s'.flash.word = s.flash.word) :
    Tracks s' (g ++ if new then [none] else []) := by
  cases new with
  | false =>
    simp only [Bool.false_eq_true,if_false,List.append_nil] at pcbs ⊢
    exact tracks.same (congrArg _ pcbs) (fun q => congrArg (fun l : List (Option IapArgs) => (l[q]?).join) pcbs) address word
  | true =>
    simp only [if_true] at pcbs ⊢
    refine ⟨by simp [tracks.length,pcbs],?_⟩
    intro q a known
    rw [IapServer.args,pcbs] at known
    have before := (args_append_none s true q).symm.trans known
    obtain ⟨t,there,f⟩ := tracks.follows q a before
    have inside : q + 1 ≤ g.length := tracks.length ▸ args_lt before
    refine ⟨t,?_,f.same address word fun other t' member => other t' ?_⟩
    · rw [transferOf,List.getElem?_append_left inside]
      exact there
    · rw [List.drop_append_of_le_length inside]
      exact List.mem_append_left _ member

/-- The bytes that all blocks of a transfer have. -/
theorem Follows.blocks_length (f : Follows s args t True) : t.blocks.flatten.length = 512 * args.block := by
  rw [← f.image trivial,Flash.image,List.length_map,List.length_range]
/-- A clear packet that is next is accepted by the receiver too, and its bytes are written. -/
theorem Follows.accepts {env : IapEnv} {addr : Peer} {p : Packet} (f : Follows s args t True) (registered : s.args pcb = some args)
    (single : ¬ p.Chained) (asked : args.Next p ∨ p.bytes.length < tftpDataPktLenMax)
    (clear : UpdateClear (s,g) (.data env pcb addr p)) :
    t.Accepts addr p ∧ Latest g pcb ∧ args.Next p ∧ 128 * args.block + wordCount (p.bytes.length - 4) ≤ userWords ∧
      (iapAccepted env args p s).1.flashWriteAddress = userAddress (128 * args.block + wordCount (p.bytes.length - 4)) ∧
      (iapAccepted env args p s).1.flash.image (512 * args.block + (p.bytes.length - 4)) = (t.accept p).blocks.flatten := by
  obtain ⟨next,latest,peer,opcode,header,short,complete,limit⟩ := clear args registered single asked
  have small := f.small trivial
  have address := f.address trivial
  have fits : 128 * args.block + wordCount (p.bytes.length - 4) ≤ userWords := by
    have start := userAddress_toNat (i := 128 * args.block) (by unfold userWords at small; omega)
    rw [← address] at start
    have top : (userFlashEndAddress - 3).toNat = 134479868 := rfl
    rw [top,start] at limit
    unfold userWords
    omega
  have accepts : t.Accepts addr p := ⟨single,peer.trans f.peer.symm,header,short,opcode,by rw [f.block]; exact next⟩
  obtain ⟨behind,image⟩ := iapAccept_next env (s.withOutcomes env.outcomes) next address complete fits
  refine ⟨accepts,latest,next,fits,behind,image.trans ?_⟩
  show s.flash.image (512 * args.block) ++ _ = _
  rw [f.image trivial]
  simp [Transfer.accept]

section
variable {env : IapEnv} {addr : Peer} {p : Packet} (tracks : Tracks s g) (registered : s.args pcb = some args)
  (single : ¬ p.Chained) (f : Follows s args t True)
include tracks registered single f

/-- The block that ends a transfer: the whole image is in the memory. -/
theorem Tracks.ends (short : p.bytes.length < tftpDataPktLenMax) (clear : UpdateClear (s,g) (.data env pcb addr p)) :
    Tracks (iapStep s (.data env pcb addr p)).1 (g.set pcb (some (t.accept p))) ∧
      ∀ e ∈ endings (iapStep s (.data env pcb addr p)).2, Completed (g.set pcb (some (t.accept p))) e.1 e.2 := by
  obtain ⟨-,latest,-,-,-,image⟩ := f.accepts registered single (.inr short) clear
  obtain ⟨kept,-⟩ := iapAccept_frame env p (s.withOutcomes env.outcomes) args
  obtain ⟨pcbs,ending,-⟩ := iapStep_short env addr registered single short
  have pcbs' := pcbs.trans (congrArg (fun l => List.set l pcb none) kept)
  refine ⟨tracks.newest registered latest pcbs' (fun _ none => by contradiction),?_⟩
  rw [ending,List.forall_mem_singleton]
  have inside : pcb < g.length := tracks.length ▸ args_lt registered
  have size : (t.accept p).blocks.flatten.length = 512 * args.block + (p.bytes.length - 4) := by
    simp [Transfer.accept,f.blocks_length]
  refine ⟨t.accept p,?_,⟨p.bytes.drop 4,?_,?_⟩,?_⟩
  · rw [transferOf,List.getElem?_set_self inside]
    rfl
  · simp [Transfer.accept]
  · rw [List.length_drop]
    unfold tftpDataPktLenMax at short
    omega
  · rw [size]
    exact image
/-- A whole block that is next, behind the blocks that are in the memory. -/
theorem Tracks.goes_on (whole : ¬ p.bytes.length < tftpDataPktLenMax) (next : args.Next p)
    (clear : UpdateClear (s,g) (.data env pcb addr p)) :
    Tracks (iapStep s (.data env pcb addr p)).1 (g.set pcb (some (t.accept p))) ∧
      ∀ e ∈ endings (iapStep s (.data env pcb addr p)).2, Completed (g.set pcb (some (t.accept p))) e.1 e.2 := by
  obtain ⟨accepts,latest,-,fits,address,image⟩ := f.accepts registered single (.inl next) clear
  obtain ⟨kept,-,peer,count⟩ := iapAccept_frame env p (s.withOutcomes env.outcomes) args
  rw [if_pos next] at count
  obtain ⟨state,endless,-⟩ := iapStep_full env addr registered single whole
  have upper := accepts.2.2.2.1
  have length : p.bytes.length - 4 = 512 := by
    unfold tftpDataPktLenMax at whole upper
    omega
  have words : wordCount 512 = 128 := rfl
  rw [length] at image
  rw [length,words] at fits address
  rw [endless]
  have pcbs := (congrArg IapServer.pcbs state).trans (congrArg (fun l => List.set l pcb (some _)) kept)
  refine ⟨tracks.newest registered latest pcbs ?_,List.forall_mem_nil _⟩
  rintro args' same
  obtain rfl := Option.some.inj same
  refine ⟨f.peer.trans peer.symm,?_,?_,?_,?_⟩
  · rw [iapAccepted,count,← f.block]
    simp [Transfer.accept]
  · intro _
    rw [iapAccepted,count]
    exact fits
  · intro _
    rw [state,iapAccepted,count]
    exact address
  · intro _
    rw [state,iapAccepted,count]
    exact image

end

/-- A packet for a transfer. -/
theorem tracks_data (tracks : Tracks s g) {env : IapEnv} {addr : Peer} {p : Packet} (registered : s.args pcb = some args)
    (clear : UpdateClear (s,g) (.data env pcb addr p)) :
    Tracks (iapStep s (.data env pcb addr p)).1 (followed g (.data env pcb addr p)) ∧
      ∀ e ∈ endings (iapStep s (.data env pcb addr p)).2, Completed (followed g (.data env pcb addr p)) e.1 e.2 := by
  obtain ⟨t,there,f⟩ := tracks.follows pcb args registered
  have ignored (other : ¬ t.Accepts addr p) : followed g (.data env pcb addr p) = g := by
    simp only [followed,there,if_neg other]
  by_cases chained : p.Chained
  · rw [iapStep_chained registered chained,ignored fun accepts => accepts.1 chained]
    exact ⟨tracks.same rfl (fun _ => rfl) rfl rfl,List.forall_mem_nil _⟩
  · by_cases asked : args.Next p ∨ p.bytes.length < tftpDataPktLenMax
    · have latest := (clear args registered chained asked).2.1
      have f : Follows s args t True := f.same rfl rfl fun _ => latest
      obtain ⟨accepts,-,next,-⟩ := f.accepts registered chained asked clear
      have taken : followed g (.data env pcb addr p) = g.set pcb (some (t.accept p)) := by
        simp only [followed,there,if_pos accepts]
      rw [taken]
      by_cases short : p.bytes.length < tftpDataPktLenMax
      · exact tracks.ends registered chained f short clear
      · exact tracks.goes_on registered chained f short next clear
    · rw [not_or] at asked
      obtain ⟨state,endless,-⟩ := iapStep_full env addr registered chained asked.2
      have other : ¬ t.Accepts addr p := by
        rintro ⟨-,-,-,-,-,number⟩
        exact asked.1 (number.trans (congrArg (· + 1) f.block))
      rw [iapAccepted,iapAccept_of_not_next asked.1] at state
      rw [endless,ignored other,state]
      refine ⟨tracks.same List.length_set ?_ rfl rfl,List.forall_mem_nil _⟩
      intro q
      by_cases same : q = pcb
      · rw [same,registered]
        exact args_set _ registered rfl
      · rw [IapServer.args,IapServer.args,List.getElem?_set_ne (Ne.symm same)]
        rfl

/-- Every input keeps the two in step, and an update that completes is whole. -/
theorem tracks_step (tracks : Tracks s g) {i : IapInput} (now : iap.enabled s i) (clear : UpdateClear (s,g) i) :
    Tracks (iap.step s i).1 (followed g i) ∧ UpdateSound (s,g) i := by
  cases i with
  | request env addr p =>
    by_cases opens : Opens env p
    · obtain ⟨state,endless,-⟩ := iapStep_opens addr s opens
      have grown : followed g (.request env addr p) = g ++ [some ⟨addr,[]⟩] := by
        rw [followed,opens.1,if_pos rfl,if_pos opens]
      refine ⟨?_,?_⟩
      · rw [grown]
        exact tracks.opens (congrArg IapServer.pcbs state) (congrArg IapServer.flashWriteAddress state)
      · intro e member
        rw [show endings (iap.step s _).2 = [] from endless] at member
        exact absurd member List.not_mem_nil
    · obtain ⟨state,endless,-⟩ := iapStep_refuses addr s opens
      have grown : followed g (.request env addr p) = g ++ if env.udpNew then [none] else [] := by
        rw [followed,if_neg opens]
      refine ⟨?_,?_⟩
      · rw [grown]
        refine tracks.refuses (congrArg IapServer.pcbs state) ?_ ?_
        · exact (congrArg IapServer.flashWriteAddress state).trans rfl
        · exact (congrArg (fun s => s.flash.word) state).trans rfl
      · intro e member
        rw [show endings (iap.step s _).2 = [] from endless] at member
        exact absurd member List.not_mem_nil
  | data env pcb addr p =>
    obtain ⟨args,registered⟩ := Option.isSome_iff_exists.mp now.2.1
    exact tracks_data tracks registered clear

end

/-- In a run that keeps such packets away, an update completes only with the whole image of
    its transfer in the flash. -/
theorem update_sound (flash : Flash) (inputs : List IapInput)
    (admissible : followedIap.Admissible (iapStarted flash,[]) inputs)
    (clear : followedIap.Each UpdateClear (iapStarted flash,[]) inputs) :
    followedIap.Each UpdateSound (iapStarted flash,[]) inputs := by
  have start : Tracks (iapStarted flash) [] := by
    refine ⟨rfl,?_⟩
    intro pcb args known
    contradiction
  have both := Machine.each_and.mpr ⟨admissible,clear⟩
  refine Machine.each_of_invariant (R := fun s => Tracks s.1 s.2) ?_ ?_ start both
  · intro s i tracks now
    exact (tracks_step tracks now.1 now.2).1
  · intro s i tracks now
    exact (tracks_step tracks now.1 now.2).2
/-- An image of five bytes. -/
theorem update_sound_five_bytes : followedIap.Each UpdateSound (iapStarted ⟨fun _ => blankWord,[],true⟩,[])
    [.request .plain ⟨1,2⟩ ⟨[0,2],2,[]⟩,.data .plain 0 ⟨1,2⟩ ⟨[0,3,0,1,1,2,3,4,5],9,[]⟩] :=
  update_sound ⟨fun _ => blankWord,[],true⟩
    [.request .plain ⟨1,2⟩ ⟨[0,2],2,[]⟩,.data .plain 0 ⟨1,2⟩ ⟨[0,3,0,1,1,2,3,4,5],9,[]⟩]
    (by decide) (by decide)
/-- One byte from another host completes an update of which no block has come. -/
theorem update_sound_fails :
    followedIap.Admissible (iapStarted ⟨fun _ => blankWord,[],true⟩,[])
        [.request .plain ⟨1,2⟩ ⟨[0,2],2,[]⟩,.data .plain 0 ⟨3,4⟩ ⟨[7],1,[]⟩] ∧
      ¬ followedIap.Each UpdateSound (iapStarted ⟨fun _ => blankWord,[],true⟩,[])
        [.request .plain ⟨1,2⟩ ⟨[0,2],2,[]⟩,.data .plain 0 ⟨3,4⟩ ⟨[7],1,[]⟩] := by
  refine ⟨by decide,?_⟩
  rintro ⟨-,sound,-⟩
  have registered : (iapStep (iapStarted ⟨fun _ => blankWord,[],true⟩)
      (.request .plain ⟨1,2⟩ ⟨[0,2],2,[]⟩)).1.args 0 = some ⟨⟨1,2⟩,0,0⟩ := rfl
  have ending := (iapStep_short .plain ⟨3,4⟩ registered (show ¬ Packet.Chained ⟨[7],1,[]⟩ by decide) (by decide)).2.1
  obtain ⟨t,there,⟨block,last,-⟩,-⟩ := sound _ (ending ▸ List.mem_singleton_self _)
  obtain rfl : ⟨⟨1,2⟩,[]⟩ = t := Option.some.inj there
  contradiction

end Net2Modbus
