import Net2Modbus.ConfigStore
import Net2Modbus.FirmwareImage

/-!
# The page of the configuration

The erased pages end below the page of the configuration, and the write limit lies inside
it: an update leaves the four words alone as long as its blocks end below them.
-/
namespace Net2Modbus

/-- The words of the configuration stand in four words of the user flash. -/
theorem stored_same {f f' : Flash} (same : ∀ i, configWord ≤ i → i < configWord + 4 → f'.userWord i = f.userWord i) :
    f'.stored = f.stored := by
  obtain ⟨ip,port,mode,channel⟩ := config_addresses
  have h0 := same configWord (by omega) (by omega)
  have h1 := same (configWord + 1) (by omega) (by omega)
  have h2 := same (configWord + 2) (by omega) (by omega)
  have h3 := same (configWord + 3) (by omega) (by omega)
  unfold Flash.userWord at h0 h1 h2 h3
  rw [Flash.stored,Flash.stored,ip,port,mode,channel,h0,h1,h2,h3]

/-- A block with data is written below the words of the configuration. -/
def ConfigClear (s : IapServer) : IapInput → Prop
  | .request _ _ _ => True
  | .data _ pcb _ p =>
    ∀ args ∈ s.args pcb, ¬ p.Chained → args.Next p →
      s.flashWriteAddress.toNat + 4 * wordCount (p.bytes.length - 4) ≤ ipAddrFlash.toNat

instance (s : IapServer) (i : IapInput) : Decidable (ConfigClear s i) :=
  match i with
  | .request _ _ _ => isTrue trivial
  | .data _ _ _ _ => inferInstanceAs (Decidable (∀ _ ∈ _, _ → _ → _))

/-- Until the jump the four words are what they were, also whenever a transfer ends. -/
def ConfigKept (config : Config) (s : IapServer) (past : List IapEvent) : Prop :=
  (s.jumped = false → s.flash.stored = config) ∧ ∀ e ∈ endings past, e.2.stored = config

/-- An accepted block leaves the four words alone. -/
theorem iapAccepted_config {s : IapServer} {env : IapEnv} {pcb : Nat} {addr : Peer} {p : Packet} {args : IapArgs}
    (addressed : Addressed s) (registered : s.args pcb = some args) (single : ¬ p.Chained)
    (clear : ConfigClear s (.data env pcb addr p)) : (iapAccepted env args p s).1.flash.stored = s.flash.stored := by
  obtain ⟨first,small,address⟩ := addressed.registered registered
  by_cases next : args.Next p
  · have limit := clear args registered single next
    obtain ⟨count,few,inside,behind,wrote,-⟩ := iapAccept_wrote env (s.withOutcomes env.outcomes) next address small
    refine stored_same ?_
    intro i after before
    unfold userWords configWord at *
    have top : ipAddrFlash.toNat = 134477824 := rfl
    rw [address,userAddress_toNat (by omega),top] at limit
    rw [iapAccepted,wrote i (by omega),if_neg]
    · rfl
    · rw [List.length_take]
      omega
  · rw [iapAccepted,iapAccept_of_not_next next]
    rfl
/-- One input of a run. -/
theorem config_step {config : Config} {s : IapServer} {i : IapInput} (addressed : Addressed s)
    (state : s.jumped = false → s.flash.stored = config) (now : iap.enabled s i) (clear : ConfigClear s i) :
    ((iap.step s i).1.jumped = false → (iap.step s i).1.flash.stored = config) ∧
      ∀ e ∈ endings (iap.step s i).2, e.2.stored = config := by
  cases i with
  | request env addr p =>
    have stored := state now.1
    by_cases opens : Opens env p
    · obtain ⟨after,endless,-⟩ := iapStep_opens addr s opens
      simp only [iap,endless,after]
      refine ⟨?_,List.forall_mem_nil _⟩
      intro _
      rw [← stored]
      refine stored_same ?_
      intro i behind before
      exact flashIfErase_behind behind (by unfold configWord at before; omega) _ _
    · obtain ⟨after,endless,-⟩ := iapStep_refuses addr s opens
      simp only [iap,endless,after]
      exact ⟨fun _ => stored,List.forall_mem_nil _⟩
  | data env pcb addr p =>
    have stored := state now.1
    obtain ⟨args,registered⟩ := Option.isSome_iff_exists.mp now.2.1
    by_cases chained : p.Chained
    · simp only [iap,iapStep_chained registered chained]
      exact ⟨fun _ => stored,List.forall_mem_nil _⟩
    · have kept := iapAccepted_config addressed registered chained clear
      by_cases short : p.bytes.length < tftpDataPktLenMax
      · obtain ⟨-,ending,-⟩ := iapStep_short env addr registered chained short
        simp only [iap,ending,List.forall_mem_singleton]
        refine ⟨?_,kept.trans stored⟩
        intro running
        rcases iapStep_short_state env addr registered chained short with after | jumped
        · rw [after]
          exact kept.trans stored
        · rw [jumped] at running
          contradiction
      · obtain ⟨after,endless,-⟩ := iapStep_full env addr registered chained short
        simp only [iap,endless,after]
        exact ⟨fun _ => kept.trans stored,List.forall_mem_nil _⟩

/-- In a run whose blocks end below the page of the configuration, the four words are left
    alone by every transfer. -/
theorem config_page (flash : Flash) (inputs : List IapInput) (admissible : iap.Admissible (iapStarted flash) inputs)
    (clear : iap.Each ConfigClear (iapStarted flash) inputs) :
    iap.Throughout (ConfigKept (iapStarted flash).flash.stored) (iapStarted flash) [] inputs := by
  have both := Machine.each_and.mpr ⟨admissible,clear⟩
  have start : ConfigKept (iapStarted flash).flash.stored (iapStarted flash) [] := ⟨fun _ => rfl,List.forall_mem_nil _⟩
  refine (Machine.throughout_run
    (R := fun s past => Addressed s ∧ ConfigKept (iapStarted flash).flash.stored s past)
    (fun s past i state now => ?_) ⟨iapStarted_addressed flash,start⟩ both).mono ?_
  · obtain ⟨addressed,kept⟩ := state
    obtain ⟨next,more⟩ := config_step addressed kept.1 now.1 now.2
    refine ⟨addressed_step addressed i,next,?_⟩
    rw [endings,List.filterMap_append,List.forall_mem_append]
    exact ⟨kept.2,more⟩
  · intro s past state
    exact state.2
/-- Two transfers, of which the first is not finished. -/
theorem config_page_two_transfers :
    iap.Throughout (ConfigKept (iapStarted ⟨fun _ => blankWord,[],true⟩).flash.stored)
      (iapStarted ⟨fun _ => blankWord,[],true⟩) []
      [.request .plain ⟨1,2⟩ ⟨[0,2],2,[]⟩,.request .plain ⟨1,2⟩ ⟨[0,2],2,[]⟩,
        .data .plain 1 ⟨1,2⟩ ⟨[0,3,0,1,1,2,3,4,5],9,[]⟩] :=
  config_page ⟨fun _ => blankWord,[],true⟩
    [.request .plain ⟨1,2⟩ ⟨[0,2],2,[]⟩,.request .plain ⟨1,2⟩ ⟨[0,2],2,[]⟩,
      .data .plain 1 ⟨1,2⟩ ⟨[0,3,0,1,1,2,3,4,5],9,[]⟩]
    (by decide) (by decide)

/-- The first blocks of a file, each of which arrives once. -/
def frontInputs (file : List UInt8) (peer : Peer) (n : Nat) : List IapInput :=
  (List.range n).map fun k => .data .plain 0 peer (dataPacket file (k + 1))

/-- The transfer that has taken some blocks. -/
structure AtBlock (s : IapServer) (n : Nat) : Prop where
  running : s.jumped = false
  registered : ∃ args, s.args 0 = some args ∧ args.block = n
  address : s.flashWriteAddress = userAddress (128 * n)

theorem AtBlock.next {s : IapServer} {file : List UInt8} (peer : Peer) {n : Nat} (state : AtBlock s n)
    (more : n < file.length / 512) (fits : 128 * (n + 1) ≤ userWords) :
    iap.enabled s (.data .plain 0 peer (dataPacket file (n + 1))) ∧
      AtBlock (iap.step s (.data .plain 0 peer (dataPacket file (n + 1)))).1 (n + 1) := by
  obtain ⟨args,registered,block⟩ := state.registered
  have length := chunk_length 512 file n more
  have size : (dataPacket file (n + 1)).bytes.length = 516 := by rw [dataPacket_length,length]
  have next : args.Next (dataPacket file (n + 1)) := by
    unfold userWords at fits
    rw [IapArgs.Next,dataPacket_block,block,Nat.mod_eq_of_lt (by omega)]
  have words : wordCount ((dataPacket file (n + 1)).bytes.length - 4) = 128 := by
    rw [size]
    rfl
  obtain ⟨address,-⟩ := iapAccept_next .plain (s.withOutcomes []) next state.address
    (works_of_complete (List.forall_mem_nil _) _) (by rw [words]; exact fits)
  obtain ⟨kept,running,-,count⟩ := iapAccept_frame .plain (dataPacket file (n + 1)) (s.withOutcomes []) args
  obtain ⟨after,-,-⟩ := iapStep_full .plain peer registered (dataPacket_single file (n + 1))
    (by rw [size]; decide)
  rw [if_pos next,block] at count
  rw [words] at address
  refine ⟨⟨state.running,by rw [registered]; rfl,Nat.le_refl _,?_⟩,?_⟩
  · show (dataPacket file (n + 1)).bytes.length < 65536
    rw [size]
    decide
  · rw [show (iap.step s _).1 = _ from after]
    exact ⟨running.trans state.running,⟨_,args_set _ registered (congrArg (fun l => List.set l 0 (some _)) kept),count⟩,address⟩
theorem frontInputs_run {s : IapServer} (file : List UInt8) (peer : Peer) (n : Nat) (state : AtBlock s 0)
    (more : n ≤ file.length / 512) (fits : 128 * n ≤ userWords) :
    iap.Admissible s (frontInputs file peer n) ∧ AtBlock (iap.after s (frontInputs file peer n)) n := by
  induction n with
  | zero => exact ⟨trivial,state⟩
  | succ n ih =>
    obtain ⟨admissible,front⟩ := ih (Nat.le_of_succ_le more) (by omega)
    obtain ⟨enabled,next⟩ := front.next peer more fits
    have grown : frontInputs file peer (n + 1) = frontInputs file peer n ++
        [IapInput.data .plain 0 peer (dataPacket file (n + 1))] := by
      simp [frontInputs,List.range_succ]
    rw [grown,Machine.Admissible,Machine.each_append,Machine.after_append]
    exact ⟨⟨admissible,enabled,trivial⟩,next⟩
/-- Block 381 reaches the first word of the configuration. -/
theorem AtBlock.page {s : IapServer} {file : List UInt8} (peer : Peer) (state : AtBlock s 380)
    (zeros : chunk 512 file 381 = [0,0,0,0]) :
    iap.enabled s (.data .plain 0 peer (dataPacket file 381)) ∧
      ∃ f, endings (iap.step s (.data .plain 0 peer (dataPacket file 381))).2 = [(0,f)] ∧ f.stored.ip = 0 := by
  obtain ⟨args,registered,block⟩ := state.registered
  have size : (dataPacket file 381).bytes.length = 8 := by rw [dataPacket_length,zeros]; rfl
  have next : args.Next (dataPacket file 381) := by rw [IapArgs.Next,dataPacket_block,block]
  have words : blockWords .plain (dataPacket file 381) = [0] := by
    rw [blockWords,size]
    show wordsOf (chunk 512 file 381 ++ _) _ = _
    rw [zeros]
    rfl
  obtain ⟨count,-,-,-,wrote,complete⟩ := iapAccept_wrote .plain (s.withOutcomes []) next state.address (by decide)
  rw [size] at complete
  have one : count = 1 := complete (works_of_complete (List.forall_mem_nil _) _) (by decide)
  rw [words,one] at wrote
  obtain ⟨-,ending,-⟩ := iapStep_short .plain peer registered (dataPacket_single file 381) (by rw [size]; decide)
  refine ⟨⟨state.running,by rw [registered]; rfl,Nat.le_refl _,?_⟩,_,ending,?_⟩
  · show (dataPacket file 381).bytes.length < 65536
    rw [size]
    decide
  · exact (wrote configWord (by decide)).trans rfl
/-- An image of 194564 zero bytes. -/
theorem config_page_fails :
    let inputs : List IapInput := .request .plain ⟨1,2⟩ ⟨[0,2],2,[]⟩ ::
      (frontInputs (List.replicate 194564 0) ⟨1,2⟩ 380 ++
        [.data .plain 0 ⟨1,2⟩ (dataPacket (List.replicate 194564 0) 381)])
    iap.Admissible (iapStarted ⟨fun _ => blankWord,[],true⟩) inputs ∧
      ¬ iap.Throughout (ConfigKept (iapStarted ⟨fun _ => blankWord,[],true⟩).flash.stored)
        (iapStarted ⟨fun _ => blankWord,[],true⟩) [] inputs := by
  have length : (List.replicate 194564 (0 : UInt8)).length = 194564 := List.length_replicate
  have zeros : chunk 512 (List.replicate 194564 (0 : UInt8)) 381 = [0,0,0,0] := by
    rw [chunk,List.drop_replicate,List.take_replicate]
    rfl
  generalize List.replicate 194564 (0 : UInt8) = file at length zeros
  have start : AtBlock (iap.step (iapStarted ⟨fun _ => blankWord,[],true⟩) (.request .plain ⟨1,2⟩ ⟨[0,2],2,[]⟩)).1 0 :=
    ⟨rfl,⟨⟨⟨1,2⟩,0,0⟩,rfl,rfl⟩,rfl⟩
  obtain ⟨admissible,front⟩ := frontInputs_run file ⟨1,2⟩ 380 start (by omega) (by decide)
  obtain ⟨enabled,flash,ending,ip⟩ := front.page ⟨1,2⟩ zeros
  refine ⟨⟨by decide,Machine.each_append.mpr ⟨admissible,enabled,trivial⟩⟩,?_⟩
  intro holds
  have found := holds.last.2 (0,flash) ?_
  · have first : (iapStarted ⟨fun _ => blankWord,[],true⟩).flash.stored.ip = 0x7B3B60E9 := rfl
    have same : (0 : UInt32) = 0x7B3B60E9 := ip.symm.trans ((congrArg Config.ip found).trans first)
    exact absurd same (by decide)
  · rw [Machine.trace_cons,Machine.trace_append,List.nil_append,endings,List.filterMap_append,List.filterMap_append]
    refine List.mem_append_right _ (List.mem_append_right _ ?_)
    rw [Machine.trace_cons,Machine.trace_nil,List.append_nil]
    rw [show List.filterMap IapEvent.ending _ = [(0,flash)] from ending]
    exact List.mem_singleton_self _

end Net2Modbus
