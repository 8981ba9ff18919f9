import Net2Modbus.ConfigStore
import Net2Modbus.UserFlash

/-!
# The interrupt mask of the flash driver

Whether interrupts are enabled when a function of `flash_if.c` returns, and while its
operations run.
-/
namespace Net2Modbus

/-- What the flash is told to do. -/
inductive FlashOp
  | erasePage (page : UInt32)
  | programWord (address data : UInt32)
  deriving DecidableEq, Repr

def FlashOp.run : FlashOp → Flash → Flash × Bool
  | .erasePage page => flashErasePage page
  | .programWord address data => flashProgramWord address data

/-- The operations of the loop of `FLASH_If_DataFlashWrite`, each with whether interrupts
    are enabled when it runs. -/
def dataFlashWriteOps (flashAddress : UInt32) (f : Flash) : List UInt32 → List (FlashOp × Bool)
  | [] => []
  | data :: rest =>
    if flashAddress ≤ userFlashEndAddress - 4 then
      let (f',complete) := flashProgramWord flashAddress data f
      (.programWord flashAddress data,f.irqEnabled) :: if complete then dataFlashWriteOps (flashAddress + 4) f' rest else []
    else []
/-- The operations of `WriteIpToFlash`. -/
def writeIpToFlashOps (ptr : Block UInt32 4) (f : Flash) : List (FlashOp × Bool) :=
  let f := flashIfInit { f with irqEnabled := false }
  (.erasePage ipAddrFlash,f.irqEnabled) ::
    dataFlashWriteOps ipAddrFlash { (flashErasePage ipAddrFlash f).1 with irqEnabled := false } ptr.cells

/-- The functions of the driver with their arguments. -/
inductive FlashCall
  | init
  | erase (startSector : UInt32)
  | write (flashAddress : UInt32) (data : List UInt32)
  | dataFlashRead (flashAddress data : UInt32) (dataLength : Nat)
  | dataFlashWrite (flashAddress : UInt32) (data : List UInt32)
  | getIpFromFlash
  | writeIpToFlash (ptr : Block UInt32 4)
  deriving DecidableEq, Repr

def FlashCall.run (f : Flash) : FlashCall → Flash
  | .init => flashIfInit f
  | .erase startSector => (flashIfErase startSector f).1
  | .write flashAddress data => (flashIfWrite flashAddress data f).2
  | .dataFlashRead flashAddress data dataLength => (flashIfDataFlashRead flashAddress data dataLength f).1
  | .dataFlashWrite flashAddress data => flashIfDataFlashWrite flashAddress data f
  | .getIpFromFlash => (Net2Modbus.getIpFromFlash f).1
  | .writeIpToFlash ptr => Net2Modbus.writeIpToFlash ptr f
/-- The operations that interrupts are to be disabled for. -/
def FlashCall.sequence (f : Flash) : FlashCall → List (FlashOp × Bool)
  | .writeIpToFlash ptr => writeIpToFlashOps ptr f
  | _ => []

/-- Interrupts are enabled on return, and disabled in the sequence. -/
def FlashCall.Masked (f : Flash) (call : FlashCall) : Prop :=
  (call.run f).irqEnabled = true ∧ ∀ op ∈ call.sequence f, op.2 = false

/-- Every word has its place in flash, and is programmed. -/
def Flash.WritesAll (f : Flash) (flashAddress : UInt32) (data : List UInt32) : Prop :=
  (∀ i < data.length, flashAddress + 4 * UInt32.ofNat i ≤ userFlashEndAddress - 4) ∧ f.Works data.length
/-- A write ends early, the stored words are all there or their repair ends early, and
    `WriteIpToFlash` is not called. -/
def FlashCall.MaskKept (f : Flash) : FlashCall → Prop
  | .init | .erase _ | .write _ _ | .dataFlashRead _ _ _ => True
  | .dataFlashWrite flashAddress data => ¬ f.WritesAll flashAddress data
  | .getIpFromFlash => f.stored.blank → ¬ f.next.1.Works 4
  | .writeIpToFlash _ => False

section
variable {f : Flash} {flashAddress data : UInt32} {rest : List UInt32}

theorem works_succ {count : Nat} : f.Works (count + 1) ↔ f.next.2 = true ∧ f.next.1.Works count := by
  constructor
  · exact next_works
  · rintro ⟨now,later⟩
    unfold Flash.next at now later
    unfold Flash.Works at later ⊢
    cases outcomes : f.outcomes with
    | nil =>
      rw [List.take_nil]
      exact List.forall_mem_nil _
    | cons complete rest =>
      rw [outcomes] at now later
      rw [List.take_succ_cons]
      exact List.forall_mem_cons.mpr ⟨now,later⟩
theorem next_irqEnabled (f : Flash) : f.next.1.irqEnabled = f.irqEnabled := by
  unfold Flash.next
  split <;> rfl
theorem program_result : (flashProgramWord flashAddress data f).2 = f.next.2 := by
  unfold flashProgramWord
  cases result : f.next.2 <;> simp [result]
theorem program_irqEnabled : (flashProgramWord flashAddress data f).1.irqEnabled = f.irqEnabled := by
  unfold flashProgramWord
  dsimp only
  split <;> exact next_irqEnabled f
theorem program_outcomes : (flashProgramWord flashAddress data f).1.outcomes = f.next.1.outcomes := by
  unfold flashProgramWord
  dsimp only
  split <;> rfl
theorem erase_outcomes (page : UInt32) : (flashErasePage page f).1.outcomes = f.next.1.outcomes := by
  unfold flashErasePage
  dsimp only
  split <;> rfl

/-- The first word and the others. -/
theorem writesAll_cons :
    f.WritesAll flashAddress (data :: rest) ↔ flashAddress ≤ userFlashEndAddress - 4 ∧
      (flashProgramWord flashAddress data f).2 = true ∧
      (flashProgramWord flashAddress data f).1.WritesAll (flashAddress + 4) rest := by
  have shifted : ∀ i, flashAddress + 4 + 4 * UInt32.ofNat i = flashAddress + 4 * UInt32.ofNat (i + 1) := by
    intro i
    rw [UInt32.ofNat_add,UInt32.mul_add,UInt32.add_assoc,UInt32.add_comm (4 * UInt32.ofNat i)]
    rfl
  have works : (flashProgramWord flashAddress data f).1.Works rest.length ↔ f.next.1.Works rest.length := by
    rw [Flash.Works,Flash.Works,program_outcomes]
  rw [Flash.WritesAll,Flash.WritesAll,works,program_result,List.length_cons,works_succ]
  constructor
  · rintro ⟨inside,now,later⟩
    refine ⟨by simpa using inside 0 (Nat.succ_pos _),now,?_,later⟩
    intro i small
    rw [shifted]
    exact inside (i + 1) (Nat.succ_lt_succ small)
  · rintro ⟨here,now,inside,later⟩
    refine ⟨?_,now,later⟩
    intro i small
    cases i with
    | zero => simpa using here
    | succ i =>
      rw [← shifted]
      exact inside i (Nat.lt_of_succ_lt_succ small)
theorem dataFlashWriteLoop_cons :
    dataFlashWriteLoop flashAddress f (data :: rest) =
      if flashAddress ≤ userFlashEndAddress - 4 then
        if (flashProgramWord flashAddress data f).2 then
          dataFlashWriteLoop (flashAddress + 4) (flashProgramWord flashAddress data f).1 rest
        else { (flashProgramWord flashAddress data f).1 with irqEnabled := true }
      else { f with irqEnabled := true } := rfl
/-- The loop leaves interrupts disabled when it reaches its end. -/
theorem dataFlashWriteLoop_irqEnabled (data : List UInt32) (flashAddress : UInt32) (f : Flash) (off : f.irqEnabled = false) :
    (dataFlashWriteLoop flashAddress f data).irqEnabled = true ↔ ¬ f.WritesAll flashAddress data := by
  induction data generalizing flashAddress f with
  | nil =>
    have all : f.WritesAll flashAddress [] := ⟨fun _ small => absurd small (Nat.not_lt_zero _),by simp [Flash.Works]⟩
    simp [dataFlashWriteLoop,off,all]
  | cons data rest ih =>
    rw [writesAll_cons,dataFlashWriteLoop_cons]
    split
    next inside =>
      split
      next complete =>
        rw [ih _ _ (program_irqEnabled.trans off)]
        simp [inside,complete]
      next failed => simp [failed]
    next outside => simp [outside]
theorem flashIfDataFlashWrite_irqEnabled (data : List UInt32) :
    (flashIfDataFlashWrite flashAddress data f).irqEnabled = true ↔ ¬ f.WritesAll flashAddress data :=
  dataFlashWriteLoop_irqEnabled data flashAddress { f with irqEnabled := false } rfl

theorem dataFlashWriteOps_cons :
    dataFlashWriteOps flashAddress f (data :: rest) =
      if flashAddress ≤ userFlashEndAddress - 4 then
        (.programWord flashAddress data,f.irqEnabled) :: if (flashProgramWord flashAddress data f).2 then
          dataFlashWriteOps (flashAddress + 4) (flashProgramWord flashAddress data f).1 rest else []
      else [] := rfl
/-- The programs of a write run with interrupts disabled. -/
theorem dataFlashWriteOps_disabled (data : List UInt32) (flashAddress : UInt32) (f : Flash) (off : f.irqEnabled = false) :
    ∀ op ∈ dataFlashWriteOps flashAddress f data, op.2 = false := by
  induction data generalizing flashAddress f with
  | nil => exact List.forall_mem_nil _
  | cons data rest ih =>
    rw [dataFlashWriteOps_cons]
    split
    · refine List.forall_mem_cons.mpr ⟨off,?_⟩
      split
      · exact ih _ _ (program_irqEnabled.trans off)
      · exact List.forall_mem_nil _
    · exact List.forall_mem_nil _
/-- The operations of `WriteIpToFlash` that run with interrupts enabled. -/
theorem writeIpToFlashOps_enabled (ptr : Block UInt32 4) (f : Flash) :
    (writeIpToFlashOps ptr f).filter (·.2) = [(.erasePage ipAddrFlash,true)] := by
  have programs := dataFlashWriteOps_disabled ptr.cells ipAddrFlash
    { (flashErasePage ipAddrFlash (flashIfInit { f with irqEnabled := false })).1 with irqEnabled := false } rfl
  rw [writeIpToFlashOps,List.filter_cons_of_pos rfl,List.filter_eq_nil_iff.mpr]
  · rfl
  · intro op member
    rw [programs op member]
    exact Bool.false_ne_true

/-- The same flash but for the interrupts. -/
def Flash.Same (f g : Flash) : Prop := f.word = g.word ∧ f.outcomes = g.outcomes

theorem FlashOp.run_same {f g : Flash} (same : f.Same g) (op : FlashOp) :
    (op.run f).1.Same (op.run g).1 ∧ (op.run f).2 = (op.run g).2 := by
  obtain ⟨word,outcomes,irq⟩ := f
  obtain ⟨word',outcomes',irq'⟩ := g
  obtain ⟨rfl,rfl⟩ := same
  cases op <;> rcases outcomes with _ | ⟨_ | _,rest⟩ <;> exact ⟨⟨rfl,rfl⟩,rfl⟩
/-- The operations one after the other do what the loop does. -/
theorem dataFlashWriteOps_replay (data : List UInt32) (flashAddress : UInt32) {f g : Flash} (same : f.Same g) :
    ((dataFlashWriteOps flashAddress f data).foldl (fun g op => (op.1.run g).1) g).Same
      (dataFlashWriteLoop flashAddress f data) := by
  induction data generalizing flashAddress f g with
  | nil => exact ⟨same.1.symm,same.2.symm⟩
  | cons data rest ih =>
    have run := (FlashOp.run_same same (.programWord flashAddress data)).1
    rw [dataFlashWriteOps_cons,dataFlashWriteLoop_cons]
    split
    · split
      · exact ih _ run
      · exact ⟨run.1.symm,run.2.symm⟩
    · exact ⟨same.1.symm,same.2.symm⟩
theorem writeIpToFlashOps_replay (ptr : Block UInt32 4) (f : Flash) :
    ((writeIpToFlashOps ptr f).foldl (fun g op => (op.1.run g).1) f).Same (writeIpToFlash ptr f) := by
  have erased := (FlashOp.run_same (f := flashIfInit { f with irqEnabled := false }) (g := f) ⟨rfl,rfl⟩ (.erasePage ipAddrFlash)).1
  exact dataFlashWriteOps_replay ptr.cells ipAddrFlash erased

/-- The repair of the stored words. -/
theorem repair_writesAll (f : Flash) (words : Block UInt32 4) :
    (flashErasePage ipAddrFlash { f with irqEnabled := true }).1.WritesAll ipAddrFlash words.cells ↔ f.next.1.Works 4 := by
  have inside : ∀ i < 4, ipAddrFlash + 4 * UInt32.ofNat i ≤ userFlashEndAddress - 4 := by decide
  have outcomes : (flashErasePage ipAddrFlash { f with irqEnabled := true }).1.outcomes = f.next.1.outcomes := by
    rw [erase_outcomes]
    unfold Flash.next
    split <;> simp_all
  rw [Flash.WritesAll,words.cells_length,Flash.Works,Flash.Works,outcomes]
  exact and_iff_right inside
theorem getIpFromFlash_irqEnabled (f : Flash) :
    (getIpFromFlash f).1.irqEnabled = true ↔ (f.stored.blank → ¬ f.next.1.Works 4) := by
  rw [getIpFromFlash_eq]
  split
  next blank => rw [flashIfDataFlashWrite_irqEnabled,repair_writesAll,forall_prop_of_true blank]
  next present => simp [present]

/-- A call keeps the discipline exactly when it is not a write of the data flash that stores
    all its words, not a read of the stored words that repairs them all, and not
    `WriteIpToFlash`. -/
theorem interrupt_mask (f : Flash) (call : FlashCall) : call.Masked f ↔ call.MaskKept f := by
  unfold FlashCall.Masked
  cases call with
  | writeIpToFlash ptr =>
    refine iff_of_false ?_ id
    rintro ⟨-,masked⟩
    have erased : (FlashOp.erasePage ipAddrFlash,true) ∈ (writeIpToFlashOps ptr f).filter (·.2) := by
      rw [writeIpToFlashOps_enabled]
      exact List.mem_singleton_self _
    exact absurd (masked _ (List.mem_filter.mp erased).1) Bool.false_ne_true.symm
  | dataFlashWrite flashAddress data =>
    exact (and_iff_left (List.forall_mem_nil _)).trans (flashIfDataFlashWrite_irqEnabled data)
  | getIpFromFlash => exact (and_iff_left (List.forall_mem_nil _)).trans (getIpFromFlash_irqEnabled f)
  | _ => exact iff_of_true ⟨rfl,List.forall_mem_nil _⟩ trivial
/-- A write that completes, the repair of an empty page, and a new configuration. -/
theorem interrupt_mask_fails :
    let f : Flash := ⟨fun _ => blankWord,[],true⟩
    ¬ (FlashCall.dataFlashWrite ipAddrFlash [1,2,3,4]).Masked f ∧ ¬ FlashCall.getIpFromFlash.Masked f ∧
      ¬ (FlashCall.writeIpToFlash ⟨[1,2,3,4],rfl⟩).Masked f := by
  refine ⟨?_,?_,?_⟩
  · intro masked
    exact Bool.false_ne_true masked.1
  · intro masked
    exact Bool.false_ne_true masked.1
  · intro masked
    exact Bool.false_ne_true.symm (masked.2 _ List.mem_cons_self)

end

end Net2Modbus
