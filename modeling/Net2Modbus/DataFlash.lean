import Net2Modbus.InterruptMask

/-!
# Reading back what was written to the data flash

`FLASH_If_DataFlashWrite` goes through the words of its argument and of the flash in
steps of one word. `FLASH_If_DataFlashRead` goes through the flash in steps of four
words and stores every word at the same place, so that it reads back one word at most.
-/
namespace Net2Modbus

/-- The caller's buffer after `FLASH_If_DataFlashRead`: the pointer into it stays where it
    is. -/
def dataFlashReadBuffer (flashAddress : UInt32) (dataLength : Nat) (f : Flash) (buffer : List UInt32) : List UInt32 :=
  (List.range dataLength).foldl
    (fun buffer i =>
      if flashAddress ≤ userFlashEndAddress - 4 then buffer.set 0 (f.word (flashAddress + 16 * UInt32.ofNat i)) else buffer)
    buffer

/-- The array has room in flash from the address on. -/
def FitsFlash (flashAddress : UInt32) (data : List UInt32) : Prop := flashAddress.toNat + 4 * data.length ≤ 0x08040000

/-- What was written is read back, whatever the buffer held, and nothing else is programmed. -/
structure DataFlashKept (flashAddress : UInt32) (data : List UInt32) (f : Flash) : Prop where
  filled : ∀ buffer : List UInt32, buffer.length = data.length →
    dataFlashReadBuffer flashAddress data.length (flashIfDataFlashWrite flashAddress data f) buffer = data
  programmed : ∀ op ∈ dataFlashWriteOps flashAddress { f with irqEnabled := false } data,
    ∃ i < data.length, ∃ word, op.1 = .programWord (flashAddress + 4 * UInt32.ofNat i) word
  kept : ∀ a, (∀ i < data.length, a ≠ flashAddress + 4 * UInt32.ofNat i) →
    (flashIfDataFlashWrite flashAddress data f).word a = f.word a

section
variable {flashAddress : UInt32} {f : Flash}

theorem next_address (flashAddress : UInt32) (i : Nat) :
    flashAddress + 4 + 4 * UInt32.ofNat i = flashAddress + 4 * UInt32.ofNat (i + 1) := by
  rw [UInt32.ofNat_add,UInt32.mul_add,UInt32.add_assoc,UInt32.add_comm (4 * UInt32.ofNat i)]
  rfl
/-- The operations of the writer are programs of its words, each at its place. -/
theorem writeOps_programmed (data : List UInt32) (flashAddress : UInt32) (f : Flash) :
    ∀ op ∈ dataFlashWriteOps flashAddress f data,
      ∃ i < data.length, ∃ word, op.1 = .programWord (flashAddress + 4 * UInt32.ofNat i) word := by
  induction data generalizing flashAddress f with
  | nil => exact List.forall_mem_nil _
  | cons word rest ih =>
    rw [dataFlashWriteOps_cons]
    by_cases inside : flashAddress ≤ userFlashEndAddress - 4
    · rw [if_pos inside]
      refine List.forall_mem_cons.mpr ⟨⟨0,Nat.succ_pos _,word,?_⟩,?_⟩
      · simp
      · intro op member
        split at member
        · obtain ⟨i,small,other,same⟩ := ih _ _ op member
          refine ⟨i + 1,Nat.succ_lt_succ small,other,?_⟩
          rw [same,next_address]
        · exact absurd member List.not_mem_nil
    · rw [if_neg inside]
      exact List.forall_mem_nil _
theorem program_other {a : UInt32} (word : UInt32) (other : a ≠ flashAddress) :
    (flashProgramWord flashAddress word f).1.word a = f.word a := by
  unfold flashProgramWord
  dsimp only
  split
  · simp [other,next_word]
  · rw [next_word]
theorem writeLoop_kept (data : List UInt32) (flashAddress : UInt32) (f : Flash) {a : UInt32}
    (other : ∀ i < data.length, a ≠ flashAddress + 4 * UInt32.ofNat i) :
    (dataFlashWriteLoop flashAddress f data).word a = f.word a := by
  induction data generalizing flashAddress f with
  | nil => rfl
  | cons word rest ih =>
    have here : a ≠ flashAddress := by simpa using other 0 (Nat.succ_pos _)
    have later : ∀ i < rest.length, a ≠ flashAddress + 4 + 4 * UInt32.ofNat i := by
      intro i small
      rw [next_address]
      exact other (i + 1) (Nat.succ_lt_succ small)
    rw [dataFlashWriteLoop_cons]
    split
    · split
      · rw [ih _ _ later,program_other word here]
      · exact program_other word here
    · rfl

/-- The reader leaves everything behind the first word alone. -/
theorem readBuffer_cons (n : Nat) (first : UInt32) (rest : List UInt32) :
    dataFlashReadBuffer flashAddress n f (first :: rest) = (flashIfDataFlashRead flashAddress first n f).2 :: rest := by
  unfold dataFlashReadBuffer flashIfDataFlashRead
  dsimp only
  induction n with
  | zero => rfl
  | succ n ih =>
    rw [List.range_succ,List.foldl_append,List.foldl_append,ih]
    simp only [List.foldl_cons,List.foldl_nil]
    split <;> rfl

/-- The last word of flash is the only aligned one behind the limit of both functions. -/
theorem last_word_iff (aligned : flashAddress.toNat % 4 = 0) (fits : flashAddress.toNat + 4 ≤ 0x08040000) :
    flashAddress ≤ userFlashEndAddress - 4 ↔ flashAddress ≠ 0x0803FFFC := by
  have limit : (userFlashEndAddress - 4).toNat = 134479867 := rfl
  have last : (0x0803FFFC : UInt32).toNat = 134479868 := rfl
  rw [UInt32.le_iff_toNat_le,limit,ne_eq,← UInt32.toNat_inj,last]
  omega
end

/-- One word is written and read back. -/
theorem one_word_filled {flashAddress : UInt32} {f : Flash} (word : UInt32) (inside : flashAddress ≤ userFlashEndAddress - 4)
    (works : f.Works 1) {buffer : List UInt32} (length : buffer.length = 1) :
    dataFlashReadBuffer flashAddress 1 (flashIfDataFlashWrite flashAddress [word] f) buffer = [word] := by
  obtain ⟨old,rfl⟩ := List.length_eq_one_iff.mp length
  have complete : { f with irqEnabled := false }.next.2 = true := (@next_works { f with irqEnabled := false } 0 works).1
  have written : (flashIfDataFlashWrite flashAddress [word] f).word flashAddress = word := by
    simp [flashIfDataFlashWrite,dataFlashWriteLoop,inside,flashProgramWord,complete]
  rw [readBuffer_cons]
  simp [flashIfDataFlashRead,List.range_succ,inside,written]
theorem writer_kept (flashAddress : UInt32) (data : List UInt32) (f : Flash)
    (filled : ∀ buffer : List UInt32, buffer.length = data.length →
      dataFlashReadBuffer flashAddress data.length (flashIfDataFlashWrite flashAddress data f) buffer = data) :
    DataFlashKept flashAddress data f :=
  ⟨filled,writeOps_programmed data flashAddress _,fun _ other => writeLoop_kept data flashAddress _ other⟩
/-- A buffer that holds other words than those written keeps all but the first. -/
theorem filled_short {flashAddress : UInt32} {data : List UInt32} {f : Flash} (kept : DataFlashKept flashAddress data f) :
    data.length ≤ 1 := by
  cases data with
  | nil => exact Nat.zero_le 1
  | cons first rest =>
    have stale := kept.filled (first :: rest.map (· + 1)) (by simp)
    rw [readBuffer_cons] at stale
    obtain ⟨-,behind⟩ := List.cons.inj stale
    cases rest with
    | nil => exact Nat.le_refl 1
    | cons second rest =>
      have same : second + 1 = second := (List.cons.inj behind).1
      simp at same

/-- The array is read back as it was written exactly when it is empty or has one word that is not
    the last one of flash. -/
theorem data_flash_kept_iff (flashAddress : UInt32) (data : List UInt32) (f : Flash)
    (aligned : flashAddress.toNat % 4 = 0) (fits : FitsFlash flashAddress data) (works : f.Works data.length) :
    DataFlashKept flashAddress data f ↔
      data.length = 0 ∨ data.length = 1 ∧ flashAddress ≠ 0x0803FFFC := by
  constructor
  · intro kept
    have short := filled_short kept
    by_cases empty : data.length = 0
    · exact .inl empty
    · have one : data.length = 1 := by omega
      obtain ⟨word,rfl⟩ := List.length_eq_one_iff.mp one
      refine .inr ⟨rfl,?_⟩
      intro last
      have outside : ¬ flashAddress ≤ userFlashEndAddress - 4 := by
        rw [last]
        decide
      have stale := kept.filled [word + 1] rfl
      rw [readBuffer_cons] at stale
      simp [flashIfDataFlashRead,List.range_succ,outside] at stale
  · rintro (empty | ⟨one,last⟩)
    · obtain rfl := List.length_eq_zero_iff.mp empty
      refine writer_kept flashAddress [] f ?_
      intro buffer length
      rw [List.length_eq_zero_iff.mp length]
      rfl
    · obtain ⟨word,rfl⟩ := List.length_eq_one_iff.mp one
      have inside := (last_word_iff aligned fits).mpr last
      refine writer_kept flashAddress [word] f ?_
      intro buffer length
      exact one_word_filled word inside works length
theorem data_flash_kept_iff_one :
    DataFlashKept ipAddrFlash [0x0A000001] ⟨fun _ => blankWord,[],true⟩ :=
  (data_flash_kept_iff ipAddrFlash [0x0A000001] ⟨fun _ => blankWord,[],true⟩ (by decide) (by unfold FitsFlash; decide)
    (by simp [Flash.Works])).mpr (.inr ⟨rfl,by decide⟩)
/-- Two words: the buffer gets the blank word four words on, and its second place nothing. -/
theorem data_flash_fails :
    dataFlashReadBuffer ipAddrFlash 2 (flashIfDataFlashWrite ipAddrFlash [1,2] ⟨fun _ => blankWord,[],true⟩) [0,0] =
        [blankWord,0] ∧
      ¬ DataFlashKept ipAddrFlash [1,2] ⟨fun _ => blankWord,[],true⟩ := by
  constructor
  · decide
  · intro kept
    exact absurd (filled_short kept) (by decide)

end Net2Modbus
