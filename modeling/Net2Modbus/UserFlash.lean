import Net2Modbus.Client
import Net2Modbus.IapServer

/-!
# The user flash by words and bytes

The words and bytes of the flash counted from `Flash_First_Page_Address`, and what
`FLASH_If_Write` and `FLASH_If_Erase` do to them.
-/
namespace Net2Modbus

/-- The address of a word of the user flash. -/
def userAddress (i : Nat) : UInt32 := flashFirstPageAddress + UInt32.ofNat (4 * i)
def Flash.userWord (f : Flash) (i : Nat) : UInt32 := f.word (userAddress i)
/-- A byte of the user flash, the lowest of a word first. -/
def Flash.userByte (f : Flash) (k : Nat) : UInt8 := byteOf (f.userWord (k / 4)) (UInt32.ofNat (8 * (k % 4)))
/-- The bytes from the start of the user flash. -/
def Flash.image (f : Flash) (size : Nat) : List UInt8 := (List.range size).map f.userByte

/-- The next operations complete, as many as a count says. -/
def Flash.Works (f : Flash) (count : Nat) : Prop := ∀ complete ∈ f.outcomes.take count, complete = true

/-- The words below the write limit of `FLASH_If_Write`. -/
def userWords : Nat := 49151
/-- The first of the four words of the configuration. -/
def configWord : Nat := 48640

theorem userAddress_toNat {i : Nat} (small : i < 1048576) : (userAddress i).toNat = 134283264 + 4 * i := by
  simp only [userAddress,flashFirstPageAddress,UInt32.toNat_add,UInt32.toNat_ofNat']
  simp
  omega
theorem userAddress_inj {i j : Nat} (left : i < 1048576) (right : j < 1048576) :
    userAddress i = userAddress j ↔ i = j := by
  rw [← UInt32.toNat_inj,userAddress_toNat left,userAddress_toNat right]
  omega
theorem userAddress_succ (i : Nat) : userAddress i + 4 = userAddress (i + 1) := by
  rw [userAddress,userAddress,Nat.mul_succ,UInt32.ofNat_add,← UInt32.add_assoc]
  rfl
/-- The write limit, counted in words. -/
theorem userAddress_le {i : Nat} (small : i < 1048576) :
    userAddress i ≤ userFlashEndAddress - 4 ↔ i < userWords := by
  rw [UInt32.le_iff_toNat_le,userAddress_toNat small]
  have limit : (userFlashEndAddress - 4).toNat = 134479867 := rfl
  rw [limit,userWords]
  omega
theorem config_addresses : ipAddrFlash = userAddress configWord ∧ ipPortFlash = userAddress (configWord + 1) ∧
    iapModeFlageFlash = userAddress (configWord + 2) ∧ rfChannelFlageFlash = userAddress (configWord + 3) := by
  decide

theorem works_of_complete {f : Flash} (complete : ∀ c ∈ f.outcomes, c = true) (count : Nat) : f.Works count :=
  fun c member => complete c (List.mem_of_mem_take member)
theorem next_works {f : Flash} {count : Nat} (works : f.Works (count + 1)) : f.next.2 = true ∧ f.next.1.Works count := by
  unfold Flash.next
  unfold Flash.Works at works
  cases outcomes : f.outcomes with
  | nil =>
    refine ⟨rfl,?_⟩
    rw [Flash.Works,outcomes,List.take_nil]
    exact List.forall_mem_nil _
  | cons complete rest =>
    rw [outcomes,List.take_succ_cons] at works
    exact List.forall_mem_cons.mp works
theorem next_word (f : Flash) : f.next.1.word = f.word := by
  unfold Flash.next
  split <;> rfl
/-- A word is programmed, or nothing happens. -/
theorem program_cases (i : Nat) (data : UInt32) (f : Flash) :
    (f.next.2 = true ∧ (flashProgramWord (userAddress i) data f).2 = true ∧
      (flashProgramWord (userAddress i) data f).1.outcomes = f.next.1.outcomes ∧
      ∀ j, i < 1048576 → j < 1048576 →
        (flashProgramWord (userAddress i) data f).1.userWord j = if j = i then data else f.userWord j) ∨
    (f.next.2 = false ∧ (flashProgramWord (userAddress i) data f).2 = false ∧
      (flashProgramWord (userAddress i) data f).1.word = f.word) := by
  cases result : f.next.2 with
  | true =>
    refine .inl ⟨rfl,?_,?_,?_⟩
    · simp [flashProgramWord,result]
    · simp [flashProgramWord,result]
    · intro j left right
      simp [flashProgramWord,result,Flash.userWord,userAddress_inj right left,next_word]
  | false =>
    refine .inr ⟨rfl,?_,?_⟩
    · simp [flashProgramWord,result]
    · simp [flashProgramWord,result,next_word]

/-- The words that stand in the user flash after some of a list have been written. -/
def Flash.Wrote (f f' : Flash) (first : Nat) (data : List UInt32) : Prop :=
  ∀ j < 1048576, f'.userWord j = if first ≤ j ∧ j < first + data.length then data.getD (j - first) 0 else f.userWord j

theorem Flash.Wrote.nil (f : Flash) (first : Nat) : f.Wrote f first [] := by
  intro j _
  rw [if_neg (by simp)]
theorem Flash.Wrote.cons {f f' f'' : Flash} {first : Nat} {word : UInt32} {data : List UInt32}
    (now : ∀ j < 1048576, f'.userWord j = if j = first then word else f.userWord j)
    (later : f'.Wrote f'' (first + 1) data) : f.Wrote f'' first (word :: data) := by
  intro j small
  rw [later j small,now j small]
  by_cases here : j = first
  · subst here
    rw [if_neg (by omega),if_pos rfl,if_pos (by simp),Nat.sub_self]
    rfl
  · by_cases behind : first + 1 ≤ j ∧ j < first + 1 + data.length
    · obtain ⟨k,rfl⟩ : ∃ k, j = first + 1 + k := ⟨j - (first + 1),by omega⟩
      have inside : first ≤ first + 1 + k ∧ first + 1 + k < first + (word :: data).length := by
        simp only [List.length_cons]
        omega
      have rest : first + 1 + k - first = k + 1 := by omega
      rw [if_pos behind,if_pos inside,rest,Nat.add_sub_cancel_left]
      rfl
    · have outside : ¬ (first ≤ j ∧ j < first + (word :: data).length) := by
        simp only [List.length_cons]
        omega
      rw [if_neg behind,if_neg here,if_neg outside]

/-- The loop writes some words from the front of the list and goes on to the address
    behind them. -/
theorem writeLoop_wrote (data : List UInt32) (first : Nat) (small : first ≤ userWords) (f : Flash) :
    ∃ count ≤ data.length, first + count ≤ userWords ∧
      (writeLoop (userAddress first) f data).1 = userAddress (first + count) ∧
      f.Wrote (writeLoop (userAddress first) f data).2 first (data.take count) ∧
      (f.Works data.length → first + data.length ≤ userWords → count = data.length) := by
  induction data generalizing first f with
  | nil => exact ⟨0,Nat.le_refl 0,small,rfl,.nil f first,fun _ _ => rfl⟩
  | cons word rest ih =>
    have bound : first < 1048576 := by
      unfold userWords at small
      omega
    by_cases room : first < userWords
    · have limit := (userAddress_le bound).mpr room
      rcases program_cases first word f with ⟨next,complete,outcomes,wrote⟩ | ⟨next,complete,same⟩
      · obtain ⟨count,le,inside,address,later,works⟩ := ih (first + 1) room (flashProgramWord (userAddress first) word f).1
        have step : writeLoop (userAddress first) f (word :: rest) =
            writeLoop (userAddress (first + 1)) (flashProgramWord (userAddress first) word f).1 rest := by
          simp only [writeLoop,if_pos limit,complete,if_true,userAddress_succ]
        refine ⟨count + 1,Nat.succ_le_succ le,by omega,?_,?_,?_⟩
        · rw [step,address,Nat.add_assoc,Nat.add_comm 1 count]
        · rw [step,List.take_succ_cons]
          exact .cons (fun j inside => wrote j bound inside) later
        · intro good fits
          rw [List.length_cons] at fits
          have still : (flashProgramWord (userAddress first) word f).1.Works rest.length := by
            rw [Flash.Works,outcomes]
            exact (next_works good).2
          rw [List.length_cons,works still (by omega)]
      · have stop : writeLoop (userAddress first) f (word :: rest) =
            (userAddress first,(flashProgramWord (userAddress first) word f).1) := by
          simp only [writeLoop,if_pos limit,complete,Bool.false_eq_true,if_false]
        refine ⟨0,Nat.zero_le _,small,?_,?_,?_⟩
        · rw [stop,Nat.add_zero]
        · rw [stop]
          intro j _
          rw [if_neg (by simp),Flash.userWord,Flash.userWord,same]
        · intro good
          rw [(next_works good).1] at next
          contradiction
    · have limit : ¬ userAddress first ≤ userFlashEndAddress - 4 := fun le => room ((userAddress_le bound).mp le)
      have stop : writeLoop (userAddress first) f (word :: rest) = (userAddress first,f) := by
        simp only [writeLoop,if_neg limit]
      refine ⟨0,Nat.zero_le _,small,?_,?_,?_⟩
      · rw [stop,Nat.add_zero]
      · rw [stop]
        exact .nil f first
      · intro _ fits
        rw [List.length_cons] at fits
        omega

/-- `FLASH_If_Write` writes some words from the front and moves the address behind them. -/
theorem flashIfWrite_wrote (data : List UInt32) (first : Nat) (small : first ≤ userWords) (f : Flash) :
    ∃ count ≤ data.length, first + count ≤ userWords ∧
      (flashIfWrite (userAddress first) data f).1 = userAddress (first + count) ∧
      f.Wrote (flashIfWrite (userAddress first) data f).2 first (data.take count) ∧
      (f.Works data.length → first + data.length ≤ userWords → count = data.length) :=
  writeLoop_wrote data first small { f with irqEnabled := false }

/-- A page that is erased leaves the words behind it alone. -/
theorem erase_behind {page : UInt32} (below : page ≤ userFlashLastPageAddress) {i : Nat} (behind : configWord ≤ i)
    (small : i < 1048576) (f : Flash) : (flashErasePage page f).1.userWord i = f.userWord i := by
  have outside : ¬ (page ≤ userAddress i ∧ userAddress i < page + flashPageSize) := by
    rintro ⟨-,less⟩
    have last : userFlashLastPageAddress.toNat = 134475776 := rfl
    have size : flashPageSize.toNat = 2048 := rfl
    rw [UInt32.le_iff_toNat_le,last] at below
    rw [UInt32.lt_iff_toNat_lt,UInt32.toNat_add,size,userAddress_toNat small,Nat.mod_eq_of_lt (by omega)] at less
    unfold configWord at behind
    omega
  unfold flashErasePage
  rcases result : f.next with ⟨g,complete⟩
  have same : g.word = f.word := by rw [← next_word f,result]
  cases complete with
  | true => simp only [if_true,Flash.userWord,if_neg outside,same]
  | false => simp only [Bool.false_eq_true,if_false,Flash.userWord,same]
/-- The erased range ends below the page of the configuration. -/
theorem eraseLoop_behind {i : Nat} (behind : configWord ≤ i) (small : i < 1048576) (turns : Nat) (page : UInt32)
    (f : Flash) : (eraseLoop f page turns).1.userWord i = f.userWord i := by
  induction turns generalizing page f with
  | zero => rfl
  | succ turns ih =>
    by_cases below : page ≤ userFlashLastPageAddress
    · have kept := erase_behind below behind small f
      cases complete : (flashErasePage page f).2 with
      | true =>
        simp only [eraseLoop,if_pos below,complete,if_true]
        rw [ih,kept]
      | false =>
        simp only [eraseLoop,if_pos below,complete,Bool.false_eq_true,if_false]
        exact kept
    · simp only [eraseLoop,if_neg below]
theorem flashIfErase_word (start : UInt32) (f : Flash) :
    ∃ turns, (flashIfErase start f).1.word = (eraseLoop { f with irqEnabled := false } start turns).1.word :=
  ⟨(userFlashLastPageAddress.toNat - start.toNat) / flashPageSize.toNat + 1,rfl⟩
theorem flashIfErase_behind {i : Nat} (behind : configWord ≤ i) (small : i < 1048576) (start : UInt32) (f : Flash) :
    (flashIfErase start f).1.userWord i = f.userWord i := by
  obtain ⟨turns,same⟩ := flashIfErase_word start f
  have kept := eraseLoop_behind behind small turns start { f with irqEnabled := false }
  rw [Flash.userWord] at kept ⊢
  rw [same,kept]
  rfl

theorem littleEndian_byte (b0 b1 b2 b3 : UInt8) {k : Nat} (small : k < 4) :
    byteOf (littleEndian b0 b1 b2 b3) (UInt32.ofNat (8 * k)) = [b0,b1,b2,b3].getD k 0 := by
  have bytes := bigEndian_bytes b3 b2 b1 b0
  simp only [bigEndian,List.cons.injEq,and_true] at bytes
  obtain ⟨h3,h2,h1,h0⟩ := bytes
  interval_cases k
  · exact h0
  · exact h1
  · exact h2
  · exact h3
@[simp] theorem wordsOf_length (memory : List UInt8) (count : Nat) : (wordsOf memory count).length = count := by
  simp [wordsOf]
theorem wordsOf_byte (memory : List UInt8) {count i k : Nat} (inside : i < count) (small : k < 4) :
    byteOf ((wordsOf memory count).getD i 0) (UInt32.ofNat (8 * k)) = memory.getD (4 * i + k) 0 := by
  have word : (wordsOf memory count).getD i 0 = littleEndian (memory.getD (4 * i) 0) (memory.getD (4 * i + 1) 0)
      (memory.getD (4 * i + 2) 0) (memory.getD (4 * i + 3) 0) := by
    simp [wordsOf,inside]
  rw [word,littleEndian_byte _ _ _ _ small]
  interval_cases k <;> rfl
/-- The bytes of some words that have been written, and those around them. -/
theorem Flash.Wrote.userByte {f f' : Flash} {first count : Nat} {memory : List UInt8}
    (wrote : f.Wrote f' first (wordsOf memory count)) {j : Nat} (small : j / 4 < 1048576) :
    f'.userByte j = if 4 * first ≤ j ∧ j < 4 * (first + count) then memory.getD (j - 4 * first) 0 else f.userByte j := by
  rw [Flash.userByte,wrote (j / 4) small,wordsOf_length]
  by_cases inside : 4 * first ≤ j ∧ j < 4 * (first + count)
  · have words : first ≤ j / 4 ∧ j / 4 < first + count := by omega
    have place : 4 * (j / 4 - first) + j % 4 = j - 4 * first := by omega
    rw [if_pos inside,if_pos words,wordsOf_byte memory (by omega) (Nat.mod_lt j (by decide)),place]
  · have words : ¬ (first ≤ j / 4 ∧ j / 4 < first + count) := by omega
    rw [if_neg inside,if_neg words]
    rfl
/-- Words that are written behind an image make it longer. -/
theorem Flash.Wrote.image {f f' : Flash} {first count size : Nat} {memory : List UInt8}
    (wrote : f.Wrote f' first (wordsOf memory count)) (small : first + count ≤ 1048576) (covers : size ≤ 4 * count)
    (enough : size ≤ memory.length) :
    f'.image (4 * first + size) = f.image (4 * first) ++ memory.take size := by
  rw [Flash.image,List.range_add,List.map_append]
  congr 1
  · refine List.map_congr_left ?_
    intro j before
    rw [List.mem_range] at before
    rw [wrote.userByte (by omega),if_neg (by omega)]
  · refine List.ext_getElem (by simpa using enough) ?_
    intro i left right
    simp only [List.length_map,List.length_range] at left
    simp only [List.getElem_map,List.getElem_range,List.getElem_take]
    rw [wrote.userByte (by omega),if_pos (by omega),Nat.add_sub_cancel_left,List.getD_eq_getElem?_getD,
      List.getElem?_eq_getElem (by omega)]
    rfl

end Net2Modbus
