import Net2Modbus.FatBytes
import Net2Modbus.DirEntry

/-!
# Reading and writing files

`file.c` over the chains of clusters: the loops that move a part of a file sector by
sector, past the buffer where a whole sector is moved, and the calls that find out how
many clusters are to be added first. What is shown of them is for volumes of 16 and of 32
bits, as the lookups in the chains are; volumes of 12 bits are left out.
-/
namespace Net2Modbus

/-- `File`, with the bits of `FileStatus`; without `DirEntry`, which these calls do not read. -/
structure File where
  location : FileLocation
  isOpen : Bool
  isWrite : Bool
  fileSize : Nat
  filePtr : Nat
  cache : ClusterChain
  deriving DecidableEq, Repr

/-- The number of bytes that one round of the loops moves. -/
def fileBtr (coffset sizeLeft : Nat) : Nat :=
  if coffset % 512 ≠ 0 ∨ sizeLeft < 512 then
    if sizeLeft ≤ 512 - coffset % 512 then sizeLeft else 512 - coffset % 512
  else 512

theorem fileBtr_eq (coffset sizeLeft : Nat) : fileBtr coffset sizeLeft = min sizeLeft (512 - coffset % 512) := by
  unfold fileBtr
  by_cases part : coffset % 512 ≠ 0 ∨ sizeLeft < 512
  · rw [if_pos part]
    split <;> omega
  · rw [if_neg part]
    omega
theorem fileBtr_pos (coffset : Nat) {sizeLeft : Nat} (more : sizeLeft ≠ 0) : 0 < fileBtr coffset sizeLeft := by
  rw [fileBtr_eq]
  omega

/-- The sector of a place in a file, once its cluster has been looked up. -/
def fileSector (fs : FileSystem) (cache : ClusterChain) (coffset : Nat) : Nat :=
  partGetRealLBA fs (fsClusterToSector fs cache.discCluster + coffset / 512 % fs.volumeId.sectorsPerCluster)
/-- One round of the loop of `file_fread` behind the lookup, and what it copies. -/
def fileReadRound (fs : FileSystem) (cache : ClusterChain) (coffset btr : Nat) (io : IOManager) : IOManager × List UInt8 :=
  if btr = 512 then
    let read := iomanDirectSectorRead (fileSector fs cache coffset) io
    (read.1,read.2.cells)
  else
    let io := iomanGetSector (fileSector fs cache coffset) .readonly io
    (iomanReleaseSector io,io.cacheMem.slice (coffset % 512) btr)
/-- One round of the loop of `file_fwrite` behind the lookup. -/
def fileWriteRound (fs : FileSystem) (cache : ClusterChain) (coffset : Nat) (bytes : List UInt8) (io : IOManager) : IOManager :=
  if bytes.length = 512 then (iomanDirectSectorWrite (fileSector fs cache coffset) ((Block.fill 0).overwrite 0 bytes) io).1
  else
    iomanReleaseSector (IOManager.edit (·.overwrite (coffset % 512) bytes)
      (iomanGetSector (fileSector fs cache coffset) .readwrite io))
/-- The loop of `file_fread`; nothing when a lookup fails. -/
def fileReadLoop (fs : FileSystem) (coffset sizeLeft : Nat) (cache : ClusterChain) (io : IOManager) :
    IOManager × ClusterChain × Option (List UInt8) :=
  if more : sizeLeft = 0 then (io,cache,some [])
  else
    let look := fatLogicToDiscCluster fs cache (coffset / (512 * fs.volumeId.sectorsPerCluster)) io
    if look.2.2 = true then
      let btr := fileBtr coffset sizeLeft
      let got := fileReadRound fs look.2.1 coffset btr look.1
      let rest := fileReadLoop fs ((coffset + btr) % 2 ^ 32) (sizeLeft - btr) look.2.1 got.1
      (rest.1,rest.2.1,rest.2.2.map (got.2 ++ ·))
    else (look.1,look.2.1,none)
  termination_by sizeLeft
  decreasing_by
    have moved := fileBtr_pos coffset more
    omega
/-- The loop of `file_fwrite`: the number of bytes that are written, and whether no lookup failed. -/
def fileWriteLoop (fs : FileSystem) (coffset : Nat) (data : List UInt8) (cache : ClusterChain) (io : IOManager) :
    IOManager × ClusterChain × Nat × Bool :=
  if more : data.length = 0 then (io,cache,0,true)
  else
    let look := fatLogicToDiscCluster fs cache (coffset / (512 * fs.volumeId.sectorsPerCluster)) io
    if look.2.2 = true then
      let btr := fileBtr coffset data.length
      let rest := fileWriteLoop fs ((coffset + btr) % 2 ^ 32) (data.drop btr) look.2.1
        (fileWriteRound fs look.2.1 coffset (data.take btr) look.1)
      (rest.1,rest.2.1,btr + rest.2.2.1,rest.2.2.2)
    else (look.1,look.2.1,0,false)
  termination_by data.length
  decreasing_by
    have moved := fileBtr_pos coffset more
    rw [List.length_drop]
    omega

/-- `file_requiredCluster`, which also notes the length of the chain. -/
def fileRequiredCluster (fs : FileSystem) (rounds : Nat) (f : File) (offset size : Nat) (io : IOManager) :
    Option (IOManager × ClusterChain × Nat) :=
  if f.fileSize < (offset + size) % 2 ^ 32 then
    let counted :=
      if f.cache.clusterCount = 0 then
        (fatCountClustersInChain fs rounds f.cache.firstCluster io).map fun hc =>
          (hc.1,{ f.cache with clusterCount := hc.2 })
      else some (io,f.cache)
    counted.map fun known =>
      let hc := known.2.clusterCount
      let clustersize := fs.volumeId.bytesPerSector * fs.volumeId.sectorsPerCluster
      if (hc + 2 ^ 32 - (f.fileSize + clustersize - 1) % 2 ^ 32 / clustersize) * clustersize % 2 ^ 32 <
          (size + 2 ^ 32 - f.fileSize + offset) % 2 ^ 32 then
        (known.1,known.2,(offset + size + 2 ^ 32 - hc * clustersize % 2 ^ 32 + clustersize - 1) % 2 ^ 32 / clustersize)
      else (known.1,known.2,0)
  else some (io,f.cache,0)

namespace File
variable (fs : FileSystem) (rounds : Nat) (f : File)

/-- `file_fread`, and the bytes that it says to have read. -/
def fread (offset size : Nat) (io : IOManager) : IOManager × File × List UInt8 :=
  if f.isOpen = false then (io,f,[])
  else
    let sizeLeft :=
      if f.fileSize ≤ offset then 0
      else if f.fileSize < (offset + size) % 2 ^ 32 ∧ size ≠ 0 then f.fileSize - offset
      else size
    let read := fileReadLoop fs offset sizeLeft f.cache io
    (read.1,{ f with cache := read.2.1 },read.2.2.getD [])
/-- `file_fwrite`, and what it returns. -/
def fwrite (offset : Nat) (data : List UInt8) (io : IOManager) : Option (IOManager × File × Nat) :=
  if f.isOpen = false ∨ f.isWrite = false then some (io,f,0)
  else
    -- the place where the loop begins is not cut to the size
    let start := if f.fileSize < offset then f.fileSize else offset
    (fileRequiredCluster fs rounds f start data.length io).bind fun need =>
      let room := if need.2.2 = 0 then some need else fatAllocClusterChain fs rounds need.2.1 need.2.2 need.1
      room.map fun got =>
        if got.2.2 ≠ 0 then (got.1,{ f with cache := got.2.1 },0)
        else
          let write := fileWriteLoop fs offset data got.2.1 got.1
          let written := write.2.2.1
          if write.2.2.2 = true then
            let size :=
              if f.fileSize - start < written then (f.fileSize + (written - (f.fileSize - start))) % 2 ^ 32 else f.fileSize
            (write.1,{ f with cache := write.2.1, fileSize := size },written)
          else
            let size := (f.fileSize + written) % 2 ^ 32
            (dirSetFileSize fs f.location size write.1,{ f with cache := write.2.1, fileSize := size },written)
/-- `file_read` -/
def read (size : Nat) (io : IOManager) : IOManager × File × List UInt8 :=
  let r := f.fread fs f.filePtr size io
  (r.1,{ r.2.1 with filePtr := (f.filePtr + r.2.2.length) % 2 ^ 32 },r.2.2)
/-- `file_write` -/
def write (data : List UInt8) (io : IOManager) : Option (IOManager × File × Nat) :=
  (f.fwrite fs rounds f.filePtr data io).map fun r =>
    (r.1,{ r.2.1 with filePtr := (f.filePtr + r.2.2) % 2 ^ 32 },r.2.2)
end File

/-! ### What the loops do -/

section
open IOManager FileSystem
variable {fs : FileSystem} {io : IOManager} {cache : ClusterChain} {l : List Nat} {coffset btr sizeLeft : Nat}
  {bytes data : List UInt8}

variable (fs cache) in
theorem readRound_spec (idle : Idle io) (within : coffset % 512 + btr ≤ 512) :
    Idle (fileReadRound fs cache coffset btr io).1 ∧ (fileReadRound fs cache coffset btr io).1.view = io.view ∧
      (fileReadRound fs cache coffset btr io).2 = (io.view (fileSector fs cache coffset)).slice (coffset % 512) btr := by
  unfold fileReadRound
  by_cases whole : btr = 512
  · obtain ⟨idle',shown,read⟩ := directSectorRead_idle idle (fileSector fs cache coffset)
    have start : coffset % 512 = 0 := by omega
    simp only [if_pos whole]
    refine ⟨idle',shown,?_⟩
    rw [read,start,whole,Block.slice,List.drop_zero]
    exact (List.take_of_length_le (by simp)).symm
  · obtain ⟨io1,got,o,ready,shown,-⟩ := getSector_idle idle (fileSector fs cache coffset) .readonly
    obtain ⟨idle',shown'⟩ := releaseSector_idle ready
    simp only [if_neg whole,got]
    refine ⟨idle',shown'.trans shown,?_⟩
    rw [o.view,shown]
variable (fs cache) in
theorem writeRound_spec (idle : Idle io) (within : coffset % 512 + bytes.length ≤ 512) :
    Idle (fileWriteRound fs cache coffset bytes io) ∧ (fileWriteRound fs cache coffset bytes io).view =
      Function.update io.view (fileSector fs cache coffset)
        ((io.view (fileSector fs cache coffset)).overwrite (coffset % 512) bytes) := by
  unfold fileWriteRound
  by_cases whole : bytes.length = 512
  · obtain ⟨idle',shown⟩ := directSectorWrite_idle idle (fileSector fs cache coffset) ((Block.fill 0).overwrite 0 bytes)
    have start : coffset % 512 = 0 := by omega
    rw [if_pos whole]
    refine ⟨idle',shown.trans ?_⟩
    congr 1
    refine Block.ext ?_
    rw [start,Block.overwrite_all whole,Block.overwrite_all whole]
  · rw [if_neg whole]
    obtain ⟨io1,got,o,ready,shown,writable⟩ := getSector_idle idle (fileSector fs cache coffset) .readwrite
    obtain ⟨o',shown'⟩ := edit_open (f := (·.overwrite (coffset % 512) bytes)) o (writable rfl)
    obtain ⟨idle',shown''⟩ := releaseSector_idle ⟨o'.toSteady,ready.once,ready.flat⟩
    rw [got]
    refine ⟨idle',shown''.trans ?_⟩
    rw [shown',shown]

/-- The lookup of a place in the file, and the sector that it leads to. -/
theorem place_sector (sane : fs.Sane) (whole : fs.type ≠ .fat12) (idle : Idle io) (chain : fs.Chain io.view l)
    (follows : cache.Follows l) (coffset : Nat) :
    ∃ look, fatLogicToDiscCluster fs cache (coffset / (512 * fs.volumeId.sectorsPerCluster)) io = look ∧
      Looked io cache l (coffset / fs.clusterBytes) look ∧ (look.2.2 = true ↔ coffset < fs.clusterBytes * l.length) ∧
      (look.2.2 = true → (fs.sectorsOf l)[coffset / 512]? = some (fileSector fs look.2.1 coffset)) := by
  have looked := logicToDisc_spec sane whole idle chain follows (coffset / fs.clusterBytes)
  refine ⟨_,rfl,looked,looked.found.trans (Nat.div_lt_iff_lt_mul (Nat.mul_pos (by decide) sane.spc) |>.trans ?_),?_⟩
  · rw [Nat.mul_comm]
    rfl
  · intro found
    apply sectorsOf_getElem? sane
    rw [Nat.div_div_eq_div_mul]
    exact looked.cluster found

/-- What is read lies in the chain one byte after the other. -/
theorem readLoop_spec (sane : fs.Sane) (whole : fs.type ≠ .fat12) (idle : Idle io) (chain : fs.Chain io.view l)
    (follows : cache.Follows l) (inside : coffset + sizeLeft ≤ fs.clusterBytes * l.length)
    (small : coffset + sizeLeft < 2 ^ 32) :
    ∃ io' cache', fileReadLoop fs coffset sizeLeft cache io =
        (io',cache',some (((fs.chainBytes io.view l).drop coffset).take sizeLeft)) ∧ Idle io' ∧ io'.view = io.view ∧
      cache'.Follows l ∧ cache'.clusterCount = cache.clusterCount := by
  induction sizeLeft using Nat.strong_induction_on generalizing coffset cache io with
  | _ sizeLeft ih =>
    rw [fileReadLoop]
    by_cases more : sizeLeft = 0
    · rw [dif_pos more,more,List.take_zero]
      exact ⟨io,cache,rfl,idle,rfl,follows,rfl⟩
    · obtain ⟨look,same,looked,reached,sector⟩ := place_sector sane whole idle chain follows coffset
      have found := reached.mpr (by omega)
      have sector := sector found
      have btr := fileBtr_eq coffset sizeLeft
      have moved := fileBtr_pos coffset more
      simp only [dif_neg more,same,if_pos found]
      generalize fileBtr coffset sizeLeft = n at btr moved
      obtain ⟨idle1,shown1,read⟩ := readRound_spec fs look.2.1 looked.idle
        (show coffset % 512 + n ≤ 512 by omega)
      have shown := shown1.trans looked.view
      obtain ⟨io',cache',looped,idle',shown',follows',kept⟩ := ih (sizeLeft - n) (by omega) idle1 (shown ▸ chain)
        looked.follows (show coffset + n + (sizeLeft - n) ≤ _ by omega) (by omega)
      rw [Nat.mod_eq_of_lt (by omega),looped]
      refine ⟨io',cache',?_,idle',shown'.trans shown,follows',kept.trans looked.kept⟩
      have part := flatMap_slice (fun a => (io.view a).cells) (fun a => (io.view a).size_eq) sector
        (show coffset % 512 + n ≤ 512 by omega)
      rw [Nat.div_add_mod] at part
      rw [read,looked.view,Block.slice,← part,shown,Option.map_some]
      refine congrArg (fun bytes => (io',cache',some bytes)) ?_
      rw [← List.drop_drop,← chainBytes,← List.take_add,Nat.add_sub_cancel' (by omega)]

/-- What one round writes is seen in the chain and nowhere else. -/
theorem writeRound_chain (sane : fs.Sane) (idle : Idle io) (chain : fs.Chain io.view l)
    (sector : (fs.sectorsOf l)[coffset / 512]? = some (fileSector fs cache coffset))
    (within : coffset % 512 + bytes.length ≤ 512) :
    Idle (fileWriteRound fs cache coffset bytes io) ∧ fs.Chain (fileWriteRound fs cache coffset bytes io).view l ∧
      fs.chainBytes (fileWriteRound fs cache coffset bytes io).view l = splice (fs.chainBytes io.view l) coffset bytes ∧
      ∀ a ∉ fs.sectorsOf l, (fileWriteRound fs cache coffset bytes io).view a = io.view a := by
  obtain ⟨idle',shown⟩ := writeRound_spec fs cache idle within
  have frame (a : Nat) (outside : a ∉ fs.sectorsOf l) : (fileWriteRound fs cache coffset bytes io).view a = io.view a := by
    rw [shown,Function.update_of_ne]
    rintro rfl
    exact outside (List.mem_of_getElem? sector)
  refine ⟨idle',?_,?_,frame⟩
  · apply chain.frame sane
    intro i table
    exact frame _ fun mem => sectorsOf_fat sane chain.inside mem i table rfl
  · have part := flatMap_splice (fun a => (io.view a).cells)
      (fun a => ((fileWriteRound fs cache coffset bytes io).view a).cells) (fun a => (io.view a).size_eq) sector
      (sectorsOf_nodup sane chain.inside chain.linked.nodup) within
      (by rw [shown,Function.update_self,Block.overwrite_cells within])
      (by intro a mem other; rw [shown,Function.update_of_ne other])
    rwa [Nat.div_add_mod] at part
/-- What a write leaves of a chain, also when the chain is too short for it. -/
theorem writeLoop_spec (sane : fs.Sane) (whole : fs.type ≠ .fat12) (idle : Idle io) (chain : fs.Chain io.view l)
    (follows : cache.Follows l) (inside : coffset ≤ fs.clusterBytes * l.length) (small : coffset + data.length < 2 ^ 32) :
    ∃ io' cache', fileWriteLoop fs coffset data cache io =
        (io',cache',min data.length (fs.clusterBytes * l.length - coffset),
          decide (coffset + data.length ≤ fs.clusterBytes * l.length)) ∧ Idle io' ∧
      fs.chainBytes io'.view l =
        splice (fs.chainBytes io.view l) coffset (data.take (fs.clusterBytes * l.length - coffset)) ∧
      (∀ a ∉ fs.sectorsOf l, io'.view a = io.view a) ∧ cache'.Follows l ∧ cache'.clusterCount = cache.clusterCount := by
  induction size : data.length using Nat.strong_induction_on generalizing data coffset cache io with
  | _ size ih =>
    subst size
    rw [fileWriteLoop]
    by_cases more : data.length = 0
    · obtain rfl := List.length_eq_zero_iff.mp more
      refine ⟨io,cache,?_,idle,?_,fun _ _ => rfl,follows,rfl⟩
      · rw [dif_pos more,List.length_nil,Nat.zero_min,Nat.add_zero,decide_eq_true inside]
      · rw [List.take_nil,splice_nil]
    · obtain ⟨look,same,looked,reached,sector⟩ := place_sector sane whole idle chain follows coffset
      simp only [dif_neg more,same]
      by_cases found : look.2.2 = true
      · have less := reached.mp found
        have btr := fileBtr_eq coffset data.length
        have moved := fileBtr_pos coffset more
        simp only [if_pos found]
        generalize fileBtr coffset data.length = n at btr moved
        have taken : (data.take n).length = n := List.length_take_of_le (by omega)
        obtain ⟨idle1,chain1,held1,frame1⟩ := writeRound_chain sane looked.idle (looked.view ▸ chain) (sector found)
          (show coffset % 512 + (data.take n).length ≤ 512 by omega)
        rw [looked.view] at held1 frame1
        -- a sector is in one cluster, so that the round does not go beyond the chain
        have stays : coffset + n ≤ fs.clusterBytes * l.length := by
          rw [clusterBytes,Nat.mul_assoc] at less ⊢
          omega
        obtain ⟨io',cache',looped,idle',held,frame,follows',kept⟩ := ih (data.drop n).length
          (by rw [List.length_drop]; omega) idle1 chain1 looked.follows stays
          (show coffset + n + (data.drop n).length < 2 ^ 32 by rw [List.length_drop]; omega) rfl
        rw [Nat.mod_eq_of_lt (by omega),looped]
        refine ⟨io',cache',?_,idle',?_,?_,follows',kept.trans looked.kept⟩
        · rw [List.length_drop]
          dsimp only
          have counts : n + min (data.length - n) (fs.clusterBytes * l.length - (coffset + n)) =
              min data.length (fs.clusterBytes * l.length - coffset) := by omega
          have fits : coffset + n + (data.length - n) = coffset + data.length := by omega
          rw [counts,fits]
        · have met := splice_splice (b := (data.drop n).take (fs.clusterBytes * l.length - (coffset + n)))
            (show coffset + (data.take n).length ≤ (fs.chainBytes io.view l).length by rw [taken,chainBytes_length]; exact stays)
          rw [taken] at met
          rw [held,held1,met,← List.take_add]
          congr 2
          omega
        · intro a outside
          exact (frame a outside).trans (frame1 a outside)
      · have full : ¬ coffset < fs.clusterBytes * l.length := fun less => found (reached.mpr less)
        rw [if_neg found,Nat.sub_eq_zero_of_le (Nat.le_of_not_lt full),Nat.min_zero,List.take_zero,splice_nil,
          decide_eq_false (by omega)]
        exact ⟨_,_,rfl,looked.idle,by rw [looked.view],fun a _ => by rw [looked.view],looked.follows,looked.kept⟩

/-- The numbers of `file_requiredCluster`: it counts the clusters that are missing, without a number that
    wraps around. -/
theorem required_eq {k cs size offset n : Nat} (positive : 0 < cs) (fits : size ≤ cs * k) (inside : offset ≤ size)
    (more : size < offset + n) (small : cs * k < 2 ^ 32) (room : offset + n + cs ≤ 2 ^ 32) :
    (if (k + 2 ^ 32 - (size + cs - 1) % 2 ^ 32 / cs) * cs % 2 ^ 32 < (n + 2 ^ 32 - size + offset) % 2 ^ 32 then
      (offset + n + 2 ^ 32 - k * cs % 2 ^ 32 + cs - 1) % 2 ^ 32 / cs else 0) = (offset + n + cs - 1) / cs - k := by
  have kept : (size + cs - 1) % 2 ^ 32 = size + cs - 1 := Nat.mod_eq_of_lt (by omega)
  have all : k * cs % 2 ^ 32 = cs * k := by rw [Nat.mul_comm,Nat.mod_eq_of_lt small]
  have grown : (n + 2 ^ 32 - size + offset) % 2 ^ 32 = offset + n - size := by omega
  -- the clusters that the size takes up
  rw [kept]
  have used := Nat.div_add_mod (size + cs - 1) cs
  have cut := Nat.mod_lt (size + cs - 1) positive
  generalize (size + cs - 1) / cs = q at used ⊢
  have few : q ≤ k := by
    refine Nat.le_of_lt_succ (Nat.lt_of_mul_lt_mul_left (a := cs) ?_)
    rw [Nat.mul_succ]
    omega
  have spare : (k + 2 ^ 32 - q) * cs % 2 ^ 32 = cs * k - cs * q := by
    rw [show k + 2 ^ 32 - q = (k - q) + 2 ^ 32 by omega,Nat.add_mul,Nat.mul_comm (2 ^ 32),Nat.add_mul_mod_self_right,
      Nat.mul_comm,Nat.mul_sub]
    exact Nat.mod_eq_of_lt (by omega)
  rw [spare,all,grown]
  by_cases extend : cs * k - cs * q < offset + n - size
  · rw [if_pos extend,show offset + n + 2 ^ 32 - cs * k + cs - 1 = offset + n + cs - 1 - cs * k + 2 ^ 32 by omega,
      Nat.add_mod_right,Nat.mod_eq_of_lt (by omega),Nat.sub_mul_div]
  · rw [if_neg extend,eq_comm,Nat.sub_eq_zero_iff_le]
    apply Nat.le_of_lt_succ
    rw [Nat.div_lt_iff_lt_mul positive,Nat.succ_mul,Nat.mul_comm]
    omega

variable {rounds offset n : Nat} {f : File}

/-- A file whose bytes are on a chain. -/
structure File.OnChain (f : File) (fs : FileSystem) (d : Card) (l : List Nat) : Prop where
  chain : fs.Chain d l
  follows : f.cache.Follows l
  fits : f.fileSize ≤ fs.clusterBytes * l.length

theorem requiredCluster_spec (sane : fs.Sane) (whole : fs.type ≠ .fat12) (standard : fs.volumeId.bytesPerSector = 512)
    (idle : Idle io) (file : f.OnChain fs io.view l) (counted : f.cache.Counted l) (enough : l.length < rounds)
    (small : fs.clusterBytes * l.length < 2 ^ 32) (inside : offset ≤ f.fileSize)
    (room : offset + n + fs.clusterBytes ≤ 2 ^ 32) :
    ∃ io' cache', fileRequiredCluster fs rounds f offset n io = some (io',cache',fs.clustersFor (offset + n) - l.length) ∧
      Idle io' ∧ io'.view = io.view ∧ cache'.Follows l ∧ cache'.Counted l := by
  have positive := sane.clusterBytes_pos
  unfold fileRequiredCluster
  by_cases more : f.fileSize < offset + n
  · rw [Nat.mod_eq_of_lt (by omega),if_pos more]
    -- the length is counted when it is not known
    have known : ∃ io' cache', (if f.cache.clusterCount = 0 then
        (fatCountClustersInChain fs rounds f.cache.firstCluster io).map fun hc =>
          (hc.1,{ f.cache with clusterCount := hc.2 })
        else some (io,f.cache)) = some (io',cache') ∧ Idle io' ∧ io'.view = io.view ∧ cache'.Follows l ∧
        cache'.clusterCount = l.length := by
      by_cases zero : f.cache.clusterCount = 0
      · obtain ⟨io',same,idle',shown⟩ := count_spec sane whole idle file.chain file.follows.first enough
        rw [if_pos zero,same]
        have follows := file.follows
        exact ⟨io',_,rfl,idle',shown,⟨follows.first,follows.run,follows.fresh,follows.last⟩,rfl⟩
      · rw [if_neg zero]
        exact ⟨io,f.cache,rfl,idle,rfl,file.follows,counted.resolve_left zero⟩
    obtain ⟨io',cache',same,idle',shown,follows,length⟩ := known
    have bytes : fs.volumeId.bytesPerSector * fs.volumeId.sectorsPerCluster = fs.clusterBytes := by rw [standard,clusterBytes]
    have missing := required_eq positive file.fits inside more small room
    rw [same]
    refine ⟨io',cache',?_,idle',shown,follows,.inr length⟩
    simp only [Option.map_some,bytes,length,clustersFor]
    rw [← missing]
    split <;> rfl
  · rw [Nat.mod_eq_of_lt (by omega),if_neg more]
    have none : fs.clustersFor (offset + n) - l.length = 0 :=
      Nat.sub_eq_zero_of_le (clustersFor_le sane (Nat.le_trans (Nat.le_of_not_lt more) file.fits))
    exact ⟨io,f.cache,by rw [none],idle,rfl,file.follows,counted⟩

variable {size num : Nat} {got m : List Nat} {r : IOManager × ClusterChain × Nat}

/-- What a file holds. -/
def File.contents (f : File) (fs : FileSystem) (d : Card) (l : List Nat) : List UInt8 := (fs.chainBytes d l).take f.fileSize

/-- What is left of all else when a chain has been written to and made longer: the chains that have no
    cluster in common with it keep what they hold, and the new clusters were free. -/
structure Aside (fs : FileSystem) (d d' : Card) (l l' : List Nat) : Prop where
  others : ∀ m, fs.Chain d m → l.Disjoint m → fs.Chain d' m ∧ l'.Disjoint m ∧ fs.chainBytes d' m = fs.chainBytes d m
  frame : ∀ a, (∀ i < fs.fatSectorCount, a ≠ fs.fatSector i) → a ∉ fs.sectorsOf l' → d' a = d a
  free : (fs.free d').card + l'.length = (fs.free d).card + l.length

theorem File.OnChain.contents_length {d : Card} (file : f.OnChain fs d l) : (f.contents fs d l).length = f.fileSize := by
  rw [File.contents,List.length_take,chainBytes_length,Nat.min_eq_left file.fits]
/-- `file_fread` reads what the file holds from the offset on, as far as it goes. -/
theorem fread_spec (sane : fs.Sane) (whole : fs.type ≠ .fat12) (idle : Idle io) (file : f.OnChain fs io.view l)
    (opened : f.isOpen = true) (small : offset + size < 2 ^ 32) :
    ∃ io' cache', f.fread fs offset size io =
        (io',{ f with cache := cache' },((f.contents fs io.view l).drop offset).take size) ∧ Idle io' ∧ io'.view = io.view ∧
      cache'.Follows l ∧ cache'.clusterCount = f.cache.clusterCount := by
  unfold File.fread
  rw [if_neg (by simp [opened])]
  by_cases beyond : f.fileSize ≤ offset
  · simp only [if_pos beyond]
    rw [fileReadLoop,dif_pos rfl,List.drop_of_length_le (by rwa [file.contents_length]),List.take_nil]
    exact ⟨io,f.cache,rfl,idle,rfl,file.follows,rfl⟩
  · have left : (if f.fileSize < (offset + size) % 2 ^ 32 ∧ size ≠ 0 then f.fileSize - offset else size) =
        min size (f.fileSize - offset) := by
      rw [Nat.mod_eq_of_lt small]
      split <;> omega
    have fits := file.fits
    obtain ⟨io',cache',looped,idle',shown,follows,kept⟩ := readLoop_spec sane whole idle file.chain file.follows
      (show offset + min size (f.fileSize - offset) ≤ _ by omega) (by omega)
    simp only [if_neg beyond,left,looped]
    refine ⟨io',cache',?_,idle',shown,follows,kept⟩
    rw [File.contents,List.drop_take,List.take_take]
    rfl

/-- The clusters are got before the write. -/
theorem room_spec (sane : fs.Sane) (whole : fs.type ≠ .fat12) (idle : Idle io) (chain : fs.Chain io.view l)
    (follows : cache.Follows l) (enough : l.length < rounds) (num : Nat) :
    ∃ r got, (if num = 0 then some (io,cache,num) else fatAllocClusterChain fs rounds cache num io) = some r ∧
      Extended fs io l got num cache r := by
  by_cases none : num = 0
  · subst none
    refine ⟨_,[],if_pos rfl,idle,?_,fun c mem => absurd mem List.not_mem_nil,(Nat.zero_min _).symm,fun _ _ _ => rfl,
      fun _ _ => rfl,?_,fun _ => ?_,?_⟩
    · rwa [List.append_nil]
    · rwa [List.append_nil]
    · rw [List.append_nil]
      exact id
    · intro start _
      rw [if_pos (missing_enough io.view start (Nat.zero_le _))]
  · rw [if_neg none]
    exact alloc_spec sane whole idle chain follows (Nat.le_of_lt enough) num
theorem Aside.refl (fs : FileSystem) (d : Card) (l : List Nat) : Aside fs d d l l :=
  ⟨fun _ chain apart => ⟨chain,apart,rfl⟩,fun _ _ _ => rfl,rfl⟩
/-- The new clusters are no longer free, and no others are. -/
theorem Extended.free_eq (extended : Extended fs io l got num cache r) (sane : fs.Sane) (chain : fs.Chain io.view l) :
    fs.free r.1.view = fs.free io.view \ got.toFinset := by
  ext c
  simp only [free,Finset.mem_sdiff,Finset.mem_filter,List.mem_toFinset,and_assoc]
  apply and_congr_right
  intro _
  by_cases new : c ∈ got
  · exact iff_of_false (extended.chain.busy sane (List.mem_append_right l new)) fun old => old.2 new
  · by_cases last : l.getLast? = some c
    · have mem := List.mem_of_getLast? last
      exact iff_of_false (extended.chain.busy sane (List.mem_append_left got mem)) fun old => chain.busy sane mem old.1
    · rw [extended.same c new last]
      exact (and_iff_left new).symm
theorem Extended.aside (extended : Extended fs io l got num cache r) (sane : fs.Sane) (chain : fs.Chain io.view l) :
    Aside fs io.view r.1.view l (l ++ got) := by
  refine ⟨?_,fun a table _ => extended.frame a table,?_⟩
  · intro m chain' apart
    refine ⟨extended.other sane chain' apart,?_,?_⟩
    · rw [List.disjoint_append_left]
      refine ⟨apart,?_⟩
      intro c new mem
      exact chain'.busy sane mem (Finset.mem_filter.mp (extended.new c new)).2
    · apply chainBytes_congr
      intro a mem
      exact extended.frame a (sectorsOf_fat sane chain'.inside mem)
  · have nodup := (List.nodup_append.mp extended.chain.linked.nodup).2.1
    have sub : got.toFinset ⊆ fs.free io.view := by
      intro c mem
      exact extended.new c (List.mem_toFinset.mp mem)
    have count := Finset.card_le_card sub
    rw [extended.free_eq sane chain,Finset.card_sdiff_of_subset sub,List.length_append]
    rw [List.toFinset_card_of_nodup nodup] at count ⊢
    omega
/-- What a file held is still there in the longer chain. -/
theorem Extended.held (extended : Extended fs io l got num cache r) (sane : fs.Sane) (chain : fs.Chain io.view l)
    (fits : n ≤ fs.clusterBytes * l.length) :
    (fs.chainBytes r.1.view (l ++ got)).take n = (fs.chainBytes io.view l).take n := by
  rw [chainBytes_append,List.take_append_of_le_length (by rwa [chainBytes_length])]
  refine congrArg (List.take n) (chainBytes_congr ?_)
  intro a mem
  exact extended.frame a (sectorsOf_fat sane chain.inside mem)
/-- What is written into the chain itself is nothing to the others. -/
theorem Aside.write {d d' d'' : Card} {l' : List Nat} (aside : Aside fs d d' l l') (sane : fs.Sane)
    (chain : fs.Chain d' l') (frame : ∀ a ∉ fs.sectorsOf l', d'' a = d' a) : Aside fs d d'' l l' := by
  have table (i : Nat) (bound : i < fs.fatSectorCount) : d'' (fs.fatSector i) = d' (fs.fatSector i) :=
    frame _ fun mem => sectorsOf_fat sane chain.inside mem i bound rfl
  refine ⟨?_,?_,?_⟩
  · intro m chain' apart
    obtain ⟨chain'',apart',same⟩ := aside.others m chain' apart
    refine ⟨chain''.frame sane table,apart',(chainBytes_congr ?_).trans same⟩
    intro a mem
    exact frame a fun mem' => sectorsOf_disjoint sane chain.inside chain''.inside apart' mem' mem
  · intro a outside outside'
    exact (frame a outside').trans (aside.frame a outside outside')
  · rw [free_frame sane table]
    exact aside.free

/-- What a file has for a write that takes so many clusters: its chain is longer by clusters that were free, as
    many as were missing or as there were. -/
structure Roomed (fs : FileSystem) (io : IOManager) (l got : List Nat) (need : Nat) (r : IOManager × ClusterChain × Nat) :
    Prop where
  idle : Idle r.1
  chain : fs.Chain r.1.view (l ++ got)
  follows : r.2.1.Follows (l ++ got)
  new : ∀ c ∈ got, c ∈ fs.free io.view
  length : got.length = min (need - l.length) (fs.free io.view).card
  aside : Aside fs io.view r.1.view l (l ++ got)
  held : ∀ n ≤ fs.clusterBytes * l.length, (fs.chainBytes r.1.view (l ++ got)).take n = (fs.chainBytes io.view l).take n
  done : need ≤ l.length + (fs.free io.view).card → r.2.2 = 0 ∧ r.2.1.Counted (l ++ got)
  none : fs.free io.view = ∅ → r.2.2 = 0
/-- What `file_fwrite` does when it has its clusters. -/
def File.fwriteWith (fs : FileSystem) (f : File) (offset : Nat) (data : List UInt8) (r : IOManager × ClusterChain × Nat) :
    IOManager × File × Nat :=
  if r.2.2 ≠ 0 then (r.1,{ f with cache := r.2.1 },0)
  else
    let write := fileWriteLoop fs offset data r.2.1 r.1
    let written := write.2.2.1
    if write.2.2.2 = true then
      let size :=
        if f.fileSize - offset < written then (f.fileSize + (written - (f.fileSize - offset))) % 2 ^ 32 else f.fileSize
      (write.1,{ f with cache := write.2.1, fileSize := size },written)
    else
      let size := (f.fileSize + written) % 2 ^ 32
      (dirSetFileSize fs f.location size write.1,{ f with cache := write.2.1, fileSize := size },written)
/-- What the loop leaves in the longer chain. -/
structure Filled (fs : FileSystem) (io : IOManager) (l got : List Nat) (offset : Nat) (data : List UInt8)
    (r : IOManager × ClusterChain × Nat) (io' : IOManager) (cache' : ClusterChain) : Prop where
  idle : Idle io'
  chain : fs.Chain io'.view (l ++ got)
  follows : cache'.Follows (l ++ got)
  counted : r.2.1.Counted (l ++ got) → cache'.Counted (l ++ got)
  bytes : fs.chainBytes io'.view (l ++ got) =
    splice (fs.chainBytes r.1.view (l ++ got)) offset (data.take (fs.clusterBytes * (l ++ got).length - offset))
  aside : Aside fs io.view io'.view l (l ++ got)
  free : fs.free io'.view = fs.free r.1.view

/-- The clusters that are missing are got before anything is written. -/
theorem fwrite_room (sane : fs.Sane) (whole : fs.type ≠ .fat12) (standard : fs.volumeId.bytesPerSector = 512)
    (idle : Idle io) (file : f.OnChain fs io.view l) (counted : f.cache.Counted l) (enough : l.length < rounds)
    (opened : f.isOpen = true ∧ f.isWrite = true) (small : fs.clusterBytes * l.length < 2 ^ 32)
    (inside : offset ≤ f.fileSize) (limit : offset + data.length + fs.clusterBytes ≤ 2 ^ 32) :
    ∃ r got, f.fwrite fs rounds offset data io = some (f.fwriteWith fs offset data r) ∧
      Roomed fs io l got (fs.clustersFor (offset + data.length)) r := by
  obtain ⟨io1,cache1,needed,idle1,shown1,follows1,counted1⟩ := requiredCluster_spec (n := data.length) sane whole standard
    idle file counted enough small inside limit
  obtain ⟨r,got,roomed,extended⟩ := room_spec sane whole idle1 (shown1 ▸ file.chain) follows1 enough
    (fs.clustersFor (offset + data.length) - l.length)
  have aside := extended.aside sane (shown1 ▸ file.chain)
  have new := extended.new
  have length := extended.length
  have counts := extended.counted
  obtain ⟨start,last,-⟩ := file.chain.linked.ends
  have none := extended.none last
  have done := extended.done last
  have held (n : Nat) := extended.held (n := n) sane (shown1 ▸ file.chain)
  rw [shown1] at aside new length counts none done
  simp only [shown1] at held
  refine ⟨r,got,?_,extended.idle,extended.chain,extended.follows,new,length,aside,held,?_,none⟩
  · unfold File.fwrite
    rw [if_neg (by simp [opened.1,opened.2])]
    simp only [if_neg (Nat.not_lt.mpr inside),needed,Option.bind_some,roomed,Option.map_some]
    rfl
  · intro room
    exact ⟨done (by omega),counts (by omega) counted1⟩
/-- With the clusters that it has got, a write goes as far as the chain does. Where the chain is too short, all
    that was written is added to the size, and the entry is noted. -/
theorem Roomed.write {need : Nat} (roomed : Roomed fs io l got need r) (sane : fs.Sane) (whole : fs.type ≠ .fat12)
    (fits : f.fileSize ≤ fs.clusterBytes * l.length) (inside : offset ≤ f.fileSize) (small : offset + data.length < 2 ^ 32)
    (returned : r.2.2 = 0) :
    ∃ io' cache', Filled fs io l got offset data r io' cache' ∧ f.fwriteWith fs offset data r =
      if offset + data.length ≤ fs.clusterBytes * (l ++ got).length then
        (io',{ f with cache := cache', fileSize := max f.fileSize (offset + data.length) },data.length)
      else
        let size := (f.fileSize + (fs.clusterBytes * (l ++ got).length - offset)) % 2 ^ 32
        (dirSetFileSize fs f.location size io',{ f with cache := cache', fileSize := size },
          fs.clusterBytes * (l ++ got).length - offset) := by
  have longer : fs.clusterBytes * l.length ≤ fs.clusterBytes * (l ++ got).length := by
    rw [List.length_append,Nat.mul_add]
    exact Nat.le_add_right ..
  obtain ⟨io2,cache2,written,idle2,bytes,frame,follows2,kept⟩ := writeLoop_spec sane whole roomed.idle roomed.chain
    roomed.follows (by omega : offset ≤ _) small
  have table (i : Nat) (bound : i < fs.fatSectorCount) : io2.view (fs.fatSector i) = r.1.view (fs.fatSector i) :=
    frame _ fun mem => sectorsOf_fat sane roomed.chain.inside mem i bound rfl
  refine ⟨io2,cache2,⟨idle2,roomed.chain.frame sane table,follows2,?_,bytes,
    roomed.aside.write sane roomed.chain frame,free_frame sane table⟩,?_⟩
  · rw [ClusterChain.Counted,ClusterChain.Counted,kept]
    exact id
  · unfold File.fwriteWith
    simp only [returned,ne_eq,not_true_eq_false,if_false,written]
    by_cases holds : offset + data.length ≤ fs.clusterBytes * (l ++ got).length
    · have grown : (if f.fileSize - offset < data.length then
          (f.fileSize + (data.length - (f.fileSize - offset))) % 2 ^ 32 else f.fileSize) =
          max f.fileSize (offset + data.length) := by
        split <;> omega
      rw [decide_eq_true holds,if_pos rfl,if_pos holds,Nat.min_eq_left (by omega),grown]
    · rw [decide_eq_false holds,if_neg Bool.false_ne_true,if_neg holds,Nat.min_eq_right (by omega)]

/-- What a write leaves when there is room for all of it. -/
structure FileWritten (fs : FileSystem) (io : IOManager) (f : File) (l : List Nat) (offset : Nat) (data : List UInt8)
    (io' : IOManager) (f' : File) (l' : List Nat) : Prop where
  idle : Idle io'
  file : f'.OnChain fs io'.view l'
  counted : f'.cache.Counted l'
  length : l'.length = max l.length (fs.clustersFor (offset + data.length))
  aside : Aside fs io.view io'.view l l'
  contents : f'.contents fs io'.view l' = splice (f.contents fs io.view l) offset data
  same : f' = { f with cache := f'.cache, fileSize := max f.fileSize (offset + data.length) }

theorem fwrite_spec (sane : fs.Sane) (whole : fs.type ≠ .fat12) (standard : fs.volumeId.bytesPerSector = 512)
    (idle : Idle io) (file : f.OnChain fs io.view l) (counted : f.cache.Counted l) (enough : l.length < rounds)
    (opened : f.isOpen = true ∧ f.isWrite = true) (small : fs.clusterBytes * l.length < 2 ^ 32)
    (inside : offset ≤ f.fileSize) (limit : offset + data.length + fs.clusterBytes ≤ 2 ^ 32)
    (room : fs.clustersFor (offset + data.length) ≤ l.length + (fs.free io.view).card) :
    ∃ io' f' l', f.fwrite fs rounds offset data io = some (io',f',data.length) ∧
      FileWritten fs io f l offset data io' f' l' := by
  have fits := file.fits
  have positive := sane.clusterBytes_pos
  obtain ⟨r,got,called,roomed⟩ := fwrite_room sane whole standard idle file counted enough opened small inside limit
  obtain ⟨returned,counts⟩ := roomed.done room
  have length : (l ++ got).length = max l.length (fs.clustersFor (offset + data.length)) := by
    have all := roomed.length
    rw [Nat.min_eq_left (by omega)] at all
    rw [List.length_append,all]
    omega
  have holds : offset + data.length ≤ fs.clusterBytes * (l ++ got).length := by
    rw [length]
    exact Nat.le_trans (le_clustersFor sane _) (Nat.mul_le_mul_left _ (Nat.le_max_right ..))
  obtain ⟨io2,cache2,filled,moved⟩ := roomed.write sane whole fits inside (show offset + data.length < 2 ^ 32 by omega) returned
  have bytes := filled.bytes
  rw [if_pos holds] at moved
  rw [List.take_of_length_le (by omega)] at bytes
  refine ⟨io2,_,l ++ got,called.trans (congrArg some moved),filled.idle,⟨filled.chain,filled.follows,?_⟩,
    filled.counted counts,length,filled.aside,?_,rfl⟩
  · exact Nat.max_le.mpr ⟨Nat.le_trans fits (Nat.mul_le_mul_left _ (by rw [length]; exact Nat.le_max_left ..)),holds⟩
  · rw [File.contents.eq_def f,← roomed.held _ fits,← take_splice inside (by rwa [chainBytes_length]),← bytes]
    rfl

/-! ### Without room -/

/-- When there are fewer clusters than are missing, none is free afterwards. -/
theorem Roomed.spent {need : Nat} (roomed : Roomed fs io l got need r) (few : (fs.free io.view).card < need - l.length) :
    fs.free r.1.view = ∅ := by
  have length := roomed.length
  have free := roomed.aside.free
  rw [Nat.min_eq_right (by omega)] at length
  rw [List.length_append,length] at free
  exact Finset.card_eq_zero.mp (by omega)
/-- So it is when the chain is too short for the bytes. -/
theorem Roomed.few (roomed : Roomed fs io l got (fs.clustersFor n) r) (sane : fs.Sane)
    (short : ¬ n ≤ fs.clusterBytes * (l ++ got).length) : (fs.free io.view).card < fs.clustersFor n - l.length := by
  by_contra room
  have length := roomed.length
  rw [Nat.min_eq_left (by omega)] at length
  have reach := Nat.mul_le_mul_left fs.clusterBytes
    (show fs.clustersFor n ≤ (l ++ got).length by rw [List.length_append,length]; omega)
  exact short (Nat.le_trans (le_clustersFor sane n) reach)
/-- What is written at the end of a file comes behind what it held. -/
theorem Filled.appended {io' : IOManager} {cache' : ClusterChain} {need : Nat}
    (filled : Filled fs io l got f.fileSize data r io' cache') (roomed : Roomed fs io l got need r)
    (file : f.OnChain fs io.view l) (within : f.fileSize + n ≤ fs.clusterBytes * (l ++ got).length) (some : n ≤ data.length)
    (cut : n = data.length ∨ n = fs.clusterBytes * (l ++ got).length - f.fileSize) :
    (fs.chainBytes io'.view (l ++ got)).take (f.fileSize + n) = f.contents fs io.view l ++ data.take n := by
  have taken : (data.take n).length = n := List.length_take_of_le some
  have bytes := filled.bytes
  have same : data.take (fs.clusterBytes * (l ++ got).length - f.fileSize) = data.take n := by
    rw [List.take_eq_take_iff]
    omega
  have longer := take_splice (Nat.le_refl f.fileSize)
    (show f.fileSize + (data.take n).length ≤ (fs.chainBytes r.1.view (l ++ got)).length by rwa [chainBytes_length,taken])
  rw [taken,Nat.max_eq_right (by omega),← same,← bytes,roomed.held _ file.fits,same] at longer
  exact longer.trans (splice_end file.contents_length)

/-- A file on three clusters of the card, with its entry in the root directory. -/
def wideFile : File := ⟨⟨21,0⟩,true,true,1000,0,fsInitClusterChain 2⟩

/-- On a full volume `file_fwrite` writes as far as the chain goes and adds all of that to the size, also the
    part that it wrote over what the file held: from then on the size goes beyond the chain, unless the write
    began at the end of the file. -/
theorem fwrite_full (sane : fs.Sane) (whole : fs.type ≠ .fat12) (standard : fs.volumeId.bytesPerSector = 512)
    (idle : Idle io) (file : f.OnChain fs io.view l) (counted : f.cache.Counted l) (enough : l.length < rounds)
    (opened : f.isOpen = true ∧ f.isWrite = true) (small : fs.clusterBytes * l.length < 2 ^ 32)
    (sum : f.fileSize + (fs.clusterBytes * l.length - offset) < 2 ^ 32) (inside : offset ≤ f.fileSize) (limit : offset + data.length + fs.clusterBytes ≤ 2 ^ 32)
    (full : fs.free io.view = ∅) (beyond : fs.clusterBytes * l.length < offset + data.length) :
    ∃ io' f', f.fwrite fs rounds offset data io = some (io',f',fs.clusterBytes * l.length - offset) ∧
      f'.fileSize = f.fileSize + (fs.clusterBytes * l.length - offset) ∧
      (f'.fileSize ≤ fs.clusterBytes * l.length ↔ offset = f.fileSize) := by
  have fits := file.fits
  obtain ⟨r,got,called,roomed⟩ := fwrite_room sane whole standard idle file counted enough opened small inside limit
  obtain rfl : got = [] := by
    have length := roomed.length
    rw [full,Finset.card_empty,Nat.min_zero] at length
    exact List.length_eq_zero_iff.mp length
  obtain ⟨io2,cache2,-,moved⟩ := roomed.write sane whole fits inside
    (show offset + data.length < 2 ^ 32 by have positive := sane.clusterBytes_pos; omega) (roomed.none full)
  rw [List.append_nil,if_neg (Nat.not_le.mpr beyond)] at moved
  dsimp only at moved
  rw [Nat.mod_eq_of_lt sum] at moved
  refine ⟨_,_,called.trans (congrArg some moved),rfl,?_⟩
  dsimp only
  omega
theorem fwrite_full_ones :
    ∃ io' f', wideFile.fwrite wideVolume 2 500 (List.replicate 600 7) (iomanReset onesCard (Block.fill 0)) =
      some (io',f',524) ∧ f'.fileSize = 1524 := by
  have chain : wideVolume.Chain onesCard [2] := by
    refine ⟨⟨List.isChain_singleton 2,2,rfl,?_⟩,by decide⟩
    rw [onesCard_table (by decide)]
    decide
  have full : wideVolume.free onesCard = ∅ := by
    rw [free,Finset.filter_eq_empty_iff]
    intro c mem
    rw [onesCard_table (Nat.le_succ_of_le (Finset.mem_Icc.mp mem).2)]
    decide
  have length : (List.replicate 600 (7 : UInt8)).length = 600 := List.length_replicate
  have shown : (iomanReset onesCard (Block.fill 0)).view = onesCard := view_free rfl
  have limit : 500 + (List.replicate 600 (7 : UInt8)).length + wideVolume.clusterBytes ≤ 2 ^ 32 := by
    rw [length]
    decide
  have beyond : wideVolume.clusterBytes * [2].length < 500 + (List.replicate 600 (7 : UInt8)).length := by
    rw [length]
    decide
  have file : wideFile.OnChain wideVolume (iomanReset onesCard (Block.fill 0)).view [2] :=
    ⟨by rwa [shown],init_follows rfl,by decide⟩
  obtain ⟨io',f',got,size,-⟩ := fwrite_full wideVolume_sane (by decide) rfl (reset_idle onesCard (Block.fill 0)) file (.inl rfl)
    (show [2].length < 2 by decide) ⟨rfl,rfl⟩ (by decide) (by decide) (by decide) limit (shown.symm ▸ full) beyond
  exact ⟨io',f',got,size⟩
end
end Net2Modbus
