import Net2Modbus.FatFile
import Net2Modbus.TftpServer

/-!
# Files that are open at the same time

Several open files of one `EmbeddedFileSystem`, and calls on them in any order. As long as
the volume has room, each of them is to its user a list of bytes with a position, as the
servers take it to be, whatever is done to the others. The volume has 16 or 32 bits. Two
`EmbeddedFileSystem`s of one card have a buffer each and do not know of each other's.
-/
namespace Net2Modbus
universe u

section
variable {Name : Type u} [DecidableEq Name]

/-- The files that are open through one `EmbeddedFileSystem`, which has the one buffer. -/
structure OpenFiles (Name : Type u) where
  io : IOManager
  files : Name → File
/-- The same files as lists of bytes, with the clusters that each of them takes up and how many are free. -/
structure ByteFiles (Name : Type u) where
  files : Name → EfsFile
  clusters : Name → Nat
  free : Nat

/-- A file of the card holds a list of bytes, on a chain. -/
structure Backed (fs : FileSystem) (d : Card) (e : EfsFile) (clusters : Nat) (f : File) (l : List Nat) : Prop where
  file : f.OnChain fs d l
  counted : f.cache.Counted l
  opened : f.isOpen = true
  small : fs.clusterBytes * l.length < 2 ^ 32
  inside : f.filePtr ≤ f.fileSize
  clusters : clusters = l.length
  same : e = ⟨true,f.isWrite,f.contents fs d l,f.filePtr⟩
/-- All files do, each on a chain of its own. -/
structure Backs (fs : FileSystem) (a : ByteFiles Name) (s : OpenFiles Name) (l : Name → List Nat) : Prop where
  idle : s.io.Idle
  each : ∀ i, Backed fs s.io.view (a.files i) (a.clusters i) (s.files i) (l i)
  apart : ∀ i j, i ≠ j → (l i).Disjoint (l j)
  free : a.free = (fs.free s.io.view).card

open IOManager FileSystem
variable {fs : FileSystem} {a : ByteFiles Name} {s : OpenFiles Name} {l : Name → List Nat} {i : Name} {size pos : Nat}
  {data : List UInt8}

omit [DecidableEq Name] in
theorem FileSystem.Chain.rounds {d : Card} {chain : List Nat} (linked : fs.Chain d chain) :
    chain.length < fs.dataClusterCount + 1 := by
  have few := linked.linked.length_le (show ∀ c ∈ chain, c ∈ List.range' 2 fs.dataClusterCount by
    intro c mem
    obtain ⟨least,most⟩ := linked.inside c mem
    exact List.mem_range'_1.mpr ⟨least,by omega⟩)
  rw [List.length_range'] at few
  exact Nat.lt_succ_of_le few
/-- What a call on one file leaves of all of them. -/
theorem Backs.call (backs : Backs fs a s l) {io' : IOManager} {e' : EfsFile} {k' free' : Nat} {f' : File} {l' : List Nat}
    (idle : Idle io') (backed : Backed fs io'.view e' k' f' l') (aside : Aside fs s.io.view io'.view (l i) l')
    (left : free' = (fs.free io'.view).card) :
    Backs fs ⟨Function.update a.files i e',Function.update a.clusters i k',free'⟩ ⟨io',Function.update s.files i f'⟩
      (Function.update l i l') := by
  have other (j : Name) (differ : j ≠ i) := aside.others (l j) (backs.each j).file.chain (backs.apart i j (Ne.symm differ))
  refine ⟨idle,?_,?_,left⟩
  · intro j
    dsimp only
    by_cases here : j = i
    · subst here
      simpa only [Function.update_self] using backed
    · obtain ⟨chain,-,bytes⟩ := other j here
      obtain ⟨file,counted,opened,small,inside,clusters,same⟩ := backs.each j
      simp only [Function.update_of_ne here]
      exact ⟨⟨chain,file.follows,file.fits⟩,counted,opened,small,inside,clusters,by rw [same,File.contents,File.contents,bytes]⟩
  · intro j k differ
    by_cases here : j = i
    · subst here
      rw [Function.update_self,Function.update_of_ne (Ne.symm differ)]
      exact (other k (Ne.symm differ)).2.1
    · rw [Function.update_of_ne here]
      by_cases there : k = i
      · subst there
        rw [Function.update_self]
        exact (other j here).2.1.symm
      · rw [Function.update_of_ne there]
        exact backs.apart j k differ

section
variable {io : IOManager} {d : Card} {e : EfsFile} {k n : Nat} {f : File} {chain : List Nat}

omit [DecidableEq Name] in
theorem Backed.read (backed : Backed fs io.view e k f chain) (sane : fs.Sane) (whole : fs.type ≠ .fat12) (idle : Idle io)
    (room : e.filePtr + n < 2 ^ 32) :
    ∃ io' f', f.read fs n io = (io',f',(fileRead true n e).2) ∧ Idle io' ∧ io'.view = io.view ∧
      Backed fs io.view (fileRead true n e).1 k f' chain := by
  obtain ⟨file,counted,opened,small,inside,clusters,rfl⟩ := backed
  have fits := file.fits
  have length := file.contents_length
  obtain ⟨io',cache',got,idle',shown,follows,kept⟩ := fread_spec sane whole idle file opened
    (show f.filePtr + n < 2 ^ 32 from room)
  unfold File.read fileRead
  rw [if_pos ⟨rfl,rfl⟩]
  simp only [got]
  refine ⟨io',_,rfl,idle',shown,⟨file.chain,follows,fits⟩,?_,opened,small,?_,clusters,?_⟩
  · rw [ClusterChain.Counted]
    dsimp only
    rwa [kept]
  · rw [List.length_take,List.length_drop,length,Nat.mod_eq_of_lt (by omega)]
    dsimp only
    omega
  · rw [List.length_take,List.length_drop,length,Nat.mod_eq_of_lt (by omega)]
    rfl
omit [DecidableEq Name] in
theorem Backed.write (backed : Backed fs io.view e k f chain) (sane : fs.Sane) (whole : fs.type ≠ .fat12)
    (standard : fs.volumeId.bytesPerSector = 512) (idle : Idle io) {more : Nat}
    (added : more = if e.isWrite = true then fs.clustersFor (e.filePtr + data.length) - k else 0)
    (room : e.isWrite = true → e.filePtr + data.length + fs.clusterBytes ≤ 2 ^ 32 ∧
      fs.clustersFor (e.filePtr + data.length) ≤ k + (fs.free io.view).card) :
    ∃ io' f' l', f.write fs (fs.dataClusterCount + 1) data io = some (io',f',(fileWrite data.length data e).2.length) ∧
      Idle io' ∧ Backed fs io'.view (fileWrite data.length data e).1 (k + more) f' l' ∧ Aside fs io.view io'.view chain l' ∧
      (fs.free io.view).card - more = (fs.free io'.view).card := by
  obtain ⟨file,counted,opened,small,inside,rfl,rfl⟩ := backed
  have positive := sane.clusterBytes_pos
  have fits := file.fits
  have length := file.contents_length
  unfold File.write fileWrite
  by_cases writable : f.isWrite = true
  · obtain ⟨limit,room⟩ := room writable
    dsimp only at limit room added
    obtain ⟨io',f',l',got,written⟩ := fwrite_spec sane whole standard idle file counted file.chain.rounds ⟨opened,writable⟩
      small inside limit room
    have same := written.same
    have grown := written.length
    have aside := written.aside
    have holds := written.contents
    have free := aside.free
    rw [if_pos writable] at added
    rw [got,if_pos ⟨rfl,writable⟩,List.take_length]
    refine ⟨io',_,l',rfl,written.idle,⟨⟨written.file.chain,written.file.follows,written.file.fits⟩,written.counted,?_,?_,?_,?_,?_⟩,
      aside,by omega⟩
    · rw [same]
      exact opened
    · have few : fs.clusterBytes * fs.clustersFor (f.filePtr + data.length) < 2 ^ 32 := by
        have cut := Nat.div_mul_le_self (f.filePtr + data.length + fs.clusterBytes - 1) fs.clusterBytes
        rw [clustersFor,Nat.mul_comm]
        omega
      rw [grown]
      rcases Nat.le_total chain.length (fs.clustersFor (f.filePtr + data.length)) with le | le
      · rwa [Nat.max_eq_right le]
      · rwa [Nat.max_eq_left le]
    · rw [same]
      dsimp only
      rw [Nat.mod_eq_of_lt (by omega)]
      exact Nat.le_max_right ..
    · omega
    · have writes : f'.isWrite = f.isWrite := by rw [same]
      dsimp only
      rw [Nat.mod_eq_of_lt (by omega),writes]
      exact congrArg (fun bytes => EfsFile.mk true f.isWrite bytes (f.filePtr + data.length)) holds.symm
  · rw [if_neg writable] at added
    unfold File.fwrite
    rw [if_pos (.inr (by simpa using writable)),if_neg fun both => writable both.2]
    refine ⟨io,_,chain,rfl,idle,?_,Aside.refl ..,by rw [added,Nat.sub_zero]⟩
    refine ⟨⟨file.chain,file.follows,fits⟩,counted,opened,small,?_,by rw [added,Nat.add_zero],?_⟩
    · dsimp only
      rwa [Nat.add_zero,Nat.mod_eq_of_lt (by omega)]
    · dsimp only
      rw [Nat.add_zero,Nat.mod_eq_of_lt (by omega)]
end

end
end Net2Modbus
