import Net2Modbus.FatAlloc
import Net2Modbus.Tiles

/-!
# The bytes of a chain

Where the clusters lie on the card, and what a chain of them holds: its sectors one after
the other. No sector is in two clusters or in the table, so that what is written into a
chain is seen in this chain alone. The chains are those of volumes of 16 and of 32 bits.
-/
namespace Net2Modbus
namespace FileSystem

section
variable (fs : FileSystem) (d : Card) (l : List Nat)

/-- A sector of a cluster on the card. -/
def dataSector (cluster s : Nat) : Nat := partGetRealLBA fs (fsClusterToSector fs cluster + s)
/-- The sectors of one cluster, and those of a chain. -/
def clusterSectors (cluster : Nat) : List Nat := (List.range fs.volumeId.sectorsPerCluster).map (fs.dataSector cluster)
def sectorsOf : List Nat := l.flatMap fs.clusterSectors
/-- What a chain holds. -/
def chainBytes : List UInt8 := (fs.sectorsOf l).flatMap fun a => (d a).cells
/-- The number of bytes in a cluster, as the loops over a file have it, and the number of clusters that so
    many bytes take up. -/
def clusterBytes : Nat := 512 * fs.volumeId.sectorsPerCluster
def clustersFor (n : Nat) : Nat := (n + fs.clusterBytes - 1) / fs.clusterBytes

end

section
variable {fs : FileSystem} {d d' : Card} {l l' : List Nat} {c c' s s' k : Nat} {a : Nat}

theorem Sane.dataSector_eq (sane : fs.Sane) (inside : fs.IsCluster c) (within : s < fs.volumeId.sectorsPerCluster) :
    fs.dataSector c s = fs.lbaBegin + fs.firstDataSector + ((c - 2) * fs.volumeId.sectorsPerCluster + s) ∧
      (c - 2) * fs.volumeId.sectorsPerCluster + s < fs.dataClusterCount * fs.volumeId.sectorsPerCluster := by
  obtain ⟨least,most⟩ := inside
  have card := sane.card
  have place : (c - 2) * fs.volumeId.sectorsPerCluster + s < fs.dataClusterCount * fs.volumeId.sectorsPerCluster :=
    calc (c - 2) * fs.volumeId.sectorsPerCluster + s < (c - 2) * fs.volumeId.sectorsPerCluster + fs.volumeId.sectorsPerCluster :=
          Nat.add_lt_add_left within _
      _ = (c - 2 + 1) * fs.volumeId.sectorsPerCluster := (Nat.succ_mul ..).symm
      _ ≤ fs.dataClusterCount * fs.volumeId.sectorsPerCluster := Nat.mul_le_mul_right _ (by omega)
  refine ⟨?_,place⟩
  have shift : (c + 2 ^ 32 - 2) * fs.volumeId.sectorsPerCluster =
      (c - 2) * fs.volumeId.sectorsPerCluster + fs.volumeId.sectorsPerCluster * 2 ^ 32 := by
    rw [show c + 2 ^ 32 - 2 = (c - 2) + 2 ^ 32 by omega]
    ring
  have start : fsClusterToSector fs c = fs.firstDataSector + (c - 2) * fs.volumeId.sectorsPerCluster := by
    show (fs.firstDataSector + (c + 2 ^ 32 - 2) * fs.volumeId.sectorsPerCluster) % 2 ^ 32 = _
    rw [shift,← Nat.add_assoc,Nat.add_mul_mod_self_right]
    exact Nat.mod_eq_of_lt (by omega)
  rw [dataSector,partGetRealLBA,start]
  rw [Nat.mod_eq_of_lt (by omega)]
  ring

/-- No two places in clusters are the same sector. -/
theorem dataSector_inj (sane : fs.Sane) (inside : fs.IsCluster c) (inside' : fs.IsCluster c')
    (within : s < fs.volumeId.sectorsPerCluster) (within' : s' < fs.volumeId.sectorsPerCluster)
    (same : fs.dataSector c s = fs.dataSector c' s') : c = c' ∧ s = s' := by
  rw [(sane.dataSector_eq inside within).1,(sane.dataSector_eq inside' within').1] at same
  have place := Nat.add_left_cancel same
  have rem := congrArg (· % fs.volumeId.sectorsPerCluster) place
  have quot := congrArg (· / fs.volumeId.sectorsPerCluster) place
  simp only [Nat.mul_comm _ fs.volumeId.sectorsPerCluster,Nat.mul_add_mod,Nat.mod_eq_of_lt within,Nat.mod_eq_of_lt within'] at rem
  simp only [Nat.mul_comm _ fs.volumeId.sectorsPerCluster,Nat.mul_add_div sane.spc,Nat.div_eq_of_lt within,
    Nat.div_eq_of_lt within',Nat.add_zero] at quot
  have least := inside.1
  have least' := inside'.1
  exact ⟨by omega,rem⟩
/-- The table and the clusters do not meet. -/
theorem dataSector_fat (sane : fs.Sane) (inside : fs.IsCluster c) (within : s < fs.volumeId.sectorsPerCluster) {i : Nat}
    (table : i < fs.fatSectorCount) : fs.dataSector c s ≠ fs.fatSector i := by
  obtain ⟨place,bound⟩ := sane.dataSector_eq inside within
  have before := sane.table_before table
  have card := sane.card
  rw [place,fatSector,partGetRealLBA,Nat.mod_eq_of_lt (by omega)]
  omega

theorem mem_sectorsOf : a ∈ fs.sectorsOf l ↔ ∃ c ∈ l, ∃ s < fs.volumeId.sectorsPerCluster, fs.dataSector c s = a := by
  simp only [sectorsOf,clusterSectors,List.mem_flatMap,List.mem_map,List.mem_range]
theorem sectorsOf_fat (sane : fs.Sane) (inside : ∀ c ∈ l, fs.IsCluster c) (mem : a ∈ fs.sectorsOf l) :
    ∀ i < fs.fatSectorCount, a ≠ fs.fatSector i := by
  obtain ⟨c,here,s,within,rfl⟩ := mem_sectorsOf.mp mem
  intro i table
  exact dataSector_fat sane (inside c here) within table
theorem sectorsOf_disjoint (sane : fs.Sane) (inside : ∀ c ∈ l, fs.IsCluster c) (inside' : ∀ c ∈ l', fs.IsCluster c)
    (apart : l.Disjoint l') : (fs.sectorsOf l).Disjoint (fs.sectorsOf l') := by
  intro a mem mem'
  obtain ⟨c,here,s,within,rfl⟩ := mem_sectorsOf.mp mem
  obtain ⟨c',here',s',within',same⟩ := mem_sectorsOf.mp mem'
  obtain ⟨rfl,-⟩ := dataSector_inj sane (inside' c' here') (inside c here) within' within same
  exact apart here here'
theorem sectorsOf_nodup (sane : fs.Sane) (inside : ∀ c ∈ l, fs.IsCluster c) (nodup : l.Nodup) : (fs.sectorsOf l).Nodup := by
  rw [sectorsOf,List.nodup_flatMap]
  constructor
  · intro c mem
    refine (List.nodup_map_iff_inj_on List.nodup_range).mpr ?_
    intro s within s' within' same
    rw [List.mem_range] at within within'
    exact (dataSector_inj sane (inside c mem) (inside c mem) within within' same).2
  · refine nodup.imp_of_mem ?_
    intro c c' mem mem' differ
    rw [Function.onFun,List.disjoint_left]
    intro a here here'
    obtain ⟨s,within,rfl⟩ := List.mem_map.mp here
    obtain ⟨s',within',same⟩ := List.mem_map.mp here'
    rw [List.mem_range] at within within'
    exact differ (dataSector_inj sane (inside c mem) (inside c' mem') within within' same.symm).1
theorem sectorsOf_length : (fs.sectorsOf l).length = fs.volumeId.sectorsPerCluster * l.length :=
  flatMap_length fun _ => by rw [clusterSectors,List.length_map,List.length_range]
/-- The sector of a place in a chain. -/
theorem sectorsOf_getElem? (sane : fs.Sane) (here : l[k / fs.volumeId.sectorsPerCluster]? = some c) :
    (fs.sectorsOf l)[k]? = some (fs.dataSector c (k % fs.volumeId.sectorsPerCluster)) := by
  have bound := Nat.mod_lt k sane.spc
  rw [sectorsOf,getElem?_flatMap (fun _ => by rw [clusterSectors,List.length_map,List.length_range]) sane.spc,here]
  simp [clusterSectors,bound]
theorem sectorsOf_append : fs.sectorsOf (l ++ l') = fs.sectorsOf l ++ fs.sectorsOf l' := List.flatMap_append
theorem chainBytes_append : fs.chainBytes d (l ++ l') = fs.chainBytes d l ++ fs.chainBytes d l' := by
  rw [chainBytes,sectorsOf_append,List.flatMap_append]
  rfl
theorem chainBytes_length : (fs.chainBytes d l).length = fs.clusterBytes * l.length := by
  rw [chainBytes,flatMap_length fun a => (d a).size_eq,sectorsOf_length,clusterBytes,Nat.mul_assoc]
theorem chainBytes_congr (same : ∀ a ∈ fs.sectorsOf l, d' a = d a) : fs.chainBytes d' l = fs.chainBytes d l := by
  apply List.flatMap_congr
  intro a mem
  rw [same a mem]

theorem Sane.clusterBytes_pos (sane : fs.Sane) : 0 < fs.clusterBytes := Nat.mul_pos (by decide) sane.spc
theorem clustersFor_le (sane : fs.Sane) {n : Nat} (fits : n ≤ fs.clusterBytes * k) : fs.clustersFor n ≤ k := by
  have positive := sane.clusterBytes_pos
  apply Nat.le_of_lt_succ
  rw [clustersFor,Nat.div_lt_iff_lt_mul positive,Nat.succ_mul,Nat.mul_comm]
  omega
theorem le_clustersFor (sane : fs.Sane) (n : Nat) : n ≤ fs.clusterBytes * fs.clustersFor n := by
  have positive := sane.clusterBytes_pos
  have split := Nat.div_add_mod (n + fs.clusterBytes - 1) fs.clusterBytes
  have cut := Nat.mod_lt (n + fs.clusterBytes - 1) positive
  rw [clustersFor]
  omega

/-- The table is in its sectors. -/
theorem table_frame (sane : fs.Sane) (same : ∀ i < fs.fatSectorCount, d' (fs.fatSector i) = d (fs.fatSector i)) :
    fs.table d' = fs.table d := by
  funext c
  by_cases known : c ≤ fs.dataClusterCount + 1
  · have inside := sane.entry_inside known
    have byte (k : Nat) (bound : k < 512 * fs.fatSectorCount) : fs.fatByte d' k = fs.fatByte d k := by
      rw [fatByte,fatByte,same (k / 512) (by omega)]
    rw [table_of_le known,table_of_le known]
    unfold entry
    unfold entryEnd at inside
    cases type : fs.type with
    | fat12 =>
      simp only [type] at inside ⊢
      rw [byte _ (by omega),byte _ inside]
    | fat16 =>
      simp only [type] at inside ⊢
      rw [byte _ inside,byte (2 * c) (by omega)]
    | fat32 =>
      simp only [type] at inside ⊢
      rw [byte _ inside,byte (4 * c + 2) (by omega),byte (4 * c + 1) (by omega),byte (4 * c) (by omega)]
  · rw [table,table,if_neg known,if_neg known]
theorem Chain.frame (chain : fs.Chain d l) (sane : fs.Sane)
    (same : ∀ i < fs.fatSectorCount, d' (fs.fatSector i) = d (fs.fatSector i)) : fs.Chain d' l := by
  refine ⟨?_,chain.inside⟩
  rw [table_frame sane same]
  exact chain.linked
theorem free_frame (sane : fs.Sane) (same : ∀ i < fs.fatSectorCount, d' (fs.fatSector i) = d (fs.fatSector i)) :
    fs.free d' = fs.free d := by
  rw [free,free,table_frame sane same]

end
end FileSystem
end Net2Modbus
