import Net2Modbus.FatTable
import Net2Modbus.Linked

/-!
# Cluster chains

The chains of the table as `fat.c` follows them. A file keeps a place in its chain, with
the number of clusters that are known to follow it one by one on the disc, and looks
clusters up from there. Wherever a file has been, a lookup finds what following the chain
from its first cluster finds, on volumes of 16 and of 32 bits. Volumes of 12 bits are left
out from here on: where an entry crosses the end of a sector, the nested fetch of its second
half leaves the next sector in the only buffer, and the loop below goes on in that.
-/
namespace Net2Modbus

/-- `ClusterChain` -/
structure ClusterChain where
  linear : Nat
  logicCluster : Nat
  discCluster : Nat
  firstCluster : Nat
  lastCluster : Nat
  clusterCount : Nat
  deriving DecidableEq, Repr

/-- `fs_initClusterChain` -/
def fsInitClusterChain (cluster : Nat) : ClusterChain := ⟨0,0,cluster,cluster,0,0⟩

/-- A bound on the rounds of the loop below: a sector has fewer entries. -/
@[irreducible] def fatSectorRounds : Nat := 512
/-- The loop of `fat_getNextClusterChain`, which counts how long the numbers go up one by one within
    the sector that is in use. -/
def fatLinearRun (fs : FileSystem) (sect : Nat) : Nat → Nat → Nat → Nat → IOManager → IOManager × Nat
  | 0,_,_,lin,io => (io,lin)
  | rounds + 1,lr,nlr,lin,io =>
    if (nlr + 2 ^ 32 - 1) % 2 ^ 32 = lr ∧ fatGetSectorAddressFatEntry fs nlr = sect then
      let entry := fatGetNextClusterAddressWBuf fs nlr io
      fatLinearRun fs sect rounds nlr entry.2 (lin + 1) entry.1
    else (io,lin)
/-- `fat_getNextClusterChain`, and whether it returns 0. The count of the
    loop is kept in 8 bits. -/
def fatGetNextClusterChain (fs : FileSystem) (cache : ClusterChain) (io : IOManager) : IOManager × ClusterChain × Bool :=
  if cache.discCluster = 0 then (io,cache,false)
  else
    let sect := fatGetSectorAddressFatEntry fs cache.discCluster
    let entry := fatGetNextClusterAddressWBuf fs cache.discCluster (partGetSect fs sect .readonly io)
    if fatIsEocMarker fs entry.2 then (iomanReleaseSector entry.1,{ cache with lastCluster := cache.discCluster },false)
    else
      let run := fatLinearRun fs sect fatSectorRounds ((entry.2 + 2 ^ 32 - 1) % 2 ^ 32) entry.2 0 entry.1
      (iomanReleaseSector run.1,
        { cache with discCluster := entry.2, logicCluster := cache.logicCluster + 1, linear := (run.2 - 1) % 256 },true)
/-- The loop of `fat_LogicToDiscCluster`, which goes one cluster further in each round. -/
def fatAdvance (fs : FileSystem) : Nat → ClusterChain → IOManager → IOManager × ClusterChain × Bool
  | 0,cache,io => (io,cache,true)
  | rounds + 1,cache,io =>
    if cache.linear ≠ 0 then
      fatAdvance fs rounds { cache with
        linear := cache.linear - 1, logicCluster := cache.logicCluster + 1, discCluster := cache.discCluster + 1 } io
    else
      let next := fatGetNextClusterChain fs cache io
      if next.2.2 = true then fatAdvance fs rounds next.2.1 next.1 else (next.1,next.2.1,false)
/-- The start of `fat_LogicToDiscCluster`: to go back is to begin again. -/
def fatRewind (cache : ClusterChain) (logic : Nat) : ClusterChain :=
  if logic < cache.logicCluster ∨ cache.discCluster = 0 then
    { cache with logicCluster := 0, discCluster := cache.firstCluster, linear := 0 }
  else cache
/-- `fat_LogicToDiscCluster`, and whether it returns 0. -/
def fatLogicToDiscCluster (fs : FileSystem) (cache : ClusterChain) (logic : Nat) (io : IOManager) :
    IOManager × ClusterChain × Bool :=
  fatAdvance fs (logic - (fatRewind cache logic).logicCluster) (fatRewind cache logic) io

/-- The loop of `fs_getLastCluster`; it does not end in a chain that does not. -/
def fsLastLoop (fs : FileSystem) : Nat → ClusterChain → IOManager → Option (IOManager × ClusterChain)
  | 0,_,_ => none
  | rounds + 1,cache,io =>
    let next := fatGetNextClusterChain fs cache io
    let cache := next.2.1
    if next.2.2 = true then
      fsLastLoop fs rounds { cache with
        logicCluster := cache.logicCluster + cache.linear, discCluster := cache.discCluster + cache.linear, linear := 0 } next.1
    else some (next.1,cache)
/-- `fs_getLastCluster`; what it returns is left in `lastCluster`. -/
def fsGetLastCluster (fs : FileSystem) (rounds : Nat) (cache : ClusterChain) (io : IOManager) :
    Option (IOManager × ClusterChain) :=
  let cache := if cache.discCluster = 0 then { cache with discCluster := cache.firstCluster, logicCluster := 0 } else cache
  if cache.lastCluster = 0 then fsLastLoop fs rounds cache io else some (io,cache)

/-- The loop of `fat_countClustersInChain`; it does not end in a chain that does not. -/
def fatCountLoop (fs : FileSystem) : Nat → ClusterChain → Nat → IOManager → Option (IOManager × Nat)
  | 0,_,_,_ => none
  | rounds + 1,cache,c,io =>
    let look := fatLogicToDiscCluster fs cache c io
    if look.2.2 = true then fatCountLoop fs rounds look.2.1 (c + 1) look.1 else some (look.1,c)
/-- `fat_countClustersInChain` -/
def fatCountClustersInChain (fs : FileSystem) (rounds firstcluster : Nat) (io : IOManager) : Option (IOManager × Nat) :=
  if firstcluster ≤ 1 then some (io,0) else fatCountLoop fs rounds ⟨0,0,0,firstcluster,0,0⟩ 0 io

/-- A chain of clusters on the disc. -/
structure FileSystem.Chain (fs : FileSystem) (d : Card) (l : List Nat) : Prop where
  linked : Linked (fs.table d) (fatIsEocMarker fs) l
  inside : ∀ c ∈ l, fs.IsCluster c

/-- What a place in a chain knows of it is so: the first cluster, the cluster it is at, which is not valid
    when it is 0, and those that follow one by one, and the last cluster. -/
structure ClusterChain.Follows (cache : ClusterChain) (l : List Nat) : Prop where
  first : l.head? = some cache.firstCluster
  run : cache.discCluster ≠ 0 → ∀ i ≤ cache.linear, l[cache.logicCluster + i]? = some (cache.discCluster + i)
  fresh : cache.discCluster = 0 → cache.linear = 0
  last : cache.lastCluster = 0 ∨ l.getLast? = some cache.lastCluster
/-- The length of the chain is right, where it is known. -/
def ClusterChain.Counted (cache : ClusterChain) (l : List Nat) : Prop := cache.clusterCount = 0 ∨ cache.clusterCount = l.length

section
open IOManager FileSystem
variable {fs : FileSystem} {disc : Card} {io : IOManager} {l : List Nat} {cache : ClusterChain} {c d j k n : Nat}

theorem FileSystem.Chain.le (chain : fs.Chain io.view l) (here : l[k]? = some c) : c ≤ fs.dataClusterCount + 1 :=
  (chain.inside c (List.mem_of_getElem? here)).2
theorem FileSystem.Chain.positive (chain : fs.Chain io.view l) (here : l[k]? = some c) : c ≠ 0 := by
  have least := (chain.inside c (List.mem_of_getElem? here)).1
  omega
theorem FileSystem.Chain.entry (chain : fs.Chain io.view l) (here : l[k]? = some c) :
    fs.entry io.view c = fs.table io.view c :=
  (table_of_le (chain.le here)).symm
theorem ClusterChain.Follows.here (follows : cache.Follows l) (valid : cache.discCluster ≠ 0) :
    l[cache.logicCluster]? = some cache.discCluster :=
  follows.run valid 0 (Nat.zero_le _)

/-- The clusters of a chain do not look free. -/
theorem FileSystem.Chain.busy (chain : fs.Chain disc l) (sane : fs.Sane) (mem : c ∈ l) : fs.table disc c ≠ 0 := by
  obtain ⟨i,bound,rfl⟩ := List.mem_iff_getElem.mp mem
  have here := List.getElem?_eq_getElem bound
  cases there : l[i + 1]? with
  | none =>
    have stop := chain.linked.stop here there
    intro zero
    rw [zero] at stop
    exact sane.on (Nat.zero_le _) stop
  | some d =>
    obtain ⟨leads,-⟩ := chain.linked.link here there
    have least := (chain.inside d (List.mem_of_getElem? there)).1
    rw [leads]
    omega

/-- What the loop counts are clusters that follow one by one. The step from a cluster to the number after it
    is a step of the chain, because that number ends no chain. -/
theorem linearRun_spec (lr nlr : Nat) (sane : fs.Sane) (whole : fs.type ≠ .fat12) (chain : fs.Chain io.view l) {sect : Nat}
    (o : Open (partGetRealLBA fs sect) io) (rounds : Nat)
    (next : (nlr + 2 ^ 32 - 1) % 2 ^ 32 = lr → l[j + n]? = some nlr ∧ nlr = d + n)
    (before : ∀ i < n, l[j + i]? = some (d + i)) :
    (fatLinearRun fs sect rounds lr nlr n io).1 = io ∧
      ∀ i < (fatLinearRun fs sect rounds lr nlr n io).2, l[j + i]? = some (d + i) := by
  induction rounds generalizing lr nlr n with
  | zero => exact ⟨rfl,before⟩
  | succ rounds ih =>
    unfold fatLinearRun
    by_cases on : (nlr + 2 ^ 32 - 1) % 2 ^ 32 = lr ∧ fatGetSectorAddressFatEntry fs nlr = sect
    · obtain ⟨here,place⟩ := next on.1
      have bound := chain.le here
      rw [if_pos on,getWBuf_open bound sane whole (by rwa [on.2])]
      refine ih _ _ ?_ ?_
      · intro up
        have small := entry_lt fs io.view nlr
        have ends := sane.numbers.1
        cases there : l[j + (n + 1)]? with
        | none =>
          have stop := chain.linked.stop here there
          rw [← chain.entry here] at stop
          exact absurd stop (sane.on (by omega))
        | some x =>
          obtain ⟨leads,-⟩ := chain.linked.link here there
          rw [← chain.entry here] at leads
          exact ⟨congrArg some leads.symm,by omega⟩
      · intro i less
        by_cases now : i < n
        · exact before i now
        · obtain rfl : i = n := by omega
          rw [here,place]
    · rw [if_neg on]
      exact ⟨rfl,before⟩

/-- A step to the next cluster. -/
theorem getNextChain_next (sane : fs.Sane) (whole : fs.type ≠ .fat12) (idle : Idle io) (chain : fs.Chain io.view l)
    (here : l[k]? = some cache.discCluster) (there : l[k + 1]? = some d) :
    ∃ io' m, fatGetNextClusterChain fs cache io =
        (io',{ cache with discCluster := d, logicCluster := cache.logicCluster + 1, linear := m },true) ∧
      Idle io' ∧ io'.view = io.view ∧ ∀ i ≤ m, l[k + 1 + i]? = some (d + i) := by
  have valid := chain.positive here
  obtain ⟨io1,got,o,ready,shown,-⟩ := getSector_idle idle
    (partGetRealLBA fs (fatGetSectorAddressFatEntry fs cache.discCluster)) .readonly
  obtain ⟨idle',shown'⟩ := releaseSector_idle ready
  obtain ⟨leads,on⟩ := chain.linked.link here there
  rw [← chain.entry here] at leads
  have read := getWBuf_open (chain.le here) sane whole o
  rw [shown,leads] at read
  obtain ⟨same,counted⟩ := linearRun_spec ((d + 2 ^ 32 - 1) % 2 ^ 32) d (j := k + 1) (n := 0)
    (d := d) sane whole (shown ▸ chain) o fatSectorRounds (fun _ => ⟨there,rfl⟩) (fun _ less => absurd less (Nat.not_lt_zero _))
  unfold fatGetNextClusterChain partGetSect
  simp only [if_neg valid,got,read,if_neg on]
  generalize fatLinearRun fs (fatGetSectorAddressFatEntry fs cache.discCluster) fatSectorRounds ((d + 2 ^ 32 - 1) % 2 ^ 32) d 0 io1 =
    run at same counted
  refine ⟨iomanReleaseSector io1,(run.2 - 1) % 256,?_,idle',shown'.trans shown,?_⟩
  · rw [same]
  · intro i bound
    by_cases none : i = 0
    · rw [none]
      exact there
    · have cut := Nat.mod_le (run.2 - 1) 256
      exact counted i (by omega)
/-- There is no step beyond the last cluster, which is remembered. -/
theorem getNextChain_last (sane : fs.Sane) (whole : fs.type ≠ .fat12) (idle : Idle io) (chain : fs.Chain io.view l)
    (here : l[k]? = some cache.discCluster) (beyond : l[k + 1]? = none) :
    ∃ io', fatGetNextClusterChain fs cache io = (io',{ cache with lastCluster := cache.discCluster },false) ∧
      Idle io' ∧ io'.view = io.view := by
  have valid := chain.positive here
  obtain ⟨io1,got,o,ready,shown,-⟩ := getSector_idle idle
    (partGetRealLBA fs (fatGetSectorAddressFatEntry fs cache.discCluster)) .readonly
  obtain ⟨idle',shown'⟩ := releaseSector_idle ready
  have stop := chain.linked.stop here beyond
  rw [← chain.entry here,← shown] at stop
  have read := getWBuf_open (chain.le here) sane whole o
  refine ⟨iomanReleaseSector io1,?_,idle',shown'.trans shown⟩
  unfold fatGetNextClusterChain partGetSect
  simp only [if_neg valid,got,read,if_pos stop]

/-- What a lookup leaves: nothing changes on the disc, and the place is at the cluster that was looked for,
    or at the last one when there are fewer. -/
structure Looked (io : IOManager) (cache : ClusterChain) (l : List Nat) (k : Nat) (r : IOManager × ClusterChain × Bool) :
    Prop where
  idle : Idle r.1
  view : r.1.view = io.view
  follows : r.2.1.Follows l
  valid : r.2.1.discCluster ≠ 0
  found : r.2.2 = true ↔ k < l.length
  place : r.2.1.logicCluster = min k (l.length - 1)
  kept : r.2.1.clusterCount = cache.clusterCount

theorem ClusterChain.Follows.inside (follows : cache.Follows l) (valid : cache.discCluster ≠ 0) :
    cache.logicCluster < l.length :=
  (List.getElem?_eq_some_iff.mp (follows.here valid)).1
/-- A place that goes on to the next cluster without a look at the table. -/
theorem ClusterChain.Follows.slide (follows : cache.Follows l) (more : cache.linear ≠ 0) (valid : cache.discCluster ≠ 0) :
    ({ cache with
        linear := cache.linear - 1, logicCluster := cache.logicCluster + 1, discCluster := cache.discCluster + 1 } :
      ClusterChain).Follows l := by
  refine ⟨follows.first,?_,fun none => absurd none (Nat.succ_ne_zero _),follows.last⟩
  intro _ i bound
  have next := follows.run valid (i + 1) (by dsimp only at bound; omega)
  rwa [Nat.add_comm i,← Nat.add_assoc,← Nat.add_assoc] at next
theorem ClusterChain.Follows.step (follows : cache.Follows l) (valid : d ≠ 0) {m : Nat}
    (run : ∀ i ≤ m, l[cache.logicCluster + 1 + i]? = some (d + i)) :
    ({ cache with discCluster := d, logicCluster := cache.logicCluster + 1, linear := m } : ClusterChain).Follows l :=
  ⟨follows.first,fun _ => run,fun none => absurd none valid,follows.last⟩
theorem ClusterChain.Follows.atLast (follows : cache.Follows l) (valid : cache.discCluster ≠ 0)
    (beyond : l[cache.logicCluster + 1]? = none) :
    ({ cache with lastCluster := cache.discCluster } : ClusterChain).Follows l := by
  have inside := follows.inside valid
  rw [List.getElem?_eq_none_iff] at beyond
  refine ⟨follows.first,follows.run,follows.fresh,.inr ?_⟩
  rw [List.getLast?_eq_getElem?,show l.length - 1 = cache.logicCluster by omega]
  exact follows.here valid

theorem advance_spec (sane : fs.Sane) (whole : fs.type ≠ .fat12) (rounds : Nat) (idle : Idle io)
    (chain : fs.Chain io.view l) (follows : cache.Follows l) (valid : cache.discCluster ≠ 0) :
    Looked io cache l (cache.logicCluster + rounds) (fatAdvance fs rounds cache io) := by
  have inside := follows.inside valid
  induction rounds generalizing cache io with
  | zero =>
    refine ⟨idle,rfl,follows,valid,?_,?_,rfl⟩
    · exact iff_of_true rfl inside
    · show cache.logicCluster = _
      omega
  | succ rounds ih =>
    rw [fatAdvance]
    by_cases more : cache.linear = 0
    · rw [if_neg (not_not.mpr more)]
      cases there : l[cache.logicCluster + 1]? with
      | none =>
        obtain ⟨io',stepped,idle',shown⟩ := getNextChain_last sane whole idle chain (follows.here valid) there
        have beyond := there
        rw [List.getElem?_eq_none_iff] at beyond
        simp only [stepped,Bool.false_eq_true,if_false]
        refine ⟨idle',shown,follows.atLast valid there,valid,?_,?_,rfl⟩
        · exact iff_of_false Bool.false_ne_true (by omega)
        · show cache.logicCluster = _
          omega
      | some d =>
        obtain ⟨io',m,stepped,idle',shown,run⟩ := getNextChain_next sane whole idle chain (follows.here valid) there
        have valid' := chain.positive there
        simp only [stepped,if_true]
        have looked := ih idle' (shown ▸ chain) (follows.step valid' run) valid'
          (List.getElem?_eq_some_iff.mp there).1
        rw [Nat.add_right_comm] at looked
        exact ⟨looked.idle,looked.view.trans shown,looked.follows,looked.valid,looked.found,looked.place,looked.kept⟩
    · rw [if_pos more]
      have next := follows.run valid 1 (by omega)
      have looked := ih idle chain (follows.slide more valid) (Nat.succ_ne_zero _)
        (List.getElem?_eq_some_iff.mp next).1
      rw [Nat.add_right_comm] at looked
      exact ⟨looked.idle,looked.view,looked.follows,looked.valid,looked.found,looked.place,looked.kept⟩
theorem rewind_spec (follows : cache.Follows l) (chain : fs.Chain io.view l) (k : Nat) :
    (fatRewind cache k).Follows l ∧ (fatRewind cache k).discCluster ≠ 0 ∧ (fatRewind cache k).logicCluster ≤ k ∧
      (fatRewind cache k).clusterCount = cache.clusterCount := by
  unfold fatRewind
  by_cases back : k < cache.logicCluster ∨ cache.discCluster = 0
  · rw [if_pos back]
    have first := follows.first
    rw [List.head?_eq_getElem?] at first
    refine ⟨⟨follows.first,?_,fun _ => rfl,follows.last⟩,chain.positive first,Nat.zero_le k,rfl⟩
    intro _ i bound
    obtain rfl := Nat.le_zero.mp bound
    exact first
  · rw [if_neg back]
    rw [not_or] at back
    exact ⟨follows,back.2,Nat.le_of_not_lt back.1,rfl⟩
theorem logicToDisc_spec (sane : fs.Sane) (whole : fs.type ≠ .fat12) (idle : Idle io) (chain : fs.Chain io.view l)
    (follows : cache.Follows l) (k : Nat) : Looked io cache l k (fatLogicToDiscCluster fs cache k io) := by
  obtain ⟨follows',valid,before,kept⟩ := rewind_spec follows chain k
  have looked := advance_spec sane whole (k - (fatRewind cache k).logicCluster) idle chain follows' valid
  rw [Nat.add_sub_cancel' before] at looked
  exact ⟨looked.idle,looked.view,looked.follows,looked.valid,looked.found,looked.place,looked.kept.trans kept⟩
/-- The cluster that a lookup finds. -/
theorem Looked.cluster {r : IOManager × ClusterChain × Bool} (looked : Looked io cache l k r) (found : r.2.2 = true) :
    l[k]? = some r.2.1.discCluster := by
  have here := looked.follows.here looked.valid
  have bound := looked.found.mp found
  rwa [looked.place,Nat.min_eq_left (by omega)] at here

theorem init_follows (first : l.head? = some c) : (fsInitClusterChain c).Follows l := by
  refine ⟨first,?_,fun _ => rfl,.inl rfl⟩
  intro _ i bound
  obtain rfl := Nat.le_zero.mp bound
  rwa [List.head?_eq_getElem?] at first

/-- Lookups in a chain, one after the other. -/
def chainLookup (fs : FileSystem) : Machine (IOManager × ClusterChain) Nat (Option Nat) where
  enabled _ _ := True
  step s k :=
    let look := fatLogicToDiscCluster fs s.2 k s.1
    ((look.1,look.2.1),[if look.2.2 = true then some look.2.1.discCluster else none])

/-- Whatever clusters are looked up, forwards or backwards, from wherever the place in the chain has come
    to, each lookup finds the cluster of that number in the chain, and that there is none beyond the last;
    the disc does not change. -/
theorem lookups_follow (sane : fs.Sane) (whole : fs.type ≠ .fat12) (idle : Idle io) (chain : fs.Chain io.view l)
    (follows : cache.Follows l) (ks : List Nat) :
    (chainLookup fs).trace (io,cache) ks = ks.map (l[·]?) ∧ ((chainLookup fs).after (io,cache) ks).1.view = io.view := by
  induction ks generalizing io cache with
  | nil => exact ⟨rfl,rfl⟩
  | cons k rest ih =>
    have looked := logicToDisc_spec sane whole idle chain follows k
    obtain ⟨seen,shown⟩ := ih looked.idle (looked.view ▸ chain) looked.follows
    constructor
    · rw [Machine.trace_cons,List.map_cons]
      refine congrArg₂ List.cons ?_ seen
      by_cases found : (fatLogicToDiscCluster fs cache k io).2.2 = true
      · rw [if_pos found,looked.cluster found]
      · rw [if_neg found]
        refine (List.getElem?_eq_none_iff.mpr ?_).symm
        exact Nat.le_of_not_lt fun less => found (looked.found.mpr less)
    · exact shown.trans looked.view

/-- A volume of 16 bits. -/
def wideVolume : FileSystem where
  lbaBegin := 63
  volumeId := ⟨512,2,1,1,512⟩
  dataClusterCount := 5000
  fatSectorCount := 20
  type := .fat16
/-- A card on which cluster 2 leads to 3 and this one to 7. -/
def wideCard : Card :=
  wideVolume.setEntry (wideVolume.setEntry (wideVolume.setEntry (fun _ => Block.fill 0) 2 3) 3 7) 7 0xFFFF

theorem wideVolume_sane : wideVolume.Sane := ⟨by decide,by decide,by decide,by decide,by decide,by decide,by decide⟩
theorem wideCard_table : wideVolume.table wideCard = Function.update (Function.update (Function.update
    (wideVolume.table fun _ => Block.fill 0) 2 3) 3 7) 7 0xFFFF := by
  rw [wideCard,table_setEntry wideVolume_sane (by decide) (by decide),table_setEntry wideVolume_sane (by decide) (by decide),
    table_setEntry wideVolume_sane (by decide) (by decide)]
theorem wideCard_chain : wideVolume.Chain wideCard [2,3,7] := by
  refine ⟨⟨?_,7,rfl,?_⟩,by decide⟩
  · rw [wideCard_table]
    simp only [List.isChain_cons_cons,List.isChain_singleton,LeadsOn,Function.update_apply]
    decide
  · rw [wideCard_table,Function.update_self]
    decide
theorem lookups_follow_back :
    (chainLookup wideVolume).trace (iomanReset wideCard (Block.fill 0),fsInitClusterChain 2) [2,0,1,3] =
      [some 7,some 2,some 3,none] :=
  (lookups_follow wideVolume_sane (by decide) (reset_idle ..) (by rw [view_free rfl]; exact wideCard_chain)
    (init_follows rfl) [2,0,1,3]).1

theorem lastLoop_spec (sane : fs.Sane) (whole : fs.type ≠ .fat12) (rounds : Nat) (idle : Idle io)
    (chain : fs.Chain io.view l) (follows : cache.Follows l) (valid : cache.discCluster ≠ 0)
    (enough : l.length ≤ cache.logicCluster + rounds) :
    ∃ io' cache', fsLastLoop fs rounds cache io = some (io',cache') ∧ Idle io' ∧ io'.view = io.view ∧
      cache'.Follows l ∧ l.getLast? = some cache'.lastCluster ∧ cache'.clusterCount = cache.clusterCount := by
  have inside := follows.inside valid
  induction rounds generalizing cache io with
  | zero => omega
  | succ rounds ih =>
    rw [fsLastLoop]
    cases there : l[cache.logicCluster + 1]? with
    | none =>
      obtain ⟨io',stepped,idle',shown⟩ := getNextChain_last sane whole idle chain (follows.here valid) there
      simp only [stepped,Bool.false_eq_true,if_false]
      have follows' := follows.atLast valid there
      refine ⟨_,_,rfl,idle',shown,follows',?_,rfl⟩
      rcases follows'.last with zero | last
      · exact absurd zero valid
      · exact last
    | some d =>
      obtain ⟨io',m,stepped,idle',shown,run⟩ := getNextChain_next sane whole idle chain (follows.here valid) there
      simp only [stepped,if_true]
      have last := run m (Nat.le_refl m)
      have follows' : ({ cache with
          logicCluster := cache.logicCluster + 1 + m, discCluster := d + m, linear := 0 } : ClusterChain).Follows l := by
        refine ⟨follows.first,?_,fun _ => rfl,follows.last⟩
        intro _ i bound
        obtain rfl := Nat.le_zero.mp bound
        exact last
      obtain ⟨io2,cache2,looped,idle2,shown2,rest⟩ := ih idle' (shown ▸ chain) follows' (chain.positive last)
        (by dsimp only; omega) (List.getElem?_eq_some_iff.mp last).1
      exact ⟨io2,cache2,looped,idle2,shown2.trans shown,rest⟩
theorem getLastCluster_spec (sane : fs.Sane) (whole : fs.type ≠ .fat12) {rounds : Nat} (idle : Idle io)
    (chain : fs.Chain io.view l) (follows : cache.Follows l) (enough : l.length ≤ rounds) :
    ∃ io' cache', fsGetLastCluster fs rounds cache io = some (io',cache') ∧ Idle io' ∧ io'.view = io.view ∧
      cache'.Follows l ∧ l.getLast? = some cache'.lastCluster ∧ cache'.clusterCount = cache.clusterCount := by
  have first := follows.first
  rw [List.head?_eq_getElem?] at first
  -- a place that is not valid is one at the first cluster
  have begun : ∃ start : ClusterChain, (if cache.discCluster = 0 then
      { cache with discCluster := cache.firstCluster, logicCluster := 0 } else cache) = start ∧
      start.Follows l ∧ start.discCluster ≠ 0 ∧ start.clusterCount = cache.clusterCount := by
    by_cases valid : cache.discCluster = 0
    · rw [if_pos valid]
      refine ⟨_,rfl,⟨follows.first,?_,fun _ => follows.fresh valid,follows.last⟩,chain.positive first,rfl⟩
      intro _ i bound
      obtain rfl := Nat.le_zero.mp (Nat.le_trans bound (Nat.le_of_eq (follows.fresh valid)))
      exact first
    · rw [if_neg valid]
      exact ⟨cache,rfl,follows,valid,rfl⟩
  obtain ⟨start,same,follows',valid,kept⟩ := begun
  rw [← kept]
  unfold fsGetLastCluster
  simp only [same]
  by_cases unknown : start.lastCluster = 0
  · rw [if_pos unknown]
    exact lastLoop_spec sane whole rounds idle chain follows' valid (by omega)
  · rw [if_neg unknown]
    rcases follows'.last with zero | last
    · exact absurd zero unknown
    · exact ⟨io,start,rfl,idle,rfl,follows',last,rfl⟩

/-- A place at the first cluster of a chain, of which nothing else is known. -/
theorem follows_start (first : l.head? = some c) : (⟨0,0,0,c,0,0⟩ : ClusterChain).Follows l :=
  ⟨first,fun valid => absurd rfl valid,fun _ => rfl,.inl rfl⟩
theorem countLoop_spec (sane : fs.Sane) (whole : fs.type ≠ .fat12) (rounds : Nat) (idle : Idle io)
    (chain : fs.Chain io.view l) (follows : cache.Follows l) (low : c ≤ l.length) (enough : l.length < c + rounds) :
    ∃ io', fatCountLoop fs rounds cache c io = some (io',l.length) ∧ Idle io' ∧ io'.view = io.view := by
  induction rounds generalizing cache c io with
  | zero => omega
  | succ rounds ih =>
    have looked := logicToDisc_spec sane whole idle chain follows c
    rw [fatCountLoop]
    by_cases found : (fatLogicToDiscCluster fs cache c io).2.2 = true
    · have more := looked.found.mp found
      obtain ⟨io',counted,idle',shown⟩ := ih looked.idle (looked.view ▸ chain) looked.follows (Nat.succ_le_of_lt more)
        (by omega)
      simp only [if_pos found]
      exact ⟨io',counted,idle',shown.trans looked.view⟩
    · have all : c = l.length := Nat.le_antisymm low (Nat.le_of_not_lt fun less => found (looked.found.mpr less))
      simp only [if_neg found]
      exact ⟨_,by rw [all],looked.idle,looked.view⟩
theorem count_spec (sane : fs.Sane) (whole : fs.type ≠ .fat12) {rounds : Nat} (idle : Idle io)
    (chain : fs.Chain io.view l) (first : l.head? = some c) (enough : l.length < rounds) :
    ∃ io', fatCountClustersInChain fs rounds c io = some (io',l.length) ∧ Idle io' ∧ io'.view = io.view := by
  have least := (chain.inside c (List.mem_of_head? first)).1
  rw [fatCountClustersInChain,if_neg (by omega)]
  exact countLoop_spec sane whole rounds idle chain (follows_start first) (Nat.zero_le _) (by omega)

end
end Net2Modbus
