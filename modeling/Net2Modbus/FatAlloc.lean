import Net2Modbus.FatChain

/-!
# Chains that grow and that are freed

How `fat.c` makes the chain of a file longer and how it frees one. The search for free
clusters starts behind the last cluster of the chain and goes on at the start of the
volume once; it links what it finds as it goes. Chains of other files are not touched by
either. Volumes of 12 bits are left out: an entry is set while the sector of another one is
in use, and where it crosses the end of its sector a third one would be needed.
-/
namespace Net2Modbus

/-- An entry of `fat_allocClusterChain` that is set in its sector, also while another sector is in use. -/
def fatLink (fs : FileSystem) (cluster next : Nat) (io : IOManager) : IOManager :=
  iomanReleaseSector (fatSetNextClusterAddressWBuf fs cluster next
    (partGetSect fs (fatGetSectorAddressFatEntry fs cluster) .readwrite io))
/-- The look at one cluster in the loop of `fat_allocClusterChain`: what the last cluster and the number of
    clusters to go are behind it. -/
def fatAllocTry (fs : FileSystem) (ncl lc cc : Nat) (io : IOManager) : IOManager × Nat × Nat :=
  let entry := fatGetNextClusterAddressWBuf fs cc (partGetSect fs (fatGetSectorAddressFatEntry fs cc) .readonly io)
  if entry.2 = 0 then (iomanReleaseSector (fatLink fs lc cc entry.1),ncl - 1,cc) else (iomanReleaseSector entry.1,ncl,lc)
/-- The loop of `fat_allocClusterChain`: the last cluster of the chain, and how many clusters were not found
    before the search came to the end of the volume for the second time. -/
def fatAllocLoop (fs : FileSystem) (ncl lc cc : Nat) (overflow : Bool) (io : IOManager) : IOManager × Nat × Nat :=
  if fs.dataClusterCount + 1 ≤ cc + 1 then
    if overflow = true then (fatLink fs lc (fatGiveEocMarker fs) io,lc,ncl)
    else
      let tried := fatAllocTry fs ncl lc 2 io
      if tried.2.1 = 0 then (fatLink fs tried.2.2 (fatGiveEocMarker fs) tried.1,tried.2.2,0)
      else fatAllocLoop fs tried.2.1 tried.2.2 2 true tried.1
  else
    let tried := fatAllocTry fs ncl lc (cc + 1) io
    if tried.2.1 = 0 then (fatLink fs tried.2.2 (fatGiveEocMarker fs) tried.1,tried.2.2,0)
    else fatAllocLoop fs tried.2.1 tried.2.2 (cc + 1) overflow tried.1
  termination_by (if overflow = true then 0 else fs.dataClusterCount + 2) + (fs.dataClusterCount + 1 - cc)
  decreasing_by
    all_goals
      simp_all
      try omega

/-- `fat_allocClusterChain`; what it returns has 16 bits. -/
def fatAllocClusterChain (fs : FileSystem) (rounds : Nat) (cache : ClusterChain) (num : Nat) (io : IOManager) :
    Option (IOManager × ClusterChain × Nat) :=
  if cache.firstCluster ≤ 1 then some (io,cache,num % 2 ^ 16)
  else
    (fsGetLastCluster fs rounds cache io).map fun last =>
      let cache := last.2
      let counted := { cache with clusterCount := if cache.clusterCount = 0 then 0 else cache.clusterCount + num }
      if num = 0 then (last.1,counted,0)
      else
        let done := fatAllocLoop fs num cache.lastCluster cache.lastCluster false last.1
        if done.2.2 = 0 then (done.1,{ counted with lastCluster := done.2.1 },0)
        else (done.1,{ cache with lastCluster := done.2.1 },(num - done.2.2) % 2 ^ 16)

/-- The loop of `fat_unlinkClusterChain`, with the cluster that is to be freed next. -/
def fatUnlinkLoop (fs : FileSystem) : Nat → ClusterChain → Nat → Nat → IOManager → Option (IOManager × ClusterChain)
  | 0,_,_,_,_ => none
  | rounds + 1,cache,c,tbd,io =>
    let look := fatLogicToDiscCluster fs cache c io
    let cache := look.2.1
    if look.2.2 = true then
      fatUnlinkLoop fs rounds cache (c + 1) cache.discCluster
        (if tbd ≠ 0 then fatSetNextClusterAddress fs tbd 0 look.1 else look.1)
    else some (fatSetNextClusterAddress fs cache.discCluster 0 look.1,cache)
/-- `fat_unlinkClusterChain` -/
def fatUnlinkClusterChain (fs : FileSystem) (rounds : Nat) (cache : ClusterChain) (io : IOManager) :
    Option (IOManager × ClusterChain) :=
  fatUnlinkLoop fs rounds { cache with logicCluster := 0, discCluster := cache.firstCluster } 0 0 io

/-- The clusters that are free, but for one, among those that are given out. -/
def FileSystem.spare (fs : FileSystem) (table : Nat → Nat) (lc : Nat) : Finset Nat :=
  (Finset.Icc 2 fs.dataClusterCount).filter fun c => table c = 0 ∧ c ≠ lc
/-- The free ones among the clusters that `fat_allocClusterChain` looks at. It never comes to the last cluster of the
    volume, whose number is `dataClusterCount + 1`. -/
def FileSystem.free (fs : FileSystem) (d : Card) : Finset Nat :=
  (Finset.Icc 2 fs.dataClusterCount).filter fun c => fs.table d c = 0

/-- A chain that is being made longer: the clusters it has got were free, and the entries of all clusters
    but these and the last one it had are what they were. -/
structure Growing (fs : FileSystem) (d : Card) (l got : List Nat) (lc : Nat) (io : IOManager) : Prop where
  idle : IOManager.Idle io
  path : (l ++ got).IsChain (LeadsOn (fs.table io.view) (fatIsEocMarker fs))
  last : (l ++ got).getLast? = some lc
  nodup : (l ++ got).Nodup
  inside : ∀ c ∈ l ++ got, fs.IsCluster c
  new : ∀ c ∈ got, c ∈ fs.free d
  same : ∀ c, c ∉ got → l.getLast? ≠ some c → fs.table io.view c = fs.table d c
  frame : ∀ a, (∀ i < fs.fatSectorCount, a ≠ fs.fatSector i) → io.view a = d a
  busyLast : ∀ c, l.getLast? = some c → fs.table d c ≠ 0
  untouched : got = [] → io.view = d
  count : got.length + (fs.spare (fs.table io.view) lc).card = (fs.free d).card
/-- What the search has seen before it looks at a cluster, in its first and in its second round. -/
def Seen (fs : FileSystem) (table : Nat → Nat) (start lc x : Nat) : Bool → Prop
  | false => start ≤ lc ∧ lc < x ∧ ∀ c, start < c → c < x → c ≠ lc → table c ≠ 0
  | true => (∀ c, 2 ≤ c → c < x → c ≠ lc → table c ≠ 0) ∧
      ∀ c, start < c → c ≤ fs.dataClusterCount → c ≠ lc → table c ≠ 0
/-- What is counted before the search looks at a cluster: clusters that lie behind the first last one, as long as
    it does not come back to what it got last, clusters of which one lies before it, or, when it did come
    back, the last cluster twice. -/
inductive Counting (table : Nat → Nat) (free start lc x num ncl : Nat) (got : List Nat) (overflow : Bool) : Prop
  | behind (place : overflow = false ∨ x ≤ lc ∨ got = []) (looks : got ≠ [] → table lc = 0)
      (all : num = got.length + ncl) (more : ∀ c ∈ got, start < c)
  | around (second : overflow = true) (passed : lc < x) (all : num = got.length + ncl) (less : ∃ c ∈ got, c ≤ start)
  | twice (second : overflow = true) (passed : lc < x) (some : got ≠ []) (spent : free = got.length)
      (all : num = got.length + 1 + ncl) (more : ∀ c ∈ got, start < c)
/-- The search while clusters are to go. -/
structure FreeSearch (fs : FileSystem) (d : Card) (l got : List Nat) (num ncl start lc x : Nat) (overflow : Bool)
    (io : IOManager) : Prop extends Growing fs d l got lc io where
  begun : l.getLast? = some start
  seen : Seen fs (fs.table io.view) start lc x overflow
  counting : Counting (fs.table io.view) (fs.free d).card start lc x num ncl got overflow

section
open IOManager FileSystem
variable {fs : FileSystem} {disc : Card} {io : IOManager} {l got : List Nat} {cache : ClusterChain}
  {c d start lc x num ncl next : Nat} {overflow : Bool}

variable (next) in
theorem link_ready (sane : fs.Sane) (whole : fs.type ≠ .fat12) (inside : c ≤ fs.dataClusterCount + 1) (ready : Ready io) :
    Ready (fatLink fs c next io) ∧ (fatLink fs c next io).view = fs.setEntry io.view c next := by
  obtain ⟨o,shown,writable⟩ := getSector_open ready
    (partGetRealLBA fs (fatGetSectorAddressFatEntry fs c)) .readwrite
  obtain ⟨o',shown'⟩ := setWBuf_open next inside sane whole o (writable rfl)
  obtain ⟨ready',shown''⟩ := releaseSector_ready o'
  rw [shown] at shown'
  exact ⟨ready',shown''.trans shown'⟩
variable (next) in
theorem link_idle (sane : fs.Sane) (inside : c ≤ fs.dataClusterCount + 1) (idle : Idle io) :
    Idle (fatLink fs c next io) ∧ (fatLink fs c next io).view = fs.setEntry io.view c next := by
  obtain ⟨io1,same,o,ready,shown,writable⟩ := getSector_idle idle
    (partGetRealLBA fs (fatGetSectorAddressFatEntry fs c)) .readwrite
  obtain ⟨ready',shown'⟩ := setWBuf_ready next inside sane ready o (writable rfl)
  obtain ⟨idle',shown''⟩ := releaseSector_idle ready'
  unfold fatLink partGetSect
  rw [same]
  rw [shown] at shown'
  exact ⟨idle',shown''.trans shown'⟩
variable (ncl) in
/-- A look at one cluster: it becomes the last one when it is free. -/
theorem allocTry_spec (sane : fs.Sane) (whole : fs.type ≠ .fat12) (inside : x ≤ fs.dataClusterCount + 1)
    (insideLast : lc ≤ fs.dataClusterCount + 1) (idle : Idle io) :
    Idle (fatAllocTry fs ncl lc x io).1 ∧
      if fs.table io.view x = 0 then (fatAllocTry fs ncl lc x io).2 = (ncl - 1,x) ∧
        (fatAllocTry fs ncl lc x io).1.view = fs.setEntry io.view lc x
      else (fatAllocTry fs ncl lc x io).2 = (ncl,lc) ∧ (fatAllocTry fs ncl lc x io).1.view = io.view := by
  obtain ⟨io1,same,o,ready,shown,-⟩ := getSector_idle idle
    (partGetRealLBA fs (fatGetSectorAddressFatEntry fs x)) .readonly
  have read := getWBuf_open inside sane whole o
  rw [shown,← table_of_le inside] at read
  unfold fatAllocTry partGetSect
  simp only [same,read]
  by_cases free : fs.table io.view x = 0
  · simp only [if_pos free]
    obtain ⟨ready',shown'⟩ := link_ready x sane whole insideLast ready
    obtain ⟨idle',shown''⟩ := releaseSector_idle ready'
    rw [shown] at shown'
    exact ⟨idle',trivial,shown''.trans shown'⟩
  · simp only [if_neg free]
    obtain ⟨idle',shown'⟩ := releaseSector_idle ready
    exact ⟨idle',trivial,shown'.trans shown⟩

theorem Growing.split (g : Growing fs disc l got lc io) : ∃ front, l ++ got = front ++ [lc] ∧ lc ∉ front := by
  obtain ⟨front,same⟩ := List.getLast?_eq_some_iff.mp g.last
  have nodup := g.nodup
  rw [same,List.nodup_append] at nodup
  exact ⟨front,same,fun mem => nodup.2.2 lc mem lc (List.mem_singleton.mpr rfl) rfl⟩
theorem Growing.lc_mem (g : Growing fs disc l got lc io) : lc ∈ l ++ got := List.mem_of_getLast? g.last
theorem Growing.lc_le (g : Growing fs disc l got lc io) : lc ≤ fs.dataClusterCount + 1 := (g.inside lc g.lc_mem).2
/-- Only the last cluster can look free. -/
theorem Growing.busy (g : Growing fs disc l got lc io) (mem : c ∈ l ++ got) (before : c ≠ lc) :
    fs.table io.view c ≠ 0 := by
  obtain ⟨i,bound,rfl⟩ := List.mem_iff_getElem.mp mem
  have last := g.last
  rw [List.getLast?_eq_getElem?] at last
  have more : i + 1 < (l ++ got).length := by
    by_contra beyond
    rw [show (l ++ got).length - 1 = i by omega,List.getElem?_eq_getElem bound] at last
    exact before (Option.some.inj last)
  obtain ⟨leads,-⟩ := List.isChain_iff_getElem.mp g.path i more
  have least := (g.inside _ (List.getElem_mem more)).1
  rw [leads]
  omega
/-- The clusters that keep their entries when the entry of the last one is set. -/
theorem Growing.old (g : Growing fs disc l got lc io) (other : c ∉ got) (notLast : l.getLast? ≠ some c) : c ≠ lc := by
  rintro rfl
  have last := g.last
  cases got with
  | nil =>
    rw [List.append_nil] at last
    exact notLast last
  | cons a rest =>
    rw [List.getLast?_append_of_ne_nil _ (List.cons_ne_nil a rest)] at last
    exact other (List.mem_of_getLast? last)
/-- A free cluster that is not the last one is put behind it. -/
theorem Growing.take (g : Growing fs disc l got lc io) (sane : fs.Sane) {io' : IOManager} (idle : Idle io')
    (shown : io'.view = fs.setEntry io.view lc x) (least : 2 ≤ x) (most : x ≤ fs.dataClusterCount)
    (free : fs.table io.view x = 0) (fresh : x ≠ lc) : Growing fs disc l (got ++ [x]) x io' := by
  have new : x ∉ l ++ got := fun mem => g.busy mem fresh free
  have on := sane.on (show x ≤ fs.dataClusterCount + 2 by omega)
  have table := table_setEntry (d := io.view) sane g.lc_le (sane.fits (show x ≤ fs.dataClusterCount + 2 by omega))
  rw [← shown] at table
  rw [List.mem_append,not_or] at new
  obtain ⟨front,same,apart⟩ := g.split
  have old : fs.table disc x = 0 := by
    rw [← g.same x new.2 fun last => new.1 (List.mem_of_getLast? last)]
    exact free
  refine ⟨idle,?_,?_,?_,?_,?_,?_,?_,g.busyLast,fun none => absurd none (List.append_ne_nil_of_right_ne_nil _ (List.cons_ne_nil x [])),?_⟩
  · rw [← List.append_assoc,same,table]
    exact path_push (same ▸ g.path) apart on
  · rw [← List.append_assoc,List.getLast?_concat]
  · rw [← List.append_assoc,List.nodup_append]
    refine ⟨g.nodup,List.nodup_singleton x,?_⟩
    rintro a mem b single rfl
    obtain rfl := List.mem_singleton.mp single
    exact (List.mem_append.mp mem).elim new.1 new.2
  · rw [← List.append_assoc,List.forall_mem_append,List.forall_mem_singleton]
    exact ⟨g.inside,least,by omega⟩
  · rw [List.forall_mem_append,List.forall_mem_singleton]
    exact ⟨g.new,Finset.mem_filter.mpr ⟨Finset.mem_Icc.mpr ⟨least,most⟩,old⟩⟩
  · intro c other notLast
    rw [List.mem_append,not_or] at other
    rw [table,Function.update_of_ne (g.old other.1 notLast)]
    exact g.same c other.1 notLast
  · intro a outside
    rw [shown,setEntry_frame (sane.entry_inside g.lc_le) outside]
    exact g.frame a outside
  · have taken : fs.spare (fs.table io'.view) x = (fs.spare (fs.table io.view) lc).erase x := by
      ext c
      simp only [spare,Finset.mem_filter,Finset.mem_erase,table]
      by_cases here : c = lc
      · simp only [here,Function.update_self]
        constructor
        · rintro ⟨-,zero,-⟩
          omega
        · rintro ⟨-,-,-,self⟩
          exact absurd rfl self
      · rw [Function.update_of_ne here]
        tauto
    have mem : x ∈ fs.spare (fs.table io.view) lc :=
      Finset.mem_filter.mpr ⟨Finset.mem_Icc.mpr ⟨least,most⟩,free,fresh⟩
    have count := g.count
    have positive := Finset.card_pos.mpr ⟨x,mem⟩
    rw [taken,Finset.card_erase_of_mem mem,List.length_append,List.length_singleton]
    omega
/-- When the last cluster looks free, it is one that has been got. -/
theorem Growing.got_ne (g : Growing fs disc l got lc io) (free : fs.table io.view lc = 0) : got ≠ [] := by
  rintro rfl
  have last := g.last
  rw [List.append_nil] at last
  rw [g.untouched rfl] at free
  exact g.busyLast lc last free
/-- The last cluster, which still looks free, is put behind itself. -/
theorem Growing.again (g : Growing fs disc l got lc io) (sane : fs.Sane) (more : got ≠ []) {io' : IOManager} (idle : Idle io')
    (shown : io'.view = fs.setEntry io.view lc lc) : Growing fs disc l got lc io' := by
  have table := table_setEntry (d := io.view) sane g.lc_le (sane.fits (Nat.le_succ_of_le g.lc_le))
  rw [← shown] at table
  obtain ⟨front,same,apart⟩ := g.split
  refine ⟨idle,?_,g.last,g.nodup,g.inside,g.new,?_,?_,g.busyLast,fun none => absurd none more,?_⟩
  · rw [same,table]
    exact path_update (same ▸ g.path) apart
  · intro c other notLast
    rw [table,Function.update_of_ne (g.old other notLast)]
    exact g.same c other notLast
  · intro a outside
    rw [shown,setEntry_frame (sane.entry_inside g.lc_le) outside]
    exact g.frame a outside
  · have kept : fs.spare (fs.table io'.view) lc = fs.spare (fs.table io.view) lc := by
      apply Finset.filter_congr
      intro c _
      rw [table]
      apply and_congr_left
      intro other
      rw [Function.update_of_ne other]
    rw [kept]
    exact g.count

/-- The search comes back to the cluster that it got last: it has got some, and all that are free lie behind the
    cluster where it began. -/
def FileSystem.Wraps (fs : FileSystem) (d : Card) (start : Nat) : Prop := fs.free d ≠ ∅ ∧ ∀ c ∈ fs.free d, start < c

instance FileSystem.decidableWraps (d : Card) (start : Nat) : Decidable (fs.Wraps d start) := inferInstanceAs (Decidable (_ ∧ _))

/-- The number of clusters that the search says to be missing. -/
def FileSystem.missing (fs : FileSystem) (d : Card) (start num : Nat) : Nat :=
  num - ((fs.free d).card + if fs.Wraps d start then 1 else 0)
/-- What the search leaves: the chain goes on with clusters that were free, as many as were asked for or as
    there were, and all else is what it was. -/
structure Grown (fs : FileSystem) (d : Card) (l got : List Nat) (start num : Nat) (r : IOManager × Nat × Nat) : Prop where
  idle : Idle r.1
  chain : fs.Chain r.1.view (l ++ got)
  last : (l ++ got).getLast? = some r.2.1
  new : ∀ c ∈ got, c ∈ fs.free d
  length : got.length = min num (fs.free d).card
  same : ∀ c, c ∉ got → l.getLast? ≠ some c → fs.table r.1.view c = fs.table d c
  frame : ∀ a, (∀ i < fs.fatSectorCount, a ≠ fs.fatSector i) → r.1.view a = d a
  left : r.2.2 = fs.missing d start num

/-- The last cluster is marked as the end. -/
theorem Growing.close (g : Growing fs disc l got lc io) (sane : fs.Sane) (length : got.length = min num (fs.free disc).card)
    (left : ncl = fs.missing disc start num) : Grown fs disc l got start num (fatLink fs lc (fatGiveEocMarker fs) io,lc,ncl) := by
  obtain ⟨ends,small,-⟩ := giveEoc_spec fs
  obtain ⟨idle,shown⟩ := link_idle (fatGiveEocMarker fs) sane g.lc_le g.idle
  have table := table_setEntry (d := io.view) sane g.lc_le small
  rw [← shown] at table
  obtain ⟨front,same,apart⟩ := g.split
  refine ⟨idle,⟨?_,g.inside⟩,g.last,g.new,length,?_,?_,left⟩
  · rw [same,table]
    exact path_close (same ▸ g.path) apart ends
  · intro c other notLast
    rw [table,Function.update_of_ne (g.old other notLast)]
    exact g.same c other notLast
  · intro a outside
    rw [shown,setEntry_frame (sane.entry_inside g.lc_le) outside]
    exact g.frame a outside
/-- When no cluster but the last one looks free, all that were free have been got. -/
theorem Growing.exhausted (g : Growing fs disc l got lc io)
    (none : ∀ c, 2 ≤ c → c ≤ fs.dataClusterCount → c ≠ lc → fs.table io.view c ≠ 0) :
    got.length = (fs.free disc).card := by
  have empty : fs.spare (fs.table io.view) lc = ∅ := by
    refine Finset.filter_eq_empty_iff.mpr ?_
    rintro c inside ⟨free,other⟩
    rw [Finset.mem_Icc] at inside
    exact none c inside.1 inside.2 other free
  have count := g.count
  rwa [empty,Finset.card_empty,Nat.add_zero] at count
/-- Then what lies behind a cluster, or before it, does so for all of them. -/
theorem Growing.all_got (g : Growing fs disc l got lc io) (all : got.length = (fs.free disc).card) (mem : c ∈ fs.free disc) :
    c ∈ got := by
  have nodup := (List.nodup_append.mp g.nodup).2.1
  have sub : got.toFinset ⊆ fs.free disc := by
    intro c mem
    exact g.new c (List.mem_toFinset.mp mem)
  have same := Finset.eq_of_subset_of_card_le sub (by rw [List.toFinset_card_of_nodup nodup,all])
  rwa [← same,List.mem_toFinset] at mem
theorem Growing.got_mem (g : Growing fs disc l got lc io) (more : got ≠ []) : lc ∈ got := by
  have last := g.last
  rw [List.getLast?_append_of_ne_nil _ more] at last
  exact List.mem_of_getLast? last
/-- The second round begins. -/
theorem FreeSearch.wrap (s : FreeSearch fs disc l got num ncl start lc x false io) (beyond : fs.dataClusterCount < x) :
    FreeSearch fs disc l got num ncl start lc 2 true io := by
  obtain ⟨-,-,seen⟩ := s.seen
  refine ⟨s.toGrowing,s.begun,⟨?_,?_⟩,?_⟩
  · intro c least most
    omega
  · intro c above below
    exact seen c above (by omega)
  · cases s.counting with
    | behind _ looks all more => exact .behind (.inr (.inl (s.inside lc s.lc_mem).1)) looks all more
    | around second => contradiction
    | twice second => contradiction
/-- A cluster that is not free is passed. -/
theorem Seen.pass {table : Nat → Nat} (seen : Seen fs table start lc x overflow) (busy : table x ≠ 0) :
    Seen fs table start lc (x + 1) overflow := by
  cases overflow with
  | false =>
    refine ⟨seen.1,Nat.lt_succ_of_lt seen.2.1,?_⟩
    intro c above below other
    rcases Nat.lt_succ_iff_lt_or_eq.mp below with before | rfl
    · exact seen.2.2 c above before other
    · exact busy
  | true =>
    refine ⟨?_,seen.2⟩
    intro c low below other
    rcases Nat.lt_succ_iff_lt_or_eq.mp below with before | rfl
    · exact seen.1 c low before other
    · exact busy
/-- A cluster becomes the last one. -/
theorem Seen.settle {table : Nat → Nat} (seen : Seen fs table start lc x overflow) (least : 2 ≤ x) :
    Seen fs (Function.update table lc x) start x (x + 1) overflow := by
  have linked (c : Nat) (old : c ≠ lc → table c ≠ 0) : Function.update table lc x c ≠ 0 := by
    by_cases here : c = lc
    · rw [here,Function.update_self]
      omega
    · rw [Function.update_of_ne here]
      exact old here
  cases overflow with
  | false =>
    refine ⟨Nat.le_trans seen.1 (Nat.le_of_lt seen.2.1),Nat.lt_succ_self x,?_⟩
    intro c above below other
    exact linked c (seen.2.2 c above (by omega))
  | true =>
    refine ⟨?_,?_⟩
    · intro c low below other
      exact linked c (seen.1 c low (by omega))
    · intro c above below other
      exact linked c (seen.2 c above below)

/-- When the last cluster is met again there is no other free cluster, and from then on it is counted twice. -/
theorem FreeSearch.meet (s : FreeSearch fs disc l got num ncl start x x overflow io) (free : fs.table io.view x = 0)
    (go : ncl ≠ 0) {table : Nat → Nat} :
    got ≠ [] ∧ Counting table (fs.free disc).card start x (x + 1) num (ncl - 1) got overflow := by
  have some := s.got_ne free
  refine ⟨some,?_⟩
  cases s.counting with
  | behind place looks all more =>
    have seen := s.seen
    cases overflow with
    | false => exact absurd seen.2.1 (Nat.lt_irrefl x)
    | true =>
      have above := more x (s.got_mem some)
      have spent : got.length = (fs.free disc).card := by
        apply s.exhausted
        intro c low high other
        by_cases before : c < x
        · exact seen.1 c low before other
        · exact seen.2 c (by omega) high other
      exact .twice rfl (Nat.lt_succ_self x) some spent.symm (by omega) more
  | around second passed => exact absurd passed (Nat.lt_irrefl x)
  | twice second passed => exact absurd passed (Nat.lt_irrefl x)
/-- A free cluster that is got is counted. -/
theorem FreeSearch.gain (s : FreeSearch fs disc l got num ncl start lc x overflow io) (free : fs.table io.view x = 0)
    (least : 2 ≤ x) (most : x ≤ fs.dataClusterCount) (fresh : x ≠ lc) (go : ncl ≠ 0) :
    Counting (Function.update (fs.table io.view) lc x) (fs.free disc).card start x (x + 1) num (ncl - 1) (got ++ [x]) overflow := by
  have all' (all : num = got.length + ncl) : num = (got ++ [x]).length + (ncl - 1) := by
    rw [List.length_append,List.length_singleton]
    omega
  cases s.counting with
  | behind place looks all more =>
    have seen := s.seen
    cases overflow with
    | false =>
      refine .behind (.inl rfl) (fun _ => by rwa [Function.update_of_ne fresh]) (all' all) ?_
      rw [List.forall_mem_append,List.forall_mem_singleton]
      exact ⟨more,Nat.lt_of_le_of_lt seen.1 seen.2.1⟩
    | true =>
      -- all that lie behind the start have been seen in the first round
      refine .around rfl (Nat.lt_succ_self x) (all' all) ⟨x,by simp,?_⟩
      by_contra behind
      exact seen.2 x (by omega) most fresh free
  | around second passed all less =>
    obtain ⟨c,mem,before⟩ := less
    exact .around second (Nat.lt_succ_self x) (all' all) ⟨c,List.mem_append_left _ mem,before⟩
  | twice second passed some spent all more =>
    have spare : x ∈ fs.spare (fs.table io.view) lc :=
      Finset.mem_filter.mpr ⟨Finset.mem_Icc.mpr ⟨least,most⟩,free,fresh⟩
    have positive := Finset.card_pos.mpr ⟨x,spare⟩
    have count := s.count
    omega
/-- A cluster that is not free is not counted. -/
theorem FreeSearch.skip (s : FreeSearch fs disc l got num ncl start lc x overflow io) (busy : fs.table io.view x ≠ 0) :
    Counting (fs.table io.view) (fs.free disc).card start lc (x + 1) num ncl got overflow := by
  cases s.counting with
  | behind place looks all more =>
    refine .behind ?_ looks all more
    rcases place with first | before | none
    · exact .inl first
    · rcases Nat.lt_or_eq_of_le before with less | rfl
      · exact .inr (.inl less)
      · exact .inr (.inr (by_contra fun some => busy (looks some)))
    · exact .inr (.inr none)
  | around second passed all less => exact .around second (Nat.lt_succ_of_lt passed) all less
  | twice second passed some spent all more => exact .twice second (Nat.lt_succ_of_lt passed) some spent all more
/-- A look at one cluster keeps the count. -/
theorem FreeSearch.look (s : FreeSearch fs disc l got num ncl start lc x overflow io) (sane : fs.Sane)
    (whole : fs.type ≠ .fat12) (least : 2 ≤ x) (most : x ≤ fs.dataClusterCount) (go : ncl ≠ 0) :
    ∃ got', FreeSearch fs disc l got' num (fatAllocTry fs ncl lc x io).2.1 start (fatAllocTry fs ncl lc x io).2.2 (x + 1)
      overflow (fatAllocTry fs ncl lc x io).1 := by
  obtain ⟨idle,tried⟩ := allocTry_spec ncl sane whole (x := x) (by omega) s.lc_le s.idle
  by_cases free : fs.table io.view x = 0
  · rw [if_pos free] at tried
    obtain ⟨same,shown⟩ := tried
    have table := table_setEntry (d := io.view) sane s.lc_le (sane.fits (show x ≤ fs.dataClusterCount + 2 by omega))
    rw [← shown] at table
    have settled := s.seen.settle least
    rw [← table] at settled
    rw [same]
    by_cases fresh : x = lc
    · subst fresh
      obtain ⟨more,counting⟩ := s.meet free go
      exact ⟨got,s.again sane more idle shown,s.begun,settled,counting⟩
    · have counting := s.gain free least most fresh go
      rw [← table] at counting
      exact ⟨got ++ [x],s.take sane idle shown least most free fresh,s.begun,settled,counting⟩
  · rw [if_neg free] at tried
    obtain ⟨same,shown⟩ := tried
    rw [same]
    have busy := s.seen.pass free
    have counting := s.skip free
    rw [← shown] at busy counting
    refine ⟨got,⟨idle,?_,s.last,s.nodup,s.inside,s.new,?_,?_,s.busyLast,?_,?_⟩,s.begun,busy,counting⟩
    · rw [shown]
      exact s.path
    · rw [shown]
      exact s.same
    · rw [shown]
      exact s.frame
    · rw [shown]
      exact s.untouched
    · rw [shown]
      exact s.count

/-- What is missing is known when all that were free have been got, and when none is to go any more. -/
theorem FreeSearch.missing_eq (s : FreeSearch fs disc l got num ncl start lc x overflow io)
    (over_ : ncl = 0 ∨ got.length = (fs.free disc).card ∧ (overflow = true ∧ fs.dataClusterCount < x)) :
    got.length = min num (fs.free disc).card ∧ ncl = fs.missing disc start num := by
  have count := s.count
  have wraps (all : got.length = (fs.free disc).card) : fs.Wraps disc start ↔ got ≠ [] ∧ ∀ c ∈ got, start < c := by
    refine and_congr ?_ ⟨fun behind c mem => behind c (s.new c mem),fun behind c mem => behind c (s.all_got all mem)⟩
    rw [ne_eq,ne_eq,← Finset.card_eq_zero,← all,List.length_eq_zero_iff]
  unfold missing
  cases s.counting with
  | behind place looks all more =>
    rcases over_ with rfl | ⟨spent,rfl,beyond⟩
    · refine ⟨by omega,?_⟩
      split <;> omega
    · -- the last cluster that was got is one of those that the second round meets
      have none : got = [] := by
        by_contra some
        rcases place with first | before | none
        · contradiction
        · have most := (Finset.mem_Icc.mp (Finset.mem_filter.mp (s.new lc (s.got_mem some))).1).2
          omega
        · exact some none
      rw [if_neg fun wrap => ((wraps spent).mp wrap).1 none]
      omega
  | around second passed all less =>
    obtain ⟨c,mem,before⟩ := less
    have few (spent : got.length = (fs.free disc).card) : ¬ fs.Wraps disc start := by
      intro wrap
      have := ((wraps spent).mp wrap).2 c mem
      omega
    by_cases spent : got.length = (fs.free disc).card
    · rw [if_neg (few spent)]
      omega
    · obtain rfl : ncl = 0 := over_.resolve_right fun done => spent done.1
      refine ⟨by omega,?_⟩
      split <;> omega
  | twice second passed some spent all more =>
    rw [if_pos ((wraps spent.symm).mpr ⟨some,more⟩)]
    omega
/-- The search ends with as many clusters as there are to get. -/
theorem FreeSearch.close (s : FreeSearch fs disc l got num 0 start lc x overflow io) (sane : fs.Sane) :
    Grown fs disc l got start num (fatLink fs lc (fatGiveEocMarker fs) io,lc,0) := by
  obtain ⟨length,left⟩ := s.missing_eq (.inl rfl)
  exact s.toGrowing.close sane length left
/-- The loop goes on with the second round where the first one ends, and ends in the second one. -/
theorem allocLoop_spec (sane : fs.Sane) (whole : fs.type ≠ .fat12) {cc : Nat}
    (s : FreeSearch fs disc l got num ncl start lc (cc + 1) overflow io) (least : 1 ≤ cc) (go : ncl ≠ 0) :
    ∃ got', Grown fs disc l got' start num (fatAllocLoop fs ncl lc cc overflow io) := by
  induction ncl, lc, cc, overflow, io using fatAllocLoop.induct fs generalizing got with
  | case1 ncl lc cc io end_ =>
    rw [fatAllocLoop,if_pos end_,if_pos rfl]
    have spent : got.length = (fs.free disc).card := by
      apply s.exhausted
      intro c low high other
      exact s.seen.1 c low (by omega) other
    obtain ⟨length,left⟩ := s.missing_eq (.inr ⟨spent,rfl,by omega⟩)
    exact ⟨got,s.toGrowing.close sane length left⟩
  | case2 ncl lc cc overflow io end_ first tried =>
    rename_i done
    obtain rfl : overflow = false := by simpa using first
    have done : (fatAllocTry fs ncl lc 2 io).2.1 = 0 := done
    obtain ⟨got',s'⟩ := (s.wrap (by omega)).look sane whole (Nat.le_refl 2) sane.several go
    rw [fatAllocLoop,if_pos end_,if_neg first]
    simp only [if_pos done]
    rw [done] at s'
    exact ⟨got',s'.close sane⟩
  | case3 ncl lc cc overflow io end_ first tried more =>
    rename_i ih
    obtain rfl : overflow = false := by simpa using first
    have more : (fatAllocTry fs ncl lc 2 io).2.1 ≠ 0 := more
    obtain ⟨got',s'⟩ := (s.wrap (by omega)).look sane whole (Nat.le_refl 2) sane.several go
    rw [fatAllocLoop,if_pos end_,if_neg first]
    simp only [if_neg more]
    exact ih s' (by omega) more
  | case4 ncl lc cc overflow io within tried =>
    rename_i done
    have done : (fatAllocTry fs ncl lc (cc + 1) io).2.1 = 0 := done
    obtain ⟨got',s'⟩ := s.look sane whole (by omega) (by omega) go
    rw [fatAllocLoop,if_neg within]
    simp only [if_pos done]
    rw [done] at s'
    exact ⟨got',s'.close sane⟩
  | case5 ncl lc cc overflow io within tried more =>
    rename_i ih
    have more : (fatAllocTry fs ncl lc (cc + 1) io).2.1 ≠ 0 := more
    obtain ⟨got',s'⟩ := s.look sane whole (by omega) (by omega) go
    rw [fatAllocLoop,if_neg within]
    simp only [if_neg more]
    exact ih s' (by omega) more

variable (num) in
/-- The start of the search. -/
theorem search_start (sane : fs.Sane) (idle : Idle io) (chain : fs.Chain io.view l) (last : l.getLast? = some lc) :
    FreeSearch fs io.view l [] num num lc lc (lc + 1) false io := by
  have busy := chain.busy sane (List.mem_of_getLast? last)
  have all : fs.spare (fs.table io.view) lc = fs.free io.view := by
    apply Finset.filter_congr
    intro c _
    constructor
    · exact fun spare => spare.1
    · rintro free
      refine ⟨free,?_⟩
      rintro rfl
      exact busy free
  refine ⟨⟨idle,?_,?_,?_,?_,fun c mem => absurd mem List.not_mem_nil,fun _ _ _ => rfl,fun _ _ => rfl,
    fun c last => chain.busy sane (List.mem_of_getLast? last),fun _ => rfl,?_⟩,last,
    ⟨Nat.le_refl lc,Nat.lt_succ_self lc,fun c above below => absurd below (by omega)⟩,
    .behind (.inl rfl) (fun some => absurd rfl some) (Nat.zero_add num).symm fun c mem => absurd mem List.not_mem_nil⟩
  · rw [List.append_nil]
    exact chain.linked.path
  · rwa [List.append_nil]
  · rw [List.append_nil]
    exact chain.linked.nodup
  · rw [List.append_nil]
    exact chain.inside
  · rw [all]
    exact Nat.zero_add _
/-- A place in a chain is one in the longer chain. -/
theorem ClusterChain.Follows.grow (follows : cache.Follows l) (last : (l ++ got).getLast? = some lc) (n : Nat) :
    ({ cache with clusterCount := n, lastCluster := lc } : ClusterChain).Follows (l ++ got) := by
  refine ⟨?_,?_,follows.fresh,.inr last⟩
  · rw [List.head?_append,follows.first]
    rfl
  · intro valid i bound
    have here := follows.run valid i bound
    rw [List.getElem?_append_left (List.getElem?_eq_some_iff.mp here).1]
    exact here

theorem missing_enough (disc : Card) (start : Nat) (room : num ≤ (fs.free disc).card) : fs.missing disc start num = 0 := by
  rw [missing,Nat.sub_eq_zero_iff_le]
  exact Nat.le_add_right_of_le room
theorem missing_none (start : Nat) (none : fs.free disc = ∅) : fs.missing disc start num = num := by
  rw [missing,if_neg fun wrap => wrap.1 none,none]
  rfl

/-- What `fat_allocClusterChain` leaves. -/
structure Extended (fs : FileSystem) (io : IOManager) (l got : List Nat) (num : Nat) (cache : ClusterChain)
    (r : IOManager × ClusterChain × Nat) : Prop where
  idle : Idle r.1
  chain : fs.Chain r.1.view (l ++ got)
  new : ∀ c ∈ got, c ∈ fs.free io.view
  length : got.length = min num (fs.free io.view).card
  same : ∀ c, c ∉ got → l.getLast? ≠ some c → fs.table r.1.view c = fs.table io.view c
  frame : ∀ a, (∀ i < fs.fatSectorCount, a ≠ fs.fatSector i) → r.1.view a = io.view a
  follows : r.2.1.Follows (l ++ got)
  counted : num ≤ (fs.free io.view).card → cache.Counted l → r.2.1.Counted (l ++ got)
  returns : ∀ start, l.getLast? = some start → r.2.2 =
    if fs.missing io.view start num = 0 then 0 else (num - fs.missing io.view start num) % 2 ^ 16

theorem Extended.done {r : IOManager × ClusterChain × Nat} (extended : Extended fs io l got num cache r)
    (last : l.getLast? = some start) (room : num ≤ (fs.free io.view).card) : r.2.2 = 0 := by
  rw [extended.returns start last,if_pos (missing_enough io.view start room)]
theorem Extended.none {r : IOManager × ClusterChain × Nat} (extended : Extended fs io l got num cache r)
    (last : l.getLast? = some start) (none : fs.free io.view = ∅) : r.2.2 = 0 := by
  rw [extended.returns start last,missing_none start none,Nat.sub_self]
  exact ite_self 0

theorem alloc_spec (sane : fs.Sane) (whole : fs.type ≠ .fat12) (idle : Idle io) (chain : fs.Chain io.view l)
    (follows : cache.Follows l) {rounds : Nat} (enough : l.length ≤ rounds) (num : Nat) :
    ∃ r got, fatAllocClusterChain fs rounds cache num io = some r ∧ Extended fs io l got num cache r := by
  have first := follows.first
  rw [List.head?_eq_getElem?] at first
  have least := (chain.inside _ (List.mem_of_getElem? first)).1
  obtain ⟨io1,cache1,lasted,idle1,shown1,follows1,last,kept⟩ := getLastCluster_spec sane whole idle chain follows enough
  -- the length that is noted stays right when as many clusters come as are added to it
  have counts (new : List Nat) (all : new.length = num) (counted : cache.Counted l) :
      (if cache1.clusterCount = 0 then 0 else cache1.clusterCount + num) = 0 ∨
        (if cache1.clusterCount = 0 then 0 else cache1.clusterCount + num) = (l ++ new).length := by
    rw [kept]
    rcases counted with zero | length
    · exact .inl (if_pos zero)
    · split
      · exact .inl rfl
      · rw [List.length_append,all,← length]
        exact .inr rfl
  unfold fatAllocClusterChain
  rw [if_neg (by omega),lasted,Option.map_some]
  by_cases none : num = 0
  · subst none
    refine ⟨_,[],rfl,?_⟩
    rw [if_pos rfl]
    refine ⟨idle1,?_,fun c mem => absurd mem List.not_mem_nil,?_,?_,?_,?_,fun _ => counts [] rfl,?_⟩
    · rw [List.append_nil,shown1]
      exact chain
    · exact (Nat.zero_min _).symm
    · intro c _ _
      rw [shown1]
    · intro a _
      rw [shown1]
    · rw [List.append_nil]
      exact ⟨follows1.first,follows1.run,follows1.fresh,follows1.last⟩
    · intro start _
      rw [if_pos (missing_enough io.view start (Nat.zero_le _))]
  · have start := search_start num sane idle1 (shown1 ▸ chain) last
    have positive := (chain.inside _ (List.mem_of_getLast? last)).1
    obtain ⟨got,grown⟩ := allocLoop_spec sane whole start (by omega) none
    rw [shown1] at grown
    refine ⟨_,got,rfl,?_⟩
    rw [if_neg none]
    have left := grown.left
    by_cases missing : fs.missing io.view cache1.lastCluster num = 0
    · rw [if_pos (left.trans missing)]
      refine ⟨grown.idle,grown.chain,grown.new,grown.length,grown.same,grown.frame,follows1.grow grown.last _,?_,?_⟩
      · intro room
        have all := grown.length
        rw [Nat.min_eq_left room] at all
        exact counts got all
      · intro start here
        obtain rfl := Option.some.inj (here.symm.trans last)
        rw [if_pos missing]
    · rw [if_neg (by rwa [left])]
      refine ⟨grown.idle,grown.chain,grown.new,grown.length,grown.same,grown.frame,follows1.grow grown.last _,
        fun room => absurd (missing_enough io.view _ room) missing,?_⟩
      intro start here
      obtain rfl := Option.some.inj (here.symm.trans last)
      rw [if_neg missing,left]

/-- A chain that has no cluster in common with the one that is made longer stays what it is. -/
theorem Extended.other {r : IOManager × ClusterChain × Nat} (extended : Extended fs io l got num cache r) (sane : fs.Sane)
    {l' : List Nat} (chain' : fs.Chain io.view l') (apart : l.Disjoint l') : fs.Chain r.1.view l' := by
  refine ⟨chain'.linked.congr ?_,chain'.inside⟩
  intro c mem
  apply extended.same c
  · intro new
    exact chain'.busy sane mem (Finset.mem_filter.mp (extended.new c new)).2
  · intro last
    exact apart (List.mem_of_getLast? last) mem
/-- `fat_allocClusterChain` makes a chain longer by as many free clusters as it is asked for, or by all there
    are when they are too few. It returns 0 when there are enough. Chains that have no cluster in
    common with this one, and all sectors outside of the table, are left as they are. -/
theorem alloc_extends (sane : fs.Sane) (whole : fs.type ≠ .fat12) (idle : Idle io) (chain : fs.Chain io.view l)
    (follows : cache.Follows l) {rounds : Nat} (enough : l.length ≤ rounds) (num : Nat) :
    ∃ io' cache' ret got, fatAllocClusterChain fs rounds cache num io = some (io',cache',ret) ∧
      fs.Chain io'.view (l ++ got) ∧ (∀ c ∈ got, c ∈ fs.free io.view) ∧ got.length = min num (fs.free io.view).card ∧
      (num ≤ (fs.free io.view).card → ret = 0) ∧
      (∀ l', fs.Chain io.view l' → l.Disjoint l' → fs.Chain io'.view l') ∧
      ∀ a, (∀ i < fs.fatSectorCount, a ≠ fs.fatSector i) → io'.view a = io.view a := by
  obtain ⟨r,got,same,extended⟩ := alloc_spec sane whole idle chain follows enough num
  obtain ⟨start,last,-⟩ := chain.linked.ends
  exact ⟨r.1,r.2.1,r.2.2,got,same,extended.chain,extended.new,extended.length,extended.done last,
    fun l' chain' apart => extended.other sane chain' apart,extended.frame⟩
theorem alloc_extends_wide :
    ∃ io' cache' ret got, fatAllocClusterChain wideVolume 3 (fsInitClusterChain 2) 2 (iomanReset wideCard (Block.fill 0)) =
      some (io',cache',ret) ∧ wideVolume.Chain io'.view ([2,3,7] ++ got) := by
  obtain ⟨io',cache',ret,got,same,chain,-⟩ := alloc_extends wideVolume_sane (by decide)
    (reset_idle wideCard (Block.fill 0)) (by rw [view_free rfl]; exact wideCard_chain) (init_follows rfl) (Nat.le_refl 3) 2
  exact ⟨io',cache',ret,got,same,chain⟩

/-- On a card that is full of ones each cluster is a chain of its own, and none is free. -/
def onesCard : Card := fun _ => Block.fill 0xFF

theorem onesCard_table {c : Nat} (inside : c ≤ wideVolume.dataClusterCount + 1) : wideVolume.table onesCard c = 0xFFFF := by
  have byte (k : Nat) : wideVolume.fatByte onesCard k = 0xFF := Block.peek_fill 0xFF (Nat.mod_lt k (by decide))
  rw [table_of_le inside]
  show (wideVolume.fatByte onesCard (2 * c + 1)).toNat * 2 ^ 8 + (wideVolume.fatByte onesCard (2 * c)).toNat = 0xFFFF
  rw [byte,byte]
  rfl
/-- The entries of clusters set to 0, one after the other. -/
def FileSystem.clear (fs : FileSystem) (d : Card) (l : List Nat) : Card := l.foldl (fs.setEntry · · 0) d

variable (disc) in
theorem table_clear (sane : fs.Sane) (inside : ∀ c ∈ l, fs.IsCluster c) (c : Nat) :
    fs.table (fs.clear disc l) c = if c ∈ l then 0 else fs.table disc c := by
  induction l generalizing disc with
  | nil => rfl
  | cons x rest ih =>
    rw [List.forall_mem_cons] at inside
    rw [clear,List.foldl_cons]
    refine (ih _ inside.2).trans ?_
    rw [table_setEntry sane inside.1.2 (sane.fits (Nat.zero_le _))]
    by_cases later : c ∈ rest
    · rw [if_pos later,if_pos (List.mem_cons_of_mem x later)]
    · rw [if_neg later]
      by_cases here : c = x
      · rw [here,Function.update_self,if_pos List.mem_cons_self]
      · rw [Function.update_of_ne here,if_neg fun mem => (List.mem_cons.mp mem).elim here later]
theorem clear_frame (sane : fs.Sane) (inside : ∀ c ∈ l, fs.IsCluster c) {a : Nat}
    (outside : ∀ i < fs.fatSectorCount, a ≠ fs.fatSector i) : fs.clear disc l a = disc a := by
  induction l generalizing disc with
  | nil => rfl
  | cons x rest ih =>
    rw [List.forall_mem_cons] at inside
    rw [clear,List.foldl_cons]
    exact (ih inside.2).trans (setEntry_frame (sane.entry_inside inside.1.2) outside)

/-- A place at the first cluster of what is left of a chain. -/
structure ClusterChain.Heads (cache : ClusterChain) (l : List Nat) : Prop where
  valid : cache.discCluster ≠ 0
  run : ∀ i ≤ cache.linear, l[i]? = some (cache.discCluster + i)

/-- Nothing is found behind the last cluster. -/
theorem nextLookup_last (sane : fs.Sane) (whole : fs.type ≠ .fat12) (idle : Idle io) (chain : fs.Chain io.view [c])
    (heads : cache.Heads [c]) :
    ∃ io', fatLogicToDiscCluster fs cache (cache.logicCluster + 1) io =
        (io',{ cache with lastCluster := cache.discCluster },false) ∧ Idle io' ∧ io'.view = io.view := by
  have alone : cache.linear = 0 := by
    by_contra more
    have next := heads.run 1 (Nat.one_le_iff_ne_zero.mpr more)
    simp at next
  obtain ⟨io',stepped,idle',shown⟩ := getNextChain_last (k := 0) sane whole idle chain (heads.run 0 (Nat.zero_le _)) rfl
  refine ⟨io',?_,idle',shown⟩
  rw [fatLogicToDiscCluster,fatRewind,if_neg (by have := heads.valid; omega),Nat.add_sub_cancel_left,fatAdvance,
    if_neg (not_not.mpr alone)]
  simp only [stepped,Bool.false_eq_true,if_false]
/-- The next cluster is found without regard to what is before it in the chain. -/
theorem nextLookup_next (sane : fs.Sane) (whole : fs.type ≠ .fat12) (idle : Idle io) (chain : fs.Chain io.view (c :: d :: l))
    (heads : cache.Heads (c :: d :: l)) :
    ∃ io' cache', fatLogicToDiscCluster fs cache (cache.logicCluster + 1) io = (io',cache',true) ∧ Idle io' ∧
      io'.view = io.view ∧ cache'.Heads (d :: l) ∧ cache'.logicCluster = cache.logicCluster + 1 := by
  rw [fatLogicToDiscCluster,fatRewind,if_neg (by have := heads.valid; omega),Nat.add_sub_cancel_left,fatAdvance]
  by_cases more : cache.linear = 0
  · obtain ⟨io',m,stepped,idle',shown,run⟩ := getNextChain_next (k := 0) (d := d) sane whole idle chain
      (heads.run 0 (Nat.zero_le _)) rfl
    rw [if_neg (not_not.mpr more)]
    simp only [stepped,if_true,fatAdvance]
    refine ⟨io',_,rfl,idle',shown,⟨chain.positive (k := 1) rfl,?_⟩,rfl⟩
    intro i bound
    have next := run i bound
    rwa [Nat.zero_add,Nat.add_comm 1 i,List.getElem?_cons_succ] at next
  · rw [if_pos more]
    refine ⟨io,_,rfl,idle,rfl,⟨Nat.succ_ne_zero _,?_⟩,rfl⟩
    intro i bound
    have next := heads.run (i + 1) (by dsimp only at bound; omega)
    rwa [List.getElem?_cons_succ,Nat.add_comm i 1,← Nat.add_assoc] at next
theorem FileSystem.Chain.tail (chain : fs.Chain disc (c :: d :: l)) : fs.Chain disc (d :: l) :=
  ⟨chain.linked.tail,fun x mem => chain.inside x (List.mem_cons_of_mem c mem)⟩
theorem unlinkLoop_spec (sane : fs.Sane) (whole : fs.type ≠ .fat12) (rounds : Nat) (idle : Idle io)
    (chain : fs.Chain io.view (c :: l)) (heads : cache.Heads (c :: l)) (enough : l.length < rounds) :
    ∃ io' cache', fatUnlinkLoop fs rounds cache (cache.logicCluster + 1) c io = some (io',cache') ∧ Idle io' ∧
      io'.view = fs.clear io.view (c :: l) := by
  induction l generalizing c cache io rounds with
  | nil =>
    obtain ⟨rounds,rfl⟩ : ∃ r, rounds = r + 1 := ⟨rounds - 1,by simp at enough; omega⟩
    obtain ⟨io1,looked,idle1,shown1⟩ := nextLookup_last sane whole idle chain heads
    have place : c = cache.discCluster := Option.some.inj (heads.run 0 (Nat.zero_le _))
    obtain ⟨idle2,shown2⟩ := setNext_spec 0 sane (chain.inside c List.mem_cons_self).2 idle1
    rw [fatUnlinkLoop]
    simp only [looked,Bool.false_eq_true,if_false,← place]
    refine ⟨_,_,rfl,idle2,?_⟩
    rw [shown2,shown1]
    rfl
  | cons d rest ih =>
    obtain ⟨rounds,rfl⟩ : ∃ r, rounds = r + 1 := ⟨rounds - 1,by simp at enough; omega⟩
    obtain ⟨io1,cache1,looked,idle1,shown1,heads1,place1⟩ := nextLookup_next sane whole idle chain heads
    have inside := chain.inside c List.mem_cons_self
    obtain ⟨idle2,shown2⟩ := setNext_spec 0 sane inside.2 idle1
    have place : d = cache1.discCluster := Option.some.inj (heads1.run 0 (Nat.zero_le _))
    -- the entry that is freed is not one of the rest of the chain
    have apart := (List.nodup_cons.mp chain.linked.nodup).1
    have later : fs.Chain (fatSetNextClusterAddress fs c 0 io1).view (d :: rest) := by
      refine ⟨chain.tail.linked.congr ?_,chain.tail.inside⟩
      intro x mem
      rw [shown2,shown1,table_setEntry sane inside.2 (sane.fits (Nat.zero_le _)),
        Function.update_of_ne (ne_of_mem_of_not_mem mem apart)]
    obtain ⟨io',cache',looped,idle',shown⟩ := ih rounds idle2 later heads1 (Nat.lt_of_succ_lt_succ enough)
    rw [fatUnlinkLoop]
    simp only [looked,if_true]
    rw [if_pos (chain.positive (k := 0) rfl),← place,← place1]
    refine ⟨io',cache',looped,idle',?_⟩
    rw [shown,shown2,shown1]
    rfl
/-- `fat_unlinkClusterChain` from the first cluster on. -/
theorem unlink_spec (sane : fs.Sane) (whole : fs.type ≠ .fat12) (idle : Idle io) (chain : fs.Chain io.view l)
    (first : l.head? = some cache.firstCluster) (start : cache.linear = 0) {rounds : Nat} (enough : l.length < rounds) :
    ∃ io' cache', fatUnlinkClusterChain fs rounds cache io = some (io',cache') ∧ Idle io' ∧
      io'.view = fs.clear io.view l := by
  cases l with
  | nil => contradiction
  | cons c rest =>
    obtain rfl := Option.some.inj first
    obtain ⟨rounds,rfl⟩ : ∃ r, rounds = r + 1 := ⟨rounds - 1,by simp at enough; omega⟩
    have valid := chain.positive (k := 0) rfl
    have heads : ({ cache with logicCluster := 0, discCluster := cache.firstCluster } : ClusterChain).Heads
        (cache.firstCluster :: rest) := by
      refine ⟨valid,?_⟩
      intro i bound
      obtain rfl := Nat.le_zero.mp (Nat.le_trans bound (Nat.le_of_eq start))
      rfl
    have here : fatLogicToDiscCluster fs { cache with logicCluster := 0, discCluster := cache.firstCluster } 0 io =
        (io,{ cache with logicCluster := 0, discCluster := cache.firstCluster },true) := by
      rw [fatLogicToDiscCluster,fatRewind,if_neg (by rintro (less | zero); exacts [Nat.not_lt_zero _ less,valid zero])]
      rfl
    rw [fatUnlinkClusterChain,fatUnlinkLoop]
    simp only [here,if_true]
    exact unlinkLoop_spec sane whole rounds idle chain heads (Nat.lt_of_succ_lt_succ enough)

/-- `fat_unlinkClusterChain` frees the clusters of the chain and no others: their entries become 0 and all
    other entries stay, so that each chain that has no cluster in common with this one is still there, and
    so do all sectors outside of the table. -/
theorem unlink_frees (sane : fs.Sane) (whole : fs.type ≠ .fat12) (idle : Idle io) (chain : fs.Chain io.view l)
    (first : l.head? = some cache.firstCluster) (start : cache.linear = 0) {rounds : Nat} (enough : l.length < rounds) :
    ∃ io' cache', fatUnlinkClusterChain fs rounds cache io = some (io',cache') ∧
      (∀ c, fs.table io'.view c = if c ∈ l then 0 else fs.table io.view c) ∧
      (∀ l', fs.Chain io.view l' → l.Disjoint l' → fs.Chain io'.view l') ∧
      ∀ a, (∀ i < fs.fatSectorCount, a ≠ fs.fatSector i) → io'.view a = io.view a := by
  obtain ⟨io',cache',unlinked,-,shown⟩ := unlink_spec sane whole idle chain first start enough
  have table := table_clear io.view sane chain.inside
  rw [← shown] at table
  refine ⟨io',cache',unlinked,table,?_,?_⟩
  · intro l' chain' apart
    refine ⟨chain'.linked.congr ?_,chain'.inside⟩
    intro c mem
    rw [table,if_neg fun mem' => apart mem' mem]
  · intro a outside
    rw [shown]
    exact clear_frame sane chain.inside outside
theorem unlink_frees_wide :
    ∃ io' cache', fatUnlinkClusterChain wideVolume 4 ⟨0,0,0,2,0,0⟩ (iomanReset wideCard (Block.fill 0)) = some (io',cache') ∧
      wideVolume.table io'.view 3 = 0 := by
  obtain ⟨io',cache',same,table,-⟩ := unlink_frees wideVolume_sane (by decide)
    (reset_idle wideCard (Block.fill 0)) (by rw [view_free rfl]; exact wideCard_chain) rfl
    (show (⟨0,0,0,2,0,0⟩ : ClusterChain).linear = 0 from rfl) (Nat.lt_succ_self 3)
  exact ⟨io',cache',same,table 3⟩

end
end Net2Modbus
