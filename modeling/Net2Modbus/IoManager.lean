import Net2Modbus.Block
import Net2Modbus.Machine

/-!
# The sector cache of the file system

`ioman.c` as it is configured, with one buffer and one iteration. Sectors of the card are
handed out as pointers into the buffer, written back when the buffer is taken for another
sector, and read or written past the buffer when it holds another one. However a client
that keeps to its discipline mixes these calls, it sees what a plain card would hold, and
a flush brings the card up to date. Only what a direct write returns depends on the buffer.
-/
namespace Net2Modbus

abbrev Sector := Block UInt8 512
/-- The sectors behind `if_readBuf` and `if_writeBuf`. -/
abbrev Card := Nat → Sector

/-- The combinations of `IOM_MODE_READONLY`, `IOM_MODE_READWRITE` and `IOM_MODE_EXP_REQ` that are in use. -/
inductive IomMode
  | readonly | readwrite | readonlyExp
  deriving DecidableEq, Repr

/-- `IOManager`, with the bits of `status`. `nomemory` is set when a null pointer has been
    returned for want of a buffer. -/
structure IOManager where
  card : Card
  cacheMem : Sector
  sector : Nat
  valid : Bool
  writable : Bool
  usage : Nat
  itptr : Nat
  nomemory : Bool

/-- `ioman_reset` -/
def iomanReset (card : Card) (cacheMem : Sector) : IOManager := ⟨card,cacheMem,0,false,false,0,0,false⟩
/-- `ioman_incUseCnt` -/
def iomanIncUseCnt (io : IOManager) : IOManager := if io.usage = 0xFF then io else { io with usage := io.usage + 1 }
/-- `ioman_decUseCnt` -/
def iomanDecUseCnt (io : IOManager) : IOManager := { io with usage := io.usage - 1 }
/-- `ioman_resetCacheItem` -/
def iomanResetCacheItem (io : IOManager) : IOManager := { io with sector := 0, valid := false, writable := false, usage := 0 }
/-- `ioman_findSectorInCache` -/
def IOManager.Caches (io : IOManager) (address : Nat) : Prop := io.valid = true ∧ io.sector = address

instance (io : IOManager) (address : Nat) : Decidable (io.Caches address) := inferInstanceAs (Decidable (_ ∧ _))

/-- `ioman_push`. The counter is raised before it is used, so that the record that is written is
    the one behind `stack`: there `sector`, `status` and `usage` lie, which are copied to themselves. -/
def iomanPush (io : IOManager) : IOManager := { io with itptr := io.itptr + 1 }
/-- `ioman_pop`, which reads the same record. -/
def iomanPop (io : IOManager) : IOManager := if io.itptr = 0 ∨ 1 < io.itptr then io else { io with itptr := io.itptr - 1 }
/-- `ioman_putSectorInCache` -/
def iomanPutSectorInCache (address : Nat) (io : IOManager) : IOManager :=
  { io with cacheMem := io.card address, valid := true, sector := address }
/-- `ioman_flushSector`. It expects a write to return the opposite of what `ioman_writeSector` does, and so finds
    no failure. What it tests afterwards is the address of `usage`, so that the buffer stays writable. -/
def iomanFlushSector (io : IOManager) : IOManager :=
  if io.writable = true then { io with card := Function.update io.card io.sector io.cacheMem } else io
/-- The flush of a writable buffer, before it is taken for another sector. -/
def iomanWriteBack (io : IOManager) : IOManager := if io.writable = true then iomanFlushSector io else io
/-- `ioman_setWritable`, when it is asked for. -/
def iomanRequest (mode : IomMode) (io : IOManager) : IOManager :=
  if mode = .readwrite then { io with writable := true } else io
/-- The end of both ways to take the buffer for another sector. -/
def iomanTake (address : Nat) (mode : IomMode) (io : IOManager) : IOManager :=
  iomanIncUseCnt (iomanRequest mode (iomanPutSectorInCache address (iomanResetCacheItem io)))

/-- `ioman_getSector`: with one buffer it is hit, free, unused, or taken while it is in use. -/
def iomanGetSector (address : Nat) (mode : IomMode) (io : IOManager) : IOManager :=
  if io.Caches address then iomanIncUseCnt (iomanRequest mode io)
  else if io.valid = false then iomanTake address mode io
  else if io.usage = 0 then iomanTake address mode (iomanWriteBack io)
  else if io.itptr < 1 then
    iomanTake address mode (iomanPush (iomanWriteBack io))
  else { io with nomemory := true }
/-- `ioman_releaseSector` -/
def iomanReleaseSector (io : IOManager) : IOManager :=
  let io := iomanDecUseCnt io
  if io.usage = 0 ∧ io.itptr ≠ 0 then
    let io := iomanPop (iomanWriteBack io)
    iomanPutSectorInCache io.sector io
  else io
/-- `ioman_directSectorRead` -/
def iomanDirectSectorRead (address : Nat) (io : IOManager) : IOManager × Sector :=
  if io.Caches address then (io,io.cacheMem)
  else if io.valid = false then
    let io := iomanPutSectorInCache address io
    (io,io.cacheMem)
  else (io,io.card address)
/-- `ioman_writeSector`. `sd_writeSector` always returns 0, which is taken for a failure. -/
def iomanWriteSector (address : Nat) (data : Sector) (io : IOManager) : IOManager × Int :=
  ({ io with card := Function.update io.card address data },-1)
/-- `ioman_directSectorWrite`, and what it returns. -/
def iomanDirectSectorWrite (address : Nat) (data : Sector) (io : IOManager) : IOManager × Int :=
  if io.Caches address then ({ io with cacheMem := data, writable := true },0)
  else if io.valid = false then
    ({ iomanResetCacheItem { io with cacheMem := data } with sector := address, writable := true, valid := true },0)
  else iomanWriteSector address data io
/-- `ioman_flushRange` -/
def iomanFlushRange (low high : Nat) (io : IOManager) : IOManager :=
  let (low,high) := if high < low then (high,low) else (low,high)
  if low ≤ io.sector ∧ io.sector ≤ high ∧ io.writable = true then
    let io := iomanFlushSector io
    if io.usage = 0 then { io with writable := false } else io
  else io
/-- `ioman_flushAll` -/
def iomanFlushAll (io : IOManager) : IOManager :=
  if io.writable = true then
    let io := iomanFlushSector io
    if io.usage = 0 then { io with writable := false } else io
  else io

namespace IOManager
variable {io : IOManager} {address other : Nat} {mode : IomMode} {f : Sector → Sector}

/-- What the sectors hold, as the cache and the card have it between them. -/
def view (io : IOManager) : Card := fun address => if io.Caches address then io.cacheMem else io.card address
/-- The sector that the buffer is for. -/
def held (io : IOManager) : Option Nat := if io.valid = true then some io.sector else none
/-- The client changes the buffer through the pointer that it has been given. -/
def edit (f : Sector → Sector) (io : IOManager) : IOManager := { io with cacheMem := f io.cacheMem }

/-- A buffer that is not writable has what the card has. -/
structure Steady (io : IOManager) : Prop where
  clean : io.valid = true → io.writable = false → io.cacheMem = io.card io.sector
  dirty : io.writable = true → io.valid = true
  memory : io.nomemory = false
/-- No sector is in use. -/
structure Idle (io : IOManager) : Prop extends Steady io where
  unused : io.usage = 0
  flat : io.itptr = 0
/-- At most one sector is in use, and the buffer may have been taken for another one since. -/
structure Ready (io : IOManager) : Prop extends Steady io where
  once : io.usage ≤ 1
  flat : io.itptr = 0
/-- A sector is in use and in the buffer; another one may be in use outside of it. -/
structure Open (address : Nat) (io : IOManager) : Prop extends Steady io where
  caches : io.Caches address
  used : 1 ≤ io.usage
  depth : io.usage + io.itptr ≤ 2

theorem Idle.ready (idle : Idle io) : Ready io := ⟨idle.toSteady,by rw [idle.unused]; omega,idle.flat⟩
theorem view_caches (caches : io.Caches address) : io.view address = io.cacheMem := if_pos caches
theorem view_else (out : ¬ io.Caches address) : io.view address = io.card address := if_neg out
theorem Open.view (o : Open address io) : io.cacheMem = io.view address := (view_caches o.caches).symm
/-- Nothing is seen of a buffer that has nothing in it. -/
theorem view_free (free : io.valid = false) : io.view = io.card := by
  funext a
  exact view_else fun caches => absurd caches.1 (by simp [free])
/-- Two managers that agree on the buffer and on the card show the same. -/
theorem view_congr {io' : IOManager} (card : io'.card = io.card) (mem : io'.cacheMem = io.cacheMem)
    (valid : io'.valid = io.valid) (sector : io'.sector = io.sector) : io'.view = io.view := by
  funext a
  have same : io'.Caches a ↔ io.Caches a := by rw [Caches,Caches,valid,sector]
  by_cases caches : io.Caches a
  · rw [view_caches caches,view_caches (same.mpr caches),mem]
  · rw [view_else caches,view_else fun caches' => caches (same.mp caches'),card]

theorem held_caches (caches : io.Caches address) : io.held = some address := by
  rw [held,if_pos caches.1,caches.2]
theorem held_congr {io' : IOManager} (valid : io'.valid = io.valid) (sector : io'.sector = io.sector) : io'.held = io.held := by
  rw [held,held,valid,sector]

/-- Everything but the card stays when the buffer is written back. -/
theorem writeBack_same (io : IOManager) : iomanWriteBack io = { io with card := (iomanWriteBack io).card } := by
  unfold iomanWriteBack iomanFlushSector
  split <;> rfl
/-- The card becomes what was seen. -/
theorem writeBack_card (steady : Steady io) : (iomanWriteBack io).card = io.view := by
  funext a
  unfold iomanWriteBack iomanFlushSector
  by_cases dirty : io.writable = true
  · rw [if_pos dirty,if_pos dirty]
    by_cases here : io.sector = a
    · rw [view_caches ⟨steady.dirty dirty,here⟩,← here]
      exact Function.update_self ..
    · rw [view_else fun caches => here caches.2]
      exact Function.update_of_ne (Ne.symm here) ..
  · rw [if_neg dirty]
    by_cases caches : io.Caches a
    · rw [view_caches caches,steady.clean caches.1 (by simpa using dirty),caches.2]
    · exact (view_else caches).symm
theorem request_steady (steady : Steady io) (valid : io.valid = true) (mode : IomMode) : Steady (iomanRequest mode io) := by
  unfold iomanRequest
  split
  · exact ⟨fun _ writable => Bool.noConfusion writable,fun _ => valid,steady.memory⟩
  · exact steady
theorem request_same (mode : IomMode) (io : IOManager) :
    iomanRequest mode io = { io with writable := (iomanRequest mode io).writable } := by
  unfold iomanRequest
  split <;> rfl
theorem request_writable (mode : IomMode) (io : IOManager) (asked : mode = .readwrite) : (iomanRequest mode io).writable = true := by
  rw [iomanRequest,if_pos asked]
/-- A sector in the buffer is used once more. -/
theorem use_open (steady : Steady io) (caches : io.Caches address) (depth : io.usage + io.itptr ≤ 1) :
    Open address (iomanIncUseCnt (iomanRequest mode io)) ∧ (iomanIncUseCnt (iomanRequest mode io)).view = io.view ∧
      (mode = .readwrite → (iomanIncUseCnt (iomanRequest mode io)).writable = true) := by
  obtain ⟨clean,dirty,memory⟩ := request_steady steady caches.1 mode
  have writable := request_writable mode io
  rw [request_same mode io] at clean dirty memory writable ⊢
  have more : io.usage ≠ 0xFF := by omega
  rw [iomanIncUseCnt,if_neg more]
  refine ⟨⟨⟨clean,dirty,memory⟩,caches,Nat.succ_le_succ (Nat.zero_le _),?_⟩,view_congr rfl rfl rfl rfl,writable⟩
  calc io.usage + 1 + io.itptr = io.usage + io.itptr + 1 := Nat.add_right_comm ..
    _ ≤ 2 := Nat.succ_le_succ depth
theorem put_view (address : Nat) (io : IOManager) : (iomanPutSectorInCache address io).view = io.card := by
  funext a
  by_cases here : address = a
  · rw [view_caches ⟨rfl,here⟩,← here]
    rfl
  · exact view_else fun caches => here caches.2
variable (io address mode) in
/-- The buffer is taken for a sector: it has what the card has of it. -/
theorem take_open (memory : io.nomemory = false) (depth : io.itptr ≤ 1) :
    Open address (iomanTake address mode io) ∧ (iomanTake address mode io).view = io.card ∧
      (mode = .readwrite → (iomanTake address mode io).writable = true) := by
  have loaded : (iomanPutSectorInCache address (iomanResetCacheItem io)).view = io.card := put_view ..
  rw [← loaded]
  exact use_open ⟨fun _ _ => rfl,fun writable => Bool.noConfusion writable,memory⟩ ⟨rfl,rfl⟩
    (Nat.le_trans (Nat.le_of_eq (Nat.zero_add _)) depth)

theorem take_once (address : Nat) (mode : IomMode) (io : IOManager) :
    (iomanTake address mode io).usage = 1 ∧ (iomanTake address mode io).itptr = io.itptr := by
  rw [iomanTake,request_same]
  exact ⟨rfl,rfl⟩

/-- A sector is handed out when at most one other is in use. -/
theorem getSector_open (ready : Ready io) (address : Nat) (mode : IomMode) :
    Open address (iomanGetSector address mode io) ∧ (iomanGetSector address mode io).view = io.view ∧
      (mode = .readwrite → (iomanGetSector address mode io).writable = true) := by
  unfold iomanGetSector
  by_cases caches : io.Caches address
  · rw [if_pos caches]
    exact use_open ready.toSteady caches (by rw [ready.flat]; exact ready.once)
  · rw [if_neg caches]
    by_cases free : io.valid = false
    · rw [if_pos free,view_free free]
      exact take_open io address mode ready.memory (by rw [ready.flat]; exact Nat.zero_le 1)
    · have shown := writeBack_card ready.toSteady
      rw [if_neg free,if_pos (by rw [ready.flat]; exact Nat.one_pos : io.itptr < 1)]
      split
      · have taken := take_open (iomanWriteBack io) address mode
          (by rw [writeBack_same]; exact ready.memory) (by rw [writeBack_same,ready.flat]; exact Nat.zero_le 1)
        rwa [shown] at taken
      · have taken := take_open (iomanPush (iomanWriteBack io)) address mode
          (by rw [writeBack_same]; exact ready.memory)
          (by rw [iomanPush,writeBack_same]; exact Nat.succ_le_succ (Nat.le_of_eq ready.flat))
        rwa [show (iomanPush (iomanWriteBack io)).card = io.view from shown] at taken
theorem decUseCnt_steady (steady : Steady io) : Steady (iomanDecUseCnt io) := ⟨steady.clean,steady.dirty,steady.memory⟩
/-- The first sector that is handed out. -/
theorem getSector_first (idle : Idle io) (address : Nat) (mode : IomMode) : Ready (iomanGetSector address mode io) := by
  have o := (getSector_open idle.ready address mode).1
  have once : (iomanGetSector address mode io).usage = 1 ∧ (iomanGetSector address mode io).itptr = 0 := by
    unfold iomanGetSector
    by_cases caches : io.Caches address
    · rw [if_pos caches,request_same,iomanIncUseCnt,if_neg (by rw [idle.unused]; omega)]
      exact ⟨by rw [idle.unused],idle.flat⟩
    · rw [if_neg caches,if_pos idle.unused]
      split
      · have taken := take_once address mode io
        rwa [idle.flat] at taken
      · have taken := take_once address mode (iomanWriteBack io)
        have flat : (iomanWriteBack io).itptr = 0 := by
          rw [writeBack_same]
          exact idle.flat
        rwa [flat] at taken
  exact ⟨o.toSteady,Nat.le_of_eq once.1,once.2⟩
/-- The first sector that is handed out, as all that is known of the manager afterwards. -/
theorem getSector_idle (idle : Idle io) (address : Nat) (mode : IomMode) :
    ∃ io', iomanGetSector address mode io = io' ∧ Open address io' ∧ Ready io' ∧ io'.view = io.view ∧
      (mode = .readwrite → io'.writable = true) := by
  obtain ⟨o,shown,writable⟩ := getSector_open idle.ready address mode
  exact ⟨_,rfl,o,getSector_first idle address mode,shown,writable⟩
/-- After a release at most one sector is in use. -/
theorem releaseSector_ready (o : Open address io) :
    Ready (iomanReleaseSector io) ∧ (iomanReleaseSector io).view = io.view := by
  obtain ⟨steady,caches,used,depth⟩ := o
  have steady' := decUseCnt_steady steady
  unfold iomanReleaseSector
  by_cases nested : (iomanDecUseCnt io).usage = 0 ∧ (iomanDecUseCnt io).itptr ≠ 0
  · -- the buffer goes back to the sector from which it was taken, as far as the record tells
    have once : io.itptr = 1 := by
      have deep : io.itptr ≠ 0 := nested.2
      omega
    simp only [if_pos nested]
    rw [put_view,iomanPop,if_neg (by rw [writeBack_same]; show ¬ (io.itptr = 0 ∨ 1 < io.itptr); omega)]
    refine ⟨⟨⟨fun _ _ => rfl,fun _ => rfl,?_⟩,?_,?_⟩,writeBack_card steady'⟩
    · rw [writeBack_same]
      exact steady.memory
    · rw [writeBack_same]
      exact Nat.le_trans (Nat.le_of_eq nested.1) (Nat.zero_le 1)
    · rw [writeBack_same]
      show io.itptr - 1 = 0
      rw [once]
  · simp only [if_neg nested]
    have flat : io.itptr = 0 := by
      by_contra deep
      exact nested ⟨show io.usage - 1 = 0 by omega,deep⟩
    refine ⟨⟨steady',?_,flat⟩,view_congr rfl rfl rfl rfl⟩
    show io.usage - 1 ≤ 1
    omega
/-- The sector that was in use first is released. -/
theorem releaseSector_idle (ready : Ready io) : Idle (iomanReleaseSector io) ∧ (iomanReleaseSector io).view = io.view := by
  obtain ⟨steady,once,flat⟩ := ready
  unfold iomanReleaseSector
  simp only [if_neg fun nested : (iomanDecUseCnt io).usage = 0 ∧ (iomanDecUseCnt io).itptr ≠ 0 => nested.2 flat]
  refine ⟨⟨decUseCnt_steady steady,?_,flat⟩,view_congr rfl rfl rfl rfl⟩
  show io.usage - 1 = 0
  omega
/-- The buffer is for the same sector afterwards. -/
theorem releaseSector_held (kept : io.valid = true ∨ io.itptr = 0) : (iomanReleaseSector io).held = io.held := by
  unfold iomanReleaseSector
  by_cases nested : (iomanDecUseCnt io).usage = 0 ∧ (iomanDecUseCnt io).itptr ≠ 0
  · have valid : io.valid = true := kept.resolve_right nested.2
    simp only [if_pos nested]
    refine held_congr valid.symm ?_
    unfold iomanPop
    rw [writeBack_same]
    split <;> rfl
  · simp only [if_neg nested]
    exact held_congr rfl rfl
/-- A change of a sector in the buffer is a change of that sector. -/
theorem edit_open (o : Open address io) (writable : io.writable = true) :
    Open address (edit f io) ∧ (edit f io).view = Function.update io.view address (f (io.view address)) := by
  obtain ⟨⟨clean,dirty,memory⟩,caches,used,depth⟩ := o
  refine ⟨⟨⟨fun _ clean => ?_,dirty,memory⟩,caches,used,depth⟩,?_⟩
  · exact absurd (writable.symm.trans clean) (by simp)
  · funext a
    by_cases here : address = a
    · subst here
      rw [Function.update_self,view_caches caches]
      exact view_caches caches
    · rw [Function.update_of_ne (Ne.symm here),view_else fun caches' => here (caches.2.symm.trans caches'.2)]
      exact view_else fun caches' => here (caches.2.symm.trans caches'.2)

theorem directSectorRead_idle (idle : Idle io) (address : Nat) :
    Idle (iomanDirectSectorRead address io).1 ∧ (iomanDirectSectorRead address io).1.view = io.view ∧
      (iomanDirectSectorRead address io).2 = io.view address := by
  unfold iomanDirectSectorRead
  by_cases caches : io.Caches address
  · rw [if_pos caches]
    exact ⟨idle,rfl,(view_caches caches).symm⟩
  · rw [if_neg caches]
    by_cases free : io.valid = false
    · rw [if_pos free,view_free free]
      exact ⟨⟨⟨fun _ _ => rfl,fun _ => rfl,idle.memory⟩,idle.unused,idle.flat⟩,put_view ..,rfl⟩
    · rw [if_neg free]
      exact ⟨idle,rfl,(view_else caches).symm⟩
theorem directSectorRead_held (address : Nat) (io : IOManager) :
    (iomanDirectSectorRead address io).1.held = io.held.or (some address) := by
  unfold iomanDirectSectorRead
  by_cases caches : io.Caches address
  · rw [if_pos caches,held_caches caches]
    rfl
  · rw [if_neg caches]
    by_cases free : io.valid = false
    · simp only [held,free]
      rfl
    · have valid : io.valid = true := by simpa using free
      simp only [if_neg free,held,if_pos valid]
      rfl
/-- The sector goes into the buffer when it is there already, or when the buffer is free. -/
theorem directSectorWrite_held (address : Nat) (data : Sector) (io : IOManager) :
    (iomanDirectSectorWrite address data io).1.held = io.held.or (some address) ∧
      (iomanDirectSectorWrite address data io).2 = if io.held.getD address = address then 0 else -1 := by
  unfold iomanDirectSectorWrite
  by_cases caches : io.Caches address
  · rw [if_pos caches,held_caches caches]
    exact ⟨held_caches caches,(if_pos rfl).symm⟩
  · rw [if_neg caches]
    by_cases free : io.valid = false
    · simp only [held,free]
      exact ⟨rfl,(if_pos rfl).symm⟩
    · have valid : io.valid = true := by simpa using free
      have other : ¬ io.sector = address := fun same => caches ⟨valid,same⟩
      simp only [if_neg free,iomanWriteSector,held,if_pos valid]
      exact ⟨rfl,(if_neg other).symm⟩
theorem directSectorWrite_idle (idle : Idle io) (address : Nat) (data : Sector) :
    Idle (iomanDirectSectorWrite address data io).1 ∧
      (iomanDirectSectorWrite address data io).1.view = Function.update io.view address data := by
  unfold iomanDirectSectorWrite
  by_cases caches : io.Caches address
  · rw [if_pos caches]
    refine ⟨⟨⟨fun _ clean => Bool.noConfusion clean,fun _ => caches.1,idle.memory⟩,idle.unused,idle.flat⟩,?_⟩
    funext a
    by_cases here : address = a
    · subst here
      rw [Function.update_self]
      exact view_caches caches
    · have out : ¬ io.Caches a := fun caches' => here (caches.2.symm.trans caches'.2)
      rw [Function.update_of_ne (Ne.symm here),view_else out]
      exact view_else out
  · rw [if_neg caches]
    by_cases free : io.valid = false
    · rw [if_pos free,view_free free]
      refine ⟨⟨⟨fun _ clean => Bool.noConfusion clean,fun _ => rfl,idle.memory⟩,rfl,idle.flat⟩,?_⟩
      funext a
      by_cases here : address = a
      · subst here
        rw [Function.update_self]
        exact view_caches ⟨rfl,rfl⟩
      · rw [Function.update_of_ne (Ne.symm here)]
        exact view_else fun caches' => here caches'.2
    · rw [if_neg free,iomanWriteSector]
      refine ⟨⟨⟨fun valid clean => ?_,idle.dirty,idle.memory⟩,idle.unused,idle.flat⟩,?_⟩
      · show io.cacheMem = Function.update io.card address data io.sector
        rw [Function.update_of_ne fun same => caches ⟨valid,same⟩]
        exact idle.clean valid clean
      · funext a
        unfold IOManager.view
        by_cases here : address = a
        · subst here
          rw [Function.update_self]
          exact (if_neg caches).trans (Function.update_self ..)
        · rw [Function.update_of_ne (Ne.symm here)]
          by_cases caches' : io.Caches a
          · exact (if_pos caches').trans (if_pos caches').symm
          · exact (if_neg caches').trans ((Function.update_of_ne (Ne.symm here) ..).trans (if_neg caches').symm)
/-- The end of both kinds of flush: the buffer is written to the card, and is not writable any more. -/
theorem flushed (idle : Idle io) (dirty : io.writable = true) :
    Idle { iomanFlushSector io with writable := false } ∧
      ({ iomanFlushSector io with writable := false } : IOManager).view = io.view ∧
      (iomanFlushSector io).card = io.view := by
  have shown := writeBack_card idle.toSteady
  rw [iomanWriteBack,if_pos dirty] at shown
  have mem : (iomanFlushSector io).cacheMem = io.cacheMem := by rw [iomanFlushSector,if_pos dirty]
  have place : (iomanFlushSector io).sector = io.sector := by rw [iomanFlushSector,if_pos dirty]
  have hit : io.cacheMem = io.view io.sector := (view_caches ⟨idle.dirty dirty,rfl⟩).symm
  have same : iomanFlushSector io = { io with card := (iomanFlushSector io).card } := by
    rw [iomanFlushSector,if_pos dirty]
  refine ⟨⟨⟨fun _ _ => ?_,fun writable => Bool.noConfusion writable,?_⟩,?_,?_⟩,?_,shown⟩
  · show (iomanFlushSector io).cacheMem = (iomanFlushSector io).card (iomanFlushSector io).sector
    rw [mem,place,shown,hit]
  · rw [same]
    exact idle.memory
  · rw [same]
    exact idle.unused
  · rw [same]
    exact idle.flat
  · funext a
    by_cases caches : io.Caches a
    · rw [view_caches caches,← mem]
      refine view_caches ⟨?_,?_⟩
      · rw [same]
        exact caches.1
      · rw [same]
        exact caches.2
    · have out : ¬ ({ iomanFlushSector io with writable := false } : IOManager).Caches a := by
        rw [same]
        exact caches
      rw [view_else out]
      exact congrFun shown a
/-- A flush leaves the buffer to its sector. -/
theorem flushSector_held (io : IOManager) : (iomanFlushSector io).held = io.held := by
  unfold iomanFlushSector
  split <;> rfl
theorem flushAll_held (io : IOManager) : (iomanFlushAll io).held = io.held := by
  unfold iomanFlushAll
  split
  · dsimp only
    split <;> exact flushSector_held io
  · rfl
theorem flushRange_held (io : IOManager) (low high : Nat) : (iomanFlushRange low high io).held = io.held := by
  unfold iomanFlushRange
  generalize (if high < low then (high,low) else (low,high)) = range
  dsimp only
  split
  · split <;> exact flushSector_held io
  · rfl
theorem flushAll_idle (idle : Idle io) :
    Idle (iomanFlushAll io) ∧ (iomanFlushAll io).view = io.view ∧ (iomanFlushAll io).card = io.view := by
  have unused : (iomanFlushSector io).usage = 0 := by
    unfold iomanFlushSector
    split <;> exact idle.unused
  unfold iomanFlushAll
  by_cases dirty : io.writable = true
  · simp only [if_pos dirty,if_pos unused]
    exact flushed idle dirty
  · rw [if_neg dirty]
    have shown := writeBack_card idle.toSteady
    rw [iomanWriteBack,if_neg dirty] at shown
    exact ⟨idle,rfl,shown⟩
/-- A flush of a range brings the sectors of the range up to date. -/
theorem flushRange_idle (idle : Idle io) {low high : Nat} (order : low ≤ high) :
    Idle (iomanFlushRange low high io) ∧ (iomanFlushRange low high io).view = io.view ∧
      ∀ a, low ≤ a → a ≤ high → (iomanFlushRange low high io).card a = io.view a := by
  have unused : (iomanFlushSector io).usage = 0 := by
    unfold iomanFlushSector
    split <;> exact idle.unused
  unfold iomanFlushRange
  simp only [if_neg (Nat.not_lt.mpr order)]
  by_cases within : low ≤ io.sector ∧ io.sector ≤ high ∧ io.writable = true
  · simp only [if_pos within,if_pos unused]
    obtain ⟨idle',shown,card⟩ := flushed idle within.2.2
    refine ⟨idle',shown,?_⟩
    intro a _ _
    exact congrFun card a
  · rw [if_neg within]
    refine ⟨idle,rfl,?_⟩
    intro a above below
    by_cases caches : io.Caches a
    · rw [view_caches caches,← caches.2]
      refine (idle.clean caches.1 ?_).symm
      by_contra dirty
      exact within ⟨caches.2 ▸ above,caches.2 ▸ below,by simpa using dirty⟩
    · exact (view_else caches).symm

end IOManager

/-! ### Clients of the cache -/

/-- What a client has in use: nothing, one sector, a second one, or only the first one after the
    second has been released, whose pointer is not to be followed any more. -/
inductive SectorClient
  | none
  | one (address : Nat) (rw : Bool)
  | two (address : Nat) (rw : Bool)
  | left
  deriving DecidableEq, Repr

inductive SectorCall
  | getSector (address : Nat) (mode : IomMode)
  | look
  | change (f : Sector → Sector)
  | releaseSector
  | directRead (address : Nat)
  | directWrite (address : Nat) (data : Sector)
  | flushRange (low high : Nat)
  | flushAll

/-- The discipline of the clients: at most two sectors are in use, the pointer of the second one is
    followed while there are two, and what is changed has been asked for to be written. -/
def SectorClient.May (c : SectorClient) : SectorCall → Prop
  | .getSector _ _ => c = .none ∨ c = .left ∨ ∃ address rw, c = .one address rw
  | .look => ∃ address rw, c = .one address rw ∨ c = .two address rw
  | .change _ => ∃ address, c = .one address true ∨ c = .two address true
  | .releaseSector => c ≠ .none
  | .directRead _ | .directWrite _ _ | .flushAll => c = .none
  | .flushRange low high => c = .none ∧ low ≤ high

def SectorClient.next : SectorClient → SectorCall → SectorClient
  | .none,.getSector address mode => .one address (mode = .readwrite)
  | _,.getSector address mode => .two address (mode = .readwrite)
  | .two _ _,.releaseSector => .left
  | _,.releaseSector => .none
  | c,_ => c
/-- The sector that the client's pointer is for. -/
def SectorClient.address : SectorClient → Nat
  | .one address _ | .two address _ => address
  | .none | .left => 0

inductive SectorEvent
  /-- The client sees a sector. -/
  | seen (data : Sector)
  /-- What a direct write returns. -/
  | returned (r : Int)

/-- The cache under a client. -/
def iomanStep (s : IOManager × SectorClient) (call : SectorCall) : (IOManager × SectorClient) × List SectorEvent :=
  let c := s.2.next call
  match call with
  | .getSector address mode => ((iomanGetSector address mode s.1,c),[])
  | .look => ((s.1,c),[.seen s.1.cacheMem])
  | .change f => ((s.1.edit f,c),[])
  | .releaseSector => ((iomanReleaseSector s.1,c),[])
  | .directRead address =>
    let (io,data) := iomanDirectSectorRead address s.1
    ((io,c),[.seen data])
  | .directWrite address data =>
    let (io,r) := iomanDirectSectorWrite address data s.1
    ((io,c),[.returned r])
  | .flushRange low high => ((iomanFlushRange low high s.1,c),[])
  | .flushAll => ((iomanFlushAll s.1,c),[])

/-- A card without a cache. It notes which sector would be in the buffer: the one that was handed out last, or
    before that the first one that was read or written directly. -/
structure PlainCard where
  card : Card
  held : Option Nat
def IOManager.plain (io : IOManager) : PlainCard := ⟨io.view,io.held⟩
/-- The card under the same client. A direct write fails when it goes past the buffer. -/
def cardStep (s : PlainCard × SectorClient) (call : SectorCall) : (PlainCard × SectorClient) × List SectorEvent :=
  let c := s.2.next call
  match call with
  | .getSector address _ => (({ s.1 with held := some address },c),[])
  | .look => ((s.1,c),[.seen (s.1.card s.2.address)])
  | .change f => (({ s.1 with card := Function.update s.1.card s.2.address (f (s.1.card s.2.address)) },c),[])
  | .directRead address => (({ s.1 with held := s.1.held.or (some address) },c),[.seen (s.1.card address)])
  | .directWrite address data =>
    (({ card := Function.update s.1.card address data, held := s.1.held.or (some address) },c),
      [.returned (if s.1.held.getD address = address then 0 else -1)])
  | .releaseSector | .flushRange _ _ | .flushAll => ((s.1,c),[])

def ioman : Machine (IOManager × SectorClient) SectorCall SectorEvent := ⟨fun s => s.2.May,iomanStep⟩
def plainCard : Machine (PlainCard × SectorClient) SectorCall SectorEvent := ⟨fun s => s.2.May,cardStep⟩

/-- What the buffer is like for what the client has in use. -/
inductive InUse : IOManager → SectorClient → Prop
  | none {io : IOManager} (idle : io.Idle) : InUse io .none
  | one {io : IOManager} {address : Nat} {rw : Bool} (ready : io.Ready) (o : io.Open address)
      (writable : rw = true → io.writable = true) : InUse io (.one address rw)
  | two {io : IOManager} {address : Nat} {rw : Bool} (o : io.Open address)
      (writable : rw = true → io.writable = true) : InUse io (.two address rw)
  | left {io : IOManager} (ready : io.Ready) : InUse io .left
/-- The cache shows what the card would hold. -/
def Shows (s : IOManager × SectorClient) (s' : PlainCard × SectorClient) : Prop :=
  InUse s.1 s.2 ∧ s' = (s.1.plain,s.2)

section
variable {io : IOManager} {c : SectorClient}

theorem InUse.shows_ {p : PlainCard} (use : InUse io c) (view : io.view = p.card) (held : io.held = p.held) :
    Shows (io,c) (p,c) := by
  refine ⟨use,?_⟩
  rw [IOManager.plain,view,held]
theorem InUse.getSector (use : InUse io c) {address : Nat} {mode : IomMode} (may : c.May (.getSector address mode)) :
    InUse (iomanGetSector address mode io) (c.next (.getSector address mode)) ∧
      (iomanGetSector address mode io).view = io.view ∧ (iomanGetSector address mode io).held = some address := by
  cases use with
  | none idle =>
    obtain ⟨o,shown,writable⟩ := IOManager.getSector_open idle.ready address mode
    exact ⟨.one (IOManager.getSector_first idle ..) o fun rw => writable (of_decide_eq_true rw),shown,
      IOManager.held_caches o.caches⟩
  | one ready o' writable' =>
    obtain ⟨o,shown,writable⟩ := IOManager.getSector_open ready address mode
    exact ⟨.two o fun rw => writable (of_decide_eq_true rw),shown,IOManager.held_caches o.caches⟩
  | two o' writable' =>
    rcases may with same | same | ⟨_,_,same⟩ <;> contradiction
  | left ready =>
    obtain ⟨o,shown,writable⟩ := IOManager.getSector_open ready address mode
    exact ⟨.two o fun rw => writable (of_decide_eq_true rw),shown,IOManager.held_caches o.caches⟩
theorem InUse.releaseSector (use : InUse io c) (may : c.May .releaseSector) :
    InUse (iomanReleaseSector io) (c.next .releaseSector) ∧ (iomanReleaseSector io).view = io.view ∧
      (iomanReleaseSector io).held = io.held := by
  cases use with
  | none idle => exact absurd rfl may
  | one ready o writable =>
    obtain ⟨idle,shown⟩ := IOManager.releaseSector_idle ready
    exact ⟨.none idle,shown,IOManager.releaseSector_held (.inr ready.flat)⟩
  | two o writable =>
    obtain ⟨ready,shown⟩ := IOManager.releaseSector_ready o
    exact ⟨.left ready,shown,IOManager.releaseSector_held (.inl o.caches.1)⟩
  | left ready =>
    obtain ⟨idle,shown⟩ := IOManager.releaseSector_idle ready
    exact ⟨.none idle,shown,IOManager.releaseSector_held (.inr ready.flat)⟩
theorem InUse.idle (use : InUse io .none) : io.Idle := by
  cases use with
  | none idle => exact idle

theorem InUse.memory (use : InUse io c) : io.nomemory = false := by
  cases use with
  | none idle => exact idle.memory
  | one ready o writable => exact ready.memory
  | two o writable => exact o.memory
  | left ready => exact ready.memory

/-- One call shows the same through the cache and on the card. -/
theorem ioman_step (s : IOManager × SectorClient) (s' : PlainCard × SectorClient) (call : SectorCall) (shows_ : Shows s s')
    (may : s.2.May call) : Shows (ioman.step s call).1 (plainCard.step s' call).1 ∧
      (ioman.step s call).2 = (plainCard.step s' call).2 := by
  obtain ⟨io,c⟩ := s
  obtain ⟨use,rfl⟩ := shows_
  cases call with
  | getSector address mode =>
    obtain ⟨use',shown,held⟩ := use.getSector may
    exact ⟨use'.shows_ shown held,rfl⟩
  | look =>
    refine ⟨⟨?_,rfl⟩,?_⟩
    · cases c <;> exact use
    · cases use with
      | none idle => obtain ⟨_,_,same | same⟩ := may <;> contradiction
      | one ready o writable => exact congrArg (fun data => [SectorEvent.seen data]) o.view
      | two o writable => exact congrArg (fun data => [SectorEvent.seen data]) o.view
      | left ready => obtain ⟨_,_,same | same⟩ := may <;> contradiction
  | change f =>
    obtain ⟨address,rfl | rfl⟩ := may
    · cases use with
      | one ready o writable =>
        obtain ⟨o',shown⟩ := IOManager.edit_open (f := f) o (writable rfl)
        exact ⟨(InUse.one ⟨o'.toSteady,ready.once,ready.flat⟩ o' writable).shows_ shown rfl,rfl⟩
    · cases use with
      | two o writable =>
        obtain ⟨o',shown⟩ := IOManager.edit_open (f := f) o (writable rfl)
        exact ⟨(InUse.two o' writable).shows_ shown rfl,rfl⟩
  | releaseSector =>
    obtain ⟨use',shown,held⟩ := use.releaseSector may
    exact ⟨use'.shows_ shown held,rfl⟩
  | directRead address =>
    obtain rfl := may
    obtain ⟨idle,shown,seen⟩ := IOManager.directSectorRead_idle use.idle address
    exact ⟨(InUse.none idle).shows_ shown (IOManager.directSectorRead_held address io),congrArg (fun data => [SectorEvent.seen data]) seen⟩
  | directWrite address data =>
    obtain rfl := may
    obtain ⟨idle,shown⟩ := IOManager.directSectorWrite_idle use.idle address data
    obtain ⟨held,status⟩ := IOManager.directSectorWrite_held address data io
    exact ⟨(InUse.none idle).shows_ shown held,congrArg (fun r => [SectorEvent.returned r]) status⟩
  | flushRange low high =>
    obtain ⟨rfl,order⟩ := may
    obtain ⟨idle,shown,-⟩ := IOManager.flushRange_idle use.idle order
    exact ⟨(InUse.none idle).shows_ shown (IOManager.flushRange_held io low high),rfl⟩
  | flushAll =>
    obtain rfl := may
    obtain ⟨idle,shown,-⟩ := IOManager.flushAll_idle use.idle
    exact ⟨(InUse.none idle).shows_ shown (IOManager.flushAll_held io),rfl⟩

variable {calls : List SectorCall}

theorem ioman_run (idle : io.Idle) (each : ioman.Admissible (io,.none) calls) :
    Shows (ioman.after (io,.none) calls) (plainCard.after (io.plain,.none) calls) ∧
      ioman.trace (io,.none) calls = plainCard.trace (io.plain,.none) calls :=
  Machine.simulation ioman_step (R := Shows) ⟨.none idle,rfl⟩ each

/-- The cache cannot be told from a card: a client that keeps to its discipline sees what a plain card
    would show, finds a direct write to fail exactly when it goes past the buffer, is never refused a buffer, and
    when it has released everything a flush of a range leaves on the card what a plain card would hold there. -/
theorem ioman_refines (idle : io.Idle) (each : ioman.Admissible (io,.none) calls) :
    ioman.trace (io,.none) calls = plainCard.trace (io.plain,.none) calls ∧
      (ioman.after (io,.none) calls).1.nomemory = false ∧
      ((ioman.after (io,.none) calls).2 = .none → ∀ low high a, low ≤ a → a ≤ high →
        (iomanFlushRange low high (ioman.after (io,.none) calls).1).card a = (plainCard.after (io.plain,.none) calls).1.card a) := by
  obtain ⟨⟨use,same⟩,shown⟩ := ioman_run idle each
  refine ⟨shown,use.memory,?_⟩
  intro released low high a above below
  rw [released] at use
  rw [same]
  exact (IOManager.flushRange_idle use.idle (Nat.le_trans above below)).2.2 a above below
/-- A manager that has just been started. -/
theorem reset_idle (card : Card) (cacheMem : Sector) : (iomanReset card cacheMem).Idle :=
  ⟨⟨fun valid => Bool.noConfusion valid,fun writable => Bool.noConfusion writable,rfl⟩,rfl,rfl⟩
/-- A sector is changed while another one is in use, both are read again, and a third one is written past
    the buffer. -/
theorem ioman_refines_nested :
    let calls : List SectorCall := [.getSector 7 .readonly,.look,.getSector 8 .readwrite,.change (·.poke 0 1),.releaseSector,
      .releaseSector,.directRead 8,.directWrite 9 (Block.fill 3),.getSector 7 .readonly,.look,.releaseSector]
    ioman.trace (iomanReset (fun _ => Block.fill 0) (Block.fill 0),.none) calls =
      plainCard.trace ((iomanReset (fun _ => Block.fill 0) (Block.fill 0)).plain,.none) calls := by
  refine (ioman_refines (reset_idle ..) ?_).1
  simp [Machine.Admissible,ioman,iomanStep,SectorClient.May,SectorClient.next]
end
end Net2Modbus
