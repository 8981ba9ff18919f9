import Net2Modbus.IoManager

/-!
# The file allocation table

The volume as `fs.c` describes it, and the entries of its FAT as `fat.c` reads and writes
them, in 12, 16 or 32 bits: a table of 12 bits packs two entries into three bytes, and an
entry may begin in one sector and end in the next. However reads and writes of entries
follow each other, they are those of an array of numbers, and everything outside of the
table stays.
-/
namespace Net2Modbus

inductive FatType
  | fat12 | fat16 | fat32
  deriving DecidableEq, Repr

/-- `VolumeId`, as far as it is read after the volume is mounted. -/
structure VolumeId where
  bytesPerSector : Nat
  sectorsPerCluster : Nat
  reservedSectorCount : Nat
  numberOfFats : Nat
  rootEntryCount : Nat
  deriving DecidableEq, Repr

/-- `FileSystem`, with the place of its partition on the disc. -/
structure FileSystem where
  lbaBegin : Nat
  volumeId : VolumeId
  dataClusterCount : Nat
  fatSectorCount : Nat
  type : FatType
  deriving DecidableEq, Repr

/-- `ex_getb16` -/
def exGetb16 (buf : Sector) (offset : Nat) : Nat := (buf.peek (offset + 1)).toNat * 2 ^ 8 + (buf.peek offset).toNat
/-- `ex_getb32` -/
def exGetb32 (buf : Sector) (offset : Nat) : Nat :=
  (buf.peek (offset + 3)).toNat * 2 ^ 24 + (buf.peek (offset + 2)).toNat * 2 ^ 16 +
    (buf.peek (offset + 1)).toNat * 2 ^ 8 + (buf.peek offset).toNat
/-- `ex_setb16` -/
def exSetb16 (buf : Sector) (offset data : Nat) : Sector :=
  (buf.poke offset (UInt8.ofNat data)).poke (offset + 1) (UInt8.ofNat (data / 2 ^ 8))
/-- `ex_setb32` -/
def exSetb32 (buf : Sector) (offset data : Nat) : Sector :=
  (((buf.poke offset (UInt8.ofNat data)).poke (offset + 1) (UInt8.ofNat (data / 2 ^ 8))).poke (offset + 2)
    (UInt8.ofNat (data / 2 ^ 16))).poke (offset + 3) (UInt8.ofNat (data / 2 ^ 24))

/-- `part_getRealLBA` -/
def partGetRealLBA (fs : FileSystem) (address : Nat) : Nat := (fs.lbaBegin + address) % 2 ^ 32
/-- `part_getSect` -/
def partGetSect (fs : FileSystem) (address : Nat) (mode : IomMode) : IOManager → IOManager :=
  iomanGetSector (partGetRealLBA fs address) mode
/-- `fs_clusterToSector` -/
def fsClusterToSector (fs : FileSystem) (cluster : Nat) : Nat :=
  let base := fs.volumeId.reservedSectorCount + fs.fatSectorCount * fs.volumeId.numberOfFats +
    if fs.type = .fat32 then 0 else fs.volumeId.rootEntryCount / 16
  (base + (cluster + 2 ^ 32 - 2) * fs.volumeId.sectorsPerCluster) % 2 ^ 32

/-- `fat_getSectorAddressFatEntry` -/
def fatGetSectorAddressFatEntry (fs : FileSystem) (cluster : Nat) : Nat :=
  let res := match fs.type with
    | .fat12 => cluster * 3 % 2 ^ 32 / 1024
    | .fat16 => cluster / 256
    | .fat32 => cluster / 128
  if fs.fatSectorCount ≤ res then 0 else fs.volumeId.reservedSectorCount + res
/-- The place of an entry of 12 bits in its sector. -/
def fat12Offset (cluster : Nat) : Nat := cluster % 1024 * 3 / 2 % 512
/-- An entry of 12 bits from its first and its second byte. -/
def fat12Value (cluster hb lb : Nat) : Nat := if cluster % 2 = 0 then lb % 16 * 256 + hb else lb * 16 + hb / 16
/-- The two bytes of an entry of 12 bits after it has been set, one of which has half of another entry. -/
def fat12First (cluster next : Nat) (old : UInt8) : UInt8 :=
  if cluster % 2 = 0 then UInt8.ofNat next else UInt8.ofNat (old.toNat % 16 + next * 16 % 256)
def fat12Second (cluster next : Nat) (old : UInt8) : UInt8 :=
  if cluster % 2 = 0 then UInt8.ofNat (old.toNat / 16 * 16 + next / 256 % 16) else UInt8.ofNat (next / 16)

/-- `fat_getNextClusterAddress` -/
def fatGetNextClusterAddress (fs : FileSystem) (cluster : Nat) (io : IOManager) : IOManager × Nat :=
  let sector := fatGetSectorAddressFatEntry fs cluster
  if fs.fatSectorCount ≤ sector - fs.volumeId.reservedSectorCount ∨ sector = 0 then (io,0)
  else
    let io := partGetSect fs sector .readonly io
    match fs.type with
    | .fat12 =>
      let offset := fat12Offset cluster
      let hb := (io.cacheMem.peek offset).toNat
      if offset = 511 then
        let io := partGetSect fs (sector + 1) .readonly (iomanReleaseSector io)
        (iomanReleaseSector io,fat12Value cluster hb (io.cacheMem.peek 0).toNat)
      else (iomanReleaseSector io,fat12Value cluster hb (io.cacheMem.peek (offset + 1)).toNat)
    | .fat16 => (iomanReleaseSector io,exGetb16 io.cacheMem (2 * (cluster % 256)))
    | .fat32 => (iomanReleaseSector io,exGetb32 io.cacheMem (4 * (cluster % 128)))

/-- `fat_getNextClusterAddressWBuf` -/
def fatGetNextClusterAddressWBuf (fs : FileSystem) (cluster : Nat) (io : IOManager) : IOManager × Nat :=
  match fs.type with
  | .fat12 =>
    let offset := fat12Offset cluster
    let hb := (io.cacheMem.peek offset).toNat
    if offset = 511 then
      let io := partGetSect fs (fatGetSectorAddressFatEntry fs cluster + 1) .readonly io
      (iomanReleaseSector io,fat12Value cluster hb (io.cacheMem.peek 0).toNat)
    else (io,fat12Value cluster hb (io.cacheMem.peek (offset + 1)).toNat)
  | .fat16 => (io,exGetb16 io.cacheMem (2 * (cluster % 256)))
  | .fat32 => (io,exGetb32 io.cacheMem (4 * (cluster % 128)))
/-- `fat_setNextClusterAddressWBuf`. With an entry that goes on in the next sector a second sector is
    taken while the first one is in use. -/
def fatSetNextClusterAddressWBuf (fs : FileSystem) (cluster next : Nat) (io : IOManager) : IOManager :=
  match fs.type with
  | .fat12 =>
    let offset := fat12Offset cluster
    if offset = 511 then
      let io := io.edit fun buf => buf.poke offset (fat12First cluster next (buf.peek offset))
      let io := partGetSect fs (fatGetSectorAddressFatEntry fs cluster + 1) .readwrite io
      iomanReleaseSector (io.edit fun buf => buf.poke 0 (fat12Second cluster next (buf.peek 0)))
    else
      let io := io.edit fun buf => buf.poke offset (fat12First cluster next (buf.peek offset))
      io.edit fun buf => buf.poke (offset + 1) (fat12Second cluster next (buf.peek (offset + 1)))
  | .fat16 => io.edit fun buf => exSetb16 buf (2 * (cluster % 256)) next
  | .fat32 => io.edit fun buf => exSetb32 buf (4 * (cluster % 128)) next
/-- `fat_setNextClusterAddress`, whose body sets the entry in the way of the function above. -/
def fatSetNextClusterAddress (fs : FileSystem) (cluster next : Nat) (io : IOManager) : IOManager :=
  let sector := fatGetSectorAddressFatEntry fs cluster
  if fs.fatSectorCount ≤ sector - fs.volumeId.reservedSectorCount ∨ sector = 0 then io
  else iomanReleaseSector (fatSetNextClusterAddressWBuf fs cluster next (partGetSect fs sector .readwrite io))

/-- `fat_isEocMarker` -/
def fatIsEocMarker (fs : FileSystem) (entry : Nat) : Prop :=
  match fs.type with
  | .fat12 => 0xFF8 ≤ entry
  | .fat16 => 0xFFF8 ≤ entry
  | .fat32 => 0xFFFFFF8 ≤ entry % 2 ^ 28
/-- `fat_giveEocMarker` -/
def fatGiveEocMarker (fs : FileSystem) : Nat :=
  match fs.type with
  | .fat12 => 0xFFF
  | .fat16 => 0xFFFF
  | .fat32 => 0x0FFFFFFF

instance (fs : FileSystem) (entry : Nat) : Decidable (fatIsEocMarker fs entry) := by
  unfold fatIsEocMarker
  cases fs.type <;> infer_instance

/-! ### The table as one array of bytes -/

namespace FileSystem
variable (fs : FileSystem) (d : Card)

/-- A sector of the table on the card. -/
def fatSector (i : Nat) : Nat := partGetRealLBA fs (fs.volumeId.reservedSectorCount + i)
/-- A byte of the table. -/
def fatByte (k : Nat) : UInt8 := (d (fs.fatSector (k / 512))).peek (k % 512)
/-- The card after a byte of the table has been changed. -/
def pokeFat (k : Nat) (f : UInt8 → UInt8) : Card :=
  Function.update d (fs.fatSector (k / 512)) ((d (fs.fatSector (k / 512))).poke (k % 512) (f (fs.fatByte d k)))
/-- The entry of a cluster. -/
def entry (cluster : Nat) : Nat :=
  match fs.type with
  | .fat12 => fat12Value cluster (fs.fatByte d (cluster * 3 / 2)).toNat (fs.fatByte d (cluster * 3 / 2 + 1)).toNat
  | .fat16 => (fs.fatByte d (2 * cluster + 1)).toNat * 2 ^ 8 + (fs.fatByte d (2 * cluster)).toNat
  | .fat32 =>
    (fs.fatByte d (4 * cluster + 3)).toNat * 2 ^ 24 + (fs.fatByte d (4 * cluster + 2)).toNat * 2 ^ 16 +
      (fs.fatByte d (4 * cluster + 1)).toNat * 2 ^ 8 + (fs.fatByte d (4 * cluster)).toNat
/-- The card after the entry of a cluster has been set. -/
def setEntry (cluster next : Nat) : Card :=
  match fs.type with
  | .fat12 =>
    fs.pokeFat (fs.pokeFat d (cluster * 3 / 2) (fat12First cluster next)) (cluster * 3 / 2 + 1) (fat12Second cluster next)
  | .fat16 =>
    fs.pokeFat (fs.pokeFat d (2 * cluster) fun _ => UInt8.ofNat next) (2 * cluster + 1) fun _ => UInt8.ofNat (next / 2 ^ 8)
  | .fat32 =>
    fs.pokeFat (fs.pokeFat (fs.pokeFat (fs.pokeFat d (4 * cluster) fun _ => UInt8.ofNat next) (4 * cluster + 1)
      fun _ => UInt8.ofNat (next / 2 ^ 8)) (4 * cluster + 2) fun _ => UInt8.ofNat (next / 2 ^ 16)) (4 * cluster + 3)
      fun _ => UInt8.ofNat (next / 2 ^ 24)
/-- The width of the entries, and where the entry of a cluster begins and ends. -/
def entryBits : Nat :=
  match fs.type with
  | .fat12 => 12
  | .fat16 => 16
  | .fat32 => 32
def entryStart (cluster : Nat) : Nat :=
  match fs.type with
  | .fat12 => cluster * 3 / 2
  | .fat16 => 2 * cluster
  | .fat32 => 4 * cluster
def entryEnd (cluster : Nat) : Nat :=
  match fs.type with
  | .fat12 => cluster * 3 / 2 + 1
  | .fat16 => 2 * cluster + 1
  | .fat32 => 4 * cluster + 3

/-- The number of the first data sector. -/
def firstDataSector : Nat :=
  fs.volumeId.reservedSectorCount + fs.fatSectorCount * fs.volumeId.numberOfFats +
    if fs.type = .fat32 then 0 else fs.volumeId.rootEntryCount / 16
/-- The numbers that are clusters. -/
def IsCluster (cluster : Nat) : Prop := 2 ≤ cluster ∧ cluster ≤ fs.dataClusterCount + 1

/-- A volume whose parts fit on the card one behind the other, with an entry in the table for each
    cluster, and with no cluster whose number, or the number after it, is an end of a chain. There
    are at least two clusters. -/
structure Sane : Prop where
  spc : 0 < fs.volumeId.sectorsPerCluster
  reserved : 0 < fs.volumeId.reservedSectorCount
  fats : 0 < fs.volumeId.numberOfFats
  table : fs.entryEnd (fs.dataClusterCount + 1) < 512 * fs.fatSectorCount
  card : fs.lbaBegin + fs.firstDataSector + fs.dataClusterCount * fs.volumeId.sectorsPerCluster ≤ 2 ^ 32
  several : 2 ≤ fs.dataClusterCount
  numbers : fs.dataClusterCount + 2 < 2 ^ 28 ∧ ¬ fatIsEocMarker fs (fs.dataClusterCount + 2)

instance (cluster : Nat) : Decidable (fs.IsCluster cluster) := inferInstanceAs (Decidable (_ ∧ _))

variable {fs d} {cluster other next value k j : Nat} {f : UInt8 → UInt8}

/-- Sectors of the partition that the card has are different on the card. -/
theorem realLBA_inj {a b : Nat} (left : fs.lbaBegin + a < 2 ^ 32) (right : fs.lbaBegin + b < 2 ^ 32)
    (same : partGetRealLBA fs a = partGetRealLBA fs b) : a = b := by
  rw [partGetRealLBA,partGetRealLBA,Nat.mod_eq_of_lt left,Nat.mod_eq_of_lt right] at same
  exact Nat.add_left_cancel same
/-- The table lies before the data. -/
theorem Sane.table_before (sane : fs.Sane) {i : Nat} (inside : i < fs.fatSectorCount) :
    fs.volumeId.reservedSectorCount + i < fs.firstDataSector := by
  have copies : fs.fatSectorCount ≤ fs.fatSectorCount * fs.volumeId.numberOfFats :=
    Nat.le_mul_of_pos_right _ sane.fats
  rw [firstDataSector]
  omega
theorem Sane.table_card (sane : fs.Sane) {i : Nat} (inside : i < fs.fatSectorCount) :
    fs.lbaBegin + (fs.volumeId.reservedSectorCount + i) < 2 ^ 32 := by
  have before := sane.table_before inside
  have card := sane.card
  omega
theorem fatSector_inj (sane : fs.Sane) {i j : Nat} (left : i < fs.fatSectorCount) (right : j < fs.fatSectorCount)
    (same : fs.fatSector i = fs.fatSector j) : i = j :=
  Nat.add_left_cancel (realLBA_inj (sane.table_card left) (sane.table_card right) same)
/-- A change of one byte of the table is a change of that byte. -/
theorem fatByte_pokeFat (sane : fs.Sane) (left : j < 512 * fs.fatSectorCount) (right : k < 512 * fs.fatSectorCount) :
    fs.fatByte (fs.pokeFat d k f) j = if j = k then f (fs.fatByte d k) else fs.fatByte d j := by
  have inside : j % 512 < 512 := Nat.mod_lt j (by norm_num)
  unfold fatByte pokeFat
  by_cases here : j / 512 = k / 512
  · rw [here,Function.update_self]
    by_cases same : j = k
    · rw [if_pos same,same,Block.peek_poke _ _ (Nat.mod_lt k (by norm_num))]
      rfl
    · have apart : k % 512 ≠ j % 512 := by omega
      rw [if_neg same,Block.peek,Block.poke_cells,List.getD_eq_getElem?_getD,List.getElem?_set_ne apart]
      rfl
  · have apart : fs.fatSector (j / 512) ≠ fs.fatSector (k / 512) := by
      intro same
      exact here (fatSector_inj sane (by omega) (by omega) same)
    rw [Function.update_of_ne apart,if_neg fun same => here (by rw [same])]
theorem pokeFat_frame {a : Nat} (apart : a ≠ fs.fatSector (k / 512)) : fs.pokeFat d k f a = d a :=
  Function.update_of_ne apart ..

/-- The two halves of what is stored for 12 bits. -/
theorem fat12_set (small : next < 2 ^ 12) (hb lb : UInt8) :
    fat12Value cluster (fat12First cluster next hb).toNat (fat12Second cluster next lb).toNat = next := by
  have high := hb.toNat_lt
  have low := lb.toNat_lt
  unfold fat12Value fat12First fat12Second
  by_cases even : cluster % 2 = 0
  · simp only [if_pos even,UInt8.toNat_ofNat']
    omega
  · simp only [if_neg even,UInt8.toNat_ofNat']
    omega
/-- An entry that shares a byte with the one that is set keeps its half of it. -/
theorem fat12_keep_first (odd : cluster % 2 = 1) (even : other % 2 = 0) (hb lb : UInt8) :
    fat12Value other hb.toNat (fat12First cluster next lb).toNat = fat12Value other hb.toNat lb.toNat := by
  have low := lb.toNat_lt
  simp only [fat12Value,fat12First,if_pos even,if_neg (by omega : ¬ cluster % 2 = 0),UInt8.toNat_ofNat']
  omega
theorem fat12_keep_second (even : cluster % 2 = 0) (odd : other % 2 = 1) (hb lb : UInt8) :
    fat12Value other (fat12Second cluster next hb).toNat lb.toNat = fat12Value other hb.toNat lb.toNat := by
  have low := hb.toNat_lt
  simp only [fat12Value,fat12Second,if_pos even,if_neg (by omega : ¬ other % 2 = 0),UInt8.toNat_ofNat']
  omega
/-- Bytes in the little-endian order. -/
theorem bytes16 (small : value < 2 ^ 16) : (UInt8.ofNat (value / 2 ^ 8)).toNat * 2 ^ 8 + (UInt8.ofNat value).toNat = value := by
  simp only [UInt8.toNat_ofNat']
  omega
theorem bytes32 (small : value < 2 ^ 32) :
    (UInt8.ofNat (value / 2 ^ 24)).toNat * 2 ^ 24 + (UInt8.ofNat (value / 2 ^ 16)).toNat * 2 ^ 16 +
      (UInt8.ofNat (value / 2 ^ 8)).toNat * 2 ^ 8 + (UInt8.ofNat value).toNat = value := by
  simp only [UInt8.toNat_ofNat']
  omega

/-- The two bytes of an entry of 12 bits that is set. -/
theorem set12_bytes (d : Card) (next : Nat) (sane : fs.Sane) (type : fs.type = .fat12) (inside : cluster * 3 / 2 + 1 < 512 * fs.fatSectorCount) :
    fs.fatByte (fs.setEntry d cluster next) (cluster * 3 / 2) =
        fat12First cluster next (fs.fatByte d (cluster * 3 / 2)) ∧
      fs.fatByte (fs.setEntry d cluster next) (cluster * 3 / 2 + 1) =
        fat12Second cluster next (fs.fatByte d (cluster * 3 / 2 + 1)) := by
  simp only [setEntry,type]
  constructor
  · rw [fatByte_pokeFat sane (by omega) inside,if_neg (by omega),fatByte_pokeFat sane (by omega) (by omega),if_pos rfl]
  · rw [fatByte_pokeFat sane inside inside,if_pos rfl,fatByte_pokeFat sane inside (by omega),if_neg (by omega)]
/-- What is set in the table is read back. -/
theorem entry_setEntry (sane : fs.Sane) (inside : fs.entryEnd cluster < 512 * fs.fatSectorCount)
    (small : next < 2 ^ fs.entryBits) : fs.entry (fs.setEntry d cluster next) cluster = next := by
  unfold entryEnd at inside
  unfold entryBits at small
  unfold entry
  cases type : fs.type with
  | fat12 =>
    simp only [type] at inside small ⊢
    obtain ⟨first,second⟩ := set12_bytes d next sane type inside
    rw [first,second]
    exact fat12_set small ..
  | fat16 =>
    simp only [setEntry,type] at inside small ⊢
    rw [fatByte_pokeFat sane (by omega) (by omega),if_pos rfl,fatByte_pokeFat sane (by omega) (by omega),
      if_neg (by omega),fatByte_pokeFat sane (by omega) (by omega),if_pos rfl]
    exact bytes16 small
  | fat32 =>
    simp only [setEntry,type] at inside small ⊢
    simp (disch := omega) only [fatByte_pokeFat sane]
    simp only [Nat.add_left_cancel_iff,Nat.left_eq_add,OfNat.ofNat_ne_zero,Nat.reduceEqDiff,if_true,if_false]
    exact bytes32 small
/-- Bytes outside of an entry stay when it is set. -/
theorem fatByte_setEntry_ne (sane : fs.Sane) (inside : fs.entryEnd cluster < 512 * fs.fatSectorCount)
    (inside' : k < 512 * fs.fatSectorCount) (apart : k < fs.entryStart cluster ∨ fs.entryEnd cluster < k) :
    fs.fatByte (fs.setEntry d cluster next) k = fs.fatByte d k := by
  unfold entryStart entryEnd at *
  unfold setEntry
  cases type : fs.type with
  | fat12 | fat16 =>
    simp only [type] at inside apart ⊢
    rw [fatByte_pokeFat sane inside' inside,if_neg (by omega),fatByte_pokeFat sane inside' (by omega),if_neg (by omega)]
  | fat32 =>
    simp only [type] at inside apart ⊢
    rw [fatByte_pokeFat sane inside' inside,if_neg (by omega),fatByte_pokeFat sane inside' (by omega),if_neg (by omega),
      fatByte_pokeFat sane inside' (by omega),if_neg (by omega),fatByte_pokeFat sane inside' (by omega),if_neg (by omega)]
/-- The entries of other clusters stay. -/
theorem entry_setEntry_ne (sane : fs.Sane) (inside : fs.entryEnd cluster < 512 * fs.fatSectorCount)
    (inside' : fs.entryEnd other < 512 * fs.fatSectorCount) (apart : other ≠ cluster) :
    fs.entry (fs.setEntry d cluster next) other = fs.entry d other := by
  have stays (k : Nat) (within : k ≤ fs.entryEnd other) (out : k < fs.entryStart cluster ∨ fs.entryEnd cluster < k) :
      fs.fatByte (fs.setEntry d cluster next) k = fs.fatByte d k :=
    fatByte_setEntry_ne sane inside (Nat.lt_of_le_of_lt within inside') out
  unfold entryStart entryEnd at *
  unfold entry
  cases type : fs.type with
  | fat12 =>
    simp only [type] at inside inside' stays ⊢
    obtain ⟨first,second⟩ := set12_bytes d next sane type inside
    by_cases before : other * 3 / 2 + 1 = cluster * 3 / 2
    · -- the second byte of the other entry is the first one of the entry that is set
      rw [stays _ (by omega) (by omega),before,first]
      exact fat12_keep_first (by omega) (by omega) ..
    · by_cases behind : other * 3 / 2 = cluster * 3 / 2 + 1
      · rw [stays _ (Nat.le_refl _) (by omega),behind,second]
        exact fat12_keep_second (by omega) (by omega) ..
      · rw [stays _ (by omega) (by omega),stays _ (by omega) (by omega)]
  | fat16 =>
    simp only [type] at stays ⊢
    rw [stays _ (by omega) (by omega),stays _ (by omega) (by omega)]
  | fat32 =>
    simp only [type] at stays ⊢
    rw [stays _ (by omega) (by omega),stays _ (by omega) (by omega),stays _ (by omega) (by omega),
      stays _ (by omega) (by omega)]

/-- Setting an entry changes nothing outside of the table. -/
theorem setEntry_frame (inside : fs.entryEnd cluster < 512 * fs.fatSectorCount) {a : Nat}
    (apart : ∀ i < fs.fatSectorCount, a ≠ fs.fatSector i) : fs.setEntry d cluster next a = d a := by
  unfold entryEnd at inside
  unfold setEntry
  cases type : fs.type with
  | fat12 | fat16 =>
    simp only [type] at inside ⊢
    rw [pokeFat_frame (apart _ (by omega)),pokeFat_frame (apart _ (by omega))]
  | fat32 =>
    simp only [type] at inside ⊢
    rw [pokeFat_frame (apart _ (by omega)),pokeFat_frame (apart _ (by omega)),pokeFat_frame (apart _ (by omega)),
      pokeFat_frame (apart _ (by omega))]

theorem fat12Offset_eq (cluster : Nat) : fat12Offset cluster = cluster * 3 / 2 % 512 := by
  have split : cluster * 3 / 2 = 512 * (3 * (cluster / 1024)) + cluster % 1024 * 3 / 2 := by
    have parts := Nat.div_add_mod cluster 1024
    calc cluster * 3 / 2 = (2 * (1536 * (cluster / 1024)) + cluster % 1024 * 3) / 2 := by congr 1; omega
      _ = 1536 * (cluster / 1024) + cluster % 1024 * 3 / 2 := Nat.mul_add_div (by norm_num) ..
      _ = 512 * (3 * (cluster / 1024)) + cluster % 1024 * 3 / 2 := by congr 1; ring
  rw [fat12Offset,split,Nat.mul_add_mod]

theorem Sane.entry_inside (sane : fs.Sane) (inside : cluster ≤ fs.dataClusterCount + 1) :
    fs.entryEnd cluster < 512 * fs.fatSectorCount := by
  have table := sane.table
  unfold entryEnd at *
  cases type : fs.type
  all_goals
    simp only [type] at table ⊢
    omega
/-- The sector where the entry of a cluster begins. -/
theorem Sane.sectorAddress (sane : fs.Sane) (inside : cluster ≤ fs.dataClusterCount + 1) :
    fatGetSectorAddressFatEntry fs cluster = fs.volumeId.reservedSectorCount + fs.entryStart cluster / 512 := by
  have ends := sane.entry_inside inside
  have small := sane.numbers.1
  unfold entryEnd entryStart fatGetSectorAddressFatEntry at *
  cases type : fs.type
  all_goals
    simp only [type] at ends ⊢
    rw [if_neg (by omega)]
    omega
theorem Sane.address_guard (sane : fs.Sane) (inside : cluster ≤ fs.dataClusterCount + 1) :
    ¬ (fs.fatSectorCount ≤ fatGetSectorAddressFatEntry fs cluster - fs.volumeId.reservedSectorCount ∨
      fatGetSectorAddressFatEntry fs cluster = 0) := by
  have ends := sane.entry_inside inside
  have reserved := sane.reserved
  have ordered : fs.entryStart cluster ≤ fs.entryEnd cluster := by
    unfold entryStart entryEnd
    cases fs.type <;> simp only <;> omega
  rw [sane.sectorAddress inside]
  omega
theorem pokeFat_first {i : Nat} (place : k / 512 = i) : fs.pokeFat d k f = Function.update d (fs.fatSector i)
    ((d (fs.fatSector i)).poke (k % 512) (f ((d (fs.fatSector i)).peek (k % 512)))) := by
  rw [pokeFat,fatByte,place]
/-- A second byte changed in a sector. -/
theorem pokeFat_update {i : Nat} {buf : Sector} (place : k / 512 = i) :
    fs.pokeFat (Function.update d (fs.fatSector i) buf) k f =
      Function.update d (fs.fatSector i) (buf.poke (k % 512) (f (buf.peek (k % 512)))) := by
  rw [pokeFat,fatByte,place,Function.update_self,Function.update_idem]

open IOManager
variable {io : IOManager}

/-- An entry that is read from its sector in the buffer, when it does not leave the sector. -/
theorem getWBuf_open (inside : cluster ≤ fs.dataClusterCount + 1) (sane : fs.Sane) (whole : fs.type ≠ .fat12)
    (o : Open (partGetRealLBA fs (fatGetSectorAddressFatEntry fs cluster)) io) :
    fatGetNextClusterAddressWBuf fs cluster io = (io,fs.entry io.view cluster) := by
  have shown := o.view
  rw [sane.sectorAddress inside] at shown
  unfold fatGetNextClusterAddressWBuf entry fatByte fatSector
  unfold entryStart at shown
  cases type : fs.type with
  | fat12 => exact absurd type whole
  | fat16 =>
    simp only [type] at shown ⊢
    rw [show (2 * cluster + 1) / 512 = 2 * cluster / 512 by omega,show (2 * cluster + 1) % 512 = 2 * (cluster % 256) + 1 by omega,
      show 2 * cluster % 512 = 2 * (cluster % 256) by omega,← shown]
    rfl
  | fat32 =>
    simp only [type] at shown ⊢
    rw [show (4 * cluster + 3) / 512 = 4 * cluster / 512 by omega,show (4 * cluster + 2) / 512 = 4 * cluster / 512 by omega,
      show (4 * cluster + 1) / 512 = 4 * cluster / 512 by omega,show (4 * cluster + 3) % 512 = 4 * (cluster % 128) + 3 by omega,
      show (4 * cluster + 2) % 512 = 4 * (cluster % 128) + 2 by omega,
      show (4 * cluster + 1) % 512 = 4 * (cluster % 128) + 1 by omega,show 4 * cluster % 512 = 4 * (cluster % 128) by omega,
      ← shown]
    rfl
variable (next) in
/-- An entry that is set in its sector in the buffer, when it does not leave the sector. -/
theorem setWBuf_open (inside : cluster ≤ fs.dataClusterCount + 1) (sane : fs.Sane) (whole : fs.type ≠ .fat12)
    (o : Open (partGetRealLBA fs (fatGetSectorAddressFatEntry fs cluster)) io) (writable : io.writable = true) :
    Open (partGetRealLBA fs (fatGetSectorAddressFatEntry fs cluster)) (fatSetNextClusterAddressWBuf fs cluster next io) ∧
      (fatSetNextClusterAddressWBuf fs cluster next io).view = fs.setEntry io.view cluster next := by
  rw [sane.sectorAddress inside] at o ⊢
  unfold fatSetNextClusterAddressWBuf setEntry
  unfold entryStart at o ⊢
  cases type : fs.type with
  | fat12 => exact absurd type whole
  | fat16 =>
    simp only [type] at o ⊢
    obtain ⟨o',shown⟩ := edit_open (f := fun buf => exSetb16 buf (2 * (cluster % 256)) next) o writable
    refine ⟨o',shown.trans ?_⟩
    rw [pokeFat_first (k := 2 * cluster) rfl,pokeFat_update (k := 2 * cluster + 1) (by omega),show (2 * cluster + 1) % 512 = 2 * (cluster % 256) + 1 by omega,
      show 2 * cluster % 512 = 2 * (cluster % 256) by omega]
    rfl
  | fat32 =>
    simp only [type] at o ⊢
    obtain ⟨o',shown⟩ := edit_open (f := fun buf => exSetb32 buf (4 * (cluster % 128)) next) o writable
    refine ⟨o',shown.trans ?_⟩
    rw [pokeFat_first (k := 4 * cluster) rfl,pokeFat_update (k := 4 * cluster + 1) (by omega),
      pokeFat_update (k := 4 * cluster + 2) (by omega),pokeFat_update (k := 4 * cluster + 3) (by omega),show (4 * cluster + 3) % 512 = 4 * (cluster % 128) + 3 by omega,
      show (4 * cluster + 2) % 512 = 4 * (cluster % 128) + 2 by omega,
      show (4 * cluster + 1) % 512 = 4 * (cluster % 128) + 1 by omega,show 4 * cluster % 512 = 4 * (cluster % 128) by omega]
    rfl
variable (next) in
/-- An entry that is set when no other sector is in use, also when it leaves the sector. -/
theorem setWBuf_ready (inside : cluster ≤ fs.dataClusterCount + 1) (sane : fs.Sane) (ready : Ready io)
    (o : Open (partGetRealLBA fs (fatGetSectorAddressFatEntry fs cluster)) io) (writable : io.writable = true) :
    Ready (fatSetNextClusterAddressWBuf fs cluster next io) ∧
      (fatSetNextClusterAddressWBuf fs cluster next io).view = fs.setEntry io.view cluster next := by
  by_cases type : fs.type = .fat12
  · rw [sane.sectorAddress inside] at o
    unfold fatSetNextClusterAddressWBuf setEntry
    unfold entryStart at o
    simp only [type] at o ⊢
    have place := fat12Offset_eq cluster
    have first : (io.edit fun buf => buf.poke (fat12Offset cluster) (fat12First cluster next (buf.peek (fat12Offset cluster)))).view =
        fs.pokeFat io.view (cluster * 3 / 2) (fat12First cluster next) := by
      rw [(edit_open o writable).2,pokeFat_first rfl,place]
      rfl
    obtain ⟨o',-⟩ := edit_open (f := fun buf => buf.poke (fat12Offset cluster)
      (fat12First cluster next (buf.peek (fat12Offset cluster)))) o writable
    have ready' : Ready (io.edit fun buf => buf.poke (fat12Offset cluster)
        (fat12First cluster next (buf.peek (fat12Offset cluster)))) := ⟨o'.toSteady,ready.once,ready.flat⟩
    by_cases leaves : fat12Offset cluster = 511
    · -- the second byte is the first one of the next sector, which is taken meanwhile
      rw [if_pos leaves,partGetSect]
      obtain ⟨o2,shown2,writable2⟩ := getSector_open ready'
        (partGetRealLBA fs (fatGetSectorAddressFatEntry fs cluster + 1)) .readwrite
      obtain ⟨o3,shown3⟩ := edit_open (f := fun buf => buf.poke 0 (fat12Second cluster next (buf.peek 0))) o2
        (writable2 rfl)
      obtain ⟨ready4,shown4⟩ := releaseSector_ready o3
      refine ⟨ready4,shown4.trans ?_⟩
      rw [shown3,shown2,first,sane.sectorAddress inside,pokeFat_first (k := cluster * 3 / 2 + 1) (i := cluster * 3 / 2 / 512 + 1)
        (by omega),show (cluster * 3 / 2 + 1) % 512 = 0 by omega]
      unfold entryStart
      rw [type]
      rfl
    · rw [if_neg leaves]
      obtain ⟨o3,shown3⟩ := edit_open (f := fun buf => buf.poke (fat12Offset cluster + 1)
        (fat12Second cluster next (buf.peek (fat12Offset cluster + 1)))) o' writable
      refine ⟨⟨o3.toSteady,ready.once,ready.flat⟩,shown3.trans ?_⟩
      rw [first,pokeFat_first (k := cluster * 3 / 2 + 1) (i := cluster * 3 / 2 / 512) (by omega),
        show (cluster * 3 / 2 + 1) % 512 = fat12Offset cluster + 1 by omega]
      rfl
  · obtain ⟨o',shown⟩ := setWBuf_open next inside sane type o writable
    refine ⟨⟨o'.toSteady,?_,?_⟩,shown⟩
    · unfold fatSetNextClusterAddressWBuf
      cases same : fs.type with
      | fat12 => exact absurd same type
      | fat16 | fat32 => exact ready.once
    · unfold fatSetNextClusterAddressWBuf
      cases same : fs.type with
      | fat12 => exact absurd same type
      | fat16 | fat32 => exact ready.flat

/-- The entry of a cluster is read. -/
theorem getNext_spec (sane : fs.Sane) (inside : cluster ≤ fs.dataClusterCount + 1) (idle : Idle io) :
    Idle (fatGetNextClusterAddress fs cluster io).1 ∧ (fatGetNextClusterAddress fs cluster io).1.view = io.view ∧
      (fatGetNextClusterAddress fs cluster io).2 = fs.entry io.view cluster := by
  obtain ⟨o,shown,-⟩ := getSector_open idle.ready
    (partGetRealLBA fs (fatGetSectorAddressFatEntry fs cluster)) .readonly
  have ready := getSector_first idle
    (partGetRealLBA fs (fatGetSectorAddressFatEntry fs cluster)) .readonly
  have released := releaseSector_idle ready
  have whole (type : fs.type ≠ .fat12) := getWBuf_open inside sane type o
  unfold fatGetNextClusterAddress
  simp only [if_neg (sane.address_guard inside)]
  cases type : fs.type with
  | fat12 =>
    have place := fat12Offset_eq cluster
    have buffer : (partGetSect fs (fatGetSectorAddressFatEntry fs cluster) .readonly io).cacheMem =
        io.view (fs.fatSector (cluster * 3 / 2 / 512)) := by
      have here : partGetRealLBA fs (fatGetSectorAddressFatEntry fs cluster) = fs.fatSector (cluster * 3 / 2 / 512) := by
        rw [sane.sectorAddress inside,entryStart,type]
        rfl
      exact (o.view.trans (congrFun shown _)).trans (congrArg io.view here)
    have first : (io.view (fs.fatSector (cluster * 3 / 2 / 512))).peek (fat12Offset cluster) =
        fs.fatByte io.view (cluster * 3 / 2) := by
      rw [fatByte,place]
    simp only [entry,type,buffer,first]
    by_cases leaves : fat12Offset cluster = 511
    · -- the sector is released before the next one is read
      obtain ⟨o2,shown2,-⟩ := getSector_open released.1.ready
        (partGetRealLBA fs (fatGetSectorAddressFatEntry fs cluster + 1)) .readonly
      obtain ⟨idle3,shown3⟩ := releaseSector_idle (getSector_first released.1
        (partGetRealLBA fs (fatGetSectorAddressFatEntry fs cluster + 1)) .readonly)
      have same := shown2.trans (released.2.trans shown)
      simp only [if_pos leaves]
      refine ⟨idle3,shown3.trans same,?_⟩
      have there : partGetRealLBA fs (fatGetSectorAddressFatEntry fs cluster + 1) =
          fs.fatSector (cluster * 3 / 2 / 512 + 1) := by
        rw [sane.sectorAddress inside,entryStart,type]
        rfl
      have second := (o2.view.trans (congrFun same _)).trans (congrArg io.view there)
      have byte : fs.fatByte io.view (cluster * 3 / 2 + 1) = (io.view (fs.fatSector (cluster * 3 / 2 / 512 + 1))).peek 0 := by
        rw [fatByte,show (cluster * 3 / 2 + 1) / 512 = cluster * 3 / 2 / 512 + 1 by omega,
          show (cluster * 3 / 2 + 1) % 512 = 0 by omega]
      rw [byte]
      exact congrArg (fun buf : Sector => fat12Value cluster _ (buf.peek 0).toNat) second
    · simp only [if_neg leaves]
      refine ⟨released.1,released.2.trans shown,?_⟩
      have byte : fs.fatByte io.view (cluster * 3 / 2 + 1) =
          (io.view (fs.fatSector (cluster * 3 / 2 / 512))).peek (fat12Offset cluster + 1) := by
        rw [fatByte,show (cluster * 3 / 2 + 1) / 512 = cluster * 3 / 2 / 512 by omega,
          show (cluster * 3 / 2 + 1) % 512 = fat12Offset cluster + 1 by omega]
      rw [byte]
  | fat16 | fat32 =>
    have read := whole (by simp [type])
    simp only [fatGetNextClusterAddressWBuf,type,Prod.mk.injEq,true_and] at read
    refine ⟨released.1,released.2.trans shown,?_⟩
    rw [← shown]
    exact read
variable (next) in
/-- The entry of a cluster is set. -/
theorem setNext_spec (sane : fs.Sane) (inside : cluster ≤ fs.dataClusterCount + 1) (idle : Idle io) :
    Idle (fatSetNextClusterAddress fs cluster next io) ∧
      (fatSetNextClusterAddress fs cluster next io).view = fs.setEntry io.view cluster next := by
  obtain ⟨o,shown,writable⟩ := getSector_open idle.ready
    (partGetRealLBA fs (fatGetSectorAddressFatEntry fs cluster)) .readwrite
  obtain ⟨ready,shown'⟩ := setWBuf_ready next inside sane (getSector_first idle ..) o (writable rfl)
  obtain ⟨idle',shown''⟩ := releaseSector_idle ready
  unfold fatSetNextClusterAddress
  simp only [if_neg (sane.address_guard inside)]
  refine ⟨idle',shown''.trans ?_⟩
  rw [← shown]
  exact shown'

variable (fs d cluster) in
theorem entry_lt : fs.entry d cluster < 2 ^ 32 := by
  have bound (k : Nat) := (fs.fatByte d k).toNat_lt
  unfold entry fat12Value
  cases fs.type with
  | fat12 =>
    have first := bound (cluster * 3 / 2)
    have second := bound (cluster * 3 / 2 + 1)
    simp only
    split <;> omega
  | fat16 =>
    have first := bound (2 * cluster)
    have second := bound (2 * cluster + 1)
    simp only
    omega
  | fat32 =>
    have first := bound (4 * cluster)
    have second := bound (4 * cluster + 1)
    have third := bound (4 * cluster + 2)
    have fourth := bound (4 * cluster + 3)
    simp only
    omega

variable (fs d) in
/-- The entries of the clusters, as a table. -/
def table (cluster : Nat) : Nat := if cluster ≤ fs.dataClusterCount + 1 then fs.entry d cluster else 0

theorem table_of_le (inside : cluster ≤ fs.dataClusterCount + 1) : fs.table d cluster = fs.entry d cluster := if_pos inside
theorem table_setEntry (sane : fs.Sane) (inside : cluster ≤ fs.dataClusterCount + 1) (small : next < 2 ^ fs.entryBits) :
    fs.table (fs.setEntry d cluster next) = Function.update (fs.table d) cluster next := by
  funext c
  by_cases here : c = cluster
  · rw [here,Function.update_self,table_of_le inside,entry_setEntry sane (sane.entry_inside inside) small]
  · rw [Function.update_of_ne here]
    by_cases known : c ≤ fs.dataClusterCount + 1
    · rw [table_of_le known,table_of_le known,
        entry_setEntry_ne sane (sane.entry_inside inside) (sane.entry_inside known) here]
    · rw [table,table,if_neg known,if_neg known]
/-- Numbers up to one beyond the last cluster fit into an entry and end no chain. -/
theorem Sane.on (sane : fs.Sane) (inside : cluster ≤ fs.dataClusterCount + 2) : ¬ fatIsEocMarker fs cluster := by
  obtain ⟨small,last⟩ := sane.numbers
  unfold fatIsEocMarker at *
  cases type : fs.type
  all_goals
    simp only [type] at last ⊢
    omega
theorem Sane.fits (sane : fs.Sane) (inside : cluster ≤ fs.dataClusterCount + 2) : cluster < 2 ^ fs.entryBits := by
  obtain ⟨small,last⟩ := sane.numbers
  unfold fatIsEocMarker entryBits at *
  cases type : fs.type
  all_goals
    simp only [type] at last ⊢
    omega
variable (fs) in
theorem giveEoc_spec : fatIsEocMarker fs (fatGiveEocMarker fs) ∧ fatGiveEocMarker fs < 2 ^ fs.entryBits ∧ fatGiveEocMarker fs ≠ 0 := by
  unfold fatIsEocMarker fatGiveEocMarker entryBits
  cases fs.type <;> simp

/-! ### The table as an array of numbers -/

inductive TableCall
  | get (cluster : Nat)
  | set (cluster next : Nat)
  deriving DecidableEq, Repr

/-- The cluster has an entry, and what is set fits into it. -/
def TableCall.Fits (fs : FileSystem) : TableCall → Prop
  | .get cluster => cluster ≤ fs.dataClusterCount + 1
  | .set cluster next => cluster ≤ fs.dataClusterCount + 1 ∧ next < 2 ^ fs.entryBits

instance (fs : FileSystem) (call : TableCall) : Decidable (call.Fits fs) :=
  match call with
  | .get _ => inferInstanceAs (Decidable (_ ≤ _))
  | .set _ _ => inferInstanceAs (Decidable (_ ∧ _))

/-- The entries that are read through the cache. -/
def fatTable (fs : FileSystem) : Machine IOManager TableCall Nat where
  enabled _ call := call.Fits fs
  step io
    | .get cluster =>
      let (io,next) := fatGetNextClusterAddress fs cluster io
      (io,[next])
    | .set cluster next => (fatSetNextClusterAddress fs cluster next io,[])
/-- An array of numbers under the same calls. -/
def numberArray (fs : FileSystem) : Machine (Nat → Nat) TableCall Nat where
  enabled _ call := call.Fits fs
  step numbers
    | .get cluster => (numbers,[numbers cluster])
    | .set cluster next => (Function.update numbers cluster next,[])

/-- The entries are the numbers of the array, and outside of the table the card is what it was. -/
structure Tabled (fs : FileSystem) (d : Card) (io : IOManager) (numbers : Nat → Nat) : Prop where
  idle : Idle io
  entries : ∀ c ≤ fs.dataClusterCount + 1, fs.entry io.view c = numbers c
  frame : ∀ a, (∀ i < fs.fatSectorCount, a ≠ fs.fatSector i) → io.view a = d a

theorem table_step (sane : fs.Sane) (d : Card) (io : IOManager) (numbers : Nat → Nat) (call : TableCall)
    (tabled : Tabled fs d io numbers) (fits : call.Fits fs) :
    Tabled fs d ((fatTable fs).step io call).1 ((numberArray fs).step numbers call).1 ∧
      ((fatTable fs).step io call).2 = ((numberArray fs).step numbers call).2 := by
  obtain ⟨idle,entries,frame⟩ := tabled
  cases call with
  | get cluster =>
    obtain ⟨idle',shown,read⟩ := getNext_spec sane fits idle
    refine ⟨⟨idle',?_,?_⟩,?_⟩
    · intro c inside
      exact (congrArg (fs.entry · c) shown).trans (entries c inside)
    · intro a apart
      exact (congrFun shown a).trans (frame a apart)
    · exact congrArg (fun next => [next]) (read.trans (entries cluster fits))
  | set cluster next =>
    obtain ⟨inside,small⟩ := fits
    obtain ⟨idle',shown⟩ := setNext_spec next sane inside idle
    refine ⟨⟨idle',?_,?_⟩,rfl⟩
    · intro c known
      refine (congrArg (fs.entry · c) shown).trans ?_
      show _ = Function.update numbers cluster next c
      by_cases here : c = cluster
      · rw [here,Function.update_self]
        exact entry_setEntry sane (sane.entry_inside inside) small
      · rw [Function.update_of_ne here,← entries c known]
        exact entry_setEntry_ne sane (sane.entry_inside inside) (sane.entry_inside known) here
    · intro a apart
      exact (congrFun shown a).trans ((setEntry_frame (sane.entry_inside inside) apart).trans (frame a apart))

/-- The table is an array of numbers: whatever entries are read and set, in whatever order, what is read is
    what the array would give, and no sector outside of the table changes. -/
theorem fat_is_array (sane : fs.Sane) (idle : Idle io) {calls : List TableCall}
    (each : (fatTable fs).Admissible io calls) :
    (fatTable fs).trace io calls = (numberArray fs).trace (fs.entry io.view) calls ∧
      ∀ a, (∀ i < fs.fatSectorCount, a ≠ fs.fatSector i) → ((fatTable fs).after io calls).view a = io.view a := by
  obtain ⟨tabled,same⟩ := Machine.simulation (table_step sane io.view) ⟨idle,fun _ _ => rfl,fun _ _ => rfl⟩ each
  exact ⟨same,tabled.frame⟩

end FileSystem

/-- A small volume of 12 bits, in which the entry of cluster 341 goes on in the next sector. -/
def smallVolume : FileSystem where
  lbaBegin := 63
  volumeId := ⟨512,1,1,2,224⟩
  dataClusterCount := 400
  fatSectorCount := 2
  type := .fat12

theorem smallVolume_sane : smallVolume.Sane := ⟨by decide,by decide,by decide,by decide,by decide,by decide,by decide⟩
/-- Reads between the sets, also of the entry that shares a byte with the one that crosses. -/
theorem fat_is_array_crossing :
    let calls : List FileSystem.TableCall :=
      [.get 341,.set 341 0xABC,.get 340,.set 342 0x123,.get 341,.set 340 0xFFF,.get 342,.get 341]
    smallVolume.fatTable.trace (iomanReset (fun _ => Block.fill 0) (Block.fill 0)) calls =
      smallVolume.numberArray.trace (smallVolume.entry (iomanReset (fun _ => Block.fill 0) (Block.fill 0)).view) calls :=
  (FileSystem.fat_is_array smallVolume_sane (reset_idle ..) (Machine.each_of_forall (by decide))).1

end Net2Modbus
