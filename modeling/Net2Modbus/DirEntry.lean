import Net2Modbus.FatTable
import Net2Modbus.Tiles

/-!
# Directory entries

The records of a directory as `dir.c` reads and writes them: sixteen in a sector, each of
32 bytes. A record that is written is read back, a change of one field leaves the others,
and the records at other places of the sector stay. However the calls follow each other,
they are reads and writes of an array of records.
-/
namespace Net2Modbus

/-- `FileLocation`: a sector and a place in it. -/
structure FileLocation where
  sector : Nat
  offset : Fin 16
  deriving DecidableEq, Repr
/-- `FileRecord` -/
@[ext] structure FileRecord where
  fileName : Block UInt8 11
  attrib : UInt8
  ntReserved : UInt8
  milliSecTimeStamp : UInt8
  createdTime : UInt16
  createdDate : UInt16
  accessDate : UInt16
  firstClusterHigh : UInt16
  writeTime : UInt16
  writeDate : UInt16
  firstClusterLow : UInt16
  fileSize : UInt32
  deriving DecidableEq, Repr

/-- The bytes of numbers, the low one first. -/
def le16 (v : Nat) : List UInt8 := [UInt8.ofNat v,UInt8.ofNat (v / 2 ^ 8)]
def le32 (v : Nat) : List UInt8 := [UInt8.ofNat v,UInt8.ofNat (v / 2 ^ 8),UInt8.ofNat (v / 2 ^ 16),UInt8.ofNat (v / 2 ^ 24)]

namespace FileRecord

/-- The fields behind the name. -/
def fields (r : FileRecord) : List UInt8 :=
  [r.attrib,r.ntReserved,r.milliSecTimeStamp] ++ le16 r.createdTime.toNat ++ le16 r.createdDate.toNat ++
    le16 r.accessDate.toNat ++ le16 r.firstClusterHigh.toNat ++ le16 r.writeTime.toNat ++ le16 r.writeDate.toNat ++
    le16 r.firstClusterLow.toNat ++ le32 r.fileSize.toNat
/-- A record as it lies in memory. -/
def bytes (r : FileRecord) : List UInt8 := r.fileName.cells ++ r.fields

end FileRecord

/-- The record at a place of a sector. -/
def recordAt (buf : Sector) (offset : Fin 16) : FileRecord where
  fileName := ⟨(List.range 11).map fun i => buf.peek (32 * offset + i),by simp⟩
  attrib := buf.peek (32 * offset + 11)
  ntReserved := buf.peek (32 * offset + 12)
  milliSecTimeStamp := buf.peek (32 * offset + 13)
  createdTime := UInt16.ofNat (exGetb16 buf (32 * offset + 14))
  createdDate := UInt16.ofNat (exGetb16 buf (32 * offset + 16))
  accessDate := UInt16.ofNat (exGetb16 buf (32 * offset + 18))
  firstClusterHigh := UInt16.ofNat (exGetb16 buf (32 * offset + 20))
  writeTime := UInt16.ofNat (exGetb16 buf (32 * offset + 22))
  writeDate := UInt16.ofNat (exGetb16 buf (32 * offset + 24))
  firstClusterLow := UInt16.ofNat (exGetb16 buf (32 * offset + 26))
  fileSize := UInt32.ofNat (exGetb32 buf (32 * offset + 28))
/-- A record copied to a place of a sector. -/
def putRecord (offset : Fin 16) (r : FileRecord) (buf : Sector) : Sector := buf.overwrite (32 * offset) r.bytes
/-- The fields of the first cluster set, and that of the size. -/
def putFirstCluster (offset : Fin 16) (cluster : Nat) (buf : Sector) : Sector :=
  exSetb16 (exSetb16 buf (32 * offset + 20) (cluster / 2 ^ 16)) (32 * offset + 26) (cluster % 2 ^ 16)
def putFileSize (offset : Fin 16) (numbytes : Nat) (buf : Sector) : Sector := exSetb32 buf (32 * offset + 28) numbytes

/-- A sector that is fetched, changed and released. -/
def sectorEdit (fs : FileSystem) (sector : Nat) (f : Sector → Sector) (io : IOManager) : IOManager :=
  iomanReleaseSector (IOManager.edit f (partGetSect fs sector .readwrite io))
/-- `dir_getFileStructure` -/
def dirGetFileStructure (fs : FileSystem) (loc : FileLocation) (io : IOManager) : IOManager × FileRecord :=
  let io := partGetSect fs loc.sector .readonly io
  (iomanReleaseSector io,recordAt io.cacheMem loc.offset)
/-- `dir_createDirectoryEntry` -/
def dirCreateDirectoryEntry (fs : FileSystem) (filerec : FileRecord) (loc : FileLocation) : IOManager → IOManager :=
  sectorEdit fs loc.sector (putRecord loc.offset filerec)
/-- `dir_updateDirectoryEntry` -/
def dirUpdateDirectoryEntry (fs : FileSystem) (entry : FileRecord) (loc : FileLocation) : IOManager → IOManager :=
  sectorEdit fs loc.sector (putRecord loc.offset entry)
/-- `dir_createDefaultEntry`, where there is no clock. -/
def dirCreateDefaultEntry (fatfilename : Block UInt8 11) : FileRecord := ⟨fatfilename,0,0,0,0,0,0,0,0,0,0,0⟩
/-- `dir_setFirstCluster` -/
def dirSetFirstCluster (fs : FileSystem) (loc : FileLocation) (cluster : Nat) : IOManager → IOManager :=
  sectorEdit fs loc.sector (putFirstCluster loc.offset cluster)
/-- `dir_setFileSize` -/
def dirSetFileSize (fs : FileSystem) (loc : FileLocation) (numbytes : Nat) : IOManager → IOManager :=
  sectorEdit fs loc.sector (putFileSize loc.offset numbytes)
/-- `fs_setFirstClusterInDirEntry` -/
def fsSetFirstClusterInDirEntry (rec : FileRecord) (cluster : Nat) : FileRecord :=
  { rec with firstClusterHigh := UInt16.ofNat (cluster / 2 ^ 16), firstClusterLow := UInt16.ofNat (cluster % 2 ^ 16) }

section
open IOManager
variable {buf : Sector} {offset other : Fin 16} {r : FileRecord} {i cluster numbytes : Nat} {new : List UInt8}
  {fs : FileSystem} {io : IOManager} {f : Sector → Sector} {sector : Nat}

@[simp] theorem FileRecord.bytes_length (r : FileRecord) : r.bytes.length = 32 := by
  simp [bytes,fields,le16,le32]
theorem exSetb16_overwrite {data : Nat} (inside : i + 2 ≤ 512) : exSetb16 buf i data = buf.overwrite i (le16 data) := by
  rw [exSetb16,Block.poke_overwrite (by omega),Block.poke_overwrite (by omega),
    Block.overwrite_overwrite (k := i + 1) (by simp only [List.length_singleton]; omega) rfl]
  rfl
theorem exSetb32_overwrite {data : Nat} (inside : i + 4 ≤ 512) : exSetb32 buf i data = buf.overwrite i (le32 data) := by
  rw [exSetb32,Block.poke_overwrite (by omega),Block.poke_overwrite (by omega),Block.poke_overwrite (by omega),
    Block.poke_overwrite (by omega),Block.overwrite_overwrite (k := i + 1) (by simp only [List.length_singleton]; omega) rfl,
    Block.overwrite_overwrite (k := i + 2) (by simp only [List.length_append,List.length_singleton]; omega) rfl,
    Block.overwrite_overwrite (k := i + 3) (by simp only [List.length_append,List.length_singleton]; omega) rfl]
  rfl
/-- Numbers are read back. -/
theorem getb16_overwrite {data : Nat} (inside : i + 2 ≤ 512) (small : data < 2 ^ 16) :
    exGetb16 (buf.overwrite i (le16 data)) i = data := by
  have low : (buf.overwrite i (le16 data)).peek (i + 0) = UInt8.ofNat data := Block.peek_overwrite inside (by simp [le16])
  have high : (buf.overwrite i (le16 data)).peek (i + 1) = UInt8.ofNat (data / 2 ^ 8) :=
    Block.peek_overwrite inside (by simp [le16])
  rw [Nat.add_zero] at low
  rw [exGetb16,low,high]
  exact FileSystem.bytes16 small
theorem getb32_overwrite {data : Nat} (inside : i + 4 ≤ 512) (small : data < 2 ^ 32) :
    exGetb32 (buf.overwrite i (le32 data)) i = data := by
  have byte (j : Nat) (bound : j < 4) : (buf.overwrite i (le32 data)).peek (i + j) = (le32 data).getD j 0 :=
    Block.peek_overwrite inside bound
  have low := byte 0 (by decide)
  rw [Nat.add_zero] at low
  rw [exGetb32,low,byte 1 (by decide),byte 2 (by decide),byte 3 (by decide)]
  exact FileSystem.bytes32 small

variable {buf' : Sector}

variable (buf) in
/-- A sector whose record is the same but for the first cluster and the size. -/
theorem recordAt_kept (kept : ∀ k < 26,k < 20 ∨ 22 ≤ k → buf'.peek (32 * offset + k) = buf.peek (32 * offset + k)) :
    recordAt buf' offset = { recordAt buf offset with
      firstClusterHigh := UInt16.ofNat (exGetb16 buf' (32 * offset + 20))
      firstClusterLow := UInt16.ofNat (exGetb16 buf' (32 * offset + 26))
      fileSize := UInt32.ofNat (exGetb32 buf' (32 * offset + 28)) } := by
  have name : ((List.range 11).map fun k => buf'.peek (32 * offset + k)) =
      (List.range 11).map fun k => buf.peek (32 * offset + k) := by
    apply List.map_congr_left
    intro k mem
    rw [List.mem_range] at mem
    exact kept k (by omega) (.inl (by omega))
  have byte (k : Nat) (bound : k < 20) := kept k (by omega) (.inl bound)
  have late (k : Nat) (least : 22 ≤ k) (bound : k < 26) := kept k bound (.inr least)
  simp only [recordAt,exGetb16,Nat.add_assoc,name,byte 11 (by decide),byte 12 (by decide),byte 13 (by decide),
    byte 14 (by decide),byte (14 + 1) (by decide),byte 16 (by decide),byte (16 + 1) (by decide),byte 18 (by decide),
    byte (18 + 1) (by decide),late 22 (by decide) (by decide),late (22 + 1) (by decide) (by decide),
    late 24 (by decide) (by decide),late (24 + 1) (by decide) (by decide)]
/-- A part of a sector changes, and numbers outside of it stay. -/
theorem getb16_apart {j : Nat} (inside : i + new.length ≤ 512) (apart : j + 2 ≤ i ∨ i + new.length ≤ j) :
    exGetb16 (buf.overwrite i new) j = exGetb16 buf j := by
  rw [exGetb16,exGetb16,Block.peek_overwrite_apart inside (by omega),Block.peek_overwrite_apart inside (by omega)]
theorem getb32_apart {j : Nat} (inside : i + new.length ≤ 512) (apart : j + 4 ≤ i ∨ i + new.length ≤ j) :
    exGetb32 (buf.overwrite i new) j = exGetb32 buf j := by
  rw [exGetb32,exGetb32,Block.peek_overwrite_apart inside (by omega),Block.peek_overwrite_apart inside (by omega),
    Block.peek_overwrite_apart inside (by omega),Block.peek_overwrite_apart inside (by omega)]
/-- A record stays when another part of its sector changes. -/
theorem recordAt_apart (inside : i + new.length ≤ 512) (apart : 32 * offset + 32 ≤ i ∨ i + new.length ≤ 32 * offset) :
    recordAt (buf.overwrite i new) offset = recordAt buf offset := by
  rw [recordAt_kept buf,getb16_apart inside (by omega),getb16_apart inside (by omega),getb32_apart inside (by omega)]
  · rfl
  · intro k bound _
    exact Block.peek_overwrite_apart inside (by omega)

theorem peek_putRecord {k : Nat} (bound : k < 32) : (putRecord offset r buf).peek (32 * offset + k) = r.bytes.getD k 0 :=
  Block.peek_overwrite (by simp only [FileRecord.bytes_length]; omega) (by simpa using bound)
/-- The bytes behind the name. -/
theorem peek_fields {k : Nat} (bound : k < 21) :
    (putRecord offset r buf).peek (32 * offset + (11 + k)) = r.fields.getD k 0 := by
  rw [peek_putRecord (by omega),FileRecord.bytes,List.getD_append_right _ _ _ _ (by simp)]
  simp
theorem name_putRecord : ((List.range 11).map fun k => (putRecord offset r buf).peek (32 * offset + k)) = r.fileName.cells := by
  have same : ((List.range 11).map fun k => (putRecord offset r buf).peek (32 * offset + k)) =
      (List.range 11).map r.fileName.peek := by
    apply List.map_congr_left
    intro k mem
    rw [List.mem_range] at mem
    rw [peek_putRecord (by omega),FileRecord.bytes,List.getD_append _ _ _ _ (by simpa using mem)]
    rfl
  rw [same,Block.range_peek _ (Nat.le_refl 11),Block.slice,List.drop_zero]
  exact List.take_of_length_le (by simp)
theorem word_putRecord {v : UInt16} (k : Nat) (low : r.fields.getD k 0 = UInt8.ofNat v.toNat)
    (high : r.fields.getD (k + 1) 0 = UInt8.ofNat (v.toNat / 2 ^ 8)) (bound : k + 1 < 21) :
    UInt16.ofNat (exGetb16 (putRecord offset r buf) (32 * offset + (11 + k))) = v := by
  rw [exGetb16,Nat.add_assoc,Nat.add_assoc,peek_fields bound,peek_fields (Nat.lt_of_succ_lt bound),low,high,
    FileSystem.bytes16 v.toNat_lt,UInt16.ofNat_toNat]
theorem size_putRecord : exGetb32 (putRecord offset r buf) (32 * offset + (11 + 17)) = r.fileSize.toNat := by
  have first : r.fields.getD 17 0 = UInt8.ofNat r.fileSize.toNat := rfl
  have second : r.fields.getD (17 + 1) 0 = UInt8.ofNat (r.fileSize.toNat / 2 ^ 8) := rfl
  have third : r.fields.getD (17 + 2) 0 = UInt8.ofNat (r.fileSize.toNat / 2 ^ 16) := rfl
  have fourth : r.fields.getD (17 + 3) 0 = UInt8.ofNat (r.fileSize.toNat / 2 ^ 24) := rfl
  simp only [exGetb32,Nat.add_assoc (32 * (offset : Nat)),Nat.add_assoc 11]
  rw [peek_fields (k := 17) (by decide),peek_fields (k := 17 + 1) (by decide),peek_fields (k := 17 + 2) (by decide),
    peek_fields (k := 17 + 3) (by decide),first,second,third,fourth]
  exact FileSystem.bytes32 r.fileSize.toNat_lt
/-- A record that is written is read back. -/
theorem recordAt_put : recordAt (putRecord offset r buf) offset = r := by
  apply FileRecord.ext
  · exact Block.ext name_putRecord
  · exact peek_fields (k := 0) (by decide)
  · exact peek_fields (k := 1) (by decide)
  · exact peek_fields (k := 2) (by decide)
  · exact word_putRecord 3 rfl rfl (by decide)
  · exact word_putRecord 5 rfl rfl (by decide)
  · exact word_putRecord 7 rfl rfl (by decide)
  · exact word_putRecord 9 rfl rfl (by decide)
  · exact word_putRecord 11 rfl rfl (by decide)
  · exact word_putRecord 13 rfl rfl (by decide)
  · exact word_putRecord 15 rfl rfl (by decide)
  · exact (congrArg UInt32.ofNat size_putRecord).trans (UInt32.ofNat_toNat ..)
/-- The records at the other places stay. -/
theorem recordAt_put_ne (other_ : other ≠ offset) : recordAt (putRecord offset r buf) other = recordAt buf other := by
  apply recordAt_apart (by simp only [FileRecord.bytes_length]; omega)
  rw [FileRecord.bytes_length]
  omega
/-- A change of the size leaves the other fields, and so does one of the first cluster. -/
theorem recordAt_putFileSize (small : numbytes < 2 ^ 32) :
    recordAt (putFileSize offset numbytes buf) offset = { recordAt buf offset with fileSize := UInt32.ofNat numbytes } := by
  have inside : 32 * (offset : Nat) + 28 + (le32 numbytes).length ≤ 512 := by
    simp only [le32,List.length_cons,List.length_nil]
    omega
  rw [putFileSize,exSetb32_overwrite (by omega),recordAt_kept buf,getb32_overwrite (by omega) small,
    getb16_apart inside (by omega),getb16_apart inside (by omega)]
  · rfl
  · intro k bound _
    exact Block.peek_overwrite_apart inside (by omega)
theorem recordAt_putFirstCluster (small : cluster < 2 ^ 32) :
    recordAt (putFirstCluster offset cluster buf) offset = fsSetFirstClusterInDirEntry (recordAt buf offset) cluster := by
  have two (v : Nat) : (le16 v).length = 2 := rfl
  rw [putFirstCluster,exSetb16_overwrite (by omega),exSetb16_overwrite (by omega),recordAt_kept buf,
    getb16_overwrite (by omega) (Nat.mod_lt _ (by decide)),getb16_apart (by rw [two]; omega) (by rw [two]; omega),
    getb16_overwrite (by omega) (by omega),getb32_apart (by rw [two]; omega) (by rw [two]; omega),
    getb32_apart (by rw [two]; omega) (by rw [two]; omega)]
  · rfl
  · intro k bound place
    rw [Block.peek_overwrite_apart (by rw [two]; omega) (by rw [two]; omega),
      Block.peek_overwrite_apart (by rw [two]; omega) (by rw [two]; omega)]
theorem recordAt_putFileSize_ne (apart : other ≠ offset) :
    recordAt (putFileSize offset numbytes buf) other = recordAt buf other := by
  rw [putFileSize,exSetb32_overwrite (by omega)]
  apply recordAt_apart
  · simp only [le32,List.length_cons,List.length_nil]
    omega
  · simp only [le32,List.length_cons,List.length_nil]
    omega
theorem recordAt_putFirstCluster_ne (apart : other ≠ offset) :
    recordAt (putFirstCluster offset cluster buf) other = recordAt buf other := by
  have two (v : Nat) : (le16 v).length = 2 := rfl
  rw [putFirstCluster,exSetb16_overwrite (by omega),exSetb16_overwrite (by omega),
    recordAt_apart (by rw [two]; omega) (by rw [two]; omega),recordAt_apart (by rw [two]; omega) (by rw [two]; omega)]

variable (fs sector f) in
theorem sectorEdit_spec (idle : Idle io) :
    Idle (sectorEdit fs sector f io) ∧ (sectorEdit fs sector f io).view =
      Function.update io.view (partGetRealLBA fs sector) (f (io.view (partGetRealLBA fs sector))) := by
  obtain ⟨io1,got,o,ready,shown,writable⟩ := getSector_idle idle (partGetRealLBA fs sector) .readwrite
  obtain ⟨o',shown'⟩ := edit_open (f := f) o (writable rfl)
  have ready' : IOManager.Ready (IOManager.edit f io1) := ⟨o'.toSteady,ready.once,ready.flat⟩
  obtain ⟨idle',shown''⟩ := releaseSector_idle ready'
  unfold sectorEdit partGetSect
  rw [got]
  refine ⟨idle',shown''.trans ?_⟩
  rw [shown',shown]
variable (fs) in
theorem dirGetFileStructure_spec (idle : Idle io) (loc : FileLocation) :
    Idle (dirGetFileStructure fs loc io).1 ∧ (dirGetFileStructure fs loc io).1.view = io.view ∧
      (dirGetFileStructure fs loc io).2 = recordAt (io.view (partGetRealLBA fs loc.sector)) loc.offset := by
  obtain ⟨io1,got,o,ready,shown,-⟩ := getSector_idle idle (partGetRealLBA fs loc.sector) .readonly
  obtain ⟨idle',shown'⟩ := releaseSector_idle ready
  unfold dirGetFileStructure partGetSect
  simp only [got]
  refine ⟨idle',shown'.trans shown,?_⟩
  rw [o.view,shown]

inductive DirCall
  | getFileStructure (loc : FileLocation)
  | createDirectoryEntry (loc : FileLocation) (filerec : FileRecord)
  | updateDirectoryEntry (loc : FileLocation) (entry : FileRecord)
  | setFirstCluster (loc : FileLocation) (cluster : Nat)
  | setFileSize (loc : FileLocation) (numbytes : Nat)

namespace DirCall

def location : DirCall → FileLocation
  | getFileStructure loc | createDirectoryEntry loc _ | updateDirectoryEntry loc _ | setFirstCluster loc _ | setFileSize loc _ => loc
/-- The sector is one of the card, and numbers have 32 bits. -/
def Fits (fs : FileSystem) (call : DirCall) : Prop :=
  fs.lbaBegin + call.location.sector < 2 ^ 32 ∧
    match call with
    | setFirstCluster _ number | setFileSize _ number => number < 2 ^ 32
    | _ => True

end DirCall

/-- The records that are read and written through the cache. -/
def dirRecords (fs : FileSystem) : Machine IOManager DirCall FileRecord where
  enabled _ call := call.Fits fs
  step io
    | .getFileStructure loc =>
      let (io,r) := dirGetFileStructure fs loc io
      (io,[r])
    | .createDirectoryEntry loc filerec => (dirCreateDirectoryEntry fs filerec loc io,[])
    | .updateDirectoryEntry loc entry => (dirUpdateDirectoryEntry fs entry loc io,[])
    | .setFirstCluster loc cluster => (dirSetFirstCluster fs loc cluster io,[])
    | .setFileSize loc numbytes => (dirSetFileSize fs loc numbytes io,[])

/-- An array of records, sixteen for each sector, with one of them changed. -/
def changeRecord (loc : FileLocation) (f : FileRecord → FileRecord) (records : Nat → Fin 16 → FileRecord) :
    Nat → Fin 16 → FileRecord :=
  Function.update records loc.sector
    (Function.update (records loc.sector) loc.offset (f (records loc.sector loc.offset)))
/-- The array under the same calls. -/
def recordArray (fs : FileSystem) : Machine (Nat → Fin 16 → FileRecord) DirCall FileRecord where
  enabled _ call := call.Fits fs
  step records
    | .getFileStructure loc => (records,[records loc.sector loc.offset])
    | .createDirectoryEntry loc r | .updateDirectoryEntry loc r => (changeRecord loc (fun _ => r) records,[])
    | .setFirstCluster loc cluster => (changeRecord loc (fsSetFirstClusterInDirEntry · cluster) records,[])
    | .setFileSize loc numbytes => (changeRecord loc (fun r => { r with fileSize := UInt32.ofNat numbytes }) records,[])

/-- The sectors of the partition hold the records of the array. -/
structure Recorded (fs : FileSystem) (io : IOManager) (records : Nat → Fin 16 → FileRecord) : Prop where
  idle : Idle io
  records : ∀ sector, fs.lbaBegin + sector < 2 ^ 32 → ∀ offset,
    recordAt (io.view (partGetRealLBA fs sector)) offset = records sector offset

variable {records : Nat → Fin 16 → FileRecord}

/-- A sector is changed in one of its records. -/
theorem Recorded.change (recorded : Recorded fs io records) (loc : FileLocation) (f : Sector → Sector)
    (g : FileRecord → FileRecord) (card : fs.lbaBegin + loc.sector < 2 ^ 32) (here : ∀ buf, recordAt (f buf) loc.offset = g (recordAt buf loc.offset))
    (apart : ∀ buf other, other ≠ loc.offset → recordAt (f buf) other = recordAt buf other) :
    Recorded fs (sectorEdit fs loc.sector f io) (changeRecord loc g records) := by
  obtain ⟨idle',shown⟩ := sectorEdit_spec fs f loc.sector recorded.idle
  refine ⟨idle',?_⟩
  intro sector inside offset
  rw [shown,changeRecord]
  by_cases same : sector = loc.sector
  · rw [same,Function.update_self,Function.update_self]
    by_cases place : offset = loc.offset
    · rw [place,Function.update_self,here,recorded.records _ card]
    · rw [Function.update_of_ne place,apart _ _ place,recorded.records _ card]
  · have other : partGetRealLBA fs sector ≠ partGetRealLBA fs loc.sector := fun equal =>
      same (FileSystem.realLBA_inj inside card equal)
    rw [Function.update_of_ne other,Function.update_of_ne same,recorded.records _ inside]
theorem dir_step (io : IOManager) (records : Nat → Fin 16 → FileRecord) (call : DirCall) (recorded : Recorded fs io records)
    (fits : call.Fits fs) : Recorded fs ((dirRecords fs).step io call).1 ((recordArray fs).step records call).1 ∧
      ((dirRecords fs).step io call).2 = ((recordArray fs).step records call).2 := by
  obtain ⟨card,small⟩ := fits
  cases call with
  | getFileStructure loc =>
    obtain ⟨idle',shown,read⟩ := dirGetFileStructure_spec fs recorded.idle loc
    refine ⟨⟨idle',?_⟩,?_⟩
    · intro sector inside offset
      exact (congrArg (fun d : Card => recordAt (d _) offset) shown).trans (recorded.records sector inside offset)
    · exact congrArg (fun r => [r]) (read.trans (recorded.records loc.sector card loc.offset))
  | createDirectoryEntry loc r | updateDirectoryEntry loc r =>
    exact ⟨recorded.change loc (putRecord loc.offset r) (fun _ => r) card (fun _ => recordAt_put)
      fun _ _ => recordAt_put_ne,rfl⟩
  | setFirstCluster loc cluster =>
    exact ⟨recorded.change loc (putFirstCluster loc.offset cluster) (fsSetFirstClusterInDirEntry · cluster) card
      (fun _ => recordAt_putFirstCluster small) fun _ _ => recordAt_putFirstCluster_ne,rfl⟩
  | setFileSize loc numbytes =>
    exact ⟨recorded.change loc (putFileSize loc.offset numbytes) (fun r => { r with fileSize := UInt32.ofNat numbytes }) card
      (fun _ => recordAt_putFileSize small) fun _ _ => recordAt_putFileSize_ne,rfl⟩

/-- The directories are an array of records: whatever is read, written and changed, in whatever order, each
    record that is read is what the array would give. -/
theorem directory_is_array (idle : Idle io) {calls : List DirCall} (each : (dirRecords fs).Admissible io calls) :
    (dirRecords fs).trace io calls =
      (recordArray fs).trace (fun sector => recordAt (io.view (partGetRealLBA fs sector))) calls :=
  (Machine.simulation (R := Recorded fs) dir_step ⟨idle,fun _ _ _ => rfl⟩ each).2
/-- A file gets its first cluster and its size beside another one in the same sector. -/
theorem directory_is_array_two :
    let entry := dirCreateDefaultEntry ⟨(List.range 11).map UInt8.ofNat,by decide⟩
    let calls : List DirCall := [.createDirectoryEntry ⟨5,0⟩ entry,.createDirectoryEntry ⟨5,1⟩ entry,
      .setFirstCluster ⟨5,0⟩ 0x12345,.setFileSize ⟨5,1⟩ 700,.getFileStructure ⟨5,0⟩,.getFileStructure ⟨5,1⟩]
    (dirRecords smallVolume).trace (iomanReset (fun _ => Block.fill 0) (Block.fill 0)) calls =
      (recordArray smallVolume).trace (fun sector => recordAt ((iomanReset (fun _ => Block.fill 0) (Block.fill 0)).view
        (partGetRealLBA smallVolume sector))) calls := by
  refine directory_is_array (reset_idle ..) (Machine.each_of_forall ?_)
  simp [DirCall.Fits,DirCall.location,smallVolume]

end
end Net2Modbus
