/-
Bootloader.Bios.Fat — the FAT file system stage 2 loads its files from
(`bios/stage-2/src/fat.rs`): the BIOS parameter block, the FAT table and the
walk along a file's cluster chain.

`FileSystem<D>` is generic over a disk `D: Read + Seek`, and every read it
makes follows a `seek(SeekFrom::Start(offset))`. So the model's `Disk` is
what the two reads give at an offset: `read_exact(len)` returns `len` bytes,
`read_exact_into(len, buf)` leaves a buffer of the same length.
`Disk.ofBytes` is the disk that returns the bytes of an image; stage 2's
`DiskAccess` does so from sector-aligned offsets (`Bios.Disk`).

Stage 2 is built with overflow checks, so the `u32` arithmetic of the
parameter block panics where it overflows; its `debug_assert!`s are compiled
out.

* `fatEntryOfNthCluster_eq`: on a disk that returns the bytes of a FAT laid
  out by the specification (`FatType.tableByte`), `fat_entry_of_nth_cluster`
  reads back entry `n`, for FAT12, FAT16 and FAT32 alike.
* `Traverser.take`: the items the cluster iterator yields. The walk goes
  wherever the FAT points; `Bios.FatDirectory` gives a file on which it never
  ends.
-/
import Bootloader.Lib.LittleEndian
import Bootloader.X86.Addr

namespace Bootloader

namespace Bios

open LittleEndian

/-! ## Disks -/

/-- A disk as `FileSystem<D: Read + Seek>` reads it, after a seek to an
offset. -/
structure Disk where
  /-- `read_exact(len)`. -/
  readExact : Nat → Nat → Except Panic (List UInt8)
  /-- `read_exact_into(len, buf)`: the buffer afterwards. -/
  readExactInto : Nat → Nat → List UInt8 → Except Panic (List UInt8)
  /-- `read_exact` returns a slice of the length asked for. -/
  length_readExact : ∀ {offset len bytes}, readExact offset len = .ok bytes → bytes.length = len
  /-- `read_exact_into` fills a buffer in place. -/
  length_readExactInto : ∀ {offset len buf buf'}, readExactInto offset len buf = .ok buf' →
    buf'.length = buf.length

namespace Disk

/-- The `len` bytes of `image` from `offset` on. -/
def bytesAt (image : Nat → UInt8) (offset len : Nat) : List UInt8 :=
  (List.range len).map fun i => image (offset + i)

@[simp] theorem length_bytesAt (image : Nat → UInt8) (offset len : Nat) :
    (bytesAt image offset len).length = len := by
  simp [bytesAt]

/-- The disk that returns the bytes of `image`, with the checks of
`read_exact_into`: a whole number of sectors that fits the buffer. -/
def ofBytes (image : Nat → UInt8) : Disk where
  readExact offset len := .ok (bytesAt image offset len)
  readExactInto offset len buf :=
    if len % 512 ≠ 0 then .error .assertFailed
    else if buf.length < len then .error .indexOutOfBounds
    else .ok (bytesAt image offset len ++ buf.drop len)
  length_readExact := by
    intro offset len bytes h
    cases h
    exact length_bytesAt image offset len
  length_readExactInto := by
    intro offset len buf buf' h
    split_ifs at h with hsector hfits
    cases h
    rw [List.length_append, length_bytesAt, List.length_drop]
    omega

end Disk

/-! ## `u32` arithmetic under overflow checks -/

/-- `u32` addition. -/
def addU32 (a b : Nat) : Except Panic Nat := if a + b < 2 ^ 32 then .ok (a + b) else .error .addOverflow

/-- `u32` subtraction. -/
def subU32 (a b : Nat) : Except Panic Nat := if b ≤ a then .ok (a - b) else .error .subOverflow

/-- `u32` multiplication. -/
def mulU32 (a b : Nat) : Except Panic Nat := if a * b < 2 ^ 32 then .ok (a * b) else .error .mulOverflow

/-- `u32` division. -/
def divU32 (a b : Nat) : Except Panic Nat := if b = 0 then .error .divByZero else .ok (a / b)

/-! ## The BIOS parameter block -/

/-- `FatType`. -/
inductive FatType where
  | fat12
  | fat16
  | fat32
  deriving DecidableEq, Repr

/-- `FatType::fat_entry_defective`. -/
def FatType.fatEntryDefective : FatType → Nat
  | .fat12 => 0xFF7
  | .fat16 => 0xFFF7
  | .fat32 => 0x0FFFFFF7

/-- `Bpb`: the fields of the BIOS parameter block (the FAT32 root cluster,
which nothing reads, is left out). -/
structure Bpb where
  bytesPerSector : Nat
  sectorsPerCluster : Nat
  reservedSectorCount : Nat
  numFats : Nat
  rootEntryCount : Nat
  totalSectors16 : Nat
  fatSize16 : Nat
  totalSectors32 : Nat
  fatSize32 : Nat
  deriving DecidableEq, Repr

/-- `T::from_le_bytes(raw[start..start + len].try_into().unwrap())`. -/
def leField (raw : List UInt8) (start len : Nat) : Nat :=
  ofLeBytes ((raw.drop start).take len)

namespace Bpb

/-- `Bpb::parse`: the first sector of the partition. Exactly one of the two
total-sector fields must be zero. -/
def parse (disk : Disk) : Except Panic Bpb := do
  let raw ← disk.readExact 0 512
  let totalSectors16 := leField raw 19 2
  let totalSectors32 := leField raw 32 4
  let fatSize32 ← (if totalSectors16 = 0 ∧ totalSectors32 ≠ 0 then .ok (leField raw 36 4)
    else if totalSectors16 ≠ 0 ∧ totalSectors32 = 0 then .ok 0
    else .error .explicit : Except Panic Nat)
  pure { bytesPerSector := leField raw 11 2, sectorsPerCluster := (raw.getD 13 0).toNat,
         reservedSectorCount := leField raw 14 2, numFats := (raw.getD 16 0).toNat,
         rootEntryCount := leField raw 17 2, totalSectors16, fatSize16 := leField raw 22 2,
         totalSectors32, fatSize32 }

/-- `fat_size_in_sectors`. -/
def fatSizeInSectors (self : Bpb) : Nat :=
  if self.fatSize16 ≠ 0 ∧ self.fatSize32 = 0 then self.fatSize16 else self.fatSize32

/-- `count_of_clusters`, in `u32` arithmetic. -/
def countOfClusters (self : Bpb) : Except Panic Nat := do
  let rootDirSectors ←
    divU32 (self.rootEntryCount * 32 + (← subU32 self.bytesPerSector 1)) self.bytesPerSector
  let totalSectors := if self.totalSectors16 ≠ 0 then self.totalSectors16 else self.totalSectors32
  let fatSectors ← mulU32 self.numFats self.fatSizeInSectors
  let dataSectors ← subU32 totalSectors
    (← addU32 (← addU32 self.reservedSectorCount fatSectors) rootDirSectors)
  divU32 dataSectors self.sectorsPerCluster

/-- `fat_type`: by the number of clusters. -/
def fatType (self : Bpb) : Except Panic FatType := do
  let countOfClusters ← self.countOfClusters
  pure (if countOfClusters < 4085 then .fat12 else if countOfClusters < 65525 then .fat16 else .fat32)

/-- `root_directory_size`, which asks for the FAT type first. -/
def rootDirectorySize (self : Bpb) : Except Panic Nat := do
  let _ ← self.fatType
  pure (self.rootEntryCount * 32)

/-- `root_directory_offset`. -/
def rootDirectoryOffset (self : Bpb) : Nat :=
  (self.reservedSectorCount + self.numFats * self.fatSize16) * self.bytesPerSector

/-- `maximum_valid_cluster`. -/
def maximumValidCluster (self : Bpb) : Except Panic Nat := do
  addU32 (← self.countOfClusters) 1

/-- `fat_offset`. -/
def fatOffset (self : Bpb) : Nat := self.reservedSectorCount * self.bytesPerSector

/-- `data_offset`. -/
def dataOffset (self : Bpb) : Except Panic Nat := do
  pure ((← self.rootDirectorySize) +
    (self.reservedSectorCount + self.fatSizeInSectors * self.numFats) * self.bytesPerSector)

/-- `bytes_per_cluster`. -/
def bytesPerCluster (self : Bpb) : Nat := self.bytesPerSector * self.sectorsPerCluster

end Bpb

/-! ## The FAT -/

/-- `FileFatEntry`. -/
inductive FileFatEntry where
  | allocatedCluster (cluster : Nat)
  | endOfFile
  deriving DecidableEq, Repr

/-- `FatLookupError`. -/
inductive FatLookupError where
  | freeCluster
  | defectiveCluster
  | unspecifiedEntryOne
  | reservedEntry
  deriving DecidableEq, Repr

/-- `classify_fat_entry`: any value from 2 to the largest valid cluster is a
further cluster. -/
def classifyFatEntry (fatType : FatType) (entry maximumValidCluster : Nat) :
    Except FatLookupError FileFatEntry :=
  match entry with
  | 0 => .error .freeCluster
  | 1 => .error .unspecifiedEntryOne
  | entry =>
    if entry ≤ maximumValidCluster then .ok (.allocatedCluster entry)
    else if entry < fatType.fatEntryDefective then .error .reservedEntry
    else if entry = fatType.fatEntryDefective then .error .defectiveCluster
    else .ok .endOfFile

/-- `fat_entry_of_nth_cluster`: the FAT entry of cluster `n`, read from the
FAT at `fatStart`. -/
def fatEntryOfNthCluster (disk : Disk) (fatType : FatType) (fatStart n : Nat) : Except Panic Nat :=
  match fatType with
  | .fat32 => do
    let buf ← disk.readExact (fatStart + n * 4) 4
    pure (ofLeBytes buf &&& 0x0FFFFFFF)
  | .fat16 => do
    let buf ← disk.readExact (fatStart + n * 2) 2
    pure (ofLeBytes buf)
  | .fat12 => do
    let buf ← disk.readExact (fatStart + (n + n / 2)) 2
    let entry16 := ofLeBytes buf
    pure (if n &&& 1 = 0 then entry16 &&& 0xFFF else entry16 >>> 4)

/-! ## The specification's layout -/

/-- The bits of a FAT entry: 12, 16 or 28 (the top four bits of a FAT32
slot are reserved). -/
def FatType.entryBits : FatType → Nat
  | .fat12 => 12
  | .fat16 => 16
  | .fat32 => 28

/-- The bits an entry's slot takes in the table. -/
def FatType.slotBits : FatType → Nat
  | .fat12 => 12
  | .fat16 => 16
  | .fat32 => 32

/-- Byte `i` of a FAT whose slots hold `slots`, laid out by the FAT
specification: two FAT12 slots in three little-endian bytes, a little-endian
`u16` per FAT16 slot, a little-endian `u32` per FAT32 slot. -/
def FatType.tableByte (t : FatType) (slots : List Nat) (i : Nat) : UInt8 :=
  match t with
  | .fat12 =>
    UInt8.ofNat ((slots.getD (i / 3 * 2) 0 + 4096 * slots.getD (i / 3 * 2 + 1) 0) / 256 ^ (i % 3))
  | .fat16 => UInt8.ofNat (slots.getD (i / 2) 0 / 256 ^ (i % 2))
  | .fat32 => UInt8.ofNat (slots.getD (i / 4) 0 / 256 ^ (i % 4))

/-- Bytes of an image that all come from one word `x` of a table, from its
byte `j` on, read as `x` shifted by `j` bytes. -/
theorem ofLeBytes_bytesAt {image : Nat → UInt8} {o l x j : Nat}
    (hbytes : ∀ i < l, image (o + i) = UInt8.ofNat (x / 256 ^ (j + i))) :
    ofLeBytes (Disk.bytesAt image o l) = x / 256 ^ j % 256 ^ l := by
  rw [← ofLeBytes_shifted x j l]
  unfold Disk.bytesAt
  congr 1
  exact List.map_congr_left fun i hi => hbytes i (List.mem_range.mp hi)

theorem getD_lt {slots : List Nat} {b : Nat} (hslots : ∀ s ∈ slots, s < b) (hb : 0 < b) (k : Nat) :
    slots.getD k 0 < b := by
  rw [List.getD_eq_getElem?_getD]
  cases h : slots[k]? with
  | none => exact hb
  | some s => exact hslots s (List.mem_of_getElem? h)

section Layout

variable {slots : List Nat} {disk : Disk} {image : Nat → UInt8} {fatStart : Nat}

/-- The `w` bytes of slot `n` of a table of little-endian `w`-byte slots
read back as the slot's value, cut to `w` bytes. -/
theorem ofLeBytes_slot {w : Nat} (himage : ∀ i, image (fatStart + i) =
    UInt8.ofNat (slots.getD (i / w) 0 / 256 ^ (i % w))) (n : Nat) :
    ofLeBytes (Disk.bytesAt image (fatStart + n * w) w) = slots.getD n 0 % 256 ^ w := by
  have hbytes : ∀ i < w, image (fatStart + n * w + i) = UInt8.ofNat (slots.getD n 0 / 256 ^ (0 + i)) := by
    intro i hi
    have hdiv : (n * w + i) / w = n := by
      rw [Nat.add_comm, Nat.add_mul_div_right _ _ (by omega), Nat.div_eq_of_lt hi, Nat.zero_add]
    have hmod : (n * w + i) % w = i := by rw [Nat.add_comm, Nat.add_mul_mod_self_right, Nat.mod_eq_of_lt hi]
    rw [Nat.add_assoc, himage, hdiv, hmod, Nat.zero_add]
  rw [ofLeBytes_bytesAt hbytes, pow_zero, Nat.div_one]

/-- A FAT32 lookup reads the four bytes of slot `n`. -/
theorem fatEntryOfNthCluster_fat32
    (hdisk : ∀ offset len, disk.readExact offset len = .ok (Disk.bytesAt image offset len))
    (himage : ∀ i, image (fatStart + i) = FatType.fat32.tableByte slots i) (n : Nat) :
    fatEntryOfNthCluster disk .fat32 fatStart n = .ok (slots.getD n 0 % 2 ^ 28) := by
  simp only [fatEntryOfNthCluster, hdisk, Except.ok_bind, ofLeBytes_slot himage n]
  -- the mask drops the reserved top four bits
  rw [show (0x0FFFFFFF : Nat) = 2 ^ 28 - 1 from rfl, Nat.and_two_pow_sub_one_eq_mod,
    show (256 : Nat) ^ 4 = 2 ^ 32 from rfl, Nat.mod_mod_of_dvd _ (by decide)]
  rfl

/-- A FAT16 lookup reads the two bytes of slot `n`. -/
theorem fatEntryOfNthCluster_fat16
    (hdisk : ∀ offset len, disk.readExact offset len = .ok (Disk.bytesAt image offset len))
    (himage : ∀ i, image (fatStart + i) = FatType.fat16.tableByte slots i) (n : Nat) :
    fatEntryOfNthCluster disk .fat16 fatStart n = .ok (slots.getD n 0 % 2 ^ 16) := by
  simp only [fatEntryOfNthCluster, hdisk, Except.ok_bind, ofLeBytes_slot himage n]
  rfl

/-- A FAT12 lookup reads the two bytes holding the 12 bits of slot `n`: the
low 12 bits of the pair's first two bytes for an even `n`, the high 12 bits
of its last two for an odd one. -/
theorem fatEntryOfNthCluster_fat12 (hslots : ∀ s ∈ slots, s < 2 ^ 12)
    (hdisk : ∀ offset len, disk.readExact offset len = .ok (Disk.bytesAt image offset len))
    (himage : ∀ i, image (fatStart + i) = FatType.fat12.tableByte slots i) (n : Nat) :
    fatEntryOfNthCluster disk .fat12 fatStart n = .ok (slots.getD n 0 % 2 ^ 12) := by
  simp only [fatEntryOfNthCluster, hdisk, Except.ok_bind, Nat.and_one_is_mod]
  rcases Nat.mod_two_eq_zero_or_one n with heven | hodd
  · -- `n = 2k`: bytes `3k` and `3k + 1`, the low 16 bits of the pair
    have hword : ofLeBytes (Disk.bytesAt image (fatStart + (n + n / 2)) 2) =
        (slots.getD n 0 + 4096 * slots.getD (n + 1) 0) / 256 ^ 0 % 256 ^ 2 := by
      refine ofLeBytes_bytesAt fun i hi => ?_
      have hdiv : (n + n / 2 + i) / 3 * 2 = n := by omega
      have hmod : (n + n / 2 + i) % 3 = i := by omega
      rw [Nat.add_assoc, himage, FatType.tableByte, hdiv, hmod, Nat.zero_add]
    rw [hword, if_pos heven, show (0xFFF : Nat) = 2 ^ 12 - 1 from rfl, Nat.and_two_pow_sub_one_eq_mod]
    congr 1
    omega
  · -- `n = 2k + 1`: bytes `3k + 1` and `3k + 2`, the high 16 bits of the pair
    have hprev := getD_lt hslots (by decide) (n - 1)
    have hword : ofLeBytes (Disk.bytesAt image (fatStart + (n + n / 2)) 2) =
        (slots.getD (n - 1) 0 + 4096 * slots.getD n 0) / 256 ^ 1 % 256 ^ 2 := by
      refine ofLeBytes_bytesAt fun i hi => ?_
      have hdiv : (n + n / 2 + i) / 3 * 2 = n - 1 := by omega
      have hnext : n - 1 + 1 = n := by omega
      have hmod : (n + n / 2 + i) % 3 = 1 + i := by omega
      rw [Nat.add_assoc, himage, FatType.tableByte, hdiv, hnext, hmod]
    rw [hword, if_neg (by omega), Nat.shiftRight_eq_div_pow]
    congr 1
    omega

end Layout

/-- On a disk that returns the bytes of a FAT laid out by the specification
from `fatStart` on, `fat_entry_of_nth_cluster` returns entry `n`: the value
of slot `n`, without a FAT32 slot's reserved top bits. -/
theorem fatEntryOfNthCluster_eq (t : FatType) (slots : List Nat)
    (hslots : ∀ s ∈ slots, s < 2 ^ t.slotBits) (disk : Disk) (image : Nat → UInt8) (fatStart : Nat)
    (hdisk : ∀ offset len, disk.readExact offset len = .ok (Disk.bytesAt image offset len))
    (himage : ∀ i, image (fatStart + i) = t.tableByte slots i) (n : Nat) :
    fatEntryOfNthCluster disk t fatStart n = .ok (slots.getD n 0 % 2 ^ t.entryBits) := by
  cases t with
  | fat12 => exact fatEntryOfNthCluster_fat12 hslots hdisk himage n
  | fat16 => exact fatEntryOfNthCluster_fat16 hdisk himage n
  | fat32 => exact fatEntryOfNthCluster_fat32 hdisk himage n

/-- A FAT12 table whose entries 2 and 3 chain cluster 2 to cluster 3 and
end there: the lookup of cluster 3 straddles the middle byte of its pair. -/
theorem fatEntryOfNthCluster_eq_on_fat12 :
    (∀ s ∈ [0xFF8, 0xFFF, 3, 0xFFF], s < 2 ^ FatType.fat12.slotBits) ∧
      fatEntryOfNthCluster (Disk.ofBytes (FatType.fat12.tableByte [0xFF8, 0xFFF, 3, 0xFFF])) .fat12 0 3 =
        .ok ([0xFF8, 0xFFF, 3, 0xFFF].getD 3 0 % 2 ^ FatType.fat12.entryBits) :=
  ⟨by decide, fatEntryOfNthCluster_eq .fat12 _ (by decide) _ _ 0 (fun _ _ => rfl)
    (fun i => by rw [Nat.zero_add]) 3⟩

/-! ## Files and their clusters -/

/-- `File`: where a file's cluster chain starts, and its size. -/
structure File where
  firstCluster : Nat
  fileSize : Nat
  deriving DecidableEq, Repr

/-- `Cluster`. -/
structure Cluster where
  index : Nat
  startOffset : Nat
  lenBytes : Nat
  deriving DecidableEq, Repr

/-- `FileSystem`: the disk and its parameter block. -/
structure FileSystem where
  disk : Disk
  bpb : Bpb

/-- `FileSystem::parse`. -/
def FileSystem.parse (disk : Disk) : Except Panic FileSystem := do
  pure ⟨disk, ← Bpb.parse disk⟩

/-- `Traverser`, by the FAT entry the walk stands on. -/
structure Traverser where
  currentEntry : Nat
  deriving DecidableEq, Repr

/-- `FileSystem::file_clusters`: a walk from the file's first cluster. -/
def FileSystem.fileClusters (file : File) : Traverser := ⟨file.firstCluster⟩

namespace Traverser

/-- `next_cluster`: classify the current entry; on a cluster, yield it and
step to the FAT entry of that cluster. An invalid entry is an `Err(())`
that leaves the walk where it is. -/
def nextCluster (fs : FileSystem) (self : Traverser) :
    Except Panic (Except Unit (Option Cluster) × Traverser) := do
  match classifyFatEntry (← fs.bpb.fatType) self.currentEntry (← fs.bpb.maximumValidCluster) with
  | .error _ => pure (.error (), self)
  | .ok .endOfFile => pure (.ok none, self)
  | .ok (.allocatedCluster entry) =>
    let clusterStart := (← fs.bpb.dataOffset) + (entry - 2) * fs.bpb.bytesPerCluster
    let nextEntry ← fatEntryOfNthCluster fs.disk (← fs.bpb.fatType) fs.bpb.fatOffset entry
    pure (.ok (some ⟨self.currentEntry, clusterStart, fs.bpb.bytesPerCluster⟩), ⟨nextEntry⟩)

/-- `Iterator::next`: `next_cluster().transpose()`. -/
def next (fs : FileSystem) (self : Traverser) :
    Except Panic (Option (Except Unit Cluster) × Traverser) := do
  let (result, self) ← self.nextCluster fs
  pure (match result with
    | .ok none => none
    | .ok (some cluster) => some (.ok cluster)
    | .error e => some (.error e), self)

/-- The first `n` items of the iterator, fewer if it ends first. -/
def take (fs : FileSystem) : Nat → Traverser → Except Panic (List (Except Unit Cluster))
  | 0, _ => .ok []
  | n + 1, self => do
    let (item, self) ← self.next fs
    match item with
    | none => pure []
    | some item => pure (item :: (← take fs n self))

/-- A walk that comes back to where it stood yields the same item for ever. -/
theorem take_of_next_eq_self {fs : FileSystem} {self : Traverser} {item : Except Unit Cluster}
    (h : self.next fs = .ok (some item, self)) : ∀ n, take fs n self = .ok (List.replicate n item)
  | 0 => rfl
  | n + 1 => by
    rw [take, h, Except.ok_bind]
    simp only [take_of_next_eq_self h n, Except.ok_bind, List.replicate_succ]
    rfl

end Traverser

end Bios

end Bootloader
