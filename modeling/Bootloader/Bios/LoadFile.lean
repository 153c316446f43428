/-
Bootloader.Bios.LoadFile — how stage 2 loads a file of its FAT partition
into memory (`bios/stage-2/src/main.rs`: `try_load_file`,
`bios/stage-2/src/protected_mode.rs`: `copy_to_protected_mode`).

`try_load_file` looks the file up in the root directory and walks its
cluster chain. Each cluster is read 16 KiB at a time into `DISK_BUFFER`
(`seek` to the range, then `read_exact_into` of the whole buffer) and the
part of the buffer that belongs to the cluster is copied, byte by byte,
to `dst.wrapping_add(total_offset)` above 1 MiB. It returns the size the
directory entry gives, not the number of bytes it wrote.

The partition is `Disk` (`Bios.Fat`): stage 2's `disk` and the file
system's own copy of it read the same partition, so the model reads both
through `fs.disk`. Stage 2's disk is `DiskAccess.toDisk`: on a partition
that starts on a sector it reads what `Disk.ofBytes` of the partition reads,
by `read_exact` anywhere and by `read_exact_into` from a sector boundary
(`toDisk_readExact`, `toDisk_readExactInto`). Memory above 1 MiB is a byte map apart from the buffer,
which lies in stage 2's own image below 1 MiB. The `assert_eq!`s that read
back a byte just written hold of memory and are left out. Stage 2 is built
with overflow checks and a 32-bit `usize`.

* `loadCluster_eq_ok`: the inner loop copies the cluster's bytes, in order,
  to the place it starts at.
* `tryLoadFile_loads`: on stage 2's disk, with whole 512-byte sectors and
  a root directory of whole sectors, so that every cluster starts on a
  sector, and on a file whose cluster chain ends, the loader returns the
  directory entry's size and leaves memory holding the whole clusters of the
  chain back to back from `dst` on: bytes past the file's size, up to the
  end of its last cluster, are written too.
-/
import Bootloader.Bios.FatDirectory
import Bootloader.Bios.Disk
import Bootloader.Common.LoadKernel

namespace Bootloader

namespace Bios

/-- `DISK_BUFFER.buffer.len()`. -/
def diskBufferSize : Nat := 0x4000

/-- `copy_to_protected_mode`: each byte is stored at
`target.wrapping_add(offset)` in the 32-bit address space. -/
def copyToProtectedMode (memory : Nat → UInt8) (target : Nat) : List UInt8 → Nat → UInt8
  | [] => memory
  | byte :: bytes => copyToProtectedMode (Function.update memory (target % 2 ^ 32) byte) (target + 1) bytes

/-- The inner loop of `try_load_file`, over one cluster `[clusterStart,
clusterEnd)`: from `offset` on, the next 16 KiB or what is left of the
cluster are read into the buffer and copied to `dst + total_offset`. -/
def loadCluster (fs : FileSystem) (dst clusterStart clusterEnd offset totalOffset : Nat)
    (buffer : List UInt8) (memory : Nat → UInt8) :
    Except Panic (Nat × List UInt8 × (Nat → UInt8)) :=
  if 2 ^ 64 ≤ clusterStart + offset then .error .addOverflow else
  let rangeStart := clusterStart + offset
  if _ : clusterEnd ≤ rangeStart then .ok (totalOffset, buffer, memory) else
  if 2 ^ 64 ≤ rangeStart + diskBufferSize then .error .addOverflow else
  let rangeEnd := min (rangeStart + diskBufferSize) clusterEnd
  let len := rangeEnd - rangeStart
  -- `disk.seek(SeekFrom::Start(range_start)); disk.read_exact_into(disk_buffer_size, ..)`
  match fs.disk.readExactInto rangeStart diskBufferSize buffer with
  | .error e => .error e
  | .ok buffer =>
    -- `&disk_buffer.buffer[..len]`
    if buffer.length < len then .error .indexOutOfBounds else
    let memory := copyToProtectedMode memory ((dst + totalOffset) % 2 ^ 32) (buffer.take len)
    if 2 ^ 64 ≤ offset + len then .error .addOverflow else
    if 2 ^ 32 ≤ totalOffset + len then .error .addOverflow else
    loadCluster fs dst clusterStart clusterEnd (offset + len) (totalOffset + len) buffer memory
termination_by clusterEnd - offset
decreasing_by
  simp only [rangeStart, rangeEnd, len, diskBufferSize] at *
  omega

/-- The cluster loop of `try_load_file`, `for cluster in fs.file_clusters(&file)`,
for at most `fuel` clusters: `none` when the walk has not ended by then. An
`Err` of the walk is unwrapped. -/
def loadClusters (fs : FileSystem) (dst : Nat) :
    Nat → Traverser → Nat → List UInt8 → (Nat → UInt8) →
      Except Panic (Option (List UInt8 × (Nat → UInt8)))
  | 0, _, _, _, _ => pure none
  | fuel + 1, self, totalOffset, buffer, memory => do
    let (item, self) ← self.next fs
    match item with
    | none => pure (some (buffer, memory))
    | some (.error ()) => throw .unwrapErr
    | some (.ok cluster) =>
      let clusterEnd ← addU64 cluster.startOffset cluster.lenBytes
      let (totalOffset, buffer, memory) ←
        loadCluster fs dst cluster.startOffset clusterEnd 0 totalOffset buffer memory
      loadClusters fs dst fuel self totalOffset buffer memory

/-- `try_load_file`, with the cluster walk bounded by `fuel`: `none` when
the walk has not ended within `fuel` clusters; otherwise the size of the
file, if the root directory has it, with the buffer and memory afterwards. -/
def tryLoadFile (fs : FileSystem) (fileName : List Char) (dst : Nat) (buffer : List UInt8)
    (memory : Nat → UInt8) (fuel : Nat) :
    Except Panic (Option (Option Nat × List UInt8 × (Nat → UInt8))) := do
  let (file, buffer) ← fs.findFileInRootDir fileName buffer
  match file with
  | none => pure (some (none, buffer, memory))
  | some file =>
    let fileSize := file.fileSize
    match ← loadClusters fs dst fuel (FileSystem.fileClusters file) 0 buffer memory with
    | none => pure none
    | some (buffer, memory) => pure (some (some fileSize, buffer, memory))

/-- The bytes of a cluster on a partition. -/
def clusterBytes (image : Nat → UInt8) (cluster : Cluster) : List UInt8 :=
  Disk.bytesAt image cluster.startOffset cluster.lenBytes

/-- Stage 2's partition as the file system reads it: `DiskAccess` on a
drive, with `DISK_BUFFER` at `diskBuffer` and `TMP_BUF` at `tmpBuf`. After
a seek to `offset`, `read_exact_into(len, buf)` leaves in the buffer what the
BIOS's packets wrote there, and `read_exact(len)` returns the bytes it picks
from `TMP_BUF`. -/
def DiskAccess.toDisk (self : DiskAccess) (drive : Nat → UInt8) (diskBuffer tmpBuf : Nat) : Disk where
  readExact offset len := ((self.seek offset).1.readExact drive (fun _ => 0) tmpBuf len).map (·.2.2)
  readExactInto offset len buf :=
    ((self.seek offset).1.readExactInto len ⟨diskBuffer, buf.length⟩).map fun result =>
      (List.range buf.length).map fun i =>
        DiskAddressPacket.performLoads result.2 drive (fun a => buf.getD (a - diskBuffer) 0) (diskBuffer + i)
  length_readExact := by
    intro offset len bytes h
    obtain ⟨r, hr, rfl⟩ := Except.map_eq_ok.mp h
    exact DiskAccess.length_readExact hr
  length_readExactInto := by
    intro offset len buf buf' h
    obtain ⟨r, -, rfl⟩ := Except.map_eq_ok.mp h
    simp

/-! ## Bytes written and bytes read -/

@[simp] theorem writeBytes_nil (memory : Nat → UInt8) (addr : Nat) :
    writeBytes memory addr [] = memory := by
  funext a
  simp [writeBytes]

theorem writeBytes_cons (memory : Nat → UInt8) (addr : Nat) (byte : UInt8) (bytes : List UInt8) :
    writeBytes memory addr (byte :: bytes) =
      writeBytes (Function.update memory addr byte) (addr + 1) bytes := by
  funext a
  unfold writeBytes
  by_cases ha : a = addr
  · subst ha
    simp
  · -- off `addr`, the first byte is no longer in the range
    rw [Function.update_of_ne ha, List.length_cons]
    by_cases hin : addr + 1 ≤ a ∧ a < addr + 1 + bytes.length
    · rw [if_pos ⟨by omega, by omega⟩, if_pos hin, show a - addr = a - (addr + 1) + 1 by omega,
        List.getD_cons_succ]
    · rw [if_neg (by omega), if_neg hin]

/-- Two writes one after the other are one write of both. -/
theorem writeBytes_append (memory : Nat → UInt8) (addr : Nat) (xs ys : List UInt8) :
    writeBytes (writeBytes memory addr xs) (addr + xs.length) ys = writeBytes memory addr (xs ++ ys) := by
  funext a
  unfold writeBytes
  rw [List.length_append]
  by_cases hys : addr + xs.length ≤ a ∧ a < addr + xs.length + ys.length
  · rw [if_pos hys, if_pos ⟨by omega, by omega⟩, List.getD_append_right _ _ _ _ (by omega),
      Nat.sub_add_eq]
  · rw [if_neg hys]
    by_cases hxs : addr ≤ a ∧ a < addr + xs.length
    · rw [if_pos hxs, if_pos ⟨hxs.1, by omega⟩, List.getD_append _ _ _ _ (by omega)]
    · rw [if_neg hxs, if_neg (by omega)]

/-- Below the top of the 32-bit address space, `copy_to_protected_mode`
writes the bytes from `target` on. -/
theorem copyToProtectedMode_eq_writeBytes :
    ∀ (bytes : List UInt8) (memory : Nat → UInt8) (target : Nat), target + bytes.length ≤ 2 ^ 32 →
      copyToProtectedMode memory target bytes = writeBytes memory target bytes
  | [], memory, target, _ => (writeBytes_nil memory target).symm
  | byte :: bytes, memory, target, h => by
    rw [List.length_cons] at h
    rw [copyToProtectedMode, Nat.mod_eq_of_lt (by omega),
      copyToProtectedMode_eq_writeBytes bytes _ _ (by omega), writeBytes_cons]

theorem Disk.bytesAt_add (image : Nat → UInt8) (offset m n : Nat) :
    Disk.bytesAt image offset (m + n) =
      Disk.bytesAt image offset m ++ Disk.bytesAt image (offset + m) n := by
  simp only [Disk.bytesAt, List.range_add, List.map_append, List.map_map]
  congr 1
  apply List.map_congr_left
  intro i _
  simp [Nat.add_assoc]

theorem Disk.take_bytesAt (image : Nat → UInt8) {offset m n : Nat} (h : m ≤ n) :
    (Disk.bytesAt image offset n).take m = Disk.bytesAt image offset m := by
  rw [Disk.bytesAt, ← List.map_take, List.take_range, Nat.min_eq_left h, Disk.bytesAt]

/-! ## Stage 2's disk against a partition image -/

namespace DiskAccess

variable (self : DiskAccess) (drive : Nat → UInt8) {diskBuffer tmpBuf : Nat}

/-- The partition as a byte map: the drive from the partition's first byte on. -/
def partition : Nat → UInt8 := fun a => drive (self.baseOffset + a)

/-- At a sector-aligned place, stage 2's `read_exact_into(len, buf)` does
what `Disk.ofBytes` of the partition does: the buffer holds the `len` bytes
from the offset on, then what it held. -/
theorem toDisk_readExactInto {offset len : Nat} {buf : List UInt8} (hlen : len % 512 = 0)
    (hbuf : len ≤ buf.length) (hpos : 0 < len) (hend : self.baseOffset + offset + len < 2 ^ 64)
    (hlow : diskBuffer + (len + 512) < 2 ^ 20) (haligned : (self.baseOffset + offset) % 512 = 0) :
    (self.toDisk drive diskBuffer tmpBuf).readExactInto offset len buf =
      (Disk.ofBytes (self.partition drive)).readExactInto offset len buf := by
  obtain ⟨daps, hdaps, -, hload⟩ := readExactInto_of_aligned (self.seek offset).1 len
    ⟨diskBuffer, buf.length⟩ drive hlen hbuf hpos hend hlow haligned
  dsimp only [seek] at hload
  show ((self.seek offset).1.readExactInto len ⟨diskBuffer, buf.length⟩).map _ = _
  rw [hdaps, Disk.ofBytes]
  simp only [hlen, ne_eq, not_true_eq_false, if_false, Nat.not_lt.mpr hbuf, Except.map]
  congr 1
  apply List.ext_getElem (by simp; omega)
  intro i hi _
  rw [List.length_map, List.length_range] at hi
  simp only [List.getElem_map, List.getElem_range]
  rw [hload]
  -- the first `len` bytes come from the drive, the rest of the buffer stays
  by_cases hin : i < len
  · rw [if_pos ⟨by omega, by omega⟩, List.getElem_append_left (by simpa using hin)]
    simp only [Disk.bytesAt, List.getElem_map, List.getElem_range, partition]
    congr 1
    omega
  · rw [if_neg (by omega), List.getElem_append_right (by simp; omega), List.getElem_drop]
    simp only [Disk.length_bytesAt, Nat.add_sub_cancel_left]
    rw [List.getD_eq_getElem _ _ hi]
    congr 1
    omega

/-- On a partition that starts on a sector, stage 2's `read_exact(len)`
returns what `Disk.ofBytes` of the partition returns, wherever the offset
lies in its sector. -/
theorem toDisk_readExact {offset len : Nat} (hlen : offset % 512 + len ≤ 1024)
    (hend : self.baseOffset + offset + 1024 < 2 ^ 64) (hlow : tmpBuf + 1536 < 2 ^ 20)
    (hbase : self.baseOffset % 512 = 0) :
    (self.toDisk drive diskBuffer tmpBuf).readExact offset len =
      (Disk.ofBytes (self.partition drive)).readExact offset len := by
  show ((self.seek offset).1.readExact drive (fun _ => 0) tmpBuf len).map (·.2.2) = _
  rw [readExact_bytes (self.seek offset).1 drive (fun _ => 0) tmpBuf len hlen hend hlow hbase]
  simp only [Disk.ofBytes, Disk.bytesAt, partition, seek, Nat.add_assoc]

end DiskAccess

/-- A disk from which a read of `DISK_BUFFER`'s size at a sector-aligned
offset, ending below `limit`, fills the buffer with the bytes of `image` from
there on. -/
def Disk.ReadsImage (disk : Disk) (image : Nat → UInt8) (limit : Nat) : Prop :=
  ∀ offset (buffer : List UInt8), offset % 512 = 0 → offset + diskBufferSize < limit →
    buffer.length = diskBufferSize →
      disk.readExactInto offset diskBufferSize buffer = .ok (Disk.bytesAt image offset diskBufferSize)

/-- Stage 2's disk reads its partition, on a partition that starts on a
sector with `DISK_BUFFER` below 1 MiB. -/
theorem DiskAccess.toDisk_readsImage (self : DiskAccess) (drive : Nat → UInt8) {diskBuffer tmpBuf : Nat}
    (hbase : self.baseOffset % 512 = 0) (hlow : diskBuffer + 0x4200 < 2 ^ 20) :
    (self.toDisk drive diskBuffer tmpBuf).ReadsImage (self.partition drive) (2 ^ 64 - self.baseOffset) := by
  intro offset buffer haligned hend hbuf
  have hsize : diskBufferSize = 0x4000 := rfl
  have hdrop : buffer.drop diskBufferSize = [] := List.drop_of_length_le (le_of_eq hbuf)
  -- the side conditions by name: `omega` stalls on `2 ^ 64` next to `2 ^ 20`
  have hend' : self.baseOffset + offset + diskBufferSize < 2 ^ 64 := by
    rw [Nat.add_assoc]
    exact Nat.add_lt_of_lt_sub' hend
  have hlow' : diskBuffer + (diskBufferSize + 512) < 2 ^ 20 := by
    rw [hsize]
    exact hlow
  have haligned' : (self.baseOffset + offset) % 512 = 0 := by
    rw [Nat.add_mod, hbase, haligned]
  refine (DiskAccess.toDisk_readExactInto self drive (by decide) (le_of_eq hbuf.symm) (by decide)
    hend' hlow' haligned').trans ?_
  simp only [Disk.ofBytes]
  rw [if_neg (by decide), if_neg (Nat.not_lt.mpr (le_of_eq hbuf.symm)), hdrop, List.append_nil]

/-! ## One cluster -/

section Loading

variable {fs : FileSystem} {image : Nat → UInt8} {limit : Nat}

/-- From any offset into a cluster that starts on a sector and ends 16 KiB
below `limit`, on a disk that reads `image` there, with the buffer of
`DISK_BUFFER`'s size and room below `2^32` for what is left, the inner loop
returns and has copied the rest of the cluster, in order, from
`dst + total_offset` on. The induction is on what is left of the cluster,
which each round shrinks by the bytes it copies; every round but the last
reads from a sector boundary. -/
theorem loadCluster_eq_ok (hread : fs.disk.ReadsImage image limit) (hlimit : limit ≤ 2 ^ 64)
    {dst clusterStart clusterEnd : Nat} (hend : clusterEnd + diskBufferSize < limit) :
    ∀ offset totalOffset (buffer : List UInt8) (memory : Nat → UInt8),
      buffer.length = diskBufferSize → clusterStart + offset ≤ clusterEnd →
      ((clusterStart + offset) % 512 = 0 ∨ clusterEnd = clusterStart + offset) →
      dst + totalOffset + (clusterEnd - (clusterStart + offset)) < 2 ^ 32 →
      ∃ buffer', loadCluster fs dst clusterStart clusterEnd offset totalOffset buffer memory =
        .ok (totalOffset + (clusterEnd - (clusterStart + offset)), buffer',
          writeBytes memory (dst + totalOffset)
            (Disk.bytesAt image (clusterStart + offset) (clusterEnd - (clusterStart + offset)))) ∧
        buffer'.length = diskBufferSize := by
  have hsize : diskBufferSize = 0x4000 := rfl
  intro offset
  induction hn : clusterEnd - (clusterStart + offset) using Nat.strong_induction_on
    generalizing offset with
  | _ n ih =>
  intro totalOffset buffer memory hbuf hoff haligned hdst
  rw [loadCluster, if_neg (by omega)]
  dsimp only
  by_cases hdone : clusterEnd ≤ clusterStart + offset
  · -- nothing is left of the cluster
    obtain rfl : n = 0 := by omega
    rw [dif_pos hdone]
    exact ⟨buffer, by simp [Disk.bytesAt], hbuf⟩
  rw [dif_neg hdone, if_neg (by omega),
    hread (clusterStart + offset) buffer (by omega) (by omega) hbuf]
  dsimp only
  -- the round copies `len` bytes, at least one and at most the buffer
  generalize hlen : min (clusterStart + offset + diskBufferSize) clusterEnd -
    (clusterStart + offset) = len
  have hlen' : 0 < len ∧ len ≤ diskBufferSize ∧ len ≤ n := by omega
  rw [Disk.length_bytesAt, if_neg (by omega), Disk.take_bytesAt _ hlen'.2.1,
    copyToProtectedMode_eq_writeBytes _ _ _ (by simp; omega),
    Nat.mod_eq_of_lt (by omega), if_neg (by omega), if_neg (by omega)]
  -- a whole buffer keeps the next read on a sector; a shorter one ends the cluster
  obtain ⟨buffer', hrest, hbuf'⟩ := ih (n - len) (by omega) (offset + len) (by omega)
    (totalOffset + len) _ _ (Disk.length_bytesAt _ _ _) (by omega) (by omega) (by omega)
  refine ⟨buffer', ?_, hbuf'⟩
  -- the round's bytes and the rest of the cluster's are one write
  have hwrite := writeBytes_append memory (dst + totalOffset)
    (Disk.bytesAt image (clusterStart + offset) len)
    (Disk.bytesAt image (clusterStart + offset + len) (n - len))
  rw [Disk.length_bytesAt, ← Disk.bytesAt_add, Nat.add_sub_cancel' hlen'.2.2] at hwrite
  rw [hrest, show totalOffset + len + (n - len) = totalOffset + n by omega,
    ← Nat.add_assoc dst, ← Nat.add_assoc clusterStart, hwrite]

/-! ## The cluster walk and the directory lookup -/

/-- A walk that yields nothing more ended at its first step. -/
theorem Traverser.take_succ_eq_ok_nil {self : Traverser} {n : Nat}
    (h : Traverser.take fs (n + 1) self = .ok []) : ∃ self', self.next fs = .ok (none, self') := by
  rw [Traverser.take] at h
  obtain ⟨⟨item, self'⟩, hnext, h⟩ := Except.bind_eq_ok.mp h
  rcases item with _ | item
  · exact ⟨self', hnext⟩
  · obtain ⟨_, -, h⟩ := Except.bind_eq_ok.mp h
    cases h

/-- A walk that yields an item yielded it at its first step, and the rest
after it. -/
theorem Traverser.take_succ_eq_ok_cons {self : Traverser} {n : Nat} {item : Except Unit Cluster}
    {items : List (Except Unit Cluster)} (h : Traverser.take fs (n + 1) self = .ok (item :: items)) :
    ∃ self', self.next fs = .ok (some item, self') ∧ Traverser.take fs n self' = .ok items := by
  rw [Traverser.take] at h
  obtain ⟨⟨item', self'⟩, hnext, h⟩ := Except.bind_eq_ok.mp h
  rcases item' with _ | item'
  · cases h
  · obtain ⟨rest, hrest, h⟩ := Except.bind_eq_ok.mp h
    rw [Except.pure_eq_ok, List.cons.injEq] at h
    obtain ⟨rfl, rfl⟩ := h
    exact ⟨self', hnext, hrest⟩

/-- `read_root_dir` fills the buffer in place. -/
theorem FileSystem.length_readRootDir {buffer buffer' : List UInt8} {entries : List (List UInt8)}
    (h : fs.readRootDir buffer = .ok (entries, buffer')) : buffer'.length = buffer.length := by
  unfold FileSystem.readRootDir at h
  obtain ⟨fatType, -, h⟩ := Except.bind_eq_ok.mp h
  cases fatType with
  | fat32 => cases h
  | fat12 | fat16 =>
    obtain ⟨size, -, h⟩ := Except.bind_eq_ok.mp h
    obtain ⟨buffer₁, hread, h⟩ := Except.bind_eq_ok.mp h
    rw [Except.pure_eq_ok, Prod.mk.injEq] at h
    rw [← h.2]
    exact fs.disk.length_readExactInto hread

/-- The directory lookup leaves the buffer as long as it was. -/
theorem FileSystem.length_findFileInRootDir {name : List Char} {buffer buffer' : List UInt8}
    {file : Option File} (h : fs.findFileInRootDir name buffer = .ok (file, buffer')) :
    buffer'.length = buffer.length := by
  unfold FileSystem.findFileInRootDir at h
  obtain ⟨⟨entries, buffer₁⟩, hroot, h⟩ := Except.bind_eq_ok.mp h
  rw [← FileSystem.length_readRootDir hroot]
  obtain ⟨found, -, h⟩ := Except.bind_eq_ok.mp h
  rcases found with _ | ⟨rawEntry, rest⟩ <;> dsimp only at h
  · rw [Except.pure_eq_ok, Prod.mk.injEq] at h
    rw [← h.2]
  · obtain ⟨entry, -, h⟩ := Except.bind_eq_ok.mp h
    split_ifs at h <;> rw [Except.pure_eq_ok, Prod.mk.injEq] at h <;> rw [← h.2]

/-- A cluster the walk yields starts a whole number of clusters into the data
region. -/
theorem Traverser.next_startOffset {self self' : Traverser} {cluster : Cluster}
    (h : self.next fs = .ok (some (.ok cluster), self')) :
    ∃ dataOffset, fs.bpb.dataOffset = .ok dataOffset ∧
      ∃ k, cluster.startOffset = dataOffset + k * fs.bpb.bytesPerCluster := by
  unfold Traverser.next at h
  obtain ⟨⟨result, self''⟩, hnc, h⟩ := Except.bind_eq_ok.mp h
  unfold Traverser.nextCluster at hnc
  obtain ⟨fatType, -, hnc⟩ := Except.bind_eq_ok.mp hnc
  obtain ⟨maxValid, -, hnc⟩ := Except.bind_eq_ok.mp hnc
  -- only an allocated cluster yields one
  split at hnc
  · cases hnc
    cases h
  · cases hnc
    cases h
  · obtain ⟨dataOffset, hdata, hnc⟩ := Except.bind_eq_ok.mp hnc
    obtain ⟨fatType', -, hnc⟩ := Except.bind_eq_ok.mp hnc
    obtain ⟨nextEntry, -, hnc⟩ := Except.bind_eq_ok.mp hnc
    cases hnc
    cases h
    exact ⟨dataOffset, hdata, _, rfl⟩

/-- With whole 512-byte sectors and a root directory of whole sectors, the
data region starts on a sector of the partition. -/
theorem Bpb.dataOffset_mod {bpb : Bpb} {dataOffset : Nat} (h : bpb.dataOffset = .ok dataOffset)
    (hsector : bpb.bytesPerSector % 512 = 0) (hroot : bpb.rootEntryCount * 32 % 512 = 0) :
    dataOffset % 512 = 0 := by
  unfold Bpb.dataOffset Bpb.rootDirectorySize at h
  obtain ⟨size, hsize, h⟩ := Except.bind_eq_ok.mp h
  obtain ⟨_, -, hsize⟩ := Except.bind_eq_ok.mp hsize
  rw [Except.pure_eq_ok] at hsize h
  subst hsize h
  have hfats := Dvd.dvd.mul_left (Nat.dvd_of_mod_eq_zero hsector)
    (bpb.reservedSectorCount + bpb.fatSizeInSectors * bpb.numFats)
  exact Nat.mod_eq_zero_of_dvd (dvd_add (Nat.dvd_of_mod_eq_zero hroot) hfats)

/-- Every cluster a walk yields then starts on a sector. -/
theorem Traverser.startOffset_mod (hsector : fs.bpb.bytesPerSector % 512 = 0)
    (hroot : fs.bpb.rootEntryCount * 32 % 512 = 0) :
    ∀ (clusters : List Cluster) (n : Nat) (self : Traverser),
      Traverser.take fs n self = .ok (clusters.map .ok) → ∀ cluster ∈ clusters, cluster.startOffset % 512 = 0
  | [], _, _, _ => fun _ h => nomatch h
  | cluster :: clusters, 0, self, h => by simp [Traverser.take] at h
  | cluster :: clusters, n + 1, self, h => by
    obtain ⟨self', hnext, hrest⟩ := Traverser.take_succ_eq_ok_cons h
    intro c hc
    rcases List.mem_cons.mp hc with rfl | hc
    · obtain ⟨dataOffset, hdata, k, hstart⟩ := Traverser.next_startOffset hnext
      have hcluster := Dvd.dvd.mul_left (Dvd.dvd.mul_right (Nat.dvd_of_mod_eq_zero hsector)
        fs.bpb.sectorsPerCluster) k
      rw [hstart, Nat.add_mod, Bpb.dataOffset_mod hdata hsector hroot, Bpb.bytesPerCluster,
        Nat.mod_eq_zero_of_dvd hcluster]
    · exact Traverser.startOffset_mod hsector hroot clusters n self' hrest c hc

/-! ## A whole file -/

/-- The cluster loop over a walk that yields `clusters`, each on a sector and
ending 16 KiB below `limit`, and then ends, with more fuel than clusters: it
returns, and the clusters' bytes lie back to back from `dst + total_offset`
on. -/
theorem loadClusters_eq_ok (hread : fs.disk.ReadsImage image limit) (hlimit : limit ≤ 2 ^ 64)
    {dst : Nat} :
    ∀ (clusters : List Cluster) (fuel : Nat) (self : Traverser) (totalOffset : Nat)
      (buffer : List UInt8) (memory : Nat → UInt8),
      Traverser.take fs (clusters.length + 1) self = .ok (clusters.map .ok) →
      clusters.length < fuel → buffer.length = diskBufferSize →
      (∀ cluster ∈ clusters, cluster.startOffset % 512 = 0 ∧
        cluster.startOffset + cluster.lenBytes + diskBufferSize < limit) →
      dst + totalOffset + (clusters.map Cluster.lenBytes).sum < 2 ^ 32 →
      ∃ buffer', loadClusters fs dst fuel self totalOffset buffer memory =
        .ok (some (buffer',
          writeBytes memory (dst + totalOffset) (clusters.flatMap (clusterBytes image)))) ∧
        buffer'.length = diskBufferSize
  | [], fuel, self, totalOffset, buffer, memory, hwalk, hfuel, hbuf, _, _ => by
    obtain ⟨fuel, rfl⟩ : ∃ f, fuel = f + 1 := ⟨fuel - 1, by simp only [List.length_nil] at hfuel; omega⟩
    obtain ⟨self', hnext⟩ := Traverser.take_succ_eq_ok_nil hwalk
    refine ⟨buffer, ?_, hbuf⟩
    rw [loadClusters, hnext, Except.ok_bind, List.flatMap_nil, writeBytes_nil]
    rfl
  | cluster :: clusters, fuel, self, totalOffset, buffer, memory, hwalk, hfuel, hbuf, hfits, hdst => by
    simp only [List.length_cons, List.map_cons, List.sum_cons] at hwalk hfuel hdst
    obtain ⟨fuel, rfl⟩ : ∃ f, fuel = f + 1 := ⟨fuel - 1, by omega⟩
    obtain ⟨self', hnext, hrest⟩ := Traverser.take_succ_eq_ok_cons hwalk
    obtain ⟨haligned, hfit⟩ := hfits cluster List.mem_cons_self
    have hend : addU64 cluster.startOffset cluster.lenBytes =
        .ok (cluster.startOffset + cluster.lenBytes) := addU64_eq_ok.mpr ⟨by omega, rfl⟩
    -- the first cluster, then the rest of the walk from where it left the buffer
    obtain ⟨buffer₁, hload, hbuf₁⟩ := @loadCluster_eq_ok fs image limit hread hlimit dst
      cluster.startOffset (cluster.startOffset + cluster.lenBytes) (by omega) 0 totalOffset buffer memory
      hbuf (by omega) (.inl haligned) (by omega)
    rw [Nat.add_zero, Nat.add_sub_cancel_left] at hload
    obtain ⟨buffer', hloop, hbuf'⟩ := @loadClusters_eq_ok hread hlimit dst clusters fuel self'
      (totalOffset + cluster.lenBytes) buffer₁ (writeBytes memory (dst + totalOffset)
        (clusterBytes image cluster)) hrest (by omega) hbuf₁
      (fun c hc => hfits c (List.mem_cons_of_mem _ hc)) (by omega)
    refine ⟨buffer', ?_, hbuf'⟩
    have hwrite := writeBytes_append memory (dst + totalOffset) (clusterBytes image cluster)
      (clusters.flatMap (clusterBytes image))
    rw [clusterBytes, Disk.length_bytesAt, ← clusterBytes] at hwrite
    rw [loadClusters, hnext, Except.ok_bind]
    simp only [hend, Except.ok_bind, hload, List.flatMap_cons]
    rw [← clusterBytes, hloop, ← hwrite, Nat.add_assoc]

/-- `try_load_file` on stage 2's disk, on a partition that starts on a sector
and whose sectors and root directory are whole 512-byte sectors, with
`DISK_BUFFER` below 1 MiB: for a file that the root directory lookup finds
and whose cluster walk yields `clusters` and ends, with more fuel than
clusters, a buffer of `DISK_BUFFER`'s size, clusters that end 16 KiB below
`2^64` on the drive and room for all of them below `2^32`, it returns the
size of the directory entry, and memory holds the clusters' bytes back to
back from `dst` on, everything else as it was. -/
theorem tryLoadFile_loads {access : DiskAccess} {drive : Nat → UInt8} {diskBuffer tmpBuf : Nat}
    (hdisk : fs.disk = access.toDisk drive diskBuffer tmpBuf) (hbase : access.baseOffset % 512 = 0)
    (hsector : fs.bpb.bytesPerSector % 512 = 0) (hroot : fs.bpb.rootEntryCount * 32 % 512 = 0)
    (hlow : diskBuffer + 0x4200 < 2 ^ 20) {fileName : List Char} {dst fuel : Nat}
    {buffer : List UInt8} {memory : Nat → UInt8} {file : File} {clusters : List Cluster}
    (hfind : (fs.findFileInRootDir fileName buffer).map Prod.fst = .ok (some file))
    (hbuf : buffer.length = diskBufferSize)
    (hwalk : Traverser.take fs (clusters.length + 1) (FileSystem.fileClusters file) =
      .ok (clusters.map .ok))
    (hfuel : clusters.length < fuel)
    (hfits : ∀ cluster ∈ clusters,
      access.baseOffset + cluster.startOffset + cluster.lenBytes + diskBufferSize < 2 ^ 64)
    (hdst : dst + (clusters.map Cluster.lenBytes).sum < 2 ^ 32) :
    ∃ buffer', tryLoadFile fs fileName dst buffer memory fuel =
      .ok (some (some file.fileSize, buffer',
        writeBytes memory dst (clusters.flatMap (clusterBytes (access.partition drive))))) := by
  obtain ⟨⟨found, buffer₁⟩, hfound, rfl⟩ := Except.map_eq_ok.mp hfind
  have hbuf₁ := (FileSystem.length_findFileInRootDir hfound).trans hbuf
  have hread : fs.disk.ReadsImage (access.partition drive) (2 ^ 64 - access.baseOffset) :=
    hdisk ▸ access.toDisk_readsImage drive hbase hlow
  -- every cluster of the walk starts on a sector, so each read does
  have haligned := Traverser.startOffset_mod hsector hroot clusters _ _ hwalk
  obtain ⟨buffer', hloop, -⟩ := loadClusters_eq_ok hread (Nat.sub_le _ _) clusters fuel _ 0 buffer₁
    memory hwalk hfuel hbuf₁ (fun c hc => ⟨haligned c hc, by have := hfits c hc; omega⟩) (by omega)
  refine ⟨buffer', ?_⟩
  rw [tryLoadFile, hfound, Except.ok_bind]
  simp only [hloop, Except.ok_bind, Nat.add_zero]
  rfl

end Loading

/-- The small volume of `Bios.FatDirectory` with one file, `STAGE__3BIN`, of
1000 bytes on clusters 2 and 3; the data region holds `a % 251` at `a`. -/
def stage3Volume (a : Nat) : UInt8 :=
  if a < 1536 then
    smallVolume (FatType.fat12.tableByte [0xFF8, 0xFFF, 3, 0xFFF]) [shortEntryBytes stage3Name 0x20 2 1000] a
  else UInt8.ofNat (a % 251)

/-- Loading `STAGE__3BIN` to 1 MiB from a partition at the start of the
drive, with `DISK_BUFFER` at `0x2_0000` and `TMP_BUF` at `0x1_0000`, writes
both its clusters, 1024 bytes, though the file has 1000. -/
theorem tryLoadFile_loads_stage3 :
    let access : DiskAccess := ⟨0x80, 0, 0⟩
    let fs : FileSystem := ⟨access.toDisk stage3Volume 0x20000 0x10000, smallBpb⟩
    FileSystem.parse fs.disk = .ok fs ∧
      ∃ buffer', tryLoadFile fs ['S', 'T', 'A', 'G', 'E', '_', '_', '3', 'B', 'I', 'N'] 0x100000
        (List.replicate 0x4000 0) (fun _ => 0) 3 =
        .ok (some (some 1000, buffer', writeBytes (fun _ => 0) 0x100000
          ([⟨2, 1536, 512⟩, ⟨3, 2048, 512⟩].flatMap (clusterBytes (access.partition stage3Volume))))) := by
  intro access fs
  have hbpb : Bpb.parse fs.disk = .ok smallBpb := by decide +kernel
  have hfind : (fs.findFileInRootDir ['S', 'T', 'A', 'G', 'E', '_', '_', '3', 'B', 'I', 'N']
      (List.replicate 0x4000 0)).map Prod.fst = .ok (some ⟨2, 1000⟩) := by decide +kernel
  have hwalk : Traverser.take fs 3 (FileSystem.fileClusters ⟨2, 1000⟩) =
      .ok [.ok ⟨2, 1536, 512⟩, .ok ⟨3, 2048, 512⟩] := by decide +kernel
  exact ⟨by rw [FileSystem.parse, hbpb]; rfl,
    tryLoadFile_loads rfl (by decide) (by decide) (by decide) (by decide) hfind (List.length_replicate ..)
      hwalk (by decide) (by decide) (by decide)⟩

end Bios

end Bootloader
