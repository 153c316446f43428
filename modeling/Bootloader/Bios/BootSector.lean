/-
Bootloader.Bios.BootSector — the first stage, in the boot sector
(`bios/boot_sector/src/main.rs`, `bios/boot_sector/src/mbr.rs`).

`first_stage` reads entry 0 of the partition table that follows it in the
boot sector and loads that partition, the second stage, to the address the
linker gives `_second_stage_start`, 32 sectors per BIOS extended read.

* `getPartition_eq`: `get_partition` parses a 16-byte entry (the boot flag
  `0x80`, the type byte at offset 4, the little-endian start sector and
  sector count at offsets 8 and 12); on a table too short for the entry it
  fails with the code of the first field it cannot read (`c` to `g`), and
  only then.
* `firstStage_loads`: for every partition table and every entry point from
  which the partition of entry 0 fits below 1 MiB, the packets `first_stage`
  hands the BIOS copy exactly that partition's sectors to the entry point.
* `firstStage_eq_error_iff`: `first_stage` fails with `a` exactly when its
  last read would start at or above 1 MiB. The check is on where a read
  starts, not where it ends, so a partition may run up to 16 KiB past 1 MiB
  and pass it.

The load loop is stage 2's (`loadSectors`) with two differences: the boot
sector is built without overflow checks, so its sums wrap, and a segment that
does not fit 16 bits ends in `fail(b'a')` rather than a panic.
`loadLoop_eq_mapError`: the wrapping never shows, since a target fails before
it could wrap and a `u32` start sector plus a `u32` count stays below
`2 ^ 64`. `fail` prints its code and halts; the model returns the code. A
failing BIOS read (`fail(b'z')`), the disk number and the jump to the second
stage are left out.
-/
import Bootloader.Bios.Disk
import Bootloader.Lib.LittleEndian

namespace Bootloader

namespace Bios

open LittleEndian DiskAddressPacket

/-- `ENTRY_SIZE`. -/
def entrySize : Nat := 16

/-- `PartitionTableEntry`. -/
structure PartitionTableEntry where
  bootable : Bool
  partitionType : UInt8
  logicalBlockAddress : Nat
  sectorCount : Nat
  deriving DecidableEq, Repr

/-- `buffer.get(start..).and_then(|s| s.get(..4)).and_then(|s| s.try_into().ok())`
read by `u32::from_le_bytes`, or the failure code. -/
def leU32At (buffer : List UInt8) (start : Nat) (code : Char) : Except Char Nat :=
  if start + 4 ≤ buffer.length then .ok (ofLeBytes ((buffer.drop start).take 4)) else .error code

/-- `get_partition`: the `index`-th entry of the table, failing with `c` when
the table ends before the entry, and with `d`, `e`, `f` or `g` when it ends
before the boot flag, the type, the start sector or the sector count. The
boot sector wraps `usize` arithmetic. -/
def getPartition (partitionsRaw : List UInt8) (index : Nat) : Except Char PartitionTableEntry := do
  let offset := index * entrySize % 2 ^ 32
  if partitionsRaw.length < offset then throw 'c'
  let buffer := partitionsRaw.drop offset
  let bootableRaw ← match buffer.head? with
    | some b => pure b
    | none => throw 'd'
  let bootable := bootableRaw == 0x80
  let partitionType ← match buffer[4]? with
    | some b => pure b
    | none => throw 'e'
  let lba ← leU32At buffer 8 'f'
  let len ← leU32At buffer 12 'g'
  pure ⟨bootable, partitionType, lba, len⟩

/-- The load loop of `first_stage`: a packet of at most 32 sectors at a time,
aimed at the next part of memory, until no sector is left; `fuel` bounds the
rounds. The sums wrap; a segment `(target_addr >> 4)` that does not fit a
`u16` fails with `a`. -/
def loadLoop (startLba numberOfSectors targetAddr : Nat) : Nat → Except Char (List DiskAddressPacket)
  | 0 => .ok []
  | fuel + 1 => do
    let sectors := min numberOfSectors 32
    if 2 ^ 16 ≤ targetAddr / 16 then throw 'a'
    let dap := DiskAddressPacket.fromLba startLba sectors (targetAddr % 16) (targetAddr / 16)
    if numberOfSectors - sectors = 0 then pure [dap]
    else do
      let rest ← loadLoop ((startLba + sectors) % 2 ^ 64) (numberOfSectors - sectors)
        ((targetAddr + sectors * 512) % 2 ^ 32) fuel
      pure (dap :: rest)

/-- `second_stage_start()`: `_second_stage_start`, which the linker script
places right after the boot sector's magic number. -/
def secondStageStart : Nat := 0x7c00 + 510 + 2

/-- `first_stage` up to the jump: entry 0 of the partition table, and the
packets that load it to `entry_point_address`. The loop takes at most one
round per sector, and one for an empty partition. -/
def firstStage (partitionTable : List UInt8) (entryPointAddress : Nat) :
    Except Char (List DiskAddressPacket) := do
  let secondStagePartition ← getPartition partitionTable 0
  loadLoop secondStagePartition.logicalBlockAddress secondStagePartition.sectorCount entryPointAddress
    (secondStagePartition.sectorCount + 1)

/-! ## `get_partition` -/

section GetPartition

variable {buffer : List UInt8} {start : Nat} {code : Char}

theorem leU32At_of_le (h : start + 4 ≤ buffer.length) :
    leU32At buffer start code = .ok (ofLeBytes ((buffer.drop start).take 4)) := by
  rw [leU32At, if_pos h]

theorem leU32At_of_lt (h : buffer.length < start + 4) : leU32At buffer start code = .error code := by
  rw [leU32At, if_neg (by omega)]

/-- `get_partition` on every table and index: the entry at the (wrapped)
offset when the table holds all its 16 bytes, and otherwise the code of the
first field it cannot read. -/
theorem getPartition_eq (partitionsRaw : List UInt8) (index : Nat) :
    getPartition partitionsRaw index =
      let offset := index * entrySize % 2 ^ 32
      if partitionsRaw.length < offset then .error 'c'
      else if partitionsRaw.length = offset then .error 'd'
      else if partitionsRaw.length ≤ offset + 4 then .error 'e'
      else if partitionsRaw.length < offset + 12 then .error 'f'
      else if partitionsRaw.length < offset + 16 then .error 'g'
      else .ok ⟨partitionsRaw[offset]?.getD 0 == 0x80, partitionsRaw[offset + 4]?.getD 0,
        ofLeBytes ((partitionsRaw.drop (offset + 8)).take 4),
        ofLeBytes ((partitionsRaw.drop (offset + 12)).take 4)⟩ := by
  unfold getPartition
  -- inline the join points of the do block
  dsimp only
  generalize index * entrySize % 2 ^ 32 = offset
  -- the fields are read from the rest of the table after the offset
  have hlen : (partitionsRaw.drop offset).length = partitionsRaw.length - offset := List.length_drop
  have hhead : (partitionsRaw.drop offset).head? = partitionsRaw[offset]? := List.head?_drop
  have htype : (partitionsRaw.drop offset)[4]? = partitionsRaw[offset + 4]? := by
    rw [List.getElem?_drop, Nat.add_comm]
  rw [hhead, htype]
  split_ifs with hc hd he hf hg
  · rfl
  · rw [List.getElem?_eq_none (by omega)]
    rfl
  · rw [List.getElem?_eq_getElem (by omega), List.getElem?_eq_none (by omega)]
    rfl
  · rw [List.getElem?_eq_getElem (by omega), List.getElem?_eq_getElem (by omega),
      leU32At_of_lt (by omega)]
    rfl
  · rw [List.getElem?_eq_getElem (by omega), List.getElem?_eq_getElem (by omega),
      leU32At_of_le (by omega), leU32At_of_lt (by omega)]
    rfl
  · rw [List.getElem?_eq_getElem (by omega), List.getElem?_eq_getElem (by omega),
      leU32At_of_le (by omega), leU32At_of_le (by omega), List.drop_drop, List.drop_drop]
    rfl

end GetPartition

/-! ## The load loop -/

section LoadLoop

variable {startLba numberOfSectors targetAddr : Nat}

/-- A round whose target lies at or above 1 MiB fails: its segment does not
fit 16 bits. -/
theorem loadLoop_of_le (fuel : Nat) (htarget : 2 ^ 20 ≤ targetAddr) :
    loadLoop startLba numberOfSectors targetAddr (fuel + 1) = .error 'a' := by
  rw [loadLoop, if_pos (by omega)]
  rfl

/-- A round whose target lies below 1 MiB: one packet of at most 32 sectors,
then the rest from the next target on, which does not wrap. -/
theorem loadLoop_succ (fuel : Nat) (htarget : targetAddr < 2 ^ 20) :
    let sectors := min numberOfSectors 32
    let dap := fromLba startLba sectors (targetAddr % 16) (targetAddr / 16)
    loadLoop startLba numberOfSectors targetAddr (fuel + 1) =
      if numberOfSectors - sectors = 0 then .ok [dap]
      else (dap :: ·) <$> loadLoop ((startLba + sectors) % 2 ^ 64) (numberOfSectors - sectors)
        (targetAddr + sectors * 512) fuel := by
  intro sectors dap
  have hseg : ¬2 ^ 16 ≤ targetAddr / 16 := by omega
  have hwrap : (targetAddr + sectors * 512) % 2 ^ 32 = targetAddr + sectors * 512 :=
    Nat.mod_eq_of_lt (by omega)
  rw [loadLoop]
  dsimp only
  rw [if_neg hseg, hwrap]
  split_ifs
  · rfl
  · cases loadLoop ((startLba + sectors) % 2 ^ 64) (numberOfSectors - sectors) (targetAddr + sectors * 512)
      fuel <;> rfl

/-- Where the start sectors stay below `2 ^ 64`, the boot sector's loop hands
the BIOS the same packets as stage 2's and fails where stage 2's does: the
targets cannot wrap, since a target at or above 1 MiB fails first. -/
theorem loadLoop_eq_mapError : ∀ (fuel startLba numberOfSectors targetAddr : Nat),
    startLba + numberOfSectors ≤ 2 ^ 64 →
    loadLoop startLba numberOfSectors targetAddr fuel =
      (loadSectors startLba numberOfSectors targetAddr fuel).mapError fun _ => 'a'
  | 0, _, _, _, _ => rfl
  | fuel + 1, startLba, numberOfSectors, targetAddr, hlba => by
    by_cases htarget : 2 ^ 20 ≤ targetAddr
    · -- both loops fail on the segment
      rw [loadLoop_of_le fuel htarget, loadSectors, if_pos (by omega)]
      rfl
    have hseg : ¬2 ^ 16 ≤ targetAddr / 16 := by omega
    rw [loadLoop_succ fuel (by omega)]
    by_cases hlast : numberOfSectors - min numberOfSectors 32 = 0
    · simp only [loadSectors, hseg, hlast, if_false, if_true]
      rfl
    · -- the next start sector does not wrap either
      have hwrap : (startLba + min numberOfSectors 32) % 2 ^ 64 = startLba + min numberOfSectors 32 :=
        Nat.mod_eq_of_lt (by omega)
      rw [if_neg hlast, hwrap, loadLoop_eq_mapError fuel _ _ _ (by omega)]
      simp only [loadSectors, hseg, hlast, if_false]
      cases loadSectors (startLba + min numberOfSectors 32) (numberOfSectors - min numberOfSectors 32)
        (targetAddr + min numberOfSectors 32 * 512) fuel <;> rfl

/-- With enough rounds, the loop fails exactly when its last round would
start at or above 1 MiB. The check is on where a packet starts, not where it
ends: the last packet may run up to 16 KiB past 1 MiB. -/
theorem loadLoop_eq_error_iff : ∀ (fuel startLba numberOfSectors targetAddr : Nat), 0 < fuel →
    numberOfSectors ≤ 32 * fuel →
    (loadLoop startLba numberOfSectors targetAddr fuel = .error 'a' ↔
      2 ^ 20 ≤ targetAddr + 16384 * ((numberOfSectors - 1) / 32))
  | 0, _, _, _, hfuel, _ => absurd hfuel (Nat.lt_irrefl 0)
  | fuel + 1, startLba, numberOfSectors, targetAddr, _, hn => by
    by_cases htarget : 2 ^ 20 ≤ targetAddr
    · rw [loadLoop_of_le fuel htarget]
      exact iff_of_true rfl (by omega)
    rw [loadLoop_succ fuel (by omega)]
    by_cases hlast : numberOfSectors - min numberOfSectors 32 = 0
    · -- the last round, below 1 MiB, succeeds
      rw [if_pos hlast]
      exact iff_of_false (fun h => by cases h) (by omega)
    · -- a full round, then the rest from 16 KiB further on
      rw [if_neg hlast, Except.map_eq_error, loadLoop_eq_error_iff fuel _ _ _ (by omega) (by omega)]
      omega

end LoadLoop

/-! ## `first_stage` -/

/-- Four little-endian bytes read a `u32`. -/
theorem ofLeBytes_take_four_lt (bytes : List UInt8) : ofLeBytes (bytes.take 4) < 2 ^ 32 :=
  calc ofLeBytes (bytes.take 4) < 256 ^ (bytes.take 4).length := ofLeBytes_lt _
    _ ≤ 256 ^ 4 := Nat.pow_le_pow_right (by norm_num) (by rw [List.length_take]; exact min_le_left _ _)
    _ = 2 ^ 32 := by norm_num

section FirstStage

variable (partitionTable : List UInt8) (entryPointAddress : Nat)

/-- On a table that holds entry 0, `first_stage` runs the load loop on the
entry's start sector and sector count. -/
theorem firstStage_eq (h : entrySize ≤ partitionTable.length) :
    firstStage partitionTable entryPointAddress =
      loadLoop (ofLeBytes ((partitionTable.drop 8).take 4)) (ofLeBytes ((partitionTable.drop 12).take 4))
        entryPointAddress (ofLeBytes ((partitionTable.drop 12).take 4) + 1) := by
  have hentry := getPartition_eq partitionTable 0
  unfold entrySize at h hentry
  -- entry 0 sits at offset 0
  simp only [Nat.zero_mul, Nat.zero_mod, Nat.zero_add] at hentry
  rw [if_neg (show ¬partitionTable.length < 0 by omega), if_neg (show ¬partitionTable.length = 0 by omega),
    if_neg (show ¬partitionTable.length ≤ 4 by omega), if_neg (show ¬partitionTable.length < 12 by omega),
    if_neg (show ¬partitionTable.length < 16 by omega)] at hentry
  rw [firstStage, hentry]
  rfl

/-- `first_stage` loads the second stage: when the partition in entry 0 fits
between the entry point and 1 MiB, the packets it hands the BIOS copy exactly
the partition's sectors there, one after the other, and nothing else. -/
theorem firstStage_loads (drive : Nat → UInt8) (h : entrySize ≤ partitionTable.length) :
    let startLba := ofLeBytes ((partitionTable.drop 8).take 4)
    let sectorCount := ofLeBytes ((partitionTable.drop 12).take 4)
    entryPointAddress + sectorCount * 512 < 2 ^ 20 →
    ∃ daps, firstStage partitionTable entryPointAddress = .ok daps ∧
      ∀ memory a, performLoads daps drive memory a =
        if entryPointAddress ≤ a ∧ a < entryPointAddress + sectorCount * 512 then
          drive (startLba * 512 + (a - entryPointAddress)) else memory a := by
  intro startLba sectorCount hfit
  -- both fields are `u32`s, so the start sectors never wrap
  have hlba : startLba + sectorCount ≤ 2 ^ 64 := by
    have := ofLeBytes_take_four_lt (partitionTable.drop 8)
    have := ofLeBytes_take_four_lt (partitionTable.drop 12)
    omega
  obtain ⟨daps, hdaps, -, hload⟩ :=
    loadSectors_eq_ok drive (sectorCount + 1) startLba sectorCount entryPointAddress (by omega) (by omega) hfit
  refine ⟨daps, ?_, hload⟩
  rw [firstStage_eq _ _ h, loadLoop_eq_mapError _ _ _ _ hlba, hdaps]
  rfl

/-- The second stage's partition of 64 sectors from sector 1 on, in a
partition table with three empty entries. -/
def smallPartitionTable : List UInt8 :=
  [0x80, 0, 0, 0, 0x20, 0, 0, 0, 1, 0, 0, 0, 0x40, 0, 0, 0] ++ List.replicate 48 0

/-- A drive whose every byte is its sector number. -/
def sectorDrive (a : Nat) : UInt8 := UInt8.ofNat (a / 512)

theorem firstStage_loads_small_second_stage :
    ∃ daps, firstStage smallPartitionTable secondStageStart = .ok daps ∧
      ∀ memory a, performLoads daps sectorDrive memory a =
        if secondStageStart ≤ a ∧ a < secondStageStart + 64 * 512 then
          sectorDrive (1 * 512 + (a - secondStageStart)) else memory a :=
  firstStage_loads smallPartitionTable secondStageStart sectorDrive (by decide) (by decide)

/-- `first_stage` fails, with `a`, exactly when the last read of the
partition would start at or above 1 MiB. The check is on where each read
starts, so a partition may run up to 16 KiB past 1 MiB and still pass it. -/
theorem firstStage_eq_error_iff (h : entrySize ≤ partitionTable.length) :
    let sectorCount := ofLeBytes ((partitionTable.drop 12).take 4)
    firstStage partitionTable entryPointAddress = .error 'a' ↔
      2 ^ 20 ≤ entryPointAddress + 16384 * ((sectorCount - 1) / 32) := by
  intro sectorCount
  rw [firstStage_eq _ _ h]
  exact loadLoop_eq_error_iff _ _ _ _ (Nat.succ_pos _) (by omega)

/-- Entry 0 of a table whose partition is 2000 sectors long. -/
def longPartitionTable : List UInt8 :=
  [0x80, 0, 0, 0, 0x20, 0, 0, 0, 1, 0, 0, 0, 0xd0, 0x07, 0, 0] ++ List.replicate 48 0

/-- From `_second_stage_start`, a partition of 2000 sectors passes the check
although its last 15 sectors lie past 1 MiB. -/
theorem firstStage_eq_error_iff_long_second_stage :
    (firstStage longPartitionTable secondStageStart = .error 'a' ↔
      2 ^ 20 ≤ secondStageStart + 16384 * ((2000 - 1) / 32)) ∧
      2 ^ 20 < secondStageStart + 2000 * 512 :=
  ⟨firstStage_eq_error_iff longPartitionTable secondStageStart (by decide), by decide⟩

end FirstStage

end Bios

end Bootloader
