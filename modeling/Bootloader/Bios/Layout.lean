/-
Bootloader.Bios.Layout — where stage 2 puts the files it loads, and the
frames stage 4 hands out (`bios/stage-2/src/main.rs`: `start`;
`bios/stage-4/src/main.rs`: `_start`).

Stage 2 loads stage 3 at 1 MiB, stage 4 at `0x130000`, the kernel at 16 MiB,
the ramdisk from the first page boundary after the kernel and the config
file right after the ramdisk. It hands stage 4 the regions in `BiosInfo`
and `last_used_addr`, the address before the end of the config file. Stage 4
starts its frame allocator at the frame after the one holding
`last_used_addr`.

* `placeFiles_eq_ok`: the kernel, its padding to whole pages, the ramdisk
  and the config file follow each other from 16 MiB on and end at
  `last_used_addr + 1`, as long as the kernel and the ramdisk fit below
  4 GiB.
* `stage4_frames_avoid_loaded_files`: so no frame stage 4's frame allocator
  hands out, along any run of `allocate_frame`, holds a byte of the kernel,
  the ramdisk or the config file.

Stage 2's `usize` is 32 bits wide: `wrapping_add` on a pointer is taken mod
`2 ^ 32`, `as usize` truncates, and `usize` and `u64` arithmetic panics on
overflow (the stage is built with overflow checks). Loading the files is
`tryLoadFile` and the E820 query `queryMemoryMap`; here only the lengths
they return count. The other fields of `BiosInfo` (the memory map's address,
the frame buffer) are left out.
-/
import Bootloader.Bios.MemoryDescriptor
import Bootloader.Common.FrameAllocator
import Bootloader.Common.SetUpMappings

namespace Bootloader

namespace Bios

/-- `STAGE_3_DST`: 1 MiB. -/
def stage3Dst : Nat := 0x0010_0000

/-- `STAGE_4_DST`, the start address in `stage-4-link.ld`. -/
def stage4Dst : Nat := 0x0013_0000

/-- `KERNEL_DST`: 16 MiB. -/
def kernelDst : Nat := 0x0100_0000

/-- A `Region` of `BiosInfo`. -/
structure Region where
  start : Nat
  len : Nat
  deriving DecidableEq, Repr

/-- The fields of `BiosInfo` that say where stage 2 put the files. -/
structure BiosInfo where
  stage4 : Region
  kernel : Region
  ramdisk : Region
  configFile : Region
  lastUsedAddr : Nat
  deriving DecidableEq, Repr

/-- `usize::try_from(x).unwrap()` and `x.try_into().unwrap()` into stage 2's
32-bit `usize`. -/
def usizeTryFrom (x : Nat) : Except Panic Nat :=
  if x < 2 ^ 32 then .ok x else .error .tryFromIntError

/-- `usize` multiplication, which panics on overflow. -/
def mulUsize (a b : Nat) : Except Panic Nat :=
  if a * b < 2 ^ 32 then .ok (a * b) else .error .mulOverflow

/-- Where `start` puts the files, from the lengths `load_file` and
`try_load_file` return for them (`None` for a ramdisk or config file that is
not there, read as length 0). -/
def placeFiles (stage3Len stage4Len kernelLen : Nat) (ramdiskLen configFileLen : Option Nat) :
    Except Panic BiosInfo := do
  let stage3End := (stage3Dst + (← usizeTryFrom stage3Len)) % 2 ^ 32
  if ¬stage4Dst > stage3End then throw .assertFailed
  -- `(((kernel_len - 1) / 4096) + 1) as usize`
  let kernelPageSize := ((← Common.subU64 kernelLen 1) / 4096 + 1) % 2 ^ 32
  let ramdiskStart := (kernelDst + (← mulUsize kernelPageSize 4096)) % 2 ^ 32
  let ramdiskLen := ramdiskLen.getD 0
  let configFileStart := (ramdiskStart + (← usizeTryFrom ramdiskLen)) % 2 ^ 32
  let configFileLen := configFileLen.getD 0
  let lastUsedAddr ← Common.subU64 (← addU64 configFileStart configFileLen) 1
  pure ⟨⟨stage4Dst, stage4Len⟩, ⟨kernelDst, kernelLen⟩, ⟨ramdiskStart, ramdiskLen⟩,
    ⟨configFileStart, configFileLen⟩, lastUsedAddr⟩

/-- Stage 4's `next_free_frame`: the frame after the one holding
`last_used_addr`. -/
def nextFreeFrame (lastUsedAddr : Nat) : Except Panic PhysFrame := do
  (PhysFrame.containingAddress (← PhysAddr.new lastUsedAddr)).add 1

theorem usizeTryFrom_eq_ok {x y : Nat} : usizeTryFrom x = .ok y ↔ x < 2 ^ 32 ∧ y = x := by
  rw [usizeTryFrom, Except.ite_ok_eq_ok, @eq_comm _ x]

theorem mulUsize_eq_ok {a b c : Nat} : mulUsize a b = .ok c ↔ a * b < 2 ^ 32 ∧ c = a * b := by
  rw [mulUsize, Except.ite_ok_eq_ok, @eq_comm _ (a * b)]

theorem nextFreeFrame_eq_ok {lastUsedAddr : Nat} {frame : PhysFrame}
    (h : nextFreeFrame lastUsedAddr = .ok frame) : frame.number = lastUsedAddr / 4096 + 1 := by
  obtain ⟨addr, haddr, hframe⟩ := Except.bind_eq_ok.mp h
  rw [PhysFrame.add_one_eq_ok, PhysFrame.containingAddress_number] at hframe
  rw [hframe, PhysAddr.new_eq_ok.mp haddr]

section Place

variable {stage3Len stage4Len kernelLen : Nat} {ramdiskLen configFileLen : Option Nat} {info : BiosInfo}

/-- The layout `start` hands stage 4, when the kernel and the ramdisk fit
below 4 GiB: the kernel at 16 MiB, padded to whole pages, then the ramdisk,
then the config file, which ends at `last_used_addr + 1`. -/
theorem placeFiles_eq_ok (h : placeFiles stage3Len stage4Len kernelLen ramdiskLen configFileLen = .ok info)
    (hfit : kernelDst + kernelLen + 4096 + ramdiskLen.getD 0 ≤ 2 ^ 32) :
    0 < kernelLen ∧ info.kernel = ⟨kernelDst, kernelLen⟩ ∧
      info.ramdisk = ⟨kernelDst + ((kernelLen - 1) / 4096 + 1) * 4096, ramdiskLen.getD 0⟩ ∧
      info.configFile = ⟨info.ramdisk.start + info.ramdisk.len, configFileLen.getD 0⟩ ∧
      info.lastUsedAddr + 1 = info.configFile.start + info.configFile.len := by
  unfold kernelDst at hfit
  obtain ⟨len3, -, h⟩ := Except.bind_eq_ok.mp h
  dsimp only at h
  -- past the assertion that stage 3 ends before stage 4
  split at h
  · rw [Except.throw_eq_error, Except.error_bind] at h
    cases h
  obtain ⟨kernelLast, hsub, h⟩ := Except.bind_eq_ok.mp h
  obtain ⟨hpos, rfl⟩ := Common.subU64_eq_ok.mp hsub
  obtain ⟨bytes, hmul, h⟩ := Except.bind_eq_ok.mp h
  obtain ⟨-, rfl⟩ := mulUsize_eq_ok.mp hmul
  obtain ⟨len, hlen, h⟩ := Except.bind_eq_ok.mp h
  obtain ⟨-, rfl⟩ := usizeTryFrom_eq_ok.mp hlen
  obtain ⟨sum, hadd, h⟩ := Except.bind_eq_ok.mp h
  obtain ⟨-, rfl⟩ := addU64_eq_ok.mp hadd
  obtain ⟨last, hlast, h⟩ := Except.bind_eq_ok.mp h
  obtain ⟨hlast0, rfl⟩ := Common.subU64_eq_ok.mp hlast
  rw [Except.pure_eq_ok] at h
  subst h
  -- within 4 GiB none of the wrapping additions wraps
  have hpages : ((kernelLen - 1) / 4096 + 1) % 2 ^ 32 = (kernelLen - 1) / 4096 + 1 := by omega
  refine ⟨by omega, rfl, ?_, ?_, ?_⟩
  · simp only [hpages, Region.mk.injEq, and_true]
    unfold kernelDst
    omega
  · simp only [hpages, Region.mk.injEq, and_true]
    unfold kernelDst
    omega
  · simp only
    omega

end Place

/-- No frame stage 4's frame allocator hands out, along any run of
`allocate_frame` calls, holds a byte of the kernel, the ramdisk or the config
file stage 2 loaded: each such frame starts past the end of all three. -/
theorem stage4_frames_avoid_loaded_files {stage3Len stage4Len kernelLen : Nat}
    {ramdiskLen configFileLen : Option Nat} {info : BiosInfo} {frame : PhysFrame}
    {memoryMap : List MemoryRegion} {n : Nat} {frames : List (Option PhysFrame)}
    {allocator : LegacyFrameAllocator MemoryRegion}
    (h : placeFiles stage3Len stage4Len kernelLen ramdiskLen configFileLen = .ok info)
    (hfit : kernelDst + kernelLen + 4096 + ramdiskLen.getD 0 ≤ 2 ^ 32)
    (hnext : nextFreeFrame info.lastUsedAddr = .ok frame)
    (hrun : LegacyFrameAllocator.allocateFrames n (LegacyFrameAllocator.newStartingAt frame memoryMap) =
      .ok (frames, allocator)) :
    ∀ f ∈ frames.filterMap id, ∀ r ∈ [info.kernel, info.ramdisk, info.configFile],
      r.start + r.len ≤ f.startAddress.val := by
  obtain ⟨hpos, hkernel, hramdisk, hconfig, hlast⟩ := placeFiles_eq_ok h hfit
  have hframe := nextFreeFrame_eq_ok hnext
  intro f hf r hr
  -- every frame of the run lies at or past the allocator's first frame
  have hstart : frame ≤ f := by
    obtain ⟨-, -, -, -, hmem⟩ := LegacyFrameAllocator.allocateFrames_eq_ok hrun
    exact le_trans (le_max_left _ _) (hmem f hf).1
  -- every file ends at or before `last_used_addr + 1`
  have hend : r.start + r.len ≤ info.lastUsedAddr + 1 := by
    rw [List.mem_cons, List.mem_cons, List.mem_singleton] at hr
    rcases hr with rfl | rfl | rfl
    · rw [hlast, hconfig, hramdisk, hkernel]
      dsimp only
      omega
    · rw [hlast, hconfig]
      dsimp only
      omega
    · rw [hlast]
  rw [PhysFrame.le_iff, hframe] at hstart
  rw [PhysFrame.startAddress_val]
  omega

/-- The BIOS memory map of a machine with 640 KiB of conventional memory and
127 MiB above 1 MiB, as stage 4 wraps it. -/
def smallBiosRegions : List MemoryRegion :=
  [⟨⟨0x500, 0x9_f700, 1⟩, by decide⟩, ⟨⟨0x10_0000, 0x7ee_0000, 1⟩, by decide⟩]

/-- A 140 KiB kernel, a page of ramdisk and a 128-byte config file: the
kernel ends in its 36th page, the ramdisk starts at the 37th, and stage 4's
first two frames come right after the config file. -/
theorem stage4_frames_avoid_loaded_files_on_small_boot :
    placeFiles 0x6000 0x1_2000 0x2_3456 (some 0x1000) (some 0x80) =
        .ok ⟨⟨0x13_0000, 0x1_2000⟩, ⟨0x100_0000, 0x2_3456⟩, ⟨0x102_4000, 0x1000⟩, ⟨0x102_5000, 0x80⟩,
          0x102_507f⟩ ∧
      nextFreeFrame 0x102_507f = .ok ⟨0x1026, by decide⟩ ∧
      LegacyFrameAllocator.allocateFrames 2
          (LegacyFrameAllocator.newStartingAt ⟨0x1026, by decide⟩ smallBiosRegions) =
        .ok ([some ⟨0x1026, by decide⟩, some ⟨0x1027, by decide⟩],
          { original := smallBiosRegions, memoryMap := [],
            currentDescriptor := some ⟨⟨0x10_0000, 0x7ee_0000, 1⟩, by decide⟩,
            nextFrame := ⟨0x1028, by decide⟩, minFrame := ⟨0x1026, by decide⟩ }) ∧
      ∀ f ∈ ([some ⟨0x1026, by decide⟩, some ⟨0x1027, by decide⟩] : List (Option PhysFrame)).filterMap id,
        ∀ r ∈ ([⟨0x100_0000, 0x2_3456⟩, ⟨0x102_4000, 0x1000⟩, ⟨0x102_5000, 0x80⟩] : List Region),
          r.start + r.len ≤ f.startAddress.val := by
  have hplace : placeFiles 0x6000 0x1_2000 0x2_3456 (some 0x1000) (some 0x80) =
      .ok ⟨⟨0x13_0000, 0x1_2000⟩, ⟨0x100_0000, 0x2_3456⟩, ⟨0x102_4000, 0x1000⟩, ⟨0x102_5000, 0x80⟩,
        0x102_507f⟩ := by decide +kernel
  have hnext : nextFreeFrame 0x102_507f = .ok ⟨0x1026, by decide⟩ := by decide +kernel
  have hrun : LegacyFrameAllocator.allocateFrames 2
        (LegacyFrameAllocator.newStartingAt ⟨0x1026, by decide⟩ smallBiosRegions) =
      .ok ([some ⟨0x1026, by decide⟩, some ⟨0x1027, by decide⟩],
        { original := smallBiosRegions, memoryMap := [],
          currentDescriptor := some ⟨⟨0x10_0000, 0x7ee_0000, 1⟩, by decide⟩,
          nextFrame := ⟨0x1028, by decide⟩, minFrame := ⟨0x1026, by decide⟩ }) := by decide +kernel
  exact ⟨hplace, hnext, hrun, stage4_frames_avoid_loaded_files hplace (by decide) hnext hrun⟩

end Bios

end Bootloader
