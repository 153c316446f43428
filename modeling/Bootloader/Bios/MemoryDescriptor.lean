/-
Bootloader.Bios.MemoryDescriptor — the BIOS firmware's memory map
(`bios/common/src/lib.rs`, `bios/stage-4/src/memory_descriptor.rs`).

Stage 2 asks the BIOS for its E820 memory map; stage 4 sorts the entries by
start address and hands them to the frame allocator, each wrapped in
`MemoryRegion`, whose `LegacyMemoryRegion` implementation is modelled here.

An E820 entry's start and length are whatever the firmware reports: any
`u64`, page-aligned or not. The trait's `start` converts the start with
`PhysAddr::new`, which panics on an address at or above `2 ^ 52`; the
model's `start` is total, so the wrapper carries that check as a field.
The entry's `acpi_extended_attributes` is read by nothing modelled and is
left out.
-/
import Bootloader.Common.LegacyMemoryRegion

namespace Bootloader

/-- `E820MemoryRegion`: one entry of the BIOS memory map. -/
structure E820MemoryRegion where
  startAddr : Nat
  len : Nat
  regionType : Nat
  deriving DecidableEq, Repr

namespace Bios

/-- Stage 4's `MemoryRegion`: an E820 entry whose start `PhysAddr::new`
accepts. -/
structure MemoryRegion where
  entry : E820MemoryRegion
  startValid : entry.startAddr < 2 ^ 52
  deriving DecidableEq, Repr

namespace MemoryRegion

/-- `start`: `PhysAddr::new(self.0.start_addr)`. -/
def start (r : MemoryRegion) : PhysAddr := ⟨r.entry.startAddr, r.startValid⟩

/-- `len`: the entry's length, unchanged. -/
def len (r : MemoryRegion) : Nat := r.entry.len

/-- `kind`: E820 type 1 is usable memory; every other type is passed on. -/
def kind (r : MemoryRegion) : MemoryRegionKind :=
  match r.entry.regionType with
  | 1 => .usable
  | other => .unknownBios other

/-- `usable_after_bootloader_exit`: `matches!(self.kind(), Usable)`. -/
def usableAfterBootloaderExit (r : MemoryRegion) : Bool :=
  match r.kind with
  | .usable => true
  | _ => false

end MemoryRegion

instance : LegacyMemoryRegion MemoryRegion where
  start := MemoryRegion.start
  len := MemoryRegion.len
  kind := MemoryRegion.kind
  usableAfterBootloaderExit := MemoryRegion.usableAfterBootloaderExit

theorem kind_eq_usable {r : MemoryRegion} :
    LegacyMemoryRegion.kind r = .usable ↔ r.entry.regionType = 1 := by
  show MemoryRegion.kind r = .usable ↔ _
  unfold MemoryRegion.kind
  split
  · rename_i h
    simp only [h]
  · rename_i ty h
    simp only [reduceCtorEq, false_iff]
    exact h

/-- On the BIOS path the memory map gives every entry its own kind: only
usable entries are usable once the bootloader exits. -/
theorem regionKind_eq (r : MemoryRegion) :
    LegacyFrameAllocator.regionKind r = LegacyMemoryRegion.kind r := by
  show (if MemoryRegion.usableAfterBootloaderExit r then _ else _) = _
  unfold MemoryRegion.usableAfterBootloaderExit
  split
  · rename_i h
    rw [if_pos rfl, ← h]
    rfl
  · rfl

/-- E820 entries need not be page-aligned. Behind a reserved entry ending
half a page past 1 MiB comes a usable one; `allocate_frame` rounds the usable
entry's start down to its frame, so the first frame it hands out starts at
1 MiB: it lies in no usable entry, and its first half is reserved memory. -/
theorem allocateFrame_straddles_unaligned_entry :
    let memoryMap : List MemoryRegion :=
      [⟨⟨0xe0000, 0x20800, 2⟩, (by decide)⟩, ⟨⟨0x100800, 0x7eff800, 1⟩, (by decide)⟩]
    let frame : PhysFrame := ⟨0x100, (by decide)⟩
    (LegacyFrameAllocator.new memoryMap).allocateFrame.map Prod.fst = .ok (some frame) ∧
      (∀ d ∈ memoryMap, LegacyMemoryRegion.kind d = .usable →
        ¬((LegacyMemoryRegion.start d).val ≤ frame.startAddress.val ∧
          frame.startAddress.val + 4096 ≤
            (LegacyMemoryRegion.start d).val + LegacyMemoryRegion.len d)) ∧
      ∃ d ∈ memoryMap, LegacyMemoryRegion.kind d ≠ .usable ∧
        (LegacyMemoryRegion.start d).val < frame.startAddress.val + 4096 ∧
        frame.startAddress.val < (LegacyMemoryRegion.start d).val + LegacyMemoryRegion.len d := by
  decide

end Bios

end Bootloader
