/-
Bootloader.Common.LegacyMemoryRegion — the physical frame allocator built
from the firmware memory map, and the memory map it hands to the kernel
(`common/src/legacy_memory_region.rs`).

The firmware (BIOS E820 or UEFI) reports a list of descriptors. The bootloader
wraps them in a `LegacyFrameAllocator`, takes the frames it needs from it one
at a time (`allocate_frame`), and at the end turns the allocator back into
the kernel's memory map (`construct_memory_map`), carving out of every usable
descriptor the frames it handed out, the kernel image and the ramdisk.

The translation keeps the source's structure:

* the trait `LegacyMemoryRegion` is a class over the descriptor type `D`,
  and the allocator is generic over it;
* the allocator's two iterators are lists: `original` (the clone taken at
  construction) and `memoryMap` (what the consumed iterator still holds);
* `allocateFrame` is the trait method, its `while let` loop is `findFrame`,
  by recursion on what the iterator still holds;
* `splitAndAddRegion` is the `while region.start != region.end` loop, by
  well-founded recursion on `region.end - region.start`; `min_by_key` is
  `List.minOn?`, which like it returns the first of several minima;
* the output slice `regions: &mut [MaybeUninit<MemoryRegion>]` is its length
  `regions` together with the entries written so far (`next_index` is their
  number); `addRegion` panics as the source does when the slice is full.

Every arithmetic step that can panic in the source goes through
`Bootloader.X86.Addr`, so a run of these functions stops exactly where the
source's does.
-/
import Bootloader.X86.Addr
import Bootloader.Api.Info

namespace Bootloader

/-- `LegacyMemoryRegion`: a memory region as the BIOS or UEFI firmware reports it. -/
class LegacyMemoryRegion (D : Type) where
  /-- The physical start address of the region. -/
  start : D → PhysAddr
  /-- The size of the region in bytes. -/
  len : D → Nat
  /-- The type of the region, e.g. whether it is usable or reserved. -/
  kind : D → MemoryRegionKind
  /-- Some regions become usable when the bootloader jumps to the kernel. -/
  usableAfterBootloaderExit : D → Bool

/-- `UsedMemorySlice`: a physical range `[start, end)` used by the bootloader. -/
structure UsedMemorySlice where
  start : Nat
  «end» : Nat
  deriving DecidableEq, Repr

/-- `UsedMemorySlice::new_from_len`: the `u64` sum `start + len` may overflow. -/
def UsedMemorySlice.newFromLen (start len : Nat) : Except Panic UsedMemorySlice := do
  pure { start, «end» := ← addU64 start len }

/-- `LegacyFrameAllocator`. `original` is the clone of the memory-map iterator
taken at construction; `memoryMap` holds the descriptors the allocator's own
iterator has not yielded yet. -/
structure LegacyFrameAllocator (D : Type) where
  original : List D
  memoryMap : List D
  currentDescriptor : Option D
  nextFrame : PhysFrame
  minFrame : PhysFrame
  deriving DecidableEq

/-- `LOWER_MEMORY_END_PAGE`: the start of the first frame past the lower 1 MiB. -/
def LOWER_MEMORY_END_PAGE : Nat := 0x10_0000

namespace LegacyFrameAllocator

open LegacyMemoryRegion (start kind usableAfterBootloaderExit)

variable {D : Type} [LegacyMemoryRegion D]

/-- The frame at `LOWER_MEMORY_END_PAGE` (the constant is a valid address). -/
def lowerMemEnd : PhysFrame :=
  PhysFrame.containingAddress ⟨LOWER_MEMORY_END_PAGE, by decide⟩

/-- `LegacyFrameAllocator::new_starting_at`: skip every frame below `frame`
and below 1 MiB. -/
def newStartingAt (frame : PhysFrame) (memoryMap : List D) : LegacyFrameAllocator D :=
  let frame := max frame lowerMemEnd
  { original := memoryMap, memoryMap, currentDescriptor := none,
    nextFrame := frame, minFrame := frame }

/-- `LegacyFrameAllocator::new`. -/
def new (memoryMap : List D) : LegacyFrameAllocator D := newStartingAt lowerMemEnd memoryMap

/-- `allocate_frame_from_descriptor`: bump `next_frame` up to the descriptor's
first frame, then hand it out if it is not past the descriptor's last frame.
The bump is kept even when nothing is handed out. -/
def allocateFrameFromDescriptor (self : LegacyFrameAllocator D) (descriptor : D) :
    Except Panic (Option PhysFrame × LegacyFrameAllocator D) := do
  let startAddr := start descriptor
  let startFrame := PhysFrame.containingAddress startAddr
  let endAddr ← startAddr.add (LegacyMemoryRegion.len descriptor)
  let endFrame := PhysFrame.containingAddress (← endAddr.sub 1)
  let self := if self.nextFrame < startFrame then { self with nextFrame := startFrame } else self
  if self.nextFrame ≤ endFrame then
    let ret := self.nextFrame
    pure (some ret, { self with nextFrame := ← self.nextFrame.add 1 })
  else
    pure (none, self)

/-- The `while let Some(descriptor) = self.memory_map.next()` loop of
`allocate_frame`, over what the iterator still holds: skip descriptors that
are not usable, stop at the first that yields a frame. -/
def findFrame (self : LegacyFrameAllocator D) :
    List D → Except Panic (Option PhysFrame × LegacyFrameAllocator D)
  | [] => pure (none, { self with memoryMap := [] })
  | descriptor :: memoryMap =>
    let self := { self with memoryMap }
    if kind descriptor ≠ .usable then findFrame self memoryMap
    else do
      match ← self.allocateFrameFromDescriptor descriptor with
      | (some frame, self) => pure (some frame, { self with currentDescriptor := some descriptor })
      | (none, self) => findFrame self memoryMap

/-- `FrameAllocator::allocate_frame`: first the current descriptor, then the
rest of the memory map. -/
def allocateFrame (self : LegacyFrameAllocator D) :
    Except Panic (Option PhysFrame × LegacyFrameAllocator D) :=
  match self.currentDescriptor with
  | some currentDescriptor => do
    match ← self.allocateFrameFromDescriptor currentDescriptor with
    | (some frame, self) => pure (some frame, self)
    | (none, self) => findFrame { self with currentDescriptor := none } self.memoryMap
  | none => self.findFrame self.memoryMap

/-- `n` successive calls of `allocate_frame`, with the results in call order.
The allocator changes only through these calls. -/
def allocateFrames : Nat → LegacyFrameAllocator D →
    Except Panic (List (Option PhysFrame) × LegacyFrameAllocator D)
  | 0, self => pure ([], self)
  | n + 1, self => do
    let (frame, self) ← self.allocateFrame
    let (frames, self) ← allocateFrames n self
    pure (frame :: frames, self)

/-- `len`: the number of descriptors; it does not change as frames are allocated. -/
def len (self : LegacyFrameAllocator D) : Nat := self.original.length

/-- `max_phys_addr`: the highest end of a descriptor, and at least 4 GiB,
which holds the MMIO regions the kernel wants to reach. Each end is a
`PhysAddr` sum, and `max().unwrap()` panics on an empty memory map. -/
def maxPhysAddr (self : LegacyFrameAllocator D) : Except Panic PhysAddr := do
  let ends ← self.original.mapM fun r => (start r).add (LegacyMemoryRegion.len r)
  match ends with
  | [] => throw .unwrapNone
  | first :: ends =>
    let max := ends.foldl (fun m a => if m.val ≤ a.val then a else m) first
    pure (if max.val < 0x1_0000_0000 then ⟨0x1_0000_0000, by decide⟩ else max)

/-- `memory_map_max_region_count`: each of the three used slices can split a
region into three. -/
def memoryMapMaxRegionCount (self : LegacyFrameAllocator D) : Nat := self.len + 6

/-! ## Building the kernel's memory map -/

/-- `add_region`: skip a zero-sized region, else write it at `next_index`,
which panics when the slice of `regions` entries is full. -/
def addRegion (region : MemoryRegion) (regions : Nat) (written : List MemoryRegion) :
    Except Panic (List MemoryRegion) :=
  if region.start = region.end then .ok written
  else if written.length < regions then .ok (written ++ [region])
  else .error .noMoreFreeEntries

/-- The overlap `(max starts, min ends)` of `region` with each used slice;
the empty ones (`overlap_start ≥ overlap_end`) are dropped. -/
def overlaps (region : MemoryRegion) (usedSlices : List UsedMemorySlice) : List (Nat × Nat) :=
  (usedSlices.map fun slice => (max region.start slice.start, min region.end slice.end)).filter
    fun o => o.1 < o.2

theorem mem_overlaps {region : MemoryRegion} {usedSlices : List UsedMemorySlice} {o : Nat × Nat}
    (h : o ∈ overlaps region usedSlices) :
    ∃ slice ∈ usedSlices, o = (max region.start slice.start, min region.end slice.end) ∧
      o.1 < o.2 := by
  simp only [overlaps, List.mem_filter, List.mem_map, decide_eq_true_eq] at h
  obtain ⟨⟨slice, hs, rfl⟩, hlt⟩ := h
  exact ⟨slice, hs, rfl, hlt⟩

/-- `split_and_add_region`: while the region is not empty, cut off the usable
part before the earliest overlap with a used slice and the overlap itself
(kind `Bootloader`), and go on after it; with no overlap left, add the rest.
Its only caller passes `Usable` regions, so its `assert!` never fires. The
used slices are the lazily computed iterator: forced on the first pass. -/
def splitAndAddRegion (region : MemoryRegion) (regions : Nat) (written : List MemoryRegion)
    (usedSlices : Except Panic (List UsedMemorySlice)) : Except Panic (List MemoryRegion) :=
  if region.start = region.end then .ok written else do
    let slices ← usedSlices
    match _hmin : (overlaps region slices).minOn? (·.1) with
    | some (overlapStart, overlapEnd) =>
      let usable : MemoryRegion := { start := region.start, «end» := overlapStart, kind := .usable }
      let bootloader : MemoryRegion :=
        { start := overlapStart, «end» := overlapEnd, kind := .bootloader }
      let written ← addRegion usable regions written
      let written ← addRegion bootloader regions written
      splitAndAddRegion { region with start := overlapEnd } regions written usedSlices
    | none => addRegion region regions written
termination_by region.end - region.start
decreasing_by
  obtain ⟨slice, -, ho, hlt⟩ := mem_overlaps (List.minOn?_mem _hmin)
  simp only [Prod.mk.injEq] at ho
  omega

/-- The slices the bootloader used, in the order `construct_memory_map` lists
them: the frames handed out `[min_frame, next_frame)`, the kernel, and the
ramdisk if there is one. -/
def rawUsedSlices (self : LegacyFrameAllocator D) (kernelSlice : UsedMemorySlice)
    (ramdiskSlice : Option UsedMemorySlice) : List UsedMemorySlice :=
  [{ start := self.minFrame.startAddress.val, «end» := self.nextFrame.startAddress.val },
    kernelSlice] ++ ramdiskSlice.toList

/-- The `map` that rounds a used slice out to pages; `align_up` may panic. -/
def roundSlice (slice : UsedMemorySlice) : Except Panic UsedMemorySlice := do
  pure { start := alignDown slice.start 0x1000, «end» := ← alignUp slice.end 0x1000 }

/-- The used slices rounded out to pages. The source rounds lazily, in a
`map` over an iterator that `split_and_add_region` runs, so a panic of
`align_up` only fires once a usable region is split: the value stays an
`Except` until it is bound there. -/
def usedSlices (self : LegacyFrameAllocator D) (kernelSlice : UsedMemorySlice)
    (ramdiskSlice : Option UsedMemorySlice) : Except Panic (List UsedMemorySlice) :=
  (self.rawUsedSlices kernelSlice ramdiskSlice).mapM roundSlice

/-- The kind a descriptor gets in the kernel's memory map: `Usable` if it
becomes usable once the bootloader exits, its own kind otherwise. -/
def regionKind (descriptor : D) : MemoryRegionKind :=
  if usableAfterBootloaderExit descriptor then .usable else kind descriptor

/-- The body of the `for descriptor in self.original` loop of
`construct_memory_map`. -/
def constructMemoryMapStep (regions : Nat) (usedSlices : Except Panic (List UsedMemorySlice))
    (written : List MemoryRegion) (descriptor : D) : Except Panic (List MemoryRegion) := do
  let endAddr ← (start descriptor).add (LegacyMemoryRegion.len descriptor)
  let region : MemoryRegion :=
    { start := (start descriptor).val, «end» := endAddr.val, kind := regionKind descriptor }
  if region.kind = .usable then splitAndAddRegion region regions written usedSlices
  else addRegion region regions written

/-- `construct_memory_map`: the kernel's memory map, written into a slice of
`regions` entries. -/
def constructMemoryMap (self : LegacyFrameAllocator D) (regions : Nat)
    (kernelSliceStart : PhysAddr) (kernelSliceLen : Nat)
    (ramdiskSliceStart : Option PhysAddr) (ramdiskSliceLen : Nat) :
    Except Panic (List MemoryRegion) := do
  let kernelSlice ← UsedMemorySlice.newFromLen kernelSliceStart.val kernelSliceLen
  let ramdiskSlice ← ramdiskSliceStart.mapM fun start =>
    UsedMemorySlice.newFromLen start.val ramdiskSliceLen
  self.original.foldlM (constructMemoryMapStep regions (self.usedSlices kernelSlice ramdiskSlice))
    []

end LegacyFrameAllocator

end Bootloader
