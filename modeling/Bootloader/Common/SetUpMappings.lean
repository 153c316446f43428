/-
Bootloader.Common.SetUpMappings — where the bootloader places the kernel's
mappings in virtual memory (`common/src/lib.rs`: `set_up_mappings`,
`create_boot_info`, `mapping_addr`, `mapping_addr_page_aligned`; the part of
`Loader::new` in `common/src/load_kernel.rs` that places the kernel image).

Every mapping is placed the same way: a `FixedAddress` from the
configuration is taken as it is, a `Dynamic` one asks the level-4 bookkeeping
for free entries. `UsedLevel4Entries::new` reserves the fixed addresses up
front, so that no dynamic mapping lands in an entry a fixed one will use.

The model follows the address arithmetic of each mapping: which pages it
maps, from the first to the last, with every `VirtAddr`, `Page` and
`PhysAddr` step that can panic. It records each mapping as a `Placement`: the
kind, whether its address was fixed, the entries in use when its address was
chosen, and the start addresses of the first and last page it maps. The
page-table writes and the frame allocations between the placements (the
loops of `map_to` calls, the stack frames, the GDT frame, the identity map
of the context switch function, the loading of the segments) are left out:
they change neither the level-4 bookkeeping nor where any mapping goes. So
are the fields of `Mappings` and `BootInfo` that no placement reads (entry
point, TLS template, kernel slice, RSDP).
-/
import Bootloader.Common.Level4Entries
import Bootloader.Common.LegacyMemoryRegion
import Bootloader.Bios.MemoryDescriptor

namespace Bootloader

namespace Common

/-- The mappings whose place the bootloader chooses. -/
inductive MappingKind where
  | identity
  | kernelImage
  | kernelSegment
  | kernelStack
  | framebuffer
  | ramdisk
  | physicalMemory
  | recursiveIndex
  | bootInfo
  deriving DecidableEq, Repr

/-- A mapping as placed: its kind, whether the configuration fixed its
address, the entries in use when its address was chosen, and the start
addresses of the first and last page it maps (`none` when it maps none). -/
structure Placement where
  kind : MappingKind
  fixed : Bool
  reserved : Fin 512 → Bool
  span : Option (VirtAddr × VirtAddr)

namespace Placement

/-- The placement's pages reach into level-4 entry `j`. -/
def Touches (p : Placement) (j : Fin 512) : Prop :=
  ∃ first last, p.span = some (first, last) ∧ first.p4Index ≤ j ∧ j ≤ last.p4Index

instance (p : Placement) (j : Fin 512) : Decidable (p.Touches j) :=
  match h : p.span with
  | none => isFalse fun ⟨_, _, hs, _⟩ => by simp [h] at hs
  | some (first, last) =>
    decidable_of_iff (first.p4Index ≤ j ∧ j ≤ last.p4Index)
      ⟨fun hj => ⟨first, last, h, hj⟩, fun ⟨_, _, hs, hj⟩ => by
        rw [h, Option.some.injEq, Prod.mk.injEq] at hs
        obtain ⟨rfl, rfl⟩ := hs
        exact hj⟩

end Placement

/-- A boot's placements keep the level-4 contract: whenever a dynamic
mapping's address was chosen, every entry that a fixed mapping of the same
boot touches was already in use. -/
def ReservesFixed (placements : List Placement) : Prop :=
  ∀ d ∈ placements, d.fixed = false → ∀ f ∈ placements, f.fixed = true →
    ∀ j : Fin 512, f.Touches j → d.reserved j = true

instance (placements : List Placement) : Decidable (ReservesFixed placements) := by
  unfold ReservesFixed
  infer_instance

/-- `SystemInfo`, the fields the placements read. -/
structure SystemInfo where
  framebuffer : Option RawFrameBufferInfo
  ramdiskAddr : Option Nat
  ramdiskLen : Nat
  deriving DecidableEq, Repr

/-- The type of the kernel ELF file; the loader supports these two. -/
inductive ElfType where
  | executable
  | sharedObject
  deriving DecidableEq, Repr

/-- What the placements read of the kernel: its ELF type and program headers. -/
structure Kernel where
  elfType : ElfType
  programHeaders : List ProgramHeader
  deriving DecidableEq, Repr

/-- The pages `Page::range_inclusive(first, last)` covers, by the start
addresses of the first and the last; none when `last` comes before `first`. -/
def pageSpan (first last : VirtAddr) : Option (VirtAddr × VirtAddr) :=
  if first.val ≤ last.val then some (first, last) else none

/-- The placement of a configured mapping, with the entries in use before its
address was chosen. -/
def placement (kind : MappingKind) (mapping : Mapping) (reserved : UsedLevel4Entries)
    (span : Option (VirtAddr × VirtAddr)) : Placement :=
  { kind, fixed := mapping != .dynamic, reserved := reserved.entryState, span }

/-! ## Choosing addresses -/

/-- `mapping_addr`: a fixed address as it is, a dynamic one from
`get_free_address`; `Err` when it is not aligned. -/
def mappingAddr (mapping : Mapping) (size alignment : Nat) (usedEntries : UsedLevel4Entries) :
    Except Panic (Except VirtAddr VirtAddr × UsedLevel4Entries) := do
  let (addr, usedEntries) ← match mapping with
    | .fixedAddress addr => pure (← VirtAddr.new addr.toNat, usedEntries)
    | .dynamic => usedEntries.getFreeAddress size alignment
  return (if addr.isAligned alignment then .ok addr else .error addr, usedEntries)

/-- `mapping_addr(..).expect(..)`: panics on a misaligned address. -/
def mappingAddrAligned (mapping : Mapping) (size alignment : Nat)
    (usedEntries : UsedLevel4Entries) : Except Panic (VirtAddr × UsedLevel4Entries) := do
  match ← mappingAddr mapping size alignment usedEntries with
  | (.ok addr, usedEntries) => return (addr, usedEntries)
  | (.error _, _) => throw .notAligned

/-- `mapping_addr_page_aligned`: the page at a page-aligned address
(`Page::from_start_address(addr).unwrap()`), and a panic otherwise. -/
def mappingAddrPageAligned (mapping : Mapping) (size : Nat) (usedEntries : UsedLevel4Entries) :
    Except Panic (Page × UsedLevel4Entries) := do
  let (addr, usedEntries) ← mappingAddrAligned mapping size 4096 usedEntries
  return (Page.containingAddress addr, usedEntries)

/-- `u64` subtraction, which panics below zero. -/
def subU64 (a b : Nat) : Except Panic Nat := if b ≤ a then .ok (a - b) else .error .subOverflow

theorem subU64_eq_ok {a b c : Nat} : subU64 a b = .ok c ↔ b ≤ a ∧ c = a - b := by
  rw [subU64, Except.ite_ok_eq_ok, @eq_comm _ (a - b)]

/-! ## The kernel image -/

/-- The part of `Loader::new` that places the kernel: an executable at its
link addresses, a position-independent one at an address from
`get_free_address`, big enough for its loadable segments and at their largest
alignment; then `mark_segments`. Returns the virtual address offset. -/
def placeKernel (kernel : Kernel) (usedEntries : UsedLevel4Entries) :
    Except Panic (Int × UsedLevel4Entries × List Placement) := do
  match kernel.elfType with
  | .executable =>
    let usedEntries' ← usedEntries.markSegments kernel.programHeaders 0
    -- the loadable segments, at their link addresses
    let segments ← (kernel.programHeaders.filter fun h => h.isLoad && 0 < h.memSize).mapM
      fun h => do
        -- `mark_segments` has checked both ends are canonical
        let first := Page.containingAddress (VirtAddr.newTruncate h.virtualAddr)
        let last := Page.containingAddress (VirtAddr.newTruncate (h.virtualAddr + h.memSize - 1))
        return { kind := .kernelSegment, fixed := true, reserved := usedEntries.entryState,
                 span := pageSpan first.startAddress last.startAddress : Placement }
    return (0, usedEntries', segments)
  | .sharedObject =>
    let loads := kernel.programHeaders.filter (·.isLoad)
    let ends ← loads.mapM fun h => addU64 h.virtualAddr h.memSize
    let maxAddr := ends.foldl max 0
    let minAddr := (loads.map (·.virtualAddr)).min?.getD 0
    let size ← subU64 maxAddr minAddr
    let align := (loads.map (·.align)).max?.getD 1
    let (offset, usedEntries') ← usedEntries.getFreeAddress size align
    let virtualAddressOffset : Int := offset.val - minAddr
    let usedEntries' ← usedEntries'.markSegments kernel.programHeaders virtualAddressOffset
    let last := Page.containingAddress (VirtAddr.newTruncate (offset.val + size - 1))
    return (virtualAddressOffset, usedEntries',
      [{ kind := .kernelImage, fixed := false, reserved := usedEntries.entryState,
         span := pageSpan offset last.startAddress }])

/-! ## `set_up_mappings` -/

/-- What `set_up_mappings` hands on: the level-4 bookkeeping, the addresses
the boot information reports, and the placements so far. -/
structure Mappings where
  usedEntries : UsedLevel4Entries
  stackTop : VirtAddr
  framebuffer : Option VirtAddr
  physicalMemoryOffset : Option VirtAddr
  recursiveIndex : Option (Fin 512)
  kernelImageOffset : Int
  ramdiskSliceStart : Option VirtAddr
  placements : List Placement

/-- The kernel stack: a guard page and the stack above it
(`stack_start = guard_page + 1`). -/
def placeKernelStack (config : BootloaderConfig) (usedEntries : UsedLevel4Entries) :
    Except Panic (VirtAddr × UsedLevel4Entries × Placement) := do
  let (guardPage, usedEntries') ← mappingAddrPageAligned config.mappings.kernelStack
    (← addU64 4096 config.kernelStackSize.toNat) usedEntries
  let stackStart ← guardPage.add 1
  let stackEndAddr ← stackStart.startAddress.add config.kernelStackSize.toNat
  let stackEnd := Page.containingAddress (← stackEndAddr.sub 1)
  return (stackEndAddr, usedEntries',
    placement .kernelStack config.mappings.kernelStack usedEntries
      (pageSpan stackStart.startAddress stackEnd.startAddress))

/-- The frame buffer: one page for each frame the buffer's bytes touch. -/
def placeFramebuffer (config : BootloaderConfig) (framebuffer : RawFrameBufferInfo)
    (usedEntries : UsedLevel4Entries) : Except Panic (VirtAddr × UsedLevel4Entries × Placement) := do
  let framebufferStartFrame := PhysFrame.containingAddress framebuffer.addr
  let framebufferEndFrame :=
    PhysFrame.containingAddress (← (← framebuffer.addr.add framebuffer.byteLen).sub 1)
  let (startPage, usedEntries') ← mappingAddrPageAligned config.mappings.framebuffer
    framebuffer.byteLen usedEntries
  -- the loop maps `start_page + i` for the `i`-th frame; the last one is the
  -- furthest, and no page in between lies in the hole when the last one does not
  let span ← if framebufferStartFrame.number ≤ framebufferEndFrame.number then do
      let lastPage ← startPage.add (framebufferEndFrame.number - framebufferStartFrame.number)
      pure (some (startPage.startAddress, lastPage.startAddress))
    else pure none
  return (startPage.startAddress, usedEntries',
    placement .framebuffer config.mappings.framebuffer usedEntries span)

/-- The ramdisk: `(ramdisk_len - 1) / 4096 + 1` pages. -/
def placeRamdisk (config : BootloaderConfig) (physicalAddress : PhysAddr) (ramdiskLen : Nat)
    (usedEntries : UsedLevel4Entries) : Except Panic (VirtAddr × UsedLevel4Entries × Placement) := do
  let (startPage, usedEntries') ← mappingAddrPageAligned config.mappings.ramdiskMemory ramdiskLen
    usedEntries
  let ramdiskPhysicalStartPage := PhysFrame.containingAddress physicalAddress
  let ramdiskPageCount := (← subU64 ramdiskLen 1) / 4096
  let _ramdiskPhysicalEndPage ← ramdiskPhysicalStartPage.add ramdiskPageCount
  let lastPage ← startPage.add ramdiskPageCount
  return (startPage.startAddress, usedEntries',
    placement .ramdisk config.mappings.ramdiskMemory usedEntries
      (some (startPage.startAddress, lastPage.startAddress)))

/-- The physical memory: 2 MiB pages from the offset up to the page of the
last physical byte. -/
def placePhysicalMemory (mapping : Mapping) (maxPhys : PhysAddr) (usedEntries : UsedLevel4Entries) :
    Except Panic (VirtAddr × UsedLevel4Entries × Placement) := do
  let endFrame := (← maxPhys.sub 1).val / 0x200000
  let (offset, usedEntries') ← mappingAddrAligned mapping maxPhys.val 0x200000 usedEntries
  let lastPage ← offset.add (endFrame * 0x200000)
  return (offset, usedEntries',
    placement .physicalMemory mapping usedEntries (some (offset, lastPage)))

/-- The recursive level-4 entry: a free one, or the entry of a fixed address
that must be aligned to a whole entry. (The check that the entry is unused
in the kernel's page table reads the page table, which is not modelled.) -/
def placeRecursiveIndex (mapping : Mapping) (usedEntries : UsedLevel4Entries) :
    Except Panic (Fin 512 × UsedLevel4Entries × Placement) := do
  let (index, usedEntries') ← match mapping with
    | .dynamic => usedEntries.getFreeEntries 1
    | .fixedAddress offset => do
      let offset ← VirtAddr.new offset.toNat
      if !offset.isAligned UsedLevel4Entries.LEVEL_4_SIZE then throw .notAligned
      pure (offset.p4Index, usedEntries)
  let entry := (Page.fromPageTableIndices1GiB index 0).startAddress
  return (index, usedEntries', placement .recursiveIndex mapping usedEntries (some (entry, entry)))

/-- An optional mapping of `set_up_mappings`
(`if let Some(..) = .. { .. Some(addr) } else { None }`): placed when it is
configured, reported as `None` and with no placement otherwise. -/
def placeOptional {α β : Type} (o : Option α)
    (place : α → UsedLevel4Entries → Except Panic (β × UsedLevel4Entries × Placement))
    (usedEntries : UsedLevel4Entries) : Except Panic (Option β × UsedLevel4Entries × List Placement) :=
  match o with
  | some x => do
    let (b, usedEntries, p) ← place x usedEntries
    pure (some b, usedEntries, [p])
  | none => pure (none, usedEntries, [])

/-- `set_up_mappings`, as far as it places mappings. -/
def setUpMappings {D : Type} [LegacyMemoryRegion D] (kernel : Kernel)
    (frameAllocator : LegacyFrameAllocator D) (framebuffer : Option RawFrameBufferInfo)
    (config : BootloaderConfig) (systemInfo : SystemInfo) (entropy : Rng) :
    Except Panic Mappings := do
  let maxPhys ← frameAllocator.maxPhysAddr
  let usedEntries ← UsedLevel4Entries.new maxPhys frameAllocator.len framebuffer config entropy
  let identity : Placement :=
    { kind := .identity, fixed := true, reserved := usedEntries.entryState,
      -- `new` has checked that `max_phys_addr` is canonical
      span := some (⟨0, by decide⟩,
        (Page.containingAddress (VirtAddr.newTruncate (maxPhys.val - 1))).startAddress) }
  let (kernelImageOffset, usedEntries, kernelPlacements) ← placeKernel kernel usedEntries
  let (stackEndAddr, usedEntries, stack) ← placeKernelStack config usedEntries
  let (framebufferVirtAddr, usedEntries, framebufferPlacements) ←
    placeOptional framebuffer (placeFramebuffer config) usedEntries
  let (ramdiskSliceStart, usedEntries, ramdiskPlacements) ←
    placeOptional systemInfo.ramdiskAddr (fun ramdiskAddr usedEntries => do
      placeRamdisk config (← PhysAddr.new ramdiskAddr) systemInfo.ramdiskLen usedEntries)
      usedEntries
  let (physicalMemoryOffset, usedEntries, physicalPlacements) ←
    placeOptional config.mappings.physicalMemory (fun mapping => placePhysicalMemory mapping maxPhys)
      usedEntries
  let (recursiveIndex, usedEntries, recursivePlacements) ←
    placeOptional config.mappings.pageTableRecursive placeRecursiveIndex usedEntries
  return { usedEntries, stackTop := stackEndAddr, framebuffer := framebufferVirtAddr,
           physicalMemoryOffset, recursiveIndex, kernelImageOffset, ramdiskSliceStart,
           placements := identity :: kernelPlacements ++ stack :: framebufferPlacements ++
             ramdiskPlacements ++ physicalPlacements ++ recursivePlacements }

/-- The start of `create_boot_info`: the layout of the `BootInfo` with
`memory_map_max_region_count()` regions after it, its address, and the first
and the last page it spans. -/
def bootInfoPages {D : Type} [LegacyMemoryRegion D] (config : BootloaderConfig)
    (frameAllocator : LegacyFrameAllocator D) (usedEntries : UsedLevel4Entries) :
    Except Panic (Layout × VirtAddr × Page × Page × UsedLevel4Entries) := do
  let regions := frameAllocator.memoryMapMaxRegionCount
  let memoryRegionsLayout ← MEMORY_REGION_LAYOUT.array regions
  let (combined, _) ← BOOT_INFO_LAYOUT.extend memoryRegionsLayout
  let (bootInfoAddr, usedEntries) ← mappingAddrAligned config.mappings.bootInfo combined.size
    combined.align usedEntries
  let memoryMapRegionsEnd ← bootInfoAddr.add combined.size
  let startPage := Page.containingAddress bootInfoAddr
  let endPage := Page.containingAddress (← memoryMapRegionsEnd.sub 1)
  return (combined, bootInfoAddr, startPage, endPage, usedEntries)

/-- The boot information and its memory regions, as `create_boot_info` places
them: `memory_map_max_region_count()` regions after the `BootInfo`. -/
def placeBootInfo {D : Type} [LegacyMemoryRegion D] (config : BootloaderConfig)
    (frameAllocator : LegacyFrameAllocator D) (mappings : Mappings) :
    Except Panic Mappings := do
  let (_, _, startPage, endPage, usedEntries) ←
    bootInfoPages config frameAllocator mappings.usedEntries
  return { mappings with
    usedEntries,
    placements := mappings.placements ++
      [placement .bootInfo config.mappings.bootInfo mappings.usedEntries
        (pageSpan startPage.startAddress endPage.startAddress)] }

/-- The placements of a whole boot: `set_up_mappings`, then `create_boot_info`. -/
def placeMappings {D : Type} [LegacyMemoryRegion D] (kernel : Kernel)
    (frameAllocator : LegacyFrameAllocator D) (config : BootloaderConfig)
    (systemInfo : SystemInfo) (entropy : Rng) : Except Panic Mappings := do
  let mappings ← setUpMappings kernel frameAllocator systemInfo.framebuffer config systemInfo entropy
  placeBootInfo config frameAllocator mappings

/-! ## What `set_up_mappings` reports

Every address a boot reports lies on the boundary its mapping needs: the
frame buffer and the ramdisk at a page, the physical memory mapping at a
2 MiB page. Each comes from `mapping_addr`, which hands on only an aligned
address. -/

/-- A BIOS boot in which a dynamic mapping lands in an entry that a fixed one
uses: the configuration fixes the ramdisk at `0x80_4000_0000`, in level-4
entry 1, and leaves everything else dynamic. `UsedLevel4Entries::new` never
reserves the ramdisk's address, so the kernel stack, placed first, gets
entry 1 too. -/
theorem placeMappings_misses_fixed_ramdisk :
    let config : BootloaderConfig :=
      { BootloaderConfig.newDefault with
        mappings := { Mappings.newDefault with ramdiskMemory := .fixedAddress 0x8040000000 } }
    let kernel : Kernel := ⟨.executable, [⟨true, 0xffffffff80000000, 0x10000, 0x1000⟩]⟩
    let memoryMap : List Bios.MemoryRegion := [⟨⟨0x100000, 0x7ff00000, 1⟩, by decide⟩]
    let systemInfo : SystemInfo :=
      ⟨some ⟨⟨0xfd000000, by decide⟩, 0x300000⟩, some 0x2000000, 0x100000⟩
    let run := placeMappings kernel (LegacyFrameAllocator.new memoryMap) config systemInfo
      (fun _ => 0)
    run.map (fun m => (m.stackTop.p4Index, m.ramdiskSliceStart.map VirtAddr.p4Index)) =
        .ok (1, some 1) ∧
      run.map (fun m => decide (ReservesFixed m.placements)) = .ok false := by
  decide +kernel

end Common

end Bootloader
