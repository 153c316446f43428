/-
Bootloader.Uefi.MemoryDescriptor — the UEFI firmware's memory map
(`uefi/src/memory_descriptor.rs`).

After `exit_boot_services` the UEFI loader sorts the firmware's memory map by
start address and hands it to `LegacyFrameAllocator::new`, each descriptor
wrapped in `UefiMemoryDescriptor`, whose `LegacyMemoryRegion` implementation
is modelled here.

The descriptor type and its memory types come from the `uefi` crate, which is
not part of the repository; they follow the UEFI specification: a memory type
is a `u32` tag with named constants, and a descriptor covers `page_count`
pages of 4 KiB from `phys_start`. Two of the trait's methods can panic, and
the wrapper carries the two checks as fields: `PhysAddr::new(phys_start)`
needs a valid address, and `page_count * PAGE_SIZE` must fit a `u64` under
overflow checks. The descriptor's `virt_start` and attributes are read by
nothing modelled and are left out.
-/
import Bootloader.Common.LegacyMemoryRegion

namespace Bootloader

namespace Uefi

/-- `MemoryType`: the tag of a UEFI memory descriptor. -/
abbrev MemoryType := Nat

namespace MemoryType

def LOADER_CODE : MemoryType := 1
def LOADER_DATA : MemoryType := 2
def BOOT_SERVICES_CODE : MemoryType := 3
def BOOT_SERVICES_DATA : MemoryType := 4
def RUNTIME_SERVICES_CODE : MemoryType := 5
def RUNTIME_SERVICES_DATA : MemoryType := 6
def CONVENTIONAL : MemoryType := 7

end MemoryType

/-- `uefi::table::boot::MemoryDescriptor`, the fields the bootloader reads. -/
structure MemoryDescriptor where
  ty : MemoryType
  physStart : Nat
  pageCount : Nat
  deriving DecidableEq, Repr

/-- `PAGE_SIZE`. -/
def PAGE_SIZE : Nat := 4096

/-- `UefiMemoryDescriptor`: a descriptor whose start `PhysAddr::new` accepts
and whose length in bytes fits a `u64`. -/
structure UefiMemoryDescriptor where
  desc : MemoryDescriptor
  startValid : desc.physStart < 2 ^ 52
  lenValid : desc.pageCount * PAGE_SIZE < 2 ^ 64
  deriving DecidableEq, Repr

namespace UefiMemoryDescriptor

/-- `start`: `PhysAddr::new(self.0.phys_start)`. -/
def start (d : UefiMemoryDescriptor) : PhysAddr := ⟨d.desc.physStart, d.startValid⟩

/-- `len`: `self.0.page_count * PAGE_SIZE`. -/
def len (d : UefiMemoryDescriptor) : Nat := d.desc.pageCount * PAGE_SIZE

/-- `kind`: conventional memory is usable; every other type is passed on. -/
def kind (d : UefiMemoryDescriptor) : MemoryRegionKind :=
  if d.desc.ty = MemoryType.CONVENTIONAL then .usable else .unknownUefi d.desc.ty

/-- `usable_after_bootloader_exit`: conventional memory, and the loader's and
boot services' memory, which nothing needs once the kernel runs; the runtime
services' memory and everything else are kept. -/
def usableAfterBootloaderExit (d : UefiMemoryDescriptor) : Bool :=
  if d.desc.ty = MemoryType.CONVENTIONAL then true
  else if d.desc.ty = MemoryType.LOADER_CODE ∨ d.desc.ty = MemoryType.LOADER_DATA ∨
      d.desc.ty = MemoryType.BOOT_SERVICES_CODE ∨ d.desc.ty = MemoryType.BOOT_SERVICES_DATA then true
  else if d.desc.ty = MemoryType.RUNTIME_SERVICES_CODE ∨
      d.desc.ty = MemoryType.RUNTIME_SERVICES_DATA then false
  else false

end UefiMemoryDescriptor

instance : LegacyMemoryRegion UefiMemoryDescriptor where
  start := UefiMemoryDescriptor.start
  len := UefiMemoryDescriptor.len
  kind := UefiMemoryDescriptor.kind
  usableAfterBootloaderExit := UefiMemoryDescriptor.usableAfterBootloaderExit

/-- A UEFI descriptor always covers whole pages. -/
theorem len_mod (d : UefiMemoryDescriptor) : LegacyMemoryRegion.len d % 4096 = 0 := by
  show d.desc.pageCount * 4096 % 4096 = 0
  omega

/-- Memory that is usable before the bootloader exits stays usable after. -/
theorem usableAfterBootloaderExit_of_kind (d : UefiMemoryDescriptor)
    (h : LegacyMemoryRegion.kind d = .usable) : LegacyMemoryRegion.usableAfterBootloaderExit d = true := by
  show UefiMemoryDescriptor.usableAfterBootloaderExit d = true
  have hty : d.desc.ty = MemoryType.CONVENTIONAL := by
    by_contra hne
    have : UefiMemoryDescriptor.kind d = .unknownUefi d.desc.ty := if_neg hne
    rw [show LegacyMemoryRegion.kind d = UefiMemoryDescriptor.kind d from rfl, this] at h
    cases h
  unfold UefiMemoryDescriptor.usableAfterBootloaderExit
  rw [if_pos hty]

end Uefi

end Bootloader
