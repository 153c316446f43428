import Bootloader.Lib.Except
import Bootloader.Lib.Interval
import Bootloader.X86.Addr
import Bootloader.X86.VirtAddr
import Bootloader.Api.Info
import Bootloader.Common.LegacyMemoryRegion
import Bootloader.Common.FrameAllocator
import Bootloader.Common.SplitRegion
import Bootloader.Bios.MemoryDescriptor
import Bootloader.Common.MemoryMap
import Bootloader.Uefi.MemoryDescriptor
import Bootloader.Common.AllocationOrder
import Bootloader.Lib.LittleEndian
import Bootloader.Api.Config
import Bootloader.Common.Level4Entries
import Bootloader.Common.SetUpMappings
import Bootloader.X86.PageTable
import Bootloader.Common.PageTables
import Bootloader.Common.LoadKernel
import Bootloader.Common.LoaderMemory
import Bootloader.Common.SegmentLoading
import Bootloader.Common.Relocation
import Bootloader.Bios.Disk
import Bootloader.Lib.Utf8
import Bootloader.Bios.Fat
import Bootloader.Bios.FatDirectory
import Bootloader.Bios.LoadFile
import Bootloader.Bios.QueryMemoryMap
import Bootloader.Bios.Vesa
import Bootloader.Common.FrameBuffer
import Bootloader.Uefi.Boot
import Bootloader.X86.PageWalk
import Bootloader.Bios.Paging
import Bootloader.Bios.Layout
import Bootloader.Common.Entropy
import Bootloader.Bios.BootSector
