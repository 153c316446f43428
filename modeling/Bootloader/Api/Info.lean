/-
Bootloader.Api.Info — the boot information the kernel receives
(`api/src/info.rs`): the kinds of memory region, the regions of the
memory map, and the description of the frame buffer.

Only what the modelled functions read or build is here. `MemoryRegion` keeps
the source's field names; its `end` is exclusive, as the source documents.
The `u32` payloads of the two firmware kinds are naturals: nothing computes
with them.
-/
import Mathlib

namespace Bootloader

/-- `MemoryRegionKind`: the type of a memory region. -/
inductive MemoryRegionKind where
  /-- Unused conventional memory, can be used by the kernel. -/
  | usable
  /-- Memory mappings created by the bootloader; the kernel must not use it. -/
  | bootloader
  /-- An unknown memory region reported by the UEFI firmware, with its type tag. -/
  | unknownUefi (ty : Nat)
  /-- An unknown memory region reported by the BIOS firmware, with its E820 type. -/
  | unknownBios (ty : Nat)
  deriving DecidableEq, Repr

/-- `MemoryRegion`: the physical range `[start, end)` and its kind. -/
structure MemoryRegion where
  start : Nat
  «end» : Nat
  kind : MemoryRegionKind
  deriving DecidableEq, Repr

/-- The physical addresses a region covers. -/
def MemoryRegion.addrs (r : MemoryRegion) : Set Nat := Set.Ico r.start r.end

/-- `PixelFormat`: the colour format of the frame buffer's pixels. -/
inductive PixelFormat where
  /-- One byte red, then one byte green, then one byte blue. -/
  | rgb
  /-- One byte blue, then one byte green, then one byte red. -/
  | bgr
  /-- A single byte of grey. -/
  | u8
  /-- Another format, by the bit offsets of its colours. -/
  | unknown (redPosition greenPosition bluePosition : UInt8)
  deriving DecidableEq, Repr

/-- `FrameBufferInfo`: the frame buffer's size in bytes and in pixels, its
pixel format, and `stride`, the pixels from the start of one line to the
start of the next. -/
structure FrameBufferInfo where
  byteLen : Nat
  width : Nat
  height : Nat
  pixelFormat : PixelFormat
  bytesPerPixel : Nat
  stride : Nat
  deriving DecidableEq, Repr

end Bootloader
