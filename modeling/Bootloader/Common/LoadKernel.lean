/-
Bootloader.Common.LoadKernel — loading the kernel's segments
(`common/src/load_kernel.rs`: `Loader::load_segments` and the `Inner`
methods it calls).

The loader maps each loadable segment straight onto the frames of the kernel
file, which the earlier stages put in physical memory at `kernel_offset`:
the `i`-th frame from the one holding the segment's first file byte goes to
the `i`-th page from the one holding its first virtual byte. A page it must
write to (the tail of the last file page before `.bss`, a relocation) it first
makes private with `make_mut`: a fresh frame, a copy of the old one, the page
remapped with the `COPIED` flag. Fresh `.bss` pages get fresh zeroed frames.

The model keeps physical memory byte by byte (the bootloader reaches every
frame through the identity mapping), the kernel's 4 KiB page table as a map
from page numbers to a frame and the `COPIED` flag, and the frames the
allocator hands out, in order. `Inner.readByte` is the byte the kernel sees
at a virtual address.

Each page-table entry keeps the flags the loader sets and reads:
`WRITABLE`, `NO_EXECUTE` and `COPIED`.

Left out: the frames `map_to` takes for new tables, and `xmas_elf`'s
parsing of the program headers: a segment is given by its type and the
fields the loader reads. Of `xmas_elf`'s dynamic section the model keeps
`read_array` with its asserts (`dynamicEntries`) and `get_tag`, which fails
on a raw tag the crate does not know (`getTag`); the loop over the entries
takes `get_tag` as a parameter (`findRelaEntries`).

* `handleRelroSegment_readOnly`: relro clears `WRITABLE` from the segment's
  start to the end of the page of its last byte, and leaves every byte the
  kernel reads as it was.
* `makeMut_readByte`: while the allocator's frames are mapped by no page,
  `make_mut` changes nothing the kernel reads.

What the copy loops (`copyFrom`, `copyTo`, one page at a time through
`pageSpan`) do is proved in `Bootloader.Common.LoaderMemory`.
-/
import Bootloader.Common.SetUpMappings
import Bootloader.Lib.LittleEndian

namespace Bootloader

open LittleEndian

/-- `program::Type`, as `load_segments` tells the types apart. -/
inductive SegmentType where
  | load
  | tls
  | dynamic
  | gnuRelro
  /-- `Null`, `Interp`, `Note`, `ShLib`, `Phdr` and the OS- and
  processor-specific types, which the loader skips. -/
  | other
  deriving DecidableEq, Repr

/-- An ELF program header: its type, `p_flags`, and the fields the loader reads. -/
structure Segment where
  type : SegmentType
  flags : Nat
  offset : Nat
  virtualAddr : Nat
  fileSize : Nat
  memSize : Nat
  align : Nat
  deriving DecidableEq, Repr

namespace Segment

/-- `Flags::is_execute`: `PF_X` (`0x1`) is set. -/
def isExecute (segment : Segment) : Bool := segment.flags &&& 0x1 == 0x1

/-- `Flags::is_write`: `PF_W` (`0x2`) is set. -/
def isWrite (segment : Segment) : Bool := segment.flags &&& 0x2 == 0x2

/-- The fields of a program header that the level-4 bookkeeping reads. -/
def toProgramHeader (segment : Segment) : ProgramHeader :=
  ⟨segment.type = .load, segment.virtualAddr, segment.memSize, segment.align⟩

end Segment

/-- `TlsTemplate`. -/
structure TlsTemplate where
  startAddr : Nat
  memSize : Nat
  fileSize : Nat
  deriving DecidableEq, Repr

/-- The flags of a kernel page that the loader sets or reads: `WRITABLE`,
`NO_EXECUTE`, and `COPIED` (`BIT_9`), which `make_mut` sets. `PRESENT` is set
on every mapped page. -/
structure PageTableFlags where
  writable : Bool
  noExecute : Bool
  copied : Bool
  deriving DecidableEq, Repr

/-- An entry of the kernel's page table: the frame and its flags. -/
structure PageEntry where
  frame : PhysFrame
  flags : PageTableFlags
  deriving DecidableEq, Repr

/-- What loading stops with: an `Err(&'static str)` it returns, or a panic. -/
inductive LoadError where
  | err (message : String)
  | panic (p : Panic)
  /-- An error of `xmas_elf`, passed on with `?`; its message is not modelled. -/
  | elf
  deriving DecidableEq, Repr

/-- A panic of the address arithmetic, as a loading error. -/
def liftPanic {α : Type} : Except Panic α → Except LoadError α
  | .ok a => .ok a
  | .error p => .error (.panic p)

@[simp] theorem liftPanic_eq_ok {α : Type} {x : Except Panic α} {a : α} :
    liftPanic x = .ok a ↔ x = .ok a := by
  cases x <;> simp [liftPanic]

/-! ## Physical memory -/

/-- `copy_from_slice` at a physical address. -/
def writeBytes (memory : Nat → UInt8) (addr : Nat) (bytes : List UInt8) : Nat → UInt8 :=
  fun a => if addr ≤ a ∧ a < addr + bytes.length then bytes.getD (a - addr) 0 else memory a

/-- `write_bytes(ptr, value, len)` at a physical address. -/
def fillBytes (memory : Nat → UInt8) (addr len : Nat) (value : UInt8) : Nat → UInt8 :=
  fun a => if addr ≤ a ∧ a < addr + len then value else memory a

/-- `&buf[start..][..len]`, which panics past the end of `buf`. -/
def sliceRange {α : Type} (buf : List α) (start len : Nat) : Except Panic (List α) :=
  if buf.length < start + len then .error .indexOutOfBounds else .ok ((buf.drop start).take len)

/-- `buf[start..][..src.len()].copy_from_slice(src)`, which panics past the
end of `buf`. -/
def writeSlice {α : Type} (buf : List α) (start : Nat) (src : List α) : Except Panic (List α) :=
  if buf.length < start + src.length then .error .indexOutOfBounds
  else .ok (buf.take start ++ src ++ buf.drop (start + src.length))

/-- `copy_nonoverlapping` of a whole frame onto another. -/
def copyFrame (memory : Nat → UInt8) (src dst : PhysFrame) : Nat → UInt8 :=
  fun a => if dst.number * 4096 ≤ a ∧ a < dst.number * 4096 + 4096 then
    memory (src.number * 4096 + (a - dst.number * 4096)) else memory a

/-! ## The loader -/

/-- `Inner`, with the kernel's page table, physical memory and the frames the
allocator hands out next. -/
structure Inner where
  kernelOffset : PhysAddr
  virtualAddressOffset : Int
  pageTable : Nat → Option PageEntry
  memory : Nat → UInt8
  frames : List PhysFrame

/-- `dynamic::Tag`, as `handle_dynamic_segment` tells the tags apart. -/
inductive DynamicTag where
  | rela
  | relaSize
  | relaEnt
  /-- Any other tag `xmas_elf` knows: the loop skips it. -/
  | other
  deriving DecidableEq, Repr

/-- `Dynamic::get_tag` of `xmas_elf` 0.8.0 on a raw `d_tag`: the tags of the
ELF specification from 0 to 34 but 31, and the OS- and processor-specific
ranges from `0x6000_000D` to `0x7fff_ffff`, are known; any other value,
`DT_RELR` (36) among them, is an error. -/
def getTag (tag : Nat) : Except LoadError DynamicTag :=
  if tag = 7 then .ok .rela
  else if tag = 8 then .ok .relaSize
  else if tag = 9 then .ok .relaEnt
  else if tag ≤ 30 ∨ 32 ≤ tag ∧ tag ≤ 34 ∨ 0x6000000D ≤ tag ∧ tag < 0x80000000 then .ok .other
  else .error .elf

namespace Inner

/-- The byte the kernel sees at a virtual address, if its page is mapped. -/
def readByte (inner : Inner) (addr : Nat) : Option UInt8 :=
  (inner.pageTable (addr / 4096)).map fun entry => inner.memory (entry.frame.number * 4096 + addr % 4096)

/-- `frame_allocator.allocate_frame().unwrap()`. -/
def allocateFrame (inner : Inner) : Except LoadError (PhysFrame × Inner) :=
  match inner.frames with
  | [] => .error (.panic .unwrapNone)
  | frame :: frames => .ok (frame, { inner with frames })

/-- The flags of the page holding a virtual address, if it is mapped. -/
def flagsAt (inner : Inner) (addr : Nat) : Option PageTableFlags :=
  (inner.pageTable (addr / 4096)).map (·.flags)

/-- `map_to_with_table_flags(page, frame, flags, ..).map_err(|_| message)?`. -/
def mapTo (inner : Inner) (page : Page) (frame : PhysFrame) (flags : PageTableFlags)
    (message : String) : Except LoadError Inner :=
  if (inner.pageTable (page.startAddress.val / 4096)).isSome then .error (.err message)
  else .ok { inner with
    pageTable := Function.update inner.pageTable (page.startAddress.val / 4096) (some ⟨frame, flags⟩) }

/-- `make_mut`: the frame a page may be written through. A page already
copied keeps its frame; any other gets a fresh frame holding a copy of the
old one, and is remapped to it with its flags and `COPIED`. -/
def makeMut (inner : Inner) (page : Page) : Except LoadError (PhysFrame × Inner) :=
  match inner.pageTable (page.startAddress.val / 4096) with
  | none => .error (.panic .notMapped)
  | some entry =>
    if entry.flags.copied then .ok (entry.frame, inner)
    else do
      let (newFrame, inner) ← inner.allocateFrame
      pure (newFrame, { inner with
        memory := copyFrame inner.memory entry.frame newFrame
        pageTable := Function.update inner.pageTable (page.startAddress.val / 4096)
          (some ⟨newFrame, { entry.flags with copied := true }⟩) })

/-- `handle_bss_section`: zero the tail of the last file page in a private
copy, then map fresh zeroed frames from the next page boundary to the end. -/
def handleBssSection (inner : Inner) (segment : Segment) (segmentFlags : PageTableFlags) :
    Except LoadError Inner := do
  let virtStartAddr ← liftPanic do
    VirtAddr.new (← virtualAddressOffsetAdd inner.virtualAddressOffset segment.virtualAddr)
  let zeroStart ← liftPanic (virtStartAddr.add segment.fileSize)
  let zeroEnd ← liftPanic (virtStartAddr.add segment.memSize)
  let dataBytesBeforeZero := zeroStart.val % 4096
  let inner ← if dataBytesBeforeZero ≠ 0 then do
      let lastPage := Page.containingAddress (← liftPanic do
        (← virtStartAddr.add segment.fileSize).sub 1)
      let (newFrame, inner) ← inner.makeMut lastPage
      pure { inner with
        memory := fillBytes inner.memory (newFrame.number * 4096 + dataBytesBeforeZero)
          (4096 - dataBytesBeforeZero) 0 }
    else pure inner
  let startPage := Page.containingAddress (← liftPanic do VirtAddr.new (← alignUp zeroStart.val 4096))
  let endPage := Page.containingAddress (← liftPanic (zeroEnd.sub 1))
  let pages ← liftPanic (Page.rangeInclusive startPage endPage)
  pages.foldlM
    (fun inner page => do
      let (frame, inner) ← inner.allocateFrame
      let inner := { inner with memory := fillBytes inner.memory (frame.number * 4096) 4096 0 }
      inner.mapTo page frame segmentFlags "Failed to map new frame for bss memory")
    inner

/-- The flags `handle_load_segment` maps a segment's pages with. -/
def segmentFlags (segment : Segment) : PageTableFlags :=
  { writable := segment.isWrite, noExecute := !segment.isExecute, copied := false }

/-- `handle_load_segment`: map the frames of the segment's file bytes, from
the page of its first virtual byte on; then `.bss`, if the segment has one. -/
def handleLoadSegment (inner : Inner) (segment : Segment) : Except LoadError Inner := do
  let physStartAddr ← liftPanic (inner.kernelOffset.add segment.offset)
  let startFrame := PhysFrame.containingAddress physStartAddr
  let endFrame := PhysFrame.containingAddress (← liftPanic do
    (← physStartAddr.add segment.fileSize).sub 1)
  let virtStartAddr ← liftPanic do
    VirtAddr.new (← virtualAddressOffsetAdd inner.virtualAddressOffset segment.virtualAddr)
  let startPage := Page.containingAddress virtStartAddr
  let inner ← (PhysFrame.rangeInclusive startFrame endFrame).foldlM
    (fun inner frame => do
      let page ← liftPanic (startPage.add (frame.number - startFrame.number))
      inner.mapTo page frame (segmentFlags segment) "map_to failed")
    inner
  if segment.fileSize < segment.memSize then inner.handleBssSection segment (segmentFlags segment)
  else pure inner

/-- `Step::forward_checked(addr, buf.len() - 1).expect(..)`: the last address
of the range, which both copy loops compute first. -/
def endInclusiveAddress (addr : VirtAddr) (len : Nat) : Except Panic VirtAddr := do
  match addr.forwardChecked (← Common.subU64 len 1) with
  | some a => pure a
  | none => throw .unwrapNone

/-- The part of `addr..=end_inclusive_addr` on `page`, as both copy loops
compute it: the offset of its first byte in the frame, its length, and the
offset of its first byte in the buffer. -/
def pageSpan (addr endInclusiveAddr : VirtAddr) (page : Page) : Except Panic (Nat × Nat × Nat) := do
  let pageStart := page.startAddress
  let pageEndInclusive ← pageStart.add 4095
  -- `cmp::max(addr, page_start)` and `cmp::min(end_inclusive_addr, page_end_inclusive)`
  let startCopyAddress := if addr.val ≤ pageStart.val then pageStart else addr
  let endInclusiveCopyAddress :=
    if endInclusiveAddr.val ≤ pageEndInclusive.val then endInclusiveAddr else pageEndInclusive
  let startOffsetInFrame ← Common.subU64 startCopyAddress.val pageStart.val
  let endInclusiveOffsetInFrame ← Common.subU64 endInclusiveCopyAddress.val pageStart.val
  let copyLen ← addU64 (← Common.subU64 endInclusiveOffsetInFrame startOffsetInFrame) 1
  let startOffsetInBuf ← match addr.stepsBetween startCopyAddress with
    | some n => pure n
    | none => throw .unwrapNone
  pure (startOffsetInFrame, copyLen, startOffsetInBuf)

/-- One round of `copy_from`'s loop: the page is translated, and the part of
the range on it is copied from its frame into the part of `buf` it stands
for. -/
def copyFromPage (inner : Inner) (addr endInclusiveAddr : VirtAddr) (buf : List UInt8)
    (page : Page) : Except Panic (List UInt8) := do
  let entry ← match inner.pageTable (page.startAddress.val / 4096) with
    | some entry => pure entry
    | none => throw .notMapped
  let (startOffsetInFrame, copyLen, startOffsetInBuf) ← pageSpan addr endInclusiveAddr page
  let startPhysAddr ← entry.frame.startAddress.add startOffsetInFrame
  writeSlice buf startOffsetInBuf
    ((List.range copyLen).map fun k => inner.memory (startPhysAddr.val + k))

/-- `copy_from`: fill `buf` from the kernel's address space at `addr`, one
page of the range after the other. -/
def copyFrom (inner : Inner) (addr : VirtAddr) (buf : List UInt8) : Except LoadError (List UInt8) := do
  let endInclusiveAddr ← liftPanic (endInclusiveAddress addr buf.length)
  let startPage := Page.containingAddress addr
  let endInclusivePage := Page.containingAddress endInclusiveAddr
  liftPanic ((Page.stepRange startPage endInclusivePage).foldlM
    (copyFromPage inner addr endInclusiveAddr) buf)

/-- One round of `copy_to`'s loop: the page is made private by `make_mut`,
and the part of `buf` for it is written to its frame. -/
def copyToPage (addr endInclusiveAddr : VirtAddr) (buf : List UInt8) (inner : Inner)
    (page : Page) : Except LoadError Inner := do
  let (frame, inner) ← inner.makeMut page
  liftPanic do
    let (startOffsetInFrame, copyLen, startOffsetInBuf) ← pageSpan addr endInclusiveAddr page
    let startPhysAddr ← frame.startAddress.add startOffsetInFrame
    let src ← sliceRange buf startOffsetInBuf copyLen
    pure { inner with memory := writeBytes inner.memory startPhysAddr.val src }

/-- `copy_to`: write `buf` to the kernel's address space at `addr`, one page
of the range after the other. -/
def copyTo (inner : Inner) (addr : VirtAddr) (buf : List UInt8) : Except LoadError Inner := do
  let endInclusiveAddr ← liftPanic (endInclusiveAddress addr buf.length)
  let startPage := Page.containingAddress addr
  let endInclusivePage := Page.containingAddress endInclusiveAddr
  (Page.stepRange startPage endInclusivePage).foldlM (copyToPage addr endInclusiveAddr buf) inner

/-- `check_is_in_load`: the unbiased virtual offset lies in a loadable segment. -/
def checkIsInLoad (segments : List Segment) (virtOffset : Nat) : Except LoadError Unit :=
  if segments.any fun s => s.type = .load ∧ s.virtualAddr ≤ virtOffset ∧
      virtOffset - s.virtualAddr < s.memSize then .ok ()
  else .error (.err "offset is not in load segment")

/-- `Rela<u64>`: `r_offset`, `r_info` and `r_addend`. -/
structure Rela where
  offset : Nat
  info : Nat
  addend : Nat
  deriving DecidableEq, Repr

/-- `read_relocation`: the `idx`-th entry of the relocation table, read from
the kernel's address space. -/
def readRelocation (inner : Inner) (relocationTable idx : Nat) : Except LoadError Rela := do
  let offset ← liftPanic (addU64 relocationTable (← liftPanic (mulU64 24 idx)))
  let value ← liftPanic (virtualAddressOffsetAdd inner.virtualAddressOffset offset)
  let addr ← liftPanic (VirtAddr.new value)
  let buf ← inner.copyFrom addr (List.replicate 24 0)
  pure ⟨ofLeBytes (buf.take 8), ofLeBytes ((buf.drop 8).take 8), ofLeBytes (buf.drop 16)⟩

/-- `apply_relocation`: only `R_AMD64_RELATIVE` (type 8) without a symbol,
which writes `virtual_address_offset + addend` at
`virtual_address_offset + offset`. -/
def applyRelocation (inner : Inner) (rela : Rela) (segments : List Segment) :
    Except LoadError Inner := do
  if rela.info / 2 ^ 32 % 2 ^ 32 ≠ 0 then throw (.panic .unsupported)
  if rela.info % 2 ^ 32 ≠ 8 then throw (.panic .unsupported)
  checkIsInLoad segments rela.offset
  let addr ← liftPanic do
    VirtAddr.new (← virtualAddressOffsetAdd inner.virtualAddressOffset rela.offset)
  let value ← liftPanic (virtualAddressOffsetAdd inner.virtualAddressOffset rela.addend)
  inner.copyTo addr (leBytes 8 value)

/-- One round of the loop of `handle_dynamic_segment` over the dynamic
section's entries, given `get_tag`: a `DT_RELA`, `DT_RELASZ` or `DT_RELAENT`
entry fills its slot, or stops the loop if the slot is full; `get_tag`'s
error stops the loop too; any other entry is skipped. -/
def findRelaEntry (getTag : Nat → Except LoadError DynamicTag) :
    Option Nat × Option Nat × Option Nat → Nat × Nat →
      Except LoadError (Option Nat × Option Nat × Option Nat)
  | (rela, relaSize, relaEnt), (tag, value) => do
    match ← getTag tag with
    | .rela =>
      if rela.isSome then throw (.err "Dynamic section contains more than one Rela entry")
      else pure (some value, relaSize, relaEnt)
    | .relaSize =>
      if relaSize.isSome then throw (.err "Dynamic section contains more than one RelaSize entry")
      else pure (rela, some value, relaEnt)
    | .relaEnt =>
      if relaEnt.isSome then throw (.err "Dynamic section contains more than one RelaEnt entry")
      else pure (rela, relaSize, some value)
    | .other => pure (rela, relaSize, relaEnt)

/-- The loop over the dynamic section's entries: the `DT_RELA`, `DT_RELASZ`
and `DT_RELAENT` entries, each at most once. -/
def findRelaEntries (getTag : Nat → Except LoadError DynamicTag) (entries : List (Nat × Nat)) :
    Except LoadError (Option Nat × Option Nat × Option Nat) :=
  entries.foldlM (findRelaEntry getTag) (none, none, none)

/-- `ProgramHeader::get_data` of a dynamic segment: its file bytes read as an
array of 16-byte `Dynamic<u64>` entries, `(d_tag, d_val)` pairs.
`zero::read_array` asserts that the length is a multiple of the entry size
and that the bytes, which the bootloader reads at `kernel_offset`, are
aligned for a `u64`. -/
def dynamicEntries (inner : Inner) (segment : Segment) : Except LoadError (List (Nat × Nat)) :=
  if segment.fileSize % 16 ≠ 0 ∨ (inner.kernelOffset.val + segment.offset) % 8 ≠ 0 then
    .error (.panic .assertFailed)
  else .ok <| (List.range (segment.fileSize / 16)).map fun k =>
    let entry := inner.kernelOffset.val + segment.offset + 16 * k
    (ofLeBytes ((List.range 8).map fun j => inner.memory (entry + j)),
      ofLeBytes ((List.range 8).map fun j => inner.memory (entry + 8 + j)))

/-- `handle_dynamic_segment`: apply every relocation of the `DT_RELA` table. -/
def handleDynamicSegment (inner : Inner) (segment : Segment) (segments : List Segment) :
    Except LoadError Inner := do
  let (rela, relaSize, relaEnt) ← findRelaEntries getTag (← inner.dynamicEntries segment)
  match rela with
  | none =>
    if relaSize.isSome || relaEnt.isSome then
      throw (.err "Rela entry is missing but RelaSize or RelaEnt have been provided")
    pure inner
  | some offset =>
    let totalSize ← match relaSize with
      | some v => pure v
      | none => throw (.err "RelaSize entry is missing")
    let entrySize ← match relaEnt with
      | some v => pure v
      | none => throw (.err "RelaEnt entry is missing")
    if entrySize ≠ 24 then throw (.panic .unsupported)
    (List.range (totalSize / entrySize)).foldlM
      (fun inner idx => do inner.applyRelocation (← inner.readRelocation offset idx) segments)
      inner

/-- The pages of a segment, from the one holding its first virtual byte to
the one holding its last; each must be mapped (relro and
`remove_copied_flags` panic otherwise). -/
def segmentPages (inner : Inner) (segment : Segment) : Except LoadError (List Page) := do
  let start ← liftPanic (virtualAddressOffsetAdd inner.virtualAddressOffset segment.virtualAddr)
  let stop ← liftPanic (addU64 start segment.memSize)
  let start ← liftPanic (VirtAddr.new start)
  let stop ← liftPanic (VirtAddr.new stop)
  let pages ← liftPanic do
    Page.rangeInclusive (Page.containingAddress start) (Page.containingAddress (← stop.sub 1))
  if pages.all fun page => (inner.pageTable (page.startAddress.val / 4096)).isSome then pure pages
  else throw (.panic .notMapped)

/-- Rewrite the flags of the given mapped pages (`update_flags`). -/
def updateFlags (inner : Inner) (pages : List Page) (f : PageTableFlags → PageTableFlags) : Inner :=
  pages.foldl
    (fun inner page => { inner with
      pageTable := Function.update inner.pageTable (page.startAddress.val / 4096)
        ((inner.pageTable (page.startAddress.val / 4096)).map fun e => { e with flags := f e.flags }) })
    inner

@[simp] theorem updateFlags_nil (inner : Inner) (f : PageTableFlags → PageTableFlags) :
    inner.updateFlags [] f = inner := rfl

theorem updateFlags_cons (inner : Inner) (page : Page) (pages : List Page)
    (f : PageTableFlags → PageTableFlags) :
    inner.updateFlags (page :: pages) f =
      Inner.updateFlags { inner with
        pageTable := Function.update inner.pageTable (page.startAddress.val / 4096)
          ((inner.pageTable (page.startAddress.val / 4096)).map fun e => { e with flags := f e.flags }) }
        pages f := rfl

/-- `handle_relro_segment`: clear `WRITABLE` on every page from the one
holding the segment's first byte to the one holding its last. -/
def handleRelroSegment (inner : Inner) (segment : Segment) : Except LoadError Inner := do
  let pages ← inner.segmentPages segment
  pure (inner.updateFlags pages fun flags => { flags with writable := false })

/-- `remove_copied_flags`: clear `COPIED` on every page of every loadable
segment. -/
def removeCopiedFlags (inner : Inner) (segments : List Segment) : Except LoadError Inner :=
  (segments.filter (·.type = .load)).foldlM
    (fun inner segment => do
      let pages ← inner.segmentPages segment
      pure (inner.updateFlags pages fun flags => { flags with copied := false }))
    inner

/-- `load_segments`: the loadable and TLS segments in order, then the
relocations of every dynamic segment, then relro, then the `COPIED` flags. -/
def loadSegments (inner : Inner) (segments : List Segment) :
    Except LoadError (Option TlsTemplate × Inner) := do
  let (tlsTemplate, inner) ← segments.foldlM
    (fun (tlsTemplate, inner) segment =>
      match segment.type with
      | .load => do pure (tlsTemplate, ← inner.handleLoadSegment segment)
      | .tls => if tlsTemplate.isNone then do
          let startAddr ← liftPanic
            (virtualAddressOffsetAdd inner.virtualAddressOffset segment.virtualAddr)
          pure (some ⟨startAddr, segment.memSize, segment.fileSize⟩, inner)
        else throw (.err "multiple TLS segments not supported")
      | _ => pure (tlsTemplate, inner))
    ((none : Option TlsTemplate), inner)
  let inner ← segments.foldlM
    (fun inner segment =>
      if segment.type = .dynamic then inner.handleDynamicSegment segment segments else pure inner)
    inner
  let inner ← segments.foldlM
    (fun inner segment =>
      if segment.type = .gnuRelro then inner.handleRelroSegment segment else pure inner)
    inner
  let inner ← inner.removeCopiedFlags segments
  return (tlsTemplate, inner)

/-! ## What the relocation check guarantees -/

/-- `check_is_in_load` accepts an offset exactly when some loadable segment
holds that one byte; the bytes after it are not looked at. -/
theorem checkIsInLoad_eq_ok {segments : List Segment} {virtOffset : Nat} :
    checkIsInLoad segments virtOffset = .ok () ↔
      ∃ s ∈ segments, s.type = .load ∧ s.virtualAddr ≤ virtOffset ∧
        virtOffset - s.virtualAddr < s.memSize := by
  unfold checkIsInLoad
  split
  · rename_i hany
    simpa using hany
  · rename_i hany
    simp only [reduceCtorEq, false_iff]
    simpa using hany

/-! ## Flag updates

`update_flags` rewrites flags and nothing else: the frames, and so what the
kernel reads, stay. Relro clears `WRITABLE` on whole pages, so on every byte
from the segment's start to the end of the page holding its last byte. -/

/-- `updateFlags` keeps physical memory and the allocator's frames. -/
@[simp] theorem memory_updateFlags (f : PageTableFlags → PageTableFlags) :
    ∀ (pages : List Page) (inner : Inner), (inner.updateFlags pages f).memory = inner.memory
  | [], _ => rfl
  | page :: pages, inner => by rw [updateFlags_cons, memory_updateFlags f pages]

/-- `updateFlags` keeps the virtual address offset. -/
@[simp] theorem virtualAddressOffset_updateFlags (f : PageTableFlags → PageTableFlags) :
    ∀ (pages : List Page) (inner : Inner),
      (inner.updateFlags pages f).virtualAddressOffset = inner.virtualAddressOffset
  | [], _ => rfl
  | page :: pages, inner => by rw [updateFlags_cons, virtualAddressOffset_updateFlags f pages]

/-- `updateFlags` keeps the frame of every entry. -/
theorem frame_updateFlags (f : PageTableFlags → PageTableFlags) :
    ∀ (pages : List Page) (inner : Inner) (p : Nat),
      ((inner.updateFlags pages f).pageTable p).map (·.frame) = (inner.pageTable p).map (·.frame)
  | [], _, _ => rfl
  | page :: pages, inner, p => by
    rw [updateFlags_cons, frame_updateFlags f pages]
    dsimp only
    by_cases hp : p = page.startAddress.val / 4096
    · subst hp
      rw [Function.update_self, Option.map_map]
      rfl
    · rw [Function.update_of_ne hp]

/-- `updateFlags` changes nothing the kernel reads. -/
@[simp] theorem readByte_updateFlags (f : PageTableFlags → PageTableFlags) (pages : List Page)
    (inner : Inner) (a : Nat) : (inner.updateFlags pages f).readByte a = inner.readByte a := by
  have hframe := frame_updateFlags f pages inner (a / 4096)
  unfold readByte
  rw [memory_updateFlags]
  -- the byte read depends on the entry through its frame only
  have hread : ∀ t : Nat → Option PageEntry,
      (t (a / 4096)).map (fun entry => inner.memory (entry.frame.number * 4096 + a % 4096)) =
        ((t (a / 4096)).map (·.frame)).map fun frame => inner.memory (frame.number * 4096 + a % 4096) :=
    fun t => by rw [Option.map_map]; rfl
  rw [hread, hframe, ← hread]

/-- With a rewrite that a second application does not change, `updateFlags`
rewrites once the flags of every listed page and keeps every other entry. -/
theorem pageTable_updateFlags {f : PageTableFlags → PageTableFlags}
    (hf : ∀ flags, f (f flags) = f flags) :
    ∀ (pages : List Page) (inner : Inner) (p : Nat),
      (inner.updateFlags pages f).pageTable p =
        if p ∈ pages.map (·.startAddress.val / 4096) then
          (inner.pageTable p).map fun e => { e with flags := f e.flags }
        else inner.pageTable p
  | [], _, _ => rfl
  | page :: pages, inner, p => by
    rw [updateFlags_cons, pageTable_updateFlags hf pages]
    simp only [List.map_cons, List.mem_cons]
    by_cases hp : p = page.startAddress.val / 4096
    · -- the first step rewrote this entry; a later one changes nothing more
      subst hp
      simp only [Function.update_self, true_or, if_true, Option.map_map]
      split_ifs
      · congr 1
        funext e
        simp [hf]
      · rfl
    · simp only [Function.update_of_ne hp, hp, false_or]

/-- The flags `updateFlags` leaves at a virtual address. -/
theorem flagsAt_updateFlags {f : PageTableFlags → PageTableFlags}
    (hf : ∀ flags, f (f flags) = f flags) (pages : List Page) (inner : Inner) (a : Nat) :
    (inner.updateFlags pages f).flagsAt a =
      if a / 4096 ∈ pages.map (·.startAddress.val / 4096) then (inner.flagsAt a).map f
      else inner.flagsAt a := by
  unfold flagsAt
  rw [pageTable_updateFlags hf]
  split_ifs
  · rw [Option.map_map, Option.map_map]
    rfl
  · rfl

/-- `segmentPages` lists the page of every address from the segment's
start, with the offset applied, to the end of the page of its last byte,
that lies in the start's half. -/
theorem segmentPages_covers {inner : Inner} {segment : Segment} {pages : List Page}
    (h : inner.segmentPages segment = .ok pages) :
    ∃ start, virtualAddressOffsetAdd inner.virtualAddressOffset segment.virtualAddr = .ok start ∧
      ∀ a : Nat, (a < 2 ^ 47 ∨ 0xffff800000000000 ≤ start) →
        start ≤ a → a < (start + segment.memSize - 1) / 4096 * 4096 + 4096 →
        a / 4096 ∈ pages.map (·.startAddress.val / 4096) := by
  unfold segmentPages at h
  simp only [Except.bind_eq_ok, liftPanic_eq_ok] at h
  obtain ⟨start, hstart, stop, hstop, startAddr, hstartAddr, stopAddr, hstopAddr, pages', hpages', h⟩ := h
  obtain ⟨last, hlast, hrange⟩ := hpages'
  split_ifs at h
  cases h
  have hstop := (addU64_eq_ok.mp hstop).2
  obtain ⟨hstartAcc, hstartVal⟩ := VirtAddr.new_eq_ok.mp hstartAddr
  obtain ⟨hstopAcc, hstopVal⟩ := VirtAddr.new_eq_ok.mp hstopAddr
  obtain ⟨-, hlastAcc, hlastVal⟩ := VirtAddr.sub_eq_ok.mp hlast
  -- sign extension only moves the end upwards
  have hstopLe : stop ≤ stopAddr.val := hstopVal ▸ VirtAddr.le_newTruncate_val hstopAcc
  have hlastLe : stopAddr.val - 1 ≤ last.val := hlastVal ▸ VirtAddr.le_newTruncate_val hlastAcc
  refine ⟨start, hstart, fun a hhalf hlo hhi => ?_⟩
  -- in the start's half, the start is not moved
  have hstartEq : startAddr.val = start := by
    rw [hstartVal, VirtAddr.newTruncate_val_of_canonical (canonical_of_half' hhalf hlo hstartAcc)]
  have hfirst : (Page.containingAddress startAddr).startAddress.val = start / 4096 * 4096 := by
    rw [Page.containingAddress_val, hstartEq]
  have hhalf' : a < 2 ^ 47 ∨ 0xffff800000000000 ≤ (Page.containingAddress startAddr).startAddress.val := by
    rw [hfirst]
    rcases hhalf with hlow | hup
    · exact .inl hlow
    · exact .inr (by omega)
  have hend : a < (Page.containingAddress last).startAddress.val + 4096 := by
    have hpage := Page.containingAddress_val last
    have hlastPage : (start + segment.memSize - 1) / 4096 ≤ last.val / 4096 :=
      Nat.div_le_div_right (by omega)
    omega
  -- the page of `a` lies in the range, and a page is named by its start
  obtain ⟨q, hq, hqlo, hqhi⟩ := Page.mem_rangeInclusive hrange a hhalf'
    (by rw [hfirst]; exact Nat.le_trans (Nat.div_mul_le_self start 4096) hlo) hend
  have hq4096 := q.aligned
  exact List.mem_map.mpr ⟨q, hq, by omega⟩

/-- After relro, every byte from the segment's start to the end of the page
of its last byte is read-only, and the kernel reads what it read before. -/
theorem handleRelroSegment_readOnly {inner inner' : Inner} {segment : Segment}
    (h : inner.handleRelroSegment segment = .ok inner') :
    (∃ start, virtualAddressOffsetAdd inner.virtualAddressOffset segment.virtualAddr = .ok start ∧
      ∀ a : Nat, (a < 2 ^ 47 ∨ 0xffff800000000000 ≤ start) →
        start ≤ a → a < (start + segment.memSize - 1) / 4096 * 4096 + 4096 →
        inner'.flagsAt a = (inner.flagsAt a).map fun flags => { flags with writable := false }) ∧
      ∀ a, inner'.readByte a = inner.readByte a := by
  unfold handleRelroSegment at h
  obtain ⟨pages, hpages, h⟩ := Except.bind_eq_ok.mp h
  rw [Except.pure_eq_ok] at h
  subst h
  obtain ⟨start, hstart, hcover⟩ := segmentPages_covers hpages
  refine ⟨⟨start, hstart, fun a hhalf hlo hhi => ?_⟩, readByte_updateFlags _ pages inner⟩
  rw [flagsAt_updateFlags (f := fun flags => { flags with writable := false }) (fun _ => rfl),
    if_pos (hcover a hhalf hlo hhi)]

/-! ## Private copies

`make_mut` moves a page to a fresh frame holding a copy of the old one. As
long as the frames the allocator hands out are mapped by no page, the kernel
reads the same bytes before and after. -/

/-- The frames the allocator hands out next are distinct, and no page maps
one of them. -/
def FreshFrames (inner : Inner) : Prop :=
  inner.frames.Nodup ∧ ∀ p entry, inner.pageTable p = some entry → entry.frame ∉ inner.frames

/-- What `make_mut` did when it returned: a page marked `COPIED` is returned
as it is, with its frame; any other took the allocator's next frame, which
now holds a copy of its old one, and keeps its flags with `COPIED` added. -/
theorem makeMut_cases {inner inner' : Inner} {page : Page} {frame : PhysFrame}
    (h : inner.makeMut page = .ok (frame, inner')) :
    ∃ entry, inner.pageTable (page.startAddress.val / 4096) = some entry ∧
      ((entry.flags.copied = true ∧ frame = entry.frame ∧ inner' = inner) ∨
        (entry.flags.copied = false ∧ inner.frames = frame :: inner'.frames ∧
          inner'.memory = copyFrame inner.memory entry.frame frame ∧
          inner'.pageTable = Function.update inner.pageTable (page.startAddress.val / 4096)
            (some ⟨frame, { entry.flags with copied := true }⟩))) := by
  unfold makeMut at h
  split at h
  · exact nomatch h
  · rename_i entry hentry
    refine ⟨entry, hentry, ?_⟩
    split_ifs at h with hcopied
    · rw [Except.ok.injEq, Prod.mk.injEq] at h
      exact .inl ⟨hcopied, h.1.symm, h.2.symm⟩
    · unfold allocateFrame at h
      split at h
      · exact nomatch h
      · rename_i newFrame frames hframes
        simp only [Except.ok_bind, Except.pure_eq_ok, Prod.mk.injEq] at h
        obtain ⟨rfl, rfl⟩ := h
        exact .inr ⟨by simpa using hcopied, hframes, rfl, rfl⟩

/-- `make_mut` keeps the allocator's frames fresh and changes nothing the
kernel reads. -/
theorem makeMut_readByte {inner inner' : Inner} {page : Page} {frame : PhysFrame}
    (hfresh : inner.FreshFrames) (h : inner.makeMut page = .ok (frame, inner')) :
    inner'.FreshFrames ∧ ∀ a, inner'.readByte a = inner.readByte a := by
  obtain ⟨entry, hentry, ⟨-, -, rfl⟩ | ⟨-, hframes, hmemory, htable⟩⟩ := makeMut_cases h
  · -- an already private page is written through in place
    exact ⟨hfresh, fun _ => rfl⟩
  -- a fresh frame: the next one the allocator hands out, which no page maps
  have hnodup := hfresh.1
  rw [hframes] at hnodup
  have hunused : ∀ p e, inner.pageTable p = some e → e.frame ≠ frame := by
    intro p e hp heq
    exact hfresh.2 p e hp (by rw [hframes, heq]; exact List.mem_cons_self)
  refine ⟨⟨(List.nodup_cons.mp hnodup).2, fun p e hp => ?_⟩, fun a => ?_⟩
  · -- the remapped page maps the new frame, every other page what it mapped
    rw [htable] at hp
    by_cases hpage : p = page.startAddress.val / 4096
    · subst hpage
      rw [Function.update_self, Option.some.injEq] at hp
      rw [← hp]
      exact (List.nodup_cons.mp hnodup).1
    · rw [Function.update_of_ne hpage] at hp
      exact fun hmem => hfresh.2 p e hp (by rw [hframes]; exact List.mem_cons_of_mem _ hmem)
  · unfold readByte
    rw [htable, hmemory]
    unfold copyFrame
    by_cases hpage : a / 4096 = page.startAddress.val / 4096
    · -- the remapped page reads the copy of its old frame
      simp only [hpage, Function.update_self, hentry, Option.map_some]
      rw [if_pos (by omega)]
      congr 2
      omega
    · -- any other page's frame lies outside the new frame
      simp only [Function.update_of_ne hpage]
      cases hp : inner.pageTable (a / 4096) with
      | none => rfl
      | some e =>
        have hnum : e.frame.number ≠ frame.number := fun heq => hunused _ e hp (PhysFrame.ext heq)
        simp only [Option.map_some]
        rw [if_neg (by omega)]

end Inner

/-- Two adjacent loadable segments, `[0, 0x1000)` and `[0x1000, 0x2000)`, and
a relocation at `0xffc`, in the first one's last four bytes:
`check_is_in_load` accepts it, no segment holds all 8 bytes it writes, and
the write changes the first byte of the second segment. -/
theorem applyRelocation_writes_past_segment :
    let segments : List Segment :=
      [⟨.load, 6, 0, 0, 0x1000, 0x1000, 0x1000⟩, ⟨.load, 6, 0x1000, 0x1000, 0x1000, 0x1000, 0x1000⟩]
    let inner : Inner := ⟨⟨0x100000, by decide⟩, 0, fun _ => none, fun a => UInt8.ofNat (a / 0x1000),
      [⟨0x200, by decide⟩, ⟨0x201, by decide⟩]⟩
    let rela : Inner.Rela := ⟨0xffc, 8, 0x1234⟩
    Inner.checkIsInLoad segments rela.offset = .ok () ∧
      (∀ s ∈ segments, s.virtualAddr ≤ rela.offset → s.virtualAddr + s.memSize < rela.offset + 8) ∧
      (do
        let inner ← segments.foldlM Inner.handleLoadSegment inner
        let inner' ← inner.applyRelocation rela segments
        pure (inner.readByte 0x1000, inner'.readByte 0x1000) : Except LoadError _) =
        .ok (some 1, some 0) := by
  decide +kernel

/-- A loadable segment whose virtual address and file offset differ modulo
the page size (`p_vaddr = 0x40_0800`, `p_offset = 0x1000`; `p_align = 1`
asks for no congruence): the loader maps the frame of the first file byte
at the page of the first virtual byte, so at `p_vaddr` the kernel sees the
file byte `0x800` past `p_offset`. -/
theorem loadSegments_misplaces_incongruent_segment :
    let inner : Inner :=
      ⟨⟨0x100000, by decide⟩, 0, fun _ => none, fun a => UInt8.ofNat (a / 0x800), []⟩
    (Inner.loadSegments inner [⟨.load, 6, 0x1000, 0x400800, 0x10, 0x10, 1⟩]).map
        (fun r => Inner.readByte r.2 0x400800) = .ok (some (inner.memory (0x100000 + 0x1800))) ∧
      inner.memory (0x100000 + 0x1800) ≠ inner.memory (0x100000 + 0x1000) := by
  decide +kernel

/-- A writable loadable segment over two pages, `[0x1000, 0x3000)`, whose
first `0x800` bytes a relro segment covers: after `load_segments`, `0x1800`,
past the relro range but on the page of its last byte, is no longer
writable. -/
theorem loadSegments_protects_relro_page_tail :
    let segments : List Segment :=
      [⟨.load, 6, 0, 0x1000, 0x2000, 0x2000, 0x1000⟩, ⟨.gnuRelro, 4, 0, 0x1000, 0x800, 0x800, 1⟩]
    let inner : Inner :=
      ⟨⟨0x100000, by decide⟩, 0, fun _ => none, fun a => UInt8.ofNat (a / 0x1000), []⟩
    segments.map Segment.isWrite = [true, false] ∧
      (Inner.loadSegments inner segments).map (fun r => (r.2.flagsAt 0x1800).map (·.writable)) =
        .ok (some false) := by
  decide +kernel

/-! ## `load_kernel` -/

/-- The parts of the kernel's ELF file the loader reads: the type, the
program headers and the entry point. -/
structure ElfFile where
  elfType : Common.ElfType
  programHeaders : List Segment
  entryPoint : Nat
  deriving DecidableEq, Repr

/-- What `load_kernel` returns: the virtual address offset (as a `VirtAddr`),
the entry point and the TLS template. -/
structure LoadedKernel where
  virtualAddressOffset : VirtAddr
  entryPoint : VirtAddr
  tlsTemplate : Option TlsTemplate
  deriving DecidableEq, Repr

/-- `load_kernel`: `Loader::new` (the kernel file must start on a page; the
placement of `Loader::new`, with `mark_segments`), then `load_segments`.
`virtual_address_offset() as u64` truncates the `i128` offset to 64 bits.
Returns the loader's state and the level-4 bookkeeping with the result. -/
def loadKernel (elfFile : ElfFile) (kernelOffset : PhysAddr) (pageTable : Nat → Option PageEntry)
    (memory : Nat → UInt8) (frames : List PhysFrame) (usedEntries : UsedLevel4Entries) :
    Except LoadError (LoadedKernel × Inner × UsedLevel4Entries) := do
  if kernelOffset.val % 4096 ≠ 0 then
    throw (.err "Loaded kernel ELF file is not sufficiently aligned")
  let (virtualAddressOffset, usedEntries, _) ← liftPanic
    (Common.placeKernel ⟨elfFile.elfType, elfFile.programHeaders.map Segment.toProgramHeader⟩
      usedEntries)
  let inner : Inner := ⟨kernelOffset, virtualAddressOffset, pageTable, memory, frames⟩
  let (tlsTemplate, inner) ← inner.loadSegments elfFile.programHeaders
  let offsetAddr ← liftPanic (VirtAddr.new (virtualAddressOffset % 2 ^ 64).toNat)
  let entryPoint ← liftPanic do
    VirtAddr.new (← virtualAddressOffsetAdd virtualAddressOffset elfFile.entryPoint)
  pure (⟨offsetAddr, entryPoint, tlsTemplate⟩, inner, usedEntries)

/-- A position-independent kernel whose lowest segment does not start on a
page (`p_vaddr = p_offset = 0x100`, `p_align = 0x1000`), loaded without
`aslr` while level-4 entry 0 is in use: the offset is `2^39 - 0x100`, not a
multiple of 4096, and at `bias + p_vaddr = 2^39` the kernel sees byte 0 of
the file, not byte `0x100`. -/
theorem loadKernel_misplaces_unaligned_pie :
    let elfFile : ElfFile :=
      ⟨.sharedObject, [⟨.load, 4, 0x100, 0x100, 0x10, 0x10, 0x1000⟩], 0x100⟩
    let memory : Nat → UInt8 := fun a => UInt8.ofNat (a / 0x100)
    (loadKernel elfFile ⟨0x100000, by decide⟩ (fun _ => none) memory [] ⟨fun i => i = 0, none⟩).map
        (fun r => (r.2.1.virtualAddressOffset, r.2.1.readByte (2 ^ 39))) =
      .ok (2 ^ 39 - 0x100, some (memory 0x100000)) ∧ memory 0x100000 ≠ memory 0x100100 := by
  decide +kernel

end Bootloader
