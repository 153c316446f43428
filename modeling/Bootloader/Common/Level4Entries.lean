/-
Bootloader.Common.Level4Entries — the bookkeeping of level-4 page table
entries (`common/src/level_4_entries.rs`).

`UsedLevel4Entries` records which of the 512 entries of the kernel's level-4
page table some mapping already uses. `new` marks the identity-mapped
physical memory, the frame buffer and every mapping the configuration fixes,
and everything outside the configured dynamic range; `mark_segments` marks
the kernel's loadable segments. `get_free_entries` then hands out a window of
contiguous unused entries and marks it, and `get_free_address` turns such a
window into an address for a mapping of a given size and alignment.

With `aslr` set, both choices are random. The random number generator is
modelled by the stream of numbers it draws: `IteratorRandom::choose` takes
some element of the window list, and `Uniform::from(0..n).sample` some
number below `n`, each from the next draws. Any sequence of choices the
generator makes is made by some stream, so a statement about every stream
covers every run of the generator. `Uniform::new` panics on an empty range.

`Layout::new::<BootInfo>()` is the `repr(C)` layout of `BootInfo`
(`api/src/info.rs`): 216 bytes at an alignment of 8.
-/
import Mathlib
import Bootloader.X86.VirtAddr
import Bootloader.Api.Config

namespace Bootloader

/-- The random number generator, as the stream of numbers it draws. -/
abbrev Rng := Stream' Nat

/-- `IteratorRandom::choose`: some element of the list, `None` on an empty one. -/
def choose {α : Type} (rng : Rng) (l : List α) : Option α × Rng :=
  match l with
  | [] => (none, rng)
  | _ :: _ => (l[rng.head % l.length]?, rng.tail)

/-- `Uniform::from(0..n).sample(rng)`: a number below `n`; `Uniform::new`
panics when the range is empty. -/
def sampleBelow (rng : Rng) (n : Nat) : Except Panic (Nat × Rng) :=
  if n = 0 then .error .emptyUniformRange else .ok (rng.head % n, rng.tail)

/-- `u64::is_power_of_two`. -/
def isPowerOfTwo (n : Nat) : Bool := n != 0 && n &&& (n - 1) == 0

/-! ## Layouts -/

/-- `core::alloc::Layout`. -/
structure Layout where
  size : Nat
  align : Nat
  deriving DecidableEq, Repr

namespace Layout

/-- `Layout::from_size_align`: the size rounded up to the alignment must not
exceed `isize::MAX`. -/
def fromSizeAlign (size align : Nat) : Except Panic Layout :=
  if roundUp size align ≤ 2 ^ 63 - 1 then .ok ⟨size, align⟩ else .error .layoutError

/-- `Layout::array::<T>(n).unwrap()` for a `T` of layout `t`. -/
def array (t : Layout) (n : Nat) : Except Panic Layout := fromSizeAlign (t.size * n) t.align

/-- `Layout::extend(next).unwrap()`: `next` placed after `self` at its
alignment; the combined layout and the offset of `next`. -/
def extend (self next : Layout) : Except Panic (Layout × Nat) := do
  let offset := roundUp self.size next.align
  let layout ← fromSizeAlign (offset + next.size) (max self.align next.align)
  pure (layout, offset)

end Layout

/-- `Layout::new::<BootInfo>()`. -/
def BOOT_INFO_LAYOUT : Layout := ⟨216, 8⟩

/-- `Layout::new::<MemoryRegion>()`: two `u64`s and a `repr(C)` kind of a
`u32` tag and a `u32` payload. -/
def MEMORY_REGION_LAYOUT : Layout := ⟨24, 8⟩

/-! ## Boot inputs the bookkeeping reads -/

/-- `RawFrameBufferInfo`: the frame buffer's physical start and its length
in bytes (`info.byte_len`). -/
structure RawFrameBufferInfo where
  addr : PhysAddr
  byteLen : Nat
  deriving DecidableEq, Repr

/-- A program header of the kernel ELF file: whether it is a `PT_LOAD`
segment, its virtual address, its size in memory and its alignment. -/
structure ProgramHeader where
  isLoad : Bool
  virtualAddr : Nat
  memSize : Nat
  align : Nat
  deriving DecidableEq, Repr

/-- `VirtualAddressOffset + u64`: the `i128` sum, which must fit a `u64`. -/
def virtualAddressOffsetAdd (offset : Int) (addr : Nat) : Except Panic Nat :=
  let sum := offset + addr
  if 0 ≤ sum ∧ sum < 2 ^ 64 then .ok sum.toNat else .error .tryFromIntError

/-! ## The bookkeeping -/

/-- `UsedLevel4Entries`. -/
structure UsedLevel4Entries where
  /-- Whether an entry is in use. -/
  entryState : Fin 512 → Bool
  /-- The random number generator, or `None` if `aslr` is disabled. -/
  rng : Option Rng

namespace UsedLevel4Entries

/-- `LEVEL_4_SIZE`: the bytes one level-4 entry maps, 512 GiB. -/
def LEVEL_4_SIZE : Nat := 4096 * 512 * 512 * 512

/-- Level-4 indices are `Fin 512`; its literals and `Fin.ofNat 512` use this
one named proof that 512 is not zero. -/
instance : NeZero 512 := ⟨by decide⟩

/-- `mark_p4_index_as_used`. -/
def markP4IndexAsUsed (self : UsedLevel4Entries) (p4Index : Fin 512) : UsedLevel4Entries :=
  { self with entryState := Function.update self.entryState p4Index true }

/-- The loop `for i in first..=last { mark_p4_index_as_used(PageTableIndex::new(i)) }`;
its indices stay below 512, where `PageTableIndex::new` does not panic. -/
def markP4Indices (self : UsedLevel4Entries) (first last : Nat) : UsedLevel4Entries :=
  (List.range' first (last + 1 - first)).foldl
    (fun used i => used.markP4IndexAsUsed (Fin.ofNat 512 i)) self

/-- `mark_range_as_used`: every level-4 entry from the one holding `address`
to the one holding the last byte of the range. -/
def markRangeAsUsed (self : UsedLevel4Entries) (address size : Nat) :
    Except Panic UsedLevel4Entries := do
  let start ← VirtAddr.new address
  let endInclusive ← (← start.add size).sub 1
  let startPage := Page.containingAddress start
  let endPageInclusive := Page.containingAddress endInclusive
  pure (self.markP4Indices startPage.p4Index endPageInclusive.p4Index)

/-- `mark_segments`: the range of every segment that occupies memory. -/
def markSegments (self : UsedLevel4Entries) (segments : List ProgramHeader)
    (virtualAddressOffset : Int) : Except Panic UsedLevel4Entries :=
  (segments.filter (fun s => 0 < s.memSize)).foldlM
    (fun used segment => do
      used.markRangeAsUsed (← virtualAddressOffsetAdd virtualAddressOffset segment.virtualAddr)
        segment.memSize)
    self

/-- `UsedLevel4Entries::new`. -/
def new (maxPhysAddr : PhysAddr) (regionsLen : Nat) (framebuffer : Option RawFrameBufferInfo)
    (config : BootloaderConfig) (entropy : Rng) : Except Panic UsedLevel4Entries := do
  let used : UsedLevel4Entries :=
    { entryState := fun _ => false, rng := if config.mappings.aslr then some entropy else none }
  -- the identity-mapped physical memory
  let used ← used.markRangeAsUsed 0 maxPhysAddr.val
  let used ← match framebuffer with
    | some frameBuffer => used.markRangeAsUsed frameBuffer.addr.val frameBuffer.byteLen
    | none => pure used
  -- the statically configured ranges
  let used ← match config.mappings.physicalMemory with
    | some (.fixedAddress physicalMemoryOffset) =>
      used.markRangeAsUsed physicalMemoryOffset.toNat maxPhysAddr.val
    | _ => pure used
  let used ← match config.mappings.pageTableRecursive with
    | some (.fixedAddress recursiveAddress) => do
      let recursiveIndex := (← VirtAddr.new recursiveAddress.toNat).p4Index
      pure (used.markP4IndexAsUsed recursiveIndex)
    | _ => pure used
  let used ← match config.mappings.kernelStack with
    | .fixedAddress kernelStackAddress =>
      used.markRangeAsUsed kernelStackAddress.toNat config.kernelStackSize.toNat
    | .dynamic => pure used
  let used ← match config.mappings.bootInfo with
    | .fixedAddress bootInfoAddress => do
      -- one region might be split into used/unused
      let regions := regionsLen + 1
      let memoryRegionsLayout ← MEMORY_REGION_LAYOUT.array regions
      let (combined, _) ← BOOT_INFO_LAYOUT.extend memoryRegionsLayout
      used.markRangeAsUsed bootInfoAddress.toNat combined.size
    | .dynamic => pure used
  let used ← match config.mappings.framebuffer, framebuffer with
    | .fixedAddress framebufferAddress, some framebuffer =>
      used.markRangeAsUsed framebufferAddress.toNat framebuffer.byteLen
    | _, _ => pure used
  -- everything before the dynamic range
  let used ← match config.mappings.dynamicRangeStart with
    | some dynamicRangeStart => do
      let startPage := Page.containingAddress (← VirtAddr.new dynamicRangeStart.toNat)
      match startPage.backwardOne with
      | some unusablePage => pure (used.markP4Indices 0 unusablePage.p4Index)
      | none => pure used
    | none => pure used
  -- everything after the dynamic range
  match config.mappings.dynamicRangeEnd with
    | some dynamicRangeEnd => do
      let endPage := Page.containingAddress (← VirtAddr.new dynamicRangeEnd.toNat)
      match endPage.forwardOne with
      | some unusablePage => pure (used.markP4Indices unusablePage.p4Index 511)
      | none => pure used
    | none => pure used

/-- Whether entry `i` is used; the windows below never reach past entry 511. -/
def isUsed (self : UsedLevel4Entries) (i : Nat) : Bool :=
  if h : i < 512 then self.entryState ⟨i, h⟩ else true

/-- The start indices of the windows of `num` contiguous unused entries:
`entry_state.windows(num).enumerate().filter(all unused).map(idx)`. -/
def freeEntries (self : UsedLevel4Entries) (num : Nat) : List Nat :=
  (List.range (512 + 1 - num)).filter fun idx => (List.range num).all fun i => !self.isUsed (idx + i)

/-- `get_free_entries`: the first index of `num` contiguous unused entries,
chosen at random with `aslr`; the entries are marked as used. -/
def getFreeEntries (self : UsedLevel4Entries) (num : Nat) :
    Except Panic (Fin 512 × UsedLevel4Entries) := do
  if num = 0 then throw .zeroWindowSize
  let freeEntries := self.freeEntries num
  let (idxOpt, rng) := match self.rng with
    | some rng => let (idx, rng) := choose rng freeEntries; (idx, some rng)
    | none => (freeEntries.head?, none)
  let some idx := idxOpt | throw .noUsableLevel4Entries
  let used := (List.range num).foldl
    (fun used i => used.markP4IndexAsUsed (Fin.ofNat 512 (idx + i))) { self with rng }
  pure (Fin.ofNat 512 idx, used)

/-- `get_free_address`: an address in unused level-4 entries, enough of them
for `size` bytes; with `aslr`, at a random `alignment`-multiple offset into
the first of them. -/
def getFreeAddress (self : UsedLevel4Entries) (size alignment : Nat) :
    Except Panic (VirtAddr × UsedLevel4Entries) := do
  if !isPowerOfTwo alignment then throw .notPowerOfTwo
  let level4Entries := (← addU64 size (LEVEL_4_SIZE - 1)) / LEVEL_4_SIZE
  let (p4Index, used) ← self.getFreeEntries level4Entries
  let base := (Page.fromPageTableIndices1GiB p4Index 0).startAddress
  let (offset, used) ← match used.rng with
    | some rng => do
      let maxOffset := LEVEL_4_SIZE - size % LEVEL_4_SIZE
      let (sample, rng) ← sampleBelow rng (maxOffset / alignment)
      pure (sample * alignment, { used with rng := some rng })
    | none => pure (0, used)
  pure (← base.add offset, used)

/-! ## Marking -/

@[simp] theorem markP4IndexAsUsed_rng (self : UsedLevel4Entries) (p4Index : Fin 512) :
    (self.markP4IndexAsUsed p4Index).rng = self.rng := rfl

@[simp] theorem markP4IndexAsUsed_entryState (self : UsedLevel4Entries) (p4Index j : Fin 512) :
    (self.markP4IndexAsUsed p4Index).entryState j = (decide (j = p4Index) || self.entryState j) := by
  by_cases h : j = p4Index
  · subst h
    simp [markP4IndexAsUsed]
  · simp [markP4IndexAsUsed, h]

/-- A loop of marks uses the entries it reaches and leaves every other one
as it was. -/
theorem foldl_markP4IndexAsUsed (f : Nat → Fin 512) (j : Fin 512) :
    ∀ (l : List Nat) (self : UsedLevel4Entries),
      (l.foldl (fun used i => used.markP4IndexAsUsed (f i)) self).entryState j =
          (self.entryState j || l.any fun i => decide (f i = j)) ∧
        (l.foldl (fun used i => used.markP4IndexAsUsed (f i)) self).rng = self.rng
  | [], _ => by simp
  | i :: l, self => by
    obtain ⟨hstate, hrng⟩ := foldl_markP4IndexAsUsed f j l (self.markP4IndexAsUsed (f i))
    rw [List.foldl_cons, hstate, hrng, markP4IndexAsUsed_entryState, markP4IndexAsUsed_rng,
      List.any_cons]
    refine ⟨?_, rfl⟩
    by_cases h : f i = j
    · simp [h]
    · simp [h, Ne.symm h]

theorem markP4Indices_entryState (self : UsedLevel4Entries) {first last : Nat} (hlast : last < 512)
    (j : Fin 512) :
    (self.markP4Indices first last).entryState j =
      (self.entryState j || decide (first ≤ j ∧ (j : Nat) ≤ last)) := by
  rw [markP4Indices, (foldl_markP4IndexAsUsed _ j _ self).1]
  congr 1
  rw [Bool.eq_iff_iff, List.any_eq_true, decide_eq_true_iff]
  constructor
  · rintro ⟨i, hi, hij⟩
    rw [List.mem_range'_1] at hi
    have hj : (j : Nat) = i % 512 := by rw [← of_decide_eq_true hij]; rfl
    omega
  · rintro ⟨h1, h2⟩
    refine ⟨j, List.mem_range'_1.mpr ⟨h1, by omega⟩, ?_⟩
    simp

@[simp] theorem markP4Indices_rng (self : UsedLevel4Entries) (first last : Nat) :
    (self.markP4Indices first last).rng = self.rng :=
  (foldl_markP4IndexAsUsed _ 0 _ self).2

/-! ## Handing out entries -/

theorem choose_mem {α : Type} {rng : Rng} {l : List α} {x : α} (h : (choose rng l).1 = some x) :
    x ∈ l := by
  unfold choose at h
  split at h
  · cases h
  · exact List.mem_of_getElem? h

theorem choose_isSome {α : Type} (rng : Rng) {l : List α} (h : l ≠ []) : (choose rng l).1.isSome := by
  have hlen : 0 < l.length := List.length_pos_iff.mpr h
  match l, h with
  | a :: l, _ =>
    show ((a :: l)[rng.head % (a :: l).length]?).isSome
    rw [List.getElem?_eq_getElem (Nat.mod_lt _ hlen)]
    rfl

theorem mem_freeEntries {self : UsedLevel4Entries} {num idx : Nat} :
    idx ∈ self.freeEntries num ↔ idx + num ≤ 512 ∧ ∀ i < num, self.isUsed (idx + i) = false := by
  simp only [freeEntries, List.mem_filter, List.mem_range, List.all_eq_true, Bool.not_eq_eq_eq_not,
    Bool.not_true]
  constructor
  · rintro ⟨hidx, hall⟩
    exact ⟨by omega, fun i hi => hall i hi⟩
  · rintro ⟨hidx, hall⟩
    exact ⟨by omega, fun i hi => hall i hi⟩

/-- The marks of `get_free_entries`' loop cover exactly the window. -/
theorem any_window {idx num : Nat} (hle : idx + num ≤ 512) (j : Fin 512) :
    ((List.range num).any fun i => decide (Fin.ofNat 512 (idx + i) = j)) =
      decide (idx ≤ j ∧ (j : Nat) < idx + num) := by
  rw [Bool.eq_iff_iff, List.any_eq_true, decide_eq_true_iff]
  constructor
  · rintro ⟨i, hi, hij⟩
    rw [List.mem_range] at hi
    have hj : (j : Nat) = (idx + i) % 512 := by rw [← of_decide_eq_true hij]; rfl
    omega
  · rintro ⟨h1, h2⟩
    refine ⟨j - idx, List.mem_range.mpr (by omega), ?_⟩
    simp only [decide_eq_true_iff, Fin.ext_iff, Fin.val_ofNat]
    omega

/-- What `get_free_entries` does when it returns: the window it hands out was
free, it is now used, and no other entry changed. Without `aslr` the window
is the first free one. -/
theorem getFreeEntries_eq_ok {self used : UsedLevel4Entries} {num : Nat} {p4Index : Fin 512}
    (h : self.getFreeEntries num = .ok (p4Index, used)) :
    0 < num ∧ (p4Index : Nat) ∈ self.freeEntries num ∧
      (∀ j, used.entryState j =
        (self.entryState j || decide ((p4Index : Nat) ≤ j ∧ (j : Nat) < p4Index + num))) ∧
      used.rng.isSome = self.rng.isSome ∧
      (self.rng = none → (self.freeEntries num).head? = some (p4Index : Nat)) := by
  unfold getFreeEntries at h
  by_cases hnum : num = 0
  · simp [hnum] at h
  rw [if_neg hnum] at h
  -- the index the iterator gives, at random or the first one
  obtain ⟨idx, rng, hidx, hsome, hfirst, h⟩ : ∃ idx rng,
      idx ∈ self.freeEntries num ∧ rng.isSome = self.rng.isSome ∧
      (self.rng = none → (self.freeEntries num).head? = some idx) ∧
      (Fin.ofNat 512 idx, (List.range num).foldl
        (fun used i => used.markP4IndexAsUsed (Fin.ofNat 512 (idx + i))) { self with rng }) =
        (p4Index, used) := by
    cases hself : self.rng with
    | none =>
      simp only [hself] at h
      cases hhead : (self.freeEntries num).head? with
      | none => simp [hhead] at h
      | some idx =>
        simp only [hhead, Except.pure_eq_ok] at h
        exact ⟨idx, none, List.mem_of_mem_head? hhead, rfl, fun _ => rfl, h⟩
    | some rng =>
      simp only [hself] at h
      cases hc : (choose rng (self.freeEntries num)).1 with
      | none => simp [hc] at h
      | some idx =>
        simp only [hc, Except.pure_eq_ok] at h
        exact ⟨idx, some (choose rng (self.freeEntries num)).2, choose_mem hc, rfl,
          fun h' => absurd h' (Option.some_ne_none _), h⟩
  obtain ⟨hle, -⟩ := mem_freeEntries.mp hidx
  obtain ⟨rfl, rfl⟩ := Prod.mk.inj h
  have hidx512 : (Fin.ofNat 512 idx : Nat) = idx := by
    rw [Fin.val_ofNat]
    exact Nat.mod_eq_of_lt (by omega)
  obtain ⟨-, hrng⟩ := foldl_markP4IndexAsUsed (fun i => Fin.ofNat 512 (idx + i)) 0 (List.range num)
    { self with rng }
  refine ⟨Nat.pos_of_ne_zero hnum, by rw [hidx512]; exact hidx, fun j => ?_, by rw [hrng]; exact hsome,
    fun hnone => by rw [hidx512]; exact hfirst hnone⟩
  rw [(foldl_markP4IndexAsUsed _ j _ _).1, hidx512, any_window hle]

/-- `get_free_entries` returns whenever a window of `num ≥ 1` free entries
exists, with `aslr` or without. -/
theorem getFreeEntries_isOk {self : UsedLevel4Entries} {num : Nat} (hnum : 0 < num)
    (hfree : self.freeEntries num ≠ []) : ∃ p4Index used, self.getFreeEntries num = .ok (p4Index, used) := by
  unfold getFreeEntries
  rw [if_neg (Nat.pos_iff_ne_zero.mp hnum)]
  cases hself : self.rng with
  | none =>
    obtain ⟨idx, hidx⟩ := Option.ne_none_iff_exists'.mp (mt List.head?_eq_none_iff.mp hfree)
    simp [hidx]
  | some rng =>
    obtain ⟨idx, hidx⟩ := Option.isSome_iff_exists.mp (choose_isSome rng hfree)
    simp [hidx]

/-! ## Addresses -/

/-- With `aslr`, `get_free_address` panics as soon as the offset range
`0..(LEVEL_4_SIZE - size % LEVEL_4_SIZE) / alignment` is empty: after it has
found the entries, `Uniform::new` refuses the range. -/
theorem getFreeAddress_eq_error_of_emptyRange {self : UsedLevel4Entries} {size alignment : Nat}
    (hpow : isPowerOfTwo alignment = true) (hsize : size + (LEVEL_4_SIZE - 1) < 2 ^ 64)
    (hrng : self.rng.isSome) (hfree : self.freeEntries ((size + (LEVEL_4_SIZE - 1)) / LEVEL_4_SIZE) ≠ [])
    (hpos : 0 < (size + (LEVEL_4_SIZE - 1)) / LEVEL_4_SIZE)
    (hzero : (LEVEL_4_SIZE - size % LEVEL_4_SIZE) / alignment = 0) :
    self.getFreeAddress size alignment = .error .emptyUniformRange := by
  obtain ⟨p4Index, used, hentries⟩ := getFreeEntries_isOk hpos hfree
  have hsome : used.rng.isSome := by rw [(getFreeEntries_eq_ok hentries).2.2.2.1]; exact hrng
  obtain ⟨rng, hused⟩ := Option.isSome_iff_exists.mp hsome
  have hadd : addU64 size (LEVEL_4_SIZE - 1) = .ok (size + (LEVEL_4_SIZE - 1)) :=
    addU64_eq_ok.mpr ⟨hsize, rfl⟩
  unfold getFreeAddress
  rw [hadd]
  simp only [hpow, Bool.not_true, Bool.false_eq_true, if_false]
  rw [Except.ok_bind, hentries, Except.ok_bind]
  simp only [hused, hzero, sampleBelow, if_true, Except.error_bind]

/-- Two runs of `get_free_address` outside its contract. With `aslr`, a size
4 KiB short of one level-4 entry at an alignment of 8 KiB panics whatever the
generator draws: the offset range is `0..4096 / 8192`, which is empty.
Without `aslr`, when entries 255 and 256 are the only two adjacent free
ones, a size of two entries gets the start of entry 255, and the range runs
from the top of the lower half into the non-canonical hole. -/
theorem getFreeAddress_outside_contract :
    (∀ rng : Rng,
      (⟨fun _ => false, some rng⟩ : UsedLevel4Entries).getFreeAddress (LEVEL_4_SIZE - 4096) 8192 =
        .error .emptyUniformRange) ∧
    ((⟨fun i => !((i : Nat) = 255 ∨ (i : Nat) = 256), none⟩ : UsedLevel4Entries).getFreeAddress
        (2 * LEVEL_4_SIZE) 4096).map (fun r => r.1.val) = .ok 0x7f8000000000 ∧
      ¬Canonical (0x7f8000000000 + LEVEL_4_SIZE) := by
  refine ⟨fun rng => getFreeAddress_eq_error_of_emptyRange ?pow ?size rfl ?free ?pos ?zero,
    ?hole, ?noncanonical⟩
  case free =>
    -- entry 0 starts a free window of one entry
    have hone : (LEVEL_4_SIZE - 4096 + (LEVEL_4_SIZE - 1)) / LEVEL_4_SIZE = 1 := by decide
    rw [hone]
    refine List.ne_nil_of_mem (mem_freeEntries.mpr ⟨by decide, fun i hi => ?_⟩ : 0 ∈ _)
    simp [isUsed]
    omega
  case pow => decide
  case size => decide
  case pos => decide
  case zero => decide
  case hole => decide +kernel
  case noncanonical => decide

end UsedLevel4Entries

end Bootloader
