/-
Bootloader.Common.MemoryMap — the memory map `construct_memory_map` hands
to the kernel: what it is, when it is returned, and what its usable regions
avoid.

The function is a loop over the descriptors that writes, for each, its
region whole or (when the region is usable) split at the used slices. Once
`Bootloader.Common.SplitRegion` has closed the inner loop, the outer one is
an *appending fold* (`Lib.Except`): each step appends one block. So the
memory map is

  `kernelMemoryMap slices ds`, the blocks of the descriptors in input order,

for `slices` the used slices rounded out to pages (`memoryMapSlices`).

* `constructMemoryMapStep_eq_ok` says what one step appends, whatever the
  used slices and even when their lazy rounding panics; with the fold rule,
  `constructMemoryMap_eq_ok` gives the map for every call that returns.
* `constructMemoryMap_of_lt` computes the call outright when nothing
  overflows: the map if it fits in the `regions` slice, and the "no more
  free entries" panic if not.
* The usable regions of the map avoid every used slice
  (`usableAvoids_kernelMemoryMap`), and when the descriptors are disjoint
  the map has at most one more region per descriptor than the used slices
  have endpoints (`length_kernelMemoryMap_le`).
-/
import Bootloader.Common.FrameAllocator
import Bootloader.Common.SplitRegion
import Bootloader.Bios.MemoryDescriptor

namespace Bootloader

namespace LegacyFrameAllocator

open LegacyMemoryRegion (start kind usableAfterBootloaderExit)
open Tiling

variable {D : Type} [LegacyMemoryRegion D]

/-! ## 1. The used slices -/

section Slices

omit [LegacyMemoryRegion D]

/-- `UsedMemorySlice::new_from_len`, exactly. -/
theorem newFromLen_eq_ok {start len : Nat} {slice : UsedMemorySlice} :
    UsedMemorySlice.newFromLen start len = .ok slice ↔
      start + len < 2 ^ 64 ∧ slice = { start, «end» := start + len } := by
  simp only [UsedMemorySlice.newFromLen, Except.bind_eq_ok, addU64_eq_ok, Except.pure_eq_ok]
  constructor
  · rintro ⟨e, ⟨h, rfl⟩, rfl⟩
    exact ⟨h, rfl⟩
  · rintro ⟨h, rfl⟩
    exact ⟨_, ⟨h, rfl⟩, rfl⟩

theorem newFromLen_eq_error {start len : Nat} {e : Panic}
    (h : UsedMemorySlice.newFromLen start len = .error e) : e = .addOverflow := by
  rcases Except.bind_eq_error.mp h with h | ⟨_, -, h⟩
  · exact addU64_eq_error h
  · cases h

/-- The ramdisk slice, whenever it is built. -/
theorem ramdiskSlice_eq_ok {ramdiskSliceStart : Option PhysAddr} {ramdiskSliceLen : Nat}
    {ramdiskSlice : Option UsedMemorySlice}
    (h : ramdiskSliceStart.mapM (fun start => UsedMemorySlice.newFromLen start.val ramdiskSliceLen)
      = .ok ramdiskSlice) :
    ramdiskSlice = ramdiskSliceStart.map
      fun start => { start := start.val, «end» := start.val + ramdiskSliceLen } := by
  cases ramdiskSliceStart with
  | none =>
    rw [Option.mapM_none, Except.pure_eq_ok] at h
    rw [← h, Option.map_none]
  | some start =>
    rw [Option.mapM_some, Except.map_eq_ok] at h
    obtain ⟨slice, hs, rfl⟩ := h
    rw [(newFromLen_eq_ok.mp hs).2, Option.map_some]

theorem ramdiskSlice_eq_error {ramdiskSliceStart : Option PhysAddr} {ramdiskSliceLen : Nat}
    {e : Panic}
    (h : ramdiskSliceStart.mapM (fun start => UsedMemorySlice.newFromLen start.val ramdiskSliceLen)
      = .error e) : e = .addOverflow := by
  cases ramdiskSliceStart with
  | none => cases h
  | some start =>
    rw [Option.mapM_some] at h
    cases hs : UsedMemorySlice.newFromLen start.val ramdiskSliceLen with
    | error e' =>
      rw [hs] at h
      cases h
      exact newFromLen_eq_error hs
    | ok slice =>
      rw [hs] at h
      cases h

/-- A used slice rounded out to pages, computed in `ℕ`. -/
def pageRounded (slice : UsedMemorySlice) : UsedMemorySlice :=
  { start := alignDown slice.start 0x1000, «end» := roundUp slice.end 0x1000 }

theorem roundSlice_eq_ok {slice s : UsedMemorySlice} (h : roundSlice slice = .ok s) :
    s = pageRounded slice := by
  simp only [roundSlice, Except.bind_eq_ok, Except.pure_eq_ok] at h
  obtain ⟨e, he, rfl⟩ := h
  rw [alignUp_eq_ok he]
  rfl

theorem roundSlice_of_lt {slice : UsedMemorySlice} (h : roundUp slice.end 0x1000 < 2 ^ 64) :
    roundSlice slice = .ok (pageRounded slice) := by
  rw [roundSlice, alignUp_of_lt h]
  rfl

theorem roundSlice_eq_error {slice : UsedMemorySlice} {e : Panic}
    (h : roundSlice slice = .error e) : e = .addOverflow := by
  rcases Except.bind_eq_error.mp h with h | ⟨_, -, h⟩
  · exact alignUp_eq_error h
  · cases h

end Slices

/-- The used slices `construct_memory_map` computes from its arguments,
rounded out to pages in `ℕ`. -/
def memoryMapSlices (self : LegacyFrameAllocator D) (kernelSliceStart : PhysAddr)
    (kernelSliceLen : Nat) (ramdiskSliceStart : Option PhysAddr) (ramdiskSliceLen : Nat) :
    List UsedMemorySlice :=
  (self.rawUsedSlices { start := kernelSliceStart.val, «end» := kernelSliceStart.val + kernelSliceLen }
    (ramdiskSliceStart.map fun start =>
      { start := start.val, «end» := start.val + ramdiskSliceLen })).map pageRounded

section UsedSlices

omit [LegacyMemoryRegion D]

variable {self : LegacyFrameAllocator D} {kernelSlice : UsedMemorySlice}
  {ramdiskSlice : Option UsedMemorySlice}

/-- Whenever the lazy rounding returns, it returns the slices rounded in `ℕ`. -/
theorem usedSlices_eq_ok {slices : List UsedMemorySlice}
    (h : self.usedSlices kernelSlice ramdiskSlice = .ok slices) :
    slices = (self.rawUsedSlices kernelSlice ramdiskSlice).map pageRounded :=
  List.eq_map_of_mapM_eq_ok (fun _ _ => roundSlice_eq_ok) h

theorem usedSlices_of_lt
    (h : ∀ slice ∈ self.rawUsedSlices kernelSlice ramdiskSlice, roundUp slice.end 0x1000 < 2 ^ 64) :
    self.usedSlices kernelSlice ramdiskSlice =
      .ok ((self.rawUsedSlices kernelSlice ramdiskSlice).map pageRounded) :=
  List.mapM_eq_ok_of_forall fun slice hs => roundSlice_of_lt (h slice hs)

theorem usedSlices_eq_error {e : Panic} (h : self.usedSlices kernelSlice ramdiskSlice = .error e) :
    e = .addOverflow := by
  obtain ⟨slice, -, he⟩ := List.exists_of_mapM_eq_error h
  exact roundSlice_eq_error he

end UsedSlices

/-! ## 2. One descriptor -/

/-- The region the loop body builds for a descriptor. -/
def descriptorRegion (d : D) : MemoryRegion :=
  { start := (start d).val, «end» := endAddr d, kind := regionKind d }

/-- The pieces the loop body writes for one descriptor, empty ones
included: a usable region is split at the used slices, any other is written
whole. -/
def descriptorPieces (slices : List UsedMemorySlice) (d : D) : List MemoryRegion :=
  if regionKind d = .usable then splitPieces slices (descriptorRegion d) else [descriptorRegion d]

/-- The regions one descriptor contributes to the memory map. -/
def block (slices : List UsedMemorySlice) (d : D) : List MemoryRegion :=
  (descriptorPieces slices d).filter nonEmpty

/-- The memory map a list of descriptors gives: their blocks, in order. -/
def kernelMemoryMap (slices : List UsedMemorySlice) (ds : List D) : List MemoryRegion :=
  ds.flatMap (block slices)

section Step

variable {regions : Nat} {us : Except Panic (List UsedMemorySlice)}
  {slices : List UsedMemorySlice} {written : List MemoryRegion} {d : D}

/-- The loop body, for a descriptor whose end is a valid address. -/
theorem constructMemoryMapStep_of_valid (hd : endAddr d < 2 ^ 52) :
    constructMemoryMapStep regions us written d =
      if regionKind d = .usable then splitAndAddRegion (descriptorRegion d) regions written us
      else addRegion (descriptorRegion d) regions written := by
  have hend : (start d).add (LegacyMemoryRegion.len d) = .ok ⟨endAddr d, hd⟩ :=
    PhysAddr.add_eq_ok.mpr rfl
  rw [constructMemoryMapStep, hend, Except.ok_bind]
  rfl

/-- A descriptor whose end is not a valid address stops the loop, on an
address check rather than for want of entries. -/
theorem constructMemoryMapStep_of_invalid (regions : Nat) (us : Except Panic (List UsedMemorySlice))
    (written : List MemoryRegion) (hd : ¬endAddr d < 2 ^ 52) :
    ∃ e, constructMemoryMapStep regions us written d = .error e ∧ e ≠ .noMoreFreeEntries := by
  rw [constructMemoryMapStep]
  cases hadd : (start d).add (LegacyMemoryRegion.len d) with
  | error e =>
    refine ⟨e, rfl, ?_⟩
    rcases PhysAddr.add_eq_error hadd with rfl | rfl <;> exact fun h => by cases h
  | ok endA =>
    have hval := PhysAddr.add_eq_ok.mp hadd
    have := endA.valid
    exact absurd (by unfold endAddr; omega) hd

/-- With the slices rounded, the loop body writes the descriptor's pieces. -/
theorem constructMemoryMapStep_eq (hd : endAddr d < 2 ^ 52) :
    constructMemoryMapStep regions (.ok slices) written d =
      addRegions regions written (descriptorPieces slices d) := by
  rw [constructMemoryMapStep_of_valid hd, descriptorPieces]
  split
  · exact splitAndAddRegion_eq slices regions _ written
  · exact addRegion_eq_addRegions _ regions written

theorem endAddr_lt_of_constructMemoryMapStep_eq_ok {written' : List MemoryRegion}
    (h : constructMemoryMapStep regions us written d = .ok written') : endAddr d < 2 ^ 52 := by
  by_contra hd
  obtain ⟨e, he, -⟩ := constructMemoryMapStep_of_invalid regions us written hd
  rw [he] at h
  cases h

/-- **Step.** The loop body, whenever it returns, has appended the
descriptor's block, for the slices the rounding yields; when the rounding
panics, only a descriptor with an empty usable region gets through, and its
block is empty. -/
theorem constructMemoryMapStep_eq_ok (hus : ∀ s, us = .ok s → s = slices)
    {written' : List MemoryRegion} (h : constructMemoryMapStep regions us written d = .ok written') :
    written' = written ++ block slices d := by
  have hd := endAddr_lt_of_constructMemoryMapStep_eq_ok h
  rw [constructMemoryMapStep_of_valid hd] at h
  unfold block descriptorPieces
  by_cases hk : regionKind d = .usable
  · rw [if_pos hk] at h ⊢
    cases us with
    | error e =>
      rw [splitAndAddRegion_of_error] at h
      split at h
      · rename_i hempty
        cases h
        rw [splitPieces_of_empty hempty, List.filter_nil, List.append_nil]
      · cases h
    | ok s =>
      obtain rfl := hus s rfl
      rw [splitAndAddRegion_eq] at h
      exact eq_append_of_addRegions_eq_ok h
  · rw [if_neg hk] at h ⊢
    rw [addRegion_eq_addRegions] at h
    exact eq_append_of_addRegions_eq_ok h

/-- The loop body does not run out of entries while the descriptor's block
still fits, when the rounding does not panic that way either. -/
theorem constructMemoryMapStep_ne_noMoreFreeEntries (hus : ∀ s, us = .ok s → s = slices)
    (herr : ∀ e, us = .error e → e ≠ .noMoreFreeEntries)
    (hroom : (written ++ block slices d).length ≤ regions) :
    constructMemoryMapStep regions us written d ≠ .error .noMoreFreeEntries := by
  by_cases hd : endAddr d < 2 ^ 52
  · rw [constructMemoryMapStep_of_valid hd]
    unfold block descriptorPieces at hroom
    by_cases hk : regionKind d = .usable
    · rw [if_pos hk] at hroom ⊢
      cases us with
      | error e =>
        -- the rounding panicked: the loop stops with that panic or writes nothing
        rw [splitAndAddRegion_of_error]
        split
        · exact fun h => by cases h
        · exact fun h => herr e rfl (Except.error.inj h)
      | ok s =>
        obtain rfl := hus s rfl
        rw [splitAndAddRegion_eq, addRegions_of_le hroom]
        exact fun h => by cases h
    · rw [if_neg hk] at hroom ⊢
      rw [addRegion_eq_addRegions, addRegions_of_le hroom]
      exact fun h => by cases h
  · obtain ⟨e, he, hne⟩ := constructMemoryMapStep_of_invalid regions us written hd
    rw [he]
    exact fun h => hne (Except.error.inj h)

end Step

/-! ## 3. The whole map -/

section Map

variable {self : LegacyFrameAllocator D} {regions : Nat} {kernelSliceStart : PhysAddr}
  {kernelSliceLen : Nat} {ramdiskSliceStart : Option PhysAddr} {ramdiskSliceLen : Nat}

/-- **Run.** `construct_memory_map`, whenever it returns, returns the blocks
of the descriptors in input order, for the rounded used slices. -/
theorem constructMemoryMap_eq_ok {out : List MemoryRegion}
    (h : self.constructMemoryMap regions kernelSliceStart kernelSliceLen ramdiskSliceStart
      ramdiskSliceLen = .ok out) :
    out = kernelMemoryMap
      (self.memoryMapSlices kernelSliceStart kernelSliceLen ramdiskSliceStart ramdiskSliceLen)
      self.original := by
  rw [constructMemoryMap, Except.bind_eq_ok] at h
  obtain ⟨kernelSlice, hkernel, h⟩ := h
  rw [Except.bind_eq_ok] at h
  obtain ⟨ramdiskSlice, hramdisk, h⟩ := h
  obtain ⟨-, rfl⟩ := newFromLen_eq_ok.mp hkernel
  obtain rfl := ramdiskSlice_eq_ok hramdisk
  have hfold := List.foldlM_eq_ok_of_append
    (fun _ _ _ hstep => constructMemoryMapStep_eq_ok (fun _ hs => usedSlices_eq_ok hs) hstep) h
  rw [hfold, List.nil_append]
  rfl

/-- The fold over descriptors whose ends are valid, with the slices
rounded: the pieces of all of them, written in one go. -/
theorem foldlM_constructMemoryMapStep {slices : List UsedMemorySlice} :
    ∀ {ds : List D}, (∀ d ∈ ds, endAddr d < 2 ^ 52) → ∀ written : List MemoryRegion,
      ds.foldlM (constructMemoryMapStep regions (.ok slices)) written =
        addRegions regions written (ds.flatMap (descriptorPieces slices))
  | [], _, written => rfl
  | d :: ds, hvalid, written => by
      rw [List.foldlM_cons, constructMemoryMapStep_eq (hvalid d List.mem_cons_self),
        List.flatMap_cons, addRegions_append]
      congr 1
      funext written'
      exact foldlM_constructMemoryMapStep (fun d' hd' => hvalid d' (List.mem_cons_of_mem d hd'))
        written'

/-- **Exact result.** When no slice end overflows once rounded and every
descriptor ends at a valid address, `construct_memory_map` returns the map
if it fits in the `regions` slice, and otherwise panics for want of
entries. -/
theorem constructMemoryMap_of_lt
    (hkernel : roundUp (kernelSliceStart.val + kernelSliceLen) 0x1000 < 2 ^ 64)
    (hramdisk : ∀ start ∈ ramdiskSliceStart, roundUp (start.val + ramdiskSliceLen) 0x1000 < 2 ^ 64)
    (hvalid : ∀ d ∈ self.original, endAddr d < 2 ^ 52) :
    self.constructMemoryMap regions kernelSliceStart kernelSliceLen ramdiskSliceStart
        ramdiskSliceLen =
      let map := kernelMemoryMap
        (self.memoryMapSlices kernelSliceStart kernelSliceLen ramdiskSliceStart ramdiskSliceLen)
        self.original
      if map.length ≤ regions then .ok map else .error .noMoreFreeEntries := by
  have hk : UsedMemorySlice.newFromLen kernelSliceStart.val kernelSliceLen =
      .ok { start := kernelSliceStart.val, «end» := kernelSliceStart.val + kernelSliceLen } :=
    newFromLen_eq_ok.mpr ⟨lt_of_le_of_lt (le_roundUp _) hkernel, rfl⟩
  have hr : ramdiskSliceStart.mapM
      (fun start => UsedMemorySlice.newFromLen start.val ramdiskSliceLen) =
      .ok (ramdiskSliceStart.map
        fun start => { start := start.val, «end» := start.val + ramdiskSliceLen }) := by
    cases ramdiskSliceStart with
    | none => rfl
    | some start =>
      have hs := hramdisk start rfl
      rw [Option.mapM_some, newFromLen_eq_ok.mpr ⟨lt_of_le_of_lt (le_roundUp _) hs, rfl⟩]
      rfl
  -- the frames handed out end on a page boundary below `2 ^ 52`
  have hround : ∀ slice ∈ self.rawUsedSlices
      { start := kernelSliceStart.val, «end» := kernelSliceStart.val + kernelSliceLen }
      (ramdiskSliceStart.map fun start =>
        { start := start.val, «end» := start.val + ramdiskSliceLen }),
      roundUp slice.end 0x1000 < 2 ^ 64 := by
    intro slice hs
    simp only [rawUsedSlices, List.cons_append, List.nil_append, List.mem_cons] at hs
    rcases hs with rfl | rfl | hs
    · have := self.nextFrame.valid
      simp only [PhysFrame.startAddress_val, roundUp]
      omega
    · exact hkernel
    · cases ramdiskSliceStart with
      | none => cases hs
      | some start =>
        simp only [Option.map_some, Option.toList_some, List.mem_singleton] at hs
        rw [hs]
        exact hramdisk start rfl
  have hslices := usedSlices_of_lt hround
  rw [constructMemoryMap, hk, Except.ok_bind, hr, Except.ok_bind, hslices,
    foldlM_constructMemoryMapStep hvalid, addRegions_eq, List.nil_append, List.length_nil,
    Nat.sub_zero, List.filter_flatMap]
  rfl

end Map

/-! ## 4. What the map holds -/

/-- A descriptor's region is usable in the map when the descriptor is usable
or becomes usable once the bootloader exits. -/
theorem regionKind_eq_usable {d : D} :
    regionKind d = .usable ↔ usableAfterBootloaderExit d = true ∨ kind d = .usable := by
  unfold regionKind
  split
  · rename_i h
    simp only [h, true_or]
  · rename_i h
    simp only [h, Bool.false_eq_true, false_or]

section Blocks

variable (slices : List UsedMemorySlice)

/-- **Tiling.** Each block tiles its descriptor's range `[start, start + len)`. -/
theorem tiles_block (d : D) :
    Tiles MemoryRegion.start MemoryRegion.end (start d).val (endAddr d) (block slices d) := by
  have hle : (start d).val ≤ endAddr d := Nat.le_add_right _ _
  unfold block descriptorPieces
  split
  · exact tiles_splitPieces slices (descriptorRegion d) hle
  · -- written whole: one piece, or none for an empty descriptor
    by_cases hne : (start d).val = endAddr d
    · rw [List.filter_cons_of_neg (by simp [nonEmpty, descriptorRegion, hne]), List.filter_nil]
      exact hne
    · rw [List.filter_cons_of_pos (by simp [nonEmpty, descriptorRegion, hne]), List.filter_nil]
      exact ⟨rfl, by show (start d).val < endAddr d; omega, rfl⟩

theorem block_of_not_usable {d : D} (hk : regionKind d ≠ .usable) :
    block slices d = [descriptorRegion d].filter nonEmpty := by
  unfold block descriptorPieces
  rw [if_neg hk]

/-- **Kinds.** A usable descriptor's block holds bootloader pieces inside a
used slice and usable pieces that meet none. -/
theorem pieceOk_block {d : D} (hk : regionKind d = .usable) :
    ∀ r ∈ block slices d, PieceOk slices r := by
  unfold block descriptorPieces
  rw [if_pos hk]
  exact splitPieces_kind slices (descriptorRegion d) hk

/-- The usable regions of a list meet none of the used slices. -/
def UsableAvoids (written : List MemoryRegion) : Prop :=
  ∀ r ∈ written, r.kind = .usable →
    ∀ slice ∈ slices, Disjoint r.addrs (Set.Ico slice.start slice.end)

theorem usableAvoids_block (d : D) : UsableAvoids slices (block slices d) := by
  intro r hr hkr
  by_cases hk : regionKind d = .usable
  · rcases pieceOk_block slices hk r hr with ⟨hboot, -⟩ | ⟨-, hdisj⟩
    · rw [hkr] at hboot
      cases hboot
    · exact hdisj
  · -- a region written whole keeps the descriptor's kind, which is not usable
    rw [block_of_not_usable slices hk] at hr
    have hr' := List.mem_singleton.mp (List.mem_of_mem_filter hr)
    subst hr'
    exact absurd hkr hk

theorem usableAvoids_kernelMemoryMap (ds : List D) :
    UsableAvoids slices (kernelMemoryMap slices ds) := by
  intro r hr
  obtain ⟨d, -, hrd⟩ := List.mem_flatMap.mp hr
  exact usableAvoids_block slices d r hrd

/-- A block has at most one region more than there are slice endpoints
strictly inside its descriptor. -/
theorem length_block_le (d : D) :
    (block slices d).length ≤ 1 + (inside (endpoints slices) (start d).val (endAddr d)).card := by
  unfold block descriptorPieces
  split
  · have h : ((splitPieces slices (descriptorRegion d)).filter nonEmpty).length ≤
        if (start d).val < endAddr d
        then 1 + (inside (endpoints slices) (start d).val (endAddr d)).card else 0 :=
      length_splitPieces_le slices (descriptorRegion d) (Nat.le_add_right _ _)
    split at h <;> omega
  · exact (List.length_filter_le _ _).trans (by simp)

theorem length_kernelMemoryMap_le_sum : ∀ ds : List D,
    (kernelMemoryMap slices ds).length ≤ ds.length +
      ((ds.map fun d => ((start d).val, endAddr d)).map
        fun iv => (inside (endpoints slices) iv.1 iv.2).card).sum
  | [] => by simp [kernelMemoryMap]
  | d :: ds => by
      have hd := length_block_le slices d
      have hds := length_kernelMemoryMap_le_sum ds
      simp only [kernelMemoryMap, List.flatMap_cons, List.length_append, List.map_cons,
        List.sum_cons, List.length_cons] at hds ⊢
      omega

/-- **Count.** Over descriptors whose ranges are pairwise disjoint, the map
has at most one region per descriptor plus one per slice endpoint: each
endpoint cuts at most one descriptor. -/
theorem length_kernelMemoryMap_le {ds : List D}
    (hdisj : ds.Pairwise fun d e => Disjoint (descriptorRegion d).addrs (descriptorRegion e).addrs) :
    (kernelMemoryMap slices ds).length ≤ ds.length + (endpoints slices).card := by
  have hpd : PairwiseDisjoint (ds.map fun d => ((start d).val, endAddr d)) :=
    List.pairwise_map.mpr hdisj
  have hsum := length_kernelMemoryMap_le_sum slices ds
  have hinside := sum_card_inside_le (endpoints slices) hpd
  have hall := card_insideAny_le (endpoints slices) (ds.map fun d => ((start d).val, endAddr d))
  omega

end Blocks

omit [LegacyMemoryRegion D] in
theorem length_memoryMapSlices_le (self : LegacyFrameAllocator D) (kernelSliceStart : PhysAddr)
    (kernelSliceLen : Nat) (ramdiskSliceStart : Option PhysAddr) (ramdiskSliceLen : Nat) :
    (self.memoryMapSlices kernelSliceStart kernelSliceLen ramdiskSliceStart
      ramdiskSliceLen).length ≤ 3 := by
  cases ramdiskSliceStart <;> simp [memoryMapSlices, rawUsedSlices]

/-- With pairwise disjoint descriptors, the map fits in
`memory_map_max_region_count` entries. -/
theorem length_kernelMemoryMap_le_maxRegionCount {self : LegacyFrameAllocator D}
    (kernelSliceStart : PhysAddr) (kernelSliceLen : Nat) (ramdiskSliceStart : Option PhysAddr)
    (ramdiskSliceLen : Nat)
    (hdisj : self.original.Pairwise
      fun d e => Disjoint (descriptorRegion d).addrs (descriptorRegion e).addrs) :
    (kernelMemoryMap (self.memoryMapSlices kernelSliceStart kernelSliceLen ramdiskSliceStart
      ramdiskSliceLen) self.original).length ≤ self.memoryMapMaxRegionCount := by
  have hmap := length_kernelMemoryMap_le
    (self.memoryMapSlices kernelSliceStart kernelSliceLen ramdiskSliceStart ramdiskSliceLen) hdisj
  have hends := card_endpoints_le
    (self.memoryMapSlices kernelSliceStart kernelSliceLen ramdiskSliceStart ramdiskSliceLen)
  have hslices := length_memoryMapSlices_le self kernelSliceStart kernelSliceLen
    ramdiskSliceStart ramdiskSliceLen
  unfold memoryMapMaxRegionCount len
  omega

/-! ## 5. The allocator's frames and the map -/

/-- **Used memory is never usable.** From an allocator built by
`new_starting_at` (or `new`), along any run of `allocate_frame` calls, the
frames handed out strictly increase; and no usable region of the memory map
built afterwards meets one of those frames, the kernel slice or the ramdisk
slice, each rounded out to pages. -/
theorem usable_regions_avoid_used_memory (frame : PhysFrame) (memoryMap : List D) (n : Nat)
    (frames : List (Option PhysFrame)) (self : LegacyFrameAllocator D) (regions : Nat)
    (kernelSliceStart : PhysAddr) (kernelSliceLen : Nat) (ramdiskSliceStart : Option PhysAddr)
    (ramdiskSliceLen : Nat) (out : List MemoryRegion)
    (hrun : allocateFrames n (newStartingAt frame memoryMap) = .ok (frames, self))
    (hmap : self.constructMemoryMap regions kernelSliceStart kernelSliceLen ramdiskSliceStart
      ramdiskSliceLen = .ok out) :
    (frames.filterMap id).Pairwise (· < ·) ∧
      ∀ r ∈ out, r.kind = .usable →
        (∀ f ∈ frames.filterMap id,
          Disjoint r.addrs (Set.Ico f.startAddress.val (f.startAddress.val + 4096))) ∧
        Disjoint r.addrs (Set.Ico (alignDown kernelSliceStart.val 4096)
          (roundUp (kernelSliceStart.val + kernelSliceLen) 4096)) ∧
        ∀ start ∈ ramdiskSliceStart, Disjoint r.addrs
          (Set.Ico (alignDown start.val 4096) (roundUp (start.val + ramdiskSliceLen) 4096)) := by
  obtain ⟨-, hmin, -, hpw, hframes⟩ := allocateFrames_eq_ok hrun
  refine ⟨hpw, fun r hr hk => ?_⟩
  rw [constructMemoryMap_eq_ok hmap] at hr
  -- the usable region avoids each raw used slice, rounded
  have hslice : ∀ slice ∈ self.rawUsedSlices
      { start := kernelSliceStart.val, «end» := kernelSliceStart.val + kernelSliceLen }
      (ramdiskSliceStart.map fun start =>
        { start := start.val, «end» := start.val + ramdiskSliceLen }),
      Disjoint r.addrs (Set.Ico (pageRounded slice).start (pageRounded slice).end) :=
    fun slice hs => usableAvoids_kernelMemoryMap _ self.original r hr hk _ (List.mem_map_of_mem hs)
  refine ⟨fun f hf => ?_,
    hslice { start := kernelSliceStart.val, «end» := kernelSliceStart.val + kernelSliceLen }
      (by simp [rawUsedSlices]), fun start hs => ?_⟩
  · -- a frame handed out lies in `[min_frame, next_frame)`, the first used slice
    obtain ⟨hlo, hhi⟩ := hframes f hf
    have hused := hslice
      { start := self.minFrame.startAddress.val, «end» := self.nextFrame.startAddress.val }
      (by simp [rawUsedSlices])
    have hminf : self.minFrame ≤ f := hmin ▸ hlo
    simp only [pageRounded, PhysFrame.startAddress_val] at hused ⊢
    simp only [PhysFrame.le_iff, PhysFrame.lt_iff] at hminf hhi
    refine hused.mono_right (Set.Ico_subset_Ico ?_ ?_)
    · unfold alignDown
      omega
    · unfold roundUp
      omega
  · cases ramdiskSliceStart with
    | none => cases hs
    | some start' =>
      obtain rfl : start = start' := (Option.some_injective _ hs).symm
      exact hslice { start := start.val, «end» := start.val + ramdiskSliceLen }
        (by simp [rawUsedSlices])

/-- One usable BIOS entry of four frames at 1 MiB, two frames handed out,
and a kernel of one page at 2 MiB: the map keeps the two frames back. -/
theorem used_memory_avoided_on_bios_map :
    allocateFrames 2
        (newStartingAt lowerMemEnd [(⟨⟨0x100000, 0x4000, 1⟩, (by decide)⟩ : Bios.MemoryRegion)]) =
      .ok ([some ⟨0x100, (by decide)⟩, some ⟨0x101, (by decide)⟩],
        { original := [⟨⟨0x100000, 0x4000, 1⟩, (by decide)⟩], memoryMap := [],
          currentDescriptor := some ⟨⟨0x100000, 0x4000, 1⟩, (by decide)⟩,
          nextFrame := ⟨0x102, (by decide)⟩, minFrame := ⟨0x100, (by decide)⟩ }) ∧
    ({ original := [⟨⟨0x100000, 0x4000, 1⟩, (by decide)⟩], memoryMap := [],
       currentDescriptor := some ⟨⟨0x100000, 0x4000, 1⟩, (by decide)⟩,
       nextFrame := ⟨0x102, (by decide)⟩, minFrame := ⟨0x100, (by decide)⟩ } :
        LegacyFrameAllocator Bios.MemoryRegion).constructMemoryMap 7 ⟨0x200000, (by decide)⟩ 0x1000
        none 0 =
      .ok [⟨0x100000, 0x102000, .bootloader⟩, ⟨0x102000, 0x104000, .usable⟩] ∧
    (([some ⟨0x100, (by decide)⟩, some ⟨0x101, (by decide)⟩] : List (Option PhysFrame)).filterMap
        id).Pairwise (· < ·) ∧
      ∀ r ∈ ([⟨0x100000, 0x102000, .bootloader⟩, ⟨0x102000, 0x104000, .usable⟩] :
          List MemoryRegion), r.kind = .usable →
        (∀ f ∈ ([some ⟨0x100, (by decide)⟩, some ⟨0x101, (by decide)⟩] :
            List (Option PhysFrame)).filterMap id,
          Disjoint r.addrs (Set.Ico f.startAddress.val (f.startAddress.val + 4096))) ∧
        Disjoint r.addrs (Set.Ico (alignDown 0x200000 4096) (roundUp (0x200000 + 0x1000) 4096)) ∧
        ∀ start ∈ (none : Option PhysAddr), Disjoint r.addrs
          (Set.Ico (alignDown start.val 4096) (roundUp (start.val + 0) 4096)) := by
  refine ⟨?hrun, ?hmap, usable_regions_avoid_used_memory _ _ _ _ _ _ _ _ _ _ _ ?hrun ?hmap⟩
  case hrun => decide
  case hmap =>
    -- the region is cut at the two frames handed out; the kernel lies outside it
    rw [constructMemoryMap_of_lt (by decide) (by simp) (by decide)]
    have hS : memoryMapSlices
        ({ original := [⟨⟨0x100000, 0x4000, 1⟩, (by decide)⟩], memoryMap := [],
           currentDescriptor := some ⟨⟨0x100000, 0x4000, 1⟩, (by decide)⟩,
           nextFrame := ⟨0x102, (by decide)⟩, minFrame := ⟨0x100, (by decide)⟩ } :
          LegacyFrameAllocator Bios.MemoryRegion) ⟨0x200000, (by decide)⟩ 0x1000 none 0 =
        [⟨0x100000, 0x102000⟩, ⟨0x200000, 0x201000⟩] := by
      decide
    have hfirst : (overlaps (descriptorRegion (⟨⟨0x100000, 0x4000, 1⟩, (by decide)⟩ : Bios.MemoryRegion))
        [⟨0x100000, 0x102000⟩, ⟨0x200000, 0x201000⟩]).minOn? (·.1) = some (0x100000, 0x102000) := by
      decide
    have hrest : (overlaps { descriptorRegion (⟨⟨0x100000, 0x4000, 1⟩, (by decide)⟩ :
        Bios.MemoryRegion) with start := 0x102000 }
        [⟨0x100000, 0x102000⟩, ⟨0x200000, 0x201000⟩]).minOn? (·.1) = none := by
      decide
    have hsplit : splitPieces [⟨0x100000, 0x102000⟩, ⟨0x200000, 0x201000⟩]
        (descriptorRegion (⟨⟨0x100000, 0x4000, 1⟩, (by decide)⟩ : Bios.MemoryRegion)) =
        [⟨0x100000, 0x100000, .usable⟩, ⟨0x100000, 0x102000, .bootloader⟩,
          ⟨0x102000, 0x104000, .usable⟩] := by
      rw [splitPieces_of_some (by decide) hfirst, splitPieces_of_none (by decide) hrest]
      rfl
    have hk : regionKind (⟨⟨0x100000, 0x4000, 1⟩, (by decide)⟩ : Bios.MemoryRegion) = .usable := by
      decide
    simp only [hS, kernelMemoryMap, List.flatMap_cons, List.flatMap_nil, block, descriptorPieces,
      if_pos hk, hsplit]
    decide

/-- What `construct_memory_map` returns, block by block, for `slices` the
used slices rounded out to pages. -/
structure MemoryMapSpec (self : LegacyFrameAllocator D) (regions : Nat)
    (kernelSliceStart : PhysAddr) (kernelSliceLen : Nat) (ramdiskSliceStart : Option PhysAddr)
    (ramdiskSliceLen : Nat) (slices : List UsedMemorySlice) : Prop where
  /-- The blocks of the descriptors in input order, if they fit. -/
  result : self.constructMemoryMap regions kernelSliceStart kernelSliceLen ramdiskSliceStart
      ramdiskSliceLen =
    if (self.original.flatMap (block slices)).length ≤ regions
    then .ok (self.original.flatMap (block slices)) else .error .noMoreFreeEntries
  /-- No region is empty. -/
  nonEmpty : ∀ r ∈ self.original.flatMap (block slices), r.start < r.end
  /-- Each block tiles its descriptor's range. -/
  tiles : ∀ d ∈ self.original,
    Tiles MemoryRegion.start MemoryRegion.end (start d).val (endAddr d) (block slices d)
  /-- A descriptor that stays reserved is one region, of its own kind. -/
  reserved : ∀ d ∈ self.original, usableAfterBootloaderExit d = false → kind d ≠ .usable →
    (start d).val < endAddr d →
      block slices d = [{ start := (start d).val, «end» := endAddr d, kind := kind d }]
  /-- Any other is cut into bootloader regions inside a used slice and usable
  regions that meet none. -/
  usable : ∀ d ∈ self.original, usableAfterBootloaderExit d = true ∨ kind d = .usable →
    ∀ r ∈ block slices d, PieceOk slices r

/-- **The memory map, exactly.** When no used slice ends past `u64` once
rounded out to a page and every descriptor ends at a valid address,
`construct_memory_map` does what `MemoryMapSpec` says. -/
theorem constructMemoryMap_spec (self : LegacyFrameAllocator D) (regions : Nat)
    (kernelSliceStart : PhysAddr) (kernelSliceLen : Nat) (ramdiskSliceStart : Option PhysAddr)
    (ramdiskSliceLen : Nat)
    (hkernel : roundUp (kernelSliceStart.val + kernelSliceLen) 0x1000 < 2 ^ 64)
    (hramdisk : ∀ start ∈ ramdiskSliceStart, roundUp (start.val + ramdiskSliceLen) 0x1000 < 2 ^ 64)
    (hvalid : ∀ d ∈ self.original, endAddr d < 2 ^ 52) :
    MemoryMapSpec self regions kernelSliceStart kernelSliceLen ramdiskSliceStart ramdiskSliceLen
      (self.memoryMapSlices kernelSliceStart kernelSliceLen ramdiskSliceStart ramdiskSliceLen) where
  result := constructMemoryMap_of_lt hkernel hramdisk hvalid
  nonEmpty r hr := by
    obtain ⟨d, -, hrd⟩ := List.mem_flatMap.mp hr
    exact (Tiles.mem_bounds (tiles_block _ d) hrd).2.1
  tiles d _ := tiles_block _ d
  reserved d _ hexit hkind hne := by
    have hk : regionKind d = kind d := by
      unfold regionKind
      rw [if_neg (by simp [hexit])]
    have hwritten : nonEmpty (descriptorRegion d) = true := by
      simp [nonEmpty, descriptorRegion, Nat.ne_of_lt hne]
    rw [block_of_not_usable _ (hk ▸ hkind), List.filter_cons_of_pos hwritten, List.filter_nil]
    simp [descriptorRegion, hk]
  usable d _ hu := pieceOk_block _ (regionKind_eq_usable.mpr hu)

/-- A fresh allocator over one usable BIOS entry, with the kernel at 2 MiB. -/
theorem memoryMapSpec_on_bios_map :
    roundUp ((⟨0x200000, (by decide)⟩ : PhysAddr).val + 0x1000) 0x1000 < 2 ^ 64 ∧
    (∀ start ∈ (none : Option PhysAddr), roundUp (start.val + 0) 0x1000 < 2 ^ 64) ∧
    (∀ d ∈ (new [(⟨⟨0x100000, 0x4000, 1⟩, (by decide)⟩ : Bios.MemoryRegion)]).original,
      endAddr d < 2 ^ 52) ∧
    MemoryMapSpec (new [(⟨⟨0x100000, 0x4000, 1⟩, (by decide)⟩ : Bios.MemoryRegion)]) 7
      ⟨0x200000, (by decide)⟩ 0x1000 none 0
      ((new [(⟨⟨0x100000, 0x4000, 1⟩, (by decide)⟩ : Bios.MemoryRegion)]).memoryMapSlices
        ⟨0x200000, (by decide)⟩ 0x1000 none 0) := by
  refine ⟨?hkernel, ?hramdisk, ?hvalid, constructMemoryMap_spec _ _ _ _ _ _ ?hkernel ?hramdisk ?hvalid⟩
  case hkernel => decide
  case hramdisk => simp
  case hvalid => decide

/-- `construct_memory_map` panics, with room to spare in `regions`, on an
E820 entry that ends exactly at `2 ^ 52`, whose `start + len` fits a `u64`
but is no valid address, and on a kernel slice whose end leaves `u64`. -/
theorem constructMemoryMap_panics_on_overflow :
    (new [(⟨⟨2 ^ 52 - 0x1000, 0x1000, 2⟩, (by decide)⟩ : Bios.MemoryRegion)]).constructMemoryMap 7
        ⟨0x200000, (by decide)⟩ 0x1000 none 0 = .error .physAddrNotValid ∧
      (new ([] : List Bios.MemoryRegion)).constructMemoryMap 6 ⟨1, (by decide)⟩ (2 ^ 64 - 1) none 0 =
        .error .addOverflow := by
  decide

/-- **The map fits.** Whatever the allocator's state and the slices, when
the descriptors' ranges are pairwise disjoint, `construct_memory_map`
returns at most `memory_map_max_region_count` regions, and given exactly
that many entries it never panics for want of one. -/
theorem constructMemoryMap_fits_maxRegionCount (self : LegacyFrameAllocator D)
    (kernelSliceStart : PhysAddr) (kernelSliceLen : Nat) (ramdiskSliceStart : Option PhysAddr)
    (ramdiskSliceLen : Nat)
    (hdisj : self.original.Pairwise
      fun d e => Disjoint (descriptorRegion d).addrs (descriptorRegion e).addrs) :
    (∀ regions out, self.constructMemoryMap regions kernelSliceStart kernelSliceLen
        ramdiskSliceStart ramdiskSliceLen = .ok out → out.length ≤ self.memoryMapMaxRegionCount) ∧
      self.constructMemoryMap self.memoryMapMaxRegionCount kernelSliceStart kernelSliceLen
        ramdiskSliceStart ramdiskSliceLen ≠ .error .noMoreFreeEntries := by
  have hlen := length_kernelMemoryMap_le_maxRegionCount kernelSliceStart kernelSliceLen
    ramdiskSliceStart ramdiskSliceLen hdisj
  refine ⟨fun regions out h => constructMemoryMap_eq_ok h ▸ hlen, fun h => ?_⟩
  rw [constructMemoryMap] at h
  -- the two slices are built first; they can only overflow
  rcases Except.bind_eq_error.mp h with hk | ⟨kernelSlice, hk, h⟩
  · exact absurd (newFromLen_eq_error hk) (by decide)
  rcases Except.bind_eq_error.mp h with hr | ⟨ramdiskSlice, hr, h⟩
  · exact absurd (ramdiskSlice_eq_error hr) (by decide)
  obtain ⟨-, rfl⟩ := newFromLen_eq_ok.mp hk
  obtain rfl := ramdiskSlice_eq_ok hr
  -- the fold appends one block per descriptor, and together they fit
  refine List.foldlM_ne_error_of_append .noMoreFreeEntries self.memoryMapMaxRegionCount
    (fun _ _ _ hstep => constructMemoryMapStep_eq_ok (fun _ hs => usedSlices_eq_ok hs) hstep)
    (fun _ _ hroom => constructMemoryMapStep_ne_noMoreFreeEntries
      (fun _ hs => usedSlices_eq_ok hs) (fun e he => by rw [usedSlices_eq_error he]; decide) hroom)
    ?_ h
  rw [List.nil_append]
  exact hlen

/-- Two disjoint usable BIOS entries, below 640 KiB and at 1 MiB. -/
theorem maxRegionCount_fits_bios_map :
    (new [(⟨⟨0, 0x9fc00, 1⟩, (by decide)⟩ : Bios.MemoryRegion),
        ⟨⟨0x100000, 0x7ff00000, 1⟩, (by decide)⟩]).original.Pairwise
      (fun d e => Disjoint (descriptorRegion d).addrs (descriptorRegion e).addrs) ∧
    (∀ regions out, (new [(⟨⟨0, 0x9fc00, 1⟩, (by decide)⟩ : Bios.MemoryRegion),
        ⟨⟨0x100000, 0x7ff00000, 1⟩, (by decide)⟩]).constructMemoryMap regions
        ⟨0x200000, (by decide)⟩ 0x1000 none 0 = .ok out →
      out.length ≤ (new [(⟨⟨0, 0x9fc00, 1⟩, (by decide)⟩ : Bios.MemoryRegion),
        ⟨⟨0x100000, 0x7ff00000, 1⟩, (by decide)⟩]).memoryMapMaxRegionCount) ∧
    (new [(⟨⟨0, 0x9fc00, 1⟩, (by decide)⟩ : Bios.MemoryRegion),
        ⟨⟨0x100000, 0x7ff00000, 1⟩, (by decide)⟩]).constructMemoryMap
      (new [(⟨⟨0, 0x9fc00, 1⟩, (by decide)⟩ : Bios.MemoryRegion),
        ⟨⟨0x100000, 0x7ff00000, 1⟩, (by decide)⟩]).memoryMapMaxRegionCount
      ⟨0x200000, (by decide)⟩ 0x1000 none 0 ≠ .error .noMoreFreeEntries := by
  refine ⟨?hdisj, constructMemoryMap_fits_maxRegionCount _ _ _ _ _ ?hdisj⟩
  case hdisj =>
    simp [new, newStartingAt, MemoryRegion.addrs, descriptorRegion, Set.Ico_disjoint_Ico,
      endAddr]
    decide

end LegacyFrameAllocator

end Bootloader
