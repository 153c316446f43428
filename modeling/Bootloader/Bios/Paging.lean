/-
Bootloader.Bios.Paging — the page tables the BIOS stages run on
(`bios/stage-3/src/paging.rs`, `bios/stage-4/src/main.rs`).

Stage 3 builds by hand the tables it enters long mode with: one level-4
table, one level-3 table and ten level-2 tables, statics the linker places,
whose entries map the first 10 GiB with 2 MiB pages. `createMappings_walk`:
through them the processor translates every address below 10 GiB to itself
and no other address at all.

Stage 4 keeps those tables as the bootloader's page table. It computes
`max_phys_addr`, the end of the highest memory region capped at 4 GiB, and
identity-maps the 2 MiB frames from 10 GiB up to the one holding
`max_phys_addr - 1`, "the remaining physical memory". The cap lies below
10 GiB, so that range is always empty: the loop never calls `identity_map`,
whatever that does, and `stage4_identity_mapped` puts the two stages
together: stage 4 runs on stage 3's tables unchanged, and every address
below `max_phys_addr` translates to itself.

The statics' placement is what the linker guarantees and `Stage3Statics`
carries it: each table page-aligned (`#[repr(align(4096))]`), below 4 GiB
(stage 3 runs in 32-bit mode and stores 32-bit pointers), the three not
overlapping. `LEVEL_4` and `LEVEL_3` start out zeroed (`PageTable::empty()`);
the `LEVEL_2` tables are written whole. Loading CR3 and the mode switches of
`enable_paging` are left out: CR3 holds the address of `LEVEL_4`. The
`identity_map` of the `x86_64` crate is a parameter, since no run calls it.
-/
import Bootloader.X86.PageWalk
import Bootloader.Bios.MemoryDescriptor
import Bootloader.Common.SetUpMappings

namespace Bootloader

namespace Bios

open PageWalk

/-! ## Stage 3 -/

/-- Where the linker put stage 3's statics `LEVEL_4`, `LEVEL_3` and
`LEVEL_2`, the last ten tables one after the other. -/
structure Stage3Statics where
  level4 : Nat
  level3 : Nat
  level2 : Nat
  aligned : level4 % 4096 = 0 ∧ level3 % 4096 = 0 ∧ level2 % 4096 = 0
  below4GiB : level4 + 4096 ≤ 2 ^ 32 ∧ level3 + 4096 ≤ 2 ^ 32 ∧ level2 + 10 * 4096 ≤ 2 ^ 32
  disjoint : (level4 + 4096 ≤ level3 ∨ level3 + 4096 ≤ level4) ∧
    (level4 + 4096 ≤ level2 ∨ level2 + 10 * 4096 ≤ level4) ∧
    (level3 + 4096 ≤ level2 ∨ level2 + 10 * 4096 ≤ level3)

/-- `common_flags`: PRESENT | WRITABLE. -/
def commonFlags : Nat := 0b11

/-- The stores of `create_mappings`, in program order: the level-4 entry,
then for each level-2 table its level-3 entry and its 512 huge-page entries. -/
def createMappingsWrites (s : Stage3Statics) : List (Nat × Nat) :=
  (s.level4, s.level3 ||| commonFlags) ::
    (List.range 10).flatMap fun i =>
      (s.level3 + 8 * i, (s.level2 + 4096 * i) ||| commonFlags) ::
        (List.range 512).map fun j =>
          (s.level2 + 4096 * i + 8 * j,
            (i * 1024 * 1024 * 1024 + j * (2 * 1024 * 1024)) ||| commonFlags ||| (1 <<< 7))

/-- `create_mappings`. -/
def createMappings (s : Stage3Statics) (mem : Nat → Nat) : Nat → Nat :=
  writeWords mem (createMappingsWrites s)

/-- The statics start out as `PageTable::empty()`: `LEVEL_4` and `LEVEL_3`
hold zeros. -/
def ZeroedStatics (s : Stage3Statics) (mem : Nat → Nat) : Prop :=
  ∀ k < 512, mem (s.level4 + 8 * k) = 0 ∧ mem (s.level3 + 8 * k) = 0

section Stage3

variable (s : Stage3Statics)

/-- The stores of `create_mappings`, with each `|` of flags onto an aligned
address read as a sum. -/
theorem mem_createMappingsWrites {w : Nat × Nat} :
    w ∈ createMappingsWrites s ↔ w = (s.level4, s.level3 + 3) ∨
      ∃ i < 10, w = (s.level3 + 8 * i, s.level2 + 4096 * i + 3) ∨
        ∃ j < 512, w = (s.level2 + 4096 * i + 8 * j, i * 2 ^ 30 + j * 2 ^ 21 + 131) := by
  have hal := s.aligned
  have h4 : s.level3 ||| commonFlags = s.level3 + 3 :=
    lor_eq_add (k := 12) (by simpa using hal.2.1) (by decide)
  have h3 : ∀ i, (s.level2 + 4096 * i) ||| commonFlags = s.level2 + 4096 * i + 3 := fun i =>
    lor_eq_add (k := 12) (by simp only [Nat.reducePow]; omega) (by decide)
  -- the two flags of a huge-page entry are one `|` of 131
  have h2 : ∀ i j, (i * 1024 * 1024 * 1024 + j * (2 * 1024 * 1024)) ||| commonFlags ||| (1 <<< 7) =
      i * 2 ^ 30 + j * 2 ^ 21 + 131 := by
    intro i j
    rw [Nat.lor_assoc, show commonFlags ||| (1 <<< 7) = 131 from rfl,
      lor_eq_add (k := 8) (by simp only [Nat.reducePow]; omega) (by decide)]
    omega
  simp only [createMappingsWrites, h4, h3, h2, List.mem_cons, List.mem_flatMap, List.mem_range,
    List.mem_map]
  constructor
  · rintro (rfl | ⟨i, hi, rfl | ⟨j, hj, rfl⟩⟩)
    · exact .inl rfl
    · exact .inr ⟨i, hi, .inl rfl⟩
    · exact .inr ⟨i, hi, .inr ⟨j, hj, rfl⟩⟩
  · rintro (rfl | ⟨i, hi, rfl | ⟨j, hj, rfl⟩⟩)
    · exact .inl rfl
    · exact .inr ⟨i, hi, .inl rfl⟩
    · exact .inr ⟨i, hi, .inr ⟨j, hj, rfl⟩⟩

/-- No store of `create_mappings` hits an address that none of its three
kinds of entry names. -/
theorem createMappings_of_ne {mem : Nat → Nat} {a : Nat} (h4 : a ≠ s.level4)
    (h3 : ∀ i < 10, a ≠ s.level3 + 8 * i)
    (h2 : ∀ i < 10, ∀ j < 512, a ≠ s.level2 + 4096 * i + 8 * j) :
    createMappings s mem a = mem a := by
  apply writeWords_of_not_mem
  intro w hw
  rcases (mem_createMappingsWrites s).mp hw with rfl | ⟨i, hi, rfl | ⟨j, hj, rfl⟩⟩
  · exact Ne.symm h4
  · exact Ne.symm (h3 i hi)
  · exact Ne.symm (h2 i hi j hj)

/-- The level-4 table: entry 0 points at `LEVEL_3`, the others stay zero. -/
theorem createMappings_level4 {mem : Nat → Nat} (hzero : ZeroedStatics s mem) {k : Nat} (hk : k < 512) :
    createMappings s mem (s.level4 + 8 * k) = if k = 0 then s.level3 + 3 else 0 := by
  have hal := s.aligned
  have hdis := s.disjoint
  split_ifs with hk0
  · subst hk0
    apply writeWords_of_mem ((mem_createMappingsWrites s).mpr (.inl rfl))
    intro w hw hwa
    rcases (mem_createMappingsWrites s).mp hw with rfl | ⟨i, hi, rfl | ⟨j, hj, rfl⟩⟩
    · rfl
    · simp only at hwa
      omega
    · simp only at hwa
      omega
  · rw [createMappings_of_ne s (by omega) (fun i _ => by omega) (fun i _ j _ => by omega)]
    exact (hzero k hk).1

/-- The level-3 table: entry `i` points at the `i`-th level-2 table for
`i < 10`, the others stay zero. -/
theorem createMappings_level3 {mem : Nat → Nat} (hzero : ZeroedStatics s mem) {k : Nat} (hk : k < 512) :
    createMappings s mem (s.level3 + 8 * k) = if k < 10 then s.level2 + 4096 * k + 3 else 0 := by
  have hal := s.aligned
  have hdis := s.disjoint
  split_ifs with hk10
  · apply writeWords_of_mem ((mem_createMappingsWrites s).mpr (.inr ⟨k, hk10, .inl rfl⟩))
    intro w hw hwa
    rcases (mem_createMappingsWrites s).mp hw with rfl | ⟨i, hi, rfl | ⟨j, hj, rfl⟩⟩
    · simp only at hwa
      omega
    · simp only at hwa
      have hik : i = k := by omega
      rw [hik]
    · simp only at hwa
      omega
  · rw [createMappings_of_ne s (by omega) (fun i _ => by omega) (fun i _ j _ => by omega)]
    exact (hzero k hk).2

/-- The `i`-th level-2 table: entry `j` is the 2 MiB page at
`i GiB + j * 2 MiB`, present, writable and huge. -/
theorem createMappings_level2 {mem : Nat → Nat} {i j : Nat} (hi : i < 10) (hj : j < 512) :
    createMappings s mem (s.level2 + 4096 * i + 8 * j) = i * 2 ^ 30 + j * 2 ^ 21 + 131 := by
  have hal := s.aligned
  have hdis := s.disjoint
  apply writeWords_of_mem ((mem_createMappingsWrites s).mpr (.inr ⟨i, hi, .inr ⟨j, hj, rfl⟩⟩))
  intro w hw hwa
  rcases (mem_createMappingsWrites s).mp hw with rfl | ⟨i', hi', rfl | ⟨j', hj', rfl⟩⟩
  · simp only at hwa
    omega
  · simp only at hwa
    omega
  · simp only at hwa
    -- an entry's address names its table and its index
    obtain ⟨rfl, rfl⟩ : i' = i ∧ j' = j := by omega
    rfl

/-- Through stage 3's tables every canonical address below 10 GiB translates
to itself, and every other one to nothing. -/
theorem createMappings_walk {mem : Nat → Nat} (hzero : ZeroedStatics s mem) {addr : Nat}
    (hcanon : Canonical addr) :
    walk (createMappings s mem) s.level4 addr = if addr < 10 * 2 ^ 30 then some addr else none := by
  have hal := s.aligned
  have hbelow := s.below4GiB
  unfold Canonical at hcanon
  -- CR3 and the table entries name page-aligned addresses below 4 GiB
  have hcr3 : nextTable s.level4 = s.level4 := by unfold nextTable; omega
  have hnext3 : nextTable (s.level3 + 3) = s.level3 := by unfold nextTable; omega
  have hnext2 : ∀ i < 10, nextTable (s.level2 + 4096 * i + 3) = s.level2 + 4096 * i := by
    intro i hi
    unfold nextTable
    omega
  have hp3 : present (s.level3 + 3) = true := by simp only [present, beq_iff_eq]; omega
  split_ifs with hlow
  · -- below 10 GiB: level-4 entry 0, level-3 entry `addr / 1 GiB`, a 2 MiB page
    have hi : addr / 2 ^ 30 < 10 := by omega
    have h4 : createMappings s mem (nextTable s.level4 + 8 * (addr / 2 ^ 39 % 512)) = s.level3 + 3 := by
      rw [hcr3, show addr / 2 ^ 39 % 512 = 0 by omega, createMappings_level4 s hzero (by decide),
        if_pos rfl]
    have h3 : createMappings s mem (nextTable (s.level3 + 3) + 8 * (addr / 2 ^ 30 % 512)) =
        s.level2 + 4096 * (addr / 2 ^ 30) + 3 := by
      rw [hnext3, show addr / 2 ^ 30 % 512 = addr / 2 ^ 30 by omega,
        createMappings_level3 s hzero (by omega), if_pos hi]
    have h2 : createMappings s mem
        (nextTable (s.level2 + 4096 * (addr / 2 ^ 30) + 3) + 8 * (addr / 2 ^ 21 % 512)) =
        addr / 2 ^ 30 * 2 ^ 30 + addr / 2 ^ 21 % 512 * 2 ^ 21 + 131 := by
      rw [hnext2 _ hi, createMappings_level2 s hi (Nat.mod_lt _ (by decide))]
    have hp2 : present (addr / 2 ^ 30 * 2 ^ 30 + addr / 2 ^ 21 % 512 * 2 ^ 21 + 131) = true := by
      simp only [present, beq_iff_eq]
      omega
    have hs2 : pageSize (addr / 2 ^ 30 * 2 ^ 30 + addr / 2 ^ 21 % 512 * 2 ^ 21 + 131) = true := by
      simp only [pageSize, beq_iff_eq]
      omega
    have hp3' : present (s.level2 + 4096 * (addr / 2 ^ 30) + 3) = true := by
      simp only [present, beq_iff_eq]
      omega
    have hs3 : pageSize (s.level2 + 4096 * (addr / 2 ^ 30) + 3) = false := by
      simp only [pageSize, beq_eq_false_iff_ne]
      omega
    rw [walk_of_2MiB h4 hp3 h3 hp3' hs3 h2 hp2 hs2, Option.some.injEq]
    unfold frame2MiB
    omega
  · by_cases h4 : addr / 2 ^ 39 % 512 = 0
    -- the first 512 GiB: level-3 entry `addr / 1 GiB` is past the tenth
    · have hk : 10 ≤ addr / 2 ^ 30 % 512 := by omega
      have h4' : createMappings s mem (nextTable s.level4 + 8 * (addr / 2 ^ 39 % 512)) = s.level3 + 3 := by
        rw [hcr3, h4, createMappings_level4 s hzero (by decide), if_pos rfl]
      have h3' : createMappings s mem (nextTable (s.level3 + 3) + 8 * (addr / 2 ^ 30 % 512)) = 0 := by
        rw [hnext3, createMappings_level3 s hzero (Nat.mod_lt _ (by decide)), if_neg (by omega)]
      exact walk_of_not_present3 h4' hp3 h3' rfl
    -- any other level-4 entry is zero
    · have h4' : createMappings s mem (nextTable s.level4 + 8 * (addr / 2 ^ 39 % 512)) = 0 := by
        rw [hcr3, createMappings_level4 s hzero (Nat.mod_lt _ (by decide)), if_neg h4]
      exact walk_of_not_present4 h4' rfl

/-- `LEVEL_4`, `LEVEL_3` and `LEVEL_2` in stage 3's `.bss`, from 1 MiB + 36 KiB on. -/
def stage3Statics : Stage3Statics :=
  ⟨0x10_9000, 0x10_a000, 0x10_b000, by decide, by decide, by decide⟩

theorem createMappings_walk_on_vga_buffer :
    walk (createMappings stage3Statics fun _ => 0) stage3Statics.level4 0xb8000 =
      if 0xb8000 < 10 * 2 ^ 30 then some 0xb8000 else none :=
  createMappings_walk stage3Statics (fun _ _ => ⟨rfl, rfl⟩) (.inl (by decide))

end Stage3

/-! ## Stage 4 -/

/-- `GIGABYTE`. -/
def gigabyte : Nat := 4096 * 512 * 512

/-- The `max_phys_addr` of stage 4's `_start`: the end of the highest region
of the memory map (`expect`: "no physical memory regions found"), capped at
4 GiB. The map is sorted by start address first, which does not change the
highest end. -/
def maxPhysAddr (memoryMap : List E820MemoryRegion) : Except Panic Nat := do
  let ends ← memoryMap.mapM fun r => addU64 r.startAddr r.len
  match ends.max? with
  | none => throw .unwrapNone
  | some max => pure (min max (4 * gigabyte))

/-- The loop of `_start` that identity-maps "the remaining physical memory":
the 2 MiB frames, by number, from the one holding 10 GiB to the one holding
`max_phys_addr - 1` (`PhysFrame::range_inclusive`), each handed to
`identity_map`. -/
def identityMapRemaining {σ : Type} (identityMap : σ → Nat → Except Panic σ) (pageTable : σ)
    (maxPhysAddr : Nat) : Except Panic σ := do
  let startFrame := (← PhysAddr.new (gigabyte * 10)).val / 0x200000
  let endFrame := (← PhysAddr.new (← Common.subU64 maxPhysAddr 1)).val / 0x200000
  (List.range' startFrame (endFrame + 1 - startFrame)).foldlM identityMap pageTable

theorem maxPhysAddr_le {memoryMap : List E820MemoryRegion} {m : Nat}
    (h : maxPhysAddr memoryMap = .ok m) : m ≤ 4 * gigabyte := by
  obtain ⟨ends, -, h⟩ := Except.bind_eq_ok.mp h
  split at h
  · simp only [Except.throw_eq_error, reduceCtorEq] at h
  · rw [Except.pure_eq_ok] at h
    omega

section Stage4

variable {σ : Type} (identityMap : σ → Nat → Except Panic σ) (pageTable : σ)

/-- Below 4 GiB the range of frames to map is empty: the loop returns the
page table it was given. -/
theorem identityMapRemaining_eq_ok {m : Nat} (hpos : 0 < m) (hle : m ≤ 4 * gigabyte) :
    identityMapRemaining identityMap pageTable m = .ok pageTable := by
  have hstart : PhysAddr.new (gigabyte * 10) = .ok ⟨gigabyte * 10, by decide⟩ :=
    PhysAddr.new_eq_ok.mpr rfl
  have hsub : Common.subU64 m 1 = .ok (m - 1) := Common.subU64_eq_ok.mpr ⟨hpos, rfl⟩
  have hend : PhysAddr.new (m - 1) = .ok ⟨m - 1, by unfold gigabyte at hle; omega⟩ :=
    PhysAddr.new_eq_ok.mpr rfl
  -- the last frame below 4 GiB comes before the first one at 10 GiB
  have hempty : (m - 1) / 0x200000 + 1 - gigabyte * 10 / 0x200000 = 0 := by
    unfold gigabyte at hle ⊢
    omega
  unfold identityMapRemaining
  rw [hstart, Except.ok_bind, hsub, Except.ok_bind, hend, Except.ok_bind]
  dsimp only
  rw [hempty, List.range'_zero, List.foldlM_nil]
  rfl

/-- With every region ending at 0, `max_phys_addr - 1` overflows. -/
theorem identityMapRemaining_zero : identityMapRemaining identityMap pageTable 0 = .error .subOverflow :=
  rfl

end Stage4

/-- Stage 4 runs on stage 3's tables as they are: for every memory map whose
`max_phys_addr` it computes, the loop that was to identity-map memory past
10 GiB hands back the tables unchanged, and through them every address below
`max_phys_addr` translates to itself. -/
theorem stage4_identity_mapped (s : Stage3Statics) {mem : Nat → Nat} (hzero : ZeroedStatics s mem)
    {memoryMap : List E820MemoryRegion} {m : Nat} (hmax : maxPhysAddr memoryMap = .ok m)
    {identityMap : (Nat → Nat) → Nat → Except Panic (Nat → Nat)} {mem' : Nat → Nat}
    (hloop : identityMapRemaining identityMap (createMappings s mem) m = .ok mem') :
    mem' = createMappings s mem ∧ ∀ addr < m, walk mem' s.level4 addr = some addr := by
  have hle := maxPhysAddr_le hmax
  have hpos : 0 < m := by
    rcases Nat.eq_zero_or_pos m with rfl | hpos
    · rw [identityMapRemaining_zero] at hloop
      cases hloop
    · exact hpos
  have hmem' : mem' = createMappings s mem := by
    rw [identityMapRemaining_eq_ok identityMap _ hpos hle] at hloop
    exact (Except.ok.inj hloop).symm
  refine ⟨hmem', fun addr haddr => ?_⟩
  have hlow : addr < 10 * 2 ^ 30 := by
    unfold gigabyte at hle
    omega
  rw [hmem', createMappings_walk s hzero (.inl (by omega)), if_pos hlow]

/-- A machine with 640 KiB of conventional memory and 127 MiB above 1 MiB. -/
def smallBiosMap : List E820MemoryRegion := [⟨0, 0x9_fc00, 1⟩, ⟨0x10_0000, 0x7ee_0000, 1⟩]

theorem stage4_identity_mapped_on_small_map :
    createMappings stage3Statics (fun _ => 0) = createMappings stage3Statics (fun _ => 0) ∧
      ∀ addr < 0x7fe_0000, walk (createMappings stage3Statics fun _ => 0) stage3Statics.level4 addr =
        some addr :=
  @stage4_identity_mapped stage3Statics (fun _ => 0) (fun _ _ => ⟨rfl, rfl⟩) smallBiosMap 0x7fe_0000
    rfl (fun mem frame => .ok (Function.update mem frame 1)) _ rfl


end Bios

end Bootloader
