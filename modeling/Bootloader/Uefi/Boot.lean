/-
Bootloader.Uefi.Boot — three decisions of the UEFI loader
(`uefi/src/main.rs`: `init_logger`, `main_inner`, `create_page_tables`).

* The graphics mode. `main_inner` completes the config file's minimum
  frame buffer height and width with the kernel's, and `init_logger` sets
  the last mode of `GraphicsOutput::modes`, in the firmware's order, that
  meets the minimums given; with neither minimum it keeps the current mode.
  `chooseMode_eq_some_iff` and `chooseMode_eq_none_iff` say so.
* The RSDP. `main_inner` searches the configuration table for the ACPI 2.0
  entry and, failing that, for the ACPI 1.0 entry. Both searches run on one
  iterator, and a first search that finds nothing has used it up, so the
  second never finds anything: `rsdpAddr_eq` (the address is that of the
  first ACPI 2.0 entry or nothing).
* The bootloader's level-4 table. `create_page_tables` copies the
  firmware's level-4 entries for the identity-mapped memory below
  `max_phys_addr` and for the frame buffer into a fresh table:
  `bootloaderLevel4_translate` (every address of those ranges is translated
  as the firmware translated it).

Modes, configuration table entries and level-4 tables come from the `uefi`
and `x86_64` crates, which are not part of the repository: a mode is its
resolution, an entry its GUID (one of the two the code compares with, or
another) and address, a table 512 raw entries, 0 for an unused one.
-/
import Bootloader.Api.Info
import Bootloader.Common.SetUpMappings

namespace Bootloader

namespace Uefi

/-! ## The graphics mode -/

/-- A mode of `GraphicsOutput::modes`, by `info().resolution()`. -/
structure ModeInfo where
  width : Nat
  height : Nat
  deriving DecidableEq, Repr

/-- The minimums `init_logger` reads: those of the config file, each one it
leaves unset taken from the kernel's `BootloaderConfig`. -/
def minimums (height width kernelHeight kernelWidth : Option Nat) : Option Nat × Option Nat :=
  (if height.isNone then kernelHeight else height, if width.isNone then kernelWidth else width)

/-- The mode `init_logger` sets, if any: `modes.filter(..).last()` on the
minimums given. -/
def chooseMode (modes : List ModeInfo) (minimumHeight minimumWidth : Option Nat) : Option ModeInfo :=
  match minimumHeight, minimumWidth with
  | some height, some width => (modes.filter fun m => m.height ≥ height && m.width ≥ width).getLast?
  | some height, none => (modes.filter fun m => m.height ≥ height).getLast?
  | none, some width => (modes.filter fun m => m.width ≥ width).getLast?
  | none, none => none

/-- A mode meets the minimums given. -/
def Meets (minimumHeight minimumWidth : Option Nat) (m : ModeInfo) : Prop :=
  (∀ height ∈ minimumHeight, height ≤ m.height) ∧ ∀ width ∈ minimumWidth, width ≤ m.width

instance (minimumHeight minimumWidth : Option Nat) (m : ModeInfo) :
    Decidable (Meets minimumHeight minimumWidth m) :=
  inferInstanceAs (Decidable (_ ∧ _))

/-- With a minimum given, the three filters of `init_logger` are one: the
last mode that meets the minimums. -/
theorem chooseMode_eq {modes : List ModeInfo} {minimumHeight minimumWidth : Option Nat}
    (h : minimumHeight.isSome ∨ minimumWidth.isSome) :
    chooseMode modes minimumHeight minimumWidth =
      (modes.filter fun m => decide (Meets minimumHeight minimumWidth m)).getLast? := by
  rcases minimumHeight with _ | height <;> rcases minimumWidth with _ | width
  · simp at h
  all_goals
    dsimp only [chooseMode]
    congr 2
    funext m
    simp [Meets]

/-- The last element of a list that passes a test: it passes, and nothing
after it does. -/
theorem getLast?_filter_eq_some {α : Type} {p : α → Bool} {l : List α} {a : α} :
    (l.filter p).getLast? = some a ↔ ∃ pre post, l = pre ++ a :: post ∧ p a ∧ ∀ b ∈ post, p b = false := by
  rw [List.getLast?_eq_head?_reverse, ← List.filter_reverse, List.head?_filter,
    List.find?_eq_some_iff_append]
  constructor
  · rintro ⟨hpa, pre, post, hrev, hpost⟩
    refine ⟨post.reverse, pre.reverse, ?_, hpa, fun b hb => ?_⟩
    · rw [← List.reverse_reverse l, hrev]
      simp
    · simpa using hpost b (List.mem_reverse.mp hb)
  · rintro ⟨pre, post, rfl, hpa, hpost⟩
    refine ⟨hpa, post.reverse, pre.reverse, by simp, fun b hb => ?_⟩
    simpa using hpost b (List.mem_reverse.mp hb)

/-- `init_logger` sets a mode only when a minimum is given, and then the
last mode, in the firmware's order, that meets all the minimums given. -/
theorem chooseMode_eq_some_iff {modes : List ModeInfo} {minimumHeight minimumWidth : Option Nat}
    {m : ModeInfo} :
    chooseMode modes minimumHeight minimumWidth = some m ↔
      (minimumHeight.isSome ∨ minimumWidth.isSome) ∧ ∃ pre post, modes = pre ++ m :: post ∧
        Meets minimumHeight minimumWidth m ∧ ∀ m' ∈ post, ¬Meets minimumHeight minimumWidth m' := by
  by_cases h : minimumHeight.isSome ∨ minimumWidth.isSome
  · rw [chooseMode_eq h, getLast?_filter_eq_some]
    simp [h]
  · obtain ⟨rfl, rfl⟩ : minimumHeight = none ∧ minimumWidth = none := by
      simpa [Option.not_isSome_iff_eq_none] using h
    simp [chooseMode]

/-- `init_logger` keeps the current mode exactly when no minimum is given
or no mode meets them all. -/
theorem chooseMode_eq_none_iff {modes : List ModeInfo} {minimumHeight minimumWidth : Option Nat} :
    chooseMode modes minimumHeight minimumWidth = none ↔
      (minimumHeight = none ∧ minimumWidth = none) ∨ ∀ m ∈ modes, ¬Meets minimumHeight minimumWidth m := by
  by_cases h : minimumHeight.isSome ∨ minimumWidth.isSome
  · rw [chooseMode_eq h, List.getLast?_eq_none_iff, List.filter_eq_nil_iff]
    have hsome : ¬(minimumHeight = none ∧ minimumWidth = none) := by
      rintro ⟨rfl, rfl⟩
      simp at h
    simp [hsome]
  · obtain ⟨rfl, rfl⟩ : minimumHeight = none ∧ minimumWidth = none := by
      simpa [Option.not_isSome_iff_eq_none] using h
    simp [chooseMode]

/-- The last mode of the firmware's list that is at least 1024 wide. -/
example : chooseMode [⟨640, 480⟩, ⟨1280, 1024⟩, ⟨800, 600⟩, ⟨1024, 768⟩] none (some 1024) =
    some ⟨1024, 768⟩ := rfl

/-! ## The RSDP -/

/-- The GUID of a configuration table entry, as `main_inner` tells them
apart. -/
inductive ConfigTableGuid where
  /-- `cfg::ACPI2_GUID`. -/
  | acpi2
  /-- `cfg::ACPI_GUID`. -/
  | acpi
  | other (guid : Nat)
  deriving DecidableEq, Repr

/-- A configuration table entry: its GUID and the address of its table. -/
structure ConfigTableEntry where
  guid : ConfigTableGuid
  address : Nat
  deriving DecidableEq, Repr

/-- `Iterator::find` on what is left of an iterator: the first entry that
passes the test, and what is left after it. -/
def findEntry (p : ConfigTableEntry → Bool) : List ConfigTableEntry → Option ConfigTableEntry × List ConfigTableEntry
  | [] => (none, [])
  | entry :: entries => if p entry then (some entry, entries) else findEntry p entries

/-- The `rsdp_addr` of `main_inner`: the ACPI 2.0 entry, or else the ACPI 1.0
entry, found on one iterator over the configuration table. -/
def rsdpAddr (configTable : List ConfigTableEntry) : Except Panic (Option PhysAddr) :=
  let (acpi2Rsdp, configEntries) := findEntry (fun entry => entry.guid == .acpi2) configTable
  let rsdp := acpi2Rsdp.or (findEntry (fun entry => entry.guid == .acpi) configEntries).1
  match rsdp with
  | none => pure none
  | some entry => some <$> PhysAddr.new entry.address

theorem findEntry_fst (p : ConfigTableEntry → Bool) :
    ∀ entries : List ConfigTableEntry, (findEntry p entries).1 = entries.find? p
  | [] => rfl
  | entry :: entries => by
    rw [findEntry, List.find?_cons]
    cases p entry
    · exact findEntry_fst p entries
    · rfl

/-- A search that finds nothing uses the iterator up. -/
theorem findEntry_snd_of_none (p : ConfigTableEntry → Bool) :
    ∀ entries : List ConfigTableEntry, entries.find? p = none → (findEntry p entries).2 = []
  | [], _ => rfl
  | entry :: entries, h => by
    rw [List.find?_cons] at h
    rw [findEntry]
    cases hp : p entry
    · rw [hp] at h
      exact findEntry_snd_of_none p entries h
    · rw [hp] at h
      cases h

/-- The RSDP `main_inner` hands the kernel is the first ACPI 2.0 entry's, or
none: when the table has no ACPI 2.0 entry, the search for the ACPI 1.0
entry runs on an iterator the first search used up. -/
theorem rsdpAddr_eq (configTable : List ConfigTableEntry) :
    rsdpAddr configTable =
      match configTable.find? (fun entry => entry.guid == .acpi2) with
      | none => pure none
      | some entry => some <$> PhysAddr.new entry.address := by
  unfold rsdpAddr
  have hfst := findEntry_fst (fun entry => entry.guid == .acpi2) configTable
  have hsnd := findEntry_snd_of_none (fun entry => entry.guid == .acpi2) configTable
  generalize findEntry (fun entry => entry.guid == .acpi2) configTable = found at hfst hsnd ⊢
  obtain ⟨first, rest⟩ := found
  dsimp only at hfst hsnd ⊢
  subst hfst
  cases hfind : configTable.find? (fun entry => entry.guid == .acpi2) with
  | some entry => rfl
  -- the ACPI 1.0 search runs on the used-up iterator
  | none =>
    rw [hsnd hfind]
    rfl

/-- A firmware that publishes only an ACPI 1.0 RSDP: the kernel gets none. -/
example : rsdpAddr [⟨.other 7, 0x1000⟩, ⟨.acpi, 0xe0000⟩] = .ok none := rfl

example : rsdpAddr [⟨.acpi, 0xe0000⟩, ⟨.acpi2, 0xe1000⟩] = .ok (some ⟨0xe1000, by decide⟩) := rfl

/-! ## The bootloader's level-4 table -/

/-- A loop that writes `f i` at each `i` of a list leaves the visited
positions at `f i` and the others as they were. -/
theorem foldl_update_eq {ι α : Type} [DecidableEq ι] (f : ι → α) (l : List ι) (init : ι → α) :
    l.foldl (fun out i => Function.update out i (f i)) init = fun i => if i ∈ l then f i else init i := by
  induction l generalizing init with
  | nil => simp
  | cons a l ih =>
    simp only [List.foldl_cons, ih, List.mem_cons]
    funext i
    by_cases hl : i ∈ l
    · simp [hl]
    · by_cases ha : i = a
      · subst ha
        simp
      · simp [hl, ha]

/-- `for p4 in first..=last { new_table[p4] = old_table[p4].clone() }`, on
tables of raw entries. -/
def copyP4Entries (oldTable newTable : Nat → Nat) (first last : Nat) : Nat → Nat :=
  (List.range' first (last + 1 - first)).foldl (fun table p4 => Function.update table p4 (oldTable p4))
    newTable

theorem copyP4Entries_apply (oldTable newTable : Nat → Nat) (first last i : Nat) :
    copyP4Entries oldTable newTable first last i =
      if first ≤ i ∧ i ≤ last then oldTable i else newTable i := by
  have hmem : i ∈ List.range' first (last + 1 - first) ↔ first ≤ i ∧ i ≤ last := by
    rw [List.mem_range'_1]
    omega
  rw [copyP4Entries, foldl_update_eq]
  simp only [hmem]

/-- The level-4 table `create_page_tables` gives the bootloader: a fresh
table into which the firmware's entries for the identity-mapped memory below
`max_phys_addr` and for the frame buffer are copied. -/
def bootloaderLevel4 (oldTable : Nat → Nat) (maxPhysAddr : PhysAddr)
    (frameBuffer : Option RawFrameBufferInfo) : Except Panic (Nat → Nat) := do
  let endAddr ← VirtAddr.new (← Common.subU64 maxPhysAddr.val 1)
  let newTable := copyP4Entries oldTable (fun _ => 0) 0 endAddr.p4Index
  match frameBuffer with
  | none => pure newTable
  | some frameBuffer =>
    let startAddr ← VirtAddr.new frameBuffer.addr.val
    let endAddr ← startAddr.add frameBuffer.byteLen
    pure (copyP4Entries oldTable newTable startAddr.p4Index endAddr.p4Index)

/-- The addresses whose level-4 entry the bootloader needs: the identity
mapping of memory below `max_phys_addr`, and the frame buffer up to the
address one past its last byte, which the loop's bound includes. -/
def Kept (maxPhysAddr : PhysAddr) (frameBuffer : Option RawFrameBufferInfo) (v : VirtAddr) : Prop :=
  v.val < maxPhysAddr.val ∨ ∃ fb ∈ frameBuffer, fb.addr.val ≤ v.val ∧ v.val ≤ fb.addr.val + fb.byteLen

/-- The address `0`, where the first loop starts. -/
def zeroAddr : VirtAddr := ⟨0, .inl (Nat.zero_lt_succ _)⟩

section Level4

variable {oldTable newTable : Nat → Nat} {maxPhysAddr : PhysAddr}

/-- A copy keeps an entry that is the old table's already. -/
theorem copyP4Entries_eq_of_eq {table : Nat → Nat} {first last i : Nat} (h : table i = oldTable i) :
    copyP4Entries oldTable table first last i = oldTable i := by
  rw [copyP4Entries_apply]
  split_ifs
  · rfl
  · exact h

/-- One loop of `create_page_tables`, over the level-4 indices of the
addresses from `a` to `b`: their entries are copied, and no other. -/
theorem copyP4Entries_between {a b : VirtAddr} (hab : a.val ≤ b.val) (table : Nat → Nat) :
    (∀ v : VirtAddr, a.val ≤ v.val → v.val ≤ b.val →
      copyP4Entries oldTable table a.p4Index b.p4Index v.p4Index = oldTable v.p4Index) ∧
    ∀ i, (∀ v : VirtAddr, a.val ≤ v.val → v.val ≤ b.val → (v.p4Index : Nat) ≠ i) →
      copyP4Entries oldTable table a.p4Index b.p4Index i = table i := by
  constructor
  · intro v hav hvb
    rw [copyP4Entries_apply, if_pos ⟨VirtAddr.p4Index_mono hav, VirtAddr.p4Index_mono hvb⟩]
  · intro i hi
    rw [copyP4Entries_apply, if_neg]
    rintro ⟨hai, hib⟩
    obtain ⟨v, hav, hvb, hv⟩ := VirtAddr.exists_p4Index_eq hab hai hib
    exact hi v hav hvb hv

/-- Below the hole the first loop runs up to the last identity-mapped
address: `VirtAddr::new` keeps `max_phys_addr - 1`. -/
theorem bootloaderLevel4_none_eq_ok (hmax : maxPhysAddr.val ≤ 2 ^ 47)
    (h : bootloaderLevel4 oldTable maxPhysAddr none = .ok newTable) :
    ∃ endAddr : VirtAddr, endAddr.val + 1 = maxPhysAddr.val ∧
      newTable = copyP4Entries oldTable (fun _ => 0) zeroAddr.p4Index endAddr.p4Index := by
  simp only [bootloaderLevel4, Except.bind_eq_ok, Common.subU64_eq_ok, Except.pure_eq_ok] at h
  obtain ⟨last, ⟨hle, rfl⟩, endAddr, hnew, h⟩ := h
  have hend := VirtAddr.val_of_new_eq_ok hnew (by omega)
  exact ⟨endAddr, by omega, h.symm⟩

/-- Below the hole the second loop runs over the frame buffer's addresses
and the one past its last byte. -/
theorem bootloaderLevel4_some_eq_ok {fb : RawFrameBufferInfo} (hmax : maxPhysAddr.val ≤ 2 ^ 47)
    (hfb : fb.addr.val + fb.byteLen < 2 ^ 47)
    (h : bootloaderLevel4 oldTable maxPhysAddr (some fb) = .ok newTable) :
    ∃ endAddr startAddr fbEnd : VirtAddr, endAddr.val + 1 = maxPhysAddr.val ∧
      startAddr.val = fb.addr.val ∧ fbEnd.val = fb.addr.val + fb.byteLen ∧
      newTable = copyP4Entries oldTable (copyP4Entries oldTable (fun _ => 0) zeroAddr.p4Index endAddr.p4Index)
        startAddr.p4Index fbEnd.p4Index := by
  simp only [bootloaderLevel4, Except.bind_eq_ok, Common.subU64_eq_ok, Except.pure_eq_ok] at h
  obtain ⟨last, ⟨hle, rfl⟩, endAddr, hnew, startAddr, hstart, fbEnd, hfbEnd, h⟩ := h
  have hend := VirtAddr.val_of_new_eq_ok hnew (by omega)
  have hstartv := VirtAddr.val_of_new_eq_ok hstart (by omega)
  have hfbEndv := VirtAddr.val_of_add_eq_ok hfbEnd (by omega)
  exact ⟨endAddr, startAddr, fbEnd, by omega, hstartv, by rw [hfbEndv, hstartv], h.symm⟩

/-- With memory and the frame buffer below the hole, the bootloader's
level-4 table holds the firmware's entry for every address the bootloader
needs, the first entry, under which it runs, among them, and no other entry:
all others are unused. Past `2 ^ 47` `VirtAddr::new` sign-extends the loops'
bounds into the upper half, and the first loop copies upper-half entries
too. -/
theorem bootloaderLevel4_copies {frameBuffer : Option RawFrameBufferInfo}
    (hmax : maxPhysAddr.val ≤ 2 ^ 47) (hfb : ∀ fb ∈ frameBuffer, fb.addr.val + fb.byteLen < 2 ^ 47)
    (h : bootloaderLevel4 oldTable maxPhysAddr frameBuffer = .ok newTable) :
    (∀ v : VirtAddr, Kept maxPhysAddr frameBuffer v → newTable v.p4Index = oldTable v.p4Index) ∧
    ∀ i, (∀ v : VirtAddr, Kept maxPhysAddr frameBuffer v → (v.p4Index : Nat) ≠ i) → newTable i = 0 := by
  cases frameBuffer with
  | none =>
    obtain ⟨endAddr, hend, rfl⟩ := bootloaderLevel4_none_eq_ok hmax h
    obtain ⟨hcopy, hrest⟩ := @copyP4Entries_between oldTable zeroAddr endAddr (Nat.zero_le _) (fun _ => 0)
    -- without a frame buffer the kept addresses are the loop's range
    have hkept : ∀ v : VirtAddr, Kept maxPhysAddr none v ↔ zeroAddr.val ≤ v.val ∧ v.val ≤ endAddr.val := by
      intro v
      simp only [Kept, zeroAddr, Option.mem_def, reduceCtorEq, false_and, exists_false, or_false]
      omega
    refine ⟨fun v hv => hcopy v ((hkept v).mp hv).1 ((hkept v).mp hv).2, fun i hi => ?_⟩
    exact hrest i fun v h0 h1 => hi v ((hkept v).mpr ⟨h0, h1⟩)
  | some fb =>
    obtain ⟨endAddr, startAddr, fbEnd, hend, hstart, hfbEnd, rfl⟩ :=
      bootloaderLevel4_some_eq_ok hmax (hfb fb rfl) h
    obtain ⟨hcopy, hrest⟩ := @copyP4Entries_between oldTable zeroAddr endAddr (Nat.zero_le _) (fun _ => 0)
    obtain ⟨hcopy', hrest'⟩ := @copyP4Entries_between oldTable startAddr fbEnd (by omega)
      (copyP4Entries oldTable (fun _ => 0) zeroAddr.p4Index endAddr.p4Index)
    constructor
    · rintro v (hv | ⟨fb', hfb', hlo, hhi⟩)
      -- an identity-mapped address: the first loop copied its entry
      · exact copyP4Entries_eq_of_eq (hcopy v (Nat.zero_le _) (by omega))
      -- a frame buffer address: the second loop did
      · cases Option.mem_def.mp hfb'
        exact hcopy' v (by omega) (by omega)
    · intro i hi
      rw [hrest' i fun v h0 h1 => hi v (.inr ⟨fb, rfl, by omega, by omega⟩)]
      exact hrest i fun v _ h1 => hi v (.inl (by omega))

/-- A firmware level-4 table: entry `i` points at frame `i + 1`, present and
writable. -/
def firmwareLevel4 (i : Nat) : Nat := (i + 1) * 0x1000 + 0x3

/-- A machine with 6 GiB of memory, in level-4 entry 0, and a frame buffer at
512 GiB, in entry 1. -/
def smallMachineMemoryEnd : PhysAddr := ⟨0x1_8000_0000, by decide⟩

def smallMachineFrameBuffer : RawFrameBufferInfo := ⟨⟨0x80_0000_0000, by decide⟩, 0x30_0000⟩

theorem bootloaderLevel4_copies_on_small_machine :
    bootloaderLevel4 firmwareLevel4 smallMachineMemoryEnd (some smallMachineFrameBuffer) =
        .ok (copyP4Entries firmwareLevel4 (copyP4Entries firmwareLevel4 (fun _ => 0) 0 0) 1 1) ∧
      (∀ v : VirtAddr, Kept smallMachineMemoryEnd (some smallMachineFrameBuffer) v →
        copyP4Entries firmwareLevel4 (copyP4Entries firmwareLevel4 (fun _ => 0) 0 0) 1 1 v.p4Index =
          firmwareLevel4 v.p4Index) ∧
      ∀ i, (∀ v : VirtAddr, Kept smallMachineMemoryEnd (some smallMachineFrameBuffer) v → (v.p4Index : Nat) ≠ i) →
        copyP4Entries firmwareLevel4 (copyP4Entries firmwareLevel4 (fun _ => 0) 0 0) 1 1 i = 0 :=
  ⟨rfl, bootloaderLevel4_copies (by decide) (fun fb hfb => by cases Option.mem_def.mp hfb; decide) rfl⟩

end Level4


end Uefi

end Bootloader
