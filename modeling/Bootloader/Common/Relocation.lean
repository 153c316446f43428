/-
Bootloader.Common.Relocation — the relocation pass of a position-independent
kernel (`common/src/load_kernel.rs`: `handle_dynamic_segment`,
`read_relocation`, `apply_relocation`).

`handle_dynamic_segment` takes the `DT_RELA`, `DT_RELASZ` and `DT_RELAENT`
entries of the dynamic section, then reads each 24-byte entry of the table
through the kernel's address space and writes `virtual_address_offset +
r_addend`, little-endian, at `virtual_address_offset + r_offset`. Every
read goes through `copy_from` and every write through `copy_to`, so the
table is read as the earlier relocations left it.

* `findRelaEntries_eq_ok`: for a `get_tag` that reads the three tags as
  `xmas_elf`'s does (`RelaTags`), the three entries are taken from the
  dynamic section's unique entries with their tags; a repeated tag, or one
  `get_tag` does not read, is an error.
* `handleDynamicSegment_relocates`: when the table and the relocated words
  lie in the lower half, apart from each other, on mapped pages, and the
  allocator has two fresh frames per relocation, the pass writes each
  relocated value at its place and leaves every other byte as it was.
-/
import Bootloader.Common.SegmentLoading

namespace Bootloader

open LittleEndian

namespace Inner

/-! ## The dynamic section's entries -/

/-- The value of the first entry of the dynamic section with the tag. -/
def tagValue (tag : Nat) (entries : List (Nat × Nat)) : Option Nat :=
  (entries.find? fun entry => entry.1 = tag).map (·.2)

/-- How many entries of the dynamic section have the tag. -/
def tagCount (tag : Nat) (entries : List (Nat × Nat)) : Nat :=
  entries.countP fun entry => entry.1 = tag

@[simp] theorem tagValue_nil (tag : Nat) : tagValue tag [] = none := rfl

@[simp] theorem tagCount_nil (tag : Nat) : tagCount tag [] = 0 := rfl

theorem tagValue_cons (tag tag' value : Nat) (entries : List (Nat × Nat)) :
    tagValue tag ((tag', value) :: entries) =
      if tag' = tag then some value else tagValue tag entries := by
  unfold tagValue
  by_cases h : tag' = tag <;> simp [h]

theorem tagCount_cons (tag tag' value : Nat) (entries : List (Nat × Nat)) :
    tagCount tag ((tag', value) :: entries) =
      tagCount tag entries + if tag' = tag then 1 else 0 := by
  unfold tagCount
  by_cases h : tag' = tag <;> simp [h]

/-- What `handle_dynamic_segment` needs of `get_tag`: `DT_RELA`,
`DT_RELASZ` and `DT_RELAENT` are the raw tags 7, 8 and 9, and no other raw
tag reads as one of them. `xmas_elf`'s `get_tag` has them (`getTag_relaTags`);
on other tags it may return any other tag or an error. -/
structure RelaTags (getTag : Nat → Except LoadError DynamicTag) : Prop where
  rela : ∀ tag, getTag tag = .ok .rela ↔ tag = 7
  relaSize : ∀ tag, getTag tag = .ok .relaSize ↔ tag = 8
  relaEnt : ∀ tag, getTag tag = .ok .relaEnt ↔ tag = 9

theorem getTag_relaTags : RelaTags getTag where
  rela tag := by unfold getTag; split_ifs <;> simp_all
  relaSize tag := by unfold getTag; split_ifs <;> simp_all
  relaEnt tag := by unfold getTag; split_ifs <;> simp_all

section RelaEntries

variable {getTag : Nat → Except LoadError DynamicTag}

/-- The loop of `handle_dynamic_segment` over the dynamic section, from any
slots: it returns exactly when `get_tag` reads every tag and none of the
three comes twice, counting a full slot, and then fills each empty slot with
the first value of its tag. -/
theorem foldlM_findRelaEntry_eq_ok (htags : RelaTags getTag) :
    ∀ (entries : List (Nat × Nat)) (rela relaSize relaEnt r z e : Option Nat),
      entries.foldlM (findRelaEntry getTag) (rela, relaSize, relaEnt) = .ok (r, z, e) ↔
        (∀ entry ∈ entries, (getTag entry.1).isOk = true) ∧
        tagCount 7 entries + (if rela.isSome then 1 else 0) ≤ 1 ∧
        tagCount 8 entries + (if relaSize.isSome then 1 else 0) ≤ 1 ∧
        tagCount 9 entries + (if relaEnt.isSome then 1 else 0) ≤ 1 ∧
        r = rela.or (tagValue 7 entries) ∧ z = relaSize.or (tagValue 8 entries) ∧
        e = relaEnt.or (tagValue 9 entries)
  | [], rela, relaSize, relaEnt, r, z, e => by
    rw [List.foldlM_nil, Except.pure_eq_ok]
    simp only [List.not_mem_nil, false_implies, implies_true, true_and]
    cases rela <;> cases relaSize <;> cases relaEnt <;> simp [eq_comm]
  | (tag, value) :: entries, rela, relaSize, relaEnt, r, z, e => by
    have ih := foldlM_findRelaEntry_eq_ok htags entries
    simp only [List.foldlM_cons, findRelaEntry, tagCount_cons, tagValue_cons, List.forall_mem_cons]
    -- the tag `get_tag` reads picks the slot the entry fills, if any
    cases hget : getTag tag with
    | error err => simp [Except.isOk, Except.toBool]
    | ok t =>
      cases t with
      | rela =>
        obtain rfl := (htags.rela tag).mp hget
        cases rela with
        | some _ => simp [Except.isOk, Except.toBool]
        | none => simp [ih, Except.isOk, Except.toBool]
      | relaSize =>
        obtain rfl := (htags.relaSize tag).mp hget
        cases relaSize with
        | some _ => simp [Except.isOk, Except.toBool]
        | none => simp [ih, Except.isOk, Except.toBool]
      | relaEnt =>
        obtain rfl := (htags.relaEnt tag).mp hget
        cases relaEnt with
        | some _ => simp [Except.isOk, Except.toBool]
        | none => simp [ih, Except.isOk, Except.toBool]
      | other =>
        -- none of the three tags reads as `other`
        have h7 : tag ≠ 7 := fun h => by simp [h ▸ (htags.rela 7).mpr rfl] at hget
        have h8 : tag ≠ 8 := fun h => by simp [h ▸ (htags.relaSize 8).mpr rfl] at hget
        have h9 : tag ≠ 9 := fun h => by simp [h ▸ (htags.relaEnt 9).mpr rfl] at hget
        simp [ih, h7, h8, h9, Except.isOk, Except.toBool]

end RelaEntries

/-- With a `get_tag` that reads `DT_RELA`, `DT_RELASZ` and `DT_RELAENT` as
`xmas_elf`'s does, the loop over the dynamic section returns exactly when
`get_tag` reads every tag and the section has at most one `DT_RELA`, one
`DT_RELASZ` and one `DT_RELAENT` entry, and then returns their values,
`None` for a tag that does not occur. -/
theorem findRelaEntries_eq_ok {getTag : Nat → Except LoadError DynamicTag} (htags : RelaTags getTag)
    {entries : List (Nat × Nat)} {rela relaSize relaEnt : Option Nat} :
    findRelaEntries getTag entries = .ok (rela, relaSize, relaEnt) ↔
      (∀ entry ∈ entries, (getTag entry.1).isOk = true) ∧
      tagCount 7 entries ≤ 1 ∧ tagCount 8 entries ≤ 1 ∧ tagCount 9 entries ≤ 1 ∧
        rela = tagValue 7 entries ∧ relaSize = tagValue 8 entries ∧ relaEnt = tagValue 9 entries := by
  rw [findRelaEntries, foldlM_findRelaEntry_eq_ok htags]
  simp

/-- `xmas_elf`'s `get_tag` on a dynamic section with a `DT_RELA` table and a
`DT_NULL` entry. -/
theorem findRelaEntries_eq_ok_on_getTag :
    findRelaEntries getTag [(7, 0x402000), (8, 48), (9, 24), (0, 0)] = .ok (some 0x402000, some 48, some 24) ↔
      (∀ entry ∈ [(7, 0x402000), (8, 48), (9, 24), (0, 0)], (getTag entry.1).isOk = true) ∧
      tagCount 7 [(7, 0x402000), (8, 48), (9, 24), (0, 0)] ≤ 1 ∧
      tagCount 8 [(7, 0x402000), (8, 48), (9, 24), (0, 0)] ≤ 1 ∧
      tagCount 9 [(7, 0x402000), (8, 48), (9, 24), (0, 0)] ≤ 1 ∧
      some 0x402000 = tagValue 7 [(7, 0x402000), (8, 48), (9, 24), (0, 0)] ∧
      some 48 = tagValue 8 [(7, 0x402000), (8, 48), (9, 24), (0, 0)] ∧
      some 24 = tagValue 9 [(7, 0x402000), (8, 48), (9, 24), (0, 0)] :=
  findRelaEntries_eq_ok getTag_relaTags

/-- A dynamic section with a `DT_RELR` entry (36), which `xmas_elf` 0.8.0
does not know: the loop stops there. -/
example : findRelaEntries getTag [(7, 0x402000), (36, 0x403000)] = .error .elf := by decide

/-! ## Reading and applying one relocation -/

/-- `virtual_address_offset + addr` returns the sum exactly when it is a
`u64`. -/
theorem virtualAddressOffsetAdd_eq_ok {offset : Int} {addr value : Nat} :
    virtualAddressOffsetAdd offset addr = .ok value ↔
      0 ≤ offset + addr ∧ offset + addr < 2 ^ 64 ∧ value = (offset + addr).toNat := by
  unfold virtualAddressOffsetAdd
  dsimp only
  split_ifs with h
  · rw [Except.ok.injEq]
    exact ⟨fun hv => ⟨h.1, h.2, hv.symm⟩, fun hv => hv.2.2.symm⟩
  · simp only [false_iff]
    exact fun hv => h ⟨hv.1, hv.2.1⟩

/-- A relocation entry as the table holds it: `r_offset`, `r_info` and
`r_addend`, each a little-endian `u64`. -/
def Rela.toBytes (rela : Rela) : List UInt8 :=
  leBytes 8 rela.offset ++ leBytes 8 rela.info ++ leBytes 8 rela.addend

@[simp] theorem Rela.length_toBytes (rela : Rela) : rela.toBytes.length = 24 := by
  simp [Rela.toBytes]

/-- The address a relocation writes: `virtual_address_offset + r_offset`. -/
def Rela.target (rela : Rela) (offset : Int) : Nat := (offset + rela.offset).toNat

/-- The value a relocation writes: `virtual_address_offset + r_addend`. -/
def Rela.value (rela : Rela) (offset : Int) : Nat := (offset + rela.addend).toNat

/-- An entry whose fields fit a `u64` decodes back from its bytes. -/
theorem Rela.decode_toBytes {rela : Rela}
    (h : rela.offset < 2 ^ 64 ∧ rela.info < 2 ^ 64 ∧ rela.addend < 2 ^ 64) :
    (⟨ofLeBytes (rela.toBytes.take 8), ofLeBytes ((rela.toBytes.drop 8).take 8),
      ofLeBytes (rela.toBytes.drop 16)⟩ : Rela) = rela := by
  have h8 : (256 : Nat) ^ 8 = 2 ^ 64 := by norm_num
  obtain ⟨hoff, hinfo, hadd⟩ := h
  simp only [Rela.toBytes, List.append_assoc]
  rw [List.take_left' (length_leBytes 8 _), List.drop_left' (length_leBytes 8 _),
    List.take_left' (length_leBytes 8 _),
    show 16 = (leBytes 8 rela.offset ++ leBytes 8 rela.info).length by simp,
    ← List.append_assoc, List.drop_left, ofLeBytes_leBytes, ofLeBytes_leBytes, ofLeBytes_leBytes, h8,
    Nat.mod_eq_of_lt hoff, Nat.mod_eq_of_lt hinfo, Nat.mod_eq_of_lt hadd]

/-- `read_relocation`: the `idx`-th entry of the table at `table`, read
through the kernel's address space from a part of the lower half where the
kernel sees its bytes, is decoded as the entry those bytes encode. -/
theorem readRelocation_eq_ok {s : Inner} {table idx : Nat} {rela : Rela}
    (hoffset : table + 24 * idx < 2 ^ 64)
    (hnonneg : 0 ≤ s.virtualAddressOffset + (table + 24 * idx : Nat))
    (hlower : (s.virtualAddressOffset + (table + 24 * idx : Nat)).toNat + 24 ≤ 2 ^ 47)
    (hbytes : ∀ k < 24, s.readByte ((s.virtualAddressOffset + (table + 24 * idx : Nat)).toNat + k) =
      some (rela.toBytes.getD k 0))
    (hfields : rela.offset < 2 ^ 64 ∧ rela.info < 2 ^ 64 ∧ rela.addend < 2 ^ 64) :
    s.readRelocation table idx = .ok rela := by
  generalize hentry : (s.virtualAddressOffset + (table + 24 * idx : Nat)).toNat = entry at hlower hbytes
  let addr : VirtAddr := ⟨entry, by unfold Canonical; omega⟩
  have hmul : mulU64 24 idx = .ok (24 * idx) := if_pos (by omega)
  have hadd : addU64 table (24 * idx) = .ok (table + 24 * idx) := addU64_eq_ok.mpr ⟨hoffset, rfl⟩
  have hvalue : virtualAddressOffsetAdd s.virtualAddressOffset (table + 24 * idx) = .ok entry :=
    virtualAddressOffsetAdd_eq_ok.mpr ⟨hnonneg, by omega, hentry.symm⟩
  have hnew : VirtAddr.new entry = .ok addr := (VirtAddr.new_eq_ok_of_canonical addr.canonical).mpr rfl
  -- the 24 bytes from `entry` on are mapped, and `copy_from` reads them
  obtain ⟨e, he, -⟩ := VirtAddr.exists_forwardChecked_val
    (show addr.val + 23 < 2 ^ 47 by show entry + 23 < _; omega)
  obtain ⟨buf, hcopy, hlen, hread⟩ := copyFrom_eq_ok
    (show 1 ≤ (List.replicate 24 (0 : UInt8)).length by simp) he
    (fun i hi b hb => by
      rw [List.length_replicate] at hi
      rw [VirtAddr.forwardChecked_val (by show entry + i < _; omega) hb]
      exact isSome_of_readByte (hbytes i hi))
  have hbuf : buf = rela.toBytes := by
    apply List.ext_getElem (by simpa using hlen)
    intro k hk _
    rw [List.length_replicate] at hlen hread
    obtain ⟨b, hb, hbyte⟩ := hread k (by omega)
    rw [VirtAddr.forwardChecked_val (by show entry + k < _; omega) hb, hbytes k (by omega),
      Option.some.injEq] at hbyte
    rw [← List.getD_eq_getElem _ 0, ← List.getD_eq_getElem _ 0, hbyte]
  unfold readRelocation
  simp only [liftPanic, hmul, hadd, hvalue, hnew, Except.ok_bind, hcopy, hbuf]
  rw [Rela.decode_toBytes hfields]
  rfl

/-- A returning `copy_to` over a range, from a state whose allocator's frames
are fresh and whose private pages own their frames, keeps all that, maps the
pages it mapped, and spends at most one frame per page of the range. -/
theorem copyTo_keeps {s t : Inner} {addr e : VirtAddr} {buf : List UInt8}
    (hlen : 1 ≤ buf.length) (hend : addr.forwardChecked (buf.length - 1) = some e)
    (hfresh : s.FreshFrames) (hprivate : s.PrivateCopies) (h : s.copyTo addr buf = .ok t) :
    t.FreshFrames ∧ t.PrivateCopies ∧ (∀ p, (t.pageTable p).isSome = (s.pageTable p).isSome) ∧
      s.frames.length ≤ t.frames.length +
        (Page.stepRange (Page.containingAddress addr) (Page.containingAddress e)).length := by
  obtain ⟨-, he⟩ := VirtAddr.forwardChecked_eq_some.mp hend
  have hrange := mem_pagesOfRange (show addr.linear ≤ e.linear by omega)
  rw [copyTo, endInclusiveAddress_eq_ok.mpr ⟨hlen, hend⟩] at h
  simp only [liftPanic, Except.ok_bind] at h
  obtain ⟨⟨hfresh', hprivate', hmapped⟩, hspent⟩ := List.foldlM_spent_le
    (I := fun u : Inner => u.FreshFrames ∧ u.PrivateCopies ∧
      ∀ p, (u.pageTable p).isSome = (s.pageTable p).isSome)
    (μ := fun u => u.frames.length)
    (fun u q u' hu hq hround => by
      obtain ⟨hu₁, hu₂, hu₃⟩ := hu
      obtain ⟨hlo, hhi⟩ := (hrange q).mp hq
      obtain ⟨⟨h₁, h₂, h₃⟩, hcount, -⟩ := copyToPage_eq_ok he hlen hlo hhi hu₁ hu₂ hround
      exact ⟨⟨h₁, h₂, fun p => (h₃ p).trans (hu₃ p)⟩, hcount⟩)
    ⟨hfresh, hprivate, fun _ => rfl⟩ h
  exact ⟨hfresh', hprivate', hmapped, hspent⟩

/-- A range shorter than a page spans at most two pages. -/
theorem length_stepRange_le_two {a e : VirtAddr} (hae : a.linear ≤ e.linear)
    (hshort : e.linear < a.linear + 4096) :
    (Page.stepRange (Page.containingAddress a) (Page.containingAddress e)).length ≤ 2 := by
  have hdiv : a.linear / 4096 * 4096 ≤ e.linear / 4096 * 4096 :=
    Nat.mul_le_mul_right _ (Nat.div_le_div_right hae)
  have hpage : (Page.containingAddress a).startAddress.linear ≤
      (Page.containingAddress e).startAddress.linear := by
    rw [Page.linear_containingAddress, Page.linear_containingAddress]
    exact hdiv
  have hlen := Page.length_stepRange_le hpage
  rw [Page.linear_containingAddress, Page.linear_containingAddress, ← Nat.sub_mul,
    Nat.mul_div_cancel _ (by norm_num)] at hlen
  have hpages : e.linear / 4096 ≤ a.linear / 4096 + 1 := by omega
  omega

/-- `apply_relocation` of an `R_AMD64_RELATIVE` entry inside a loadable
segment, whose target and value are `u64`s, is `copy_to` of the value. -/
theorem applyRelocation_of_relative {s : Inner} {rela : Rela} {segments : List Segment}
    {addr : VirtAddr} (hinfo : rela.info = 8)
    (hload : ∃ segment ∈ segments, segment.type = .load ∧ segment.virtualAddr ≤ rela.offset ∧
      rela.offset - segment.virtualAddr < segment.memSize)
    (htarget : 0 ≤ s.virtualAddressOffset + rela.offset ∧
      s.virtualAddressOffset + rela.offset < 2 ^ 64)
    (haddr : addr.val = rela.target s.virtualAddressOffset)
    (hvalue : 0 ≤ s.virtualAddressOffset + rela.addend ∧
      s.virtualAddressOffset + rela.addend < 2 ^ 64) :
    s.applyRelocation rela segments = s.copyTo addr (leBytes 8 (rela.value s.virtualAddressOffset)) := by
  have hnew : VirtAddr.new (rela.target s.virtualAddressOffset) = .ok addr :=
    (VirtAddr.new_eq_ok_of_canonical (haddr ▸ addr.canonical)).mpr haddr
  unfold applyRelocation
  rw [hinfo, checkIsInLoad_eq_ok.mpr hload,
    virtualAddressOffsetAdd_eq_ok.mpr ⟨htarget.1, htarget.2, rfl⟩,
    virtualAddressOffsetAdd_eq_ok.mpr ⟨hvalue.1, hvalue.2, rfl⟩]
  simp only [Nat.reducePow, Nat.reduceDiv, Nat.reduceMod, ne_eq, not_true_eq_false, ↓reduceIte,
    Except.ok_bind]
  rw [show (s.virtualAddressOffset + rela.offset).toNat = rela.target s.virtualAddressOffset from rfl,
    hnew]
  rfl

/-- The bytes of a table of entries: entry `idx` from byte `24 * idx` on. -/
theorem Rela.getD_flatMap_toBytes :
    ∀ {relas : List Rela} {idx k : Nat} (hidx : idx < relas.length), k < 24 →
      (relas.flatMap Rela.toBytes).getD (24 * idx + k) 0 = relas[idx].toBytes.getD k 0
  | _ :: _, 0, k, _, hk => by
    rw [List.flatMap_cons, Nat.mul_zero, Nat.zero_add, List.getD_append _ _ _ _ (by simpa using hk),
      List.getElem_cons_zero]
  | rela :: relas, idx + 1, k, hidx, hk => by
    rw [List.flatMap_cons, List.getD_append_right _ _ _ _ (by simp; omega), Rela.length_toBytes,
      show 24 * (idx + 1) + k - 24 = 24 * idx + k by omega, List.getElem_cons_succ,
      Rela.getD_flatMap_toBytes (by simpa using hidx) hk]

/-! ## The relocation pass -/

/-- The relocation table at `table` (a `DT_RELA` value, before the virtual
address offset) holding `relas`, as the pass starting in `s` needs it: the
table's bytes are the entries' in the lower half of the kernel's address
space; every entry is an `R_AMD64_RELATIVE` relocation into a loadable
segment whose target, in the lower half, is mapped, and whose value is a
`u64`; the words relocated lie apart from the table and from each other. -/
structure RelaTable (s : Inner) (segments : List Segment) (table : Nat) (relas : List Rela) :
    Prop where
  fits : table + 24 * relas.length < 2 ^ 64
  nonneg : 0 ≤ s.virtualAddressOffset + table
  lower : (s.virtualAddressOffset + table).toNat + 24 * relas.length ≤ 2 ^ 47
  bytes : ∀ j < 24 * relas.length, s.readByte ((s.virtualAddressOffset + table).toNat + j) =
    some ((relas.flatMap Rela.toBytes).getD j 0)
  fields : ∀ rela ∈ relas, rela.offset < 2 ^ 64 ∧ rela.info < 2 ^ 64 ∧ rela.addend < 2 ^ 64
  relative : ∀ rela ∈ relas, rela.info = 8
  inLoad : ∀ rela ∈ relas, ∃ segment ∈ segments, segment.type = .load ∧
    segment.virtualAddr ≤ rela.offset ∧ rela.offset - segment.virtualAddr < segment.memSize
  targetLower : ∀ rela ∈ relas, 0 ≤ s.virtualAddressOffset + rela.offset ∧
    rela.target s.virtualAddressOffset + 8 ≤ 2 ^ 47
  valueFits : ∀ rela ∈ relas, 0 ≤ s.virtualAddressOffset + rela.addend ∧
    s.virtualAddressOffset + rela.addend < 2 ^ 64
  mapped : ∀ rela ∈ relas, ∀ k < 8,
    (s.pageTable ((rela.target s.virtualAddressOffset + k) / 4096)).isSome
  apartTable : ∀ rela ∈ relas,
    rela.target s.virtualAddressOffset + 8 ≤ (s.virtualAddressOffset + table).toNat ∨
      (s.virtualAddressOffset + table).toNat + 24 * relas.length ≤ rela.target s.virtualAddressOffset
  apart : ∀ rela ∈ relas, ∀ rela' ∈ relas, rela ≠ rela' →
    rela.target s.virtualAddressOffset + 8 ≤ rela'.target s.virtualAddressOffset ∨
      rela'.target s.virtualAddressOffset + 8 ≤ rela.target s.virtualAddressOffset

/-- What the relocation loop keeps of the state `s` it started in: the
allocator's frames stay fresh, private pages own their frames, the mapped
pages and the offset stay, and no byte but the relocated words changes. -/
structure RelocationInvariant (s : Inner) (relas : List Rela) (u : Inner) : Prop where
  fresh : u.FreshFrames
  privateCopies : u.PrivateCopies
  virtualAddressOffset : u.virtualAddressOffset = s.virtualAddressOffset
  mapped : ∀ p, (u.pageTable p).isSome = (s.pageTable p).isSome
  unchanged : ∀ a, (∀ rela ∈ relas, ∀ k < 8, rela.target s.virtualAddressOffset + k ≠ a) →
    u.readByte a = s.readByte a

section RelocationLoop

variable {s : Inner} {segments : List Segment} {table : Nat} {relas : List Rela}

/-- The `idx`-th round of the loop reads the `idx`-th entry, which no earlier
round wrote over, and writes its word with at most two fresh frames, leaving
every other byte as it was. -/
theorem relocationRound_eq_ok (ht : RelaTable s segments table relas) {u : Inner}
    (hu : RelocationInvariant s relas u) (hframes : 2 ≤ u.frames.length) {idx : Nat}
    (hidx : idx < relas.length) :
    ∃ u', (u.readRelocation table idx >>= fun rela => u.applyRelocation rela segments) = .ok u' ∧
      RelocationInvariant s relas u' ∧ u.frames.length ≤ u'.frames.length + 2 ∧
      (∀ k < 8, u'.readByte (relas[idx].target s.virtualAddressOffset + k) =
        some ((leBytes 8 (relas[idx].value s.virtualAddressOffset)).getD k 0)) ∧
      ∀ a, (∀ k < 8, relas[idx].target s.virtualAddressOffset + k ≠ a) →
        u'.readByte a = u.readByte a := by
  have hmem : relas[idx] ∈ relas := List.getElem_mem hidx
  have hoff := hu.virtualAddressOffset
  -- the entry is read from the table, which no round writes over
  have hentry : (u.virtualAddressOffset + (table + 24 * idx : Nat)).toNat =
      (s.virtualAddressOffset + table).toNat + 24 * idx := by
    have := ht.nonneg
    rw [hoff]
    omega
  have hread : u.readRelocation table idx = .ok relas[idx] := by
    have := ht.nonneg
    have := ht.lower
    refine readRelocation_eq_ok (by have := ht.fits; omega) (by rw [hoff]; omega)
      (by rw [hentry]; omega) (fun k hk => ?_) (ht.fields _ hmem)
    have hapart : ∀ rela ∈ relas, ∀ k' < 8, rela.target s.virtualAddressOffset + k' ≠
        (s.virtualAddressOffset + table).toNat + (24 * idx + k) := fun rela hrela k' hk' => by
      rcases ht.apartTable rela hrela with h | h <;> omega
    rw [hentry, Nat.add_assoc, hu.unchanged _ hapart, ht.bytes _ (by omega),
      Rela.getD_flatMap_toBytes hidx hk]
  -- the relocation is `copy_to` of its value at its target
  obtain ⟨hnonneg, hlower⟩ := ht.targetLower _ hmem
  let addr : VirtAddr := ⟨relas[idx].target s.virtualAddressOffset, by unfold Canonical; omega⟩
  have happly : u.applyRelocation relas[idx] segments =
      u.copyTo addr (leBytes 8 (relas[idx].value s.virtualAddressOffset)) := by
    rw [← hoff]
    exact applyRelocation_of_relative (ht.relative _ hmem) (ht.inLoad _ hmem)
      ⟨by rw [hoff]; exact hnonneg, by rw [hoff]; unfold Rela.target at hlower; omega⟩
      (by rw [hoff]) (by rw [hoff]; exact ht.valueFits _ hmem)
  -- `copy_to` returns: its eight bytes are on at most two mapped pages
  obtain ⟨e, hend, heval⟩ := VirtAddr.exists_forwardChecked_val
    (show addr.val + 7 < 2 ^ 47 by show relas[idx].target s.virtualAddressOffset + 7 < _; omega)
  have hlen : 1 ≤ (leBytes 8 (relas[idx].value s.virtualAddressOffset)).length := by simp
  have hend' : addr.forwardChecked
      ((leBytes 8 (relas[idx].value s.virtualAddressOffset)).length - 1) = some e := by
    rw [length_leBytes]
    exact hend
  have hval : ∀ i < 8, ∀ b : VirtAddr, addr.forwardChecked i = some b →
      b.val = relas[idx].target s.virtualAddressOffset + i := fun i hi b hb =>
    VirtAddr.forwardChecked_val (by show relas[idx].target s.virtualAddressOffset + i < _; omega) hb
  have hpages := length_stepRange_le_two (a := addr) (e := e)
    (by have := (VirtAddr.forwardChecked_eq_some.mp hend).2; omega)
    (by have := (VirtAddr.forwardChecked_eq_some.mp hend).2; omega)
  obtain ⟨u', hcopy, hwritten, hkept⟩ := copyTo_eq_ok hlen hend'
    (fun i hi b hb => by
      rw [length_leBytes] at hi
      rw [hval i hi b hb, hu.mapped]
      exact ht.mapped _ hmem i hi) hu.fresh hu.privateCopies (by omega)
  obtain ⟨hfresh', hprivate', hmapped', hspent⟩ :=
    copyTo_keeps hlen hend' hu.fresh hu.privateCopies hcopy
  -- the bytes off the word are the round's state's
  have hkept' : ∀ a, (∀ k < 8, relas[idx].target s.virtualAddressOffset + k ≠ a) →
      u'.readByte a = u.readByte a := fun a ha =>
    hkept a (fun i hi b hb => by
      rw [length_leBytes] at hi
      rw [hval i hi b hb]
      exact ha i hi)
  refine ⟨u', by rw [hread, Except.ok_bind, happly, hcopy], ⟨hfresh', hprivate',
    (copyTo_lowers hcopy).virtualAddressOffset.trans hoff,
    fun p => (hmapped' p).trans (hu.mapped p),
    fun a ha => (hkept' a (ha _ hmem)).trans (hu.unchanged a ha)⟩, by omega,
    fun k hk => ?_, hkept'⟩
  obtain ⟨b, hb, hbyte⟩ := hwritten k (by simpa using hk)
  rwa [hval k hk b hb] at hbyte

/-- The loop's first `m` rounds return, keep the invariant with two frames
left for each round still to come, and leave each relocation of the first
`m` entries written. -/
theorem relocationLoop_eq_ok (ht : RelaTable s segments table relas) (hfresh : s.FreshFrames)
    (hprivate : s.PrivateCopies) (hframes : 2 * relas.length ≤ s.frames.length) :
    ∀ m ≤ relas.length, ∃ u, (List.range m).foldlM
        (fun inner idx => do inner.applyRelocation (← inner.readRelocation table idx) segments) s =
        .ok u ∧ RelocationInvariant s relas u ∧ 2 * (relas.length - m) ≤ u.frames.length ∧
      ∀ rela ∈ relas.take m, ∀ k < 8, u.readByte (rela.target s.virtualAddressOffset + k) =
        some ((leBytes 8 (rela.value s.virtualAddressOffset)).getD k 0)
  | 0, _ => ⟨s, rfl, ⟨hfresh, hprivate, rfl, fun _ => rfl, fun _ _ => rfl⟩, by simpa using hframes,
      by simp⟩
  | m + 1, hm => by
    obtain ⟨u, hfold, hu, hbudget, hdone⟩ :=
      relocationLoop_eq_ok ht hfresh hprivate hframes m (by omega)
    have hidx : m < relas.length := by omega
    obtain ⟨u', hround, hu', hspent, hwritten, hkept⟩ := relocationRound_eq_ok ht hu (by omega) hidx
    refine ⟨u', ?_, hu', by omega, fun rela hrela k hk => ?_⟩
    · rw [List.range_succ, List.foldlM_append, hfold, Except.ok_bind, List.foldlM_cons, hround,
        Except.ok_bind, List.foldlM_nil]
      rfl
    rw [List.take_add_one, List.getElem?_eq_getElem hidx, Option.toList_some, List.mem_append,
      List.mem_singleton] at hrela
    -- an earlier word is this round's, written again, or apart from it
    by_cases hsame : rela = relas[m]
    · subst hsame
      exact hwritten k hk
    rcases hrela with hrela | hrela
    · have hmem := List.mem_of_mem_take hrela
      rw [hkept _ (fun k' hk' => by
        rcases ht.apart _ hmem _ (List.getElem_mem hidx) hsame with h | h <;> omega)]
      exact hdone rela hrela k hk
    · exact absurd hrela hsame

end RelocationLoop

/-- `handle_dynamic_segment` on a dynamic section that `read_array` reads
and whose `DT_RELA` table, of `DT_RELAENT = 24`-byte entries, holds `relas`,
placed as the pass needs it, with two fresh frames per relocation: the pass
returns, each relocated word reads `virtual_address_offset + r_addend`,
little-endian, at `virtual_address_offset + r_offset`, and every other byte
is as before. -/
theorem handleDynamicSegment_relocates {s : Inner} {segment : Segment} {segments : List Segment}
    {entries : List (Nat × Nat)} {table : Nat} {relas : List Rela}
    (hdata : s.dynamicEntries segment = .ok entries)
    (hentries : findRelaEntries getTag entries = .ok (some table, some (24 * relas.length), some 24))
    (ht : RelaTable s segments table relas) (hfresh : s.FreshFrames) (hprivate : s.PrivateCopies)
    (hframes : 2 * relas.length ≤ s.frames.length) :
    ∃ t, s.handleDynamicSegment segment segments = .ok t ∧
      (∀ rela ∈ relas, ∀ k < 8, t.readByte (rela.target s.virtualAddressOffset + k) =
        some ((leBytes 8 (rela.value s.virtualAddressOffset)).getD k 0)) ∧
      ∀ a, (∀ rela ∈ relas, ∀ k < 8, rela.target s.virtualAddressOffset + k ≠ a) →
        t.readByte a = s.readByte a := by
  obtain ⟨t, hfold, hinv, -, hwritten⟩ :=
    relocationLoop_eq_ok ht hfresh hprivate hframes relas.length le_rfl
  rw [List.take_length] at hwritten
  refine ⟨t, ?_, hwritten, hinv.unchanged⟩
  unfold handleDynamicSegment
  rw [hdata, Except.ok_bind, hentries, Except.ok_bind]
  simp only [pure_bind, ne_eq, not_true_eq_false, ↓reduceIte,
    Nat.mul_div_cancel_left _ (show 0 < 24 by norm_num)]
  exact hfold

/-- A kernel file at `0x18_0000`, mapped in place from `0x1040_0000`: the
virtual address offset is `0x1000_0000` and the pages of `[0x40_0000,
0x40_3000)` map the file's first three frames, writable and not yet copied.
At file offset `0x2000` lies a table of two relative relocations, at
`0x40_1000` and `0x40_1008`, and at `0x2100` the dynamic section with
`DT_RELA = 0x40_2000`, `DT_RELASZ = 48` and `DT_RELAENT = 24`. -/
def relocatingKernel : Inner where
  kernelOffset := ⟨0x180000, by decide⟩
  virtualAddressOffset := 0x10000000
  pageTable := fun p => if h : 0x10400 ≤ p ∧ p < 0x10403 then
    some ⟨⟨p - 0x10400 + 0x180, by omega⟩, ⟨true, true, false⟩⟩ else none
  memory := writeBytes
    (writeBytes (fun _ => 0) 0x182000
      (([⟨0x401000, 8, 0x400100⟩, ⟨0x401008, 8, 0x400200⟩] : List Rela).flatMap Rela.toBytes))
    0x182100 (leBytes 8 7 ++ leBytes 8 0x402000 ++ leBytes 8 8 ++ leBytes 8 48 ++
      leBytes 8 9 ++ leBytes 8 24)
  frames := [⟨0x280, by decide⟩, ⟨0x281, by decide⟩, ⟨0x282, by decide⟩, ⟨0x283, by decide⟩]

theorem handleDynamicSegment_relocates_on_small_kernel :
    let relas : List Rela := [⟨0x401000, 8, 0x400100⟩, ⟨0x401008, 8, 0x400200⟩]
    let segments : List Segment :=
      [⟨.load, 6, 0, 0x400000, 0x3000, 0x3000, 0x1000⟩, ⟨.dynamic, 6, 0x2100, 0x402100, 0x30, 0x30, 8⟩]
    ∃ t, relocatingKernel.handleDynamicSegment ⟨.dynamic, 6, 0x2100, 0x402100, 0x30, 0x30, 8⟩
        segments = .ok t ∧
      (∀ rela ∈ relas, ∀ k < 8, t.readByte (rela.target relocatingKernel.virtualAddressOffset + k) =
        some ((leBytes 8 (rela.value relocatingKernel.virtualAddressOffset)).getD k 0)) ∧
      ∀ a, (∀ rela ∈ relas, ∀ k < 8, rela.target relocatingKernel.virtualAddressOffset + k ≠ a) →
        t.readByte a = relocatingKernel.readByte a := by
  intro relas segments
  have hfresh : relocatingKernel.FreshFrames := by
    refine ⟨by decide +kernel, fun p entry h => ?_⟩
    simp only [relocatingKernel] at h ⊢
    split at h
    · cases h
      simp only [List.mem_cons, PhysFrame.mk.injEq, List.not_mem_nil, or_false]
      omega
    · cases h
  have hprivate : relocatingKernel.PrivateCopies := by
    intro p entry h hcopied
    simp only [relocatingKernel] at h
    split at h
    · cases h
      cases hcopied
    · cases h
  exact handleDynamicSegment_relocates
    (show relocatingKernel.dynamicEntries _ = .ok [(7, 0x402000), (8, 48), (9, 24)] by decide +kernel)
    (show findRelaEntries getTag _ = .ok (some 0x402000, some (24 * relas.length), some 24) by rfl)
    ⟨by decide +kernel, by decide +kernel, by decide +kernel, by decide +kernel, by decide +kernel,
      by decide +kernel, by decide +kernel, by decide +kernel, by decide +kernel, by decide +kernel,
      by decide +kernel, by decide +kernel⟩ hfresh hprivate (by decide +kernel)

end Inner

end Bootloader
