/-
Bootloader.Bios.QueryMemoryMap — stage 2's E820 memory map query
(`bios/stage-2/src/memory_map.rs`: `query_memory_map`,
`bios/stage-2/src/main.rs`: `split_array_ref`).

`query_memory_map` calls `int 0x15` with `eax = 0xE820` until the BIOS hands
back the continuation 0. Each call returns `eax`, which must be `SMAP`, the
continuation, and the number of bytes it wrote into a 24-byte buffer. A
non-empty answer is cut into base (8 bytes), length (8) and type (4), read
in the machine's byte order; an entry of length zero is dropped, any other
is stored in the next slot of a static array of 100 entries.

The BIOS is the list of its answers, in the order it gives them; the model
does not ask which continuation it was handed. The four ACPI 3.0 bytes,
read with `unwrap_or_default`, are stored in a field that nothing modelled
reads (`E820MemoryRegion` leaves it out).

* `queryMemoryMap_eq_ok`: on answers that all carry `SMAP` and write no
  entry or one of 20 to 24 bytes, up to the first answer with continuation
  0, the query returns the non-empty entries, in order, as the E820 layout
  reads them (`E820Answer.region?`), when there are at most 100.
* `queryMemoryMap_panics_past_100`: one more non-empty entry, and the query
  stops with an index out of bounds.
-/
import Bootloader.Bios.MemoryDescriptor
import Bootloader.Lib.LittleEndian

namespace Bootloader

namespace Bios

open LittleEndian

/-- `SMAP`, which the BIOS returns in `eax` on success. -/
def SMAP : Nat := 0x534D4150

/-- Stage 2's `split_array_ref::<N>`: the first `n` elements and the rest;
`fail(b'S')` on a slice shorter than `n`. -/
def splitArrayRef {α : Type} (n : Nat) (slice : List α) : Except Panic (List α × List α) :=
  if n > slice.length then .error .explicit else .ok (slice.take n, slice.drop n)

/-- What one call of `int 0x15` with `eax = 0xE820` hands back: `eax`, the
continuation for the next call, the number of bytes written (`ecx`), and the
24-byte buffer afterwards. -/
structure E820Answer where
  ret : Nat
  offset : Nat
  bufWrittenLen : Nat
  buf : List UInt8
  bufLength : buf.length = 24

namespace E820Answer

/-- The entry the loop body stores for an answer that passed the `SMAP`
check: none if the BIOS wrote nothing or a length of zero. -/
def entry (answer : E820Answer) : Except Panic (Option E820MemoryRegion) := do
  if answer.bufWrittenLen = 0 then return none
  -- `&buf[..buf_written_len]`
  if answer.buf.length < answer.bufWrittenLen then throw .indexOutOfBounds
  let buf := answer.buf.take answer.bufWrittenLen
  let (baseRaw, rest) ← splitArrayRef 8 buf
  let (lenRaw, rest) ← splitArrayRef 8 rest
  let (kindRaw, _) ← splitArrayRef 4 rest
  let len := ofLeBytes lenRaw
  if len ≠ 0 then return some ⟨ofLeBytes baseRaw, len, ofLeBytes kindRaw⟩
  return none

/-- The entry an answer reports as the E820 layout has it: base, length
and type, little-endian, unless nothing was written or the length is 0. -/
def region? (answer : E820Answer) : Option E820MemoryRegion :=
  let len := ofLeBytes ((answer.buf.drop 8).take 8)
  if answer.bufWrittenLen = 0 ∨ len = 0 then none
  else some ⟨ofLeBytes (answer.buf.take 8), len, ofLeBytes ((answer.buf.drop 16).take 4)⟩

end E820Answer

/-- The loop of `query_memory_map` over the BIOS's answers, from the entries
stored so far (`memory_map[..i]`): `some (Err(()))` on an answer without
`SMAP`, `some (Ok ..)` after the answer with continuation 0, and `none` if
the answers run out before. -/
def queryLoop :
    List E820Answer → List E820MemoryRegion →
      Except Panic (Option (Except Unit (List E820MemoryRegion)))
  | [], _ => pure none
  | answer :: answers, memoryMap => do
    if answer.ret ≠ SMAP then return some (.error ())
    let memoryMap ← match ← answer.entry with
      | none => pure memoryMap
      | some entry =>
        -- `memory_map[i] = ..` in the static array of 100 entries
        if memoryMap.length < 100 then pure (memoryMap ++ [entry]) else throw .indexOutOfBounds
    if answer.offset = 0 then return some (.ok memoryMap)
    queryLoop answers memoryMap

/-- `query_memory_map`. -/
def queryMemoryMap (answers : List E820Answer) :
    Except Panic (Option (Except Unit (List E820MemoryRegion))) :=
  queryLoop answers []

namespace E820Answer

/-- An answer the loop takes without stopping: it carries `SMAP` and wrote
no entry or one of 20 to 24 bytes. -/
def Accepted (answer : E820Answer) : Prop :=
  answer.ret = SMAP ∧ (answer.bufWrittenLen = 0 ∨ 20 ≤ answer.bufWrittenLen ∧ answer.bufWrittenLen ≤ 24)

instance (answer : E820Answer) : Decidable answer.Accepted :=
  inferInstanceAs (Decidable (_ ∧ _))

end E820Answer

theorem splitArrayRef_of_le {α : Type} {n : Nat} {slice : List α} (h : n ≤ slice.length) :
    splitArrayRef n slice = .ok (slice.take n, slice.drop n) :=
  if_neg (Nat.not_lt.mpr h)

namespace E820Answer

/-- An answer of no bytes or of 20 to 24 bytes is decoded as the E820
layout reads it: the ACPI bytes past 20 change nothing. -/
theorem entry_eq_ok {answer : E820Answer}
    (h : answer.bufWrittenLen = 0 ∨ 20 ≤ answer.bufWrittenLen ∧ answer.bufWrittenLen ≤ 24) :
    answer.entry = .ok answer.region? := by
  have hbuf := answer.bufLength
  rcases h with h | ⟨hlo, hhi⟩
  · simp [entry, region?, h]
  -- each split finds enough bytes left, and reads the same bytes as the layout
  unfold entry region?
  rw [if_neg (by omega), if_neg (by omega)]
  dsimp only
  rw [splitArrayRef_of_le (by simp; omega), Except.ok_bind]
  dsimp only
  rw [splitArrayRef_of_le (by simp; omega), Except.ok_bind]
  dsimp only
  rw [splitArrayRef_of_le (by simp; omega), Except.ok_bind]
  dsimp only
  rw [List.take_take, Nat.min_eq_left (by omega), List.drop_take, List.take_take,
    Nat.min_eq_left (by omega), List.drop_take, List.drop_drop, List.take_take,
    Nat.min_eq_left (by omega)]
  simp only [show answer.bufWrittenLen ≠ 0 by omega, false_or, Nat.reduceAdd]
  by_cases hlen : ofLeBytes ((answer.buf.drop 8).take 8) = 0
  · rw [if_neg (not_not.mpr hlen), if_pos hlen]
    rfl
  · rw [if_pos hlen, if_neg hlen]
    rfl

end E820Answer

/-! ## The loop -/

theorem filterMap_singleton {α β : Type} (f : α → Option β) (a : α) :
    [a].filterMap f = (f a).toList := by
  rw [List.filterMap_cons]
  cases f a <;> rfl

/-- One round on an accepted answer whose entry, if any, still has a slot:
the entry is stored, and the loop ends on the continuation 0. -/
theorem queryLoop_cons {answer : E820Answer} {answers : List E820Answer}
    {memoryMap : List E820MemoryRegion} (hanswer : answer.Accepted)
    (hroom : (memoryMap ++ answer.region?.toList).length ≤ 100) :
    queryLoop (answer :: answers) memoryMap =
      if answer.offset = 0 then .ok (some (.ok (memoryMap ++ answer.region?.toList)))
      else queryLoop answers (memoryMap ++ answer.region?.toList) := by
  rw [queryLoop, if_neg (not_not.mpr hanswer.1), E820Answer.entry_eq_ok hanswer.2]
  simp only [pure_bind, Except.ok_bind]
  cases hregion : answer.region? with
  | none =>
    simp only [Option.toList_none, List.append_nil]
    split_ifs <;> rfl
  | some entry =>
    rw [hregion, Option.toList_some, List.length_append, List.length_singleton] at hroom
    simp only [Option.toList_some, if_pos (show memoryMap.length < 100 by omega)]
    split_ifs <;> rfl

/-- One round on an accepted answer with an entry when all 100 slots are
taken: `memory_map[100]` is out of bounds. -/
theorem queryLoop_cons_of_full {answer : E820Answer} {answers : List E820Answer}
    {memoryMap : List E820MemoryRegion} {entry : E820MemoryRegion} (hanswer : answer.Accepted)
    (hregion : answer.region? = some entry) (hfull : 100 ≤ memoryMap.length) :
    queryLoop (answer :: answers) memoryMap = .error .indexOutOfBounds := by
  rw [queryLoop, if_neg (not_not.mpr hanswer.1), E820Answer.entry_eq_ok hanswer.2, hregion]
  simp only [pure_bind, Except.ok_bind, if_neg (show ¬memoryMap.length < 100 by omega)]
  rfl

section Run

variable {last : E820Answer} {rest : List E820Answer}

/-- On accepted answers up to the one with continuation 0, the loop appends
the reported entries, in order, to those it had, when they fit in 100. -/
theorem queryLoop_eq_ok (hlast : last.Accepted) (hend : last.offset = 0) :
    ∀ (answers : List E820Answer) (memoryMap : List E820MemoryRegion),
      (∀ answer ∈ answers, answer.Accepted ∧ answer.offset ≠ 0) →
      memoryMap.length + ((answers ++ [last]).filterMap E820Answer.region?).length ≤ 100 →
      queryLoop (answers ++ last :: rest) memoryMap =
        .ok (some (.ok (memoryMap ++ (answers ++ [last]).filterMap E820Answer.region?)))
  | [], memoryMap, _, hroom => by
    simp only [List.nil_append] at hroom ⊢
    rw [filterMap_singleton] at hroom ⊢
    rw [queryLoop_cons hlast (by simpa using hroom), if_pos hend]
  | answer :: answers, memoryMap, hanswers, hroom => by
    have hanswer := hanswers answer List.mem_cons_self
    simp only [List.cons_append] at hroom ⊢
    rw [List.filterMap_cons] at hroom ⊢
    -- the answer's entry, if any, joins the map, and the loop goes on
    cases hregion : answer.region? with
    | none =>
      rw [queryLoop_cons hanswer.1 (by simp [hregion]; omega), if_neg hanswer.2, hregion,
        Option.toList_none, List.append_nil,
        queryLoop_eq_ok hlast hend answers memoryMap (fun a ha => hanswers a (List.mem_cons_of_mem _ ha))
          (by simpa [hregion] using hroom)]
    | some entry =>
      rw [hregion, List.length_cons] at hroom
      rw [queryLoop_cons hanswer.1 (by simp [hregion]; omega), if_neg hanswer.2, hregion,
        Option.toList_some,
        queryLoop_eq_ok hlast hend answers _ (fun a ha => hanswers a (List.mem_cons_of_mem _ ha))
          (by simp only [List.length_append, List.length_singleton]; omega), List.append_assoc]
      rfl

/-- On the same answers with more entries than slots, the loop stops with an
index out of bounds at the first entry past the 100th. -/
theorem queryLoop_eq_error (hlast : last.Accepted) (hend : last.offset = 0) :
    ∀ (answers : List E820Answer) (memoryMap : List E820MemoryRegion),
      (∀ answer ∈ answers, answer.Accepted ∧ answer.offset ≠ 0) → memoryMap.length ≤ 100 →
      100 < memoryMap.length + ((answers ++ [last]).filterMap E820Answer.region?).length →
      queryLoop (answers ++ last :: rest) memoryMap = .error .indexOutOfBounds
  | [], memoryMap, _, hle, hover => by
    simp only [List.nil_append] at hover ⊢
    rw [filterMap_singleton] at hover
    cases hregion : last.region? with
    | none => simp [hregion] at hover; omega
    | some entry =>
      exact queryLoop_cons_of_full hlast hregion (by simp [hregion] at hover; omega)
  | answer :: answers, memoryMap, hanswers, hle, hover => by
    have hanswer := hanswers answer List.mem_cons_self
    have hnext := fun memoryMap => queryLoop_eq_error hlast hend answers memoryMap
      (fun a ha => hanswers a (List.mem_cons_of_mem _ ha))
    simp only [List.cons_append] at hover ⊢
    rw [List.filterMap_cons] at hover
    cases hregion : answer.region? with
    | none =>
      rw [queryLoop_cons hanswer.1 (by simp [hregion]; omega), if_neg hanswer.2, hregion,
        Option.toList_none, List.append_nil]
      exact hnext memoryMap hle (by simpa [hregion] using hover)
    | some entry =>
      rw [hregion, List.length_cons] at hover
      -- with a slot left the entry is stored; with none the round stops
      by_cases hfull : 100 ≤ memoryMap.length
      · exact queryLoop_cons_of_full hanswer.1 hregion hfull
      rw [queryLoop_cons hanswer.1 (by simp [hregion]; omega), if_neg hanswer.2, hregion,
        Option.toList_some]
      exact hnext _ (by rw [List.length_append, List.length_singleton]; omega)
        (by rw [List.length_append, List.length_singleton]; omega)

end Run

/-- A BIOS whose answers up to the one with continuation 0 all carry `SMAP`
and write no entry or one of 20 to 24 bytes, with at most 100 non-empty
entries: `query_memory_map` returns those entries, in the order the BIOS
gave them, read as the E820 layout reads them; answers after the last are
never asked for. -/
theorem queryMemoryMap_eq_ok {answers rest : List E820Answer} {last : E820Answer}
    (hanswers : ∀ answer ∈ answers, answer.Accepted ∧ answer.offset ≠ 0)
    (hlast : last.Accepted) (hend : last.offset = 0)
    (hfits : ((answers ++ [last]).filterMap E820Answer.region?).length ≤ 100) :
    queryMemoryMap (answers ++ last :: rest) =
      .ok (some (.ok ((answers ++ [last]).filterMap E820Answer.region?))) := by
  rw [queryMemoryMap, queryLoop_eq_ok hlast hend answers [] hanswers (by simpa using hfits),
    List.nil_append]

/-- An answer with `eax = ret`, the continuation `offset`, `written` bytes
and the entry `base`, `len`, `type` with ACPI attributes 1 in the buffer. -/
def e820Answer (ret offset written base len type : Nat) : E820Answer :=
  ⟨ret, offset, written, leBytes 8 base ++ leBytes 8 len ++ leBytes 4 type ++ leBytes 4 1, by simp⟩

/-- A BIOS that reports conventional memory with a 20-byte answer, memory
above 1 MiB, an empty entry, and a reserved range with the last answer. -/
theorem queryMemoryMap_eq_ok_on_small_bios :
    let answers := [e820Answer SMAP 1 20 0 0x9FC00 1, e820Answer SMAP 2 24 0x100000 0x7EE0000 1,
      e820Answer SMAP 3 24 0xF0000 0 2]
    let last := e820Answer SMAP 0 24 0xFFFC0000 0x40000 2
    queryMemoryMap (answers ++ last :: []) =
        .ok (some (.ok ((answers ++ [last]).filterMap E820Answer.region?))) ∧
      (answers ++ [last]).filterMap E820Answer.region? =
        [⟨0, 0x9FC00, 1⟩, ⟨0x100000, 0x7EE0000, 1⟩, ⟨0xFFFC0000, 0x40000, 2⟩] :=
  ⟨queryMemoryMap_eq_ok (by decide) (by decide) rfl (by decide), by decide⟩

/-- The same BIOS with more than 100 non-empty entries: `query_memory_map`
panics, `memory_map[i]` being out of bounds. -/
theorem queryMemoryMap_panics_past_100 {answers rest : List E820Answer} {last : E820Answer}
    (hanswers : ∀ answer ∈ answers, answer.Accepted ∧ answer.offset ≠ 0)
    (hlast : last.Accepted) (hend : last.offset = 0)
    (hover : 100 < ((answers ++ [last]).filterMap E820Answer.region?).length) :
    queryMemoryMap (answers ++ last :: rest) = .error .indexOutOfBounds :=
  queryLoop_eq_error hlast hend answers [] hanswers (Nat.zero_le _) (by simpa using hover)

/-- A BIOS that reports 101 pages of usable memory, one per answer. -/
theorem queryMemoryMap_panics_on_101_entries :
    let answers := (List.range 100).map fun i => e820Answer SMAP (i + 1) 24 (i * 0x1000) 0x1000 1
    let last := e820Answer SMAP 0 24 0x64000 0x1000 1
    queryMemoryMap (answers ++ last :: []) = .error .indexOutOfBounds :=
  queryMemoryMap_panics_past_100 (by decide +kernel) (by decide) rfl (by decide +kernel)

end Bios

end Bootloader
