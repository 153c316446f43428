/-
Bootloader.X86.PageWalk — the processor's translation of a virtual address
through raw four-level page tables.

Where the bootloader builds page tables by hand, out of raw 64-bit entries,
their meaning is the processor's page walk, not the `x86_64` crate's
`Mapper`. The model keeps:

* physical memory as the 64-bit word at each byte address the walk reads,
  and a run of 64-bit stores to it (`writeWords`), with the two facts every
  proof about such a run needs: an address no store hits keeps its word, and
  an address whose stores all write one value holds that value;
* the entry bits the walk reads: PRESENT (bit 0), PAGE_SIZE (bit 7) and the
  physical address bits 12 to 51;
* `walk`: from the table CR3 names down, a 1 GiB page at level 3, a 2 MiB
  page at level 2, or a 4 KiB page at level 1, each an offset into the frame.

An entry written as a page-aligned address `|` some flags below the
alignment is that address `+` the flags (`lor_eq_add`), which is how the
entry lemmas read back what was stored.

Access rights, the accessed and dirty bits and reserved-bit faults are left
out: the walk says where an address goes, not whether an access may go there.
-/
import Mathlib

namespace Bootloader

/-! ## Stores -/

/-- A run of 64-bit stores, in program order, each an address and the word
stored there. -/
def writeWords (mem : Nat → Nat) (writes : List (Nat × Nat)) : Nat → Nat :=
  writes.foldl (fun mem w => Function.update mem w.1 w.2) mem

/-- An address no store hits keeps its word. -/
theorem writeWords_of_not_mem {mem : Nat → Nat} {writes : List (Nat × Nat)} {a : Nat}
    (h : ∀ w ∈ writes, w.1 ≠ a) : writeWords mem writes a = mem a := by
  induction writes generalizing mem with
  | nil => rfl
  | cons w writes ih =>
    rw [writeWords, List.foldl_cons, ← writeWords,
      ih fun w' hw' => h w' (List.mem_cons_of_mem _ hw')]
    exact Function.update_of_ne (h w List.mem_cons_self).symm _ _

/-- An address that some store hits, all with the same word, holds that word. -/
theorem writeWords_of_mem {mem : Nat → Nat} {writes : List (Nat × Nat)} {a v : Nat}
    (hmem : (a, v) ∈ writes) (huniq : ∀ w ∈ writes, w.1 = a → w.2 = v) :
    writeWords mem writes a = v := by
  induction writes generalizing mem with
  | nil => cases hmem
  | cons w writes ih =>
    rw [writeWords, List.foldl_cons, ← writeWords]
    by_cases hlater : ∃ w' ∈ writes, w'.1 = a
    -- a later store to `a` decides
    · obtain ⟨w', hw', hw'a⟩ := hlater
      have hv := huniq w' (List.mem_cons_of_mem _ hw') hw'a
      exact ih (by rw [← hv, ← hw'a]; exact hw') fun w'' hw'' => huniq w'' (List.mem_cons_of_mem _ hw'')
    -- otherwise the first store was the one to `a`
    · simp only [not_exists, not_and] at hlater
      rw [writeWords_of_not_mem hlater]
      have hw : w = (a, v) := by
        rcases List.mem_cons.mp hmem with h | h
        · exact h.symm
        · exact absurd rfl (hlater _ h)
      subst hw
      exact Function.update_self _ _ _

/-! ## Entries -/

namespace PageWalk

/-- PRESENT, bit 0. -/
def present (entry : Nat) : Bool := entry % 2 == 1

/-- PAGE_SIZE, bit 7 (`HUGE_PAGE` in the `x86_64` crate): at level 3 a 1 GiB
page, at level 2 a 2 MiB page. -/
def pageSize (entry : Nat) : Bool := entry / 2 ^ 7 % 2 == 1

/-- Bits 12 to 51: the next table, or a 4 KiB frame. -/
def nextTable (entry : Nat) : Nat := entry / 2 ^ 12 % 2 ^ 40 * 2 ^ 12

/-- Bits 21 to 51: a 2 MiB frame. -/
def frame2MiB (entry : Nat) : Nat := entry / 2 ^ 21 % 2 ^ 31 * 2 ^ 21

/-- Bits 30 to 51: a 1 GiB frame. -/
def frame1GiB (entry : Nat) : Nat := entry / 2 ^ 30 % 2 ^ 22 * 2 ^ 30

/-- The translation of `addr` through the tables whose level-4 table CR3
names; `none` where an entry on the way is not present. -/
def walk (mem : Nat → Nat) (cr3 addr : Nat) : Option Nat :=
  let e4 := mem (nextTable cr3 + 8 * (addr / 2 ^ 39 % 512))
  if !present e4 then none else
  let e3 := mem (nextTable e4 + 8 * (addr / 2 ^ 30 % 512))
  if !present e3 then none else
  if pageSize e3 then some (frame1GiB e3 + addr % 2 ^ 30) else
  let e2 := mem (nextTable e3 + 8 * (addr / 2 ^ 21 % 512))
  if !present e2 then none else
  if pageSize e2 then some (frame2MiB e2 + addr % 2 ^ 21) else
  let e1 := mem (nextTable e2 + 8 * (addr / 2 ^ 12 % 512))
  if !present e1 then none else some (nextTable e1 + addr % 2 ^ 12)

/-- An aligned address `|` flags below the alignment is their sum. -/
theorem lor_eq_add {a f k : Nat} (ha : a % 2 ^ k = 0) (hf : f < 2 ^ k) : a ||| f = a + f := by
  have hshift : a = (a / 2 ^ k) <<< k := by
    rw [Nat.shiftLeft_eq, Nat.div_mul_cancel (Nat.dvd_of_mod_eq_zero ha)]
  rw [hshift, Nat.shiftLeft_add_eq_or_of_lt hf]

section Walk

variable {mem : Nat → Nat} {cr3 addr e4 e3 e2 : Nat}

/-- The walk stops at a level-4 entry that is not present. -/
theorem walk_of_not_present4 (h4 : mem (nextTable cr3 + 8 * (addr / 2 ^ 39 % 512)) = e4)
    (hp4 : present e4 = false) : walk mem cr3 addr = none := by
  simp only [walk, h4, hp4, Bool.not_false, ↓reduceIte]

/-- The walk stops at a level-3 entry that is not present. -/
theorem walk_of_not_present3 (h4 : mem (nextTable cr3 + 8 * (addr / 2 ^ 39 % 512)) = e4)
    (hp4 : present e4 = true) (h3 : mem (nextTable e4 + 8 * (addr / 2 ^ 30 % 512)) = e3)
    (hp3 : present e3 = false) : walk mem cr3 addr = none := by
  simp only [walk, h4, hp4, h3, hp3, Bool.not_true, Bool.not_false, Bool.false_eq_true, ↓reduceIte]

/-- Through a 2 MiB page: its frame, and the offset inside 2 MiB. -/
theorem walk_of_2MiB (h4 : mem (nextTable cr3 + 8 * (addr / 2 ^ 39 % 512)) = e4)
    (hp4 : present e4 = true) (h3 : mem (nextTable e4 + 8 * (addr / 2 ^ 30 % 512)) = e3)
    (hp3 : present e3 = true) (hs3 : pageSize e3 = false)
    (h2 : mem (nextTable e3 + 8 * (addr / 2 ^ 21 % 512)) = e2) (hp2 : present e2 = true)
    (hs2 : pageSize e2 = true) : walk mem cr3 addr = some (frame2MiB e2 + addr % 2 ^ 21) := by
  simp only [walk, h4, hp4, h3, hp3, hs3, h2, hp2, hs2, Bool.not_true, Bool.false_eq_true, ↓reduceIte]

end Walk

end PageWalk

end Bootloader
