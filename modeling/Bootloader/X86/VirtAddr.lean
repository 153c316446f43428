/-
Bootloader.X86.VirtAddr — virtual addresses and 4 KiB pages of the `x86_64`
crate (0.14.13, as `Cargo.lock` pins it).

A virtual address is canonical when its bits 47 to 63 are all equal, so
`VirtAddr` carries that as a field. Canonical addresses form two halves,
`[0, 2 ^ 47)` and `[2 ^ 64 - 2 ^ 47, 2 ^ 64)`; between them lies the hole of
non-canonical addresses. The level-4 index of an address is its bits 39 to
47: the lower half is entries 0 to 255, the upper half entries 256 to 511,
and each entry spans 512 GiB.

* `VirtAddr.new` is 0.14's `VirtAddr::new`, `try_new` and a panic on its
  error: bits 47 to 63 reading 0 or `0x1ffff` keep the address, bits reading
  1 (the address lies in `[2 ^ 47, 2 ^ 48)`) sign-extend it as
  `VirtAddr::new_truncate` does, and any other value panics. An address just
  past the lower half is thus moved to the start of the upper half
  (`new_eq_ok`, `newTruncate_val_of_hole`);
* `VirtAddr.add` / `VirtAddr.sub` are `+ u64` / `- u64`, which panic on
  overflow and go through `VirtAddr::new`;
* `Page` is a 4 KiB page, kept by its start address; `Page.add` is
  `page + n`, `Page.forwardOne` / `Page.backwardOne` are
  `Step::forward_checked(page, 1)` / `Step::backward_checked(page, 1)`, which
  jump the hole and return `None` past either end of the address space.
-/
import Bootloader.X86.Addr

namespace Bootloader

/-- Bits 47 to 63 agree: the address lies in the lower or in the upper half. -/
def Canonical (addr : Nat) : Prop :=
  addr < 0x800000000000 ∨ (0xffff800000000000 ≤ addr ∧ addr < 0x10000000000000000)

instance (addr : Nat) : Decidable (Canonical addr) := inferInstanceAs (Decidable (_ ∨ _))

/-- An address in the half of a range's start stays so for a lower address
and a later start. -/
theorem half_mono {base addr base' addr' : Nat} (h : addr < 2 ^ 47 ∨ 0xffff800000000000 ≤ base)
    (haddr : addr' ≤ addr) (hbase : base ≤ base') : addr' < 2 ^ 47 ∨ 0xffff800000000000 ≤ base' :=
  h.imp (lt_of_le_of_lt haddr) fun hup => hup.trans hbase

/-- An address at or past `base` and in `base`'s half, which `VirtAddr::new`
accepts, is canonical: in the upper half every accepted address is. -/
theorem canonical_of_half {base addr : Nat} (hhalf : addr < 2 ^ 47 ∨ 0xffff800000000000 ≤ base)
    (hle : base ≤ addr) (hacc : addr < 2 ^ 48 ∨ Canonical addr) : Canonical addr := by
  rcases hhalf with hlow | hup
  · exact .inl hlow
  · rcases hacc with hacc | hacc
    · omega
    · exact hacc

/-- The start of a range in the half of an address inside it is canonical
when `VirtAddr::new` accepts it. -/
theorem canonical_of_half' {base addr : Nat} (hhalf : addr < 2 ^ 47 ∨ 0xffff800000000000 ≤ base)
    (hle : base ≤ addr) (hacc : base < 2 ^ 48 ∨ Canonical base) : Canonical base :=
  canonical_of_half (half_mono hhalf hle le_rfl) le_rfl hacc

/-- `x86_64::VirtAddr`: a canonical 64-bit address. -/
structure VirtAddr where
  val : Nat
  canonical : Canonical val
  deriving DecidableEq, Repr

namespace VirtAddr

@[ext] theorem ext {a b : VirtAddr} (h : a.val = b.val) : a = b := by
  cases a; cases b; simp_all

theorem val_lt (a : VirtAddr) : a.val < 2 ^ 64 := by
  have := a.canonical
  unfold Canonical at this
  omega

/-- `VirtAddr::new_truncate`: keep bits 0 to 47 and copy bit 47 upwards. -/
def newTruncate (addr : Nat) : VirtAddr :=
  if h : addr % 0x1000000000000 < 0x800000000000 then ⟨addr % 0x1000000000000, .inl h⟩
  else ⟨addr % 0x1000000000000 + 0xffff000000000000, .inr ⟨by omega, by omega⟩⟩

theorem newTruncate_val (addr : Nat) :
    (newTruncate addr).val =
      if addr % 0x1000000000000 < 0x800000000000 then addr % 0x1000000000000
      else addr % 0x1000000000000 + 0xffff000000000000 := by
  unfold newTruncate
  split <;> rfl

/-- `VirtAddr::new`: `try_new`, then a panic on its error. Bits 47 to 63
reading 0 or `0x1ffff` keep the address, bits reading 1 sign-extend it, any
other value panics. -/
def new (addr : Nat) : Except Panic VirtAddr :=
  if h : Canonical addr then .ok ⟨addr, h⟩
  else if addr / 2 ^ 47 = 1 then .ok (newTruncate addr)
  else .error .virtAddrNotValid

/-- `VirtAddr + u64`. -/
def add (a : VirtAddr) (rhs : Nat) : Except Panic VirtAddr := do
  VirtAddr.new (← addU64 a.val rhs)

/-- `VirtAddr - u64`: a checked subtraction, then `VirtAddr::new`. -/
def sub (a : VirtAddr) (rhs : Nat) : Except Panic VirtAddr :=
  if rhs ≤ a.val then VirtAddr.new (a.val - rhs) else .error .subOverflow

/-- `VirtAddr::p4_index`: bits 39 to 47. -/
def p4Index (a : VirtAddr) : Fin 512 := ⟨a.val / 2 ^ 39 % 512, Nat.mod_lt _ (by decide)⟩

/-- `VirtAddr::is_aligned` at a power-of-two alignment. -/
def isAligned (a : VirtAddr) (align : Nat) : Bool := a.val % align == 0

/-! ### Sign extension -/

/-- `new_truncate` keeps a canonical address. -/
theorem newTruncate_val_of_canonical {addr : Nat} (h : Canonical addr) : (newTruncate addr).val = addr := by
  unfold Canonical at h
  rw [newTruncate_val]
  split <;> omega

/-- Just past the lower half, `new_truncate` moves the address into the
upper half. -/
theorem newTruncate_val_of_hole {addr : Nat} (hlo : 2 ^ 47 ≤ addr) (hhi : addr < 2 ^ 48) :
    (newTruncate addr).val = addr + 0xffff000000000000 := by
  rw [newTruncate_val]
  split <;> omega

/-- An address `VirtAddr::new` accepts is at most its sign extension. -/
theorem le_newTruncate_val {addr : Nat} (h : addr < 2 ^ 48 ∨ Canonical addr) :
    addr ≤ (newTruncate addr).val := by
  unfold Canonical at h
  rw [newTruncate_val]
  split <;> omega

/-- `VirtAddr::new` returns exactly when the address is canonical or lies
just past the lower half, and then returns its sign extension. -/
theorem new_eq_ok {addr : Nat} {a : VirtAddr} :
    VirtAddr.new addr = .ok a ↔ (addr < 2 ^ 48 ∨ Canonical addr) ∧ a.val = (newTruncate addr).val := by
  unfold VirtAddr.new
  split
  · rename_i h
    rw [newTruncate_val_of_canonical h, Except.ok.injEq]
    constructor
    · rintro rfl
      exact ⟨.inr h, rfl⟩
    · rintro ⟨-, ha⟩
      exact VirtAddr.ext ha.symm
  · rename_i h
    split
    · rename_i hone
      rw [Except.ok.injEq]
      constructor
      · rintro rfl
        exact ⟨.inl (by omega), rfl⟩
      · rintro ⟨-, ha⟩
        exact VirtAddr.ext ha.symm
    · rename_i hone
      simp only [reduceCtorEq, false_iff, not_and]
      intro hacc
      unfold Canonical at h hacc
      omega

/-- On a canonical address `VirtAddr::new` returns the address itself. -/
theorem new_eq_ok_of_canonical {addr : Nat} {a : VirtAddr} (h : Canonical addr) :
    VirtAddr.new addr = .ok a ↔ a.val = addr := by
  rw [new_eq_ok, newTruncate_val_of_canonical h]
  exact ⟨fun h' => h'.2, fun h' => ⟨.inr h, h'⟩⟩

theorem add_eq_ok {a b : VirtAddr} {rhs : Nat} :
    a.add rhs = .ok b ↔
      (a.val + rhs < 2 ^ 48 ∨ Canonical (a.val + rhs)) ∧ b.val = (newTruncate (a.val + rhs)).val := by
  simp only [VirtAddr.add, Except.bind_eq_ok, addU64_eq_ok, new_eq_ok]
  constructor
  · rintro ⟨c, ⟨-, rfl⟩, h⟩
    exact h
  · intro h
    have := a.val_lt
    refine ⟨a.val + rhs, ⟨?_, rfl⟩, h⟩
    rcases h.1 with h' | h'
    · omega
    · unfold Canonical at h'
      omega

/-- A sum that is canonical is the address `+ u64` returns. -/
theorem add_eq_ok_of_canonical {a b : VirtAddr} {rhs : Nat} (h : Canonical (a.val + rhs)) :
    a.add rhs = .ok b ↔ b.val = a.val + rhs := by
  rw [add_eq_ok, newTruncate_val_of_canonical h]
  exact ⟨fun h' => h'.2, fun h' => ⟨.inr h, h'⟩⟩

theorem sub_eq_ok {a b : VirtAddr} {rhs : Nat} :
    a.sub rhs = .ok b ↔ rhs ≤ a.val ∧ (a.val - rhs < 2 ^ 48 ∨ Canonical (a.val - rhs)) ∧
      b.val = (newTruncate (a.val - rhs)).val := by
  unfold VirtAddr.sub
  split
  · rename_i h
    simp only [new_eq_ok, h, true_and]
  · rename_i h
    simp only [reduceCtorEq, false_iff, not_and]
    intro h'
    exact absurd h' h

/-- Outside the hole, an address `VirtAddr::new` accepts comes back as it is. -/
theorem val_of_new_eq_ok {addr : Nat} {a : VirtAddr} (h : VirtAddr.new addr = .ok a)
    (hhalf : addr < 2 ^ 47 ∨ 0xffff800000000000 ≤ addr) : a.val = addr := by
  obtain ⟨hacc, ha⟩ := new_eq_ok.mp h
  rwa [newTruncate_val_of_canonical (canonical_of_half hhalf le_rfl hacc)] at ha

/-- Outside the hole, `+ u64` adds. -/
theorem val_of_add_eq_ok {a b : VirtAddr} {rhs : Nat} (h : a.add rhs = .ok b)
    (hhalf : a.val + rhs < 2 ^ 47 ∨ 0xffff800000000000 ≤ a.val + rhs) : b.val = a.val + rhs := by
  obtain ⟨hacc, hb⟩ := add_eq_ok.mp h
  rwa [newTruncate_val_of_canonical (canonical_of_half hhalf le_rfl hacc)] at hb

/-- Outside the hole, `- u64` subtracts. -/
theorem val_of_sub_eq_ok {a b : VirtAddr} {rhs : Nat} (h : a.sub rhs = .ok b)
    (hhalf : a.val - rhs < 2 ^ 47 ∨ 0xffff800000000000 ≤ a.val - rhs) :
    rhs ≤ a.val ∧ b.val = a.val - rhs := by
  obtain ⟨hle, hacc, hb⟩ := sub_eq_ok.mp h
  rw [newTruncate_val_of_canonical (canonical_of_half hhalf le_rfl hacc)] at hb
  exact ⟨hle, hb⟩

/-- `Step::forward_checked(addr, count)`: the address `count` bytes on,
jumping the hole from the lower half to the upper half; `None` past the end
of the address space. -/
def forwardChecked (addr : VirtAddr) (count : Nat) : Option VirtAddr :=
  if 0x1000000000000 < count ∨ 2 ^ 64 ≤ addr.val + count ∨ (addr.val + count) / 2 ^ 47 = 2 then
    none
  else some (newTruncate (addr.val + count))

/-- `Step::steps_between(start, end)`: the bytes from `start` to `end`, the
hole not counted. -/
def stepsBetween (start stop : VirtAddr) : Option Nat :=
  if start.val ≤ stop.val then
    some (if stop.val / 2 ^ 47 % 2 = 1 ∧ start.val / 2 ^ 47 % 2 = 0 then
      stop.val - start.val - 0xffff000000000000
    else stop.val - start.val)
  else none

/-- Inside one half, the level-4 index is the address divided by 512 GiB,
counted from the start of the half's first entry. -/
theorem p4Index_val (a : VirtAddr) : (a.p4Index : Nat) = a.val / 2 ^ 39 % 512 := rfl

/-- The level-4 index grows with the address: the lower half has the entries
0 to 255, the upper half 256 to 511. -/
theorem p4Index_mono {a b : VirtAddr} (h : a.val ≤ b.val) : (a.p4Index : Nat) ≤ b.p4Index := by
  have ha := a.canonical
  have hb := b.canonical
  unfold Canonical at ha hb
  rw [p4Index_val, p4Index_val]
  omega

/-- Every level-4 index between those of two addresses is the index of an
address between them: the first address of the entry's range, or `a` itself
when that lies below `a`. -/
theorem exists_p4Index_eq {a b : VirtAddr} {i : Nat} (hab : a.val ≤ b.val) (ha : (a.p4Index : Nat) ≤ i)
    (hb : i ≤ b.p4Index) : ∃ v : VirtAddr, a.val ≤ v.val ∧ v.val ≤ b.val ∧ (v.p4Index : Nat) = i := by
  -- the entry's first address, in the lower half for the first 256 entries
  have hstart : ∃ x, Canonical x ∧ x / 2 ^ 39 % 512 = i ∧ x ≤ b.val := by
    have hcb := b.canonical
    unfold Canonical at hcb ⊢
    rw [p4Index_val] at hb
    by_cases hi : i < 256
    · exact ⟨i * 2 ^ 39, .inl (by omega), by omega, by omega⟩
    · exact ⟨0xffff000000000000 + i * 2 ^ 39, .inr ⟨by omega, by omega⟩, by omega, by omega⟩
  obtain ⟨x, hx, hxi, hxb⟩ := hstart
  by_cases hax : x ≤ a.val
  · have hia : i ≤ a.p4Index := by
      rw [← hxi]
      exact p4Index_mono (a := ⟨x, hx⟩) hax
    exact ⟨a, le_refl _, hab, le_antisymm ha hia⟩
  · exact ⟨⟨x, hx⟩, show a.val ≤ x by omega, hxb, hxi⟩

end VirtAddr

/-! ## Pages -/

/-- `Page<Size4KiB>`, kept by its page-aligned start address. -/
structure Page where
  startAddress : VirtAddr
  aligned : startAddress.val % 4096 = 0
  deriving DecidableEq, Repr

namespace Page

@[ext] theorem ext {p q : Page} (h : p.startAddress = q.startAddress) : p = q := by
  cases p; cases q; simp_all

/-- `Page::containing_address`: the page the address lies in. -/
def containingAddress (a : VirtAddr) : Page :=
  ⟨⟨a.val / 4096 * 4096, by have := a.canonical; unfold Canonical at this ⊢; omega⟩, by
    show a.val / 4096 * 4096 % 4096 = 0
    omega⟩

/-- `page + n`: the page `n` pages further, through `VirtAddr + u64`. -/
def add (p : Page) (n : Nat) : Except Panic Page := do
  let offset ← if n * 4096 < 2 ^ 64 then pure (n * 4096) else throw .addOverflow
  return containingAddress (← p.startAddress.add offset)

/-- `Page::from_page_table_indices_1gib(p4, p3)`. -/
def fromPageTableIndices1GiB (p4Index p3Index : Fin 512) : Page :=
  containingAddress (VirtAddr.newTruncate ((p4Index : Nat) * 2 ^ 39 + (p3Index : Nat) * 2 ^ 30))

/-- `Step::forward_checked(page, 1)`: the next page, jumping from the end of
the lower half to the start of the upper half; `None` after the last page. -/
def forwardOne (p : Page) : Option Page :=
  if h : p.startAddress.val = 0x7ffffffff000 then
    some ⟨⟨0xffff800000000000, by decide⟩, rfl⟩
  else if h' : p.startAddress.val + 4096 < 2 ^ 64 then
    some ⟨⟨p.startAddress.val + 4096, by
      have hc := p.startAddress.canonical
      have ha := p.aligned
      unfold Canonical at hc ⊢
      omega⟩, by
      show (p.startAddress.val + 4096) % 4096 = 0
      have := p.aligned
      omega⟩
  else none

/-- `Step::backward_checked(page, 1)`: the previous page, jumping from the
start of the upper half to the end of the lower half; `None` before page 0. -/
def backwardOne (p : Page) : Option Page :=
  if h : p.startAddress.val = 0xffff800000000000 then
    some ⟨⟨0x7ffffffff000, by decide⟩, rfl⟩
  else if h' : 4096 ≤ p.startAddress.val then
    some ⟨⟨p.startAddress.val - 4096, by
      have hc := p.startAddress.canonical
      have ha := p.aligned
      unfold Canonical at hc ⊢
      omega⟩, by
      show (p.startAddress.val - 4096) % 4096 = 0
      have := p.aligned
      omega⟩
  else none

/-- The level-4 index of a page is that of its start address. -/
def p4Index (p : Page) : Fin 512 := p.startAddress.p4Index

theorem containingAddress_val (a : VirtAddr) :
    (containingAddress a).startAddress.val = a.val / 4096 * 4096 := rfl

/-- The number of the page holding an address. -/
theorem containingAddress_val_div (a : VirtAddr) :
    (containingAddress a).startAddress.val / 4096 = a.val / 4096 := by
  rw [containingAddress_val, Nat.mul_div_cancel _ (by decide)]

/-- A page lies in the level-4 entry of every address inside it. -/
theorem p4Index_containingAddress (a : VirtAddr) : (containingAddress a).p4Index = a.p4Index := by
  apply Fin.ext
  show a.val / 4096 * 4096 / 2 ^ 39 % 512 = a.val / 2 ^ 39 % 512
  omega

/-- The start of the page at a level-4 index and level-3 index 0: the index
times 512 GiB, sign-extended into the upper half from index 256 on. -/
theorem fromPageTableIndices1GiB_val (p4Index : Fin 512) :
    (fromPageTableIndices1GiB p4Index 0).startAddress.val =
      if (p4Index : Nat) < 256 then (p4Index : Nat) * 2 ^ 39
      else (p4Index : Nat) * 2 ^ 39 + 0xffff000000000000 := by
  have hi := p4Index.isLt
  rw [fromPageTableIndices1GiB, containingAddress_val, VirtAddr.newTruncate_val]
  simp only [Fin.val_zero, Nat.zero_mul, Nat.add_zero, Nat.reducePow]
  -- the two branches of the sign extension, against the two halves
  split <;> split <;> omega

theorem p4Index_fromPageTableIndices1GiB (p4Index : Fin 512) :
    (fromPageTableIndices1GiB p4Index 0).p4Index = p4Index := by
  apply Fin.ext
  have hi := p4Index.isLt
  show (fromPageTableIndices1GiB p4Index 0).startAddress.val / 2 ^ 39 % 512 = p4Index
  rw [fromPageTableIndices1GiB_val]
  simp only [Nat.reducePow]
  split <;> omega

/-- `page + n` returns exactly when `n * 4096` fits a `u64` and
`VirtAddr::new` accepts the address `n` pages on, and then returns the page
at that address's sign extension. -/
theorem add_eq_ok {p q : Page} {n : Nat} :
    p.add n = .ok q ↔ n * 4096 < 2 ^ 64 ∧
      (p.startAddress.val + n * 4096 < 2 ^ 48 ∨ Canonical (p.startAddress.val + n * 4096)) ∧
      q.startAddress.val = (VirtAddr.newTruncate (p.startAddress.val + n * 4096)).val := by
  have hp := p.aligned
  -- sign extension keeps a page-aligned address page aligned
  have hal : (VirtAddr.newTruncate (p.startAddress.val + n * 4096)).val % 4096 = 0 := by
    rw [VirtAddr.newTruncate_val]
    split <;> omega
  unfold Page.add
  by_cases hn : n * 4096 < 2 ^ 64
  · simp only [hn, if_true, Except.bind_eq_ok, VirtAddr.add_eq_ok, Except.pure_eq_ok, true_and]
    constructor
    · rintro ⟨_, rfl, a, ⟨hacc, ha⟩, rfl⟩
      refine ⟨hacc, ?_⟩
      rw [containingAddress_val, ha]
      omega
    · rintro ⟨hacc, hq⟩
      refine ⟨n * 4096, rfl, VirtAddr.newTruncate (p.startAddress.val + n * 4096), ⟨hacc, rfl⟩,
        Page.ext (VirtAddr.ext ?_)⟩
      rw [containingAddress_val, hq]
      omega
  · simp only [hn, if_false, false_and, iff_false]
    intro h
    cases h

/-- Inside one half, `page + n` is the page `n` pages on. -/
theorem add_eq_ok_of_canonical {p q : Page} {n : Nat} (h : Canonical (p.startAddress.val + n * 4096)) :
    p.add n = .ok q ↔ n * 4096 < 2 ^ 64 ∧ q.startAddress.val = p.startAddress.val + n * 4096 := by
  rw [add_eq_ok, VirtAddr.newTruncate_val_of_canonical h]
  exact ⟨fun h' => ⟨h'.1, h'.2.2⟩, fun h' => ⟨h'.1, .inr h, h'.2⟩⟩

/-- Outside the hole, `page + n` is the page `n` pages on. -/
theorem val_of_add_eq_ok {p q : Page} {n : Nat} (h : p.add n = .ok q)
    (hhalf : p.startAddress.val + n * 4096 < 2 ^ 47 ∨ 0xffff800000000000 ≤ p.startAddress.val + n * 4096) :
    q.startAddress.val = p.startAddress.val + n * 4096 := by
  obtain ⟨-, hacc, hq⟩ := add_eq_ok.mp h
  rwa [VirtAddr.newTruncate_val_of_canonical (canonical_of_half hhalf le_rfl hacc)] at hq

/-- The pages that `Page::range_inclusive(start, stop)` yields from `page` on,
with `fuel` steps left: after each page the iterator moves `start` on by one
(`start += 1`, a `Page + u64`, which panics on a non-canonical address),
except at the last page of the address space, where it moves `end` back
instead. -/
def rangeFrom (stop : Page) : Nat → Page → Except Panic (List Page)
  | 0, _ => pure []
  | fuel + 1, page =>
    if stop.startAddress.val < page.startAddress.val then pure []
    else if page.startAddress.val = 0xfffffffffffff000 then pure [page]
    else do
      let next ← page.add 1
      return page :: (← rangeFrom stop fuel next)

/-- `Page::range_inclusive(start, stop)`, run to its end: inside one half
of the address space it yields the pages from `start` to `stop`, one after
the other. -/
def rangeInclusive (start stop : Page) : Except Panic (List Page) :=
  rangeFrom stop ((stop.startAddress.val - start.startAddress.val) / 4096 + 1) start

/-- The pages of `page..=stop` over the `Step` of pages, which jumps the
hole, with `fuel` steps left. -/
def stepRangeFrom (stop : Page) : Nat → Page → List Page
  | 0, _ => []
  | fuel + 1, page =>
    if page.startAddress.val < stop.startAddress.val then
      match page.forwardOne with
      | some next => page :: stepRangeFrom stop fuel next
      | none => [page]
    else if page = stop then [page] else []

/-- The pages of `start..=stop`, a `RangeInclusive<Page>`. -/
def stepRange (start stop : Page) : List Page :=
  stepRangeFrom stop ((VirtAddr.stepsBetween start.startAddress stop.startAddress).getD 0 / 4096 + 1)
    start

/-- A walk that runs to its end passes the page of every address from its
first page up to the end of `stop` that its fuel reaches, below the hole or
from a first page in the upper half. (Past the last page of the lower half
the walk goes on at the start of the upper half: `page + 1` sign-extends.) -/
theorem mem_rangeFrom {stop : Page} :
    ∀ {fuel : Nat} {page : Page} {pages : List Page}, rangeFrom stop fuel page = .ok pages →
      ∀ a, a < 2 ^ 47 ∨ 0xffff800000000000 ≤ page.startAddress.val →
        page.startAddress.val ≤ a → a < stop.startAddress.val + 4096 →
        (a - page.startAddress.val) / 4096 < fuel →
        ∃ q ∈ pages, q.startAddress.val ≤ a ∧ a < q.startAddress.val + 4096
  | 0, _, _, _, _, _, _, _, hfuel => absurd hfuel (Nat.not_lt_zero _)
  | fuel + 1, page, pages, h, a, hhalf, hlo, hhi, hfuel => by
      have hp := page.aligned
      have hs := stop.aligned
      have hstop := stop.startAddress.val_lt
      unfold rangeFrom at h
      split_ifs at h with hpast htop
      · omega
      · -- the last page of the address space holds every address at or above it
        rw [Except.pure_eq_ok] at h
        exact ⟨page, by rw [← h]; exact List.mem_singleton_self page, hlo, by omega⟩
      · rw [Except.bind_eq_ok] at h
        obtain ⟨next, hnext, h⟩ := h
        rw [Except.bind_eq_ok] at h
        obtain ⟨rest, hrest, h⟩ := h
        rw [Except.pure_eq_ok] at h
        by_cases hin : a < page.startAddress.val + 4096
        · exact ⟨page, by rw [← h]; exact List.mem_cons_self, hlo, hin⟩
        -- the next page is one page on: the walk has not reached the hole
        have hcanon : Canonical (page.startAddress.val + 1 * 4096) := by
          have hc := page.startAddress.canonical
          unfold Canonical at hc ⊢
          omega
        have hnext := (add_eq_ok_of_canonical hcanon).mp hnext
        obtain ⟨q, hq, hqa⟩ := mem_rangeFrom hrest a (by omega) (by omega) hhi (by omega)
        exact ⟨q, by rw [← h]; exact List.mem_cons_of_mem page hq, hqa⟩

/-- `Page::range_inclusive(start, stop)` passes the page of every address
from the start of `start` to the end of `stop`. -/
theorem mem_rangeInclusive {start stop : Page} {pages : List Page}
    (h : rangeInclusive start stop = .ok pages) (a : Nat)
    (hhalf : a < 2 ^ 47 ∨ 0xffff800000000000 ≤ start.startAddress.val)
    (hlo : start.startAddress.val ≤ a) (hhi : a < stop.startAddress.val + 4096) :
    ∃ q ∈ pages, q.startAddress.val ≤ a ∧ a < q.startAddress.val + 4096 := by
  have := start.aligned
  have := stop.aligned
  exact mem_rangeFrom h a hhalf hlo hhi (by omega)

end Page

/-! ## Counting without the hole

`Step` counts addresses as if the hole were not there: `forward_checked`
jumps it and `steps_between` leaves it out. `VirtAddr.linear` is that count:
the lower half as it is, the upper half right after it. In it,
`forward_checked` is addition below `2 ^ 48`, `steps_between` is
subtraction, and the pages of a `Step` range are the multiples of 4096
between its ends. -/

namespace VirtAddr

/-- The place of an address in the address space with the hole taken out. -/
def linear (a : VirtAddr) : Nat :=
  if a.val < 2 ^ 47 then a.val else a.val - 0xffff000000000000

/-- An address is its count in the lower half, and its count plus the hole in
the upper half. -/
theorem val_eq_linear_or (a : VirtAddr) :
    (a.linear < 2 ^ 47 ∧ a.val = a.linear) ∨
      (2 ^ 47 ≤ a.linear ∧ a.val = a.linear + 0xffff000000000000) := by
  have := a.canonical
  unfold linear Canonical at *
  split <;> omega

theorem linear_lt (a : VirtAddr) : a.linear < 2 ^ 48 := by
  have := a.canonical
  unfold linear Canonical at *
  split <;> omega

/-- The hole is a whole number of pages, so an address keeps its offset in
its page. -/
theorem linear_mod (a : VirtAddr) : a.linear % 4096 = a.val % 4096 := by
  have := a.canonical
  unfold linear Canonical at *
  split <;> omega

theorem linear_le_linear {a b : VirtAddr} : a.linear ≤ b.linear ↔ a.val ≤ b.val := by
  have := a.canonical
  have := b.canonical
  unfold linear Canonical at *
  split <;> split <;> omega

/-- `cmp::max` of two addresses (`VirtAddr` compares its `u64`s) is the
larger in the count. -/
theorem linear_max (a b : VirtAddr) : (if a.val ≤ b.val then b else a).linear = max a.linear b.linear := by
  split_ifs with h
  · have := linear_le_linear.mpr h
    omega
  · have := linear_le_linear.mpr (Nat.le_of_not_le h)
    omega

/-- `cmp::min` of two addresses is the smaller in the count. -/
theorem linear_min (a b : VirtAddr) : (if a.val ≤ b.val then a else b).linear = min a.linear b.linear := by
  split_ifs with h
  · have := linear_le_linear.mpr h
    omega
  · have := linear_le_linear.mpr (Nat.le_of_not_le h)
    omega

theorem linear_inj {a b : VirtAddr} : a.linear = b.linear ↔ a = b := by
  constructor
  · intro h
    have hab := linear_le_linear.mp h.le
    have hba := linear_le_linear.mp h.ge
    exact VirtAddr.ext (by omega)
  · rintro rfl
    rfl

/-- Two addresses lie on the same page exactly when they do in the count. -/
theorem linear_div_eq_iff {a b : VirtAddr} :
    a.linear / 4096 = b.linear / 4096 ↔ a.val / 4096 = b.val / 4096 := by
  have := a.canonical
  have := b.canonical
  unfold linear Canonical at *
  split <;> split <;> omega

/-- `forward_checked` is addition in the count, as long as it stays below
`2 ^ 48`. -/
theorem forwardChecked_eq_some {a b : VirtAddr} {count : Nat} :
    a.forwardChecked count = some b ↔ a.linear + count < 2 ^ 48 ∧ b.linear = a.linear + count := by
  have ha := a.canonical
  unfold Canonical at ha
  unfold forwardChecked
  split_ifs with hnone
  · -- past the end of the address space, or from the lower half past the hole
    simp only [false_iff, not_and]
    intro hlt
    unfold linear at hlt
    split at hlt <;> omega
  · rw [Option.some.injEq]
    -- the sign-extended sum lies `count` further in the count
    have hlin : (newTruncate (a.val + count)).linear = a.linear + count := by
      unfold linear
      rw [newTruncate_val]
      split_ifs <;> omega
    constructor
    · rintro rfl
      exact ⟨hlin ▸ linear_lt _, hlin⟩
    · rintro ⟨-, hb⟩
      exact linear_inj.mp (hlin.trans hb.symm)

theorem exists_forwardChecked {a : VirtAddr} {count : Nat} (h : a.linear + count < 2 ^ 48) :
    ∃ b, a.forwardChecked count = some b ∧ b.linear = a.linear + count := by
  cases hb : a.forwardChecked count with
  | some b => exact ⟨b, rfl, (forwardChecked_eq_some.mp hb).2⟩
  | none =>
    -- the count names an address, and `forward_checked` returns it
    have ha := a.canonical
    unfold Canonical at ha
    unfold forwardChecked at hb
    split_ifs at hb with hnone
    unfold linear at h
    split at h <;> omega

/-- In the lower half, `forward_checked` is plain addition. -/
theorem forwardChecked_val {a b : VirtAddr} {count : Nat} (h : a.val + count < 2 ^ 47)
    (hb : a.forwardChecked count = some b) : b.val = a.val + count := by
  have hlin := (forwardChecked_eq_some.mp hb).2
  rcases val_eq_linear_or a with ⟨ha₁, ha₂⟩ | ⟨ha₁, ha₂⟩ <;>
    rcases val_eq_linear_or b with ⟨hb₁, hb₂⟩ | ⟨hb₁, hb₂⟩ <;> omega

theorem exists_forwardChecked_val {a : VirtAddr} {count : Nat} (h : a.val + count < 2 ^ 47) :
    ∃ b, a.forwardChecked count = some b ∧ b.val = a.val + count := by
  have hlin : a.linear + count < 2 ^ 48 := by
    rcases val_eq_linear_or a with ⟨ha₁, ha₂⟩ | ⟨ha₁, ha₂⟩ <;> omega
  obtain ⟨b, hb, -⟩ := exists_forwardChecked hlin
  exact ⟨b, hb, forwardChecked_val h hb⟩

/-- `steps_between` is subtraction in the count. -/
theorem stepsBetween_of_le {a b : VirtAddr} (h : a.val ≤ b.val) :
    a.stepsBetween b = some (b.linear - a.linear) := by
  have := a.canonical
  have := b.canonical
  unfold stepsBetween linear Canonical at *
  rw [if_pos h, Option.some.injEq]
  split_ifs <;> omega

end VirtAddr

namespace Page

theorem linear_mod (p : Page) : p.startAddress.linear % 4096 = 0 := by
  rw [VirtAddr.linear_mod]
  exact p.aligned

theorem linear_containingAddress (a : VirtAddr) :
    (containingAddress a).startAddress.linear = a.linear / 4096 * 4096 := by
  have := a.canonical
  unfold VirtAddr.linear Canonical at *
  rw [containingAddress_val]
  split <;> split <;> omega

theorem linear_inj {p q : Page} : p.startAddress.linear = q.startAddress.linear ↔ p = q := by
  rw [VirtAddr.linear_inj]
  exact ⟨Page.ext, fun h => h ▸ rfl⟩

/-- `page.start_address() + 4095u64`, the page's last byte, lies in the page's
half: it does not panic, and is 4095 further in the count. -/
theorem exists_add_4095 (p : Page) :
    ∃ b, p.startAddress.add 4095 = .ok b ∧ b.val = p.startAddress.val + 4095 ∧
      b.linear = p.startAddress.linear + 4095 := by
  have hc := p.startAddress.canonical
  have ha := p.aligned
  unfold Canonical at hc
  have hb : Canonical (p.startAddress.val + 4095) := by
    unfold Canonical
    omega
  refine ⟨⟨p.startAddress.val + 4095, hb⟩, (VirtAddr.add_eq_ok_of_canonical hb).mpr rfl, rfl, ?_⟩
  unfold VirtAddr.linear
  dsimp only
  split <;> split <;> omega

/-- The next page is 4096 further in the count. -/
theorem forwardOne_linear {p q : Page} (h : p.forwardOne = some q) :
    q.startAddress.linear = p.startAddress.linear + 4096 := by
  have hc := p.startAddress.canonical
  have ha := p.aligned
  unfold forwardOne at h
  unfold Canonical at hc
  split_ifs at h with hlast hend
  · cases h
    unfold VirtAddr.linear
    simp only [hlast]
    decide
  · cases h
    unfold VirtAddr.linear
    dsimp only
    split <;> split <;> omega

theorem exists_forwardOne {p : Page} (h : p.startAddress.linear + 4096 < 2 ^ 48) :
    ∃ q, p.forwardOne = some q := by
  have hc := p.startAddress.canonical
  unfold forwardOne
  unfold VirtAddr.linear Canonical at *
  split_ifs with hlast hend
  · exact ⟨_, rfl⟩
  · exact ⟨_, rfl⟩
  · split at h <;> omega

/-- The walk of `stepRangeFrom`, with enough fuel, passes exactly the pages
from `page` to `stop`. -/
theorem mem_stepRangeFrom {stop : Page} :
    ∀ {fuel : Nat} {page : Page}, page.startAddress.linear ≤ stop.startAddress.linear →
      (stop.startAddress.linear - page.startAddress.linear) / 4096 < fuel →
      ∀ q, q ∈ stepRangeFrom stop fuel page ↔
        page.startAddress.linear ≤ q.startAddress.linear ∧
          q.startAddress.linear ≤ stop.startAddress.linear
  | 0, _, _, hfuel, _ => absurd hfuel (Nat.not_lt_zero _)
  | fuel + 1, page, hle, hfuel, q => by
    have hp := linear_mod page
    have hq := linear_mod q
    have hs := linear_mod stop
    have hstop := stop.startAddress.linear_lt
    unfold stepRangeFrom
    split_ifs with hbefore hstopped
    · -- before `stop`: this page, then the walk from the next one
      have hlt : page.startAddress.linear < stop.startAddress.linear :=
        Nat.lt_of_le_of_ne (VirtAddr.linear_le_linear.mpr hbefore.le)
          (fun heq => absurd (VirtAddr.linear_inj.mp heq) (fun h => by rw [h] at hbefore; omega))
      obtain ⟨next, hnext⟩ := exists_forwardOne (p := page) (by omega)
      have hnextLin := forwardOne_linear hnext
      rw [hnext, List.mem_cons,
        mem_stepRangeFrom (by omega) (by omega) q, ← linear_inj]
      omega
    · -- at `stop`
      subst hstopped
      rw [List.mem_singleton, ← linear_inj]
      omega
    · -- past `stop`, which the count rules out
      have hge := VirtAddr.linear_le_linear.mpr (Nat.le_of_not_lt hbefore)
      exact absurd (linear_inj.mp (by omega)) hstopped

theorem length_stepRangeFrom_le (stop : Page) :
    ∀ (fuel : Nat) (page : Page), (stepRangeFrom stop fuel page).length ≤ fuel
  | 0, _ => le_refl 0
  | fuel + 1, page => by
    unfold stepRangeFrom
    split_ifs
    · split
      · exact Nat.succ_le_succ (length_stepRangeFrom_le stop fuel _)
      · exact Nat.succ_le_succ (Nat.zero_le fuel)
    · exact Nat.succ_le_succ (Nat.zero_le fuel)
    · exact Nat.zero_le _

/-- `start..=stop` holds exactly the pages from `start` to `stop`. -/
theorem mem_stepRange {start stop : Page}
    (h : start.startAddress.linear ≤ stop.startAddress.linear) (q : Page) :
    q ∈ stepRange start stop ↔
      start.startAddress.linear ≤ q.startAddress.linear ∧
        q.startAddress.linear ≤ stop.startAddress.linear := by
  unfold stepRange
  rw [VirtAddr.stepsBetween_of_le (VirtAddr.linear_le_linear.mp h), Option.getD_some]
  exact mem_stepRangeFrom h (Nat.lt_succ_self _) q

theorem length_stepRange_le {start stop : Page}
    (h : start.startAddress.linear ≤ stop.startAddress.linear) :
    (stepRange start stop).length ≤
      (stop.startAddress.linear - start.startAddress.linear) / 4096 + 1 := by
  unfold stepRange
  rw [VirtAddr.stepsBetween_of_le (VirtAddr.linear_le_linear.mp h), Option.getD_some]
  exact length_stepRangeFrom_le stop _ start

end Page

end Bootloader
