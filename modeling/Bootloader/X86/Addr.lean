/-
Bootloader.X86.Addr — the physical-address arithmetic the bootloader runs on.

The bootloader computes with the `x86_64` crate's `PhysAddr` and
`PhysFrame<Size4KiB>` and with plain `u64`s. Every one of its crates is built
with `overflow-checks = true` (`Cargo.toml`, profiles `release` and
`stage-4`), so an arithmetic slip is a panic, never a silent wrap. This module
fixes how such a panic is modelled: as `.error` of `Except Panic`, with the
constructor naming the check that fired.

* `addU64` — `u64` addition under overflow checks.
* `PhysAddr` carries its own validity: `PhysAddr::new` panics when a bit in
  the range 52 to 64 is set, so no value of the type is at or above `2 ^ 52`.
  `PhysAddr.add` and `PhysAddr.sub` are the crate's `+ u64` and `- u64`.
* `PhysFrame` is kept by its frame number; `containingAddress` is the crate's
  `PhysFrame::containing_address` (round down to the frame) and `add` is
  `frame + n`, which goes through `PhysAddr` and so panics past `2 ^ 52`.
* `alignDown` / `alignUp` are the crate's free functions at a power-of-two
  alignment; `align_up` panics on overflow.

The crate itself is not part of the repository; the definitions follow its
documented behaviour at the version `Cargo.lock` pins (0.14.13).
-/
import Mathlib
import Bootloader.Lib.Except

namespace Bootloader

/-- The checks whose failure stops the modelled code. -/
inductive Panic where
  /-- `u64` addition overflowed. -/
  | addOverflow
  /-- `u64` multiplication overflowed. -/
  | mulOverflow
  /-- A subtraction went below zero (`checked_sub(..).unwrap()`). -/
  | subOverflow
  /-- `PhysAddr::new` on an address with a bit set in the range 52 to 64. -/
  | physAddrNotValid
  /-- `add_region`: "cannot add region: no more free entries in memory map". -/
  | noMoreFreeEntries
  /-- `VirtAddr::new` on an address whose bits 47 to 64 are not all equal. -/
  | virtAddrNotValid
  /-- `get_free_address`: `assert!(alignment.is_power_of_two())`. -/
  | notPowerOfTwo
  /-- `slice::windows` with a window size of zero. -/
  | zeroWindowSize
  /-- `get_free_entries`: "no usable level 4 entries found". -/
  | noUsableLevel4Entries
  /-- `Uniform::new` on an empty range ("called with `low >= high`"). -/
  | emptyUniformRange
  /-- `mapping_addr_page_aligned` or `mapping_addr(..).expect(..)` on a
  misaligned address. -/
  | notAligned
  /-- `Layout::array(..).unwrap()` or `Layout::extend(..).unwrap()` on a
  layout larger than `isize::MAX`. -/
  | layoutError
  /-- `u64::try_from(..).unwrap()` on a value outside `u64`. -/
  | tryFromIntError
  /-- `Option::unwrap` on `None`. -/
  | unwrapNone
  /-- `Result::unwrap` on an `Err`. -/
  | unwrapErr
  /-- "failed to map page": `Mapper::map_to` returned an error. -/
  | mapToFailed
  /-- A page the code expects to be mapped is not ("is not mapped",
  "address is not mapped", `unreachable!`). -/
  | notMapped
  /-- `unimplemented!` or `assert_eq!` on an input the code does not
  support (a relocation type, a symbol, an entry size). -/
  | unsupported
  /-- `assert!` or `assert_eq!` on a condition that does not hold. -/
  | assertFailed
  /-- A slice index or range past the end of the slice. -/
  | indexOutOfBounds
  /-- An integer division by zero. -/
  | divByZero
  /-- An explicit `panic!` ("next none", "ExactlyOneTotalSectorsFieldMustBeZero",
  "pixel format .. not supported in logger"). -/
  | explicit
  deriving DecidableEq, Repr

/-- `u64` addition, which panics on overflow. -/
def addU64 (a b : Nat) : Except Panic Nat :=
  if a + b < 2 ^ 64 then .ok (a + b) else .error .addOverflow

/-- `u64` multiplication under overflow checks. -/
def mulU64 (a b : Nat) : Except Panic Nat :=
  if a * b < 2 ^ 64 then .ok (a * b) else .error .mulOverflow

theorem addU64_eq_ok {a b c : Nat} : addU64 a b = .ok c ↔ a + b < 2 ^ 64 ∧ c = a + b := by
  rw [addU64, Except.ite_ok_eq_ok, @eq_comm _ (a + b)]

/-- `u64` addition stops only on overflow. -/
theorem addU64_eq_error {a b : Nat} {e : Panic} (h : addU64 a b = .error e) : e = .addOverflow := by
  unfold addU64 at h
  split at h
  · cases h
  · cases h
    rfl

/-! ## Physical addresses -/

/-- `x86_64::PhysAddr`: a physical address with no bit set in the range 52 to 64. -/
structure PhysAddr where
  val : Nat
  valid : val < 2 ^ 52
  deriving DecidableEq, Repr

/-- `PhysAddr::new`, which panics on an address that is not valid. -/
def PhysAddr.new (addr : Nat) : Except Panic PhysAddr :=
  if h : addr < 2 ^ 52 then .ok ⟨addr, h⟩ else .error .physAddrNotValid

/-- `PhysAddr + u64`: the `u64` sum, which must again be a valid address. -/
def PhysAddr.add (a : PhysAddr) (rhs : Nat) : Except Panic PhysAddr := do
  PhysAddr.new (← addU64 a.val rhs)

/-- `PhysAddr - u64`: a checked subtraction. -/
def PhysAddr.sub (a : PhysAddr) (rhs : Nat) : Except Panic PhysAddr :=
  if h : rhs ≤ a.val then .ok ⟨a.val - rhs, by have := a.valid; omega⟩ else .error .subOverflow

@[ext] theorem PhysAddr.ext {a b : PhysAddr} (h : a.val = b.val) : a = b := by
  cases a; cases b; simp_all

theorem PhysAddr.new_eq_ok {addr : Nat} {a : PhysAddr} :
    PhysAddr.new addr = .ok a ↔ a.val = addr := by
  unfold PhysAddr.new
  split
  · constructor
    · rintro ⟨⟩; rfl
    · intro h; exact congrArg Except.ok (PhysAddr.ext h.symm)
  · rename_i h
    constructor
    · intro h'; cases h'
    · intro h'; exact absurd (h' ▸ a.valid) h

/-- The sum is returned exactly when it is a valid address. -/
theorem PhysAddr.add_eq_ok {a b : PhysAddr} {rhs : Nat} :
    a.add rhs = .ok b ↔ b.val = a.val + rhs := by
  simp only [PhysAddr.add, Except.bind_eq_ok, addU64_eq_ok, PhysAddr.new_eq_ok]
  constructor
  · rintro ⟨c, ⟨-, rfl⟩, h⟩; exact h
  · intro h
    have := b.valid
    exact ⟨a.val + rhs, ⟨by omega, rfl⟩, h⟩

/-- The sum stops only on its two checks: `u64` overflow, or an address that
is not valid. -/
theorem PhysAddr.add_eq_error {a : PhysAddr} {rhs : Nat} {e : Panic}
    (h : a.add rhs = .error e) : e = .addOverflow ∨ e = .physAddrNotValid := by
  unfold PhysAddr.add addU64 at h
  split at h
  · simp only [Except.ok_bind, PhysAddr.new] at h
    split at h
    · cases h
    · cases h
      exact Or.inr rfl
  · cases h
    exact Or.inl rfl

theorem PhysAddr.sub_eq_ok {a b : PhysAddr} {rhs : Nat} :
    a.sub rhs = .ok b ↔ rhs ≤ a.val ∧ b.val = a.val - rhs := by
  unfold PhysAddr.sub
  split
  · rename_i h
    constructor
    · rintro ⟨⟩; exact ⟨h, rfl⟩
    · rintro ⟨-, hb⟩; exact congrArg Except.ok (PhysAddr.ext hb.symm)
  · rename_i h
    constructor
    · intro h'; cases h'
    · rintro ⟨h', -⟩; exact absurd h' h

/-! ## Alignment -/

/-- `x86_64::align_down` at a power-of-two alignment. -/
def alignDown (addr align : Nat) : Nat := addr / align * align

/-- `x86_64::align_up` at a power-of-two alignment: `(addr | (align - 1)) + 1`
when `addr` is not aligned, which panics when the sum leaves `u64`. -/
def alignUp (addr align : Nat) : Except Panic Nat :=
  if addr % align = 0 then .ok addr else addU64 (alignDown addr align + (align - 1)) 1

/-- The smallest multiple of `align` at or above `addr`, computed in `ℕ`. -/
def roundUp (addr align : Nat) : Nat := (addr + (align - 1)) / align * align

theorem le_roundUp (addr : Nat) : addr ≤ roundUp addr 4096 := by
  unfold roundUp
  omega

/-- At the page size, whenever `align_up` returns, it returns `roundUp`. -/
theorem alignUp_eq_ok {addr r : Nat} (hr : alignUp addr 4096 = .ok r) :
    r = roundUp addr 4096 := by
  unfold alignUp at hr
  unfold roundUp
  split at hr
  · cases hr
    omega
  · obtain ⟨-, rfl⟩ := addU64_eq_ok.mp hr
    unfold alignDown
    omega

/-- At the page size, `align_up` returns whenever the rounded address is a
`u64`. -/
theorem alignUp_of_lt {addr : Nat} (h : roundUp addr 4096 < 2 ^ 64) :
    alignUp addr 4096 = .ok (roundUp addr 4096) := by
  unfold alignUp
  split
  · rename_i hmod
    unfold roundUp
    congr 1
    omega
  · rename_i hmod
    -- the two roundings agree off the page boundary; `omega` is kept away from `2 ^ 64`
    have heq : alignDown addr 4096 + (4096 - 1) + 1 = roundUp addr 4096 := by
      unfold alignDown roundUp
      omega
    refine addU64_eq_ok.mpr ⟨?_, heq.symm⟩
    rw [heq]
    exact h

/-- `align_up` stops only on overflow. -/
theorem alignUp_eq_error {addr align : Nat} {e : Panic} (h : alignUp addr align = .error e) :
    e = .addOverflow := by
  unfold alignUp at h
  split at h
  · cases h
  · exact addU64_eq_error h

/-! ## Frames -/

/-- `x86_64::PhysFrame<Size4KiB>`, kept by its number: the frame starts at
`number * 4096`, which is a valid physical address. -/
structure PhysFrame where
  number : Nat
  valid : number < 2 ^ 40
  deriving DecidableEq, Repr

namespace PhysFrame

@[ext] theorem ext {f g : PhysFrame} (h : f.number = g.number) : f = g := by
  cases f; cases g; simp_all

theorem number_injective : Function.Injective PhysFrame.number := fun _ _ h => ext h

/-- Frames are ordered by their start address, as the crate derives it. -/
instance : LinearOrder PhysFrame := LinearOrder.lift' PhysFrame.number number_injective

@[simp] theorem lt_iff {f g : PhysFrame} : f < g ↔ f.number < g.number := Iff.rfl

@[simp] theorem le_iff {f g : PhysFrame} : f ≤ g ↔ f.number ≤ g.number := Iff.rfl

/-- `PhysFrame::start_address`. -/
def startAddress (f : PhysFrame) : PhysAddr :=
  ⟨f.number * 4096, by have := f.valid; omega⟩

/-- `PhysFrame::containing_address`: the frame the address lies in. -/
def containingAddress (a : PhysAddr) : PhysFrame :=
  ⟨a.val / 4096, by have := a.valid; omega⟩

/-- `frame + rhs`: `containing_address(self.start_address() + rhs * 4096)`. -/
def add (f : PhysFrame) (rhs : Nat) : Except Panic PhysFrame := do
  pure (containingAddress (← f.startAddress.add (rhs * 4096)))

@[simp] theorem startAddress_val (f : PhysFrame) : f.startAddress.val = f.number * 4096 := rfl

@[simp] theorem containingAddress_number (a : PhysAddr) :
    (containingAddress a).number = a.val / 4096 := rfl

/-- `rhs` frames on: returned exactly when that frame still starts at a valid
address. -/
theorem add_eq_ok {f g : PhysFrame} {rhs : Nat} : f.add rhs = .ok g ↔ g.number = f.number + rhs := by
  simp only [add, Except.bind_eq_ok, Except.pure_eq_ok, PhysAddr.add_eq_ok, startAddress_val]
  constructor
  · rintro ⟨a, ha, rfl⟩
    simp only [containingAddress_number, ha]
    omega
  · intro h
    have := g.valid
    refine ⟨⟨f.number * 4096 + rhs * 4096, by omega⟩, rfl, ext ?_⟩
    simp only [containingAddress_number]
    omega

/-- One frame on: returned exactly when the next frame still starts at a valid
address. -/
theorem add_one_eq_ok {f g : PhysFrame} : f.add 1 = .ok g ↔ g.number = f.number + 1 := add_eq_ok

/-- `PhysFrame::range_inclusive(start, end)`: the frames from `start` to
`end`, none when `end` comes first. -/
def rangeInclusive (start stop : PhysFrame) : List PhysFrame :=
  (List.range' start.number (stop.number + 1 - start.number)).pmap (fun n h => ⟨n, h⟩)
    fun n hn => by
      have := stop.valid
      rw [List.mem_range'_1] at hn
      omega

/-- The frames of `range_inclusive(start, end)` are those from `start` to
`end`. -/
theorem mem_rangeInclusive {start stop frame : PhysFrame} :
    frame ∈ rangeInclusive start stop ↔ start.number ≤ frame.number ∧ frame.number ≤ stop.number := by
  rw [rangeInclusive, List.mem_pmap]
  constructor
  · rintro ⟨n, hn, rfl⟩
    rw [List.mem_range'_1] at hn
    show start.number ≤ n ∧ n ≤ stop.number
    omega
  · intro h
    exact ⟨frame.number, by rw [List.mem_range'_1]; omega, rfl⟩

end PhysFrame

end Bootloader
