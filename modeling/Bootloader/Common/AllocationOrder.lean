/-
Bootloader.Common.AllocationOrder — which frames `allocate_frame` hands out,
and in which order, on a sorted memory map of whole pages.

The abstract allocator is a list: `expectedFrames frame memoryMap` is every
4 KiB frame that lies wholly inside a usable descriptor and is at or past
both the start frame and 1 MiB, in the order of the map. On a map sorted by
start address with disjoint descriptors this list is strictly increasing
(`pairwise_lt_usableFrames`), so it is *the* increasing list of those frames.

The concrete allocator refines it. `remaining self` reads off a state the
frames the abstract allocator still has to hand out: the usable frames at or
past `next_frame` in the current descriptor and in what the iterator still
holds. One call of `allocate_frame` returns the head of that list and leaves
its tail (`allocateFrame_sim`); by induction, a run of `n` calls returns the
first `n` entries of `expectedFrames`, then `None` (`allocateFrames_sim`).

What the simulation needs of the descriptors not yet visited is `Orderly`:
whole pages, each descriptor ending before any later non-empty one starts,
and each usable one ending at a valid address other than zero. The last
condition is where the code and a plain reading part: a usable descriptor
ending at `2 ^ 52` makes `PhysAddr::new` panic, and an empty one at address
0 makes `end_addr - 1` underflow.
-/
import Bootloader.Common.FrameAllocator
import Bootloader.Lib.Interval
import Bootloader.Uefi.MemoryDescriptor

namespace Bootloader

namespace LegacyFrameAllocator

open LegacyMemoryRegion (start kind)
open Tiling

variable {D : Type} [LegacyMemoryRegion D]

/-! ## 1. The frames a map offers -/

/-- The first frame that starts at or after the descriptor's start. -/
def firstFrame (d : D) : Nat := ((start d).val + 4095) / 4096

/-- The 4 KiB frames that lie wholly inside a descriptor, in increasing order. -/
def framesIn (d : D) : List Nat :=
  List.range' (firstFrame d) (endAddr d / 4096 - firstFrame d)

/-- The frames of the usable descriptors of a list, in the order of the list. -/
def usableFrames (ds : List D) : List Nat :=
  ds.flatMap fun d => if kind d = .usable then framesIn d else []

/-- The usable frames at or past frame `next`. -/
def pending (next : Nat) (ds : List D) : List Nat :=
  (usableFrames ds).filter (next ≤ ·)

/-- What successive `allocate_frame` calls should hand out from an allocator
built by `new_starting_at frame`: every usable frame at or past `frame` and
past the first MiB. -/
def expectedFrames (frame : PhysFrame) (memoryMap : List D) : List Nat :=
  pending (max frame lowerMemEnd).number memoryMap

theorem mem_framesIn {d : D} {f : Nat} :
    f ∈ framesIn d ↔ (start d).val ≤ f * 4096 ∧ f * 4096 + 4096 ≤ endAddr d := by
  simp only [framesIn, firstFrame, List.mem_range'_1]
  omega

theorem mem_usableFrames {ds : List D} {f : Nat} :
    f ∈ usableFrames ds ↔ ∃ d ∈ ds, kind d = .usable ∧ f ∈ framesIn d := by
  simp only [usableFrames, List.mem_flatMap]
  constructor
  · rintro ⟨d, hd, hf⟩
    split at hf
    · exact ⟨d, hd, ‹_›, hf⟩
    · cases hf
  · rintro ⟨d, hd, hk, hf⟩
    exact ⟨d, hd, by rw [if_pos hk]; exact hf⟩

theorem pending_nil (next : Nat) : pending next ([] : List D) = [] := rfl

theorem pending_cons_of_usable {next : Nat} {d : D} {L : List D} (hk : kind d = .usable) :
    pending next (d :: L) = (framesIn d).filter (next ≤ ·) ++ pending next L := by
  simp only [pending, usableFrames, List.flatMap_cons, if_pos hk, List.filter_append]

theorem pending_cons_of_not_usable {next : Nat} {d : D} {L : List D} (hk : kind d ≠ .usable) :
    pending next (d :: L) = pending next L := by
  simp only [pending, usableFrames, List.flatMap_cons, if_neg hk, List.nil_append]

/-- On whole pages, a descriptor's frames are the run from its start frame. -/
theorem framesIn_of_aligned {d : D} (h : (start d).val % 4096 = 0) :
    framesIn d = List.range' ((start d).val / 4096) (endAddr d / 4096 - (start d).val / 4096) := by
  have : firstFrame d = (start d).val / 4096 := by
    unfold firstFrame
    omega
  rw [framesIn, this]

/-! ## 2. Orderly maps -/

/-- What the allocator relies on in the descriptors it has yet to visit:
whole pages, usable ones ending at a valid address other than zero, and each
descriptor ending before any later non-empty one starts. -/
structure Orderly (L : List D) : Prop where
  aligned : ∀ d ∈ L, (start d).val % 4096 = 0 ∧ LegacyMemoryRegion.len d % 4096 = 0
  ends : ∀ d ∈ L, kind d = .usable → 0 < endAddr d ∧ endAddr d < 2 ^ 52
  chained : L.Pairwise fun d e => LegacyMemoryRegion.len e = 0 ∨ endAddr d ≤ (start e).val

theorem Orderly.nil : Orderly ([] : List D) :=
  ⟨fun _ h => absurd h List.not_mem_nil, fun _ h => absurd h List.not_mem_nil, List.Pairwise.nil⟩

theorem Orderly.tail {d : D} {L : List D} (h : Orderly (d :: L)) : Orderly L where
  aligned e he := h.aligned e (List.mem_cons_of_mem d he)
  ends e he := h.ends e (List.mem_cons_of_mem d he)
  chained := (List.pairwise_cons.mp h.chained).2

/-- A map sorted by start address, with disjoint descriptors of whole pages
whose usable ones end at a valid address other than zero, is orderly. -/
theorem Orderly.of_sorted {L : List D}
    (hsorted : L.Pairwise fun d e => (start d).val ≤ (start e).val)
    (hdisj : L.Pairwise fun d e =>
      Disjoint (Set.Ico (start d).val (endAddr d)) (Set.Ico (start e).val (endAddr e)))
    (haligned : ∀ d ∈ L, (start d).val % 4096 = 0 ∧ LegacyMemoryRegion.len d % 4096 = 0)
    (hends : ∀ d ∈ L, kind d = .usable → 0 < endAddr d ∧ endAddr d < 2 ^ 52) :
    Orderly L where
  aligned := haligned
  ends := hends
  chained := by
    refine (hsorted.and hdisj).imp fun {d e} ⟨hle, hde⟩ => ?_
    -- two disjoint ranges in start order: the first ends before the second starts
    rw [Set.Ico_disjoint_Ico] at hde
    unfold endAddr at hde ⊢
    omega

/-- In an orderly list, every usable frame after a descriptor lies past its
end. -/
theorem le_of_mem_usableFrames {d : D} {L : List D}
    (h : ∀ e ∈ L, LegacyMemoryRegion.len e = 0 ∨ endAddr d ≤ (start e).val) :
    ∀ f ∈ usableFrames L, endAddr d / 4096 ≤ f := by
  intro f hf
  obtain ⟨e, he, -, hfe⟩ := mem_usableFrames.mp hf
  rw [mem_framesIn] at hfe
  rcases h e he with hlen | hend
  · -- an empty descriptor has no frame
    unfold endAddr at hfe
    omega
  · omega

/-- **The abstract list is increasing.** On an orderly map the usable frames
come in strictly increasing order. -/
theorem pairwise_lt_usableFrames : ∀ {L : List D}, Orderly L → (usableFrames L).Pairwise (· < ·)
  | [], _ => List.Pairwise.nil
  | d :: L, h => by
      have hrest := pairwise_lt_usableFrames h.tail
      have hlater := le_of_mem_usableFrames (List.pairwise_cons.mp h.chained).1
      simp only [usableFrames, List.flatMap_cons] at hrest hlater ⊢
      refine List.pairwise_append.mpr ⟨?_, hrest, fun f hf g hg => ?_⟩
      · split
        · exact List.pairwise_lt_range'
        · exact List.Pairwise.nil
      · split at hf
        · have hfd := (mem_framesIn.mp hf).2
          have := hlater g hg
          omega
        · cases hf

/-! ## 3. One descriptor -/

theorem bumped_number (self : LegacyFrameAllocator D) (d : D) :
    (bumped self d).number = max self.nextFrame.number ((start d).val / 4096) := by
  unfold bumped
  rcases le_total self.nextFrame (PhysFrame.containingAddress (start d)) with h | h
  · have h' : self.nextFrame.number ≤ (start d).val / 4096 := h
    rw [max_eq_right h, max_eq_right h']
    rfl
  · have h' : (start d).val / 4096 ≤ self.nextFrame.number := h
    rw [max_eq_left h, max_eq_left h']

/-- The frames of a descriptor of whole pages at or past frame `m`: the run
from the later of its start frame and `m` to its end. -/
theorem filter_framesIn {d : D} (hs : (start d).val % 4096 = 0) (m : Nat) :
    (framesIn d).filter (m ≤ ·) =
      List.range' (max m ((start d).val / 4096)) (endAddr d / 4096 - max m ((start d).val / 4096)) := by
  rw [framesIn_of_aligned hs, filter_range'_le, max_comm]
  congr 1
  have : (start d).val ≤ endAddr d := Nat.le_add_right _ _
  omega

/-- Frames all at or past the threshold are all pending. -/
theorem pending_eq_usableFrames {m : Nat} {L : List D} (h : ∀ f ∈ usableFrames L, m ≤ f) :
    pending m L = usableFrames L :=
  List.filter_eq_self.mpr fun f hf => decide_eq_true (h f hf)

/-- **One descriptor.** On an orderly list headed by a usable descriptor,
`allocate_frame_from_descriptor` returns and moves only `next_frame`. If the
first pending frame lies in the descriptor, it is handed out and the rest stay
pending; otherwise nothing is handed out, and the rest of the list has the
same pending frames at the new `next_frame`. -/
theorem allocateFrameFromDescriptor_sim (self : LegacyFrameAllocator D) {d : D} {L : List D}
    (hL : Orderly (d :: L)) (hk : kind d = .usable) :
    ∃ r next', self.allocateFrameFromDescriptor d = .ok (r, { self with nextFrame := next' }) ∧
      ((∃ f, r = some f ∧
          pending self.nextFrame.number (d :: L) = f.number :: pending next'.number (d :: L)) ∨
        (r = none ∧ pending self.nextFrame.number (d :: L) = pending next'.number L)) := by
  obtain ⟨hs, hlen⟩ := hL.aligned d List.mem_cons_self
  obtain ⟨hpos, hlt⟩ := hL.ends d List.mem_cons_self hk
  have hlater := le_of_mem_usableFrames (List.pairwise_cons.mp hL.chained).1
  have hbump := bumped_number self d
  have hse : (start d).val ≤ endAddr d := Nat.le_add_right _ _
  have hmod : endAddr d % 4096 = 0 := by
    unfold endAddr
    omega
  -- the descriptor ends on a page boundary: its last frame is the one before `E`
  have hend : endFrameNumber d = endAddr d / 4096 - 1 := by
    unfold endFrameNumber
    omega
  by_cases hfound : (bumped self d).number < endAddr d / 4096
  · -- the bumped frame is handed out, and `next_frame` moves past it
    have hnext : (bumped self d).number + 1 < 2 ^ 40 := by
      omega
    refine ⟨some (bumped self d), ⟨(bumped self d).number + 1, hnext⟩,
      allocateFrameFromDescriptor_eq_ok.mpr ⟨hlt, hpos, rfl, Or.inl ⟨by omega, rfl, rfl⟩⟩,
      Or.inl ⟨bumped self d, rfl, ?_⟩⟩
    have hrest : ∀ m ≤ (bumped self d).number + 1, pending m L = usableFrames L :=
      fun m hm => pending_eq_usableFrames fun f hf => by
        have := hlater f hf
        omega
    rw [pending_cons_of_usable hk, pending_cons_of_usable hk, filter_framesIn hs,
      filter_framesIn hs, hrest _ (by omega), hrest _ le_rfl, ← hbump,
      max_eq_left (by omega : (start d).val / 4096 ≤ (bumped self d).number + 1),
      show endAddr d / 4096 - (bumped self d).number =
        endAddr d / 4096 - ((bumped self d).number + 1) + 1 by omega, List.range'_succ]
    rfl
  · -- the descriptor is used up; only the bump is kept
    refine ⟨none, bumped self d,
      allocateFrameFromDescriptor_eq_ok.mpr ⟨hlt, hpos, rfl, Or.inr ⟨by omega, rfl, rfl⟩⟩,
      Or.inr ⟨rfl, ?_⟩⟩
    rw [pending_cons_of_usable hk, filter_framesIn hs, ← hbump,
      show endAddr d / 4096 - (bumped self d).number = 0 by omega, List.range'_zero,
      List.nil_append]
    -- no usable frame of the rest lies between the old and the bumped `next_frame`
    refine List.filter_congr fun f hf => ?_
    have := hlater f hf
    simp only [decide_eq_decide]
    omega

/-! ## 4. The allocator refines the list -/

/-- The frames an allocator state has yet to hand out: the usable frames at or
past `next_frame` in the current descriptor and in what the iterator still
holds. -/
def remaining (self : LegacyFrameAllocator D) : List Nat :=
  pending self.nextFrame.number (self.currentDescriptor.toList ++ self.memoryMap)

/-- The simulation invariant: the descriptors still to visit are orderly, and
the current one, if any, is usable. -/
structure Sim (state : LegacyFrameAllocator D) : Prop where
  orderly : Orderly (state.currentDescriptor.toList ++ state.memoryMap)
  current : ∀ d, state.currentDescriptor = some d → kind d = .usable

/-- The `while let` loop over what the iterator still holds, entered with no
current descriptor: it returns the first pending frame of the list, if any,
and leaves the rest pending. -/
theorem findFrame_sim : ∀ {L : List D} (self : LegacyFrameAllocator D), Orderly L →
    self.currentDescriptor = none →
    ∃ r self', self.findFrame L = .ok (r, self') ∧
      r.map PhysFrame.number = (pending self.nextFrame.number L).head? ∧
      remaining self' = (pending self.nextFrame.number L).tail ∧ Sim self'
  | [], self, _, hcur => by
      refine ⟨none, { self with memoryMap := [] }, rfl, rfl, ?_, ⟨?_, ?_⟩⟩
      · simp [remaining, hcur, pending_nil]
      · simpa [hcur] using Orderly.nil
      · simp [hcur]
  | d :: L, self, hL, hcur => by
      by_cases hk : kind d = .usable
      · obtain ⟨r, next', hafd, hcase⟩ :=
          allocateFrameFromDescriptor_sim { self with memoryMap := L } hL hk
        rcases hcase with ⟨f, rfl, hpend⟩ | ⟨rfl, hpend⟩
        · -- the descriptor yields a frame and becomes the current one
          refine ⟨some f, { self with memoryMap := L, nextFrame := next', currentDescriptor := some d },
            ?_, ?_, ?_, ⟨hL, fun d' hd' => ?_⟩⟩
          · simp only [findFrame, ne_eq, hk, not_true_eq_false, if_false, hafd, Except.ok_bind]
            rfl
          · rw [hpend]
            rfl
          · rw [hpend]
            rfl
          · cases hd'
            exact hk
        · -- the descriptor is used up: the loop goes on with the rest
          obtain ⟨r, self', hfind, hhead, hrem, hsim⟩ :=
            findFrame_sim { self with memoryMap := L, nextFrame := next' } hL.tail hcur
          refine ⟨r, self', ?_, ?_, ?_, hsim⟩
          · simp only [findFrame, ne_eq, hk, not_true_eq_false, if_false, hafd, Except.ok_bind]
            exact hfind
          · rw [hpend]
            exact hhead
          · rw [hpend]
            exact hrem
      · -- a descriptor that is not usable is skipped
        obtain ⟨r, self', hfind, hhead, hrem, hsim⟩ :=
          findFrame_sim { self with memoryMap := L } hL.tail hcur
        refine ⟨r, self', ?_, ?_, ?_, hsim⟩
        · simp only [findFrame, ne_eq, hk, not_false_eq_true, if_true]
          exact hfind
        · rw [pending_cons_of_not_usable hk]
          exact hhead
        · rw [pending_cons_of_not_usable hk]
          exact hrem

/-- **Step.** One call of `allocate_frame` returns the first frame the state
has yet to hand out, if any, and leaves the rest. -/
theorem allocateFrame_sim {self : LegacyFrameAllocator D} (hs : Sim self) :
    ∃ r self', self.allocateFrame = .ok (r, self') ∧
      r.map PhysFrame.number = (remaining self).head? ∧
      remaining self' = (remaining self).tail ∧ Sim self' := by
  cases hcur : self.currentDescriptor with
  | none =>
    have hL : Orderly self.memoryMap := by simpa [hcur] using hs.orderly
    obtain ⟨r, self', hfind, hhead, hrem, hsim⟩ := findFrame_sim self hL hcur
    refine ⟨r, self', ?_, ?_, ?_, hsim⟩
    · rw [allocateFrame, hcur]
      exact hfind
    · simpa [remaining, hcur] using hhead
    · simpa [remaining, hcur] using hrem
  | some d =>
    have hL : Orderly (d :: self.memoryMap) := by simpa [hcur] using hs.orderly
    have hk := hs.current d hcur
    have hrem₀ : remaining self = pending self.nextFrame.number (d :: self.memoryMap) := by
      simp [remaining, hcur]
    obtain ⟨r, next', hafd, hcase⟩ := allocateFrameFromDescriptor_sim self hL hk
    rcases hcase with ⟨f, rfl, hpend⟩ | ⟨rfl, hpend⟩
    · -- the current descriptor yields the next frame
      refine ⟨some f, { self with nextFrame := next' }, ?_, ?_, ?_, ⟨?_, ?_⟩⟩
      · simp only [allocateFrame, hcur, hafd, Except.ok_bind]
        rfl
      · rw [hrem₀, hpend]
        rfl
      · rw [hrem₀, hpend]
        simp [remaining, hcur]
      · simpa [hcur] using hL
      · intro d' hd'
        simp only [hcur, Option.some.injEq] at hd'
        exact hd' ▸ hk
    · -- it is used up: the loop takes over with the rest of the iterator
      obtain ⟨r, self', hfind, hhead, hrem, hsim⟩ :=
        findFrame_sim { self with nextFrame := next', currentDescriptor := none } hL.tail rfl
      refine ⟨r, self', ?_, ?_, ?_, hsim⟩
      · simp only [allocateFrame, hcur, hafd, Except.ok_bind]
        exact hfind
      · rw [hrem₀, hpend]
        exact hhead
      · rw [hrem₀, hpend]
        exact hrem

/-- **Run.** `n` calls of `allocate_frame` return the first `n` frames the
state has yet to hand out, then `None`. -/
theorem allocateFrames_sim : ∀ (n : Nat) {self : LegacyFrameAllocator D}, Sim self →
    ∃ rs self', allocateFrames n self = .ok (rs, self') ∧
      rs.map (Option.map PhysFrame.number) = (List.range n).map fun i => (remaining self)[i]?
  | 0, self, _ => ⟨[], self, rfl, rfl⟩
  | n + 1, self, hs => by
      obtain ⟨r, self₁, hstep, hhead, hrem, hs₁⟩ := allocateFrame_sim hs
      obtain ⟨rs, self₂, hrun, hrs⟩ := allocateFrames_sim n hs₁
      refine ⟨r :: rs, self₂, ?_, ?_⟩
      · simp only [allocateFrames, hstep, hrun, Except.ok_bind]
        rfl
      · rw [List.map_cons, hhead, hrs, hrem, List.range_succ_eq_map, List.map_cons,
          List.map_map, List.head?_eq_getElem?]
        congr 1
        refine List.map_congr_left fun i _ => ?_
        simp

/-! ## 5. Allocation order on a fresh allocator -/

/-- An allocator built by `new_starting_at` over an orderly map simulates the
list, and has `expectedFrames` left to hand out. -/
theorem sim_newStartingAt (frame : PhysFrame) {memoryMap : List D} (h : Orderly memoryMap) :
    Sim (newStartingAt frame memoryMap) ∧
      remaining (newStartingAt frame memoryMap) = expectedFrames frame memoryMap :=
  ⟨⟨h, fun _ hd => by cases hd⟩, rfl⟩

/-- **Allocation order.** On a memory map sorted by start address, with
disjoint descriptors of whole pages whose usable ones end at a valid address
other than zero, `expectedFrames` is strictly increasing and holds exactly the
frames that lie in a usable descriptor at or past the start frame and 1 MiB;
and successive `allocate_frame` calls on an allocator built by
`new_starting_at` return these frames in order, then `None` on every later
call. -/
theorem allocateFrames_eq_expectedFrames (frame : PhysFrame) (memoryMap : List D)
    (hsorted : memoryMap.Pairwise fun d e => (start d).val ≤ (start e).val)
    (hdisj : memoryMap.Pairwise fun d e =>
      Disjoint (Set.Ico (start d).val (endAddr d)) (Set.Ico (start e).val (endAddr e)))
    (haligned : ∀ d ∈ memoryMap, (start d).val % 4096 = 0 ∧ LegacyMemoryRegion.len d % 4096 = 0)
    (hends : ∀ d ∈ memoryMap, kind d = .usable → 0 < endAddr d ∧ endAddr d < 2 ^ 52) :
    (expectedFrames frame memoryMap).Pairwise (· < ·) ∧
      (∀ f, f ∈ expectedFrames frame memoryMap ↔ (max frame lowerMemEnd).number ≤ f ∧
        ∃ d ∈ memoryMap, kind d = .usable ∧ (start d).val ≤ f * 4096 ∧ f * 4096 + 4096 ≤ endAddr d) ∧
      ∀ n, ∃ rs self, allocateFrames n (newStartingAt frame memoryMap) = .ok (rs, self) ∧
        rs.map (Option.map PhysFrame.number) =
          (List.range n).map fun i => (expectedFrames frame memoryMap)[i]? := by
  have horderly := Orderly.of_sorted hsorted hdisj haligned hends
  obtain ⟨hsim, hrem⟩ := sim_newStartingAt frame horderly
  refine ⟨(pairwise_lt_usableFrames horderly).filter _, fun f => ?_, fun n => ?_⟩
  · simp only [expectedFrames, pending, List.mem_filter, mem_usableFrames, mem_framesIn,
      decide_eq_true_eq]
    tauto
  · obtain ⟨rs, self, hrun, hrs⟩ := allocateFrames_sim n hsim
    exact ⟨rs, self, hrun, hrem ▸ hrs⟩

/-- A UEFI map as the loader sees it after sorting: conventional memory below
640 KiB, a reserved page, and 1 MiB of conventional memory at 1 MiB. -/
theorem allocation_order_on_uefi_map :
    let memoryMap : List Uefi.UefiMemoryDescriptor :=
      [⟨⟨7, 0, 0x9f⟩, (by decide), (by decide)⟩, ⟨⟨0, 0x9f000, 1⟩, (by decide), (by decide)⟩,
        ⟨⟨7, 0x100000, 0x100⟩, (by decide), (by decide)⟩]
    (memoryMap.Pairwise fun d e => (start d).val ≤ (start e).val) ∧
    (memoryMap.Pairwise fun d e =>
      Disjoint (Set.Ico (start d).val (endAddr d)) (Set.Ico (start e).val (endAddr e))) ∧
    (∀ d ∈ memoryMap, (start d).val % 4096 = 0 ∧ LegacyMemoryRegion.len d % 4096 = 0) ∧
    (∀ d ∈ memoryMap, kind d = .usable → 0 < endAddr d ∧ endAddr d < 2 ^ 52) ∧
    ((expectedFrames lowerMemEnd memoryMap).Pairwise (· < ·) ∧
      (∀ f, f ∈ expectedFrames lowerMemEnd memoryMap ↔ (max lowerMemEnd lowerMemEnd).number ≤ f ∧
        ∃ d ∈ memoryMap, kind d = .usable ∧ (start d).val ≤ f * 4096 ∧ f * 4096 + 4096 ≤ endAddr d) ∧
      ∀ n, ∃ rs self, allocateFrames n (newStartingAt lowerMemEnd memoryMap) = .ok (rs, self) ∧
        rs.map (Option.map PhysFrame.number) =
          (List.range n).map fun i => (expectedFrames lowerMemEnd memoryMap)[i]?) := by
  intro memoryMap
  refine ⟨?hsorted, ?hdisj, ?haligned, ?hends,
    allocateFrames_eq_expectedFrames lowerMemEnd memoryMap ?hsorted ?hdisj ?haligned ?hends⟩
  case hsorted => decide
  case hdisj =>
    simp [memoryMap, Set.Ico_disjoint_Ico, endAddr]
    decide
  case haligned => decide
  case hends => decide

/-- `allocate_frame` panics on two sorted maps of whole pages: on an empty
usable descriptor at address 0, where `end_addr - 1` underflows, and on a
usable page ending at `2 ^ 52`, which is no valid address. -/
theorem allocateFrame_panics_on_edge_descriptors :
    (new [(⟨⟨7, 0, 0⟩, (by decide), (by decide)⟩ : Uefi.UefiMemoryDescriptor)]).allocateFrame =
        .error .subOverflow ∧
      (new [(⟨⟨7, 2 ^ 52 - 0x1000, 1⟩, (by decide), (by decide)⟩ :
        Uefi.UefiMemoryDescriptor)]).allocateFrame = .error .physAddrNotValid := by
  decide

end LegacyFrameAllocator

end Bootloader
