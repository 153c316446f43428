/-
Bootloader.Common.FrameAllocator — what one call of `allocate_frame` does,
and what a run of calls hands out.

`allocate_frame_from_descriptor` is the only place the allocator's state
moves, and it moves one way: `next_frame` is raised to the descriptor's first
frame (`bumped`) and, when a frame is handed out, to the frame after it. So
along any run of `allocate_frame` calls, whatever the memory map, `next_frame`
never decreases, `min_frame` and the `original` map never change, and every
frame handed out lies in `[next_frame before, next_frame after)` of its call
(`allocateFrame_eq_ok`). A run hands out strictly increasing frames, all in
`[min_frame, next_frame)` of the final state (`allocateFrames_eq_ok`) — the
one slice `construct_memory_map` later reserves for them.

The step lemma for `allocate_frame_from_descriptor` is an `iff`
(`allocateFrameFromDescriptor_eq_ok`): it says exactly when the call returns
and what it returns, so later proofs never unfold the function.
-/
import Bootloader.Common.LegacyMemoryRegion

namespace Bootloader

namespace LegacyFrameAllocator

open LegacyMemoryRegion (start kind usableAfterBootloaderExit)

variable {D : Type} [LegacyMemoryRegion D]

/-! ## 1. One descriptor -/

/-- The exclusive end address `start + len` of a descriptor, in `ℕ`. -/
def endAddr (d : D) : Nat := (start d).val + LegacyMemoryRegion.len d

/-- The number of `end_frame`, the frame holding the descriptor's last byte. -/
def endFrameNumber (d : D) : Nat := (endAddr d - 1) / 4096

/-- The frame `next_frame` is raised to before `d` is tried. -/
def bumped (self : LegacyFrameAllocator D) (d : D) : PhysFrame :=
  max self.nextFrame (PhysFrame.containingAddress (start d))

theorem le_bumped (self : LegacyFrameAllocator D) (d : D) : self.nextFrame ≤ bumped self d :=
  le_max_left _ _

/-- `allocate_frame_from_descriptor`, exactly: it returns when the descriptor's
end is a valid address other than zero (and the frame after the one it hands
out is valid); it hands out the bumped frame when that is not past the
descriptor's last frame, and otherwise keeps only the bump. -/
theorem allocateFrameFromDescriptor_eq_ok {self self' : LegacyFrameAllocator D} {d : D}
    {r : Option PhysFrame} :
    self.allocateFrameFromDescriptor d = .ok (r, self') ↔
      endAddr d < 2 ^ 52 ∧ 0 < endAddr d ∧
      self' = { self with nextFrame := self'.nextFrame } ∧
      ((bumped self d).number ≤ endFrameNumber d ∧ r = some (bumped self d) ∧
          self'.nextFrame.number = (bumped self d).number + 1 ∨
        endFrameNumber d < (bumped self d).number ∧ r = none ∧
          self'.nextFrame = bumped self d) := by
  have hbump : (if self.nextFrame < PhysFrame.containingAddress (start d)
      then { self with nextFrame := PhysFrame.containingAddress (start d) } else self)
      = { self with nextFrame := bumped self d } := by
    unfold bumped
    split
    · rename_i h
      rw [max_eq_right h.le]
    · rename_i h
      rw [max_eq_left (not_lt.mp h)]
  simp only [allocateFrameFromDescriptor, hbump, Except.bind_eq_ok, PhysAddr.add_eq_ok,
    PhysAddr.sub_eq_ok]
  constructor
  · rintro ⟨a, ha, a1, ⟨h1, ha1⟩, hif⟩
    have hend : (PhysFrame.containingAddress a1).number = endFrameNumber d := by
      simp only [PhysFrame.containingAddress_number, endFrameNumber, endAddr, ha1, ha]
    refine ⟨by have := a.valid; unfold endAddr; omega, by unfold endAddr; omega, ?_⟩
    split at hif
    · rename_i hle
      obtain ⟨g, hg, hpure⟩ := Except.bind_eq_ok.mp hif
      simp only [Except.pure_eq_ok, Prod.mk.injEq] at hpure
      obtain ⟨rfl, rfl⟩ := hpure
      refine ⟨rfl, Or.inl ⟨?_, rfl, PhysFrame.add_one_eq_ok.mp hg⟩⟩
      rw [← hend]
      exact hle
    · rename_i hle
      simp only [Except.pure_eq_ok, Prod.mk.injEq] at hif
      obtain ⟨rfl, rfl⟩ := hif
      refine ⟨rfl, Or.inr ⟨?_, rfl, rfl⟩⟩
      rw [← hend]
      exact lt_of_not_ge hle
  · rintro ⟨hlt, hpos, hself, hcase⟩
    refine ⟨⟨endAddr d, hlt⟩, rfl, ⟨endAddr d - 1, by omega⟩, ⟨hpos, rfl⟩, ?_⟩
    have hle_iff : self.bumped d ≤ PhysFrame.containingAddress ⟨endAddr d - 1, by omega⟩ ↔
        (self.bumped d).number ≤ endFrameNumber d := Iff.rfl
    rcases hcase with ⟨hle, rfl, hnext⟩ | ⟨hgt, rfl, hnext⟩
    · rw [if_pos (hle_iff.mpr hle)]
      refine Except.bind_eq_ok.mpr ⟨self'.nextFrame, PhysFrame.add_one_eq_ok.mpr hnext, ?_⟩
      rw [hself]
      rfl
    · rw [if_neg (fun h => absurd (hle_iff.mp h) (not_le.mpr hgt)), hself, hnext]
      rfl

/-! ## 2. A call moves `next_frame` forward -/

/-- What a returning call may do to the allocator: `original` and `min_frame`
stay, `next_frame` does not go down, and the frame handed out (if any) lies in
`[next_frame before, next_frame after)`. -/
structure Advances (s s' : LegacyFrameAllocator D) (r : Option PhysFrame) : Prop where
  original_eq : s'.original = s.original
  minFrame_eq : s'.minFrame = s.minFrame
  nextFrame_le : s.nextFrame ≤ s'.nextFrame
  frame_mem : ∀ f, r = some f → s.nextFrame ≤ f ∧ f < s'.nextFrame

omit [LegacyMemoryRegion D] in
theorem Advances.refl (self : LegacyFrameAllocator D) : Advances self self none :=
  ⟨rfl, rfl, le_rfl, fun _ h => by cases h⟩

omit [LegacyMemoryRegion D] in
/-- A call that hands out nothing, then one that does. -/
theorem Advances.trans {s₀ s₁ s₂ : LegacyFrameAllocator D} {r : Option PhysFrame}
    (h₁ : Advances s₀ s₁ none) (h₂ : Advances s₁ s₂ r) : Advances s₀ s₂ r where
  original_eq := h₂.original_eq.trans h₁.original_eq
  minFrame_eq := h₂.minFrame_eq.trans h₁.minFrame_eq
  nextFrame_le := h₁.nextFrame_le.trans h₂.nextFrame_le
  frame_mem f hf := by
    obtain ⟨hlo, hhi⟩ := h₂.frame_mem f hf
    exact ⟨h₁.nextFrame_le.trans hlo, hhi⟩

omit [LegacyMemoryRegion D] in
/-- `Advances` reads only `original`, `min_frame` and `next_frame`, so moving
the iterator or the current descriptor changes nothing it sees. -/
theorem Advances.congr {s₁ s₂ t₁ t₂ : LegacyFrameAllocator D} {r : Option PhysFrame}
    (h : Advances s₁ s₂ r)
    (h₁ : t₁.original = s₁.original ∧ t₁.minFrame = s₁.minFrame ∧ t₁.nextFrame = s₁.nextFrame)
    (h₂ : t₂.original = s₂.original ∧ t₂.minFrame = s₂.minFrame ∧ t₂.nextFrame = s₂.nextFrame) :
    Advances t₁ t₂ r := by
  obtain ⟨ho₁, hm₁, hn₁⟩ := h₁
  obtain ⟨ho₂, hm₂, hn₂⟩ := h₂
  refine ⟨?_, ?_, ?_, ?_⟩
  · rw [ho₁, ho₂, h.original_eq]
  · rw [hm₁, hm₂, h.minFrame_eq]
  · rw [hn₁, hn₂]; exact h.nextFrame_le
  · rw [hn₁, hn₂]; exact h.frame_mem

theorem allocateFrameFromDescriptor_advances {self self' : LegacyFrameAllocator D} {d : D}
    {r : Option PhysFrame} (h : self.allocateFrameFromDescriptor d = .ok (r, self')) :
    Advances self self' r := by
  obtain ⟨-, -, hself, hcase⟩ := allocateFrameFromDescriptor_eq_ok.mp h
  have hb := le_bumped self d
  rw [hself]
  rcases hcase with ⟨-, rfl, hnext⟩ | ⟨-, rfl, hnext⟩
  · refine ⟨rfl, rfl, ?_, ?_⟩
    · simp only [PhysFrame.le_iff] at hb ⊢
      omega
    · rintro f ⟨⟩
      simp only [PhysFrame.le_iff, PhysFrame.lt_iff] at hb ⊢
      omega
  · exact ⟨rfl, rfl, hnext ▸ hb, fun _ h => by cases h⟩

/-- The `while let` loop of `allocate_frame`, by induction on what the
iterator still holds. -/
theorem findFrame_advances :
    ∀ {self self' : LegacyFrameAllocator D} {ds : List D} {r : Option PhysFrame},
      self.findFrame ds = .ok (r, self') → Advances self self' r
  | self, self', [], r, h => by
      simp only [findFrame, Except.pure_eq_ok, Prod.mk.injEq] at h
      obtain ⟨rfl, rfl⟩ := h
      exact (Advances.refl self).congr ⟨rfl, rfl, rfl⟩ ⟨rfl, rfl, rfl⟩
  | self, self', d :: ds, r, h => by
      simp only [findFrame] at h
      split at h
      · exact (findFrame_advances h).congr ⟨rfl, rfl, rfl⟩ ⟨rfl, rfl, rfl⟩
      · obtain ⟨⟨r₁, s₁⟩, h₁, h₂⟩ := Except.bind_eq_ok.mp h
        have hadv : Advances self s₁ r₁ := (allocateFrameFromDescriptor_advances h₁).congr
          ⟨rfl, rfl, rfl⟩ ⟨rfl, rfl, rfl⟩
        cases r₁ with
        | some f =>
          simp only [Except.pure_eq_ok, Prod.mk.injEq] at h₂
          obtain ⟨rfl, rfl⟩ := h₂
          exact hadv.congr ⟨rfl, rfl, rfl⟩ ⟨rfl, rfl, rfl⟩
        | none => exact hadv.trans (findFrame_advances h₂)

theorem allocateFrame_advances {self self' : LegacyFrameAllocator D} {r : Option PhysFrame}
    (h : self.allocateFrame = .ok (r, self')) : Advances self self' r := by
  unfold allocateFrame at h
  split at h
  · obtain ⟨⟨r₁, s₁⟩, h₁, h₂⟩ := Except.bind_eq_ok.mp h
    have hadv := allocateFrameFromDescriptor_advances h₁
    cases r₁ with
    | some f =>
      simp only [Except.pure_eq_ok, Prod.mk.injEq] at h₂
      obtain ⟨rfl, rfl⟩ := h₂
      exact hadv
    | none => exact hadv.trans ((findFrame_advances h₂).congr ⟨rfl, rfl, rfl⟩ ⟨rfl, rfl, rfl⟩)
  · exact findFrame_advances h

/-! ## 3. A run of calls -/

/-- **Frames handed out by a run.** Along `n` calls of `allocate_frame`, the
frames handed out strictly increase and all lie in `[next_frame, next_frame')`
between the first and the final state; `original` and `min_frame` stay. -/
theorem allocateFrames_eq_ok :
    ∀ {n : Nat} {self self' : LegacyFrameAllocator D} {rs : List (Option PhysFrame)},
      allocateFrames n self = .ok (rs, self') →
        self'.original = self.original ∧ self'.minFrame = self.minFrame ∧
        self.nextFrame ≤ self'.nextFrame ∧
        (rs.filterMap id).Pairwise (· < ·) ∧
        ∀ f ∈ rs.filterMap id, self.nextFrame ≤ f ∧ f < self'.nextFrame
  | 0, self, self', rs, h => by
      simp only [allocateFrames, Except.pure_eq_ok, Prod.mk.injEq] at h
      obtain ⟨rfl, rfl⟩ := h
      simp
  | n + 1, self, self', rs, h => by
      simp only [allocateFrames, Except.bind_eq_ok] at h
      obtain ⟨⟨r, s₁⟩, h₁, ⟨rs', s₂⟩, h₂, hpure⟩ := h
      simp only [Except.pure_eq_ok, Prod.mk.injEq] at hpure
      obtain ⟨rfl, rfl⟩ := hpure
      have hadv := allocateFrame_advances h₁
      obtain ⟨horig, hmin, hnext, hpw, hmem⟩ := allocateFrames_eq_ok h₂
      refine ⟨horig.trans hadv.original_eq, hmin.trans hadv.minFrame_eq,
        hadv.nextFrame_le.trans hnext, ?_, ?_⟩
      · -- the new frame, if any, lies below `next_frame` of the rest of the run
        cases r with
        | none => exact hpw
        | some f =>
          obtain ⟨-, hf⟩ := hadv.frame_mem f rfl
          show (f :: rs'.filterMap id).Pairwise (· < ·)
          exact List.pairwise_cons.mpr ⟨fun g hg => lt_of_lt_of_le hf (hmem g hg).1, hpw⟩
      · intro g hg
        cases r with
        | none =>
          have := hmem g hg
          exact ⟨hadv.nextFrame_le.trans this.1, this.2⟩
        | some f =>
          change g ∈ f :: rs'.filterMap id at hg
          rcases List.mem_cons.mp hg with rfl | hg
          · obtain ⟨hlo, hhi⟩ := hadv.frame_mem g rfl
            exact ⟨hlo, lt_of_lt_of_le hhi hnext⟩
          · have := hmem g hg
            exact ⟨hadv.nextFrame_le.trans this.1, this.2⟩

end LegacyFrameAllocator

end Bootloader
