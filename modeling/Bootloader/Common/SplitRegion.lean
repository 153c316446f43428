/-
Bootloader.Common.SplitRegion — the loop of `split_and_add_region`: which
pieces it cuts a usable region into, and what holds of them.

`split_and_add_region` interleaves two things: a loop that cuts a usable
region at the used slices, and `add_region` calls that write the pieces out.
They are taken apart here.

* `splitPieces` is the loop alone: the list of pieces it cuts, empty ones
  included. `splitAndAddRegion_eq` shows that the source's function writes
  exactly these pieces, through `addRegions` (a fold of `add_region`).
* `addRegions_eq` closes the fold: it drops the empty pieces and panics with
  "no more free entries" exactly when the non-empty ones do not fit.
* The loop's three invariants are proved by induction along it
  (`splitPieces.induct`): the non-empty pieces tile the region
  (`tiles_splitPieces`); each is either a usable piece that meets no used
  slice or a bootloader piece inside one (`splitPieces_kind`); and there are
  at most one more of them than there are slice endpoints strictly inside the
  region (`length_splitPieces_le`).
-/
import Bootloader.Common.LegacyMemoryRegion
import Bootloader.Lib.Interval

namespace Bootloader

namespace LegacyFrameAllocator

open LegacyMemoryRegion (start kind usableAfterBootloaderExit)
open Tiling

variable {D : Type} [LegacyMemoryRegion D]

/-! ## 1. The splitting loop, alone -/

/-- The pieces the `while` loop of `split_and_add_region` cuts `region` into,
in order and empty ones included: before each earliest overlap the usable
piece, then the overlap as a bootloader piece. -/
def splitPieces (slices : List UsedMemorySlice) (region : MemoryRegion) : List MemoryRegion :=
  if region.start = region.end then [] else
    match _hmin : (overlaps region slices).minOn? (·.1) with
    | some (overlapStart, overlapEnd) =>
      { start := region.start, «end» := overlapStart, kind := .usable } ::
        { start := overlapStart, «end» := overlapEnd, kind := .bootloader } ::
          splitPieces slices { region with start := overlapEnd }
    | none => [region]
termination_by region.end - region.start
decreasing_by
  obtain ⟨slice, -, ho, hlt⟩ := mem_overlaps (List.minOn?_mem _hmin)
  simp only [Prod.mk.injEq] at ho
  omega

/-- `add_region` over a list of pieces, in order. -/
def addRegions (regions : Nat) (written : List MemoryRegion) (pieces : List MemoryRegion) :
    Except Panic (List MemoryRegion) :=
  pieces.foldlM (fun written region => addRegion region regions written) written

/-- A region `add_region` writes: one with `start ≠ end`. -/
def nonEmpty (region : MemoryRegion) : Bool := region.start ≠ region.end

/-- The fold of `add_region`, closed: the non-empty pieces are appended if
they fit in what is left of the slice, and otherwise the slice runs out. -/
theorem addRegions_eq (regions : Nat) (written pieces : List MemoryRegion) :
    addRegions regions written pieces =
      if (pieces.filter nonEmpty).length ≤ regions - written.length
      then .ok (written ++ pieces.filter nonEmpty) else .error .noMoreFreeEntries := by
  induction pieces generalizing written with
  | nil =>
    simp only [addRegions, List.foldlM_nil, List.filter_nil, List.length_nil, Nat.zero_le,
      if_true, List.append_nil]
    rfl
  | cons region pieces ih =>
    simp only [addRegions] at ih ⊢
    rw [List.foldlM_cons]
    by_cases hempty : region.start = region.end
    · -- `add_region` skips the empty piece
      have hskip : nonEmpty region = false := by simp [nonEmpty, hempty]
      rw [addRegion, if_pos hempty, Except.ok_bind, ih, List.filter_cons_of_neg (by simp [hskip])]
    · have hkeep : nonEmpty region = true := by simp [nonEmpty, hempty]
      rw [List.filter_cons_of_pos hkeep, addRegion, if_neg hempty, List.length_cons]
      by_cases hroom : written.length < regions
      · rw [if_pos hroom, Except.ok_bind, ih, List.length_append, List.length_singleton,
          List.append_assoc, List.singleton_append]
        congr 1
        exact propext (by omega)
      · rw [if_neg hroom, Except.error_bind, if_neg (by omega)]

theorem addRegions_append (regions : Nat) (written p q : List MemoryRegion) :
    addRegions regions written (p ++ q) =
      addRegions regions written p >>= fun written => addRegions regions written q := by
  simp only [addRegions, List.foldlM_append]

/-- The non-empty pieces are written when they fit. -/
theorem addRegions_of_le {regions : Nat} {written pieces : List MemoryRegion}
    (h : (written ++ pieces.filter nonEmpty).length ≤ regions) :
    addRegions regions written pieces = .ok (written ++ pieces.filter nonEmpty) := by
  rw [List.length_append] at h
  rw [addRegions_eq, if_pos (by omega)]

/-- Whenever the fold returns, it has appended the non-empty pieces. -/
theorem eq_append_of_addRegions_eq_ok {regions : Nat} {written pieces written' : List MemoryRegion}
    (h : addRegions regions written pieces = .ok written') :
    written' = written ++ pieces.filter nonEmpty := by
  rw [addRegions_eq] at h
  split at h
  · cases h
    rfl
  · cases h

theorem addRegion_eq_addRegions (region : MemoryRegion) (regions : Nat)
    (written : List MemoryRegion) :
    addRegion region regions written = addRegions regions written [region] := by
  simp only [addRegions, List.foldlM_cons, List.foldlM_nil, bind_pure]

/-! Equation lemmas, one per way round the loop, so that no proof below
splits the loop's `match` itself. -/

section Equations

variable {slices : List UsedMemorySlice} {region : MemoryRegion} {overlapStart overlapEnd : Nat}

omit [LegacyMemoryRegion D]

theorem splitPieces_of_empty (h : region.start = region.end) : splitPieces slices region = [] := by
  rw [splitPieces, if_pos h]

theorem splitPieces_of_some (hne : ¬region.start = region.end)
    (hmin : (overlaps region slices).minOn? (·.1) = some (overlapStart, overlapEnd)) :
    splitPieces slices region =
      { start := region.start, «end» := overlapStart, kind := .usable } ::
        { start := overlapStart, «end» := overlapEnd, kind := .bootloader } ::
          splitPieces slices { region with start := overlapEnd } := by
  rw [splitPieces, if_neg hne]
  split
  · rename_i heq
    rw [hmin, Option.some.injEq, Prod.mk.injEq] at heq
    obtain ⟨rfl, rfl⟩ := heq
    rfl
  · rename_i heq
    rw [hmin] at heq
    cases heq

theorem splitPieces_of_none (hne : ¬region.start = region.end)
    (hmin : (overlaps region slices).minOn? (·.1) = none) :
    splitPieces slices region = [region] := by
  rw [splitPieces, if_neg hne]
  split
  · rename_i heq
    rw [hmin] at heq
    cases heq
  · rfl

theorem splitAndAddRegion_of_some {regions : Nat} {written : List MemoryRegion}
    (hne : ¬region.start = region.end)
    (hmin : (overlaps region slices).minOn? (·.1) = some (overlapStart, overlapEnd)) :
    splitAndAddRegion region regions written (.ok slices) = (do
      let written ← addRegion { start := region.start, «end» := overlapStart, kind := .usable }
        regions written
      let written ← addRegion { start := overlapStart, «end» := overlapEnd, kind := .bootloader }
        regions written
      splitAndAddRegion { region with start := overlapEnd } regions written (.ok slices)) := by
  rw [splitAndAddRegion, if_neg hne, Except.ok_bind]
  split
  · rename_i heq
    rw [hmin, Option.some.injEq, Prod.mk.injEq] at heq
    obtain ⟨rfl, rfl⟩ := heq
    rfl
  · rename_i heq
    rw [hmin] at heq
    cases heq

theorem splitAndAddRegion_of_none {regions : Nat} {written : List MemoryRegion}
    (hne : ¬region.start = region.end)
    (hmin : (overlaps region slices).minOn? (·.1) = none) :
    splitAndAddRegion region regions written (.ok slices) = addRegion region regions written := by
  rw [splitAndAddRegion, if_neg hne, Except.ok_bind]
  split
  · rename_i heq
    rw [hmin] at heq
    cases heq
  · rfl

/-- With the rounding of the used slices panicking, the loop stops at its
first pass, unless the region is empty. -/
theorem splitAndAddRegion_of_error {regions : Nat} {written : List MemoryRegion} {e : Panic} :
    splitAndAddRegion region regions written (.error e) =
      if region.start = region.end then .ok written else .error e := by
  rw [splitAndAddRegion]
  split <;> rfl

end Equations

/-- The source's loop writes exactly the pieces `splitPieces` lists. -/
theorem splitAndAddRegion_eq (slices : List UsedMemorySlice) (regions : Nat)
    (region : MemoryRegion) :
    ∀ written : List MemoryRegion, splitAndAddRegion region regions written (.ok slices) =
      addRegions regions written (splitPieces slices region) := by
  induction region using splitPieces.induct slices with
  | case1 region hempty =>
    intro written
    rw [splitAndAddRegion, if_pos hempty, splitPieces_of_empty hempty]
    rfl
  | case2 region hne overlapStart overlapEnd hmin ih =>
    intro written
    rw [splitAndAddRegion_of_some hne hmin, splitPieces_of_some hne hmin]
    simp only [addRegions, List.foldlM_cons]
    congr 1
    funext w
    congr 1
    funext w'
    exact ih w'
  | case3 region hne hmin =>
    intro written
    rw [splitAndAddRegion_of_none hne hmin, splitPieces_of_none hne hmin]
    simp only [addRegions, List.foldlM_cons, List.foldlM_nil, bind_pure]

/-! ## 2. What one pass of the loop cuts -/

section Pass

variable {slices : List UsedMemorySlice} {region : MemoryRegion} {overlapStart overlapEnd : Nat}

omit [LegacyMemoryRegion D]

/-- The earliest overlap: it is the overlap with one of the slices, it is a
non-empty part of the region, and no slice overlaps the region before it. -/
theorem earliestOverlap_spec
    (hmin : (overlaps region slices).minOn? (·.1) = some (overlapStart, overlapEnd)) :
    (∃ slice ∈ slices, overlapStart = max region.start slice.start ∧
        overlapEnd = min region.end slice.end) ∧
      region.start ≤ overlapStart ∧ overlapStart < overlapEnd ∧ overlapEnd ≤ region.end ∧
      ∀ slice ∈ slices, max region.start slice.start < min region.end slice.end →
        overlapStart ≤ max region.start slice.start := by
  obtain ⟨slice, hs, ho, hlt⟩ := mem_overlaps (List.minOn?_mem hmin)
  simp only [Prod.mk.injEq] at ho
  refine ⟨⟨slice, hs, ho⟩, by omega, hlt, by omega, ?_⟩
  intro slice' hs' hne
  have hmem : (max region.start slice'.start, min region.end slice'.end) ∈
      overlaps region slices := by
    simp only [overlaps, List.mem_filter, List.mem_map, decide_eq_true_eq]
    exact ⟨⟨slice', hs', rfl⟩, hne⟩
  exact minOn?_le_of_mem hmin hmem

/-- With no overlap left, the region meets no slice. -/
theorem disjoint_of_minOn?_eq_none (hmin : (overlaps region slices).minOn? (·.1) = none) :
    ∀ slice ∈ slices, Disjoint (Set.Ico region.start region.end) (Set.Ico slice.start slice.end) := by
  intro slice hs
  have hnil := minOn?_eq_none hmin
  rw [Set.Ico_disjoint_Ico]
  by_contra hlt
  have hmem : (max region.start slice.start, min region.end slice.end) ∈
      overlaps region slices := by
    simp only [overlaps, List.mem_filter, List.mem_map, decide_eq_true_eq]
    exact ⟨⟨slice, hs, rfl⟩, by omega⟩
  rw [hnil] at hmem
  cases hmem

end Pass

/-! ## 3. The loop's invariants -/

section Invariants

variable (slices : List UsedMemorySlice)

omit [LegacyMemoryRegion D]

/-- **Tiling.** The non-empty pieces cut from a region tile it. -/
theorem tiles_splitPieces (region : MemoryRegion) (h : region.start ≤ region.end) :
    Tiles MemoryRegion.start MemoryRegion.end region.start region.end
      ((splitPieces slices region).filter nonEmpty) := by
  induction region using splitPieces.induct slices with
  | case1 region hempty =>
    rw [splitPieces_of_empty hempty, hempty]
    rfl
  | case2 region hne overlapStart overlapEnd hmin ih =>
    obtain ⟨-, h1, h2, h3, -⟩ := earliestOverlap_spec hmin
    have hrest := ih (by simp only; omega)
    rw [splitPieces_of_some hne hmin]
    have hb : nonEmpty ⟨overlapStart, overlapEnd, .bootloader⟩ = true := by
      simp only [nonEmpty, ne_eq, decide_eq_true_eq]
      omega
    by_cases hu : region.start = overlapStart
    · -- nothing usable before the overlap
      rw [List.filter_cons_of_neg (by simp [nonEmpty, hu]), List.filter_cons_of_pos hb]
      exact ⟨hu.symm, h2, hrest⟩
    · rw [List.filter_cons_of_pos (by simp [nonEmpty, hu]), List.filter_cons_of_pos hb]
      exact ⟨rfl, by simp only; omega, rfl, h2, hrest⟩
  | case3 region hne hmin =>
    rw [splitPieces_of_none hne hmin, List.filter_cons_of_pos (by simp [nonEmpty, hne])]
    exact ⟨rfl, by omega, rfl⟩

/-- What a piece written for a usable region may be: a bootloader piece
inside one used slice, or a usable piece that meets none. -/
def PieceOk (r : MemoryRegion) : Prop :=
  (r.kind = .bootloader ∧ ∃ slice ∈ slices, slice.start ≤ r.start ∧ r.end ≤ slice.end) ∨
    (r.kind = .usable ∧ ∀ slice ∈ slices,
      Disjoint (Set.Ico r.start r.end) (Set.Ico slice.start slice.end))

/-- **Kinds.** Every non-empty piece cut from a usable region is `PieceOk`. -/
theorem splitPieces_kind (region : MemoryRegion) (hk : region.kind = .usable) :
    ∀ r ∈ (splitPieces slices region).filter nonEmpty, PieceOk slices r := by
  induction region using splitPieces.induct slices with
  | case1 region hempty =>
    rw [splitPieces_of_empty hempty]
    intro r hr
    cases hr
  | case2 region hne overlapStart overlapEnd hmin ih =>
    obtain ⟨⟨slice, hs, hos, hoe⟩, h1, h2, h3, hfirst⟩ := earliestOverlap_spec hmin
    rw [splitPieces_of_some hne hmin]
    have hb : nonEmpty ⟨overlapStart, overlapEnd, .bootloader⟩ = true := by
      simp only [nonEmpty, ne_eq, decide_eq_true_eq]
      omega
    -- the overlap lies inside the slice it came from; the rest is the induction
    have htail : ∀ r ∈ ((⟨overlapStart, overlapEnd, .bootloader⟩ : MemoryRegion) ::
        splitPieces slices { region with start := overlapEnd }).filter nonEmpty,
        PieceOk slices r := by
      rw [List.filter_cons_of_pos hb]
      intro r hr
      rcases List.mem_cons.mp hr with rfl | hr
      · exact Or.inl ⟨rfl, slice, hs, by simp only; omega, by simp only; omega⟩
      · exact ih hk r hr
    by_cases hu : region.start = overlapStart
    · rw [List.filter_cons_of_neg (by simp [nonEmpty, hu])]
      exact htail
    · rw [List.filter_cons_of_pos (by simp [nonEmpty, hu])]
      intro r hr
      rcases List.mem_cons.mp hr with rfl | hr
      · -- the usable piece before the earliest overlap meets no slice
        refine Or.inr ⟨rfl, fun slice' hs' => ?_⟩
        rw [Set.Ico_disjoint_Ico]
        by_cases hov : max region.start slice'.start < min region.end slice'.end
        · have := hfirst slice' hs' hov
          simp only
          omega
        · simp only
          omega
      · exact htail r hr
  | case3 region hne hmin =>
    rw [splitPieces_of_none hne hmin, List.filter_cons_of_pos (by simp [nonEmpty, hne])]
    intro r hr
    rcases List.mem_cons.mp hr with rfl | hr
    · exact Or.inr ⟨hk, disjoint_of_minOn?_eq_none hmin⟩
    · cases hr

/-- The endpoints of the used slices. -/
def endpoints (slices : List UsedMemorySlice) : Finset ℕ :=
  (slices.flatMap fun slice => [slice.start, slice.end]).toFinset

theorem card_endpoints_le : (endpoints slices).card ≤ 2 * slices.length := by
  unfold endpoints
  refine (List.toFinset_card_le _).trans ?_
  induction slices with
  | nil => simp
  | cons slice slices ih =>
    simp only [List.flatMap_cons, List.length_append, List.length_cons, List.length_nil] at ih ⊢
    omega

/-- **Count.** A region is cut into at most one more non-empty piece than
there are slice endpoints strictly inside it; an empty region into none. -/
theorem length_splitPieces_le (region : MemoryRegion) (h : region.start ≤ region.end) :
    ((splitPieces slices region).filter nonEmpty).length ≤
      if region.start < region.end
      then 1 + (inside (endpoints slices) region.start region.end).card else 0 := by
  induction region using splitPieces.induct slices with
  | case1 region hempty =>
    rw [splitPieces_of_empty hempty]
    simp
  | case2 region hne overlapStart overlapEnd hmin ih =>
    obtain ⟨⟨slice, hs, hos, hoe⟩, h1, h2, h3, -⟩ := earliestOverlap_spec hmin
    have hrest := ih (by simp only; omega)
    simp only at hrest
    rw [splitPieces_of_some hne hmin, if_pos (by omega)]
    -- the two cut points are slice endpoints when they are inside the region
    have hmemS : region.start < overlapStart → overlapStart ∈ endpoints slices := by
      intro hlt
      simp only [endpoints, List.mem_toFinset, List.mem_flatMap, List.mem_cons,
        List.not_mem_nil, or_false]
      exact ⟨slice, hs, Or.inl (by omega)⟩
    have hmemE : overlapEnd < region.end → overlapEnd ∈ endpoints slices := by
      intro hlt
      simp only [endpoints, List.mem_toFinset, List.mem_flatMap, List.mem_cons,
        List.not_mem_nil, or_false]
      exact ⟨slice, hs, Or.inr (by omega)⟩
    set E := endpoints slices
    have hA : inside E overlapEnd region.end ⊆ inside E region.start region.end :=
      inside_mono (by omega) le_rfl
    have hEA : overlapEnd ∉ inside E overlapEnd region.end := by simp
    have hSA : overlapStart ∉ inside E overlapEnd region.end := by simp; omega
    have hb : nonEmpty ⟨overlapStart, overlapEnd, .bootloader⟩ = true := by
      simp only [nonEmpty, ne_eq, decide_eq_true_eq]
      omega
    by_cases hu : region.start = overlapStart <;> by_cases he : overlapEnd < region.end
    · -- one cut point inside: the end of the overlap
      rw [List.filter_cons_of_neg (by simp [nonEmpty, hu]), List.filter_cons_of_pos hb,
        List.length_cons, if_pos he] at *
      have hsub : insert overlapEnd (inside E overlapEnd region.end) ⊆
          inside E region.start region.end :=
        Finset.insert_subset_iff.mpr ⟨by simp; exact ⟨hmemE he, by omega, he⟩, hA⟩
      have := Finset.card_le_card hsub
      rw [Finset.card_insert_of_notMem hEA] at this
      omega
    · -- the overlap runs to the region's end: nothing follows it
      rw [List.filter_cons_of_neg (by simp [nonEmpty, hu]), List.filter_cons_of_pos hb,
        List.length_cons, if_neg he] at *
      omega
    · -- two cut points inside
      rw [List.filter_cons_of_pos (by simp [nonEmpty, hu]), List.filter_cons_of_pos hb,
        List.length_cons, List.length_cons, if_pos he] at *
      have hsub : insert overlapStart (insert overlapEnd (inside E overlapEnd region.end)) ⊆
          inside E region.start region.end := by
        refine Finset.insert_subset_iff.mpr ⟨?_, Finset.insert_subset_iff.mpr ⟨?_, hA⟩⟩
        · simp; exact ⟨hmemS (by omega), by omega, by omega⟩
        · simp; exact ⟨hmemE he, by omega, he⟩
      have := Finset.card_le_card hsub
      rw [Finset.card_insert_of_notMem (by simp; omega),
        Finset.card_insert_of_notMem hEA] at this
      omega
    · -- one cut point inside: the start of the overlap
      rw [List.filter_cons_of_pos (by simp [nonEmpty, hu]), List.filter_cons_of_pos hb,
        List.length_cons, List.length_cons, if_neg he] at *
      have hin : overlapStart ∈ inside E region.start region.end := by
        simp; exact ⟨hmemS (by omega), by omega, by omega⟩
      have := Finset.card_pos.mpr ⟨_, hin⟩
      omega
  | case3 region hne hmin =>
    rw [splitPieces_of_none hne hmin, List.filter_cons_of_pos (by simp [nonEmpty, hne]),
      if_pos (by omega)]
    simp

end Invariants

end LegacyFrameAllocator

end Bootloader
