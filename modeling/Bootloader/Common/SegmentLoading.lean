/-
Bootloader.Common.SegmentLoading — what `load_segments` leaves in the
kernel's address space (`common/src/load_kernel.rs`: `handle_load_segment`,
`handle_bss_section`, `Loader::load_segments`, and the passes after them).

A loadable segment is mapped straight onto the frames of the kernel file, so
the kernel sees its file bytes where the file and the address agree modulo
the page size; the rest of its memory size is `.bss`, which reads zero: the
tail of the last file page through a private copy (`make_mut`), and whole
pages through fresh zeroed frames. Every other mapped page keeps what it
read. The states of the pass are related by `Grows` (a step that only adds
mappings) and `Keeps` (what the kernel sees outside a set of changed
addresses); the passes after it by `Lowers` (no permission gained).

* `handleLoadSegment_eq_ok`: one segment, from a state whose allocator's
  frames are fresh and hold no byte of the segment's file part.
* `loadSegments_loads`: after `load_segments` returns, without relocations,
  every byte of every loadable segment reads its file byte, or zero past the
  file size.
* `loadSegments_permissions`: relocated or not, every byte of a loadable
  segment is executable exactly when the segment is, writable only when the
  segment is, and not marked `COPIED`.

A segment whose file offset and virtual address differ modulo the page size
is mapped one page off; the congruence hypothesis rules it out.
-/
import Bootloader.Common.LoaderMemory

namespace Bootloader

namespace Inner

/-! ## Steps that only add mappings -/

/-- A later state that only gained mappings and handed out frames: the
offsets are the same, the allocator's frames are the end of the old ones,
memory changed only in the frames handed out, and every entry of the page
table is kept. -/
structure Grows (s t : Inner) : Prop where
  kernelOffset : t.kernelOffset = s.kernelOffset
  virtualAddressOffset : t.virtualAddressOffset = s.virtualAddressOffset
  frames : ∃ used, s.frames = used ++ t.frames
  memory : ∀ a, a / 4096 ∉ s.frames.map (·.number) → t.memory a = s.memory a
  pageTable : ∀ p entry, s.pageTable p = some entry → t.pageTable p = some entry

/-- A frame number that the allocator no longer holds was not held before it
handed out frames either, unless it was handed out. -/
theorem not_mem_frames_of_suffix {s t : Inner} {used : List PhysFrame}
    (hframes : s.frames = used ++ t.frames) {n : Nat} (hn : n ∉ s.frames.map (·.number)) :
    n ∉ t.frames.map (·.number) := fun h =>
  hn (by rw [hframes, List.map_append]; exact List.mem_append_right _ h)

theorem Grows.refl (s : Inner) : Grows s s :=
  ⟨rfl, rfl, ⟨[], rfl⟩, fun _ _ => rfl, fun _ _ h => h⟩

theorem Grows.trans {s t u : Inner} (hst : Grows s t) (htu : Grows t u) : Grows s u where
  kernelOffset := htu.kernelOffset.trans hst.kernelOffset
  virtualAddressOffset := htu.virtualAddressOffset.trans hst.virtualAddressOffset
  frames := by
    obtain ⟨l₁, h₁⟩ := hst.frames
    obtain ⟨l₂, h₂⟩ := htu.frames
    exact ⟨l₁ ++ l₂, by rw [h₁, h₂, List.append_assoc]⟩
  memory a ha := by
    obtain ⟨l₁, h₁⟩ := hst.frames
    rw [htu.memory a (not_mem_frames_of_suffix h₁ ha), hst.memory a ha]
  pageTable p entry h := htu.pageTable p entry (hst.pageTable p entry h)

/-- The frame of a mapped page is not one the allocator holds, so a state
that grew from a fresh one reads every mapped byte as before. -/
theorem Grows.readByte {s t : Inner} (hg : Grows s t) (hfresh : s.FreshFrames) {a : Nat}
    (ha : (s.pageTable (a / 4096)).isSome) : t.readByte a = s.readByte a := by
  obtain ⟨entry, hentry⟩ := Option.isSome_iff_exists.mp ha
  unfold Inner.readByte
  rw [hg.pageTable _ entry hentry, hentry, Option.map_some, Option.map_some, hg.memory]
  intro hmem
  obtain ⟨f, hf, hnum⟩ := List.mem_map.mp hmem
  have hmod := Nat.mod_lt a (show 0 < 4096 by decide)
  have hfe : f = entry.frame := PhysFrame.ext (by omega)
  exact hfresh.2 _ entry hentry (hfe ▸ hf)

theorem Grows.flagsAt {s t : Inner} (hg : Grows s t) {a : Nat}
    (ha : (s.pageTable (a / 4096)).isSome) : t.flagsAt a = s.flagsAt a := by
  obtain ⟨entry, hentry⟩ := Option.isSome_iff_exists.mp ha
  unfold Inner.flagsAt
  rw [hg.pageTable _ entry hentry, hentry]

/-- A later state that kept what the kernel sees outside `changed`: the
offsets, the allocator's frames from its end, memory outside the frames
handed out, and every mapped page, which stays mapped with its `WRITABLE`
and `NO_EXECUTE` flags and reads as before at every address outside
`changed`. -/
structure Keeps (s t : Inner) (changed : Set Nat) : Prop where
  kernelOffset : t.kernelOffset = s.kernelOffset
  virtualAddressOffset : t.virtualAddressOffset = s.virtualAddressOffset
  frames : ∃ used, s.frames = used ++ t.frames
  memory : ∀ a, a / 4096 ∉ s.frames.map (·.number) → t.memory a = s.memory a
  mapped : ∀ p, (s.pageTable p).isSome → (t.pageTable p).isSome
  readByte : ∀ a, a ∉ changed → (s.pageTable (a / 4096)).isSome → t.readByte a = s.readByte a
  flagsAt : ∀ a flags, s.flagsAt a = some flags → ∃ flags', t.flagsAt a = some flags' ∧
    flags'.writable = flags.writable ∧ flags'.noExecute = flags.noExecute

theorem Keeps.refl (s : Inner) (changed : Set Nat) : Keeps s s changed :=
  ⟨rfl, rfl, ⟨[], rfl⟩, fun _ _ => rfl, fun _ h => h, fun _ _ _ => rfl,
    fun _ flags h => ⟨flags, h, rfl, rfl⟩⟩

theorem Keeps.trans {s t u : Inner} {changed : Set Nat} (hst : Keeps s t changed)
    (htu : Keeps t u changed) : Keeps s u changed where
  kernelOffset := htu.kernelOffset.trans hst.kernelOffset
  virtualAddressOffset := htu.virtualAddressOffset.trans hst.virtualAddressOffset
  frames := by
    obtain ⟨l₁, h₁⟩ := hst.frames
    obtain ⟨l₂, h₂⟩ := htu.frames
    exact ⟨l₁ ++ l₂, by rw [h₁, h₂, List.append_assoc]⟩
  memory a ha := by
    obtain ⟨l₁, h₁⟩ := hst.frames
    rw [htu.memory a (not_mem_frames_of_suffix h₁ ha), hst.memory a ha]
  mapped p h := htu.mapped p (hst.mapped p h)
  readByte a ha h := (htu.readByte a ha (hst.mapped _ h)).trans (hst.readByte a ha h)
  flagsAt a flags h := by
    obtain ⟨g, hg, hw, hx⟩ := hst.flagsAt a flags h
    obtain ⟨g', hg', hw', hx'⟩ := htu.flagsAt a g hg
    exact ⟨g', hg', hw'.trans hw, hx'.trans hx⟩

theorem Keeps.mono {s t : Inner} {changed changed' : Set Nat} (h : Keeps s t changed)
    (hsub : changed ⊆ changed') : Keeps s t changed' :=
  { h with readByte := fun a ha hmapped => h.readByte a (fun h' => ha (hsub h')) hmapped }

/-- A step that kept everything, then one that changed only addresses whose
pages were unmapped at the start, kept everything. -/
theorem Keeps.trans_of_unmapped {s t u : Inner} {changed : Set Nat} (hst : Keeps s t ∅)
    (htu : Keeps t u changed) (hunmapped : ∀ a ∈ changed, s.pageTable (a / 4096) = none) :
    Keeps s u ∅ :=
  have hsu : Keeps s u Set.univ := (hst.mono (Set.empty_subset _)).trans (htu.mono (Set.subset_univ _))
  { hsu with
    readByte := fun a _ hmapped => by
      have hkept : a ∉ changed := fun h' => by
        rw [hunmapped a h'] at hmapped
        cases hmapped
      exact (htu.readByte a hkept (hst.mapped _ hmapped)).trans
        (hst.readByte a (Set.notMem_empty a) hmapped) }

/-- The page of an address the kernel reads is mapped. -/
theorem isSome_of_readByte {inner : Inner} {a : Nat} {b : UInt8} (h : inner.readByte a = some b) :
    (inner.pageTable (a / 4096)).isSome := by
  unfold Inner.readByte at h
  cases hp : inner.pageTable (a / 4096) with
  | none => rw [hp] at h; cases h
  | some _ => rfl

/-- The page of an address with flags is mapped. -/
theorem isSome_of_flagsAt {inner : Inner} {a : Nat} {flags : PageTableFlags}
    (h : inner.flagsAt a = some flags) : (inner.pageTable (a / 4096)).isSome := by
  unfold Inner.flagsAt at h
  cases hp : inner.pageTable (a / 4096) with
  | none => rw [hp] at h; cases h
  | some _ => rfl

/-- From a fresh state, growing keeps what the kernel sees. -/
theorem Grows.keeps {s t : Inner} (hg : Grows s t) (hfresh : s.FreshFrames) : Keeps s t ∅ where
  kernelOffset := hg.kernelOffset
  virtualAddressOffset := hg.virtualAddressOffset
  frames := hg.frames
  memory := hg.memory
  mapped p h := by
    obtain ⟨entry, hentry⟩ := Option.isSome_iff_exists.mp h
    rw [hg.pageTable p entry hentry]
    rfl
  readByte _ _ h := hg.readByte hfresh h
  flagsAt _ flags h := ⟨flags, by rw [hg.flagsAt (isSome_of_flagsAt h), h], rfl, rfl⟩

/-! ## `map_to`, one `.bss` round, the `make_mut` tail -/

/-- `map_to` returns exactly when the page is unmapped, and then maps it. -/
theorem mapTo_eq_ok {inner inner' : Inner} {page : Page} {frame : PhysFrame}
    {flags : PageTableFlags} {message : String} :
    inner.mapTo page frame flags message = .ok inner' ↔
      inner.pageTable (page.startAddress.val / 4096) = none ∧
        inner' = { inner with
          pageTable := Function.update inner.pageTable (page.startAddress.val / 4096) (some ⟨frame, flags⟩) } := by
  rw [mapTo, Except.ite_error_eq_ok, Option.not_isSome_iff_eq_none, @eq_comm _ _ inner']

theorem grows_mapTo {inner inner' : Inner} {page : Page} {frame : PhysFrame}
    {flags : PageTableFlags} {message : String} (h : inner.mapTo page frame flags message = .ok inner') :
    Grows inner inner' := by
  obtain ⟨hnone, rfl⟩ := mapTo_eq_ok.mp h
  refine ⟨rfl, rfl, ⟨[], rfl⟩, fun _ _ => rfl, fun p entry hp => ?_⟩
  -- the page mapped was unmapped, so it is not one of the old entries
  have hne : p ≠ page.startAddress.val / 4096 := by
    rintro rfl
    rw [hnone] at hp
    cases hp
  exact (Function.update_of_ne hne _ _).trans hp

theorem pageTable_mapTo_self {inner inner' : Inner} {page : Page} {frame : PhysFrame}
    {flags : PageTableFlags} {message : String} (h : inner.mapTo page frame flags message = .ok inner') :
    inner'.pageTable (page.startAddress.val / 4096) = some ⟨frame, flags⟩ := by
  obtain ⟨-, rfl⟩ := mapTo_eq_ok.mp h
  exact Function.update_self _ _ _

/-- Mapping a frame the allocator does not hold keeps its frames fresh. -/
theorem freshFrames_mapTo {inner inner' : Inner} {page : Page} {frame : PhysFrame}
    {flags : PageTableFlags} {message : String} (h : inner.mapTo page frame flags message = .ok inner')
    (hfresh : inner.FreshFrames) (hframe : frame ∉ inner.frames) : inner'.FreshFrames := by
  obtain ⟨-, rfl⟩ := mapTo_eq_ok.mp h
  refine ⟨hfresh.1, fun p entry hp => ?_⟩
  dsimp only at hp
  by_cases hpage : p = page.startAddress.val / 4096
  · subst hpage
    rw [Function.update_self, Option.some.injEq] at hp
    rw [← hp]
    exact hframe
  · rw [Function.update_of_ne hpage] at hp
    exact hfresh.2 p entry hp

theorem allocateFrame_eq_ok {inner inner' : Inner} {frame : PhysFrame}
    (h : inner.allocateFrame = .ok (frame, inner')) :
    ∃ frames, inner.frames = frame :: frames ∧ inner' = { inner with frames } := by
  unfold allocateFrame at h
  split at h
  · cases h
  · rename_i frame' frames hframes
    rw [Except.ok.injEq, Prod.mk.injEq] at h
    obtain ⟨rfl, rfl⟩ := h
    exact ⟨frames, hframes, rfl⟩

/-- Handing out the allocator's next frame and writing inside it only grows
the state. -/
theorem grows_allocateFrame_fill {s s₁ : Inner} {frame : PhysFrame} (off len : Nat) (value : UInt8)
    (hfit : off + len ≤ 4096) (halloc : s.allocateFrame = .ok (frame, s₁)) :
    Grows s { s₁ with memory := fillBytes s₁.memory (frame.number * 4096 + off) len value } := by
  obtain ⟨frames, hframes, rfl⟩ := allocateFrame_eq_ok halloc
  refine ⟨rfl, rfl, ⟨[frame], hframes⟩, fun a ha => ?_, fun _ _ h => h⟩
  -- the frame written is the one handed out
  have hne : a / 4096 ≠ frame.number := fun h =>
    ha (by rw [hframes, h]; exact List.mem_map_of_mem List.mem_cons_self)
  show fillBytes s.memory (frame.number * 4096 + off) len value a = s.memory a
  rw [fillBytes, if_neg (by omega)]

/-- One round of the `.bss` loop: the allocator's next frame, zeroed, is
mapped at the page, which then reads zero throughout. -/
theorem bssRound_eq_ok {s s₁ t : Inner} {frame : PhysFrame} {page : Page}
    {flags : PageTableFlags} {message : String} (hfresh : s.FreshFrames)
    (halloc : s.allocateFrame = .ok (frame, s₁))
    (hmap : ({ s₁ with memory := fillBytes s₁.memory (frame.number * 4096) 4096 0 } : Inner).mapTo
      page frame flags message = .ok t) :
    Grows s t ∧ t.FreshFrames ∧ t.pageTable (page.startAddress.val / 4096) = some ⟨frame, flags⟩ ∧
      ∀ a, a / 4096 = page.startAddress.val / 4096 → t.readByte a = some 0 := by
  have hfill := grows_allocateFrame_fill 0 4096 0 (by omega) halloc
  rw [Nat.add_zero] at hfill
  obtain ⟨frames, hframes, rfl⟩ := allocateFrame_eq_ok halloc
  have hnodup := hfresh.1
  rw [hframes] at hnodup
  have hself := pageTable_mapTo_self hmap
  -- the zeroed state is fresh: its frames are the old ones but the first
  have hfresh₁ : ({ s with frames, memory := fillBytes s.memory (frame.number * 4096) 4096 0 } :
      Inner).FreshFrames :=
    ⟨(List.nodup_cons.mp hnodup).2, fun p entry hp hmem =>
      hfresh.2 p entry hp (by rw [hframes]; exact List.mem_cons_of_mem _ hmem)⟩
  refine ⟨hfill.trans (grows_mapTo hmap),
    freshFrames_mapTo hmap hfresh₁ (List.nodup_cons.mp hnodup).1, hself, fun a ha => ?_⟩
  obtain ⟨-, rfl⟩ := mapTo_eq_ok.mp hmap
  have hmod := Nat.mod_lt a (show 0 < 4096 by decide)
  unfold Inner.readByte
  rw [ha, hself, Option.map_some]
  dsimp only
  rw [fillBytes, if_pos (by omega)]

/-- `make_mut` on a page that is not marked `COPIED`: the allocator's next
frame, holding a copy of the page's frame, becomes the page's frame, with
`COPIED` added to its flags. -/
theorem makeMut_of_not_copied {inner inner' : Inner} {page : Page} {entry : PageEntry}
    {frame : PhysFrame} (hentry : inner.pageTable (page.startAddress.val / 4096) = some entry)
    (hcopied : entry.flags.copied = false) (h : inner.makeMut page = .ok (frame, inner')) :
    ∃ frames, inner.frames = frame :: frames ∧ inner' = { inner with
      frames, memory := copyFrame inner.memory entry.frame frame,
      pageTable := Function.update inner.pageTable (page.startAddress.val / 4096)
        (some ⟨frame, { entry.flags with copied := true }⟩) } := by
  unfold makeMut at h
  rw [hentry] at h
  dsimp only at h
  rw [hcopied, if_neg Bool.false_ne_true] at h
  obtain ⟨⟨newFrame, s₁⟩, halloc, h⟩ := Except.bind_eq_ok.mp h
  obtain ⟨frames, hframes, rfl⟩ := allocateFrame_eq_ok halloc
  rw [Except.pure_eq_ok, Prod.mk.injEq] at h
  obtain ⟨rfl, rfl⟩ := h
  exact ⟨frames, hframes, rfl⟩

/-- The tail of the last file page before `.bss`: after `make_mut` has moved
the unmarked page to a fresh frame, the bytes of the page from offset `d` on
are zeroed there. Every other byte the kernel reads stays as it was, and only
the page's own entry changes. -/
theorem bssTail_eq {s : Inner} {page : Page} {entry : PageEntry} {frame : PhysFrame}
    {frames : List PhysFrame} {d : Nat} (hfresh : s.FreshFrames)
    (hentry : s.pageTable (page.startAddress.val / 4096) = some entry)
    (hframes : s.frames = frame :: frames) :
    let t : Inner := { s with
      frames, memory := fillBytes (copyFrame s.memory entry.frame frame) (frame.number * 4096 + d) (4096 - d) 0,
      pageTable := Function.update s.pageTable (page.startAddress.val / 4096)
        (some ⟨frame, { entry.flags with copied := true }⟩) }
    t.FreshFrames ∧ (∀ a, a / 4096 ∉ s.frames.map (·.number) → t.memory a = s.memory a) ∧
      ∀ a, t.readByte a =
        if a / 4096 = page.startAddress.val / 4096 ∧ d ≤ a % 4096 then some 0 else s.readByte a := by
  intro t
  have hnodup := hfresh.1
  rw [hframes] at hnodup
  -- no page of `s` maps the fresh frame
  have hunused : ∀ p e, s.pageTable p = some e → e.frame.number ≠ frame.number := fun p e hp heq =>
    hfresh.2 p e hp (by rw [hframes, PhysFrame.ext heq]; exact List.mem_cons_self)
  refine ⟨⟨(List.nodup_cons.mp hnodup).2, fun p e hp hmem => ?_⟩, fun a ha => ?_, fun a => ?_⟩
  · by_cases hpage : p = page.startAddress.val / 4096
    · subst hpage
      simp only [t, Function.update_self, Option.some.injEq] at hp
      rw [← hp] at hmem
      exact (List.nodup_cons.mp hnodup).1 hmem
    · simp only [t, Function.update_of_ne hpage] at hp
      exact hfresh.2 p e hp (by rw [hframes]; exact List.mem_cons_of_mem _ hmem)
  · have hne : a / 4096 ≠ frame.number := fun h =>
      ha (by rw [hframes, h]; exact List.mem_map_of_mem List.mem_cons_self)
    simp only [t, fillBytes, copyFrame]
    rw [if_neg (by omega), if_neg (by omega)]
  · have hmod := Nat.mod_lt a (show 0 < 4096 by decide)
    unfold Inner.readByte
    by_cases hpage : a / 4096 = page.startAddress.val / 4096
    · -- the page itself reads the copy of its old frame, zeroed from `d` on
      simp only [t, hpage, Function.update_self, Option.map_some, hentry, fillBytes, copyFrame]
      by_cases hd : d ≤ a % 4096
      · rw [if_pos (by omega), if_pos ⟨trivial, hd⟩]
      · rw [if_neg (by omega), if_pos (by omega), if_neg (fun h => hd h.2), Nat.add_sub_cancel_left]
    · -- any other page maps another frame, which is neither copied to nor zeroed
      rw [if_neg (fun h => hpage h.1)]
      simp only [t, Function.update_of_ne hpage]
      cases hp : s.pageTable (a / 4096) with
      | none => rfl
      | some e =>
        have hne := hunused _ e hp
        simp only [Option.map_some, fillBytes, copyFrame]
        rw [if_neg (by omega), if_neg (by omega)]

/-! ## The loops of `handle_load_segment` and `handle_bss_section` -/

/-- The loop of `handle_load_segment`, given by what each of its rounds does
(the page `frame - startFrame` pages after `startPage`, then `map_to`): from
a fresh state whose allocator holds none of the frames, it grows the state,
keeps it fresh, and maps the `k`-th frame from `startFrame` at the `k`-th
page from `startPage`, a page that was unmapped before. -/
theorem mapFrames_eq_ok {f : Inner → PhysFrame → Except LoadError Inner} {s t : Inner}
    {startFrame endFrame : PhysFrame} {startPage : Page} {flags : PageTableFlags} {message : String}
    (hstep : ∀ s frame t, f s frame = .ok t → ∃ page, startPage.add (frame.number - startFrame.number) =
      .ok page ∧ s.mapTo page frame flags message = .ok t)
    (h : (PhysFrame.rangeInclusive startFrame endFrame).foldlM f s = .ok t)
    (hfresh : s.FreshFrames)
    (hfile : ∀ g ∈ s.frames, g.number < startFrame.number ∨ endFrame.number < g.number)
    (hhalf : startPage.startAddress.val + (endFrame.number - startFrame.number) * 4096 < 2 ^ 47 ∨
      0xffff800000000000 ≤ startPage.startAddress.val) :
    Grows s t ∧ t.FreshFrames ∧
      ∀ k, startFrame.number + k ≤ endFrame.number → ∃ frame : PhysFrame,
        frame.number = startFrame.number + k ∧
        s.pageTable (startPage.startAddress.val / 4096 + k) = none ∧
        t.pageTable (startPage.startAddress.val / 4096 + k) = some ⟨frame, flags⟩ := by
  have hstart := startPage.aligned
  -- each round maps its frame at its page, which stays mapped so
  obtain ⟨⟨hfresh', hgrows⟩, -, hmapped⟩ := List.foldlM_forall_mem_of_invariant
    (I := fun u => u.FreshFrames ∧ Grows s u) (R := Grows)
    (P := fun (frame : PhysFrame) (u : Inner) =>
      s.pageTable (startPage.startAddress.val / 4096 + (frame.number - startFrame.number)) = none ∧
      u.pageTable (startPage.startAddress.val / 4096 + (frame.number - startFrame.number)) =
        some ⟨frame, flags⟩)
    Grows.refl (fun {_ _ _} => Grows.trans) (fun _ _ _ hP hR => ⟨hP.1, hR.pageTable _ _ hP.2⟩)
    (fun u frame u' ⟨hu, hsu⟩ hmem hround => by
      obtain ⟨page, hpage, hmap⟩ := hstep u frame u' hround
      have hrange := PhysFrame.mem_rangeInclusive.mp hmem
      -- the page stays in the start page's half, where `page + n` is not sign-extended
      have hle : (frame.number - startFrame.number) * 4096 ≤ (endFrame.number - startFrame.number) * 4096 :=
        Nat.mul_le_mul_right _ (Nat.sub_le_sub_right hrange.2 _)
      have hpageVal := Page.val_of_add_eq_ok hpage
        (half_mono hhalf (Nat.add_le_add_left hle _) (Nat.le_add_right _ _))
      have hnum : page.startAddress.val / 4096 =
          startPage.startAddress.val / 4096 + (frame.number - startFrame.number) := by omega
      -- the frame is one of the file's, which the allocator does not hold
      have hframe : frame ∉ u.frames := by
        intro hin
        obtain ⟨used, hused⟩ := hsu.frames
        rcases hfile frame (by rw [hused]; exact List.mem_append_right _ hin) with h' | h' <;> omega
      have hnone := (mapTo_eq_ok.mp hmap).1
      refine ⟨⟨freshFrames_mapTo hmap hu hframe, hsu.trans (grows_mapTo hmap)⟩, grows_mapTo hmap,
        ?_, by rw [← hnum]; exact pageTable_mapTo_self hmap⟩
      -- a page unmapped now was unmapped at the start
      rw [← hnum]
      cases hs : s.pageTable (page.startAddress.val / 4096) with
      | none => rfl
      | some e => rw [hsu.pageTable _ e hs] at hnone; cases hnone)
    ⟨hfresh, Grows.refl s⟩ h
  refine ⟨hgrows, hfresh', fun k hk => ?_⟩
  have hvalid := endFrame.valid
  let frame : PhysFrame := ⟨startFrame.number + k, by omega⟩
  have hmem : frame ∈ PhysFrame.rangeInclusive startFrame endFrame :=
    PhysFrame.mem_rangeInclusive.mpr ⟨by simp [frame], hk⟩
  obtain ⟨hnone, hsome⟩ := hmapped frame hmem
  simp only [frame, Nat.add_sub_cancel_left] at hnone hsome
  exact ⟨frame, rfl, hnone, hsome⟩

/-- The loop of `handle_bss_section`, given by what each of its rounds does
(the allocator's next frame, zeroed, mapped at the page): from a fresh state
it keeps what the kernel saw and the allocator's frames fresh, and every
page of the list, unmapped before, reads zero with the given flags. -/
theorem mapZeroedFrames_eq_ok {f : Inner → Page → Except LoadError Inner} {s t : Inner}
    {pages : List Page} {flags : PageTableFlags} {message : String}
    (hstep : ∀ s page t, f s page = .ok t → ∃ x : PhysFrame × Inner, s.allocateFrame = .ok x ∧
      ({ x.2 with memory := fillBytes x.2.memory (x.1.number * 4096) 4096 0 } : Inner).mapTo
        page x.1 flags message = .ok t)
    (h : pages.foldlM f s = .ok t) (hfresh : s.FreshFrames) :
    Keeps s t ∅ ∧ t.FreshFrames ∧ ∀ q ∈ pages, s.pageTable (q.startAddress.val / 4096) = none ∧
      ∀ a, a / 4096 = q.startAddress.val / 4096 → t.readByte a = some 0 ∧
        t.flagsAt a = some flags := by
  obtain ⟨⟨hfresh', hkeeps⟩, -, hzero⟩ := List.foldlM_forall_mem_of_invariant
    (I := fun u => u.FreshFrames ∧ Keeps s u ∅) (R := fun u v => Grows u v ∧ Keeps u v ∅)
    (P := fun (q : Page) (u : Inner) => s.pageTable (q.startAddress.val / 4096) = none ∧
      ∀ a, a / 4096 = q.startAddress.val / 4096 → u.readByte a = some 0 ∧ u.flagsAt a = some flags)
    (fun u => ⟨Grows.refl u, Keeps.refl u ∅⟩)
    (fun {_ _ _} huv hvw => ⟨huv.1.trans hvw.1, huv.2.trans hvw.2⟩)
    (fun _ u v hP huv => ⟨hP.1, fun a ha => by
      have hmapped := isSome_of_readByte (hP.2 a ha).1
      rw [huv.2.readByte a (Set.notMem_empty a) hmapped, huv.1.flagsAt hmapped]
      exact hP.2 a ha⟩)
    (fun u q v ⟨hu, hsu⟩ _ hround => by
      obtain ⟨⟨frame, u₁⟩, halloc, hmap⟩ := hstep u q v hround
      obtain ⟨hgrows, hv, hself, hread⟩ := bssRound_eq_ok hu halloc hmap
      have hkeeps := hgrows.keeps hu
      refine ⟨⟨hv, hsu.trans hkeeps⟩, ⟨hgrows, hkeeps⟩, ?_, fun a ha => ⟨hread a ha, ?_⟩⟩
      · -- the page was unmapped when its round came, so at the start too
        have hnone := (mapTo_eq_ok.mp hmap).1
        cases hs : s.pageTable (q.startAddress.val / 4096) with
        | none => rfl
        | some e =>
          have hsome := hsu.mapped _ (by rw [hs]; rfl)
          obtain ⟨_, -, rfl⟩ := allocateFrame_eq_ok halloc
          rw [hnone] at hsome
          cases hsome
      · unfold Inner.flagsAt
        rw [ha, hself]
        rfl)
    ⟨hfresh, Keeps.refl s ∅⟩ h
  exact ⟨hkeeps, hfresh', hzero⟩

/-! ## `handle_bss_section` and `handle_load_segment` -/

/-- The page loop of `handle_bss_section`, over the pages from the first
page boundary at or after `zero_start` to the page of `zero_end - 1`: every
byte from that boundary to `zero_end` reads zero with the given flags. -/
theorem bssPages_eq_ok {f : Inner → Page → Except LoadError Inner} {u t : Inner}
    {zeroStart zeroEnd p q : VirtAddr} {r : Nat} {pages : List Page} {flags : PageTableFlags}
    {message : String}
    (hstep : ∀ s page t, f s page = .ok t → ∃ x : PhysFrame × Inner, s.allocateFrame = .ok x ∧
      ({ x.2 with memory := fillBytes x.2.memory (x.1.number * 4096) 4096 0 } : Inner).mapTo
        page x.1 flags message = .ok t)
    (hr : alignUp zeroStart.val 4096 = .ok r) (hp : VirtAddr.new r = .ok p)
    (hq : zeroEnd.sub 1 = .ok q)
    (hpages : Page.rangeInclusive (Page.containingAddress p) (Page.containingAddress q) = .ok pages)
    (h : pages.foldlM f u = .ok t) (hfresh : u.FreshFrames)
    (hhalf : zeroEnd.val ≤ 2 ^ 47 ∨ 0xffff800000000000 ≤ zeroStart.val) :
    Keeps u t ∅ ∧ t.FreshFrames ∧ ∀ a, roundUp zeroStart.val 4096 ≤ a → a < zeroEnd.val →
      t.readByte a = some 0 ∧ t.flagsAt a = some flags := by
  obtain ⟨hkeeps, hfresh', hzero⟩ := mapZeroedFrames_eq_ok hstep h hfresh
  obtain ⟨hpacc, hpv⟩ := VirtAddr.new_eq_ok.mp hp
  obtain ⟨-, hqacc, hqv⟩ := VirtAddr.sub_eq_ok.mp hq
  -- the end is not moved down by sign extension
  have hqLe : zeroEnd.val - 1 ≤ q.val := hqv ▸ VirtAddr.le_newTruncate_val hqacc
  have hr' := alignUp_eq_ok hr
  have hround := le_roundUp zeroStart.val
  refine ⟨hkeeps, hfresh', fun a hlo hhi => ?_⟩
  -- the first page boundary lies in the half of `.bss`, where `VirtAddr::new` keeps it
  have hpv' : p.val = roundUp zeroStart.val 4096 := by
    rw [hpv, VirtAddr.newTruncate_val_of_canonical (canonical_of_half' (by omega) (show r ≤ a by omega) hpacc),
      hr']
  have hfirst : (Page.containingAddress p).startAddress.val = roundUp zeroStart.val 4096 := by
    rw [Page.containingAddress_val, hpv']
    unfold roundUp
    omega
  have hlo' : (Page.containingAddress p).startAddress.val ≤ a := hfirst ▸ hlo
  have hhi' : a < (Page.containingAddress q).startAddress.val + 4096 := by
    have := Page.containingAddress_val q
    omega
  obtain ⟨page, hpage, hplo, hphi⟩ := Page.mem_rangeInclusive hpages a (by omega) hlo' hhi'
  have ha : a / 4096 = page.startAddress.val / 4096 := by
    have := page.aligned
    omega
  exact (hzero page hpage).2 a ha

/-- The `make_mut` tail of `handle_bss_section`: from a fresh state in which
the page holds an unmarked entry, zeroing the private copy from offset `d` on
keeps the state fresh and keeps what the kernel saw outside that part of the
page, which reads zero with the page's flags and `COPIED`. -/
theorem makeMutTail_eq_ok {s u : Inner} {page : Page} {entry : PageEntry} {frame : PhysFrame}
    {d : Nat} (hfresh : s.FreshFrames)
    (hentry : s.pageTable (page.startAddress.val / 4096) = some entry)
    (hcopied : entry.flags.copied = false) (h : s.makeMut page = .ok (frame, u)) :
    let t : Inner := { u with memory := fillBytes u.memory (frame.number * 4096 + d) (4096 - d) 0 }
    t.FreshFrames ∧ Keeps s t {a | a / 4096 = page.startAddress.val / 4096 ∧ d ≤ a % 4096} ∧
      ∀ a, a / 4096 = page.startAddress.val / 4096 → d ≤ a % 4096 →
        t.readByte a = some 0 ∧ t.flagsAt a = some { entry.flags with copied := true } := by
  intro t
  obtain ⟨frames, hframes, rfl⟩ := makeMut_of_not_copied hentry hcopied h
  obtain ⟨hfresh', hmemory, hread⟩ := bssTail_eq (d := d) hfresh hentry hframes
  -- only the page's own entry changes
  have hflags : ∀ a, t.flagsAt a = if a / 4096 = page.startAddress.val / 4096 then
      some { entry.flags with copied := true } else s.flagsAt a := by
    intro a
    unfold Inner.flagsAt
    split_ifs with hpage
    · simp only [t, hpage, Function.update_self, Option.map_some]
    · simp only [t, Function.update_of_ne hpage]
  refine ⟨hfresh', ⟨rfl, rfl, ⟨[frame], hframes⟩, hmemory, fun p hp => ?_, fun a ha _ => ?_,
    fun a flags hs => ?_⟩, fun a hpage hd => ⟨?_, ?_⟩⟩
  · by_cases hpage : p = page.startAddress.val / 4096
    · simp only [t, hpage, Function.update_self, Option.isSome_some]
    · simpa only [t, Function.update_of_ne hpage] using hp
  · rw [hread a]
    exact if_neg ha
  · rw [hflags a]
    split_ifs with hpage
    · unfold Inner.flagsAt at hs
      rw [hpage, hentry, Option.map_some, Option.some.injEq] at hs
      subst hs
      exact ⟨_, rfl, rfl, rfl⟩
    · exact ⟨flags, hs, rfl, rfl⟩
  · rw [hread a, if_pos ⟨hpage, hd⟩]
  · rw [hflags a, if_pos hpage]

/-- `handle_bss_section`, from a fresh state in which the last file page, if
`.bss` starts inside it, is mapped unmarked with the segment's flags: the
state stays fresh and keeps what the kernel saw, except the bytes from the
start of `.bss` to the end of that page; every byte of `.bss` reads zero,
with the segment's `WRITABLE` and `NO_EXECUTE`. -/
theorem handleBssSection_eq_ok {s t : Inner} {segment : Segment} {flags : PageTableFlags}
    {start : Nat} (h : s.handleBssSection segment flags = .ok t) (hfresh : s.FreshFrames)
    (hstart : virtualAddressOffsetAdd s.virtualAddressOffset segment.virtualAddr = .ok start)
    (htail : (start + segment.fileSize) % 4096 ≠ 0 →
      ∃ frame, s.pageTable ((start + segment.fileSize - 1) / 4096) = some ⟨frame, flags⟩)
    (hcopied : flags.copied = false)
    (hhalf : start + max segment.fileSize segment.memSize < 2 ^ 47 ∨ 0xffff800000000000 ≤ start) :
    t.FreshFrames ∧
      Keeps s t {a | start + segment.fileSize ≤ a ∧ a < roundUp (start + segment.fileSize) 4096} ∧
      ∀ i, segment.fileSize ≤ i → i < segment.memSize →
        t.readByte (start + i) = some 0 ∧ ∃ flags', t.flagsAt (start + i) = some flags' ∧
          flags'.writable = flags.writable ∧ flags'.noExecute = flags.noExecute := by
  simp only [handleBssSection, Except.bind_eq_ok, liftPanic_eq_ok] at h
  obtain ⟨virtStart, ⟨_, hstart', hnew⟩, zeroStart, hzs, zeroEnd, hze, h⟩ := h
  rw [hstart, Except.ok.injEq] at hstart'
  subst hstart'
  -- the segment lies in one half, where `new`, `+` and `-` keep their values
  have hv := VirtAddr.val_of_new_eq_ok hnew (by omega)
  have hzsv := VirtAddr.val_of_add_eq_ok hzs (by omega)
  have hzev := VirtAddr.val_of_add_eq_ok hze (by omega)
  -- the source's `do` puts the page loop in both branches of the tail's `if`
  split_ifs at h with hd
  · -- `.bss` starts inside a page: its tail is zeroed in a private copy first
    simp only [Except.bind_eq_ok, liftPanic_eq_ok, pure_bind] at h
    obtain ⟨last, ⟨x, hx, hlast⟩, ⟨newFrame, u⟩, hmut, p, ⟨r, hr, hp⟩, q, hq, pages, hpages, hfold⟩ := h
    have hxv := VirtAddr.val_of_add_eq_ok hx (by omega)
    have hlastv := (VirtAddr.val_of_sub_eq_ok hlast (by omega)).2
    obtain ⟨frame, hframe⟩ := htail (by omega)
    have hentry : s.pageTable ((Page.containingAddress last).startAddress.val / 4096) =
        some ⟨frame, flags⟩ := by
      rw [Page.containingAddress_val_div, ← hframe]
      congr 1
      omega
    obtain ⟨hu, hsu, htailZero⟩ := makeMutTail_eq_ok (d := zeroStart.val % 4096) hfresh hentry hcopied hmut
    obtain ⟨hut, ht, hzero⟩ :=
      bssPages_eq_ok (fun _ _ _ hround => Except.bind_eq_ok.mp hround) hr hp hq hpages hfold hu
        (by omega)
    refine ⟨ht, (hsu.mono ?_).trans (hut.mono (Set.empty_subset _)), fun i hi hi' => ?_⟩
    · rintro a ⟨hpage, hoff⟩
      rw [Page.containingAddress_val_div] at hpage
      unfold roundUp
      constructor <;> omega
    · by_cases hbss : roundUp zeroStart.val 4096 ≤ start + i
      · obtain ⟨hread, hflags⟩ := hzero (start + i) hbss (by omega)
        exact ⟨hread, flags, hflags, rfl, rfl⟩
      · -- the byte lies in the zeroed tail of the last file page
        unfold roundUp at hbss
        obtain ⟨hread, hflags⟩ := htailZero (start + i) (by rw [Page.containingAddress_val_div]; omega)
          (by omega)
        rw [hut.readByte (start + i) (Set.notMem_empty _) (isSome_of_readByte hread)]
        obtain ⟨flags', hflags', hw, hx⟩ := hut.flagsAt _ _ hflags
        exact ⟨hread, flags', hflags', hw, hx⟩
  · -- `.bss` starts on a page boundary: only the page loop runs
    simp only [Except.bind_eq_ok, liftPanic_eq_ok, pure_bind] at h
    obtain ⟨p, ⟨r, hr, hp⟩, q, hq, pages, hpages, hfold⟩ := h
    obtain ⟨hst, ht, hzero⟩ :=
      bssPages_eq_ok (fun _ _ _ hround => Except.bind_eq_ok.mp hround) hr hp hq hpages hfold hfresh
        (by omega)
    refine ⟨ht, hst.mono (Set.empty_subset _), fun i hi hi' => ?_⟩
    obtain ⟨hread, hflags⟩ := hzero (start + i) (by unfold roundUp; omega) (by omega)
    exact ⟨hread, flags, hflags, rfl, rfl⟩

/-- `handle_load_segment`, from a fresh state whose allocator holds none of
the frames from the one of the segment's first file byte to the one of its
last, for a segment whose first file byte and first virtual byte lie at the
same offset in their pages: the state stays fresh and keeps what the kernel
saw, and from the segment's virtual start on the kernel reads its `mem_size`
bytes, the file's bytes and then zeros, on pages with the segment's
`WRITABLE` and `NO_EXECUTE`. -/
theorem handleLoadSegment_eq_ok {s t : Inner} {segment : Segment}
    (h : s.handleLoadSegment segment = .ok t) (hfresh : s.FreshFrames)
    (hfile : ∀ g ∈ s.frames, g.number < (s.kernelOffset.val + segment.offset) / 4096 ∨
      (s.kernelOffset.val + segment.offset + segment.fileSize - 1) / 4096 < g.number)
    (hcongr : ∀ start, virtualAddressOffsetAdd s.virtualAddressOffset segment.virtualAddr = .ok start →
      (s.kernelOffset.val + segment.offset) % 4096 = start % 4096)
    (hhalf : ∀ start, virtualAddressOffsetAdd s.virtualAddressOffset segment.virtualAddr = .ok start →
      start + max segment.fileSize segment.memSize < 2 ^ 47 ∨ 0xffff800000000000 ≤ start) :
    t.FreshFrames ∧ Keeps s t ∅ ∧ ∃ start,
      virtualAddressOffsetAdd s.virtualAddressOffset segment.virtualAddr = .ok start ∧
      ∀ i < segment.memSize, t.readByte (start + i) =
        some (if i < segment.fileSize then s.memory (s.kernelOffset.val + segment.offset + i) else 0) ∧
        ∃ flags, t.flagsAt (start + i) = some flags ∧ flags.writable = segment.isWrite ∧
          flags.noExecute = !segment.isExecute := by
  simp only [handleLoadSegment, Except.bind_eq_ok, liftPanic_eq_ok] at h
  obtain ⟨phys, hphys, last, ⟨x, hx, hlast⟩, virtStart, ⟨start, hstart, hnew⟩, s₁, hfold, h⟩ := h
  have hphysv := PhysAddr.add_eq_ok.mp hphys
  have hxv := PhysAddr.add_eq_ok.mp hx
  have hlastv := PhysAddr.sub_eq_ok.mp hlast
  have hoff := hcongr start hstart
  have hhalf' := hhalf start hstart
  have hv := VirtAddr.val_of_new_eq_ok hnew (by omega)
  -- the file's frames, mapped one by one from the page of the segment's first byte
  obtain ⟨hgrows, hfresh₁, hmapped⟩ := mapFrames_eq_ok
    (fun _ _ _ hround => by simpa only [Except.bind_eq_ok, liftPanic_eq_ok] using hround) hfold hfresh
    (fun g hg => by
      simp only [PhysFrame.containingAddress_number]
      have := hfile g hg
      omega)
    (by
      -- the last file page lies in the segment's half
      simp only [PhysFrame.containingAddress_number, Page.containingAddress_val, hv]
      omega)
  simp only [PhysFrame.containingAddress_number, Page.containingAddress_val_div, hv] at hmapped
  -- a byte from the segment's start to the end of the page of its last file
  -- byte lies on a page that was unmapped at the start, and now maps the file
  -- frame at the same distance from the first
  have hpage : ∀ a, start ≤ a → a < roundUp (start + segment.fileSize) 4096 →
      s.pageTable (a / 4096) = none ∧
        (∃ frame, s₁.pageTable (a / 4096) = some ⟨frame, segmentFlags segment⟩) ∧
        s₁.readByte a = some (s.memory (s.kernelOffset.val + segment.offset + (a - start))) := by
    intro a hlo hhi
    unfold roundUp at hhi
    obtain ⟨frame, hnum, hnone, hsome⟩ := hmapped (a / 4096 - start / 4096) (by omega)
    have ha : start / 4096 + (a / 4096 - start / 4096) = a / 4096 := by omega
    rw [ha] at hnone hsome
    refine ⟨hnone, ⟨frame, hsome⟩, ?_⟩
    rw [Inner.readByte, hsome, Option.map_some]
    dsimp only
    rw [hgrows.memory]
    · rw [show frame.number * 4096 + a % 4096 = s.kernelOffset.val + segment.offset + (a - start) by
        omega]
    · -- the byte lies in a file frame, which the allocator does not hold
      intro hmem
      obtain ⟨g, hg, hgnum⟩ := List.mem_map.mp hmem
      have := hfile g hg
      omega
  have hflags : ∀ a, start ≤ a → a < roundUp (start + segment.fileSize) 4096 →
      s₁.flagsAt a = some (segmentFlags segment) := fun a hlo hhi => by
    obtain ⟨-, ⟨frame, hsome⟩, -⟩ := hpage a hlo hhi
    rw [Inner.flagsAt, hsome, Option.map_some]
  have hfileByte : ∀ i < segment.fileSize, start + i < roundUp (start + segment.fileSize) 4096 :=
    fun i hi => Nat.lt_of_lt_of_le (by omega) (le_roundUp _)
  by_cases hbss : segment.fileSize < segment.memSize
  · rw [if_pos hbss] at h
    have htail : (start + segment.fileSize) % 4096 ≠ 0 → ∃ frame,
        s₁.pageTable ((start + segment.fileSize - 1) / 4096) = some ⟨frame, segmentFlags segment⟩ := by
      intro hd
      have hlt : start + segment.fileSize < roundUp (start + segment.fileSize) 4096 := by
        unfold roundUp
        omega
      rw [show (start + segment.fileSize - 1) / 4096 = (start + segment.fileSize) / 4096 by omega]
      exact (hpage _ (by omega) hlt).2.1
    obtain ⟨ht, hkeeps, hzero⟩ := handleBssSection_eq_ok h hfresh₁
      (by rw [hgrows.virtualAddressOffset]; exact hstart) htail rfl hhalf'
    refine ⟨ht, (hgrows.keeps hfresh).trans_of_unmapped hkeeps ?_, start, hstart, fun i hi => ?_⟩
    · -- the zeroed tail lies on the page of the last file byte
      rintro a ⟨hlo, hhi⟩
      exact (hpage a (by omega) hhi).1
    · by_cases hif : i < segment.fileSize
      · have hread := (hpage (start + i) (by omega) (hfileByte i hif)).2.2
        have hkept : start + i ∉ {a | start + segment.fileSize ≤ a ∧
            a < roundUp (start + segment.fileSize) 4096} := fun h' => by
          have := h'.1
          omega
        rw [if_pos hif, hkeeps.readByte _ hkept (isSome_of_readByte hread), hread,
          Nat.add_sub_cancel_left]
        obtain ⟨flags', hflags', hw, hx⟩ :=
          hkeeps.flagsAt _ _ (hflags (start + i) (by omega) (hfileByte i hif))
        exact ⟨rfl, flags', hflags', hw, hx⟩
      · rw [if_neg hif]
        obtain ⟨hread, flags', hflags', hw, hx⟩ := hzero i (by omega) hi
        exact ⟨hread, flags', hflags', hw, hx⟩
  · rw [if_neg hbss, Except.pure_eq_ok] at h
    subst h
    refine ⟨hfresh₁, hgrows.keeps hfresh, start, hstart, fun i hi => ?_⟩
    have hif : i < segment.fileSize := by omega
    rw [if_pos hif, (hpage (start + i) (by omega) (hfileByte i hif)).2.2, Nat.add_sub_cancel_left]
    exact ⟨rfl, _, hflags (start + i) (by omega) (hfileByte i hif), rfl, rfl⟩

/-! ## The passes after loading: permissions only go down -/

/-- A later state in which no mapped address lost its mapping or changed its
`NO_EXECUTE`, and none gained `WRITABLE`: what relocation, relro and
`remove_copied_flags` may do to the flags. -/
structure Lowers (s t : Inner) : Prop where
  virtualAddressOffset : t.virtualAddressOffset = s.virtualAddressOffset
  flagsAt : ∀ a flags, s.flagsAt a = some flags → ∃ flags', t.flagsAt a = some flags' ∧
    flags'.noExecute = flags.noExecute ∧ (flags'.writable = true → flags.writable = true)

theorem Lowers.refl (s : Inner) : Lowers s s :=
  ⟨rfl, fun _ flags h => ⟨flags, h, rfl, id⟩⟩

theorem Lowers.trans {s t u : Inner} (hst : Lowers s t) (htu : Lowers t u) : Lowers s u where
  virtualAddressOffset := htu.virtualAddressOffset.trans hst.virtualAddressOffset
  flagsAt a flags h := by
    obtain ⟨g, hg, hx, hw⟩ := hst.flagsAt a flags h
    obtain ⟨g', hg', hx', hw'⟩ := htu.flagsAt a g hg
    exact ⟨g', hg', hx'.trans hx, fun h' => hw (hw' h')⟩

theorem Keeps.lowers {s t : Inner} {changed : Set Nat} (h : Keeps s t changed) : Lowers s t where
  virtualAddressOffset := h.virtualAddressOffset
  flagsAt a flags hs := by
    obtain ⟨g, hg, hw, hx⟩ := h.flagsAt a flags hs
    exact ⟨g, hg, hx, fun h' => hw ▸ h'⟩

/-- Rewriting flags by a map that keeps `NO_EXECUTE` and never sets
`WRITABLE`. -/
theorem lowers_updateFlags {f : PageTableFlags → PageTableFlags} (hf : ∀ flags, f (f flags) = f flags)
    (hx : ∀ flags, (f flags).noExecute = flags.noExecute)
    (hw : ∀ flags, (f flags).writable = true → flags.writable = true) (pages : List Page)
    (s : Inner) : Lowers s (s.updateFlags pages f) where
  virtualAddressOffset := virtualAddressOffset_updateFlags _ _ _
  flagsAt a flags h := by
    rw [flagsAt_updateFlags hf]
    split_ifs
    · exact ⟨f flags, by rw [h, Option.map_some], hx flags, hw flags⟩
    · exact ⟨flags, h, rfl, id⟩

theorem handleRelroSegment_lowers {s t : Inner} {segment : Segment}
    (h : s.handleRelroSegment segment = .ok t) : Lowers s t := by
  obtain ⟨pages, -, h⟩ := Except.bind_eq_ok.mp h
  rw [Except.pure_eq_ok] at h
  subst h
  exact lowers_updateFlags (f := fun flags => { flags with writable := false }) (fun _ => rfl)
    (fun _ => rfl) (fun _ h => by cases h) _ _

theorem removeCopiedFlags_lowers {s t : Inner} {segments : List Segment}
    (h : s.removeCopiedFlags segments = .ok t) : Lowers s t :=
  List.foldlM_rel Lowers.refl (fun {_ _ _} => Lowers.trans) (fun u _ v hround => by
    obtain ⟨pages, -, hround⟩ := Except.bind_eq_ok.mp hround
    rw [Except.pure_eq_ok] at hround
    subst hround
    exact lowers_updateFlags (f := fun flags => { flags with copied := false }) (fun _ => rfl)
      (fun _ => rfl) (fun _ => id) _ _) h

/-- `make_mut` changes a page's flags by `COPIED` only. -/
theorem makeMut_lowers {s t : Inner} {page : Page} {frame : PhysFrame}
    (h : s.makeMut page = .ok (frame, t)) : Lowers s t := by
  obtain ⟨entry, hentry, ⟨-, -, rfl⟩ | ⟨hcopied, -⟩⟩ := makeMut_cases h
  · exact Lowers.refl _
  obtain ⟨frames, -, rfl⟩ := makeMut_of_not_copied hentry hcopied h
  refine ⟨rfl, fun a flags hs => ?_⟩
  unfold Inner.flagsAt at hs ⊢
  by_cases hpage : a / 4096 = page.startAddress.val / 4096
  · rw [hpage, hentry, Option.map_some, Option.some.injEq] at hs
    subst hs
    simp only [hpage, Function.update_self, Option.map_some]
    exact ⟨_, rfl, rfl, id⟩
  · simp only [Function.update_of_ne hpage]
    exact ⟨flags, hs, rfl, id⟩

theorem copyTo_lowers {s t : Inner} {addr : VirtAddr} {buf : List UInt8}
    (h : s.copyTo addr buf = .ok t) : Lowers s t := by
  obtain ⟨e, -, h⟩ := Except.bind_eq_ok.mp h
  refine List.foldlM_rel Lowers.refl (fun {_ _ _} => Lowers.trans) (fun u _ v hround => ?_) h
  -- one page: `make_mut`, then a write to the frame it returned
  obtain ⟨⟨frame, u₁⟩, hmut, hround⟩ := Except.bind_eq_ok.mp hround
  simp only [liftPanic_eq_ok, Except.bind_eq_ok, Except.pure_eq_ok] at hround
  obtain ⟨_, -, _, -, _, -, rfl⟩ := hround
  -- the write changes memory only
  have hlowers := makeMut_lowers hmut
  exact ⟨hlowers.virtualAddressOffset, hlowers.flagsAt⟩

theorem applyRelocation_lowers {s t : Inner} {rela : Rela} {segments : List Segment}
    (h : s.applyRelocation rela segments = .ok t) : Lowers s t := by
  unfold applyRelocation at h
  simp only [ne_eq, ite_not, Nat.reducePow] at h
  -- both guards throw unless they hold
  split at h
  · split at h
    · simp only [Except.bind_eq_ok, liftPanic_eq_ok] at h
      obtain ⟨_, -, _, -, _, -, h⟩ := h
      exact copyTo_lowers h
    · cases h
  · cases h

/-- Relocation rewrites bytes only: `handle_dynamic_segment` keeps every
page's permissions. -/
theorem handleDynamicSegment_lowers {s t : Inner} {segment : Segment} {segments : List Segment}
    (h : s.handleDynamicSegment segment segments = .ok t) : Lowers s t := by
  unfold handleDynamicSegment at h
  obtain ⟨entries, -, h⟩ := Except.bind_eq_ok.mp h
  obtain ⟨⟨rela, relaSize, relaEnt⟩, -, h⟩ := Except.bind_eq_ok.mp h
  -- each branch throws, returns the state, or applies the relocations
  rcases rela with _ | offset <;> dsimp only at h
  · split_ifs at h
    · cases h
    · rw [Except.pure_eq_ok] at h
      subst h
      exact Lowers.refl _
  rcases relaSize with _ | totalSize
  · cases h
  rcases relaEnt with _ | entrySize
  · cases h
  simp only [pure_bind] at h
  split_ifs at h
  · cases h
  exact List.foldlM_rel Lowers.refl (fun {_ _ _} => Lowers.trans) (fun u _ v hround => by
    obtain ⟨_, -, hround⟩ := Except.bind_eq_ok.mp hround
    exact applyRelocation_lowers hround) h

/-! ## `load_segments` -/

/-- The address `virtual_address_offset + addr` returns, as an integer. -/
theorem virtualAddressOffsetAdd_cast {offset : Int} {addr start : Nat}
    (h : virtualAddressOffsetAdd offset addr = .ok start) : (start : Int) = offset + addr := by
  unfold virtualAddressOffsetAdd at h
  dsimp only at h
  split_ifs at h
  rw [Except.ok.injEq] at h
  omega

/-- A segment that lies in one half, as `virtual_address_offset + addr`
places it, lies in that half at the address `virtualAddressOffsetAdd`
returns. -/
theorem virtualAddressOffsetAdd_half {offset : Int} {addr start len : Nat}
    (h : virtualAddressOffsetAdd offset addr = .ok start)
    (hhalf : offset + addr + len < 2 ^ 47 ∨ 0xffff800000000000 ≤ offset + addr) :
    start + len < 2 ^ 47 ∨ 0xffff800000000000 ≤ start := by
  have := virtualAddressOffsetAdd_cast h
  omega

/-- A page-aligned virtual address offset keeps an address's offset in its page. -/
theorem virtualAddressOffsetAdd_mod {offset : Int} {addr start : Nat} (hoffset : offset % 4096 = 0)
    (h : virtualAddressOffsetAdd offset addr = .ok start) : start % 4096 = addr % 4096 := by
  have := virtualAddressOffsetAdd_cast h
  omega

/-- What a returning `load_segments` leaves: the state `s` after its first
loop (the loadable and TLS segments) holds every loadable segment with its
flags, and the passes after it (relocation, relro, `remove_copied_flags`)
only lower permissions, clear `COPIED` on the loadable segments' pages, and,
with no dynamic segment, leave every byte as it was. -/
structure SegmentsLoaded (inner : Inner) (segments : List Segment) (s inner' : Inner) : Prop where
  keeps : Keeps inner s ∅
  loaded : ∀ segment ∈ segments, segment.type = .load → ∃ start,
    virtualAddressOffsetAdd inner.virtualAddressOffset segment.virtualAddr = .ok start ∧
    ∀ i < segment.memSize, s.readByte (start + i) =
      some (if i < segment.fileSize then inner.memory (inner.kernelOffset.val + segment.offset + i) else 0) ∧
      ∃ flags, s.flagsAt (start + i) = some flags ∧ flags.writable = segment.isWrite ∧
        flags.noExecute = !segment.isExecute
  lowers : Lowers s inner'
  uncopied : ∀ segment ∈ segments, segment.type = .load → ∃ start,
    virtualAddressOffsetAdd inner.virtualAddressOffset segment.virtualAddr = .ok start ∧
    ∀ a, start ≤ a → a < (start + segment.memSize - 1) / 4096 * 4096 + 4096 →
      (inner'.flagsAt a).map (·.copied) ≠ some true
  unrelocated : (∀ segment ∈ segments, segment.type ≠ .dynamic) →
    ∀ a, inner'.readByte a = s.readByte a

section LoadSegments

variable {inner : Inner} {segments : List Segment}

/-- The loop over the loadable and TLS segments, from a fresh state whose
allocator holds no frame of a loadable segment's file part, in a kernel at a
page-aligned place and offset whose loadable segments agree with their file
offsets within a page: it keeps the state fresh and what the kernel saw, and
leaves each loadable segment's bytes and flags. -/
theorem loadLoop_eq_ok {f : Option TlsTemplate × Inner → Segment →
      Except LoadError (Option TlsTemplate × Inner)} {tls tls' : Option TlsTemplate} {s : Inner}
    (hstep : ∀ acc segment acc', f acc segment = .ok acc' →
      (segment.type = .load ∧ acc.2.handleLoadSegment segment = .ok acc'.2) ∨
        (segment.type ≠ .load ∧ acc'.2 = acc.2))
    (h : segments.foldlM f (tls, inner) = .ok (tls', s)) (hfresh : inner.FreshFrames)
    (hkernel : inner.kernelOffset.val % 4096 = 0) (hoffset : inner.virtualAddressOffset % 4096 = 0)
    (hcongr : ∀ segment ∈ segments, segment.type = .load →
      segment.offset % 4096 = segment.virtualAddr % 4096)
    (hhalf : ∀ segment ∈ segments, segment.type = .load →
      inner.virtualAddressOffset + segment.virtualAddr + max segment.fileSize segment.memSize < 2 ^ 47 ∨
        0xffff800000000000 ≤ inner.virtualAddressOffset + segment.virtualAddr)
    (hfile : ∀ g ∈ inner.frames, ∀ segment ∈ segments, segment.type = .load →
      g.number < (inner.kernelOffset.val + segment.offset) / 4096 ∨
        (inner.kernelOffset.val + segment.offset + segment.fileSize - 1) / 4096 < g.number) :
    s.FreshFrames ∧ Keeps inner s ∅ ∧ ∀ segment ∈ segments, segment.type = .load → ∃ start,
      virtualAddressOffsetAdd inner.virtualAddressOffset segment.virtualAddr = .ok start ∧
      ∀ i < segment.memSize, s.readByte (start + i) =
        some (if i < segment.fileSize then inner.memory (inner.kernelOffset.val + segment.offset + i)
          else 0) ∧
        ∃ flags, s.flagsAt (start + i) = some flags ∧ flags.writable = segment.isWrite ∧
          flags.noExecute = !segment.isExecute := by
  obtain ⟨⟨hfresh', hkeeps⟩, -, hloaded⟩ := List.foldlM_forall_mem_of_invariant
    (I := fun acc : Option TlsTemplate × Inner => acc.2.FreshFrames ∧ Keeps inner acc.2 ∅)
    (R := fun acc acc' => Keeps acc.2 acc'.2 ∅)
    (P := fun segment acc => segment.type = .load → ∃ start,
      virtualAddressOffsetAdd inner.virtualAddressOffset segment.virtualAddr = .ok start ∧
      ∀ i < segment.memSize, acc.2.readByte (start + i) =
        some (if i < segment.fileSize then inner.memory (inner.kernelOffset.val + segment.offset + i)
          else 0) ∧
        ∃ flags, acc.2.flagsAt (start + i) = some flags ∧ flags.writable = segment.isWrite ∧
          flags.noExecute = !segment.isExecute)
    (fun acc => Keeps.refl acc.2 ∅) (fun {_ _ _} => Keeps.trans)
    (fun _ _ _ hP hR hload => by
      -- a later segment keeps every byte an earlier one mapped
      obtain ⟨start, hstart, hbytes⟩ := hP hload
      refine ⟨start, hstart, fun i hi => ?_⟩
      obtain ⟨hread, flags, hflags, hw, hx⟩ := hbytes i hi
      obtain ⟨flags', hflags', hw', hx'⟩ := hR.flagsAt _ _ hflags
      rw [hR.readByte _ (Set.notMem_empty _) (isSome_of_readByte hread)]
      exact ⟨hread, flags', hflags', hw'.trans hw, hx'.trans hx⟩)
    (fun acc segment acc' ⟨hu, hku⟩ hmem hround => by
      rcases hstep acc segment acc' hround with ⟨hload, hsegment⟩ | ⟨hother, hsame⟩
      · -- the allocator still holds only frames it held at the start
        have hfile' : ∀ g ∈ acc.2.frames, g.number < (acc.2.kernelOffset.val + segment.offset) / 4096 ∨
            (acc.2.kernelOffset.val + segment.offset + segment.fileSize - 1) / 4096 < g.number := by
          intro g hg
          obtain ⟨used, hused⟩ := hku.frames
          rw [hku.kernelOffset]
          exact hfile g (by rw [hused]; exact List.mem_append_right _ hg) segment hmem hload
        have hcongr' : ∀ start, virtualAddressOffsetAdd acc.2.virtualAddressOffset segment.virtualAddr =
            .ok start → (acc.2.kernelOffset.val + segment.offset) % 4096 = start % 4096 := by
          intro start hstart
          rw [hku.virtualAddressOffset] at hstart
          have := virtualAddressOffsetAdd_mod hoffset hstart
          have := hcongr segment hmem hload
          rw [hku.kernelOffset]
          omega
        have hhalf' : ∀ start, virtualAddressOffsetAdd acc.2.virtualAddressOffset segment.virtualAddr =
            .ok start → start + max segment.fileSize segment.memSize < 2 ^ 47 ∨
              0xffff800000000000 ≤ start := by
          intro start hstart
          rw [hku.virtualAddressOffset] at hstart
          exact virtualAddressOffsetAdd_half hstart (hhalf segment hmem hload)
        obtain ⟨hv, hkv, start, hstart, hbytes⟩ :=
          handleLoadSegment_eq_ok hsegment hu hfile' hcongr' hhalf'
        refine ⟨⟨hv, hku.trans hkv⟩, hkv, fun _ => ⟨start, hku.virtualAddressOffset ▸ hstart,
          fun i hi => ?_⟩⟩
        rw [hku.kernelOffset] at hbytes
        obtain ⟨hread, hflags⟩ := hbytes i hi
        refine ⟨?_, hflags⟩
        rw [hread]
        split_ifs with hif
        · -- a file byte's frame was never handed out, so it holds what it held
          rw [hku.memory]
          intro hmem'
          obtain ⟨g, hg, hgnum⟩ := List.mem_map.mp hmem'
          have := hfile g hg segment hmem hload
          omega
        · rfl
      · rw [hsame]
        exact ⟨⟨hu, hku⟩, Keeps.refl _ ∅, fun hload => absurd hload hother⟩)
    ⟨hfresh, Keeps.refl inner ∅⟩ h
  exact ⟨hfresh', hkeeps, hloaded⟩

/-- `load_segments`, from a fresh state whose allocator holds no frame of a
loadable segment's file part, for a kernel at a page-aligned place and
offset whose loadable segments agree with their file offsets within a page. -/
theorem loadSegments_eq_ok {tls : Option TlsTemplate} {inner' : Inner}
    (h : inner.loadSegments segments = .ok (tls, inner')) (hfresh : inner.FreshFrames)
    (hkernel : inner.kernelOffset.val % 4096 = 0) (hoffset : inner.virtualAddressOffset % 4096 = 0)
    (hcongr : ∀ segment ∈ segments, segment.type = .load →
      segment.offset % 4096 = segment.virtualAddr % 4096)
    (hhalf : ∀ segment ∈ segments, segment.type = .load →
      inner.virtualAddressOffset + segment.virtualAddr + max segment.fileSize segment.memSize < 2 ^ 47 ∨
        0xffff800000000000 ≤ inner.virtualAddressOffset + segment.virtualAddr)
    (hfile : ∀ g ∈ inner.frames, ∀ segment ∈ segments, segment.type = .load →
      g.number < (inner.kernelOffset.val + segment.offset) / 4096 ∨
        (inner.kernelOffset.val + segment.offset + segment.fileSize - 1) / 4096 < g.number) :
    ∃ s, SegmentsLoaded inner segments s inner' := by
  simp only [loadSegments, Except.bind_eq_ok] at h
  obtain ⟨⟨tls₁, s₁⟩, hload, h⟩ := h
  dsimp only at h
  obtain ⟨s₂, hdyn, s₃, hrelro, s₄, hremove, h⟩ := h
  rw [Except.pure_eq_ok, Prod.mk.injEq] at h
  obtain ⟨-, rfl⟩ := h
  obtain ⟨-, hkeeps, hloaded⟩ := loadLoop_eq_ok (fun acc segment acc' hround => by
      split at hround
      · rename_i hload
        obtain ⟨v, hv, hround⟩ := Except.bind_eq_ok.mp hround
        rw [Except.pure_eq_ok] at hround
        exact .inl ⟨hload, by rw [← hround]; exact hv⟩
      · rename_i htls
        split_ifs at hround
        obtain ⟨_, -, hround⟩ := Except.bind_eq_ok.mp hround
        rw [Except.pure_eq_ok] at hround
        exact .inr ⟨by rw [htls]; decide, by rw [← hround]⟩
      · rename_i hload _
        rw [Except.pure_eq_ok] at hround
        exact .inr ⟨hload, by rw [← hround]⟩)
    hload hfresh hkernel hoffset hcongr hhalf hfile
  -- relocation and relro lower permissions; relro keeps every byte
  have hdynLowers : Lowers s₁ s₂ := List.foldlM_rel Lowers.refl (fun {_ _ _} => Lowers.trans)
    (fun u segment v hround => by
      split_ifs at hround
      · exact handleDynamicSegment_lowers hround
      · rw [Except.pure_eq_ok] at hround
        rw [hround]
        exact Lowers.refl _) hdyn
  have hrelroLowers : Lowers s₂ s₃ ∧ ∀ a, s₃.readByte a = s₂.readByte a :=
    List.foldlM_rel (R := fun u v => Lowers u v ∧ ∀ a, v.readByte a = u.readByte a)
      (fun u => ⟨Lowers.refl u, fun _ => rfl⟩)
      (fun {_ _ _} h₁ h₂ => ⟨h₁.1.trans h₂.1, fun a => (h₂.2 a).trans (h₁.2 a)⟩)
      (fun u segment v hround => by
        split_ifs at hround
        · exact ⟨handleRelroSegment_lowers hround, (handleRelroSegment_readOnly hround).2⟩
        · rw [Except.pure_eq_ok] at hround
          rw [hround]
          exact ⟨Lowers.refl _, fun _ => rfl⟩) hrelro
  obtain ⟨hclear, hread⟩ := removeCopiedFlags_clears hremove
  have hlowers := (hdynLowers.trans hrelroLowers.1).trans (removeCopiedFlags_lowers hremove)
  have hoffset₃ : s₃.virtualAddressOffset = inner.virtualAddressOffset :=
    ((hdynLowers.trans hrelroLowers.1).virtualAddressOffset.trans hkeeps.virtualAddressOffset)
  refine ⟨s₁, hkeeps, hloaded, hlowers, fun segment hmem hload => ?_, fun hnodyn a => ?_⟩
  · obtain ⟨start, hstart, hmark⟩ := hclear segment hmem hload
    have hstart' : virtualAddressOffsetAdd inner.virtualAddressOffset segment.virtualAddr = .ok start :=
      hoffset₃ ▸ hstart
    -- the segment's pages end at or below the hole, or lie above it
    have hhalf' := virtualAddressOffsetAdd_half hstart' (hhalf segment hmem hload)
    exact ⟨start, hstart', fun a hlo hhi => hmark a (by omega) hlo hhi⟩
  · -- with no dynamic segment the relocation loop returns its state
    have hsame : s₂ = s₁ := (List.foldlM_rel_of_mem (R := fun u v => v = u) (fun _ => rfl)
      (fun {_ _ _} h₁ h₂ => h₂.trans h₁)
      (fun u segment v hmem hround => by
        rw [if_neg (hnodyn segment hmem), Except.pure_eq_ok] at hround
        exact hround.symm) hdyn)
    rw [hread, hrelroLowers.2, hsame]

end LoadSegments

/-- After `load_segments` returns, every loadable segment is in the kernel's
address space: from `virtual_address_offset + p_vaddr` on, the kernel reads
the segment's `p_filesz` bytes of the kernel file and then zeros up to
`p_memsz`. This holds for a kernel without relocations, at a page-aligned
place and offset, whose loadable segments agree with their file offsets
within a page, when the allocator's frames are fresh and hold none of their
file bytes. -/
theorem loadSegments_loads {inner inner' : Inner} {segments : List Segment}
    {tls : Option TlsTemplate} (h : inner.loadSegments segments = .ok (tls, inner'))
    (hfresh : inner.FreshFrames) (hkernel : inner.kernelOffset.val % 4096 = 0)
    (hoffset : inner.virtualAddressOffset % 4096 = 0)
    (hcongr : ∀ segment ∈ segments, segment.type = .load →
      segment.offset % 4096 = segment.virtualAddr % 4096)
    (hhalf : ∀ segment ∈ segments, segment.type = .load →
      inner.virtualAddressOffset + segment.virtualAddr + max segment.fileSize segment.memSize < 2 ^ 47 ∨
        0xffff800000000000 ≤ inner.virtualAddressOffset + segment.virtualAddr)
    (hfile : ∀ g ∈ inner.frames, ∀ segment ∈ segments, segment.type = .load →
      g.number < (inner.kernelOffset.val + segment.offset) / 4096 ∨
        (inner.kernelOffset.val + segment.offset + segment.fileSize - 1) / 4096 < g.number)
    (hnodyn : ∀ segment ∈ segments, segment.type ≠ .dynamic) :
    ∀ segment ∈ segments, segment.type = .load → ∃ start,
      virtualAddressOffsetAdd inner.virtualAddressOffset segment.virtualAddr = .ok start ∧
      ∀ i < segment.memSize, inner'.readByte (start + i) =
        some (if i < segment.fileSize then inner.memory (inner.kernelOffset.val + segment.offset + i)
          else 0) := by
  obtain ⟨s, hs⟩ := loadSegments_eq_ok h hfresh hkernel hoffset hcongr hhalf hfile
  intro segment hmem hload
  obtain ⟨start, hstart, hbytes⟩ := hs.loaded segment hmem hload
  exact ⟨start, hstart, fun i hi => (hs.unrelocated hnodyn _).trans (hbytes i hi).1⟩

/-- A kernel at `0x10_0000` with a text segment over two pages, a data
segment whose `.bss` starts inside its only file page and runs over two more
pages, and a TLS segment; three fresh frames for the allocator. -/
theorem loadSegments_loads_on_small_kernel :
    let segments : List Segment :=
      [⟨.load, 5, 0, 0x400000, 0x1800, 0x1800, 0x1000⟩,
        ⟨.load, 6, 0x1800, 0x402800, 0x100, 0x2000, 0x1000⟩,
        ⟨.tls, 4, 0x1800, 0x402800, 0x10, 0x20, 8⟩]
    let inner : Inner := ⟨⟨0x100000, by decide⟩, 0, fun _ => none, fun a => UInt8.ofNat (a % 251),
      [⟨0x200, by decide⟩, ⟨0x201, by decide⟩, ⟨0x202, by decide⟩]⟩
    ∃ tls inner', inner.loadSegments segments = .ok (tls, inner') ∧
      ∀ segment ∈ segments, segment.type = .load → ∃ start,
        virtualAddressOffsetAdd inner.virtualAddressOffset segment.virtualAddr = .ok start ∧
        ∀ i < segment.memSize, inner'.readByte (start + i) =
          some (if i < segment.fileSize then inner.memory (inner.kernelOffset.val + segment.offset + i)
            else 0) := by
  intro segments inner
  obtain ⟨⟨tls, inner'⟩, h⟩ := Except.exists_eq_ok_of_toBool
    (show (inner.loadSegments segments).toBool = true by decide +kernel)
  exact ⟨tls, inner', h, loadSegments_loads h ⟨by decide, fun _ _ h => nomatch h⟩ (by decide)
    (by decide) (by decide) (by decide) (by decide) (by decide)⟩

/-- After `load_segments` returns, every byte of a loadable segment lies on a
page that is executable exactly when the segment is, writable only when the
segment is, and no longer marked `COPIED`: relocation, relro and
`remove_copied_flags` never add a permission. -/
theorem loadSegments_permissions {inner inner' : Inner} {segments : List Segment}
    {tls : Option TlsTemplate} (h : inner.loadSegments segments = .ok (tls, inner'))
    (hfresh : inner.FreshFrames) (hkernel : inner.kernelOffset.val % 4096 = 0)
    (hoffset : inner.virtualAddressOffset % 4096 = 0)
    (hcongr : ∀ segment ∈ segments, segment.type = .load →
      segment.offset % 4096 = segment.virtualAddr % 4096)
    (hhalf : ∀ segment ∈ segments, segment.type = .load →
      inner.virtualAddressOffset + segment.virtualAddr + max segment.fileSize segment.memSize < 2 ^ 47 ∨
        0xffff800000000000 ≤ inner.virtualAddressOffset + segment.virtualAddr)
    (hfile : ∀ g ∈ inner.frames, ∀ segment ∈ segments, segment.type = .load →
      g.number < (inner.kernelOffset.val + segment.offset) / 4096 ∨
        (inner.kernelOffset.val + segment.offset + segment.fileSize - 1) / 4096 < g.number) :
    ∀ segment ∈ segments, segment.type = .load → ∃ start,
      virtualAddressOffsetAdd inner.virtualAddressOffset segment.virtualAddr = .ok start ∧
      ∀ i < segment.memSize, ∃ flags, inner'.flagsAt (start + i) = some flags ∧
        flags.noExecute = !segment.isExecute ∧ (flags.writable = true → segment.isWrite = true) ∧
        flags.copied = false := by
  obtain ⟨s, hs⟩ := loadSegments_eq_ok h hfresh hkernel hoffset hcongr hhalf hfile
  intro segment hmem hload
  obtain ⟨start, hstart, hbytes⟩ := hs.loaded segment hmem hload
  obtain ⟨start', hstart', hclear⟩ := hs.uncopied segment hmem hload
  rw [hstart, Except.ok.injEq] at hstart'
  subst hstart'
  refine ⟨start, hstart, fun i hi => ?_⟩
  obtain ⟨-, flags, hflags, hw, hx⟩ := hbytes i hi
  obtain ⟨flags', hflags', hx', hw'⟩ := hs.lowers.flagsAt _ _ hflags
  have hcopied := hclear (start + i) (by omega) (by omega)
  rw [hflags', Option.map_some] at hcopied
  refine ⟨flags', hflags', hx'.trans hx, fun h' => by rw [← hw]; exact hw' h', ?_⟩
  simpa using hcopied

/-- A kernel file at `0x10_0000` whose dynamic section, at file offset
`0x1900`, has `DT_RELA = 0x40_2a00`, `DT_RELASZ = 24` and `DT_RELAENT = 24`,
and whose relocation table, at file offset `0x1a00`, holds one
`R_AMD64_RELATIVE` relocation at `0x40_2f00` with addend `0x1234`; every
other byte is 0. -/
def relocatedKernelFile (a : Nat) : UInt8 :=
  if a = 0x101900 then 7
  else if a = 0x101909 then 0x2a
  else if a = 0x10190a ∨ a = 0x101a02 then 0x40
  else if a = 0x101910 ∨ a = 0x101a08 then 8
  else if a = 0x101918 ∨ a = 0x101928 then 24
  else if a = 0x101920 then 9
  else if a = 0x101a01 then 0x2f
  else if a = 0x101a10 then 0x34
  else if a = 0x101a11 then 0x12
  else 0

/-- The kernel of `loadSegments_loads_on_small_kernel` with a dynamic segment
whose `DT_RELA` table holds one relative relocation into the data segment
(file bytes at `0x1900`: the table at `0x1a00`). -/
theorem loadSegments_permissions_on_relocated_kernel :
    let segments : List Segment :=
      [⟨.load, 5, 0, 0x400000, 0x1800, 0x1800, 0x1000⟩,
        ⟨.load, 6, 0x1800, 0x402800, 0x300, 0x2000, 0x1000⟩,
        ⟨.dynamic, 6, 0x1900, 0x402900, 0x30, 0x30, 8⟩,
        ⟨.gnuRelro, 4, 0x1800, 0x402800, 0x100, 0x100, 1⟩]
    let inner : Inner := ⟨⟨0x100000, by decide⟩, 0, fun _ => none, relocatedKernelFile,
      [⟨0x200, by decide⟩, ⟨0x201, by decide⟩, ⟨0x202, by decide⟩, ⟨0x203, by decide⟩]⟩
    ∃ tls inner', inner.loadSegments segments = .ok (tls, inner') ∧
      ∀ segment ∈ segments, segment.type = .load → ∃ start,
        virtualAddressOffsetAdd inner.virtualAddressOffset segment.virtualAddr = .ok start ∧
        ∀ i < segment.memSize, ∃ flags, inner'.flagsAt (start + i) = some flags ∧
          flags.noExecute = !segment.isExecute ∧ (flags.writable = true → segment.isWrite = true) ∧
          flags.copied = false := by
  intro segments inner
  obtain ⟨⟨tls, inner'⟩, h⟩ := Except.exists_eq_ok_of_toBool
    (show (inner.loadSegments segments).toBool = true by decide +kernel)
  exact ⟨tls, inner', h, loadSegments_permissions h ⟨by decide, fun _ _ h => nomatch h⟩ (by decide)
    (by decide) (by decide) (by decide) (by decide)⟩

end Inner

end Bootloader
