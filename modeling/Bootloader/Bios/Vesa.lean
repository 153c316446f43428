/-
Bootloader.Bios.Vesa — the VESA mode stage 2 switches to
(`bios/stage-2/src/vesa.rs`: `VesaModeInfo::query`,
`VesaInfo::get_best_mode`).

`get_best_mode` walks the modes the BIOS lists and queries each one. The
query is unwrapped, so a failed query panics. The loop skips a mode that is
not a graphics mode with a linear frame buffer (`attributes & 0x90`), whose
memory model is neither packed pixel nor direct colour, or that exceeds the
size asked for. Each remaining mode replaces the best so far by the rule
`best.pixel_format.is_unknown() || best.width < width || (best.width ==
width && best.height < height)`. The BIOS enters as parameters: the mode
list, which is what `get_mode` reads up to the `0xFFFF` terminator, and the
answers of function `0x4F01` by mode.

* `chooseMode_eq`: one round of the loop keeps the best so far or takes
  the mode, which then passes every filter (`eligible`) and `replaces` the
  best so far.
* `getBestMode_eligible`, `getBestMode_mem`, `getBestMode_isSome`: the mode
  returned is one of the list, queried, and passes the filters; one is
  returned whenever some mode passes them.
* `getBestMode_lexMax`, `getBestMode_size_perm`: while no eligible mode has
  an unknown pixel format, the result has the lexicographically largest
  `(width, height)`, so its size does not depend on the order of the list.
  The round's step lemma is `chooseMode_grows`: what the loop holds only
  `Grows`.

Each run lemma is a fold rule of `Lib.Except` applied to a step lemma
about `chooseMode`.
* `getBestMode_prefers_unknown_format`: the replace rule gives way to any
  mode after an unknown-format one. So the loop can end on an
  unknown-format mode although an RGB mode is eligible, and the order of
  the list decides the size.
-/
import Bootloader.X86.Addr
import Bootloader.Lib.Except

namespace Bootloader

namespace Bios

/-- `bootloader_x86_64_bios_common::PixelFormat`. -/
inductive PixelFormat where
  | rgb
  | bgr
  | unknown (redPosition greenPosition bluePosition : UInt8)
  deriving DecidableEq, Repr

/-- `PixelFormat::is_unknown`. -/
def PixelFormat.isUnknown : PixelFormat → Bool
  | .rgb | .bgr => false
  | .unknown .. => true

/-- The fields of `VbeModeInfo`, the block that function `0x4F01` fills,
that `query` reads. -/
structure VbeModeInfo where
  attributes : UInt16
  bytesPerScanline : UInt16
  width : UInt16
  height : UInt16
  bitsPerPixel : UInt8
  memoryModel : UInt8
  redPosition : UInt8
  greenPosition : UInt8
  bluePosition : UInt8
  framebuffer : UInt32
  deriving DecidableEq, Repr

/-- `VesaModeInfo`. -/
structure VesaModeInfo where
  mode : UInt16
  width : UInt16
  height : UInt16
  framebufferStart : UInt32
  bytesPerScanline : UInt16
  bytesPerPixel : UInt8
  pixelFormat : PixelFormat
  memoryModel : UInt8
  attributes : UInt16
  deriving DecidableEq, Repr

/-- The BIOS's answer to function `0x4F01` for a mode: the block, or the
status left in `ax` when it is not `0x4F`. -/
abbrev ModeInfoCall := UInt16 → Except UInt16 VbeModeInfo

namespace VesaModeInfo

/-- The pixel format `query` reads off the colour positions. -/
def pixelFormatOf (redPosition greenPosition bluePosition : UInt8) : PixelFormat :=
  match redPosition, greenPosition, bluePosition with
  | 0, 8, 16 => .rgb
  | 16, 8, 0 => .bgr
  | redPosition, greenPosition, bluePosition => .unknown redPosition greenPosition bluePosition

/-- `VesaModeInfo::query`. -/
def query (bios : ModeInfoCall) (mode : UInt16) : Except UInt16 VesaModeInfo := do
  let block ← bios mode
  pure ⟨mode, block.width, block.height, block.framebuffer, block.bytesPerScanline,
    block.bitsPerPixel / 8, pixelFormatOf block.redPosition block.greenPosition block.bluePosition,
    block.memoryModel, block.attributes⟩

end VesaModeInfo

/-- One round of `get_best_mode`'s loop, after the query: the three
`continue`s, then the replace rule. -/
def chooseMode (maxWidth maxHeight : UInt16) (best : Option VesaModeInfo)
    (modeInfo : VesaModeInfo) : Option VesaModeInfo :=
  if modeInfo.attributes &&& 0x90 != 0x90 then best
  else if !([4, 6] : List UInt8).contains modeInfo.memoryModel then best
  else if modeInfo.width > maxWidth || modeInfo.height > maxHeight then best
  else
    let replace := match best with
      | none => true
      | some best =>
        best.pixelFormat.isUnknown || best.width < modeInfo.width ||
          (best.width == modeInfo.width && best.height < modeInfo.height)
    if replace then some modeInfo else best

/-- One round of `get_best_mode`'s loop: the query, `unwrap`ped, then
`chooseMode`. -/
def bestModeRound (bios : ModeInfoCall) (maxWidth maxHeight : UInt16) (best : Option VesaModeInfo)
    (mode : UInt16) : Except Panic (Option VesaModeInfo) :=
  match VesaModeInfo.query bios mode with
  | .ok modeInfo => .ok (chooseMode maxWidth maxHeight best modeInfo)
  | .error _ => .error .unwrapErr

/-- `VesaInfo::get_best_mode` over the modes the BIOS lists. It returns
`Ok` always. -/
def getBestMode (bios : ModeInfoCall) (modes : List UInt16) (maxWidth maxHeight : UInt16) :
    Except Panic (Option VesaModeInfo) :=
  modes.foldlM (bestModeRound bios maxWidth maxHeight) none

/-! ## The loop's rule -/

/-- A mode the loop does not skip. -/
def eligible (maxWidth maxHeight : UInt16) (modeInfo : VesaModeInfo) : Prop :=
  modeInfo.attributes &&& 0x90 = 0x90 ∧ modeInfo.memoryModel ∈ ([4, 6] : List UInt8) ∧
    modeInfo.width ≤ maxWidth ∧ modeInfo.height ≤ maxHeight

instance (maxWidth maxHeight : UInt16) (modeInfo : VesaModeInfo) :
    Decidable (eligible maxWidth maxHeight modeInfo) := by
  unfold eligible
  infer_instance

/-- The replace rule. -/
def replaces : Option VesaModeInfo → VesaModeInfo → Bool
  | none, _ => true
  | some best, modeInfo =>
    best.pixelFormat.isUnknown || best.width < modeInfo.width ||
      (best.width == modeInfo.width && best.height < modeInfo.height)

/-- One round keeps the best so far, or takes a mode that passes the
filters and replaces it. -/
theorem chooseMode_eq (maxWidth maxHeight : UInt16) (best : Option VesaModeInfo)
    (modeInfo : VesaModeInfo) :
    chooseMode maxWidth maxHeight best modeInfo =
      if eligible maxWidth maxHeight modeInfo ∧ replaces best modeInfo = true then some modeInfo
      else best := by
  unfold chooseMode eligible
  cases best <;> simp only [replaces] <;> split_ifs <;> grind

/-- `(width, height)` in lexicographic order. -/
def lexLe (a b : VesaModeInfo) : Prop :=
  a.width < b.width ∨ (a.width = b.width ∧ a.height ≤ b.height)

theorem lexLe_refl (a : VesaModeInfo) : lexLe a a := .inr ⟨rfl, UInt16.le_refl _⟩

theorem lexLe_trans {a b c : VesaModeInfo} (hab : lexLe a b) (hbc : lexLe b c) : lexLe a c := by
  unfold lexLe at *
  grind

/-- One round holds what it held or the mode, which is then eligible. -/
theorem chooseMode_eq_some {maxWidth maxHeight : UInt16} {best : Option VesaModeInfo}
    {modeInfo b : VesaModeInfo} (h : chooseMode maxWidth maxHeight best modeInfo = some b) :
    best = some b ∨ (b = modeInfo ∧ eligible maxWidth maxHeight modeInfo) := by
  rw [chooseMode_eq] at h
  split_ifs at h with htake
  · exact .inr ⟨(Option.some_inj.mp h).symm, htake.1⟩
  · exact .inl h

/-- A round never drops the mode it holds. -/
theorem chooseMode_isSome_of_isSome {maxWidth maxHeight : UInt16} {best : Option VesaModeInfo}
    (modeInfo : VesaModeInfo) (h : best.isSome) :
    (chooseMode maxWidth maxHeight best modeInfo).isSome := by
  rw [chooseMode_eq]
  split_ifs
  · rfl
  · exact h

/-- A round on an eligible mode holds a mode: it is taken whenever nothing is
held. -/
theorem chooseMode_isSome_of_eligible {maxWidth maxHeight : UInt16} (best : Option VesaModeInfo)
    {modeInfo : VesaModeInfo} (h : eligible maxWidth maxHeight modeInfo) :
    (chooseMode maxWidth maxHeight best modeInfo).isSome := by
  cases best with
  | none => rw [chooseMode_eq, if_pos ⟨h, rfl⟩]; rfl
  | some b => exact chooseMode_isSome_of_isSome modeInfo rfl

/-- No mode the loop holds has an unknown pixel format. -/
def Known (best : Option VesaModeInfo) : Prop := ∀ b, best = some b → b.pixelFormat.isUnknown = false

/-- What the loop holds grows: while it is of known format, it stays so and
only gives way to larger modes. -/
def Grows (best best' : Option VesaModeInfo) : Prop :=
  Known best → Known best' ∧ ∀ b, best = some b → ∃ m, best' = some m ∧ lexLe b m

theorem Grows.refl (best : Option VesaModeInfo) : Grows best best :=
  fun hknown => ⟨hknown, fun b hb => ⟨b, hb, lexLe_refl b⟩⟩

theorem Grows.trans {s t u : Option VesaModeInfo} (hst : Grows s t) (htu : Grows t u) : Grows s u := by
  intro hs
  obtain ⟨ht, hst⟩ := hst hs
  obtain ⟨hu, htu⟩ := htu ht
  refine ⟨hu, fun b hb => ?_⟩
  obtain ⟨m, hm, hle⟩ := hst b hb
  obtain ⟨m', hm', hle'⟩ := htu m hm
  exact ⟨m', hm', lexLe_trans hle hle'⟩

/-- What the loop holds is of known format and at least as large as
`modeInfo`. -/
def Covers (modeInfo : VesaModeInfo) (best : Option VesaModeInfo) : Prop :=
  ∃ m, best = some m ∧ lexLe modeInfo m ∧ m.pixelFormat.isUnknown = false

theorem Covers.grows {modeInfo : VesaModeInfo} {best best' : Option VesaModeInfo}
    (hcover : Covers modeInfo best) (hgrow : Grows best best') : Covers modeInfo best' := by
  obtain ⟨m, rfl, hle, hknown⟩ := hcover
  obtain ⟨hknown', hkeep⟩ := hgrow fun b hb => Option.some_inj.mp hb ▸ hknown
  obtain ⟨m', hm', hle'⟩ := hkeep m rfl
  exact ⟨m', hm', lexLe_trans hle hle', hknown' m' hm'⟩

/-- Against a best so far of known format, the replace rule is the strict
lexicographic order: a round on a mode that is of known format when eligible
grows what the loop holds. -/
theorem chooseMode_grows {maxWidth maxHeight : UInt16} (best : Option VesaModeInfo)
    {modeInfo : VesaModeInfo}
    (hmode : eligible maxWidth maxHeight modeInfo → modeInfo.pixelFormat.isUnknown = false) :
    Grows best (chooseMode maxWidth maxHeight best modeInfo) := by
  intro hbest
  rw [chooseMode_eq]
  by_cases htake : eligible maxWidth maxHeight modeInfo ∧ replaces best modeInfo = true
  · rw [if_pos htake]
    refine ⟨fun b hb => Option.some_inj.mp hb ▸ hmode htake.1, fun b hb => ⟨modeInfo, rfl, ?_⟩⟩
    -- a known best is replaced only by a larger mode
    subst hb
    have hknown := hbest b rfl
    have hrep := htake.2
    simp only [replaces, hknown, Bool.false_or, Bool.or_eq_true, decide_eq_true_eq, Bool.and_eq_true,
      beq_iff_eq] at hrep
    unfold lexLe
    grind
  · rw [if_neg htake]
    exact Grows.refl best hbest

/-- A round on an eligible mode of known format ends on a mode of known
format at least as large: the mode, or a known best that it does not
replace. -/
theorem chooseMode_covers {maxWidth maxHeight : UInt16} (best : Option VesaModeInfo)
    {modeInfo : VesaModeInfo} (helig : eligible maxWidth maxHeight modeInfo)
    (hmode : modeInfo.pixelFormat.isUnknown = false) :
    Covers modeInfo (chooseMode maxWidth maxHeight best modeInfo) := by
  rw [chooseMode_eq]
  by_cases hrep : replaces best modeInfo = true
  · rw [if_pos ⟨helig, hrep⟩]
    exact ⟨modeInfo, rfl, lexLe_refl _, hmode⟩
  · rw [if_neg fun htake => hrep htake.2]
    -- the mode is turned down only by a best so far of known format, at least as large
    cases best with
    | none => exact absurd rfl hrep
    | some b =>
      simp only [replaces, Bool.or_eq_true, decide_eq_true_eq, Bool.and_eq_true, beq_iff_eq,
        not_or] at hrep
      obtain ⟨⟨hknown, hwidth⟩, hheight⟩ := hrep
      refine ⟨b, rfl, ?_, by simpa using hknown⟩
      unfold lexLe
      grind

/-! ## The whole loop -/

section Loop

variable {bios : ModeInfoCall} {maxWidth maxHeight : UInt16}

/-- A round that returns took the queried mode's info. -/
theorem bestModeRound_eq_ok {best best' : Option VesaModeInfo} {mode : UInt16}
    (h : bestModeRound bios maxWidth maxHeight best mode = .ok best') :
    ∃ modeInfo, VesaModeInfo.query bios mode = .ok modeInfo ∧
      chooseMode maxWidth maxHeight best modeInfo = best' := by
  unfold bestModeRound at h
  cases hq : VesaModeInfo.query bios mode with
  | error e => rw [hq] at h; exact nomatch h
  | ok modeInfo =>
    rw [hq] at h
    exact ⟨modeInfo, rfl, Except.ok.inj h⟩

/-- The mode `get_best_mode` returns passes every filter. -/
theorem getBestMode_eligible {modes : List UInt16} {m : VesaModeInfo}
    (h : getBestMode bios modes maxWidth maxHeight = .ok (some m)) : eligible maxWidth maxHeight m := by
  -- each round keeps what the loop holds or takes an eligible mode
  have hrun := List.foldlM_rel
    (R := fun best best' => (∀ b, best = some b → eligible maxWidth maxHeight b) →
      ∀ b, best' = some b → eligible maxWidth maxHeight b)
    (fun _ hbest => hbest) (fun hst htu hbest => htu (hst hbest)) ?_ h
  · exact hrun (fun _ hb => by cases hb) m rfl
  · intro best mode best' hround hbest b hb
    obtain ⟨modeInfo, -, rfl⟩ := bestModeRound_eq_ok hround
    rcases chooseMode_eq_some hb with hb | ⟨rfl, helig⟩
    · exact hbest b hb
    · exact helig

/-- The mode `get_best_mode` returns is the info of a mode of the list. -/
theorem getBestMode_mem {modes : List UInt16} {m : VesaModeInfo}
    (h : getBestMode bios modes maxWidth maxHeight = .ok (some m)) :
    ∃ mode ∈ modes, VesaModeInfo.query bios mode = .ok m := by
  -- what the loop holds is its start or the info of a mode of the list
  have hrun := List.foldlM_rel_of_mem
    (R := fun best best' => ∀ b, best' = some b →
      best = some b ∨ ∃ mode ∈ modes, VesaModeInfo.query bios mode = .ok b)
    (fun _ b hb => .inl hb) (fun hst htu b hb => (htu b hb).elim (hst b) .inr) ?_ h
  · exact (hrun m rfl).resolve_left fun hb => by cases hb
  · intro best mode best' hmem hround b hb
    obtain ⟨modeInfo, hq, rfl⟩ := bestModeRound_eq_ok hround
    rcases chooseMode_eq_some hb with hb | ⟨rfl, -⟩
    · exact .inl hb
    · exact .inr ⟨mode, hmem, hq⟩

/-- `get_best_mode` returns a mode whenever some mode of the list passes the
filters. -/
theorem getBestMode_isSome {modes : List UInt16} {result : Option VesaModeInfo}
    (h : getBestMode bios modes maxWidth maxHeight = .ok result)
    (helig : ∃ mode ∈ modes, ∃ modeInfo, VesaModeInfo.query bios mode = .ok modeInfo ∧
      eligible maxWidth maxHeight modeInfo) : result.isSome := by
  obtain ⟨mode, hmem, modeInfo, hq, helig⟩ := helig
  -- the round on an eligible mode holds a mode, and the later rounds keep one
  refine List.foldlM_forall_mem (R := fun best best' : Option VesaModeInfo => best.isSome → best'.isSome)
    (P := fun mode best => (∃ modeInfo, VesaModeInfo.query bios mode = .ok modeInfo ∧
      eligible maxWidth maxHeight modeInfo) → best.isSome)
    (fun _ hsome => hsome) (fun hst htu hsome => htu (hst hsome)) ?_ ?_
    (fun _ _ _ hP hst hx => hst (hP hx)) h mode hmem ⟨modeInfo, hq, helig⟩
  · intro best mode best' hround hsome
    obtain ⟨modeInfo, -, rfl⟩ := bestModeRound_eq_ok hround
    exact chooseMode_isSome_of_isSome modeInfo hsome
  · rintro best mode best' hround ⟨modeInfo', hq', helig⟩
    obtain ⟨modeInfo, hq, rfl⟩ := bestModeRound_eq_ok hround
    have hsame : modeInfo = modeInfo' := Except.ok.inj (hq.symm.trans hq')
    subst hsame
    exact chooseMode_isSome_of_eligible best helig

/-- While no eligible mode has an unknown pixel format, `get_best_mode`
returns a mode at least as large as every eligible mode. -/
theorem getBestMode_lexMax {modes : List UInt16} {m : VesaModeInfo}
    (hknown : ∀ mode ∈ modes, ∀ modeInfo, VesaModeInfo.query bios mode = .ok modeInfo →
      eligible maxWidth maxHeight modeInfo → modeInfo.pixelFormat.isUnknown = false)
    (h : getBestMode bios modes maxWidth maxHeight = .ok (some m)) :
    ∀ mode ∈ modes, ∀ modeInfo, VesaModeInfo.query bios mode = .ok modeInfo →
      eligible maxWidth maxHeight modeInfo → lexLe modeInfo m := by
  -- every round grows what the loop holds, and the round on an eligible mode covers it
  have hrun := List.foldlM_forall_mem_of_mem (R := Grows)
    (P := fun mode best => ∀ modeInfo, VesaModeInfo.query bios mode = .ok modeInfo →
      eligible maxWidth maxHeight modeInfo → Covers modeInfo best)
    Grows.refl Grows.trans (fun _ _ _ hP hgrow modeInfo hq helig => (hP modeInfo hq helig).grows hgrow)
    ?_ ?_ h
  · intro mode hmem modeInfo hq helig
    obtain ⟨m', hm', hle, -⟩ := hrun mode hmem modeInfo hq helig
    exact Option.some_inj.mp hm' ▸ hle
  · intro best mode best' hmem hround
    obtain ⟨modeInfo, hq, rfl⟩ := bestModeRound_eq_ok hround
    exact chooseMode_grows best (hknown mode hmem modeInfo hq)
  · intro best mode best' hmem hround modeInfo' hq' helig
    obtain ⟨modeInfo, hq, rfl⟩ := bestModeRound_eq_ok hround
    have hsame : modeInfo = modeInfo' := Except.ok.inj (hq.symm.trans hq')
    subst hsame
    exact chooseMode_covers best helig (hknown mode hmem modeInfo hq helig)

/-- While no eligible mode has an unknown pixel format, the size of the mode
`get_best_mode` returns does not depend on the order of the list. -/
theorem getBestMode_size_perm {modes modes' : List UInt16} {m m' : VesaModeInfo}
    (hperm : modes.Perm modes')
    (hknown : ∀ mode ∈ modes, ∀ modeInfo, VesaModeInfo.query bios mode = .ok modeInfo →
      eligible maxWidth maxHeight modeInfo → modeInfo.pixelFormat.isUnknown = false)
    (h : getBestMode bios modes maxWidth maxHeight = .ok (some m))
    (h' : getBestMode bios modes' maxWidth maxHeight = .ok (some m')) :
    m.width = m'.width ∧ m.height = m'.height := by
  have hknown' : ∀ mode ∈ modes', ∀ modeInfo, VesaModeInfo.query bios mode = .ok modeInfo →
      eligible maxWidth maxHeight modeInfo → modeInfo.pixelFormat.isUnknown = false :=
    fun mode hmem => hknown mode (hperm.mem_iff.mpr hmem)
  -- each result is a mode of the other list, and the other result is at least as large
  obtain ⟨mode, hmem, hq⟩ := getBestMode_mem h
  obtain ⟨mode', hmem', hq'⟩ := getBestMode_mem h'
  have hle : lexLe m m' :=
    getBestMode_lexMax hknown' h' mode (hperm.mem_iff.mp hmem) m hq (getBestMode_eligible h)
  have hle' : lexLe m' m :=
    getBestMode_lexMax hknown h mode' (hperm.mem_iff.mpr hmem') m' hq' (getBestMode_eligible h')
  unfold lexLe at hle hle'
  grind

end Loop

/-! ## Mixed pixel formats -/

/-- A BIOS with two modes: `0x115`, 800×600 in 24-bit RGB, and `0x117`,
1024×768 in 16-bit 5:6:5 colour, whose colour positions are neither of the
two that `query` names. -/
def twoModeBios (mode : UInt16) : Except UInt16 VbeModeInfo :=
  if mode = 0x115 then .ok ⟨0x9B, 2400, 800, 600, 24, 6, 0, 8, 16, 0xE0000000⟩
  else if mode = 0x117 then .ok ⟨0x9B, 2048, 1024, 768, 16, 6, 11, 5, 0, 0xE0000000⟩
  else .error 0x014F

/-- Both modes pass the filters for 1280×1024. Listed RGB first, the loop
ends on the 5:6:5 mode; listed the other way, on the RGB one. -/
theorem getBestMode_prefers_unknown_format :
    (VesaModeInfo.query twoModeBios 0x115).map (fun m => (m.pixelFormat, decide (eligible 1280 1024 m))) =
        .ok (.rgb, true) ∧
      (VesaModeInfo.query twoModeBios 0x117).map (fun m => decide (eligible 1280 1024 m)) = .ok true ∧
      (getBestMode twoModeBios [0x115, 0x117] 1280 1024).map
          (Option.map fun m => (m.pixelFormat, m.width, m.height)) =
        .ok (some (.unknown 11 5 0, 1024, 768)) ∧
      (getBestMode twoModeBios [0x117, 0x115] 1280 1024).map
          (Option.map fun m => (m.pixelFormat, m.width, m.height)) =
        .ok (some (.rgb, 800, 600)) := by
  decide

end Bios

end Bootloader
