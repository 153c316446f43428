/-
Bootloader.Common.LoaderMemory — how the loader reads and writes the
kernel's address space (`common/src/load_kernel.rs`: `Inner::copy_from`,
`Inner::copy_to`, `Inner::make_mut`, `Inner::remove_copied_flags`).

Both copy loops walk the pages of `addr..=end_inclusive_addr` and, on each,
work out the part of the range it holds (`pageSpan`): its first byte's
offset in the frame, its length, and its first byte's offset in the buffer.
The arithmetic is done on `VirtAddr`s, with `Step` jumping the hole between
the halves; in the count of `VirtAddr.linear` it is plain interval
arithmetic, and the pages of the range are the multiples of 4096 between
its ends (`Page.mem_stepRange`).

* `copyFrom_eq_ok`: over a mapped range, `copy_from` returns and reads into
  each byte of the buffer the byte at its address.
* `makeMut_owns`, `makeMut_makeMut`: `make_mut` gives a page a frame no other
  page maps, and a second call returns it again without allocating.
* `copyTo_eq_ok`: while every `COPIED` page has a frame of its own and the
  allocator has a fresh frame for each page, `copy_to` returns; afterwards
  each address of the range reads its byte of the buffer and every other
  address reads what it read before.
* `removeCopiedFlags_clears`: `remove_copied_flags` clears `COPIED` on the
  pages of the loadable segments' virtual ranges; a page a segment's file
  bytes are mapped at outside that range keeps it.
-/
import Bootloader.Common.LoadKernel

namespace Bootloader

/-! ## Slices -/

section Slices

variable {α : Type}

theorem writeSlice_eq_ok {buf buf' src : List α} {start : Nat} :
    writeSlice buf start src = .ok buf' ↔
      start + src.length ≤ buf.length ∧ buf' = buf.take start ++ src ++ buf.drop (start + src.length) := by
  rw [writeSlice, Except.ite_error_eq_ok, Nat.not_lt, @eq_comm _ _ buf']

/-- After `copy_from_slice` the buffer has its length, the slice's elements
in the slice's place, and its own elsewhere. -/
theorem getD_of_writeSlice {buf buf' src : List α} {start : Nat}
    (h : writeSlice buf start src = .ok buf') (i : Nat) (d : α) :
    buf'.length = buf.length ∧
      buf'.getD i d = if start ≤ i ∧ i < start + src.length then src.getD (i - start) d
        else buf.getD i d := by
  obtain ⟨hlen, rfl⟩ := writeSlice_eq_ok.mp h
  refine ⟨by simp only [List.length_append, List.length_take, List.length_drop]; omega, ?_⟩
  simp only [List.getD_eq_getElem?_getD, List.getElem?_append, List.length_append, List.length_take,
    List.getElem?_take, List.getElem?_drop]
  split_ifs <;> first | omega | (congr 2; omega) | rfl

theorem sliceRange_eq_ok {buf src : List α} {start len : Nat} :
    sliceRange buf start len = .ok src ↔ start + len ≤ buf.length ∧ src = (buf.drop start).take len := by
  rw [sliceRange, Except.ite_error_eq_ok, Nat.not_lt, @eq_comm _ _ src]

/-- The `k`-th element of `buf[start..][..len]` is the `start + k`-th of
`buf`. -/
theorem getD_drop_take (buf : List α) {start len k : Nat} (hk : k < len) (d : α) :
    ((buf.drop start).take len).getD k d = buf.getD (start + k) d := by
  simp only [List.getD_eq_getElem?_getD, List.getElem?_take, if_pos hk, List.getElem?_drop]

end Slices

namespace Inner

/-! ## The range and its pages -/

theorem endInclusiveAddress_eq_ok {addr e : VirtAddr} {len : Nat} :
    endInclusiveAddress addr len = .ok e ↔ 1 ≤ len ∧ addr.forwardChecked (len - 1) = some e := by
  simp only [endInclusiveAddress, Except.bind_eq_ok, Common.subU64_eq_ok]
  constructor
  · rintro ⟨_, ⟨hlen, rfl⟩, h⟩
    split at h
    · rename_i a ha
      rw [Except.pure_eq_ok] at h
      exact ⟨hlen, h ▸ ha⟩
    · cases h
  · rintro ⟨hlen, he⟩
    exact ⟨len - 1, ⟨hlen, rfl⟩, by rw [he]; rfl⟩

/-- On a page of the range, `pageSpan` returns, in the count: the offset of
the first byte of the range on the page from the page's start, the number of
bytes of the range on the page, and the offset of that first byte from
`addr`. -/
theorem pageSpan_eq_ok {addr e : VirtAddr} {q : Page} (hae : addr.linear ≤ e.linear)
    (hlo : addr.linear / 4096 * 4096 ≤ q.startAddress.linear) (hhi : q.startAddress.linear ≤ e.linear) :
    pageSpan addr e q = .ok (max addr.linear q.startAddress.linear - q.startAddress.linear,
      min e.linear (q.startAddress.linear + 4095) + 1 - max addr.linear q.startAddress.linear,
      max addr.linear q.startAddress.linear - addr.linear) := by
  have hq := Page.linear_mod q
  obtain ⟨pe, hpe, hpeVal, hpeLin⟩ := Page.exists_add_4095 q
  unfold pageSpan
  dsimp only
  rw [hpe, Except.ok_bind]
  -- where the copy starts and ends on the page, as `cmp::max` and `cmp::min` pick them
  generalize hsc : (if addr.val ≤ q.startAddress.val then q.startAddress else addr) = sc
  generalize hec : (if e.val ≤ pe.val then e else pe) = ec
  have hscLin : sc.linear = max addr.linear q.startAddress.linear := hsc ▸ VirtAddr.linear_max _ _
  have hecLin : ec.linear = min e.linear (q.startAddress.linear + 4095) := by
    rw [← hec, VirtAddr.linear_min, hpeLin]
  -- both lie on the page, in its half, where addresses and counts differ by a constant
  have hsv := sc.val_eq_linear_or
  have hev := ec.val_eq_linear_or
  have hqv := q.startAddress.val_eq_linear_or
  have hav := addr.val_eq_linear_or
  have hqs : q.startAddress.val ≤ sc.val := by omega
  have hqe : q.startAddress.val ≤ ec.val := by omega
  have hse : sc.val - q.startAddress.val ≤ ec.val - q.startAddress.val := by omega
  have has : addr.val ≤ sc.val := by omega
  rw [Common.subU64_eq_ok.mpr ⟨hqs, rfl⟩, Except.ok_bind, Common.subU64_eq_ok.mpr ⟨hqe, rfl⟩,
    Except.ok_bind, Common.subU64_eq_ok.mpr ⟨hse, rfl⟩, Except.ok_bind,
    addU64_eq_ok.mpr ⟨by omega, rfl⟩, Except.ok_bind, VirtAddr.stepsBetween_of_le has]
  dsimp only
  rw [pure_bind, Except.pure_eq_ok, Prod.mk.injEq, Prod.mk.injEq]
  omega

/-- The pages of `Step`'s range from the page of `addr` to the page of `e`:
those from the one holding `addr` to the one holding `e`, in the count. -/
theorem mem_pagesOfRange {addr e : VirtAddr} (hae : addr.linear ≤ e.linear) (q : Page) :
    q ∈ Page.stepRange (Page.containingAddress addr) (Page.containingAddress e) ↔
      addr.linear / 4096 * 4096 ≤ q.startAddress.linear ∧ q.startAddress.linear ≤ e.linear := by
  have hq := Page.linear_mod q
  have hle : addr.linear / 4096 * 4096 ≤ e.linear / 4096 * 4096 :=
    Nat.mul_le_mul_right _ (Nat.div_le_div_right hae)
  rw [Page.mem_stepRange (by rw [Page.linear_containingAddress, Page.linear_containingAddress]; exact hle),
    Page.linear_containingAddress, Page.linear_containingAddress]
  omega

/-- Every page of the range holds a byte of it: the first one at or after the
page's start. -/
theorem exists_offset_on_page {addr e : VirtAddr} {q : Page} (hae : addr.linear ≤ e.linear)
    (hlo : addr.linear / 4096 * 4096 ≤ q.startAddress.linear) (hhi : q.startAddress.linear ≤ e.linear) :
    ∃ i b, addr.linear + i ≤ e.linear ∧ addr.forwardChecked i = some b ∧
      b.val / 4096 = q.startAddress.val / 4096 := by
  have hq := Page.linear_mod q
  have he := e.linear_lt
  obtain ⟨b, hb, hbLin⟩ := @VirtAddr.exists_forwardChecked
    addr (max addr.linear q.startAddress.linear - addr.linear) (by omega)
  refine ⟨_, b, by omega, hb, VirtAddr.linear_div_eq_iff.mp ?_⟩
  omega

/-- The byte `i` of the range lies on a page of the range: its own. -/
theorem containingAddress_mem_pagesOfRange {addr e b : VirtAddr} {i : Nat}
    (hae : addr.linear ≤ e.linear) (hi : addr.linear + i ≤ e.linear) (hb : b.linear = addr.linear + i) :
    Page.containingAddress b ∈ Page.stepRange (Page.containingAddress addr) (Page.containingAddress e) ∧
      b.val / 4096 = (Page.containingAddress b).startAddress.val / 4096 := by
  rw [mem_pagesOfRange hae, Page.linear_containingAddress, Page.containingAddress_val]
  refine ⟨⟨by omega, by omega⟩, by omega⟩

/-- The byte `i` of the range has an address, `i` on from `addr` in the
count, and it lies on its own page of the range. -/
theorem exists_address_on_page {addr e : VirtAddr} {len i : Nat}
    (he : e.linear = addr.linear + (len - 1)) (hi : i < len) :
    ∃ b, addr.forwardChecked i = some b ∧ b.linear = addr.linear + i ∧
      Page.containingAddress b ∈ Page.stepRange (Page.containingAddress addr) (Page.containingAddress e) ∧
      b.val / 4096 = (Page.containingAddress b).startAddress.val / 4096 := by
  obtain ⟨b, hb, hbLin⟩ := @VirtAddr.exists_forwardChecked addr i (by
    have := e.linear_lt
    omega)
  exact ⟨b, hb, hbLin, containingAddress_mem_pagesOfRange (by omega) (by omega) hbLin⟩

/-- When the page of every byte of the range is mapped, so is every page of
the range. -/
theorem isSome_of_mem_pagesOfRange {inner : Inner} {addr e : VirtAddr} {len : Nat}
    (he : e.linear = addr.linear + (len - 1)) (hlen : 1 ≤ len)
    (hmapped : ∀ i < len, ∀ b : VirtAddr, addr.forwardChecked i = some b →
      (inner.pageTable (b.val / 4096)).isSome)
    {q : Page} (hq : q ∈ Page.stepRange (Page.containingAddress addr) (Page.containingAddress e)) :
    (inner.pageTable (q.startAddress.val / 4096)).isSome := by
  obtain ⟨hlo, hhi⟩ := (mem_pagesOfRange (by omega) q).mp hq
  obtain ⟨i, b, hi, hb, hbq⟩ := exists_offset_on_page (by omega) hlo hhi
  exact hbq ▸ hmapped i (by omega) b hb

/-! ## `copy_from` -/

/-- The `k`-th of `n` bytes read from a physical address. -/
theorem getD_range_map (memory : Nat → UInt8) (p n k : Nat) (hk : k < n) :
    ((List.range n).map fun j => memory (p + j)).getD k 0 = memory (p + k) := by
  simp [List.getD_eq_getElem?_getD, hk]

/-- One round of `copy_from`'s loop, on a mapped page of the range: it keeps
the buffer's length and every element whose address lies off the page, and
fills every element whose address lies on the page with what the kernel
reads there. -/
theorem copyFromPage_eq_ok {inner : Inner} {addr e : VirtAddr} {len : Nat} {buf : List UInt8}
    {q : Page} (hbuf : buf.length = len) (he : e.linear = addr.linear + (len - 1)) (hlen : 1 ≤ len)
    (hlo : addr.linear / 4096 * 4096 ≤ q.startAddress.linear) (hhi : q.startAddress.linear ≤ e.linear)
    (hmapped : (inner.pageTable (q.startAddress.val / 4096)).isSome) :
    ∃ buf', inner.copyFromPage addr e buf q = .ok buf' ∧ buf'.length = len ∧
      ∀ i < len, ∀ b : VirtAddr, b.linear = addr.linear + i →
        (b.val / 4096 = q.startAddress.val / 4096 → inner.readByte b.val = some (buf'.getD i 0)) ∧
        (b.val / 4096 ≠ q.startAddress.val / 4096 → buf'.getD i 0 = buf.getD i 0) := by
  have hq := Page.linear_mod q
  obtain ⟨entry, hentry⟩ := Option.isSome_iff_exists.mp hmapped
  -- the frame offset, length and buffer offset of the page's part of the range
  have hspan := pageSpan_eq_ok (by omega) hlo hhi
  generalize hoff : max addr.linear q.startAddress.linear - q.startAddress.linear = off at hspan
  generalize hc : min e.linear (q.startAddress.linear + 4095) + 1 -
    max addr.linear q.startAddress.linear = c at hspan
  generalize hs : max addr.linear q.startAddress.linear - addr.linear = s at hspan
  have hframe := entry.frame.valid
  obtain ⟨startPhysAddr, hphys⟩ : ∃ p, entry.frame.startAddress.add off = .ok p :=
    ⟨⟨entry.frame.number * 4096 + off, by omega⟩, PhysAddr.add_eq_ok.mpr rfl⟩
  have hphysVal := PhysAddr.add_eq_ok.mp hphys
  obtain ⟨buf', hbuf'⟩ : ∃ buf', writeSlice buf s
      ((List.range c).map fun k => inner.memory (startPhysAddr.val + k)) = .ok buf' :=
    ⟨_, writeSlice_eq_ok.mpr ⟨by simp only [List.length_map, List.length_range]; omega, rfl⟩⟩
  have hstep : inner.copyFromPage addr e buf q = .ok buf' := by
    unfold copyFromPage
    rw [hentry]
    dsimp only
    rw [pure_bind, hspan, Except.ok_bind]
    dsimp only
    rw [hphys, Except.ok_bind, hbuf']
  refine ⟨buf', hstep, ?_, fun i hi b hb => ?_⟩
  · rw [(getD_of_writeSlice hbuf' 0 0).1, hbuf]
  obtain ⟨-, hget⟩ := getD_of_writeSlice hbuf' i 0
  simp only [List.length_map, List.length_range] at hget
  have hbmod := b.linear_mod
  constructor
  · -- on the page: the element is the byte of the frame at the address's offset
    intro hpage
    have hpage' := VirtAddr.linear_div_eq_iff.mpr hpage
    rw [hget, if_pos (by omega), getD_range_map _ _ _ _ (by omega), readByte, hpage, hentry,
      Option.map_some, hphysVal]
    have hoffset : entry.frame.startAddress.val + off + (i - s) =
        entry.frame.number * 4096 + b.val % 4096 := by
      rw [PhysFrame.startAddress_val]
      omega
    rw [hoffset]
  · -- off the page: the element is left alone
    intro hpage
    have hpage' : b.linear / 4096 ≠ q.startAddress.linear / 4096 :=
      fun h => hpage (VirtAddr.linear_div_eq_iff.mp h)
    rw [hget, if_neg (by omega)]

/-- `copy_from` on a range whose pages are all mapped returns, and puts at
each offset `i` of the buffer the byte the kernel reads at the address `i`
bytes on from `addr`, as `Step` counts. -/
theorem copyFrom_eq_ok {inner : Inner} {addr e : VirtAddr} {buf : List UInt8}
    (hlen : 1 ≤ buf.length) (hend : addr.forwardChecked (buf.length - 1) = some e)
    (hmapped : ∀ i < buf.length, ∀ b : VirtAddr, addr.forwardChecked i = some b →
      (inner.pageTable (b.val / 4096)).isSome) :
    ∃ buf', inner.copyFrom addr buf = .ok buf' ∧ buf'.length = buf.length ∧
      ∀ i < buf.length, ∃ b, addr.forwardChecked i = some b ∧
        inner.readByte b.val = some (buf'.getD i 0) := by
  obtain ⟨-, he⟩ := VirtAddr.forwardChecked_eq_some.mp hend
  generalize hlenDef : buf.length = len at hlen hend hmapped he
  have hrange := mem_pagesOfRange (show addr.linear ≤ e.linear by omega)
  -- the loop returns, with the buffer's length
  obtain ⟨buf', hfold, hlen'⟩ := List.foldlM_ok_of_invariant (I := fun s : List UInt8 => s.length = len)
    (fun s hs q hq => by
      obtain ⟨hlo, hhi⟩ := (hrange q).mp hq
      obtain ⟨s', hs', hlen', -⟩ :=
        copyFromPage_eq_ok hs he hlen hlo hhi (isSome_of_mem_pagesOfRange he hlen hmapped hq)
      exact ⟨s', hs', hlen'⟩) hlenDef
  -- each round fills its page's elements and keeps those already filled
  obtain ⟨-, -, hfilled⟩ := List.foldlM_forall_mem_of_invariant
    (I := fun s : List UInt8 => s.length = len)
    (R := fun s t : List UInt8 => ∀ i < len, ∀ b : VirtAddr, b.linear = addr.linear + i →
      inner.readByte b.val = some (s.getD i 0) → inner.readByte b.val = some (t.getD i 0))
    (P := fun (q : Page) (t : List UInt8) => ∀ i < len, ∀ b : VirtAddr, b.linear = addr.linear + i →
      b.val / 4096 = q.startAddress.val / 4096 → inner.readByte b.val = some (t.getD i 0))
    (fun _ _ _ _ _ h => h) (fun {_ _ _} hst htu i hi b hb h => htu i hi b hb (hst i hi b hb h))
    (fun _ _ _ hP hR i hi b hb hbq => hR i hi b hb (hP i hi b hb hbq))
    (fun s q s' hs hq hstep => by
      obtain ⟨hlo, hhi⟩ := (hrange q).mp hq
      obtain ⟨t, ht, hlent, hbytes⟩ :=
        copyFromPage_eq_ok hs he hlen hlo hhi (isSome_of_mem_pagesOfRange he hlen hmapped hq)
      rw [hstep, Except.ok.injEq] at ht
      subst ht
      refine ⟨hlent, fun i hi b hb h => ?_, fun i hi b hb hbq => (hbytes i hi b hb).1 hbq⟩
      -- an element off the page is unchanged, one on it is filled
      by_cases hbq : b.val / 4096 = q.startAddress.val / 4096
      · exact (hbytes i hi b hb).1 hbq
      · rw [(hbytes i hi b hb).2 hbq]
        exact h) hlenDef hfold
  refine ⟨buf', ?_, hlen', fun i hi => ?_⟩
  · rw [copyFrom, hlenDef, (endInclusiveAddress_eq_ok.mpr ⟨hlen, hend⟩)]
    simp only [liftPanic, Except.ok_bind, hfold]
  · obtain ⟨b, hb, hbLin, hq, hbq⟩ := exists_address_on_page he hi
    exact ⟨b, hb, hfilled _ hq i hi b hbLin hbq⟩

/-! ## `make_mut`

`make_mut` trusts the `COPIED` flag: it writes through a page marked so in
place. That is safe while such a page maps a frame of its own
(`PrivateCopies`), which `make_mut` keeps as long as the allocator's frames
are mapped by no page (`FreshFrames`). -/

/-- A page marked `COPIED` maps a frame no other page maps. -/
def PrivateCopies (inner : Inner) : Prop :=
  ∀ p entry, inner.pageTable p = some entry → entry.flags.copied = true →
    ∀ p' entry', inner.pageTable p' = some entry' → entry'.frame = entry.frame → p' = p

/-- `make_mut` returns on a mapped page that is marked `COPIED` or for which
the allocator has a frame left. -/
theorem exists_makeMut {inner : Inner} {page : Page} {entry : PageEntry}
    (hentry : inner.pageTable (page.startAddress.val / 4096) = some entry)
    (hframes : entry.flags.copied = false → inner.frames ≠ []) :
    ∃ frame inner', inner.makeMut page = .ok (frame, inner') ∧
      inner.frames.length ≤ inner'.frames.length + 1 := by
  unfold makeMut
  rw [hentry]
  dsimp only
  split_ifs with hcopied
  · exact ⟨_, _, rfl, Nat.le_succ _⟩
  · cases hf : inner.frames with
    | nil => exact absurd hf (hframes (by simpa using hcopied))
    | cons newFrame frames =>
      refine ⟨newFrame, ⟨inner.kernelOffset, inner.virtualAddressOffset,
        Function.update inner.pageTable (page.startAddress.val / 4096)
          (some ⟨newFrame, { entry.flags with copied := true }⟩),
        copyFrame inner.memory entry.frame newFrame, frames⟩, ?_, by simp⟩
      unfold allocateFrame
      rw [hf]
      rfl

/-- A second `make_mut` of a page allocates nothing and returns the same
frame. -/
theorem makeMut_makeMut {inner inner' : Inner} {page : Page} {frame : PhysFrame}
    (h : inner.makeMut page = .ok (frame, inner')) : inner'.makeMut page = .ok (frame, inner') := by
  obtain ⟨entry, hentry, ⟨hcopied, rfl, rfl⟩ | ⟨-, -, -, htable⟩⟩ := makeMut_cases h
  · -- the page was marked already, and is written through in place
    unfold makeMut
    rw [hentry]
    simp only [hcopied, if_true]
  · unfold makeMut
    rw [htable, Function.update_self]
    rfl

/-- After `make_mut`, the page maps the frame it returned, marked `COPIED`,
and with `FreshFrames` no other page maps that frame. -/
theorem makeMut_owns {inner inner' : Inner} {page : Page} {frame : PhysFrame}
    (hfresh : inner.FreshFrames) (hprivate : inner.PrivateCopies)
    (h : inner.makeMut page = .ok (frame, inner')) :
    ∃ flags, inner'.pageTable (page.startAddress.val / 4096) = some ⟨frame, flags⟩ ∧
      (∀ p' entry', inner'.pageTable p' = some entry' → entry'.frame = frame →
        p' = page.startAddress.val / 4096) ∧ inner'.PrivateCopies := by
  obtain ⟨entry, hentry, ⟨hcopied, rfl, rfl⟩ | ⟨-, hframes, -, htable⟩⟩ := makeMut_cases h
  · -- a marked page owns its frame already
    exact ⟨entry.flags, hentry, fun p' e' hp' hframe => hprivate _ entry hentry hcopied p' e' hp' hframe,
      hprivate⟩
  · -- the allocator's frame is mapped by no page but this one
    have hnew : ∀ p' e', inner.pageTable p' = some e' → e'.frame ≠ frame := fun p' e' hp' heq =>
      hfresh.2 p' e' hp' (by rw [hframes, heq]; exact List.mem_cons_self)
    have howns : ∀ p' entry', inner'.pageTable p' = some entry' → entry'.frame = frame →
        p' = page.startAddress.val / 4096 := by
      intro p' e' hp' heq
      by_contra hne
      rw [htable, Function.update_of_ne hne] at hp'
      exact hnew p' e' hp' heq
    refine ⟨_, by rw [htable, Function.update_self], howns, fun p e hp hcopied' p' e' hp' hframe => ?_⟩
    by_cases hpage : p = page.startAddress.val / 4096
    · subst hpage
      rw [htable, Function.update_self, Option.some.injEq] at hp
      subst hp
      exact howns p' e' hp' hframe
    · -- an older private page: its frame is not the new one, so only it maps it
      rw [htable, Function.update_of_ne hpage] at hp
      have hp'' : p' ≠ page.startAddress.val / 4096 := by
        rintro rfl
        rw [htable, Function.update_self, Option.some.injEq] at hp'
        subst hp'
        exact hnew p e hp hframe.symm
      rw [htable, Function.update_of_ne hp''] at hp'
      exact hprivate p e hp hcopied' p' e' hp' hframe

/-! ## `copy_to` -/

/-- An address on the page of a canonical one is canonical. -/
theorem canonical_of_div_eq {a : Nat} {b : VirtAddr} (h : a / 4096 = b.val / 4096) : Canonical a := by
  have := b.canonical
  unfold Canonical at *
  omega

/-- Writing inside the frame that only one page maps changes what the kernel
reads on that page alone, and there only at the offsets written. -/
theorem readByte_writeBytes {inner : Inner} {p : Nat} {frame : PhysFrame} {flags : PageTableFlags}
    (hp : inner.pageTable p = some ⟨frame, flags⟩)
    (hown : ∀ p' entry', inner.pageTable p' = some entry' → entry'.frame = frame → p' = p)
    {off : Nat} {src : List UInt8} (hfit : off + src.length ≤ 4096) (a : Nat) :
    ({ inner with memory := writeBytes inner.memory (frame.number * 4096 + off) src } : Inner).readByte a =
      if a / 4096 = p ∧ off ≤ a % 4096 ∧ a % 4096 < off + src.length then
        some (src.getD (a % 4096 - off) 0)
      else inner.readByte a := by
  have hmod := Nat.mod_lt a (show 0 < 4096 by decide)
  unfold readByte writeBytes
  dsimp only
  cases hq : inner.pageTable (a / 4096) with
  | none =>
    -- an unmapped address is not on the page
    have hne : a / 4096 ≠ p := fun h => by rw [h, hp] at hq; cases hq
    simp [hne]
  | some e =>
    simp only [Option.map_some]
    by_cases hframe : e.frame = frame
    · -- the page itself: its frame's bytes at the written offsets are new
      obtain rfl := hown _ e hq hframe
      subst hframe
      by_cases hin : off ≤ a % 4096 ∧ a % 4096 < off + src.length
      · rw [if_pos (by omega), if_pos ⟨rfl, hin⟩]
        congr 2
        omega
      · rw [if_neg (by omega), if_neg (by tauto)]
    · -- any other page maps another frame, which is not written
      have hne : a / 4096 ≠ p := fun h => by
        rw [h, hp, Option.some.injEq] at hq
        exact hframe (by rw [← hq])
      have hnum : e.frame.number ≠ frame.number := fun h => hframe (PhysFrame.ext h)
      rw [if_neg (by omega), if_neg (by tauto)]

/-- `make_mut` keeps every page mapped that was, and maps no other. -/
theorem isSome_makeMut {inner inner' : Inner} {page : Page} {frame : PhysFrame}
    (h : inner.makeMut page = .ok (frame, inner')) (p : Nat) :
    (inner'.pageTable p).isSome = (inner.pageTable p).isSome := by
  obtain ⟨entry, hentry, ⟨-, -, rfl⟩ | ⟨-, -, -, htable⟩⟩ := makeMut_cases h
  · rfl
  · rw [htable]
    by_cases hp : p = page.startAddress.val / 4096
    · subst hp
      rw [Function.update_self, hentry]
      rfl
    · rw [Function.update_of_ne hp]

/-- One round of `copy_to`'s loop on a page of the range, once `make_mut` has
returned a frame: the page's part of `buf` is written to that frame, at the
page's part of the range. -/
theorem copyToPage_of_makeMut {inner s₁ : Inner} {addr e : VirtAddr} {buf : List UInt8} {q : Page}
    {frame : PhysFrame} (he : e.linear = addr.linear + (buf.length - 1)) (hlen : 1 ≤ buf.length)
    (hlo : addr.linear / 4096 * 4096 ≤ q.startAddress.linear) (hhi : q.startAddress.linear ≤ e.linear)
    (hmk : inner.makeMut q = .ok (frame, s₁)) :
    copyToPage addr e buf inner q = .ok { s₁ with
      memory := writeBytes s₁.memory
        (frame.number * 4096 + (max addr.linear q.startAddress.linear - q.startAddress.linear))
        ((buf.drop (max addr.linear q.startAddress.linear - addr.linear)).take
          (min e.linear (q.startAddress.linear + 4095) + 1 - max addr.linear q.startAddress.linear)) } := by
  have hq := Page.linear_mod q
  have hspan := pageSpan_eq_ok (by omega) hlo hhi
  have hframe := frame.valid
  obtain ⟨startPhysAddr, hphys⟩ : ∃ p, frame.startAddress.add
      (max addr.linear q.startAddress.linear - q.startAddress.linear) = .ok p :=
    ⟨⟨frame.number * 4096 + (max addr.linear q.startAddress.linear - q.startAddress.linear), by omega⟩,
      PhysAddr.add_eq_ok.mpr rfl⟩
  have hphysVal := PhysAddr.add_eq_ok.mp hphys
  rw [PhysFrame.startAddress_val] at hphysVal
  unfold copyToPage
  rw [hmk, Except.ok_bind]
  dsimp only
  rw [hspan, Except.ok_bind]
  dsimp only
  rw [hphys, Except.ok_bind, sliceRange_eq_ok.mpr ⟨by omega, rfl⟩, Except.ok_bind, hphysVal]
  rfl

/-- One round of `copy_to`'s loop returns on a mapped page of the range while
the allocator has a frame left. -/
theorem exists_copyToPage {inner : Inner} {addr e : VirtAddr} {buf : List UInt8} {q : Page}
    (he : e.linear = addr.linear + (buf.length - 1)) (hlen : 1 ≤ buf.length)
    (hlo : addr.linear / 4096 * 4096 ≤ q.startAddress.linear) (hhi : q.startAddress.linear ≤ e.linear)
    (hmapped : (inner.pageTable (q.startAddress.val / 4096)).isSome) (hframes : 0 < inner.frames.length) :
    ∃ inner', copyToPage addr e buf inner q = .ok inner' := by
  obtain ⟨entry, hentry⟩ := Option.isSome_iff_exists.mp hmapped
  obtain ⟨frame, s₁, hmk, -⟩ := exists_makeMut hentry (fun _ => List.ne_nil_of_length_pos hframes)
  exact ⟨_, copyToPage_of_makeMut he hlen hlo hhi hmk⟩

/-- What a returning round of `copy_to`'s loop does on a page of the range,
from a state whose allocator's frames are fresh and whose private pages own
their frames: it keeps all that with at most one frame spent, maps the pages
it mapped, and changes what the kernel reads only at addresses of the range,
each of which reads its byte of `buf` if it lies on the page. -/
theorem copyToPage_eq_ok {inner inner' : Inner} {addr e : VirtAddr} {buf : List UInt8} {q : Page}
    (he : e.linear = addr.linear + (buf.length - 1)) (hlen : 1 ≤ buf.length)
    (hlo : addr.linear / 4096 * 4096 ≤ q.startAddress.linear) (hhi : q.startAddress.linear ≤ e.linear)
    (hfresh : inner.FreshFrames) (hprivate : inner.PrivateCopies)
    (h : copyToPage addr e buf inner q = .ok inner') :
    (inner'.FreshFrames ∧ inner'.PrivateCopies ∧
        ∀ p, (inner'.pageTable p).isSome = (inner.pageTable p).isSome) ∧
      inner.frames.length ≤ inner'.frames.length + 1 ∧
      (∀ a, inner'.readByte a = inner.readByte a ∨
        ∃ i < buf.length, ∃ b : VirtAddr, b.linear = addr.linear + i ∧ b.val = a ∧
          inner'.readByte a = some (buf.getD i 0)) ∧
      ∀ i < buf.length, ∀ b : VirtAddr, b.linear = addr.linear + i →
        b.val / 4096 = q.startAddress.val / 4096 → inner'.readByte b.val = some (buf.getD i 0) := by
  have hq := Page.linear_mod q
  -- the round's `make_mut` returned, and fixes what the round wrote
  obtain ⟨⟨frame, s₁⟩, hmk, -⟩ := Except.bind_eq_ok.mp h
  rw [copyToPage_of_makeMut he hlen hlo hhi hmk, Except.ok.injEq] at h
  subst h
  obtain ⟨entry, hentry, hcases⟩ := makeMut_cases hmk
  have hcount : inner.frames.length ≤ s₁.frames.length + 1 := by
    rcases hcases with ⟨-, -, rfl⟩ | ⟨-, hframes, -⟩
    · exact Nat.le_succ _
    · rw [hframes, List.length_cons]
  obtain ⟨hfresh₁, hread₁⟩ := makeMut_readByte hfresh hmk
  obtain ⟨flags, hq₁, hown₁, hprivate₁⟩ := makeMut_owns hfresh hprivate hmk
  generalize hoff : max addr.linear q.startAddress.linear - q.startAddress.linear = off
  generalize hc : min e.linear (q.startAddress.linear + 4095) + 1 -
    max addr.linear q.startAddress.linear = c
  generalize hst : max addr.linear q.startAddress.linear - addr.linear = st
  have hwrite := @readByte_writeBytes _ _ _ _ hq₁ hown₁ off ((buf.drop st).take c)
    (by simp only [List.length_take, List.length_drop]; omega)
  simp only [List.length_take, List.length_drop] at hwrite
  refine ⟨⟨hfresh₁, hprivate₁, fun p => @isSome_makeMut _ s₁ _ _ hmk p⟩, hcount,
    fun a => ?_, fun i hi b hb hbq => ?_⟩
  · rw [hwrite a]
    split_ifs with hin
    · -- on the page, at a written offset: the byte of the range there
      obtain ⟨hpage, hlo', hhi'⟩ := hin
      obtain ⟨b, rfl⟩ : ∃ b : VirtAddr, b.val = a := ⟨⟨a, canonical_of_div_eq hpage⟩, rfl⟩
      have hbq := VirtAddr.linear_div_eq_iff.mpr hpage
      have hbmod := b.linear_mod
      refine .inr ⟨st + (b.val % 4096 - off), by omega, b, by omega, rfl, ?_⟩
      rw [getD_drop_take _ (by omega)]
    · exact .inl (hread₁ a)
  · -- the byte of the range at `b` is on the page, at a written offset
    have hbq' := VirtAddr.linear_div_eq_iff.mpr hbq
    have hbmod := b.linear_mod
    rw [hwrite, if_pos ⟨hbq, by omega, by omega⟩, getD_drop_take _ (by omega),
      show st + (b.val % 4096 - off) = i by omega]

/-- `copy_to` on a range whose pages are all mapped, from a state whose
allocator has a fresh frame for every page of the range and whose private
pages own their frames, returns. Afterwards every address of the range reads
its byte of `buf`, and every other address reads what it read before. -/
theorem copyTo_eq_ok {inner : Inner} {addr e : VirtAddr} {buf : List UInt8}
    (hlen : 1 ≤ buf.length) (hend : addr.forwardChecked (buf.length - 1) = some e)
    (hmapped : ∀ i < buf.length, ∀ b : VirtAddr, addr.forwardChecked i = some b →
      (inner.pageTable (b.val / 4096)).isSome)
    (hfresh : inner.FreshFrames) (hprivate : inner.PrivateCopies)
    (hframes : (Page.stepRange (Page.containingAddress addr) (Page.containingAddress e)).length ≤
      inner.frames.length) :
    ∃ inner', inner.copyTo addr buf = .ok inner' ∧
      (∀ i < buf.length, ∃ b, addr.forwardChecked i = some b ∧
        inner'.readByte b.val = some (buf.getD i 0)) ∧
      ∀ a, (∀ i < buf.length, ∀ b : VirtAddr, addr.forwardChecked i = some b → b.val ≠ a) →
        inner'.readByte a = inner.readByte a := by
  obtain ⟨-, he⟩ := VirtAddr.forwardChecked_eq_some.mp hend
  have hae : addr.linear ≤ e.linear := by omega
  have hrange := mem_pagesOfRange hae
  -- the state the loop keeps: fresh frames, private copies, the range's pages mapped
  let I : Inner → Prop := fun s => s.FreshFrames ∧ s.PrivateCopies ∧
    ∀ q ∈ Page.stepRange (Page.containingAddress addr) (Page.containingAddress e),
      (s.pageTable (q.startAddress.val / 4096)).isSome
  have hI : I inner :=
    ⟨hfresh, hprivate, fun _ hq => isSome_of_mem_pagesOfRange he hlen hmapped hq⟩
  have hstepI : ∀ s q s', I s →
      q ∈ Page.stepRange (Page.containingAddress addr) (Page.containingAddress e) →
      copyToPage addr e buf s q = .ok s' → I s' ∧ s.frames.length ≤ s'.frames.length + 1 := by
    intro s q s' ⟨hs₁, hs₂, hs₃⟩ hq hstep
    obtain ⟨hlo, hhi⟩ := (hrange q).mp hq
    obtain ⟨⟨h₁, h₂, hmap⟩, hcount, -⟩ := copyToPage_eq_ok he hlen hlo hhi hs₁ hs₂ hstep
    exact ⟨⟨h₁, h₂, fun q' hq' => (hmap _).trans (hs₃ q' hq')⟩, hcount⟩
  -- the loop returns: each round spends at most one of the frames it has
  obtain ⟨inner', hfold, -⟩ := List.foldlM_ok_of_budget (μ := fun s : Inner => s.frames.length)
    (fun s hs hpos q hq => by
      obtain ⟨hlo, hhi⟩ := (hrange q).mp hq
      obtain ⟨s', hs'⟩ := exists_copyToPage he hlen hlo hhi (hs.2.2 q hq) hpos
      exact ⟨s', hs', hstepI s q s' hs hq hs'⟩) hI hframes
  -- each round writes its page's bytes, and changes nothing off the range
  obtain ⟨-, hframe, hwritten⟩ := List.foldlM_forall_mem_of_invariant (I := I)
    (R := fun s t : Inner => ∀ a, t.readByte a = s.readByte a ∨
      ∃ i < buf.length, ∃ b : VirtAddr, b.linear = addr.linear + i ∧ b.val = a ∧
        t.readByte a = some (buf.getD i 0))
    (P := fun (q : Page) (t : Inner) => ∀ i < buf.length, ∀ b : VirtAddr,
      b.linear = addr.linear + i → b.val / 4096 = q.startAddress.val / 4096 →
        t.readByte b.val = some (buf.getD i 0))
    (fun _ _ => .inl rfl)
    (fun {_ _ _} hst htu a => by
      rcases htu a with htu | htu
      · rcases hst a with hst | hst
        · exact .inl (htu.trans hst)
        · exact .inr (htu ▸ hst)
      · exact .inr htu)
    (fun _ _ _ hP hR i hi b hb hbq => by
      rcases hR b.val with hR | ⟨i', -, b', hb', hval, hR⟩
      · exact hR.trans (hP i hi b hb hbq)
      · -- the same address is the same offset of the range
        obtain rfl := VirtAddr.ext hval
        obtain rfl : i' = i := by omega
        exact hR)
    (fun s q s' hs hq hstep => by
      obtain ⟨hlo, hhi⟩ := (hrange q).mp hq
      obtain ⟨-, -, hR, hP⟩ := copyToPage_eq_ok he hlen hlo hhi hs.1 hs.2.1 hstep
      exact ⟨(hstepI s q s' hs hq hstep).1, hR, hP⟩) hI hfold
  refine ⟨inner', ?_, fun i hi => ?_, fun a ha => ?_⟩
  · rw [copyTo, (endInclusiveAddress_eq_ok.mpr ⟨hlen, hend⟩)]
    simp only [liftPanic, Except.ok_bind, hfold]
  · obtain ⟨b, hb, hbLin, hq, hbq⟩ := exists_address_on_page he hi
    exact ⟨b, hb, hwritten _ hq i hi b hbLin hbq⟩
  · rcases hframe a with h | ⟨i, hi, b, hb, rfl, -⟩
    · exact h
    · -- an address of the range is excluded
      exact absurd rfl (ha i hi b (VirtAddr.forwardChecked_eq_some.mpr ⟨by
        have := e.linear_lt
        omega, hb⟩))

/-! ## Both loops -/

/-- `copy_from` and `copy_to` on a range of `buf.length ≥ 1` bytes that ends
inside the address space, on a page table that maps every page of the range.
`copy_from` returns and reads, into each byte of `buf`, the byte at its
address. When moreover every page marked `COPIED` maps a frame of its own
and the allocator has a fresh frame for each page of the range, `copy_to`
returns, and afterwards each address of the range reads its byte of `buf`
while every other address reads what it read before. An address of the
range is `addr` moved on by `Step`, which jumps the hole. -/
theorem copyFrom_copyTo_range (inner : Inner) (addr e : VirtAddr) (buf : List UInt8)
    (hlen : 1 ≤ buf.length) (hend : addr.forwardChecked (buf.length - 1) = some e)
    (hmapped : ∀ i < buf.length, ∀ b : VirtAddr, addr.forwardChecked i = some b →
      (inner.pageTable (b.val / 4096)).isSome) :
    (∃ buf', inner.copyFrom addr buf = .ok buf' ∧ buf'.length = buf.length ∧
      ∀ i < buf.length, ∃ b, addr.forwardChecked i = some b ∧
        inner.readByte b.val = some (buf'.getD i 0)) ∧
    (inner.FreshFrames → inner.PrivateCopies →
      (Page.stepRange (Page.containingAddress addr) (Page.containingAddress e)).length ≤
        inner.frames.length →
      ∃ inner', inner.copyTo addr buf = .ok inner' ∧
        (∀ i < buf.length, ∃ b, addr.forwardChecked i = some b ∧
          inner'.readByte b.val = some (buf.getD i 0)) ∧
        ∀ a, (∀ i < buf.length, ∀ b : VirtAddr, addr.forwardChecked i = some b → b.val ≠ a) →
          inner'.readByte a = inner.readByte a) :=
  ⟨copyFrom_eq_ok hlen hend hmapped, copyTo_eq_ok hlen hend hmapped⟩

/-- Two pages, at `0` and `0x1000`, on frames `0x100` and `0x101`, neither
marked `COPIED`, and an allocator with two fresh frames. -/
def twoPageInner : Inner :=
  ⟨⟨0x100000, by decide⟩, 0,
    fun p => if h : p < 2 then some ⟨⟨0x100 + p, by omega⟩, ⟨true, true, false⟩⟩ else none,
    fun a => UInt8.ofNat (a / 0x100), [⟨0x200, by decide⟩, ⟨0x201, by decide⟩]⟩

/-- Eight bytes from `0xffc`, across the boundary of the two pages. -/
theorem copyFrom_copyTo_range_across_pages :
    (∃ buf', twoPageInner.copyFrom ⟨0xffc, by decide⟩ [1, 2, 3, 4, 5, 6, 7, 8] = .ok buf' ∧
      buf'.length = 8 ∧ ∀ i < 8, ∃ b, VirtAddr.forwardChecked ⟨0xffc, by decide⟩ i = some b ∧
        twoPageInner.readByte b.val = some (buf'.getD i 0)) ∧
    (∃ inner', twoPageInner.copyTo ⟨0xffc, by decide⟩ [1, 2, 3, 4, 5, 6, 7, 8] = .ok inner' ∧
      (∀ i < 8, ∃ b, VirtAddr.forwardChecked ⟨0xffc, by decide⟩ i = some b ∧
        inner'.readByte b.val = some ([1, 2, 3, 4, 5, 6, 7, 8].getD i 0)) ∧
      ∀ a, (∀ i < 8, ∀ b : VirtAddr, VirtAddr.forwardChecked ⟨0xffc, by decide⟩ i = some b → b.val ≠ a) →
        inner'.readByte a = twoPageInner.readByte a) := by
  -- the range's addresses are `0xffc` to `0x1003`, on pages 0 and 1
  have hmapped : ∀ i < 8, ∀ b : VirtAddr, VirtAddr.forwardChecked ⟨0xffc, by decide⟩ i = some b →
      (twoPageInner.pageTable (b.val / 4096)).isSome := by
    intro i hi b hb
    obtain ⟨-, hb⟩ := VirtAddr.forwardChecked_eq_some.mp hb
    have hlin : (⟨0xffc, by decide⟩ : VirtAddr).linear = 0xffc := rfl
    rcases b.val_eq_linear_or with ⟨-, hval⟩ | ⟨hhigh, -⟩
    · have hp : b.val / 4096 < 2 := by omega
      simp only [twoPageInner, dif_pos hp, Option.isSome_some]
    · omega
  have hfresh : twoPageInner.FreshFrames := by
    refine ⟨by decide, fun p entry h => ?_⟩
    simp only [twoPageInner] at h
    split_ifs at h with hp
    cases h
    -- the two mapped frames, `0x100` and `0x101`, are not the allocator's
    obtain rfl | rfl : p = 0 ∨ p = 1 := by omega
    all_goals simp [twoPageInner, PhysFrame.ext_iff]
  have hprivate : twoPageInner.PrivateCopies := by
    intro p entry h hcopied
    simp only [twoPageInner] at h
    split_ifs at h
    cases h
    cases hcopied
  have hrange := copyFrom_copyTo_range twoPageInner ⟨0xffc, by decide⟩ ⟨0x1003, by decide⟩
    [1, 2, 3, 4, 5, 6, 7, 8] (by decide) (by decide +kernel) hmapped
  exact ⟨hrange.1, hrange.2 hfresh hprivate (by decide +kernel)⟩

/-- Two pages, `0` and `1`, that map one frame and are both marked `COPIED`:
`make_mut` takes the first for a private copy and writes through it in place,
so `copy_to` of one byte at address 0 changes what address `0x1000`, outside
the range, reads. -/
theorem copyTo_writes_through_shared_copy :
    let inner : Inner := ⟨⟨0x100000, by decide⟩, 0,
      fun p => if p < 2 then some ⟨⟨0x300, by decide⟩, ⟨true, true, true⟩⟩ else none,
      fun _ => 0, [⟨0x200, by decide⟩]⟩
    inner.readByte 0x1000 = some 0 ∧
      (inner.copyTo ⟨0, by decide⟩ [0xAB]).map (fun inner' => inner'.readByte 0x1000) =
        .ok (some 0xAB) := by
  decide +kernel

/-! ## `remove_copied_flags` -/

/-- After `remove_copied_flags` returns, no address from a loadable segment's
start to the end of the page of its last byte is marked `COPIED`, and the
kernel reads what it read before. -/
theorem removeCopiedFlags_clears {inner inner' : Inner} {segments : List Segment}
    (h : inner.removeCopiedFlags segments = .ok inner') :
    (∀ segment ∈ segments, segment.type = .load →
      ∃ start, virtualAddressOffsetAdd inner.virtualAddressOffset segment.virtualAddr = .ok start ∧
        ∀ a : Nat, (a < 2 ^ 47 ∨ 0xffff800000000000 ≤ start) →
          start ≤ a → a < (start + segment.memSize - 1) / 4096 * 4096 + 4096 →
          (inner'.flagsAt a).map (·.copied) ≠ some true) ∧
      ∀ a, inner'.readByte a = inner.readByte a := by
  let clear : PageTableFlags → PageTableFlags := fun flags => { flags with copied := false }
  -- a round rewrites flags only, and keeps every address it does not mark
  let R : Inner → Inner → Prop := fun s t =>
    t.virtualAddressOffset = s.virtualAddressOffset ∧ (∀ a, t.readByte a = s.readByte a) ∧
      ∀ a, (s.flagsAt a).map (·.copied) ≠ some true → (t.flagsAt a).map (·.copied) ≠ some true
  let P : Segment → Inner → Prop := fun segment t =>
    ∃ start, virtualAddressOffsetAdd t.virtualAddressOffset segment.virtualAddr = .ok start ∧
      ∀ a : Nat, (a < 2 ^ 47 ∨ 0xffff800000000000 ≤ start) →
        start ≤ a → a < (start + segment.memSize - 1) / 4096 * 4096 + 4096 →
        (t.flagsAt a).map (·.copied) ≠ some true
  have hclear : ∀ (s : Inner) pages a, ((s.updateFlags pages clear).flagsAt a).map (·.copied) =
      if a / 4096 ∈ pages.map (·.startAddress.val / 4096) then (s.flagsAt a).map fun _ => false
      else (s.flagsAt a).map (·.copied) := by
    intro s pages a
    rw [flagsAt_updateFlags (f := clear) (fun _ => rfl)]
    split_ifs
    · rw [Option.map_map]
      rfl
    · rfl
  have hstep : ∀ s segment s', (do
      let pages ← s.segmentPages segment
      pure (s.updateFlags pages clear) : Except LoadError Inner) = .ok s' → R s s' ∧ P segment s' := by
    intro s segment s' hs
    obtain ⟨pages, hpages, hs⟩ := Except.bind_eq_ok.mp hs
    rw [Except.pure_eq_ok] at hs
    subst hs
    obtain ⟨start, hstart, hcover⟩ := segmentPages_covers hpages
    refine ⟨⟨virtualAddressOffset_updateFlags _ _ _, readByte_updateFlags _ _ _, fun a ha => ?_⟩,
      start, by rw [virtualAddressOffset_updateFlags, hstart], fun a hhalf hlo hhi => ?_⟩
    · rw [hclear]
      split_ifs
      · cases hflags : s.flagsAt a <;> simp
      · exact ha
    · rw [hclear, if_pos (hcover a hhalf hlo hhi)]
      cases hflags : s.flagsAt a <;> simp
  have hrefl : ∀ s, R s s := fun s => ⟨rfl, fun _ => rfl, fun _ ha => ha⟩
  have htrans : ∀ {s t u}, R s t → R t u → R s u := fun hst htu =>
    ⟨htu.1.trans hst.1, fun a => (htu.2.1 a).trans (hst.2.1 a), fun a ha => htu.2.2 a (hst.2.2 a ha)⟩
  have hkeep : ∀ segment s t, P segment s → R s t → P segment t := by
    rintro segment s t ⟨start, hstart, hmark⟩ ⟨hoffset, -, hflags⟩
    exact ⟨start, by rw [hoffset, hstart], fun a hhalf hlo hhi => hflags a (hmark a hhalf hlo hhi)⟩
  have hR : R inner inner' :=
    List.foldlM_rel hrefl htrans (fun s segment s' hs => (hstep s segment s' hs).1) h
  have hP := List.foldlM_forall_mem hrefl htrans (fun s segment s' hs => (hstep s segment s' hs).1)
    (fun s segment s' hs => (hstep s segment s' hs).2) hkeep h
  refine ⟨fun segment hmem hload => ?_, hR.2.1⟩
  obtain ⟨start, hstart, hmark⟩ := hP segment (List.mem_filter.mpr ⟨hmem, by simp [hload]⟩)
  exact ⟨start, by rw [← hR.1, hstart], hmark⟩

end Inner

/-! ## The flag left behind -/

/-- A kernel file at `0x10_0000` with a dynamic section at file offset `0x900`
(`DT_RELA = 0x800`, `DT_RELASZ = 24`, `DT_RELAENT = 24`) and, at `0x800`, one
`R_AMD64_RELATIVE` relocation with `r_offset = 0xfff` and addend 0; every
other byte is 0. -/
def relativeRelocationFile (a : Nat) : UInt8 :=
  if a = 0x100800 then 0xff
  else if a = 0x100801 then 0x0f
  else if a = 0x100808 ∨ a = 0x100910 then 8
  else if a = 0x100900 then 7
  else if a = 0x100909 then 0x08
  else if a = 0x100918 ∨ a = 0x100928 then 24
  else if a = 0x100920 then 9
  else 0

/-- A loadable segment `[0, 0x1000)` at file offset 1 (`p_align = 1`) is
mapped over two pages, `0` and `0x1000`, since its file bytes cross a frame
boundary. The relocation at `0xfff` writes 8 bytes, into both pages, and
`make_mut` marks both `COPIED`; `remove_copied_flags` clears only the pages
of `[0, 0x1000)`, so after `load_segments` returns, page `0x1000` is still
marked. -/
theorem loadSegments_leaves_copied_flag :
    let segments : List Segment :=
      [⟨.load, 6, 1, 0, 0x1000, 0x1000, 1⟩, ⟨.dynamic, 4, 0x900, 0x900, 48, 48, 8⟩]
    let inner : Inner := ⟨⟨0x100000, by decide⟩, 0, fun _ => none, relativeRelocationFile,
      [⟨0x200, by decide⟩, ⟨0x201, by decide⟩]⟩
    (∀ s ∈ segments, s.type = .load → s.virtualAddr + s.memSize ≤ 0x1000) ∧
      (Inner.loadSegments inner segments).map (fun r => (r.2.flagsAt 0x1000).map (·.copied)) =
        .ok (some true) := by
  decide +kernel

end Bootloader
