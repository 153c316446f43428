/-
Bootloader.Bios.Disk — stage 2's disk layer (`bios/stage-2/src/disk.rs`,
`bios/stage-2/src/dap.rs`).

`DiskAccess` reads a partition through the BIOS's extended read
(`int 0x13`, function `0x42`): `read_exact_into` turns a byte range into
sectors, from the one holding the first byte to the one holding the last,
and hands the BIOS one `DiskAddressPacket` per 32 sectors, each aimed at the
next 16 KiB of the buffer. `read_exact` reads 1024 bytes that way into the
static `TMP_BUF` and returns the requested bytes from it.

The model keeps the packets `read_exact_into` builds and what the BIOS does
with them: it copies `number_of_sectors` sectors from `start_lba` on to
real-mode memory at `segment:offset`. Memory and the drive are byte maps; a
buffer is its start address and length. A failing BIOS read (`fail(b'z')`)
and the disk number, which only selects the drive, are left out.

* `loadSectors_eq_ok`: the packets of the loop write exactly the sectors
  asked for, one after the other, from the buffer's start on.
* `readExactInto_eq_ok`: so `read_exact_into(len, buf)` writes
  `end_lba + 1 - start_lba` whole sectors from the buffer's start, the first
  being the sector that holds `base_offset + current_offset`. On a
  sector-aligned offset that is exactly `buf[..len]` with the bytes asked for
  (`readExactInto_of_aligned`); on any other it is one sector more, and the
  data start at the sector boundary.
-/
import Bootloader.X86.Addr
import Bootloader.Lib.Interval

namespace Bootloader

namespace Bios

/-- `DiskAddressPacket`, the fields the BIOS reads (`packet_size` is
always `0x10` and `zero` always 0). -/
structure DiskAddressPacket where
  numberOfSectors : Nat
  offset : Nat
  segment : Nat
  startLba : Nat
  deriving DecidableEq, Repr

namespace DiskAddressPacket

/-- `DiskAddressPacket::from_lba`. -/
def fromLba (startLba numberOfSectors targetAddr targetAddrSegment : Nat) : DiskAddressPacket :=
  { numberOfSectors, offset := targetAddr, segment := targetAddrSegment, startLba }

/-- The real-mode address `segment:offset` the sectors go to. -/
def target (dap : DiskAddressPacket) : Nat := dap.segment * 16 + dap.offset

/-- `perform_load`: the BIOS copies the packet's sectors from the drive to
memory from `segment:offset` on. -/
def performLoad (dap : DiskAddressPacket) (drive memory : Nat → UInt8) : Nat → UInt8 :=
  fun a => if dap.target ≤ a ∧ a < dap.target + dap.numberOfSectors * 512 then
    drive (dap.startLba * 512 + (a - dap.target)) else memory a

/-- The packets carried out in order. -/
def performLoads (daps : List DiskAddressPacket) (drive memory : Nat → UInt8) : Nat → UInt8 :=
  daps.foldl (fun memory dap => dap.performLoad drive memory) memory

@[simp] theorem target_fromLba (startLba numberOfSectors targetAddr : Nat) :
    (fromLba startLba numberOfSectors (targetAddr % 16) (targetAddr / 16)).target = targetAddr := by
  show targetAddr / 16 * 16 + targetAddr % 16 = targetAddr
  omega

@[simp] theorem numberOfSectors_fromLba (startLba numberOfSectors targetAddr segment : Nat) :
    (fromLba startLba numberOfSectors targetAddr segment).numberOfSectors = numberOfSectors := rfl

@[simp] theorem startLba_fromLba (startLba numberOfSectors targetAddr segment : Nat) :
    (fromLba startLba numberOfSectors targetAddr segment).startLba = startLba := rfl

@[simp] theorem performLoads_nil (drive memory : Nat → UInt8) :
    performLoads [] drive memory = memory := rfl

@[simp] theorem performLoads_cons (dap : DiskAddressPacket) (daps : List DiskAddressPacket)
    (drive memory : Nat → UInt8) :
    performLoads (dap :: daps) drive memory = performLoads daps drive (dap.performLoad drive memory) :=
  rfl

end DiskAddressPacket

/-- `DiskAccess`: the partition's byte offset on the drive and the current
offset into it. -/
structure DiskAccess where
  diskNumber : Nat
  baseOffset : Nat
  currentOffset : Nat
  deriving DecidableEq, Repr

/-- An `AlignedBuffer`, by where it lies in memory and how long it is. -/
structure AlignedBuffer where
  addr : Nat
  len : Nat
  deriving DecidableEq, Repr

/-- The loop of `read_exact_into`: a packet of at most 32 sectors at a time,
aimed at the next part of the buffer, until no sector is left; `fuel` bounds
the rounds. The target's segment, `(target_addr >> 4).try_into().unwrap()`,
must fit a `u16`. -/
def loadSectors (startLba numberOfSectors targetAddr : Nat) : Nat → Except Panic (List DiskAddressPacket)
  | 0 => .ok []
  | fuel + 1 => do
    let sectors := min numberOfSectors 32
    if 2 ^ 16 ≤ targetAddr / 16 then throw .tryFromIntError
    let dap := DiskAddressPacket.fromLba startLba sectors (targetAddr % 16) (targetAddr / 16)
    if numberOfSectors - sectors = 0 then pure [dap]
    else do
      let rest ← loadSectors (startLba + sectors) (numberOfSectors - sectors)
        (targetAddr + sectors * 512) fuel
      pure (dap :: rest)

namespace DiskAccess

/-- `Seek::seek(SeekFrom::Start(offset))`. -/
def seek (self : DiskAccess) (offset : Nat) : DiskAccess × Nat :=
  ({ self with currentOffset := offset }, offset)

/-- `read_exact_into(len, buf)`: the packets it hands the BIOS, with the
access afterwards (`current_offset = end_addr`). The loop runs at most
`number_of_sectors + 1` rounds. `end_lba + 1 - start_lba` cannot go below
zero, since `end_addr` is at least `base_offset + current_offset`. -/
def readExactInto (self : DiskAccess) (len : Nat) (buf : AlignedBuffer) :
    Except Panic (DiskAccess × List DiskAddressPacket) := do
  if len % 512 ≠ 0 then throw .assertFailed
  -- `&mut buf.slice_mut()[..len]`
  if buf.len < len then throw .indexOutOfBounds
  let endAddr ← addU64 (← addU64 self.baseOffset self.currentOffset) len
  let startLba := (self.baseOffset + self.currentOffset) / 512
  if endAddr = 0 then throw .subOverflow
  let endLba := (endAddr - 1) / 512
  let numberOfSectors := endLba + 1 - startLba
  let daps ← loadSectors startLba numberOfSectors buf.addr (numberOfSectors + 1)
  pure ({ self with currentOffset := endAddr }, daps)

/-- `read_exact(len)`: 1024 bytes from the current offset on into `TMP_BUF`
(at `tmpBuf`), and the `len` bytes from the current offset's place in its
sector. Returns the access afterwards, the packets and the bytes. -/
def readExact (self : DiskAccess) (drive memory : Nat → UInt8) (tmpBuf len : Nat) :
    Except Panic (DiskAccess × List DiskAddressPacket × List UInt8) := do
  let currentSectorOffset := self.currentOffset % 512
  if 1024 < currentSectorOffset + len then throw .assertFailed
  let (self, daps) ← self.readExactInto 1024 ⟨tmpBuf, 1024⟩
  let memory := DiskAddressPacket.performLoads daps drive memory
  pure (self, daps, (List.range len).map fun i => memory (tmpBuf + currentSectorOffset + i))

/-- `read_exact` returns as many bytes as asked for. -/
theorem length_readExact {self : DiskAccess} {drive memory : Nat → UInt8} {tmpBuf len : Nat}
    {r : DiskAccess × List DiskAddressPacket × List UInt8}
    (h : self.readExact drive memory tmpBuf len = .ok r) : r.2.2.length = len := by
  unfold readExact at h
  by_cases hfit : 1024 < self.currentOffset % 512 + len
  · simp only [hfit, if_true] at h
    cases h
  · simp only [hfit, if_false] at h
    obtain ⟨⟨_, daps⟩, -, h⟩ := Except.bind_eq_ok.mp h
    cases h
    simp

end DiskAccess

/-! ## The packets -/

open DiskAddressPacket

/-- With enough rounds and a buffer below 1 MiB, the loop's packets copy
exactly the sectors asked for: `numberOfSectors` sectors from `startLba` on
land in memory from `targetAddr` on, and every packet lies inside that
range. -/
theorem loadSectors_eq_ok (drive : Nat → UInt8) :
    ∀ (fuel startLba numberOfSectors targetAddr : Nat), 0 < fuel →
      numberOfSectors ≤ 32 * fuel → targetAddr + numberOfSectors * 512 < 2 ^ 20 →
      ∃ daps, loadSectors startLba numberOfSectors targetAddr fuel = .ok daps ∧
        (∀ dap ∈ daps, targetAddr ≤ dap.target ∧
          dap.target + dap.numberOfSectors * 512 ≤ targetAddr + numberOfSectors * 512 ∧
          dap.startLba * 512 + targetAddr = startLba * 512 + dap.target) ∧
        ∀ memory a, performLoads daps drive memory a =
          if targetAddr ≤ a ∧ a < targetAddr + numberOfSectors * 512 then
            drive (startLba * 512 + (a - targetAddr)) else memory a
  | 0, _, _, _, hfuel, _, _ => absurd hfuel (Nat.lt_irrefl 0)
  | fuel + 1, startLba, numberOfSectors, targetAddr, _, hn, htarget => by
    have hseg : ¬2 ^ 16 ≤ targetAddr / 16 := by omega
    by_cases hlast : numberOfSectors - min numberOfSectors 32 = 0
    · -- the last round: one packet with all that is left
      refine ⟨[fromLba startLba (min numberOfSectors 32) (targetAddr % 16) (targetAddr / 16)],
        by rw [loadSectors, if_neg hseg, if_pos hlast]; rfl, ?_, ?_⟩
      · intro dap hdap
        rw [List.mem_singleton] at hdap
        subst hdap
        rw [target_fromLba, numberOfSectors_fromLba, startLba_fromLba]
        exact ⟨le_refl _, by omega, rfl⟩
      · intro memory a
        have hmin : min numberOfSectors 32 = numberOfSectors := by omega
        simp only [performLoads_cons, performLoads_nil, performLoad, target_fromLba,
          numberOfSectors_fromLba, startLba_fromLba, hmin]
    · -- a full packet of 32 sectors, then the rest from the next 16 KiB (16384 bytes) on
      have h32 : min numberOfSectors 32 = 32 := by omega
      have hmore : numberOfSectors - 32 ≠ 0 := by omega
      have hsplit : targetAddr + 16384 + (numberOfSectors - 32) * 512 =
          targetAddr + numberOfSectors * 512 := by omega
      obtain ⟨rest, hrest, hinside, hload⟩ := loadSectors_eq_ok drive fuel (startLba + 32)
        (numberOfSectors - 32) (targetAddr + 16384) (by omega) (by omega) (by omega)
      rw [hsplit] at hinside hload
      refine ⟨fromLba startLba 32 (targetAddr % 16) (targetAddr / 16) :: rest, ?_, ?_, ?_⟩
      · simp only [loadSectors, hseg, h32, hmore, if_false, hrest]
        rfl
      · intro dap hdap
        rcases List.mem_cons.mp hdap with rfl | hdap
        · rw [target_fromLba, numberOfSectors_fromLba, startLba_fromLba]
          exact ⟨le_refl _, by omega, rfl⟩
        · obtain ⟨hlo, hhi, hlba⟩ := hinside dap hdap
          exact ⟨by omega, hhi, by omega⟩
      · intro memory a
        rw [performLoads_cons, hload]
        unfold performLoad
        rw [target_fromLba, numberOfSectors_fromLba, startLba_fromLba]
        simp only [Nat.reduceMul]
        -- the rest continues the first packet, on the drive and in memory
        rw [show (startLba + 32) * 512 = startLba * 512 + 16384 by omega]
        exact Tiling.copy_adjacent drive memory (startLba * 512) (by omega) a

/-- A loop of one round: at most 32 sectors go out in a single packet. -/
theorem loadSectors_of_le {startLba numberOfSectors targetAddr : Nat} (fuel : Nat)
    (hn : numberOfSectors ≤ 32) (htarget : targetAddr < 2 ^ 20) :
    loadSectors startLba numberOfSectors targetAddr (fuel + 1) =
      .ok [fromLba startLba numberOfSectors (targetAddr % 16) (targetAddr / 16)] := by
  have hseg : ¬2 ^ 16 ≤ targetAddr / 16 := by omega
  have hmin : min numberOfSectors 32 = numberOfSectors := by omega
  rw [loadSectors, if_neg hseg, hmin, Nat.sub_self, if_pos rfl]
  rfl

namespace DiskAccess

/-- `read_exact_into(len, buf)` past its assertions: the loop over the
sectors from the one holding `base_offset + current_offset` to the one
holding the last byte. -/
theorem readExactInto_eq (self : DiskAccess) (len : Nat) (buf : AlignedBuffer)
    (hlen : len % 512 = 0) (hbuf : len ≤ buf.len) (hpos : 0 < len)
    (hend : self.baseOffset + self.currentOffset + len < 2 ^ 64) :
    let start := self.baseOffset + self.currentOffset
    let sectors := (start + len - 1) / 512 + 1 - start / 512
    self.readExactInto len buf =
      (loadSectors (start / 512) sectors buf.addr (sectors + 1)).map
        fun daps => ({ self with currentOffset := start + len }, daps) := by
  intro start sectors
  have hadd : addU64 self.baseOffset self.currentOffset = .ok start := addU64_eq_ok.mpr ⟨by omega, rfl⟩
  have hadd' : addU64 start len = .ok (start + len) := addU64_eq_ok.mpr ⟨hend, rfl⟩
  have hne : start + len ≠ 0 := by omega
  simp only [readExactInto, hlen, ne_eq, not_true_eq_false, if_false, Nat.not_lt.mpr hbuf, hadd,
    Except.ok_bind, hadd', hne]
  cases loadSectors (start / 512) sectors buf.addr (sectors + 1) <;> rfl

/-- `read_exact_into(len, buf)`, when its assertions hold and the buffer lies
below 1 MiB: the sectors from the one holding `base_offset + current_offset`
to the one holding the last byte asked for go to the buffer, from its start
on, and no packet writes outside that range. -/
theorem readExactInto_eq_ok (self : DiskAccess) (len : Nat) (buf : AlignedBuffer)
    (drive : Nat → UInt8) (hlen : len % 512 = 0) (hbuf : len ≤ buf.len) (hpos : 0 < len)
    (hend : self.baseOffset + self.currentOffset + len < 2 ^ 64)
    (hlow : buf.addr + (len + 512) < 2 ^ 20) :
    let start := self.baseOffset + self.currentOffset
    let sectors := (start + len - 1) / 512 + 1 - start / 512
    ∃ daps, self.readExactInto len buf = .ok ({ self with currentOffset := start + len }, daps) ∧
      (∀ dap ∈ daps, buf.addr ≤ dap.target ∧
        dap.target + dap.numberOfSectors * 512 ≤ buf.addr + sectors * 512) ∧
      ∀ memory a, performLoads daps drive memory a =
        if buf.addr ≤ a ∧ a < buf.addr + sectors * 512 then
          drive (start / 512 * 512 + (a - buf.addr)) else memory a := by
  intro start sectors
  -- a range of `len` bytes covers `len / 512` sectors, or one more when unaligned
  have hsectors : sectors ≤ len / 512 + 1 := by omega
  obtain ⟨daps, hdaps, hinside, hload⟩ := loadSectors_eq_ok drive (sectors + 1) (start / 512) sectors
    buf.addr (by omega) (by omega) (by omega)
  refine ⟨daps, ?_, fun dap hdap => ⟨(hinside dap hdap).1, (hinside dap hdap).2.1⟩, hload⟩
  rw [readExactInto_eq self len buf hlen hbuf hpos hend, hdaps]
  rfl

/-- On a sector-aligned offset, `read_exact_into(len, buf)` does what it is
for: its packets write `buf[..len]` and nothing else, with the `len` bytes
from `base_offset + current_offset` on. -/
theorem readExactInto_of_aligned (self : DiskAccess) (len : Nat) (buf : AlignedBuffer)
    (drive : Nat → UInt8) (hlen : len % 512 = 0) (hbuf : len ≤ buf.len) (hpos : 0 < len)
    (hend : self.baseOffset + self.currentOffset + len < 2 ^ 64)
    (hlow : buf.addr + (len + 512) < 2 ^ 20)
    (haligned : (self.baseOffset + self.currentOffset) % 512 = 0) :
    ∃ daps, self.readExactInto len buf =
        .ok ({ self with currentOffset := self.baseOffset + self.currentOffset + len }, daps) ∧
      (∀ dap ∈ daps, buf.addr ≤ dap.target ∧ dap.target + dap.numberOfSectors * 512 ≤ buf.addr + len) ∧
      ∀ memory a, performLoads daps drive memory a =
        if buf.addr ≤ a ∧ a < buf.addr + len then
          drive (self.baseOffset + self.currentOffset + (a - buf.addr)) else memory a := by
  obtain ⟨daps, hdaps, hinside, hload⟩ :=
    readExactInto_eq_ok self len buf drive hlen hbuf hpos hend hlow
  -- an aligned start makes the sector range exactly `len` bytes
  obtain ⟨hstart, hsectors⟩ : (self.baseOffset + self.currentOffset) / 512 * 512 =
        self.baseOffset + self.currentOffset ∧
      ((self.baseOffset + self.currentOffset + len - 1) / 512 + 1 -
        (self.baseOffset + self.currentOffset) / 512) * 512 = len := by omega
  refine ⟨daps, hdaps, fun dap hdap => ?_, fun memory a => ?_⟩
  · rw [← hsectors]
    exact hinside dap hdap
  · rw [hload memory a, hsectors, hstart]

/-- On a partition that starts on a sector, `read_exact(len)` returns the
`len` bytes from `base_offset + current_offset` on, wherever that offset
lies in its sector. -/
theorem readExact_bytes (self : DiskAccess) (drive memory : Nat → UInt8) (tmpBuf len : Nat)
    (hlen : self.currentOffset % 512 + len ≤ 1024)
    (hend : self.baseOffset + self.currentOffset + 1024 < 2 ^ 64)
    (hlow : tmpBuf + 1536 < 2 ^ 20) (hbase : self.baseOffset % 512 = 0) :
    (self.readExact drive memory tmpBuf len).map (·.2.2) =
      .ok ((List.range len).map fun i => drive (self.baseOffset + self.currentOffset + i)) := by
  obtain ⟨daps, hdaps, -, hload⟩ :=
    readExactInto_eq_ok self 1024 ⟨tmpBuf, 1024⟩ drive (by decide) (le_refl _) (by decide) hend
      (by simp only; omega)
  dsimp only at hload
  simp only [readExact, Nat.not_lt.mpr hlen, if_false, hdaps, Except.ok_bind]
  show Except.ok (List.map _ (List.range len)) = _
  congr 1
  apply List.map_congr_left
  intro i hi
  rw [List.mem_range] at hi
  -- the byte lies in the first sectors the packets wrote
  rw [hload memory, if_pos (by omega)]
  exact congrArg drive (by omega)

/-- `read_exact` from an offset that is not on a sector boundary: the 1024
bytes from it touch three sectors, and the one packet for them writes 1536
bytes from the start of the 1024-byte `TMP_BUF` on. -/
theorem readExact_overruns_tmpBuf (self : DiskAccess) (drive memory : Nat → UInt8) (tmpBuf len : Nat)
    (hunaligned : (self.baseOffset + self.currentOffset) % 512 ≠ 0)
    (hlen : self.currentOffset % 512 + len ≤ 1024)
    (hend : self.baseOffset + self.currentOffset + 1024 < 2 ^ 64)
    (hlow : tmpBuf + 1536 < 2 ^ 20) :
    (self.readExact drive memory tmpBuf len).map (·.2.1) =
      .ok [fromLba ((self.baseOffset + self.currentOffset) / 512) 3 (tmpBuf % 16) (tmpBuf / 16)] := by
  have hsectors : (self.baseOffset + self.currentOffset + 1024 - 1) / 512 + 1 -
      (self.baseOffset + self.currentOffset) / 512 = 3 := by omega
  have hone : loadSectors ((self.baseOffset + self.currentOffset) / 512) 3 tmpBuf (3 + 1) =
      .ok [fromLba ((self.baseOffset + self.currentOffset) / 512) 3 (tmpBuf % 16) (tmpBuf / 16)] :=
    loadSectors_of_le 3 (by decide) (by omega)
  have hinto := readExactInto_eq self 1024 ⟨tmpBuf, 1024⟩ (by decide) (le_refl _) (by decide) hend
  simp only [hsectors] at hinto
  rw [hone] at hinto
  simp only [readExact, Nat.not_lt.mpr hlen, if_false, hinto]
  rfl

/-- A FAT lookup's read at offset 6 of a partition that starts on a sector
(the FAT16 entry of cluster 3, with the FAT at the partition's start). -/
theorem readExact_overruns_tmpBuf_at_six :
    ((⟨0x80, 0x100000, 6⟩ : DiskAccess).baseOffset + 6) % 512 ≠ 0 ∧ 6 % 512 + 2 ≤ 1024 ∧
      0x100000 + 6 + 1024 < 2 ^ 64 ∧ 0x8000 + 1536 < 2 ^ 20 ∧
      ((⟨0x80, 0x100000, 6⟩ : DiskAccess).readExact (fun _ => 0) (fun _ => 0) 0x8000 2).map (·.2.1) =
        .ok [fromLba ((0x100000 + 6) / 512) 3 (0x8000 % 16) (0x8000 / 16)] :=
  ⟨by decide, by decide, by decide, by decide,
    readExact_overruns_tmpBuf ⟨0x80, 0x100000, 6⟩ (fun _ => 0) (fun _ => 0) 0x8000 2
      (by decide) (by decide) (by decide) (by decide)⟩

end DiskAccess

end Bios

end Bootloader
