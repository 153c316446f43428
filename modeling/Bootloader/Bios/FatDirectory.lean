/-
Bootloader.Bios.FatDirectory — the root directory of stage 2's FAT file
system (`bios/stage-2/src/fat.rs`: `RawDirectoryEntry::parse`, `eq_name`,
`RawDirectoryEntryLongName::name`, `read_root_dir`, `find_file_in_root_dir`).

`read_root_dir` reads the root directory into the caller's buffer and walks
the whole buffer in 32-byte entries, up to the first entry that starts with
0 and without those that start with `0xE5`; `find_file_in_root_dir` parses
them lazily, drops those whose short name is not UTF-8, and stops at the
first whose name is the one asked for. For a long-name entry it takes the
next entry that parses as the file's 8.3 entry. The model keeps that order,
so that it panics, skips and stops where the code does.

A name is a list of characters (`name.chars()`); a short name is decoded
with `from_utf8` (`Lib.Utf8`), a long name with `decode_utf16`.

* `parse_padded_short_name`: `slice_to_string`'s second `position` counts
  from one past the first non-space byte, so a name field with trailing
  spaces loses its last character (`paddedWord`).
* `findFileInRootDir_matches_truncated_name`: so a lookup of `KERNEBIN`
  finds `KERNEL.BIN`, which the specification names `KERNELBIN`
  (`shortName`).
* `fileClusters_repeats_on_self_loop`: nothing bounds the cluster walk; on
  a FAT entry that points at its own cluster it yields that cluster for ever.
-/
import Bootloader.Bios.Fat
import Bootloader.Lib.Utf8

namespace Bootloader

namespace Bios

/-- `slice::chunks(n)`: consecutive pieces of `n` elements, the last one
shorter. -/
def chunks {α : Type} (n : Nat) (l : List α) : List (List α) :=
  (List.range ((l.length + n - 1) / n)).map fun k => (l.drop (n * k)).take n

/-- `SKIP_SPACE`. -/
def SKIP_SPACE : UInt8 := 0x20

/-- `directory_attributes::LONG_NAME`: `READ_ONLY | HIDDEN | SYSTEM | VOLUME_ID`. -/
def LONG_NAME : UInt8 := 0x0F

/-- `directory_attributes::DIRECTORY`. -/
def DIRECTORY : UInt8 := 0x10

/-- `slice_to_string`: from the first non-space byte to the first space after
it. The second `position` resumes on the same iterator, one past the byte the
first one found, so its index counts from there; its fallback is the whole
slice's length. `&slice[start_idx..end_idx]` panics past the end. -/
def sliceToString (slice : List UInt8) : Except Panic (Except Unit (List Char)) :=
  match slice.findIdx? (· != SKIP_SPACE) with
  | none => .ok (.ok [])
  | some startIdx =>
    let endIdx := startIdx + ((slice.drop (startIdx + 1)).findIdx? (· == SKIP_SPACE)).getD slice.length
    if slice.length < endIdx then .error .indexOutOfBounds
    else match Utf8.decode ((slice.drop startIdx).take (endIdx - startIdx)) with
      | some name => .ok (.ok name)
      | none => .ok (.error ())

/-- `RawDirectoryEntryNormal`. -/
structure RawDirectoryEntryNormal where
  shortFilenameMain : List Char
  shortFilenameExtension : List Char
  attributes : UInt8
  firstCluster : Nat
  fileSize : Nat
  deriving DecidableEq, Repr

/-- `RawDirectoryEntryLongName`: the three pieces of the name (the order and
checksum, which nothing reads, are left out). -/
structure RawDirectoryEntryLongName where
  name1 : List UInt8
  name2 : List UInt8
  name3 : List UInt8
  deriving DecidableEq, Repr

/-- `RawDirectoryEntryLongName::name`: the little-endian UTF-16 units of the
three pieces, up to the first zero, decoded. -/
def RawDirectoryEntryLongName.name (entry : RawDirectoryEntryLongName) : List (Except Nat Char) :=
  let units := (chunks 2 entry.name1 ++ chunks 2 entry.name2 ++ chunks 2 entry.name3).map
    LittleEndian.ofLeBytes
  Utf16.decode (units.takeWhile (· != 0))

/-- `RawDirectoryEntry`. -/
inductive RawDirectoryEntry where
  | normal (entry : RawDirectoryEntryNormal)
  | longName (entry : RawDirectoryEntryLongName)
  deriving DecidableEq, Repr

namespace RawDirectoryEntry

/-- `RawDirectoryEntry::parse` of a 32-byte entry: a long-name entry by its
attributes, any other as an 8.3 entry, `Err(())` when a short-name field is
not UTF-8. -/
def parse (raw : List UInt8) : Except Panic (Except Unit RawDirectoryEntry) := do
  let attributes := raw.getD 11 0
  if attributes = LONG_NAME then
    pure (.ok (.longName ⟨(raw.drop 1).take 10, (raw.drop 14).take 12, (raw.drop 28).take 4⟩))
  else
    match ← sliceToString (raw.take 8) with
    | .error () => pure (.error ())
    | .ok shortFilenameMain =>
      match ← sliceToString ((raw.drop 8).take 3) with
      | .error () => pure (.error ())
      | .ok shortFilenameExtension =>
        let firstClusterHi := leField raw 20 2
        let firstClusterLo := leField raw 26 2
        pure (.ok (.normal ⟨shortFilenameMain, shortFilenameExtension, attributes,
          firstClusterHi <<< 16 ||| firstClusterLo, leField raw 28 4⟩))

/-- `eq_name`: the short name's main part and extension run together, or the
long name, against the characters of `name`. -/
def eqName (self : RawDirectoryEntry) (name : List Char) : Bool :=
  match self with
  | .normal entry => entry.shortFilenameMain ++ entry.shortFilenameExtension == name
  | .longName entry => entry.name == name.map .ok

end RawDirectoryEntry

/-- `root_entries.find(|e| e.eq_name(name))`, over the raw entries with
those that do not parse dropped: the first match, with the raw entries after
it. -/
def findEntry (name : List Char) : List (List UInt8) →
    Except Panic (Option (RawDirectoryEntry × List (List UInt8)))
  | [] => .ok none
  | raw :: rest => do
    match ← RawDirectoryEntry.parse raw with
    | .ok entry => if entry.eqName name then pure (some (entry, rest)) else findEntry name rest
    | .error () => findEntry name rest

/-- `root_entries.next()`: the next raw entry that parses. -/
def nextEntry : List (List UInt8) → Except Panic (Option RawDirectoryEntry)
  | [] => .ok none
  | raw :: rest => do
    match ← RawDirectoryEntry.parse raw with
    | .ok entry => pure (some entry)
    | .error () => nextEntry rest

namespace FileSystem

/-- `read_root_dir`: the root directory read into `buffer`, then the whole
buffer in 32-byte entries up to the end-of-directory mark, without the unused
ones. FAT32 is `unimplemented!`. Returns the entries and the buffer. -/
def readRootDir (fs : FileSystem) (buffer : List UInt8) :
    Except Panic (List (List UInt8) × List UInt8) := do
  match ← fs.bpb.fatType with
  | .fat32 => throw .unsupported
  | .fat12 | .fat16 =>
    let rootDirectorySize ← fs.bpb.rootDirectorySize
    let buffer ← fs.disk.readExactInto fs.bpb.rootDirectoryOffset rootDirectorySize buffer
    let entries := ((chunks 32 buffer).takeWhile fun raw => raw.getD 0 0 != 0).filter
      fun raw => raw.getD 0 0 != 0xE5
    pure (entries, buffer)

/-- The 8.3 entry a match stands for: itself, or for a long name the next
entry that parses, which must be an 8.3 entry. -/
def shortEntry (rawEntry : RawDirectoryEntry) (rest : List (List UInt8)) :
    Except Panic RawDirectoryEntryNormal :=
  match rawEntry with
  | .normal entry => .ok entry
  | .longName _ => do
    match ← nextEntry rest with
    | some (.longName _) => throw .unsupported
    | some (.normal entry) => pure entry
    | none => throw .explicit

/-- `find_file_in_root_dir`: the file of the first entry named `name`, unless
it is a directory. Returns the buffer too. -/
def findFileInRootDir (fs : FileSystem) (name : List Char) (buffer : List UInt8) :
    Except Panic (Option File × List UInt8) := do
  let (entries, buffer) ← fs.readRootDir buffer
  match ← findEntry name entries with
  | none => pure (none, buffer)
  | some (rawEntry, rest) =>
    let entry ← shortEntry rawEntry rest
    if entry.attributes &&& DIRECTORY != 0 then pure (none, buffer)
    else pure (some ⟨entry.firstCluster, entry.fileSize⟩, buffer)

end FileSystem

/-! ## What `find` stops at -/

/-- `findEntry` stops at an entry that parses and has the name asked for,
and returns the raw entries after it. -/
theorem findEntry_eq_some {name : List Char} :
    ∀ {entries : List (List UInt8)} {entry : RawDirectoryEntry} {rest : List (List UInt8)},
      findEntry name entries = .ok (some (entry, rest)) →
      ∃ pre raw, entries = pre ++ raw :: rest ∧ RawDirectoryEntry.parse raw = .ok (.ok entry) ∧
        entry.eqName name = true
  | [], _, _, h => nomatch h
  | raw :: entries, entry, rest, h => by
    rw [findEntry] at h
    -- the head either matches, or is skipped (unparsable or another name)
    cases hparse : RawDirectoryEntry.parse raw with
    | error p => rw [hparse] at h; exact nomatch h
    | ok result =>
      rw [hparse, Except.ok_bind] at h
      cases result with
      | error u =>
        obtain ⟨pre, raw', hsplit, hraw, hname⟩ := findEntry_eq_some h
        exact ⟨raw :: pre, raw', by rw [hsplit, List.cons_append], hraw, hname⟩
      | ok head =>
        dsimp only at h
        split_ifs at h with hmatch
        · cases h
          exact ⟨[], raw, rfl, hparse, hmatch⟩
        · obtain ⟨pre, raw', hsplit, hraw, hname⟩ := findEntry_eq_some h
          exact ⟨raw :: pre, raw', by rw [hsplit, List.cons_append], hraw, hname⟩

/-! ## Short names

`slice_to_string` on a field that holds a word and then spaces keeps the
word only when there are no spaces: otherwise the second search, which
counts from one past the word's first byte, stops one byte short. -/

/-- A word with no space in it, padded with `k` spaces: its first space is
the padding's. -/
theorem findIdx?_space_padded {w : List UInt8} (hw : ∀ b ∈ w, b ≠ SKIP_SPACE) (k : Nat) :
    (w ++ List.replicate k SKIP_SPACE).findIdx? (· == SKIP_SPACE) =
      if k = 0 then none else some w.length := by
  have hword : w.findIdx? (· == SKIP_SPACE) = none :=
    List.findIdx?_eq_none_iff.mpr fun b hb => by simpa using hw b hb
  rw [List.findIdx?_append, hword, List.findIdx?_replicate]
  by_cases hk : k = 0 <;> simp [hk, Nat.pos_iff_ne_zero]

/-- The bytes `slice_to_string` keeps of a word padded with `k` spaces: the
word, less its last byte when there is padding. -/
def paddedWord (w : List UInt8) (k : Nat) : List UInt8 := if k = 0 then w else w.dropLast

/-- `slice_to_string` of a word of ASCII bytes other than the space, padded
with `k` spaces, is `paddedWord`. -/
theorem sliceToString_padded {w : List UInt8} (hw : ∀ b ∈ w, b ≠ SKIP_SPACE ∧ b < 0x80) (k : Nat) :
    sliceToString (w ++ List.replicate k SKIP_SPACE) =
      .ok (.ok ((paddedWord w k).map fun b => Char.ofNat b.toNat)) := by
  have hkept : ∀ b ∈ paddedWord w k, b < 0x80 := by
    intro b hb
    unfold paddedWord at hb
    split_ifs at hb
    · exact (hw b hb).2
    · exact (hw b (List.dropLast_subset w hb)).2
  have hdecode := Utf8.decode_ascii _ hkept
  cases w with
  | nil =>
    -- all spaces: the first search fails
    have hnone : (List.replicate k SKIP_SPACE).findIdx? (· != SKIP_SPACE) = none := by
      simp [List.findIdx?_replicate]
    simp only [List.nil_append, sliceToString, hnone]
    simp [paddedWord]
  | cons c w =>
    have hc : c ≠ SKIP_SPACE := (hw c List.mem_cons_self).1
    have hstart : (c :: w ++ List.replicate k SKIP_SPACE).findIdx? (· != SKIP_SPACE) = some 0 := by
      simp [List.findIdx?_cons, hc]
    have hend := findIdx?_space_padded (fun b hb => (hw b (List.mem_cons_of_mem c hb)).1) k
    rw [sliceToString, hstart]
    dsimp only
    rw [List.drop_one, List.cons_append, List.tail_cons, hend]
    by_cases hk : k = 0
    · -- no padding: the second search fails and its fallback is the slice's length
      subst hk
      have hpadded : paddedWord (c :: w) 0 = c :: w := if_pos rfl
      rw [hpadded] at hdecode
      simp only [List.replicate_zero, List.append_nil, if_pos, Option.getD_none, zero_add, Nat.sub_zero,
        List.drop_zero, List.take_length, lt_self_iff_false, if_false, hdecode, hpadded]
    · -- padding: the second search stops one byte short of the word's end
      have htake : (c :: (w ++ List.replicate k SKIP_SPACE)).take w.length = (c :: w).dropLast := by
        rw [← List.cons_append, List.take_append_of_le_length (by simp), List.dropLast_eq_take]
        rfl
      simp only [if_neg hk, Option.getD_some, zero_add, Nat.sub_zero, List.drop_zero, htake]
      rw [if_neg (by simp; omega), show (c :: w).dropLast = paddedWord (c :: w) k from (if_neg hk).symm,
        hdecode]

/-- `parse` of an 8.3 entry whose two name fields hold words of ASCII bytes
other than the space, padded with spaces: each field comes out as
`paddedWord`, so a field with padding loses its last character. -/
theorem parse_padded_short_name (raw main ext : List UInt8) (hattr : raw.getD 11 0 ≠ LONG_NAME)
    (hmain : raw.take 8 = main ++ List.replicate (8 - main.length) SKIP_SPACE)
    (hext : (raw.drop 8).take 3 = ext ++ List.replicate (3 - ext.length) SKIP_SPACE)
    (hmainw : ∀ b ∈ main, b ≠ SKIP_SPACE ∧ b < 0x80) (hextw : ∀ b ∈ ext, b ≠ SKIP_SPACE ∧ b < 0x80) :
    RawDirectoryEntry.parse raw = .ok (.ok (.normal
      ⟨(paddedWord main (8 - main.length)).map fun b => Char.ofNat b.toNat,
        (paddedWord ext (3 - ext.length)).map fun b => Char.ofNat b.toNat,
        raw.getD 11 0, leField raw 20 2 <<< 16 ||| leField raw 26 2, leField raw 28 4⟩)) := by
  rw [RawDirectoryEntry.parse, if_neg hattr, hmain, sliceToString_padded hmainw, hext,
    sliceToString_padded hextw]
  rfl

/-- The 32 bytes of an 8.3 entry with the 11 bytes of `name`. -/
def shortEntryBytes (name : List UInt8) (attributes : UInt8) (firstCluster fileSize : Nat) :
    List UInt8 :=
  name ++ [attributes] ++ List.replicate 8 0 ++ LittleEndian.leBytes 2 (firstCluster / 65536) ++
    List.replicate 4 0 ++ LittleEndian.leBytes 2 (firstCluster % 65536) ++ LittleEndian.leBytes 4 fileSize

/-- `KERNEL  BIN`. -/
def kernelName : List UInt8 := [0x4B, 0x45, 0x52, 0x4E, 0x45, 0x4C, 0x20, 0x20, 0x42, 0x49, 0x4E]

/-- The entry of `KERNEL.BIN` parses with the main part `KERNE`. -/
theorem parse_padded_short_name_on_kernel :
    (shortEntryBytes kernelName 0x20 2 100).getD 11 0 ≠ LONG_NAME ∧
      (shortEntryBytes kernelName 0x20 2 100).take 8 =
        [0x4B, 0x45, 0x52, 0x4E, 0x45, 0x4C] ++ List.replicate (8 - 6) SKIP_SPACE ∧
      ((shortEntryBytes kernelName 0x20 2 100).drop 8).take 3 =
        [0x42, 0x49, 0x4E] ++ List.replicate (3 - 3) SKIP_SPACE ∧
      RawDirectoryEntry.parse (shortEntryBytes kernelName 0x20 2 100) =
        .ok (.ok (.normal ⟨['K', 'E', 'R', 'N', 'E'], ['B', 'I', 'N'], 0x20, 2, 100⟩)) :=
  ⟨by decide, by decide, by decide,
    (parse_padded_short_name _ [0x4B, 0x45, 0x52, 0x4E, 0x45, 0x4C] [0x42, 0x49, 0x4E]
      (by decide) (by decide) (by decide) (by decide +kernel) (by decide +kernel)).trans (by decide)⟩

/-- The name an 8.3 entry stands for in the FAT specification: its two
fields without their padding, run together. -/
def shortName (raw : List UInt8) : List Char :=
  let trim (field : List UInt8) := (field.reverse.dropWhile (· == SKIP_SPACE)).reverse
  (trim (raw.take 8) ++ trim ((raw.drop 8).take 3)).map fun b => Char.ofNat b.toNat

/-! ## A small volume

A FAT12 volume of 100 sectors of 512 bytes: the boot sector, one FAT of one
sector, a root directory of 16 entries and 97 clusters of one sector. -/

/-- Byte `i` of the boot sector: only its parameter block is set. -/
def smallBootSector (i : Nat) : UInt8 :=
  match i with
  | 12 => 2 | 13 => 1 | 14 => 1 | 16 => 1 | 17 => 16 | 19 => 100 | 22 => 1
  | _ => 0

/-- The parameter block of `smallBootSector`. -/
def smallBpb : Bpb := ⟨512, 1, 1, 1, 16, 100, 1, 0, 0⟩

/-- The small volume with the FAT `fat` and the root directory `rootDir`. -/
def smallVolume (fat : Nat → UInt8) (rootDir : List (List UInt8)) (a : Nat) : UInt8 :=
  if a < 512 then smallBootSector a
  else if a < 1024 then fat (a - 512)
  else if a < 1536 then rootDir.flatten.getD (a - 1024) 0
  else 0

/-- A lookup of `KERNEBIN` on a volume whose only file is `KERNEL.BIN`
finds that file. -/
theorem findFileInRootDir_matches_truncated_name :
    let disk : Disk := Disk.ofBytes (smallVolume (FatType.fat12.tableByte [0xFF8, 0xFFF, 0xFFF])
      [shortEntryBytes kernelName 0x20 2 100])
    ((FileSystem.parse disk).bind fun fs =>
        fs.findFileInRootDir ['K', 'E', 'R', 'N', 'E', 'B', 'I', 'N'] (List.replicate 512 0)).map (·.1) =
      .ok (some ⟨2, 100⟩) ∧
    shortName (shortEntryBytes kernelName 0x20 2 100) = ['K', 'E', 'R', 'N', 'E', 'L', 'B', 'I', 'N'] := by
  decide +kernel

/-- `STAGE__3BIN`. -/
def stage3Name : List UInt8 := [0x53, 0x54, 0x41, 0x47, 0x45, 0x5F, 0x5F, 0x33, 0x42, 0x49, 0x4E]

/-- A file whose first cluster's FAT entry points back at itself: the lookup
finds it, the volume has 97 clusters, and its cluster walk yields cluster 2
as often as it is asked. -/
theorem fileClusters_repeats_on_self_loop :
    let disk : Disk := Disk.ofBytes (smallVolume (FatType.fat12.tableByte [0xFF8, 0xFFF, 2])
      [shortEntryBytes stage3Name 0x20 2 1024])
    ∃ fs file, FileSystem.parse disk = .ok fs ∧
      (fs.findFileInRootDir ['S', 'T', 'A', 'G', 'E', '_', '_', '3', 'B', 'I', 'N']
        (List.replicate 512 0)).map (·.1) = .ok (some file) ∧
      fs.bpb.countOfClusters = .ok 97 ∧
      ∀ n, Traverser.take fs n (FileSystem.fileClusters file) =
        .ok (List.replicate n (.ok ⟨2, 1536, 512⟩)) := by
  intro disk
  have hbpb : Bpb.parse disk = .ok smallBpb := by decide +kernel
  refine ⟨⟨disk, smallBpb⟩, ⟨2, 1024⟩, by rw [FileSystem.parse, hbpb]; rfl, by decide +kernel,
    by decide +kernel, ?_⟩
  -- the walk stands on cluster 2 and the FAT sends it back there
  exact Traverser.take_of_next_eq_self (by decide +kernel)

end Bios

end Bootloader
