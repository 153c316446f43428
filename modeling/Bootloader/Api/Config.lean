/-
Bootloader.Api.Config — the kernel's configuration and its byte format
(`api/src/config.rs`, `api/build.rs`).

The `entry_point` macro stores `BootloaderConfig::serialize` of the kernel's
configuration in a section of the kernel's ELF file; the BIOS and UEFI
loaders read the section back with `BootloaderConfig::deserialize`. Both are
modelled here over byte lists. The `concat_i_j` functions that `build.rs`
generates append a `[u8; i]` to a `[u8; j]`, which on lists is `++`; the
fixed-size arrays of the source are lists whose lengths the lemmas state.

`split_array_ref` uses `split_at`, which panics on a slice shorter than the
requested array. `deserialize` first checks the slice is 124 bytes long, and
`Mapping::deserialize` takes a `[u8; 9]`, so no split below runs short; the
model's `splitArrayRef` is `take` and `drop`.

The main result is `deserialize_eq_ok_iff_eq_serialize`: the decoder accepts
exactly the encodings, and decodes each to the configuration it encodes. It
is assembled from one lemma per field reader and one per block of the
decoder (the version, the mappings and the frame buffer requirements), each
stated on a block followed by arbitrary bytes.
-/
import Bootloader.Lib.Except
import Bootloader.Lib.LittleEndian

namespace Bootloader

/-! ## The configuration -/

/-- `ApiVersion`: the semver version of the bootloader API. -/
structure ApiVersion where
  versionMajor : UInt16
  versionMinor : UInt16
  versionPatch : UInt16
  preRelease : Bool
  deriving DecidableEq, Repr

/-- `Mapping`: where the bootloader maps a memory region. -/
inductive Mapping where
  /-- Look for an unused virtual memory region at runtime. -/
  | dynamic
  /-- Map the region at the given virtual address. -/
  | fixedAddress (addr : UInt64)
  deriving DecidableEq, Repr

/-- `Mappings`: the virtual memory mappings the bootloader creates. -/
structure Mappings where
  kernelStack : Mapping
  bootInfo : Mapping
  framebuffer : Mapping
  physicalMemory : Option Mapping
  pageTableRecursive : Option Mapping
  aslr : Bool
  dynamicRangeStart : Option UInt64
  dynamicRangeEnd : Option UInt64
  ramdiskMemory : Mapping
  deriving DecidableEq, Repr

/-- `FrameBuffer`: the kernel's requirements on the frame buffer format. -/
structure FrameBuffer where
  minimumFramebufferHeight : Option UInt64
  minimumFramebufferWidth : Option UInt64
  deriving DecidableEq, Repr

/-- `BootloaderConfig`. -/
structure BootloaderConfig where
  version : ApiVersion
  mappings : Mappings
  kernelStackSize : UInt64
  frameBuffer : FrameBuffer
  deriving DecidableEq, Repr

/-- `Mapping::new_default`. -/
def Mapping.newDefault : Mapping := .dynamic

/-- `ApiVersion::new_default`: the crate's own version, 0.11.9, which
`build.rs` reads from the manifest; it has no pre-release suffix. -/
def ApiVersion.newDefault : ApiVersion :=
  { versionMajor := 0, versionMinor := 11, versionPatch := 9, preRelease := false }

/-- `Mappings::new_default`. -/
def Mappings.newDefault : Mappings :=
  { kernelStack := Mapping.newDefault, bootInfo := Mapping.newDefault,
    framebuffer := Mapping.newDefault, physicalMemory := none, pageTableRecursive := none,
    aslr := false, dynamicRangeStart := none, dynamicRangeEnd := none,
    ramdiskMemory := Mapping.newDefault }

/-- `FrameBuffer::new_default`. -/
def FrameBuffer.newDefault : FrameBuffer :=
  { minimumFramebufferHeight := none, minimumFramebufferWidth := none }

/-- `BootloaderConfig::new_default`: an 80 KiB kernel stack. -/
def BootloaderConfig.newDefault : BootloaderConfig :=
  { kernelStackSize := 80 * 1024, version := ApiVersion.newDefault,
    mappings := Mappings.newDefault, frameBuffer := FrameBuffer.newDefault }

/-! ## The byte format -/

/-- `split_array_ref`: the first `n` elements and the rest. -/
def splitArrayRef {α : Type} (n : Nat) (s : List α) : List α × List α := (s.take n, s.drop n)

/-- An optional field as `serialize` writes it: the tag `1` and the value's
bytes, or `len` zero bytes. -/
def serializeOption {α : Type} (len : Nat) (enc : α → List UInt8) : Option α → List UInt8
  | none => List.replicate len 0
  | some a => [1] ++ enc a

/-- An optional field as `deserialize` reads it: the tag `[0]` with a payload
of `zeros` zero bytes is `None`, the tag `[1]` is `Some` of the payload, and
anything else is refused with the field's message. -/
def deserializeOption {α : Type} (msg : String) (zeros : Nat) (dec : List UInt8 → Except String α)
    (tag payload : List UInt8) : Except String (Option α) :=
  if tag = [0] ∧ payload = List.replicate zeros 0 then pure none
  else if tag = [1] then some <$> dec payload
  else throw msg

/-- A boolean field as `deserialize` reads it: `0` is false, `1` is true, and
anything else is refused with the field's message. -/
def deserializeBool (msg : String) (b : List UInt8) : Except String Bool :=
  if b = [0] then pure false
  else if b = [1] then pure true
  else throw msg

namespace Mapping

/-- `Mapping::serialize`. -/
def serialize : Mapping → List UInt8
  | .dynamic => List.replicate 9 0
  | .fixedAddress addr => [1] ++ addr.toLeBytes

/-- `Mapping::deserialize`. -/
def deserialize (serialized : List UInt8) : Except String Mapping := do
  let (variant, s) := splitArrayRef 1 serialized
  let (addr, s) := splitArrayRef 8 s
  if !s.isEmpty then throw "invalid mapping format"
  if variant = [0] ∧ addr = List.replicate 8 0 then pure .dynamic
  else if variant = [1] then pure (.fixedAddress (UInt64.fromLeBytes addr))
  else throw "invalid mapping value"

end Mapping

namespace BootloaderConfig

/-- `BootloaderConfig::UUID`. -/
def UUID : List UInt8 :=
  [0x74, 0x3C, 0xA9, 0x61, 0x09, 0x36, 0x46, 0xA0, 0xBB, 0x55, 0x5C, 0x15, 0x89, 0x15, 0x25, 0x3D]

/-- `BootloaderConfig::SERIALIZED_LEN`. -/
def SERIALIZED_LEN : Nat := 124

/-- The `version` block of `serialize`. -/
def versionBytes (v : ApiVersion) : List UInt8 :=
  let one := v.versionMajor.toLeBytes ++ v.versionMinor.toLeBytes
  let two := v.versionPatch.toLeBytes ++ [v.preRelease.toUInt8]
  one ++ two

/-- `BootloaderConfig::serialize`. -/
def serialize (c : BootloaderConfig) : List UInt8 :=
  let buf := UUID ++ versionBytes c.version
  let buf := buf ++ c.kernelStackSize.toLeBytes
  let buf := buf ++ c.mappings.kernelStack.serialize
  let buf := buf ++ c.mappings.bootInfo.serialize
  let buf := buf ++ c.mappings.framebuffer.serialize
  let buf := buf ++ serializeOption 10 Mapping.serialize c.mappings.physicalMemory
  let buf := buf ++ serializeOption 10 Mapping.serialize c.mappings.pageTableRecursive
  let buf := buf ++ [c.mappings.aslr.toUInt8]
  let buf := buf ++ serializeOption 9 UInt64.toLeBytes c.mappings.dynamicRangeStart
  let buf := buf ++ serializeOption 9 UInt64.toLeBytes c.mappings.dynamicRangeEnd
  let buf := buf ++ c.mappings.ramdiskMemory.serialize
  let buf := buf ++ serializeOption 9 UInt64.toLeBytes c.frameBuffer.minimumFramebufferHeight
  buf ++ serializeOption 9 UInt64.toLeBytes c.frameBuffer.minimumFramebufferWidth

/-- The `version` block of `deserialize`. -/
def deserializeVersion (s : List UInt8) : Except String (ApiVersion × List UInt8) := do
  let (major, s) := splitArrayRef 2 s
  let (minor, s) := splitArrayRef 2 s
  let (patch, s) := splitArrayRef 2 s
  let (pre, s) := splitArrayRef 1 s
  let pre ← deserializeBool "invalid pre version" pre
  let version : ApiVersion :=
    { versionMajor := UInt16.fromLeBytes major, versionMinor := UInt16.fromLeBytes minor,
      versionPatch := UInt16.fromLeBytes patch, preRelease := pre }
  pure (version, s)

/-- The `mappings` block of `deserialize`: every field is split off first,
then the fields are decoded in the order the struct literal lists them. -/
def deserializeMappings (s : List UInt8) : Except String (Mappings × List UInt8) := do
  let (kernelStack, s) := splitArrayRef 9 s
  let (bootInfo, s) := splitArrayRef 9 s
  let (framebuffer, s) := splitArrayRef 9 s
  let (physicalMemorySome, s) := splitArrayRef 1 s
  let (physicalMemory, s) := splitArrayRef 9 s
  let (pageTableRecursiveSome, s) := splitArrayRef 1 s
  let (pageTableRecursive, s) := splitArrayRef 9 s
  let (alsr, s) := splitArrayRef 1 s
  let (dynamicRangeStartSome, s) := splitArrayRef 1 s
  let (dynamicRangeStart, s) := splitArrayRef 8 s
  let (dynamicRangeEndSome, s) := splitArrayRef 1 s
  let (dynamicRangeEnd, s) := splitArrayRef 8 s
  let (ramdiskMemory, s) := splitArrayRef 9 s
  let kernelStack ← Mapping.deserialize kernelStack
  let bootInfo ← Mapping.deserialize bootInfo
  let framebuffer ← Mapping.deserialize framebuffer
  let physicalMemory ← deserializeOption "invalid phys memory value" 9 Mapping.deserialize
    physicalMemorySome physicalMemory
  let pageTableRecursive ← deserializeOption "invalid page table recursive value" 9
    Mapping.deserialize pageTableRecursiveSome pageTableRecursive
  let aslr ← deserializeBool "invalid aslr value" alsr
  let dynamicRangeStart ← deserializeOption "invalid dynamic range start value" 8
    (fun b => pure (UInt64.fromLeBytes b)) dynamicRangeStartSome dynamicRangeStart
  let dynamicRangeEnd ← deserializeOption "invalid dynamic range end value" 8
    (fun b => pure (UInt64.fromLeBytes b)) dynamicRangeEndSome dynamicRangeEnd
  let ramdiskMemory ← Mapping.deserialize ramdiskMemory
  let mappings : Mappings :=
    { kernelStack, bootInfo, framebuffer, physicalMemory, pageTableRecursive, aslr,
      dynamicRangeStart, dynamicRangeEnd, ramdiskMemory }
  pure (mappings, s)

/-- The `frame_buffer` block of `deserialize`. -/
def deserializeFrameBuffer (s : List UInt8) : Except String (FrameBuffer × List UInt8) := do
  let (minFramebufferHeightSome, s) := splitArrayRef 1 s
  let (minFramebufferHeight, s) := splitArrayRef 8 s
  let (minFramebufferWidthSome, s) := splitArrayRef 1 s
  let (minFramebufferWidth, s) := splitArrayRef 8 s
  let minimumFramebufferHeight ← deserializeOption "minimum_framebuffer_height invalid" 8
    (fun b => pure (UInt64.fromLeBytes b)) minFramebufferHeightSome minFramebufferHeight
  let minimumFramebufferWidth ← deserializeOption "minimum_framebuffer_width invalid" 8
    (fun b => pure (UInt64.fromLeBytes b)) minFramebufferWidthSome minFramebufferWidth
  pure ({ minimumFramebufferHeight, minimumFramebufferWidth }, s)

/-- `BootloaderConfig::deserialize`. -/
def deserialize (serialized : List UInt8) : Except String BootloaderConfig := do
  if serialized.length ≠ SERIALIZED_LEN then throw "invalid len"
  let (uuid, s) := splitArrayRef 16 serialized
  if uuid ≠ UUID then throw "invalid UUID"
  let (version, s) ← deserializeVersion s
  let (kernelStackSize, s) := splitArrayRef 8 s
  let (mappings, s) ← deserializeMappings s
  let (frameBuffer, s) ← deserializeFrameBuffer s
  if !s.isEmpty then throw "unexpected rest"
  pure { version, kernelStackSize := UInt64.fromLeBytes kernelStackSize, mappings, frameBuffer }

end BootloaderConfig

/-! ## Splitting -/

theorem splitArrayRef_append {α : Type} {a : List α} {n : Nat} (b : List α) (h : a.length = n) :
    splitArrayRef n (a ++ b) = (a, b) := by
  rw [splitArrayRef, List.take_left' h, List.drop_left' h]

theorem splitArrayRef_of_length {α : Type} {a : List α} {n : Nat} (h : a.length = n) :
    splitArrayRef n a = (a, []) := by
  simpa using splitArrayRef_append [] h

/-- A list of at least `n` elements is `n` elements followed by the rest. -/
theorem exists_append_of_le_length {α : Type} {s : List α} {n : Nat} (h : n ≤ s.length) :
    ∃ a b, s = a ++ b ∧ a.length = n :=
  ⟨s.take n, s.drop n, (List.take_append_drop n s).symm, List.length_take_of_le h⟩

/-- A list of `n + k` elements is `n` elements followed by `k`. -/
theorem exists_append_of_length_eq_add {α : Type} {s : List α} {n k : Nat} (h : s.length = n + k) :
    ∃ a b, s = a ++ b ∧ a.length = n ∧ b.length = k :=
  ⟨s.take n, s.drop n, (List.take_append_drop n s).symm, by simp [h], by simp [h]⟩

/-! ## Fields -/

@[simp] theorem deserializeBool_toUInt8 (msg : String) (x : Bool) :
    deserializeBool msg [x.toUInt8] = .ok x := by
  cases x <;> rfl

@[simp] theorem deserializeBool_eq_ok_iff {msg : String} {b : List UInt8} {x : Bool} :
    deserializeBool msg b = .ok x ↔ b = [x.toUInt8] := by
  unfold deserializeBool
  split_ifs with h0 h1
  · subst h0
    cases x <;> decide
  · subst h1
    cases x <;> decide
  · -- a byte other than `0` and `1` is no boolean's encoding
    cases x <;> simp [Bool.toUInt8, h0, h1]

namespace Mapping

@[simp] theorem length_serialize (m : Mapping) : m.serialize.length = 9 := by
  cases m <;> simp [serialize]

@[simp] theorem deserialize_serialize (m : Mapping) : deserialize m.serialize = .ok m := by
  cases m with
  | dynamic => decide
  | fixedAddress addr =>
    have hlen : addr.toLeBytes.length = 8 := UInt64.length_toLeBytes addr
    simp only [serialize, deserialize, splitArrayRef_append _ List.length_singleton,
      splitArrayRef_of_length hlen]
    simp

/-- A nine-byte string `deserialize` accepts is the encoding of its result. -/
theorem eq_serialize_of_deserialize {b : List UInt8} (h : b.length = 9) {m : Mapping}
    (hm : deserialize b = .ok m) : b = m.serialize := by
  obtain ⟨variant, addr, rfl, hv⟩ := exists_append_of_le_length (show 1 ≤ b.length by omega)
  have ha : addr.length = 8 := by simp at h; omega
  obtain ⟨t, rfl⟩ := List.length_eq_one_iff.mp hv
  simp only [deserialize, splitArrayRef_append _ hv, splitArrayRef_of_length ha,
    List.isEmpty_nil, Bool.not_true, Bool.false_eq_true, if_false] at hm
  split_ifs at hm with h0 h1
  · obtain ⟨h0, rfl⟩ := h0
    cases Except.pure_eq_ok.mp hm
    rw [h0]
    rfl
  · cases Except.pure_eq_ok.mp hm
    rw [h1, serialize, UInt64.toLeBytes_fromLeBytes ha]

end Mapping

section Option

variable {α : Type} {w : Nat} {enc : α → List UInt8} {dec : List UInt8 → Except String α}

/-- An optional field's encoding is its tag byte followed by its payload. -/
theorem serializeOption_succ (o : Option α) :
    serializeOption (w + 1) enc o = [o.isSome.toUInt8] ++ o.elim (List.replicate w 0) enc := by
  cases o <;> rfl

theorem length_elim (henc : ∀ a, (enc a).length = w) (o : Option α) :
    (o.elim (List.replicate w 0) enc).length = w := by
  cases o with
  | none => exact List.length_replicate
  | some a => exact henc a

theorem deserializeOption_elim (msg : String) (hdec : ∀ a, dec (enc a) = .ok a) (o : Option α) :
    deserializeOption msg w dec [o.isSome.toUInt8] (o.elim (List.replicate w 0) enc) = .ok o := by
  cases o with
  | none => simp [deserializeOption, Bool.toUInt8]
  | some a => simp [deserializeOption, Bool.toUInt8, hdec]

/-- An optional field `deserialize` accepts is written as `serialize` writes it. -/
theorem eq_of_deserializeOption {msg : String}
    (hdec : ∀ p a, p.length = w → dec p = .ok a → p = enc a) {tag payload : List UInt8}
    (hp : payload.length = w) {o : Option α} (h : deserializeOption msg w dec tag payload = .ok o) :
    tag = [o.isSome.toUInt8] ∧ payload = o.elim (List.replicate w 0) enc := by
  unfold deserializeOption at h
  split_ifs at h with h0 h1
  · cases Except.pure_eq_ok.mp h
    simpa [Bool.toUInt8] using h0
  · obtain ⟨a, ha, rfl⟩ := Except.map_eq_ok.mp h
    exact ⟨h1, hdec payload a hp ha⟩

end Option

theorem pure_fromLeBytes_toLeBytes (a : UInt64) :
    (pure (UInt64.fromLeBytes a.toLeBytes) : Except String UInt64) = .ok a := by
  rw [UInt64.fromLeBytes_toLeBytes]
  rfl

/-- The `u64` payload of an optional field, which no byte string fails. -/
theorem eq_toLeBytes_of_pure (p : List UInt8) (a : UInt64) (hp : p.length = 8)
    (h : (pure (UInt64.fromLeBytes p) : Except String UInt64) = .ok a) : p = a.toLeBytes :=
  (UInt64.fromLeBytes_eq_iff hp a).mp (Except.pure_eq_ok.mp h)

namespace BootloaderConfig

/-! ## Blocks -/

@[simp] theorem length_versionBytes (v : ApiVersion) : (versionBytes v).length = 7 := by
  simp [versionBytes]

theorem deserializeVersion_versionBytes (v : ApiVersion) (rest : List UInt8) :
    deserializeVersion (versionBytes v ++ rest) = .ok (v, rest) := by
  simp only [deserializeVersion, versionBytes, List.append_assoc,
    splitArrayRef_append _ (UInt16.length_toLeBytes _), splitArrayRef_append _ List.length_singleton]
  simp

theorem eq_versionBytes_of_deserializeVersion {p rest rest' : List UInt8} (hp : p.length = 7)
    {v : ApiVersion} (h : deserializeVersion (p ++ rest) = .ok (v, rest')) :
    p = versionBytes v ∧ rest' = rest := by
  obtain ⟨major, p, rfl, h1⟩ := exists_append_of_le_length (show 2 ≤ p.length by omega)
  obtain ⟨minor, p, rfl, h2⟩ := exists_append_of_le_length (show 2 ≤ p.length by simp at hp; omega)
  obtain ⟨patch, pre, rfl, h3⟩ := exists_append_of_le_length (show 2 ≤ p.length by simp at hp; omega)
  have h4 : pre.length = 1 := by simp at hp; omega
  simp only [deserializeVersion, List.append_assoc, splitArrayRef_append _ h1,
    splitArrayRef_append _ h2, splitArrayRef_append _ h3, splitArrayRef_append _ h4,
    Except.bind_eq_ok, deserializeBool_eq_ok_iff, Except.pure_eq_ok, Prod.mk.injEq] at h
  obtain ⟨preRelease, rfl, rfl, rfl⟩ := h
  simp [versionBytes, UInt16.toLeBytes_fromLeBytes h1, UInt16.toLeBytes_fromLeBytes h2,
    UInt16.toLeBytes_fromLeBytes h3]

/-- The part of `serialize` that writes the mappings. -/
def mappingsBytes (m : Mappings) : List UInt8 :=
  m.kernelStack.serialize ++ m.bootInfo.serialize ++ m.framebuffer.serialize ++
    serializeOption 10 Mapping.serialize m.physicalMemory ++
    serializeOption 10 Mapping.serialize m.pageTableRecursive ++ [m.aslr.toUInt8] ++
    serializeOption 9 UInt64.toLeBytes m.dynamicRangeStart ++
    serializeOption 9 UInt64.toLeBytes m.dynamicRangeEnd ++ m.ramdiskMemory.serialize

/-- The part of `serialize` that writes the frame buffer requirements. -/
def frameBufferBytes (f : FrameBuffer) : List UInt8 :=
  serializeOption 9 UInt64.toLeBytes f.minimumFramebufferHeight ++
    serializeOption 9 UInt64.toLeBytes f.minimumFramebufferWidth

theorem length_elim_mapping (o : Option Mapping) :
    (o.elim (List.replicate 9 0) Mapping.serialize).length = 9 :=
  length_elim Mapping.length_serialize o

theorem length_elim_u64 (o : Option UInt64) :
    (o.elim (List.replicate 8 0) UInt64.toLeBytes).length = 8 :=
  length_elim UInt64.length_toLeBytes o

theorem deserializeOption_elim_mapping (msg : String) (o : Option Mapping) :
    deserializeOption msg 9 Mapping.deserialize [o.isSome.toUInt8]
      (o.elim (List.replicate 9 0) Mapping.serialize) = .ok o :=
  deserializeOption_elim msg Mapping.deserialize_serialize o

theorem deserializeOption_elim_u64 (msg : String) (o : Option UInt64) :
    deserializeOption msg 8 (fun b => pure (UInt64.fromLeBytes b)) [o.isSome.toUInt8]
      (o.elim (List.replicate 8 0) UInt64.toLeBytes) = .ok o :=
  deserializeOption_elim msg pure_fromLeBytes_toLeBytes o

@[simp] theorem length_mappingsBytes (m : Mappings) : (mappingsBytes m).length = 75 := by
  simp only [mappingsBytes, serializeOption_succ, List.length_append, Mapping.length_serialize,
    length_elim_mapping, length_elim_u64, List.length_singleton]

@[simp] theorem length_frameBufferBytes (f : FrameBuffer) : (frameBufferBytes f).length = 18 := by
  simp only [frameBufferBytes, serializeOption_succ, List.length_append, length_elim_u64,
    List.length_singleton]

theorem deserializeMappings_mappingsBytes (m : Mappings) (rest : List UInt8) :
    deserializeMappings (mappingsBytes m ++ rest) = .ok (m, rest) := by
  simp only [deserializeMappings, mappingsBytes, serializeOption_succ, List.append_assoc,
    splitArrayRef_append _ (Mapping.length_serialize _),
    splitArrayRef_append _ List.length_singleton, splitArrayRef_append _ (length_elim_mapping _),
    splitArrayRef_append _ (length_elim_u64 _), Mapping.deserialize_serialize,
    deserializeOption_elim_mapping, deserializeOption_elim_u64, deserializeBool_toUInt8,
    Except.ok_bind]
  rfl

theorem deserializeFrameBuffer_frameBufferBytes (f : FrameBuffer) (rest : List UInt8) :
    deserializeFrameBuffer (frameBufferBytes f ++ rest) = .ok (f, rest) := by
  simp only [deserializeFrameBuffer, frameBufferBytes, serializeOption_succ, List.append_assoc,
    splitArrayRef_append _ List.length_singleton, splitArrayRef_append _ (length_elim_u64 _),
    deserializeOption_elim_u64, Except.ok_bind]
  rfl

/-- A mapping block `deserialize` accepts is written as `serialize` writes it. -/
theorem eq_mappingsBytes_of_deserializeMappings {p rest rest' : List UInt8} (hp : p.length = 75)
    {m : Mappings} (h : deserializeMappings (p ++ rest) = .ok (m, rest')) :
    p = mappingsBytes m ∧ rest' = rest := by
  -- cut `p` into the thirteen fields the block splits off
  obtain ⟨ks, p, rfl, h1, hp⟩ := exists_append_of_length_eq_add (show p.length = 9 + 66 from hp)
  obtain ⟨bi, p, rfl, h2, hp⟩ := exists_append_of_length_eq_add (show p.length = 9 + 57 from hp)
  obtain ⟨fb, p, rfl, h3, hp⟩ := exists_append_of_length_eq_add (show p.length = 9 + 48 from hp)
  obtain ⟨pmTag, p, rfl, h4, hp⟩ := exists_append_of_length_eq_add (show p.length = 1 + 47 from hp)
  obtain ⟨pm, p, rfl, h5, hp⟩ := exists_append_of_length_eq_add (show p.length = 9 + 38 from hp)
  obtain ⟨ptTag, p, rfl, h6, hp⟩ := exists_append_of_length_eq_add (show p.length = 1 + 37 from hp)
  obtain ⟨pt, p, rfl, h7, hp⟩ := exists_append_of_length_eq_add (show p.length = 9 + 28 from hp)
  obtain ⟨al, p, rfl, h8, hp⟩ := exists_append_of_length_eq_add (show p.length = 1 + 27 from hp)
  obtain ⟨dsTag, p, rfl, h9, hp⟩ := exists_append_of_length_eq_add (show p.length = 1 + 26 from hp)
  obtain ⟨ds, p, rfl, h10, hp⟩ := exists_append_of_length_eq_add (show p.length = 8 + 18 from hp)
  obtain ⟨deTag, p, rfl, h11, hp⟩ := exists_append_of_length_eq_add (show p.length = 1 + 17 from hp)
  obtain ⟨de, rd, rfl, h12, h13⟩ := exists_append_of_length_eq_add (show p.length = 8 + 9 from hp)
  simp only [deserializeMappings, List.append_assoc, splitArrayRef_append _ h1,
    splitArrayRef_append _ h2, splitArrayRef_append _ h3, splitArrayRef_append _ h4,
    splitArrayRef_append _ h5, splitArrayRef_append _ h6, splitArrayRef_append _ h7,
    splitArrayRef_append _ h8, splitArrayRef_append _ h9, splitArrayRef_append _ h10,
    splitArrayRef_append _ h11, splitArrayRef_append _ h12, splitArrayRef_append _ h13,
    Except.bind_eq_ok, Except.pure_eq_ok, Prod.mk.injEq] at h
  obtain ⟨ks', hks, bi', hbi, fb', hfb, pm', hpm, pt', hpt, al', hal, ds', hds, de', hde, rd', hrd,
    rfl, rfl⟩ := h
  -- each field is the encoding of what was read from it
  have hmap : ∀ p a, p.length = 9 → Mapping.deserialize p = .ok a → p = a.serialize :=
    fun _ _ hp ha => Mapping.eq_serialize_of_deserialize hp ha
  obtain rfl := hmap ks ks' h1 hks
  obtain rfl := hmap bi bi' h2 hbi
  obtain rfl := hmap fb fb' h3 hfb
  obtain ⟨rfl, rfl⟩ := eq_of_deserializeOption hmap h5 hpm
  obtain ⟨rfl, rfl⟩ := eq_of_deserializeOption hmap h7 hpt
  obtain rfl := deserializeBool_eq_ok_iff.mp hal
  obtain ⟨rfl, rfl⟩ := eq_of_deserializeOption eq_toLeBytes_of_pure h10 hds
  obtain ⟨rfl, rfl⟩ := eq_of_deserializeOption eq_toLeBytes_of_pure h12 hde
  obtain rfl := hmap rd rd' h13 hrd
  simp only [mappingsBytes, serializeOption_succ, List.append_assoc, and_true]

/-- A frame buffer block `deserialize` accepts is written as `serialize` writes it. -/
theorem eq_frameBufferBytes_of_deserializeFrameBuffer {p rest rest' : List UInt8}
    (hp : p.length = 18) {f : FrameBuffer} (h : deserializeFrameBuffer (p ++ rest) = .ok (f, rest')) :
    p = frameBufferBytes f ∧ rest' = rest := by
  obtain ⟨hTag, p, rfl, h1, hp⟩ := exists_append_of_length_eq_add (show p.length = 1 + 17 from hp)
  obtain ⟨ht, p, rfl, h2, hp⟩ := exists_append_of_length_eq_add (show p.length = 8 + 9 from hp)
  obtain ⟨wTag, wd, rfl, h3, h4⟩ := exists_append_of_length_eq_add (show p.length = 1 + 8 from hp)
  simp only [deserializeFrameBuffer, List.append_assoc, splitArrayRef_append _ h1,
    splitArrayRef_append _ h2, splitArrayRef_append _ h3, splitArrayRef_append _ h4,
    Except.bind_eq_ok, Except.pure_eq_ok, Prod.mk.injEq] at h
  obtain ⟨ht', hht, wd', hwd, rfl, rfl⟩ := h
  obtain ⟨rfl, rfl⟩ := eq_of_deserializeOption eq_toLeBytes_of_pure h2 hht
  obtain ⟨rfl, rfl⟩ := eq_of_deserializeOption eq_toLeBytes_of_pure h4 hwd
  simp only [frameBufferBytes, serializeOption_succ, List.append_assoc, and_true]

/-! ## The whole configuration -/

theorem serialize_eq (c : BootloaderConfig) :
    c.serialize = UUID ++ (versionBytes c.version ++ (c.kernelStackSize.toLeBytes ++
      (mappingsBytes c.mappings ++ frameBufferBytes c.frameBuffer))) := by
  simp only [serialize, mappingsBytes, frameBufferBytes, List.append_assoc]

theorem length_UUID : UUID.length = 16 := rfl

@[simp] theorem length_serialize (c : BootloaderConfig) : c.serialize.length = SERIALIZED_LEN := by
  simp only [serialize_eq, List.length_append, length_UUID, length_versionBytes,
    UInt64.length_toLeBytes, length_mappingsBytes, length_frameBufferBytes]
  rfl

theorem deserialize_serialize (c : BootloaderConfig) : deserialize c.serialize = .ok c := by
  have hlen : ¬c.serialize.length ≠ SERIALIZED_LEN := not_not.mpr (length_serialize c)
  have hfb := deserializeFrameBuffer_frameBufferBytes c.frameBuffer []
  rw [List.append_nil] at hfb
  simp only [deserialize, hlen, if_false]
  rw [serialize_eq]
  simp only [splitArrayRef_append _ length_UUID, ne_eq, not_true_eq_false, if_false,
    deserializeVersion_versionBytes, Except.ok_bind, splitArrayRef_append _ (UInt64.length_toLeBytes _),
    deserializeMappings_mappingsBytes, hfb, List.isEmpty_nil, Bool.not_true, Bool.false_eq_true,
    UInt64.fromLeBytes_toLeBytes]
  rfl

/-- A byte string `deserialize` accepts is the encoding of its result. -/
theorem eq_serialize_of_deserialize {b : List UInt8} {c : BootloaderConfig}
    (h : deserialize b = .ok c) : b = c.serialize := by
  have hlen : b.length = SERIALIZED_LEN := by
    by_contra hne
    simp [deserialize, hne] at h
  simp only [deserialize, hlen, ne_eq, not_true_eq_false, if_false] at h
  -- cut `b` into the blocks `deserialize` reads
  obtain ⟨uuid, b, rfl, h1, hb⟩ := exists_append_of_length_eq_add (show b.length = 16 + 108 from hlen)
  obtain ⟨pv, b, rfl, h2, hb⟩ := exists_append_of_length_eq_add (show b.length = 7 + 101 from hb)
  obtain ⟨k, b, rfl, h3, hb⟩ := exists_append_of_length_eq_add (show b.length = 8 + 93 from hb)
  obtain ⟨pm, b, rfl, h4, hb⟩ := exists_append_of_length_eq_add (show b.length = 75 + 18 from hb)
  obtain ⟨pf, r, rfl, h5, h6⟩ := exists_append_of_length_eq_add (show b.length = 18 + 0 from hb)
  simp only [splitArrayRef_append _ h1] at h
  split_ifs at h with hu
  case neg => simp at h
  subst hu
  obtain ⟨⟨v, s⟩, hv, h⟩ := Except.bind_eq_ok.mp h
  obtain ⟨rfl, rfl⟩ := eq_versionBytes_of_deserializeVersion h2 hv
  simp only [splitArrayRef_append _ h3] at h
  obtain ⟨⟨m, s⟩, hm, h⟩ := Except.bind_eq_ok.mp h
  obtain ⟨rfl, rfl⟩ := eq_mappingsBytes_of_deserializeMappings h4 hm
  obtain ⟨⟨f, s⟩, hf, h⟩ := Except.bind_eq_ok.mp h
  obtain ⟨rfl, rfl⟩ := eq_frameBufferBytes_of_deserializeFrameBuffer h5 hf
  obtain rfl := List.eq_nil_of_length_eq_zero h6
  simp only [List.isEmpty_nil, Bool.not_true, Bool.false_eq_true, if_false, Except.pure_eq_ok] at h
  subst h
  rw [serialize_eq, UInt64.toLeBytes_fromLeBytes h3, List.append_nil]

/-- `serialize` and `deserialize` are inverse over the whole format: every
encoding is 124 bytes long, `deserialize` accepts exactly the encodings and
decodes each to the configuration it encodes. A mapping's nine bytes are
read back the same way. -/
theorem deserialize_eq_ok_iff_eq_serialize :
    (∀ (b : List UInt8) (c : BootloaderConfig), deserialize b = .ok c ↔ b = c.serialize) ∧
      (∀ c : BootloaderConfig, c.serialize.length = SERIALIZED_LEN) ∧
      ∀ (b : List UInt8) (m : Mapping), b.length = 9 →
        (Mapping.deserialize b = .ok m ↔ b = m.serialize) := by
  refine ⟨fun b c => ⟨eq_serialize_of_deserialize, ?config⟩, length_serialize,
    fun b m hb => ⟨Mapping.eq_serialize_of_deserialize hb, ?mapping⟩⟩
  case config =>
    rintro rfl
    exact deserialize_serialize c
  case mapping =>
    rintro rfl
    exact Mapping.deserialize_serialize m

theorem codec_round_trip_on_default :
    let m := Mapping.fixedAddress 0xffff800000000000
    deserialize newDefault.serialize = .ok newDefault ∧
      m.serialize.length = 9 ∧ Mapping.deserialize m.serialize = .ok m := by
  refine ⟨(deserialize_eq_ok_iff_eq_serialize.1 _ _).mpr rfl, ?hlen,
    (deserialize_eq_ok_iff_eq_serialize.2.2 _ _ ?hlen).mpr rfl⟩
  case hlen => decide

end BootloaderConfig

end Bootloader
