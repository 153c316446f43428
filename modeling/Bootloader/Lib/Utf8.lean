/-
Bootloader.Lib.Utf8 — the decoders of Rust's `core` for UTF-8 and UTF-16:
`str::from_utf8` and `char::decode_utf16`, on lists of code units.

`Utf8.decode` accepts exactly the well-formed byte sequences of the Unicode
standard (its Table 3-7: no overlong forms, no surrogates, nothing past
U+10FFFF), as `from_utf8` does, and gives their characters. `Utf16.decode`
gives one result per character or unpaired surrogate, as the iterator of
`decode_utf16` does. Both recurse structurally, so they run on concrete
input. On ASCII both are the identity (`Utf8.decode_ascii`,
`Utf16.decode_of_lt`). Nothing here names the bootloader.
-/
import Mathlib

namespace Utf8

/-- A byte in `lo..=hi`. -/
def inRange (lo hi b : UInt8) : Bool := lo ≤ b && b ≤ hi

/-- `core::str::from_utf8`, as the characters of the string it accepts. -/
def decode : List UInt8 → Option (List Char)
  | [] => some []
  | b :: rest =>
    if b < 0x80 then (Char.ofNat b.toNat :: ·) <$> decode rest
    else if 0xC2 ≤ b ∧ b ≤ 0xDF then
      match rest with
      | c :: rest =>
        if inRange 0x80 0xBF c then (Char.ofNat (b.toNat % 32 * 64 + c.toNat % 64) :: ·) <$> decode rest
        else none
      | [] => none
    else if 0xE0 ≤ b ∧ b ≤ 0xEF then
      match rest with
      | c :: d :: rest =>
        -- the second byte excludes overlong forms after `E0` and surrogates after `ED`
        let lo : UInt8 := if b = 0xE0 then 0xA0 else 0x80
        let hi : UInt8 := if b = 0xED then 0x9F else 0xBF
        if inRange lo hi c ∧ inRange 0x80 0xBF d then
          (Char.ofNat (b.toNat % 16 * 4096 + c.toNat % 64 * 64 + d.toNat % 64) :: ·) <$> decode rest
        else none
      | _ => none
    else if 0xF0 ≤ b ∧ b ≤ 0xF4 then
      match rest with
      | c :: d :: e :: rest =>
        -- the second byte excludes overlong forms after `F0` and values past U+10FFFF after `F4`
        let lo : UInt8 := if b = 0xF0 then 0x90 else 0x80
        let hi : UInt8 := if b = 0xF4 then 0x8F else 0xBF
        if inRange lo hi c ∧ inRange 0x80 0xBF d ∧ inRange 0x80 0xBF e then
          (Char.ofNat (b.toNat % 8 * 262144 + c.toNat % 64 * 4096 + d.toNat % 64 * 64 + e.toNat % 64) :: ·) <$>
            decode rest
        else none
      | _ => none
    else none
termination_by structural bytes => bytes

/-- ASCII bytes are valid UTF-8, one character each. -/
theorem decode_ascii : ∀ bytes : List UInt8, (∀ b ∈ bytes, b < 0x80) →
    decode bytes = some (bytes.map fun b => Char.ofNat b.toNat)
  | [], _ => rfl
  | b :: rest, hascii => by
    have hb : b < 0x80 := hascii b (List.mem_cons_self ..)
    have hrest := decode_ascii rest fun c hc => hascii c (List.mem_cons_of_mem b hc)
    rw [decode.eq_def]
    dsimp only
    rw [if_pos hb, hrest]
    rfl

end Utf8

namespace Utf16

/-- `char::decode_utf16`: a character for each unit outside the surrogates
and each high surrogate followed by a low one; an error, carrying the unit,
for each unpaired surrogate. -/
def decode : List Nat → List (Except Nat Char)
  | [] => []
  | [u] => if u < 0xD800 ∨ 0xDFFF < u then [.ok (Char.ofNat u)] else [.error u]
  | u :: v :: rest =>
    if u < 0xD800 ∨ 0xDFFF < u then .ok (Char.ofNat u) :: decode (v :: rest)
    else if u ≤ 0xDBFF ∧ 0xDC00 ≤ v ∧ v ≤ 0xDFFF then
      .ok (Char.ofNat (0x10000 + (u - 0xD800) * 0x400 + (v - 0xDC00))) :: decode rest
    else .error u :: decode (v :: rest)
termination_by structural units => units

/-- Units below the surrogates decode one character each. -/
theorem decode_of_lt : ∀ units : List Nat, (∀ u ∈ units, u < 0xD800) →
    decode units = units.map fun u => .ok (Char.ofNat u)
  | [], _ => rfl
  | [u], hlt => by
    have hu : u < 0xD800 := hlt u (List.mem_singleton_self u)
    simp only [decode, if_pos (Or.inl hu), List.map_cons, List.map_nil]
  | u :: v :: rest, hlt => by
    have hu : u < 0xD800 := hlt u (List.mem_cons_self ..)
    have htail := decode_of_lt (v :: rest) fun w hw => hlt w (List.mem_cons_of_mem u hw)
    simp only [decode, if_pos (Or.inl hu), htail, List.map_cons]

end Utf16
