/-
Bootloader.Lib.LittleEndian — fixed-width little-endian byte strings.

`leBytes w n` is the `w` bytes of `n`, least significant first, with the bits
past `8 * w` dropped; `ofLeBytes` reads a byte string back. On `w`-byte
strings and on naturals below `256 ^ w` the two are inverse
(`ofLeBytes_leBytes`, `leBytes_ofLeBytes`). The machine-word versions
`toLeBytes` / `fromLeBytes` are the standard library's
`to_le_bytes` / `from_le_bytes` of `u16` and `u64`, with their two round
trips. Nothing here names the bootloader.
-/
import Mathlib

namespace LittleEndian

/-- The `w` little-endian bytes of `n`. -/
def leBytes : Nat → Nat → List UInt8
  | 0, _ => []
  | w + 1, n => UInt8.ofNat (n % 256) :: leBytes w (n / 256)

/-- The natural whose little-endian bytes are `bs`. -/
def ofLeBytes : List UInt8 → Nat
  | [] => 0
  | b :: bs => b.toNat + 256 * ofLeBytes bs

@[simp] theorem length_leBytes : ∀ w n, (leBytes w n).length = w
  | 0, _ => rfl
  | w + 1, n => by rw [leBytes, List.length_cons, length_leBytes w (n / 256)]

theorem ofLeBytes_lt : ∀ bs : List UInt8, ofLeBytes bs < 256 ^ bs.length
  | [] => by simp [ofLeBytes]
  | b :: bs => by
      have hb : b.toNat < 256 := b.toNat_lt
      have ih := ofLeBytes_lt bs
      rw [ofLeBytes, List.length_cons, pow_succ]
      omega

/-- Reading the bytes back gives the number modulo `256 ^ w`. -/
theorem ofLeBytes_leBytes : ∀ w n, ofLeBytes (leBytes w n) = n % 256 ^ w
  | 0, n => by simp [leBytes, ofLeBytes, Nat.mod_one]
  | w + 1, n => by
      -- the low byte, then the rest shifted by one byte
      have hsplit : n % 256 ^ (w + 1) = n % 256 + 256 * (n / 256 % 256 ^ w) := by
        rw [pow_succ', Nat.mod_mul]
      have hbyte : n % 256 % 2 ^ 8 = n % 256 := by omega
      rw [leBytes, ofLeBytes, ofLeBytes_leBytes w (n / 256), UInt8.toNat_ofNat', hbyte, hsplit]

/-- Writing out the number a byte string reads as gives the string back. -/
theorem leBytes_ofLeBytes : ∀ bs : List UInt8, leBytes bs.length (ofLeBytes bs) = bs
  | [] => rfl
  | b :: bs => by
      have hb : b.toNat < 256 := b.toNat_lt
      have hlow : (b.toNat + 256 * ofLeBytes bs) % 256 = b.toNat := by omega
      have hhigh : (b.toNat + 256 * ofLeBytes bs) / 256 = ofLeBytes bs := by omega
      rw [List.length_cons, leBytes, ofLeBytes, hlow, hhigh, leBytes_ofLeBytes bs,
        UInt8.ofNat_toNat]

/-- The `w` bytes of `x` from byte `j` on, read back: `x` shifted right by
`j` bytes, modulo `256 ^ w`. -/
theorem ofLeBytes_shifted (x j : Nat) : ∀ w,
    ofLeBytes ((List.range w).map fun i => UInt8.ofNat (x / 256 ^ (j + i))) = x / 256 ^ j % 256 ^ w
  | 0 => by simp [ofLeBytes, Nat.mod_one]
  | w + 1 => by
      have ih := ofLeBytes_shifted x (j + 1) w
      -- the byte at `j`, then the bytes from `j + 1` on
      have hsplit : x / 256 ^ j % 256 ^ (w + 1) =
          x / 256 ^ j % 256 + 256 * (x / 256 ^ j / 256 % 256 ^ w) := by
        rw [pow_succ', Nat.mod_mul]
      have hnext : x / 256 ^ (j + 1) = x / 256 ^ j / 256 := by
        rw [pow_succ, Nat.div_div_eq_div_mul]
      have hbyte : x / 256 ^ j % 2 ^ 8 = x / 256 ^ j % 256 := rfl
      rw [List.range_succ_eq_map, List.map_cons, List.map_map, ofLeBytes, Nat.add_zero,
        UInt8.toNat_ofNat', hbyte, hsplit, ← hnext, ← ih]
      congr 3
      refine List.map_congr_left fun i _ => ?_
      simp only [Function.comp, Nat.succ_eq_add_one, Nat.add_assoc, Nat.add_comm 1 i]

end LittleEndian

/-! ## Machine words -/

open LittleEndian

/-- `u16::to_le_bytes`. -/
def UInt16.toLeBytes (x : UInt16) : List UInt8 := leBytes 2 x.toNat

/-- `u16::from_le_bytes`, on the two bytes it is given. -/
def UInt16.fromLeBytes (bytes : List UInt8) : UInt16 := UInt16.ofNat (ofLeBytes bytes)

/-- `u64::to_le_bytes`. -/
def UInt64.toLeBytes (x : UInt64) : List UInt8 := leBytes 8 x.toNat

/-- `u64::from_le_bytes`, on the eight bytes it is given. -/
def UInt64.fromLeBytes (bytes : List UInt8) : UInt64 := UInt64.ofNat (ofLeBytes bytes)

@[simp] theorem UInt16.length_toLeBytes (x : UInt16) : x.toLeBytes.length = 2 :=
  length_leBytes 2 _

@[simp] theorem UInt64.length_toLeBytes (x : UInt64) : x.toLeBytes.length = 8 :=
  length_leBytes 8 _

@[simp] theorem UInt16.fromLeBytes_toLeBytes (x : UInt16) : UInt16.fromLeBytes x.toLeBytes = x := by
  have hx : x.toNat < 256 ^ 2 := x.toNat_lt
  rw [UInt16.fromLeBytes, UInt16.toLeBytes, ofLeBytes_leBytes, Nat.mod_eq_of_lt hx,
    UInt16.ofNat_toNat]

@[simp] theorem UInt64.fromLeBytes_toLeBytes (x : UInt64) : UInt64.fromLeBytes x.toLeBytes = x := by
  have hx : x.toNat < 256 ^ 8 := x.toNat_lt
  rw [UInt64.fromLeBytes, UInt64.toLeBytes, ofLeBytes_leBytes, Nat.mod_eq_of_lt hx,
    UInt64.ofNat_toNat]

theorem UInt16.toLeBytes_fromLeBytes {bytes : List UInt8} (h : bytes.length = 2) :
    (UInt16.fromLeBytes bytes).toLeBytes = bytes := by
  have hlt : ofLeBytes bytes < 2 ^ 16 := by
    have := ofLeBytes_lt bytes
    rw [h] at this
    omega
  rw [UInt16.toLeBytes, UInt16.fromLeBytes, UInt16.toNat_ofNat', Nat.mod_eq_of_lt hlt, ← h,
    leBytes_ofLeBytes]

theorem UInt64.toLeBytes_fromLeBytes {bytes : List UInt8} (h : bytes.length = 8) :
    (UInt64.fromLeBytes bytes).toLeBytes = bytes := by
  have hlt : ofLeBytes bytes < 2 ^ 64 := by
    have := ofLeBytes_lt bytes
    rw [h] at this
    omega
  rw [UInt64.toLeBytes, UInt64.fromLeBytes, UInt64.toNat_ofNat', Nat.mod_eq_of_lt hlt, ← h,
    leBytes_ofLeBytes]

/-- On two bytes, reading a `u16` is inverse to writing one. -/
theorem UInt16.fromLeBytes_eq_iff {bytes : List UInt8} (h : bytes.length = 2) (x : UInt16) :
    UInt16.fromLeBytes bytes = x ↔ bytes = x.toLeBytes := by
  constructor
  · rintro rfl
    exact (UInt16.toLeBytes_fromLeBytes h).symm
  · rintro rfl
    exact UInt16.fromLeBytes_toLeBytes x

/-- On eight bytes, reading a `u64` is inverse to writing one. -/
theorem UInt64.fromLeBytes_eq_iff {bytes : List UInt8} (h : bytes.length = 8) (x : UInt64) :
    UInt64.fromLeBytes bytes = x ↔ bytes = x.toLeBytes := by
  constructor
  · rintro rfl
    exact (UInt64.toLeBytes_fromLeBytes h).symm
  · rintro rfl
    exact UInt64.fromLeBytes_toLeBytes x
