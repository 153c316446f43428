/-
Bootloader.Common.Entropy — the seed of the bootloader's random number
generator (`common/src/entropy.rs`).

`build_rng` XORs three 32-byte entropy sources into the seed of the HC-128
generator that randomises where the kernel's mappings go:

* `RDRAND`: four 64-bit values, each the first success of up to ten tries,
  in the machine's (little-endian) byte order; zeros where the CPU has no
  `RDRAND` or all ten tries fail;
* the time-stamp counter: four `RDTSC` readings, under the guard
  `!feature_info.has_tsc()`;
* the PIT: 32 byte reads cycling through the ports `0x40` to `0x42`.

The guard of the second source is inverted: it reads the counter only on a
CPU that reports no time-stamp counter. `buildRngSeed_of_hasTsc`: on every
CPU that reports one, the seed is the XOR of the `RDRAND` and PIT bytes, and
no counter reading reaches it; without `RDRAND` it is the 32 PIT reads alone.

The hardware is an input: what each `RDRAND` attempt returns, whether CPUID
reports feature information and the TSC bit in it, the counter's readings and
the bytes the PIT ports give. `Hc128Rng::from_seed` belongs to the `rand_hc`
crate and is left out; the model stops at the seed.
-/
import Bootloader.Lib.LittleEndian

namespace Bootloader

namespace Entropy

/-- What the three sources read from the machine. -/
structure Hardware where
  /-- `RdRand::new()` gives a handle: the CPU has `RDRAND`. -/
  hasRdRand : Bool
  /-- `rd_rand.get_u64()` for word `i` at attempt `k`; `none` when it fails. -/
  rdRand : Nat → Nat → Option UInt64
  /-- `CpuId::get_feature_info()`, by its `has_tsc()` bit. -/
  hasTsc : Option Bool
  /-- The `i`-th `_rdtsc()` reading. -/
  rdtsc : Nat → UInt64
  /-- The byte the `i`-th PIT read gets from the port it reads. -/
  pit : Nat → Nat → UInt8

/-- `RETRY_LIMIT`. -/
def retryLimit : Nat := 10

/-- `get_random_64`: the first of up to `RETRY_LIMIT` attempts that succeeds. -/
def getRandom64 (attempt : Nat → Option UInt64) : Option UInt64 :=
  (List.range retryLimit).findSome? attempt

/-- The loop `for i in 0..4` of the two 64-bit sources:
`entropy[i * 8..(i + 1) * 8].copy_from_slice(&value.to_ne_bytes())` for each
word obtained, the native order being little-endian; a word not obtained
leaves its eight bytes zero. -/
def wordsEntropy (words : Nat → Option UInt64) : List UInt8 :=
  (List.range 4).flatMap fun i =>
    match words i with
    | some value => value.toLeBytes
    | none => List.replicate 8 0

/-- `rd_rand_entropy`. -/
def rdRandEntropy (hw : Hardware) : List UInt8 :=
  if hw.hasRdRand then wordsEntropy fun i => getRandom64 (hw.rdRand i) else List.replicate 32 0

/-- `tsc_entropy`, with the source's guard `!feature_info.has_tsc()`. -/
def tscEntropy (hw : Hardware) : List UInt8 :=
  match hw.hasTsc with
  | some hasTsc => if !hasTsc then wordsEntropy fun i => some (hw.rdtsc i) else List.replicate 32 0
  | none => List.replicate 32 0

/-- `pit_entropy`: byte `i` read from port `0x40 + i % 3`. -/
def pitEntropy (hw : Hardware) : List UInt8 :=
  (List.range 32).map fun i => hw.pit i (0x40 + i % 3)

/-- `ENTROPY_SOURCES`, in order. -/
def entropySources : List (Hardware → List UInt8) := [rdRandEntropy, tscEntropy, pitEntropy]

/-- `*seed ^= entropy` over `seed.iter_mut().zip(entropy)`. -/
def xorInto (seed entropy : List UInt8) : List UInt8 := List.zipWith (· ^^^ ·) seed entropy

/-- The seed `build_rng` hands `Hc128Rng::from_seed`. -/
def buildRngSeed (hw : Hardware) : List UInt8 :=
  (entropySources.map fun source => source hw).foldl xorInto (List.replicate 32 0)

/-! ## Lengths -/

@[simp] theorem length_wordsEntropy (words : Nat → Option UInt64) : (wordsEntropy words).length = 32 := by
  have h8 : ∀ i, (match words i with
      | some value => value.toLeBytes
      | none => List.replicate 8 0).length = 8 := by
    intro i
    cases words i <;> simp
  simp only [wordsEntropy, List.length_flatMap, h8, List.map_const', List.length_range,
    List.sum_replicate, smul_eq_mul]

@[simp] theorem length_rdRandEntropy (hw : Hardware) : (rdRandEntropy hw).length = 32 := by
  unfold rdRandEntropy
  split <;> simp

@[simp] theorem length_tscEntropy (hw : Hardware) : (tscEntropy hw).length = 32 := by
  unfold tscEntropy
  split
  · split <;> simp
  · simp

@[simp] theorem length_pitEntropy (hw : Hardware) : (pitEntropy hw).length = 32 := by
  simp [pitEntropy]

/-! ## XOR -/

/-- XOR into zeros copies the entropy. -/
theorem zero_xorInto : ∀ {n : Nat} (entropy : List UInt8), entropy.length = n →
    xorInto (List.replicate n 0) entropy = entropy
  | _, [], rfl => rfl
  | _, b :: entropy, rfl => by
    rw [List.length_cons, List.replicate_succ, xorInto, List.zipWith_cons_cons, ← xorInto,
      zero_xorInto entropy rfl, UInt8.zero_xor]

/-- XOR with zeros keeps the seed. -/
theorem xorInto_zero : ∀ {n : Nat} (seed : List UInt8), seed.length = n →
    xorInto seed (List.replicate n 0) = seed
  | _, [], rfl => rfl
  | _, b :: seed, rfl => by
    rw [List.length_cons, List.replicate_succ, xorInto, List.zipWith_cons_cons, ← xorInto,
      xorInto_zero seed rfl, UInt8.xor_zero]

/-- The seed is the three sources XORed in order. -/
theorem buildRngSeed_eq (hw : Hardware) :
    buildRngSeed hw = xorInto (xorInto (rdRandEntropy hw) (tscEntropy hw)) (pitEntropy hw) := by
  rw [buildRngSeed, entropySources, List.map_cons, List.map_cons, List.map_singleton,
    List.foldl_cons, List.foldl_cons, List.foldl_cons, List.foldl_nil,
    zero_xorInto _ (length_rdRandEntropy hw)]

/-- The counter source is all zeros on a CPU that reports a time-stamp
counter: the guard reads it only when there is none. -/
theorem tscEntropy_of_hasTsc {hw : Hardware} (h : hw.hasTsc = some true) :
    tscEntropy hw = List.replicate 32 0 := by
  rw [tscEntropy, h]
  rfl

theorem buildRngSeed_eq_of_hasTsc {hw : Hardware} (h : hw.hasTsc = some true) :
    buildRngSeed hw = xorInto (rdRandEntropy hw) (pitEntropy hw) := by
  rw [buildRngSeed_eq, tscEntropy_of_hasTsc h, xorInto_zero _ (length_rdRandEntropy hw)]

/-- On every CPU that reports a time-stamp counter the seed is the XOR of the
`RDRAND` and PIT bytes alone: no counter reading reaches it. -/
theorem buildRngSeed_of_hasTsc {hw : Hardware} (h : hw.hasTsc = some true) :
    buildRngSeed hw = xorInto (rdRandEntropy hw) (pitEntropy hw) ∧
      ∀ rdtsc : Nat → UInt64, buildRngSeed { hw with rdtsc } = buildRngSeed hw := by
  refine ⟨buildRngSeed_eq_of_hasTsc h, fun rdtsc => ?_⟩
  -- the other two sources never read the counter
  rw [@buildRngSeed_eq_of_hasTsc { hw with rdtsc } h, buildRngSeed_eq_of_hasTsc h]
  rfl

/-- A machine with a time-stamp counter and no `RDRAND`, whose PIT reads give
their own index. -/
def tscOnlyMachine : Hardware :=
  ⟨false, fun _ _ => none, some true, fun i => UInt64.ofNat (0x1234_5678 * (i + 1)), fun i _ => UInt8.ofNat i⟩

/-- Its seed is its 32 PIT reads. -/
example : buildRngSeed tscOnlyMachine = (List.range 32).map UInt8.ofNat := by decide

end Entropy

end Bootloader
