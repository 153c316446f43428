/-
Bootloader.Lib.Interval — half-open intervals of naturals: tilings and
counting cut points.

Two facts about intervals carry the memory-map proofs, and neither mentions
memory:

* `Tiles lo hi a b xs` says the pieces `xs` (each with a lower end `lo x` and
  an upper end `hi x`) are non-empty, follow one another without gap or
  overlap, and cover `[a, b)` exactly. `Tiles.append` glues two tilings end
  to end; `Tiles.mem_bounds` places every piece inside `[a, b)`.
* `List.minOn?` (the first of several minima, as Rust's `min_by_key`) is
  below every element, and is `none` only on the empty list.
* `inside E a b` is the set of points of a finite set `E` strictly between
  `a` and `b`. When the intervals of a list are pairwise disjoint, each point
  of `E` lies inside at most one of them, so the counts add up to at most
  `#E` (`sum_card_inside_le`). This is the counting step behind every bound
  of the form "`n` pieces plus one per cut point".
* A run of consecutive numbers `List.range' s n` cut at a threshold is again
  a run (`filter_range'_le`): the frames of a region at or past a given
  frame.
* Two copies into adjacent intervals, the second continuing the first's
  source, are one copy (`copy_adjacent`): the packets of a disk read.
-/
import Mathlib

namespace Tiling

open Set

/-! ## 1. First minima -/

theorem minOn?_le_of_mem {α : Type} {f : α → ℕ} {xs : List α} {a x : α}
    (h : xs.minOn? f = some a) (hx : x ∈ xs) : f a ≤ f x := by
  have hle : f ((xs.minOn? f).get (List.isSome_minOn?_of_mem hx)) ≤ f x :=
    List.apply_get_minOn?_le_of_mem hx
  rwa [Option.get_of_eq_some _ h] at hle

theorem minOn?_eq_none {α : Type} {f : α → ℕ} {xs : List α} (h : xs.minOn? f = none) :
    xs = [] := by
  by_contra hne
  have hs : (xs.minOn? f).isSome := List.isSome_minOn?_iff.mpr hne
  rw [h] at hs
  cases hs

/-! ## 2. Tilings -/

section Tiles

variable {α : Type} (lo hi : α → ℕ)

/-- `xs` cuts `[a, b)` into non-empty, contiguous, increasing pieces. -/
def Tiles : ℕ → ℕ → List α → Prop
  | a, b, [] => a = b
  | a, b, x :: xs => lo x = a ∧ lo x < hi x ∧ Tiles (hi x) b xs

variable {lo hi}

@[simp] theorem tiles_nil {a b : ℕ} : Tiles lo hi a b [] ↔ a = b := Iff.rfl

@[simp] theorem tiles_cons {a b : ℕ} {x : α} {xs : List α} :
    Tiles lo hi a b (x :: xs) ↔ lo x = a ∧ lo x < hi x ∧ Tiles lo hi (hi x) b xs := Iff.rfl

theorem Tiles.le : ∀ {a b : ℕ} {xs : List α}, Tiles lo hi a b xs → a ≤ b
  | _, _, [], h => le_of_eq h
  | _, _, _ :: _, ⟨rfl, hlt, h⟩ => by
      have := Tiles.le h
      omega

/-- Two tilings that meet glue into one. -/
theorem Tiles.append :
    ∀ {a b c : ℕ} {xs ys : List α}, Tiles lo hi a b xs → Tiles lo hi b c ys →
      Tiles lo hi a c (xs ++ ys)
  | _, _, _, [], _, rfl, h => h
  | _, _, _, _ :: _, _, ⟨hlo, hlt, h⟩, h' => ⟨hlo, hlt, Tiles.append h h'⟩

/-- Every piece of a tiling of `[a, b)` is a non-empty sub-interval of it. -/
theorem Tiles.mem_bounds :
    ∀ {a b : ℕ} {xs : List α} {x : α}, Tiles lo hi a b xs → x ∈ xs →
      a ≤ lo x ∧ lo x < hi x ∧ hi x ≤ b
  | _, _, [], _, _, hx => by simp at hx
  | _, _, y :: ys, x, ⟨rfl, hlt, h⟩, hx => by
      rcases List.mem_cons.mp hx with rfl | hx
      · exact ⟨le_rfl, hlt, h.le⟩
      · obtain ⟨h1, h2, h3⟩ := Tiles.mem_bounds h hx
        exact ⟨by omega, h2, h3⟩

end Tiles

/-! ## 3. Points inside intervals -/

section Inside

/-- The points of `E` strictly between `a` and `b`. -/
def inside (E : Finset ℕ) (a b : ℕ) : Finset ℕ := E.filter fun e => a < e ∧ e < b

@[simp] theorem mem_inside {E : Finset ℕ} {a b e : ℕ} :
    e ∈ inside E a b ↔ e ∈ E ∧ a < e ∧ e < b := Finset.mem_filter

theorem inside_mono {E : Finset ℕ} {a b a' b' : ℕ} (ha : a ≤ a') (hb : b' ≤ b) :
    inside E a' b' ⊆ inside E a b := by
  intro e he
  simp only [mem_inside] at he ⊢
  exact ⟨he.1, by omega, by omega⟩

/-- The points of `E` inside some interval of the list. -/
def insideAny (E : Finset ℕ) (ivs : List (ℕ × ℕ)) : Finset ℕ :=
  E.filter fun e => ∃ iv ∈ ivs, iv.1 < e ∧ e < iv.2

/-- Interval lists whose half-open intervals are pairwise disjoint. -/
def PairwiseDisjoint (ivs : List (ℕ × ℕ)) : Prop :=
  ivs.Pairwise fun x y => Disjoint (Ico x.1 x.2) (Ico y.1 y.2)

theorem insideAny_cons (E : Finset ℕ) (iv : ℕ × ℕ) (ivs : List (ℕ × ℕ)) :
    insideAny E (iv :: ivs) = inside E iv.1 iv.2 ∪ insideAny E ivs := by
  ext e
  simp only [insideAny, inside, Finset.mem_union, Finset.mem_filter, List.mem_cons,
    exists_eq_or_imp]
  tauto

/-- An interval disjoint from every interval of a list shares no inside point
with them. -/
theorem disjoint_inside_insideAny {E : Finset ℕ} {iv : ℕ × ℕ} {ivs : List (ℕ × ℕ)}
    (h : ∀ y ∈ ivs, Disjoint (Ico iv.1 iv.2) (Ico y.1 y.2)) :
    Disjoint (inside E iv.1 iv.2) (insideAny E ivs) := by
  rw [Finset.disjoint_left]
  intro e he he'
  simp only [mem_inside] at he
  simp only [insideAny, Finset.mem_filter] at he'
  obtain ⟨y, hy, hy1, hy2⟩ := he'.2
  have hd := h y hy
  rw [Set.disjoint_left] at hd
  exact hd ⟨by omega, he.2.2⟩ ⟨by omega, hy2⟩

/-- Pairwise disjoint intervals share out the points of `E`: their inside
counts add up to at most `#E`. -/
theorem sum_card_inside_le (E : Finset ℕ) :
    ∀ {ivs : List (ℕ × ℕ)}, PairwiseDisjoint ivs →
      (ivs.map fun iv => (inside E iv.1 iv.2).card).sum ≤ (insideAny E ivs).card
  | [], _ => by simp
  | iv :: ivs, h => by
      rw [PairwiseDisjoint, List.pairwise_cons] at h
      have ih := sum_card_inside_le E h.2
      rw [List.map_cons, List.sum_cons, insideAny_cons,
        Finset.card_union_of_disjoint (disjoint_inside_insideAny h.1)]
      omega

theorem card_insideAny_le (E : Finset ℕ) (ivs : List (ℕ × ℕ)) :
    (insideAny E ivs).card ≤ E.card :=
  Finset.card_le_card (Finset.filter_subset _ _)

end Inside

/-! ## 4. Runs of consecutive numbers -/

/-- Cutting a run of consecutive numbers at a threshold leaves a run. -/
theorem filter_range'_le (m : ℕ) : ∀ s n : ℕ,
    (List.range' s n).filter (fun f => decide (m ≤ f)) = List.range' (max s m) (s + n - max s m)
  | s, 0 => by simp
  | s, n + 1 => by
      rw [List.range'_succ, List.filter_cons, filter_range'_le m (s + 1) n]
      by_cases h : m ≤ s
      · -- the run starts past the threshold: nothing is cut
        rw [if_pos (decide_eq_true h), max_eq_left h, max_eq_left (by omega),
          show s + 1 + n - (s + 1) = n by omega, show s + (n + 1) - s = n + 1 by omega,
          List.range'_succ]
      · rw [if_neg (by simpa using h), max_eq_right (by omega), max_eq_right (by omega),
          show s + 1 + n - m = s + (n + 1) - m by omega]

/-! ## 5. Copies into adjacent intervals -/

/-- A copy of `src` from `s` on into `[t, t + k)`, then a copy of `src` from
`s + k` on into `[t + k, t + n)`, is one copy into `[t, t + n)`. -/
theorem copy_adjacent {α : Type} (src memory : ℕ → α) {t k n : ℕ} (s : ℕ) (hk : k ≤ n) (a : ℕ) :
    (if t + k ≤ a ∧ a < t + n then src (s + k + (a - (t + k)))
      else if t ≤ a ∧ a < t + k then src (s + (a - t)) else memory a) =
    if t ≤ a ∧ a < t + n then src (s + (a - t)) else memory a := by
  by_cases hlater : t + k ≤ a ∧ a < t + n
  · rw [if_pos hlater, if_pos (by omega), show s + k + (a - (t + k)) = s + (a - t) by omega]
  · rw [if_neg hlater]
    by_cases hfirst : t ≤ a ∧ a < t + k
    · rw [if_pos hfirst, if_pos (by omega)]
    · rw [if_neg hfirst, if_neg (by omega)]

end Tiling
