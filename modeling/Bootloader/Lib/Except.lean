/-
Bootloader.Lib.Except — reading a `do` block of a computation that may stop.

A function that can abort (a Rust panic, say) is modelled as a function into
`Except ε α`: `.error e` is the abort and `.ok a` the value returned. The
lemmas below invert `bind` and the checks that guard a value, so that a
proof about a `do` block takes it apart one step at a time with `obtain` and
never unfolds the monad. They are
stated for arbitrary `ε`, `α`, `β` and name nothing of the bootloader.

Three loop shapes recur and get their own rules:

* `mapM`, a `map` whose function may stop: it stops with an error of one of
  the elements, and otherwise returns the pointwise results.
* an *appending fold*: a `foldlM` over a list whose every returning step
  appends a block `g x` to its accumulator, as a loop that writes entries to
  an output buffer does. Such a fold returns the accumulator followed by all
  the blocks, and it cannot stop with a given error `e` while the blocks fit
  in a budget that each step respects.
* a *growing fold*: a `foldlM` whose every returning step moves its state
  along a reflexive, transitive relation (a table that only gains entries).
  The run moves its start along the relation, and what a step establishes
  for its element and the relation keeps still holds at the end. The `_of_mem`
  forms ask it only of steps on the list's own elements.
  Under an invariant, the steps need only hold from states of it.
* a *total fold*: a `foldlM` whose every step returns from a state of an
  invariant returns, in a state of the invariant; and one whose every step
  spends at most one unit of a budget returns when the budget covers the
  list.
-/
import Mathlib

namespace Except

variable {ε α β : Type}

/-- A bind returns a value exactly when both of its halves do. -/
@[simp] theorem bind_eq_ok {x : Except ε α} {f : α → Except ε β} {b : β} :
    (x >>= f) = .ok b ↔ ∃ a, x = .ok a ∧ f a = .ok b := by
  cases x <;> simp [bind, Except.bind]

/-- A bind stops exactly when its first half stops, or its second half does
on the first half's value. -/
theorem bind_eq_error {x : Except ε α} {f : α → Except ε β} {e : ε} :
    (x >>= f) = .error e ↔ x = .error e ∨ ∃ a, x = .ok a ∧ f a = .error e := by
  cases x <;> simp [bind, Except.bind]

@[simp] theorem pure_eq_ok {a b : α} : (pure a : Except ε α) = .ok b ↔ a = b := by
  simp [pure, Except.pure]

@[simp] theorem throw_eq_error {e : ε} : (throw e : Except ε α) = .error e := rfl

@[simp] theorem ok_bind {a : α} {f : α → Except ε β} : (Except.ok a >>= f) = f a := rfl

@[simp] theorem error_bind {e : ε} {f : α → Except ε β} : (Except.error e >>= f) = .error e :=
  rfl

/-- A computation known to return (a decision procedure can show
`x.toBool = true` on a closed one) has a value. -/
theorem exists_eq_ok_of_toBool {x : Except ε α} (h : x.toBool = true) : ∃ a, x = .ok a := by
  cases x with
  | error e => cases h
  | ok a => exact ⟨a, rfl⟩

/-- A checked operation returns its value exactly when its check passes. -/
theorem ite_ok_eq_ok {c : Prop} [Decidable c] {a b : α} {e : ε} :
    (if c then .ok a else .error e : Except ε α) = .ok b ↔ c ∧ a = b := by
  split_ifs with h <;> simp [h]

/-- A guard that stops when its condition holds returns otherwise. -/
theorem ite_error_eq_ok {c : Prop} [Decidable c] {a b : α} {e : ε} :
    (if c then .error e else .ok a : Except ε α) = .ok b ↔ ¬c ∧ a = b := by
  split_ifs with h <;> simp [h]

/-- `map` returns a value exactly when its argument does. -/
@[simp] theorem map_eq_ok {g : α → β} {x : Except ε α} {b : β} :
    g <$> x = .ok b ↔ ∃ a, x = .ok a ∧ g a = b := by
  cases x <;> simp [Functor.map, Except.map]

/-- `map` fails exactly as its argument does. -/
@[simp] theorem map_eq_error {g : α → β} {x : Except ε α} {e : ε} : g <$> x = .error e ↔ x = .error e := by
  cases x <;> simp [Functor.map, Except.map]

end Except

namespace List

variable {ε α β γ : Type}

/-! ## Maps that may stop -/

/-- A `mapM` whose every step returns `g x` returns `map g`. -/
theorem mapM_eq_ok_of_forall {f : α → Except ε β} {g : α → β} :
    ∀ {xs : List α}, (∀ x ∈ xs, f x = .ok (g x)) → xs.mapM f = .ok (xs.map g)
  | [], _ => rfl
  | x :: xs, h => by
      have hx := h x mem_cons_self
      have hxs := mapM_eq_ok_of_forall fun y hy => h y (mem_cons_of_mem x hy)
      rw [mapM_cons, hx, Except.ok_bind, hxs]
      rfl

/-- What a `mapM` returns is `map g`, when every returning step returns `g x`. -/
theorem eq_map_of_mapM_eq_ok {f : α → Except ε β} {g : α → β}
    (hf : ∀ x y, f x = .ok y → y = g x) :
    ∀ {xs : List α} {ys : List β}, xs.mapM f = .ok ys → ys = xs.map g
  | [], ys, h => by
      rw [mapM_nil, Except.pure_eq_ok] at h
      rw [← h, map_nil]
  | x :: xs, ys, h => by
      rw [mapM_cons, Except.bind_eq_ok] at h
      obtain ⟨y, hy, h⟩ := h
      rw [Except.bind_eq_ok] at h
      obtain ⟨ys', hys', h⟩ := h
      rw [Except.pure_eq_ok] at h
      rw [← h, map_cons, hf x y hy, eq_map_of_mapM_eq_ok hf hys']

/-- A `mapM` stops with an error one of its steps stops with. -/
theorem exists_of_mapM_eq_error {f : α → Except ε β} {e : ε} :
    ∀ {xs : List α}, xs.mapM f = .error e → ∃ x ∈ xs, f x = .error e
  | [], h => by
      rw [mapM_nil] at h
      cases h
  | x :: xs, h => by
      rw [mapM_cons] at h
      rcases Except.bind_eq_error.mp h with hx | ⟨y, -, h⟩
      · exact ⟨x, mem_cons_self, hx⟩
      · rcases Except.bind_eq_error.mp h with hxs | ⟨ys, -, h⟩
        · obtain ⟨x', hx', he⟩ := exists_of_mapM_eq_error hxs
          exact ⟨x', mem_cons_of_mem x hx', he⟩
        · cases h

/-! ## Appending folds -/

section Appending

variable {f : List γ → β → Except ε (List γ)} {g : β → List γ}

/-- An appending fold returns the accumulator followed by every block. -/
theorem foldlM_eq_ok_of_append (hf : ∀ acc x acc', f acc x = .ok acc' → acc' = acc ++ g x) :
    ∀ {xs : List β} {acc acc' : List γ}, xs.foldlM f acc = .ok acc' → acc' = acc ++ xs.flatMap g
  | [], acc, acc', h => by
      rw [foldlM_nil, Except.pure_eq_ok] at h
      rw [← h, flatMap_nil, append_nil]
  | x :: xs, acc, acc', h => by
      rw [foldlM_cons, Except.bind_eq_ok] at h
      obtain ⟨acc₁, h₁, h⟩ := h
      rw [foldlM_eq_ok_of_append hf h, hf acc x acc₁ h₁, flatMap_cons, append_assoc]

/-- An appending fold does not stop with `e` while the accumulator and every
block fit in `cap`, if no step stops with `e` while its block fits. -/
theorem foldlM_ne_error_of_append (e : ε) (cap : ℕ)
    (hf : ∀ acc x acc', f acc x = .ok acc' → acc' = acc ++ g x)
    (he : ∀ acc x, (acc ++ g x).length ≤ cap → f acc x ≠ .error e) :
    ∀ {xs : List β} {acc : List γ}, (acc ++ xs.flatMap g).length ≤ cap →
      xs.foldlM f acc ≠ .error e
  | [], acc, _ => by
      rw [foldlM_nil]
      intro h
      cases h
  | x :: xs, acc, hcap => by
      rw [flatMap_cons, ← append_assoc] at hcap
      have hstep : (acc ++ g x).length ≤ cap := by
        rw [length_append] at hcap
        omega
      rw [foldlM_cons]
      intro h
      rcases Except.bind_eq_error.mp h with h₁ | ⟨acc₁, h₁, h⟩
      · exact he acc x hstep h₁
      · rw [hf acc x acc₁ h₁] at h
        exact foldlM_ne_error_of_append e cap hf he hcap h

end Appending

/-! ## Growing folds -/

section Growing

variable {σ : Type} {R : σ → σ → Prop} {f : σ → β → Except ε σ}

/-- A fold whose every returning step on an element of the list moves its
state along `R` moves its start to its result along `R`. -/
theorem foldlM_rel_of_mem (hrefl : ∀ s, R s s) (htrans : ∀ {s t u}, R s t → R t u → R s u) :
    ∀ {xs : List β}, (∀ s x s', x ∈ xs → f s x = .ok s' → R s s') →
      ∀ {s s' : σ}, xs.foldlM f s = .ok s' → R s s' := by
  intro xs
  induction xs with
  | nil =>
    intro _ s s' h
    rw [foldlM_nil, Except.pure_eq_ok] at h
    exact h ▸ hrefl s
  | cons x xs ih =>
    intro hf s s' h
    rw [foldlM_cons, Except.bind_eq_ok] at h
    obtain ⟨s₁, h₁, h⟩ := h
    exact htrans (hf s x s₁ mem_cons_self h₁)
      (ih (fun t y t' hy => hf t y t' (mem_cons_of_mem x hy)) h)

/-- A fold whose every returning step moves its state along `R` moves its
start to its result along `R`. -/
theorem foldlM_rel (hrefl : ∀ s, R s s) (htrans : ∀ {s t u}, R s t → R t u → R s u)
    (hf : ∀ s x s', f s x = .ok s' → R s s') {xs : List β} {s s' : σ}
    (h : xs.foldlM f s = .ok s') : R s s' :=
  foldlM_rel_of_mem hrefl htrans (fun s x s' _ => hf s x s') h

/-- What every returning step on an element of the list establishes for it
holds for every element after the fold, when `R` keeps it. -/
theorem foldlM_forall_mem_of_mem {P : β → σ → Prop} (hrefl : ∀ s, R s s)
    (htrans : ∀ {s t u}, R s t → R t u → R s u) (hkeep : ∀ x s t, P x s → R s t → P x t) :
    ∀ {xs : List β}, (∀ s x s', x ∈ xs → f s x = .ok s' → R s s') →
      (∀ s x s', x ∈ xs → f s x = .ok s' → P x s') →
      ∀ {s s' : σ}, xs.foldlM f s = .ok s' → ∀ x ∈ xs, P x s' := by
  intro xs
  induction xs with
  | nil => intro _ _ _ _ _ x hx; exact absurd hx not_mem_nil
  | cons y xs ih =>
    intro hf hP s s' h x hx
    rw [foldlM_cons, Except.bind_eq_ok] at h
    obtain ⟨s₁, h₁, h⟩ := h
    have hf' : ∀ t z t', z ∈ xs → f t z = .ok t' → R t t' :=
      fun t z t' hz => hf t z t' (mem_cons_of_mem y hz)
    rcases mem_cons.mp hx with rfl | hx
    · -- the element's own step, then the rest of the fold keeps it
      exact hkeep x s₁ s' (hP s x s₁ mem_cons_self h₁) (foldlM_rel_of_mem hrefl htrans hf' h)
    · exact ih hf' (fun t z t' hz => hP t z t' (mem_cons_of_mem y hz)) h x hx

/-- What every returning step establishes for its element holds for every
element after the fold, when `R` keeps it. -/
theorem foldlM_forall_mem {P : β → σ → Prop} (hrefl : ∀ s, R s s)
    (htrans : ∀ {s t u}, R s t → R t u → R s u) (hf : ∀ s x s', f s x = .ok s' → R s s')
    (hP : ∀ s x s', f s x = .ok s' → P x s') (hkeep : ∀ x s t, P x s → R s t → P x t)
    {xs : List β} {s s' : σ} (h : xs.foldlM f s = .ok s') : ∀ x ∈ xs, P x s' :=
  foldlM_forall_mem_of_mem hrefl htrans hkeep (fun s x s' _ => hf s x s') (fun s x s' _ => hP s x s') h

/-- A growing fold under an invariant: when every returning step from a state
of `I`, on an element of the list, returns a state of `I` along `R` and
establishes `P` for its element, the fold ends in `I`, moved along `R`, with
`P` for every element that `R` keeps. -/
theorem foldlM_forall_mem_of_invariant {I : σ → Prop} {P : β → σ → Prop}
    (hrefl : ∀ s, R s s) (htrans : ∀ {s t u}, R s t → R t u → R s u)
    (hkeep : ∀ x s t, P x s → R s t → P x t) :
    ∀ {xs : List β}, (∀ s x s', I s → x ∈ xs → f s x = .ok s' → I s' ∧ R s s' ∧ P x s') →
      ∀ {s s' : σ}, I s → xs.foldlM f s = .ok s' → I s' ∧ R s s' ∧ ∀ x ∈ xs, P x s' := by
  intro xs
  induction xs with
  | nil =>
    intro _ s s' hs h
    rw [foldlM_nil, Except.pure_eq_ok] at h
    subst h
    exact ⟨hs, hrefl s, fun x hx => absurd hx not_mem_nil⟩
  | cons y xs ih =>
    intro hstep s s' hs h
    rw [foldlM_cons, Except.bind_eq_ok] at h
    obtain ⟨s₁, h₁, h⟩ := h
    obtain ⟨hs₁, hR₁, hP₁⟩ := hstep s y s₁ hs mem_cons_self h₁
    obtain ⟨hs', hR, hP⟩ :=
      ih (fun t z t' ht hz => hstep t z t' ht (mem_cons_of_mem y hz)) hs₁ h
    refine ⟨hs', htrans hR₁ hR, fun x hx => ?_⟩
    rcases mem_cons.mp hx with rfl | hx
    · -- the element's own step, then the rest of the fold keeps it
      exact hkeep x s₁ s' hP₁ hR
    · exact hP x hx

end Growing

/-! ## Total folds -/

section Total

variable {σ : Type} {f : σ → β → Except ε σ} {I : σ → Prop}

/-- A fold whose every step, from a state of the invariant `I` and on an
element of the list, returns a state of `I` returns one too. -/
theorem foldlM_ok_of_invariant :
    ∀ {xs : List β}, (∀ s, I s → ∀ x ∈ xs, ∃ s', f s x = .ok s' ∧ I s') →
      ∀ {s : σ}, I s → ∃ s', xs.foldlM f s = .ok s' ∧ I s'
  | [], _, s, hs => ⟨s, rfl, hs⟩
  | x :: xs, hstep, s, hs => by
    obtain ⟨s₁, h₁, hs₁⟩ := hstep s hs x mem_cons_self
    obtain ⟨s', h', hs'⟩ :=
      foldlM_ok_of_invariant (fun t ht y hy => hstep t ht y (mem_cons_of_mem x hy)) hs₁
    exact ⟨s', by rw [foldlM_cons, h₁, Except.ok_bind, h'], hs'⟩

/-- A fold whose every step, from a state of `I` with some budget `μ` left
and on an element of the list, returns a state of `I` having spent at most
one unit returns when the budget covers the list. -/
theorem foldlM_ok_of_budget {μ : σ → ℕ} :
    ∀ {xs : List β}, (∀ s, I s → 0 < μ s → ∀ x ∈ xs, ∃ s', f s x = .ok s' ∧ I s' ∧ μ s ≤ μ s' + 1) →
      ∀ {s : σ}, I s → xs.length ≤ μ s → ∃ s', xs.foldlM f s = .ok s' ∧ I s'
  | [], _, s, hs, _ => ⟨s, rfl, hs⟩
  | x :: xs, hstep, s, hs, hlen => by
    have hpos : 0 < μ s := by
      rw [length_cons] at hlen
      omega
    obtain ⟨s₁, h₁, hs₁, hμ⟩ := hstep s hs hpos x mem_cons_self
    obtain ⟨s', h', hs'⟩ := foldlM_ok_of_budget
      (fun t ht hpos y hy => hstep t ht hpos y (mem_cons_of_mem x hy)) hs₁
      (by rw [length_cons] at hlen; omega)
    exact ⟨s', by rw [foldlM_cons, h₁, Except.ok_bind, h'], hs'⟩

/-- A fold whose every step, from a state of `I` and on an element of the
list, returns a state of `I` having spent at most one unit of `μ` spends at
most one unit per element. -/
theorem foldlM_spent_le {μ : σ → ℕ} :
    ∀ {xs : List β}, (∀ s x s', I s → x ∈ xs → f s x = .ok s' → I s' ∧ μ s ≤ μ s' + 1) →
      ∀ {s s' : σ}, I s → xs.foldlM f s = .ok s' → I s' ∧ μ s ≤ μ s' + xs.length
  | [], _, s, s', hs, h => by
    rw [foldlM_nil, Except.pure_eq_ok] at h
    subst h
    exact ⟨hs, Nat.le_add_right _ _⟩
  | x :: xs, hstep, s, s', hs, h => by
    rw [foldlM_cons, Except.bind_eq_ok] at h
    obtain ⟨s₁, h₁, h⟩ := h
    obtain ⟨hs₁, hμ₁⟩ := hstep s x s₁ hs mem_cons_self h₁
    obtain ⟨hs', hμ'⟩ :=
      foldlM_spent_le (fun t y t' ht hy => hstep t y t' ht (mem_cons_of_mem x hy)) hs₁ h
    rw [length_cons]
    exact ⟨hs', by omega⟩

end Total

end List
