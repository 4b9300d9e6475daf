/-
KernelTestkit.Lib.Fallible — computations that may fail, and runs of them.

`bind_ok_iff` peels one step off a fallible computation that succeeded.

`Steps R s is s'` is a run: starting in `s`, the inputs `is` take the
system to `s'`, each by the relation `R`. A property every step preserves
holds at the end of every run (`Steps.preserves`); since a prefix of a run
is a run, it holds in every state the run goes through. When a step keeps
the property only under a guard, `Steps.invariant_iff` says which runs keep
it.
-/
import Mathlib.Data.List.Basic
import Mathlib.Data.List.Induction

namespace KernelTestkit.Lib

/-- A sequence of two fallible computations succeeds exactly when both do. -/
theorem bind_ok_iff {ε α β : Type} {x : Except ε α} {f : α → Except ε β} {b : β} :
    (x >>= f) = .ok b ↔ ∃ a, x = .ok a ∧ f a = .ok b := by
  cases x with
  | error e => simp [bind, Except.bind]
  | ok a => simp [bind, Except.bind]

/-! ## Runs -/

/-- `R` takes `s` to `s'` along the inputs `is`, one step for each. -/
inductive Steps {σ ι : Type} (R : σ → ι → σ → Prop) : σ → List ι → σ → Prop where
  | nil (s : σ) : Steps R s [] s
  | cons {s s₁ s' : σ} {i : ι} {is : List ι} :
      R s i s₁ → Steps R s₁ is s' → Steps R s (i :: is) s'

namespace Steps

variable {σ ι : Type} {R : σ → ι → σ → Prop} {s s' : σ}

/-- A run along `is ++ js` goes through a state after `is`. -/
theorem append_iff {is js : List ι} :
    Steps R s (is ++ js) s' ↔ ∃ t, Steps R s is t ∧ Steps R t js s' := by
  induction is generalizing s with
  | nil =>
      constructor
      · exact fun h => ⟨s, .nil s, h⟩
      · rintro ⟨t, h, h'⟩
        cases h
        exact h'
  | cons i is ih =>
      constructor
      · intro h
        cases h with
        | cons hR h =>
            obtain ⟨t, ht, ht'⟩ := ih.mp h
            exact ⟨t, .cons hR ht, ht'⟩
      · rintro ⟨t, h, h'⟩
        cases h with
        | cons hR h => exact .cons hR (ih.mpr ⟨t, h, h'⟩)

/-- **The invariant rule**: what every step preserves, every run preserves. -/
theorem preserves {I : σ → Prop} (hstep : ∀ s i s', I s → R s i s' → I s')
    {is : List ι} (h : Steps R s is s') (hs : I s) : I s' := by
  induction h with
  | nil => exact hs
  | cons hR _ ih => exact ih (hstep _ _ _ hs hR)

/-- What one input establishes and every step preserves holds at the end of
every run with that input. -/
theorem established {P : σ → Prop} {i : ι} (hest : ∀ s s', R s i s' → P s')
    (hstep : ∀ s j s', P s → R s j s' → P s') {is : List ι} (h : Steps R s is s')
    (hi : i ∈ is) : P s' := by
  obtain ⟨before, after, rfl⟩ := List.append_of_mem hi
  obtain ⟨t, _, hrest⟩ := append_iff.mp h
  cases hrest with
  | cons hR hafter => exact hafter.preserves hstep (hest _ _ hR)

/-- A run of one more input. -/
theorem concat_iff {is : List ι} {i : ι} :
    Steps R s (is ++ [i]) s' ↔ ∃ t, Steps R s is t ∧ R t i s' := by
  rw [append_iff]
  constructor
  · rintro ⟨t, h, h'⟩
    cases h' with
    | cons hR hnil =>
        cases hnil
        exact ⟨t, h, hR⟩
  · rintro ⟨t, h, hR⟩
    exact ⟨t, h, .cons hR (.nil s')⟩

/-- **The exact guard of an invariant**: when a step from a state with `I`
keeps `I` exactly under the guard `G`, a run keeps `I` in every state it goes
through exactly when each of its steps meets the guard. -/
theorem invariant_iff {I : σ → Prop} {G : σ → ι → Prop} (hs : I s)
    (hstep : ∀ t i t', I t → R t i t' → (I t' ↔ G t i)) (is : List ι) :
    (∀ before t, before <+: is → Steps R s before t → I t) ↔
      ∀ before i t t', before ++ [i] <+: is → Steps R s before t → R t i t' → G t i := by
  constructor
  · intro hall before i t t' hfront hrun hR
    have ht : I t := hall before t ((List.prefix_append before [i]).trans hfront) hrun
    exact (hstep t i t' ht hR).mp (hall _ t' hfront (concat_iff.mpr ⟨t, hrun, hR⟩))
  · intro hguard before
    induction before using List.reverseRecOn with
    | nil =>
        intro t _ hrun
        cases hrun
        exact hs
    | append_singleton before i ih =>
        intro t' hfront hrun
        obtain ⟨t, hrun, hR⟩ := concat_iff.mp hrun
        have ht : I t := ih t ((List.prefix_append before [i]).trans hfront) hrun
        exact (hstep t i t' ht hR).mpr (hguard before i t t' hfront hrun hR)

end Steps

end KernelTestkit.Lib
