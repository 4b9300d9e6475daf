/-
KernelTestkit.Lib.Reordered — folding a list in another order.

Two lists are `Reordered` when each is a permutation of the other that keeps
the order of the elements of one key. A fold whose steps commute for
elements of different keys cannot tell such lists apart (`Reordered.foldl`):
the first element of the one list is brought to the front of the other past
elements of other keys, one at a time (`foldl_front`).
-/
import Mathlib.Data.List.Basic

namespace KernelTestkit.Lib

variable {α κ σ : Type} [DecidableEq κ] {key : α → κ} {f : σ → α → σ}

/-- The same elements, and those of one key in the same order. -/
structure Reordered (key : α → κ) (l₁ l₂ : List α) : Prop where
  perm : l₁.Perm l₂
  same : ∀ k, (l₁.filter fun a => key a = k) = l₂.filter fun a => key a = k

omit [DecidableEq κ] in
/-- An element goes to the front, past elements of other keys. -/
theorem foldl_front (hcomm : ∀ s a b, key a ≠ key b → f (f s a) b = f (f s b) a) {a : α}
    {xs ys : List α} (hxs : ∀ x ∈ xs, key x ≠ key a) (s : σ) :
    (xs ++ a :: ys).foldl f s = (xs ++ ys).foldl f (f s a) := by
  induction xs generalizing s with
  | nil => rfl
  | cons x xs ih =>
      obtain ⟨hx, hxs⟩ := List.forall_mem_cons.mp hxs
      have hrest := ih hxs (f s x)
      rw [hcomm s x a hx] at hrest
      exact hrest

/-- What is left of two lists without the first element of a key. -/
theorem filter_front {a : α} {l xs ys : List α} (hxs : ∀ x ∈ xs, key x ≠ key a)
    (hsame : ∀ k, ((a :: l).filter fun x => key x = k)
      = (xs ++ a :: ys).filter fun x => key x = k) (k : κ) :
    (l.filter fun x => key x = k) = (xs ++ ys).filter fun x => key x = k := by
  have hk := hsame k
  rw [List.filter_append, List.filter_cons, List.filter_cons] at hk
  rw [List.filter_append]
  by_cases ha : key a = k
  · have hnil : (xs.filter fun x => key x = k) = [] := by
      rw [List.filter_eq_nil_iff]
      intro x hx
      simpa [← ha] using hxs x hx
    rw [hnil] at hk ⊢
    simpa [ha] using hk
  · simpa [ha] using hk

/-- **Folding in another order**: a fold whose steps commute for elements of
different keys gives the same result. -/
theorem Reordered.foldl (hcomm : ∀ s a b, key a ≠ key b → f (f s a) b = f (f s b) a)
    {l₁ l₂ : List α} (h : Reordered key l₁ l₂) (s : σ) : l₁.foldl f s = l₂.foldl f s := by
  have hsame := h.same
  clear h
  induction l₁ generalizing l₂ s with
  | nil =>
      have hnil : l₂ = [] := by
        refine List.eq_nil_iff_forall_not_mem.mpr fun a ha => ?_
        have hmem : a ∈ l₂.filter fun x => key x = key a :=
          List.mem_filter.mpr ⟨ha, decide_eq_true rfl⟩
        rw [← hsame] at hmem
        cases hmem
      rw [hnil]
  | cons a l ih =>
      have hhead := (hsame (key a)).symm
      rw [List.filter_cons_of_pos (by simp), List.filter_eq_cons_iff] at hhead
      obtain ⟨xs, ys, rfl, hxs, _, _⟩ := hhead
      have hother : ∀ x ∈ xs, key x ≠ key a := fun x hx => by simpa using hxs x hx
      rw [foldl_front hcomm hother, List.foldl_cons]
      exact ih _ (filter_front hother hsame)

end KernelTestkit.Lib
