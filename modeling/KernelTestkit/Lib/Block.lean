/-
KernelTestkit.Lib.Block — a bounds-checked block of memory cells.

A block is the list of its cells, so its size is the list's length.
`Block.store blk off xs` overwrites `xs.length` cells from offset `off`
and answers `none` when one of them lies outside the block: an
out-of-bounds store is a value a proof can rule out.

A loop that fills a block from the front keeps it in the form
`pre ++ ys`, with `pre` the cells already written; `store_append` is the
step that moves the boundary.
-/
import Mathlib.Data.List.Basic

namespace KernelTestkit.Lib

/-- A block of memory cells. -/
abbrev Block (α : Type) := List α

namespace Block

variable {α : Type}

/-- A block of `n` equal cells. -/
def fill (n : Nat) (a : α) : Block α := List.replicate n a

/-- Overwrite the cells from `off` on with `xs`; `none` when one of them
is outside the block. -/
def store (blk : Block α) (off : Nat) (xs : List α) : Option (Block α) :=
  if off + xs.length ≤ blk.length then
    some (blk.take off ++ xs ++ blk.drop (off + xs.length))
  else
    none

/-- A store answers exactly when every cell it writes is in the block. -/
theorem store_isSome_iff (blk : Block α) (off : Nat) (xs : List α) :
    (store blk off xs).isSome ↔ off + xs.length ≤ blk.length := by
  unfold store
  split <;> simp_all

theorem store_eq_none_iff (blk : Block α) (off : Nat) (xs : List α) :
    store blk off xs = none ↔ blk.length < off + xs.length := by
  rw [← Option.not_isSome_iff_eq_none, store_isSome_iff]
  omega

/-- Storing right behind the written part `pre` extends it by `xs` and
leaves the cells behind untouched. -/
theorem store_append (pre ys xs : List α) (h : xs.length ≤ ys.length) :
    store (pre ++ ys) pre.length xs = some ((pre ++ xs) ++ ys.drop xs.length) := by
  have hbound : pre.length + xs.length ≤ (pre ++ ys).length := by
    rw [List.length_append]; omega
  rw [store, if_pos hbound, List.take_left, List.drop_append, List.drop_eq_nil_of_le (by omega)]
  simp

end Block

end KernelTestkit.Lib
