/-
KernelTestkit.Items.DuplicateTheorems — a copy is a copy, or nothing.

`cJSON_Duplicate` makes a tree with the same contents and cells of its own.
When memory runs out on the way, it frees what it has made and nothing else.
-/
import KernelTestkit.Items.EditTheorems

namespace KernelTestkit.Items

open KernelTestkit.Lib
open KernelTestkit.Lib.CellTree (first last chain roots roots_cons whole wholeAll shape shapes)

variable {malloc : Allocator (Cell Fields)} {heap : Memory} {M : Cells (Cell Fields)}
  {t : CellTree Fields} {prev next : Ptr}

/-- What a function that makes a tree has done: the tree is there, or nothing has
been left. -/
def Made (heap' : Memory) (M : Cells (Cell Fields)) (shape : Shape Fields) (r : Ptr) : Prop :=
  (∃ t' : CellTree Fields, r = some t'.addr ∧ t'.shape = shape ∧
    heap'.Holds (t'.cells none none + M)) ∨ r = none ∧ heap'.Holds M

/-- With `fuel` rounds, a tree that is small enough is copied. -/
def Copies (malloc : Allocator (Cell Fields)) (fuel : Nat) : Prop :=
  ∀ {t : CellTree Fields} {prev next : Ptr} {heap : Memory} {M : Cells (Cell Fields)},
    whole t = true → heap.Holds (t.cells prev next + M) → 2 * (t.cells prev next).card ≤ fuel →
    ∃ r heap', duplicate malloc fuel (some t.addr) true heap = .ok (r, heap') ∧
      Made heap' (t.cells prev next + M) t.shape r

/-- The same for siblings, whose copies go behind the children `ds`. -/
def CopiesAll (malloc : Allocator (Cell Fields)) (fuel : Nat) : Prop :=
  ∀ {cs ds : List (CellTree Fields)} {prev : Ptr} {heap : Memory} {M : Cells (Cell Fields)}
    {y : Nat} {d : Fields}, wholeAll cs = true →
    heap.Holds ((CellTree.node y d ds).cells none none + (chain prev cs none + M)) →
    2 * (chain prev cs none).card + 1 ≤ fuel →
    ∃ ok heap' ds', duplicateChildren malloc fuel y (last none ds) (first cs none) heap
        = .ok (ok, heap') ∧
      heap'.Holds ((CellTree.node y d ds').cells none none + (chain prev cs none + M)) ∧
      (ok = true → shapes ds' = shapes ds ++ shapes cs)

theorem Copies.step {fuel : Nat} (hall : CopiesAll malloc fuel) : Copies malloc (fuel + 1) := by
  intro t prev next heap M hwhole H hfuel
  cases t with
  | borrower => cases hwhole
  | node x d cs =>
      rw [CellTree.addr, duplicate]
      cases hy : malloc.answer heap with
      | none => exact ⟨none, heap, rfl, Or.inr ⟨rfl, H⟩⟩
      | some y =>
          have hload : load heap (some x) = .ok ⟨next, prev, first cs none, false, d⟩ := load_root H
          have H₁ := newItem_alone (malloc.fresh hy) H d
          rw [cells_node x, Multiset.card_add, container, Multiset.card_singleton] at hfuel
          have H₁' : (heap.store y (alone d)).Holds ((CellTree.node y d []).cells none none
              + (chain none cs none + (container x d prev next (first cs none) + M))) :=
            H₁.congr (by rw [cells_node x]; abel)
          obtain ⟨ok, heap₂, ds, hchildren, H₂, hds⟩ := hall hwhole H₁' (by omega)
          have H₂' : heap₂.Holds ((CellTree.node y d ds).cells none none
              + ((CellTree.node x d cs).cells prev next + M)) :=
            H₂.congr (by rw [cells_node x]; abel)
          have hchildren' : duplicateChildren malloc fuel y none (first cs none)
              (heap.store y (alone d)) = .ok (ok, heap₂) := hchildren
          cases ok with
          | true =>
              refine ⟨some y, heap₂, ?_, Or.inl ⟨_, rfl, ?_, H₂'⟩⟩
              · simp [hload, hchildren', bind, Except.bind, pure, Except.pure]
              · rw [shape, shape, hds rfl]
                rfl
          | false =>
              obtain ⟨heap₃, hdelete, H₃⟩ := delete_root H₂'
              have hdelete' : cjsonDelete (some y) heap₂ = .ok heap₃ := hdelete
              refine ⟨none, heap₃, ?_, Or.inr ⟨rfl, H₃⟩⟩
              simp [hload, hchildren', hdelete', bind, Except.bind, pure, Except.pure]

theorem CopiesAll.step {fuel : Nat} (htree : Copies malloc fuel) (hall : CopiesAll malloc fuel) :
    CopiesAll malloc (fuel + 1) := by
  intro cs ds prev heap M y d hwhole H hfuel
  cases cs with
  | nil => exact ⟨true, heap, ds, rfl, H, fun _ => (List.append_nil _).symm⟩
  | cons c cs =>
      obtain ⟨hc, hcs⟩ := Bool.and_eq_true_iff.mp hwhole
      rw [CellTree.chain_cons, Multiset.card_add] at hfuel
      rw [CellTree.chain_cons] at H ⊢
      have hpos : 0 < (c.cells prev (first cs none)).card := by
        rw [CellTree.cells_eq, Multiset.card_cons]
        exact Nat.succ_pos _
      have H₀ : heap.Holds (c.cells prev (first cs none) + (chain (some c.addr) cs none
          + ((CellTree.node y d ds).cells none none + M))) := H.congr (by abel)
      obtain ⟨r, heap₁, hcopy, hmade⟩ := htree hc H₀ (by omega)
      rw [first, duplicateChildren, hcopy]
      simp only [bind, Except.bind]
      rcases hmade with ⟨c', rfl, hshape, H₁⟩ | ⟨rfl, H₁⟩
      · have H₁' : heap₁.Holds ((CellTree.node y d ds).cells none none + (c'.cells none none
            + (c.cells prev (first cs none) + (chain (some c.addr) cs none + M)))) :=
          H₁.congr (by abel)
        obtain ⟨heap₂, hlink, H₂⟩ := linkChild_node H₁'
        have hload := load_root (H₂.congr (add_left_comm _ _ _))
        have H₂' : heap₂.Holds ((CellTree.node y d (ds ++ [c'])).cells none none
            + (chain (some c.addr) cs none + (c.cells prev (first cs none) + M))) :=
          H₂.congr (by abel)
        obtain ⟨ok, heap₃, ds', hrest, H₃, hds⟩ := hall hcs H₂' (by omega)
        rw [CellTree.last_concat] at hrest
        refine ⟨ok, heap₃, ds', ?_, H₃.congr (by abel), fun hok => ?_⟩
        · rw [if_neg (by simp)]
          simp only [hlink, hload, CellTree.cell_next, hrest]
        · rw [hds hok, CellTree.shapes_append, shapes, shapes, hshape, shapes, List.append_assoc]
          rfl
      · exact ⟨false, heap₁, ds, rfl, H₁.congr (by abel), by simp⟩

end KernelTestkit.Items
