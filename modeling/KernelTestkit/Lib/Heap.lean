/-
KernelTestkit.Lib.Heap — heaps, and the cells a heap holds.

A heap gives every address in use its cell. `Holds h M` says that its cells are
the ones of the multiset `M`, no more and no fewer. What is done to one cell
leaves the others of `M` as they are, so a structure in the heap is described
by the multiset of its cells, and two structures by the sum.
-/
import Mathlib.Data.List.AList
import Mathlib.Data.List.MinMax
import Mathlib.Order.Nat
import Mathlib.Data.Multiset.AddSub

namespace KernelTestkit.Lib

variable {β : Type}

abbrev Heap (β : Type) := AList fun _ : Nat => β

/-- Cells with their addresses. -/
abbrev Cells (β : Type) := Multiset (Σ _ : Nat, β)

/-- What `malloc` answers: an address that is not in use, or nothing. -/
structure Allocator (β : Type) where
  answer : Heap β → Option Nat
  fresh : ∀ {h x}, answer h = some x → x ∉ h

/-- An allocator that never refuses: the address behind all that are in use. -/
def Allocator.behind : Allocator β where
  answer h := some (h.keys.foldr max 0 + 1)
  fresh := by
    rintro h x hx hmem
    have hle : x ≤ h.keys.foldr max 0 := List.le_max_of_le (AList.mem_keys.mp hmem) le_rfl
    have heq := Option.some.inj hx
    omega

namespace Heap

/-- How many cells there are. -/
def size (h : Heap β) : Nat := h.entries.length

/-- A cell put at an address. -/
def store (h : Heap β) (x : Nat) (c : β) : Heap β := AList.insert x c h

/-- The heap without an address. -/
def remove (h : Heap β) (x : Nat) : Heap β := AList.erase x h

/-- The heap has the cells of `M` and no others. -/
def Holds (h : Heap β) (M : Cells β) : Prop := (h.entries : Cells β) = M

variable {h : Heap β} {M : Cells β} {x : Nat} {c : β}

theorem Holds.card_eq (H : h.Holds M) : M.card = h.size := by
  rw [← H]
  rfl

theorem Holds.eq_empty (H : h.Holds 0) : h = ∅ :=
  AList.ext (Multiset.coe_eq_zero _ |>.mp H)

theorem Holds.lookup_iff (H : h.Holds M) : h.lookup x = some c ↔ ⟨x, c⟩ ∈ M := by
  rw [← H, Multiset.mem_coe]
  exact AList.mem_lookup_iff

theorem Holds.lookup (H : h.Holds (⟨x, c⟩ ::ₘ M)) : h.lookup x = some c :=
  H.lookup_iff.mpr (Multiset.mem_cons_self _ _)

theorem Holds.mem_iff (H : h.Holds M) : x ∈ h ↔ ∃ c, ⟨x, c⟩ ∈ M := by
  rw [← AList.lookup_isSome, Option.isSome_iff_exists]
  exact exists_congr fun c => H.lookup_iff

/-- The entries without one of them. -/
theorem Holds.kerase (H : h.Holds (⟨x, c⟩ ::ₘ M)) : (h.entries.kerase x : Cells β) = M := by
  induction M using Quotient.inductionOn with
  | _ l =>
      have hperm : h.entries.Perm (⟨x, c⟩ :: l) := Multiset.coe_eq_coe.mp H
      have hkerase := @List.Perm.kerase _ _ _ x _ _ h.nodupKeys hperm
      rw [@List.kerase_cons_eq _ _ _ x ⟨x, c⟩ l rfl] at hkerase
      exact Multiset.coe_eq_coe.mpr hkerase

theorem Holds.store (H : h.Holds (⟨x, c⟩ ::ₘ M)) (c' : β) :
    (h.store x c').Holds (⟨x, c'⟩ ::ₘ M) := by
  rw [Holds, Heap.store, AList.entries_insert, ← Multiset.cons_coe, H.kerase]

theorem Holds.remove (H : h.Holds (⟨x, c⟩ ::ₘ M)) : (h.remove x).Holds M := H.kerase

/-- A new cell. -/
theorem Holds.alloc (H : h.Holds M) (hx : x ∉ h) (c : β) : (h.store x c).Holds (⟨x, c⟩ ::ₘ M) := by
  rw [Holds, Heap.store, AList.entries_insert_of_notMem hx, ← Multiset.cons_coe, H]

/-- Two cells have two addresses. -/
theorem Holds.ne {y : Nat} {d : β} (H : h.Holds (⟨x, c⟩ ::ₘ ⟨y, d⟩ ::ₘ M)) : x ≠ y := by
  rintro rfl
  have hnot : x ∉ h.remove x := fun hmem => (AList.mem_erase.mp hmem).1 rfl
  exact hnot (H.remove.mem_iff.mpr ⟨d, Multiset.mem_cons_self _ _⟩)

end Heap

end KernelTestkit.Lib
