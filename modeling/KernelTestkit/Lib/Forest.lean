/-
KernelTestkit.Lib.Forest — trees of linked cells.

A cell links to its next and its previous sibling and to its first child. A
node of a tree owns its children; a borrower has a link to children that are
owned elsewhere, or nowhere any more. `chain prev ts next` is the cells of
siblings between two neighbours, and a `Context` is a tree around one of its
nodes: whatever is put there instead, if it has the address of the node, the
cells around it are the same.

* `chain_append` — siblings are linked where they meet and nowhere else.
* `Holds.relink` — a tree whose neighbours change.
* `Context.exists_frame` — the cells around a node.
-/
import KernelTestkit.Lib.Heap
import Mathlib.Data.Multiset.Bind
import Mathlib.Tactic.Abel

namespace KernelTestkit.Lib

variable {α : Type}

structure Cell (α : Type) where
  next : Option Nat
  prev : Option Nat
  child : Option Nat
  borrowed : Bool
  data : α

inductive CellTree (α : Type) where
  | node (addr : Nat) (data : α) (children : List (CellTree α))
  | borrower (addr : Nat) (data : α) (child : Option Nat)

/-- What is in the cells of a tree, wherever they are. -/
inductive Shape (α : Type) where
  | mk (data : α) (children : List (Shape α))

namespace CellTree

def addr : CellTree α → Nat
  | node x _ _ => x
  | borrower x _ _ => x

def data : CellTree α → α
  | node _ d _ => d
  | borrower _ d _ => d

/-- The same tree with other data at its root. -/
def withData (d : α) : CellTree α → CellTree α
  | node x _ cs => node x d cs
  | borrower x _ c => borrower x d c

@[simp] theorem addr_withData (t : CellTree α) (d : α) : (t.withData d).addr = t.addr := by
  cases t with
  | node => rfl
  | borrower => rfl

@[simp] theorem data_withData (t : CellTree α) (d : α) : (t.withData d).data = d := by
  cases t with
  | node => rfl
  | borrower => rfl

@[simp] theorem withData_withData (t : CellTree α) (d d' : α) :
    (t.withData d).withData d' = t.withData d' := by
  cases t with
  | node => rfl
  | borrower => rfl

/-- The first of some siblings, or what is behind them. -/
def first : List (CellTree α) → Option Nat → Option Nat
  | [], next => next
  | t :: _, _ => some t.addr

/-- The last of some siblings, or what is in front of them. -/
def last (prev : Option Nat) : List (CellTree α) → Option Nat
  | [] => prev
  | t :: ts => last (some t.addr) ts

/-- The cell of the root of a tree. -/
def cell (prev next : Option Nat) : CellTree α → Cell α
  | node _ d cs => ⟨next, prev, first cs none, false, d⟩
  | borrower _ d c => ⟨next, prev, c, true, d⟩

@[simp] theorem cell_next (t : CellTree α) (prev next : Option Nat) :
    (t.cell prev next).next = next := by
  cases t with
  | node => rfl
  | borrower => rfl

@[simp] theorem cell_prev (t : CellTree α) (prev next : Option Nat) :
    (t.cell prev next).prev = prev := by
  cases t with
  | node => rfl
  | borrower => rfl

@[simp] theorem cell_data (t : CellTree α) (prev next : Option Nat) :
    (t.cell prev next).data = t.data := by
  cases t with
  | node => rfl
  | borrower => rfl

mutual

/-- The cells of a tree but for its root. -/
def inside : CellTree α → Cells (Cell α)
  | node _ _ cs => chain none cs none
  | borrower _ _ _ => 0

/-- The cells of siblings. -/
def chain (prev : Option Nat) : List (CellTree α) → Option Nat → Cells (Cell α)
  | [], _ => 0
  | t :: ts, next =>
      ⟨t.addr, t.cell prev (first ts next)⟩ ::ₘ (inside t + chain (some t.addr) ts next)

end

/-- The cells of a tree. -/
def cells (prev next : Option Nat) (t : CellTree α) : Cells (Cell α) := chain prev [t] next

variable {t : CellTree α} {ts us : List (CellTree α)} {prev next : Option Nat}

theorem cells_eq (prev next : Option Nat) (t : CellTree α) :
    t.cells prev next = ⟨t.addr, t.cell prev next⟩ ::ₘ t.inside := by
  rw [cells, chain, chain, add_zero]
  rfl

theorem first_append (ts us : List (CellTree α)) (next : Option Nat) :
    first (ts ++ us) next = first ts (first us next) := by
  cases ts with
  | nil => rfl
  | cons t ts => rfl

theorem first_concat (ts : List (CellTree α)) (t : CellTree α) (next : Option Nat) :
    first (ts ++ [t]) next = first ts (some t.addr) := first_append ts [t] next

/-- The first of some siblings in front of `x`, when what is behind them changes. -/
theorem first_behind {x : Nat} (h : ∀ t ∈ ts, t.addr ≠ x) (next : Option Nat) :
    (if first ts (some x) = some x then next else first ts (some x)) = first ts next := by
  cases ts with
  | nil => rw [first, if_pos rfl, first]
  | cons t ts =>
      have hne := h t List.mem_cons_self
      rw [first, if_neg (by simpa using hne), first]

theorem last_concat (prev : Option Nat) (ts : List (CellTree α)) (t : CellTree α) :
    last prev (ts ++ [t]) = some t.addr := by
  induction ts generalizing prev with
  | nil => rfl
  | cons u ts ih => exact ih (some u.addr)

theorem exists_last_eq (prev : Option Nat) (t : CellTree α) (ts : List (CellTree α)) :
    ∃ x, last prev (t :: ts) = some x := by
  induction ts generalizing t with
  | nil => exact ⟨t.addr, rfl⟩
  | cons u ts ih => exact ih u

/-- Siblings in two parts. -/
theorem chain_append (prev : Option Nat) (ts us : List (CellTree α)) (next : Option Nat) :
    chain prev (ts ++ us) next = chain prev ts (first us next) + chain (last prev ts) us next := by
  induction ts generalizing prev with
  | nil => rw [List.nil_append, chain, zero_add, last]
  | cons t ts ih =>
      rw [List.cons_append, chain, chain, ih, first_append, last, Multiset.cons_add, add_assoc]

theorem chain_cons (prev : Option Nat) (t : CellTree α) (ts : List (CellTree α))
    (next : Option Nat) :
    chain prev (t :: ts) next = t.cells prev (first ts next) + chain (some t.addr) ts next := by
  rw [cells_eq, chain, Multiset.cons_add]

/-- Siblings and the last of them. -/
theorem chain_concat (prev : Option Nat) (ts : List (CellTree α)) (t : CellTree α)
    (next : Option Nat) : chain prev (ts ++ [t]) next
      = t.cells (last prev ts) next + chain prev ts (some t.addr) := by
  rw [chain_append, first, cells, add_comm]

/-- Siblings around one of them. -/
theorem chain_middle (prev : Option Nat) (ts : List (CellTree α)) (t : CellTree α)
    (us : List (CellTree α)) (next : Option Nat) : chain prev (ts ++ t :: us) next
      = chain prev ts (some t.addr) + (t.cells (last prev ts) (first us next)
        + chain (some t.addr) us next) := by
  rw [chain_append, chain_cons]
  rfl

/-- The number of cells does not depend on the neighbours. -/
theorem length_le_card_chain (prev : Option Nat) (ts : List (CellTree α)) (next : Option Nat) :
    ts.length ≤ (chain prev ts next).card := by
  induction ts generalizing prev with
  | nil => exact Nat.zero_le _
  | cons t ts ih =>
      have hle := ih (some t.addr)
      rw [chain, Multiset.card_cons, Multiset.card_add, List.length_cons]
      omega

mutual

/-- There is no borrower in the tree. -/
def whole : CellTree α → Bool
  | node _ _ cs => wholeAll cs
  | borrower _ _ _ => false

def wholeAll : List (CellTree α) → Bool
  | [] => true
  | t :: ts => whole t && wholeAll ts

end

theorem wholeAll_concat {ts : List (CellTree α)} {t : CellTree α} (hts : wholeAll ts = true)
    (ht : t.whole = true) : wholeAll (ts ++ [t]) = true := by
  induction ts with
  | nil => simp [wholeAll, ht]
  | cons u us ih =>
      simp only [List.cons_append, wholeAll, Bool.and_eq_true] at hts ⊢
      exact ⟨hts.1, ih hts.2⟩

mutual

/-- A tree without its addresses. -/
def shape : CellTree α → Shape α
  | node _ d cs => .mk d (shapes cs)
  | borrower _ d _ => .mk d []

def shapes : List (CellTree α) → List (Shape α)
  | [] => []
  | t :: ts => shape t :: shapes ts

end

theorem shapes_append (ts us : List (CellTree α)) : shapes (ts ++ us) = shapes ts ++ shapes us := by
  induction ts with
  | nil => rfl
  | cons t ts ih => rw [List.cons_append, shapes, shapes, ih, List.cons_append]

/-- The cells of trees that are nobody's children. -/
def roots (W : Multiset (CellTree α)) : Cells (Cell α) := W.bind (cells none none)

theorem roots_cons (t : CellTree α) (W : Multiset (CellTree α)) :
    roots (t ::ₘ W) = t.cells none none + roots W := Multiset.cons_bind t W _

end CellTree

open CellTree

namespace Heap

variable {h : Heap (Cell α)} {M : Cells (Cell α)} {ts us : List (CellTree α)} {t : CellTree α}
  {prev next : Option Nat}

theorem Holds.congr {M' : Cells (Cell α)} (H : h.Holds M) (heq : M = M') : h.Holds M' := heq ▸ H

/-- The root of a tree. -/
theorem Holds.lookup_root (H : h.Holds (t.cells prev next + M)) :
    h.lookup t.addr = some (t.cell prev next) := by
  rw [cells_eq, Multiset.cons_add] at H
  exact H.lookup

/-- A tree between other neighbours. -/
theorem Holds.relink (H : h.Holds (t.cells prev next + M)) (prev' next' : Option Nat) :
    (h.store t.addr (t.cell prev' next')).Holds (t.cells prev' next' + M) := by
  rw [cells_eq, Multiset.cons_add] at H ⊢
  exact H.store _

/-- One of some siblings. -/
theorem Holds.lookup_middle (H : h.Holds (chain prev (ts ++ t :: us) next + M)) :
    h.lookup t.addr = some (t.cell (last prev ts) (first us next)) := by
  rw [chain_middle] at H
  refine Holds.lookup_root (M := chain prev ts (some t.addr) + chain (some t.addr) us next + M) ?_
  refine H.congr ?_
  abel

/-- Two trees have two addresses. -/
theorem Holds.addr_ne {u : CellTree α} {prev' next' : Option Nat}
    (H : h.Holds (t.cells prev next + (u.cells prev' next' + M))) : t.addr ≠ u.addr := by
  rw [cells_eq, cells_eq, Multiset.cons_add, Multiset.cons_add, Multiset.add_cons] at H
  exact H.ne

/-- A tree next to some siblings has none of their addresses. -/
theorem Holds.addr_ne_of_mem {prev' next' : Option Nat}
    (H : h.Holds (chain prev ts next + (t.cells prev' next' + M))) :
    ∀ u ∈ ts, u.addr ≠ t.addr := by
  intro u hu
  obtain ⟨vs, ws, rfl⟩ := List.append_of_mem hu
  rw [chain_middle] at H
  exact Holds.addr_ne (H.congr (show _ = u.cells (last prev vs) (first ws next)
    + (t.cells prev' next' + (chain prev vs (some u.addr) + chain (some u.addr) ws next + M))
    by abel))

end Heap

/-! ## Links -/

namespace CellTree

variable {x y : Nat} {c : Cell α}

mutual

theorem exists_next_inside : ∀ {t : CellTree α}, ⟨x, c⟩ ∈ t.inside → c.next = some y →
    ∃ c', ⟨y, c'⟩ ∈ t.inside ∧ c'.prev = some x
  | node _ _ _, hmem, hnext => by
      rcases exists_next_chain hmem hnext with h | ⟨h, -⟩
      · exact h
      · cases h
  | borrower _ _ _, hmem, _ => absurd hmem (Multiset.notMem_zero _)

/-- A link to the next one leads to a cell that links back, or out of the siblings. -/
theorem exists_next_chain : ∀ {ts : List (CellTree α)} {prev next : Option Nat},
    ⟨x, c⟩ ∈ chain prev ts next → c.next = some y →
    (∃ c', ⟨y, c'⟩ ∈ chain prev ts next ∧ c'.prev = some x) ∨
      next = some y ∧ last prev ts = some x
  | [], _, _, hmem, _ => absurd hmem (Multiset.notMem_zero _)
  | t :: ts, prev, next, hmem, hnext => by
      rw [chain, Multiset.mem_cons, Multiset.mem_add] at hmem
      simp only [chain, Multiset.mem_cons, Multiset.mem_add, last]
      rcases hmem with hroot | hinside | hrest
      · obtain ⟨rfl, hc⟩ := Sigma.mk.inj hroot
        obtain rfl := eq_of_heq hc
        rw [cell_next] at hnext
        cases ts with
        | nil => exact Or.inr ⟨hnext, rfl⟩
        | cons u us =>
            obtain rfl := Option.some.inj hnext
            refine Or.inl
              ⟨u.cell (some t.addr) (first us next), Or.inr (Or.inr ?_), cell_prev _ _ _⟩
            rw [chain]
            exact Multiset.mem_cons_self _ _
      · obtain ⟨c', hmem', hprev⟩ := exists_next_inside hinside hnext
        exact Or.inl ⟨c', Or.inr (Or.inl hmem'), hprev⟩
      · rcases exists_next_chain hrest hnext with ⟨c', hmem', hprev⟩ | hlast
        · exact Or.inl ⟨c', Or.inr (Or.inr hmem'), hprev⟩
        · exact Or.inr hlast

end

mutual

theorem exists_prev_inside : ∀ {t : CellTree α}, ⟨x, c⟩ ∈ t.inside → c.prev = some y →
    ∃ c', ⟨y, c'⟩ ∈ t.inside ∧ c'.next = some x
  | node _ _ _, hmem, hprev => by
      rcases exists_prev_chain hmem hprev with h | ⟨h, -⟩
      · exact h
      · cases h
  | borrower _ _ _, hmem, _ => absurd hmem (Multiset.notMem_zero _)

/-- The same for a link to the previous one. -/
theorem exists_prev_chain : ∀ {ts : List (CellTree α)} {prev next : Option Nat},
    ⟨x, c⟩ ∈ chain prev ts next → c.prev = some y →
    (∃ c', ⟨y, c'⟩ ∈ chain prev ts next ∧ c'.next = some x) ∨
      prev = some y ∧ first ts next = some x
  | [], _, _, hmem, _ => absurd hmem (Multiset.notMem_zero _)
  | t :: ts, prev, next, hmem, hprev => by
      rw [chain, Multiset.mem_cons, Multiset.mem_add] at hmem
      simp only [chain, Multiset.mem_cons, Multiset.mem_add, first]
      rcases hmem with hroot | hinside | hrest
      · obtain ⟨rfl, hc⟩ := Sigma.mk.inj hroot
        obtain rfl := eq_of_heq hc
        rw [cell_prev] at hprev
        exact Or.inr ⟨hprev, rfl⟩
      · obtain ⟨c', hmem', hnext⟩ := exists_prev_inside hinside hprev
        exact Or.inl ⟨c', Or.inr (Or.inl hmem'), hnext⟩
      · rcases exists_prev_chain hrest hprev with ⟨c', hmem', hnext⟩ | ⟨hprev', hfirst⟩
        · exact Or.inl ⟨c', Or.inr (Or.inr hmem'), hnext⟩
        · obtain rfl := Option.some.inj hprev'
          exact Or.inl ⟨_, Or.inl rfl, (cell_next _ _ _).trans hfirst⟩

end

mutual

theorem exists_child_inside : ∀ {t : CellTree α}, ⟨x, c⟩ ∈ t.inside → c.borrowed = false →
    c.child = some y → ∃ c', ⟨y, c'⟩ ∈ t.inside ∧ c'.prev = none
  | node _ _ _, hmem, hborrowed, hchild => exists_child_chain hmem hborrowed hchild
  | borrower _ _ _, hmem, _, _ => absurd hmem (Multiset.notMem_zero _)

/-- A link to a child that is not borrowed leads to the first of a list. -/
theorem exists_child_chain : ∀ {ts : List (CellTree α)} {prev next : Option Nat},
    ⟨x, c⟩ ∈ chain prev ts next → c.borrowed = false → c.child = some y →
    ∃ c', ⟨y, c'⟩ ∈ chain prev ts next ∧ c'.prev = none
  | [], _, _, hmem, _, _ => absurd hmem (Multiset.notMem_zero _)
  | t :: ts, prev, next, hmem, hborrowed, hchild => by
      rw [chain, Multiset.mem_cons, Multiset.mem_add] at hmem
      simp only [chain, Multiset.mem_cons, Multiset.mem_add]
      rcases hmem with hroot | hinside | hrest
      · obtain ⟨rfl, hc⟩ := Sigma.mk.inj hroot
        obtain rfl := eq_of_heq hc
        cases t with
        | borrower => cases hborrowed
        | node z d cs =>
            cases cs with
            | nil => cases hchild
            | cons u us =>
                obtain rfl := Option.some.inj hchild
                refine ⟨u.cell none (first us none), Or.inr (Or.inl ?_), cell_prev _ _ _⟩
                rw [inside, chain]
                exact Multiset.mem_cons_self _ _
      · obtain ⟨c', hmem', hprev⟩ := exists_child_inside hinside hborrowed hchild
        exact ⟨c', Or.inr (Or.inl hmem'), hprev⟩
      · obtain ⟨c', hmem', hprev⟩ := exists_child_chain hrest hborrowed hchild
        exact ⟨c', Or.inr (Or.inr hmem'), hprev⟩

end

end CellTree

/-- Every link of a heap leads to a cell, and the two ways between siblings agree. -/
structure Heap.Linked (h : Heap (Cell α)) : Prop where
  next : ∀ {x y c}, h.lookup x = some c → c.next = some y →
    ∃ c', h.lookup y = some c' ∧ c'.prev = some x
  prev : ∀ {x y c}, h.lookup x = some c → c.prev = some y →
    ∃ c', h.lookup y = some c' ∧ c'.next = some x
  child : ∀ {x y c}, h.lookup x = some c → c.borrowed = false → c.child = some y →
    ∃ c', h.lookup y = some c' ∧ c'.prev = none

/-- **A heap of trees is linked**, but for what is borrowed. -/
theorem Heap.Holds.linked {h : Heap (Cell α)} {W : Multiset (CellTree α)}
    (H : h.Holds (roots W)) : h.Linked := by
  have hmem : ∀ {x : Nat} {c : Cell α}, h.lookup x = some c ↔
      ∃ t ∈ W, ⟨x, c⟩ ∈ chain none [t] none := fun {x c} =>
    H.lookup_iff.trans Multiset.mem_bind
  constructor
  · intro x y c hlookup hnext
    obtain ⟨t, ht, hx⟩ := hmem.mp hlookup
    rcases exists_next_chain hx hnext with ⟨c', hy, hprev⟩ | ⟨h, -⟩
    · exact ⟨c', hmem.mpr ⟨t, ht, hy⟩, hprev⟩
    · cases h
  · intro x y c hlookup hprev
    obtain ⟨t, ht, hx⟩ := hmem.mp hlookup
    rcases exists_prev_chain hx hprev with ⟨c', hy, hnext⟩ | ⟨h, -⟩
    · exact ⟨c', hmem.mpr ⟨t, ht, hy⟩, hnext⟩
    · cases h
  · intro x y c hlookup hborrowed hchild
    obtain ⟨t, ht, hx⟩ := hmem.mp hlookup
    obtain ⟨c', hy, hprev⟩ := exists_child_chain hx hborrowed hchild
    exact ⟨c', hmem.mpr ⟨t, ht, hy⟩, hprev⟩

/-! ## Contexts -/

/-- A tree around one of its nodes. -/
inductive Context (α : Type) where
  | hole
  | child (addr : Nat) (data : α) (before : List (CellTree α)) (inner : Context α)
      (behind : List (CellTree α))

namespace Context

def plug : Context α → CellTree α → CellTree α
  | hole, t => t
  | child x d before inner behind, t => .node x d (before ++ inner.plug t :: behind)

theorem addr_plug {t t' : CellTree α} (h : t.addr = t'.addr) :
    ∀ C : Context α, (C.plug t).addr = (C.plug t').addr
  | hole => h
  | child _ _ _ _ _ => rfl

/-- **The cells around a node** do not depend on what is in its place. -/
theorem exists_frame (C : Context α) (x : Nat) (prev next : Option Nat) :
    ∃ (prev' next' : Option Nat) (frame : Cells (Cell α)), ∀ t : CellTree α, t.addr = x →
      (C.plug t).cells prev next = t.cells prev' next' + frame := by
  induction C generalizing prev next with
  | hole => exact ⟨prev, next, 0, fun t _ => (add_zero _).symm⟩
  | child y d before inner behind ih =>
      obtain ⟨prev', next', frame, hframe⟩ := ih (last none before) (first behind none)
      let z := (inner.plug (.borrower x d none)).addr
      refine ⟨prev', next', ⟨y, ⟨next, prev, first before (some z), false, d⟩⟩ ::ₘ
        (chain none before (some z) + (frame + chain (some z) behind none)), fun t ht => ?_⟩
      have hz : (inner.plug t).addr = z := addr_plug ht inner
      have hchildren := chain_middle none before (inner.plug t) behind none
      rw [hframe t ht, hz] at hchildren
      rw [plug, cells_eq, inside, hchildren, cell, first_append, first, hz]
      simp only [addr, ← Multiset.singleton_add]
      abel

end Context

end KernelTestkit.Lib
