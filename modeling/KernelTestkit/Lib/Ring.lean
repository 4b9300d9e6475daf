/-
KernelTestkit.Lib.Ring — circular doubly linked lists over a heap of links.

`Links α` gives every node of type `α` a `next` and a `prev` link, either
of which may be absent. `Linked h a b` says that `b` follows `a`, both
ways. `Ring h head xs` is the circle that starts at the node `head`, goes
through the nodes `xs` and comes back: neighbours in
`head :: xs ++ [head]` are linked, and no node occurs twice.

* `Ring.relink` — linking the two ends of a gap closes the circle without
  the nodes in the gap; `Ring.remove` is the case of one node, whose own
  links may then change (`Ring.remove_off`).
* `Ring.splice` — linking the two ends of a chain into a seam puts the
  chain there; `Ring.insert` is the case of one node.
* `Ring.congr` — a circle depends on the links of its own nodes only.
* `Ring.walk_next`, `Ring.walk_prev` — following `next` visits the nodes in
  order, following `prev` visits them backwards, and both come to an end.
-/
import Mathlib.Data.List.Chain
import Mathlib.Data.List.Nodup
import Mathlib.Logic.Function.Basic

namespace KernelTestkit.Lib

/-- The two links of every node. -/
structure Links (α : Type) where
  next : α → Option α
  prev : α → Option α

namespace Links

variable {α : Type}

/-- `b` follows `a`. -/
def Linked (h : Links α) (a b : α) : Prop := h.next a = some b ∧ h.prev b = some a

/-- Make `b` follow `a`. -/
def link [DecidableEq α] (h : Links α) (a b : α) : Links α where
  next := Function.update h.next a (some b)
  prev := Function.update h.prev b (some a)

/-- The same nodes with the two links exchanged. -/
def swap (h : Links α) : Links α := ⟨h.prev, h.next⟩

theorem linked_swap {h : Links α} {a b : α} : h.swap.Linked a b ↔ h.Linked b a := and_comm

section Link

variable [DecidableEq α] {h : Links α} {a b c d : α}

theorem linked_link (h : Links α) (a b : α) : (h.link a b).Linked a b :=
  ⟨Function.update_self a _ _, Function.update_self b _ _⟩

/-- A new link leaves the others alone. -/
theorem Linked.link (hcd : h.Linked c d) (hc : c ≠ a) (hd : d ≠ b) : (h.link a b).Linked c d :=
  ⟨(Function.update_of_ne hc _ _).trans hcd.1, (Function.update_of_ne hd _ _).trans hcd.2⟩

/-- Links between different nodes can be made in any order. -/
theorem link_comm (hac : a ≠ c) (hbd : b ≠ d) : (h.link a b).link c d = (h.link c d).link a b := by
  simp only [Links.link, Links.mk.injEq]
  exact ⟨Function.update_comm hac _ _ _, Function.update_comm hbd _ _ _⟩

/-- A new link leaves a chain alone that has no link from `a` and none to `b`. -/
theorem isChain_link {l : List α} (hl : l.IsChain h.Linked) (ha : a ∉ l.dropLast)
    (hb : b ∉ l.tail) : l.IsChain (h.link a b).Linked := by
  rw [List.isChain_iff_forall_rel_of_append_cons_cons] at hl ⊢
  intro x y l₁ l₂ hsplit
  refine (hl hsplit).link ?_ ?_
  · rintro rfl
    exact ha (by simp [hsplit])
  · rintro rfl
    exact hb (by cases l₁ <;> simp_all)

end Link

end Links

/-! ## Rings -/

section Ring

variable {α : Type} {h h' : Links α} {head : α} {xs ys zs : List α}

/-- The circle from `head` through `xs` and back. -/
structure Ring (h : Links α) (head : α) (xs : List α) : Prop where
  chain : (head :: (xs ++ [head])).IsChain h.Linked
  nodup : (head :: xs).Nodup

/-- A circle is two chains and the seam between them. -/
theorem isChain_ring_append {R : α → α → Prop} (xs ys : List α) :
    (head :: (xs ++ ys ++ [head])).IsChain R ↔
      (head :: xs).IsChain R ∧ R (xs.getLastD head) (ys.headD head) ∧ (ys ++ [head]).IsChain R := by
  have hlast : (head :: xs).getLast? = some (xs.getLastD head) := by
    simp [List.getLast?_cons]
  have hfirst : (ys ++ [head]).head? = some (ys.headD head) := by
    cases ys <;> rfl
  rw [List.append_assoc, ← List.cons_append, List.isChain_append, hlast, hfirst]
  simp [and_comm]

theorem getLastD_mem_seam (head : α) (xs ys : List α) : xs.getLastD head ∈ head :: (xs ++ ys) :=
  List.mem_append_left ys List.getLastD_mem_cons

theorem headD_mem_seam (head : α) (xs ys : List α) : ys.headD head ∈ head :: (xs ++ ys) := by
  cases ys <;> simp

theorem headD_of_ne_nil (head : α) (hne : zs ≠ []) : zs.headD head = zs.head hne := by
  cases zs with
  | nil => exact absurd rfl hne
  | cons z zs => rfl

theorem getLastD_of_ne_nil (head : α) (hne : zs ≠ []) : zs.getLastD head = zs.getLast hne := by
  rw [List.getLastD_eq_getLast?, List.getLast?_eq_some_getLast hne]
  rfl

/-- The two nodes at a seam occur nowhere else. -/
theorem seam_notMem (xs ys : List α) (hnd : (head :: (xs ++ ys)).Nodup) :
    (xs.getLastD head ∉ (head :: xs).dropLast ∧ xs.getLastD head ∉ ys) ∧
      ys.headD head ∉ xs ∧ ys.headD head ∉ (ys ++ [head]).tail := by
  rw [← List.cons_append] at hnd
  obtain ⟨hxs, hys, hdis⟩ := List.nodup_append'.mp hnd
  have hlast : head :: xs = (head :: xs).dropLast ++ [xs.getLastD head] := by
    conv_lhs => rw [← List.dropLast_concat_getLast (List.cons_ne_nil head xs)]
    cases xs <;> rfl
  refine ⟨⟨?_, fun hbad => hdis List.getLastD_mem_cons hbad⟩, ?_⟩
  · rw [hlast] at hxs
    exact fun hbad => (List.nodup_append'.mp hxs).2.2 hbad (List.mem_singleton_self _)
  · cases ys with
    | nil => exact ⟨(List.nodup_cons.mp hxs).1, by simp⟩
    | cons y ys =>
        have hy : y ∉ head :: xs := fun hbad => hdis hbad (List.mem_cons_self ..)
        rw [List.mem_cons, not_or] at hy
        have hy' := (List.nodup_cons.mp hys).1
        simp [hy.1, hy.2, hy']

/-- The first link of a chain that ends in `head`. -/
theorem next_of_isChain {x : α} (hc : (x :: (xs ++ [head])).IsChain h.Linked) :
    h.next x = some (xs.headD head) := by
  cases xs with
  | nil => exact (List.isChain_cons_cons.mp hc).1.1
  | cons y xs => exact (List.isChain_cons_cons.mp hc).1.1

/-- A circle depends on the links of its own nodes only. -/
theorem Ring.congr (hr : Ring h head xs)
    (hsame : ∀ x ∈ head :: xs, h'.next x = h.next x ∧ h'.prev x = h.prev x) :
    Ring h' head xs where
  nodup := hr.nodup
  chain := by
    refine List.IsChain.imp_of_mem_imp ?_ hr.chain
    intro a b ha hb hab
    have hmem {x : α} (hx : x ∈ head :: (xs ++ [head])) : x ∈ head :: xs := by
      simpa [or_comm, or_assoc] using hx
    exact ⟨(hsame a (hmem ha)).1.trans hab.1, (hsame b (hmem hb)).2.trans hab.2⟩

/-- The two nodes at a seam are linked. -/
theorem Ring.seam (hr : Ring h head (xs ++ ys)) : h.Linked (xs.getLastD head) (ys.headD head) :=
  ((isChain_ring_append xs ys).mp hr.chain).2.1

theorem Ring.next_head (hr : Ring h head xs) : h.next head = some (xs.headD head) :=
  ((isChain_ring_append [] xs).mp hr.chain).2.1.1

theorem Ring.prev_head (hr : Ring h head xs) : h.prev head = some (xs.getLastD head) := by
  rw [← List.append_nil xs] at hr
  exact hr.seam.2

/-- The links of a node of a circle. -/
theorem Ring.links {e : α} (hr : Ring h head (xs ++ e :: ys)) :
    h.prev e = some (xs.getLastD head) ∧ h.next e = some (ys.headD head) := by
  refine ⟨hr.seam.2, ?_⟩
  rw [← List.singleton_append, ← List.append_assoc] at hr
  have hnext := hr.seam.1
  rwa [List.getLastD_concat] at hnext

/-- Exchanging the links reverses a circle. -/
theorem Ring.swap (hr : Ring h head xs) : Ring h.swap head xs.reverse where
  nodup := by simpa using hr.nodup
  chain := by
    have hrev : head :: (xs.reverse ++ [head]) = (head :: (xs ++ [head])).reverse := by simp
    rw [hrev, List.isChain_reverse]
    exact hr.chain.imp fun _ _ hab => Links.linked_swap.mpr hab

section Update

variable [DecidableEq α]

/-- **Closing a gap**: linking its two ends makes a circle of the chains
around it. -/
theorem Ring.relink (hxs : (head :: xs).IsChain h.Linked) (hys : (ys ++ [head]).IsChain h.Linked)
    (hnd : (head :: (xs ++ ys)).Nodup) :
    Ring (h.link (xs.getLastD head) (ys.headD head)) head (xs ++ ys) where
  nodup := hnd
  chain := by
    obtain ⟨⟨ha, ha'⟩, hb, hb'⟩ := seam_notMem xs ys hnd
    rw [isChain_ring_append]
    exact ⟨Links.isChain_link hxs ha hb, Links.linked_link _ _ _,
      Links.isChain_link hys (by simpa using ha') hb'⟩

/-- Linking the neighbours of a node takes it out. -/
theorem Ring.remove {e : α} (hr : Ring h head (xs ++ e :: ys)) :
    Ring (h.link (xs.getLastD head) (ys.headD head)) head (xs ++ ys) := by
  obtain ⟨hxs, _, hys⟩ := (isChain_ring_append xs (e :: ys)).mp hr.chain
  refine Ring.relink hxs hys.tail (hr.nodup.sublist ?_)
  exact ((List.sublist_cons_self e ys).append_left xs).cons_cons head

/-- A node linked to itself is an empty circle. -/
theorem Ring.nil (h : Links α) (head : α) : Ring (h.link head head) head [] :=
  @Ring.relink α h head [] [] _ (.singleton head) (.singleton head) (by simp)

/-- **Filling a seam**: linking the two ends of a chain into a seam puts the
chain there. -/
theorem Ring.splice (hr : Ring h head (xs ++ ys)) (hzs : zs.IsChain h.Linked) (hne : zs ≠ [])
    (hnd : (head :: (xs ++ zs ++ ys)).Nodup) :
    Ring ((h.link (xs.getLastD head) (zs.head hne)).link (zs.getLast hne) (ys.headD head))
      head (xs ++ zs ++ ys) := by
  obtain ⟨hxs, _, hys⟩ := (isChain_ring_append xs ys).mp hr.chain
  obtain ⟨⟨ha, ha'⟩, hf, hf'⟩ := seam_notMem xs (zs ++ ys) (by rwa [← List.append_assoc])
  have hhead : (zs ++ ys).headD head = zs.head hne := by
    rw [headD_of_ne_nil head (List.append_ne_nil_of_left_ne_nil hne ys),
      List.head_append_of_ne_nil hne]
  have hlast : (xs ++ zs).getLastD head = zs.getLast hne := by
    rw [getLastD_of_ne_nil head (List.append_ne_nil_of_right_ne_nil xs hne),
      List.getLast_append_of_ne_nil _ hne]
  rw [hhead] at hf hf'
  rw [List.mem_append, not_or] at ha'
  have hftail : zs.head hne ∉ zs.tail ∧ zs.head hne ∉ ys ++ [head] := by
    rw [List.append_assoc, List.tail_append_of_ne_nil hne, List.mem_append, not_or] at hf'
    exact hf'
  -- the chain before the seam now goes on through `zs`
  have hjoined : (head :: (xs ++ zs)).IsChain
      (h.link (xs.getLastD head) (zs.head hne)).Linked := by
    rw [← List.cons_append]
    refine List.IsChain.append (Links.isChain_link hxs ha hf)
      (Links.isChain_link hzs (fun hbad => ha'.1 (List.dropLast_subset zs hbad)) hftail.1) ?_
    intro x hx y hy
    rw [List.getLast?_cons, Option.mem_some_iff] at hx
    rw [List.head?_eq_some_head hne, Option.mem_some_iff] at hy
    subst hx hy
    rw [← List.getLastD_eq_getLast?]
    exact Links.linked_link _ _ _
  rw [← hlast]
  exact Ring.relink hjoined
    (Links.isChain_link hys (by simpa using ha'.2) fun hbad => hftail.2 (List.mem_of_mem_tail hbad))
    hnd

/-- Linking a node to both sides of a seam puts it there. -/
theorem Ring.insert {e : α} (hr : Ring h head (xs ++ ys)) (he : e ∉ head :: (xs ++ ys)) :
    Ring ((h.link e (ys.headD head)).link (xs.getLastD head) e) head (xs ++ [e] ++ ys) := by
  have hnd : (head :: (xs ++ [e] ++ ys)).Nodup := by
    have hperm : (head :: (xs ++ [e] ++ ys)).Perm (e :: head :: (xs ++ ys)) := by
      rw [List.append_assoc, List.singleton_append]
      exact (List.perm_middle.cons head).trans (.swap e head _)
    exact hperm.nodup_iff.mpr (List.nodup_cons.mpr ⟨he, hr.nodup⟩)
  have ha : xs.getLastD head ≠ e := fun hbad => he (hbad ▸ getLastD_mem_seam head xs ys)
  have hb : e ≠ ys.headD head := fun hbad => he (hbad ▸ headD_mem_seam head xs ys)
  rw [← Links.link_comm ha hb]
  exact hr.splice (.singleton e) (List.cons_ne_nil e []) hnd

end Update

/-! ## Agreement -/

namespace Links

/-- Two heaps have the same links outside `P`. -/
def AgreeOff (P : α → Prop) (h h' : Links α) : Prop :=
  ∀ x, ¬ P x → h'.next x = h.next x ∧ h'.prev x = h.prev x

variable {P : α → Prop} {h₁ h₂ h₃ : Links α}

theorem AgreeOff.trans (h₁₂ : AgreeOff P h₁ h₂) (h₂₃ : AgreeOff P h₂ h₃) : AgreeOff P h₁ h₃ :=
  fun x hx => ⟨(h₂₃ x hx).1.trans (h₁₂ x hx).1, (h₂₃ x hx).2.trans (h₁₂ x hx).2⟩

theorem agreeOff_link [DecidableEq α] (h : Links α) {a b : α} (ha : P a) (hb : P b) :
    AgreeOff P h (h.link a b) := by
  intro x hx
  have hxa : x ≠ a := by
    rintro rfl
    exact hx ha
  have hxb : x ≠ b := by
    rintro rfl
    exact hx hb
  exact ⟨Function.update_of_ne hxa _ _, Function.update_of_ne hxb _ _⟩

end Links

/-- A node taken out of a circle, whatever becomes of its own links. -/
theorem Ring.remove_off [DecidableEq α] {e : α} (hr : Ring h head (xs ++ e :: ys))
    (hsame : Links.AgreeOff (· = e) (h.link (xs.getLastD head) (ys.headD head)) h') :
    Ring h' head (xs ++ ys) := by
  refine hr.remove.congr fun x hx => hsame x ?_
  rintro rfl
  have hnd := hr.nodup
  rw [← List.cons_append, List.nodup_middle, List.nodup_cons] at hnd
  exact hnd.1 hx

/-! ## Walks -/

/-- The nodes from `pos` on along `step`, until `head` comes; `none` when a
link is absent or the fuel runs out. -/
def walk [DecidableEq α] (step : α → Option α) (head : α) : Nat → Option α → Option (List α)
  | 0, _ => none
  | _ + 1, none => none
  | fuel + 1, some pos =>
      if pos = head then some [] else (walk step head fuel (step pos)).map (pos :: ·)

variable [DecidableEq α]

theorem walk_chain : ∀ {xs : List α} {pos : Option α} {fuel : Nat},
    (xs ++ [head]).IsChain h.Linked → pos = some (xs.headD head) → head ∉ xs →
    xs.length < fuel → walk h.next head fuel pos = some xs
  | [], _, fuel + 1, _, rfl, _, _ => by simp [walk]
  | x :: xs, _, fuel + 1, hc, rfl, hno, hfuel => by
      rw [List.mem_cons, not_or] at hno
      have ih := walk_chain hc.tail (next_of_isChain hc) hno.2 (Nat.lt_of_succ_lt_succ hfuel)
      simp [walk, Ne.symm hno.1, ih]

/-- **The forward walk** of a circle ends and visits its nodes in order. -/
theorem Ring.walk_next (hr : Ring h head xs) {fuel : Nat} (hfuel : xs.length < fuel) :
    walk h.next head fuel (h.next head) = some xs := by
  have hchain := ((isChain_ring_append [] xs).mp hr.chain).2.2
  exact walk_chain hchain hr.next_head (List.nodup_cons.mp hr.nodup).1 hfuel

/-- **The backward walk** ends and visits them in the opposite order. -/
theorem Ring.walk_prev (hr : Ring h head xs) {fuel : Nat} (hfuel : xs.length < fuel) :
    walk h.prev head fuel (h.prev head) = some xs.reverse :=
  hr.swap.walk_next (by simpa using hfuel)

end Ring

end KernelTestkit.Lib
