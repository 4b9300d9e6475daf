/-
KernelTestkit.Util.IterationTheorems — iteration that is safe against removal.

The body of a safe loop may take the entry it is at out of its list. The
loop reads the entry ahead before the body runs, and that entry is still in
the list afterwards: `body_ring` says what the body leaves of the circle,
and the two loop lemmas go from one entry to the next.

* `safe_iteration` — both loops visit every entry once and come to an end,
  and what the body kept is what is left.
-/
import KernelTestkit.Util.ListHeadTheorems

namespace KernelTestkit.Util

open KernelTestkit.Lib
open KernelTestkit.Net (Fault)

variable {α : Type} [DecidableEq α] {head : α} {body : α → Body}

/-- The entries the body keeps. -/
def keptEntries (body : α → Body) (xs : List α) : List α := xs.filter fun e => body e = .keep

/-- **One entry**: the body does not fault, and the circle has lost the entry
exactly when the body removed it. -/
theorem body_ring (body : α → Body) (hr : Ring heap head (xs ++ e :: ys)) :
    ∃ heap', (body e).run e heap = .ok heap' ∧
      Ring heap' head (xs ++ keptEntries body [e] ++ ys) := by
  obtain ⟨hprev, hnext⟩ := hr.links
  cases hbody : body e with
  | keep => exact ⟨heap, rfl, by simpa [keptEntries, hbody] using hr⟩
  | del =>
      refine ⟨_, listDel_eq hprev hnext, ?_⟩
      have hgone : Ring (cleared e (heap.link (xs.getLastD head) (ys.headD head))) head
          (xs ++ ys) :=
        hr.remove_off fun x hx => ⟨Function.update_of_ne hx _ _, Function.update_of_ne hx _ _⟩
      simpa [keptEntries, hbody] using hgone
  | delInit =>
      refine ⟨_, listDelInit_eq hprev hnext, ?_⟩
      have hgone := hr.remove_off (Links.agreeOff_link _ rfl rfl)
      simpa [keptEntries, hbody] using hgone

omit [DecidableEq α] in
theorem keptEntries_append (xs ys : List α) :
    keptEntries body (xs ++ ys) = keptEntries body xs ++ keptEntries body ys :=
  List.filter_append xs ys

/-- A turn of the loop, at an entry of the list. -/
theorem safeLoop_turn {step : Links α → Ptr α → Except Fault (Ptr α)} {heap heap₁ heap' : Links α}
    {pos ahead : α} {n : Ptr α} {fuel : Nat} {visited : List α} (hpos : pos ≠ head)
    (hrun : (body pos).run pos heap = .ok heap₁) (hstep : step heap₁ (some ahead) = .ok n)
    (hloop : safeLoop step head body fuel ahead n heap₁ = .ok (some (visited, heap'))) :
    safeLoop step head body (fuel + 1) pos (some ahead) heap
      = .ok (some (pos :: visited, heap')) := by
  rw [safeLoop, if_neg hpos]
  exact bind_ok_iff.mpr ⟨heap₁, hrun, bind_ok_iff.mpr ⟨n, hstep, bind_ok_iff.mpr ⟨_, hloop, rfl⟩⟩⟩

/-- The forward loop, from any entry on: `kept` is what it has left behind. -/
theorem safeLoop_next (body : α → Body) {ys : List α} : ∀ {heap : Links α} (kept : List α)
    {fuel : Nat},
    Ring heap head (kept ++ ys) → ys.length < fuel →
    ∃ heap', safeLoop readNext head body fuel (ys.headD head) (heap.next (ys.headD head)) heap
        = .ok (some (ys, heap')) ∧ Ring heap' head (kept ++ keptEntries body ys) := by
  induction ys with
  | nil =>
      rintro heap kept (_ | fuel) hr hfuel
      · cases hfuel
      · exact ⟨heap, by simp [safeLoop], hr⟩
  | cons e ys ih =>
      rintro heap kept (_ | fuel) hr hfuel
      · cases hfuel
      have hne : e ≠ head := by
        rintro rfl
        exact (List.nodup_cons.mp hr.nodup).1 (by simp)
      obtain ⟨heap₁, hrun, hr₁⟩ := body_ring body hr
      obtain ⟨heap', hloop, hr'⟩ := ih _ hr₁ (Nat.lt_of_succ_lt_succ hfuel)
      rw [List.headD_cons, hr.links.2]
      refine ⟨heap', safeLoop_turn hne hrun rfl hloop, ?_⟩
      rwa [← List.singleton_append, keptEntries_append, ← List.append_assoc]

/-- The backward loop, from any entry on. -/
theorem safeLoop_prev (body : α → Body) {ys : List α} : ∀ {heap : Links α} (kept : List α)
    {fuel : Nat},
    Ring heap head (ys ++ kept) → ys.length < fuel →
    ∃ heap', safeLoop readPrev head body fuel (ys.getLastD head) (heap.prev (ys.getLastD head))
        heap = .ok (some (ys.reverse, heap')) ∧ Ring heap' head (keptEntries body ys ++ kept) := by
  induction ys using List.reverseRecOn with
  | nil =>
      rintro heap kept (_ | fuel) hr hfuel
      · cases hfuel
      · exact ⟨heap, by simp [safeLoop], hr⟩
  | append_singleton ys e ih =>
      rintro heap kept (_ | fuel) hr hfuel
      · cases hfuel
      have hne : e ≠ head := by
        rintro rfl
        exact (List.nodup_cons.mp hr.nodup).1 (by simp)
      rw [List.append_assoc, List.singleton_append] at hr
      obtain ⟨heap₁, hrun, hr₁⟩ := body_ring body hr
      rw [List.append_assoc] at hr₁
      obtain ⟨heap', hloop, hr'⟩ := ih _ hr₁ (by simpa using hfuel)
      rw [List.getLastD_concat, hr.links.1, List.reverse_append]
      refine ⟨heap', safeLoop_turn hne hrun rfl hloop, ?_⟩
      rwa [keptEntries_append, List.append_assoc]

/-- **Safe iteration**: whatever the body removes, the two loops come to their
end, the one after every entry in order, the other after every entry in the
opposite order, and leave the circle of the entries that were kept. -/
theorem safe_iteration (heap : Links α) (head : α) (xs : List α) (body : α → Body) (fuel : Nat)
    (hr : Ring heap head xs) (hfuel : xs.length < fuel) :
    (∃ heap', listForEachEntrySafe heap head body fuel = .ok (some (xs, heap')) ∧
      Ring heap' head (keptEntries body xs)) ∧
    ∃ heap', listForEachEntrySafeReverse heap head body fuel = .ok (some (xs.reverse, heap')) ∧
      Ring heap' head (keptEntries body xs) := by
  constructor
  · obtain ⟨heap', hloop, hr'⟩ := safeLoop_next body [] hr hfuel
    refine ⟨heap', ?_, hr'⟩
    unfold listForEachEntrySafe forEachEntrySafe
    rw [readNext, hr.next_head]
    exact hloop
  · have hback : Ring heap head (xs ++ []) := by rwa [List.append_nil]
    obtain ⟨heap', hloop, hr'⟩ := safeLoop_prev body [] hback hfuel
    rw [List.append_nil] at hr'
    refine ⟨heap', ?_, hr'⟩
    unfold listForEachEntrySafeReverse forEachEntrySafe
    rw [readPrev, hr.prev_head]
    exact hloop

/-- A list of three entries, `1`, `2` and `3`, under the head `0`. -/
def threeEntries : Links Nat := ⟨fun x => some ((x + 1) % 4), fun x => some ((x + 3) % 4)⟩

theorem ring_threeEntries : Ring threeEntries 0 [1, 2, 3] where
  chain := by simp [threeEntries, Links.Linked]
  nodup := by decide

/-- The first and the last entry are removed. -/
def removeEnds (e : Nat) : Body := if e = 1 then .del else if e = 3 then .delInit else .keep

/-- The one between them is left. -/
theorem safe_iteration_ends_removed :
    (∃ heap', listForEachEntrySafe threeEntries 0 removeEnds 4 = .ok (some ([1, 2, 3], heap')) ∧
      Ring heap' 0 [2]) ∧
    ∃ heap', listForEachEntrySafeReverse threeEntries 0 removeEnds 4
        = .ok (some ([3, 2, 1], heap')) ∧ Ring heap' 0 [2] :=
  safe_iteration threeEntries 0 [1, 2, 3] removeEnds 4 ring_threeEntries (by decide)

end KernelTestkit.Util
