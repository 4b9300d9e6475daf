/-
KernelTestkit.Util.ListHeadTheorems — the intrusive list refines sequences.

The abstract state is `Rings α`: the contents of each list under its head.
`WellFormed heap rings` says that each of them is a circle of the heap and
that no node is in two of them. `ListCall.Does` is what the calls mean on
the contents.

* `listAdd_eq`, `listAddTail_eq`, … — one equation for each function: which
  links it makes.
* `wellFormed_of_call` — a call whose node is where it must be does not
  fault and does to the heap what `Does` says of the contents.
* `list_refines` — the same for any number of calls, and what the reads
  answer afterwards.
-/
import KernelTestkit.Util.ListHead
import KernelTestkit.Lib.Fallible

namespace KernelTestkit.Util

open KernelTestkit.Lib
open KernelTestkit.Net (Fault)

variable {α : Type} [DecidableEq α]

/-! ## The abstract lists -/

/-- The contents of the list under each head. -/
abbrev Rings (α : Type) := α → Option (List α)

/-- The node is in no list. -/
def Free (rings : Rings α) (x : α) : Prop := ∀ head xs, rings head = some xs → x ∉ head :: xs

/-- The node is in no list but, maybe, the one under `head`. -/
def Available (rings : Rings α) (head x : α) : Prop :=
  ∀ head' ys, head' ≠ head → rings head' = some ys → x ∉ head' :: ys

/-- What a call does to the contents. -/
inductive ListCall.Does : Rings α → ListCall α → Rings α → Prop where
  | add {rings : Rings α} {entry head : α} {xs : List α} :
      rings head = some xs → Free rings entry →
      Does rings (.add entry head) (Function.update rings head (some (entry :: xs)))
  | addHead {rings : Rings α} {entry head : α} {xs : List α} :
      rings head = some xs → Free rings entry →
      Does rings (.addHead entry head) (Function.update rings head (some (entry :: xs)))
  | addTail {rings : Rings α} {entry head : α} {xs : List α} :
      rings head = some xs → Free rings entry →
      Does rings (.addTail entry head) (Function.update rings head (some (xs ++ [entry])))
  | del {rings : Rings α} {entry head : α} {xs ys : List α} :
      rings head = some (xs ++ entry :: ys) →
      Does rings (.del entry) (Function.update rings head (some (xs ++ ys)))
  | delInit {rings : Rings α} {entry head : α} {xs ys : List α} :
      rings head = some (xs ++ entry :: ys) →
      Does rings (.delInit entry) (Function.update rings head (some (xs ++ ys)))
  | spliceInit {rings : Rings α} {list head : α} {xs zs : List α} :
      list ≠ head → rings list = some zs → rings head = some xs →
      Does rings (.spliceInit list head)
        (Function.update (Function.update rings list (some [])) head (some (zs ++ xs)))
  | spliceTailInit {rings : Rings α} {list head : α} {xs zs : List α} :
      list ≠ head → rings list = some zs → rings head = some xs →
      Does rings (.spliceTailInit list head)
        (Function.update (Function.update rings list (some [])) head (some (xs ++ zs)))

/-- The heap holds the lists: each is a circle, and no node is in two. -/
structure WellFormed (heap : Links α) (rings : Rings α) : Prop where
  ring : ∀ head xs, rings head = some xs → Ring heap head xs
  disjoint : ∀ head xs head' ys, rings head = some xs → rings head' = some ys → head' ≠ head →
    List.Disjoint (head :: xs) (head' :: ys)

/-- What the reads of a list with the contents `xs` answer. -/
structure Reads (heap : Links α) (head : α) (xs : List α) : Prop where
  forward : ∀ fuel, xs.length < fuel → walk heap.next head fuel (heap.next head) = some xs
  backward : ∀ fuel, xs.length < fuel → walk heap.prev head fuel (heap.prev head) = some xs.reverse
  empty : listEmpty heap head ↔ xs.length = 0
  singular : listIsSingular heap head ↔ xs.length = 1

/-! ## What the functions write -/

section Equations

variable {heap : Links α} {entry head list prev next first last : α}

theorem listAdd_eq (hnext : heap.next head = some next) :
    listAdd (some entry) (some head) heap = .ok ((heap.link entry next).link head entry) := by
  simp only [listAdd, readNext, hnext]
  rfl

theorem listAddTail_eq (hprev : heap.prev head = some prev) (hnext : heap.next prev = some next) :
    listAddTail (some entry) (some head) heap
      = .ok ((heap.link entry next).link prev entry) := by
  simp only [listAddTail, readPrev, hprev]
  exact listAdd_eq hnext

theorem listDelInit_eq (hprev : heap.prev entry = some prev) (hnext : heap.next entry = some next) :
    listDelInit (some entry) heap = .ok ((heap.link prev next).link entry entry) := by
  simp only [listDelInit, readPrev, readNext, hprev, hnext]
  rfl

/-- What `list_del` leaves behind: the removed node has no links. -/
def cleared (entry : α) (heap : Links α) : Links α where
  next := Function.update heap.next entry none
  prev := Function.update heap.prev entry none

theorem listDel_eq (hprev : heap.prev entry = some prev) (hnext : heap.next entry = some next) :
    listDel (some entry) heap = .ok (cleared entry (heap.link prev next)) := by
  simp only [listDel, readPrev, readNext, hprev, hnext]
  rfl

theorem innerListSplice_eq (hfirst : heap.next list = some first)
    (hlast : heap.prev list = some last) :
    innerListSplice (some list) (some prev) (some next) heap
      = .ok ((heap.link prev first).link last next) := by
  simp only [innerListSplice, readPrev, readNext, hfirst, hlast]
  rfl

theorem listSpliceInit_eq (hne : listEmpty heap list = false) (hfirst : heap.next list = some first)
    (hlast : heap.prev list = some last) (hnext : heap.next head = some next) :
    listSpliceInit list head heap
      = .ok (((heap.link head first).link last next).link list list) := by
  simp only [listSpliceInit, hne, readNext, hnext]
  simp only [bind, Except.bind, innerListSplice_eq hfirst hlast]
  rfl

theorem listSpliceTailInit_eq (hne : listEmpty heap list = false)
    (hfirst : heap.next list = some first) (hlast : heap.prev list = some last)
    (hprev : heap.prev head = some prev) :
    listSpliceTailInit list head heap
      = .ok (((heap.link prev first).link last head).link list list) := by
  simp only [listSpliceTailInit, hne, readPrev, hprev]
  simp only [bind, Except.bind, innerListSplice_eq hfirst hlast]
  rfl

/-- Splicing an empty list does nothing. -/
theorem listSplice_empty (h : listEmpty heap list = true) :
    listSpliceInit list head heap = .ok heap ∧ listSpliceTailInit list head heap = .ok heap := by
  simp [listSpliceInit, listSpliceTailInit, h]

end Equations

/-! ## What the reads answer -/

theorem listEmpty_iff {heap : Links α} {head : α} {xs : List α} (hr : Ring heap head xs) :
    listEmpty heap head ↔ xs = [] := by
  have hno := (List.nodup_cons.mp hr.nodup).1
  rw [listEmpty, decide_eq_true_iff, hr.next_head, Option.some.injEq]
  cases xs with
  | nil => simp
  | cons x xs =>
      refine iff_of_false (fun hbad => hno ?_) (List.cons_ne_nil x xs)
      exact hbad ▸ List.mem_cons_self ..

omit [DecidableEq α] in
/-- The two neighbours of the head are one node when there is one entry, or
none. -/
theorem neighbours_eq_iff {heap : Links α} {head : α} {xs : List α} (hr : Ring heap head xs) :
    heap.next head = heap.prev head ↔ xs.length ≤ 1 := by
  rw [hr.next_head, hr.prev_head, Option.some.injEq]
  match xs, hr.nodup with
  | [], _ => simp
  | [x], _ => simp
  | x :: y :: xs, hnd =>
      refine iff_of_false (fun hbad => ?_) (by simp)
      have hx := (List.nodup_cons.mp (List.nodup_cons.mp hnd).2).1
      rw [List.headD_cons, List.getLastD_cons, List.getLastD_cons] at hbad
      exact hx (hbad ▸ List.getLastD_mem_cons)

/-- **The reads** of a list answer with its contents. -/
theorem reads_of_ring {heap : Links α} {head : α} {xs : List α} (hr : Ring heap head xs) :
    Reads heap head xs where
  forward _ hfuel := hr.walk_next hfuel
  backward _ hfuel := hr.walk_prev hfuel
  empty := (listEmpty_iff hr).trans List.length_eq_zero_iff.symm
  singular := by
    have hempty := (listEmpty_iff hr).trans List.length_eq_zero_iff.symm
    rw [listIsSingular, Bool.and_eq_true, decide_eq_true_iff, Bool.not_eq_true',
      ← Bool.not_eq_true, hempty, neighbours_eq_iff hr]
    omega

/-! ## One list changes -/

section Step

variable {heap heap' : Links α} {rings : Rings α} {head entry : α} {xs ys zs : List α}

omit [DecidableEq α] in
theorem Free.available (hfree : Free rings entry) (head : α) : Available rings head entry :=
  fun head' ys _ hys => hfree head' ys hys

/-- A node stays free when another list gets contents without it. -/
theorem Free.update (hfree : Free rings entry) (hno : entry ∉ head :: xs) :
    Free (Function.update rings head (some xs)) entry := by
  intro head' ys hys
  by_cases hne : head' = head
  · subst hne
    rw [Function.update_self, Option.some.injEq] at hys
    exact hys ▸ hno
  · rw [Function.update_of_ne hne] at hys
    exact hfree head' ys hys

omit [DecidableEq α] in
/-- The nodes of a list are in no other. -/
theorem WellFormed.available (hwf : WellFormed heap rings) (hhead : rings head = some xs) {x : α}
    (hx : x ∈ head :: xs) : Available rings head x :=
  fun head' ys hne hys hbad => hwf.disjoint head xs head' ys hhead hys hne hx hbad

/-- **Setting one list**: new contents whose nodes no other list has, on a heap
that differs only in nodes no other list has. -/
theorem WellFormed.set (hwf : WellFormed heap rings) (hring : Ring heap' head xs)
    (hnodes : ∀ x ∈ head :: xs, Available rings head x)
    (hsame : Links.AgreeOff (Available rings head) heap heap') :
    WellFormed heap' (Function.update rings head (some xs)) := by
  have hother {head' : α} {ys : List α} (hne : head' ≠ head)
      (h : Function.update rings head (some xs) head' = some ys) : rings head' = some ys := by
    rwa [Function.update_of_ne hne] at h
  have hself {ys : List α} (h : Function.update rings head (some xs) head = some ys) :
      xs = ys := by
    rw [Function.update_self] at h
    exact Option.some.inj h
  constructor
  · intro head' ys hys
    by_cases hne : head' = head
    · subst hne
      exact hself hys ▸ hring
    · refine (hwf.ring head' ys (hother hne hys)).congr fun x hx => hsame x fun hav => ?_
      exact hav head' ys hne (hother hne hys) hx
  · intro head₁ ys₁ head₂ ys₂ h₁ h₂ hne
    by_cases hne₁ : head₁ = head
    · subst hne₁
      rw [← hself h₁]
      exact fun x hx => hnodes x hx head₂ ys₂ hne (hother hne h₂)
    · by_cases hne₂ : head₂ = head
      · subst hne₂
        rw [← hself h₂]
        exact fun x hx hx' => hnodes x hx' head₁ ys₁ hne₁ (hother hne₁ h₁) hx
      · exact hwf.disjoint head₁ ys₁ head₂ ys₂ (hother hne₁ h₁) (hother hne₂ h₂) hne

/-- Forgetting a list. -/
theorem WellFormed.forget (hwf : WellFormed heap rings) (head : α) :
    WellFormed heap (Function.update rings head none) := by
  have hother {head' : α} {ys : List α} (h : Function.update rings head none head' = some ys) :
      rings head' = some ys := by
    by_cases hne : head' = head
    · subst hne
      rw [Function.update_self] at h
      cases h
    · rwa [Function.update_of_ne hne] at h
  exact ⟨fun head' ys h => hwf.ring head' ys (hother h),
    fun head₁ ys₁ head₂ ys₂ h₁ h₂ => hwf.disjoint head₁ ys₁ head₂ ys₂ (hother h₁) (hother h₂)⟩

/-- The nodes of a forgotten list are free. -/
theorem WellFormed.free_forget (hwf : WellFormed heap rings) (hhead : rings head = some xs) {x : α}
    (hx : x ∈ head :: xs) : Free (Function.update rings head none) x := by
  intro head' ys hys
  by_cases hne : head' = head
  · subst hne
    rw [Function.update_self] at hys
    cases hys
  · rw [Function.update_of_ne hne] at hys
    exact hwf.available hhead hx head' ys hne hys

/-- A node is put into a seam of a list. -/
theorem WellFormed.insert (hwf : WellFormed heap rings) (hhead : rings head = some (xs ++ ys))
    (hfree : Free rings entry) :
    WellFormed ((heap.link entry (ys.headD head)).link (xs.getLastD head) entry)
      (Function.update rings head (some (xs ++ [entry] ++ ys))) := by
  have hav {x : α} (hx : x ∈ head :: (xs ++ ys)) : Available rings head x :=
    hwf.available hhead hx
  have hentry : Available rings head entry := hfree.available head
  refine hwf.set ((hwf.ring _ _ hhead).insert (hfree _ _ hhead)) ?_
    ((Links.agreeOff_link _ hentry (hav (headD_mem_seam head xs ys))).trans
      (Links.agreeOff_link _ (hav (getLastD_mem_seam head xs ys)) hentry))
  intro x hx
  by_cases hxe : x = entry
  · exact hxe ▸ hentry
  · exact hav (by simpa [hxe] using hx)

/-- A node is taken out of a list, and its own links are changed. -/
theorem WellFormed.remove (hwf : WellFormed heap rings)
    (hhead : rings head = some (xs ++ entry :: ys))
    (hsame : Links.AgreeOff (· = entry) (heap.link (xs.getLastD head) (ys.headD head)) heap') :
    WellFormed heap' (Function.update rings head (some (xs ++ ys))) := by
  have hav {x : α} (hx : x ∈ head :: (xs ++ entry :: ys)) : Available rings head x :=
    hwf.available hhead hx
  have hsub : ∀ x ∈ head :: (xs ++ ys), x ∈ head :: (xs ++ entry :: ys) := fun x hx =>
    ((List.sublist_cons_self entry ys).append_left xs).cons_cons head |>.subset hx
  have hlinked : Links.AgreeOff (Available rings head) heap
      (heap.link (xs.getLastD head) (ys.headD head)) :=
    Links.agreeOff_link _ (hav (hsub _ (getLastD_mem_seam head xs ys)))
      (hav (hsub _ (headD_mem_seam head xs ys)))
  refine hwf.set ((hwf.ring _ _ hhead).remove_off hsame) (fun x hx => hav (hsub x hx))
    (hlinked.trans fun x hx => hsame x ?_)
  rintro rfl
  exact hx (hav (by simp))

/-- The nodes of a list are put into a seam of another, and the emptied list is
initialised. -/
theorem WellFormed.splice {list : α} (hwf : WellFormed heap rings) (hdiff : list ≠ head)
    (hlist : rings list = some zs) (hne : zs ≠ []) (hhead : rings head = some (xs ++ ys)) :
    WellFormed (((heap.link (xs.getLastD head) (zs.head hne)).link (zs.getLast hne)
        (ys.headD head)).link list list)
      (Function.update (Function.update rings list (some [])) head (some (xs ++ zs ++ ys))) := by
  -- first the emptied list is forgotten, which sets its nodes free
  have hforget := hwf.forget list
  have hhead' : Function.update rings list none head = some (xs ++ ys) := by
    rwa [Function.update_of_ne hdiff.symm]
  have hfree {x : α} (hx : x ∈ list :: zs) : Free (Function.update rings list none) x :=
    hwf.free_forget hlist hx
  have hav {x : α} (hx : x ∈ head :: (xs ++ ys)) :
      Available (Function.update rings list none) head x := hforget.available hhead' hx
  have hring := hwf.ring _ _ hlist
  have hnd : (head :: (xs ++ zs ++ ys)).Nodup := by
    have hperm : (head :: (xs ++ zs ++ ys)).Perm (zs ++ head :: (xs ++ ys)) := by
      rw [List.append_assoc]
      exact ((List.perm_append_comm_assoc xs zs ys).cons head).trans List.perm_middle.symm
    refine hperm.nodup_iff.mpr (List.nodup_append'.mpr
      ⟨(List.nodup_cons.mp hring.nodup).2, (hwf.ring _ _ hhead).nodup, fun x hx hx' => ?_⟩)
    exact hfree (List.mem_cons_of_mem _ hx) _ _ hhead' hx'
  have hchain : zs.IsChain heap.Linked :=
    ((isChain_ring_append [] zs).mp hring.chain).2.2.left_of_append
  have hends : Available (Function.update rings list none) head (zs.head hne) ∧
      Available (Function.update rings list none) head (zs.getLast hne) :=
    ⟨(hfree (List.mem_cons_of_mem _ (List.head_mem hne))).available head,
      (hfree (List.mem_cons_of_mem _ (List.getLast_mem hne))).available head⟩
  -- then the nodes go into the other list
  have hfilled := hforget.set ((hforget.ring _ _ hhead').splice hchain hne hnd)
    (fun x hx => by
      by_cases hz : x ∈ zs
      · exact (hfree (List.mem_cons_of_mem _ hz)).available head
      · exact hav (by simpa [hz] using hx))
    ((Links.agreeOff_link heap (hav (getLastD_mem_seam head xs ys)) hends.1).trans
      (Links.agreeOff_link _ hends.2 (hav (headD_mem_seam head xs ys))))
  -- and the head left over becomes an empty list
  have hself : Available (Function.update (Function.update rings list none) head
      (some (xs ++ zs ++ ys))) list list := by
    intro head' zs' _ h
    by_cases hh : head' = head
    · subst hh
      rw [Function.update_self, Option.some.injEq] at h
      subst h
      have hout := hfree (List.mem_cons_self ..) _ _ hhead'
      have hz := (List.nodup_cons.mp hring.nodup).1
      simp only [List.mem_cons, List.mem_append, not_or] at hout ⊢
      exact ⟨hout.1, ⟨hout.2.1, hz⟩, hout.2.2⟩
    · rw [Function.update_of_ne hh] at h
      exact hfree (List.mem_cons_self ..) head' zs' h
  have hemptied := hfilled.set (Ring.nil _ list) (fun x hx => List.mem_singleton.mp hx ▸ hself)
    (Links.agreeOff_link _ hself hself)
  rwa [Function.update_comm hdiff.symm, Function.update_idem] at hemptied

/-- Splicing an empty list changes no contents. -/
theorem splice_nil {list : α} (hlist : rings list = some []) (hhead : rings head = some xs) :
    Function.update (Function.update rings list (some [])) head (some xs) = rings := by
  rw [show Function.update rings list (some []) = rings by rw [← hlist, Function.update_eq_self],
    ← hhead, Function.update_eq_self]

/-- **One call** on lists the heap holds does not fault, and the heap holds
what it says of the contents. -/
theorem wellFormed_of_call {call : ListCall α} {rings' : Rings α} (hwf : WellFormed heap rings)
    (hdoes : call.Does rings rings') :
    ∃ heap', call.run heap = .ok heap' ∧ WellFormed heap' rings' := by
  cases hdoes with
  | @add entry head xs hhead hfree =>
      exact ⟨_, listAdd_eq (hwf.ring _ _ hhead).next_head,
        @WellFormed.insert α _ _ _ _ _ [] xs hwf hhead hfree⟩
  | @addHead entry head xs hhead hfree =>
      exact ⟨_, listAdd_eq (hwf.ring _ _ hhead).next_head,
        @WellFormed.insert α _ _ _ _ _ [] xs hwf hhead hfree⟩
  | @addTail entry head xs hhead hfree =>
      have hhead' : rings head = some (xs ++ []) := by rwa [List.append_nil]
      have hseam := (hwf.ring _ _ hhead').seam
      refine ⟨_, listAddTail_eq hseam.2 hseam.1, ?_⟩
      simpa using hwf.insert hhead' hfree
  | @del entry head xs ys hhead =>
      obtain ⟨hprev, hnext⟩ := (hwf.ring _ _ hhead).links
      refine ⟨_, listDel_eq hprev hnext, hwf.remove hhead fun x hx => ?_⟩
      exact ⟨Function.update_of_ne hx _ _, Function.update_of_ne hx _ _⟩
  | @delInit entry head xs ys hhead =>
      obtain ⟨hprev, hnext⟩ := (hwf.ring _ _ hhead).links
      exact ⟨_, listDelInit_eq hprev hnext, hwf.remove hhead (Links.agreeOff_link _ rfl rfl)⟩
  | @spliceInit list head xs zs hdiff hlist hhead =>
      have hring := hwf.ring _ _ hlist
      have hempty := listEmpty_iff hring
      by_cases hz : zs = []
      · subst hz
        refine ⟨heap, (listSplice_empty (hempty.mpr rfl)).1, ?_⟩
        rwa [List.nil_append, splice_nil hlist hhead]
      · refine ⟨_, listSpliceInit_eq (by simpa [hz] using hempty) hring.next_head hring.prev_head
          (hwf.ring _ _ hhead).next_head, ?_⟩
        rw [headD_of_ne_nil list hz, getLastD_of_ne_nil list hz]
        exact @WellFormed.splice α _ _ _ _ [] xs zs list hwf hdiff hlist hz hhead
  | @spliceTailInit list head xs zs hdiff hlist hhead =>
      have hring := hwf.ring _ _ hlist
      have hempty := listEmpty_iff hring
      by_cases hz : zs = []
      · subst hz
        refine ⟨heap, (listSplice_empty (hempty.mpr rfl)).2, ?_⟩
        rwa [List.append_nil, splice_nil hlist hhead]
      · refine ⟨_, listSpliceTailInit_eq (by simpa [hz] using hempty) hring.next_head
          hring.prev_head (hwf.ring _ _ hhead).prev_head, ?_⟩
        rw [headD_of_ne_nil list hz, getLastD_of_ne_nil list hz]
        have hhead' : rings head = some (xs ++ []) := by rwa [List.append_nil]
        simpa using hwf.splice hdiff hlist hz hhead'

end Step

/-! ## Iteration -/

/-- The cursor stops at the first entry it looks for, or past the last. -/
theorem forEachEntry_eq {β : Type} (stop : β → Bool) (es : List β) :
    forEachEntry stop es = match es.find? stop with
      | some e => .entry e
      | none => .head := by
  induction es with
  | nil => rfl
  | cons e es ih =>
      rw [forEachEntry, List.find?_cons]
      cases h : stop e with
      | true => simp
      | false => simpa using ih

section Iteration

variable {β : Type} {heap : Links α} {head : α} {node : β → α} {stop : α → Bool}
  {stopEntry : β → Bool}

/-- From every position on, the loop on the heap is the loop over the entries
still to come. -/
theorem listForEachEntry_chain : ∀ {es : List β} {pos : Ptr α} {fuel : Nat},
    (es.map node ++ [head]).IsChain heap.Linked → pos = some ((es.map node).headD head) →
    head ∉ es.map node → (∀ e ∈ es, stop (node e) = stopEntry e) → es.length < fuel →
    listForEachEntry heap head stop fuel pos
      = some ((forEachEntry stopEntry es).address node head)
  | [], _, fuel + 1, _, rfl, _, _, _ => by
      simp [listForEachEntry, forEachEntry, Cursor.address]
  | e :: es, _, fuel + 1, hc, rfl, hno, hstop, hfuel => by
      obtain ⟨hhere, hlater⟩ := List.forall_mem_cons.mp hstop
      rw [List.map_cons, List.mem_cons, not_or] at hno
      have hrest := listForEachEntry_chain hc.tail (next_of_isChain hc) hno.2 hlater
        (Nat.lt_of_succ_lt_succ hfuel)
      rw [List.map_cons, List.headD_cons, listForEachEntry, if_neg (Ne.symm hno.1), hrest, hhere,
        forEachEntry]
      cases stopEntry e <;> rfl

/-- **The loop on the heap** is the loop over the entries: on a list whose nodes
are those of `es` it comes to its end where the loop over `es` does. -/
theorem listForEachEntry_ring {es : List β} (hr : Ring heap head (es.map node))
    (hstop : ∀ e ∈ es, stop (node e) = stopEntry e) {fuel : Nat} (hfuel : es.length < fuel) :
    listForEachEntry heap head stop fuel (heap.next head)
      = some ((forEachEntry stopEntry es).address node head) := by
  have hchain := ((isChain_ring_append [] (es.map node)).mp hr.chain).2.2
  exact listForEachEntry_chain hchain hr.next_head (List.nodup_cons.mp hr.nodup).1 hstop hfuel

end Iteration

/-! ## Any number of calls -/

/-- **The intrusive list refines sequences**: any number of calls on lists the
heap holds, each with its node where it must be, does not fault, leaves a
heap that holds the lists as the calls describe them, and every read of a
list answers with its contents. -/
theorem list_refines (heap : Links α) (rings rings' : Rings α) (calls : List (ListCall α))
    (hwf : WellFormed heap rings)
    (hcalls : Steps (fun rings call rings' => ListCall.Does rings call rings') rings calls rings') :
    ∃ heap', runCalls calls heap = .ok heap' ∧ WellFormed heap' rings' ∧
      ∀ head xs, rings' head = some xs → Reads heap' head xs := by
  have hrun : ∃ heap', runCalls calls heap = .ok heap' ∧ WellFormed heap' rings' := by
    induction hcalls generalizing heap with
    | nil rings => exact ⟨heap, rfl, hwf⟩
    | cons hdoes _ ih =>
        obtain ⟨heap₁, hcall, hwf₁⟩ := wellFormed_of_call hwf hdoes
        obtain ⟨heap', hrest, hwf'⟩ := ih heap₁ hwf₁
        exact ⟨heap', bind_ok_iff.mpr ⟨heap₁, hcall, hrest⟩, hwf'⟩
  obtain ⟨heap', hrun, hwf'⟩ := hrun
  exact ⟨heap', hrun, hwf', fun head xs hhead => reads_of_ring (hwf'.ring head xs hhead)⟩

/-- Two lists, `0` and `10`, the first spliced in front of the second, and one
of its entries removed. -/
theorem list_refines_two_lists :
    ∃ heap', runCalls [.addTail 1 0, .addTail 2 0, .add 3 10, .spliceInit 0 10, .del 2]
        (((⟨fun _ => none, fun _ => none⟩ : Links Nat).link 0 0).link 10 10) = .ok heap' ∧
      Reads heap' 0 [] ∧ Reads heap' 10 [1, 3] := by
  have hfree (x : Nat) : Free (fun _ => none) x := fun _ _ h => nomatch h
  have hnone : WellFormed (⟨fun _ => none, fun _ => none⟩ : Links Nat) fun _ => none :=
    ⟨fun _ _ h => (nomatch h), fun _ _ _ _ h => (nomatch h)⟩
  have hzero := hnone.set (Ring.nil _ 0)
    (fun x hx => List.mem_singleton.mp hx ▸ (hfree 0).available 0)
    (Links.agreeOff_link _ ((hfree 0).available 0) ((hfree 0).available 0))
  have hten : Available (Function.update (fun _ => none) 0 (some [])) 10 10 :=
    ((hfree 10).update (by decide)).available 10
  have hboth := hzero.set (Ring.nil _ 10) (fun x hx => List.mem_singleton.mp hx ▸ hten)
    (Links.agreeOff_link _ hten hten)
  have hstart (x : Nat) (h₀ : x ∉ [0]) (h₁ : x ∉ [10]) :
      Free (Function.update (Function.update (fun _ => none) 0 (some [])) 10 (some [])) x :=
    ((hfree x).update h₀).update h₁
  have hrun := list_refines _ _ _
    [.addTail 1 0, .addTail 2 0, .add 3 10, .spliceInit 0 10, .del 2] hboth
    (.cons (.addTail rfl (hstart 1 (by decide) (by decide)))
      (.cons (.addTail rfl ((hstart 2 (by decide) (by decide)).update (by decide)))
        (.cons (.add rfl (((hstart 3 (by decide) (by decide)).update (by decide)).update
            (by decide)))
          (.cons (.spliceInit (by decide) rfl rfl)
            (.cons (@ListCall.Does.del Nat _ _ 2 10 [1] [3] rfl) (.nil _))))))
  obtain ⟨heap', hcalls, _, hreads⟩ := hrun
  exact ⟨heap', hcalls, hreads 0 [] rfl, hreads 10 [1, 3] rfl⟩

end KernelTestkit.Util
