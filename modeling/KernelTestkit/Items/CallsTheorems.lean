/-
KernelTestkit.Items.CallsTheorems — the memory does what a client is told.

* `exec_of_does` — one call.
* `session_safe` — a client that keeps to the rules meets no fault; what its
  calls return is what it is told, and the cells in use are the ones of its
  trees.
* `session_deleted` — once it has deleted its trees, no cell is left.
-/
import KernelTestkit.Items.Calls
import KernelTestkit.Items.EditTheorems

namespace KernelTestkit.Items

open KernelTestkit.Lib
open KernelTestkit.Lib.CellTree (first last chain roots roots_cons)
open KernelTestkit.Api (CString caseInsensitiveStrcmp)

variable {heap : Memory} {M : Cells (Cell Fields)} {t u : CellTree Fields}
  {pre post cs : List (CellTree Fields)} {prev next parent : Ptr} {a : Nat} {d : Fields}
  {selector : Selector} {W W' : Forest}

/-! ## Finding an item -/

theorem not_negative {which : Int32} {n : Nat} (h : (n : Int) ≤ which.toInt) : ¬ which < 0 := by
  intro hneg
  have hlt := Int32.lt_iff_toInt_lt.mp hneg
  simp only [Int32.toInt_zero] at hlt
  omega

theorem getArrayItem_at {which : Int32} (hwhich : which.toInt = pre.length)
    (H : heap.Holds ((CellTree.node a d (pre ++ t :: post)).cells prev next + M)) :
    getArrayItem (some a) which.toInt.toNat heap = .ok (some t.addr) := by
  have hitem := getArrayItem_eq H pre.length
  rw [List.drop_left, first] at hitem
  rw [hwhich, Int.toNat_natCast, hitem]

theorem detachItem_selected (hselects : Selects selector pre t)
    (H : heap.Holds ((CellTree.node a d (pre ++ t :: post)).cells prev next + M)) :
    detachItem (some a) selector heap
      = cjsonDetachItemViaPointer (some a) (some t.addr) heap := by
  cases hselects with
  | pointer => rfl
  | index hwhich =>
      rw [detachItem, cjsonDetachItemFromArray, if_neg (not_negative hwhich.ge),
        getArrayItem_at hwhich H]
      rfl
  | @name caseSensitive s _ _ hpre ht =>
      rw [detachItem, cjsonDetachItemFromObject,
        getObjectItem_eq caseSensitive s H, findNamed_append hpre (by rintro _ ⟨⟩; exact ht)]
      rfl

theorem detachItem_missed (hmisses : Misses selector cs)
    (H : heap.Holds ((CellTree.node a d cs).cells prev next + M)) :
    detachItem (some a) selector heap = .ok (none, heap) := by
  cases hmisses with
  | @index which _ hwhich =>
      have hitem := getArrayItem_eq H which.toInt.toNat
      rw [List.drop_eq_nil_of_le (by omega)] at hitem
      rw [detachItem, cjsonDetachItemFromArray, if_neg (not_negative hwhich), hitem]
      rfl
  | @name caseSensitive s _ hcs =>
      have hitem : findNamed caseSensitive s (cs ++ []) = .ok none :=
        findNamed_append hcs (by rintro _ ⟨⟩)
      rw [List.append_nil, ← getObjectItem_eq caseSensitive s H] at hitem
      rw [detachItem, cjsonDetachItemFromObject, hitem]
      rfl

theorem replaceItem_selected (hselects : Selects selector pre t)
    (H : heap.Holds ((CellTree.node a d (pre ++ t :: post)).cells prev next + M))
    (replacement : Ptr) : replaceItem (some a) replacement selector heap
      = (cjsonReplaceItemViaPointer (some a) (some t.addr) replacement heap).map (·.2) := by
  cases hselects with
  | pointer => rfl
  | index hwhich =>
      rw [replaceItem, cjsonReplaceItemInArray, if_neg (not_negative hwhich.ge),
        getArrayItem_at hwhich H]
      rfl
  | @name caseSensitive s _ _ hpre ht =>
      rw [replaceItem, cjsonReplaceItemInObject,
        getObjectItem_eq caseSensitive s H, findNamed_append hpre (by rintro _ ⟨⟩; exact ht)]
      rfl

theorem deleteItem_eq (parent : Ptr) (selector : Selector) (heap : Memory) :
    deleteItem parent selector heap = (do
      let (item, heap) ← detachItem parent selector heap
      cjsonDelete item heap) := by
  cases selector with
  | pointer => rfl
  | index => rfl
  | name => rfl

theorem detachItem_idle (h : parent = none ∨ selector.Idle) :
    detachItem parent selector heap = .ok (none, heap) := by
  cases selector with
  | pointer item => exact if_pos h
  | index which =>
      rw [detachItem, cjsonDetachItemFromArray]
      split
      · rfl
      · rename_i hneg
        obtain rfl := h.resolve_right hneg
        rfl
  | name caseSensitive string =>
      rcases h with rfl | h
      · rfl
      · obtain rfl : string = none := h
        cases parent with
        | none => rfl
        | some x => rfl

theorem create_none (creation : Creation) (heap : Memory) : create none creation heap = heap := by
  cases creation with
  | null => rfl
  | true => rfl
  | false => rfl
  | bool b => rfl
  | number num => rfl
  | string string => rfl
  | raw raw => rfl
  | array => rfl
  | object => rfl

theorem create_some (x : Nat) (creation : Creation) (heap : Memory) :
    create (some x) creation heap = heap.store x (alone creation.fields) := by
  cases creation with
  | null => rfl
  | true => rfl
  | false => rfl
  | bool b => rfl
  | number num => rfl
  | string string => rfl
  | raw raw => rfl
  | array => rfl
  | object => rfl

/-- A call that is idle does nothing. -/
theorem exec_idle {call : Call} (h : call.Idle) : exec heap call = .ok (none, heap) := by
  cases call with
  | create block creation =>
      obtain rfl : block = none := h
      rw [exec, create_none]
  | addItemToArray array item =>
      have hnull : item = none ∨ array = none := h
      rw [exec, cjsonAddItemToArray, if_pos hnull]
      rfl
  | addItemToObject constant object string item =>
      obtain ⟨rfl, rfl⟩ := h
      rfl
  | addItemReferenceToArray block array item =>
      obtain rfl : block = none := h
      rfl
  | addItemReferenceToObject => exact h.elim
  | detachItem selector parent => exact detachItem_idle h
  | deleteItem selector parent =>
      rw [exec, deleteItem_eq, detachItem_idle h]
      rfl
  | insertItemInArray array which newitem =>
      rw [exec, cjsonInsertItemInArray]
      split
      · rfl
      · rename_i hneg
        obtain rfl := h.resolve_left hneg
        simp [getArrayItem, cjsonAddItemToArray, bind, Except.bind, Except.map]
  | replaceItem selector parent replacement =>
      cases selector with
      | pointer item =>
          have hnull : parent = none ∨ replacement = none ∨ replacement = item := h
          dsimp only [exec, replaceItem]
          rw [cjsonReplaceItemViaPointer]
          split_ifs with h₁ h₂
          · rfl
          · rfl
          · tauto
      | index which =>
          have hnull : parent = none ∨ which < 0 := h
          rw [exec, replaceItem, cjsonReplaceItemInArray]
          split_ifs with h₁
          · rfl
          · obtain rfl := hnull.resolve_right h₁
            rfl
      | name caseSensitive string =>
          obtain rfl | ⟨rfl, rfl⟩ : parent = none ∨ (replacement = none ∧ string = none) := h
          · rfl
          · cases parent with
            | none => rfl
            | some x => rfl
  | delete item =>
      obtain rfl : item = none := h
      rfl

/-! ## A container in its tree -/

/-- The cells around a container of some tree. -/
theorem exists_around (C : Context Fields) (a : Nat) (d : Fields) :
    ∃ (prev next : Ptr) (frame : Cells (Cell Fields)), ∀ (cs : List (CellTree Fields)) (W : Forest),
      roots (C.plug (.node a d cs) ::ₘ W)
        = (CellTree.node a d cs).cells prev next + (frame + roots W) := by
  obtain ⟨prev, next, frame, hframe⟩ := C.exists_frame a none none
  refine ⟨prev, next, frame, fun cs W => ?_⟩
  rw [roots_cons, hframe _ rfl, add_assoc]

theorem exec_addItemToArray {C : Context Fields}
    (H : heap.Holds (roots (C.plug (.node a d cs) ::ₘ t ::ₘ W))) :
    ∃ heap', cjsonAddItemToArray (some a) (some t.addr) heap = .ok heap' ∧
      heap'.Holds (roots (C.plug (.node a d (cs ++ [t])) ::ₘ W)) := by
  obtain ⟨prev, next, frame, haround⟩ := exists_around C a d
  rw [haround, roots_cons] at H
  obtain ⟨heap', hadd, H'⟩ := addItemToArray_node (H.congr (show _
    = (CellTree.node a d cs).cells prev next + (t.cells none none + (frame + roots W)) by abel))
  exact ⟨heap', hadd, by rwa [haround]⟩

theorem exec_addItemToObjectCS {C : Context Fields} (string : Option CString)
    (H : heap.Holds (roots (C.plug (.node a d cs) ::ₘ t ::ₘ W))) :
    ∃ heap', cjsonAddItemToObjectCS (some a) string (some t.addr) heap = .ok heap' ∧
      heap'.Holds (roots (C.plug (.node a d (cs ++ [named true string t])) ::ₘ W)) := by
  rw [Multiset.cons_swap, roots_cons] at H
  obtain ⟨heap₁, hset, H₁⟩ := setFields_root H ({ · with string := string, stringIsConst := true })
  rw [← roots_cons, Multiset.cons_swap] at H₁
  obtain ⟨heap₂, hadd, H₂⟩ := exec_addItemToArray H₁
  rw [CellTree.addr_withData] at hadd
  refine ⟨heap₂, ?_, H₂⟩
  rw [cjsonAddItemToObjectCS, if_neg (by simp), hset]
  exact hadd

theorem exec_addItemToObject {C : Context Fields} (string : Option CString)
    (H : heap.Holds (roots (C.plug (.node a d cs) ::ₘ t ::ₘ W))) :
    ∃ heap', cjsonAddItemToObject (some a) string (some t.addr) heap = .ok heap' ∧
      heap'.Holds (roots (C.plug (.node a d (cs ++ [named false string t])) ::ₘ W)) := by
  obtain ⟨heap₁, hadd, H₁⟩ := exec_addItemToObjectCS string H
  obtain ⟨prev, next, frame, haround⟩ := exists_around C a d
  -- the item is the last of the list now
  have hcells : ∀ u : CellTree Fields, u.addr = t.addr →
      roots (C.plug (.node a d (cs ++ [u])) ::ₘ W) = u.cells (last none cs) none
        + (container a d prev next (first cs (some t.addr)) + chain none cs (some t.addr)
          + (frame + roots W)) := by
    intro u hu
    rw [haround, cells_node, CellTree.chain_append, CellTree.first_append, first, hu,
      CellTree.cells]
    abel
  rw [hcells (named true string t) (CellTree.addr_withData _ _)] at H₁
  obtain ⟨heap₂, hset, H₂⟩ := setFields_root H₁ ({ · with stringIsConst := false })
  simp only [named, CellTree.addr_withData, CellTree.data_withData,
    CellTree.withData_withData] at hset H₂
  refine ⟨heap₂, ?_, ?_⟩
  · rw [cjsonAddItemToObject, hadd]
    exact hset
  · rw [hcells (named false string t) (CellTree.addr_withData _ _)]
    exact H₂

/-- An item that is given a name and no object to be put into. -/
theorem exec_rename (constant : Bool) (string : Option CString)
    (H : heap.Holds (roots (t ::ₘ W))) :
    ∃ heap', exec heap (.addItemToObject constant none string (some t.addr)) = .ok (none, heap') ∧
      heap'.Holds (roots (named constant string t ::ₘ W)) := by
  rw [roots_cons] at H ⊢
  obtain ⟨heap₁, hset, H₁⟩ := setFields_root H ({ · with string := string, stringIsConst := true })
  have hadd : cjsonAddItemToObjectCS none string (some t.addr) heap = .ok heap₁ := by
    rw [cjsonAddItemToObjectCS, if_neg (by simp), hset]
    rfl
  cases constant with
  | true => exact ⟨heap₁, by rw [exec, hadd]; rfl, H₁⟩
  | false =>
      obtain ⟨heap₂, hset', H₂⟩ := setFields_root H₁ ({ · with stringIsConst := false })
      simp only [CellTree.addr_withData, CellTree.data_withData,
        CellTree.withData_withData] at hset' H₂
      refine ⟨heap₂, ?_, H₂⟩
      rw [exec, cjsonAddItemToObject, hadd]
      simp only [bind, Except.bind, hset']
      rfl

theorem notMem_of_fresh {x : Nat} (H : heap.Holds (roots W)) (hx : Fresh x W) : x ∉ heap :=
  fun hmem => (H.mem_iff.mp hmem).elim hx

/-- A reference is a tree of its own before it is put anywhere. -/
theorem createReference_eq {x y : Nat} {cell : Cell Fields} (H : heap.Holds (roots W))
    (hx : Fresh x W) (hy : ⟨y, cell⟩ ∈ roots W) :
    ∃ heap', createReference (some x) (some y) heap = .ok heap' ∧
      heap'.Holds (roots (reference x cell ::ₘ W)) := by
  have hload := load_of_lookup (H.lookup_iff.mpr hy)
  refine ⟨_, by rw [createReference, hload]; rfl, ?_⟩
  have H' := H.alloc (notMem_of_fresh H hx) ((reference x cell).cell none none)
  rw [roots_cons, CellTree.cells_eq, Multiset.cons_add]
  exact H'.congr (by rw [reference, CellTree.inside, zero_add]; rfl)

theorem exec_detachItem {C : Context Fields} (hselects : Selects selector pre t)
    (H : heap.Holds (roots (C.plug (.node a d (pre ++ t :: post)) ::ₘ W))) :
    ∃ heap', detachItem (some a) selector heap = .ok (some t.addr, heap') ∧
      heap'.Holds (roots (C.plug (.node a d (pre ++ post)) ::ₘ t ::ₘ W)) := by
  obtain ⟨prev, next, frame, haround⟩ := exists_around C a d
  rw [haround] at H
  obtain ⟨heap', hdetach, H'⟩ := detachItemViaPointer_node H
  refine ⟨heap', by rw [detachItem_selected hselects H, hdetach], ?_⟩
  rw [haround, roots_cons]
  exact H'.congr (by abel)

theorem exec_detachMissed {C : Context Fields} (hmisses : Misses selector cs)
    (H : heap.Holds (roots (C.plug (.node a d cs) ::ₘ W))) :
    detachItem (some a) selector heap = .ok (none, heap) := by
  obtain ⟨prev, next, frame, haround⟩ := exists_around C a d
  rw [haround] at H
  exact detachItem_missed hmisses H

theorem exec_insertItemInArray {C : Context Fields} {which : Int32}
    (hwhich : which.toInt = pre.length)
    (H : heap.Holds (roots (C.plug (.node a d (pre ++ t :: post)) ::ₘ u ::ₘ W))) :
    ∃ heap', cjsonInsertItemInArray (some a) which (some u.addr) heap = .ok heap' ∧
      heap'.Holds (roots (C.plug (.node a d (pre ++ u :: t :: post)) ::ₘ W)) := by
  obtain ⟨prev, next, frame, haround⟩ := exists_around C a d
  rw [haround, roots_cons] at H
  obtain ⟨heap', hinsert, H'⟩ := insertItemInArray_node hwhich (H.congr (show _
    = (CellTree.node a d (pre ++ t :: post)).cells prev next
      + (u.cells none none + (frame + roots W)) by abel))
  exact ⟨heap', hinsert, by rwa [haround]⟩

theorem exec_insertBehind {C : Context Fields} {which : Int32} (hwhich : cs.length ≤ which.toInt)
    (H : heap.Holds (roots (C.plug (.node a d cs) ::ₘ u ::ₘ W))) :
    ∃ heap', cjsonInsertItemInArray (some a) which (some u.addr) heap = .ok heap' ∧
      heap'.Holds (roots (C.plug (.node a d (cs ++ [u])) ::ₘ W)) := by
  obtain ⟨heap', hadd, H'⟩ := exec_addItemToArray H
  obtain ⟨prev, next, frame, haround⟩ := exists_around C a d
  rw [haround] at H
  have hitem := getArrayItem_eq H which.toInt.toNat
  rw [List.drop_eq_nil_of_le (by omega)] at hitem
  refine ⟨heap', ?_, H'⟩
  rw [cjsonInsertItemInArray, if_neg (not_negative hwhich), hitem]
  exact hadd

theorem exec_replaceItem {C : Context Fields} (hselects : Selects selector pre t)
    (H : heap.Holds (roots (C.plug (.node a d (pre ++ t :: post)) ::ₘ u ::ₘ W))) :
    ∃ heap', replaceItem (some a) (some u.addr) selector heap = .ok heap' ∧
      heap'.Holds (roots (C.plug (.node a d (pre ++ u :: post)) ::ₘ W)) := by
  obtain ⟨prev, next, frame, haround⟩ := exists_around C a d
  rw [haround, roots_cons] at H
  have H₀ : heap.Holds ((CellTree.node a d (pre ++ t :: post)).cells prev next
      + (u.cells none none + (frame + roots W))) := H.congr (by abel)
  obtain ⟨heap', hreplace, H'⟩ := replaceItemViaPointer_node H₀
  refine ⟨heap', ?_, by rwa [haround]⟩
  rw [replaceItem_selected hselects H₀, hreplace]
  rfl

/-- **One call**: the memory does what the client is told. -/
theorem exec_of_does {call : Call} {r : Ptr} (hdoes : Does call W r W')
    (H : heap.Holds (roots W)) :
    ∃ heap', exec heap call = .ok (r, heap') ∧ heap'.Holds (roots W') := by
  cases hdoes with
  | idle h => exact ⟨heap, exec_idle h, H⟩
  | @create x creation _ hx =>
      refine ⟨_, rfl, ?_⟩
      rw [create_some, roots_cons]
      exact newItem_alone (notMem_of_fresh H hx) H creation.fields
  | addItemToArray =>
      obtain ⟨heap', hadd, H'⟩ := exec_addItemToArray H
      exact ⟨heap', by rw [exec, hadd]; rfl, H'⟩
  | @rename constant string => exact exec_rename constant string H
  | @addItemToObject constant string =>
      cases constant with
      | true =>
          obtain ⟨heap', hadd, H'⟩ := exec_addItemToObjectCS string H
          exact ⟨heap', by rw [exec, hadd]; rfl, H'⟩
      | false =>
          obtain ⟨heap', hadd, H'⟩ := exec_addItemToObject string H
          exact ⟨heap', by rw [exec, hadd]; rfl, H'⟩
  | @addItemReferenceToArray _ _ x y _ _ cell _ hx hy =>
      obtain ⟨heap₁, hcreate, H₁⟩ := createReference_eq H hx hy
      rw [Multiset.cons_swap] at H₁
      obtain ⟨heap₂, hadd, H₂⟩ := exec_addItemToArray H₁
      refine ⟨heap₂, ?_, H₂⟩
      rw [exec, cjsonAddItemReferenceToArray, hcreate]
      simp only [bind, Except.bind]
      rw [show some x = some (reference x cell).addr from rfl, hadd]
      rfl
  | @addItemReferenceToObject string _ _ x y _ _ cell _ hx hy =>
      obtain ⟨heap₁, hcreate, H₁⟩ := createReference_eq H hx hy
      rw [Multiset.cons_swap] at H₁
      obtain ⟨heap₂, hadd, H₂⟩ := exec_addItemToObject string H₁
      refine ⟨heap₂, ?_, H₂⟩
      rw [exec, cjsonAddItemReferenceToObject, hcreate]
      simp only [bind, Except.bind]
      rw [show some x = some (reference x cell).addr from rfl, hadd]
      rfl
  | detachMissed hmisses => exact ⟨heap, exec_detachMissed hmisses H, H⟩
  | detachItem hselects => exact exec_detachItem hselects H
  | deleteMissed hmisses =>
      refine ⟨heap, ?_, H⟩
      rw [exec, deleteItem_eq, exec_detachMissed hmisses H]
      rfl
  | deleteItem hselects =>
      obtain ⟨heap₁, hdetach, H₁⟩ := exec_detachItem hselects H
      rw [Multiset.cons_swap, roots_cons] at H₁
      obtain ⟨heap₂, hdelete, H₂⟩ := delete_root H₁
      refine ⟨heap₂, ?_, H₂⟩
      rw [exec, deleteItem_eq, hdetach]
      simp only [bind, Except.bind, hdelete]
      rfl
  | insertBehind hwhich =>
      obtain ⟨heap', hinsert, H'⟩ := exec_insertBehind hwhich H
      exact ⟨heap', by rw [exec, hinsert]; rfl, H'⟩
  | insertItemInArray hwhich =>
      obtain ⟨heap', hinsert, H'⟩ := exec_insertItemInArray hwhich H
      exact ⟨heap', by rw [exec, hinsert]; rfl, H'⟩
  | replaceItem hselects =>
      obtain ⟨heap', hreplace, H'⟩ := exec_replaceItem hselects H
      exact ⟨heap', by rw [exec, hreplace]; rfl, H'⟩
  | delete =>
      rw [roots_cons] at H
      obtain ⟨heap', hdelete, H'⟩ := delete_root H
      exact ⟨heap', by rw [exec, hdelete]; rfl, H'⟩

/-! ## Sessions -/

/-- Calls in a row. -/
theorem execAll_of_session {calls : List (Call × Ptr)} (h : Session W calls W')
    (H : heap.Holds (roots W)) :
    ∃ heap', execAll (calls.map (·.1)) heap = .ok (calls.map (·.2), heap') ∧
      heap'.Holds (roots W') := by
  induction h generalizing heap with
  | nil => exact ⟨heap, rfl, H⟩
  | cons hdoes _ ih =>
      obtain ⟨heap₁, hexec, H₁⟩ := exec_of_does hdoes H
      obtain ⟨heap₂, hall, H₂⟩ := ih H₁
      refine ⟨heap₂, ?_, H₂⟩
      rw [List.map_cons, execAll, hexec]
      simp only [bind, Except.bind, hall]
      rfl

/-- An array with one item, made from nothing. -/
def pairCalls : List (Call × Ptr) :=
  [(.create (some 2) .null, some 2), (.create (some 1) .array, some 1),
   (.addItemToArray (some 1) (some 2), none)]

/-- What the client holds then. -/
def pairTree : CellTree Fields :=
  .node 1 Creation.array.fields [.node 2 Creation.null.fields []]

theorem session_pair : Session 0 pairCalls (↑[pairTree] : Forest) := by
  have hfresh : Fresh 1 (.node 2 Creation.null.fields [] ::ₘ 0) := by
    intro cell hmem
    rw [roots_cons, CellTree.cells_eq, CellTree.inside, chain] at hmem
    simp [roots, CellTree.addr] at hmem
  refine .cons (.create (fun _ => Multiset.notMem_zero _)) (.cons (.create hfresh) ?_)
  exact .cons (@Does.addItemToArray .hole 1 Creation.array.fields []
    (.node 2 Creation.null.fields []) 0) (.nil _)

/-- **Sessions are safe.** A client that starts with nothing and keeps to the rules
meets no fault, no loop of a call goes on for ever, every call returns what the
client is told, and the items in use are the ones of its trees, linked as the
trees are. -/
theorem session_safe {calls : List (Call × Ptr)} (h : Session 0 calls W) :
    ∃ heap, execAll (calls.map (·.1)) ∅ = .ok (calls.map (·.2), heap) ∧
      heap.Holds (roots W) :=
  execAll_of_session h roots_empty

theorem session_safe_pair :
    ∃ heap, execAll (pairCalls.map (·.1)) ∅ = .ok (pairCalls.map (·.2), heap) ∧
      heap.Holds (roots (↑[pairTree] : Forest)) :=
  session_safe session_pair

/-- **The lists stay linked.** In whatever state a session leaves the memory, every
link of an item leads to an item in use; the next one links back, the previous
one links here, and the first of a list has none in front of it. -/
theorem session_linked {calls : List (Call × Ptr)} (h : Session 0 calls W) :
    ∃ rs heap, execAll (calls.map (·.1)) ∅ = .ok (rs, heap) ∧ heap.Linked := by
  obtain ⟨heap, hexec, H⟩ := execAll_of_session h roots_empty
  exact ⟨_, heap, hexec, H.linked⟩

theorem session_linked_pair :
    ∃ rs heap, execAll (pairCalls.map (·.1)) ∅ = .ok (rs, heap) ∧ heap.Linked :=
  session_linked session_pair

theorem session_deletes : ∀ ts : List (CellTree Fields),
    Session (ts : Forest) (ts.map fun t => (.delete (some t.addr), none)) 0
  | [] => .nil _
  | t :: ts => by
      rw [← Multiset.cons_coe]
      exact .cons .delete (session_deletes ts)

/-- **Nothing is lost.** Once a client has deleted the trees it holds, in whatever
order, no item is in use. -/
theorem session_deleted {calls : List (Call × Ptr)} {ts : List (CellTree Fields)}
    (h : Session 0 calls (ts : Forest)) :
    ∃ rs, execAll (calls.map (·.1) ++ ts.map fun t => .delete (some t.addr)) ∅ = .ok (rs, ∅) := by
  obtain ⟨heap, hexec, H⟩ :=
    execAll_of_session (Steps.append_iff.mpr ⟨_, h, session_deletes ts⟩) roots_empty
  obtain rfl := Heap.Holds.eq_empty H
  rw [List.map_append, List.map_map] at hexec
  exact ⟨_, hexec⟩

theorem session_deleted_pair : ∃ rs, execAll (pairCalls.map (·.1)
    ++ [pairTree].map fun t => .delete (some t.addr)) ∅ = .ok (rs, ∅) :=
  session_deleted session_pair

/-! ## An item that is not there -/

theorem replaceItem_missed (hmisses : Misses selector cs)
    (H : heap.Holds ((CellTree.node a d cs).cells prev next + M)) (x : Nat) :
    replaceItem (some a) (some x) selector heap = .error .nullPointer := by
  cases hmisses with
  | @index which _ hwhich =>
      have hitem := getArrayItem_eq H which.toInt.toNat
      rw [List.drop_eq_nil_of_le (by omega)] at hitem
      rw [replaceItem, cjsonReplaceItemInArray, if_neg (not_negative hwhich), hitem]
      rfl
  | @name caseSensitive s _ hcs =>
      have hitem : findNamed caseSensitive s (cs ++ []) = .ok none :=
        findNamed_append hcs (by rintro _ ⟨⟩)
      rw [List.append_nil, ← getObjectItem_eq caseSensitive s H] at hitem
      rw [replaceItem, cjsonReplaceItemInObject, hitem]
      rfl

/-- **An index behind the list.** With one, `cJSON_InsertItemInArray` puts the item
behind the others; `cJSON_ReplaceItemInArray` goes through NULL, and that is the
only way it goes wrong. -/
theorem replaceItemInArray_safe_iff {C : Context Fields} (which : Int32)
    (H : heap.Holds (roots (C.plug (.node a d cs) ::ₘ u ::ₘ W))) :
    ((∃ heap', cjsonReplaceItemInArray (some a) which (some u.addr) heap = .ok heap') ↔
      which.toInt < cs.length) ∧
    (0 ≤ which.toInt → ∃ heap',
      cjsonInsertItemInArray (some a) which (some u.addr) heap = .ok heap' ∧
      heap'.Holds (roots (C.plug (.node a d
        (cs.take which.toInt.toNat ++ u :: cs.drop which.toInt.toNat)) ::ₘ W))) := by
  by_cases hneg : which.toInt < 0
  · have hlt : which < 0 := Int32.lt_iff_toInt_lt.mpr (by simpa using hneg)
    refine ⟨iff_of_true ⟨heap, if_pos hlt⟩ (by omega), by omega⟩
  by_cases hwhich : which.toInt < cs.length
  · obtain ⟨t, post, hdrop⟩ : ∃ t post, cs.drop which.toInt.toNat = t :: post :=
      List.exists_cons_of_ne_nil (by rw [Ne, List.drop_eq_nil_iff]; omega)
    have hcs : cs.take which.toInt.toNat ++ t :: post = cs := by
      rw [← hdrop, List.take_append_drop]
    have hlength : which.toInt = (cs.take which.toInt.toNat).length := by
      rw [List.length_take]
      omega
    rw [hdrop]
    rw [← hcs] at H
    obtain ⟨heap₁, hreplace, _⟩ := exec_replaceItem (.index hlength) H
    exact ⟨iff_of_true ⟨heap₁, hreplace⟩ hwhich, fun _ => exec_insertItemInArray hlength H⟩
  · have hbeyond : cs.length ≤ which.toInt := by omega
    rw [List.take_of_length_le (by omega), List.drop_eq_nil_of_le (by omega)]
    refine ⟨iff_of_false ?_ hwhich, fun _ => exec_insertBehind hbeyond H⟩
    obtain ⟨prev, next, frame, haround⟩ := exists_around C a d
    rw [haround] at H
    have hfault : cjsonReplaceItemInArray (some a) which (some u.addr) heap = .error .nullPointer :=
      replaceItem_missed (.index hbeyond) H u.addr
    rw [hfault]
    rintro ⟨_, ⟨⟩⟩

/-- The first item of an empty array. -/
theorem replaceItemInArray_safe_empty :
    ((∃ heap', cjsonReplaceItemInArray (some 1) 0 (some 2)
        (cjsonCreateNull (some 2) (cjsonCreateArray (some 1) ∅)) = .ok heap') ↔
      (0 : Int32).toInt < 0) ∧
    (0 ≤ (0 : Int32).toInt → ∃ heap', cjsonInsertItemInArray (some 1) 0 (some 2)
        (cjsonCreateNull (some 2) (cjsonCreateArray (some 1) ∅)) = .ok heap' ∧
      heap'.Holds
        (roots (.node 1 Creation.array.fields [.node 2 Creation.null.fields []] ::ₘ 0))) := by
  have hfresh : 2 ∉ cjsonCreateArray (some 1) ∅ := by decide
  have H := newItem_alone hfresh (cjsonCreateArray_empty 1) Creation.null.fields
  rw [← roots_cons, Multiset.cons_swap] at H
  exact @replaceItemInArray_safe_iff _ (.node 2 Creation.null.fields []) [] 1
    Creation.array.fields 0 .hole 0 H

/-! ## Reading -/

theorem first_drop (cs : List (CellTree Fields)) (n : Nat) :
    first (cs.drop n) none = cs[n]?.map CellTree.addr := by
  rw [← List.head?_drop]
  cases cs.drop n with
  | nil => rfl
  | cons t ts => rfl

/-- **Reading a list.** The size is the number of items as an `int`, an index finds its
item or NULL, and a name finds the first item that has it in any case. In its case the
first item that has the name or none decides: one without is read through NULL. -/
theorem container_read {C : Context Fields}
    (H : heap.Holds (roots (C.plug (.node a d cs) ::ₘ W))) :
    cjsonGetArraySize (some a) heap = .ok (Int32.ofNat cs.length) ∧
    (∀ index, cjsonGetArrayItem (some a) index heap
      = .ok (if index < 0 then none else cs[index.toInt.toNat]?.map CellTree.addr)) ∧
    (∀ name, getObjectItem (some a) (some name) false heap
      = .ok ((cs.find? fun u => caseInsensitiveStrcmp (some name) u.data.string = 0).map
          CellTree.addr)) ∧
    ∀ name, getObjectItem (some a) (some name) true heap
      = match cs.find? fun u => u.data.string = none ∨ u.data.string = some name with
        | none => .ok none
        | some u => if u.data.string = none then .error .nullPointer else .ok (some u.addr) := by
  obtain ⟨prev, next, frame, haround⟩ := exists_around C a d
  rw [haround] at H
  refine ⟨getArraySize_eq H, fun index => ?_, fun name => ?_, fun name => ?_⟩
  · rw [cjsonGetArrayItem, getArrayItem_eq H, first_drop]
    split
    · rfl
    · rfl
  · exact (getObjectItem_eq false name H).trans (findNamed_insensitive name cs)
  · exact (getObjectItem_eq true name H).trans (findNamed_sensitive name cs)

theorem container_read_empty :
    cjsonGetArraySize (some 1) (cjsonCreateArray (some 1) ∅) = .ok 0 ∧
    (∀ index : Int32, cjsonGetArrayItem (some 1) index (cjsonCreateArray (some 1) ∅)
      = .ok (if index < 0 then none else none)) ∧
    (∀ name, getObjectItem (some 1) (some name) false (cjsonCreateArray (some 1) ∅) = .ok none) ∧
    ∀ name, getObjectItem (some 1) (some name) true (cjsonCreateArray (some 1) ∅) = .ok none :=
  @container_read _ [] 1 _ 0 .hole (cjsonCreateArray_empty 1)

end KernelTestkit.Items
