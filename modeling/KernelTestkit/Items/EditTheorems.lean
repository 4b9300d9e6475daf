/-
KernelTestkit.Items.EditTheorems — what the functions do to the lists.

A heap that holds the cells of a container and of the other trees goes to one
that holds the cells of the container with its list changed. None of the
functions has a fault there, and every loop ends.
-/
import KernelTestkit.Items.Edit

namespace KernelTestkit.Items

open KernelTestkit.Lib
open KernelTestkit.Lib.CellTree (first last chain cell_next cell_prev cell_data)
open KernelTestkit.Api (CString caseInsensitiveStrcmp)

variable {heap : Memory} {M : Cells (Cell Fields)} {t u : CellTree Fields}
  {ts pre post cs : List (CellTree Fields)} {prev next : Ptr} {a : Nat} {d : Fields}

/-! ## One cell -/

theorem load_of_lookup {x : Nat} {cell : Cell Fields} (h : heap.lookup x = some cell) :
    load heap (some x) = .ok cell := by
  rw [load, h]

theorem update_of_lookup {x : Nat} {cell : Cell Fields} (h : heap.lookup x = some cell)
    (f : Cell Fields → Cell Fields) : update (some x) f heap = .ok (heap.store x (f cell)) := by
  rw [update, h]

theorem load_root (H : heap.Holds (t.cells prev next + M)) :
    load heap (some t.addr) = .ok (t.cell prev next) := load_of_lookup H.lookup_root

/-- A store that changes the links of a tree. -/
theorem update_root (H : heap.Holds (t.cells prev next + M)) {f : Cell Fields → Cell Fields}
    {prev' next' : Ptr} (hf : f (t.cell prev next) = t.cell prev' next') :
    ∃ heap', update (some t.addr) f heap = .ok heap' ∧
      heap'.Holds (t.cells prev' next' + M) :=
  ⟨_, update_of_lookup H.lookup_root f, hf ▸ H.relink prev' next'⟩

theorem setNext_root (H : heap.Holds (t.cells prev next + M)) (v : Ptr) :
    ∃ heap', setNext (some t.addr) v heap = .ok heap' ∧ heap'.Holds (t.cells prev v + M) :=
  update_root H (by cases t with | node => rfl | borrower => rfl)

theorem setPrev_root (H : heap.Holds (t.cells prev next + M)) (v : Ptr) :
    ∃ heap', setPrev (some t.addr) v heap = .ok heap' ∧ heap'.Holds (t.cells v next + M) :=
  update_root H (by cases t with | node => rfl | borrower => rfl)

theorem withData_cells (t : CellTree Fields) (d : Fields) (prev next : Ptr) :
    (t.withData d).cells prev next
      = ⟨t.addr, { t.cell prev next with data := d }⟩ ::ₘ t.inside := by
  rw [CellTree.cells_eq]
  cases t with
  | node => rfl
  | borrower => rfl

/-- A store to the members of an item. -/
theorem setFields_root (H : heap.Holds (t.cells prev next + M)) (f : Fields → Fields) :
    ∃ heap', setFields (some t.addr) f heap = .ok heap' ∧
      heap'.Holds ((t.withData (f t.data)).cells prev next + M) := by
  have hlookup := H.lookup_root
  rw [CellTree.cells_eq, Multiset.cons_add] at H
  refine ⟨_, update_of_lookup hlookup _, ?_⟩
  rw [withData_cells, Multiset.cons_add, cell_data]
  exact H.store _

theorem roots_empty : (∅ : Memory).Holds (CellTree.roots 0) := rfl

/-- A new item is a tree of its own. -/
theorem newItem_alone {y : Nat} (hy : y ∉ heap) (H : heap.Holds M) (fields : Fields) :
    (heap.store y (alone fields)).Holds ((CellTree.node y fields []).cells none none + M) := by
  have H' := H.alloc hy (alone fields)
  rw [CellTree.cells_eq, Multiset.cons_add]
  exact H'.congr (by rw [CellTree.inside, chain, zero_add]; rfl)

theorem cjsonCreateArray_empty (x : Nat) : (cjsonCreateArray (some x) ∅).Holds
    (CellTree.roots (.node x { Fields.cleared with type := .array } [] ::ₘ 0)) := by
  rw [CellTree.roots_cons]
  exact newItem_alone (AList.notMem_empty x) roots_empty _

/-- A store to the link behind some siblings, if there are any. -/
theorem setNextIfAny_last (H : heap.Holds (chain none ts next + M)) (v : Ptr) :
    ∃ heap', setNextIfAny (last none ts) v heap = .ok heap' ∧
      heap'.Holds (chain none ts v + M) := by
  rcases List.eq_nil_or_concat' ts with rfl | ⟨us, u, rfl⟩
  · exact ⟨heap, rfl, H⟩
  · rw [CellTree.chain_concat, add_assoc] at H
    obtain ⟨heap', hset, H'⟩ := setNext_root H v
    refine ⟨heap', ?_, H'.congr (by rw [CellTree.chain_concat, add_assoc])⟩
    rw [CellTree.last_concat, setNextIfAny, if_neg (by simp), hset]

/-- A store to the link in front of some siblings, if there are any. -/
theorem setPrevIfAny_first (H : heap.Holds (chain prev ts none + M)) (v : Ptr) :
    ∃ heap', setPrevIfAny (first ts none) v heap = .ok heap' ∧
      heap'.Holds (chain v ts none + M) := by
  cases ts with
  | nil => exact ⟨heap, rfl, H⟩
  | cons u us =>
      rw [CellTree.chain_cons, add_assoc] at H
      obtain ⟨heap', hset, H'⟩ := setPrev_root H v
      refine ⟨heap', ?_, H'.congr (by rw [CellTree.chain_cons, add_assoc])⟩
      rw [first, setPrevIfAny, if_neg (by simp), hset]

/-! ## A container -/

/-- The cell of a container whose list begins at `child`. -/
def container (a : Nat) (d : Fields) (prev next child : Ptr) : Cells (Cell Fields) :=
  {⟨a, ⟨next, prev, child, false, d⟩⟩}

variable {child : Ptr}

theorem cells_node (a : Nat) (d : Fields) (cs : List (CellTree Fields)) (prev next : Ptr) :
    (CellTree.node a d cs).cells prev next
      = container a d prev next (first cs none) + chain none cs none := by
  rw [CellTree.cells_eq, container, Multiset.singleton_add]
  rfl

theorem load_container (H : heap.Holds (container a d prev next child + M)) :
    load heap (some a) = .ok ⟨next, prev, child, false, d⟩ := by
  rw [container, Multiset.singleton_add] at H
  exact load_of_lookup H.lookup

theorem setChild_container (H : heap.Holds (container a d prev next child + M)) (v : Ptr) :
    ∃ heap', setChild (some a) v heap = .ok heap' ∧
      heap'.Holds (container a d prev next v + M) := by
  rw [container, Multiset.singleton_add] at H ⊢
  exact ⟨_, update_of_lookup H.lookup _, H.store _⟩

theorem setChildIfFirst_container (H : heap.Holds (container a d prev next child + M))
    (item v : Ptr) :
    ∃ heap', setChildIfFirst (some a) item v heap = .ok heap' ∧
      heap'.Holds (container a d prev next (if child = item then v else child) + M) := by
  rw [setChildIfFirst, load_container H]
  simp only [bind, Except.bind]
  by_cases h : child = item
  · obtain ⟨heap', hset, H'⟩ := setChild_container H v
    rw [if_pos h, if_pos h]
    exact ⟨heap', hset, H'⟩
  · rw [if_neg h, if_neg h]
    exact ⟨heap, rfl, H⟩

/-! ## Reading a list -/

theorem load_middle (H : heap.Holds (chain prev (pre ++ t :: post) next + M)) :
    load heap (some t.addr) = .ok (t.cell (last prev pre) (first post next)) :=
  load_of_lookup H.lookup_middle

theorem length_le_size (H : heap.Holds (chain prev ts next + M)) : ts.length ≤ heap.size := by
  have hle := CellTree.length_le_card_chain prev ts next
  have hcard := H.card_eq
  rw [Multiset.card_add] at hcard
  omega

/-- The loop finds the last of the siblings. -/
theorem lastFrom_eq : ∀ {post : List (CellTree Fields)} {pre : List (CellTree Fields)}
    {t : CellTree Fields} {fuel : Nat},
    heap.Holds (chain prev (pre ++ t :: post) none + M) → post.length < fuel →
    lastFrom heap fuel (some t.addr) = .ok (last none (t :: post))
  | [], pre, t, fuel + 1, H, _ => by
      rw [lastFrom, load_middle H]
      simp only [bind, Except.bind, cell_next]
      rfl
  | u :: post, pre, t, fuel + 1, H, hfuel => by
      have ih := @lastFrom_eq post (pre ++ [t]) u fuel (by simpa using H)
        (Nat.lt_of_succ_lt_succ hfuel)
      rw [lastFrom, load_middle H]
      simp only [bind, Except.bind, cell_next]
      exact ih

theorem countFrom_eq : ∀ {post : List (CellTree Fields)} {pre : List (CellTree Fields)}
    {fuel : Nat}, heap.Holds (chain prev (pre ++ post) none + M) → post.length < fuel →
    countFrom heap fuel (first post none) = .ok post.length
  | [], _, _ + 1, _, _ => rfl
  | t :: post, pre, fuel + 1, H, hfuel => by
      have ih := @countFrom_eq post (pre ++ [t]) fuel (by simpa using H)
        (Nat.lt_of_succ_lt_succ hfuel)
      rw [first, countFrom, load_middle H]
      simp only [bind, Except.bind, cell_next, ih]
      rfl

/-- The loop finds the item with an index. -/
theorem arrayItemFrom_eq : ∀ {post : List (CellTree Fields)} {pre : List (CellTree Fields)}
    {index : Nat},
    heap.Holds (chain prev (pre ++ post) none + M) →
    arrayItemFrom heap index (first post none) = .ok (first (post.drop index) none)
  | post, _, 0, _ => by rw [arrayItemFrom, List.drop_zero]
  | [], _, _ + 1, _ => rfl
  | t :: post, pre, index + 1, H => by
      have ih := @arrayItemFrom_eq post (pre ++ [t]) index (by simpa using H)
      rw [first, arrayItemFrom, load_middle H]
      simp only [bind, Except.bind, cell_next]
      exact ih

theorem getArrayItem_eq (H : heap.Holds ((CellTree.node a d cs).cells prev next + M))
    (index : Nat) :
    getArrayItem (some a) index heap = .ok (first (cs.drop index) none) := by
  rw [cells_node] at H
  have hload := load_container (H.congr (add_assoc _ _ _))
  have hloop := @arrayItemFrom_eq heap (container a d prev next (first cs none) + M) none cs []
    index (H.congr (by rw [List.nil_append]; abel))
  rw [getArrayItem, hload]
  simp only [bind, Except.bind]
  exact hloop

/-- The size, as far as an `int` holds it. -/
theorem getArraySize_eq (H : heap.Holds ((CellTree.node a d cs).cells prev next + M)) :
    cjsonGetArraySize (some a) heap = .ok (Int32.ofNat cs.length) := by
  rw [cells_node, add_assoc] at H
  have hload := load_container H
  have H' : heap.Holds (chain none ([] ++ cs) none
      + (container a d prev next (first cs none) + M)) := H.congr (add_left_comm _ _ _)
  have hcount := @countFrom_eq heap _ none cs [] (heap.size + 1) H'
    (Nat.lt_succ_of_le (length_le_size H'))
  rw [cjsonGetArraySize, hload]
  simp only [bind, Except.bind, hcount]
  rfl

/-- The first item with a name, among siblings. -/
def findNamed (caseSensitive : Bool) (name : CString) :
    List (CellTree Fields) → Except MemoryFault Ptr
  | [] => .ok none
  | u :: us => do
      if ← isNamed caseSensitive name u.data.string then return some u.addr
      else findNamed caseSensitive name us

/-- The loop finds it, or stops where the search does. -/
theorem objectItemFrom_eq {caseSensitive : Bool} {name : CString} :
    ∀ {post : List (CellTree Fields)} {pre : List (CellTree Fields)} {fuel : Nat},
    heap.Holds (chain prev (pre ++ post) none + M) → post.length < fuel →
    objectItemFrom heap caseSensitive name fuel (first post none)
      = findNamed caseSensitive name post
  | [], _, _ + 1, _, _ => rfl
  | u :: post, pre, fuel + 1, H, hfuel => by
      have ih := @objectItemFrom_eq caseSensitive name post (pre ++ [u]) fuel (by simpa using H)
        (Nat.lt_of_succ_lt_succ hfuel)
      rw [first, objectItemFrom, load_middle H, findNamed]
      simp only [bind, Except.bind, cell_data, cell_next, ih]

theorem getObjectItem_eq (caseSensitive : Bool) (name : CString)
    (H : heap.Holds ((CellTree.node a d cs).cells prev next + M)) :
    getObjectItem (some a) (some name) caseSensitive heap = findNamed caseSensitive name cs := by
  rw [cells_node, add_assoc] at H
  have hload := load_container H
  have H' : heap.Holds (chain none ([] ++ cs) none
      + (container a d prev next (first cs none) + M)) := H.congr (add_left_comm _ _ _)
  rw [getObjectItem, hload]
  exact objectItemFrom_eq H' (Nat.lt_succ_of_le (length_le_size H'))

theorem findNamed_append {caseSensitive : Bool} {name : CString}
    (hpre : ∀ u ∈ pre, isNamed caseSensitive name u.data.string = .ok false)
    (hpost : ∀ t ∈ post.head?, isNamed caseSensitive name t.data.string = .ok true) :
    findNamed caseSensitive name (pre ++ post) = .ok (first post none) := by
  induction pre with
  | nil =>
      cases post with
      | nil => rfl
      | cons t post =>
          rw [List.nil_append, findNamed, hpost t rfl]
          rfl
  | cons u pre ih =>
      rw [List.cons_append, findNamed, hpre u List.mem_cons_self]
      exact ih fun v hv => hpre v (List.mem_cons_of_mem _ hv)

/-- A name in any case. -/
theorem findNamed_insensitive (name : CString) (cs : List (CellTree Fields)) :
    findNamed false name cs
      = .ok ((cs.find? fun u => caseInsensitiveStrcmp (some name) u.data.string = 0).map
        CellTree.addr) := by
  induction cs with
  | nil => rfl
  | cons u us ih =>
      by_cases hu : caseInsensitiveStrcmp (some name) u.data.string = 0
      · simp [findNamed, isNamed, hu, bind, Except.bind, pure, Except.pure]
      · simp [findNamed, isNamed, hu, ih, bind, Except.bind]

/-- **A name in its case**: the first item that has the name or none decides, and one
without a name is read through NULL. -/
theorem findNamed_sensitive (name : CString) (cs : List (CellTree Fields)) :
    findNamed true name cs
      = match cs.find? fun u => u.data.string = none ∨ u.data.string = some name with
        | none => .ok none
        | some u => if u.data.string = none then .error .nullPointer else .ok (some u.addr) := by
  induction cs with
  | nil => rfl
  | cons u us ih =>
      cases hstring : u.data.string with
      | none => simp [findNamed, isNamed, hstring, bind, Except.bind]
      | some s =>
          by_cases hs : name = s
          · simp [findNamed, isNamed, hstring, hs, bind, Except.bind, pure, Except.pure]
          · simp [findNamed, isNamed, hstring, hs, Ne.symm hs, ih, bind, Except.bind]

/-! ## The functions -/

/-- An item behind some siblings. -/
theorem suffixObject_last (hne : ts ≠ [])
    (H : heap.Holds (chain none ts none + (t.cells none none + M))) :
    ∃ heap', suffixObject (last none ts) (some t.addr) heap = .ok heap' ∧
      heap'.Holds (chain none (ts ++ [t]) none + M) := by
  obtain ⟨u, us, rfl⟩ := List.exists_cons_of_ne_nil hne
  obtain ⟨x, hx⟩ := CellTree.exists_last_eq none u us
  obtain ⟨heap₁, hset₁, H₁⟩ := setNextIfAny_last H (some t.addr)
  obtain ⟨heap₂, hset₂, H₂⟩ := setPrev_root (H₁.congr (add_left_comm _ _ _)) (some x)
  rw [hx, setNextIfAny, if_neg (by simp)] at hset₁
  refine ⟨heap₂, ?_, H₂.congr ?_⟩
  · rw [hx, suffixObject, hset₁]
    exact hset₂
  · rw [CellTree.chain_append, hx, first, CellTree.cells]
    abel

/-- An item becomes the last child. -/
theorem linkChild_node
    (H : heap.Holds ((CellTree.node a d cs).cells prev next + (t.cells none none + M))) :
    ∃ heap', linkChild a (last none cs) (some t.addr) heap = .ok heap' ∧
      heap'.Holds ((CellTree.node a d (cs ++ [t])).cells prev next + M) := by
  rw [cells_node, add_assoc] at H
  rw [cells_node, linkChild]
  cases cs with
  | nil =>
      obtain ⟨heap₁, hset, H₁⟩ := setChild_container H (some t.addr)
      refine ⟨heap₁, hset, H₁.congr ?_⟩
      rw [chain, zero_add, add_assoc]
      rfl
  | cons u us =>
      obtain ⟨heap₁, hsuffix, H₁⟩ :=
        suffixObject_last (List.cons_ne_nil u us) (H.congr (show _ = chain none (u :: us) none
          + (t.cells none none + (container a d prev next (first (u :: us) none) + M)) by abel))
      obtain ⟨x, hx⟩ := CellTree.exists_last_eq none u us
      rw [hx] at hsuffix ⊢
      exact ⟨heap₁, hsuffix, H₁.congr (by rw [List.cons_append, first, first]; abel)⟩

/-- **Adding** puts an item behind the others. -/
theorem addItemToArray_node
    (H : heap.Holds ((CellTree.node a d cs).cells prev next + (t.cells none none + M))) :
    ∃ heap', cjsonAddItemToArray (some a) (some t.addr) heap = .ok heap' ∧
      heap'.Holds ((CellTree.node a d (cs ++ [t])).cells prev next + M) := by
  obtain ⟨heap', hlink, H'⟩ := linkChild_node H
  refine ⟨heap', ?_, H'⟩
  rw [cells_node, add_assoc] at H
  rw [cjsonAddItemToArray, if_neg (by simp), load_container H]
  simp only [bind, Except.bind]
  cases cs with
  | nil => exact hlink
  | cons u us =>
      have H₀ : heap.Holds (chain none ([] ++ u :: us) none
          + (container a d prev next (some u.addr) + (t.cells none none + M))) :=
        H.congr (add_left_comm _ _ _)
      have hlen : us.length < heap.size + 1 := by
        have hle := length_le_size H₀
        rw [List.nil_append, List.length_cons] at hle
        omega
      obtain ⟨x, hx⟩ := CellTree.exists_last_eq none u us
      rw [linkChild, hx, if_pos (by simp)] at hlink
      simp only [first, lastFrom_eq H₀ hlen, hx]
      exact hlink

/-- **Detaching** takes an item out of the list. -/
theorem detachItemViaPointer_node
    (H : heap.Holds ((CellTree.node a d (pre ++ t :: post)).cells prev next + M)) :
    ∃ heap', cjsonDetachItemViaPointer (some a) (some t.addr) heap = .ok (some t.addr, heap') ∧
      heap'.Holds ((CellTree.node a d (pre ++ post)).cells prev next
        + (t.cells none none + M)) := by
  rw [cells_node, CellTree.chain_middle, CellTree.first_append, first] at H
  rw [cells_node, CellTree.chain_append, CellTree.first_append]
  -- the neighbours
  have H₀ : heap.Holds (chain none pre (some t.addr) + (t.cells (last none pre) (first post none)
      + (chain (some t.addr) post none
        + (container a d prev next (first pre (some t.addr)) + M)))) := H.congr (by abel)
  obtain ⟨heap₁, hset₁, H₁⟩ := setNextIfAny_last H₀ (first post none)
  have H₁' : heap₁.Holds (chain (some t.addr) post none
      + (t.cells (last none pre) (first post none) + (chain none pre (first post none)
        + (container a d prev next (first pre (some t.addr)) + M)))) := H₁.congr (by abel)
  obtain ⟨heap₂, hset₂, H₂⟩ := setPrevIfAny_first H₁' (last none pre)
  have hload₀ := load_root (H₀.congr (add_left_comm _ _ _))
  have hload₁ := load_root (H₁'.congr (add_left_comm _ _ _))
  have hload₂ := load_root (H₂.congr (add_left_comm _ _ _))
  -- the parent
  have H₂' : heap₂.Holds (container a d prev next (first pre (some t.addr))
      + (t.cells (last none pre) (first post none) + (chain none pre (first post none)
        + (chain (last none pre) post none + M)))) := H₂.congr (by abel)
  obtain ⟨heap₃, hset₃, H₃⟩ := setChildIfFirst_container H₂' (some t.addr) (first post none)
  rw [CellTree.first_behind H₀.addr_ne_of_mem] at H₃
  -- the item
  obtain ⟨heap₄, hset₄, H₄⟩ := setPrev_root (H₃.congr (add_left_comm _ _ _)) none
  obtain ⟨heap₅, hset₅, H₅⟩ := setNext_root H₄ none
  refine ⟨heap₅, ?_, H₅.congr (by abel)⟩
  rw [cjsonDetachItemViaPointer, if_neg (by simp)]
  simp only [hload₀, hload₁, hload₂, cell_next, cell_prev, hset₁, hset₂, hset₃, hset₄, hset₅, bind,
    Except.bind, pure, Except.pure]

/-! ## Deleting -/

theorem free_eq {x : Nat} {cell : Cell Fields} (H : heap.Holds (⟨x, cell⟩ ::ₘ M)) :
    free x heap = .ok (heap.remove x) := by
  rw [free, H.lookup]

/-- The loop frees the siblings with all that is theirs. -/
theorem deleteLoop_chain : ∀ {fuel : Nat} {ts : List (CellTree Fields)} {prev : Ptr}
    {heap : Memory} {M : Cells (Cell Fields)}, heap.Holds (chain prev ts none + M) →
    (chain prev ts none).card < fuel →
    ∃ heap', deleteLoop fuel (first ts none) heap = .ok heap' ∧ heap'.Holds M
  | fuel + 1, [], _, heap, _, H, _ => ⟨heap, rfl, H.congr (zero_add _)⟩
  | fuel + 1, t :: ts, prev, heap, M, H, hfuel => by
      rw [chain, Multiset.cons_add, add_assoc] at H
      rw [chain, Multiset.card_cons, Multiset.card_add] at hfuel
      have hrest : ∀ {heap' : Memory}, heap'.Holds (⟨t.addr, t.cell prev (first ts none)⟩ ::ₘ
          (chain (some t.addr) ts none + M)) → ∃ heap'', (do
            deleteLoop fuel (first ts none) (← free t.addr heap')) = .ok heap'' ∧
          heap''.Holds M := by
        intro heap' H'
        obtain ⟨heap'', hdelete, H''⟩ :=
          @deleteLoop_chain fuel ts (some t.addr) _ _ H'.remove (by omega)
        exact ⟨heap'', by rw [free_eq H']; exact hdelete, H''⟩
      rw [first, deleteLoop, load_of_lookup H.lookup]
      simp only [bind, Except.bind, cell_next] at hrest ⊢
      cases t with
      | borrower x d c =>
          rw [if_neg (by simp [CellTree.cell])]
          exact hrest (H.congr (by rw [CellTree.inside, zero_add]))
      | node x d cs =>
          cases cs with
          | nil =>
              rw [if_neg (by simp [CellTree.cell, first])]
              exact hrest (H.congr (by rw [CellTree.inside, chain, zero_add]))
          | cons c cs =>
              rw [CellTree.inside] at hfuel
              have hinner : heap.Holds (chain none (c :: cs) none
                  + (⟨x, (CellTree.node x d (c :: cs)).cell prev (first ts none)⟩ ::ₘ
                    (chain (some x) ts none + M))) := by
                rw [Multiset.add_cons]
                exact H
              obtain ⟨heap₁, hdelete, H₁⟩ :=
                @deleteLoop_chain fuel (c :: cs) none _ _ hinner (by omega)
              rw [if_pos ⟨by simp [CellTree.cell], by simp [CellTree.cell, first]⟩]
              rw [CellTree.cell, hdelete]
              exact hrest H₁

/-- **Deleting** a tree frees its cells, each of them once, and no others. -/
theorem delete_root (H : heap.Holds (t.cells none none + M)) :
    ∃ heap', cjsonDelete (some t.addr) heap = .ok heap' ∧ heap'.Holds M := by
  have hcard := H.card_eq
  rw [Multiset.card_add] at hcard
  exact @deleteLoop_chain (heap.size + 1) [t] none _ _ H
    (Nat.lt_succ_of_le (Nat.le.intro hcard))

/-! ## Putting in and replacing -/

/-- **Inserting** puts an item in front of the one that has its index. -/
theorem insertItemInArray_node {which : Int32} (hwhich : which.toInt = pre.length)
    (H : heap.Holds ((CellTree.node a d (pre ++ t :: post)).cells prev next
      + (u.cells none none + M))) :
    ∃ heap', cjsonInsertItemInArray (some a) which (some u.addr) heap = .ok heap' ∧
      heap'.Holds ((CellTree.node a d (pre ++ u :: t :: post)).cells prev next + M) := by
  have hitem := getArrayItem_eq H pre.length
  rw [List.drop_left, first] at hitem
  have hneg : ¬ which < 0 := fun h => by
    have := Int32.lt_iff_toInt_lt.mp h
    simp at this
    omega
  rw [cells_node, CellTree.chain_middle, CellTree.first_append, first] at H
  rw [cells_node, CellTree.chain_middle, CellTree.first_append, CellTree.chain_cons]
  simp only [first]
  -- the new item
  have H₀ : heap.Holds (u.cells none none + (t.cells (last none pre) (first post none)
      + (chain none pre (some t.addr) + (chain (some t.addr) post none
        + (container a d prev next (first pre (some t.addr)) + M))))) := H.congr (by abel)
  obtain ⟨heap₁, hset₁, H₁⟩ := setNext_root H₀ (some t.addr)
  have hload₁ := load_root (H₁.congr (add_left_comm _ _ _))
  obtain ⟨heap₂, hset₂, H₂⟩ := setPrev_root H₁ (last none pre)
  obtain ⟨heap₃, hset₃, H₃⟩ := setPrev_root (H₂.congr (add_left_comm _ _ _)) (some u.addr)
  have H₃' : heap₃.Holds (container a d prev next (first pre (some t.addr))
      + (u.cells (last none pre) (some t.addr) + (t.cells (some u.addr) (first post none)
        + (chain none pre (some t.addr) + (chain (some t.addr) post none + M))))) :=
    H₃.congr (by abel)
  have hcontainer := load_container H₃'
  rw [cjsonInsertItemInArray, if_neg hneg, hwhich, Int.toNat_natCast, hitem]
  simp only [bind, Except.bind, hset₁, hload₁, cell_prev, hset₂, hset₃, hcontainer]
  rw [if_neg (by simp)]
  cases pre with
  | nil =>
      obtain ⟨heap₄, hset₄, H₄⟩ := setChild_container H₃' (some u.addr)
      rw [first, if_pos rfl]
      exact ⟨heap₄, hset₄, H₄.congr (by simp only [first, last, chain]; abel)⟩
  | cons v vs =>
      obtain ⟨x, hx⟩ := CellTree.exists_last_eq none v vs
      have hne := Heap.Holds.addr_ne_of_mem (H₀.congr (show _ = chain none (v :: vs) (some t.addr)
        + (t.cells (last none (v :: vs)) (first post none) + (u.cells none none
          + (chain (some t.addr) post none
            + (container a d prev next (first (v :: vs) (some t.addr)) + M)))) by abel))
        v List.mem_cons_self
      have hload₃ := load_root (H₃'.congr (add_left_comm _ _ _))
      obtain ⟨heap₄, hset₄, H₄⟩ := setNextIfAny_last (H₃'.congr (show _
        = chain none (v :: vs) (some t.addr) + (u.cells (last none (v :: vs)) (some t.addr)
          + (t.cells (some u.addr) (first post none) + (chain (some t.addr) post none
            + (container a d prev next (first (v :: vs) (some t.addr)) + M)))) by abel))
        (some u.addr)
      rw [hx, setNextIfAny, if_neg (by simp)] at hset₄
      rw [first, if_neg (by simpa using hne.symm), hload₃]
      simp only [cell_prev, hx, hset₄]
      exact ⟨heap₄, rfl, H₄.congr (by rw [hx]; simp only [first]; abel)⟩

/-- **Replacing** puts an item in the place of another, which is deleted. -/
theorem replaceItemViaPointer_node
    (H : heap.Holds ((CellTree.node a d (pre ++ t :: post)).cells prev next
      + (u.cells none none + M))) :
    ∃ heap', cjsonReplaceItemViaPointer (some a) (some t.addr) (some u.addr) heap
        = .ok (true, heap') ∧
      heap'.Holds ((CellTree.node a d (pre ++ u :: post)).cells prev next + M) := by
  rw [cells_node, CellTree.chain_middle, CellTree.first_append, first] at H
  rw [cells_node, CellTree.chain_middle, CellTree.first_append, first]
  -- the new item
  have H₀ : heap.Holds (u.cells none none + (t.cells (last none pre) (first post none)
      + (chain none pre (some t.addr) + (chain (some t.addr) post none
        + (container a d prev next (first pre (some t.addr)) + M))))) := H.congr (by abel)
  have hne := H₀.addr_ne
  have hload₀ := load_root (H₀.congr (add_left_comm _ _ _))
  obtain ⟨heap₁, hset₁, H₁⟩ := setNext_root H₀ (first post none)
  have hload₁ := load_root (H₁.congr (add_left_comm _ _ _))
  obtain ⟨heap₂, hset₂, H₂⟩ := setPrev_root H₁ (last none pre)
  have hload₂ := load_root H₂
  -- its neighbours
  obtain ⟨heap₃, hset₃, H₃⟩ := setPrevIfAny_first (H₂.congr (show _ = chain (some t.addr) post none
    + (u.cells (last none pre) (first post none) + (t.cells (last none pre) (first post none)
      + (chain none pre (some t.addr)
        + (container a d prev next (first pre (some t.addr)) + M)))) by abel)) (some u.addr)
  have hload₃ := load_root (H₃.congr (add_left_comm _ _ _))
  have H₃' : heap₃.Holds (chain none pre (some t.addr)
      + (t.cells (last none pre) (first post none) + (u.cells (last none pre) (first post none)
        + (chain (some u.addr) post none
          + (container a d prev next (first pre (some t.addr)) + M))))) := H₃.congr (by abel)
  have hmem := H₃'.addr_ne_of_mem
  obtain ⟨heap₄, hset₄, H₄⟩ := setNextIfAny_last H₃' (some u.addr)
  -- the parent
  obtain ⟨heap₅, hset₅, H₅⟩ := setChildIfFirst_container (H₄.congr (show _
    = container a d prev next (first pre (some t.addr)) + (t.cells (last none pre) (first post none)
      + (u.cells (last none pre) (first post none) + (chain (some u.addr) post none
        + (chain none pre (some u.addr) + M)))) by abel)) (some t.addr) (some u.addr)
  rw [CellTree.first_behind hmem] at H₅
  -- the old item
  obtain ⟨heap₆, hset₆, H₆⟩ := setNext_root (H₅.congr (add_left_comm _ _ _)) none
  obtain ⟨heap₇, hset₇, H₇⟩ := setPrev_root H₆ none
  obtain ⟨heap₈, hdelete, H₈⟩ := delete_root H₇
  refine ⟨heap₈, ?_, H₈.congr (by abel)⟩
  rw [cjsonReplaceItemViaPointer, if_neg (by simp), if_neg (by simpa using hne)]
  simp only [hload₀, hload₁, hload₂, hload₃, cell_next, cell_prev, hset₁, hset₂, hset₃, hset₄,
    hset₅, hset₆, hset₇, hdelete, bind, Except.bind, pure, Except.pure]

end KernelTestkit.Items
