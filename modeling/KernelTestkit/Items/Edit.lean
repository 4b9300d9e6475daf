/-
KernelTestkit.Items.Edit — the items of cjson.c in memory.

An item is a cell of a heap. Its links are addresses or NULL, and `borrowed`
is `type & cJSON_IsReference`. A read or a store through NULL or into an item
that has been freed is a fault, and so is freeing one twice.

What `malloc` answers is an argument of the functions that make an item. The
texts of an item are part of it: a copy of a text succeeds, and texts are not
freed on their own.

A loop along the siblings of an item has as many rounds as there are items,
and one; `Items.EditTheorems` shows that it ends before.
-/
import KernelTestkit.Json.Number
import KernelTestkit.Lib.Forest

namespace KernelTestkit.Items

open KernelTestkit.Lib
open KernelTestkit.Api (CString caseInsensitiveStrcmp)
open KernelTestkit.Json (Double)

inductive MemoryFault where
  | nullPointer
  | freed
  | outOfFuel
  deriving DecidableEq, Repr

/-- `type & 0xFF`. -/
inductive ItemType where
  | invalid
  | false
  | true
  | null
  | number
  | string
  | array
  | object
  | raw
  deriving DecidableEq, Repr

/-- The members of `struct cJSON` that are no links. -/
structure Fields where
  type : ItemType
  stringIsConst : Bool
  valuestring : Option CString
  valueint : Int64
  valuedouble : Double
  string : Option CString

/-- A pointer to an item; `none` is NULL. -/
abbrev Ptr := Option Nat

abbrev Memory := Heap (Cell Fields)

/-! ## Reads and stores -/

def load (heap : Memory) : Ptr → Except MemoryFault (Cell Fields)
  | none => .error .nullPointer
  | some x =>
      match heap.lookup x with
      | none => .error .freed
      | some cell => .ok cell

def update (p : Ptr) (f : Cell Fields → Cell Fields) (heap : Memory) :
    Except MemoryFault Memory :=
  match p with
  | none => .error .nullPointer
  | some x =>
      match heap.lookup x with
      | none => .error .freed
      | some cell => .ok (heap.store x (f cell))

/-- `p->next = v`. -/
def setNext (p v : Ptr) : Memory → Except MemoryFault Memory := update p ({ · with next := v })

/-- `p->prev = v`. -/
def setPrev (p v : Ptr) : Memory → Except MemoryFault Memory := update p ({ · with prev := v })

/-- `p->child = v`. -/
def setChild (p v : Ptr) : Memory → Except MemoryFault Memory := update p ({ · with child := v })

def setFields (p : Ptr) (f : Fields → Fields) : Memory → Except MemoryFault Memory :=
  update p fun cell => { cell with data := f cell.data }

/-- `free(p)` of an item. -/
def free (x : Nat) (heap : Memory) : Except MemoryFault Memory :=
  match heap.lookup x with
  | none => .error .freed
  | some _ => .ok (heap.remove x)

/-! ## Making and deleting items -/

/-- The members after `memset`. -/
def Fields.cleared : Fields where
  type := .invalid
  stringIsConst := false
  valuestring := none
  valueint := 0
  valuedouble := Double.round false 0
  string := none

/-- `cJSON_New_Item(hooks)`, and what the caller stores in the item it gets. -/
def cjsonNewItem (block : Ptr) (cell : Cell Fields) (heap : Memory) : Memory :=
  match block with
  | none => heap
  | some x => heap.store x cell

/-- An item with no links. -/
def alone (fields : Fields) : Cell Fields := ⟨none, none, none, false, fields⟩

def cjsonCreateNull (block : Ptr) : Memory → Memory :=
  cjsonNewItem block (alone { Fields.cleared with type := .null })

def cjsonCreateTrue (block : Ptr) : Memory → Memory :=
  cjsonNewItem block (alone { Fields.cleared with type := .true })

def cjsonCreateFalse (block : Ptr) : Memory → Memory :=
  cjsonNewItem block (alone { Fields.cleared with type := .false })

def cjsonCreateBool (block : Ptr) (b : Bool) : Memory → Memory :=
  cjsonNewItem block (alone { Fields.cleared with type := if b then .true else .false })

def cjsonCreateNumber (block : Ptr) (num : Double) : Memory → Memory :=
  cjsonNewItem block
    (alone { Fields.cleared with type := .number, valuedouble := num, valueint := num.valueint })

def cjsonCreateString (block : Ptr) (string : CString) : Memory → Memory :=
  cjsonNewItem block (alone { Fields.cleared with type := .string, valuestring := some string })

def cjsonCreateRaw (block : Ptr) (raw : CString) : Memory → Memory :=
  cjsonNewItem block (alone { Fields.cleared with type := .raw, valuestring := some raw })

def cjsonCreateArray (block : Ptr) : Memory → Memory :=
  cjsonNewItem block (alone { Fields.cleared with type := .array })

def cjsonCreateObject (block : Ptr) : Memory → Memory :=
  cjsonNewItem block (alone { Fields.cleared with type := .object })

/-- The loop of `cJSON_Delete`. -/
def deleteLoop : Nat → Ptr → Memory → Except MemoryFault Memory
  | 0, _, _ => .error .outOfFuel
  | _ + 1, none, heap => .ok heap
  | fuel + 1, some x, heap => do
      let cell ← load heap (some x)
      let heap ←
        if ¬ cell.borrowed ∧ cell.child ≠ none then deleteLoop fuel cell.child heap else .ok heap
      deleteLoop fuel cell.next (← free x heap)

/-- `cJSON_Delete(item)`. -/
def cjsonDelete (item : Ptr) (heap : Memory) : Except MemoryFault Memory :=
  deleteLoop (heap.size + 1) item heap

/-! ## Reading a list -/

/-- The loop of `cJSON_GetArraySize`. -/
def countFrom (heap : Memory) : Nat → Ptr → Except MemoryFault Nat
  | 0, _ => .error .outOfFuel
  | _ + 1, none => .ok 0
  | fuel + 1, some x => do return (← countFrom heap fuel (← load heap (some x)).next) + 1

/-- `cJSON_GetArraySize(array)`. -/
def cjsonGetArraySize (array : Ptr) (heap : Memory) : Except MemoryFault Int32 := do
  return Int32.ofNat (← countFrom heap (heap.size + 1) (← load heap array).child)

/-- The loop of `get_array_item`. -/
def arrayItemFrom (heap : Memory) : Nat → Ptr → Except MemoryFault Ptr
  | 0, p => .ok p
  | _ + 1, none => .ok none
  | index + 1, some x => do arrayItemFrom heap index (← load heap (some x)).next

/-- `get_array_item(array, index)`. -/
def getArrayItem (array : Ptr) (index : Nat) (heap : Memory) : Except MemoryFault Ptr :=
  match array with
  | none => .ok none
  | some x => do arrayItemFrom heap index (← load heap (some x)).child

/-- `cJSON_GetArrayItem(array, index)`. -/
def cjsonGetArrayItem (array : Ptr) (index : Int32) (heap : Memory) : Except MemoryFault Ptr :=
  if index < 0 then .ok none else getArrayItem array index.toInt.toNat heap

/-- Whether an item has a name; `strcmp` reads the name of the item. -/
def isNamed (caseSensitive : Bool) (name : CString) (string : Option CString) :
    Except MemoryFault Bool :=
  if caseSensitive then
    match string with
    | none => .error .nullPointer
    | some s => .ok (name = s)
  else .ok (caseInsensitiveStrcmp (some name) string = 0)

/-- The loops of `get_object_item`. -/
def objectItemFrom (heap : Memory) (caseSensitive : Bool) (name : CString) :
    Nat → Ptr → Except MemoryFault Ptr
  | 0, _ => .error .outOfFuel
  | _ + 1, none => .ok none
  | fuel + 1, some x => do
      let cell ← load heap (some x)
      if ← isNamed caseSensitive name cell.data.string then return some x
      else objectItemFrom heap caseSensitive name fuel cell.next

/-- `get_object_item(object, name, case_sensitive)`. -/
def getObjectItem (object : Ptr) (name : Option CString) (caseSensitive : Bool) (heap : Memory) :
    Except MemoryFault Ptr :=
  match object, name with
  | some x, some name => do
      objectItemFrom heap caseSensitive name (heap.size + 1) (← load heap (some x)).child
  | _, _ => .ok none

/-! ## Adding items -/

/-- `suffix_object(prev, item)`. -/
def suffixObject (prev item : Ptr) (heap : Memory) : Except MemoryFault Memory := do
  let heap ← setNext prev item heap
  setPrev item prev heap

/-- The loop of `cJSON_AddItemToArray`. -/
def lastFrom (heap : Memory) : Nat → Ptr → Except MemoryFault Ptr
  | 0, _ => .error .outOfFuel
  | fuel + 1, child => do
      match (← load heap child).next with
      | none => return child
      | some next => lastFrom heap fuel (some next)

/-- `cJSON_AddItemToArray(array, item)`. -/
def cjsonAddItemToArray (array item : Ptr) (heap : Memory) : Except MemoryFault Memory :=
  if item = none ∨ array = none then .ok heap
  else do
    match (← load heap array).child with
    | none => setChild array item heap
    | some child => suffixObject (← lastFrom heap (heap.size + 1) (some child)) item heap

/-- `cJSON_AddItemToObjectCS(object, string, item)`. -/
def cjsonAddItemToObjectCS (object : Ptr) (string : Option CString) (item : Ptr) (heap : Memory) :
    Except MemoryFault Memory :=
  if item = none then .ok heap
  else do
    let heap ← setFields item ({ · with string := string, stringIsConst := true }) heap
    cjsonAddItemToArray object item heap

/-- `cJSON_AddItemToObject(object, string, item)`. -/
def cjsonAddItemToObject (object : Ptr) (string : Option CString) (item : Ptr) (heap : Memory) :
    Except MemoryFault Memory := do
  let heap ← cjsonAddItemToObjectCS object string item heap
  setFields item ({ · with stringIsConst := false }) heap

/-- `create_reference(item, hooks)`. -/
def createReference (block item : Ptr) (heap : Memory) : Except MemoryFault Memory :=
  match block with
  | none => .ok heap
  | some x => do
      let cell ← load heap item
      return heap.store x
        { cell with next := none, prev := none, borrowed := true
                    data := { cell.data with string := none } }

/-- `cJSON_AddItemReferenceToArray(array, item)`. -/
def cjsonAddItemReferenceToArray (block array item : Ptr) (heap : Memory) :
    Except MemoryFault Memory := do
  cjsonAddItemToArray array block (← createReference block item heap)

/-- `cJSON_AddItemReferenceToObject(object, string, item)`. -/
def cjsonAddItemReferenceToObject (block object : Ptr) (string : Option CString) (item : Ptr)
    (heap : Memory) : Except MemoryFault Memory := do
  cjsonAddItemToObject object string block (← createReference block item heap)

/-! ## Taking items out -/

/-- `if (p != NULL) p->next = v`. -/
def setNextIfAny (p v : Ptr) (heap : Memory) : Except MemoryFault Memory :=
  if p = none then .ok heap else setNext p v heap

/-- `if (p != NULL) p->prev = v`. -/
def setPrevIfAny (p v : Ptr) (heap : Memory) : Except MemoryFault Memory :=
  if p = none then .ok heap else setPrev p v heap

/-- `if (parent->child == item) parent->child = v`. -/
def setChildIfFirst (parent item v : Ptr) (heap : Memory) : Except MemoryFault Memory := do
  if (← load heap parent).child = item then setChild parent v heap else .ok heap

/-- `cJSON_DetachItemViaPointer(parent, item)`: the item it returns. -/
def cjsonDetachItemViaPointer (parent item : Ptr) (heap : Memory) :
    Except MemoryFault (Ptr × Memory) :=
  if parent = none ∨ item = none then .ok (none, heap)
  else do
    let cell ← load heap item
    let heap ← setNextIfAny cell.prev cell.next heap
    let cell ← load heap item
    let heap ← setPrevIfAny cell.next cell.prev heap
    let heap ← setChildIfFirst parent item (← load heap item).next heap
    let heap ← setPrev item none heap
    let heap ← setNext item none heap
    return (item, heap)

/-- `cJSON_DetachItemFromArray(array, which)`. -/
def cjsonDetachItemFromArray (array : Ptr) (which : Int32) (heap : Memory) :
    Except MemoryFault (Ptr × Memory) :=
  if which < 0 then .ok (none, heap)
  else do
    cjsonDetachItemViaPointer array (← getArrayItem array which.toInt.toNat heap) heap

/-- `cJSON_DeleteItemFromArray(array, which)`. -/
def cjsonDeleteItemFromArray (array : Ptr) (which : Int32) (heap : Memory) :
    Except MemoryFault Memory := do
  let (item, heap) ← cjsonDetachItemFromArray array which heap
  cjsonDelete item heap

/-- `cJSON_DetachItemFromObject(object, string)`, and the same with
`CaseSensitive`. -/
def cjsonDetachItemFromObject (caseSensitive : Bool) (object : Ptr) (string : Option CString)
    (heap : Memory) : Except MemoryFault (Ptr × Memory) := do
  cjsonDetachItemViaPointer object (← getObjectItem object string caseSensitive heap) heap

/-- `cJSON_DeleteItemFromObject(object, string)`, and the same with
`CaseSensitive`. -/
def cjsonDeleteItemFromObject (caseSensitive : Bool) (object : Ptr) (string : Option CString)
    (heap : Memory) : Except MemoryFault Memory := do
  let (item, heap) ← cjsonDetachItemFromObject caseSensitive object string heap
  cjsonDelete item heap

/-! ## Putting items in -/

/-- `cJSON_InsertItemInArray(array, which, newitem)`. -/
def cjsonInsertItemInArray (array : Ptr) (which : Int32) (newitem : Ptr) (heap : Memory) :
    Except MemoryFault Memory :=
  if which < 0 then .ok heap
  else do
    let afterInserted ← getArrayItem array which.toInt.toNat heap
    if afterInserted = none then cjsonAddItemToArray array newitem heap
    else
      let heap ← setNext newitem afterInserted heap
      let heap ← setPrev newitem (← load heap afterInserted).prev heap
      let heap ← setPrev afterInserted newitem heap
      if afterInserted = (← load heap array).child then setChild array newitem heap
      else do setNext (← load heap newitem).prev newitem heap

/-- `cJSON_ReplaceItemViaPointer(parent, item, replacement)`. -/
def cjsonReplaceItemViaPointer (parent item replacement : Ptr) (heap : Memory) :
    Except MemoryFault (Bool × Memory) :=
  if parent = none ∨ replacement = none then .ok (false, heap)
  else if replacement = item then .ok (true, heap)
  else do
    let heap ← setNext replacement (← load heap item).next heap
    let heap ← setPrev replacement (← load heap item).prev heap
    let heap ← setPrevIfAny (← load heap replacement).next replacement heap
    let heap ← setNextIfAny (← load heap replacement).prev replacement heap
    let heap ← setChildIfFirst parent item replacement heap
    let heap ← setNext item none heap
    let heap ← setPrev item none heap
    let heap ← cjsonDelete item heap
    return (true, heap)

/-- `cJSON_ReplaceItemInArray(array, which, newitem)`. -/
def cjsonReplaceItemInArray (array : Ptr) (which : Int32) (newitem : Ptr) (heap : Memory) :
    Except MemoryFault Memory :=
  if which < 0 then .ok heap
  else do
    let item ← getArrayItem array which.toInt.toNat heap
    return (← cjsonReplaceItemViaPointer array item newitem heap).2

/-- `cJSON_ReplaceItemInObject(object, string, newitem)`, and the same with
`CaseSensitive`. -/
def cjsonReplaceItemInObject (caseSensitive : Bool) (object : Ptr) (string : Option CString)
    (newitem : Ptr) (heap : Memory) : Except MemoryFault Memory := do
  let item ← getObjectItem object string caseSensitive heap
  return (← cjsonReplaceItemViaPointer object item newitem heap).2

/-! ## Duplicating -/

/-- A new item becomes the child behind `next`, or the first child. -/
def linkChild (parent : Nat) (next newchild : Ptr) (heap : Memory) : Except MemoryFault Memory :=
  if next ≠ none then suffixObject next newchild heap else setChild (some parent) newchild heap

mutual

/-- The function, with so many rounds left. -/
def duplicate (malloc : Allocator (Cell Fields)) :
    Nat → Ptr → Bool → Memory → Except MemoryFault (Ptr × Memory)
  | 0, _, _, _ => .error .outOfFuel
  | _ + 1, none, _, heap => .ok (none, heap)
  | fuel + 1, some x, recurse, heap =>
      match malloc.answer heap with
      | none => .ok (none, heap)
      | some newitem => do
          let item ← load heap (some x)
          let heap := heap.store newitem (alone item.data)
          if ¬ recurse then return (some newitem, heap)
          else do
            let (ok, heap) ← duplicateChildren malloc fuel newitem none item.child heap
            if ok then return (some newitem, heap)
            else return (none, ← cjsonDelete (some newitem) heap)

/-- Its loop; `next` is the last of the children there are. -/
def duplicateChildren (malloc : Allocator (Cell Fields)) :
    Nat → Nat → Ptr → Ptr → Memory → Except MemoryFault (Bool × Memory)
  | 0, _, _, _, _ => .error .outOfFuel
  | _ + 1, _, _, none, heap => .ok (true, heap)
  | fuel + 1, newitem, next, some child, heap => do
      let (newchild, heap) ← duplicate malloc fuel (some child) true heap
      if newchild = none then return (false, heap)
      else do
        let heap ← linkChild newitem next newchild heap
        duplicateChildren malloc fuel newitem newchild (← load heap (some child)).next heap

end

end KernelTestkit.Items
