/-
KernelTestkit.Items.Calls — what a client may call, and what it gets.

A client of cjson.c holds some trees. It may hand an item over only if it
holds it as a tree of its own, and a container only if it is a node of another
tree. `Does` says what a call does to the trees then; that is all a client
knows of the memory. A call that is `Idle` returns without a read or a store.

`Exec` is the functions on the memory.
-/
import KernelTestkit.Items.Edit
import KernelTestkit.Lib.Fallible

namespace KernelTestkit.Items

open KernelTestkit.Lib
open KernelTestkit.Lib.CellTree (roots)
open KernelTestkit.Api (CString)
open KernelTestkit.Json (Double)

/-- How a call names an item of a list. -/
inductive Selector where
  | pointer (item : Ptr)
  | index (which : Int32)
  | name (caseSensitive : Bool) (string : Option CString)

/-- The functions `cJSON_Create…`, with what they are given. -/
inductive Creation where
  | null
  | true
  | false
  | bool (b : Bool)
  | number (num : Double)
  | string (string : CString)
  | raw (raw : CString)
  | array
  | object

inductive Call where
  | create (block : Ptr) (creation : Creation)
  | addItemToArray (array item : Ptr)
  | addItemToObject (constant : Bool) (object : Ptr) (string : Option CString) (item : Ptr)
  | addItemReferenceToArray (block array item : Ptr)
  | addItemReferenceToObject (block object : Ptr) (string : Option CString) (item : Ptr)
  | detachItem (selector : Selector) (parent : Ptr)
  | deleteItem (selector : Selector) (parent : Ptr)
  | insertItemInArray (array : Ptr) (which : Int32) (newitem : Ptr)
  | replaceItem (selector : Selector) (parent replacement : Ptr)
  | delete (item : Ptr)

/-! ## On the memory -/

def create (block : Ptr) : Creation → Memory → Memory
  | .null => cjsonCreateNull block
  | .true => cjsonCreateTrue block
  | .false => cjsonCreateFalse block
  | .bool b => cjsonCreateBool block b
  | .number num => cjsonCreateNumber block num
  | .string string => cjsonCreateString block string
  | .raw raw => cjsonCreateRaw block raw
  | .array => cjsonCreateArray block
  | .object => cjsonCreateObject block

def detachItem (parent : Ptr) : Selector → Memory → Except MemoryFault (Ptr × Memory)
  | .pointer item => cjsonDetachItemViaPointer parent item
  | .index which => cjsonDetachItemFromArray parent which
  | .name caseSensitive string => cjsonDetachItemFromObject caseSensitive parent string

def deleteItem (parent : Ptr) : Selector → Memory → Except MemoryFault Memory
  | .pointer item => fun heap => do
      let (item, heap) ← cjsonDetachItemViaPointer parent item heap
      cjsonDelete item heap
  | .index which => cjsonDeleteItemFromArray parent which
  | .name caseSensitive string => cjsonDeleteItemFromObject caseSensitive parent string

def replaceItem (parent replacement : Ptr) : Selector → Memory → Except MemoryFault Memory
  | .pointer item => fun heap => (cjsonReplaceItemViaPointer parent item replacement heap).map (·.2)
  | .index which => cjsonReplaceItemInArray parent which replacement
  | .name caseSensitive string =>
      cjsonReplaceItemInObject caseSensitive parent string replacement

/-- A call, and the item it returns. -/
def exec (heap : Memory) : Call → Except MemoryFault (Ptr × Memory)
  | .create block creation => .ok (block, create block creation heap)
  | .addItemToArray array item => (cjsonAddItemToArray array item heap).map (none, ·)
  | .addItemToObject true object string item =>
      (cjsonAddItemToObjectCS object string item heap).map (none, ·)
  | .addItemToObject false object string item =>
      (cjsonAddItemToObject object string item heap).map (none, ·)
  | .addItemReferenceToArray block array item =>
      (cjsonAddItemReferenceToArray block array item heap).map (none, ·)
  | .addItemReferenceToObject block object string item =>
      (cjsonAddItemReferenceToObject block object string item heap).map (none, ·)
  | .detachItem selector parent => detachItem parent selector heap
  | .deleteItem selector parent => (deleteItem parent selector heap).map (none, ·)
  | .insertItemInArray array which newitem =>
      (cjsonInsertItemInArray array which newitem heap).map (none, ·)
  | .replaceItem selector parent replacement =>
      (replaceItem parent replacement selector heap).map (none, ·)
  | .delete item => (cjsonDelete item heap).map (none, ·)

/-- Calls in a row, and what they return. -/
def execAll : List Call → Memory → Except MemoryFault (List Ptr × Memory)
  | [], heap => .ok ([], heap)
  | call :: calls, heap => do
      let (r, heap) ← exec heap call
      let (rs, heap) ← execAll calls heap
      return (r :: rs, heap)

/-! ## On the trees -/

/-- The trees a client holds. -/
abbrev Forest := Multiset (CellTree Fields)

/-- What is in a new item. -/
def Creation.fields : Creation → Fields
  | .null => { Fields.cleared with type := .null }
  | .true => { Fields.cleared with type := .true }
  | .false => { Fields.cleared with type := .false }
  | .bool b => { Fields.cleared with type := if b then .true else .false }
  | .number num =>
      { Fields.cleared with type := .number, valuedouble := num, valueint := num.valueint }
  | .string s => { Fields.cleared with type := .string, valuestring := some s }
  | .raw s => { Fields.cleared with type := .raw, valuestring := some s }
  | .array => { Fields.cleared with type := .array }
  | .object => { Fields.cleared with type := .object }

/-- The list has the item behind `pre`. -/
inductive Selects : Selector → List (CellTree Fields) → CellTree Fields → Prop where
  | pointer {pre : List (CellTree Fields)} {t : CellTree Fields} :
      Selects (.pointer (some t.addr)) pre t
  | index {which : Int32} {pre : List (CellTree Fields)} {t : CellTree Fields} :
      which.toInt = pre.length → Selects (.index which) pre t
  | name {caseSensitive : Bool} {s : CString} {pre : List (CellTree Fields)} {t : CellTree Fields} :
      (∀ u ∈ pre, isNamed caseSensitive s u.data.string = .ok false) →
      isNamed caseSensitive s t.data.string = .ok true →
      Selects (.name caseSensitive (some s)) pre t

/-- The list does not have the item. -/
inductive Misses : Selector → List (CellTree Fields) → Prop where
  | index {which : Int32} {cs : List (CellTree Fields)} :
      cs.length ≤ which.toInt → Misses (.index which) cs
  | name {caseSensitive : Bool} {s : CString} {cs : List (CellTree Fields)} :
      (∀ u ∈ cs, isNamed caseSensitive s u.data.string = .ok false) →
      Misses (.name caseSensitive (some s)) cs

/-- No item can be meant. -/
def Selector.Idle : Selector → Prop
  | .pointer item => item = none
  | .index which => which < 0
  | .name _ string => string = none

/-- A call that returns without a read or a store. -/
def Call.Idle : Call → Prop
  | .create block _ => block = none
  | .addItemToArray array item => item = none ∨ array = none
  | .addItemToObject constant _ _ item => constant = true ∧ item = none
  | .addItemReferenceToArray block _ _ => block = none
  | .addItemReferenceToObject _ _ _ _ => False
  | .detachItem selector parent => parent = none ∨ selector.Idle
  | .deleteItem selector parent => parent = none ∨ selector.Idle
  | .insertItemInArray array which _ => which < 0 ∨ array = none
  | .replaceItem selector parent replacement =>
      match selector with
      | .pointer item => parent = none ∨ replacement = none ∨ replacement = item
      | .index which => parent = none ∨ which < 0
      | .name _ string => parent = none ∨ (replacement = none ∧ string = none)
  | .delete item => item = none

/-- The item under the name it has been given. -/
def named (constant : Bool) (string : Option CString) (t : CellTree Fields) : CellTree Fields :=
  t.withData { t.data with string := string, stringIsConst := constant }

/-- A reference to an item. -/
def reference (x : Nat) (cell : Cell Fields) : CellTree Fields :=
  .borrower x { cell.data with string := none } cell.child

/-- No item has the address. -/
def Fresh (x : Nat) (W : Forest) : Prop := ∀ cell, ⟨x, cell⟩ ∉ roots W

/-- What a call does, and the item it returns. -/
inductive Does : Call → Forest → Ptr → Forest → Prop where
  | idle {call : Call} {W : Forest} : call.Idle → Does call W none W
  | create {x : Nat} {creation : Creation} {W : Forest} : Fresh x W →
      Does (.create (some x) creation) W (some x) (.node x creation.fields [] ::ₘ W)
  | addItemToArray {C : Context Fields} {a : Nat} {d : Fields} {cs : List (CellTree Fields)}
      {t : CellTree Fields} {W : Forest} :
      Does (.addItemToArray (some a) (some t.addr)) (C.plug (.node a d cs) ::ₘ t ::ₘ W) none
        (C.plug (.node a d (cs ++ [t])) ::ₘ W)
  | rename {constant : Bool} {string : Option CString} {t : CellTree Fields} {W : Forest} :
      Does (.addItemToObject constant none string (some t.addr)) (t ::ₘ W) none
        (named constant string t ::ₘ W)
  | addItemToObject {constant : Bool} {string : Option CString} {C : Context Fields} {a : Nat}
      {d : Fields} {cs : List (CellTree Fields)} {t : CellTree Fields} {W : Forest} :
      Does (.addItemToObject constant (some a) string (some t.addr))
        (C.plug (.node a d cs) ::ₘ t ::ₘ W) none
        (C.plug (.node a d (cs ++ [named constant string t])) ::ₘ W)
  | addItemReferenceToArray {C : Context Fields} {a x y : Nat} {d : Fields}
      {cs : List (CellTree Fields)} {cell : Cell Fields} {W : Forest} :
      Fresh x (C.plug (.node a d cs) ::ₘ W) → ⟨y, cell⟩ ∈ roots (C.plug (.node a d cs) ::ₘ W) →
      Does (.addItemReferenceToArray (some x) (some a) (some y)) (C.plug (.node a d cs) ::ₘ W) none
        (C.plug (.node a d (cs ++ [reference x cell])) ::ₘ W)
  | addItemReferenceToObject {string : Option CString} {C : Context Fields} {a x y : Nat}
      {d : Fields} {cs : List (CellTree Fields)} {cell : Cell Fields} {W : Forest} :
      Fresh x (C.plug (.node a d cs) ::ₘ W) → ⟨y, cell⟩ ∈ roots (C.plug (.node a d cs) ::ₘ W) →
      Does (.addItemReferenceToObject (some x) (some a) string (some y))
        (C.plug (.node a d cs) ::ₘ W) none
        (C.plug (.node a d (cs ++ [named false string (reference x cell)])) ::ₘ W)
  | detachMissed {selector : Selector} {C : Context Fields} {a : Nat} {d : Fields}
      {cs : List (CellTree Fields)} {W : Forest} :
      Misses selector cs → Does (.detachItem selector (some a)) (C.plug (.node a d cs) ::ₘ W) none
        (C.plug (.node a d cs) ::ₘ W)
  | detachItem {selector : Selector} {C : Context Fields} {a : Nat} {d : Fields}
      {pre post : List (CellTree Fields)} {t : CellTree Fields} {W : Forest} :
      Selects selector pre t → Does (.detachItem selector (some a))
        (C.plug (.node a d (pre ++ t :: post)) ::ₘ W) (some t.addr)
        (C.plug (.node a d (pre ++ post)) ::ₘ t ::ₘ W)
  | deleteMissed {selector : Selector} {C : Context Fields} {a : Nat} {d : Fields}
      {cs : List (CellTree Fields)} {W : Forest} :
      Misses selector cs → Does (.deleteItem selector (some a)) (C.plug (.node a d cs) ::ₘ W) none
        (C.plug (.node a d cs) ::ₘ W)
  | deleteItem {selector : Selector} {C : Context Fields} {a : Nat} {d : Fields}
      {pre post : List (CellTree Fields)} {t : CellTree Fields} {W : Forest} :
      Selects selector pre t → Does (.deleteItem selector (some a))
        (C.plug (.node a d (pre ++ t :: post)) ::ₘ W) none (C.plug (.node a d (pre ++ post)) ::ₘ W)
  | insertBehind {which : Int32} {C : Context Fields} {a : Nat} {d : Fields}
      {cs : List (CellTree Fields)} {t : CellTree Fields} {W : Forest} :
      cs.length ≤ which.toInt → Does (.insertItemInArray (some a) which (some t.addr))
        (C.plug (.node a d cs) ::ₘ t ::ₘ W) none (C.plug (.node a d (cs ++ [t])) ::ₘ W)
  | insertItemInArray {which : Int32} {C : Context Fields} {a : Nat} {d : Fields}
      {pre post : List (CellTree Fields)} {t u : CellTree Fields} {W : Forest} :
      which.toInt = pre.length → Does (.insertItemInArray (some a) which (some u.addr))
        (C.plug (.node a d (pre ++ t :: post)) ::ₘ u ::ₘ W) none
        (C.plug (.node a d (pre ++ u :: t :: post)) ::ₘ W)
  | replaceItem {selector : Selector} {C : Context Fields} {a : Nat} {d : Fields}
      {pre post : List (CellTree Fields)} {t u : CellTree Fields} {W : Forest} :
      Selects selector pre t → Does (.replaceItem selector (some a) (some u.addr))
        (C.plug (.node a d (pre ++ t :: post)) ::ₘ u ::ₘ W) none
        (C.plug (.node a d (pre ++ u :: post)) ::ₘ W)
  | delete {t : CellTree Fields} {W : Forest} : Does (.delete (some t.addr)) (t ::ₘ W) none W

/-- Calls of a client with what they return, and the trees it holds before and
behind them. -/
abbrev Session (W : Forest) (calls : List (Call × Ptr)) (W' : Forest) : Prop :=
  Steps (fun W (i : Call × Ptr) W' => Does i.1 W i.2 W') W calls W'

end KernelTestkit.Items
