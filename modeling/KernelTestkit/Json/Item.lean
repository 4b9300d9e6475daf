/-
KernelTestkit.Json.Item — items as cjson.c builds and prints them.

The items of `Api.Cjson` are what the program reads of an item; the ones here
are whole. A number has its `double`, infinities included, and there are raw
texts, which the parser never builds. A string is what is in front of its
first NUL.
-/
import KernelTestkit.Json.Number

namespace KernelTestkit.Json

open KernelTestkit.Api (CString CJson)

inductive Item where
  | null
  | false
  | true
  | number (valuedouble : Double)
  | string (valuestring : CString)
  | raw (valuestring : CString)
  | array (child : List Item)
  | object (child : List (CString × Item))

namespace Item

mutual

/-- How many containers are around the innermost value, its own included. -/
def nesting : Item → Nat
  | .array child => nestingElements child + 1
  | .object child => nestingMembers child + 1
  | _ => 0

def nestingElements : List Item → Nat
  | [] => 0
  | item :: items => max (nesting item) (nestingElements items)

def nestingMembers : List (CString × Item) → Nat
  | [] => 0
  | (_, item) :: members => max (nesting item) (nestingMembers members)

end

mutual

/-- There is no raw text in the item. -/
def rawFree : Item → Bool
  | .raw _ => Bool.false
  | .array child => rawFreeElements child
  | .object child => rawFreeMembers child
  | _ => Bool.true

def rawFreeElements : List Item → Bool
  | [] => Bool.true
  | item :: items => rawFree item && rawFreeElements items

def rawFreeMembers : List (CString × Item) → Bool
  | [] => Bool.true
  | (_, item) :: members => rawFree item && rawFreeMembers members

end

/-! ## The program's view -/

/-- A `double` as a rational; an infinity is out of the range of the finite ones. -/
def rational : Double → Rat
  | .finite s m => Double.signed s m.value
  | .infinite s => Double.signed s (2 ^ 1024)

mutual

/-- What the program reads of an item; `none` where there is a raw text. -/
def toCJson : Item → Option CJson
  | .null => some .null
  | .false => some .false
  | .true => some .true
  | .number d => some (.number (rational d) d.valueint)
  | .string s => some (.string s)
  | .raw _ => none
  | .array child => (toCJsonElements child).map .array
  | .object child => (toCJsonMembers child).map .object

def toCJsonElements : List Item → Option (List CJson)
  | [] => some []
  | item :: items => do return (← toCJson item) :: (← toCJsonElements items)

def toCJsonMembers : List (CString × Item) → Option (List (CString × CJson))
  | [] => some []
  | (name, item) :: members => do return (name, ← toCJson item) :: (← toCJsonMembers members)

end

mutual

/-- The item the program has made, as the printer finds it. -/
def ofCJson : CJson → Item
  | .null => .null
  | .false => .false
  | .true => .true
  | .number q _ => .number (Double.round (q < 0) q)
  | .string s => .string s
  | .array child => .array (ofCJsonElements child)
  | .object child => .object (ofCJsonMembers child)

def ofCJsonElements : List CJson → List Item
  | [] => []
  | item :: items => ofCJson item :: ofCJsonElements items

def ofCJsonMembers : List (CString × CJson) → List (CString × Item)
  | [] => []
  | (name, item) :: members => (name, ofCJson item) :: ofCJsonMembers members

end

end Item

end KernelTestkit.Json
