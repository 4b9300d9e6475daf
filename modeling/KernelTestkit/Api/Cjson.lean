/-
KernelTestkit.Api.Cjson — what the program uses of cJSON.

The parser and the printer of cjson.c are a parameter, `CjsonLib`: a
function from NUL-terminated texts to items and back. The rest is modelled
from the source: the item, its `valueint` and `valuestring`, the
case-insensitive lookup `cJSON_GetObjectItem`, and the constructors
`send_parameters` calls.

An item is as `cJSON_Parse` builds it: `valuestring` is set for strings
only, and `valueint` is 1 for `true`, the saturated number for a number,
and 0 for everything else. A number is the exact rational its `double`
stands for; the numbers `send_parameters` creates are integers.
-/
import Mathlib.Algebra.Group.Int.Defs
import Mathlib.Algebra.Group.Nat.Defs
import Mathlib.Data.List.TakeWhile
import KernelTestkit.Lib.FirstMatch

namespace KernelTestkit.Api

open KernelTestkit.Lib

/-! ## C strings -/

/-- The contents of a NUL-terminated string: bytes, none of them NUL. -/
structure CString where
  bytes : List UInt8
  nulFree : 0 ∉ bytes
  deriving DecidableEq, Repr

/-- What a buffer contains for a reader that stops at the first NUL. -/
def cstringOf (buf : List UInt8) : CString where
  bytes := buf.takeWhile (· != 0)
  nulFree := fun h => by simpa using List.mem_takeWhile_imp h

/-- The C string of an ASCII literal. -/
def lit (s : String) : CString := cstringOf (s.toList.map fun c => UInt8.ofNat c.toNat)

theorem CString.ext_bytes {s t : CString} (h : s.bytes = t.bytes) : s = t := by
  cases s; cases t; simp_all

/-- Reading a string back out of a buffer that holds it and its NUL. -/
theorem cstringOf_terminated (s : CString) (rest : List UInt8) :
    cstringOf (s.bytes ++ 0 :: rest) = s := by
  apply CString.ext_bytes
  have hall : ∀ b ∈ s.bytes, (b != 0) = true := by
    intro b hb
    rw [bne_iff_ne]
    rintro rfl
    exact s.nulFree hb
  simp [cstringOf, List.takeWhile_append_of_pos hall]

/-! ## Items -/

/-- `struct cJSON`, as the parser builds it. -/
inductive CJson where
  | null
  | false
  | true
  | number (valuedouble : Rat) (valueint : Int64)
  | string (valuestring : CString)
  | array (child : List CJson)
  | object (child : List (CString × CJson))

namespace CJson

/-- `item->valueint`. -/
def valueint : CJson → Int64
  | .true => 1
  | .number _ n => n
  | _ => 0

/-- `item->valuestring`; `none` is NULL. -/
def valuestring : CJson → Option CString
  | .string s => some s
  | _ => none

/-- The list `item->child`, each entry with its name; the entries of an
array have none. -/
def children : CJson → List (Option CString × CJson)
  | .array items => items.map fun item => (none, item)
  | .object members => members.map fun member => (some member.1, member.2)
  | _ => []

end CJson

/-! ## Lookup -/

/-- `tolower` in the C locale. -/
def tolower (c : UInt8) : UInt8 := if 65 ≤ c ∧ c ≤ 90 then c + 32 else c

/-- The loop of `case_insensitive_strcmp`; the end of a list is its NUL. -/
def strcmpLoop : List UInt8 → List UInt8 → Int
  | [], [] => 0
  | [], d :: _ => (tolower 0).toNat - (tolower d).toNat
  | c :: _, [] => (tolower c).toNat - (tolower 0).toNat
  | c :: cs, d :: ds =>
      if tolower c = tolower d then strcmpLoop cs ds
      else (tolower c).toNat - (tolower d).toNat

/-- `case_insensitive_strcmp`; `none` is a NULL argument. -/
def caseInsensitiveStrcmp : Option CString → Option CString → Int
  | some s, some t => strcmpLoop s.bytes t.bytes
  | _, _ => 1

/-- `cJSON_GetObjectItem(object, name)`: the first child whose name is
`name` up to case. -/
def getObjectItem (object : CJson) (name : CString) : Option CJson :=
  (object.children.find? fun child =>
    caseInsensitiveStrcmp (some name) child.1 = 0).map (·.2)

/-- The key under which a name is looked up. -/
def foldCase (s : CString) : List UInt8 := s.bytes.map tolower

theorem tolower_eq_zero_iff (c : UInt8) : tolower c = 0 ↔ c = 0 := by
  unfold tolower
  split
  · rename_i h
    constructor
    · intro h0
      have h1 := congrArg UInt8.toNat h0
      simp only [UInt8.toNat_add, UInt8.le_iff_toNat_le] at h h1
      simp at h h1
      omega
    · rintro rfl
      simp at h
  · exact Iff.rfl

theorem tolower_toNat_sub_ne {c d : UInt8} (h : tolower c ≠ tolower d) :
    ((tolower c).toNat : Int) - (tolower d).toNat ≠ 0 := by
  intro h0
  exact h (UInt8.toNat_inj.mp (by omega))

/-- Two NUL-free strings compare equal exactly when they agree up to case. -/
theorem strcmpLoop_eq_zero_iff : ∀ (s t : List UInt8), 0 ∉ s → 0 ∉ t →
    (strcmpLoop s t = 0 ↔ s.map tolower = t.map tolower)
  | [], [], _, _ => by simp [strcmpLoop]
  | [], d :: ds, _, ht => by
      have hd : tolower 0 ≠ tolower d := by
        intro h
        exact ht (by simp [(tolower_eq_zero_iff d).mp h.symm])
      simpa [strcmpLoop] using tolower_toNat_sub_ne hd
  | c :: cs, [], hs, _ => by
      have hc : tolower c ≠ tolower 0 := by
        intro h
        exact hs (by simp [(tolower_eq_zero_iff c).mp h])
      simpa [strcmpLoop] using tolower_toNat_sub_ne hc
  | c :: cs, d :: ds, hs, ht => by
      simp only [List.mem_cons, not_or] at hs ht
      have ih := strcmpLoop_eq_zero_iff cs ds hs.2 ht.2
      by_cases h : tolower c = tolower d
      · simp [strcmpLoop, h, ih]
      · simpa [strcmpLoop, h] using tolower_toNat_sub_ne h

theorem caseInsensitiveStrcmp_eq_zero_iff (s t : CString) :
    caseInsensitiveStrcmp (some s) (some t) = 0 ↔ foldCase s = foldCase t :=
  strcmpLoop_eq_zero_iff s.bytes t.bytes s.nulFree t.nulFree

/-- Lookup in an object is first match on the folded names. -/
theorem getObjectItem_object (members : List (CString × CJson)) (name : CString) :
    getObjectItem (.object members) name
      = (members.map fun m => (foldCase m.1, m.2)).lookup (foldCase name) := by
  simp only [getObjectItem, CJson.children]
  induction members with
  | nil => rfl
  | cons m members ih =>
      by_cases h : foldCase name = foldCase m.1
      · simp [caseInsensitiveStrcmp_eq_zero_iff, h]
      · have hb : (foldCase name == foldCase m.1) = false := by simpa using h
        simp only [List.map_cons, List.find?_cons, caseInsensitiveStrcmp_eq_zero_iff, h,
          decide_false, List.lookup_cons, hb]
        exact ih

/-- **Lookup in an object built from optional members**: a member is found
under its name exactly when it was added. -/
theorem getObjectItem_present {rows : List (Bool × CString × CJson)} {c : Bool}
    {name : CString} {item : CJson}
    (hnd : (rows.map fun row => foldCase row.2.1).Nodup) (hmem : (c, name, item) ∈ rows) :
    getObjectItem (.object (present rows)) name = if c then some item else none := by
  rw [getObjectItem_object, present_map]
  refine lookup_present ?_ (List.mem_map.mpr ⟨_, hmem, rfl⟩)
  simpa [List.map_map, Function.comp_def] using hnd

/-! ## Creating items -/

/-- `double` to `int64_t`, saturating as `cJSON_CreateNumber` and
`parse_number` do, for a `double` that is an integer. As a `double`,
`LLONG_MAX` is 2^63. -/
def saturate (num : Int) : Int64 :=
  if 2 ^ 63 ≤ num then Int64.maxValue
  else if num ≤ -2 ^ 63 then Int64.minValue
  else Int64.ofInt num

/-- The integer nearest to `n` with a 53-bit significand, ties to even: the
conversion of an integer to `double`. -/
def roundDouble (n : Nat) : Nat :=
  if n < 2 ^ 53 then n
  else
    let ulp := 2 ^ (n.log2 - 52)
    let q := n / ulp
    let r := n % ulp
    if ulp < 2 * r ∨ (ulp = 2 * r ∧ q % 2 = 1) then (q + 1) * ulp else q * ulp

/-- An integer as a `double`. -/
def toDouble (n : Int) : Int := n.sign * roundDouble n.natAbs

/-- `cJSON_CreateNumber(num)` of an integer argument, which the call
converts to `double`. -/
def createNumber (num : Int) : CJson := .number (toDouble num) (saturate (toDouble num))

theorem roundDouble_of_le {n : Nat} (h : n ≤ 2 ^ 53) : roundDouble n = n := by
  rcases Nat.lt_or_ge n (2 ^ 53) with hlt | hge
  · rw [roundDouble, if_pos hlt]
  · obtain rfl : n = 2 ^ 53 := by omega
    decide

theorem toDouble_of_le {n : Int} (h : n.natAbs ≤ 2 ^ 53) : toDouble n = n := by
  rw [toDouble, roundDouble_of_le h, Int.sign_mul_natAbs]

/-- Up to 2^53 in magnitude an integer goes into `valueint` as it is. -/
theorem valueint_createNumber {n : Int} (h : n.natAbs ≤ 2 ^ 53) :
    (createNumber n).valueint = Int64.ofInt n := by
  rw [createNumber, toDouble_of_le h, CJson.valueint, saturate, if_neg (by omega),
    if_neg (by omega)]

/-- An `int` survives the passage through a number. -/
theorem toInt32_createNumber (n : Int32) : (createNumber n.toInt).valueint.toInt32 = n := by
  have hlt := n.toInt_lt
  have hle := n.le_toInt
  rw [valueint_createNumber (by omega), Int64.toInt32_ofInt, Int32.ofInt_toInt]

/-- So does a `uint64_t` up to 2^53. -/
theorem toUInt64_createNumber {n : UInt64} (h : n.toNat ≤ 2 ^ 53) :
    (createNumber n.toNat).valueint.toUInt64 = n := by
  rw [valueint_createNumber (by omega), Int64.ofInt_eq_ofNat, Int64.toUInt64_ofNat',
    UInt64.ofNat_toNat]

/-- `cJSON_Parse` and `cJSON_PrintUnformatted`; `none` is NULL. -/
structure CjsonLib where
  parse : CString → Option CJson
  printUnformatted : CJson → Option CString

/-- cJSON, as far as one document goes. -/
def CjsonLib.single (text : CString) (doc : CJson) : CjsonLib where
  parse s := if s = text then some doc else none
  printUnformatted _ := some text

/-- cJSON, as far as the two empty containers go. -/
def CjsonLib.empties : CjsonLib where
  parse text :=
    if text = lit "\x7b\x7d" then some (.object [])
    else if text = lit "[]" then some (.array [])
    else none
  printUnformatted
    | .object [] => some (lit "\x7b\x7d")
    | .array [] => some (lit "[]")
    | _ => none

end KernelTestkit.Api
