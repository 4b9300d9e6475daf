/-
KernelTestkit.Json.Number — numbers of cjson.c: `parse_number` and
`print_number`.

A finite `double` is its sign and its magnitude, a rational number of the
format binary64. `strtod` and `sprintf` are the ones of the C library in the
"C" locale: conversions to `double` round to nearest, conversions to text
are exact. A NaN is left out: no text is parsed to one.
-/
import KernelTestkit.Api.Cjson
import KernelTestkit.Lib.GeneralFormat

namespace KernelTestkit.Json

open KernelTestkit.Lib
open KernelTestkit.Api (saturate)

/-! ## The type double -/

def binary64 : FloatFormat where
  radix := 2
  digits := 53
  least := -1074
  one_lt_radix := by decide
  digits_pos := by decide

/-- The magnitude of a finite `double`. -/
structure Magnitude where
  value : ℚ
  mem : binary64.Mem value
  lt_max : value < 2 ^ 1024
  deriving DecidableEq

inductive Double where
  | finite (negative : Bool) (magnitude : Magnitude)
  | infinite (negative : Bool)
  deriving DecidableEq

namespace Double

/-- The `double` nearest to a magnitude, with a sign. -/
def round (negative : Bool) (q : ℚ) : Double :=
  if h : binary64.nearest |q| < 2 ^ 1024 then
    .finite negative ⟨binary64.nearest |q|, FloatFormat.mem_nearest (abs_nonneg q), h⟩
  else
    .infinite negative

/-- A number with the sign of a flag. -/
def signed (negative : Bool) (q : ℚ) : ℚ := if negative then -q else q

/-- `a == b`; the two zeros are equal. -/
def equal : Double → Double → Bool
  | .finite s m, .finite s' m' => signed s m.value = signed s' m'.value
  | .infinite s, .infinite s' => s = s'
  | _, _ => false

/-- The integer part. -/
def truncate (q : ℚ) : Int := if q < 0 then ⌈q⌉ else ⌊q⌋

/-- `item->valueint` of a number: the integer part, saturated. -/
def valueint : Double → Int64
  | .finite s m => saturate (truncate (signed s m.value))
  | .infinite s => if s then Int64.minValue else Int64.maxValue

end Double

/-! ## Parsing -/

/-- `strtod` on a text without blanks: the number, and how many bytes it has; 0
when there is none. -/
def strtod (text : List UInt8) : Double × Nat :=
  let (negative, magnitude) := scanSign text
  match scanDecimal magnitude with
  | none => (.round false 0, 0)
  | some (q, rest) => (.round negative q, text.length - rest.length)

/-- The bytes `parse_number` copies. -/
def isNumberByte (b : UInt8) : Bool :=
  48 ≤ b ∧ b ≤ 57 ∨ b = 43 ∨ b = 45 ∨ b = 101 ∨ b = 69 ∨ b = 46

/-- `number_c_string`: there is room for 63 bytes. -/
def numberCString (bs : List UInt8) : List UInt8 := (bs.take 63).takeWhile isNumberByte

/-! ## Printing -/

/-- A sign in front of a text. -/
def signedText (negative : Bool) (magnitude : List UInt8) : List UInt8 :=
  if negative then ascii '-' :: magnitude else magnitude

/-- `sprintf(number_buffer, "%1.<precision>g", d)` of a finite number. -/
def sprintfG (precision : Nat) (negative : Bool) (magnitude : Magnitude) : List UInt8 :=
  signedText negative (formatGeneral precision magnitude.value)

/-- The text in `number_buffer`: 15 digits when `sscanf` gets the number back from
them, and 17 otherwise. -/
def numberBuffer : Double → List UInt8
  | .infinite _ => [110, 117, 108, 108]
  | .finite negative magnitude =>
      let text := sprintfG 15 negative magnitude
      if (strtod text).1.equal (.finite negative magnitude) then text
      else sprintfG 17 negative magnitude

/-- `print_number`, without the copy to the output; `none` when the text is too
long for `number_buffer`. -/
def printNumber (d : Double) : Option (List UInt8) :=
  if 25 < (numberBuffer d).length then none else some (numberBuffer d)

end KernelTestkit.Json
