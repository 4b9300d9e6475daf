/-
KernelTestkit.Cli.Scan — numbers on the command line: `atoi`, and
`unit_atof_rate` of utils.c.

`atoi` is `strtol` in base 10, saturated at the limits of `long`, converted
to `int`. The `double` of `unit_atof_rate` is a parameter: `DoubleOps` has
what the function and its caller do with it, and what the stack holds where
the function has its local `n`, which `sscanf` does not always set. What that
is changes from call to call.
-/
import KernelTestkit.Api.Cjson

namespace KernelTestkit.Cli

open KernelTestkit.Api

/-! ## Integers -/

/-- `isspace` in the C locale. -/
def isspace (b : UInt8) : Bool := b = 32 ∨ 9 ≤ b ∧ b ≤ 13

/-- `isdigit`. -/
def isdigit (b : UInt8) : Bool := 48 ≤ b ∧ b ≤ 57

/-- The number decimal digits denote. -/
def digitsValue (bs : List UInt8) : Nat := bs.foldl (fun n b => n * 10 + (b.toNat - 48)) 0

/-- `strtol(s, NULL, 10)`: blanks, a sign and digits; what follows is ignored. -/
def strtol (s : CString) : Int :=
  match s.bytes.dropWhile isspace with
  | [] => 0
  | b :: bs =>
      if b = 45 then max (-2 ^ 63) (-(digitsValue (bs.takeWhile isdigit) : Int))
      else if b = 43 then min (2 ^ 63 - 1) (digitsValue (bs.takeWhile isdigit))
      else min (2 ^ 63 - 1) (digitsValue ((b :: bs).takeWhile isdigit))

/-- `atoi(s)`. -/
def atoi (s : CString) : Int32 := Int32.ofInt (strtol s)

example : atoi (lit " -12x") = -12 ∧ atoi (lit "4294967297") = 1 ∧ atoi (lit "x") = 0 := by
  decide +kernel

/-! ## Rates -/

def KILO_RATE_UNIT : Nat := 1000
def MEGA_RATE_UNIT : Nat := 1000 * 1000
def GIGA_RATE_UNIT : Nat := 1000 * 1000 * 1000
def TERA_RATE_UNIT : Nat := 1000 * 1000 * 1000 * 1000

/-- The type `double`, as `unit_atof_rate` uses it. -/
structure DoubleOps (double : Type) where
  /-- `sscanf(s, "%lf%c", …)`: the number and the byte behind it, if set -/
  scan : CString → Option double × Option UInt8
  /-- what an uninitialised local holds in each round of the option loop, from
  the coming one on -/
  uninitialised : Nat → double
  /-- the product with one of the units -/
  times : double → Nat → double
  /-- the conversion to `uint64_t` -/
  toUInt64 : double → UInt64

/-- The same in the rounds after the coming one. -/
def DoubleOps.next {double : Type} (ops : DoubleOps double) : DoubleOps double :=
  { ops with uninitialised := fun k => ops.uninitialised (k + 1) }

/-- `unit_atof_rate(s)`, called in the coming round. -/
def unitAtofRate {double : Type} (ops : DoubleOps double) (s : CString) : double :=
  let (scanned, suffix) := ops.scan s
  let n := scanned.getD (ops.uninitialised 0)
  match suffix.map fun b => Char.ofNat b.toNat with
  | some 't' | some 'T' => ops.times n TERA_RATE_UNIT
  | some 'g' | some 'G' => ops.times n GIGA_RATE_UNIT
  | some 'm' | some 'M' => ops.times n MEGA_RATE_UNIT
  | some 'k' | some 'K' => ops.times n KILO_RATE_UNIT
  | _ => n

/-- Numbers without a fraction, below 2^53. -/
def DoubleOps.integral : DoubleOps Nat where
  scan s := (some (digitsValue (s.bytes.takeWhile isdigit)), (s.bytes.dropWhile isdigit).head?)
  uninitialised _ := 0
  times n unit := n * unit
  toUInt64 := UInt64.ofNat

example : unitAtofRate .integral (lit "10M") = 10000000 := by decide +kernel

end KernelTestkit.Cli
