/-
KernelTestkit.Cli.Rate — the number behind -b.

`unit_atof_rate` scans its argument with `sscanf(s, "%lf%c", &n, &suffix)`
and ignores how many conversions were made, and its caller converts the
product to `uint64_t`. Numbers are exact rationals. `Indeterminate` is what
C leaves open: the contents of `n` when nothing was scanned, in every round
of the option loop, and the conversion of a value that has no place in the
type.
-/
import KernelTestkit.Cli.Scan
import KernelTestkit.Lib.FloatText

namespace KernelTestkit.Cli

open KernelTestkit.Lib
open KernelTestkit.Api

/-- What C leaves open. -/
structure Indeterminate where
  /-- what an uninitialised `double` holds, round by round -/
  uninitialised : Nat → FloatValue
  /-- a `double` converted to `uint64_t` that does not fit -/
  converted : FloatValue → UInt64

/-- `sscanf(s, "%lf%c", …)`: the number and the byte behind it. Blanks in front
of the number are skipped; without a number the byte is not read either. -/
def sscanfRate (s : CString) : Option FloatValue × Option UInt8 :=
  match scanFloat (s.bytes.dropWhile isspace) with
  | none => (none, none)
  | some (n, rest) => (some n, rest.head?)

/-- The conversion to `uint64_t`: the fraction is discarded. -/
def doubleToUInt64 (c : Indeterminate) (v : FloatValue) : UInt64 :=
  match v with
  | .finite q =>
      if -1 < q ∧ q < 18446744073709551616 then UInt64.ofNat q.floor.toNat else c.converted v
  | _ => c.converted v

/-- The numbers of `unit_atof_rate`. -/
def rateOps (c : Indeterminate) : DoubleOps FloatValue where
  scan := sscanfRate
  uninitialised := c.uninitialised
  times := FloatValue.times
  toUInt64 := doubleToUInt64 c

/-- Uninitialised memory is always zero, and so is a value that does not fit. -/
def Indeterminate.zero : Indeterminate := ⟨fun _ => .finite 0, fun _ => 0⟩

example : (rateOps .zero).toUInt64 (unitAtofRate (rateOps .zero) (lit " +1.5e1k, duplex")) = 15000 ∧
    (rateOps .zero).toUInt64 (unitAtofRate (rateOps .zero) (lit "0x1.8p1G")) = 3000000000 ∧
    sscanfRate (lit "1e+k") = (some (.finite 1), some 107) ∧
    sscanfRate (lit "0x.") = (some (.finite 0), none) ∧ sscanfRate (lit "0xg") = (none, none) ∧
    sscanfRate (lit "Infinity") = (some (.infinite false), none) := by
  decide +kernel

end KernelTestkit.Cli
