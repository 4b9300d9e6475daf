/-
KernelTestkit.Lib.FloatText — floating-point numbers in text.

`scanFloat` reads what the conversion `%f` of `scanf` reads, as glibc does:
an optional sign and a decimal number, a hexadecimal number behind "0x", an
infinity or a NaN. The numbers are exact rationals; nothing is rounded.

The scan takes bytes as long as they could go on such an item and puts none
of them back. "0x" and "infi" are no numbers then, although "0" and "inf"
are. What was taken in vain behind a number belongs to the item and counts
for nothing: "1e", "1e+" and "0x1p" are 1, and "0x." is 0.
-/
import Mathlib.Algebra.Group.Int.Defs
import Mathlib.Algebra.Group.Nat.Defs
import Mathlib.Data.List.Basic

namespace KernelTestkit.Lib

/-- What a text may denote. -/
inductive FloatValue where
  | finite (q : Rat)
  | infinite (negative : Bool)
  | nan
  deriving DecidableEq, Repr

namespace FloatValue

/-- The value behind a minus sign. -/
def neg : FloatValue → FloatValue
  | .finite q => .finite (-q)
  | .infinite negative => .infinite (!negative)
  | .nan => .nan

/-- A multiple. -/
def times : FloatValue → Nat → FloatValue
  | .finite q, n => .finite (q * n)
  | .infinite negative, _ => .infinite negative
  | .nan, _ => .nan

end FloatValue

/-- The code of an ASCII character. -/
def ascii (c : Char) : UInt8 := UInt8.ofNat c.toNat

/-! ## Words -/

/-- The text behind a word; the case of its letters is ignored. -/
def dropWord : List Char → List UInt8 → Option (List UInt8)
  | [], bs => some bs
  | _ :: _, [] => none
  | c :: cs, b :: bs =>
      if b = ascii c ∨ b = ascii c.toUpper then dropWord cs bs else none

/-- Behind "inf" or "infinity". -/
def scanInfinity (bs : List UInt8) : Option (List UInt8) :=
  match dropWord ['i', 'n', 'f'] bs with
  | none => none
  | some [] => some []
  | some (b :: bs) =>
      -- one more letter of the longer word commits to it
      if b = ascii 'i' ∨ b = ascii 'I' then dropWord ['i', 'n', 'i', 't', 'y'] (b :: bs)
      else some (b :: bs)

/-! ## Numbers -/

/-- A way to write numbers: the values of the digits, the base, the letters in
front of an exponent and what it is an exponent of. -/
structure Radix where
  digit : UInt8 → Option Nat
  base : Nat
  marks : List UInt8
  scale : Nat

namespace Radix

def decimal : Radix where
  digit b := if ascii '0' ≤ b ∧ b ≤ ascii '9' then some (b - ascii '0').toNat else none
  base := 10
  marks := [ascii 'e', ascii 'E']
  scale := 10

def hexadecimal : Radix where
  digit b :=
    if ascii '0' ≤ b ∧ b ≤ ascii '9' then some (b - ascii '0').toNat
    else if ascii 'a' ≤ b ∧ b ≤ ascii 'f' then some (b - ascii 'a' + 10).toNat
    else if ascii 'A' ≤ b ∧ b ≤ ascii 'F' then some (b - ascii 'A' + 10).toNat
    else none
  base := 16
  marks := [ascii 'p', ascii 'P']
  scale := 2

def isDigit (r : Radix) (b : UInt8) : Bool := (r.digit b).isSome

/-- The number digits denote. -/
def value (r : Radix) (bs : List UInt8) : Nat :=
  bs.foldl (fun n b => n * r.base + (r.digit b).getD 0) 0

end Radix

/-- A sign, and what is behind it. -/
def scanSign : List UInt8 → Bool × List UInt8
  | [] => (false, [])
  | b :: bs =>
      if b = ascii '-' then (true, bs) else if b = ascii '+' then (false, bs) else (false, b :: bs)

/-- Digits, which may have a point among them: the number and how many digits
are behind the point. -/
def scanDigits (r : Radix) (bs : List UInt8) : Option (Nat × Nat × List UInt8) :=
  let whole := bs.takeWhile r.isDigit
  let (fraction, rest) :=
    match bs.dropWhile r.isDigit with
    | [] => ([], [])
    | b :: bs =>
        if b = ascii '.' then (bs.takeWhile r.isDigit, bs.dropWhile r.isDigit) else ([], b :: bs)
  if whole ++ fraction = [] then none
  else some (r.value (whole ++ fraction), fraction.length, rest)

/-- The exponent behind a mark: an optional sign and digits, which are decimal,
and the digits themselves. -/
def exponentDigits (bs : List UInt8) : Int × List UInt8 × List UInt8 :=
  let (negative, bs) := scanSign bs
  let digits := bs.takeWhile Radix.decimal.isDigit
  let e : Int := Radix.decimal.value digits
  (if negative then -e else e, digits, bs.dropWhile Radix.decimal.isDigit)

/-- An exponent, if there is one; a mark without digits is none. -/
def scanExponent (r : Radix) : List UInt8 → Option (Int × List UInt8)
  | [] => some (0, [])
  | b :: bs =>
      if b ∈ r.marks then
        let (e, digits, rest) := exponentDigits bs
        if digits = [] then none else some (e, rest)
      else some (0, b :: bs)

/-- What a scan that puts nothing back takes for an exponent: a mark and a sign
are taken whether or not digits follow. -/
def takeExponent (r : Radix) : List UInt8 → Int × List UInt8
  | [] => (0, [])
  | b :: bs =>
      if b ∈ r.marks then
        let (e, _, rest) := exponentDigits bs
        (e, rest)
      else (0, b :: bs)

/-- A power of a natural number. -/
def powInt (n : Nat) (e : Int) : Rat :=
  ((n ^ e.toNat : Nat) : Rat) / ((n ^ (-e).toNat : Nat) : Rat)

/-- A number. -/
def scanNumber (r : Radix) (bs : List UInt8) : Option (Rat × List UInt8) := do
  let (n, places, bs) ← scanDigits r bs
  let (e, bs) := takeExponent r bs
  return ((n : Rat) * powInt r.base (-places) * powInt r.scale e, bs)

/-- A number behind "0x"; of a point without digits the "0" is left. -/
def scanHexadecimal (bs : List UInt8) : Option (Rat × List UInt8) :=
  match scanNumber .hexadecimal bs, bs with
  | some out, _ => some out
  | none, b :: rest => if b = ascii '.' then some (0, rest) else none
  | none, [] => none

/-! ## All of them -/

/-- A text without a sign. -/
def scanMagnitude (bs : List UInt8) : Option (FloatValue × List UInt8) :=
  match scanInfinity bs, dropWord ['n', 'a', 'n'] bs, bs with
  | some rest, _, _ => some (.infinite false, rest)
  | none, some rest, _ => some (.nan, rest)
  | none, none, b :: c :: bs =>
      if b = ascii '0' ∧ (c = ascii 'x' ∨ c = ascii 'X') then
        (scanHexadecimal bs).map fun (q, rest) => (.finite q, rest)
      else
        (scanNumber .decimal (b :: c :: bs)).map fun (q, rest) => (.finite q, rest)
  | none, none, bs => (scanNumber .decimal bs).map fun (q, rest) => (.finite q, rest)

/-- The number a text begins with, and what is behind it. -/
def scanFloat (bs : List UInt8) : Option (FloatValue × List UInt8) :=
  let (negative, bs) := scanSign bs
  (scanMagnitude bs).map fun (v, rest) => (if negative then v.neg else v, rest)

end KernelTestkit.Lib
