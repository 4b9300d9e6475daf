/-
KernelTestkit.Lib.Decimal — decimal notation in ASCII.

`decimal n` are the digits of a natural number, `decimalInt z` is what `%d`
prints of an integer. The last digit comes off the end (`decimal_concat`), and
with it the length and the value of the digits go by induction on the
number.
-/
import Mathlib.Algebra.Group.Int.Defs
import Mathlib.Algebra.Group.Nat.Defs
import Mathlib.Data.List.Basic

namespace KernelTestkit.Lib

/-- The decimal digits of a number. -/
def decimal (n : Nat) : List UInt8 := (Nat.toDigits 10 n).map fun c => UInt8.ofNat c.toNat

/-- An integer in decimal. -/
def decimalInt (z : Int) : List UInt8 :=
  if z < 0 then 45 :: decimal z.natAbs else decimal z.natAbs

/-- The number digits denote. -/
def decimalValue (bs : List UInt8) : Nat := bs.foldl (fun n b => n * 10 + (b.toNat - 48)) 0

theorem ofNat_digitChar {d : Nat} (h : d < 10) :
    UInt8.ofNat (Nat.digitChar d).toNat = UInt8.ofNat (48 + d) := by
  rw [Nat.toNat_digitChar_of_lt_ten h]

/-- One digit. -/
theorem decimal_digit {n : Nat} (h : n < 10) : decimal n = [UInt8.ofNat (48 + n)] := by
  rw [decimal, Nat.toDigits_of_lt_base h, List.map_singleton, ofNat_digitChar h]

/-- More than one: the last comes off. -/
theorem decimal_concat {n : Nat} (h : 10 ≤ n) :
    decimal n = decimal (n / 10) ++ [UInt8.ofNat (48 + n % 10)] := by
  have hlast : n % 10 < 10 := Nat.mod_lt n (by decide)
  rw [decimal, Nat.toDigits_eq_if (by decide), if_neg (Nat.not_lt.mpr h), List.map_append,
    List.map_singleton, ofNat_digitChar hlast, decimal]

theorem length_decimal_pos (n : Nat) : 0 < (decimal n).length := by
  rcases Nat.lt_or_ge n 10 with h | h
  · rw [decimal_digit h]
    exact Nat.one_pos
  · rw [decimal_concat h, List.length_append]
    exact Nat.succ_pos _

/-- A number has as many digits as the power of ten it is below. -/
theorem length_decimal_le_iff (n k : Nat) : (decimal n).length ≤ k + 1 ↔ n < 10 ^ (k + 1) := by
  induction k generalizing n with
  | zero =>
      rcases Nat.lt_or_ge n 10 with h | h
      · rw [decimal_digit h]
        simpa using h
      · have hpos := length_decimal_pos (n / 10)
        rw [decimal_concat h, List.length_append, List.length_singleton]
        omega
  | succ k ih =>
      have hpow : 10 ^ (k + 1 + 1) = 10 ^ (k + 1) * 10 := Nat.pow_succ 10 (k + 1)
      rcases Nat.lt_or_ge n 10 with h | h
      · have hone : 0 < 10 ^ (k + 1) := Nat.pow_pos (by decide)
        rw [decimal_digit h, List.length_singleton]
        omega
      · have hrest := ih (n / 10)
        rw [Nat.div_lt_iff_lt_mul (by decide), ← hpow] at hrest
        rw [decimal_concat h, List.length_append, List.length_singleton, ← hrest]
        omega

/-- The digits denote the number. -/
theorem decimalValue_decimal (n : Nat) : decimalValue (decimal n) = n := by
  induction n using Nat.strongRecOn with
  | ind n ih =>
      have hdigit : ∀ d, d < 10 → (UInt8.ofNat (48 + d)).toNat - 48 = d := by
        intro d hd
        rw [UInt8.toNat_ofNat']
        omega
      rcases Nat.lt_or_ge n 10 with h | h
      · rw [decimal_digit h, decimalValue, List.foldl_cons, List.foldl_nil, hdigit n h]
        omega
      · have hrest := ih (n / 10) (by omega)
        rw [decimalValue] at hrest
        rw [decimal_concat h, decimalValue, List.foldl_append, hrest, List.foldl_cons,
          List.foldl_nil, hdigit _ (Nat.mod_lt n (by decide))]
        omega

/-- They are digits. -/
theorem isDigit_decimal (n : Nat) : ∀ b ∈ decimal n, 48 ≤ b ∧ b ≤ 57 := by
  induction n using Nat.strongRecOn with
  | ind n ih =>
      have hdigit : ∀ d, d < 10 → 48 ≤ UInt8.ofNat (48 + d) ∧ UInt8.ofNat (48 + d) ≤ 57 := by
        intro d hd
        rw [UInt8.le_iff_toNat_le, UInt8.le_iff_toNat_le, UInt8.toNat_ofNat']
        have h48 : (48 : UInt8).toNat = 48 := rfl
        have h57 : (57 : UInt8).toNat = 57 := rfl
        omega
      intro b hb
      rcases Nat.lt_or_ge n 10 with h | h
      · rw [decimal_digit h, List.mem_singleton] at hb
        rw [hb]
        exact hdigit n h
      · rw [decimal_concat h, List.mem_append, List.mem_singleton] at hb
        rcases hb with hb | hb
        · exact ih (n / 10) (by omega) b hb
        · rw [hb]
          exact hdigit _ (Nat.mod_lt n (by decide))

end KernelTestkit.Lib
