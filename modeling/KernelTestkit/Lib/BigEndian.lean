/-
KernelTestkit.Lib.BigEndian — fixed-width big-endian numerals over bytes.

`beBytes w n` writes the low `w` base-256 digits of `n`, most significant
first; `beNat` reads a byte list back. Reading undoes writing up to the
width (`beNat_beBytes`), which is what a length-prefixed format needs of
its byte order.
-/
import Mathlib.Algebra.Group.Nat.Defs
import Mathlib.Data.List.Basic

namespace KernelTestkit.Lib

/-- The low `w` base-256 digits of `n`, most significant first. -/
def beBytes : Nat → Nat → List UInt8
  | 0, _ => []
  | w + 1, n => beBytes w (n / 256) ++ [UInt8.ofNat n]

/-- The number a byte list denotes, most significant byte first. -/
def beNat (bs : List UInt8) : Nat :=
  bs.foldl (fun acc b => acc * 256 + b.toNat) 0

@[simp] theorem length_beBytes (w n : Nat) : (beBytes w n).length = w := by
  induction w generalizing n with
  | zero => rfl
  | succ w ih => simp [beBytes, ih]

@[simp] theorem beNat_nil : beNat [] = 0 := rfl

theorem beNat_concat (bs : List UInt8) (b : UInt8) :
    beNat (bs ++ [b]) = beNat bs * 256 + b.toNat := by
  simp [beNat]

/-- Reading what was written gives the number back, up to the width. -/
theorem beNat_beBytes (w n : Nat) : beNat (beBytes w n) = n % 256 ^ w := by
  induction w generalizing n with
  | zero => simp [beBytes, Nat.mod_one]
  | succ w ih =>
      have hsplit : n % 256 ^ (w + 1) = n / 256 % 256 ^ w * 256 + n % 256 := by
        rw [Nat.pow_succ, Nat.mul_comm (256 ^ w), Nat.mod_mul]
        omega
      rw [beBytes, beNat_concat, ih, hsplit]
      simp

end KernelTestkit.Lib
