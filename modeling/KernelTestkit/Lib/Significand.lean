/-
KernelTestkit.Lib.Significand — natural numbers with a bounded significand.

`Fits p n` says that `n` is `m * 2 ^ e` with `m` below `2 ^ p`: a floating
format with `p` bits of significand holds `n` exactly. `ulp p n` is the
distance of the neighbours of `n` in such a format. From `2 ^ p` on, `n`
fits exactly when its `ulp` divides it (`fits_iff_ulp_dvd`).
-/
import Mathlib.Algebra.Group.Nat.Defs

namespace KernelTestkit.Lib

variable {p n : Nat}

/-- `n` has a significand of at most `p` bits. -/
def Fits (p n : Nat) : Prop := ∃ m e, m < 2 ^ p ∧ n = m * 2 ^ e

/-- The unit in the last of `p` places of `n`. -/
def ulp (p n : Nat) : Nat := 2 ^ (n.log2 + 1 - p)

theorem ulp_pos (p n : Nat) : 0 < ulp p n := Nat.two_pow_pos _

theorem fits_of_lt (h : n < 2 ^ p) : Fits p n := ⟨n, 0, h, by simp⟩

/-- The significand of `n` is below `2 ^ p`. -/
theorem div_ulp_lt (p n : Nat) : n / ulp p n < 2 ^ p := by
  rw [Nat.div_lt_iff_lt_mul (ulp_pos p n), ulp, ← Nat.pow_add]
  have hle : n.log2 + 1 ≤ p + (n.log2 + 1 - p) := by omega
  exact Nat.lt_of_lt_of_le Nat.lt_log2_self (Nat.pow_le_pow_right (by decide) hle)

theorem fits_of_ulp_dvd (h : ulp p n ∣ n) : Fits p n :=
  ⟨n / ulp p n, n.log2 + 1 - p, div_ulp_lt p n, (Nat.div_mul_cancel h).symm⟩

/-- A number that needs all the places of its significand is a multiple of its
last one. -/
theorem ulp_dvd_of_fits (hn : n ≠ 0) (h : Fits p n) : ulp p n ∣ n := by
  obtain ⟨m, e, hm, rfl⟩ := h
  have hlt : m * 2 ^ e < 2 ^ (p + e) := by
    rw [Nat.pow_add]
    exact Nat.mul_lt_mul_of_pos_right hm (Nat.two_pow_pos e)
  have hlog : (m * 2 ^ e).log2 < p + e := (Nat.log2_lt hn).mpr hlt
  have hexp : (m * 2 ^ e).log2 + 1 - p ≤ e := by omega
  exact Nat.dvd_trans (Nat.pow_dvd_pow 2 hexp) (Nat.dvd_mul_left _ _)

theorem fits_iff_ulp_dvd (hn : n ≠ 0) : Fits p n ↔ ulp p n ∣ n :=
  ⟨ulp_dvd_of_fits hn, fits_of_ulp_dvd⟩

end KernelTestkit.Lib
