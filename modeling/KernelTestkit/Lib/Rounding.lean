/-
KernelTestkit.Lib.Rounding — floating formats, and numbers in another radix.

A format has a radix, a number of digits and a least exponent; its numbers
are the multiples of a power of the radix by a significand of that many
digits. `nearest` rounds to the nearest of them, ties to even.

* `nearest_of_mem`, `mem_nearest` — rounding goes to the numbers of the
  format and leaves them alone.
* `nearest_eq_of_close` — what is rounded to a given number.
* `nearest_scientific` — a number of the format that is written with enough
  digits in another radix is rounded back to itself.
-/
import Mathlib.Algebra.Order.Field.Power
import Mathlib.Data.Int.Log
import Mathlib.Data.Rat.Floor
import Mathlib.Tactic.FieldSimp
import Mathlib.Tactic.Linarith
import Mathlib.Tactic.Positivity
import Mathlib.Tactic.Ring

namespace KernelTestkit.Lib

/-! ## Integers -/

/-- The nearest integer; of two the even one. -/
def roundEven (q : ℚ) : ℤ :=
  if q - ⌊q⌋ < 1 / 2 ∨ q - ⌊q⌋ = 1 / 2 ∧ ⌊q⌋ % 2 = 0 then ⌊q⌋ else ⌊q⌋ + 1

theorem abs_sub_roundEven_le (q : ℚ) : |q - roundEven q| ≤ 1 / 2 := by
  have hfloor := Int.floor_le q
  have hlt := Int.lt_floor_add_one q
  unfold roundEven
  split
  · rename_i h
    have hle : q - ⌊q⌋ ≤ 1 / 2 := by
      rcases h with h | ⟨h, _⟩
      · exact h.le
      · exact h.le
    rw [abs_of_nonneg (by linarith)]
    exact hle
  · rename_i h
    have hge : 1 / 2 ≤ q - ⌊q⌋ := not_lt.mp fun hl => h (Or.inl hl)
    push_cast
    rw [abs_of_nonpos (by linarith)]
    linarith

/-- An integer that is nearer than one half. -/
theorem roundEven_eq {q : ℚ} {n : ℤ} (h : |q - n| < 1 / 2) : roundEven q = n := by
  have hround := abs_sub_roundEven_le q
  have hdist : |((roundEven q - n : ℤ) : ℚ)| < 1 := by
    push_cast
    calc |(roundEven q : ℚ) - n| = |(q - n) - (q - roundEven q)| := by ring_nf
      _ ≤ |q - n| + |q - roundEven q| := abs_sub _ _
      _ < 1 := by linarith
  have hzero : roundEven q - n = 0 := Int.abs_lt_one_iff.mp (by exact_mod_cast hdist)
  omega

theorem roundEven_intCast (n : ℤ) : roundEven (n : ℚ) = n := by
  apply roundEven_eq
  simp

theorem roundEven_nonneg {q : ℚ} (h : 0 ≤ q) : 0 ≤ roundEven q := by
  have hfloor := Int.floor_nonneg.mpr h
  unfold roundEven
  split <;> omega

/-- Rounding does not pass an integer. -/
theorem roundEven_le {q : ℚ} {n : ℤ} (h : q ≤ n) : roundEven q ≤ n := by
  have hround := abs_le.mp (abs_sub_roundEven_le q)
  have hlt : (roundEven q : ℚ) < n + 1 := by linarith [hround.1]
  have hlt' : roundEven q < n + 1 := by exact_mod_cast hlt
  omega

theorem le_roundEven {q : ℚ} {n : ℤ} (h : n ≤ q) : n ≤ roundEven q := by
  have hround := abs_le.mp (abs_sub_roundEven_le q)
  have hlt : (n : ℚ) - 1 < roundEven q := by linarith [hround.2]
  have hlt' : n - 1 < roundEven q := by exact_mod_cast hlt
  omega

/-! ## Formats -/

structure FloatFormat where
  radix : ℕ
  digits : ℕ
  /-- the exponent of the smallest number -/
  least : ℤ
  one_lt_radix : 1 < radix
  digits_pos : 0 < digits

namespace FloatFormat

variable (F : FloatFormat)

/-- The exponent of the last digit of `x`. -/
def lastExponent (x : ℚ) : ℤ := max (Int.log F.radix x - (F.digits - 1)) F.least

/-- The distance of the numbers of the format around `x`. -/
def spacing (x : ℚ) : ℚ := (F.radix : ℚ) ^ F.lastExponent x

/-- The nearest number of the format. -/
def nearest (x : ℚ) : ℚ := roundEven (x / F.spacing x) * F.spacing x

/-- `y` is a number of the format. -/
def Mem (y : ℚ) : Prop :=
  ∃ (m : ℕ) (e : ℤ), m < F.radix ^ F.digits ∧ F.least ≤ e ∧ y = m * (F.radix : ℚ) ^ e

variable {F} {x y : ℚ}

theorem radix_pos : (0 : ℚ) < F.radix := by
  exact_mod_cast Nat.zero_lt_of_lt F.one_lt_radix

theorem one_lt_radix_cast : (1 : ℚ) < F.radix := by
  exact_mod_cast F.one_lt_radix

theorem spacing_pos (x : ℚ) : 0 < F.spacing x := zpow_pos radix_pos _

theorem Mem.nonneg (h : F.Mem y) : 0 ≤ y := by
  obtain ⟨m, e, _, _, rfl⟩ := h
  have := radix_pos (F := F)
  positivity

/-- A power of the radix is a multiple of the smaller ones. -/
theorem zpow_eq_natCast_mul {i j : ℤ} (h : j ≤ i) :
    (F.radix : ℚ) ^ i = ((F.radix ^ (i - j).toNat : ℕ) : ℚ) * (F.radix : ℚ) ^ j := by
  rw [Nat.cast_pow, ← zpow_natCast, ← zpow_add₀ radix_pos.ne']
  congr 1
  omega

theorem log_lt_of_lt {k : ℤ} (hy : 0 < y) (h : y < (F.radix : ℚ) ^ k) : Int.log F.radix y < k :=
  (Int.lt_zpow_iff_log_lt F.one_lt_radix hy).mp h

theorem le_log_of_le {k : ℤ} (hy : 0 < y) (h : (F.radix : ℚ) ^ k ≤ y) : k ≤ Int.log F.radix y :=
  (Int.zpow_le_iff_le_log F.one_lt_radix hy).mp h

/-- A positive number of the format: its last exponent, and what it is a
multiple of. -/
theorem Mem.multiple (h : F.Mem y) (hy : 0 < y) :
    F.lastExponent y ≤ Int.log F.radix y ∧ ∃ n : ℕ, y = n * F.spacing y := by
  obtain ⟨m, e, hm, he, rfl⟩ := h
  have hone : 1 ≤ m := by
    by_contra hzero
    obtain rfl : m = 0 := by omega
    simp at hy
  have hpow : (0 : ℚ) < (F.radix : ℚ) ^ e := zpow_pos radix_pos e
  have hlow : (F.radix : ℚ) ^ e ≤ m * (F.radix : ℚ) ^ e :=
    le_mul_of_one_le_left hpow.le (by exact_mod_cast hone)
  have hhigh : m * (F.radix : ℚ) ^ e < (F.radix : ℚ) ^ (F.digits + e) := by
    rw [zpow_add₀ radix_pos.ne', zpow_natCast]
    exact mul_lt_mul_of_pos_right (by exact_mod_cast hm) hpow
  have hle := le_log_of_le hy hlow
  have hlt := log_lt_of_lt hy hhigh
  have hlast : F.lastExponent (m * (F.radix : ℚ) ^ e) ≤ e := by
    unfold lastExponent
    omega
  have hdigits := F.digits_pos
  refine ⟨by unfold lastExponent; omega,
    m * F.radix ^ (e - F.lastExponent (m * (F.radix : ℚ) ^ e)).toNat, ?_⟩
  rw [Nat.cast_mul, mul_assoc, spacing, ← zpow_eq_natCast_mul hlast]

/-- **Numbers of the format** stay what they are. -/
theorem nearest_of_mem (h : F.Mem y) : F.nearest y = y := by
  rcases h.nonneg.eq_or_lt with rfl | hy
  · simp [nearest, roundEven]
  · obtain ⟨_, n, hn⟩ := h.multiple hy
    have hdiv : y / F.spacing y = ((n : ℤ) : ℚ) := by
      rw [div_eq_iff (spacing_pos y).ne']
      exact_mod_cast hn
    rw [nearest, hdiv, roundEven_intCast]
    exact_mod_cast hn.symm

/-- **Rounding** goes to the numbers of the format. -/
theorem mem_nearest (hx : 0 ≤ x) : F.Mem (F.nearest x) := by
  have hlt := Int.lt_zpow_succ_log_self (R := ℚ) F.one_lt_radix x
  have hspace := spacing_pos (F := F) x
  have hexp : Int.log F.radix x + 1 ≤ F.digits + F.lastExponent x := by
    unfold lastExponent
    omega
  have hbound : x / F.spacing x ≤ ((F.radix ^ F.digits : ℕ) : ℤ) := by
    rw [div_le_iff₀ hspace, spacing]
    push_cast
    rw [← zpow_natCast, ← zpow_add₀ radix_pos.ne']
    exact hlt.le.trans (zpow_le_zpow_right₀ one_lt_radix_cast.le hexp)
  have hle : roundEven (x / F.spacing x) ≤ (F.radix ^ F.digits : ℕ) := roundEven_le hbound
  obtain ⟨n, hn⟩ := Int.eq_ofNat_of_zero_le (roundEven_nonneg (div_nonneg hx hspace.le))
  have hnat : n ≤ F.radix ^ F.digits := by
    rw [hn] at hle
    exact_mod_cast hle
  have hvalue : F.nearest x = n * (F.radix : ℚ) ^ F.lastExponent x := by
    rw [nearest, hn]
    rfl
  have hleast : F.least ≤ F.lastExponent x := le_max_right _ _
  rcases Nat.lt_or_eq_of_le hnat with hlt' | heq
  · exact ⟨n, F.lastExponent x, hlt', hleast, hvalue⟩
  · -- a carry: one more place in front, and a zero behind
    have hdigits := F.digits_pos
    refine ⟨F.radix ^ (F.digits - 1), F.lastExponent x + 1,
      Nat.pow_lt_pow_right F.one_lt_radix (by omega), by omega, ?_⟩
    have hpow : F.radix ^ F.digits = F.radix ^ (F.digits - 1) * F.radix := by
      rw [← Nat.pow_succ]
      congr 1
      omega
    rw [hvalue, heq, hpow, zpow_add_one₀ radix_pos.ne']
    push_cast
    ring

/-- A multiple of the spacing that is nearer than half of it. -/
theorem nearest_eq_of_multiple {n : ℤ} (hn : y = n * F.spacing x)
    (h : |x - y| < F.spacing x / 2) : F.nearest x = y := by
  have hspace := spacing_pos (F := F) x
  have hdist : |x / F.spacing x - n| < 1 / 2 := by
    have hdiv : x / F.spacing x - n = (x - y) / F.spacing x := by
      rw [hn]
      field_simp
    rw [hdiv, abs_div, abs_of_pos hspace, div_lt_iff₀ hspace]
    linarith
  rw [nearest, roundEven_eq hdist, hn]

/-- Two multiples of the same spacing. -/
theorem add_le_of_multiple {n : ℕ} {k : ℤ} {u : ℚ} {m : ℕ} (hu : 0 < u) (hn : y = n * u)
    (hm : (F.radix : ℚ) ^ k = m * u) : (y < (F.radix : ℚ) ^ k → y + u ≤ (F.radix : ℚ) ^ k) ∧
      ((F.radix : ℚ) ^ k < y → (F.radix : ℚ) ^ k + u ≤ y) := by
  constructor
  · intro hlt
    rw [hn, hm, mul_lt_mul_iff_of_pos_right hu] at hlt
    have hle : (n : ℚ) + 1 ≤ m := by exact_mod_cast hlt
    rw [hn, hm]
    nlinarith
  · intro hlt
    rw [hn, hm, mul_lt_mul_iff_of_pos_right hu] at hlt
    have hle : (m : ℚ) + 1 ≤ n := by exact_mod_cast hlt
    rw [hn, hm]
    nlinarith

theorem log_eq_of_between {k : ℤ} (hx : 0 < x) (hlow : (F.radix : ℚ) ^ k ≤ x)
    (hhigh : x < (F.radix : ℚ) ^ (k + 1)) : Int.log F.radix x = k := by
  have hle := le_log_of_le hx hlow
  have hlt := log_lt_of_lt hx hhigh
  omega

/-- **What is rounded to `y`**: everything nearer than half the spacing. Below a
power of the radix the numbers are denser, by one digit at most. -/
theorem nearest_eq_of_close (hy : F.Mem y) (hpos : 0 < y) (hx : |x - y| < F.spacing y / 2)
    (hpow : y = (F.radix : ℚ) ^ Int.log F.radix y → |x - y| < F.spacing y / (2 * F.radix)) :
    F.nearest x = y := by
  obtain ⟨hlast, n, hn⟩ := hy.multiple hpos
  have hspace := spacing_pos (F := F) y
  have hlow := Int.zpow_log_le_self (R := ℚ) F.one_lt_radix hpos
  have hhigh := Int.lt_zpow_succ_log_self (R := ℚ) F.one_lt_radix y
  have hclose := abs_lt.mp hx
  have hmultiple : ∀ k, F.lastExponent y ≤ k →
      (F.radix : ℚ) ^ k = ((F.radix ^ (k - F.lastExponent y).toNat : ℕ) : ℚ) * F.spacing y :=
    fun k hk => zpow_eq_natCast_mul hk
  generalize hk : Int.log F.radix y = k at *
  have habove : x < (F.radix : ℚ) ^ (k + 1) := by
    have hgap := (add_le_of_multiple (F := F) hspace hn (hmultiple (k + 1) (by omega))).1 hhigh
    linarith [hclose.2]
  by_cases hbelow : (F.radix : ℚ) ^ k ≤ x
  · -- the digits of `x` end where those of `y` do
    have hxpos : 0 < x := (zpow_pos radix_pos k).trans_le hbelow
    have hsame : F.spacing x = F.spacing y := by
      unfold spacing lastExponent
      rw [log_eq_of_between hxpos hbelow habove, hk]
    exact nearest_eq_of_multiple (n := n) (by rw [hsame]; exact_mod_cast hn) (by rwa [hsame])
  · -- `y` is a power of the radix, and `x` is below it
    have hlt := not_le.mp hbelow
    have hyk : y = (F.radix : ℚ) ^ k := by
      by_contra hne
      have hgap := (add_le_of_multiple (F := F) hspace hn (hmultiple k hlast)).2
        (lt_of_le_of_ne hlow (Ne.symm hne))
      linarith [hclose.1]
    have hdense := hpow hyk
    have hradix := one_lt_radix_cast (F := F)
    have htwo : (2 : ℚ) ≤ F.radix := by exact_mod_cast F.one_lt_radix
    have hbk : (0 : ℚ) < (F.radix : ℚ) ^ k := zpow_pos radix_pos k
    have hprev : (F.radix : ℚ) ^ (k - 1) * F.radix = (F.radix : ℚ) ^ k := by
      rw [← zpow_add_one₀ radix_pos.ne', sub_add_cancel]
    have hsmall : F.spacing y ≤ (F.radix : ℚ) ^ k :=
      zpow_le_zpow_right₀ hradix.le hlast
    have hdense' : y - x < F.spacing y / (2 * F.radix) :=
      (le_abs_self (y - x)).trans_lt (by rwa [abs_sub_comm])
    have hprevx : (F.radix : ℚ) ^ (k - 1) ≤ x := by
      have hhalf : F.spacing y / (2 * F.radix) ≤ (F.radix : ℚ) ^ (k - 1) / 2 := by
        rw [div_le_iff₀ (by positivity)]
        nlinarith
      nlinarith
    have hxpos : 0 < x := (zpow_pos radix_pos (k - 1)).trans_le hprevx
    have hlog : Int.log F.radix x = k - 1 :=
      log_eq_of_between hxpos hprevx (by rwa [sub_add_cancel])
    have hexp : F.lastExponent x ≤ F.lastExponent y ∧ F.lastExponent y ≤ F.lastExponent x + 1 := by
      unfold lastExponent
      rw [hlog, hk]
      omega
    have hfine : F.spacing y ≤ F.radix * F.spacing x := by
      rw [spacing, spacing, mul_comm, ← zpow_add_one₀ radix_pos.ne']
      exact zpow_le_zpow_right₀ hradix.le hexp.2
    refine nearest_eq_of_multiple
      (n := (F.radix ^ (k - F.lastExponent x).toNat : ℕ)) ?_ (hdense.trans_le ?_)
    · rw [hyk, spacing]
      exact_mod_cast zpow_eq_natCast_mul (F := F) (by omega)
    · rw [div_le_div_iff₀ (by positivity) (by norm_num)]
      nlinarith

end FloatFormat

/-! ## Another radix -/

/-- The leading `digits` digits of a number in a radix, rounded to nearest: the
digits, and the exponent of the first of them. -/
def scientific (radix digits : ℕ) (x : ℚ) : ℕ × ℤ :=
  let k := Int.log radix x
  let d := (roundEven (x / (radix : ℚ) ^ (k - (digits - 1)))).toNat
  if d = radix ^ digits then (radix ^ (digits - 1), k + 1) else (d, k)

/-- The number these digits denote. -/
def scientificValue (radix digits : ℕ) (s : ℕ × ℤ) : ℚ :=
  s.1 * (radix : ℚ) ^ (s.2 - (digits - 1))

variable {c P : ℕ}

/-- **The digits**: as many as were asked for, and half a unit in the last place
away from the number. -/
theorem scientific_spec {x : ℚ} (hc : 1 < c) (hP : 0 < P) (hx : 0 < x) :
    (c ^ (P - 1) ≤ (scientific c P x).1 ∧ (scientific c P x).1 < c ^ P) ∧
      |scientificValue c P (scientific c P x) - x|
        ≤ (c : ℚ) ^ (Int.log c x - (P - 1)) / 2 := by
  have hc0 : (0 : ℚ) < c := by exact_mod_cast Nat.zero_lt_of_lt hc
  have hlow := Int.zpow_log_le_self (R := ℚ) hc hx
  have hhigh := Int.lt_zpow_succ_log_self (R := ℚ) hc x
  unfold scientific scientificValue
  dsimp only
  generalize Int.log c x = k at *
  have hu : (0 : ℚ) < (c : ℚ) ^ (k - (P - 1)) := zpow_pos hc0 _
  have hround := abs_sub_roundEven_le (x / (c : ℚ) ^ (k - (P - 1)))
  have hfirst : ((c ^ (P - 1) : ℕ) : ℤ) ≤ x / (c : ℚ) ^ (k - (P - 1)) := by
    rw [le_div_iff₀ hu]
    push_cast
    rw [← zpow_natCast, ← zpow_add₀ hc0.ne']
    refine le_of_eq_of_le ?_ hlow
    congr 1
    omega
  have hlast : x / (c : ℚ) ^ (k - (P - 1)) ≤ ((c ^ P : ℕ) : ℤ) := by
    rw [div_le_iff₀ hu]
    push_cast
    rw [← zpow_natCast, ← zpow_add₀ hc0.ne']
    refine hhigh.le.trans (le_of_eq ?_)
    congr 1
    omega
  have hge := le_roundEven hfirst
  have hle := roundEven_le hlast
  obtain ⟨d, hd⟩ := Int.eq_ofNat_of_zero_le ((Int.natCast_nonneg _).trans hge)
  rw [hd] at hround hge hle ⊢
  have hdist : |d * (c : ℚ) ^ (k - (P - 1)) - x| ≤ (c : ℚ) ^ (k - (P - 1)) / 2 := by
    have hscaled : d * (c : ℚ) ^ (k - (P - 1)) - x
        = -((x / (c : ℚ) ^ (k - (P - 1)) - d) * (c : ℚ) ^ (k - (P - 1))) := by
      field_simp
      ring
    rw [hscaled, abs_neg, abs_mul, abs_of_pos hu]
    have := mul_le_mul_of_nonneg_right hround hu.le
    push_cast at this
    linarith
  have hge' : c ^ (P - 1) ≤ d := by exact_mod_cast hge
  have hle' : d ≤ c ^ P := by exact_mod_cast hle
  simp only [Int.toNat_natCast]
  split
  · -- a carry: the first digit moves up
    rename_i heq
    refine ⟨⟨le_rfl, Nat.pow_lt_pow_right hc (by omega)⟩, ?_⟩
    have hsame : ((c ^ (P - 1) : ℕ) : ℚ) * (c : ℚ) ^ (k + 1 - (P - 1))
        = d * (c : ℚ) ^ (k - (P - 1)) := by
      rw [heq]
      push_cast
      rw [← zpow_natCast, ← zpow_natCast, ← zpow_add₀ hc0.ne', ← zpow_add₀ hc0.ne']
      congr 1
      omega
    rwa [hsame]
  · rename_i hne
    exact ⟨⟨hge', by omega⟩, hdist⟩

/-- **Enough digits**: when `P` digits in radix `c` are more than the digits of
the format can tell apart, a number of the format that was written with `P`
digits is rounded back to itself. -/
theorem FloatFormat.nearest_scientific {F : FloatFormat} {y : ℚ} (hc : 1 < c) (hP : 0 < P)
    (hdigits : F.radix ^ F.digits < c ^ (P - 1)) (hy : F.Mem y) (hpos : 0 < y) :
    F.nearest (scientificValue c P (scientific c P y)) = y := by
  have hc0 : (0 : ℚ) < c := by exact_mod_cast Nat.zero_lt_of_lt hc
  have hcP : (0 : ℚ) < (c : ℚ) ^ (P - 1) := pow_pos hc0 _
  have hspace := spacing_pos (F := F) y
  have hdist := (scientific_spec hc hP hpos).2
  -- half a unit of the last digit, measured by the number
  have hunit : (c : ℚ) ^ (Int.log c y - (P - 1)) ≤ y / (c : ℚ) ^ (P - 1) := by
    rw [le_div_iff₀ hcP, ← zpow_natCast, ← zpow_add₀ hc0.ne']
    refine le_of_eq_of_le ?_ (Int.zpow_log_le_self (R := ℚ) hc hpos)
    congr 1
    omega
  have hclose : |scientificValue c P (scientific c P y) - y| ≤ y / (c : ℚ) ^ (P - 1) / 2 := by
    linarith
  -- and the number, measured by its spacing
  have hpow : ∀ d : ℕ, Int.log F.radix y + 1 ≤ d + F.lastExponent y →
      y < (F.radix : ℚ) ^ d * F.spacing y := by
    intro d hd
    refine (Int.lt_zpow_succ_log_self (R := ℚ) F.one_lt_radix y).trans_le ?_
    rw [spacing, ← zpow_natCast, ← zpow_add₀ radix_pos.ne']
    exact zpow_le_zpow_right₀ one_lt_radix_cast.le hd
  have hlast : Int.log F.radix y + 1 ≤ F.digits + F.lastExponent y := by
    unfold lastExponent
    omega
  have hmore : (F.radix : ℚ) ^ F.digits < (c : ℚ) ^ (P - 1) := by exact_mod_cast hdigits
  refine nearest_eq_of_close hy hpos (hclose.trans_lt ?_) (fun hk => hclose.trans_lt ?_)
  · have hy' := hpow F.digits hlast
    rw [div_lt_div_iff_of_pos_right (by norm_num), div_lt_iff₀ hcP]
    nlinarith
  · -- a power of the radix has one digit less to tell apart
    have hr := radix_pos (F := F)
    have hyd : y * F.radix ≤ (F.radix : ℚ) ^ F.digits * F.spacing y := by
      have hexp : Int.log F.radix y + 1 ≤ F.digits + F.lastExponent y := hlast
      rw [spacing, ← zpow_natCast, ← zpow_add₀ hr.ne']
      nth_rewrite 1 [hk]
      rw [← zpow_add_one₀ hr.ne']
      exact zpow_le_zpow_right₀ one_lt_radix_cast.le hexp
    rw [div_div, div_lt_div_iff₀ (by positivity) (by positivity)]
    nlinarith

end KernelTestkit.Lib
