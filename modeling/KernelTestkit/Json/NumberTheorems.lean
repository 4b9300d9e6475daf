/-
KernelTestkit.Json.NumberTheorems — a number survives its text.

15 digits are tried first and checked by scanning them; otherwise 17 digits
are printed and not checked. They need no check: 10^16 is more than 2^53
(`FloatFormat.nearest_scientific`).

* `strtod_numberBuffer` — the text of a finite number is scanned to the same
  number, sign of zero included.
* `length_numberBuffer_le` — the text fits into `number_buffer`, and into the
  buffer `parse_number` copies it to.
-/
import KernelTestkit.Json.Number

namespace KernelTestkit.Json

open KernelTestkit.Lib

variable {s : Bool} {m : Magnitude}

namespace Magnitude

theorem value_nonneg (m : Magnitude) : 0 ≤ m.value := m.mem.nonneg

theorem ext_value {m m' : Magnitude} (h : m.value = m'.value) : m = m' := by
  cases m
  cases m'
  cases h
  rfl

theorem two_pow_le {k : ℕ} (h : k ≤ 3 * 999) : (2 : ℚ) ^ k ≤ 10 ^ 999 :=
  calc (2 : ℚ) ^ k ≤ 2 ^ (3 * 999) := pow_le_pow_right₀ (by norm_num) h
    _ = (2 ^ 3) ^ 999 := pow_mul 2 3 999
    _ ≤ 10 ^ 999 := pow_le_pow_left₀ (by norm_num) (by norm_num) 999

/-- The decimal exponent of a number has three digits. -/
theorem natAbs_exponent_lt (m : Magnitude) (hpos : 0 < m.value) (P : Nat) :
    (scientific 10 P m.value).2.natAbs < 1000 := by
  have hlog : -999 ≤ Int.log 10 m.value ∧ Int.log 10 m.value < 999 := by
    constructor
    · rw [← Int.zpow_le_iff_le_log (by decide) hpos]
      obtain ⟨n, e, _, he, hvalue⟩ := m.mem
      have hone : (1 : ℚ) ≤ n := by
        have hne : n ≠ 0 := by
          rintro rfl
          rw [hvalue] at hpos
          simp at hpos
        exact_mod_cast Nat.one_le_iff_ne_zero.mpr hne
      have hleast : (2 : ℚ) ^ (-1074 : ℤ) ≤ (2 : ℚ) ^ e := zpow_le_zpow_right₀ (by norm_num) he
      have hsmall : ((10 : ℕ) : ℚ) ^ (-999 : ℤ) ≤ (2 : ℚ) ^ (-1074 : ℤ) := by
        rw [zpow_neg, zpow_neg, zpow_ofNat, zpow_ofNat]
        exact inv_anti₀ (by positivity) (two_pow_le (by decide))
      have hvalue' : m.value = n * (2 : ℚ) ^ e := hvalue
      nlinarith [zpow_pos (show (0 : ℚ) < 2 by norm_num) e]
    · rw [← Int.lt_zpow_iff_log_lt (by decide) hpos]
      have hlarge : (2 : ℚ) ^ 1024 ≤ ((10 : ℕ) : ℚ) ^ (999 : ℤ) := two_pow_le (by decide)
      exact m.lt_max.trans_le hlarge
  unfold scientific
  dsimp only
  split
  · dsimp only
    omega
  · dsimp only
    omega

end Magnitude

/-! ## The text -/

theorem Double.round_of_nearest {q : ℚ} (h : binary64.nearest |q| = m.value) :
    Double.round s q = .finite s m := by
  have hlt : binary64.nearest |q| < 2 ^ 1024 := h ▸ m.lt_max
  rw [Double.round, dif_pos hlt]
  exact congrArg (Double.finite s) (Magnitude.ext_value h)

theorem length_sprintfG_le {P : Nat} (hP : 0 < P) : (sprintfG P s m).length ≤ P + 7 := by
  have hle : (formatGeneral P m.value).length ≤ P + 6 := by
    rcases m.value_nonneg.eq_or_lt with hzero | hpos
    · rw [← hzero, formatGeneral, if_pos rfl, List.length_singleton]
      omega
    · exact length_formatGeneral_le hP hpos.le (m.natAbs_exponent_lt hpos P)
  unfold sprintfG signedText
  split
  · rw [List.length_cons]
    omega
  · omega

/-- **The room a number takes.** -/
theorem length_numberBuffer_le (d : Double) : (numberBuffer d).length ≤ 24 := by
  cases d with
  | infinite s => simp [numberBuffer]
  | finite s m =>
      have h15 := length_sprintfG_le (s := s) (m := m) (P := 15) (by decide)
      have h17 := length_sprintfG_le (s := s) (m := m) (P := 17) (by decide)
      simp only [numberBuffer]
      split
      · omega
      · omega

/-- `number_buffer` is never too small. -/
theorem printNumber_eq (d : Double) : printNumber d = some (numberBuffer d) := by
  have hle := length_numberBuffer_le d
  exact if_neg (by omega)

/-- A number, scanned with its sign. -/
theorem strtod_signedText {t : List UInt8} {q : ℚ} (h : NumberText t q) :
    strtod (signedText s t) = (Double.round s q, (signedText s t).length) := by
  have hends : NumberEnds [] := fun b hb => by cases hb
  have hscan := scanDecimal_of h hends
  rw [List.append_nil] at hscan
  obtain ⟨b, bs, hcons, hdigit⟩ := head_of h
  have hsign : scanSign (signedText s t) = (s, t) := by
    cases s with
    | true => rfl
    | false =>
        have hminus : b ≠ ascii '-' := by
          rintro rfl
          exact absurd hdigit (by decide)
        have hplus : b ≠ ascii '+' := by
          rintro rfl
          exact absurd hdigit (by decide)
        rw [signedText, if_neg Bool.false_ne_true, hcons, scanSign, if_neg hminus, if_neg hplus]
  rw [strtod, hsign]
  simp only [hscan, List.length_nil, Nat.sub_zero]

/-- The number with `P` digits, scanned. -/
theorem strtod_sprintfG {P : Nat} (hP : 0 < P) :
    strtod (sprintfG P s m) = (Double.round s (if m.value = 0 then 0 else
      scientificValue 10 P (scientific 10 P m.value)), (sprintfG P s m).length) :=
  strtod_signedText (numberText_formatGeneral hP m.value_nonneg)

/-- **Seventeen digits** denote one number only. -/
theorem strtod_seventeen : (strtod (sprintfG 17 s m)).1 = .finite s m := by
  rw [strtod_sprintfG (by decide)]
  apply Double.round_of_nearest
  split
  · rename_i hzero
    rw [abs_zero, hzero]
    exact FloatFormat.nearest_of_mem (hzero ▸ m.mem)
  · rename_i hne
    have hpos : 0 < m.value := lt_of_le_of_ne m.value_nonneg (Ne.symm hne)
    have hmore : binary64.radix ^ binary64.digits < 10 ^ (17 - 1) := by decide
    have hnonneg : 0 ≤ scientificValue 10 17 (scientific 10 17 m.value) := by
      unfold scientificValue
      positivity
    rw [abs_of_nonneg hnonneg]
    exact FloatFormat.nearest_scientific (by decide) (by decide) hmore m.mem hpos

/-- **A number survives its text**: scanning what was printed gives the number
back. -/
theorem strtod_numberBuffer (s : Bool) (m : Magnitude) :
    strtod (numberBuffer (.finite s m)) = (.finite s m, (numberBuffer (.finite s m)).length) := by
  have hlength : ∀ {P}, 0 < P → (strtod (sprintfG P s m)).2 = (sprintfG P s m).length := by
    intro P hP
    rw [strtod_sprintfG hP]
  simp only [numberBuffer]
  split
  · -- the check of 15 digits
    rename_i hcheck
    refine Prod.ext ?_ (hlength (by decide))
    rw [strtod_sprintfG (by decide)] at hcheck ⊢
    generalize (if m.value = 0 then 0 else scientificValue 10 15 (scientific 10 15 m.value))
      = q at hcheck ⊢
    unfold Double.round at hcheck ⊢
    split at hcheck
    · rename_i hlt
      have hvalue : binary64.nearest |q| = m.value := by
        cases s
        · simpa [Double.equal, Double.signed] using hcheck
        · simpa [Double.equal, Double.signed] using hcheck
      rw [dif_pos hlt]
      exact congrArg (Double.finite s) (Magnitude.ext_value hvalue)
    · exact absurd hcheck (by simp [Double.equal])
  · exact Prod.ext strtod_seventeen (hlength (by decide))

end KernelTestkit.Json
