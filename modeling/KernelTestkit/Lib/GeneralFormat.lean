/-
KernelTestkit.Lib.GeneralFormat — the conversion `%g` and its inverse.

`formatGeneral P x` is what `%.Pg` prints of a number that is not negative:
`P` significant digits without the zeros at their end, with an exponent when
it is below -4 or not below `P`. `scanDecimal` reads the longest beginning
of a text that is a decimal number, as `strtod` does; an "e" without digits
behind it is not a part of the number.

* `scanDecimal_of` — of the text of a number (`NumberText`, the numbers of
  JSON) all is read, whatever follows that is not a part of a number.
* `numberText_formatGeneral` — what is printed is the text of the number with
  `P` digits.
* `length_formatGeneral_le` — how much room the text takes.
-/
import KernelTestkit.Lib.Decimal
import KernelTestkit.Lib.FloatText
import KernelTestkit.Lib.Rounding
import Mathlib.Data.List.DropRight

namespace KernelTestkit.Lib

/-! ## Printing -/

/-- Digits with a point among them; without digits behind it there is none. -/
def pointed (whole fraction : List UInt8) : List UInt8 :=
  if fraction = [] then whole else whole ++ ascii '.' :: fraction

/-- Digits without the zeros at their end. -/
def trimZeros (ds : List UInt8) : List UInt8 := ds.rdropWhile (· = ascii '0')

/-- An exponent has two digits at least. -/
def exponentText (e : Int) : List UInt8 :=
  ascii 'e' :: ascii (if e < 0 then '-' else '+') ::
    (if e.natAbs < 10 then ascii '0' :: decimal e.natAbs else decimal e.natAbs)

/-- `%.Pg` of significant digits and the exponent of the first. -/
def generalText (P : Nat) (ds : List UInt8) (e : Int) : List UInt8 :=
  if e < -4 ∨ P ≤ e then
    pointed (ds.take 1) (trimZeros (ds.drop 1)) ++ exponentText e
  else if 0 ≤ e then
    pointed (ds.take (e.toNat + 1)) (trimZeros (ds.drop (e.toNat + 1)))
  else
    pointed [ascii '0'] (List.replicate (-e - 1).toNat (ascii '0') ++ trimZeros ds)

/-- `%.Pg` of a number that is not negative. -/
def formatGeneral (P : Nat) (x : ℚ) : List UInt8 :=
  if x = 0 then [ascii '0']
  else generalText P (decimal (scientific 10 P x).1) (scientific 10 P x).2

/-! ## Scanning -/

/-- The longest beginning that is a decimal number without a sign. -/
def scanDecimal (bs : List UInt8) : Option (Rat × List UInt8) := do
  let (n, places, bs) ← scanDigits .decimal bs
  let (e, bs) := (scanExponent .decimal bs).getD (0, bs)
  return ((n : Rat) * powInt 10 (-places) * powInt 10 e, bs)

/-- The text does not go on with a number. -/
def NumberEnds (rest : List UInt8) : Prop :=
  ∀ b ∈ rest.head?, Radix.decimal.isDigit b = false ∧ b ≠ ascii '.' ∧
    b ∉ Radix.decimal.marks

theorem powInt_eq (n : Nat) (e : Int) (hn : n ≠ 0) : powInt n e = (n : ℚ) ^ e := by
  have hne : (n : ℚ) ≠ 0 := by exact_mod_cast hn
  unfold powInt
  push_cast
  rw [← zpow_natCast, ← zpow_natCast, ← zpow_sub₀ hne]
  congr 1
  omega

theorem isDigit_iff (b : UInt8) : Radix.decimal.isDigit b = true ↔ 48 ≤ b ∧ b ≤ 57 := by
  have hzero : ascii '0' = 48 := rfl
  have hnine : ascii '9' = 57 := rfl
  simp only [Radix.isDigit, Radix.decimal, hzero, hnine]
  split <;> simp_all

theorem isDigit_of_decimal {n : Nat} : ∀ b ∈ decimal n, Radix.decimal.isDigit b = true :=
  fun b hb => (isDigit_iff b).mpr (isDigit_decimal n b hb)

theorem isDigit_zero : Radix.decimal.isDigit (ascii '0') = true := rfl

/-! ### Values -/

/-- Horner's rule. -/
theorem value_append (xs ys : List UInt8) : Radix.decimal.value (xs ++ ys)
    = Radix.decimal.value xs * 10 ^ ys.length + Radix.decimal.value ys := by
  induction ys using List.reverseRecOn with
  | nil => simp [Radix.value]
  | append_singleton ys b ih =>
      have hstep : ∀ zs, Radix.decimal.value (zs ++ [b])
          = Radix.decimal.value zs * 10 + (Radix.decimal.digit b).getD 0 := by
        intro zs
        rw [Radix.value, List.foldl_append]
        rfl
      rw [← List.append_assoc, hstep, hstep, ih, List.length_append, List.length_singleton,
        Nat.pow_succ]
      ring

theorem value_zeros (k : Nat) : Radix.decimal.value (List.replicate k (ascii '0')) = 0 := by
  induction k with
  | zero => rfl
  | succ k ih =>
      rw [List.replicate_succ', value_append, ih]
      rfl

theorem value_decimal (n : Nat) : Radix.decimal.value (decimal n) = n := by
  have hfold : ∀ (bs : List UInt8) (k : Nat), (∀ b ∈ bs, 48 ≤ b ∧ b ≤ 57) →
      bs.foldl (fun n b => n * 10 + (Radix.decimal.digit b).getD 0) k
        = bs.foldl (fun n b => n * 10 + (b.toNat - 48)) k := by
    intro bs
    induction bs with
    | nil => intro k _; rfl
    | cons b bs ih =>
        intro k hbs
        obtain ⟨hb, hbs⟩ := List.forall_mem_cons.mp hbs
        have hdigit : Radix.decimal.digit b = some (b - 48).toNat := if_pos hb
        rw [List.foldl_cons, List.foldl_cons, hdigit, Option.getD_some,
          UInt8.toNat_sub_of_le _ _ hb.1]
        exact ih _ hbs
  exact (hfold _ 0 (isDigit_decimal n)).trans (decimalValue_decimal n)

theorem value_trimZeros (ds : List UInt8) :
    ∃ z, ds = trimZeros ds ++ List.replicate z (ascii '0') := by
  refine ⟨(ds.rtakeWhile (· = ascii '0')).length, ?_⟩
  have hsplit : ds = ds.rdropWhile (· = ascii '0') ++ ds.rtakeWhile (· = ascii '0') := by
    rw [List.rdropWhile, List.rtakeWhile, ← List.reverse_append, List.takeWhile_append_dropWhile,
      List.reverse_reverse]
  have hzeros : ds.rtakeWhile (· = ascii '0')
      = List.replicate (ds.rtakeWhile (· = ascii '0')).length (ascii '0') := by
    rw [List.eq_replicate_iff]
    refine ⟨rfl, fun b hb => ?_⟩
    simpa using List.mem_rtakeWhile_imp hb
  rw [trimZeros, ← hzeros]
  exact hsplit

/-! ### Texts -/

section Scan

variable {whole fraction rest : List UInt8}

theorem takeWhile_digits {p : UInt8 → Bool} {ds : List UInt8} (hds : ∀ b ∈ ds, p b = true)
    (hrest : ∀ b ∈ rest.head?, p b = false) :
    (ds ++ rest).takeWhile p = ds ∧ (ds ++ rest).dropWhile p = rest := by
  rw [List.takeWhile_append_of_pos hds, List.dropWhile_append_of_pos hds]
  cases rest with
  | nil => simp
  | cons b bs => simp [hrest b rfl]

/-- Digits with a point among them. -/
theorem scanDigits_pointed (hwhole : ∀ b ∈ whole, Radix.decimal.isDigit b = true)
    (hfraction : ∀ b ∈ fraction, Radix.decimal.isDigit b = true) (hne : whole ≠ [])
    (hrest : ∀ b ∈ rest.head?, Radix.decimal.isDigit b = false ∧ b ≠ ascii '.') :
    scanDigits .decimal (pointed whole fraction ++ rest)
      = some (Radix.decimal.value (whole ++ fraction), fraction.length, rest) := by
  have hdigits : ∀ b ∈ rest.head?, Radix.decimal.isDigit b = false := fun b hb => (hrest b hb).1
  by_cases hf : fraction = []
  · subst hf
    obtain ⟨htake, hdrop⟩ := takeWhile_digits hwhole hdigits
    rw [pointed, if_pos rfl, scanDigits, htake, hdrop, List.append_nil]
    cases rest with
    | nil => simp [hne]
    | cons b bs => simp [hne, (hrest b rfl).2]
  · have hpoint : ∀ b ∈ (ascii '.' :: (fraction ++ rest)).head?,
        Radix.decimal.isDigit b = false := by
      intro b hb
      obtain rfl := Option.mem_some_iff.mp hb
      rfl
    obtain ⟨htake, hdrop⟩ := takeWhile_digits hwhole hpoint
    obtain ⟨htake', hdrop'⟩ := takeWhile_digits hfraction hdigits
    rw [pointed, if_neg hf, List.append_assoc, List.cons_append, scanDigits, htake, hdrop]
    simp [hne, htake', hdrop']

end Scan

/-! ### Numbers -/

/-- The text of an exponent, which may be absent. -/
inductive ExponentText : List UInt8 → Int → Prop where
  | absent : ExponentText [] 0
  | plain {mark : UInt8} {ds : List UInt8} : mark ∈ Radix.decimal.marks →
      (∀ b ∈ ds, Radix.decimal.isDigit b = true) → ds ≠ [] →
      ExponentText (mark :: ds) (Radix.decimal.value ds)
  | plus {mark : UInt8} {ds : List UInt8} : mark ∈ Radix.decimal.marks →
      (∀ b ∈ ds, Radix.decimal.isDigit b = true) → ds ≠ [] →
      ExponentText (mark :: ascii '+' :: ds) (Radix.decimal.value ds)
  | minus {mark : UInt8} {ds : List UInt8} : mark ∈ Radix.decimal.marks →
      (∀ b ∈ ds, Radix.decimal.isDigit b = true) → ds ≠ [] →
      ExponentText (mark :: ascii '-' :: ds) (-Radix.decimal.value ds)

/-- The text of a number without a sign; no zero is in front of another digit. -/
inductive NumberText : List UInt8 → ℚ → Prop where
  | mk {whole fraction exponent : List UInt8} {e : Int} :
      (∀ b ∈ whole, Radix.decimal.isDigit b = true) →
      (∀ b ∈ fraction, Radix.decimal.isDigit b = true) → whole ≠ [] →
      (whole = [ascii '0'] ∨ whole.head? ≠ some (ascii '0')) → ExponentText exponent e →
      NumberText (pointed whole fraction ++ exponent)
        (Radix.decimal.value (whole ++ fraction) * (10 : ℚ) ^ (-fraction.length : ℤ) * (10 : ℚ) ^ e)

theorem scanExponent_of {t rest : List UInt8} {e : Int} (h : ExponentText t e)
    (hrest : NumberEnds rest) : scanExponent .decimal (t ++ rest) = some (e, rest) := by
  have hends : ∀ b ∈ rest.head?, Radix.decimal.isDigit b = false := fun b hb => (hrest b hb).1
  cases h with
  | absent =>
      cases rest with
      | nil => rfl
      | cons b bs => exact if_neg (hrest b rfl).2.2
  | @plain mark ds hmark hds hne =>
      obtain ⟨htake, hdrop⟩ := takeWhile_digits hds hends
      have hsign : scanSign (ds ++ rest) = (false, ds ++ rest) := by
        obtain ⟨b, bs, rfl⟩ := List.exists_cons_of_ne_nil hne
        have hdigit := hds b List.mem_cons_self
        have hminus : b ≠ ascii '-' := by
          rintro rfl
          exact absurd hdigit (by decide)
        have hplus : b ≠ ascii '+' := by
          rintro rfl
          exact absurd hdigit (by decide)
        rw [List.cons_append, scanSign, if_neg hminus, if_neg hplus]
      rw [List.cons_append, scanExponent, if_pos hmark]
      simp [exponentDigits, hsign, htake, hdrop, hne]
  | @plus mark ds hmark hds hne =>
      obtain ⟨htake, hdrop⟩ := takeWhile_digits hds hends
      have hsign : scanSign (ascii '+' :: (ds ++ rest)) = (false, ds ++ rest) := rfl
      rw [List.cons_append, List.cons_append, scanExponent, if_pos hmark]
      simp [exponentDigits, hsign, htake, hdrop, hne]
  | @minus mark ds hmark hds hne =>
      obtain ⟨htake, hdrop⟩ := takeWhile_digits hds hends
      have hsign : scanSign (ascii '-' :: (ds ++ rest)) = (true, ds ++ rest) := rfl
      rw [List.cons_append, List.cons_append, scanExponent, if_pos hmark]
      simp [exponentDigits, hsign, htake, hdrop, hne]

/-- An exponent is no part of the digits in front of it. -/
theorem head_exponent {t rest : List UInt8} {e : Int} (h : ExponentText t e)
    (hrest : NumberEnds rest) :
    ∀ b ∈ (t ++ rest).head?, Radix.decimal.isDigit b = false ∧ b ≠ ascii '.' := by
  have hmarks : ∀ b ∈ Radix.decimal.marks, Radix.decimal.isDigit b = false ∧ b ≠ ascii '.' := by
    intro b hb
    rcases List.mem_pair.mp hb with rfl | rfl
    · decide
    · decide
  cases h with
  | absent => exact fun b hb => ⟨(hrest b hb).1, (hrest b hb).2.1⟩
  | plain hmark => exact fun b hb => Option.mem_some_iff.mp hb ▸ hmarks _ hmark
  | plus hmark => exact fun b hb => Option.mem_some_iff.mp hb ▸ hmarks _ hmark
  | minus hmark => exact fun b hb => Option.mem_some_iff.mp hb ▸ hmarks _ hmark

/-- **Scanning** takes all of a number, and nothing behind it. -/
theorem scanDecimal_of {t rest : List UInt8} {q : ℚ} (h : NumberText t q)
    (hrest : NumberEnds rest) : scanDecimal (t ++ rest) = some (q, rest) := by
  obtain ⟨hwhole, hfraction, hne, _, hexponent⟩ := h
  have hscan := scanDigits_pointed hwhole hfraction hne (head_exponent hexponent hrest)
  have hexp := scanExponent_of hexponent hrest
  simp [scanDecimal, List.append_assoc, hscan, hexp, powInt_eq]

/-! ### Numbers that were printed -/

theorem exponentText_exponentText (e : Int) : ExponentText (exponentText e) e := by
  have hmark : ascii 'e' ∈ Radix.decimal.marks := by decide
  -- two digits or more, and what they are worth
  obtain ⟨ds, hds, hdigits, hvalue, hne⟩ : ∃ ds, exponentText e
      = ascii 'e' :: ascii (if e < 0 then '-' else '+') :: ds ∧
      (∀ b ∈ ds, Radix.decimal.isDigit b = true) ∧
      Radix.decimal.value ds = e.natAbs ∧ ds ≠ [] := by
    refine ⟨_, rfl, ?_⟩
    by_cases hsmall : e.natAbs < 10
    · rw [if_pos hsmall]
      refine ⟨List.forall_mem_cons.mpr ⟨rfl, isDigit_of_decimal⟩, ?_, List.cons_ne_nil _ _⟩
      have hzero : Radix.decimal.value [ascii '0'] = 0 := rfl
      rw [← List.singleton_append, value_append, hzero, value_decimal]
      omega
    · rw [if_neg hsmall]
      exact ⟨isDigit_of_decimal, value_decimal _,
        List.ne_nil_of_length_pos (length_decimal_pos _)⟩
  rw [hds]
  by_cases hneg : e < 0
  · have habs : -((Radix.decimal.value ds : Nat) : Int) = e := by omega
    have h := ExponentText.minus hmark hdigits hne
    rw [if_pos hneg]
    rwa [habs] at h
  · have habs : ((Radix.decimal.value ds : Nat) : Int) = e := by omega
    have h := ExponentText.plus hmark hdigits hne
    rw [if_neg hneg]
    rwa [habs] at h

/-- The first digit of a number is no zero. -/
theorem head_decimal {n : Nat} (h : 0 < n) : (decimal n).head? ≠ some (ascii '0') := by
  induction n using Nat.strongRecOn with
  | ind n ih =>
      rcases Nat.lt_or_ge n 10 with hsmall | hlarge
      · rw [decimal_digit hsmall]
        intro hhead
        have htoNat := congrArg UInt8.toNat (Option.some.inj hhead)
        rw [UInt8.toNat_ofNat'] at htoNat
        have hzero : (ascii '0').toNat = 48 := rfl
        omega
      · have hne := List.ne_nil_of_length_pos (length_decimal_pos (n / 10))
        rw [decimal_concat hlarge, List.head?_append_of_ne_nil _ hne]
        exact ih (n / 10) (by omega) (by omega)

/-- The three ways to write significant digits denote the same number. -/
theorem numberText_generalText {P : Nat} {ds : List UInt8} (e : Int)
    (hds : ∀ b ∈ ds, Radix.decimal.isDigit b = true) (hlen : ds.length = P) (hP : 0 < P)
    (hhead : ds.head? ≠ some (ascii '0')) :
    NumberText (generalText P ds e) (Radix.decimal.value ds * (10 : ℚ) ^ (e - (P - 1))) := by
  have hten : (10 : ℚ) ≠ 0 := by norm_num
  have htrim : ∀ {xs}, (∀ b ∈ xs, Radix.decimal.isDigit b = true) →
      ∀ b ∈ trimZeros xs, Radix.decimal.isDigit b = true :=
    fun h b hb => h b ((List.rdropWhile_prefix _ _).subset hb)
  -- the digits in front of the point and behind it, and the zeros that are left out
  have hsplit : ∀ k, ∃ z,
      ds = ds.take k ++ trimZeros (ds.drop k) ++ List.replicate z (ascii '0') := by
    intro k
    obtain ⟨z, hz⟩ := value_trimZeros (ds.drop k)
    refine ⟨z, ?_⟩
    rw [List.append_assoc, ← hz, List.take_append_drop]
  have hvalue : ∀ {xs z}, ds = xs ++ List.replicate z (ascii '0') →
      (Radix.decimal.value ds : ℚ) = Radix.decimal.value xs * (10 : ℚ) ^ (z : ℤ) := by
    intro xs z hxs
    rw [hxs, value_append, value_zeros, List.length_replicate]
    push_cast
    rw [zpow_natCast, add_zero]
  have htake : ∀ k, ds.take (k + 1) ≠ [] ∧ (ds.take (k + 1)).head? ≠ some (ascii '0') := by
    intro k
    obtain ⟨b, bs, rfl⟩ := List.exists_cons_of_length_pos (hlen.symm ▸ hP)
    exact ⟨List.cons_ne_nil _ _, hhead⟩
  have htaken : ∀ k, ∀ b ∈ ds.take k, Radix.decimal.isDigit b = true :=
    fun k b hb => hds b (List.mem_of_mem_take hb)
  have hdropped : ∀ k, ∀ b ∈ trimZeros (ds.drop k), Radix.decimal.isDigit b = true :=
    fun k => htrim fun b hb => hds b (List.mem_of_mem_drop hb)
  unfold generalText
  split
  · obtain ⟨z, hz⟩ := hsplit 1
    have hlength := congrArg List.length hz
    have htext := NumberText.mk (htaken 1) (hdropped 1) (htake 0).1 (Or.inr (htake 0).2)
      (exponentText_exponentText e)
    convert htext using 1
    rw [hvalue hz, mul_assoc, mul_assoc, ← zpow_add₀ hten, ← zpow_add₀ hten]
    simp only [List.length_append, List.length_take, List.length_replicate] at hlength
    congr 2
    omega
  · split
    · rename_i hlow hnonneg
      obtain ⟨z, hz⟩ := hsplit (e.toNat + 1)
      have hlength := congrArg List.length hz
      have htext := NumberText.mk (htaken (e.toNat + 1)) (hdropped (e.toNat + 1))
        (htake e.toNat).1 (Or.inr (htake e.toNat).2) .absent
      rw [List.append_nil] at htext
      convert htext using 1
      rw [hvalue hz, mul_assoc, mul_assoc, ← zpow_add₀ hten, ← zpow_add₀ hten]
      simp only [List.length_append, List.length_take, List.length_replicate] at hlength
      congr 2
      omega
    · obtain ⟨z, hz⟩ := value_trimZeros ds
      have hzero : ∀ b ∈ [ascii '0'], Radix.decimal.isDigit b = true := by
        rintro b hb
        rw [List.mem_singleton.mp hb]
        rfl
      have hfraction : ∀ b ∈ List.replicate (-e - 1).toNat (ascii '0') ++ trimZeros ds,
          Radix.decimal.isDigit b = true := by
        intro b hb
        rcases List.mem_append.mp hb with hb | hb
        · rw [List.eq_of_mem_replicate hb]
          rfl
        · exact htrim hds b hb
      have hleading : Radix.decimal.value
          ([ascii '0'] ++ (List.replicate (-e - 1).toNat (ascii '0') ++ trimZeros ds))
          = Radix.decimal.value (trimZeros ds) := by
        rw [List.singleton_append, ← List.cons_append, ← List.replicate_succ, value_append,
          value_zeros, Nat.zero_mul, Nat.zero_add]
      have hlength := congrArg List.length hz
      have htext := NumberText.mk hzero hfraction (List.cons_ne_nil _ _) (Or.inl rfl) .absent
      rw [List.append_nil] at htext
      convert htext using 1
      rw [hleading, hvalue hz, mul_assoc, mul_assoc, ← zpow_add₀ hten, ← zpow_add₀ hten]
      simp only [List.length_append, List.length_replicate] at hlength ⊢
      congr 2
      omega

/-- The significant digits are as many as were asked for. -/
theorem length_scientific {P : Nat} (hP : 0 < P) {x : ℚ} (hx : 0 < x) :
    (decimal (scientific 10 P x).1).length = P := by
  obtain ⟨⟨hlow, hhigh⟩, _⟩ := scientific_spec (c := 10) (by decide) hP hx
  obtain ⟨k, rfl⟩ := Nat.exists_eq_add_one_of_ne_zero (Nat.pos_iff_ne_zero.mp hP)
  have hle := (length_decimal_le_iff _ k).mpr hhigh
  cases k with
  | zero =>
      have hpos := length_decimal_pos (scientific 10 (0 + 1) x).1
      omega
  | succ k =>
      have hlow' : ¬ (decimal (scientific 10 (k + 1 + 1) x).1).length ≤ k + 1 := by
        rw [length_decimal_le_iff]
        exact not_lt.mpr hlow
      omega

/-- **Printing**: the text of the number with `P` significant digits. -/
theorem numberText_formatGeneral {P : Nat} (hP : 0 < P) {x : ℚ} (hx : 0 ≤ x) :
    NumberText (formatGeneral P x)
      (if x = 0 then 0 else scientificValue 10 P (scientific 10 P x)) := by
  unfold formatGeneral
  split
  · have hzero : ∀ b ∈ [ascii '0'], Radix.decimal.isDigit b = true := by simp [isDigit_zero]
    have htext := @NumberText.mk [ascii '0'] [] _ _ hzero (List.forall_mem_nil _)
      (List.cons_ne_nil _ _) (Or.inl rfl) .absent
    have hvalue : Radix.decimal.value [ascii '0'] = 0 := rfl
    simpa [pointed, hvalue] using htext
  · rename_i hne
    have hpos : 0 < x := lt_of_le_of_ne hx (Ne.symm hne)
    have hlength := length_scientific hP hpos
    have hdigits : 0 < (scientific 10 P x).1 := by
      obtain ⟨⟨hlow, _⟩, _⟩ := scientific_spec (c := 10) (by decide) hP hpos
      exact lt_of_lt_of_le (Nat.pow_pos (by decide)) hlow
    have htext := numberText_generalText (scientific 10 P x).2 isDigit_of_decimal hlength hP
      (head_decimal hdigits)
    convert htext using 1
    rw [value_decimal, scientificValue]
    norm_num

/-! ### Room -/

theorem length_pointed_le (whole fraction : List UInt8) :
    (pointed whole fraction).length ≤ whole.length + fraction.length + 1 := by
  unfold pointed
  split
  · omega
  · simp only [List.length_append, List.length_cons]
    omega

theorem length_trimZeros_le (ds : List UInt8) : (trimZeros ds).length ≤ ds.length :=
  (List.rdropWhile_prefix _ _).length_le

theorem length_exponentText_le {e : Int} (he : e.natAbs < 1000) : (exponentText e).length ≤ 5 := by
  have hdigits := (length_decimal_le_iff e.natAbs 2).mpr he
  unfold exponentText
  by_cases hsmall : e.natAbs < 10
  · have hone := (length_decimal_le_iff e.natAbs 0).mpr hsmall
    rw [if_pos hsmall]
    simp only [List.length_cons]
    omega
  · rw [if_neg hsmall]
    simp only [List.length_cons]
    omega

/-- **The room a number takes**: its digits, a point, and an exponent of three
digits with its letter and sign. -/
theorem length_formatGeneral_le {P : Nat} (hP : 0 < P) {x : ℚ} (hx : 0 ≤ x)
    (he : (scientific 10 P x).2.natAbs < 1000) : (formatGeneral P x).length ≤ P + 6 := by
  unfold formatGeneral
  split
  · simp only [List.length_singleton]
    omega
  · rename_i hne
    have hlen := length_scientific hP (lt_of_le_of_ne hx (Ne.symm hne))
    generalize decimal (scientific 10 P x).1 = ds at hlen
    generalize (scientific 10 P x).2 = e at he
    have hexp := length_exponentText_le he
    unfold generalText
    split
    · have hpoint := length_pointed_le (ds.take 1) (trimZeros (ds.drop 1))
      have htrim := length_trimZeros_le (ds.drop 1)
      simp only [List.length_append, List.length_take, List.length_drop] at *
      omega
    · split
      · have hpoint := length_pointed_le (ds.take (e.toNat + 1)) (trimZeros (ds.drop (e.toNat + 1)))
        have htrim := length_trimZeros_le (ds.drop (e.toNat + 1))
        simp only [List.length_take, List.length_drop] at *
        omega
      · have hpoint := length_pointed_le [ascii '0']
          (List.replicate (-e - 1).toNat (ascii '0') ++ trimZeros ds)
        have htrim := length_trimZeros_le ds
        simp only [List.length_append, List.length_replicate, List.length_singleton] at *
        omega

/-! ### The bytes of a number -/

/-- A byte a number may contain. -/
def IsNumberByte (b : UInt8) : Prop :=
  Radix.decimal.isDigit b = true ∨ b = ascii '+' ∨ b = ascii '-' ∨ b = ascii '.' ∨
    b ∈ Radix.decimal.marks

theorem isNumberByte_of {t : List UInt8} {q : ℚ} (h : NumberText t q) :
    ∀ b ∈ t, IsNumberByte b := by
  obtain ⟨hwhole, hfraction, _, _, hexponent⟩ := h
  have hpointed : ∀ {whole fraction : List UInt8}, (∀ b ∈ whole, Radix.decimal.isDigit b = true) →
      (∀ b ∈ fraction, Radix.decimal.isDigit b = true) →
      ∀ b ∈ pointed whole fraction, IsNumberByte b := by
    intro whole fraction hwhole hfraction b hb
    unfold pointed at hb
    split at hb
    · exact Or.inl (hwhole b hb)
    · rcases List.mem_append.mp hb with hb | hb
      · exact Or.inl (hwhole b hb)
      · rcases List.mem_cons.mp hb with rfl | hb
        · exact Or.inr (Or.inr (Or.inr (Or.inl rfl)))
        · exact Or.inl (hfraction b hb)
  have hmark : ∀ b ∈ Radix.decimal.marks, IsNumberByte b := fun b hb =>
    Or.inr (Or.inr (Or.inr (Or.inr hb)))
  refine List.forall_mem_append.mpr ⟨hpointed hwhole hfraction, ?_⟩
  cases hexponent with
  | absent => exact List.forall_mem_nil _
  | plain hm hds => exact List.forall_mem_cons.mpr ⟨hmark _ hm, fun b hb => Or.inl (hds b hb)⟩
  | plus hm hds =>
      exact List.forall_mem_cons.mpr ⟨hmark _ hm, List.forall_mem_cons.mpr
        ⟨Or.inr (Or.inl rfl), fun b hb => Or.inl (hds b hb)⟩⟩
  | minus hm hds =>
      exact List.forall_mem_cons.mpr ⟨hmark _ hm, List.forall_mem_cons.mpr
        ⟨Or.inr (Or.inr (Or.inl rfl)), fun b hb => Or.inl (hds b hb)⟩⟩

/-- A number begins with a digit. -/
theorem head_of {t : List UInt8} {q : ℚ} (h : NumberText t q) :
    ∃ b bs, t = b :: bs ∧ Radix.decimal.isDigit b = true := by
  obtain ⟨hwhole, _, hne, _, _⟩ := h
  rename_i whole fraction exponent e
  obtain ⟨b, bs, rfl⟩ := List.exists_cons_of_ne_nil hne
  have hdigit := hwhole b List.mem_cons_self
  unfold pointed
  split
  · exact ⟨b, _, rfl, hdigit⟩
  · exact ⟨b, _, rfl, hdigit⟩

end KernelTestkit.Lib
