/-
KernelTestkit.Json.Utf16 — the escapes `\uXXXX` of a string.

`utf16_literal_to_utf8` reads one escape, or two that are a surrogate pair,
and writes the character they denote in UTF-8. Its caller has looked at the
`\u` in front. Four bytes that are not hexadecimal digits count as the code
0, and the NUL they stand for is written.

* `Denotes` — the escapes that denote a character.
* `utf16LiteralToUtf8_eq_some_iff` — what is written is the UTF-8 of the
  character the escapes denote, or the NUL of four bytes that are no digits.
-/
import Mathlib.Data.Nat.Bitwise
import KernelTestkit.Json.Number

namespace KernelTestkit.Json

/-! ## The code -/

def hexDigit (b : UInt8) : Option Nat :=
  if 48 ≤ b ∧ b ≤ 57 then some (b.toNat - 48)
  else if 65 ≤ b ∧ b ≤ 70 then some (10 + b.toNat - 65)
  else if 97 ≤ b ∧ b ≤ 102 then some (10 + b.toNat - 97)
  else none

/-- The number four hexadecimal digits denote. -/
def hex4 (input : List UInt8) : Option Nat :=
  (input.take 4).foldlM (fun h b => (hexDigit b).map (h <<< 4 + ·)) 0

/-- `parse_hex4(input)`. -/
def parseHex4 (input : List UInt8) : Nat := (hex4 input).getD 0

/-- The loop of `utf16_literal_to_utf8` that writes the bytes behind the first:
what is left of the code, and the bytes. -/
def continuation : Nat → Nat → List UInt8 → Nat × List UInt8
  | 0, codepoint, output => (codepoint, output)
  | position + 1, codepoint, output =>
      continuation position (codepoint >>> 6)
        (UInt8.ofNat ((codepoint ||| 0x80) &&& 0xBF) :: output)

/-- A code in `length` bytes. -/
def utf8Bytes (length firstByteMark codepoint : Nat) : List UInt8 :=
  let (codepoint, output) := continuation (length - 1) codepoint []
  if 1 < length then UInt8.ofNat ((codepoint ||| firstByteMark) &&& 0xFF) :: output
  else UInt8.ofNat (codepoint &&& 0x7F) :: output

/-- A code in UTF-8; `none` when it is too large. -/
def encodeUtf8 (codepoint : Nat) : Option (List UInt8) :=
  if codepoint < 0x80 then some (utf8Bytes 1 0 codepoint)
  else if codepoint < 0x800 then some (utf8Bytes 2 0xC0 codepoint)
  else if codepoint < 0x10000 then some (utf8Bytes 3 0xE0 codepoint)
  else if codepoint ≤ 0x10FFFF then some (utf8Bytes 4 0xF0 codepoint)
  else none

/-- `utf16_literal_to_utf8(input_pointer, input_end, output_pointer)`, with the
bytes from `input_pointer` to `input_end`: the length of the escapes and the
bytes written. -/
def utf16LiteralToUtf8 (input : List UInt8) : Option (Nat × List UInt8) :=
  if input.length < 6 then none
  else
    let firstCode := parseHex4 (input.drop 2)
    if 0xDC00 ≤ firstCode ∧ firstCode ≤ 0xDFFF then none
    else if 0xD800 ≤ firstCode ∧ firstCode ≤ 0xDBFF then
      let secondSequence := input.drop 6
      if secondSequence.length < 6 then none
      else if secondSequence.take 2 ≠ [92, 117] then none
      else
        let secondCode := parseHex4 (secondSequence.drop 2)
        if secondCode < 0xDC00 ∨ 0xDFFF < secondCode then none
        else
          (encodeUtf8 (0x10000 + (((firstCode &&& 0x3FF) <<< 10) ||| (secondCode &&& 0x3FF)))).map
            ((12, ·))
    else
      (encodeUtf8 firstCode).map ((6, ·))

/-! ## UTF-8 -/

/-- The six lowest bits behind the mark of a continuation byte. -/
theorem continuation_byte (n : Nat) : (n ||| 0x80) &&& 0xBF = n % 0x40 + 0x80 := by
  have hmask : 0xBF = 0x3F ||| 0x80 := by decide
  have hor := Nat.two_pow_add_eq_or_of_lt (Nat.mod_lt n (show 0 < 2 ^ 6 by decide)) 2
  rw [hmask, ← Nat.or_and_distrib_right, Nat.and_two_pow_sub_one_eq_mod _ 6, Nat.or_comm]
  exact hor.symm.trans (Nat.add_comm _ _)

/-- The bits behind the mark of a first byte. -/
theorem first_byte {n k m : Nat} (hn : n < 2 ^ k) (hm : n + 2 ^ k * m < 256) :
    (n ||| 2 ^ k * m) &&& 0xFF = n + 2 ^ k * m := by
  rw [Nat.or_comm, ← Nat.two_pow_add_eq_or_of_lt hn, Nat.add_comm,
    Nat.and_two_pow_sub_one_eq_mod _ 8, Nat.mod_eq_of_lt hm]

theorem utf8Bytes_one {n : Nat} (h : n < 0x80) : utf8Bytes 1 0 n = [UInt8.ofNat n] := by
  have hlow : n &&& 0x7F = n := (Nat.and_two_pow_sub_one_eq_mod n 7).trans (Nat.mod_eq_of_lt h)
  simp [utf8Bytes, continuation, hlow]

theorem utf8Bytes_two {n : Nat} (h : n < 0x800) : utf8Bytes 2 0xC0 n
    = [UInt8.ofNat (n / 0x40 + 0xC0), UInt8.ofNat (n % 0x40 + 0x80)] := by
  have hfirst := first_byte (n := n / 0x40) (k := 5) (m := 6) (by omega) (by omega)
  simp only [utf8Bytes, continuation, continuation_byte, Nat.shiftRight_eq_div_pow]
  simpa using congrArg UInt8.ofNat hfirst

theorem utf8Bytes_three {n : Nat} (h : n < 0x10000) : utf8Bytes 3 0xE0 n
    = [UInt8.ofNat (n / 0x1000 + 0xE0), UInt8.ofNat (n / 0x40 % 0x40 + 0x80),
      UInt8.ofNat (n % 0x40 + 0x80)] := by
  have hfirst := first_byte (n := n / 0x1000) (k := 4) (m := 14) (by omega) (by omega)
  simp only [utf8Bytes, continuation, continuation_byte, Nat.shiftRight_eq_div_pow,
    Nat.div_div_eq_div_mul]
  simpa using congrArg UInt8.ofNat hfirst

theorem utf8Bytes_four {n : Nat} (h : n ≤ 0x10FFFF) : utf8Bytes 4 0xF0 n
    = [UInt8.ofNat (n / 0x40000 + 0xF0), UInt8.ofNat (n / 0x1000 % 0x40 + 0x80),
      UInt8.ofNat (n / 0x40 % 0x40 + 0x80), UInt8.ofNat (n % 0x40 + 0x80)] := by
  have hfirst := first_byte (n := n / 0x40000) (k := 3) (m := 30) (by omega) (by omega)
  simp only [utf8Bytes, continuation, continuation_byte, Nat.shiftRight_eq_div_pow,
    Nat.div_div_eq_div_mul]
  simpa using congrArg UInt8.ofNat hfirst

theorem toNat_le (c : Char) : c.toNat ≤ 0x10FFFF := by
  have hvalid : c.toNat < 0xD800 ∨ 0xDFFF < c.toNat ∧ c.toNat < 0x110000 := c.valid
  omega

/-- **The encoding is UTF-8.** -/
theorem encodeUtf8_char (c : Char) : encodeUtf8 c.toNat = some (String.utf8EncodeChar c) := by
  have hle := toNat_le c
  have hnat : c.val.toNat = c.toNat := rfl
  unfold encodeUtf8 String.utf8EncodeChar
  rw [hnat]
  generalize c.toNat = n at hle ⊢
  by_cases h1 : n < 0x80
  · rw [if_pos h1, if_pos (by omega), utf8Bytes_one h1]
  by_cases h2 : n < 0x800
  · rw [if_neg h1, if_pos h2, if_neg (by omega), if_pos (by omega), utf8Bytes_two h2,
      Nat.mod_eq_of_lt (show n / 64 < 0x20 by omega)]
  by_cases h3 : n < 0x10000
  · rw [if_neg h1, if_neg h2, if_pos h3, if_neg (by omega), if_neg (by omega),
      if_pos (by omega), utf8Bytes_three h3, Nat.mod_eq_of_lt (show n / 4096 < 0x10 by omega)]
  · rw [if_neg h1, if_neg h2, if_neg h3, if_pos hle, if_neg (by omega), if_neg (by omega),
      if_neg (by omega), utf8Bytes_four hle, Nat.mod_eq_of_lt (show n / 262144 < 0x08 by omega)]

/-! ## UTF-16 -/

def highSurrogate (c : Char) : Nat := 0xD800 + (c.toNat - 0x10000) / 0x400

def lowSurrogate (c : Char) : Nat := 0xDC00 + (c.toNat - 0x10000) % 0x400

/-- The text begins with the escape of the code unit `u`. -/
structure EscapeOf (input : List UInt8) (u : Nat) : Prop where
  mark : input.take 2 = [92, 117]
  length : 6 ≤ input.length
  digits : hex4 (input.drop 2) = some u

/-- The first `n` bytes are escapes that denote a character: the one of its code,
or the two of its surrogates. -/
inductive Denotes (input : List UInt8) : Nat → Char → Prop where
  | single {c : Char} : EscapeOf input c.toNat → Denotes input 6 c
  | pair {c : Char} : 0x10000 ≤ c.toNat → EscapeOf input (highSurrogate c) →
      EscapeOf (input.drop 6) (lowSurrogate c) → Denotes input 12 c

theorem hexDigit_lt {b : UInt8} {d : Nat} (h : hexDigit b = some d) : d < 16 := by
  simp only [hexDigit, UInt8.le_iff_toNat_le] at h
  grind

theorem foldlM_hexDigit_lt : ∀ (bs : List UInt8) (h n : Nat),
    bs.foldlM (fun h b => (hexDigit b).map (h <<< 4 + ·)) h = some n → n < (h + 1) * 16 ^ bs.length
  | [], h, n, heq => by
      obtain rfl := Option.some.inj heq
      simp
  | b :: bs, h, n, heq => by
      rw [List.foldlM_cons] at heq
      obtain ⟨h', hdigit, hrest⟩ := Option.bind_eq_some_iff.mp heq
      obtain ⟨d, hd, rfl⟩ := Option.map_eq_some_iff.mp hdigit
      have hlt := hexDigit_lt hd
      have ih := foldlM_hexDigit_lt bs _ n hrest
      calc n < (h <<< 4 + d + 1) * 16 ^ bs.length := ih
        _ ≤ ((h + 1) * 16) * 16 ^ bs.length := by
            apply Nat.mul_le_mul_right
            rw [Nat.shiftLeft_eq]
            omega
        _ = (h + 1) * 16 ^ (b :: bs).length := by
            rw [List.length_cons, Nat.pow_succ', Nat.mul_assoc]

theorem hex4_lt {input : List UInt8} {n : Nat} (h : hex4 input = some n) : n < 0x10000 := by
  have hlt := foldlM_hexDigit_lt _ 0 n h
  have hpow : 16 ^ (input.take 4).length ≤ 16 ^ 4 :=
    Nat.pow_le_pow_right (by decide) (List.length_take_le 4 input)
  omega

theorem parseHex4_of_digits {input : List UInt8} {n : Nat} (h : hex4 input = some n) :
    parseHex4 input = n := by
  rw [parseHex4, h, Option.getD_some]

/-- A code other than 0 comes from digits. -/
theorem hex4_of_pos {input : List UInt8} (h : 0 < parseHex4 input) :
    hex4 input = some (parseHex4 input) := by
  cases hdigits : hex4 input with
  | none =>
      rw [parseHex4, hdigits] at h
      exact absurd h (Nat.lt_irrefl 0)
  | some n => rw [parseHex4_of_digits hdigits]

theorem parseHex4_lt (input : List UInt8) : parseHex4 input < 0x10000 := by
  rcases Nat.eq_zero_or_pos (parseHex4 input) with hzero | hpos
  · omega
  · exact hex4_lt (hex4_of_pos hpos)

/-- The code of a surrogate pair. -/
theorem pair_codepoint (a b : Nat) :
    0x10000 + (((a &&& 0x3FF) <<< 10) ||| (b &&& 0x3FF))
      = 0x10000 + (a % 0x400 * 0x400 + b % 0x400) := by
  rw [Nat.and_two_pow_sub_one_eq_mod _ 10, Nat.and_two_pow_sub_one_eq_mod _ 10,
    ← Nat.shiftLeft_add_eq_or_of_lt (Nat.mod_lt b (by decide)), Nat.shiftLeft_eq]

/-- A code that is a scalar value has a character. -/
theorem exists_toNat_eq {n : Nat} (h : n < 0xD800 ∨ 0xDFFF < n ∧ n < 0x110000) :
    ∃ c : Char, c.toNat = n :=
  ⟨Char.ofNatAux n h, rfl⟩

/-- The two ways `utf16_literal_to_utf8` writes something, in its own codes. -/
theorem utf16LiteralToUtf8_some {input bytes : List UInt8} {n : Nat}
    (h : utf16LiteralToUtf8 input = some (n, bytes)) :
    ∃ c : Char, bytes = String.utf8EncodeChar c ∧
      (n = 6 ∧ 6 ≤ input.length ∧ parseHex4 (input.drop 2) = c.toNat ∨
        n = 12 ∧ 12 ≤ input.length ∧ 0x10000 ≤ c.toNat ∧
          parseHex4 (input.drop 2) = highSurrogate c ∧ (input.drop 6).take 2 = [92, 117] ∧
          parseHex4 ((input.drop 6).drop 2) = lowSurrogate c) := by
  have hfirst := parseHex4_lt (input.drop 2)
  unfold utf16LiteralToUtf8 at h
  split at h
  · cases h
  rename_i hlength
  dsimp only at h
  split at h
  · cases h
  rename_i hlow
  split at h
  · -- a pair
    rename_i hhigh
    split at h
    · cases h
    rename_i hmore
    split at h
    · cases h
    rename_i hmark
    split at h
    · cases h
    rename_i hsecond
    obtain ⟨out, hout, hpair⟩ := Option.map_eq_some_iff.mp h
    obtain ⟨rfl, rfl⟩ := Prod.mk.inj hpair
    rw [pair_codepoint] at hout
    obtain ⟨c, hc⟩ := exists_toNat_eq (n := 0x10000 + (parseHex4 (input.drop 2) % 0x400 * 0x400
      + parseHex4 ((input.drop 6).drop 2) % 0x400)) (by omega)
    rw [← hc, encodeUtf8_char] at hout
    rw [List.length_drop] at hmore
    refine ⟨c, (Option.some.inj hout).symm,
      Or.inr ⟨rfl, by omega, by omega, ?_, not_not.mp hmark, ?_⟩⟩
    · unfold highSurrogate
      omega
    · unfold lowSurrogate
      omega
  · -- one code
    rename_i hhigh
    obtain ⟨out, hout, hsingle⟩ := Option.map_eq_some_iff.mp h
    obtain ⟨rfl, rfl⟩ := Prod.mk.inj hsingle
    obtain ⟨c, hc⟩ := exists_toNat_eq (n := parseHex4 (input.drop 2)) (by omega)
    rw [← hc, encodeUtf8_char] at hout
    exact ⟨c, (Option.some.inj hout).symm, Or.inl ⟨rfl, by omega, hc.symm⟩⟩

/-- One code that is no surrogate. -/
theorem utf16LiteralToUtf8_single {input : List UInt8} {c : Char} (hlength : 6 ≤ input.length)
    (hcode : parseHex4 (input.drop 2) = c.toNat) :
    utf16LiteralToUtf8 input = some (6, String.utf8EncodeChar c) := by
  have hvalid : c.toNat < 0xD800 ∨ 0xDFFF < c.toNat ∧ c.toNat < 0x110000 := c.valid
  unfold utf16LiteralToUtf8
  rw [if_neg (by omega)]
  dsimp only
  rw [hcode, if_neg (by omega), if_neg (by omega), encodeUtf8_char]
  rfl

/-- The character of escapes is written. -/
theorem utf16LiteralToUtf8_of_denotes {input : List UInt8} {n : Nat} {c : Char}
    (h : Denotes input n c) : utf16LiteralToUtf8 input = some (n, String.utf8EncodeChar c) := by
  have hvalid : c.toNat < 0xD800 ∨ 0xDFFF < c.toNat ∧ c.toNat < 0x110000 := c.valid
  cases h with
  | single hcode =>
      exact utf16LiteralToUtf8_single hcode.length (parseHex4_of_digits hcode.digits)
  | pair hlarge hhigh hlow =>
      have hmore := hlow.length
      rw [List.length_drop] at hmore
      have hcode : 0x10000 + (highSurrogate c % 0x400 * 0x400 + lowSurrogate c % 0x400)
          = c.toNat := by
        unfold highSurrogate lowSurrogate
        omega
      have hbounds : 0xD800 ≤ highSurrogate c ∧ highSurrogate c ≤ 0xDBFF := by
        unfold highSurrogate
        omega
      have hbounds' : 0xDC00 ≤ lowSurrogate c ∧ lowSurrogate c ≤ 0xDFFF := by
        unfold lowSurrogate
        omega
      unfold utf16LiteralToUtf8
      rw [if_neg (by omega)]
      dsimp only
      rw [parseHex4_of_digits hhigh.digits, parseHex4_of_digits hlow.digits, pair_codepoint, hcode,
        encodeUtf8_char, if_neg (by omega), if_pos hbounds,
        if_neg (by rw [List.length_drop]; omega), if_neg (not_not.mpr hlow.mark),
        if_neg (by omega)]
      rfl

/-- **The characters of escapes**: behind a `\u`, what is written is the UTF-8 of
the one character the escapes denote; and a NUL where four bytes are no
digits. -/
theorem utf16LiteralToUtf8_eq_some_iff {input bytes : List UInt8} {n : Nat}
    (hmark : input.take 2 = [92, 117]) :
    utf16LiteralToUtf8 input = some (n, bytes) ↔
      (∃ c, Denotes input n c ∧ bytes = String.utf8EncodeChar c) ∨
        (6 ≤ input.length ∧ hex4 (input.drop 2) = none ∧ n = 6 ∧ bytes = [0]) := by
  constructor
  · intro h
    obtain ⟨c, rfl, ⟨rfl, hlength, hcode⟩ | ⟨rfl, hlength, hlarge, hhigh, hmark', hlow⟩⟩ :=
      utf16LiteralToUtf8_some h
    · cases hdigits : hex4 (input.drop 2) with
      | none =>
          have hzero : c = Char.ofNat 0 := by
            apply Char.toNat_inj.mp
            rw [← hcode, parseHex4, hdigits]
            rfl
          exact Or.inr ⟨hlength, rfl, rfl, by rw [hzero]; decide⟩
      | some u =>
          rw [parseHex4_of_digits hdigits] at hcode
          rw [hcode] at hdigits
          exact Or.inl ⟨c, .single ⟨hmark, hlength, hdigits⟩, rfl⟩
    · have hdigits := @hex4_of_pos (input.drop 2) (by
        rw [hhigh, highSurrogate]
        omega)
      have hdigits' := @hex4_of_pos ((input.drop 6).drop 2) (by
        rw [hlow, lowSurrogate]
        omega)
      rw [hhigh] at hdigits
      rw [hlow] at hdigits'
      exact Or.inl ⟨c, .pair hlarge ⟨hmark, by omega, hdigits⟩
        ⟨hmark', by rw [List.length_drop]; omega, hdigits'⟩, rfl⟩
  · rintro (⟨c, hdenotes, rfl⟩ | ⟨hlength, hdigits, rfl, rfl⟩)
    · exact utf16LiteralToUtf8_of_denotes hdenotes
    · exact utf16LiteralToUtf8_single (c := Char.ofNat 0) hlength (by
        rw [parseHex4, hdigits]
        rfl)

/-- `\u20AC` is a euro sign, and `\uZZZZ` a NUL. -/
theorem utf16LiteralToUtf8_euro :
    utf16LiteralToUtf8 [92, 117, 50, 48, 65, 67] = some (6, [0xE2, 0x82, 0xAC]) ∧
    utf16LiteralToUtf8 [92, 117, 90, 90, 90, 90] = some (6, [0]) :=
  ⟨(utf16LiteralToUtf8_eq_some_iff rfl).mpr
      (Or.inl ⟨Char.ofNat 0x20AC, .single ⟨rfl, by decide, by decide⟩, by decide⟩),
    (utf16LiteralToUtf8_eq_some_iff rfl).mpr
      (Or.inr ⟨by decide, by decide, rfl, rfl⟩)⟩

end KernelTestkit.Json
