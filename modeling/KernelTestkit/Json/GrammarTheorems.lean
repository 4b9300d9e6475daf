/-
KernelTestkit.Json.GrammarTheorems — the reader accepts the grammar.

Every JSON text is read as what it denotes, and what is behind it is left
(`readValue_complete`). A number is the only value that does not show where it
ends: it must not be followed by a byte of a number.
-/
import KernelTestkit.Json.Grammar
import KernelTestkit.Json.NumberTheorems
import KernelTestkit.Json.ParseTheorems

namespace KernelTestkit.Json

open KernelTestkit.Lib
open KernelTestkit.Api (CString cstringOf)

variable {t out rest ws : List UInt8}

/-! ## Blanks -/

theorem skipBlanks_append (h : Blanks ws) (t : List UInt8) :
    skipBlanks (ws ++ t) = skipBlanks t := by
  refine List.dropWhile_append_of_pos fun b hb => ?_
  rcases h b hb with rfl | rfl | rfl | rfl
  · rfl
  · rfl
  · rfl
  · rfl

theorem skipBlanks_cons {b : UInt8} (h : 32 < b) (bs : List UInt8) :
    skipBlanks (b :: bs) = b :: bs :=
  List.dropWhile_cons_of_neg (by simpa using h)

/-! ## Strings -/

/-- Bytes that are no part of an escape. -/
theorem closingQuote_append : ∀ {ds : List UInt8}, (∀ b ∈ ds, b ≠ quote ∧ b ≠ backslash) →
    rest ≠ [] →
    closingQuote (ds ++ rest) = (closingQuote rest).map fun (n, skipped) => (n + ds.length, skipped)
  | [], _, _ => by simp
  | b :: ds, hds, hrest => by
      obtain ⟨hq, hb⟩ := hds b List.mem_cons_self
      have ih := closingQuote_append (fun b h => hds b (List.mem_cons_of_mem _ h)) hrest
      cases hcons : ds ++ rest with
      | nil => exact absurd (List.append_eq_nil_iff.mp hcons).2 hrest
      | cons c cs =>
          rw [List.cons_append, hcons, closingQuote, if_neg hq, if_neg hb, ← hcons, ih,
            Option.map_map]
          rfl

/-- Hexadecimal digits are no part of an escape. -/
theorem plain_of_hex4 {ds : List UInt8} {n : Nat} (hlength : ds.length = 4) (h : hex4 ds = some n) :
    ∀ b ∈ ds, b ≠ quote ∧ b ≠ backslash := by
  have hall : ∀ (bs : List UInt8) (k n : Nat),
      bs.foldlM (fun h b => (hexDigit b).map (h <<< 4 + ·)) k = some n →
      ∀ b ∈ bs, hexDigit b ≠ none := by
    intro bs
    induction bs with
    | nil => exact fun _ _ _ b hb => absurd hb List.not_mem_nil
    | cons c cs ih =>
        intro k n hfold
        rw [List.foldlM_cons] at hfold
        obtain ⟨k', hdigit, hrest⟩ := Option.bind_eq_some_iff.mp hfold
        obtain ⟨d, hd, -⟩ := Option.map_eq_some_iff.mp hdigit
        exact List.forall_mem_cons.mpr ⟨by simp [hd], ih k' n hrest⟩
  rw [hex4, List.take_of_length_le (Nat.le_of_eq hlength)] at h
  intro b hb
  have hdigit := hall ds 0 n h b hb
  constructor
  · rintro rfl
    exact hdigit rfl
  · rintro rfl
    exact hdigit rfl

/-- The first loop finds the end of a string. -/
theorem closingQuote_chars (h : Chars t out) (rest : List UInt8) :
    ∃ skipped, closingQuote (t ++ quote :: rest) = some (t.length, skipped) := by
  have hcode : ∀ {ds t : List UInt8} {n : Nat}, ds.length = 4 → hex4 ds = some n →
      (∃ skipped, closingQuote (t ++ quote :: rest) = some (t.length, skipped)) →
      ∃ skipped, closingQuote (backslash :: ascii 'u' :: (ds ++ t) ++ quote :: rest)
        = some ((ds ++ t).length + 2, skipped) := by
    rintro ds t n hlength hhex ⟨skipped, ih⟩
    refine ⟨skipped + 1, ?_⟩
    rw [List.cons_append, List.cons_append, closingQuote, if_neg (by decide), if_pos rfl,
      List.append_assoc, closingQuote_append (plain_of_hex4 hlength hhex) (by simp), ih,
      List.length_append]
    simp [Nat.add_comm]
  induction h with
  | nil =>
      cases rest with
      | nil => exact ⟨0, rfl⟩
      | cons c cs => exact ⟨0, rfl⟩
  | @plain b t out hlow hq hb _ ih =>
      obtain ⟨skipped, ih⟩ := ih
      have hplain : ∀ c ∈ [b], c ≠ quote ∧ c ≠ backslash := by
        rintro c hc
        rw [List.mem_singleton.mp hc]
        exact ⟨hq, hb⟩
      refine ⟨skipped, ?_⟩
      have happend := closingQuote_append hplain (show t ++ quote :: rest ≠ [] by simp)
      rw [ih] at happend
      exact happend
  | @escape c e t out he _ ih =>
      obtain ⟨skipped, ih⟩ := ih
      refine ⟨skipped + 1, ?_⟩
      rw [List.cons_append, List.cons_append, closingQuote, if_neg (by decide), if_pos rfl, ih]
      rfl
  | code hlength hhex _ ih => exact hcode hlength hhex ih
  | @pair ds ds' t out c _ hlength hhex hlength' hhex' _ ih =>
      exact hcode hlength hhex (hcode hlength' hhex' ih)

/-- Four digits behind `\u` are an escape, whatever follows. -/
theorem escapeOf_append {ds : List UInt8} {n : Nat} (hlength : ds.length = 4)
    (h : hex4 ds = some n) (t : List UInt8) :
    EscapeOf (backslash :: ascii 'u' :: (ds ++ t)) n where
  mark := rfl
  length := by
    simp only [List.length_cons, List.length_append]
    omega
  digits := by
    have htake : (ds ++ t).take 4 = ds.take 4 := List.take_append_of_le_length (by omega)
    rw [List.drop_succ_cons, List.drop_succ_cons, List.drop_zero, hex4, htake, ← hex4, h]

/-- The second loop writes the bytes of a string. -/
theorem unescape_chars (h : Chars t out) : unescape t = some out := by
  have hu : simpleEscape (ascii 'u') = none := by decide
  induction h with
  | nil => rw [unescape]
  | @plain b t out _ _ hb _ ih =>
      cases t with
      | nil =>
          have hnil : unescape [] = some [] := by rw [unescape]
          rw [hnil] at ih
          rw [unescape, if_neg hb, ← Option.some.inj ih]
      | cons c cs => rw [unescape, if_pos hb, ih, Option.map_some]
  | @escape c e t out he _ ih =>
      rw [unescape, if_neg (by simp), he, ih]
      rfl
  | @code ds t out c hlength hhex _ ih =>
      have hliteral : utf16LiteralToUtf8 (backslash :: ascii 'u' :: (ds ++ t))
          = some (6, String.utf8EncodeChar c) :=
        utf16LiteralToUtf8_of_denotes (.single (escapeOf_append hlength hhex t))
      have hdrop : (ds ++ t).drop (6 - 2) = t := by
        rw [List.drop_append_of_le_length (by omega), List.drop_eq_nil_of_le (by omega),
          List.nil_append]
      rw [unescape, if_neg (by simp), hu]
      dsimp only
      rw [if_neg (by simp), hliteral]
      dsimp only
      rw [hdrop, ih]
      rfl
  | @pair ds ds' t out c hlarge hlength hhex hlength' hhex' _ ih =>
      have hdrop : ∀ {xs ys : List UInt8}, xs.length = 4 → (xs ++ ys).drop 4 = ys := by
        intro xs ys hxs
        rw [List.drop_append_of_le_length (by omega), List.drop_eq_nil_of_le (by omega),
          List.nil_append]
      have hliteral : utf16LiteralToUtf8
          (backslash :: ascii 'u' :: (ds ++ backslash :: ascii 'u' :: (ds' ++ t)))
          = some (12, String.utf8EncodeChar c) := by
        have hsecond :
            (backslash :: ascii 'u' :: (ds ++ backslash :: ascii 'u' :: (ds' ++ t))).drop 6
              = backslash :: ascii 'u' :: (ds' ++ t) := hdrop hlength
        refine utf16LiteralToUtf8_of_denotes (.pair hlarge (escapeOf_append hlength hhex _) ?_)
        rw [hsecond]
        exact escapeOf_append hlength' hhex' t
      have hrest : (ds ++ backslash :: ascii 'u' :: (ds' ++ t)).drop (12 - 2) = t := by
        have hten : ∀ xs : List UInt8, xs.drop 10 = ((xs.drop 4).drop 2).drop 4 := by
          intro xs
          rw [List.drop_drop, List.drop_drop]
        rw [hten, hdrop hlength]
        exact hdrop hlength'
      rw [unescape, if_neg (by simp), hu]
      dsimp only
      rw [if_neg (by simp), hliteral]
      dsimp only
      rw [hrest, ih]
      rfl

theorem readString_chars (h : Chars t out) (rest : List UInt8) :
    readString (quote :: (t ++ quote :: rest)) = some (cstringOf out, rest) := by
  obtain ⟨skipped, hclose⟩ := closingQuote_chars h rest
  have hdrop : (t ++ quote :: rest).drop (t.length + 1) = rest := by
    rw [← List.drop_drop, List.drop_left]
    rfl
  rw [readString, if_neg (by simp), hclose]
  simp only [List.take_left, unescape_chars h, hdrop, Option.map_some]

/-! ## Numbers -/

/-- What may be behind a number. -/
def Follows (rest : List UInt8) : Prop := ∀ b ∈ rest.head?, isNumberByte b = false

theorem isNumberByte_of_isNumberByte {b : UInt8} (h : IsNumberByte b) : isNumberByte b = true := by
  unfold isNumberByte
  rcases h with h | rfl | rfl | rfl | h
  · have hdigit := (isDigit_iff b).mp h
    simp [hdigit]
  · rfl
  · rfl
  · rfl
  · rcases List.mem_pair.mp h with rfl | rfl
    · rfl
    · rfl

theorem numberCString_append {bs : List UInt8} (hbytes : ∀ b ∈ bs, isNumberByte b = true)
    (hlength : bs.length ≤ 63) (hrest : Follows rest) : numberCString (bs ++ rest) = bs := by
  rw [numberCString, List.take_append, List.take_of_length_le hlength,
    List.takeWhile_append_of_pos hbytes]
  have hnone : (rest.take (63 - bs.length)).takeWhile isNumberByte = [] := by
    cases rest with
    | nil => simp
    | cons b bs' =>
        cases 63 - bs.length with
        | zero => rfl
        | succ k => simp [hrest b rfl]
  rw [hnone, List.append_nil]

theorem readNumber_text {s : Bool} {q : ℚ} (h : NumberText t q)
    (hlength : (signedText s t).length ≤ 63) (hrest : Follows rest) :
    readNumber (signedText s t ++ rest) = some (Double.round s q, rest) := by
  have hbytes : ∀ b ∈ signedText s t, isNumberByte b = true := by
    have ht : ∀ b ∈ t, isNumberByte b = true := fun b hb =>
      isNumberByte_of_isNumberByte (isNumberByte_of h b hb)
    unfold signedText
    split
    · exact List.forall_mem_cons.mpr ⟨by decide, ht⟩
    · exact ht
  have hpos : 0 < (signedText s t).length := by
    obtain ⟨b, bs, rfl, _⟩ := head_of h
    unfold signedText
    split
    · exact Nat.succ_pos _
    · exact Nat.succ_pos _
  obtain ⟨n, hn⟩ := Nat.exists_eq_add_one_of_ne_zero (Nat.pos_iff_ne_zero.mp hpos)
  rw [readNumber, numberCString_append hbytes hlength hrest, strtod_signedText h, hn]
  simp only
  rw [← hn, List.drop_left]

/-! ## Containers -/

/-- What is behind a value inside a container: a byte that is no blank and no part
of a number. -/
def Stops (rest : List UInt8) : Prop := ∃ b bs, rest = b :: bs ∧ 32 < b ∧ isNumberByte b = false

theorem Stops.follows (h : Stops rest) (hws : Blanks ws) : Follows (ws ++ rest) := by
  obtain ⟨b, bs, rfl, _, hb⟩ := h
  intro c hc
  cases ws with
  | nil =>
      obtain rfl := Option.mem_some_iff.mp hc
      exact hb
  | cons d ds =>
      obtain rfl := Option.mem_some_iff.mp hc
      rcases hws d List.mem_cons_self with rfl | rfl | rfl | rfl
      · rfl
      · rfl
      · rfl
      · rfl

theorem Stops.skipBlanks (h : Stops rest) : skipBlanks rest = rest := by
  obtain ⟨b, bs, rfl, hb, _⟩ := h
  exact skipBlanks_cons hb bs

theorem skipBlanks_idem (bs : List UInt8) : skipBlanks (skipBlanks bs) = skipBlanks bs :=
  List.dropWhile_idempotent _ bs

theorem readElements_skipBlanks (read : Reader Item) (fuel : Nat) (bs : List UInt8) :
    readElements read fuel (skipBlanks bs) = readElements read fuel bs := by
  cases fuel with
  | zero => rfl
  | succ fuel => rw [readElements, readElements, skipBlanks_idem]

theorem readMembers_skipBlanks (read : Reader Item) (fuel : Nat) (bs : List UInt8) :
    readMembers read fuel (skipBlanks bs) = readMembers read fuel bs := by
  cases fuel with
  | zero => rfl
  | succ fuel => rw [readMembers, readMembers, skipBlanks_idem]

/-- A value begins with a byte that is no blank and closes nothing. -/
theorem head_value {n : Nat} {item : Item} (h : Value Blanks n t item) :
    ∃ b bs, t = b :: bs ∧ 32 < b ∧ b ≠ ascii ']' ∧ b ≠ ascii '}' := by
  cases h with
  | null => exact ⟨ascii 'n', _, rfl, by decide⟩
  | false => exact ⟨ascii 'f', _, rfl, by decide⟩
  | true => exact ⟨ascii 't', _, rfl, by decide⟩
  | @number n s t q hnumber =>
      obtain ⟨b, bs, rfl, hdigit⟩ := head_of hnumber
      cases s with
      | true => exact ⟨ascii '-', _, rfl, by decide⟩
      | false =>
          have hlow := (isDigit_iff b).mp hdigit
          refine ⟨b, bs, rfl, UInt8.lt_of_lt_of_le (by decide : (32 : UInt8) < 48) hlow.1, ?_, ?_⟩
          · rintro rfl
            exact absurd hlow (by decide)
          · rintro rfl
            exact absurd hlow (by decide)
  | string => exact ⟨_, _, rfl, by decide⟩
  | emptyArray => exact ⟨_, _, rfl, by decide⟩
  | array => exact ⟨_, _, rfl, by decide⟩
  | emptyObject => exact ⟨_, _, rfl, by decide⟩
  | object => exact ⟨_, _, rfl, by decide⟩

/-- A value is not of one of the three words. -/
theorem readValueWith_cons {array : Reader (List Item)} {object : Reader (List (CString × Item))}
    {b : UInt8} (hn : b ≠ ascii 'n') (hf : b ≠ ascii 'f') (ht : b ≠ ascii 't') (bs : List UInt8) :
    readValueWith array object (b :: bs) =
      if b = quote then readString.map .string (b :: bs)
      else if b = ascii '-' ∨ ascii '0' ≤ b ∧ b ≤ ascii '9' then
        readNumber.map .number (b :: bs)
      else if b = ascii '[' then array.map .array (b :: bs)
      else if b = ascii '{' then object.map .object (b :: bs)
      else none := by
  have hword : ∀ {c : UInt8} {word : List UInt8}, b ≠ c →
      (c :: word).isPrefixOf (b :: bs) = false := by
    intro c word hc
    have hbeq : (c == b) = false := beq_eq_false_iff_ne.mpr hc.symm
    rw [List.isPrefixOf, hbeq, Bool.false_and]
  have hnull : (literal "null").isPrefixOf (b :: bs) = false := hword hn
  have hfalse : (literal "false").isPrefixOf (b :: bs) = false := hword hf
  have htrue : (literal "true").isPrefixOf (b :: bs) = false := hword ht
  unfold readValueWith
  rw [hnull, hfalse, htrue]
  simp

theorem readChildren_empty {α : Type} {close : UInt8} (loop : Nat → Reader (List α))
    (hclose : 32 < close) (hws : Blanks ws) (rest : List UInt8) :
    readChildren close loop (ws ++ close :: rest) = some ([], rest) := by
  rw [readChildren, skipBlanks_append hws, skipBlanks_cons hclose, readByte, if_pos rfl]

theorem readChildren_of {α : Type} {close b : UInt8} {bs : List UInt8}
    {loop : Nat → Reader (List α)} {children : List α}
    (hhead : skipBlanks (t ++ close :: rest) = b :: bs) (hb : b ≠ close)
    (hloop : loop ((t ++ close :: rest).length + 1) (b :: bs) = some (children, close :: rest)) :
    readChildren close loop (t ++ close :: rest) = some (children, rest) := by
  rw [readChildren, hhead, readByte, if_neg hb]
  dsimp only
  rw [hloop]
  dsimp only
  rw [readByte, if_pos rfl]
  rfl

theorem skipBlanks_element {n : Nat} {item : Item} (h : Element Blanks n t item)
    (rest : List UInt8) :
    ∃ b bs, skipBlanks (t ++ rest) = b :: bs ∧ b ≠ ascii ']' := by
  obtain ⟨hws, hvalue, _⟩ := h
  obtain ⟨b, bs, rfl, hb, hclose, _⟩ := head_value hvalue
  rw [List.append_assoc, skipBlanks_append hws, List.cons_append, List.cons_append,
    skipBlanks_cons hb]
  exact ⟨b, _, rfl, hclose⟩

theorem skipBlanks_elements {n : Nat} {items : List Item} (h : Elements Blanks n t items)
    (rest : List UInt8) : ∃ b bs, skipBlanks (t ++ rest) = b :: bs ∧ b ≠ ascii ']' := by
  cases h with
  | last h => exact skipBlanks_element h rest
  | more h _ =>
      rw [List.append_assoc]
      exact skipBlanks_element h _

theorem skipBlanks_member {n : Nat} {member : CString × Item} (h : Member Blanks n t member)
    (rest : List UInt8) : ∃ bs, skipBlanks (t ++ rest) = quote :: bs := by
  obtain ⟨hws, _, _, _⟩ := h
  rw [List.append_assoc, skipBlanks_append hws, List.cons_append, skipBlanks_cons (by decide)]
  exact ⟨_, rfl⟩

theorem skipBlanks_members {n : Nat} {members : List (CString × Item)}
    (h : Members Blanks n t members) (rest : List UInt8) :
    ∃ bs, skipBlanks (t ++ rest) = quote :: bs := by
  cases h with
  | last h => exact skipBlanks_member h rest
  | more h _ =>
      rw [List.append_assoc]
      exact skipBlanks_member h _

theorem length_elements : ∀ {n : Nat} {t : List UInt8} {items : List Item},
    Elements Blanks n t items → items.length ≤ t.length
  | _, _, _, .last (.mk _ hvalue _) => by
      obtain ⟨b, bs, rfl, _⟩ := head_value hvalue
      simp only [List.length_append, List.length_cons, List.length_nil]
      omega
  | _, _, _, .more _ h => by
      have ih := length_elements h
      simp only [List.length_append, List.length_cons]
      omega

theorem length_members : ∀ {n : Nat} {t : List UInt8} {members : List (CString × Item)},
    Members Blanks n t members → members.length ≤ t.length
  | _, _, _, .last (.mk _ _ _ _) => by
      simp only [List.length_append, List.length_cons, List.length_nil]
      omega
  | _, _, _, .more _ h => by
      have ih := length_members h
      simp only [List.length_append, List.length_cons]
      omega

/-! ## Values -/

theorem readValue_eq (n : Nat) : ∃ array object, readValue n = readValueWith array object := by
  cases n with
  | zero => exact ⟨_, _, rfl⟩
  | succ n => exact ⟨_, _, rfl⟩

theorem stops_comma (bs : List UInt8) : Stops (ascii ',' :: bs) :=
  ⟨_, _, rfl, by decide, by decide⟩

mutual

/-- **The reader accepts the grammar.** -/
theorem readValue_complete : ∀ {n : Nat} {t : List UInt8} {item : Item}, Value Blanks n t item →
    ∀ {rest : List UInt8}, Follows rest → readValue n (t ++ rest) = some (item, rest)
  | n, _, _, .null, rest, _ => by
      obtain ⟨array, object, heq⟩ := readValue_eq n
      rw [heq]
      rfl
  | n, _, _, .false, rest, _ => by
      obtain ⟨array, object, heq⟩ := readValue_eq n
      rw [heq]
      rfl
  | n, _, _, .true, rest, _ => by
      obtain ⟨array, object, heq⟩ := readValue_eq n
      rw [heq]
      rfl
  | n, _, _, @Value.number _ _ s t q hnumber hlength, rest, hrest => by
      obtain ⟨array, object, heq⟩ := readValue_eq n
      obtain ⟨b, bs, hcons, hb⟩ : ∃ b bs, signedText s t ++ rest = b :: bs ∧
          (b = ascii '-' ∨ ascii '0' ≤ b ∧ b ≤ ascii '9') := by
        obtain ⟨b, bs, rfl, hdigit⟩ := head_of hnumber
        cases s with
        | true => exact ⟨_, _, rfl, Or.inl rfl⟩
        | false => exact ⟨_, _, rfl, Or.inr ((isDigit_iff b).mp hdigit)⟩
      have hne : ∀ c : UInt8, (c = ascii '-' ∨ ascii '0' ≤ c ∧ c ≤ ascii '9' → False) → b ≠ c := by
        rintro c hc rfl
        exact hc hb
      rw [heq, hcons, readValueWith_cons (hne _ (by decide)) (hne _ (by decide))
        (hne _ (by decide)), if_neg (hne _ (by decide)), if_pos hb, ← hcons, Reader.map,
        readNumber_text hnumber hlength hrest]
      rfl
  | n, _, _, @Value.string _ _ t out h, rest, _ => by
      obtain ⟨array, object, heq⟩ := readValue_eq n
      rw [heq, List.cons_append, List.append_assoc, List.singleton_append,
        readValueWith_cons (by decide) (by decide) (by decide), if_pos rfl, Reader.map,
        readString_chars h]
      rfl
  | _, _, _, @Value.emptyArray _ n ws hws, rest, _ => by
      rw [readValue, List.cons_append, List.append_assoc, List.singleton_append,
        readValueWith_cons (by decide) (by decide) (by decide), if_neg (by decide),
        if_neg (by decide), if_pos rfl, Reader.map, readArray, readByte, if_pos rfl,
        Option.bind_some, readChildren_empty _ (by decide) hws]
      rfl
  | _, _, _, @Value.array _ n t items h, rest, _ => by
      have hlength := length_elements h
      obtain ⟨b, bs, hhead, hb⟩ := skipBlanks_elements h (ascii ']' :: rest)
      have hfuel : items.length ≤ (t ++ ascii ']' :: rest).length + 1 := by
        rw [List.length_append]
        omega
      have hstops : Stops (ascii ']' :: rest) := ⟨_, _, rfl, by decide, by decide⟩
      have hread := readElements_complete h hstops (by simp [ascii]) hfuel
      rw [← readElements_skipBlanks, hhead] at hread
      rw [readValue, List.cons_append, List.append_assoc, List.singleton_append,
        readValueWith_cons (by decide) (by decide) (by decide), if_neg (by decide),
        if_neg (by decide), if_pos rfl, Reader.map, readArray, readByte, if_pos rfl,
        Option.bind_some, readChildren_of hhead hb hread]
      rfl
  | _, _, _, @Value.emptyObject _ n ws hws, rest, _ => by
      rw [readValue, List.cons_append, List.append_assoc, List.singleton_append,
        readValueWith_cons (by decide) (by decide) (by decide), if_neg (by decide),
        if_neg (by decide), if_neg (by decide), if_pos rfl, Reader.map, readObject, readByte,
        if_pos rfl, Option.bind_some, readChildren_empty _ (by decide) hws]
      rfl
  | _, _, _, @Value.object _ n t members h, rest, _ => by
      have hlength := length_members h
      obtain ⟨bs, hhead⟩ := skipBlanks_members h (ascii '}' :: rest)
      have hfuel : members.length ≤ (t ++ ascii '}' :: rest).length + 1 := by
        rw [List.length_append]
        omega
      have hstops : Stops (ascii '}' :: rest) := ⟨_, _, rfl, by decide, by decide⟩
      have hread := readMembers_complete h hstops (by simp [ascii]) hfuel
      rw [← readMembers_skipBlanks, hhead] at hread
      rw [readValue, List.cons_append, List.append_assoc, List.singleton_append,
        readValueWith_cons (by decide) (by decide) (by decide), if_neg (by decide),
        if_neg (by decide), if_neg (by decide), if_pos rfl, Reader.map, readObject, readByte,
        if_pos rfl, Option.bind_some, readChildren_of hhead (by decide) hread]
      rfl

theorem readValue_element : ∀ {n : Nat} {t : List UInt8} {item : Item}, Element Blanks n t item →
    ∀ {rest : List UInt8}, Stops rest →
      ∃ rest', readValue n (skipBlanks (t ++ rest)) = some (item, rest') ∧ skipBlanks rest' = rest
  | _, _, _, @Element.mk _ n ws t ws' item hws hvalue hws', rest, hrest => by
      obtain ⟨b, bs, hcons, hb, _⟩ := head_value hvalue
      refine ⟨ws' ++ rest, ?_, (skipBlanks_append hws' rest).trans hrest.skipBlanks⟩
      have hskip : skipBlanks (ws ++ (t ++ ws') ++ rest) = t ++ (ws' ++ rest) := by
        rw [List.append_assoc, skipBlanks_append hws, hcons, List.cons_append, List.cons_append,
          skipBlanks_cons hb, List.cons_append, List.append_assoc]
      rw [hskip]
      exact readValue_complete hvalue (hrest.follows hws')

theorem readElements_complete : ∀ {n : Nat} {t : List UInt8} {items : List Item},
    Elements Blanks n t items → ∀ {rest : List UInt8} {fuel : Nat}, Stops rest →
      rest.head? ≠ some (ascii ',') → items.length ≤ fuel →
      readElements (readValue n) fuel (t ++ rest) = some (items, rest)
  | _, _, _, @Elements.last _ n t item h, rest, fuel, hrest, hcomma, hfuel => by
      obtain ⟨fuel, rfl⟩ := Nat.exists_eq_add_of_le' hfuel
      obtain ⟨rest', hread, hskip⟩ := readValue_element h hrest
      rw [List.length_singleton, readElements, hread]
      dsimp only
      rw [hskip, readByte_eq_none.mpr hcomma]
  | _, _, _, @Elements.more _ n t ts item items h hs, rest, fuel, hrest, hcomma, hfuel => by
      obtain ⟨fuel, rfl⟩ := Nat.exists_eq_add_of_le' (Nat.one_le_of_lt hfuel)
      obtain ⟨rest', hread, hskip⟩ := readValue_element h (stops_comma (ts ++ rest))
      have ih := readElements_complete hs hrest hcomma (Nat.le_of_succ_le_succ hfuel)
      rw [List.append_assoc, List.cons_append, readElements, hread]
      dsimp only
      rw [hskip, readByte, if_pos rfl]
      simp only [Reader.map, ih, Option.map_some]

/-- A round of the loop over members. -/
theorem readMembers_member : ∀ {n : Nat} {t : List UInt8} {member : CString × Item},
    Member Blanks n t member → ∀ {rest : List UInt8}, Stops rest → ∀ fuel : Nat,
      readMembers (readValue n) (fuel + 1) (t ++ rest) = match readByte (ascii ',') rest with
        | some bs => Reader.map (member :: ·) (readMembers (readValue n) fuel) bs
        | none => some ([member], rest)
  | _, _, _, @Member.mk _ n ws t ws' out ts item hws hchars hws' h, rest, hrest, fuel => by
      obtain ⟨rest', hread, hskip⟩ := readValue_element h hrest
      have hname : skipBlanks (ws ++ (quote :: (t ++ quote :: (ws' ++ ascii ':' :: ts))) ++ rest)
          = quote :: (t ++ quote :: (ws' ++ ascii ':' :: (ts ++ rest))) := by
        rw [List.append_assoc, skipBlanks_append hws, List.cons_append,
          skipBlanks_cons (by decide)]
        simp
      have hcolon : skipBlanks (ws' ++ ascii ':' :: (ts ++ rest)) = ascii ':' :: (ts ++ rest) := by
        rw [skipBlanks_append hws', skipBlanks_cons (by decide)]
      rw [readMembers, hname, readString_chars hchars]
      dsimp only
      rw [hcolon, readByte, if_pos rfl]
      dsimp only
      rw [hread]
      dsimp only
      cases hcomma : readByte (ascii ',') rest with
      | none => rw [hskip, hcomma]
      | some bs => rw [hskip, hcomma]

theorem readMembers_complete : ∀ {n : Nat} {t : List UInt8} {members : List (CString × Item)},
    Members Blanks n t members → ∀ {rest : List UInt8} {fuel : Nat}, Stops rest →
      rest.head? ≠ some (ascii ',') → members.length ≤ fuel →
      readMembers (readValue n) fuel (t ++ rest) = some (members, rest)
  | _, _, _, @Members.last _ n t member h, rest, fuel, hrest, hcomma, hfuel => by
      obtain ⟨fuel, rfl⟩ := Nat.exists_eq_add_of_le' hfuel
      rw [List.length_singleton, readMembers_member h hrest, readByte_eq_none.mpr hcomma]
  | _, _, _, @Members.more _ n t ts member members h hs, rest, fuel, hrest, hcomma, hfuel => by
      obtain ⟨fuel, rfl⟩ := Nat.exists_eq_add_of_le' (Nat.one_le_of_lt hfuel)
      have ih := readMembers_complete hs hrest hcomma (Nat.le_of_succ_le_succ hfuel)
      rw [List.append_assoc, List.cons_append, readMembers_member h (stops_comma (ts ++ rest)),
        readByte, if_pos rfl]
      simp only [Reader.map, ih, Option.map_some]

end

end KernelTestkit.Json
