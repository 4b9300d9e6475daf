/-
KernelTestkit.Json.ParseTheorems — the parser is its reader.

`ParseBuffer.before value bs` is the buffer whose text still has `bs` to read.
`Agrees p r`: from there the parser `p` fails where the reader `r` fails, and
otherwise builds what `r` reads and stops before what `r` leaves. It is a
result of the parser in both cases, so no read or write is out of bounds and
no loop runs out of fuel.

The block `parse_string` writes to is the delicate part. Its size counts a
byte for each escape of the text, as the first loop delimits them. The second
loop may delimit them differently, behind `\u` and fewer than four digits;
`room` is what the first loop would count from any byte on.
-/
import KernelTestkit.Json.Read

namespace KernelTestkit.Json

open KernelTestkit.Lib
open KernelTestkit.Api (CString cstringOf)

/-! ## The room for a string -/

/-- What the first loop counts from the front of a text. -/
def room : List UInt8 → Nat
  | [] => 0
  | [_] => 1
  | b :: c :: bs => if b = backslash then room bs + 1 else room (c :: bs) + 1

theorem room_cons_le : ∀ (b : UInt8) (bs : List UInt8), room bs ≤ room (b :: bs)
  | _, [] => Nat.zero_le _
  | b, [c] => by
      by_cases hb : b = backslash
      · simp [room, hb]
      · simp [room, hb]
  | b, c :: d :: bs => by
      by_cases hb : b = backslash
      · have ih := room_cons_le d bs
        by_cases hc : c = backslash
        · simp only [room, hb, hc, if_true]
          omega
        · simp only [room, hb, hc, if_true, if_false]
          omega
      · have heq : room (b :: c :: d :: bs) = room (c :: d :: bs) + 1 := if_neg hb
        omega

/-- Two bytes need a byte at least. -/
theorem room_cons_cons_le (b c : UInt8) (bs : List UInt8) : room bs + 1 ≤ room (b :: c :: bs) := by
  have hle := room_cons_le c bs
  rw [room]
  split
  · omega
  · omega

theorem room_drop_le : ∀ (k : Nat) (bs : List UInt8), 2 * k ≤ bs.length →
    room (bs.drop (2 * k)) + k ≤ room bs
  | 0, _, _ => by simp
  | _ + 1, [], h => by simp at h
  | _ + 1, [_], h => by
      simp only [List.length_singleton] at h
      omega
  | k + 1, b :: c :: bs, h => by
      have ih := room_drop_le k bs (by simp only [List.length_cons] at h; omega)
      have hle := room_cons_cons_le b c bs
      have hdrop : (b :: c :: bs).drop (2 * (k + 1)) = bs.drop (2 * k) := rfl
      rw [hdrop]
      omega

/-! ## The closing quote -/

/-- The first loop finds a quote, and its counts are the room up to it. -/
theorem closingQuote_eq_some : ∀ {bs : List UInt8} {n skipped : Nat},
    closingQuote bs = some (n, skipped) →
      ∃ rest, bs = bs.take n ++ quote :: rest ∧ (bs.take n).length = n ∧
        room (bs.take n) + skipped = n
  | [], _, _, h => by cases h
  | [b], n, skipped, h => by
      unfold closingQuote at h
      split at h
      · rename_i hb
        cases h
        exact ⟨[], by simp [hb], rfl, rfl⟩
      · cases h
  | b :: c :: bs, n, skipped, h => by
      unfold closingQuote at h
      split at h
      · rename_i hb
        cases h
        exact ⟨c :: bs, by simp [hb], rfl, rfl⟩
      split at h
      · rename_i hb
        obtain ⟨⟨m, k⟩, hm, heq⟩ := Option.map_eq_some_iff.mp h
        obtain ⟨rest, hsplit, hlength, hroom⟩ := closingQuote_eq_some hm
        obtain ⟨rfl, rfl⟩ := Prod.mk.inj heq
        refine ⟨rest, ?_, ?_, ?_⟩
        · rw [List.take_succ_cons, List.take_succ_cons, List.cons_append, List.cons_append,
            ← hsplit]
        · simp only [List.take_succ_cons, List.length_cons, hlength]
        · rw [List.take_succ_cons, List.take_succ_cons, room, if_pos hb]
          omega
      · rename_i hb
        obtain ⟨⟨m, k⟩, hm, heq⟩ := Option.map_eq_some_iff.mp h
        obtain ⟨rest, hsplit, hlength, hroom⟩ := closingQuote_eq_some hm
        obtain ⟨rfl, rfl⟩ := Prod.mk.inj heq
        refine ⟨rest, ?_, ?_, ?_⟩
        · rw [List.take_succ_cons, List.cons_append, ← hsplit]
        · simp only [List.take_succ_cons, List.length_cons, hlength]
        · rw [List.take_succ_cons]
          cases htake : (c :: bs).take m with
          | nil =>
              rw [htake] at hroom hlength
              simp only [room, List.length_nil] at hroom hlength ⊢
              omega
          | cons d ds =>
              rw [htake] at hroom
              rw [room, if_neg hb]
              omega

/-- The NUL behind a text is no part of a string. -/
theorem closingQuote_append_zero : ∀ bs : List UInt8, closingQuote (bs ++ [0]) = closingQuote bs
  | [] => rfl
  | [b] => by
      have hzero : closingQuote [0] = none := rfl
      by_cases hq : b = quote
      · simp [closingQuote, hq]
      by_cases hb : b = backslash
      · simp [closingQuote, hb, quote, backslash]
      · rw [List.singleton_append, closingQuote, closingQuote, if_neg hq, if_neg hb, if_neg hq,
          hzero, Option.map_none]
  | b :: c :: bs => by
      have ih := closingQuote_append_zero bs
      have ih' := closingQuote_append_zero (c :: bs)
      simp only [List.cons_append] at ih' ⊢
      rw [closingQuote, closingQuote, ih, ih']

/-! ## The second loop -/

/-- The character of escapes takes no more room than they do. -/
theorem room_escapes {bs bytes : List UInt8} {n : Nat}
    (h : utf16LiteralToUtf8 bs = some (n, bytes)) :
    2 ≤ n ∧ n ≤ bs.length ∧ room (bs.drop n) + bytes.length ≤ room bs := by
  obtain ⟨c, rfl, ⟨rfl, hlength, hcode⟩ | ⟨rfl, hlength, _⟩⟩ := utf16LiteralToUtf8_some h
  · have hroom : room (bs.drop 6) + 3 ≤ room bs := room_drop_le 3 bs hlength
    have hsmall := parseHex4_lt (bs.drop 2)
    have hsize : c.utf8Size ≤ 3 := by
      have hne : c.utf8Size ≠ 4 := by
        rw [Ne, Char.utf8Size_eq_four_iff, UInt32.lt_iff_toNat_lt]
        have hnat : c.val.toNat = c.toNat := rfl
        rw [hnat]
        simp only [UInt32.reduceToNat]
        omega
      have hle := c.utf8Size_le_four
      omega
    rw [String.length_utf8EncodeChar]
    exact ⟨by omega, hlength, by omega⟩
  · have hroom : room (bs.drop 12) + 6 ≤ room bs := room_drop_le 6 bs hlength
    have hle := c.utf8Size_le_four
    rw [String.length_utf8EncodeChar]
    exact ⟨by omega, hlength, by omega⟩

theorem put_eq {size : Nat} {output bytes : List UInt8}
    (h : output.length + bytes.length ≤ size) : put size output bytes = .ok (output ++ bytes) :=
  if_neg (by omega)

theorem read_eq {block : List UInt8} {i : Nat} {b : UInt8} (h : block[i]? = some b) :
    read block i = .ok b := by
  rw [read, h]

/-- **The second loop**, from any byte on: with room for what the first loop would
count, it writes what the text is without its escapes. -/
theorem decodeString_eq {content : List UInt8} {inputEnd : Nat} (size : Nat)
    (hend : content[inputEnd]? = some quote) :
    ∀ (fuel pointer : Nat) (output : List UInt8), inputEnd - pointer < fuel →
      output.length + room ((content.take inputEnd).drop pointer) + 1 ≤ size →
      ∃ p, decodeString content inputEnd size fuel pointer output
        = .ok ((unescape ((content.take inputEnd).drop pointer)).map (output ++ · ++ [0]), p) := by
  intro fuel
  induction fuel with
  | zero =>
      intro pointer output hfuel
      omega
  | succ fuel ih =>
      intro pointer output hfuel hsize
      have hlength : inputEnd < content.length := (List.getElem?_eq_some_iff.mp hend).1
      rw [decodeString]
      by_cases hstop : inputEnd ≤ pointer
      · -- the end of the text
        have hnil : (content.take inputEnd).drop pointer = [] :=
          List.drop_eq_nil_of_le (by rw [List.length_take]; omega)
        rw [hnil] at hsize ⊢
        rw [if_pos hstop, put_eq (by simpa [room] using hsize)]
        exact ⟨pointer, by simp [unescape, bind, Except.bind, pure, Except.pure]⟩
      rw [if_neg hstop]
      -- what every round does: `k` bytes are read, and `bytes` are written
      have hround : ∀ (k : Nat) (bytes : List UInt8), 0 < k →
          room (((content.take inputEnd).drop pointer).drop k) + bytes.length
            ≤ room ((content.take inputEnd).drop pointer) →
          put size output bytes = .ok (output ++ bytes) ∧
          ∃ p, decodeString content inputEnd size fuel (pointer + k) (output ++ bytes)
            = .ok (((unescape (((content.take inputEnd).drop pointer).drop k)).map
                (bytes ++ ·)).map (output ++ · ++ [0]), p) := by
        intro k bytes hk hroom
        refine ⟨put_eq (by omega), ?_⟩
        obtain ⟨p, hp⟩ := ih (pointer + k) (output ++ bytes) (by omega)
          (by rw [← List.drop_drop, List.length_append]; omega)
        refine ⟨p, hp.trans ?_⟩
        rw [List.drop_drop, Option.map_map]
        simp [Function.comp_def]
      have hget : ∀ (k : Nat) (d : UInt8), ((content.take inputEnd).drop pointer)[k]? = some d →
          content[pointer + k]? = some d := by
        intro k d hd
        rw [List.getElem?_drop, List.getElem?_take] at hd
        split at hd
        · exact hd
        · cases hd
      cases hbody : (content.take inputEnd).drop pointer with
      | nil =>
          have hzero := congrArg List.length hbody
          rw [List.length_drop, List.length_take] at hzero
          simp only [List.length_nil] at hzero
          omega
      | cons b bs =>
          rw [hbody] at hround hget
          have hb : read content pointer = .ok b := read_eq (hget 0 b rfl)
          rw [hb]
          dsimp only [bind, Except.bind]
          by_cases hplain : b ≠ backslash
          · -- a byte as it is
            rw [if_pos hplain]
            have hroom : room ((b :: bs).drop 1) + [b].length ≤ room (b :: bs) := by
              cases bs with
              | nil => exact Nat.le_refl 1
              | cons c cs => exact Nat.le_of_eq (if_neg hplain).symm
            obtain ⟨hput, p, hp⟩ := hround 1 [b] Nat.one_pos hroom
            rw [hput]
            refine ⟨p, hp.trans ?_⟩
            congr 2
            cases bs with
            | nil => simp [unescape, if_neg hplain]
            | cons c cs => simp [unescape, hplain]
          rw [if_neg hplain]
          obtain rfl : b = backslash := not_not.mp hplain
          cases bs with
          | nil =>
              -- the backslash in front of the closing quote
              have hlast : pointer + 1 = inputEnd := by
                have hone := congrArg List.length hbody
                rw [List.length_drop, List.length_take, List.length_singleton] at hone
                omega
              obtain ⟨hput, p, hp⟩ := hround 2 [quote] (by decide) (by decide)
              have hquote : simpleEscape quote = some quote := by decide
              rw [hlast, read_eq hend]
              dsimp only
              rw [hquote]
              dsimp only
              rw [hput]
              exact ⟨p, hp.trans (by simp [unescape])⟩
          | cons c cs =>
              rw [read_eq (hget 1 c rfl)]
              dsimp only
              rw [unescape, if_neg hplain]
              cases hsimple : simpleEscape c with
              | some e =>
                  have hroom : room ((backslash :: c :: cs).drop 2) + [e].length
                      ≤ room (backslash :: c :: cs) := room_cons_cons_le backslash c cs
                  obtain ⟨hput, p, hp⟩ := hround 2 [e] (by decide) hroom
                  dsimp only
                  rw [hput]
                  exact ⟨p, hp⟩
              | none =>
                  dsimp only
                  split
                  · exact ⟨pointer, rfl⟩
                  cases hliteral : utf16LiteralToUtf8 (backslash :: c :: cs) with
                  | none => exact ⟨pointer, rfl⟩
                  | some r =>
                      obtain ⟨n, bytes⟩ := r
                      obtain ⟨hn, _, hroom⟩ := room_escapes hliteral
                      obtain ⟨hput, p, hp⟩ := hround n bytes (by omega) hroom
                      obtain ⟨m, rfl⟩ := Nat.exists_eq_add_of_le' hn
                      dsimp only
                      rw [hput]
                      exact ⟨p, hp⟩

/-! ## The buffer -/

variable {α β : Type} {value : CString} {bs rest : List UInt8} {b : UInt8}

namespace ParseBuffer

/-- The buffer that has `bs` to read. -/
def before (value : CString) (bs : List UInt8) : ParseBuffer :=
  ⟨value, value.bytes.length - bs.length⟩

theorem content_before : (before value bs).content = value.bytes ++ [0] := rfl

theorem length_before : (before value bs).length = value.bytes.length + 1 := by
  rw [length, content_before, List.length_append, List.length_singleton]

theorem rest_before (h : bs <:+ value.bytes) : (before value bs).rest = bs ++ [0] := by
  have hdrop := List.suffix_iff_eq_drop.mp h
  rw [rest, content_before, before, List.drop_append_of_le_length (Nat.sub_le _ _), ← hdrop]

theorem isAt_before (h : bs <:+ value.bytes) (hb : b ≠ 0) :
    (before value bs).isAt b = decide (bs.head? = some b) := by
  rw [isAt, rest_before h]
  cases bs with
  | nil => simp [hb.symm]
  | cons c cs => rfl

theorem advance_before (h : bs <:+ value.bytes) {n : Nat} (hn : n ≤ bs.length) :
    (before value bs).advance n = before value (bs.drop n) := by
  have hle := h.length_le
  simp only [advance, before, List.length_drop]
  congr 1
  omega

theorem skipWhitespace_before (h : bs <:+ value.bytes) :
    (before value bs).skipWhitespace = before value (skipBlanks bs) := by
  have hle := h.length_le
  have hsplit := congrArg List.length (List.takeWhile_append_dropWhile (p := (· ≤ 32)) (l := bs))
  have hoffset : (before value bs).offset = value.bytes.length - bs.length := rfl
  rw [List.length_append] at hsplit
  rw [skipWhitespace, rest_before h, length_before]
  refine congrArg (ParseBuffer.mk value) ?_
  rw [skipBlanks]
  by_cases hall : bs.dropWhile (· ≤ 32) = []
  · -- the NUL is passed over, and the offset steps back to it
    have htake : (bs ++ [0]).takeWhile (· ≤ 32) = bs ++ [0] := by
      rw [List.takeWhile_append_of_pos (List.dropWhile_eq_nil_iff.mp hall)]
      rfl
    rw [htake, hall, List.length_append, List.length_singleton, if_pos (by omega),
      List.length_nil]
    omega
  · have htake : (bs ++ [0]).takeWhile (· ≤ 32) = bs.takeWhile (· ≤ 32) := by
      rw [List.takeWhile_append, if_neg]
      intro hlength
      rw [hlength] at hsplit
      exact hall (List.eq_nil_of_length_eq_zero (by omega))
    have hpos := List.length_pos_iff.mpr hall
    rw [htake, if_neg (by omega)]
    omega

theorem skipBlanks_suffix (bs : List UInt8) : skipBlanks bs <:+ bs := List.dropWhile_suffix _

end ParseBuffer

open ParseBuffer

theorem readByte_eq_some : readByte b bs = some rest ↔ bs = b :: rest := by
  cases bs with
  | nil => simp [readByte]
  | cons c cs =>
      by_cases hc : c = b
      · simp [readByte, hc]
      · simp [readByte, hc]

theorem readByte_eq_none : readByte b bs = none ↔ bs.head? ≠ some b := by
  cases bs with
  | nil => simp [readByte]
  | cons c cs =>
      by_cases hc : c = b
      · simp [readByte, hc]
      · simp [readByte, hc]

/-! ## Agreement -/

/-- The outcome of a parser at `bs` is the one of a reader. -/
def Agrees (value : CString) (bs : List UInt8) (x : Except Trap (Option α × ParseBuffer))
    (r : Option (α × List UInt8)) : Prop :=
  (∃ a rest, r = some (a, rest) ∧ rest <:+ bs ∧ x = .ok (some a, before value rest)) ∨
    (r = none ∧ ∃ buf, buf.value = value ∧ x = .ok (none, buf))

namespace Agrees

variable {x : Except Trap (Option α × ParseBuffer)} {r : Option (α × List UInt8)}

theorem read (a : α) (h : rest <:+ bs) :
    Agrees value bs (.ok (some a, before value rest)) (some (a, rest)) :=
  Or.inl ⟨a, rest, rfl, h, rfl⟩

theorem refused {buf : ParseBuffer} (h : buf.value = value) :
    Agrees value bs (.ok ((none : Option α), buf)) none :=
  Or.inr ⟨rfl, buf, h, rfl⟩

theorem weaken (h : Agrees value rest x r) (hsuffix : rest <:+ bs) : Agrees value bs x r := by
  rcases h with ⟨a, rest', hr, hrest, hx⟩ | hnone
  · exact Or.inl ⟨a, rest', hr, hrest.trans hsuffix, hx⟩
  · exact Or.inr hnone

theorem map (f : α → β) {p : Parser α} {q : Reader α} {buf : ParseBuffer}
    (h : Agrees value bs (p buf) (q bs)) :
    Agrees value bs (p.map f buf) (Reader.map f q bs) := by
  rcases h with ⟨a, rest, hr, hrest, hx⟩ | ⟨hr, buf', hbuf', hx⟩
  · exact Or.inl ⟨f a, rest, by simp [Reader.map, hr], hrest, by simp [Parser.map, hx, bind,
      Except.bind, pure, Except.pure]⟩
  · exact Or.inr ⟨by simp [Reader.map, hr], buf', hbuf', by simp [Parser.map, hx, bind, Except.bind,
      pure, Except.pure]⟩

end Agrees

/-! ## Strings and numbers -/

theorem content_getElem? (h : bs <:+ value.bytes) (k : Nat) :
    (before value bs).content[(before value bs).offset + k]? = (bs ++ [0])[k]? := by
  rw [← rest_before h, ParseBuffer.rest, List.getElem?_drop]

/-- The NUL behind the output ends the string; one in the output does so before. -/
theorem cstringOf_append_zero (bytes : List UInt8) :
    cstringOf (bytes ++ [0]) = cstringOf bytes := by
  refine Api.CString.ext_bytes ?_
  simp only [cstringOf]
  rw [List.takeWhile_append]
  split
  · rename_i hall
    rw [show ([0] : List UInt8).takeWhile (· != 0) = [] from rfl, List.append_nil]
    exact (List.takeWhile_prefix _).eq_of_length hall |>.symm
  · rfl

theorem parseString_agrees (h : bs <:+ value.bytes) :
    Agrees value bs (parseString (before value bs)) (readString bs) := by
  have hle := h.length_le
  have hhead : (before value bs).content[(before value bs).offset]? = (bs ++ [0])[0]? :=
    content_getElem? h 0
  unfold parseString
  cases bs with
  | nil =>
      rw [read_eq hhead]
      exact .refused rfl
  | cons b bs =>
      rw [read_eq hhead]
      dsimp only [bind, Except.bind]
      rw [readString]
      by_cases hb : b ≠ quote
      · rw [if_pos hb, if_pos hb]
        exact .refused rfl
      have hstart : (before value (b :: bs)).offset + 1 = value.bytes.length - bs.length := by
        have hoffset : (before value (b :: bs)).offset = value.bytes.length - (bs.length + 1) := rfl
        rw [List.length_cons] at hle
        omega
      have hsuffix : bs <:+ value.bytes := (List.suffix_cons b bs).trans h
      have htail := rest_before hsuffix
      rw [ParseBuffer.rest] at htail
      rw [if_neg hb, if_neg hb, hstart, content_before]
      change (value.bytes ++ [0]).drop (value.bytes.length - bs.length) = bs ++ [0] at htail
      rw [htail, closingQuote_append_zero]
      cases hclose : closingQuote bs with
      | none => exact .refused rfl
      | some r =>
          obtain ⟨n, skipped⟩ := r
          obtain ⟨rest, hsplit, hlength, hroom⟩ := closingQuote_eq_some hclose
          have hn : n < bs.length := by
            have hsum := congrArg List.length hsplit
            rw [List.length_append, List.length_cons, hlength] at hsum
            omega
          have hbody : ((value.bytes ++ [0]).take (value.bytes.length - bs.length + n)).drop
              (value.bytes.length - bs.length) = bs.take n := by
            rw [List.drop_take, htail, Nat.add_sub_cancel_left,
              List.take_append_of_le_length (by omega)]
          have hend : (value.bytes ++ [0])[value.bytes.length - bs.length + n]? = some quote := by
            rw [← List.getElem?_drop, htail, List.getElem?_append_left hn, hsplit,
              List.getElem?_append_right (by omega), hlength, Nat.sub_self]
            rfl
          obtain ⟨p, hp⟩ := decodeString_eq (n + 1 - skipped + 1) hend (n + 1)
            (value.bytes.length - bs.length) [] (by omega) (by
              rw [hbody, List.length_nil]
              omega)
          rw [hbody] at hp
          dsimp only
          rw [hp]
          cases unescape (bs.take n) with
          | none => exact .refused rfl
          | some bytes =>
              refine Or.inl ⟨cstringOf bytes, bs.drop (n + 1), rfl,
                (List.drop_suffix _ _).trans (List.suffix_cons _ _), ?_⟩
              have hoffset : value.bytes.length - bs.length + n + 1
                  = value.bytes.length - (bs.drop (n + 1)).length := by
                rw [List.length_drop]
                rw [List.length_cons] at hle
                omega
              simp only [Option.map_some, List.nil_append, cstringOf_append_zero, hoffset]
              rfl

theorem numberCString_append_zero (bs : List UInt8) :
    numberCString (bs ++ [0]) = numberCString bs := by
  unfold numberCString
  rw [List.take_append, List.takeWhile_append]
  split
  · rename_i hall
    have hzero : (([0] : List UInt8).take (63 - bs.length)).takeWhile isNumberByte = [] := by
      cases 63 - bs.length with
      | zero => rfl
      | succ k => rfl
    rw [hzero, List.append_nil]
    exact ((List.takeWhile_prefix _).eq_of_length hall).symm
  · rfl

theorem strtod_snd_le (bs : List UInt8) : (strtod bs).2 ≤ bs.length := by
  unfold strtod
  dsimp only
  split
  · exact Nat.zero_le _
  · exact Nat.sub_le _ _

theorem parseNumber_agrees (h : bs <:+ value.bytes) :
    Agrees value bs (parseNumber (before value bs)) (readNumber bs) := by
  unfold parseNumber readNumber
  rw [rest_before h, numberCString_append_zero]
  have hle := strtod_snd_le (numberCString bs)
  have htake : (numberCString bs).length ≤ bs.length :=
    (List.takeWhile_prefix _).length_le.trans (List.length_take_le' 63 bs)
  generalize strtod (numberCString bs) = r at hle ⊢
  obtain ⟨d, n⟩ := r
  cases n with
  | zero => exact .refused rfl
  | succ n =>
      dsimp only at hle ⊢
      rw [advance_before h (by omega)]
      exact .read d (List.drop_suffix _ _)

/-! ## Containers -/

theorem isAt_of_readByte_some (h : bs <:+ value.bytes) (hb : b ≠ 0)
    (hread : readByte b bs = some rest) :
    (before value bs).isAt b = true ∧ (before value bs).advance 1 = before value rest ∧
      rest <:+ bs := by
  obtain rfl := readByte_eq_some.mp hread
  exact ⟨(isAt_before h hb).trans (by simp), advance_before h (Nat.succ_pos _),
    List.suffix_cons b rest⟩

theorem isAt_of_readByte_none (h : bs <:+ value.bytes) (hb : b ≠ 0) (hread : readByte b bs = none) :
    (before value bs).isAt b = false := by
  rw [isAt_before h hb]
  exact decide_eq_false (readByte_eq_none.mp hread)

variable {parseItem : Parser Item} {readItem : Reader Item}

/-- The end of a round of a loop: a comma, and more, or the end of the loop. -/
theorem Agrees.comma {items : Parser (List α)} {reads : Reader (List α)} (a : α)
    (h : bs <:+ value.bytes)
    (hmore : ∀ rest, readByte (ascii ',') bs = some rest →
      Agrees value rest (items (before value bs)) (reads rest)) :
    Agrees value bs
      (if (before value bs).isAt (ascii ',') then
        Parser.map (a :: ·) items (before value bs) else .ok (some [a], before value bs))
      (match readByte (ascii ',') bs with
        | some rest => Reader.map (a :: ·) reads rest
        | none => some ([a], bs)) := by
  cases hread : readByte (ascii ',') bs with
  | some rest =>
      obtain ⟨hat, _, hrest⟩ := isAt_of_readByte_some h (by decide) hread
      rw [if_pos hat]
      exact ((hmore rest hread).map (a :: ·)).weaken hrest
  | none =>
      rw [isAt_of_readByte_none h (by decide) hread]
      exact .read [a] (List.suffix_refl bs)

/-- The rounds of a loop, which starts at the byte in front of a text. -/
def LoopAgrees (value : CString) (loop : Nat → Parser (List α)) (reads : Nat → Reader (List α)) :
    Prop :=
  ∀ (fuel : Nat) (bs : List UInt8) (buf : ParseBuffer), bs <:+ value.bytes →
    buf.advance 1 = before value bs → bs.length < fuel →
    Agrees value bs (loop fuel buf) (reads fuel bs)

theorem parseElements_agrees
    (hitem : ∀ bs, bs <:+ value.bytes →
      Agrees value bs (parseItem (before value bs)) (readItem bs)) :
    LoopAgrees value (parseElements parseItem) (readElements readItem)
  | 0, _, _, _, _, hfuel => absurd hfuel (Nat.not_lt_zero _)
  | fuel + 1, bs, buf, h, hbuf, hfuel => by
      have hblank := skipBlanks_suffix bs
      rw [parseElements, readElements, hbuf, skipWhitespace_before h]
      obtain ⟨item, rest, hr, hrest, hx⟩ | ⟨hr, buf', hbuf', hx⟩ := hitem _ (hblank.trans h)
      · rw [hx, hr]
        have hrest' := (skipBlanks_suffix rest).trans (hrest.trans hblank)
        dsimp only [bind, Except.bind]
        rw [skipWhitespace_before (hrest.trans (hblank.trans h))]
        refine (Agrees.comma item (hrest'.trans h) fun more hmore => ?_).weaken hrest'
        obtain ⟨_, hadvance, hsuffix⟩ := isAt_of_readByte_some (hrest'.trans h) (by decide) hmore
        have hlength := hrest'.length_le
        rw [readByte_eq_some.mp hmore, List.length_cons] at hlength
        exact parseElements_agrees hitem fuel more _ (hsuffix.trans (hrest'.trans h)) hadvance
          (by omega)
      · rw [hx, hr]
        exact .refused hbuf'

theorem parseMembers_agrees
    (hitem : ∀ bs, bs <:+ value.bytes →
      Agrees value bs (parseItem (before value bs)) (readItem bs)) :
    LoopAgrees value (parseMembers parseItem) (readMembers readItem)
  | 0, _, _, _, _, hfuel => absurd hfuel (Nat.not_lt_zero _)
  | fuel + 1, bs, buf, h, hbuf, hfuel => by
      have hblank := skipBlanks_suffix bs
      rw [parseMembers, readMembers, hbuf, skipWhitespace_before h]
      obtain ⟨name, rest, hr, hrest, hx⟩ | ⟨hr, buf', hbuf', hx⟩ :=
        parseString_agrees (hblank.trans h)
      · rw [hx, hr]
        have hrest' := (skipBlanks_suffix rest).trans (hrest.trans hblank)
        dsimp only [bind, Except.bind]
        rw [skipWhitespace_before (hrest.trans (hblank.trans h))]
        cases hcolon : readByte (ascii ':') (skipBlanks rest) with
        | none =>
            rw [isAt_of_readByte_none (hrest'.trans h) (by decide) hcolon]
            exact .refused rfl
        | some after =>
            obtain ⟨hat, hadvance, hafter⟩ :=
              isAt_of_readByte_some (hrest'.trans h) (by decide) hcolon
            have hafter' := hafter.trans hrest'
            rw [hat, if_neg (by simp), hadvance, skipWhitespace_before (hafter'.trans h)]
            dsimp only
            have hblank' := (skipBlanks_suffix after).trans hafter'
            obtain ⟨item, rest', hr', hrest'', hx'⟩ | ⟨hr', buf'', hbuf'', hx'⟩ :=
              hitem _ (hblank'.trans h)
            · rw [hx', hr']
              have hend := (skipBlanks_suffix rest').trans (hrest''.trans hblank')
              dsimp only
              rw [skipWhitespace_before (hrest''.trans (hblank'.trans h))]
              refine (Agrees.comma (name, item) (hend.trans h) fun more hmore => ?_).weaken hend
              obtain ⟨_, hadvance', hsuffix⟩ :=
                isAt_of_readByte_some (hend.trans h) (by decide) hmore
              have hlength := hend.length_le
              rw [readByte_eq_some.mp hmore, List.length_cons] at hlength
              exact parseMembers_agrees hitem fuel more _ (hsuffix.trans (hend.trans h)) hadvance'
                (by omega)
            · rw [hx', hr']
              exact .refused hbuf''
      · rw [hx, hr]
        exact .refused hbuf'

/-- Behind an opening bracket. -/
theorem parseChildren_agrees {close : UInt8} {loop : Nat → Parser (List α)}
    {reads : Nat → Reader (List α)} (hclose : close ≠ 0) (hloop : LoopAgrees value loop reads)
    (h : b :: bs <:+ value.bytes) :
    Agrees value bs (parseChildren close loop (before value (b :: bs)))
      (readChildren close reads bs) := by
  have hsuffix := (List.suffix_cons b bs).trans h
  have hblank := skipBlanks_suffix bs
  have hle := hblank.length_le
  have hle' := h.length_le
  rw [List.length_cons] at hle'
  have hoffset : (before value (skipBlanks bs)).offset
      = value.bytes.length - (skipBlanks bs).length := rfl
  unfold parseChildren readChildren
  rw [advance_before h (Nat.succ_pos _), List.drop_succ_cons, List.drop_zero]
  dsimp only
  rw [skipWhitespace_before hsuffix]
  cases hempty : readByte close (skipBlanks bs) with
  | some rest =>
      obtain ⟨hat, hadvance, hrest⟩ := isAt_of_readByte_some (hblank.trans hsuffix) hclose hempty
      dsimp only
      rw [if_pos hat, hadvance]
      exact .read [] (hrest.trans hblank)
  | none =>
      have hat := isAt_of_readByte_none (hblank.trans hsuffix) hclose hempty
      have hfuel : (before value bs).length - (before value bs).offset = bs.length + 1 := by
        have hinside : (before value bs).offset = value.bytes.length - bs.length := rfl
        rw [length_before]
        omega
      dsimp only
      rw [if_neg (by simp [hat]), if_neg (by rw [length_before]; omega), hfuel]
      have hfront : ParseBuffer.advance
          { before value (skipBlanks bs) with
              offset := (before value (skipBlanks bs)).offset - 1 } 1
            = before value (skipBlanks bs) := by
        refine congrArg (ParseBuffer.mk value) ?_
        dsimp only
        omega
      obtain ⟨children, rest, hr, hrest, hx⟩ | ⟨hr, buf', hbuf', hx⟩ :=
        hloop _ _ _ (hblank.trans hsuffix) hfront (Nat.lt_succ_of_le hle)
      · rw [hx, hr]
        have hrest' := hrest.trans hblank
        dsimp only [bind, Except.bind]
        cases hend : readByte close rest with
        | some after =>
            obtain ⟨hat, hadvance, hafter⟩ :=
              isAt_of_readByte_some (hrest'.trans hsuffix) hclose hend
            rw [if_neg (by simp [hat]), hadvance]
            exact .read children (hafter.trans hrest')
        | none =>
            rw [isAt_of_readByte_none (hrest'.trans hsuffix) hclose hend]
            exact .refused rfl
      · rw [hx, hr]
        exact .refused hbuf'

theorem parseArray_agrees
    (hitem : ∀ bs, bs <:+ value.bytes → Agrees value bs (parseItem (before value bs)) (readItem bs))
    (h : bs <:+ value.bytes) :
    Agrees value bs (parseArray parseItem (before value bs)) (readArray readItem bs) := by
  have hhead : (before value bs).content[(before value bs).offset]? = (bs ++ [0])[0]? :=
    content_getElem? h 0
  unfold parseArray readArray
  cases bs with
  | nil =>
      rw [read_eq hhead]
      exact .refused rfl
  | cons b bs =>
      rw [read_eq hhead]
      dsimp only [bind, Except.bind]
      by_cases hb : b = ascii '['
      · rw [if_neg (not_not.mpr hb), readByte, if_pos hb]
        exact (parseChildren_agrees (by decide) (parseElements_agrees hitem) h).weaken
          (List.suffix_cons b bs)
      · rw [if_pos hb, readByte, if_neg hb]
        exact .refused rfl

theorem parseObject_agrees
    (hitem : ∀ bs, bs <:+ value.bytes → Agrees value bs (parseItem (before value bs)) (readItem bs))
    (h : bs <:+ value.bytes) :
    Agrees value bs (parseObject parseItem (before value bs)) (readObject readItem bs) := by
  unfold parseObject readObject
  cases hopen : readByte (ascii '{') bs with
  | some inner =>
      obtain ⟨hat, _, hinner⟩ := isAt_of_readByte_some h (by decide) hopen
      obtain rfl := readByte_eq_some.mp hopen
      rw [if_neg (by simp [hat])]
      exact (parseChildren_agrees (by decide) (parseMembers_agrees hitem) h).weaken hinner
  | none =>
      rw [isAt_of_readByte_none h (by decide) hopen]
      exact .refused rfl

/-! ## Values -/

/-- The NUL is no byte of a word. -/
theorem isPrefixOf_append_zero : ∀ {word : List UInt8} (bs : List UInt8), 0 ∉ word →
    word.isPrefixOf (bs ++ [0]) = word.isPrefixOf bs
  | [], _, _ => by simp
  | b :: word, [], hword => by
      have hb : (b == 0) = false := by
        rw [beq_eq_false_iff_ne]
        rintro rfl
        exact hword List.mem_cons_self
      exact congrArg (· && word.isPrefixOf []) hb
  | b :: word, c :: bs, hword => by
      have ih := isPrefixOf_append_zero bs (List.not_mem_of_not_mem_cons hword)
      simp only [List.cons_append, List.isPrefixOf, ih]

theorem hasPrefix_before (h : bs <:+ value.bytes) {word : List UInt8} (hword : 0 ∉ word) :
    (before value bs).hasPrefix word = word.isPrefixOf bs := by
  rw [hasPrefix, rest_before h, isPrefixOf_append_zero bs hword]

/-- A word that is there. -/
theorem word_agrees (h : bs <:+ value.bytes) {word : List UInt8} (hword : word.isPrefixOf bs = true)
    (item : Item) {n : Nat} (hn : word.length = n) :
    Agrees value bs (.ok (some item, (before value bs).advance n)) (some (item, bs.drop n)) := by
  have hle := (List.isPrefixOf_iff_prefix.mp hword).length_le
  rw [advance_before h (hn ▸ hle)]
  exact .read item (List.drop_suffix n bs)

theorem parseValueWith_agrees {array : Parser (List Item)} {object : Parser (List (CString × Item))}
    {array' : Reader (List Item)} {object' : Reader (List (CString × Item))}
    (harray : ∀ bs, bs <:+ value.bytes → Agrees value bs (array (before value bs)) (array' bs))
    (hobject : ∀ bs, bs <:+ value.bytes → Agrees value bs (object (before value bs)) (object' bs))
    (h : bs <:+ value.bytes) :
    Agrees value bs (parseValueWith array object (before value bs))
      (readValueWith array' object' bs) := by
  have hany : (before value bs).rest.head?.any
      (fun b => b = ascii '-' ∨ ascii '0' ≤ b ∧ b ≤ ascii '9') = bs.head?.any
      fun b => b = ascii '-' ∨ ascii '0' ≤ b ∧ b ≤ ascii '9' := by
    rw [rest_before h]
    cases bs with
    | nil => rfl
    | cons b bs => rfl
  unfold parseValueWith readValueWith
  rw [hasPrefix_before h (by decide), hasPrefix_before h (by decide),
    hasPrefix_before h (by decide), isAt_before h (by decide), hany, isAt_before h (by decide),
    isAt_before h (by decide)]
  simp only [decide_eq_true_eq]
  split
  · rename_i hword
    exact word_agrees h hword .null rfl
  split
  · rename_i hword
    exact word_agrees h hword .false rfl
  split
  · rename_i hword
    exact word_agrees h hword .true rfl
  split
  · exact (parseString_agrees h).map Item.string
  split
  · exact (parseNumber_agrees h).map Item.number
  split
  · exact (harray bs h).map Item.array
  split
  · exact (hobject bs h).map Item.object
  · exact .refused rfl

theorem parseValue_agrees (value : CString) : ∀ (levels : Nat) (bs : List UInt8),
    bs <:+ value.bytes →
      Agrees value bs (parseValue levels (before value bs)) (readValue levels bs)
  | 0, _, h => parseValueWith_agrees (fun _ _ => .refused rfl) (fun _ _ => .refused rfl) h
  | levels + 1, _, h =>
      parseValueWith_agrees (fun _ => parseArray_agrees (parseValue_agrees value levels))
        (fun _ => parseObject_agrees (parseValue_agrees value levels)) h

/-- **The parser and the reader**: no access of the parser is out of bounds and
every loop ends; it builds what the text reads as, it puts the error inside the
text, and where it stops the rest of the text begins. -/
theorem cjsonParseWithOpts_eq (value : CString) (requireNullTerminated : Bool) :
    ∃ position, position ≤ value.bytes.length ∧
      cjsonParseWithOpts value requireNullTerminated
        = .ok (readDocument requireNullTerminated value.bytes, position) ∧
      ∀ item rest, requireNullTerminated = false → readText value.bytes = some (item, rest) →
        value.bytes.drop position = rest := by
  have hself := List.suffix_refl value.bytes
  have hstart : ParseBuffer.mk value 0 = before value value.bytes := by
    rw [before, Nat.sub_self]
  have hblank := skipBlanks_suffix value.bytes
  have hclamp : ∀ buf : ParseBuffer, buf.value = value →
      (if buf.offset < buf.length then buf.offset else buf.length - 1) ≤ value.bytes.length := by
    rintro buf rfl
    have hlength : buf.length = buf.value.bytes.length + 1 := by
      rw [ParseBuffer.length, ParseBuffer.content, List.length_append, List.length_singleton]
    split
    · omega
    · omega
  unfold cjsonParseWithOpts readDocument readText
  rw [hstart, skipWhitespace_before hself]
  obtain ⟨item, rest, hr, hrest, hx⟩ | ⟨hr, buf, hbuf, hx⟩ :=
    parseValue_agrees value CJSON_NESTING_LIMIT _ hblank
  · have hrest' := hrest.trans hblank
    rw [hx, hr]
    dsimp only [bind, Except.bind]
    cases requireNullTerminated with
    | false =>
        refine ⟨(before value rest).offset, Nat.sub_le _ _, by simp [pure, Except.pure], ?_⟩
        rintro item' rest' - heq
        obtain ⟨-, rfl⟩ := Prod.mk.inj (Option.some.inj heq)
        exact (List.suffix_iff_eq_drop.mp hrest').symm
    | true =>
        have hend := (skipBlanks_suffix rest).trans hrest'
        have hat : (before value (skipBlanks rest)).isAt 0 = decide (skipBlanks rest = []) := by
          rw [isAt, rest_before hend]
          cases hcases : skipBlanks rest with
          | nil => rfl
          | cons c cs =>
              rw [hcases] at hend
              have hc : c ≠ 0 := by
                rintro rfl
                exact value.nulFree (hend.mem List.mem_cons_self)
              simp [hc]
        rw [if_pos rfl, skipWhitespace_before hrest', hat]
        by_cases hall : skipBlanks rest = []
        · rw [if_pos (decide_eq_true hall), if_neg (by simp [hall])]
          exact ⟨_, Nat.sub_le _ _, rfl, by simp⟩
        · have hat' : ¬ decide (skipBlanks rest = []) = true := by simp [hall]
          have hnone : (if true = true ∧ skipBlanks rest ≠ [] then none else some item) = none :=
            if_pos ⟨rfl, hall⟩
          rw [if_neg hat', hnone]
          exact ⟨_, hclamp _ rfl, rfl, by simp⟩
  · rw [hx, hr]
    exact ⟨_, hclamp buf hbuf, rfl, by simp⟩

/-! ## What is built -/

/-- No raw text, and so many levels of containers at most. -/
def Within (n : Nat) (item : Item) : Prop := item.nesting ≤ n ∧ item.rawFree = true

theorem readElements_within {n : Nat}
    (hread : ∀ bs item rest, readItem bs = some (item, rest) → Within n item) :
    ∀ (fuel : Nat) (bs : List UInt8) (items : List Item) (rest : List UInt8),
      readElements readItem fuel bs = some (items, rest) →
      Item.nestingElements items ≤ n ∧ Item.rawFreeElements items = true
  | 0, _, _, _, h => by cases h
  | fuel + 1, bs, items, rest, h => by
      rw [readElements] at h
      cases hitem : readItem (skipBlanks bs) with
      | none =>
          rw [hitem] at h
          cases h
      | some r =>
          obtain ⟨item, bs'⟩ := r
          obtain ⟨hnesting, hraw⟩ := hread _ _ _ hitem
          rw [hitem] at h
          dsimp only at h
          split at h
          · obtain ⟨⟨more, rest'⟩, hmore, heq⟩ := Option.map_eq_some_iff.mp h
            obtain ⟨hnesting', hraw'⟩ := readElements_within hread fuel _ more rest' hmore
            obtain ⟨rfl, -⟩ := Prod.mk.inj heq
            exact ⟨Nat.max_le.mpr ⟨hnesting, hnesting'⟩,
              by simp [Item.rawFreeElements, hraw, hraw']⟩
          · obtain ⟨rfl, -⟩ := Prod.mk.inj (Option.some.inj h)
            exact ⟨Nat.max_le.mpr ⟨hnesting, Nat.zero_le n⟩, by simp [Item.rawFreeElements, hraw]⟩

theorem readMembers_within {n : Nat}
    (hread : ∀ bs item rest, readItem bs = some (item, rest) → Within n item) :
    ∀ (fuel : Nat) (bs : List UInt8) (members : List (CString × Item)) (rest : List UInt8),
      readMembers readItem fuel bs = some (members, rest) →
      Item.nestingMembers members ≤ n ∧ Item.rawFreeMembers members = true
  | 0, _, _, _, h => by cases h
  | fuel + 1, bs, members, rest, h => by
      rw [readMembers] at h
      split at h
      · cases h
      split at h
      · cases h
      split at h
      · cases h
      rename_i item bs' hitem
      obtain ⟨hnesting, hraw⟩ := hread _ _ _ hitem
      split at h
      · obtain ⟨⟨more, rest'⟩, hmore, heq⟩ := Option.map_eq_some_iff.mp h
        obtain ⟨hnesting', hraw'⟩ := readMembers_within hread fuel _ more rest' hmore
        obtain ⟨rfl, -⟩ := Prod.mk.inj heq
        exact ⟨Nat.max_le.mpr ⟨hnesting, hnesting'⟩, by simp [Item.rawFreeMembers, hraw, hraw']⟩
      · obtain ⟨rfl, -⟩ := Prod.mk.inj (Option.some.inj h)
        exact ⟨Nat.max_le.mpr ⟨hnesting, Nat.zero_le n⟩, by simp [Item.rawFreeMembers, hraw]⟩

/-- What is between brackets is nothing, or what the loop has read. -/
theorem readChildren_cases {close : UInt8} {loop : Nat → Reader (List α)} {children : List α}
    (h : readChildren close loop bs = some (children, rest)) :
    children = [] ∨ ∃ rest', loop (bs.length + 1) (skipBlanks bs) = some (children, rest') := by
  unfold readChildren at h
  split at h
  · obtain ⟨rfl, -⟩ := Prod.mk.inj (Option.some.inj h)
    exact Or.inl rfl
  · split at h
    · cases h
    · rename_i rest' hloop
      obtain ⟨_, _, heq⟩ := Option.map_eq_some_iff.mp h
      obtain ⟨rfl, -⟩ := Prod.mk.inj heq
      exact Or.inr ⟨rest', hloop⟩

theorem readValueWith_within {n : Nat} {array : Reader (List Item)}
    {object : Reader (List (CString × Item))} {item : Item}
    (harray : ∀ bs items rest, array bs = some (items, rest) → Within n (.array items))
    (hobject : ∀ bs members rest, object bs = some (members, rest) → Within n (.object members))
    (h : readValueWith array object bs = some (item, rest)) : Within n item := by
  have hscalar : ∀ item : Item, item.nesting = 0 → item.rawFree = true → Within n item :=
    fun item hnesting hraw => ⟨hnesting ▸ Nat.zero_le n, hraw⟩
  unfold readValueWith at h
  split at h
  · obtain ⟨rfl, -⟩ := Prod.mk.inj (Option.some.inj h)
    exact hscalar _ rfl rfl
  split at h
  · obtain ⟨rfl, -⟩ := Prod.mk.inj (Option.some.inj h)
    exact hscalar _ rfl rfl
  split at h
  · obtain ⟨rfl, -⟩ := Prod.mk.inj (Option.some.inj h)
    exact hscalar _ rfl rfl
  split at h
  · obtain ⟨_, _, heq⟩ := Option.map_eq_some_iff.mp h
    obtain ⟨rfl, -⟩ := Prod.mk.inj heq
    exact hscalar _ rfl rfl
  split at h
  · obtain ⟨_, _, heq⟩ := Option.map_eq_some_iff.mp h
    obtain ⟨rfl, -⟩ := Prod.mk.inj heq
    exact hscalar _ rfl rfl
  split at h
  · obtain ⟨_, hread, heq⟩ := Option.map_eq_some_iff.mp h
    obtain ⟨rfl, -⟩ := Prod.mk.inj heq
    exact harray _ _ _ hread
  split at h
  · obtain ⟨_, hread, heq⟩ := Option.map_eq_some_iff.mp h
    obtain ⟨rfl, -⟩ := Prod.mk.inj heq
    exact hobject _ _ _ hread
  · cases h

theorem readValue_within : ∀ (n : Nat) (bs : List UInt8) (item : Item) (rest : List UInt8),
    readValue n bs = some (item, rest) → Within n item
  | 0, _, _, _, h => readValueWith_within (fun _ _ _ h => by cases h) (fun _ _ _ h => by cases h) h
  | n + 1, _, _, _, h => by
      refine readValueWith_within ?_ ?_ h
      · intro bs items rest harray
        obtain ⟨inner, _, hchildren⟩ := Option.bind_eq_some_iff.mp harray
        rcases readChildren_cases hchildren with rfl | ⟨rest', hloop⟩
        · exact ⟨Nat.succ_le_succ (Nat.zero_le n), rfl⟩
        · obtain ⟨hnesting, hraw⟩ := readElements_within (readValue_within n) _ _ _ _ hloop
          exact ⟨Nat.succ_le_succ hnesting, hraw⟩
      · intro bs members rest hobject
        obtain ⟨inner, _, hchildren⟩ := Option.bind_eq_some_iff.mp hobject
        rcases readChildren_cases hchildren with rfl | ⟨rest', hloop⟩
        · exact ⟨Nat.succ_le_succ (Nat.zero_le n), rfl⟩
        · obtain ⟨hnesting, hraw⟩ := readMembers_within (readValue_within n) _ _ _ _ hloop
          exact ⟨Nat.succ_le_succ hnesting, hraw⟩

end KernelTestkit.Json
