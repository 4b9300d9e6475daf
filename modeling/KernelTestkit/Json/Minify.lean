/-
KernelTestkit.Json.Minify — `cJSON_Minify`.

The text is made smaller inside its block: `json` reads on ahead of `into`,
behind which the result is. A read or a store outside the block is a trap. That
the text is terminated is asked for; that its strings and comments are closed
is not, and where one is open `json` gets past the NUL.

`minified` is the result without the block.
-/
import KernelTestkit.Json.Parse
import KernelTestkit.Lib.Block

namespace KernelTestkit.Json

open KernelTestkit.Lib

/-- The two pointers, as offsets. -/
structure Cursor where
  block : Block UInt8
  json : Nat
  into : Nat

namespace Cursor

/-- A store at `into`. -/
def store (c : Cursor) (b : UInt8) : Except Trap Cursor :=
  match Block.store c.block c.into [b] with
  | some block => .ok { c with block := block }
  | none => .error .outOfBounds

end Cursor

/-- The bytes `cJSON_Minify` takes for whitespace. -/
def IsBlank (b : UInt8) : Prop := b = 32 ∨ b = 9 ∨ b = 13 ∨ b = 10

instance (b : UInt8) : Decidable (IsBlank b) := inferInstanceAs (Decidable (_ ∨ _))

/-- What is behind the first end of a comment. -/
def afterComment : List UInt8 → Option (List UInt8)
  | [] => none
  | [_] => none
  | b :: d :: bs => if b = ascii '*' ∧ d = ascii '/' then some bs else afterComment (d :: bs)

theorem suffix_afterComment : ∀ {bs rest : List UInt8}, afterComment bs = some rest → rest <:+ bs
  | [], _, h => by cases h
  | [_], _, h => by cases h
  | b :: d :: bs, rest, h => by
      rw [afterComment] at h
      split at h
      · obtain rfl := Option.some.inj h
        exact ⟨[b, d], rfl⟩
      · exact (suffix_afterComment h).trans (List.suffix_cons b (d :: bs))

/-- A text without blanks and comments; `none` when a string or a comment is open. -/
def minified : List UInt8 → Option (List UInt8)
  | [] => some []
  | b :: bs =>
      if IsBlank b then minified bs
      else if b = ascii '/' ∧ bs.head? = some (ascii '/') then minified (bs.dropWhile (· ≠ 10))
      else if b = ascii '/' ∧ bs.head? = some (ascii '*') then
        match _h : afterComment bs with
        | none => none
        | some rest => minified rest
      else if b = quote then
        match closingQuote bs with
        | none => none
        | some (n, _) => (minified (bs.drop (n + 1))).map (b :: bs.take (n + 1) ++ ·)
      else (minified bs).map (b :: ·)
termination_by bs => bs.length
decreasing_by
  · exact Nat.lt_succ_self _
  · exact Nat.lt_succ_of_le (List.dropWhile_suffix _).length_le
  · exact Nat.lt_succ_of_le (suffix_afterComment ‹_›).length_le
  · exact Nat.lt_succ_of_le (by rw [List.length_drop]; exact Nat.sub_le _ _)
  · exact Nat.lt_succ_self _

end KernelTestkit.Json
