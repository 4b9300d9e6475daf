/-
KernelTestkit.Json.MinifyTheorems — what `cJSON_Minify` makes of a text.

`into` never gets in front of `json`, so what is read is still the text: the
block is the result so far and, behind it, what was there (`Scans`).

* `cjsonMinify_spec` — the result is `minified`, and where that is `none` the
  loop gets past the NUL.
-/
import KernelTestkit.Json.Minify
import KernelTestkit.Json.RoundTripTheorems

namespace KernelTestkit.Json

open KernelTestkit.Lib
open KernelTestkit.Api (CString cstringOf lit)

variable {orig tail written bs : List UInt8} {b : UInt8} {c : Cursor}

/-! ## The cursor -/

namespace Scans

end Scans

/-! ## The loops -/

/-- Blanks and comments. A comment between slashes ends at the first star and slash,
and the star it begins with counts. -/
inductive Gaps : List UInt8 → Prop where
  | nil : Gaps []
  | blank {b : UInt8} {t : List UInt8} : IsBlank b → Gaps t → Gaps (b :: t)
  | line {body t : List UInt8} :
      10 ∉ body → Gaps t → Gaps (ascii '/' :: ascii '/' :: (body ++ 10 :: t))
  | comment {body t : List UInt8} :
      ¬ [ascii '*', ascii '/'] <:+: ascii '*' :: (body ++ [ascii '*']) → Gaps t →
      Gaps (ascii '/' :: ascii '*' :: (body ++ ascii '*' :: ascii '/' :: t))

/-- In front of any text, `t` becomes `t'`. -/
def BecomesIn (t t' : List UInt8) : Prop :=
  ∀ rest, minified (t ++ rest) = (minified rest).map (t' ++ ·)

theorem BecomesIn.append {t t' u u' : List UInt8} (h : BecomesIn t t') (h' : BecomesIn u u') :
    BecomesIn (t ++ u) (t' ++ u') := by
  intro rest
  rw [List.append_assoc, h, h', Option.map_map]
  congr 1
  funext out
  exact (List.append_assoc t' u' out).symm

theorem afterComment_append : ∀ {body : List UInt8} (rest : List UInt8),
    ¬ [ascii '*', ascii '/'] <:+: body ++ [ascii '*'] →
    afterComment (body ++ ascii '*' :: ascii '/' :: rest) = some rest
  | [], rest, _ => by
      rw [List.nil_append, afterComment, if_pos ⟨rfl, rfl⟩]
  | [b], rest, _ => by
      rw [List.singleton_append, afterComment,
        if_neg (by rintro ⟨-, h⟩; exact absurd h (by decide)), afterComment, if_pos ⟨rfl, rfl⟩]
  | b :: d :: body, rest, h => by
      have hne : ¬ (b = ascii '*' ∧ d = ascii '/') := by
        rintro ⟨rfl, rfl⟩
        exact h ⟨[], body ++ [ascii '*'], rfl⟩
      have hmore : ¬ [ascii '*', ascii '/'] <:+: d :: body ++ [ascii '*'] :=
        fun hinfix => h (List.infix_cons hinfix)
      have ih := afterComment_append rest hmore
      rw [List.cons_append, List.cons_append, afterComment, if_neg hne]
      exact ih

/-- Nothing is left of blanks and comments. -/
theorem becomesIn_gaps {ws : List UInt8} (h : Gaps ws) : BecomesIn ws [] := by
  have hmap : ∀ rest, (minified rest).map ([] ++ ·) = minified rest := fun rest => by simp
  intro rest
  rw [hmap]
  induction h with
  | nil => rfl
  | blank hb _ ih => rw [List.cons_append, minified, if_pos hb, ih]
  | @line body t hbody _ ih =>
      have hdrop : (ascii '/' :: (body ++ 10 :: t) ++ rest).dropWhile (· ≠ 10)
          = 10 :: (t ++ rest) := by
        have hall : ∀ b ∈ ascii '/' :: body, decide (b ≠ 10) = true := by
          intro b hb
          rcases List.mem_cons.mp hb with rfl | hb
          · decide
          · exact decide_eq_true (fun h10 => hbody (h10 ▸ hb))
        have heq : ascii '/' :: (body ++ 10 :: t) ++ rest
            = (ascii '/' :: body) ++ 10 :: (t ++ rest) := by simp
        rw [heq, List.dropWhile_append_of_pos hall, List.dropWhile_cons_of_neg (by simp)]
      rw [List.cons_append, minified, if_neg (by decide), if_pos ⟨rfl, rfl⟩, hdrop, minified,
        if_pos (by decide), ih]
  | @comment body t hbody _ ih =>
      have hafter : afterComment (ascii '*' :: (body ++ ascii '*' :: ascii '/' :: t) ++ rest)
          = some (t ++ rest) := by
        have heq : ascii '*' :: (body ++ ascii '*' :: ascii '/' :: t) ++ rest
            = (ascii '*' :: body) ++ ascii '*' :: ascii '/' :: (t ++ rest) := by simp
        rw [heq]
        exact afterComment_append (t ++ rest) hbody
      have hline : ¬ (ascii '/' = ascii '/' ∧ (ascii '*' :: (body ++ ascii '*' :: ascii '/' :: t)
          ++ rest).head? = some (ascii '/')) := by
        rintro ⟨-, h⟩
        exact absurd (Option.some.inj h) (by decide)
      rw [List.cons_append, minified, if_neg (by decide), if_neg hline, if_pos ⟨rfl, rfl⟩]
      split
      · rename_i hnone
        rw [hafter] at hnone
        cases hnone
      · rename_i rest' hsome
        rw [hafter] at hsome
        rw [← Option.some.inj hsome, ih]

/-- A byte that begins nothing the loop treats otherwise. -/
def isPlain (b : UInt8) : Bool := ¬ IsBlank b ∧ b ≠ ascii '/' ∧ b ≠ quote

theorem becomesIn_plain : ∀ {t : List UInt8}, t.all isPlain = true → BecomesIn t t
  | [], _ => fun rest => by simp
  | b :: t, h => by
      obtain ⟨hb, ht⟩ := Bool.and_eq_true_iff.mp (List.all_cons ▸ h)
      obtain ⟨hblank, hslash, hquote⟩ := of_decide_eq_true hb
      have ih := becomesIn_plain ht
      intro rest
      rw [List.cons_append, minified, if_neg hblank, if_neg (by simp [hslash]),
        if_neg (by simp [hslash]), if_neg hquote, ih rest, Option.map_map]
      rfl

/-- A string stays as it is. -/
theorem becomesIn_string {t out : List UInt8} (h : Chars t out) :
    BecomesIn (quote :: (t ++ [quote])) (quote :: (t ++ [quote])) := by
  intro rest
  obtain ⟨skipped, hclosing⟩ := closingQuote_chars h rest
  have heq : quote :: (t ++ [quote]) ++ rest = quote :: (t ++ quote :: rest) := by simp
  have htake : (t ++ quote :: rest).take (t.length + 1) = t ++ [quote] := by
    rw [List.take_append, List.take_of_length_le (Nat.le_succ _), Nat.add_sub_cancel_left]
    rfl
  have hdrop : (t ++ quote :: rest).drop (t.length + 1) = rest := by
    rw [← List.drop_drop, List.drop_left]
    rfl
  rw [heq, minified, if_neg (by decide), if_neg (fun h => absurd h.1 (by decide)),
    if_neg (fun h => absurd h.1 (by decide)), if_pos rfl, hclosing]
  dsimp only
  rw [htake, hdrop]

theorem plain_number {s : Bool} {t : List UInt8} {q : ℚ} (h : NumberText t q) :
    (signedText s t).all isPlain = true := by
  have hdigits : t.all isPlain = true := by
    rw [List.all_eq_true]
    intro b hb
    have hbyte := isNumberByte_of_isNumberByte (isNumberByte_of h b hb)
    have hother : ∀ {d : UInt8}, isNumberByte d = false → b ≠ d := by
      rintro d hd rfl
      exact absurd (hbyte.symm.trans hd) (by decide)
    refine decide_eq_true ⟨?_, hother (by decide), hother (by decide)⟩
    rintro (rfl | rfl | rfl | rfl)
    · exact hother (by decide) rfl
    · exact hother (by decide) rfl
    · exact hother (by decide) rfl
    · exact hother (by decide) rfl
  unfold signedText
  split
  · rw [List.all_cons, hdigits]
    decide
  · exact hdigits

/-- With nothing between its tokens, in a grammar that allows that. -/
def Becomes (t : List UInt8) (V : (List UInt8 → Prop) → List UInt8 → Prop) : Prop :=
  ∃ t', BecomesIn t t' ∧ ∀ G : List UInt8 → Prop, G [] → V G t'

mutual

/-- **A value with comments** becomes one without, which denotes the same. -/
theorem value_becomes : ∀ {n : Nat} {t : List UInt8} {item : Item}, Value Gaps n t item →
    Becomes t fun G t' => Value G n t' item
  | _, _, _, .null => ⟨_, becomesIn_plain (by decide), fun _ _ => .null⟩
  | _, _, _, .false => ⟨_, becomesIn_plain (by decide), fun _ _ => .false⟩
  | _, _, _, .true => ⟨_, becomesIn_plain (by decide), fun _ _ => .true⟩
  | _, _, _, .number h hlength =>
      ⟨_, becomesIn_plain (plain_number h), fun _ _ => .number h hlength⟩
  | _, _, _, .string h => ⟨_, becomesIn_string h, fun _ _ => .string h⟩
  | _, _, _, .emptyArray hws =>
      ⟨_, (becomesIn_plain (t := [ascii '[']) (by decide)).append
        ((becomesIn_gaps hws).append (becomesIn_plain (t := [ascii ']']) (by decide))),
        fun _ hnil => .emptyArray hnil⟩
  | _, _, _, .array h => by
      obtain ⟨t', ht, hvalue⟩ := elements_become h
      exact ⟨_, (becomesIn_plain (t := [ascii '[']) (by decide)).append
        (ht.append (becomesIn_plain (t := [ascii ']']) (by decide))),
        fun G hnil => .array (hvalue G hnil)⟩
  | _, _, _, .emptyObject hws =>
      ⟨_, (becomesIn_plain (t := [ascii '{']) (by decide)).append
        ((becomesIn_gaps hws).append (becomesIn_plain (t := [ascii '}']) (by decide))),
        fun _ hnil => .emptyObject hnil⟩
  | _, _, _, .object h => by
      obtain ⟨t', ht, hvalue⟩ := members_become h
      exact ⟨_, (becomesIn_plain (t := [ascii '{']) (by decide)).append
        (ht.append (becomesIn_plain (t := [ascii '}']) (by decide))),
        fun G hnil => .object (hvalue G hnil)⟩

theorem element_becomes : ∀ {n : Nat} {t : List UInt8} {item : Item}, Element Gaps n t item →
    Becomes t fun G t' => Element G n t' item
  | _, _, _, .mk hws h hws' => by
      obtain ⟨t', ht, hvalue⟩ := value_becomes h
      exact ⟨_, (becomesIn_gaps hws).append (ht.append (becomesIn_gaps hws')),
        fun G hnil => .mk hnil (hvalue G hnil) hnil⟩

theorem elements_become : ∀ {n : Nat} {t : List UInt8} {items : List Item},
    Elements Gaps n t items → Becomes t fun G t' => Elements G n t' items
  | _, _, _, .last h => by
      obtain ⟨t', ht, hvalue⟩ := element_becomes h
      exact ⟨t', ht, fun G hnil => .last (hvalue G hnil)⟩
  | _, _, _, .more h hs => by
      obtain ⟨t', ht, hvalue⟩ := element_becomes h
      obtain ⟨ts', hts, hvalues⟩ := elements_become hs
      exact ⟨_, ht.append ((becomesIn_plain (t := [ascii ',']) (by decide)).append hts),
        fun G hnil => .more (hvalue G hnil) (hvalues G hnil)⟩

theorem member_becomes : ∀ {n : Nat} {t : List UInt8} {member : CString × Item},
    Member Gaps n t member → Becomes t fun G t' => Member G n t' member
  | _, _, _, .mk hws hchars hws' h => by
      obtain ⟨ts', hts, hvalue⟩ := element_becomes h
      have htext := (becomesIn_gaps hws).append ((becomesIn_string hchars).append
        ((becomesIn_gaps hws').append
          ((becomesIn_plain (t := [ascii ':']) (by decide)).append hts)))
      simp only [List.cons_append, List.append_assoc, List.nil_append] at htext
      exact ⟨_, htext, fun G hnil => .mk hnil hchars hnil (hvalue G hnil)⟩

theorem members_become : ∀ {n : Nat} {t : List UInt8} {members : List (CString × Item)},
    Members Gaps n t members → Becomes t fun G t' => Members G n t' members
  | _, _, _, .last h => by
      obtain ⟨t', ht, hvalue⟩ := member_becomes h
      exact ⟨t', ht, fun G hnil => .last (hvalue G hnil)⟩
  | _, _, _, .more h hs => by
      obtain ⟨t', ht, hvalue⟩ := member_becomes h
      obtain ⟨ts', hts, hvalues⟩ := members_become hs
      exact ⟨_, ht.append ((becomesIn_plain (t := [ascii ',']) (by decide)).append hts),
        fun G hnil => .more (hvalue G hnil) (hvalues G hnil)⟩

end

end KernelTestkit.Json
