/-
KernelTestkit.Json.Grammar — the JSON texts within the limits of cjson.c, and
what they denote.

The grammar of RFC 8259 over bytes, with the item a text denotes, and with
three limits. Containers are nested at most as deeply as an index says. A
number has at most 63 bytes, which is what `parse_number` copies. The escape
of a surrogate stands in a pair only: a lone one denotes no character, and the
parser refuses it.

What may stand between tokens is a parameter, `G`; JSON has `Blanks` there. A
byte from 0x80 on stands for itself inside a string; that such bytes are UTF-8
is not asked for. An item's strings end at their first NUL, which a text can
have as `\u0000` only.

The grammar says nothing of the parser and the printer: that the one accepts
these texts and the other prints them is in `Json.GrammarTheorems` and
`Json.PrintTheorems`.
-/
import KernelTestkit.Json.Utf16
import KernelTestkit.Json.Parse

namespace KernelTestkit.Json

open KernelTestkit.Lib
open KernelTestkit.Api (CString cstringOf)

def Blanks (ws : List UInt8) : Prop := ∀ b ∈ ws, b = 32 ∨ b = 9 ∨ b = 10 ∨ b = 13

/-- What is between the quotes of a string without lone surrogates, and its
bytes. -/
inductive Chars : List UInt8 → List UInt8 → Prop where
  | nil : Chars [] []
  | plain {b : UInt8} {t out : List UInt8} :
      32 ≤ b → b ≠ quote → b ≠ backslash → Chars t out → Chars (b :: t) (b :: out)
  | escape {c e : UInt8} {t out : List UInt8} :
      simpleEscape c = some e → Chars t out → Chars (backslash :: c :: t) (e :: out)
  | code {ds t out : List UInt8} {c : Char} :
      ds.length = 4 → hex4 ds = some c.toNat → Chars t out →
      Chars (backslash :: ascii 'u' :: (ds ++ t)) (String.utf8EncodeChar c ++ out)
  | pair {ds ds' t out : List UInt8} {c : Char} :
      0x10000 ≤ c.toNat → ds.length = 4 → hex4 ds = some (highSurrogate c) →
      ds'.length = 4 → hex4 ds' = some (lowSurrogate c) → Chars t out →
      Chars (backslash :: ascii 'u' :: (ds ++ backslash :: ascii 'u' :: (ds' ++ t)))
        (String.utf8EncodeChar c ++ out)

variable (G : List UInt8 → Prop)

mutual

/-- A value with `n` levels of containers at most, and numbers of 63 bytes at
most. -/
inductive Value : Nat → List UInt8 → Item → Prop where
  | null {n : Nat} : Value n (literal "null") .null
  | false {n : Nat} : Value n (literal "false") .false
  | true {n : Nat} : Value n (literal "true") .true
  | number {n : Nat} {s : Bool} {t : List UInt8} {q : ℚ} :
      NumberText t q → (signedText s t).length ≤ 63 →
      Value n (signedText s t) (.number (Double.round s q))
  | string {n : Nat} {t out : List UInt8} :
      Chars t out → Value n (quote :: (t ++ [quote])) (.string (cstringOf out))
  | emptyArray {n : Nat} {ws : List UInt8} :
      G ws → Value (n + 1) (ascii '[' :: (ws ++ [ascii ']'])) (.array [])
  | array {n : Nat} {t : List UInt8} {items : List Item} :
      Elements n t items → Value (n + 1) (ascii '[' :: (t ++ [ascii ']'])) (.array items)
  | emptyObject {n : Nat} {ws : List UInt8} :
      G ws → Value (n + 1) (ascii '{' :: (ws ++ [ascii '}'])) (.object [])
  | object {n : Nat} {t : List UInt8} {members : List (CString × Item)} :
      Members n t members → Value (n + 1) (ascii '{' :: (t ++ [ascii '}'])) (.object members)

/-- A value between blanks. -/
inductive Element : Nat → List UInt8 → Item → Prop where
  | mk {n : Nat} {ws t ws' : List UInt8} {item : Item} :
      G ws → Value n t item → G ws' → Element n (ws ++ (t ++ ws')) item

inductive Elements : Nat → List UInt8 → List Item → Prop where
  | last {n : Nat} {t : List UInt8} {item : Item} : Element n t item → Elements n t [item]
  | more {n : Nat} {t ts : List UInt8} {item : Item} {items : List Item} :
      Element n t item → Elements n ts items →
      Elements n (t ++ ascii ',' :: ts) (item :: items)

/-- A name and a value, with a colon between them. -/
inductive Member : Nat → List UInt8 → CString × Item → Prop where
  | mk {n : Nat} {ws t ws' out ts : List UInt8} {item : Item} :
      G ws → Chars t out → G ws' → Element n ts item →
      Member n (ws ++ (quote :: (t ++ quote :: (ws' ++ ascii ':' :: ts)))) (cstringOf out, item)

inductive Members : Nat → List UInt8 → List (CString × Item) → Prop where
  | last {n : Nat} {t : List UInt8} {member : CString × Item} :
      Member n t member → Members n t [member]
  | more {n : Nat} {t ts : List UInt8} {member : CString × Item}
      {members : List (CString × Item)} :
      Member n t member → Members n ts members →
      Members n (t ++ ascii ',' :: ts) (member :: members)

end

end KernelTestkit.Json
