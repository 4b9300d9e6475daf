/-
KernelTestkit.Json.Read — reading JSON off the front of a text.

What the parser of cjson.c computes, without its buffer: a reader takes a
text to what it has read and the text behind it. There are no offsets, no
blocks and no NUL.
-/
import KernelTestkit.Json.Parse

namespace KernelTestkit.Json

open KernelTestkit.Lib
open KernelTestkit.Api (CString cstringOf)

abbrev Reader (α : Type) := List UInt8 → Option (α × List UInt8)

def Reader.map {α β : Type} (f : α → β) (r : Reader α) : Reader β := fun bs =>
  (r bs).map fun (a, rest) => (f a, rest)

def skipBlanks (bs : List UInt8) : List UInt8 := bs.dropWhile (· ≤ 32)

/-! ## Strings and numbers -/

/-- What is between quotes, without its escapes. A backslash at the end, which is
there behind an escape of fewer than four digits, takes the closing quote with it. -/
def unescape : List UInt8 → Option (List UInt8)
  | [] => some []
  | [b] => if b = backslash then some [quote] else some [b]
  | b :: c :: bs =>
      if b ≠ backslash then (unescape (c :: bs)).map (b :: ·)
      else
        match simpleEscape c with
        | some e => (unescape bs).map (e :: ·)
        | none =>
            if c ≠ ascii 'u' then none
            else
              match utf16LiteralToUtf8 (b :: c :: bs) with
              | none => none
              | some (n, bytes) => (unescape (bs.drop (n - 2))).map (bytes ++ ·)
termination_by bs => bs.length

def readString : Reader CString
  | [] => none
  | b :: bs =>
      if b ≠ quote then none
      else
        match closingQuote bs with
        | none => none
        | some (n, _) => (unescape (bs.take n)).map fun bytes => (cstringOf bytes, bs.drop (n + 1))

def readNumber : Reader Double := fun bs =>
  match strtod (numberCString bs) with
  | (_, 0) => none
  | (d, n + 1) => some (d, bs.drop (n + 1))

/-! ## Containers -/

/-- The text behind a byte. -/
def readByte (b : UInt8) : List UInt8 → Option (List UInt8)
  | [] => none
  | c :: bs => if c = b then some bs else none

/-- What is between brackets, and behind them. -/
def readChildren {α : Type} (close : UInt8) (loop : Nat → Reader (List α)) : Reader (List α) :=
  fun bs =>
    match readByte close (skipBlanks bs) with
    | some rest => some ([], rest)
    | none =>
        match loop (bs.length + 1) (skipBlanks bs) with
        | none => none
        | some (children, rest) => (readByte close rest).map (children, ·)

/-- Elements, up to one that no comma follows. -/
def readElements (readValue : Reader Item) : Nat → Reader (List Item)
  | 0, _ => none
  | fuel + 1, bs =>
      match readValue (skipBlanks bs) with
      | none => none
      | some (item, bs) =>
          match readByte (ascii ',') (skipBlanks bs) with
          | some bs => Reader.map (item :: ·) (readElements readValue fuel) bs
          | none => some ([item], skipBlanks bs)

def readArray (readValue : Reader Item) : Reader (List Item) := fun bs =>
  (readByte (ascii '[') bs).bind (readChildren (ascii ']') (readElements readValue))

/-- Members, up to one that no comma follows. -/
def readMembers (readValue : Reader Item) : Nat → Reader (List (CString × Item))
  | 0, _ => none
  | fuel + 1, bs =>
      match readString (skipBlanks bs) with
      | none => none
      | some (name, bs) =>
          match readByte (ascii ':') (skipBlanks bs) with
          | none => none
          | some bs =>
              match readValue (skipBlanks bs) with
              | none => none
              | some (item, bs) =>
                  match readByte (ascii ',') (skipBlanks bs) with
                  | some bs => Reader.map ((name, item) :: ·) (readMembers readValue fuel) bs
                  | none => some ([(name, item)], skipBlanks bs)

def readObject (readValue : Reader Item) : Reader (List (CString × Item)) := fun bs =>
  (readByte (ascii '{') bs).bind (readChildren (ascii '}') (readMembers readValue))

/-! ## Values -/

def readValueWith (readArray : Reader (List Item)) (readObject : Reader (List (CString × Item))) :
    Reader Item := fun bs =>
  if (literal "null").isPrefixOf bs then some (.null, bs.drop 4)
  else if (literal "false").isPrefixOf bs then some (.false, bs.drop 5)
  else if (literal "true").isPrefixOf bs then some (.true, bs.drop 4)
  else if bs.head? = some quote then readString.map .string bs
  else if bs.head?.any fun b => b = ascii '-' ∨ ascii '0' ≤ b ∧ b ≤ ascii '9' then
    readNumber.map .number bs
  else if bs.head? = some (ascii '[') then readArray.map .array bs
  else if bs.head? = some (ascii '{') then readObject.map .object bs
  else none

/-- A value with so many levels of containers at most. -/
def readValue : Nat → Reader Item
  | 0 => readValueWith (fun _ => none) (fun _ => none)
  | levels + 1 => readValueWith (readArray (readValue levels)) (readObject (readValue levels))

/-- The value a text begins with, and what is behind it. -/
def readText (bs : List UInt8) : Option (Item × List UInt8) :=
  readValue CJSON_NESTING_LIMIT (skipBlanks bs)

/-- The value of a text, which may have to be all of it but for blanks. -/
def readDocument (requireNullTerminated : Bool) (bs : List UInt8) : Option Item :=
  match readText bs with
  | none => none
  | some (item, rest) =>
      if requireNullTerminated ∧ skipBlanks rest ≠ [] then none else some item

end KernelTestkit.Json
