/-
KernelTestkit.Json.Parse — the parser of cjson.c.

A `parse_buffer` is the text it was made from and an offset; its contents are
the text and the NUL, so its length is `strlen` and one. A function of the
parser returns what it has built (`none` is `false`) and the buffer with the
offset it leaves, which after a failure is the position of the error.

Two things stop a parser: a read or a write outside its block, and more
rounds of a loop than it was given. `Json.ParseTheorems` shows that neither
happens. Allocations succeed.

The depth of a buffer is `CJSON_NESTING_LIMIT` less the levels `parseValue`
has left.
-/
import KernelTestkit.Json.Item
import KernelTestkit.Json.Utf16

namespace KernelTestkit.Json

open KernelTestkit.Lib
open KernelTestkit.Api (CString cstringOf)

inductive Trap where
  | outOfBounds
  | outOfFuel
  deriving DecidableEq, Repr

structure ParseBuffer where
  value : CString
  offset : Nat

abbrev Parser (α : Type) := ParseBuffer → Except Trap (Option α × ParseBuffer)

def Parser.map {α β : Type} (f : α → β) (p : Parser α) : Parser β := fun buf => do
  let (a, buf) ← p buf
  return (a.map f, buf)

/-! ## The buffer -/

namespace ParseBuffer

def content (buf : ParseBuffer) : List UInt8 := buf.value.bytes ++ [0]

def length (buf : ParseBuffer) : Nat := buf.content.length

/-- What `buffer_at_offset` points to. -/
def rest (buf : ParseBuffer) : List UInt8 := buf.content.drop buf.offset

/-- `can_access_at_index(buffer, 0)`, and the byte there is `b`. -/
def isAt (buf : ParseBuffer) (b : UInt8) : Bool := buf.rest.head? = some b

/-- `can_read(buffer, n)`, and `strncmp` finds the `n` bytes of the text there. -/
def hasPrefix (buf : ParseBuffer) (text : List UInt8) : Bool := text.isPrefixOf buf.rest

def advance (buf : ParseBuffer) (n : Nat) : ParseBuffer := { buf with offset := buf.offset + n }

/-- `buffer_skip_whitespace(buffer)`. The NUL counts as a blank. -/
def skipWhitespace (buf : ParseBuffer) : ParseBuffer :=
  let offset := buf.offset + (buf.rest.takeWhile (· ≤ 32)).length
  { buf with offset := if offset = buf.length then offset - 1 else offset }

end ParseBuffer

/-- A byte of a block. -/
def read (block : List UInt8) (i : Nat) : Except Trap UInt8 :=
  match block[i]? with
  | some b => .ok b
  | none => .error .outOfBounds

/-- More bytes in a block of a size, behind those that have been written. -/
def put (size : Nat) (output bytes : List UInt8) : Except Trap (List UInt8) :=
  if size < output.length + bytes.length then .error .outOfBounds else .ok (output ++ bytes)

/-! ## Strings -/

def quote : UInt8 := 34

def backslash : UInt8 := 92

/-- The first loop of `parse_string`: how far off the closing quote is, and
`skipped_bytes`. -/
def closingQuote : List UInt8 → Option (Nat × Nat)
  | [] => none
  | [b] => if b = quote then some (0, 0) else none
  | b :: c :: bs =>
      if b = quote then some (0, 0)
      else if b = backslash then (closingQuote bs).map fun (n, skipped) => (n + 2, skipped + 1)
      else (closingQuote (c :: bs)).map fun (n, skipped) => (n + 1, skipped)

/-- The escapes of one byte. -/
def simpleEscape (c : UInt8) : Option UInt8 :=
  if c = ascii 'b' then some 8
  else if c = ascii 'f' then some 12
  else if c = ascii 'n' then some 10
  else if c = ascii 'r' then some 13
  else if c = ascii 't' then some 9
  else if c = quote ∨ c = backslash ∨ c = ascii '/' then some c
  else none

/-- The second loop of `parse_string`, from `input_pointer` on; `size` is the
size of the output. -/
def decodeString (content : List UInt8) (inputEnd size : Nat) :
    Nat → Nat → List UInt8 → Except Trap (Option (List UInt8) × Nat)
  | 0, _, _ => .error .outOfFuel
  | fuel + 1, pointer, output => do
      if inputEnd ≤ pointer then
        return (some (← put size output [0]), pointer)
      else
        let b ← read content pointer
        if b ≠ backslash then
          decodeString content inputEnd size fuel (pointer + 1) (← put size output [b])
        else
          let c ← read content (pointer + 1)
          match simpleEscape c with
          | some e => decodeString content inputEnd size fuel (pointer + 2) (← put size output [e])
          | none =>
              if c ≠ ascii 'u' then return (none, pointer)
              else
                match utf16LiteralToUtf8 ((content.take inputEnd).drop pointer) with
                | none => return (none, pointer)
                | some (n, bytes) =>
                    decodeString content inputEnd size fuel (pointer + n) (← put size output bytes)

/-- `parse_string(item, input_buffer)`: the `valuestring` of the item. -/
def parseString : Parser CString := fun buf => do
  let start := buf.offset + 1
  if (← read buf.content buf.offset) ≠ quote then return (none, { buf with offset := start })
  else
    match closingQuote (buf.content.drop start) with
    | none => return (none, { buf with offset := start })
    | some (n, skipped) =>
        let inputEnd := start + n
        let allocationLength := n + 1 - skipped
        let (output, pointer) ←
          decodeString buf.content inputEnd (allocationLength + 1) (n + 1) start []
        match output with
        | none => return (none, { buf with offset := pointer })
        | some bytes => return (some (cstringOf bytes), { buf with offset := inputEnd + 1 })

/-! ## Numbers -/

/-- `parse_number(item, input_buffer)`: the `valuedouble` of the item. -/
def parseNumber : Parser Double := fun buf =>
  match strtod (numberCString buf.rest) with
  | (_, 0) => .ok (none, buf)
  | (d, n + 1) => .ok (some d, buf.advance (n + 1))

/-! ## Containers -/

/-- What `parse_array` and `parse_object` do from the opening bracket on; `loop`
has its rounds. -/
def parseChildren {α : Type} (close : UInt8) (loop : Nat → Parser (List α)) : Parser (List α) :=
  fun buf => do
    let inside := buf.advance 1
    let buf := inside.skipWhitespace
    if buf.isAt close then return (some [], buf.advance 1)
    else
      let front := { buf with offset := buf.offset - 1 }
      if buf.length ≤ buf.offset then return (none, front)
      else
        let (children, buf) ← loop (inside.length - inside.offset) front
        match children with
        | none => return (none, buf)
        | some children =>
            if ¬ buf.isAt close then return (none, buf)
            else return (some children, buf.advance 1)

/-- The loop of `parse_array`. The buffer is at the byte in front of an element;
the loop leaves it behind the last one. -/
def parseElements (parseValue : Parser Item) : Nat → Parser (List Item)
  | 0, _ => .error .outOfFuel
  | fuel + 1, buf => do
      let (item, buf) ← parseValue (buf.advance 1).skipWhitespace
      match item with
      | none => return (none, buf)
      | some item =>
          let buf := buf.skipWhitespace
          if buf.isAt (ascii ',') then
            Parser.map (item :: ·) (parseElements parseValue fuel) buf
          else return (some [item], buf)

/-- `parse_array(item, input_buffer)`: the children of the item. -/
def parseArray (parseValue : Parser Item) : Parser (List Item) := fun buf => do
  if (← read buf.content buf.offset) ≠ ascii '[' then return (none, buf)
  else parseChildren (ascii ']') (parseElements parseValue) buf

/-- The loop of `parse_object`. -/
def parseMembers (parseValue : Parser Item) : Nat → Parser (List (CString × Item))
  | 0, _ => .error .outOfFuel
  | fuel + 1, buf => do
      let (name, buf) ← parseString (buf.advance 1).skipWhitespace
      match name with
      | none => return (none, buf)
      | some name =>
          let buf := buf.skipWhitespace
          if ¬ buf.isAt (ascii ':') then return (none, buf)
          else
            let (item, buf) ← parseValue (buf.advance 1).skipWhitespace
            match item with
            | none => return (none, buf)
            | some item =>
                let buf := buf.skipWhitespace
                if buf.isAt (ascii ',') then
                  Parser.map ((name, item) :: ·) (parseMembers parseValue fuel) buf
                else return (some [(name, item)], buf)

/-- `parse_object(item, input_buffer)`: the children of the item. -/
def parseObject (parseValue : Parser Item) : Parser (List (CString × Item)) := fun buf =>
  if ¬ buf.isAt (ascii '{') then .ok (none, buf)
  else parseChildren (ascii '}') (parseMembers parseValue) buf

/-! ## Values -/

/-- The bytes of an ASCII text. -/
def literal (s : String) : List UInt8 := s.toList.map ascii

/-- The cases of `parse_value`, for the parsers of what is inside containers. -/
def parseValueWith (parseArray : Parser (List Item))
    (parseObject : Parser (List (CString × Item))) : Parser Item := fun buf =>
  if buf.hasPrefix (literal "null") then .ok (some .null, buf.advance 4)
  else if buf.hasPrefix (literal "false") then .ok (some .false, buf.advance 5)
  else if buf.hasPrefix (literal "true") then .ok (some .true, buf.advance 4)
  else if buf.isAt quote then parseString.map .string buf
  else if buf.rest.head?.any fun b => b = ascii '-' ∨ ascii '0' ≤ b ∧ b ≤ ascii '9' then
    parseNumber.map .number buf
  else if buf.isAt (ascii '[') then parseArray.map .array buf
  else if buf.isAt (ascii '{') then parseObject.map .object buf
  else .ok (none, buf)

/-- A container that is nested too deeply. -/
def tooDeep {α : Type} : Parser α := fun buf => .ok (none, buf)

/-- `parse_value(item, input_buffer)`, with room for so many more levels. -/
def parseValue : Nat → Parser Item
  | 0 => parseValueWith tooDeep tooDeep
  | levels + 1 => parseValueWith (parseArray (parseValue levels)) (parseObject (parseValue levels))

def CJSON_NESTING_LIMIT : Nat := 1000

/-- `cJSON_ParseWithOpts(value, return_parse_end, require_null_terminated)`: the
item, and the offset of `*return_parse_end`. -/
def cjsonParseWithOpts (value : CString) (requireNullTerminated : Bool) :
    Except Trap (Option Item × Nat) := do
  let (item, buf) ← parseValue CJSON_NESTING_LIMIT (ParseBuffer.mk value 0).skipWhitespace
  let position := if buf.offset < buf.length then buf.offset else buf.length - 1
  match item with
  | none => return (none, position)
  | some item =>
      if requireNullTerminated then
        let buf := buf.skipWhitespace
        if buf.isAt 0 then return (some item, buf.offset)
        else return (none, if buf.offset < buf.length then buf.offset else buf.length - 1)
      else return (some item, buf.offset)

/-- `cJSON_Parse(value)`. -/
def cjsonParse (value : CString) : Except Trap (Option Item) :=
  (cjsonParseWithOpts value false).map (·.1)

end KernelTestkit.Json
