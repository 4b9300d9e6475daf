/-
KernelTestkit.Json.Print — the printer of cjson.c.

A `printbuffer` has a block, the `length` the printer takes for its size, and
the offset it prints at. A store outside the block is a trap, and so is a
`strlen` that finds no NUL in it.

What an allocation adds is undefined, and it may fail: then there is no first
block and nothing is printed. A block grows by `realloc`. When that fails,
`ensure` returns NULL plus the offset, which is not NULL unless the offset is
0, and the next store is a trap. `reallocate` is there, since nothing calls
`cJSON_InitHooks`.

The functions return their `cJSON_bool` and the buffer. An item of a tree has
no NULL in place of a string.
-/
import KernelTestkit.Json.Parse
import KernelTestkit.Lib.Block

namespace KernelTestkit.Json

open KernelTestkit.Lib
open KernelTestkit.Api (CString)

/-! ## The buffer -/

/-- What `malloc` and `realloc` answer: the bytes they add, and whether they give a
block of a size. -/
structure Memory where
  undefined : Nat → Nat → UInt8
  granted : Nat → Bool

structure PrintBuffer where
  buffer : Option (Block UInt8)
  length : Nat
  offset : Nat
  depth : Nat
  noalloc : Bool
  format : Bool

abbrev Printer := PrintBuffer → Except Trap (Bool × PrintBuffer)

/-- What follows a call that may return false. -/
def andThen (x : Except Trap (Bool × PrintBuffer)) (f : Printer) :
    Except Trap (Bool × PrintBuffer) := do
  let (ok, p) ← x
  if ok then f p else return (false, p)

def LLONG_MAX : Nat := 2 ^ 63 - 1

def Memory.allocate (memory : Memory) (size : Nat) : Option (Block UInt8) :=
  if memory.granted size then some ((List.range size).map (memory.undefined size)) else none

def Memory.reallocate (memory : Memory) (block : Block UInt8) (size : Nat) :
    Option (Block UInt8) :=
  if memory.granted size then
    some (block.take size ++ (List.range (size - block.length)).map (memory.undefined size))
  else none

namespace PrintBuffer

/-- A block of a new size. -/
def grow (memory : Memory) (p : PrintBuffer) (block : Block UInt8) (size : Nat) :
    Bool × PrintBuffer :=
  match memory.reallocate block size with
  | some block => (true, { p with buffer := some block, length := size })
  | none => (decide (0 < p.offset), { p with buffer := none, length := size })

/-- `ensure(p, needed)`: whether it returns a pointer, which is one to the offset. -/
def ensure (memory : Memory) (needed : Nat) (p : PrintBuffer) : Bool × PrintBuffer :=
  match p.buffer with
  | none => (false, p)
  | some block =>
      if 0 < p.length ∧ p.length ≤ p.offset then (false, p)
      else if LLONG_MAX < needed then (false, p)
      else
        let needed := needed + p.offset + 1
        if needed ≤ p.length then (true, p)
        else if p.noalloc then (false, p)
        else if LLONG_MAX / 2 < needed then
          if needed ≤ LLONG_MAX then p.grow memory block LLONG_MAX else (false, p)
        else p.grow memory block (needed * 2)

/-- Stores behind the offset. -/
def write (p : PrintBuffer) (pos : Nat) (bytes : List UInt8) : Except Trap PrintBuffer :=
  match p.buffer with
  | none => .error .outOfBounds
  | some block =>
      match Block.store block (p.offset + pos) bytes with
      | none => .error .outOfBounds
      | some block => .ok { p with buffer := some block }

/-- `update_offset(buffer)`. -/
def updateOffset (p : PrintBuffer) : Except Trap PrintBuffer :=
  match p.buffer with
  | none => .ok p
  | some block =>
      let rest := block.drop p.offset
      if 0 ∈ rest then .ok { p with offset := p.offset + (rest.takeWhile (· != 0)).length }
      else .error .outOfBounds

/-- What the printer does for everything but the inside of strings: `ensure` room,
store bytes and move the offset. -/
def emit (memory : Memory) (needed : Nat) (bytes : List UInt8) (n : Nat) : Printer := fun p =>
  match p.ensure memory needed with
  | (false, p) => .ok (false, p)
  | (true, p) => (p.write 0 bytes).map fun p => (true, { p with offset := p.offset + n })

end PrintBuffer

open PrintBuffer

variable (memory : Memory)

/-! ## Scalars -/

/-- `strcpy` of a word. -/
def printWord (word : List UInt8) : Printer := emit memory (word.length + 1) (word ++ [0]) 0

/-- `print_number(item, output_buffer)`. -/
def printNumberItem (d : Double) : Printer := fun p =>
  match printNumber d with
  | none => .ok (false, p)
  | some text => p.emit memory text.length (text ++ [0]) text.length

/-- The letter of an escape of two bytes. -/
def shortEscape (b : UInt8) : Option UInt8 :=
  if b = backslash then some backslash
  else if b = quote then some quote
  else if b = 8 then some (ascii 'b')
  else if b = 12 then some (ascii 'f')
  else if b = 10 then some (ascii 'n')
  else if b = 13 then some (ascii 'r')
  else if b = 9 then some (ascii 't')
  else none

/-- A digit of `%x`. -/
def hexChar (n : Nat) : UInt8 := if n < 10 then UInt8.ofNat (48 + n) else UInt8.ofNat (87 + n)

/-- `sprintf` of a byte by `u%04x`. -/
def unicodeEscape (b : UInt8) : List UInt8 :=
  [ascii 'u', ascii '0', ascii '0', hexChar (b.toNat / 16), hexChar (b.toNat % 16)]

/-- The first loop of `print_string_ptr`: `escape_characters`. -/
def escapeCharacters : List UInt8 → Nat
  | [] => 0
  | b :: bs =>
      if (shortEscape b).isSome then escapeCharacters bs + 1
      else if b < 32 then escapeCharacters bs + 5
      else escapeCharacters bs

/-- The second loop, from a position of the output on. `sprintf` stores a NUL that
the next byte replaces. -/
def writeEscaped : List UInt8 → Nat → PrintBuffer → Except Trap PrintBuffer
  | [], _, p => .ok p
  | b :: bs, pos, p => do
      if 31 < b ∧ b ≠ quote ∧ b ≠ backslash then
        writeEscaped bs (pos + 1) (← p.write pos [b])
      else
        let p ← p.write pos [backslash]
        match shortEscape b with
        | some c => writeEscaped bs (pos + 2) (← p.write (pos + 1) [c])
        | none => writeEscaped bs (pos + 6) (← p.write (pos + 1) (unicodeEscape b ++ [0]))

/-- What is between the quotes: a copy, when no character has to be escaped. -/
def writeInside (bs : List UInt8) (p : PrintBuffer) : Except Trap PrintBuffer :=
  if escapeCharacters bs = 0 then p.write 1 bs else writeEscaped bs 1 p

/-- `print_string_ptr(input, output_buffer)`. -/
def printStringPtr (input : CString) : Printer := fun p => do
  let outputLength := input.bytes.length + escapeCharacters input.bytes
  match p.ensure memory (outputLength + 3) with
  | (false, p) => return (false, p)
  | (true, p) =>
      let p ← p.write 0 [quote]
      let p ← writeInside input.bytes p
      let p ← p.write (outputLength + 1) [quote, 0]
      return (true, p)

/-! ## Containers -/

/-- `n` tabs. -/
def tabs (n : Nat) : List UInt8 := List.replicate n 9

/-- Bytes of a formatted text only. -/
def formatted (format : Bool) (bytes : List UInt8) : List UInt8 := if format then bytes else []

/-- The indentation in front of a member. -/
def printIndent : Printer := fun p =>
  if p.format then p.emit memory p.depth (tabs p.depth) p.depth else .ok (true, p)

mutual

/-- `print_value(item, output_buffer)`. -/
def printValue : Item → Printer
  | .null => printWord memory (literal "null")
  | .false => printWord memory (literal "false")
  | .true => printWord memory (literal "true")
  | .number d => printNumberItem memory d
  | .string s => printStringPtr memory s
  | .raw s => printWord memory s.bytes
  | .array child => fun p =>
      andThen (p.emit memory 1 [ascii '['] 1) fun p =>
      andThen (printElements child { p with depth := p.depth + 1 }) fun p =>
      andThen (p.emit memory 2 [ascii ']', 0] 0) fun p =>
      .ok (true, { p with depth := p.depth - 1 })
  | .object child => fun p =>
      let opening := ascii '{' :: formatted p.format [10]
      andThen (p.emit memory (opening.length + 1) opening opening.length) fun p =>
      andThen (printMembers child { p with depth := p.depth + 1 }) fun p =>
      andThen (p.emit memory (if p.format then p.depth + 1 else 2)
        (formatted p.format (tabs (p.depth - 1)) ++ [ascii '}', 0]) 0) fun p =>
      .ok (true, { p with depth := p.depth - 1 })

/-- The loop of `print_array`. -/
def printElements : List Item → Printer
  | [] => fun p => .ok (true, p)
  | item :: items => fun p =>
      andThen (printValue item p) fun p => do
      let p ← p.updateOffset
      if items.isEmpty then return (true, p)
      else
        let separator := ascii ',' :: formatted p.format [32]
        andThen (p.emit memory (separator.length + 1) (separator ++ [0]) separator.length)
          (printElements items)

/-- The loop of `print_object`. -/
def printMembers : List (CString × Item) → Printer
  | [] => fun p => .ok (true, p)
  | (name, item) :: members => fun p =>
      andThen (printIndent memory p) fun p =>
      andThen (printStringPtr memory name p) fun p => do
      let p ← p.updateOffset
      let colon := ascii ':' :: formatted p.format [9]
      andThen (p.emit memory colon.length colon colon.length) fun p =>
        andThen (printValue item p) fun p => do
        let p ← p.updateOffset
        let separator := (if members.isEmpty then [] else [ascii ',']) ++ formatted p.format [10]
        andThen (p.emit memory (separator.length + 1) (separator ++ [0]) separator.length)
          (printMembers members)

end

/-! ## Entry points -/

/-- `print(item, format, hooks)`: the block that is returned; `none` is NULL. -/
def cjsonPrint (item : Item) (format : Bool) : Except Trap (Option (Block UInt8)) :=
  match memory.allocate 256 with
  | none => .ok none
  | some block => do
      let (ok, p) ← printValue memory item ⟨some block, 0, 0, 0, false, format⟩
      if ok then
        let p ← p.updateOffset
        match p.buffer with
        | none => return none
        | some block => return memory.reallocate block p.length
      else return none

/-- `cJSON_PrintBuffered(item, prebuffer, fmt)`. -/
def cjsonPrintBuffered (item : Item) (prebuffer : Int32) (format : Bool) :
    Except Trap (Option (Block UInt8)) :=
  if prebuffer < 0 then .ok none
  else
    let size := prebuffer.toInt.toNat
    match memory.allocate size with
    | none => .ok none
    | some block => do
        let (ok, p) ← printValue memory item ⟨some block, size, 0, 0, false, format⟩
        return if ok then p.buffer else none

/-- `cJSON_PrintPreallocated(item, buf, len, fmt)`: the result, and what is in `buf`
afterwards. -/
def cjsonPrintPreallocated (item : Item) (buf : Block UInt8) (len : Int32) (format : Bool) :
    Except Trap (Bool × Option (Block UInt8)) := do
  if len < 0 then return (false, some buf)
  else
    let (ok, p) ← printValue memory item ⟨some buf, len.toInt.toNat, 0, 0, true, format⟩
    return (ok, p.buffer)

end KernelTestkit.Json
