/-
KernelTestkit.Api.Frame — `JSON_write` and `JSON_read`.

A message is a four-byte big-endian length and the unformatted text of a
document. The length is a `uint32_t`: `JSON_write` truncates `strlen` to
it, and `JSON_read` computes the size of its buffer, `hsize+1`, in it.

`JSON_read` reads the length into a local it has not initialised, so the
block it passes to `Nread` starts with the garbage of the stack. The
buffer for the text is zeroed and one byte longer than the text; the
parser reads it up to its first NUL, and reading past its end is a fault.
-/
import KernelTestkit.Net.TransferTheorems
import KernelTestkit.Api.Cjson

namespace KernelTestkit.Api

open KernelTestkit.Lib
open KernelTestkit.Net

/-- The bytes of `htonl(n)` in memory. -/
def be32 (n : UInt32) : List UInt8 := beBytes 4 n.toNat

/-- `ntohl` of the four bytes in memory. -/
def ntohl (bytes : List UInt8) : UInt32 := UInt32.ofNat (beNat bytes)

/-- `JSON_write(fd, json)`. -/
def jsonWrite (json : CjsonLib) (fd : Fd) (doc : CJson) (sys : Sys) : Int32 × Sys :=
  match json.printUnformatted doc with
  | none => (-1, sys)
  | some str =>
      let hsize := UInt32.ofNat str.bytes.length
      let (r, sys) := nwrite fd (be32 hsize) sys
      if r < 0 then (-1, sys)
      else
        let (r, sys) := nwrite fd (str.bytes.take hsize.toNat) sys
        if r < 0 then (-1, sys) else (0, sys)

/-- The text a parser finds in a buffer; it stops at the first NUL. -/
def readCString (buf : Block UInt8) : Except Fault CString :=
  if 0 ∈ buf then .ok (cstringOf buf) else .error .outOfBounds

/-- `JSON_read(fd)`; `none` is NULL. -/
def jsonRead (json : CjsonLib) (fd : Fd) (sys : Sys) : Except Fault (Option CJson × Sys) := do
  let (rc, nsize, sys) ← nread fd (be32 sys.garbage) 4 sys
  if rc < 0 then
    return (none, sys)
  else
    let hsize := ntohl nsize
    -- the size is a `uint32_t`: it wraps at 2^32
    let (str, sys) := sys.calloc (hsize + 1).toNat
    match str with
    | none => return (none, sys)
    | some str =>
        let (rc, str, sys) ← nread fd str hsize.toNat sys
        if ¬ rc < 0 ∧ rc.toUInt32 = hsize then
          let text ← readCString str
          return (json.parse text, sys.log (.parse str))
        else
          return (none, sys)

end KernelTestkit.Api
