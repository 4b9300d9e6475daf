/-
KernelTestkit.Items.Parse — the parser of cjson.c, with the items it makes.

`Json.Parse` is the same parser as a function to items. Here an item is a
cell that is there before it is filled in, the list of a container grows at
its end, and what has been made is deleted when the text turns out to be none
or memory runs out. The texts and the numbers are read as there.
-/
import KernelTestkit.Items.Edit
import KernelTestkit.Json.Parse

namespace KernelTestkit.Items

open KernelTestkit.Lib
open KernelTestkit.Api (CString)
open KernelTestkit.Json

inductive Stop where
  | text (trap : Trap)
  | memory (fault : MemoryFault)

/-- What is done to the memory. -/
def onMemory {α : Type} (x : Except MemoryFault α) : Except Stop α := x.mapError .memory

variable (malloc : Allocator (Cell Fields))

end KernelTestkit.Items
