/-
KernelTestkit.Util.ListHead — the intrusive list of list.h.

A `struct list_head` is a node of a heap of links; a pointer to one may be
NULL, and a read or a store through NULL is a fault. Each function of
list.h is the sequence of its pointer writes, in the order of the source.
The inline helpers the source writes with two leading underscores are
called `inner…` here.

`ListCall` collects the calls that change a list.

`listForEachEntry` is the loop of `list_for_each_entry` with a body that
leaves it at the first entry it looks for. The macro subtracts the offset
of the member, so after a whole traversal the cursor is not NULL but
points where the entry of the head would be: `Cursor` keeps the two exits
apart.
-/
import KernelTestkit.Lib.Ring
import KernelTestkit.Net.Sys

namespace KernelTestkit.Util

open KernelTestkit.Lib
open KernelTestkit.Net (Fault)

variable {α : Type}

/-- A pointer to a node; `none` is NULL. -/
abbrev Ptr (α : Type) := Option α

/-! ## Reads -/

/-- `p->next`. -/
def readNext (heap : Links α) : Ptr α → Except Fault (Ptr α)
  | none => .error .nullPointer
  | some node => .ok (heap.next node)

/-- `p->prev`. -/
def readPrev (heap : Links α) : Ptr α → Except Fault (Ptr α)
  | none => .error .nullPointer
  | some node => .ok (heap.prev node)

variable [DecidableEq α]

/-- `list_empty(head)`. -/
def listEmpty (heap : Links α) (head : α) : Bool := heap.next head = some head

/-- `list_is_singular(head)`. -/
def listIsSingular (heap : Links α) (head : α) : Bool :=
  !listEmpty heap head && heap.next head = heap.prev head

/-! ## Writes -/

/-- `p->next = v`. -/
def setNext (p v : Ptr α) (heap : Links α) : Except Fault (Links α) :=
  match p with
  | none => .error .nullPointer
  | some node => .ok { heap with next := Function.update heap.next node v }

/-- `p->prev = v`. -/
def setPrev (p v : Ptr α) (heap : Links α) : Except Fault (Links α) :=
  match p with
  | none => .error .nullPointer
  | some node => .ok { heap with prev := Function.update heap.prev node v }

/-- `init_list_head(list)`. -/
def initListHead (list : Ptr α) (heap : Links α) : Except Fault (Links α) := do
  let heap ← setPrev list list heap
  setNext list list heap

/-- `__list_add(entry, prev, next)`. -/
def innerListAdd (entry prev next : Ptr α) (heap : Links α) : Except Fault (Links α) := do
  let heap ← setPrev next entry heap
  let heap ← setNext entry next heap
  let heap ← setPrev entry prev heap
  setNext prev entry heap

/-- `list_add(entry, head)`. -/
def listAdd (entry head : Ptr α) (heap : Links α) : Except Fault (Links α) := do
  let next ← readNext heap head
  innerListAdd entry head next heap

/-- `list_add_head(entry, head)`. -/
def listAddHead (entry head : Ptr α) (heap : Links α) : Except Fault (Links α) :=
  listAdd entry head heap

/-- `list_add_tail(entry, head)`. -/
def listAddTail (entry head : Ptr α) (heap : Links α) : Except Fault (Links α) := do
  let prev ← readPrev heap head
  listAdd entry prev heap

/-- `__list_del(prev, next)`. -/
def innerListDel (prev next : Ptr α) (heap : Links α) : Except Fault (Links α) := do
  let heap ← setPrev next prev heap
  setNext prev next heap

/-- `list_del_init(entry)`. -/
def listDelInit (entry : Ptr α) (heap : Links α) : Except Fault (Links α) := do
  let prev ← readPrev heap entry
  let next ← readNext heap entry
  let heap ← innerListDel prev next heap
  initListHead entry heap

/-- `list_del(entry)`. -/
def listDel (entry : Ptr α) (heap : Links α) : Except Fault (Links α) := do
  let prev ← readPrev heap entry
  let next ← readNext heap entry
  let heap ← innerListDel prev next heap
  let heap ← setPrev entry none heap
  setNext entry none heap

/-- `__list_splice(list, prev, next)`. -/
def innerListSplice (list prev next : Ptr α) (heap : Links α) : Except Fault (Links α) := do
  let first ← readNext heap list
  let last ← readPrev heap list
  let heap ← setPrev first prev heap
  let heap ← setNext prev first heap
  let heap ← setNext last next heap
  setPrev next last heap

/-- `list_splice_init(list, head)`. -/
def listSpliceInit (list head : α) (heap : Links α) : Except Fault (Links α) :=
  if ¬ listEmpty heap list then do
    let next ← readNext heap (some head)
    let heap ← innerListSplice (some list) (some head) next heap
    initListHead (some list) heap
  else
    .ok heap

/-- `list_splice_tail_init(list, head)`. -/
def listSpliceTailInit (list head : α) (heap : Links α) : Except Fault (Links α) :=
  if ¬ listEmpty heap list then do
    let prev ← readPrev heap (some head)
    let heap ← innerListSplice (some list) prev (some head) heap
    initListHead (some list) heap
  else
    .ok heap

/-- The calls that change a list. -/
inductive ListCall (α : Type) where
  | add (entry head : α)
  | addHead (entry head : α)
  | addTail (entry head : α)
  | del (entry : α)
  | delInit (entry : α)
  | spliceInit (list head : α)
  | spliceTailInit (list head : α)

/-- What a call does to the heap. -/
def ListCall.run : ListCall α → Links α → Except Fault (Links α)
  | .add entry head => listAdd (some entry) (some head)
  | .addHead entry head => listAddHead (some entry) (some head)
  | .addTail entry head => listAddTail (some entry) (some head)
  | .del entry => listDel (some entry)
  | .delInit entry => listDelInit (some entry)
  | .spliceInit list head => listSpliceInit list head
  | .spliceTailInit list head => listSpliceTailInit list head

/-- One call after another. -/
def runCalls : List (ListCall α) → Links α → Except Fault (Links α)
  | [], heap => .ok heap
  | call :: calls, heap => do
      let heap ← call.run heap
      runCalls calls heap

/-! ## Iteration -/

/-- `list_for_each_entry(pos, head, member)` with a body that breaks at the
first entry with `stop`: where the cursor points after the loop. `none` when
the fuel runs out or a link is NULL. -/
def listForEachEntry (heap : Links α) (head : α) (stop : α → Bool) : Nat → Ptr α → Option α
  | 0, _ => none
  | _ + 1, none => none
  | fuel + 1, some pos =>
      if pos = head then some pos
      else if stop pos then some pos
      else listForEachEntry heap head stop fuel (heap.next pos)

/-- Where the cursor of such a loop over the entries of a list points. -/
inductive Cursor (β : Type) where
  | entry (e : β)
  /-- past the last entry: what `list_entry` makes of the head -/
  | head
  deriving DecidableEq, Repr

/-- The node the cursor points to, for entries with the nodes `node`. -/
def Cursor.address {β : Type} (node : β → α) (listHead : α) : Cursor β → α
  | .entry e => node e
  | .head => listHead

/-- The same loop over the entries of a list. -/
def forEachEntry {β : Type} (stop : β → Bool) : List β → Cursor β
  | [] => .head
  | e :: es => if stop e then .entry e else forEachEntry stop es

/-! ### Iteration that is safe against removal -/

/-- What the body of a loop does with the entry it is at. -/
inductive Body where
  | keep
  | del
  | delInit
  deriving DecidableEq, Repr

/-- The body, at the entry `pos`. -/
def Body.run (pos : α) (heap : Links α) : Body → Except Fault (Links α)
  | .keep => .ok heap
  | .del => listDel (some pos) heap
  | .delInit => listDelInit (some pos) heap

/-- The loop behind `list_for_each_entry_safe` and its reverse: `n` is the
entry ahead, and `step` the read of the link that leads there. The entries
visited and the heap after the loop; `none` when the fuel runs out. -/
def safeLoop (step : Links α → Ptr α → Except Fault (Ptr α)) (head : α) (body : α → Body) :
    Nat → α → Ptr α → Links α → Except Fault (Option (List α × Links α))
  | 0, _, _, _ => .ok none
  | fuel + 1, pos, n, heap =>
      if pos = head then .ok (some ([], heap))
      else do
        let heap ← (body pos).run pos heap
        -- pos = n, n = list_next_entry(n, member): the read through n is the first use of it
        match n with
        | none => .error .nullPointer
        | some ahead => do
            let n ← step heap (some ahead)
            let out ← safeLoop step head body fuel ahead n heap
            return out.map fun (visited, heap) => (pos :: visited, heap)

/-- A loop along `step`, from the entry behind the head. -/
def forEachEntrySafe (step : Links α → Ptr α → Except Fault (Ptr α)) (heap : Links α) (head : α)
    (body : α → Body) (fuel : Nat) : Except Fault (Option (List α × Links α)) := do
  let first ← step heap (some head)
  match first with
  | none => .error .nullPointer
  | some pos => do
      let n ← step heap (some pos)
      safeLoop step head body fuel pos n heap

/-- `list_for_each_entry_safe(pos, n, head, member)`. -/
def listForEachEntrySafe : Links α → α → (α → Body) → Nat →
    Except Fault (Option (List α × Links α)) := forEachEntrySafe readNext

/-- `list_for_each_entry_safe_reverse(pos, n, head, member)`. -/
def listForEachEntrySafeReverse : Links α → α → (α → Body) → Nat →
    Except Fault (Option (List α × Links α)) := forEachEntrySafe readPrev

end KernelTestkit.Util
