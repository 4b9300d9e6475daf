/-
KernelTestkit.Net.Transfer — `Nread` and `Nwrite` of net.c.

Both loop until `count` bytes have moved, a call is interrupted, or a call
fails. Both return an `int` that is either a byte count or one of the two
error codes; the count is a `size_t` that the `return` converts, so it is
taken modulo 2^32 here as there.

`nread` stores into a `Block`: the pointer `buf` of the source is the block
together with the offset `count - nleft`. A store past the end of the
block is a fault.
-/
import KernelTestkit.Net.Sys

namespace KernelTestkit.Net

open KernelTestkit.Lib

def NET_SOFTERROR : Int32 := -1
def NET_HARDERROR : Int32 := -2

/-- A store through a pointer into `blk`, `off` cells from its start. -/
def storeAt (blk : Block UInt8) (off : Nat) (bytes : List UInt8) :
    Except Fault (Block UInt8) :=
  match blk.store off bytes with
  | some blk' => .ok blk'
  | none => .error .outOfBounds

/-- The loop of `Nread`, with `nleft` bytes still to come. -/
def nreadLoop (fd : Fd) (count : Nat) (buf : Block UInt8) (nleft : Nat) (sys : Sys) :
    Except Fault (Int32 × Block UInt8 × Sys) :=
  if nleft = 0 then
    .ok (Int32.ofNat (count - nleft), buf, sys)
  else
    match sys.read fd nleft with
    | (none, sys) =>
        if sys.errno = EINTR ∨ sys.errno = EAGAIN ∨ sys.errno = EWOULDBLOCK then
          .ok (Int32.ofNat (count - nleft), buf, sys)
        else
          .ok (NET_HARDERROR, buf, sys)
    | (some [], sys) => .ok (Int32.ofNat (count - nleft), buf, sys)
    | (some (b :: bs), sys) => do
        let buf ← storeAt buf (count - nleft) (b :: bs)
        nreadLoop fd count buf (nleft - (b :: bs).length) sys
termination_by nleft
decreasing_by simp only [List.length_cons]; omega

/-- `Nread(fd, buf, count, prot)`; `prot` is not used by the source. -/
def nread (fd : Fd) (buf : Block UInt8) (count : Nat) (sys : Sys) :
    Except Fault (Int32 × Block UInt8 × Sys) :=
  nreadLoop fd count buf count sys

/-- The loop of `Nwrite`, with `buf` the `nleft` bytes still to go. -/
def nwriteLoop (fd : Fd) (count : Nat) (buf : List UInt8) (sys : Sys) : Int32 × Sys :=
  if buf = [] then
    (Int32.ofNat count, sys)
  else
    match sys.write fd buf with
    | (none, sys) =>
        if sys.errno = EINTR ∨ sys.errno = EAGAIN then
          (Int32.ofNat (count - buf.length), sys)
        else if sys.errno = ENOBUFS then
          (NET_SOFTERROR, sys)
        else
          (NET_HARDERROR, sys)
    | (some 0, sys) => (NET_SOFTERROR, sys)
    | (some (r + 1), sys) => nwriteLoop fd count (buf.drop (r + 1)) sys
termination_by buf.length
decreasing_by
  rename_i hne
  have hpos := List.length_pos_iff.mpr hne
  simp only [List.length_drop]
  omega

/-- `Nwrite(fd, buf, count, prot)` with `buf` the `count` bytes to send. -/
def nwrite (fd : Fd) (buf : List UInt8) (sys : Sys) : Int32 × Sys :=
  nwriteLoop fd buf.length buf sys

end KernelTestkit.Net
