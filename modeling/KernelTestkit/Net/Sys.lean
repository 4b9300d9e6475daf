/-
KernelTestkit.Net.Sys — the system calls the program makes.

The program runs against a `Sys`: a script of what the calls it makes will
answer, the `errno` they leave, and a trace of what was done. Every
outcome of a call is one possible script, so a statement over every `Sys`
is a statement over every sequence of outcomes.

`read` hands over the front of the receive queue and puts the rest back;
`write` takes what the script allows of the bytes it is offered. A call
that is told to take or give more than there is takes or gives all of it.

A `Fault` is undefined behaviour of the C program: a NULL pointer that is
dereferenced, a byte stored or read outside its block.
-/
import KernelTestkit.Lib.BigEndian
import KernelTestkit.Lib.Block
import KernelTestkit.Lib.Channel

namespace KernelTestkit.Net

open KernelTestkit.Lib

/-- A descriptor, a C `int`; negative values are failures. -/
abbrev Fd := Int32

/-- A value of `errno`. -/
abbrev Errno := Int32

def EINTR : Errno := 4
def EAGAIN : Errno := 11
def EWOULDBLOCK : Errno := EAGAIN
def EPROTOTYPE : Errno := 91
def ENOBUFS : Errno := 105
def ECONNRESET : Errno := 104
def ECONNREFUSED : Errno := 111

/-- Undefined behaviour. -/
inductive Fault where
  | nullPointer
  | outOfBounds
  deriving DecidableEq, Repr

/-- The outcome of a call of `protocol->listen`: its result, the `errno` it
leaves and the listening descriptor the test holds afterwards. -/
structure Listening where
  ret : Int32
  errno : Errno
  listener : Fd
  deriving DecidableEq, Repr

/-- What the program did, as far as its environment or its parser can
see it. -/
inductive Event where
  /-- `accept` returned `fd` -/
  | accept (fd : Fd)
  /-- a `read` on `fd` that handed over `bytes` -/
  | read (fd : Fd) (bytes : List UInt8)
  /-- a `write` on `fd` that took `bytes` -/
  | write (fd : Fd) (bytes : List UInt8)
  /-- `calloc` was asked for `size` bytes -/
  | calloc (size : Nat)
  /-- `cJSON_Parse` was called on a buffer with these contents -/
  | parse (buf : List UInt8)
  /-- `protocol->listen` returned `ret` -/
  | listen (ret : Int32)
  /-- `test->on_connect` was called -/
  | onConnect
  /-- `close(fd)` -/
  | close (fd : Fd)
  deriving DecidableEq, Repr

/-- The script of the environment, `errno`, and the trace. -/
structure Sys where
  /-- what `accept` returns -/
  accepted : Fd
  /-- what the reads of the control socket find -/
  inbox : List (Arrival UInt8 Errno)
  /-- what the writes answer -/
  outbox : List (Answer Errno)
  /-- what `protocol->listen` does -/
  listening : Listening
  /-- whether `calloc` finds memory -/
  callocOk : Bool
  /-- the uninitialised contents of the local `nsize` of `JSON_read` -/
  garbage : UInt32
  errno : Errno
  trace : List Event
  deriving DecidableEq, Repr

namespace Sys

def setErrno (sys : Sys) (e : Errno) : Sys := { sys with errno := e }

def log (sys : Sys) (ev : Event) : Sys := { sys with trace := sys.trace ++ [ev] }

/-- `close(fd)`. -/
def close (sys : Sys) (fd : Fd) : Sys := sys.log (.close fd)

/-- `accept(listener, …)`: the new socket, or a negative result. -/
def accept (sys : Sys) : Fd × Sys := (sys.accepted, sys.log (.accept sys.accepted))

/-- `read(fd, buf, n)`: `none` is -1 with `errno` set, `some []` is 0. -/
def read (sys : Sys) (fd : Fd) (n : Nat) : Option (List UInt8) × Sys :=
  match sys.inbox with
  | [] => (some [], sys.log (.read fd []))
  | .eof :: rest => (some [], { sys with inbox := rest }.log (.read fd []))
  | .error e :: rest => (none, { sys with inbox := rest, errno := e }.log (.read fd []))
  | .data b bs :: rest =>
      let bytes := (b :: bs).take n
      (some bytes,
        { sys with inbox := Arrival.requeue ((b :: bs).drop n) rest }.log (.read fd bytes))

/-- `write(fd, buf, n)` with `buf` the `n` bytes offered: `none` is -1 with
`errno` set, otherwise the number of bytes taken. -/
def write (sys : Sys) (fd : Fd) (buf : List UInt8) : Option Nat × Sys :=
  match sys.outbox with
  | [] => (some buf.length, sys.log (.write fd buf))
  | .error e :: rest => (none, { sys with outbox := rest, errno := e }.log (.write fd []))
  | .accept k :: rest =>
      (some (min k buf.length), { sys with outbox := rest }.log (.write fd (buf.take k)))

/-- `calloc(1, size)`: a block of `size` zeroed bytes, or NULL. -/
def calloc (sys : Sys) (size : Nat) : Option (Block UInt8) × Sys :=
  (if sys.callocOk then some (Block.fill size 0) else none, sys.log (.calloc size))

/-- An environment in which nothing arrives and nothing fails. -/
def quiet : Sys where
  accepted := 5
  inbox := []
  outbox := []
  listening := ⟨0, 0, 3⟩
  callocOk := true
  garbage := 0
  errno := 0
  trace := []

/-- The same with `bytes` waiting on the control socket. -/
def arrived (bytes : List UInt8) : Sys := { quiet with inbox := Arrival.requeue bytes [] }

end Sys

/-! ## What a trace says about a socket -/

/-- The bytes the writes on `fd` took, in order. -/
def sent (fd : Fd) (trace : List Event) : List UInt8 :=
  trace.flatMap fun
    | .write fd' bytes => if fd' = fd then bytes else []
    | _ => []

/-- The bytes the reads on `fd` handed over, in order. -/
def received (fd : Fd) (trace : List Event) : List UInt8 :=
  trace.flatMap fun
    | .read fd' bytes => if fd' = fd then bytes else []
    | _ => []

/-- The trace has a read or a write on `fd`. -/
def Touches (fd : Fd) (trace : List Event) : Prop :=
  ∃ bytes, .read fd bytes ∈ trace ∨ .write fd bytes ∈ trace

@[simp] theorem sent_nil (fd : Fd) : sent fd [] = [] := rfl

@[simp] theorem sent_append (fd : Fd) (t u : List Event) :
    sent fd (t ++ u) = sent fd t ++ sent fd u := by
  simp [sent]

@[simp] theorem received_append (fd : Fd) (t u : List Event) :
    received fd (t ++ u) = received fd t ++ received fd u := by
  simp [received]

@[simp] theorem sent_write (fd : Fd) (bytes : List UInt8) :
    sent fd [.write fd bytes] = bytes := by
  simp [sent]

@[simp] theorem received_read (fd : Fd) (bytes : List UInt8) :
    received fd [.read fd bytes] = bytes := by
  simp [received]

/-- Every event of the trace is a write on `fd`. -/
def WritesOn (fd : Fd) (trace : List Event) : Prop :=
  ∀ ev ∈ trace, ∃ bytes, ev = .write fd bytes

/-- Every event of the trace is a read on `fd`. -/
def ReadsOn (fd : Fd) (trace : List Event) : Prop :=
  ∀ ev ∈ trace, ∃ bytes, ev = .read fd bytes

theorem WritesOn.append {fd : Fd} {t u : List Event} (ht : WritesOn fd t)
    (hu : WritesOn fd u) : WritesOn fd (t ++ u) := by
  intro ev hev
  rcases List.mem_append.mp hev with h | h
  · exact ht ev h
  · exact hu ev h

theorem ReadsOn.append {fd : Fd} {t u : List Event} (ht : ReadsOn fd t)
    (hu : ReadsOn fd u) : ReadsOn fd (t ++ u) := by
  intro ev hev
  rcases List.mem_append.mp hev with h | h
  · exact ht ev h
  · exact hu ev h

/-- Every event of the trace is a read on `fd` or a call of `calloc`. -/
def Fetches (fd : Fd) (trace : List Event) : Prop :=
  ∀ ev ∈ trace, (∃ bytes, ev = .read fd bytes) ∨ ∃ size, ev = .calloc size

theorem ReadsOn.fetches {fd : Fd} {t : List Event} (h : ReadsOn fd t) : Fetches fd t :=
  fun ev hev => Or.inl (h ev hev)

theorem fetches_calloc (fd : Fd) (size : Nat) : Fetches fd [.calloc size] :=
  fun _ hev => Or.inr ⟨size, List.mem_singleton.mp hev⟩

theorem Fetches.append {fd : Fd} {t u : List Event} (ht : Fetches fd t)
    (hu : Fetches fd u) : Fetches fd (t ++ u) := by
  intro ev hev
  rcases List.mem_append.mp hev with h | h
  · exact ht ev h
  · exact hu ev h

/-- Reads send nothing. -/
theorem Fetches.sent {fd : Fd} {t : List Event} (h : Fetches fd t) (fd' : Fd) :
    sent fd' t = [] := by
  rw [Net.sent, List.flatMap_eq_nil_iff]
  intro ev hev
  rcases h ev hev with ⟨bytes, rfl⟩ | ⟨size, rfl⟩ <;> rfl

end KernelTestkit.Net
