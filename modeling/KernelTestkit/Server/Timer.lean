/-
KernelTestkit.Server.Timer — the timer in the interest set of epoll.

`iperf_register_timerfd` arms the timer and adds it to the epoll instance,
`iperf_deregister_timerfd` takes it out again. Both act on the descriptors
two fields of the test hold, and both close descriptors when a system call
fails. Neither writes a field of the test.

`Descriptors` is the descriptor table of the process: what is open, and for
every `close` whether what it was given was open.
-/
import KernelTestkit.Server.Run

namespace KernelTestkit.Server

open KernelTestkit.Lib
open KernelTestkit.Net
open KernelTestkit.Api

/-! ## The descriptor table -/

structure Descriptors where
  opened : List Fd
  /-- the calls of `close`, each with whether its argument was open -/
  closes : List (Fd × Bool)
  deriving DecidableEq, Repr

namespace Descriptors

/-- A call that opens a descriptor and returns `created`, or -1. -/
def create (fds : Descriptors) (created : Fd) : Descriptors :=
  if created = -1 then fds else { fds with opened := created :: fds.opened }

/-- `close(fd)`; one that is not open is EBADF. -/
def close (fds : Descriptors) (fd : Fd) : Descriptors where
  opened := fds.opened.filter (· ≠ fd)
  closes := fds.closes ++ [(fd, decide (fd ∈ fds.opened))]

/-- What such a call may return: -1, or a descriptor that is not open. -/
def Fresh (fds : Descriptors) (created : Fd) : Prop :=
  created = -1 ∨ 0 ≤ created ∧ created ∉ fds.opened

end Descriptors

/-! ## The timer -/

/-- `iperf_register_timerfd`; `settime` and `epollCtl` are what
`timerfd_settime` and `epoll_ctl` return. -/
def iperfRegisterTimerfd (ipt : IperfTest) (settime epollCtl : Int32) (fds : Descriptors) :
    Int32 × Descriptors :=
  if settime = -1 then (-1, (fds.close ipt.timerFd).close ipt.epollFd)
  else if epollCtl = -1 then (-1, (fds.close ipt.timerFd).close ipt.epollFd)
  else (0, fds)

/-- `iperf_deregister_timerfd`. -/
def iperfDeregisterTimerfd (ipt : IperfTest) (epollCtl : Int32) (fds : Descriptors) :
    Int32 × Descriptors :=
  if epollCtl = -1 then (-1, fds.close ipt.timerFd) else (0, fds)

/-! ## Sequences of calls -/

/-- A call of one of the four functions, with what its system calls return. -/
inductive TimerCall where
  | createEpoll (created : Fd)
  | createTimerfd (created : Fd)
  | registerTimerfd (settime epollCtl : Int32)
  | deregisterTimerfd (epollCtl : Int32)
  deriving DecidableEq, Repr

/-- A test and the descriptors of its process. -/
structure TimerState where
  ipt : IperfTest
  fds : Descriptors
  deriving DecidableEq, Repr

namespace TimerCall

/-- What the call returns and leaves. -/
def run : TimerCall → TimerState → Int32 × TimerState
  | .createEpoll created, s =>
      let (r, ipt) := iperfCreateEpoll s.ipt created
      (r, ⟨ipt, s.fds.create created⟩)
  | .createTimerfd created, s =>
      let (r, ipt) := iperfCreateTimerfd s.ipt created
      (r, ⟨ipt, s.fds.create created⟩)
  | .registerTimerfd settime epollCtl, s =>
      let (r, fds) := iperfRegisterTimerfd s.ipt settime epollCtl s.fds
      (r, ⟨s.ipt, fds⟩)
  | .deregisterTimerfd epollCtl, s =>
      let (r, fds) := iperfDeregisterTimerfd s.ipt epollCtl s.fds
      (r, ⟨s.ipt, fds⟩)

/-- What the system can answer: the calls that open a descriptor open a new
one, the others may succeed or fail. -/
def Possible : TimerCall → Descriptors → Prop
  | .createEpoll created, fds => fds.Fresh created
  | .createTimerfd created, fds => fds.Fresh created
  | .registerTimerfd _ _, _ => True
  | .deregisterTimerfd _, _ => True

end TimerCall

/-- One call. -/
def TimerStep (s : TimerState) (call : TimerCall) (s' : TimerState) : Prop :=
  call.Possible s.fds ∧ s' = (call.run s).2

/-- A test after `iperf_defaults`, in a process with these descriptors. -/
def defaultTimers (node : Option Nat) (opened : List Fd) : TimerState where
  ipt := (iperfDefaults node iperfNewTest).2
  fds := ⟨opened, []⟩

end KernelTestkit.Server
