/-
KernelTestkit.Server.Run — `iperf_run_server`.

The server opens an epoll instance, a listening socket and a timer, and
then loops: it accepts a client unless its state is CREATE_STREAMS, and
blocks in `epoll_wait` without a timeout. The loop over the events that
were reported has an empty body.

What the calls answer is a script: a `Setup` for the three that open
descriptors, and one `Round` for each turn of the loop. The interest set of
an epoll instance is what `epoll_ctl` has put into it. Nothing the server
calls does: `iperf_register_timerfd`, the only function that would, is not
called. `Kernel` therefore only grows by new, empty instances.

A run ends with a result, with a fault of `iperf_accept`, or where its
script ends.
-/
import KernelTestkit.Server.Accept

namespace KernelTestkit.Server

open KernelTestkit.Net
open KernelTestkit.Api

def IPERF_DONE : Int8 := 16

/-! ## The script -/

/-- What `epoll_create1`, `netannounce` and `timerfd_create` return. -/
structure Setup where
  epollCreate : Fd
  netannounce : Fd
  timerfdCreate : Fd
  deriving DecidableEq, Repr

/-- What an `epoll_wait` does. -/
inductive Waited where
  /-- it returns -1 -/
  | fails
  /-- it reports these descriptors -/
  | reports (fds : List Fd)
  /-- it does not return -/
  | blocks
  deriving DecidableEq, Repr

/-- One turn of the loop: what `iperf_accept` meets, and the `epoll_wait`. -/
structure Round where
  accepting : Sys
  waited : Waited
  deriving DecidableEq, Repr

/-- The open epoll instances, each with its interest set. -/
structure Kernel where
  epolls : List (Fd × List Fd)
  deriving DecidableEq, Repr

/-- The interest set of an instance; `none` when `epfd` is not one. -/
def Kernel.interest (kernel : Kernel) (epfd : Fd) : Option (List Fd) :=
  kernel.epolls.lookup epfd

/-- `epoll_create1(0)` that returns `created`: a new, empty instance, or -1. -/
def Kernel.epollCreate1 (kernel : Kernel) (created : Fd) : Kernel :=
  if created = -1 then kernel else { kernel with epolls := (created, []) :: kernel.epolls }

/-- What the server did, as far as waiting for clients goes. -/
inductive ServerEvent where
  /-- `iperf_accept` was called -/
  | accept
  /-- `epoll_wait(epfd, …, -1)` was called, with the interest set of `epfd` and
  the listening socket of the test as they were -/
  | wait (epfd : Fd) (interest : Option (List Fd)) (listener : Fd)
  /-- it reported `fds` -/
  | reports (listener : Fd) (fds : List Fd)
  deriving DecidableEq, Repr

/-- How a run ends. -/
inductive RunEnd where
  | returned (ret : Int32)
  | faulted (fault : Fault)
  /-- in the middle of the loop, at the end of the script -/
  | running
  deriving DecidableEq, Repr

/-! ## Opening the descriptors -/

/-- `iperf_create_epoll`. -/
def iperfCreateEpoll (ipt : IperfTest) (created : Fd) : Int32 × IperfTest :=
  let ipt := { ipt with epollFd := created }
  if ipt.epollFd = -1 then (1, ipt) else (0, ipt)

/-- `iperf_create_timerfd`. -/
def iperfCreateTimerfd (ipt : IperfTest) (created : Fd) : Int32 × IperfTest :=
  let ipt := { ipt with timerFd := created }
  if ipt.timerFd = -1 then (-1, ipt) else (0, ipt)

/-- `iperf_server_listen`. -/
def iperfServerListen (test : IperfTest) (announced : Fd) : Int32 × IperfTest :=
  let test := { test with listener := announced }
  if test.listener < 0 then (-1, test) else (0, test)

/-! ## The loop -/

/-- `if (test->state != CREATE_STREAMS) iperf_accept(test)`; without the call
the result is 0. -/
def acceptStep (json : CjsonLib) (test : IperfTest) (sys : Sys) :
    List ServerEvent × Except Fault (Int32 × IperfTest) :=
  if test.state ≠ CREATE_STREAMS then
    ([.accept], do
      let (r, test, _) ← iperfAccept json test sys
      return (r, test))
  else
    ([], .ok (0, test))

/-- The call of `epoll_wait`. -/
def waitEvent (kernel : Kernel) (test : IperfTest) : ServerEvent :=
  .wait test.epollFd (kernel.interest test.epollFd) test.listener

/-- `while (test->state != IPERF_DONE) { … }`. -/
def serverLoop (json : CjsonLib) (kernel : Kernel) :
    List Round → IperfTest → List ServerEvent × RunEnd
  | [], test => ([], if test.state = IPERF_DONE then .returned 0 else .running)
  | round :: rounds, test =>
      if test.state = IPERF_DONE then ([], .returned 0)
      else
        match acceptStep json test round.accepting with
        | (evs, .error fault) => (evs, .faulted fault)
        | (evs, .ok (r, test)) =>
            if r < 0 then (evs, .returned (-1))
            else
              match round.waited with
              | .fails => (evs ++ [waitEvent kernel test], .returned 1)
              | .blocks => (evs ++ [waitEvent kernel test], .running)
              | .reports fds =>
                  let (evs', ending) := serverLoop json kernel rounds test
                  (evs ++ waitEvent kernel test :: .reports test.listener fds :: evs', ending)

/-- `iperf_run_server(test)`, in a process without epoll instances. -/
def iperfRunServer (json : CjsonLib) (setup : Setup) (rounds : List Round) (test : IperfTest) :
    List ServerEvent × RunEnd :=
  let kernel := (Kernel.mk []).epollCreate1 setup.epollCreate
  let (r, test) := iperfCreateEpoll test setup.epollCreate
  if r < 0 then ([], .returned (-2))
  else
    let (r, test) := iperfServerListen test setup.netannounce
    if r < 0 then ([], .returned (-2))
    else
      let (r, test) := iperfCreateTimerfd test setup.timerfdCreate
      if r < 0 then ([], .returned (-2))
      else serverLoop json kernel rounds test

end KernelTestkit.Server
