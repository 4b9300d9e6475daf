/-
KernelTestkit.Api.Exchange — `iperf_set_send_state` and
`iperf_exchange_parameters`.

The client branch sends its parameters. The server branch receives them,
listens for the data streams, and either announces `CREATE_STREAMS` or
reports the `errno` of the failed `listen`, twice.

`protocol->listen` is not part of the repository: what it returns, the
`errno` it leaves and the listening descriptor are the `Listening` of the
environment. It is assumed to touch neither `ctrl_sck` and `state` nor an
epoll instance; the same is assumed of `on_connect`.
-/
import KernelTestkit.Api.Parameters

namespace KernelTestkit.Api

open KernelTestkit.Lib
open KernelTestkit.Net

/-- `iperf_set_send_state(test, state)`. -/
def iperfSetSendState (test : IperfTest) (state : Int8) (sys : Sys) : Int32 × IperfTest × Sys :=
  let test := { test with state := state }
  let (r, sys) := nwrite test.ctrlSck [state.toUInt8] sys
  if r < 0 then (-1, test, sys.setErrno ECONNREFUSED) else (0, test, sys)

/-- `test->protocol->listen(test)`. Of the test it sets the listener only. -/
def listen (test : IperfTest) (sys : Sys) : Except Fault (Int32 × IperfTest × Sys) :=
  match test.protocol with
  | none => .error .nullPointer
  | some _ =>
      .ok (sys.listening.ret, { test with listener := sys.listening.listener },
        (sys.setErrno sys.listening.errno).log (.listen sys.listening.ret))

/-- The branch of `iperf_exchange_parameters` after a failed `listen`; it
returns -1 in every case. -/
def sendServerError (test : IperfTest) (sys : Sys) : IperfTest × Sys :=
  let (r, test, sys) := iperfSetSendState test SERVER_ERROR sys
  if r ≠ 0 then (test, sys)
  else
    let (r, sys) := nwrite test.ctrlSck (be32 sys.errno.toUInt32) sys
    if r < 0 then (test, sys.setErrno EPROTOTYPE)
    else
      let (r, sys) := nwrite test.ctrlSck (be32 sys.errno.toUInt32) sys
      if r < 0 then (test, sys.setErrno EPROTOTYPE) else (test, sys)

/-- `iperf_exchange_parameters(test)`. -/
def iperfExchangeParameters (json : CjsonLib) (test : IperfTest) (sys : Sys) :
    Except Fault (Int32 × IperfTest × Sys) := do
  if test.role = 'c' then
    let (r, sys) ← sendParameters json test sys
    if r < 0 then return (-1, test, sys) else return (0, test, sys)
  else
    let (r, test, sys) ← getParameters json test sys
    if r < 0 then return (-1, test, sys)
    else
      let (s, test, sys) ← listen test sys
      if s < 0 then return (-1, sendServerError test sys)
      else
        let (r, test, sys) := iperfSetSendState test CREATE_STREAMS sys
        if r ≠ 0 then return (-1, test, sys) else return (0, test, sys)

end KernelTestkit.Api
