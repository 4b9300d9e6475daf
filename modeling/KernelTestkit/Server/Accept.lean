/-
KernelTestkit.Server.Accept — `iperf_accept` of the server.

A free server, one whose `ctrl_sck` is -1, takes the new socket as its
control socket and runs the parameter exchange on it. A busy one denies
the client a session.

The peer address `accept` fills in is not used and is left out.
-/
import KernelTestkit.Api.Exchange

namespace KernelTestkit.Server

open KernelTestkit.Net
open KernelTestkit.Api

/-- `iperf_accept(test)`. -/
def iperfAccept (json : CjsonLib) (test : IperfTest) (sys : Sys) :
    Except Fault (Int32 × IperfTest × Sys) := do
  let (s, sys) := sys.accept
  if s < 0 then return (-1, test, sys.setErrno ECONNRESET)
  else if test.ctrlSck = -1 then
    let test := { test with ctrlSck := s }
    let (r, test, sys) := iperfSetSendState test PARAM_EXCHANGE sys
    if r ≠ 0 then return (-1, test, sys)
    else
      let (r, test, sys) ← iperfExchangeParameters json test sys
      if r < 0 then return (-1, test, sys)
      else return (0, test, if test.onConnect then sys.log .onConnect else sys)
  else
    let (r, sys) := nwrite s [ACCESS_DENIED.toUInt8] sys
    if r < 0 then return (-1, test, sys.setErrno ECONNREFUSED)
    else return (0, test, sys.close s)

end KernelTestkit.Server
