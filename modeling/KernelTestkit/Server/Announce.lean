/-
KernelTestkit.Server.Announce — `netannounce` and `getsockdomain` of net.c,
and `iperf_server_listen`, which calls the first.

The server asks the resolver for an address to bind to and opens a socket
of the family it gets. The service it asks for is the port, printed into a
buffer of six bytes. What the system answers is a `Network`; the calls that
are made are returned with the result.

`iperf_server_listen` passes the address family and the bind address of the
test, and the port the options have set.
-/
import KernelTestkit.Lib.Decimal
import KernelTestkit.Server.Run

namespace KernelTestkit.Server

open KernelTestkit.Lib
open KernelTestkit.Net
open KernelTestkit.Api

def AF_INET : Int32 := 2
def AF_INET6 : Int32 := 10
def SOCK_STREAM : Int32 := 1
def AI_PASSIVE : Int32 := 1

/-! ## The system -/

/-- The fields of `struct addrinfo` that `netannounce` sets. -/
structure Hints where
  aiFamily : Int32
  aiSocktype : Int32
  aiFlags : Int32
  deriving DecidableEq, Repr

/-- What the system answers. -/
structure Network where
  /-- `getaddrinfo(node, service, hints, …)`: the family of the first address, or
  none when the result is not 0 -/
  getaddrinfo : Option CString → CString → Hints → Option Int32
  socket : Fd
  setsockopt : Int32
  bind : Int32
  listen : Int32
  /-- `getsockname(fd, …)`: the family of a socket, or none for -1 -/
  getsockname : Fd → Option Int32

/-- A call to the system. -/
inductive NetCall where
  | getaddrinfo (node : Option CString) (service : CString) (hints : Hints)
  | socket (domain type : Int32)
  | setsockopt (s : Fd)
  | bind (s : Fd)
  | listen (s : Fd)
  | close (s : Fd)
  deriving DecidableEq, Repr

/-! ## Announcing -/

/-- `snprintf(str, size, "%d", value)`: what `str` holds afterwards. -/
def snprintfInt (size : Nat) (value : Int32) : CString :=
  cstringOf ((decimalInt value.toInt).take (size - 1))

/-- The hints of `netannounce`: a wildcard address of no given family is to be
an IPv6 one. -/
def announceHints (domain proto : Int32) (localAddress : Option CString) : Hints where
  aiFamily := if domain = AF_UNSPEC ∧ localAddress = none then AF_INET6 else domain
  aiSocktype := proto
  aiFlags := AI_PASSIVE

/-- `netannounce` with an address of a family. -/
def announceAt (net : Network) (aiFamily proto : Int32) : Fd × List NetCall :=
  let s := net.socket
  if s < 0 then (-1, [.socket aiFamily proto])
  else if net.setsockopt < 0 then (-1, [.socket aiFamily proto, .setsockopt s, .close s])
  else if net.bind < 0 then (-1, [.socket aiFamily proto, .setsockopt s, .bind s, .close s])
  else if proto = SOCK_STREAM then
    if net.listen < 0 then
      (-1, [.socket aiFamily proto, .setsockopt s, .bind s, .listen s, .close s])
    else
      (s, [.socket aiFamily proto, .setsockopt s, .bind s, .listen s])
  else
    (s, [.socket aiFamily proto, .setsockopt s, .bind s])

/-- `netannounce(domain, proto, local, port)`. -/
def netannounce (net : Network) (domain proto : Int32) (localAddress : Option CString)
    (port : Int32) : Fd × List NetCall :=
  let portstr := snprintfInt 6 port
  let hints := announceHints domain proto localAddress
  match net.getaddrinfo localAddress portstr hints with
  | none => (-1, [.getaddrinfo localAddress portstr hints])
  | some aiFamily =>
      let (s, calls) := announceAt net aiFamily proto
      (s, .getaddrinfo localAddress portstr hints :: calls)

/-- `getsockdomain(sock)`. -/
def getsockdomain (net : Network) (sock : Fd) : Int32 :=
  match net.getsockname sock with
  | some family => family
  | none => -1

/-- `iperf_server_listen(test)`, with the `netannounce` it calls. -/
def iperfServerAnnounce (net : Network) (test : IperfTest) : Int32 × IperfTest × List NetCall :=
  let (announced, calls) :=
    netannounce net test.settings.domain Ptcp test.bindAddress test.serverPort
  let (r, test) := iperfServerListen test announced
  (r, test, calls)

end KernelTestkit.Server
