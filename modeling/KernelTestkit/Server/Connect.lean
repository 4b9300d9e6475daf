/-
KernelTestkit.Server.Connect — `iperf_on_connect`, the callback that reports
a connection, and `iperf_printf`.

In the role of a server the callback prints the address and the port of the
peer from two locals, `ipr` and `port`. It fills them in when the control
socket is an IPv4 one, and prints them in any case: their contents at the
start are a parameter, `Locals`. Reading `ipr` stops at the first NUL, and
reading past its end is a fault.

The time the callback computes is not printed and is left out.
-/
import KernelTestkit.Api.Frame
import KernelTestkit.Server.Announce

namespace KernelTestkit.Server

open KernelTestkit.Lib
open KernelTestkit.Net
open KernelTestkit.Api

def INET6_ADDRSTRLEN : Nat := 46

/-! ## Addresses -/

/-- `struct sockaddr_storage`: what `getpeername` left in it. -/
structure SockaddrStorage where
  bytes : List UInt8
  length_bytes : bytes.length = 128
  deriving DecidableEq, Repr

namespace SockaddrStorage

/-- `sin_port` of the storage as a `struct sockaddr_in`. -/
def sinPort (sa : SockaddrStorage) : List UInt8 := (sa.bytes.drop 2).take 2

/-- `sin_addr`. -/
def sinAddr (sa : SockaddrStorage) : List UInt8 := (sa.bytes.drop 4).take 4

end SockaddrStorage

/-- `ntohs` of the two bytes in memory, as an `int`. -/
def ntohs (bytes : List UInt8) : Int32 := Int32.ofNat (beNat bytes)

/-- The dotted decimal text `inet_ntop` prints of an IPv4 address. -/
def dotted (addr : List UInt8) : List UInt8 :=
  List.intercalate [46] (addr.map fun b => decimal b.toNat)

/-! ## The report -/

/-- The contents of `ipr` and `port` when the function starts. -/
structure Locals where
  ipr : Block UInt8
  port : Int32
  length_ipr : ipr.length = INET6_ADDRSTRLEN
  deriving DecidableEq, Repr

/-- `iperf_printf(test, …)` of a line: what is printed. -/
def iperfPrintf (test : IperfTest) (line : Except Fault (List UInt8)) :
    Except Fault (List UInt8) :=
  if test.role = 'c' then line
  else if test.role = 's' then do
    let linebuffer ← line
    return linebuffer.take 1023
  else return []

/-- The line of `report_connecting`, "Connecting to host %s, port %d\n". -/
def reportConnecting (host : Option CString) (port : Int32) : Except Fault (List UInt8) :=
  match host with
  | none => .error .nullPointer
  | some host => .ok ((lit "Connecting to host ").bytes ++ host.bytes ++ (lit ", port ").bytes
      ++ decimalInt port.toInt ++ [10])

/-- The line of `report_accepted`, "Accepted connection from %s, port %d\n". -/
def reportAccepted (ipr : Block UInt8) (port : Int32) : Except Fault (List UInt8) := do
  let host ← readCString ipr
  return (lit "Accepted connection from ").bytes ++ host.bytes ++ (lit ", port ").bytes
    ++ decimalInt port.toInt ++ [10]

/-- `iperf_on_connect(test)`: what it prints. -/
def iperfOnConnect (net : Network) (test : IperfTest) (sa : SockaddrStorage) (locals : Locals) :
    Except Fault (List UInt8) :=
  if test.role = 'c' then
    iperfPrintf test (reportConnecting test.serverHostname test.serverPort)
  else if getsockdomain net test.ctrlSck = AF_INET then do
    let ipr ← storeAt locals.ipr 0 (dotted sa.sinAddr ++ [0])
    iperfPrintf test (reportAccepted ipr (ntohs sa.sinPort))
  else
    iperfPrintf test (reportAccepted locals.ipr locals.port)

end KernelTestkit.Server
