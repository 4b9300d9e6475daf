/-
KernelTestkit.Api.Test — `struct iperf_test`, its defaults and its setters.

The record carries the fields the modelled functions read or write; the
rest of `struct iperf_test` is left out. A C `int` is an `Int32` and a
`uint64_t` a `UInt64`, so a field cannot hold a value its C type cannot.

`test->protocol` may be NULL, and `check_sender_has_retransmits` reads
`test->protocol->id` when `sender` is set: every function that reaches it
answers in `Except Fault`.

`iperf_defaults` is modelled as it is meant: the source names a variable
`tcp` whose declaration is commented out and passes the tail insertion a
third argument, but what the block does is to register one protocol, TCP.
-/
import KernelTestkit.Net.Sys
import KernelTestkit.Api.Cjson
import KernelTestkit.Util.ListHead

namespace KernelTestkit.Api

open KernelTestkit.Net
open KernelTestkit.Util

/-! ## Constants of iperf.h and iperf_api.h -/

def Ptcp : Int32 := 1
def Pudp : Int32 := 2
def AF_UNSPEC : Int32 := 0

def PARAM_EXCHANGE : Int8 := 9
def CREATE_STREAMS : Int8 := 10
def ACCESS_DENIED : Int8 := -1
def SERVER_ERROR : Int8 := -2

def PORT : Int32 := 5201
def DURATION : Int32 := 10
def DEFAULT_TCP_BLKSIZE : Int32 := 128 * 1024

/-! ## The record -/

/-- `struct protocol`. `node` stands for the address of the entry, so two
entries with equal contents stay apart. Its callbacks are the `Listening`
of the environment. -/
structure Protocol where
  node : Nat
  id : Int32
  name : CString
  deriving DecidableEq, Repr

/-- `struct iperf_settings`. -/
structure IperfSettings where
  domain : Int32
  socketBufsize : Int32
  blksize : Int32
  rate : UInt64
  fqrate : UInt64
  pacingTimer : Int32
  burst : Int32
  mss : Int32
  tos : Int32
  bytes : UInt64
  blocks : UInt64
  unitFormat : Char
  connectTimeout : Int32
  deriving DecidableEq, Repr

/-- `struct iperf_test`. A pointer that may be NULL is an `Option`;
`onConnect` says whether the callback is set. -/
structure IperfTest where
  role : Char
  sender : Int32
  senderHasRetransmits : Int32
  protocol : Option Protocol
  state : Int8
  serverHostname : Option CString
  bindAddress : Option CString
  bindPort : Int32
  serverPort : Int32
  duration : Int32
  affinity : Int32
  serverAffinity : Int32
  title : Option CString
  congestion : Option CString
  congestionUsed : Option CString
  ctrlSck : Fd
  listener : Fd
  epollFd : Fd
  timerFd : Fd
  noDelay : Int32
  reverse : Int32
  verbose : Int32
  debug : Int32
  getServerOutput : Int32
  udpCounters64bit : Int32
  numStreams : Int32
  settings : IperfSettings
  protocols : List Protocol
  onConnect : Bool
  deriving DecidableEq, Repr

/-! ## Creation and defaults -/

/-- The zeroed settings `calloc` returns. -/
def zeroSettings : IperfSettings where
  domain := 0
  socketBufsize := 0
  blksize := 0
  rate := 0
  fqrate := 0
  pacingTimer := 0
  burst := 0
  mss := 0
  tos := 0
  bytes := 0
  blocks := 0
  unitFormat := '\x00'
  connectTimeout := 0

/-- `iperf_new_test()`, when both allocations succeed: everything zero. -/
def iperfNewTest : IperfTest where
  role := '\x00'
  sender := 0
  senderHasRetransmits := 0
  protocol := none
  state := 0
  serverHostname := none
  bindAddress := none
  bindPort := 0
  serverPort := 0
  duration := 0
  affinity := 0
  serverAffinity := 0
  title := none
  congestion := none
  congestionUsed := none
  ctrlSck := 0
  listener := 0
  epollFd := 0
  timerFd := 0
  noDelay := 0
  reverse := 0
  verbose := 0
  debug := 0
  getServerOutput := 0
  udpCounters64bit := 0
  numStreams := 0
  settings := zeroSettings
  protocols := []
  onConnect := false

/-- The entry `iperf_defaults` registers, at the address `node`. -/
def tcpProtocol (node : Nat) : Protocol where
  node := node
  id := Ptcp
  name := lit "TCP"

/-- `iperf_defaults(testp)`; `node` is what `protocol_new` returns, `none`
for NULL. -/
def iperfDefaults (node : Option Nat) (testp : IperfTest) : Int32 × IperfTest :=
  let testp := { testp with
    duration := DURATION
    affinity := -1
    serverAffinity := -1
    serverPort := PORT
    ctrlSck := -1
    epollFd := -1
    timerFd := -1
    numStreams := 1
    settings := { testp.settings with
      domain := AF_UNSPEC
      unitFormat := 'a'
      socketBufsize := 0
      blksize := DEFAULT_TCP_BLKSIZE
      rate := 0
      fqrate := 0
      pacingTimer := 1000
      burst := 0
      mss := 0
      bytes := 0
      blocks := 0
      connectTimeout := -1 }
    protocols := [] }
  match node with
  | none => (-1, testp)
  | some node =>
      (0, { testp with
        protocols := testp.protocols ++ [tcpProtocol node]
        onConnect := true })

/-! ## Roles -/

/-- `! x` of C. -/
def lnot (x : Int32) : Int32 := if x = 0 then 1 else 0

/-- `check_sender_has_retransmits`. -/
def checkSenderHasRetransmits (ipt : IperfTest) : Except Fault IperfTest :=
  if ipt.sender ≠ 0 then
    match ipt.protocol with
    | none => .error .nullPointer
    | some protocol =>
        if protocol.id = Ptcp then .ok { ipt with senderHasRetransmits := 1 }
        else .ok { ipt with senderHasRetransmits := 0 }
  else
    .ok { ipt with senderHasRetransmits := 0 }

/-- `iperf_set_test_role`. -/
def iperfSetTestRole (ipt : IperfTest) (role : Char) : Except Fault IperfTest :=
  let ipt := { ipt with role := role }
  let ipt :=
    if role = 'c' then { ipt with sender := 1 }
    else if role = 's' then { ipt with sender := 0 }
    else ipt
  let ipt := if ipt.reverse ≠ 0 then { ipt with sender := lnot ipt.sender } else ipt
  checkSenderHasRetransmits ipt

/-- `iperf_set_test_reverse`. -/
def iperfSetTestReverse (ipt : IperfTest) (reverse : Int32) : Except Fault IperfTest :=
  let ipt := { ipt with reverse := reverse }
  let ipt := if ipt.reverse ≠ 0 then { ipt with sender := lnot ipt.sender } else ipt
  checkSenderHasRetransmits ipt

/-- `set_protocol`: the first entry of `test->protocols` with the id. -/
def setProtocol (test : IperfTest) (protId : Int32) : Except Fault (Int32 × IperfTest) :=
  match test.protocols.find? (·.id = protId) with
  | some prot => do
      let test ← checkSenderHasRetransmits { test with protocol := some prot }
      return (0, test)
  | none => .ok (-1, test)

/-- `get_protocol`: what the loop over `test->protocols` leaves in its cursor;
`none` is NULL. The cursor is a computed address and never NULL, so the
branch of the source that tests it for NULL only prints when it cannot. -/
def getProtocol (test : IperfTest) (protId : Int32) : Option (Cursor Protocol) :=
  some (forEachEntry (·.id = protId) test.protocols)

/-- A new server test: `iperf_new_test`, `iperf_defaults`, and
`iperf_set_test_role` with 's'. -/
def serverTest (node : Nat) : Except Fault IperfTest :=
  iperfSetTestRole (iperfDefaults (some node) iperfNewTest).2 's'

end KernelTestkit.Api
