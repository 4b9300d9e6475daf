/-
KernelTestkit.Api.Parameters — `send_parameters` and `get_parameters`.

The encoder is a table in the order of the source: one row for each member
it may add, with the condition under which it adds it. `present` keeps the
rows whose condition holds.

The decoder looks every key up on its own, in the order of the source. A
line `if ((j_p = cJSON_GetObjectItem(j, key)) != NULL) field = …` is an
update of the field that keeps the old value when the key is not found.
The lines that can fault are monadic: `strdup` of a NULL `valuestring`, and
the reads of `test->protocol->id`.

The debug output of both functions is left out.
-/
import KernelTestkit.Api.Frame
import KernelTestkit.Api.Test

namespace KernelTestkit.Api

open KernelTestkit.Lib
open KernelTestkit.Net

/-! ## The encoder -/

/-- The row of a string field; a NULL field adds nothing. -/
def stringRow (name : CString) (field : Option CString) : Bool × CString × CJson :=
  (field.isSome, name, match field with
    | some s => .string s
    | none => .null)

/-- The members `send_parameters` may add, in order, for a test whose
protocol is `protocol`. -/
def parameterRows (protocol : Protocol) (test : IperfTest) : List (Bool × CString × CJson) :=
  [(protocol.id = Ptcp, lit "tcp", .true),
   (protocol.id ≠ Ptcp ∧ protocol.id = Pudp, lit "udp", .true),
   (test.serverAffinity ≠ -1, lit "server_affinity", createNumber test.serverAffinity.toInt),
   (test.duration ≠ 0, lit "time", createNumber test.duration.toInt),
   (test.settings.bytes ≠ 0, lit "num", createNumber test.settings.bytes.toNat),
   (test.settings.blocks ≠ 0, lit "blockcount", createNumber test.settings.blocks.toNat),
   (test.settings.mss ≠ 0, lit "MSS", createNumber test.settings.mss.toInt),
   (test.noDelay ≠ 0, lit "nodelay", .true),
   (true, lit "parallel", createNumber test.numStreams.toInt),
   (test.reverse ≠ 0, lit "reverse", .true),
   (test.settings.socketBufsize ≠ 0, lit "window",
     createNumber test.settings.socketBufsize.toInt),
   (test.settings.blksize ≠ 0, lit "len", createNumber test.settings.blksize.toInt),
   (test.settings.rate ≠ 0, lit "bandwidth", createNumber test.settings.rate.toNat),
   (test.settings.fqrate ≠ 0, lit "fqrate", createNumber test.settings.fqrate.toNat),
   (test.settings.pacingTimer ≠ 0, lit "pacing_timer",
     createNumber test.settings.pacingTimer.toInt),
   (test.settings.burst ≠ 0, lit "burst", createNumber test.settings.burst.toInt),
   (test.settings.tos ≠ 0, lit "TOS", createNumber test.settings.tos.toInt),
   stringRow (lit "title") test.title,
   stringRow (lit "congestion") test.congestion,
   stringRow (lit "congestion_used") test.congestionUsed,
   (test.getServerOutput ≠ 0, lit "get_server_output", createNumber test.getServerOutput.toInt),
   (test.udpCounters64bit ≠ 0, lit "udp_counters_64bit",
     createNumber test.udpCounters64bit.toInt)]

/-- The object `send_parameters` builds. -/
def sendParametersObject (test : IperfTest) : Except Fault CJson :=
  match test.protocol with
  | none => .error .nullPointer
  | some protocol => .ok (.object (present (parameterRows protocol test)))

/-- `send_parameters(test)`. -/
def sendParameters (json : CjsonLib) (test : IperfTest) (sys : Sys) :
    Except Fault (Int32 × Sys) := do
  let j ← sendParametersObject test
  let (r, sys) := jsonWrite json test.ctrlSck j sys
  if r < 0 then return (-1, sys) else return (0, sys)

/-! ## The decoder -/

/-- `field = j_p->valueint` for an `int` field. -/
def intItem (j : CJson) (name : CString) (field : Int32) : Int32 :=
  match getObjectItem j name with
  | some j_p => j_p.valueint.toInt32
  | none => field

/-- `field = j_p->valueint` for a `uint64_t` field. -/
def uint64Item (j : CJson) (name : CString) (field : UInt64) : UInt64 :=
  match getObjectItem j name with
  | some j_p => j_p.valueint.toUInt64
  | none => field

/-- `field = 1`. -/
def flagItem (j : CJson) (name : CString) (field : Int32) : Int32 :=
  match getObjectItem j name with
  | some _ => 1
  | none => field

/-- `strdup(s)`. -/
def strdup : Option CString → Except Fault CString
  | some s => .ok s
  | none => .error .nullPointer

/-- `field = strdup(j_p->valuestring)`. -/
def stringItem (j : CJson) (name : CString) (field : Option CString) :
    Except Fault (Option CString) :=
  match getObjectItem j name with
  | some j_p => do
      let s ← strdup j_p.valuestring
      return some s
  | none => .ok field

/-- `set_protocol(test, protId)`, its result ignored. -/
def protocolItem (j : CJson) (name : CString) (protId : Int32) (test : IperfTest) :
    Except Fault IperfTest :=
  match getObjectItem j name with
  | some _ => do
      let (_, test) ← setProtocol test protId
      return test
  | none => .ok test

/-- `iperf_set_test_reverse(test, 1)`. -/
def reverseItem (j : CJson) (test : IperfTest) : Except Fault IperfTest :=
  match getObjectItem j (lit "reverse") with
  | some _ => iperfSetTestReverse test 1
  | none => .ok test

/-- `if (test->sender && test->protocol->id == Ptcp)`, the last line. -/
def retransmitsItem (test : IperfTest) : Except Fault IperfTest :=
  if test.sender ≠ 0 then
    match test.protocol with
    | none => .error .nullPointer
    | some protocol =>
        if protocol.id = Ptcp then .ok { test with senderHasRetransmits := 1 } else .ok test
  else
    .ok test

/-- The lines from "server_affinity" to "parallel". -/
def limitItems (j : CJson) (test : IperfTest) : IperfTest :=
  { test with
    serverAffinity := intItem j (lit "server_affinity") test.serverAffinity
    duration := intItem j (lit "time") test.duration
    settings := { test.settings with
      bytes := uint64Item j (lit "num") test.settings.bytes
      blocks := uint64Item j (lit "blockcount") test.settings.blocks
      mss := intItem j (lit "MSS") test.settings.mss }
    noDelay := flagItem j (lit "nodelay") test.noDelay
    numStreams := intItem j (lit "parallel") test.numStreams }

/-- The lines from "window" to "TOS". -/
def tuningItems (j : CJson) (test : IperfTest) : IperfTest :=
  { test with
    settings := { test.settings with
      socketBufsize := intItem j (lit "window") test.settings.socketBufsize
      blksize := intItem j (lit "len") test.settings.blksize
      rate := uint64Item j (lit "bandwidth") test.settings.rate
      fqrate := uint64Item j (lit "fqrate") test.settings.fqrate
      pacingTimer := intItem j (lit "pacing_timer") test.settings.pacingTimer
      burst := intItem j (lit "burst") test.settings.burst
      tos := intItem j (lit "TOS") test.settings.tos } }

/-- The lines from "title" to "congestion_used". -/
def stringItems (j : CJson) (test : IperfTest) : Except Fault IperfTest := do
  let title ← stringItem j (lit "title") test.title
  let congestion ← stringItem j (lit "congestion") test.congestion
  let congestionUsed ← stringItem j (lit "congestion_used") test.congestionUsed
  return { test with title := title, congestion := congestion, congestionUsed := congestionUsed }

/-- The lines for "get_server_output" and "udp_counters_64bit". -/
def outputItems (j : CJson) (test : IperfTest) : IperfTest :=
  { test with
    getServerOutput := flagItem j (lit "get_server_output") test.getServerOutput
    udpCounters64bit := flagItem j (lit "udp_counters_64bit") test.udpCounters64bit }

/-- What `get_parameters` does with the document it has read. -/
def applyParameters (j : CJson) (test : IperfTest) : Except Fault IperfTest := do
  let test ← protocolItem j (lit "tcp") Ptcp test
  let test ← protocolItem j (lit "udp") Pudp test
  let test ← reverseItem j (limitItems j test)
  let test ← stringItems j (tuningItems j test)
  retransmitsItem (outputItems j test)

/-- `get_parameters(test)`. -/
def getParameters (json : CjsonLib) (test : IperfTest) (sys : Sys) :
    Except Fault (Int32 × IperfTest × Sys) := do
  let (j, sys) ← jsonRead json test.ctrlSck sys
  match j with
  | none => return (-1, test, sys)
  | some j => do
      let test ← applyParameters j test
      return (0, test, sys)

end KernelTestkit.Api
