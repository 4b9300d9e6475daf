/-
KernelTestkit.Cli.Arguments — main.c: the option loop and the start-up.

An option either lets the loop go on or makes `iperf_parse_arguments`
return; several store their value first and check it then. `parseLoop` is
the loop over what `getopt_long` reports, and the check for a role behind
it.

`main` ignores the result of `iperf_parse_arguments`; `run` looks at the
role only. What is printed is left out, and so are the signal handlers.
-/
import KernelTestkit.Cli.Getopt
import KernelTestkit.Cli.Scan
import KernelTestkit.Api.Test

namespace KernelTestkit.Cli

open KernelTestkit.Net
open KernelTestkit.Api

def OPT_LOGFILE : Char := '\x02'
def OPT_CLIENT_PORT : Char := '\x05'

def MAX_MSS : Int32 := 9 * 1024

/-! ## The options -/

/-- An entry of `longopts` with `required_argument`. -/
def requiredArgument (name : String) (val : Char) : LongOption := ⟨lit name, true, val⟩

/-- An entry of `longopts` with `no_argument`. -/
def noArgument (name : String) (val : Char) : LongOption := ⟨lit name, false, val⟩

def longopts : List LongOption :=
  [requiredArgument "port" 'p', requiredArgument "format" 'f', noArgument "verbose" 'V',
   noArgument "json" 'J', noArgument "version" 'v', noArgument "server" 's',
   requiredArgument "client" 'c', noArgument "udp" 'u', requiredArgument "bitrate" 'b',
   requiredArgument "bandwidth" 'b', requiredArgument "time" 't', requiredArgument "bytes" 'n',
   requiredArgument "blockcount" 'k', requiredArgument "length" 'l',
   requiredArgument "parallel" 'P', noArgument "reverse" 'R', requiredArgument "window" 'w',
   requiredArgument "bind" 'B', requiredArgument "cport" OPT_CLIENT_PORT,
   requiredArgument "set-mss" 'M', noArgument "no-delay" 'N', noArgument "zerocopy" 'Z',
   requiredArgument "affinity" 'A', requiredArgument "pidfile" 'I',
   requiredArgument "logfile" OPT_LOGFILE, noArgument "help" 'h']

/-- What `iperf_parse_arguments` passes to `getopt_long`. -/
def iperfSyntax : Syntax where
  optstring := "p:f:D1VJvsc:ub:t:n:k:l:P:Rw:B:M:N46S:L:ZO:F:A:T:C:dI:hX:".toList
  longopts := longopts

/-- The letters 'f' accepts. -/
def unitFormats : List Char := ['k', 'K', 'm', 'M', 'g', 'G', 't', 'T']

/-- `*s`. -/
def firstChar (s : CString) : Char :=
  match s.bytes with
  | [] => '\x00'
  | b :: _ => Char.ofNat b.toNat

/-- A pointer that is read through. -/
def nonNull : Option CString → Except Fault CString
  | some s => .ok s
  | none => .error .nullPointer

/-- `iperf_set_test_server_hostname`. -/
def iperfSetTestServerHostname (ipt : IperfTest) (serverHostname : Option CString) :
    Except Fault IperfTest := do
  let s ← nonNull serverHostname
  return { ipt with serverHostname := some s }

variable {double : Type}

/-- The `switch` of the option loop: `none` where it goes on, the result where
`iperf_parse_arguments` returns. -/
def parseOption (ops : DoubleOps double) (opt : Opt) (test : IperfTest) :
    Except Fault (Option Int32 × IperfTest) :=
  match opt.flag with
  | 'p' => do
      let optarg ← nonNull opt.optarg
      return (none, { test with serverPort := atoi optarg })
  | 'f' => do
      let optarg ← nonNull opt.optarg
      let test := { test with settings := { test.settings with unitFormat := firstChar optarg } }
      if test.settings.unitFormat ∈ unitFormats then return (none, test)
      else return (some (-1), test)
  | 'V' => .ok (none, { test with verbose := 1 })
  | 's' =>
      if test.role = 'c' then .ok (some (-1), test)
      else do
        let test ← iperfSetTestRole test 's'
        return (none, test)
  | 'c' =>
      if test.role = 's' then .ok (some (-1), test)
      else do
        let test ← iperfSetTestRole test 'c'
        let test ← iperfSetTestServerHostname test opt.optarg
        return (none, test)
  | 'u' => do
      let (_, test) ← setProtocol test Pudp
      return (none, test)
  | 'b' => do
      let optarg ← nonNull opt.optarg
      let rate := ops.toUInt64 (unitAtofRate ops optarg)
      return (none, { test with settings := { test.settings with rate := rate } })
  | 't' => do
      let optarg ← nonNull opt.optarg
      return (none, { test with duration := atoi optarg })
  | '\x05' => do
      let optarg ← nonNull opt.optarg
      return (none, { test with bindPort := atoi optarg })
  | 'M' => do
      let optarg ← nonNull opt.optarg
      let test := { test with settings := { test.settings with mss := atoi optarg } }
      if test.settings.mss > MAX_MSS then return (some (-1), test)
      else return (none, test)
  | _ => .ok (none, test)

/-- The option loop; every round finds other garbage on the stack. -/
def parseLoop (ops : DoubleOps double) :
    List Opt → IperfTest → Except Fault (Int32 × IperfTest)
  | [], test =>
      if test.role ≠ 'c' ∧ test.role ≠ 's' then .ok (-1, test) else .ok (0, test)
  | opt :: opts, test => do
      let (returned, test) ← parseOption ops opt test
      match returned with
      | some r => return (r, test)
      | none => parseLoop ops.next opts test

/-- The options of a command line; the first argument is the program name. -/
def options (posixlyCorrect : Bool) (argv : List CString) : List Opt :=
  getoptLong iperfSyntax posixlyCorrect argv.tail

/-- `iperf_parse_arguments(test, argc, argv)`. -/
def iperfParseArguments (ops : DoubleOps double) (posixlyCorrect : Bool) (test : IperfTest)
    (argv : List CString) : Except Fault (Int32 × IperfTest) :=
  parseLoop ops (options posixlyCorrect argv) test

/-! ## The start-up -/

/-- What `run` enters. -/
inductive Entered where
  /-- `iperf_run_server(test)` -/
  | server (test : IperfTest)
  /-- `iperf_run_client(test)` -/
  | client (test : IperfTest)
  deriving DecidableEq, Repr

/-- The test `run` hands over. -/
def Entered.test : Entered → IperfTest
  | .server test => test
  | .client test => test

/-- `run(test)`. -/
def run (test : IperfTest) : Option Entered :=
  match test.role with
  | 's' => some (.server test)
  | 'c' => some (.client test)
  | _ => none

/-- The test behind `iperf_new_test` and `iperf_defaults`; `node` is what
`protocol_new` returns. -/
def defaultTest (node : Option Nat) : IperfTest := (iperfDefaults node iperfNewTest).2

/-- `main(argc, argv)`, as far as what it runs; `allocated` says whether
`iperf_new_test` finds memory. -/
def main (ops : DoubleOps double) (posixlyCorrect : Bool) (allocated : Bool) (node : Option Nat)
    (argv : List CString) : Except Fault (Option Entered) :=
  if allocated then do
    let (_, test) ← iperfParseArguments ops posixlyCorrect (defaultTest node) argv
    return run test
  else
    return none

end KernelTestkit.Cli
