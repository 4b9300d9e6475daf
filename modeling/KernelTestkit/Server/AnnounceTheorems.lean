/-
KernelTestkit.Server.AnnounceTheorems — the port the server listens on.

`netannounce` asks for the port in five characters. The digits of a longer
number are cut, and what is left is the number of another port
(`snprintfInt_eq_iff`); a number that fits but is no port is asked for as
it is. `server_port_iff` says for which ports the request is the right one,
and `parse_server_port` that the command line can set any.
-/
import KernelTestkit.Api.TestTheorems
import KernelTestkit.Cli.Arguments
import KernelTestkit.Server.Announce

namespace KernelTestkit.Server

open KernelTestkit.Lib
open KernelTestkit.Net
open KernelTestkit.Api
open KernelTestkit.Cli

/-! ## Printing the port -/

theorem decimalInt_ne_zero (z : Int) : ∀ b ∈ decimalInt z, b ≠ 0 := by
  have hdigit : ∀ b ∈ decimal z.natAbs, b ≠ 0 := by
    intro b hb hzero
    have hle := (isDigit_decimal _ b hb).1
    rw [hzero] at hle
    exact absurd hle (by decide)
  intro b hb
  unfold decimalInt at hb
  split at hb
  · rcases List.mem_cons.mp hb with rfl | hb
    · decide
    · exact hdigit b hb
  · exact hdigit b hb

/-- A text without a NUL is all of its string. -/
theorem bytes_cstringOf {text : List UInt8} (h : ∀ b ∈ text, b ≠ 0) :
    (cstringOf text).bytes = text := by
  unfold cstringOf
  rw [List.takeWhile_eq_self_iff]
  intro b hb
  rw [bne_iff_ne]
  exact h b hb

/-- `snprintf` keeps what there is room for. -/
theorem bytes_snprintfInt (size : Nat) (value : Int32) :
    (snprintfInt size value).bytes = (decimalInt value.toInt).take (size - 1) :=
  bytes_cstringOf fun b hb => decimalInt_ne_zero _ b (List.mem_of_mem_take hb)

/-- A number has at most five characters between -9999 and 99999. -/
theorem length_decimalInt_le_iff (z : Int) :
    (decimalInt z).length ≤ 5 ↔ -9999 ≤ z ∧ z ≤ 99999 := by
  unfold decimalInt
  split
  · have hlength := length_decimal_le_iff z.natAbs 3
    rw [List.length_cons]
    omega
  · have hlength := length_decimal_le_iff z.natAbs 4
    omega

/-- **The service is the whole port** exactly between -9999 and 99999. -/
theorem snprintfInt_eq_iff (port : Int32) :
    (snprintfInt 6 port).bytes = decimalInt port.toInt ↔
      -9999 ≤ port.toInt ∧ port.toInt ≤ 99999 := by
  rw [bytes_snprintfInt, ← length_decimalInt_le_iff]
  constructor
  · intro h
    rw [← h, List.length_take]
    exact Nat.min_le_left _ _
  · exact List.take_of_length_le

/-! ## Reading the port -/

theorem takeWhile_isdigit_decimal (n : Nat) : (decimal n).takeWhile isdigit = decimal n := by
  rw [List.takeWhile_eq_self_iff]
  intro b hb
  obtain ⟨hlow, hhigh⟩ := isDigit_decimal n b hb
  simp [isdigit, hlow, hhigh]

/-- `strtol` reads what `%d` prints. -/
theorem strtol_decimalInt {s : CString} {z : Int} (hs : s.bytes = decimalInt z)
    (hlow : -2 ^ 63 ≤ z) (hhigh : z < 2 ^ 63) : strtol s = z := by
  have hvalue : digitsValue (decimal z.natAbs) = z.natAbs := decimalValue_decimal z.natAbs
  unfold decimalInt at hs
  split at hs
  · -- a minus sign
    have hsign : (45 :: decimal z.natAbs).dropWhile isspace = 45 :: decimal z.natAbs := rfl
    rw [strtol, hs, hsign]
    dsimp only
    rw [if_pos rfl, takeWhile_isdigit_decimal, hvalue]
    omega
  · -- a digit, which is neither a blank nor a sign
    obtain ⟨b, bs, hbytes⟩ := List.exists_cons_of_length_pos (length_decimal_pos z.natAbs)
    obtain ⟨h48, _⟩ := isDigit_decimal z.natAbs b (hbytes ▸ List.mem_cons_self ..)
    have hbelow : ∀ c < 48, b ≠ c := by
      rintro c hc rfl
      exact UInt8.not_lt.mpr h48 hc
    have hspace : isspace b = false := by
      have h13 : ¬ b ≤ 13 := fun h => absurd (UInt8.le_trans h48 h) (by decide)
      simp [isspace, h13, hbelow 32 (by decide)]
    rw [strtol, hs, hbytes, List.dropWhile_cons_of_neg (by rw [hspace]; decide)]
    dsimp only
    rw [if_neg (hbelow 45 (by decide)), if_neg (hbelow 43 (by decide)), ← hbytes,
      takeWhile_isdigit_decimal, hvalue]
    omega

/-- `atoi` reads an `int` that was printed in full. -/
theorem atoi_decimalInt {s : CString} {value : Int32} (hs : s.bytes = decimalInt value.toInt) :
    atoi s = value := by
  have hlow := value.le_toInt
  have hhigh := value.toInt_lt
  rw [atoi, strtol_decimalInt hs (by omega) (by omega), Int32.ofInt_toInt]

/-- The argument of -p for a port. -/
def portArgument (port : Int32) : CString := cstringOf (decimalInt port.toInt)

/-- **Every `int` is a port for -p**: its decimal is the argument. -/
theorem parse_server_port {double : Type} (ops : DoubleOps double) (port : Int32) :
    iperfParseArguments ops false (defaultTest (some 0))
        [lit "iperf", lit "-s", lit "-p", portArgument port]
      = .ok (0, { newServer 0 with serverPort := port }) := by
  have hatoi : atoi (portArgument port) = port :=
    atoi_decimalInt (bytes_cstringOf (decimalInt_ne_zero port.toInt))
  have hoptions : options false [lit "iperf", lit "-s", lit "-p", portArgument port]
      = [⟨'s', none⟩, ⟨'p', some (portArgument port)⟩] := rfl
  have hparse : parseLoop ops [⟨'s', none⟩, ⟨'p', some (portArgument port)⟩] (defaultTest (some 0))
      = .ok (0, { newServer 0 with serverPort := atoi (portArgument port) }) := rfl
  rw [iperfParseArguments, hoptions, hparse, hatoi]

/-! ## The request -/

/-- `netannounce` with a family opens a socket of it, and resolves nothing. -/
theorem announceAt_calls (net : Network) (aiFamily proto : Int32) :
    ∃ calls, (announceAt net aiFamily proto).2 = .socket aiFamily proto :: calls ∧
      ∀ node service hints, .getaddrinfo node service hints ∉ calls := by
  unfold announceAt
  dsimp only
  repeat' split
  all_goals exact ⟨_, rfl, by simp⟩

/-- **What the resolver is asked**: for the bind address and the port. -/
theorem netannounce_getaddrinfo_iff (net : Network) (domain proto : Int32)
    (localAddress : Option CString) (port : Int32) (node : Option CString) (service : CString)
    (hints : Hints) :
    .getaddrinfo node service hints ∈ (netannounce net domain proto localAddress port).2 ↔
      node = localAddress ∧ service = snprintfInt 6 port ∧
        hints = announceHints domain proto localAddress := by
  unfold netannounce
  dsimp only
  split
  · simp
  · rename_i aiFamily _
    obtain ⟨calls, hcalls, hnone⟩ := announceAt_calls net aiFamily proto
    simp [hcalls, hnone]

/-- The server asks for the port it was told, which is one, or fails. -/
structure ListensOnPort (net : Network) (test : IperfTest) : Prop where
  service : ∀ node service hints,
    .getaddrinfo node service hints ∈ (iperfServerAnnounce net test).2.2 →
    service.bytes = decimalInt test.serverPort.toInt ∧
      0 ≤ test.serverPort.toInt ∧ test.serverPort.toInt ≤ 65535
  otherwise : ¬ (0 ≤ test.serverPort.toInt ∧ test.serverPort.toInt ≤ 65535) →
    (iperfServerAnnounce net test).1 = -1

theorem iperfServerAnnounce_getaddrinfo_iff (net : Network) (test : IperfTest)
    (node : Option CString) (service : CString) (hints : Hints) :
    .getaddrinfo node service hints ∈ (iperfServerAnnounce net test).2.2 ↔
      node = test.bindAddress ∧ service = snprintfInt 6 test.serverPort ∧
        hints = announceHints test.settings.domain Ptcp test.bindAddress :=
  netannounce_getaddrinfo_iff net _ _ _ _ node service hints

theorem server_port_bounds {net : Network} {test : IperfTest} (h : ListensOnPort net test) :
    0 ≤ test.serverPort.toInt ∧ test.serverPort.toInt ≤ 65535 := by
  have hasked := (iperfServerAnnounce_getaddrinfo_iff net test _ _ _).mpr ⟨rfl, rfl, rfl⟩
  exact (h.service _ _ _ hasked).2

/-- **The server listens on the port it was told** exactly when that is between
0 and 65535, whatever the system answers. -/
theorem server_port_iff (net : Network) (test : IperfTest) :
    ListensOnPort net test ↔ 0 ≤ test.serverPort.toInt ∧ test.serverPort.toInt ≤ 65535 := by
  constructor
  · exact server_port_bounds
  · intro hport
    refine ⟨?_, fun hno => absurd hport hno⟩
    intro node service hints hasked
    obtain ⟨_, rfl, _⟩ := (iperfServerAnnounce_getaddrinfo_iff net test _ _ _).mp hasked
    exact ⟨(snprintfInt_eq_iff test.serverPort).mpr (by omega), hport⟩

/-- A system in which everything succeeds; a family that was asked for is the
one that is found. -/
def willing : Network where
  getaddrinfo _ _ hints := some hints.aiFamily
  socket := 3
  setsockopt := 0
  bind := 0
  listen := 0
  getsockname _ := some AF_INET6

/-- `iperf -s -p 123456` listens on port 12345. -/
theorem long_port_listens_on_another : ∃ t,
    iperfParseArguments DoubleOps.integral false (defaultTest (some 0))
      [lit "iperf", lit "-s", lit "-p", lit "123456"] = .ok (0, t) ∧
    t.serverPort = 123456 ∧ (iperfServerAnnounce willing t).1 = 0 ∧
    .getaddrinfo none (lit "12345") ⟨AF_INET6, SOCK_STREAM, AI_PASSIVE⟩
      ∈ (iperfServerAnnounce willing t).2.2 ∧
    ¬ ListensOnPort willing t := by
  have hparse : iperfParseArguments DoubleOps.integral false (defaultTest (some 0))
        [lit "iperf", lit "-s", lit "-p", lit "123456"] =
      .ok (0, { newServer 0 with serverPort := 123456 }) := by decide +kernel
  refine ⟨_, hparse, rfl, by decide +kernel, by decide +kernel, fun h => ?_⟩
  have hport := (server_port_bounds h).2
  exact absurd hport (by decide)

end KernelTestkit.Server
