/-
KernelTestkit.Server.ConnectTheorems — what the report of a connection
depends on.

On an IPv4 socket the locals are overwritten before they are printed
(`iperfOnConnect_inet`). On any other they are printed as they were, and two
runs that start with different contents print different lines
(`iperfOnConnect_other`). The family of the socket comes from the request
`netannounce` makes: without a bind address that is IPv6.

* `accept_report_iff` — the bind settings for which the line shows only the
  peer.
-/
import KernelTestkit.Server.AnnounceTheorems
import KernelTestkit.Server.Connect

namespace KernelTestkit.Server

open KernelTestkit.Lib
open KernelTestkit.Net
open KernelTestkit.Api

/-! ## An IPv4 address -/

/-- The text of an address is short. -/
theorem length_dotted_le (addr : List UInt8) : (dotted addr).length ≤ 4 * addr.length := by
  have hbyte : ∀ b : UInt8, (decimal b.toNat).length ≤ 3 := by
    intro b
    have hlt := b.toNat_lt
    exact (length_decimal_le_iff b.toNat 2).mpr (by omega)
  unfold dotted
  induction addr with
  | nil => simp [List.intercalate]
  | cons b bs ih =>
      have hb := hbyte b
      cases bs with
      | nil =>
          simp [List.intercalate]
          omega
      | cons c cs =>
          simp only [List.map_cons, List.intercalate, List.intersperse, List.flatten_cons,
            List.length_append, List.length_cons, List.length_nil] at ih ⊢
          omega

/-- What follows a NUL is not read. -/
theorem cstringOf_append_nul (xs rest : List UInt8) :
    cstringOf (xs ++ 0 :: rest) = cstringOf xs := by
  apply CString.ext_bytes
  unfold cstringOf
  dsimp only
  induction xs with
  | nil => rfl
  | cons x xs ih =>
      rw [List.cons_append, List.takeWhile_cons, List.takeWhile_cons, ih]

theorem readCString_append_nul (xs rest : List UInt8) :
    readCString (xs ++ 0 :: rest) = .ok (cstringOf xs) := by
  have hmem : 0 ∈ xs ++ 0 :: rest := List.mem_append_right xs (List.mem_cons_self ..)
  rw [readCString, if_pos hmem, cstringOf_append_nul]

/-- `ipr` after `inet_ntop`, read as a string: what it was before is gone. -/
theorem inet_ntop_ipr (sa : SockaddrStorage) (locals : Locals) :
    ∃ ipr, storeAt locals.ipr 0 (dotted sa.sinAddr ++ [0]) = .ok ipr ∧
      readCString ipr = .ok (cstringOf (dotted sa.sinAddr)) := by
  have haddr : sa.sinAddr.length ≤ 4 := List.length_take_le 4 _
  have hfit : (dotted sa.sinAddr ++ [0]).length ≤ locals.ipr.length := by
    have hlength := length_dotted_le sa.sinAddr
    rw [locals.length_ipr, List.length_append, List.length_singleton, INET6_ADDRSTRLEN]
    omega
  refine ⟨_, storeAt_append [] locals.ipr _ hfit, ?_⟩
  rw [List.nil_append, List.append_assoc, List.singleton_append]
  exact readCString_append_nul _ _

/-! ## The report -/

section Report

variable {net : Network} {test : IperfTest} (sa : SockaddrStorage)

/-- The line a server prints of an IPv4 peer. -/
def peerLine (sa : SockaddrStorage) : List UInt8 :=
  ((lit "Accepted connection from ").bytes ++ (cstringOf (dotted sa.sinAddr)).bytes
    ++ (lit ", port ").bytes ++ decimalInt (ntohs sa.sinPort).toInt ++ [10]).take 1023

theorem not_client_of_server (hrole : test.role = 's') : test.role ≠ 'c' := by
  rw [hrole]
  decide

/-- **On an IPv4 socket** the peer is printed, whatever the locals were. -/
theorem iperfOnConnect_inet (hrole : test.role = 's')
    (hdomain : getsockdomain net test.ctrlSck = AF_INET) (locals : Locals) :
    iperfOnConnect net test sa locals = .ok (peerLine sa) := by
  obtain ⟨ipr, hstore, hread⟩ := inet_ntop_ipr sa locals
  have hclient := not_client_of_server hrole
  rw [iperfOnConnect, if_neg hclient, if_pos hdomain, hstore]
  simp [bind, Except.bind, iperfPrintf, hrole, reportAccepted, hread, pure, Except.pure,
    peerLine]

/-- **On any other socket** the locals are printed. -/
theorem iperfOnConnect_other (hrole : test.role = 's')
    (hdomain : getsockdomain net test.ctrlSck ≠ AF_INET) (locals : Locals) :
    iperfOnConnect net test sa locals
      = iperfPrintf test (reportAccepted locals.ipr locals.port) := by
  have hclient := not_client_of_server hrole
  rw [iperfOnConnect, if_neg hclient, if_neg hdomain]

/-- Locals with an empty text. -/
def emptyLocals (port : Int32) : Locals where
  ipr := List.replicate 46 0
  port := port
  length_ipr := List.length_replicate

theorem emptyLocals_lines_ne (hrole : test.role = 's') :
    iperfPrintf test (reportAccepted (emptyLocals 0).ipr (emptyLocals 0).port)
      ≠ iperfPrintf test (reportAccepted (emptyLocals 1).ipr (emptyLocals 1).port) := by
  have hclient := not_client_of_server hrole
  unfold iperfPrintf
  rw [if_neg hclient, if_pos hrole, if_neg hclient, if_pos hrole]
  decide +kernel

/-- **The line shows only the peer** exactly on an IPv4 socket. -/
theorem report_independent_iff (hrole : test.role = 's') :
    (∀ locals locals', iperfOnConnect net test sa locals = iperfOnConnect net test sa locals') ↔
      getsockdomain net test.ctrlSck = AF_INET := by
  constructor
  · intro h
    by_contra hdomain
    have hlines := h (emptyLocals 0) (emptyLocals 1)
    rw [iperfOnConnect_other sa hrole hdomain, iperfOnConnect_other sa hrole hdomain] at hlines
    exact emptyLocals_lines_ne hrole hlines
  · intro hdomain locals locals'
    rw [iperfOnConnect_inet sa hrole hdomain, iperfOnConnect_inet sa hrole hdomain]

/-! ## The bind settings -/

/-- What `getaddrinfo` documents: an address of the family the hints ask for,
when they ask for one. -/
def Network.Resolves (net : Network) : Prop :=
  ∀ node service hints family, net.getaddrinfo node service hints = some family →
    hints.aiFamily ≠ AF_UNSPEC → family = hints.aiFamily

/-- The server is told to bind to an IPv4 address: by the family of the test, or
by a bind address that resolves to one. -/
def BindsInet (net : Network) (test : IperfTest) : Prop :=
  test.settings.domain = AF_INET ∨
  test.settings.domain = AF_UNSPEC ∧ ∃ host, test.bindAddress = some host ∧
    net.getaddrinfo (some host) (snprintfInt 6 test.serverPort) ⟨AF_UNSPEC, Ptcp, AI_PASSIVE⟩
      = some AF_INET

/-- The family the server is bound to. -/
theorem boundFamily_inet_iff (hresolves : net.Resolves) {family : Int32}
    (hfamily : net.getaddrinfo test.bindAddress (snprintfInt 6 test.serverPort)
      (announceHints test.settings.domain Ptcp test.bindAddress) = some family) :
    family = AF_INET ↔ BindsInet net test := by
  have hother : AF_UNSPEC ≠ AF_INET := by decide
  have hasked := hresolves _ _ _ _ hfamily
  unfold BindsInet
  by_cases hdomain : test.settings.domain = AF_UNSPEC
  · rw [or_iff_right (fun h => hother (hdomain.symm.trans h)), and_iff_right hdomain]
    cases hlocal : test.bindAddress with
    | none =>
        -- the wildcard address: IPv6 is forced
        rw [hlocal, hdomain] at hasked
        have hsix : family = AF_INET6 := hasked (by decide)
        rw [hsix]
        exact iff_of_false (by decide) (fun ⟨_, h, _⟩ => by cases h)
    | some host =>
        rw [hlocal, hdomain] at hfamily
        have hhints : announceHints AF_UNSPEC Ptcp (some host) = ⟨AF_UNSPEC, Ptcp, AI_PASSIVE⟩ := by
          simp [announceHints]
        rw [hhints] at hfamily
        constructor
        · rintro rfl
          exact ⟨host, rfl, hfamily⟩
        · rintro ⟨_, hhost, hinet⟩
          cases hhost
          exact Option.some.inj (hfamily.symm.trans hinet)
  · have hhints : (announceHints test.settings.domain Ptcp test.bindAddress).aiFamily
        = test.settings.domain := if_neg fun h => hdomain h.1
    rw [hhints] at hasked
    rw [hasked hdomain, or_iff_left fun h => hdomain h.1]

/-- A server that listens has a socket, of the family that was found. -/
theorem socket_of_listening (hlisten : (iperfServerAnnounce net test).1 = 0) :
    ∃ family, net.getaddrinfo test.bindAddress (snprintfInt 6 test.serverPort)
        (announceHints test.settings.domain Ptcp test.bindAddress) = some family ∧
      .socket family Ptcp ∈ (iperfServerAnnounce net test).2.2 := by
  cases hfamily : net.getaddrinfo test.bindAddress (snprintfInt 6 test.serverPort)
      (announceHints test.settings.domain Ptcp test.bindAddress) with
  | none =>
      have hnone : netannounce net test.settings.domain Ptcp test.bindAddress test.serverPort
          = (-1, [.getaddrinfo test.bindAddress (snprintfInt 6 test.serverPort)
            (announceHints test.settings.domain Ptcp test.bindAddress)]) := by
        rw [netannounce, hfamily]
      rw [iperfServerAnnounce, hnone] at hlisten
      cases hlisten
  | some family =>
      refine ⟨family, rfl, ?_⟩
      have hcalls : (iperfServerAnnounce net test).2.2
          = .getaddrinfo test.bindAddress (snprintfInt 6 test.serverPort)
              (announceHints test.settings.domain Ptcp test.bindAddress)
            :: (announceAt net family Ptcp).2 := by
        simp only [iperfServerAnnounce, netannounce, hfamily]
      obtain ⟨calls, hsocket, _⟩ := announceAt_calls net family Ptcp
      rw [hcalls, hsocket]
      exact List.mem_cons_of_mem _ (List.mem_cons_self ..)

/-- **The report of a connection shows only the peer** exactly when the server
is told to bind to an IPv4 address; then it is the line of the peer. The control
socket has the family of the listening one. -/
theorem accept_report_iff (hresolves : net.Resolves) (hrole : test.role = 's')
    (hlisten : (iperfServerAnnounce net test).1 = 0)
    (haccepted : ∀ family, .socket family Ptcp ∈ (iperfServerAnnounce net test).2.2 →
      net.getsockname test.ctrlSck = some family) :
    ((∀ locals locals', iperfOnConnect net test sa locals = iperfOnConnect net test sa locals') ↔
      BindsInet net test) ∧
    (BindsInet net test → ∀ locals, iperfOnConnect net test sa locals = .ok (peerLine sa)) := by
  obtain ⟨family, hfamily, hsocket⟩ := socket_of_listening hlisten
  have hdomain : getsockdomain net test.ctrlSck = family := by
    rw [getsockdomain, haccepted family hsocket]
  have hinet := boundFamily_inet_iff hresolves hfamily
  refine ⟨?_, fun hbinds => iperfOnConnect_inet sa hrole (hdomain.trans (hinet.mpr hbinds))⟩
  rw [report_independent_iff sa hrole, hdomain, hinet]

end Report

/-- A system that resolves bind addresses to IPv4. -/
def willingInet : Network where
  getaddrinfo _ _ hints := some (if hints.aiFamily = AF_UNSPEC then AF_INET else hints.aiFamily)
  socket := 3
  setsockopt := 0
  bind := 0
  listen := 0
  getsockname _ := some AF_INET

/-- A server with a client, bound to 127.0.0.1. -/
def localServer : IperfTest :=
  { newServer 0 with bindAddress := some (lit "127.0.0.1"), ctrlSck := 5 }

theorem resolves_willingInet : willingInet.Resolves := by
  intro node service hints family hfamily hasked
  simp only [willingInet, if_neg hasked] at hfamily
  exact (Option.some.inj hfamily).symm

theorem sockets_localServer (family : Int32)
    (h : .socket family Ptcp ∈ (iperfServerAnnounce willingInet localServer).2.2) :
    family = AF_INET := by
  have hcalls : (iperfServerAnnounce willingInet localServer).2.2
      = [.getaddrinfo (some (lit "127.0.0.1")) (lit "5201") ⟨AF_UNSPEC, SOCK_STREAM, AI_PASSIVE⟩,
        .socket AF_INET Ptcp, .setsockopt 3, .bind 3, .listen 3] := by decide +kernel
  rw [hcalls] at h
  simpa using h

/-- What it reports of a client does not depend on the port it starts with. -/
theorem accept_report_local :
    iperfOnConnect willingInet localServer ⟨List.replicate 128 0, rfl⟩ (emptyLocals 0)
      = iperfOnConnect willingInet localServer ⟨List.replicate 128 0, rfl⟩ (emptyLocals 1) ∧
    iperfOnConnect willingInet localServer ⟨List.replicate 128 0, rfl⟩ (emptyLocals 1)
      = .ok (peerLine ⟨List.replicate 128 0, rfl⟩) := by
  have hbinds : BindsInet willingInet localServer := Or.inr ⟨rfl, lit "127.0.0.1", rfl, rfl⟩
  have hlisten : (iperfServerAnnounce willingInet localServer).1 = 0 := by decide +kernel
  obtain ⟨hiff, hline⟩ := accept_report_iff ⟨List.replicate 128 0, rfl⟩ resolves_willingInet rfl
    hlisten (fun family h => by rw [sockets_localServer family h]; rfl)
  exact ⟨hiff.mpr hbinds _ _, hline hbinds _⟩

/-- A server with default settings listens on an IPv6 socket. What it reports of
a client depends on the locals. -/
theorem default_server_reports_garbage :
    (iperfServerAnnounce willing (newServer 0)).1 = 0 ∧
    .socket AF_INET6 Ptcp ∈ (iperfServerAnnounce willing (newServer 0)).2.2 ∧
    ∃ sa locals locals', iperfOnConnect willing { newServer 0 with ctrlSck := 5 } sa locals
      ≠ iperfOnConnect willing { newServer 0 with ctrlSck := 5 } sa locals' := by
  refine ⟨by decide +kernel, by decide +kernel, ⟨List.replicate 128 0, rfl⟩, emptyLocals 0,
    emptyLocals 1, ?_⟩
  rw [iperfOnConnect_other _ rfl (by decide), iperfOnConnect_other _ rfl (by decide)]
  exact emptyLocals_lines_ne rfl

end KernelTestkit.Server
