/-
KernelTestkit.Api.AgreementTheorems — what client and server have in common
after the parameter exchange.

* `parameters_agree_iff` — they agree on every parameter exactly when the
  client's duration, block size and pacing timer are not zero. The zero of
  these three is not sent, and it is not what the server starts from.
* `direction_agrees` — exactly one of the two sends, and both know it.
-/
import KernelTestkit.Api.ParametersTheorems

namespace KernelTestkit.Api

open KernelTestkit.Lib
open KernelTestkit.Net

/-! ## Agreement -/

/-- Client and server hold the same parameters. -/
structure ParametersAgree (client server : IperfTest) : Prop where
  duration : server.duration = client.duration
  bytes : server.settings.bytes = client.settings.bytes
  blocks : server.settings.blocks = client.settings.blocks
  mss : server.settings.mss = client.settings.mss
  socketBufsize : server.settings.socketBufsize = client.settings.socketBufsize
  blksize : server.settings.blksize = client.settings.blksize
  rate : server.settings.rate = client.settings.rate
  fqrate : server.settings.fqrate = client.settings.fqrate
  pacingTimer : server.settings.pacingTimer = client.settings.pacingTimer
  burst : server.settings.burst = client.settings.burst
  tos : server.settings.tos = client.settings.tos
  numStreams : server.numStreams = client.numStreams
  serverAffinity : server.serverAffinity = client.serverAffinity
  title : server.title = client.title
  congestion : server.congestion = client.congestion
  congestionUsed : server.congestionUsed = client.congestionUsed
  noDelay : server.noDelay ≠ 0 ↔ client.noDelay ≠ 0
  reverse : server.reverse ≠ 0 ↔ client.reverse ≠ 0
  getServerOutput : server.getServerOutput ≠ 0 ↔ client.getServerOutput ≠ 0
  udpCounters64bit : server.udpCounters64bit ≠ 0 ↔ client.udpCounters64bit ≠ 0

/-- A field sent unless it has the value `d`, and received into a field that
holds `d`, arrives. -/
theorem ite_ne_self {α : Type} [DecidableEq α] (x d : α) :
    (if decide (x ≠ d) then x else d) = x := by
  by_cases h : x = d <;> simp [h]

/-- The members of a client that the server starts from another value than
zero agree after the exchange exactly when they were sent. -/
theorem ite_ne_zero_eq_iff {x d : Int32} (hd : d ≠ 0) :
    (if decide (x ≠ 0) then x else d) = x ↔ x ≠ 0 := by
  by_cases h : x = 0
  · simp [h, hd]
  · simp [h]

/-- The quantities a client may set survive the wire when a `double` holds
them. -/
structure ExactlySent (t : IperfTest) : Prop where
  bytes : t.settings.bytes.toNat ≤ 2 ^ 53
  blocks : t.settings.blocks.toNat ≤ 2 ^ 53
  rate : t.settings.rate.toNat ≤ 2 ^ 53
  fqrate : t.settings.fqrate.toNat ≤ 2 ^ 53

/-- **Agreement after the exchange**, for a new server that has decoded the
object of a client: everything agrees exactly when the three parameters
whose zero is not sent, but is not the server's default, are not zero. -/
theorem parameters_agree_iff (json : CjsonLib) (client server server' : IperfTest)
    (protocol : Protocol) (node : Nat) (doc : CJson) (fd : Fd) (st : Int8)
    (sys sys₁ sys' : Sys) (hserver : serverTest node = .ok server)
    (hprotocol : client.protocol = some protocol) (hexact : ExactlySent client)
    (hsent : sendParametersObject client = .ok doc)
    (hread : jsonRead json fd sys = .ok (some doc, sys₁))
    (hget : getParameters json { server with ctrlSck := fd, state := st } sys
      = .ok (0, server', sys')) :
    ParametersAgree client server' ↔
      client.duration ≠ 0 ∧ client.settings.blksize ≠ 0 ∧ client.settings.pacingTimer ≠ 0 := by
  obtain rfl : sentObject protocol client = doc := by
    simpa [sendParametersObject, hprotocol] using hsent
  obtain ⟨_, _, rfl⟩ := getParameters_of_delivered hread hget
  obtain ⟨_, rfl⟩ := iperfSetTestRole_ok.mp hserver
  have row := @row_mem protocol client
  have hduration := intItem_sent DURATION (row 3 rfl)
  have hblksize := intItem_sent DEFAULT_TCP_BLKSIZE (row 11 rfl)
  have hpacing := intItem_sent 1000 (row 14 rfl)
  constructor
  · intro hagree
    exact ⟨(ite_ne_zero_eq_iff (by decide)).mp (hduration.symm.trans hagree.duration),
      (ite_ne_zero_eq_iff (by decide)).mp (hblksize.symm.trans hagree.blksize),
      (ite_ne_zero_eq_iff (by decide)).mp (hpacing.symm.trans hagree.pacingTimer)⟩
  · rintro ⟨hdur, hblk, hpac⟩
    exact
      { duration := hduration.trans ((ite_ne_zero_eq_iff (by decide)).mpr hdur)
        bytes := (uint64Item_sent 0 hexact.bytes (row 4 rfl)).trans (ite_ne_self _ 0)
        blocks := (uint64Item_sent 0 hexact.blocks (row 5 rfl)).trans (ite_ne_self _ 0)
        mss := (intItem_sent 0 (row 6 rfl)).trans (ite_ne_self _ 0)
        socketBufsize := (intItem_sent 0 (row 10 rfl)).trans (ite_ne_self _ 0)
        blksize := hblksize.trans ((ite_ne_zero_eq_iff (by decide)).mpr hblk)
        rate := (uint64Item_sent 0 hexact.rate (row 12 rfl)).trans (ite_ne_self _ 0)
        fqrate := (uint64Item_sent 0 hexact.fqrate (row 13 rfl)).trans (ite_ne_self _ 0)
        pacingTimer := hpacing.trans ((ite_ne_zero_eq_iff (by decide)).mpr hpac)
        burst := (intItem_sent 0 (row 15 rfl)).trans (ite_ne_self _ 0)
        tos := (intItem_sent 0 (row 16 rfl)).trans (ite_ne_self _ 0)
        numStreams := intItem_sent 1 (row 8 rfl)
        serverAffinity := (intItem_sent (-1) (row 2 rfl)).trans (ite_ne_self _ (-1))
        title := (decodedString_sent none (row 17 rfl)).trans Option.or_none
        congestion := (decodedString_sent none (row 18 rfl)).trans Option.or_none
        congestionUsed := (decodedString_sent none (row 19 rfl)).trans Option.or_none
        noDelay := (flagItem_sent_ne_zero (row 7 rfl)).trans decide_eq_true_iff
        reverse := (flagItem_sent_ne_zero (row 9 rfl)).trans decide_eq_true_iff
        getServerOutput := (flagItem_sent_ne_zero (row 20 rfl)).trans decide_eq_true_iff
        udpCounters64bit := (flagItem_sent_ne_zero (row 21 rfl)).trans decide_eq_true_iff }

/-- A TCP client as its defaults and setters leave it. -/
def defaultClient : IperfTest :=
  { (iperfDefaults (some 0) iperfNewTest).2 with
    role := 'c'
    sender := 1
    senderHasRetransmits := 1
    protocol := some (tcpProtocol 0) }

/-- The text of the object of `defaultClient`. -/
def defaultText : CString :=
  lit "\x7b\"tcp\":true,\"time\":10,\"parallel\":1,\"len\":131072,\"pacing_timer\":1000\x7d"

/-- The default parameters arrive. -/
theorem parameters_agree_default :
    ParametersAgree defaultClient
      (decoded (sentObject (tcpProtocol 0) defaultClient)
        { newServer 0 with ctrlSck := 5, state := PARAM_EXCHANGE }) := by
  have hdecodable : Decodable (sentObject (tcpProtocol 0) defaultClient)
      { newServer 0 with ctrlSck := 5, state := PARAM_EXCHANGE } :=
    decodable_sent rfl rfl
  obtain ⟨sys', hread, hget⟩ := getParameters_single defaultText (by decide) hdecodable
  exact (parameters_agree_iff _ defaultClient (newServer 0) _ (tcpProtocol 0) 0 _ 5
    PARAM_EXCHANGE _ _ _ (serverTest_eq 0) rfl ⟨by decide, by decide, by decide, by decide⟩ rfl
    hread hget).mpr (by decide)

/-- A duration of 0 is not sent, and the server goes on with its default of
10. -/
theorem zero_duration_disagrees : ∃ (json : CjsonLib) (client server server' : IperfTest)
    (protocol : Protocol) (doc : CJson) (sys sys₁ sys' : Sys),
    serverTest 0 = .ok server ∧ client.protocol = some protocol ∧ protocol.id = Ptcp ∧
    ExactlySent client ∧ sendParametersObject client = .ok doc ∧
    jsonRead json 5 sys = .ok (some doc, sys₁) ∧
    getParameters json { server with ctrlSck := 5, state := PARAM_EXCHANGE } sys
      = .ok (0, server', sys') ∧
    client.duration = 0 ∧ server'.duration = 10 ∧ ¬ ParametersAgree client server' := by
  let client := { defaultClient with duration := 0 }
  let server := { newServer 0 with ctrlSck := 5, state := PARAM_EXCHANGE }
  let text :=
    lit "\x7b\"tcp\":true,\"parallel\":1,\"len\":131072,\"pacing_timer\":1000\x7d"
  have hdecodable : Decodable (sentObject (tcpProtocol 0) client) server := decodable_sent rfl rfl
  have hten : (decoded (sentObject (tcpProtocol 0) client) server).duration = 10 :=
    intItem_sent DURATION (row_mem (tcpProtocol 0) client 3 rfl)
  obtain ⟨sys', hread, hget⟩ := getParameters_single text (by decide) hdecodable
  refine ⟨_, client, newServer 0, _, tcpProtocol 0, _, _, _, _, serverTest_eq 0, rfl, rfl,
    ⟨by decide, by decide, by decide, by decide⟩, rfl, hread, hget, rfl, hten, fun hagree => ?_⟩
  have hbad := hten.symm.trans hagree.duration
  exact absurd hbad (by decide)

/-! ## Direction -/

/-- A successful selection recomputes the retransmit flag. -/
theorem upToDate_afterProtocol_of_found {j item : CJson} {name : CString} {protId : Int32}
    {t : IperfTest} {entry : Protocol} (hj : getObjectItem j name = some item)
    (hfind : t.protocols.find? (·.id = protId) = some entry) :
    UpToDate (afterProtocol j name protId t) := by
  simp only [UpToDate, afterProtocol, selectedProtocol, hj, hfind, Option.some_or]
  rfl

theorem UpToDate.afterProtocol {t : IperfTest} (h : UpToDate t) (j : CJson) (name : CString)
    (protId : Int32) : UpToDate (afterProtocol j name protId t) := by
  cases hj : getObjectItem j name with
  | none => simpa [UpToDate, Api.afterProtocol, selectedProtocol, hj] using h
  | some item =>
      cases hfind : t.protocols.find? (·.id = protId) with
      | none => simpa [UpToDate, Api.afterProtocol, selectedProtocol, hj, hfind] using h
      | some entry => exact upToDate_afterProtocol_of_found hj hfind

theorem UpToDate.afterReverse {t : IperfTest} (h : UpToDate t) (j : CJson) :
    UpToDate (afterReverse j t) := by
  cases hj : getObjectItem j (lit "reverse") with
  | none => simpa [UpToDate, Api.afterReverse, decodedSender, flagItem, hj] using h
  | some item => simp [UpToDate, Api.afterReverse, decodedSender, hj, retransmits]

theorem UpToDate.afterRetransmits {t : IperfTest} (h : UpToDate t) :
    UpToDate (afterRetransmits t) := by
  unfold UpToDate Api.afterRetransmits at *
  simp only [retransmits] at h ⊢
  split <;> simp_all

section Untouched

/-! The other lines touch neither the flag nor what it is computed from. -/

variable {j : CJson} {t : IperfTest} (h : UpToDate t)
include h

theorem UpToDate.limitItems : UpToDate (limitItems j t) := h

theorem UpToDate.tuningItems : UpToDate (tuningItems j t) := h

theorem UpToDate.afterStrings : UpToDate (afterStrings j t) := h

theorem UpToDate.outputItems : UpToDate (outputItems j t) := h

end Untouched

/-- The lines after the one for "tcp" keep the flag up to date. -/
theorem UpToDate.decoded {j : CJson} {t : IperfTest}
    (h : UpToDate (Api.afterProtocol j (lit "tcp") Ptcp t)) : UpToDate (Api.decoded j t) := by
  have hdirected : UpToDate (directed j t) :=
    (h.afterProtocol j (lit "udp") Pudp).limitItems.afterReverse j
  exact hdirected.tuningItems.afterStrings.outputItems.afterRetransmits

/-- A document that selects a registered protocol under "tcp" leaves the
retransmit flag up to date, whatever it was. -/
theorem upToDate_decoded {j item : CJson} {t : IperfTest} {entry : Protocol}
    (hj : getObjectItem j (lit "tcp") = some item)
    (hfind : t.protocols.find? (·.id = Ptcp) = some entry) : UpToDate (decoded j t) :=
  (upToDate_afterProtocol_of_found hj hfind).decoded

/-- An up-to-date flag of a TCP test is 1 exactly when the test sends. -/
theorem UpToDate.eq_one_iff {t : IperfTest} {protocol : Protocol} (h : UpToDate t)
    (hp : t.protocol = some protocol) (htcp : protocol.id = Ptcp) :
    t.senderHasRetransmits = 1 ↔ t.sender ≠ 0 := by
  rw [h, retransmits]
  by_cases hs : t.sender = 0 <;> simp [hs, hp, htcp]

theorem lnot_ne_zero_iff (x : Int32) : lnot x ≠ 0 ↔ x = 0 := by
  unfold lnot
  split <;> simp_all

/-- Client and server agree on who sends. -/
structure DirectionAgrees (client server : IperfTest) : Prop where
  oneSends : client.sender ≠ 0 ↔ ¬ server.sender ≠ 0
  reverse : server.reverse ≠ 0 ↔ client.reverse ≠ 0
  clientProtocol : ∃ protocol, client.protocol = some protocol ∧ protocol.id = Ptcp
  serverProtocol : ∃ protocol, server.protocol = some protocol ∧ protocol.id = Ptcp
  clientRetransmits : client.senderHasRetransmits = 1 ↔ client.sender ≠ 0
  serverRetransmits : server.senderHasRetransmits = 1 ↔ server.sender ≠ 0

/-- **Direction**: after the exchange between a TCP client whose flags are up
to date and a server that does not send, exactly one of the two sends, and
both know it. -/
theorem direction_agrees (json : CjsonLib) (client server server' : IperfTest)
    (protocol : Protocol) (doc : CJson) (sys sys₁ sys' : Sys)
    (hprotocol : client.protocol = some protocol)
    (htcp : protocol.id = Ptcp) (hsender : client.sender = lnot client.reverse)
    (hflag : checkSenderHasRetransmits client = .ok client)
    (hreverse : server.reverse = 0) (hidle : server.sender = 0)
    (hregistered : ∃ entry ∈ server.protocols, entry.id = Ptcp)
    (hsent : sendParametersObject client = .ok doc)
    (hread : jsonRead json server.ctrlSck sys = .ok (some doc, sys₁))
    (hget : getParameters json server sys = .ok (0, server', sys')) :
    DirectionAgrees client server' := by
  obtain rfl : sentObject protocol client = doc := by
    simpa [sendParametersObject, hprotocol] using hsent
  obtain ⟨_, _, rfl⟩ := getParameters_of_delivered hread hget
  have hreverse' : (decoded (sentObject protocol client) server).reverse ≠ 0
      ↔ client.reverse ≠ 0 := by
    rw [decoded_reverse, hreverse]
    exact (flagItem_sent_ne_zero (row_mem protocol client 9 rfl)).trans decide_eq_true_iff
  have hsends : (decoded (sentObject protocol client) server).sender ≠ 0
      ↔ client.reverse ≠ 0 := by
    rw [decoded_sender, decodedSender, getObjectItem_sent (row_mem protocol client 9 rfl), hidle]
    by_cases h : client.reverse = 0 <;> simp [h, lnot]
  obtain ⟨entry, hfind⟩ := Option.isSome_iff_exists.mp
    (List.find?_isSome.mpr (hregistered.imp fun _ h => h.imp_right decide_eq_true))
  have hentry : entry.id = Ptcp := by
    simpa using List.find?_some hfind
  have htcpItem : getObjectItem (sentObject protocol client) (lit "tcp") = some .true := by
    rw [getObjectItem_sent (row_mem protocol client 0 rfl), htcp]
    rfl
  have hselected := decoded_protocol_sent client htcp hfind
  exact
    { oneSends := by rw [hsends, hsender, lnot_ne_zero_iff, not_not]
      reverse := hreverse'
      clientProtocol := ⟨protocol, hprotocol, htcp⟩
      serverProtocol := ⟨entry, hselected, hentry⟩
      clientRetransmits := (upToDate_of_check hflag).eq_one_iff hprotocol htcp
      serverRetransmits := (upToDate_decoded htcpItem hfind).eq_one_iff hselected hentry }

/-- The default client sends, its server does not. -/
theorem direction_agrees_default :
    DirectionAgrees defaultClient
      (decoded (sentObject (tcpProtocol 0) defaultClient) (newServer 0)) := by
  have hdecodable : Decodable (sentObject (tcpProtocol 0) defaultClient) (newServer 0) :=
    decodable_sent rfl rfl
  obtain ⟨sys', hread, hget⟩ := getParameters_single defaultText (by decide) hdecodable
  exact direction_agrees _ defaultClient (newServer 0) _ (tcpProtocol 0) _ _ _ _ rfl rfl rfl
    rfl rfl rfl ⟨_, List.mem_singleton.mpr rfl, rfl⟩ rfl hread hget

/-- A client whose retransmit flag was never computed keeps it: the exchange
does not touch the client. -/
theorem stale_flag_disagrees : ∃ (json : CjsonLib) (client server server' : IperfTest)
    (protocol : Protocol) (doc : CJson) (sys sys₁ sys' : Sys),
    client.role = 'c' ∧ client.protocol = some protocol ∧ protocol.id = Ptcp ∧
    client.sender = lnot client.reverse ∧
    server.role = 's' ∧ server.reverse = 0 ∧ server.sender = 0 ∧
    (∃ entry ∈ server.protocols, entry.id = Ptcp) ∧ sendParametersObject client = .ok doc ∧
    jsonRead json server.ctrlSck sys = .ok (some doc, sys₁) ∧
    getParameters json server sys = .ok (0, server', sys') ∧
    ¬ DirectionAgrees client server' := by
  let client := { defaultClient with senderHasRetransmits := 0 }
  have hdecodable : Decodable (sentObject (tcpProtocol 0) client) (newServer 0) :=
    decodable_sent rfl rfl
  obtain ⟨sys', hread, hget⟩ := getParameters_single defaultText (by decide) hdecodable
  refine ⟨_, client, newServer 0, _, tcpProtocol 0, _, _, _, _, rfl, rfl, rfl, rfl, rfl, rfl,
    rfl, ⟨_, List.mem_singleton.mpr rfl, rfl⟩, rfl, hread, hget, fun hagree => ?_⟩
  have hflag := hagree.clientRetransmits.mpr (by decide)
  exact absurd hflag (by decide)

end KernelTestkit.Api
