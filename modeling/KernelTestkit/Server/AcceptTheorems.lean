/-
KernelTestkit.Server.AcceptTheorems — one call of `iperf_accept`.

* `Accepts` — the six ways a call ends; `iperfAccept_ends` says that these
  are all.
* `accept_free`, `accept_busy` — what a call does to the test and to the
  descriptors, for a free server and for a busy one; `accept_outcome` puts
  them together.
* `handshake_trace` — what a free server puts on its control socket, and
  in which order things happen on the way.
-/
import KernelTestkit.Server.Accept
import KernelTestkit.Api.ExchangeTheorems

namespace KernelTestkit.Server

open KernelTestkit.Lib
open KernelTestkit.Net
open KernelTestkit.Api

/-! ## How a call ends -/

/-- The environment after the `accept`. -/
def accepting (sys : Sys) : Sys := sys.log (.accept sys.accepted)

/-- The ways `iperf_accept` ends. -/
inductive Accepts (json : CjsonLib) (t : IperfTest) (sys : Sys) :
    Int32 × IperfTest × Sys → Prop where
  /-- no client -/
  | failed : sys.accepted < 0 → Accepts json t sys (-1, t, (accepting sys).setErrno ECONNRESET)
  /-- a free server could not send `PARAM_EXCHANGE` -/
  | stateUnsent {out : IperfTest × Sys} : ¬ sys.accepted < 0 → t.ctrlSck = -1 →
      iperfSetSendState { t with ctrlSck := sys.accepted } PARAM_EXCHANGE (accepting sys)
        = (-1, out) →
      Accepts json t sys (-1, out)
  /-- a free server ran the exchange, which failed -/
  | exchangeFailed {t₁ : IperfTest} {sys₁ : Sys} {out : IperfTest × Sys} :
      ¬ sys.accepted < 0 → t.ctrlSck = -1 →
      iperfSetSendState { t with ctrlSck := sys.accepted } PARAM_EXCHANGE (accepting sys)
        = (0, t₁, sys₁) →
      iperfExchangeParameters json t₁ sys₁ = .ok (-1, out) → Accepts json t sys (-1, out)
  /-- a free server ran the exchange -/
  | served {t₁ t₂ : IperfTest} {sys₁ sys₂ : Sys} :
      ¬ sys.accepted < 0 → t.ctrlSck = -1 →
      iperfSetSendState { t with ctrlSck := sys.accepted } PARAM_EXCHANGE (accepting sys)
        = (0, t₁, sys₁) →
      iperfExchangeParameters json t₁ sys₁ = .ok (0, t₂, sys₂) →
      Accepts json t sys (0, t₂, if t₂.onConnect then sys₂.log .onConnect else sys₂)
  /-- a busy server could not deny the client a session -/
  | denialUnsent {r : Int32} {sys₁ : Sys} : ¬ sys.accepted < 0 → t.ctrlSck ≠ -1 → r < 0 →
      nwrite sys.accepted [ACCESS_DENIED.toUInt8] (accepting sys) = (r, sys₁) →
      Accepts json t sys (-1, t, sys₁.setErrno ECONNREFUSED)
  /-- a busy server denied the client a session -/
  | denied {r : Int32} {sys₁ : Sys} : ¬ sys.accepted < 0 → t.ctrlSck ≠ -1 → ¬ r < 0 →
      nwrite sys.accepted [ACCESS_DENIED.toUInt8] (accepting sys) = (r, sys₁) →
      Accepts json t sys (0, t, sys₁.close sys.accepted)

/-- **A call of `iperf_accept`** that returns ends one of these ways. -/
theorem iperfAccept_ends {json : CjsonLib} {t : IperfTest} {sys : Sys}
    {out : Int32 × IperfTest × Sys} (h : iperfAccept json t sys = .ok out) :
    Accepts json t sys out := by
  unfold iperfAccept at h
  change (if sys.accepted < 0 then _ else _) = _ at h
  by_cases hfail : sys.accepted < 0
  · rw [if_pos hfail] at h
    cases h
    exact .failed hfail
  rw [if_neg hfail] at h
  by_cases hfree : t.ctrlSck = -1
  · rw [if_pos hfree] at h
    rcases hstate : iperfSetSendState { t with ctrlSck := sys.accepted } PARAM_EXCHANGE
      (accepting sys) with ⟨r, t₁, sys₁⟩
    obtain ⟨hr, _⟩ := iperfSetSendState_frame hstate
    have hstate' := hstate
    unfold accepting at hstate'
    simp only [hstate'] at h
    rcases hr with rfl | rfl
    · obtain ⟨⟨r₂, t₂, sys₂⟩, hexchange, hrest⟩ := bind_ok_iff.mp h
      obtain ⟨hr₂, _⟩ := exchange_frame hexchange
      rcases hr₂ with rfl | rfl
      · cases hrest
        exact .served hfail hfree hstate hexchange
      · cases hrest
        exact .exchangeFailed hfail hfree hstate hexchange
    · cases h
      exact .stateUnsent hfail hfree hstate
  · rw [if_neg hfree] at h
    rcases hdeny : nwrite sys.accepted [ACCESS_DENIED.toUInt8] (accepting sys) with ⟨r, sys₁⟩
    have hdeny' := hdeny
    unfold accepting at hdeny'
    simp only [hdeny'] at h
    by_cases hneg : r < 0
    · rw [if_pos hneg] at h
      cases h
      exact .denialUnsent hfail hfree hneg hdeny
    · rw [if_neg hneg] at h
      cases h
      exact .denied hfail hfree hneg hdeny

/-! ## What becomes of the socket -/

/-- Nothing is accepted and nothing is closed. -/
def KeepsDescriptors (evs : List Event) : Prop :=
  ∀ fd, .accept fd ∉ evs ∧ .close fd ∉ evs

theorem keepsDescriptors_of_exchangeOn {fd : Fd} {evs : List Event} (h : ExchangeOn fd evs) :
    KeepsDescriptors evs := by
  intro fd'
  constructor <;> intro hmem <;>
    rcases h _ hmem with ⟨_, hev | hev⟩ | ⟨_, hev⟩ | ⟨_, hev⟩ | ⟨_, hev⟩ <;> cases hev

theorem KeepsDescriptors.append {t u : List Event} (ht : KeepsDescriptors t)
    (hu : KeepsDescriptors u) : KeepsDescriptors (t ++ u) := by
  intro fd
  simp only [List.mem_append, not_or]
  exact ⟨⟨(ht fd).1, (hu fd).1⟩, ⟨(ht fd).2, (hu fd).2⟩⟩

/-- The last step of a free server. -/
theorem trace_onConnect (t : IperfTest) (sys : Sys) :
    ∃ tail, (if t.onConnect then sys.log .onConnect else sys).trace = sys.trace ++ tail ∧
      (tail = [] ∨ tail = [.onConnect]) := by
  split
  · exact ⟨_, rfl, Or.inr rfl⟩
  · exact ⟨[], (List.append_nil _).symm, Or.inl rfl⟩

section OneCall

variable {json : CjsonLib} {t t' : IperfTest} {sys sys' : Sys} {r : Int32}

/-- Without a client nothing happens. -/
theorem accept_none (h : iperfAccept json t sys = .ok (r, t', sys')) (hnone : sys.accepted < 0) :
    r = -1 ∧ t' = t ∧ sys'.trace = sys.trace ++ [.accept sys.accepted] := by
  cases iperfAccept_ends h with
  | failed => exact ⟨rfl, rfl, rfl⟩
  | stateUnsent hok => exact absurd hnone hok
  | exchangeFailed hok => exact absurd hnone hok
  | served hok => exact absurd hnone hok
  | denialUnsent hok => exact absurd hnone hok
  | denied hok => exact absurd hnone hok

/-- **A free server** takes the new socket for its control socket, whatever
happens then, and never closes it. -/
theorem accept_free (h : iperfAccept json t sys = .ok (r, t', sys')) (hok : ¬ sys.accepted < 0)
    (hfree : t.ctrlSck = -1) :
    t'.ctrlSck = sys.accepted ∧
      (t'.state = PARAM_EXCHANGE ∨ t'.state = CREATE_STREAMS ∨ t'.state = SERVER_ERROR) ∧
      ∃ used, sys'.trace = sys.trace ++ .accept sys.accepted :: used ∧ KeepsDescriptors used := by
  -- the two steps, for every result of the exchange
  have hexchange {t₁ t₂ : IperfTest} {sys₁ sys₂ : Sys} {r₁ r₂ : Int32}
      (hstate : iperfSetSendState { t with ctrlSck := sys.accepted } PARAM_EXCHANGE
        (accepting sys) = (r₁, t₁, sys₁))
      (hrun : iperfExchangeParameters json t₁ sys₁ = .ok (r₂, t₂, sys₂)) :
      t₂.ctrlSck = sys.accepted ∧
        (t₂.state = PARAM_EXCHANGE ∨ t₂.state = CREATE_STREAMS ∨ t₂.state = SERVER_ERROR) ∧
        ∃ used, sys₂.trace = sys.trace ++ .accept sys.accepted :: used ∧
          KeepsDescriptors used := by
    obtain ⟨_, rfl, evs, _, _, rfl, hon⟩ := iperfSetSendState_frame hstate
    obtain ⟨_, hctrl, hst, evs', _, _, _, rfl, hon'⟩ := exchange_frame hrun
    exact ⟨hctrl, hst, evs ++ evs', by simp [accepting, Sys.log],
      keepsDescriptors_of_exchangeOn ((exchangeOn_of_writes hon).append hon')⟩
  cases iperfAccept_ends h with
  | failed hbad => exact absurd hbad hok
  | stateUnsent _ _ hstate =>
      obtain ⟨_, rfl, evs, _, _, rfl, hon⟩ := iperfSetSendState_frame hstate
      exact ⟨rfl, Or.inl rfl, evs, by simp [accepting, Sys.log],
        keepsDescriptors_of_exchangeOn (exchangeOn_of_writes hon)⟩
  | exchangeFailed _ _ hstate hrun => exact hexchange hstate hrun
  | @served _ _ _ sys₂ _ _ hstate hrun =>
      obtain ⟨hctrl, hst, used, htrace, hkeeps⟩ := hexchange hstate hrun
      obtain ⟨tail, htail, hconnect⟩ := trace_onConnect t' sys₂
      refine ⟨hctrl, hst, used ++ tail, by rw [htail, htrace]; simp, hkeeps.append ?_⟩
      rcases hconnect with rfl | rfl <;> simp [KeepsDescriptors]
  | denialUnsent _ hbusy => exact absurd hfree hbusy
  | denied _ hbusy => exact absurd hfree hbusy

/-- **A busy server** sends the new client at most `ACCESS_DENIED`, closes the
new socket when it reports a success, and stays as it is. -/
theorem accept_busy (h : iperfAccept json t sys = .ok (r, t', sys')) (hok : ¬ sys.accepted < 0)
    (hbusy : t.ctrlSck ≠ -1) :
    t' = t ∧ ∃ writes tail,
      sys'.trace = sys.trace ++ .accept sys.accepted :: (writes ++ tail) ∧
      WritesOn sys.accepted writes ∧ sent sys.accepted writes <+: [ACCESS_DENIED.toUInt8] ∧
      (r = -1 ∧ tail = [] ∨ r = 0 ∧ tail = [.close sys.accepted]) := by
  cases iperfAccept_ends h with
  | failed hbad => exact absurd hbad hok
  | stateUnsent _ hfree => exact absurd hfree hbusy
  | exchangeFailed _ hfree => exact absurd hfree hbusy
  | served _ hfree => exact absurd hfree hbusy
  | denialUnsent _ _ _ hdeny =>
      obtain ⟨evs, _, _, rfl, hon, hsent, _⟩ := nwrite_frame hdeny
      exact ⟨rfl, evs, [], by simp [accepting, Sys.log, Sys.setErrno], hon, hsent,
        Or.inl ⟨rfl, rfl⟩⟩
  | denied _ _ _ hdeny =>
      obtain ⟨evs, _, _, rfl, hon, hsent, _⟩ := nwrite_frame hdeny
      exact ⟨rfl, evs, [.close sys.accepted], by simp [accepting, Sys.log, Sys.close], hon, hsent,
        Or.inr ⟨rfl, rfl⟩⟩

end OneCall

/-- **The outcome of a call**: after a failure the test is as before, unless
the server was free, and then the new socket is its control socket and
stays open; after a success the new socket is the control socket or is
closed. -/
theorem accept_outcome (json : CjsonLib) (t t' : IperfTest) (sys sys' : Sys) (r : Int32)
    (h : iperfAccept json t sys = .ok (r, t', sys')) :
    ∃ evs, sys'.trace = sys.trace ++ evs ∧
      (r = -1 →
        (sys.accepted < 0 ∨ t.ctrlSck ≠ -1) ∧ t' = t ∨
        (¬ sys.accepted < 0 ∧ t.ctrlSck = -1) ∧ t'.ctrlSck = sys.accepted ∧
          (t'.state = PARAM_EXCHANGE ∨ t'.state = CREATE_STREAMS ∨ t'.state = SERVER_ERROR) ∧
          .close sys.accepted ∉ evs) ∧
      (r = 0 → t'.ctrlSck = sys.accepted ∨ .close sys.accepted ∈ evs) := by
  by_cases hnone : sys.accepted < 0
  · obtain ⟨rfl, rfl, htrace⟩ := accept_none h hnone
    exact ⟨_, htrace, fun _ => Or.inl ⟨Or.inl hnone, rfl⟩, fun hr => absurd hr (by decide)⟩
  by_cases hfree : t.ctrlSck = -1
  · obtain ⟨hctrl, hst, used, htrace, hkeeps⟩ := accept_free h hnone hfree
    exact ⟨_, htrace, fun _ => Or.inr ⟨⟨hnone, hfree⟩, hctrl, hst, by simpa using (hkeeps _).2⟩,
      fun _ => Or.inl hctrl⟩
  · obtain ⟨rfl, writes, tail, htrace, _, _, hend⟩ := accept_busy h hnone hfree
    refine ⟨_, htrace, fun _ => Or.inl ⟨Or.inr hfree, rfl⟩, fun hr => Or.inr ?_⟩
    rcases hend with ⟨hr', _⟩ | ⟨_, rfl⟩
    · exact absurd (hr.symm.trans hr') (by decide)
    · simp

/-- The socket of a client that resets the connection before the first byte
stays open. -/
theorem accept_outcome_reset :
    ∃ evs, ([.accept 5, .write 5 []] : List Event) = [] ++ evs ∧ .close 5 ∉ evs := by
  have hrun : iperfAccept .empties (newServer 0)
        { Sys.quiet with outbox := [.error ECONNRESET] }
      = .ok (-1, { newServer 0 with ctrlSck := 5, state := PARAM_EXCHANGE },
          { Sys.quiet with errno := ECONNREFUSED, trace := [.accept 5, .write 5 []] }) := by
    decide +kernel
  obtain ⟨evs, htrace, hfailure, _⟩ := accept_outcome _ _ _ _ _ _ hrun
  rcases hfailure rfl with ⟨hbusy, _⟩ | ⟨_, _, _, hopen⟩
  · exact absurd hbusy (by decide)
  · exact ⟨evs, htrace, hopen⟩

/-- After that failure neither `ctrl_sck` nor `state` has its old value. -/
theorem reset_client_not_undone : ∃ t' sys',
    iperfAccept .empties (newServer 0) { Sys.quiet with outbox := [.error ECONNRESET] }
      = .ok (-1, t', sys') ∧
    t'.ctrlSck ≠ (newServer 0).ctrlSck ∧ t'.state ≠ (newServer 0).state ∧
    .close 5 ∉ sys'.trace := by
  refine ⟨{ newServer 0 with ctrlSck := 5, state := PARAM_EXCHANGE },
    { Sys.quiet with errno := ECONNREFUSED, trace := [.accept 5, .write 5 []] }, ?_, by decide,
    by decide, by decide⟩
  decide +kernel

/-! ## The handshake -/

/-- The bytes of a handshake that comes to its end. -/
def handshakeBytes : List UInt8 := [PARAM_EXCHANGE.toUInt8, CREATE_STREAMS.toUInt8]

/-- The bytes of a handshake that reports the error `e` of `listen`. -/
def refusalBytes (e : Errno) : List UInt8 :=
  [PARAM_EXCHANGE.toUInt8, SERVER_ERROR.toUInt8] ++ (be32 e.toUInt32 ++ be32 e.toUInt32)

/-- When `CREATE_STREAMS` is on the wire, a document has been parsed and
applied and `listen` has succeeded, in this order, and before that only
`PARAM_EXCHANGE` was sent. -/
structure Announced (json : CjsonLib) (t : IperfTest) (sys : Sys) (t' : IperfTest)
    (evs : List Event) : Prop where
  listens : ¬ sys.listening.ret < 0
  order : ∃ before buf after j, evs = before ++ .parse buf :: .listen sys.listening.ret :: after ∧
    sent sys.accepted before = [PARAM_EXCHANGE.toUInt8] ∧
    json.parse (cstringOf buf) = some j ∧
    applyParameters j { t with ctrlSck := sys.accepted, state := PARAM_EXCHANGE }
      = .ok { t' with state := PARAM_EXCHANGE, listener := t.listener }

/-- The events of one call on a free server. -/
structure Handshake (json : CjsonLib) (t : IperfTest) (sys : Sys) (r : Int32) (t' : IperfTest)
    (evs : List Event) : Prop where
  bytes : sent sys.accepted evs <+: handshakeBytes ∨
    sys.listening.ret < 0 ∧ sent sys.accepted evs <+: refusalBytes sys.listening.errno
  announced : handshakeBytes <+: sent sys.accepted evs → Announced json t sys t' evs
  success : r = 0 ↔ ¬ sys.accepted < 0 ∧ sent sys.accepted evs = handshakeBytes
  state : r = 0 → t'.state = CREATE_STREAMS ∧ t'.ctrlSck = sys.accepted

theorem not_handshakeBytes_of_short {l : List UInt8} (h : l.length < 2) :
    ¬ handshakeBytes <+: l := by
  intro hpre
  have hlen := hpre.length_le
  simp only [handshakeBytes, List.length_cons, List.length_nil] at hlen
  omega

/-- A refusal is never taken for a handshake: the second byte differs. -/
theorem not_handshakeBytes_of_refusal {l : List UInt8} {e : Errno} (h : l <+: refusalBytes e) :
    ¬ handshakeBytes <+: l := by
  intro hpre
  have hbad := hpre.trans h
  simp only [handshakeBytes, refusalBytes, List.cons_append, List.cons_prefix_cons] at hbad
  exact absurd hbad.2.1 (by decide)

/-- A call that does not come to its end. -/
theorem Handshake.of_unfinished {json : CjsonLib} {t t' : IperfTest} {sys : Sys}
    {evs : List Event}
    (hbytes : sent sys.accepted evs <+: handshakeBytes ∨
      sys.listening.ret < 0 ∧ sent sys.accepted evs <+: refusalBytes sys.listening.errno)
    (hno : ¬ handshakeBytes <+: sent sys.accepted evs) : Handshake json t sys (-1) t' evs where
  bytes := hbytes
  announced hpre := absurd hpre hno
  success := iff_of_false (by decide) (fun hend => hno (hend.2 ▸ List.prefix_refl _))
  state hr := absurd hr (by decide)

/-- A free server that could send `PARAM_EXCHANGE`, through the exchange. -/
theorem exchange_after_state {json : CjsonLib} {t t₁ t' : IperfTest} {sys sys₁ sys' : Sys}
    {r : Int32} (hserver : t.role ≠ 'c') (hno : Uninterrupted (accepting sys))
    (hstate : iperfSetSendState { t with ctrlSck := sys.accepted } PARAM_EXCHANGE (accepting sys)
      = (0, t₁, sys₁))
    (h : iperfExchangeParameters json t₁ sys₁ = .ok (r, t', sys')) :
    ∃ evs₁ evs₂, sys'.trace = sys.trace ++ .accept sys.accepted :: (evs₁ ++ evs₂) ∧
      sent sys.accepted evs₁ = [PARAM_EXCHANGE.toUInt8] ∧
      (r = -1 ∧ sent sys.accepted evs₂ = [] ∨
        r = -1 ∧ sys.listening.ret < 0 ∧
          sent sys.accepted evs₂ <+: [SERVER_ERROR.toUInt8] ++
            (be32 sys.listening.errno.toUInt32 ++ be32 sys.listening.errno.toUInt32) ∨
        r = 0 ∧ AnnouncesStreams json
          { t with ctrlSck := sys.accepted, state := PARAM_EXCHANGE } sys.listening.ret t'
          evs₂) := by
  obtain ⟨ht₁, evs₁, rest, e, hsys₁, _, hsuf, hend⟩ := iperfSetSendState_uninterrupted hno hstate
  obtain ⟨_, hsent, _⟩ := hend.resolve_right (fun hbad => absurd hbad.1 (by decide))
  have hctrl : t₁.ctrlSck = sys.accepted := by rw [ht₁]
  have hlistening : sys₁.listening = sys.listening := by rw [hsys₁]; rfl
  have hno₁ : Uninterrupted sys₁ := by
    intro e' he
    rw [hsys₁] at he
    exact hno e' (hsuf.subset he)
  obtain ⟨evs₂, htrace, hends⟩ := exchange_uninterrupted (ht₁ ▸ hserver) hno₁ h
  rw [hctrl, hlistening] at hends
  refine ⟨evs₁, evs₂, ?_, hsent, ht₁ ▸ hends⟩
  rw [htrace, hsys₁]
  simp [accepting, Sys.log]

section Unfinished

variable {json : CjsonLib} {t t₁ t' : IperfTest} {sys sys₁ sys' : Sys}

/-- `PARAM_EXCHANGE` could not be sent: nothing is on the wire. -/
theorem handshake_of_stateUnsent (hno : Uninterrupted (accepting sys))
    (hstate : iperfSetSendState { t with ctrlSck := sys.accepted } PARAM_EXCHANGE (accepting sys)
      = (-1, t', sys')) :
    ∃ evs, sys'.trace = sys.trace ++ evs ∧ Handshake json t sys (-1) t' evs := by
  obtain ⟨rfl, evs, _, _, rfl, _, _, hend⟩ := iperfSetSendState_uninterrupted hno hstate
  have hsent : sent sys.accepted evs = [] := by
    rcases hend with ⟨hr, _⟩ | ⟨_, hsent⟩
    · exact absurd hr (by decide)
    · exact hsent
  have hsent' : sent sys.accepted (.accept sys.accepted :: evs) = [] := hsent
  refine ⟨.accept sys.accepted :: evs, by simp [accepting, Sys.log], .of_unfinished ?_ ?_⟩
  · exact Or.inl (hsent' ▸ List.nil_prefix)
  · exact not_handshakeBytes_of_short (by rw [hsent']; exact Nat.zero_lt_two)

/-- The exchange failed: `PARAM_EXCHANGE` alone is on the wire, or a part of a
refusal. -/
theorem handshake_of_exchangeFailed (hserver : t.role ≠ 'c') (hno : Uninterrupted (accepting sys))
    (hstate : iperfSetSendState { t with ctrlSck := sys.accepted } PARAM_EXCHANGE (accepting sys)
      = (0, t₁, sys₁))
    (h : iperfExchangeParameters json t₁ sys₁ = .ok (-1, t', sys')) :
    ∃ evs, sys'.trace = sys.trace ++ evs ∧ Handshake json t sys (-1) t' evs := by
  obtain ⟨evs₁, evs₂, htrace, hsent, hend⟩ := exchange_after_state hserver hno hstate h
  have hall : sent sys.accepted (.accept sys.accepted :: (evs₁ ++ evs₂))
      = [PARAM_EXCHANGE.toUInt8] ++ sent sys.accepted evs₂ := by
    change sent sys.accepted (evs₁ ++ evs₂) = _
    rw [sent_append, hsent]
  refine ⟨_, htrace, ?_⟩
  rcases hend with ⟨_, hnone⟩ | ⟨_, hret, hreport⟩ | ⟨hr, _⟩
  · rw [hnone] at hall
    refine .of_unfinished (Or.inl ?_) (not_handshakeBytes_of_short ?_)
    · rw [hall]
      exact ⟨[CREATE_STREAMS.toUInt8], rfl⟩
    · rw [hall]
      exact Nat.one_lt_two
  · have hrefusal : sent sys.accepted (.accept sys.accepted :: (evs₁ ++ evs₂))
        <+: refusalBytes sys.listening.errno := by
      rw [hall]
      exact (List.prefix_append_right_inj [PARAM_EXCHANGE.toUInt8]).mpr hreport
    exact .of_unfinished (Or.inr ⟨hret, hrefusal⟩) (not_handshakeBytes_of_refusal hrefusal)
  · exact absurd hr (by decide)

end Unfinished

/-- The exchange succeeded: the handshake is on the wire, in its order, and
`on_connect` sends nothing. -/
theorem handshake_of_served {json : CjsonLib} {t t₁ t' : IperfTest} {sys sys₁ sys₂ : Sys}
    (hserver : t.role ≠ 'c') (hno : Uninterrupted (accepting sys)) (hok : ¬ sys.accepted < 0)
    (hstate : iperfSetSendState { t with ctrlSck := sys.accepted } PARAM_EXCHANGE (accepting sys)
      = (0, t₁, sys₁))
    (h : iperfExchangeParameters json t₁ sys₁ = .ok (0, t', sys₂)) :
    ∃ evs, (if t'.onConnect then sys₂.log .onConnect else sys₂).trace = sys.trace ++ evs ∧
      Handshake json t sys 0 t' evs := by
  obtain ⟨evs₁, evs₂, htrace, hsent, hend⟩ := exchange_after_state hserver hno hstate h
  obtain ⟨tail, htail, hconnect⟩ := trace_onConnect t' sys₂
  have hquiet : sent sys.accepted tail = [] := by
    rcases hconnect with rfl | rfl <;> rfl
  obtain ⟨hret, ⟨before, buf, after, j, rfl, hbefore, hafter, hparse, happly⟩, hst, hctrl⟩ :
      AnnouncesStreams json _ _ t' evs₂ := by
    rcases hend with ⟨hr, _⟩ | ⟨hr, _⟩ | ⟨_, hann⟩
    · exact absurd hr (by decide)
    · exact absurd hr (by decide)
    · exact hann
  have hfirst : sent sys.accepted (.accept sys.accepted :: (evs₁ ++ before))
      = [PARAM_EXCHANGE.toUInt8] := by
    change sent sys.accepted (evs₁ ++ before) = _
    rw [sent_append, hsent, hbefore]
    rfl
  have hsecond : sent sys.accepted (.parse buf :: .listen sys.listening.ret :: (after ++ tail))
      = [CREATE_STREAMS.toUInt8] := by
    change sent sys.accepted (after ++ tail) = _
    rw [sent_append, hafter, hquiet]
    rfl
  have hall : sent sys.accepted (.accept sys.accepted :: (evs₁ ++ before) ++
      .parse buf :: .listen sys.listening.ret :: (after ++ tail)) = handshakeBytes := by
    rw [sent_append, hfirst, hsecond]
    rfl
  refine ⟨.accept sys.accepted :: (evs₁ ++ before) ++
    .parse buf :: .listen sys.listening.ret :: (after ++ tail), ?_, ?_⟩
  · rw [htail, htrace]
    simp
  · exact
      { bytes := Or.inl (hall ▸ List.prefix_refl _)
        announced := fun _ => ⟨hret, _, buf, _, j, rfl, hfirst, hparse, happly⟩
        success := iff_of_true rfl ⟨hok, hall⟩
        state := fun _ => ⟨hst, hctrl⟩ }

/-- **The handshake of a free server**, when no write is interrupted. -/
theorem handshake_trace (json : CjsonLib) (t t' : IperfTest) (sys sys' : Sys) (r : Int32)
    (hfree : t.ctrlSck = -1) (hserver : t.role ≠ 'c') (hno : Uninterrupted sys)
    (h : iperfAccept json t sys = .ok (r, t', sys')) :
    ∃ evs, sys'.trace = sys.trace ++ evs ∧ Handshake json t sys r t' evs := by
  have hno' : Uninterrupted (accepting sys) := hno
  cases iperfAccept_ends h with
  | failed hfail =>
      exact ⟨[.accept sys.accepted], rfl, .of_unfinished (Or.inl List.nil_prefix)
        (not_handshakeBytes_of_short Nat.zero_lt_two)⟩
  | stateUnsent _ _ hstate => exact handshake_of_stateUnsent hno' hstate
  | exchangeFailed _ _ hstate hexchange =>
      exact handshake_of_exchangeFailed hserver hno' hstate hexchange
  | served hok _ hstate hexchange => exact handshake_of_served hserver hno' hok hstate hexchange
  | denialUnsent _ hbusy => exact absurd hfree hbusy
  | denied _ hbusy => exact absurd hfree hbusy

/-- What happens when a client sends the object that only names TCP. -/
def tcpHandshake : List Event :=
  [.accept 5, .write 5 [PARAM_EXCHANGE.toUInt8], .read 5 (be32 12), .calloc 13,
   .read 5 (lit "\x7b\"tcp\":true\x7d").bytes, .parse ((lit "\x7b\"tcp\":true\x7d").bytes ++ [0]),
   .listen 0, .write 5 [CREATE_STREAMS.toUInt8], .onConnect]

theorem handshake_trace_tcp : ∃ t', t'.state = CREATE_STREAMS ∧
    Handshake (.single (lit "\x7b\"tcp\":true\x7d") (.object [(lit "tcp", .true)]))
      (newServer 0) (.arrived (frame (lit "\x7b\"tcp\":true\x7d"))) 0 t' tcpHandshake := by
  have hrun : iperfAccept (.single (lit "\x7b\"tcp\":true\x7d") (.object [(lit "tcp", .true)]))
        (newServer 0) (.arrived (frame (lit "\x7b\"tcp\":true\x7d")))
      = .ok (0, { newServer 0 with ctrlSck := 5, state := CREATE_STREAMS, listener := 3,
                                   protocol := some (tcpProtocol 0) },
          { Sys.quiet with trace := tcpHandshake }) := by
    decide +kernel
  obtain ⟨evs, htrace, hhandshake⟩ := handshake_trace _ (newServer 0) _ _ _ 0 rfl (by decide)
    (fun e he => by cases he) hrun
  obtain rfl : tcpHandshake = evs := htrace
  exact ⟨_, rfl, hhandshake⟩

end KernelTestkit.Server
