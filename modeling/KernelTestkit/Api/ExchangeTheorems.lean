/-
KernelTestkit.Api.ExchangeTheorems — the parameter exchange as a whole.

* `reported_success_iff` — when a success reported by `JSON_write` or
  `iperf_set_send_state` means that all of it is on the wire.
* `ServerExchange` — the ways the server branch of
  `iperf_exchange_parameters` ends; `exchange_server_ends` says that these
  are all, `exchange_server_returns_iff` when it returns.
* `exchange_safe_iff` — which documents a new server survives.
-/
import KernelTestkit.Api.Exchange
import KernelTestkit.Api.ParametersTheorems

namespace KernelTestkit.Api

open KernelTestkit.Lib
open KernelTestkit.Net

/-! ## The state byte -/

/-- What `iperf_set_send_state` does in any case. -/
theorem iperfSetSendState_frame {t t' : IperfTest} {state : Int8} {sys sys' : Sys} {r : Int32}
    (h : iperfSetSendState t state sys = (r, t', sys')) :
    (r = 0 ∨ r = -1) ∧ t' = { t with state := state } ∧
      ∃ evs rest e, sys' = { sys with outbox := rest, errno := e, trace := sys.trace ++ evs } ∧
        WritesOn t.ctrlSck evs := by
  rcases hw : nwrite t.ctrlSck [state.toUInt8] sys with ⟨r₁, sys₁⟩
  obtain ⟨evs, rest, e, rfl, hon, _⟩ := nwrite_frame hw
  simp only [iperfSetSendState, hw] at h
  split at h
  · cases h
    exact ⟨Or.inr rfl, rfl, evs, rest, ECONNREFUSED, rfl, hon⟩
  · cases h
    exact ⟨Or.inl rfl, rfl, evs, rest, e, rfl, hon⟩

/-- What it does when no write is interrupted: it sends the byte and leaves
`errno` alone, or fails and sends nothing. -/
theorem iperfSetSendState_uninterrupted {t t' : IperfTest} {state : Int8} {sys sys' : Sys}
    {r : Int32} (hno : Uninterrupted sys) (h : iperfSetSendState t state sys = (r, t', sys')) :
    t' = { t with state := state } ∧
      ∃ evs rest e, sys' = { sys with outbox := rest, errno := e, trace := sys.trace ++ evs } ∧
        WritesOn t.ctrlSck evs ∧ rest <:+ sys.outbox ∧
        (r = 0 ∧ sent t.ctrlSck evs = [state.toUInt8] ∧ e = sys.errno ∨
          r = -1 ∧ sent t.ctrlSck evs = []) := by
  rcases hw : nwrite t.ctrlSck [state.toUInt8] sys with ⟨r₁, sys₁⟩
  obtain ⟨evs, rest, e, rfl, hon, hsuf, hend⟩ := nwrite_uninterrupted hno (by simp) hw
  simp only [iperfSetSendState, hw] at h
  rcases hend with ⟨hpos, hsent, rfl⟩ | ⟨hneg, _, hshort⟩
  · rw [if_neg hpos] at h
    cases h
    exact ⟨rfl, evs, rest, _, rfl, hon, hsuf, Or.inl ⟨rfl, hsent, rfl⟩⟩
  · rw [if_pos hneg] at h
    cases h
    refine ⟨rfl, evs, rest, _, rfl, hon, hsuf, Or.inr ⟨rfl, ?_⟩⟩
    exact List.length_eq_zero_iff.mp (by simpa using hshort)

/-- The last write of a report, whatever it returns. -/
theorem lastReport_frame {t : IperfTest} {bytes : List UInt8} {sys sys' : Sys} {r : Int32}
    (h : nwrite t.ctrlSck bytes sys = (r, sys')) :
    ∃ evs rest e, (if r < 0 then (t, sys'.setErrno EPROTOTYPE) else (t, sys'))
        = (t, { sys with outbox := rest, errno := e, trace := sys.trace ++ evs }) ∧
      WritesOn t.ctrlSck evs ∧ sent t.ctrlSck evs <+: bytes := by
  obtain ⟨evs, rest, e, rfl, hon, hsent, _⟩ := nwrite_frame h
  split
  · exact ⟨evs, rest, EPROTOTYPE, rfl, hon, hsent⟩
  · exact ⟨evs, rest, e, rfl, hon, hsent⟩

/-- What the report of a failed `listen` does in any case. -/
theorem sendServerError_frame (t : IperfTest) (sys : Sys) :
    ∃ evs rest e, sendServerError t sys = ({ t with state := SERVER_ERROR },
        { sys with outbox := rest, errno := e, trace := sys.trace ++ evs }) ∧
      WritesOn t.ctrlSck evs := by
  rcases h₁ : iperfSetSendState t SERVER_ERROR sys with ⟨r₁, t₁, sys₁⟩
  obtain ⟨hr, rfl, evs₁, rest₁, e₁, rfl, hon₁⟩ := iperfSetSendState_frame h₁
  simp only [sendServerError, h₁]
  rcases hr with rfl | rfl
  · simp only [ne_eq, not_true_eq_false, if_false]
    rcases h₂ : nwrite t.ctrlSck (be32 e₁.toUInt32)
      { sys with outbox := rest₁, errno := e₁, trace := sys.trace ++ evs₁ } with ⟨r₂, sys₂⟩
    obtain ⟨evs₂, rest₂, e₂, rfl, hon₂, _⟩ := nwrite_frame h₂
    split
    · exact ⟨evs₁ ++ evs₂, rest₂, EPROTOTYPE, by simp [Sys.setErrno], hon₁.append hon₂⟩
    · rcases h₃ : nwrite t.ctrlSck (be32 e₂.toUInt32)
        { sys with outbox := rest₂, errno := e₂, trace := sys.trace ++ evs₁ ++ evs₂ }
        with ⟨r₃, sys₃⟩
      obtain ⟨evs₃, rest₃, e₃, hout, hon₃, _⟩ :=
        lastReport_frame (t := { t with state := SERVER_ERROR }) h₃
      exact ⟨evs₁ ++ evs₂ ++ evs₃, rest₃, e₃, by simpa using hout,
        (hon₁.append hon₂).append hon₃⟩
  · exact ⟨evs₁, rest₁, e₁, by simp, hon₁⟩

/-- Uninterrupted, it sends a prefix of the state byte and twice the `errno`
that `listen` has left. -/
theorem sendServerError_uninterrupted (t : IperfTest) {sys : Sys} (hno : Uninterrupted sys) :
    ∃ evs rest e, sendServerError t sys = ({ t with state := SERVER_ERROR },
        { sys with outbox := rest, errno := e, trace := sys.trace ++ evs }) ∧
      WritesOn t.ctrlSck evs ∧
      sent t.ctrlSck evs <+: [SERVER_ERROR.toUInt8] ++
        (be32 sys.errno.toUInt32 ++ be32 sys.errno.toUInt32) := by
  rcases h₁ : iperfSetSendState t SERVER_ERROR sys with ⟨r₁, t₁, sys₁⟩
  obtain ⟨rfl, evs₁, rest₁, e₁, rfl, hon₁, hsuf₁, hend₁⟩ := iperfSetSendState_uninterrupted hno h₁
  simp only [sendServerError, h₁]
  rcases hend₁ with ⟨rfl, hs₁, rfl⟩ | ⟨rfl, hs₁⟩
  · have hno₁ : Uninterrupted { sys with outbox := rest₁, trace := sys.trace ++ evs₁ } :=
      fun e he => hno e (hsuf₁.subset he)
    simp only [ne_eq, not_true_eq_false, if_false]
    rcases h₂ : nwrite t.ctrlSck (be32 sys.errno.toUInt32)
      { sys with outbox := rest₁, trace := sys.trace ++ evs₁ } with ⟨r₂, sys₂⟩
    obtain ⟨evs₂, rest₂, e₂, rfl, hon₂, _, hend₂⟩ := nwrite_uninterrupted hno₁ (by simp) h₂
    rcases hend₂ with ⟨hpos, hs₂, rfl⟩ | ⟨hneg, hs₂, _⟩
    · simp only [if_neg hpos]
      rcases h₃ : nwrite t.ctrlSck (be32 sys.errno.toUInt32)
        { sys with outbox := rest₂, trace := sys.trace ++ evs₁ ++ evs₂ } with ⟨r₃, sys₃⟩
      obtain ⟨evs₃, rest₃, e₃, hout, hon₃, hs₃⟩ :=
        lastReport_frame (t := { t with state := SERVER_ERROR }) h₃
      have hsent : sent t.ctrlSck (evs₁ ++ evs₂ ++ evs₃) <+: [SERVER_ERROR.toUInt8] ++
          (be32 sys.errno.toUInt32 ++ be32 sys.errno.toUInt32) := by
        rw [sent_append, sent_append, hs₁, hs₂, List.append_assoc, List.prefix_append_right_inj,
          List.prefix_append_right_inj]
        exact hs₃
      exact ⟨evs₁ ++ evs₂ ++ evs₃, rest₃, e₃, by simpa using hout,
        (hon₁.append hon₂).append hon₃, hsent⟩
    · simp only [if_pos hneg]
      refine ⟨evs₁ ++ evs₂, rest₂, EPROTOTYPE, by simp [Sys.setErrno], hon₁.append hon₂, ?_⟩
      rw [sent_append, hs₁, List.prefix_append_right_inj]
      exact hs₂.trans (List.prefix_append _ _)
  · exact ⟨evs₁, rest₁, e₁, by simp, hon₁, by rw [hs₁]; exact List.nil_prefix⟩

/-- The first answer of a script decides over one byte. -/
theorem iperfSetSendState_whole_iff (t : IperfTest) (state : Int8) (sys : Sys) :
    ((iperfSetSendState t state sys).1 = 0 →
        sent t.ctrlSck (iperfSetSendState t state sys).2.2.trace
          = sent t.ctrlSck sys.trace ++ [state.toUInt8]) ↔
      ∀ e rest, sys.outbox = .error e :: rest → ¬ Interrupts e := by
  have hend := nwrite_ends t.ctrlSck [state.toUInt8] sys
  rcases hw : nwrite t.ctrlSck [state.toUInt8] sys with ⟨r, sys'⟩
  simp only [iperfSetSendState, hw]
  rw [hw] at hend
  cases hend with
  | @moved k evs rest e hm hon hs he =>
      have hk := hm.le
      rw [List.length_singleton] at hk
      rw [if_neg (ofNat_not_neg (show 0 + k < 2 ^ 31 by omega))]
      simp only [forall_const, sent_append, hs, List.append_cancel_left_eq]
      rw [List.length_singleton] at hm
      rw [← hm.one_iff]
      constructor
      · intro hall
        have hlen := congrArg List.length hall
        simpa [Nat.min_eq_left hk] using hlen
      · rintro rfl
        rfl
  | failed hr _ _ _ hno _ =>
      have hneg : r < 0 := by rcases hr with rfl | rfl <;> decide
      rw [if_pos hneg]
      constructor
      · intro _ e rest hout hsoft
        exact hno 0 rest (by rw [hout]; exact .stop (by simp) hsoft)
      · intro _ hbad
        exact absurd (show (-1 : Int32) = 0 from hbad) (by decide)

/-- **Reported success**: `JSON_write` and `iperf_set_send_state` report a
success only when everything is on the wire exactly when the write script
truncates no message, and does not begin with an interruption. -/
theorem reported_success_iff (json : CjsonLib) (fd : Fd) (doc : CJson) (t : IperfTest)
    (state : Int8) (sys : Sys) :
    (((jsonWrite json fd doc sys).1 = 0 → ∃ text, json.printUnformatted doc = some text ∧
        sent fd (jsonWrite json fd doc sys).2.trace = sent fd sys.trace ++ frame text) ↔
      ∀ text, json.printUnformatted doc = some text →
        ¬ Truncates text.bytes.length sys.outbox) ∧
    (((iperfSetSendState t state sys).1 = 0 →
        sent t.ctrlSck (iperfSetSendState t state sys).2.2.trace
          = sent t.ctrlSck sys.trace ++ [state.toUInt8]) ↔
      ∀ e rest, sys.outbox = .error e :: rest → ¬ Interrupts e) :=
  ⟨jsonWrite_whole_iff json fd doc sys, iperfSetSendState_whole_iff t state sys⟩

/-- One interrupted write in front, and both report a success: `JSON_write`
after the text alone, without its length, `iperf_set_send_state` after
nothing. -/
theorem interrupted_success :
    (jsonWrite .empties 5 (.object []) { Sys.quiet with outbox := [.error EINTR] }).1 = 0 ∧
    sent 5 (jsonWrite .empties 5 (.object [])
      { Sys.quiet with outbox := [.error EINTR] }).2.trace = (lit "\x7b\x7d").bytes ∧
    (lit "\x7b\x7d").bytes ≠ frame (lit "\x7b\x7d") ∧
    (iperfSetSendState iperfNewTest CREATE_STREAMS
      { Sys.quiet with outbox := [.error EINTR] }).1 = 0 ∧
    sent iperfNewTest.ctrlSck (iperfSetSendState iperfNewTest CREATE_STREAMS
      { Sys.quiet with outbox := [.error EINTR] }).2.2.trace = [] := by
  decide +kernel

/-! ## The server branch -/

/-- The test and the environment after `protocol->listen`. -/
def listened (t : IperfTest) (sys : Sys) : IperfTest × Sys :=
  ({ t with listener := sys.listening.listener },
    { sys with errno := sys.listening.errno,
               trace := sys.trace ++ [.listen sys.listening.ret] })

theorem uninterrupted_listened {sys : Sys} (h : Uninterrupted sys) (t : IperfTest) :
    Uninterrupted (listened t sys).2 := h

theorem listen_eq {t : IperfTest} (h : t.protocol ≠ none) (sys : Sys) :
    listen t sys = .ok (sys.listening.ret, listened t sys) := by
  unfold listen
  split
  · rename_i hnone
    exact absurd hnone h
  · rfl

theorem listen_ok {t : IperfTest} {sys : Sys} {out : Int32 × IperfTest × Sys} :
    listen t sys = .ok out ↔
      t.protocol ≠ none ∧ out = (sys.listening.ret, listened t sys) := by
  constructor
  · intro h
    have hprotocol : t.protocol ≠ none := by
      intro hnone
      simp [listen, hnone] at h
    rw [listen_eq hprotocol] at h
    injection h with h
    exact ⟨hprotocol, h.symm⟩
  · rintro ⟨hprotocol, rfl⟩
    exact listen_eq hprotocol sys

/-- The ways the server branch of `iperf_exchange_parameters` ends. -/
inductive ServerExchange (json : CjsonLib) (t : IperfTest) (sys : Sys) :
    Int32 × IperfTest × Sys → Prop where
  /-- no document was delivered -/
  | undelivered {sys₁ : Sys} : jsonRead json t.ctrlSck sys = .ok (none, sys₁) →
      ServerExchange json t sys (-1, t, sys₁)
  /-- the document was applied, `listen` failed and the failure was reported -/
  | listenFailed {j : CJson} {sys₁ : Sys} {out : IperfTest × Sys} :
      jsonRead json t.ctrlSck sys = .ok (some j, sys₁) →
      Decodable j t → (decoded j t).protocol ≠ none → sys₁.listening.ret < 0 →
      sendServerError (listened (decoded j t) sys₁).1 (listened (decoded j t) sys₁).2 = out →
      ServerExchange json t sys (-1, out)
  /-- the document was applied, `listen` succeeded and the streams were
  announced, or not -/
  | announced {j : CJson} {sys₁ : Sys} {r : Int32} {out : IperfTest × Sys} :
      jsonRead json t.ctrlSck sys = .ok (some j, sys₁) →
      Decodable j t → (decoded j t).protocol ≠ none → ¬ sys₁.listening.ret < 0 →
      iperfSetSendState (listened (decoded j t) sys₁).1 CREATE_STREAMS
        (listened (decoded j t) sys₁).2 = (r, out) →
      ServerExchange json t sys (r, out)

/-- **The server branch**: a call that returns ends one of these ways. -/
theorem exchange_server_ends {json : CjsonLib} {t : IperfTest} {sys : Sys}
    {out : Int32 × IperfTest × Sys} (hrole : t.role ≠ 'c')
    (h : iperfExchangeParameters json t sys = .ok out) : ServerExchange json t sys out := by
  rw [iperfExchangeParameters, if_neg hrole] at h
  obtain ⟨⟨r, t₁, sys₁⟩, hget, hrest⟩ := bind_ok_iff.mp h
  obtain ⟨_, hread, ⟨rfl, rfl, rfl⟩ | ⟨j, rfl, rfl, hdecodable, rfl⟩⟩ := getParameters_ok.mp hget
  · cases hrest
    exact .undelivered hread
  · obtain ⟨_, hlisten, hsend⟩ := bind_ok_iff.mp hrest
    obtain ⟨hprotocol, rfl⟩ := listen_ok.mp hlisten
    simp only at hsend
    split at hsend
    · rename_i hfailed
      cases hsend
      exact .listenFailed hread hdecodable hprotocol hfailed rfl
    · rename_i hlistening
      rcases hstate : iperfSetSendState (listened (decoded j t) sys₁).1 CREATE_STREAMS
        (listened (decoded j t) sys₁).2 with ⟨r, t₃, sys₃⟩
      obtain ⟨hr, _⟩ := iperfSetSendState_frame hstate
      refine .announced hread hdecodable hprotocol hlistening ?_
      simp only [hstate] at hsend
      rcases hr with rfl | rfl
      · cases hsend
        exact hstate
      · cases hsend
        exact hstate

/-- With a document delivered, the server branch returns exactly when the
decoder does and a protocol is selected for `listen`. -/
theorem exchange_server_returns_iff {json : CjsonLib} {t : IperfTest} {sys sys₁ : Sys} {j : CJson}
    (hrole : t.role ≠ 'c') (hread : jsonRead json t.ctrlSck sys = .ok (some j, sys₁)) :
    (∃ out, iperfExchangeParameters json t sys = .ok out) ↔
      Decodable j t ∧ (decoded j t).protocol ≠ none := by
  constructor
  · rintro ⟨out, hrun⟩
    cases exchange_server_ends hrole hrun with
    | undelivered hnone => cases hnone.symm.trans hread
    | listenFailed hread' hdecodable hprotocol =>
        exact jsonRead_delivers_one hread' hread ▸ ⟨hdecodable, hprotocol⟩
    | announced hread' hdecodable hprotocol =>
        exact jsonRead_delivers_one hread' hread ▸ ⟨hdecodable, hprotocol⟩
  · rintro ⟨hdecodable, hprotocol⟩
    have hget : getParameters json t sys = .ok (0, decoded j t, sys₁) :=
      getParameters_ok.mpr ⟨_, hread, Or.inr ⟨j, rfl, rfl, hdecodable, rfl⟩⟩
    rw [iperfExchangeParameters, if_neg hrole, hget]
    simp only [bind, Except.bind, listen_eq hprotocol]
    split
    · rename_i hbad
      exact absurd hbad (by decide)
    · split
      · exact ⟨_, rfl⟩
      · split <;> exact ⟨_, rfl⟩

/-! ## What an exchange touches -/

/-- Everything that is read or written is read or written on `fd`, and nothing
is accepted or closed. -/
def ExchangeOn (fd : Fd) (evs : List Event) : Prop :=
  ∀ ev ∈ evs, (∃ bytes, ev = .read fd bytes ∨ ev = .write fd bytes) ∨
    (∃ size, ev = .calloc size) ∨ (∃ buf, ev = .parse buf) ∨ ∃ ret, ev = .listen ret

theorem ExchangeOn.append {fd : Fd} {t u : List Event} (ht : ExchangeOn fd t)
    (hu : ExchangeOn fd u) : ExchangeOn fd (t ++ u) := by
  intro ev hev
  rcases List.mem_append.mp hev with h | h
  · exact ht ev h
  · exact hu ev h

theorem exchangeOn_of_writes {fd : Fd} {evs : List Event} (h : WritesOn fd evs) :
    ExchangeOn fd evs := by
  intro ev hev
  obtain ⟨bytes, rfl⟩ := h ev hev
  exact Or.inl ⟨bytes, Or.inr rfl⟩

theorem exchangeOn_of_fetches {fd : Fd} {evs : List Event} (h : Fetches fd evs) :
    ExchangeOn fd evs := by
  intro ev hev
  rcases h ev hev with ⟨bytes, rfl⟩ | hcalloc
  · exact Or.inl ⟨bytes, Or.inl rfl⟩
  · exact Or.inr (Or.inl hcalloc)

/-- What `JSON_read` has done, as far as the exchange is concerned. -/
theorem jsonRead_exchangeOn {json : CjsonLib} {fd : Fd} {sys sys' : Sys} {doc : Option CJson}
    (h : jsonRead json fd sys = .ok (doc, sys')) :
    ∃ evs q e, sys' = { sys with inbox := q, errno := e, trace := sys.trace ++ evs } ∧
      ExchangeOn fd evs := by
  obtain ⟨rd, tl, q, e, hrd, rfl, htl⟩ := jsonRead_ok h
  refine ⟨rd ++ tl, q, e, rfl, (exchangeOn_of_fetches hrd).append ?_⟩
  rcases htl with ⟨_, rfl⟩ | ⟨buf, rfl, _⟩
  · exact fun ev hev => by simp at hev
  · exact fun ev hev => Or.inr (Or.inr (Or.inl ⟨buf, List.mem_singleton.mp hev⟩))

/-- **The frame of an exchange**, in either role: the control socket stays,
the state is kept or becomes one of the two the server announces, and only
the control socket is used. -/
theorem exchange_frame {json : CjsonLib} {t t' : IperfTest} {sys sys' : Sys} {r : Int32}
    (h : iperfExchangeParameters json t sys = .ok (r, t', sys')) :
    (r = 0 ∨ r = -1) ∧ t'.ctrlSck = t.ctrlSck ∧
      (t'.state = t.state ∨ t'.state = CREATE_STREAMS ∨ t'.state = SERVER_ERROR) ∧
      ∃ evs q rest e, sys' = { sys with inbox := q, outbox := rest, errno := e,
                                        trace := sys.trace ++ evs } ∧
        ExchangeOn t.ctrlSck evs := by
  by_cases hrole : t.role = 'c'
  · rw [iperfExchangeParameters, if_pos hrole] at h
    obtain ⟨⟨r₁, sys₁⟩, hsend, hrest⟩ := bind_ok_iff.mp h
    obtain ⟨j, _, hwrite⟩ := bind_ok_iff.mp hsend
    rcases hj : jsonWrite json t.ctrlSck j sys with ⟨r₂, sys₂⟩
    obtain ⟨evs, rest, e, rfl, hon⟩ := jsonWrite_frame hj
    have hsys : sys₁ = { sys with outbox := rest, errno := e, trace := sys.trace ++ evs } := by
      simp only [hj] at hwrite
      split at hwrite <;> cases hwrite <;> rfl
    simp only at hrest
    split at hrest
    · cases hrest
      exact ⟨Or.inr rfl, rfl, Or.inl rfl, evs, sys.inbox, rest, e, hsys,
        exchangeOn_of_writes hon⟩
    · cases hrest
      exact ⟨Or.inl rfl, rfl, Or.inl rfl, evs, sys.inbox, rest, e, hsys,
        exchangeOn_of_writes hon⟩
  · have hlisten (ret : Int32) : ExchangeOn t.ctrlSck [.listen ret] :=
      fun ev hev => Or.inr (Or.inr (Or.inr ⟨ret, List.mem_singleton.mp hev⟩))
    cases exchange_server_ends hrole h with
    | undelivered hread =>
        obtain ⟨evs, q, e, rfl, hon⟩ := jsonRead_exchangeOn hread
        exact ⟨Or.inr rfl, rfl, Or.inl rfl, evs, q, sys.outbox, e, rfl, hon⟩
    | @listenFailed j sys₁ _ hread _ _ _ hreport =>
        obtain ⟨hsck, _⟩ := decoded_frame j t
        -- nothing else about the decoder is needed
        generalize decoded j t = t₁ at hsck hreport
        obtain ⟨evs, q, _, rfl, hon⟩ := jsonRead_exchangeOn hread
        obtain ⟨evs', rest, e, hout, hon'⟩ :=
          sendServerError_frame (listened t₁ _).1 (listened t₁ _).2
        cases hout.symm.trans hreport
        have hreported := exchangeOn_of_writes hon'
        rw [show (listened t₁ _).1.ctrlSck = t.ctrlSck from hsck] at hreported
        exact ⟨Or.inr rfl, hsck, Or.inr (Or.inr rfl),
          evs ++ [.listen sys.listening.ret] ++ evs', q, rest, e, by simp [listened],
          (hon.append (hlisten _)).append hreported⟩
    | @announced j sys₁ r out hread _ _ _ hstate =>
        obtain ⟨hsck, _⟩ := decoded_frame j t
        generalize decoded j t = t₁ at hsck hstate
        obtain ⟨evs, q, _, rfl, hon⟩ := jsonRead_exchangeOn hread
        obtain ⟨hr, rfl, evs', rest, e, rfl, hon'⟩ := iperfSetSendState_frame hstate
        have hannounced := exchangeOn_of_writes hon'
        rw [show (listened t₁ _).1.ctrlSck = t.ctrlSck from hsck] at hannounced
        exact ⟨hr, hsck, Or.inr (Or.inl rfl),
          evs ++ [.listen sys.listening.ret] ++ evs', q, rest, e, by simp [listened],
          (hon.append (hlisten _)).append hannounced⟩

/-! ## What an uninterrupted exchange sends -/

/-- The events of an exchange that announces the streams: a document is
parsed, `listen` succeeds, and only then something is sent. -/
structure AnnouncesStreams (json : CjsonLib) (t : IperfTest) (ret : Int32) (t' : IperfTest)
    (evs : List Event) : Prop where
  listens : ¬ ret < 0
  order : ∃ before buf after j, evs = before ++ .parse buf :: .listen ret :: after ∧
    sent t.ctrlSck before = [] ∧ sent t.ctrlSck after = [CREATE_STREAMS.toUInt8] ∧
    json.parse (cstringOf buf) = some j ∧
    applyParameters j t = .ok { t' with state := t.state, listener := t.listener }
  final : t'.state = CREATE_STREAMS ∧ t'.ctrlSck = t.ctrlSck

/-- **What the server branch sends** when no write is interrupted: nothing, a
part of the report of a failed `listen`, or `CREATE_STREAMS`; the last
exactly when it returns 0. -/
theorem exchange_uninterrupted {json : CjsonLib} {t t' : IperfTest} {sys sys' : Sys} {r : Int32}
    (hrole : t.role ≠ 'c') (hno : Uninterrupted sys)
    (h : iperfExchangeParameters json t sys = .ok (r, t', sys')) :
    ∃ evs, sys'.trace = sys.trace ++ evs ∧
      (r = -1 ∧ sent t.ctrlSck evs = [] ∨
        r = -1 ∧ sys.listening.ret < 0 ∧
          sent t.ctrlSck evs <+: [SERVER_ERROR.toUInt8] ++
            (be32 sys.listening.errno.toUInt32 ++ be32 sys.listening.errno.toUInt32) ∨
        r = 0 ∧ AnnouncesStreams json t sys.listening.ret t' evs) := by
  have hquiet {rd tl : List Event} (hrd : Fetches t.ctrlSck rd)
      (htl : tl = [] ∨ ∃ buf, tl = [.parse buf]) : sent t.ctrlSck (rd ++ tl) = [] := by
    rw [sent_append, hrd.sent]
    rcases htl with rfl | ⟨buf, rfl⟩ <;> rfl
  cases exchange_server_ends hrole h with
  | undelivered hread =>
      obtain ⟨rd, tl, q, e, hrd, rfl, htl⟩ := jsonRead_ok hread
      exact ⟨rd ++ tl, rfl, Or.inl ⟨rfl, hquiet hrd (htl.imp (·.2) (.imp fun _ => (·.1)))⟩⟩
  | @listenFailed j _ _ hread _ _ hret hreport =>
      obtain ⟨hsck, _⟩ := decoded_frame j t
      generalize decoded j t = t₁ at hsck hreport
      obtain ⟨rd, tl, q, e, hrd, rfl, htl⟩ := jsonRead_ok hread
      have hno' : Uninterrupted
          { sys with inbox := q, errno := e, trace := sys.trace ++ (rd ++ tl) } := hno
      obtain ⟨evs, rest, e', hout, _, hsent⟩ := sendServerError_uninterrupted
        (listened t₁ _).1 (uninterrupted_listened hno' t₁)
      cases hout.symm.trans hreport
      rw [show (listened t₁ _).1.ctrlSck = t.ctrlSck from hsck] at hsent
      refine ⟨rd ++ tl ++ [.listen sys.listening.ret] ++ evs, by simp [listened],
        Or.inr (Or.inl ⟨rfl, hret, ?_⟩)⟩
      rw [sent_append, sent_append, hquiet hrd (htl.imp (·.2) (.imp fun _ => (·.1)))]
      exact hsent
  | @announced j _ _ _ hread hdecodable _ hret hstate =>
      obtain ⟨hsck, hlistener, hkept⟩ := decoded_frame j t
      have happly := applyParameters_ok.mpr ⟨hdecodable, rfl⟩
      generalize decoded j t = t₁ at hsck hlistener hkept happly hstate
      obtain ⟨rd, tl, q, e, hrd, rfl, htl⟩ := jsonRead_ok hread
      obtain ⟨buf, rfl, hparse⟩ := htl.resolve_left (fun hbad => by cases hbad.1)
      have hno' : Uninterrupted
          { sys with inbox := q, errno := e, trace := sys.trace ++ (rd ++ [.parse buf]) } := hno
      obtain ⟨rfl, evs, rest, e', rfl, _, _, hend⟩ :=
        iperfSetSendState_uninterrupted (uninterrupted_listened hno' t₁) hstate
      rw [show (listened t₁ _).1.ctrlSck = t.ctrlSck from hsck] at hend
      refine ⟨rd ++ .parse buf :: .listen sys.listening.ret :: evs, by simp [listened], ?_⟩
      rcases hend with ⟨rfl, hsent, _⟩ | ⟨rfl, hsent⟩
      · refine Or.inr (Or.inr ⟨rfl, hret, ⟨rd, buf, evs, j, rfl, hrd.sent _, hsent,
          hparse.symm, ?_⟩, rfl, hsck⟩)
        rw [← hlistener, ← hkept]
        exact happly
      · refine Or.inl ⟨rfl, ?_⟩
        have hlisten : sent t.ctrlSck (.parse buf :: .listen sys.listening.ret :: evs) = [] :=
          hsent
        rw [sent_append, hrd.sent, hlisten]
        rfl

/-! ## Documents a new server survives -/

/-- The exchange dereferences no absent pointer: the decoder returns, and
either it reports a failure, or a registered protocol is selected and the
rest of the exchange returns as well. -/
def Survives (json : CjsonLib) (t : IperfTest) (sys : Sys) : Prop :=
  ∃ r t' sys', getParameters json t sys = .ok (r, t', sys') ∧
    (r = -1 ∨ (∃ protocol ∈ t'.protocols, t'.protocol = some protocol) ∧
      ∃ out, iperfExchangeParameters json t sys = .ok out)

/-- The documents a new server survives. -/
structure SafeDocument (j : CJson) : Prop where
  tcp : (getObjectItem j (lit "tcp")).isSome
  title : StringIfFound j (lit "title")
  congestion : StringIfFound j (lit "congestion")
  congestionUsed : StringIfFound j (lit "congestion_used")

/-- The only protocol a new server can select is TCP, under its key. -/
theorem decoded_protocol_newServer (j : CJson) (node : Nat) (fd : Fd) (st : Int8) :
    (decoded j { newServer node with ctrlSck := fd, state := st }).protocol
      = if (getObjectItem j (lit "tcp")).isSome then some (tcpProtocol node) else none := by
  change selectedProtocol j (lit "udp") Pudp (afterProtocol j (lit "tcp") Ptcp _) = _
  unfold selectedProtocol afterProtocol selectedProtocol
  cases getObjectItem j (lit "udp") <;> cases getObjectItem j (lit "tcp") <;> rfl

/-- **A new server survives** a document exactly when it names TCP and gives
no title or congestion algorithm that is not a string. -/
theorem exchange_safe_iff (json : CjsonLib) (node : Nat) (server : IperfTest) (fd : Fd)
    (st : Int8) (sys sys₁ : Sys) (j : CJson) (hserver : serverTest node = .ok server)
    (hread : jsonRead json fd sys = .ok (some j, sys₁)) :
    Survives json { server with ctrlSck := fd, state := st } sys ↔ SafeDocument j := by
  obtain rfl : newServer node = server := by
    injection hserver
  have hrole : (newServer node).role ≠ 'c' := show 's' ≠ 'c' by decide
  have hprotocol := decoded_protocol_newServer j node fd st
  have hreturns := exchange_server_returns_iff
    (t := { newServer node with ctrlSck := fd, state := st }) hrole hread
  constructor
  · rintro ⟨r, t', sys', hget, hend⟩
    obtain ⟨rfl, _, rfl⟩ := getParameters_of_delivered hread hget
    rcases hend with hr | ⟨_, hout⟩
    · exact absurd hr (by decide)
    · obtain ⟨hdecodable, hsome⟩ := hreturns.mp hout
      rw [hprotocol] at hsome
      exact ⟨Option.isSome_iff_ne_none.mpr (by simpa using hsome), hdecodable.title,
        hdecodable.congestion, hdecodable.congestionUsed⟩
  · rintro ⟨htcp, htitle, hcong, hused⟩
    rw [if_pos htcp] at hprotocol
    have hdecodable : Decodable j { newServer node with ctrlSck := fd, state := st } :=
      ⟨htitle, hcong, hused, fun _ hnone => by rw [hprotocol] at hnone; cases hnone⟩
    refine ⟨0, _, sys₁, getParameters_ok.mpr
      ⟨_, hread, Or.inr ⟨j, rfl, rfl, hdecodable, rfl⟩⟩, Or.inr ⟨?_, ?_⟩⟩
    · exact ⟨tcpProtocol node, List.mem_singleton.mpr rfl, hprotocol⟩
    · exact hreturns.mpr ⟨hdecodable, by rw [hprotocol]; exact Option.some_ne_none _⟩

/-- The smallest document a new server survives. -/
theorem tcp_document_safe :
    Survives (.single (lit "\x7b\"tcp\":true\x7d") (.object [(lit "tcp", .true)]))
      { newServer 0 with ctrlSck := 5, state := PARAM_EXCHANGE }
      (.arrived (frame (lit "\x7b\"tcp\":true\x7d"))) := by
  have hsafe : SafeDocument (.object [(lit "tcp", .true)]) :=
    ⟨rfl, stringIfFound_of_none rfl, stringIfFound_of_none rfl, stringIfFound_of_none rfl⟩
  have hdecodable : Decodable (.object [(lit "tcp", .true)])
      { newServer 0 with ctrlSck := 5, state := PARAM_EXCHANGE } :=
    ⟨hsafe.title, hsafe.congestion, hsafe.congestionUsed, fun _ hp => by cases hp⟩
  obtain ⟨sys₁, hread, _⟩ := getParameters_single
    (lit "\x7b\"tcp\":true\x7d") (by decide) hdecodable
  exact (exchange_safe_iff _ 0 (newServer 0) 5 PARAM_EXCHANGE _ sys₁ _ (serverTest_eq 0)
    hread).mpr hsafe

/-- The empty object selects no protocol, `get_parameters` returns 0 all the
same, and the call through `test->protocol->listen` faults. -/
theorem empty_document_crashes : ∃ (server : IperfTest) (sys₁ : Sys) (t' : IperfTest),
    serverTest 0 = .ok server ∧
    jsonRead .empties 5 (.arrived (frame (lit "\x7b\x7d"))) = .ok (some (.object []), sys₁) ∧
    getParameters .empties { server with ctrlSck := 5, state := PARAM_EXCHANGE }
      (.arrived (frame (lit "\x7b\x7d"))) = .ok (0, t', sys₁) ∧
    iperfExchangeParameters .empties { server with ctrlSck := 5, state := PARAM_EXCHANGE }
      (.arrived (frame (lit "\x7b\x7d"))) = .error .nullPointer ∧
    ¬ Survives .empties { server with ctrlSck := 5, state := PARAM_EXCHANGE }
      (.arrived (frame (lit "\x7b\x7d"))) := by
  let server := { newServer 0 with ctrlSck := 5, state := PARAM_EXCHANGE }
  have hdecodable : Decodable (.object []) server :=
    ⟨stringIfFound_of_none rfl, stringIfFound_of_none rfl, stringIfFound_of_none rfl,
      fun hs => absurd rfl hs⟩
  have hrun : ∃ sys₁, jsonRead .empties server.ctrlSck (.arrived (frame (lit "\x7b\x7d")))
        = .ok (some (.object []), sys₁) ∧
      getParameters .empties server (.arrived (frame (lit "\x7b\x7d")))
        = .ok (0, decoded (.object []) server, sys₁) :=
    getParameters_delivered server rfl (Arrival.allData_nil.requeue (frame _)) (by decide)
      (Arrival.contents_requeue (frame _) []) rfl hdecodable
  obtain ⟨sys₁, hread, hget⟩ := hrun
  have hcrash : iperfExchangeParameters .empties server (.arrived (frame (lit "\x7b\x7d")))
      = .error .nullPointer := by
    rw [iperfExchangeParameters, if_neg (show server.role ≠ 'c' by decide), hget]
    rfl
  refine ⟨newServer 0, sys₁, _, rfl, hread, hget, hcrash, ?_⟩
  rintro ⟨r, t', sys', hget', hr | ⟨_, out, hreturns⟩⟩
  · rw [hr] at hget'
    cases hget.symm.trans hget'
  · cases hcrash.symm.trans hreturns

end KernelTestkit.Api
