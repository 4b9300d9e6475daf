/-
KernelTestkit.Server.SessionTheorems — the server over any number of calls
of `iperf_accept`.

A `Session` is the test together with the descriptors the process has open.
The kernel gives an accepted connection a descriptor that is not open; the
events of a call say which descriptors are open afterwards. The control
socket is open from the call that takes it on, since no call closes it, so
no later client is given its descriptor, and a busy server touches nothing
but the descriptor of the new client (`session_isolated`).
-/
import KernelTestkit.Server.AcceptTheorems

namespace KernelTestkit.Server

open KernelTestkit.Lib
open KernelTestkit.Net
open KernelTestkit.Api

/-- The descriptors open after some events. -/
def descriptorsAfter (ds : List Fd) (evs : List Event) : List Fd :=
  evs.foldl (fun ds ev => match ev with
    | .accept fd => if fd < 0 then ds else fd :: ds
    | .close fd => ds.filter (· ≠ fd)
    | _ => ds) ds

/-- A server and the descriptors its process has open. -/
structure Session where
  test : IperfTest
  descriptors : List Fd
  deriving DecidableEq

/-- The environment one call finds, and the one it leaves. -/
structure Call where
  found : Sys
  left : Sys
  deriving DecidableEq

/-- One call of `iperf_accept` that returns. -/
structure CallsAccept (json : CjsonLib) (s : Session) (call : Call) (s' : Session) : Prop where
  starts : call.found.trace = []
  fresh : ¬ call.found.accepted < 0 → call.found.accepted ∉ s.descriptors
  returns : ∃ r, iperfAccept json s.test call.found = .ok (r, s'.test, call.left)
  opens : s'.descriptors = descriptorsAfter s.descriptors call.left.trace

/-! ## Descriptors -/

theorem descriptorsAfter_cons (ds : List Fd) (ev : Event) (evs : List Event) :
    descriptorsAfter ds (ev :: evs) = descriptorsAfter (descriptorsAfter ds [ev]) evs := rfl

/-- What is open stays open until it is closed. -/
theorem mem_descriptorsAfter {fd : Fd} : ∀ {evs : List Event} {ds : List Fd}, fd ∈ ds →
    .close fd ∉ evs → fd ∈ descriptorsAfter ds evs
  | [], _, hmem, _ => hmem
  | ev :: evs, ds, hmem, hclose => by
      simp only [List.mem_cons, not_or] at hclose
      rw [descriptorsAfter_cons]
      refine mem_descriptorsAfter ?_ hclose.2
      cases ev with
      | accept fd' =>
          by_cases hneg : fd' < 0
          · simpa [descriptorsAfter, hneg] using hmem
          · simp [descriptorsAfter, hneg, hmem]
      | close fd' =>
          have hne : fd ≠ fd' := fun heq => hclose.1 (heq ▸ rfl)
          simpa [descriptorsAfter, hne] using hmem
      | read _ _ => exact hmem
      | write _ _ => exact hmem
      | calloc _ => exact hmem
      | parse _ => exact hmem
      | listen _ => exact hmem
      | onConnect => exact hmem

/-! ## One call -/

/-- The control socket of a busy server is open. -/
def HoldsControl (s : Session) : Prop :=
  s.test.ctrlSck ≠ -1 → s.test.ctrlSck ∈ s.descriptors

variable {json : CjsonLib} {s s' : Session} {call : Call}

/-- What a later call may do: it leaves the control socket alone, and its
client receives at most `ACCESS_DENIED`. -/
def Isolated (fd : Fd) (call : Call) : Prop :=
  ¬ Touches fd call.left.trace ∧
    sent call.found.accepted call.left.trace <+: [ACCESS_DENIED.toUInt8]

/-- **A call on a free server** leaves it free, or takes the new socket. -/
theorem call_free (h : CallsAccept json s call s') (hfree : s.test.ctrlSck = -1) :
    s'.test.ctrlSck = -1 ∨
      ¬ call.found.accepted < 0 ∧ s'.test.ctrlSck = call.found.accepted ∧
        s'.test.ctrlSck ∈ s'.descriptors := by
  obtain ⟨hstarts, _, ⟨r, hrun⟩, hopens⟩ := h
  by_cases hnone : call.found.accepted < 0
  · obtain ⟨_, htest, _⟩ := accept_none hrun hnone
    exact Or.inl (htest ▸ hfree)
  · obtain ⟨hctrl, _, used, htrace, hkeeps⟩ := accept_free hrun hnone hfree
    rw [hstarts, List.nil_append] at htrace
    refine Or.inr ⟨hnone, hctrl, ?_⟩
    rw [hopens, htrace, hctrl, descriptorsAfter_cons]
    exact mem_descriptorsAfter (by simp [descriptorsAfter, hnone]) (hkeeps _).2

/-- **A call on a busy server** changes nothing of the test, keeps the control
socket open and stays away from it. -/
theorem call_busy (h : CallsAccept json s call s') (hbusy : s.test.ctrlSck ≠ -1)
    (hheld : s.test.ctrlSck ∈ s.descriptors) :
    s'.test = s.test ∧ s.test.ctrlSck ∈ s'.descriptors ∧ Isolated s.test.ctrlSck call := by
  obtain ⟨hstarts, hfresh, ⟨r, hrun⟩, hopens⟩ := h
  by_cases hnone : call.found.accepted < 0
  · obtain ⟨_, htest, htrace⟩ := accept_none hrun hnone
    rw [hstarts, List.nil_append] at htrace
    refine ⟨htest, ?_, ?_, ?_⟩
    · rw [hopens, htrace]
      exact mem_descriptorsAfter hheld (by simp)
    · rw [htrace]
      rintro ⟨bytes, hmem | hmem⟩ <;> simp at hmem
    · rw [htrace]
      exact List.nil_prefix
  · obtain ⟨htest, writes, tail, htrace, hon, hsent, htail⟩ := accept_busy hrun hnone hbusy
    have hne : s.test.ctrlSck ≠ call.found.accepted := fun heq => hfresh hnone (heq ▸ hheld)
    rw [hstarts, List.nil_append] at htrace
    -- every event of the call is about the new socket
    have hevents : ∀ ev ∈ call.left.trace, ev = .accept call.found.accepted ∨
        (∃ bytes, ev = .write call.found.accepted bytes) ∨ ev = .close call.found.accepted := by
      intro ev hev
      rw [htrace] at hev
      rcases List.mem_cons.mp hev with hev | hev
      · exact Or.inl hev
      rcases List.mem_append.mp hev with hev | hev
      · exact Or.inr (Or.inl (hon ev hev))
      · rcases htail with ⟨_, rfl⟩ | ⟨_, rfl⟩
        · cases hev
        · exact Or.inr (Or.inr (List.mem_singleton.mp hev))
    refine ⟨htest, ?_, ?_, ?_⟩
    · rw [hopens]
      refine mem_descriptorsAfter hheld (fun hmem => ?_)
      rcases hevents _ hmem with hev | ⟨_, hev⟩ | hev
      · cases hev
      · cases hev
      · exact hne (Event.close.inj hev)
    · rintro ⟨bytes, hmem | hmem⟩
      · rcases hevents _ hmem with hev | ⟨_, hev⟩ | hev <;> cases hev
      · rcases hevents _ hmem with hev | ⟨_, hev⟩ | hev
        · cases hev
        · exact hne (Event.write.inj hev).1
        · cases hev
    · have hquiet : sent call.found.accepted tail = [] := by
        rcases htail with ⟨_, rfl⟩ | ⟨_, rfl⟩ <;> rfl
      rw [htrace]
      change sent call.found.accepted (writes ++ tail) <+: _
      rw [sent_append, hquiet, List.append_nil]
      exact hsent

/-- Every call keeps the control socket open. -/
theorem holdsControl_of_call (h : CallsAccept json s call s') (hheld : HoldsControl s) :
    HoldsControl s' := by
  intro hset
  by_cases hfree : s.test.ctrlSck = -1
  · rcases call_free h hfree with hfree' | ⟨_, _, hmem⟩
    · exact absurd hfree' hset
    · exact hmem
  · obtain ⟨htest, hmem, _⟩ := call_busy h hfree (hheld hfree)
    rw [htest]
    exact hmem

/-! ## Runs -/

/-- On a busy server, any number of calls. -/
theorem busy_run {calls : List Call} (h : Steps (CallsAccept json) s calls s')
    (hbusy : s.test.ctrlSck ≠ -1) (hheld : s.test.ctrlSck ∈ s.descriptors) :
    s'.test = s.test ∧ ∀ call ∈ calls, Isolated s.test.ctrlSck call := by
  induction h with
  | nil => exact ⟨rfl, fun _ hmem => by cases hmem⟩
  | @cons s s₁ _ call calls hcall _ ih =>
      obtain ⟨htest, hmem, hisolated⟩ := call_busy hcall hbusy hheld
      obtain ⟨htest', hlater⟩ := ih (htest ▸ hbusy) (htest ▸ hmem)
      refine ⟨htest'.trans htest, fun c hc => ?_⟩
      rcases List.mem_cons.mp hc with rfl | hc
      · exact hisolated
      · exact htest ▸ hlater c hc

/-- A control socket was accepted by one of the calls. -/
theorem ctrlSck_accepted {calls : List Call} (h : Steps (CallsAccept json) s calls s')
    (hfree : s.test.ctrlSck = -1) (hset : s'.test.ctrlSck ≠ -1) (hheld : HoldsControl s) :
    ∃ call ∈ calls, ¬ call.found.accepted < 0 ∧ s'.test.ctrlSck = call.found.accepted := by
  induction h with
  | nil => exact absurd hfree hset
  | @cons s s₁ _ call calls hcall hrest ih =>
      have hheld₁ := holdsControl_of_call hcall hheld
      rcases call_free hcall hfree with hfree₁ | ⟨hok, htaken, _⟩
      · obtain ⟨c, hc, hctrl⟩ := ih hfree₁ hset hheld₁
        exact ⟨c, List.mem_cons_of_mem _ hc, hctrl⟩
      · have hbusy : s₁.test.ctrlSck ≠ -1 := by
          intro hbad
          rw [htaken] at hbad
          exact hok (hbad ▸ by decide)
        obtain ⟨htest, _⟩ := busy_run hrest hbusy (hheld₁ hbusy)
        exact ⟨call, List.mem_cons_self .., hok, by rw [htest, htaken]⟩

/-- **An ongoing session is isolated**: along any calls of `iperf_accept`, from
a free server on, once `ctrl_sck` is set it is one of the accepted sockets,
and no later call changes anything of the test, reads or writes the control
socket, or sends its client more than `ACCESS_DENIED`. -/
theorem session_isolated (json : CjsonLib) (s₀ s₁ s₂ : Session) (earlier later : List Call)
    (hfree : s₀.test.ctrlSck = -1) (hearlier : Steps (CallsAccept json) s₀ earlier s₁)
    (hset : s₁.test.ctrlSck ≠ -1) (hlater : Steps (CallsAccept json) s₁ later s₂) :
    (∃ call ∈ earlier, ¬ call.found.accepted < 0 ∧ s₁.test.ctrlSck = call.found.accepted) ∧
      s₂.test = s₁.test ∧ ∀ call ∈ later, Isolated s₁.test.ctrlSck call := by
  have hheld₀ : HoldsControl s₀ := fun hbad => absurd hfree hbad
  have hheld₁ : HoldsControl s₁ :=
    hearlier.preserves (fun _ _ _ hs hcall => holdsControl_of_call hcall hs) hheld₀
  exact ⟨ctrlSck_accepted hearlier hfree hset hheld₀, busy_run hlater hset (hheld₁ hset)⟩

/-- A second client while the first has its session. -/
theorem session_isolated_second_client :
    Isolated 5 ⟨{ Sys.quiet with accepted := 6 },
      { Sys.quiet with accepted := 6,
                       trace := [.accept 6, .write 6 [ACCESS_DENIED.toUInt8], .close 6] }⟩ := by
  let json := CjsonLib.single (lit "\x7b\"tcp\":true\x7d") (.object [(lit "tcp", .true)])
  let served := { newServer 0 with ctrlSck := 5, state := CREATE_STREAMS, listener := 3,
                                   protocol := some (tcpProtocol 0) }
  have hfirst : CallsAccept json ⟨newServer 0, [0, 1, 2, 3]⟩
      ⟨.arrived (frame (lit "\x7b\"tcp\":true\x7d")), { Sys.quiet with trace := tcpHandshake }⟩
      ⟨served, [5, 0, 1, 2, 3]⟩ :=
    ⟨rfl, by decide, ⟨0, by decide +kernel⟩, by decide⟩
  have hsecond : CallsAccept json ⟨served, [5, 0, 1, 2, 3]⟩ ⟨{ Sys.quiet with accepted := 6 },
        { Sys.quiet with accepted := 6,
                         trace := [.accept 6, .write 6 [ACCESS_DENIED.toUInt8], .close 6] }⟩
      ⟨served, [5, 0, 1, 2, 3]⟩ :=
    ⟨rfl, by decide, ⟨0, by decide +kernel⟩, by decide⟩
  have hall := session_isolated json _ _ _ _ _ rfl (.cons hfirst (.nil _)) (by decide)
    (.cons hsecond (.nil _))
  exact hall.2.2 _ (List.mem_cons_self ..)

end KernelTestkit.Server
