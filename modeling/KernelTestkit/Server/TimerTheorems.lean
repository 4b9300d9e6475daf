/-
KernelTestkit.Server.TimerTheorems — who holds the timer and the epoll
instance.

A field of the test is meant to hold an open descriptor or -1 (`Held`).
Opening keeps that, since what is new is open. The error paths of the two
functions that close do not: they leave the number of what they closed in
the field, so a later call closes it again, or closes whatever has got the
number meanwhile. `held_step` says which calls keep it, and
`timers_held_iff` which runs do.
-/
import KernelTestkit.Lib.Fallible
import KernelTestkit.Server.Timer

namespace KernelTestkit.Server

open KernelTestkit.Lib
open KernelTestkit.Net
open KernelTestkit.Api

/-! ## Holding -/

/-- A field that holds an open descriptor, or -1. -/
def Descriptors.Holds (fds : Descriptors) (field : Fd) : Prop :=
  field = -1 ∨ field ∈ fds.opened

/-- Both fields do, and nothing was closed that was not open. -/
structure Held (s : TimerState) : Prop where
  timer : s.fds.Holds s.ipt.timerFd
  epoll : s.fds.Holds s.ipt.epollFd
  closes : ∀ c ∈ s.fds.closes, c.1 = -1 ∨ c.2 = true

namespace Descriptors

variable {fds : Descriptors} {field fd created : Fd}

theorem holds_create_self (fds : Descriptors) (created : Fd) :
    (fds.create created).Holds created := by
  by_cases h : created = -1
  · exact Or.inl h
  · right
    rw [create, if_neg h]
    exact List.mem_cons_self ..

theorem Holds.create (h : fds.Holds field) (created : Fd) : (fds.create created).Holds field := by
  cases h with
  | inl h => exact Or.inl h
  | inr h =>
      right
      unfold Descriptors.create
      split
      · exact h
      · exact List.mem_cons_of_mem _ h

@[simp] theorem closes_create : (fds.create created).closes = fds.closes := by
  unfold Descriptors.create
  split
  · rfl
  · rfl

/-- A field keeps what it holds exactly when it is not what was closed. -/
theorem holds_close_iff :
    (fds.close fd).Holds field ↔ field = -1 ∨ fds.Holds field ∧ field ≠ fd := by
  simp only [Holds, close, List.mem_filter, decide_eq_true_eq, ne_eq]
  constructor
  · rintro (h | ⟨h, hne⟩)
    · exact Or.inl h
    · exact Or.inr ⟨Or.inr h, hne⟩
  · rintro (h | ⟨h | h, hne⟩)
    · exact Or.inl h
    · exact Or.inl h
    · exact Or.inr ⟨h, hne⟩

/-- A field that was closed holds nothing. -/
theorem holds_close_self_iff : (fds.close fd).Holds fd ↔ fd = -1 := by
  rw [holds_close_iff]
  simp

/-- Closing -1 closes nothing. -/
theorem closes_close_minus_one (h : ∀ c ∈ fds.closes, c.1 = -1 ∨ c.2 = true) :
    ∀ c ∈ (fds.close (-1)).closes, c.1 = -1 ∨ c.2 = true := by
  intro c hc
  rcases List.mem_append.mp hc with hc | hc
  · exact h c hc
  · rw [List.mem_singleton.mp hc]
    exact Or.inl rfl

end Descriptors

/-! ## One call -/

/-- The error paths a call takes have nothing to close: the fields they close
are -1. -/
def TimerCall.ClosesNothing (ipt : IperfTest) : TimerCall → Prop
  | .createEpoll _ => True
  | .createTimerfd _ => True
  | .registerTimerfd settime epollCtl =>
      settime = -1 ∨ epollCtl = -1 → ipt.timerFd = -1 ∧ ipt.epollFd = -1
  | .deregisterTimerfd epollCtl => epollCtl = -1 → ipt.timerFd = -1

theorem iperfRegisterTimerfd_fds (ipt : IperfTest) (settime epollCtl : Int32)
    (fds : Descriptors) : (iperfRegisterTimerfd ipt settime epollCtl fds).2
      = if settime = -1 ∨ epollCtl = -1 then (fds.close ipt.timerFd).close ipt.epollFd
        else fds := by
  unfold iperfRegisterTimerfd
  by_cases hset : settime = -1
  · simp [hset]
  · by_cases hctl : epollCtl = -1
    · simp [hctl]
    · simp [hset, hctl]

theorem iperfDeregisterTimerfd_fds (ipt : IperfTest) (epollCtl : Int32) (fds : Descriptors) :
    (iperfDeregisterTimerfd ipt epollCtl fds).2
      = if epollCtl = -1 then fds.close ipt.timerFd else fds := by
  unfold iperfDeregisterTimerfd
  split
  · rfl
  · rfl

theorem iperfCreateEpoll_test (ipt : IperfTest) (created : Fd) :
    (iperfCreateEpoll ipt created).2 = { ipt with epollFd := created } := by
  by_cases h : created = -1
  · simp [iperfCreateEpoll, h]
  · simp [iperfCreateEpoll, h]

theorem iperfCreateTimerfd_test (ipt : IperfTest) (created : Fd) :
    (iperfCreateTimerfd ipt created).2 = { ipt with timerFd := created } := by
  by_cases h : created = -1
  · simp [iperfCreateTimerfd, h]
  · simp [iperfCreateTimerfd, h]

/-- The error path of `iperf_register_timerfd` keeps both fields only when
both are -1. -/
theorem held_close_both {ipt : IperfTest} {fds : Descriptors} (h : Held ⟨ipt, fds⟩) :
    Held ⟨ipt, (fds.close ipt.timerFd).close ipt.epollFd⟩ ↔
      ipt.timerFd = -1 ∧ ipt.epollFd = -1 := by
  constructor
  · intro h'
    refine ⟨?_, Descriptors.holds_close_self_iff.mp h'.epoll⟩
    rcases Descriptors.holds_close_iff.mp h'.timer with htimer | htimer
    · exact htimer
    · exact Descriptors.holds_close_self_iff.mp htimer.1
  · intro hnone
    refine ⟨Or.inl hnone.1, Or.inl hnone.2, ?_⟩
    rw [hnone.1, hnone.2]
    exact Descriptors.closes_close_minus_one (Descriptors.closes_close_minus_one h.closes)

/-- The error path of `iperf_deregister_timerfd` keeps them only when there is
no timer. -/
theorem held_close_timer {ipt : IperfTest} {fds : Descriptors} (h : Held ⟨ipt, fds⟩) :
    Held ⟨ipt, fds.close ipt.timerFd⟩ ↔ ipt.timerFd = -1 := by
  constructor
  · intro h'
    exact Descriptors.holds_close_self_iff.mp h'.timer
  · intro hnone
    refine ⟨Or.inl hnone, ?_, ?_⟩
    · refine Descriptors.holds_close_iff.mpr ?_
      by_cases hepoll : ipt.epollFd = -1
      · exact Or.inl hepoll
      · exact Or.inr ⟨h.epoll, fun heq => hepoll (heq.trans hnone)⟩
    · rw [hnone]
      exact Descriptors.closes_close_minus_one h.closes

/-- **One call** keeps the fields held exactly when its error paths have
nothing to close. -/
theorem held_step {s s' : TimerState} {call : TimerCall} (h : Held s)
    (hstep : TimerStep s call s') : Held s' ↔ call.ClosesNothing s.ipt := by
  obtain ⟨_, rfl⟩ := hstep
  cases call with
  | createEpoll created =>
      refine iff_of_true ?_ trivial
      simp only [TimerCall.run, iperfCreateEpoll_test]
      exact ⟨h.timer.create created, Descriptors.holds_create_self s.fds created,
        by simpa using h.closes⟩
  | createTimerfd created =>
      refine iff_of_true ?_ trivial
      simp only [TimerCall.run, iperfCreateTimerfd_test]
      exact ⟨Descriptors.holds_create_self s.fds created, h.epoll.create created,
        by simpa using h.closes⟩
  | registerTimerfd settime epollCtl =>
      simp only [TimerCall.run, iperfRegisterTimerfd_fds, TimerCall.ClosesNothing]
      by_cases hfails : settime = -1 ∨ epollCtl = -1
      · rw [if_pos hfails, held_close_both h]
        exact ⟨fun hnone _ => hnone, fun hnone => hnone hfails⟩
      · rw [if_neg hfails]
        exact iff_of_true h fun hfail => absurd hfail hfails
  | deregisterTimerfd epollCtl =>
      simp only [TimerCall.run, iperfDeregisterTimerfd_fds, TimerCall.ClosesNothing]
      by_cases hfails : epollCtl = -1
      · rw [if_pos hfails, held_close_timer h]
        exact ⟨fun hnone _ => hnone, fun hnone => hnone hfails⟩
      · rw [if_neg hfails]
        exact iff_of_true h fun hfail => absurd hfail hfails

/-! ## Every run -/

theorem held_defaultTimers (node : Option Nat) (opened : List Fd) :
    Held (defaultTimers node opened) := by
  cases node with
  | none => exact ⟨Or.inl rfl, Or.inl rfl, fun c hc => by cases hc⟩
  | some node => exact ⟨Or.inl rfl, Or.inl rfl, fun c hc => by cases hc⟩

/-- **Every sequence of calls**: the two fields hold an open descriptor or -1
after each call, and nothing is closed twice, exactly when no call takes an
error path with a descriptor in a field the path closes. -/
theorem timers_held_iff (node : Option Nat) (opened : List Fd) (calls : List TimerCall) :
    (∀ before t, before <+: calls → Steps TimerStep (defaultTimers node opened) before t →
      Held t) ↔
    ∀ before call t t', before ++ [call] <+: calls →
      Steps TimerStep (defaultTimers node opened) before t → TimerStep t call t' →
      call.ClosesNothing t.ipt :=
  Steps.invariant_iff (held_defaultTimers node opened) (fun _ _ _ h hstep => held_step h hstep)
    calls

/-- An epoll instance, a timer, and a `timerfd_settime` that fails. -/
def failedRegistration : List TimerCall :=
  [.createEpoll 3, .createTimerfd 4, .registerTimerfd (-1) 0]

/-- The test holds two closed descriptors, and a failing
`iperf_deregister_timerfd` closes the timer a second time. -/
theorem failed_registration_closes_twice : ∃ s s' : TimerState,
    Steps TimerStep (defaultTimers (some 0) [0, 1, 2]) failedRegistration s ∧
    s.ipt.timerFd = 4 ∧ s.ipt.epollFd = 3 ∧ s.fds.opened = [0, 1, 2] ∧ ¬ Held s ∧
    TimerStep s (.deregisterTimerfd (-1)) s' ∧
    s'.fds.closes = [(4, true), (3, true), (4, false)] := by
  refine ⟨_, _, .cons ⟨Or.inr ⟨by decide, by decide⟩, rfl⟩
    (.cons ⟨Or.inr ⟨by decide, by decide⟩, rfl⟩ (.cons ⟨trivial, rfl⟩ (.nil _))),
    rfl, rfl, rfl, ?_, ⟨trivial, rfl⟩, rfl⟩
  intro h
  rcases h.timer with htimer | htimer
  · revert htimer
    decide
  · revert htimer
    decide

end KernelTestkit.Server
