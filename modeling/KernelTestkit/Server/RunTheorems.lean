/-
KernelTestkit.Server.RunTheorems — the server loop misses every connection
after the first.

* `mem_serverLoop_wait` — whatever the loop waits for, it is the interest
  set the instance of the test had when it was created: the empty one.
* `no_accept_of_createStreams` — once the state is CREATE_STREAMS the loop
  never accepts again, whatever is reported.
* `missesNothing_iff` — no connection is missed exactly in the runs that
  never come to wait.
-/
import KernelTestkit.Server.Run
import KernelTestkit.Server.AcceptTheorems

namespace KernelTestkit.Server

open KernelTestkit.Net
open KernelTestkit.Api

/-- The event is a call of `epoll_wait`. -/
def ServerEvent.IsWait : ServerEvent → Prop
  | .wait _ _ _ => True
  | _ => False

/-- No connection is missed. -/
structure MissesNothing (trace : List ServerEvent) : Prop where
  /-- every wait is on an open instance that watches the listening socket -/
  watched : ∀ epfd interest listener, .wait epfd interest listener ∈ trace →
    ∃ fds, interest = some fds ∧ listener ∈ fds
  /-- every report of the listening socket is answered before the next wait -/
  answered : ∀ before listener fds between ev after,
    trace = before ++ .reports listener fds :: between ++ ev :: after → ev.IsWait →
    (∀ e ∈ between, ¬ e.IsWait) → listener ∈ fds → .accept ∈ between

/-- The test with its three descriptors. -/
def opened (setup : Setup) (test : IperfTest) : IperfTest :=
  { test with
    epollFd := setup.epollCreate
    listener := setup.netannounce
    timerFd := setup.timerfdCreate }

/-- The first `iperf_accept` of the run is called and does not return 0. -/
def FirstAcceptFails (json : CjsonLib) (setup : Setup) (rounds : List Round)
    (test : IperfTest) : Prop :=
  test.state ≠ CREATE_STREAMS ∧ ∀ round ∈ rounds.head?, ∀ test' sys',
    iperfAccept json (opened setup test) round.accepting ≠ .ok (0, test', sys')

/-- The run ends before its first `epoll_wait`. -/
def NeverWaits (json : CjsonLib) (setup : Setup) (rounds : List Round) (test : IperfTest) : Prop :=
  setup.netannounce < 0 ∨ setup.timerfdCreate = -1 ∨ rounds = [] ∨ test.state = IPERF_DONE ∨
    FirstAcceptFails json setup rounds test

/-! ## One turn -/

/-- The turn gets past `iperf_accept`, which is not called in CREATE_STREAMS. -/
def GoesOn (json : CjsonLib) (test : IperfTest) (sys : Sys) (test' : IperfTest) : Prop :=
  test.state = CREATE_STREAMS ∧ test' = test ∨
    test.state ≠ CREATE_STREAMS ∧ ∃ sys', iperfAccept json test sys = .ok (0, test', sys')

/-- What a turn of the loop adds to the trace, with the turns after it. -/
inductive Turn (json : CjsonLib) (kernel : Kernel) (round : Round) (rounds : List Round)
    (test : IperfTest) : List ServerEvent → Prop where
  /-- the loop ends before the wait -/
  | stopped {evs : List ServerEvent} :
      test.state = IPERF_DONE ∨ (∀ test', ¬ GoesOn json test round.accepting test') →
      (∀ e ∈ evs, e = .accept) → Turn json kernel round rounds test evs
  /-- the loop ends with the wait -/
  | waited {evs : List ServerEvent} {test' : IperfTest} :
      test.state ≠ IPERF_DONE → GoesOn json test round.accepting test' →
      (∀ e ∈ evs, e = .accept) → (test.state = CREATE_STREAMS → evs = []) →
      Turn json kernel round rounds test (evs ++ [waitEvent kernel test'])
  /-- the loop goes on -/
  | reported {evs : List ServerEvent} {test' : IperfTest} {fds : List Fd} :
      test.state ≠ IPERF_DONE → GoesOn json test round.accepting test' →
      (∀ e ∈ evs, e = .accept) → (test.state = CREATE_STREAMS → evs = []) →
      Turn json kernel round rounds test (evs ++ waitEvent kernel test' ::
        .reports test'.listener fds :: (serverLoop json kernel rounds test').1)

/-- `iperf_accept` returns 0 or -1. -/
theorem iperfAccept_ret {json : CjsonLib} {t t' : IperfTest} {sys sys' : Sys} {r : Int32}
    (h : iperfAccept json t sys = .ok (r, t', sys')) : r = 0 ∨ r = -1 := by
  cases iperfAccept_ends h with
  | served => exact Or.inl rfl
  | denied => exact Or.inl rfl
  | failed => exact Or.inr rfl
  | stateUnsent => exact Or.inr rfl
  | exchangeFailed => exact Or.inr rfl
  | denialUnsent => exact Or.inr rfl

/-- The result of the first half of a turn. -/
theorem acceptStep_ends (json : CjsonLib) (test : IperfTest) (sys : Sys) :
    ∃ evs res, acceptStep json test sys = (evs, res) ∧ (∀ e ∈ evs, e = .accept) ∧
      (test.state = CREATE_STREAMS → evs = []) ∧
      ((∃ test', res = .ok (0, test') ∧ GoesOn json test sys test') ∨
        ((∀ test', ¬ GoesOn json test sys test') ∧
          ((∃ fault, res = .error fault) ∨ ∃ test', res = .ok (-1, test')))) := by
  by_cases hstate : test.state = CREATE_STREAMS
  · exact ⟨[], _, if_neg (not_not_intro hstate), by simp, fun _ => rfl,
      Or.inl ⟨test, rfl, Or.inl ⟨hstate, rfl⟩⟩⟩
  refine ⟨[.accept], _, if_pos hstate, by simp, fun h => absurd h hstate, ?_⟩
  cases hacc : iperfAccept json test sys with
  | error fault =>
      refine Or.inr ⟨?_, Or.inl ⟨fault, rfl⟩⟩
      rintro test' (⟨h, _⟩ | ⟨_, sys', h⟩)
      · exact hstate h
      · cases hacc.symm.trans h
  | ok out =>
      obtain ⟨r, test', sys'⟩ := out
      rcases iperfAccept_ret hacc with rfl | rfl
      · exact Or.inl ⟨test', rfl, Or.inr ⟨hstate, sys', hacc⟩⟩
      · refine Or.inr ⟨?_, Or.inr ⟨test', rfl⟩⟩
        rintro test'' (⟨h, _⟩ | ⟨_, sys'', h⟩)
        · exact hstate h
        · cases hacc.symm.trans h

/-- **One turn** of the loop. -/
theorem serverLoop_turn (json : CjsonLib) (kernel : Kernel) (round : Round) (rounds : List Round)
    (test : IperfTest) :
    Turn json kernel round rounds test (serverLoop json kernel (round :: rounds) test).1 := by
  rw [serverLoop]
  by_cases hdone : test.state = IPERF_DONE
  · rw [if_pos hdone]
    exact .stopped (Or.inl hdone) (by simp)
  rw [if_neg hdone]
  obtain ⟨evs, res, hstep, hacc, hnone, ⟨test', rfl, hgoes⟩ | ⟨hno, ⟨fault, rfl⟩ | ⟨test', rfl⟩⟩⟩ :=
    acceptStep_ends json test round.accepting
  · rw [hstep]
    have hzero : ¬ (0 : Int32) < 0 := by decide
    simp only [if_neg hzero]
    cases round.waited with
    | fails => exact .waited hdone hgoes hacc hnone
    | blocks => exact .waited hdone hgoes hacc hnone
    | reports fds => exact .reported hdone hgoes hacc hnone
  · rw [hstep]
    exact .stopped (Or.inr hno) hacc
  · rw [hstep]
    exact .stopped (Or.inr hno) hacc

/-! ## The whole loop -/

/-- **Once streams are created no client is accepted**, whatever is reported. -/
theorem no_accept_of_createStreams (json : CjsonLib) (kernel : Kernel) (rounds : List Round)
    (test : IperfTest) (hstate : test.state = CREATE_STREAMS) :
    .accept ∉ (serverLoop json kernel rounds test).1 := by
  induction rounds generalizing test with
  | nil => simp [serverLoop]
  | cons round rounds ih =>
      have hsame : ∀ {test'}, GoesOn json test round.accepting test' → test' = test := by
        rintro test' (⟨_, h⟩ | ⟨h, _⟩)
        · exact h
        · exact absurd hstate h
      have hturn := serverLoop_turn json kernel round rounds test
      generalize (serverLoop json kernel (round :: rounds) test).1 = trace at hturn ⊢
      cases hturn with
      | stopped hstop _ =>
          rcases hstop with hdone | hno
          · exact absurd (hstate.symm.trans hdone) (by decide)
          · exact absurd (Or.inl ⟨hstate, rfl⟩) (hno test)
      | waited _ _ _ hnone =>
          rw [hnone hstate]
          simp [waitEvent]
      | reported _ hgoes _ hnone =>
          rw [hnone hstate, hsame hgoes]
          simp [waitEvent, ih test hstate]

/-- Every wait is on the interest set the kernel has for its instance. -/
theorem mem_serverLoop_wait (json : CjsonLib) (kernel : Kernel) (rounds : List Round)
    (test : IperfTest) {epfd listener : Fd} {interest : Option (List Fd)}
    (h : .wait epfd interest listener ∈ (serverLoop json kernel rounds test).1) :
    interest = kernel.interest epfd := by
  induction rounds generalizing test with
  | nil => simp [serverLoop] at h
  | cons round rounds ih =>
      have hturn := serverLoop_turn json kernel round rounds test
      generalize (serverLoop json kernel (round :: rounds) test).1 = trace at hturn h
      cases hturn with
      | stopped _ hacc => cases hacc _ h
      | waited _ _ hacc _ =>
          rcases List.mem_append.mp h with h | h
          · cases hacc _ h
          · cases List.mem_singleton.mp h
            rfl
      | reported _ _ hacc _ =>
          rcases List.mem_append.mp h with h | h
          · cases hacc _ h
          · rcases List.mem_cons.mp h with h | h
            · cases h
              rfl
            · exact ih _ ((List.mem_cons.mp h).resolve_left (by simp))

/-- The loop comes to wait exactly when its first turn does. -/
theorem serverLoop_waits_iff (json : CjsonLib) (kernel : Kernel) (rounds : List Round)
    (test : IperfTest) :
    (∃ e ∈ (serverLoop json kernel rounds test).1, e.IsWait) ↔
      test.state ≠ IPERF_DONE ∧
        ∃ round ∈ rounds.head?, ∃ test', GoesOn json test round.accepting test' := by
  cases rounds with
  | nil => simp [serverLoop]
  | cons round rounds =>
      have hturn := serverLoop_turn json kernel round rounds test
      generalize (serverLoop json kernel (round :: rounds) test).1 = trace at hturn
      simp only [List.head?_cons, Option.mem_def, Option.some.injEq, exists_eq_left']
      cases hturn with
      | stopped hstop hacc =>
          constructor
          · rintro ⟨e, he, hwait⟩
            obtain rfl := hacc e he
            exact absurd hwait id
          · rintro ⟨hgoing, test', hgoes⟩
            rcases hstop with hdone | hno
            · exact absurd hdone hgoing
            · exact absurd hgoes (hno test')
      | waited hgoing hgoes _ _ =>
          exact iff_of_true ⟨_, List.mem_append_right _ (List.mem_singleton.mpr rfl), trivial⟩
            ⟨hgoing, _, hgoes⟩
      | reported hgoing hgoes _ _ =>
          exact iff_of_true ⟨_, List.mem_append_right _ (List.mem_cons_self ..), trivial⟩
            ⟨hgoing, _, hgoes⟩

/-! ## The whole run -/

/-- Where the descriptors of the run are opened, it is its loop. -/
theorem iperfRunServer_eq (json : CjsonLib) (setup : Setup) (rounds : List Round)
    (test : IperfTest) : iperfRunServer json setup rounds test
      = if setup.netannounce < 0 ∨ setup.timerfdCreate = -1 then ([], .returned (-2))
        else serverLoop json ((Kernel.mk []).epollCreate1 setup.epollCreate) rounds
          (opened setup test) := by
  have hone : ¬ (1 : Int32) < 0 := by decide
  have hneg : (-1 : Int32) < 0 := by decide
  by_cases hepoll : setup.epollCreate = -1 <;> by_cases hann : setup.netannounce < 0 <;>
    by_cases htimer : setup.timerfdCreate = -1 <;>
    simp [iperfRunServer, iperfCreateEpoll, iperfServerListen, iperfCreateTimerfd, opened, hepoll,
      hann, htimer, hone, hneg]

/-- No instance the server creates watches anything. -/
theorem interest_created {created epfd : Fd} {fds : List Fd}
    (h : ((Kernel.mk []).epollCreate1 created).interest epfd = some fds) : fds = [] := by
  unfold Kernel.epollCreate1 at h
  split at h
  · cases h
  · by_cases hsame : epfd = created
    · simp [Kernel.interest, hsame] at h
      exact h
    · have hne : (epfd == created) = false := beq_eq_false_iff_ne.mpr hsame
      simp [Kernel.interest, List.lookup_cons, hne] at h

/-- A run misses nothing exactly when it does not wait: whatever it waits for
does not include the listening socket. -/
theorem missesNothing_iff_no_wait (json : CjsonLib) (setup : Setup) (rounds : List Round)
    (test : IperfTest) : MissesNothing (iperfRunServer json setup rounds test).1 ↔
      ¬ ∃ e ∈ (iperfRunServer json setup rounds test).1, e.IsWait := by
  constructor
  · rintro h ⟨e, he, hwait⟩
    cases e with
    | accept => exact hwait
    | reports _ _ => exact hwait
    | wait epfd interest listener =>
        obtain ⟨fds, hfds, hlistener⟩ := h.watched epfd interest listener he
        rw [iperfRunServer_eq] at he
        split at he
        · cases he
        · rw [mem_serverLoop_wait json _ rounds _ he] at hfds
          rw [interest_created hfds] at hlistener
          cases hlistener
  · intro hno
    refine ⟨fun epfd interest listener h => absurd ⟨_, h, trivial⟩ hno, ?_⟩
    intro before listener fds between ev after htrace hwait _ _
    refine absurd ⟨ev, ?_, hwait⟩ hno
    rw [htrace]
    exact List.mem_append_right _ (List.mem_cons_self ..)

/-- **The server loop** misses no connection exactly in the runs that end before
their first `epoll_wait`. -/
theorem missesNothing_iff (json : CjsonLib) (setup : Setup) (rounds : List Round)
    (test : IperfTest) : MissesNothing (iperfRunServer json setup rounds test).1 ↔
      NeverWaits json setup rounds test := by
  rw [missesNothing_iff_no_wait, iperfRunServer_eq]
  by_cases hsetup : setup.netannounce < 0 ∨ setup.timerfdCreate = -1
  · rw [if_pos hsetup]
    refine iff_of_true (by simp) ?_
    rcases hsetup with h | h
    · exact Or.inl h
    · exact Or.inr (Or.inl h)
  rw [if_neg hsetup, serverLoop_waits_iff]
  constructor
  · intro hno
    by_cases hdone : test.state = IPERF_DONE
    · exact Or.inr (Or.inr (Or.inr (Or.inl hdone)))
    cases rounds with
    | nil => exact Or.inr (Or.inr (Or.inl rfl))
    | cons round rounds =>
        refine Or.inr (Or.inr (Or.inr (Or.inr ⟨fun hstate => ?_, ?_⟩)))
        · exact hno ⟨hdone, round, rfl, _, Or.inl ⟨hstate, rfl⟩⟩
        · intro round' hround test' sys' hacc
          by_cases hstate : test.state = CREATE_STREAMS
          · exact hno ⟨hdone, round, rfl, _, Or.inl ⟨hstate, rfl⟩⟩
          · exact hno ⟨hdone, round', hround, _, Or.inr ⟨hstate, _, hacc⟩⟩
  · rintro hnever ⟨hgoing, round, hround, test', hgoes⟩
    rcases hnever with h | h | h | h | ⟨hstate, hfails⟩
    · exact hsetup (Or.inl h)
    · exact hsetup (Or.inr h)
    · rw [h] at hround
      cases hround
    · exact hgoing h
    · rcases hgoes with ⟨h, _⟩ | ⟨_, sys', hacc⟩
      · exact hstate h
      · exact hfails round hround test' sys' hacc

/-- A client whose document selects TCP. -/
def tcpClient : Sys := .arrived (frame (lit "\x7b\"tcp\":true\x7d"))

/-- What cJSON makes of its document. -/
def tcpDocument : CjsonLib :=
  .single (lit "\x7b\"tcp\":true\x7d") (.object [(lit "tcp", .true)])

/-- With everything opened, the server accepts its first client and then waits
on an instance that watches nothing; when the listening socket is reported
it waits again. With no epoll instance it waits on -1. -/
theorem second_client_missed :
    iperfRunServer tcpDocument ⟨7, 3, 8⟩
        [⟨tcpClient, .reports [3]⟩, ⟨Sys.quiet, .blocks⟩] (newServer 0)
      = ([.accept, .wait 7 (some []) 3, .reports 3 [3], .wait 7 (some []) 3], .running) ∧
    iperfRunServer tcpDocument ⟨-1, 3, 8⟩ [⟨tcpClient, .fails⟩] (newServer 0)
      = ([.accept, .wait (-1) none 3], .returned 1) ∧
    ¬ MissesNothing (iperfRunServer tcpDocument ⟨7, 3, 8⟩
        [⟨tcpClient, .reports [3]⟩, ⟨Sys.quiet, .blocks⟩] (newServer 0)).1 := by
  have hrun : iperfRunServer tcpDocument ⟨7, 3, 8⟩
        [⟨tcpClient, .reports [3]⟩, ⟨Sys.quiet, .blocks⟩] (newServer 0)
      = ([.accept, .wait 7 (some []) 3, .reports 3 [3], .wait 7 (some []) 3], .running) := by
    decide +kernel
  refine ⟨hrun, by decide +kernel, fun h => ?_⟩
  rw [hrun] at h
  have hanswered := h.answered [.accept, .wait 7 (some []) 3] 3 [3] [] (.wait 7 (some []) 3) []
    rfl trivial (by simp) (by simp)
  cases hanswered

end KernelTestkit.Server
