/-
KernelTestkit.Net.TransferTheorems — what `Nread` and `Nwrite` do.

One specification for each function, read by every module above:

* `nwrite_ends` — a call of `nwrite` either stops after moving `k` bytes in
  the sense of `Moves` and returns `k`, or meets a failing write and
  returns an error code. Either way the bytes on the wire are a prefix of
  the buffer and nothing of the environment changes but the rest of the
  script, `errno` and the trace.
* `nread_ok` — a call of `nread` that returns has stored what it received,
  in order, at the front of its block, and has consumed exactly that much
  of the receive queue.
* `nread_total` — a call of `nread` returns whenever its block has room for
  `count` bytes.
* `nread_eq` — all of `nread` as a function of its block and of what a
  receive loop gets from the queue.
-/
import KernelTestkit.Net.Transfer

namespace KernelTestkit.Net

open KernelTestkit.Lib

/-! ## One system call -/

theorem write_none {sys sys' : Sys} {fd : Fd} {buf : List UInt8}
    (h : sys.write fd buf = (none, sys')) :
    ∃ e rest, sys.outbox = .error e :: rest ∧
      sys' = { sys with outbox := rest, errno := e,
                        trace := sys.trace ++ [.write fd []] } := by
  unfold Sys.write at h
  split at h
  · cases h
  · rename_i e rest hout
    cases h
    exact ⟨e, rest, hout, rfl⟩
  · cases h

theorem write_some {sys sys' : Sys} {fd : Fd} {buf : List UInt8} {r : Nat}
    (h : sys.write fd buf = (some r, sys')) :
    (sys.outbox = [] ∧ r = buf.length ∧
      sys' = { sys with trace := sys.trace ++ [.write fd buf] }) ∨
    (∃ k rest, sys.outbox = .accept k :: rest ∧ r = min k buf.length ∧
      sys' = { sys with outbox := rest,
                        trace := sys.trace ++ [.write fd (buf.take k)] }) := by
  unfold Sys.write at h
  split at h
  · rename_i hout
    cases h
    exact Or.inl ⟨hout, rfl, rfl⟩
  · cases h
  · rename_i k rest hout
    cases h
    exact Or.inr ⟨k, rest, hout, rfl, rfl⟩

theorem read_none {sys sys' : Sys} {fd : Fd} {n : Nat}
    (h : sys.read fd n = (none, sys')) :
    ∃ e rest, sys.inbox = .error e :: rest ∧
      sys' = { sys with inbox := rest, errno := e,
                        trace := sys.trace ++ [.read fd []] } := by
  unfold Sys.read at h
  split at h
  · cases h
  · cases h
  · rename_i e rest hin
    cases h
    exact ⟨e, rest, hin, rfl⟩
  · cases h

theorem read_some {sys sys' : Sys} {fd : Fd} {n : Nat} {got : List UInt8}
    (h : sys.read fd n = (some got, sys')) :
    ((sys.inbox = [] ∨ ∃ rest, sys.inbox = .eof :: rest) ∧ got = [] ∧
      sys' = { sys with inbox := sys.inbox.tail, trace := sys.trace ++ [.read fd []] }) ∨
    (∃ b bs rest, sys.inbox = .data b bs :: rest ∧ got = (b :: bs).take n ∧
      sys' = { sys with inbox := Arrival.requeue ((b :: bs).drop n) rest,
                        trace := sys.trace ++ [.read fd got] }) := by
  unfold Sys.read at h
  split at h
  · rename_i hin
    cases h
    exact Or.inl ⟨Or.inl hin, rfl, by simp [Sys.log, hin]⟩
  · rename_i rest hin
    cases h
    exact Or.inl ⟨Or.inr ⟨rest, hin⟩, rfl, by simp [Sys.log, hin]⟩
  · cases h
  · rename_i b bs rest hin
    cases h
    exact Or.inr ⟨b, bs, rest, hin, rfl, rfl⟩

/-! ## Counts as `int` -/

/-- A count below 2^31 keeps its value when it becomes an `int`. -/
theorem toInt_ofNat_small {n : Nat} (h : n < 2 ^ 31) : (Int32.ofNat n).toInt = n := by
  rw [Int32.toInt_ofNat', Int.bmod_def]
  simp only [Int32.size]
  omega

theorem ofNat_not_neg {n : Nat} (h : n < 2 ^ 31) : ¬ Int32.ofNat n < 0 := by
  rw [Int32.lt_iff_toInt_lt, toInt_ofNat_small h]
  simp

/-- A count from 2^31 on reads as a negative `int`. -/
theorem ofNat_neg {n : Nat} (h : 2 ^ 31 ≤ n) (hlt : n < 2 ^ 32) : Int32.ofNat n < 0 := by
  rw [Int32.lt_iff_toInt_lt, Int32.toInt_ofNat', Int.bmod_def]
  simp [Int32.size]
  omega

/-- Comparing an `int` count with an unsigned 32-bit one compares the
counts. -/
theorem ofNat_toUInt32_eq_iff {k : Nat} (hk : k < 2 ^ 32) (n : UInt32) :
    (Int32.ofNat k).toUInt32 = n ↔ k = n.toNat := by
  rw [Int32.toUInt32_ofNat', ← UInt32.toNat_inj, UInt32.toNat_ofNat', Nat.mod_eq_of_lt hk]

/-! ## `Nwrite` -/

/-- The errors after which `Nwrite` reports what it has written so far. -/
def Interrupts (e : Errno) : Prop := e = EINTR ∨ e = EAGAIN

instance (e : Errno) : Decidable (Interrupts e) := inferInstanceAs (Decidable (_ ∨ _))

/-- How an `Nwrite` of `buf` ends that has already written `done` bytes. -/
inductive NwriteEnds (fd : Fd) (buf : List UInt8) (sys : Sys) (done : Nat) :
    Int32 × Sys → Prop where
  | moved {k : Nat} {evs : List Event} {rest : List (Answer Errno)} {e : Errno} :
      Moves Interrupts sys.outbox buf.length k rest → WritesOn fd evs →
      sent fd evs = buf.take k → (k = buf.length → e = sys.errno) →
      NwriteEnds fd buf sys done (Int32.ofNat (done + k),
        { sys with outbox := rest, errno := e, trace := sys.trace ++ evs })
  | failed {r : Int32} {evs : List Event} {rest : List (Answer Errno)} {e : Errno} :
      r = NET_SOFTERROR ∨ r = NET_HARDERROR → WritesOn fd evs → sent fd evs <+: buf →
      (sent fd evs).length < buf.length →
      (∀ k rest', ¬ Moves Interrupts sys.outbox buf.length k rest') → rest <:+ sys.outbox →
      NwriteEnds fd buf sys done (r,
        { sys with outbox := rest, errno := e, trace := sys.trace ++ evs })

theorem writesOn_singleton (fd : Fd) (bytes : List UInt8) : WritesOn fd [.write fd bytes] := by
  intro ev hev
  exact ⟨bytes, List.mem_singleton.mp hev⟩

theorem readsOn_singleton (fd : Fd) (bytes : List UInt8) : ReadsOn fd [.read fd bytes] := by
  intro ev hev
  exact ⟨bytes, List.mem_singleton.mp hev⟩

/-- A write that takes some bytes in front of a rest that ends some way
ends that way for the whole buffer. -/
theorem NwriteEnds.step {fd : Fd} {buf : List UInt8} {sys : Sys} {done k : Nat}
    {rest : List (Answer Errno)} {out : Int32 × Sys} (hbuf : buf ≠ []) (hk : 0 < k)
    (hout : sys.outbox = .accept k :: rest)
    (h : NwriteEnds fd (buf.drop (min k buf.length))
      { sys with outbox := rest, trace := sys.trace ++ [.write fd (buf.take k)] }
      (done + min k buf.length) out) :
    NwriteEnds fd buf sys done out := by
  have hpos : 0 < buf.length := List.length_pos_iff.mpr hbuf
  have htake : buf.take k = buf.take (min k buf.length) := by
    rw [List.take_eq_take_iff]; omega
  have hlen : (buf.drop (min k buf.length)).length = buf.length - min k buf.length := by simp
  cases h with
  | @moved m evs rest' e hm hw hs he =>
      rw [hlen] at hm he
      have hmore : Moves Interrupts sys.outbox buf.length (min k buf.length + m) rest' := by
        rw [hout]; exact .more hpos hk hm
      have hsent : sent fd (.write fd (buf.take k) :: evs)
          = buf.take (min k buf.length + m) := by
        rw [List.take_add, ← hs, ← htake, ← List.singleton_append, sent_append, sent_write]
      have hend : NwriteEnds fd buf sys done _ :=
        .moved (e := e) hmore ((writesOn_singleton fd (buf.take k)).append hw) hsent
          (fun hkm => he (by omega))
      simpa [Nat.add_assoc] using hend
  | @failed r evs rest' e hr hw hs hshort hno hsuf =>
      rw [hlen] at hno hshort
      have hsent : sent fd (.write fd (buf.take k) :: evs) <+: buf := by
        rw [← List.singleton_append, sent_append, sent_write, htake]
        obtain ⟨tl, htl⟩ := hs
        exact ⟨tl, by rw [List.append_assoc, htl, List.take_append_drop]⟩
      have hless : (sent fd (.write fd (buf.take k) :: evs)).length < buf.length := by
        rw [← List.singleton_append, sent_append, sent_write, htake, List.length_append,
          List.length_take]
        omega
      have hnone : ∀ j rest'', ¬ Moves Interrupts sys.outbox buf.length j rest'' := by
        intro j rest'' hm
        rw [hout] at hm
        obtain ⟨_, j', _, hm'⟩ := hm.accept_inv hpos
        exact hno _ _ hm'
      have hend : NwriteEnds fd buf sys done _ :=
        .failed (e := e) hr ((writesOn_singleton fd (buf.take k)).append hw) hsent hless hnone
          (hsuf.trans (by rw [hout]; exact List.suffix_cons _ _))
      simpa using hend

/-- **How the loop of `Nwrite` ends**, by its own recursion. -/
theorem nwriteLoop_ends (fd : Fd) (count : Nat) (buf : List UInt8) (sys : Sys)
    (hcount : buf.length ≤ count) :
    NwriteEnds fd buf sys (count - buf.length) (nwriteLoop fd count buf sys) := by
  fun_induction nwriteLoop fd count buf sys with
  | case1 sys =>
      have hnil : WritesOn fd [] := by simp [WritesOn]
      have hend : NwriteEnds fd [] sys count _ :=
        .moved (e := sys.errno) (.done sys.outbox) hnil rfl (fun _ => rfl)
      simpa using hend
  | case2 buf sys hne sys' hw hsoft =>
      obtain ⟨e, rest, hout, rfl⟩ := write_none hw
      have hpos : 0 < buf.length := List.length_pos_iff.mpr hne
      exact NwriteEnds.moved (k := 0) (by rw [hout]; exact .stop hpos hsoft)
        (writesOn_singleton fd []) (by simp) (by omega)
  | case3 buf sys hne sys' hw hhard _ =>
      obtain ⟨e, rest, hout, rfl⟩ := write_none hw
      refine .failed (Or.inl rfl) (writesOn_singleton fd []) (by simp)
        (by simpa using List.length_pos_iff.mpr hne) ?_ (by rw [hout]; exact List.suffix_cons _ _)
      intro k rest' hm
      rw [hout] at hm
      exact hhard (hm.error_inv (List.length_pos_iff.mpr hne)).1
  | case4 buf sys hne sys' hw hhard _ =>
      obtain ⟨e, rest, hout, rfl⟩ := write_none hw
      refine .failed (Or.inr rfl) (writesOn_singleton fd []) (by simp)
        (by simpa using List.length_pos_iff.mpr hne) ?_ (by rw [hout]; exact List.suffix_cons _ _)
      intro k rest' hm
      rw [hout] at hm
      exact hhard (hm.error_inv (List.length_pos_iff.mpr hne)).1
  | case5 buf sys hne sys' hw =>
      have hpos : 0 < buf.length := List.length_pos_iff.mpr hne
      rcases write_some hw with ⟨_, hr, _⟩ | ⟨k, rest, hout, hr, rfl⟩
      · omega
      · obtain rfl : k = 0 := by omega
        refine .failed (Or.inl rfl) (writesOn_singleton fd _) (by simp) (by simpa using hpos) ?_
          (by rw [hout]; exact List.suffix_cons _ _)
        intro j rest' hm
        rw [hout] at hm
        exact absurd (hm.accept_inv hpos).1 (Nat.lt_irrefl 0)
  | case6 buf sys hne r sys' hw ih =>
      have hpos : 0 < buf.length := List.length_pos_iff.mpr hne
      rcases write_some hw with ⟨hout, hr, rfl⟩ | ⟨k, rest, hout, hr, rfl⟩
      · -- the script is exhausted: the write took all, the next test of the loop ends it
        have hdrop : buf.drop (r + 1) = [] := List.drop_eq_nil_of_le (by omega)
        rw [hdrop, nwriteLoop, if_pos rfl]
        have hend : NwriteEnds fd buf sys (count - buf.length) _ :=
          .moved (k := buf.length) (e := sys.errno) (by rw [hout]; exact .all _)
            (writesOn_singleton fd buf) (by rw [sent_write, List.take_length]) (fun _ => rfl)
        simpa [Nat.sub_add_cancel hcount, hout] using hend
      · have hr' : r + 1 = min k buf.length := hr
        rw [hr'] at ih ⊢
        have hend := ih (by simp; omega)
        have hdone : count - (buf.drop (min k buf.length)).length
            = count - buf.length + min k buf.length := by
          rw [List.length_drop]; omega
        rw [hdone] at hend
        exact NwriteEnds.step hne (by omega) hout hend

/-- **How `Nwrite` ends.** -/
theorem nwrite_ends (fd : Fd) (buf : List UInt8) (sys : Sys) :
    NwriteEnds fd buf sys 0 (nwrite fd buf sys) := by
  simpa [nwrite] using nwriteLoop_ends fd buf.length buf sys (Nat.le_refl _)

/-- A script that moves all of the buffer makes `Nwrite` return its length,
with `errno` as it was. -/
theorem nwrite_of_moves (fd : Fd) (buf : List UInt8) (sys : Sys) {k : Nat}
    {rest : List (Answer Errno)} (h : Moves Interrupts sys.outbox buf.length k rest) :
    ∃ evs e, nwrite fd buf sys
        = (Int32.ofNat k, { sys with outbox := rest, errno := e, trace := sys.trace ++ evs }) ∧
      WritesOn fd evs ∧ sent fd evs = buf.take k ∧ (k = buf.length → e = sys.errno) := by
  have hend := nwrite_ends fd buf sys
  generalize nwrite fd buf sys = out at hend
  cases hend with
  | moved hm hw hs he =>
      obtain ⟨rfl, rfl⟩ := hm.det h
      exact ⟨_, _, by simp, hw, hs, he⟩
  | failed _ _ _ _ hno _ => exact absurd h (hno k rest)

/-- Whatever `Nwrite` returns, it has only written to its descriptor, a
prefix of its buffer, and has changed nothing else of the environment. -/
theorem nwrite_frame {fd : Fd} {buf : List UInt8} {sys sys' : Sys} {r : Int32}
    (h : nwrite fd buf sys = (r, sys')) :
    ∃ evs rest e, sys' = { sys with outbox := rest, errno := e, trace := sys.trace ++ evs } ∧
      WritesOn fd evs ∧ sent fd evs <+: buf ∧ rest <:+ sys.outbox := by
  have hend := nwrite_ends fd buf sys
  rw [h] at hend
  cases hend with
  | moved hm hw hs _ => exact ⟨_, _, _, rfl, hw, hs ▸ List.take_prefix _ _, hm.suffix⟩
  | failed _ hw hs _ _ hsuf => exact ⟨_, _, _, rfl, hw, hs, hsuf⟩

/-- No write is interrupted. -/
def Uninterrupted (sys : Sys) : Prop := ∀ e, .error e ∈ sys.outbox → ¬ Interrupts e

/-- Without interruptions, `Nwrite` sends all of its buffer and leaves `errno`
as it was, or reports a failure and has sent less. -/
theorem nwrite_uninterrupted {fd : Fd} {buf : List UInt8} {sys sys' : Sys} {r : Int32}
    (hno : Uninterrupted sys) (hlen : buf.length < 2 ^ 31) (h : nwrite fd buf sys = (r, sys')) :
    ∃ evs rest e, sys' = { sys with outbox := rest, errno := e, trace := sys.trace ++ evs } ∧
      WritesOn fd evs ∧ rest <:+ sys.outbox ∧
      (¬ r < 0 ∧ sent fd evs = buf ∧ e = sys.errno ∨
        r < 0 ∧ sent fd evs <+: buf ∧ (sent fd evs).length < buf.length) := by
  have hend := nwrite_ends fd buf sys
  rw [h] at hend
  cases hend with
  | moved hm hw hs he =>
      obtain rfl := hm.complete hno
      refine ⟨_, _, _, rfl, hw, hm.suffix, Or.inl ⟨ofNat_not_neg (by omega), ?_, he rfl⟩⟩
      rw [hs, List.take_length]
  | failed hr hw hs hshort _ hsuf =>
      refine ⟨_, _, _, rfl, hw, hsuf, Or.inr ⟨?_, hs, hshort⟩⟩
      rcases hr with rfl | rfl <;> decide

/-! ## `Nread` -/

/-- What an `Nread` that has room for `n` more bytes has done when it
returns: it has taken `got` from the queue, in order, and nothing else of
the environment has changed. On a queue that holds data only it stops
short of `n` bytes only when there are no more. -/
structure NreadEnds (fd : Fd) (n : Nat) (sys : Sys) (got : List UInt8) (sys' : Sys) :
    Prop where
  length_le : got.length ≤ n
  frame : ∃ evs e, ReadsOn fd evs ∧ received fd evs = got ∧
    sys' = { sys with inbox := sys'.inbox, errno := e, trace := sys.trace ++ evs }
  contents : Arrival.contents sys.inbox = got ++ Arrival.contents sys'.inbox
  allData : Arrival.AllData sys.inbox → Arrival.AllData sys'.inbox ∧
    (n ≤ (Arrival.contents sys.inbox).length → got.length = n)

/-- The state after a transfer, as an update of the state before it. -/
theorem NreadEnds.exists_update {fd : Fd} {n : Nat} {sys sys' : Sys} {got : List UInt8}
    (h : NreadEnds fd n sys got sys') :
    ∃ evs q e, ReadsOn fd evs ∧ received fd evs = got ∧
      sys' = { sys with inbox := q, errno := e, trace := sys.trace ++ evs } := by
  obtain ⟨evs, e, hr, hrec, hsys⟩ := h.frame
  exact ⟨evs, sys'.inbox, e, hr, hrec, hsys⟩

theorem NreadEnds.nil (fd : Fd) (sys : Sys) : NreadEnds fd 0 sys [] sys where
  length_le := Nat.le_refl 0
  frame := ⟨[], sys.errno, by simp [ReadsOn], rfl, by simp⟩
  contents := rfl
  allData h := ⟨h, fun _ => rfl⟩

/-- A read that finds no data ends the transfer with nothing. -/
theorem NreadEnds.of_read {fd : Fd} {n : Nat} {sys sys' : Sys} {o : Option (List UInt8)}
    (hn : n ≠ 0) (h : sys.read fd n = (o, sys')) (ho : o = none ∨ o = some []) :
    NreadEnds fd n sys [] sys' := by
  rcases ho with rfl | rfl
  · obtain ⟨e, rest, hin, rfl⟩ := read_none h
    exact
      { length_le := Nat.zero_le n
        frame := ⟨_, _, readsOn_singleton fd [], by simp, rfl⟩
        contents := by simp [hin, Arrival.payload]
        allData := fun hall => by
          obtain ⟨a, as, hx⟩ := hall (.error e) (by simp [hin])
          cases hx }
  · rcases read_some h with ⟨hin, _, rfl⟩ | ⟨b, bs, rest, hin, hgot, rfl⟩
    · exact
        { length_le := Nat.zero_le n
          frame := ⟨_, _, readsOn_singleton fd [], by simp, rfl⟩
          contents := by
            rcases hin with hin | ⟨rest, hin⟩ <;> simp [hin, Arrival.payload]
          allData := fun hall => by
            rcases hin with hin | ⟨rest, hin⟩
            · refine ⟨by rw [hin]; exact fun x hx => by simp at hx, fun hle => ?_⟩
              simp only [hin, Arrival.contents_nil, List.length_nil] at hle
              exact absurd (Nat.le_zero.mp hle) hn
            · obtain ⟨a, as, hx⟩ := hall .eof (by simp [hin])
              cases hx }
    · have hlen := congrArg List.length hgot
      simp only [List.length_nil, List.length_take, List.length_cons] at hlen
      omega

/-- A read that hands over `got`, in front of a transfer of the rest. -/
theorem NreadEnds.step {fd : Fd} {n : Nat} {sys sys₁ sys' : Sys} {b : UInt8}
    {bs more : List UInt8} (h : sys.read fd n = (some (b :: bs), sys₁))
    (hrest : NreadEnds fd (n - (b :: bs).length) sys₁ more sys') :
    NreadEnds fd n sys ((b :: bs) ++ more) sys' := by
  rcases read_some h with ⟨_, hnil, _⟩ | ⟨c, cs, rest, hin, hgot, rfl⟩
  · cases hnil
  have hle : (b :: bs).length ≤ n := by
    rw [hgot, List.length_take]; exact Nat.min_le_left _ _
  have hcont : Arrival.contents sys.inbox
      = (b :: bs) ++ ((c :: cs).drop n ++ Arrival.contents rest) := by
    rw [hin, Arrival.contents_cons, ← List.append_assoc, hgot, List.take_append_drop]
    rfl
  obtain ⟨evs, e, hr, hrec, hsys⟩ := hrest.frame
  have hmore := hrest.contents
  simp only [Arrival.contents_requeue] at hmore
  exact
    { length_le := by
        have hle' := hrest.length_le
        rw [List.length_append]; omega
      frame := by
        refine ⟨.read fd (b :: bs) :: evs, e, (readsOn_singleton fd _).append hr, ?_, ?_⟩
        · rw [← List.singleton_append, received_append, received_read, hrec]
        · rw [hsys]; simp
      contents := by rw [hcont, hmore, List.append_assoc]
      allData := fun hall => by
        rw [hin] at hall
        obtain ⟨hall', hfull⟩ := hrest.allData (hall.tail.requeue _)
        refine ⟨hall', fun hn => ?_⟩
        rw [hcont, List.length_append] at hn
        rw [Arrival.contents_requeue] at hfull
        rw [List.length_append, hfull (by omega)]
        omega }

theorem storeAt_append (pre ys xs : List UInt8) (h : xs.length ≤ ys.length) :
    storeAt (pre ++ ys) pre.length xs = .ok ((pre ++ xs) ++ ys.drop xs.length) := by
  rw [storeAt, Block.store_append pre ys xs h]

/-- A store that succeeded was in bounds. -/
theorem storeAt_bound {blk blk' : Block UInt8} {off : Nat} {xs : List UInt8}
    (h : storeAt blk off xs = .ok blk') : off + xs.length ≤ blk.length := by
  unfold storeAt at h
  split at h
  · rename_i b hb
    exact (Block.store_isSome_iff blk off xs).mp (by rw [hb]; rfl)
  · cases h

/-- **What the loop of `Nread` has done when it returns.** `pre` is the part
of the block already written; what is received goes right behind it. -/
theorem nreadLoop_ok (fd : Fd) (count : Nat) (buf : Block UInt8) (nleft : Nat) (sys : Sys)
    (pre ys : List UInt8) (hbuf : buf = pre ++ ys) (hpre : pre.length = count - nleft)
    (hcount : nleft ≤ count) {r : Int32} {buf' : Block UInt8} {sys' : Sys}
    (hrun : nreadLoop fd count buf nleft sys = .ok (r, buf', sys')) :
    ∃ got, NreadEnds fd nleft sys got sys' ∧ got.length ≤ ys.length ∧
      buf' = pre ++ got ++ ys.drop got.length ∧
      (r = Int32.ofNat (pre.length + got.length) ∨
        (r = NET_HARDERROR ∧ ¬ Arrival.AllData sys.inbox)) := by
  fun_induction nreadLoop fd count buf nleft sys generalizing pre ys with
  | case1 buf sys =>
      cases hrun
      exact ⟨[], .nil fd _, Nat.zero_le _, by simp [hbuf], Or.inl (by simp [hpre])⟩
  | case2 buf nleft sys hne sys₁ hread _ =>
      cases hrun
      exact ⟨[], .of_read hne hread (Or.inl rfl), Nat.zero_le _, by simp [hbuf],
        Or.inl (by simp [hpre])⟩
  | case3 buf nleft sys hne sys₁ hread _ =>
      cases hrun
      obtain ⟨e, rest, hin, _⟩ := read_none hread
      refine ⟨[], .of_read hne hread (Or.inl rfl), Nat.zero_le _, by simp [hbuf],
        Or.inr ⟨rfl, fun hall => ?_⟩⟩
      obtain ⟨a, as, hx⟩ := hall (.error e) (by simp [hin])
      cases hx
  | case4 buf nleft sys hne sys₁ hread =>
      cases hrun
      exact ⟨[], .of_read hne hread (Or.inr rfl), Nat.zero_le _, by simp [hbuf],
        Or.inl (by simp [hpre])⟩
  | case5 buf nleft sys hne b bs sys₁ hread ih =>
      cases hst : storeAt buf (count - nleft) (b :: bs) with
      | error f => rw [hst] at hrun; cases hrun
      | ok buf₁ =>
          rw [hst] at hrun
          have hroom := storeAt_bound hst
          rw [hbuf, List.length_append, ← hpre] at hroom
          have hys : (b :: bs).length ≤ ys.length := by omega
          rw [hbuf, ← hpre, storeAt_append pre ys (b :: bs) hys] at hst
          obtain rfl : pre ++ (b :: bs) ++ ys.drop (b :: bs).length = buf₁ := by
            injection hst
          rcases read_some hread with ⟨_, hnil, _⟩ | ⟨c, cs, rest, hin, hgot, hsys₁⟩
          · cases hnil
          have hle : (b :: bs).length ≤ nleft := by
            rw [hgot, List.length_take]; exact Nat.min_le_left _ _
          obtain ⟨more, hends, hmore, hbuf', hr⟩ := ih _ (pre ++ (b :: bs))
            (ys.drop (b :: bs).length) rfl (by rw [List.length_append]; omega) (by omega) hrun
          refine ⟨(b :: bs) ++ more, .step hread hends, ?_, ?_, ?_⟩
          · rw [List.length_drop] at hmore
            rw [List.length_append]; omega
          · rw [hbuf', List.drop_drop, ← List.length_append, List.append_assoc pre]
          · rcases hr with hr | ⟨hr, hbad⟩
            · exact Or.inl (by rw [hr, List.length_append, List.length_append, Nat.add_assoc])
            · refine Or.inr ⟨hr, fun hall => hbad ?_⟩
              rw [hin] at hall
              rw [hsys₁]
              exact hall.tail.requeue _

/-- The loop of `Nread` returns when its block has room for what is left:
each round stores at least one byte. -/
theorem nreadLoop_total (fd : Fd) (count : Nat) (buf : Block UInt8) (nleft : Nat) (sys : Sys)
    (hcount : nleft ≤ count) (hroom : count ≤ buf.length) :
    ∃ out, nreadLoop fd count buf nleft sys = .ok out := by
  fun_induction nreadLoop fd count buf nleft sys with
  | case1 => exact ⟨_, rfl⟩
  | case2 => exact ⟨_, rfl⟩
  | case3 => exact ⟨_, rfl⟩
  | case4 => exact ⟨_, rfl⟩
  | case5 buf nleft sys hne b bs sys₁ hread ih =>
      rcases read_some hread with ⟨_, hnil, _⟩ | ⟨c, cs, rest, _, hgot, _⟩
      · cases hnil
      have hle : (b :: bs).length ≤ nleft := by
        rw [hgot, List.length_take]; exact Nat.min_le_left _ _
      cases hst : storeAt buf (count - nleft) (b :: bs) with
      | error f =>
          rw [storeAt] at hst
          split at hst
          · cases hst
          · rename_i hnone
            have := (Block.store_eq_none_iff _ _ _).mp hnone
            omega
      | ok buf₁ =>
          have hlen : buf₁.length = buf.length := by
            rw [storeAt, Block.store, if_pos (by omega)] at hst
            injection hst with hst
            rw [← hst]
            simp only [List.length_append, List.length_take, List.length_drop]
            omega
          exact ih buf₁ (by omega) (by omega)

/-- **What `Nread` has done when it returns.** -/
theorem nread_ok {fd : Fd} {buf buf' : Block UInt8} {count : Nat} {sys sys' : Sys} {r : Int32}
    (h : nread fd buf count sys = .ok (r, buf', sys')) :
    ∃ got, NreadEnds fd count sys got sys' ∧ got.length ≤ buf.length ∧
      buf' = got ++ buf.drop got.length ∧
      (r = Int32.ofNat got.length ∨ (r = NET_HARDERROR ∧ ¬ Arrival.AllData sys.inbox)) := by
  have hrun := nreadLoop_ok fd count buf count sys [] buf rfl (by simp) (Nat.le_refl _) h
  simpa using hrun

/-- **`Nread` returns** when its block has room for `count` bytes. -/
theorem nread_total (fd : Fd) (buf : Block UInt8) (count : Nat) (sys : Sys)
    (hroom : count ≤ buf.length) : ∃ out, nread fd buf count sys = .ok out :=
  nreadLoop_total fd count buf count sys (Nat.le_refl _) hroom

/-! ### As a function of the queue -/

/-- What `Nread` returns for a loop that got this behind `done` bytes. -/
def readCount (done : Nat) (r : Arrival.Receipt UInt8 Errno) : Int32 :=
  match r.ending with
  | .error e => if Interrupts e then Int32.ofNat (done + r.got.length) else NET_HARDERROR
  | _ => Int32.ofNat (done + r.got.length)

/-- The environment after these reads. -/
def Sys.afterReads (sys : Sys) (fd : Fd) (r : Arrival.Receipt UInt8 Errno) : Sys :=
  { sys with
    inbox := r.rest
    errno := match r.ending with
      | .error e => e
      | _ => sys.errno
    trace := sys.trace ++ r.chunks.map (.read fd) }

/-- What `Nread` does with a block whose first cells are `pre` already, and with
what it got for the cells `ys` behind them. -/
def readInto (fd : Fd) (pre ys : List UInt8) (sys : Sys) (r : Arrival.Receipt UInt8 Errno) :
    Except Fault (Int32 × Block UInt8 × Sys) :=
  if r.got.length ≤ ys.length then
    .ok (readCount pre.length r, pre ++ r.got ++ ys.drop r.got.length, sys.afterReads fd r)
  else
    .error .outOfBounds

theorem readCount_cons (done : Nat) (chunk : List UInt8) (r : Arrival.Receipt UInt8 Errno) :
    readCount done (r.cons chunk) = readCount (done + chunk.length) r := by
  unfold readCount
  simp only [Arrival.Receipt.got_cons, List.length_append, Nat.add_assoc]
  rfl

/-- A chunk that fits, in front of the rest of the transfer. -/
theorem readInto_cons (fd : Fd) (pre ys chunk : List UInt8) (sys : Sys)
    (q : List (Arrival UInt8 Errno)) (r : Arrival.Receipt UInt8 Errno)
    (hfit : chunk.length ≤ ys.length) :
    readInto fd pre ys sys (r.cons chunk) = readInto fd (pre ++ chunk) (ys.drop chunk.length)
      { sys with inbox := q, trace := sys.trace ++ [.read fd chunk] } r := by
  have hroom : (r.cons chunk).got.length ≤ ys.length ↔
      r.got.length ≤ (ys.drop chunk.length).length := by
    rw [Arrival.Receipt.got_cons, List.length_append, List.length_drop]
    omega
  unfold readInto
  by_cases h : r.got.length ≤ (ys.drop chunk.length).length
  · rw [if_pos h, if_pos (hroom.mpr h), readCount_cons, List.length_append, List.drop_drop,
      Arrival.Receipt.got_cons, List.length_append, List.append_assoc pre chunk]
    simp only [Sys.afterReads, Arrival.Receipt.cons, List.map_cons, List.append_assoc,
      List.singleton_append]
  · rw [if_neg h, if_neg (fun hc => h (hroom.mp hc))]

/-- With nothing left to read the loop is at its end. -/
theorem nreadLoop_zero (fd : Fd) (count : Nat) (pre ys : List UInt8) (sys : Sys)
    (hpre : pre.length = count) : nreadLoop fd count (pre ++ ys) 0 sys
      = readInto fd pre ys sys (Arrival.receive 0 sys.inbox) := by
  rw [nreadLoop, if_pos rfl, Arrival.receive]
  simp [readInto, readCount, Sys.afterReads, Arrival.Receipt.got, hpre]

/-- A store of more than there is room for. -/
theorem storeAt_error (pre ys xs : List UInt8) (h : ys.length < xs.length) :
    storeAt (pre ++ ys) pre.length xs = .error .outOfBounds := by
  have hnone : Block.store (pre ++ ys) pre.length xs = none := by
    rw [Block.store_eq_none_iff, List.length_append]
    omega
  rw [storeAt, hnone]

/-- The loop of `Nread`, by induction on the queue. -/
theorem nreadLoop_eq (fd : Fd) (count : Nat) : ∀ (q : List (Arrival UInt8 Errno)) (nleft : Nat)
    (pre ys : List UInt8) (sys : Sys), sys.inbox = q → pre.length = count - nleft →
    nleft ≤ count →
    nreadLoop fd count (pre ++ ys) nleft sys = readInto fd pre ys sys (Arrival.receive nleft q)
  | q, 0, pre, ys, sys, hin, hpre, _ => by
      subst hin
      exact nreadLoop_zero fd count pre ys sys hpre
  | [], nleft + 1, pre, ys, sys, hin, hpre, _ => by
      rw [nreadLoop, if_neg (by omega), Arrival.receive]
      simp [Sys.read, hin, readInto, readCount, Sys.afterReads, Arrival.Receipt.got, hpre, Sys.log]
  | .eof :: q, nleft + 1, pre, ys, sys, hin, hpre, _ => by
      rw [nreadLoop, if_neg (by omega), Arrival.receive]
      simp [Sys.read, hin, readInto, readCount, Sys.afterReads, Arrival.Receipt.got, hpre, Sys.log]
  | .error e :: q, nleft + 1, pre, ys, sys, hin, hpre, _ => by
      rw [nreadLoop, if_neg (by omega), Arrival.receive]
      have hsoft : (e = EINTR ∨ e = EAGAIN ∨ e = EWOULDBLOCK) ↔ Interrupts e := by
        simp [Interrupts, EWOULDBLOCK]
      simp only [Sys.read, hin, Sys.log, hsoft]
      by_cases h : Interrupts e <;>
        simp [readInto, readCount, Sys.afterReads, Arrival.Receipt.got, hpre, h]
  | .data b bs :: q, nleft + 1, pre, ys, sys, hin, hpre, hcount => by
      have hread : sys.read fd (nleft + 1) = (some (b :: bs.take nleft),
          { sys with inbox := Arrival.requeue (bs.drop nleft) q,
                     trace := sys.trace ++ [.read fd (b :: bs.take nleft)] }) := by
        simp [Sys.read, hin, Sys.log]
      rw [nreadLoop, if_neg (by omega), hread, ← hpre]
      simp only
      rcases Nat.lt_or_ge ys.length (b :: bs.take nleft).length with hfull | hfit
      · -- the chunk does not fit: the store faults, and what follows it only makes it longer
        have hlen : (b :: bs.take nleft).length
            ≤ (Arrival.receive (nleft + 1) (.data b bs :: q)).got.length := by
          rw [Arrival.receive]
          split
          · simp [Arrival.Receipt.got]
          · simp only [Arrival.Receipt.got_cons, List.length_append, List.length_cons,
              List.length_take]
            omega
        rw [storeAt_error pre ys _ hfull, readInto, if_neg (by omega)]
        rfl
      · rw [storeAt_append pre ys _ hfit, Arrival.receive]
        rcases Nat.lt_or_ge bs.length nleft with hless | hmore
        · have htake : bs.take nleft = bs := List.take_of_length_le (by omega)
          have hdrop : bs.drop nleft = [] := List.drop_eq_nil_of_le (by omega)
          rw [htake] at hfit ⊢
          rw [hdrop, if_neg (by omega), readInto_cons fd pre ys _ sys q _ hfit,
            ← nreadLoop_eq fd count q (nleft - bs.length) _ _
              { sys with inbox := q, trace := sys.trace ++ [.read fd (b :: bs)] } rfl
              (by rw [List.length_append, List.length_cons]; omega) (by omega)]
          simp [Arrival.requeue, bind, Except.bind]
        · have hlen : (b :: bs.take nleft).length = nleft + 1 := by
            rw [List.length_cons, List.length_take]
            omega
          have hwhole : (pre ++ b :: bs.take nleft).length = count := by
            rw [List.length_append]
            omega
          have hcons := readInto_cons fd pre ys _ sys (Arrival.requeue (bs.drop nleft) q)
            (Arrival.receive 0 (Arrival.requeue (bs.drop nleft) q)) hfit
          rw [← nreadLoop_zero fd count _ _ _ hwhole, Arrival.receive, hlen] at hcons
          rw [if_pos hmore, hlen, Nat.sub_self]
          exact hcons.symm

/-- **All of `Nread`** as a function of the queue. -/
theorem nread_eq (fd : Fd) (buf : Block UInt8) (count : Nat) (sys : Sys) :
    nread fd buf count sys = readInto fd [] buf sys (Arrival.receive count sys.inbox) :=
  nreadLoop_eq fd count sys.inbox count [] buf sys rfl (by simp) (Nat.le_refl _)

end KernelTestkit.Net
