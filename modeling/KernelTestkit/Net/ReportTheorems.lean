/-
KernelTestkit.Net.ReportTheorems — what the results of `Nread` and `Nwrite`
say.

One `int` carries the number of bytes and the two error codes. The number is
a `size_t`, and its conversion to `int` is negative from 2^31 on: a transfer
in which nothing failed then looks like one in which something did.

* `nwrite_eq` — `Nwrite` as a function of its script, as `nread_eq` is for
  `Nread`.
* `nread_reports_iff`, `nwrite_reports_iff` — the result is faithful exactly
  when a call failed or fewer than 2^31 bytes were moved.
-/
import KernelTestkit.Net.TransferTheorems

namespace KernelTestkit.Net

open KernelTestkit.Lib

/-! ## `Nwrite` as a function of the script -/

/-- What `Nwrite` returns for a loop that put this out behind `done` bytes. -/
def writeCount (done : Nat) (d : Answer.Delivery UInt8 Errno) : Int32 :=
  match d.stop with
  | .whole => Int32.ofNat (done + d.put.length)
  | .refused => NET_SOFTERROR
  | .error e =>
      if Interrupts e then Int32.ofNat (done + d.put.length)
      else if e = ENOBUFS then NET_SOFTERROR
      else NET_HARDERROR

/-- The environment after these writes. -/
def Sys.afterWrites (sys : Sys) (fd : Fd) (d : Answer.Delivery UInt8 Errno) : Sys :=
  { sys with
    outbox := d.rest
    errno := match d.stop with
      | .error e => e
      | _ => sys.errno
    trace := sys.trace ++ d.chunks.map (.write fd) }

theorem writeCount_cons (done : Nat) (chunk : List UInt8) (d : Answer.Delivery UInt8 Errno) :
    writeCount done (d.cons chunk) = writeCount (done + chunk.length) d := by
  unfold writeCount
  simp only [Answer.Delivery.put_cons, List.length_append, Nat.add_assoc]
  rfl

/-- The loop of `Nwrite`, by induction on the script. -/
theorem nwriteLoop_eq (fd : Fd) (count : Nat) : ∀ (sched : List (Answer Errno)) (buf : List UInt8)
    (sys : Sys), sys.outbox = sched → buf.length ≤ count →
    nwriteLoop fd count buf sys
      = (writeCount (count - buf.length) (Answer.send sched buf),
          sys.afterWrites fd (Answer.send sched buf))
  | sched, [], sys, hout, _ => by
      subst hout
      rw [nwriteLoop, if_pos rfl, Answer.send]
      simp [writeCount, Sys.afterWrites, Answer.Delivery.put]
  | [], b :: bs, sys, hout, hcount => by
      have hwrite : sys.write fd (b :: bs)
          = (some (bs.length + 1), { sys with trace := sys.trace ++ [.write fd (b :: bs)] }) := by
        simp [Sys.write, hout, Sys.log]
      have hdrop : (b :: bs).drop (bs.length + 1) = [] := List.drop_eq_nil_of_le (Nat.le_refl _)
      have hall : count - (b :: bs).length + (b :: bs).length = count := Nat.sub_add_cancel hcount
      rw [nwriteLoop, if_neg (List.cons_ne_nil b bs), hwrite]
      simp only [hdrop]
      rw [nwriteLoop, if_pos rfl, Answer.send]
      simp [writeCount, Sys.afterWrites, Answer.Delivery.put, hout, -List.length_cons, hall]
  | .error e :: sched, b :: bs, sys, hout, _ => by
      rw [nwriteLoop, if_neg (List.cons_ne_nil b bs), Answer.send]
      have hsoft : (e = EINTR ∨ e = EAGAIN) ↔ Interrupts e := Iff.rfl
      simp only [Sys.write, hout, Sys.log, writeCount, Sys.afterWrites, hsoft]
      by_cases h : Interrupts e
      · simp [h, Answer.Delivery.put]
      · by_cases hbufs : e = ENOBUFS
        · rw [if_neg h, if_neg h, if_pos hbufs, if_pos hbufs]
          rfl
        · rw [if_neg h, if_neg h, if_neg hbufs, if_neg hbufs]
          rfl
  | .accept 0 :: sched, b :: bs, sys, hout, _ => by
      rw [nwriteLoop, if_neg (List.cons_ne_nil b bs), Answer.send]
      simp [Sys.write, hout, Sys.log, writeCount, Sys.afterWrites]
  | .accept (k + 1) :: sched, b :: bs, sys, hout, hcount => by
      have hwrite : sys.write fd (b :: bs)
          = (some (min k bs.length + 1), { sys with
              outbox := sched, trace := sys.trace ++ [.write fd (b :: bs.take k)] }) := by
        simp [Sys.write, hout, Sys.log, Nat.succ_min_succ]
      have hdrop : (b :: bs).drop (min k bs.length + 1) = bs.drop k := by
        rw [List.drop_succ_cons]
        rcases Nat.le_total k bs.length with hle | hle
        · rw [Nat.min_eq_left hle]
        · rw [Nat.min_eq_right hle, List.drop_length, List.drop_eq_nil_of_le hle]
      have hdone : count - (bs.drop k).length
          = count - (b :: bs).length + (b :: bs.take k).length := by
        simp only [List.length_cons, List.length_drop, List.length_take] at hcount ⊢
        omega
      have hrest : (bs.drop k).length ≤ count := by
        simp only [List.length_cons, List.length_drop] at hcount ⊢
        omega
      rw [nwriteLoop, if_neg (List.cons_ne_nil b bs), hwrite]
      simp only [hdrop]
      rw [nwriteLoop_eq fd count sched (bs.drop k) _ rfl hrest, Answer.send, writeCount_cons, hdone]
      simp [Sys.afterWrites, Answer.Delivery.cons]

/-- **All of `Nwrite`** as a function of the script. -/
theorem nwrite_eq (fd : Fd) (buf : List UInt8) (sys : Sys) :
    nwrite fd buf sys = (writeCount 0 (Answer.send sys.outbox buf),
      sys.afterWrites fd (Answer.send sys.outbox buf)) := by
  have hloop := nwriteLoop_eq fd buf.length sys.outbox buf sys rfl (Nat.le_refl _)
  rwa [Nat.sub_self] at hloop

/-! ## What a result says -/

/-- A result that says of a transfer what happened: how many bytes it moved, or
that a call failed. -/
structure Faithful (r : Int32) (failed : Prop) (moved : List UInt8) : Prop where
  nonneg : 0 ≤ r ↔ ¬ failed
  count : 0 ≤ r → r.toInt = moved.length
  error : r = NET_HARDERROR ∨ r = NET_SOFTERROR → failed

/-- **A count that is an error code as well**: a result made of the one or the
other is faithful exactly when a call failed or the count is below 2^31. -/
theorem faithful_iff {r : Int32} {failed : Prop} {moved : List UInt8}
    (herror : failed → r = NET_HARDERROR ∨ r = NET_SOFTERROR)
    (hcount : ¬ failed → r = Int32.ofNat moved.length) :
    Faithful r failed moved ↔ failed ∨ moved.length < 2 ^ 31 := by
  constructor
  · intro h
    by_cases hfailed : failed
    · exact Or.inl hfailed
    · right
      have hr := h.count (h.nonneg.mpr hfailed)
      have hlt := r.toInt_lt
      omega
  · intro h
    by_cases hfailed : failed
    · have hneg : ¬ 0 ≤ r := by
        rcases herror hfailed with rfl | rfl
        · decide
        · decide
      exact ⟨iff_of_false hneg (not_not.mpr hfailed), fun hr => absurd hr hneg, fun _ => hfailed⟩
    · have hsmall := h.resolve_left hfailed
      obtain rfl := hcount hfailed
      have hr := ofNat_not_neg hsmall
      refine ⟨iff_of_true (Int32.not_lt.mp hr) hfailed, fun _ => toInt_ofNat_small hsmall, ?_⟩
      rintro (hcode | hcode)
      · rw [hcode] at hr
        exact absurd (by decide) hr
      · rw [hcode] at hr
        exact absurd (by decide) hr

/-! ## `Nread` -/

/-- A `read` failed; EINTR, EAGAIN, EWOULDBLOCK and end of file are no
failures. -/
def ReadFailed (r : Arrival.Receipt UInt8 Errno) : Prop :=
  ∃ e, r.ending = .error e ∧ ¬ Interrupts e

/-- `Nread` reports faithfully: it ends after one `read` for each chunk, all of
which hand something over but the last, the bytes are the first of the stream
and are stored from the start of the block, and the result is faithful. -/
def NreadReports (fd : Fd) (buf : Block UInt8) (count : Nat) (sys : Sys) : Prop :=
  ∃ r, Faithful r (ReadFailed (Arrival.receive count sys.inbox))
      (Arrival.receive count sys.inbox).got ∧
    nread fd buf count sys = .ok (r,
      (Arrival.receive count sys.inbox).got
        ++ buf.drop (Arrival.receive count sys.inbox).got.length,
      sys.afterReads fd (Arrival.receive count sys.inbox)) ∧
    (∀ chunk ∈ (Arrival.receive count sys.inbox).chunks.dropLast, chunk ≠ []) ∧
    (Arrival.receive count sys.inbox).got <+: Arrival.contents sys.inbox

theorem readCount_of_failed {done : Nat} {r : Arrival.Receipt UInt8 Errno} (h : ReadFailed r) :
    readCount done r = NET_HARDERROR := by
  obtain ⟨e, hend, hhard⟩ := h
  simp [readCount, hend, hhard]

theorem readCount_of_not_failed {done : Nat} {r : Arrival.Receipt UInt8 Errno}
    (h : ¬ ReadFailed r) : readCount done r = Int32.ofNat (done + r.got.length) := by
  unfold readCount
  split
  · rename_i e hend
    have hsoft : Interrupts e := not_not.mp fun hhard => h ⟨e, hend, hhard⟩
    exact if_pos hsoft
  · rfl

/-- **`Nread` reports faithfully** exactly when what arrives has room in its
block, and a `read` fails or less than 2^31 bytes arrive. -/
theorem nread_reports_iff (fd : Fd) (buf : Block UInt8) (count : Nat) (sys : Sys) :
    NreadReports fd buf count sys ↔
      (Arrival.receive count sys.inbox).got.length ≤ buf.length ∧
        (ReadFailed (Arrival.receive count sys.inbox) ∨
          (Arrival.receive count sys.inbox).got.length < 2 ^ 31) := by
  have hcontents := Arrival.contents_receive count sys.inbox
  have hprogress := Arrival.receive_progress count sys.inbox
  unfold NreadReports
  rw [nread_eq, readInto]
  generalize Arrival.receive count sys.inbox = rcpt at hcontents hprogress ⊢
  have hfaithful : Faithful (readCount 0 rcpt) (ReadFailed rcpt) rcpt.got ↔
      ReadFailed rcpt ∨ rcpt.got.length < 2 ^ 31 := by
    refine faithful_iff (fun h => Or.inl (readCount_of_failed h)) (fun h => ?_)
    rw [readCount_of_not_failed h, Nat.zero_add]
  by_cases hroom : rcpt.got.length ≤ buf.length
  · rw [if_pos hroom, and_iff_right hroom, ← hfaithful]
    constructor
    · rintro ⟨r, h, hrun, _⟩
      have hr : readCount 0 rcpt = r := congrArg Prod.fst (Except.ok.inj hrun)
      rwa [hr]
    · intro h
      exact ⟨readCount 0 rcpt, h, rfl, hprogress, hcontents ▸ List.prefix_append _ _⟩
  · rw [if_neg hroom]
    refine iff_of_false ?_ (fun h => hroom h.1)
    rintro ⟨_, _, hrun, _⟩
    cases hrun

/-! ## `Nwrite` -/

/-- A `write` failed; EINTR and EAGAIN are no failures, taking nothing is. -/
def WriteFailed (d : Answer.Delivery UInt8 Errno) : Prop :=
  d.stop = .refused ∨ ∃ e, d.stop = .error e ∧ ¬ Interrupts e

/-- `Nwrite` reports faithfully: it ends after one `write` for each chunk, all of
which take something but the last, the bytes are the first of the buffer, and
the result is faithful. -/
def NwriteReports (fd : Fd) (buf : List UInt8) (sys : Sys) : Prop :=
  ∃ r, Faithful r (WriteFailed (Answer.send sys.outbox buf)) (Answer.send sys.outbox buf).put ∧
    nwrite fd buf sys = (r, sys.afterWrites fd (Answer.send sys.outbox buf)) ∧
    (∀ chunk ∈ (Answer.send sys.outbox buf).chunks.dropLast, chunk ≠ []) ∧
    (Answer.send sys.outbox buf).put <+: buf

theorem writeCount_of_failed {done : Nat} {d : Answer.Delivery UInt8 Errno} (h : WriteFailed d) :
    writeCount done d = NET_HARDERROR ∨ writeCount done d = NET_SOFTERROR := by
  rcases h with hstop | ⟨e, hstop, hhard⟩
  · right
    rw [writeCount, hstop]
  · by_cases hbufs : e = ENOBUFS
    · right
      rw [writeCount, hstop]
      exact (if_neg hhard).trans (if_pos hbufs)
    · left
      rw [writeCount, hstop]
      exact (if_neg hhard).trans (if_neg hbufs)

theorem writeCount_of_not_failed {done : Nat} {d : Answer.Delivery UInt8 Errno}
    (h : ¬ WriteFailed d) : writeCount done d = Int32.ofNat (done + d.put.length) := by
  unfold writeCount
  split
  · rfl
  · rename_i hstop
    exact absurd (Or.inl hstop) h
  · rename_i e hstop
    have hsoft : Interrupts e := not_not.mp fun hhard => h (Or.inr ⟨e, hstop, hhard⟩)
    exact if_pos hsoft

/-- **`Nwrite` reports faithfully** exactly when a `write` fails or less than
2^31 bytes are taken. -/
theorem nwrite_reports_iff (fd : Fd) (buf : List UInt8) (sys : Sys) :
    NwriteReports fd buf sys ↔ WriteFailed (Answer.send sys.outbox buf) ∨
      (Answer.send sys.outbox buf).put.length < 2 ^ 31 := by
  have hprogress := Answer.send_progress sys.outbox buf
  have hfront := (Answer.put_send sys.outbox buf).1
  unfold NwriteReports
  rw [nwrite_eq]
  generalize Answer.send sys.outbox buf = d at hprogress hfront ⊢
  have hfaithful : Faithful (writeCount 0 d) (WriteFailed d) d.put ↔
      WriteFailed d ∨ d.put.length < 2 ^ 31 := by
    refine faithful_iff writeCount_of_failed (fun h => ?_)
    rw [writeCount_of_not_failed h, Nat.zero_add]
  rw [← hfaithful]
  constructor
  · rintro ⟨r, h, hrun, _⟩
    have hr : writeCount 0 d = r := congrArg Prod.fst hrun
    rwa [hr]
  · intro h
    exact ⟨writeCount 0 d, h, rfl, hprogress, hfront⟩

/-! ## Both -/

/-- **The results of `Nread` and `Nwrite`**, for every count and every sequence
of outcomes. -/
theorem transfers_report_iff (fd : Fd) (block : Block UInt8) (buf : List UInt8) (count : Nat)
    (sys : Sys) :
    (NreadReports fd block count sys ↔
      (Arrival.receive count sys.inbox).got.length ≤ block.length ∧
        (ReadFailed (Arrival.receive count sys.inbox) ∨
          (Arrival.receive count sys.inbox).got.length < 2 ^ 31)) ∧
    (NwriteReports fd buf sys ↔ WriteFailed (Answer.send sys.outbox buf) ∨
      (Answer.send sys.outbox buf).put.length < 2 ^ 31) :=
  ⟨nread_reports_iff fd block count sys, nwrite_reports_iff fd buf sys⟩

/-- The receive queue of one chunk that a loop wants exactly. -/
theorem receive_whole_chunk (b : UInt8) (bs : List UInt8) :
    Arrival.receive (bs.length + 1) ([.data b bs] : List (Arrival UInt8 Errno))
      = ⟨[b :: bs], .full, []⟩ := by
  simp [Arrival.receive, Arrival.requeue]

section Large

variable {b : UInt8} {bs : List UInt8}

/-- An environment in which one chunk arrives. -/
def chunkArrived (b : UInt8) (bs : List UInt8) : Sys := { Sys.quiet with inbox := [.data b bs] }

theorem receive_chunkArrived {n : Nat} (hn : (b :: bs).length = n) :
    Arrival.receive n (chunkArrived b bs).inbox = ⟨[b :: bs], .full, []⟩ := by
  rw [← hn]
  exact receive_whole_chunk b bs

theorem send_quiet : Answer.send Sys.quiet.outbox (b :: bs) = ⟨[b :: bs], .whole, []⟩ := by
  rw [Sys.quiet, Answer.send]

theorem got_single {q : List (Arrival UInt8 Errno)} {ending : Arrival.Ending Errno} :
    (Arrival.Receipt.mk [b :: bs] ending q).got = b :: bs := List.flatten_singleton

theorem put_single {sched : List (Answer Errno)} {stop : Answer.Stop Errno} :
    (Answer.Delivery.mk [b :: bs] stop sched).put = b :: bs := List.flatten_singleton

theorem nread_large {n : Nat} (hn : (b :: bs).length = n) (hlarge : ¬ n < 2 ^ 31) :
    (nread 5 (b :: bs) n (chunkArrived b bs)).map (·.1) = .ok (Int32.ofNat n) ∧
      ¬ NreadReports 5 (b :: bs) n (chunkArrived b bs) := by
  constructor
  · rw [nread_eq, receive_chunkArrived hn, readInto, got_single, if_pos (Nat.le_refl _)]
    simp only [Except.map, readCount, got_single, List.length_nil, Nat.zero_add, hn]
  · rw [nread_reports_iff, receive_chunkArrived hn, got_single, hn]
    rintro ⟨_, ⟨e, hend, _⟩ | hsmall⟩
    · cases hend
    · exact hlarge hsmall

theorem nwrite_large {n : Nat} (hn : (b :: bs).length = n) (hlarge : ¬ n < 2 ^ 31) :
    (nwrite 5 (b :: bs) Sys.quiet).1 = Int32.ofNat n ∧
      ¬ NwriteReports 5 (b :: bs) Sys.quiet := by
  constructor
  · rw [nwrite_eq, send_quiet]
    simp only [writeCount, put_single, Nat.zero_add, hn]
  · rw [nwrite_reports_iff, send_quiet, put_single, hn]
    rintro ((hstop | ⟨e, hstop, _⟩) | hsmall)
    · cases hstop
    · cases hstop
    · exact hlarge hsmall

end Large

/-- 4294967293 zero bytes. -/
def manyZeros : List UInt8 := List.replicate 4294967293 0

theorem length_manyZeros : (0 :: manyZeros).length = 4294967294 := by
  rw [List.length_cons, manyZeros, List.length_replicate]

/-- A transfer of 4294967294 bytes in which nothing fails returns
NET_HARDERROR, in both directions. -/
theorem large_transfer_reads_as_error :
    ((nread 5 (0 :: manyZeros) 4294967294 (chunkArrived 0 manyZeros)).map (·.1)
        = .ok NET_HARDERROR ∧
      ¬ NreadReports 5 (0 :: manyZeros) 4294967294 (chunkArrived 0 manyZeros)) ∧
    ((nwrite 5 (0 :: manyZeros) Sys.quiet).1 = NET_HARDERROR ∧
      ¬ NwriteReports 5 (0 :: manyZeros) Sys.quiet) := by
  have hcode : NET_HARDERROR = Int32.ofNat 4294967294 := by decide
  have hlarge : ¬ 4294967294 < 2 ^ 31 := by decide
  rw [hcode]
  exact ⟨nread_large length_manyZeros hlarge, nwrite_large length_manyZeros hlarge⟩

end KernelTestkit.Net
