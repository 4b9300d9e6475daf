/-
KernelTestkit.Lib.Channel — the two ends of a byte channel under a script.

A blocking channel does not hand over what it is asked for: a receive
returns some of the bytes that have arrived, or end of file, or an error;
a send takes some of the bytes it is offered, or fails. Both ends are
modelled by the list of what will happen next.

* `Arrival` is one entry of a receive queue. `requeue` puts back what a
  receive had no room for, so the contents of the queue shrink by exactly
  the bytes handed over.
* `receive n q` is what a loop that wants `n` elements gets from the queue
  `q`: the chunks of its receives, how it ends and what is left. It is
  `CutShort` when it ends early for a reason the loop treats as soft.
* `Answer` is one answer of a send. `send sched xs` is what a loop puts out
  that offers `xs`, and again what was not taken. `Moves soft sched n k rest`
  says that a loop which offers `n` bytes stops after exactly `k` of them with
  `rest` still to come: because all are taken (`k = n`), or because an error
  of the `soft` kind interrupts it. `Fails`, `CutOff` and `after` say of the
  script alone whether it stops so, before which element, and what it leaves.

An exhausted script stands for an undisturbed channel: a receive finds end
of file, a send takes everything.
-/
import Mathlib.Data.List.Basic

namespace KernelTestkit.Lib

/-- Of chunks that make progress up to the last one, with one more in front. -/
theorem progress_cons {α : Type} {chunk : List α} {chunks : List (List α)} (hchunk : chunk ≠ [])
    (h : ∀ c ∈ chunks.dropLast, c ≠ []) : ∀ c ∈ (chunk :: chunks).dropLast, c ≠ [] := by
  cases chunks with
  | nil => simp
  | cons c cs =>
      rw [List.dropLast_cons_of_ne_nil (List.cons_ne_nil c cs)]
      exact List.forall_mem_cons.mpr ⟨hchunk, h⟩

/-! ## The receiving end -/

/-- What a receive may find next: some elements (at least one), end of
file, or an error. -/
inductive Arrival (α ε : Type) where
  | data (first : α) (more : List α)
  | eof
  | error (e : ε)
  deriving DecidableEq, Repr

namespace Arrival

variable {α ε : Type}

/-- The elements an arrival carries. -/
def payload : Arrival α ε → List α
  | .data a as => a :: as
  | .eof => []
  | .error _ => []

/-- The elements a receive queue will hand over, in order. -/
def contents (q : List (Arrival α ε)) : List α := q.flatMap payload

/-- Put `xs` back in front of the queue. -/
def requeue : List α → List (Arrival α ε) → List (Arrival α ε)
  | [], q => q
  | a :: as, q => .data a as :: q

/-- The queue holds data only: no end of file and no error. -/
def AllData (q : List (Arrival α ε)) : Prop := ∀ x ∈ q, ∃ a as, x = .data a as

@[simp] theorem contents_nil : contents ([] : List (Arrival α ε)) = [] := rfl

@[simp] theorem contents_cons (x : Arrival α ε) (q : List (Arrival α ε)) :
    contents (x :: q) = x.payload ++ contents q := rfl

@[simp] theorem contents_requeue (xs : List α) (q : List (Arrival α ε)) :
    contents (requeue xs q) = xs ++ contents q := by
  cases xs <;> rfl

theorem allData_nil : AllData ([] : List (Arrival α ε)) := fun x hx => by simp at hx

theorem AllData.tail {x : Arrival α ε} {q : List (Arrival α ε)} (h : AllData (x :: q)) :
    AllData q :=
  fun y hy => h y (List.mem_cons_of_mem x hy)

theorem AllData.requeue {q : List (Arrival α ε)} (h : AllData q) (xs : List α) :
    AllData (requeue xs q) := by
  cases xs with
  | nil => exact h
  | cons a as =>
      intro x hx
      rcases List.mem_cons.mp hx with rfl | hx
      · exact ⟨a, as, rfl⟩
      · exact h x hx

/-! ### A receive loop -/

/-- How a receive loop ends. -/
inductive Ending (ε : Type) where
  | full
  | eof
  | error (e : ε)
  deriving DecidableEq, Repr

/-- The loop ended before it had all it wanted, and not by a hard error. -/
def Ending.Early (soft : ε → Prop) : Ending ε → Prop
  | .full => False
  | .eof => True
  | .error e => soft e

/-- What a receive loop got: one chunk for each receive, the last one empty
when it ends early, and the rest of the queue. -/
structure Receipt (α ε : Type) where
  chunks : List (List α)
  ending : Ending ε
  rest : List (Arrival α ε)

/-- The elements received, in order. -/
def Receipt.got (r : Receipt α ε) : List α := r.chunks.flatten

/-- One more chunk in front. -/
def Receipt.cons (chunk : List α) (r : Receipt α ε) : Receipt α ε :=
  { r with chunks := chunk :: r.chunks }

@[simp] theorem Receipt.got_cons (chunk : List α) (r : Receipt α ε) :
    (r.cons chunk).got = chunk ++ r.got := rfl

/-- A loop that wants `n` elements, on a queue. -/
def receive : Nat → List (Arrival α ε) → Receipt α ε
  | 0, q => ⟨[], .full, q⟩
  | _ + 1, [] => ⟨[[]], .eof, []⟩
  | _ + 1, .eof :: q => ⟨[[]], .eof, q⟩
  | _ + 1, .error e :: q => ⟨[[]], .error e, q⟩
  | n + 1, .data a as :: q =>
      if n ≤ as.length then ⟨[a :: as.take n], .full, requeue (as.drop n) q⟩
      else (receive (n - as.length) q).cons (a :: as)

/-- The queue makes a loop that wants `n` elements end early: end of file or a
soft error comes before the last of them. -/
def CutShort (soft : ε → Prop) : Nat → List (Arrival α ε) → Prop
  | 0, _ => False
  | _ + 1, [] => True
  | _ + 1, .eof :: _ => True
  | _ + 1, .error e :: _ => soft e
  | n + 1, .data _ as :: q => CutShort soft (n - as.length) q

theorem cutShort_iff (soft : ε → Prop) : ∀ (n : Nat) (q : List (Arrival α ε)),
    CutShort soft n q ↔ (receive n q).ending.Early soft
  | 0, _ => by simp [CutShort, receive, Ending.Early]
  | _ + 1, [] => by simp [CutShort, receive, Ending.Early]
  | _ + 1, .eof :: q => by simp [CutShort, receive, Ending.Early]
  | _ + 1, .error e :: q => by simp [CutShort, receive, Ending.Early]
  | n + 1, .data a as :: q => by
      by_cases h : n ≤ as.length
      · simp [CutShort, receive, Ending.Early, h]
      · rw [CutShort, receive, if_neg h]
        exact cutShort_iff soft (n - as.length) q

/-- A loop gets no more than it wants, and all of it exactly when it says so. -/
theorem length_receive : ∀ (n : Nat) (q : List (Arrival α ε)),
    (receive n q).got.length ≤ n ∧
      ((receive n q).got.length = n ↔ (receive n q).ending = .full)
  | 0, _ => by simp [receive, Receipt.got]
  | _ + 1, [] => by simp [receive, Receipt.got]
  | _ + 1, .eof :: q => by simp [receive, Receipt.got]
  | _ + 1, .error e :: q => by simp [receive, Receipt.got]
  | n + 1, .data a as :: q => by
      by_cases h : n ≤ as.length
      · simp [receive, Receipt.got, h]
      · obtain ⟨hle, hfull⟩ := length_receive (n - as.length) q
        rw [receive, if_neg h, Receipt.got_cons, List.length_append, List.length_cons]
        refine ⟨by omega, Iff.trans ?_ hfull⟩
        omega

/-- A loop gets the front of what the queue has, and leaves the rest. -/
theorem contents_receive : ∀ (n : Nat) (q : List (Arrival α ε)),
    contents q = (receive n q).got ++ contents (receive n q).rest
  | 0, q => by simp [receive, Receipt.got]
  | _ + 1, [] => by simp [receive, Receipt.got]
  | _ + 1, .eof :: q => by simp [receive, Receipt.got, payload]
  | _ + 1, .error e :: q => by simp [receive, Receipt.got, payload]
  | n + 1, .data a as :: q => by
      by_cases h : n ≤ as.length
      · simp [receive, Receipt.got, payload, h, ← List.append_assoc]
      · rw [receive, if_neg h, contents_cons, contents_receive (n - as.length) q,
          Receipt.got_cons, List.append_assoc]
        rfl

/-- Every receive but the last hands something over. -/
theorem receive_progress : ∀ (n : Nat) (q : List (Arrival α ε)),
    ∀ chunk ∈ (receive n q).chunks.dropLast, chunk ≠ []
  | 0, _ => by simp [receive]
  | _ + 1, [] => by simp [receive]
  | _ + 1, .eof :: q => by simp [receive]
  | _ + 1, .error e :: q => by simp [receive]
  | n + 1, .data a as :: q => by
      by_cases h : n ≤ as.length
      · simp [receive, h]
      · rw [receive, if_neg h]
        exact progress_cons (List.cons_ne_nil a as) (receive_progress (n - as.length) q)

end Arrival

/-! ## The sending end -/

/-- What a send may answer: how many elements it takes at most, or an
error. -/
inductive Answer (ε : Type) where
  | accept (k : Nat)
  | error (e : ε)
  deriving DecidableEq, Repr

namespace Answer

variable {α ε : Type}

/-- How a send loop ends: with everything sent, at a send that took nothing, or
at an error. -/
inductive Stop (ε : Type) where
  | whole
  | refused
  | error (e : ε)
  deriving DecidableEq, Repr

/-- What a send loop put out: one chunk for each send, the last one empty when
it ends early, and the rest of the script. -/
structure Delivery (α ε : Type) where
  chunks : List (List α)
  stop : Stop ε
  rest : List (Answer ε)

/-- The elements sent, in order. -/
def Delivery.put (d : Delivery α ε) : List α := d.chunks.flatten

/-- One more chunk in front. -/
def Delivery.cons (chunk : List α) (d : Delivery α ε) : Delivery α ε :=
  { d with chunks := chunk :: d.chunks }

@[simp] theorem Delivery.put_cons (chunk : List α) (d : Delivery α ε) :
    (d.cons chunk).put = chunk ++ d.put := rfl

/-- A loop that offers a list, and again what was not taken. -/
def send : List (Answer ε) → List α → Delivery α ε
  | sched, [] => ⟨[], .whole, sched⟩
  | [], a :: as => ⟨[a :: as], .whole, []⟩
  | .error e :: sched, _ :: _ => ⟨[[]], .error e, sched⟩
  | .accept 0 :: sched, _ :: _ => ⟨[[]], .refused, sched⟩
  | .accept (k + 1) :: sched, a :: as => (send sched (as.drop k)).cons (a :: as.take k)

/-- What is sent is the front of what was offered, and all of it exactly when
the loop says so. -/
theorem put_send : ∀ (sched : List (Answer ε)) (xs : List α),
    (send sched xs).put <+: xs ∧ ((send sched xs).put = xs ↔ (send sched xs).stop = .whole)
  | sched, [] => by cases sched <;> simp [send, Delivery.put]
  | [], a :: as => by simp [send, Delivery.put]
  | .error e :: sched, _ :: _ => by simp [send, Delivery.put]
  | .accept 0 :: sched, _ :: _ => by simp [send, Delivery.put]
  | .accept (k + 1) :: sched, a :: as => by
      obtain ⟨hfront, hwhole⟩ := put_send sched (as.drop k)
      rw [send, Delivery.put_cons]
      have hsplit : a :: as = (a :: as.take k) ++ as.drop k := by simp
      constructor
      · rw [hsplit]
        exact (List.prefix_append_right_inj _).mpr hfront
      · refine Iff.trans ?_ hwhole
        constructor
        · intro h
          exact List.append_cancel_left (h.trans hsplit)
        · intro h
          rw [h, ← hsplit]

/-- Every send but the last takes something. -/
theorem send_progress : ∀ (sched : List (Answer ε)) (xs : List α),
    ∀ chunk ∈ (send sched xs).chunks.dropLast, chunk ≠ []
  | sched, [] => by cases sched <;> simp [send]
  | [], a :: as => by simp [send]
  | .error e :: sched, _ :: _ => by simp [send]
  | .accept 0 :: sched, _ :: _ => by simp [send]
  | .accept (k + 1) :: sched, a :: as => by
      rw [send]
      exact progress_cons (List.cons_ne_nil a _) (send_progress sched (as.drop k))

/-- The script cuts a loop that offers `n` elements off: a soft error comes
before the last of them is taken. -/
def CutOff {ε : Type} (soft : ε → Prop) : Nat → List (Answer ε) → Prop
  | 0, _ => False
  | _ + 1, [] => False
  | _ + 1, .error e :: _ => soft e
  | _ + 1, .accept 0 :: _ => False
  | n + 1, .accept (k + 1) :: sched => CutOff soft (n - k) sched

/-- The script makes a loop that offers `n` elements fail: another error, or a
send that takes nothing, comes before the last of them is taken. -/
def Fails {ε : Type} (soft : ε → Prop) : Nat → List (Answer ε) → Prop
  | 0, _ => False
  | _ + 1, [] => False
  | _ + 1, .error e :: _ => ¬ soft e
  | _ + 1, .accept 0 :: _ => True
  | n + 1, .accept (k + 1) :: sched => Fails soft (n - k) sched

/-- What a loop that offers `n` elements leaves of the script. -/
def after {ε : Type} : Nat → List (Answer ε) → List (Answer ε)
  | 0, sched => sched
  | _ + 1, [] => []
  | _ + 1, .error _ :: sched => sched
  | _ + 1, .accept 0 :: sched => sched
  | n + 1, .accept (k + 1) :: sched => after (n - k) sched

/-- An exhausted script cuts nothing off. -/
theorem not_cutOff_nil {ε : Type} (soft : ε → Prop) (n : Nat) : ¬ CutOff soft n [] := by
  cases n <;> exact id

end Answer

/-- `Moves soft sched n k rest`: offered `n` elements, a send loop under
`sched` stops after moving exactly `k` of them without a failure, and
leaves `rest` of the script. -/
inductive Moves {ε : Type} (soft : ε → Prop) :
    List (Answer ε) → Nat → Nat → List (Answer ε) → Prop where
  | done (sched : List (Answer ε)) : Moves soft sched 0 0 sched
  | all (n : Nat) : Moves soft [] n n []
  | stop {e : ε} {rest : List (Answer ε)} {n : Nat} :
      0 < n → soft e → Moves soft (.error e :: rest) n 0 rest
  | more {k m n : Nat} {rest rest' : List (Answer ε)} :
      0 < n → 0 < k → Moves soft rest (n - min k n) m rest' →
      Moves soft (.accept k :: rest) n (min k n + m) rest'

namespace Moves

variable {ε : Type} {soft : ε → Prop} {sched rest : List (Answer ε)} {n k : Nat}

/-- A loop with elements left gets past an error only if it is soft, and
then stops there. -/
theorem error_inv {e : ε} (h : Moves soft (.error e :: sched) n k rest) (hn : 0 < n) :
    soft e ∧ k = 0 ∧ rest = sched := by
  cases h with
  | done => omega
  | stop _ hsoft => exact ⟨hsoft, rfl, rfl⟩

/-- A loop with elements left gets past a send only if it takes some. -/
theorem accept_inv {j : Nat} (h : Moves soft (.accept j :: sched) n k rest) (hn : 0 < n) :
    0 < j ∧ ∃ m, k = min j n + m ∧ Moves soft sched (n - min j n) m rest := by
  cases h with
  | done => omega
  | more _ hj hm => exact ⟨hj, _, rfl, hm⟩

/-- No loop moves more than it was offered. -/
theorem le (h : Moves soft sched n k rest) : k ≤ n := by
  induction h with
  | done => exact Nat.le_refl 0
  | all => exact Nat.le_refl _
  | stop => exact Nat.zero_le _
  | more _ _ _ ih => omega

/-- The script decides where the loop stops. -/
theorem det {k' : Nat} {rest' : List (Answer ε)} (h : Moves soft sched n k rest)
    (h' : Moves soft sched n k' rest') : k = k' ∧ rest = rest' := by
  induction h generalizing k' rest' with
  | done => cases h' with
    | done => exact ⟨rfl, rfl⟩
    | all => exact ⟨rfl, rfl⟩
    | stop hn => omega
    | more hn => omega
  | all => cases h' with
    | done => exact ⟨rfl, rfl⟩
    | all => exact ⟨rfl, rfl⟩
  | stop hn _ =>
      obtain ⟨_, rfl, rfl⟩ := h'.error_inv hn
      exact ⟨rfl, rfl⟩
  | more hn _ _ ih =>
      obtain ⟨_, m', rfl, hm'⟩ := h'.accept_inv hn
      obtain ⟨rfl, rfl⟩ := ih hm'
      exact ⟨rfl, rfl⟩

/-- A script without soft errors moves everything or fails. -/
theorem complete (h : Moves soft sched n k rest)
    (hno : ∀ e, Answer.error e ∈ sched → ¬ soft e) : k = n := by
  induction h with
  | done => rfl
  | all => rfl
  | stop _ hsoft => exact absurd hsoft (hno _ (by simp))
  | more _ _ _ ih =>
      have hm := ih (fun e he => hno e (List.mem_cons_of_mem _ he))
      omega

/-- The first answer decides over a single element. -/
theorem one_iff (h : Moves soft sched 1 k rest) :
    k = 1 ↔ ∀ e rest', sched = .error e :: rest' → ¬ soft e := by
  cases h with
  | all => simp
  | stop _ hsoft => simpa using hsoft
  | more _ hj hm =>
      have hle := hm.le
      exact iff_of_true (by omega) (fun e rest' heq => by cases heq)

/-- What is left of a script is a suffix of it. -/
theorem suffix (h : Moves soft sched n k rest) : rest <:+ sched := by
  induction h with
  | done => exact List.suffix_refl _
  | all => exact List.suffix_refl _
  | stop => exact List.suffix_cons _ _
  | more _ _ _ ih => exact ih.trans (List.suffix_cons _ _)

/-- A loop moves some number of elements, all or less, exactly when the script
does not make it fail. -/
theorem exists_iff : ∀ {n : Nat} {sched : List (Answer ε)},
    (∃ k rest, Moves soft sched n k rest) ↔ ¬ Answer.Fails soft n sched
  | 0, sched => by
      simp only [Answer.Fails, not_false_eq_true, iff_true]
      exact ⟨0, sched, .done sched⟩
  | n + 1, [] => by
      simp only [Answer.Fails, not_false_eq_true, iff_true]
      exact ⟨n + 1, [], .all (n + 1)⟩
  | n + 1, .error e :: sched => by
      simp only [Answer.Fails, not_not]
      constructor
      · rintro ⟨k, rest, h⟩
        exact (h.error_inv (Nat.succ_pos n)).1
      · exact fun hsoft => ⟨0, sched, .stop (Nat.succ_pos n) hsoft⟩
  | n + 1, .accept 0 :: sched => by
      simp only [Answer.Fails, not_true_eq_false, iff_false]
      rintro ⟨k, rest, h⟩
      exact absurd (h.accept_inv (Nat.succ_pos n)).1 (Nat.lt_irrefl 0)
  | n + 1, .accept (j + 1) :: sched => by
      have hleft : n + 1 - min (j + 1) (n + 1) = n - j := by omega
      rw [Answer.Fails, ← exists_iff, ← hleft]
      constructor
      · rintro ⟨k, rest, h⟩
        obtain ⟨_, m, _, hm⟩ := h.accept_inv (Nat.succ_pos n)
        exact ⟨m, rest, hm⟩
      · rintro ⟨m, rest, hm⟩
        exact ⟨_, rest, .more (Nat.succ_pos n) (Nat.succ_pos j) hm⟩

/-- A loop moves less than `b` elements exactly when the script cuts it off
before them. -/
theorem lt_iff {b : Nat} (h : Moves soft sched n k rest) (hb : b ≤ n) :
    k < b ↔ Answer.CutOff soft b sched := by
  induction h generalizing b with
  | done =>
      obtain rfl : b = 0 := by omega
      simp [Answer.CutOff]
  | all n =>
      cases b with
      | zero => simp [Answer.CutOff]
      | succ b => simpa [Answer.CutOff] using hb
  | stop _ hsoft =>
      cases b with
      | zero => simp [Answer.CutOff]
      | succ b => simpa [Answer.CutOff] using hsoft
  | @more j m n _ _ _ hj _ ih =>
      obtain ⟨j, rfl⟩ := Nat.exists_eq_succ_of_ne_zero (Nat.ne_of_gt hj)
      cases b with
      | zero => simp [Answer.CutOff]
      | succ b =>
          rw [Answer.CutOff, ← ih (by omega)]
          omega

/-- What a loop leaves of the script depends on what it offers alone. -/
theorem rest_eq (h : Moves soft sched n k rest) : Answer.after n sched = rest := by
  induction h with
  | done sched => cases sched <;> rfl
  | all n => cases n <;> rfl
  | @stop e rest n hn =>
      obtain ⟨n, rfl⟩ := Nat.exists_eq_succ_of_ne_zero (Nat.ne_of_gt hn)
      rfl
  | @more j m n rest rest' hn hj _ ih =>
      obtain ⟨n, rfl⟩ := Nat.exists_eq_succ_of_ne_zero (Nat.ne_of_gt hn)
      obtain ⟨j, rfl⟩ := Nat.exists_eq_succ_of_ne_zero (Nat.ne_of_gt hj)
      rw [Answer.after, ← ih]
      congr 1
      omega

/-- A script that only takes, a positive number at a time, moves all of
any offer. -/
theorem of_accepting (soft : ε → Prop) : ∀ (sched : List (Answer ε)) (n : Nat),
    (∀ a ∈ sched, ∃ j, a = .accept (j + 1)) → ∃ rest, Moves soft sched n n rest
  | [], n, _ => ⟨[], .all n⟩
  | _ :: sched, 0, _ => ⟨_, .done _⟩
  | a :: sched, n + 1, h => by
      obtain ⟨j, rfl⟩ := h a (by simp)
      obtain ⟨rest, hrest⟩ := of_accepting soft sched (n + 1 - min (j + 1) (n + 1))
        (fun b hb => h b (List.mem_cons_of_mem _ hb))
      refine ⟨rest, ?_⟩
      have hmore := Moves.more (k := j + 1) (Nat.succ_pos n) (Nat.succ_pos j) hrest
      rwa [show min (j + 1) (n + 1) + (n + 1 - min (j + 1) (n + 1)) = n + 1 by omega] at hmore

end Moves

end KernelTestkit.Lib
