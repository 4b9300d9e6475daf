/-
KernelTestkit.Api.ReadTheorems — what `JSON_read` accepts, and what it
depends on.

`JSON_read` is its header part followed by its payload part
(`jsonRead_eq`). The payload part compares the count it gets with the count
it asked for. The header part does not: a header cut short leaves some
bytes of the local `nsize` as they were.

* `readHeader_eq` — the header part as a function of the queue and of the
  uninitialised `nsize`.
* `readPayload_withGarbage` — the payload part does not depend on `nsize`.
* `jsonRead_faithful_iff` — `JSON_read` accepts complete frames only and
  depends on received bytes only exactly when the header is not cut short.
-/
import KernelTestkit.Api.FrameTheorems

namespace KernelTestkit.Api

open KernelTestkit.Lib
open KernelTestkit.Net

/-! ## The header -/

/-- The length a receipt announces, with `garbage` in the bytes it leaves. -/
def announced (garbage : UInt32) (r : Arrival.Receipt UInt8 Errno) : Option UInt32 :=
  if readCount 0 r < 0 then none
  else some (ntohl (r.got ++ (be32 garbage).drop r.got.length))

theorem readHeader_eq (fd : Fd) (sys : Sys) : readHeader fd sys
    = .ok (announced sys.garbage (Arrival.receive 4 sys.inbox),
        sys.afterReads fd (Arrival.receive 4 sys.inbox)) := by
  have hroom : (Arrival.receive 4 sys.inbox).got.length ≤ (be32 sys.garbage).length := by
    rw [length_be32]
    exact (Arrival.length_receive 4 sys.inbox).1
  rw [readHeader, nread_eq, readInto, if_pos hroom]
  rfl

/-- With an announced length `JSON_read` is its payload part. -/
theorem jsonRead_of_announced (json : CjsonLib) (fd : Fd) {sys : Sys} {hsize : UInt32}
    (h : announced sys.garbage (Arrival.receive 4 sys.inbox) = some hsize) :
    jsonRead json fd sys
      = readPayload json fd hsize (sys.afterReads fd (Arrival.receive 4 sys.inbox)) := by
  exact jsonRead_of_header json (by rw [readHeader_eq, h])

/-- Without one it has failed. -/
theorem jsonRead_of_not_announced (json : CjsonLib) (fd : Fd) {sys : Sys}
    (h : announced sys.garbage (Arrival.receive 4 sys.inbox) = none) :
    jsonRead json fd sys = .ok (none, sys.afterReads fd (Arrival.receive 4 sys.inbox)) := by
  rw [jsonRead_eq, readHeader_eq, h]
  rfl

/-- A header that is not cut short is whole, or `Nread` fails. -/
theorem announced_of_not_cut {q : List (Arrival UInt8 Errno)}
    (h : ¬ Arrival.CutShort Interrupts 4 q) :
    ((Arrival.receive 4 q).got.length = 4 ∧ ∀ garbage,
        announced garbage (Arrival.receive 4 q) = some (ntohl (Arrival.receive 4 q).got)) ∨
      ∀ garbage, announced garbage (Arrival.receive 4 q) = none := by
  rw [Arrival.cutShort_iff] at h
  cases hend : (Arrival.receive 4 q).ending with
  | full =>
      have hfour := (Arrival.length_receive 4 q).2.mpr hend
      have hcount : ¬ readCount 0 (Arrival.receive 4 q) < 0 := by
        simp only [readCount, hend, hfour]
        decide
      refine Or.inl ⟨hfour, fun garbage => ?_⟩
      rw [announced, if_neg hcount, hfour, List.drop_eq_nil_of_le (by simp), List.append_nil]
  | eof =>
      rw [hend] at h
      exact absurd trivial h
  | error e =>
      rw [hend] at h
      have hhard : readCount 0 (Arrival.receive 4 q) = NET_HARDERROR := by
        simp only [readCount, hend]
        exact if_neg h
      exact Or.inr fun garbage => by rw [announced, hhard]; rfl

/-- A header that is cut short is taken for one all the same. -/
theorem announced_of_cut {q : List (Arrival UInt8 Errno)}
    (h : Arrival.CutShort Interrupts 4 q) (garbage : UInt32) :
    (Arrival.receive 4 q).got.length < 4 ∧ announced garbage (Arrival.receive 4 q)
      = some (ntohl ((Arrival.receive 4 q).got
          ++ (be32 garbage).drop (Arrival.receive 4 q).got.length)) := by
  rw [Arrival.cutShort_iff] at h
  obtain ⟨hle, hfull⟩ := Arrival.length_receive 4 q
  have hearly : (Arrival.receive 4 q).ending ≠ .full := by
    intro hend
    rw [hend] at h
    exact h
  have hless : (Arrival.receive 4 q).got.length < 4 := by
    have hne := mt hfull.mp hearly
    omega
  have hcount : readCount 0 (Arrival.receive 4 q)
      = Int32.ofNat (0 + (Arrival.receive 4 q).got.length) := by
    unfold readCount
    split
    · rename_i e hend
      rw [hend] at h
      exact if_pos h
    · rfl
  refine ⟨hless, ?_⟩
  rw [announced, hcount, if_neg (ofNat_not_neg (by omega))]

/-- The last byte of a header that is cut short is the one of `nsize`. -/
theorem ntohl_last_byte (got : List UInt8) (garbage : UInt32) (h : got.length < 4) :
    (ntohl (got ++ (be32 garbage).drop got.length)).toNat % 256 = garbage.toNat % 256 := by
  have hsplit : (be32 garbage).drop got.length
      = (beBytes 3 (garbage.toNat / 256)).drop got.length ++ [UInt8.ofNat garbage.toNat] := by
    rw [be32, beBytes, List.drop_append_of_le_length (by rw [length_beBytes]; omega)]
  rw [hsplit, ← List.append_assoc, ntohl, beNat_concat, UInt32.toNat_ofNat',
    UInt8.toNat_ofNat']
  omega

/-! ## The payload -/

/-- The same environment with other contents of the local `nsize`. -/
def withGarbage (sys : Sys) (garbage : UInt32) : Sys := { sys with garbage := garbage }

@[simp] theorem withGarbage_inbox (sys : Sys) (garbage : UInt32) :
    (withGarbage sys garbage).inbox = sys.inbox := rfl

/-- What a run of `JSON_read` leaves, with other contents of `nsize`. -/
def carryGarbage (garbage : UInt32) (out : Option CJson × Sys) : Option CJson × Sys :=
  (out.1, withGarbage out.2 garbage)

theorem parsePayload_withGarbage (json : CjsonLib) (hsize : UInt32) (rc : Int32)
    (str : Block UInt8) (sys : Sys) (garbage : UInt32) :
    parsePayload json hsize (rc, str, withGarbage sys garbage)
      = (parsePayload json hsize (rc, str, sys)).map (carryGarbage garbage) := by
  unfold parsePayload
  split
  · cases readCString str <;> rfl
  · rfl

theorem readInto_withGarbage (fd : Fd) (pre ys : List UInt8) (sys : Sys)
    (r : Arrival.Receipt UInt8 Errno) (garbage : UInt32) :
    readInto fd pre ys (withGarbage sys garbage) r
      = (readInto fd pre ys sys r).map fun out =>
          (out.1, out.2.1, withGarbage out.2.2 garbage) := by
  unfold readInto
  split <;> rfl

theorem nread_withGarbage (fd : Fd) (buf : Block UInt8) (count : Nat) (sys : Sys)
    (garbage : UInt32) : nread fd buf count (withGarbage sys garbage)
      = (nread fd buf count sys).map fun out =>
          (out.1, out.2.1, withGarbage out.2.2 garbage) := by
  rw [nread_eq, nread_eq, withGarbage_inbox, readInto_withGarbage]

theorem readPayload_withGarbage (json : CjsonLib) (fd : Fd) (hsize : UInt32) (sys : Sys)
    (garbage : UInt32) : readPayload json fd hsize (withGarbage sys garbage)
      = (readPayload json fd hsize sys).map (carryGarbage garbage) := by
  by_cases hcalloc : sys.callocOk = true
  · rw [readPayload_of_ok json fd hsize hcalloc,
      @readPayload_of_ok json fd hsize (withGarbage sys garbage) hcalloc,
      show (withGarbage sys garbage).log (.calloc (hsize + 1).toNat)
        = withGarbage (sys.log (.calloc (hsize + 1).toNat)) garbage from rfl, nread_withGarbage]
    cases nread fd (Block.fill (hsize + 1).toNat 0) hsize.toNat
        (sys.log (.calloc (hsize + 1).toNat)) with
    | error fault => rfl
    | ok out => exact parsePayload_withGarbage json hsize out.1 out.2.1 out.2.2 garbage
  · rw [readPayload_of_not_ok json fd hsize hcalloc,
      @readPayload_of_not_ok json fd hsize (withGarbage sys garbage) hcalloc]
    rfl

/-- `JSON_read` after a header that is not cut short does not depend on
`nsize`. -/
theorem jsonRead_withGarbage (json : CjsonLib) (fd : Fd) {sys : Sys}
    (h : ¬ Arrival.CutShort Interrupts 4 sys.inbox) (garbage : UInt32) :
    jsonRead json fd (withGarbage sys garbage)
      = (jsonRead json fd sys).map (carryGarbage garbage) := by
  rcases announced_of_not_cut h with ⟨_, hsome⟩ | hnone
  · rw [jsonRead_of_announced json fd (hsome garbage), jsonRead_of_announced json fd (hsome _)]
    exact readPayload_withGarbage json fd _ (sys.afterReads fd _) garbage
  · rw [jsonRead_of_not_announced json fd (hnone garbage),
      jsonRead_of_not_announced json fd (hnone _)]
    rfl

/-! ## Complete frames -/

/-- The four bytes of a length, and as many bytes as it announces. -/
def CompleteFrame (bytes : List UInt8) : Prop :=
  ∃ header payload, header.length = 4 ∧ payload.length = (ntohl header).toNat ∧
    bytes = header ++ payload

theorem received_reads (fd : Fd) (chunks : List (List UInt8)) :
    received fd (chunks.map (.read fd)) = chunks.flatten := by
  induction chunks with
  | nil => rfl
  | cons chunk chunks ih =>
      rw [List.map_cons, List.flatten_cons, ← ih, ← List.singleton_append, received_append,
        received_read]

theorem received_afterReads (fd : Fd) (sys : Sys) (r : Arrival.Receipt UInt8 Errno) :
    received fd (sys.afterReads fd r).trace = received fd sys.trace ++ r.got := by
  rw [Sys.afterReads, received_append, received_reads]
  rfl

/-- A payload that is parsed has the announced length. -/
theorem readPayload_some {json : CjsonLib} {fd : Fd} {hsize : UInt32} {sys sys' : Sys}
    {doc : CJson} (h : readPayload json fd hsize sys = .ok (some doc, sys')) :
    ∃ payload : List UInt8, payload.length = hsize.toNat ∧
      received fd sys'.trace = received fd sys.trace ++ payload := by
  obtain ⟨rd, tl, q, e, _, rfl, ⟨hnone, _⟩ | ⟨buf, rfl, _, hlen⟩⟩ := readPayload_ok h
  · cases hnone
  · refine ⟨received fd rd, hlen, ?_⟩
    rw [received_append, List.append_cancel_left_eq, ← List.singleton_append, received_append,
      received_append]
    exact List.append_nil _

/-! ## Both -/

/-- What can be seen of a run of `JSON_read`: the document it returns, what it
leaves of the queue, and what it asked of its environment, its `calloc`
included. -/
def observed (json : CjsonLib) (fd : Fd) (sys : Sys) :
    Except Fault (Option CJson × List (Arrival UInt8 Errno) × List Event) :=
  (jsonRead json fd sys).map fun out => (out.1, out.2.inbox, out.2.trace)

/-- Whatever the local `nsize` holds before, `JSON_read` accepts complete frames
only; and the size it asks for, the bytes it consumes and the document it
returns are always the same. -/
structure ReadsFaithfully (json : CjsonLib) (fd : Fd) (sys : Sys) : Prop where
  complete : ∀ garbage doc sys',
    jsonRead json fd (withGarbage sys garbage) = .ok (some doc, sys') →
      ∃ bytes, CompleteFrame bytes ∧ received fd sys'.trace = received fd sys.trace ++ bytes
  deterministic : ∀ g₁ g₂,
    observed json fd (withGarbage sys g₁) = observed json fd (withGarbage sys g₂)

/-- After a header the size asked for shows in the run. -/
theorem observed_calloc {json : CjsonLib} {fd : Fd} {hsize : UInt32} {sys : Sys}
    (h : announced sys.garbage (Arrival.receive 4 sys.inbox) = some hsize)
    (hne : hsize ≠ 0xFFFFFFFF) : ∃ doc q tl, observed json fd sys = .ok (doc, q,
      (sys.afterReads fd (Arrival.receive 4 sys.inbox)).trace
        ++ .calloc (hsize + 1).toNat :: tl) := by
  obtain ⟨⟨doc, sys'⟩, hrun⟩ := readPayload_total json fd
    (sys.afterReads fd (Arrival.receive 4 sys.inbox)) hne
  obtain ⟨rd, tl, q, e, _, rfl, _⟩ := readPayload_ok hrun
  refine ⟨doc, q, rd ++ tl, ?_⟩
  rw [observed, jsonRead_of_announced json fd h, hrun]
  rfl

/-- With a header that is cut short, `nsize` decides the size of the buffer. -/
theorem observed_of_cut (json : CjsonLib) (fd : Fd) {sys : Sys}
    (h : Arrival.CutShort Interrupts 4 sys.inbox) :
    observed json fd (withGarbage sys 0) ≠ observed json fd (withGarbage sys 1) := by
  obtain ⟨hless, hzero⟩ := announced_of_cut h 0
  obtain ⟨_, hone⟩ := announced_of_cut h 1
  have hlow := ntohl_last_byte (Arrival.receive 4 sys.inbox).got 0 hless
  have hhigh := ntohl_last_byte (Arrival.receive 4 sys.inbox).got 1 hless
  generalize ntohl _ = size₀ at hzero hlow
  generalize ntohl _ = size₁ at hone hhigh
  have hne₀ : size₀ ≠ 0xFFFFFFFF := by rintro rfl; simp at hlow
  have hne₁ : size₁ ≠ 0xFFFFFFFF := by rintro rfl; simp at hhigh
  obtain ⟨_, _, _, hrun₀⟩ := @observed_calloc json fd size₀ (withGarbage sys 0) hzero hne₀
  obtain ⟨_, _, _, hrun₁⟩ := @observed_calloc json fd size₁ (withGarbage sys 1) hone hne₁
  intro heq
  rw [hrun₀, hrun₁] at heq
  injection heq with heq
  have htrace := congrArg (fun out => out.2.2) heq
  simp only at htrace
  rw [show ((withGarbage sys 0).afterReads fd (Arrival.receive 4 (withGarbage sys 0).inbox)).trace
      = ((withGarbage sys 1).afterReads fd (Arrival.receive 4 (withGarbage sys 1).inbox)).trace
      from rfl, List.append_cancel_left_eq] at htrace
  injection htrace with hevent
  injection hevent with hsize
  rw [toNat_succ_of_ne hne₀, toNat_succ_of_ne hne₁] at hsize
  have hbytes : (0 : UInt32).toNat % 256 ≠ (1 : UInt32).toNat % 256 := by decide
  omega

/-- A header that is not cut short, and a document: the header is whole. -/
theorem completeFrame_of_jsonRead {json : CjsonLib} {fd : Fd} {sys sys' : Sys} {doc : CJson}
    (hcut : ¬ Arrival.CutShort Interrupts 4 sys.inbox)
    (h : jsonRead json fd sys = .ok (some doc, sys')) :
    ∃ bytes, CompleteFrame bytes ∧ received fd sys'.trace = received fd sys.trace ++ bytes := by
  rcases announced_of_not_cut hcut with ⟨hfour, hsome⟩ | hnone
  · rw [jsonRead_of_announced json fd (hsome _)] at h
    obtain ⟨payload, hlen, hrec⟩ := readPayload_some h
    refine ⟨(Arrival.receive 4 sys.inbox).got ++ payload, ⟨_, _, hfour, hlen, rfl⟩, ?_⟩
    rw [hrec, received_afterReads, List.append_assoc]
  · rw [jsonRead_of_not_announced json fd (hnone _)] at h
    cases h

/-- **`JSON_read` accepts complete frames only and depends on received bytes
only** exactly when its header is not cut short. -/
theorem jsonRead_faithful_iff (json : CjsonLib) (fd : Fd) (sys : Sys) :
    ReadsFaithfully json fd sys ↔ ¬ Arrival.CutShort Interrupts 4 sys.inbox := by
  constructor
  · intro h hcut
    exact observed_of_cut json fd hcut (h.deterministic 0 1)
  · intro hcut
    refine ⟨fun garbage doc sys' h =>
      @completeFrame_of_jsonRead json fd (withGarbage sys garbage) sys' doc hcut h, ?_⟩
    have hconst : ∀ garbage, observed json fd (withGarbage sys garbage) = observed json fd sys := by
      intro garbage
      rw [observed, observed, jsonRead_withGarbage json fd hcut]
      cases jsonRead json fd sys <;> rfl
    intro g₁ g₂
    rw [hconst, hconst]

/-- Three bytes of a header, an interruption, and the two bytes of a
document. -/
def interruptedHeader : Sys :=
  { Sys.quiet with inbox := [.data 0 [0, 0], .error EINTR, .data 0x7B [0x7D]] }

/-- The size asked for, and whether the document is accepted, depend on the
last byte of `nsize`. -/
theorem interrupted_header_accepted :
    (∃ sys', jsonRead .empties 5 (withGarbage interruptedHeader 2) = .ok (some (.object []), sys')
      ∧ received 5 sys'.trace = [0, 0, 0, 0x7B, 0x7D] ∧ .calloc 3 ∈ sys'.trace) ∧
    (∃ sys', jsonRead .empties 5 (withGarbage interruptedHeader 0) = .ok (none, sys') ∧
      .calloc 1 ∈ sys'.trace) ∧
    ¬ ReadsFaithfully .empties 5 interruptedHeader := by
  refine ⟨⟨{ interruptedHeader with
        inbox := [], garbage := 2, errno := EINTR
        trace := [.read 5 [0, 0, 0], .read 5 [], .calloc 3, .read 5 [0x7B, 0x7D],
          .parse [0x7B, 0x7D, 0]] },
      ?_, by decide, by decide⟩,
    ⟨{ interruptedHeader with
        inbox := [.data 0x7B [0x7D]], garbage := 0, errno := EINTR
        trace := [.read 5 [0, 0, 0], .read 5 [], .calloc 1, .parse [0]] }, ?_, by decide⟩,
    fun h => ?_⟩
  · have hsize : announced 2 (Arrival.receive 4 interruptedHeader.inbox) = some 2 := by decide
    rw [@jsonRead_of_announced .empties 5 (withGarbage interruptedHeader 2) 2 hsize,
      readPayload_of_ok _ _ _ rfl, nread_eq]
    rfl
  · have hsize : announced 0 (Arrival.receive 4 interruptedHeader.inbox) = some 0 := by decide
    rw [@jsonRead_of_announced .empties 5 (withGarbage interruptedHeader 0) 0 hsize,
      readPayload_of_ok _ _ _ rfl, nread_eq]
    rfl
  · exact (jsonRead_faithful_iff _ _ _).mp h (Or.inl rfl)

end KernelTestkit.Api
