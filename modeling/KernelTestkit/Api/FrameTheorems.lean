/-
KernelTestkit.Api.FrameTheorems — the message format on the wire.

* `payload_in_block_iff` — the second `Nread` of `JSON_read` stays inside
  its buffer, terminator included, for every announced length but
  2^32 - 1: there the size `hsize+1` wraps to 0.
* `framing_round_trip` — texts written one after another with
  `JSON_write`, however the writes are cut, are read back one by one with
  `JSON_read`, however the reads are cut.
* `jsonWrite_whole_iff` — when a reported success of `JSON_write` means
  that the whole message is on the wire.
-/
import KernelTestkit.Api.Frame
import KernelTestkit.Lib.Fallible

namespace KernelTestkit.Api

open KernelTestkit.Lib
open KernelTestkit.Net

/-! ## The length field -/

@[simp] theorem length_be32 (n : UInt32) : (be32 n).length = 4 := length_beBytes 4 _

/-- Reading the length field gives back the length written. -/
@[simp] theorem ntohl_be32 (n : UInt32) : ntohl (be32 n) = n := by
  have hn := n.toNat_lt
  rw [ntohl, be32, beNat_beBytes, ← UInt32.toNat_inj, UInt32.toNat_ofNat']
  omega

/-- Below the last length, the size of the buffer does not wrap. -/
theorem toNat_succ_of_ne {hsize : UInt32} (h : hsize ≠ 0xFFFFFFFF) :
    (hsize + 1).toNat = hsize.toNat + 1 := by
  have hlt := hsize.toNat_lt
  have hne : hsize.toNat ≠ 2 ^ 32 - 1 := fun hn => h (UInt32.toNat_inj.mp (by rw [hn]; rfl))
  rw [UInt32.toNat_add, UInt32.toNat_one]
  omega

/-! ## `JSON_write` -/

/-- The message that carries a text. -/
def frame (text : CString) : List UInt8 :=
  be32 (UInt32.ofNat text.bytes.length) ++ text.bytes

/-- The part of a text that `JSON_write` offers: its length, as truncated to
`hsize`. -/
theorem length_take_hsize (text : CString) :
    (text.bytes.take (UInt32.ofNat text.bytes.length).toNat).length
      = text.bytes.length % 2 ^ 32 := by
  rw [List.length_take, UInt32.toNat_ofNat']
  exact Nat.min_eq_left (Nat.mod_le _ _)

/-- A text printed by `JSON_write` and a script under which neither `Nwrite`
fails: what is on the wire, and what is returned. A count from 2^31 on is a
negative `int`. -/
theorem jsonWrite_of_moves {json : CjsonLib} (fd : Fd) {doc : CJson} {sys : Sys}
    {text : CString} {k₁ k₂ : Nat} {r₁ r₂ : List (Answer Errno)}
    (hp : json.printUnformatted doc = some text)
    (h₁ : Moves Interrupts sys.outbox 4 k₁ r₁)
    (h₂ : Moves Interrupts r₁ (text.bytes.length % 2 ^ 32) k₂ r₂) :
    ∃ evs e, jsonWrite json fd doc sys
        = (if k₂ < 2 ^ 31 then 0 else -1,
          { sys with outbox := r₂, errno := e, trace := sys.trace ++ evs }) ∧
      WritesOn fd evs ∧
      sent fd evs = (be32 (UInt32.ofNat text.bytes.length)).take k₁ ++ text.bytes.take k₂ := by
  have hlen := length_take_hsize text
  have hk₁ := h₁.le
  have hk₂ := h₂.le
  have hmod := Nat.mod_lt text.bytes.length (show 0 < 2 ^ 32 by decide)
  obtain ⟨evs₁, e₁, hw₁, hon₁, hs₁, _⟩ :=
    nwrite_of_moves fd (be32 (UInt32.ofNat text.bytes.length)) sys
      (by rw [length_be32]; exact h₁)
  obtain ⟨evs₂, e₂, hw₂, hon₂, hs₂, _⟩ :=
    nwrite_of_moves fd (text.bytes.take (UInt32.ofNat text.bytes.length).toNat)
      { sys with outbox := r₁, errno := e₁, trace := sys.trace ++ evs₁ }
      (by rw [hlen]; exact h₂)
  refine ⟨evs₁ ++ evs₂, e₂, ?_, hon₁.append hon₂, ?_⟩
  · simp only [jsonWrite, hp, hw₁, hw₂, if_neg (ofNat_not_neg (show k₁ < 2 ^ 31 by omega)),
      List.append_assoc]
    by_cases hsmall : k₂ < 2 ^ 31
    · rw [if_neg (ofNat_not_neg hsmall), if_pos hsmall]
    · rw [if_pos (ofNat_neg (by omega) (by omega)), if_neg hsmall]
  · rw [sent_append, hs₁, hs₂, List.take_take, UInt32.toNat_ofNat']
    congr 2
    exact Nat.min_eq_left hk₂

/-- A success reported by `JSON_write` means that neither `Nwrite` failed. -/
theorem jsonWrite_eq_zero {json : CjsonLib} {fd : Fd} {doc : CJson} {sys : Sys}
    (h : (jsonWrite json fd doc sys).1 = 0) :
    ∃ text k₁ r₁ k₂ r₂, json.printUnformatted doc = some text ∧
      Moves Interrupts sys.outbox 4 k₁ r₁ ∧
      Moves Interrupts r₁ (text.bytes.length % 2 ^ 32) k₂ r₂ ∧ k₂ < 2 ^ 31 := by
  have hcodes : NET_SOFTERROR < 0 ∧ NET_HARDERROR < 0 := by decide
  cases hp : json.printUnformatted doc with
  | none => simp [jsonWrite, hp] at h
  | some text =>
      have hlen := length_take_hsize text
      have hend₁ := nwrite_ends fd (be32 (UInt32.ofNat text.bytes.length)) sys
      generalize hout₁ : nwrite fd (be32 (UInt32.ofNat text.bytes.length)) sys = out₁ at hend₁
      cases hend₁ with
      | failed hr _ _ _ _ _ =>
          rcases hr with rfl | rfl <;> simp [jsonWrite, hp, hout₁, hcodes] at h
      | @moved k₁ evs₁ r₁ e₁ hm₁ _ _ _ =>
          rw [length_be32] at hm₁
          have hend₂ := nwrite_ends fd (text.bytes.take (UInt32.ofNat text.bytes.length).toNat)
            { sys with outbox := r₁, errno := e₁, trace := sys.trace ++ evs₁ }
          generalize hout₂ : nwrite fd (text.bytes.take (UInt32.ofNat text.bytes.length).toNat)
            { sys with outbox := r₁, errno := e₁, trace := sys.trace ++ evs₁ } = out₂ at hend₂
          have hpos₁ := ofNat_not_neg (show 0 + k₁ < 2 ^ 31 by have := hm₁.le; omega)
          cases hend₂ with
          | failed hr _ _ _ _ _ =>
              rcases hr with rfl | rfl <;>
                simp only [jsonWrite, hp, hout₁, hout₂, if_neg hpos₁, hcodes, if_true] at h <;>
                exact absurd h (by decide)
          | @moved k₂ evs₂ r₂ e₂ hm₂ _ _ _ =>
              rw [hlen] at hm₂
              refine ⟨text, k₁, r₁, k₂, r₂, rfl, hm₁, hm₂, ?_⟩
              obtain ⟨evs, e, hrun, _⟩ := jsonWrite_of_moves fd hp hm₁ hm₂
              by_contra hbig
              rw [hrun, if_neg hbig] at h
              exact absurd h (show ¬ (-1 : Int32) = 0 by decide)

/-- The write script cuts the message of a text of `len` bytes behind the back
of `JSON_write`: no transfer fails, and an interruption comes before the last
byte of the length or of the text, or the text does not fit its length. A
text of 2^31 bytes or more is noticed, by the sign of its count, unless it is
interrupted before. -/
structure Truncates (len : Nat) (outbox : List (Answer Errno)) : Prop where
  headerGoes : ¬ Answer.Fails Interrupts 4 outbox
  textGoes : ¬ Answer.Fails Interrupts (len % 2 ^ 32) (Answer.after 4 outbox)
  unnoticed : len % 2 ^ 32 < 2 ^ 31 ∨
    Answer.CutOff Interrupts (2 ^ 31) (Answer.after 4 outbox)
  cut : Answer.CutOff Interrupts 4 outbox ∨
    Answer.CutOff Interrupts (len % 2 ^ 32) (Answer.after 4 outbox) ∨ 2 ^ 32 ≤ len

/-- A script that truncates no message moves all of it, or `JSON_write` notices. -/
theorem truncates_iff (len : Nat) (outbox : List (Answer Errno)) :
    Truncates len outbox ↔ ∃ k₁ r₁ k₂ r₂, Moves Interrupts outbox 4 k₁ r₁ ∧
      Moves Interrupts r₁ (len % 2 ^ 32) k₂ r₂ ∧ k₂ < 2 ^ 31 ∧ (k₁ < 4 ∨ k₂ < len) := by
  have hmod := Nat.mod_lt len (show 0 < 2 ^ 32 by decide)
  have hle := Nat.mod_le len (2 ^ 32)
  constructor
  · rintro ⟨hheader, htext, hsmall, hcut⟩
    obtain ⟨k₁, r₁, h₁⟩ := Moves.exists_iff.mpr hheader
    obtain ⟨k₂, r₂, h₂⟩ := Moves.exists_iff.mpr htext
    obtain rfl := h₁.rest_eq
    have hk₂ := h₂.le
    refine ⟨k₁, _, k₂, r₂, h₁, h₂, ?_, ?_⟩
    · by_cases hbound : len % 2 ^ 32 < 2 ^ 31
      · omega
      · exact (h₂.lt_iff (by omega)).mpr (hsmall.resolve_left hbound)
    · rcases hcut with hcut | hcut | hcut
      · exact Or.inl ((h₁.lt_iff (Nat.le_refl 4)).mpr hcut)
      · have := (h₂.lt_iff (Nat.le_refl _)).mpr hcut
        omega
      · omega
  · rintro ⟨k₁, r₁, k₂, r₂, h₁, h₂, hsmall, hcut⟩
    obtain rfl := h₁.rest_eq
    refine ⟨Moves.exists_iff.mp ⟨_, _, h₁⟩, Moves.exists_iff.mp ⟨_, _, h₂⟩, ?_, ?_⟩
    · by_cases hbound : len % 2 ^ 32 < 2 ^ 31
      · exact Or.inl hbound
      · exact Or.inr ((h₂.lt_iff (by omega)).mp hsmall)
    · rcases hcut with hcut | hcut
      · exact Or.inl ((h₁.lt_iff (Nat.le_refl 4)).mp hcut)
      · by_cases hlong : 2 ^ 32 ≤ len
        · exact Or.inr (Or.inr hlong)
        · exact Or.inr (Or.inl ((h₂.lt_iff (Nat.le_refl _)).mp (by omega)))

/-- **Reported success of `JSON_write`** means that the whole message is on the
wire exactly when the write script does not truncate it. -/
theorem jsonWrite_whole_iff (json : CjsonLib) (fd : Fd) (doc : CJson) (sys : Sys) :
    ((jsonWrite json fd doc sys).1 = 0 → ∃ text, json.printUnformatted doc = some text ∧
        sent fd (jsonWrite json fd doc sys).2.trace = sent fd sys.trace ++ frame text) ↔
      ∀ text, json.printUnformatted doc = some text →
        ¬ Truncates text.bytes.length sys.outbox := by
  constructor
  · intro hwhole text hp htrunc
    obtain ⟨k₁, r₁, k₂, r₂, h₁, h₂, hsmall, hcut⟩ := (truncates_iff _ _).mp htrunc
    obtain ⟨evs, e, hrun, _, hsent⟩ := jsonWrite_of_moves fd hp h₁ h₂
    rw [if_pos hsmall] at hrun
    obtain ⟨text', hp', hframe⟩ := hwhole (by rw [hrun])
    obtain rfl : text = text' := Option.some.inj (hp.symm.trans hp')
    rw [hrun, sent_append, hsent, List.append_cancel_left_eq] at hframe
    have hlen := congrArg List.length hframe
    simp only [frame, List.length_append, List.length_take, length_be32] at hlen
    have hle₁ := h₁.le
    have hle₂ := h₂.le
    have hmod := Nat.mod_le text.bytes.length (2 ^ 32)
    omega
  · intro hnot h
    obtain ⟨text, k₁, r₁, k₂, r₂, hp, h₁, h₂, hsmall⟩ := jsonWrite_eq_zero h
    have hcut : ¬ (k₁ < 4 ∨ k₂ < text.bytes.length) := fun hcut =>
      hnot text hp ((truncates_iff _ _).mpr ⟨k₁, r₁, k₂, r₂, h₁, h₂, hsmall, hcut⟩)
    have hle₁ := h₁.le
    have hle₂ := h₂.le
    have hmod := Nat.mod_le text.bytes.length (2 ^ 32)
    obtain rfl : k₁ = 4 := by omega
    obtain rfl : k₂ = text.bytes.length := by omega
    obtain ⟨evs, e, hrun, _, hsent⟩ := jsonWrite_of_moves fd hp h₁ h₂
    refine ⟨text, hp, ?_⟩
    rw [hrun, sent_append, hsent, frame, List.take_of_length_le (by simp), List.take_length]

/-- Whatever it returns, `JSON_write` has only written to its socket. -/
theorem jsonWrite_frame {json : CjsonLib} {fd : Fd} {doc : CJson} {sys sys' : Sys} {r : Int32}
    (h : jsonWrite json fd doc sys = (r, sys')) :
    ∃ evs rest e, sys' = { sys with outbox := rest, errno := e, trace := sys.trace ++ evs } ∧
      WritesOn fd evs := by
  unfold jsonWrite at h
  split at h
  · cases h
    exact ⟨[], sys.outbox, sys.errno, by simp, by simp [WritesOn]⟩
  · rename_i text _
    rcases hw₁ : nwrite fd (be32 (UInt32.ofNat text.bytes.length)) sys with ⟨r₁, sys₁⟩
    obtain ⟨evs₁, rest₁, e₁, rfl, hon₁, _⟩ := nwrite_frame hw₁
    simp only [hw₁] at h
    split at h
    · cases h
      exact ⟨evs₁, rest₁, e₁, rfl, hon₁⟩
    · rcases hw₂ : nwrite fd (text.bytes.take (UInt32.ofNat text.bytes.length).toNat)
        { sys with outbox := rest₁, errno := e₁, trace := sys.trace ++ evs₁ } with ⟨r₂, sys₂⟩
      obtain ⟨evs₂, rest₂, e₂, rfl, hon₂, _⟩ := nwrite_frame hw₂
      have hsys : sys' = { sys with outbox := rest₂, errno := e₂,
                                    trace := sys.trace ++ (evs₁ ++ evs₂) } := by
        simp only [hw₂] at h
        split at h <;> cases h <;> simp
      exact ⟨_, _, _, hsys, hon₁.append hon₂⟩

/-! ## `JSON_read` -/

/-- The header part: the announced length, `none` when `Nread` fails. -/
def readHeader (fd : Fd) (sys : Sys) : Except Fault (Option UInt32 × Sys) := do
  let (rc, nsize, sys) ← nread fd (be32 sys.garbage) 4 sys
  return (if rc < 0 then none else some (ntohl nsize), sys)

/-- What is done with the result of the `Nread` of the payload. -/
def parsePayload (json : CjsonLib) (hsize : UInt32) (out : Int32 × Block UInt8 × Sys) :
    Except Fault (Option CJson × Sys) :=
  if ¬ out.1 < 0 ∧ out.1.toUInt32 = hsize then do
    let text ← readCString out.2.1
    return (json.parse text, out.2.2.log (.parse out.2.1))
  else
    return (none, out.2.2)

/-- The payload part, for an announced length. -/
def readPayload (json : CjsonLib) (fd : Fd) (hsize : UInt32) (sys : Sys) :
    Except Fault (Option CJson × Sys) :=
  match sys.calloc (hsize + 1).toNat with
  | (none, sys) => return (none, sys)
  | (some str, sys) => nread fd str hsize.toNat sys >>= parsePayload json hsize

/-- **`JSON_read`** is its header part followed by its payload part. -/
theorem jsonRead_eq (json : CjsonLib) (fd : Fd) (sys : Sys) :
    jsonRead json fd sys = (do
      let (hsize, sys) ← readHeader fd sys
      match hsize with
      | none => return (none, sys)
      | some hsize => readPayload json fd hsize sys) := by
  unfold jsonRead readHeader
  cases nread fd (be32 sys.garbage) 4 sys with
  | error fault => rfl
  | ok out =>
      obtain ⟨rc, nsize, sys₁⟩ := out
      by_cases h : rc < 0
      · simp [bind, Except.bind, pure, Except.pure, h]
      · simp only [bind, Except.bind, pure, Except.pure, if_neg h, readPayload]
        rcases sys₁.calloc (ntohl nsize + 1).toNat with ⟨_ | str, sys₂⟩ <;> rfl

theorem calloc_of_ok {sys : Sys} (h : sys.callocOk = true) (size : Nat) :
    sys.calloc size = (some (Block.fill size 0), sys.log (.calloc size)) := by
  rw [Sys.calloc, if_pos h]

theorem calloc_of_not_ok {sys : Sys} (h : ¬ sys.callocOk = true) (size : Nat) :
    sys.calloc size = (none, sys.log (.calloc size)) := by
  rw [Sys.calloc, if_neg h]

/-- The payload part when `calloc` finds memory. -/
theorem readPayload_of_ok (json : CjsonLib) (fd : Fd) (hsize : UInt32) {sys : Sys}
    (h : sys.callocOk = true) : readPayload json fd hsize sys
      = nread fd (Block.fill (hsize + 1).toNat 0) hsize.toNat
          (sys.log (.calloc (hsize + 1).toNat)) >>= parsePayload json hsize := by
  rw [readPayload, calloc_of_ok h]

theorem readPayload_of_not_ok (json : CjsonLib) (fd : Fd) (hsize : UInt32) {sys : Sys}
    (h : ¬ sys.callocOk = true) :
    readPayload json fd hsize sys = .ok (none, sys.log (.calloc (hsize + 1).toNat)) := by
  rw [readPayload, calloc_of_not_ok h]
  rfl

/-- After a header `JSON_read` is its payload part. -/
theorem jsonRead_of_header (json : CjsonLib) {fd : Fd} {hsize : UInt32} {sys sys₁ : Sys}
    (h : readHeader fd sys = .ok (some hsize, sys₁)) :
    jsonRead json fd sys = readPayload json fd hsize sys₁ := by
  rw [jsonRead_eq, h]
  rfl

theorem readCString_ok {buf : Block UInt8} {text : CString} (h : readCString buf = .ok text) :
    text = cstringOf buf := by
  unfold readCString at h
  split at h <;> cases h
  rfl

/-- The result is a document only as the answer of the parser. -/
theorem parsePayload_ok {json : CjsonLib} {hsize : UInt32} {rc : Int32} {str : Block UInt8}
    {sys sys' : Sys} {doc : Option CJson}
    (h : parsePayload json hsize (rc, str, sys) = .ok (doc, sys')) :
    doc = none ∧ sys' = sys ∨
      (¬ rc < 0 ∧ rc.toUInt32 = hsize) ∧ doc = json.parse (cstringOf str) ∧
        sys' = sys.log (.parse str) := by
  unfold parsePayload at h
  split at h
  · rename_i hwhole
    obtain ⟨text, htext, h⟩ := bind_ok_iff.mp h
    cases h
    exact Or.inr ⟨hwhole, by rw [readCString_ok htext], rfl⟩
  · cases h
    exact Or.inl ⟨rfl, rfl⟩

/-- A buffer with a NUL in it can be looked at. -/
theorem parsePayload_total (json : CjsonLib) (hsize : UInt32) (rc : Int32) {str : Block UInt8}
    (sys : Sys) (h : 0 ∈ str) : ∃ out, parsePayload json hsize (rc, str, sys) = .ok out := by
  unfold parsePayload
  split
  · simp only [readCString, if_pos h]
    exact ⟨_, rfl⟩
  · exact ⟨_, rfl⟩

/-- **What the payload part has done when it returns**: it has called `calloc`,
and then read from its socket. -/
theorem readPayload_ok {json : CjsonLib} {fd : Fd} {hsize : UInt32} {sys sys' : Sys}
    {doc : Option CJson} (h : readPayload json fd hsize sys = .ok (doc, sys')) :
    ∃ rd tl q e, ReadsOn fd rd ∧
      sys' = { sys with inbox := q, errno := e,
                        trace := sys.trace ++ .calloc (hsize + 1).toNat :: (rd ++ tl) } ∧
      (doc = none ∧ tl = [] ∨
        ∃ buf, tl = [.parse buf] ∧ doc = json.parse (cstringOf buf) ∧
          (received fd rd).length = hsize.toNat) := by
  by_cases hcalloc : sys.callocOk = true
  · rw [readPayload_of_ok json fd hsize hcalloc] at h
    obtain ⟨⟨rc, str, sys₂⟩, hrun, h⟩ := bind_ok_iff.mp h
    obtain ⟨got, hends, _, _, hr⟩ := nread_ok hrun
    obtain ⟨evs, q, e, hon, hrec, rfl⟩ := hends.exists_update
    rcases parsePayload_ok h with ⟨rfl, rfl⟩ | ⟨⟨hpos, hcount⟩, rfl, rfl⟩
    · exact ⟨evs, [], q, e, hon, by simp [Sys.log], Or.inl ⟨rfl, rfl⟩⟩
    · refine ⟨evs, [.parse str], q, e, hon, by simp [Sys.log], Or.inr ⟨str, rfl, rfl, ?_⟩⟩
      rcases hr with rfl | ⟨rfl, _⟩
      · have hle := hends.length_le
        have hlt := hsize.toNat_lt
        rw [hrec]
        exact (ofNat_toUInt32_eq_iff (by omega) hsize).mp hcount
      · exact absurd (by decide) hpos
  · rw [readPayload_of_not_ok json fd hsize hcalloc] at h
    cases h
    exact ⟨[], [], sys.inbox, sys.errno, by simp [ReadsOn], by simp [Sys.log], Or.inl ⟨rfl, rfl⟩⟩

/-- The payload part returns, for every length but the last. -/
theorem readPayload_total (json : CjsonLib) (fd : Fd) {hsize : UInt32} (sys : Sys)
    (hne : hsize ≠ 0xFFFFFFFF) : ∃ out, readPayload json fd hsize sys = .ok out := by
  by_cases hcalloc : sys.callocOk = true
  · rw [readPayload_of_ok json fd hsize hcalloc, toNat_succ_of_ne hne]
    obtain ⟨⟨rc, str, sys₂⟩, hrun⟩ := nread_total fd (Block.fill (hsize.toNat + 1) 0) hsize.toNat
      (sys.log (.calloc (hsize.toNat + 1))) (by rw [Block.fill, List.length_replicate]; omega)
    obtain ⟨got, hends, _, rfl, _⟩ := nread_ok hrun
    have hle := hends.length_le
    rw [hrun]
    refine parsePayload_total json hsize rc sys₂ (List.mem_append_right _ ?_)
    rw [Block.fill, List.drop_replicate]
    exact List.mem_replicate.mpr ⟨by omega, rfl⟩
  · exact ⟨_, readPayload_of_not_ok json fd hsize hcalloc⟩

/-- **The receive buffer**: behind a header that announces `hsize`, `JSON_read`
asks `calloc` for `size` bytes and stores what its second `Nread` receives in
the front of them, with at least one zero byte behind the last payload byte,
for every length but 2^32 - 1. -/
theorem payload_in_block_iff (json : CjsonLib) (fd : Fd) {hsize : UInt32} {sys sys₁ : Sys}
    (hheader : readHeader fd sys = .ok (some hsize, sys₁)) (hcalloc : sys₁.callocOk = true) :
    (∃ size rd rc str sys₂,
        jsonRead json fd sys = parsePayload json hsize (rc, str, sys₂) ∧
        sys₂.trace = sys₁.trace ++ .calloc size :: rd ∧ ReadsOn fd rd ∧
        (received fd rd).length ≤ hsize.toNat ∧ hsize.toNat < size ∧
        str = received fd rd ++ List.replicate (size - (received fd rd).length) 0)
      ↔ hsize ≠ 0xFFFFFFFF := by
  rw [jsonRead_of_header json hheader]
  constructor
  · rintro ⟨size, rd, rc, str, sys₂, hrun, htrace, _, hle, hlt, rfl⟩ rfl
    have hnul : (0 : UInt8) ∈ received fd rd ++
        List.replicate (size - (received fd rd).length) 0 :=
      List.mem_append_right _ (List.mem_replicate.mpr ⟨by omega, rfl⟩)
    obtain ⟨⟨doc, sys'⟩, hout⟩ := parsePayload_total json 0xFFFFFFFF rc sys₂ hnul
    -- the run returns, and its `calloc` was asked for no byte
    obtain ⟨_, _, _, _, _, hsys, _⟩ := readPayload_ok (hrun.trans hout)
    have hasked : ∃ tl, sys'.trace = sys₁.trace ++ .calloc size :: tl := by
      rcases parsePayload_ok hout with ⟨_, rfl⟩ | ⟨_, _, rfl⟩
      · exact ⟨rd, htrace⟩
      · rw [Sys.log, htrace, List.append_assoc, List.cons_append]
        exact ⟨_, rfl⟩
    obtain ⟨tl, htl⟩ := hasked
    rw [hsys, List.append_cancel_left_eq] at htl
    injection htl with hevent
    injection hevent with hsize
    rw [← hsize] at hlt
    exact absurd hlt (by decide)
  · intro hne
    have hsucc := toNat_succ_of_ne hne
    rw [readPayload_of_ok json fd hsize hcalloc, hsucc]
    obtain ⟨⟨rc, str, sys₂⟩, hread⟩ := nread_total fd (Block.fill (hsize.toNat + 1) 0) hsize.toNat
      (sys₁.log (.calloc (hsize.toNat + 1))) (by rw [Block.fill, List.length_replicate]; omega)
    obtain ⟨got, hends, _, rfl, _⟩ := nread_ok hread
    have hle := hends.length_le
    obtain ⟨evs, q, e, hon, rfl, rfl⟩ := hends.exists_update
    refine ⟨hsize.toNat + 1, evs, rc, _, _, by rw [hread]; rfl, by simp [Sys.log], hon, hle,
      by omega, ?_⟩
    rw [Block.fill, List.drop_replicate]

/-- A header that announces two bytes. -/
theorem payload_in_block_two : ∃ size rd rc str sys₂,
    jsonRead .empties 5 (.arrived [0, 0, 0, 2, 0x7B, 0x7D])
      = parsePayload .empties 2 (rc, str, sys₂) ∧
    sys₂.trace = [.read 5 [0, 0, 0, 2]] ++ .calloc size :: rd ∧ ReadsOn 5 rd ∧
    (received 5 rd).length ≤ 2 ∧ 2 < size ∧
    str = received 5 rd ++ List.replicate (size - (received 5 rd).length) 0 :=
  (@payload_in_block_iff .empties 5 2 _
    { Sys.quiet with inbox := [.data 0x7B [0x7D]], trace := [.read 5 [0, 0, 0, 2]] }
    (by decide +kernel) rfl).mpr (by decide)

/-- The announced length 2^32 - 1 gets a buffer of no bytes, and the first
byte received is stored outside it. -/
theorem payload_outside_block :
    (Sys.quiet.calloc ((0xFFFFFFFF : UInt32) + 1).toNat).1 = some [] ∧
    jsonRead .empties 5 { Sys.quiet with inbox := [.data 0xFF [0xFF, 0xFF, 0xFF, 0x41]] }
      = .error .outOfBounds := by
  have hheader : readHeader 5
        { Sys.quiet with inbox := [.data 0xFF [0xFF, 0xFF, 0xFF, 0x41]] }
      = .ok (some 0xFFFFFFFF,
          { Sys.quiet with inbox := [.data 0x41 []],
                           trace := [.read 5 [0xFF, 0xFF, 0xFF, 0xFF]] }) := by
    decide +kernel
  have hpayload : nread 5 [] (0xFFFFFFFF : UInt32).toNat
        { Sys.quiet with inbox := [.data 0x41 []],
                         trace := [.read 5 [0xFF, 0xFF, 0xFF, 0xFF], .calloc 0] }
      = .error .outOfBounds := by
    decide +kernel
  refine ⟨by decide, ?_⟩
  rw [jsonRead_of_header .empties hheader, readPayload_of_ok _ _ _ rfl]
  erw [hpayload]
  rfl

/-- **What `JSON_read` has done when it returns**: it has read from its
socket and called `calloc`, and it returns a document only as the answer of
the parser, called last and once. -/
theorem jsonRead_ok {json : CjsonLib} {fd : Fd} {sys sys' : Sys} {doc : Option CJson}
    (h : jsonRead json fd sys = .ok (doc, sys')) :
    ∃ rd tl q e, Fetches fd rd ∧
      sys' = { sys with inbox := q, errno := e, trace := sys.trace ++ (rd ++ tl) } ∧
      (doc = none ∧ tl = [] ∨
        ∃ buf, tl = [.parse buf] ∧ doc = json.parse (cstringOf buf)) := by
  rw [jsonRead_eq] at h
  obtain ⟨⟨hsize, sys₁⟩, hheader, h⟩ := bind_ok_iff.mp h
  obtain ⟨⟨rc, nsize, sys₁'⟩, hrun, hsome⟩ := bind_ok_iff.mp hheader
  obtain ⟨got, hends, _⟩ := nread_ok hrun
  obtain ⟨evs, q, e, hon, _, rfl⟩ := hends.exists_update
  cases hsome
  cases hlen : (if rc < 0 then none else some (ntohl nsize)) with
  | none =>
      rw [hlen] at h
      cases h
      exact ⟨evs, [], q, e, hon.fetches, by simp, Or.inl ⟨rfl, rfl⟩⟩
  | some hsize =>
      rw [hlen] at h
      obtain ⟨rd, tl, q', e', hon', rfl, hdoc⟩ := readPayload_ok h
      refine ⟨evs ++ ([.calloc (hsize + 1).toNat] ++ rd), tl, q', e',
        hon.fetches.append ((fetches_calloc fd _).append hon'.fetches), by simp, ?_⟩
      exact hdoc.imp id fun ⟨buf, htl, hdoc, _⟩ => ⟨buf, htl, hdoc⟩

/-- An `Nread` that has room for its count, on a queue that holds data only
and enough of it, receives exactly the front of the queue. -/
theorem nread_front (fd : Fd) (buf : Block UInt8) {count : Nat} (sys : Sys)
    {front rest : List UInt8} (hroom : count ≤ buf.length)
    (hall : Arrival.AllData sys.inbox) (hfront : front.length = count)
    (hin : Arrival.contents sys.inbox = front ++ rest) :
    ∃ evs q e, nread fd buf count sys
        = .ok (Int32.ofNat count, front ++ buf.drop count,
            { sys with inbox := q, errno := e, trace := sys.trace ++ evs }) ∧
      ReadsOn fd evs ∧ received fd evs = front ∧
      Arrival.AllData q ∧ Arrival.contents q = rest := by
  obtain ⟨⟨r, buf', sys'⟩, hrun⟩ := nread_total fd buf count sys hroom
  obtain ⟨got, hends, _, rfl, hr⟩ := nread_ok hrun
  obtain ⟨hall', hfull⟩ := hends.allData hall
  have hgot : got.length = front.length := by
    rw [hfront]
    exact hfull (by rw [hin, List.length_append]; omega)
  obtain ⟨rfl, hrest⟩ := List.append_inj (hends.contents.symm.trans hin) hgot
  obtain rfl : r = Int32.ofNat got.length := by
    rcases hr with hr | ⟨_, hbad⟩
    · exact hr
    · exact absurd hall hbad
  obtain ⟨evs, q, e, hon, hrec, rfl⟩ := hends.exists_update
  refine ⟨evs, q, e, ?_, hon, hrec, hall', hrest⟩
  rw [hrun, hfront]

/-- A `JSON_read` that consumes the message of `text` and nothing more, and
hands the parser `text` with a NUL behind it. -/
structure ReadsFrame (json : CjsonLib) (fd : Fd) (sys : Sys) (text : CString) (sys' : Sys) :
    Prop where
  run : jsonRead json fd sys = .ok (json.parse text, sys')
  trace : ∃ rd₁ rd₂, ReadsOn fd (rd₁ ++ rd₂) ∧ received fd (rd₁ ++ rd₂) = frame text ∧
    sys'.trace = sys.trace ++ (rd₁ ++ .calloc (text.bytes.length + 1) :: rd₂ ++
      [.parse (text.bytes ++ [0])])
  consumed : Arrival.contents sys.inbox = frame text ++ Arrival.contents sys'.inbox

/-- A message at the front of the queue is read as one message. -/
theorem jsonRead_frame (json : CjsonLib) (fd : Fd) {sys : Sys} {text : CString}
    {rest : List UInt8} (hcalloc : sys.callocOk = true) (hall : Arrival.AllData sys.inbox)
    (hlen : text.bytes.length < 2 ^ 31 - 1)
    (hin : Arrival.contents sys.inbox = frame text ++ rest) :
    ∃ sys', ReadsFrame json fd sys text sys' ∧ sys'.callocOk = true ∧
      Arrival.AllData sys'.inbox ∧ Arrival.contents sys'.inbox = rest := by
  have hin' := hin
  rw [frame, List.append_assoc] at hin'
  obtain ⟨evs₁, q₁, e₁, hrun₁, hon₁, hrec₁, hall₁, hq₁⟩ :=
    nread_front fd (be32 sys.garbage) sys (by rw [length_be32]) hall
      (length_be32 _) hin'
  have hsize : (UInt32.ofNat text.bytes.length).toNat = text.bytes.length := by
    rw [UInt32.toNat_ofNat']; omega
  have hne : UInt32.ofNat text.bytes.length ≠ 0xFFFFFFFF := by
    intro h
    have h' := congrArg UInt32.toNat h
    rw [hsize] at h'
    simp at h'
    omega
  have hsucc := toNat_succ_of_ne hne
  rw [hsize] at hsucc
  obtain ⟨evs₂, q₂, e₂, hrun₂, hon₂, hrec₂, hall₂, hq₂⟩ :=
    nread_front fd (Block.fill (text.bytes.length + 1) 0)
      (Sys.log { sys with inbox := q₁, errno := e₁, trace := sys.trace ++ evs₁ }
        (.calloc (text.bytes.length + 1)))
      (by rw [Block.fill, List.length_replicate]; omega) hall₁ rfl hq₁
  have hnul : (Block.fill (text.bytes.length + 1) (0 : UInt8)).drop text.bytes.length = [0] := by
    rw [Block.fill, List.drop_replicate, Nat.add_sub_cancel_left]
    rfl
  have hread : readCString (text.bytes ++ [0]) = .ok text := by
    rw [readCString, if_pos (by simp), cstringOf_terminated]
  have hheader : readHeader fd sys = .ok (some (UInt32.ofNat text.bytes.length),
      { sys with inbox := q₁, errno := e₁, trace := sys.trace ++ evs₁ }) := by
    have h4 : ¬ Int32.ofNat 4 < 0 := by decide
    rw [readHeader, hrun₁]
    simp only [bind, Except.bind, pure, Except.pure, if_neg h4]
    rw [List.drop_eq_nil_of_le (by simp), List.append_nil, ntohl_be32]
  have hrun : jsonRead json fd sys = .ok (json.parse text,
      { sys with inbox := q₂, errno := e₂,
                 trace := sys.trace ++ (evs₁ ++ .calloc (text.bytes.length + 1) :: evs₂ ++
                   [.parse (text.bytes ++ [0])]) }) := by
    have hcount : ¬ Int32.ofNat text.bytes.length < 0 ∧
        (Int32.ofNat text.bytes.length).toUInt32 = UInt32.ofNat text.bytes.length :=
      ⟨ofNat_not_neg (by omega), (ofNat_toUInt32_eq_iff (by omega) _).mpr hsize.symm⟩
    rw [jsonRead_of_header json hheader, @readPayload_of_ok json fd _
      { sys with inbox := q₁, errno := e₁, trace := sys.trace ++ evs₁ } hcalloc, hsucc, hsize]
    refine bind_ok_iff.mpr ⟨_, hrun₂, ?_⟩
    rw [parsePayload, if_pos hcount, hnul]
    exact bind_ok_iff.mpr ⟨_, hread, by simp [Sys.log, pure, Except.pure]⟩
  refine ⟨_, ⟨hrun, ⟨evs₁, evs₂, hon₁.append hon₂, ?_, rfl⟩, ?_⟩, hcalloc, hall₂, hq₂⟩
  · rw [received_append, hrec₁, hrec₂, frame]
  · rw [hin, hq₂]

/-! ## A sequence of messages -/

/-- `JSON_write` of one document after another. -/
def writeAll (json : CjsonLib) (fd : Fd) : List CJson → Sys → Sys
  | [], sys => sys
  | doc :: docs, sys => writeAll json fd docs (jsonWrite json fd doc sys).2

/-- Under a script of short writes only, what is on the wire is one message
after another. -/
theorem sent_writeAll (json : CjsonLib) (fd : Fd) : ∀ (docs : List CJson) (texts : List CString)
    (sys : Sys), docs.map json.printUnformatted = texts.map some →
    (∀ text ∈ texts, text.bytes.length < 2 ^ 31 - 1) →
    (∀ a ∈ sys.outbox, ∃ j, a = .accept (j + 1)) →
    sent fd (writeAll json fd docs sys).trace = sent fd sys.trace ++ texts.flatMap frame
  | [], [], _, _, _, _ => by simp [writeAll]
  | doc :: docs, text :: texts, sys, hprint, hlen, hout => by
      simp only [List.map_cons, List.cons.injEq] at hprint
      have htext := hlen text (by simp)
      obtain ⟨r₁, h₁⟩ := Moves.of_accepting Interrupts sys.outbox 4 hout
      obtain ⟨r₂, h₂⟩ := Moves.of_accepting Interrupts r₁
        (text.bytes.length % 2 ^ 32) (fun a ha => hout a (h₁.suffix.subset ha))
      obtain ⟨evs, e, hrun, _, hsent⟩ := jsonWrite_of_moves fd hprint.1 h₁ h₂
      have hwhole : sent fd evs = frame text := by
        rw [hsent, frame, List.take_of_length_le (by simp), List.take_of_length_le (by omega)]
      have ih := sent_writeAll json fd docs texts
        { sys with outbox := r₂, errno := e, trace := sys.trace ++ evs } hprint.2
        (fun t ht => hlen t (List.mem_cons_of_mem _ ht))
        (fun a ha => hout a (h₁.suffix.subset (h₂.suffix.subset ha)))
      rw [writeAll, hrun, ih, sent_append, hwhole, List.flatMap_cons, List.append_assoc]
  | [], _ :: _, _, hprint, _, _ => by simp at hprint
  | _ :: _, [], _, hprint, _, _ => by simp at hprint

/-- One message after another is read as such. -/
theorem readsFrame_all (json : CjsonLib) (fd : Fd) : ∀ (texts : List CString) (sys : Sys),
    (∀ text ∈ texts, text.bytes.length < 2 ^ 31 - 1) → sys.callocOk = true →
    Arrival.AllData sys.inbox → Arrival.contents sys.inbox = texts.flatMap frame →
    ∃ sys', Steps (ReadsFrame json fd) sys texts sys' ∧ Arrival.contents sys'.inbox = []
  | [], sys, _, _, _, hin => ⟨sys, .nil sys, hin⟩
  | text :: texts, sys, hlen, hcalloc, hall, hin => by
      obtain ⟨sys₁, hread, hcalloc₁, hall₁, hin₁⟩ :=
        jsonRead_frame json fd hcalloc hall (hlen text (by simp)) hin
      obtain ⟨sys', hsteps, hend⟩ := readsFrame_all json fd texts sys₁
        (fun t ht => hlen t (List.mem_cons_of_mem _ ht)) hcalloc₁ hall₁ hin₁
      exact ⟨sys', .cons hread hsteps, hend⟩

/-- **Framing**: documents written one after another under short writes, on
a stream read back under short reads, are read one by one: the k-th
`JSON_read` consumes exactly the k-th message and parses exactly the k-th
text, and nothing is left. -/
theorem framing_round_trip (json : CjsonLib) (wfd rfd : Fd) (docs : List CJson)
    (texts : List CString) (writer reader : Sys)
    (hprint : docs.map json.printUnformatted = texts.map some)
    (hlen : ∀ text ∈ texts, text.bytes.length < 2 ^ 31 - 1)
    (hstart : writer.trace = []) (hwrites : ∀ a ∈ writer.outbox, ∃ j, a = .accept (j + 1))
    (hcalloc : reader.callocOk = true) (hreads : Arrival.AllData reader.inbox)
    (hstream : Arrival.contents reader.inbox = sent wfd (writeAll json wfd docs writer).trace) :
    ∃ reader', Steps (ReadsFrame json rfd) reader texts reader' ∧
      Arrival.contents reader'.inbox = [] := by
  have hsent := sent_writeAll json wfd docs texts writer hprint hlen hwrites
  rw [hstart, sent_nil, List.nil_append] at hsent
  exact readsFrame_all json rfd texts reader hlen hcalloc hreads (hstream.trans hsent)

/-- Two messages, written in three pieces and read in three others. -/
theorem framing_round_trip_empties :
    ∃ reader', Steps (ReadsFrame .empties 6)
        { Sys.quiet with
          inbox := [.data 0 [0, 0], .data 2 [0x7B], .data 0x7D [0, 0, 0, 2, 0x5B, 0x5D]] }
        [lit "\x7b\x7d", lit "[]"] reader' ∧
      Arrival.contents reader'.inbox = [] :=
  framing_round_trip .empties 5 6 [.object [], .array []] _
    { Sys.quiet with outbox := [.accept 1, .accept 3, .accept 9] } _
    rfl (by decide) rfl (by simp) rfl
    (by simp [Arrival.AllData]) (by decide +kernel)

end KernelTestkit.Api
