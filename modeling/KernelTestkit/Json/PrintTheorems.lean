/-
KernelTestkit.Json.PrintTheorems — the printer is the text it prints.

`At written k p`: the block begins with `written`, and the offset is `k`. A
printer that starts behind `pre` leaves `pre` and the text of its item with a
NUL (`Printed`), or it returns false and then the text with two more bytes
does not fit (`Does`). What has to fit is the `limit`: the length of a block
that cannot grow, and `LLONG_MAX` for one that can.
-/
import KernelTestkit.Json.Render

namespace KernelTestkit.Json

open KernelTestkit.Lib
open KernelTestkit.Api (CString)
open PrintBuffer

variable {memory : Memory} {limit e e' k n needed depth : Nat} {format : Bool}
variable {pre text bytes written : List UInt8} {p : PrintBuffer}

/-! ## Results -/

/-- Success, or a limit that is too low. -/
def Does (limit enough : Nat) (x : Except Trap (Bool × PrintBuffer)) (Q : PrintBuffer → Prop) :
    Prop :=
  (∃ p, x = .ok (true, p) ∧ Q p) ∨ limit < enough ∧ ∃ p, x = .ok (false, p)

namespace Does

variable {x : Except Trap (Bool × PrintBuffer)} {f : Printer} {Q R : PrintBuffer → Prop}

theorem mono (h : Does limit e x Q) (he : e ≤ e') (hQ : ∀ p, Q p → R p) : Does limit e' x R := by
  rcases h with ⟨p, hx, hp⟩ | ⟨hlt, hx⟩
  · exact Or.inl ⟨p, hx, hQ p hp⟩
  · exact Or.inr ⟨by omega, hx⟩

/-- **One call after another.** -/
theorem seq (h : Does limit e x Q) (he : e ≤ e') (hf : ∀ p, Q p → Does limit e' (f p) R) :
    Does limit e' (andThen x f) R := by
  rcases h with ⟨p, rfl, hp⟩ | ⟨hlt, p, rfl⟩
  · exact hf p hp
  · exact Or.inr ⟨by omega, p, rfl⟩

theorem done (hp : Q p) : Does limit e (.ok (true, p)) Q := Or.inl ⟨p, rfl, hp⟩

end Does

/-! ## The state of a buffer -/

/-- What may be used of the block. -/
def PrintBuffer.capacity (p : PrintBuffer) : Nat := if p.noalloc then p.length else LLONG_MAX

structure At (memory : Memory) (limit : Nat) (format : Bool) (depth : Nat)
    (written : List UInt8) (k : Nat) (p : PrintBuffer) : Prop where
  limit_eq : p.capacity = limit
  format_eq : p.format = format
  depth_eq : p.depth = depth
  granted : p.noalloc = true ∨ ∀ size, memory.granted size = true
  length_le : p.length ≤ LLONG_MAX
  block : ∃ post, p.buffer = some (written ++ post) ∧ p.length ≤ written.length + post.length
  offset_eq : p.offset = k
  room : p.length = 0 ∨ k < p.length

/-- A text with a NUL is behind `pre`; the offset is somewhere in the text, and
the length is `slack` more than the text needs. -/
def Printed (memory : Memory) (limit : Nat) (format : Bool) (depth : Nat)
    (pre text : List UInt8) (slack : Nat) (p : PrintBuffer) : Prop :=
  ∃ k, At memory limit format depth (pre ++ (text ++ [0])) k p ∧ pre.length ≤ k ∧
    k ≤ pre.length + text.length ∧ pre.length + text.length + slack ≤ p.length

namespace At

theorem length_le_limit (h : At memory limit format depth written k p) : p.length ≤ limit := by
  have hlength := h.length_le
  rw [← h.limit_eq, capacity]
  split
  · exact Nat.le_refl _
  · exact hlength

theorem limit_le (h : At memory limit format depth written k p) : limit ≤ LLONG_MAX := by
  rw [← h.limit_eq, capacity]
  split
  · exact h.length_le
  · exact Nat.le_refl _

/-- Less that is known of the block. -/
theorem take (h : At memory limit format depth (written ++ bytes) k p) :
    At memory limit format depth written k p := by
  obtain ⟨post, hbuffer, hlength⟩ := h.block
  refine { h with block := ⟨bytes ++ post, by rw [hbuffer, List.append_assoc], ?_⟩ }
  rw [List.length_append] at hlength ⊢
  omega

theorem setDepth (h : At memory limit format depth written k p) (d : Nat) :
    At memory limit format d written k { p with depth := d } :=
  { h with depth_eq := rfl, limit_eq := h.limit_eq }

end At

namespace Printed

variable {slack : Nat}

theorem prepend {front : List UInt8}
    (h : Printed memory limit format depth (pre ++ front) text slack p) :
    Printed memory limit format depth pre (front ++ text) slack p := by
  obtain ⟨k, hat, hlow, hhigh, hlength⟩ := h
  rw [List.length_append] at hlow hhigh hlength
  rw [List.append_assoc, ← List.append_assoc front] at hat
  refine ⟨k, hat, by omega, ?_, ?_⟩
  · rw [List.length_append]
    omega
  · rw [List.length_append]
    omega

theorem setDepth (h : Printed memory limit format depth pre text slack p) (d : Nat) :
    Printed memory limit format d pre text slack { p with depth := d } := by
  obtain ⟨k, hat, hrest⟩ := h
  exact ⟨k, hat.setDepth d, hrest⟩

theorem depth_eq (h : Printed memory limit format depth pre text slack p) : p.depth = depth := by
  obtain ⟨_, hat, _⟩ := h
  exact hat.depth_eq

end Printed

/-! ## The buffer -/

theorem grow_spec {block : Block UInt8} {size : Nat} (hgranted : ∀ size, memory.granted size = true)
    (hsize : pre.length ≤ size) (hblock : ∃ post, block = pre ++ post) :
    ∃ post, p.grow memory block size
        = (true, { p with buffer := some (pre ++ post), length := size }) ∧
      size ≤ pre.length + post.length := by
  obtain ⟨post, rfl⟩ := hblock
  refine ⟨post.take (size - pre.length) ++
    (List.range (size - (pre ++ post).length)).map (memory.undefined size), ?_, ?_⟩
  · rw [grow, Memory.reallocate, if_pos (hgranted size), List.take_append,
      List.take_of_length_le hsize, List.append_assoc]
  · simp only [List.length_append, List.length_take, List.length_map, List.length_range]
    omega

theorem ensure_spec (h : At memory limit format depth pre pre.length p) (needed : Nat) :
    (∃ p', p.ensure memory needed = (true, p') ∧ At memory limit format depth pre pre.length p' ∧
      pre.length + needed + 1 ≤ p'.length) ∨
    limit < pre.length + needed + 1 ∧ ∃ p', p.ensure memory needed = (false, p') := by
  obtain ⟨post, hbuffer, hblock⟩ := h.block
  have hroom := h.room
  have hlimit := h.limit_le
  have hoffset := h.offset_eq
  have hlength := h.length_le
  have hcap := h.length_le_limit
  unfold ensure
  rw [hbuffer, hoffset]
  dsimp only
  rw [if_neg (by omega)]
  split
  · exact Or.inr ⟨by omega, p, rfl⟩
  split
  · exact Or.inl ⟨p, rfl, h, by omega⟩
  rename_i hmore
  split
  · -- the block cannot grow
    rename_i hnoalloc
    have heq := h.limit_eq
    rw [capacity, if_pos hnoalloc] at heq
    exact Or.inr ⟨by omega, p, rfl⟩
  rename_i hnoalloc
  have hgranted : ∀ size, memory.granted size = true := h.granted.resolve_left hnoalloc
  have hgrow : ∀ size, pre.length + needed + 1 ≤ size → size ≤ LLONG_MAX →
      ∃ p', p.grow memory (pre ++ post) size = (true, p') ∧
        At memory limit format depth pre pre.length p' ∧ pre.length + needed + 1 ≤ p'.length := by
    intro size hle hmax
    obtain ⟨post', heq, hpost⟩ := 
      grow_spec (p := p) hgranted (show pre.length ≤ size by omega) ⟨post, rfl⟩
    refine ⟨{ p with buffer := some (pre ++ post'), length := size }, heq, ?_, hle⟩
    refine ⟨?_, h.format_eq, h.depth_eq, Or.inr hgranted, hmax, ⟨post', rfl, hpost⟩,
      h.offset_eq, Or.inr ?_⟩
    · rw [← h.limit_eq, capacity, capacity, if_neg hnoalloc, if_neg hnoalloc]
    · exact Nat.lt_of_lt_of_le (by omega) hle
  have hunlimited : limit = LLONG_MAX := by
    rw [← h.limit_eq, capacity, if_neg hnoalloc]
  have hmax : LLONG_MAX = 9223372036854775807 := rfl
  split
  · split
    · exact Or.inl (hgrow LLONG_MAX (by omega) (Nat.le_refl _))
    · exact Or.inr ⟨by omega, p, rfl⟩
  · exact Or.inl (hgrow _ (by omega) (by omega))

/-- Stores behind what is written. -/
theorem write_spec {pos : Nat} {post : List UInt8} (hbuffer : p.buffer = some (written ++ post))
    (hpos : p.offset + pos = written.length) (hroom : bytes.length ≤ post.length) :
    p.write pos bytes
      = .ok { p with buffer := some (written ++ bytes ++ post.drop bytes.length) } := by
  rw [write, hbuffer, hpos]
  dsimp only
  rw [Block.store_append written post bytes hroom]

theorem emit_spec (h : At memory limit format depth pre pre.length p)
    (hbytes : bytes.length ≤ needed + 1) (hn : n ≤ needed) :
    Does limit (pre.length + needed + 1) (p.emit memory needed bytes n) fun p' =>
      At memory limit format depth (pre ++ bytes) (pre.length + n) p' ∧
        pre.length + needed + 1 ≤ p'.length := by
  unfold emit
  rcases ensure_spec h needed with ⟨p', heq, hp', hle⟩ | ⟨hlt, p', heq⟩
  · obtain ⟨post, hbuffer, hblock⟩ := hp'.block
    have hoffset := hp'.offset_eq
    rw [heq]
    dsimp only
    rw [write_spec hbuffer (by rw [hoffset, Nat.add_zero]) (by omega)]
    refine Or.inl ⟨_, rfl, ?_, hle⟩
    refine ⟨hp'.limit_eq, hp'.format_eq, hp'.depth_eq, hp'.granted, hp'.length_le,
      ⟨post.drop bytes.length, rfl, ?_⟩, congrArg (· + n) hoffset, Or.inr ?_⟩
    · rw [List.length_append, List.length_drop]
      exact Nat.le_trans hblock (by omega)
    · exact Nat.lt_of_lt_of_le (by omega) hle
  · rw [heq]
    exact Or.inr ⟨hlt, p', rfl⟩

/-- A text with its NUL, in one piece. -/
theorem emit_printed {slack : Nat} (h : At memory limit format depth pre pre.length p)
    (text : List UInt8)
    (hneeded : needed + 1 = text.length + slack) (hslack : 0 < slack) (hn : n ≤ text.length)
    (hn' : n ≤ needed) :
    Does limit (pre.length + text.length + slack) (p.emit memory needed (text ++ [0]) n)
      (Printed memory limit format depth pre text slack) := by
  have hbytes : (text ++ [0]).length ≤ needed + 1 := by
    rw [List.length_append, List.length_singleton]
    omega
  exact (emit_spec h hbytes hn').mono (by omega) fun p' hp' =>
    ⟨pre.length + n, hp'.1, by omega, by omega, by omega⟩

/-- The offset moves behind the text. -/
theorem updateOffset_spec {slack : Nat} (h : Printed memory limit format depth pre text slack p)
    (htext : 0 ∉ text) (hslack : 0 < slack) :
    ∃ p', p.updateOffset = .ok p' ∧
      At memory limit format depth (pre ++ text) (pre ++ text).length p' := by
  obtain ⟨k, hat, hlow, hhigh, hlength⟩ := h
  obtain ⟨post, hbuffer, hblock⟩ := hat.block
  have hoffset := hat.offset_eq
  have hrest : (pre ++ (text ++ [0]) ++ post).drop k
      = text.drop (k - pre.length) ++ 0 :: post := by
    rw [List.append_assoc, List.drop_append, List.drop_eq_nil_of_le hlow, List.nil_append,
      List.append_assoc, List.drop_append_of_le_length (by omega)]
    rfl
  have hstrlen : ((text.drop (k - pre.length) ++ 0 :: post).takeWhile (· != 0)).length
      = text.length - (k - pre.length) := by
    rw [List.takeWhile_append_of_pos, List.takeWhile_cons_of_neg (by simp), List.append_nil,
      List.length_drop]
    intro b hb
    rw [bne_iff_ne]
    rintro rfl
    exact htext (List.mem_of_mem_drop hb)
  refine ⟨{ p with offset := (pre ++ text).length }, ?_, ?_⟩
  · rw [updateOffset, hbuffer, hoffset]
    dsimp only
    rw [hrest, if_pos (by simp), hstrlen]
    rw [List.length_append]
    congr 2
    omega
  · rw [← List.append_assoc] at hat
    refine { hat.take with offset_eq := rfl, limit_eq := hat.limit_eq, room := Or.inr ?_ }
    rw [List.length_append]
    exact Nat.lt_of_lt_of_le (by omega) hlength

/-! ## Strings -/

theorem escapeCharacters_eq : ∀ bs : List UInt8,
    (escaped bs).length = bs.length + escapeCharacters bs
  | [] => rfl
  | b :: bs => by
      have ih := escapeCharacters_eq bs
      rw [escaped, escapeCharacters, List.length_append, ih, List.length_cons, escapeByte]
      cases shortEscape b with
      | some c =>
          simp only [List.length_cons, List.length_nil, Option.isSome_some, if_true]
          omega
      | none =>
          simp only [Option.isSome_none, Bool.false_eq_true, if_false]
          split
          · simp only [List.length_cons, unicodeEscape, List.length_nil]
            omega
          · simp only [List.length_singleton]
            omega

/-- Without escapes a string is copied as it is. -/
theorem escaped_of_zero : ∀ {bs : List UInt8}, escapeCharacters bs = 0 → escaped bs = bs
  | [], _ => rfl
  | b :: bs, h => by
      rw [escapeCharacters] at h
      rw [escaped]
      split at h
      · omega
      split at h
      · omega
      rename_i hshort hlow
      have hnone : shortEscape b = none := by simpa using hshort
      rw [escapeByte, hnone, escaped_of_zero h]
      simp [hlow]

theorem escapeByte_of_plain {b : UInt8} (h : 31 < b ∧ b ≠ quote ∧ b ≠ backslash) :
    escapeByte b = [b] := by
  have hcontrol : ∀ c : UInt8, ¬ 31 < c → b ≠ c := by
    rintro c hc rfl
    exact hc h.1
  have hnone : shortEscape b = none := by
    rw [shortEscape, if_neg h.2.2, if_neg h.2.1, if_neg (hcontrol 8 (by decide)),
      if_neg (hcontrol 12 (by decide)), if_neg (hcontrol 10 (by decide)),
      if_neg (hcontrol 13 (by decide)), if_neg (hcontrol 9 (by decide))]
  have hlow : ¬ b < 32 := by
    have hlt := UInt8.lt_iff_toNat_lt.mp h.1
    rw [UInt8.lt_iff_toNat_lt]
    have h31 : (31 : UInt8).toNat = 31 := rfl
    have h32 : (32 : UInt8).toNat = 32 := rfl
    omega
  rw [escapeByte, hnone]
  exact if_neg hlow

theorem lt_of_not_plain {b : UInt8} (h : ¬ (31 < b ∧ b ≠ quote ∧ b ≠ backslash))
    (hnone : shortEscape b = none) : b < 32 := by
  have hb : b ≠ backslash := by
    rintro rfl
    exact absurd hnone (by decide)
  have hq : b ≠ quote := by
    rintro rfl
    exact absurd hnone (by decide)
  have hlow : ¬ 31 < b := fun hlt => h ⟨hlt, hq, hb⟩
  rw [UInt8.lt_iff_toNat_lt] at hlow ⊢
  have h31 : (31 : UInt8).toNat = 31 := rfl
  have h32 : (32 : UInt8).toNat = 32 := rfl
  omega

/-- The second loop of `print_string_ptr`. A NUL may be left behind the escapes. -/
theorem writeEscaped_spec : ∀ (bs : List UInt8) {written post : List UInt8} {pos : Nat}
    {p : PrintBuffer}, p.buffer = some (written ++ post) → p.offset + pos = written.length →
    (escaped bs).length + 1 ≤ post.length →
    ∃ post', writeEscaped bs pos p
        = .ok { p with buffer := some (written ++ escaped bs ++ post') } ∧
      post'.length + (escaped bs).length = post.length
  | [], written, post, pos, p, hbuffer, _, _ => by
      refine ⟨post, ?_, rfl⟩
      rw [escaped, List.append_nil, ← hbuffer]
      rfl
  | b :: bs, written, post, pos, p, hbuffer, hpos, hroom => by
      rw [escaped, List.length_append] at hroom
      -- what is left, once the byte is written and `post'` is behind it
      have hrest : ∀ (post' : List UInt8) (pos' : Nat), pos' = pos + (escapeByte b).length →
          post'.length + (escapeByte b).length = post.length →
          ∃ post'',
            writeEscaped bs pos' { p with buffer := some (written ++ escapeByte b ++ post') }
              = .ok { p with buffer := some (written ++ escaped (b :: bs) ++ post'') } ∧
            post''.length + (escaped (b :: bs)).length = post.length := by
        intro post' pos' hpos' hlength
        have hpos'' : p.offset + pos' = (written ++ escapeByte b).length := by
          rw [List.length_append]
          omega
        obtain ⟨post'', heq, hpost⟩ := writeEscaped_spec bs
          (p := { p with buffer := some (written ++ escapeByte b ++ post') }) rfl hpos'' (by omega)
        refine ⟨post'', ?_, ?_⟩
        · rw [heq, escaped, List.append_assoc written]
        · rw [escaped, List.length_append]
          omega
      rw [writeEscaped]
      split
      · -- a byte as it is
        rename_i hplain
        have hone := escapeByte_of_plain hplain
        rw [hone] at hrest hroom
        simp only [List.length_singleton] at hrest hroom
        rw [write_spec hbuffer hpos (by rw [List.length_singleton]; omega)]
        exact hrest _ _ rfl (by rw [List.length_drop, List.length_singleton]; omega)
      · rename_i hplain
        rw [write_spec hbuffer hpos (by rw [List.length_singleton]; omega)]
        dsimp only [bind, Except.bind]
        have hpos' : p.offset + (pos + 1) = (written ++ [backslash]).length := by
          rw [List.length_append, List.length_singleton]
          omega
        cases hshort : shortEscape b with
        | some c =>
            -- an escape of two bytes
            have htwo : escapeByte b = [backslash, c] := by rw [escapeByte, hshort]
            rw [htwo] at hrest hroom
            simp only [List.length_cons, List.length_nil] at hrest hroom
            dsimp only
            rw [write_spec (p := { p with buffer := _ }) rfl hpos'
              (by rw [List.length_drop, List.length_singleton, List.length_singleton]; omega)]
            dsimp only
            rw [List.append_assoc written]
            exact hrest _ _ rfl (by simp only [List.length_drop, List.length_singleton]; omega)
        | none =>
            -- an escape of six bytes, and the NUL of `sprintf`
            have hsix : escapeByte b = backslash :: unicodeEscape b := by
              rw [escapeByte, hshort]
              exact if_pos (lt_of_not_plain hplain hshort)
            have hlength : (unicodeEscape b).length = 5 := rfl
            rw [hsix] at hrest hroom
            simp only [List.length_cons, hlength] at hrest hroom
            dsimp only
            rw [write_spec (p := { p with buffer := _ }) rfl hpos' (by
              rw [List.length_drop, List.length_append, List.length_singleton,
                List.length_singleton]
              omega)]
            have happend : ∀ rest : List UInt8,
                written ++ [backslash] ++ (unicodeEscape b ++ [0]) ++ rest
                  = written ++ (backslash :: unicodeEscape b) ++ ([0] ++ rest) := by
              intro rest
              simp only [List.append_assoc, List.cons_append, List.nil_append]
            dsimp only
            rw [happend]
            refine hrest _ _ rfl ?_
            simp only [List.length_append, List.length_drop, List.length_singleton, hlength]
            omega

theorem printStringPtr_spec (h : At memory limit format depth pre pre.length p) (s : CString) :
    Does limit (pre.length + (quoted s).length + 2) (printStringPtr memory s p)
      (Printed memory limit format depth pre (quoted s) 2) := by
  have hescaped := escapeCharacters_eq s.bytes
  have hlength : (quoted s).length = s.bytes.length + escapeCharacters s.bytes + 2 := by
    rw [quoted, List.length_cons, List.length_append, List.length_singleton, hescaped]
  unfold printStringPtr
  dsimp only
  rcases ensure_spec h (s.bytes.length + escapeCharacters s.bytes + 3) with
    ⟨p', heq, hp', hle⟩ | ⟨hlt, p', heq⟩
  · obtain ⟨post, hbuffer, hblock⟩ := hp'.block
    have hoffset := hp'.offset_eq
    rw [heq]
    dsimp only
    rw [write_spec hbuffer (by rw [hoffset, Nat.add_zero])
      (by rw [List.length_singleton]; omega)]
    dsimp only [bind, Except.bind]
    -- the inside of the string, whichever way it is written
    obtain ⟨post', hinside, hpost⟩ : ∃ post',
        writeInside s.bytes { p' with buffer := some (pre ++ [quote] ++ post.drop 1) }
          = .ok { p' with buffer := some (pre ++ [quote] ++ escaped s.bytes ++ post') } ∧
        post'.length + (escaped s.bytes).length + 1 = post.length := by
      have hpos : p'.offset + 1 = (pre ++ [quote]).length := by
        rw [List.length_append, List.length_singleton, hoffset]
      unfold writeInside
      split
      · rename_i hzero
        rw [escaped_of_zero hzero]
        rw [write_spec (p := { p' with buffer := _ }) rfl hpos (by rw [List.length_drop]; omega)]
        refine ⟨_, rfl, ?_⟩
        simp only [List.length_drop]
        omega
      · obtain ⟨post', heq', hpost⟩ := writeEscaped_spec s.bytes
          (p := { p' with buffer := some (pre ++ [quote] ++ post.drop 1) }) rfl hpos
          (by rw [List.length_drop]; omega)
        refine ⟨post', heq', ?_⟩
        rw [List.length_drop] at hpost
        omega
    have hdrop : (post.drop [quote].length) = post.drop 1 := rfl
    rw [hdrop, hinside]
    dsimp only
    rw [write_spec (p := { p' with buffer := _ }) rfl (by
      simp only [List.length_append, List.length_singleton]
      omega) (by
      simp only [List.length_cons, List.length_nil]
      omega)]
    refine Or.inl ⟨_, rfl, pre.length, ?_, Nat.le_refl _, by omega, by dsimp only; omega⟩
    refine ⟨hp'.limit_eq, hp'.format_eq, hp'.depth_eq, hp'.granted, hp'.length_le,
      ⟨post'.drop 2, ?_, ?_⟩, hoffset, hp'.room⟩
    · simp [quoted]
    · dsimp only
      simp only [List.length_append, List.length_drop, List.length_singleton]
      omega
  · rw [heq]
    exact Or.inr ⟨by omega, p', rfl⟩

/-! ## Items -/

/-- How many bytes more than its text an item asks for. -/
def slack : Item → Nat
  | .number _ => 1
  | _ => 2

theorem slack_cases (item : Item) : 0 < slack item ∧ slack item ≤ 2 := by
  cases item with
  | number d => exact ⟨Nat.one_pos, Nat.le_succ 1⟩
  | _ => exact ⟨Nat.two_pos, Nat.le_refl 2⟩

theorem printWord_spec (h : At memory limit format depth pre pre.length p) (word : List UInt8) :
    Does limit (pre.length + word.length + 2) (printWord memory word p)
      (Printed memory limit format depth pre word 2) :=
  emit_printed h word rfl Nat.two_pos (Nat.zero_le _) (Nat.zero_le _)

theorem printNumberItem_spec (h : At memory limit format depth pre pre.length p) (d : Double) :
    Does limit (pre.length + (numberBuffer d).length + 1) (printNumberItem memory d p)
      (Printed memory limit format depth pre (numberBuffer d) 1) := by
  unfold printNumberItem
  rw [printNumber_eq]
  exact emit_printed h _ rfl Nat.one_pos (Nat.le_refl _) (Nat.le_refl _)

/-- Bytes the offset moves behind of. -/
theorem emit_append (h : At memory limit format depth pre pre.length p) (bytes : List UInt8)
    (hneeded : bytes.length ≤ needed) (tail : List UInt8) (htail : tail.length ≤ 1) :
    Does limit (pre.length + needed + 1) (p.emit memory needed (bytes ++ tail) bytes.length)
      (At memory limit format depth (pre ++ bytes) (pre ++ bytes).length) := by
  refine (emit_spec h ?_ hneeded).mono (Nat.le_refl _) fun p' hp' => ?_
  · rw [List.length_append]
    omega
  · have hat := hp'.1
    rw [← List.append_assoc] at hat
    rw [List.length_append]
    exact hat.take

theorem printIndent_spec (h : At memory limit format depth pre pre.length p) :
    Does limit (pre.length + (formatted format (tabs depth)).length + 1) (printIndent memory p)
      (At memory limit format depth (pre ++ formatted format (tabs depth))
        (pre ++ formatted format (tabs depth)).length) := by
  unfold printIndent
  rw [h.format_eq, h.depth_eq]
  have htabs : (tabs depth).length = depth := List.length_replicate
  cases format with
  | true =>
      have hemit := emit_append h (tabs depth) (Nat.le_of_eq htabs) [] (Nat.zero_le 1)
      rw [List.append_nil, htabs] at hemit
      simp only [formatted, if_true, htabs]
      exact hemit
  | false =>
      simp only [formatted, Bool.false_eq_true, if_false, List.append_nil]
      exact .done h

mutual

/-- **What a printer does**: it prints the text of its item, or the text does not
fit. -/
theorem printValue_spec : ∀ (item : Item) {depth : Nat} {pre : List UInt8} {p : PrintBuffer},
    At memory limit format depth pre pre.length p →
    Does limit (pre.length + (render format depth item).length + slack item)
      (printValue memory item p)
      (Printed memory limit format depth pre (render format depth item) (slack item))
  | .null, _, _, _, h => printWord_spec h (literal "null")
  | .false, _, _, _, h => printWord_spec h (literal "false")
  | .true, _, _, _, h => printWord_spec h (literal "true")
  | .number d, _, _, _, h => printNumberItem_spec h d
  | .string s, _, _, _, h => printStringPtr_spec h s
  | .raw s, _, _, _, h => printWord_spec h s.bytes
  | .array child, depth, pre, p, h => by
      rw [printValue, render]
      have hopen := emit_append h [ascii '['] (Nat.le_refl 1) [] (Nat.zero_le 1)
      have hlength : (ascii '[' :: (renderElements format (depth + 1) child ++ [ascii ']'])).length
          = (renderElements format (depth + 1) child).length + 2 := by
        rw [List.length_cons, List.length_append, List.length_singleton]
      have hslack : slack (.array child) = 2 := rfl
      rw [hlength, hslack]
      refine hopen.seq (by omega) fun p₁ h₁ => ?_
      rw [h₁.depth_eq]
      refine (printElements_spec child (h₁.setDepth (depth + 1))).seq ?_ fun p₂ h₂ => ?_
      · rw [List.length_append, List.length_singleton]
        omega
      have hclose := emit_printed (n := 0) h₂ [ascii ']'] (show 2 + 1 = 1 + 2 from rfl) Nat.two_pos
        (Nat.zero_le _) (Nat.zero_le _)
      refine hclose.seq ?_ fun p₃ h₃ => ?_
      · simp only [List.length_append, List.length_singleton]
        omega
      rw [h₃.depth_eq]
      exact .done (h₃.prepend.prepend.setDepth depth)
  | .object child, depth, pre, p, h => by
      rw [printValue, render]
      dsimp only
      rw [h.format_eq]
      have hslack : slack (.object child) = 2 := rfl
      have hopen := emit_append h (ascii '{' :: formatted format [10]) (Nat.le_succ _) []
        (Nat.zero_le 1)
      rw [List.append_nil] at hopen
      rw [← List.cons_append, hslack]
      generalize ascii '{' :: formatted format [10] = opening at hopen ⊢
      refine hopen.seq ?_ fun p₁ h₁ => ?_
      · simp only [List.length_append, List.length_singleton]
        omega
      rw [h₁.depth_eq]
      refine (printMembers_spec child (h₁.setDepth (depth + 1))).seq ?_ fun p₂ h₂ => ?_
      · simp only [List.length_append, List.length_singleton]
        omega
      rw [h₂.format_eq, h₂.depth_eq, Nat.add_sub_cancel]
      have hneeded : (if format = true then depth + 1 + 1 else 2) + 1
          = (formatted format (tabs depth) ++ [ascii '}']).length + 2 := by
        cases format with
        | true => simp [formatted, tabs]
        | false => rfl
      have hclose := emit_printed (n := 0) h₂ _ hneeded Nat.two_pos (Nat.zero_le _) (Nat.zero_le _)
      rw [List.append_assoc _ _ [0], List.singleton_append] at hclose
      refine hclose.seq ?_ fun p₃ h₃ => ?_
      · simp only [List.length_append, List.length_singleton]
        omega
      rw [h₃.depth_eq]
      exact .done (h₃.prepend.prepend.setDepth depth)

theorem printElements_spec : ∀ (items : List Item) {depth : Nat} {pre : List UInt8}
    {p : PrintBuffer}, At memory limit format depth pre pre.length p →
    Does limit (pre.length + (renderElements format depth items).length + 2)
      (printElements memory items p)
      (At memory limit format depth (pre ++ renderElements format depth items)
        (pre ++ renderElements format depth items).length)
  | [], depth, pre, p, h => by
      rw [renderElements, List.append_nil]
      exact .done h
  | item :: items, depth, pre, p, h => by
      rw [printElements, renderElements]
      have hslack := slack_cases item
      refine (printValue_spec item h).seq ?_ fun p₁ h₁ => ?_
      · rw [List.length_append]
        omega
      obtain ⟨p₂, hupdate, h₂⟩ := updateOffset_spec h₁ (nulFree_render _ _ _) hslack.1
      rw [hupdate]
      dsimp only [bind, Except.bind]
      cases items with
      | nil =>
          simp only [List.isEmpty_nil, if_true, renderElements, List.append_nil]
          exact .done h₂
      | cons item' items =>
          rw [h₂.format_eq]
          have hcomma := emit_append h₂ (ascii ',' :: formatted format [32]) (Nat.le_succ _) [0]
            (Nat.le_refl 1)
          simp only [List.isEmpty_cons, Bool.false_eq_true, if_false]
          generalize ascii ',' :: formatted format [32] = separator at hcomma ⊢
          refine hcomma.seq ?_ fun p₃ h₃ => ?_
          · simp only [List.length_append]
            omega
          refine (printElements_spec (item' :: items) h₃).mono ?_ fun p₄ h₄ => ?_
          · simp only [List.length_append]
            omega
          · simp only [List.append_assoc] at h₄ ⊢
            exact h₄

theorem printMembers_spec : ∀ (members : List (CString × Item)) {depth : Nat} {pre : List UInt8}
    {p : PrintBuffer}, At memory limit format depth pre pre.length p →
    Does limit (pre.length + (renderMembers format depth members).length + 2)
      (printMembers memory members p)
      (At memory limit format depth (pre ++ renderMembers format depth members)
        (pre ++ renderMembers format depth members).length)
  | [], depth, pre, p, h => by
      rw [renderMembers, List.append_nil]
      exact .done h
  | (name, item) :: members, depth, pre, p, h => by
      rw [printMembers, renderMembers]
      have hslack := slack_cases item
      refine (printIndent_spec h).seq ?_ fun p₁ h₁ => ?_
      · simp only [List.length_append]
        omega
      refine (printStringPtr_spec h₁ name).seq ?_ fun p₂ h₂ => ?_
      · simp only [List.length_append, List.length_cons]
        omega
      obtain ⟨p₃, hupdate, h₃⟩ := updateOffset_spec h₂ (nulFree_quoted name) Nat.two_pos
      rw [hupdate]
      dsimp only [bind, Except.bind]
      rw [h₃.format_eq]
      have hcolon := emit_append h₃ (ascii ':' :: formatted format [9]) (Nat.le_refl _) []
        (Nat.zero_le 1)
      rw [List.append_nil] at hcolon
      generalize ascii ':' :: formatted format [9] = colon at hcolon ⊢
      refine hcolon.seq ?_ fun p₄ h₄ => ?_
      · simp only [List.length_append]
        omega
      refine (printValue_spec item h₄).seq ?_ fun p₅ h₅ => ?_
      · simp only [List.length_append]
        omega
      obtain ⟨p₆, hupdate', h₆⟩ := updateOffset_spec h₅ (nulFree_render _ _ _) hslack.1
      rw [hupdate']
      dsimp only
      rw [h₆.format_eq]
      have hcomma := emit_append h₆
        ((if members.isEmpty then [] else [ascii ',']) ++ formatted format [10])
        (Nat.le_succ _) [0] (Nat.le_refl 1)
      generalize (if members.isEmpty then [] else [ascii ',']) ++ formatted format [10]
        = separator at hcomma ⊢
      refine hcomma.seq ?_ fun p₇ h₇ => ?_
      · simp only [List.length_append]
        omega
      refine (printMembers_spec members h₇).mono ?_ fun p₈ h₈ => ?_
      · simp only [List.length_append]
        omega
      · simp only [List.append_assoc] at h₈ ⊢
        exact h₈

end

end KernelTestkit.Json
