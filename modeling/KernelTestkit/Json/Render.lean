/-
KernelTestkit.Json.Render — the text of an item.

What the printer of cjson.c computes, without its buffer. A formatted text has
each member of an object on a line of its own, indented by tabs; the elements
of an array stand on one line.

* `value_render` — without raw texts, the text of an item is JSON that denotes
  the item, with null in place of the infinities.
-/
import KernelTestkit.Json.GrammarTheorems
import KernelTestkit.Json.Print

namespace KernelTestkit.Json

open KernelTestkit.Lib
open KernelTestkit.Api (CString cstringOf)

/-- A byte inside a string. -/
def escapeByte (b : UInt8) : List UInt8 :=
  match shortEscape b with
  | some c => [backslash, c]
  | none => if b < 32 then backslash :: unicodeEscape b else [b]

def escaped : List UInt8 → List UInt8
  | [] => []
  | b :: bs => escapeByte b ++ escaped bs

def quoted (s : CString) : List UInt8 := quote :: (escaped s.bytes ++ [quote])

mutual

def render (format : Bool) (depth : Nat) : Item → List UInt8
  | .null => literal "null"
  | .false => literal "false"
  | .true => literal "true"
  | .number d => numberBuffer d
  | .string s => quoted s
  | .raw s => s.bytes
  | .array child => ascii '[' :: (renderElements format (depth + 1) child ++ [ascii ']'])
  | .object child =>
      ascii '{' :: (formatted format [10] ++ (renderMembers format (depth + 1) child ++
        (formatted format (tabs depth) ++ [ascii '}'])))

def renderElements (format : Bool) (depth : Nat) : List Item → List UInt8
  | [] => []
  | item :: items =>
      render format depth item ++
        ((if items.isEmpty then [] else ascii ',' :: formatted format [32]) ++
          renderElements format depth items)

def renderMembers (format : Bool) (depth : Nat) : List (CString × Item) → List UInt8
  | [] => []
  | (name, item) :: members =>
      formatted format (tabs depth) ++ (quoted name ++ (ascii ':' :: formatted format [9] ++
        (render format depth item ++
          ((if members.isEmpty then [] else [ascii ',']) ++ formatted format [10] ++
            renderMembers format depth members))))

end

/-! ## What a text denotes -/

mutual

/-- The item that is left of a number that is infinite. -/
def Item.printed : Item → Item
  | .number (.infinite _) => .null
  | .array child => .array (printedElements child)
  | .object child => .object (printedMembers child)
  | item => item

def Item.printedElements : List Item → List Item
  | [] => []
  | item :: items => item.printed :: printedElements items

def Item.printedMembers : List (CString × Item) → List (CString × Item)
  | [] => []
  | (name, item) :: members => (name, item.printed) :: printedMembers members

end

theorem cstringOf_bytes (s : CString) : cstringOf s.bytes = s := by
  refine Api.CString.ext_bytes ?_
  simp only [cstringOf]
  rw [List.takeWhile_eq_self_iff]
  intro b hb
  rw [bne_iff_ne]
  rintro rfl
  exact s.nulFree hb

theorem simpleEscape_of_shortEscape {b c : UInt8} (h : shortEscape b = some c) :
    simpleEscape c = some b := by
  unfold shortEscape at h
  split_ifs at h with h₁ h₂ h₃ h₄ h₅ h₆ h₇ <;> obtain rfl := Option.some.inj h
  · rw [h₁]
    rfl
  · rw [h₂]
    rfl
  · rw [h₃]
    rfl
  · rw [h₄]
    rfl
  · rw [h₅]
    rfl
  · rw [h₆]
    rfl
  · rw [h₇]
    rfl

theorem hexDigit_hexChar : ∀ n < 16, hexDigit (hexChar n) = some n := by decide

/-- The text of a string is its escapes. -/
theorem chars_escaped : ∀ bs : List UInt8, Chars (escaped bs) bs
  | [] => .nil
  | b :: bs => by
      have ih := chars_escaped bs
      rw [escaped, escapeByte]
      cases hshort : shortEscape b with
      | some c => exact .escape (simpleEscape_of_shortEscape hshort) ih
      | none =>
          dsimp only
          split
          · -- a control character
            rename_i hlow
            have hlt : b.toNat < 32 := UInt8.lt_iff_toNat_lt.mp hlow
            obtain ⟨c, hc⟩ := exists_toNat_eq (n := b.toNat) (by omega)
            have hhex : hex4 [ascii '0', ascii '0', hexChar (b.toNat / 16), hexChar (b.toNat % 16)]
                = some c.toNat := by
              have hhigh := hexDigit_hexChar (b.toNat / 16) (by omega)
              have hlow' := hexDigit_hexChar (b.toNat % 16) (by omega)
              have hzero : hexDigit (ascii '0') = some 0 := rfl
              simp only [hex4, List.take_succ_cons, List.take_zero, List.foldlM_cons,
                List.foldlM_nil, hzero, hhigh, hlow', Option.map_some, Nat.shiftLeft_eq,
                Option.bind_eq_bind, Option.bind_some, Option.pure_def, hc]
              congr 1
              omega
            have hutf8 : String.utf8EncodeChar c = [b] := by
              have hval : c.val.toNat = b.toNat := hc
              unfold String.utf8EncodeChar
              rw [if_pos (by omega), hval, UInt8.ofNat_toNat]
            have hchars := Chars.code rfl hhex ih
            rw [hutf8] at hchars
            exact hchars
          · -- a byte as it is
            rename_i hlow
            have hq : b ≠ quote := by
              rintro rfl
              exact absurd hshort (by decide)
            have hb : b ≠ backslash := by
              rintro rfl
              exact absurd hshort (by decide)
            exact .plain (UInt8.not_lt.mp hlow) hq hb ih

theorem blanks_nil : Blanks [] := fun _ h => absurd h List.not_mem_nil

theorem Blanks.append {ws ws' : List UInt8} (h : Blanks ws) (h' : Blanks ws') :
    Blanks (ws ++ ws') := List.forall_mem_append.mpr ⟨h, h'⟩

theorem Blanks.formatted {ws : List UInt8} (h : Blanks ws) (format : Bool) :
    Blanks (formatted format ws) := by
  unfold Json.formatted
  split
  · exact h
  · exact blanks_nil

theorem blanks_tabs (n : Nat) : Blanks (tabs n) := fun _ hb =>
  Or.inr (Or.inl (List.eq_of_mem_replicate hb))

theorem blanks_space : Blanks [32] := fun _ hb => Or.inl (List.mem_singleton.mp hb)

theorem blanks_tab : Blanks [9] := fun _ hb => Or.inr (Or.inl (List.mem_singleton.mp hb))

theorem blanks_newline : Blanks [10] := fun _ hb =>
  Or.inr (Or.inr (Or.inl (List.mem_singleton.mp hb)))

/-- A finite number has a text that denotes it when it is rounded. -/
theorem numberText_numberBuffer (s : Bool) (m : Magnitude) :
    ∃ t q, NumberText t q ∧ numberBuffer (.finite s m) = signedText s t ∧
      Double.round s q = .finite s m := by
  obtain ⟨P, hP, htext⟩ : ∃ P, 0 < P ∧ numberBuffer (.finite s m) = sprintfG P s m := by
    simp only [numberBuffer]
    split
    · exact ⟨15, by decide, rfl⟩
    · exact ⟨17, by decide, rfl⟩
  have hscan := strtod_numberBuffer s m
  rw [htext, strtod_sprintfG hP] at hscan
  exact ⟨_, _, numberText_formatGeneral hP m.value_nonneg, htext, (Prod.mk.inj hscan).1⟩

/-- The text of a finite number. -/
theorem value_numberBuffer (n : Nat) (s : Bool) (m : Magnitude) :
    Value Blanks n (numberBuffer (.finite s m)) (.number (.finite s m)) := by
  obtain ⟨t, q, htext, heq, hround⟩ := numberText_numberBuffer s m
  have hlength := length_numberBuffer_le (.finite s m)
  rw [heq] at hlength ⊢
  have hvalue := Value.number (G := Blanks) (n := n) htext (Nat.le_trans hlength (by decide))
  rwa [hround] at hvalue

mutual

/-- **The text of an item is JSON** that denotes what is left of it. -/
theorem value_render : ∀ {item : Item} {n : Nat} (format : Bool) (depth : Nat),
    item.nesting ≤ n → item.rawFree = true → Value Blanks n (render format depth item) item.printed
  | .null, _, _, _, _, _ => .null
  | .false, _, _, _, _, _ => .false
  | .true, _, _, _, _, _ => .true
  | .number (.infinite _), _, _, _, _, _ => .null
  | .number (.finite s m), n, _, _, _, _ => value_numberBuffer n s m
  | .string s, n, _, _, _, _ => by
      have hvalue := Value.string (G := Blanks) (n := n) (chars_escaped s.bytes)
      rwa [cstringOf_bytes] at hvalue
  | .raw _, _, _, _, _, hraw => absurd hraw Bool.false_ne_true
  | .array [], n + 1, _, _, _, _ => .emptyArray blanks_nil
  | .array (item :: items), n + 1, format, depth, hnesting, hraw =>
      .array (elements_render format (depth + 1) (List.cons_ne_nil item items) blanks_nil
        (Nat.le_of_succ_le_succ hnesting) hraw)
  | .object [], n + 1, format, depth, _, _ => by
      have hblanks := (blanks_newline.formatted format).append
        ((blanks_tabs depth).formatted format)
      have hvalue := Value.emptyObject (n := n) hblanks
      rw [List.append_assoc] at hvalue
      exact hvalue
  | .object (member :: members), n + 1, format, depth, hnesting, hraw => by
      have hmembers := members_render format (depth + 1) (List.cons_ne_nil member members)
        (blanks_newline.formatted format) ((blanks_tabs depth).formatted format)
        (Nat.le_of_succ_le_succ hnesting) hraw
      have hvalue := Value.object hmembers
      rw [List.append_assoc, List.append_assoc] at hvalue
      exact hvalue
  | .array _, 0, _, _, hnesting, _ => absurd hnesting (Nat.not_succ_le_zero _)
  | .object _, 0, _, _, hnesting, _ => absurd hnesting (Nat.not_succ_le_zero _)

/-- The blanks in front of an element are the ones behind the comma before it. -/
theorem elements_render : ∀ {items : List Item} {n : Nat} {ws : List UInt8} (format : Bool)
    (depth : Nat), items ≠ [] → Blanks ws → Item.nestingElements items ≤ n →
    Item.rawFreeElements items = true →
    Elements Blanks n (ws ++ renderElements format depth items) (Item.printedElements items)
  | [], _, _, _, _, hne, _, _, _ => absurd rfl hne
  | [item], n, ws, format, depth, _, hws, hnesting, hraw => by
      have hvalue : Value Blanks n (render format depth item) item.printed :=
        value_render format depth (Nat.max_le.mp hnesting).1 (Bool.and_eq_true_iff.mp hraw).1
      exact .last (.mk hws hvalue blanks_nil)
  | item :: item' :: items, n, ws, format, depth, _, hws, hnesting, hraw => by
      have hvalue : Value Blanks n (render format depth item) item.printed :=
        value_render format depth (Nat.max_le.mp hnesting).1 (Bool.and_eq_true_iff.mp hraw).1
      have hmore := elements_render format depth (List.cons_ne_nil item' items)
        (blanks_space.formatted format) (Nat.max_le.mp hnesting).2 (Bool.and_eq_true_iff.mp hraw).2
      have helements := Elements.more (.mk hws hvalue blanks_nil) hmore
      rw [List.append_nil, List.append_assoc] at helements
      exact helements

theorem members_render : ∀ {members : List (CString × Item)} {n : Nat} {ws ws' : List UInt8}
    (format : Bool) (depth : Nat), members ≠ [] → Blanks ws → Blanks ws' →
    Item.nestingMembers members ≤ n → Item.rawFreeMembers members = true →
    Members Blanks n (ws ++ (renderMembers format depth members ++ ws'))
      (Item.printedMembers members)
  | [], _, _, _, _, _, hne, _, _, _, _ => absurd rfl hne
  | [(name, item)], n, ws, ws', format, depth, _, hws, hws', hnesting, hraw => by
      have hvalue : Value Blanks n (render format depth item) item.printed :=
        value_render format depth (Nat.max_le.mp hnesting).1 (Bool.and_eq_true_iff.mp hraw).1
      have hmember := Member.mk (hws.append ((blanks_tabs depth).formatted format))
        (chars_escaped name.bytes) blanks_nil
        (.mk (blanks_tab.formatted format) hvalue ((blanks_newline.formatted format).append hws'))
      rw [cstringOf_bytes] at hmember
      convert Members.last hmember using 1
      · simp [renderMembers, quoted]
      · simp [Item.printedMembers]
  | (name, item) :: member' :: members, n, ws, ws', format, depth, _, hws, hws', hnesting,
    hraw => by
      have hvalue : Value Blanks n (render format depth item) item.printed :=
        value_render format depth (Nat.max_le.mp hnesting).1 (Bool.and_eq_true_iff.mp hraw).1
      have hmember := Member.mk (hws.append ((blanks_tabs depth).formatted format))
        (chars_escaped name.bytes) blanks_nil (.mk (blanks_tab.formatted format) hvalue blanks_nil)
      have hmore := members_render format depth (List.cons_ne_nil member' members)
        (blanks_newline.formatted format) hws' (Nat.max_le.mp hnesting).2
        (Bool.and_eq_true_iff.mp hraw).2
      rw [cstringOf_bytes] at hmember
      convert Members.more hmember hmore using 1
      · rw [renderMembers]
        simp [quoted]
      · simp [Item.printedMembers]

end

/-! ## A text has no NUL -/

theorem nulFree_escaped : ∀ {bs : List UInt8}, 0 ∉ bs → 0 ∉ escaped bs
  | [], _ => List.not_mem_nil
  | b :: bs, h => by
      have ih := nulFree_escaped (List.not_mem_of_not_mem_cons h)
      have hb : b ≠ 0 := by
        rintro rfl
        exact h List.mem_cons_self
      rw [escaped, List.mem_append, not_or]
      refine ⟨?_, ih⟩
      rw [escapeByte]
      cases hshort : shortEscape b with
      | some c =>
          have hc : c ≠ 0 := by
            rintro rfl
            have hzero : simpleEscape 0 = none := by decide
            exact absurd (hzero.symm.trans (simpleEscape_of_shortEscape hshort)) (by simp)
          simp [backslash, hc.symm]
      | none =>
          dsimp only
          split
          · have hhex : ∀ n < 16, hexChar n ≠ 0 := by decide
            rename_i hlow
            have hlt : b.toNat < 32 := UInt8.lt_iff_toNat_lt.mp hlow
            have hhigh := hhex (b.toNat / 16) (by omega)
            have hlow' := hhex (b.toNat % 16) (by omega)
            simp [unicodeEscape, backslash, ascii, hhigh.symm, hlow'.symm]
          · simp [hb.symm]

theorem nulFree_quoted (s : CString) : 0 ∉ quoted s := by
  have h := nulFree_escaped s.nulFree
  simp [quoted, quote, h]

theorem nulFree_numberBuffer (d : Double) : 0 ∉ numberBuffer d := by
  have hsprintf : ∀ {P}, 0 < P → ∀ s m, 0 ∉ sprintfG P s m := by
    intro P hP s m hmem
    have htext : 0 ∉ formatGeneral P m.value := fun hzero =>
      absurd (isNumberByte_of_isNumberByte
        (isNumberByte_of (numberText_formatGeneral hP m.value_nonneg) 0 hzero)) (by decide)
    unfold sprintfG signedText at hmem
    split at hmem
    · exact htext (List.mem_of_ne_of_mem (by decide) hmem)
    · exact htext hmem
  cases d with
  | infinite s => simp [numberBuffer]
  | finite s m =>
      simp only [numberBuffer]
      split
      · exact hsprintf (by decide) s m
      · exact hsprintf (by decide) s m

theorem nulFree_formatted {bytes : List UInt8} (h : 0 ∉ bytes) (format : Bool) :
    0 ∉ formatted format bytes := by
  unfold formatted
  split
  · exact h
  · exact List.not_mem_nil

theorem nulFree_tabs (n : Nat) : 0 ∉ tabs n := fun h =>
  absurd (List.eq_of_mem_replicate h) (by decide)

mutual

theorem nulFree_render : ∀ (format : Bool) (depth : Nat) (item : Item), 0 ∉ render format depth item
  | _, _, .null => (by decide : 0 ∉ literal "null")
  | _, _, .false => (by decide : 0 ∉ literal "false")
  | _, _, .true => (by decide : 0 ∉ literal "true")
  | _, _, .number d => nulFree_numberBuffer d
  | _, _, .string s => nulFree_quoted s
  | _, _, .raw s => s.nulFree
  | format, depth, .array child => by
      have ih := nulFree_renderElements format (depth + 1) child
      simp [render, ascii, ih]
  | format, depth, .object child => by
      have ih := nulFree_renderMembers format (depth + 1) child
      have hnewline : 0 ∉ formatted format [10] := nulFree_formatted (by decide) format
      have htabs := nulFree_formatted (nulFree_tabs depth) format
      simp [render, ascii, ih, hnewline, htabs]

theorem nulFree_renderElements : ∀ (format : Bool) (depth : Nat) (items : List Item),
    0 ∉ renderElements format depth items
  | _, _, [] => List.not_mem_nil
  | format, depth, item :: items => by
      have h := nulFree_render format depth item
      have ih := nulFree_renderElements format depth items
      have hspace : 0 ∉ formatted format [32] := nulFree_formatted (by decide) format
      cases items with
      | nil => simp [renderElements, h]
      | cons item' items => simp [renderElements, ascii, h, hspace] at ih ⊢; exact ih

theorem nulFree_renderMembers : ∀ (format : Bool) (depth : Nat) (members : List (CString × Item)),
    0 ∉ renderMembers format depth members
  | _, _, [] => List.not_mem_nil
  | format, depth, (name, item) :: members => by
      have h := nulFree_render format depth item
      have ih := nulFree_renderMembers format depth members
      have htabs := nulFree_formatted (nulFree_tabs depth) format
      have htab : 0 ∉ formatted format [9] := nulFree_formatted (by decide) format
      have hnewline : 0 ∉ formatted format [10] := nulFree_formatted (by decide) format
      have hname := nulFree_quoted name
      cases members with
      | nil => simp [renderMembers, ascii, h, htabs, htab, hnewline, hname]
      | cons member members =>
          rw [renderMembers]
          simp only [List.isEmpty_cons, Bool.false_eq_true, if_false, List.mem_append,
            List.mem_cons, List.not_mem_nil, or_false, not_or]
          exact ⟨htabs, hname, ⟨by decide, htab⟩, h, ⟨by decide, hnewline⟩, ih⟩

end

end KernelTestkit.Json
