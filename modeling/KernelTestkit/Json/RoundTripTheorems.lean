/-
KernelTestkit.Json.RoundTripTheorems — printing an item and parsing the text.

An item that is printed and parsed comes back with null for its infinite
numbers, unless its containers are nested more deeply than the parser allows;
then the parser refuses the text. Raw texts are left out: the parser builds
none, and they need not be JSON.

The text does not depend on the entry point or on the size of the first block.
A block that may not grow has to have room for two bytes more than the text;
for a number it is one.
-/
import KernelTestkit.Json.ParseTheorems
import KernelTestkit.Json.PrintTheorems

namespace KernelTestkit.Json

open KernelTestkit.Lib
open KernelTestkit.Api (CString cstringOf)
open PrintBuffer

variable {memory : Memory} {format : Bool}

/-- Memory that is always granted. -/
def Memory.unlimited : Memory := ⟨fun _ _ => 0, fun _ => true⟩

/-! ## The entry points of the printer -/

theorem updateOffset_fields {p p' : PrintBuffer} (h : p.updateOffset = .ok p') :
    p'.buffer = p.buffer ∧ p'.length = p.length := by
  unfold updateOffset at h
  split at h
  · obtain rfl := Except.ok.inj h
    exact ⟨rfl, rfl⟩
  · dsimp only at h
    split at h
    · obtain rfl := Except.ok.inj h
      exact ⟨rfl, rfl⟩
    · cases h

/-- A buffer nothing is printed in, which may grow. -/
theorem at_start (hgranted : ∀ size, memory.granted size = true) (block : Block UInt8) (size : Nat)
    (hsize : size ≤ block.length) (hmax : size ≤ LLONG_MAX) (format : Bool) :
    At memory LLONG_MAX format 0 [] ([] : List UInt8).length
      ⟨some block, size, 0, 0, false, format⟩ :=
  ⟨rfl, rfl, rfl, Or.inr hgranted, hmax, ⟨block, rfl, by simpa using hsize⟩, rfl,
    Nat.eq_zero_or_pos size⟩

/-- **`cJSON_PrintPreallocated` does what its length says**: it stores nothing
outside of the buffer, and it succeeds when the text fits with two bytes more, or
one for a number. -/
theorem printPreallocated_spec (memory : Memory) (item : Item) {buf : Block UInt8} {len : Int32}
    (format : Bool) (hlen : len.toInt ≤ buf.length) :
    ∃ ok buf', cjsonPrintPreallocated memory item buf len format = .ok (ok, buf') ∧
      (ok = true ↔ ((render format 0 item).length + slack item : Int) ≤ len.toInt) ∧
      (ok = true → ∃ post, buf' = some (render format 0 item ++ 0 :: post)) := by
  unfold cjsonPrintPreallocated
  split
  · rename_i hneg
    have hneg' : len.toInt < 0 := Int32.lt_iff_toInt_lt.mp hneg
    exact ⟨false, some buf, rfl, iff_of_false Bool.false_ne_true (by omega), by simp⟩
  · rename_i hneg
    have hneg' : ¬ len.toInt < 0 := fun h => hneg (Int32.lt_iff_toInt_lt.mpr h)
    have hlt := len.toInt_lt
    have hmax : LLONG_MAX = 9223372036854775807 := rfl
    have hle : len.toInt.toNat ≤ buf.length := by omega
    have hstart : At memory len.toInt.toNat format 0 [] ([] : List UInt8).length
        ⟨some buf, len.toInt.toNat, 0, 0, true, format⟩ :=
      ⟨rfl, rfl, rfl, Or.inl rfl, by dsimp only; omega,
        ⟨buf, rfl, by rw [List.length_nil, Nat.zero_add]; exact hle⟩, rfl, Nat.eq_zero_or_pos _⟩
    rcases printValue_spec item hstart with ⟨p, heq, k, hat, _, _, hlength⟩ | ⟨hlow, p, heq⟩
    · have hfits := hat.length_le_limit
      obtain ⟨post, hbuffer, _⟩ := hat.block
      simp only [List.length_nil, Nat.zero_add] at hlength
      rw [heq]
      refine ⟨true, p.buffer, rfl, iff_of_true rfl (by omega), fun _ => ⟨post, ?_⟩⟩
      simpa using hbuffer
    · simp only [List.length_nil, Nat.zero_add] at hlow
      rw [heq]
      exact ⟨false, p.buffer, rfl, iff_of_false Bool.false_ne_true (by omega), by simp⟩

/-- Six bytes for a text of four. -/
theorem printPreallocated_spec_null :
    ∃ ok buf', cjsonPrintPreallocated .unlimited .null (List.replicate 6 7) 6 false
        = .ok (ok, buf') ∧
      (ok = true ↔ ((render false 0 .null).length + slack .null : Int) ≤ (6 : Int32).toInt) ∧
      (ok = true → ∃ post, buf' = some (render false 0 .null ++ 0 :: post)) :=
  printPreallocated_spec .unlimited .null false (by decide)

theorem allocate_granted (hgranted : ∀ size, memory.granted size = true) (size : Nat) :
    memory.allocate size = some ((List.range size).map (memory.undefined size)) :=
  if_pos (hgranted size)

/-- **`print` returns the text**, when memory is granted. -/
theorem print_spec (hgranted : ∀ size, memory.granted size = true) (item : Item) (format : Bool)
    (hfits : (render format 0 item).length + slack item ≤ LLONG_MAX) :
    ∃ post, cjsonPrint memory item format = .ok (some (render format 0 item ++ 0 :: post)) := by
  have hstart := at_start hgranted ((List.range 256).map (memory.undefined 256)) 0 (Nat.zero_le _)
    (Nat.zero_le _) format
  rw [cjsonPrint, allocate_granted hgranted]
  dsimp only
  rcases printValue_spec item hstart with ⟨p, heq, hprinted⟩ | ⟨hlow, _⟩
  · obtain ⟨p', hupdate, _⟩ :=
      updateOffset_spec hprinted (nulFree_render _ _ _) (slack_cases item).1
    obtain ⟨hbuffer', hlength'⟩ := updateOffset_fields hupdate
    obtain ⟨k, hat, _, _, hlength⟩ := hprinted
    obtain ⟨post, hbuffer, hblock⟩ := hat.block
    have hslack := (slack_cases item).1
    rw [List.nil_append] at hbuffer hblock
    rw [List.length_append, List.length_singleton] at hblock
    simp only [List.length_nil, Nat.zero_add] at hlength
    rw [heq]
    dsimp only [bind, Except.bind]
    rw [if_pos rfl, hupdate]
    dsimp only
    rw [hbuffer', hlength', hbuffer]
    dsimp only
    rw [Memory.reallocate, if_pos (hgranted _)]
    refine ⟨post.take (p.length - ((render format 0 item).length + 1)) ++
      (List.range (p.length - (render format 0 item ++ [0] ++ post).length)).map
        (memory.undefined p.length), ?_⟩
    rw [List.take_append, List.take_of_length_le
      (by rw [List.length_append, List.length_singleton]; omega)]
    simp [pure, Except.pure]
  · simp only [List.length_nil, Nat.zero_add] at hlow
    omega

/-- The same for `cJSON_PrintBuffered`, whatever its first block. -/
theorem printBuffered_spec (hgranted : ∀ size, memory.granted size = true) {item : Item}
    (hfits : (render format 0 item).length + slack item ≤ LLONG_MAX) {prebuffer : Int32}
    (hpre : 0 ≤ prebuffer) :
    ∃ post, cjsonPrintBuffered memory item prebuffer format
      = .ok (some (render format 0 item ++ 0 :: post)) := by
  have hlt := prebuffer.toInt_lt
  have hpre' : 0 ≤ prebuffer.toInt := Int32.le_iff_toInt_le.mp hpre
  have hneg : ¬ prebuffer < 0 := fun h => by
    have := Int32.lt_iff_toInt_lt.mp h
    simp at this
    omega
  have hmax : LLONG_MAX = 9223372036854775807 := rfl
  have hstart := at_start hgranted
    ((List.range prebuffer.toInt.toNat).map (memory.undefined prebuffer.toInt.toNat))
    prebuffer.toInt.toNat (by simp) (by omega) format
  rw [cjsonPrintBuffered, if_neg hneg]
  dsimp only
  rw [allocate_granted hgranted]
  dsimp only
  rcases printValue_spec item hstart with ⟨p, heq, k, hat, _⟩ | ⟨hlow, _⟩
  · obtain ⟨post, hbuffer, _⟩ := hat.block
    rw [heq]
    dsimp only [bind, Except.bind]
    rw [hbuffer]
    exact ⟨post, by simp [pure, Except.pure]⟩
  · simp only [List.length_nil, Nat.zero_add] at hlow
    omega

/-- A block that holds a text and its NUL. -/
theorem cstringOf_render (item : Item) (format : Bool) (post : List UInt8) :
    (cstringOf (render format 0 item ++ 0 :: post)).bytes = render format 0 item :=
  congrArg CString.bytes
    (Api.cstringOf_terminated ⟨render format 0 item, nulFree_render format 0 item⟩ post)

/-- **The text depends on the item only**: neither the first block nor what the
memory holds changes it. -/
theorem entry_points_agree {memory' : Memory} (hgranted : ∀ size, memory.granted size = true)
    (hgranted' : ∀ size, memory'.granted size = true) {item : Item} {prebuffer : Int32}
    (hfits : (render format 0 item).length + slack item ≤ LLONG_MAX) (hpre : 0 ≤ prebuffer) :
    ∃ block block', cjsonPrint memory item format = .ok (some block) ∧
      cjsonPrintBuffered memory' item prebuffer format = .ok (some block') ∧
      cstringOf block' = cstringOf block := by
  obtain ⟨post, hprint⟩ := print_spec hgranted item format hfits
  obtain ⟨post', hbuffered⟩ := printBuffered_spec hgranted' hfits hpre
  refine ⟨_, _, hprint, hbuffered, Api.CString.ext_bytes ?_⟩
  rw [cstringOf_render, cstringOf_render]

/-- A first block of no bytes. -/
theorem entry_points_agree_empty :
    ∃ block block', cjsonPrint .unlimited (.array []) true = .ok (some block) ∧
      cjsonPrintBuffered .unlimited (.array []) 0 true = .ok (some block') ∧
      cstringOf block' = cstringOf block :=
  entry_points_agree (fun _ => rfl) (fun _ => rfl) (by decide) (by decide)

/-! ## More levels -/

/-- Whatever one reader reads, the other reads too. -/
def Reader.Below {α : Type} (r r' : Reader α) : Prop :=
  ∀ bs a rest, r bs = some (a, rest) → r' bs = some (a, rest)

theorem readElements_below {read read' : Reader Item} (h : read.Below read') :
    ∀ fuel, Reader.Below (readElements read fuel) (readElements read' fuel)
  | 0 => fun _ _ _ hread => by cases hread
  | fuel + 1 => by
      intro bs items rest hread
      rw [readElements] at hread ⊢
      cases hitem : read (skipBlanks bs) with
      | none =>
          rw [hitem] at hread
          cases hread
      | some r =>
          obtain ⟨item, bs'⟩ := r
          rw [hitem] at hread
          rw [h _ _ _ hitem]
          dsimp only at hread ⊢
          cases hcomma : readByte (ascii ',') (skipBlanks bs') with
          | none =>
              rw [hcomma] at hread
              exact hread
          | some bs'' =>
              rw [hcomma] at hread
              obtain ⟨⟨more, rest'⟩, hmore, heq⟩ := Option.map_eq_some_iff.mp hread
              exact Option.map_eq_some_iff.mpr
                ⟨(more, rest'), readElements_below h fuel _ _ _ hmore, heq⟩

theorem readMembers_below {read read' : Reader Item} (h : read.Below read') :
    ∀ fuel, Reader.Below (readMembers read fuel) (readMembers read' fuel)
  | 0 => fun _ _ _ hread => by cases hread
  | fuel + 1 => by
      intro bs members rest hread
      rw [readMembers] at hread ⊢
      cases hname : readString (skipBlanks bs) with
      | none =>
          rw [hname] at hread
          cases hread
      | some r =>
          obtain ⟨name, bs'⟩ := r
          rw [hname] at hread
          dsimp only at hread ⊢
          cases hcolon : readByte (ascii ':') (skipBlanks bs') with
          | none =>
              rw [hcolon] at hread
              cases hread
          | some bs'' =>
              rw [hcolon] at hread
              dsimp only at hread ⊢
              cases hitem : read (skipBlanks bs'') with
              | none =>
                  rw [hitem] at hread
                  cases hread
              | some r =>
                  obtain ⟨item, bs₃⟩ := r
                  rw [hitem] at hread
                  rw [h _ _ _ hitem]
                  dsimp only at hread ⊢
                  cases hcomma : readByte (ascii ',') (skipBlanks bs₃) with
                  | none =>
                      rw [hcomma] at hread
                      exact hread
                  | some bs₄ =>
                      rw [hcomma] at hread
                      obtain ⟨⟨more, rest'⟩, hmore, heq⟩ := Option.map_eq_some_iff.mp hread
                      exact Option.map_eq_some_iff.mpr
                        ⟨(more, rest'), readMembers_below h fuel _ _ _ hmore, heq⟩

theorem readChildren_below {α : Type} {close : UInt8} {loop loop' : Nat → Reader (List α)}
    (h : ∀ fuel, (loop fuel).Below (loop' fuel)) :
    (readChildren close loop).Below (readChildren close loop') := by
  intro bs children rest hread
  unfold readChildren at hread ⊢
  cases hclose : readByte close (skipBlanks bs) with
  | some bs' =>
      rw [hclose] at hread
      exact hread
  | none =>
      rw [hclose] at hread
      dsimp only at hread ⊢
      cases hloop : loop (bs.length + 1) (skipBlanks bs) with
      | none =>
          rw [hloop] at hread
          cases hread
      | some r =>
          obtain ⟨children', bs'⟩ := r
          rw [hloop] at hread
          rw [h _ _ _ _ hloop]
          exact hread

theorem Reader.Below.map {α β : Type} {r r' : Reader α} (h : r.Below r') (f : α → β) :
    (Reader.map f r).Below (Reader.map f r') := by
  intro bs b rest hread
  obtain ⟨⟨a, rest'⟩, hr, heq⟩ := Option.map_eq_some_iff.mp hread
  exact Option.map_eq_some_iff.mpr ⟨(a, rest'), h _ _ _ hr, heq⟩

theorem readValueWith_below {array array' : Reader (List Item)}
    {object object' : Reader (List (CString × Item))} (harray : array.Below array')
    (hobject : object.Below object') :
    (readValueWith array object).Below (readValueWith array' object') := by
  intro bs item rest hread
  unfold readValueWith at hread ⊢
  split_ifs at hread ⊢
  · exact hread
  · exact hread
  · exact hread
  · exact hread
  · exact hread
  · exact harray.map _ _ _ _ hread
  · exact hobject.map _ _ _ _ hread

/-- With one level more nothing is read otherwise. -/
theorem readValue_below : ∀ n, (readValue n).Below (readValue (n + 1))
  | 0 => readValueWith_below (fun _ _ _ h => by cases h) (fun _ _ _ h => by cases h)
  | n + 1 => by
      refine readValueWith_below ?_ ?_
      · intro bs items rest hread
        obtain ⟨inner, hopen, hchildren⟩ := Option.bind_eq_some_iff.mp hread
        exact Option.bind_eq_some_iff.mpr ⟨inner, hopen,
          readChildren_below (readElements_below (readValue_below n)) _ _ _ hchildren⟩
      · intro bs members rest hread
        obtain ⟨inner, hopen, hchildren⟩ := Option.bind_eq_some_iff.mp hread
        exact Option.bind_eq_some_iff.mpr ⟨inner, hopen,
          readChildren_below (readMembers_below (readValue_below n)) _ _ _ hchildren⟩

theorem readValue_mono {n m : Nat} (h : n ≤ m) : (readValue n).Below (readValue m) := by
  induction h with
  | refl => exact fun _ _ _ hread => hread
  | step _ ih => exact fun _ _ _ hread => readValue_below _ _ _ _ (ih _ _ _ hread)

/-! ## What is printed of an item -/

mutual

theorem nesting_printed : ∀ item : Item, item.printed.nesting = item.nesting
  | .null => rfl
  | .false => rfl
  | .true => rfl
  | .number (.finite _ _) => rfl
  | .number (.infinite _) => rfl
  | .string _ => rfl
  | .raw _ => rfl
  | .array child => congrArg (· + 1) (nesting_printedElements child)
  | .object child => congrArg (· + 1) (nesting_printedMembers child)

theorem nesting_printedElements : ∀ items : List Item,
    Item.nestingElements (Item.printedElements items) = Item.nestingElements items
  | [] => rfl
  | item :: items => congrArg₂ max (nesting_printed item) (nesting_printedElements items)

theorem nesting_printedMembers : ∀ members : List (CString × Item),
    Item.nestingMembers (Item.printedMembers members) = Item.nestingMembers members
  | [] => rfl
  | (_, item) :: members => congrArg₂ max (nesting_printed item) (nesting_printedMembers members)

end

mutual

/-- What is left of an item prints as the item does. -/
theorem render_printed : ∀ (item : Item) (depth : Nat),
    render format depth item.printed = render format depth item
  | .null, _ => rfl
  | .false, _ => rfl
  | .true, _ => rfl
  | .number (.finite _ _), _ => rfl
  | .number (.infinite _), _ => rfl
  | .string _, _ => rfl
  | .raw _, _ => rfl
  | .array child, depth => by
      rw [Item.printed, render, render, renderElements_printed child]
  | .object child, depth => by
      rw [Item.printed, render, render, renderMembers_printed child]

theorem renderElements_printed : ∀ (items : List Item) (depth : Nat),
    renderElements format depth (Item.printedElements items) = renderElements format depth items
  | [], _ => rfl
  | [item], depth => by
      rw [Item.printedElements, renderElements, renderElements, render_printed item]
      rfl
  | item :: item' :: items, depth => by
      have ih := renderElements_printed (item' :: items) depth
      rw [Item.printedElements, renderElements, renderElements, render_printed item, ih]
      rfl

theorem renderMembers_printed : ∀ (members : List (CString × Item)) (depth : Nat),
    renderMembers format depth (Item.printedMembers members) = renderMembers format depth members
  | [], _ => rfl
  | [(name, item)], depth => by
      rw [Item.printedMembers, renderMembers, renderMembers, render_printed item]
      rfl
  | (name, item) :: member' :: members, depth => by
      have ih := renderMembers_printed (member' :: members) depth
      rw [Item.printedMembers, renderMembers, renderMembers, render_printed item, ih]
      rfl

end

mutual

theorem rawFree_printed : ∀ item : Item, item.printed.rawFree = item.rawFree
  | .null => rfl
  | .false => rfl
  | .true => rfl
  | .number (.finite _ _) => rfl
  | .number (.infinite _) => rfl
  | .string _ => rfl
  | .raw _ => rfl
  | .array child => rawFree_printedElements child
  | .object child => rawFree_printedMembers child

theorem rawFree_printedElements : ∀ items : List Item,
    Item.rawFreeElements (Item.printedElements items) = Item.rawFreeElements items
  | [] => rfl
  | item :: items => congrArg₂ and (rawFree_printed item) (rawFree_printedElements items)

theorem rawFree_printedMembers : ∀ members : List (CString × Item),
    Item.rawFreeMembers (Item.printedMembers members) = Item.rawFreeMembers members
  | [] => rfl
  | (_, item) :: members => congrArg₂ and (rawFree_printed item) (rawFree_printedMembers members)

end

/-! ## Round trips -/

/-- A text is read back, and nothing is left of it. -/
theorem readValue_render {item : Item} (hraw : item.rawFree = true) {n : Nat}
    (h : item.nesting ≤ n) (format : Bool) :
    readValue n (render format 0 item) = some (item.printed, []) := by
  have hread := readValue_complete (value_render format 0 h hraw)
    (show Follows [] by simp [Follows])
  rwa [List.append_nil] at hread

theorem skipBlanks_value {n : Nat} {t : List UInt8} {item : Item} (h : Value Blanks n t item)
    (rest : List UInt8) : skipBlanks (t ++ rest) = t ++ rest := by
  obtain ⟨b, bs, rfl, hlt, _⟩ := head_value h
  exact skipBlanks_cons hlt (bs ++ rest)

/-- **What the parser makes of the text of an item.** -/
theorem readDocument_render {item : Item} (hraw : item.rawFree = true) (format req : Bool) :
    readDocument req (render format 0 item)
      = if item.nesting ≤ CJSON_NESTING_LIMIT then some item.printed else none := by
  unfold readDocument readText
  have hblank := skipBlanks_value (value_render format 0 (Nat.le_refl item.nesting) hraw) []
  rw [List.append_nil] at hblank
  rw [hblank]
  split_ifs with hnesting
  · rw [readValue_render hraw hnesting]
    simp [skipBlanks]
  · cases hread : readValue CJSON_NESTING_LIMIT (render format 0 item) with
    | none => rfl
    | some r =>
        obtain ⟨item', rest⟩ := r
        have hle : CJSON_NESTING_LIMIT ≤ item.nesting := by omega
        have hmore := readValue_mono hle _ _ _ hread
        rw [readValue_render hraw (Nat.le_refl _)] at hmore
        obtain ⟨rfl, -⟩ := Prod.mk.inj (Option.some.inj hmore)
        have hwithin := (readValue_within _ _ _ _ hread).1
        rw [nesting_printed] at hwithin
        exact absurd hwithin hnesting

/-- **Printing and parsing**: the parser makes of what `print` returns the item that
was printed, or refuses it for its nesting. -/
theorem parse_print (hgranted : ∀ size, memory.granted size = true) {item : Item}
    (hraw : item.rawFree = true)
    (hfits : (render format 0 item).length + slack item ≤ LLONG_MAX) (req : Bool) :
    ∃ block position, cjsonPrint memory item format = .ok (some block) ∧
      cjsonParseWithOpts (cstringOf block) req
        = .ok (if item.nesting ≤ CJSON_NESTING_LIMIT then some item.printed else none,
            position) := by
  obtain ⟨post, hprint⟩ := print_spec hgranted item format hfits
  obtain ⟨position, _, hparse, _⟩ :=
    cjsonParseWithOpts_eq (cstringOf (render format 0 item ++ 0 :: post)) req
  rw [cstringOf_render, readDocument_render hraw] at hparse
  exact ⟨_, position, hprint, hparse⟩

/-- An array in an array. -/
theorem parse_print_nested :
    ∃ block position, cjsonPrint .unlimited (.array [.array []]) false = .ok (some block) ∧
      cjsonParseWithOpts (cstringOf block) true
        = .ok (if (Item.array [.array []]).nesting ≤ CJSON_NESTING_LIMIT
            then some (Item.array [.array []]).printed else none, position) :=
  parse_print (fun _ => rfl) (by decide) (by decide) true

/-- What the parser has built can be parsed again once it is printed. -/
theorem within_of_parse {value : CString} {req : Bool} {item : Item} {position : Nat}
    (h : cjsonParseWithOpts value req = .ok (some item, position)) :
    Within CJSON_NESTING_LIMIT item := by
  obtain ⟨_, _, heq, _⟩ := cjsonParseWithOpts_eq value req
  rw [heq] at h
  have hread := (Prod.mk.inj (Except.ok.inj h)).1
  unfold readDocument at hread
  split at hread
  · cases hread
  rename_i hvalue
  split at hread
  · cases hread
  obtain rfl := Option.some.inj hread
  exact readValue_within _ _ _ _ hvalue

/-- **A normal form**: whatever text an item was parsed from, what is printed of it
parses to an item that prints as the same text. -/
theorem print_parse_print (hgranted : ∀ size, memory.granted size = true) {value : CString}
    {req : Bool} {item : Item} {position : Nat}
    (h : cjsonParseWithOpts value req = .ok (some item, position))
    (hfits : (render format 0 item).length + 2 ≤ LLONG_MAX) :
    ∃ block item' block', cjsonPrint memory item format = .ok (some block) ∧
      cjsonParse (cstringOf block) = .ok (some item') ∧
      cjsonPrint memory item' format = .ok (some block') ∧ cstringOf block' = cstringOf block := by
  obtain ⟨hnesting, hraw⟩ := within_of_parse h
  have hslack := (slack_cases item).2
  obtain ⟨post, hprint⟩ := print_spec hgranted item format (by omega)
  have hslack' := (slack_cases item.printed).2
  obtain ⟨post', hprint'⟩ := print_spec hgranted item.printed format
    (by rw [render_printed]; omega)
  obtain ⟨_, _, hparse, _⟩ :=
    cjsonParseWithOpts_eq (cstringOf (render format 0 item ++ 0 :: post)) false
  rw [cstringOf_render, readDocument_render hraw, if_pos hnesting] at hparse
  refine ⟨_, item.printed, _, hprint, ?_, hprint', Api.CString.ext_bytes ?_⟩
  · rw [cjsonParse, hparse]
    rfl
  · rw [cstringOf_render, cstringOf_render, render_printed]

/-- A text with more in it than is printed. -/
theorem print_parse_print_blanks :
    ∃ block item' block', cjsonPrint .unlimited (.array []) false = .ok (some block) ∧
      cjsonParse (cstringOf block) = .ok (some item') ∧
      cjsonPrint .unlimited item' false = .ok (some block') ∧ cstringOf block' = cstringOf block :=
  have hparse : cjsonParseWithOpts (Api.lit " [ ]x") false = .ok (some (.array []), 4) := rfl
  print_parse_print (fun _ => rfl) hparse (by decide)

/-- **A number comes back**: the parser of numbers makes of the text of a finite
number the number, the sign of a zero included, wherever the text is, and stops
behind it. -/
theorem parseNumber_printNumber (s : Bool) (m : Magnitude) :
    ∃ text, printNumber (.finite s m) = some text ∧
      ∀ (value : CString) (front rest : List UInt8), value.bytes = front ++ (text ++ rest) →
        Follows rest → parseNumber ⟨value, front.length⟩
          = .ok (some (.finite s m), ⟨value, front.length + text.length⟩) := by
  refine ⟨_, printNumber_eq _, fun value front rest hvalue hrest => ?_⟩
  obtain ⟨t, q, htext, heq, hround⟩ := numberText_numberBuffer s m
  have hlength := length_numberBuffer_le (.finite s m)
  rw [heq] at hlength hvalue ⊢
  have hread := readNumber_text htext (Nat.le_trans hlength (by decide)) hrest
  rw [hround] at hread
  have hsuffix : signedText s t ++ rest <:+ value.bytes := ⟨front, hvalue.symm⟩
  have hall := congrArg List.length hvalue
  simp only [List.length_append] at hall
  have hagrees := parseNumber_agrees hsuffix
  rw [hread] at hagrees
  have hbefore : ∀ {bs : List UInt8} {n : Nat}, n + bs.length = value.bytes.length →
      ParseBuffer.before value bs = ⟨value, n⟩ := by
    intro bs n hn
    rw [ParseBuffer.before, ← hn, Nat.add_sub_cancel_right]
  rw [hbefore (n := front.length) (by rw [List.length_append]; omega)] at hagrees
  rcases hagrees with ⟨d, rest', hsome, _, hparse⟩ | ⟨hnone, _⟩
  · obtain ⟨rfl, rfl⟩ := Prod.mk.inj (Option.some.inj hsome)
    rw [hparse, hbefore (n := front.length + (signedText s t).length) (by omega)]
  · cases hnone

/-! ## Documents -/

/-- **Any text may be parsed**: no access is out of bounds and every loop ends, the
parser stops inside the text, and what it builds is no deeper than it allows. -/
theorem parse_any_text (value : CString) (requireNullTerminated : Bool) :
    ∃ item position, cjsonParseWithOpts value requireNullTerminated = .ok (item, position) ∧
      position ≤ value.bytes.length ∧ ∀ built ∈ item, Within CJSON_NESTING_LIMIT built := by
  obtain ⟨position, hle, hparse, _⟩ := cjsonParseWithOpts_eq value requireNullTerminated
  refine ⟨_, position, hparse, hle, fun built hbuilt => ?_⟩
  rw [Option.mem_def] at hbuilt
  rw [hbuilt] at hparse
  exact within_of_parse hparse

theorem readText_value {ws t rest : List UInt8} {item : Item} (hws : Blanks ws)
    (ht : Value Blanks CJSON_NESTING_LIMIT t item) (hrest : Follows rest) :
    readText (ws ++ (t ++ rest)) = some (item, rest) := by
  rw [readText, skipBlanks_append hws, skipBlanks_value ht, readValue_complete ht hrest]

theorem skipBlanks_eq_nil_iff (bs : List UInt8) :
    skipBlanks bs = [] ↔ bs.all (· ≤ 32) = true := by
  rw [skipBlanks, List.dropWhile_eq_nil_iff, List.all_eq_true]

/-- **JSON is accepted**, within the limits of the grammar: the parser builds what
a text denotes, and stops behind it. If it has been asked to, it minds what
follows, unless that is blanks and control characters. -/
theorem parse_document {value : CString} {ws t rest : List UInt8} {item : Item}
    (hvalue : value.bytes = ws ++ (t ++ rest)) (hws : Blanks ws)
    (ht : Value Blanks CJSON_NESTING_LIMIT t item) (hrest : Follows rest) :
    cjsonParseWithOpts value false = .ok (some item, ws.length + t.length) ∧
    ∃ position, cjsonParseWithOpts value true
      = .ok (if rest.all (· ≤ 32) then some item else none, position) := by
  have hread : readText value.bytes = some (item, rest) := hvalue ▸ readText_value hws ht hrest
  have hdocument : ∀ req, readDocument req value.bytes
      = if req = true ∧ skipBlanks rest ≠ [] then none else some item := by
    intro req
    rw [readDocument, hread]
  obtain ⟨position, hle, heq, hdrop⟩ := cjsonParseWithOpts_eq value false
  obtain ⟨position', _, heq', _⟩ := cjsonParseWithOpts_eq value true
  refine ⟨?_, position', ?_⟩
  · have hlength := congrArg List.length (hdrop item rest rfl hread)
    rw [List.length_drop] at hlength
    have hall := congrArg List.length hvalue
    rw [List.length_append, List.length_append] at hall
    rw [heq, hdocument]
    simp only [Bool.false_eq_true, false_and, if_false]
    congr 2
    omega
  · rw [heq', hdocument]
    by_cases hend : rest.all (· ≤ 32) = true
    · have hskip := (skipBlanks_eq_nil_iff rest).mpr hend
      rw [if_pos hend, if_neg fun h => h.2 hskip]
    · have hskip := mt (skipBlanks_eq_nil_iff rest).mp hend
      rw [if_neg hend, if_pos ⟨rfl, hskip⟩]

/-- An empty object with blanks around it. -/
theorem parse_document_blanks :
    cjsonParseWithOpts (Api.lit "\t{ } ") false = .ok (some (.object []), 1 + 3) ∧
    ∃ position, cjsonParseWithOpts (Api.lit "\t{ } ") true
      = .ok (if List.all [32] (· ≤ (32 : UInt8)) then some (.object []) else none, position) :=
  have hbytes : (Api.lit "\t{ } ").bytes = [9] ++ (literal "{ }" ++ [32]) := rfl
  parse_document hbytes blanks_tab (@Value.emptyObject Blanks _ [32] blanks_space)
    (by rintro b ⟨⟩; rfl)

end KernelTestkit.Json
