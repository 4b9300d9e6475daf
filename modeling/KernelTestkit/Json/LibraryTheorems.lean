/-
KernelTestkit.Json.LibraryTheorems — the parameter exchange over cjson.c.

The exchange is modelled over any `CjsonLib`. Here the library is the parser
and the printer of cjson.c, and what is asked of a library is proved of it.

* `cjson_round_trip` — an item whose numbers are `double`s comes back as it was
  printed.
* `parameters_arrive` — what a client sends, over any partial writes that do not
  cut the message, is what its server decodes, over any chunks it arrives in.
-/
import KernelTestkit.Json.RoundTripTheorems
import KernelTestkit.Api.AgreementTheorems
import KernelTestkit.Api.NumberTheorems

namespace KernelTestkit.Json

open KernelTestkit.Lib
open KernelTestkit.Net
open KernelTestkit.Api

/-- `cJSON_Parse` and `cJSON_PrintUnformatted`, with what the program reads of
items. -/
def cjson (memory : Memory) : CjsonLib where
  parse text :=
    match cjsonParse text with
    | .ok (some item) => item.toCJson
    | _ => none
  printUnformatted doc :=
    match cjsonPrint memory (Item.ofCJson doc) false with
    | .ok (some block) => some (cstringOf block)
    | _ => none

/-! ## Items with numbers that are doubles -/

mutual

/-- The numbers are what `cJSON_CreateNumber` makes of finite `double`s. -/
def Representable : CJson → Prop
  | .number q n => binary64.Mem |q| ∧ |q| < 2 ^ 1024 ∧ n = saturate (Double.truncate q)
  | .array child => RepresentableElements child
  | .object child => RepresentableMembers child
  | _ => True

def RepresentableElements : List CJson → Prop
  | [] => True
  | item :: items => Representable item ∧ RepresentableElements items

def RepresentableMembers : List (CString × CJson) → Prop
  | [] => True
  | (_, item) :: members => Representable item ∧ RepresentableMembers members

end

theorem representableMembers_iff : ∀ {members : List (CString × CJson)},
    RepresentableMembers members ↔ ∀ member ∈ members, Representable member.2
  | [] => by simp [RepresentableMembers]
  | (name, item) :: members => by
      simp only [RepresentableMembers, List.forall_mem_cons, representableMembers_iff]

mutual

theorem rawFree_ofCJson : ∀ doc : CJson, (Item.ofCJson doc).rawFree = true
  | .null => rfl
  | .false => rfl
  | .true => rfl
  | .number _ _ => rfl
  | .string _ => rfl
  | .array child => rawFree_ofCJsonElements child
  | .object child => rawFree_ofCJsonMembers child

theorem rawFree_ofCJsonElements : ∀ items : List CJson,
    Item.rawFreeElements (Item.ofCJsonElements items) = true
  | [] => rfl
  | item :: items =>
      Bool.and_eq_true_iff.mpr ⟨rawFree_ofCJson item, rawFree_ofCJsonElements items⟩

theorem rawFree_ofCJsonMembers : ∀ members : List (CString × CJson),
    Item.rawFreeMembers (Item.ofCJsonMembers members) = true
  | [] => rfl
  | (_, item) :: members =>
      Bool.and_eq_true_iff.mpr ⟨rawFree_ofCJson item, rawFree_ofCJsonMembers members⟩

end

theorem signed_abs (q : ℚ) : Double.signed (q < 0) |q| = q := by
  unfold Double.signed
  by_cases h : q < 0
  · simp [h, abs_of_neg h]
  · simp [h, abs_of_nonneg (not_lt.mp h)]

/-- A number that is a `double` is not rounded. -/
theorem round_of_representable {q : ℚ} (hmem : binary64.Mem |q|) (hlt : |q| < 2 ^ 1024) :
    Double.round (q < 0) q = .finite (q < 0) ⟨|q|, hmem, hlt⟩ :=
  Double.round_of_nearest (FloatFormat.nearest_of_mem hmem)

mutual

theorem toCJson_ofCJson : ∀ {doc : CJson}, Representable doc →
    (Item.ofCJson doc).printed.toCJson = some doc
  | .null, _ => rfl
  | .false, _ => rfl
  | .true, _ => rfl
  | .number q n, h => by
      obtain ⟨hmem, hlt, rfl⟩ := h
      have hprinted : (Item.ofCJson (.number q (saturate (Double.truncate q)))).printed
          = .number (.finite (q < 0) ⟨|q|, hmem, hlt⟩) := by
        rw [Item.ofCJson, round_of_representable hmem hlt]
        rfl
      rw [hprinted, Item.toCJson, Item.rational, Double.valueint, signed_abs]
  | .string _, _ => rfl
  | .array child, h => by
      rw [Item.ofCJson, Item.printed, Item.toCJson, toCJsonElements_ofCJson h]
      rfl
  | .object child, h => by
      rw [Item.ofCJson, Item.printed, Item.toCJson, toCJsonMembers_ofCJson h]
      rfl

theorem toCJsonElements_ofCJson : ∀ {items : List CJson}, RepresentableElements items →
    Item.toCJsonElements (Item.printedElements (Item.ofCJsonElements items)) = some items
  | [], _ => rfl
  | item :: items, h => by
      rw [Item.ofCJsonElements, Item.printedElements, Item.toCJsonElements, toCJson_ofCJson h.1,
        toCJsonElements_ofCJson h.2]
      rfl

theorem toCJsonMembers_ofCJson : ∀ {members : List (CString × CJson)},
    RepresentableMembers members →
    Item.toCJsonMembers (Item.printedMembers (Item.ofCJsonMembers members)) = some members
  | [], _ => rfl
  | (name, item) :: members, h => by
      rw [Item.ofCJsonMembers, Item.printedMembers, Item.toCJsonMembers, toCJson_ofCJson h.1,
        toCJsonMembers_ofCJson h.2]
      rfl

end

/-! ## What `send_parameters` makes -/

/-- Rounding an integer gives a `double`. -/
theorem fits_roundDouble (n : Nat) : Fits 53 (roundDouble n) := by
  rcases Nat.lt_or_ge n (2 ^ 53) with hlt | hge
  · rw [roundDouble_of_le (Nat.le_of_lt hlt)]
    exact fits_of_lt hlt
  have hq := div_ulp_lt 53 n
  rw [ulp, Nat.add_sub_add_right n.log2 1 52] at hq
  rw [roundDouble, if_neg (by omega)]
  dsimp only
  split
  · rcases Nat.lt_or_ge (n / 2 ^ (n.log2 - 52) + 1) (2 ^ 53) with hsmall | hlarge
    · exact ⟨_, _, hsmall, rfl⟩
    · -- the carry goes into a power of two
      have hcarry : n / 2 ^ (n.log2 - 52) + 1 = 2 ^ 53 := Nat.le_antisymm hq hlarge
      refine ⟨1, 53 + (n.log2 - 52), by decide, ?_⟩
      rw [Nat.one_mul, Nat.pow_add, hcarry]
  · exact ⟨_, _, hq, rfl⟩

theorem roundDouble_le (n : Nat) : roundDouble n ≤ 2 * n := by
  rcases Nat.lt_or_ge n (2 ^ 53) with hlt | hge
  · rw [roundDouble_of_le (Nat.le_of_lt hlt)]
    omega
  have hle : 2 ^ (n.log2 - 52) ≤ n := by
    have hlog : 2 ^ n.log2 ≤ n := Nat.log2_self_le (by omega)
    exact Nat.le_trans (Nat.pow_le_pow_right (by decide) (Nat.sub_le _ _)) hlog
  have hdiv := Nat.div_mul_le_self n (2 ^ (n.log2 - 52))
  rw [roundDouble, if_neg (by omega)]
  dsimp only
  split
  · rw [Nat.add_mul]
    omega
  · omega

theorem mem_of_fits {n : Nat} (h : Fits 53 n) : binary64.Mem (n : ℚ) := by
  obtain ⟨m, e, hm, rfl⟩ := h
  refine ⟨m, e, hm, ?_, ?_⟩
  · have hleast : binary64.least = -1074 := rfl
    omega
  · rw [zpow_natCast]
    norm_cast

/-- `cJSON_CreateNumber` of any integer of 64 bits. -/
theorem representable_createNumber {num : Int} (h : num.natAbs < 2 ^ 64) :
    Representable (createNumber num) := by
  have habs : |((toDouble num : Int) : ℚ)| = (roundDouble num.natAbs : ℚ) := by
    have hnat : (toDouble num).natAbs = roundDouble num.natAbs := by
      rw [toDouble, Int.natAbs_mul, Int.natAbs_natCast]
      by_cases hzero : num = 0
      · rw [hzero]
        rfl
      · rw [Int.natAbs_sign_of_ne_zero hzero, Nat.one_mul]
    rw [← Int.cast_abs, Int.abs_eq_natAbs, hnat]
    norm_cast
  refine ⟨?_, ?_, ?_⟩
  · rw [habs]
    exact mem_of_fits (fits_roundDouble _)
  · rw [habs]
    have hle := roundDouble_le num.natAbs
    have hlt : (roundDouble num.natAbs : ℚ) < 2 ^ 65 := by
      exact_mod_cast (by omega : roundDouble num.natAbs < 2 ^ 65)
    exact hlt.trans_le (pow_le_pow_right₀ (by norm_num) (by norm_num))
  · have htruncate : Double.truncate ((toDouble num : Int) : ℚ) = toDouble num := by
      unfold Double.truncate
      split
      · exact Int.ceil_intCast _
      · exact Int.floor_intCast _
    rw [htruncate]

theorem mem_of_mem_present {κ ν : Type} {rows : List (Bool × κ × ν)} {kv : κ × ν}
    (h : kv ∈ present rows) : ∃ c, (c, kv) ∈ rows := by
  obtain ⟨⟨c, kv'⟩, hrow, heq⟩ := List.mem_filterMap.mp h
  split at heq
  · exact ⟨c, Option.some.inj heq ▸ hrow⟩
  · cases heq

/-- The object of a client holds `double`s. -/
theorem representable_sent (protocol : Protocol) (t : IperfTest) :
    Representable (sentObject protocol t) := by
  have hint : ∀ n : Int32, Representable (createNumber n.toInt) := by
    intro n
    have hlt := n.toInt_lt
    have hle := n.le_toInt
    exact representable_createNumber (by omega)
  have hquantity : ∀ n : UInt64, Representable (createNumber n.toNat) := by
    intro n
    have hlt := n.toNat_lt
    exact representable_createNumber (by omega)
  have hstring : ∀ name s, Representable (stringRow name s).2.2 := by
    intro name s
    cases s with
    | none => trivial
    | some s => trivial
  refine representableMembers_iff.mpr fun member hmember => ?_
  obtain ⟨c, hrow⟩ := mem_of_mem_present hmember
  have hrows : ∀ row ∈ parameterRows protocol t, Representable row.2.2 := by
    simp [parameterRows, hint, hquantity, hstring, Representable]
  exact hrows _ hrow

theorem nestingMembers_le {n : Nat} : ∀ {members : List (CString × CJson)},
    (∀ member ∈ members, (Item.ofCJson member.2).nesting ≤ n) →
    Item.nestingMembers (Item.ofCJsonMembers members) ≤ n
  | [], _ => Nat.zero_le n
  | _ :: _, h =>
      Nat.max_le.mpr ⟨h _ List.mem_cons_self,
        nestingMembers_le fun member hmember => h member (List.mem_cons_of_mem _ hmember)⟩

/-- It has no containers inside. -/
theorem nesting_sent (protocol : Protocol) (t : IperfTest) :
    (Item.ofCJson (sentObject protocol t)).nesting ≤ CJSON_NESTING_LIMIT := by
  have hstring : ∀ name s, (Item.ofCJson (stringRow name s).2.2).nesting ≤ 999 := by
    intro name s
    cases s with
    | none => exact Nat.zero_le _
    | some s => exact Nat.zero_le _
  refine Nat.succ_le_succ (nestingMembers_le (n := 999) fun member hmember => ?_)
  obtain ⟨c, hrow⟩ := mem_of_mem_present hmember
  have hrows : ∀ row ∈ parameterRows protocol t, (Item.ofCJson row.2.2).nesting ≤ 999 := by
    simp [parameterRows, hstring, Item.ofCJson, createNumber, Item.nesting]
  exact hrows _ hrow

/-! ## The library -/

variable {memory : Memory}

/-- The unformatted text of a document. -/
def textOf (doc : CJson) : CString :=
  ⟨render false 0 (Item.ofCJson doc), nulFree_render false 0 (Item.ofCJson doc)⟩

theorem printUnformatted_cjson (hgranted : ∀ size, memory.granted size = true) (doc : CJson)
    (hfits : (textOf doc).bytes.length + 2 ≤ LLONG_MAX) :
    (cjson memory).printUnformatted doc = some (textOf doc) := by
  have hslack := (slack_cases (Item.ofCJson doc)).2
  obtain ⟨post, hprint⟩ := print_spec hgranted (Item.ofCJson doc) false
    (Nat.le_trans (Nat.add_le_add_left hslack _) hfits)
  simp only [cjson, hprint]
  exact congrArg some (cstringOf_terminated (textOf doc) post)

theorem parse_cjson (memory : Memory) {doc : CJson} (hdoc : Representable doc)
    (hnesting : (Item.ofCJson doc).nesting ≤ CJSON_NESTING_LIMIT) :
    (cjson memory).parse (textOf doc) = some doc := by
  obtain ⟨position, _, hparse, _⟩ := cjsonParseWithOpts_eq (textOf doc) false
  have hread := readDocument_render (rawFree_ofCJson doc) false false
  rw [if_pos hnesting] at hread
  have hparse' : cjsonParse (textOf doc) = .ok (some (Item.ofCJson doc).printed) := by
    rw [cjsonParse, hparse]
    exact congrArg (fun r => Except.ok r) hread
  simp only [cjson, hparse']
  exact toCJson_ofCJson hdoc

/-- **cjson.c keeps the contract of a library**: an item with finite numbers and up
to 1000 levels of containers comes back as it was printed. -/
theorem cjson_round_trip (hgranted : ∀ size, memory.granted size = true) {doc : CJson}
    (hdoc : Representable doc) (hnesting : (Item.ofCJson doc).nesting ≤ CJSON_NESTING_LIMIT)
    (hfits : (textOf doc).bytes.length + 2 ≤ LLONG_MAX) :
    ((cjson memory).printUnformatted doc).bind (cjson memory).parse = some doc := by
  rw [printUnformatted_cjson hgranted doc hfits]
  exact parse_cjson memory hdoc hnesting

/-- A number the program has made. -/
theorem cjson_round_trip_number :
    ((cjson .unlimited).printUnformatted (createNumber (-7))).bind (cjson .unlimited).parse
      = some (createNumber (-7)) := by
  have hsmall : ∀ q n, (textOf (.number q n)).bytes.length + 2 ≤ LLONG_MAX ∧
      (Item.ofCJson (.number q n)).nesting ≤ CJSON_NESTING_LIMIT := fun q n =>
    ⟨Nat.le_trans (Nat.add_le_add_right (length_numberBuffer_le _) 2) (by decide), Nat.zero_le _⟩
  obtain ⟨hfits, hnesting⟩ := hsmall (toDouble (-7) : Int) (saturate (toDouble (-7)))
  exact cjson_round_trip (fun _ => rfl) (representable_createNumber (by decide)) hnesting hfits

/-! ## The exchange -/

/-- The value of a field that `send_parameters` leaves out. -/
def unsent : IntField → Option Int32
  | .serverAffinity => some (-1)
  | .numStreams => none
  | _ => some 0

/-- The value of a quantity, rounded to a `double` and saturated. -/
def asNumber (v : UInt64) : Nat :=
  if 2 ^ 63 ≤ roundDouble v.toNat then 2 ^ 63 - 1 else roundDouble v.toNat

/-- What the server has once it has decoded the object of a client. -/
structure Arrived (client server server' : IperfTest) : Prop where
  number : ∀ field : IntField, field.value server'
    = if unsent field = some (field.value client) then field.value server else field.value client
  quantity : ∀ quantity : Quantity, (quantity.value server').toNat
    = if quantity.value client = 0 then (quantity.value server).toNat
      else asNumber (quantity.value client)
  title : server'.title = client.title.or server.title
  congestion : server'.congestion = client.congestion.or server.congestion
  congestionUsed : server'.congestionUsed = client.congestionUsed.or server.congestionUsed
  noDelay : server'.noDelay = if client.noDelay ≠ 0 then 1 else server.noDelay
  reverse : server'.reverse = if client.reverse ≠ 0 then 1 else server.reverse
  getServerOutput : server'.getServerOutput
    = if client.getServerOutput ≠ 0 then 1 else server.getServerOutput
  udpCounters64bit : server'.udpCounters64bit
    = if client.udpCounters64bit ≠ 0 then 1 else server.udpCounters64bit
  sender : server'.sender = if client.reverse ≠ 0 then lnot server.sender else server.sender
  protocol : server'.protocol = server.protocols.find? (·.id = Ptcp)

/-- A member that is left out when it has the value `d`. -/
theorem ite_unsent (x d old : Int32) :
    (if decide (x ≠ d) then x else old) = if some d = some x then old else x := by
  by_cases h : x = d
  · simp [h]
  · simp [h, Ne.symm h]

theorem intField_sent (field : IntField) (protocol : Protocol) (client server : IperfTest) :
    field.value (decoded (sentObject protocol client) server)
      = if unsent field = some (field.value client) then field.value server
        else field.value client := by
  rw [field.value_decoded]
  have row := @row_mem protocol client
  cases field with
  | serverAffinity => exact (intItem_sent _ (row 2 rfl)).trans (ite_unsent _ _ _)
  | duration => exact (intItem_sent _ (row 3 rfl)).trans (ite_unsent _ _ _)
  | mss => exact (intItem_sent _ (row 6 rfl)).trans (ite_unsent _ _ _)
  | numStreams => exact intItem_sent _ (row 8 rfl)
  | socketBufsize => exact (intItem_sent _ (row 10 rfl)).trans (ite_unsent _ _ _)
  | blksize => exact (intItem_sent _ (row 11 rfl)).trans (ite_unsent _ _ _)
  | pacingTimer => exact (intItem_sent _ (row 14 rfl)).trans (ite_unsent _ _ _)
  | burst => exact (intItem_sent _ (row 15 rfl)).trans (ite_unsent _ _ _)
  | tos => exact (intItem_sent _ (row 16 rfl)).trans (ite_unsent _ _ _)

theorem quantity_sent (quantity : Quantity) (protocol : Protocol) (client server : IperfTest) :
    (quantity.value (decoded (sentObject protocol client) server)).toNat
      = if quantity.value client = 0 then (quantity.value server).toNat
        else asNumber (quantity.value client) := by
  rw [quantity.value_decoded, uint64Item, getObjectItem_sent (quantity.row_mem protocol client)]
  by_cases h : quantity.value client = 0
  · simp [h]
  · simp only [ne_eq, h, not_false_eq_true, decide_true, if_true, if_false]
    exact toNat_createNumber _

theorem arrived_decoded {protocol entry : Protocol} {client server : IperfTest}
    (htcp : protocol.id = Ptcp) (hfind : server.protocols.find? (·.id = Ptcp) = some entry) :
    Arrived client server (decoded (sentObject protocol client) server) := by
  have row := @row_mem protocol client
  have hreverse := getObjectItem_sent (row 9 rfl)
  exact
    { number := fun field => intField_sent field protocol client server
      quantity := fun quantity => quantity_sent quantity protocol client server
      title := decodedString_sent _ (row 17 rfl)
      congestion := decodedString_sent _ (row 18 rfl)
      congestionUsed := decodedString_sent _ (row 19 rfl)
      noDelay := (flagItem_sent server.noDelay (row 7 rfl)).trans (by simp)
      reverse := (flagItem_sent server.reverse (row 9 rfl)).trans (by simp)
      getServerOutput := (flagItem_sent server.getServerOutput (row 20 rfl)).trans (by simp)
      udpCounters64bit := (flagItem_sent server.udpCounters64bit (row 21 rfl)).trans (by simp)
      sender := by
        rw [decoded_sender, decodedSender, hreverse]
        by_cases h : client.reverse = 0
        · simp [h]
        · simp [h]
      protocol := (decoded_protocol_sent client htcp hfind).trans hfind.symm }

/-- `send_parameters` reports a success only where `JSON_write` does. -/
theorem sendParameters_zero {json : CjsonLib} {client : IperfTest} {protocol : Protocol}
    {sys sys' : Sys} (hprotocol : client.protocol = some protocol)
    (h : sendParameters json client sys = .ok (0, sys')) :
    jsonWrite json client.ctrlSck (sentObject protocol client) sys = (0, sys') := by
  have hobject : sendParametersObject client = .ok (sentObject protocol client) := by
    rw [sendParametersObject, hprotocol]
  rcases hw : jsonWrite json client.ctrlSck (sentObject protocol client) sys with ⟨r, sys₁⟩
  have hret : r = 0 ∨ r = -1 := by
    have hr := congrArg Prod.fst hw
    unfold jsonWrite at hr
    split at hr
    · exact Or.inr hr.symm
    · dsimp only at hr
      split at hr
      · exact Or.inr hr.symm
      · split at hr
        · exact Or.inr hr.symm
        · exact Or.inl hr.symm
  rw [sendParameters, hobject] at h
  simp only [bind, Except.bind, hw] at h
  rcases hret with rfl | rfl
  · cases h
    rfl
  · cases h

/-- **The parameter exchange over cjson.c.** A TCP client sends its parameters under
any partial writes that do not truncate the message; the bytes come to the server in any
chunks. Then the server decodes the parameters, reads nothing further, and has what
the client sent. -/
theorem parameters_arrive (hgranted : ∀ size, memory.granted size = true)
    {client server : IperfTest} {protocol : Protocol} {writer writer' reader : Sys}
    {wire rest : List UInt8} (hprotocol : client.protocol = some protocol)
    (htcp : protocol.id = Ptcp) (hregistered : ∃ entry ∈ server.protocols, entry.id = Ptcp)
    (hlen : (textOf (sentObject protocol client)).bytes.length < 2 ^ 31 - 1)
    (hcut : ¬ Truncates (textOf (sentObject protocol client)).bytes.length writer.outbox)
    (hsend : sendParameters (cjson memory) client writer = .ok (0, writer'))
    (hwire : sent client.ctrlSck writer'.trace = sent client.ctrlSck writer.trace ++ wire)
    (hcalloc : reader.callocOk = true) (hdata : Arrival.AllData reader.inbox)
    (harrives : Arrival.contents reader.inbox = wire ++ rest) :
    ∃ server' reader', getParameters (cjson memory) server reader = .ok (0, server', reader') ∧
      Arrival.contents reader'.inbox = rest ∧ Arrived client server server' := by
  have hmax : LLONG_MAX = 9223372036854775807 := rfl
  have hprint := printUnformatted_cjson hgranted (sentObject protocol client) (by omega)
  have hparse := parse_cjson memory (representable_sent protocol client)
    (nesting_sent protocol client)
  -- what the client has written
  have hframe : wire = frame (textOf (sentObject protocol client)) := by
    have hwrite := sendParameters_zero hprotocol hsend
    obtain ⟨text, htext, hsent⟩ :=
      (jsonWrite_whole_iff (cjson memory) client.ctrlSck (sentObject protocol client) writer).mpr
        (fun text htext => Option.some.inj (hprint.symm.trans htext) ▸ hcut) (by rw [hwrite])
    obtain rfl := Option.some.inj (hprint.symm.trans htext)
    rw [hwrite] at hsent
    exact List.append_cancel_left (hwire.symm.trans hsent)
  obtain ⟨entry, hfind⟩ := Option.isSome_iff_exists.mp
    (List.find?_isSome.mpr (hregistered.imp fun _ h => h.imp_right decide_eq_true))
  have hdecodable : Decodable (sentObject protocol client) server := decodable_sent htcp hfind
  rw [hframe] at harrives
  obtain ⟨reader', hread, _, _, hrest⟩ :=
    jsonRead_frame (cjson memory) server.ctrlSck hcalloc hdata hlen harrives
  have hrun := hread.run
  rw [hparse] at hrun
  exact ⟨_, reader', getParameters_ok.mpr ⟨_, hrun, Or.inr ⟨_, rfl, rfl, hdecodable, rfl⟩⟩, hrest,
    arrived_decoded htcp hfind⟩

/-- The text of a client that sends three members only is short. -/
theorem length_textOf_bare :
    (textOf (sentObject (tcpProtocol 0) (ratedClient 0))).bytes.length < 2 ^ 31 - 1 := by
  have hrows : present (parameterRows (tcpProtocol 0) (ratedClient 0))
      = [(lit "tcp", .true), (lit "server_affinity", createNumber 0),
         (lit "parallel", createNumber 0)] := rfl
  have hname : ∀ name ∈ [lit "tcp", lit "server_affinity", lit "parallel"],
      (quoted name).length < 100 := by
    decide
  have htrue : (literal "true").length = 4 := rfl
  obtain ⟨d, hd⟩ : ∃ d, Item.ofCJson (createNumber 0) = .number d := ⟨_, rfl⟩
  have hnumber := length_numberBuffer_le d
  simp only [List.forall_mem_cons] at hname
  rw [textOf, sentObject, hrows]
  simp only [Item.ofCJson, Item.ofCJsonMembers, hd, render, renderMembers, formatted,
    List.length_cons, List.length_append, List.isEmpty_cons, List.isEmpty_nil, htrue]
  simp
  omega

/-- The parameters of such a client, sent at once, arrive at a new server. -/
theorem parameters_arrive_bare : ∃ server' reader',
    getParameters (cjson .unlimited) (newServer 0)
        (.arrived (frame (textOf (sentObject (tcpProtocol 0) (ratedClient 0)))))
      = .ok (0, server', reader') ∧
    Arrival.contents reader'.inbox = [] ∧ Arrived (ratedClient 0) (newServer 0) server' := by
  have hlen := length_textOf_bare
  have hmax : LLONG_MAX = 9223372036854775807 := rfl
  have hprint : (cjson .unlimited).printUnformatted (sentObject (tcpProtocol 0) (ratedClient 0))
      = some (textOf (sentObject (tcpProtocol 0) (ratedClient 0))) :=
    printUnformatted_cjson (fun _ => rfl) _ (by omega)
  obtain ⟨evs, e, hwrite, _, hsent⟩ :=
    @jsonWrite_of_moves _ 0 _ .quiet _ _ _ _ _ hprint (.all 4) (.all _)
  rw [if_pos (by omega)] at hwrite
  have hwhole : sent 0 evs = frame (textOf (sentObject (tcpProtocol 0) (ratedClient 0))) := by
    rw [hsent, frame, List.take_of_length_le (by simp), List.take_of_length_le (by omega)]
  have hsend : sendParameters (cjson .unlimited) (ratedClient 0) .quiet
      = .ok (0, { Sys.quiet with outbox := [], errno := e, trace := Sys.quiet.trace ++ evs }) := by
    have hobject : sendParametersObject (ratedClient 0)
        = .ok (sentObject (tcpProtocol 0) (ratedClient 0)) := rfl
    have hsck : (ratedClient 0).ctrlSck = 0 := rfl
    rw [sendParameters, hobject]
    simp only [bind, Except.bind, hsck, hwrite]
    rfl
  have hcut : ¬ Truncates (textOf (sentObject (tcpProtocol 0) (ratedClient 0))).bytes.length
      Sys.quiet.outbox := by
    rintro ⟨_, _, _, hcut | hcut | hlong⟩
    · exact Answer.not_cutOff_nil Interrupts 4 hcut
    · exact Answer.not_cutOff_nil Interrupts _ hcut
    · omega
  exact parameters_arrive (fun _ => rfl) rfl rfl ⟨_, List.mem_singleton.mpr rfl, rfl⟩ hlen hcut
    hsend hwhole rfl (Arrival.allData_nil.requeue (frame _)) (Arrival.contents_requeue (frame _) [])

end KernelTestkit.Json
