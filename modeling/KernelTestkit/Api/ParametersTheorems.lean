/-
KernelTestkit.Api.ParametersTheorems — the decoder and the encoder, each as
a function.

* `applyParameters_ok` — the decoder returns exactly when a document and a
  test are `Decodable`, and then gives the test `decoded`: every field it
  sets as a function of the document and the test before.
* `getObjectItem_sent` — a member is found in the object `send_parameters`
  builds exactly when the condition of its row holds. With it each item
  lookup on that object is known (`intItem_sent`, `uint64Item_sent`,
  `flagItem_sent`, `decodedString_sent`).
* `decodable_sent` — no server with TCP registered faults on the object of
  a TCP client.
-/
import KernelTestkit.Api.Parameters
import KernelTestkit.Api.FrameTheorems
import KernelTestkit.Api.TestTheorems

namespace KernelTestkit.Api

open KernelTestkit.Lib
open KernelTestkit.Net

/-! ## The decoder as a function -/

/-- The protocol after the line for `name`. -/
def selectedProtocol (j : CJson) (name : CString) (protId : Int32) (t : IperfTest) :
    Option Protocol :=
  match getObjectItem j name with
  | some _ => (t.protocols.find? (·.id = protId)).or t.protocol
  | none => t.protocol

/-- The test after the line for the protocol `name`. -/
def afterProtocol (j : CJson) (name : CString) (protId : Int32) (t : IperfTest) : IperfTest :=
  { t with
    protocol := selectedProtocol j name protId t
    senderHasRetransmits :=
      match getObjectItem j name, t.protocols.find? (·.id = protId) with
      | some _, some protocol => retransmits { t with protocol := some protocol }
      | _, _ => t.senderHasRetransmits }

/-- The direction flag after the line for "reverse". -/
def decodedSender (j : CJson) (t : IperfTest) : Int32 :=
  match getObjectItem j (lit "reverse") with
  | some _ => lnot t.sender
  | none => t.sender

/-- The test after the line for "reverse". -/
def afterReverse (j : CJson) (t : IperfTest) : IperfTest :=
  { t with
    reverse := flagItem j (lit "reverse") t.reverse
    sender := decodedSender j t
    senderHasRetransmits :=
      match getObjectItem j (lit "reverse") with
      | some _ => retransmits { t with sender := lnot t.sender }
      | none => t.senderHasRetransmits }

/-- The test after the last line. -/
def afterRetransmits (t : IperfTest) : IperfTest :=
  { t with
    senderHasRetransmits :=
      if t.sender ≠ 0 ∧ t.protocol.any (·.id = Ptcp) then 1 else t.senderHasRetransmits }

/-- The string a string field holds afterwards. -/
def decodedString (j : CJson) (name : CString) (field : Option CString) : Option CString :=
  match getObjectItem j name with
  | some j_p => j_p.valuestring
  | none => field

/-- The test after the string lines. -/
def afterStrings (j : CJson) (t : IperfTest) : IperfTest :=
  { t with
    title := decodedString j (lit "title") t.title
    congestion := decodedString j (lit "congestion") t.congestion
    congestionUsed := decodedString j (lit "congestion_used") t.congestionUsed }

/-- The test after the lines for the protocols and "reverse". -/
def directed (j : CJson) (t : IperfTest) : IperfTest :=
  afterReverse j (limitItems j
    (afterProtocol j (lit "udp") Pudp (afterProtocol j (lit "tcp") Ptcp t)))

/-- The test `get_parameters` leaves. -/
def decoded (j : CJson) (t : IperfTest) : IperfTest :=
  afterRetransmits (outputItems j (afterStrings j (tuningItems j (directed j t))))

/-- A member that is there is a string. -/
def StringIfFound (j : CJson) (name : CString) : Prop :=
  ∀ item, getObjectItem j name = some item → ∃ s, item = .string s

/-- What `get_parameters` dereferences is there: the strings it copies, and
the protocol when the test sends. -/
structure Decodable (j : CJson) (t : IperfTest) : Prop where
  title : StringIfFound j (lit "title")
  congestion : StringIfFound j (lit "congestion")
  congestionUsed : StringIfFound j (lit "congestion_used")
  protocol : SenderHasProtocol (decoded j t)

theorem stringIfFound_of_none {j : CJson} {name : CString} (h : getObjectItem j name = none) :
    StringIfFound j name := by
  intro item hitem
  rw [h] at hitem
  cases hitem

theorem protocolItem_eq (j : CJson) (name : CString) (protId : Int32) (t : IperfTest) :
    protocolItem j name protId t = .ok (afterProtocol j name protId t) := by
  cases hj : getObjectItem j name with
  | none => simp [protocolItem, afterProtocol, selectedProtocol, hj]
  | some item =>
      obtain ⟨⟨r, t'⟩, hset⟩ := setProtocol_total t protId
      simp only [protocolItem, hj]
      refine bind_ok_iff.mpr ⟨_, hset, ?_⟩
      rcases setProtocol_ok hset with ⟨protocol, hfind, _, rfl⟩ | ⟨hfind, _, rfl⟩
      · simp [afterProtocol, selectedProtocol, hj, hfind, pure, Except.pure]
      · simp [afterProtocol, selectedProtocol, hj, hfind, pure, Except.pure]

theorem reverseItem_ok {j : CJson} {t t' : IperfTest} :
    reverseItem j t = .ok t' ↔
      ((getObjectItem j (lit "reverse")).isSome → SenderHasProtocol (afterReverse j t)) ∧
      t' = afterReverse j t := by
  cases hj : getObjectItem j (lit "reverse") with
  | none =>
      have hsame : afterReverse j t = t := by simp [afterReverse, decodedSender, flagItem, hj]
      simp only [reverseItem, hj, hsame, Except.ok.injEq, Option.isSome_none]
      simp only [Bool.false_eq_true, false_imp_iff, true_and]
      exact eq_comm
  | some item =>
      have hsender : reverseSender t 1 = lnot t.sender := by simp [reverseSender]
      simp only [reverseItem, hj, iperfSetTestReverse_ok, hsender]
      simp [afterReverse, decodedSender, flagItem, SenderHasProtocol, hj]

theorem retransmitsItem_eq {t : IperfTest} (h : SenderHasProtocol t) :
    retransmitsItem t = .ok (afterRetransmits t) := by
  unfold retransmitsItem afterRetransmits
  split
  · rename_i hs
    split
    · rename_i hp
      exact absurd hp (h hs)
    · rename_i protocol hp
      by_cases hid : protocol.id = Ptcp
      · rw [if_pos hid, if_pos ⟨hs, by simp [hp, hid]⟩]
      · rw [if_neg hid, if_neg (fun hc => hid (by simpa [hp] using hc.2))]
  · rename_i hs
    rw [if_neg (fun hc => hs hc.1)]

theorem retransmitsItem_ok {t t' : IperfTest} :
    retransmitsItem t = .ok t' ↔ SenderHasProtocol t ∧ t' = afterRetransmits t := by
  constructor
  · intro h
    have hprot : SenderHasProtocol t := by
      intro hs hp
      simp [retransmitsItem, hs, hp] at h
    rw [retransmitsItem_eq hprot] at h
    injection h with h
    exact ⟨hprot, h.symm⟩
  · rintro ⟨hprot, rfl⟩
    exact retransmitsItem_eq hprot

theorem stringItem_ok {j : CJson} {name : CString} {field s : Option CString} :
    stringItem j name field = .ok s ↔
      StringIfFound j name ∧ s = decodedString j name field := by
  cases hj : getObjectItem j name with
  | none =>
      simp only [stringItem, StringIfFound, decodedString, hj, Except.ok.injEq]
      simp [eq_comm]
  | some item =>
      cases item <;>
        simp [stringItem, StringIfFound, decodedString, hj, CJson.valuestring, strdup, bind,
          Except.bind, pure, Except.pure]
      exact eq_comm

theorem stringItems_ok {j : CJson} {t t' : IperfTest} :
    stringItems j t = .ok t' ↔
      (StringIfFound j (lit "title") ∧ StringIfFound j (lit "congestion") ∧
        StringIfFound j (lit "congestion_used")) ∧ t' = afterStrings j t := by
  simp only [stringItems, bind_ok_iff, stringItem_ok]
  constructor
  · rintro ⟨_, ⟨htitle, rfl⟩, _, ⟨hcong, rfl⟩, _, ⟨hused, rfl⟩, h⟩
    cases h
    exact ⟨⟨htitle, hcong, hused⟩, rfl⟩
  · rintro ⟨⟨htitle, hcong, hused⟩, rfl⟩
    exact ⟨_, ⟨htitle, rfl⟩, _, ⟨hcong, rfl⟩, _, ⟨hused, rfl⟩, rfl⟩

/-- **What `get_parameters` does with a document**: it returns exactly when
everything it dereferences is there, and gives the test `decoded`. -/
theorem applyParameters_ok {j : CJson} {t t' : IperfTest} :
    applyParameters j t = .ok t' ↔ Decodable j t ∧ t' = decoded j t := by
  simp only [applyParameters, bind_ok_iff, protocolItem_eq, Except.ok.injEq, reverseItem_ok,
    stringItems_ok, retransmitsItem_ok]
  constructor
  · rintro ⟨_, rfl, _, rfl, _, ⟨_, rfl⟩, _, ⟨⟨htitle, hcong, hused⟩, rfl⟩, hprot, rfl⟩
    exact ⟨⟨htitle, hcong, hused, hprot⟩, rfl⟩
  · rintro ⟨⟨htitle, hcong, hused, hprot⟩, rfl⟩
    exact ⟨_, rfl, _, rfl, _, ⟨fun _ => hprot, rfl⟩, _, ⟨⟨htitle, hcong, hused⟩, rfl⟩, hprot,
      rfl⟩

/-- `get_parameters` returns -1 when no document was delivered, and
otherwise applies the document and returns 0. -/
theorem getParameters_ok {json : CjsonLib} {t t' : IperfTest} {sys sys' : Sys} {r : Int32} :
    getParameters json t sys = .ok (r, t', sys') ↔
      ∃ doc, jsonRead json t.ctrlSck sys = .ok (doc, sys') ∧
        (doc = none ∧ r = -1 ∧ t' = t ∨
          ∃ j, doc = some j ∧ r = 0 ∧ Decodable j t ∧ t' = decoded j t) := by
  simp only [getParameters, bind_ok_iff]
  constructor
  · rintro ⟨⟨doc, sys₁⟩, hread, h⟩
    cases doc with
    | none =>
        cases h
        exact ⟨none, hread, Or.inl ⟨rfl, rfl, rfl⟩⟩
    | some j =>
        obtain ⟨t₁, happly, h⟩ := bind_ok_iff.mp h
        cases h
        exact ⟨some j, hread, Or.inr ⟨j, rfl, rfl, applyParameters_ok.mp happly⟩⟩
  · rintro ⟨doc, hread, ⟨rfl, rfl, rfl⟩ | ⟨j, rfl, rfl, happly⟩⟩
    · exact ⟨_, hread, rfl⟩
    · exact ⟨_, hread, bind_ok_iff.mpr ⟨_, applyParameters_ok.mpr happly, rfl⟩⟩

/-- One call of `JSON_read` delivers one document. -/
theorem jsonRead_delivers_one {json : CjsonLib} {fd : Fd} {sys sys₁ sys₂ : Sys} {j k : CJson}
    (hj : jsonRead json fd sys = .ok (some j, sys₁))
    (hk : jsonRead json fd sys = .ok (some k, sys₂)) : j = k := by
  injection hj.symm.trans hk with hpair
  injection hpair with hdoc
  injection hdoc

/-- With a document delivered, `get_parameters` can only have decoded it. -/
theorem getParameters_of_delivered {json : CjsonLib} {t t' : IperfTest} {sys sys₁ sys' : Sys}
    {j : CJson} {r : Int32} (hread : jsonRead json t.ctrlSck sys = .ok (some j, sys₁))
    (hget : getParameters json t sys = .ok (r, t', sys')) :
    r = 0 ∧ Decodable j t ∧ t' = decoded j t := by
  obtain ⟨_, hread', ⟨rfl, _, _⟩ | ⟨k, rfl, hr, hdecoded⟩⟩ := getParameters_ok.mp hget
  · cases hread'.symm.trans hread
  · obtain rfl := jsonRead_delivers_one hread hread'
    exact ⟨hr, hdecoded⟩

/-- A document that waits in the inbox is decoded. -/
theorem getParameters_delivered {json : CjsonLib} (t : IperfTest) {sys : Sys} {text : CString}
    {j : CJson} {rest : List UInt8} (hcalloc : sys.callocOk = true)
    (hall : Arrival.AllData sys.inbox) (hlen : text.bytes.length < 2 ^ 31 - 1)
    (hin : Arrival.contents sys.inbox = frame text ++ rest) (hparse : json.parse text = some j)
    (hdecodable : Decodable j t) :
    ∃ sys', jsonRead json t.ctrlSck sys = .ok (some j, sys') ∧
      getParameters json t sys = .ok (0, decoded j t, sys') := by
  obtain ⟨sys', hread, _⟩ := jsonRead_frame json t.ctrlSck hcalloc hall hlen hin
  have hrun := hread.run
  rw [hparse] at hrun
  exact ⟨sys', hrun, getParameters_ok.mpr
    ⟨some j, hrun, Or.inr ⟨j, rfl, rfl, hdecodable, rfl⟩⟩⟩

/-- A run on one document that has arrived whole. -/
theorem getParameters_single {t : IperfTest} (text : CString) {j : CJson}
    (hlen : text.bytes.length < 2 ^ 31 - 1) (hdecodable : Decodable j t) :
    ∃ sys', jsonRead (.single text j) t.ctrlSck (.arrived (frame text)) = .ok (some j, sys') ∧
      getParameters (.single text j) t (.arrived (frame text)) = .ok (0, decoded j t, sys') :=
  getParameters_delivered t rfl (Arrival.allData_nil.requeue (frame text)) hlen
    (Arrival.contents_requeue (frame text) []) (if_pos rfl) hdecodable

theorem decoded_reverse (j : CJson) (t : IperfTest) :
    (decoded j t).reverse = flagItem j (lit "reverse") t.reverse := rfl

theorem decoded_sender (j : CJson) (t : IperfTest) :
    (decoded j t).sender = decodedSender j t := rfl

/-- The decoder leaves the connection and the state of the test alone. -/
theorem decoded_frame (j : CJson) (t : IperfTest) :
    (decoded j t).ctrlSck = t.ctrlSck ∧ (decoded j t).listener = t.listener ∧
      (decoded j t).state = t.state := by
  dsimp only [decoded, afterRetransmits, outputItems, afterStrings, tuningItems, directed,
    afterReverse, limitItems, afterProtocol]
  exact ⟨rfl, rfl, rfl⟩

/-! ## The encoder -/

/-- The keys of `send_parameters`, in order. -/
def parameterKeys : List CString :=
  [lit "tcp", lit "udp", lit "server_affinity", lit "time", lit "num", lit "blockcount",
   lit "MSS", lit "nodelay", lit "parallel", lit "reverse", lit "window", lit "len",
   lit "bandwidth", lit "fqrate", lit "pacing_timer", lit "burst", lit "TOS", lit "title",
   lit "congestion", lit "congestion_used", lit "get_server_output", lit "udp_counters_64bit"]

theorem parameterRows_keys (protocol : Protocol) (t : IperfTest) :
    (parameterRows protocol t).map (·.2.1) = parameterKeys := rfl

/-- No two keys are equal up to case. -/
theorem parameterKeys_nodup : (parameterKeys.map foldCase).Nodup := by
  decide +kernel

section Sent

variable {protocol : Protocol} {t : IperfTest} {c : Bool} {name : CString}

/-- The object `send_parameters` builds for a test and its protocol. -/
abbrev sentObject (protocol : Protocol) (t : IperfTest) : CJson :=
  .object (present (parameterRows protocol t))

/-- A member is found in the object sent exactly when it was added. -/
theorem getObjectItem_sent {item : CJson} (h : (c, name, item) ∈ parameterRows protocol t) :
    getObjectItem (sentObject protocol t) name = if c then some item else none := by
  refine getObjectItem_present ?_ h
  have hkeys := congrArg (List.map foldCase) (parameterRows_keys protocol t)
  rw [List.map_map] at hkeys
  exact hkeys ▸ parameterKeys_nodup

theorem intItem_sent {n : Int32} (field : Int32)
    (h : (c, name, createNumber n.toInt) ∈ parameterRows protocol t) :
    intItem (sentObject protocol t) name field = if c then n else field := by
  rw [intItem, getObjectItem_sent h]
  cases c
  · rfl
  · exact toInt32_createNumber n

theorem uint64Item_sent {n : UInt64} (field : UInt64) (hn : n.toNat ≤ 2 ^ 53)
    (h : (c, name, createNumber n.toNat) ∈ parameterRows protocol t) :
    uint64Item (sentObject protocol t) name field = if c then n else field := by
  rw [uint64Item, getObjectItem_sent h]
  cases c
  · rfl
  · exact toUInt64_createNumber hn

theorem flagItem_sent {item : CJson} (field : Int32)
    (h : (c, name, item) ∈ parameterRows protocol t) :
    flagItem (sentObject protocol t) name field = if c then 1 else field := by
  rw [flagItem, getObjectItem_sent h]
  cases c <;> rfl

theorem flagItem_sent_ne_zero {item : CJson} (h : (c, name, item) ∈ parameterRows protocol t) :
    flagItem (sentObject protocol t) name 0 ≠ 0 ↔ c = true := by
  rw [flagItem_sent 0 h]
  cases c <;> simp

theorem decodedString_sent {s : Option CString} (field : Option CString)
    (h : stringRow name s ∈ parameterRows protocol t) :
    decodedString (sentObject protocol t) name field = s.or field := by
  rw [decodedString, getObjectItem_sent h]
  cases s <;> rfl

theorem stringIfFound_sent {s : Option CString}
    (h : stringRow name s ∈ parameterRows protocol t) :
    StringIfFound (sentObject protocol t) name := by
  intro item hitem
  rw [getObjectItem_sent h] at hitem
  cases s with
  | none => cases hitem
  | some s => exact ⟨s, (Option.some.inj hitem).symm⟩

/-- The `k`-th row, by evaluation. -/
theorem row_mem (protocol : Protocol) (t : IperfTest) {row : Bool × CString × CJson} (k : Nat)
    (h : (parameterRows protocol t)[k]? = some row) : row ∈ parameterRows protocol t :=
  List.mem_of_getElem? h

end Sent

/-! ## The object of a TCP client -/

/-- What the decoder selects from the object of a TCP client: the first TCP
entry. -/
theorem decoded_protocol_sent {protocol entry : Protocol} (client : IperfTest) {t : IperfTest}
    (htcp : protocol.id = Ptcp) (hfind : t.protocols.find? (·.id = Ptcp) = some entry) :
    (decoded (sentObject protocol client) t).protocol = some entry := by
  have hselT : getObjectItem (sentObject protocol client) (lit "tcp") = some .true := by
    rw [getObjectItem_sent (row_mem protocol client 0 rfl), htcp]
    rfl
  have hselU : getObjectItem (sentObject protocol client) (lit "udp") = none := by
    rw [getObjectItem_sent (row_mem protocol client 1 rfl), htcp]
    rfl
  have hudp : (decoded (sentObject protocol client) t).protocol
      = selectedProtocol (sentObject protocol client) (lit "tcp") Ptcp t := by
    change selectedProtocol _ (lit "udp") Pudp _ = _
    rw [selectedProtocol, hselU]
    rfl
  rw [hudp, selectedProtocol, hselT, hfind]
  rfl

/-- The object of a TCP client makes a test with TCP registered fault
nowhere. -/
theorem decodable_sent {protocol entry : Protocol} {client t : IperfTest}
    (htcp : protocol.id = Ptcp) (hfind : t.protocols.find? (·.id = Ptcp) = some entry) :
    Decodable (sentObject protocol client) t where
  title := stringIfFound_sent (row_mem protocol client 17 rfl)
  congestion := stringIfFound_sent (row_mem protocol client 18 rfl)
  congestionUsed := stringIfFound_sent (row_mem protocol client 19 rfl)
  protocol _ := by simp [decoded_protocol_sent _ htcp hfind]

end KernelTestkit.Api
