/-
KernelTestkit.Api.RetransmitTheorems — the retransmit flag over a run of
calls.

Every call that changes `sender` or `protocol` recomputes the flag, except
`get_parameters` in its last line, which only raises it. `FlagInvariant`
says that a protocol is selected and that the flag is the one
`check_sender_has_retransmits` would compute.

* `flagInvariant_of_call` — one step, a case for each call.
* `setter_returns` — with a protocol selected no setter faults.
* `retransmits_of_run` — the flag after any number of calls.
-/
import KernelTestkit.Api.AgreementTheorems

namespace KernelTestkit.Api

open KernelTestkit.Lib
open KernelTestkit.Net

/-- The calls that touch the flag, or what it is computed from. -/
inductive FlagCall where
  | setProtocol (protId : Int32)
  | setTestRole (role : Char)
  | setTestReverse (reverse : Int32)
  /-- `get_parameters`, with `doc` delivered and accepted -/
  | getParameters (doc : CJson)

/-- The call returns, and leaves the test `t'`. -/
def FlagCall.Returns (t : IperfTest) : FlagCall → IperfTest → Prop
  | .setProtocol protId, t' => ∃ r, Api.setProtocol t protId = .ok (r, t')
  | .setTestRole role, t' => iperfSetTestRole t role = .ok t'
  | .setTestReverse reverse, t' => iperfSetTestReverse t reverse = .ok t'
  | .getParameters doc, t' => ∃ json sys sys₁ sys',
      jsonRead json t.ctrlSck sys = .ok (some doc, sys₁) ∧
      Api.getParameters json t sys = .ok (0, t', sys')

/-- `iperf_new_test` with these protocols registered and one selected. -/
def newSelected (protocols : List Protocol) (protocol : Protocol) : IperfTest :=
  { iperfNewTest with protocols := protocols, protocol := some protocol }

/-- A protocol is selected, and the flag is up to date. -/
structure FlagInvariant (t : IperfTest) : Prop where
  selected : t.protocol ≠ none
  upToDate : UpToDate t

/-! ## The start -/

theorem flagInvariant_newSelected (protocols : List Protocol) (protocol : Protocol) :
    FlagInvariant (newSelected protocols protocol) where
  selected := by simp [newSelected]
  upToDate := by simp [UpToDate, retransmits, newSelected, iperfNewTest]

/-! ## One call -/

theorem selectedProtocol_ne_none (j : CJson) (name : CString) (protId : Int32) {t : IperfTest}
    (h : t.protocol ≠ none) : selectedProtocol j name protId t ≠ none := by
  unfold selectedProtocol
  split
  · cases t.protocols.find? (·.id = protId) with
    | none => simpa using h
    | some protocol => simp
  · exact h

/-- `get_parameters` never deselects. -/
theorem decoded_protocol_ne_none (j : CJson) {t : IperfTest} (h : t.protocol ≠ none) :
    (decoded j t).protocol ≠ none :=
  selectedProtocol_ne_none j (lit "udp") Pudp
    (t := afterProtocol j (lit "tcp") Ptcp t) (selectedProtocol_ne_none j (lit "tcp") Ptcp h)

/-- **One step**: every call keeps the invariant. -/
theorem flagInvariant_of_call {t t' : IperfTest} {call : FlagCall} (h : FlagInvariant t)
    (hcall : call.Returns t t') : FlagInvariant t' := by
  cases call with
  | setProtocol protId =>
      obtain ⟨r, hset⟩ := hcall
      rcases setProtocol_ok hset with ⟨protocol, _, _, rfl⟩ | ⟨_, _, rfl⟩
      · exact ⟨by simp, rfl⟩
      · exact h
  | setTestRole role =>
      obtain ⟨_, rfl⟩ := iperfSetTestRole_ok.mp hcall
      exact ⟨h.selected, rfl⟩
  | setTestReverse reverse =>
      obtain ⟨_, rfl⟩ := iperfSetTestReverse_ok.mp hcall
      exact ⟨h.selected, rfl⟩
  | getParameters doc =>
      obtain ⟨json, sys, sys₁, sys', hread, hget⟩ := hcall
      obtain ⟨_, _, rfl⟩ := getParameters_of_delivered hread hget
      exact ⟨decoded_protocol_ne_none doc h.selected,
        (h.upToDate.afterProtocol doc (lit "tcp") Ptcp).decoded⟩

/-- With a protocol selected no setter faults. -/
theorem setter_returns {t : IperfTest} (h : FlagInvariant t) (call : FlagCall)
    (hsetter : ∀ doc, call ≠ .getParameters doc) : ∃ t', call.Returns t t' := by
  cases call with
  | setProtocol protId =>
      obtain ⟨⟨r, t'⟩, hset⟩ := setProtocol_total t protId
      exact ⟨t', r, hset⟩
  | setTestRole role => exact ⟨_, iperfSetTestRole_ok.mpr ⟨fun _ => h.selected, rfl⟩⟩
  | setTestReverse reverse => exact ⟨_, iperfSetTestReverse_ok.mpr ⟨fun _ => h.selected, rfl⟩⟩
  | getParameters doc => exact absurd rfl (hsetter doc)

/-! ## Runs -/

/-- **The retransmit flag over a run**: from a new test with a protocol
selected, after any calls, the flag is 1 if the test sends over TCP and 0
otherwise, and every setter can be called next. -/
theorem retransmits_of_run (protocols : List Protocol) (protocol : Protocol) (t : IperfTest)
    (calls : List FlagCall)
    (hrun : Steps (fun t call t' => FlagCall.Returns t call t') (newSelected protocols protocol)
      calls t) :
    (∃ current, t.protocol = some current ∧
      t.senderHasRetransmits = if t.sender ≠ 0 ∧ current.id = Ptcp then 1 else 0) ∧
    ∀ call : FlagCall, (∀ doc, call ≠ .getParameters doc) → ∃ t', call.Returns t t' := by
  have hinv : FlagInvariant t :=
    hrun.preserves (fun _ _ _ h hcall => flagInvariant_of_call h hcall)
      (flagInvariant_newSelected protocols protocol)
  refine ⟨?_, setter_returns hinv⟩
  obtain ⟨current, hcurrent⟩ := Option.ne_none_iff_exists'.mp hinv.selected
  refine ⟨current, hcurrent, ?_⟩
  rw [hinv.upToDate, retransmits, hcurrent]
  simp

/-- A client whose direction is reversed. -/
def reversedClient : IperfTest :=
  { newSelected [tcpProtocol 0] (tcpProtocol 0) with role := 'c', reverse := 1 }

/-- A client that fails to select UDP, and whose peer then reverses the
direction, is left without the flag. -/
theorem retransmits_of_run_reversed_client :
    (∃ current, reversedClient.protocol = some current ∧ reversedClient.senderHasRetransmits
      = if reversedClient.sender ≠ 0 ∧ current.id = Ptcp then 1 else 0) ∧
    ∀ call : FlagCall, (∀ doc, call ≠ .getParameters doc) →
      ∃ t', call.Returns reversedClient t' := by
  let client := { newSelected [tcpProtocol 0] (tcpProtocol 0) with
    role := 'c', sender := 1, senderHasRetransmits := 1 }
  let doc := CJson.object [(lit "reverse", .true)]
  have hdecodable : Decodable doc client :=
    ⟨stringIfFound_of_none rfl, stringIfFound_of_none rfl, stringIfFound_of_none rfl,
      fun _ hp => by cases hp⟩
  obtain ⟨sys', hread, hget⟩ := getParameters_single
    (lit "\x7b\"reverse\":true\x7d") (by decide) hdecodable
  exact retransmits_of_run [tcpProtocol 0] (tcpProtocol 0) _
    [.setProtocol Pudp, .setTestRole 'c', .getParameters doc]
    (.cons ⟨-1, rfl⟩ (.cons rfl (.cons ⟨_, _, _, _, hread, hget⟩ (.nil _))))

end KernelTestkit.Api
