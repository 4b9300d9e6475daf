/-
KernelTestkit.Api.TestTheorems — what the setters do.

* `retransmits` is the value `check_sender_has_retransmits` gives its flag;
  a test is `UpToDate` when the flag has it.
* `checkSenderHasRetransmits_ok`, `setProtocol_ok`, `iperfSetTestRole_ok`,
  `iperfSetTestReverse_ok` — one inversion for each function: what a call
  that returns has changed.
* `newServer` — the test every server starts from.
* `lookup_agrees_iff` — `get_protocol` and `set_protocol` agree on an id
  exactly when it is registered. For any other id `get_protocol` returns
  the address its loop ended at, not NULL.
-/
import KernelTestkit.Api.Test
import KernelTestkit.Lib.Fallible
import KernelTestkit.Util.ListHeadTheorems

namespace KernelTestkit.Api

open KernelTestkit.Lib
open KernelTestkit.Net
open KernelTestkit.Util

/-! ## The retransmit flag -/

/-- The value of `sender_has_retransmits` for this sender and protocol. -/
def retransmits (t : IperfTest) : Int32 :=
  if t.sender ≠ 0 ∧ t.protocol.any (·.id = Ptcp) then 1 else 0

/-- The flag is what `check_sender_has_retransmits` would make it. -/
def UpToDate (t : IperfTest) : Prop := t.senderHasRetransmits = retransmits t

/-- What `check_sender_has_retransmits` reads through the protocol is there. -/
def SenderHasProtocol (t : IperfTest) : Prop := t.sender ≠ 0 → t.protocol ≠ none

theorem checkSenderHasRetransmits_eq {t : IperfTest} (h : SenderHasProtocol t) :
    checkSenderHasRetransmits t = .ok { t with senderHasRetransmits := retransmits t } := by
  by_cases hs : t.sender = 0
  · simp [checkSenderHasRetransmits, retransmits, hs]
  · cases hp : t.protocol with
    | none => exact absurd hp (h hs)
    | some protocol =>
        by_cases hid : protocol.id = Ptcp <;>
          simp [checkSenderHasRetransmits, retransmits, hs, hp, hid]

/-- `check_sender_has_retransmits` returns exactly when the protocol it reads
is there, and sets the flag. -/
theorem checkSenderHasRetransmits_ok {t t' : IperfTest} :
    checkSenderHasRetransmits t = .ok t' ↔
      SenderHasProtocol t ∧ t' = { t with senderHasRetransmits := retransmits t } := by
  constructor
  · intro h
    have hprot : SenderHasProtocol t := by
      intro hs hp
      simp [checkSenderHasRetransmits, hs, hp] at h
    rw [checkSenderHasRetransmits_eq hprot] at h
    injection h with h
    exact ⟨hprot, h.symm⟩
  · rintro ⟨hprot, rfl⟩
    exact checkSenderHasRetransmits_eq hprot

/-- Recomputing the flag of an up-to-date test changes nothing. -/
theorem upToDate_of_check {t : IperfTest} (h : checkSenderHasRetransmits t = .ok t) :
    UpToDate t :=
  congrArg IperfTest.senderHasRetransmits (checkSenderHasRetransmits_ok.mp h).2

/-! ## The setters -/

/-- `set_protocol` always returns; it selects the first entry with the id, or
fails and changes nothing. -/
theorem setProtocol_ok {t t' : IperfTest} {protId r : Int32}
    (h : setProtocol t protId = .ok (r, t')) :
    (∃ protocol, t.protocols.find? (·.id = protId) = some protocol ∧ r = 0 ∧
      t' = { t with protocol := some protocol,
                    senderHasRetransmits := retransmits { t with protocol := some protocol } }) ∨
    (t.protocols.find? (·.id = protId) = none ∧ r = -1 ∧ t' = t) := by
  unfold setProtocol at h
  split at h
  · rename_i protocol hfind
    obtain ⟨t₁, hcheck, h⟩ := bind_ok_iff.mp h
    cases h
    exact Or.inl ⟨protocol, hfind, rfl, (checkSenderHasRetransmits_ok.mp hcheck).2⟩
  · rename_i hfind
    cases h
    exact Or.inr ⟨hfind, rfl, rfl⟩

theorem setProtocol_total (t : IperfTest) (protId : Int32) :
    ∃ out, setProtocol t protId = .ok out := by
  unfold setProtocol
  split
  · rename_i protocol _
    have hprot : SenderHasProtocol { t with protocol := some protocol } := by
      simp [SenderHasProtocol]
    exact ⟨_, bind_ok_iff.mpr ⟨_, checkSenderHasRetransmits_ok.mpr ⟨hprot, rfl⟩, rfl⟩⟩
  · exact ⟨_, rfl⟩

/-- The direction flag `iperf_set_test_role` computes. -/
def roleSender (t : IperfTest) (role : Char) : Int32 :=
  let sender := if role = 'c' then 1 else if role = 's' then 0 else t.sender
  if t.reverse ≠ 0 then lnot sender else sender

theorem iperfSetTestRole_ok {t t' : IperfTest} {role : Char} :
    iperfSetTestRole t role = .ok t' ↔
      (roleSender t role ≠ 0 → t.protocol ≠ none) ∧
      t' = { t with
        role := role
        sender := roleSender t role
        senderHasRetransmits := retransmits { t with sender := roleSender t role } } := by
  have hset : iperfSetTestRole t role = checkSenderHasRetransmits
      { t with role := role, sender := roleSender t role } := by
    by_cases hrev : t.reverse = 0 <;> by_cases hc : role = 'c' <;> by_cases hs : role = 's' <;>
      simp [iperfSetTestRole, roleSender, hrev, hc, hs]
  rw [hset, checkSenderHasRetransmits_ok]
  rfl

/-- The direction flag `iperf_set_test_reverse` computes. -/
def reverseSender (t : IperfTest) (reverse : Int32) : Int32 :=
  if reverse ≠ 0 then lnot t.sender else t.sender

theorem iperfSetTestReverse_ok {t t' : IperfTest} {reverse : Int32} :
    iperfSetTestReverse t reverse = .ok t' ↔
      (reverseSender t reverse ≠ 0 → t.protocol ≠ none) ∧
      t' = { t with
        reverse := reverse
        sender := reverseSender t reverse
        senderHasRetransmits := retransmits { t with sender := reverseSender t reverse } } := by
  have hset : iperfSetTestReverse t reverse = checkSenderHasRetransmits
      { t with reverse := reverse, sender := reverseSender t reverse } := by
    by_cases hrev : reverse = 0 <;> simp [iperfSetTestReverse, reverseSender, hrev]
  rw [hset, checkSenderHasRetransmits_ok]
  rfl

/-- The new server test. -/
def newServer (node : Nat) : IperfTest :=
  { (iperfDefaults (some node) iperfNewTest).2 with role := 's' }

theorem serverTest_eq (node : Nat) : serverTest node = .ok (newServer node) := rfl

/-! ## Lookup -/

/-- The entry `list_for_each_entry` would stop at. -/
def firstWith (protId : Int32) (protocols : List Protocol) : Option Protocol :=
  protocols.find? (·.id = protId)

/-- What `get_protocol` returns on the heap: for a list of protocols linked
under `head` by their nodes, the address of its cursor. -/
theorem getProtocol_ring {heap : Links Nat} {head : Nat} {test : IperfTest} {protId : Int32}
    (hr : Ring heap head (test.protocols.map (·.node))) {stop : Nat → Bool}
    (hstop : ∀ e ∈ test.protocols, stop e.node = decide (e.id = protId)) {fuel : Nat}
    (hfuel : test.protocols.length < fuel) :
    listForEachEntry heap head stop fuel (heap.next head)
      = (getProtocol test protId).map (Cursor.address (·.node) head) :=
  listForEachEntry_ring hr hstop hfuel

/-- `get_protocol` returns the first entry with the id or NULL, and
`set_protocol` selects that entry or fails without a change. -/
structure LookupAgrees (test : IperfTest) (protId : Int32) : Prop where
  getProtocol_eq : getProtocol test protId = (firstWith protId test.protocols).map .entry
  setProtocol_eq : ∃ r test', setProtocol test protId = .ok (r, test') ∧
    (r = 0 ↔ getProtocol test protId ≠ none) ∧
    (∀ cursor, getProtocol test protId = some cursor →
      ∃ protocol, cursor = .entry protocol ∧ test'.protocol = some protocol) ∧
    (getProtocol test protId = none → r = -1 ∧ test' = test)

/-- **Lookup**: `get_protocol` and `set_protocol` agree on an id exactly when
it is registered. -/
theorem lookup_agrees_iff (test : IperfTest) (protId : Int32) :
    LookupAgrees test protId ↔ ∃ protocol ∈ test.protocols, protocol.id = protId := by
  have hcursor := forEachEntry_eq (fun e : Protocol => decide (e.id = protId)) test.protocols
  constructor
  · intro h
    cases hfind : test.protocols.find? (fun e => decide (e.id = protId)) with
    | none =>
        have hnull := h.getProtocol_eq
        simp [getProtocol, firstWith, hfind] at hnull
    | some protocol =>
        exact ⟨protocol, List.mem_of_find?_eq_some hfind, by simpa using List.find?_some hfind⟩
  · intro h
    obtain ⟨protocol, hfind⟩ := Option.isSome_iff_exists.mp
      (List.find?_isSome.mpr (h.imp fun _ h => h.imp_right decide_eq_true))
    rw [hfind] at hcursor
    have hget : getProtocol test protId = some (.entry protocol) := congrArg some hcursor
    obtain ⟨⟨r, test'⟩, hset⟩ := setProtocol_total test protId
    refine ⟨by rw [hget, firstWith, hfind]; rfl, r, test', hset, ?_⟩
    rcases setProtocol_ok hset with ⟨protocol', hfind', rfl, rfl⟩ | ⟨hnone, _, _⟩
    · obtain rfl : protocol = protocol' := Option.some.inj (hfind.symm.trans hfind')
      simp [hget]
    · exact absurd (hfind.symm.trans hnone) (by simp)

/-- On the list `iperf_defaults` leaves, the lookup of UDP does not return
NULL, while `set_protocol` fails. -/
theorem lookup_udp_disagrees :
    getProtocol (newServer 0) Pudp = some .head ∧
    setProtocol (newServer 0) Pudp = .ok (-1, newServer 0) ∧
    ¬ LookupAgrees (newServer 0) Pudp := by
  refine ⟨rfl, rfl, fun h => ?_⟩
  have hnull : some Cursor.head = (none : Option (Cursor Protocol)) := h.getProtocol_eq
  cases hnull

end KernelTestkit.Api
