/-
KernelTestkit.Api.OrderTheorems — the decoder does not see the order of the
members.

Interoperation with other versions rests on it: a peer may print its members
in an order of its own, and send members this version knows nothing of.

* `getObjectItem_reordered` — what is found under a name depends on the
  members of that name only.
* `applyParameters_congr` — the decoder looks the keys of `parameterKeys` up
  and reads nothing else of a document.
* `getParameters_any_order` — `get_parameters` on two such documents.
-/
import KernelTestkit.Api.ParametersTheorems

namespace KernelTestkit.Api

open KernelTestkit.Lib
open KernelTestkit.Net

/-- **Lookup in a document written in another order**, with members of other
names among its own. -/
theorem getObjectItem_reordered {members members' extra : List (CString × CJson)}
    {name : CString} (hkeys : (members.map fun m => foldCase m.1).Nodup)
    (hother : ∀ m ∈ extra, foldCase m.1 ≠ foldCase name)
    (hperm : members'.Perm (members ++ extra)) :
    getObjectItem (.object members') name = getObjectItem (.object members) name := by
  rw [getObjectItem_object, getObjectItem_object]
  have hnd : ((members.map fun m => (foldCase m.1, m.2)).map (·.1)).Nodup := by
    simpa [List.map_map, Function.comp_def] using hkeys
  refine (lookup_congr (fun v w => eq_of_mem_of_nodup hnd) ?_).symm
  intro v
  simp only [List.mem_map, Prod.mk.injEq]
  constructor
  · intro h
    obtain ⟨m, hm, hname⟩ := h
    exact ⟨m, hperm.mem_iff.mpr (List.mem_append_left _ hm), hname⟩
  · intro h
    obtain ⟨m, hm, hname⟩ := h
    rcases List.mem_append.mp (hperm.mem_iff.mp hm) with hm | hm
    · exact ⟨m, hm, hname⟩
    · exact absurd hname.1 (hother m hm)

/-- **The decoder reads its keys only**: two documents that agree on them do
the same to a test. -/
theorem applyParameters_congr {j j' : CJson} (t : IperfTest)
    (h : ∀ name ∈ parameterKeys, getObjectItem j' name = getObjectItem j name) :
    applyParameters j' t = applyParameters j t := by
  simp only [parameterKeys, List.forall_mem_cons] at h
  simp only [applyParameters, protocolItem, reverseItem, stringItems, stringItem, limitItems,
    tuningItems, outputItems, intItem, uint64Item, flagItem, h]

/-- With a document delivered, `get_parameters` is what the decoder does. -/
theorem getParameters_eq_applyParameters {json : CjsonLib} {t : IperfTest} {sys sys' : Sys}
    {j : CJson} (hread : jsonRead json t.ctrlSck sys = .ok (some j, sys')) :
    (getParameters json t sys).map (fun out => (out.1, out.2.1))
      = (applyParameters j t).map fun test => (0, test) := by
  rw [getParameters, hread]
  cases happly : applyParameters j t with
  | error e => simp [bind, Except.bind, happly, Except.map]
  | ok test => simp [bind, Except.bind, happly, Except.map, pure, Except.pure]

/-- **Order and unknown members**: a document whose members are permuted, and
extended with members whose keys the decoder does not know, decodes to the
same result and the same test. -/
theorem getParameters_any_order {json json' : CjsonLib} {t : IperfTest}
    {sys sys₁ sys' sys₁' : Sys} {members members' extra : List (CString × CJson)}
    (hkeys : (members.map fun m => foldCase m.1).Nodup)
    (hextra : ∀ m ∈ extra, ∀ name ∈ parameterKeys, foldCase m.1 ≠ foldCase name)
    (hperm : members'.Perm (members ++ extra))
    (hread : jsonRead json t.ctrlSck sys = .ok (some (.object members), sys₁))
    (hread' : jsonRead json' t.ctrlSck sys' = .ok (some (.object members'), sys₁')) :
    (getParameters json' t sys').map (fun out => (out.1, out.2.1))
      = (getParameters json t sys).map fun out => (out.1, out.2.1) := by
  rw [getParameters_eq_applyParameters hread, getParameters_eq_applyParameters hread',
    applyParameters_congr t fun name hname =>
      getObjectItem_reordered hkeys (fun m hm => hextra m hm name hname) hperm]

/-- A server with TCP selected. -/
def selectedServer : IperfTest := { newServer 0 with protocol := some (tcpProtocol 0) }

/-- A request for a direction and a duration. -/
def reverseThenTime : List (CString × CJson) :=
  [(lit "reverse", .true), (lit "time", createNumber 5)]

/-- The same request from another version. -/
def timeThenReverse : List (CString × CJson) :=
  [(lit "time", createNumber 5), (lit "client_version", .string (lit "3.9")),
   (lit "reverse", .true)]

theorem decodable_of_selected {members : List (CString × CJson)}
    (htitle : getObjectItem (.object members) (lit "title") = none)
    (hcong : getObjectItem (.object members) (lit "congestion") = none)
    (hused : getObjectItem (.object members) (lit "congestion_used") = none)
    (hprotocol : (decoded (.object members) selectedServer).protocol = some (tcpProtocol 0)) :
    Decodable (.object members) selectedServer :=
  ⟨stringIfFound_of_none htitle, stringIfFound_of_none hcong, stringIfFound_of_none hused,
    fun _ hnone => by cases hprotocol.symm.trans hnone⟩

/-- A server decodes the two requests alike. -/
theorem getParameters_any_order_reverse_time : ∃ (json json' : CjsonLib)
    (sys sys₁ sys' sys₁' : Sys),
    jsonRead json selectedServer.ctrlSck sys = .ok (some (.object reverseThenTime), sys₁) ∧
    jsonRead json' selectedServer.ctrlSck sys' = .ok (some (.object timeThenReverse), sys₁') ∧
    (getParameters json' selectedServer sys').map (fun out => (out.1, out.2.1))
      = (getParameters json selectedServer sys).map fun out => (out.1, out.2.1) := by
  have hdecodable : Decodable (.object reverseThenTime) selectedServer :=
    decodable_of_selected rfl rfl rfl rfl
  have hdecodable' : Decodable (.object timeThenReverse) selectedServer :=
    decodable_of_selected rfl rfl rfl rfl
  obtain ⟨_, hread, _⟩ := getParameters_single
    (lit "\x7b\"reverse\":true,\"time\":5\x7d") (by decide) hdecodable
  obtain ⟨_, hread', _⟩ := getParameters_single
    (lit "\x7b\"time\":5,\"client_version\":\"3.9\",\"reverse\":true\x7d") (by decide)
    hdecodable'
  have hperm : timeThenReverse.Perm
      (reverseThenTime ++ [(lit "client_version", .string (lit "3.9"))]) :=
    List.perm_append_singleton _ [_, _]
  exact ⟨_, _, _, _, _, _, hread, hread',
    getParameters_any_order (by decide) (by decide +kernel) hperm hread hread'⟩

end KernelTestkit.Api
