/-
KernelTestkit.Api.SenderTheorems — the direction flag over a run of calls.

`sender` is documented as "client & !reverse or server & reverse"
(`Directed`). The role setter assigns it; the reverse setter toggles it
when `reverse` is set and leaves it alone when `reverse` is cleared, so it
keeps the relation exactly when `reverse` was 0 before
(`iperfSetTestReverse_directed_iff`). Over a run, `Directed` holds in every
state with a role as long as no call sets `reverse` while it is set
(`directed_of_run`).
-/
import KernelTestkit.Api.ParametersTheorems

namespace KernelTestkit.Api

open KernelTestkit.Lib
open KernelTestkit.Net

/-- The comment on the field `sender`. -/
def Directed (t : IperfTest) : Prop :=
  t.sender ≠ 0 ↔ t.role = 'c' ∧ t.reverse = 0 ∨ t.role = 's' ∧ t.reverse ≠ 0

/-- A role has been set. -/
def HasRole (t : IperfTest) : Prop := t.role = 'c' ∨ t.role = 's'

instance (t : IperfTest) : Decidable (Directed t) := inferInstanceAs (Decidable (_ ↔ _))

/-- The calls that touch the direction of a test. -/
inductive DirectionCall where
  | setTestRole (role : Char)
  | setTestReverse (reverse : Int32)
  /-- `get_parameters`, with `doc` delivered -/
  | getParameters (doc : CJson)

/-- A call that returns. -/
def Calls (t : IperfTest) : DirectionCall → IperfTest → Prop
  | .setTestRole role, t' => (role = 'c' ∨ role = 's') ∧ iperfSetTestRole t role = .ok t'
  | .setTestReverse reverse, t' => iperfSetTestReverse t reverse = .ok t'
  | .getParameters doc, t' => ∃ json sys sys₁ sys',
      jsonRead json t.ctrlSck sys = .ok (some doc, sys₁) ∧
      getParameters json t sys = .ok (0, t', sys')

/-- A call that sets `reverse` finds it 0, or finds no role yet. -/
def FindsReverseUnset (t : IperfTest) : DirectionCall → Prop
  | .setTestRole _ => True
  | .setTestReverse _ => t.reverse = 0 ∨ ¬ HasRole t
  | .getParameters doc =>
      getObjectItem doc (lit "reverse") = none ∨ t.reverse = 0 ∨ ¬ HasRole t

/-! ## One call -/

/-- The role setter establishes the relation. -/
theorem directed_of_setTestRole {t t' : IperfTest} {role : Char} (hrole : role = 'c' ∨ role = 's')
    (h : iperfSetTestRole t role = .ok t') : Directed t' := by
  obtain ⟨_, rfl⟩ := iperfSetTestRole_ok.mp h
  unfold Directed roleSender
  rcases hrole with rfl | rfl
  · by_cases hrev : t.reverse = 0 <;> simp [hrev, lnot]
  · by_cases hrev : t.reverse = 0 <;> simp [hrev, lnot]

/-- **The reverse setter** keeps the relation exactly when `reverse` was 0. -/
theorem iperfSetTestReverse_directed_iff {t t' : IperfTest} {reverse : Int32} (hrole : HasRole t)
    (hdir : Directed t) (h : iperfSetTestReverse t reverse = .ok t') :
    Directed t' ↔ t.reverse = 0 := by
  obtain ⟨_, rfl⟩ := iperfSetTestReverse_ok.mp h
  unfold Directed at hdir ⊢
  unfold reverseSender
  by_cases hold : t.reverse = 0 <;> by_cases hnew : reverse = 0 <;>
    rcases hrole with hc | hc <;> simp_all [lnot]

/-- What `get_parameters` does to the direction: nothing, or what the reverse
setter does with 1. -/
theorem decoded_direction (j : CJson) (t : IperfTest) :
    (decoded j t).role = t.role ∧
      (getObjectItem j (lit "reverse") = none ∧ (decoded j t).sender = t.sender ∧
          (decoded j t).reverse = t.reverse ∨
        getObjectItem j (lit "reverse") ≠ none ∧ (decoded j t).sender = reverseSender t 1 ∧
          (decoded j t).reverse = 1) := by
  refine ⟨rfl, ?_⟩
  rw [decoded_sender, decoded_reverse, decodedSender, flagItem]
  cases getObjectItem j (lit "reverse") with
  | none => exact Or.inl ⟨rfl, rfl, rfl⟩
  | some item => exact Or.inr ⟨by simp, by simp [reverseSender], rfl⟩

/-- **One step**: a call that finds `reverse` unset keeps the relation. -/
theorem directed_of_call {t t' : IperfTest} {call : DirectionCall}
    (h : HasRole t → Directed t) (hcall : Calls t call t' ∧ FindsReverseUnset t call) :
    HasRole t' → Directed t' := by
  obtain ⟨hcall, hunset⟩ := hcall
  cases call with
  | setTestRole role =>
      obtain ⟨hrole, hset⟩ := hcall
      exact fun _ => directed_of_setTestRole hrole hset
  | setTestReverse reverse =>
      intro hrole'
      obtain ⟨_, rfl⟩ := iperfSetTestReverse_ok.mp hcall
      have hrole : HasRole t := hrole'
      have hzero : t.reverse = 0 := hunset.resolve_right (not_not_intro hrole)
      exact (iperfSetTestReverse_directed_iff hrole (h hrole) hcall).mpr hzero
  | getParameters doc =>
      intro hrole'
      obtain ⟨json, sys, sys₁, sys', hread, hget⟩ := hcall
      obtain ⟨_, _, rfl⟩ := getParameters_of_delivered hread hget
      obtain ⟨hsame, hrest⟩ := decoded_direction doc t
      have hrole : HasRole t := by rwa [HasRole, hsame] at hrole'
      have hdir := h hrole
      rcases hrest with ⟨_, hsender, hreverse⟩ | ⟨hfound, hsender, hreverse⟩
      · rwa [Directed, hsame, hsender, hreverse]
      · have hzero : t.reverse = 0 := by
          rcases hunset with hnone | hzero | hno
          · exact absurd hnone hfound
          · exact hzero
          · exact absurd hrole hno
        rw [Directed, hsame, hsender, hreverse]
        rw [Directed, hzero] at hdir
        unfold reverseSender
        rcases hrole with hc | hc <;> simp_all [lnot]

theorem hasRole_of_setTestRole {t t' : IperfTest} {role : Char}
    (h : Calls t (.setTestRole role) t') : HasRole t' := by
  obtain ⟨hrole, hset⟩ := h
  obtain ⟨_, rfl⟩ := iperfSetTestRole_ok.mp hset
  exact hrole

/-- No call takes the role away. -/
theorem hasRole_of_call {t t' : IperfTest} {call : DirectionCall} (h : HasRole t)
    (hcall : Calls t call t') : HasRole t' := by
  cases call with
  | setTestRole role => exact hasRole_of_setTestRole hcall
  | setTestReverse reverse =>
      obtain ⟨_, rfl⟩ := iperfSetTestReverse_ok.mp hcall
      exact h
  | getParameters doc =>
      obtain ⟨json, sys, sys₁, sys', hread, hget⟩ := hcall
      obtain ⟨_, _, rfl⟩ := getParameters_of_delivered hread hget
      exact h

/-! ## Runs -/

/-- **The direction flag over a run**: from a new test with a protocol
selected, along any calls that find `reverse` unset when they set it, the
comment on `sender` holds once a role has been set. -/
theorem directed_of_run (protocols : List Protocol) (protId : Int32) (t₀ t : IperfTest)
    (calls : List DirectionCall) (role : Char)
    (hinit : setProtocol { iperfNewTest with protocols := protocols } protId = .ok (0, t₀))
    (hrun : Steps (fun t call t' => Calls t call t' ∧ FindsReverseUnset t call) t₀ calls t)
    (hrole : .setTestRole role ∈ calls) : Directed t := by
  have hstart : HasRole t₀ → Directed t₀ := by
    intro hbad
    rcases setProtocol_ok hinit with ⟨_, _, _, rfl⟩ | ⟨_, hr, _⟩
    · rcases hbad with hc | hc <;> cases hc
    · exact absurd hr (by decide)
  have hhas : HasRole t :=
    hrun.established (fun _ _ h => hasRole_of_setTestRole h.1)
      (fun _ _ _ hs h => hasRole_of_call hs h.1) hrole
  exact hrun.preserves (fun _ _ _ hs h => directed_of_call hs h) hstart hhas

/-- A test with TCP selected. -/
def selectedTest : IperfTest :=
  { iperfNewTest with protocols := [tcpProtocol 0], protocol := some (tcpProtocol 0) }

/-- A server whose client asks for the reverse direction sends. -/
theorem directed_of_run_reversed_server :
    Directed { selectedTest with role := 's', sender := 1, reverse := 1,
                                 senderHasRetransmits := 1 } := by
  let server := { selectedTest with role := 's' }
  let doc := CJson.object [(lit "reverse", .true)]
  have hrole : iperfSetTestRole selectedTest 's' = .ok server := rfl
  have hdecodable : Decodable doc server :=
    ⟨stringIfFound_of_none rfl, stringIfFound_of_none rfl, stringIfFound_of_none rfl,
      fun _ hp => by cases hp⟩
  obtain ⟨sys', hread, hget⟩ := getParameters_single
    (lit "\x7b\"reverse\":true\x7d") (by decide) hdecodable
  exact directed_of_run [tcpProtocol 0] Ptcp selectedTest _
    [.setTestRole 's', .getParameters doc] 's' rfl
    (.cons ⟨⟨Or.inr rfl, hrole⟩, trivial⟩
      (.cons ⟨⟨_, _, _, _, hread, hget⟩, Or.inr (Or.inl rfl)⟩ (.nil _)))
    (List.mem_cons_self ..)

/-- A client whose reverse option is set and cleared again does not send. -/
theorem reverse_cleared_not_directed : ∃ (t₀ t : IperfTest) (calls : List DirectionCall),
    setProtocol { iperfNewTest with protocols := [tcpProtocol 0] } Ptcp = .ok (0, t₀) ∧
    Steps Calls t₀ calls t ∧ .setTestRole 'c' ∈ calls ∧ ¬ Directed t := by
  refine ⟨selectedTest, { selectedTest with role := 'c', sender := 0 },
    [.setTestRole 'c', .setTestReverse 1, .setTestReverse 0], rfl, ?_, List.mem_cons_self ..,
    by decide⟩
  exact .cons ⟨Or.inl rfl, rfl⟩ (.cons rfl (.cons rfl (.nil _)))

end KernelTestkit.Api
