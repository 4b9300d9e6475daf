/-
KernelTestkit.Cli.LimitTheorems — the limits of iperf.h, at the two places
where a configuration comes in.

iperf.h declares them for the command line. `iperf_parse_arguments` compares
one value with one of them, the MSS with its maximum, and `get_parameters`
compares nothing: what each field ends up with is the last value that was
given for it, or the default.

* `value_setOptions` — the value a command line leaves in a field.
* `limits_respected_iff` — an accepted configuration respects the limits
  exactly when every value given last does.
-/
import KernelTestkit.Api.NumberTheorems
import KernelTestkit.Cli.ArgumentsTheorems

namespace KernelTestkit.Cli

open KernelTestkit.Lib
open KernelTestkit.Net
open KernelTestkit.Api

/-! ## The limits -/

def MB : Int32 := 1024 * 1024
def MAX_TCP_BUFFER : Int32 := 512 * MB
def MAX_BLOCKSIZE : Int32 := MB
def MAX_TIME : Int32 := 86400
def MAX_BURST : Int32 := 1000
def MAX_STREAMS : Int32 := 128

/-- The values the limits allow in a field. -/
def Allows : IntField → Int32 → Prop
  | .duration, v => 0 ≤ v ∧ v ≤ MAX_TIME
  | .mss, v => 0 ≤ v ∧ v ≤ MAX_MSS
  | .numStreams, v => 1 ≤ v ∧ v ≤ MAX_STREAMS
  | .blksize, v => 0 < v ∧ v ≤ MAX_BLOCKSIZE
  | .socketBufsize, v => 0 ≤ v ∧ v ≤ MAX_TCP_BUFFER
  | .burst, v => 0 ≤ v ∧ v ≤ MAX_BURST
  -- iperf.h has no limits for these
  | .serverAffinity, _ | .pacingTimer, _ | .tos, _ => True

instance (field : IntField) (v : Int32) : Decidable (Allows field v) := by
  cases field <;> unfold Allows <;> infer_instance

/-- A test that respects the limits. -/
def WithinLimits (t : IperfTest) : Prop := ∀ field : IntField, Allows field (field.value t)

/-- **The defaults respect the limits.** -/
theorem withinLimits_defaultTest (node : Option Nat) : WithinLimits (defaultTest node) := by
  intro field
  have hnode : field.value (defaultTest node) = field.value (defaultTest none) := by
    cases node <;> cases field <;> rfl
  rw [hnode]
  cases field <;> decide +kernel

/-- A value that may have been given, over one that is allowed. -/
theorem allows_getD {field : IntField} {old : Int32} (hold : Allows field old)
    (given : Option Int32) :
    Allows field (given.getD old) ↔ ∀ v ∈ given, Allows field v := by
  cases given with
  | none => simpa using hold
  | some v => simp

/-! ## The command line -/

/-- The option that sets a field. -/
def flagOf : IntField → Option Char
  | .duration => some 't'
  | .mss => some 'M'
  | _ => none

/-- The argument of the last option with a letter. -/
def lastArgument (flag : Char) : List Opt → Option CString
  | [] => none
  | opt :: opts => (lastArgument flag opts).or (if opt.flag = flag then opt.optarg else none)

/-- The value a command line gives a field last. -/
def lastValue (opts : List Opt) (field : IntField) : Option Int32 :=
  (flagOf field).bind fun flag => (lastArgument flag opts).map atoi

variable {double : Type} (ops : DoubleOps double)

theorem value_setOption (t : IperfTest) (opt : Opt) (field : IntField) :
    field.value (setOption ops t opt) = (lastValue [opt] field).getD (field.value t) := by
  obtain ⟨flag, optarg⟩ := opt
  unfold setOption
  dsimp only
  cases field with
  | duration =>
      cases optarg <;> split <;> simp_all [lastValue, flagOf, lastArgument, IntField.value]
  | mss =>
      cases optarg <;> split <;> simp_all [lastValue, flagOf, lastArgument, IntField.value]
  | _ => split <;> rfl

theorem lastValue_cons (opt : Opt) (opts : List Opt) (field : IntField) :
    lastValue (opt :: opts) field = (lastValue opts field).or (lastValue [opt] field) := by
  cases hflag : flagOf field with
  | none => simp [lastValue, hflag]
  | some flag => simp [lastValue, hflag, lastArgument, Option.map_or]

/-- **What a command line leaves in a field.** -/
theorem value_setOptions (t : IperfTest) (opts : List Opt) (field : IntField) :
    field.value (setOptions ops t opts) = (lastValue opts field).getD (field.value t) := by
  induction opts generalizing ops t with
  | nil => cases field <;> rfl
  | cons opt opts ih =>
      have hstep := ih ops.next (setOption ops t opt)
      rw [value_setOption] at hstep
      rw [lastValue_cons, Option.getD_or]
      exact hstep

/-- A command line from defaults within the limits keeps them exactly when
the values it gives last are allowed. -/
theorem withinLimits_setOptions {t : IperfTest} (h : WithinLimits t) (opts : List Opt) :
    WithinLimits (setOptions ops t opts) ↔
      ∀ field, ∀ v ∈ lastValue opts field, Allows field v := by
  refine forall_congr' fun field => ?_
  rw [value_setOptions]
  exact allows_getD (h field) _

/-- The last value of an accepted command line was not rejected. -/
theorem lastArgument_mss_le {opts : List Opt} (hclean : Clean opts) :
    ∀ s ∈ lastArgument 'M' opts, atoi s ≤ MAX_MSS := by
  induction opts with
  | nil => exact fun _ h => by cases h
  | cons opt opts ih =>
      obtain ⟨hgoes, hclean⟩ := List.forall_mem_cons.mp hclean
      intro s hs
      rcases Option.or_eq_some_iff.mp hs with hs | ⟨_, hs⟩
      · exact ih hclean s hs
      · obtain ⟨flag, optarg⟩ := opt
        by_cases hM : flag = 'M'
        · subst hM
          have hs : optarg = some s := by simpa using hs
          subst hs
          exact Int32.not_lt.mp fun hlt => hgoes (Or.inr ((rejected_mss_iff s).mpr hlt))
        · simp [hM] at hs

/-! ## The document -/

/-- A document for a test within the limits keeps them exactly when the
values it has are allowed. -/
theorem withinLimits_decoded {t : IperfTest} (h : WithinLimits t) (doc : CJson) :
    WithinLimits (decoded doc t) ↔ ∀ field : IntField, ∀ item,
      getObjectItem doc field.key = some item → Allows field item.valueint.toInt32 := by
  refine forall_congr' fun field => ?_
  have hvalue : field.value (decoded doc t)
      = ((getObjectItem doc field.key).map (·.valueint.toInt32)).getD (field.value t) := by
    rw [field.value_decoded, intItem]
    cases getObjectItem doc field.key <;> rfl
  rw [hvalue, allows_getD (h field)]
  simp

/-! ## Both -/

/-- **The limits of iperf.h**, which the defaults respect. A command line that
is accepted respects them exactly when its last -t is between 0 and
`MAX_TIME` and its last -M is not negative; a document that is accepted,
exactly when every number it has is within the limits of its field. -/
theorem limits_respected_iff :
    (∀ node, WithinLimits (defaultTest node)) ∧
    (∀ (posixlyCorrect : Bool) (node : Option Nat) (argv : List CString) (t : IperfTest),
      iperfParseArguments ops posixlyCorrect (defaultTest node) argv = .ok (0, t) →
      (WithinLimits t ↔
        (∀ s ∈ lastArgument 't' (options posixlyCorrect argv),
          0 ≤ atoi s ∧ atoi s ≤ MAX_TIME) ∧
        (∀ s ∈ lastArgument 'M' (options posixlyCorrect argv), 0 ≤ atoi s))) ∧
    (∀ (json : CjsonLib) (t t' : IperfTest) (doc : CJson) (sys sys₁ sys' : Sys),
      WithinLimits t → jsonRead json t.ctrlSck sys = .ok (some doc, sys₁) →
      getParameters json t sys = .ok (0, t', sys') →
      (WithinLimits t' ↔ ∀ field : IntField, ∀ item,
        getObjectItem doc field.key = some item → Allows field item.valueint.toInt32)) := by
  refine ⟨withinLimits_defaultTest, ?_, ?_⟩
  · intro posixlyCorrect node argv t hparse
    obtain ⟨hclean, rfl⟩ := parse_returned_zero ops hparse
    rw [withinLimits_setOptions ops (withinLimits_defaultTest node)]
    have hmss := lastArgument_mss_le hclean
    constructor
    · intro h
      have htime := h .duration
      have hM := h .mss
      exact ⟨fun s hs => htime _ (Option.mem_map_of_mem atoi hs),
        fun s hs => (hM _ (Option.mem_map_of_mem atoi hs)).1⟩
    · rintro ⟨htime, hM⟩ field v hv
      cases field with
      | duration =>
          obtain ⟨s, hs, rfl⟩ := Option.map_eq_some_iff.mp hv
          exact htime s hs
      | mss =>
          obtain ⟨s, hs, rfl⟩ := Option.map_eq_some_iff.mp hv
          exact ⟨hM s hs, hmss s hs⟩
      | _ => cases hv
  · intro json t t' doc sys sys₁ sys' h hread hget
    obtain ⟨_, _, rfl⟩ := getParameters_of_delivered hread hget
    exact withinLimits_decoded h doc

/-- A document that asks for four streams. -/
def fourStreams : CJson := .object [(lit "parallel", .number (4 : Int) 4)]

theorem withinLimits_newServer : WithinLimits (newServer 0) := by
  intro field
  cases field <;> decide +kernel

/-- `iperf -s -t 60`, and a client that asks for four streams. -/
theorem limits_respected_minute_four_streams :
    (∃ t, iperfParseArguments DoubleOps.integral false (defaultTest (some 0))
        [lit "iperf", lit "-s", lit "-t", lit "60"] = .ok (0, t) ∧ WithinLimits t) ∧
    ∃ (json : CjsonLib) (t' : IperfTest) (sys sys' : Sys),
      getParameters json (newServer 0) sys = .ok (0, t', sys') ∧ WithinLimits t' := by
  obtain ⟨_, hcommand, hdocument⟩ := limits_respected_iff DoubleOps.integral
  have hparse : iperfParseArguments DoubleOps.integral false (defaultTest (some 0))
        [lit "iperf", lit "-s", lit "-t", lit "60"] =
      .ok (0, setOptions DoubleOps.integral (defaultTest (some 0))
        [⟨'s', none⟩, ⟨'t', some (lit "60")⟩]) := by decide +kernel
  have hdecodable : Decodable fourStreams (newServer 0) :=
    ⟨stringIfFound_of_none rfl, stringIfFound_of_none rfl, stringIfFound_of_none rfl,
      fun hsender => absurd rfl hsender⟩
  obtain ⟨sys', hread, hget⟩ := getParameters_single (lit "\x7b\"parallel\":4\x7d") (by decide)
    hdecodable
  refine ⟨⟨_, hparse, (hcommand _ _ _ _ hparse).mpr ?_⟩, _, _, _, sys', hget,
    (hdocument _ _ _ _ _ _ _ withinLimits_newServer hread hget).mpr ?_⟩
  · decide +kernel
  · intro field item hitem
    cases field with
    | numStreams =>
        obtain rfl := Option.some.inj hitem
        decide +kernel
    | _ => cases hitem

/-- `iperf -s -t -5` is accepted, and so is a client that asks for 2^32
streams. -/
theorem negative_duration_accepted :
    (∃ t, iperfParseArguments DoubleOps.integral false (defaultTest (some 0))
        [lit "iperf", lit "-s", lit "-t", lit "-5"] = .ok (0, t) ∧ ¬ WithinLimits t) ∧
    ∃ (json : CjsonLib) (t' : IperfTest) (sys sys' : Sys),
      getParameters json (newServer 0) sys = .ok (0, t', sys') ∧ ¬ WithinLimits t' := by
  have hparse : iperfParseArguments DoubleOps.integral false (defaultTest (some 0))
        [lit "iperf", lit "-s", lit "-t", lit "-5"] =
      .ok (0, setOptions DoubleOps.integral (defaultTest (some 0))
        [⟨'s', none⟩, ⟨'t', some (lit "-5")⟩]) := by decide +kernel
  obtain ⟨sys', _, hget⟩ := getParameters_single
    (lit "\x7b\"parallel\":4294967296\x7d") (by decide) decodable_manyStreams
  refine ⟨⟨_, hparse, fun h => absurd (h .duration) ?_⟩, _, _, _, sys', hget,
    fun h => absurd (h .numStreams) ?_⟩
  · decide +kernel
  · decide +kernel

end KernelTestkit.Cli
