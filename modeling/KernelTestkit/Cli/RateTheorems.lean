/-
KernelTestkit.Cli.RateTheorems — the rate an argument of -b sets.

An argument has a rate (`HasRate`) when it begins with a number and the
number, times its unit, fits into a `uint64_t`. That rate is then set,
whatever C leaves open (`rate_of_hasRate`). Any other argument is converted
all the same: no path of -b returns -1.

* `parseLoop_congr` — a command line depends on what C leaves open through
  the arguments of -b only.
* `rate_determined_iff` — the arguments that determine their rate are those
  that have one.
-/
import KernelTestkit.Cli.LimitTheorems
import KernelTestkit.Cli.Rate

namespace KernelTestkit.Cli

open KernelTestkit.Lib
open KernelTestkit.Net
open KernelTestkit.Api

/-! ## The rate of an argument -/

/-- The same numbers with other garbage on the stack. -/
def DoubleOps.withStack {double : Type} (ops : DoubleOps double) (n : Nat → double) :
    DoubleOps double :=
  { ops with uninitialised := n }

/-- The rate an argument of -b sets in the coming round. -/
def rateOf {double : Type} (ops : DoubleOps double) (s : CString) : UInt64 :=
  ops.toUInt64 (unitAtofRate ops s)

/-- The unit of a suffix. -/
def rateUnit (suffix : Option UInt8) : Nat :=
  match suffix.map fun b => Char.ofNat b.toNat with
  | some 't' | some 'T' => TERA_RATE_UNIT
  | some 'g' | some 'G' => GIGA_RATE_UNIT
  | some 'm' | some 'M' => MEGA_RATE_UNIT
  | some 'k' | some 'K' => KILO_RATE_UNIT
  | _ => 1

/-- `q` is the leading number of `s` times its unit, and fits. -/
def HasRate (s : CString) (q : Rat) : Prop :=
  ∃ n suffix, sscanfRate s = (some (.finite n), suffix) ∧ q = n * rateUnit suffix ∧
    0 ≤ q ∧ q < 18446744073709551616

theorem unitAtofRate_eq (c : Indeterminate) {s : CString} {n : Rat} {suffix : Option UInt8}
    (h : sscanfRate s = (some (.finite n), suffix)) :
    unitAtofRate (rateOps c) s = .finite (n * rateUnit suffix) := by
  have hscan : (rateOps c).scan s = (some (.finite n), suffix) := h
  unfold unitAtofRate rateUnit
  rw [hscan]
  dsimp only
  generalize suffix.map (fun b => Char.ofNat b.toNat) = mark
  split
  case h_9 => simp_all
  all_goals rfl

/-- The integer part of a number that fits. -/
theorem toNat_floor {q : Rat} (h0 : 0 ≤ q) (hlt : q < 18446744073709551616) :
    ((UInt64.ofNat q.floor.toNat).toNat : Int) = q.floor := by
  have hle : 0 ≤ q.floor := Rat.le_floor_iff.mpr (by simpa using h0)
  have hbound : q.floor < 18446744073709551616 := Rat.floor_lt_iff.mpr (by simpa using hlt)
  rw [UInt64.toNat_ofNat']
  omega

/-- **The rate of an argument** is set, whatever C leaves open. -/
theorem rate_of_hasRate (c : Indeterminate) {s : CString} {q : Rat} (h : HasRate s q) :
    rateOf (rateOps c) s = UInt64.ofNat q.floor.toNat := by
  obtain ⟨n, suffix, hscan, rfl, h0, hlt⟩ := h
  have hneg : (-1 : Rat) < n * rateUnit suffix := Std.lt_of_lt_of_le (by decide +kernel) h0
  rw [rateOf, unitAtofRate_eq c hscan]
  exact if_pos ⟨hneg, hlt⟩

/-! ## The command line -/

section CommandLine

variable {double : Type} {ops ops' : DoubleOps double}

/-- Two readings of numbers that set the same rate for an option, whatever the
stack holds. -/
def SameRate (ops ops' : DoubleOps double) (opt : Opt) : Prop :=
  opt.flag = 'b' → ∀ s ∈ opt.optarg, ∀ n n',
    rateOf (ops.withStack n) s = rateOf (ops'.withStack n') s

theorem parseOption_congr {opt : Opt} (h : SameRate ops ops' opt) (t : IperfTest) :
    parseOption ops opt t = parseOption ops' opt t := by
  obtain ⟨flag, optarg⟩ := opt
  by_cases hb : flag = 'b'
  · subst hb
    cases optarg with
    | none => rfl
    | some s =>
        have hrate : rateOf ops s = rateOf ops' s :=
          h rfl s rfl ops.uninitialised ops'.uninitialised
        change (Except.ok (none, { t with settings := { t.settings with
            rate := rateOf ops s } }) : Except Fault _) = .ok (none, { t with
          settings := { t.settings with rate := rateOf ops' s } })
        rw [hrate]
  · unfold parseOption
    dsimp only
    split
    case h_7 => exact absurd rfl hb
    all_goals rfl

/-- **What a command line depends on**: the rates of its options. -/
theorem parseLoop_congr {opts : List Opt} (h : ∀ opt ∈ opts, SameRate ops ops' opt)
    (t : IperfTest) : parseLoop ops opts t = parseLoop ops' opts t := by
  induction opts generalizing ops ops' t with
  | nil => rfl
  | cons opt opts ih =>
      obtain ⟨hopt, hopts⟩ := List.forall_mem_cons.mp h
      have hnext : ∀ opt ∈ opts, SameRate ops.next ops'.next opt := hopts
      rw [parseLoop, parseLoop, parseOption_congr hopt]
      refine congrArg (parseOption ops' opt t >>= ·) (funext fun out => ?_)
      cases hout : out.1 with
      | none => simp only [hout, ih hnext]
      | some r => simp only [hout]

/-- The rate the last -b sets, in its round. -/
def lastRate : DoubleOps double → List Opt → Option UInt64
  | _, [] => none
  | ops, opt :: opts =>
      (lastRate ops.next opts).or (if opt.flag = 'b' then opt.optarg.map (rateOf ops) else none)

variable (ops)

theorem rate_setOption (t : IperfTest) (opt : Opt) :
    (setOption ops t opt).settings.rate
      = (if opt.flag = 'b' then opt.optarg.map (rateOf ops) else none).getD t.settings.rate := by
  obtain ⟨flag, optarg⟩ := opt
  unfold setOption
  dsimp only
  cases optarg <;> split <;> simp_all [rateOf]

/-- **The rate a command line leaves.** -/
theorem rate_setOptions (t : IperfTest) (opts : List Opt) :
    (setOptions ops t opts).settings.rate = (lastRate ops opts).getD t.settings.rate := by
  induction opts generalizing ops t with
  | nil => rfl
  | cons opt opts ih =>
      have hstep := ih ops.next (setOption ops t opt)
      rw [rate_setOption] at hstep
      rw [lastRate, Option.getD_or]
      exact hstep

/-- A rate that does not depend on the stack is the one of the last argument. -/
theorem lastRate_of_stable {f : CString → UInt64} {opts : List Opt}
    (h : ∀ s ∈ lastArgument 'b' opts, ∀ n, rateOf (ops.withStack n) s = f s) :
    lastRate ops opts = (lastArgument 'b' opts).map f := by
  induction opts generalizing ops with
  | nil => rfl
  | cons opt opts ih =>
      rw [lastArgument] at h ⊢
      rw [lastRate]
      cases hlast : lastArgument 'b' opts with
      | some s =>
          rw [hlast, Option.some_or] at h
          rw [ih ops.next (by rw [hlast]; exact h), hlast]
          rfl
      | none =>
          rw [hlast, Option.none_or] at h
          rw [ih ops.next (by rw [hlast]; exact fun s hs => by cases hs), hlast, Option.map_none,
            Option.none_or, Option.none_or]
          by_cases hb : opt.flag = 'b'
          · rw [if_pos hb] at h ⊢
            rw [if_pos hb]
            cases harg : opt.optarg with
            | none => rfl
            | some s => exact congrArg some (h s harg ops.uninitialised)
          · rw [if_neg hb, if_neg hb]
            rfl

end CommandLine

/-! ## Determined rates -/

/-- An argument of -b determines the rate. -/
structure RateDetermined (s : CString) : Prop where
  /-- the rate it has is what an accepted command line leaves, where it is given last -/
  stored : ∀ q, HasRate s q → ∀ c posixlyCorrect node argv t,
    lastArgument 'b' (options posixlyCorrect argv) = some s →
    iperfParseArguments (rateOps c) posixlyCorrect (defaultTest node) argv = .ok (0, t) →
    (t.settings.rate.toNat : Int) = q.floor
  /-- a command line with no other argument of -b does not depend on what C leaves open -/
  independent : ∀ c c' posixlyCorrect node argv,
    (∀ opt ∈ options posixlyCorrect argv, opt.flag = 'b' → opt.optarg = some s) →
    iperfParseArguments (rateOps c) posixlyCorrect (defaultTest node) argv
      = iperfParseArguments (rateOps c') posixlyCorrect (defaultTest node) argv
  /-- an argument without a rate is rejected -/
  rejected : (¬ ∃ q, HasRate s q) → ∀ c posixlyCorrect node argv r t,
    ⟨'b', some s⟩ ∈ options posixlyCorrect argv →
    iperfParseArguments (rateOps c) posixlyCorrect (defaultTest node) argv = .ok (r, t) → r = -1

/-- The options of `iperf -s -b s`. -/
theorem options_server_rate (s : CString) :
    options false [lit "iperf", lit "-s", lit "-b", s] = [⟨'s', none⟩, ⟨'b', some s⟩] := rfl

/-- `iperf -s -b s` is accepted, whatever `s` is. -/
theorem parse_server_rate (c : Indeterminate) (s : CString) :
    iperfParseArguments (rateOps c) false (defaultTest (some 0))
        [lit "iperf", lit "-s", lit "-b", s]
      = .ok (0, { newServer 0 with settings := { (newServer 0).settings with
          rate := rateOf (rateOps c).next s } }) := by
  rw [iperfParseArguments, options_server_rate]
  rfl

/-- **The arguments of -b that determine the rate** are those that begin with a
number whose product with its unit fits into a `uint64_t`. -/
theorem rate_determined_iff (s : CString) : RateDetermined s ↔ ∃ q, HasRate s q := by
  constructor
  · intro h
    by_contra hno
    have hmem : ⟨'b', some s⟩ ∈ options false [lit "iperf", lit "-s", lit "-b", s] := by
      rw [options_server_rate]
      exact List.mem_cons_of_mem _ (List.mem_cons_self ..)
    have hr := h.rejected hno .zero false (some 0) _ 0 _ hmem (parse_server_rate .zero s)
    exact absurd hr (by decide)
  · intro h
    refine ⟨?_, ?_, fun hno => absurd h hno⟩
    · intro q hq c posixlyCorrect node argv t hlast hparse
      obtain ⟨_, rfl⟩ := parse_returned_zero (rateOps c) hparse
      have hstable : ∀ s' ∈ lastArgument 'b' (options posixlyCorrect argv), ∀ n,
          rateOf ((rateOps c).withStack n) s' = UInt64.ofNat q.floor.toNat := by
        intro s' hs' n
        obtain rfl : s = s' := Option.some.inj (hlast.symm.trans hs')
        exact rate_of_hasRate ⟨n, c.converted⟩ hq
      rw [rate_setOptions, lastRate_of_stable (rateOps c) hstable, hlast, Option.map_some,
        Option.getD_some]
      obtain ⟨_, _, _, _, h0, hlt⟩ := hq
      exact toNat_floor h0 hlt
    · intro c c' posixlyCorrect node argv honly
      obtain ⟨q, hq⟩ := h
      refine parseLoop_congr (fun opt hopt hb s' hs' n n' => ?_) _
      obtain rfl : s' = s := Option.some.inj (hs'.symm.trans (honly opt hopt hb))
      exact (rate_of_hasRate ⟨n, c.converted⟩ hq).trans
        (rate_of_hasRate ⟨n', c'.converted⟩ hq).symm

/-- Uninitialised memory is always one, and so is a value that does not fit. -/
def Indeterminate.one : Indeterminate := ⟨fun _ => .finite 1, fun _ => 1⟩

theorem not_rateDetermined {s : CString} (c c' : Indeterminate)
    (hne : rateOf (rateOps c).next s ≠ rateOf (rateOps c').next s) : ¬ RateDetermined s := by
  intro h
  have honly : ∀ opt ∈ options false [lit "iperf", lit "-s", lit "-b", s],
      opt.flag = 'b' → opt.optarg = some s := by
    intro opt hopt hb
    rw [options_server_rate] at hopt
    rcases List.mem_cons.mp hopt with rfl | hopt
    · exact absurd hb (by decide)
    · rw [List.mem_singleton.mp hopt]
  have hsame := h.independent c c' false (some 0) _ honly
  rw [parse_server_rate, parse_server_rate] at hsame
  injection hsame with hpair
  injection hpair with _ htest
  exact hne (congrArg (fun t => t.settings.rate) htest)

/-- `iperf -s -b fast` is accepted, and the contents of `n` become the rate; nor
is the rate of `iperf -s -b -1` determined. -/
theorem rate_undetermined_accepted :
    (∃ t t', iperfParseArguments (rateOps .zero) false (defaultTest (some 0))
        [lit "iperf", lit "-s", lit "-b", lit "fast"] = .ok (0, t) ∧ t.settings.rate = 0 ∧
      iperfParseArguments (rateOps .one) false (defaultTest (some 0))
        [lit "iperf", lit "-s", lit "-b", lit "fast"] = .ok (0, t') ∧ t'.settings.rate = 1) ∧
    ¬ RateDetermined (lit "fast") ∧ ¬ RateDetermined (lit "-1") := by
  have hzero : rateOf (rateOps .zero).next (lit "fast") = 0 := by decide +kernel
  have hone : rateOf (rateOps .one).next (lit "fast") = 1 := by decide +kernel
  refine ⟨⟨_, _, parse_server_rate .zero _, hzero, parse_server_rate .one _, hone⟩, ?_, ?_⟩
  · refine not_rateDetermined .zero .one ?_
    rw [hzero, hone]
    decide
  · exact not_rateDetermined .zero .one (by decide +kernel)

end KernelTestkit.Cli
