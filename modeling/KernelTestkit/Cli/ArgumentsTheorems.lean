/-
KernelTestkit.Cli.ArgumentsTheorems — what `iperf_parse_arguments` does, and
what `main` runs after it.

The start-up selects no protocol: a test is `Unselected` from its defaults
on, and no option changes that. An option `Stops` the loop when it is a -c
or is rejected. A -c selects the role of a client, whose sender flag makes
`check_sender_has_retransmits` read the protocol that is not there.

* `options_hasArgument` — an option that is read for its argument has one.
* `parseOption_eq` — one option.
* `parseLoop_ends` — the loop ends after all the options, or at the first
  that stops it.
* `parse_returns_iff` — the loop never reads through the protocol exactly
  when no -c comes first.
* `parse_returned_zero` — 0 is returned for options that were all set.
* `rejected_never_run_iff` — a command line that was not accepted whole is
  run exactly when an option stops the loop behind a -s.
-/
import KernelTestkit.Cli.Arguments
import KernelTestkit.Api.TestTheorems

namespace KernelTestkit.Cli

open KernelTestkit.Lib
open KernelTestkit.Net
open KernelTestkit.Api

/-! ## The options -/

/-- The options whose argument `iperf_parse_arguments` reads. -/
def argumentFlags : List Char := ['p', 'f', 'c', 'b', 't', OPT_CLIENT_PORT, 'M']

/-- An option that is read for its argument has one. -/
def HasArgument (opt : Opt) : Prop := opt.flag ∈ argumentFlags → ∃ s, opt.optarg = some s

/-- These options take an argument, short or long. -/
theorem argumentFlags_declared : ∀ flag ∈ argumentFlags,
    shortOption iperfSyntax flag ≠ some false ∧
      ∀ o ∈ longopts, o.val = flag → o.hasArg = true := by
  have hall : (argumentFlags.all fun flag => shortOption iperfSyntax flag != some false &&
      longopts.all fun o => o.val != flag || o.hasArg) = true := by decide +kernel
  intro flag hflag
  have h := List.all_eq_true.mp hall flag hflag
  rw [Bool.and_eq_true, bne_iff_ne, List.all_eq_true] at h
  refine ⟨h.1, fun o ho hval => ?_⟩
  simpa [hval] using h.2 o ho

/-- **No NULL argument** is ever read. -/
theorem options_hasArgument (posixlyCorrect : Bool) (argv : List CString) :
    ∀ opt ∈ options posixlyCorrect argv, HasArgument opt := by
  intro opt hopt hflag
  rcases getoptLong_reports iperfSyntax posixlyCorrect argv.tail opt hopt with rfl | hdeclares
  · exact absurd hflag (by decide)
  · rw [← Option.isSome_iff_exists]
    obtain ⟨hshort, hlong⟩ := argumentFlags_declared opt.flag hflag
    cases harg : opt.optarg.isSome with
    | true => rfl
    | false =>
        rw [harg] at hdeclares
        rcases hdeclares with h | ⟨o, ho, hval, hno⟩
        · exact absurd h hshort
        · exact absurd (hlong o ho hval) (by simp [hno])

/-- An option `iperf_parse_arguments` rejects, after it has stored its value. -/
def Rejected (opt : Opt) : Prop :=
  ∃ s ∈ opt.optarg, opt.flag = 'f' ∧ firstChar s ∉ unitFormats ∨
    opt.flag = 'M' ∧ MAX_MSS < atoi s

/-- An option the loop does not get past, from a test without a protocol. -/
def Stops (opt : Opt) : Prop := opt.flag = 'c' ∨ Rejected opt

instance (opt : Opt) : Decidable (Rejected opt) := inferInstanceAs (Decidable (∃ _ ∈ _, _))

instance (opt : Opt) : Decidable (Stops opt) := inferInstanceAs (Decidable (_ ∨ _))

/-- A test as the start-up leaves it: no protocol is selected, and UDP cannot
be. -/
structure Unselected (t : IperfTest) : Prop where
  protocol : t.protocol = none
  noUdp : t.protocols.find? (·.id = Pudp) = none
  reverse : t.reverse = 0
  role : t.role ≠ 'c'

theorem unselected_defaultTest (node : Option Nat) : Unselected (defaultTest node) := by
  have hrole : '\x00' ≠ 'c' := by decide
  cases node with
  | none => exact ⟨rfl, rfl, rfl, hrole⟩
  | some node => exact ⟨rfl, rfl, rfl, hrole⟩

variable {double : Type} (ops : DoubleOps double)

/-- What an option other than -c sets. -/
def setOption (t : IperfTest) (opt : Opt) : IperfTest :=
  match opt.flag, opt.optarg with
  | 'p', some s => { t with serverPort := atoi s }
  | 'f', some s => { t with settings := { t.settings with unitFormat := firstChar s } }
  | 'V', _ => { t with verbose := 1 }
  | 's', _ => { t with role := 's', sender := 0, senderHasRetransmits := 0 }
  | 'b', some s =>
      { t with settings := { t.settings with rate := ops.toUInt64 (unitAtofRate ops s) } }
  | 't', some s => { t with duration := atoi s }
  | '\x05', some s => { t with bindPort := atoi s }
  | 'M', some s => { t with settings := { t.settings with mss := atoi s } }
  | _, _ => t

theorem setOption_role (t : IperfTest) (opt : Opt) :
    (setOption ops t opt).role = if opt.flag = 's' then 's' else t.role := by
  unfold setOption
  split <;> simp_all

/-- No option selects or registers a protocol. -/
theorem setOption_frame (t : IperfTest) (opt : Opt) :
    (setOption ops t opt).protocol = t.protocol ∧
      (setOption ops t opt).protocols = t.protocols ∧
      (setOption ops t opt).reverse = t.reverse := by
  unfold setOption
  split <;> exact ⟨rfl, rfl, rfl⟩

theorem Unselected.setOption {t : IperfTest} (h : Unselected t) (opt : Opt) :
    Unselected (setOption ops t opt) := by
  obtain ⟨hprotocol, hprotocols, hreverse⟩ := setOption_frame ops t opt
  refine ⟨hprotocol.trans h.protocol, by rw [hprotocols]; exact h.noUdp,
    hreverse.trans h.reverse, ?_⟩
  rw [setOption_role]
  split
  · decide
  · exact h.role

/-- What the stack holds matters to -b only. -/
theorem setOption_next {opt : Opt} (hb : opt.flag ≠ 'b') (t : IperfTest) :
    setOption ops.next t opt = setOption ops t opt := by
  unfold setOption
  split
  case h_5 hflag _ => exact absurd hflag hb
  all_goals rfl

theorem not_rejected {flag : Char} (hf : flag ≠ 'f') (hM : flag ≠ 'M')
    (optarg : Option CString) : ¬ Rejected ⟨flag, optarg⟩ := by
  rintro ⟨s, _, ⟨h, _⟩ | ⟨h, _⟩⟩
  · exact hf h
  · exact hM h

/-- A rejected option sets no rate. -/
theorem Rejected.not_rate {opt : Opt} (h : Rejected opt) : opt.flag ≠ 'b' := by
  obtain ⟨_, _, ⟨h, _⟩ | ⟨h, _⟩⟩ := h <;> rw [h] <;> decide

theorem rejected_format_iff (s : CString) :
    Rejected ⟨'f', some s⟩ ↔ firstChar s ∉ unitFormats := by
  simp [Rejected]

theorem rejected_mss_iff (s : CString) : Rejected ⟨'M', some s⟩ ↔ MAX_MSS < atoi s := by
  simp [Rejected]

/-- The role of a server is set without a look at the protocol. -/
theorem iperfSetTestRole_server {t : IperfTest} (h : Unselected t) :
    iperfSetTestRole t 's'
      = .ok { t with role := 's', sender := 0, senderHasRetransmits := 0 } := by
  have hsender : roleSender t 's' = 0 := by simp [roleSender, h.reverse]
  rw [iperfSetTestRole_ok, hsender]
  exact ⟨fun hne => absurd rfl hne, by simp [retransmits]⟩

/-- The role of a client is not. -/
theorem iperfSetTestRole_client {t : IperfTest} (h : Unselected t) :
    iperfSetTestRole t 'c' = .error .nullPointer := by
  simp [iperfSetTestRole, checkSenderHasRetransmits, h.reverse, h.protocol]

theorem setProtocol_udp {t : IperfTest} (h : Unselected t) : setProtocol t Pudp = .ok (-1, t) := by
  simp [setProtocol, h.noUdp]

/-- **One option**, from a test without a protocol. -/
theorem parseOption_eq {opt : Opt} {t : IperfTest} (h : Unselected t) (harg : HasArgument opt) :
    parseOption ops opt t =
      if opt.flag = 'c' then
        if t.role = 's' then .ok (some (-1), t) else .error .nullPointer
      else .ok (if Rejected opt then some (-1) else none, setOption ops t opt) := by
  obtain ⟨flag, optarg⟩ := opt
  have hargument : flag ∈ argumentFlags → ∃ s, optarg = some s := harg
  unfold parseOption
  dsimp only
  split
  -- the options with an argument that is not checked
  case h_1 | h_7 | h_8 | h_9 =>
    obtain ⟨s, rfl⟩ := hargument (by decide)
    rw [if_neg (by decide), if_neg (not_rejected (by decide) (by decide) _)]
    rfl
  -- 'f'
  case h_2 =>
    obtain ⟨s, rfl⟩ := hargument (by decide)
    rw [if_neg (by decide)]
    by_cases hs : firstChar s ∈ unitFormats
    · rw [if_neg (fun hr => (rejected_format_iff s).mp hr hs)]
      exact if_pos hs
    · rw [if_pos ((rejected_format_iff s).mpr hs)]
      exact if_neg hs
  -- 'V'
  case h_3 =>
    rw [if_neg (by decide), if_neg (not_rejected (by decide) (by decide) _)]
    rfl
  -- 's'
  case h_4 =>
    rw [if_neg h.role, iperfSetTestRole_server h, if_neg (by decide),
      if_neg (not_rejected (by decide) (by decide) _)]
    rfl
  -- 'c'
  case h_5 =>
    rw [iperfSetTestRole_client h, if_pos rfl]
    rfl
  -- 'u'
  case h_6 =>
    rw [setProtocol_udp h, if_neg (by decide), if_neg (not_rejected (by decide) (by decide) _)]
    rfl
  -- 'M'
  case h_10 =>
    obtain ⟨s, rfl⟩ := hargument (by decide)
    rw [if_neg (by decide)]
    by_cases hs : MAX_MSS < atoi s
    · rw [if_pos ((rejected_mss_iff s).mpr hs)]
      exact if_pos hs
    · rw [if_neg (fun hr => hs ((rejected_mss_iff s).mp hr))]
      exact if_neg hs
  case h_11 hp hf hV hs hc hu hb ht hport hM =>
    have hset : setOption ops t ⟨flag, optarg⟩ = t := by
      unfold setOption
      split <;> simp_all
    rw [if_neg hc, if_neg (not_rejected hf hM _), hset]

/-! ## The loop -/

/-- What options that do not stop the loop set together, round by round. -/
def setOptions {double : Type} :
    DoubleOps double → IperfTest → List Opt → IperfTest
  | _, t, [] => t
  | ops, t, opt :: opts => setOptions ops.next (setOption ops t opt) opts

/-- The options name the role of a server. -/
def SetsServer (opts : List Opt) : Prop := ∃ opt ∈ opts, opt.flag = 's'

/-- No option stops the loop. -/
def Clean (opts : List Opt) : Prop := ∀ opt ∈ opts, ¬ Stops opt

theorem Unselected.setOptions {t : IperfTest} (h : Unselected t) (opts : List Opt) :
    Unselected (setOptions ops t opts) := by
  induction opts generalizing ops t with
  | nil => exact h
  | cons opt opts ih => exact ih ops.next (h.setOption ops opt)

/-- The role is that of a server once an option names it. -/
theorem setOptions_role (t : IperfTest) (opts : List Opt) :
    (setOptions ops t opts).role = 's' ↔ t.role = 's' ∨ SetsServer opts := by
  induction opts generalizing ops t with
  | nil => simp [setOptions, SetsServer]
  | cons opt opts ih =>
      have hstep := ih ops.next (setOption ops t opt)
      rw [setOption_role] at hstep
      simp only [SetsServer, List.exists_mem_cons_iff] at hstep ⊢
      by_cases hs : opt.flag = 's'
      · simpa [setOptions, hs] using hstep
      · simpa [setOptions, hs] using hstep

/-- How the loop over `opts` ends that began with the test `t`. -/
inductive ParseEnds (t : IperfTest) (opts : List Opt) :
    Except Fault (Int32 × IperfTest) → Prop where
  /-- all the options were set -/
  | whole : Clean opts →
      ParseEnds t opts (.ok (if (setOptions ops t opts).role = 's' then 0 else -1,
        setOptions ops t opts))
  /-- an option was rejected, after its value was set -/
  | rejected (before after : List Opt) (opt : Opt) :
      opts = before ++ opt :: after → Clean before → opt.flag ≠ 'c' → Rejected opt →
      ParseEnds t opts (.ok (-1, setOption ops (setOptions ops t before) opt))
  /-- a server was told to be a client -/
  | client (before after : List Opt) (opt : Opt) :
      opts = before ++ opt :: after → Clean before → opt.flag = 'c' →
      (setOptions ops t before).role = 's' → ParseEnds t opts (.ok (-1, setOptions ops t before))
  /-- a test without a role was: the protocol is read through -/
  | faulted (before after : List Opt) (opt : Opt) :
      opts = before ++ opt :: after → Clean before → opt.flag = 'c' →
      (setOptions ops t before).role ≠ 's' → ParseEnds t opts (.error .nullPointer)

/-- An option that does not stop the loop, in front of a rest that ends some way. -/
theorem ParseEnds.cons {t : IperfTest} {opt : Opt} {opts : List Opt}
    {out : Except Fault (Int32 × IperfTest)} (hgoes : ¬ Stops opt)
    (h : ParseEnds ops.next (setOption ops t opt) opts out) :
    ParseEnds ops t (opt :: opts) out := by
  have hclean : ∀ {before}, Clean before → Clean (opt :: before) := fun h =>
    List.forall_mem_cons.mpr ⟨hgoes, h⟩
  cases h with
  | whole h => exact .whole (hclean h)
  | rejected before after stop hopts h hc hr =>
      rw [setOption_next ops hr.not_rate]
      exact .rejected (opt :: before) after stop (by rw [hopts]; rfl) (hclean h) hc hr
  | client before after stop hopts h hc hrole =>
      exact .client (opt :: before) after stop (by rw [hopts]; rfl) (hclean h) hc hrole
  | faulted before after stop hopts h hc hrole =>
      exact .faulted (opt :: before) after stop (by rw [hopts]; rfl) (hclean h) hc hrole

/-- **How the option loop ends**, from a test without a protocol. -/
theorem parseLoop_ends {opts : List Opt} {t : IperfTest} (h : Unselected t)
    (hargs : ∀ opt ∈ opts, HasArgument opt) : ParseEnds ops t opts (parseLoop ops opts t) := by
  induction opts generalizing ops t with
  | nil =>
      have hend : parseLoop ops [] t = .ok (if t.role = 's' then 0 else -1, t) := by
        rw [parseLoop]
        by_cases hs : t.role = 's' <;> simp [hs, h.role]
      rw [hend]
      exact .whole (fun _ hopt => absurd hopt (by simp))
  | cons opt opts ih =>
      obtain ⟨harg, hargs⟩ := List.forall_mem_cons.mp hargs
      have hnil : Clean [] := fun _ hopt => absurd hopt (by simp)
      rw [parseLoop, parseOption_eq ops h harg]
      by_cases hc : opt.flag = 'c'
      · rw [if_pos hc]
        by_cases hs : t.role = 's'
        · rw [if_pos hs]
          exact .client [] opts opt rfl hnil hc hs
        · rw [if_neg hs]
          exact .faulted [] opts opt rfl hnil hc hs
      · rw [if_neg hc]
        by_cases hr : Rejected opt
        · rw [if_pos hr]
          exact .rejected [] opts opt rfl hnil hc hr
        · rw [if_neg hr]
          exact .cons ops (fun hstops => hstops.elim hc hr)
            (ih ops.next (h.setOption ops opt) hargs)

/-- The loop returns 0 with every option set and none rejected. -/
theorem parse_returned_zero {posixlyCorrect : Bool} {node : Option Nat} {argv : List CString}
    {t : IperfTest}
    (h : iperfParseArguments ops posixlyCorrect (defaultTest node) argv = .ok (0, t)) :
    Clean (options posixlyCorrect argv) ∧
      t = setOptions ops (defaultTest node) (options posixlyCorrect argv) := by
  have hends := parseLoop_ends ops (unselected_defaultTest node)
    (options_hasArgument posixlyCorrect argv)
  rw [show parseLoop ops _ _ = _ from h] at hends
  generalize hout : (Except.ok (0, t) : Except Fault (Int32 × IperfTest)) = out at hends
  cases hends with
  | whole hclean =>
      injection hout with hpair
      injection hpair with _ ht
      exact ⟨hclean, ht⟩
  | rejected => cases hout
  | client => cases hout
  | faulted => cases hout

/-! ## The start-up -/

/-- The options in front of the first that stops the loop. -/
def unstopped (opts : List Opt) : List Opt := opts.takeWhile (¬ Stops ·)

/-- The loop stops at a -c, and no -s comes before it. -/
def StartsClient (opts : List Opt) : Prop :=
  (∃ opt ∈ opts.find? (Stops ·), opt.flag = 'c') ∧ ¬ SetsServer (unstopped opts)

/-- The loop stops, and a -s comes before. -/
def StopsServer (opts : List Opt) : Prop :=
  (opts.find? (Stops ·)).isSome ∧ SetsServer (unstopped opts)

theorem find_stops_clean {opts : List Opt} (hclean : Clean opts) :
    opts.find? (Stops ·) = none := by
  rw [List.find?_eq_none]
  intro opt hopt
  simpa using hclean opt hopt

/-- The first option that stops the loop. -/
theorem find_stops_append {before after : List Opt} {opt : Opt} (hclean : Clean before)
    (hstops : Stops opt) : (before ++ opt :: after).find? (Stops ·) = some opt := by
  rw [List.find?_append, find_stops_clean hclean, Option.none_or]
  exact List.find?_cons_of_pos (by simpa using hstops)

/-- What comes before it. -/
theorem unstopped_append {before after : List Opt} {opt : Opt} (hclean : Clean before)
    (hstops : Stops opt) : unstopped (before ++ opt :: after) = before := by
  have hgoes : ∀ o ∈ before, decide (¬ Stops o) = true := by simpa [Clean] using hclean
  rw [unstopped, List.takeWhile_append_of_pos hgoes,
    List.takeWhile_cons_of_neg (by simpa using hstops), List.append_nil]

theorem startsClient_append {before after : List Opt} {opt : Opt} (hclean : Clean before)
    (hstops : Stops opt) :
    StartsClient (before ++ opt :: after) ↔ opt.flag = 'c' ∧ ¬ SetsServer before := by
  simp [StartsClient, find_stops_append hclean hstops, unstopped_append hclean hstops]

theorem stopsServer_append {before after : List Opt} {opt : Opt} (hclean : Clean before)
    (hstops : Stops opt) : StopsServer (before ++ opt :: after) ↔ SetsServer before := by
  simp [StopsServer, find_stops_append hclean hstops, unstopped_append hclean hstops]

/-- From the defaults, the role of a server comes from a -s only. -/
theorem setOptions_server (node : Option Nat) (opts : List Opt) :
    (setOptions ops (defaultTest node) opts).role = 's' ↔ SetsServer opts := by
  have hrole : (defaultTest node).role ≠ 's' := by
    cases node <;> exact (by decide : '\x00' ≠ 's')
  rw [setOptions_role]
  exact ⟨fun h => h.resolve_left hrole, Or.inr⟩

/-- **No protocol is read through at the start-up** exactly when no -c comes
before every -s and every rejected option. -/
theorem parse_returns_iff (posixlyCorrect : Bool) (node : Option Nat) (argv : List CString) :
    (∃ out, iperfParseArguments ops posixlyCorrect (defaultTest node) argv = .ok out) ↔
      ¬ StartsClient (options posixlyCorrect argv) := by
  have hends := parseLoop_ends ops (unselected_defaultTest node)
    (options_hasArgument posixlyCorrect argv)
  unfold iperfParseArguments
  generalize parseLoop ops (options posixlyCorrect argv) (defaultTest node) = out at hends
  generalize options posixlyCorrect argv = opts at hends
  cases hends with
  | whole hclean =>
      refine iff_of_true ⟨_, rfl⟩ ?_
      rintro ⟨⟨opt, hopt, _⟩, _⟩
      simp [find_stops_clean hclean] at hopt
  | rejected before after opt hopts hclean hc hr =>
      rw [hopts, startsClient_append hclean (Or.inr hr)]
      exact iff_of_true ⟨_, rfl⟩ (fun h => hc h.1)
  | client before after opt hopts hclean hc hserver =>
      rw [hopts, startsClient_append hclean (Or.inl hc)]
      exact iff_of_true ⟨_, rfl⟩ (fun h => h.2 ((setOptions_server ops node before).mp hserver))
  | faulted before after opt hopts hclean hc hserver =>
      rw [hopts, startsClient_append hclean (Or.inl hc)]
      refine iff_of_false (fun ⟨_, h⟩ => by cases h) (fun h => h ⟨hc, ?_⟩)
      exact fun hsets => hserver ((setOptions_server ops node before).mpr hsets)

/-- `iperf -c host` reads through the protocol that was not selected. -/
theorem client_reads_null_protocol :
    iperfParseArguments DoubleOps.integral false (defaultTest (some 0))
      [lit "iperf", lit "-c", lit "host"] = .error .nullPointer := by
  decide +kernel

/-! ## What is run -/

/-- What the options that are checked leave in the settings. -/
structure Checked (t : IperfTest) : Prop where
  unitFormat : t.settings.unitFormat = 'a' ∨ t.settings.unitFormat ∈ unitFormats
  mss : t.settings.mss ≤ MAX_MSS

theorem checked_defaultTest (node : Option Nat) : Checked (defaultTest node) := by
  cases node <;> exact ⟨Or.inl rfl, (by decide : (0 : Int32) ≤ MAX_MSS)⟩

/-- An option that is not rejected keeps the settings checked. -/
theorem Checked.setOption {t : IperfTest} (h : Checked t) {opt : Opt} (hr : ¬ Rejected opt) :
    Checked (setOption ops t opt) := by
  obtain ⟨flag, optarg⟩ := opt
  unfold Cli.setOption
  dsimp only
  split
  -- 'f'
  case h_2 s =>
    have hs : firstChar s ∈ unitFormats := by simpa [rejected_format_iff] using hr
    exact ⟨Or.inr hs, h.mss⟩
  -- 'M'
  case h_8 s =>
    have hs : ¬ MAX_MSS < atoi s := by simpa [rejected_mss_iff] using hr
    exact ⟨h.unitFormat, Int32.not_lt.mp hs⟩
  all_goals exact ⟨h.unitFormat, h.mss⟩

theorem Checked.setOptions {t : IperfTest} (h : Checked t) {opts : List Opt}
    (hclean : Clean opts) : Checked (setOptions ops t opts) := by
  induction opts generalizing ops t with
  | nil => exact h
  | cons opt opts ih =>
      obtain ⟨hgoes, hclean⟩ := List.forall_mem_cons.mp hclean
      exact ih ops.next (h.setOption ops (fun hr => hgoes (Or.inr hr))) hclean

/-- `t` is the test of a command line that was accepted whole. -/
structure Accepted (posixlyCorrect : Bool) (node : Option Nat) (argv : List CString)
    (t : IperfTest) : Prop where
  /-- `iperf_parse_arguments` returned 0 -/
  returned : iperfParseArguments ops posixlyCorrect (defaultTest node) argv = .ok (0, t)
  /-- every option was processed -/
  whole : t = setOptions ops (defaultTest node) (options posixlyCorrect argv)
  role : t.role = 's' ∨ t.role = 'c'
  server : ∀ opt ∈ options posixlyCorrect argv, opt.flag = 's' → t.role = 's'
  client : ∀ opt ∈ options posixlyCorrect argv, opt.flag = 'c' → t.role = 'c'
  checked : Checked t
  /-- no option was rejected -/
  noneRejected : ∀ opt ∈ options posixlyCorrect argv, ¬ Rejected opt

/-- `run` without a client. -/
theorem run_eq {t : IperfTest} (h : t.role ≠ 'c') :
    run t = if t.role = 's' then some (.server t) else none := by
  unfold run
  split
  · rename_i hs
    rw [if_pos hs]
  · rename_i hc
    exact absurd hc h
  · rename_i hs _
    rw [if_neg hs]

/-- A rejected option names no role. -/
theorem Rejected.not_server {opt : Opt} (h : Rejected opt) : opt.flag ≠ 's' := by
  obtain ⟨_, _, ⟨h, _⟩ | ⟨h, _⟩⟩ := h <;> rw [h] <;> decide

variable {posixlyCorrect : Bool} {node : Option Nat} {argv : List CString}
  {out : Int32 × IperfTest}

/-- `main` runs what the options left behind, whatever was returned. -/
theorem main_of_parse
    (hout : iperfParseArguments ops posixlyCorrect (defaultTest node) argv = .ok out) :
    main ops posixlyCorrect true node argv = .ok (run out.2) := by
  rw [main, if_pos rfl, hout]
  rfl

/-- A command line that was accepted whole names a server. -/
theorem accepted_of_whole (hclean : Clean (options posixlyCorrect argv))
    (hserver : SetsServer (options posixlyCorrect argv))
    (hout : iperfParseArguments ops posixlyCorrect (defaultTest node) argv
      = .ok (0, setOptions ops (defaultTest node) (options posixlyCorrect argv))) :
    Accepted ops posixlyCorrect node argv
      (setOptions ops (defaultTest node) (options posixlyCorrect argv)) where
  returned := hout
  whole := rfl
  role := Or.inl ((setOptions_server ops node _).mpr hserver)
  server := fun _ _ _ => (setOptions_server ops node _).mpr hserver
  client := fun opt hopt hc => absurd (Or.inl hc) (hclean opt hopt)
  checked := (checked_defaultTest node).setOptions ops hclean
  noneRejected := fun opt hopt hr => hclean opt hopt (Or.inr hr)

/-- What a server runs with after -1 is not accepted. -/
theorem not_accepted_of_run {t : IperfTest} (hrole : t.role = 's')
    (hout : iperfParseArguments ops posixlyCorrect (defaultTest node) argv = .ok (-1, t)) :
    ¬ ∀ entered, main ops posixlyCorrect true node argv = .ok (some entered) →
        Accepted ops posixlyCorrect node argv entered.test := by
  intro h
  have hrun : run t = some (.server t) := by simp [run, hrole]
  have haccepted := h (.server t) (by rw [main_of_parse ops hout, hrun])
  have hzero := hout.symm.trans haccepted.returned
  simp at hzero

/-- **A rejected command line is never run** exactly when no option stops the
loop behind a -s. -/
theorem rejected_never_run_iff (posixlyCorrect allocated : Bool) (node : Option Nat)
    (argv : List CString) :
    (∀ entered, main ops posixlyCorrect allocated node argv = .ok (some entered) →
        Accepted ops posixlyCorrect node argv entered.test) ↔
      ¬ (allocated = true ∧ StopsServer (options posixlyCorrect argv)) := by
  cases allocated with
  | false => exact iff_of_true (fun _ h => by cases h) (fun h => by cases h.1)
  | true =>
      have hends := parseLoop_ends ops (unselected_defaultTest node)
        (options_hasArgument posixlyCorrect argv)
      have hunselected := fun opts => (unselected_defaultTest node).setOptions ops opts
      have hidle : ∀ {t}, Unselected t → t.role ≠ 's' → run t = none := fun h hs => by
        rw [run_eq h.role, if_neg hs]
      rw [and_iff_right rfl]
      generalize hout : parseLoop ops (options posixlyCorrect argv) (defaultTest node) = out
        at hends
      cases hends with
      | whole hclean =>
          refine iff_of_true (fun entered h => ?_) (fun h => ?_)
          · rw [main_of_parse ops hout] at h
            by_cases hs : SetsServer (options posixlyCorrect argv)
            · have hrole := (setOptions_server ops node _).mpr hs
              rw [if_pos hrole] at hout
              rw [run_eq (hunselected _).role, if_pos hrole] at h
              cases h
              exact accepted_of_whole ops hclean hs hout
            · have hrole := fun hrole => hs ((setOptions_server ops node _).mp hrole)
              rw [hidle (hunselected _) hrole] at h
              cases h
          · rw [StopsServer, find_stops_clean hclean] at h
            cases h.1
      | rejected before after opt hopts hclean hc hr =>
          rw [hopts, stopsServer_append hclean (Or.inr hr)]
          have hrole : (setOption ops (setOptions ops (defaultTest node) before) opt).role = 's' ↔
              SetsServer before := by
            rw [setOption_role, if_neg hr.not_server]
            exact setOptions_server ops node before
          by_cases hs : SetsServer before
          · exact iff_of_false (not_accepted_of_run ops (hrole.mpr hs) hout) (not_not.mpr hs)
          · refine iff_of_true (fun entered h => ?_) hs
            rw [main_of_parse ops hout,
              hidle ((hunselected before).setOption ops opt) (fun h => hs (hrole.mp h))] at h
            cases h
      | client before after opt hopts hclean hc hserver =>
          rw [hopts, stopsServer_append hclean (Or.inl hc)]
          have hs := (setOptions_server ops node before).mp hserver
          exact iff_of_false (not_accepted_of_run ops hserver hout) (not_not.mpr hs)
      | faulted before after opt hopts hclean hc hserver =>
          rw [hopts, stopsServer_append hclean (Or.inl hc)]
          refine iff_of_true (fun entered h => ?_)
            (fun hs => hserver ((setOptions_server ops node before).mpr hs))
          rw [main, if_pos rfl, iperfParseArguments, hout] at h
          cases h

/-- `iperf -s -M 9217` is rejected and then run. -/
theorem rejected_server_run :
    iperfParseArguments DoubleOps.integral false (defaultTest (some 0))
        [lit "iperf", lit "-s", lit "-M", lit "9217"] =
      .ok (-1, setOptions DoubleOps.integral (defaultTest (some 0))
        [⟨'s', none⟩, ⟨'M', some (lit "9217")⟩]) ∧
    ¬ ∀ entered, main DoubleOps.integral false true (some 0)
          [lit "iperf", lit "-s", lit "-M", lit "9217"] = .ok (some entered) →
        Accepted DoubleOps.integral false (some 0) [lit "iperf", lit "-s", lit "-M", lit "9217"]
          entered.test := by
  have hout : iperfParseArguments DoubleOps.integral false (defaultTest (some 0))
        [lit "iperf", lit "-s", lit "-M", lit "9217"] =
      .ok (-1, setOptions DoubleOps.integral (defaultTest (some 0))
        [⟨'s', none⟩, ⟨'M', some (lit "9217")⟩]) := by decide +kernel
  exact ⟨hout, not_accepted_of_run _ (by decide +kernel) hout⟩

end KernelTestkit.Cli
