/-
KernelTestkit.Cli.OrderTheorems — the order of the options.

From a test with a protocol an option is one of two things: `Refused`, which
makes `iperf_parse_arguments` return -1 whatever comes later, or a change of
the test, `configured`. The changes are written field by field: every field
has one letter that sets it, except the direction and the retransmit flag,
which follow the role and the protocol.

The rate is the one field an option does not always determine: of an argument
of -b without a number it is what the stack holds in that round. The loop is
therefore looked at with the rate erased.

* `parseLoop_eq` — the loop is `configureAll`, round by round.
* `erase_configureAll` — apart from the rate it is a fold of `configure`.
* `configure_comm` — two options with different letters commute.
* `accepts_iff` — which options are accepted.
* `option_order_iff` — so the order of the options does not matter, as long
  as those with one letter keep theirs, exactly when they are refused or the
  last -b has a number.
-/
import KernelTestkit.Cli.RateTheorems
import KernelTestkit.Lib.Reordered

namespace KernelTestkit.Cli

open KernelTestkit.Lib
open KernelTestkit.Net
open KernelTestkit.Api

/-! ## One option -/

/-- The argument of an option with this letter. -/
def argumentOf (flag : Char) (opt : Opt) : Option CString :=
  if opt.flag = flag then opt.optarg else none

/-- The role an option names. -/
def roleOf (opt : Opt) : Option Char :=
  if opt.flag = 's' then some 's' else if opt.flag = 'c' then some 'c' else none

/-- The protocol an option selects. -/
def udpOf (t : IperfTest) (opt : Opt) : Option Protocol :=
  if opt.flag = 'u' then t.protocols.find? (·.id = Pudp) else none

/-- An option that makes `iperf_parse_arguments` return -1. -/
def Refused (t : IperfTest) (opt : Opt) : Prop :=
  Rejected opt ∨ opt.flag = 's' ∧ t.role = 'c' ∨ opt.flag = 'c' ∧ t.role = 's'

instance (t : IperfTest) (opt : Opt) : Decidable (Refused t opt) :=
  inferInstanceAs (Decidable (_ ∨ _))

variable {double : Type} (ops : DoubleOps double) (rate : CString → UInt64)

/-- The direction flag an option leaves. -/
def senderAfter (t : IperfTest) (opt : Opt) : Int32 :=
  ((roleOf opt).map (roleSender t)).getD t.sender

/-- What an option that is not refused makes of a test, where -b sets `rate` of
its argument. -/
def configured (t : IperfTest) (opt : Opt) : IperfTest :=
  { t with
    serverPort := ((argumentOf 'p' opt).map atoi).getD t.serverPort
    verbose := if opt.flag = 'V' then 1 else t.verbose
    role := (roleOf opt).getD t.role
    serverHostname := (argumentOf 'c' opt).or t.serverHostname
    duration := ((argumentOf 't' opt).map atoi).getD t.duration
    bindPort := ((argumentOf OPT_CLIENT_PORT opt).map atoi).getD t.bindPort
    settings := { t.settings with
      unitFormat := ((argumentOf 'f' opt).map firstChar).getD t.settings.unitFormat
      rate := ((argumentOf 'b' opt).map rate).getD t.settings.rate
      mss := ((argumentOf 'M' opt).map atoi).getD t.settings.mss }
    sender := senderAfter t opt
    protocol := (udpOf t opt).or t.protocol
    senderHasRetransmits :=
      if (roleOf opt).isSome ∨ (udpOf t opt).isSome then
        retransmits { t with sender := senderAfter t opt, protocol := (udpOf t opt).or t.protocol }
      else t.senderHasRetransmits }

/-- Only a role can be refused for the role a test has. -/
theorem refused_iff_rejected {t : IperfTest} {opt : Opt} (h : roleOf opt = none) :
    Refused t opt ↔ Rejected opt := by
  have hs : opt.flag ≠ 's' := by
    intro hs
    simp [roleOf, hs] at h
  have hc : opt.flag ≠ 'c' := by
    intro hc
    simp [roleOf, hc] at h
  simp [Refused, hs, hc]

theorem not_refused {t : IperfTest} {flag : Char} (hf : flag ≠ 'f') (hM : flag ≠ 'M')
    (optarg : Option CString) (h : roleOf ⟨flag, optarg⟩ = none) : ¬ Refused t ⟨flag, optarg⟩ := by
  rw [refused_iff_rejected h]
  exact not_rejected hf hM optarg

theorem refused_server_iff {t : IperfTest} {optarg : Option CString} :
    Refused t ⟨'s', optarg⟩ ↔ t.role = 'c' := by
  simp [Refused, Rejected]

theorem refused_client_iff {t : IperfTest} {optarg : Option CString} :
    Refused t ⟨'c', optarg⟩ ↔ t.role = 's' := by
  simp [Refused, Rejected]

/-- A role that is set, with a protocol to look at. -/
theorem iperfSetTestRole_selected {t : IperfTest} (h : t.protocol ≠ none) (role : Char) :
    iperfSetTestRole t role = .ok { t with
      role := role
      sender := roleSender t role
      senderHasRetransmits := retransmits { t with sender := roleSender t role } } :=
  iperfSetTestRole_ok.mpr ⟨fun _ => h, rfl⟩

/-- **One option**, from a test with a protocol. -/
theorem parseOption_selected {opt : Opt} {t : IperfTest} (h : t.protocol ≠ none)
    (harg : HasArgument opt) :
    ∃ t', parseOption ops opt t = .ok (if Refused t opt then some (-1) else none, t') ∧
      (¬ Refused t opt → t' = configured (rateOf ops) t opt) := by
  obtain ⟨flag, optarg⟩ := opt
  have hargument : flag ∈ argumentFlags → ∃ s, optarg = some s := harg
  unfold parseOption
  dsimp only
  split
  -- the options with an argument that is not checked
  case h_1 | h_7 | h_8 | h_9 =>
    obtain ⟨s, rfl⟩ := hargument (by decide)
    rw [if_neg (not_refused (by decide) (by decide) _ rfl)]
    exact ⟨_, rfl, fun _ => rfl⟩
  -- 'f'
  case h_2 =>
    obtain ⟨s, rfl⟩ := hargument (by decide)
    have hrefused : Refused t ⟨'f', some s⟩ ↔ firstChar s ∉ unitFormats :=
      (refused_iff_rejected rfl).trans (rejected_format_iff s)
    by_cases hs : firstChar s ∈ unitFormats
    · rw [if_neg fun hr => hrefused.mp hr hs]
      exact ⟨_, if_pos hs, fun _ => rfl⟩
    · rw [if_pos (hrefused.mpr hs)]
      exact ⟨_, if_neg hs, fun hgoes => absurd (hrefused.mpr hs) hgoes⟩
  -- 'V'
  case h_3 =>
    rw [if_neg (not_refused (by decide) (by decide) _ rfl)]
    exact ⟨_, rfl, fun _ => rfl⟩
  -- 's'
  case h_4 =>
    by_cases hc : t.role = 'c'
    · rw [if_pos hc, if_pos (refused_server_iff.mpr hc)]
      exact ⟨_, rfl, fun hgoes => absurd (refused_server_iff.mpr hc) hgoes⟩
    · rw [if_neg hc, if_neg (mt refused_server_iff.mp hc), iperfSetTestRole_selected h]
      exact ⟨_, rfl, fun _ => rfl⟩
  -- 'c'
  case h_5 =>
    obtain ⟨s, rfl⟩ := hargument (by decide)
    by_cases hs : t.role = 's'
    · rw [if_pos hs, if_pos (refused_client_iff.mpr hs)]
      exact ⟨_, rfl, fun hgoes => absurd (refused_client_iff.mpr hs) hgoes⟩
    · rw [if_neg hs, if_neg (mt refused_client_iff.mp hs), iperfSetTestRole_selected h]
      exact ⟨_, rfl, fun _ => rfl⟩
  -- 'u'
  case h_6 =>
    rw [if_neg (not_refused (by decide) (by decide) _ rfl)]
    obtain ⟨⟨r, t'⟩, hset⟩ := setProtocol_total t Pudp
    rw [hset]
    refine ⟨t', rfl, fun _ => ?_⟩
    rcases setProtocol_ok hset with ⟨protocol, hfind, _, rfl⟩ | ⟨hfind, _, hsame⟩
    · have hudp : udpOf t ⟨'u', optarg⟩ = some protocol := hfind
      simp only [configured, hudp]
      rfl
    · have hudp : udpOf t ⟨'u', optarg⟩ = none := hfind
      rw [hsame]
      simp only [configured, hudp]
      rfl
  -- 'M'
  case h_10 =>
    obtain ⟨s, rfl⟩ := hargument (by decide)
    have hrefused : Refused t ⟨'M', some s⟩ ↔ MAX_MSS < atoi s :=
      (refused_iff_rejected rfl).trans (rejected_mss_iff s)
    by_cases hs : MAX_MSS < atoi s
    · rw [if_pos (hrefused.mpr hs)]
      exact ⟨_, if_pos hs, fun hgoes => absurd (hrefused.mpr hs) hgoes⟩
    · rw [if_neg (mt hrefused.mp hs)]
      exact ⟨_, if_neg hs, fun _ => rfl⟩
  case h_11 hp hf hV hs hc hu hb ht hport hM =>
    have hrole : roleOf ⟨flag, optarg⟩ = none := (if_neg hs).trans (if_neg hc)
    rw [if_neg (not_refused hf hM _ hrole)]
    refine ⟨t, rfl, fun _ => ?_⟩
    have hsender : senderAfter t ⟨flag, optarg⟩ = t.sender := by simp [senderAfter, hrole]
    have hudp : udpOf t ⟨flag, optarg⟩ = none := if_neg hu
    have hnone : ∀ {letter}, ¬ flag = letter → argumentOf letter ⟨flag, optarg⟩ = none :=
      fun hne => if_neg hne
    simp only [configured, hrole, hsender, hudp, hnone hp, hnone hf, hnone hc, hnone hb, hnone ht,
      hnone hport, hnone hM, OPT_CLIENT_PORT, if_neg hV]
    rfl

/-! ## Two options -/

section Two

variable {t : IperfTest} {a b : Opt}

theorem argumentOf_or (hne : a.flag ≠ b.flag) (flag : Char) :
    argumentOf flag a = none ∨ argumentOf flag b = none := by
  by_cases ha : a.flag = flag
  · exact Or.inr (if_neg fun hb => hne (ha.trans hb.symm))
  · exact Or.inl (if_neg ha)

/-- Two values, one of them absent, are put over a third in any order. -/
theorem getD_comm {α : Type} {x y : Option α} (h : x = none ∨ y = none) (z : α) :
    x.getD (y.getD z) = y.getD (x.getD z) := by
  rcases h with rfl | rfl
  · rfl
  · rfl

theorem or_comm_of_none {α : Type} {x y : Option α} (h : x = none ∨ y = none) (z : Option α) :
    x.or (y.or z) = y.or (x.or z) := by
  rcases h with rfl | rfl
  · simp
  · simp

/-- The fields that options set to their argument. -/
theorem argument_comm (hne : a.flag ≠ b.flag) {β : Type} (flag : Char) (f : CString → β) (z : β) :
    ((argumentOf flag b).map f).getD (((argumentOf flag a).map f).getD z)
      = ((argumentOf flag a).map f).getD (((argumentOf flag b).map f).getD z) := by
  refine getD_comm ?_ z
  rcases argumentOf_or hne flag with h | h
  · exact Or.inr (by rw [h]; rfl)
  · exact Or.inl (by rw [h]; rfl)

theorem udpOf_or (hne : a.flag ≠ b.flag) : udpOf t b = none ∨ udpOf t a = none := by
  by_cases ha : a.flag = 'u'
  · exact Or.inl (if_neg fun hb => hne (ha.trans hb.symm))
  · exact Or.inr (if_neg ha)

/-- The direction after two options, one of which names no role. -/
theorem senderAfter_configured (ha : roleOf a = none) :
    senderAfter (configured rate t a) b = senderAfter t b ∧
      senderAfter (configured rate t b) a = senderAfter t b := by
  have hsender : (configured rate t a).sender = t.sender := by simp [configured, senderAfter, ha]
  constructor
  · have hrole : roleSender (configured rate t a) = roleSender t := by
      funext role
      simp only [roleSender, hsender]
      rfl
    rw [senderAfter, hrole, hsender, senderAfter]
  · simp only [senderAfter, ha]
    rfl

/-- The retransmit flag after two options, one of which names no role. -/
theorem retransmits_comm (hne : a.flag ≠ b.flag) (ha : roleOf a = none) :
    (configured rate (configured rate t a) b).senderHasRetransmits
      = (configured rate (configured rate t b) a).senderHasRetransmits := by
  obtain ⟨hab, hba⟩ := senderAfter_configured rate (t := t) (b := b) ha
  have hudp : ∀ x y, udpOf (configured rate t x) y = udpOf t y := fun _ _ => rfl
  have hflag : ∀ s x, (configured rate s x).senderHasRetransmits =
      if (roleOf x).isSome ∨ (udpOf s x).isSome then
        retransmits
          { s with sender := senderAfter s x, protocol := (udpOf s x).or s.protocol }
      else s.senderHasRetransmits := fun _ _ => rfl
  rw [hflag (configured rate t a), hflag (configured rate t b), hflag t a, hflag t b, hab, hba,
    hudp, hudp, ha]
  cases hua : udpOf t a with
  | none =>
      -- the option `a` leaves the flag alone
      simp [configured, retransmits, hua]
  | some udp =>
      -- then `b` selects no protocol, and if it names no role either, no direction
      have hub : udpOf t b = none := (udpOf_or hne).resolve_right (by simp [hua])
      cases hrole : roleOf b with
      | none => simp [configured, retransmits, hub, senderAfter, ha, hrole]
      | some role => simp [configured, retransmits, hua, hub]

attribute [ext] IperfTest IperfSettings

/-- Two options commute when one of them names no role. -/
theorem configured_comm (hne : a.flag ≠ b.flag) (ha : roleOf a = none) :
    configured rate (configured rate t a) b = configured rate (configured rate t b) a := by
  obtain ⟨hab, hba⟩ := senderAfter_configured rate (t := t) (b := b) ha
  apply IperfTest.ext
  case senderHasRetransmits => exact retransmits_comm rate hne ha
  case sender => exact hab.trans hba.symm
  case role => exact getD_comm (Or.inr ha) t.role
  case protocol => exact or_comm_of_none (udpOf_or hne) t.protocol
  case serverHostname => exact or_comm_of_none (argumentOf_or hne 'c').symm t.serverHostname
  case settings =>
    apply IperfSettings.ext
    case unitFormat => exact argument_comm hne 'f' firstChar _
    case rate => exact argument_comm hne 'b' _ _
    case mss => exact argument_comm hne 'M' atoi _
    all_goals rfl
  case serverPort => exact argument_comm hne 'p' atoi _
  case duration => exact argument_comm hne 't' atoi _
  case bindPort => exact argument_comm hne OPT_CLIENT_PORT atoi _
  case verbose =>
    by_cases hV : a.flag = 'V'
    · simp [configured, hV]
    · simp [configured, hV]
  all_goals rfl

/-- An option without a role changes nothing of what is refused. -/
theorem refused_configured_iff (ha : roleOf a = none) :
    Refused (configured rate t a) b ↔ Refused t b := by
  have hrole : (configured rate t a).role = t.role := by simp [configured, ha]
  simp only [Refused, hrole]

/-- What an option does to the test, if there still is one: `none` when
`iperf_parse_arguments` has returned -1. -/
def configure (s : Option IperfTest) (opt : Opt) : Option IperfTest :=
  s.bind fun t => if Refused t opt then none else some (configured rate t opt)

theorem configure_of_refused (h : Refused t a) : configure rate (some t) a = none := if_pos h

theorem configure_of_goes (h : ¬ Refused t a) :
    configure rate (some t) a = some (configured rate t a) := if_neg h

/-- A role that is set refuses the other. -/
theorem configure_other_role {role other : Char} (ha : roleOf a = some role)
    (hb : roleOf b = some other) (hne : role ≠ other) :
    configure rate (configure rate (some t) a) b = none := by
  by_cases hr : Refused t a
  · rw [configure_of_refused rate hr]
    rfl
  · rw [configure_of_goes rate hr]
    refine configure_of_refused rate (Or.inr ?_)
    have hrole : (configured rate t a).role = role := by simp [configured, ha]
    rw [hrole]
    unfold roleOf at ha hb
    grind

/-- Two options commute in a run when one of them names no role. -/
theorem configure_comm_of_no_role (hne : a.flag ≠ b.flag) (ha : roleOf a = none) :
    configure rate (configure rate (some t) a) b
      = configure rate (configure rate (some t) b) a := by
  have hab : Refused (configured rate t a) b ↔ Refused t b := refused_configured_iff rate ha
  have hba : Refused (configured rate t b) a ↔ Refused t a :=
    (refused_iff_rejected ha).trans (refused_iff_rejected ha).symm
  by_cases hra : Refused t a
  · rw [configure_of_refused rate hra]
    by_cases hrb : Refused t b
    · rw [configure_of_refused rate hrb]
      rfl
    · rw [configure_of_goes rate hrb, configure_of_refused rate (hba.mpr hra)]
      rfl
  · rw [configure_of_goes rate hra]
    by_cases hrb : Refused t b
    · rw [configure_of_refused rate hrb, configure_of_refused rate (hab.mpr hrb)]
      rfl
    · rw [configure_of_goes rate hrb, configure_of_goes rate (mt hab.mp hrb),
        configure_of_goes rate (mt hba.mp hra), configured_comm rate hne ha]

/-- **Two options with different letters** commute. -/
theorem configure_comm (s : Option IperfTest) (a b : Opt) (hne : a.flag ≠ b.flag) :
    configure rate (configure rate s a) b = configure rate (configure rate s b) a := by
  cases s with
  | none => rfl
  | some t =>
      cases ha : roleOf a with
      | none => exact configure_comm_of_no_role rate hne ha
      | some role =>
          cases hb : roleOf b with
          | none => exact (configure_comm_of_no_role rate hne.symm hb).symm
          | some other =>
              have hroles : role ≠ other := by
                rintro rfl
                exact hne (by unfold roleOf at ha hb; grind)
              rw [configure_other_role rate ha hb hroles,
                configure_other_role rate hb ha hroles.symm]

end Two

/-! ## The loop -/

/-- The result of `iperf_parse_arguments` for a test that came through the
options. -/
def finished (t : IperfTest) : Int32 := if t.role ≠ 'c' ∧ t.role ≠ 's' then -1 else 0

/-- What the options do to a test, round by round. -/
def configureAll {double : Type} :
    DoubleOps double → Option IperfTest → List Opt → Option IperfTest
  | _, s, [] => s
  | ops, s, opt :: opts => configureAll ops.next (configure (rateOf ops) s opt) opts

theorem configureAll_none (opts : List Opt) : configureAll ops none opts = none := by
  induction opts generalizing ops with
  | nil => rfl
  | cons opt opts ih => exact ih ops.next

/-- A protocol that is selected stays, or another is. -/
theorem protocol_configured {t : IperfTest} (h : t.protocol ≠ none) (opt : Opt) :
    (configured rate t opt).protocol ≠ none :=
  fun hnone => h (Option.or_eq_none_iff.mp hnone).2

/-- **The option loop**: -1 when an option is refused, and otherwise what the
options have configured. -/
theorem parseLoop_eq {opts : List Opt} {t : IperfTest} (h : t.protocol ≠ none)
    (hargs : ∀ opt ∈ opts, HasArgument opt) :
    (configureAll ops (some t) opts = none → ∃ t', parseLoop ops opts t = .ok (-1, t')) ∧
    ∀ t₁, configureAll ops (some t) opts = some t₁ →
      parseLoop ops opts t = .ok (finished t₁, t₁) := by
  induction opts generalizing ops t with
  | nil =>
      refine ⟨fun hnone => absurd hnone (Option.some_ne_none t), ?_⟩
      intro t₁ hsome
      obtain rfl := Option.some.inj hsome
      unfold finished
      rw [parseLoop]
      split
      · rfl
      · rfl
  | cons opt opts ih =>
      obtain ⟨harg, hargs⟩ := List.forall_mem_cons.mp hargs
      obtain ⟨t', hparse, hset⟩ := parseOption_selected ops h harg
      rw [configureAll, parseLoop, hparse]
      by_cases hr : Refused t opt
      · rw [configure_of_refused _ hr, configureAll_none, if_pos hr]
        exact ⟨fun _ => ⟨t', rfl⟩, fun t₁ hsome => absurd hsome.symm (Option.some_ne_none t₁)⟩
      · obtain rfl := hset hr
        rw [configure_of_goes _ hr, if_neg hr]
        exact ih ops.next (protocol_configured _ h opt) hargs

/-! ## Apart from the rate -/

/-- The test without its rate. -/
def eraseRate (t : IperfTest) : IperfTest := { t with settings := { t.settings with rate := 0 } }

theorem eq_of_eraseRate {t₁ t₂ : IperfTest} (h : eraseRate t₁ = eraseRate t₂)
    (hrate : t₁.settings.rate = t₂.settings.rate) : t₁ = t₂ := by
  have hrest : ∀ t, t = { eraseRate t with
      settings := { (eraseRate t).settings with rate := t.settings.rate } } := fun _ => rfl
  rw [hrest t₁, hrest t₂, h, hrate]

theorem erase_configured (t : IperfTest) (opt : Opt) :
    eraseRate (configured rate t opt) = configured (fun _ => 0) (eraseRate t) opt := by
  cases hb : argumentOf 'b' opt with
  | none =>
      simp only [eraseRate, configured, hb]
      rfl
  | some s =>
      simp only [eraseRate, configured, hb]
      rfl

theorem erase_configure (s : Option IperfTest) (opt : Opt) :
    (configure rate s opt).map eraseRate = configure (fun _ => 0) (s.map eraseRate) opt := by
  cases s with
  | none => rfl
  | some t =>
      have hsame : Refused (eraseRate t) opt ↔ Refused t opt := Iff.rfl
      by_cases hr : Refused t opt
      · rw [configure_of_refused rate hr]
        exact (configure_of_refused _ (hsame.mpr hr)).symm
      · rw [configure_of_goes rate hr, Option.map_some, erase_configured]
        exact (configure_of_goes _ (mt hsame.mp hr)).symm

/-- **The loop without the rate** does not depend on the stack. -/
theorem erase_configureAll (s : Option IperfTest) (opts : List Opt) :
    (configureAll ops s opts).map eraseRate
      = opts.foldl (configure fun _ => 0) (s.map eraseRate) := by
  induction opts generalizing ops s with
  | nil => rfl
  | cons opt opts ih => rw [configureAll, ih, erase_configure, List.foldl_cons]

/-- **The rate** the loop leaves. -/
theorem rate_configureAll {t t' : IperfTest} {opts : List Opt}
    (h : configureAll ops (some t) opts = some t') :
    t'.settings.rate = (lastRate ops opts).getD t.settings.rate := by
  induction opts generalizing ops t with
  | nil =>
      obtain rfl := Option.some.inj h
      rfl
  | cons opt opts ih =>
      rw [configureAll] at h
      by_cases hr : Refused t opt
      · rw [configure_of_refused _ hr, configureAll_none] at h
        cases h
      · rw [configure_of_goes _ hr] at h
        rw [ih ops.next h, lastRate, Option.getD_or]
        simp only [configured, argumentOf]
        by_cases hb : opt.flag = 'b'
        · rw [if_pos hb, if_pos hb]
        · rw [if_neg hb, if_neg hb]
          rfl

/-! ## What is accepted -/

/-- The roles of a test and of the options that follow. -/
def rolesNamed (t : IperfTest) (opts : List Opt) : List Char := t.role :: opts.filterMap roleOf

/-- The options are accepted: none has a value that is rejected, and together
with the test they name one of the two roles and not the other. -/
structure Accepts (t : IperfTest) (opts : List Opt) : Prop where
  noneRejected : ∀ opt ∈ opts, ¬ Rejected opt
  oneRole : 'c' ∈ rolesNamed t opts ↔ 's' ∉ rolesNamed t opts

theorem roleOf_eq_some {opt : Opt} {role : Char} (h : roleOf opt = some role) :
    role = 's' ∧ opt.flag = 's' ∨ role = 'c' ∧ opt.flag = 'c' := by
  unfold roleOf at h
  grind

theorem not_accepts_of_refused {t : IperfTest} {opt : Opt} {opts : List Opt}
    (h : Refused t opt) : ¬ Accepts t (opt :: opts) := by
  rintro ⟨hnone, hrole⟩
  rcases h with hr | ⟨hs, hc⟩ | ⟨hc, hs⟩
  · exact hnone opt List.mem_cons_self hr
  · have hopt : roleOf opt = some 's' := by rw [roleOf, if_pos hs]
    simp [rolesNamed, hc, hopt] at hrole
  · have hopt : roleOf opt = some 'c' := by
      rw [roleOf, if_neg (by rw [hc]; decide), if_pos hc]
    simp [rolesNamed, hs, hopt] at hrole

theorem accepts_cons {t : IperfTest} {opt : Opt} (h : ¬ Refused t opt) (opts : List Opt) :
    Accepts (configured rate t opt) opts ↔ Accepts t (opt :: opts) := by
  simp only [Refused, not_or, not_and] at h
  obtain ⟨hrejected, hserver, hclient⟩ := h
  have hroles : ∀ role, role = 'c' ∨ role = 's' →
      (role ∈ rolesNamed (configured rate t opt) opts ↔ role ∈ rolesNamed t (opt :: opts)) := by
    intro role hrole
    cases hopt : roleOf opt with
    | none => simp [rolesNamed, configured, hopt]
    | some other =>
        have hflag := roleOf_eq_some hopt
        simp only [rolesNamed, configured, hopt, Option.getD_some, List.filterMap_cons,
          List.mem_cons]
        refine ⟨Or.inr, ?_⟩
        rintro (rfl | hmem)
        · -- the option names the role the test has
          rcases hflag with ⟨rfl, hs⟩ | ⟨rfl, hc⟩
          · exact Or.inl (hrole.resolve_left (hserver hs))
          · exact Or.inl (hrole.resolve_right (hclient hc))
        · exact hmem
  have hone := iff_congr (hroles 'c' (Or.inl rfl)) (not_congr (hroles 's' (Or.inr rfl)))
  constructor
  · intro haccepts
    exact ⟨List.forall_mem_cons.mpr ⟨hrejected, haccepts.noneRejected⟩, hone.mp haccepts.oneRole⟩
  · intro haccepts
    exact ⟨(List.forall_mem_cons.mp haccepts.noneRejected).2, hone.mpr haccepts.oneRole⟩

/-- **Which options are accepted.** -/
theorem accepts_iff (t : IperfTest) (opts : List Opt) :
    (∃ t', configureAll ops (some t) opts = some t' ∧ finished t' = 0) ↔ Accepts t opts := by
  induction opts generalizing ops t with
  | nil =>
      have hfinished : finished t = 0 ↔ (t.role = 'c' ∨ t.role = 's') := by
        unfold finished
        split
        · rename_i hneither
          exact iff_of_false (by decide) (fun h => h.elim hneither.1 hneither.2)
        · rename_i hone
          exact iff_of_true rfl (by tauto)
      constructor
      · rintro ⟨t', hsome, hzero⟩
        obtain rfl := Option.some.inj hsome
        refine ⟨fun _ hopt => absurd hopt List.not_mem_nil, ?_⟩
        rcases hfinished.mp hzero with hrole | hrole <;> simp [rolesNamed, hrole]
      · rintro ⟨_, hrole⟩
        refine ⟨t, rfl, hfinished.mpr ?_⟩
        simp only [rolesNamed, List.filterMap_nil, List.mem_singleton] at hrole
        tauto
  | cons opt opts ih =>
      rw [configureAll]
      by_cases hr : Refused t opt
      · rw [configure_of_refused _ hr, configureAll_none]
        exact iff_of_false (fun ⟨_, h, _⟩ => by cases h) (not_accepts_of_refused hr)
      · rw [configure_of_goes _ hr, ih ops.next, accepts_cons _ hr]

/-! ## The order -/

/-- `iperf_parse_arguments` returns -1 on both, or 0 on both with the same
test. -/
def SameEnd (r₁ r₂ : Except Fault (Int32 × IperfTest)) : Prop :=
  (∃ t₁ t₂, r₁ = .ok (-1, t₁) ∧ r₂ = .ok (-1, t₂)) ∨ ∃ t', r₁ = .ok (0, t') ∧ r₂ = .ok (0, t')

theorem finished_eq (t : IperfTest) : finished t = 0 ∨ finished t = -1 := by
  unfold finished
  split
  · exact Or.inr rfl
  · exact Or.inl rfl

/-- **Two orders**, with any garbage in either run: they end the same way if the
rate, where it counts, is the same. -/
theorem sameEnd_of_rates {ops₁ ops₂ : DoubleOps double} {opts₁ opts₂ : List Opt} {t : IperfTest}
    (h : t.protocol ≠ none) (hargs : ∀ opt ∈ opts₁, HasArgument opt)
    (hreordered : Reordered Opt.flag opts₁ opts₂)
    (hrates : Accepts t opts₁ → lastRate ops₁ opts₁ = lastRate ops₂ opts₂) :
    SameEnd (parseLoop ops₁ opts₁ t) (parseLoop ops₂ opts₂ t) := by
  have hargs₂ : ∀ opt ∈ opts₂, HasArgument opt := fun opt hopt =>
    hargs opt (hreordered.perm.mem_iff.mpr hopt)
  obtain ⟨hnone₁, hsome₁⟩ := parseLoop_eq ops₁ h hargs
  obtain ⟨hnone₂, hsome₂⟩ := parseLoop_eq ops₂ h hargs₂
  have herase := erase_configureAll ops₁ (some t) opts₁
  rw [hreordered.foldl (configure_comm _), ← erase_configureAll ops₂] at herase
  cases hend : configureAll ops₁ (some t) opts₁ with
  | none =>
      rw [hend, Option.map_none, eq_comm, Option.map_eq_none_iff] at herase
      obtain ⟨t₁, ht₁⟩ := hnone₁ hend
      obtain ⟨t₂, ht₂⟩ := hnone₂ herase
      exact Or.inl ⟨t₁, t₂, ht₁, ht₂⟩
  | some t₁ =>
      rw [hend, Option.map_some, eq_comm, Option.map_eq_some_iff] at herase
      obtain ⟨t₂, hend₂, hsame⟩ := herase
      have ht₁ := hsome₁ t₁ hend
      have ht₂ := hsome₂ t₂ hend₂
      have hrole : finished (eraseRate t₂) = finished (eraseRate t₁) := congrArg finished hsame
      change finished t₂ = finished t₁ at hrole
      rcases finished_eq t₁ with hzero | hneg
      · have hrate : t₂.settings.rate = t₁.settings.rate := by
          rw [rate_configureAll ops₁ hend, rate_configureAll ops₂ hend₂,
            hrates ((accepts_iff ops₁ t opts₁).mp ⟨t₁, hend, hzero⟩)]
        obtain rfl := eq_of_eraseRate hsame hrate
        rw [hzero] at ht₁ ht₂
        exact Or.inr ⟨t₂, ht₁, ht₂⟩
      · rw [hneg] at hrole ht₁
        rw [hrole] at ht₂
        exact Or.inl ⟨t₁, t₂, ht₁, ht₂⟩

/-- The last argument depends on the options with its letter only. -/
theorem lastArgument_filter (flag : Char) (opts : List Opt) :
    lastArgument flag (opts.filter fun opt => opt.flag = flag) = lastArgument flag opts := by
  induction opts with
  | nil => rfl
  | cons opt opts ih =>
      by_cases hflag : opt.flag = flag
      · rw [List.filter_cons_of_pos (by simpa using hflag), lastArgument, lastArgument, ih]
      · rw [List.filter_cons_of_neg (by simpa using hflag), lastArgument, ih, if_neg hflag,
          Option.or_none]

/-- The argument begins, behind blanks, with a number as `sscanf` reads it. -/
def BeginsWithNumber (s : CString) : Prop :=
  ∃ v rest, scanFloat (s.bytes.dropWhile isspace) = some (v, rest)

/-- The rate of a number does not depend on the stack. -/
theorem rateOf_of_number {s : CString} (h : BeginsWithNumber s) (c : Indeterminate)
    (n : Nat → FloatValue) : rateOf ((rateOps c).withStack n) s = rateOf (rateOps c) s := by
  obtain ⟨v, rest, hscan⟩ := h
  have hset : sscanfRate s = (some v, rest.head?) := by rw [sscanfRate, hscan]
  simp only [rateOf, unitAtofRate, DoubleOps.withStack, rateOps, hset]
  rfl

/-- The rate of anything else is what the stack holds. -/
theorem rateOf_of_no_number {s : CString} (h : ¬ BeginsWithNumber s) (c : Indeterminate) :
    rateOf (rateOps c) s = doubleToUInt64 c (c.uninitialised 0) := by
  have hscan : scanFloat (s.bytes.dropWhile isspace) = none := by
    rw [Option.eq_none_iff_forall_not_mem]
    rintro ⟨v, rest⟩ hsome
    exact h ⟨v, rest, hsome⟩
  have hunset : sscanfRate s = (none, none) := by rw [sscanfRate, hscan]
  simp only [rateOf, unitAtofRate, rateOps, hunset]
  rfl

/-- A stack that never changes sets the rate of the last argument. -/
theorem lastRate_of_constant {ops : DoubleOps double} (h : ops.next = ops) (opts : List Opt) :
    lastRate ops opts = (lastArgument 'b' opts).map (rateOf ops) := by
  induction opts with
  | nil => rfl
  | cons opt opts ih =>
      rw [lastRate, h, ih, lastArgument, Option.map_or]
      by_cases hb : opt.flag = 'b'
      · rw [if_pos hb, if_pos hb]
      · rw [if_neg hb, if_neg hb]
        rfl

/-- The rate an accepted list leaves on a stack that never changes. -/
theorem rate_of_constant (converted : FloatValue → UInt64) (v : FloatValue) {opts : List Opt}
    {t t' : IperfTest} {r : Int32} {s : CString} (h : t.protocol ≠ none)
    (hargs : ∀ opt ∈ opts, HasArgument opt) (haccepts : Accepts t opts)
    (hlast : lastArgument 'b' opts = some s) (hno : ¬ BeginsWithNumber s)
    (hrun : parseLoop (rateOps ⟨fun _ => v, converted⟩) opts t = .ok (r, t')) :
    r = 0 ∧ t'.settings.rate = doubleToUInt64 ⟨fun _ => v, converted⟩ v := by
  obtain ⟨t₁, hend, hzero⟩ := (accepts_iff (rateOps ⟨fun _ => v, converted⟩) t opts).mpr haccepts
  have hloop := (parseLoop_eq _ h hargs).2 t₁ hend
  rw [hloop, hzero] at hrun
  cases hrun
  refine ⟨rfl, ?_⟩
  rw [rate_configureAll _ hend, lastRate_of_constant rfl, hlast, Option.map_some,
    Option.getD_some, rateOf_of_no_number hno]

/-- **The order of the options does not matter**, from a test with a protocol,
for lists that differ only in how options with different letters are ordered,
exactly when they are not accepted or their last -b begins with a number. What
the stack holds is not the same in two runs. That an option which takes an
argument has one is what `getopt_long` reports (`options_hasArgument`). -/
theorem option_order_iff (converted : FloatValue → UInt64) {opts₁ opts₂ : List Opt}
    {t : IperfTest} (h : t.protocol ≠ none) (hargs : ∀ opt ∈ opts₁, HasArgument opt)
    (hreordered : Reordered Opt.flag opts₁ opts₂) :
    (∀ n₁ n₂, SameEnd (parseLoop (rateOps ⟨n₁, converted⟩) opts₁ t)
        (parseLoop (rateOps ⟨n₂, converted⟩) opts₂ t)) ↔
      (Accepts t opts₁ → ∀ s ∈ lastArgument 'b' opts₁, BeginsWithNumber s) := by
  have hlast : lastArgument 'b' opts₂ = lastArgument 'b' opts₁ := by
    rw [← lastArgument_filter, ← hreordered.same 'b', lastArgument_filter]
  constructor
  · intro hsame haccepts s hs
    by_contra hno
    have hargs₂ : ∀ opt ∈ opts₂, HasArgument opt := fun opt hopt =>
      hargs opt (hreordered.perm.mem_iff.mpr hopt)
    have haccepts₂ : Accepts t opts₂ := by
      obtain ⟨hnone, hone⟩ := haccepts
      have hroles : ∀ role, role ∈ rolesNamed t opts₂ ↔ role ∈ rolesNamed t opts₁ := fun role =>
        ((hreordered.perm.filterMap roleOf).cons t.role).symm.mem_iff
      refine ⟨fun opt hopt => hnone opt (hreordered.perm.mem_iff.mpr hopt), ?_⟩
      rw [hroles, hroles]
      exact hone
    -- nothing but zeros in one run, nothing but ones in the other
    rcases hsame (fun _ => .finite 0) (fun _ => .finite 1) with
      ⟨t₁, _, hrun, _⟩ | ⟨t', hrun₁, hrun₂⟩
    · have hzero := (rate_of_constant converted _ h hargs haccepts hs hno hrun).1
      exact absurd hzero (by decide)
    · have hzero := (rate_of_constant converted _ h hargs haccepts hs hno hrun₁).2
      have hone := (rate_of_constant converted _ h hargs₂ haccepts₂ (hlast.trans hs) hno hrun₂).2
      rw [doubleToUInt64, if_pos (by decide +kernel)] at hzero hone
      exact absurd (hzero.symm.trans hone) (by decide +kernel)
  · intro hnumber n₁ n₂
    refine sameEnd_of_rates h hargs hreordered fun haccepts => ?_
    have hstable : ∀ n, ∀ s ∈ lastArgument 'b' opts₁, ∀ n', rateOf
        ((rateOps ⟨n, converted⟩).withStack n') s = rateOf (rateOps ⟨n₁, converted⟩) s :=
      fun n s hs n' => rateOf_of_number (hnumber haccepts s hs) ⟨n₁, converted⟩ n'
    rw [lastRate_of_stable _ (hstable n₁), lastRate_of_stable _ (hlast ▸ hstable n₂), hlast]

theorem reordered_pair {a b : Opt} (hne : a.flag ≠ b.flag) (front : List Opt) :
    Reordered Opt.flag (front ++ [a, b]) (front ++ [b, a]) where
  perm := (List.Perm.swap b a []).append_left front
  same k := by
    rw [List.filter_append, List.filter_append]
    by_cases ha : a.flag = k
    · have hb : b.flag ≠ k := fun hb => hne (ha.trans hb.symm)
      simp [ha, hb]
    · simp [List.filter_cons, ha]

/-- A new test with TCP selected. -/
def tcpTest : IperfTest := { defaultTest (some 0) with protocol := some (tcpProtocol 0) }

/-- What the stack holds in one run: the last rate in round 2, zero elsewhere. -/
def staleStack : Nat → FloatValue := fun k => .finite (if k = 2 then 5000000 else 0)

/-- `-s -p 5202` and `-p 5202 -s`, with other garbage. -/
theorem option_order_server_port : SameEnd
    (parseLoop (rateOps ⟨staleStack, fun _ => 0⟩) [⟨'s', none⟩, ⟨'p', some (lit "5202")⟩] tcpTest)
    (parseLoop (rateOps .zero) [⟨'p', some (lit "5202")⟩, ⟨'s', none⟩] tcpTest) := by
  have hargs : ∀ opt ∈ [Opt.mk 's' none, ⟨'p', some (lit "5202")⟩], HasArgument opt := by
    intro opt hopt hflag
    rcases List.mem_cons.mp hopt with rfl | hopt
    · exact absurd hflag (by decide)
    · rw [List.mem_singleton.mp hopt]
      exact ⟨_, rfl⟩
  exact (option_order_iff (fun _ => 0) (Option.some_ne_none _) hargs
    (reordered_pair (by decide) [])).mpr (fun _ s hs => by cases hs) staleStack fun _ => .finite 0

/-- `iperf -s -b 5M -b fast -p 5202` stores what it finds on the stack, and with the
last two options exchanged it finds something else. -/
theorem order_decides_rate :
    options false [lit "iperf", lit "-s", lit "-b", lit "5M", lit "-b", lit "fast", lit "-p",
        lit "5202"]
      = [⟨'s', none⟩, ⟨'b', some (lit "5M")⟩] ++
        [⟨'b', some (lit "fast")⟩, ⟨'p', some (lit "5202")⟩] ∧
    options false [lit "iperf", lit "-s", lit "-b", lit "5M", lit "-p", lit "5202", lit "-b",
        lit "fast"]
      = [⟨'s', none⟩, ⟨'b', some (lit "5M")⟩] ++
        [⟨'p', some (lit "5202")⟩, ⟨'b', some (lit "fast")⟩] ∧
    Reordered Opt.flag
      ([⟨'s', none⟩, ⟨'b', some (lit "5M")⟩] ++
        [⟨'b', some (lit "fast")⟩, ⟨'p', some (lit "5202")⟩])
      ([⟨'s', none⟩, ⟨'b', some (lit "5M")⟩] ++
        [⟨'p', some (lit "5202")⟩, ⟨'b', some (lit "fast")⟩]) ∧
    ∃ t₁ t₂,
      parseLoop (rateOps ⟨staleStack, fun _ => 0⟩) ([⟨'s', none⟩, ⟨'b', some (lit "5M")⟩] ++
        [⟨'b', some (lit "fast")⟩, ⟨'p', some (lit "5202")⟩]) tcpTest = .ok (0, t₁) ∧
      parseLoop (rateOps ⟨staleStack, fun _ => 0⟩) ([⟨'s', none⟩, ⟨'b', some (lit "5M")⟩] ++
        [⟨'p', some (lit "5202")⟩, ⟨'b', some (lit "fast")⟩]) tcpTest = .ok (0, t₂) ∧
      t₁.settings.rate = 5000000 ∧ t₂.settings.rate = 0 := by
  refine ⟨by decide +kernel, by decide +kernel, reordered_pair (by decide) _, ?_⟩
  exact ⟨{ tcpTest with role := 's', sender := 0, serverPort := 5202,
                        settings := { tcpTest.settings with rate := 5000000 } },
    { tcpTest with role := 's', sender := 0, serverPort := 5202,
                   settings := { tcpTest.settings with rate := 0 } },
    by decide +kernel, by decide +kernel, rfl, rfl⟩

end KernelTestkit.Cli
