/-
KernelTestkit.Cli.Getopt — `getopt_long` of the C library.

A `Syntax` is what the program passes: the string of its short options and
the table of its long ones. `getoptLong` is the sequence of options the
calls of `getopt_long` report for the arguments behind the program name,
from the first call to the one that returns -1.

The scan goes from left to right. An argument that is not an option is
passed over, or ends the scan when the environment has POSIXLY_CORRECT; the
permutation of `argv` only moves such arguments and is left out. An option
that takes an argument takes the rest of its own argument, or the next one,
whatever that is. A long option may be abbreviated as long as all the
options it may stand for do the same. What is no option, lacks its argument
or has one too many is reported as '?'.
-/
import KernelTestkit.Api.Cjson

namespace KernelTestkit.Cli

open KernelTestkit.Api

/-- An entry of `longopts`, with a NULL `flag`. -/
structure LongOption where
  name : CString
  hasArg : Bool
  val : Char
  deriving DecidableEq, Repr

/-- The options of a program. -/
structure Syntax where
  optstring : List Char
  longopts : List LongOption

/-- One report: what `getopt_long` returns, and `optarg`. -/
structure Opt where
  flag : Char
  optarg : Option CString
  deriving DecidableEq, Repr

/-- What is reported for an error. -/
def Opt.unknown : Opt := ⟨'?', none⟩

/-- What one argument is: not an option, the mark "--", or some options. The
last of these may still take the next argument. -/
inductive Scanned where
  | nonOption
  | endOfOptions
  | options (opts : List Opt) (pending : Option Char)
  deriving DecidableEq, Repr

/-! ## Short options -/

/-- `strchr(optstring, c)`, and whether a colon follows. -/
def findShort (c : Char) : List Char → Option Bool
  | [] => none
  | d :: ds => if c = d then some (ds.head? = some ':') else findShort c ds

/-- Whether a short option takes an argument; `none` when it is none. A colon
or a semicolon never is one. -/
def shortOption (syn : Syntax) (c : Char) : Option Bool :=
  if c = ':' ∨ c = ';' then none else findShort c syn.optstring

/-- The options of an argument behind its dash. -/
def scanCluster (syn : Syntax) : List UInt8 → List Opt × Option Char
  | [] => ([], none)
  | b :: bs =>
      let c := Char.ofNat b.toNat
      match shortOption syn c with
      | none =>
          let (opts, pending) := scanCluster syn bs
          (.unknown :: opts, pending)
      | some false =>
          let (opts, pending) := scanCluster syn bs
          (⟨c, none⟩ :: opts, pending)
      | some true =>
          if bs = [] then ([], some c) else ([⟨c, some (cstringOf bs)⟩], none)

/-! ## Long options -/

/-- The long option a name stands for: the one of this name, or the first that
begins with it if all that do are alike. -/
def longOption (syn : Syntax) (name : List UInt8) : Option LongOption :=
  match syn.longopts.find? (·.name.bytes = name) with
  | some o => some o
  | none =>
      match syn.longopts.filter (name.isPrefixOf ·.name.bytes) with
      | [] => none
      | o :: os => if os.all (fun p => p.hasArg = o.hasArg ∧ p.val = o.val) then some o else none

/-- '='. -/
def equalsSign : UInt8 := 61

/-- The option of an argument behind its two dashes. -/
def scanLong (syn : Syntax) (body : List UInt8) : List Opt × Option Char :=
  let name := body.takeWhile (· ≠ equalsSign)
  match longOption syn name with
  | none => ([.unknown], none)
  | some o =>
      match body.drop name.length with
      | [] => if o.hasArg then ([], some o.val) else ([⟨o.val, none⟩], none)
      | _ :: value =>
          if o.hasArg then ([⟨o.val, some (cstringOf value)⟩], none) else ([.unknown], none)

/-! ## The scan -/

/-- '-'. -/
def dash : UInt8 := 45

/-- One argument. -/
def scanArgument (syn : Syntax) (arg : CString) : Scanned :=
  match arg.bytes with
  | [] => .nonOption
  | [_] => .nonOption
  | b :: c :: body =>
      if b ≠ dash then .nonOption
      else if c ≠ dash then
        let (opts, pending) := scanCluster syn (c :: body)
        .options opts pending
      else if body = [] then .endOfOptions
      else
        let (opts, pending) := scanLong syn body
        .options opts pending

/-- All the options of a command line. -/
def getoptLong (syn : Syntax) (posixlyCorrect : Bool) : List CString → List Opt
  | [] => []
  | arg :: args =>
      match scanArgument syn arg with
      | .nonOption => if posixlyCorrect then [] else getoptLong syn posixlyCorrect args
      | .endOfOptions => []
      | .options opts none => opts ++ getoptLong syn posixlyCorrect args
      | .options opts (some flag) =>
          match args with
          | [] => opts ++ [.unknown]
          | next :: args => opts ++ ⟨flag, some next⟩ :: getoptLong syn posixlyCorrect args

/-! ## What is reported -/

/-- The syntax has the option, with or without an argument. -/
def Syntax.Declares (syn : Syntax) (flag : Char) (hasArg : Bool) : Prop :=
  shortOption syn flag = some hasArg ∨ ∃ o ∈ syn.longopts, o.val = flag ∧ o.hasArg = hasArg

/-- A report is an error, or an option of the syntax with its argument. -/
def Reports (syn : Syntax) (opt : Opt) : Prop :=
  opt = .unknown ∨ syn.Declares opt.flag opt.optarg.isSome

/-- An option that still takes its argument is one that takes one. -/
def Pends (syn : Syntax) (pending : Option Char) : Prop :=
  ∀ flag, pending = some flag → syn.Declares flag true

theorem pends_none (syn : Syntax) : Pends syn none := by
  intro flag h
  cases h

theorem reports_unknown (syn : Syntax) : ∀ opt ∈ [Opt.unknown], Reports syn opt :=
  List.forall_mem_singleton.mpr (Or.inl rfl)

theorem scanCluster_reports (syn : Syntax) : ∀ bs : List UInt8,
    (∀ opt ∈ (scanCluster syn bs).1, Reports syn opt) ∧ Pends syn (scanCluster syn bs).2
  | [] => ⟨by simp [scanCluster], pends_none syn⟩
  | b :: bs => by
      obtain ⟨hopts, hpends⟩ := scanCluster_reports syn bs
      cases hc : shortOption syn (Char.ofNat b.toNat) with
      | none =>
          simp only [scanCluster, hc]
          exact ⟨List.forall_mem_cons.mpr ⟨Or.inl rfl, hopts⟩, hpends⟩
      | some hasArg =>
          cases hasArg with
          | false =>
              simp only [scanCluster, hc]
              exact ⟨List.forall_mem_cons.mpr ⟨Or.inr (Or.inl hc), hopts⟩, hpends⟩
          | true =>
              by_cases hbs : bs = []
              · simp only [scanCluster, hc, if_pos hbs]
                refine ⟨by simp, fun flag hflag => ?_⟩
                cases hflag
                exact Or.inl hc
              · simp only [scanCluster, hc, if_neg hbs]
                exact ⟨List.forall_mem_singleton.mpr (Or.inr (Or.inl hc)), pends_none syn⟩

theorem longOption_mem {syn : Syntax} {name : List UInt8} {o : LongOption}
    (h : longOption syn name = some o) : o ∈ syn.longopts := by
  unfold longOption at h
  split at h
  · rename_i o' hfind
    cases h
    exact List.mem_of_find?_eq_some hfind
  · split at h
    · cases h
    · rename_i o' os hfilter
      split at h
      · cases h
        exact List.mem_of_mem_filter (hfilter ▸ List.mem_cons_self ..)
      · cases h

theorem scanLong_reports (syn : Syntax) (body : List UInt8) :
    (∀ opt ∈ (scanLong syn body).1, Reports syn opt) ∧ Pends syn (scanLong syn body).2 := by
  unfold scanLong
  dsimp only
  split
  · exact ⟨reports_unknown syn, pends_none syn⟩
  · rename_i o ho
    have hmem := longOption_mem ho
    have hdeclares : syn.Declares o.val o.hasArg := Or.inr ⟨o, hmem, rfl, rfl⟩
    split
    · split
      · rename_i harg
        rw [harg] at hdeclares
        refine ⟨by simp, fun flag hflag => ?_⟩
        cases hflag
        exact hdeclares
      · rename_i harg
        rw [Bool.not_eq_true] at harg
        rw [harg] at hdeclares
        exact ⟨List.forall_mem_singleton.mpr (Or.inr hdeclares), pends_none syn⟩
    · split
      · rename_i harg
        rw [harg] at hdeclares
        exact ⟨List.forall_mem_singleton.mpr (Or.inr hdeclares), pends_none syn⟩
      · exact ⟨reports_unknown syn, pends_none syn⟩

theorem scanArgument_reports {syn : Syntax} {arg : CString} {opts : List Opt}
    {pending : Option Char} (h : scanArgument syn arg = .options opts pending) :
    (∀ opt ∈ opts, Reports syn opt) ∧ Pends syn pending := by
  unfold scanArgument at h
  split at h
  · cases h
  · cases h
  · rename_i b c body _
    split at h
    · cases h
    · split at h
      · cases h
        exact scanCluster_reports syn (c :: body)
      · split at h
        · cases h
        · cases h
          exact scanLong_reports syn body

/-- **What `getopt_long` reports**: errors, and options of the syntax, each with
an argument exactly when it takes one. -/
theorem getoptLong_reports (syn : Syntax) (posixlyCorrect : Bool) : ∀ args : List CString,
    ∀ opt ∈ getoptLong syn posixlyCorrect args, Reports syn opt
  | [] => by simp [getoptLong]
  | arg :: args => by
      have ih := getoptLong_reports syn posixlyCorrect args
      rw [getoptLong]
      split
      · split
        · simp
        · exact ih
      · simp
      · rename_i opts hscan
        obtain ⟨hopts, _⟩ := scanArgument_reports hscan
        exact List.forall_mem_append.mpr ⟨hopts, ih⟩
      · rename_i opts flag hscan
        obtain ⟨hopts, hpends⟩ := scanArgument_reports hscan
        cases args with
        | nil => exact List.forall_mem_append.mpr ⟨hopts, by simp [Reports]⟩
        | cons next args =>
            have ih' := getoptLong_reports syn posixlyCorrect args
            exact List.forall_mem_append.mpr
              ⟨hopts, List.forall_mem_cons.mpr ⟨Or.inr (hpends flag rfl), ih'⟩⟩

end KernelTestkit.Cli
