import CommandOntology.Proofs.DefaultExpressions
import CommandOntology.Proofs.WrittenLines
import CommandOntology.Proofs.ModuleBlocks

set_option autoImplicit false

namespace CommandOntology.Generation

open CommandOntology.Text

/-- Skips an argument of a call up to the comma behind it, `skip` characters of a text with quotes aside. -/
def skipArgument? : (skip : Nat) → List Char → Option (List Char)
  | _, [] => none
  | skip + 1, _ :: rest => skipArgument? skip rest
  | 0, c :: rest =>
    if c = ',' then some rest
    else if c = '\'' ∨ c = '"' then
      match readQuoted? c 0 rest with
      | some (_, after) => skipArgument? (rest.length - after.length) rest
      | none => none
    else skipArgument? 0 rest

def optionNames : List Char → List String
  | ' ' :: quote :: rest =>
    match readQuoted? quote 0 rest with
    | some (text, _) => (splitOn '/' text).map String.ofList
    | none => []
  | _ => []

/-- The options that a line declares: the names in the second argument of its call, which follows the default
of the parameter. -/
def Line.options : Line → List String
  | parameter _ text =>
    match dropBeginning? "= typer.Option(".toList (text.toList.dropWhile (· ≠ '=')) with
    | some arguments => ((skipArgument? 0 arguments).map optionNames).getD []
    | none => []
  | _ => []

theorem dropBeginning?_append (start rest : List Char) :
    dropBeginning? start (start ++ rest) = some rest := by
  induction start with
  | nil => rfl
  | cons c start ih => rw [List.cons_append, dropBeginning?, if_pos rfl, ih]

def IsBare (c : Char) : Prop :=
  c ≠ ',' ∧ c ≠ '\'' ∧ c ≠ '"'

instance decidableIsBare (c : Char) : Decidable (IsBare c) :=
  inferInstanceAs (Decidable (_ ∧ _))

theorem skipArgument?_append {part : List Char} (h : ∀ c ∈ part, IsBare c)
    (rest : List Char) : skipArgument? 0 (part ++ rest) = skipArgument? 0 rest := by
  induction part with
  | nil => rfl
  | cons c part ih =>
    obtain ⟨⟨hcomma, hquotes⟩, hpart⟩ := List.forall_mem_cons.1 h
    rw [List.cons_append, skipArgument?, if_neg hcomma, if_neg (not_or.2 hquotes), ih hpart]

theorem skipArgument?_skip (skipped rest : List Char) :
    skipArgument? skipped.length (skipped ++ rest) = skipArgument? 0 rest := by
  induction skipped with
  | nil => rfl
  | cons c skipped ih => exact ih

theorem skipArgument?_quotedChars (text rest : List Char) :
    skipArgument? 0 (quotedChars text ++ rest) = skipArgument? 0 rest := by
  obtain ⟨quote, body, hbody, hquote, hread⟩ := readQuoted?_quotedChars text rest
  have hcomma : quote ≠ ',' := by
    obtain rfl | rfl := hquote <;> decide
  rw [hbody, List.cons_append, skipArgument?, if_neg hcomma,
    if_pos (show quote = '\'' ∨ quote = '"' from hquote), hread]
  simp only [List.length_append, Nat.add_sub_cancel_right]
  exact skipArgument?_skip body rest

theorem isBare_of_isAsciiDigit {c : Char} (h : isAsciiDigit c = true) : IsBare c := by
  refine ⟨?_, ?_, ?_⟩
  all_goals
    rintro rfl
    revert h
    decide

theorem isBare_float (x : Binary64) : ∀ c ∈ x.text.toList, IsBare c := by
  cases x with
  | nan => decide +kernel
  | infinite negative => cases negative <;> decide +kernel
  | finite negative mantissa exponent =>
    have hmagnitude : ∀ c ∈ Binary64.magnitudeChars mantissa exponent, IsBare c := by
      intro c hc
      obtain hdigit | hmark := (Binary64.magnitudeChars_spec mantissa exponent).1.chars c hc
      · exact isBare_of_isAsciiDigit hdigit
      · have hmarks : ∀ c ∈ ['.', 'e', '+', '-'], IsBare c := by decide
        exact hmarks c hmark
    rw [Binary64.text, String.toList_ofList, Binary64.chars_finite]
    cases negative with
    | true => exact List.forall_mem_append.2 ⟨by decide, hmagnitude⟩
    | false => exact hmagnitude

theorem isBare_integer (n : Int) : ∀ c ∈ (toString n).toList, IsBare c := by
  have hdigits : ∀ c ∈ integerDigits n, IsBare c := fun c hc =>
    isBare_of_isAsciiDigit (isAsciiDigit_of_mem_integerDigits n c hc)
  rw [toList_toString_int]
  split_ifs
  · exact List.forall_mem_cons.2 ⟨by decide, hdigits⟩
  · exact hdigits

theorem skipArgument?_expression (v : DefaultValue) (rest : List Char) :
    skipArgument? 0 (v.expression.toList ++ rest) = skipArgument? 0 rest := by
  have hquoted (s : String) (rest : List Char) :
      skipArgument? 0 ((quoted s).toList ++ rest) = skipArgument? 0 rest := by
    rw [quoted, String.toList_ofList, skipArgument?_quotedChars]
  cases v with
  | text s => exact hquoted s rest
  | integer n => exact skipArgument?_append (isBare_integer n) rest
  | float x => exact skipArgument?_append (isBare_float x) rest
  | boolean b =>
    have hword : ∀ c ∈ (DefaultValue.boolean b).expression.toList, IsBare c := by cases b <;> decide +kernel
    exact skipArgument?_append hword rest
  | path s =>
    have hopen : ∀ c ∈ "Path(".toList, IsBare c := by decide +kernel
    have hclose : ∀ c ∈ ")".toList, IsBare c := by decide +kernel
    rw [DefaultValue.expression, String.toList_append, String.toList_append, List.append_assoc,
      List.append_assoc, skipArgument?_append hopen, hquoted, skipArgument?_append hclose]

namespace Parameter

def options (p : Parameter) : List String :=
  if p.isPositional then []
  else if p.type = .boolean then ["--" ++ dashed p.ident, "--no-" ++ dashed p.ident]
  else ["--" ++ dashed p.ident]

def line (p : Parameter) : Line :=
  .parameter p.ident ("    " ++ p.ident ++ ": " ++ p.annotation ++ " = " ++ p.declaration ++ ",")

theorem skipArgument?_value (p : Parameter) (rest : List Char) :
    skipArgument? 0 (p.value.toList ++ rest) = skipArgument? 0 rest := by
  unfold value
  cases p.presence with
  | required => exact skipArgument?_append (by decide +kernel) rest
  | optional => exact skipArgument?_append (by decide +kernel) rest
  | defaulted v => exact skipArgument?_expression v rest

theorem toList_dashed (ident : String) :
    (dashed ident).toList = ident.toList.map fun c => if c = '_' then '-' else c := by
  rw [dashed, String.toList_ofList, replaceChar, List.map_eq_flatMap]
  refine List.flatMap_congr fun c _ => ?_
  split_ifs <;> rfl

section

variable {p : Parameter} (h : isUsableIdentifier p.ident = true)

include h

theorem not_mem_ident {c : Char} (hascii : c.toNat < 128) (hc : (isAsciiAlphanumeric c || c == '_') = false) :
    c ∉ p.ident.toList := by
  intro hin
  rw [isAsciiAlphanumeric_of_mem_identifier h hin hascii] at hc
  cases hc

theorem not_mem_dashed {c : Char} (hascii : c.toNat < 128) (hc : (isAsciiAlphanumeric c || c == '_') = false)
    (hdash : c ≠ '-') : c ∉ (dashed p.ident).toList := by
  rw [toList_dashed]
  intro hin
  obtain ⟨d, hd, hin⟩ := List.mem_map.1 hin
  split_ifs at hin with hline
  · exact hdash hin.symm
  · exact not_mem_ident h hascii hc (hin ▸ hd)

theorem splitOn_option (hpositional : p.isPositional = false) :
    (splitOn '/' p.option.toList).map String.ofList = p.options := by
  have hslash : '/' ∉ (dashed p.ident).toList := not_mem_dashed h (by decide) (by decide) (by decide)
  have hfirst : '/' ∉ "--".toList ++ (dashed p.ident).toList := by simp [hslash]
  have hsecond : '/' ∉ "--no-".toList ++ (dashed p.ident).toList := by simp [hslash]
  rw [options, if_neg (by simp [hpositional]), splitOn_eq, option]
  by_cases hboolean : p.type = .boolean
  · have hchars : ("--" ++ dashed p.ident ++ "/--no-" ++ dashed p.ident).toList =
        ("--".toList ++ (dashed p.ident).toList) ++ '/' ::
          ("--no-".toList ++ (dashed p.ident).toList) := by simp
    rw [if_pos hboolean, if_pos hboolean, hchars, List.splitOn_append_cons_self_of_not_mem hfirst,
      List.splitOn_eq_singleton hsecond, List.map_cons, List.map_singleton]
    simp [← String.toList_inj]
  · rw [if_neg hboolean, if_neg hboolean, String.toList_append, List.splitOn_eq_singleton hfirst,
      List.map_singleton, String.ofList_append, String.ofList_toList, String.ofList_toList]

theorem dropWhile_line :
    p.line.text.toList.dropWhile (· ≠ '=') = "= ".toList ++ p.declaration.toList ++ [','] := by
  have hident : '=' ∉ p.ident.toList := not_mem_ident h (by decide) (by decide)
  have hannotation : '=' ∉ p.annotation.toList := by
    cases htype : p.type <;> cases hpresence : p.presence <;>
      simp [htype, hpresence, annotation, ArgumentType.annotation]
  have hbefore : ∀ c ∈ ("    " ++ p.ident ++ ": " ++ p.annotation ++ " ").toList,
      decide (c ≠ '=') = true := by
    intro c hc
    rw [decide_eq_true_eq]
    rintro rfl
    simp [hident, hannotation] at hc
  have hchars : p.line.text.toList = ("    " ++ p.ident ++ ": " ++ p.annotation ++ " ").toList ++
      ("= ".toList ++ p.declaration.toList ++ [',']) := by
    simp [line, Line.text]
  rw [hchars, List.dropWhile_append_of_pos hbefore]
  simp

theorem options_line : p.line.options = p.options := by
  have hread : p.line.options =
      match dropBeginning? "= typer.Option(".toList ("= ".toList ++ p.declaration.toList ++ [',']) with
      | some arguments => ((skipArgument? 0 arguments).map optionNames).getD []
      | none => [] := by
    rw [← dropWhile_line h]
    rfl
  rw [hread]
  cases hpositional : p.isPositional with
  | true =>
    rw [declaration, options, hpositional]
    simp [dropBeginning?]
  | false =>
    obtain ⟨quote, body, hbody, hquote, hoption⟩ :=
      readQuoted?_quotedChars p.option.toList (", help=" ++ quoted p.help ++ ")" ++ ",").toList
    have hchars : "= ".toList ++ p.declaration.toList ++ [','] =
        "= typer.Option(".toList ++ (p.value.toList ++
          ',' :: ' ' :: quote :: (body ++ (", help=" ++ quoted p.help ++ ")" ++ ",").toList)) := by
      have hquoted : (quoted p.option).toList = quote :: body := by rw [quoted, String.toList_ofList, hbody]
      simp [declaration, hpositional, hquoted]
    have hcomma (rest : List Char) : skipArgument? 0 (',' :: rest) = some rest := rfl
    rw [hchars, dropBeginning?_append]
    dsimp only
    rw [skipArgument?_value, hcomma, Option.map_some, Option.getD_some, optionNames, hoption,
      ← splitOn_option h hpositional]

end

end Parameter

def declaredOptions (block : Block) : List String :=
  block.flatMap Line.options

theorem declaredOptions_append (a b : Block) :
    declaredOptions (a ++ b) = declaredOptions a ++ declaredOptions b :=
  List.flatMap_append

theorem declaredOptions_lines (texts : List String) : declaredOptions (lines texts) = [] := by
  simp [declaredOptions, lines, Line.options]

theorem declaredOptions_linesIf (condition : Bool) (texts : List String) :
    declaredOptions (linesIf condition texts) = [] := by
  cases condition
  · rfl
  · exact declaredOptions_lines texts

theorem declaredOptions_wiring (s : Setting) (app : String) {c : CommandPlan}
    (h : ∀ p ∈ c.parameters, isUsableIdentifier p.ident = true) :
    declaredOptions (wiring s app c) = c.parameters.flatMap Parameter.options := by
  have hparameters : declaredOptions (c.parameters.map Parameter.line) =
      c.parameters.flatMap Parameter.options := by
    rw [declaredOptions, List.flatMap_map]
    exact List.flatMap_congr fun p hp => Parameter.options_line (h p hp)
  have hnil : declaredOptions [] = [] := rfl
  simp only [wiring, declaredOptions_append, apply_ite declaredOptions, declaredOptions_lines,
    declaredOptions_linesIf, hnil, List.append_nil, List.nil_append, ite_self]
  exact hparameters

namespace Parameter

def Denies (p q : Parameter) : Prop :=
  p.isPositional = false ∧ q.isPositional = false ∧ p.type = .boolean ∧ q.ident = "no_" ++ p.ident

theorem dashed_inj {a b : String} (ha : '-' ∉ a.toList) (hb : '-' ∉ b.toList) :
    dashed a = dashed b ↔ a = b := by
  have hback {ident : String} (h : '-' ∉ ident.toList) :
      (dashed ident).toList.map (fun c => if c = '-' then '_' else c) = ident.toList := by
    rw [toList_dashed, List.map_map]
    refine (List.map_congr_left fun c hc => ?_).trans (List.map_id _)
    have hne : c ≠ '-' := fun hdash => h (hdash ▸ hc)
    simp only [Function.comp_apply, id]
    split_ifs <;> simp_all
  refine ⟨fun h => ?_, congrArg dashed⟩
  rw [← String.toList_inj, ← hback ha, ← hback hb, h]

theorem dashed_no (ident : String) : dashed ("no_" ++ ident) = "no-" ++ dashed ident := by
  rw [← String.toList_inj, toList_dashed, String.toList_append, String.toList_append, List.map_append,
    toList_dashed]
  rfl

theorem mem_options {p : Parameter} {option : String} : option ∈ p.options ↔ p.isPositional = false ∧
    (option = "--" ++ dashed p.ident ∨ p.type = .boolean ∧ option = "--no-" ++ dashed p.ident) := by
  rw [options]
  split_ifs with hpositional hboolean <;> simp_all

theorem nodup_options (p : Parameter) : p.options.Nodup := by
  have hne : "--" ++ dashed p.ident ≠ "--no-" ++ dashed p.ident := fun h => by
    simpa using congrArg (fun text => text.toList.length) h
  rw [options]
  split_ifs <;> simp [hne]

theorem denies_iff {p q : Parameter} (hp : '-' ∉ p.ident.toList) (hq : '-' ∉ q.ident.toList) :
    p.Denies q ↔ p.isPositional = false ∧ q.isPositional = false ∧ p.type = .boolean ∧
      dashed q.ident = "no-" ++ dashed p.ident := by
  have hno : '-' ∉ ("no_" ++ p.ident).toList := by simp [hp]
  rw [Denies, ← dashed_inj hq hno, dashed_no]

/-- Parameters of different names declare an option together if the one denies the other. -/
theorem disjoint_options_iff {p q : Parameter} (hp : '-' ∉ p.ident.toList) (hq : '-' ∉ q.ident.toList)
    (hne : p.ident ≠ q.ident) : p.options.Disjoint q.options ↔ ¬p.Denies q ∧ ¬q.Denies p := by
  have hdashed : dashed p.ident ≠ dashed q.ident := fun h => hne ((dashed_inj hp hq).1 h)
  have hsecond {a b : String} : "--no-" ++ a = "--" ++ b ↔ b = "no-" ++ a := by
    rw [← String.toList_inj, ← String.toList_inj]
    simp [eq_comm]
  rw [denies_iff hp hq, denies_iff hq hp]
  constructor
  · intro h
    refine ⟨fun ⟨hpos, hpos', hboolean, hname⟩ => ?_, fun ⟨hpos, hpos', hboolean, hname⟩ => ?_⟩
    · exact h (mem_options.2 ⟨hpos, .inr ⟨hboolean, rfl⟩⟩) (mem_options.2 ⟨hpos', .inl (hsecond.2 hname)⟩)
    · exact h (mem_options.2 ⟨hpos', .inl (hsecond.2 hname)⟩) (mem_options.2 ⟨hpos, .inr ⟨hboolean, rfl⟩⟩)
  · rintro ⟨hpq, hqp⟩ option hin hin'
    obtain ⟨hpos, rfl | ⟨hboolean, rfl⟩⟩ := mem_options.1 hin
    · obtain ⟨hpos', h | ⟨hboolean', h⟩⟩ := mem_options.1 hin'
      · exact hdashed (by simpa using h)
      · exact hqp ⟨hpos', hpos, hboolean', hsecond.1 h.symm⟩
    · obtain ⟨hpos', h | ⟨hboolean', h⟩⟩ := mem_options.1 hin'
      · exact hpq ⟨hpos, hpos', hboolean, hsecond.1 h⟩
      · exact hdashed (by simpa using h)

/-- The options of parameters of different names differ if none of them denies another. -/
theorem nodup_flatMap_options_iff {ps : List Parameter} (hdash : ∀ p ∈ ps, '-' ∉ p.ident.toList)
    (hn : (ps.map (·.ident)).Nodup) :
    (ps.flatMap options).Nodup ↔ ∀ p ∈ ps, ∀ q ∈ ps, ¬p.Denies q := by
  have hdiffer {p q : Parameter} (hp : p ∈ ps) (hq : q ∈ ps) (hne : p ≠ q) : p.ident ≠ q.ident := fun h =>
    hne (List.inj_on_of_nodup_map hn hp hq h)
  rw [List.nodup_flatMap]
  constructor
  · rintro ⟨-, hpairs⟩ p hp q hq hdenies
    have hne : p ≠ q := by
      rintro rfl
      have hlength := congrArg (fun text => text.toList.length) hdenies.2.2.2
      simp only [String.toList_append, List.length_append] at hlength
      simp at hlength
    have : Std.Symm (Function.onFun List.Disjoint options) := ⟨fun _ _ h => h.symm⟩
    exact ((disjoint_options_iff (hdash p hp) (hdash q hq) (hdiffer hp hq hne)).1
      (hpairs.forall hp hq hne)).1 hdenies
  · intro h
    have hdistinct := List.Nodup.of_map _ hn
    refine ⟨fun p _ => nodup_options p, hdistinct.pairwise_of_forall_ne fun p hp q hq hne => ?_⟩
    exact (disjoint_options_iff (hdash p hp) (hdash q hq) (hdiffer hp hq hne)).2 ⟨h p hp q hq, h q hq p hp⟩

end Parameter

/-- One of the arguments that are options has the name of the second option of a truth value. -/
def DeniesOption (c : Command) : Prop :=
  ∃ a ∈ c.arguments, ∃ b ∈ c.arguments, a.position = none ∧ b.position = none ∧
    ArgumentType.ofTag? (TypeTag.normalize a.typeTag) = some .boolean ∧
    toIdentifier b.name = "no_" ++ toIdentifier a.name

theorem IsParameterOf.denies_iff {command : String} {a b : Argument} {p q : Parameter}
    (hp : IsParameterOf command a p) (hq : IsParameterOf command b q) :
    p.Denies q ↔ a.position = none ∧ b.position = none ∧
      ArgumentType.ofTag? (TypeTag.normalize a.typeTag) = some .boolean ∧
      toIdentifier b.name = "no_" ++ toIdentifier a.name := by
  rw [Parameter.Denies, hp.isPositional, hq.isPositional, hp.type, hp.ident, hq.ident,
    Option.isSome_eq_false_iff, Option.isSome_eq_false_iff, Option.isNone_iff_eq_none,
    Option.isNone_iff_eq_none, Option.some_inj]

theorem Describes.exists_denies_iff {c : Command} {p : CommandPlan} (h : Describes c p) :
    (∃ q ∈ p.parameters, ∃ r ∈ p.parameters, q.Denies r) ↔ DeniesOption c := by
  have hsorted {a : Argument} : a ∈ Argument.sort c.arguments ↔ a ∈ c.arguments :=
    (List.mergeSort_perm _ _).mem_iff
  constructor
  · rintro ⟨q, hq, r, hr, hdenies⟩
    obtain ⟨a, ha, hqa⟩ := exists_of_forall₂ h.parameters hq
    obtain ⟨b, hb, hrb⟩ := exists_of_forall₂ h.parameters hr
    exact ⟨a, hsorted.1 ha, b, hsorted.1 hb, (hqa.denies_iff hrb).1 hdenies⟩
  · rintro ⟨a, ha, b, hb, hdenies⟩
    obtain ⟨q, hq, hqa⟩ := exists_right_of_forall₂ h.parameters (hsorted.2 ha)
    obtain ⟨r, hr, hrb⟩ := exists_right_of_forall₂ h.parameters (hsorted.2 hb)
    exact ⟨q, hq, r, hr, (hqa.denies_iff hrb).2 hdenies⟩

/-- In a module that is accepted, the options that the function of a command declares differ as long as no
parameter denies another. -/
theorem nodup_declaredOptions_iff {s : Setting} {plans : List CommandPlan} {c : CommandPlan} {app : String}
    (hfault : moduleFault? (blocks s plans) = none) (hwiring : wiring s app c ∈ blocks s plans)
    (hidents : ∀ p ∈ c.parameters, isUsableIdentifier p.ident = true) :
    (declaredOptions (wiring s app c)).Nodup ↔ ¬∃ p ∈ c.parameters, ∃ q ∈ c.parameters, p.Denies q := by
  have hn : (c.parameters.map (·.ident)).Nodup := by
    have hnormal := firstRepeated?_eq_none_iff.1 (moduleFault?_eq_none_iff.1 hfault).2.1 _ hwiring
    rw [declared_wiring] at hnormal
    exact hnormal.of_map
  have hdash : ∀ p ∈ c.parameters, '-' ∉ p.ident.toList := fun p hp =>
    Parameter.not_mem_ident (hidents p hp) (by decide) (by decide)
  rw [declaredOptions_wiring s app hidents, Parameter.nodup_flatMap_options_iff hdash hn]
  simp only [not_exists, not_and]

/-- In a module, the options that the function of a command declares differ, unless an argument that is an
option has the name of the second option of a truth value. -/
theorem generate_options {generator : Generator} {features : Features} {index : CommandIndex}
    {m : GeneratedModule} (hm : generator.generate features index = .ok m) :
    ∃ name s plans, generator.name = .text name ∧ s = ⟨name, generator.version, generator.help, features⟩ ∧
      plan features index = .ok plans ∧ m.text = moduleText (blocks s plans) ∧
      List.Forall₂ (fun c p => p.noun = c.noun ∧ p.verb = c.verb ∧ ∃ app, wiring s app p ∈ blocks s plans ∧
        ((declaredOptions (wiring s app p)).Nodup ↔ ¬DeniesOption c)) index.commands plans := by
  obtain ⟨plans, name, hplans, hname, hfault, htext, -⟩ := generate_ok hm
  refine ⟨name, _, plans, hname, rfl, hplans, htext, ?_⟩
  have hdescribes : List.Forall₂ (fun p c => p ∈ plans ∧ Describes c p) plans index.commands :=
    (List.forall₂_and_left _ _).2
      ⟨fun _ hp => hp, List.Forall₂.flip (R := flip Describes) (planCommands_describes hplans)⟩
  refine List.Forall₂.flip (hdescribes.imp ?_)
  rintro p c ⟨hp, hof⟩
  obtain ⟨app, hwiring⟩ := exists_wiring_mem_blocks ⟨name, generator.version, generator.help, features⟩ hp
  refine ⟨hof.noun, hof.verb, app, hwiring, ?_⟩
  rw [nodup_declaredOptions_iff hfault hwiring (isUsable_of_plan hplans p hp), hof.exists_denies_iff]

theorem generate_options_greeter : ∃ m s p app, greeter.generate greeterFeatures greeterIndex = .ok m ∧
    m.text = moduleText (blocks s [callPlan, p]) ∧ p.verb = "say" ∧ wiring s app p ∈ blocks s [callPlan, p] ∧
    ¬DeniesOption sayHello ∧ (declaredOptions (wiring s app p)).Nodup := by
  obtain ⟨m, hm⟩ := exists_generate_greeter
  obtain ⟨name, s, plans, -, -, hplans, htext, hoptions⟩ := generate_options hm
  obtain rfl : [callPlan, sayPlan] = plans := Except.ok.inj (plan_greeter.symm.trans hplans)
  obtain _ | ⟨-, _ | ⟨⟨-, hverb, app, hwiring, hiff⟩, -⟩⟩ := hoptions
  have hnone : ¬DeniesOption sayHello := by
    have hcheck : ∀ a ∈ sayHello.arguments, ∀ b ∈ sayHello.arguments,
        toIdentifier b.name ≠ "no_" ++ toIdentifier a.name := by decide +kernel
    rintro ⟨a, ha, b, hb, -, -, -, hname⟩
    exact hcheck a ha b hb hname
  exact ⟨m, s, sayPlan, app, hm, htext, hverb, hwiring, hnone, hiff.2 hnone⟩

/-- A truth value and an option with the name of its opposite declare an option together. -/
theorem generate_options_call : ∃ m s p app, greeter.generate greeterFeatures greeterIndex = .ok m ∧
    m.text = moduleText (blocks s [p, sayPlan]) ∧ p.verb = "call" ∧ wiring s app p ∈ blocks s [p, sayPlan] ∧
    declaredOptions (wiring s app p) = ["--loud", "--no-loud", "--no-loud"] ∧
    ¬(declaredOptions (wiring s app p)).Nodup := by
  obtain ⟨m, hm⟩ := exists_generate_greeter
  obtain ⟨plans, name, hplans, -, -, htext, -⟩ := generate_ok hm
  obtain rfl : [callPlan, sayPlan] = plans := Except.ok.inj (plan_greeter.symm.trans hplans)
  have hin : callPlan ∈ [callPlan, sayPlan] := .head _
  obtain ⟨app, hwiring⟩ := exists_wiring_mem_blocks ⟨name, greeter.version, greeter.help, greeterFeatures⟩ hin
  have hoptions : callPlan.parameters.flatMap Parameter.options = ["--loud", "--no-loud", "--no-loud"] := by
    decide +kernel
  have hdeclared := declaredOptions_wiring ⟨name, greeter.version, greeter.help, greeterFeatures⟩ app
    (isUsable_of_plan plan_greeter callPlan hin)
  rw [hoptions] at hdeclared
  exact ⟨m, _, callPlan, app, hm, htext, rfl, hwiring, hdeclared, by rw [hdeclared]; decide⟩

end CommandOntology.Generation
