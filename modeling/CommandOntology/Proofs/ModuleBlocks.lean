import CommandOntology.Proofs.CollapsedTexts
import CommandOntology.Proofs.DefinedNames
import CommandOntology.Proofs.QuotedLiterals

set_option autoImplicit false

namespace CommandOntology.Generation

open CommandOntology.Text

def linesText (ls : List Line) : String :=
  String.join (ls.map (·.text ++ "\n"))

@[simp] theorem linesText_nil : linesText [] = "" :=
  rfl

@[simp] theorem linesText_append (ls ls' : List Line) :
    linesText (ls ++ ls') = linesText ls ++ linesText ls' := by
  simp [linesText, String.join_append]

@[simp] theorem linesText_cons (l : Line) (ls : List Line) :
    linesText (l :: ls) = l.text ++ "\n" ++ linesText ls := by
  simp [linesText]

theorem moduleText_eq (bs : List Block) : moduleText bs = linesText bs.flatten :=
  rfl

theorem not_mem_linesText {ls : List Line} {c : Char} (h : ∀ l ∈ ls, c ∉ l.text.toList) (hline : c ≠ '\n') :
    c ∉ (linesText ls).toList := by
  induction ls with
  | nil => simp
  | cons l ls ih =>
    obtain ⟨hl, hls⟩ := List.forall_mem_cons.1 h
    simp [hl, hline, ih hls]

theorem infix_flatten_of_mem {α : Type} {xs : List α} {xss : List (List α)} (h : xs ∈ xss) :
    xs <:+: xss.flatten := by
  obtain ⟨before, after, rfl⟩ := List.append_of_mem h
  exact ⟨before.flatten, after.flatten, by simp⟩

theorem exists_moduleText_eq {bs : List Block} {block : Block} (h : block ∈ bs) {part : List Line}
    (hpart : part <:+: block) :
    ∃ before after, moduleText bs = linesText before ++ linesText part ++ linesText after := by
  obtain ⟨before, after, hlines⟩ := hpart.trans (infix_flatten_of_mem h)
  exact ⟨before, after, by rw [moduleText_eq, ← hlines, linesText_append, linesText_append]⟩

section

variable (s : Setting) {plans : List CommandPlan}

theorem header_mem_blocks : header s plans ∈ blocks s plans := by
  simp [blocks]

theorem rootApp_mem_blocks : rootApp s ∈ blocks s plans := by
  simp [blocks]

theorem manualCommand_mem_blocks (h : s.features.has .manPages = true) :
    manualCommand s plans ∈ blocks s plans := by
  simp [blocks, h]

variable {c : CommandPlan} (hc : c ∈ plans)

include hc

theorem holder_mem_blocks : holder s c ∈ blocks s plans := by
  have h : holder s c ∈ plans.flatMap fun c => [holder s c, handler s c] :=
    List.mem_flatMap.2 ⟨c, hc, List.mem_cons_self⟩
  simp [blocks, h]

theorem handler_mem_blocks : handler s c ∈ blocks s plans := by
  have h : handler s c ∈ plans.flatMap fun c => [holder s c, handler s c] :=
    List.mem_flatMap.2 ⟨c, hc, by simp⟩
  simp [blocks, h]

theorem mem_nounGroups_noun : (c.noun, plans.filter (·.noun == c.noun)) ∈ nounGroups plans := by
  refine List.mem_map.2 ⟨c.noun, ?_, rfl⟩
  rw [List.mem_mergeSort, mem_distinct]
  exact List.mem_map_of_mem hc

theorem exists_wiring_mem_blocks : ∃ app, wiring s app c ∈ blocks s plans := by
  have hin : c ∈ plans.filter (·.noun == c.noun) := List.mem_filter.2 ⟨hc, by simp⟩
  obtain ⟨first, rest, hgroup⟩ := List.exists_cons_of_ne_nil (List.ne_nil_of_mem hin)
  refine ⟨first.appName, ?_⟩
  rw [blocks]
  refine List.mem_append_left _ (List.mem_append_left _ (List.mem_append_right _ ?_))
  refine List.mem_flatMap.2 ⟨_, mem_nounGroups_noun hc, ?_⟩
  rw [hgroup] at hin ⊢
  exact List.mem_cons_of_mem _ (List.mem_map_of_mem hin)

end

def docChar (c : Char) : List Char :=
  if c = '"' ∨ c = '\\' then ['\\', c] else [c]

theorem toList_docText (text : String) : (docText text).toList = (collapse text).toList.flatMap docChar := by
  rw [docText, String.toList_ofList, replaceChar, replaceChar, List.flatMap_assoc]
  refine List.flatMap_congr fun c _ => ?_
  unfold docChar
  by_cases hslash : c = '\\'
  · subst hslash
    rfl
  · by_cases hquote : c = '"' <;> simp [hslash, hquote]

theorem mem_docText_iff {c : Char} (hblank : isBlank c = false) (hslash : c ≠ '\\') (text : String) :
    c ∈ (docText text).toList ↔ c ∈ text.toList := by
  rw [toList_docText, ← mem_collapse_iff hblank, List.mem_flatMap]
  refine ⟨fun ⟨d, hd, hc⟩ => ?_, fun hc => ⟨c, hc, ?_⟩⟩
  · unfold docChar at hc
    split_ifs at hc <;> simp_all
  · unfold docChar
    split_ifs <;> simp

def IsClean (text : String) : Prop :=
  '\x00' ∉ text.toList

theorem isClean_ofList {chars : List Char} (h : '\x00' ∉ chars) : IsClean (String.ofList chars) := by
  rwa [IsClean, String.toList_ofList]

theorem isClean_append (a b : String) : IsClean (a ++ b) ↔ IsClean a ∧ IsClean b := by
  simp [IsClean]

theorem isClean_docText (text : String) : IsClean (docText text) ↔ IsClean text :=
  not_congr (mem_docText_iff (by decide) (by decide) text)

theorem isClean_quoted (text : String) : IsClean (quoted text) := by
  have hdigit (width value : Nat) : '\x00' ∉ hexDigits width value := fun hin =>
    absurd (isHexDigit_of_mem_hexDigits width value _ hin) (by decide)
  have hquote : '\x00' ≠ quoteFor text.toList := by
    obtain h | h := isQuote_quoteFor text.toList <;> rw [h] <;> decide
  have hchar (c : Char) : '\x00' ∉ quotedChar (quoteFor text.toList) c := by
    fun_cases quotedChar (quoteFor text.toList) c with
    | case1 hown =>
      rw [Bool.or_eq_true, decide_eq_true_eq, decide_eq_true_eq] at hown
      obtain rfl | rfl := hown
      · simp [hquote]
      · simp
    | case5 _ _ _ _ hprintable =>
      rw [List.mem_singleton]
      rintro rfl
      exact absurd hprintable (by decide)
    | _ => simp [hdigit]
  rw [IsClean, quoted, String.toList_ofList, quotedChars]
  simp [hquote, hchar]

theorem moduleFault?_eq_none_iff {bs : List Block} : moduleFault? bs = none ↔
    IsClean (moduleText bs) ∧ firstRepeated? 1 bs = none ∧ debugField? 1 bs.flatten = none := by
  unfold moduleFault?
  split_ifs with hnull
  · simp [IsClean, List.contains_iff_mem.1 hnull]
  · have hclean : IsClean (moduleText bs) := by simpa [IsClean] using hnull
    cases firstRepeated? 1 bs with
    | some found => simp
    | none => simp [hclean]

/-- A module is generated if it has no null character, no function with two parameters of one normal form and
no field with the name of the debugging constant. -/
theorem exists_generate_eq_ok {generator : Generator} {features : Features} {index : CommandIndex}
    {plans : List CommandPlan} {name : String} {bs : List Block} (hplan : plan features index = .ok plans)
    (hname : generator.name = .text name)
    (hblocks : blocks ⟨name, generator.version, generator.help, features⟩ plans = bs)
    (hclean : ∀ block ∈ bs, ∀ l ∈ block, IsClean l.text) (hparameters : firstRepeated? 1 bs = none)
    (hfields : debugField? 1 bs.flatten = none) : ∃ m, generator.generate features index = .ok m := by
  have htext : IsClean (moduleText bs) := not_mem_linesText (fun l hl => by
    obtain ⟨block, hblock, hl⟩ := List.mem_flatten.1 hl
    exact hclean block hblock l hl) (by decide)
  have hfault : moduleFault? bs = none := moduleFault?_eq_none_iff.2 ⟨htext, hparameters, hfields⟩
  unfold Generator.generate
  simp only [hplan, bind, Except.bind, hname, hblocks, hfault]
  exact ⟨_, rfl⟩

def callName : Command :=
  { noun := "greeting", verb := "call", handler := some "app:call", handlers := ["app:call"],
    arguments := [{ name := "loud", typeTag := "bool" }, { name := "no-loud", typeTag := "text" }] }

def sayHello : Command :=
  { noun := "greeting", verb := "say", handler := some "app:say", handlers := ["app:say"],
    help := some ".Say \"hello\"\n \\o/",
    arguments := [{ name := "loud", typeTag := "bool", help := some "c:\\loud" },
      { name := "name", typeTag := "text", help := some "\"Ann\"" }] }

def greeterIndex : CommandIndex :=
  ⟨[callName, sayHello], [("greeting", [callName, sayHello])]⟩

def callPlan : CommandPlan :=
  { noun := "greeting", verb := "call", nounIdent := "greeting", verbIdent := "call", binding := "app:call",
    help := "Call greeting.",
    parameters := [⟨"loud", .boolean, .defaulted (.boolean false), false, "loud (bool)"⟩,
      ⟨"no_loud", .text, .optional, false, "no-loud (text)"⟩] }

def sayPlan : CommandPlan :=
  { noun := "greeting", verb := "say", nounIdent := "greeting", verbIdent := "say", binding := "app:say",
    help := ".Say \"hello\"\n \\o/",
    parameters := [⟨"loud", .boolean, .defaulted (.boolean false), false, "c:\\loud"⟩,
      ⟨"name", .text, .optional, false, "\"Ann\""⟩] }

def greeter : Generator :=
  .ofName (.text "greet\"er") "1.0.0"

def greeterFeatures : Features :=
  ⟨[.docBlocks, .manPages]⟩

def greeterSetting : Setting :=
  ⟨"greet\"er", greeter.version, greeter.help, greeterFeatures⟩

theorem plan_greeter : plan greeterFeatures greeterIndex = .ok [callPlan, sayPlan] := by
  have hcall : Argument.sort callName.arguments = callName.arguments :=
    List.mergeSort_of_pairwise (by decide)
  have hsay : Argument.sort sayHello.arguments = sayHello.arguments :=
    List.mergeSort_of_pairwise (by decide)
  simp only [plan, greeterIndex, planCommands, planCommand, hcall, hsay]
  decide

theorem blocks_greeter : blocks greeterSetting [callPlan, sayPlan] =
    [header greeterSetting [callPlan, sayPlan], holder greeterSetting callPlan,
      handler greeterSetting callPlan, holder greeterSetting sayPlan, handler greeterSetting sayPlan,
      table [callPlan, sayPlan], rootApp greeterSetting, nounApp greeterSetting "greeting" callPlan.appName,
      wiring greeterSetting callPlan.appName callPlan, wiring greeterSetting callPlan.appName sayPlan,
      manualCommand greeterSetting [callPlan, sayPlan], footer] := by
  have hgroups : nounGroups [callPlan, sayPlan] = [("greeting", [callPlan, sayPlan])] := by decide +kernel
  rw [blocks, hgroups]
  rfl

theorem isClean_blocks_greeter :
    ∀ block ∈ blocks greeterSetting [callPlan, sayPlan], ∀ l ∈ block, IsClean l.text := by
  have hhas (f : Feature) : greeterFeatures.has f = decide (f = .docBlocks ∨ f = .manPages) := by
    cases f <;> rfl
  have hcall : holderName ["greeting", "call"] = "GreetingCallArgs" := by decide
  have hsay : holderName ["greeting", "say"] = "GreetingSayArgs" := by decide
  have hhelp : greeter.help = "greet\"er command-line interface." := by decide
  rw [blocks_greeter]
  simp [header, holder, handler, table, rootApp, nounApp, wiring, manualCommand, footer, lines, linesIf,
    Line.text, greeterSetting, hhas, hcall, hsay, hhelp, isClean_append, isClean_docText, isClean_quoted,
    callPlan, sayPlan, Parameter.declaration, Parameter.annotation, Parameter.value, tableKey,
    CommandPlan.functionName, CommandPlan.handlerName, CommandPlan.holderName, CommandPlan.qualifiedName,
    CommandPlan.fields, CommandPlan.appName, Parameter.fieldDefault?, DefaultValue.expression,
    ArgumentType.annotation, docString]
  and_intros <;> exact isClean_ofList (by decide)

theorem exists_generate_greeter : ∃ m, greeter.generate greeterFeatures greeterIndex = .ok m := by
  have hblocks : blocks ⟨"greet\"er", greeter.version, greeter.help, greeterFeatures⟩ [callPlan, sayPlan] =
      blocks greeterSetting [callPlan, sayPlan] := rfl
  refine exists_generate_eq_ok plan_greeter rfl hblocks isClean_blocks_greeter ?_ ?_
  all_goals
    rw [blocks_greeter]
    decide

end CommandOntology.Generation
