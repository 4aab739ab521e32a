import CommandOntology.Proofs.ModuleBlocks

set_option autoImplicit false

namespace CommandOntology.Generation

open CommandOntology.Text

/-- A line of a manual page as it is shown: without a mark at its start that takes the meaning from the
character after it, and with a backslash for each escape of one. -/
def readManual (line : List Char) : List Char :=
  replaceText "\\e" "\\" ((dropBeginning? ['\\', '&'] line).getD line)

def manualChar (c : Char) : List Char :=
  if c = '\\' then ['\\', 'e'] else [c]

theorem replaceChar_manualChar (text : List Char) :
    replaceChar '\\' ['\\', 'e'] text = text.flatMap manualChar :=
  rfl

theorem replaceText_manualChar (text : List Char) :
    replaceText "\\e" "\\" (text.flatMap manualChar) = text := by
  have hpart : "\\e".toList = ['\\', 'e'] := by simp
  have himage : "\\".toList = ['\\'] := by simp
  rw [replaceText, hpart, himage]
  induction text with
  | nil => rfl
  | cons c rest ih =>
    rw [List.flatMap_cons, manualChar]
    split_ifs with hc
    · subst hc
      change '\\' :: replaceFrom ['\\', 'e'] ['\\'] 0 (rest.flatMap manualChar) = _
      rw [ih]
    · have hne : (['\\', 'e'].isPrefixOf (c :: rest.flatMap manualChar)) = false := by
        simp [List.isPrefixOf, Ne.symm hc]
      rw [List.singleton_append, replaceFrom]
      simp only [hne, Bool.false_eq_true, if_false, ih]

/-- Every text is read back on one line. -/
theorem readManual_manualText (text : String) :
    readManual (manualText text).toList = (collapse text).toList := by
  rw [manualText, replaceChar_manualChar]
  generalize (collapse text).toList = chars
  split_ifs with hmark
  · rw [String.toList_ofList]
    exact replaceText_manualChar chars
  · have hstart : dropBeginning? ['\\', '&'] (chars.flatMap manualChar) = none := by
      cases chars with
      | nil => rfl
      | cons c rest =>
        rw [List.flatMap_cons, manualChar]
        split_ifs with hc
        · rfl
        · simp [dropBeginning?, Ne.symm hc]
    rw [String.toList_ofList, readManual, hstart]
    exact replaceText_manualChar chars

theorem not_mem_manualText (text : String) : '\n' ∉ (manualText text).toList := by
  have hescaped : '\n' ∉ (collapse text).toList.flatMap manualChar := by
    intro hin
    obtain ⟨c, hc, hin⟩ := List.mem_flatMap.1 hin
    unfold manualChar at hin
    split_ifs at hin
    · simp at hin
    · obtain rfl := List.mem_singleton.1 hin
      exact not_mem_collapse (by decide) (by decide) hc
  rw [manualText, replaceChar_manualChar]
  split_ifs
  · simpa using hescaped
  · rwa [String.toList_ofList]

theorem collapse_docText (text : String) : collapse (docText text) = docText text := by
  have hchar (c : Char) (hc : isBlank c = false) : IsWord (docChar c) := by
    unfold docChar
    split_ifs <;> simp [IsWord, hc]
    decide
  have h := @collapse_flatMap docChar (by decide) hchar text
  rwa [← toList_docText, String.ofList_toList] at h

theorem length_flatMap_docChar (chars : List Char) :
    (chars.flatMap docChar).length = chars.length + chars.countP fun c => c = '"' ∨ c = '\\' := by
  induction chars with
  | nil => rfl
  | cons c rest ih =>
    rw [List.flatMap_cons, List.length_append, ih, docChar]
    split_ifs with hc
    · simp only [hc, List.length_cons, List.length_nil, List.countP_cons, decide_true, if_true]
      omega
    · simp only [hc, List.length_cons, List.length_nil, List.countP_cons, decide_false, Bool.false_eq_true,
        if_false]
      omega

/-- Ready for a doc string, a text is what it was as long as it has no quotes and no backslashes. -/
theorem docText_eq_collapse_iff (text : String) :
    docText text = collapse text ↔ '"' ∉ text.toList ∧ '\\' ∉ text.toList := by
  have hquote := mem_collapse_iff (c := '"') (by decide) text
  have hslash := mem_collapse_iff (c := '\\') (by decide) text
  rw [← hquote, ← hslash, ← String.toList_inj, toList_docText]
  generalize (collapse text).toList = chars
  constructor
  · intro h
    have hlength := length_flatMap_docChar chars
    rw [h, Nat.left_eq_add, List.countP_eq_zero] at hlength
    have hnone : ∀ c ∈ chars, c ≠ '"' ∧ c ≠ '\\' := by simpa using hlength
    exact ⟨fun hin => (hnone _ hin).1 rfl, fun hin => (hnone _ hin).2 rfl⟩
  · rintro ⟨hquote, hslash⟩
    have hchar : ∀ c ∈ chars, docChar c = [c] := by
      intro c hc
      refine if_neg ?_
      rintro (rfl | rfl)
      · exact hquote hc
      · exact hslash hc
    rw [List.flatMap_congr hchar, List.flatMap_singleton']

structure ManualEntry where
  noun : String
  verb : String
  line : String
  parameters : List (String × String)

def ManualEntry.text (e : ManualEntry) : String :=
  ".TP\n.B " ++ e.noun ++ " " ++ e.verb ++ "\n" ++ e.line ++ "\n" ++
    String.join (e.parameters.map fun p => ".RS\n.B " ++ p.1 ++ "\n" ++ p.2 ++ "\n.RE\n")

def CommandPlan.entry (c : CommandPlan) : ManualEntry :=
  ⟨c.noun, c.verb, manualText c.help, c.parameters.map fun p => (p.ident, manualText (docText p.help))⟩

theorem CommandPlan.text_entry (c : CommandPlan) : c.entry.text =
    ".TP\n.B " ++ c.noun ++ " " ++ c.verb ++ "\n" ++ manualText c.help ++ "\n" ++
      String.join (c.parameters.map fun p =>
        ".RS\n.B " ++ p.ident ++ "\n" ++ manualText (docText p.help) ++ "\n.RE\n") := by
  -- The equation of the definition is avoided: Lean compares the texts byte by byte to find it.
  delta ManualEntry.text CommandPlan.entry
  rw [List.map_map, Function.comp_def]

def manualTop (s : Setting) : String :=
  linesText (lines [
    ".TH " ++ upper s.name ++ " 1 \"\" \"" ++ s.name ++ " " ++ s.version ++ "\" \"User Commands\"",
    ".SH NAME", s.name ++ " \\- " ++ manualText s.help, ".SH SYNOPSIS", ".B " ++ s.name,
    "\\fINOUN\\fR \\fIVERB\\fR [\\fIOPTIONS\\fR]", ".SH COMMANDS"])

theorem intercalate_append_lineFeed {texts : List String} (h : texts ≠ []) :
    "\n".intercalate texts ++ "\n" = linesText (lines texts) := by
  obtain ⟨first, rest, rfl⟩ := List.exists_cons_of_ne_nil h
  induction rest generalizing first with
  | nil => simp [lines, linesText, Line.text]
  | cons second rest ih =>
    rw [String.intercalate_cons_cons, String.append_assoc, ih second (by simp)]
    simp [lines, Line.text]

/-- A manual page is the lines at its top and one entry for each command. -/
theorem manualPage_eq (s : Setting) (plans : List CommandPlan) :
    manualPage s plans = manualTop s ++ String.join (plans.map fun c => c.entry.text) := by
  have hparameters (ps : List Parameter) :
      linesText (lines (ps.map fun p =>
          ".RS\n.B " ++ p.ident ++ "\n" ++ manualText (docText p.help) ++ "\n.RE")) =
        String.join (ps.map fun p =>
          ".RS\n.B " ++ p.ident ++ "\n" ++ manualText (docText p.help) ++ "\n.RE\n") := by
    rw [linesText, lines, List.map_map, List.map_map]
    refine congrArg String.join (List.map_congr_left fun p _ => ?_)
    simp [Line.text, ← String.toList_inj]
  have hcommand (c : CommandPlan) :
      linesText (lines ([".TP", ".B " ++ c.noun ++ " " ++ c.verb, manualText c.help] ++
        c.parameters.map fun p => ".RS\n.B " ++ p.ident ++ "\n" ++ manualText (docText p.help) ++ "\n.RE")) =
        c.entry.text := by
    rw [CommandPlan.text_entry, lines, List.map_append, linesText_append, ← lines, ← lines, hparameters]
    simp [lines, Line.text, ← String.toList_inj]
  rw [manualPage, intercalate_append_lineFeed (by simp), lines, List.map_append, linesText_append]
  refine congrArg (manualTop s ++ ·) ?_
  induction plans with
  | nil => rfl
  | cons c rest ih =>
    rw [List.flatMap_cons, List.map_append, linesText_append, ih, List.map_cons, String.join_cons, ← hcommand]
    rfl

/-- A module has a text for its manual page: the literal that it gives the page is read as the text. -/
def HasManual (source page : String) : Prop :=
  ∃ before quote rest after, source.toList = before ++ "\nMANPAGE = ".toList ++ quote :: rest ∧
    readQuoted? quote 0 rest = some (page.toList, after)

theorem hasManual_of_manPages {s : Setting} (h : s.features.has .manPages = true) (plans : List CommandPlan) :
    HasManual (moduleText (blocks s plans)) (manualPage s plans) := by
  have hpart : [.plain "", .plain ("MANPAGE = " ++ quoted (manualPage s plans))] <:+:
      manualCommand s plans := by
    simp [manualCommand, lines, List.infix_cons_iff]
  obtain ⟨before, after, htext⟩ := exists_moduleText_eq (manualCommand_mem_blocks s h) hpart
  obtain ⟨quote, body, hquoted, -, hread⟩ :=
    readQuoted?_quotedChars (manualPage s plans).toList ('\n' :: (linesText after).toList)
  refine ⟨(linesText before).toList, quote, _, _, ?_, hread⟩
  have hchars : (quoted (manualPage s plans)).toList = quote :: body := by
    rw [quoted, String.toList_ofList, hquoted]
  rw [htext]
  simp [Line.text, hchars]

def parameterHelp (a : Argument) : String :=
  argumentHelp a (TypeTag.normalize a.typeTag)

/-- What the lines of a parameter say of its argument: its identifier, and on one line its help text as it
stands in a doc string. That is the help text itself if it has no quotes and no backslashes, and only then. -/
structure ShowsArgument (a : Argument) (lines : String × String) : Prop where
  ident : lines.1 = toIdentifier a.name
  isLine : '\n' ∉ lines.2.toList
  read : readManual lines.2.toList = (docText (parameterHelp a)).toList
  isHelp_iff : readManual lines.2.toList = (collapse (parameterHelp a)).toList ↔
    '"' ∉ (parameterHelp a).toList ∧ '\\' ∉ (parameterHelp a).toList

structure ShowsCommand (c : Command) (e : ManualEntry) : Prop where
  noun : e.noun = c.noun
  verb : e.verb = c.verb
  isLine : '\n' ∉ e.line.toList
  read : readManual e.line.toList = (collapse (commandHelp c)).toList
  arguments : List.Forall₂ ShowsArgument (Argument.sort c.arguments) e.parameters

theorem showsArgument {command : String} {a : Argument} {p : Parameter} (h : IsParameterOf command a p) :
    ShowsArgument a (p.ident, manualText (docText p.help)) := by
  have hread : readManual (manualText (docText p.help)).toList = (docText (parameterHelp a)).toList := by
    rw [readManual_manualText, collapse_docText, h.help, parameterHelp]
  constructor
  all_goals dsimp only
  · exact h.ident
  · exact not_mem_manualText (docText p.help)
  · exact hread
  · rw [hread, String.toList_inj, docText_eq_collapse_iff]

theorem showsCommand {c : Command} {p : CommandPlan} (h : Describes c p) : ShowsCommand c p.entry := by
  have hline : p.entry.line = manualText p.help := by rw [CommandPlan.entry]
  have harguments : List.Forall₂ ShowsArgument (Argument.sort c.arguments) p.entry.parameters := by
    rw [CommandPlan.entry]
    dsimp only
    rw [List.forall₂_map_right_iff]
    exact h.parameters.imp fun _ _ => showsArgument
  refine ⟨h.noun, h.verb, ?_, ?_, harguments⟩
  · rw [hline]
    exact not_mem_manualText p.help
  · rw [hline, readManual_manualText, h.help]

/-- The manual page of a module has an entry for each command, with its help text on one line and, for each of
its parameters, the help text as it stands in a doc string. -/
theorem generate_manual {generator : Generator} {features : Features} {index : CommandIndex}
    {m : GeneratedModule} (hm : generator.generate features index = .ok m)
    (hmanual : features.has .manPages = true) :
    ∃ name entries, generator.name = .text name ∧
      HasManual m.text (manualTop ⟨name, generator.version, generator.help, features⟩ ++
        String.join (entries.map ManualEntry.text)) ∧
      List.Forall₂ ShowsCommand index.commands entries := by
  obtain ⟨plans, name, hplans, hname, -, htext, -⟩ := generate_ok hm
  refine ⟨name, plans.map CommandPlan.entry, hname, ?_, ?_⟩
  · have hpage :=
      hasManual_of_manPages (s := ⟨name, generator.version, generator.help, features⟩) hmanual plans
    rw [manualPage_eq] at hpage
    rw [htext, List.map_map, Function.comp_def]
    exact hpage
  · rw [List.forall₂_map_right_iff]
    exact (planCommands_describes hplans).imp fun _ _ => showsCommand

theorem generate_manual_greeter : ∃ m page entries,
    greeter.generate greeterFeatures greeterIndex = .ok m ∧
    greeterFeatures.has .manPages = true ∧ HasManual m.text page ∧
    page = manualTop greeterSetting ++ String.join (entries.map ManualEntry.text) ∧
    List.Forall₂ ShowsCommand [callName, sayHello] entries ∧
    ∃ e ∈ entries, e.verb = "say" ∧ readManual e.line.toList = ".Say \"hello\" \\o/".toList := by
  obtain ⟨m, hm⟩ := exists_generate_greeter
  obtain ⟨name, entries, hname, hmanual, hshows⟩ := generate_manual hm rfl
  have hread : (collapse (commandHelp sayHello)).toList = ".Say \"hello\" \\o/".toList := by decide
  cases hname
  have hsay : sayHello ∈ [callName, sayHello] := by simp
  obtain ⟨e, he, hshown⟩ := exists_right_of_forall₂ hshows hsay
  exact ⟨m, _, entries, hm, rfl, hmanual, rfl, hshows, e, he, hshown.verb, by rw [hshown.read, hread]⟩

/-- The quotes of a help text are shown with backslashes in front of them. -/
theorem generate_manual_quotes : ∃ m page before line after,
    greeter.generate greeterFeatures greeterIndex = .ok m ∧
    HasManual m.text page ∧ page = before ++ ".RS\n.B name\n" ++ line ++ "\n.RE\n" ++ after ∧
    ∃ a ∈ sayHello.arguments, toIdentifier a.name = "name" ∧ parameterHelp a = "\"Ann\"" ∧
      '\n' ∉ line.toList ∧ readManual line.toList = "\\\"Ann\\\"".toList ∧
      readManual line.toList ≠ (collapse (parameterHelp a)).toList := by
  obtain ⟨m, hm⟩ := exists_generate_greeter
  obtain ⟨plans, name, hplans, hname, -, htext, -⟩ := generate_ok hm
  obtain rfl : [callPlan, sayPlan] = plans := Except.ok.inj (plan_greeter.symm.trans hplans)
  cases hname
  have hquotes : docText "\"Ann\"" = "\\\"Ann\\\"" := by decide
  have hcollapsed : collapse "\"Ann\"" = "\"Ann\"" := by decide
  have hhelp : parameterHelp { name := "name", typeTag := "text", help := some "\"Ann\"" } = "\"Ann\"" := by
    decide
  have hread : readManual (manualText (docText "\"Ann\"")).toList = "\\\"Ann\\\"".toList := by
    rw [readManual_manualText, collapse_docText, hquotes]
  have hpage : ∃ before, manualPage greeterSetting [callPlan, sayPlan] =
      before ++ ".RS\n.B name\n" ++ manualText (docText "\"Ann\"") ++ "\n.RE\n" ++ "" := by
    have hmark : ".RS\n.B name\n" = ".RS\n.B " ++ "name" ++ "\n" := by decide
    rw [manualPage_eq, hmark]
    simp only [List.map_cons, List.map_nil, CommandPlan.text_entry, callPlan, sayPlan,
      String.join_cons, String.join_nil, String.append_empty, ← String.append_assoc]
    exact ⟨_, rfl⟩
  obtain ⟨before, hpage⟩ := hpage
  refine ⟨m, _, before, _, "", hm, ?_, hpage, _, List.mem_cons_of_mem _ (.head _), by decide, hhelp,
    not_mem_manualText _, hread, ?_⟩
  · rw [htext]
    exact hasManual_of_manPages rfl _
  · rw [hread, hhelp, hcollapsed]
    decide

end CommandOntology.Generation
