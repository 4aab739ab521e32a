import CommandOntology.Proofs.ModuleBlocks
import CommandOntology.Proofs.WrittenQueries

set_option autoImplicit false

namespace CommandOntology.Text

def unifyLines : List Char → List Char
  | [] => []
  | '\r' :: '\n' :: rest => '\n' :: unifyLines rest
  | '\r' :: rest => '\n' :: unifyLines rest
  | c :: rest => c :: unifyLines rest

def threeQuotes : List Char :=
  ['"', '"', '"']

/-- Splits a source where a text between three quotes ends: what belongs to it, still escaped, and what
follows its quotes. A backslash takes the next character with it, which `escaped` says has to be taken. -/
def splitLong? : (escaped : Bool) → List Char → Option (List Char × List Char)
  | _, [] => none
  | true, c :: rest => (splitLong? false rest).map fun r => (c :: r.1, r.2)
  | false, c :: rest =>
    match dropBeginning? threeQuotes (c :: rest) with
    | some after => some ([], after)
    | none => (splitLong? (c == '\\') rest).map fun r => (c :: r.1, r.2)

def controlEscape? : Char → Option Char
  | 'a' => some '\x07'
  | 'b' => some '\x08'
  | 'f' => some '\x0c'
  | 'v' => some '\x0b'
  | _ => none

def isOctalDigit (c : Char) : Bool :=
  '0' ≤ c && c ≤ '7'

def bracedName? (text : List Char) : Option (List Char) :=
  (dropBeginning? ['\x7b'] text).bind fun rest =>
    match partitionAt '\x7d' rest with
    | (name, some _) => some name
    | (_, none) => none

/-- An escape after its backslash: what it stands for, and how many characters were read. The end of a line
is left out, and what is no escape stands for itself. The characters with a name are `named`. -/
def longEscape? (named : List Char → Option Char) : List Char → Option (List Char × Nat)
  | [] => none
  | code :: rest =>
    if code = '\n' then some ([], 1)
    else if isOctalDigit code then
      let digits := (code :: rest.take 2).takeWhile isOctalDigit
      some ([Char.ofNat (digits.foldl (fun n c => 8 * n + hexValue c) 0)], digits.length)
    else if code = 'N' then do
      let name ← bracedName? rest
      let c ← named name
      return ([c], name.length + 3)
    else
      match controlEscape? code with
      | some c => some ([c], 1)
      | none =>
        if (sourceEscapedChar? code).isSome || (sourceEscapeLength? code).isSome then
          (readSourceEscape? (code :: rest)).map fun r => ([r.1], r.2)
        else some (['\\', code], 1)

def decodeLong? (named : List Char → Option Char) : (skip : Nat) → List Char → Option (List Char)
  | _, [] => some []
  | skip + 1, _ :: rest => decodeLong? named skip rest
  | 0, c :: rest =>
    if c = '\\' then
      match longEscape? named rest with
      | some (chars, length) => (decodeLong? named length rest).map (chars ++ ·)
      | none => none
    else (decodeLong? named 0 rest).map (c :: ·)

/-- Reads a text between three quotes at the start of a source: the text, and what follows it. No source has
a null character. -/
def readLong? (named : List Char → Option Char) (source : List Char) : Option (List Char × List Char) :=
  if source.contains '\x00' then none
  else do
    let rest ← dropBeginning? threeQuotes (unifyLines source)
    let (body, after) ← splitLong? false rest
    let text ← decodeLong? named 0 body
    return (text, after)

theorem unifyLines_append {part : List Char} (h : '\r' ∉ part) (rest : List Char) :
    unifyLines (part ++ rest) = part ++ unifyLines rest := by
  have hother (c : Char) (text : List Char) (hc : c ≠ '\r') :
      unifyLines (c :: text) = c :: unifyLines text := by
    rw [unifyLines]
    · exact fun _ h _ => hc h
    · exact hc
  induction part with
  | nil => rfl
  | cons c part ih =>
    rw [List.mem_cons, not_or] at h
    rw [List.cons_append, hother c _ (Ne.symm h.1), ih h.2, List.cons_append]

def IsPlain (c : Char) : Prop :=
  c ≠ '"' ∧ c ≠ '\\' ∧ c ≠ '\r' ∧ c ≠ '\x00'

instance decidableIsPlain (c : Char) : Decidable (IsPlain c) :=
  inferInstanceAs (Decidable (_ ∧ _))

/-- A source spells a text out: quotes and backslashes have a backslash in front of them. -/
inductive Spells : List Char → List Char → Prop
  | nil : Spells [] []
  | plain {c : Char} {body text : List Char} (hc : IsPlain c) (h : Spells body text) :
    Spells (c :: body) (c :: text)
  | escaped {c : Char} {body text : List Char} (hc : c = '"' ∨ c = '\\') (h : Spells body text) :
    Spells ('\\' :: c :: body) (c :: text)

namespace Spells

theorem append {body text body' text' : List Char} (h : Spells body text) (h' : Spells body' text') :
    Spells (body ++ body') (text ++ text') := by
  induction h with
  | nil => exact h'
  | plain hc _ ih => exact .plain hc ih
  | escaped hc _ ih => exact .escaped hc ih

theorem of_plain {text : List Char} (h : ∀ c ∈ text, IsPlain c) : Spells text text := by
  induction text with
  | nil => exact .nil
  | cons c rest ih =>
    obtain ⟨hc, hrest⟩ := List.forall_mem_cons.1 h
    exact .plain hc (ih hrest)

variable {body text : List Char} (h : Spells body text)

include h

theorem not_mem : '\x00' ∉ body ∧ '\r' ∉ body := by
  induction h with
  | nil => simp
  | plain hc _ ih => simp [ih, hc.2.2.1.symm, hc.2.2.2.symm]
  | escaped hc _ ih => obtain rfl | rfl := hc <;> simpa using ih

theorem splitLong?_append (rest : List Char) :
    splitLong? false (body ++ threeQuotes ++ rest) = some (body, rest) := by
  induction h with
  | nil => rfl
  | @plain c body text hc _ ih =>
    obtain ⟨hquote, hslash, -⟩ := hc
    simp only [List.cons_append, splitLong?, dropBeginning?, threeQuotes, if_neg (Ne.symm hquote),
      beq_eq_false_iff_ne.2 hslash]
    rw [← threeQuotes, ih]
    rfl
  | escaped hc _ ih =>
    have hnone (rest : List Char) : dropBeginning? threeQuotes ('\\' :: rest) = none := rfl
    simp only [List.cons_append, splitLong?, hnone, beq_self_eq_true, ih, Option.map_some]

theorem decodeLong?_eq (named : List Char → Option Char) : decodeLong? named 0 body = some text := by
  induction h with
  | nil => rfl
  | plain hc _ ih =>
    rw [decodeLong?, if_neg hc.2.1, ih]
    rfl
  | @escaped c body text hc _ ih =>
    have hescape : longEscape? named (c :: body) = some ([c], 1) := by
      obtain rfl | rfl := hc <;> rfl
    rw [decodeLong?, if_pos rfl, hescape]
    simp only [decodeLong?, ih]
    rfl

/-- A text that is spelled out between three quotes is read as itself, whatever follows it. -/
theorem readLong?_append (named : List Char → Option Char) {rest : List Char} (hrest : '\x00' ∉ rest) :
    readLong? named (threeQuotes ++ body ++ threeQuotes ++ rest) = some (text, unifyLines rest) := by
  obtain ⟨hnull, hreturn⟩ := h.not_mem
  have hsource : '\x00' ∉ threeQuotes ++ body ++ threeQuotes ++ rest := by
    simp [threeQuotes, hnull, hrest]
  have hlines : '\r' ∉ threeQuotes ++ body ++ threeQuotes := by
    simp [threeQuotes, hreturn]
  have hopen (rest : List Char) : dropBeginning? threeQuotes (threeQuotes ++ rest) = some rest := rfl
  rw [readLong?, if_neg (by simpa using hsource), unifyLines_append hlines, List.append_assoc,
    List.append_assoc, hopen]
  simp only [Option.bind_eq_bind, Option.bind_some]
  rw [← List.append_assoc, h.splitLong?_append, Option.bind_some, h.decodeLong?_eq named, Option.bind_some]
  rfl

end Spells

end CommandOntology.Text

namespace CommandOntology.Generation

open CommandOntology.Text

theorem spells_docText {text : String} (h : '\x00' ∉ text.toList) :
    Spells (docText text).toList (collapse text).toList := by
  have hnull : '\x00' ∉ (collapse text).toList := fun hin => h ((mem_collapse_iff (by decide) text).1 hin)
  have hreturn : '\r' ∉ (collapse text).toList := not_mem_collapse (by decide) (by decide)
  rw [toList_docText]
  generalize (collapse text).toList = chars at hnull hreturn
  induction chars with
  | nil => exact .nil
  | cons c rest ih =>
    rw [List.mem_cons, not_or] at hnull hreturn
    have hchar : Spells (docChar c) [c] := by
      unfold docChar
      split_ifs with hc
      · exact .escaped hc .nil
      · exact .plain ⟨fun h => hc (.inl h), fun h => hc (.inr h), Ne.symm hreturn.1, Ne.symm hnull.1⟩ .nil
    exact hchar.append (ih hnull.2 hreturn.2)

/-- A passage of a doc string: a part of its template, or a text that is put there. -/
inductive Passage
  | fixed (text : String)
  | given (text : String)

namespace Passage

def source : Passage → String
  | fixed text => text
  | given text => docText text

def content : Passage → String
  | fixed text => text
  | given text => collapse text

def IsReadable : Passage → Prop
  | fixed text => ∀ c ∈ text.toList, IsPlain c
  | given text => '\x00' ∉ text.toList

theorem spells {p : Passage} (h : p.IsReadable) : Spells p.source.toList p.content.toList := by
  cases p with
  | fixed text => exact .of_plain h
  | given text => exact spells_docText h

end Passage

def docSource (passages : List Passage) : String :=
  String.join (passages.map Passage.source)

@[simp] theorem docSource_append (ps qs : List Passage) :
    docSource (ps ++ qs) = docSource ps ++ docSource qs := by
  simp [docSource]

@[simp] theorem docSource_cons (p : Passage) (ps : List Passage) :
    docSource (p :: ps) = p.source ++ docSource ps := by
  simp [docSource]

@[simp] theorem docSource_nil : docSource [] = "" :=
  rfl

theorem mem_docSource {p : Passage} {doc : List Passage} (hp : p ∈ doc) {c : Char}
    (hc : c ∈ p.source.toList) : c ∈ (docSource doc).toList := by
  obtain ⟨before, after, rfl⟩ := List.append_of_mem hp
  simp [hc]

def docContent (passages : List Passage) : String :=
  String.join (passages.map Passage.content)

theorem spells_docSource {passages : List Passage} (h : ∀ p ∈ passages, p.IsReadable) :
    Spells (docSource passages).toList (docContent passages).toList := by
  induction passages with
  | nil => exact .nil
  | cons p rest ih =>
    obtain ⟨hp, hrest⟩ := List.forall_mem_cons.1 h
    have hparts := (Passage.spells hp).append (ih hrest)
    simpa [docContent] using hparts

theorem readLong?_docString {passages : List Passage} (h : ∀ p ∈ passages, p.IsReadable)
    (named : List Char → Option Char) {rest : List Char} (hrest : '\x00' ∉ rest) :
    readLong? named ((docString (docSource passages)).toList ++ rest) =
      some ((docContent passages).toList, unifyLines rest) := by
  have hread := (spells_docSource h).readLong?_append named hrest
  rw [docString, String.toList_append, String.toList_append]
  exact hread

def headerDoc (s : Setting) (plans : List CommandPlan) : List Passage :=
  [.given s.name, .fixed " command-line interface.\n\nGenerated by ontocli from an ontology with ",
    .fixed (toString plans.length), .fixed " command(s).\nDo not edit by hand; regenerate instead.\n"]

def holderDoc (c : CommandPlan) : List Passage :=
  [.fixed "Arguments of \x60", .given c.qualifiedName, .fixed "\x60."]

def handlerDoc (c : CommandPlan) : List Passage :=
  [.given c.help, .fixed "\n\n    Bound to ", .given c.binding, .fixed ".\n    "]

def parameterDoc (p : Parameter) : List Passage :=
  [.fixed "        ", .fixed p.ident, .fixed ": ", .given p.help, .fixed "\n"]

def wiringDoc (c : CommandPlan) : List Passage :=
  [.given c.help, .fixed "\n"] ++
    (if c.parameters.isEmpty then [] else .fixed "\n    Args:\n" :: c.parameters.flatMap parameterDoc) ++
    [.fixed "    "]

/-- The doc strings of the functions that a module has beside those of its commands. -/
def rootDoc (s : Setting) : List Passage :=
  [.given s.help]

def manualDoc : List Passage :=
  [.fixed "Print the manual page in roff format."]

/-- The doc strings of a module, each with its indentation. All but the one at the top are left out unless the
module is to have them. -/
inductive HasDocString (s : Setting) (plans : List CommandPlan) : String → List Passage → Prop
  | header : HasDocString s plans "" (headerDoc s plans)
  | holder (hdocs : s.features.has .docBlocks = true) {c : CommandPlan} (hc : c ∈ plans) :
    HasDocString s plans "    " (holderDoc c)
  | handler (hdocs : s.features.has .docBlocks = true) {c : CommandPlan} (hc : c ∈ plans) :
    HasDocString s plans "    " (handlerDoc c)
  | wiring (hdocs : s.features.has .docBlocks = true) {c : CommandPlan} (hc : c ∈ plans) :
    HasDocString s plans "    " (wiringDoc c)
  | root (hdocs : s.features.has .docBlocks = true) : HasDocString s plans "    " (rootDoc s)
  | manual (hdocs : s.features.has .docBlocks = true) (hmanual : s.features.has .manPages = true) :
    HasDocString s plans "    " manualDoc

def IsWrittenIn (block : Block) (indent : String) (doc : List Passage) : Prop :=
  ∃ part, part <:+: block ∧ linesText part = indent ++ docString (docSource doc) ++ "\n"

theorem linesText_lines (texts : List String) :
    linesText (lines texts) = String.join (texts.map (· ++ "\n")) := by
  rw [linesText, lines, List.map_map]
  rfl

theorem isWrittenIn_header (s : Setting) (plans : List CommandPlan) :
    IsWrittenIn (header s plans) "" (headerDoc s plans) := by
  have hfirst : " command-line interface.\n\nGenerated by ontocli from an ontology with " =
      " command-line interface." ++ "\n" ++ "\n" ++ "Generated by ontocli from an ontology with " := by
    decide +kernel
  have hlast : " command(s).\nDo not edit by hand; regenerate instead.\n" =
      " command(s)." ++ "\n" ++ "Do not edit by hand; regenerate instead." ++ "\n" := by
    decide +kernel
  refine ⟨lines ["\"\"\"" ++ docText s.name ++ " command-line interface.", "",
    "Generated by ontocli from an ontology with " ++ toString plans.length ++ " command(s).",
    "Do not edit by hand; regenerate instead.", "\"\"\""], ?_, ?_⟩
  · exact List.IsPrefix.isInfix (by simp [header, lines])
  · simp only [linesText_lines, headerDoc, docSource_cons, docSource_nil, Passage.source, docString, hfirst,
      hlast, List.map_cons, List.map_nil, String.join_cons, String.join_nil, String.append_assoc,
      String.empty_append, String.append_empty]

section

variable {s : Setting} (hdocs : s.features.has .docBlocks = true)

include hdocs

theorem isWrittenIn_holder (c : CommandPlan) : IsWrittenIn (holder s c) "    " (holderDoc c) := by
  refine ⟨lines ["    " ++ docString ("Arguments of \x60" ++ docText c.qualifiedName ++ "\x60.")], ?_, ?_⟩
  · simp [holder, hdocs, linesIf, lines, List.infix_cons_iff]
  · simp [linesText_lines, holderDoc, Passage.source, docString, ← String.toList_inj]

theorem isWrittenIn_handler (c : CommandPlan) : IsWrittenIn (handler s c) "    " (handlerDoc c) := by
  refine ⟨lines ["    \"\"\"" ++ docText c.help, "", "    Bound to " ++ docText c.binding ++ ".",
    "    \"\"\""], ?_, ?_⟩
  · simp [handler, hdocs, linesIf, lines, List.infix_cons_iff]
  · simp [linesText_lines, handlerDoc, Passage.source, docString, ← String.toList_inj]

theorem isWrittenIn_rootApp : IsWrittenIn (rootApp s) "    " (rootDoc s) := by
  refine ⟨lines ["    " ++ docString (docText s.help)], ?_, ?_⟩
  · rw [rootApp, hdocs]
    exact (List.suffix_append_of_suffix (by simp [lines, List.suffix_cons_iff])).isInfix
  · simp [linesText_lines, rootDoc, Passage.source]

theorem isWrittenIn_manualCommand (plans : List CommandPlan) :
    IsWrittenIn (manualCommand s plans) "    " manualDoc := by
  refine ⟨lines ["    " ++ docString "Print the manual page in roff format."], ?_, ?_⟩
  · simp [manualCommand, hdocs, linesIf, lines, List.infix_cons_iff]
  · simp [linesText_lines, manualDoc, Passage.source]

theorem isWrittenIn_wiring (app : String) (c : CommandPlan) :
    IsWrittenIn (wiring s app c) "    " (wiringDoc c) := by
  refine ⟨lines ["    \"\"\"" ++ docText c.help] ++
    linesIf (!c.parameters.isEmpty) (["", "    Args:"] ++
      c.parameters.map fun p => "        " ++ p.ident ++ ": " ++ docText p.help) ++
    lines ["    \"\"\""], ?_, ?_⟩
  · rw [wiring, hdocs, if_pos rfl]
    exact List.infix_append _ _ _
  · have hparameters (ps : List Parameter) :
        linesText (lines (ps.map fun p => "        " ++ p.ident ++ ": " ++ docText p.help)) =
          docSource (ps.flatMap parameterDoc) := by
      induction ps with
      | nil => rfl
      | cons p rest ih =>
        rw [linesText_lines] at ih ⊢
        simp only [List.map_cons, String.join_cons, ih, List.flatMap_cons, docSource_append]
        simp [parameterDoc, Passage.source, ← String.toList_inj]
    have htop : linesText (lines ["    \"\"\"" ++ docText c.help]) =
        "    \"\"\"" ++ docSource [.given c.help, .fixed "\n"] := by
      simp [linesText_lines, Passage.source, ← String.toList_inj]
    have hbottom : linesText (lines ["    \"\"\""]) = docSource [.fixed "    "] ++ "\"\"\"\n" := by
      simp [linesText_lines, Passage.source]
    have hmiddle : linesText (linesIf (!c.parameters.isEmpty) (["", "    Args:"] ++
        c.parameters.map fun p => "        " ++ p.ident ++ ": " ++ docText p.help)) =
        docSource (if c.parameters.isEmpty then [] else
          .fixed "\n    Args:\n" :: c.parameters.flatMap parameterDoc) := by
      cases c.parameters.isEmpty with
      | true => rfl
      | false =>
        have hsplit (texts : List String) : lines (["", "    Args:"] ++ texts) =
          lines ["", "    Args:"] ++ lines texts := rfl
        simp only [linesIf, Bool.not_false, if_true, Bool.false_eq_true, if_false, hsplit, linesText_append,
          hparameters, docSource_cons]
        rfl
    rw [linesText_append, linesText_append, htop, hmiddle, hbottom, wiringDoc, docSource_append,
      docSource_append]
    simp [docString, ← String.toList_inj]

end

theorem HasDocString.exists_isWrittenIn {s : Setting} {plans : List CommandPlan} {indent : String}
    {doc : List Passage} (h : HasDocString s plans indent doc) :
    ∃ block ∈ blocks s plans, IsWrittenIn block indent doc := by
  cases h with
  | header => exact ⟨_, header_mem_blocks s, isWrittenIn_header s plans⟩
  | @holder hdocs c hc => exact ⟨_, holder_mem_blocks s hc, isWrittenIn_holder hdocs c⟩
  | @handler hdocs c hc => exact ⟨_, handler_mem_blocks s hc, isWrittenIn_handler hdocs c⟩
  | @wiring hdocs c hc =>
    obtain ⟨app, hwiring⟩ := exists_wiring_mem_blocks s hc
    exact ⟨_, hwiring, isWrittenIn_wiring hdocs app c⟩
  | root hdocs => exact ⟨_, rootApp_mem_blocks s, isWrittenIn_rootApp hdocs⟩
  | manual hdocs hmanual =>
    exact ⟨_, manualCommand_mem_blocks s hmanual, isWrittenIn_manualCommand hdocs plans⟩

theorem isPlain_of_word {c : Char} (h : c.toNat < 128 → (isAsciiAlphanumeric c || c == '_') = true) :
    IsPlain c := by
  have hother (d : Char) (hd : d.toNat < 128) (hnot : (isAsciiAlphanumeric d || d == '_') = false) :
      c ≠ d := by
    rintro rfl
    rw [h hd] at hnot
    cases hnot
  exact ⟨hother _ (by decide) (by decide), hother _ (by decide) (by decide), hother _ (by decide) (by decide),
    hother _ (by decide) (by decide)⟩

def HasPlainParts (doc : List Passage) : Prop :=
  ∀ text, .fixed text ∈ doc → ∀ c ∈ text.toList, IsPlain c

theorem HasPlainParts.append {doc doc' : List Passage} (h : HasPlainParts doc) (h' : HasPlainParts doc') :
    HasPlainParts (doc ++ doc') :=
  fun text htext => (List.mem_append.1 htext).elim (h text) (h' text)

theorem hasPlainParts_nil : HasPlainParts [] :=
  fun _ h => absurd h List.not_mem_nil

theorem HasPlainParts.fixed {part : String} {doc : List Passage} (hpart : ∀ c ∈ part.toList, IsPlain c)
    (h : HasPlainParts doc) : HasPlainParts (.fixed part :: doc) := by
  intro text htext
  obtain htext | htext := List.mem_cons.1 htext
  · cases htext
    exact hpart
  · exact h text htext

theorem HasPlainParts.given {said : String} {doc : List Passage} (h : HasPlainParts doc) :
    HasPlainParts (.given said :: doc) := by
  intro text htext
  exact h text ((List.mem_cons.1 htext).resolve_left (by simp))

theorem hasPlainParts_headerDoc (s : Setting) (plans : List CommandPlan) :
    HasPlainParts (headerDoc s plans) := by
  have hcount : ∀ c ∈ (toString plans.length).toList, IsPlain c := by
    intro c hc
    rw [Query.toList_toString_nat] at hc
    exact isPlain_of_word fun _ => by
      rw [isAsciiAlphanumeric, isAsciiDigit_of_mem_integerDigits plans.length c hc]
      simp
  exact .given (.fixed (by decide +kernel) (.fixed hcount (.fixed (by decide +kernel) hasPlainParts_nil)))

theorem hasPlainParts_wiringDoc {c : CommandPlan}
    (hidents : ∀ p ∈ c.parameters, isUsableIdentifier p.ident = true) : HasPlainParts (wiringDoc c) := by
  have hparameters : HasPlainParts (c.parameters.flatMap parameterDoc) := by
    intro text htext
    obtain ⟨p, hp, htext⟩ := List.mem_flatMap.1 htext
    have hident : ∀ c ∈ p.ident.toList, IsPlain c := fun c hc =>
      isPlain_of_word (isAsciiAlphanumeric_of_mem_identifier (hidents p hp) hc)
    have hplain : HasPlainParts (parameterDoc p) :=
      .fixed (by decide +kernel) (.fixed hident (.fixed (by decide +kernel)
        (.given (.fixed (by decide +kernel) hasPlainParts_nil))))
    exact hplain text htext
  refine ((HasPlainParts.fixed (by decide +kernel) hasPlainParts_nil).given.append ?_).append
    (.fixed (by decide +kernel) hasPlainParts_nil)
  split_ifs
  · exact hasPlainParts_nil
  · exact .fixed (by decide +kernel) hparameters

theorem HasDocString.hasPlainParts {s : Setting} {plans : List CommandPlan} {indent : String}
    {doc : List Passage} (h : HasDocString s plans indent doc)
    (hidents : ∀ c ∈ plans, ∀ p ∈ c.parameters, isUsableIdentifier p.ident = true) : HasPlainParts doc := by
  cases h with
  | header => exact hasPlainParts_headerDoc s plans
  | holder => exact .fixed (by decide +kernel) (.given (.fixed (by decide +kernel) hasPlainParts_nil))
  | handler =>
    exact .given (.fixed (by decide +kernel) (.given (.fixed (by decide +kernel) hasPlainParts_nil)))
  | wiring hdocs hc => exact hasPlainParts_wiringDoc (hidents _ hc)
  | root => exact .given hasPlainParts_nil
  | manual => exact .fixed (by decide +kernel) hasPlainParts_nil

/-- A doc string stands in the text of the module and is read there as what it says. -/
theorem HasDocString.exists_read {s : Setting} {plans : List CommandPlan} {indent : String}
    {doc : List Passage} (h : HasDocString s plans indent doc)
    (hidents : ∀ c ∈ plans, ∀ p ∈ c.parameters, isUsableIdentifier p.ident = true)
    (hfault : moduleFault? (blocks s plans) = none) :
    ∃ before after, moduleText (blocks s plans) =
        linesText before ++ indent ++ docString (docSource doc) ++ "\n" ++ linesText after ∧
      ∀ named, readLong? named (docString (docSource doc) ++ "\n" ++ linesText after).toList =
        some ((docContent doc).toList, unifyLines ("\n" ++ linesText after).toList) := by
  obtain ⟨block, hblock, part, hpart, hdoc⟩ := h.exists_isWrittenIn
  obtain ⟨before, after, htext⟩ := exists_moduleText_eq hblock hpart
  have hnull := (moduleFault?_eq_none_iff.1 hfault).1
  have hlines : moduleText (blocks s plans) =
      linesText before ++ indent ++ docString (docSource doc) ++ "\n" ++ linesText after := by
    rw [htext, hdoc]
    simp only [String.append_assoc]
  rw [hlines, IsClean] at hnull
  simp only [String.toList_append, List.mem_append, not_or] at hnull
  obtain ⟨⟨⟨-, hsource⟩, hline⟩, hafter⟩ := hnull
  have hreadable : ∀ p ∈ doc, p.IsReadable := by
    intro p hp
    cases p with
    | fixed text => exact h.hasPlainParts hidents text hp
    | given text =>
      intro hin
      have hwritten : '\x00' ∈ (docText text).toList := (mem_docText_iff (by decide) (by decide) text).2 hin
      exact hsource (by simp [docString, mem_docSource hp hwritten])
  refine ⟨before, after, hlines, fun named => ?_⟩
  rw [String.append_assoc, String.toList_append, readLong?_docString hreadable named]
  simp [hafter]

/-- A text without a null character does not leave a doc string. With the part of a template behind it, it
ends at the quotes that end it and at no others, and is read as itself: without white space around it, and
with one space for each run of white space. So is every doc string of a module that is generated. -/
theorem read_docString {text : String} (h : '\x00' ∉ text.toList) :
    (∀ tail : String, (∀ c ∈ tail.toList, IsPlain c) →
      (∀ rest, splitLong? false ((docText text ++ tail).toList ++ threeQuotes ++ rest) =
        some ((docText text ++ tail).toList, rest)) ∧
      ∀ named rest, '\x00' ∉ rest → readLong? named ((docString (docText text ++ tail)).toList ++ rest) =
        some ((collapse text).toList ++ tail.toList, unifyLines rest)) ∧
    (collapse text).toList = squeeze false (trim text.toList) ∧
    ∀ (generator : Generator) (features : Features) (index : CommandIndex) (m : GeneratedModule),
      generator.generate features index = .ok m →
        ∃ plans name, plan features index = .ok plans ∧ generator.name = .text name ∧
          ∀ indent doc, HasDocString ⟨name, generator.version, generator.help, features⟩ plans indent doc →
            ∃ before after, m.text =
                linesText before ++ indent ++ docString (docSource doc) ++ "\n" ++ linesText after ∧
              ∀ named, readLong? named (docString (docSource doc) ++ "\n" ++ linesText after).toList =
                some ((docContent doc).toList, unifyLines ("\n" ++ linesText after).toList) := by
  refine ⟨fun tail htail => ?_, toList_collapse_eq_squeeze text, fun generator features index m hm => ?_⟩
  · have hreadable : ∀ p ∈ [Passage.given text, .fixed tail], p.IsReadable := by
      simpa [Passage.IsReadable] using ⟨h, htail⟩
    have hsource : docSource [.given text, .fixed tail] = docText text ++ tail := by simp [Passage.source]
    have hcontent : (docContent [.given text, .fixed tail]).toList =
        (collapse text).toList ++ tail.toList := by
      simp [docContent, Passage.content]
    rw [← hsource, ← hcontent]
    exact ⟨(spells_docSource hreadable).splitLong?_append,
      fun named rest hrest => readLong?_docString hreadable named hrest⟩
  · obtain ⟨plans, name, hplans, hname, hfault, htext, -⟩ := generate_ok hm
    refine ⟨plans, name, hplans, hname, fun indent doc hdoc => ?_⟩
    rw [htext]
    exact hdoc.exists_read (isUsable_of_plan hplans) hfault

def quotesText : String :=
  "\"\"\" \\\t\u2028 \\\\\""

theorem read_docString_quotes :
    readLong? (fun _ => none) ((docString (docText quotesText ++ ".\n    ")).toList ++ ['\n']) =
      some ("\"\"\" \\ \\\\\".\n    ".toList, ['\n']) ∧
    ∃ m before after,
      greeter.generate greeterFeatures greeterIndex = .ok m ∧
      m.text = linesText before ++ "    " ++ docString (docSource (handlerDoc sayPlan)) ++ "\n" ++
        linesText after ∧
      ∀ named,
        readLong? named (docString (docSource (handlerDoc sayPlan)) ++ "\n" ++ linesText after).toList =
          some (".Say \"hello\" \\o/\n\n    Bound to app:say.\n    ".toList,
            unifyLines ("\n" ++ linesText after).toList) := by
  have hnull : '\x00' ∉ quotesText.toList := isClean_ofList (by decide)
  obtain ⟨htails, -, hmodules⟩ := read_docString hnull
  have hcollapse : (collapse quotesText).toList ++ ".\n    ".toList = "\"\"\" \\ \\\\\".\n    ".toList := by
    decide +kernel
  obtain ⟨m, hm⟩ := exists_generate_greeter
  obtain ⟨plans, name, hplans, hname, hdocs⟩ := hmodules _ _ _ m hm
  obtain rfl : [callPlan, sayPlan] = plans := Except.ok.inj (plan_greeter.symm.trans hplans)
  obtain ⟨before, after, htext, hread⟩ := hdocs _ _ (.handler rfl (List.mem_cons_of_mem _ (.head _)))
  have hcontent : docContent (handlerDoc sayPlan) = ".Say \"hello\" \\o/\n\n    Bound to app:say.\n    " := by
    decide +kernel
  rw [hcontent] at hread
  refine ⟨?_, m, before, after, hm, htext, hread⟩
  rw [← hcollapse]
  exact (htails ".\n    " (by decide +kernel)).2 _ ['\n'] (by decide)

end CommandOntology.Generation
