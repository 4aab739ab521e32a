import CommandOntology.Proofs.SharedWords
import CommandOntology.Proofs.SpelledStatements

set_option autoImplicit false

namespace CommandOntology.Turtle

open CommandOntology.Text

def IsGap (gap : List Char) : Prop :=
  ∀ c ∈ gap, isSpace c = true

def Lexeme.IsName : Lexeme → Prop
  | .iri _ => True
  | .name _ _ => True
  | _ => False

/-- The text of a term that is no node, and what documents read it as: a reference or a prefixed name, a
quoted text with or without a language tag or a datatype, a number or a truth value. -/
inductive IsTermText : List Char → List Lexeme → Prop
  | name {word : List Char} {l : Lexeme} (h : IsWord word l) (hl : l.IsName) : IsTermText word [l]
  | plain {word : List Char} {value : String} (h : IsWord word (.text value)) :
      IsTermText word [.text value]
  | tagged {word gap tagWord : List Char} {value tag : String} (h : IsWord word (.text value))
      (hgap : IsGap gap) (htag : IsWord tagWord (.languageTag tag)) :
      IsTermText (word ++ (gap ++ tagWord)) [.text value, .languageTag tag]
  | typed {word gap gap' typeWord : List Char} {value : String} {l : Lexeme}
      (h : IsWord word (.text value)) (hgap : IsGap gap) (hgap' : IsGap gap') (htype : IsWord typeWord l)
      (hl : l.IsName) :
      IsTermText (word ++ (gap ++ '^' :: '^' :: (gap' ++ typeWord))) [.text value, .mark .datatype, l]
  | number {word : List Char} {kind : NumberKind} {digits : String}
      (h : IsWord word (.number kind digits)) : IsTermText word [.number kind digits]
  | truth {word : List Char} {w : String} (h : IsWord word (.word w)) (hw : w = "true" ∨ w = "false") :
      IsTermText word [.word w]

structure GroundTerm where
  chars : List Char
  lexemes : List Lexeme
  isWritten : IsTermText chars lexemes

/-- A statement as it is written: three terms with white space between them, and a point. -/
structure GroundStatement where
  subject : GroundTerm
  predicate : GroundTerm
  object : GroundTerm
  afterSubject : List Char
  afterPredicate : List Char
  afterObject : List Char
  isGap_afterSubject : IsGap afterSubject ∧ afterSubject ≠ []
  isGap_afterPredicate : IsGap afterPredicate ∧ afterPredicate ≠ []
  isGap_afterObject : IsGap afterObject

namespace GroundStatement

def chars (st : GroundStatement) : List Char :=
  st.subject.chars ++ (st.afterSubject ++ (st.predicate.chars ++ (st.afterPredicate ++
    (st.object.chars ++ (st.afterObject ++ ['.'])))))

def text (st : GroundStatement) : String :=
  String.ofList st.chars

def lexemes (st : GroundStatement) : List Lexeme :=
  st.subject.lexemes ++ (st.predicate.lexemes ++ (st.object.lexemes ++ [.mark .dot]))

end GroundStatement

section

variable {gap more : List Char}

theorem lexemes?_gap (h : IsGap gap) (more : List Char) : lexemes? (gap ++ more) = lexemes? more := by
  induction gap with
  | nil => rfl
  | cons c gap ih =>
    rw [List.cons_append, lexemes?_layout c _ (isLayout_of_isSpace (h c List.mem_cons_self)),
      ih fun d hd => h d (List.mem_cons_of_mem c hd)]

theorem breaks_gap (h : IsGap gap) (hne : gap ≠ []) (more : List Char) : Breaks (gap ++ more) := by
  cases gap with
  | nil => exact absurd rfl hne
  | cons c gap => exact .inl (h c List.mem_cons_self)

theorem breaks_end (h : IsGap gap) (hmore : ∀ c ∈ more.head?, isSpace c = true) :
    Breaks (gap ++ '.' :: more) := by
  cases gap with
  | nil => exact .inr ⟨rfl, hmore⟩
  | cons c gap => exact .inl (h c List.mem_cons_self)

theorem endsBefore_text (value : String) {c : Char} (hgap : IsGap gap) (hc : c ≠ '"' ∧ c ≠ '\'') :
    (Lexeme.text value).EndsBefore (gap ++ c :: more) := by
  cases gap with
  | nil => simpa [Lexeme.EndsBefore] using hc
  | cons d gap =>
    have hd := hgap d List.mem_cons_self
    refine ⟨?_, ?_⟩
    all_goals
      rintro ⟨⟩
      exact absurd hd (by decide)

theorem endsBefore_of_breaks (l : Lexeme) (h : Breaks more) : l.EndsBefore more := by
  cases l with
  | text value => exact ⟨h.head_ne_quote (.inl rfl), h.head_ne_quote (.inr rfl)⟩
  | _ => exact h

theorem exists_cons_of_tag {word : List Char} {tag : String} (h : IsWord word (.languageTag tag)) :
    ∃ rest, word = '@' :: rest := by
  obtain ⟨c, rest, rfl, -, -, hscan⟩ := h
  obtain ⟨rfl, -⟩ := isScanned_of_scan hscan
  exact ⟨rest, rfl⟩

theorem IsTermText.lexemes? {text : List Char} {ls : List Lexeme} (h : IsTermText text ls) (hmore : Breaks more) :
    lexemes? (text ++ more) = (Turtle.lexemes? more).map (ls ++ ·) := by
  cases h with
  | name h => exact lexemes?_isWord h (endsBefore_of_breaks _ hmore)
  | plain h => exact lexemes?_isWord h (endsBefore_of_breaks _ hmore)
  | number h => exact lexemes?_isWord h (endsBefore_of_breaks _ hmore)
  | truth h => exact lexemes?_isWord h (endsBefore_of_breaks _ hmore)
  | @tagged word gap tagWord value tag h hgap htag =>
    have hrest : Turtle.lexemes? (gap ++ (tagWord ++ more)) =
        (Turtle.lexemes? more).map (.languageTag tag :: ·) :=
      (lexemes?_gap hgap _).trans (lexemes?_isWord htag (endsBefore_of_breaks _ hmore))
    have hend : (Lexeme.text value).EndsBefore (gap ++ (tagWord ++ more)) := by
      obtain ⟨rest, rfl⟩ := exists_cons_of_tag htag
      exact endsBefore_text value hgap (by decide)
    rw [List.append_assoc, List.append_assoc, lexemes?_isWord h hend, hrest, Option.map_map]
    rfl
  | @typed word gap gap' typeWord value l h hgap hgap' htype =>
    have hname : Turtle.lexemes? (gap' ++ (typeWord ++ more)) = (Turtle.lexemes? more).map (l :: ·) :=
      (lexemes?_gap hgap' _).trans (lexemes?_isWord htype (endsBefore_of_breaks _ hmore))
    have hrest : Turtle.lexemes? (gap ++ '^' :: '^' :: (gap' ++ (typeWord ++ more))) =
        (Turtle.lexemes? more).map (.mark .datatype :: l :: ·) := by
      rw [lexemes?_gap hgap, lexemes?_datatype, hname, Option.map_map]
      rfl
    have hend : (Lexeme.text value).EndsBefore (gap ++ '^' :: '^' :: (gap' ++ (typeWord ++ more))) :=
      endsBefore_text value hgap (by decide)
    simp only [List.append_assoc, List.cons_append]
    rw [lexemes?_isWord h hend, hrest, Option.map_map]
    rfl

theorem GroundStatement.lexemes?_chars (st : GroundStatement) : lexemes? st.chars = some st.lexemes := by
  have hend : lexemes? (st.afterObject ++ ['.']) = some [.mark .dot] :=
    (lexemes?_gap st.isGap_afterObject _).trans rfl
  have hbreaks : Breaks (st.afterObject ++ ['.']) := breaks_end st.isGap_afterObject (by simp)
  have hobject := st.object.isWritten.lexemes? hbreaks
  have hpredicate := st.predicate.isWritten.lexemes?
    (breaks_gap st.isGap_afterPredicate.1 st.isGap_afterPredicate.2
      (st.object.chars ++ (st.afterObject ++ ['.'])))
  have hsubject := st.subject.isWritten.lexemes?
    (breaks_gap st.isGap_afterSubject.1 st.isGap_afterSubject.2 (st.predicate.chars ++
      (st.afterPredicate ++ (st.object.chars ++ (st.afterObject ++ ['.'])))))
  rw [chars, hsubject, lexemes?_gap st.isGap_afterSubject.1, hpredicate,
    lexemes?_gap st.isGap_afterPredicate.1, hobject, hend]
  simp [lexemes]

end

def Scope.Names (s : Scope) (l : Lexeme) (iri : String) : Prop :=
  ∀ p, s.resolveIri? ⟨l, p⟩ = some (.ok iri)

/-- What lexemes denote where they are a term. -/
inductive Denotes (s : Scope) : List Lexeme → Term → Prop
  | name {l : Lexeme} {iri : String} (h : s.Names l iri) : Denotes s [l] (.iri iri)
  | plain (value : String) : Denotes s [.text value] (.plain value)
  | tagged (value tag : String) : Denotes s [.text value, .languageTag tag]
      (.literal value none (some (String.ofList (tag.toList.map asciiLower))))
  | typed (value : String) {l : Lexeme} {iri : String} (h : s.Names l iri) :
      Denotes s [.text value, .mark .datatype, l] (typedLiteral value iri)
  | number (kind : NumberKind) (digits : String) :
      Denotes s [.number kind digits] (.typed digits kind.datatype)
  | truth {w : String} (h : w = "true" ∨ w = "false") : Denotes s [.word w] (.typed w Xsd.boolean)

section

variable {stop : Position} {control : Control} {scope : Scope} {tokens : List Token} {l : Lexeme}
  {ls ls' : List Lexeme}

theorem names_of_resolveIri? {p : Position} {iri : String} (h : scope.resolveIri? ⟨l, p⟩ = some (.ok iri)) :
    scope.Names l iri := by
  intro q
  cases l with
  | iri reference =>
    simp only [Scope.resolveIri?, Option.some.injEq, Scope.resolveReference] at h ⊢
    split at h
    · cases h
    · split_ifs at h ⊢
      · exact h
      · split at h
        · cases h
        · exact h
  | name label name =>
    simp only [Scope.resolveIri?, Option.some.injEq, Scope.resolveName] at h ⊢
    split at h
    · exact h
    · cases h
  | _ => cases h

theorem exists_step (h : (run stop control scope tokens).2 = none)
    (ht : tokens.map (·.lexeme) = l :: ls) :
    ∃ p state, (step control scope ⟨l, p⟩).2 = .ok state ∧
      GoesOn stop control scope tokens ls state.1 state.2 := by
  obtain ⟨⟨l', p⟩, rest, rfl, hl, hrest⟩ := List.map_eq_cons_iff.1 ht
  cases hl
  rw [run] at h
  cases hstep : step control scope ⟨l', p⟩ with
  | mk scope₁ outcome =>
    cases outcome with
    | error e =>
      rw [hstep] at h
      cases h
    | ok state => exact ⟨p, state, by rw [hstep], rest, hrest, by rw [run, hstep]⟩

theorem goesOn_name (h : (run stop control scope tokens).2 = none)
    (ht : tokens.map (·.lexeme) = l :: ls) (hl : l.IsName) (f : Position → String → Control × Scope)
    (hstep : ∀ p x, scope.resolveIri? ⟨l, p⟩ = some x → (step control scope ⟨l, p⟩).2 = x.map (f p)) :
    ∃ p iri, scope.Names l iri ∧ GoesOn stop control scope tokens ls (f p iri).1 (f p iri).2 := by
  obtain ⟨p, state, hstate, hgoes⟩ := exists_step h ht
  obtain ⟨x, hx⟩ : ∃ x, scope.resolveIri? ⟨l, p⟩ = some x := by
    cases l with
    | iri reference => exact ⟨_, rfl⟩
    | name label name => exact ⟨_, rfl⟩
    | _ => exact hl.elim
  rw [hstep p x hx] at hstate
  obtain ⟨iri, rfl, rfl⟩ := (map_eq_ok_iff _ _ _).1 hstate
  exact ⟨p, iri, names_of_resolveIri? hx, hgoes⟩

theorem GoesOn.completes {control' : Control} {scope' : Scope}
    (h : (run stop control scope tokens).2 = none)
    (hgoes : GoesOn stop control scope tokens ls control' scope') :
    ∃ rest, rest.map (·.lexeme) = ls ∧ (run stop control' scope' rest).2 = none ∧
      run stop control scope tokens = run stop control' scope' rest := by
  obtain ⟨rest, hrest, hrun⟩ := hgoes
  exact ⟨rest, hrest, hrun ▸ h, hrun⟩

theorem false_of_fault (h : (run stop control scope tokens).2 = none)
    (ht : tokens.map (·.lexeme) = l :: ls)
    (hstep : ∀ p state, (step control scope ⟨l, p⟩).2 ≠ .ok state) : False := by
  obtain ⟨p, state, hstate, -⟩ := exists_step h ht
  exact hstep p state hstate

theorem goesOn_writtenSubject {text : List Char} {written : List Lexeme} (hw : IsTermText text written)
    (h : (run stop .statement scope tokens).2 = none) (ht : tokens.map (·.lexeme) = written ++ ls) :
    ∃ l iri, written = [l] ∧ scope.Names l iri ∧
      GoesOn stop .statement scope tokens ls (.predicate (.iri iri) .statement) scope := by
  cases hw with
  | @name word l _ hl =>
    obtain ⟨-, iri, hnames, hgoes⟩ := goesOn_name h ht hl
      (fun _ iri => (.predicate (.iri iri) .statement, scope)) fun p x hx => by
        cases l <;> first
          | exact hl.elim
          | simp [step, settle, settleLiteral, settleList, take, takeStatement, takeNode, hx, deliver]
    exact ⟨l, iri, rfl, hnames, hgoes⟩
  | plain => exact (false_of_fault h ht fun p state hs => by cases hs).elim
  | tagged => exact (false_of_fault h ht fun p state hs => by cases hs).elim
  | typed => exact (false_of_fault h ht fun p state hs => by cases hs).elim
  | number => exact (false_of_fault h ht fun p state hs => by cases hs).elim
  | truth _ hw =>
    exact (false_of_fault h ht fun p state hs => by obtain rfl | rfl := hw <;> cases hs).elim

theorem goesOn_writtenPredicate {subject : Term} {text : List Char} {written : List Lexeme}
    (hw : IsTermText text written) (h : (run stop (.predicate subject .statement) scope tokens).2 = none)
    (ht : tokens.map (·.lexeme) = written ++ ls) :
    ∃ l iri, written = [l] ∧ scope.Names l iri ∧
      GoesOn stop (.predicate subject .statement) scope tokens ls (.object subject (.iri iri) .statement)
        scope := by
  cases hw with
  | @name word l _ hl =>
    obtain ⟨-, iri, hnames, hgoes⟩ := goesOn_name h ht hl
      (fun _ iri => (.object subject (.iri iri) .statement, scope)) fun p x hx => by
        cases l <;> first
          | exact hl.elim
          | simp [step, settle, settleLiteral, settleList, take, takePredicate, hx]
    exact ⟨l, iri, rfl, hnames, hgoes⟩
  | plain => exact (false_of_fault h ht fun p state hs => by cases hs).elim
  | tagged => exact (false_of_fault h ht fun p state hs => by cases hs).elim
  | typed => exact (false_of_fault h ht fun p state hs => by cases hs).elim
  | number => exact (false_of_fault h ht fun p state hs => by cases hs).elim
  | truth _ hw =>
    exact (false_of_fault h ht fun p state hs => by obtain rfl | rfl := hw <;> cases hs).elim

/-- The object of a statement that is read denotes a term, with which the statement is given out at the
point behind it. -/
theorem goesOn_writtenObject {subject predicate : Term} {text : List Char} {written : List Lexeme}
    (hw : IsTermText text written) (h : (run stop (.object subject predicate .statement) scope tokens).2 = none)
    (ht : tokens.map (·.lexeme) = written ++ .mark .dot :: ls) :
    ∃ t line, Denotes scope written t ∧ GoesOn stop (.object subject predicate .statement) scope tokens ls
      .statement (scope.emit subject predicate t line) := by
  have hdot {scope' : Scope} (rest : List Token) (hrest : rest.map (·.lexeme) = .mark .dot :: ls) :
      GoesOn stop (.objectEnd subject predicate .statement) scope' rest ls .statement scope' :=
    goesOn_divider .dot hrest
  -- A name is resolved by the run itself, so that its success tells the IRI; the other forms are spelled.
  cases hw with
  | @name word l _ hl =>
    obtain ⟨p, iri, hnames, hgoes⟩ := goesOn_name h ht hl
      (fun p iri => (.objectEnd subject predicate .statement, scope.emit subject predicate (.iri iri) p.line))
      fun p x hx => by
        cases l <;> first
          | exact hl.elim
          | simp [step, settle, settleLiteral, settleList, take, takeObject, takeNode, hx, deliver]
    exact ⟨.iri iri, p.line, .name hnames, hgoes.trans fun rest hrest => hdot rest hrest⟩
  | @number word kind digits =>
    obtain ⟨line, hgoes⟩ := goesOn_object .dot (Spells.number kind digits) ht
    exact ⟨_, line, .number kind digits, hgoes⟩
  | truth _ hw =>
    obtain ⟨line, hgoes⟩ := goesOn_object .dot (Spells.truth hw) ht
    exact ⟨_, line, .truth hw, hgoes⟩
  | @plain word value =>
    obtain ⟨line, hgoes⟩ := goesOn_object .dot (Spells.plain value) ht
    exact ⟨_, line, .plain value, hgoes⟩
  | @tagged word gap tagWord value tag =>
    obtain ⟨q, hgoes⟩ := goesOn_text ht
    exact ⟨_, q.line, .tagged value tag, hgoes.trans fun rest hrest =>
      (goesOn_languageTag String.toList_ofList.symm hrest).trans hdot⟩
  | @typed word gap gap' typeWord value l _ _ _ _ hl =>
    obtain ⟨q, hgoes⟩ := goesOn_text ht
    obtain ⟨rest, hrest, hcompletes, hrun⟩ := hgoes.completes h
    obtain ⟨rest', hrest', hcompletes', hrun'⟩ := (goesOn_datatypeSign hrest).completes hcompletes
    obtain ⟨-, iri, hnames, hname⟩ := goesOn_name hcompletes' hrest' hl
      (fun _ iri => (.objectEnd subject predicate .statement,
        scope.emit subject predicate (typedLiteral value iri) q.line)) fun r x hx => by
        cases l <;> first
          | exact hl.elim
          | simp [step, settle, settleLiteral, settleList, take, hx, deliver]
    exact ⟨_, q.line, .typed value hnames, .of_run (hrun.trans hrun') (hname.trans hdot)⟩

theorem goesOn_groundStatement (st : GroundStatement) (h : (run stop .statement scope tokens).2 = none)
    (ht : tokens.map (·.lexeme) = st.lexemes) :
    ∃ s p, ∃ subject predicate : String, ∃ object line,
      st.subject.lexemes = [s] ∧ st.predicate.lexemes = [p] ∧ scope.Names s subject ∧
      scope.Names p predicate ∧ Denotes scope st.object.lexemes object ∧
      run stop .statement scope tokens =
        (scope.emit (.iri subject) (.iri predicate) object line, none) := by
  obtain ⟨s, subject, hs, hsubject, hgoes⟩ := goesOn_writtenSubject st.subject.isWritten h ht
  obtain ⟨rest, hrest, hcompletes, hrun⟩ := hgoes.completes h
  obtain ⟨p, predicate, hp, hpredicate, hgoes'⟩ :=
    goesOn_writtenPredicate st.predicate.isWritten hcompletes hrest
  obtain ⟨rest', hrest', hcompletes', hrun'⟩ := hgoes'.completes hcompletes
  obtain ⟨object, line, hobject, hgoes''⟩ :=
    goesOn_writtenObject st.object.isWritten hcompletes' hrest'
  obtain ⟨last, hlast, -, hrun''⟩ := hgoes''.completes hcompletes'
  obtain rfl := List.map_eq_nil_iff.1 hlast
  exact ⟨s, p, subject, predicate, object, line, hs, hp, hsubject, hpredicate, hobject,
    hrun.trans (hrun'.trans hrun'')⟩

/-- Only between statements is nothing to be settled before the end. -/
theorem eq_statement_of_settle {next : Option Lexeme}
    (h : (settle control scope next).1 = .statement) :
    control = .statement ∧ settle control scope next = (.statement, scope) := by
  cases control with
  | statement => exact ⟨rfl, rfl⟩
  | literalMark value use =>
    exfalso
    revert h
    cases use <;> cases hc : continuesLiteral next <;>
      simp [settle, settleLiteral, hc, deliver, settleList]
    all_goals split <;> simp
  | objectEnd subject predicate context =>
    exfalso
    revert h
    simp only [settle, settleLiteral, settleList]
    split <;> simp
  | semicolon subject context =>
    exfalso
    revert h
    simp only [settle, settleLiteral, settleList]
    split <;> simp
  | _ => cases h

theorem run_append {stop stop' : Position} (more : List Token) (h : (run stop control scope tokens).2 = none) :
    run stop' control scope (tokens ++ more) = run stop' .statement (run stop control scope tokens).1 more := by
  induction tokens generalizing control scope with
  | nil =>
    have hfinish : finish control scope stop = (scope, none) ∧ control = .statement := by
      rw [run] at h
      cases hsettle : settle control scope none with
      | mk control₁ scope₁ =>
        rw [finish, hsettle] at h
        have hstatement : (settle control scope none).1 = .statement := by
          cases control₁ <;> first
            | exact congrArg Prod.fst hsettle
            | cases h
        obtain ⟨rfl, hsettled⟩ := eq_statement_of_settle hstatement
        exact ⟨rfl, rfl⟩
    rw [List.nil_append, run, hfinish.1, hfinish.2]
  | cons t tokens ih =>
    rw [List.cons_append, run, run]
    rw [run] at h
    cases hstep : step control scope t with
    | mk scope₁ outcome =>
      rw [hstep] at h
      cases outcome with
      | error e => cases h
      | ok state => exact ih h

end

/-- The statements that a document makes, in the order in which they become complete. -/
def statements (options : ParserOptions) (text : String) : List Triple :=
  match lex text.toList with
  | .ok tokens => (documentRun options tokens).1.emitted.reverse.map (·.triple)
  | .error _ => []

section

variable {options : ParserOptions} {text : String} {d : Document}

theorem exists_run_of_parse (h : parse options text = .ok d) :
    ∃ tokens, lex text.toList = .ok tokens ∧ (documentRun options tokens).2 = none ∧
      d.triples = distinct (statements options text) ∧
      d.namespaces.entries = (documentRun options tokens).1.namespaces.entries ∧
      d.base = (documentRun options tokens).1.base := by
  rw [parse] at h
  split_ifs at h
  cases hlex : lex text.toList with
  | error fault =>
    rw [hlex] at h
    cases h
  | ok tokens =>
    rw [hlex] at h
    obtain ⟨hrun, triples, hrecord, rfl⟩ := parseTokens_ok h
    refine ⟨tokens, rfl, hrun, ?_, rfl, rfl⟩
    rw [statements, hlex]
    exact ((record_nil_eq_ok_iff _ _).1 hrecord).2

/-- Whether the words of a statement that stands behind a text are read as such: the words of both are
those of the text and then those of the statement. Neither is the statement a part of a comment, nor does
the last word of the text go on with it. -/
def GroundStatement.Follows (st : GroundStatement) (text : String) : Prop :=
  ∃ tokens tokens' : Tokens, ∃ more,
    lex text.toList = .ok tokens ∧ lex (text ++ st.text).toList = .ok tokens' ∧
      tokens'.tokens = tokens.tokens ++ more ∧ more.map (·.lexeme) = st.lexemes

theorem GroundStatement.follows_line (st : GroundStatement) {tokens : Tokens}
    (h : lex text.toList = .ok tokens) {indent : List Char} (hindent : IsGap indent) :
    st.Follows (text ++ "\n" ++ String.ofList indent) := by
  have hstate : LexerState.between.Fits text.toList := fun _ hs => by cases hs
  have hline (rest : List Char) := lexFrom_append_line rest hstate h
  have hlexes (rest : List Char) {ls : List Lexeme} (hrest : lexemes? rest = some ls) : ∃ more,
      lexFrom .between (tokens.stop.next '\n') rest = .ok more ∧ more.tokens.map (·.lexeme) = ls := by
    have hread := lexFrom_lexemes .between (tokens.stop.next '\n') rest
    rw [show lexemesFrom .between rest = some ls from hrest] at hread
    cases hmore : lexFrom .between (tokens.stop.next '\n') rest with
    | error fault =>
      rw [hmore] at hread
      cases hread
    | ok more =>
      rw [hmore] at hread
      exact ⟨more, rfl, Option.some.inj hread⟩
  obtain ⟨before, hbefore, hnone⟩ := hlexes indent (by simpa [lexemes?_nil] using lexemes?_gap hindent [])
  obtain ⟨more, hmore, hlexemes⟩ :=
    hlexes (indent ++ st.chars) ((lexemes?_gap hindent _).trans st.lexemes?_chars)
  have hindented := hline indent
  have hwhole := hline (indent ++ st.chars)
  rw [hbefore] at hindented
  rw [hmore] at hwhole
  refine ⟨⟨tokens.tokens ++ before.tokens, before.stop⟩, ⟨tokens.tokens ++ more.tokens, more.stop⟩,
    more.tokens, ?_, ?_, ?_, hlexemes⟩
  · simpa [lex, Except.map] using hindented
  · simpa [lex, GroundStatement.text, Except.map] using hwhole
  · simp [List.map_eq_nil_iff.1 hnone]

/-- Where a document ends with a statement, the statement denotes its terms under the namespaces and the
base of the document, and is the last that the document makes. -/
theorem exists_denotes_of_parse {st : GroundStatement} {d' : Document} (h : parse options text = .ok d)
    (hfollows : st.Follows text) (h' : parse options (text ++ st.text) = .ok d') :
    ∃ scope : Scope, scope.namespaces.entries = d'.namespaces.entries ∧ scope.base = d'.base ∧
      ∃ s p, ∃ subject predicate : String, ∃ object,
        st.subject.lexemes = [s] ∧ st.predicate.lexemes = [p] ∧ scope.Names s subject ∧
        scope.Names p predicate ∧ Denotes scope st.object.lexemes object ∧
        statements options (text ++ st.text) =
          statements options text ++ [⟨.iri subject, .iri predicate, object⟩] := by
  obtain ⟨tokens, hlex, hrun, -⟩ := exists_run_of_parse h
  obtain ⟨⟨_, stop⟩, hlex', hrun', -, hnamespaces, hbase⟩ := exists_run_of_parse h'
  obtain ⟨before, whole, more, hbefore, hwhole, hsplit, hlexemes⟩ := hfollows
  cases hlex.symm.trans hbefore
  cases hlex'.symm.trans hwhole
  dsimp only at hsplit
  subst hsplit
  have hmore : documentRun options ⟨tokens.tokens ++ more, stop⟩ =
      run stop .statement (documentRun options tokens).1 more :=
    run_append more hrun
  obtain ⟨s, p, subject, predicate, object, line, hs, hp, hsubject, hpredicate, hobject, hemit⟩ :=
    goesOn_groundStatement st (hmore ▸ hrun') hlexemes
  rw [hmore, hemit] at hnamespaces hbase
  refine ⟨(documentRun options tokens).1, hnamespaces.symm, hbase.symm, s, p, subject, predicate, object,
    hs, hp, hsubject, hpredicate, hobject, ?_⟩
  rw [statements, statements, hlex, hlex']
  dsimp only
  rw [hmore, hemit]
  simp [Scope.emit]

end

end CommandOntology.Turtle
