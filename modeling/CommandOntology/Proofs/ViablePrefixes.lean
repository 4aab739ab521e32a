import CommandOntology.Proofs.AcceptedDocuments

set_option autoImplicit false

/-!
# The first token that is impossible

Whatever constructs are open, some lexemes close them and end the document. So the lexemes that the machine has
taken can always go on to a document, and a token that it refuses because of its kind is the first with which
they cannot. The error that tells so does not depend on what follows.
-/

namespace CommandOntology.Turtle

open Grammar

theorem exists_expects {mark : Mark} {next : List Lexeme → Prop} (h : ∃ ls, next ls) :
    ∃ ls, Expects mark next ls := by
  obtain ⟨ls, hls⟩ := h
  exact ⟨.mark mark :: ls, ls, rfl, hls⟩

theorem exists_statementEnd : ∃ ls, StatementEnd ls :=
  exists_expects ⟨[], .nil⟩

theorem exists_then_object {next : List Lexeme → Prop} (h : ∃ ls, next ls) : ∃ ls, Then Object next ls := by
  obtain ⟨ls, hls⟩ := h
  exact ⟨.blankNode "" :: ls, ls, .blankNode "" ls, hls⟩

theorem exists_afterObject {next : List Lexeme → Prop} (h : ∃ ls, next ls) : ∃ ls, AfterObject next ls := by
  obtain ⟨ls, hls⟩ := h
  exact ⟨ls, ls, .inl rfl, .inl hls⟩

theorem exists_then_properties {next : List Lexeme → Prop} (h : ∃ ls, next ls) :
    ∃ ls, Then Properties next ls := by
  obtain ⟨ls, hls⟩ := exists_then_object (exists_afterObject h)
  exact ⟨.word "a" :: ls, (then_properties_cons _ _).2 ⟨.inl rfl, hls⟩⟩

theorem exists_afterItem {next : List Lexeme → Prop} (h : ∃ ls, next ls) : ∃ ls, AfterItem next ls := by
  obtain ⟨ls, hls⟩ := exists_expects h
  exact ⟨ls, (afterItem_iff ls).2 (.inl hls)⟩

mutual

theorem Context.exists_demands : (context : Context) → ∃ ls, context.Demands ls
  | .statement => exists_statementEnd
  | .brackets _ use => exists_expects ((Use.exists_demands use).imp fun _ => .inr)

theorem Use.exists_demands : (use : Use) → ∃ ls, use.Demands ls
  | .subject => exists_then_properties exists_statementEnd
  | .object _ _ _ context => exists_afterObject (Context.exists_demands context)
  | .item _ use => exists_afterItem (Use.exists_demands use)

end

theorem exists_afterDeclaration (isClosed : Bool) : ∃ ls, AfterDeclaration isClosed ls := by
  cases isClosed with
  | false => exact ⟨[], .nil⟩
  | true => exact exists_statementEnd

theorem exists_afterDirective (isClosed : Bool) (d : Directive) : ∃ ls, AfterDirective isClosed d ls := by
  obtain ⟨rest, hrest⟩ := exists_afterDeclaration isClosed
  cases d with
  | namespaceLabel => exact ⟨_, "", "", rest, rfl, hrest⟩
  | base => exact ⟨_, "", rest, rfl, hrest⟩

/-- From every control on, some lexemes end the document. -/
theorem Control.exists_demands (control : Control) : ∃ ls, control.Demands ls := by
  cases control with
  | statement => exact ⟨[], .nil⟩
  | namespaceLabel isClosed line => exact exists_afterDirective isClosed .namespaceLabel
  | namespaceIri isClosed line label => exact exists_afterDirective isClosed .base
  | baseIri isClosed => exact exists_afterDirective isClosed .base
  | directiveEnd => exact exists_statementEnd
  | predicateOrEnd subject => exact exists_statementEnd.imp fun _ => .inl
  | bracketStart node use => exact (exists_expects (use.exists_demands.imp fun _ => .inr)).imp fun _ => .inl
  | predicate subject context => exact exists_then_properties context.exists_demands
  | object subject predicate context => exact exists_then_object (exists_afterObject context.exists_demands)
  | objectEnd subject predicate context => exact exists_afterObject context.exists_demands
  | semicolon subject context =>
    exact context.exists_demands.imp fun ls hls => (afterSemicolon_iff ls).2 (.inl hls)
  | contextEnd context => exact context.exists_demands
  | item items use => exact exists_afterItem use.exists_demands
  | literalMark value use => exact use.exists_demands.imp fun _ => .inl
  | datatype value use =>
    exact use.exists_demands.imp' (.iri "" :: ·) fun ls hls => ⟨ls, .reference "" ls, hls⟩

/-- Lexemes that a document may start with. -/
def IsViable (ls : List Lexeme) : Prop :=
  ∃ more, Grammar.Document (ls ++ more)

/-- A token that a run is stopped at because of its kind: the control allows the tokens before it to go on, and
not with this token. What follows it does not matter. -/
structure IsStoppedAt (control : Control) (scope : Scope) (before : List Token) (token : Token)
    (stopped : Scope × Option ParseError) : Prop where
  viable : ∃ more, control.Demands (before.map (·.lexeme) ++ more)
  impossible : ∀ more, ¬control.Demands (before.map (·.lexeme) ++ token.lexeme :: more)
  run : ∀ stop rest, Turtle.run stop control scope (before ++ token :: rest) = stopped

theorem IsStoppedAt.cons {control control' : Control} {scope scope₁ scope' : Scope} {t : Token}
    (hstep : step control scope t = (scope₁, .ok (control', scope')))
    (hdemands : ∀ ls, control.Demands (t.lexeme :: ls) ↔ control'.Demands ls) {before : List Token} {token : Token}
    {stopped : Scope × Option ParseError} (h : IsStoppedAt control' scope' before token stopped) :
    IsStoppedAt control scope (t :: before) token stopped where
  viable := h.viable.imp fun more => (hdemands _).2
  impossible more hd := h.impossible more ((hdemands _).1 hd)
  run stop rest := by rw [List.cons_append, Turtle.run, hstep]; exact h.run stop rest

theorem step_unexpected {control : Control} {scope scope' : Scope} {token : Token} {expected : Expectation}
    {found : Option Lexeme} {p : Position} (hopen : control.IsOpen scope)
    (h : step control scope token = (scope', .error (.unexpected expected found p))) :
    found = some token.lexeme ∧ p = token.position := by
  have hsettled := settle_allIris hopen.1 hopen.2 (some token.lexeme)
  have hkeeps := take_keeps inherited_true _ token (hsettled.1.mono fun _ _ _ => trivial) hsettled.2
  unfold step at h
  dsimp only at h
  cases ht : take (settle control scope (some token.lexeme)).1
      (settle control scope (some token.lexeme)).2 token with
  | none =>
    rw [ht] at h
    cases h
    exact ⟨rfl, rfl⟩
  | some outcome =>
    rw [ht] at h
    cases h
    exact (hkeeps _ ht).elim

/-- A run that finds something else than the grammar wants is stopped at a token, or at the end. -/
theorem run_unexpected {stop : Position} {tokens : List Token} {control : Control} {scope scope' : Scope}
    {expected : Expectation} {found : Option Lexeme} {p : Position} (hopen : control.IsOpen scope)
    (h : run stop control scope tokens = (scope', some (.unexpected expected found p))) :
    (∃ before token rest, tokens = before ++ token :: rest ∧ found = some token.lexeme ∧ p = token.position ∧
        IsStoppedAt control scope before token (scope', some (.unexpected expected found p))) ∨
      (found = none ∧ p = stop ∧ (∃ more, control.Demands (tokens.map (·.lexeme) ++ more)) ∧
        ¬control.Demands (tokens.map (·.lexeme))) := by
  induction tokens generalizing control scope with
  | nil =>
    refine .inr ?_
    have hiff := finish_demands control scope stop
    rw [run] at h
    have hfound : found = none ∧ p = stop := by
      unfold finish at h
      dsimp only at h
      split at h
      · cases h
      · cases h
        exact ⟨rfl, rfl⟩
    refine ⟨hfound.1, hfound.2, control.exists_demands, fun hd => ?_⟩
    rw [h] at hiff
    cases hiff.2 hd
  | cons token tokens ih =>
    have hkeeps := (step_keeps inherited_true control token (hopen.1.mono fun _ _ _ => trivial) hopen.2).2
    have hstep := step_demands hopen token
    rw [run] at h
    cases hs : step control scope token with
    | mk scope₁ outcome =>
      rw [hs] at h hstep hkeeps
      cases outcome with
      | error e =>
        cases h
        have hfound := step_unexpected hopen hs
        refine .inl ⟨[], token, tokens, rfl, hfound.1, hfound.2, control.exists_demands,
          fun more => hstep more trivial, fun stop rest => ?_⟩
        rw [List.nil_append, run, hs]
      | ok state =>
        obtain ⟨e, he, -⟩ | hstate := hkeeps
        · cases he
        · obtain ⟨before, t, rest, rfl, hfound, hp, hstopped⟩ | ⟨hfound, hp, hviable, hnot⟩ :=
            ih ⟨hstate.1.mono fun _ => trivial, hstate.2⟩ h
          · exact .inl ⟨token :: before, t, rest, rfl, hfound, hp, hstopped.cons hs fun ls => hstep ls⟩
          · refine .inr ⟨hfound, hp, hviable.imp fun more => (hstep _).2, fun hd => hnot ((hstep _).1 hd)⟩

theorem eq_of_diagnosis {e : ParseError} {reason : String} {line column : Nat}
    (h : e.diagnosis = .ok (syntaxDiagnosis reason line column)) :
    (∃ fault p, e = .lexical fault p ∧ lexicalPosition fault p = ⟨line, column⟩) ∨
      ∃ expected found, e = .unexpected expected found ⟨line, column⟩ := by
  have hplace {reason' : String} {p : Position}
      (h : syntaxDiagnosis reason' p.line p.column = syntaxDiagnosis reason line column) : p = ⟨line, column⟩ := by
    have hdetails := congrArg Diagnosis.details h
    simp only [syntaxDiagnosis, Value.nat, List.cons.injEq, Prod.mk.injEq, Value.int.injEq, Int.natCast_inj, true_and]
      at hdetails
    rw [← hdetails.1, ← hdetails.2.1]
  cases e with
  | lexical fault p =>
    refine .inl ⟨fault, p, rfl, ?_⟩
    cases fault with
    | codePointTooLarge value => cases h
    | _ => exact hplace (Except.ok.inj h)
  | unexpected expected found p =>
    obtain rfl := hplace (Except.ok.inj h)
    exact .inr ⟨expected, found, rfl⟩
  | _ => simp [ParseError.diagnosis, syntaxDiagnosis] at h

/-- A violation of the grammar that is reported for tokens has stopped the run over them. -/
theorem parseTokens_reported {options : ParserOptions} {size : Nat} {tokens : Tokens} {e : ParseError}
    {reason : String} {line column : Nat} (h : parseTokens options size tokens = .error e)
    (hreport : e.diagnosis = .ok (syntaxDiagnosis reason line column)) :
    ∃ expected found, e = .unexpected expected found ⟨line, column⟩ ∧ (documentRun options tokens).2 = some e := by
  obtain ⟨fault, p, rfl, -⟩ | ⟨expected, found, rfl⟩ := eq_of_diagnosis hreport
  · obtain hg | hd := parseTokens_error_kind h
    · exact hg.elim
    · exact hd.elim
  · exact ⟨expected, found, rfl, (parseTokens_error h).resolve_left fun hrecord => record_error hrecord⟩

/-- The run over the tokens of a document is stopped at one of them, or at the end. -/
theorem documentRun_unexpected {options : ParserOptions} {tokens : Tokens} {expected : Expectation}
    {found : Option Lexeme} {p : Position}
    (h : (documentRun options tokens).2 = some (.unexpected expected found p)) :
    (∃ before token rest, tokens.tokens = before ++ token :: rest ∧ token.position = p ∧
        IsStoppedAt .statement (.initial options.capacity.toNat options.base) before token
          (documentRun options tokens)) ∨
      (tokens.stop = p ∧ IsViable (tokens.tokens.map (·.lexeme)) ∧
        ¬Grammar.Document (tokens.tokens.map (·.lexeme))) := by
  have hopen : Control.statement.IsOpen (.initial options.capacity.toNat options.base) :=
    ⟨trivial, Scope.allIris_initial _ _ fun _ _ => trivial⟩
  have hrun : documentRun options tokens = (_, some _) := Prod.ext rfl h
  obtain ⟨before, token, rest, htokens, -, hp, hstopped⟩ | ⟨-, hp, hviable, hnot⟩ := run_unexpected hopen hrun
  · exact .inl ⟨before, token, rest, htokens, hp.symm, hrun ▸ hstopped⟩
  · exact .inr ⟨hp.symm, hviable, hnot⟩

/-- What tokens come to depends on the run over them alone, if they are refused. -/
theorem parseTokens_error_of_run {options : ParserOptions} {size size' : Nat} {tokens tokens' : Tokens}
    {e : ParseError} (hrun : documentRun options tokens' = documentRun options tokens)
    (h : parseTokens options size tokens = .error e) : parseTokens options size' tokens' = .error e := by
  rw [documentRun, documentRun] at hrun
  rw [parseTokens] at h ⊢
  rw [hrun]
  revert h
  cases run tokens.stop .statement (.initial options.capacity.toNat options.base) tokens.tokens with
  | mk scope stopped =>
    dsimp only
    cases record options.functional [] scope.emitted.reverse with
    | error e' => exact id
    | ok triples =>
      cases stopped with
      | none => exact fun h => by cases h
      | some e' => exact id

/-- A violation of the grammar is reported at the first token with which the tokens so far cannot go on to a
document, or at the end if there is none. What follows the token does not change the error. -/
theorem parseTokens_firstImpossible (options : ParserOptions) (size : Nat) (tokens : Tokens) (e : ParseError)
    (reason : String) (line column : Nat) (h : parseTokens options size tokens = .error e)
    (hreport : e.diagnosis = .ok (syntaxDiagnosis reason line column)) :
    (∃ before token rest, tokens.tokens = before ++ token :: rest ∧ token.position = ⟨line, column⟩ ∧
        IsViable (before.map (·.lexeme)) ∧ ¬IsViable ((before ++ [token]).map (·.lexeme)) ∧
        ∀ size' stop' rest', parseTokens options size' ⟨before ++ token :: rest', stop'⟩ = .error e) ∨
      (tokens.stop = ⟨line, column⟩ ∧ IsViable (tokens.tokens.map (·.lexeme)) ∧
        ¬Grammar.Document (tokens.tokens.map (·.lexeme))) := by
  obtain ⟨expected, found, rfl, hstopped⟩ := parseTokens_reported h hreport
  obtain ⟨before, token, rest, htokens, hp, hat⟩ | hend := documentRun_unexpected hstopped
  · refine .inl ⟨before, token, rest, htokens, hp, hat.viable, ?_, fun size' stop' rest' => ?_⟩
    · rintro ⟨more, hmore⟩
      rw [List.map_append, List.append_assoc] at hmore
      exact hat.impossible more hmore
    · exact parseTokens_error_of_run (hat.run stop' rest') h
  · exact .inr hend

/-- `<a:s> <a:p> [ <a:q> ( 1 ) ; . <a:s>` -/
def pointInBrackets : List Token :=
  [⟨.iri "a:s", 1, 1⟩, ⟨.iri "a:p", 1, 7⟩, ⟨.mark .openBracket, 1, 13⟩, ⟨.iri "a:q", 1, 15⟩,
    ⟨.mark .openParenthesis, 1, 21⟩, ⟨.number .integer "1", 1, 23⟩, ⟨.mark .closeParenthesis, 1, 25⟩,
    ⟨.mark .semicolon, 1, 27⟩, ⟨.mark .dot, 1, 29⟩, ⟨.iri "a:s", 1, 31⟩]

/-- A point ends the list behind the semicolon, and does not close the brackets around it. -/
theorem parseTokens_pointInBrackets :
    let e : ParseError := .unexpected .bracketEnd (some (.mark .dot)) ⟨1, 29⟩
    parseTokens {} 0 ⟨pointInBrackets, 1, 36⟩ = .error e ∧
      e.diagnosis = .ok (syntaxDiagnosis (unexpectedReason .bracketEnd (some (.mark .dot))) 1 29) ∧
      ((∃ before token rest, pointInBrackets = before ++ token :: rest ∧ token.position = ⟨1, 29⟩ ∧
          IsViable (before.map (·.lexeme)) ∧ ¬IsViable ((before ++ [token]).map (·.lexeme)) ∧
          ∀ size' stop' rest', parseTokens {} size' ⟨before ++ token :: rest', stop'⟩ = .error e) ∨
        ((⟨1, 36⟩ : Position) = ⟨1, 29⟩ ∧ IsViable (pointInBrackets.map (·.lexeme)) ∧
          ¬Grammar.Document (pointInBrackets.map (·.lexeme)))) := by
  intro e
  have hparse : parseTokens {} 0 ⟨pointInBrackets, 1, 36⟩ = .error e := rfl
  exact ⟨hparse, rfl, parseTokens_firstImpossible {} 0 ⟨pointInBrackets, 1, 36⟩ e _ 1 29 hparse rfl⟩

end CommandOntology.Turtle
