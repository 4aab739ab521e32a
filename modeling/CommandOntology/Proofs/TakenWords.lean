import CommandOntology.Proofs.WrittenQueries

set_option autoImplicit false

namespace CommandOntology.Query

def Lexeme.isMark (l : Lexeme) : Bool :=
  l.kind == .languageTag || (l.kind == .operator && l.text == "^^")

/-- Words after which the machine is at another place, with what it has read by then. -/
structure Takes (control : Control) (s : Scope) (words : List String) (control' : Control)
    (s' : Scope) : Prop where
  stands : ∀ word ∈ words, Stands word
  noMark : ∀ l ∈ (words.flatMap lexemesOf).head?, l.isMark = false
  run_eq : ∀ (tokens : List Token) (next : Token) (rest : List Token),
    tokens.map Token.lexeme = words.flatMap lexemesOf → next.lexeme.isMark = false →
      run control s (tokens ++ next :: rest) = run control' s' (next :: rest)

section

variable {control control' control'' : Control} {s s' s'' : Scope} {words others : List String}

theorem Takes.refl (control : Control) (s : Scope) : Takes control s [] control s where
  stands := by simp
  noMark := by simp
  run_eq tokens next rest htokens _ := by
    rw [List.map_eq_nil_iff.1 htokens, List.nil_append]

theorem Takes.append (h : Takes control s words control' s')
    (h' : Takes control' s' others control'' s'') :
    Takes control s (words ++ others) control'' s'' where
  stands word hword := (List.mem_append.1 hword).elim (h.stands word) (h'.stands word)
  noMark := by
    rw [List.flatMap_append, List.head?_append]
    cases hhead : (words.flatMap lexemesOf).head? with
    | none => exact h'.noMark
    | some l =>
      rintro l' ⟨⟩
      exact h.noMark l hhead
  run_eq tokens next rest htokens hnext := by
    rw [List.flatMap_append] at htokens
    obtain ⟨first, second, rfl, hfirst, hsecond⟩ := List.map_eq_append_iff.1 htokens
    rw [List.append_assoc]
    have hlast := h'.run_eq second next rest hsecond hnext
    cases second with
    | nil => exact (h.run_eq first next rest hfirst hnext).trans hlast
    | cons t second =>
      refine (h.run_eq first t (second ++ next :: rest) hfirst ?_).trans hlast
      exact h'.noMark t.lexeme (by rw [← hsecond]; rfl)

theorem run_cons {t : Token} (rest : List Token) (h : take control s t = .ok (control', s')) :
    run control s (t :: rest) = run control' s' rest := by
  rw [run, h]
  rfl

theorem Token.eq_of_lexeme {t : Token} {l : Lexeme} (h : t.lexeme = l) :
    t = ⟨l.kind, l.text, t.position⟩ := by
  subst h
  rfl

/-- A word of one token, wherever it stands, and what comes after it from where the token leads. -/
theorem Takes.cons {word : String} {l : Lexeme} (hword : StandsFor word [l]) (hl : l.isMark = false)
    (state : Nat → Control × Scope)
    (htake : ∀ position, take control s ⟨l.kind, l.text, position⟩ = .ok (state position))
    (hrest : ∀ position, Takes (state position).1 (state position).2 words control' s') :
    Takes control s (word :: words) control' s' where
  stands := List.forall_mem_cons.2 ⟨hword.stands, (hrest 0).stands⟩
  noMark := by
    rw [List.flatMap_cons, hword.lexemesOf]
    rintro l' ⟨⟩
    exact hl
  run_eq tokens next rest htokens hnext := by
    rw [List.flatMap_cons, hword.lexemesOf] at htokens
    obtain ⟨t, others, rfl, ht, hothers⟩ := List.map_eq_cons_iff.1 htokens
    have hstep := htake t.position
    rw [← Token.eq_of_lexeme ht] at hstep
    rw [List.cons_append, run_cons _ hstep]
    exact (hrest t.position).run_eq others next rest hothers hnext

theorem Takes.word {word : String} {l : Lexeme} (hword : StandsFor word [l]) (hl : l.isMark = false)
    (htake : ∀ position, take control s ⟨l.kind, l.text, position⟩ = .ok (control', s')) :
    Takes control s [word] control' s' :=
  Takes.cons hword hl (fun _ => (control', s')) htake fun _ => Takes.refl control' s'

end

section

variable {s : Scope} {position : Nat}

theorem variableName_variableText (name : String) :
    Token.variableName ⟨.var, variableText name, position⟩ = name := by
  simp [Token.variableName, variableText]

theorem resolveReference_referenceText {iri : String} (h : IsReference iri) :
    s.resolveReference ⟨.iri, referenceText iri, position⟩ = .ok iri := by
  have hraw : ((referenceText iri).toList.drop 1).dropLast = iri.toList := by simp [referenceText]
  simp only [Scope.resolveReference, hraw, h.isAbsolute, if_true, String.ofList_toList]

theorem unescape_quotedLiteral (lexical : String) :
    unescape (stripQuotes (Term.quotedLiteral lexical).toList) position = .ok lexical := by
  have hescape := Turtle.isEscaping_literalChar lexical.toList
  have htext : (Term.quotedLiteral lexical).toList =
      '"' :: (lexical.toList.flatMap Term.literalChar ++ ['"']) := by
    simp [Term.quotedLiteral]
  rw [htext, stripQuotes_escaping hescape, unescape, unescapeFrom_escaping hescape]
  simp

variable {expected : Expectation} {place : Place} {onSlot : Slot → Control × Scope}
  {onLiteral : Term → Outcome}

theorem takeSlot_variable (name : String) :
    takeSlot s ⟨.var, variableText name, position⟩ expected place onSlot onLiteral =
      .ok (onSlot (.var name)) := by
  simp only [takeSlot, variableName_variableText]

theorem takeSlot_reference {iri : String} (h : IsReference iri) :
    takeSlot s ⟨.iri, referenceText iri, position⟩ expected place onSlot onLiteral =
      .ok (onSlot (.term (.iri iri))) := by
  simp only [takeSlot, Scope.resolveIri?, resolveReference_referenceText h]
  rfl

theorem takeSlot_text (lexical : String) :
    takeSlot s ⟨.string, Term.quotedLiteral lexical, position⟩ expected place onSlot onLiteral =
      .ok (.literalMark lexical position place, s) := by
  simp only [takeSlot, unescape_quotedLiteral]
  rfl

end

theorem takeLiteralMark_plain (position : Nat) {lexical : String} {place : Place} {s s' : Scope}
    {control' : Control} {t : Token} (ht : t.lexeme.isMark = false)
    (hdeliver : ∀ position, deliverLiteral s (.plain lexical) position place = .ok (control', s')) :
    takeLiteralMark lexical position place s t = take control' s' t := by
  simp only [Lexeme.isMark, Token.lexeme, Bool.or_eq_false_iff, beq_eq_false_iff_ne, ne_eq,
    Bool.and_eq_false_imp, beq_iff_eq] at ht
  have hend : takeLiteralMark lexical position place s t =
      takeLiteralEnd (.plain lexical) position place s t := by
    rw [takeLiteralMark, if_neg ht.1, if_neg fun h => ht.2 h.1 h.2]
  rw [hend]
  cases place with
  | subject => cases hdeliver 0
  | predicate subject => cases hdeliver 0
  | object subject predicate =>
    cases hdeliver 0
    rfl
  | operand before enclosing =>
    cases hdeliver 0
    obtain ⟨disjunction, conjunction, comparison, negations⟩ := before
    cases comparison <;> rfl

theorem take_languageTag (s : Scope) (lexical : String) (position : Nat) (place : Place) {t : Token} {tag : String}
    (ht : t.lexeme = ⟨.languageTag, "@" ++ tag⟩) : take (.literalMark lexical position place) s t =
      deliverLiteral s (.literal lexical none (some (Text.lower tag))) t.position place := by
  have hname : t.variableName = tag := by
    rw [Token.eq_of_lexeme ht]
    simp [Token.variableName]
  have hkind : t.kind = .languageTag := congrArg Lexeme.kind ht
  change takeLiteralMark lexical position place s t = _
  rw [takeLiteralMark, if_pos hkind, hname]

theorem take_datatypeSign (s : Scope) (lexical : String) (position : Nat) (place : Place) {t : Token}
    (ht : t.lexeme = ⟨.operator, "^^"⟩) :
    take (.literalMark lexical position place) s t = .ok (.datatype lexical place, s) := by
  rw [Token.eq_of_lexeme ht]
  rfl

theorem take_datatype {s : Scope} (lexical : String) (place : Place) {t : Token} {iri : String}
    (ht : s.resolveIri? t = some (.ok iri)) : take (.datatype lexical place) s t =
      deliverLiteral s (typedLiteral lexical iri) t.position place := by
  change takeDatatype lexical place s t = _
  rw [takeDatatype, ht]
  rfl

theorem Takes.literal {control control' : Control} {s s' : Scope} {lexical : String}
    {datatype language : Option String} (h : IsConstant (.literal lexical datatype language))
    (place : Place)
    (htake : ∀ position, take control s ⟨.string, Term.quotedLiteral lexical, position⟩ =
      .ok (.literalMark lexical position place, s))
    (hdeliver : ∀ position,
      deliverLiteral s (.literal lexical datatype language) position place = .ok (control', s')) :
    Takes control s [(Term.literal lexical datatype language).lineForm] control' s' where
  stands := by simpa using (standsFor_literal h).stands
  noMark := by
    rw [List.flatMap_cons, (standsFor_literal h).lexemesOf]
    rintro l ⟨⟩
    rfl
  run_eq tokens next rest htokens hnext := by
    rw [List.flatMap_singleton, (standsFor_literal h).lexemesOf] at htokens
    obtain ⟨t, marks, rfl, ht, hmarks⟩ := List.map_eq_cons_iff.1 htokens
    have hstep := htake t.position
    rw [← Token.eq_of_lexeme ht] at hstep
    rw [List.cons_append, run_cons _ hstep]
    -- A literal has a tag or a datatype or neither, and its marks are the tokens that are left.
    match datatype, language, h with
    | none, none, _ =>
      cases List.map_eq_nil_iff.1 hmarks
      have hplain := takeLiteralMark_plain t.position hnext hdeliver
      rw [List.nil_append, run, run]
      exact congrArg (· >>= _) hplain
    | none, some tag, htag =>
      obtain ⟨mark, _, rfl, hmark, hnil⟩ := List.map_eq_cons_iff.1 hmarks
      cases List.map_eq_nil_iff.1 hnil
      have htag' := take_languageTag s lexical t.position place hmark
      rw [htag.isSmall] at htag'
      rw [List.singleton_append, run_cons _ (htag'.trans (hdeliver mark.position))]
    | some datatype, none, hdatatype =>
      obtain ⟨mark, _, rfl, hmark, hnil⟩ := List.map_eq_cons_iff.1 hmarks
      obtain ⟨reference, _, rfl, hreference, hnil⟩ := List.map_eq_cons_iff.1 hnil
      cases List.map_eq_nil_iff.1 hnil
      have hiri : s.resolveIri? reference = some (.ok datatype) := by
        rw [Token.eq_of_lexeme hreference, Scope.resolveIri?]
        exact congrArg some (resolveReference_referenceText hdatatype.1)
      have hstep := take_datatype lexical place hiri
      rw [typedLiteral, if_neg hdatatype.2] at hstep
      rw [List.cons_append, List.singleton_append, run_cons _ (take_datatypeSign s lexical t.position place hmark),
        run_cons _ (hstep.trans (hdeliver reference.position))]

end CommandOntology.Query
