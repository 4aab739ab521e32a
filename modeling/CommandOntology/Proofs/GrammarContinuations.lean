import Mathlib.Tactic.SplitIfs
import CommandOntology.Turtle.Grammar

set_option autoImplicit false

namespace CommandOntology.Turtle.Grammar

def Then (rule : List Lexeme → List Lexeme → Prop) (next : List Lexeme → Prop) (ls : List Lexeme) :
    Prop :=
  ∃ rest, rule ls rest ∧ next rest

def Expects (mark : Mark) (next : List Lexeme → Prop) (ls : List Lexeme) : Prop :=
  ∃ rest, ls = .mark mark :: rest ∧ next rest

@[simp]
theorem expects_cons (mark : Mark) (next : List Lexeme → Prop) (l : Lexeme) (ls : List Lexeme) :
    Expects mark next (l :: ls) ↔ l = .mark mark ∧ next ls := by
  constructor
  · rintro ⟨rest, he, hn⟩
    obtain ⟨rfl, rfl⟩ := List.cons_eq_cons.1 he
    exact ⟨rfl, hn⟩
  · rintro ⟨rfl, hn⟩
    exact ⟨ls, rfl, hn⟩

@[simp]
theorem not_expects_nil (mark : Mark) (next : List Lexeme → Prop) : ¬Expects mark next [] := by
  rintro ⟨rest, he, -⟩
  cases he

variable {next : List Lexeme → Prop}

def IsIri : Lexeme → Prop
  | .iri _ => True
  | .name .. => True
  | _ => False

theorem then_iri_cons (l : Lexeme) (ls : List Lexeme) :
    Then Iri next (l :: ls) ↔ IsIri l ∧ next ls := by
  constructor
  · rintro ⟨rest, h, hn⟩
    cases h with
    | reference => exact ⟨trivial, hn⟩
    | name => exact ⟨trivial, hn⟩
  · rintro ⟨h, hn⟩
    cases l with
    | iri reference => exact ⟨ls, .reference reference ls, hn⟩
    | name label name => exact ⟨ls, .name label name ls, hn⟩
    | _ => cases h

theorem not_then_iri_nil : ¬Then Iri next [] := by
  rintro ⟨rest, h, -⟩
  cases h

theorem then_verb_cons (l : Lexeme) (ls : List Lexeme) :
    Then Verb next (l :: ls) ↔ (l = .word "a" ∨ IsIri l) ∧ next ls := by
  constructor
  · rintro ⟨rest, h, hn⟩
    cases h with
    | type => exact ⟨.inl rfl, hn⟩
    | iri h =>
      obtain ⟨hl, hn⟩ := (then_iri_cons l ls).1 ⟨rest, h, hn⟩
      exact ⟨.inr hl, hn⟩
  · rintro ⟨rfl | hl, hn⟩
    · exact ⟨ls, .type ls, hn⟩
    · obtain ⟨rest, h, hn⟩ := (then_iri_cons l ls).2 ⟨hl, hn⟩
      exact ⟨rest, .iri h, hn⟩

theorem not_then_verb_nil : ¬Then Verb next [] := by
  rintro ⟨rest, h, -⟩
  cases h with
  | iri h => cases h

def MoreObjects (ls rest : List Lexeme) : Prop :=
  ls = rest ∨ ∃ others, ls = .mark .comma :: others ∧ Objects others rest

def AfterSemicolon (next : List Lexeme → Prop) (ls : List Lexeme) : Prop :=
  ∃ others, (ls = others ∨ Semicolons ls others) ∧ (next others ∨ Then Properties next others)

def AfterObjects (next : List Lexeme → Prop) (ls : List Lexeme) : Prop :=
  next ls ∨ Expects .semicolon (AfterSemicolon next) ls

def AfterObject (next : List Lexeme → Prop) : List Lexeme → Prop :=
  Then MoreObjects (AfterObjects next)

theorem then_objects (ls : List Lexeme) :
    Then Objects next ls ↔ Then Object (Then MoreObjects next) ls := by
  constructor
  · rintro ⟨rest, h, hn⟩
    cases h with
    | one h => exact ⟨rest, h, rest, .inl rfl, hn⟩
    | more h hs => exact ⟨_, h, rest, .inr ⟨_, rfl, hs⟩, hn⟩
  · rintro ⟨others, h, rest, rfl | ⟨ls', rfl, hs⟩, hn⟩
    · exact ⟨others, .one h, hn⟩
    · exact ⟨rest, .more h hs, hn⟩

theorem then_moreObjects (ls : List Lexeme) : Then MoreObjects next ls ↔
    next ls ∨ Expects .comma (Then Object (Then MoreObjects next)) ls := by
  constructor
  · rintro ⟨rest, rfl | ⟨others, rfl, hs⟩, hn⟩
    · exact .inl hn
    · exact .inr ⟨others, rfl, (then_objects others).1 ⟨rest, hs, hn⟩⟩
  · rintro (hn | ⟨others, rfl, h⟩)
    · exact ⟨ls, .inl rfl, hn⟩
    · obtain ⟨rest, hs, hn⟩ := (then_objects others).2 h
      exact ⟨rest, .inr ⟨others, rfl, hs⟩, hn⟩

theorem semicolons_iff (ls rest : List Lexeme) : Semicolons ls rest ↔
    ∃ others, ls = .mark .semicolon :: others ∧ (others = rest ∨ Semicolons others rest) := by
  constructor
  · intro h
    cases h with
    | one => exact ⟨rest, rfl, .inl rfl⟩
    | more h => exact ⟨_, rfl, .inr h⟩
  · rintro ⟨others, rfl, rfl | h⟩
    · exact .one others
    · exact .more h

theorem then_properties (ls : List Lexeme) :
    Then Properties next ls ↔ Then Verb (Then Object (AfterObject next)) ls := by
  have hobjects (ls : List Lexeme) :
      Then Object (AfterObject next) ls ↔ Then Objects (AfterObjects next) ls :=
    (then_objects ls).symm
  constructor
  · rintro ⟨rest, h, hn⟩
    cases h with
    | one hv ho => exact ⟨_, hv, (hobjects _).2 ⟨rest, ho, .inl hn⟩⟩
    | trailing hv ho hs =>
      obtain ⟨others, rfl, hmore⟩ := (semicolons_iff _ _).1 hs
      exact ⟨_, hv, (hobjects _).2 ⟨_, ho, .inr ⟨others, rfl, rest, hmore, .inl hn⟩⟩⟩
    | more hv ho hs hp =>
      obtain ⟨others, rfl, hmore⟩ := (semicolons_iff _ _).1 hs
      exact ⟨_, hv, (hobjects _).2 ⟨_, ho, .inr ⟨others, rfl, _, hmore, .inr ⟨rest, hp, hn⟩⟩⟩⟩
  · rintro ⟨afterVerb, hv, h⟩
    obtain ⟨afterObjects, ho, hn | ⟨others, rfl, rest, hs, hn⟩⟩ := (hobjects _).1 h
    · exact ⟨afterObjects, .one hv ho, hn⟩
    · have hs := (semicolons_iff _ rest).2 ⟨others, rfl, hs⟩
      obtain hn | ⟨rest', hp, hn⟩ := hn
      · exact ⟨rest, .trailing hv ho hs, hn⟩
      · exact ⟨rest', .more hv ho hs hp, hn⟩

theorem afterSemicolon_iff (ls : List Lexeme) : AfterSemicolon next ls ↔
    next ls ∨ Then Properties next ls ∨ Expects .semicolon (AfterSemicolon next) ls := by
  constructor
  · rintro ⟨others, rfl | hs, hn⟩
    · exact hn.imp_right .inl
    · obtain ⟨ls', rfl, hmore⟩ := (semicolons_iff _ _).1 hs
      exact .inr (.inr ⟨ls', rfl, others, hmore, hn⟩)
  · rintro (hn | hp | ⟨ls', rfl, others, hs, hn⟩)
    · exact ⟨ls, .inl rfl, .inl hn⟩
    · exact ⟨ls, .inl rfl, .inr hp⟩
    · exact ⟨others, .inr ((semicolons_iff _ _).2 ⟨ls', rfl, hs⟩), hn⟩

theorem afterObject_cons (l : Lexeme) (ls : List Lexeme) : AfterObject next (l :: ls) ↔
    next (l :: ls) ∨ l = .mark .semicolon ∧ AfterSemicolon next ls ∨
      l = .mark .comma ∧ Then Object (AfterObject next) ls := by
  rw [AfterObject, then_moreObjects, AfterObjects, expects_cons, expects_cons, or_assoc]

theorem afterObject_nil : AfterObject next [] ↔ next [] := by
  simp [AfterObject, then_moreObjects, AfterObjects]

theorem then_properties_cons (l : Lexeme) (ls : List Lexeme) : Then Properties next (l :: ls) ↔
    (l = .word "a" ∨ IsIri l) ∧ Then Object (AfterObject next) ls := by
  rw [then_properties, then_verb_cons]

theorem not_then_properties_nil : ¬Then Properties next [] := by
  rw [then_properties]
  exact not_then_verb_nil

theorem afterSemicolon_cons (l : Lexeme) (ls : List Lexeme) : AfterSemicolon next (l :: ls) ↔
    next (l :: ls) ∨ Then Properties next (l :: ls) ∨
      l = .mark .semicolon ∧ AfterSemicolon next ls := by
  rw [afterSemicolon_iff, expects_cons]

def AfterBracket (next : List Lexeme → Prop) (ls : List Lexeme) : Prop :=
  Expects .closeBracket next ls ∨ Then Properties (Expects .closeBracket next) ls

def AfterItem (next : List Lexeme → Prop) : List Lexeme → Prop :=
  Then Items (Expects .closeParenthesis next)

/-- What follows the first lexeme of a node. What follows brackets may differ from what follows other
nodes. -/
def AfterNodeStart (next afterBrackets : List Lexeme → Prop) : Lexeme → List Lexeme → Prop
  | .iri _, ls => next ls
  | .name .., ls => next ls
  | .blankNode _, ls => next ls
  | .mark .openBracket, ls => AfterBracket afterBrackets ls
  | .mark .openParenthesis, ls => AfterItem next ls
  | _, _ => False

def AfterText (next : List Lexeme → Prop) (ls : List Lexeme) : Prop :=
  next ls ∨ (∃ tag rest, ls = .languageTag tag :: rest ∧ next rest) ∨
    Expects .datatype (Then Iri next) ls

def AfterObjectStart (next : List Lexeme → Prop) : Lexeme → List Lexeme → Prop
  | .text _, ls => AfterText next ls
  | .number .., ls => next ls
  | .word word, ls => (word = "true" ∨ word = "false") ∧ next ls
  | l, ls => AfterNodeStart next next l ls

theorem afterNodeStart_of_isIri (afterBrackets : List Lexeme → Prop) (l : Lexeme) (ls : List Lexeme)
    (h : IsIri l) : AfterNodeStart next afterBrackets l ls ↔ next ls := by
  cases l with
  | iri => exact Iff.rfl
  | name => exact Iff.rfl
  | _ => cases h

theorem then_bracketed (ls : List Lexeme) :
    Then Bracketed next ls ↔ Expects .openBracket (AfterBracket next) ls := by
  constructor
  · rintro ⟨rest, h, hn⟩
    cases h with
    | empty => exact ⟨_, rfl, .inl ⟨rest, rfl, hn⟩⟩
    | properties h => exact ⟨_, rfl, .inr ⟨_, h, rest, rfl, hn⟩⟩
  · rintro ⟨_, rfl, ⟨rest, rfl, hn⟩ | ⟨_, h, rest, rfl, hn⟩⟩
    · exact ⟨rest, .empty rest, hn⟩
    · exact ⟨rest, .properties h, hn⟩

theorem then_collection (ls : List Lexeme) :
    Then Collection next ls ↔ Expects .openParenthesis (AfterItem next) ls := by
  constructor
  · rintro ⟨rest, h, hn⟩
    cases h with
    | items h => exact ⟨_, rfl, _, h, rest, rfl, hn⟩
  · rintro ⟨_, rfl, _, h, rest, rfl, hn⟩
    exact ⟨rest, .items h, hn⟩

theorem then_object_cons (l : Lexeme) (ls : List Lexeme) :
    Then Object next (l :: ls) ↔ AfterObjectStart next l ls := by
  -- From left to right by the rule that was used, from right to left by the first lexeme.
  constructor
  · rintro ⟨rest, h, hn⟩
    cases h with
    | iri h =>
      obtain ⟨hl, hn⟩ := (then_iri_cons l ls).1 ⟨rest, h, hn⟩
      cases l with
      | iri => exact hn
      | name => exact hn
      | _ => cases hl
    | blankNode => exact hn
    | bracketed h =>
      obtain ⟨rfl, hb⟩ := (expects_cons ..).1 ((then_bracketed _).1 ⟨rest, h, hn⟩)
      exact hb
    | collection h =>
      obtain ⟨rfl, hc⟩ := (expects_cons ..).1 ((then_collection _).1 ⟨rest, h, hn⟩)
      exact hc
    | text => exact .inl hn
    | taggedText value tag => exact .inr (.inl ⟨tag, rest, rfl, hn⟩)
    | typedText value h => exact .inr (.inr ⟨_, rfl, rest, h, hn⟩)
    | number => exact hn
    | truth word rest hw => exact ⟨hw, hn⟩
  · intro h
    cases l with
    | iri reference => exact ⟨ls, .iri (.reference reference ls), h⟩
    | name label name => exact ⟨ls, .iri (.name label name ls), h⟩
    | blankNode label => exact ⟨ls, .blankNode label ls, h⟩
    | number kind digits => exact ⟨ls, .number kind digits ls, h⟩
    | word word => exact ⟨ls, .truth word ls h.1, h.2⟩
    | text value =>
      obtain hn | ⟨tag, rest, rfl, hn⟩ | ⟨_, rfl, rest, hi, hn⟩ := h
      · exact ⟨ls, .text value ls, hn⟩
      · exact ⟨rest, .taggedText value tag rest, hn⟩
      · exact ⟨rest, .typedText value hi, hn⟩
    | mark m =>
      cases m with
      | openBracket =>
        obtain ⟨rest, hb, hn⟩ := (then_bracketed _).2 ⟨ls, rfl, h⟩
        exact ⟨rest, .bracketed hb, hn⟩
      | openParenthesis =>
        obtain ⟨rest, hc, hn⟩ := (then_collection _).2 ⟨ls, rfl, h⟩
        exact ⟨rest, .collection hc, hn⟩
      | _ => cases h
    | _ => cases h

theorem not_then_object_nil : ¬Then Object next [] := by
  rintro ⟨rest, h, -⟩
  cases h with
  | iri h => cases h
  | bracketed h => cases h
  | collection h => cases h

theorem afterItem_iff (ls : List Lexeme) : AfterItem next ls ↔
    Expects .closeParenthesis next ls ∨ Then Object (AfterItem next) ls := by
  constructor
  · rintro ⟨rest, h, hn⟩
    cases h with
    | nil => exact .inl hn
    | cons h hs => exact .inr ⟨_, h, rest, hs, hn⟩
  · rintro (hn | ⟨others, h, rest, hs, hn⟩)
    · exact ⟨ls, .nil ls, hn⟩
    · exact ⟨rest, .cons h hs, hn⟩

def StatementEnd : List Lexeme → Prop :=
  Expects .dot Document

def AfterSubject : List Lexeme → Prop :=
  Then Properties StatementEnd

def AfterBracketedSubject (ls : List Lexeme) : Prop :=
  StatementEnd ls ∨ AfterSubject ls

def AfterDeclaration (isClosed : Bool) : List Lexeme → Prop :=
  if isClosed then StatementEnd else Document

def AfterDirective (isClosed : Bool) : Directive → List Lexeme → Prop
  | .namespaceLabel, ls =>
    ∃ label iri rest, ls = .name label "" :: .iri iri :: rest ∧ AfterDeclaration isClosed rest
  | .base, ls => ∃ iri rest, ls = .iri iri :: rest ∧ AfterDeclaration isClosed rest

def IsDirectiveWord (word : String) : Directive → Prop
  | .namespaceLabel => word.toLower = "prefix"
  | .base => word.toLower = "base"

def AfterStatementStart : Lexeme → List Lexeme → Prop
  | .directive d, ls => AfterDirective true d ls
  | .word word, ls => ∃ d, IsDirectiveWord word d ∧ AfterDirective false d ls
  | l, ls => AfterNodeStart AfterSubject AfterBracketedSubject l ls

theorem then_triples_cons (l : Lexeme) (ls : List Lexeme) : Then Triples StatementEnd (l :: ls) ↔
    AfterNodeStart AfterSubject AfterBracketedSubject l ls := by
  constructor
  · rintro ⟨rest, h, hn⟩
    cases h with
    | bracketed h =>
      have hnode : Then Bracketed AfterBracketedSubject (l :: ls) := ⟨rest, h, .inl hn⟩
      obtain ⟨rfl, hb⟩ := (expects_cons ..).1 ((then_bracketed _).1 hnode)
      exact hb
    | bracketedProperties h hp =>
      have hnode : Then Bracketed AfterBracketedSubject (l :: ls) := ⟨_, h, .inr ⟨rest, hp, hn⟩⟩
      obtain ⟨rfl, hb⟩ := (expects_cons ..).1 ((then_bracketed _).1 hnode)
      exact hb
    | iri h hp =>
      have hnode : Then Iri AfterSubject (l :: ls) := ⟨_, h, rest, hp, hn⟩
      obtain ⟨hl, ha⟩ := (then_iri_cons l ls).1 hnode
      exact (afterNodeStart_of_isIri _ l ls hl).2 ha
    | blankNode label hp => exact ⟨rest, hp, hn⟩
    | collection h hp =>
      have hnode : Then Collection AfterSubject (l :: ls) := ⟨_, h, rest, hp, hn⟩
      obtain ⟨rfl, hc⟩ := (expects_cons ..).1 ((then_collection _).1 hnode)
      exact hc
  · intro h
    cases l with
    | iri reference =>
      obtain ⟨rest, hp, hn⟩ := h
      exact ⟨rest, .iri (.reference reference ls) hp, hn⟩
    | name label name =>
      obtain ⟨rest, hp, hn⟩ := h
      exact ⟨rest, .iri (.name label name ls) hp, hn⟩
    | blankNode label =>
      obtain ⟨rest, hp, hn⟩ := h
      exact ⟨rest, .blankNode label hp, hn⟩
    | mark m =>
      cases m with
      | openBracket =>
        obtain ⟨others, hb, hn | ⟨rest, hp, hn⟩⟩ := (then_bracketed _).2 ⟨ls, rfl, h⟩
        · exact ⟨others, .bracketed hb, hn⟩
        · exact ⟨rest, .bracketedProperties hb hp, hn⟩
      | openParenthesis =>
        obtain ⟨others, hc, rest, hp, hn⟩ := (then_collection _).2 ⟨ls, rfl, h⟩
        exact ⟨rest, .collection hc hp, hn⟩
      | _ => cases h
    | _ => cases h

theorem document_cons (l : Lexeme) (ls : List Lexeme) :
    Document (l :: ls) ↔ AfterStatementStart l ls := by
  have htriples (l : Lexeme) : Then Triples StatementEnd (l :: ls) → Document (l :: ls) := by
    rintro ⟨_, h, rest, rfl, hd⟩
    exact .cons (.triples h) hd
  constructor
  · intro h
    cases h with
    | cons h hd =>
      cases h with
      | namespaceLabel label iri => exact ⟨label, iri, _, rfl, _, rfl, hd⟩
      | base iri => exact ⟨iri, _, rfl, _, rfl, hd⟩
      | namespaceLabelWord word label iri _ hw => exact ⟨.namespaceLabel, hw, label, iri, _, rfl, hd⟩
      | baseWord word iri _ hw => exact ⟨.base, hw, iri, _, rfl, hd⟩
      | triples h =>
        have hn := (then_triples_cons l ls).1 ⟨_, h, _, rfl, hd⟩
        cases l with
        | directive => cases hn
        | word => cases hn
        | _ => exact hn
  · intro h
    cases l with
    | directive d =>
      cases d with
      | namespaceLabel =>
        obtain ⟨label, iri, _, rfl, rest, rfl, hd⟩ := h
        exact .cons (.namespaceLabel label iri rest) hd
      | base =>
        obtain ⟨iri, _, rfl, rest, rfl, hd⟩ := h
        exact .cons (.base iri rest) hd
    | word word =>
      obtain ⟨d, hw, h⟩ := h
      cases d with
      | namespaceLabel =>
        obtain ⟨label, iri, rest, rfl, hd⟩ := h
        exact .cons (.namespaceLabelWord word label iri rest hw) hd
      | base =>
        obtain ⟨iri, rest, rfl, hd⟩ := h
        exact .cons (.baseWord word iri rest hw) hd
    | _ => exact htriples _ ((then_triples_cons _ ls).2 h)

end CommandOntology.Turtle.Grammar
