import CommandOntology.Turtle.Token

set_option autoImplicit false

/-!
# The grammar of documents

What the lexemes of a document may be, rule by rule and without regard to what they denote. Each rule is
a relation between two lists of lexemes: the first starts with what the rule describes, and the second is
what is left of it.
-/

namespace CommandOntology.Turtle.Grammar

/-- `iri = IRI | PNAME` -/
inductive Iri : List Lexeme → List Lexeme → Prop
  | reference (reference : String) (rest : List Lexeme) : Iri (.iri reference :: rest) rest
  | name (label name : String) (rest : List Lexeme) : Iri (.name label name :: rest) rest

/-- `verb = 'a' | iri` -/
inductive Verb : List Lexeme → List Lexeme → Prop
  | type (rest : List Lexeme) : Verb (.word "a" :: rest) rest
  | iri {ls rest : List Lexeme} (h : Iri ls rest) : Verb ls rest

/-- `semicolons = ';' ';'*` -/
inductive Semicolons : List Lexeme → List Lexeme → Prop
  | one (rest : List Lexeme) : Semicolons (.mark .semicolon :: rest) rest
  | more {ls rest : List Lexeme} (h : Semicolons ls rest) :
    Semicolons (.mark .semicolon :: ls) rest

mutual

/-- `object = iri | BNODE | bracketed | collection | literal | NUMBER | 'true' | 'false'`, where
`literal = STRING [LANGTAG | '^^' iri]` -/
inductive Object : List Lexeme → List Lexeme → Prop
  | iri {ls rest : List Lexeme} (h : Iri ls rest) : Object ls rest
  | blankNode (label : String) (rest : List Lexeme) : Object (.blankNode label :: rest) rest
  | bracketed {ls rest : List Lexeme} (h : Bracketed ls rest) : Object ls rest
  | collection {ls rest : List Lexeme} (h : Collection ls rest) : Object ls rest
  | text (value : String) (rest : List Lexeme) : Object (.text value :: rest) rest
  | taggedText (value tag : String) (rest : List Lexeme) :
    Object (.text value :: .languageTag tag :: rest) rest
  | typedText (value : String) {ls rest : List Lexeme} (h : Iri ls rest) :
    Object (.text value :: .mark .datatype :: ls) rest
  | number (kind : NumberKind) (digits : String) (rest : List Lexeme) :
    Object (.number kind digits :: rest) rest
  | truth (word : String) (rest : List Lexeme) (h : word = "true" ∨ word = "false") :
    Object (.word word :: rest) rest

/-- `objects = object (',' object)*` -/
inductive Objects : List Lexeme → List Lexeme → Prop
  | one {ls rest : List Lexeme} (h : Object ls rest) : Objects ls rest
  | more {ls others rest : List Lexeme} (h : Object ls (.mark .comma :: others))
    (hs : Objects others rest) : Objects ls rest

/-- `properties = verb objects (';'+ verb objects)* ';'*` -/
inductive Properties : List Lexeme → List Lexeme → Prop
  | one {ls afterVerb rest : List Lexeme} (hv : Verb ls afterVerb) (ho : Objects afterVerb rest) :
    Properties ls rest
  | trailing {ls afterVerb afterObjects rest : List Lexeme} (hv : Verb ls afterVerb)
    (ho : Objects afterVerb afterObjects) (hs : Semicolons afterObjects rest) : Properties ls rest
  | more {ls afterVerb afterObjects others rest : List Lexeme} (hv : Verb ls afterVerb)
    (ho : Objects afterVerb afterObjects) (hs : Semicolons afterObjects others)
    (hp : Properties others rest) : Properties ls rest

/-- `bracketed = '[' [properties] ']'` -/
inductive Bracketed : List Lexeme → List Lexeme → Prop
  | empty (rest : List Lexeme) : Bracketed (.mark .openBracket :: .mark .closeBracket :: rest) rest
  | properties {ls rest : List Lexeme} (h : Properties ls (.mark .closeBracket :: rest)) :
    Bracketed (.mark .openBracket :: ls) rest

/-- `items = object*` -/
inductive Items : List Lexeme → List Lexeme → Prop
  | nil (rest : List Lexeme) : Items rest rest
  | cons {ls others rest : List Lexeme} (h : Object ls others) (hs : Items others rest) :
    Items ls rest

/-- `collection = '(' items ')'` -/
inductive Collection : List Lexeme → List Lexeme → Prop
  | items {ls rest : List Lexeme} (h : Items ls (.mark .closeParenthesis :: rest)) :
    Collection (.mark .openParenthesis :: ls) rest

end

/-- `triples = bracketed [properties] | (iri | BNODE | collection) properties` -/
inductive Triples : List Lexeme → List Lexeme → Prop
  | bracketed {ls rest : List Lexeme} (h : Bracketed ls rest) : Triples ls rest
  | bracketedProperties {ls others rest : List Lexeme} (h : Bracketed ls others)
    (hp : Properties others rest) : Triples ls rest
  | iri {ls others rest : List Lexeme} (h : Iri ls others) (hp : Properties others rest) :
    Triples ls rest
  | blankNode (label : String) {ls rest : List Lexeme} (hp : Properties ls rest) :
    Triples (.blankNode label :: ls) rest
  | collection {ls others rest : List Lexeme} (h : Collection ls others)
    (hp : Properties others rest) : Triples ls rest

/-- `statement = ('@prefix' label IRI | '@base' IRI) '.' | PREFIX label IRI | BASE IRI | triples '.'`,
where a label is a `PNAME` without local part, and words are in any case. -/
inductive Statement : List Lexeme → List Lexeme → Prop
  | namespaceLabel (label iri : String) (rest : List Lexeme) :
    Statement (.directive .namespaceLabel :: .name label "" :: .iri iri :: .mark .dot :: rest) rest
  | base (iri : String) (rest : List Lexeme) :
    Statement (.directive .base :: .iri iri :: .mark .dot :: rest) rest
  | namespaceLabelWord (word label iri : String) (rest : List Lexeme) (h : word.toLower = "prefix") :
    Statement (.word word :: .name label "" :: .iri iri :: rest) rest
  | baseWord (word iri : String) (rest : List Lexeme) (h : word.toLower = "base") :
    Statement (.word word :: .iri iri :: rest) rest
  | triples {ls rest : List Lexeme} (h : Triples ls (.mark .dot :: rest)) : Statement ls rest

/-- `document = statement*` -/
inductive Document : List Lexeme → Prop
  | nil : Document []
  | cons {ls rest : List Lexeme} (h : Statement ls rest) (hd : Document rest) : Document ls

end CommandOntology.Turtle.Grammar
