import CommandOntology.Rdf.Vocabulary

set_option autoImplicit false

namespace CommandOntology

/-- A node of a graph. A literal has a datatype or a language tag, or neither. -/
inductive Term
  | iri (value : String)
  | blank (label : String)
  | literal (lexical : String) (datatype language : Option String)
  deriving DecidableEq, Repr, Inhabited, Hashable

namespace Term

def plain (lexical : String) : Term :=
  .literal lexical none none

def typed (lexical datatype : String) : Term :=
  .literal lexical (some datatype) none

def isResource : Term → Bool
  | literal .. => false
  | _ => true

def literalChar (c : Char) : List Char :=
  if c = '\\' then ['\\', '\\']
  else if c = '"' then ['\\', '"']
  else if c = '\n' then ['\\', 'n']
  else if c = '\r' then ['\\', 'r']
  else if c = '\t' then ['\\', 't']
  else [c]

def quotedLiteral (lexical : String) : String :=
  String.ofList ('"' :: lexical.toList.flatMap literalChar ++ ['"'])

/-- What follows the quotes of a literal: its language tag or its datatype. An empty mark and the
datatype of plain strings are left out. -/
def literalMark (datatype language : Option String) : String :=
  match language.filter (· ≠ "") with
  | some tag => "@" ++ tag
  | none =>
    match datatype.filter fun type => type ≠ "" && type ≠ Xsd.string with
    | some type => "^^<" ++ type ++ ">"
    | none => ""

def lineForm : Term → String
  | iri value => "<" ++ value ++ ">"
  | blank label => "_:" ++ label
  | literal lexical datatype language => quotedLiteral lexical ++ literalMark datatype language

def text : Term → String
  | iri value => value
  | blank label => "_:" ++ label
  | literal lexical _ _ => lexical

end Term

/-- Puts elements in the order of their keys; elements of one key keep their order. -/
def sortByKey {α κ : Type} (le : κ → κ → Bool) (key : α → κ) (xs : List α) : List α :=
  ((xs.map fun x => (key x, x)).mergeSort fun a b => le a.1 b.1).map (·.2)

def sortTerms (terms : List Term) : List Term :=
  sortByKey (fun a b => decide (a ≤ b)) Term.lineForm terms

structure Triple where
  subject : Term
  predicate : Term
  object : Term
  deriving DecidableEq, Repr, Inhabited, Hashable

namespace Triple

def lineForm (t : Triple) : String :=
  t.subject.lineForm ++ " " ++ t.predicate.lineForm ++ " " ++ t.object.lineForm ++ " ."

structure Key where
  subject : String
  predicate : String
  object : String
  deriving DecidableEq, Repr

def Key.le (a b : Key) : Bool :=
  if a.subject ≠ b.subject then a.subject ≤ b.subject
  else if a.predicate ≠ b.predicate then a.predicate ≤ b.predicate
  else a.object ≤ b.object

def key (t : Triple) : Key :=
  ⟨t.subject.lineForm, t.predicate.lineForm, t.object.lineForm⟩

end Triple

def sortTriples (triples : List Triple) : List Triple :=
  sortByKey Triple.Key.le Triple.key triples

structure TriplePattern where
  subject : Option Term
  predicate : Option Term
  object : Option Term
  deriving DecidableEq, Repr

namespace TriplePattern

def admits (place : Option Term) (term : Term) : Bool :=
  match place with
  | none => true
  | some t => t == term

def holds (p : TriplePattern) (t : Triple) : Bool :=
  admits p.subject t.subject && admits p.predicate t.predicate && admits p.object t.object

end TriplePattern

end CommandOntology
