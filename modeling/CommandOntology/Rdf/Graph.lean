import CommandOntology.Data.Distinct
import CommandOntology.Rdf.Term
import CommandOntology.Text.Case
import CommandOntology.Text.Layout

set_option autoImplicit false

/-!
# Graphs

A graph is a set of statements. Its nodes keep the lexical form of literals; a literal with a language
has no datatype, and languages that differ only in case are the same.
-/

namespace CommandOntology

namespace Term

/-- The text of a literal as its datatype has it. In normalized strings and tokens every white space is a
blank, and in tokens there is one at most between words and none outside. -/
def textOfType (lexical datatype : String) : String :=
  let blanks := lexical.toList.map fun c => if c = '\t' ∨ c = '\n' ∨ c = '\r' then ' ' else c
  if datatype = Xsd.namespaceIri ++ "normalizedString" then String.ofList blanks
  else if datatype = Xsd.namespaceIri ++ "token" then
    String.ofList (Text.collapseSpaces (Text.trim blanks))
  else lexical

def node : Term → Term
  | literal lexical datatype language =>
    match language.filter (· ≠ "") with
    | some tag => .literal lexical none (some tag)
    | none => .literal (textOfType lexical (datatype.getD "")) (datatype.filter (· ≠ "")) none
  | other => other

def matchKey : Term → Term
  | literal lexical datatype language => .literal lexical datatype (language.map Text.lower)
  | other => other

/-- Whether a language tag is made of letters, with letters or digits after each dash. A line end behind it
does no harm. -/
def isLanguageTag (tag : String) : Bool :=
  let chars := tag.toList
  let chars := if chars.getLast? = some '\n' then chars.dropLast else chars
  match Text.splitOn '-' chars with
  | [] => false
  | first :: rest =>
    !first.isEmpty && first.all Text.isAsciiLetter &&
      rest.all fun part => !part.isEmpty && part.all Text.isAsciiAlphanumeric

/-- The language tag of a term that is not a node of any graph because of it. -/
def faultyTag? : Term → Option String
  | literal _ _ (some tag) => if tag = "" || isLanguageTag tag then none else some tag
  | _ => none

end Term

structure TagError where
  tag : String
  deriving DecidableEq, Repr

def TagError.message (e : TagError) : String :=
  "'" ++ e.tag ++ "' is not a valid language tag!"

/-- Refuses terms if one of them has a faulty language tag; the first such tag is told. -/
def checkTags (terms : List Term) : Except TagError Unit :=
  match terms.findSome? Term.faultyTag? with
  | some tag => .error ⟨tag⟩
  | none => .ok ()

def Triple.terms (t : Triple) : List Term :=
  [t.subject, t.predicate, t.object]

def Triple.mapTerms (f : Term → Term) (t : Triple) : Triple :=
  ⟨f t.subject, f t.predicate, f t.object⟩

/-- A set of statements, in the order in which they were first added. -/
structure Graph where
  statements : List Triple
  deriving Repr

namespace Graph

def ofList (triples : List Triple) : Graph :=
  ⟨distinctBy (·.mapTerms Term.matchKey) (triples.map (·.mapTerms Term.node))⟩

def size (g : Graph) : Nat :=
  g.statements.length

def about (g : Graph) (subject : Term) : List Triple :=
  g.statements.filter fun t => t.subject == subject

def value? (g : Graph) (subject : Term) (predicate : String) : Option Term :=
  ((g.about subject).find? fun t => t.predicate == .iri predicate).map (·.object)

def references (g : Graph) (node : Term) : Nat :=
  g.statements.countP fun t => t.object == node

def subjects (g : Graph) : List Term :=
  distinct (g.statements.map (·.subject))

end Graph

end CommandOntology
