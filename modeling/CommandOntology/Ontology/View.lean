import CommandOntology.Store
import CommandOntology.Text.Layout
import CommandOntology.Number.Reading
import CommandOntology.Command.Descriptor
import CommandOntology.Command.TypeTag

set_option autoImplicit false

/-!
# Reading a graph as commands

What the rules and the index ask of a store. Where a subject has several values, the one with the least
line form is taken, so that nothing depends on the order of storage.
-/

namespace CommandOntology

structure View where
  store : Store
  declared : List Term

namespace View

def ofStore (store : Store) : View :=
  ⟨store, store.subjects⟩

def isDeclared (v : View) (t : Term) : Bool :=
  v.declared.contains t

def instances (v : View) (classIri : String) : List Term :=
  sortTerms ((v.store.query ⟨none, some (.iri Rdf.type), some (.iri classIri)⟩).map (·.subject))

def commands (v : View) : List Term :=
  v.instances Cnv.command

/-- The values of a resource under a predicate, in order. A literal has none. -/
def values (v : View) (subject : Term) (predicate : String) : List Term :=
  if subject.isResource then
    sortTerms ((v.store.query ⟨some subject, some (.iri predicate), none⟩).map (·.object))
  else []

def value? (v : View) (subject : Term) (predicate : String) : Option Term :=
  (v.values subject predicate).head?

def lexical? : Term → Option String
  | .literal lexical _ _ => some lexical
  | _ => none

/-- The name that a noun or verb stands for: its text, or the name of the resource it is. -/
def nameOf (v : View) : Option Term → Option String
  | none => none
  | some (.literal lexical _ _) => some lexical
  | some resource => (v.value? resource Cnv.name).bind lexical?

def nounOf (v : View) (command : Term) : Option String :=
  v.nameOf (v.value? command Cnv.hasNoun)

def verbOf (v : View) (command : Term) : Option String :=
  v.nameOf (v.value? command Cnv.hasVerb)

/-- A help text and whether it is in a language other than English. -/
structure HelpText where
  isForeign : Bool
  text : String

/-- English texts and texts without a language come first, then the order of the texts decides. -/
def HelpText.le (a b : HelpText) : Bool :=
  if a.isForeign ≠ b.isForeign then b.isForeign else a.text ≤ b.text

def helpTexts (values : List Term) : List HelpText :=
  values.filterMap fun value =>
    match value with
    | .literal lexical _ language => some ⟨language ≠ none && language ≠ some "en", lexical⟩
    | _ => none

/-- The help text of a resource: the best text under the first help predicate that has one. -/
def helpText (v : View) (subject : Term) : Option String :=
  helpPredicates.findSome? fun predicate =>
    (((helpTexts (v.values subject predicate)).mergeSort HelpText.le).head?).map (·.text)

def arguments (v : View) (command : Term) : List Term :=
  v.values command Cnv.hasArgument

/-- The arguments of all commands that are described resources, each once. -/
def describedArguments (v : View) : List Term :=
  distinct (v.commands.flatMap fun command =>
    (v.arguments command).filter fun a => a.isResource && v.isDeclared a)

def typeTag (datatype : Term) : String :=
  TypeTag.normalize datatype.text

/-- The truth value of a literal that is plain or of the boolean type. -/
def boolean? : Term → Option Bool
  | .literal lexical datatype _ =>
    if datatype = none ∨ datatype = some Xsd.boolean then
      match Text.lower (Text.strip lexical) with
      | "true" => some true
      | "1" => some true
      | "false" => some false
      | "0" => some false
      | _ => none
    else none
  | _ => none

def integer? : Term → Option Int
  | .literal lexical datatype _ =>
    if datatype = none ∨ datatype = some Xsd.integer then (Reading.integer lexical).toOption else none
  | _ => none

end View

end CommandOntology
