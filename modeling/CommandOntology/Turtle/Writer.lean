import CommandOntology.Rdf.Graph
import CommandOntology.Rdf.LiteralValue
import CommandOntology.Turtle.Prefixes

set_option autoImplicit false

namespace CommandOntology.Turtle

open CommandOntology.Text

inductive WriteError
  | invalidIri (iri : String)
  | invalidTag (error : TagError)
  deriving DecidableEq, Repr

/-- The prefixes that a document uses, and the names that replace those which it cannot. -/
structure Usage where
  table : PrefixTable
  used : List (String × String)
  renamed : List (String × String)
  deriving Repr

namespace Usage

/-- A prefix that cannot be written as it is: it starts with an underscore, or is taken. -/
def needsRenaming (u : Usage) (label namespaceIri : String) : Bool :=
  label.toList.head? == some '_' || (findField u.used label).any (· ≠ namespaceIri)

def freshName (u : Usage) (label : String) : (room : Nat) → String
  | 0 => "p" ++ label
  | room + 1 =>
    if (findField u.used ("p" ++ label)).isNone then "p" ++ label
    else u.freshName ("p" ++ label) room

def written (u : Usage) (label namespaceIri : String) : String :=
  if u.needsRenaming label namespaceIri then
    (findField u.renamed label).getD (u.freshName label u.used.length)
  else label

def note (u : Usage) (label namespaceIri : String) : Usage :=
  let label' := u.written label namespaceIri
  { u with
    used := putField u.used label' namespaceIri
    renamed := if label' = label then u.renamed else putField u.renamed label label' }

/-- Notes the prefix of an IRI, which may be invented. Local names that end in a point are not
written. -/
def noteIri (u : Usage) (invents : Bool) (iri : String) : Usage :=
  match u.table.name? invents iri with
  | (none, _) => u
  | (some name, table) =>
    let u := { u with table }
    if name.rest.getLast? = some '.' then u else u.note name.label name.namespaceIri

def noteTerm (u : Usage) : Term → Usage
  | .iri value => u.noteIri false value
  | .blank _ => u
  | .literal _ (some datatype) _ => u.noteIri false datatype
  | .literal _ none _ => u

/-- Notes the prefixes of a statement. The type of a node is written without one. -/
def noteTriple (u : Usage) (t : Triple) : Usage :=
  let u := u.noteTerm t.subject
  let u :=
    match t.predicate with
    | .iri value => if value = Rdf.type then u else u.noteIri true value
    | _ => u
  u.noteTerm t.object

def ofGraph (table : PrefixTable) (g : Graph) : Usage :=
  g.statements.foldl noteTriple ⟨table, [], []⟩

def name? (u : Usage) (iri : String) : Option String :=
  (u.table.name? false iri).1.bind fun name =>
    if name.rest.getLast? = some '.' then none
    else
      some (u.written name.label name.namespaceIri ++ ":" ++ String.ofList (escapeLocal name.rest))

end Usage

/-- A text between quotes. One with line breaks is written between three quotes, and breaks stay. -/
def quotedText (text : String) : List Char :=
  if text.toList.contains '\n' then
    let escaped := replaceText "\"\"\"" "\\\"\\\"\\\"" (replaceChar '\\' ['\\', '\\'] text.toList)
    let closed :=
      match escaped.reverse with
      | '"' :: c :: rest => if c ≠ '\\' then ('"' :: '\\' :: c :: rest).reverse else escaped
      | _ => escaped
    "\"\"\"".toList ++ replaceChar '\r' ['\\', 'r'] closed ++ "\"\"\"".toList
  else
    let escaped := replaceChar '"' ['\\', '"'] (replaceChar '\\' ['\\', '\\'] text.toList)
    '"' :: replaceChar '\r' ['\\', 'r'] escaped ++ ['"']

def spellSpecial (lexical datatype : String) (text : List Char) : List Char :=
  if datatype = Xsd.double ∨ datatype = Xsd.decimal ∨ datatype = LiteralValue.float then
    match Reading.float lexical with
    | .ok (.infinite _) => replaceText "Infinity" "INF" (replaceText "inf" "INF" text)
    | .ok .nan => replaceText "nan" "NaN" text
    | _ => text
  else text

def scientificText (x : Binary64) : String :=
  let (mantissa, exponent) := partitionAt 'e' x.scientific
  let digits := (mantissa.reverse.dropWhile (· = '0')).reverse
  let digits := if digits.getLast? = some '.' then digits.dropLast else digits
  String.ofList (digits ++ 'e' :: exponent.getD [])

def isFinite : Binary64 → Bool
  | .finite .. => true
  | _ => false

/-- The form of a literal without quotes, if it has one: numbers and truth values. -/
def shorthand? (lexical datatype : String) : Option String :=
  if datatype = Xsd.integer then (Reading.integer lexical).toOption.map fun _ => lexical
  else if datatype = Xsd.boolean then some lexical
  else
    match (LiteralValue.ofLiteral? lexical datatype).bind fun _ => (Reading.float lexical).toOption with
    | none => none
    | some x =>
      if !isFinite x then none
      else if datatype = Xsd.double then some (scientificText x)
      else if datatype = Xsd.decimal then
        some (if lexical.toList.any ".eE".toList.contains then lexical else lexical ++ ".0")
      else none

def literalText (u : Usage) (lexical : String) (datatype language : Option String) : String :=
  match datatype, language with
  | _, some tag => String.ofList (quotedText lexical) ++ "@" ++ tag
  | none, none => String.ofList (quotedText lexical)
  | some datatype, none =>
    (shorthand? lexical datatype).getD
      (String.ofList (spellSpecial lexical datatype (quotedText lexical)) ++ "^^"
        ++ (u.name? datatype).getD ("<" ++ datatype ++ ">"))

def nodeText (u : Usage) : Term → Except WriteError String
  | .iri value =>
    if value = Rdf.nil then .ok "()"
    else
      match u.name? value with
      | some name => .ok name
      | none => if isWritable value then .ok ("<" ++ value ++ ">") else .error (.invalidIri value)
  | .blank label => .ok ("_:" ++ label)
  | .literal lexical datatype language => .ok (literalText u lexical datatype language)

def predicateText (u : Usage) (predicate : Term) : Except WriteError String :=
  if predicate = .iri Rdf.type then .ok "a" else nodeText u predicate

structure Draft where
  text : String
  done : List Term

abbrev Writing := Draft → Except WriteError Draft

namespace Draft

def add (text : String) : Writing := fun d =>
  .ok { d with text := d.text ++ text }

def finish (node : Term) : Writing := fun d =>
  .ok { d with done := node :: d.done }

def all (pieces : List Writing) : Writing := fun d =>
  pieces.foldlM (fun d piece => piece d) d

end Draft

structure Source where
  graph : Graph
  usage : Usage

/-- The lists of objects of a node by predicate: its types first, then its labels, then by IRI. -/
def Source.properties (s : Source) (subject : Term) : List (Term × List Term) :=
  let statements := s.graph.about subject
  let predicates := distinct (statements.map (·.predicate))
  let first := [Term.iri Rdf.type, Term.iri Rdfs.label].filter predicates.contains
  (first ++ listTerms (predicates.filter fun p => !first.contains p)).map fun p =>
    (p, listTerms ((statements.filter fun t => t.predicate == p).map (·.object)))

def lineAt (depth : Nat) : String :=
  "\n" ++ String.ofList (List.replicate (4 * depth) ' ')

/-- Objects, separated by commas. `write` writes one, given how deep it stands. -/
def writeObjects (write : Nat → Term → Writing) (depth : Nat) (objects : List Term) : Writing :=
  match objects with
  | [] => .ok
  | o :: rest =>
    Draft.all ([Draft.add " ", write (depth + 1) o] ++
      rest.flatMap fun o => [Draft.add ("," ++ lineAt (depth + 2)), write (depth + 1) o])

def writeProperties (s : Source) (write : Nat → Term → Writing) (depth : Nat) (subject : Term) :
    Writing :=
  let property (entry : Term × List Term) : Writing := fun d => do
    let name ← predicateText s.usage entry.1
    Draft.all [Draft.add name, writeObjects write depth entry.2] d
  match s.properties subject with
  | [] => .ok
  | entry :: rest =>
    Draft.all ([Draft.add " ", property entry] ++
      rest.flatMap fun entry => [Draft.add (" ;" ++ lineAt (depth + 1)), property entry])

/-- The cells of a list from one on, if every one has two statements. What counts as false is no cell. -/
def Source.cells? (s : Source) (cell : Term) : (room : Nat) → Option (List Term)
  | 0 => none
  | room + 1 =>
    if cell = .iri Rdf.nil then
      match s.graph.value? cell Rdf.rest with
      | none => some [cell]
      | some next => if next.countsAsTrue then (s.cells? next room).map (cell :: ·) else some [cell]
    else if (s.graph.about cell).length ≠ 2 then none
    else
      match s.graph.value? cell Rdf.rest with
      | none => some [cell]
      | some next => if next.countsAsTrue then (s.cells? next room).map (cell :: ·) else some [cell]

def Source.list? (s : Source) (node : Term) : Option (List Term) :=
  if (s.graph.value? node Rdf.first).isNone then none
  else s.cells? node (s.graph.size + 2)

def isBlankNode : Term → Bool
  | .blank _ => true
  | _ => false

/-- Whether a node is written in the place where it stands as an object. -/
def Source.isNested (s : Source) (d : Draft) (node : Term) : Bool :=
  isBlankNode node && !d.done.contains node && s.graph.references node ≤ 1

/-- Writes an object. Nested nodes are at most as deep as there are statements. -/
def writeObject (s : Source) : (room depth : Nat) → Term → Writing
  | 0, _, node => fun d => do Draft.add (← nodeText s.usage node) d
  | room + 1, depth, node => fun d =>
    if s.isNested d node then
      match s.list? node with
      | some cells =>
        let item (cell : Term) : Writing :=
          match s.graph.value? cell Rdf.first with
          | none => .ok
          | some item =>
            Draft.all [Draft.add " ", writeObject s room (depth + 1) item, Draft.finish cell]
        Draft.all ([Draft.add "("] ++ cells.map item ++ [Draft.add " )"]) d
      | none =>
        Draft.all [Draft.finish node, Draft.add "[",
          writeProperties s (writeObject s room) (depth + 1) node, Draft.add " ]"] d
    else do Draft.add (← nodeText s.usage node) d

/-- Writes a subject with its predicates and objects. A blank node that is no object needs no label. -/
def writeSubject (s : Source) (subject : Term) : Writing := fun d =>
  if d.done.contains subject then .ok d
  else do
    let label ←
      if isBlankNode subject && s.graph.references subject == 0 then .ok "[]"
      else nodeText s.usage subject
    Draft.all [Draft.finish subject, Draft.add ("\n" ++ label),
      writeProperties s (writeObject s (s.graph.size + 1)) 0 subject, Draft.add " .\n"] d

/-- The order of subjects: by whether they are blank, how often they are objects, and name. -/
def subjectBefore (a b : Bool × Nat × Term) : Bool :=
  if a.1 ≠ b.1 then !a.1
  else if a.2.1 ≠ b.2.1 then a.2.1 < b.2.1
  else a.2.2.listedBefore b.2.2

def orderedSubjects (g : Graph) : List Term :=
  let isClass (t : Triple) : Bool :=
    t.predicate == .iri Rdf.type && t.object == .iri (Rdfs.namespaceIri ++ "Class")
  let classes := listTerms (distinct ((g.statements.filter isClass).map (·.subject)))
  let others := (g.subjects.filter fun s => !classes.contains s).map fun s =>
    (isBlankNode s, g.references s, s)
  classes ++ (stableSort subjectBefore others).map (·.2.2)

def prefixLines (u : Usage) : String :=
  String.join ((u.used.mergeSort fun a b => decide (a.1 ≤ b.1)).map fun entry =>
    "@prefix " ++ entry.1 ++ ": <" ++ entry.2 ++ "> .\n")

def write (table : PrefixTable) (g : Graph) : Except WriteError String := do
  let usage := Usage.ofGraph table g
  let subjects := (orderedSubjects g).map (writeSubject ⟨g, usage⟩)
  let written ← Draft.all subjects ⟨prefixLines usage, []⟩
  return written.text ++ "\n"

end CommandOntology.Turtle
