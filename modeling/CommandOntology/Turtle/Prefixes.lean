import CommandOntology.Data.Value
import CommandOntology.Rdf.Vocabulary
import CommandOntology.Text.Category
import CommandOntology.Text.CharClass
import CommandOntology.Text.Layout

set_option autoImplicit false

namespace CommandOntology.Turtle

open CommandOntology.Text

/-- Prefixes and the namespaces that they stand for. No prefix and no namespace occurs twice. -/
structure PrefixTable where
  entries : List (String × String)
  deriving Repr

namespace PrefixTable

def empty : PrefixTable := ⟨[]⟩

def namespace? (t : PrefixTable) (label : String) : Option String :=
  findField t.entries label

def label? (t : PrefixTable) (namespaceIri : String) : Option String :=
  (t.entries.find? fun entry => entry.2 == namespaceIri).map (·.1)

/-- Enters a prefix that is free; its namespace loses the prefix that it had. -/
def enter (t : PrefixTable) (label namespaceIri : String) : PrefixTable :=
  ⟨t.entries.filter (fun entry => entry.2 != namespaceIri && entry.1 != label)
    ++ [(label, namespaceIri)]⟩

def numbered (label : String) (n : Nat) : String :=
  label ++ toString n

/-- The first of the numbered prefixes from `n` on that is free or bound to a namespace already. -/
def nextNumbered (t : PrefixTable) (label namespaceIri : String) (n : Nat) : (room : Nat) → String
  | 0 => numbered label n
  | room + 1 =>
    match t.namespace? (numbered label n) with
    | none => numbered label n
    | some bound =>
      if bound = namespaceIri then numbered label n
      else t.nextNumbered label namespaceIri (n + 1) room

/-- Binds a prefix. When it stands for another namespace, a number is put after it. -/
def bind (t : PrefixTable) (label namespaceIri : String) : PrefixTable :=
  match t.namespace? label with
  | some bound =>
    if bound = namespaceIri then t
    else
      t.enter (t.nextNumbered (if label = "" then "default" else label) namespaceIri 1
        t.entries.length) namespaceIri
  | none => t.enter label namespaceIri

def bindAll (t : PrefixTable) (entries : List (String × String)) : PrefixTable :=
  entries.foldl (fun t entry => t.bind entry.1 entry.2) t

def invented (t : PrefixTable) (n : Nat) : (room : Nat) → String
  | 0 => numbered "ns" n
  | room + 1 =>
    if (t.namespace? (numbered "ns" n)).isNone then numbered "ns" n else t.invented (n + 1) room

end PrefixTable

def isForbiddenInIri (c : Char) : Bool :=
  "<>\" \x7b\x7d|\\^\x60".toList.contains c

def isWritable (iri : String) : Bool :=
  !iri.toList.any isForbiddenInIri

def isLocalNameChar (c : Char) : Bool :=
  if c.toNat < 128 then isAsciiAlphanumeric c || "-._%()".toList.contains c
  else
    [0xb7, 0x387].contains c.toNat ||
      match category c with
      | .uppercaseLetter | .lowercaseLetter | .titlecaseLetter | .otherLetter | .letterNumber
      | .modifierLetter | .nonspacingMark | .spacingMark | .enclosingMark | .decimalNumber => true
      | _ => false

def isLocalNameStart (c : Char) : Bool :=
  if c.toNat < 128 then isAsciiAlphanumeric c || c == '_'
  else
    match category c with
    | .uppercaseLetter | .lowercaseLetter | .titlecaseLetter | .otherLetter | .letterNumber
    | .decimalNumber => true
    | _ => false

/-- The number of characters of an IRI before its longest end of local name characters, and that many
characters before the character that stands there. -/
def localTailStart (iri : List Char) : Nat :=
  iri.length - spanLength isLocalNameChar iri.reverse

/-- Splits an IRI before the first character that may start a local name behind the last character that
may not belong to one; if there is none behind it, before the first in the whole IRI. A part that is
empty is not split off. -/
def splitIri? (iri : List Char) : Option (List Char × List Char) :=
  let tail := localTailStart iri
  if tail = 0 then none
  else
    let skipped := spanLength (fun c => !isLocalNameStart c) (iri.drop (tail - 1))
    let place :=
      if tail - 1 + skipped < iri.length then tail - 1 + skipped
      else spanLength (fun c => !isLocalNameStart c) iri
    if place = 0 ∨ iri.length ≤ place then none else some (iri.take place, iri.drop place)

/-- A prefixed name: the prefix, its namespace and the local name. -/
structure QualifiedName where
  label : String
  namespaceIri : String
  rest : List Char
  deriving Repr

namespace PrefixTable

/-- The longest namespace that is bound, longer than the given one, and at the start of an IRI. -/
def longerNamespace? (t : PrefixTable) (namespaceIri iri : List Char) : Option String :=
  (t.entries.filter fun entry =>
    let bound := entry.2.toList
    namespaceIri.length < bound.length && namespaceIri.isPrefixOf bound && bound.isPrefixOf iri).foldl
      (fun best entry =>
        match best with
        | none => some entry.2
        | some b => if b.length < entry.2.length then some entry.2 else some b)
      none

def wholeName? (t : PrefixTable) (iri : String) : Option QualifiedName :=
  (t.label? iri).map fun label => ⟨label, iri, []⟩

/-- The name of an IRI, and the table with the prefix that was invented for it if `invents` allows
that. -/
def name? (t : PrefixTable) (invents : Bool) (iri : String) : Option QualifiedName × PrefixTable :=
  match if isWritable iri then splitIri? iri.toList else none with
  | none => (t.wholeName? iri, t)
  | some (namespaceChars, rest) =>
    let namespaceIri := (t.longerNamespace? namespaceChars iri.toList).getD
      (String.ofList namespaceChars)
    let rest :=
      if namespaceIri.length = namespaceChars.length then rest
      else iri.toList.drop namespaceIri.length
    match t.label? namespaceIri with
    | some label => (some ⟨label, namespaceIri, rest⟩, t)
    | none =>
      if invents then
        let label := t.invented 1 t.entries.length
        (some ⟨label, namespaceIri, rest⟩, t.enter label namespaceIri)
      else (t.wholeName? iri, t)

end PrefixTable

/-- How a local name is written: parentheses, and percent signs that start no encoded byte, are
escaped. -/
def escapeLocal : List Char → List Char
  | [] => []
  | c :: rest =>
    let isBare := c = '%' ∧ ¬((rest.take 2).length = 2 ∧ (rest.take 2).all isHexDigit)
    if c = '(' ∨ c = ')' ∨ isBare then '\\' :: c :: escapeLocal rest else c :: escapeLocal rest

def coreNamespaces : List (String × String) :=
  [("owl", "http://www.w3.org/2002/07/owl#"), ("rdf", Rdf.namespaceIri),
    ("rdfs", Rdfs.namespaceIri), ("xsd", Xsd.namespaceIri),
    ("xml", "http://www.w3.org/XML/1998/namespace")]

def commonNamespaces : List (String × String) :=
  [("brick", "https://brickschema.org/schema/Brick#"),
    ("csvw", "http://www.w3.org/ns/csvw#"),
    ("dc", "http://purl.org/dc/elements/1.1/"),
    ("dcat", "http://www.w3.org/ns/dcat#"),
    ("dcmitype", "http://purl.org/dc/dcmitype/"),
    ("dcterms", "http://purl.org/dc/terms/"),
    ("dcam", "http://purl.org/dc/dcam/"),
    ("doap", "http://usefulinc.com/ns/doap#"),
    ("foaf", "http://xmlns.com/foaf/0.1/"),
    ("geo", "http://www.opengis.net/ont/geosparql#"),
    ("odrl", "http://www.w3.org/ns/odrl/2/"),
    ("org", "http://www.w3.org/ns/org#"),
    ("prof", "http://www.w3.org/ns/dx/prof/"),
    ("prov", "http://www.w3.org/ns/prov#"),
    ("qb", "http://purl.org/linked-data/cube#"),
    ("schema", "https://schema.org/"),
    ("sh", "http://www.w3.org/ns/shacl#"),
    ("skos", "http://www.w3.org/2004/02/skos/core#"),
    ("sosa", "http://www.w3.org/ns/sosa/"),
    ("ssn", "http://www.w3.org/ns/ssn/"),
    ("time", "http://www.w3.org/2006/time#"),
    ("vann", "http://purl.org/vocab/vann/"),
    ("void", "http://rdfs.org/ns/void#"),
    ("wgs", "https://www.w3.org/2003/01/geo/wgs84_pos#")]

end CommandOntology.Turtle
