import CommandOntology.Turtle.Document
import CommandOntology.Turtle.Grammar

set_option autoImplicit false

/-!
# Syntax trees of documents

A tree for each rule of the grammar, with the lexemes that it stands for. Whatever lexemes the grammar admits as a
document are those of a list of statements.

The nodes of a tree are read from left to right, inner ones before what they stand in. Each has a value, and leaves
statements behind. What a blank node stands for, and which cells a collection has, is kept beside the statements.
-/

namespace CommandOntology.Turtle

namespace Tree

/-- `iri = IRI | PNAME` -/
inductive Iri
  | reference (reference : String)
  | name (label rest : String)
  deriving DecidableEq, Repr

/-- `verb = 'a' | iri` -/
inductive Verb
  | type
  | iri (iri : Iri)
  deriving DecidableEq, Repr

/-- `literal = STRING [LANGTAG | '^^' iri] | NUMBER | 'true' | 'false'` -/
inductive Literal
  | text (value : String)
  | taggedText (value tag : String)
  | typedText (value : String) (datatype : Iri)
  | number (kind : NumberKind) (digits : String)
  | truth (value : Bool)
  deriving DecidableEq, Repr

mutual

/-- `node = iri | BNODE | literal | '[' [properties] ']' | '(' node* ')'` -/
inductive Node
  | iri (iri : Iri)
  | blankNode (label : String)
  | literal (literal : Literal)
  | emptyBrackets
  | brackets (properties : Properties)
  | collection (items : Nodes)

inductive Nodes
  | nil
  | cons (node : Node) (nodes : Nodes)

/-- `property = verb node (',' node)*` -/
inductive Property
  | objects (verb : Verb) (first : Node) (others : Nodes)

/-- `properties = property (';'+ property)* ';'*`. Before more properties, one semicolon comes on top of those that
are counted. -/
inductive Properties
  | last (property : Property) (semicolons : Nat)
  | more (property : Property) (semicolons : Nat) (properties : Properties)

end

def Node.isResource : Node → Bool
  | literal _ => false
  | _ => true

def Node.isBrackets : Node → Bool
  | emptyBrackets => true
  | brackets _ => true
  | _ => false

theorem Node.isResource_of_isBrackets {node : Node} (h : node.isBrackets = true) : node.isResource = true := by
  cases node <;> first
    | rfl
    | cases h

/-- A declaration, or a subject with its properties. Brackets are a statement without further properties. -/
inductive Statement
  | namespaceLabel (label iri : String)
  | base (iri : String)
  | namespaceLabelWord (word label iri : String) (h : word.toLower = "prefix")
  | baseWord (word iri : String) (h : word.toLower = "base")
  | brackets (node : Node) (h : node.isBrackets = true)
  | triples (subject : Node) (properties : Properties) (h : subject.isResource = true)

def Iri.lexeme : Iri → Lexeme
  | .reference text => .iri text
  | .name label rest => .name label rest

def Verb.lexeme : Verb → Lexeme
  | .type => .word "a"
  | .iri i => i.lexeme

def Literal.lexemes : Literal → List Lexeme
  | text value => [.text value]
  | taggedText value tag => [.text value, .languageTag tag]
  | typedText value datatype => [.text value, .mark .datatype, datatype.lexeme]
  | number kind digits => [.number kind digits]
  | truth value => [.word (if value then "true" else "false")]

mutual

def Node.lexemes : Node → List Lexeme
  | .iri iri => [iri.lexeme]
  | .blankNode label => [.blankNode label]
  | .literal literal => literal.lexemes
  | .emptyBrackets => [.mark .openBracket, .mark .closeBracket]
  | .brackets properties => .mark .openBracket :: (properties.lexemes ++ [.mark .closeBracket])
  | .collection items => .mark .openParenthesis :: (items.lexemes ++ [.mark .closeParenthesis])

def Nodes.lexemes : Nodes → List Lexeme
  | .nil => []
  | .cons node nodes => node.lexemes ++ nodes.lexemes

def Nodes.objectLexemes : Nodes → List Lexeme
  | .nil => []
  | .cons node nodes => .mark .comma :: (node.lexemes ++ nodes.objectLexemes)

def Property.lexemes : Property → List Lexeme
  | .objects verb first others => verb.lexeme :: (first.lexemes ++ others.objectLexemes)

def Properties.lexemes : Properties → List Lexeme
  | .last property semicolons => property.lexemes ++ .replicate semicolons (.mark .semicolon)
  | .more property semicolons properties =>
    property.lexemes ++ (.mark .semicolon :: (.replicate semicolons (.mark .semicolon) ++ properties.lexemes))

end

def Statement.lexemes : Statement → List Lexeme
  | namespaceLabel label iri => [.directive .namespaceLabel, .name label "", .iri iri, .mark .dot]
  | base iri => [.directive .base, .iri iri, .mark .dot]
  | namespaceLabelWord word label iri _ => [.word word, .name label "", .iri iri]
  | baseWord word iri _ => [.word word, .iri iri]
  | brackets node _ => node.lexemes ++ [.mark .dot]
  | triples subject properties _ => subject.lexemes ++ (properties.lexemes ++ [.mark .dot])

def documentLexemes (statements : List Statement) : List Lexeme :=
  statements.flatMap Statement.lexemes

end Tree

namespace Grammar

variable {ls rest : List Lexeme}

theorem Iri.exists_tree (h : Iri ls rest) : ∃ iri : Tree.Iri, ls = iri.lexeme :: rest := by
  cases h with
  | reference reference => exact ⟨.reference reference, rfl⟩
  | name label name => exact ⟨.name label name, rfl⟩

theorem Verb.exists_tree (h : Verb ls rest) : ∃ verb : Tree.Verb, ls = verb.lexeme :: rest := by
  cases h with
  | type => exact ⟨.type, rfl⟩
  | iri h =>
    obtain ⟨iri, rfl⟩ := h.exists_tree
    exact ⟨.iri iri, rfl⟩

theorem Semicolons.exists_count (h : Semicolons ls rest) :
    ∃ n, ls = .mark .semicolon :: (.replicate n (.mark .semicolon) ++ rest) := by
  induction h with
  | one => exact ⟨0, rfl⟩
  | more _ ih =>
    obtain ⟨n, rfl⟩ := ih
    exact ⟨n + 1, rfl⟩

-- The relations are propositions: a tree is found for each derivation, by recursion on it.
mutual

theorem Object.exists_tree {ls rest : List Lexeme} : Object ls rest → ∃ node : Tree.Node, ls = node.lexemes ++ rest
  | .iri h => by
    obtain ⟨iri, rfl⟩ := h.exists_tree
    exact ⟨.iri iri, rfl⟩
  | .blankNode label rest => ⟨.blankNode label, rfl⟩
  | .bracketed h => by
    obtain ⟨node, -, rfl⟩ := h.exists_tree
    exact ⟨node, rfl⟩
  | .collection h => by
    obtain ⟨items, rfl⟩ := h.exists_tree
    exact ⟨.collection items, rfl⟩
  | .text value rest => ⟨.literal (.text value), rfl⟩
  | .taggedText value tag rest => ⟨.literal (.taggedText value tag), rfl⟩
  | .typedText value h => by
    obtain ⟨iri, rfl⟩ := h.exists_tree
    exact ⟨.literal (.typedText value iri), rfl⟩
  | .number kind digits rest => ⟨.literal (.number kind digits), rfl⟩
  | .truth word rest h => by
    obtain rfl | rfl := h
    · exact ⟨.literal (.truth true), rfl⟩
    · exact ⟨.literal (.truth false), rfl⟩

theorem Objects.exists_tree {ls rest : List Lexeme} : Objects ls rest →
    ∃ (first : Tree.Node) (others : Tree.Nodes), ls = first.lexemes ++ (others.objectLexemes ++ rest)
  | .one h => by
    obtain ⟨first, rfl⟩ := h.exists_tree
    exact ⟨first, .nil, rfl⟩
  | .more h hs => by
    obtain ⟨first, rfl⟩ := h.exists_tree
    obtain ⟨next, others, rfl⟩ := hs.exists_tree
    exact ⟨first, .cons next others, by simp [Tree.Nodes.objectLexemes]⟩

theorem Properties.exists_tree {ls rest : List Lexeme} : Properties ls rest →
    ∃ properties : Tree.Properties, ls = properties.lexemes ++ rest
  | .one hv ho => by
    obtain ⟨verb, rfl⟩ := hv.exists_tree
    obtain ⟨first, others, rfl⟩ := ho.exists_tree
    exact ⟨.last (.objects verb first others) 0, by simp [Tree.Properties.lexemes, Tree.Property.lexemes]⟩
  | .trailing hv ho hs => by
    obtain ⟨verb, rfl⟩ := hv.exists_tree
    obtain ⟨first, others, rfl⟩ := ho.exists_tree
    obtain ⟨n, rfl⟩ := hs.exists_count
    exact ⟨.last (.objects verb first others) (n + 1), by
      simp [Tree.Properties.lexemes, Tree.Property.lexemes, List.replicate_succ]⟩
  | .more hv ho hs hp => by
    obtain ⟨verb, rfl⟩ := hv.exists_tree
    obtain ⟨first, others, rfl⟩ := ho.exists_tree
    obtain ⟨n, rfl⟩ := hs.exists_count
    obtain ⟨properties, rfl⟩ := hp.exists_tree
    exact ⟨.more (.objects verb first others) n properties, by
      simp [Tree.Properties.lexemes, Tree.Property.lexemes]⟩

theorem Bracketed.exists_tree {ls rest : List Lexeme} : Bracketed ls rest →
    ∃ node : Tree.Node, node.isBrackets = true ∧ ls = node.lexemes ++ rest
  | .empty rest => ⟨.emptyBrackets, rfl, rfl⟩
  | .properties h => by
    obtain ⟨properties, rfl⟩ := h.exists_tree
    exact ⟨.brackets properties, rfl, by simp [Tree.Node.lexemes]⟩

theorem Items.exists_tree {ls rest : List Lexeme} : Items ls rest → ∃ nodes : Tree.Nodes, ls = nodes.lexemes ++ rest
  | .nil rest => ⟨.nil, rfl⟩
  | .cons h hs => by
    obtain ⟨node, rfl⟩ := h.exists_tree
    obtain ⟨nodes, rfl⟩ := hs.exists_tree
    exact ⟨.cons node nodes, by simp [Tree.Nodes.lexemes]⟩

theorem Collection.exists_tree {ls rest : List Lexeme} : Collection ls rest →
    ∃ items : Tree.Nodes, ls = (Tree.Node.collection items).lexemes ++ rest
  | .items h => by
    obtain ⟨items, rfl⟩ := h.exists_tree
    exact ⟨items, by simp [Tree.Node.lexemes]⟩

end

theorem Triples.exists_tree (h : Triples ls (.mark .dot :: rest)) :
    ∃ statement : Tree.Statement, ls = statement.lexemes ++ rest := by
  cases h with
  | bracketed h =>
    obtain ⟨node, hb, rfl⟩ := h.exists_tree
    exact ⟨.brackets node hb, by simp [Tree.Statement.lexemes]⟩
  | bracketedProperties h hp =>
    obtain ⟨node, hb, rfl⟩ := h.exists_tree
    obtain ⟨properties, rfl⟩ := hp.exists_tree
    exact ⟨.triples node properties (Tree.Node.isResource_of_isBrackets hb), by simp [Tree.Statement.lexemes]⟩
  | iri h hp =>
    obtain ⟨iri, rfl⟩ := h.exists_tree
    obtain ⟨properties, rfl⟩ := hp.exists_tree
    exact ⟨.triples (.iri iri) properties rfl, by simp [Tree.Statement.lexemes, Tree.Node.lexemes]⟩
  | blankNode label hp =>
    obtain ⟨properties, rfl⟩ := hp.exists_tree
    exact ⟨.triples (.blankNode label) properties rfl, by simp [Tree.Statement.lexemes, Tree.Node.lexemes]⟩
  | collection h hp =>
    obtain ⟨items, rfl⟩ := h.exists_tree
    obtain ⟨properties, rfl⟩ := hp.exists_tree
    exact ⟨.triples (.collection items) properties rfl, by simp [Tree.Statement.lexemes]⟩

theorem Statement.exists_tree (h : Statement ls rest) :
    ∃ statement : Tree.Statement, ls = statement.lexemes ++ rest := by
  cases h with
  | namespaceLabel label iri => exact ⟨.namespaceLabel label iri, rfl⟩
  | base iri => exact ⟨.base iri, rfl⟩
  | namespaceLabelWord word label iri _ hw => exact ⟨.namespaceLabelWord word label iri hw, rfl⟩
  | baseWord word iri _ hw => exact ⟨.baseWord word iri hw, rfl⟩
  | triples h => exact h.exists_tree

theorem Document.exists_trees (h : Document ls) : ∃ statements, Tree.documentLexemes statements = ls := by
  induction h with
  | nil => exact ⟨[], rfl⟩
  | cons h _ ih =>
    obtain ⟨statement, rfl⟩ := h.exists_tree
    obtain ⟨statements, rfl⟩ := ih
    exact ⟨statement :: statements, rfl⟩

end Grammar

open CommandOntology.Text

inductive Origin
  | label (label : String)
  | brackets
  | cell
  deriving DecidableEq, Repr

structure Occurrence where
  origin : Origin
  node : Term
  deriving DecidableEq, Repr

/-- A collection: the node that stands for it, its cells, and what its items are read as. -/
structure Collected where
  head : Term
  cells : List Term
  values : List Term
  deriving DecidableEq, Repr

/-- What a document is read as up to some place. Everything is held in the order in which it is read. -/
structure Reading where
  namespaces : Namespaces
  base : Option String
  nodeCount : Nat
  triples : List Triple
  predicates : List String
  occurrences : List Occurrence
  collections : List Collected

def freshNodes (count n : Nat) : List Term :=
  (List.range' (count + 1) n).map fun i => .blank (Scope.generatedLabel i)

theorem freshNodes_succ (count n : Nat) :
    freshNodes count (n + 1) = .blank (Scope.generatedLabel (count + 1)) :: freshNodes (count + 1) n := by
  rw [freshNodes, List.range'_succ]
  rfl

def chain : List Term → List Term → List Triple
  | cell :: cells, value :: values =>
    ⟨cell, .iri Rdf.first, value⟩ :: ⟨cell, .iri Rdf.rest, cells.headD (.iri Rdf.nil)⟩ :: chain cells values
  | _, _ => []

namespace Reading

def initial (options : ParserOptions) : Reading :=
  ⟨.empty options.capacity.toNat, options.base, 0, [], [], [], []⟩

def scope (r : Reading) : Scope :=
  ⟨r.namespaces, r.base, r.nodeCount, []⟩

def iri (r : Reading) (iri : Tree.Iri) : String :=
  match r.scope.resolveIri? ⟨iri.lexeme, .start⟩ with
  | some (.ok value) => value
  | _ => ""

def verb (r : Reading) : Tree.Verb → String
  | .type => Rdf.type
  | .iri iri => r.iri iri

def literal (r : Reading) : Tree.Literal → Term
  | .text value => .plain value
  | .taggedText value tag => .literal value none (some (String.ofList (tag.toList.map asciiLower)))
  | .typedText value datatype => typedLiteral value (r.iri datatype)
  | .number kind digits => .typed digits kind.datatype
  | .truth value => .typed (if value then "true" else "false") Xsd.boolean

def state (r : Reading) (subject : Term) (predicate : String) (object : Term) : Reading :=
  { r with
    triples := r.triples ++ [⟨subject, .iri predicate, object⟩]
    predicates := r.predicates ++ [predicate] }

def label (r : Reading) (label : String) : Term × Reading :=
  let node := .blank (Scope.writtenLabel label)
  (node, { r with occurrences := r.occurrences ++ [⟨.label label, node⟩] })

def openBrackets (r : Reading) : Term × Reading :=
  let node := .blank (Scope.generatedLabel (r.nodeCount + 1))
  (node, { r with nodeCount := r.nodeCount + 1, occurrences := r.occurrences ++ [⟨.brackets, node⟩] })

def collect (r : Reading) (values : List Term) : Term × Reading :=
  let cells := freshNodes r.nodeCount values.length
  let head := cells.headD (.iri Rdf.nil)
  (head, { r with
    nodeCount := r.nodeCount + values.length
    triples := r.triples ++ chain cells values
    occurrences := r.occurrences ++ cells.map fun cell => ⟨.cell, cell⟩
    collections := r.collections ++ [⟨head, cells, values⟩] })

def declare (r : Reading) (label iri : String) : Reading :=
  match r.namespaces.declare label iri with
  | .ok namespaces => { r with namespaces }
  | .error _ => r

def rebase (r : Reading) (iri : String) : Reading :=
  { r with base := some iri }

end Reading

namespace Tree

mutual

def Node.read : Node → Reading → Term × Reading
  | .iri iri, r => (.iri (r.iri iri), r)
  | .blankNode label, r => r.label label
  | .literal literal, r => (r.literal literal, r)
  | .emptyBrackets, r => r.openBrackets
  | .brackets properties, r => (r.openBrackets.1, properties.read r.openBrackets.1 r.openBrackets.2)
  | .collection items, r => (items.read r).2.collect (items.read r).1

def Nodes.read : Nodes → Reading → List Term × Reading
  | .nil, r => ([], r)
  | .cons node nodes, r =>
    let (value, r) := node.read r
    let (values, r) := nodes.read r
    (value :: values, r)

/-- Objects of one subject and predicate. What stands in an object is stated before it. -/
def Nodes.state (subject : Term) (predicate : String) : Nodes → Reading → Reading
  | .nil, r => r
  | .cons node nodes, r =>
    let (value, r) := node.read r
    nodes.state subject predicate (r.state subject predicate value)

def Property.read (subject : Term) : Property → Reading → Reading
  | .objects verb first others, r =>
    let (value, r') := first.read r
    others.state subject (r.verb verb) (r'.state subject (r.verb verb) value)

def Properties.read (subject : Term) : Properties → Reading → Reading
  | .last property _, r => property.read subject r
  | .more property _ properties, r => properties.read subject (property.read subject r)

end

def Statement.read : Statement → Reading → Reading
  | .namespaceLabel label iri, r => r.declare label (r.iri (.reference iri))
  | .base iri, r => r.rebase (r.iri (.reference iri))
  | .namespaceLabelWord _ label iri _, r => r.declare label (r.iri (.reference iri))
  | .baseWord _ iri _, r => r.rebase (r.iri (.reference iri))
  | .brackets node _, r => (node.read r).2
  | .triples subject properties _, r => properties.read (subject.read r).1 (subject.read r).2

def documentReading (options : ParserOptions) (statements : List Statement) : Reading :=
  statements.foldl (fun r statement => statement.read r) (.initial options)

end Tree

end CommandOntology.Turtle
