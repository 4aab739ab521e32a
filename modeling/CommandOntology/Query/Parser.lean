import CommandOntology.Query.Machine

set_option autoImplicit false

namespace CommandOntology.Query

def patternVariables (patterns : List Pattern) (optionals : List OptionalGroup) : List String :=
  distinct ((patterns ++ optionals.flatMap (·.patterns)).flatMap (·.varNames))

def checkKnown (names known : List String) (clause : Clause) : Except QueryError Unit :=
  match names.find? fun name => !known.contains name with
  | some name => .error (.unknownVariable name clause)
  | none => .ok ()

def Scope.query (s : Scope) : Except QueryError SelectQuery := do
  let known := patternVariables s.patterns s.optionals
  let projection :=
    match s.selected with
    | some names => distinct names
    | none => known
  checkKnown projection known .select
  checkKnown (s.filters.flatMap (·.varNames)) known .filter
  checkKnown (s.optionals.flatMap fun g => g.filters.flatMap (·.varNames)) known .filter
  checkKnown (s.order.map (·.name)) known .order
  return {
    projection
    distinct := s.isDistinct
    patterns := s.patterns
    optionals := s.optionals
    filters := s.filters
    order := s.order
    limit := s.limit
    offset := s.offset
    prefixes := s.declared }

def endToken (size : Nat) : Token :=
  ⟨.endOfQuery, "", size⟩

def tokens (text : String) : Except QueryError (List Token) :=
  match lex text.toList with
  | .ok tokens => .ok (tokens ++ [endToken text.length])
  | .error fault =>
    .error (.malformed (.unexpectedCharacter fault.character) fault.position
      (some (String.singleton fault.character)))

def parse (visible : List (String × String)) (base : Option String) (text : String) :
    Except QueryError SelectQuery := do
  let scope ← run .prologue (.initial visible base) (← tokens text)
  scope.query

end CommandOntology.Query
