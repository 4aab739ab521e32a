import CommandOntology.Turtle.Machine

set_option autoImplicit false

namespace CommandOntology.Turtle

structure Document where
  triples : List Triple
  namespaces : Namespaces
  base : Option String
  size : Nat
  deriving Repr

structure ParserOptions where
  capacity : Int := 32
  base : Option String := none
  functional : List String := functionalPredicates
  deriving DecidableEq, Repr

def isFunctional (functional : List String) : Term → Bool
  | .iri predicate => functional.contains predicate
  | _ => false

/-- The value that a subject already has under a functional predicate, if it is another one. -/
def conflicting? (functional : List String) (recorded : List Triple) (t : Triple) : Option Term :=
  if isFunctional functional t.predicate then
    (recorded.find? fun r =>
      r.subject = t.subject && r.predicate = t.predicate && r.object ≠ t.object).map (·.object)
  else none

/-- Records emissions one after the other, each statement once. The statements so far are held last
first. -/
def record (functional : List String) (recorded : List Triple) :
    List Emission → Except ParseError (List Triple)
  | [] => .ok recorded.reverse
  | e :: rest =>
    match conflicting? functional recorded e.triple with
    | some existing =>
      .error (.conflict e.triple.subject e.triple.predicate.text existing e.triple.object e.line)
    | none =>
      if recorded.contains e.triple then record functional recorded rest
      else record functional (e.triple :: recorded) rest

/-- Reads tokens as a document. A conflict among the statements that were given out comes before the
error that stopped the machine. -/
def parseTokens (options : ParserOptions) (size : Nat) (tokens : Tokens) : Except ParseError Document :=
  match run tokens.stop .statement (.initial options.capacity.toNat options.base) tokens.tokens with
  | (scope, stopped) =>
    match record options.functional [] scope.emitted.reverse with
    | .error e => .error e
    | .ok triples =>
      match stopped with
      | some e => .error e
      | none => .ok ⟨triples, scope.namespaces.freeze, scope.base, size⟩

def parse (options : ParserOptions) (text : String) : Except ParseError Document :=
  if options.capacity < 1 then .error .capacityTooSmall
  else
    match lex text.toList with
    | .error (fault, p) => .error (.lexical fault p)
    | .ok tokens => parseTokens options text.length tokens

end CommandOntology.Turtle
