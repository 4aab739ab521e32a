import CommandOntology.Rdf.Graph
import CommandOntology.Turtle.Prefixes

set_option autoImplicit false

namespace CommandOntology.Lines

open CommandOntology.Text

def quotedText (text : String) : String :=
  let escaped := replaceChar '\n' ['\\', 'n'] (replaceChar '\\' ['\\', '\\'] text.toList)
  String.ofList ('"' :: replaceChar '\r' ['\\', 'r'] (replaceChar '"' ['\\', '"'] escaped) ++ ['"'])

def termText : Term → Except String String
  | .iri value => if Turtle.isWritable value then .ok ("<" ++ value ++ ">") else .error value
  | .blank label => .ok ("_:" ++ label)
  | .literal lexical _ (some tag) => .ok (quotedText lexical ++ "@" ++ tag)
  | .literal lexical (some datatype) none => .ok (quotedText lexical ++ "^^<" ++ datatype ++ ">")
  | .literal lexical none none => .ok (quotedText lexical)

def tripleText (t : Triple) : Except String String := do
  let subject ← termText t.subject
  let predicate ← termText t.predicate
  let object ← termText t.object
  return subject ++ " " ++ predicate ++ " " ++ object ++ " ."

def isLineEnd (c : Char) : Bool :=
  inRanges [(0xa, 0xd), (0x1c, 0x1e), (0x85, 0x85), (0x2028, 0x2029)] c.toNat

/-- The lines of a text; characters of literals may end one as well. -/
def lines (text : List Char) : List (List Char) :=
  match text with
  | [] => [[]]
  | c :: rest =>
    if isLineEnd c then [] :: lines rest
    else
      match lines rest with
      | [] => [[c]]
      | line :: others => (c :: line) :: others

def write (g : Graph) : Except String String := do
  let statements ← g.statements.mapM tripleText
  let all := statements.flatMap fun text => (lines text.toList).map String.ofList
  let kept := all.filter fun line => !(trim line.toList).isEmpty
  return String.join ((kept.mergeSort fun a b => decide (a ≤ b)).map (· ++ "\n"))

end CommandOntology.Lines
