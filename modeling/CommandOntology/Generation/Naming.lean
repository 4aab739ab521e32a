import CommandOntology.Text.Case
import CommandOntology.Text.Layout

set_option autoImplicit false

namespace CommandOntology.Generation

open CommandOntology.Text

/-- Each run of white space and dashes becomes an underscore. `inRun` says whether one is being read. -/
def joinRuns (inRun : Bool) : List Char → List Char
  | [] => []
  | c :: rest =>
    if isBlank c || c == '-' then
      if inRun then joinRuns true rest else '_' :: joinRuns true rest
    else c :: joinRuns false rest

def toIdentifier (name : String) : String :=
  lower (String.ofList (joinRuns false (trim name.toList)))

def keywords : List String :=
  ["False", "None", "True", "and", "as", "assert", "async", "await", "break", "class", "continue",
    "def", "del", "elif", "else", "except", "finally", "for", "from", "global", "if", "import", "in",
    "is", "lambda", "nonlocal", "not", "or", "pass", "raise", "return", "try", "while", "with",
    "yield"]

def isUsableIdentifier (ident : String) : Bool :=
  isIdentifier ident.toList && !keywords.contains ident

def reservedParameters : List String :=
  ["asyncio", "typer", "arguments"]

def capitalizeFirst : List Char → List Char
  | [] => []
  | c :: rest => upperChar c ++ rest

/-- The class that holds the arguments of a command: the words of its identifiers, and an ending. -/
def holderName (idents : List String) : String :=
  let words := (idents.flatMap fun ident => splitOn '_' ident.toList).filter (!·.isEmpty)
  String.ofList (words.flatMap capitalizeFirst) ++ "Args"

def docText (text : String) : String :=
  String.ofList (replaceChar '"' ['\\', '"']
    (replaceChar '\\' ['\\', '\\'] (collapse text).toList))

def manualText (text : String) : String :=
  let escaped := replaceChar '\\' ['\\', 'e'] (collapse text).toList
  if escaped.head? = some '.' ∨ escaped.head? = some '\'' then String.ofList ('\\' :: '&' :: escaped)
  else String.ofList escaped

end CommandOntology.Generation
