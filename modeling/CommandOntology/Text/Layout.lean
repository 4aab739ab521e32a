import CommandOntology.Text.CharClass

set_option autoImplicit false

namespace CommandOntology.Text

/-- The number of characters at the start of a text that belong to a class. -/
def spanLength (isMember : Char → Bool) (text : List Char) : Nat :=
  (text.takeWhile isMember).length

def trimStart (text : List Char) : List Char :=
  text.dropWhile isBlank

def trimBy (drops : Char → Bool) (text : List Char) : List Char :=
  ((text.dropWhile drops).reverse.dropWhile drops).reverse

def trim (text : List Char) : List Char :=
  trimBy isBlank text

def strip (text : String) : String :=
  String.ofList (trim text.toList)

/-- The words of a text, given the word that is being read, last character first. -/
def wordsFrom (word : List Char) : List Char → List (List Char)
  | [] => if word.isEmpty then [] else [word.reverse]
  | c :: rest =>
    if isBlank c then
      if word.isEmpty then wordsFrom [] rest else word.reverse :: wordsFrom [] rest
    else wordsFrom (c :: word) rest

def words (text : List Char) : List (List Char) :=
  wordsFrom [] text

/-- Each run of white space becomes one space, and none is left at the ends. -/
def collapse (text : String) : String :=
  String.ofList ([' '].intercalate (words text.toList))

def collapseSpaces : List Char → List Char
  | ' ' :: ' ' :: rest => collapseSpaces (' ' :: rest)
  | c :: rest => c :: collapseSpaces rest
  | [] => []

def join (separator : String) (texts : List String) : String :=
  separator.intercalate texts

def replaceChar (c : Char) (image : List Char) (text : List Char) : List Char :=
  text.flatMap fun d => if d = c then image else [d]

/-- Replaces a text wherever it stands, from left to right. `skip` characters belong to a place that has
been replaced. -/
def replaceFrom (part image : List Char) (skip : Nat) : List Char → List Char
  | [] => []
  | c :: rest =>
    match skip with
    | skip + 1 => replaceFrom part image skip rest
    | 0 =>
      if part.isPrefixOf (c :: rest) then image ++ replaceFrom part image (part.length - 1) rest
      else c :: replaceFrom part image 0 rest

def replaceText (part image : String) (text : List Char) : List Char :=
  replaceFrom part.toList image.toList 0 text

def beginsWith (start text : List Char) : Bool :=
  start.isPrefixOf text

def dropBeginning? : (start : List Char) → List Char → Option (List Char)
  | [], text => some text
  | _ :: _, [] => none
  | a :: start, b :: text => if a = b then dropBeginning? start text else none

def splitOn (separator : Char) : List Char → List (List Char)
  | [] => [[]]
  | c :: rest =>
    if c = separator then [] :: splitOn separator rest
    else
      match splitOn separator rest with
      | [] => [[c]]
      | part :: parts => (c :: part) :: parts

def partitionAt (c : Char) (text : List Char) : List Char × Option (List Char) :=
  (text.takeWhile (· ≠ c),
    match text.dropWhile (· ≠ c) with
    | [] => none
    | _ :: rest => some rest)

end CommandOntology.Text
