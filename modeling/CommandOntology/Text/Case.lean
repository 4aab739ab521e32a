import CommandOntology.Text.CaseData
import CommandOntology.Text.Layout

set_option autoImplicit false

namespace CommandOntology.Text

def hexNumber (digits : List Char) : Nat :=
  digits.foldl (fun n c => 16 * n + hexValue c) 0

def decimalNumber (digits : List Char) : Nat :=
  digits.foldl (fun n c => 10 * n + digitValue c) 0

/-- Moves a character as the run that holds it says; other characters stay. -/
def shiftCase (runs : Array CaseRun) (c : Char) : Char :=
  let code := c.toNat
  let run := runs.getD (lastStart (fun i => (runs.getD i default).first) code 0 runs.size) default
  if run.first ≤ code && (code - run.first) % run.step = 0
      && (code - run.first) / run.step < run.count then
    Char.ofNat ((code : Int) + run.shift).toNat
  else c

abbrev Expansion := Nat × List Char

def readExpansion (text : List Char) : Option Expansion :=
  match splitOn '=' text with
  | [code, image] => some (hexNumber code, (splitOn ' ' image).map fun d => Char.ofNat (hexNumber d))
  | _ => none

def readExpansions (text : String) : List Expansion :=
  (splitOn ';' (dataChars text)).filterMap readExpansion

def upperExpansions : List Expansion := readExpansions upperExpansionText

def titleEntries : List Expansion := readExpansions titleEntryText

def expansion? (table : List Expansion) (c : Char) : Option (List Char) :=
  (table.find? fun entry => entry.1 == c.toNat).map (·.2)

def lowerChar (c : Char) : Char :=
  if c.toNat < 128 then asciiLower c else shiftCase lowerRuns c

def upperChar (c : Char) : List Char :=
  if c.toNat < 128 then
    if 'a' ≤ c && c ≤ 'z' then [Char.ofNat (c.toNat - 32)] else [c]
  else
    match expansion? upperExpansions c with
    | some image => image
    | none => [shiftCase upperRuns c]

def titleChar (c : Char) : List Char :=
  if c.toNat < 128 then upperChar c
  else
    match expansion? titleEntries c with
    | some image => image
    | none => upperChar c

/-- A character that does not separate a sigma from the letters around it. -/
def isCaseIgnorable (c : Char) : Bool :=
  inRanges [(0x27, 0x27), (0x2e, 0x2e), (0x3a, 0x3a), (0xb7, 0xb7), (0x387, 0x387), (0x55f, 0x55f),
    (0x5f4, 0x5f4), (0x2018, 0x2019), (0x2024, 0x2024), (0x2027, 0x2027), (0xfe13, 0xfe13),
    (0xfe52, 0xfe52), (0xfe55, 0xfe55), (0xff07, 0xff07), (0xff0e, 0xff0e), (0xff1a, 0xff1a)] c.toNat ||
    match category c with
    | .nonspacingMark | .enclosingMark | .format | .modifierLetter | .modifierSymbol => true
    | _ => false

def isCased (c : Char) : Bool :=
  inRanges [(0xaa, 0xaa), (0xba, 0xba), (0x2160, 0x217f), (0x24b6, 0x24e9), (0x1f130, 0x1f149),
    (0x1f150, 0x1f169), (0x1f170, 0x1f189)] c.toNat ||
    match category c with
    | .uppercaseLetter | .lowercaseLetter | .titlecaseLetter => true
    | _ => false

/-- Whether the nearest character that is not case-ignorable is a cased letter. -/
def meetsCased (text : List Char) : Bool :=
  match text.dropWhile isCaseIgnorable with
  | [] => false
  | c :: _ => isCased c

/-- Lower case of a text; `before` holds what stands before it, nearest first. -/
def lowerAfter (before : List Char) : List Char → List Char
  | [] => []
  | c :: rest =>
    let image :=
      if c.toNat = 0x3a3 then
        if meetsCased before && !meetsCased rest then [Char.ofNat 0x3c2] else [Char.ofNat 0x3c3]
      else if c.toNat = 0x130 then ['i', Char.ofNat 0x307]
      else [lowerChar c]
    image ++ lowerAfter (c :: before) rest

def lower (text : String) : String :=
  String.ofList (lowerAfter [] text.toList)

def upper (text : String) : String :=
  String.ofList (text.toList.flatMap upperChar)

/-- The first character as at the start of a word, the others in lower case. -/
def capitalize (text : String) : String :=
  match text.toList with
  | [] => ""
  | c :: rest => String.ofList (titleChar c ++ lowerAfter [c] rest)

/-- Two characters that are the same letter up to case: their simple lower-case forms have the same
upper case. -/
def sameLetter (a b : Char) : Bool :=
  a == b || upperChar (lowerChar a) == upperChar (lowerChar b)

def caseSources (runs : Array CaseRun) (code : Nat) : List Char :=
  runs.toList.filterMap fun run =>
    let source := (code : Int) - run.shift
    let offset := source - run.first
    if 0 ≤ offset && offset % run.step == 0 && offset / run.step < run.count then
      some (Char.ofNat source.toNat)
    else none

/-- The characters that the upper case of a character may come from, the image itself included. -/
def upperSources (image : List Char) : List Char :=
  match image with
  | [c] => c :: caseSources upperRuns c.toNat
  | _ => (upperExpansions.filter fun entry => entry.2 == image).map fun entry => Char.ofNat entry.1

def sameLetters (c : Char) : List Char :=
  let small := lowerChar c
  let smalls := small :: upperSources (upperChar small)
  let candidates := smalls ++ smalls.flatMap fun s => caseSources lowerRuns s.toNat
  c :: candidates.filter (sameLetter c)

end CommandOntology.Text
