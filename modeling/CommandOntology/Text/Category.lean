import CommandOntology.Text.CategoryData

set_option autoImplicit false

namespace CommandOntology.Text

inductive Category
  | uppercaseLetter | lowercaseLetter | titlecaseLetter | modifierLetter | otherLetter
  | nonspacingMark | spacingMark | enclosingMark
  | decimalNumber | letterNumber | otherNumber
  | connectorPunctuation | dashPunctuation | openPunctuation | closePunctuation
  | initialPunctuation | finalPunctuation | otherPunctuation
  | mathSymbol | currencySymbol | modifierSymbol | otherSymbol
  | spaceSeparator | lineSeparator | paragraphSeparator
  | control | format | surrogate | privateUse | unassigned
  deriving DecidableEq, Repr, Inhabited

namespace Category

def ofCode : Char → Char → Category
  | 'L', 'u' => uppercaseLetter | 'L', 'l' => lowercaseLetter | 'L', 't' => titlecaseLetter
  | 'L', 'm' => modifierLetter | 'L', 'o' => otherLetter
  | 'M', 'n' => nonspacingMark | 'M', 'c' => spacingMark | 'M', 'e' => enclosingMark
  | 'N', 'd' => decimalNumber | 'N', 'l' => letterNumber | 'N', 'o' => otherNumber
  | 'P', 'c' => connectorPunctuation | 'P', 'd' => dashPunctuation
  | 'P', 's' => openPunctuation | 'P', 'e' => closePunctuation
  | 'P', 'i' => initialPunctuation | 'P', 'f' => finalPunctuation | 'P', 'o' => otherPunctuation
  | 'S', 'm' => mathSymbol | 'S', 'c' => currencySymbol
  | 'S', 'k' => modifierSymbol | 'S', 'o' => otherSymbol
  | 'Z', 's' => spaceSeparator | 'Z', 'l' => lineSeparator | 'Z', 'p' => paragraphSeparator
  | 'C', 'c' => control | 'C', 'f' => format | 'C', 's' => surrogate | 'C', 'o' => privateUse
  | _, _ => unassigned

def isLetter : Category → Bool
  | uppercaseLetter | lowercaseLetter | titlecaseLetter | modifierLetter | otherLetter => true
  | _ => false

def isNumber : Category → Bool
  | decimalNumber | letterNumber | otherNumber => true
  | _ => false

/-- Characters of these categories are shown only as an escape, the space apart. -/
def isUnprintable : Category → Bool
  | control | format | surrogate | privateUse | unassigned
  | spaceSeparator | lineSeparator | paragraphSeparator => true
  | _ => false

end Category

structure CategoryRun where
  first : Nat
  category : Category
  deriving Inhabited

/-- The characters of a table; its line breaks only keep the lines short. -/
def dataChars (text : String) : List Char :=
  text.toList.filter (· ≠ '\n')

/-- Reads run lengths, keeping the code point where the next run starts and the digits so far. -/
def readCategoryRuns : List Char → (first length : Nat) → Array CategoryRun → Array CategoryRun
  | [], _, _, runs => runs
  | [_], _, _, runs => runs
  | c :: d :: rest, first, length, runs =>
    if c.isDigit then
      readCategoryRuns (d :: rest) first (10 * length + (c.toNat - '0'.toNat)) runs
    else
      readCategoryRuns rest (first + length) 0 (runs.push ⟨first, Category.ofCode c d⟩)

def categoryRuns : Array CategoryRun :=
  readCategoryRuns (dataChars categoryRunText) 0 0 #[]

/-- The last index from `low` on, below `high`, whose entry starts at or before `code`, given that
the entry at `low` does. -/
def lastStart (first : Nat → Nat) (code low high : Nat) : Nat :=
  if high ≤ low + 1 then low
  else
    let middle := (low + high) / 2
    if first middle ≤ code then lastStart first code middle high
    else lastStart first code low middle
termination_by high - low

def categoryRun (code : Nat) : CategoryRun :=
  categoryRuns.getD (lastStart (fun i => (categoryRuns.getD i default).first) code 0 categoryRuns.size)
    default

def category (c : Char) : Category :=
  (categoryRun c.toNat).category

end CommandOntology.Text
