import CommandOntology.Number.Reading

set_option autoImplicit false

namespace CommandOntology.Regex

inductive Flag
  | ignoreCase | multiline | dotAll | verbose | ascii | unicode | locale | template
  deriving DecidableEq, Repr

def Flag.ofChar? : Char → Option Flag
  | 'i' => some ignoreCase
  | 'm' => some multiline
  | 's' => some dotAll
  | 'x' => some verbose
  | 'a' => some ascii
  | 'u' => some unicode
  | 'L' => some locale
  | 't' => some template
  | _ => none

def Flag.isAlphabet : Flag → Bool
  | ascii | unicode | locale => true
  | _ => false

structure Mode where
  ignoresCase : Bool := false
  isMultiline : Bool := false
  dotMatchesAll : Bool := false
  isVerbose : Bool := false
  isAscii : Bool := false
  deriving DecidableEq, Repr, Inhabited

namespace Mode

def switchOn (m : Mode) : Flag → Mode
  | .ignoreCase => { m with ignoresCase := true }
  | .multiline => { m with isMultiline := true }
  | .dotAll => { m with dotMatchesAll := true }
  | .verbose => { m with isVerbose := true }
  | .ascii => { m with isAscii := true }
  | .unicode => { m with isAscii := false }
  | .locale | .template => m

def switchOff (m : Mode) : Flag → Mode
  | .ignoreCase => { m with ignoresCase := false }
  | .multiline => { m with isMultiline := false }
  | .dotAll => { m with dotMatchesAll := false }
  | .verbose => { m with isVerbose := false }
  | .ascii | .unicode | .locale | .template => m

def change (m : Mode) (added removed : List Flag) : Mode :=
  removed.foldl switchOff (added.foldl switchOn m)

end Mode

inductive ClassName
  | digit | space | word
  deriving DecidableEq, Repr

/-- A part of a set of characters. Bounds are code points, inclusive. -/
inductive SetMember
  | range (first last : Nat)
  | named (name : ClassName) (isNegated : Bool)
  deriving DecidableEq, Repr

structure CharSet where
  isNegated : Bool
  members : List SetMember
  deriving DecidableEq, Repr

namespace CharSet

def single (code : Nat) : CharSet :=
  ⟨false, [.range code code]⟩

def named (name : ClassName) (isNegated : Bool) : CharSet :=
  ⟨false, [.named name isNegated]⟩

def all : CharSet :=
  ⟨true, []⟩

def notLineBreak : CharSet :=
  ⟨true, [.range 0xa 0xa]⟩

end CharSet

inductive Anchor
  | textStart | textEnd
  /-- The end of the text, or before a line break that ends it. -/
  | lastLineEnd
  | lineStart | lineEnd
  | wordBoundary (isNegated isAscii : Bool)
  deriving DecidableEq, Repr

inductive Greed
  | greedy | lazy | possessive
  deriving DecidableEq, Repr

/-- The least and the greatest number of characters that a pattern matches. -/
structure Width where
  least : Nat
  greatest : Nat
  deriving DecidableEq, Repr

namespace Width

def limit : Nat := Nat.pow 2 64

def empty : Width := ⟨0, 0⟩

def one : Width := ⟨1, 1⟩

def clamp (w : Width) : Width :=
  ⟨min w.least limit, min w.greatest limit⟩

def add (a b : Width) : Width :=
  clamp ⟨a.least + b.least, a.greatest + b.greatest⟩

def either (a b : Width) : Width :=
  ⟨min a.least b.least, max a.greatest b.greatest⟩

/-- The width of a repetition; without `most`, of one without an upper bound. -/
def times (w : Width) (least : Nat) (most : Option Nat) : Width :=
  clamp ⟨w.least * least,
    match most with
    | some n => w.greatest * n
    | none => if w.greatest = 0 then 0 else limit⟩

end Width

inductive Node
  | empty
  | one (set : CharSet) (mode : Mode)
  | anchor (anchor : Anchor)
  | sequence (first second : Node)
  | either (first second : Node)
  /-- A group whose span is remembered under a number. -/
  | capture (group : Nat) (body : Node)
  | repeated (greed : Greed) (least : Nat) (most : Option Nat) (body : Node)
  /-- What matches first is kept. -/
  | atomic (body : Node)
  /-- What follows has to match, or must not. -/
  | ahead (isPositive : Bool) (body : Node)
  /-- What ends here, after so many characters, has to match, or must not. -/
  | behind (isPositive : Bool) (distance : Nat) (body : Node)
  /-- The text of a group again; `width` is that of the group. -/
  | reference (group : Nat) (mode : Mode) (width : Width)
  /-- One of two patterns, by whether a group has matched. -/
  | conditional (group : Nat) (present absent : Node)
  deriving Repr, Inhabited

namespace Node

def width : Node → Width
  | empty => .empty
  | one _ _ => .one
  | anchor _ => .empty
  | sequence first second => first.width.add second.width
  | either first second => first.width.either second.width
  | capture _ body => body.width
  | repeated _ least most body => body.width.times least most
  | atomic body => body.width
  | ahead _ _ => .empty
  | behind _ _ _ => .empty
  | reference _ _ width => width
  | conditional _ present absent => present.width.either absent.width

def ofSequence (nodes : List Node) : Node :=
  match nodes with
  | [] => empty
  | [node] => node
  | node :: rest => sequence node (ofSequence rest)

def ofBranches (nodes : List Node) : Node :=
  match nodes with
  | [] => empty
  | [node] => node
  | node :: rest => either node (ofBranches rest)

end Node

/-- A pattern with the mode that holds where none of its parts says otherwise. -/
structure Pattern where
  node : Node
  mode : Mode
  deriving Repr

inductive PatternError
  | danglingEscape
  | badEscape
  | incompleteEscape
  | octalTooLarge
  | unknownCharacterName
  | unterminatedSet
  | badRange
  | nothingToRepeat
  | multipleRepeat
  | emptyRepeatRange
  | unexpectedEnd
  | unknownExtension
  | badGroupName
  | unknownGroup
  | redefinedGroup
  | openGroup
  | groupInsideLookbehind
  | badFlags
  | misplacedFlags
  | tooManyBranches
  | unterminatedGroup
  | unterminatedComment
  | unbalancedParenthesis
  | variableLookbehind
  | templateRepeat
  | conflictingAlphabets
  | repetitionTooLarge
  | numberTooLong (digits : Nat)
  deriving DecidableEq, Repr

namespace PatternError

/-- Conflicting alphabets and numbers that are out of range are not about the form of a pattern. -/
def isMalformed : PatternError → Bool
  | conflictingAlphabets | repetitionTooLarge | numberTooLong _ => false
  | _ => true

def message : PatternError → String
  | danglingEscape => "bad escape (end of pattern)"
  | badEscape => "bad escape"
  | incompleteEscape => "incomplete escape"
  | octalTooLarge => "octal escape value outside of range 0-0o377"
  | unknownCharacterName => "undefined character name"
  | unterminatedSet => "unterminated character set"
  | badRange => "bad character range"
  | nothingToRepeat => "nothing to repeat"
  | multipleRepeat => "multiple repeat"
  | emptyRepeatRange => "min repeat greater than max repeat"
  | unexpectedEnd => "unexpected end of pattern"
  | unknownExtension => "unknown extension"
  | badGroupName => "bad character in group name"
  | unknownGroup => "unknown group"
  | redefinedGroup => "redefinition of group name"
  | openGroup => "cannot refer to an open group"
  | groupInsideLookbehind => "cannot refer to group defined in the same lookbehind subpattern"
  | badFlags => "bad inline flags"
  | misplacedFlags => "global flags not at the start of the expression"
  | tooManyBranches => "conditional backref with more than two branches"
  | unterminatedGroup => "missing ), unterminated subpattern"
  | unterminatedComment => "missing ), unterminated comment"
  | unbalancedParenthesis => "unbalanced parenthesis"
  | variableLookbehind => "look-behind requires fixed-width pattern"
  | templateRepeat => "internal: unsupported template operator"
  | conflictingAlphabets => "ASCII and UNICODE flags are incompatible"
  | repetitionTooLarge => "the repetition number is too large"
  | numberTooLong digits => (NumberError.tooManyDigits digits).message

end PatternError

end CommandOntology.Regex
