import CommandOntology.Regex.Syntax

set_option autoImplicit false

namespace CommandOntology.Regex

open CommandOntology.Text

inductive Piece
  | plain (c : Char)
  | escaped (c : Char)
  /-- A backslash that ends the pattern. -/
  | dangling
  deriving DecidableEq, Repr

/-- The pieces of a text; `isEscaped` says that a backslash stands before it. -/
def piecesFrom (isEscaped : Bool) : List Char → List Piece
  | [] => if isEscaped then [.dangling] else []
  | c :: rest =>
    if isEscaped then .escaped c :: piecesFrom false rest
    else if c = '\\' then piecesFrom true rest
    else .plain c :: piecesFrom false rest

def pieces (text : List Char) : List Piece :=
  piecesFrom false text

def Piece.char? : Piece → Option Char
  | plain c => some c
  | _ => none

inductive Opening
  | capture (name : Option String)
  | plain
  | atomic
  | ahead (isPositive : Bool)
  | behind (isPositive : Bool)
  | modes (added removed : List Flag)
  | conditionalNamed (name : String)
  | conditional (group : Nat)
  deriving DecidableEq, Repr

inductive AnchorSign
  | caret | dollar | textStart | textEnd | boundary (isNegated : Bool)
  deriving DecidableEq, Repr

inductive Item
  | comment
  | set (set : CharSet)
  | dot
  | anchor (sign : AnchorSign)
  | repetition (greed : Greed) (least : Nat) (most : Option Nat)
  | reference (group : Nat)
  | referenceNamed (name : String)
  | opening (opening : Opening)
  | globalFlags (flags : List Flag)
  | bar
  | closing
  deriving DecidableEq, Repr

/-- The longest run of plain characters of a class, but not more than `limit` of them. -/
def takeChars (accepts : Char → Bool) (limit : Nat) : List Piece → List Char × List Piece
  | .plain c :: rest =>
    if limit = 0 || !accepts c then ([], .plain c :: rest)
    else
      let (taken, rest) := takeChars accepts (limit - 1) rest
      (c :: taken, rest)
  | text => ([], text)

def isOctalDigit (c : Char) : Bool :=
  '0' ≤ c && c ≤ '7'

def octalValue (digits : List Char) : Nat :=
  digits.foldl (fun n c => 8 * n + hexValue c) 0

def hexadecimalValue (digits : List Char) : Nat :=
  digits.foldl (fun n c => 16 * n + hexValue c) 0

def octalLimit : Nat := 0o377

def readHexadecimal (count : Nat) (text : List Piece) : Except PatternError (Nat × List Piece) :=
  let (digits, rest) := takeChars isHexDigit count text
  if digits.length = count then .ok (hexadecimalValue digits, rest) else .error .incompleteEscape

def readUntil (stop : Char) : List Piece → Option (List Char × List Piece)
  | [] => none
  | .plain c :: rest =>
    if c = stop then some ([], rest)
    else (readUntil stop rest).map fun r => (c :: r.1, r.2)
  | .escaped c :: rest => (readUntil stop rest).map fun r => ('\\' :: c :: r.1, r.2)
  | .dangling :: _ => none

def readName (stop : Char) (text : List Piece) : Except PatternError (String × List Piece) :=
  match readUntil stop text with
  | some (c :: name, rest) => .ok (String.ofList (c :: name), rest)
  | _ => .error .badGroupName

def readGroupName (stop : Char) (text : List Piece) : Except PatternError (String × List Piece) := do
  let (name, rest) ← readName stop text
  if isIdentifier name.toList then return (name, rest) else throw .badGroupName

def controlEscape? : Char → Option Nat
  | 'a' => some 0x7
  | 'b' => some 0x8
  | 'f' => some 0xc
  | 'n' => some 0xa
  | 'r' => some 0xd
  | 't' => some 0x9
  | 'v' => some 0xb
  | '\\' => some 0x5c
  | _ => none

/-- The class that an escaped letter stands for, and whether it is negated. -/
def classEscape? : Char → Option (ClassName × Bool)
  | 'd' => some (.digit, false)
  | 'D' => some (.digit, true)
  | 's' => some (.space, false)
  | 'S' => some (.space, true)
  | 'w' => some (.word, false)
  | 'W' => some (.word, true)
  | _ => none

def anchorEscape? : Char → Option AnchorSign
  | 'A' => some .textStart
  | 'Z' => some .textEnd
  | 'b' => some (.boundary false)
  | 'B' => some (.boundary true)
  | _ => none

/-- The code point of an escape that is given by digits, or that is the character itself. Letters and
digits that mean nothing are refused. So is every character that is given by its name, since there is no table of
names here. -/
def readCodeEscape (c : Char) (text : List Piece) : Except PatternError (Nat × List Piece) :=
  match c with
  | 'x' => readHexadecimal 2 text
  | 'u' => readHexadecimal 4 text
  | 'U' => do
    let (code, rest) ← readHexadecimal 8 text
    if code < 0x110000 then return (code, rest) else throw .badEscape
  | 'N' => .error .unknownCharacterName
  | _ => if isAsciiAlphanumeric c then .error .badEscape else .ok (c.toNat, text)

inductive SetEntry
  | code (code : Nat)
  | named (name : ClassName) (isNegated : Bool)

def SetEntry.member : SetEntry → SetMember
  | .code n => .range n n
  | .named name isNegated => .named name isNegated

def readSetEscape (c : Char) (text : List Piece) : Except PatternError (SetEntry × List Piece) :=
  match classEscape? c with
  | some (name, isNegated) => .ok (.named name isNegated, text)
  | none =>
    match controlEscape? c with
    | some code => .ok (.code code, text)
    | none =>
      if isOctalDigit c then
        let (digits, rest) := takeChars isOctalDigit 2 text
        let code := octalValue (c :: digits)
        if octalLimit < code then .error .octalTooLarge else .ok (.code code, rest)
      else do
        let (code, rest) ← readCodeEscape c text
        return (.code code, rest)

def readSetEntry (piece : Piece) (text : List Piece) : Except PatternError (SetEntry × List Piece) :=
  match piece with
  | .plain c => .ok (.code c.toNat, text)
  | .escaped c => readSetEscape c text
  | .dangling => .error .danglingEscape

/-- The members that end a set after an entry, or the entry as the member that it starts. -/
inductive SetStep
  | closed (members : List SetMember) (rest : List Piece)
  | next (member : SetMember) (rest : List Piece)

/-- Reads an entry and the range that it may start. A minus sign before the closing bracket stands for
itself. -/
def readSetStep (piece : Piece) (text : List Piece) : Except PatternError SetStep := do
  let (entry, rest) ← readSetEntry piece text
  match rest with
  | .plain '-' :: .plain ']' :: rest => return .closed [entry.member, .range 0x2d 0x2d] rest
  | [.plain '-'] => throw .unterminatedSet
  | .plain '-' :: piece :: rest =>
    let (last, rest) ← readSetEntry piece rest
    match entry, last with
    | .code first, .code last =>
      if last < first then throw .badRange else return .next (.range first last) rest
    | _, _ => throw .badRange
  | rest => return .next entry.member rest

/-- Reads the members of a set up to its closing bracket. `skip` pieces belong to the member before,
and `isFirst` says that no member has been read: then a closing bracket is a member. -/
def readSetMembers (skip : Nat) (isFirst : Bool) :
    List Piece → Except PatternError (List SetMember × List Piece)
  | [] => .error .unterminatedSet
  | piece :: text =>
    match skip with
    | skip + 1 => readSetMembers skip isFirst text
    | 0 =>
      if piece = .plain ']' && !isFirst then .ok ([], text)
      else do
        match ← readSetStep piece text with
        | .closed members rest => return (members, rest)
        | .next member rest =>
          let (members, after) ← readSetMembers (text.length - rest.length) false text
          return (member :: members, after)

def readSet (text : List Piece) : Except PatternError (CharSet × List Piece) :=
  match text with
  | .plain '^' :: text => (readSetMembers 0 true text).map fun r => (⟨true, r.1⟩, r.2)
  | _ => (readSetMembers 0 true text).map fun r => (⟨false, r.1⟩, r.2)

/-- A group number, or an octal escape when three octal digits are written. -/
def readDigitEscape (c : Char) (text : List Piece) : Except PatternError (Item × List Piece) :=
  let (digits, rest) := takeChars isAsciiDigit 1 text
  let number := digitValue c * (if digits.isEmpty then 1 else 10) + Reading.number digits
  if (c :: digits).all isOctalDigit && !digits.isEmpty then
    let (third, after) := takeChars isOctalDigit 1 rest
    if third.isEmpty then .ok (.reference number, rest)
    else
      let code := octalValue (c :: digits ++ third)
      if octalLimit < code then .error .octalTooLarge else .ok (.set (.single code), after)
  else .ok (.reference number, rest)

def readEscape (c : Char) (text : List Piece) : Except PatternError (Item × List Piece) :=
  match anchorEscape? c with
  | some sign => .ok (.anchor sign, text)
  | none =>
    match classEscape? c with
    | some (name, isNegated) => .ok (.set (.named name isNegated), text)
    | none =>
      match controlEscape? c with
      | some code => .ok (.set (.single code), text)
      | none =>
        if c = '0' then
          let (digits, rest) := takeChars isOctalDigit 2 text
          .ok (.set (.single (octalValue digits)), rest)
        else if isAsciiDigit c then readDigitEscape c text
        else do
          let (code, rest) ← readCodeEscape c text
          return (.set (.single code), rest)

def readGreed : List Piece → Greed × List Piece
  | .plain '?' :: rest => (.lazy, rest)
  | .plain '+' :: rest => (.possessive, rest)
  | rest => (.greedy, rest)

def repetitionItem (least : Nat) (most : Option Nat) (text : List Piece) : Item × List Piece :=
  let (greed, rest) := readGreed text
  (.repetition greed least most, rest)

def repetitionLimit : Nat := 4294967295

def readCount (digits : List Char) : Except PatternError Nat :=
  if integerDigitLimit < digits.length then .error (.numberTooLong digits.length)
  else
    let count := Reading.number digits
    if repetitionLimit ≤ count then .error .repetitionTooLarge else .ok count

/-- The digits of bounds in braces, and what follows the closing brace. -/
def readBounds? (text : List Piece) : Option (List Char × List Char × List Piece) :=
  let all := text.length
  let (least, rest) := takeChars isAsciiDigit all text
  match rest with
  | .plain ',' :: rest =>
    match takeChars isAsciiDigit all rest with
    | (most, .plain '\x7d' :: rest) => some (least, most, rest)
    | _ => none
  | .plain '\x7d' :: rest => if least.isEmpty then none else some (least, least, rest)
  | _ => none

/-- What an opening brace is: bounds of a repetition, or the character itself. -/
def readBrace (text : List Piece) : Except PatternError (Item × List Piece) :=
  match readBounds? text with
  | none => .ok (.set (.single 0x7b), text)
  | some (leastDigits, mostDigits, rest) => do
    let least ← if leastDigits.isEmpty then pure 0 else readCount leastDigits
    if mostDigits.isEmpty then return repetitionItem least none rest
    else
      let most ← readCount mostDigits
      if most < least then throw .emptyRepeatRange
      return repetitionItem least (some most) rest

inductive FlagsEnd
  | group | switchOff | body
  deriving DecidableEq

/-- Flags that are switched on, and what ends them. They cannot ask for two alphabets. -/
def readFlagsOn (flags : List Flag) :
    List Piece → Except PatternError (List Flag × FlagsEnd × List Piece)
  | .plain c :: rest =>
    match Flag.ofChar? c with
    | some flag =>
      if flag = .locale ∨ (flag.isAlphabet && flags.any fun f => f.isAlphabet && f ≠ flag) then
        .error .badFlags
      else readFlagsOn (flags ++ [flag]) rest
    | none =>
      if c = ')' then .ok (flags, .group, rest)
      else if c = '-' then .ok (flags, .switchOff, rest)
      else if c = ':' then .ok (flags, .body, rest)
      else .error .badFlags
  | _ => .error .badFlags

def readFlagsOff (flags : List Flag) : List Piece → Except PatternError (List Flag × List Piece)
  | .plain c :: rest =>
    match Flag.ofChar? c with
    | some flag => if flag.isAlphabet then .error .badFlags else readFlagsOff (flags ++ [flag]) rest
    | none => if c = ':' ∧ flags ≠ [] then .ok (flags, rest) else .error .badFlags
  | _ => .error .badFlags

def modesItem (added removed : List Flag) (rest : List Piece) :
    Except PatternError (Item × List Piece) :=
  if added.contains .template ∨ removed.contains .template ∨ removed.any added.contains then
    .error .badFlags
  else .ok (.opening (.modes added removed), rest)

def readFlags (text : List Piece) : Except PatternError (Item × List Piece) := do
  let (added, stop, rest) ← readFlagsOn [] text
  match stop with
  | .group => return (.globalFlags added, rest)
  | .body => modesItem added [] rest
  | .switchOff =>
    if added.contains .template then throw .badFlags
    let (removed, rest) ← readFlagsOff [] rest
    modesItem added removed rest

def skipComment : List Piece → Except PatternError (List Piece)
  | [] => .error .unterminatedComment
  | piece :: rest => if piece = .plain ')' then .ok rest else skipComment rest

def groupLimit : Nat := 1073741823

def readCondition (text : List Piece) : Except PatternError (Item × List Piece) := do
  let (name, rest) ← readName ')' text
  if isIdentifier name.toList then return (.opening (.conditionalNamed name), rest)
  else
    match Reading.integer name with
    | .error _ => throw .badGroupName
    | .ok n =>
      if n ≤ 0 then throw .badGroupName
      else if groupLimit ≤ n then throw .unknownGroup
      else return (.opening (.conditional n.toNat), rest)

/-- A group whose opening parenthesis is followed by a question mark. -/
def readExtension (text : List Piece) : Except PatternError (Item × List Piece) :=
  match text with
  | .plain 'P' :: .plain '<' :: rest => do
    let (name, rest) ← readGroupName '>' rest
    return (.opening (.capture (some name)), rest)
  | .plain 'P' :: .plain '=' :: rest => do
    let (name, rest) ← readGroupName ')' rest
    return (.referenceNamed name, rest)
  | .plain ':' :: rest => .ok (.opening .plain, rest)
  | .plain '#' :: rest => do return (.comment, ← skipComment rest)
  | .plain '=' :: rest => .ok (.opening (.ahead true), rest)
  | .plain '!' :: rest => .ok (.opening (.ahead false), rest)
  | .plain '<' :: .plain '=' :: rest => .ok (.opening (.behind true), rest)
  | .plain '<' :: .plain '!' :: rest => .ok (.opening (.behind false), rest)
  | .plain '(' :: rest => readCondition rest
  | .plain '>' :: rest => .ok (.opening .atomic, rest)
  | .plain '-' :: _ => readFlags text
  | .plain c :: _ => if (Flag.ofChar? c).isSome then readFlags text else .error .unknownExtension
  | [] => .error .unexpectedEnd
  | _ => .error .unknownExtension

def isLayout (c : Char) : Bool :=
  c = ' ' || (0x9 ≤ c.toNat && c.toNat ≤ 0xd)

def skipLine : List Piece → List Piece
  | [] => []
  | piece :: rest => if piece = .plain '\n' then rest else skipLine rest

def readPlain (c : Char) (text : List Piece) : Except PatternError (Item × List Piece) :=
  match c with
  | '|' => .ok (.bar, text)
  | ')' => .ok (.closing, text)
  | '[' => do
    let (set, rest) ← readSet text
    return (.set set, rest)
  | '*' => .ok (repetitionItem 0 none text)
  | '+' => .ok (repetitionItem 1 none text)
  | '?' => .ok (repetitionItem 0 (some 1) text)
  | '\x7b' => readBrace text
  | '.' => .ok (.dot, text)
  | '^' => .ok (.anchor .caret, text)
  | '$' => .ok (.anchor .dollar, text)
  | '(' =>
    match text with
    | .plain '?' :: rest => readExtension rest
    | _ => .ok (.opening (.capture none), text)
  | _ => .ok (.set (.single c.toNat), text)

/-- Reads one item. Verbose patterns may hold white space and comments between items. -/
def readItem (isVerbose : Bool) (piece : Piece) (text : List Piece) :
    Except PatternError (Item × List Piece) :=
  match piece with
  | .dangling => .error .danglingEscape
  | .escaped c => readEscape c text
  | .plain c =>
    if isVerbose && isLayout c then .ok (.comment, text)
    else if isVerbose && c = '#' then .ok (.comment, skipLine text)
    else readPlain c text

end CommandOntology.Regex
