import CommandOntology.Regex.Parser
import CommandOntology.Text.Case

set_option autoImplicit false

/-!
# Matching

Searching a text for a pattern by trying the ways to match in order of preference and going back when
the rest cannot match. A node is matched with what has to follow it; the first way that works is taken.
-/

namespace CommandOntology.Regex

open CommandOntology.Text

def isAsciiSpace (c : Char) : Bool :=
  c = ' ' || (0x9 ≤ c.toNat && c.toNat ≤ 0xd)

def isAsciiWord (c : Char) : Bool :=
  isAsciiAlphanumeric c || c == '_'

def ClassName.holds (name : ClassName) (isAscii : Bool) (c : Char) : Bool :=
  match name, isAscii with
  | .digit, true => isAsciiDigit c
  | .space, true => isAsciiSpace c
  | .word, true => isAsciiWord c
  | .digit, false => isDecimalDigit c
  | .space, false => isBlank c
  | .word, false => isWordChar c

/-- The characters that are the same letter as a character up to case, in ASCII alone. -/
def asciiForms (c : Char) : List Char :=
  if 'a' ≤ c && c ≤ 'z' then [c, Char.ofNat (c.toNat - 32)] else [c, asciiLower c]

def forms (mode : Mode) (c : Char) : List Char :=
  if !mode.ignoresCase then [c] else if mode.isAscii then asciiForms c else sameLetters c

namespace SetMember

def holds (m : SetMember) (isAscii : Bool) (c : Char) (forms : List Char) : Bool :=
  match m with
  | range first last => forms.any fun d => first ≤ d.toNat && d.toNat ≤ last
  | named name isNegated => name.holds isAscii c != isNegated

end SetMember

def CharSet.holds (s : CharSet) (mode : Mode) (c : Char) : Bool :=
  let forms := forms mode c
  s.members.any (·.holds mode.isAscii c forms) != s.isNegated

/-- Whether two characters agree where the text of a group is repeated. -/
def agree (mode : Mode) (a b : Char) : Bool :=
  if !mode.ignoresCase then a == b
  else if mode.isAscii then asciiLower a == asciiLower b
  else lowerChar a == lowerChar b

/-- How far a match has come, and where groups start and end, last first. -/
structure Progress where
  place : Nat
  starts : List (Nat × Nat)
  ends : List (Nat × Nat)
  deriving DecidableEq, Repr

namespace Progress

def mark (marks : List (Nat × Nat)) (group : Nat) : Option Nat :=
  (marks.find? fun m => m.1 == group).map (·.2)

def span? (p : Progress) (group : Nat) : Option (Nat × Nat) :=
  match mark p.starts group, mark p.ends group with
  | some first, some last => if first ≤ last then some (first, last) else none
  | _, _ => none

def openGroup (p : Progress) (group : Nat) : Progress :=
  { p with starts := (group, p.place) :: p.starts }

def closeGroup (p : Progress) (group : Nat) : Progress :=
  { p with ends := (group, p.place) :: p.ends }

end Progress

def isWordEdge (text : Array Char) (isAscii : Bool) (place : Nat) : Bool :=
  let isWord := fun (c : Char) => ClassName.word.holds isAscii c
  let before := place ≠ 0 && (text[place - 1]?).any isWord
  let after := (text[place]?).any isWord
  before != after

/-- Whether a test of a place holds. An empty text has no place that is, or is not, a word's edge. -/
def Anchor.holds (a : Anchor) (text : Array Char) (place : Nat) : Bool :=
  match a with
  | textStart => place == 0
  | textEnd => place == text.size
  | lastLineEnd => place == text.size || (place + 1 == text.size && text[place]? == some '\n')
  | lineStart => place == 0 || text[place - 1]? == some '\n'
  | lineEnd => place == text.size || text[place]? == some '\n'
  | wordBoundary isNegated isAscii =>
    text.size ≠ 0 && (isWordEdge text isAscii place != isNegated)

def sameText (text : Array Char) (mode : Mode) (first second : Nat) : Nat → Bool
  | 0 => true
  | n + 1 =>
    match text[first]?, text[second]? with
    | some a, some b => agree mode a b && sameText text mode (first + 1) (second + 1) n
    | _, _ => false

abbrev Matcher := (Progress → Option Progress) → Progress → Option Progress

def exactly (matcher : Matcher) : Nat → Matcher
  | 0, next, p => next p
  | n + 1, next, p => matcher (exactly matcher n next) p

/-- Whether there may be another time: the bound is not reached, and the last time has moved. -/
def mayRepeat (bound : Option Nat) (last : Option Nat) (p : Progress) : Bool :=
  bound ≠ some 0 && last ≠ some p.place

/-- As often as possible, at most `bound` times. A time that does not move is the last one, so that
`room` bounds how many there can be. -/
def greedily (matcher : Matcher) (room : Nat) (bound last : Option Nat) : Matcher := fun next p =>
  match room with
  | 0 => next p
  | room + 1 =>
    if mayRepeat bound last p then
      match matcher (greedily matcher room (bound.map (· - 1)) (some p.place) next) p with
      | some q => some q
      | none => next p
    else next p

def lazily (matcher : Matcher) (room : Nat) (bound last : Option Nat) : Matcher := fun next p =>
  match next p with
  | some q => some q
  | none =>
    match room with
    | 0 => none
    | room + 1 =>
      if mayRepeat bound last p then
        matcher (lazily matcher room (bound.map (· - 1)) (some p.place) next) p
      else none

def possessively (matcher : Matcher) (room : Nat) (bound last : Option Nat) (p : Progress) :
    Progress :=
  match room with
  | 0 => p
  | room + 1 =>
    if mayRepeat bound last p then
      match matcher some p with
      | some q => possessively matcher room (bound.map (· - 1)) (some p.place) q
      | none => p
    else p

def firmly (matcher : Matcher) : Nat → Progress → Option Progress
  | 0, p => some p
  | n + 1, p => (matcher some p).bind (firmly matcher n)

/-- A repetition. The room is enough for every time to move but one. -/
def repeatMatcher (size : Nat) (greed : Greed) (least : Nat) (most : Option Nat)
    (matcher : Matcher) : Matcher := fun next p =>
  let bound := most.map (· - least)
  let room (q : Progress) := size - q.place + 2
  match greed with
  | .greedy => exactly matcher least (fun q => greedily matcher (room q) bound none next q) p
  | .lazy => exactly matcher least (fun q => lazily matcher (room q) bound none next q) p
  | .possessive =>
    (firmly matcher least p).bind fun q => next (possessively matcher (room q) bound none q)

def Node.run (text : Array Char) : Node → Matcher
  | .empty, next, p => next p
  | .one set mode, next, p =>
    match text[p.place]? with
    | some c => if set.holds mode c then next { p with place := p.place + 1 } else none
    | none => none
  | .anchor test, next, p => if test.holds text p.place then next p else none
  | .sequence first second, next, p => first.run text (second.run text next) p
  | .either first second, next, p =>
    match first.run text next p with
    | some q => some q
    | none => second.run text next p
  | .capture group body, next, p =>
    body.run text (fun q => next (q.closeGroup group)) (p.openGroup group)
  | .repeated greed least most body, next, p =>
    repeatMatcher text.size greed least most (body.run text) next p
  | .atomic body, next, p => (body.run text some p).bind next
  | .ahead isPositive body, next, p =>
    match body.run text some p, isPositive with
    | some q, true => next { q with place := p.place }
    | none, false => next p
    | _, _ => none
  | .behind isPositive distance body, next, p =>
    let found :=
      if p.place < distance then none else body.run text some { p with place := p.place - distance }
    match found, isPositive with
    | some q, true => next { q with place := p.place }
    | none, false => next p
    | _, _ => none
  | .reference group mode _, next, p =>
    match p.span? group with
    | none => none
    | some (first, last) =>
      if sameText text mode first p.place (last - first) then
        next { p with place := p.place + (last - first) }
      else none
  | .conditional group present absent, next, p =>
    if (p.span? group).isSome then present.run text next p else absent.run text next p

/-- The set of the first character of a match and the mode of that set, if a node starts with a set. -/
def Node.leadingSet? : Node → Option (CharSet × Mode)
  | .one set mode => some (set, mode)
  | .sequence .empty second => second.leadingSet?
  | .sequence first _ => first.leadingSet?
  | .capture _ body => body.leadingSet?
  | .either first second =>
    match first.leadingSet?, second.leadingSet? with
    | some (a, mode), some (b, _) =>
      if first.width = .one ∧ second.width = .one ∧ !a.isNegated ∧ !b.isNegated then
        some (⟨false, a.members ++ b.members⟩, mode)
      else none
    | _, _ => none
  | _ => none

/-- Whether a member holds the same characters with and without regard to case. -/
def SetMember.isCaseless (mode : Mode) : SetMember → Bool
  | .range first last => first == last && (forms mode (Char.ofNat first)).all (·.toNat == first)
  | .named .. => true

/-- Whether the search tries a place. When the first set of a pattern works in another alphabet than the
pattern itself, a match starts only with a character that the set holds in both. -/
def Pattern.triesPlace (p : Pattern) (text : Array Char) (place : Nat) : Bool :=
  match p.node.leadingSet? with
  | some (set, mode) =>
    mode.isAscii == p.mode.isAscii ||
      (mode.ignoresCase && !set.members.all (·.isCaseless mode)) ||
      (text[place]?).any (set.holds { p.mode with ignoresCase := false })
  | none => true

/-- The first place from which a pattern matches, and how, among so many places from one on. -/
def Pattern.searchFrom (p : Pattern) (text : Array Char) (place : Nat) : Nat → Option Progress
  | 0 => none
  | n + 1 =>
    match if p.triesPlace text place then p.node.run text some ⟨place, [], []⟩ else none with
    | some found => some found
    | none => p.searchFrom text (place + 1) n

def Pattern.matchesIn (p : Pattern) (text : String) : Bool :=
  let chars := text.toList.toArray
  (p.searchFrom chars 0 (chars.size + 1)).isSome

end CommandOntology.Regex
