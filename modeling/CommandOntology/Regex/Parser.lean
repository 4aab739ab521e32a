import CommandOntology.Regex.Item

set_option autoImplicit false

namespace CommandOntology.Regex

/-- A part of a branch, and what a repetition after it would find. -/
structure Part where
  node : Node
  isAnchor : Bool := false
  isRepeated : Bool := false
  deriving Repr

inductive Closing
  | capture (group : Nat)
  | plain
  | atomic
  | ahead (isPositive : Bool)
  /-- `floor` is the first group that could not be referred to before the group was opened. -/
  | behind (isPositive : Bool) (floor : Option Nat)
  | conditional (group : Nat)
  deriving DecidableEq, Repr

/-- The inside of an open group. Branches and parts are held last first. -/
structure Level where
  mode : Mode
  branches : List Node
  parts : List Part
  deriving Repr

namespace Level

def start (mode : Mode) : Level :=
  ⟨mode, [], []⟩

def push (l : Level) (part : Part) : Level :=
  { l with parts := part :: l.parts }

def branch (l : Level) : Node :=
  .ofSequence (l.parts.reverse.map (·.node))

def divide (l : Level) : Level :=
  { l with branches := l.branch :: l.branches, parts := [] }

def allBranches (l : Level) : List Node :=
  (l.branch :: l.branches).reverse

def node (l : Level) : Node :=
  .ofBranches l.allBranches

end Level

/-- A group that has been opened; its width is known when it is closed. -/
structure Group where
  name : Option String
  width : Option Width
  deriving DecidableEq, Repr

structure Draft where
  level : Level
  /-- The open groups, innermost first: what becomes of each, and what is around it. -/
  outer : List (Closing × Level)
  groups : List Group
  /-- Within a lookbehind, the number of the first group that cannot be referred to. -/
  floor : Option Nat
  globalFlags : List Flag
  conditions : List Nat
  hasRepetition : Bool
  hasVariableLookbehind : Bool

namespace Draft

def start (mode : Mode) : Draft where
  level := .start mode
  outer := []
  groups := []
  floor := none
  globalFlags := []
  conditions := []
  hasRepetition := false
  hasVariableLookbehind := false

def nextGroup (d : Draft) : Nat :=
  d.groups.length + 1

def groupWidth? (d : Draft) (group : Nat) : Option Width :=
  if group = 0 then none else (d.groups[group - 1]?).bind (·.width)

def groupNamed? (d : Draft) (name : String) : Option Nat :=
  (d.groups.findIdx? fun g => g.name == some name).map (· + 1)

/-- Within a lookbehind only groups from before it can be referred to. -/
def checkFloor (d : Draft) (group : Nat) : Except PatternError Unit :=
  match d.floor with
  | none => .ok ()
  | some floor =>
    if (d.groupWidth? group).isNone then .error .openGroup
    else if floor ≤ group then .error .groupInsideLookbehind
    else .ok ()

def push (d : Draft) (node : Node) : Draft :=
  { d with level := d.level.push { node } }

def addReference (d : Draft) (group : Nat) : Except PatternError Draft := do
  if d.groups.length < group then throw .unknownGroup
  match d.groupWidth? group with
  | none => throw .openGroup
  | some width =>
    d.checkFloor group
    return d.push (.reference group d.level.mode width)

def addRepetition (d : Draft) (greed : Greed) (least : Nat) (most : Option Nat) :
    Except PatternError Draft :=
  match d.level.parts with
  | [] => .error .nothingToRepeat
  | part :: parts =>
    if part.isAnchor then .error .nothingToRepeat
    else if part.isRepeated then .error .multipleRepeat
    else
      let node := Node.repeated greed least most part.node
      .ok { d with
        level := { d.level with parts := { node, isRepeated := true } :: parts }
        hasRepetition := true }

def anchor (mode : Mode) : AnchorSign → Anchor
  | .caret => if mode.isMultiline then .lineStart else .textStart
  | .dollar => if mode.isMultiline then .lineEnd else .lastLineEnd
  | .textStart => .textStart
  | .textEnd => .textEnd
  | .boundary isNegated => .wordBoundary isNegated mode.isAscii

def nest (d : Draft) (closing : Closing) (mode : Mode) : Draft :=
  { d with level := .start mode, outer := (closing, d.level) :: d.outer }

def addConditional (d : Draft) (group : Nat) : Except PatternError Draft := do
  d.checkFloor group
  return d.nest (.conditional group) d.level.mode

def addOpening (d : Draft) : Opening → Except PatternError Draft
  | .capture name =>
    if name.isSome && (name.bind d.groupNamed?).isSome then .error .redefinedGroup
    else
      let opened : Draft := { d with groups := d.groups ++ [⟨name, none⟩] }
      .ok (opened.nest (.capture d.nextGroup) d.level.mode)
  | .plain => .ok (d.nest .plain d.level.mode)
  | .atomic => .ok (d.nest .atomic d.level.mode)
  | .ahead isPositive => .ok (d.nest (.ahead isPositive) d.level.mode)
  | .behind isPositive =>
    let limited : Draft := { d with floor := some (d.floor.getD d.nextGroup) }
    .ok (limited.nest (.behind isPositive d.floor) d.level.mode)
  | .modes added removed => .ok (d.nest .plain (d.level.mode.change added removed))
  | .conditionalNamed name =>
    match d.groupNamed? name with
    | none => .error .unknownGroup
    | some group => d.addConditional group
  | .conditional group =>
    let noted : Draft := { d with conditions := group :: d.conditions }
    noted.addConditional group

def distanceLimit : Nat := 4294967295

def checkAlphabets (d : Draft) : Except PatternError Unit :=
  if d.globalFlags.contains .ascii && d.globalFlags.contains .unicode then
    .error .conflictingAlphabets
  else .ok ()

def close (d : Draft) : Except PatternError Draft :=
  match d.outer with
  | [] => do
    d.checkAlphabets
    throw .unbalancedParenthesis
  | (closing, around) :: outer =>
    let inside := d.level
    let body := inside.node
    let d := { d with level := around, outer }
    match closing with
    | .capture group =>
      let groups := d.groups.modify (group - 1) fun g => { g with width := some body.width }
      let closed : Draft := { d with groups }
      .ok (closed.push (.capture group body))
    | .plain => .ok (d.push body)
    | .atomic => .ok (d.push (.atomic body))
    | .ahead isPositive => .ok (d.push (.ahead isPositive body))
    | .behind isPositive floor =>
      let width := body.width
      let isVariable := width.least ≠ width.greatest || distanceLimit < width.least
      let hasVariableLookbehind := d.hasVariableLookbehind || isVariable
      let freed : Draft := { d with floor, hasVariableLookbehind }
      .ok (freed.push (.behind isPositive width.least body))
    | .conditional group =>
      match inside.allBranches with
      | present :: absent :: _ => .ok (d.push (.conditional group present absent))
      | _ => .ok (d.push (.conditional group body .empty))

def divide (d : Draft) : Except PatternError Draft :=
  match d.outer, d.level.branches with
  | (.conditional _, _) :: _, _ :: _ => .error .tooManyBranches
  | _, _ => .ok { d with level := d.level.divide }

/-- Switches flags on for the whole pattern. They have to come first. -/
def addGlobalFlags (d : Draft) (flags : List Flag) : Except PatternError Draft :=
  if d.outer.isEmpty && d.level.branches.isEmpty && d.level.parts.isEmpty then
    .ok { d with
      level := { d.level with mode := d.level.mode.change flags [] }
      globalFlags := d.globalFlags ++ flags }
  else .error .misplacedFlags

def add (d : Draft) : Item → Except PatternError Draft
  | .comment => .ok d
  | .set set => .ok (d.push (.one set d.level.mode))
  | .dot =>
    .ok (d.push (.one (if d.level.mode.dotMatchesAll then .all else .notLineBreak) d.level.mode))
  | .anchor sign =>
    .ok { d with
      level := d.level.push { node := .anchor (anchor d.level.mode sign), isAnchor := true } }
  | .repetition greed least most => d.addRepetition greed least most
  | .reference group => d.addReference group
  | .referenceNamed name =>
    match d.groupNamed? name with
    | none => .error .unknownGroup
    | some group => d.addReference group
  | .opening opening => d.addOpening opening
  | .globalFlags flags => d.addGlobalFlags flags
  | .bar => d.divide
  | .closing => d.close

def finish (d : Draft) : Except PatternError Pattern := do
  unless d.outer.isEmpty do throw .unterminatedGroup
  d.checkAlphabets
  if d.conditions.any fun group => d.groups.length < group then throw .unknownGroup
  if d.hasVariableLookbehind then throw .variableLookbehind
  if d.hasRepetition && d.globalFlags.contains .template then throw .templateRepeat
  return ⟨d.level.node, d.level.mode⟩

end Draft

/-- Adds the items of pieces; `skip` pieces belong to the item before. -/
def readFrom (skip : Nat) (d : Draft) : List Piece → Except PatternError Draft
  | [] => .ok d
  | piece :: text =>
    match skip with
    | skip + 1 => readFrom skip d text
    | 0 => do
      let (item, rest) ← readItem d.level.mode.isVerbose piece text
      readFrom (text.length - rest.length) (← d.add item) text

def parse (mode : Mode) (pattern : String) : Except PatternError Pattern := do
  (← readFrom 0 (.start mode) (pieces pattern.toList)).finish

end CommandOntology.Regex
