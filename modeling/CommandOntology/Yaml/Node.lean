import CommandOntology.Data.Value
import CommandOntology.Yaml.Lexer
import CommandOntology.Yaml.Tag

set_option autoImplicit false

namespace CommandOntology.Yaml

inductive Node
  | scalar (tag text : String)
  | sequence (tag : String) (items : List Node)
  | mapping (tag : String) (entries : List (Node × Node))
  deriving Inhabited, Repr

def Node.tag : Node → String
  | scalar tag _ => tag
  | sequence tag _ => tag
  | mapping tag _ => tag

/-- What is being parsed: the tokens that are left, the nodes that have names, and the meaning of tag
handles. A name without a node belongs to a node that is not complete. -/
structure Source where
  tokens : List Token
  anchors : List (String × Option Node)
  handles : List (String × String)

abbrev Parser := StateT Source (Except ReadError)

namespace Parser

def fail {α : Type} (fault : Fault) : Parser α :=
  throw (.malformed fault)

/-- The next token; a text that cannot be read further fails here. -/
def peek : Parser Token := do
  match (← get).tokens with
  | [] => return .streamEnd
  | .broken error :: _ => throw error
  | t :: _ => return t

def advance : Parser Unit :=
  modify fun s => { s with tokens := s.tokens.drop 1 }

def expect (t : Token) : Parser Unit := do
  if (← peek) = t then advance else fail .unexpectedToken

/-- Goes on behind a token if it comes, and says whether it does. -/
def accept (t : Token) : Parser Bool := do
  if (← peek) = t then
    advance
    return true
  else return false

end Parser

structure Properties where
  anchor : Option String
  tag : Option String

def readAnchorName : Parser (Option String) := do
  match ← Parser.peek with
  | .anchor name =>
    Parser.advance
    return some name
  | _ => return none

/-- The tag of a node if one comes, with its handle replaced by what it means. -/
def readNodeTag : Parser (Option String) := do
  match ← Parser.peek with
  | .tag none rest =>
    Parser.advance
    return some rest
  | .tag (some handle) rest =>
    Parser.advance
    match findField (← get).handles handle with
    | some start => return some (start ++ rest)
    | none => Parser.fail .tag
  | _ => return none

def readProperties : Parser Properties := do
  match ← readAnchorName with
  | some name => return ⟨some name, ← readNodeTag⟩
  | none =>
    match ← readNodeTag with
    | some tag => return ⟨← readAnchorName, some tag⟩
    | none => return ⟨none, none⟩

def openAnchor (anchor : Option String) : Parser Unit := do
  match anchor with
  | none => return
  | some name =>
    if (findField (← get).anchors name).isSome then Parser.fail (.repeatedAnchor name)
    else modify fun s => { s with anchors := s.anchors ++ [(name, none)] }

def closeAnchor (anchor : Option String) (node : Node) : Parser Node := do
  match anchor with
  | none => return node
  | some name =>
    modify fun s => { s with anchors := putField s.anchors name (some node) }
    return node

def namedNode (name : String) : Parser Node := do
  match findField (← get).anchors name with
  | some (some node) => return node
  | _ => Parser.fail (.unknownAlias name)

def explicitTag (tag : Option String) : Option String :=
  tag.filter (· ≠ "!")

def emptyNode : Node :=
  .scalar Tag.null ""

/-- A scalar. Plain ones without a tag, and those with the lone exclamation mark, get the tag that their
text suggests. -/
def scalarNode (tag : Option String) (text : String) (isPlain : Bool) : Node :=
  match explicitTag tag with
  | some tag => .scalar tag text
  | none => .scalar (if isPlain || tag.isSome then Tag.ofPlain text else Tag.text) text

/-- Where a node stands. Blocks are allowed outside of flow collections, and a sequence that is the value
of a key need not be indented. -/
inductive Context
  | block | blockValue | flow
  deriving DecidableEq, Repr

def isFollower (followers : List Token) (t : Token) : Bool :=
  followers.contains t

mutual

def readNode (context : Context) : (room : Nat) → Parser Node
  | 0 => Parser.fail .unexpectedToken
  | room + 1 => do
    if let .alias name ← Parser.peek then
      Parser.advance
      return ← namedNode name
    let p ← readProperties
    openAnchor p.anchor
    let sequenceTag := (explicitTag p.tag).getD Tag.sequence
    let mappingTag := (explicitTag p.tag).getD Tag.mapping
    let node ←
      match ← Parser.peek with
      | .scalar text isPlain =>
        Parser.advance
        pure (scalarNode p.tag text isPlain)
      | .flowSequence =>
        Parser.advance
        pure (.sequence sequenceTag (← readFlowItems true room))
      | .flowMapping =>
        Parser.advance
        pure (.mapping mappingTag (← readFlowEntries true room))
      | .blockEntry =>
        if context = .blockValue then pure (.sequence sequenceTag (← readLooseItems room))
        else if p.anchor.isSome || p.tag.isSome then pure (scalarNode p.tag "" p.tag.isNone)
        else Parser.fail .unexpectedToken
      | .blockSequence =>
        if context ≠ .flow then
          Parser.advance
          pure (.sequence sequenceTag (← readBlockItems room))
        else if p.anchor.isSome || p.tag.isSome then pure (scalarNode p.tag "" p.tag.isNone)
        else Parser.fail .unexpectedToken
      | .blockMapping =>
        if context ≠ .flow then
          Parser.advance
          pure (.mapping mappingTag (← readBlockEntries room))
        else if p.anchor.isSome || p.tag.isSome then pure (scalarNode p.tag "" p.tag.isNone)
        else Parser.fail .unexpectedToken
      | _ =>
        if p.anchor.isSome || p.tag.isSome then pure (scalarNode p.tag "" p.tag.isNone)
        else Parser.fail .unexpectedToken
    closeAnchor p.anchor node

def readNodeUnless (context : Context) (followers : List Token) : (room : Nat) → Parser Node
  | 0 => Parser.fail .unexpectedToken
  | room + 1 => do
    if isFollower followers (← Parser.peek) then return emptyNode
    else readNode context room

def readBlockItems : (room : Nat) → Parser (List Node)
  | 0 => Parser.fail .unexpectedToken
  | room + 1 => do
    if ← Parser.accept .blockEntry then
      let item ← readNodeUnless .block [.blockEntry, .blockEnd] room
      return item :: (← readBlockItems room)
    else
      Parser.expect .blockEnd
      return []

def readLooseItems : (room : Nat) → Parser (List Node)
  | 0 => Parser.fail .unexpectedToken
  | room + 1 => do
    if ← Parser.accept .blockEntry then
      let item ← readNodeUnless .block [.blockEntry, .key, .value, .blockEnd] room
      return item :: (← readLooseItems room)
    else return []

def readBlockValue : (room : Nat) → Parser Node
  | 0 => Parser.fail .unexpectedToken
  | room + 1 => do
    if ← Parser.accept .value then readNodeUnless .blockValue [.key, .value, .blockEnd] room
    else return emptyNode

def readBlockEntries : (room : Nat) → Parser (List (Node × Node))
  | 0 => Parser.fail .unexpectedToken
  | room + 1 => do
    if ← Parser.accept .key then
      let key ← readNodeUnless .blockValue [.key, .value, .blockEnd] room
      let value ← readBlockValue room
      return (key, value) :: (← readBlockEntries room)
    else
      Parser.expect .blockEnd
      return []

def readFlowValue (closing : Token) : (room : Nat) → Parser Node
  | 0 => Parser.fail .unexpectedToken
  | room + 1 => do
    if ← Parser.accept .value then readNodeUnless .flow [.flowEntry, closing] room
    else return emptyNode

/-- The items of a flow sequence up to its end. A key makes a mapping of one entry of its item. -/
def readFlowItems (isFirst : Bool) : (room : Nat) → Parser (List Node)
  | 0 => Parser.fail .unexpectedToken
  | room + 1 => do
    if ← Parser.accept .flowSequenceEnd then return []
    if !isFirst then Parser.expect .flowEntry
    match ← Parser.peek with
    | .flowSequenceEnd =>
      Parser.advance
      return []
    | .key =>
      Parser.advance
      let key ← readNodeUnless .flow [.value, .flowEntry, .flowSequenceEnd] room
      let value ← readFlowValue .flowSequenceEnd room
      return .mapping Tag.mapping [(key, value)] :: (← readFlowItems false room)
    | _ =>
      let item ← readNode .flow room
      return item :: (← readFlowItems false room)

/-- The entries of a flow mapping up to its end. An entry without a colon has no value. -/
def readFlowEntries (isFirst : Bool) : (room : Nat) → Parser (List (Node × Node))
  | 0 => Parser.fail .unexpectedToken
  | room + 1 => do
    if ← Parser.accept .flowMappingEnd then return []
    if !isFirst then Parser.expect .flowEntry
    match ← Parser.peek with
    | .flowMappingEnd =>
      Parser.advance
      return []
    | .key =>
      Parser.advance
      let key ← readNodeUnless .flow [.value, .flowEntry, .flowMappingEnd] room
      let value ← readFlowValue .flowMappingEnd room
      return (key, value) :: (← readFlowEntries false room)
    | _ =>
      let key ← readNode .flow room
      return (key, emptyNode) :: (← readFlowEntries false room)

end

def readDirectives (seenVersion : Bool) (handles : List (String × String)) :
    (room : Nat) → Parser (List (String × String))
  | 0 => Parser.fail .directive
  | room + 1 => do
    match ← Parser.peek with
    | .directive d =>
      Parser.advance
      match d with
      | .version major =>
        if seenVersion ∨ major ≠ 1 then Parser.fail .directive
        else readDirectives true handles room
      | .tag handle start =>
        if (findField handles handle).isSome then Parser.fail .directive
        else readDirectives seenVersion (handles ++ [(handle, start)]) room
      | .other => readDirectives seenVersion handles room
    | _ => return handles

/-- The handles that every document knows, unless it gives them another meaning. -/
def defaultHandles : List (String × String) :=
  [("!", "!"), ("!!", Tag.start)]

def skipDocumentEnds : (room : Nat) → Parser Unit
  | 0 => return
  | room + 1 => do
    if ← Parser.accept .documentEnd then skipDocumentEnds room

/-- The node of a document that begins with its mark, or nothing at the end of the text. -/
def readMarkedDocument (room : Nat) : Parser (Option Node) := do
  skipDocumentEnds room
  if (← Parser.peek) = .streamEnd then return none
  let handles ← readDirectives false [] room
  modify fun s => { s with handles := handles ++ defaultHandles }
  Parser.expect .documentStart
  match ← Parser.peek with
  | .directive _ => return some emptyNode
  | .documentStart => return some emptyNode
  | .documentEnd => return some emptyNode
  | .streamEnd => return some emptyNode
  | _ => return some (← readNode .block room)

def readFirstDocument (room : Nat) : Parser (Option Node) := do
  match ← Parser.peek with
  | .directive _ => readMarkedDocument room
  | .documentStart => readMarkedDocument room
  | .streamEnd => return none
  | _ =>
    modify fun s => { s with handles := defaultHandles }
    return some (← readNode .block room)

def readDocument (room : Nat) : Parser (Option Node) := do
  match ← readFirstDocument room with
  | none => return none
  | some node =>
    skipDocumentEnds room
    if (← Parser.peek) = .streamEnd then return some node
    else Parser.fail .secondDocument

def parse (text : String) : Except ReadError (Option Node) :=
  let tokens := tokens text
  (readDocument (4 * tokens.length + 4)).run' ⟨tokens, [], []⟩

end CommandOntology.Yaml
