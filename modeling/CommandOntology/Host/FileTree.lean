import CommandOntology.Host.Basic
import CommandOntology.Text.Utf8

set_option autoImplicit false

namespace CommandOntology

abbrev Place := List String

structure FileTree where
  files : List (Place × List UInt8)
  deriving Repr, Inhabited

namespace FileTree

def origin (p : Path) : Place :=
  if p.root = "" then [] else ["/"]

def isOutside (place : Place) : Bool :=
  place.all fun part => part = ".." || part = "/"

def bytes? (t : FileTree) (place : Place) : Option (List UInt8) :=
  (t.files.find? fun file => file.1 == place).map (·.2)

def isDirectory (t : FileTree) (place : Place) : Bool :=
  isOutside place ||
    t.files.any fun file => place.isPrefixOf file.1 && place.length < file.1.length

def enter (place : Place) (part : String) : Place :=
  if part = ".." ∧ !isOutside place then place.dropLast
  else place ++ [part]

def follow (t : FileTree) (place : Place) : List String → Option Place
  | [] => some place
  | part :: rest => if t.isDirectory place then t.follow (enter place part) rest else none

def entry (t : FileTree) (text : String) : FileEntry :=
  let p := Path.ofText text
  match t.follow (origin p) p.parts with
  | none => .absent
  | some place =>
    match t.bytes? place with
    | some bytes => .file bytes
    | none => if t.isDirectory place then .directory else .absent

def put (t : FileTree) (place : Place) (bytes : List UInt8) : FileTree :=
  ⟨t.files.filter (fun file => file.1 != place) ++ [(place, bytes)]⟩

/-- Goes along the parts of a path to a directory, which is made where it is not there. -/
def makeWay (t : FileTree) (place : Place) : List String → Except WriteFault Place
  | [] => .ok place
  | part :: rest =>
    let next := enter place part
    if (t.bytes? next).isSome then .error (if rest.isEmpty then .parentIsFile else .throughFile)
    else t.makeWay next rest

def write (t : FileTree) (text content : String) : Except WriteFault FileTree := do
  let p := Path.ofText text
  let place ← t.makeWay (origin p) p.parts.dropLast
  match p.parts.getLast? with
  | none => throw .isDirectory
  | some name =>
    let target := enter place name
    if name = ".." ∨ t.isDirectory target then throw .isDirectory
    return t.put target (Utf8.encode content)

def ofList (files : List (String × List UInt8)) : FileTree :=
  files.foldl (fun t file => t.put (Path.ofText file.1).parts file.2) ⟨[]⟩

end FileTree

structure Surroundings where
  environment : List (String × String) := []
  replies : List (String × Reply) := []
  modules : List (String × List (String × AppNode)) := []
  clock : Nat → Binary64 := fun _ => .zero false

namespace Surroundings

/-- The names of a dotted name and of what it lies in, outermost first. -/
def enclosing (name : String) : List String :=
  let parts := (Text.splitOn '.' name.toList).map String.ofList
  (List.range parts.length).map fun n => ".".intercalate (parts.take (n + 1))

def application (s : Surroundings) (owner member : String) : Except LookupFault AppNode :=
  match findField s.modules owner with
  | some members =>
    match findField members member with
    | some node => .ok node
    | none => .error (.noMember owner member)
  | none =>
    match enclosing owner with
    | outermost :: next :: _ =>
      if (findField s.modules outermost).isSome then .error (.notPackage next outermost)
      else .error (.noModule outermost)
    | _ => .error (.noModule owner)

end Surroundings

def Host.inMemory (s : Surroundings) : Host (StateM FileTree) where
  entry path := do return (← get).entry path
  environment name := return findField s.environment name
  fetch address := return (findField s.replies address).getD (.failed "no answer")
  application owner member := return s.application owner member
  time steps := return s.clock steps
  write path content := do
    match (← get).write path content with
    | .ok t => set t; return none
    | .error fault => return some fault

end CommandOntology
