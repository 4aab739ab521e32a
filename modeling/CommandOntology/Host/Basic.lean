import CommandOntology.Application.Tree
import CommandOntology.Number.Binary64
import CommandOntology.Text.Layout

set_option autoImplicit false

/-!
# Hosts

What a program finds around it: files, settings of the environment, documents in the network, other
applications and a clock. A host is a record of these in a monad, so that the program is one function
over all of them, whether they are real or held in memory.

Paths are lists of parts. Empty parts and single points mean nothing and are dropped; double points stay,
since what they mean depends on what is there.
-/

namespace CommandOntology

structure Path where
  root : String
  parts : List String
  deriving DecidableEq, Repr

namespace Path

/-- What a path begins with: nothing, two slashes if there are exactly two, or one. -/
def rootOf (text : List Char) : String :=
  match (text.takeWhile (· = '/')).length with
  | 0 => ""
  | 2 => "//"
  | _ => "/"

def ofText (text : String) : Path where
  root := rootOf text.toList
  parts := ((Text.splitOn '/' text.toList).map String.ofList).filter fun part =>
    part ≠ "" && part ≠ "."

def text (p : Path) : String :=
  if p.root = "" ∧ p.parts = [] then "." else p.root ++ "/".intercalate p.parts

def normal (s : String) : String :=
  (ofText s).text

end Path

inductive FileEntry
  | absent
  | directory
  | file (bytes : List UInt8)
  deriving DecidableEq, Repr

inductive WriteFault
  /-- A part of the path is a file where a directory is wanted. -/
  | throughFile
  /-- The directory that the file is put in is a file itself. -/
  | parentIsFile
  | isDirectory
  deriving DecidableEq, Repr

inductive Reply
  | answered (status : Int) (text : String)
  | failed (message : String)
  deriving DecidableEq, Repr

inductive LookupFault
  | noModule (name : String)
  | notPackage (name parent : String)
  | noMember (owner member : String)
  deriving DecidableEq, Repr

def LookupFault.message : LookupFault → String
  | noModule name => "No module named " ++ Text.quoted name
  | notPackage name parent =>
    "No module named " ++ Text.quoted name ++ "; " ++ Text.quoted parent ++ " is not a package"
  | noMember owner member => "module '" ++ owner ++ "' has no attribute '" ++ member ++ "'"

structure Host (m : Type → Type) where
  entry : String → m FileEntry
  environment : String → m (Option String)
  fetch : String → m Reply
  application : String → String → m (Except LookupFault AppNode)
  /-- The time in seconds, after so many steps of work. -/
  time : Nat → m Binary64
  /-- Writes a text to a file, making the directories on the way to it. -/
  write : String → String → m (Option WriteFault)

end CommandOntology
