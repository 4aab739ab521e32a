import CommandOntology.Data.Diagnosis
import CommandOntology.Host.Basic
import CommandOntology.Text.Utf8

set_option autoImplicit false

namespace CommandOntology

structure Source where
  content : Option String := none
  path : Option String := none
  address : Option String := none
  deriving DecidableEq, Repr

inductive SourceError
  | notOne (given : List String)
  | notFound (path : String)
  | undecodable (path : String) (fault : Utf8.Fault)
  | unsupportedScheme (address : String)
  | refused (address : String) (status : Int)
  | unreachable (address message : String)
  deriving DecidableEq, Repr

namespace SourceError

def report (identifier : Option String) (message : String) (details : List (String × Value)) :
    Diagnosis :=
  { stage := "load", code := "source_unavailable", identifier, message, details }

def diagnosis : SourceError → Diagnosis
  | notOne given =>
    report none "Exactly one of content, path or url must be given" [("given", .texts given)]
  | notFound path => report (some path) ("Ontology file not found: " ++ path) [("path", .text path)]
  | undecodable path fault =>
    report (some path) ("Could not read ontology file " ++ path ++ ": " ++ fault.message)
      [("path", .text path)]
  | unsupportedScheme address =>
    report (some address) ("Unsupported URL scheme: " ++ address) [("url", .text address)]
  | refused address status =>
    report (some address) ("HTTP error fetching ontology: " ++ toString status)
      [("url", .text address), ("status_code", .int status)]
  | unreachable address message =>
    report (some address) ("Error fetching ontology from " ++ address ++ ": " ++ message)
      [("url", .text address)]

end SourceError

namespace Source

def given (s : Source) : List String :=
  ([("content", s.content), ("path", s.path), ("url", s.address)].filter (·.2.isSome)).map (·.1)

def textOfEntry (path : String) : FileEntry → Except SourceError String
  | .file bytes => (Utf8.readText bytes).mapError (.undecodable path)
  | _ => .error (.notFound path)

def isFetchable (address : String) : Bool :=
  "http://".isPrefixOf address || "https://".isPrefixOf address

/-- The text of a reply. Only a status of success comes with the document. -/
def textOfReply (address : String) : Reply → Except SourceError String
  | .answered status text =>
    if 200 ≤ status ∧ status < 300 then .ok text else .error (.refused address status)
  | .failed message => .error (.unreachable address message)

end Source

namespace Host

variable {m : Type → Type} [Monad m]

def readFile (host : Host m) (path : String) : ExceptT SourceError m String := do
  Source.textOfEntry path (← host.entry path)

def readAddress (host : Host m) (address : String) : ExceptT SourceError m String := do
  if Source.isFetchable address then
    Source.textOfReply address (← host.fetch address)
  else throw (.unsupportedScheme address)

def load (host : Host m) (s : Source) : ExceptT SourceError m String :=
  match s.content, s.path, s.address with
  | some content, none, none => return content
  | none, some path, none => host.readFile path
  | none, none, some address => host.readAddress address
  | _, _, _ => throw (.notOne s.given)

end Host

end CommandOntology
