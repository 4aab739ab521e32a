import CommandOntology.Data.Diagnosis
import CommandOntology.Generation.ArgumentType
import CommandOntology.Generation.Feature

set_option autoImplicit false

namespace CommandOntology.Generation

inductive Role
  | noun | verb | argument
  deriving DecidableEq, Repr

def Role.text : Role → String
  | noun => "noun"
  | verb => "verb"
  | argument => "argument"

inductive Property
  | noun | verb | handler
  deriving DecidableEq, Repr

def Property.text : Property → String
  | noun => "noun"
  | verb => "verb"
  | handler => "handler"

inductive StructureFault
  | notIdentifier (role : String) (name ident : String)
  | nounClash (noun other ident : String)
  | manpageNoun
  | nameClash (generated other : String)
  | reservedArgument (name : String)
  | argumentClash (other name ident : String)
  deriving DecidableEq, Repr

def StructureFault.reason : StructureFault → String
  | notIdentifier role name ident =>
    role ++ " name '" ++ name ++ "' cannot be used as a Python identifier ('" ++ ident ++ "')"
  | nounClash noun other ident =>
    "noun '" ++ noun ++ "' and noun '" ++ other ++ "' both normalize to '" ++ ident ++ "'"
  | manpageNoun => "noun 'manpage' collides with the generated manpage command"
  | nameClash generated other =>
    "generated name '" ++ generated ++ "' collides with command '" ++ other ++ "'"
  | reservedArgument name => "argument name '" ++ name ++ "' is reserved"
  | argumentClash other name ident =>
    "arguments '" ++ other ++ "' and '" ++ name ++ "' both normalize to '" ++ ident ++ "'"

/-- Why a module is not accepted by the language that it is written in. -/
inductive ModuleFault
  | repeatedParameter (ident : String) (line : Nat)
  | assignedDebug (line : Nat)
  | nullCharacter
  deriving DecidableEq, Repr

def ModuleFault.reason : ModuleFault → String
  | repeatedParameter ident line =>
    "duplicate argument '" ++ ident ++ "' in function definition (line " ++ toString line ++ ")"
  | assignedDebug line => "cannot assign to __debug__ (line " ++ toString line ++ ")"
  | nullCharacter => "source code string cannot contain null bytes (line None)"

inductive GenerationError
  | missingProperty (command : String) (property : Property)
  | invalidStructure (command : String) (fault : StructureFault)
  | unknownType (entity tag : String)
  | invalidDefault (entity : String) (type : ArgumentType) (raw : String)
  | invalidModule (fault : ModuleFault)
  | unknownFeature (name : String) (names : List String)
  | untitled
  deriving DecidableEq, Repr

namespace GenerationError

def report (code : String) (identifier : Option String) (message : String)
    (details : List (String × Value)) (isInternal : Bool := false) : Option Diagnosis :=
  some { stage := "generate", code, identifier, message, details, isInternal := some isInternal }

def mismatch (entity expected found : String) : Option Diagnosis :=
  report "type_mismatch" (some entity)
    ("'" ++ entity ++ "': expected " ++ expected ++ ", found '" ++ found ++ "'")
    [("entity", .text entity), ("expected", .text expected), ("found", .text found)]

def diagnosis? : GenerationError → Option Diagnosis
  | missingProperty command property =>
    report "missing_property" (some command)
      ("internal invariant violated: command '" ++ command
        ++ "' reached the generator without required property '" ++ property.text ++ "'")
      [("command", .text command), ("property", .text property.text)] true
  | invalidStructure command fault =>
    report "invalid_structure" (some command) ("command '" ++ command ++ "': " ++ fault.reason)
      [("command", .text command), ("reason", .text fault.reason)]
  | unknownType entity tag =>
    mismatch entity ("one of " ++ ", ".intercalate (ArgumentType.tags.map (·.1))) tag
  | invalidDefault entity type raw => mismatch entity ("a " ++ type.annotation ++ " default") raw
  | invalidModule fault =>
    report "synthesis_error" none ("generated module does not compile: " ++ fault.reason)
      [("template", .null)]
  | unknownFeature name names =>
    report "generator_error" none (Features.unknownMessage name) [("flags", .texts names)]
  | untitled => none

end GenerationError

end CommandOntology.Generation
