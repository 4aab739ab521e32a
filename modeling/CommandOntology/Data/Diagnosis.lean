import CommandOntology.Data.Value

set_option autoImplicit false

namespace CommandOntology

/-- The report of a failure. Generator failures also say whether they are defects of the library
itself. -/
structure Diagnosis where
  stage : String
  code : String
  identifier : Option String
  message : String
  details : List (String × Value)
  isInternal : Option Bool := none

def Diagnosis.record (d : Diagnosis) : List (String × Value) :=
  [("stage", .text d.stage), ("code", .text d.code), ("identifier", .optText d.identifier),
    ("message", .text d.message), ("details", .record d.details)] ++
    d.isInternal.toList.map fun b => ("internal", .bool b)

/-- The largest value that a character code may have before it is no machine integer. -/
def machineIntegerLimit : Nat := 2147483647

/-- Failures that are no reports of a stage: a value outside the range of an operation. -/
inductive RangeError
  | value (message : String)
  | overflow
  deriving DecidableEq, Repr

/-- The failure of turning a number beyond the last code point into a character. -/
def RangeError.ofCodePoint (value : Nat) : RangeError :=
  if machineIntegerLimit < value then .overflow
  else .value "chr() arg not in range(0x110000)"

end CommandOntology
