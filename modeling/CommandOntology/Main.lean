import CommandOntology.Console.Run

set_option autoImplicit false

open CommandOntology

def entryOnDisk (path : String) : IO FileEntry := do
  try
    return .file (← IO.FS.readBinFile path).toList
  catch
    | .inappropriateType .. => return .directory
    | _ => return .absent

def writeOnDisk (path content : String) : IO (Option WriteFault) := do
  let p := Path.ofText path
  let parent : Path := ⟨p.root, p.parts.dropLast⟩
  try
    IO.FS.createDirAll parent.text
  catch _ => return some .parentIsFile
  try
    IO.FS.writeFile path content
    return none
  catch _ => return some .isDirectory

/-- The machine. Nothing is fetched from the network, and no application is loaded. -/
def machine : Host IO where
  entry := entryOnDisk
  environment := fun name => IO.getEnv name
  fetch := fun _ => return .failed "no network access"
  application := fun owner _ => return .error (.noModule owner)
  time := fun _ => return .ofRatio false (← IO.monoNanosNow) 1000000000
  write := writeOnDisk

def failureText : Console.Failure → String
  | .pipeline error => error.valueMessage?.getD "the work was given up"
  | .write _ => "the output cannot be written"
  | .relativeModule => "a module has to be named in full"

def main (words : List String) : IO UInt32 := do
  let outcome ← Console.run machine words
  (← IO.getStdout).putStr outcome.output
  (← IO.getStderr).putStr outcome.errors
  match outcome.failure with
  | some failure => (← IO.getStderr).putStrLn (failureText failure)
  | none => pure ()
  return outcome.status.toUInt32
