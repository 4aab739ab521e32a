import CommandOntology.Configuration.Basic

set_option autoImplicit false

namespace CommandOntology.Configuration

def standardPath : String := "config/ontocli.yaml"

structure Overrides where
  path : Option String := none
  capacity : Option String := none
  timeout : Option String := none
  backend : Option String := none
  programName : Option String := none
  features : Option String := none
  deriving DecidableEq, Repr

def nonempty (v : Option String) : Option String :=
  v.filter (· ≠ "")

/-- Replaces what variables say otherwise. Variables that are empty say nothing, but an empty list of
features is one. -/
def override (c : Configuration) (o : Overrides) : Except ConfigurationError Configuration := do
  let capacity ← (nonempty o.capacity).elim (.ok c.capacity) fun s => integer (.text s)
  let timeout ← (nonempty o.timeout).elim (.ok c.timeout) fun s => number (.text s)
  let backend ← (nonempty o.backend).elim (.ok c.backend) fun s => backendNamed (.text s)
  return { c with
    capacity, timeout, backend
    programName := (nonempty o.programName).elim c.programName Value.text
    features := o.features.elim c.features splitNames }

end CommandOntology.Configuration

namespace CommandOntology.Host

open CommandOntology.Configuration

variable {m : Type → Type} [Monad m]

def configurationAt (host : Host m) (path : String) : ExceptT ConfigurationError m Configuration := do
  Configuration.ofEntry (← host.entry path)

def overrides (host : Host m) : m Overrides := do
  return {
    path := ← host.environment "ONTOCLI_CONFIG_PATH"
    capacity := ← host.environment "ONTOCLI_NAMESPACE_CAPACITY"
    timeout := ← host.environment "ONTOCLI_QUERY_TIMEOUT"
    backend := ← host.environment "ONTOCLI_STORAGE_BACKEND"
    programName := ← host.environment "ONTOCLI_CLI_NAME"
    features := ← host.environment "ONTOCLI_FEATURES" }

def configuration (host : Host m) : ExceptT ConfigurationError m Configuration := do
  let o ← host.overrides
  let c ← host.configurationAt (o.path.getD standardPath)
  c.override o

end CommandOntology.Host
