import CommandOntology.Pipeline.Configured
import CommandOntology.Query.Execution
import CommandOntology.Query.Results

set_option autoImplicit false

namespace CommandOntology

/-- A host and the configuration that holds there, which is looked up when it is first needed. -/
structure Workplace (m : Type → Type) where
  host : Host m
  configuration : ExceptT ConfigurationError m Configuration

inductive Layout
  | single
  deriving DecidableEq, Repr

def Layout.name : Layout → String
  | single => "single"

/-- A module to be generated. Without features it has the configured ones. -/
structure GenerationTask where
  source : Source
  features : List String := []
  name : Option String := none
  version : Option String := none
  layout : Layout := .single
  deriving DecidableEq, Repr

/-- A generated module, and what is to be noted about the ontology. -/
structure GenerationAnswer where
  generated : GeneratedModule
  layout : Layout
  warnings : List Finding

structure QueryTask where
  query : String
  format : Option Query.ResultFormat := none
  timeout : Option Binary64 := none
  deriving DecidableEq, Repr

/-- The result of a query, written in a format. A result in JSON is a record. -/
structure QueryAnswer where
  results : Query.Results
  written : Value

structure ExportTask where
  definition : Definition
  base : Option String := none
  label : Option String := none
  format : Option DocumentFormat := none
  deriving DecidableEq, Repr

namespace GenerationAnswer

def metadata (a : GenerationAnswer) : List (String × Value) :=
  a.generated.metadata ++
    [("output", .text a.layout.name), ("warnings", .list (a.warnings.map Finding.record))]

end GenerationAnswer

/-- The features of a task. Unknown names are told with all the names that were given. -/
def GenerationTask.chosenFeatures (t : GenerationTask) (c : Configuration) :
    Except PipelineError Features :=
  if t.features.isEmpty then c.chosenFeatures.mapError .unknownFeature
  else
    (Features.ofNames t.features).mapError fun name =>
      .generation (.unknownFeature name t.features)

def GenerationTask.answer (t : GenerationTask) (c : Configuration) (o : Ontology) :
    Except PipelineError GenerationAnswer := do
  let o ← (o.validate none).mapError .validation
  let features ← t.chosenFeatures c
  let generated ← ((c.generator t.name t.version).generate features o.index).mapError .generation
  return ⟨generated, t.layout, o.report.warnings⟩

def ExportTask.answer (t : ExportTask) (c : Configuration) : Except PipelineError ExportedDocument :=
  (t.definition.export (c.exportOptions t.base t.label (t.format.map DocumentFormat.name))).mapError
    .exporting

def writeResults (r : Query.Results) (format : Query.ResultFormat) : Except PipelineError Value :=
  match format with
  | .json => .ok r.record
  | format => ((r.inFormat format).map Value.text).mapError .unwritableResult

namespace Workplace

variable {m : Type → Type} [Monad m]

def configured (w : Workplace m) : ExceptT PipelineError m Configuration :=
  w.configuration.adapt .configuration

def load (w : Workplace m) (s : Source) : ExceptT PipelineError m String :=
  (w.host.load s).adapt .source

def readOntology (w : Workplace m) (s : Source) (backend : Option String := none) :
    ExceptT PipelineError m Ontology := do
  let text ← w.load s
  let c ← w.configured
  c.readOntology text backend

def generate (w : Workplace m) (t : GenerationTask) : ExceptT PipelineError m GenerationAnswer := do
  let o ← w.readOntology t.source
  t.answer (← w.configured) o

def run (w : Workplace m) (o : Ontology) (budget : Binary64) (query : String) :
    ExceptT PipelineError m Query.Results := do
  let start ← w.host.time 0
  let work := Query.execute o.store o.namespaces o.base query
  let stop ← w.host.time work.checks
  let clock : Query.Clock := fun reading => if reading = 0 then start else stop
  let outcome : Except PipelineError (Query.Results × Binary64) :=
    (work.timed clock (some budget)).mapError .query
  return (← outcome).1

def ask (w : Workplace m) (o : Ontology) (t : QueryTask) : ExceptT PipelineError m QueryAnswer := do
  let c ← w.configured
  let format ← c.resultFormatFor t.format
  let results ← w.run o (c.budget t.timeout) t.query
  return ⟨results, ← writeResults results format⟩

def askSource (w : Workplace m) (s : Source) (t : QueryTask) :
    ExceptT PipelineError m QueryAnswer := do
  let _ ← w.configured
  let o ← w.readOntology s
  w.ask o t

def exportDefinition (w : Workplace m) (t : ExportTask) :
    ExceptT PipelineError m ExportedDocument := do
  t.answer (← w.configured)

end Workplace

end CommandOntology
