import CommandOntology.Pipeline.Tasks

set_option autoImplicit false

namespace CommandOntology

namespace Check

def optionalText (name : String) (v : Value) : Checked (Option String) :=
  field name none (optional text) v

end Check

def Source.check (v : Value) : Checked Source :=
  Check.record (fun v =>
    (Source.mk <$> Check.optionalText "content" v <*> Check.optionalText "path" v <*>
      Check.optionalText "url" v).andThen fun s =>
        if s.given.length = 1 then .good s else .fail .inconsistent) v

/-- Names of features in a list, or in a text that separates them by commas. -/
def checkFeatureNames : Value → Checked (List String)
  | .text s => .good (Configuration.splitNames s)
  | v => Check.list Check.text v

def layouts : List (String × Layout) :=
  [(Layout.single.name, .single)]

structure ModuleOptions where
  features : List String := []
  name : Option String := none
  version : Option String := none
  layout : Layout := .single
  deriving DecidableEq, Repr

def ModuleOptions.check (v : Value) : Checked ModuleOptions :=
  Check.record (fun v =>
    ModuleOptions.mk <$> Check.field "flags" [] checkFeatureNames v <*>
      Check.optionalText "cli_name" v <*> Check.optionalText "version" v <*>
      Check.field "output" .single (Check.choice layouts) v) v

def GenerationTask.ofOptions (source : Source) (options : ModuleOptions) : GenerationTask :=
  ⟨source, options.features, options.name, options.version, options.layout⟩

def GenerationTask.check (v : Value) : Checked GenerationTask :=
  Check.record (fun v =>
    GenerationTask.ofOptions <$> Check.required "source" Source.check v <*>
      Check.field "options" {} ModuleOptions.check v) v

def GenerationAnswer.record (a : GenerationAnswer) : Value :=
  .record [("code", .text a.generated.text),
    ("commands", .list (a.generated.commands.map CommandSummary.record)),
    ("metadata", .record a.metadata)]

def resultFormatNames : List (String × Query.ResultFormat) :=
  Query.ResultFormat.all.map fun format => (format.name, format)

def QueryTask.check (v : Value) : Checked (Source × QueryTask) :=
  Check.record (fun v =>
    (fun source query format timeout => (source, ⟨query, format, timeout⟩)) <$>
      Check.required "source" Source.check v <*> Check.required "query" Check.text v <*>
      Check.field "format" none (Check.optional (Check.choice resultFormatNames)) v <*>
      Check.field "timeout_seconds" none (Check.optional Check.positive) v) v

def QueryAnswer.record (a : QueryAnswer) : Value :=
  .record [("results", a.written), ("result_count", .nat a.results.rows.length),
    ("variables", .texts a.results.varNames)]

def documentFormatNames : List (String × DocumentFormat) :=
  [DocumentFormat.turtle, DocumentFormat.lines].map fun format => (format.name, format)

def checkDocumentFormat : Value → Checked (Option DocumentFormat) :=
  Check.optional (Check.choice documentFormatNames)

structure DocumentOptions where
  base : Option String := none
  label : Option String := none
  format : Option DocumentFormat := none
  deriving DecidableEq, Repr

def DocumentOptions.check (v : Value) : Checked DocumentOptions :=
  Check.record (fun v =>
    DocumentOptions.mk <$> Check.optionalText "base_iri" v <*> Check.optionalText "prefix" v <*>
      Check.field "format" none checkDocumentFormat v) v

def ExportTask.ofOptions (definition : Definition) (options : DocumentOptions) : ExportTask :=
  ⟨definition, options.base, options.label, options.format⟩

def ExportTask.check (v : Value) : Checked ExportTask :=
  Check.record (fun v =>
    ExportTask.ofOptions <$> Check.required "cli_definition" Definition.check v <*>
      Check.field "options" {} DocumentOptions.check v) v

def ExportedDocument.record (x : ExportedDocument) : Value :=
  .record [("document", .text x.document), ("triple_count", .nat x.tripleCount),
    ("namespaces", .record (x.namespaces.map fun (label, iri) => (label, .text iri))),
    ("format", .text x.format.name)]

end CommandOntology
