import CommandOntology.Generation.Plan

set_option autoImplicit false

namespace CommandOntology.Generation

open CommandOntology.Text (quoted)

inductive Line
  | plain (text : String)
  | field (ident text : String)
  | parameter (ident text : String)
  deriving DecidableEq, Repr

def Line.text : Line → String
  | plain text => text
  | field _ text => text
  | parameter _ text => text

abbrev Block := List Line

def lines (texts : List String) : Block :=
  texts.map .plain

def linesIf (condition : Bool) (texts : List String) : Block :=
  if condition then lines texts else []

structure Setting where
  name : String
  version : String
  help : String
  features : Features
  deriving DecidableEq, Repr

def docString (text : String) : String :=
  "\"\"\"" ++ text ++ "\"\"\""

def header (s : Setting) (plans : List CommandPlan) : Block :=
  let fields := plans.flatMap (·.fields)
  lines ["\"\"\"" ++ docText s.name ++ " command-line interface.", "",
    "Generated by ontocli from an ontology with " ++ toString plans.length ++ " command(s).",
    "Do not edit by hand; regenerate instead.", "\"\"\"", ""] ++
  linesIf (s.features.has .asyncHandlers) ["import asyncio"] ++
  lines ["from dataclasses import dataclass"] ++
  linesIf (fields.any (·.type == .path)) ["from pathlib import Path"] ++
  linesIf (fields.any (·.presence == .optional)) ["from typing import Optional"] ++
  lines ["", "import typer", "", "CLI_NAME = " ++ quoted s.name, "__version__ = " ++ quoted s.version]

def holder (s : Setting) (c : CommandPlan) : Block :=
  let docs := s.features.has .docBlocks
  let fieldLine (p : Parameter) : Line :=
    let default :=
      match p.fieldDefault? with
      | some value => " = " ++ value
      | none => ""
    .field p.ident ("    " ++ p.ident ++ ": " ++ p.annotation ++ default)
  lines ["", "", "@dataclass(frozen=True)", "class " ++ c.holderName ++ ":"] ++
  linesIf docs ["    " ++ docString ("Arguments of \x60" ++ docText c.qualifiedName ++ "\x60.")] ++
  c.fields.map fieldLine ++
  linesIf (c.fields.isEmpty && !docs) ["    pass"]

def handler (s : Setting) (c : CommandPlan) : Block :=
  let start := if s.features.has .asyncHandlers then "async def " else "def "
  lines ["", "", start ++ c.handlerName ++ "(args: " ++ c.holderName ++ ") -> None:"] ++
  linesIf (s.features.has .docBlocks)
    ["    \"\"\"" ++ docText c.help, "", "    Bound to " ++ docText c.binding ++ ".", "    \"\"\""] ++
  lines ["    raise NotImplementedError("
    ++ quoted ("handler " ++ c.binding ++ " is not implemented") ++ ")"]

def tableKey (c : CommandPlan) : String :=
  "(" ++ quoted c.noun ++ ", " ++ quoted c.verb ++ ")"

def table (plans : List CommandPlan) : Block :=
  lines (["", "", "DISPATCH = \x7b"] ++
    plans.map (fun c => "    " ++ tableKey c ++ ": " ++ c.handlerName ++ ",") ++ ["\x7d"])

def rootApp (s : Setting) : Block :=
  let completions := if s.features.has .completions then "True" else "False"
  lines ["", "", "app = typer.Typer(", "    name=CLI_NAME,", "    help=" ++ quoted s.help ++ ",",
    "    add_completion=" ++ completions ++ ",", "    no_args_is_help=True,"] ++
  linesIf (s.features.has .coloredHelp) ["    rich_markup_mode=\"rich\","] ++
  lines [")", "", "", "def _version_callback(value: bool) -> None:", "    if value:",
    "        typer.echo(f\"\x7bCLI_NAME\x7d \x7b__version__\x7d\")", "        raise typer.Exit()", "", "",
    "@app.callback()", "def main(", "    version: bool = typer.Option(",
    "        False, \"--version\", callback=_version_callback, is_eager=True, "
      ++ "help=\"Show the version and exit.\"",
    "    ),", ") -> None:",
    if s.features.has .docBlocks then "    " ++ docString (docText s.help) else "    pass"]

def nounApp (s : Setting) (noun appName : String) : Block :=
  lines ["", "", appName ++ " = typer.Typer(", "    name=" ++ quoted noun ++ ",",
    "    help=" ++ quoted ("Commands for " ++ noun ++ ".") ++ ",", "    no_args_is_help=True,"] ++
  linesIf (s.features.has .coloredHelp) ["    rich_markup_mode=\"rich\","] ++
  lines [")", "app.add_typer(" ++ appName ++ ", name=" ++ quoted noun ++ ")"]

def wiring (s : Setting) (appName : String) (c : CommandPlan) : Block :=
  let parameterLine (p : Parameter) : Line :=
    .parameter p.ident
      ("    " ++ p.ident ++ ": " ++ p.annotation ++ " = " ++ p.declaration ++ ",")
  let call := "DISPATCH[" ++ tableKey c ++ "](arguments)"
  lines ["", "", "@" ++ appName ++ ".command(" ++ quoted c.verb ++ ", help=" ++ quoted c.help ++ ")",
    "def " ++ c.functionName ++ "("] ++
  c.parameters.map parameterLine ++
  lines [") -> None:"] ++
  (if s.features.has .docBlocks then
    lines ["    \"\"\"" ++ docText c.help] ++
    linesIf (!c.parameters.isEmpty) (["", "    Args:"] ++
      c.parameters.map fun p => "        " ++ p.ident ++ ": " ++ docText p.help) ++
    lines ["    \"\"\""]
  else []) ++
  lines (["    arguments = " ++ c.holderName ++ "("] ++
    c.parameters.map (fun p => "        " ++ p.ident ++ "=" ++ p.ident ++ ",") ++
    ["    )",
      if s.features.has .asyncHandlers then "    asyncio.run(" ++ call ++ ")" else "    " ++ call])

def manualPage (s : Setting) (plans : List CommandPlan) : String :=
  let parameter (p : Parameter) : String :=
    ".RS\n.B " ++ p.ident ++ "\n" ++ manualText (docText p.help) ++ "\n.RE"
  let command (c : CommandPlan) : List String :=
    [".TP", ".B " ++ c.noun ++ " " ++ c.verb, manualText c.help] ++ c.parameters.map parameter
  "\n".intercalate ([
    ".TH " ++ Text.upper s.name ++ " 1 \"\" \"" ++ s.name ++ " " ++ s.version ++ "\" \"User Commands\"",
    ".SH NAME", s.name ++ " \\- " ++ manualText s.help, ".SH SYNOPSIS", ".B " ++ s.name,
    "\\fINOUN\\fR \\fIVERB\\fR [\\fIOPTIONS\\fR]", ".SH COMMANDS"] ++ plans.flatMap command) ++ "\n"

def manualCommand (s : Setting) (plans : List CommandPlan) : Block :=
  let doc := "Print the manual page in roff format."
  lines ["", "", "MANPAGE = " ++ quoted (manualPage s plans), "", "",
    "@app.command(\"manpage\", help=\"" ++ doc ++ "\")", "def manpage() -> None:"] ++
  linesIf (s.features.has .docBlocks) ["    " ++ docString doc] ++
  lines ["    typer.echo(MANPAGE)"]

def footer : Block :=
  lines ["", "", "if __name__ == \"__main__\":", "    app()"]

def blocks (s : Setting) (plans : List CommandPlan) : List Block :=
  let group (g : String × List CommandPlan) : List Block :=
    match g.2 with
    | [] => []
    | c :: _ => nounApp s g.1 c.appName :: g.2.map (wiring s c.appName)
  [header s plans] ++ plans.flatMap (fun c => [holder s c, handler s c]) ++ [table plans, rootApp s] ++
    (nounGroups plans).flatMap group ++
    (if s.features.has .manPages then [manualCommand s plans] else []) ++ [footer]

def moduleText (blocks : List Block) : String :=
  String.join (blocks.flatten.map (·.text ++ "\n"))

end CommandOntology.Generation
