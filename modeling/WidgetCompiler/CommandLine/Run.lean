import WidgetCompiler.Catalog.Builtin
import WidgetCompiler.Catalog.Document
import WidgetCompiler.CommandLine.Help
import WidgetCompiler.Conversion
import WidgetCompiler.Settings.Document
import WidgetCompiler.Text.Json

/-!
# Running a command

A command reads files and ends with an `Outcome`: an exit code and what goes to the two outputs.  A
command that has a file to write says so (`Answer.save`), and how it goes on depends on whether the
file could be written.
-/

namespace WidgetCompiler.CommandLine

open Text

/-- How a command ends. -/
structure Outcome where
  exitCode : Nat := 0
  output : Text := []
  errors : Text := []
deriving Repr

/-- What a command comes to. -/
inductive Answer
  | done (outcome : Outcome)
  /-- A file to write, and what then follows, given why it could not be written if it could not. -/
  | save (path content : Text) (next : Option Text → Outcome)

/-- The files that can be read: their content, or why they cannot. -/
abbrev Files := Text → Except Text Text

/-! ## Failures -/

/-- The exit code of a failure. -/
def failureCode : Nat := 1

/-- The exit code for arguments that are not as they should be. -/
def usageCode : Nat := 2

/-- The exit code when the program breaks off. -/
def abortCode : Nat := 101

/-- The lines that tell of a failure. -/
def failureLines : Failure → Text
  | .invalid report source =>
    "✗ generated widget is not deliverable\n" ++ report.render
      ++ "  (" ++ decimal (String.ofList source).utf8ByteSize ++ " bytes of rejected source)\n"
  | .catalog (.circle tags) =>
    "✗ Catalog error:\n    circular inheritance: " ++ CatalogError.chainText tags ++ "\n"
  | f => "✗ " ++ f.message ++ "\n"

/-- How a command ends with a failure, after some output. -/
def failed (f : Failure) : Outcome :=
  match f with
  | .uncheckable => { exitCode := abortCode }
  | f => { exitCode := failureCode, errors := failureLines f }

/-! ## Files -/

/-- The content of a file that a command needs. -/
def readFile (files : Files) (path : Text) : Except Failure Text :=
  match files path with
  | .ok t => .ok t
  | .error reason => .error (.file ("Failed to read " ++ path ++ ": " ++ reason))

/-- The content of a file if there is one to read. -/
def readOptional (files : Files) : Option Text → Except Failure Text
  | some path => readFile files path
  | none => .ok []

/-- The content of a file that is named as it is. -/
def readPlain (files : Files) (path : Text) : Except Failure Text :=
  match files path with
  | .ok t => .ok t
  | .error reason => .error (.file reason)

/-- The catalog in a file, or the built-in one. -/
def readCatalog (files : Files) : Option Text → Except Failure Catalog
  | some path => (readPlain files path).bind Catalog.ofYaml
  | none => .ok Catalog.builtin

/-- The settings in a file, or the defaults. -/
def readSettings (files : Files) : Option Text → Except Failure Settings
  | some path => (readPlain files path).bind Settings.ofYaml
  | none => .ok {}

/-! ## Conversion -/

/-- The widget that a conversion makes. -/
def convertFiles (files : Files) (o : ConvertOptions) : Except Failure Conversion := do
  let markup ← readFile files o.markup
  let style ← readOptional files o.style
  let behavior ← readOptional files o.behavior
  let catalog ← readCatalog files o.catalog
  let settings ← readSettings files o.config
  convert catalog settings none
    { markup := markup, style := style, behavior := behavior, hints := o.hints }

/-- The report, if there are warnings in it. -/
def warningText (c : Conversion) : Text :=
  if c.report.warnings.isEmpty then [] else c.report.render

/-- Runs a conversion. -/
def runConvert (files : Files) (o : ConvertOptions) : Answer :=
  match convertFiles files o with
  | .error f => .done (failed f)
  | .ok c =>
    let content := if o.preview then c.widget.preview else c.widget.source
    match o.output with
    | none => .done { output := content, errors := warningText c }
    | some path => .save path content fun
      | some reason => failed (.file ("Failed to write " ++ path ++ ": " ++ reason))
      | none =>
        { errors := "✓ " ++ c.widget.className ++ " written to " ++ path ++ "\n" ++ warningText c }

/-! ## Checking -/

/-- An entry of an object, if there is a value for it. -/
def optionalEntry (name : Text) (v : Option JsonValue) : List (Text × JsonValue) :=
  (v.map fun v => (name, v)).toList

/-- A finding in JSON. -/
def issueJson (i : Validation.Issue) : JsonValue :=
  .object (optionalEntry "kind" (some (.string i.kind.name))
    ++ optionalEntry "line" (i.line.map .number)
    ++ optionalEntry "message" (some (.string i.message))
    ++ optionalEntry "snippet" (i.snippet.map .string))

/-- The report on a file in JSON. -/
def reportJson (file : Text) (r : Validation.Report) : JsonValue :=
  .object [
    ("file", .string file),
    ("result", .object [
      ("errors", .array (r.errors.map issueJson)), ("valid", .bool r.valid),
      ("warnings", .array (r.warnings.map issueJson))])]

/-- The outcome with the report on a file added to the output that it belongs to. -/
def addReport (o : Outcome) (file : Text) (r : Validation.Report) : Outcome :=
  let told := file ++ ": " ++ r.render ++ "\n"
  if r.valid then { o with output := o.output ++ told } else { o with errors := o.errors ++ told }

/-- Checks files one after the other. -/
def checkFiles (files : Files) (json : Bool) (o : Outcome) (reports : List JsonValue) :
    List Text → Outcome
  | [] => if json then { o with output := (JsonValue.array reports).render ++ ['\n'] } else o
  | path :: paths =>
    match readFile files path with
    | .error f =>
      let f := failed f
      { f with output := o.output, errors := o.errors ++ f.errors }
    | .ok source =>
      match Validation.validate? source with
      | none => { o with exitCode := abortCode }
      | some r =>
        let o := if r.valid then o else { o with exitCode := failureCode }
        if json then checkFiles files json o (reports ++ [reportJson path r]) paths
        else checkFiles files json (addReport o path r) reports paths

/-! ## Catalogs -/

/-- The line for a tag in the list of a catalog. -/
def tagLine (c : Catalog) (tag : Text) : Text :=
  if tag = c.fallback then tag ++ " (fallback)" else tag

/-- Shows a template, or the tags of a catalog. -/
def runCatalog (files : Files) (tag file : Option Text) : Outcome :=
  match readCatalog files file with
  | .error f => failed f
  | .ok c => match tag with
    | some tag => { output := (c.resolve tag).toYaml }
    | none => { output := joinLines (c.tags.map (tagLine c)) }

/-! ## Commands -/

/-- Runs a command. -/
def Command.run (files : Files) : Command → Answer
  | help topic => .done { output := joinLines topic.lines }
  | version => .done { output := versionLine ++ ['\n'] }
  | convert o => runConvert files o
  | validate paths json => .done (checkFiles files json {} [] paths)
  | catalog tag file => .done (runCatalog files tag file)

/-- Runs the command that the arguments ask for. -/
def run (files : Files) (arguments : List Text) : Answer :=
  match Command.ofArguments? arguments with
  | some command => command.run files
  | none => .done { exitCode := usageCode }

/-- The files that a command reads. -/
def Command.paths : Command → List Text
  | convert o =>
    o.markup :: o.style.toList ++ o.behavior.toList ++ o.catalog.toList ++ o.config.toList
  | validate paths _ => paths
  | catalog _ file => file.toList
  | _ => []

end WidgetCompiler.CommandLine
