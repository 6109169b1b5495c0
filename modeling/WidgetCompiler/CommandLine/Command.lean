import WidgetCompiler.Identity.Basic

/-!
# Commands

What can be asked for on the command line, and how the arguments are read.

An option is written `--name value` or `--name=value`, and the short one also directly before its
value.  A value that follows its option may not look like an option.  No option may be given
twice, and the name of a file may not be empty.  Behind `--` everything is a plain argument.

Help and the version are given as soon as they are asked for, whatever follows.
-/

namespace WidgetCompiler.CommandLine

open Text

/-- What there is help on. -/
inductive Topic
  | program
  | convert
  | validate
  | catalog
  | help
deriving DecidableEq, Repr

/-- What a conversion takes. -/
structure ConvertOptions where
  markup : Text
  style : Option Text := none
  behavior : Option Text := none
  output : Option Text := none
  hints : IdentityHints := {}
  catalog : Option Text := none
  config : Option Text := none
  preview : Bool := false
deriving Repr

/-- What is asked for. -/
inductive Command
  | help (topic : Topic)
  | version
  | convert (options : ConvertOptions)
  | validate (files : List Text) (json : Bool)
  | catalog (tag file : Option Text)
deriving Repr

/-! ## Options -/

/-- What an option takes. -/
inductive Takes
  | nothing
  | text
  | file
deriving DecidableEq, Repr

/-- An option of a command. -/
structure OptionSpec where
  name : Text
  takes : Takes
  short : Option Char := none
deriving Repr

/-- A command's options, and how many plain arguments it takes at most. -/
structure CommandSpec where
  options : List OptionSpec
  /-- No bound where there is none. -/
  maxArguments : Option Nat
  /-- Whether the plain arguments are names of files. -/
  filesAsArguments : Bool := false
deriving Repr

/-- The options of a conversion. -/
def convertSpec : CommandSpec :=
  { options := [
      { name := "markup", takes := .file }, { name := "style", takes := .file },
      { name := "behavior", takes := .file },
      { name := "output", takes := .file, short := some 'o' }, { name := "name", takes := .text },
      { name := "title", takes := .text }, { name := "description", takes := .text },
      { name := "category", takes := .text }, { name := "icon", takes := .text },
      { name := "catalog", takes := .file }, { name := "config", takes := .file },
      { name := "preview", takes := .nothing }]
    maxArguments := some 0 }

/-- The options of a check. -/
def validateSpec : CommandSpec :=
  { options := [{ name := "json", takes := .nothing }]
    maxArguments := none
    filesAsArguments := true }

/-- The options of a look at a catalog. -/
def catalogSpec : CommandSpec :=
  { options := [{ name := "catalog", takes := .file }], maxArguments := some 1 }

/-- What was read of a command's arguments. -/
structure Given where
  /-- The options in order, with their values. -/
  options : List (Text × Text) := []
  /-- The plain arguments in order. -/
  arguments : List Text := []
  /-- Whether help was asked for. -/
  help : Bool := false
deriving Repr

namespace Given

/-- The value of an option. -/
def value? (g : Given) (name : Text) : Option Text := g.options.lookup name

/-- Whether an option is given. -/
def has (g : Given) (name : Text) : Bool := (g.value? name).isSome

/-- What was read, with one more option; nothing if it was given before or its value is no good. -/
def addOption? (g : Given) (spec : OptionSpec) (value : Text) : Option Given :=
  if g.has spec.name || (spec.takes == .file && value.isEmpty) then none
  else some { g with options := g.options ++ [(spec.name, value)] }

/-- What was read, with one more plain argument; nothing if there is no place for it. -/
def addArgument? (g : Given) (spec : CommandSpec) (t : Text) : Option Given :=
  if (spec.maxArguments.any (g.arguments.length ≥ ·)) || (spec.filesAsArguments && t.isEmpty) then
    none
  else some { g with arguments := g.arguments ++ [t] }

end Given

/-- What one argument is, before any `--`. -/
inductive ArgumentShape
  | escape
  | long (name : Text) (value : Option Text)
  /-- Short options, of which there is one at least. -/
  | short (first : Char) (rest : Text)
  | plain
deriving DecidableEq, Repr

/-- The shape of an argument. -/
def shapeOf (t : Text) : ArgumentShape :=
  match t with
  | ['-', '-'] => .escape
  | '-' :: '-' :: body => match cutAt? (· == '=') body with
    | some (name, value) => .long name (some value)
    | none => .long body none
  | '-' :: c :: rest => .short c rest
  | _ => .plain

/-- The value of an option that stands in the next argument, and the arguments behind it. -/
def nextValue? : List Text → Option (Text × List Text)
  | [] => none
  | t :: ts => if shapeOf t = .plain then some (t, ts) else none

/-- The value behind a short option in the same argument, if there is one. -/
def attachedValue? : Text → Option Text
  | [] => none
  | '=' :: value => some value
  | value => some value

/-- Reads an option that may have its value attached. -/
def readOption? (g : Given) (spec : OptionSpec) (attached : Option Text) (ts : List Text) :
    Option (Given × List Text) :=
  match spec.takes, attached with
  | .nothing, none => (g.addOption? spec []).map fun g => (g, ts)
  | .nothing, some _ => none
  | _, some value => (g.addOption? spec value).map fun g => (g, ts)
  | _, none => match nextValue? ts with
    | some (value, ts) => (g.addOption? spec value).map fun g => (g, ts)
    | none => none

/-- Reads the arguments of a command, in so many steps at most; nothing if they are not as they
should be. -/
def readGiven? (spec : CommandSpec) (fuel : Nat) (g : Given) (ts : List Text) : Option Given :=
  match fuel, ts with
  | 0, _ => some g
  | _, [] => some g
  | fuel + 1, t :: ts =>
    match shapeOf t with
    | .escape => ts.foldlM (fun g t => g.addArgument? spec t) g
    | .plain => (g.addArgument? spec t).bind fun g => readGiven? spec fuel g ts
    | .long name value =>
      if name = "help".toList then
        (if value.isNone then some { g with help := true } else none)
      else match spec.options.find? (·.name == name) with
        | some option =>
          (readOption? g option value ts).bind fun (g, ts) => readGiven? spec fuel g ts
        | none => none
    | .short c rest =>
      if c = 'h' then some { g with help := true }
      else match spec.options.find? (·.short == some c) with
        | some option => (readOption? g option (attachedValue? rest) ts).bind fun (g, ts) =>
          readGiven? spec fuel g ts
        | none => none

/-! ## Commands -/

/-- What is asked for with the arguments of a conversion. -/
def convertCommand? (g : Given) : Option Command :=
  (g.value? "markup").map fun markup => .convert
    { markup := markup
      style := g.value? "style"
      behavior := g.value? "behavior"
      output := g.value? "output"
      hints := { name := g.value? "name", title := g.value? "title"
                 description := g.value? "description", category := g.value? "category"
                 icon := g.value? "icon" }
      catalog := g.value? "catalog"
      config := g.value? "config"
      preview := g.has "preview" }

/-- What is asked for with the arguments of a check. -/
def validateCommand? (g : Given) : Option Command :=
  if g.arguments.isEmpty then none else some (.validate g.arguments (g.has "json"))

/-- What is asked for with the arguments of a look at a catalog. -/
def catalogCommand? (g : Given) : Option Command :=
  some (.catalog g.arguments.head? (g.value? "catalog"))

/-- Reads a command whose name was read. -/
def subcommand? (topic : Topic) (spec : CommandSpec) (make : Given → Option Command)
    (ts : List Text) : Option Command :=
  (readGiven? spec (ts.length + 1) {} ts).bind fun g =>
    if g.help then some (.help topic) else make g

/-- The topic of a name. -/
def topic? (name : Text) : Option Topic :=
  if name = "convert".toList then some .convert
  else if name = "validate".toList then some .validate
  else if name = "catalog".toList then some .catalog
  else if name = "help".toList then some .help
  else none

/-- What the arguments ask for; nothing if they are not as they should be. -/
def Command.ofArguments? : List Text → Option Command
  | [] => none
  | t :: ts =>
    match shapeOf t with
    | .plain => match topic? t with
      | some .convert => subcommand? .convert convertSpec convertCommand? ts
      | some .validate => subcommand? .validate validateSpec validateCommand? ts
      | some .catalog => subcommand? .catalog catalogSpec catalogCommand? ts
      | some .help => match ts with
        | [] => some (.help .program)
        | [name] => (topic? name).map .help
        | _ => none
      | _ => none
    | .long name none =>
      if name = "help".toList then some (.help .program)
      else if name = "version".toList then some .version
      else none
    | .short c _ =>
      if c = 'h' then some (.help .program) else if c = 'V' then some .version else none
    | _ => none

end WidgetCompiler.CommandLine
