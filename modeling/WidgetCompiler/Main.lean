import WidgetCompiler.CommandLine.Run

/-!
# The program

Reads the files that a command needs, runs the command, and writes what it comes to.
-/

namespace WidgetCompiler.CommandLine

open Text

/-- Why a file cannot be read or written, in the words of the system. -/
def reasonOf (e : IO.Error) : Text :=
  match e with
  | .noFileOrDirectory _ code _ =>
    "No such file or directory (os error " ++ decimal code.toNat ++ ")"
  | .permissionDenied _ code _ => "Permission denied (os error " ++ decimal code.toNat ++ ")"
  | .inappropriateType _ code _ => "Is a directory (os error " ++ decimal code.toNat ++ ")"
  | e => (toString e).toList

/-- The content of a file, or why it cannot be read. -/
def readPath (path : Text) : IO (Except Text Text) := do
  try
    let content ← IO.FS.readFile (String.ofList path)
    return .ok content.toList
  catch e => return .error (reasonOf e)

/-- Why a file could not be written, if it could not. -/
def writePath (path content : Text) : IO (Option Text) := do
  try
    IO.FS.writeFile (String.ofList path) (String.ofList content)
    return none
  catch e => return some (reasonOf e)

/-- Writes what a command ends with. -/
def report (o : Outcome) : IO UInt32 := do
  IO.print (String.ofList o.output)
  IO.eprint (String.ofList o.errors)
  return o.exitCode.toUInt32

end WidgetCompiler.CommandLine

open WidgetCompiler WidgetCompiler.CommandLine in
/-- Runs the command that the arguments ask for. -/
def main (arguments : List String) : IO UInt32 := do
  let arguments := arguments.map String.toList
  let paths := ((Command.ofArguments? arguments).map Command.paths).getD []
  let contents ← paths.mapM fun path => do return (path, ← readPath path)
  let files : Files := fun path => (contents.lookup path).getD (.error "not read")
  match CommandLine.run files arguments with
  | .done o => report o
  | .save path content next => report (next (← writePath path content))
