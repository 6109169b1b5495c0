import WidgetCompiler.Text.Pattern
import WidgetCompiler.Validation.Problem

/-!
# Places in a source

Problems are found at offsets and told by lines.  `Source` keeps a text together with its lines.
-/

namespace WidgetCompiler.Validation

open Text

/-- A source and its lines. -/
structure Source where
  text : Text
  lines : List Text

namespace Source

/-- The source with the given text. -/
def ofText (text : Text) : Source := ⟨text, Text.lines text⟩

/-- The number of the line in which the character at an offset stands, counted from 1. -/
def lineNumber (s : Source) (offset : Nat) : Nat := (s.text.take offset).count '\n' + 1

/-- The line with a number. -/
def line (s : Source) (number : Nat) : Text := (s.lines[number - 1]?).getD []

/-- A problem as a finding in the line of an offset. -/
def issueAt (s : Source) (p : Problem) (offset : Nat) : Issue :=
  p.issueAt (s.lineNumber offset) (s.line (s.lineNumber offset))

end Source

end WidgetCompiler.Validation
