import WidgetCompiler.Text.Basic
import WidgetCompiler.Text.Lowercase

/-!
# Reports

A `Report` holds what was found in a source: errors, for which the source is refused, and warnings.
Each finding (`Issue`) is of a kind, says what is wrong, and may name a line and show it.
-/

namespace WidgetCompiler.Validation

open Text

/-- The kinds of findings. -/
inductive IssueKind
  | syntactic
  | structural
  | security
  | performance
  | bestPractice
  | compatibility
deriving DecidableEq, Repr

namespace IssueKind

/-- All kinds in order. -/
def all : List IssueKind :=
  [syntactic, structural, security, performance, bestPractice, compatibility]

/-- The name of the kind. -/
def name : IssueKind → Text
  | syntactic => "syntax"
  | structural => "structure"
  | security => "security"
  | performance => "performance"
  | bestPractice => "best-practice"
  | compatibility => "compatibility"

/-- The kind of a given name. -/
def ofName? (name : Text) : Option IssueKind := all.find? (·.name == name)

end IssueKind

/-- Something found in a source. -/
structure Issue where
  kind : IssueKind
  message : Text
  /-- The number of the line, counted from 1. -/
  line : Option Nat := none
  /-- What stands in the line. -/
  snippet : Option Text := none
deriving DecidableEq, Repr

/-- What was found in a source. -/
structure Report where
  valid : Bool
  errors : List Issue
  warnings : List Issue
deriving DecidableEq, Repr

namespace Issue

/-- The line that shows where the issue is, if anything is known of that. -/
def place? (i : Issue) : Option Text :=
  match i.line, i.snippet with
  | some line, some snippet => some ("     line " ++ decimal line ++ ": " ++ snippet)
  | some line, none => some ("     line " ++ decimal line)
  | none, some snippet => some ("     " ++ snippet)
  | none, none => none

/-- The lines of an issue with its number. -/
def lines (number : Nat) (i : Issue) : List Text :=
  ("  " ++ decimal number ++ ". [" ++ upperAscii i.kind.name ++ "] " ++ i.message)
    :: i.place?.toList

/-- The lines of issues that are numbered from `number` on. -/
def allLines (number : Nat) : List Issue → List Text
  | [] => []
  | i :: is => i.lines number ++ allLines (number + 1) is

end Issue

namespace Report

/-- The report of some findings; the source is valid if there are no errors. -/
def ofIssues (errors warnings : List Issue) : Report := ⟨errors.isEmpty, errors, warnings⟩

/-- The line that says that all is well. -/
def validLine : Text := "✓ widget source is valid"

/-- The lines of the report. -/
def textLines (r : Report) : List Text :=
  if r.valid && r.warnings.isEmpty then [validLine]
  else
    (if r.errors.isEmpty then [validLine]
      else ("✗ " ++ decimal r.errors.length ++ " error(s):") :: Issue.allLines 1 r.errors)
    ++ (if r.warnings.isEmpty then []
      else ("⚠ " ++ decimal r.warnings.length ++ " warning(s):") :: Issue.allLines 1 r.warnings)

/-- The report as text. -/
def render (r : Report) : Text := joinLines r.textLines

theorem valid_ofIssues (errors warnings : List Issue) :
    (ofIssues errors warnings).valid = true ↔ (ofIssues errors warnings).errors = [] := by
  simp [ofIssues]

end Report

end WidgetCompiler.Validation
