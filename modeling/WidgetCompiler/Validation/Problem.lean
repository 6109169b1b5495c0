import WidgetCompiler.Validation.Report

/-!
# What can be wrong with a source

The problems that are looked for in the source of a widget, with their kinds and their words.
-/

namespace WidgetCompiler.Validation

open Text

/-- Something that is wrong with a source. -/
inductive Problem
  /-- Code is entered where code is already. -/
  | orphanedOpening
  /-- Markup stands in code. -/
  | markupInCode
  /-- Code is left and entered again so many times with nothing in between. -/
  | redundantTransitions (count : Nat)
  /-- The source holds something that belongs to a whole page. -/
  | pageStructure (what : Text)
  /-- So many values are printed without being escaped. -/
  | unescapedValues (count : Nat)
  /-- The widget's style sheet styles the page as a whole. -/
  | globalSelectors (selectors : List Text)
  | invalidControlId (id : Text)
  /-- A literal in such quotes is not closed on its line. -/
  | openQuote (quote : Char)
  | noClass
  | missingMethod (name : Text)
deriving DecidableEq, Repr

namespace Problem

/-- The kind of a problem. -/
def kind : Problem → IssueKind
  | orphanedOpening => .syntactic
  | markupInCode => .syntactic
  | redundantTransitions _ => .syntactic
  | pageStructure _ => .structural
  | unescapedValues _ => .security
  | globalSelectors _ => .bestPractice
  | invalidControlId _ => .syntactic
  | openQuote _ => .syntactic
  | noClass => .structural
  | missingMethod _ => .structural

/-- A problem in words. -/
def message : Problem → Text
  | orphanedOpening => "Orphaned <?php tag: the render routine is already in PHP mode"
  | markupInCode => "Markup output while in PHP mode; close PHP with ?> first"
  | redundantTransitions count =>
    "Redundant PHP mode transition: ?> immediately followed by <?php with nothing to output ("
      ++ decimal count ++ " occurrence(s))"
  | pageStructure what => "Widget output must be a fragment: found " ++ what
  | unescapedValues count => decimal count
      ++ " control value(s) echoed without escaping; wrap them in esc_html(), esc_attr() or esc_url()"
  | globalSelectors selectors => "Custom CSS targets global selector(s) " ++ join ", " selectors
      ++ "; such rules are stripped, use scoped class selectors instead"
  | invalidControlId id => "Invalid control id '" ++ id
      ++ "': only letters, digits and underscores are allowed"
  | openQuote quote =>
    "Unbalanced " ++ (if quote = '\'' then ("single" : Text) else "double") ++ " quotes"
  | noClass => "No class extending \\Elementor\\Widget_Base"
  | missingMethod name => "Missing required method " ++ name ++ "()"

/-- The problem as a finding without a place. -/
def issue (p : Problem) : Issue := { kind := p.kind, message := p.message }

/-- How many characters of a line are shown. -/
def snippetLength : Nat := 100

/-- What is shown of a line: the line without the blanks around it, cut where it is long. -/
def snippetOf (line : Text) : Text :=
  let trimmed := trim line
  if trimmed.length ≤ snippetLength then trimmed else trimmed.take snippetLength ++ "..."

/-- The problem as a finding in a line. -/
def issueAt (p : Problem) (number : Nat) (line : Text) : Issue :=
  { p.issue with line := some number, snippet := some (snippetOf line) }

end Problem

end WidgetCompiler.Validation
