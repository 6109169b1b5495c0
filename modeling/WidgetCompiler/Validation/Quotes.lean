import WidgetCompiler.Text.Letters
import WidgetCompiler.Validation.Source

/-!
# Literals that are not closed

A source is read character by character, in markup, in code, in literals and in comments.  Code and
comments go on over the end of a line, a literal does not: one that is open at the end of a line is
a finding.

Only characters of ASCII can be read.  Line comments are passed over, and what stands in them does
not matter.
-/

namespace WidgetCompiler.Validation

open Text

/-- What a source is read in at a place. -/
inductive LexState
  | markup
  | code
  | quoted (quote : Char)
  | blockComment
  | lineComment
deriving DecidableEq, Repr

/-- What is reached at the end of a line; nothing if there is a character that cannot be read. -/
@[grind =]
def lexLine (state : LexState) : Text → Option LexState
  | [] => some state
  | c :: s =>
    match state with
    | .lineComment =>
      match c, s with
      | '?', '>' :: s => lexLine .markup s
      | _, s => lexLine .lineComment s
    | .markup =>
      match c, s with
      | '<', '?' :: 'p' :: 'h' :: 'p' :: s => lexLine .code s
      | '<', '?' :: '=' :: s => lexLine .code s
      | c, s => if isAscii c then lexLine .markup s else none
    | .blockComment =>
      match c, s with
      | '*', '/' :: s => lexLine .code s
      | c, s => if isAscii c then lexLine .blockComment s else none
    | .quoted q =>
      if c = '\\' then
        match s with
        | [] => some (.quoted q)
        | d :: s => if isAscii d then lexLine (.quoted q) s else none
      else if isAscii c then lexLine (if c = q then .code else .quoted q) s
      else none
    | .code =>
      match c, s with
      | '?', '>' :: s => lexLine .markup s
      | '/', '*' :: s => lexLine .blockComment s
      | '/', '/' :: s => lexLine .lineComment s
      | '#', '[' :: s => lexLine .code s
      | '#', s => lexLine .lineComment s
      | '\'', s => lexLine (.quoted '\'') s
      | '"', s => lexLine (.quoted '"') s
      | c, s => if isAscii c then lexLine .code s else none

/-- The state in which the next line begins. -/
def LexState.nextLine : LexState → LexState
  | quoted _ => code
  | lineComment => code
  | state => state

theorem nextLine_nextLine (state : LexState) : state.nextLine.nextLine = state.nextLine := by
  cases state <;> rfl

/-- The quote of the literal that is open. -/
def LexState.openQuote? : LexState → Option Char
  | quoted q => some q
  | _ => none

/-- The findings in lines, the first of which has the given number; nothing if there is a character
that cannot be read. -/
def quoteIssues (state : LexState) (number : Nat) : List Text → Option (List Issue)
  | [] => some []
  | line :: rest =>
    match lexLine state line with
    | none => none
    | some state =>
      (quoteIssues state.nextLine (number + 1) rest).map fun issues =>
        (state.openQuote?.map fun q => (Problem.openQuote q).issueAt number line).toList ++ issues

/-- The findings on literals that are open at the end of a line; nothing if the source has a
character outside ASCII anywhere but in a line comment. -/
def checkQuotes? (s : Source) : Option (List Issue) := quoteIssues .markup 1 s.lines

end WidgetCompiler.Validation
