import WidgetCompiler.Php.Writer
import WidgetCompiler.Validation.Source

/-!
# Modes in the method that shows the widget

The lines of the method are read in order, in code or in markup as the delimiters in them say.
Code must not be entered where code is already, and no line of markup may stand in code.  The method
ends at the brace that stands no further in than its declaration.
-/

namespace WidgetCompiler.Validation

open Text

/-- The declaration of a method. -/
def methodNamed (name : Text) : Pattern Unit := fun prev s =>
  if wordMayBegin prev then
    match (after? "function" s).bind afterSomeBlanks? with
    | some s => match (after? name s).map afterBlanks with
      | some ('(' :: rest) => some ((), rest)
      | _ => none
    | none => none
  else none

/-- How many characters precede the last place where `mark` stands. -/
def lastOffset? (mark : Text) : Text → Option Nat
  | [] => none
  | c :: s => match lastOffset? mark s with
    | some n => some (n + 1)
    | none => if startsWith (c :: s) mark then some 0 else none

/-- What opens code that prints one value. -/
def shortEchoTag : Text := "<?="

/-- The greater of two numbers, as far as they are there. -/
def maxOption : Option Nat → Option Nat → Option Nat
  | some a, some b => some (max a b)
  | some a, none => some a
  | none, b => b

/-- Whether code is reached behind a line: the delimiter that stands last decides. -/
def codeAfter (line : Text) (inCode : Bool) : Bool :=
  match maxOption (lastOffset? Php.openTag line) (lastOffset? shortEchoTag line),
    lastOffset? Php.closeTag line with
  | some o, some c => o > c
  | some _, none => true
  | none, some _ => false
  | none, none => inCode

/-- How far in a line stands. -/
def indentWidth (line : Text) : Nat := (line.takeWhile isBlank).length

/-- Whether a line without blanks before it begins with a tag. -/
def beginsWithTag : Text → Bool
  | '<' :: c :: _ => c.isAlpha || c == '/' || c == '!'
  | _ => false

/-- What is wrong with a line, without the blanks around it, that stands in code and follows
another one. -/
def problemInCode? (previous trimmed : Text) : Option Problem :=
  if trimmed = Php.openTag
      ∧ ¬(endsWith previous Php.closeTag = true ∨ previous = "\x7d".toList) then
    some .orphanedOpening
  else if beginsWithTag trimmed then some .markupInCode
  else none

/-- The findings in the lines of a method that follow `previous`, the first of which has the given
number. -/
def modeIssues (indent number : Nat) (inCode : Bool) (previous : Text) : List Text → List Issue
  | [] => []
  | line :: rest =>
    let trimmed := trim line
    if trimmed.isEmpty then modeIssues indent (number + 1) inCode previous rest
    else if inCode && trimmed.head? = some '\x7d' && indentWidth line ≤ indent then []
    else
      let here := if inCode then (problemInCode? previous trimmed).toList else []
      here.map (·.issueAt number line)
        ++ modeIssues indent (number + 1) (codeAfter line inCode) trimmed rest

/-- The findings in a source whose first line has the given number. -/
def checkRenderModesFrom (number : Nat) : List Text → List Issue
  | [] => []
  | line :: rest =>
    if Pattern.occursIn (methodNamed "render") line then
      modeIssues (indentWidth line) (number + 1) true (trim line) rest
    else checkRenderModesFrom (number + 1) rest

/-- The findings on the modes of the method that shows the widget. -/
def checkRenderModes (s : Source) : List Issue := checkRenderModesFrom 1 s.lines

end WidgetCompiler.Validation
