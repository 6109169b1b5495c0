import WidgetCompiler.Text.Basic

/-!
# Writing code and markup in turns

A routine that prints a page is written in two modes.  In code, everything up to `?>` is run; in
markup, everything up to `<?php` is printed.  A `Writer` knows the mode that its text has reached
and writes a change of mode only where the next piece needs one.

Entering code directly after a `?>` that only blanks follow writes nothing: the `?>` is taken back
together with the blanks around it, so that the text never leaves code in order to enter it again.
-/

namespace WidgetCompiler.Php

open Text

/-- What opens code. -/
def openTag : Text := "<?php"

/-- What closes code. -/
def closeTag : Text := "?>"

/-- What the text is in at a place. -/
inductive Mode
  | code
  | markup
deriving DecidableEq, Repr

/-- A text under way.  It begins in code. -/
structure Writer where
  /-- What is written so far. -/
  text : Text := []
  mode : Mode := .code
  /-- What is written before a tag that stands on a line of its own. -/
  indent : Text
deriving Repr

namespace Writer

/-- An empty text with the given indentation. -/
def start (indent : Text) : Writer := { indent := indent }

/-- The writer with another indentation for the tags that follow. -/
def setIndent (w : Writer) (indent : Text) : Writer := { w with indent := indent }

/-- The text without the `?>` at its end and the blanks around that, if it ends so. -/
def takeBackClose? (t : Text) : Option Text :=
  let content := trimEnd t
  if endsWith content closeTag then some (trimEnd (content.take (content.length - closeTag.length)))
  else none

/-- Changes to code. -/
def enterCode (w : Writer) : Writer :=
  match w.mode with
  | .code => w
  | .markup =>
    let text := match takeBackClose? w.text with
      | some kept => kept ++ ['\n']
      | none =>
        let lineEnd : Text := if w.text.isEmpty || w.text.getLast? = some '\n' then [] else ['\n']
        w.text ++ lineEnd ++ w.indent ++ openTag ++ ['\n']
    { w with text := text, mode := .code }

/-- Changes to markup. -/
def leaveCode (w : Writer) : Writer :=
  match w.mode with
  | .markup => w
  | .code => { w with text := w.text ++ w.indent ++ closeTag ++ ['\n'], mode := .markup }

/-- Writes a line of code. -/
def line (w : Writer) (code : Text) : Writer :=
  let w := w.enterCode
  { w with text := w.text ++ code ++ ['\n'] }

/-- Writes an empty line of code. -/
def blankLine (w : Writer) : Writer := w.line []

/-- Writes markup.  Blanks alone are no reason to leave code. -/
def markup (w : Writer) (t : Text) : Writer :=
  if t.isEmpty || (w.mode = .code && allBlank t) then w
  else
    let w := w.leaveCode
    { w with text := w.text ++ t }

/-- Writes a piece of code within markup. -/
def inlineCode (w : Writer) (code : Text) : Writer :=
  let w := w.leaveCode
  { w with text := w.text ++ openTag ++ ' ' :: code ++ ' ' :: closeTag }

/-- The whole text, which ends in code. -/
def finish (w : Writer) : Text := w.enterCode.text

/-! ## Histories -/

/-- One thing that can be asked of a writer. -/
inductive Call
  | line (code : Text)
  | blankLine
  | markup (text : Text)
  | inlineCode (code : Text)
  | enterCode
  | leaveCode
  | setIndent (indent : Text)
deriving Repr

/-- Does what a call asks for. -/
def perform (w : Writer) : Call → Writer
  | .line code => w.line code
  | .blankLine => w.blankLine
  | .markup text => w.markup text
  | .inlineCode code => w.inlineCode code
  | .enterCode => w.enterCode
  | .leaveCode => w.leaveCode
  | .setIndent indent => w.setIndent indent

/-- The writer after each of the calls, and before the first. -/
def history (w : Writer) : List Call → List Writer
  | [] => [w]
  | call :: calls => w :: (w.perform call).history calls

theorem mode_enterCode (w : Writer) : w.enterCode.mode = .code := by
  unfold enterCode; split <;> simp_all

theorem mode_leaveCode (w : Writer) : w.leaveCode.mode = .markup := by
  unfold leaveCode; split <;> simp_all

end Writer

end WidgetCompiler.Php
