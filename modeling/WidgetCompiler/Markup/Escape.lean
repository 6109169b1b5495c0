import WidgetCompiler.Text.Basic
import WidgetCompiler.Markup.Reference

/-!
# Escaping values in markup

`escapeText` writes a value so that it can stand in text and in quoted attributes; references that
it already holds are left alone.  `escapeUrl` does so for an address.  `decodeCommon` reads the few
references back that are common in text written by hand.
-/

namespace WidgetCompiler.Markup

open Text

/-- The rest behind some characters that `p` picks and a semicolon. -/
def afterClosedRun? (p : Char → Bool) (s : Text) : Option Text :=
  match s.takeWhile p, s.dropWhile p with
  | _ :: _, ';' :: rest => some rest
  | _, _ => none

/-- Whether what follows an ampersand makes it a reference: a name or a number, and a semicolon. -/
def continuesReference : Text → Bool
  | '#' :: 'x' :: s => (afterClosedRun? isHexDigit s).isSome
  | '#' :: 'X' :: s => (afterClosedRun? isHexDigit s).isSome
  | '#' :: s => (afterClosedRun? Char.isDigit s).isSome
  | c :: s => c.isAlpha && (afterClosedRun? Char.isAlphanum (c :: s)).isSome
  | [] => false

/-- A value as it is written in text and in quoted attributes. -/
def escapeText : Text → Text
  | [] => []
  | c :: s =>
    let written : Text :=
      if c = '&' then (if continuesReference s then ['&'] else "&amp;")
      else if c = '<' then "&lt;"
      else if c = '>' then "&gt;"
      else if c = '"' then "&quot;"
      else if c = '\'' then "&#039;"
      else [c]
    written ++ escapeText s

/-- The characters of an address as they are written in a quoted attribute. -/
def escapeAddress : Text → Text
  | [] => []
  | c :: s =>
    let written : Text :=
      if c = '&' then (if continuesReference s then ['&'] else "&#038;")
      else if c = '\'' then "&#039;"
      else if c = '"' then "%22"
      else if c = ' ' then "%20"
      else if c = '<' ∨ c = '>' ∨ c = '\\' then []
      else [c]
    written ++ escapeAddress s

/-- An address as it is written in a quoted attribute. -/
def escapeUrl (url : Text) : Text := escapeAddress (trim url)

/-- What is decoded in text, in the order in which it is. -/
def commonReferences : List (Text × Text) := [
  ("\r\n", "\n"), ("&nbsp;", "\u00a0"), ("&lt;", "<"), ("&gt;", ">"), ("&quot;", "\""),
  ("&#39;", "'"), ("&#039;", "'"), ("&apos;", "'"), ("&amp;", "&")]

/-- The text with the common references decoded. -/
def decodeCommon (raw : Text) : Text :=
  commonReferences.foldl (fun t (old, new) => replace old new t) raw

end WidgetCompiler.Markup
