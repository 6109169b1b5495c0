import WidgetCompiler.Text.Basic

/-!
# String literals of PHP

Text is written between single quotes, where only the quote and the backslash are escaped, or
between double quotes, where also the dollar sign is, and where a line feed and a tab are written
as escapes and a carriage return is dropped.  `literal` chooses double quotes for a text that has
line breaks, so that each literal stands on one line.

`unescape` reads the body of a literal back.
-/

namespace WidgetCompiler.Php

open Text

/-- The two kinds of quotes; they differ in the escapes that they know. -/
inductive Quote
  | single
  | double
deriving DecidableEq, Repr

namespace Quote

/-- The character that opens and closes a literal. -/
def char : Quote → Char
  | single => '\''
  | double => '"'

end Quote

/-- A character as it is written between single quotes. -/
def escapeSingleChar (c : Char) : Text :=
  if c = '\\' then ['\\', '\\'] else if c = '\'' then ['\\', '\''] else [c]

/-- A text as it is written between single quotes. -/
def escapeSingle (t : Text) : Text := t.flatMap escapeSingleChar

/-- A character as it is written between double quotes. -/
def escapeDoubleChar (c : Char) : Text :=
  if c = '\\' then ['\\', '\\']
  else if c = '"' then ['\\', '"']
  else if c = '$' then ['\\', '$']
  else if c = '\n' then ['\\', 'n']
  else if c = '\t' then ['\\', 't']
  else if c = '\r' then []
  else [c]

/-- A text as it is written between double quotes. -/
def escapeDouble (t : Text) : Text := t.flatMap escapeDoubleChar

/-- A literal in single quotes. -/
def singleQuoted (t : Text) : Text := '\'' :: (escapeSingle t ++ ['\''])

/-- A literal in double quotes. -/
def doubleQuoted (t : Text) : Text := '"' :: (escapeDouble t ++ ['"'])

/-- Whether a text has a line break. -/
def hasLineBreak (t : Text) : Bool := t.any fun c => c == '\n' || c == '\r'

/-- A literal of one line: in double quotes if the text has line breaks, else in single quotes. -/
def literal (t : Text) : Text :=
  if hasLineBreak t then doubleQuoted t else singleQuoted t

/-- What a backslash and the character behind it stand for in a literal with the given quote. -/
def unescapePair (quote : Char) (c : Char) : Text :=
  if c = '\\' then ['\\']
  else if quote = '\'' ∧ c = '\'' then ['\'']
  else if quote = '"' ∧ c = '"' then ['"']
  else if quote = '"' ∧ c = '$' then ['$']
  else if quote = '"' ∧ c = 'n' then ['\n']
  else if quote = '"' ∧ c = 't' then ['\t']
  else if quote = '"' ∧ c = 'r' then ['\r']
  else ['\\', c]

/-- The text that the body of a literal stands for. -/
def unescape (quote : Char) : Text → Text
  | [] => []
  | ['\\'] => ['\\']
  | '\\' :: c :: s => unescapePair quote c ++ unescape quote s
  | c :: s => c :: unescape quote s

end WidgetCompiler.Php
