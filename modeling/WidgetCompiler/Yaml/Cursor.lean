import WidgetCompiler.Text.Basic

/-!
# Places in a document

In YAML the place of a character decides what it means, so a document is read with a `Cursor`: the
text that is left, together with the line and the column that were reached.
-/

namespace WidgetCompiler.Yaml

open Text

/-! ## Characters -/

/-- Whether the character separates words on a line. -/
def isGap (c : Char) : Bool := c == ' ' || c == '\t'

/-- Whether the character ends a line. -/
def isBreak (c : Char) : Bool :=
  c == '\n' || c == '\r' || c == '\u0085' || c == '\u2028' || c == '\u2029'

/-- Whether the text begins with a gap, with a break, or not at all. -/
def atGapOrEnd : Text → Bool
  | [] => true
  | c :: _ => isGap c || isBreak c

/-- Whether the text begins with a break, or not at all. -/
def atLineEnd : Text → Bool
  | [] => true
  | c :: _ => isBreak c

/-- Whether the character may stand in a document. -/
def isAllowed (c : Char) : Bool :=
  let n := c.toNat
  n == 0x09 || n == 0x0A || n == 0x0D || (0x20 ≤ n && n ≤ 0x7E) || n == 0x85
    || (0xA0 ≤ n && n ≤ 0xD7FF) || (0xE000 ≤ n && n ≤ 0xFFFD) || 0x10000 ≤ n

/-! ## Cursors -/

/-- A place in a document and the text from there on. -/
structure Cursor where
  rest : Text
  /-- How many characters precede the place. -/
  index : Nat := 0
  line : Nat := 0
  /-- How many characters of the line precede the place. -/
  column : Nat := 0
deriving Repr

namespace Cursor

/-- The place so many characters further on the line. -/
def skip (c : Cursor) (n : Nat) : Cursor :=
  { c with rest := c.rest.drop n, index := c.index + n, column := c.column + n }

/-- The place behind the characters that `p` picks; there must be no break among them. -/
def skipWhile (c : Cursor) (p : Char → Bool) : Cursor := c.skip (c.rest.takeWhile p).length

/-- The place behind a break, and the break as it is kept in a value. -/
def takeBreak (c : Cursor) : Text × Cursor :=
  let next (n : Nat) (rest : Text) : Cursor :=
    { rest := rest, index := c.index + n, line := c.line + 1, column := 0 }
  match c.rest with
  | '\r' :: '\n' :: rest => (['\n'], next 2 rest)
  | b :: rest =>
    if b == '\u2028' || b == '\u2029' then ([b], next 1 rest) else (['\n'], next 1 rest)
  | [] => ([], c)

/-- The place behind a comment, if there is one. -/
def skipComment (c : Cursor) : Cursor :=
  if c.rest.head? = some '#' then c.skipWhile (!isBreak ·) else c

/-- The place behind a byte order mark that a line begins with. -/
def skipByteOrderMark (c : Cursor) : Cursor :=
  if c.column == 0 && c.rest.head? == some '\ufeff' then c.skip 1 else c

/-- Whether a line begins here with one of the marks that begin and end a document. -/
def atDocumentMark (c : Cursor) : Bool :=
  c.column == 0 && (match c.rest with
    | '-' :: '-' :: '-' :: rest => atGapOrEnd rest
    | '.' :: '.' :: '.' :: rest => atGapOrEnd rest
    | _ => false)

end Cursor

/-! ## Space between the words of a value -/

/-- The blanks and breaks between two words of a value: the blanks before the first break, the first
break, and the breaks behind it. -/
structure Spacing where
  blanks : Text := []
  firstBreak : Option Text := none
  moreBreaks : Text := []
deriving Repr

namespace Spacing

/-- Whether there is a break. -/
def breaks (s : Spacing) : Bool := s.firstBreak.isSome

/-- What the spacing comes to in the value: blanks as they are, one line feed as a space, and of
several the ones behind the first. -/
def folded (s : Spacing) : Text :=
  match s.firstBreak with
  | none => s.blanks
  | some b =>
    if b = ['\n'] then (if s.moreBreaks.isEmpty then [' '] else s.moreBreaks) else b ++ s.moreBreaks

end Spacing

/-- Reads the spacing at a place.  Behind a break no tab may stand before the given column. -/
def takeSpacing (indent fuel : Nat) (s : Spacing) (c : Cursor) : Option (Spacing × Cursor) :=
  match fuel, c.rest with
  | 0, _ => some (s, c)
  | _, [] => some (s, c)
  | fuel + 1, b :: _ =>
    if isGap b then
      if s.breaks && c.column < indent && b == '\t' then none
      else if s.breaks then takeSpacing indent fuel s (c.skip 1)
      else takeSpacing indent fuel { s with blanks := s.blanks ++ [b] } (c.skip 1)
    else if isBreak b then
      let (kept, c) := c.takeBreak
      if s.breaks then takeSpacing indent fuel { s with moreBreaks := s.moreBreaks ++ kept } c
      else takeSpacing indent fuel { s with blanks := [], firstBreak := some kept } c
    else some (s, c)

end WidgetCompiler.Yaml
