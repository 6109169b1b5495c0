import WidgetCompiler.Markup.Reference
import WidgetCompiler.Yaml.Cursor

/-!
# Scalars

A scalar is written plain, in quotes, or as a block of lines.  Lines of a scalar are folded: a
single break between words is a space, and of several breaks one less is kept.  Only in a literal
block all breaks are kept.

Indentations are counted from one: `level` is one more than the column of the collection around the
scalar, and zero if there is none.
-/

namespace WidgetCompiler.Yaml

open Text

/-- How a scalar is written. -/
inductive Style
  | plain
  | quoted
  | literal
  | folded
deriving DecidableEq, Repr

/-! ## Plain scalars -/

/-- The word at the beginning of a text that a plain scalar can hold, and the rest.  In brackets a
colon must not stand directly before another mark of the bracket. -/
def plainWord (inFlow : Bool) : Text → Option (Text × Text)
  | [] => some ([], [])
  | c :: s =>
    let isFlowMark (c : Char) : Bool :=
      c == ',' || c == '[' || c == ']' || c == '\x7b' || c == '\x7d'
    if isGap c || isBreak c then some ([], c :: s)
    else if inFlow && c == ':' && s.head?.any (fun d : Char => isFlowMark d || d == '?') then none
    else if c == ':' && atGapOrEnd s then some ([], c :: s)
    else if inFlow && isFlowMark c then some ([], c :: s)
    else (plainWord inFlow s).map fun (word, rest) => (c :: word, rest)

/-- A scalar that was read: its value, whether it ends with a line, and the place behind it. -/
structure ScalarRead where
  value : Text
  endsLine : Bool := false
  cursor : Cursor

/-- Reads on in a plain scalar of which `value` was read, and then the spacing before `c`. -/
def plainScalarFrom (inFlow : Bool) (level fuel : Nat) (value : Text) (spacing : Spacing)
    (c : Cursor) : Option ScalarRead :=
  match fuel with
  | 0 => none
  | fuel + 1 =>
    if c.atDocumentMark || c.rest.head? = some '#' then some ⟨value, spacing.breaks, c⟩
    else match plainWord inFlow c.rest with
      | none => none
      | some ([], _) => some ⟨value, spacing.breaks, c⟩
      | some (word, rest) =>
        let value := value ++ spacing.folded ++ word
        let c := c.skip word.length
        if !atGapOrEnd rest || rest.isEmpty then some ⟨value, false, c⟩
        else match takeSpacing level (c.rest.length + 1) {} c with
          | none => none
          | some (spacing, c) =>
            if !inFlow && c.column < level then some ⟨value, spacing.breaks, c⟩
            else plainScalarFrom inFlow level fuel value spacing c

/-- Reads a plain scalar. -/
def plainScalar (inFlow : Bool) (level : Nat) (c : Cursor) : Option ScalarRead :=
  plainScalarFrom inFlow level (c.rest.length + 1) [] {} c

/-! ## Scalars in quotes -/

/-- What a backslash and a letter stand for in double quotes. -/
def simpleEscapes : List (Char × Char) := [
  ('0', '\x00'), ('a', '\x07'), ('b', '\x08'), ('t', '\t'), ('\t', '\t'), ('n', '\n'),
  ('v', '\x0b'), ('f', '\x0c'), ('r', '\r'), ('e', '\x1b'), (' ', ' '), ('"', '"'), ('/', '/'),
  ('\\', '\\'), ('N', '\u0085'), ('_', '\u00a0'), ('L', '\u2028'), ('P', '\u2029')]

/-- How many hexadecimal digits follow a letter behind a backslash. -/
def escapeWidths : List (Char × Nat) := [('x', 2), ('u', 4), ('U', 8)]

/-- The character that hexadecimal digits stand for, if they stand for one. -/
def hexChar? (width : Nat) (digits : Text) : Option Char :=
  if digits.length = width ∧ digits.all Markup.isHexDigit = true then
    let n := Markup.hexValue digits
    if n > 0x10FFFF ∨ (0xD800 ≤ n ∧ n ≤ 0xDFFF) then none else some (Char.ofNat n)
  else none

/-- The character that an escape behind a backslash stands for, and its length. -/
def escapeAt? : Text → Option (Char × Nat)
  | [] => none
  | e :: s =>
    match simpleEscapes.lookup e, escapeWidths.lookup e with
    | some c, _ => some (c, 1)
    | none, some width => (hexChar? width (s.take width)).map fun c => (c, width + 1)
    | none, none => none

/-- A word in quotes: its value, whether a backslash ends its line, and the place behind it. -/
def quotedWord (quote : Char) (fuel : Nat) (c : Cursor) : Option (Text × Bool × Cursor) :=
  match fuel with
  | 0 => none
  | fuel + 1 =>
    let keep (value : Text) (c : Cursor) : Option (Text × Bool × Cursor) :=
      (quotedWord quote fuel c).map fun (word, folded, c) => (value ++ word, folded, c)
    match c.rest with
    | [] => some ([], false, c)
    | d :: rest =>
      if isGap d || isBreak d then some ([], false, c)
      else if quote == '\'' && d == '\'' then
        if rest.head? = some '\'' then keep ['\''] (c.skip 2) else some ([], false, c)
      else if d == quote then some ([], false, c)
      else if quote == '"' && d == '\\' then
        if rest.head?.any isBreak then some ([], true, (c.skip 1).takeBreak.2)
        else match escapeAt? rest with
          | some (value, length) => keep [value] (c.skip (length + 1))
          | none => none
      else keep [d] (c.skip 1)

/-- Reads on in a scalar in quotes of which `value` was read. -/
def quotedScalarFrom (quote : Char) (fuel : Nat) (value : Text) (c : Cursor) :
    Option ScalarRead :=
  match fuel with
  | 0 => none
  | fuel + 1 =>
    if c.atDocumentMark then none
    else match quotedWord quote (c.rest.length + 1) c with
      | none => none
      | some (word, folded, c) =>
        match c.rest with
        | [] => none
        | d :: _ =>
          if !folded && d == quote then some ⟨value ++ word, false, c.skip 1⟩
          else
            let start : Spacing := if folded then { firstBreak := some [] } else {}
            match takeSpacing 0 (c.rest.length + 1) start c with
            | some (spacing, c) =>
              quotedScalarFrom quote fuel (value ++ word ++ spacing.folded) c
            | none => none

/-- Reads a scalar in quotes, of which the first is to come. -/
def quotedScalar (quote : Char) (c : Cursor) : Option ScalarRead :=
  quotedScalarFrom quote (c.rest.length + 1) [] (c.skip 1)

/-! ## Blocks -/

/-- What is done with the breaks at the end of a block. -/
inductive Chomping
  | clip
  | strip
  | keep
deriving DecidableEq, Repr

/-- The sign of a chomping. -/
def chomping? : Char → Option Chomping
  | '+' => some .keep
  | '-' => some .strip
  | _ => none

/-- The head of a block behind its mark: what is done with the breaks at the end, how far in the
lines stand if that is given, and the place behind the signs. -/
def blockSigns (c : Cursor) : Option (Chomping × Option Nat × Cursor) :=
  let digit? (d : Char) : Option Nat := if d.isDigit then some (d.toNat - 48) else none
  let positive (r : Chomping × Option Nat × Cursor) : Option (Chomping × Option Nat × Cursor) :=
    if r.2.1 = some 0 then none else some r
  match c.rest with
  | [] => some (.clip, none, c)
  | a :: s =>
    match chomping? a, digit? a with
    | some chomping, _ => match s.head?.bind digit? with
      | some n => positive (chomping, some n, c.skip 2)
      | none => some (chomping, none, c.skip 1)
    | none, some n => match s.head?.bind chomping? with
      | some chomping => positive (chomping, some n, c.skip 2)
      | none => positive (.clip, some n, c.skip 1)
    | none, none => some (.clip, none, c)

/-- Reads empty lines: the breaks, the greatest column that was reached, and the place behind them.
With `indent` zero any column will do. -/
def emptyLines (indent fuel : Nat) (breaks : Text) (reached : Nat) (c : Cursor) :
    Option (Text × Nat × Cursor) :=
  match fuel with
  | 0 => some (breaks, reached, c)
  | fuel + 1 =>
    let spaces := (c.rest.takeWhile (· == ' ')).length
    let c := c.skip (if indent = 0 then spaces else min spaces (indent - c.column))
    let reached := max reached c.column
    if (indent = 0 ∨ c.column < indent) ∧ c.rest.head? = some '\t' then none
    else if c.rest.head?.any isBreak then
      let (kept, c) := c.takeBreak
      emptyLines indent fuel (breaks ++ kept) reached c
    else some (breaks, reached, c)

/-- A block of which a part was read. -/
structure BlockRead where
  value : Text := []
  /-- The break that ends the last line. -/
  lastBreak : Text := []
  /-- The breaks of the empty lines behind it. -/
  breaks : Text
  /-- Whether the last line begins with a blank. -/
  afterBlank : Bool := false

/-- Reads the lines of a block, which are folded or taken as they are. -/
def blockLines (style : Style) (indent fuel : Nat) (b : BlockRead) (c : Cursor) :
    Option (BlockRead × Cursor) :=
  match fuel with
  | 0 => some (b, c)
  | fuel + 1 =>
    match c.rest with
    | [] => some (b, c)
    | d :: _ =>
      if c.column ≠ indent then some (b, c)
      else
        let beforeBlank := isGap d
        let joint : Text :=
          if style = .folded && b.lastBreak = ['\n'] && !b.afterBlank && !beforeBlank then
            (if b.breaks.isEmpty then [' '] else [])
          else b.lastBreak
        let line := c.rest.takeWhile (!isBreak ·)
        let (lastBreak, next) := (c.skip line.length).takeBreak
        match emptyLines indent (next.rest.length + 1) [] 0 next with
        | none => none
        | some (breaks, _, next) =>
          blockLines style indent fuel
            { value := b.value ++ joint ++ b.breaks ++ line, lastBreak := lastBreak
              breaks := breaks, afterBlank := beforeBlank } next

/-- The value of a block. -/
def BlockRead.chomped (b : BlockRead) : Chomping → Text
  | .strip => b.value
  | .clip => b.value ++ b.lastBreak
  | .keep => b.value ++ b.lastBreak ++ b.breaks

/-- Reads a block, the mark of which is to come. -/
def blockScalar (style : Style) (level : Nat) (c : Cursor) : Option ScalarRead :=
  match blockSigns (c.skip 1) with
  | none => none
  | some (chomping, increment, c) =>
    let c := (c.skipWhile isGap).skipComment
    if !atLineEnd c.rest then none
    else
      let c := if c.rest.isEmpty then c else c.takeBreak.2
      let given := match increment with
        | some n => level - 1 + n
        | none => 0
      match emptyLines given (c.rest.length + 1) [] 0 c with
      | none => none
      | some (breaks, reached, c) =>
        let indent := if given = 0 then max reached (max level 1) else given
        (blockLines style indent (c.rest.length + 1) { breaks := breaks } c).map fun (b, c) =>
          ⟨b.chomped chomping, true, c⟩

end WidgetCompiler.Yaml
