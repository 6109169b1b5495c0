import WidgetCompiler.Yaml.Value

/-!
# Printing documents

`Node.render` writes a node in block style, with two columns for each level.  The items of a
sequence under a key stand no further in than the key.

A text is written plain if it reads back as that text.  One that would read as a number, a truth
value or nothing, or that has a mark where it would be taken for syntax, is put in single quotes;
one with line feeds becomes a literal block; and one with characters that cannot be shown, or with
blanks at its breaks, is put in double quotes with escapes.
-/

namespace WidgetCompiler.Yaml

open Text

/-! ## What reads as something else -/

/-- The words that stand for truth values in one version of the format or another. -/
def switchWords : List Text :=
  ["y", "Y", "yes", "Yes", "YES", "n", "N", "no", "No", "NO", "on", "On", "ON", "off", "Off"].map
      String.toList
    ++ "OFF".toList :: (trueWords ++ falseWords)

/-- The words for infinities and for what is no number. -/
def specialNumbers : List Text :=
  [".inf", ".Inf", ".INF", "+.inf", "+.Inf", "+.INF", "-.inf", "-.Inf", "-.INF", ".nan"].map
      String.toList
    ++ [".NaN".toList, ".NAN".toList]

/-- The greatest bound of the whole numbers that are told from other text. -/
def integerBound : Nat := Nat.pow 2 128

/-- Whether a text reads as a number below zero. -/
def readsNegative (t : Text) : Bool :=
  match t with
  | '-' :: body =>
    (basePrefixes.any fun (mark, base) => ((after? mark body).bind (digitsValue? base)).any
        (· ≤ integerBound / 2))
      || (digitsValue? 10 body).any (· ≤ integerBound / 2)
  | _ => false

/-- Whether the value of digits with a decimal exponent is in the range of floating-point
numbers. -/
def inFloatRange (mantissa : Nat) (exponent : Int) : Bool :=
  let size : Int := (decimal mantissa).length + exponent
  if mantissa = 0 then true
  else if size ≤ 308 then true
  else if size > 309 then false
  else
    let bound := Nat.pow 2 1024 - Nat.pow 2 970
    if exponent ≥ 0 then mantissa * Nat.pow 10 exponent.toNat < bound
    else mantissa < bound * Nat.pow 10 (-exponent).toNat

/-- The text without a sign at its beginning. -/
def dropSign : Text → Text
  | '+' :: s => s
  | '-' :: s => s
  | s => s

/-- The exponent that ends a number, if what is left is one or nothing. -/
def exponent? : Text → Option Int
  | [] => some 0
  | e :: s =>
    if e = 'e' ∨ e = 'E' then
      (digitsValue? 10 (dropSign s)).map fun n => if s.head? = some '-' then -(n : Int) else n
    else none

/-- Whether a text reads as a number with a point or an exponent. -/
def readsFloat (t : Text) : Bool :=
  let body := dropSign t
  let whole := body.takeWhile Char.isDigit
  let (fraction, rest) := match body.dropWhile Char.isDigit with
    | '.' :: r => (r.takeWhile Char.isDigit, r.dropWhile Char.isDigit)
    | r => ([], r)
  match exponent? rest, digitsValue? 10 (whole ++ fraction) with
  | some e, some mantissa => inFloatRange mantissa (e - fraction.length)
  | _, _ => false

/-- Whether a plain text would be taken for something other than that text. -/
def readsAsValue (t : Text) : Bool :=
  t.isEmpty || nullWords.contains t || switchWords.contains t
    || (unsigned? integerBound t).isSome || readsNegative t || readsFloat t
    || specialNumbers.contains t || hasLeadingZero t

/-! ## What can be written how -/

/-- Whether the character can be shown as it is. -/
def isShown (c : Char) : Bool :=
  let n := c.toNat
  n == 0x0A || (0x20 ≤ n && n ≤ 0x7E) || (0xA0 ≤ n && n ≤ 0xFFFD && n != 0xFEFF)

/-- The characters that no plain text begins with. -/
def leadingMarks : Text := "#,[]\x7b\x7d&*!|>'\"%@`"

/-- Whether a mark in a text would be taken for syntax, in what follows `previous`. -/
def hasMarkAfter (previous : Char) : Text → Bool
  | [] => false
  | c :: s =>
    (c == ':' && atGapOrEnd s)
      || (c == '#' && (isGap previous || isBreak previous))
      || hasMarkAfter c s

/-- Whether a mark in a text would be taken for syntax. -/
def hasMark (t : Text) : Bool :=
  match t with
  | [] => false
  | c :: s =>
    startsWith t "---" || startsWith t "..." || List.contains leadingMarks c
      || ((c == '?' || c == ':' || c == '-') && atGapOrEnd s) || hasMarkAfter c s

/-- Whether two neighbours in a text are such. -/
def hasNeighbours (p q : Char → Bool) : Text → Bool
  | c :: d :: s => (p c && q d) || hasNeighbours p q (d :: s)
  | _ => false

/-- How a text can be written. -/
inductive Spelling
  | plain
  | single
  | literal
  | double
deriving DecidableEq, Repr

/-- Whether a text can only be written with escapes. -/
def needsEscapes (t : Text) : Bool :=
  t.any (!isShown ·) || hasNeighbours (· == ' ') isBreak t

/-- Whether a text can be written plain, as far as its marks and its blanks go. -/
def canBePlain (t : Text) : Bool :=
  !(needsEscapes t || t.any isBreak || hasMark t
    || t.head? == some ' ' || t.getLast? == some ' ')

/-- How a text is written. -/
def spellingOf (t : Text) : Spelling :=
  if List.contains t '\n' then
    if needsEscapes t || t.getLast? == some ' ' then .double else .literal
  else if !readsAsValue t && canBePlain t then .plain
  else if needsEscapes t || hasNeighbours isBreak (· == ' ') t then .double
  else .single

/-! ## Writing a text -/

/-- A digit of a hexadecimal number, in capital letters. -/
def hexDigit (n : Nat) : Char := if n < 10 then Char.ofNat (48 + n) else Char.ofNat (55 + n)

/-- A number in so many hexadecimal digits. -/
def hexDigits (width n : Nat) : Text :=
  match width with
  | 0 => []
  | width + 1 => hexDigits width (n / 16) ++ [hexDigit (n % 16)]

/-- The letters that stand for characters behind a backslash. -/
def escapeLetters : List (Char × Char) := [
  ('\x00', '0'), ('\x07', 'a'), ('\x08', 'b'), ('\t', 't'), ('\n', 'n'), ('\x0b', 'v'),
  ('\x0c', 'f'), ('\r', 'r'), ('\x1b', 'e'), ('"', '"'), ('\\', '\\'), ('\u0085', 'N'),
  ('\u00a0', '_'), ('\u2028', 'L'), ('\u2029', 'P')]

/-- A character as it is written in double quotes. -/
def escapeDoubleChar (c : Char) : Text :=
  if isShown c && !isBreak c && c != '"' && c != '\\' then [c]
  else match escapeLetters.lookup c with
    | some letter => ['\\', letter]
    | none =>
      let n := c.toNat
      if n ≤ 0xFF then '\\' :: 'x' :: hexDigits 2 n
      else if n ≤ 0xFFFF then '\\' :: 'u' :: hexDigits 4 n
      else '\\' :: 'U' :: hexDigits 8 n

/-- The body of a text in single quotes: quotes are doubled, and the lines behind a break stand in
from the left. -/
def singleBody (indent : Text) (afterBreak : Bool) : Text → Text
  | [] => []
  | c :: s =>
    (if afterBreak && !isBreak c then indent else [])
      ++ (if c = '\'' then ['\'', '\''] else [c]) ++ singleBody indent (isBreak c) s

/-- The signs behind the mark of a literal block. -/
def literalSigns (t : Text) : Text :=
  let lead : Text := if t.head?.any (fun c : Char => c == ' ' || isBreak c) then ['2'] else []
  let chomp : Text := match t.reverse with
    | [] => ['-']
    | [c] => if isBreak c then ['+'] else ['-']
    | c :: d :: _ => if isBreak c then (if isBreak d then ['+'] else []) else ['-']
  lead ++ chomp

/-- The lines of a text that stand behind a key, of which the first follows the key. -/
def textLines (indent : Text) (t : Text) : List Text :=
  match spellingOf t with
  | .plain => [t]
  | .single => ['\'' :: singleBody indent false t ++ ['\'']]
  | .double => ['"' :: t.flatMap escapeDoubleChar ++ ['"']]
  | .literal =>
    let body := splitOn (· == '\n') t
    let body := if t.getLast? = some '\n' then body.dropLast else body
    ('|' :: literalSigns t) :: body.map fun l => if l.isEmpty then l else indent ++ l

/-! ## Writing a node -/

namespace Node

/-- A text, which is not to be read as anything else. -/
def ofText (t : Text) : Node := .scalar t .quoted none

/-- A mapping from names. -/
def record (fields : List (Text × Node)) : Node := .mapping (fields.map fun (k, n) => (ofText k, n))

/-- The words of a truth value. -/
def ofBool (b : Bool) : Node := .scalar (if b then "true" else "false") .plain none

/-- The lines with a mark before the first of them. -/
def hang (mark : Text) (lines : List Text) : List Text :=
  match lines with
  | [] => [mark]
  | l :: ls => (mark ++ l) :: ls

mutual

/-- The lines of a node that stands in by so much; the first line has no indentation. -/
def blockLines (indent : Text) : Node → List Text
  | missing => [[]]
  | .alias _ => [[]]
  | scalar t style _ => if style = .plain then [t] else textLines (indent ++ "  ") t
  | sequence [] => ["[]"]
  | sequence (n :: ns) => itemLines indent true (n :: ns)
  | mapping [] => ["\x7b\x7d"]
  | mapping (e :: es) => entryLines indent true (e :: es)

/-- The lines of the items of a sequence. -/
def itemLines (indent : Text) (first : Bool) : List Node → List Text
  | [] => []
  | n :: ns =>
    hang ((if first then [] else indent) ++ "- ") (blockLines (indent ++ "  ") n)
      ++ itemLines indent false ns

/-- The lines of the entries of a mapping. -/
def entryLines (indent : Text) (first : Bool) : List (Node × Node) → List Text
  | [] => []
  | (k, v) :: es =>
    let key : Text := (if first then [] else indent) ++ (blockLines indent k).headD [] ++ [':']
    (match v with
      | sequence (n :: ns) => key :: itemLines indent false (n :: ns)
      | mapping (e :: es) => key :: entryLines (indent ++ "  ") false (e :: es)
      | v => hang (key ++ [' ']) (blockLines indent v))
      ++ entryLines indent false es

end

/-- The document that holds a node. -/
def render (n : Node) : Text := joinLines (blockLines [] n)

end Node

end WidgetCompiler.Yaml
