import WidgetCompiler.Yaml.Scalar
import WidgetCompiler.Yaml.Tag

/-!
# Tokens of a document

`tokens?` reads a document into tokens.  Blocks are marked by indentation only, so their beginnings
and ends become tokens of their own.  That something is a key is known only when the colon behind
it is read; until then its place among the tokens is remembered as a possible key.

A possible key stands on one line and is not longer than `maxKeyLength`.
-/

namespace WidgetCompiler.Yaml

open Text

/-- A piece of a document that means something. -/
inductive Token
  | directive (content : Directive)
  | documentStart
  | documentEnd
  | blockSequenceStart
  | blockMappingStart
  | blockEnd
  | flowSequenceStart
  | flowSequenceEnd
  | flowMappingStart
  | flowMappingEnd
  | blockEntry
  | flowEntry
  | key
  | value
  | alias (name : Text)
  | anchor (name : Text)
  | tag (handle : Text) (suffix : List UInt8)
  | scalar (text : Text) (style : Style)
deriving DecidableEq, Repr

/-- A place where a key may turn out to begin. -/
structure PossibleKey where
  /-- How many tokens precede the key. -/
  tokenNumber : Nat
  index : Nat
  line : Nat
  column : Nat
  /-- Whether nothing but a key can stand here. -/
  required : Bool
deriving Repr

/-- How long a key can be. -/
def maxKeyLength : Nat := 1024

/-- The state of reading a document. -/
structure Lexer where
  cursor : Cursor
  tokens : Array Token := #[]
  /-- One more than the column of the innermost block, and zero outside of blocks. -/
  level : Nat := 0
  /-- The levels of the blocks around it. -/
  outerLevels : List Nat := []
  keyAllowed : Bool := true
  /-- The possible keys, one at most for each open bracket and one for what is around them, the
  innermost first. -/
  possibleKeys : List (Option PossibleKey) := [none]
deriving Repr

namespace Lexer

/-- How many brackets are open. -/
def flowLevel (l : Lexer) : Nat := l.possibleKeys.length - 1

/-- Whether a bracket is open. -/
def inFlow (l : Lexer) : Bool := l.flowLevel != 0

/-- Adds a token. -/
def emit (l : Lexer) (t : Token) : Lexer := { l with tokens := l.tokens.push t }

/-- Adds a token before those from a number on. -/
def emitAt (l : Lexer) (number : Nat) (t : Token) : Lexer :=
  { l with tokens := (l.tokens.extract 0 number).push t ++ l.tokens.extract number l.tokens.size }

/-- Moves on by so many characters of the line. -/
def skip (l : Lexer) (n : Nat) : Lexer := { l with cursor := l.cursor.skip n }

/-- Closes the blocks that stand further in than a level. -/
def unroll (l : Lexer) (level : Nat) : Lexer :=
  if l.inFlow then l
  else
    let closed := (l.level :: l.outerLevels).takeWhile (level < ·)
    match (l.level :: l.outerLevels).dropWhile (level < ·) with
    | inner :: outer =>
      { l with level := inner, outerLevels := outer
               tokens := l.tokens ++ (closed.map fun _ => Token.blockEnd).toArray }
    | [] => l

/-- Opens a block at a column if it stands further in than the innermost one.  The token goes
before the ones from a number on. -/
def roll (l : Lexer) (column number : Nat) (t : Token) : Lexer :=
  if l.inFlow || column < l.level then l
  else { l with level := column + 1, outerLevels := l.level :: l.outerLevels }.emitAt number t

/-- Forgets the innermost possible key, unless it had to be one. -/
def dropKey (l : Lexer) : Option Lexer :=
  match l.possibleKeys with
  | some k :: keys => if k.required then none else some { l with possibleKeys := none :: keys }
  | _ => some l

/-- Remembers that a key may begin here. -/
def saveKey (l : Lexer) : Option Lexer :=
  if l.keyAllowed then
    l.dropKey.map fun l =>
      let k : PossibleKey :=
        { tokenNumber := l.tokens.size, index := l.cursor.index, line := l.cursor.line
          column := l.cursor.column
          required := !l.inFlow && l.level == l.cursor.column + 1 }
      { l with possibleKeys := some k :: l.possibleKeys.drop 1 }
  else some l

/-- Forgets the possible keys that have become too long, unless one had to be a key. -/
def dropStaleKeys (l : Lexer) : Option Lexer :=
  let stale (k : PossibleKey) : Bool :=
    k.line < l.cursor.line || k.index + maxKeyLength < l.cursor.index
  if l.possibleKeys.any (·.any fun k => stale k && k.required) then none
  else some { l with possibleKeys := l.possibleKeys.map (·.filter (!stale ·)) }

/-! ## Space and marks -/

/-- Moves to the next token over blanks, comments and breaks. -/
def toNextToken (fuel : Nat) (l : Lexer) : Lexer :=
  match fuel with
  | 0 => l
  | fuel + 1 =>
    let blank (c : Char) : Bool := c == ' ' || ((l.inFlow || !l.keyAllowed) && c == '\t')
    let c := (l.cursor.skipByteOrderMark.skipWhile blank).skipComment
    if c.rest.head?.any isBreak then
      toNextToken fuel { l with cursor := c.takeBreak.2, keyAllowed := l.keyAllowed || !l.inFlow }
    else { l with cursor := c }

/-- A mark that begins or ends a document. -/
def documentMark (l : Lexer) (t : Token) : Option Lexer :=
  (l.unroll 0).dropKey.map fun l => { (l.emit t).skip 3 with keyAllowed := false }

/-- An opening bracket. -/
def openBracket (l : Lexer) (t : Token) : Option Lexer :=
  l.saveKey.map fun l =>
    { (l.emit t).skip 1 with possibleKeys := none :: l.possibleKeys, keyAllowed := true }

/-- A closing bracket. -/
def closeBracket (l : Lexer) (t : Token) : Option Lexer :=
  l.dropKey.map fun l =>
    let keys := if l.inFlow then l.possibleKeys.drop 1 else l.possibleKeys
    { (l.emit t).skip 1 with possibleKeys := keys, keyAllowed := false }

/-- A comma between the items in brackets. -/
def comma (l : Lexer) : Option Lexer :=
  l.dropKey.map fun l => { (l.emit .flowEntry).skip 1 with keyAllowed := true }

/-- A mark that begins an item or a key of a block, or a value. -/
def blockMark (l : Lexer) (start mark : Token) (allowedBehind : Bool) : Option Lexer :=
  if !l.inFlow && !l.keyAllowed then none
  else (l.roll l.cursor.column l.tokens.size start).dropKey.map fun l =>
    { (l.emit mark).skip 1 with keyAllowed := allowedBehind }

/-- A colon behind a key. -/
def colon (l : Lexer) : Option Lexer :=
  match l.possibleKeys with
  | some k :: keys =>
    let l := (l.emitAt k.tokenNumber .key).roll k.column k.tokenNumber .blockMappingStart
    some { (l.emit .value).skip 1 with possibleKeys := none :: keys, keyAllowed := false }
  | _ =>
    if !l.inFlow && !l.keyAllowed then none
    else
      let l := l.roll l.cursor.column l.tokens.size .blockMappingStart
      some { (l.emit .value).skip 1 with keyAllowed := !l.inFlow }

/-- A name with a mark before it, which makes a token. -/
def named (l : Lexer) (make : Text → Token) : Option Lexer :=
  let isEnd (c : Char) : Bool :=
    c == '?' || c == ':' || c == ',' || c == ']' || c == '\x7d' || c == '%' || c == '@' || c == '`'
  match l.saveKey with
  | none => none
  | some l =>
    let name := (l.cursor.rest.drop 1).takeWhile isNameChar
    let rest := (l.cursor.rest.drop 1).dropWhile isNameChar
    if name.isEmpty || !(atGapOrEnd rest || rest.head?.any isEnd) then none
    else some { (l.emit (make name)).skip (name.length + 1) with keyAllowed := false }

/-- Moves on to where a text is left of the line. -/
def moveTo (l : Lexer) (rest : Text) : Lexer := l.skip (l.cursor.rest.length - rest.length)

/-- A tag. -/
def tag (l : Lexer) : Option Lexer :=
  match l.saveKey, tag? (l.cursor.rest.drop 1) with
  | some l, some (handle, suffix, rest) =>
    if atGapOrEnd rest || (l.inFlow && rest.head? = some ',') then
      some { (l.emit (.tag handle suffix)).moveTo rest with keyAllowed := false }
    else none
  | _, _ => none

/-- A directive, which fills its line but for a comment. -/
def directive (l : Lexer) : Option Lexer :=
  match (l.unroll 0).dropKey, directive? (l.cursor.rest.drop 1) with
  | some l, some (d, rest) =>
    let l := (l.emit (.directive d)).moveTo rest
    let c := (l.cursor.skipWhile isGap).skipComment
    if atLineEnd c.rest then some { l with cursor := c.takeBreak.2, keyAllowed := false } else none
  | _, _ => none

/-- A scalar that was read. -/
def scalar (l : Lexer) (style : Style) (keyAllowed : Bool) (r : Option ScalarRead) :
    Option Lexer :=
  r.map fun r =>
    { l.emit (.scalar r.value style) with
      cursor := r.cursor, keyAllowed := keyAllowed || r.endsLine }

/-- A block of lines. -/
def block (l : Lexer) (style : Style) : Option Lexer :=
  l.dropKey.bind fun l => l.scalar style true (blockScalar style l.level l.cursor)

/-- A scalar in quotes. -/
def quoted (l : Lexer) (quote : Char) : Option Lexer :=
  l.saveKey.bind fun l => l.scalar .quoted false (quotedScalar quote l.cursor)

/-- A plain scalar. -/
def plain (l : Lexer) : Option Lexer :=
  l.saveKey.bind fun l => l.scalar .plain false (plainScalar l.inFlow l.level l.cursor)

/-- The characters that no plain scalar begins with. -/
def indicators : Text := "-?:,[]\x7b\x7d#&*!|>'\"%@`"

/-- Reads the token that begins with a character, which a text follows. -/
def step (l : Lexer) (c : Char) (s : Text) : Option Lexer :=
  let beginsLine := l.cursor.column == 0
  if beginsLine && c == '%' then l.directive
  else if l.cursor.atDocumentMark then
    l.documentMark (if c = '-' then .documentStart else .documentEnd)
  else if c = '[' then l.openBracket .flowSequenceStart
  else if c = '\x7b' then l.openBracket .flowMappingStart
  else if c = ']' then l.closeBracket .flowSequenceEnd
  else if c = '\x7d' then l.closeBracket .flowMappingEnd
  else if c = ',' then l.comma
  else if c == '-' && atGapOrEnd s then l.blockMark .blockSequenceStart .blockEntry true
  else if c == '?' && (l.inFlow || atGapOrEnd s) then
    l.blockMark .blockMappingStart .key (!l.inFlow)
  else if c == ':' && (l.inFlow || atGapOrEnd s) then l.colon
  else if c = '*' then l.named .alias
  else if c = '&' then l.named .anchor
  else if c = '!' then l.tag
  else if c == '|' && !l.inFlow then l.block .literal
  else if c == '>' && !l.inFlow then l.block .folded
  else if c = '\'' then l.quoted '\''
  else if c = '"' then l.quoted '"'
  else if !(isGap c || List.contains indicators c)
      || (c == '-' && !(s.head?.any isGap))
      || (!l.inFlow && (c == '?' || c == ':') && !atGapOrEnd s) then l.plain
  else none

/-- Reads all tokens. -/
def run (fuel : Nat) (l : Lexer) : Option Lexer :=
  match fuel with
  | 0 => none
  | fuel + 1 =>
    match (l.toNextToken (l.cursor.rest.length + 1)).dropStaleKeys with
    | none => none
    | some l =>
      match l.cursor.rest with
      | [] => (l.unroll 0).dropKey
      | c :: s => ((l.unroll (l.cursor.column + 1)).step c s).bind (run fuel)

end Lexer

/-- The tokens of a document. -/
def tokens? (s : Text) : Option (List Token) :=
  if s.all isAllowed then
    (Lexer.run (s.length + 1) { cursor := { rest := s } }).map fun l => l.tokens.toList
  else none

end WidgetCompiler.Yaml
