import WidgetCompiler.Markup.Construction.Table

/-!
# All rules of tree construction

`apply` looks a piece up under the mode of the state, or under the vocabulary of the element opened
last, and follows it as long as the rules hand it on.  `take` applies a token, and `finish` places
what is still pending at the end of the text.
-/

namespace WidgetCompiler.Markup

open Text

namespace Construction

/-! ## The remaining modes -/

/-- The rules in raw text. -/
def inText (b : Construction) : Piece → Step
  | .char c => done (b.insertChar c)
  | .endTag _ => done { b.pop with mode := b.returnMode }
  | _ => done b

/-- The rules in a template, which becomes part of a table where its content asks for one. -/
def inTemplate (b : Construction) (piece : Piece) : Step :=
  let become := fun (mode : Mode) =>
    handOn { b with templateModes := mode :: b.templateModes.drop 1 } mode
  match piece with
  | .char _ | .comment => inBody b piece
  | .startTag tag =>
    let is := fun (names : List Text) => names.contains tag.name
    if is headElements then done (b.headStart tag)
    else if is ["caption", "colgroup", "tbody", "tfoot", "thead"] then become .inTable
    else if is ["col"] then become .inColumnGroup
    else if is ["tr"] then become .inTableBody
    else if is ["td", "th"] then become .inRow
    else become .inBody
  | .endTag tag => done (if tag.name = "template" then b.closeTemplate else b)

/-- The rules behind the body.  All but blanks and comments goes into the body after all. -/
def afterBody (b : Construction) (piece : Piece) : Step :=
  match piece with
  | .comment => done b
  | .char c => if isAsciiBlank c then inBody b piece else handOn b .inBody
  | .startTag tag => if tag.name = "html" then done (b.mergeIntoRoot tag) else handOn b .inBody
  | .endTag tag =>
    if tag.name = "html" then done { b with mode := .afterAfterBody } else handOn b .inBody

/-- The rules behind the root. -/
def afterAfterBody (b : Construction) (piece : Piece) : Step :=
  match piece with
  | .comment => done b
  | .char c => if isAsciiBlank c then inBody b piece else handOn b .inBody
  | .startTag tag => if tag.name = "html" then done (b.mergeIntoRoot tag) else handOn b .inBody
  | .endTag _ => handOn b .inBody

/-- The rules in a set of frames. -/
def inFrameset (b : Construction) : Piece → Step
  | .comment => done b
  | .char c => done (if isAsciiBlank c then b.insertChar c else b)
  | .startTag tag =>
    if tag.name = "html" then done (b.mergeIntoRoot tag)
    else if tag.name = "frameset" then done (b.insertTag tag)
    else if tag.name = "frame" then done (b.insertVoid tag)
    else if tag.name = "noframes" then done (b.headStart tag)
    else done b
  | .endTag tag =>
    if tag.name = "frameset" ∧ b.openElements.length ≠ 1 then
      let b := b.pop
      done (if b.currentIs "frameset" then b else { b with mode := .afterFrameset })
    else done b

/-- The rules behind a set of frames. -/
def afterFrameset (b : Construction) : Piece → Step
  | .comment => done b
  | .char c => done (if isAsciiBlank c then b.insertChar c else b)
  | .startTag tag =>
    if tag.name = "html" then done (b.mergeIntoRoot tag)
    else if tag.name = "noframes" then done (b.headStart tag)
    else done b
  | .endTag tag => done (if tag.name = "html" then { b with mode := .afterAfterFrameset } else b)

/-- The rules behind the root of a document of frames. -/
def afterAfterFrameset (b : Construction) (piece : Piece) : Step :=
  match piece with
  | .char c => if isAsciiBlank c then inBody b piece else done b
  | .startTag tag =>
    if tag.name = "html" then done (b.mergeIntoRoot tag)
    else if tag.name = "noframes" then done (b.headStart tag)
    else done b
  | _ => done b

/-- The rules of a mode. -/
def byMode (b : Construction) (mode : Mode) (piece : Piece) : Step :=
  match mode with
  | .initial => b.initial piece
  | .beforeHtml => b.beforeHtml piece
  | .beforeHead => b.beforeHead piece
  | .inHead => b.inHead piece
  | .afterHead => b.afterHead piece
  | .inBody => inBody b piece
  | .text => b.inText piece
  | .inTable => b.inTable piece
  | .inTableText => b.inTableText piece
  | .inCaption => b.inCaption piece
  | .inColumnGroup => b.inColumnGroup piece
  | .inTableBody => b.inTableBody piece
  | .inRow => b.inRow piece
  | .inCell => b.inCell piece
  | .inSelect => b.inSelect piece
  | .inSelectInTable => b.inSelectInTable piece
  | .inTemplate => b.inTemplate piece
  | .afterBody => b.afterBody piece
  | .inFrameset => b.inFrameset piece
  | .afterFrameset => b.afterFrameset piece
  | .afterAfterBody => b.afterAfterBody piece
  | .afterAfterFrameset => b.afterAfterFrameset piece

/-! ## Other vocabularies -/

/-- The start tags that close drawings and formulas. -/
def breakouts : List Text :=
  (["b", "big", "blockquote", "body", "br", "center", "code", "dd", "div", "dl", "dt", "em",
    "embed", "h1", "h2", "h3", "h4", "h5", "h6", "head", "hr", "i", "img", "li", "listing", "menu",
    "meta", "nobr", "ol", "p", "pre", "ruby", "s", "small", "span", "strong", "strike", "sub",
    "sup", "table", "tt", "u", "ul", "var"] : List String).map String.toList

/-- Close drawings and formulas, up to where HTML may stand. -/
def closeForeign (b : Construction) : Construction :=
  { b with openElements := b.openElements.dropWhile fun id =>
      let n := b.nameOf id
      !(n.vocabulary == .html || holdsFormulaText n || holdsHtml n) }

/-- The rule for a start tag in a drawing or formula. -/
def foreignStart (b : Construction) (tag : Tag) : Step :=
  let fontLike := tag.name == "font".toList && tag.attributes.any fun a =>
    ([("color" : Text), "face", "size"] : List Text).contains a.1
  if breakouts.contains tag.name || fontLike then
    let b := b.closeForeign
    b.byMode b.mode (.startTag tag)
  else
    let vocabulary := (b.nameOf (b.current?.getD 0)).vocabulary
    done (b.insertOf vocabulary (properName vocabulary tag.name) tag)

/-- The rule for an end tag in a drawing or formula: the nearest element of the name is closed, and
the first HTML element on the way out hands the tag back to the rules of the mode. -/
def foreignEnd (b : Construction) (tag : Tag) : Step :=
  go true b.openElements
where
  go (first : Bool) : List Nat → Step
    | [] => done b
    | [_] => done b
    | id :: below =>
      let n := b.nameOf id
      if !first && n.vocabulary == .html then b.byMode b.mode (.endTag tag)
      else if lowerAscii n.name == tag.name then done { b with openElements := below }
      else go false below

/-- The rules in a drawing or formula. -/
def inForeign (b : Construction) : Piece → Step
  | .comment => done b
  | .char c =>
    if c = '\x00' then done (b.insertChar replacementChar)
    else if isAsciiBlank c then done (b.insertChar c)
    else done { b.insertChar c with framesetAllowed := false }
  | .startTag tag => b.foreignStart tag
  | .endTag tag =>
    if tag.name = "p" ∨ tag.name = "br" then
      let b := b.closeForeign
      b.byMode b.mode (.endTag tag)
    else b.foreignEnd tag

/-! ## Applying tokens -/

/-- How often a piece can be handed on; no chain of rules is as long. -/
def longestChain : Nat := 40

/-- Apply a piece, following it as long as the rules hand it on. -/
def applyWithin : Nat → Construction → Piece → Construction
  | 0, b, _ => b
  | n + 1, b, piece =>
    let step := if b.isForeign piece then b.inForeign piece else b.byMode b.mode piece
    if step.again then applyWithin n step.state piece else step.state

/-- Apply a piece. -/
def apply (b : Construction) (piece : Piece) : Construction := applyWithin longestChain b piece

/-- Apply the characters of a text. -/
def applyText (b : Construction) (s : Text) : Construction :=
  match s with
  | [] => b
  | c :: s' =>
    let skip := b.skipLineFeed && c == '\n'
    let b := { b with skipLineFeed := false }
    (if skip then s' else c :: s').foldl (fun b c => b.apply (.char c)) b

/-- Apply a token. -/
def take (b : Construction) : Token → Construction
  | .chars s => b.applyText s
  | .startTag tag => apply { b with skipLineFeed := false } (.startTag tag)
  | .endTag tag => apply { b with skipLineFeed := false } (.endTag tag)
  | .comment => apply { b with skipLineFeed := false } .comment
  | .doctype declaration =>
    let b := { b with skipLineFeed := false }
    if b.mode = .initial then { b with mode := .beforeHtml, oldLayout := declaration.isOld } else b

/-- Place what is pending at the end of the text. -/
def finish (b : Construction) : Construction :=
  if b.mode = .inTableText then b.placeTableText else b

/-- Whether character data sections count where the state stands. -/
def inOtherVocabulary (b : Construction) : Bool :=
  b.current?.any fun id => (b.nameOf id).vocabulary != .html

/-- The text to go on with behind a token.  Behind the end of a script reading begins anew, and a
byte order mark is left out as at the beginning of the document. -/
def textBehind (b : Construction) (token : Option Token) (rest : Text) : Text :=
  match token with
  | some (.endTag tag) =>
    if b.mode = .text ∧ tag.name = "script" then dropByteOrderMark rest else rest
  | _ => rest

/-- Read a text to its end. -/
def readText (b : Construction) (s : Text) : Construction :=
  match s with
  | [] => b.finish
  | c :: s =>
    let (token, rest) := Token.read b.inOtherVocabulary (c :: s)
    let rest := b.textBehind token rest
    let b := match token with
      | some token => b.take token
      | none => { b with skipLineFeed := false }
    match b.raw with
    | none => if rest.length ≤ s.length then readText b rest else b
    | some kind =>
      let name := (b.nameOf (b.current?.getD 0)).name
      let (text, rest) := kind.read name rest
      let b := applyText { b with raw := none } text
      if rest.length ≤ s.length then readText b rest else b
termination_by s.length
decreasing_by all_goals exact Nat.lt_succ_of_le (by assumption)

end Construction

end WidgetCompiler.Markup
