import WidgetCompiler.Markup.Document

/-!
# The state of tree construction

A document tree is built from tokens by the rules of the HTML Standard.  `Construction` is what the
rules remember between tokens: the nodes so far, the elements that are open, the formatting
elements that are opened again where a block interrupts them, and the `Mode`, which names the part
of the document that the next token belongs to.

This module holds the state and the operations that all rules share: questions about what is open
(`inScope`), closing (`popUntil`, `closeImplied`) and inserting at the appropriate place, which is
in front of a table while content that a table cannot hold is moved out of it (`place`).
-/

namespace WidgetCompiler.Markup

open Text

/-- The part of the document the next token belongs to. -/
inductive Mode
  | initial
  | beforeHtml
  | beforeHead
  | inHead
  | afterHead
  | inBody
  | text
  | inTable
  | inTableText
  | inCaption
  | inColumnGroup
  | inTableBody
  | inRow
  | inCell
  | inSelect
  | inSelectInTable
  | inTemplate
  | afterBody
  | inFrameset
  | afterFrameset
  | afterAfterBody
  | afterAfterFrameset
deriving DecidableEq, Repr

/-- A formatting element that was opened, with the tag to open it again; or a marker, behind which
no formatting element is opened again. -/
inductive Formatting
  | marker
  | element (id : Nat) (tag : Tag)

/-- What the rules of tree construction work on, one character at a time. -/
inductive Piece
  | char (c : Char)
  | startTag (tag : Tag)
  | endTag (tag : Tag)
  | comment

/-- What tree construction remembers.  Open elements and formatting elements are listed with the
latest first. -/
structure Construction where
  nodes : Nodes := #[]
  openElements : List Nat := []
  formatting : List Formatting := []
  mode : Mode := .initial
  /-- The mode to go back to behind raw text or the text of a table. -/
  returnMode : Mode := .inBody
  templateModes : List Mode := []
  head : Option Nat := none
  form : Option Nat := none
  framesetAllowed : Bool := true
  /-- Whether a line feed that comes next is left out. -/
  skipLineFeed : Bool := false
  /-- Whether the document is laid out by the old rules. -/
  oldLayout : Bool := false
  /-- Whether content goes in front of a table instead of into it. -/
  fostering : Bool := false
  /-- Characters met in a table and not placed yet, the last first. -/
  tableText : Text := []
  /-- The kind of raw text that the element just opened holds. -/
  raw : Option RawKind := none

namespace Construction

/-! ## Names -/

/-- The name of an element. -/
def nameOf (b : Construction) (id : Nat) : ElementName := b.nodes.nameOf id

/-- Whether a name is one of the given names of HTML. -/
def isOneOf (names : List Text) (n : ElementName) : Bool :=
  n.vocabulary == .html && names.contains n.name

/-- Whether an element is the HTML element of the given name. -/
def isHtml (b : Construction) (id : Nat) (name : Text) : Bool := b.nameOf id == ⟨.html, name⟩

/-- The element opened last. -/
def current? (b : Construction) : Option Nat := b.openElements.head?

/-- Whether the element opened last is the HTML element of the given name. -/
def currentIs (b : Construction) (name : Text) : Bool := b.current?.any (b.isHtml · name)

/-- Whether the element opened last is one of the given HTML elements. -/
def currentIn (b : Construction) (names : List Text) : Bool :=
  b.current?.any fun id => isOneOf names (b.nameOf id)

/-- Whether an HTML element of the given name is open. -/
def isOpen (b : Construction) (name : Text) : Bool := b.openElements.any (b.isHtml · name)

/-! ## Sets of names -/

/-- The elements that end a scope. -/
def endsScope (n : ElementName) : Bool :=
  match n.vocabulary with
  | .html => [("applet" : Text), "caption", "html", "table", "td", "th", "marquee", "object",
      "template"].contains n.name
  | .mathml => [("mi" : Text), "mo", "mn", "ms", "mtext"].contains n.name
  | .svg => [("foreignObject" : Text), "desc", "title"].contains n.name

/-- The elements that end the scope of a list item. -/
def endsListScope (n : ElementName) : Bool := endsScope n || isOneOf ["ol", "ul"] n

/-- The elements that end the scope of a button. -/
def endsButtonScope (n : ElementName) : Bool := endsScope n || isOneOf ["button"] n

/-- The elements that end the scope of a table. -/
def endsTableScope (n : ElementName) : Bool := isOneOf ["html", "table", "template"] n

/-- The elements that end the scope of a selection: all but options and their groups. -/
def endsSelectScope (n : ElementName) : Bool := !isOneOf ["optgroup", "option"] n

/-- The elements whose end tag may be left out. -/
def impliedEnds : List Text :=
  ["dd", "dt", "li", "option", "optgroup", "p", "rb", "rp", "rt", "rtc"]

/-- The elements that are closed together with a template. -/
def allImpliedEnds : List Text :=
  impliedEnds ++ (["caption", "colgroup", "tbody", "td", "tfoot", "th", "thead", "tr"] : List Text)

/-- The elements that stop the search for what an end tag closes. -/
def special : List Text :=
  (["address", "applet", "area", "article", "aside", "base", "basefont", "bgsound", "blockquote",
    "body", "br", "button", "caption", "center", "col", "colgroup", "dd", "details", "dir", "div",
    "dl", "dt", "embed", "fieldset", "figcaption", "figure", "footer", "form", "frame", "frameset",
    "h1", "h2", "h3", "h4", "h5", "h6", "head", "header", "hgroup", "hr", "html", "iframe", "img",
    "input", "isindex", "li", "link", "listing", "main", "marquee", "menu", "meta", "nav",
    "noembed", "noframes", "noscript", "object", "ol", "p", "param", "plaintext", "pre", "script",
    "section", "select", "source", "style", "summary", "table", "tbody", "td", "template",
    "textarea", "tfoot", "th", "thead", "title", "tr", "track", "ul", "wbr",
    "xmp"] : List String).map String.toList

/-- The six levels of headings. -/
def headings : List Text := ["h1", "h2", "h3", "h4", "h5", "h6"]

/-- The parts of a table that hold no text. -/
def tableParts : List Text := ["table", "tbody", "tfoot", "thead", "tr"]

/-! ## What is open -/

/-- Whether an open element that satisfies `p` is met before one that ends the scope. -/
def inScopeWhere (b : Construction) (ends : ElementName → Bool) (p : Nat → Bool) : Bool :=
  go b.openElements
where
  go : List Nat → Bool
    | [] => false
    | id :: ids => p id || (!ends (b.nameOf id) && go ids)

/-- Whether the HTML element of the given name is in scope. -/
def inScope (b : Construction) (ends : ElementName → Bool) (name : Text) : Bool :=
  b.inScopeWhere ends (b.isHtml · name)

/-! ## Closing -/

/-- Close the element opened last. -/
def pop (b : Construction) : Construction := { b with openElements := b.openElements.drop 1 }

/-- Close open elements up to and with the first that satisfies `p`. -/
def popUntil (b : Construction) (p : ElementName → Bool) : Construction :=
  { b with openElements := (b.openElements.dropWhile fun id => !p (b.nameOf id)).drop 1 }

/-- Close open elements up to and with the HTML element of the given name. -/
def popUntilNamed (b : Construction) (name : Text) : Construction :=
  b.popUntil (· == ⟨.html, name⟩)

/-- Close open elements until one of the given ones is the last. -/
def popTo (b : Construction) (names : List Text) : Construction :=
  { b with openElements := b.openElements.dropWhile fun id => !isOneOf names (b.nameOf id) }

/-- Close the last elements as long as their end may be left out. -/
def closeImplied (b : Construction) (names : List Text) : Construction :=
  { b with openElements := b.openElements.dropWhile fun id => isOneOf names (b.nameOf id) }

/-- As `closeImplied`, but for the element of the given name. -/
def closeImpliedExcept (b : Construction) (name : Text) : Construction :=
  b.closeImplied (impliedEnds.filter (· ≠ name))

/-- Take an element out of the open ones, wherever it is among them. -/
def removeOpen (b : Construction) (id : Nat) : Construction :=
  { b with openElements := b.openElements.filter (· ≠ id) }

/-- Close the open paragraph. -/
def closeParagraph (b : Construction) : Construction :=
  (b.closeImpliedExcept "p").popUntilNamed "p"

/-- Close the paragraph that is in the scope of a button, if there is one. -/
def closeParagraphInScope (b : Construction) : Construction :=
  if b.inScope endsButtonScope "p" then b.closeParagraph else b

/-! ## Inserting -/

/-- Where content goes that belongs to `target`. -/
def placeIn (b : Construction) (target : Nat) : Position :=
  if b.fostering && isOneOf tableParts (b.nameOf target) then foster b.openElements
  else .lastIn target
where
  /-- In front of the last table, or into the template opened behind it. -/
  foster : List Nat → Position
    | [] => .lastIn 0
    | id :: below =>
      if b.isHtml id "template" then .lastIn id
      else if b.isHtml id "table" then
        match b.nodes.parent? id with
        | some parent => .before parent id
        | none => .lastIn (below.headD 0)
      else foster below

/-- Where the next content goes. -/
def place (b : Construction) : Position := b.placeIn (b.current?.getD 0)

/-- Put a character at its place. -/
def insertChar (b : Construction) (c : Char) : Construction :=
  { b with nodes := b.nodes.put b.place (.char c) }

/-- Put a new element at its place without opening it, and say where it is among the nodes. -/
def placeElement (b : Construction) (name : ElementName) (attributes : List (Text × Text)) :
    Construction × Nat :=
  let position := b.place
  let (nodes, id) := b.nodes.add name attributes
  ({ b with nodes := nodes.put position (.child id) }, id)

/-- Put a new element at its place and open it. -/
def insertForeign (b : Construction) (name : ElementName) (attributes : List (Text × Text)) :
    Construction :=
  let (b, id) := b.placeElement name attributes
  { b with openElements := id :: b.openElements }

/-- Put a new HTML element at its place and open it. -/
def insert (b : Construction) (name : Text) (attributes : List (Text × Text)) : Construction :=
  b.insertForeign ⟨.html, name⟩ attributes

/-- Put the element of a start tag at its place and open it. -/
def insertTag (b : Construction) (tag : Tag) : Construction := b.insert tag.name tag.attributes

/-- Put the element of a start tag at its place; it holds no content. -/
def insertVoid (b : Construction) (tag : Tag) : Construction :=
  (b.placeElement ⟨.html, tag.name⟩ tag.attributes).1

/-- Open the element of a start tag whose content is raw text. -/
def insertRaw (b : Construction) (tag : Tag) (kind : RawKind) : Construction :=
  { b.insertTag tag with returnMode := b.mode, mode := .text, raw := some kind }

end Construction

end WidgetCompiler.Markup
