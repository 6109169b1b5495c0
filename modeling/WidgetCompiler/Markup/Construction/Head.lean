import WidgetCompiler.Markup.Construction.Formatting

/-!
# The rules before the body

The rules of tree construction up to the beginning of the body, together with those for the
elements that may stand in a head wherever they are met.  An element that the text leaves out, the
document's root, its head or its body, is supplied when a piece comes that has to stand inside it.

The answer of a rule is a `Step`: the new state, and whether the piece is to be looked at once more
under the new mode.
-/

namespace WidgetCompiler.Markup

open Text

/-- The state after a rule, and whether the piece is handed on to the rules of the new mode. -/
structure Step where
  state : Construction
  again : Bool := false

namespace Construction

/-- The rule is done with the piece. -/
def done (b : Construction) : Step := ⟨b, false⟩

/-- The piece is handed on to the rules of another mode. -/
def handOn (b : Construction) (mode : Mode) : Step := ⟨{ b with mode := mode }, true⟩

/-- Whether an attribute has the given value, letters in any case. -/
def hasValue (tag : Tag) (name value : Text) : Bool :=
  (tag.attributes.lookup name).any (lowerAscii · == value)

/-! ## The insertion mode of what is open -/

/-- The mode for a selection that is opened inside the given elements. -/
def selectMode (b : Construction) : List Nat → Mode
  | [] => .inSelect
  | id :: below =>
    if b.isHtml id "template" then .inSelect
    else if b.isHtml id "table" then .inSelectInTable
    else selectMode b below

/-- The mode that the open elements ask for; `selectMode` tells selections in tables apart. -/
def modeOf (b : Construction) : List Nat → Mode
  | [] => .inBody
  | id :: below =>
    let is := fun (names : List Text) => isOneOf names (b.nameOf id)
    if is ["select"] then b.selectMode below
    else if is ["td", "th"] && !below.isEmpty then .inCell
    else if is ["tr"] then .inRow
    else if is ["tbody", "thead", "tfoot"] then .inTableBody
    else if is ["caption"] then .inCaption
    else if is ["colgroup"] then .inColumnGroup
    else if is ["table"] then .inTable
    else if is ["template"] then b.templateModes.headD .inBody
    else if is ["head"] && !below.isEmpty then .inHead
    else if is ["body"] then .inBody
    else if is ["frameset"] then .inFrameset
    else if is ["html"] then if b.head.isNone then .beforeHead else .afterHead
    else modeOf b below

/-- The state in the mode that its open elements ask for. -/
def resetMode (b : Construction) : Construction := { b with mode := b.modeOf b.openElements }

/-! ## The root -/

/-- Create the root element. -/
def createRoot (b : Construction) (attributes : List (Text × Text)) : Construction :=
  let (nodes, id) := b.nodes.add ⟨.html, "html"⟩ attributes
  { b with nodes := nodes, openElements := [id] }

/-- A start tag of the root adds attributes that the root lacks. -/
def mergeIntoRoot (b : Construction) (tag : Tag) : Construction :=
  if b.isOpen "template" then b
  else { b with
    nodes := b.nodes.addMissingAttributes (b.openElements.getLastD 0) tag.attributes }

/-! ## Elements of the head -/

/-- The elements that may stand in a head and hold no content. -/
def headVoids : List Text := ["base", "basefont", "bgsound", "link", "meta"]

/-- The elements that may stand in a head. -/
def headElements : List Text :=
  headVoids ++ (["noframes", "script", "style", "template", "title"] : List Text)

/-- Open a template. -/
def openTemplate (b : Construction) (tag : Tag) : Construction :=
  { (b.insertTag tag).mark with
    framesetAllowed := false
    mode := .inTemplate
    templateModes := .inTemplate :: b.templateModes }

/-- Close a template, if one is open. -/
def closeTemplate (b : Construction) : Construction :=
  if b.isOpen "template" then
    let b := ((b.closeImplied allImpliedEnds).popUntilNamed "template").clearToMarker
    resetMode { b with templateModes := b.templateModes.drop 1 }
  else b

/-- The rule for the start tag of an element that may stand in a head; nothing for others. -/
def headStart? (b : Construction) (tag : Tag) : Option Construction :=
  if headVoids.contains tag.name then some (b.insertVoid tag)
  else if tag.name = "title" then some (b.insertRaw tag .withReferences)
  else if tag.name = "noframes" ∨ tag.name = "style" ∨ tag.name = "noscript" then
    some (b.insertRaw tag .verbatim)
  else if tag.name = "script" then some (b.insertRaw tag .script)
  else if tag.name = "template" then some (b.openTemplate tag)
  else none

/-- The state after the start tag of an element of the head. -/
def headStart (b : Construction) (tag : Tag) : Construction := (b.headStart? tag).getD b

/-! ## The modes -/

/-- The end tags that supply what is missing as any other piece does. -/
def endsDocumentPart (tag : Tag) : Bool :=
  ([("body" : Text), "html", "br"] : List Text).contains tag.name

/-- The rules at the beginning of a document. -/
def initial (b : Construction) : Piece → Step
  | .comment => done b
  | .char c => if isAsciiBlank c then done b else handOn { b with oldLayout := true } .beforeHtml
  | _ => handOn { b with oldLayout := true } .beforeHtml

/-- The rules before the root. -/
def beforeHtml (b : Construction) (piece : Piece) : Step :=
  let supply := handOn (b.createRoot []) .beforeHead
  match piece with
  | .comment => done b
  | .char c => if isAsciiBlank c then done b else supply
  | .startTag tag =>
    if tag.name = "html" then done { b.createRoot tag.attributes with mode := .beforeHead }
    else supply
  | .endTag tag => if tag.name = "head" ∨ endsDocumentPart tag then supply else done b

/-- Open the head. -/
def openHead (b : Construction) (attributes : List (Text × Text)) : Construction :=
  let b := b.insert "head" attributes
  { b with head := b.current?, mode := .inHead }

/-- The rules before the head. -/
def beforeHead (b : Construction) (piece : Piece) : Step :=
  let supply := handOn (b.openHead []) .inHead
  match piece with
  | .comment => done b
  | .char c => if isAsciiBlank c then done b else supply
  | .startTag tag =>
    if tag.name = "html" then done (b.mergeIntoRoot tag)
    else if tag.name = "head" then done (b.openHead tag.attributes)
    else supply
  | .endTag tag => if tag.name = "head" ∨ endsDocumentPart tag then supply else done b

/-- The rules in the head. -/
def inHead (b : Construction) (piece : Piece) : Step :=
  let leave := handOn b.pop .afterHead
  match piece with
  | .comment => done b
  | .char c => if isAsciiBlank c then done (b.insertChar c) else leave
  | .startTag tag =>
    if tag.name = "html" then done (b.mergeIntoRoot tag)
    else if tag.name = "head" then done b
    else match b.headStart? tag with
      | some b => done b
      | none => leave
  | .endTag tag =>
    if tag.name = "head" then done { b.pop with mode := .afterHead }
    else if tag.name = "template" then done b.closeTemplate
    else if endsDocumentPart tag then leave
    else done b

/-- The rules between the head and the body.  An element of the head that comes late still goes
into the head. -/
def afterHead (b : Construction) (piece : Piece) : Step :=
  let supply := handOn (b.insert "body" []) .inBody
  match piece with
  | .comment => done b
  | .char c => if isAsciiBlank c then done (b.insertChar c) else supply
  | .startTag tag =>
    if tag.name = "html" then done (b.mergeIntoRoot tag)
    else if tag.name = "body" then
      done { b.insertTag tag with framesetAllowed := false, mode := .inBody }
    else if tag.name = "frameset" then done { b.insertTag tag with mode := .inFrameset }
    else if headElements.contains tag.name then
      let head := b.head.getD 0
      done ((headStart { b with openElements := head :: b.openElements } tag).removeOpen head)
    else if tag.name = "head" then done b
    else supply
  | .endTag tag =>
    if tag.name = "template" then done b.closeTemplate
    else if endsDocumentPart tag then supply
    else done b

end Construction

end WidgetCompiler.Markup
