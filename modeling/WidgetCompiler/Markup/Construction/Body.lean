import WidgetCompiler.Markup.Construction.Head
import WidgetCompiler.Markup.Construction.Vocabulary

/-!
# The rules of the body

`inBody` is the rule for ordinary content: which open elements a tag closes, which formatting
elements are opened again before it, and where what it opens goes.  The rules of tables and
selections fall back on it.
-/

namespace WidgetCompiler.Markup

open Text

namespace Construction

/-! ## Sets of tags -/

/-- The blocks that close an open paragraph and have no other rule. -/
def plainBlocks : List Text :=
  ["address", "article", "aside", "blockquote", "center", "details", "dialog", "dir", "div", "dl",
   "fieldset", "figcaption", "figure", "footer", "header", "hgroup", "main", "menu", "nav", "ol",
   "p", "search", "section", "summary", "ul"]

/-- The elements that their own end tag closes when they are in scope. -/
def closedByName : List Text :=
  ["address", "article", "aside", "blockquote", "button", "center", "details", "dialog", "dir",
   "div", "dl", "fieldset", "figcaption", "figure", "footer", "header", "hgroup", "listing", "main",
   "menu", "nav", "ol", "pre", "search", "section", "summary", "ul"]

/-- The formatting elements without rules of their own. -/
def plainFormatting : List Text :=
  ["b", "big", "code", "em", "font", "i", "s", "small", "strike", "strong", "tt", "u"]

/-- The formatting elements. -/
def formattingElements : List Text := "a".toList :: "nobr".toList :: plainFormatting

/-- The elements with a scope of their own for formatting. -/
def frames : List Text := ["applet", "marquee", "object"]

/-- The elements in running text that hold no content. -/
def inlineVoids : List Text := ["area", "br", "embed", "img", "keygen", "wbr", "input"]

/-- The tags that have no place in a body. -/
def outOfPlace : List Text :=
  ["caption", "col", "colgroup", "frame", "head", "tbody", "td", "tfoot", "th", "thead", "tr"]

/-! ## Parts of the rules -/

/-- Close the open list item or description that a new one ends.  The search stops at a special
element other than an address, a division or a paragraph. -/
def closeItem (b : Construction) (names : List Text) : Construction :=
  go b.openElements
where
  go : List Nat → Construction
    | [] => b
    | id :: below =>
      let n := b.nameOf id
      if isOneOf names n then (b.closeImpliedExcept n.name).popUntilNamed n.name
      else if isOneOf special n && !isOneOf ["address", "div", "p"] n then b
      else go below

/-- The rule for the start tag of an anchor inside an anchor: the outer one is closed. -/
def closeAnchor (b : Construction) : Construction :=
  let outer := b.sinceMarker.findSome? fun
    | .marker => none
    | .element id _ => if b.isHtml id "a" then some id else none
  match outer with
  | some id => ((b.closeFormatting "a").forget id).removeOpen id
  | none => b

/-- The rule for the end tag of a form. -/
def closeForm (b : Construction) : Construction :=
  if b.isOpen "template" then
    if b.inScope endsScope "form" then (b.closeImplied impliedEnds).popUntilNamed "form" else b
  else match b.form with
    | none => b
    | some form =>
      let b := { b with form := none }
      if b.inScopeWhere endsScope (· == form) then (b.closeImplied impliedEnds).removeOpen form
      else b

/-- The rule for the start tag of a set of frames, which takes the place of a body in which nothing
was written yet. -/
def replaceByFrameset (b : Construction) (tag : Tag) : Construction :=
  match b.openElements.reverse with
  | root :: body :: _ =>
    if b.framesetAllowed && b.isHtml body "body" then
      let b := { b with nodes := b.nodes.detach body, openElements := [root] }
      { b.insertTag tag with mode := .inFrameset }
    else b
  | _ => b

/-- The rule for a second start tag of the body. -/
def mergeIntoBody (b : Construction) (tag : Tag) : Construction :=
  match b.openElements.reverse with
  | _ :: body :: _ =>
    if b.isHtml body "body" && !b.isOpen "template" then
      { b with
        framesetAllowed := false
        nodes := b.nodes.addMissingAttributes body tag.attributes }
    else b
  | _ => b

/-! ## The rules -/

/-- The rule for a start tag in the body. -/
def bodyStart (b : Construction) (tag : Tag) : Construction :=
  let is := fun (names : List Text) => names.contains tag.name
  if is ["html"] then b.mergeIntoRoot tag
  else if is headElements then b.headStart tag
  else if is ["body"] then b.mergeIntoBody tag
  else if is ["frameset"] then b.replaceByFrameset tag
  else if is plainBlocks then b.closeParagraphInScope.insertTag tag
  else if is headings then
    let b := b.closeParagraphInScope
    (if b.currentIn headings then b.pop else b).insertTag tag
  else if is ["pre", "listing"] then
    { b.closeParagraphInScope.insertTag tag with skipLineFeed := true, framesetAllowed := false }
  else if is ["form"] then
    if b.form.isSome && !b.isOpen "template" then b
    else
      let b := b.closeParagraphInScope.insertTag tag
      if b.isOpen "template" then b else { b with form := b.current? }
  else if is ["li"] then
    (closeItem { b with framesetAllowed := false } ["li"]).closeParagraphInScope.insertTag tag
  else if is ["dd", "dt"] then
    (closeItem { b with framesetAllowed := false } ["dd", "dt"]).closeParagraphInScope.insertTag tag
  else if is ["plaintext"] then
    { b.closeParagraphInScope.insertTag tag with raw := some .plain }
  else if is ["button"] then
    let b := if b.inScope endsScope "button" then
      (b.closeImplied impliedEnds).popUntilNamed "button" else b
    { b.reopen.insertTag tag with framesetAllowed := false }
  else if is ["a"] then b.closeAnchor.reopen.insertFormatting tag
  else if is plainFormatting then b.reopen.insertFormatting tag
  else if is ["nobr"] then
    let b := b.reopen
    (if b.inScope endsScope "nobr" then (b.closeFormatting "nobr").reopen else b).insertFormatting
      tag
  else if is frames then { (b.reopen.insertTag tag).mark with framesetAllowed := false }
  else if is ["table"] then
    let b := if b.oldLayout then b else b.closeParagraphInScope
    { b.insertTag tag with framesetAllowed := false, mode := .inTable }
  else if is inlineVoids then
    let hidden := is ["input"] && hasValue tag "type" "hidden"
    let b := b.reopen.insertVoid tag
    if hidden then b else { b with framesetAllowed := false }
  else if is ["param", "source", "track"] then b.insertVoid tag
  else if is ["hr"] then
    { b.closeParagraphInScope.insertVoid tag with framesetAllowed := false }
  else if is ["image"] then
    { b.reopen.insertVoid { tag with name := "img" } with framesetAllowed := false }
  else if is ["textarea"] then
    { b.insertRaw tag .withReferences with skipLineFeed := true, framesetAllowed := false }
  else if is ["xmp"] then
    { b.closeParagraphInScope.reopen.insertRaw tag .verbatim with framesetAllowed := false }
  else if is ["iframe"] then { b.insertRaw tag .verbatim with framesetAllowed := false }
  else if is ["noembed", "noscript"] then b.insertRaw tag .verbatim
  else if is ["select"] then
    let inTables := ([.inTable, .inCaption, .inTableBody, .inRow, .inCell] : List Mode)
    let mode := if inTables.contains b.mode then Mode.inSelectInTable else Mode.inSelect
    { b.reopen.insertTag tag with framesetAllowed := false, mode := mode }
  else if is ["optgroup", "option"] then
    (if b.currentIs "option" then b.pop else b).reopen.insertTag tag
  else if is ["rb", "rtc"] then
    (if b.inScope endsScope "ruby" then b.closeImplied impliedEnds else b).insertTag tag
  else if is ["rp", "rt"] then
    (if b.inScope endsScope "ruby" then b.closeImpliedExcept "rtc" else b).insertTag tag
  else if is ["math"] then b.insertOf .mathml tag.name tag
  else if is ["svg"] then b.insertOf .svg tag.name tag
  else if is outOfPlace then b
  else b.reopen.insertTag tag

/-- The rule for an end tag in the body. -/
def bodyEnd (b : Construction) (tag : Tag) : Step :=
  let is := fun (names : List Text) => names.contains tag.name
  if is ["template"] then done b.closeTemplate
  else if is ["body"] then
    done (if b.inScope endsScope "body" then { b with mode := .afterBody } else b)
  else if is ["html"] then
    if b.inScope endsScope "body" then handOn b .afterBody else done b
  else if is closedByName then
    done (if b.inScope endsScope tag.name then
      (b.closeImplied impliedEnds).popUntilNamed tag.name else b)
  else if is ["form"] then done b.closeForm
  else if is ["p"] then
    done (if b.inScope endsButtonScope "p" then b.closeParagraph
      else (b.insert "p" []).closeParagraph)
  else if is ["li"] then
    done (if b.inScope endsListScope "li" then (b.closeImpliedExcept "li").popUntilNamed "li"
      else b)
  else if is ["dd", "dt"] then
    done (if b.inScope endsScope tag.name then
      (b.closeImpliedExcept tag.name).popUntilNamed tag.name else b)
  else if is headings then
    done (if b.inScopeWhere endsScope fun id => isOneOf headings (b.nameOf id) then
      (b.closeImplied impliedEnds).popUntil (isOneOf headings) else b)
  else if is formattingElements then done (b.closeFormatting tag.name)
  else if is frames then
    done (if b.inScope endsScope tag.name then
      ((b.closeImplied impliedEnds).popUntilNamed tag.name).clearToMarker else b)
  else if is ["br"] then
    done { b.reopen.insertVoid ⟨"br", [], false⟩ with framesetAllowed := false }
  else done (b.closeAny tag.name)

/-- The rules of the body. -/
def inBody (b : Construction) : Piece → Step
  | .comment => done b
  | .char c =>
    if c = '\x00' then done b
    else if isAsciiBlank c then done (b.reopen.insertChar c)
    else done { b.reopen.insertChar c with framesetAllowed := false }
  | .startTag tag => done (b.bodyStart tag)
  | .endTag tag => b.bodyEnd tag

/-- The rules of the body for a piece whose place is in front of the open table. -/
def fosterInBody (b : Construction) (piece : Piece) : Step :=
  let step := inBody { b with fostering := true } piece
  { step with state := { step.state with fostering := false } }

end Construction

end WidgetCompiler.Markup
