import WidgetCompiler.Markup.Construction.Body

/-!
# The rules of tables

A table holds captions, columns, sections, rows and cells.  Each of them has a mode; a tag that
belongs further out closes what is open and is handed on.  What no table can hold goes in front of
it, by the rules of the body.
-/

namespace WidgetCompiler.Markup

open Text

namespace Construction

/-! ## Sets of tags -/

/-- The sections of a table. -/
def sections : List Text := ["tbody", "tfoot", "thead"]

/-- The parts of a table that end a caption, a cell or a row. -/
def outerParts : List Text := ["caption", "col", "colgroup", "tbody", "tfoot", "thead"]

/-- What may be the last open element where a row may come. -/
def sectionContext : List Text := ["tbody", "tfoot", "thead", "template", "html"]

/-! ## Text in tables -/

/-- Place the characters met in a table: blanks in the table, others in front of it. -/
def placeTableText (b : Construction) : Construction :=
  let text := b.tableText.reverse
  let b := { b with tableText := [] }
  if text.all isAsciiBlank then text.foldl insertChar b
  else text.foldl (fun b c => (b.fosterInBody (.char c)).state) b

/-- The rules for the text of a table. -/
def inTableText (b : Construction) : Piece → Step
  | .char c => done (if c = '\x00' then b else { b with tableText := c :: b.tableText })
  | _ => handOn b.placeTableText b.returnMode

/-! ## The modes -/

/-- The rule for a start tag directly in a table. -/
def tableStart (b : Construction) (tag : Tag) : Step :=
  let is := fun (names : List Text) => names.contains tag.name
  let b' := b.popTo ["table", "template", "html"]
  if is ["caption"] then done { b'.mark.insertTag tag with mode := .inCaption }
  else if is ["colgroup"] then done { b'.insertTag tag with mode := .inColumnGroup }
  else if is ["col"] then handOn (b'.insert "colgroup" []) .inColumnGroup
  else if is sections then done { b'.insertTag tag with mode := .inTableBody }
  else if is ["td", "th", "tr"] then handOn (b'.insert "tbody" []) .inTableBody
  else if is ["table"] then
    if b.inScope endsTableScope "table" then ⟨(b.popUntilNamed "table").resetMode, true⟩ else done b
  else if is ["style", "script", "template"] then done (b.headStart tag)
  else if is ["input"] && hasValue tag "type" "hidden" then done (b.insertVoid tag)
  else if is ["form"] then
    if b.isOpen "template" || b.form.isSome then done b
    else
      let (b, id) := b.placeElement ⟨.html, "form"⟩ tag.attributes
      done { b with form := some id }
  else b.fosterInBody (.startTag tag)

/-- The rules directly in a table. -/
def inTable (b : Construction) (piece : Piece) : Step :=
  match piece with
  | .comment => done b
  | .char _ =>
    if b.currentIn tableParts then handOn { b with returnMode := b.mode } .inTableText
    else b.fosterInBody piece
  | .startTag tag => b.tableStart tag
  | .endTag tag =>
    let is := fun (names : List Text) => names.contains tag.name
    if is ["table"] then
      done (if b.inScope endsTableScope "table" then (b.popUntilNamed "table").resetMode else b)
    else if is ["body", "caption", "col", "colgroup", "html", "tbody", "td", "tfoot", "th", "thead",
        "tr"] then done b
    else if is ["template"] then done b.closeTemplate
    else b.fosterInBody piece

/-- Close the caption. -/
def closeCaption (b : Construction) : Construction :=
  ((b.closeImplied impliedEnds).popUntilNamed "caption").clearToMarker

/-- The rules in a caption. -/
def inCaption (b : Construction) (piece : Piece) : Step :=
  let hasCaption := b.inScope endsTableScope "caption"
  match piece with
  | .startTag tag =>
    if outerParts.contains tag.name || ([("td" : Text), "th", "tr"] : List Text).contains tag.name
    then if hasCaption then handOn b.closeCaption .inTable else done b
    else inBody b piece
  | .endTag tag =>
    let is := fun (names : List Text) => names.contains tag.name
    if is ["caption"] then
      done (if hasCaption then { b.closeCaption with mode := .inTable } else b)
    else if is ["table"] then if hasCaption then handOn b.closeCaption .inTable else done b
    else if is ["body", "col", "colgroup", "html", "tbody", "td", "tfoot", "th", "thead", "tr"] then
      done b
    else inBody b piece
  | _ => inBody b piece

/-- The rules in a group of columns. -/
def inColumnGroup (b : Construction) (piece : Piece) : Step :=
  let leave := if b.currentIs "colgroup" then handOn b.pop .inTable else done b
  match piece with
  | .comment => done b
  | .char c => if isAsciiBlank c then done (b.insertChar c) else leave
  | .startTag tag =>
    if tag.name = "html" then done (b.mergeIntoRoot tag)
    else if tag.name = "col" then done (b.insertVoid tag)
    else if tag.name = "template" then done (b.openTemplate tag)
    else leave
  | .endTag tag =>
    if tag.name = "colgroup" then
      done (if b.currentIs "colgroup" then { b.pop with mode := .inTable } else b)
    else if tag.name = "col" then done b
    else if tag.name = "template" then done b.closeTemplate
    else leave

/-- The rules in a section of a table. -/
def inTableBody (b : Construction) (piece : Piece) : Step :=
  let b' := b.popTo sectionContext
  let leave :=
    if b.inScopeWhere endsTableScope fun id => isOneOf ("table".toList :: sections) (b.nameOf id)
    then handOn b'.pop .inTable else done b
  match piece with
  | .startTag tag =>
    let is := fun (names : List Text) => names.contains tag.name
    if is ["tr"] then done { b'.insertTag tag with mode := .inRow }
    else if is ["th", "td"] then handOn (b'.insert "tr" []) .inRow
    else if is outerParts then leave
    else b.inTable piece
  | .endTag tag =>
    let is := fun (names : List Text) => names.contains tag.name
    if is sections then
      done (if b.inScope endsTableScope tag.name then { b'.pop with mode := .inTable } else b)
    else if is ["table"] then leave
    else if is ["body", "caption", "col", "colgroup", "html", "td", "th", "tr"] then done b
    else b.inTable piece
  | _ => b.inTable piece

/-- The rules in a row. -/
def inRow (b : Construction) (piece : Piece) : Step :=
  let b' := b.popTo ["tr", "template", "html"]
  let hasRow := b.inScope endsTableScope "tr"
  let leave := if hasRow then handOn b'.pop .inTableBody else done b
  match piece with
  | .startTag tag =>
    let is := fun (names : List Text) => names.contains tag.name
    if is ["th", "td"] then done { (b'.insertTag tag).mark with mode := .inCell }
    else if is outerParts || is ["tr"] then leave
    else b.inTable piece
  | .endTag tag =>
    let is := fun (names : List Text) => names.contains tag.name
    if is ["tr"] then done (if hasRow then { b'.pop with mode := .inTableBody } else b)
    else if is ["table"] then leave
    else if is sections then if b.inScope endsTableScope tag.name then leave else done b
    else if is ["body", "caption", "col", "colgroup", "html", "td", "th"] then done b
    else b.inTable piece
  | _ => b.inTable piece

/-- Close the cell. -/
def closeCell (b : Construction) : Construction :=
  ((b.closeImplied impliedEnds).popUntil (isOneOf ["td", "th"])).clearToMarker

/-- The rules in a cell. -/
def inCell (b : Construction) (piece : Piece) : Step :=
  match piece with
  | .startTag tag =>
    if outerParts.contains tag.name || ([("td" : Text), "th", "tr"] : List Text).contains tag.name
    then
      if b.inScopeWhere endsTableScope fun id => isOneOf ["td", "th"] (b.nameOf id)
      then handOn b.closeCell .inRow else done b
    else inBody b piece
  | .endTag tag =>
    let is := fun (names : List Text) => names.contains tag.name
    if is ["td", "th"] then
      done (if b.inScope endsTableScope tag.name then
        { ((b.closeImplied impliedEnds).popUntilNamed tag.name).clearToMarker with mode := .inRow }
        else b)
    else if is ["body", "caption", "col", "colgroup", "html"] then done b
    else if is ["table", "tbody", "tfoot", "thead", "tr"] then
      if b.inScope endsTableScope tag.name then handOn b.closeCell .inRow else done b
    else inBody b piece
  | _ => inBody b piece

/-! ## Selections -/

/-- Close the selection, in the mode that is then asked for. -/
def closeSelect (b : Construction) : Construction := (b.popUntilNamed "select").resetMode

/-- The rules in a selection, which holds options and their groups. -/
def inSelect (b : Construction) (piece : Piece) : Step :=
  let closeOption := fun (b : Construction) => if b.currentIs "option" then b.pop else b
  match piece with
  | .comment => done b
  | .char c => done (if c = '\x00' then b else b.insertChar c)
  | .startTag tag =>
    let is := fun (names : List Text) => names.contains tag.name
    if is ["html"] then done (b.mergeIntoRoot tag)
    else if is ["option"] then done ((closeOption b).insertTag tag)
    else if is ["optgroup"] then
      let b := closeOption b
      done ((if b.currentIs "optgroup" then b.pop else b).insertTag tag)
    else if is ["hr"] then
      let b := closeOption b
      done ((if b.currentIs "optgroup" then b.pop else b).insertVoid tag)
    else if is ["select"] then
      done (if b.inScope endsSelectScope "select" then b.closeSelect else b)
    else if is ["input", "keygen", "textarea"] then
      if b.inScope endsSelectScope "select" then ⟨b.closeSelect, true⟩ else done b
    else if is ["script", "template"] then done (b.headStart tag)
    else done b
  | .endTag tag =>
    let is := fun (names : List Text) => names.contains tag.name
    if is ["optgroup"] then
      let b := if b.currentIs "option" && (b.openElements[1]?.any (b.isHtml · "optgroup"))
        then b.pop else b
      done (if b.currentIs "optgroup" then b.pop else b)
    else if is ["option"] then done (closeOption b)
    else if is ["select"] then
      done (if b.inScope endsSelectScope "select" then b.closeSelect else b)
    else if is ["template"] then done b.closeTemplate
    else done b

/-- The rules in a selection in a table: a part of the table closes the selection. -/
def inSelectInTable (b : Construction) (piece : Piece) : Step :=
  let parts : List Text := ["caption", "table", "tbody", "tfoot", "thead", "tr", "td", "th"]
  match piece with
  | .startTag tag => if parts.contains tag.name then ⟨b.closeSelect, true⟩ else b.inSelect piece
  | .endTag tag =>
    if parts.contains tag.name then
      if b.inScope endsTableScope tag.name then ⟨b.closeSelect, true⟩ else done b
    else b.inSelect piece
  | _ => b.inSelect piece

end Construction

end WidgetCompiler.Markup
