import WidgetCompiler.Catalog.Basic
import WidgetCompiler.Markup.Element

/-!
# Elements with their templates

Before anything is generated, every element of a fragment gets its number, the template that serves
it, and the way in which its markup is treated (`bindForest`).
-/

namespace WidgetCompiler

open Text Markup

/-! ## The ways to treat an element -/

/-- How an element is treated where the page is shown. -/
inductive ElementKind
  | heading
  | anchor
  | button
  | image
  | textContainer
  | input
  /-- The markup is shown as it stands. -/
  | passthrough
deriving DecidableEq, Repr

namespace ElementKind

/-- The field that an element of this kind needs in order to be treated so. -/
def definingField? : ElementKind → Option Text
  | heading => some "heading_text"
  | anchor => some "link_text"
  | button => some "button_text"
  | image => some "image"
  | textContainer => some "text"
  | input => some "placeholder"
  | passthrough => none

/-- The tags of headings. -/
def headingTags : List Text := ["h1", "h2", "h3", "h4", "h5", "h6"]

/-- The kind that goes with a tag. -/
def ofTag (tag : Text) : ElementKind :=
  if headingTags.contains tag then heading
  else if tag = "a".toList then anchor
  else if tag = "button".toList then button
  else if tag = "img".toList then image
  else if tag = "input".toList ∨ tag = "textarea".toList then input
  else textContainer

/-- The kind of an element with a tag and a template: the one that goes with the tag, if the
template has its field. -/
def classify (tag : Text) (template : Template) : ElementKind :=
  match (ofTag tag).definingField? with
  | some field => if template.hasField field then ofTag tag else passthrough
  | none => passthrough

end ElementKind

/-! ## Bound elements -/

/-- A text with an underscore for each character that may not stand in an id. -/
def identifierPart (t : Text) : Text :=
  t.map fun c => if c.isAlphanum || c == '_' then c else '_'

/-- The id of the control for a field of an element with a tag and a number. -/
def controlId (tag : Text) (index : Nat) (fieldId : Text) : Text :=
  identifierPart tag ++ '_' :: decimal index ++ '_' :: fieldId

/-- An element with its number, its template and its kind. -/
structure BoundElement where
  index : Nat
  element : Element
  template : Template
  kind : ElementKind

namespace BoundElement

/-- The id of the control for a field. -/
def controlId (b : BoundElement) (fieldId : Text) : Text :=
  WidgetCompiler.controlId b.element.tag b.index fieldId

/-- The id of the control for a field, if the template has the field. -/
def control? (b : BoundElement) (fieldId : Text) : Option Text :=
  if b.template.hasField fieldId then some (b.controlId fieldId) else none

end BoundElement

/-- Elements with their templates, numbered from `index` on. -/
def bindFrom (c : Catalog) (index : Nat) : List Element → List BoundElement
  | [] => []
  | e :: es =>
    let template := c.resolve e.tag
    ⟨index, e, template, ElementKind.classify e.tag template⟩ :: bindFrom c (index + 1) es

/-- All elements of a forest with their templates, every element before its children. -/
def bindForest (c : Catalog) (forest : List Element) : List BoundElement :=
  bindFrom c 0 (Element.preorderAll forest)

end WidgetCompiler
