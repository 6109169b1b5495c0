import WidgetCompiler.Bound.Basic
import WidgetCompiler.Php.Literal
import WidgetCompiler.Style.Selector

/-!
# Controls

A `Control` is a field as it is registered for one element of a fragment: under an id made of the
element's tag and number and the field's id, with the value that the element has, and with the
style declarations that it drives.  Controls come in sections, one for each tab in which the
element's template has fields (`elementSections`).  A last section holds the widget's own style
sheet and script (`customCodeSection`).
-/

namespace WidgetCompiler

open Text Markup

/-! ## Values -/

/-- The value that a control has as long as nobody changes it. -/
inductive DefaultValue
  | text (value : Text)
  /-- A record that holds an address. -/
  | url (address : Text)
  /-- What stands in a code editor. -/
  | code (source : Text)
deriving DecidableEq, Repr

namespace DefaultValue

/-- The text of the value, whatever its kind. -/
def asText : DefaultValue → Text
  | text t => t
  | url t => t
  | code t => t

/-- The value as an expression. -/
def toPhp : DefaultValue → Text
  | text t => Php.literal t
  | url t => "['url' => " ++ Php.literal t ++ "]"
  | code t => Php.doubleQuoted t

end DefaultValue

/-- The ids of the fields that hold the text of an element. -/
def textFieldIds : List Text := ["heading_text", "text", "link_text", "button_text"]

/-- The ids of the fields that hold a link's address. -/
def addressFieldIds : List Text := ["link_url", "button_link"]

/-- What an element itself gives as the value of a field with a known meaning. -/
def elementValue? (f : Field) (e : Element) : Option Text :=
  if textFieldIds.contains f.id then e.text
  else if addressFieldIds.contains f.id then e.attribute? "href"
  else if f.id = "image".toList then e.attribute? "src"
  else if f.id = "alt_text".toList then e.attribute? "alt"
  else if f.id = "placeholder".toList then e.attribute? "placeholder"
  else if f.id = "html_tag".toList then
    match f.options with
    | some options => if options.contains e.tag then some e.tag else none
    | none => some e.tag
  else none

/-- The value of a field for an element: what the element gives, else what the field declares. -/
def defaultFor (f : Field) (e : Element) : Option DefaultValue :=
  (elementValue? f e <|> f.default).map fun value =>
    if f.kind.holdsUrl then .url value else .text value

/-! ## Selectors -/

/-- A name with a backslash before each character that names are not made of. -/
def escapeName (name : Text) : Text :=
  name.flatMap fun c => if Style.isNamePart c then [c] else ['\\', c]

/-- The selector that a style sheet uses for an element. -/
def styleSelector (e : Element) : Text :=
  e.tag ++ (match e.id with
    | some id => '#' :: escapeName id
    | none => []) ++ e.classes.flatMap fun c => '.' :: escapeName c

/-! ## Controls and sections -/

/-- A control as it is registered. -/
structure Control where
  id : Text
  label : Text
  kind : FieldKind
  default : Option DefaultValue := none
  options : List Text := []
  /-- The selectors that the control drives, each with its declaration. -/
  selectors : List (Text × Text) := []
  dynamic : Bool := false
  /-- The language of a code editor. -/
  language : Option Text := none
  description : Option Text := none
deriving DecidableEq, Repr

/-- Controls under a heading. -/
structure Section where
  id : Text
  label : Text
  tab : Tab
  controls : List Control
deriving DecidableEq, Repr

/-- The control of a field for an element with the given selector. -/
def Control.ofField (b : BoundElement) (elementSelector : Text) (f : Field) : Control :=
  { id := b.controlId f.id
    label := f.label
    kind := f.kind
    default := defaultFor f b.element
    options := f.options.getD []
    selectors := match f.styleBinding? with
      | some (selector, property) =>
        [(Style.wrapperPlaceholder ++ ' ' :: replace selectorPlaceholder elementSelector selector,
          property ++ ": " ++ f.kind.styleValue ++ ";")]
      | none => []
    dynamic := f.dynamic }

/-- The label of an element's section in a tab. -/
def sectionLabel (tab : Tab) (label selector : Text) : Text :=
  let kind : Text := match tab with
    | .content => " ("
    | .style => " Style ("
    | .advanced => " Advanced ("
  label ++ kind ++ selector ++ ")"

/-- The section of an element in a tab. -/
def tabSection (b : BoundElement) (tab : Tab) : Section :=
  { id := "section_" ++ identifierPart b.element.tag ++ '_' :: decimal b.index ++ '_' :: tab.name
    label := sectionLabel tab b.template.displayLabel b.element.selector
    tab := tab
    controls := (b.template.fields tab).map (Control.ofField b (styleSelector b.element)) }

/-- The sections of an element, for the tabs in which it has fields. -/
def elementSections (b : BoundElement) : List Section :=
  (Tab.all.filter fun tab => !(b.template.fields tab).isEmpty).map (tabSection b)

/-- A code editor. -/
def codeControl (id label language code description : Text) : Control :=
  { id := id
    label := label
    kind := .code
    default := if code.isEmpty then none else some (.code code)
    language := some language
    description := some description }

/-- The section that holds the widget's own style sheet and script. -/
def customCodeSection (css js : Text) : Section :=
  { id := "section_custom_code"
    label := "Custom Code"
    tab := .advanced
    controls := [
      codeControl "custom_css" "Custom CSS" "css" css
        "Use \"selector\" or \x7b\x7bWRAPPER\x7d\x7d to target this widget instance.",
      codeControl "custom_js" "Custom JavaScript" "javascript" js
        "Runs once the widget markup is ready. jQuery is available as $."] }

/-- The values of all controls that have one; of two controls with one id the later counts. -/
def defaultsOf (sections : List Section) : Dictionary DefaultValue :=
  Dictionary.ofList <| (sections.flatMap (·.controls)).filterMap fun c =>
    c.default.map fun value => (c.id, value)

end WidgetCompiler
