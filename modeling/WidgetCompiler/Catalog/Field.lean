import WidgetCompiler.Text.Basic

/-!
# Fields

A `Field` says what can be set about an element: under which id and label, in which kind of editor,
and, where it is about looks, which property of which selector it drives.
-/

namespace WidgetCompiler

open Text

/-- The kinds of editors for a value. -/
inductive FieldKind
  | text
  | textarea
  | wysiwyg
  | url
  | media
  | select
  | color
  | slider
  | dimensions
  | number
  | switcher
  | code
deriving DecidableEq, Repr

namespace FieldKind

/-- All kinds. -/
def all : List FieldKind :=
  [text, textarea, wysiwyg, url, media, select, color, slider, dimensions, number, switcher, code]

/-- The name of the kind, in capital letters. -/
def constant : FieldKind → Text
  | text => "TEXT"
  | textarea => "TEXTAREA"
  | wysiwyg => "WYSIWYG"
  | url => "URL"
  | media => "MEDIA"
  | select => "SELECT"
  | color => "COLOR"
  | slider => "SLIDER"
  | dimensions => "DIMENSIONS"
  | number => "NUMBER"
  | switcher => "SWITCHER"
  | code => "CODE"

/-- The kind of a given name. -/
def ofConstant? (name : Text) : Option FieldKind := all.find? (·.constant == name)

/-- What stands for the value in a style declaration. -/
def styleValue : FieldKind → Text
  | slider => "\x7b\x7bSIZE\x7d\x7d\x7b\x7bUNIT\x7d\x7d"
  | dimensions =>
    ("\x7b\x7bTOP\x7d\x7d\x7b\x7bUNIT\x7d\x7d \x7b\x7bRIGHT\x7d\x7d\x7b\x7bUNIT\x7d\x7d ".toList ++
      "\x7b\x7bBOTTOM\x7d\x7d\x7b\x7bUNIT\x7d\x7d \x7b\x7bLEFT\x7d\x7d\x7b\x7bUNIT\x7d\x7d".toList)
  | _ => "\x7b\x7bVALUE\x7d\x7d"

/-- Whether the value is a length with a unit. -/
def hasUnits : FieldKind → Bool
  | slider => true
  | dimensions => true
  | _ => false

/-- Whether the value is a record that holds an address. -/
def holdsUrl : FieldKind → Bool
  | url => true
  | media => true
  | _ => false

theorem ofConstant?_constant (k : FieldKind) : ofConstant? k.constant = some k := by
  cases k <;> decide

end FieldKind

/-- What can be set about an element. -/
structure Field where
  id : Text
  label : Text
  kind : FieldKind
  /-- The value where the element itself has none. -/
  default : Option Text := none
  /-- The choices of a selection. -/
  options : Option (List Text) := none
  /-- The selector whose looks the field drives, with a placeholder for the element. -/
  selector : Option Text := none
  /-- The style property that the field drives. -/
  property : Option Text := none
  /-- Whether the value may be computed when the page is shown. -/
  dynamic : Bool := false
deriving DecidableEq, Repr

/-- What stands for the element's own selector. -/
def selectorPlaceholder : Text := "\x7b\x7bSELECTOR\x7d\x7d"

namespace Field

/-- The selector and the property that the field drives, if it is about looks. -/
def styleBinding? (f : Field) : Option (Text × Text) :=
  f.property.map fun property => (f.selector.getD selectorPlaceholder, property)

end Field

/-- The tabs that fields are spread over. -/
inductive Tab
  | content
  | style
  | advanced
deriving DecidableEq, Repr

namespace Tab

/-- All tabs in order. -/
def all : List Tab := [content, style, advanced]

/-- The name of the tab. -/
def name : Tab → Text
  | content => "content"
  | style => "style"
  | advanced => "advanced"

/-- The constant that stands for the tab. -/
def constant : Tab → Text
  | content => "TAB_CONTENT"
  | style => "TAB_STYLE"
  | advanced => "TAB_ADVANCED"

end Tab

end WidgetCompiler
