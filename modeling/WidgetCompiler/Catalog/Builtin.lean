import WidgetCompiler.Catalog.Basic

/-!
# The built-in catalog

What can be set about the common elements when nobody says otherwise.  Elements without a template
of their own are treated as a `div`.
-/

namespace WidgetCompiler.Catalog.Builtin

open Text

/-! ## Fields that several templates share -/

/-- A style field. -/
def styleField (kind : FieldKind) (id label property : Text) : Field :=
  { id := id, label := label, kind := kind, property := some property }

def backgroundColor : Field :=
  styleField .color "background_color" "Background Color" "background-color"

def textColor : Field := styleField .color "text_color" "Text Color" "color"

def fontSize : Field := styleField .slider "font_size" "Font Size" "font-size"

def padding : Field := styleField .dimensions "padding" "Padding" "padding"

def margin : Field := styleField .dimensions "margin" "Margin" "margin"

def borderRadius : Field := styleField .slider "border_radius" "Border Radius" "border-radius"

/-- The text in an element. -/
def textField (kind : FieldKind) : Field :=
  { id := "text", label := "Text", kind := kind, dynamic := true }

/-! ## Templates -/

def box : Template :=
  { tag := "box", label := some "Box"
    style := [backgroundColor, padding, margin, borderRadius]
    advanced := [styleField .number "z_index" "Z-Index" "z-index"] }

/-- A box under another name. -/
def boxNamed (tag label : Text) : Template :=
  { tag := tag, base := some "box", label := some label }

def container : Template :=
  { boxNamed "div" "Container" with content := [textField .textarea], style := [textColor] }

def heading : Template :=
  { tag := "h1", label := some "Heading"
    content := [
      { id := "heading_text", label := "Title", kind := .text, default := some "Heading"
        dynamic := true },
      { id := "link", label := "Link", kind := .url, dynamic := true },
      { id := "html_tag", label := "HTML Tag", kind := .select, default := some "h2"
        options := some ["h1", "h2", "h3", "h4", "h5", "h6", "div", "span", "p"] }]
    style := [
      textColor, fontSize,
      { id := "text_align", label := "Alignment", kind := .select
        options := some ["left", "center", "right", "justify"], property := some "text-align" },
      margin] }

/-- A heading of a lower level. -/
def headingNamed (tag : Text) : Template := { tag := tag, base := some "h1" }

def paragraph : Template :=
  { tag := "p", label := some "Paragraph"
    content := [textField .textarea]
    style := [
      textColor, fontSize, styleField .slider "line_height" "Line Height" "line-height", margin] }

def inlineText : Template :=
  { tag := "span", base := some "p", label := some "Inline Text", content := [textField .text] }

def link : Template :=
  { tag := "a", label := some "Link"
    content := [
      { id := "link_text", label := "Link Text", kind := .text, default := some "Click here"
        dynamic := true },
      { id := "link_url", label := "Link URL", kind := .url, default := some "#"
        dynamic := true }]
    style := [
      textColor,
      { id := "hover_color", label := "Hover Color", kind := .color
        selector := some "\x7b\x7bSELECTOR\x7d\x7d:hover", property := some "color" },
      fontSize] }

def button : Template :=
  { tag := "button", label := some "Button"
    content := [
      { id := "button_text", label := "Button Text", kind := .text, default := some "Click me"
        dynamic := true },
      { id := "button_link", label := "Button Link", kind := .url, dynamic := true }]
    style := [
      textColor, backgroundColor,
      { id := "hover_background_color", label := "Hover Background", kind := .color
        selector := some "\x7b\x7bSELECTOR\x7d\x7d:hover", property := some "background-color" },
      padding, borderRadius] }

def image : Template :=
  { tag := "img", label := some "Image"
    content := [
      { id := "image", label := "Image", kind := .media, dynamic := true },
      { id := "alt_text", label := "Alt Text", kind := .text }]
    style := [styleField .slider "width" "Width" "width", borderRadius] }

def inputField : Template :=
  { tag := "input", label := some "Input"
    content := [{ id := "placeholder", label := "Placeholder", kind := .text }]
    style := [
      textColor, backgroundColor,
      styleField .color "border_color" "Border Color" "border-color", padding] }

/-- All templates, in the order of their tags. -/
def templates : List Template := [
  link,
  boxNamed "article" "Article",
  boxNamed "aside" "Aside",
  box,
  button,
  container,
  boxNamed "footer" "Footer",
  heading,
  headingNamed "h2",
  headingNamed "h3",
  headingNamed "h4",
  headingNamed "h5",
  headingNamed "h6",
  boxNamed "header" "Header",
  image,
  inputField,
  { tag := "label", base := some "span", label := some "Label" },
  { tag := "li", base := some "span", label := some "List Item" },
  boxNamed "main" "Main",
  boxNamed "nav" "Navigation",
  paragraph,
  boxNamed "section" "Section",
  inlineText,
  { tag := "textarea", base := some "input", label := some "Text Area" }]

end Builtin

/-- The catalog that is used when no other one is given. -/
def builtin : Catalog :=
  { fallback := "div", templates := Builtin.templates.map fun t => (t.tag, t) }

end WidgetCompiler.Catalog
