import WidgetCompiler.Markup.Element
import WidgetCompiler.Settings.Basic
import WidgetCompiler.Text.Letters

/-!
# The identity of a widget

A widget has a name, a title, a description, a category and an icon.  Each of several sources may
know some of these (`IdentityHints`); `or` fills the gaps of one record from another, and `resolve`
completes a record with defaults.

A name is made of small letters, digits and single underscores and begins with a letter
(`normalizeName`).  From it comes the name of the widget's class.
-/

namespace WidgetCompiler

open Text Markup

/-! ## Names -/

/-- The name that a text gives: its letters and digits, with an underscore where others stood
between them; nothing if it has none. -/
def normalizeName (raw : Text) : Option Text :=
  match (splitOn (!Char.isAlphanum ·) raw).filter (! ·.isEmpty) with
  | [] => none
  | parts =>
    let name := lowerAscii (join ['_'] parts)
    if name.head?.any Char.isDigit then some ("widget_" ++ name) else some name

/-- A word with a capital letter at its beginning. -/
def capitalize : Text → Text
  | [] => []
  | c :: s => c.toUpper :: s

/-- The words of a name, each with a capital letter. -/
def nameWords (name : Text) : List Text :=
  ((splitOn (· == '_') name).filter (! ·.isEmpty)).map capitalize

/-- The title that a name gives. -/
def titleOfName (name : Text) : Text := join [' '] (nameWords name)

/-! ## Records -/

/-- The identity of a widget. -/
structure Identity where
  name : Text
  title : Text
  description : Text
  category : Text
  icon : Text
deriving DecidableEq, Repr

/-- What one source knows of an identity. -/
structure IdentityHints where
  name : Option Text := none
  title : Option Text := none
  description : Option Text := none
  category : Option Text := none
  icon : Option Text := none
deriving DecidableEq, Repr

namespace Identity

/-- The name of the widget's class. -/
def className (m : Identity) : Text :=
  let words := (nameWords m.name).flatten
  (if words.isEmpty then ("Custom" : Text) else words) ++ "_Widget"

/-- The words by which a widget is found: those of the title that are longer than three characters,
in small letters, then the tags of the outermost elements; each once, and `max` at most. -/
def keywords (m : Identity) (forest : List Element) (max : Nat) : List Text :=
  let words := (splitOn (!isLetterOrNumber ·) m.title).filter (·.length > 3)
  (distinct (words.map lowercase ++ forest.map (·.tag))).take max

end Identity

/-- A name in which there is no letter and no digit. -/
structure NameError where
  name : Text
deriving DecidableEq, Repr

/-- The error in words. -/
def NameError.message (e : NameError) : Text :=
  "Invalid widget name '" ++ e.name ++ "': must contain at least one letter or digit"

/-- The value without the blanks around it, if anything is left. -/
def nonBlank? (value : Option Text) : Option Text :=
  (value.map trim).filter (! ·.isEmpty)

/-- The name of a widget of which neither a name nor a title is known. -/
def defaultName : Text := "custom_widget"

/-- The title of a widget of which neither a name nor a title is known. -/
def defaultTitle : Text := "Custom Widget"

namespace IdentityHints

/-- The record with its gaps filled from another one. -/
def or (a b : IdentityHints) : IdentityHints :=
  { name := nonBlank? a.name <|> nonBlank? b.name
    title := nonBlank? a.title <|> nonBlank? b.title
    description := nonBlank? a.description <|> nonBlank? b.description
    category := nonBlank? a.category <|> nonBlank? b.category
    icon := nonBlank? a.icon <|> nonBlank? b.icon }

/-- Whether both the name and the title are known. -/
def hasIdentity (h : IdentityHints) : Bool :=
  (nonBlank? h.name).isSome && (nonBlank? h.title).isSome

/-- The name: the one that is known, else the one that the title gives, else the default. -/
def resolveName (h : IdentityHints) : Except NameError Text :=
  match nonBlank? h.name with
  | some raw => match normalizeName raw with
    | some name => .ok name
    | none => .error ⟨raw⟩
  | none => .ok (((nonBlank? h.title).bind normalizeName).getD defaultName)

/-- The title: the one that is known, else the one that the name gives. -/
def resolveTitle (h : IdentityHints) (name : Text) : Text :=
  (nonBlank? h.title).getD (if name = defaultName then defaultTitle else titleOfName name)

/-- The record completed with defaults. -/
def resolve (h : IdentityHints) (settings : Settings) : Except NameError Identity :=
  match h.resolveName with
  | .error e => .error e
  | .ok name =>
    let title := h.resolveTitle name
    .ok { name := name
          title := collapseBlanks title
          description := collapseBlanks ((nonBlank? h.description).getD (title ++ " widget"))
          category := (nonBlank? h.category).getD settings.defaultCategory
          icon := (nonBlank? h.icon).getD settings.defaultIcon }

end IdentityHints

end WidgetCompiler
