import WidgetCompiler.Php.Literal
import WidgetCompiler.Php.Writer

/-!
# Render plans

A `Plan` says what a widget shows.  Its bindings give names to values that the settings of the
widget hold, or to what stands in for them; its parts are literal markup, values to be printed, and
parts that appear only where a value is present.

`mergeMarkup` brings parts into shape, with no empty and no neighbouring pieces of markup.  `write`
prints a plan as a routine.
-/

namespace WidgetCompiler.Render

open Text

/-- How a value is written into markup. -/
inductive Escape
  | html
  | attr
  | url
deriving DecidableEq, Repr

/-- The function that escapes a value so. -/
def Escape.function : Escape → Text
  | html => "esc_html"
  | attr => "esc_attr"
  | url => "esc_url"

/-- A value that is there when the widget is shown. -/
inductive Value
  /-- What the settings hold under an id. -/
  | setting (id : Text)
  /-- What a name is bound to. -/
  | var (name : Text)
  /-- The address in the record that a name is bound to. -/
  | url (name : Text)
deriving DecidableEq, Repr

/-- What a name is bound to. -/
inductive Source
  | setting (id : Text)
  /-- What the settings hold, or a text in place of nothing. -/
  | settingOr (id fallback : Text)
  /-- The record that the settings hold, if there is an address in it. -/
  | linkOrNull (id : Text)
  /-- The record that the settings hold, or one with another address in place of one without. -/
  | urlOr (id fallback : Text)
deriving DecidableEq, Repr

/-- A name for a value. -/
structure Binding where
  var : Text
  source : Source
deriving DecidableEq, Repr

/-- A part of what is shown. -/
inductive Part
  | markup (text : Text)
  | echo (value : Value) (escape : Escape)
  /-- The attributes that a link gets from the record that a name is bound to. -/
  | linkAttributes (var : Text)
  /-- Parts that appear only if something is bound to a name. -/
  | ifSet (var : Text) (body : List Part)
deriving Repr, Inhabited

/-- What a widget shows. -/
structure Plan where
  bindings : List Binding := []
  parts : List Part := []
deriving Repr, Inhabited

/-! ## Measures and shape -/

/-- How many values are put into the parts. -/
def substitutionsIn : List Part → Nat
  | [] => 0
  | .markup _ :: ps => substitutionsIn ps
  | .ifSet _ body :: ps => substitutionsIn body + substitutionsIn ps
  | .echo _ _ :: ps => 1 + substitutionsIn ps
  | .linkAttributes _ :: ps => 1 + substitutionsIn ps

/-- Whether a part shows something that is not blank. -/
def Part.isVisible : Part → Bool
  | .markup t => !allBlank t
  | _ => true

/-- The parts with neighbouring pieces of markup joined and empty ones left out. -/
def mergeMarkup : List Part → List Part
  | [] => []
  | .markup t :: ps =>
    if t.isEmpty then mergeMarkup ps
    else match mergeMarkup ps with
      | .markup u :: qs => .markup (t ++ u) :: qs
      | qs => .markup t :: qs
  | .ifSet var body :: ps => .ifSet var (mergeMarkup body) :: mergeMarkup ps
  | .echo value escape :: ps => .echo value escape :: mergeMarkup ps
  | .linkAttributes var :: ps => .linkAttributes var :: mergeMarkup ps
termination_by ps => sizeOf ps
decreasing_by
  all_goals
    simp only [List.cons.sizeOf_spec, Part.markup.sizeOf_spec, Part.ifSet.sizeOf_spec,
      Part.echo.sizeOf_spec, Part.linkAttributes.sizeOf_spec]
    omega

namespace Plan

/-- How many values are put into the markup. -/
def substitutions (p : Plan) : Nat := substitutionsIn p.parts

/-- Whether the plan shows something that is not blank. -/
def hasMarkup (p : Plan) : Bool := p.parts.any (·.isVisible)

end Plan

/-! ## Printing -/

/-- The value as an expression. -/
def Value.toPhp : Value → Text
  | .setting id => "$settings[" ++ Php.singleQuoted id ++ "]"
  | .var name => '$' :: name
  | .url name => '$' :: name ++ "['url']"

/-- The source of a value as an expression. -/
def Source.toPhp : Source → Text
  | .setting id => (Value.setting id).toPhp
  | .settingOr id fallback =>
    let setting := (Value.setting id).toPhp
    "!empty(" ++ setting ++ ") ? " ++ setting ++ " : " ++ Php.singleQuoted fallback
  | .linkOrNull id =>
    let setting := (Value.setting id).toPhp
    "!empty(" ++ setting ++ "['url']) ? " ++ setting ++ " : null"
  | .urlOr id fallback =>
    let setting := (Value.setting id).toPhp
    "!empty(" ++ setting ++ "['url']) ? " ++ setting ++ " : ['url' => "
      ++ Php.singleQuoted fallback ++ "]"

/-- The binding as an assignment. -/
def Binding.toPhp (b : Binding) : Text := '$' :: b.var ++ " = " ++ b.source.toPhp ++ ";"

/-- The statement that prints a value. -/
def echoStatement (value : Value) (escape : Escape) : Text :=
  "echo " ++ escape.function ++ "(" ++ value.toPhp ++ ");"

/-- The statements that print the attributes of a link. -/
def linkStatements (var : Text) : Text :=
  "echo !empty($" ++ var ++ "['is_external']) ? ' target=\"_blank\"' : ''; echo !empty($" ++ var
    ++ "['nofollow']) ? ' rel=\"nofollow\"' : '';"

/-- Writes parts in turn. -/
def writeParts (w : Php.Writer) : List Part → Php.Writer
  | [] => w
  | .markup t :: ps => writeParts (w.markup t) ps
  | .echo value escape :: ps => writeParts (w.inlineCode (echoStatement value escape)) ps
  | .linkAttributes var :: ps => writeParts (w.inlineCode (linkStatements var)) ps
  | .ifSet var body :: ps =>
    let w := w.inlineCode ("if ($" ++ var ++ ") :")
    let w := writeParts w body
    writeParts (w.inlineCode "endif;") ps

/-- Writes the bindings as lines of code, and then the parts if there is something to see.  It ends
in code if it began there. -/
def Plan.write (p : Plan) (w : Php.Writer) (indent : Text) : Php.Writer :=
  let w := p.bindings.foldl (fun w b => w.line (indent ++ b.toPhp)) w
  if p.hasMarkup then
    (writeParts ((w.blankLine).line (indent ++ "// Widget markup")) p.parts).enterCode
  else w

end WidgetCompiler.Render
