import WidgetCompiler.Markup.Sanitize
import WidgetCompiler.Render.Planner
import WidgetCompiler.Render.Preview
import WidgetCompiler.Style.Prepare
import WidgetCompiler.Widget.Source

/-!
# Widgets

`Widget.generate` puts a widget together out of its identity, the elements of its fragment, and its
markup, style sheet and script.  Style sheets and scripts that stand in the markup are added to the
ones that are given.
-/

namespace WidgetCompiler

open Text Markup

/-- A generated widget. -/
structure Widget where
  identity : Identity
  className : Text
  keywords : List Text
  /-- The sections of the elements, and then the section for the widget's own code. -/
  sections : List Section
  plan : Render.Plan
  /-- The style sheet that the widget holds. -/
  style : Text
  /-- The script that the widget holds. -/
  behavior : Text
  source : Text

namespace Widget

/-- Pieces of code with an empty line between neighbours, each without the blanks around it, and
without empty ones. -/
def joinCode (pieces : List Text) : Text :=
  join "\n\n" ((pieces.map trim).filter (! ·.isEmpty))

/-- The style sheet of a widget with the given elements. -/
def preparedStyle (settings : Settings) (forest : List Element) (style : Text) : Text :=
  Style.prepare (if settings.pruneUnusedCss then some (SelectorSet.ofForest forest) else none)
    (if settings.scopeCss then some Style.wrapperPlaceholder else none) style

/-- The widget with the given identity and elements. -/
def generate (catalog : Catalog) (settings : Settings) (m : Identity) (forest : List Element)
    (markup style behavior : Text) : Widget :=
  let sanitized := sanitize markup
  let bound := bindForest catalog forest
  let css := preparedStyle settings forest (joinCode (style :: sanitized.styles))
  let js := joinCode (behavior :: sanitized.scripts)
  let sections := bound.flatMap elementSections ++ [customCodeSection css js]
  let plan := Render.planRender sanitized.markup bound
  let keywords := m.keywords forest settings.maxKeywords
  { identity := m
    className := m.className
    keywords := keywords
    sections := sections
    plan := plan
    style := css
    behavior := js
    source := classSource settings m m.className keywords sections plan }

/-- The values of the controls that have one. -/
def defaults (w : Widget) : Dictionary DefaultValue := defaultsOf w.sections

/-- The markup that the widget shows as long as nobody changes a control. -/
def preview (w : Widget) : Text := w.plan.preview w.defaults

/-- The ids of all controls in order. -/
def controlIds (w : Widget) : List Text := (w.sections.flatMap (·.controls)).map (·.id)

end Widget

end WidgetCompiler
