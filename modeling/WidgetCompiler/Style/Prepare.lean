import WidgetCompiler.Style.Reader

/-!
# The style sheet of a widget

A widget shares its page with others, so its style sheet is cut down to what concerns it: `prune`
keeps the rules that can match something in the fragment, `stripGlobal` takes out the selectors
that mean the page as a whole, and `scopeTo` puts every selector below the widget's wrapper.
`prepare` does these in turn.
-/

namespace WidgetCompiler.Style

open Text

namespace Rule

/-- The rule without the selectors of the page as a whole, if it has others. -/
def withoutGlobal? (r : Rule) : Option Rule :=
  match r.selectors.filter (!isGlobal ·) with
  | [] => none
  | kept => some { r with selectors := kept }

/-- The rule, if one of its selectors is relevant. -/
def relevant? (used : Markup.SelectorSet) (r : Rule) : Option Rule :=
  if r.selectors.any (isRelevant used) then some r else none

/-- The rule with each selector below the wrapper. -/
def scopeTo (wrapper : Text) (r : Rule) : Rule :=
  { r with selectors := r.selectors.map (scope wrapper) }

end Rule

namespace Sheet

/-- The sheet without the selectors of the page as a whole. -/
def withoutGlobal (sheet : Sheet) : Sheet := filterMapRules Rule.withoutGlobal? sheet

/-- The sheet with the rules that have a relevant selector. -/
def relevantTo (used : Markup.SelectorSet) (sheet : Sheet) : Sheet :=
  filterMapRules (Rule.relevant? used) sheet

/-- The sheet with each selector below the wrapper. -/
def scopeTo (wrapper : Text) (sheet : Sheet) : Sheet := mapRules (Rule.scopeTo wrapper) sheet

/-- The selectors of the page as a whole, in order. -/
def globalSelectors (sheet : Sheet) : List Text :=
  (rules sheet).flatMap fun r => r.selectors.filter isGlobal

/-- The sheet of a widget: cut down to what a fragment uses, without selectors of the page as a
whole, and below a wrapper, each of the first and the last only if it is asked for. -/
def prepare (used : Option Markup.SelectorSet) (wrapper : Option Text) (sheet : Sheet) : Sheet :=
  let sheet := match used with
    | some used => if used.isEmpty then sheet else relevantTo used sheet
    | none => sheet
  let sheet := withoutGlobal sheet
  match wrapper with
  | some wrapper => scopeTo wrapper sheet
  | none => sheet

end Sheet

/-! ## On text -/

/-- The selectors of the page as a whole that a sheet has, in order. -/
def findGlobal (css : Text) : List Text := (Sheet.parse css).globalSelectors

/-- A sheet without the selectors of the page as a whole. -/
def stripGlobal (css : Text) : Text := (Sheet.parse css).withoutGlobal.render

/-- A sheet cut down to the rules that a fragment uses. -/
def prune (used : Markup.SelectorSet) (css : Text) : Text :=
  ((Sheet.parse css).relevantTo used).render

/-- A sheet below a wrapper. -/
def scopeTo (wrapper css : Text) : Text := ((Sheet.parse css).scopeTo wrapper).render

/-- The text of the sheet that is put into a widget. -/
def prepare (used : Option Markup.SelectorSet) (wrapper : Option Text) (css : Text) : Text :=
  if allBlank css then [] else trimEnd ((Sheet.parse css).prepare used wrapper).render

end WidgetCompiler.Style
