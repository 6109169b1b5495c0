import WidgetCompiler.Failure
import WidgetCompiler.Identity.Sources
import WidgetCompiler.Markup.Fragment
import WidgetCompiler.Validation.Basic
import WidgetCompiler.Widget.Basic

/-!
# Conversion

`convert` goes the whole way from markup, style sheet and script to a widget.  The source that it
makes is checked, and a widget whose source has errors is not delivered.
-/

namespace WidgetCompiler

open Text Markup

/-- What a widget is to be made of. -/
structure Request where
  markup : Text
  style : Text := []
  behavior : Text := []
  /-- What is given of the identity. -/
  hints : IdentityHints := {}

/-- A widget that passed the checks, with the report on its source. -/
structure Conversion where
  widget : Widget
  report : Validation.Report

/-- The elements of the fragment that markup reduces to. -/
def fragmentOf (markup : Text) : List Element := parseFragment (sanitize markup).markup

/-- The widget that a request asks for. -/
def buildWidget (catalog : Catalog) (settings : Settings) (inference : Option Inference)
    (r : Request) : Except Failure Widget :=
  match settings.check with
  | .error e => .error (.settings e)
  | .ok () =>
    match resolveIdentity r.hints r.markup r.style r.behavior inference settings with
    | .error e => .error (.name e)
    | .ok m =>
      .ok (Widget.generate catalog settings m (fragmentOf r.markup) r.markup r.style r.behavior)

/-- Delivers a widget if its source passes the checks. -/
def deliver (w : Widget) : Except Failure Conversion :=
  match Validation.validate? w.source with
  | none => .error .uncheckable
  | some report => if report.valid then .ok ⟨w, report⟩ else .error (.invalid report w.source)

/-- The widget that a request asks for, if its source passes the checks. -/
def convert (catalog : Catalog) (settings : Settings) (inference : Option Inference) (r : Request) :
    Except Failure Conversion :=
  match buildWidget catalog settings inference r with
  | .error e => .error e
  | .ok w => deliver w

end WidgetCompiler
