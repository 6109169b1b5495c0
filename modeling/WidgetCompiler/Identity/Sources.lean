import WidgetCompiler.Identity.Basic
import WidgetCompiler.Text.Pattern

/-!
# Where an identity comes from

The fields of an identity are taken from what was given explicitly, then from a comment in the
markup that holds `key: value` lines, then, if the name or the title is still missing, from a
service that proposes an identity.  The service may fail; it is then left out.
-/

namespace WidgetCompiler

open Text

/-! ## The comment in the markup -/

/-- The comment that holds an identity, with what stands in it. -/
def identityComment : Pattern Text := fun _ s =>
  match after? "<!--" s with
  | some s => match after? "WIDGET_META" (afterBlanks s) with
    | some s => if wordEnds s then cut? "-->" s else none
    | none => none
  | none => none

/-- The key and the value of a line, if it has both. -/
def keyValue? (line : Text) : Option (Text × Text) :=
  match cutAt? (· == ':') line with
  | some (key, value) =>
    if allBlank value then none else some (lowerAscii (trim key), trim value)
  | none => none

/-- The record with a value put under a key, if there is such a field. -/
def IdentityHints.set (h : IdentityHints) (key value : Text) : IdentityHints :=
  if key = "name".toList then { h with name := some value }
  else if key = "title".toList then { h with title := some value }
  else if key = "description".toList then { h with description := some value }
  else if key = "category".toList then { h with category := some value }
  else if key = "icon".toList then { h with icon := some value }
  else h

/-- The record that the lines of a comment hold; of two values for a field the later counts. -/
def hintsOfLines (ls : List Text) : IdentityHints :=
  (ls.filterMap keyValue?).foldl (fun h (key, value) => h.set key value) {}

/-- The record that the first such comment in the markup holds. -/
def hintsInMarkup? (markup : Text) : Option IdentityHints :=
  (Pattern.find? identityComment none markup).map fun (_, body, _) => hintsOfLines (lines body)

/-! ## All sources together -/

/-- A service that proposes an identity, or fails, for a widget's markup, style sheet and script. -/
abbrev Inference := Text → Text → Text → Option IdentityHints

/-- What is known without asking a service. -/
def knownHints (explicit : IdentityHints) (markup : Text) : IdentityHints :=
  explicit.or ((hintsInMarkup? markup).getD {})

/-- What all sources together know. -/
def gatherHints (explicit : IdentityHints) (markup style behavior : Text)
    (inference : Option Inference) : IdentityHints :=
  let known := knownHints explicit markup
  if known.hasIdentity then known
  else match inference with
    | some service => match service markup style behavior with
      | some proposed => known.or proposed
      | none => known
    | none => known

/-- The identity of a widget. -/
def resolveIdentity (explicit : IdentityHints) (markup style behavior : Text)
    (inference : Option Inference) (settings : Settings) : Except NameError Identity :=
  (gatherHints explicit markup style behavior inference).resolve settings

end WidgetCompiler
