import WidgetCompiler.Failure
import WidgetCompiler.Yaml.Value

/-!
# Settings in documents

A document gives the settings that differ from the defaults.
-/

namespace WidgetCompiler

open Text Yaml

namespace Settings

/-- The names of the settings in a document. -/
def fieldNames : List Text :=
  ["text_domain", "package", "default_category", "default_icon", "prune_unused_css", "scope_css",
    "max_keywords"]

/-- The settings that a value gives. -/
def ofValue? (v : Value) : Option Settings := do
  let defaults : Settings := {}
  let r ← v.record? fieldNames
  return {
    textDomain := ← fieldOr? Value.text? defaults.textDomain "text_domain" r
    package := ← fieldOr? Value.text? defaults.package "package" r
    defaultCategory := ← fieldOr? Value.text? defaults.defaultCategory "default_category" r
    defaultIcon := ← fieldOr? Value.text? defaults.defaultIcon "default_icon" r
    pruneUnusedCss := ← fieldOr? Value.bool? defaults.pruneUnusedCss "prune_unused_css" r
    scopeCss := ← fieldOr? Value.bool? defaults.scopeCss "scope_css" r
    maxKeywords := ← fieldOr? Value.nat? defaults.maxKeywords "max_keywords" r }

/-- The checked settings that a document gives. -/
def ofYaml (s : Text) : Except Failure Settings :=
  match (Document.read? s).bind (ofValue? ·.value) with
  | none => .error .document
  | some settings => match settings.check with
    | .ok () => .ok settings
    | .error e => .error (.settings e)

end Settings

end WidgetCompiler
