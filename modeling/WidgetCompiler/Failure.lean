import WidgetCompiler.Catalog.Basic
import WidgetCompiler.Identity.Basic
import WidgetCompiler.Validation.Report

/-!
# Failures

Why no widget is delivered.
-/

namespace WidgetCompiler

open Text

/-- Why something that was asked for is not done. -/
inductive Failure
  /-- A document is malformed or does not say what it has to. -/
  | document
  | catalog (e : CatalogError)
  | settings (e : SettingsError)
  | name (e : NameError)
  /-- The source was refused. -/
  | invalid (report : Validation.Report) (source : Text)
  /-- The source has characters with which it cannot be checked. -/
  | uncheckable
  /-- A file cannot be read or written. -/
  | file (reason : Text)
deriving Repr

/-- The failure in words. -/
def Failure.message : Failure → Text
  | document => "YAML error"
  | catalog e => e.message
  | settings e => e.message
  | name e => e.message
  | invalid report _ =>
    "Generated widget failed validation with " ++ decimal report.errors.length ++ " error(s)"
  | uncheckable => "The source cannot be checked"
  | file reason => "I/O error: " ++ reason

end WidgetCompiler
