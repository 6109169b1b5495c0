import WidgetCompiler.Validation.Markers
import WidgetCompiler.Validation.Quotes

/-!
# Checking a source

`validate?` runs all checks on the source of a widget and puts their findings into a report.
-/

namespace WidgetCompiler.Validation

open Text

/-- The report on a source; nothing if the source has characters outside ASCII anywhere but in line
comments, as literals cannot be told from code then. -/
def validate? (text : Text) : Option Report :=
  let s := Source.ofText text
  (checkQuotes? s).map fun quotes =>
    Report.ofIssues
      (checkRenderModes s ++ checkTransitions s ++ checkPageStructure s ++ checkControlIds s
        ++ quotes ++ checkClass s)
      (checkEscaping s ++ checkGlobalCss s)

end WidgetCompiler.Validation
