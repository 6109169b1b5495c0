import WidgetCompiler.Control.Basic

/-!
# Printing controls

Sections are printed as the calls that register them, a line at a time.  The labels and the
descriptions are passed through the localization function with the widget's text domain.
-/

namespace WidgetCompiler

open Text

/-- The indentation of the calls. -/
def callIndent : Text := "        "

/-- A line of a call, so many steps within it. -/
def callLine (depth : Nat) (t : Text) : Text :=
  callIndent ++ (List.replicate depth ("    " : Text)).flatten ++ t

/-- A text in the language of the reader. -/
def localized (domain t : Text) : Text :=
  "esc_html__(" ++ Php.literal t ++ ", " ++ Php.singleQuoted domain ++ ")"

/-- A constant of the class that knows the controls. -/
def managerConstant (name : Text) : Text := "\\Elementor\\Controls_Manager::" ++ name

namespace Control

/-- The lines of the call that registers a control. -/
def phpLines (domain : Text) (c : Control) : List Text :=
  let entry (key value : Text) : Text := callLine 2 ('\'' :: key ++ "' => " ++ value ++ ",")
  [callLine 0 "$this->add_control(", callLine 1 (Php.singleQuoted c.id ++ ","), callLine 1 "[",
    entry "label" (localized domain c.label), entry "type" (managerConstant c.kind.constant)]
  ++ (match c.language with
    | some language => [entry "language" (Php.singleQuoted language), entry "rows" "20"]
    | none => [])
  ++ (match c.default with
    | some value => [entry "default" value.toPhp]
    | none => [])
  ++ (if c.options.isEmpty then []
    else callLine 2 "'options' => [" :: c.options.map (fun option =>
      callLine 3 (Php.literal option ++ " => " ++ Php.literal option ++ ",")) ++ [callLine 2 "],"])
  ++ (if c.kind.hasUnits then [callLine 2 "'size_units' => ['px', 'em', 'rem', '%'],"] else [])
  ++ (if c.selectors.isEmpty then []
    else callLine 2 "'selectors' => [" :: c.selectors.map (fun (selector, declaration) =>
      callLine 3 (Php.literal selector ++ " => " ++ Php.literal declaration ++ ","))
        ++ [callLine 2 "],"])
  ++ (match c.description with
    | some description => [entry "description" (localized domain description)]
    | none => [])
  ++ (if c.dynamic then [callLine 2 "'dynamic' => ['active' => true],"] else [])
  ++ [callLine 1 "]", callLine 0 ");"]

end Control

namespace Section

/-- The lines of the calls that register a section and its controls. -/
def phpLines (domain : Text) (s : Section) : List Text :=
  [callLine 0 "$this->start_controls_section(", callLine 1 (Php.singleQuoted s.id ++ ","),
    callLine 1 "[", callLine 2 ("'label' => " ++ localized domain s.label ++ ","),
    callLine 2 ("'tab' => " ++ managerConstant s.tab.constant ++ ","), callLine 1 "]",
    callLine 0 ");"]
  ++ s.controls.flatMap (fun c => [] :: c.phpLines domain)
  ++ [[], callLine 0 "$this->end_controls_section();"]

/-- The lines of all sections, with an empty line between neighbours. -/
def allPhpLines (domain : Text) : List Section → List Text
  | [] => []
  | [s] => s.phpLines domain
  | s :: t :: ss => s.phpLines domain ++ [] :: allPhpLines domain (t :: ss)

end Section

/-- The calls that register the sections. -/
def printSections (domain : Text) (sections : List Section) : Text :=
  joinLines (Section.allPhpLines domain sections)

end WidgetCompiler
