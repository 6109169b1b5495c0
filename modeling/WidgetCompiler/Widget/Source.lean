import WidgetCompiler.Control.Printer
import WidgetCompiler.Identity.Basic
import WidgetCompiler.Render.Plan

/-!
# The source of a widget

A widget is written as a class: a comment that names it, methods that answer with its identity, a
method that registers its controls, and a method that shows it.  The last one runs the widget's
plan and then prints the style sheet and the script that the settings hold, each within its tags.
-/

namespace WidgetCompiler

open Text

/-- The indentation of a member of a class. -/
def memberIndent : Text := "    "

/-- The indentation of a statement of a method. -/
def bodyIndent : Text := "        "

/-- The indentation of a statement in a block of a method. -/
def blockIndent : Text := "            "

/-! ## The method that shows the widget -/

/-- Writes what prints the style sheet that the settings hold. -/
def writeStyleBlock (w : Php.Writer) : Php.Writer :=
  let w := w.blankLine
  let w := w.line (bodyIndent ++ "if (!empty($settings['custom_css'])) \x7b")
  let w := w.line (blockIndent ++ "$custom_css = str_replace('selector', '"
    ++ Style.wrapperPlaceholder ++ "', $settings['custom_css']);")
  let w := w.line (blockIndent ++ "$custom_css = str_replace('" ++ Style.wrapperPlaceholder
    ++ "', '.elementor-element-' . $this->get_id(), $custom_css);")
  let w := (w.setIndent blockIndent).leaveCode
  let w := w.markup (blockIndent ++ "<style>\n" ++ blockIndent ++ "    ")
  let w := w.inlineCode "echo $custom_css;"
  let w := w.markup ("\n" ++ blockIndent ++ "</style>\n")
  (w.enterCode.setIndent bodyIndent).line (bodyIndent ++ "\x7d")

/-- Writes what prints the script that the settings hold. -/
def writeScriptBlock (w : Php.Writer) : Php.Writer :=
  let w := w.blankLine
  let w := w.line (bodyIndent ++ "if (!empty($settings['custom_js'])) \x7b")
  let w := (w.setIndent blockIndent).leaveCode
  let w := w.markup (blockIndent ++ "<script>\n" ++ blockIndent ++ "    (function($) \x7b\n"
    ++ blockIndent ++ "        $(document).ready(function() \x7b\n" ++ blockIndent
    ++ "            ")
  let w := w.inlineCode "echo $settings['custom_js'];"
  let w := w.markup ("\n" ++ blockIndent ++ "        \x7d);\n" ++ blockIndent
    ++ "    \x7d)(jQuery);\n" ++ blockIndent ++ "</script>\n")
  (w.enterCode.setIndent bodyIndent).line (bodyIndent ++ "\x7d")

/-- The body of the method that shows the widget. -/
def renderBody (plan : Render.Plan) : Text :=
  let w := Php.Writer.start bodyIndent
  let w := w.line (bodyIndent ++ "$settings = $this->get_settings_for_display();")
  (writeScriptBlock (writeStyleBlock (plan.write w bodyIndent))).finish

/-! ## The class -/

/-- A text on one line that does not end the comment in which it stands. -/
def docText (t : Text) : Text := replace "*/" "* /" (collapseBlanks t)

/-- The lines of a method that answers with a value. -/
def getterLines (name value : Text) : List Text :=
  [[], memberIndent ++ "public function " ++ name ++ "() \x7b",
    bodyIndent ++ "return " ++ value ++ ";", memberIndent ++ "\x7d"]

/-- The lines up to the class, with the comment that names the widget. -/
def headLines (settings : Settings) (m : Identity) : List Text :=
  [Php.openTag, "/**", " * " ++ docText m.title, " *", " * " ++ docText m.description, " *",
    " * @package " ++ docText settings.package, " */", "", "if (!defined('ABSPATH')) \x7b",
    "    exit; // Exit if accessed directly", "\x7d", []]

/-- The lines of the methods that answer with the widget's identity. -/
def identityLines (settings : Settings) (m : Identity) (keywords : List Text) : List Text :=
  let domain := Php.singleQuoted settings.textDomain
  getterLines "get_name" (Php.singleQuoted m.name)
    ++ getterLines "get_title"
      ("esc_html__(" ++ Php.singleQuoted m.title ++ ", " ++ domain ++ ")")
    ++ getterLines "get_icon" (Php.singleQuoted m.icon)
    ++ getterLines "get_categories" ("[" ++ Php.singleQuoted m.category ++ "]")
    ++ getterLines "get_keywords" ("[" ++ join ", " (keywords.map Php.singleQuoted) ++ ("]" : Text))

/-- The lines that open the class. -/
def classLines (className : Text) : List Text :=
  ["class " ++ className ++ " extends \\Elementor\\Widget_Base \x7b"]

/-- The lines that open the method that registers the controls. -/
def controlsOpening : List Text :=
  [[], memberIndent ++ "protected function register_controls() \x7b"]

/-- The lines that open the method that shows the widget, behind the one before. -/
def renderOpening : List Text :=
  [memberIndent ++ "\x7d", [], memberIndent ++ "protected function render() \x7b"]

/-- The lines that end the class. -/
def classEnd : List Text := [memberIndent ++ "\x7d", "\x7d"]

/-- The source of a widget. -/
def classSource (settings : Settings) (m : Identity) (className : Text) (keywords : List Text)
    (sections : List Section) (plan : Render.Plan) : Text :=
  joinLines (headLines settings m ++ classLines className ++ identityLines settings m keywords
      ++ controlsOpening)
    ++ printSections settings.textDomain sections
    ++ joinLines renderOpening ++ renderBody plan ++ joinLines classEnd

end WidgetCompiler
