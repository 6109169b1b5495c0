import WidgetCompiler.Widget.Source

/-!
# The parts of a source

A source is a tag, code up to the method that shows the widget (`codeBefore`), the line that declares
it, and the rest.  The code before the method begins with a comment and a guard and goes on with the
class: a method for each part of the identity, and the method that registers the controls.
-/

namespace WidgetCompiler

open Text Php

/-- The line that declares the method that shows the widget. -/
def methodLine : Text := memberIndent ++ ("protected function render() \x7b" : Text)

/-- The lines of the comment that names a widget. -/
def commentLines (settings : Settings) (m : Identity) : List Text :=
  ["/**", " * " ++ docText m.title, " *", " * " ++ docText m.description, " *",
    " * @package " ++ docText settings.package, " */"]

/-- The lines that leave when the source is asked for by itself. -/
def guardLines : List Text :=
  ["", "if (!defined('ABSPATH')) \x7b", "    exit; // Exit if accessed directly", "\x7d", []]

/-- The code between the tag and the line that declares the method. -/
def codeBefore (settings : Settings) (m : Identity) (className : Text) (keywords : List Text)
    (sections : List Section) : Text :=
  joinLines (commentLines settings m ++ guardLines ++ classLines className
      ++ identityLines settings m keywords ++ controlsOpening)
    ++ printSections settings.textDomain sections ++ joinLines [memberIndent ++ "\x7d", []]

/-- The methods that answer with the widget's identity, each with the value that it answers with. -/
def getters (settings : Settings) (m : Identity) (keywords : List Text) : List (Text × Text) :=
  let domain := singleQuoted settings.textDomain
  [("get_name", singleQuoted m.name),
    ("get_title", "esc_html__(" ++ singleQuoted m.title ++ ", " ++ domain ++ ")"),
    ("get_icon", singleQuoted m.icon), ("get_categories", "[" ++ singleQuoted m.category ++ "]"),
    ("get_keywords", "[" ++ join ", " (keywords.map singleQuoted) ++ ("]" : Text))]

section

variable {settings : Settings} {m : Identity} {className : Text} {keywords : List Text}
variable {sections : List Section} {plan : Render.Plan}

theorem classSource_eq : classSource settings m className keywords sections plan =
    openTag ++ '\n' :: (codeBefore settings m className keywords sections
      ++ (methodLine ++ '\n' :: (renderBody plan ++ joinLines classEnd))) := by
  simp [classSource, codeBefore, headLines, commentLines, guardLines, renderOpening, methodLine,
    joinLines]

theorem identityLines_eq : identityLines settings m keywords =
    (getters settings m keywords).flatMap fun g => getterLines g.1 g.2 := by
  simp [identityLines, getters]

end

end WidgetCompiler
