import WidgetCompiler.CommandLine.Command

/-!
# Help

What is printed when help is asked for.
-/

namespace WidgetCompiler.CommandLine

open Text

/-- The name of the program. -/
def programName : Text := "quickwidget"

/-- The version of the program. -/
def versionLine : Text := "quickwidget 0.1.0"

/-- The help on a topic. -/
def Topic.lines : Topic → List Text
  | program => ([
    "Convert HTML/CSS/JS fragments into validated Elementor widgets", "",
    "Usage: quickwidget <COMMAND>", "", "Commands:",
    "  convert   Generate a widget class from a markup file",
    "  validate  Validate generated widget modules",
    "  catalog   List catalog entries, or show the resolved template of one tag",
    "  help      Print this message or the help of the given subcommand(s)", "", "Options:",
    "  -h, --help     Print help", "  -V, --version  Print version"] : List String).map String.toList
  | convert => ([
    "Generate a widget class from a markup file", "",
    "Usage: quickwidget convert [OPTIONS] --markup <FILE>", "", "Options:",
    "      --markup <FILE>              Markup fragment or full HTML document",
    "      --style <FILE>               Stylesheet embedded as the widget's custom CSS",
    "      --behavior <FILE>            Script embedded as the widget's custom JS",
    "  -o, --output <FILE>              Write the widget here instead of stdout",
    "      --name <NAME>                ", "      --title <TITLE>              ",
    "      --description <DESCRIPTION>  ", "      --category <CATEGORY>        ",
    "      --icon <ICON>                ",
    "      --catalog <FILE>             Catalog file to use instead of the built-in one",
    "      --config <FILE>              Generator settings (YAML)",
    "      --preview                    Emit the markup rendered with default control values instead of the module",
    "  -h, --help                       Print help"] : List String).map String.toList
  | validate => [
    "Validate generated widget modules", [],
    "Usage: quickwidget validate [OPTIONS] <FILE>...", [], "Arguments:",
    "  <FILE>...  PHP files to check", [], "Options:", "      --json  Print results as JSON",
    "  -h, --help  Print help"]
  | catalog => [
    "List catalog entries, or show the resolved template of one tag", [],
    "Usage: quickwidget catalog [OPTIONS] [TAG]", [], "Arguments:", "  [TAG]  Tag to resolve", [],
    "Options:", "      --catalog <FILE>  Catalog file to use instead of the built-in one",
    "  -h, --help            Print help"]
  | help => [
    "Print this message or the help of the given subcommand(s)", [],
    "Usage: quickwidget help [COMMAND]", [], "Commands:",
    "  convert   Generate a widget class from a markup file",
    "  validate  Validate generated widget modules",
    "  catalog   List catalog entries, or show the resolved template of one tag",
    "  help      Print this message or the help of the given subcommand(s)"]

end WidgetCompiler.CommandLine
