import WidgetCompiler.Catalog.Basic
import WidgetCompiler.Php.Literal
import WidgetCompiler.Style.Prepare
import WidgetCompiler.Validation.RenderModes

/-!
# Marks of trouble

Checks that look for a pattern anywhere in a source: pieces of a whole page, changes of mode with
nothing in between, values printed without being escaped, selectors of the whole page in the
widget's style sheet, and settings looked up under what is no identifier; and the check that the
class and its methods are there.
-/

namespace WidgetCompiler.Validation

open Text

/-! ## Changes of mode -/

/-- The keywords for which code is left and entered again. -/
def transitionKeywords : List Text :=
  ["echo", "if", "else", "elseif", "endif", "foreach", "endforeach", "while", "endwhile"]

/-- Code that is left and entered again, with the word that then follows. -/
def transition : Pattern Text := fun _ s =>
  match (after? Php.closeTag s).map afterBlanks with
  | some s => match (after? Php.openTag s).bind afterSomeBlanks? with
    | some s => some (s.takeWhile isWordPart, s.dropWhile isWordPart)
    | none => none
  | none => none

/-- The finding that code is left for nothing, in the first line where it is. -/
def checkTransitions (s : Source) : List Issue :=
  match (Pattern.findAll transition s.text).filter (!transitionKeywords.contains ·.value) with
  | [] => []
  | first :: more => [s.issueAt (.redundantTransitions (more.length + 1)) first.offset]

/-! ## Pieces of a page -/

/-- A tag of a page, with something behind its name that ends it. -/
def pageTagNamed (name : Text) : Pattern Unit := fun _ s =>
  match afterAnyCase? ('<' :: name) s with
  | some (c :: rest) => if isBlank c || c == '>' then some ((), rest) else none
  | _ => none

/-- A text in letters of any case. -/
def anyCase (mark : Text) : Pattern Unit := fun _ s => (afterAnyCase? mark s).map fun r => ((), r)

/-- What belongs to a whole page, with its name. -/
def pagePatterns : List (Pattern Unit × Text) := [
  (anyCase "<!doctype", "<!DOCTYPE> declaration"),
  (pageTagNamed "html", "<html> opening tag"),
  (anyCase "</html>", "</html> closing tag"),
  (pageTagNamed "head", "<head> section"),
  (pageTagNamed "body", "<body> tag")]

/-- The findings on pieces of a page, one for each sort. -/
def checkPageStructure (s : Source) : List Issue :=
  pagePatterns.filterMap fun (pattern, what) =>
    (Pattern.findOffset? pattern s.text).map fun offset => s.issueAt (.pageStructure what) offset

/-! ## Values that are not escaped -/

/-- The controls that hold code, which is printed as it is. -/
def rawCodeControls : List Text := ["custom_css", "custom_js"]

/-- A setting that is printed as it is, with its id. -/
def plainEcho : Pattern Text := fun _ s =>
  let opened := (after? "echo" s).bind afterSomeBlanks?
    <|> (after? shortEchoTag s).map afterBlanks
  match opened.bind (after? "$settings[") with
  | some s =>
    let s := match afterBlanks s with
      | c :: r => if Style.isQuote c then r else c :: r
      | [] => []
    let inId (c : Char) : Bool := !(Style.isQuote c || c == ']')
    some (s.takeWhile inId, s.dropWhile inId)
  | none => none

/-- The finding on values that are not escaped, in the first line where one is. -/
def checkEscaping (s : Source) : List Issue :=
  match (Pattern.findAll plainEcho s.text).filter (!rawCodeControls.contains ·.value) with
  | [] => []
  | first :: more =>
    [{ (Problem.unescapedValues (more.length + 1)).issue with
        line := some (s.lineNumber first.offset) }]

/-! ## The widget's style sheet -/

/-- The body of a literal whose quote was opened, and the text behind its end.  A backslash takes
the next character with it, unless that is a line feed. -/
def quotedBody? (quote : Char) : Text → Option (Text × Text)
  | [] => none
  | '\\' :: c :: s =>
    if c = '\n' then none
    else (quotedBody? quote s).map fun (body, rest) => ('\\' :: c :: body, rest)
  | c :: s =>
    if c = quote then some ([], s)
    else if c = '\\' then none
    else (quotedBody? quote s).map fun (body, rest) => (c :: body, rest)

/-- The literal at the beginning of a text: its quote, its body, and the text behind it. -/
def quotedLiteral? : Text → Option (Char × Text × Text)
  | [] => none
  | c :: s =>
    if Style.isQuote c then (quotedBody? c s).map fun (body, rest) => (c, body, rest) else none

/-- The literal of the entry with the key `default` at the beginning of a text. -/
def defaultEntry? (s : Text) : Option (Char × Text × Text) :=
  match (after? "'default'" s).map afterBlanks with
  | some s => match (after? "=>" s).map afterBlanks with
    | some s => quotedLiteral? s
    | none => none
  | none => none

/-- The literal of the first entry with the key `default` in a list without brackets.  It is looked
for outside literals, in `fuel` steps at most. -/
def defaultIn? (fuel : Nat) (s : Text) : Option (Char × Text × Text) :=
  match fuel with
  | 0 => none
  | fuel + 1 => match defaultEntry? s with
    | some found => some found
    | none => match s with
      | [] => none
      | c :: r =>
        if c = ']' then none
        else if Style.isQuote c then
          match quotedBody? c r with
          | some (_, rest) => defaultIn? fuel rest
          | none => none
        else defaultIn? fuel r

/-- The value that the control of the widget's style sheet has, as a literal. -/
def customCssDefault : Pattern (Char × Text) := fun _ s =>
  match (after? "'custom_css'," s).map afterBlanks with
  | some ('[' :: s) =>
    (defaultIn? (s.length + 1) s).map fun (quote, body, rest) => ((quote, body), rest)
  | _ => none

/-- The finding on selectors of the whole page in the widget's style sheet. -/
def checkGlobalCss (s : Source) : List Issue :=
  match Pattern.findValue? customCssDefault s.text with
  | some (quote, body) =>
    match sortDistinct ((Style.findGlobal (Php.unescape quote body)).map lowerAscii) with
    | [] => []
    | selectors => [(Problem.globalSelectors selectors).issue]
  | none => []

/-! ## Ids of controls -/

/-- A setting that is looked up under a literal, with the literal's text. -/
def settingsLookup : Pattern Text := fun _ s =>
  match after? "$settings[" s with
  | some (q :: s) =>
    if Style.isQuote q then
      match cutAt? (· == q) s with
      | some (id, ']' :: rest) => some (id, rest)
      | _ => none
    else none
  | _ => none

/-- The findings on ids, each id once, for lookups that follow those of the ids in `seen`. -/
def idIssues (s : Source) (seen : List Text) : List (Found Text) → List Issue
  | [] => []
  | found :: more =>
    if isIdentifier found.value || seen.contains found.value then idIssues s seen more
    else s.issueAt (.invalidControlId found.value) found.offset
      :: idIssues s (found.value :: seen) more

/-- The findings on settings that are looked up under what is no identifier. -/
def checkControlIds (s : Source) : List Issue :=
  idIssues s [] (Pattern.findAll settingsLookup s.text)

/-! ## The class and its methods -/

/-- The declaration of the widget's class. -/
def classDeclaration : Pattern Unit := fun prev s =>
  if wordMayBegin prev then
    match (after? "class" s).bind afterSomeBlanks? with
    | some (c :: s) =>
      if c.isAlpha || c == '_' then
        match afterSomeBlanks? (s.dropWhile fun c => c.isAlphanum || c == '_') with
        | some s =>
          match (after? "extends" s).bind afterSomeBlanks? with
          | some s =>
            let s := match s with
              | '\\' :: r => r
              | s => s
            match after? "Elementor\\Widget_Base" s with
            | some rest => if wordEnds rest then some ((), rest) else none
            | none => none
          | none => none
        | none => none
      else none
    | _ => none
  else none

/-- The methods that a widget has to have. -/
def requiredMethods : List Text :=
  ["get_name", "get_title", "get_icon", "get_categories", "register_controls", "render"]

/-- The findings on the class and its methods. -/
def checkClass (s : Source) : List Issue :=
  (if (Pattern.findOffset? classDeclaration s.text).isSome then [] else [Problem.noClass.issue])
  ++ (requiredMethods.filter fun name =>
        (Pattern.findOffset? (methodNamed name) s.text).isNone).map
      fun name => (Problem.missingMethod name).issue

end WidgetCompiler.Validation
