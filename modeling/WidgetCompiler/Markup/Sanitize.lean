import WidgetCompiler.Text.Pattern

/-!
# Reducing markup to a fragment

A widget holds a fragment of a page.  `sanitize` takes out of the markup what does not belong into
a fragment: comments, the document type, the tags of the page itself with the whole head, and
processing instructions.  Style and script blocks go as well, and their bodies are kept aside.

The pieces go in this order, each of them from the text that the one before has left: comments,
style blocks, script blocks, the page's own tags, instructions.  What then still looks like the
beginning of an instruction is written as a reference, so that the fragment opens no code when it
is copied into a page.
-/

namespace WidgetCompiler.Markup

open Text

/-- A fragment, and the bodies of the blocks that were taken out of it. -/
structure Sanitized where
  markup : Text
  /-- The bodies of the style blocks, without the blanks around them and without empty ones. -/
  styles : List Text
  /-- The bodies of the script blocks that name no source, likewise. -/
  scripts : List Text
deriving Inhabited

namespace Sanitize

/-- A comment. -/
def comment : Pattern Unit := fun _ s =>
  match after? "<!--" s with
  | some s => (cut? "-->" s).map fun (_, rest) => ((), rest)
  | none => none

/-- The rest of a tag behind its name: what stands before the `>`. -/
def tagRest? (s : Text) : Option (Text × Text) :=
  if wordEnds s then cutAt? (· == '>') s else none

/-- The end tag of a block. -/
def blockEnd (name : Text) : Pattern Unit := fun _ s =>
  match afterAnyCase? ('<' :: '/' :: name) s with
  | some s => match afterBlanks s with
    | '>' :: rest => some ((), rest)
    | _ => none
  | none => none

/-- A block from its start tag to the next end tag of that name: the text in the start tag behind
the name, and the body. -/
def block (name : Text) : Pattern (Text × Text) := fun _ s =>
  match afterAnyCase? ('<' :: name) s with
  | some s => match tagRest? s with
    | some (attributes, s) =>
      (Pattern.find? (blockEnd name) none s).map fun (body, _, rest) => ((attributes, body), rest)
    | none => none
  | none => none

/-- A tag that begins with the given text. -/
def tagOf (start : Text) : Pattern Unit := fun _ s =>
  match afterAnyCase? start s with
  | some s => (tagRest? s).map fun (_, rest) => ((), rest)
  | none => none

/-- The document type. -/
def documentType : Pattern Unit := fun _ s =>
  match afterAnyCase? "<!doctype" s with
  | some s => (cutAt? (· == '>') s).map fun (_, rest) => ((), rest)
  | none => none

/-- What belongs to the page and not to a fragment of it. -/
def pageTag : Pattern Unit := fun prev s =>
  documentType prev s
    <|> (block "head" prev s).map (fun (_, rest) => ((), rest))
    <|> tagOf "<html" prev s <|> tagOf "</html" prev s
    <|> tagOf "<body" prev s <|> tagOf "</body" prev s

/-- A processing instruction, which ends at the next `>`. -/
def instruction : Pattern Unit := fun _ s =>
  match after? "<?" s with
  | some s => (cutAt? (· == '>') s).map fun (_, rest) => ((), rest)
  | none => none

/-- An attribute that names the source of a script. -/
def sourceAttribute : Pattern Unit := fun prev s =>
  if wordMayBegin prev then
    match afterAnyCase? "src" s with
    | some s => match afterBlanks s with
      | '=' :: rest => some ((), rest)
      | _ => none
    | none => none
  else none

/-- The bodies, without the blanks around them and without empty ones. -/
def nonEmptyBodies (bodies : List Text) : List Text :=
  (bodies.map trim).filter (! ·.isEmpty)

end Sanitize

open Sanitize in
/-- The fragment of the markup, and the bodies of its style and script blocks. -/
def sanitize (markup : Text) : Sanitized :=
  let s := (Pattern.extract comment markup).1
  let (s, styles) := Pattern.extract (block "style") s
  let (s, scripts) := Pattern.extract (block "script") s
  let s := (Pattern.extract pageTag s).1
  let s := (Pattern.extract instruction s).1
  { markup := trim (replace "<?" "&lt;?" s)
    styles := nonEmptyBodies (styles.map (·.2))
    scripts := nonEmptyBodies
      ((scripts.filter fun (attributes, _) =>
        !Pattern.occursIn sourceAttribute attributes).map (·.2)) }

end WidgetCompiler.Markup
