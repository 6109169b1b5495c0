import WidgetCompiler.Markup.Reference
import WidgetCompiler.Text.Lowercase
import WidgetCompiler.Text.Pattern

/-!
# Tokens of a document

The pieces that a document is read into before its tree is built: runs of characters, start and end
tags, comments and document type declarations.  `Token.read` reads the next piece of ordinary
content.  Inside some elements the content is raw text; `rawText` and `scriptText` find where it
ends.

Reading never fails: an angle bracket that begins no piece is a character, and a tag that the text
ends in is dropped with the rest of the text.
-/

namespace WidgetCompiler.Markup

open Text

/-! ## The pieces -/

/-- A tag: its name in small letters, its attributes in order and without repetition, and whether a
slash closes it. -/
structure Tag where
  name : Text
  attributes : List (Text × Text)
  selfClosing : Bool
deriving DecidableEq, Repr

/-- A document type declaration.  It is broken when it ends before it is complete. -/
structure Doctype where
  name : Option Text
  publicId : Option Text
  systemId : Option Text
  broken : Bool
deriving DecidableEq, Repr

/-- A piece of a document. -/
inductive Token
  | chars (text : Text)
  | startTag (tag : Tag)
  | endTag (tag : Tag)
  | comment
  | doctype (declaration : Doctype)
deriving DecidableEq, Repr

/-- Every null character exchanged for the replacement character. -/
def replaceNulls (s : Text) : Text :=
  s.map fun c => if c = '\x00' then replacementChar else c

/-! ## Tags -/

/-- Where in a tag, behind its name, the reader stands.  Names and values being read are kept with
their last character first. -/
inductive TagPlace
  | beforeName
  | inName (name : Text)
  | afterName (name : Text)
  | beforeValue (name : Text)
  | inQuoted (quote : Char) (name value : Text)
  | inBare (name value : Text)
  | afterQuoted
  | afterSlash

/-- The attributes with one more, unless its name is already there. -/
def addAttribute (attributes : List (Text × Text)) (name value : Text) : List (Text × Text) :=
  let name := replaceNulls (lowerAscii name.reverse)
  if attributes.any (·.1 == name) then attributes
  else attributes ++ [(name, decodeReferences true (replaceNulls value.reverse))]

/-- What one character of a tag leads to: a new place, or the end of the tag, closed by a slash or
not. -/
inductive TagStep
  | go (attributes : List (Text × Text)) (place : TagPlace)
  | done (attributes : List (Text × Text)) (selfClosing : Bool)

/-- The step of a character where an attribute, a slash or the end of the tag may come. -/
def stepBeforeName (attributes : List (Text × Text)) (c : Char) : TagStep :=
  if isAsciiBlank c then .go attributes .beforeName
  else if c = '/' then .go attributes .afterSlash
  else if c = '>' then .done attributes false
  else .go attributes (.inName [c])

/-- The step of one character of a tag. -/
def tagStep (attributes : List (Text × Text)) (place : TagPlace) (c : Char) : TagStep :=
  match place with
  | .beforeName => stepBeforeName attributes c
  | .inName name =>
    if isAsciiBlank c then .go attributes (.afterName name)
    else if c = '/' then .go (addAttribute attributes name []) .afterSlash
    else if c = '>' then .done (addAttribute attributes name []) false
    else if c = '=' then .go attributes (.beforeValue name)
    else .go attributes (.inName (c :: name))
  | .afterName name =>
    if isAsciiBlank c then .go attributes (.afterName name)
    else if c = '=' then .go attributes (.beforeValue name)
    else stepBeforeName (addAttribute attributes name []) c
  | .beforeValue name =>
    if isAsciiBlank c then .go attributes (.beforeValue name)
    else if c = '"' ∨ c = '\'' then .go attributes (.inQuoted c name [])
    else if c = '>' then .done (addAttribute attributes name []) false
    else .go attributes (.inBare name [c])
  | .inQuoted quote name value =>
    if c = quote then .go (addAttribute attributes name value) .afterQuoted
    else .go attributes (.inQuoted quote name (c :: value))
  | .inBare name value =>
    if isAsciiBlank c then .go (addAttribute attributes name value) .beforeName
    else if c = '>' then .done (addAttribute attributes name value) false
    else .go attributes (.inBare name (c :: value))
  | .afterQuoted => stepBeforeName attributes c
  | .afterSlash =>
    if c = '>' then .done attributes true
    else stepBeforeName attributes c

/-- The attributes from a place in a tag on, whether a slash closes the tag, and the text behind
it. -/
def readAttributes (attributes : List (Text × Text)) (place : TagPlace) :
    Text → Option (List (Text × Text) × Bool × Text)
  | [] => none
  | c :: s => match tagStep attributes place c with
    | .go attributes place => readAttributes attributes place s
    | .done attributes selfClosing => some (attributes, selfClosing, s)

/-- Whether a character ends the name of a tag. -/
def endsTagName (c : Char) : Bool := isAsciiBlank c || c == '/' || c == '>'

/-- A tag, read from its name on, and the text behind it. -/
def readTag (s : Text) : Option (Tag × Text) :=
  let name := s.takeWhile fun c => !endsTagName c
  (readAttributes [] .beforeName (s.dropWhile fun c => !endsTagName c)).map
    fun (attributes, selfClosing, rest) =>
      (⟨replaceNulls (lowerAscii name), attributes, selfClosing⟩, rest)

/-! ## Comments and declarations -/

/-- The text behind the first `>`, which ends a malformed comment and every declaration. -/
def afterBracket (s : Text) : Text := (s.dropWhile (· != '>')).drop 1

/-- The text behind the end of a comment, searched behind its first character. -/
def afterCommentEnd : Text → Text
  | [] => []
  | '-' :: '-' :: '>' :: s => s
  | '-' :: '-' :: '!' :: '>' :: s => s
  | _ :: s => afterCommentEnd s

/-- The text behind a comment, read behind its opening. -/
def afterComment : Text → Text
  | '>' :: s => s
  | '-' :: '>' :: s => s
  | s => afterCommentEnd s

/-- An identifier in quotes, and the rest; an identifier that does not end is broken. -/
def quotedIdentifier (quote : Char) (s : Text) : Text × Text × Bool :=
  match cutAt? (· == quote) s with
  | some (id, rest) => (id, rest, false)
  | none => (s, [], true)

/-- The text behind its leading blanks. -/
def skipAsciiBlanks (s : Text) : Text := s.dropWhile isAsciiBlank

/-- The part of a declaration from where a system identifier may stand.  `required` says whether
there has to be one. -/
def readSystemId (name : Text) (publicId : Option Text) (required : Bool) (s : Text) : Doctype :=
  match skipAsciiBlanks s with
  | [] => ⟨some name, publicId, none, required⟩
  | c :: rest =>
    if c = '"' ∨ c = '\'' then
      let (id, _, broken) := quotedIdentifier c rest
      ⟨some name, publicId, some id, broken⟩
    else ⟨some name, publicId, none, true⟩

/-- A document type declaration, given what stands between its keyword and its `>`. -/
def readDoctype (body : Text) : Doctype :=
  match skipAsciiBlanks body with
  | [] => ⟨none, none, none, true⟩
  | s =>
    let name := lowerAscii (s.takeWhile (! isAsciiBlank ·))
    let rest := skipAsciiBlanks (s.dropWhile (! isAsciiBlank ·))
    if rest.isEmpty then ⟨some name, none, none, false⟩
    else
      let keyword := lowerAscii (rest.take 6)
      match after? "public" keyword, after? "system" keyword with
      | some _, _ =>
        match skipAsciiBlanks (rest.drop 6) with
        | c :: r =>
          if c = '"' ∨ c = '\'' then
            let (id, r, broken) := quotedIdentifier c r
            if broken then ⟨some name, some id, none, true⟩ else readSystemId name (some id) false r
          else ⟨some name, none, none, true⟩
        | [] => ⟨some name, none, none, true⟩
      | _, some _ => readSystemId name none true (rest.drop 6)
      | none, none => ⟨some name, none, none, true⟩

/-- The document types that are laid out the old way, under their owners. -/
def oldTypes : List (String × List String) := [
  ("advasoft ltd", ["html 3.0 aswedit + extensions"]),
  ("as", ["html 3.0 aswedit + extensions"]),
  ("ietf", ["html 2.0 level 1", "html 2.0 level 2", "html 2.0 strict level 1",
    "html 2.0 strict level 2", "html 2.0 strict", "html 2.0", "html 2.1e", "html 3.0",
    "html 3.2 final", "html 3.2", "html 3", "html level 0", "html level 1", "html level 2",
    "html level 3", "html strict level 0", "html strict level 1", "html strict level 2",
    "html strict level 3", "html strict", "html"]),
  ("metrius", ["metrius presentational"]),
  ("microsoft", ["internet explorer 2.0 html strict", "internet explorer 2.0 html",
    "internet explorer 2.0 tables", "internet explorer 3.0 html strict",
    "internet explorer 3.0 html", "internet explorer 3.0 tables"]),
  ("netscape comm. corp.", ["html", "strict html"]),
  ("o'reilly and associates", ["html 2.0", "html extended 1.0", "html extended relaxed 1.0"]),
  ("softquad software", ["hotmetal pro 6.0::19990601::extensions to html 4.0"]),
  ("softquad", ["hotmetal pro 4.0::19971010::extensions to html 4.0"]),
  ("spyglass", ["html 2.0 extended"]),
  ("sq", ["html 2.0 hotmetal + extensions"]),
  ("sun microsystems corp.", ["hotjava html", "hotjava strict html"]),
  ("w3c", ["html 3 1995-03-24", "html 3.2 draft", "html 3.2 final", "html 3.2", "html 3.2s draft",
    "html 4.0 frameset", "html 4.0 transitional", "html experimental 19960712",
    "html experimental 970421", "w3 html"]),
  ("w3o", ["w3 html 3.0"]),
  ("webtechs", ["mozilla html 2.0", "mozilla html"])]

/-- The document types that are laid out the old way unless a system identifier is given. -/
def oldTypesWithoutSystem : List (String × List String) := [
  ("w3c", ["html 4.01 frameset", "html 4.01 transitional"])]

/-- Whether a public identifier in small letters names one of the document types, in whatever
language. -/
def namesType (types : List (String × List String)) (id : Text) : Bool :=
  types.any fun (owner, names) => names.any fun name =>
    startsWith id ("-//".toList ++ owner.toList ++ "//dtd ".toList ++ name.toList ++ "//".toList)

/-- The public identifiers that ask for the old layout as they are. -/
def oldPublicIds : List Text := [
  "-//w3o//dtd w3 html strict 3.0//en//", "-/w3c/dtd html 4.0 transitional/en", "html"]

/-- The parts between the slashes of the system identifier that asks for the old layout. -/
def oldSystemId : List Text := [
  "http:", "", "www.ibm.com", "data", "dtd", "v11", "ibmxhtml1-transitional.dtd"]

/-- Whether the declaration asks for the old layout rules, under which a table may stand in a
paragraph. -/
def Doctype.isOld (d : Doctype) : Bool :=
  let publicId := d.publicId.map lowerAscii
  d.broken || d.name != some "html".toList
    || publicId.any (fun id => oldPublicIds.contains id || namesType oldTypes id)
    || d.systemId.any (fun id => splitOn (· == '/') (lowerAscii id) == oldSystemId)
    || (d.systemId.isNone && publicId.any (namesType oldTypesWithoutSystem))

/-! ## The next piece -/

/-- The piece behind `<!`.  Where character data sections count, they run to `]]>`. -/
def readDeclaration (foreign : Bool) (s : Text) : Token × Text :=
  match after? "--" s with
  | some rest => (.comment, afterComment rest)
  | none =>
    if lowerAscii (s.take 7) = "doctype".toList then
      let body := (s.drop 7).takeWhile (· != '>')
      let rest := (s.drop 7).dropWhile (· != '>')
      let declaration := readDoctype body
      (.doctype { declaration with broken := declaration.broken || rest.isEmpty }, rest.drop 1)
    else if foreign then
      match after? "[CDATA[" s with
      | some rest =>
        match cut? "]]>" rest with
        | some (data, rest) => (.chars data, rest)
        | none => (.chars rest, [])
      | none => (.comment, afterBracket s)
    else (.comment, afterBracket s)

/-- The piece behind `<`. -/
def readMarkup (foreign : Bool) : Text → Option Token × Text
  | '!' :: s => let (token, rest) := readDeclaration foreign s; (some token, rest)
  | '?' :: s => (some .comment, afterBracket s)
  | '/' :: [] => (some (.chars "</"), [])
  | '/' :: c :: s =>
    if c = '>' then (none, s)
    else if c.isAlpha then
      match readTag (c :: s) with
      | some (tag, rest) => (some (.endTag tag), rest)
      | none => (none, [])
    else (some .comment, afterBracket (c :: s))
  | c :: s =>
    if c.isAlpha then
      match readTag (c :: s) with
      | some (tag, rest) => (some (.startTag tag), rest)
      | none => (none, [])
    else (some (.chars "<"), c :: s)
  | [] => (some (.chars "<"), [])

/-- The next piece of ordinary content and the text behind it.  A piece that leaves nothing behind,
such as `</>`, gives no token.  `foreign` says whether character data sections count. -/
def Token.read (foreign : Bool) (s : Text) : Option Token × Text :=
  match s with
  | '<' :: rest => readMarkup foreign rest
  | s => (some (.chars (decodeReferences false (s.takeWhile (· != '<')))), s.dropWhile (· != '<'))

/-! ## Raw text -/

/-- How the text inside an element is read: with or without references, as a script, or as plain
text to the end of the document. -/
inductive RawKind
  | withReferences
  | verbatim
  | script
  | plain
deriving DecidableEq, Repr

/-- Whether the end tag of the element `name` begins here. -/
def endTagBegins (name s : Text) : Bool :=
  match after? "</" s with
  | some rest =>
    lowerAscii (rest.take name.length) == name && (rest.drop name.length).head?.any endsTagName
  | none => false

/-- The raw text up to the end tag of the element `name`, and the rest from the tag on. -/
def rawText (name : Text) : Text → Text × Text
  | [] => ([], [])
  | c :: s =>
    if endTagBegins name (c :: s) then ([], c :: s)
    else let (text, rest) := rawText name s; (c :: text, rest)

/-- Whether a script is inside a comment, and there inside a script of the comment.  Both count the
dashes that were just read. -/
inductive ScriptPlace
  | code
  | comment (dashes : Nat)
  | commentedScript (dashes : Nat)

/-- The text of a script up to its end tag, and the rest from the tag on.  An end tag inside a
script of a comment does not count. -/
def scriptText (place : ScriptPlace) : Text → Text × Text
  | [] => ([], [])
  | c :: s =>
    let closes :=
      match place with
      | .code | .comment _ => endTagBegins "script" (c :: s)
      | .commentedScript _ => false
    if closes then ([], c :: s)
    else
      let next : ScriptPlace :=
        match place with
        | .code => if startsWith (c :: s) "<!--" then .comment 0 else .code
        | .comment dashes =>
          if c = '-' then .comment (dashes + 1)
          else if c = '>' ∧ dashes ≥ 2 then .code
          else if c = '<' ∧ lowerAscii (s.take 6) = "script".toList
              ∧ (s.drop 6).head?.any endsTagName then .commentedScript 0
          else .comment 0
        | .commentedScript dashes =>
          if c = '-' then .commentedScript (dashes + 1)
          else if c = '>' ∧ dashes ≥ 2 then .code
          else if endTagBegins "script" (c :: s) then .comment 0
          else .commentedScript 0
      let (text, rest) := scriptText next s
      (c :: text, rest)

/-- The raw text of the element `name`, decoded as its kind asks, and the rest. -/
def RawKind.read (kind : RawKind) (name s : Text) : Text × Text :=
  match kind with
  | .withReferences =>
    let (text, rest) := rawText name s
    (decodeReferences false (replaceNulls text), rest)
  | .verbatim => let (text, rest) := rawText name s; (replaceNulls text, rest)
  | .script => let (text, rest) := scriptText .code s; (replaceNulls text, rest)
  | .plain => (replaceNulls s, [])

/-- The text with one line feed for every kind of line end. -/
def normalizeLineEnds : Text → Text
  | [] => []
  | '\r' :: '\n' :: s => '\n' :: normalizeLineEnds s
  | '\r' :: s => '\n' :: normalizeLineEnds s
  | c :: s => c :: normalizeLineEnds s

/-- The text behind a byte order mark that it may begin with. -/
def dropByteOrderMark : Text → Text
  | '\ufeff' :: s => s
  | s => s

/-- The text that a document is read from. -/
def documentText (s : Text) : Text := normalizeLineEnds (dropByteOrderMark s)

end WidgetCompiler.Markup
