import WidgetCompiler.Markup.Reference
import WidgetCompiler.Yaml.Cursor

/-!
# Tags and directives

A tag says what kind of thing a node is.  It stands between angle brackets, or is a handle with a
suffix; directives at the beginning of a document say what its handles stand for, and two handles
have a meaning without that.

Some characters of a tag can only be written as octets behind percent signs, so a tag is read as
octets.  `tagName?` puts the meaning of the handle before the suffix and reads both as text.
-/

namespace WidgetCompiler.Yaml

open Text

/-! ## Octets -/

/-- Whether the character may stand in the name of an anchor or of a handle. -/
def isNameChar (c : Char) : Bool := c.isAlphanum || c == '_' || c == '-'

/-- Whether the character may stand in a tag.  Commas and square brackets are for those tags only
that no bracket of the document can be mixed up with. -/
def isTagChar (wide : Bool) (c : Char) : Bool :=
  isNameChar c || List.contains ";/?:@&=+$.%!~*'()".toList c
    || (wide && (c == ',' || c == '[' || c == ']'))

/-- The octets that a text stands for, in which two digits behind a percent sign are one octet. -/
def tagOctets? : Text → Option (List UInt8)
  | [] => some []
  | '%' :: a :: b :: s =>
    if Markup.isHexDigit a && Markup.isHexDigit b then
      (tagOctets? s).map (UInt8.ofNat (Markup.hexValue [a, b]) :: ·)
    else none
  | '%' :: _ => none
  | c :: s => (tagOctets? s).map (UInt8.ofNat c.toNat :: ·)

/-- Whether every octet that begins a character is followed by as many others as it asks for; so
many are still to come. -/
def isFramed (pending : Nat) : List UInt8 → Bool
  | [] => pending == 0
  | o :: s =>
    let n := o.toNat
    match pending with
    | pending + 1 => 0x80 ≤ n && n < 0xC0 && isFramed pending s
    | 0 =>
      if n < 0x80 then isFramed 0 s
      else if 0xC0 ≤ n && n < 0xE0 then isFramed 1 s
      else if 0xE0 ≤ n && n < 0xF0 then isFramed 2 s
      else if 0xF0 ≤ n && n < 0xF8 then isFramed 3 s
      else false

/-- The octets of the tag, or of the part of it, that a text begins with, and the text behind it.
A null ends what counts. -/
def tagPart? (wide : Bool) (s : Text) : Option (List UInt8 × Text) :=
  match tagOctets? (s.takeWhile (isTagChar wide)) with
  | some octets =>
    if isFramed 0 octets then some (octets.takeWhile (· != 0), s.dropWhile (isTagChar wide))
    else none
  | none => none

/-- As `tagPart?`, for a part that must be there. -/
def someTagPart? (wide : Bool) (s : Text) : Option (List UInt8 × Text) :=
  if s.head?.any (isTagChar wide) then tagPart? wide s else none

/-- The octets of a text in ASCII. -/
def asciiOctets (s : Text) : List UInt8 := s.map fun c => UInt8.ofNat c.toNat

/-- The text that octets encode.  Octets that encode none leave no name. -/
def textOfOctets (octets : List UInt8) : Text :=
  ((String.fromUTF8? ⟨octets.toArray⟩).map String.toList).getD []

/-! ## Tags -/

/-- The tag that a text behind an exclamation mark begins with: its handle, its suffix, and the text
behind it.  A tag in angle brackets and the mark alone have no handle. -/
def tag? (s : Text) : Option (Text × List UInt8 × Text) :=
  match s with
  | '<' :: s => match someTagPart? true s with
    | some (octets, '>' :: rest) => some ([], octets, rest)
    | _ => none
  | s =>
    match s.dropWhile isNameChar with
    | '!' :: rest => (someTagPart? false rest).map fun (octets, rest) =>
        ('!' :: s.takeWhile isNameChar ++ ['!'], octets, rest)
    | _ => (tagPart? false s).map fun (octets, rest) =>
        if octets.isEmpty then ([], asciiOctets ['!'], rest) else (['!'], octets, rest)

/-- What handles stand for. -/
abbrev Handles := List (Text × List UInt8)

/-- The handles that have a meaning in every document. -/
def commonHandles : Handles :=
  [(['!'], asciiOctets ['!']), (['!', '!'], asciiOctets "tag:yaml.org,2002:")]

/-- The name of the tag with a handle and a suffix, if the handle is known. -/
def tagName? (handles : Handles) (handle : Text) (suffix : List UInt8) : Option Text :=
  if handle.isEmpty then some (textOfOctets suffix)
  else (handles.lookup handle).map fun meaning => textOfOctets (meaning ++ suffix)

/-- The tag of a common kind. -/
def commonTag (kind : Text) : Text := "tag:yaml.org,2002:".toList ++ kind

/-! ## Directives -/

/-- What a directive says: the version of the format, or the meaning of a handle. -/
inductive Directive
  | version (major minor : Nat)
  | handle (name : Text) (meaning : List UInt8)
deriving DecidableEq, Repr

/-- A number of at most nine digits at the beginning of a text, and the text behind it. -/
def versionNumber? (s : Text) : Option (Nat × Text) :=
  let digits := s.takeWhile Char.isDigit
  if digits.isEmpty || digits.length > 9 then none
  else some (digits.foldl (fun n c => 10 * n + (c.toNat - 48)) 0, s.dropWhile Char.isDigit)

/-- The version at the beginning of a text, and the text behind it. -/
def versionDirective? (s : Text) : Option (Directive × Text) :=
  match versionNumber? s with
  | some (major, '.' :: s) =>
    (versionNumber? s).map fun (minor, rest) => (.version major minor, rest)
  | _ => none

/-- The handle at the beginning of a text, and the text behind it. -/
def handle? (s : Text) : Option (Text × Text) :=
  match s with
  | '!' :: s =>
    match s.takeWhile isNameChar, s.dropWhile isNameChar with
    | name, '!' :: rest => some ('!' :: name ++ ['!'], rest)
    | [], rest => some (['!'], rest)
    | _, _ => none
  | _ => none

/-- The handle and its meaning at the beginning of a text, and the text behind them. -/
def handleDirective? (s : Text) : Option (Directive × Text) :=
  match handle? s with
  | some (name, c :: s) =>
    if isGap c then
      match someTagPart? true (s.dropWhile isGap) with
      | some (meaning, rest) => if atGapOrEnd rest then some (.handle name meaning, rest) else none
      | none => none
    else none
  | _ => none

/-- The directive that a text behind a percent sign begins with, and the text behind it. -/
def directive? (s : Text) : Option (Directive × Text) :=
  let name := s.takeWhile isNameChar
  let rest := s.dropWhile isNameChar
  if !atGapOrEnd rest then none
  else if name = "YAML" then versionDirective? (rest.dropWhile isGap)
  else if name = "TAG" then handleDirective? (rest.dropWhile isGap)
  else none

namespace Directive

/-- Whether the directive is about the version. -/
def isVersion : Directive → Bool
  | version _ _ => true
  | handle _ _ => false

/-- Whether the directive names no version but the known ones. -/
def isSupported : Directive → Bool
  | version major minor => major == 1 && (minor == 1 || minor == 2)
  | handle _ _ => true

/-- The handle that the directive gives a meaning. -/
def handle? : Directive → Option (Text × List UInt8)
  | version _ _ => none
  | handle name meaning => some (name, meaning)

end Directive

/-- The handles of a document with the given directives.  There is one version at most, and no
handle has two meanings, but a common handle may get another one. -/
def handlesOf? (directives : List Directive) : Option Handles :=
  let own := directives.filterMap Directive.handle?
  if directives.all Directive.isSupported ∧ (directives.filter Directive.isVersion).length ≤ 1
      ∧ (own.map (·.1)).Nodup then
    some (own ++ commonHandles)
  else none

end WidgetCompiler.Yaml
