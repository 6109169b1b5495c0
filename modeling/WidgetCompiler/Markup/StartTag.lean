import WidgetCompiler.Text.Pattern
import WidgetCompiler.Text.Lowercase

/-!
# Start tags as they are written

To put values into markup one has to know where its tags stand, so here the markup is not read into
elements: `scanStartTags` finds the start tags in it, with their places and with their attributes
as they are written.  Comments are passed over, and so is the content of the elements whose content
is text.

## Main statements

`length_of_readTag?` and `length_of_readAttribute?` say that reading makes progress.
-/

namespace WidgetCompiler.Markup

open Text

/-- An attribute as it is written. -/
structure RawAttribute where
  /-- The name, in small letters. -/
  name : Text
  raw : Text
deriving DecidableEq, Repr

/-- A start tag as it is written. -/
structure StartTag where
  /-- The name, in small letters. -/
  name : Text
  /-- The name as it is written. -/
  rawName : Text
  /-- How many characters precede the tag. -/
  start : Nat
  /-- How many characters precede what follows the tag. -/
  stop : Nat
  attributes : List RawAttribute
  selfClosing : Bool
deriving DecidableEq, Repr

namespace StartTag

/-- Whether the tag has an attribute. -/
def hasAttribute (t : StartTag) (name : Text) : Bool := t.attributes.any (·.name == name)

/-- The attributes as they are written, each after a space. -/
def attributesText (t : StartTag) : Text := t.attributes.flatMap fun a => ' ' :: a.raw

/-- How the tag is closed. -/
def tail (t : StartTag) : Text := if t.selfClosing then " />" else ">"

end StartTag

/-- The characters of a text from one place to another. -/
def slice (s : Text) (start stop : Nat) : Text := (s.take stop).drop start

/-! ## Reading a tag -/

/-- The characters that the name of a tag is made of, behind the first. -/
def isTagNamePart (c : Char) : Bool := c.isAlphanum || c == '-' || c == '_' || c == ':'

/-- The characters that the name of an attribute is made of. -/
def isAttributeNamePart (c : Char) : Bool := !(isAsciiBlank c || c == '=' || c == '>' || c == '/')

/-- The text behind the value of an attribute, given the text behind its name.  There need not be a
value; one in quotes has to be closed. -/
def afterValue? (s : Text) : Option Text :=
  match s.dropWhile isAsciiBlank with
  | '=' :: v => match v.dropWhile isAsciiBlank with
    | '"' :: v => (cutAt? (· == '"') v).map (·.2)
    | '\'' :: v => (cutAt? (· == '\'') v).map (·.2)
    | v => some (v.dropWhile fun c => !(isAsciiBlank c || c == '>'))
  | _ => some s

/-- The attribute at the beginning of a text, and the text behind it. -/
def readAttribute? (s : Text) : Option (RawAttribute × Text) :=
  (afterValue? (s.dropWhile isAttributeNamePart)).map fun rest =>
    (⟨lowerAscii (s.takeWhile isAttributeNamePart), s.take (s.length - rest.length)⟩, rest)

theorem length_of_cutAt? {p : Char → Bool} {s before rest : Text}
    (h : cutAt? p s = some (before, rest)) : rest.length < s.length := by
  induction s generalizing before with
  | nil => simp [cutAt?] at h
  | cons c s ih =>
    unfold cutAt? at h
    split at h
    · obtain ⟨rfl, rfl⟩ := by simpa using h
      simp
    · obtain ⟨⟨b, r⟩, hb, he⟩ := Option.map_eq_some_iff.1 h
      obtain ⟨rfl, rfl⟩ := by simpa using he
      have := ih hb
      simp
      omega

theorem length_of_afterValue? {s rest : Text} (h : afterValue? s = some rest) :
    rest.length ≤ s.length := by
  have drop (p : Char → Bool) (t : Text) : (t.dropWhile p).length ≤ t.length :=
    (List.dropWhile_sublist p).length_le
  unfold afterValue? at h
  split at h
  · next v hv =>
    have h₁ := drop isAsciiBlank s
    have h₂ := drop isAsciiBlank v
    rw [hv] at h₁
    split at h
    · next w hw =>
      obtain ⟨⟨b, r⟩, hb, rfl⟩ := Option.map_eq_some_iff.1 h
      have := length_of_cutAt? hb
      simp only [hw, List.length_cons] at h₁ h₂ ⊢
      omega
    · next w hw =>
      obtain ⟨⟨b, r⟩, hb, rfl⟩ := Option.map_eq_some_iff.1 h
      have := length_of_cutAt? hb
      simp only [hw, List.length_cons] at h₁ h₂ ⊢
      omega
    · obtain rfl := Option.some.inj h
      have := drop (fun c => !(isAsciiBlank c || c == '>')) (v.dropWhile isAsciiBlank)
      simp only [List.length_cons] at h₁ ⊢
      omega
  · obtain rfl := Option.some.inj h
    exact Nat.le_refl _

/-- An attribute that begins with a character of its name is not empty. -/
theorem length_of_readAttribute? {c : Char} {s rest : Text} {a : RawAttribute}
    (hc : isAttributeNamePart c = true) (h : readAttribute? (c :: s) = some (a, rest)) :
    rest.length ≤ s.length := by
  obtain ⟨r, hr, he⟩ := Option.map_eq_some_iff.1 h
  obtain ⟨-, rfl⟩ := Prod.mk.inj he
  have h₁ := length_of_afterValue? hr
  have h₂ := (List.dropWhile_sublist (l := s) isAttributeNamePart).length_le
  rw [List.dropWhile_cons_of_pos hc] at h₁
  omega

/-- What a tag is read into behind its name: the attributes, whether the tag closes itself, and the
text behind the tag.  A tag that does not end is none. -/
def readAttributes? (s : Text) : Option (List RawAttribute × Bool × Text) :=
  match s with
  | [] => none
  | c :: s =>
    if isAsciiBlank c then readAttributes? s
    else if c = '>' then some ([], false, s)
    else if c = '/' ∧ s.head? = some '>' then some ([], true, s.drop 1)
    else if c = '/' ∨ c = '"' ∨ c = '\'' ∨ c = '=' then readAttributes? s
    else match readAttribute? (c :: s) with
      | none => none
      | some (a, rest) =>
        if rest.length ≤ s.length then
          (readAttributes? rest).map fun (as, closing, rest) => (a :: as, closing, rest)
        else none
termination_by s.length

/-- The start tag whose `<` was read: its name as it is written, its attributes, whether it closes
itself, and the text behind it. -/
def readTag? (s : Text) : Option (Text × List RawAttribute × Bool × Text) :=
  match s with
  | [] => none
  | c :: _ =>
    if c.isAlpha then
      (readAttributes? (s.dropWhile isTagNamePart)).map fun (attributes, closing, rest) =>
        (s.takeWhile isTagNamePart, attributes, closing, rest)
    else none

theorem length_of_readAttributes? {s rest : Text} {as : List RawAttribute} {closing : Bool}
    (h : readAttributes? s = some (as, closing, rest)) : rest.length < s.length := by
  fun_induction readAttributes? s generalizing as with
  | case1 => simp at h
  | case2 c s _ ih =>
    have := ih h
    simp
    omega
  | case3 s =>
    obtain ⟨-, -, rfl⟩ := by simpa using h
    simp
  | case4 c s =>
    obtain ⟨-, -, rfl⟩ := by simpa using h
    simp only [List.length_tail, List.length_cons]
    omega
  | case5 c s _ _ _ _ ih =>
    have := ih h
    simp
    omega
  | case6 => simp at h
  | case7 c s _ _ _ _ a r hr hl ih =>
    obtain ⟨⟨as', b, r'⟩, hb, he⟩ := Option.map_eq_some_iff.1 h
    obtain ⟨-, rfl, rfl⟩ := by simpa using he
    have := ih hb
    simp
    omega
  | case8 => simp at h

theorem length_of_readTag? {s rest name : Text} {as : List RawAttribute} {closing : Bool}
    (h : readTag? s = some (name, as, closing, rest)) : rest.length < s.length := by
  unfold readTag? at h
  split at h
  · simp at h
  · next c r =>
    split at h
    · obtain ⟨⟨as', b, r'⟩, hb, he⟩ := Option.map_eq_some_iff.1 h
      obtain ⟨-, -, -, rfl⟩ := by simpa using he
      have h₁ := length_of_readAttributes? hb
      have h₂ := (List.dropWhile_sublist (l := c :: r) isTagNamePart).length_le
      omega
    · simp at h

/-! ## Scanning -/

/-- The elements whose content is text, in which no tags are looked for. -/
def rawTextNames : List Text := ["script", "style", "textarea", "title", "xmp"]

/-- The text from the first place where the end tag of the given name begins. -/
def fromEndTag (name : Text) (s : Text) : Text :=
  match s with
  | [] => []
  | c :: r =>
    if lowerAscii ((c :: r).take (name.length + 2)) = '<' :: '/' :: name then c :: r
    else fromEndTag name r

theorem length_fromEndTag (name s : Text) : (fromEndTag name s).length ≤ s.length := by
  induction s with
  | nil => simp [fromEndTag]
  | cons c r ih =>
    unfold fromEndTag
    split
    · exact Nat.le_refl _
    · simp
      omega

/-- The start tags in a text that `offset` characters precede. -/
def scanFrom (offset : Nat) (s : Text) : List StartTag :=
  match s with
  | [] => []
  | c :: s =>
    if c = '<' then
      match after? "!--" s with
      | some body =>
        match cut? "-->" body with
        | some (_, rest) =>
          if rest.length ≤ s.length then scanFrom (offset + (s.length + 1 - rest.length)) rest
          else []
        | none => []
      | none =>
        match h : readTag? s with
        | none => scanFrom (offset + 1) s
        | some (rawName, attributes, closing, rest) =>
          have := length_of_readTag? h
          let name := lowerAscii rawName
          let stop := offset + (s.length + 1 - rest.length)
          let tag : StartTag := ⟨name, rawName, offset, stop, attributes, closing⟩
          if rawTextNames.contains name && !closing then
            have := length_fromEndTag (lowerAscii rawName) rest
            tag :: scanFrom (stop + (rest.length - (fromEndTag name rest).length))
              (fromEndTag name rest)
          else tag :: scanFrom stop rest
    else scanFrom (offset + 1) s
termination_by s.length

/-- The start tags in markup, from left to right. -/
def scanStartTags (markup : Text) : List StartTag := scanFrom 0 markup

/-- How many characters precede what follows the end tag of the given name that begins at a place,
if one does. -/
def endTagEnd? (markup : Text) (start : Nat) (name : Text) : Option Nat :=
  match after? "</" (markup.drop start) with
  | some s =>
    if lowerAscii (s.take name.length) = lowerAscii name then
      match trimStart (s.drop name.length) with
      | '>' :: rest => some (markup.length - rest.length)
      | _ => none
    else none
  | none => none

end WidgetCompiler.Markup
