import WidgetCompiler.Markup.ReferenceTable

/-!
# Character references

In text and in attribute values an ampersand may begin a reference: to a character by name
(`&amp;`), or by number (`&#38;`, `&#x26;`).  `decodeReferences` exchanges every reference for what
it stands for and leaves every other ampersand alone.

A name is read as far as some name of the table reaches.  In an attribute value a name without a
semicolon is left alone before a letter, a digit or an equals sign, so that the query part of an
address survives.

`decodeReferences_of_no_ampersand` says that a text without ampersands stands for itself.
-/

namespace WidgetCompiler.Markup

open Text

/-! ## By number -/

/-- The characters that the numbers from 128 to 159 stand for, where they are not themselves. -/
def controlReplacements : List (Nat × Nat) := [
  (0x80, 0x20AC), (0x82, 0x201A), (0x83, 0x0192), (0x84, 0x201E), (0x85, 0x2026), (0x86, 0x2020),
  (0x87, 0x2021), (0x88, 0x02C6), (0x89, 0x2030), (0x8A, 0x0160), (0x8B, 0x2039), (0x8C, 0x0152),
  (0x8E, 0x017D), (0x91, 0x2018), (0x92, 0x2019), (0x93, 0x201C), (0x94, 0x201D), (0x95, 0x2022),
  (0x96, 0x2013), (0x97, 0x2014), (0x98, 0x02DC), (0x99, 0x2122), (0x9A, 0x0161), (0x9B, 0x203A),
  (0x9C, 0x0153), (0x9E, 0x017E), (0x9F, 0x0178)]

/-- The replacement character, which stands for what is no character. -/
def replacementChar : Char := '\ufffd'

/-- The character that a number stands for. -/
def charOfNumber (n : Nat) : Char :=
  if n = 0 ∨ n > 0x10FFFF ∨ (0xD800 ≤ n ∧ n ≤ 0xDFFF) then replacementChar
  else match controlReplacements.lookup n with
    | some m => Char.ofNat m
    | none => Char.ofNat n

/-- Whether the character is a hexadecimal digit. -/
def isHexDigit (c : Char) : Bool :=
  c.isDigit || ('a' ≤ c && c ≤ 'f') || ('A' ≤ c && c ≤ 'F')

/-- The rest after an optional semicolon. -/
def dropSemicolon : Text → Text
  | ';' :: s => s
  | s => s

/-- The number that decimal digits stand for. -/
def decimalValue (digits : Text) : Nat :=
  digits.foldl (fun n c => 10 * n + (c.toNat - 48)) 0

/-- A reference by number, read behind `&#`: the character and the rest. -/
def numericReference? (s : Text) : Option (Char × Text) :=
  let (isDigitHere, value, body) :=
    match s with
    | 'x' :: r => (isHexDigit, hexValue, r)
    | 'X' :: r => (isHexDigit, hexValue, r)
    | r => (Char.isDigit, decimalValue, r)
  match body.takeWhile isDigitHere with
  | [] => none
  | digits => some (charOfNumber (value digits), dropSemicolon (body.dropWhile isDigitHere))

/-! ## By name -/

/-- The longest beginning of `run`, of at most `n` characters, that is a name without a semicolon:
what it stands for and its length. -/
def bareName? (run : Text) : Nat → Option (Text × Nat)
  | 0 => none
  | n + 1 =>
    match namedReferences[String.ofList (run.take (n + 1))]? with
    | some r => if r.bare then some (r.text, n + 1) else bareName? run n
    | none => bareName? run n

/-- A reference by name, read behind `&`: the characters and the rest. -/
def namedReference? (inAttribute : Bool) (s : Text) : Option (Text × Text) :=
  let run := s.takeWhile Char.isAlphanum
  let closed : Option (Text × Text) :=
    match s.drop run.length with
    | ';' :: rest => (namedReferences[String.ofList run]?).map fun r => (r.text, rest)
    | _ => none
  match closed with
  | some found => some found
  | none =>
    match bareName? run (min run.length 32) with
    | some (text, length) =>
      let rest : Text := s.drop length
      if inAttribute && rest.head?.any (fun c : Char => c.isAlphanum || c == '=') then none
      else some (text, rest)
    | none => none

/-! ## Decoding -/

/-- The reference behind an ampersand, if there is one. -/
def reference? (inAttribute : Bool) : Text → Option (Text × Text)
  | '#' :: s => (numericReference? s).map fun (c, rest) => ([c], rest)
  | s => namedReference? inAttribute s

/-- The text with every reference exchanged for what it stands for. -/
def decodeReferences (inAttribute : Bool) (s : Text) : Text :=
  match s with
  | [] => []
  | c :: s =>
    if c = '&' then
      match reference? inAttribute s with
      | some (text, rest) =>
        if rest.length ≤ s.length then text ++ decodeReferences inAttribute rest else c :: s
      | none => c :: decodeReferences inAttribute s
    else c :: decodeReferences inAttribute s
termination_by s.length

theorem decodeReferences_of_no_ampersand {inAttribute : Bool} {s : Text} (h : '&' ∉ s) :
    decodeReferences inAttribute s = s := by
  induction s with
  | nil => simp [decodeReferences]
  | cons c s ih =>
    rw [List.mem_cons, not_or] at h
    rw [decodeReferences, if_neg (Ne.symm h.1), ih h.2]

end WidgetCompiler.Markup
