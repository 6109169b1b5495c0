import WidgetCompiler.Text.Basic
import WidgetCompiler.Text.Letters

/-!
# Patterns in text

A `Pattern` is asked at a place of a text: it sees the character before the place and the text from
the place on, and where it matches it answers with what it read and with the text that follows.
`find?` looks for the first place of a match, `findAll` for all of them, each search going on where
the last match ended, and `extract` takes the matches out of the text.

Letters are compared without regard to case by `sameLetter`.  It is Unicode's simple case folding
for the letters of ASCII, under which the long s and the Kelvin sign are an s and a k.
-/

namespace WidgetCompiler.Text

/-! ## Letters without regard to case -/

/-- Whether a character is the given small letter, or another form of it. -/
def sameLetter (letter c : Char) : Bool :=
  c.toLower == letter || (letter == 's' && c == 'ſ') || (letter == 'k' && c == '\u212a')

/-- The rest of the text after `mark`, which is written in small letters, if the text begins with it
in letters of any case. -/
def afterAnyCase? : Text → Text → Option Text
  | [], s => some s
  | _ :: _, [] => none
  | m :: ms, c :: cs => if sameLetter m c then afterAnyCase? ms cs else none

theorem length_of_after? {mark s rest : Text} (h : after? mark s = some rest) :
    rest.length + mark.length = s.length := by
  rw [after?_eq_some.1 h, List.length_append, Nat.add_comm]

theorem length_of_afterAnyCase? {mark s rest : Text} (h : afterAnyCase? mark s = some rest) :
    rest.length + mark.length = s.length := by
  induction mark generalizing s with
  | nil => simp_all [afterAnyCase?]
  | cons m ms ih =>
    cases s with
    | nil => simp [afterAnyCase?] at h
    | cons c cs =>
      simp only [afterAnyCase?] at h
      split at h
      · simp [← ih h]; omega
      · simp at h

/-! ## Words and their ends -/

/-- Whether a word may begin at a place that follows `prev`. -/
def wordMayBegin (prev : Option Char) : Bool := !(prev.any isWordPart)

/-- Whether a word that was read up to here ends here. -/
def wordEnds (rest : Text) : Bool := !(rest.head?.any isWordPart)

/-- The rest of the text after its leading blanks. -/
def afterBlanks (s : Text) : Text := s.dropWhile isBlank

/-- The rest of the text after its leading blanks, of which there has to be one. -/
def afterSomeBlanks? : Text → Option Text
  | c :: s => if isBlank c then some (afterBlanks s) else none
  | [] => none

/-! ## Searching -/

/-- A pattern is asked with the character before a place and the text from there on. -/
abbrev Pattern (α : Type) := Option Char → Text → Option (α × Text)

/-- A match: how many characters precede it, and what was read. -/
structure Found (α : Type) where
  offset : Nat
  value : α

namespace Pattern

variable {α : Type}

/-- The first match in a text that follows `prev`: the text before it, what was read, and the text
after it. -/
def find? (p : Pattern α) (prev : Option Char) : Text → Option (Text × α × Text)
  | [] => none
  | c :: s => match p prev (c :: s) with
    | some (a, rest) => some ([], a, rest)
    | none => (find? p (some c) s).map fun (before, a, rest) => (c :: before, a, rest)

/-- Whether the pattern matches somewhere in the text. -/
def occursIn (p : Pattern α) (s : Text) : Bool := (find? p none s).isSome

/-- How many characters precede the first match in a text that `offset` characters precede. -/
def findOffsetFrom? (p : Pattern α) (offset : Nat) (prev : Option Char) : Text → Option Nat
  | [] => none
  | c :: s => match p prev (c :: s) with
    | some _ => some offset
    | none => findOffsetFrom? p (offset + 1) (some c) s

/-- How many characters precede the first match. -/
def findOffset? (p : Pattern α) (s : Text) : Option Nat := findOffsetFrom? p 0 none s

/-- What was read in the first match in a text that follows `prev`. -/
def findValueFrom? (p : Pattern α) (prev : Option Char) : Text → Option α
  | [] => none
  | c :: s => match p prev (c :: s) with
    | some (a, _) => some a
    | none => findValueFrom? p (some c) s

/-- What was read in the first match. -/
def findValue? (p : Pattern α) (s : Text) : Option α := findValueFrom? p none s

/-- All matches from left to right, each search beginning where the last match ended. -/
def findAllFrom (p : Pattern α) (offset : Nat) (prev : Option Char) (s : Text) :
    List (Found α) :=
  match s with
  | [] => []
  | c :: s => match p prev (c :: s) with
    | some (a, rest) =>
      if rest.length ≤ s.length then
        let read := s.length + 1 - rest.length
        ⟨offset, a⟩ :: findAllFrom p (offset + read) ((c :: s)[read - 1]?) rest
      else []
    | none => findAllFrom p (offset + 1) (some c) s
termination_by s.length

/-- All matches in a text, from left to right and without overlap. -/
def findAll (p : Pattern α) (s : Text) : List (Found α) := findAllFrom p 0 none s

/-- The text without the matches, and what was read in them. -/
def extractFrom (p : Pattern α) (prev : Option Char) (s : Text) : Text × List α :=
  match s with
  | [] => ([], [])
  | c :: s => match p prev (c :: s) with
    | some (a, rest) =>
      if rest.length ≤ s.length then
        let (kept, found) := extractFrom p ((c :: s)[s.length - rest.length]?) rest
        (kept, a :: found)
      else (c :: s, [])
    | none =>
      let (kept, found) := extractFrom p (some c) s
      (c :: kept, found)
termination_by s.length

/-- The text without the matches, and what was read in them. -/
def extract (p : Pattern α) (s : Text) : Text × List α := extractFrom p none s

/-- A first match splits the text. -/
theorem find?_eq_some {p : Pattern α} {prev : Option Char} {s before rest : Text} {a : α}
    (h : find? p prev s = some (before, a, rest)) :
    ∃ here prev', p prev' here = some (a, rest) ∧ s = before ++ here := by
  induction s generalizing prev before with
  | nil => simp [find?] at h
  | cons c s ih =>
    unfold find? at h
    split at h
    · next a' r hp =>
      obtain ⟨rfl, rfl, rfl⟩ := by simpa using h
      exact ⟨c :: s, prev, hp, rfl⟩
    · obtain ⟨⟨b, a', r⟩, hb, he⟩ := Option.map_eq_some_iff.1 h
      obtain ⟨rfl, rfl, rfl⟩ := by simpa using he
      obtain ⟨here, prev', hp, rfl⟩ := ih hb
      exact ⟨here, prev', hp, rfl⟩

end Pattern

end WidgetCompiler.Text
