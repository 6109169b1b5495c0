/-!
# Text

Every part of the library reads and writes text as a list of characters, so that each reading and
each writing is a recursion that a proof can follow.  A string literal stands for its characters.

`isBlank` is white space in the sense of Unicode.  `trim`, `words` and `lines` take text apart at
white space and at line feeds; `joinLines` writes lines back.  `cut?` splits a text at the first
place where a mark stands, and `replace` exchanges every place.

## Main statements

`trimStart` and `trimEnd` only drop (`trimStart_append`, `trimEnd_append`), a cut loses nothing
(`cut?_eq_some`) and makes progress (`length_of_cut?`).
-/

namespace WidgetCompiler

/-- A text is the list of its characters. -/
abbrev Text := List Char

instance : Coe String Text := ⟨String.toList⟩

/-- Texts are compared character by character. -/
instance lawfulBEqText : LawfulBEq Text := List.instLawfulBEq

-- A statement about the characters of a text is decided by going through the text.  Batteries has
-- instances that go through all characters there are, and a decision by them does not end.
section

variable {p : Char → Prop} [DecidablePred p]

instance (priority := 2000) decidableForallChar (t : Text) : Decidable (∀ c ∈ t, p c) :=
  List.decidableBAll p t

instance (priority := 2000) decidableExistsChar (t : Text) : Decidable (∃ c ∈ t, p c) :=
  List.decidableBEx p t

instance (priority := 2000) decidableForallChar? (c? : Option Char) : Decidable (∀ c ∈ c?, p c) :=
  Option.decidableForallMem c?

instance (priority := 2000) decidableExistsChar? (c? : Option Char) : Decidable (∃ c ∈ c?, p c) :=
  Option.decidableExistsMem c?

end

namespace Text

/-! ## White space -/

/-- White space: the Unicode property of that name. -/
def isBlank (c : Char) : Bool :=
  let n := c.toNat
  (9 ≤ n && n ≤ 13) || n == 0x20 || n == 0x85 || n == 0xA0 || n == 0x1680
    || (0x2000 ≤ n && n ≤ 0x200A) || n == 0x2028 || n == 0x2029 || n == 0x202F || n == 0x205F
    || n == 0x3000

/-- White space in ASCII as markup and style sheets count it: tab, line feed, form feed, carriage
return and space. -/
def isAsciiBlank (c : Char) : Bool :=
  c == ' ' || c == '\t' || c == '\n' || c == '\x0c' || c == '\r'

/-- The text from its first character that is not blank. -/
def trimStart (s : Text) : Text := s.dropWhile isBlank

/-- The text up to its last character that is not blank. -/
def trimEnd (s : Text) : Text := (s.reverse.dropWhile isBlank).reverse

/-- The text without the blanks around it. -/
def trim (s : Text) : Text := trimEnd (trimStart s)

/-- Whether nothing but blanks stands in the text. -/
def allBlank (s : Text) : Bool := s.all isBlank

theorem isBlank_of_isAsciiBlank {c : Char} (h : isAsciiBlank c = true) : isBlank c = true := by
  simp only [isAsciiBlank, Bool.or_eq_true, beq_iff_eq] at h
  rcases h with (((rfl | rfl) | rfl) | rfl) | rfl <;> decide

theorem isBlank_of_isWhitespace {c : Char} (h : c.isWhitespace = true) : isBlank c = true := by
  simp only [Char.isWhitespace, Bool.or_eq_true, decide_eq_true_eq] at h
  rcases h with ((rfl | rfl) | rfl) | rfl <;> decide

/-- What `trimStart` drops are the leading blanks. -/
theorem trimStart_append (s : Text) : s.takeWhile isBlank ++ trimStart s = s :=
  List.takeWhile_append_dropWhile

/-- What `trimEnd` drops are the blanks at the end. -/
theorem trimEnd_append (s : Text) :
    trimEnd s ++ (s.reverse.takeWhile isBlank).reverse = s := by
  rw [trimEnd, ← List.reverse_append, List.takeWhile_append_dropWhile, List.reverse_reverse]

/-! ## Beginnings -/

/-- The rest of the text after `mark`, if the text begins with it. -/
def after? (mark : Text) : Text → Option Text
  | s => match mark, s with
    | [], s => some s
    | _ :: _, [] => none
    | m :: ms, c :: cs => if m = c then after? ms cs else none

/-- Whether the text begins with `mark`. -/
def startsWith (s mark : Text) : Bool := (after? mark s).isSome

/-- Whether the text ends with `mark`. -/
def endsWith (s mark : Text) : Bool := startsWith s.reverse mark.reverse

theorem after?_eq_some {mark s rest : Text} : after? mark s = some rest ↔ s = mark ++ rest := by
  induction mark generalizing s with
  | nil => simp [after?, eq_comm]
  | cons m ms ih =>
    cases s with
    | nil => simp [after?]
    | cons c cs =>
      by_cases h : m = c
      · simp [after?, h, ih]
      · simp [after?, h, Ne.symm h]

@[simp] theorem after?_append (mark rest : Text) : after? mark (mark ++ rest) = some rest :=
  after?_eq_some.2 rfl

theorem startsWith_iff {s mark : Text} : startsWith s mark = true ↔ mark <+: s := by
  simp only [startsWith, Option.isSome_iff_exists, after?_eq_some, List.IsPrefix]
  exact exists_congr fun _ => eq_comm

theorem endsWith_iff {s mark : Text} : endsWith s mark = true ↔ mark <:+ s := by
  simp [endsWith, startsWith_iff]

/-! ## Cutting at a mark -/

/-- The texts before and after the first place where `mark` stands. -/
def cut? (mark : Text) : Text → Option (Text × Text)
  | [] => if mark.isEmpty then some ([], []) else none
  | c :: s => match after? mark (c :: s) with
    | some rest => some ([], rest)
    | none => (cut? mark s).map fun (before, rest) => (c :: before, rest)

/-- Whether `mark` stands somewhere in the text. -/
def contains (s mark : Text) : Bool := (cut? mark s).isSome

/-- A cut takes the mark out and keeps all else in its order. -/
theorem cut?_eq_some {mark s before rest : Text} (h : cut? mark s = some (before, rest)) :
    s = before ++ mark ++ rest := by
  induction s generalizing before with
  | nil =>
    cases mark with
    | nil => simp_all [cut?]
    | cons m ms => simp [cut?] at h
  | cons c s ih =>
    unfold cut? at h
    split at h
    · next r hr =>
      obtain ⟨rfl, rfl⟩ := by simpa using h
      simpa using after?_eq_some.1 hr
    · obtain ⟨⟨b, r⟩, hb, he⟩ := Option.map_eq_some_iff.1 h
      obtain ⟨rfl, rfl⟩ := by simpa using he
      simp [ih hb]

/-- What follows a cut is shorter than the text by the mark at least. -/
theorem length_of_cut? {mark s before rest : Text} (h : cut? mark s = some (before, rest)) :
    rest.length + mark.length ≤ s.length := by
  rw [cut?_eq_some h]
  simp only [List.length_append]
  omega

/-- The text with `new` at every place where `old` stands, found from left to right; an empty `old`
stands before every character and at the end. -/
def replace (old new : Text) (s : Text) : Text :=
  match s with
  | [] => if old.isEmpty then new else []
  | c :: s =>
    if old.isEmpty then new ++ c :: replace old new s
    else match after? old (c :: s) with
      | some rest => if rest.length ≤ s.length then new ++ replace old new rest else c :: s
      | none => c :: replace old new s
termination_by s.length

/-- As `replace`, but for at most `count` places. -/
def replaceFirst (count : Nat) (old new : Text) (s : Text) : Text :=
  match count with
  | 0 => s
  | n + 1 =>
    match s with
    | [] => if old.isEmpty then new else []
    | c :: s =>
      if old.isEmpty then new ++ c :: replaceFirst n old new s
      else match after? old (c :: s) with
        | some rest => if rest.length ≤ s.length then new ++ replaceFirst n old new rest else c :: s
        | none => c :: replaceFirst (n + 1) old new s
termination_by s.length

/-! ## Pieces -/

/-- The pieces between the characters that `p` picks; there is one more than there are of them. -/
def splitOn (p : Char → Bool) : Text → List Text
  | [] => [[]]
  | c :: s =>
    if p c then [] :: splitOn p s
    else match splitOn p s with
      | piece :: pieces => (c :: piece) :: pieces
      | [] => [[c]]

theorem splitOn_ne_nil (p : Char → Bool) (s : Text) : splitOn p s ≠ [] := by
  cases s with
  | nil => simp [splitOn]
  | cons c s =>
    unfold splitOn
    split
    · simp
    · split <;> simp

/-- The pieces between blanks, the empty ones left out. -/
def words (s : Text) : List Text := (splitOn isBlank s).filter (! ·.isEmpty)

/-- The line without the carriage return that may end it. -/
def dropReturn (s : Text) : Text :=
  if s.getLast? = some '\r' then s.dropLast else s

/-- The lines of a text.  A line feed ends a line, with a carriage return before it dropped; what
follows the last line feed is a line only if it is not empty, and keeps its carriage return. -/
def lines (s : Text) : List Text :=
  match splitOn (· == '\n') s with
  | pieces =>
    let last := pieces.getLast?.getD []
    pieces.dropLast.map dropReturn ++ if last.isEmpty then [] else [last]

/-- The texts with `sep` between neighbours. -/
def join (sep : Text) : List Text → Text
  | [] => []
  | [t] => t
  | t :: u :: ts => t ++ sep ++ join sep (u :: ts)

/-- The lines, each ended by a line feed. -/
def joinLines : List Text → Text
  | [] => []
  | l :: ls => l ++ '\n' :: joinLines ls

@[simp] theorem joinLines_append (a b : List Text) :
    joinLines (a ++ b) = joinLines a ++ joinLines b := by
  induction a with
  | nil => rfl
  | cons l ls ih => simp [joinLines, ih]

/-- Each word once, with one space between neighbours. -/
def collapseBlanks (s : Text) : Text := join [' '] (words s)

/-- The parts before and after the first character that `p` picks. -/
def cutAt? (p : Char → Bool) : Text → Option (Text × Text)
  | [] => none
  | c :: s => if p c then some ([], s) else (cutAt? p s).map fun (a, b) => (c :: a, b)

/-- A number in decimal digits. -/
def decimal (n : Nat) : Text := (Nat.repr n).toList

/-! ## Distinct texts in order -/

/-- The texts that did not occur before, in their order. -/
def distinct (ts : List Text) : List Text :=
  go [] ts
where
  go (seen : List Text) : List Text → List Text
    | [] => []
    | t :: ts => if seen.contains t then go seen ts else t :: go (t :: seen) ts

/-- Order by code points, a beginning of a text before the text. -/
def before (s t : Text) : Bool :=
  match s, t with
  | [], [] => false
  | [], _ :: _ => true
  | _ :: _, [] => false
  | c :: s, d :: t => if c = d then before s t else c.toNat < d.toNat

/-- The texts in order, each once. -/
def sortDistinct (ts : List Text) : List Text :=
  (distinct ts).mergeSort fun s t => !before t s

end Text

end WidgetCompiler
