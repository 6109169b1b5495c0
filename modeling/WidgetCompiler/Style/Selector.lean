import WidgetCompiler.Text.Letters
import WidgetCompiler.Text.Lowercase
import WidgetCompiler.Markup.Element

/-!
# Selectors

A style rule has a list of selectors, separated by the commas that stand outside quotes, brackets
and parentheses (`splitSelectors`).  `references` gives what a selector speaks of: types, classes
and ids.  A selector is relevant to a fragment if it speaks of nothing or of something that the
fragment has.
-/

namespace WidgetCompiler.Style

open Text

/-! ## Lists of selectors -/

/-- Whether the character opens or closes a quoted text. -/
def isQuote (c : Char) : Bool := c == '"' || c == '\''

/-- The pieces between the commas that stand outside quotes and within no bracket, of a text that
follows an open quote or `depth` open brackets; there is one more than there are such commas. -/
def splitCommas (quote : Option Char) (depth : Nat) : Text → List Text
  | [] => [[]]
  | c :: s =>
    let keep (pieces : List Text) : List Text :=
      match pieces with
      | piece :: pieces => (c :: piece) :: pieces
      | [] => [[c]]
    match quote with
    | some q => keep (splitCommas (if c = q then none else some q) depth s)
    | none =>
      if isQuote c then keep (splitCommas (some c) depth s)
      else if c = '(' ∨ c = '[' then keep (splitCommas none (depth + 1) s)
      else if c = ')' ∨ c = ']' then keep (splitCommas none (depth - 1) s)
      else if c = ',' ∧ depth = 0 then [] :: splitCommas none 0 s
      else keep (splitCommas none depth s)

/-- The selectors of a list, each without the blanks around it, and without empty ones. -/
def splitSelectors (list : Text) : List Text :=
  ((splitCommas none 0 list).map trim).filter (! ·.isEmpty)

/-! ## What a selector speaks of -/

/-- A type, a class or an id that a selector names. -/
inductive SelectorRef
  | type (name : Text)
  | class (name : Text)
  | id (name : Text)
deriving DecidableEq, Repr

/-- The characters that names are made of. -/
def isNamePart (c : Char) : Bool := !isAscii c || c.isAlphanum || c == '-' || c == '_'

/-- The name at the beginning of a text, with a backslash taking the next character literally, and
the text behind it. -/
def readName : Text → Text × Text
  | '\\' :: c :: s =>
    let (name, rest) := readName s
    (c :: name, rest)
  | c :: s =>
    if isNamePart c then
      let (name, rest) := readName s
      (c :: name, rest)
    else ([], c :: s)
  | [] => ([], [])

theorem length_readName (s : Text) : (readName s).2.length ≤ s.length := by
  fun_induction readName s <;> simp_all <;> omega

/-- Whether a new compound selector may begin behind the character. -/
def separatesCompounds (c : Char) : Bool :=
  c == ' ' || c == '\t' || c == '\n' || c == '>' || c == '+' || c == '~' || c == '(' || c == ','

/-- What a selector speaks of, read from a place where a compound selector begins or not. -/
def referencesFrom (atStart : Bool) (s : Text) : List SelectorRef :=
  match s with
  | [] => []
  | c :: s =>
    if c = '.' ∨ c = '#' then
      match h : readName s with
      | (name, rest) =>
        have : rest.length ≤ s.length := by simpa [h] using length_readName s
        let ref : List SelectorRef :=
          if name.isEmpty then [] else if c = '.' then [.class name] else [.id name]
        ref ++ referencesFrom false rest
    else if c = '[' then
      referencesFrom false ((s.dropWhile (· != ']')).drop 1)
    else if c = ':' then
      referencesFrom false (s.dropWhile fun c => c == ':' || isNamePart c)
    else if separatesCompounds c then referencesFrom true s
    else if atStart && isLetter c then
      match h : readName s with
      | (name, rest) =>
        have : rest.length ≤ s.length := by simpa [h] using length_readName s
        .type (lowerAscii (c :: name)) :: referencesFrom false rest
    else referencesFrom false s
termination_by s.length
decreasing_by
  · simp; omega
  · have := (List.dropWhile_sublist (l := s) (· != ']')).length_le
    simp; omega
  · have := (List.dropWhile_sublist (l := s) fun c => c == ':' || isNamePart c).length_le
    simp; omega
  · simp
  · simp; omega
  · simp

/-- What a selector speaks of, in order. -/
def references (selector : Text) : List SelectorRef := referencesFrom true selector

/-- Whether a set has what a reference names. -/
def SelectorRef.isIn (used : Markup.SelectorSet) : SelectorRef → Bool
  | .type name => used.tags.contains name
  | .class name => used.classes.contains name
  | .id name => used.ids.contains name

/-- Whether a selector may match an element of a fragment with these tags, classes and ids: it
speaks of nothing, or of something that the fragment has. -/
def isRelevant (used : Markup.SelectorSet) (selector : Text) : Bool :=
  let refs := references selector
  refs.isEmpty || refs.any (·.isIn used)

/-! ## Selectors of the whole page -/

/-- Whether a selector is nothing but the root or the body of the page. -/
def isGlobal (selector : Text) : Bool :=
  let name := lowerAscii (trim selector)
  name == "body".toList || name == "html".toList

/-- What stands for the selector of the widget's own wrapper. -/
def wrapperPlaceholder : Text := "\x7b\x7bWRAPPER\x7d\x7d"

/-- The selector below a wrapper.  One that has the wrapper already, or begins with a pseudo-class,
stays as it is. -/
def scope (wrapper selector : Text) : Text :=
  if contains selector wrapper || selector.head? = some ':' then selector
  else wrapper ++ ' ' :: selector

end WidgetCompiler.Style
