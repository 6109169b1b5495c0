import WidgetCompiler.Style.Selector
import WidgetCompiler.Style.Sheet

/-!
# Reading a style sheet

`Sheet.parse` reads any text.  A node begins with a prelude, which reaches to the next `;` or
`\x7b` outside quotes and parentheses.  A semicolon makes the prelude a statement.  A brace opens a
block, which ends at the brace that closes it; braces in quotes and in comments do not count.  The
block belongs to a rule, or, if the prelude begins with `@`, to a group or to something that is
kept as it was written.

What is left open at the end of the text is kept as it was written too.

## Main statements

`preludeEnd?_eq_some` and `blockEnd?_eq_some` say that a prelude and a block lose nothing of the
text.
-/

namespace WidgetCompiler.Style

open Text

/-- The names of the rules that group other rules under a condition. -/
def groupNames : List Text := ["media", "supports", "container", "layer", "document"]

/-- What ends a prelude: a semicolon or an opening brace. -/
inductive PreludeEnd
  | statement
  | block
deriving DecidableEq, Repr

/-- The character that ends a prelude. -/
def PreludeEnd.char : PreludeEnd → Char
  | statement => ';'
  | block => '\x7b'

/-- The prelude at the beginning of a text that follows an open quote or open parentheses, what
ends it, and the text behind that. -/
def preludeEnd? (quote : Option Char) (parens : Nat) : Text → Option (Text × PreludeEnd × Text)
  | [] => none
  | c :: s =>
    let keep (r : Option (Text × PreludeEnd × Text)) : Option (Text × PreludeEnd × Text) :=
      r.map fun (prelude, stop, rest) => (c :: prelude, stop, rest)
    match quote with
    | some q =>
      if c = '\\' then
        match s with
        | [] => none
        | d :: s => (preludeEnd? (some q) parens s).map fun (prelude, stop, rest) =>
          (c :: d :: prelude, stop, rest)
      else keep (preludeEnd? (if c = q then none else some q) parens s)
    | none =>
      if isQuote c then keep (preludeEnd? (some c) parens s)
      else if c = '(' then keep (preludeEnd? none (parens + 1) s)
      else if c = ')' then keep (preludeEnd? none (parens - 1) s)
      else if c = ';' ∧ parens = 0 then some ([], .statement, s)
      else if c = '\x7b' ∧ parens = 0 then some ([], .block, s)
      else keep (preludeEnd? none parens s)

/-- What a block is read in: plain text, a quoted text, or a comment. -/
inductive BlockState
  | plain
  | quoted (quote : Char)
  | comment
deriving DecidableEq, Repr

/-- The text up to the brace that closes the outermost of `depth + 1` open blocks, and the text
behind that. -/
def blockEnd? (state : BlockState) (depth : Nat) : Text → Option (Text × Text)
  | [] => none
  | c :: s =>
    let keep (r : Option (Text × Text)) : Option (Text × Text) :=
      r.map fun (inner, rest) => (c :: inner, rest)
    match state with
    | .quoted q =>
      if c = '\\' then
        match s with
        | [] => none
        | d :: s => (blockEnd? (.quoted q) depth s).map fun (inner, rest) => (c :: d :: inner, rest)
      else keep (blockEnd? (if c = q then .plain else .quoted q) depth s)
    | .comment =>
      match c, s with
      | '*', '/' :: s => (blockEnd? .plain depth s).map fun (inner, rest) =>
        ('*' :: '/' :: inner, rest)
      | _, s => keep (blockEnd? .comment depth s)
    | .plain =>
      match c, s with
      | '/', '*' :: s => (blockEnd? .comment depth s).map fun (inner, rest) =>
        ('/' :: '*' :: inner, rest)
      | c, s =>
        if isQuote c then keep (blockEnd? (.quoted c) depth s)
        else if c = '\x7b' then keep (blockEnd? .plain (depth + 1) s)
        else if c = '\x7d' then
          match depth with
          | 0 => some ([], s)
          | n + 1 => keep (blockEnd? .plain n s)
        else keep (blockEnd? .plain depth s)

theorem preludeEnd?_eq_some {quote : Option Char} {parens : Nat} {s prelude rest : Text}
    {stop : PreludeEnd} (h : preludeEnd? quote parens s = some (prelude, stop, rest)) :
    s = prelude ++ stop.char :: rest := by
  fun_induction preludeEnd? quote parens s generalizing prelude with
  | case1 => simp at h
  | case2 => simp at h
  | case3 _ _ _ _ ih =>
    obtain ⟨⟨p, t, r⟩, hp, he⟩ := Option.map_eq_some_iff.1 h
    obtain ⟨rfl, rfl, rfl⟩ := by simpa using he
    simp [ih hp]
  | case8 s parens keep _ _ _ hc =>
    obtain ⟨rfl, rfl, rfl⟩ := by simpa using h
    simp [PreludeEnd.char, hc.1]
  | case9 s parens keep _ _ _ _ hc =>
    obtain ⟨rfl, rfl, rfl⟩ := by simpa using h
    simp [PreludeEnd.char, hc.1]
  | _ =>
    rename_i ih
    obtain ⟨⟨p, t, r⟩, hp, he⟩ := Option.map_eq_some_iff.1 h
    obtain ⟨rfl, rfl, rfl⟩ := by simpa using he
    simp [ih hp]

theorem blockEnd?_eq_some {state : BlockState} {depth : Nat} {s inner rest : Text}
    (h : blockEnd? state depth s = some (inner, rest)) : s = inner ++ '\x7d' :: rest := by
  fun_induction blockEnd? state depth s generalizing inner with
  | case1 => simp at h
  | case2 => simp at h
  | case10 =>
    obtain ⟨rfl, rfl⟩ := by simpa using h
    rfl
  | _ =>
    rename_i ih
    obtain ⟨⟨i, r⟩, hp, he⟩ := Option.map_eq_some_iff.1 h
    obtain ⟨rfl, rfl⟩ := by simpa using he
    simp [ih hp]

/-- The name of an at-rule, given what follows the `@`. -/
def atRuleName (prelude : Text) : Text :=
  lowerAscii (prelude.takeWhile fun c => !(isBlank c || c == '('))

/-- Declarations on one line: the lines without the blanks around them, and without empty lines. -/
def oneLine (block : Text) : Text :=
  join [' '] (((lines block).map trim).filter (! ·.isEmpty))

namespace Sheet

theorem length_of_comment {c : Char} {s body comment rest : Text}
    (ha : after? "/*" (c :: s) = some body) (h : cut? "*/" body = some (comment, rest)) :
    rest.length ≤ s.length := by
  have hb := congrArg List.length (after?_eq_some.1 ha)
  have hr := length_of_cut? h
  simp at hb hr
  omega

theorem length_of_prelude {c : Char} {s prelude rest : Text} {stop : PreludeEnd}
    (h : preludeEnd? none 0 (c :: s) = some (prelude, stop, rest)) :
    rest.length ≤ s.length := by
  have := congrArg List.length (preludeEnd?_eq_some h)
  simp at this
  omega

theorem length_of_block {c : Char} {s prelude body inner rest : Text} {stop : PreludeEnd}
    (h : preludeEnd? none 0 (c :: s) = some (prelude, stop, body))
    (hb : blockEnd? .plain 0 body = some (inner, rest)) :
    inner.length + rest.length < s.length := by
  have hl := length_of_prelude h
  have := congrArg List.length (blockEnd?_eq_some hb)
  simp at this
  omega

/-- The sheet that a text holds. -/
def parse (s : Text) : Sheet :=
  match s with
  | [] => []
  | c :: s =>
    if isAsciiBlank c || c == '\x7d' then parse s
    else match ha : after? "/*" (c :: s) with
    | some body =>
      match h : cut? "*/" body with
      | some (_, rest) =>
        have : rest.length ≤ s.length := length_of_comment ha h
        .raw ((c :: s).take (s.length + 1 - rest.length)) :: parse rest
      | none => [.raw (c :: s)]
    | none =>
      match h : preludeEnd? none 0 (c :: s) with
      | none => match trim (c :: s) with
        | [] => []
        | rest => [.raw rest]
      | some (prelude, .statement, rest) =>
        have : rest.length ≤ s.length := length_of_prelude h
        .raw (trim prelude ++ [';']) :: parse rest
      | some (prelude, .block, body) =>
        match hb : blockEnd? .plain 0 body with
        | none => [.raw (trim (c :: s))]
        | some (inner, rest) =>
          have : inner.length + rest.length < s.length := length_of_block h hb
          match trim prelude with
          | '@' :: name =>
            if groupNames.contains (atRuleName name) then
              .group (trim prelude) (parse inner) :: parse rest
            else .raw (trim (prelude ++ '\x7b' :: inner ++ ['\x7d'])) :: parse rest
          | prelude => .rule ⟨splitSelectors prelude, oneLine inner⟩ :: parse rest
termination_by s.length

theorem parse_nil : parse [] = [] := by rw [parse]

end Sheet

end WidgetCompiler.Style
