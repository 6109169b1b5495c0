import WidgetCompiler.Php.Literal
import WidgetCompiler.Proofs.Php.Modes

/-!
# What of a text is run and what is shown

`modeAfter` sees delimiters only.  Whoever runs a text also knows string literals and comments, and
a `?>` in a literal or in a block comment does not leave code.  `scan` reads a text so: it gives the
place that is reached at the end, and each text that stood in markup on the way.

A piece of code `Runs` if a reader who comes to it in code goes through it and is in code again
behind it, with nothing shown.  Such pieces can be put one behind the other, so it is enough to
know the small ones: texts without any special character, and literals (`runs_singleQuoted`).
-/

namespace WidgetCompiler.Php

open Text

/-- Where a reader of a text is. -/
inductive Place
  | code
  | markup
  /-- Within a literal that the given character closes. -/
  | quoted (quote : Char)
  | lineComment
  | blockComment
deriving DecidableEq, Repr

/-- The texts with a character in front of the first one. -/
def pushChar (c : Char) : List Text → List Text
  | [] => [[c]]
  | t :: ts => (c :: t) :: ts

/-- Reads a text from a place on: the place that is reached, and the texts that stand in markup. -/
def scan : Place → Text → Place × List Text
  | .code, '?' :: '>' :: s => scan .markup s
  | .code, '/' :: '/' :: s => scan .lineComment s
  | .code, '/' :: '*' :: s => scan .blockComment s
  | .code, '#' :: '[' :: s => scan .code s
  | .code, '#' :: s => scan .lineComment s
  | .code, '\'' :: s => scan (.quoted '\'') s
  | .code, '"' :: s => scan (.quoted '"') s
  | .code, _ :: s => scan .code s
  | .quoted quote, '\\' :: _ :: s => scan (.quoted quote) s
  | .quoted quote, c :: s => scan (if c = quote then .code else .quoted quote) s
  | .lineComment, '?' :: '>' :: s => scan .markup s
  | .lineComment, '\n' :: s => scan .code s
  | .lineComment, _ :: s => scan .lineComment s
  | .blockComment, '*' :: '/' :: s => scan .code s
  | .blockComment, _ :: s => scan .blockComment s
  | .markup, '<' :: '?' :: 'p' :: 'h' :: 'p' :: s => ((scan .code s).1, [] :: (scan .code s).2)
  | .markup, c :: s => ((scan .markup s).1, pushChar c (scan .markup s).2)
  | .markup, [] => (.markup, [[]])
  | place, [] => (place, [])

/-! ## Through code -/

/-- A reader in code is in code again behind the text, whatever follows, and nothing is shown. -/
def Runs (code : Text) : Prop := ∀ s, scan .code (code ++ s) = scan .code s

/-- The characters at which a reader in code may leave it. -/
def specialInCode : Text := "?/#'\""

/-- Whether no character of a text is special in code. -/
def isPlainCode (t : Text) : Bool := t.all fun c => decide (c ∉ specialInCode)

theorem scan_code_cons {c : Char} (hc : c ∉ specialInCode) (s : Text) :
    scan .code (c :: s) = scan .code s := by
  have hne : ∀ d ∈ specialInCode, c ≠ d := fun d hd h => hc (h ▸ hd)
  rw [scan]
  all_goals
    intro h
    first
      | exact absurd h (hne _ (by decide))
      | (intro h'; exact absurd h' (hne _ (by decide)))

namespace Runs

variable {s t : Text}

theorem nil : Runs [] := fun _ => rfl

theorem append (hs : Runs s) (ht : Runs t) : Runs (s ++ t) := by
  intro rest
  rw [List.append_assoc, hs, ht]

theorem cons {c : Char} (hc : c ∉ specialInCode) (ht : Runs t) : Runs (c :: t) := by
  intro rest
  rw [List.cons_append, scan_code_cons hc, ht]

end Runs

theorem runs_of_isPlainCode {t : Text} (h : isPlainCode t = true) : Runs t := by
  induction t with
  | nil => exact Runs.nil
  | cons c t ih =>
    obtain ⟨hc, ht⟩ : c ∉ specialInCode ∧ isPlainCode t = true := by
      simpa [isPlainCode] using h
    exact Runs.cons hc (ih ht)

theorem runs_of_allBlank {t : Text} (h : allBlank t = true) : Runs t := by
  refine runs_of_isPlainCode (List.all_eq_true.2 fun c hc => ?_)
  have hblank : isBlank c = true := List.all_eq_true.1 h c hc
  have : ∀ d ∈ specialInCode, isBlank d = false := by decide
  exact decide_eq_true fun hm => Bool.false_ne_true ((this c hm).symm.trans hblank)

/-- The body of a literal leads to its closing quote. -/
theorem scan_escapeSingle (t s : Text) :
    scan (.quoted '\'') (escapeSingle t ++ '\'' :: s) = scan .code s := by
  induction t with
  | nil => rfl
  | cons c t ih =>
    rw [escapeSingle, List.flatMap_cons, List.append_assoc]
    change scan _ (escapeSingleChar c ++ (escapeSingle t ++ '\'' :: s)) = _
    unfold escapeSingleChar
    split
    · exact ih
    · split
      · exact ih
      · next h h' =>
        rw [List.singleton_append, scan]
        · rw [if_neg h', ih]
        · intro _ _ hb _
          exact h hb

theorem runs_singleQuoted (t : Text) : Runs (singleQuoted t) := by
  intro s
  have := scan_escapeSingle t s
  rw [singleQuoted, List.cons_append, List.append_assoc]
  exact this

/-! ## Between code and markup -/

theorem scan_code_closeTag (s : Text) : scan .code (closeTag ++ s) = scan .markup s := rfl

/-- Where no code begins, a character in markup is shown. -/
theorem scan_markup_cons {c : Char} {s : Text} (h : ¬ openTag <+: c :: s) :
    scan .markup (c :: s) = ((scan .markup s).1, pushChar c (scan .markup s).2) := by
  rw [scan]
  rintro r rfl rfl
  exact h ⟨r, rfl⟩

/-- A text in markup is shown as it stands, up to where code begins. -/
theorem scan_markup_openTag {t : Text} (h : Lacks "<?" t) (s : Text) :
    scan .markup (t ++ (openTag ++ s)) = ((scan .code s).1, t :: (scan .code s).2) := by
  induction t with
  | nil => rfl
  | cons c t ih =>
    have ht : Lacks "<?" t := h.of_infix (List.suffix_cons c t).isInfix
    rw [List.cons_append, scan_markup_cons, ih ht]
    · rfl
    · intro hprefix
      obtain ⟨rfl, hr⟩ := List.cons_prefix_cons.1 (show '<' :: ['?', 'p', 'h', 'p'] <+: c :: _ from hprefix)
      -- the `?` would be the first character of `t`, or the `<` that follows it
      cases t with
      | nil => exact absurd (List.cons_prefix_cons.1 (show '?' :: _ <+: '<' :: _ from hr)).1 (by decide)
      | cons d t =>
        obtain ⟨rfl, -⟩ := List.cons_prefix_cons.1 (show '?' :: _ <+: d :: _ from hr)
        exact h ⟨[], t, rfl⟩

/-- A text in markup that is not left again. -/
theorem scan_markup_of_lacks {t : Text} (h : Lacks "<?" t) : scan .markup t = (.markup, [t]) := by
  induction t with
  | nil => rfl
  | cons c t ih =>
    have ht : Lacks "<?" t := h.of_infix (List.suffix_cons c t).isInfix
    rw [scan_markup_cons, ih ht]
    · rfl
    · intro hprefix
      have hshort : ("<?" : Text) <+: openTag := ⟨['p', 'h', 'p'], rfl⟩
      exact h (hshort.trans hprefix).isInfix

end WidgetCompiler.Php
