import Mathlib.Tactic.SplitIfs
import WidgetCompiler.Php.Writer
import WidgetCompiler.Style.Selector
import WidgetCompiler.Validation.Quotes

/-!
# A lexer for the lines of a source

`LexState.marks` says of each state what a reader looks for in it, and what state is reached behind that.
`trace` reads a line by this table alone, and keeps each piece of it with the state in which it was
read.  Whatever characters stand in a line, there is a trace of it.

The check of literals follows the trace as far as it can read: it fails exactly where a character
outside ASCII stands outside line comments, and otherwise finds the lines at whose ends a literal is
open (`checkQuotes?_eq`).
-/

namespace WidgetCompiler.Validation

open Text

/-! ## The table -/

namespace LexState

/-- What is looked for in a state, and the state that is reached behind it.  Of the marks that begin at
a place the first one counts. -/
def marks : LexState → List (Text × LexState)
  | markup => [("<?php", code), ("<?=", code)]
  | code => [("?>", markup), ("/*", blockComment), ("//", lineComment), ("#[", code),
      ("#", lineComment), ("'", quoted '\''), ("\"", quoted '"')]
  | quoted q => [([q], code)]
  | blockComment => [("*/", code)]
  | lineComment => [("?>", markup)]

/-- How many characters behind the first one are read with it, and the state that is reached.  In a
literal a backslash takes the next character with it, whichever it is. -/
def step (state : LexState) (s : Text) : Nat × LexState :=
  if state.openQuote?.isSome && s.head? == some '\\' then (1, state)
  else match state.marks.find? fun (mark, _) => startsWith s mark with
    | some (mark, next) => (mark.length - 1, next)
    | none => (0, state)

end LexState

/-- The pieces of a line, each with the state in which it is read, and the state at its end. -/
def trace (state : LexState) : Text → List (LexState × Text) × LexState
  | [] => ([], state)
  | c :: s =>
    let (more, next) := state.step (c :: s)
    let (pieces, last) := trace next (s.drop more)
    ((state, c :: s.take more) :: pieces, last)
termination_by s => s.length
decreasing_by
  rw [List.length_drop, List.length_cons]
  omega

/-- The state at the end of a line. -/
def reached (state : LexState) (line : Text) : LexState := (trace state line).2

/-- The characters of a line that are not passed over in a line comment. -/
def heeded (state : LexState) (line : Text) : Text :=
  (((trace state line).1.filter (·.1 ≠ .lineComment)).map (·.2)).flatten

/-- The characters of lines that are not passed over in line comments.  Literals and line comments end
with their lines. -/
def heededLines (state : LexState) : List Text → Text
  | [] => []
  | line :: rest => heeded state line ++ heededLines (reached state line).nextLine rest

/-- The findings in lines at whose ends a literal is open, with its quote. -/
def openLiterals (state : LexState) (number : Nat) : List Text → List Issue
  | [] => []
  | line :: rest =>
    (match reached state line with
      | .quoted q => [(Problem.openQuote q).issueAt number line]
      | _ => [])
    ++ openLiterals (reached state line).nextLine (number + 1) rest

variable {state : LexState} {c : Char} {s : Text}

theorem reached_nil (state : LexState) : reached state [] = state := by
  rw [reached, trace]

theorem reached_cons (state : LexState) (c : Char) (s : Text) : reached state (c :: s)
    = reached (state.step (c :: s)).2 (s.drop (state.step (c :: s)).1) := by
  rw [reached, trace]
  rfl

theorem heeded_nil (state : LexState) : heeded state [] = [] := by
  rw [heeded, trace]
  rfl

theorem heeded_cons (state : LexState) (c : Char) (s : Text) : heeded state (c :: s)
    = (if state = .lineComment then [] else c :: s.take (state.step (c :: s)).1)
      ++ heeded (state.step (c :: s)).2 (s.drop (state.step (c :: s)).1) := by
  rw [heeded, trace]
  by_cases h : state = .lineComment
  · simp [h, heeded]
  · simp [h, heeded]

/-- Each character of a line is in one piece. -/
theorem flatten_trace (state : LexState) (line : Text) : ((trace state line).1.map (·.2)).flatten = line := by
  fun_induction trace state line with
  | case1 => rfl
  | case2 state c s more next _ pieces last htrace ih =>
    rw [htrace] at ih
    rw [List.map_cons, List.flatten_cons, ih, List.cons_append, List.take_append_drop]

/-! ## The check of literals -/

namespace LexState

/-- A character at which no mark begins is read by itself. -/
theorem step_plain (hescape : state.openQuote? = none ∨ c ≠ '\\')
    (h : ∀ mark ∈ state.marks, ∀ t, mark.1 ++ t ≠ c :: s) : state.step (c :: s) = (0, state) := by
  have hback : (state.openQuote?.isSome && (c :: s).head? == some '\\') = false := by
    rcases hescape with hescape | hescape <;> simp [hescape]
  have hfind : (state.marks.find? fun (mark, _) => startsWith (c :: s) mark) = none := by
    refine List.find?_eq_none.2 fun mark hmark hstarts => ?_
    obtain ⟨rest, hrest⟩ := Option.isSome_iff_exists.1 hstarts
    exact h mark hmark rest (after?_eq_some.1 hrest).symm
  rw [step, hback, hfind]
  rfl

end LexState

/-- At a place the check reads what the lexer reads there, if it can. -/
def Follows (state : LexState) (c : Char) (s : Text) : Prop :=
  lexLine state (c :: s)
    = if state = .lineComment ∨ (c :: s.take (state.step (c :: s)).1).all isAscii then
        lexLine (state.step (c :: s)).2 (s.drop (state.step (c :: s)).1)
      else none

theorem follows_markup (c : Char) (s : Text) : Follows .markup c s := by
  rw [Follows, lexLine.eq_def]
  dsimp only
  split
  · simp [LexState.step, LexState.openQuote?, LexState.marks, startsWith, after?, isAscii]
  · simp [LexState.step, LexState.openQuote?, LexState.marks, startsWith, after?, isAscii]
  · next hlong hshort =>
    have hplain : LexState.markup.step (c :: s) = (0, .markup) := by
      refine LexState.step_plain (.inl rfl) fun mark hmark t ht => ?_
      rcases (by simpa [LexState.marks] using hmark : mark = _ ∨ mark = _) with rfl | rfl
      · exact hlong t (List.cons.inj ht).1.symm (List.cons.inj ht).2.symm
      · exact hshort t (List.cons.inj ht).1.symm (List.cons.inj ht).2.symm
    simp [hplain]

theorem follows_code (c : Char) (s : Text) : Follows .code c s := by
  rw [Follows, lexLine.eq_def]
  dsimp only
  split
  · simp [LexState.step, LexState.openQuote?, LexState.marks, startsWith, after?, isAscii]
  · simp [LexState.step, LexState.openQuote?, LexState.marks, startsWith, after?, isAscii]
  · simp [LexState.step, LexState.openQuote?, LexState.marks, startsWith, after?, isAscii]
  · simp [LexState.step, LexState.openQuote?, LexState.marks, startsWith, after?, isAscii]
  · next hattribute =>
    cases s with
    | nil => simp [LexState.step, LexState.openQuote?, LexState.marks, startsWith, after?, isAscii]
    | cons d s =>
      have hd : '[' ≠ d := by
        rintro rfl
        exact hattribute s rfl
      simp [LexState.step, LexState.openQuote?, LexState.marks, startsWith, after?, isAscii, hd]
  · simp [LexState.step, LexState.openQuote?, LexState.marks, startsWith, after?, isAscii]
  · simp [LexState.step, LexState.openQuote?, LexState.marks, startsWith, after?, isAscii]
  · next hhash hsingle hdouble hclose hblock hline _ =>
    have hplain : LexState.code.step (c :: s) = (0, .code) := by
      refine LexState.step_plain (.inl rfl) fun mark hmark t ht => ?_
      rcases (by simpa [LexState.marks] using hmark : mark = _ ∨ mark = _ ∨ mark = _ ∨ mark = _
        ∨ mark = _ ∨ mark = _ ∨ mark = _) with rfl | rfl | rfl | rfl | rfl | rfl | rfl
      · exact hclose t (List.cons.inj ht).1.symm (List.cons.inj ht).2.symm
      · exact hblock t (List.cons.inj ht).1.symm (List.cons.inj ht).2.symm
      · exact hline t (List.cons.inj ht).1.symm (List.cons.inj ht).2.symm
      · exact hhash (List.cons.inj ht).1.symm
      · exact hhash (List.cons.inj ht).1.symm
      · exact hsingle (List.cons.inj ht).1.symm
      · exact hdouble (List.cons.inj ht).1.symm
    simp [hplain]

/-- A backslash takes the next character with it, and it may be the last one. -/
theorem follows_quoted (q c : Char) (s : Text) : Follows (.quoted q) c s := by
  rw [Follows, lexLine.eq_def]
  by_cases hback : c = '\\'
  · cases s <;> simp [LexState.step, LexState.openQuote?, hback, isAscii, lexLine]
  · by_cases hquote : c = q
    · subst hquote
      simp [LexState.step, LexState.openQuote?, LexState.marks, startsWith, after?, hback]
    · have hplain : (LexState.quoted q).step (c :: s) = (0, .quoted q) := by
        refine LexState.step_plain (.inr hback) fun mark hmark t ht => ?_
        obtain rfl : mark = _ := by simpa [LexState.marks] using hmark
        exact hquote (List.cons.inj ht).1.symm
      simp [hplain, hback, hquote]

theorem follows_blockComment (c : Char) (s : Text) : Follows .blockComment c s := by
  rw [Follows, lexLine.eq_def]
  dsimp only
  split
  · simp [LexState.step, LexState.openQuote?, LexState.marks, startsWith, after?, isAscii]
  · next hend =>
    have hplain : LexState.blockComment.step (c :: s) = (0, .blockComment) := by
      refine LexState.step_plain (.inl rfl) fun mark hmark t ht => ?_
      obtain rfl : mark = _ := by simpa [LexState.marks] using hmark
      exact hend t (List.cons.inj ht).1.symm (List.cons.inj ht).2.symm
    simp [hplain]

theorem follows_lineComment (c : Char) (s : Text) : Follows .lineComment c s := by
  rw [Follows, lexLine.eq_def]
  dsimp only
  split
  · simp [LexState.step, LexState.openQuote?, LexState.marks, startsWith, after?]
  · next hend =>
    have hplain : LexState.lineComment.step (c :: s) = (0, .lineComment) := by
      refine LexState.step_plain (.inl rfl) fun mark hmark t ht => ?_
      obtain rfl : mark = _ := by simpa [LexState.marks] using hmark
      exact hend t (List.cons.inj ht).1.symm (List.cons.inj ht).2.symm
    simp [hplain]

theorem follows (state : LexState) (c : Char) (s : Text) : Follows state c s := by
  cases state with
  | markup => exact follows_markup c s
  | code => exact follows_code c s
  | quoted q => exact follows_quoted q c s
  | blockComment => exact follows_blockComment c s
  | lineComment => exact follows_lineComment c s

theorem lexLine_plain {next : LexState} (hstate : state ≠ .lineComment)
    (h : state.step (c :: s) = (0, next)) :
    lexLine state (c :: s) = if isAscii c then lexLine next s else none := by
  rw [follows state c s, h]
  simp [hstate]

/-- A line can be read if all that is heeded in it is ASCII. -/
theorem lexLine_eq (state : LexState) (line : Text) : lexLine state line
    = if (heeded state line).all isAscii then some (reached state line) else none := by
  induction hn : line.length using Nat.strongRecOn generalizing state line with
  | _ n ih =>
    cases line with
    | nil => rw [lexLine, heeded_nil, reached_nil, List.all_nil, if_pos rfl]
    | cons c s =>
      let next := (state.step (c :: s)).2
      let rest := s.drop (state.step (c :: s)).1
      have hlength : rest.length < n := by
        rw [← hn, List.length_cons, List.length_drop]
        omega
      have hrest : lexLine next rest
          = if (heeded next rest).all isAscii then some (reached next rest) else none :=
        ih rest.length hlength next rest rfl
      rw [follows state c s, heeded_cons, reached_cons, hrest, List.all_append]
      by_cases hcomment : state = .lineComment
      · simp [hcomment, next, rest]
      · rw [if_neg hcomment]
        by_cases hpiece : (c :: s.take (state.step (c :: s)).1).all isAscii = true
        · rw [if_pos (.inr hpiece), hpiece, Bool.true_and]
        · rw [if_neg (not_or.2 ⟨hcomment, hpiece⟩), Bool.eq_false_iff.2 hpiece, Bool.false_and,
            if_neg Bool.false_ne_true]

theorem quoteIssues_eq (state : LexState) (number : Nat) (ls : List Text) : quoteIssues state number ls
    = if (heededLines state ls).all isAscii then some (openLiterals state number ls) else none := by
  induction ls generalizing state number with
  | nil => rfl
  | cons line ls ih =>
    rw [quoteIssues, lexLine_eq, heededLines, List.all_append]
    by_cases hline : (heeded state line).all isAscii = true
    · have hopen : ((reached state line).openQuote?.map fun q =>
          (Problem.openQuote q).issueAt number line).toList
          = match reached state line with
            | .quoted q => [(Problem.openQuote q).issueAt number line]
            | _ => [] := by
        cases reached state line <;> rfl
      rw [if_pos hline, hline, Bool.true_and, openLiterals]
      simp only [ih, hopen]
      split_ifs
      · rfl
      · rfl
    · rw [if_neg hline, Bool.eq_false_iff.2 hline, Bool.false_and, if_neg Bool.false_ne_true]

/-- The check of literals fails where a character outside ASCII stands outside line comments, and
otherwise finds the lines at whose ends a literal is open. -/
theorem checkQuotes?_eq (text : Text) : checkQuotes? (.ofText text)
    = if (heededLines .markup (lines text)).all isAscii then some (openLiterals .markup 1 (lines text))
      else none :=
  quoteIssues_eq .markup 1 (lines text)

/-! ## Through a line -/

/-- Only quotes open literals. -/
theorem isQuote_of_step (h : ∀ q ∈ state.openQuote?, Style.isQuote q = true) (s : Text) :
    ∀ q ∈ (state.step s).2.openQuote?, Style.isQuote q = true := by
  have hmarks : ∀ mark ∈ state.marks, ∀ q ∈ mark.2.openQuote?, Style.isQuote q = true := by
    cases state <;> simp [LexState.marks, LexState.openQuote?, Style.isQuote]
  unfold LexState.step
  split
  · exact h
  · split
    · next mark next hfound => exact hmarks _ (List.mem_of_find?_eq_some hfound)
    · exact h

theorem isQuote_of_reached (h : ∀ q ∈ state.openQuote?, Style.isQuote q = true) (line : Text) :
    ∀ q ∈ (reached state line).openQuote?, Style.isQuote q = true := by
  induction hn : line.length using Nat.strongRecOn generalizing state line with
  | _ n ih =>
    cases line with
    | nil => rwa [reached_nil]
    | cons c s =>
      have hlength : (s.drop (state.step (c :: s)).1).length < n := by
        rw [← hn, List.length_cons, List.length_drop]
        omega
      rw [reached_cons]
      exact ih _ hlength (isQuote_of_step h (c :: s)) _ rfl

/-! ## Blanks at the beginning of a line -/

/-- Where lines begin a blank is read by itself. -/
theorem heeded_blank (hstate : state.nextLine = state) (hc : isBlank c = true) (s : Text) :
    heeded state (c :: s) = c :: heeded state s := by
  have hmarks : ∀ mark ∈ state.marks, ∀ t, mark.1 ++ t ≠ c :: s := by
    have hfirst : ∀ mark ∈ state.marks, ∃ m ∈ mark.1.head?, isBlank m = false := by
      cases state with
      | markup => decide
      | code => decide
      | quoted q => cases hstate
      | blockComment => decide
      | lineComment => cases hstate
    intro mark hmark t ht
    obtain ⟨m, hm, hblank⟩ := hfirst mark hmark
    obtain ⟨r, hr⟩ := List.head?_eq_some_iff.1 hm
    rw [hr] at ht
    rw [(List.cons.inj ht).1, hc] at hblank
    exact Bool.false_ne_true hblank.symm
  have hopen : state.openQuote? = none := by
    rw [← hstate]
    cases state <;> rfl
  have hcomment : state ≠ .lineComment := by
    rintro rfl
    cases hstate
  rw [heeded_cons, LexState.step_plain (.inl hopen) hmarks, if_neg hcomment]
  rfl

theorem mem_heeded_of_mem_takeWhile (hstate : state.nextLine = state) {line : Text}
    (h : c ∈ line.takeWhile isBlank) : c ∈ heeded state line := by
  induction line with
  | nil => exact absurd h List.not_mem_nil
  | cons d line ih =>
    cases hd : isBlank d with
    | false => rw [List.takeWhile_cons_of_neg (by simp [hd])] at h; exact absurd h List.not_mem_nil
    | true =>
      rw [List.takeWhile_cons_of_pos hd] at h
      rw [heeded_blank hstate hd]
      rcases List.mem_cons.1 h with rfl | h
      · exact List.mem_cons_self
      · exact List.mem_cons_of_mem d (ih h)

/-- The blanks at the beginnings of lines are heeded. -/
theorem mem_heededLines_of_mem_takeWhile (hstate : state.nextLine = state) {ls : List Text} {line : Text}
    (hline : line ∈ ls) (h : c ∈ line.takeWhile isBlank) : c ∈ heededLines state ls := by
  induction ls generalizing state with
  | nil => exact absurd hline List.not_mem_nil
  | cons l ls ih =>
    rw [heededLines, List.mem_append]
    rcases List.mem_cons.1 hline with rfl | hline
    · exact .inl (mem_heeded_of_mem_takeWhile hstate h)
    · exact .inr (ih (nextLine_nextLine _) hline)

/-- A line comment goes on to the delimiter that ends the code, or to the end of the line. -/
theorem lexLine_lineComment (s : Text) : lexLine .lineComment s
    = match cut? Php.closeTag s with
      | some (_, rest) => lexLine .markup rest
      | none => some .lineComment := by
  induction s with
  | nil => rfl
  | cons c s ih =>
    cases hafter : after? Php.closeTag (c :: s) with
    | some rest =>
      obtain ⟨rfl, rfl⟩ : c = '?' ∧ s = '>' :: rest := by
        simpa [Php.closeTag] using after?_eq_some.1 hafter
      rw [cut?, hafter, lexLine]
    | none =>
      have hstep : LexState.lineComment.step (c :: s) = (0, .lineComment) := by
        refine LexState.step_plain (.inl rfl) fun mark hmark t ht => ?_
        obtain rfl : mark = _ := by simpa [LexState.marks] using hmark
        have hsome : after? Php.closeTag (c :: s) = some t := after?_eq_some.2 ht.symm
        exact absurd (hafter.symm.trans hsome) (by simp)
      rw [follows .lineComment c s, if_pos (.inl rfl), hstep, List.drop_zero, ih, cut?, hafter]
      cases cut? Php.closeTag s with
      | none => rfl
      | some found => rfl

end WidgetCompiler.Validation
