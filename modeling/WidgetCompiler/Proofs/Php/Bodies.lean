import WidgetCompiler.Proofs.Php.Spelling
import WidgetCompiler.Proofs.Text.Replace

/-!
# Bodies of literals

A reader goes through the body of a literal from left to right and passes over the character behind
each backslash, so what ends the literal depends on how the backslashes pair up.  `scanBody` is this
reader: it stops before the first mark that is not passed over, or at the end, and it says so if it
stands right behind a backslash there.

Both ways of escaping write a character as nothing, as itself, or as a backslash with a character that
is no line feed, and never as a mark (`Escapes`).  Backslashes pair up within what is written for one
character, so the reader is through with it before the next one begins, and that is all an induction
over the text needs.

Main statement: both bodies are read to their ends and stand for the text they were written for, and so
does a literal that chooses its quotes (`unescape_escape`).
-/

namespace WidgetCompiler.Php

open Text

/-! ## Reading a body -/

/-- Where the reading of a body ends. -/
inductive BodyEnd
  /-- Behind the last character. -/
  | whole
  /-- Before a mark, with which the rest begins. -/
  | mark (rest : Text)
  /-- Behind a backslash that has nothing to pass over. -/
  | backslash
deriving DecidableEq, Repr

/-- Reads up to one of the marks, and passes over the character behind each backslash. -/
def scanBody (marks : Text) : Text → BodyEnd
  | [] => .whole
  | ['\\'] => .backslash
  | '\\' :: _ :: s => scanBody marks s
  | c :: s => if c ∈ marks then .mark (c :: s) else scanBody marks s

variable {marks : Text} {escape : Char → Text} {c : Char}

theorem scanBody_cons (hslash : c ≠ '\\') (hmark : c ∉ marks) (s : Text) :
    scanBody marks (c :: s) = scanBody marks s := by
  rw [scanBody]
  · rw [if_neg hmark]
  · rintro rfl -
    exact hslash rfl
  · rintro d r rfl -
    exact hslash rfl

/-- What is escaped is read to its end, and the reader is not behind a backslash there. -/
theorem Escapes.scanBody_eq (h : Escapes marks escape) (t : Text) :
    scanBody marks (t.flatMap escape) = .whole := by
  induction t with
  | nil => rfl
  | cons c t ih =>
    rw [List.flatMap_cons]
    rcases h c with hc | ⟨d, -, hc⟩ | ⟨d, hd, hmark, hc⟩
    · rw [hc, List.nil_append]
      exact ih
    · rw [hc]
      exact ih
    · rw [hc, List.singleton_append, scanBody_cons hd hmark]
      exact ih

/-! ## One character after the other -/

theorem passes_of_not_mem {new t : Text} (h : c ∉ t) : Passes [c] new t := by
  intro rest
  induction t with
  | nil => rfl
  | cons d t ih =>
    obtain ⟨hd, ht⟩ : c ≠ d ∧ c ∉ t := by simpa using h
    have hprefix : ¬ [c] <+: d :: (t ++ rest) := by
      rintro ⟨r, hr⟩
      exact hd (List.cons.inj hr).1
    rw [List.cons_append, replace_cons (by simp) hprefix, ih ht, List.cons_append]

/-- Escaping for single quotes doubles the backslashes first and then escapes the quotes; the second
pass does not meet the backslashes of its own. -/
theorem replace_replace (t : Text) :
    replace ['\''] ['\\', '\''] (replace ['\\'] ['\\', '\\'] t) = escapeSingle t := by
  let doubled (c : Char) : Text := if c = '\\' then ['\\', '\\'] else [c]
  have hslashes : replace ['\\'] ['\\', '\\'] t = t.flatMap doubled := by
    have hpieces : replace ['\\'] ['\\', '\\'] (t.flatMap fun c => [c]) = t.flatMap doubled :=
      replace_flatMap (by simp) fun c _ => by
        by_cases hc : c = '\\'
        · exact .inl ⟨by rw [hc], if_pos hc⟩
        · exact .inr ⟨if_neg hc, passes_of_not_mem (by simpa using Ne.symm hc)⟩
    simpa using hpieces
  rw [hslashes, escapeSingle]
  refine replace_flatMap (by simp) fun c _ => ?_
  by_cases hslash : c = '\\'
  · subst hslash
    exact .inr ⟨rfl, passes_of_not_mem (by decide)⟩
  · by_cases hquote : c = '\''
    · subst hquote
      exact .inl ⟨rfl, rfl⟩
    · have hplain : doubled c = [c] := if_neg hslash
      rw [hplain, escapeSingleChar, if_neg hslash, if_neg hquote]
      exact .inr ⟨rfl, passes_of_not_mem (by simpa using Ne.symm hquote)⟩

/-! ## Literals -/

/-- Escaped for double quotes a text stands on one line. -/
theorem not_mem_escapeDouble (t : Text) : '\n' ∉ escapeDouble t ∧ '\r' ∉ escapeDouble t := by
  have hchar (c : Char) : '\n' ∉ escapeDoubleChar c ∧ '\r' ∉ escapeDoubleChar c := by
    unfold escapeDoubleChar
    split_ifs with hslash hquote hdollar hline htab hreturn
    all_goals try decide
    simpa using ⟨Ne.symm hline, Ne.symm hreturn⟩
  constructor
  · intro hm
    obtain ⟨c, -, hc⟩ := List.mem_flatMap.1 hm
    exact (hchar c).1 hc
  · intro hm
    obtain ⟨c, -, hc⟩ := List.mem_flatMap.1 hm
    exact (hchar c).2 hc

/-- A literal that chooses its quotes: the quote, its body, and the quote again. -/
theorem exists_literal (t : Text) : ∃ q : Quote, ∃ body, literal t = q.char :: (body ++ [q.char])
    ∧ scanBody [q.char] body = .whole ∧ unescape q.char body = spelled t
    ∧ '\n' ∉ body ∧ '\r' ∉ body := by
  cases hbreak : hasLineBreak t with
  | true =>
    refine ⟨.double, escapeDouble t, by rw [literal, if_pos hbreak]; rfl, ?_,
      unescape_escapeDouble t, not_mem_escapeDouble t⟩
    exact (escapes_double.of_subset (by simp [Quote.char])).scanBody_eq t
  | false =>
    have hliteral : literal t = singleQuoted t := by rw [literal, hbreak]; rfl
    refine ⟨.single, escapeSingle t, hliteral, escapes_single.scanBody_eq t, ?_, ?_⟩
    · rw [spelled_of_not_hasLineBreak hbreak]
      exact unescape_escapeSingle t
    · have hline (c : Char) (hc : c = '\n' ∨ c = '\r') : c ∉ escapeSingle t := by
        intro hm
        rcases mem_escapeSingle hm with hm | rfl
        · exact Bool.false_ne_true (hbreak.symm.trans (List.any_eq_true.2 ⟨c, hm, by simpa using hc⟩))
        · exact absurd hc (by decide)
      exact ⟨hline _ (.inl rfl), hline _ (.inr rfl)⟩

/-- What is escaped is read back: whole between single quotes, and without the carriage returns between
double quotes.  A reader of either body never meets the closing quote, nor an open dollar sign between
double quotes, and does not end behind a lone backslash.  A literal that chooses its quotes stands on
one line and is read back without the carriage returns. -/
theorem unescape_escape (t : Text) :
    (escapeSingle t = replace ['\''] ['\\', '\''] (replace ['\\'] ['\\', '\\'] t)
      ∧ unescape '\'' (escapeSingle t) = t ∧ scanBody ['\''] (escapeSingle t) = .whole)
    ∧ (unescape '"' (escapeDouble t) = t.filter (· != '\r')
      ∧ scanBody ['"'] (escapeDouble t) = .whole ∧ scanBody ['$'] (escapeDouble t) = .whole)
    ∧ '\n' ∉ literal t ∧ '\r' ∉ literal t
    ∧ ∃ q : Quote, ∃ body, literal t = q.char :: (body ++ [q.char])
      ∧ scanBody [q.char] body = .whole ∧ unescape q.char body = t.filter (· != '\r') := by
  obtain ⟨q, body, hliteral, hscan, hread, hline, hreturn⟩ := exists_literal t
  have hdouble (marks : Text) (hsub : marks ⊆ ['"', '$']) : scanBody marks (escapeDouble t) = .whole :=
    (escapes_double.of_subset hsub).scanBody_eq t
  refine ⟨⟨(replace_replace t).symm, unescape_escapeSingle t, escapes_single.scanBody_eq t⟩,
    ⟨unescape_escapeDouble t, hdouble _ (by simp), hdouble _ (by simp)⟩, ?_, ?_,
    q, body, hliteral, hscan, hread⟩
  · rw [hliteral]
    cases q <;> simpa [Quote.char] using hline
  · rw [hliteral]
    cases q <;> simpa [Quote.char] using hreturn

end WidgetCompiler.Php
