import Mathlib.Tactic.SplitIfs
import WidgetCompiler.Php.Literal

/-!
# Literals read back

A literal stands for the text that was written in it.  Both ways of escaping write a character as
nothing, as itself, or as a backslash with a character that is no line feed, and never as a mark
(`Escapes`).  Between single quotes nothing is lost (`unescape_escapeSingle`); between double quotes the
carriage returns are (`unescape_escapeDouble`).
-/

namespace WidgetCompiler.Php

open Text

variable {marks t : Text} {escape : Char → Text} {c : Char}

theorem mem_escapeSingle (h : c ∈ escapeSingle t) : c ∈ t ∨ c = '\\' := by
  obtain ⟨d, hd, hc⟩ := List.mem_flatMap.1 h
  unfold escapeSingleChar at hc
  split at hc
  · exact .inr (by simpa using hc)
  · split at hc
    · next hquote =>
      rcases List.mem_cons.1 hc with rfl | hc
      · exact .inr rfl
      · obtain rfl : c = '\'' := by simpa using hc
        exact .inl (hquote ▸ hd)
    · obtain rfl : c = d := by simpa using hc
      exact .inl hd

theorem escapeSingle_of_not_mem (hslash : '\\' ∉ t) (hquote : '\'' ∉ t) : escapeSingle t = t := by
  induction t with
  | nil => rfl
  | cons c t ih =>
    obtain ⟨hc, ht⟩ : '\\' ≠ c ∧ '\\' ∉ t := by simpa using hslash
    obtain ⟨hc', ht'⟩ : '\'' ≠ c ∧ '\'' ∉ t := by simpa using hquote
    have hrest : t.flatMap escapeSingleChar = t := ih ht ht'
    rw [escapeSingle, List.flatMap_cons, hrest, escapeSingleChar, if_neg (Ne.symm hc),
      if_neg (Ne.symm hc')]
    rfl

/-! ## Escaping -/

/-- A character is written as nothing, behind a backslash, or as it is if it is neither a backslash nor
a mark. -/
def Escapes (marks : Text) (escape : Char → Text) : Prop :=
  ∀ c, escape c = [] ∨ (∃ d, d ≠ '\n' ∧ escape c = ['\\', d])
    ∨ ∃ d, d ≠ '\\' ∧ d ∉ marks ∧ escape c = [d]

theorem escapes_single : Escapes ['\''] escapeSingleChar := by
  intro c
  unfold escapeSingleChar
  split_ifs with hslash hquote
  · exact .inr (.inl ⟨'\\', by decide, rfl⟩)
  · exact .inr (.inl ⟨'\'', by decide, rfl⟩)
  · exact .inr (.inr ⟨c, hslash, by simpa using hquote, rfl⟩)

/-- Between double quotes a character is dropped, put behind a backslash, or written as it is. -/
theorem escapeDoubleChar_cases (c : Char) : (c = '\r' ∧ escapeDoubleChar c = [])
    ∨ (∃ d, (d ≠ '\'' ∧ d ≠ '\n') ∧ escapeDoubleChar c = ['\\', d])
    ∨ ((c ≠ '\\' ∧ c ≠ '"' ∧ c ≠ '$') ∧ c ≠ '\r' ∧ escapeDoubleChar c = [c]) := by
  unfold escapeDoubleChar
  split_ifs with hslash hquote hdollar hline htab hreturn
  · exact .inr (.inl ⟨'\\', by decide, rfl⟩)
  · exact .inr (.inl ⟨'"', by decide, rfl⟩)
  · exact .inr (.inl ⟨'$', by decide, rfl⟩)
  · exact .inr (.inl ⟨'n', by decide, rfl⟩)
  · exact .inr (.inl ⟨'t', by decide, rfl⟩)
  · exact .inl ⟨hreturn, rfl⟩
  · exact .inr (.inr ⟨⟨hslash, hquote, hdollar⟩, hreturn, rfl⟩)

/-- Between double quotes the dollar sign is a mark too, since it begins a variable. -/
theorem escapes_double : Escapes ['"', '$'] escapeDoubleChar := by
  intro c
  rcases escapeDoubleChar_cases c with ⟨-, hc⟩ | ⟨d, hd, hc⟩ | ⟨⟨hslash, hquote, hdollar⟩, -, hc⟩
  · exact .inl hc
  · exact .inr (.inl ⟨d, hd.2, hc⟩)
  · exact .inr (.inr ⟨c, hslash, by simpa using ⟨hquote, hdollar⟩, hc⟩)

theorem Escapes.of_subset {marks' : Text} (h : Escapes marks escape) (hsub : marks' ⊆ marks) :
    Escapes marks' escape := by
  intro c
  rcases h c with hc | hc | ⟨d, hd, hmark, hc⟩
  · exact .inl hc
  · exact .inr (.inl hc)
  · exact .inr (.inr ⟨d, hd, fun hm => hmark (hsub hm), hc⟩)

/-! ## Reading -/

theorem unescape_cons (quote : Char) (hc : c ≠ '\\') (s : Text) :
    unescape quote (c :: s) = c :: unescape quote s := by
  rw [unescape]
  · rintro rfl -
    exact hc rfl
  · rintro d r rfl -
    exact hc rfl

/-- Nothing is lost between single quotes. -/
theorem unescape_escapeSingle (t : Text) : unescape '\'' (escapeSingle t) = t := by
  induction t with
  | nil => rfl
  | cons c t ih =>
    change unescape '\'' (escapeSingleChar c ++ escapeSingle t) = c :: t
    unfold escapeSingleChar
    split
    · next h => rw [h]; exact congrArg ('\\' :: ·) ih
    · split
      · next h => rw [h]; exact congrArg ('\'' :: ·) ih
      · next h _ => rw [List.singleton_append, unescape_cons _ h, ih]

/-- Between double quotes the carriage returns are lost. -/
theorem unescape_escapeDouble (t : Text) :
    unescape '"' (escapeDouble t) = t.filter (· != '\r') := by
  induction t with
  | nil => rfl
  | cons c t ih =>
    change unescape '"' (escapeDoubleChar c ++ escapeDouble t) = _
    unfold escapeDoubleChar
    split_ifs with hslash hquote hdollar hline htab hreturn
    · rw [hslash]; exact congrArg ('\\' :: ·) ih
    · rw [hquote]; exact congrArg ('"' :: ·) ih
    · rw [hdollar]; exact congrArg ('$' :: ·) ih
    · rw [hline]; exact congrArg ('\n' :: ·) ih
    · rw [htab]; exact congrArg ('\t' :: ·) ih
    · rw [hreturn]; exact ih
    · rw [List.singleton_append, unescape_cons _ hslash, ih,
        List.filter_cons_of_pos (by simpa using hreturn)]

end WidgetCompiler.Php
