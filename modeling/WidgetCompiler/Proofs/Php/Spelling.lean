import WidgetCompiler.Proofs.Php.Literals
import WidgetCompiler.Proofs.Php.Scan

/-!
# The literals of code

`readLiterals` reads a text as `scan` does, and gives what the literals on the way stand for instead
of what is shown.

A piece of code `Spells` some texts if a reader who comes to it in code finds just literals that
stand for these, and is in code again behind it.  Pieces can be put one behind the other, whatever
stands in their literals; pieces that are always the same are read once (`spells_of_read`).
-/

namespace WidgetCompiler.Php

open Text

/-- Reads a text from a place on, with the part of a literal that was read before: the place that is
reached, and what the literals that end on the way stand for. -/
def readLiterals : Place → Text → Text → Place × List Text
  | .code, _, '?' :: '>' :: s => readLiterals .markup [] s
  | .code, _, '/' :: '/' :: s => readLiterals .lineComment [] s
  | .code, _, '/' :: '*' :: s => readLiterals .blockComment [] s
  | .code, _, '#' :: '[' :: s => readLiterals .code [] s
  | .code, _, '#' :: s => readLiterals .lineComment [] s
  | .code, _, '\'' :: s => readLiterals (.quoted '\'') [] s
  | .code, _, '"' :: s => readLiterals (.quoted '"') [] s
  | .code, _, _ :: s => readLiterals .code [] s
  | .quoted quote, body, '\\' :: c :: s => readLiterals (.quoted quote) (body ++ ['\\', c]) s
  | .quoted quote, body, c :: s =>
    if c = quote then
      ((readLiterals .code [] s).1, unescape quote body :: (readLiterals .code [] s).2)
    else readLiterals (.quoted quote) (body ++ [c]) s
  | .lineComment, _, '?' :: '>' :: s => readLiterals .markup [] s
  | .lineComment, _, '\n' :: s => readLiterals .code [] s
  | .lineComment, _, _ :: s => readLiterals .lineComment [] s
  | .blockComment, _, '*' :: '/' :: s => readLiterals .code [] s
  | .blockComment, _, _ :: s => readLiterals .blockComment [] s
  | .markup, _, '<' :: '?' :: 'p' :: 'h' :: 'p' :: s => readLiterals .code [] s
  | .markup, _, _ :: s => readLiterals .markup [] s
  | place, _, [] => (place, [])

/-- A reader in code finds these literals in the text, whatever follows, and is in code again. -/
def Spells (code : Text) (words : List Text) : Prop :=
  ∀ s, readLiterals .code [] (code ++ s)
    = ((readLiterals .code [] s).1, words ++ (readLiterals .code [] s).2)

/-! ## Through code -/

/-- What a character does where no mark of two characters begins. -/
theorem readLiterals_cons (c : Char) (body s : Text) :
    (c ∉ specialInCode → readLiterals .code body (c :: s) = readLiterals .code [] s)
      ∧ (c ≠ '\\' → ∀ quote, readLiterals (.quoted quote) body (c :: s) = if c = quote then
          ((readLiterals .code [] s).1, unescape quote body :: (readLiterals .code [] s).2)
        else readLiterals (.quoted quote) (body ++ [c]) s)
      ∧ (c ∉ ("?\n" : Text) →
        readLiterals .lineComment body (c :: s) = readLiterals .lineComment [] s)
      ∧ (¬ ("*/" : Text) <+: c :: s →
        readLiterals .blockComment body (c :: s) = readLiterals .blockComment [] s) := by
  refine ⟨fun hc => ?code, fun hc quote => ?quoted, fun hc => ?line, fun hc => ?block⟩
  case code =>
    have hne : ∀ d ∈ specialInCode, c ≠ d := fun d hd h => hc (h ▸ hd)
    rw [readLiterals]
    all_goals
      intro h
      first
        | exact absurd h (hne _ (by decide))
        | (intro h'; exact absurd h' (hne _ (by decide)))
  case quoted =>
    rw [readLiterals]
    rintro d r rfl -
    exact hc rfl
  case line =>
    rw [readLiterals]
    · rintro r rfl -
      exact hc (by decide)
    · rintro rfl
      exact hc (by decide)
  case block =>
    rw [readLiterals]
    rintro r rfl rfl
    exact hc ⟨r, rfl⟩

theorem readLiterals_code_cons {c : Char} (hc : c ∉ specialInCode) (body s : Text) :
    readLiterals .code body (c :: s) = readLiterals .code [] s :=
  (readLiterals_cons c body s).1 hc

theorem readLiterals_quoted_cons {quote c : Char} (hc : c ≠ '\\') (body s : Text) :
    readLiterals (.quoted quote) body (c :: s) = if c = quote then
      ((readLiterals .code [] s).1, unescape quote body :: (readLiterals .code [] s).2)
    else readLiterals (.quoted quote) (body ++ [c]) s :=
  (readLiterals_cons c body s).2.1 hc quote

/-- Behind a text without comments that leads to code, reading goes on as if the text were not
there. -/
theorem readLiterals_append {place : Place} {body t : Text} (ht : ∀ c ∈ t, c ∉ ("?/#" : Text))
    (hplace : (place = .code ∧ body = []) ∨ ∃ quote : Quote, place = .quoted quote.char)
    (hcode : (readLiterals place body t).1 = .code) (s : Text) :
    readLiterals place body (t ++ s)
      = ((readLiterals .code [] s).1, (readLiterals place body t).2 ++ (readLiterals .code [] s).2) := by
  -- an escape takes two characters, so the induction is on the length
  induction hlength : t.length using Nat.strong_induction_on generalizing place body t with
  | _ n ih =>
    have hnext {u : Text} (hu : u <:+ t) (hshort : u.length < t.length) {place' body'} :=
      @ih u.length (hlength ▸ hshort) place' body' u fun c hc => ht c (hu.subset hc)
    rcases hplace with ⟨rfl, rfl⟩ | ⟨quote, rfl⟩
    · cases t with
      | nil => rfl
      | cons c t =>
        have hrest {place' body'} := @hnext t (List.suffix_cons c t) (by simp) place' body'
        by_cases hsingle : c = '\''
        · subst hsingle
          exact @hrest (.quoted '\'') [] (.inr ⟨.single, rfl⟩) hcode rfl
        by_cases hdouble : c = '"'
        · subst hdouble
          exact @hrest (.quoted '"') [] (.inr ⟨.double, rfl⟩) hcode rfl
        have hc : c ∉ specialInCode := by
          intro hm
          have hmarks : ∀ d ∈ specialInCode, d ∈ ("?/#" : Text) ∨ d = '\'' ∨ d = '"' := by decide
          rcases hmarks c hm with h | h | h
          · exact ht c List.mem_cons_self h
          · exact hsingle h
          · exact hdouble h
        rw [readLiterals_code_cons hc] at hcode ⊢
        rw [List.cons_append, readLiterals_code_cons hc]
        exact hrest (.inl ⟨rfl, rfl⟩) hcode rfl
    · cases t with
      | nil => exact nomatch (show Place.quoted quote.char = .code from hcode)
      | cons c t =>
        by_cases hslash : c = '\\'
        · subst hslash
          cases t with
          | nil => cases quote <;> exact nomatch (show Place.quoted _ = .code from hcode)
          | cons d t =>
            have htail : t <:+ '\\' :: d :: t := ⟨['\\', d], rfl⟩
            have hshort : t.length < ('\\' :: d :: t).length := by simp only [List.length_cons]; omega
            exact @hnext t htail hshort (.quoted quote.char) (body ++ ['\\', d]) (.inr ⟨quote, rfl⟩)
              hcode rfl
        have hrest {place' body'} := @hnext t (List.suffix_cons c t) (by simp) place' body'
        rw [readLiterals_quoted_cons hslash] at hcode ⊢
        rw [List.cons_append, readLiterals_quoted_cons hslash]
        by_cases hc : c = quote.char
        · rw [if_pos hc] at hcode
          rw [if_pos hc, if_pos hc, hrest (.inl ⟨rfl, rfl⟩) hcode rfl]
          rfl
        · rw [if_neg hc] at hcode
          rw [if_neg hc, if_neg hc]
          exact hrest (.inr ⟨quote, rfl⟩) hcode rfl

/-- A piece that is always the same is read once. -/
theorem spells_of_read {t : Text} {words : List Text} (ht : ∀ c ∈ t, c ∉ ("?/#" : Text))
    (h : readLiterals .code [] t = (.code, words)) : Spells t words := by
  intro s
  have := readLiterals_append ht (.inl ⟨rfl, rfl⟩) (congrArg Prod.fst h) s
  rwa [h] at this

namespace Spells

variable {s t : Text} {ws vs : List Text}

theorem nil : Spells [] [] := fun _ => rfl

theorem append (hs : Spells s ws) (ht : Spells t vs) : Spells (s ++ t) (ws ++ vs) := by
  intro rest
  rw [List.append_assoc, hs, ht, List.append_assoc]

theorem flatMap {α : Type} {f : α → Text} {g : α → List Text} {as : List α}
    (h : ∀ a ∈ as, Spells (f a) (g a)) : Spells (as.flatMap f) (as.flatMap g) := by
  induction as with
  | nil => exact nil
  | cons a as ih =>
    rw [List.flatMap_cons, List.flatMap_cons]
    exact (h a List.mem_cons_self).append (ih fun b hb => h b (List.mem_cons_of_mem _ hb))

/-- What is reached behind the text, and what is found in it. -/
theorem read (h : Spells t ws) : readLiterals .code [] t = (.code, ws) := by
  have := h []
  rw [List.append_nil] at this
  exact this.trans (congrArg (Prod.mk _) (List.append_nil ws))

end Spells

/-- Plain code has no literals. -/
theorem spells_of_isPlainCode {t : Text} (h : isPlainCode t = true) : Spells t [] := by
  intro s
  induction t with
  | nil => rfl
  | cons c t ih =>
    obtain ⟨hc, ht⟩ : c ∉ specialInCode ∧ isPlainCode t = true := by
      simpa [isPlainCode] using h
    rw [List.cons_append, readLiterals_code_cons hc]
    exact ih ht

/-! ## Literals -/

/-- Within a literal, an escaped text is read as part of the body, up to the closing quote. -/
theorem readLiterals_escape {quote : Char} {escape : Char → Text} (hquote : quote ≠ '\\')
    (hescape : Escapes [quote] escape) (t body s : Text) :
    readLiterals (.quoted quote) body (t.flatMap escape ++ quote :: s)
      = ((readLiterals .code [] s).1,
        unescape quote (body ++ t.flatMap escape) :: (readLiterals .code [] s).2) := by
  induction t generalizing body with
  | nil => simp [readLiterals_quoted_cons hquote]
  | cons c t ih =>
    rw [List.flatMap_cons, List.append_assoc]
    rcases hescape c with h | ⟨d, -, h⟩ | ⟨d, hd, hmark, h⟩
    · rw [h, List.nil_append, List.nil_append]
      exact ih body
    · have := ih (body ++ ['\\', d])
      rw [h]
      rw [List.append_assoc] at this
      exact this
    · have hne : d ≠ quote := by simpa using hmark
      have := ih (body ++ [d])
      rw [h, List.singleton_append, readLiterals_quoted_cons hd, if_neg hne]
      simpa using this

/-- A literal in single quotes is found as it was meant. -/
theorem spells_singleQuoted (t : Text) : Spells (singleQuoted t) [t] := by
  intro s
  have := readLiterals_escape (by decide) escapes_single t [] s
  rw [List.nil_append, ← escapeSingle, unescape_escapeSingle] at this
  rw [singleQuoted, List.cons_append, List.append_assoc]
  exact this

/-- What is found of a text that is written in a literal. -/
def spelled (t : Text) : Text := t.filter (· != '\r')

/-- A literal in double quotes is found without its carriage returns. -/
theorem spells_doubleQuoted (t : Text) : Spells (doubleQuoted t) [spelled t] := by
  intro s
  have hescape : Escapes ['"'] escapeDoubleChar := escapes_double.of_subset (by simp)
  have := readLiterals_escape (by decide) hescape t [] s
  rw [List.nil_append, ← escapeDouble, unescape_escapeDouble] at this
  rw [doubleQuoted, List.cons_append, List.append_assoc]
  exact this

/-- A text without line breaks has no carriage returns to lose. -/
theorem spelled_of_not_hasLineBreak {t : Text} (h : hasLineBreak t = false) : spelled t = t := by
  refine List.filter_eq_self.2 fun c hc => bne_iff_ne.2 ?_
  rintro rfl
  exact Bool.false_ne_true (h.symm.trans (List.any_eq_true.2 ⟨_, hc, rfl⟩))

theorem spells_literal (t : Text) : Spells (literal t) [spelled t] := by
  rw [literal]
  split
  · exact spells_doubleQuoted t
  · next hbreak =>
    rw [spelled_of_not_hasLineBreak (Bool.eq_false_iff.2 hbreak)]
    exact spells_singleQuoted t

/-! ## Comments -/

theorem readLiterals_blockComment_cons {c : Char} {s : Text} (h : ¬ ("*/" : Text) <+: c :: s)
    (body : Text) : readLiterals .blockComment body (c :: s) = readLiterals .blockComment [] s :=
  (readLiterals_cons c body s).2.2.2 h

/-- A comment goes on as long as it is not ended. -/
theorem readLiterals_blockComment {t : Text} (h : Lacks "*/" t) (body : Text) :
    readLiterals .blockComment body t = (.blockComment, []) := by
  induction t generalizing body with
  | nil => rfl
  | cons c t ih =>
    have ht : Lacks "*/" t := h.of_infix (List.suffix_cons c t).isInfix
    rw [readLiterals_blockComment_cons fun hprefix => h hprefix.isInfix]
    exact ih ht []

/-- A comment has no literals. -/
theorem spells_comment {t : Text} (h : Lacks "*/" t) (hlast : ∀ c ∈ t.getLast?, c ≠ '*') :
    Spells (("/*" : Text) ++ t ++ ("*/" : Text)) [] := by
  intro s
  have hcomment (body : Text) :
      readLiterals .blockComment body (t ++ (("*/" : Text) ++ s)) = readLiterals .code [] s := by
    induction t generalizing body with
    | nil => rfl
    | cons c t ih =>
      have ht : Lacks "*/" t := h.of_infix (List.suffix_cons c t).isInfix
      have hlast' : ∀ d ∈ t.getLast?, d ≠ '*' := fun d hd => by
        refine hlast d ?_
        rw [List.getLast?_cons, Option.mem_def.1 hd]
        rfl
      rw [List.cons_append, readLiterals_blockComment_cons]
      · exact ih ht hlast' []
      · -- the end of the comment would begin at `c`, which is in it
        intro hprefix
        obtain ⟨rfl, hslash⟩ := List.cons_prefix_cons.1 (show '*' :: ['/'] <+: c :: _ from hprefix)
        cases t with
        | nil => exact hlast '*' rfl rfl
        | cons d t =>
          obtain ⟨rfl, -⟩ := List.cons_prefix_cons.1 (show '/' :: [] <+: d :: _ from hslash)
          exact h ⟨[], t, rfl⟩
  have := hcomment []
  rw [List.append_assoc, List.append_assoc]
  exact this

/-- Neither has a comment that ends with its line. -/
theorem spells_lineComment {t : Text} (hline : '\n' ∉ t) (hquestion : '?' ∉ t) :
    Spells (("//" : Text) ++ t ++ ['\n']) [] := by
  intro s
  have hcomment (body : Text) :
      readLiterals .lineComment body (t ++ '\n' :: s) = readLiterals .code [] s := by
    induction t generalizing body with
    | nil => rfl
    | cons c t ih =>
      obtain ⟨hc, ht⟩ : '\n' ≠ c ∧ '\n' ∉ t := by simpa using hline
      obtain ⟨hc', ht'⟩ : '?' ≠ c ∧ '?' ∉ t := by simpa using hquestion
      have hplain : c ∉ ("?\n" : Text) := by
        intro hm
        rcases List.mem_cons.1 hm with rfl | hm
        · exact hc' rfl
        · exact hc (List.mem_singleton.1 hm).symm
      rw [List.cons_append, (readLiterals_cons c body _).2.2.1 hplain]
      exact ih ht ht' []
  have := hcomment []
  rw [List.append_assoc, List.append_assoc]
  exact this

end WidgetCompiler.Php
