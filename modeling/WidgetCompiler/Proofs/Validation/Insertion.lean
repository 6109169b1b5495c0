import WidgetCompiler.Proofs.Validation.Scanning

/-!
# A line put in

A line with nothing but a `<?php` is put in behind one like it.  The check of literals reads it like
the line before (`quoteIssues_insert`), so there is a report on the text with that line, and the check
of modes finds the line just if it reads as far (`reportsOrphan_insert`): no other check has such a
message.
-/

namespace WidgetCompiler.Validation

open Text Markup Render Php

section

variable {state reached : LexState} {number : Nat} {first extra gap t : Text}
variable {ls rest : List Text}

/-! ## Literals -/

/-- What is reached behind a `<?php` from a state in which lines begin. -/
def LexState.entered : LexState → LexState
  | blockComment => blockComment
  | _ => code

theorem nextLine_entered (state : LexState) : state.entered.nextLine = state.entered := by
  cases state <;> rfl

/-- A blank means nothing where a line begins. -/
theorem lexLine_blank (hstate : state.nextLine = state) {c : Char} (hc : isBlank c = true)
    (rest : Text) : lexLine state (c :: rest) = if isAscii c then lexLine state rest else none := by
  have hne {d : Char} (hd : isBlank d = false) : c ≠ d := fun e =>
    Bool.false_ne_true (hd.symm.trans (e ▸ hc))
  cases state with
  | markup =>
    rw [lexLine]
    · exact fun _ h _ => hne (by decide) h
    · exact fun _ h _ => hne (by decide) h
  | code =>
    rw [lexLine]
    all_goals first | exact fun h => hne (by decide) h | exact fun _ h _ => hne (by decide) h
  | blockComment =>
    rw [lexLine]
    exact fun _ h _ => hne (by decide) h
  | quoted q => cases hstate
  | lineComment => cases hstate

theorem lexLine_of_blanks (hstate : state.nextLine = state) (hgap : allBlank gap = true)
    (h : lexLine state (gap ++ t) = some reached) : lexLine state t = some reached := by
  induction gap with
  | nil => exact h
  | cons c gap ih =>
    obtain ⟨hc, hgap⟩ := Bool.and_eq_true_iff.1 hgap
    rw [List.cons_append, lexLine_blank hstate hc] at h
    split at h
    · exact ih hgap h
    · simp at h

theorem lexLine_blanks (hstate : state.nextLine = state) (hgap : allBlank gap = true)
    (hascii : IsAscii gap) (t : Text) : lexLine state (gap ++ t) = lexLine state t := by
  induction gap with
  | nil => rfl
  | cons c gap ih =>
    obtain ⟨hc, hgap⟩ := Bool.and_eq_true_iff.1 hgap
    obtain ⟨hcascii, hascii⟩ := List.forall_mem_cons.1 hascii
    rw [List.cons_append, lexLine_blank hstate hc, if_pos hcascii, ih hgap hascii]

theorem lexLine_openTag (hstate : state.nextLine = state) (t : Text) :
    lexLine state (openTag ++ t) = lexLine state.entered t := by
  cases state with
  | quoted q => cases hstate
  | lineComment => cases hstate
  | _ => rfl

/-- A line with nothing but a `<?php`, if it can be read. -/
theorem reached_of_trim (hstate : state.nextLine = state) (hfirst : trim first = openTag)
    (h : lexLine state first = some reached) : reached = state.entered := by
  obtain ⟨gap, gap', hgap, hgap', hsplit⟩ := exists_trim first
  rw [hfirst] at hsplit
  rw [hsplit, List.append_assoc] at h
  have hopened := lexLine_of_blanks hstate hgap h
  rw [lexLine_openTag hstate, ← List.append_nil gap'] at hopened
  have hend := lexLine_of_blanks (nextLine_entered state) hgap' hopened
  rw [lexLine] at hend
  exact (Option.some.inj hend).symm

/-- Such a line in ASCII can be read. -/
theorem lexLine_of_trim (hstate : state.nextLine = state) (hextra : trim extra = openTag)
    (hascii : IsAscii extra) : lexLine state extra = some state.entered := by
  obtain ⟨gap, gap', hgap, hgap', hsplit⟩ := exists_trim extra
  rw [hextra] at hsplit
  rw [hsplit] at hascii ⊢
  rw [List.append_assoc, lexLine_blanks hstate hgap hascii.left.left, lexLine_openTag hstate,
    ← List.append_nil gap', lexLine_blanks (nextLine_entered state) hgap' hascii.right, lexLine]

/-- A doubled opening leaves no literal open. -/
theorem quoteIssues_insert (hstate : state.nextLine = state) (hfirst : trim first = openTag)
    (hextra : trim extra = openTag) (hascii : IsAscii extra)
    (h : quoteIssues state number (ls ++ first :: rest) = some []) :
    quoteIssues state number (ls ++ first :: extra :: rest) = some [] := by
  induction ls generalizing state number with
  | nil =>
    obtain ⟨reached, hlex, hquote, hrest⟩ := quoteIssues_cons_eq_nil.1 h
    obtain rfl := reached_of_trim hstate hfirst hlex
    have hlex' := lexLine_of_trim (nextLine_entered state) hextra hascii
    have hentered : state.entered.entered = state.entered := by cases state <;> rfl
    rw [hentered] at hlex'
    refine quoteIssues_cons_eq_nil.2 ⟨state.entered, hlex, hquote, ?_⟩
    rw [nextLine_entered] at hrest ⊢
    refine quoteIssues_cons_eq_nil.2 ⟨state.entered, hlex', hquote, ?_⟩
    rw [nextLine_entered]
    exact quoteIssues_eq_nil_congr _ hrest
  | cons l ls ih =>
    obtain ⟨reached, hlex, hquote, hrest⟩ := quoteIssues_cons_eq_nil.1 h
    exact quoteIssues_cons_eq_nil.2 ⟨reached, hlex, hquote, ih (nextLine_nextLine reached) hrest⟩

/-! ## Reports -/

/-- The report on a text says of a line that code is entered there where code is already. -/
def ReportsOrphan (text : Text) (number : Nat) : Prop :=
  ∃ report, validate? text = some report ∧ ∃ issue ∈ report.errors,
    issue.line = some number ∧ ("Orphaned <?php" : Text) <+: issue.message

/-- Lines without line feeds are told by the text that they make. -/
theorem joinLines_inj {ls' : List Text} (h : ∀ l ∈ ls, '\n' ∉ l) (h' : ∀ l ∈ ls', '\n' ∉ l)
    (heq : joinLines ls = joinLines ls') : ls = ls' := by
  have hpieces := splitOn_joinLines h []
  rw [heq, splitOn_joinLines h'] at hpieces
  exact (List.append_cancel_right hpieces).symm

/-- The lines that end in a text. -/
def endedLines (t : Text) : List Text := (splitOn (· == '\n') t).dropLast

theorem endedLines_joinLines (h : ∀ l ∈ ls, '\n' ∉ l) : endedLines (joinLines ls) = ls := by
  have hpieces := splitOn_joinLines h []
  rw [List.append_nil] at hpieces
  rw [endedLines, hpieces]
  exact List.dropLast_concat

theorem joinLines_endedLines (h : t.getLast? = some '\n') :
    joinLines (endedLines t) = t ∧ ∀ l ∈ endedLines t, '\n' ∉ l := by
  obtain ⟨ls, rfl, hls⟩ := exists_joinLines (.inr h)
  rw [endedLines_joinLines hls]
  exact ⟨rfl, hls⟩

theorem getLast?_joinLines (h : ls ≠ []) : (joinLines ls).getLast? = some '\n' := by
  obtain ⟨front, l, rfl⟩ := (List.eq_nil_or_concat ls).resolve_left h
  simp [joinLines]

/-- No other check says of a line that code is entered there where code is already. -/
theorem head?_message_ne {source : Source} {issue : Issue}
    (h : issue ∈ checkTransitions source ++ checkPageStructure source ++ checkControlIds source
      ++ checkClass source) : issue.message.head? ≠ some 'O' := by
  have hids (seen : List Text) (found : List (Found Text)) :
      ∀ issue ∈ idIssues source seen found, issue.message.head? = some 'I' := by
    fun_induction idIssues source seen found with
    | case1 => exact List.forall_mem_nil _
    | case2 seen more _ _ ih => exact ih
    | case3 seen found more _ ih => exact List.forall_mem_cons.2 ⟨rfl, ih⟩
  have hsome {c : Char} (hc : issue.message.head? = some c) (hne : c ≠ 'O') :
      issue.message.head? ≠ some 'O' := fun e => hne (Option.some.inj (hc.symm.trans e))
  rcases List.mem_append.1 h with h | h
  · rcases List.mem_append.1 h with h | h
    · rcases List.mem_append.1 h with h | h
      · unfold checkTransitions at h
        split at h
        · simp at h
        · obtain rfl := List.mem_singleton.1 h
          exact hsome (c := 'R') rfl (by decide)
      · obtain ⟨⟨pattern, what⟩, -, hissue⟩ := List.mem_filterMap.1 h
        obtain ⟨offset, -, rfl⟩ := Option.map_eq_some_iff.1 hissue
        exact hsome (c := 'W') rfl (by decide)
    · exact hsome (hids _ _ issue h) (by decide)
  · rcases List.mem_append.1 h with h | h
    · split at h
      · simp at h
      · obtain rfl := List.mem_singleton.1 h
        exact hsome (c := 'N') rfl (by decide)
    · obtain ⟨name, -, rfl⟩ := List.mem_map.1 h
      exact hsome (c := 'M') rfl (by decide)

/-- Behind lines of a text that passes, a doubled opening is reported just if the check of modes reads
as far. -/
theorem reportsOrphan_insert (hlines : ∀ l ∈ ls ++ first :: rest, '\n' ∉ l)
    (hmodes : checkRenderModes (.ofText (joinLines (ls ++ first :: rest))) = [])
    (hquotes : checkQuotes? (.ofText (joinLines (ls ++ first :: rest))) = some [])
    (hdeclares : ∃ l ∈ ls.map dropReturn, declaresRender l = true) (hfirst : trim first = openTag)
    (hextra : trim extra = openTag) (hascii : IsAscii extra) (hline : '\n' ∉ extra) :
    ReportsOrphan (joinLines (ls ++ first :: extra :: rest)) (ls.length + 2)
      ↔ Watched (ls.map dropReturn) := by
  have hlines' : ∀ l ∈ ls ++ first :: extra :: rest, '\n' ∉ l := by
    simp only [List.forall_mem_append, List.forall_mem_cons] at hlines ⊢
    exact ⟨hlines.1, hlines.2.1, hline, hlines.2.2⟩
  have hfirst' : trim (dropReturn first) = openTag := (trim_dropReturn first).trans hfirst
  have hextra' : trim (dropReturn extra) = openTag := (trim_dropReturn extra).trans hextra
  rw [checkRenderModes, Source.ofText, lines_joinLines hlines, List.map_append, List.map_cons] at hmodes
  rw [checkQuotes?, Source.ofText, lines_joinLines hlines, List.map_append, List.map_cons] at hquotes
  let source : Source := .ofText (joinLines (ls ++ first :: extra :: rest))
  have hread : source.lines = ls.map dropReturn
      ++ dropReturn first :: dropReturn extra :: rest.map dropReturn := by
    change Text.lines (joinLines (ls ++ first :: extra :: rest)) = _
    rw [lines_joinLines hlines', List.map_append, List.map_cons, List.map_cons]
  have hclosed : checkQuotes? source = some [] := by
    rw [checkQuotes?, hread]
    exact quoteIssues_insert rfl hfirst' hextra' hascii.dropReturn hquotes
  have hreport : validate? (joinLines (ls ++ first :: extra :: rest)) = some (Report.ofIssues
      (checkRenderModes source ++ checkTransitions source ++ checkPageStructure source
        ++ checkControlIds source ++ [] ++ checkClass source)
      (checkEscaping source ++ checkGlobalCss source)) := by
    change (checkQuotes? source).map _ = _
    rw [hclosed]
    rfl
  constructor
  · rintro ⟨report, hsome, issue, hissue, -, hmessage⟩
    by_contra hwatched
    obtain rfl := Option.some.inj (hreport.symm.trans hsome)
    -- where the check ends before the line, it finds what it finds without it
    have hnone : checkRenderModes source = [] := by
      obtain ⟨issues, hissues⟩ := checkRenderModesFrom_of_not_watched hwatched hdeclares 1
      rw [checkRenderModes, hread, hissues, ← hissues, hmodes]
    have hother : issue ∈ checkTransitions source ++ checkPageStructure source
        ++ checkControlIds source ++ checkClass source := by
      simpa [Report.ofIssues, hnone] using hissue
    obtain ⟨rest, hrest⟩ := hmessage
    exact head?_message_ne hother (by rw [← hrest]; rfl)
  · intro hwatched
    have hmem := mem_checkRenderModesFrom_of_watched hwatched hfirst' hextra' 1 (rest.map dropReturn)
    rw [← hread] at hmem
    have hmodes : Problem.orphanedOpening.issueAt (1 + (ls.map dropReturn).length + 1)
        (dropReturn extra) ∈ checkRenderModes source := hmem
    refine ⟨_, hreport, Problem.orphanedOpening.issueAt (1 + (ls.map dropReturn).length + 1)
      (dropReturn extra), ?_, ?_, ?_⟩
    · simp only [Report.ofIssues, List.mem_append]
      exact .inl (.inl (.inl (.inl (.inl hmodes))))
    · rw [List.length_map]
      exact congrArg some (by omega)
    · exact ⟨_, rfl⟩

end

end WidgetCompiler.Validation
