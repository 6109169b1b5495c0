import WidgetCompiler.Proofs.Text.Pattern
import WidgetCompiler.Proofs.Text.Pieces
import WidgetCompiler.Validation.Basic

/-!
# The places of findings

Checks come to the line of a finding in two ways.  Those that go through the lines count them as they
go.  Those that look for a pattern in the whole text count the line feeds before a match and look up
the line with the number that results.  Both give a line of the source: a match begins at a character,
and each character stands in a line, whatever its lines end with and whether the last one is ended
(`Text.count_lt_length_lines`).

Main statement: a finding that names a line names one of the source, and what it shows of a line is
that very line (`placed_validate`).
-/

namespace WidgetCompiler.Validation

open Text

/-- What may be shown of a line: the line without the blanks around it, or the first 100 characters of
that and three dots if it is longer. -/
def IsSnippet (shown line : Text) : Prop :=
  (trim line).length ≤ 100 ∧ shown = trim line
    ∨ 100 < (trim line).length ∧ shown = (trim line).take 100 ++ "..."

/-- The line that a finding names is one of these lines, counted from 1, and what it shows is shown of
that line. -/
structure Issue.Placed (ls : List Text) (issue : Issue) : Prop where
  line : ∀ number ∈ issue.line, 1 ≤ number ∧ number ≤ ls.length
  snippet : ∀ shown ∈ issue.snippet, ∃ number ∈ issue.line, ∃ l ∈ ls[number - 1]?, IsSnippet shown l

/-- The finding is a problem in one of these lines, the first of which has the given number. -/
def IssueIn (number : Nat) (ls : List Text) (issue : Issue) : Prop :=
  ∃ (p : Problem) (k : Nat) (l : Text), ls[k]? = some l ∧ issue = p.issueAt (number + k) l

variable {number offset : Nat} {l text : Text} {ls : List Text} {issue : Issue}

theorem isSnippet_snippetOf (l : Text) : IsSnippet (Problem.snippetOf l) l := by
  by_cases h : (trim l).length ≤ 100
  · exact .inl ⟨h, if_pos h⟩
  · exact .inr ⟨Nat.lt_of_not_le h, if_neg h⟩

/-- A finding without a place. -/
theorem placed_of_none (hline : issue.line = none) (hsnippet : issue.snippet = none) :
    issue.Placed ls where
  line _ h := by
    rw [hline] at h
    exact absurd h (by simp)
  snippet _ h := by
    rw [hsnippet] at h
    exact absurd h (by simp)

namespace IssueIn

theorem head (p : Problem) (number : Nat) (l : Text) (ls : List Text) :
    IssueIn number (l :: ls) (p.issueAt number l) :=
  ⟨p, 0, l, rfl, rfl⟩

theorem cons (l : Text) (h : IssueIn (number + 1) ls issue) : IssueIn number (l :: ls) issue := by
  obtain ⟨p, k, l', hl', rfl⟩ := h
  refine ⟨p, k + 1, l', hl', ?_⟩
  rw [Nat.add_assoc, Nat.add_comm 1]

theorem placed (h : IssueIn 1 ls issue) : issue.Placed ls := by
  obtain ⟨p, k, l, hl, rfl⟩ := h
  have hk : k < ls.length := (List.getElem?_eq_some_iff.1 hl).1
  have hplace : ls[1 + k - 1]? = some l := by rwa [Nat.add_sub_cancel_left]
  constructor
  · intro n hn
    obtain rfl : 1 + k = n := Option.some.inj hn
    omega
  · intro shown hshown
    obtain rfl : Problem.snippetOf l = shown := Option.some.inj hshown
    exact ⟨1 + k, rfl, l, hplace, isSnippet_snippetOf l⟩

end IssueIn

/-! ## Checks that go through the lines -/

theorem issueIn_of_mem_modeIssues {indent : Nat} {inCode : Bool} {previous : Text}
    (h : issue ∈ modeIssues indent number inCode previous ls) : IssueIn number ls issue := by
  fun_induction modeIssues indent number inCode previous ls with
  | case1 => simp at h
  | case2 number inCode previous l ls trimmed hempty ih => exact (ih h).cons l
  | case3 => simp at h
  | case4 number inCode previous l ls trimmed hempty hends here ih =>
    rcases List.mem_append.1 h with h | h
    · obtain ⟨p, -, rfl⟩ := List.mem_map.1 h
      exact IssueIn.head p number l ls
    · exact (ih h).cons l

theorem issueIn_of_mem_checkRenderModesFrom (h : issue ∈ checkRenderModesFrom number ls) :
    IssueIn number ls issue := by
  induction ls generalizing number with
  | nil => simp [checkRenderModesFrom] at h
  | cons l ls ih =>
    rw [checkRenderModesFrom] at h
    split at h
    · exact (issueIn_of_mem_modeIssues h).cons l
    · exact (ih h).cons l

theorem issueIn_of_mem_quoteIssues {state : LexState} {issues : List Issue}
    (hissues : quoteIssues state number ls = some issues) (h : issue ∈ issues) :
    IssueIn number ls issue := by
  induction ls generalizing state number issues with
  | nil =>
    obtain rfl := Option.some.inj hissues
    simp at h
  | cons l ls ih =>
    rw [quoteIssues] at hissues
    split at hissues
    · simp at hissues
    · next reached _ =>
      obtain ⟨rest, hrest, rfl⟩ := Option.map_eq_some_iff.1 hissues
      rcases List.mem_append.1 h with h | h
      · obtain ⟨q, -, rfl⟩ := Option.map_eq_some_iff.1 (Option.mem_toList.1 h)
        exact IssueIn.head (.openQuote q) number l ls
      · exact (ih hrest h).cons l

/-! ## Checks that look for a pattern -/

/-- The line that is looked up for a character is there. -/
theorem getElem?_lineNumber (h : offset < text.length) :
    ∃ l, (Source.ofText text).lines[(Source.ofText text).lineNumber offset - 1]? = some l := by
  have hrest : text.drop offset ≠ [] := by simpa using h
  have hcount := count_lt_length_lines (text.take offset) hrest
  rw [List.take_append_drop] at hcount
  exact ⟨_, List.getElem?_eq_getElem hcount⟩

theorem issueIn_issueAt (p : Problem) (h : offset < text.length) :
    IssueIn 1 (lines text) ((Source.ofText text).issueAt p offset) := by
  obtain ⟨l, hl⟩ := getElem?_lineNumber h
  have hline : (Source.ofText text).line ((Source.ofText text).lineNumber offset) = l := by
    rw [Source.line, hl]
    rfl
  refine ⟨p, (text.take offset).count '\n', l, hl, ?_⟩
  rw [Source.issueAt, hline, Source.lineNumber, Nat.add_comm 1]
  rfl

theorem placed_of_mem_checkTransitions (h : issue ∈ checkTransitions (.ofText text)) :
    issue.Placed (lines text) := by
  unfold checkTransitions at h
  split at h
  · simp at h
  · next first more hfound =>
    obtain rfl := List.mem_singleton.1 h
    have hfirst : first ∈ Pattern.findAll transition text :=
      (List.mem_filter.1 (hfound ▸ List.mem_cons_self)).1
    exact (issueIn_issueAt _ (Pattern.offset_lt_of_mem_findAll hfirst)).placed

theorem placed_of_mem_checkPageStructure (h : issue ∈ checkPageStructure (.ofText text)) :
    issue.Placed (lines text) := by
  obtain ⟨⟨pattern, what⟩, -, hissue⟩ := List.mem_filterMap.1 h
  obtain ⟨offset, hoffset, rfl⟩ := Option.map_eq_some_iff.1 hissue
  exact (issueIn_issueAt _ (Pattern.lt_of_findOffset? hoffset)).placed

/-- Values that are not escaped are reported with a line, of which nothing is shown. -/
theorem placed_of_mem_checkEscaping (h : issue ∈ checkEscaping (.ofText text)) :
    issue.Placed (lines text) := by
  unfold checkEscaping at h
  split at h
  · simp at h
  · next first more hfound =>
    obtain rfl := List.mem_singleton.1 h
    have hfirst : first ∈ Pattern.findAll plainEcho text :=
      (List.mem_filter.1 (hfound ▸ List.mem_cons_self)).1
    obtain ⟨l, hl⟩ := getElem?_lineNumber (Pattern.offset_lt_of_mem_findAll hfirst)
    have hbound := (List.getElem?_eq_some_iff.1 hl).1
    constructor
    · intro n hn
      obtain rfl : (Source.ofText text).lineNumber first.offset = n := Option.some.inj hn
      have hpos : 1 ≤ (Source.ofText text).lineNumber first.offset := Nat.succ_pos _
      refine ⟨hpos, ?_⟩
      change _ - 1 < (lines text).length at hbound
      omega
    · intro shown hshown
      simp [Problem.issue] at hshown

theorem placed_of_mem_checkGlobalCss (h : issue ∈ checkGlobalCss (.ofText text)) :
    issue.Placed (lines text) := by
  unfold checkGlobalCss at h
  split at h
  · split at h
    · simp at h
    · obtain rfl := List.mem_singleton.1 h
      exact placed_of_none rfl rfl
  · simp at h

theorem placed_of_mem_checkControlIds (h : issue ∈ checkControlIds (.ofText text)) :
    issue.Placed (lines text) := by
  have along (seen : List Text) (found : List (Found Text))
      (hfound : ∀ f ∈ found, f.offset < text.length)
      (h : issue ∈ idIssues (.ofText text) seen found) : issue.Placed (lines text) := by
    induction found generalizing seen with
    | nil => simp [idIssues] at h
    | cons f found ih =>
      have hrest : ∀ f' ∈ found, f'.offset < text.length :=
        fun f' hf' => hfound f' (List.mem_cons_of_mem f hf')
      rw [idIssues] at h
      split at h
      · exact ih seen hrest h
      · rcases List.mem_cons.1 h with rfl | h
        · exact (issueIn_issueAt _ (hfound f List.mem_cons_self)).placed
        · exact ih _ hrest h
  exact along [] _ (fun f hf => Pattern.offset_lt_of_mem_findAll hf) h

theorem placed_of_mem_checkClass {s : Source} (h : issue ∈ checkClass s) : issue.Placed ls := by
  rcases List.mem_append.1 h with h | h
  · split at h
    · simp at h
    · obtain rfl := List.mem_singleton.1 h
      exact placed_of_none rfl rfl
  · obtain ⟨name, -, rfl⟩ := List.mem_map.1 h
    exact placed_of_none rfl rfl

/-! ## Reports -/

/-- Each finding of a report that names a line names one of the source, and one that shows a line shows
the one that it names: the line without the blanks around it, cut behind 100 characters. -/
theorem placed_validate {report : Report} (h : validate? text = some report) :
    ∀ issue ∈ report.errors ++ report.warnings, issue.Placed (lines text) := by
  intro issue hissue
  obtain ⟨quotes, hquotes, rfl⟩ := Option.map_eq_some_iff.1 h
  simp only [Report.ofIssues, List.mem_append] at hissue
  rcases hissue with (((((hmodes | htransition) | hpage) | hid) | hquote) | hclass) | hescaping | hcss
  · exact (issueIn_of_mem_checkRenderModesFrom hmodes).placed
  · exact placed_of_mem_checkTransitions htransition
  · exact placed_of_mem_checkPageStructure hpage
  · exact placed_of_mem_checkControlIds hid
  · exact (issueIn_of_mem_quoteIssues hquotes hquote).placed
  · exact placed_of_mem_checkClass hclass
  · exact placed_of_mem_checkEscaping hescaping
  · exact placed_of_mem_checkGlobalCss hcss

/-- A source with both line ends and an open last line, in which one match goes over a line end. -/
def splitSource : Text := "?>\r\n<?php x\n$a = 'b"

/-- Two findings in it have a line. -/
theorem placed_validate_splitSource :
    validate? splitSource = some (Report.ofIssues
        ((Problem.redundantTransitions 1).issueAt 1 "?>" :: (Problem.openQuote '\'').issueAt 3 "$a = 'b"
          :: Problem.noClass.issue :: requiredMethods.map fun name => (Problem.missingMethod name).issue) [])
      ∧ ((Problem.redundantTransitions 1).issueAt 1 "?>").Placed (lines splitSource)
      ∧ ((Problem.openQuote '\'').issueAt 3 "$a = 'b").Placed (lines splitSource) := by
  have hreport : validate? splitSource = some (Report.ofIssues
      ((Problem.redundantTransitions 1).issueAt 1 "?>" :: (Problem.openQuote '\'').issueAt 3 "$a = 'b"
        :: Problem.noClass.issue :: requiredMethods.map fun name => (Problem.missingMethod name).issue) []) := by
    decide +kernel
  have hplaced := placed_validate hreport
  refine ⟨hreport, hplaced _ ?_, hplaced _ ?_⟩
  · exact List.mem_append_left _ List.mem_cons_self
  · exact List.mem_append_left _ (List.mem_cons_of_mem _ List.mem_cons_self)

end WidgetCompiler.Validation
