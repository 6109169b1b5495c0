import WidgetCompiler.Proofs.Validation.Markers
import WidgetCompiler.Proofs.Validation.Octets
import WidgetCompiler.Validation.Basic

/-!
# Faults in checking a source

The checks of a source by places in its octets: they cut the source where a match begins, count down from
the number of a line, look lines up, take the width of blanks as a difference, read a style sheet, and
read the lines for literals that are not closed.  All that can fail in this is written out.

Main statement: there is a fault exactly if a character outside ASCII stands outside line comments, and
it is one of the check of literals; otherwise that check finds what the lexer of characters says
(`validate_fault_iff`).

No other check cuts a text elsewhere than at a character, and no number that is counted down is zero.  The
blanks before a line are counted in octets here; where the lines can be read they are ASCII
(`mem_heededLines_of_mem_takeWhile`), so that the checks agree.
-/

namespace WidgetCompiler.Validation.Octets

open Text
open Style (isQuote)
open Style.Octets (size)

/-! ## The checks -/

/-- How many octets of blanks a line begins with. -/
def indentWidth (line : Text) : Except Fault Nat := minus (size line) (size (trimStart line))

/-- The findings in the lines of a method that follow `previous`, the first of which has the given
number. -/
def modeIssues (indent number : Nat) (inCode : Bool) (previous : Text) :
    List Text → Except Fault (List Issue)
  | [] => return []
  | line :: rest => do
    let trimmed := trim line
    if trimmed.isEmpty then modeIssues indent (number + 1) inCode previous rest
    else
      let width ← indentWidth line
      if inCode && trimmed.head? = some '\x7d' && width ≤ indent then return []
      else
        let here := if inCode then (problemInCode? previous trimmed).toList else []
        let issues ← modeIssues indent (number + 1) (codeAfter line inCode) trimmed rest
        return here.map (·.issueAt number line) ++ issues

/-- The findings on the modes of the method that shows the widget. -/
def checkRenderModes (lines : List Text) : Except Fault (List Issue) :=
  match lines.findIdx? (Pattern.occursIn (methodNamed "render")) with
  | none => return []
  | some index => do
    let line ← get lines index
    let indent ← indentWidth line
    if index + 1 ≤ lines.length then
      modeIssues indent (index + 2) true (trim line) (lines.drop (index + 1))
    else throw (.index (index + 1))

/-- The octets that precede a character. -/
def place (text : Text) (offset : Nat) : Nat := size (text.take offset)

/-- The number of the line in which an octet stands, counted from 1. -/
def lineNumber (text : Text) (place : Nat) : Except Fault Nat := do
  let front ← slice text 0 place
  return front.count '\n' + 1

/-- A problem as a finding in the line of an octet. -/
def issueAt (s : Source) (p : Problem) (place : Nat) : Except Fault Issue := do
  let number ← lineNumber s.text place
  let index ← minus number 1
  return p.issueAt number ((s.lines[index]?).getD [])

/-- The finding that code is left for nothing, in the first line where it is. -/
def checkTransitions (s : Source) : Except Fault (List Issue) :=
  match (Pattern.findAll transition s.text).filter (!transitionKeywords.contains ·.value) with
  | [] => return []
  | first :: more => do
    let issue ← issueAt s (.redundantTransitions (more.length + 1)) (place s.text first.offset)
    return [issue]

/-- The findings on pieces of a page, one for each sort. -/
def checkPageStructure (s : Source) : Except Fault (List Issue) :=
  (pagePatterns.filterMap fun (pattern, what) =>
      (Pattern.findOffset? pattern s.text).map fun offset => (what, offset)).mapM
    fun (what, offset) => issueAt s (.pageStructure what) (place s.text offset)

/-- The finding on values that are not escaped, in the first line where one is. -/
def checkEscaping (s : Source) : Except Fault (List Issue) :=
  match (Pattern.findAll plainEcho s.text).filter (!rawCodeControls.contains ·.value) with
  | [] => return []
  | first :: more => do
    let number ← lineNumber s.text (place s.text first.offset)
    return [{ (Problem.unescapedValues (more.length + 1)).issue with line := some number }]

/-- The finding on selectors of the whole page in the widget's style sheet. -/
def checkGlobalCss (s : Source) : Except Fault (List Issue) :=
  match Pattern.findValue? customCssDefault s.text with
  | some (quote, body) => do
    let css := Php.unescape quote body
    let sheet ← (Style.Octets.parse (size css + 1) css 0).mapError .text
    match sortDistinct (sheet.globalSelectors.map lowerAscii) with
    | [] => return []
    | selectors => return [(Problem.globalSelectors selectors).issue]
  | none => return []

/-- The findings on ids, each id once, for lookups that follow those of the ids in `seen`.  The line is
that of the id, which stands behind the opening of the lookup. -/
def idIssues (s : Source) (seen : List Text) : List (Found Text) → Except Fault (List Issue)
  | [] => return []
  | found :: more =>
    if isIdentifier found.value || seen.contains found.value then idIssues s seen more
    else do
      let opening := ("$settings[".toList).length + 1
      let issue ← issueAt s (.invalidControlId found.value) (place s.text (found.offset + opening))
      let issues ← idIssues s (found.value :: seen) more
      return issue :: issues

/-- The findings on settings that are looked up under what is no identifier. -/
def checkControlIds (s : Source) : Except Fault (List Issue) :=
  idIssues s [] (Pattern.findAll settingsLookup s.text)

/-- The report on a source. -/
def validate (text : Text) : Except Fault Report := do
  let s := Source.ofText text
  let modes ← checkRenderModes s.lines
  let transitions ← checkTransitions s
  let page ← checkPageStructure s
  let escaping ← checkEscaping s
  let css ← checkGlobalCss s
  let ids ← checkControlIds s
  let quotes ← checkQuotes .markup 1 s.lines
  return Report.ofIssues (modes ++ transitions ++ page ++ ids ++ quotes ++ checkClass s) (escaping ++ css)

variable {t : Text}

/-! ## No other faults -/

theorem slice_place (text : Text) (offset : Nat) :
    slice text 0 (place text offset) = .ok (text.take offset) := by
  have hslice := Style.Octets.slice_append [] (text.take offset) (text.drop offset)
  rw [List.nil_append, List.take_append_drop, Style.Octets.size_nil, Nat.zero_add] at hslice
  rw [slice, place, hslice]
  rfl

theorem lineNumber_place (s : Source) (offset : Nat) :
    lineNumber s.text (place s.text offset) = .ok (s.lineNumber offset) := by
  rw [lineNumber, slice_place]
  rfl

theorem issueAt_place (s : Source) (p : Problem) (offset : Nat) :
    issueAt s p (place s.text offset) = .ok (s.issueAt p offset) := by
  have hpos : 1 ≤ s.lineNumber offset := Nat.succ_pos _
  rw [issueAt, lineNumber_place]
  simp only [bind, Except.bind, minus, if_pos hpos]
  rfl

/-- What precedes the text behind a line's blanks are the blanks. -/
theorem indentWidth_eq (line : Text) : indentWidth line = .ok (size (line.takeWhile isBlank)) := by
  have hsize : size line = size (line.takeWhile isBlank) + size (trimStart line) := by
    rw [← Style.Octets.size_append, trimStart_append]
  rw [indentWidth, minus, if_pos (by omega), hsize, Nat.add_sub_cancel]

theorem size_of_isAscii (h : ∀ c ∈ t, isAscii c = true) : size t = t.length := by
  induction t with
  | nil => rfl
  | cons c t ih =>
    have ht := ih fun d hd => h d (List.mem_cons_of_mem c hd)
    rw [Style.Octets.size_cons, Style.Octets.utf8Size_eq_one (h c List.mem_cons_self), ht,
      List.length_cons, Nat.add_comm]

/-- The blanks before the lines are characters of one octet. -/
def Indented (ls : List Text) : Prop := ∀ l ∈ ls, ∀ c ∈ l.takeWhile isBlank, isAscii c = true

theorem exists_modeIssues (indent number : Nat) (inCode : Bool) (previous : Text) (ls : List Text) :
    ∃ issues, modeIssues indent number inCode previous ls = .ok issues
      ∧ (Indented ls → issues = Validation.modeIssues indent number inCode previous ls) := by
  induction ls generalizing number inCode previous with
  | nil => exact ⟨[], rfl, fun _ => rfl⟩
  | cons line ls ih =>
    rw [modeIssues]
    by_cases hblank : (trim line).isEmpty = true
    · obtain ⟨issues, hissues, heq⟩ := ih (number + 1) inCode previous
      refine ⟨issues, by simpa [hblank] using hissues, fun hindented => ?_⟩
      rw [Validation.modeIssues, heq fun l hl => hindented l (List.mem_cons_of_mem line hl)]
      simp [hblank]
    · have hwidth : Indented (line :: ls) →
          size (line.takeWhile isBlank) = Validation.indentWidth line := fun hindented =>
        size_of_isAscii (hindented line List.mem_cons_self)
      simp only [hblank, if_false, Bool.false_eq_true, indentWidth_eq, bind, Except.bind]
      by_cases hends : (inCode && decide ((trim line).head? = some '\x7d')
          && decide (size (line.takeWhile isBlank) ≤ indent)) = true
      · refine ⟨[], by rw [if_pos hends]; rfl, fun hindented => ?_⟩
        rw [hwidth hindented] at hends
        rw [Validation.modeIssues]
        simp only [hblank, if_false, Bool.false_eq_true, hends, if_true]
      · obtain ⟨issues, hissues, heq⟩ := ih (number + 1) (codeAfter line inCode) (trim line)
        rw [if_neg hends, hissues]
        refine ⟨_, rfl, fun hindented => ?_⟩
        rw [hwidth hindented] at hends
        rw [Validation.modeIssues, heq fun l hl => hindented l (List.mem_cons_of_mem line hl)]
        simp only [hblank, if_false, Bool.false_eq_true, hends]

/-- The line with the declaration, and what the check finds behind it. -/
theorem checkRenderModesFrom_eq (number : Nat) (ls : List Text) :
    match ls.findIdx? (Pattern.occursIn (methodNamed "render")) with
    | none => checkRenderModesFrom number ls = []
    | some index => ∃ line, ls[index]? = some line ∧ checkRenderModesFrom number ls
        = Validation.modeIssues (Validation.indentWidth line) (number + index + 1) true (trim line)
          (ls.drop (index + 1)) := by
  induction ls generalizing number with
  | nil => rfl
  | cons line ls ih =>
    rw [List.findIdx?_cons, checkRenderModesFrom]
    by_cases hdeclares : Pattern.occursIn (methodNamed "render") line = true
    · rw [if_pos hdeclares, if_pos hdeclares]
      exact ⟨line, rfl, rfl⟩
    · rw [if_neg hdeclares, if_neg hdeclares]
      have hrest := ih (number + 1)
      cases hindex : ls.findIdx? (Pattern.occursIn (methodNamed "render")) with
      | none => rwa [hindex] at hrest
      | some index =>
        rw [hindex] at hrest
        obtain ⟨line', hline', hissues⟩ := hrest
        refine ⟨line', hline', ?_⟩
        rw [hissues]
        have hnumber : number + 1 + index + 1 = number + (index + 1) + 1 := by omega
        rw [hnumber]
        rfl

theorem exists_checkRenderModes (ls : List Text) : ∃ issues, checkRenderModes ls = .ok issues
    ∧ (Indented ls → issues = checkRenderModesFrom 1 ls) := by
  have hfrom := checkRenderModesFrom_eq 1 ls
  rw [checkRenderModes]
  cases hindex : ls.findIdx? (Pattern.occursIn (methodNamed "render")) with
  | none =>
    rw [hindex] at hfrom
    exact ⟨[], rfl, fun _ => hfrom.symm⟩
  | some index =>
    rw [hindex] at hfrom
    obtain ⟨line, hline, hissues⟩ := hfrom
    have hbound : index + 1 ≤ ls.length := (List.getElem?_eq_some_iff.1 hline).1
    obtain ⟨issues, hrun, heq⟩ := exists_modeIssues (size (line.takeWhile isBlank)) (index + 2) true
      (trim line) (ls.drop (index + 1))
    refine ⟨issues, ?_, fun hindented => ?_⟩
    · simp only [get, hline, bind, Except.bind, indentWidth_eq, if_pos hbound, hrun]
    · have hwidth : size (line.takeWhile isBlank) = Validation.indentWidth line :=
        size_of_isAscii (hindented line (List.mem_of_getElem? hline))
      have hnumber : 1 + index + 1 = index + 2 := by omega
      rw [heq fun l hl => hindented l (List.mem_of_mem_drop hl), hissues, hwidth, hnumber]

theorem checkTransitions_eq (s : Source) : checkTransitions s = .ok (Validation.checkTransitions s) := by
  rw [checkTransitions, Validation.checkTransitions]
  cases (Pattern.findAll transition s.text).filter (!transitionKeywords.contains ·.value) with
  | nil => rfl
  | cons first more =>
    simp only [issueAt_place, bind, Except.bind]
    rfl

theorem checkPageStructure_eq (s : Source) :
    checkPageStructure s = .ok (Validation.checkPageStructure s) := by
  have hissue : (fun (found : Text × Nat) => issueAt s (.pageStructure found.1) (place s.text found.2))
      = fun found => pure (s.issueAt (.pageStructure found.1) found.2) :=
    funext fun found => issueAt_place s _ _
  have hread := List.mapM_pure (m := Except Fault) (l := pagePatterns.filterMap fun (pattern, what) =>
    (Pattern.findOffset? pattern s.text).map fun offset => (what, offset))
    (f := fun found => s.issueAt (.pageStructure found.1) found.2)
  rw [← hissue] at hread
  refine hread.trans (congrArg Except.ok ?_)
  rw [List.map_filterMap, Validation.checkPageStructure]
  simp only [Option.map_map]
  rfl

theorem checkEscaping_eq (s : Source) : checkEscaping s = .ok (Validation.checkEscaping s) := by
  rw [checkEscaping, Validation.checkEscaping]
  cases (Pattern.findAll plainEcho s.text).filter (!rawCodeControls.contains ·.value) with
  | nil => rfl
  | cons first more =>
    simp only [lineNumber_place, bind, Except.bind]
    rfl

/-- The style sheet is read to its end, and without a fault. -/
theorem checkGlobalCss_eq (s : Source) : checkGlobalCss s = .ok (Validation.checkGlobalCss s) := by
  rw [checkGlobalCss, Validation.checkGlobalCss]
  cases Pattern.findValue? customCssDefault s.text with
  | none => rfl
  | some found =>
    have hparse := Style.Octets.parse_eq (Php.unescape found.1 found.2) (Nat.lt_succ_self _)
    simp only [hparse, Except.mapError, bind, Except.bind, Style.findGlobal]
    cases sortDistinct ((Style.Sheet.parse (Php.unescape found.1 found.2)).globalSelectors.map lowerAscii)
      <;> rfl

/-- An id stands in the line in which its lookup begins. -/
theorem lineNumber_id {found : Found Text} (s : Source) (h : found ∈ Pattern.findAll settingsLookup s.text) :
    s.lineNumber (found.offset + (("$settings[".toList).length + 1)) = s.lineNumber found.offset := by
  obtain ⟨prev, rest, hread⟩ := Pattern.match_of_mem_findAll consumes_settingsLookup h
  obtain ⟨q, r, hlookup, hq, -⟩ := settingsLookup_eq_some hread
  have hopening : (s.text.drop found.offset).take (("$settings[".toList).length + 1)
      = ("$settings[" : Text) ++ [q] := by
    rw [hlookup]
    rfl
  have hcount : (("$settings[" : Text) ++ [q]).count '\n' = 0 := by
    rcases (by simpa [isQuote] using hq : q = '"' ∨ q = '\'') with rfl | rfl <;> decide
  rw [Source.lineNumber, Source.lineNumber, List.take_add, List.count_append, hopening, hcount]

theorem idIssues_eq (s : Source) (seen : List Text) (more : List (Found Text))
    (h : ∀ found ∈ more, s.lineNumber (found.offset + (("$settings[".toList).length + 1))
      = s.lineNumber found.offset) :
    idIssues s seen more = .ok (Validation.idIssues s seen more) := by
  induction more generalizing seen with
  | nil => rfl
  | cons found more ih =>
    have hrest := fun seen => ih seen fun f hf => h f (List.mem_cons_of_mem found hf)
    have hissue : s.issueAt (.invalidControlId found.value) (found.offset + (("$settings[".toList).length + 1))
        = s.issueAt (.invalidControlId found.value) found.offset := by
      rw [Source.issueAt, h found List.mem_cons_self]
      rfl
    rw [idIssues, Validation.idIssues]
    split
    · exact hrest seen
    · simp only [issueAt_place, hissue, hrest, bind, Except.bind]
      rfl

theorem checkControlIds_eq (s : Source) : checkControlIds s = .ok (Validation.checkControlIds s) :=
  idIssues_eq s [] _ fun _ hfound => lineNumber_id s hfound

/-! ## The report -/

/-- All checks but that of literals end with their findings. -/
theorem exists_validate_eq (text : Text) : ∃ modes,
    (Indented (lines text) → modes = Validation.checkRenderModes (.ofText text))
    ∧ validate text = (checkQuotes .markup 1 (lines text)).map fun quotes =>
      Report.ofIssues (modes ++ Validation.checkTransitions (.ofText text)
          ++ Validation.checkPageStructure (.ofText text) ++ Validation.checkControlIds (.ofText text)
          ++ quotes ++ checkClass (.ofText text))
        (Validation.checkEscaping (.ofText text) ++ Validation.checkGlobalCss (.ofText text)) := by
  obtain ⟨modes, hmodes, heq⟩ := exists_checkRenderModes (lines text)
  refine ⟨modes, heq, ?_⟩
  have hlines : (Source.ofText text).lines = lines text := rfl
  rw [validate]
  simp only [hlines, hmodes, checkTransitions_eq, checkPageStructure_eq, checkEscaping_eq,
    checkGlobalCss_eq, checkControlIds_eq, bind, Except.bind]
  cases checkQuotes .markup 1 (lines text) <;> rfl

/-- Checking a source octet by octet ends with a fault exactly if a character outside ASCII stands outside
line comments, and then no report is given; the fault is that of the check of literals.  Otherwise this
check finds the lines at whose ends a literal is open, with its quote, and there is a report. -/
theorem validate_fault_iff (text : Text) :
    (validate text).toOption = validate? text
    ∧ ((∃ fault, validate text = .error fault)
      ↔ ∃ c ∈ heededLines .markup (lines text), isAscii c = false)
    ∧ (∀ fault, validate text = .error fault → checkQuotes .markup 1 (lines text) = .error fault)
    ∧ ((∀ c ∈ heededLines .markup (lines text), isAscii c = true) →
      checkQuotes .markup 1 (lines text) = .ok (openLiterals .markup 1 (lines text))
      ∧ ∃ report, validate text = .ok report) := by
  obtain ⟨modes, hmodes, hvalidate⟩ := exists_validate_eq text
  have hquotes : (checkQuotes .markup 1 (lines text)).toOption = checkQuotes? (.ofText text) :=
    checkQuotes_eq .markup rfl 1 (lines text)
  rw [hvalidate, validate?]
  by_cases hascii : ∀ c ∈ heededLines .markup (lines text), isAscii c = true
  · have hcheck : checkQuotes? (.ofText text) = some (openLiterals .markup 1 (lines text)) := by
      rw [checkQuotes?_eq, if_pos (List.all_eq_true.2 hascii)]
    have hok := toOption_eq_some.1 (hquotes.trans hcheck)
    have hindented : Indented (lines text) := fun l hl c hc =>
      hascii c (mem_heededLines_of_mem_takeWhile rfl hl hc)
    rw [hok]
    refine ⟨?_, iff_of_false ?_ ?_, ?_, fun _ => ⟨rfl, _, rfl⟩⟩
    · simp only [hcheck, Option.map_some, hmodes hindented]
      rfl
    · rintro ⟨fault, hfault⟩
      cases hfault
    · rintro ⟨c, hc, hfalse⟩
      exact Bool.false_ne_true (hfalse.symm.trans (hascii c hc))
    · intro fault hfault
      cases hfault
  · have hcheck : checkQuotes? (.ofText text) = none := by
      rw [checkQuotes?_eq, if_neg (mt List.all_eq_true.1 hascii)]
    obtain ⟨fault, hfault⟩ := toOption_eq_none.1 (hquotes.trans hcheck)
    rw [hfault]
    refine ⟨?_, iff_of_true ⟨fault, rfl⟩ ?_, ?_, fun h => absurd h hascii⟩
    · simp only [hcheck, Option.map_none]
      rfl
    · simpa using hascii
    · intro fault' hfault'
      cases hfault'
      rfl

/-- What stands in a line comment is not read, but a literal is. -/
theorem validate_fault_iff_comment :
    (∃ fault, validate "<?php $a = 'é';" = .error fault)
    ∧ checkQuotes .markup 1 (lines "<?php // é\n$a = 'b;")
      = .ok [(Problem.openQuote '\'').issueAt 2 "$a = 'b;"] := by
  have hfault := (validate_fault_iff "<?php $a = 'é';").2.1.2 (by decide +kernel)
  have hquotes := ((validate_fault_iff "<?php // é\n$a = 'b;").2.2.2 (by decide +kernel)).1
  exact ⟨hfault, hquotes.trans (congrArg Except.ok (by decide +kernel))⟩

end WidgetCompiler.Validation.Octets
