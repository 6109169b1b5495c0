import WidgetCompiler.Proofs.Php.Literals
import WidgetCompiler.Proofs.Php.Segments
import WidgetCompiler.Proofs.Render.PlanValues
import WidgetCompiler.Proofs.Text.Plain

/-!
# The printed routine is the plan

`Plan.laidOut` is a plan as a list: its markup as it stands, and between it the statements that its
values stand for, with the body of a condition between the two statements of the condition.  Cutting
a printed plan at its delimiters gives this list back (`segments_write`).

The writer is asked for the parts as they are, merged or not, and joins neighbouring pieces of
markup itself; so the list is read off the calls, and merging does not change it
(`ofCalls_mergeMarkup`).
-/

namespace WidgetCompiler.Render

open Text Php

/-- The parts of a plan in a row: each piece of markup, and the statements between. -/
def Plan.laidOut (p : Plan) : List Segment := (Writer.Alternation.ofCalls (callsOf p.parts)).segments

/-! ## Calls for parts -/

theorem pieces_callsOf (ps : List Part) : Writer.Pieces (callsOf ps) := by
  intro call hc hmarkup
  rcases eq_of_mem_callsOf hc with ⟨t, rfl⟩ | ⟨code, -, rfl⟩
  · simp [Writer.Call.isMarkup] at hmarkup
  · exact ⟨code, rfl⟩

/-- A plan that shows something asks for something that is not blank. -/
theorem exists_visible_call {p : Plan} (h : p.hasMarkup = true) :
    ∃ call ∈ callsOf p.parts, call.isBlankMarkup = false := by
  obtain ⟨q, hq, hvisible⟩ := List.any_eq_true.1 h
  generalize p.parts = ps at hq
  induction ps with
  | nil => exact absurd hq List.not_mem_nil
  | cons q' ps ih =>
    rcases List.mem_cons.1 hq with rfl | hq
    · cases q with
      | markup t =>
        refine ⟨.markup t, by simp [callsOf], ?_⟩
        simpa [Part.isVisible, Writer.Call.isBlankMarkup] using hvisible
      | echo value escape => exact ⟨.inlineCode _, by rw [callsOf]; exact List.mem_cons_self .., rfl⟩
      | linkAttributes var => exact ⟨.inlineCode _, by rw [callsOf]; exact List.mem_cons_self .., rfl⟩
      | ifSet var body => exact ⟨.inlineCode _, by rw [callsOf]; exact List.mem_cons_self .., rfl⟩
    · obtain ⟨call, hcall, hblank⟩ := ih hq
      refine ⟨call, ?_, hblank⟩
      cases q' <;> simp [callsOf, hcall]

/-- Merging the parts changes nothing about what they ask for in a row. -/
theorem ofCalls_mergeMarkup (ps : List Part) (behind : List Writer.Call) :
    Writer.Alternation.ofCalls (callsOf (mergeMarkup ps) ++ behind)
      = Writer.Alternation.ofCalls (callsOf ps ++ behind) := by
  fun_induction mergeMarkup ps generalizing behind with
  | case1 => rfl
  | case2 t ps ht ih =>
    obtain rfl := List.isEmpty_iff.1 ht
    rw [ih, callsOf, List.cons_append, Writer.Alternation.ofCalls, List.nil_append]
  | case3 t ps _ u qs hqs ih =>
    have := ih behind
    rw [hqs, callsOf, List.cons_append, Writer.Alternation.ofCalls] at this
    rw [callsOf, callsOf, List.cons_append, List.cons_append, Writer.Alternation.ofCalls,
      Writer.Alternation.ofCalls, ← this, List.append_assoc]
  | case4 t ps _ _ ih =>
    rw [callsOf, callsOf, List.cons_append, List.cons_append, Writer.Alternation.ofCalls,
      Writer.Alternation.ofCalls, ih]
  | case5 var body ps ihbody ih =>
    have hbehind : Writer.Alternation.ofCalls (.inlineCode "endif;" :: (callsOf (mergeMarkup ps) ++ behind))
        = Writer.Alternation.ofCalls (.inlineCode "endif;" :: (callsOf ps ++ behind)) := by
      rw [Writer.Alternation.ofCalls, ih, Writer.Alternation.ofCalls]
    simp only [callsOf, List.cons_append, List.append_assoc, Writer.Alternation.ofCalls]
    rw [ihbody, Writer.Alternation.ofCalls_append_congr hbehind]
  | case6 value escape ps ih =>
    simp only [callsOf, List.cons_append, Writer.Alternation.ofCalls, ih]
  | case7 var ps ih => simp only [callsOf, List.cons_append, Writer.Alternation.ofCalls, ih]

/-! ## Pieces without delimiters -/

section

variable {name : Text}

theorem not_mem_of_isWord (h : IsWord name) : '?' ∉ name :=
  h.isPlain.not_mem (by decide)

theorem not_mem_value {value : Value} (h : value.Drawn IsWord IsWord) : '?' ∉ value.toPhp := by
  have hquoted {id : Text} (hid : IsWord id) : '?' ∉ singleQuoted id := by
    intro hm
    rw [singleQuoted, List.mem_cons, List.mem_append] at hm
    rcases hm with hm | hm | hm
    · exact absurd hm (by decide)
    · rcases mem_escapeSingle hm with hm | hm
      · exact not_mem_of_isWord hid hm
      · exact absurd hm (by decide)
    · exact absurd hm (by decide)
  have hname {name : Text} (hword : IsWord name) : '?' ∉ '$' :: name :=
    List.not_mem_cons_of_ne_of_not_mem (by decide) (not_mem_of_isWord hword)
  cases value with
  | setting id =>
    change '?' ∉ ("$settings[" : Text) ++ singleQuoted id ++ ("]" : Text)
    simp only [List.mem_append, not_or]
    exact ⟨⟨by decide, hquoted h⟩, by decide⟩
  | var name => exact hname h
  | url name =>
    change '?' ∉ '$' :: name ++ ("['url']" : Text)
    rw [List.mem_append, not_or]
    exact ⟨hname h, by decide⟩

theorem tagFree_echo {value : Value} (h : value.Drawn IsWord IsWord) (escape : Escape) :
    TagFree (echoStatement value escape) := by
  refine tagFree_of_not_mem ?_
  unfold echoStatement
  simp only [List.mem_append, not_or]
  exact ⟨⟨⟨⟨by decide, by cases escape <;> decide⟩, by decide⟩, not_mem_value h⟩, by decide⟩

/-- The question marks in the statements for a link are operators: nothing in them opens or closes
a tag. -/
theorem tagFree_link (h : IsWord name) : TagFree (linkStatements name) := by
  have hless : '<' ∉ name := h.isPlain.not_mem (by decide)
  have hgreater : '>' ∉ name := h.isPlain.not_mem (by decide)
  refine ⟨lacks_of_not_mem (c := '<') (by decide) ?_, lacks_of_not_mem (c := '>') (by decide) ?_⟩
  · unfold linkStatements
    simp only [List.mem_append, not_or]
    exact ⟨⟨⟨⟨by decide, hless⟩, by decide⟩, hless⟩, by decide⟩
  · unfold linkStatements
    simp only [List.mem_append, not_or]
    exact ⟨⟨⟨⟨by decide, hgreater⟩, by decide⟩, hgreater⟩, by decide⟩

theorem tagFree_ifSet (h : IsWord name) : TagFree ("if ($" ++ name ++ ") :") := by
  refine tagFree_of_not_mem ?_
  simp only [List.mem_append, not_or]
  exact ⟨⟨by decide, not_mem_of_isWord h⟩, by decide⟩

end

/-- The statements for parts whose names and ids are words have no delimiter in them. -/
theorem tagFree_of_mem_callsOf {ps : List Part} (h : ∀ v ∈ valuesIn ps, v.Drawn IsWord IsWord)
    {code : Text} (hc : .inlineCode code ∈ callsOf ps) : TagFree code := by
  cases codeOf_of_mem_callsOf hc with
  | echo hvalue escape => exact tagFree_echo (h _ hvalue) escape
  | link hvar => exact tagFree_link (h _ hvar)
  | ifSet hvar => exact tagFree_ifSet (h _ hvar)
  | endIf => exact tagFree_of_not_mem (by decide)

theorem isPlain_of_isWord {value : Value} (h : value.Drawn IsWord IsWord) : value.IsPlain := by
  have hplain {name : Text} (hname : IsWord name) : isPlainCode name = true := by
    refine List.all_eq_true.2 fun c hc => decide_eq_true fun hm => ?_
    have : ∀ d ∈ specialInCode, (d.isAlphanum || d == '_') = false := by decide
    exact Bool.false_ne_true ((this c hm).symm.trans (hname c hc))
  intro n hn
  cases value with
  | setting id => simp [Value.name?] at hn
  | var name =>
    obtain rfl : name = n := by simpa [Value.name?] using hn
    exact hplain h
  | url name =>
    obtain rfl : name = n := by simpa [Value.name?] using hn
    exact hplain h

theorem proper_ofCalls {ps : List Part} (hvalues : ∀ v ∈ valuesIn ps, v.Drawn IsWord IsWord)
    (htexts : ∀ t ∈ markupTexts (mergeMarkup ps), TagFree t) :
    (Writer.Alternation.ofCalls (callsOf ps)).Proper := by
  have hmerged := ofCalls_mergeMarkup ps []
  rw [List.append_nil, List.append_nil] at hmerged
  have hplain : ∀ v ∈ valuesIn ps, v.IsPlain := fun v hv => isPlain_of_isWord (hvalues v hv)
  have hregion : Writer.Region (callsOf (mergeMarkup ps)) :=
    region_callsOf_mergeMarkup fun v hv => hplain v (by rwa [valuesIn_mergeMarkup] at hv)
  have hmarkup := Writer.Alternation.of_mem_ofCalls hregion
  rw [hmerged] at hmarkup
  have htagFree (t : Text) (ht : t = (Writer.Alternation.ofCalls (callsOf ps)).front
      ∨ t ∈ (Writer.Alternation.ofCalls (callsOf ps)).turns.map (·.2)) : TagFree t := by
    rcases hmarkup t ht with rfl | ht
    · exact tagFree_of_not_mem List.not_mem_nil
    · exact htexts t (mem_markupTexts.2 ht)
  refine ⟨htagFree _ (.inl rfl), fun turn hturn => ?_, fun turn hturn =>
    htagFree _ (.inr (List.mem_map_of_mem hturn))⟩
  have hcall := Writer.Alternation.mem_turns_ofCalls hturn
  obtain ⟨code, hcode, hstatement⟩ := statement_of_mem_callsOf hplain hcall rfl
  obtain rfl := Writer.Call.inlineCode.inj hcode
  exact ⟨tagFree_of_mem_callsOf hvalues hcall, hstatement.ends⟩

/-! ## Printed plans -/

/-- The bindings as lines of code. -/
def bindingLines (lineIndent : Text) (bindings : List Binding) : Text :=
  bindings.flatMap fun b => lineIndent ++ b.toPhp ++ ['\n']

theorem foldl_bindings {w : Writer} (hw : w.mode = .code) (lineIndent : Text)
    (bindings : List Binding) :
    bindings.foldl (fun w b => w.line (lineIndent ++ b.toPhp)) w
      = { w with text := w.text ++ bindingLines lineIndent bindings } := by
  induction bindings generalizing w with
  | nil => simp [bindingLines]
  | cons b bs ih =>
    rw [List.foldl_cons, Writer.line_of_code hw, ih (by exact hw)]
    simp [bindingLines]

/-- What is printed before the region: the bindings, an empty line, and a remark. -/
def headText (lineIndent : Text) (bindings : List Binding) : Text :=
  bindingLines lineIndent bindings ++ ['\n'] ++ (lineIndent ++ ("// Widget markup" : Text) ++ ['\n'])

/-- A plan is printed behind code as its head and the region of its parts, if it shows something. -/
theorem write_of_code (p : Plan) {w : Writer} (hw : w.mode = .code) (lineIndent : Text) :
    p.write w lineIndent = if p.hasMarkup
      then (({ w with text := w.text ++ headText lineIndent p.bindings } : Writer).performAll
        (callsOf p.parts)).enterCode
      else { w with text := w.text ++ bindingLines lineIndent p.bindings } := by
  rw [Plan.write, foldl_bindings hw]
  split
  · rw [writeParts_eq_performAll]
    simp [headText, Writer.blankLine, Writer.line, Writer.enterCode, hw]
  · rfl

/-- So a plan that shows something is printed by a new writer. -/
theorem write_of_hasMarkup {p : Plan} (hshows : p.hasMarkup = true) (indent lineIndent : Text) :
    p.write (Writer.start indent) lineIndent
      = (({ Writer.start indent with text := headText lineIndent p.bindings } : Writer).performAll
          (callsOf p.parts)).enterCode := by
  rw [write_of_code p rfl, if_pos hshows]
  simp [Writer.start]

/-- A printed plan, cut at its delimiters behind the line that announces the markup: it is code and
markup in turns, and they are the parts of the plan in their order, each piece of markup as it
stands and each value as its statement.  Only blanks at the start of the first piece of markup and at
the end of the last one can differ. -/
theorem segments_write {p : Plan} (hshows : p.hasMarkup = true)
    (hvalues : ∀ v ∈ valuesIn p.parts, v.Drawn IsWord IsWord)
    (htexts : ∀ t ∈ markupTexts (mergeMarkup p.parts), TagFree t)
    {indent : Text} (hindent : allBlank indent = true) (lineIndent : Text) :
    ∃ region, (p.write (Writer.start indent) lineIndent).text
        = bindingLines lineIndent p.bindings ++ ['\n']
          ++ (lineIndent ++ ("// Widget markup" : Text) ++ ['\n']) ++ region
      ∧ (segments .code region).IsChain (fun a b => a.mode ≠ b.mode)
      ∧ settle (segments .code region) = settle p.laidOut := by
  have hstart : (Writer.start indent).mode = .code := rfl
  rw [write_of_hasMarkup hshows]
  exact Writer.says_region (w := { Writer.start indent with text := headText lineIndent p.bindings })
    hstart hindent (pieces_callsOf p.parts) (exists_visible_call hshows)
    (proper_ofCalls hvalues htexts)

/-- A plan in which markup is not merged, begins and ends in blanks, and surrounds a condition. -/
def greeting : Plan where
  bindings := [⟨"link_0", .linkOrNull "h2_0_link"⟩]
  parts := [.markup " ", .markup "<p>", .echo (.setting "p_0_text") .html,
    .ifSet "link_0" [.markup "!", .echo (.url "link_0") .url], .markup "</p>", .markup "\n"]

/-- Nothing of it is lost but the blanks around it. -/
theorem segments_write_greeting :
    ∃ region, (greeting.write (Writer.start "  ") "  ").text
        = bindingLines "  " greeting.bindings ++ ['\n']
          ++ (("  " : Text) ++ ("// Widget markup" : Text) ++ ['\n']) ++ region
      ∧ (segments .code region).IsChain (fun a b => a.mode ≠ b.mode)
      ∧ settle (segments .code region) = [⟨.markup, "<p>"⟩,
          ⟨.code, "echo esc_html($settings['p_0_text']);"⟩, ⟨.markup, []⟩, ⟨.code, "if ($link_0) :"⟩,
          ⟨.markup, "!"⟩, ⟨.code, "echo esc_url($link_0['url']);"⟩, ⟨.markup, []⟩, ⟨.code, "endif;"⟩,
          ⟨.markup, "</p>"⟩] := by
  have hvalues : ∀ v ∈ valuesIn greeting.parts, v.Drawn IsWord IsWord := by
    intro v hv
    simp only [greeting, valuesIn, List.mem_cons, List.append_nil, List.not_mem_nil, or_false] at hv
    have hid : IsWord "p_0_text" := by decide
    have hvar : IsWord "link_0" := by decide
    rcases hv with rfl | rfl | rfl
    · exact hid
    · exact hvar
    · exact hvar
  have htexts : ∀ t ∈ markupTexts (mergeMarkup greeting.parts), TagFree t := by
    intro t ht
    simp [greeting, mergeMarkup, markupTexts] at ht
    rcases ht with rfl | rfl | rfl <;> decide
  have hindent : allBlank ("  " : Text) = true := rfl
  obtain ⟨region, htext, hturns, hsettle⟩ :=
    segments_write (p := greeting) rfl hvalues htexts hindent "  "
  have hcalls : Writer.Alternation.ofCalls (callsOf greeting.parts) = ⟨" <p>", [
      ("echo esc_html($settings['p_0_text']);", []), ("if ($link_0) :", "!"),
      ("echo esc_url($link_0['url']);", []), ("endif;", "</p>\n")]⟩ := by
    simp only [greeting, callsOf, Writer.Alternation.ofCalls, List.cons_append, List.nil_append]
    rfl
  refine ⟨region, htext, hturns, hsettle.trans ?_⟩
  rw [Plan.laidOut, hcalls]
  rfl

end WidgetCompiler.Render
