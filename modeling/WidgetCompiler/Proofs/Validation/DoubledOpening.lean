import WidgetCompiler.Proofs.Validation.Generated
import WidgetCompiler.Proofs.Validation.Insertion

/-!
# A doubled opening in the method

Where the source of a delivered widget has a `<?php` on a line of its own in the method that shows the
widget, one more such line behind it is a mistake, and the report on the source tells it at its number,
provided that the check of modes reads as far (`reports_doubled_opening`).  It does so if no line
before the method's own looks like its declaration.  A text of the widget can look like one, though, for
it stands in a literal or in the comment as it is.  Then the check begins there, ends with the method in
which that literal stands, and does not come to the one that shows the widget
(`not_reports_doubled_opening`).

A delivered source has been read by the check of literals.  So nothing that stands in for a missing
value has a line break, each binding stands on its line, and no line of the method ends it
(`steady_renderBody`).  The line that is put in is read by the check of literals too
(`quoteIssues_insert`), so there is a report.
-/

namespace WidgetCompiler.Validation

open Text Markup Render Php

section

variable {settings : Settings} {inference : Option Inference} {r : Request} {c : Conversion}
variable {front inside rest : List Text} {first extra : Text}

/-! ## The delivered source -/

/-- A source that is delivered passes the checks. -/
theorem passes_of_convert {catalog : Catalog} {settings : Settings} {inference : Option Inference}
    {r : Request} {c : Conversion} (h : convert catalog settings inference r = .ok c) :
    buildWidget catalog settings inference r = .ok c.widget
      ∧ checkRenderModes (.ofText c.widget.source) = []
      ∧ checkQuotes? (.ofText c.widget.source) = some [] := by
  unfold convert at h
  split at h
  · simp at h
  · next w hw =>
    unfold deliver at h
    split at h
    · simp at h
    · next report hreport =>
      split at h
      · next hvalid =>
        obtain rfl := Except.ok.inj h
        obtain ⟨quotes, hquotes, rfl⟩ := Option.map_eq_some_iff.1 hreport
        have herrors := (Report.valid_ofIssues _ _).1 hvalid
        simp only [Report.ofIssues, List.append_eq_nil_iff] at herrors
        obtain ⟨⟨⟨⟨⟨hmodes, -⟩, -⟩, -⟩, hquote⟩, -⟩ := herrors
        exact ⟨hw, hmodes, hquotes.trans (congrArg some hquote)⟩
      · simp at h

/-- A built widget has a source whose code before the method leads to the method, and its plan is made
of its fragment. -/
theorem exists_of_buildWidget {w : Widget}
    (h : buildWidget Catalog.builtin settings inference r = .ok w) :
    ∃ m sections, IsWord m.className
      ∧ (∀ l ∈ Section.allPhpLines settings.textDomain sections, Leads l)
      ∧ w.source = classSource settings m m.className w.keywords sections w.plan
      ∧ w.plan = planRender (sanitize r.markup).markup
          (bindForest Catalog.builtin (fragmentOf r.markup)) := by
  obtain ⟨-, m, hm, rfl⟩ := buildWidget_eq_ok.1 h
  have hall (t : Text) : MadeOf (fun _ => true) t := fun _ _ => rfl
  have hwords : HoldsWords (fun _ => true) := ⟨fun _ => rfl, rfl⟩
  have hidentity : m.MadeOf (fun _ => true) :=
    madeOf_resolve hwords ⟨fun _ _ => hall _, fun _ _ => hall _, fun _ _ => hall _,
      fun _ _ => hall _, fun _ _ => hall _⟩ (hall _) (hall _) hm
  have helement (e : Element) : e.MadeOf (fun _ => true) :=
    ⟨hall _, fun _ _ => hall _, fun _ _ => hall _, fun _ _ => hall _, fun _ _ => hall _, hall _⟩
  exact ⟨m, _, (isName_className hidentity.name).word,
    coding_leads.widgetSections (quotes_singleQuoted settings.textDomain).leads
      (fun e _ => helement e) (hall _) (hall _), rfl, rfl⟩

/-- The lines before the method are those of the code before it, and its declaration. -/
theorem exists_front {m : Identity} {className : Text} {keywords : List Text}
    {sections : List Section} {plan : Plan} (hlines : ∀ l ∈ front, '\n' ∉ l)
    (hsource : classSource settings m className keywords sections plan
      = joinLines front ++ (renderBody plan ++ joinLines classEnd)) :
    ∃ before, front = before ++ [methodLine] := by
  have hjoined : joinLines front
      = openTag ++ '\n' :: codeBefore settings m className keywords sections
        ++ (methodLine ++ ['\n']) := by
    rw [classSource_eq] at hsource
    have hwhole : joinLines front ++ (renderBody plan ++ joinLines classEnd)
        = openTag ++ '\n' :: codeBefore settings m className keywords sections ++ (methodLine ++ ['\n'])
          ++ (renderBody plan ++ joinLines classEnd) := by
      rw [← hsource]
      simp
    exact List.append_cancel_right hwhole
  have hend : (codeBefore settings m className keywords sections).getLast? = some '\n' := by
    simp [codeBefore, joinLines]
  obtain ⟨ls, hls, hline⟩ := exists_joinLines (.inr hend)
  refine ⟨openTag :: ls, joinLines_inj hlines ?_ ?_⟩
  · refine List.forall_mem_append.2 ⟨List.forall_mem_cons.2 ⟨by decide, hline⟩, ?_⟩
    exact List.forall_mem_singleton.2 (by decide)
  · rw [hjoined, hls]
    simp [joinLines]

/-- The method is read to its end if it is the first that is declared. -/
theorem watched_of_convert (h : convert Catalog.builtin settings inference r = .ok c)
    {before : List Text} (hlines : ∀ l ∈ before ++ methodLine :: (inside ++ rest), '\n' ∉ l)
    (hbody : renderBody c.widget.plan = joinLines (inside ++ rest))
    (hbefore : ∀ l ∈ before.map dropReturn, declaresRender l = false) :
    Watched ((before ++ methodLine :: inside).map dropReturn) := by
  obtain ⟨hbuilt, -, hquotes⟩ := passes_of_convert h
  obtain ⟨m, sections, hclass, hsections, hclassSource, hplan⟩ := exists_of_buildWidget hbuilt
  have hclosed : Closed .code (renderBody c.widget.plan ++ joinLines classEnd) := by
    rw [checkQuotes?_eq_nil, hclassSource] at hquotes
    exact closed_renderBody_of_classSource hclass hsections hquotes
  have hsupplies := supplies_bindForest (q := fun _ => true) rfl
    fun e (_ : e ∈ Element.preorderAll (fragmentOf r.markup)) => ⟨fun _ _ => rfl, fun _ _ _ _ => rfl,
      fun _ _ _ _ => rfl, fun _ _ _ _ => rfl, fun _ _ _ _ => rfl, fun _ _ => rfl⟩
  have hsteady : Steady 4 (renderBody c.widget.plan) := by
    rw [hplan] at hclosed ⊢
    refine steady_renderBody (lacks_sanitize r.markup) hsupplies fun fallback hfallback => ?_
    exact (oneLine_iff.1 (oneLine_of_closed_renderBody (lacks_sanitize r.markup) hsupplies hclosed
      fallback hfallback)).2
  have hgoes : GoesOn 4 true inside := by
    have hinside : ∀ l ∈ inside ++ rest, '\n' ∉ l := fun l hl => hlines l (by simp [hl])
    have hpieces := hsteady true
    rw [hbody, ← List.append_nil (joinLines _), splitOn_joinLines hinside, List.append_assoc] at hpieces
    exact hpieces.of_append
  have hreturn : dropReturn methodLine = methodLine := by decide
  refine ⟨before.map dropReturn, methodLine, inside.map dropReturn, ?_, hbefore,
    declaresRender_methodLine, ?_⟩
  · rw [List.map_append, List.map_cons, hreturn]
  · have hwidth : indentWidth methodLine = 4 := by decide
    rw [hwidth]
    exact goesOn_map_dropReturn.2 hgoes

/-! ## A widget that shows a word -/

/-- A request for a widget that shows a word and has a script. -/
def wordRequest (behavior : Text) : Request where
  markup := "Hello"
  behavior := behavior

/-- The widget that shows the word. -/
def wordWidget (behavior : Text) : Widget :=
  Widget.generate Catalog.builtin {} unknownIdentity (fragmentOf "Hello") "Hello" [] behavior

theorem plain_unknownIdentity : unknownIdentity.Plain :=
  ⟨⟨by decide, 'c', rfl, rfl⟩, by decide, by decide, by decide, by decide⟩

/-- The code of its source before the method. -/
def wordCode (behavior : Text) : Text :=
  codeBefore {} unknownIdentity unknownIdentity.className ["custom", "widget"]
    [customCodeSection [] behavior]

/-- The lines of it before the section. -/
def wordHead : List Text :=
  commentLines {} unknownIdentity ++ guardLines ++ classLines unknownIdentity.className
    ++ identityLines {} unknownIdentity ["custom", "widget"] ++ controlsOpening

theorem wordCode_eq (behavior : Text) : wordCode behavior = joinLines (wordHead
    ++ ((customCodeSection [] behavior).phpLines ({} : Settings).textDomain
      ++ [memberIndent ++ ("\x7d" : Text), []])) := by
  rw [joinLines_append wordHead, joinLines_append (Section.phpLines _ _), ← List.append_assoc]
  rfl

theorem quiet_wordHead : Quiet (joinLines wordHead) :=
  quiet_headLines plain_unknownIdentity (by decide) (by decide)
    (isName_className plain_unknownIdentity.name).word (by decide)

/-- The lines of its source up to the method. -/
def wordFront (behavior : Text) : List Text :=
  endedLines (openTag ++ '\n' :: wordCode behavior) ++ [methodLine]

/-- The lines of the method before the one that enters code behind the word. -/
def wordInside : List Text :=
  [settingsLine, [], bodyIndent ++ ("// Widget markup" : Text), bodyIndent ++ closeTag, "Hello"]

/-- The lines of the method behind it. -/
def wordRest : List Text := endedLines customCode

theorem getLast?_wordCode (behavior : Text) :
    (openTag ++ '\n' :: wordCode behavior).getLast? = some '\n' := by
  have hend : (wordCode behavior).getLast? = some '\n' := by simp [wordCode, codeBefore, joinLines]
  rw [List.getLast?_append, List.getLast?_cons, hend]
  rfl

theorem getLast?_customCode : customCode.getLast? = some '\n' := by
  have hend : (joinLines [bodyIndent ++ ("\x7d" : Text)]).getLast? = some '\n' := by decide
  simp only [customCode, blockText, List.getLast?_append, hend, Option.some_or]

theorem not_mem_word (behavior : Text) :
    ∀ l ∈ wordFront behavior ++ (wordInside ++ (bodyIndent ++ openTag) :: wordRest), '\n' ∉ l := by
  have hfixed : ∀ l ∈ wordInside ++ [bodyIndent ++ openTag, methodLine], '\n' ∉ l := by decide
  have hfront := (joinLines_endedLines (getLast?_wordCode behavior)).2
  have hrest := (joinLines_endedLines getLast?_customCode).2
  intro l hl
  simp only [wordFront, List.mem_append, List.mem_cons, List.not_mem_nil, or_false] at hl hfixed
  rcases hl with (hl | rfl) | hl | rfl | hl
  · exact hfront l hl
  · exact hfixed _ (by simp)
  · exact hfixed l (.inl hl)
  · exact hfixed _ (by simp)
  · exact hrest l hl

theorem not_mem_source_word (behavior : Text) : ∀ l ∈ wordFront behavior
    ++ (wordInside ++ (bodyIndent ++ openTag) :: wordRest) ++ classEnd, '\n' ∉ l := by
  have hend : ∀ l ∈ classEnd, '\n' ∉ l := by decide
  exact fun l hl => (List.mem_append.1 hl).elim (not_mem_word behavior l) (hend l)

theorem fragmentOf_word : fragmentOf "Hello" = [] := by decide +kernel

theorem sanitize_word : sanitize "Hello" = ⟨"Hello", [], []⟩ :=
  sanitize_eq_self (by decide) (by decide) (by decide) (by decide)

theorem plan_word (behavior : Text) : (wordWidget behavior).plan = planRender "Hello" [] := by
  change planRender (sanitize "Hello").markup (bindForest Catalog.builtin (fragmentOf "Hello")) = _
  rw [fragmentOf_word, sanitize_word]
  rfl

theorem renderBody_word (behavior : Text) : renderBody (wordWidget behavior).plan
    = joinLines (wordInside ++ (bodyIndent ++ openTag) :: wordRest) := by
  have hplan : planRender "Hello" [] = { parts := [.markup "Hello"] } := by
    simp [planRender, planFrom, mergeMarkup]
  have hwritten : (({ parts := [.markup "Hello"] } : Plan).write
      ((Writer.start bodyIndent).line settingsLine) bodyIndent).enterCode.text
        = joinLines (wordInside ++ [bodyIndent ++ openTag]) := by
    simp only [Plan.write, writeParts]
    decide +kernel
  have hrest := (joinLines_endedLines getLast?_customCode).1
  rw [plan_word, hplan, renderBody_eq, ← settingsLine, hwritten, List.append_cons wordInside _ wordRest,
    joinLines_append _ wordRest, wordRest, hrest]

theorem source_word {behavior : Text} (h : Widget.joinCode [behavior] = behavior) :
    (wordWidget behavior).source = classSource {} unknownIdentity unknownIdentity.className
      ["custom", "widget"] [customCodeSection [] behavior] (wordWidget behavior).plan := by
  have hmade : unknownIdentity.keywords [] ({} : Settings).maxKeywords = ["custom".toList, "widget".toList]
      ∧ Widget.preparedStyle {} [] (Widget.joinCode [[]]) = [] := by
    decide
  simp only [wordWidget, Widget.generate, fragmentOf_word, sanitize_word, hmade, h]
  rfl

theorem lines_source_word {behavior : Text} (h : Widget.joinCode [behavior] = behavior) :
    (wordWidget behavior).source = joinLines (wordFront behavior
      ++ (wordInside ++ (bodyIndent ++ openTag) :: wordRest) ++ classEnd) := by
  have hfront := (joinLines_endedLines (getLast?_wordCode behavior)).1
  rw [source_word h, classSource_eq, renderBody_word, joinLines_append (_ ++ _),
    joinLines_append (wordFront behavior), wordFront, joinLines_append (endedLines _), hfront, wordCode]
  simp [joinLines]

theorem convert_word {behavior : Text}
    (hvalid : validate? (wordWidget behavior).source = some ⟨true, [], []⟩) :
    convert Catalog.builtin {} none (wordRequest behavior)
      = .ok ⟨wordWidget behavior, ⟨true, [], []⟩⟩ := by
  have hbuilt : buildWidget Catalog.builtin {} none (wordRequest behavior)
      = .ok (wordWidget behavior) := by
    have hidentity : resolveIdentity {} "Hello" [] behavior none {} = .ok unknownIdentity := by
      cbv
    exact buildWidget_eq_ok.2 ⟨by decide, unknownIdentity, hidentity, rfl⟩
  rw [convert, hbuilt]
  change deliver (wordWidget behavior) = _
  rw [deliver, hvalid]
  rfl

theorem settled_word : Settled 4 (renderBody (planRender "Hello" []) ++ joinLines classEnd) :=
  settled_renderBody ⟨by decide, by decide⟩ (List.forall_mem_nil _)

/-! ## A script that looks like the method -/

/-- A script that looks like the method. -/
def renderScript : Text := "function render() \x7b\x7d"

/-- The line at which it stands in the source. -/
def renderScriptLine : Text := callLine 2 ("'default' => " ++ doubleQuoted renderScript ++ ",")

/-- The lines behind that line up to the method. -/
def scriptEnd : List Text := scriptBack ++ [memberIndent ++ ("\x7d" : Text), []]

theorem wordCode_renderScript : wordCode renderScript
    = joinLines (wordHead ++ scriptFront) ++ joinLines (renderScriptLine :: scriptEnd) := by
  have hsection : (customCodeSection [] renderScript).phpLines ({} : Settings).textDomain
      ++ [memberIndent ++ ("\x7d" : Text), []] = scriptFront ++ renderScriptLine :: scriptEnd := rfl
  rw [wordCode_eq, hsection, ← List.append_assoc, joinLines_append]

theorem inCode_beforeScript : Everywhere InCode (joinLines (wordHead ++ scriptFront)) := by
  rw [joinLines_append]
  exact quiet_wordHead.places.append inCode_scriptFront

theorem harmless_renderScript : Everywhere Harmless (wordCode renderScript) := by
  have hline : Everywhere Harmless (renderScriptLine ++ ['\n']) :=
    everywhere_harmless (by decide)
  have hback : Everywhere InCode (joinLines scriptEnd) := by
    rw [scriptEnd, joinLines_append]
    exact inCode_scriptBack.append quiet_endLines.places
  have := (inCode_beforeScript.mono fun _ _ h => h.toHarmless).append
    (hline.append (hback.mono fun _ _ h => h.toHarmless))
  rwa [wordCode_renderScript, joinLines, List.append_cons, List.append_assoc]

/-- The check begins at the script's line, ends with the method in which that stands, and finds nothing
up to there. -/
theorem modeIssues_scriptEnd : declaresRender (dropReturn renderScriptLine) = true
    ∧ ¬ GoesOn (indentWidth (dropReturn renderScriptLine)) true (scriptEnd.map dropReturn)
    ∧ modeIssues (indentWidth (dropReturn renderScriptLine)) 0 true
      (trim (dropReturn renderScriptLine)) (scriptEnd.map dropReturn) = [] := by
  decide +kernel

/-- No line before the script's looks like the method. -/
theorem exists_wordFront_renderScript :
    ∃ ls, wordFront renderScript = ls ++ renderScriptLine :: (scriptEnd ++ [methodLine])
      ∧ ∀ l ∈ ls.map dropReturn, declaresRender l = false := by
  have hend : (openTag ++ '\n' :: joinLines (wordHead ++ scriptFront)).getLast? = some '\n' := by
    rw [List.getLast?_append, List.getLast?_cons, getLast?_joinLines (by simp [wordHead, guardLines])]
    rfl
  obtain ⟨ls, hls, hnewline⟩ := exists_joinLines (.inr hend)
  have hback : ∀ l ∈ renderScriptLine :: scriptEnd, '\n' ∉ l := by decide
  have hjoined : openTag ++ '\n' :: wordCode renderScript
      = joinLines (ls ++ renderScriptLine :: scriptEnd) := by
    rw [wordCode_renderScript, joinLines_append ls, ← hls]
    simp
  refine ⟨ls, ?_, ?_⟩
  · rw [wordFront, hjoined, endedLines_joinLines fun l hl =>
      (List.mem_append.1 hl).elim (hnewline l) (hback l)]
    simp
  · refine declaresRender_of_uncalled ?_
    rw [← hls]
    exact uncalled_tag inCode_beforeScript

theorem checkRenderModes_renderScript :
    checkRenderModes (.ofText (wordWidget renderScript).source) = [] := by
  obtain ⟨hdeclares, hends, hnone⟩ := modeIssues_scriptEnd
  obtain ⟨ls, hfront, hbefore⟩ := exists_wordFront_renderScript
  rw [checkRenderModes, Source.ofText, lines_source_word (by decide), lines_joinLines (not_mem_source_word renderScript),
    hfront]
  simp only [List.append_assoc, List.map_append, List.cons_append, List.map_cons]
  obtain ⟨issues, hissues⟩ := exists_modeIssues_of_not_goesOn hends
    (1 + (ls.map dropReturn).length + 1) (trim (dropReturn renderScriptLine))
  have hempty : issues = [] := by
    rw [← hissues [], List.append_nil]
    exact modeIssues_eq_nil_of_number hnone _
  rw [checkRenderModesFrom_declaration hbefore hdeclares, hissues, hempty]

/-! ## The report -/

/-- A second `<?php` behind one on a line of its own in the method of a delivered source is reported at
its number just if the check of modes reads as far.  It does if no line before the declaration of the
method looks like one. -/
theorem reports_doubled_opening (h : convert Catalog.builtin settings inference r = .ok c)
    (hlines : ∀ l ∈ front ++ (inside ++ first :: rest), '\n' ∉ l)
    (hsource : c.widget.source = joinLines (front ++ (inside ++ first :: rest) ++ classEnd))
    (hbody : renderBody c.widget.plan = joinLines (inside ++ first :: rest))
    (hfirst : trim first = openTag) (hextra : trim extra = openTag) (hascii : IsAscii extra)
    (hline : '\n' ∉ extra) :
    (ReportsOrphan (joinLines (front ++ (inside ++ first :: extra :: rest) ++ classEnd))
        (front.length + inside.length + 2)
      ↔ Watched (Text.lines (joinLines (front ++ inside))))
      ∧ ((∀ l ∈ Text.lines (joinLines front.dropLast), declaresRender l = false) →
        Watched (Text.lines (joinLines (front ++ inside)))) := by
  obtain ⟨hbuilt, hmodes, hquotes⟩ := passes_of_convert h
  obtain ⟨m, sections, -, -, hclassSource, -⟩ := exists_of_buildWidget hbuilt
  obtain ⟨hfrontLines, hbodyLines⟩ := List.forall_mem_append.1 hlines
  obtain ⟨before, rfl⟩ : ∃ before, front = before ++ [methodLine] := by
    refine exists_front hfrontLines (hclassSource.symm.trans ?_)
    rw [hsource, hbody]
    simp [joinLines]
  have hwatchedLines : ∀ l ∈ before ++ [methodLine] ++ inside, '\n' ∉ l := fun l hl => by
    rcases List.mem_append.1 hl with hl | hl
    · exact hfrontLines l hl
    · exact hbodyLines l (List.mem_append_left _ hl)
  rw [lines_joinLines hwatchedLines]
  refine ⟨?_, fun hbefore => ?_⟩
  · have hsplit (ls : List Text) : before ++ [methodLine] ++ (inside ++ ls) ++ classEnd
        = (before ++ [methodLine] ++ inside) ++ (ls ++ classEnd) := by
      simp only [List.append_assoc]
    rw [hsource, hsplit] at hmodes hquotes
    have hall : ∀ l ∈ before ++ [methodLine] ++ inside ++ first :: (rest ++ classEnd), '\n' ∉ l := by
      have hend : ∀ l ∈ classEnd, '\n' ∉ l := by decide
      intro l hl
      rcases List.mem_append.1 hl with hl | hl
      · exact hwatchedLines l hl
      · rcases List.mem_append.1 (List.cons_append ▸ hl : l ∈ (first :: rest) ++ classEnd) with hl | hl
        · exact hbodyLines l (List.mem_append_right _ hl)
        · exact hend l hl
    have hdeclared : ∃ l ∈ (before ++ [methodLine] ++ inside).map dropReturn,
        declaresRender l = true :=
      ⟨methodLine, List.mem_map.2 ⟨methodLine, by simp, by decide⟩, declaresRender_methodLine⟩
    have := reportsOrphan_insert hall hmodes hquotes hdeclared hfirst hextra hascii hline
    rw [List.length_append] at this
    rw [hsplit]
    exact this
  · have hbefore' : ∀ l ∈ before.map dropReturn, declaresRender l = false := by
      rw [List.dropLast_concat, lines_joinLines fun l hl => hfrontLines l
        (List.mem_append_left _ hl)] at hbefore
      exact hbefore
    have hmethod : ∀ l ∈ before ++ methodLine :: (inside ++ first :: rest), '\n' ∉ l := by
      simpa using hlines
    have := watched_of_convert h hmethod hbody hbefore'
    simpa using this

/-- Without a script the doubled opening is reported. -/
theorem reports_doubled_opening_word :
    convert Catalog.builtin {} none (wordRequest []) = .ok ⟨wordWidget [], ⟨true, [], []⟩⟩
      ∧ (wordWidget []).source = joinLines (wordFront []
        ++ (wordInside ++ (bodyIndent ++ openTag) :: wordRest) ++ classEnd)
      ∧ renderBody (wordWidget []).plan
        = joinLines (wordInside ++ (bodyIndent ++ openTag) :: wordRest)
      ∧ ReportsOrphan (joinLines (wordFront []
        ++ (wordInside ++ (bodyIndent ++ openTag) :: (bodyIndent ++ openTag) :: wordRest)
        ++ classEnd)) ((wordFront []).length + wordInside.length + 2) := by
  have hbefore : Quiet (wordCode []) := by
    have hsections := @quiet_sections [] (by simp [Element.preorderAll])
    exact quiet_codeBefore plain_unknownIdentity (by decide) (by decide)
      (isName_className plain_unknownIdentity.name).word (by decide) hsections
  have hvalid : validate? (wordWidget []).source = some ⟨true, [], []⟩ := by
    rw [source_word rfl, plan_word]
    exact validate?_classSource hbefore settled_word (isName_className plain_unknownIdentity.name)
  have hconvert := convert_word hvalid
  have hopening : trim (bodyIndent ++ openTag) = openTag := by decide
  have hreports := reports_doubled_opening hconvert (not_mem_word []) (lines_source_word rfl)
    (renderBody_word []) hopening hopening (by decide) (by decide)
  refine ⟨hconvert, lines_source_word rfl, renderBody_word [], hreports.1.2 (hreports.2 ?_)⟩
  obtain ⟨hjoin, hline⟩ := joinLines_endedLines (getLast?_wordCode [])
  rw [wordFront, List.dropLast_concat, lines_joinLines hline]
  refine declaresRender_of_uncalled ?_
  rw [hjoin]
  exact uncalled_tag hbefore.places

/-- With a script that looks like the method it is not. -/
theorem not_reports_doubled_opening :
    convert Catalog.builtin {} none (wordRequest renderScript)
        = .ok ⟨wordWidget renderScript, ⟨true, [], []⟩⟩
      ∧ (wordWidget renderScript).source = joinLines (wordFront renderScript
        ++ (wordInside ++ (bodyIndent ++ openTag) :: wordRest) ++ classEnd)
      ∧ renderBody (wordWidget renderScript).plan
        = joinLines (wordInside ++ (bodyIndent ++ openTag) :: wordRest)
      ∧ ¬ ReportsOrphan (joinLines (wordFront renderScript
        ++ (wordInside ++ (bodyIndent ++ openTag) :: (bodyIndent ++ openTag) :: wordRest)
        ++ classEnd)) ((wordFront renderScript).length + wordInside.length + 2) := by
  have hjoin : Widget.joinCode [renderScript] = renderScript := by decide
  have hclosed : Closed .markup (wordWidget renderScript).source := by
    have hquoted : ∀ t ∈ (wordWidget renderScript).verbatim, '\n' ∉ t := by
      rw [wordWidget, fragmentOf_word]
      decide
    refine (closed_generate (by decide) (by decide) plain_unknownIdentity.isAscii (by decide) ?_
      (by decide) MadeOf.nil (by decide)).2 hquoted
    rw [fragmentOf_word]
    exact List.forall_mem_nil _
  have hvalid : validate? (wordWidget renderScript).source = some ⟨true, [], []⟩ := by
    have hname := isName_className plain_unknownIdentity.name
    refine validate?_eq_some ?_ hclosed checkRenderModes_renderScript ?_
    · rw [source_word hjoin, plan_word]
      exact allHarmless_classSource harmless_renderScript settled_word.places
    · rw [source_word hjoin]
      exact checkClass_eq_nil hname.word hname.head declares_classSource
  refine ⟨convert_word hvalid, lines_source_word hjoin, renderBody_word renderScript, ?_⟩
  have hopening : trim (bodyIndent ++ openTag) = openTag := by decide
  have hsplit (ls : List Text) : wordFront renderScript
      ++ (wordInside ++ (bodyIndent ++ openTag) :: ls) ++ classEnd
        = (wordFront renderScript ++ wordInside) ++ (bodyIndent ++ openTag) :: (ls ++ classEnd) := by
    simp
  obtain ⟨hdeclares, hends, -⟩ := modeIssues_scriptEnd
  obtain ⟨ls, hfront, hbefore⟩ := exists_wordFront_renderScript
  have hlines := not_mem_source_word renderScript
  have hmodes := checkRenderModes_renderScript
  have hquotes := checkQuotes?_eq_nil.2 hclosed
  rw [lines_source_word hjoin, hsplit] at hmodes hquotes
  rw [hsplit] at hlines
  have hdeclared : ∃ l ∈ (wordFront renderScript ++ wordInside).map dropReturn,
      declaresRender l = true :=
    ⟨_, List.mem_map_of_mem (by simp [hfront]), hdeclares⟩
  have hreports := reportsOrphan_insert hlines hmodes hquotes hdeclared hopening hopening (by decide)
    (by decide)
  rw [List.length_append] at hreports
  rw [hsplit, List.cons_append, hreports, hfront, List.append_assoc, List.map_append, List.cons_append,
    List.map_cons, watched_declaration hbefore hdeclares, List.append_assoc,
    List.map_append]
  exact fun hgoes => hends hgoes.of_append

end

end WidgetCompiler.Validation
