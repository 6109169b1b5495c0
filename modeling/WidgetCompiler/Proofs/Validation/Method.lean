import WidgetCompiler.Proofs.Render.Printed
import WidgetCompiler.Proofs.Render.Routine
import WidgetCompiler.Proofs.Validation.Statements
import WidgetCompiler.Proofs.Widget.CustomCode

/-!
# The method that shows the widget

What stands in the method behind its declaration is built from behind.  `Settled indent t` says that
no check finds anything in a text that goes on in code within the method; the end of the class is
settled, and lines of code and turns of markup can be put before what is.

A fragment hands what is asked of markup here on to its plan (`inherited_fragment`), so the method of
a widget is settled if its markup is a fragment and its elements are plain (`settled_renderBody`).
-/

namespace WidgetCompiler.Validation

open Text Markup Render Php

/-- In code within a method, no check finds anything in the text up to its end. -/
structure Settled (indent : Nat) (t : Text) : Prop where
  places : Everywhere Harmless t
  closed : Closed .code t
  orderly : Orderly indent true t

section

variable {indent : Nat} {l t x : Text}

namespace Settled

/-- A line of code.  If it begins with a brace, that stands further in than the method. -/
theorem line (hl : Piece l) (hbrace : (trim l).head? = some '\x7d' → indent < indentWidth l)
    (ht : Settled indent t) : Settled indent (l ++ '\n' :: t) where
  places := by
    have hnewline : Everywhere Harmless ['\n'] := everywhere_harmless (by decide)
    exact (hl.places.mono fun _ _ h => h.toHarmless).append (hnewline.append ht.places)
  closed := hl.crosses.closed (Closed.newline rfl ht.closed)
  orderly := by
    refine CodeLine.orderly ⟨hl.crosses.line, fun hm => ?_, lacks_closeTag_of_places hl.places, hbrace⟩
      ht.orderly
    obtain ⟨a, b, rfl⟩ := List.append_of_mem hm
    exact (hl.places.at_place rfl (by simp)).tag b rfl

/-- Lines of code that do not begin with a brace, or one that stands further in. -/
theorem lines {ls : List Text}
    (h : ∀ l ∈ ls, Piece l ∧ ((trim l).head? = some '\x7d' → indent < indentWidth l))
    (ht : Settled indent t) : Settled indent (joinLines ls ++ t) := by
  induction ls with
  | nil => exact ht
  | cons l ls ih =>
    have hl := h l List.mem_cons_self
    have := line hl.1 hl.2 (ih fun l' hl' => h l' (List.mem_cons_of_mem l hl'))
    rwa [joinLines, List.append_assoc, List.cons_append]

/-- A remark on a line of its own. -/
theorem remark {gap r : Text} (hgap : ∀ c ∈ gap, c = ' ') (hr : ∀ c ∈ r, c.isAlpha = true ∨ c = ' ')
    (ht : Settled indent t) : Settled indent (gap ++ ("//" : Text) ++ r ++ '\n' :: t) where
  places := by
    refine Everywhere.append (everywhere_harmless fun c hc => ?_)
      ((everywhere_harmless (t := ['\n']) (by decide)).append ht.places)
    have halpha : ∀ d ∈ harmfulMarks, d.isAlpha = false ∧ d ≠ ' ' := by decide
    intro hm
    simp only [List.mem_append] at hc
    rcases hc with (hc | hc) | hc
    · exact (halpha c hm).2 (hgap c hc)
    · obtain rfl : c = '/' := by simpa using hc
      exact absurd hm (by decide)
    · rcases hr c hc with hc | hc
      · exact Bool.false_ne_true ((halpha c hm).1.symm.trans hc)
      · exact (halpha c hm).2 hc
  closed := by
    have hplain : Crosses gap := by
      refine crosses_of_isPlainInCode (List.all_eq_true.2 fun c hc => ?_)
      rw [hgap c hc]
      decide
    have hline : '\n' ∉ r := fun hm => by rcases hr _ hm with h | h <;> exact absurd h (by decide)
    have hquestion : '?' ∉ r := fun hm => by rcases hr _ hm with h | h <;> exact absurd h (by decide)
    have := hplain.closed (Closed.lineComment hline hquestion ht.closed)
    simpa using this
  orderly := by
    have hmem {c : Char} (hc : c ∈ gap ++ ("//" : Text) ++ r) : c = ' ' ∨ c = '/' ∨ c.isAlpha = true := by
      simp only [List.mem_append] at hc
      rcases hc with (hc | hc) | hc
      · exact .inl (hgap c hc)
      · exact .inr (.inl (by simpa using hc))
      · exact (hr c hc).elim (fun h => .inr (.inr h)) .inl
    have hnot (c : Char) (hc : c ∈ ("\n<?\x7d" : Text)) : c ∉ gap ++ ("//" : Text) ++ r := by
      have hmarks : ∀ c ∈ ("\n<?\x7d" : Text), c ≠ ' ' ∧ c ≠ '/' ∧ c.isAlpha = false := by decide
      intro hm
      obtain ⟨hspace, hslash, halpha⟩ := hmarks c hc
      rcases hmem hm with h | h | h
      · exact hspace h
      · exact hslash h
      · exact Bool.false_ne_true (halpha.symm.trans h)
    refine CodeLine.orderly ⟨hnot _ (by decide), hnot _ (by decide),
      lacks_of_not_mem (by decide) (hnot '?' (by decide)), fun hbrace => ?_⟩ ht.orderly
    have : '\x7d' ∈ trim (gap ++ ("//" : Text) ++ r) := List.mem_of_mem_head? hbrace
    exact absurd (( trim_infix _).subset this) (hnot _ (by decide))

/-- Turns of markup and statements, behind a line on which code is left. -/
theorem turns {gap : Text} (hgap : ∀ c ∈ gap, c = ' ') (hx : Turns Fragment Printing x)
    (hline : ['\n'] <+: x) (ht : Settled indent t) :
    Settled indent (gap ++ closeTag ++ (x ++ t)) := by
  obtain ⟨x', rfl⟩ := hline
  have hplain : isPlainInCode gap = true := by
    refine List.all_eq_true.2 fun c hc => ?_
    rw [hgap c hc]
    decide
  have hnewline : '\n' ∉ gap := fun hm => absurd (hgap _ hm) (by decide)
  have hblank : allBlank gap = true := by
    refine List.all_eq_true.2 fun c hc => ?_
    rw [hgap c hc]
    decide
  refine ⟨?_, ?_, ?_⟩
  · have hharmless : Everywhere Harmless gap := by
      refine everywhere_harmless fun c hc => ?_
      rw [hgap c hc]
      decide
    have := hharmless.append ((everywhere_turns hx).append ht.places)
    simpa only [List.append_assoc] using this
  · have hshown := Closed.turns (fun ht => ⟨ht.isAscii, ht.lacks_instruction⟩)
      (fun hcode => hcode.piece.crosses) hx ht.closed fun ⟨_, _, hlost⟩ => hlost.not_closeTag.elim
    have := (crosses_of_isPlainInCode hplain).closed (Closed.closeTag hshown)
    simpa only [List.append_assoc] using this
  · have := Orderly.turns hx ht.orderly Showing.nil
    exact Orderly.leave hblank hnewline this

end Settled

/-! ## The end of the class -/

theorem settled_classEnd : Settled 4 (joinLines classEnd) where
  places := everywhere_harmless (by decide)
  closed := by
    have hplain : ∀ l ∈ classEnd, Crosses l := fun l hl =>
      crosses_of_isPlainInCode (by revert l; decide)
    have hmember := hplain (memberIndent ++ "\x7d") (by decide)
    have hclass := hplain "\x7d" (by decide)
    exact hmember.closed (Closed.newline rfl (hclass.closed (Closed.newline rfl Closed.nil)))
  orderly := orderly_end (l := memberIndent ++ "\x7d") (by decide) (by decide) (by decide) _

/-! ## The widget's own code -/

/-- The brace that ends a block. -/
theorem settled_blockEnd (ht : Settled 4 t) :
    Settled 4 (joinLines [bodyIndent ++ ("\x7d" : Text)] ++ t) := by
  have hbrace : Piece (bodyIndent ++ ("\x7d" : Text)) := piece_of_isTame (by decide) (by decide)
  refine Settled.lines (fun l hl => ?_) ht
  obtain rfl := List.mem_singleton.1 hl
  exact ⟨hbrace, fun _ => by decide⟩

/-- A block of lines and one value between fragments. -/
theorem settled_blockText {lines : List Text} {opening code closing : Text}
    (hlines : ∀ l ∈ lines, Piece l ∧ ((trim l).head? = some '\x7d' → 4 < indentWidth l))
    (hturns : Turns Fragment Printing (shownValue opening code closing)) (ht : Settled 4 t) :
    Settled 4 (blockText lines opening code closing ++ t) := by
  have hspaces : ∀ c ∈ blockIndent, c = ' ' := by decide
  have hshown := Settled.turns hspaces hturns (List.prefix_append ['\n'] _) (settled_blockEnd ht)
  have hempty : Piece [] ∧ ((trim []).head? = some '\x7d' → 4 < indentWidth []) :=
    ⟨Piece.nil, fun h => absurd h (by decide)⟩
  have := Settled.lines (List.forall_mem_cons.2 ⟨hempty, hlines⟩) hshown
  rw [blockText]
  simpa only [List.append_assoc] using this

/-- What is shown around the style sheet and around the script are fragments. -/
theorem fragment_customCode :
    ∀ s ∈ [('\n' :: styleOpening), styleClosing ++ blockIndent, '\n' :: scriptOpening,
      scriptClosing ++ blockIndent], Fragment s := by
  have hchecked : ∀ s ∈ [('\n' :: styleOpening), styleClosing ++ blockIndent,
      '\n' :: scriptOpening, scriptClosing ++ blockIndent],
      (∀ c ∈ s, isFragmentChar c = true) ∧ ∀ mark ∈ pageMarks, Lacks mark (lowerAscii s) := by
    decide +kernel
  exact fun s hs => ⟨(hchecked s hs).1, (hchecked s hs).2⟩

theorem turns_styleValue :
    Turns Fragment Printing (shownValue styleOpening "echo $custom_css;" styleClosing) := by
  have hstyle : Printing "echo $custom_css;" :=
    ⟨piece_of_isTame (by decide) (by decide), "echo", by decide, ' ', _, rfl, by decide⟩
  exact .turn (fragment_customCode _ (by simp)) hstyle
    (.enter (fragment_customCode _ (by simp)) (by decide))

theorem turns_scriptValue :
    Turns Fragment Printing (shownValue scriptOpening "echo $settings['custom_js'];" scriptClosing) := by
  have hscript : Printing "echo $settings['custom_js'];" :=
    ⟨piece_of_isTame (by decide) (by decide), "echo", by decide, ' ', _, rfl, by decide⟩
  exact .turn (fragment_customCode _ (by simp)) hscript
    (.enter (fragment_customCode _ (by simp)) (by decide))

/-- The lines that begin the blocks. -/
theorem piece_blockLine : ∀ l ∈ styleLines ++ scriptLines,
    Piece l ∧ ((trim l).head? = some '\x7d' → 4 < indentWidth l) := by
  have hlines : ∀ l ∈ styleLines ++ scriptLines, (isTame [] l = true ∧ leadsToCode none l = true)
      ∧ (trim l).head? ≠ some '\x7d' := by
    decide
  exact fun l hl => ⟨piece_of_isTame (hlines l hl).1.1 (hlines l hl).1.2,
    fun h => absurd h (hlines l hl).2⟩

theorem settled_scriptBlock (ht : Settled 4 t) :
    Settled 4 (blockText scriptLines scriptOpening "echo $settings['custom_js'];" scriptClosing
      ++ t) :=
  settled_blockText (fun l hl => piece_blockLine l (List.mem_append_right _ hl)) turns_scriptValue ht

theorem settled_customCode (ht : Settled 4 t) : Settled 4 (customCode ++ t) := by
  rw [customCode, List.append_assoc]
  exact settled_blockText (fun l hl => piece_blockLine l (List.mem_append_left _ hl)) turns_styleValue
    (settled_scriptBlock ht)

/-! ## The plan -/

/-- What is asked of a fragment is handed on to the markup of its plan. -/
theorem inherited_fragment : Inherited Fragment where
  of_infix h hs := h.of_infix hs
  append {s t} hs ht h := by
    have hmarks : ∀ mark ∈ pageMarks, ('>' ∉ mark.dropLast ∧ ' ' ∉ mark.dropLast)
        ∧ (' ' ∉ mark.tail ∧ '<' ∉ mark.tail ∧ '>' ∉ mark.tail) := by
      decide
    have hlower : ∀ c : Char, c = ' ' ∨ c = '<' ∨ c = '>' → c.toLower = c := by
      rintro c (rfl | rfl | rfl) <;> decide
    refine hs.append ht fun mark hmark => ?_
    obtain ⟨hlast, hhead⟩ := hmarks mark hmark
    rcases h with h | h
    · refine apart_of_last fun c hc => ?_
      rw [lowerAscii, List.getLast?_map] at hc
      obtain ⟨d, hd, rfl⟩ := Option.map_eq_some_iff.1 hc
      rcases h d hd with rfl | rfl
      · rw [hlower _ (.inr (.inr rfl))]
        exact hlast.1
      · rw [hlower _ (.inl rfl)]
        exact hlast.2
    · refine apart_of_head fun c hc => ?_
      rw [lowerAscii, List.head?_map] at hc
      obtain ⟨d, hd, rfl⟩ := Option.map_eq_some_iff.1 hc
      rw [hlower d (h d hd)]
      rcases h d hd with rfl | rfl | rfl
      · exact hhead.1
      · exact hhead.2.1
      · exact hhead.2.2
  fixed := by
    have hchecked : ∀ s ∈ fixedMarkup, (∀ c ∈ s, isFragmentChar c = true)
        ∧ ∀ mark ∈ pageMarks, Lacks mark (lowerAscii s) := by
      decide
    exact fun s hs => ⟨(hchecked s hs).1, (hchecked s hs).2⟩
  endTag {name} hname h := by
    have hangle : '<' ∉ lowerAscii name := by
      intro hm
      obtain ⟨c, hc, hlower⟩ := List.mem_map.1 hm
      obtain rfl : c = '<' := eq_of_toLower_eq hlower (by decide)
      exact absurd (List.all_eq_true.1 hname _ hc) (by decide)
    refine ⟨fun c hc => ?_, fun mark hmark hinfix => ?_⟩
    · rcases List.mem_cons.1 hc with rfl | hc
      · decide
      · rcases List.mem_cons.1 hc with rfl | hc
        · decide
        · exact h.chars c (List.mem_cons_of_mem _ hc)
    · -- a mark in the end tag begins at its `<`, and then the start tag has one too
      have hbegins : ∀ mark ∈ pageMarks, mark.head? = some '<' := by decide
      have hother : ∀ mark ∈ pageMarks, mark.tail.head? = some '/' →
          '<' :: mark.tail.tail ∈ pageMarks := by decide
      obtain ⟨mark, rfl⟩ := List.head?_eq_some_iff.1 (hbegins mark hmark)
      have hlower : lowerAscii ('<' :: '/' :: name) = '<' :: '/' :: lowerAscii name := rfl
      rw [hlower] at hinfix
      rcases List.infix_cons_iff.1 hinfix with hprefix | hinfix
      · have hrest := (List.cons_prefix_cons.1 hprefix).2
        cases mark with
        | nil => exact absurd hmark (by decide)
        | cons c mark =>
          obtain ⟨rfl, htail⟩ := List.cons_prefix_cons.1 hrest
          have hstart : '<' :: mark <+: lowerAscii ('<' :: name) :=
            List.cons_prefix_cons.2 ⟨rfl, htail⟩
          exact h.page ('<' :: mark) (hother _ hmark rfl) hstart.isInfix
      · have : '<' ∈ '/' :: lowerAscii name := hinfix.subset List.mem_cons_self
        exact absurd this (by simpa using hangle)

/-- The bindings of a plan and the remark behind them. -/
theorem settled_headText {bindings : List Binding} (hb : ∀ b ∈ bindings, SoundBinding b)
    (ht : Settled 4 t) :
    Settled 4 (bindingLines bodyIndent bindings ++ t) ∧ Settled 4 (headText bodyIndent bindings ++ t) := by
  have hindent : Piece bodyIndent := piece_of_isTame (by decide) (by decide)
  have hlines {u : Text} (hu : Settled 4 u) : Settled 4 (bindingLines bodyIndent bindings ++ u) := by
    have hbound : Settled 4 (joinLines (bindings.map fun b => bodyIndent ++ b.toPhp) ++ u) := by
      refine Settled.lines (fun l hl => ?_) hu
      obtain ⟨b, hmem, rfl⟩ := List.mem_map.1 hl
      refine ⟨hindent.append (piece_binding (hb b hmem)), fun hbrace => ?_⟩
      have hkept : trim (bodyIndent ++ b.toPhp) = trim b.toPhp := trim_append_left (by decide)
      have hdollar : (trim b.toPhp).head? = some '$' := head?_trim_cons (by decide) _
      rw [hkept, hdollar] at hbrace
      exact absurd hbrace (by decide)
    have hjoin (bs : List Binding) : joinLines (bs.map fun b => bodyIndent ++ b.toPhp)
        = bindingLines bodyIndent bs := by
      induction bs with
      | nil => rfl
      | cons b bs ih => simp [joinLines, bindingLines, ih]
    rwa [hjoin] at hbound
  have hremark : Settled 4 (bodyIndent ++ ("//" : Text) ++ (" Widget markup" : Text) ++ '\n' :: t) :=
    Settled.remark (by decide) (by decide) ht
  have hempty : Settled 4 ([] ++ '\n' :: (bodyIndent ++ ("//" : Text) ++ (" Widget markup" : Text) ++ '\n' :: t)) :=
    Settled.line Piece.nil (fun h => absurd h (by decide)) hremark
  refine ⟨hlines ht, ?_⟩
  have := hlines hempty
  rw [headText]
  simpa using this

/-- A writer in code that writes a plan, and comes back to code, has written the bindings.  If the plan
shows something, a remark stands behind them, and then turns of markup and statements may. -/
theorem exists_write {shown run : Text → Prop} {markup : Text} {bs : List BoundElement} {w : Writer}
    (hw : w.mode = .code) (hspaced : Spaced w.indent shown)
    (hshown : ∀ t, .markup t ∈ callsOf (planRender markup bs).parts → shown t)
    (hrun : ∀ code, .inlineCode code ∈ callsOf (planRender markup bs).parts → run code) :
    ∃ u, ((planRender markup bs).write w bodyIndent).enterCode.text = w.text ++ u
      ∧ (u = bindingLines bodyIndent (planRender markup bs).bindings
        ∨ u = headText bodyIndent (planRender markup bs).bindings
        ∨ ∃ x, Turns shown run x ∧ ['\n'] <+: x
          ∧ u = headText bodyIndent (planRender markup bs).bindings ++ (w.indent ++ closeTag ++ x)) := by
  rw [write_of_code _ hw]
  split
  · let v : Writer := { w with text := w.text ++ headText bodyIndent (planRender markup bs).bindings }
    have henter : ∀ v : Writer, v.enterCode.enterCode = v.enterCode := fun v => by
      rw [Writer.enterCode, Writer.mode_enterCode]
    rw [henter]
    rcases Writer.exists_turns (w := v) (region_planRender markup bs) hspaced hw hshown hrun with
      hsame | ⟨x, hx, hline, hwritten⟩
    · exact ⟨_, congrArg Writer.text hsame, .inr (.inl rfl)⟩
    · refine ⟨_, ?_, .inr (.inr ⟨x, hx, hline, rfl⟩)⟩
      refine (congrArg Writer.text hwritten).trans ?_
      simp [v]
  · refine ⟨_, ?_, .inl rfl⟩
    rw [Writer.enterCode, hw]

/-- What is written for the plan of a fragment, before what is settled. -/
theorem exists_settled_write {markup : Text} {bs : List BoundElement} (hm : Fragment markup)
    (hbs : ∀ b ∈ bs, Supplies IsLocal (isIdentifier · = true) Quotable b) {w : Writer}
    (hw : w.mode = .code) (hindent : w.indent = bodyIndent) (ht : Settled 4 t) :
    ∃ u, ((planRender markup bs).write w bodyIndent).enterCode.text = w.text ++ u
      ∧ Settled 4 (u ++ t) := by
  have hdrawn := @drawn_planRender _ _ _ markup bs hbs
  have hspaces : ∀ c ∈ bodyIndent, c = ' ' := by decide
  have hspaced : Spaced w.indent Fragment := by
    rw [hindent]
    exact spaced_fragment hspaces
  obtain ⟨u, hwritten, hu⟩ := exists_write hw hspaced
    (fun t ht => of_mem_planRender inherited_fragment hm (mem_markupTexts.2 ht))
    (fun code hc => printing_of_mem_callsOf hdrawn.values hc)
  refine ⟨u, hwritten, ?_⟩
  rcases hu with rfl | rfl | ⟨x, hx, hline, rfl⟩
  · exact (settled_headText hdrawn.bindings ht).1
  · exact (settled_headText hdrawn.bindings ht).2
  · have := (settled_headText hdrawn.bindings (Settled.turns hspaces hx hline ht)).2
    rw [hindent]
    simpa only [List.append_assoc] using this

/-- The body of the method and the end of the class. -/
theorem settled_renderBody {markup : Text} {bs : List BoundElement} (hm : Fragment markup)
    (hbs : ∀ b ∈ bs, Supplies IsLocal (isIdentifier · = true) Quotable b) :
    Settled 4 (renderBody (planRender markup bs) ++ joinLines classEnd) := by
  have hsettings : Piece (bodyIndent ++ ("$settings = $this->get_settings_for_display();" : Text)) :=
    piece_of_isTame (by decide) (by decide)
  obtain ⟨u, hu, hsettled⟩ := exists_settled_write hm hbs
    (w := (Writer.start bodyIndent).line
      (bodyIndent ++ "$settings = $this->get_settings_for_display();")) rfl rfl
    (settled_customCode settled_classEnd)
  have := Settled.line hsettings (fun h => by revert h; decide) hsettled
  rw [renderBody_eq, hu, Writer.line_of_code rfl]
  simpa only [Writer.start, List.nil_append, List.append_assoc, List.cons_append] using this

end

end WidgetCompiler.Validation
