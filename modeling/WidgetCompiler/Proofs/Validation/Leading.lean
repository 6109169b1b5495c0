import WidgetCompiler.Proofs.Validation.QuotedSource

/-!
# Code that is read as code

A source that passes the check of literals has closed all of them on their lines, whatever its texts
are.  So the code before the method that shows the widget has been left in code (`leads_codeBefore`):
a text in it that is not in ASCII, or a line break in single quotes, would have been found.  `Leads t`
says this of a piece of code.  Unlike `Quotes` it asks nothing of the texts, and so it is kept by every
part of the source, as far as what stands in a comment, a literal or a control is concerned.

With the method begun in code, nothing that stands in for a missing value has a line break
(`oneLine_of_closed_renderBody`).
-/

namespace WidgetCompiler.Validation

open Text Markup Render Php

/-- What is closed with the text before it is closed without it. -/
def Leads (t : Text) : Prop := ∀ s, Closed .code (t ++ s) → Closed .code s

section

variable {s t markup : Text} {ts ls : List Text} {settings : Settings} {m : Identity}
variable {className : Text} {keywords : List Text} {sections : List Section}

theorem Quotes.leads (h : Quotes ts t) : Leads t := fun s hs => ((h s).1 hs).2

namespace Leads

theorem append (hs : Leads s) (ht : Leads t) : Leads (s ++ t) := by
  intro u hu
  rw [List.append_assoc] at hu
  exact ht u (hs _ hu)

theorem lines (h : ∀ l ∈ ls, Leads l) : Leads (joinLines ls) := by
  induction ls with
  | nil => exact fun s hs => hs
  | cons l ls ih =>
    obtain ⟨hl, hls⟩ := List.forall_mem_cons.1 h
    have := (hl.append Quotes.newline.leads).append (ih hls)
    rwa [List.append_assoc] at this

end Leads

/-- Literals of any texts lead to code. -/
theorem coding_leads : Coding (fun _ => true) Leads where
  ascii _ := rfl
  crosses h := h.quotes.leads
  append := Leads.append
  literal _ := by
    rw [Php.literal]
    split
    · exact fun s hs => (closed_doubleQuoted.1 hs).2
    · exact fun s hs => (closed_singleQuoted.1 hs).2
  doubleQuoted _ s hs := (closed_doubleQuoted.1 hs).2

/-! ## The comment -/

/-- A comment can be read up to its end, wherever it ends. -/
theorem closed_of_blockComment (hlacks : Lacks "*/" t) (hlast : t.getLast? ≠ some '*')
    (h : Closed .blockComment (t ++ s)) : Closed .blockComment s := by
  induction t with
  | nil => exact h
  | cons c t ih =>
    rw [List.cons_append] at h
    have htail : Closed .blockComment (t ++ s) := by
      by_cases hline : c = '\n'
      · subst hline
        exact (closed_newline rfl).1 h
      -- an end that begins here goes on in the comment, or begins at the end of it
      have hnext (rest : Text) (hrest : ∀ d ∈ rest.head?, d ∈ (t ++ s).head?) (r : Text)
          (hc : c = '*') : ¬ rest = '/' :: r := by
        rintro rfl
        subst hc
        cases t with
        | nil => exact hlast rfl
        | cons d t =>
          obtain rfl : d = '/' := by simpa using hrest '/' rfl
          exact hlacks ⟨[], t, rfl⟩
      by_cases hascii : isAscii c = true
      · refine (closed_append (t := [c]) (by simpa using Ne.symm hline) fun rest hrest => ?_).1 h
        rw [List.singleton_append, lexLine, if_pos hascii]
        exact fun r hc hr => hnext rest hrest r hc hr
      · refine absurd h (not_closed_cons hline fun rest => ?_)
        have hstar : c ≠ '*' := fun e => hascii (e ▸ by decide)
        rw [lexLine, if_neg hascii]
        exact fun r hc _ => hstar hc
    refine ih (hlacks.of_infix (List.suffix_cons c t).isInfix) (fun ht => hlast ?_) htail
    rw [List.getLast?_cons, ht]
    rfl

theorem leads_comment (settings : Settings) (m : Identity) :
    Leads (joinLines (commentLines settings m)) := by
  intro s hs
  have hlast : (commentBody settings m).getLast? ≠ some '*' := by simp [commentBody]
  rw [joinLines_commentLines, List.append_assoc, List.append_assoc, List.append_assoc,
    closed_beginComment] at hs
  have hend := closed_of_blockComment (lacks_commentBody settings m) hlast hs
  rw [closed_endComment] at hend
  exact (closed_newline rfl).1 hend

/-! ## The code before the method -/

theorem leads_codeBefore (hclass : IsWord className)
    (hsections : ∀ l ∈ Section.allPhpLines settings.textDomain sections, Leads l) :
    Leads (codeBefore settings m className keywords sections) := by
  have hcls : Leads (joinLines (classLines className)) := by
    have hfront : Leads ("class " : Text) := coding_leads.fixed (by decide)
    have hend : Leads (" extends \\Elementor\\Widget_Base \x7b" : Text) :=
      coding_leads.fixed (by decide)
    have hname : Leads className := coding_leads.crosses (piece_of_isWord hclass).crosses
    exact Leads.lines (List.forall_mem_singleton.2 ((hfront.append hname).append hend))
  have hfixed : ∀ l ∈ controlsOpening ++ [memberIndent ++ ("\x7d" : Text), []],
      leadsToCode none l = true := by
    decide
  obtain ⟨hopening, hclosing⟩ := List.forall_mem_append.1 hfixed
  rw [codeBefore]
  simp only [joinLines_append (_ ++ _), joinLines_append]
  exact ((((((leads_comment settings m).append quotes_guard.leads).append hcls).append
    (quotes_identity settings m keywords).leads).append
    (Leads.lines fun l hl => coding_leads.fixed (hopening l hl))).append
    (Leads.lines hsections)).append (Leads.lines fun l hl => coding_leads.fixed (hclosing l hl))

theorem closed_renderBody_of_classSource {plan : Plan} (hclass : IsWord className)
    (hsections : ∀ l ∈ Section.allPhpLines settings.textDomain sections, Leads l)
    (h : Closed .markup (classSource settings m className keywords sections plan)) :
    Closed .code (renderBody plan ++ joinLines classEnd) := by
  have hmethod : Crosses methodLine := crosses_of_isPlainInCode (by decide)
  rw [classSource_eq, closed_openTag, closed_newline rfl] at h
  have := leads_codeBefore hclass hsections _ h
  rw [hmethod.closed_append, closed_newline rfl] at this
  exact this

/-! ## The method -/

/-- The line with which the method begins. -/
def settingsLine : Text := bodyIndent ++ ("$settings = $this->get_settings_for_display();" : Text)

/-- The method begins with the settings and the bindings.  What the fragment's markup shows, if it
shows anything, stands in turns of markup without instructions and of statements. -/
theorem exists_renderBody {held : Text → Prop} {bs : List BoundElement} (hm : Lacks "<?" markup)
    (hbs : ∀ b ∈ bs, Supplies IsLocal (isIdentifier · = true) held b) :
    ∃ u, renderBody (planRender markup bs) = settingsLine ++ '\n' :: (u ++ customCode)
      ∧ (u = bindingLines bodyIndent (planRender markup bs).bindings
        ∨ u = headText bodyIndent (planRender markup bs).bindings
        ∨ ∃ x, Turns (Lacks "<?") Printing x ∧ ['\n'] <+: x
          ∧ u = headText bodyIndent (planRender markup bs).bindings
            ++ (bodyIndent ++ closeTag ++ x)) := by
  have hdrawn := @drawn_planRender _ _ _ markup bs hbs
  obtain ⟨u, hwritten, hu⟩ := @exists_write (Lacks "<?") Printing markup bs
    ((Writer.start bodyIndent).line settingsLine) rfl spaced_lacks
    (fun t ht => of_mem_planRender inherited_lacks hm (mem_markupTexts.2 ht))
    (fun code hc => printing_of_mem_callsOf hdrawn.values hc)
  refine ⟨u, ?_, hu⟩
  rw [settingsLine] at hwritten
  rw [renderBody_eq, hwritten, Writer.line_of_code rfl]
  simp [Writer.start, settingsLine]

/-- Where all literals are closed, no line break stands in for a missing value. -/
theorem oneLine_of_closed_renderBody {held : Text → Prop} {bs : List BoundElement}
    (hm : Lacks "<?" markup) (hbs : ∀ b ∈ bs, Supplies IsLocal (isIdentifier · = true) held b)
    (h : Closed .code (renderBody (planRender markup bs) ++ s)) :
    ∀ fallback ∈ (planRender markup bs).fallbacks, OneLine fallback := by
  have hbindings := (@drawn_planRender _ _ _ markup bs hbs).bindings
  have hsettings : Crosses settingsLine := crosses_of_leadsToCode (by decide)
  obtain ⟨u, hbody, hu⟩ := exists_renderBody hm hbs
  have hrest : Closed .code (u ++ (customCode ++ s)) := by
    rw [hbody, List.append_assoc, hsettings.closed_append, List.cons_append, closed_newline rfl,
      List.append_assoc] at h
    exact h
  rcases hu with rfl | rfl | ⟨x, -, -, rfl⟩
  · exact ((quotes_bindingLines hbindings _).1 hrest).1
  · exact ((quotes_headText hbindings _).1 hrest).1
  · rw [List.append_assoc] at hrest
    exact ((quotes_headText hbindings _).1 hrest).1

end

end WidgetCompiler.Validation
