import WidgetCompiler.Conversion
import WidgetCompiler.Proofs.Identity.Sources
import WidgetCompiler.Proofs.Style.Characters
import WidgetCompiler.Proofs.Validation.Method
import WidgetCompiler.Proofs.Validation.Quoting

/-!
# Sources with open literals

A source holds some texts of its widget between single quotes: the icon, the category and the
keywords, and whatever stands in for a missing value (`Widget.verbatim`).  A line break in one of them
leaves its literal open at the end of a line.  All other literals of a source in ASCII are closed on
their line, so the check of literals finds something just if one of these texts has a line break
(`checkQuotes?_buildWidget`).

In the method that shows the widget, the bindings quote what stands in for missing values
(`quotes_bindingLines`).  Behind them the markup of the fragment cannot open a literal, whatever it
is made of: it is in ASCII, and no instruction begins in it.
-/

namespace WidgetCompiler

open Text Markup Render Php

/-! ## Quoted texts -/

namespace Render

/-- The text that stands in for a missing value, if there is one. -/
def Source.fallback? : Source → Option Text
  | .setting _ => none
  | .settingOr _ fallback => some fallback
  | .linkOrNull _ => none
  | .urlOr _ fallback => some fallback

/-- All texts that stand in for missing values. -/
def Plan.fallbacks (p : Plan) : List Text := p.bindings.filterMap (·.source.fallback?)

end Render

/-- The texts of a widget that can have line breaks and stand in single quotes in its source. -/
def Widget.verbatim (w : Widget) : List Text :=
  w.identity.icon :: w.identity.category :: w.keywords ++ w.plan.fallbacks

namespace Validation

section

variable {t : Text} {bindings : List Binding} {bs : List BoundElement} {markup : Text}

/-! ## Bindings -/

variable {held : Text → Prop}

theorem quotes_source {source : Render.Source} (h : source.Drawn (isIdentifier · = true) held) :
    Quotes source.fallback?.toList source.toPhp := by
  have hsetting {id : Text} (hid : isIdentifier id = true) : Quotes [] (Value.setting id).toPhp := by
    have hopen : Quotes [] ("$settings[" : Text) := quotes_fixed (by decide)
    have hclose : Quotes [] ("]" : Text) := quotes_fixed (by decide)
    have hword : IsWord id := ((isIdentifier_iff id).1 hid).2
    exact (hopen.append (crosses_word hword).quotes).append hclose
  have hempty : Quotes [] ("!empty(" : Text) := quotes_fixed (by decide)
  have hurl : Quotes [] ("['url']) ? " : Text) := quotes_fixed (by decide)
  -- the value if it is there, and before that the question whether its address is
  have hlinked {id : Text} (hid : isIdentifier id = true) :
      Quotes [] (("!empty(" : Text) ++ (Value.setting id).toPhp ++ ("['url']) ? " : Text)
        ++ (Value.setting id).toPhp) :=
    ((hempty.append (hsetting hid)).append hurl).append (hsetting hid)
  cases source with
  | setting id => exact hsetting h
  | settingOr id fallback =>
    have hthen : Quotes [] (") ? " : Text) := quotes_fixed (by decide)
    have helse : Quotes [] (" : " : Text) := quotes_fixed (by decide)
    exact ((((hempty.append (hsetting h.1)).append hthen).append (hsetting h.1)).append
      helse).append (quotes_singleQuoted fallback)
  | linkOrNull id =>
    have hnull : Quotes [] (" : null" : Text) := quotes_fixed (by decide)
    exact (hlinked h).append hnull
  | urlOr id fallback =>
    have hrecord : Quotes [] (" : ['url' => " : Text) := quotes_fixed (by decide)
    have hclose : Quotes [] ("]" : Text) := quotes_fixed (by decide)
    exact (((hlinked h.1).append hrecord).append (quotes_singleQuoted fallback)).append
      hclose

/-- A binding quotes what stands in for its value. -/
theorem quotes_binding {b : Binding} (h : b.Drawn IsLocal (isIdentifier · = true) held) :
    Quotes b.source.fallback?.toList b.toPhp := by
  have hassign : Quotes [] (" = " : Text) := quotes_fixed (by decide)
  have hend : Quotes [] (";" : Text) := quotes_fixed (by decide)
  have := (((piece_variable h.1).crosses.quotes.append hassign).append (quotes_source h.2)).append
    hend
  rwa [List.append_nil, List.nil_append, List.nil_append] at this

theorem quotes_bindingLines
    (h : ∀ b ∈ bindings, b.Drawn IsLocal (isIdentifier · = true) held) :
    Quotes (bindings.filterMap (·.source.fallback?)) (bindingLines bodyIndent bindings) := by
  have hindent : Quotes [] bodyIndent := quotes_fixed (by decide)
  induction bindings with
  | nil => exact Crosses.nil.quotes
  | cons b bindings ih =>
    obtain ⟨hb, hbindings⟩ := List.forall_mem_cons.1 h
    have hline := (hindent.append (quotes_binding hb)).append Quotes.newline
    have htexts : (b :: bindings).filterMap (·.source.fallback?)
        = [] ++ b.source.fallback?.toList ++ [] ++ bindings.filterMap (·.source.fallback?) := by
      cases hfallback : b.source.fallback? with
      | none => simp [hfallback]
      | some fallback => simp [hfallback]
    rw [htexts]
    exact hline.append (ih hbindings)

/-- The remark behind the bindings quotes nothing. -/
theorem quotes_headText (h : ∀ b ∈ bindings, b.Drawn IsLocal (isIdentifier · = true) held) :
    Quotes (bindings.filterMap (·.source.fallback?)) (headText bodyIndent bindings) := by
  have hremark : Quotes [] (bodyIndent ++ ("// Widget markup" : Text) ++ ['\n']) := by
    have hindent : Crosses bodyIndent := crosses_of_leadsToCode (by decide)
    intro s
    have := @closed_lineComment s (" Widget markup" : Text) (by decide) (by decide)
    rw [List.append_assoc, List.append_assoc, hindent.closed_append]
    simpa using this
  have := ((quotes_bindingLines h).append Quotes.newline).append hremark
  rwa [List.append_nil, List.append_nil] at this

/-- A binding holds what stands in for its value. -/
theorem held_of_mem_fallbacks (h : ∀ b ∈ bindings, b.Drawn IsLocal (isIdentifier · = true) held)
    {fallback : Text} (hmem : fallback ∈ bindings.filterMap (·.source.fallback?)) : held fallback := by
  obtain ⟨b, hb, hfallback⟩ := List.mem_filterMap.1 hmem
  have hdrawn := (h b hb).2
  cases hsource : b.source with
  | setting id => simp [hsource, Source.fallback?] at hfallback
  | linkOrNull id => simp [hsource, Source.fallback?] at hfallback
  | settingOr id other =>
    rw [hsource] at hdrawn hfallback
    obtain rfl := Option.some.inj hfallback
    exact hdrawn.2
  | urlOr id other =>
    rw [hsource] at hdrawn hfallback
    obtain rfl := Option.some.inj hfallback
    exact hdrawn.2

/-! ## Markup -/

/-- Markup in ASCII in which no instruction begins. -/
structure Inert (t : Text) : Prop where
  ascii : IsAscii t
  lacks : Lacks "<?" t

theorem inert_sanitize (h : IsAscii markup) : Inert (sanitize markup).markup :=
  ⟨(madeOf_sanitize (by decide) h).markup, lacks_sanitize markup⟩

theorem inherited_inert : Inherited Inert where
  of_infix h hs := ⟨h.ascii.of_infix hs, inherited_lacks.of_infix h.lacks hs⟩
  append hs ht h := ⟨hs.ascii.append ht.ascii, inherited_lacks.append hs.lacks ht.lacks h⟩
  fixed t ht := by
    have hascii : ∀ t ∈ fixedMarkup, IsAscii t := by decide
    exact ⟨hascii t ht, inherited_lacks.fixed t ht⟩
  endTag hname h := by
    have hopen : IsAscii ['<', '/'] := by decide
    exact ⟨hopen.append (List.forall_mem_cons.1 h.ascii).2, inherited_lacks.endTag hname h.lacks⟩

theorem spaced_lacks : Spaced bodyIndent (Lacks "<?") where
  nil := by decide
  first h := Lacks.append (s := ['\n']) (by decide) h (apart_of_last (by decide))
  last {t} h lineEnd hlineEnd := by
    have hgap : Lacks "<?" (lineEnd ++ bodyIndent) ∧ '?' ∉ lineEnd ++ bodyIndent := by
      rcases hlineEnd with rfl | rfl <;> decide
    rw [List.append_assoc]
    refine h.append hgap.1 (apart_of_head fun c hc hm => ?_)
    obtain rfl : c = '?' := by simpa using hm
    exact hgap.2 (List.mem_of_mem_head? hc)

theorem spaced_inert : Spaced bodyIndent Inert where
  nil := ⟨MadeOf.nil, spaced_lacks.nil⟩
  first h := ⟨MadeOf.cons (by decide) h.ascii, spaced_lacks.first h.lacks⟩
  last {t} h lineEnd hlineEnd := by
    have hgap : IsAscii (lineEnd ++ bodyIndent) := by rcases hlineEnd with rfl | rfl <;> decide
    refine ⟨?_, spaced_lacks.last h.lacks lineEnd hlineEnd⟩
    rw [List.append_assoc]
    exact h.ascii.append hgap

/-! ## The method that shows the widget -/

/-- What stands behind the plan is closed from markup too. -/
theorem closed_customCode : Closed .markup (customCode ++ joinLines classEnd) := by
  have hshown := Closed.turns (fun ht => ⟨ht.isAscii, ht.lacks_instruction⟩)
    (fun hcode => hcode.piece.crosses) turns_styleValue
    (settled_blockEnd (settled_scriptBlock settled_classEnd)).closed
    fun ⟨_, _, hlost⟩ => hlost.not_closeTag.elim
  -- read from markup, the lines up to the `?>` are shown as well
  have hlines : IsAscii (joinLines ([] :: styleLines) ++ (blockIndent ++ Php.closeTag))
      ∧ '<' ∉ joinLines ([] :: styleLines) ++ (blockIndent ++ Php.closeTag) := by
    decide +kernel
  have := Closed.markup hlines.1 (lacks_of_not_mem (by decide) hlines.2) (by simp [shownValue]) hshown
  rw [customCode, blockText]
  simpa only [List.append_assoc] using this

/-- The method is closed just if nothing that stands in for a missing value has a line break. -/
theorem closed_renderBody (hm : Inert markup)
    (hbs : ∀ b ∈ bs, Supplies IsLocal (isIdentifier · = true) IsAscii b) :
    Closed .code (renderBody (planRender markup bs) ++ joinLines classEnd)
      ↔ ∀ fallback ∈ (planRender markup bs).fallbacks, '\n' ∉ fallback := by
  have hdrawn := @drawn_planRender _ _ _ markup bs hbs
  have hsettings : Crosses (bodyIndent ++ ("$settings = $this->get_settings_for_display();" : Text)) :=
    crosses_of_leadsToCode (by decide)
  have hrest : Closed .code (customCode ++ joinLines classEnd) :=
    (settled_customCode settled_classEnd).closed
  obtain ⟨u, hwritten, hu⟩ := @exists_write Inert Printing markup bs
    ((Writer.start bodyIndent).line
      (bodyIndent ++ "$settings = $this->get_settings_for_display();")) rfl spaced_inert
    (fun t ht => of_mem_planRender inherited_inert hm (mem_markupTexts.2 ht))
    (fun code hc => printing_of_mem_callsOf hdrawn.values hc)
  have hquoted : (∀ fallback ∈ (planRender markup bs).fallbacks, OneLine fallback)
      ↔ ∀ fallback ∈ (planRender markup bs).fallbacks, '\n' ∉ fallback :=
    forall₂_congr fun fallback hfallback => oneLine_iff.trans
      (and_iff_right (held_of_mem_fallbacks hdrawn.bindings hfallback))
  have hclosed : Closed .code (u ++ (customCode ++ joinLines classEnd))
      ↔ ∀ fallback ∈ (planRender markup bs).fallbacks, OneLine fallback := by
    rcases hu with rfl | rfl | ⟨x, hx, -, rfl⟩
    · rw [quotes_bindingLines hdrawn.bindings]
      exact and_iff_left hrest
    · rw [quotes_headText hdrawn.bindings]
      exact and_iff_left hrest
    · have hindent : Crosses bodyIndent := crosses_of_leadsToCode (by decide)
      have hturns := Closed.turns (fun ht => ⟨ht.ascii, ht.lacks⟩) (fun hcode => hcode.piece.crosses)
        hx hrest fun _ => closed_customCode
      have hmarkup : Closed .code (bodyIndent ++ Php.closeTag ++ x
          ++ (customCode ++ joinLines classEnd)) := by
        have := hindent.closed (Closed.closeTag hturns)
        simpa only [List.append_assoc] using this
      rw [List.append_assoc, quotes_headText hdrawn.bindings]
      exact and_iff_left hmarkup
  rw [← hquoted, ← hclosed, renderBody_eq, hwritten, Writer.line_of_code rfl]
  simp only [Writer.start, List.nil_append, List.append_assoc, List.singleton_append]
  rw [← List.append_assoc, hsettings.closed_append, List.cons_append, closed_newline rfl]
  rfl

/-! ## The source of a widget -/

/-- A source is closed just if what the code before its method quotes can be quoted and the method is
closed. -/
theorem closed_classSource {settings : Settings} {m : Identity} {className : Text}
    {keywords ts : List Text} {sections : List Section} {plan : Plan}
    (hbefore : Quotes ts (codeBefore settings m className keywords sections)) :
    Closed .markup (classSource settings m className keywords sections plan)
      ↔ (∀ t ∈ ts, OneLine t) ∧ Closed .code (renderBody plan ++ joinLines classEnd) := by
  have hmethod : Crosses methodLine := crosses_of_isPlainInCode (by decide)
  have hrest : Closed .code (methodLine ++ '\n' :: (renderBody plan ++ joinLines classEnd))
      ↔ Closed .code (renderBody plan ++ joinLines classEnd) := by
    rw [hmethod.closed_append, closed_newline rfl]
    rfl
  rw [classSource_eq, closed_openTag, closed_newline rfl, ← hrest]
  exact hbefore _

theorem isAscii_joinCode {pieces : List Text} (h : ∀ piece ∈ pieces, IsAscii piece) :
    IsAscii (Widget.joinCode pieces) := by
  refine MadeOf.join (by decide) fun piece hpiece => ?_
  obtain ⟨raw, hraw, rfl⟩ := List.mem_map.1 (List.mem_filter.1 hpiece).1
  exact (h raw hraw).trim

/-- The source of a widget in ASCII is closed just if no text that it quotes as it is has a line
break. -/
theorem closed_generate {settings : Settings} (hpackage : IsAscii settings.package)
    (hdomain : Quotable settings.textDomain) {m : Identity} (hm : m.MadeOf isAscii)
    (htitle : '\n' ∉ m.title) {forest : List Element}
    (hforest : ∀ e ∈ Element.preorderAll forest, e.MadeOf isAscii) {style behavior : Text}
    (hmarkup : IsAscii markup) (hstyle : IsAscii style) (hbehavior : IsAscii behavior) :
    Closed .markup (Widget.generate Catalog.builtin settings m forest markup style behavior).source
      ↔ ∀ t ∈ (Widget.generate Catalog.builtin settings m forest markup style behavior).verbatim,
        '\n' ∉ t := by
  have hsanitized : (sanitize markup).MadeOf isAscii := madeOf_sanitize (by decide) hmarkup
  have hkeywords : ∀ word ∈ m.keywords forest settings.maxKeywords, IsAscii word :=
    fun word hword => madeOf_keyword IsAscii.lowercase hm.title
      (fun e he => (hforest e (Element.mem_preorderAll_of_mem he)).tag) hword
  have hcss : IsAscii (Widget.preparedStyle settings forest
      (Widget.joinCode (style :: (sanitize markup).styles))) := by
    refine Style.madeOf_prepare (by decide) (fun wrapper hwrapper => ?_)
      (isAscii_joinCode (List.forall_mem_cons.2 ⟨hstyle, hsanitized.styles⟩))
    split at hwrapper
    · obtain rfl := Option.some.inj hwrapper
      decide
    · simp at hwrapper
  have hjs : IsAscii (Widget.joinCode (behavior :: (sanitize markup).scripts)) :=
    isAscii_joinCode (List.forall_mem_cons.2 ⟨hbehavior, hsanitized.scripts⟩)
  have hsections := quotes_sections hdomain hforest hcss hjs
  have hbefore : Quotes _ (codeBefore _ _ _ (m.keywords forest settings.maxKeywords) _) :=
    quotes_codeBefore hm hpackage (isName_className hm.name).word hsections
  have hmethod := closed_renderBody (inert_sanitize hmarkup) (supplies_bindForest (by decide) hforest)
  have hname : '\n' ∉ m.name := fun hc => absurd (hm.name.word _ hc) (by decide)
  have hline : '\n' ∉ settings.textDomain := hdomain.not_mem (by simp)
  have hquoted {t : Text} (ht : IsAscii t) : OneLine t ↔ '\n' ∉ t :=
    oneLine_iff.trans (and_iff_right ht)
  have hwords : (∀ word ∈ m.keywords forest settings.maxKeywords, OneLine word)
      ↔ ∀ word ∈ m.keywords forest settings.maxKeywords, '\n' ∉ word :=
    forall₂_congr fun word hword => hquoted (hkeywords word hword)
  refine (closed_classSource hbefore).trans ?_
  rw [hmethod]
  simp only [Identity.words, Widget.verbatim, List.forall_mem_cons, List.forall_mem_append, hwords,
    hquoted hm.name.word.isAscii, hquoted hm.title, hquoted hdomain.isAscii, hquoted hm.icon,
    hquoted hm.category]
  tauto

/-- What is built is the widget that is generated for the identity that is found. -/
theorem buildWidget_eq_ok {catalog : Catalog} {settings : Settings} {inference : Option Inference}
    {r : Request} {w : Widget} : buildWidget catalog settings inference r = .ok w ↔
      settings.check = .ok () ∧ ∃ m,
        resolveIdentity r.hints r.markup r.style r.behavior inference settings = .ok m
        ∧ w = Widget.generate catalog settings m (fragmentOf r.markup) r.markup r.style
          r.behavior := by
  unfold buildWidget
  cases settings.check with
  | error e => simp
  | ok =>
    cases resolveIdentity r.hints r.markup r.style r.behavior inference settings with
    | error e => simp
    | ok m => simp [eq_comm]

/-- If all that is given is in ASCII, and what the elements hold is so too, the check finds nothing in
the literals of the widget's source just if no text that the source quotes as it is has a line
break. -/
theorem checkQuotes?_buildWidget {inference : Option Inference} {r : Request} {w : Widget}
    (hmarkup : IsAscii r.markup) (hstyle : IsAscii r.style) (hbehavior : IsAscii r.behavior)
    (hhints : r.hints.MadeOf isAscii)
    (hinference : ∀ service ∈ inference, ∀ proposed ∈ service r.markup r.style r.behavior,
      proposed.MadeOf isAscii)
    (hforest : ∀ e ∈ Element.preorderAll (fragmentOf r.markup), e.MadeOf isAscii)
    (h : buildWidget Catalog.builtin {} inference r = .ok w) :
    checkQuotes? (.ofText w.source) = some [] ↔ ∀ t ∈ w.verbatim, '\n' ∉ t := by
  obtain ⟨-, m, hm, rfl⟩ := buildWidget_eq_ok.1 h
  have hidentity : m.MadeOf isAscii := madeOf_resolve holdsWords_isAscii
    (madeOf_gatherHints hhints hmarkup hinference) (by decide) (by decide) hm
  rw [checkQuotes?_eq_nil]
  exact closed_generate (by decide) (by decide) hidentity (not_mem_title_of_resolve hm) hforest
    hmarkup hstyle hbehavior

/-! ## An image with a description -/

/-- A request for an image with a description. -/
def imageRequest (description : Text) : Request where
  markup := "<img src=\"a.png\" alt=\"" ++ description ++ "\">"

/-- The identity of a widget of which nothing is known. -/
def unknownIdentity : Identity :=
  ⟨"custom_widget", "Custom Widget", "Custom Widget widget", "general", "eicon-code"⟩

/-- The widget that shows the image. -/
def imageWidget (description : Text) : Widget :=
  let markup := (imageRequest description).markup
  Widget.generate Catalog.builtin {} unknownIdentity (fragmentOf markup) markup [] []

theorem buildWidget_image {description : Text}
    (h : resolveIdentity {} (imageRequest description).markup [] [] none {} = .ok unknownIdentity) :
    buildWidget Catalog.builtin {} none (imageRequest description) = .ok (imageWidget description) :=
  buildWidget_eq_ok.2 ⟨by decide, unknownIdentity, h, rfl⟩

/-- A description on one line is quoted, and the source passes. -/
theorem checkQuotes?_imageWidget_line :
    buildWidget Catalog.builtin {} none (imageRequest "two words") = .ok (imageWidget "two words")
      ∧ (imageWidget "two words").verbatim
        = (["eicon-code", "general", "custom", "widget", "img", "a.png", "two words"] : List Text)
      ∧ checkQuotes? (.ofText (imageWidget "two words").source) = some [] := by
  have hbuilt : buildWidget Catalog.builtin {} none (imageRequest "two words")
      = .ok (imageWidget "two words") := buildWidget_image (by decide +kernel)
  have hverbatim : (imageWidget "two words").verbatim
      = (["eicon-code", "general", "custom", "widget", "img", "a.png", "two words"] : List Text) := by
    decide +kernel
  have hhints : IdentityHints.MadeOf isAscii {} := .empty
  refine ⟨hbuilt, hverbatim, ?_⟩
  refine (checkQuotes?_buildWidget (by decide) (by decide) (by decide) hhints (by simp)
    (by decide +kernel) hbuilt).2 ?_
  rw [hverbatim]
  decide

/-- A line break in the description leaves a literal open. -/
theorem checkQuotes?_imageWidget_lines :
    IsAscii (imageRequest "two\nlines").markup
      ∧ buildWidget Catalog.builtin {} none (imageRequest "two\nlines")
        = .ok (imageWidget "two\nlines")
      ∧ ("two\nlines" : Text) ∈ (imageWidget "two\nlines").plan.fallbacks
      ∧ checkQuotes? (.ofText (imageWidget "two\nlines").source) ≠ some [] := by
  have hfallback : ("two\nlines" : Text) ∈ (imageWidget "two\nlines").plan.fallbacks := by
    decide +kernel
  have hidentity : unknownIdentity.MadeOf isAscii :=
    ⟨⟨by decide, 'c', rfl, rfl⟩, by decide, by decide, by decide, by decide⟩
  have hclosed : Closed .markup (imageWidget "two\nlines").source
      ↔ ∀ t ∈ (imageWidget "two\nlines").verbatim, '\n' ∉ t :=
    closed_generate (by decide) (by decide) hidentity (by decide) (by decide +kernel)
      (by decide : IsAscii (imageRequest "two\nlines").markup) MadeOf.nil MadeOf.nil
  refine ⟨by decide, buildWidget_image (by decide +kernel), hfallback, fun h => ?_⟩
  have hverbatim : ("two\nlines" : Text) ∈ (imageWidget "two\nlines").verbatim :=
    List.mem_append_right _ hfallback
  exact hclosed.1 (checkQuotes?_eq_nil.1 h) _ hverbatim (by decide)

end

end Validation

end WidgetCompiler
