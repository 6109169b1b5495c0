import WidgetCompiler.Proofs.Identity.Plain
import WidgetCompiler.Proofs.Markup.Untouched
import WidgetCompiler.Proofs.Validation.Method
import WidgetCompiler.Proofs.Validation.Quoting
import WidgetCompiler.Proofs.Validation.Report
import WidgetCompiler.Proofs.Widget.Parts
import WidgetCompiler.Widget.Basic

/-!
# Generated sources pass

If the code before the method that shows the widget is quiet and the rest is settled, the report on
the source is empty (`validate?_classSource`).

For plain values the comment, the guard, the methods for the identity and the sections are all quiet,
so whatever is generated from plain values passes (`validate?_generate`).
-/

namespace WidgetCompiler.Validation

open Text Markup Render Php

section

variable {settings : Settings} {m : Identity} {className : Text} {keywords : List Text}
variable {sections : List Section} {plan : Plan} {t : Text}

/-! ## Sources with quiet code and a settled method -/

/-- The lines before the sections stand in the source. -/
theorem infix_classSource {l : Text} (h : l ∈ identityLines settings m keywords ++ controlsOpening) :
    l <:+: classSource settings m className keywords sections plan := by
  have hhead : l ∈ headLines settings m ++ classLines className
      ++ identityLines settings m keywords ++ controlsOpening := by
    rw [List.append_assoc]
    exact List.mem_append_right _ h
  refine (infix_joinLines hhead).trans ?_
  simp only [classSource, List.append_assoc]
  exact (List.prefix_append _ _).isInfix

/-- The class and its methods stand in lines of their own. -/
theorem declares_classSource :
    Declares className (classSource settings m className keywords sections plan) where
  cls := by
    have hsplit : classSource settings m className keywords sections plan
        = joinLines (openTag :: commentLines settings m ++ guardLines.dropLast)
          ++ ("\nclass " ++ className ++ " extends \\Elementor\\Widget_Base \x7b" : Text)
          ++ '\n' :: (joinLines (identityLines settings m keywords ++ controlsOpening)
            ++ printSections settings.textDomain sections ++ joinLines renderOpening
            ++ renderBody plan ++ joinLines classEnd) := by
      simp [classSource, headLines, commentLines, guardLines, classLines, joinLines]
    rw [hsplit]
    exact List.infix_append _ _ _
  methods name hname := by
    have hcases : ∀ name ∈ requiredMethods, name ∈ (["get_name", "get_title", "get_icon",
        "get_categories", "get_keywords"] : List Text)
          ∨ name = ("register_controls" : Text) ∨ name = ("render" : Text) := by
      decide
    rcases hcases name hname with hname | rfl | rfl
    · replace hname : name ∈ (getters settings m keywords).map Prod.fst := hname
      obtain ⟨g, hg, rfl⟩ := List.mem_map.1 hname
      have hline : memberIndent ++ "public function " ++ g.1 ++ "() \x7b" ∈ getterLines g.1 g.2 := by
        simp [getterLines]
      have hlines : memberIndent ++ "public function " ++ g.1 ++ "() \x7b"
          ∈ identityLines settings m keywords := by
        rw [identityLines_eq]
        exact List.mem_flatMap.2 ⟨g, hg, hline⟩
      refine List.IsInfix.trans ⟨memberIndent ++ ("public" : Text), (") \x7b" : Text), ?_⟩
        (infix_classSource (List.mem_append_left _ hlines))
      simp
    · refine List.IsInfix.trans ?_ (infix_classSource (List.mem_append_right _
        (List.mem_cons_of_mem _ List.mem_cons_self)))
      exact ⟨memberIndent ++ ("protected" : Text), (") \x7b" : Text), by decide⟩
    · have hline : (" function " ++ "render" ++ "(" : Text) <:+: methodLine :=
        ⟨memberIndent ++ ("protected" : Text), (") \x7b" : Text), by decide⟩
      refine hline.trans ?_
      rw [classSource_eq, ← List.cons_append, ← List.append_assoc, ← List.append_assoc]
      exact List.infix_append _ _ _

theorem openTag_eq : openTag = '<' :: ("?php" : Text) := rfl

/-- Code before the method, with the tag that opens it. -/
theorem inCode_tag (h : Everywhere InCode t) : Everywhere InCode (("?php\n" : Text) ++ t) := by
  have htag : Everywhere InCode ("?php\n" : Text) := @along_of_isTame [] _ (by decide)
  exact htag.append h

/-- The method is not called in the code before it. -/
theorem uncalled_tag (h : Everywhere InCode t) : Uncalled "render" (openTag ++ '\n' :: t) := by
  intro a b hab
  cases a with
  | nil => exact absurd (List.cons.inj hab).1 (by decide)
  | cons c a =>
    rw [openTag_eq, List.cons_append] at hab
    have := inCode_tag h a ('(' :: b) (by simpa using (List.cons.inj hab).2) (by simp) [c] []
    simpa using this.call b

/-- Such a source is harmless if the code before the method and the method are. -/
theorem allHarmless_classSource
    (hbefore : Everywhere Harmless (codeBefore settings m className keywords sections))
    (hmethod : Everywhere Harmless (renderBody plan ++ joinLines classEnd)) :
    AllHarmless (classSource settings m className keywords sections plan) := by
  have htag : Everywhere Harmless ("?php\n" : Text) := everywhere_harmless (by decide)
  have hline : Everywhere Harmless (methodLine ++ ['\n']) := everywhere_harmless (by decide)
  have hrest := (htag.append hbefore).append (hline.append hmethod)
  intro a b hab hb
  rw [classSource_eq] at hab
  cases a with
  | nil =>
    obtain rfl := hab
    exact harmless_openTag fun h => absurd h (by decide)
  | cons c a =>
    rw [openTag_eq, List.cons_append] at hab
    have := hrest a b (by simpa using (List.cons.inj hab).2) hb [c] []
    simpa using this

/-- Such a source passes all checks. -/
theorem validate?_classSource
    (hbefore : Quiet (codeBefore settings m className keywords sections))
    (hmethod : Settled 4 (renderBody plan ++ joinLines classEnd)) (hclass : IsName className) :
    validate? (classSource settings m className keywords sections plan)
      = some ⟨true, [], []⟩ := by
  have hplaces : AllHarmless (classSource settings m className keywords sections plan) :=
    allHarmless_classSource (hbefore.places.mono fun _ _ h => h.toHarmless) hmethod.places
  have hclosed : Closed .markup (classSource settings m className keywords sections plan) := by
    have hdeclared : Crosses methodLine := crosses_of_isPlainInCode (by decide)
    have hcode := hbefore.passes (hdeclared.closed (Closed.newline rfl hmethod.closed))
    rw [classSource_eq]
    exact Closed.openTag (Closed.newline rfl hcode)
  have hmodes : checkRenderModes (.ofText (classSource settings m className keywords sections plan))
      = [] := by
    have hsplit : classSource settings m className keywords sections plan
        = (openTag ++ '\n' :: codeBefore settings m className keywords sections)
          ++ (methodLine ++ '\n' :: (renderBody plan ++ joinLines classEnd)) := by
      rw [classSource_eq, List.append_assoc, List.cons_append]
    have hend : (openTag ++ '\n' :: codeBefore settings m className keywords sections).getLast?
        = some '\n' := by
      rw [codeBefore, show joinLines [memberIndent ++ ("\x7d" : Text), []]
        = (memberIndent ++ ("\x7d\n" : Text)) ++ ['\n'] from rfl, ← List.append_assoc,
        ← List.cons_append, ← List.append_assoc, List.getLast?_concat]
    rw [hsplit]
    refine checkRenderModes_eq_nil (uncalled_tag hbefore.places) hend (by decide) (by decide +kernel)
      hmethod.orderly ?_
    rw [← hsplit]
    exact not_mem_return hplaces
  exact validate?_eq_some hplaces hclosed hmodes
    (checkClass_eq_nil hclass.word hclass.head declares_classSource)

/-! ## The comment -/

/-- Plain text has no mark that ends a comment. -/
theorem isPlain_docText (h : IsPlain t) : IsPlain (docText t) := by
  have hplain : IsPlain (collapseBlanks t) := MadeOf.collapseBlanks (p := isPlainChar) (by decide) h
  have hstar : '*' ∉ collapseBlanks t := hplain.not_mem (by decide)
  rw [docText, replace_of_lacks (by decide) _ (lacks_of_not_mem (c := '*') (by decide) hstar)]
  exact hplain

theorem quiet_comment (hm : m.Plain) (hpackage : IsPlain settings.package) :
    Quiet (joinLines (commentLines settings m)) where
  places := by
    have hstar : Quotable (" * " : Text) := by decide
    have hdoc {t : Text} (ht : IsPlain t) : Quotable (docText t) :=
      quotable_of_isPlain (isPlain_docText ht)
    have hlines : ∀ l ∈ commentLines settings m, Quotable l := by
      have hfixed : ∀ l ∈ (["/**", " *", " */"] : List Text), Quotable l := by decide
      simp only [commentLines, List.forall_mem_cons, List.not_mem_nil, false_imp_iff,
        implies_true, and_true]
      exact ⟨hfixed _ (by decide), hstar.append (hdoc hm.title), hfixed _ (by decide),
        hstar.append (hdoc hm.description), hfixed _ (by decide),
        Quotable.append (by decide) (hdoc hpackage), hfixed _ (by decide)⟩
    refine everywhere_of_forall_mem fun c hc => inCode_of_not_mem fun hmark => ?_
    rcases mem_joinLines hc with rfl | ⟨l, hl, hc⟩
    · exact absurd hmark (by decide)
    · exact (hlines l hl).not_mem (List.mem_append_left _ hmark) hc
  passes := (quotes_comment hm.isAscii hpackage.isAscii).closed (by simp)

theorem quiet_guard : Quiet (joinLines guardLines) where
  places := @along_of_isTame [] _ (by decide)
  passes := quotes_guard.closed (by simp)

/-! ## The methods for the identity -/

theorem piece_join {sep : Text} {ts : List Text} (hsep : Piece sep) (h : ∀ t ∈ ts, Piece t) :
    Piece (join sep ts) := by
  fun_induction join sep ts with
  | case1 => exact Piece.nil
  | case2 t => exact h t List.mem_cons_self
  | case3 t u ts ih =>
    exact ((h t List.mem_cons_self).append hsep).append
      (ih fun v hv => h v (List.mem_cons_of_mem _ hv))

theorem quiet_getter {name value : Text}
    (hname : Piece (memberIndent ++ "public function " ++ name ++ "() \x7b"))
    (hvalue : Piece (bodyIndent ++ "return " ++ value ++ ";")) :
    Quiet (joinLines (getterLines name value)) := by
  have hbrace : Piece (memberIndent ++ "\x7d") := piece_of_isTame (by decide) (by decide)
  refine quiet_of_pieces ?_
  simp only [getterLines, List.forall_mem_cons, List.not_mem_nil, false_imp_iff, implies_true,
    and_true]
  exact ⟨Piece.nil, hname, hvalue, hbrace⟩

/-- The values of a plain identity can be returned. -/
theorem piece_return (hm : m.Plain) (hdomain : Quotable settings.textDomain)
    (hkeywords : ∀ word ∈ keywords, IsPlain word) :
    ∀ g ∈ getters settings m keywords, Piece (bodyIndent ++ "return " ++ g.2 ++ ";") := by
  have hreturn : Piece (bodyIndent ++ ("return " : Text)) := piece_of_isTame (by decide) (by decide)
  have hend : Piece (";" : Text) := piece_of_isTame (by decide) (by decide)
  have hliteral {t : Text} (ht : IsPlain t) : Piece (singleQuoted t) :=
    piece_singleQuoted (quotable_of_isPlain ht)
  have hlist {t : Text} (ht : Piece t) :
      Piece (bodyIndent ++ "return " ++ ('[' :: (t ++ ("]" : Text))) ++ ";") := by
    have hclose : Piece ("]" : Text) := piece_of_isTame (by decide) (by decide)
    exact (piece_bracket hreturn (by decide) (ht.append hclose)).append hend
  simp only [getters, List.forall_mem_cons, List.not_mem_nil, false_imp_iff, implies_true,
    and_true]
  refine ⟨(hreturn.append (hliteral hm.name.word.isPlain)).append hend, ?_,
    (hreturn.append (hliteral hm.icon)).append hend, hlist (hliteral hm.category), ?_⟩
  · have hcall : Piece ("esc_html__(" : Text) := piece_of_isTame (by decide) (by decide)
    have hcomma : Piece (", " : Text) := piece_of_isTame (by decide) (by decide)
    have hclose : Piece (")" : Text) := piece_of_isTame (by decide) (by decide)
    exact (hreturn.append ((((hcall.append (hliteral hm.title)).append hcomma).append
      (piece_singleQuoted hdomain)).append hclose)).append hend
  · have hcomma : Piece (", " : Text) := piece_of_isTame (by decide) (by decide)
    refine hlist (piece_join hcomma fun t ht => ?_)
    obtain ⟨word, hword, rfl⟩ := List.mem_map.1 ht
    exact hliteral (hkeywords word hword)

theorem quiet_identity (hm : m.Plain) (hdomain : Quotable settings.textDomain)
    (hkeywords : ∀ word ∈ keywords, IsPlain word) :
    Quiet (joinLines (identityLines settings m keywords)) := by
  have hnames : ∀ name ∈ (getters settings m keywords).map Prod.fst,
      Piece (memberIndent ++ "public function " ++ name ++ "() \x7b") := by
    have hchecked : ∀ name ∈ (["get_name", "get_title", "get_icon", "get_categories",
        "get_keywords"] : List Text),
        isTame [] (memberIndent ++ "public function " ++ name ++ "() \x7b") = true
          ∧ leadsToCode none (memberIndent ++ "public function " ++ name ++ "() \x7b") = true := by
      decide
    exact fun name hname => piece_of_isTame (hchecked name hname).1 (hchecked name hname).2
  have hgetters : ∀ g ∈ getters settings m keywords, Quiet (joinLines (getterLines g.1 g.2)) :=
    fun g hg => quiet_getter (hnames g.1 (List.mem_map_of_mem hg))
      (piece_return hm hdomain hkeywords g hg)
  rw [identityLines_eq]
  generalize getters settings m keywords = gs at hgetters
  induction gs with
  | nil => exact Quiet.nil
  | cons g gs ih =>
    rw [List.flatMap_cons]
    exact quiet_append_lines (hgetters g List.mem_cons_self)
      (ih fun g' hg' => hgetters g' (List.mem_cons_of_mem _ hg'))

/-! ## Generated sources -/

/-- The code before the sections of a plain identity. -/
theorem quiet_headLines (hm : m.Plain) (hpackage : IsPlain settings.package)
    (hdomain : Quotable settings.textDomain) (hclass : IsWord className)
    (hkeywords : ∀ word ∈ keywords, IsPlain word) :
    Quiet (joinLines (commentLines settings m ++ guardLines ++ classLines className
      ++ identityLines settings m keywords ++ controlsOpening)) := by
  have hcls : Quiet (joinLines (classLines className)) := by
    have hfront : Piece ("class " : Text) := piece_of_isTame (by decide) (by decide)
    have hend : Piece (" extends \\Elementor\\Widget_Base \x7b" : Text) :=
      piece_of_isTame (by decide) (by decide)
    have := (hfront.append (piece_of_isWord hclass)).append hend
    exact quiet_of_pieces (by simpa [classLines] using this)
  have hopening : Quiet (joinLines controlsOpening) := by
    have hchecked : ∀ l ∈ controlsOpening, isTame [] l = true ∧ leadsToCode none l = true := by
      decide
    exact quiet_of_pieces fun l hl => piece_of_isTame (hchecked l hl).1 (hchecked l hl).2
  exact quiet_append_lines (quiet_append_lines (quiet_append_lines (quiet_append_lines
    (quiet_comment hm hpackage) quiet_guard) hcls) (quiet_identity hm hdomain hkeywords)) hopening

theorem quiet_endLines : Quiet (joinLines [memberIndent ++ ("\x7d" : Text), []]) := by
  have hchecked : ∀ l ∈ [memberIndent ++ ("\x7d" : Text), []],
      isTame [] l = true ∧ leadsToCode none l = true := by
    decide
  exact quiet_of_pieces fun l hl => piece_of_isTame (hchecked l hl).1 (hchecked l hl).2

/-- All code before the method of a plain identity. -/
theorem quiet_codeBefore (hm : m.Plain) (hpackage : IsPlain settings.package)
    (hdomain : Quotable settings.textDomain) (hclass : IsWord className)
    (hkeywords : ∀ word ∈ keywords, IsPlain word)
    (hsections : Quiet (printSections settings.textDomain sections)) :
    Quiet (codeBefore settings m className keywords sections) :=
  ((quiet_headLines hm hpackage hdomain hclass hkeywords).append hsections).append quiet_endLines

/-- What is generated from plain values and plain markup, without a style sheet and a script, passes
all checks. -/
theorem validate?_generate {hints : IdentityHints} (hhints : hints.Plain)
    (hm : hints.resolve {} = .ok m) {forest : List Element}
    (hforest : ∀ e ∈ Element.preorderAll forest, PlainElement e) {markup : Text}
    (hchars : ∀ c ∈ markup, isPlainChar c = true ∨ c ∈ ("<>\"\n" : Text))
    (hmarks : ∀ mark ∈ takenMarks, Lacks mark (lowerAscii markup)) (htrim : trim markup = markup) :
    validate? (Widget.generate Catalog.builtin {} m forest markup [] []).source
      = some ⟨true, [], []⟩ := by
  have hplain : m.Plain := plain_resolve hhints (by decide) (by decide) hm
  have hascii : ∀ c ∈ markup, isAscii c = true ∧ c ∉ ("?[\r" : Text) := by
    have hmore : ∀ c ∈ ("<>\"\n" : Text), isAscii c = true ∧ c ∉ ("?[\r" : Text) := by decide
    have hnot : ∀ c ∈ ("?[\r" : Text), isPlainChar c = false := by decide
    intro c hc
    rcases hchars c hc with h | h
    · exact ⟨isAscii_of_isPlainChar h, fun hm => Bool.false_ne_true ((hnot c hm).symm.trans h)⟩
    · exact hmore c h
  have hsanitize : sanitize markup = ⟨markup, [], []⟩ := by
    have hquestion : '?' ∉ markup := fun hm => (hascii _ hm).2 (by decide)
    exact sanitize_eq_self (fun c hc => (hascii c hc).1) hquestion hmarks htrim
  have hfragment : Fragment markup := by
    have hpage : ∀ mark ∈ pageMarks, mark ∈ takenMarks := by decide
    exact ⟨fun c hc => Bool.and_eq_true_iff.2 ⟨(hascii c hc).1, decide_eq_true (hascii c hc).2⟩,
      fun mark hmark => hmarks mark (hpage mark hmark)⟩
  have hsource : (Widget.generate Catalog.builtin {} m forest markup [] []).source
      = classSource {} m m.className (m.keywords forest ({} : Settings).maxKeywords)
          ((bindForest Catalog.builtin forest).flatMap elementSections ++ [customCodeSection [] []])
          (planRender markup (bindForest Catalog.builtin forest)) := by
    rw [Widget.generate, hsanitize]
    rfl
  have hkeywords : ∀ word ∈ m.keywords forest ({} : Settings).maxKeywords, IsPlain word :=
    fun word hword => madeOf_keyword IsPlain.lowercase hplain.title
      (fun e he => (hforest e (Element.mem_preorderAll_of_mem he)).tag) hword
  have hbound : ∀ b ∈ bindForest Catalog.builtin forest,
      Supplies IsLocal (isIdentifier · = true) Quotable b :=
    supplies_bindForest (q := isQuotable) (by decide) fun e he => (hforest e he).madeOf
  have hclass : IsName m.className := isName_className hplain.name
  rw [hsource]
  exact validate?_classSource (quiet_codeBefore hplain (by decide) (by decide) hclass.word hkeywords
    (quiet_sections hforest)) (settled_renderBody hfragment hbound) hclass

/-- A heading with a class and a paragraph in a box. -/
theorem validate?_generate_box :
    validate? (Widget.generate Catalog.builtin {}
      ⟨"price_box", "Price Box", "What it costs", "general", "eicon-code"⟩
      [.make "div" [] (some "box") none []
        [.make "h1" ["title"] none (some "50% off!") [] [], .make "p" [] none (some "Buy now") [] []]]
      "<div id=\"box\">\n<h1 class=\"title\">50% off!</h1>\n<p>Buy now</p>\n</div>" [] []).source
      = some ⟨true, [], []⟩ := by
  have hhints : IdentityHints.Plain ⟨some "Price box", none, some "What it costs", none, none⟩ :=
    ⟨by decide, by decide, by decide, by decide, by decide⟩
  refine validate?_generate hhints (by decide) (fun e he => ?_) (by decide)
    (by decide +kernel) (by decide)
  simp only [Element.make, Element.preorderAll, Element.preorder, List.mem_append, List.mem_cons,
    List.not_mem_nil, or_false] at he
  rcases he with rfl | rfl | rfl
  all_goals exact ⟨by decide, by decide, by decide, by decide, by decide, by decide⟩

end

end WidgetCompiler.Validation
