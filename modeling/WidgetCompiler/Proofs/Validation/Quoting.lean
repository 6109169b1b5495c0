import WidgetCompiler.Proofs.Control.Characters
import WidgetCompiler.Proofs.Validation.Elements
import WidgetCompiler.Proofs.Widget.Literals

/-!
# Code that quotes texts as they are

Most literals of a source stand on one line, whatever the text.  Those in single quotes hold a line
break as it is, and leave the literal open at the end of a line.  `Quotes ts t` says that a text of
code is closed just if the given texts are in ASCII and none of them has a line break: so it is with a
literal in single quotes and its text, and the texts of a sequence are those of its parts.

The lines of a control and of a section are put together from fixed pieces and literals.  What is asked
of their code here does not depend on what it is asked for: `Coding` says what has to hold of it.

Of the code before the method that shows the widget, what answers with the identity quotes texts
(`quotes_identity`).  The comment and the sections do not, so long as all is in ASCII
(`quotes_codeBefore`).
-/

namespace WidgetCompiler.Validation

open Text Markup

/-- A text that can stand between single quotes as it is. -/
def OneLine (t : Text) : Prop := ∀ c ∈ t, isAscii c = true ∧ c ≠ '\n'

theorem oneLine_iff {t : Text} : OneLine t ↔ IsAscii t ∧ '\n' ∉ t :=
  ⟨fun h => ⟨fun c hc => (h c hc).1, fun hc => (h _ hc).2 rfl⟩,
    fun h c hc => ⟨h.1 c hc, fun e => h.2 (e ▸ hc)⟩⟩

/-- The text goes from code to code, but the given texts stand between single quotes in it. -/
def Quotes (ts : List Text) (t : Text) : Prop :=
  ∀ s, Closed .code (t ++ s) ↔ (∀ u ∈ ts, OneLine u) ∧ Closed .code s

section

variable {s t domain : Text} {ts us ls ls' : List Text}

/-! ## Sequences -/

theorem Crosses.quotes (h : Crosses t) : Quotes [] t := fun s => by
  rw [h.closed_append]
  simp

namespace Quotes

theorem append (hs : Quotes ts s) (ht : Quotes us t) : Quotes (ts ++ us) (s ++ t) := by
  intro u
  rw [List.append_assoc, hs, ht, List.forall_mem_append, and_assoc]

theorem newline : Quotes [] ['\n'] := by
  intro s
  have hnext : Closed .code ('\n' :: s) ↔ Closed .code s := closed_newline rfl
  exact hnext.trans (and_iff_right (List.forall_mem_nil _)).symm

theorem line (h : Quotes ts t) : Quotes ts (joinLines [t]) := by
  simpa [joinLines] using h.append newline

theorem lines (h : Quotes ts (joinLines ls)) (h' : Quotes us (joinLines ls')) :
    Quotes (ts ++ us) (joinLines (ls ++ ls')) := by
  rw [joinLines_append]
  exact h.append h'

/-- What is closed behind the text is closed before it if its texts can be quoted. -/
theorem closed (h : Quotes ts t) (hts : ∀ u ∈ ts, OneLine u) (hs : Closed .code s) :
    Closed .code (t ++ s) :=
  (h s).2 ⟨hts, hs⟩

end Quotes

theorem quotes_of_crosses (h : ∀ l ∈ ls, Crosses l) : Quotes [] (joinLines ls) := by
  induction ls with
  | nil => exact Crosses.nil.quotes
  | cons l ls ih =>
    obtain ⟨hl, hls⟩ := List.forall_mem_cons.1 h
    exact Quotes.lines (Quotes.line hl.quotes) (ih hls)

/-- A literal in single quotes. -/
theorem quotes_singleQuoted (t : Text) : Quotes [t] (Php.singleQuoted t) := by
  intro s
  rw [closed_singleQuoted, List.forall_mem_singleton, OneLine]

theorem quotes_fixed (h : leadsToCode none t = true) : Quotes [] t :=
  (crosses_of_leadsToCode h).quotes

/-! ## Controls -/

theorem crosses_word (h : IsWord t) : Crosses (Php.singleQuoted t) :=
  (piece_singleQuoted (quotable_of_isPlain h.isPlain)).crosses

/-- A kind of code of which pieces that stay in code and on their line are, and literals of texts that
are made of some characters. -/
structure Coding (q : Char → Bool) (P : Text → Prop) : Prop where
  ascii : ∀ {c}, isAscii c = true → q c = true
  crosses : ∀ {t}, Crosses t → P t
  append : ∀ {s t}, P s → P t → P (s ++ t)
  literal : ∀ {t}, MadeOf q t → P (Php.literal t)
  doubleQuoted : ∀ {t}, MadeOf q t → P (Php.doubleQuoted t)

theorem coding_crosses : Coding isAscii Crosses :=
  ⟨id, id, Crosses.append, crosses_literal, crosses_doubleQuoted⟩

namespace Coding

variable {q : Char → Bool} {P : Text → Prop}

theorem fixed (h : Coding q P) (ht : leadsToCode none t = true) : P t :=
  h.crosses (crosses_of_leadsToCode ht)

theorem callLine (h : Coding q P) (depth : Nat) (ht : P t) : P (callLine depth t) :=
  h.append (h.crosses (piece_indentation depth).crosses) ht

theorem fixedLine (h : Coding q P) (depth : Nat) (ht : leadsToCode none t = true) :
    P (WidgetCompiler.callLine depth t) :=
  h.callLine depth (h.fixed ht)

theorem localized (h : Coding q P) (hdomain : P (Php.singleQuoted domain)) (ht : MadeOf q t) :
    P (localized domain t) := by
  have hcall : P "esc_html__(" := h.fixed (by decide)
  have hcomma : P ", " := h.fixed (by decide)
  have hend : P ")" := h.fixed (by decide)
  exact h.append (h.append (h.append (h.append hcall (h.literal ht)) hcomma) hdomain) hend

theorem entry (h : Coding q P) {key value : Text} (hkey : IsWord key) (hvalue : P value) :
    P (WidgetCompiler.callLine 2 ('\'' :: key ++ "' => " ++ value ++ ",")) := by
  have hcomma : P "," := h.fixed rfl
  exact h.callLine 2 (h.append (h.append (h.crosses (piece_key hkey).crosses) hvalue) hcomma)

/-- A text in a list under a key that is a text. -/
theorem pair (h : Coding q P) {key value : Text} (hkey : MadeOf q key) (hvalue : MadeOf q value) :
    P (WidgetCompiler.callLine 3 (Php.literal key ++ " => " ++ Php.literal value ++ ",")) := by
  have harrow : P " => " := h.fixed (by decide)
  have hcomma : P "," := h.fixed rfl
  exact h.callLine 3
    (h.append (h.append (h.append (h.literal hkey) harrow) (h.literal hvalue)) hcomma)

theorem default (h : Coding q P) {v : DefaultValue} (hv : MadeOf q v.asText) : P v.toPhp := by
  cases v with
  | text t => exact h.literal hv
  | url t =>
    have hopen : P "['url' => " := h.fixed (by decide)
    have hclose : P "]" := h.fixed (by decide)
    exact h.append (h.append hopen (h.literal hv)) hclose
  | code t => exact h.doubleQuoted hv

/-- Every line of a control. -/
theorem control (h : Coding q P) (hdomain : P (Php.singleQuoted domain)) {c : Control}
    (hc : c.MadeOf q) : ∀ l ∈ c.phpLines domain, P l := by
  have hcomma : P "," := h.fixed rfl
  have hfixed {depth : Nat} {t : Text} (ht : leadsToCode none t = true) :
      ∀ l ∈ [WidgetCompiler.callLine depth t], P l := fun l hl =>
    List.mem_singleton.1 hl ▸ h.fixedLine depth ht
  have hlist {opening : Text} {ls : List Text} (hopening : leadsToCode none opening = true)
      (hls : ∀ l ∈ ls, P l) :
      ∀ l ∈ WidgetCompiler.callLine 2 opening :: ls ++ [WidgetCompiler.callLine 2 "],"], P l :=
    List.forall_mem_append.2
      ⟨List.forall_mem_cons.2 ⟨h.fixedLine 2 hopening, hls⟩, hfixed (by decide)⟩
  rw [Control.phpLines]
  simp only [List.forall_mem_append, List.forall_mem_cons, List.not_mem_nil, false_imp_iff,
    implies_true, and_true]
  refine ⟨⟨⟨⟨⟨⟨⟨⟨?head, ?language⟩, ?default⟩, ?options⟩, ?units⟩, ?selectors⟩, ?description⟩,
    ?dynamic⟩, h.fixedLine 1 (by decide), h.fixedLine 0 (by decide)⟩
  case head =>
    exact ⟨h.fixedLine 0 (by decide),
      h.callLine 1 (h.append (h.crosses (crosses_word hc.id)) hcomma), h.fixedLine 1 (by decide),
      h.entry (by decide) (h.localized hdomain hc.label),
      h.entry (by decide) (h.crosses (piece_constant c.kind).crosses)⟩
  case language =>
    cases hlanguage : c.language with
    | none => simp
    | some language =>
      have hrows : P "20" := h.fixed (by decide)
      exact List.forall_mem_cons.2
        ⟨h.entry (by decide) (h.crosses (crosses_word (hc.language _ hlanguage))),
          List.forall_mem_singleton.2 (h.entry (by decide) hrows)⟩
  case default =>
    cases hdefault : c.default with
    | none => simp
    | some value =>
      exact List.forall_mem_singleton.2 (h.entry (by decide) (h.default (hc.default _ hdefault)))
  case options =>
    split
    · simp
    · refine hlist (by decide) fun l hl => ?_
      obtain ⟨option, hoption, rfl⟩ := List.mem_map.1 hl
      exact h.pair (hc.options option hoption) (hc.options option hoption)
  case units =>
    split
    · exact hfixed (by decide)
    · simp
  case selectors =>
    split
    · simp
    · refine hlist (by decide) fun l hl => ?_
      obtain ⟨entry, hentry, rfl⟩ := List.mem_map.1 hl
      exact h.pair (hc.selectors entry hentry).1 (hc.selectors entry hentry).2
  case description =>
    cases hdescription : c.description with
    | none => simp
    | some description =>
      exact List.forall_mem_singleton.2
        (h.entry (by decide) (h.localized hdomain (hc.description _ hdescription)))
  case dynamic =>
    split
    · exact hfixed (by decide)
    · simp

/-- Every line of a section. -/
theorem sectionLines (h : Coding q P) (hdomain : P (Php.singleQuoted domain)) {sec : Section}
    (hid : IsWord sec.id) (hlabel : MadeOf q sec.label) (hcontrols : ∀ c ∈ sec.controls, c.MadeOf q) :
    ∀ l ∈ sec.phpLines domain, P l := by
  have hcomma : P "," := h.fixed rfl
  have hkey : P "'label' => " := h.fixed (by decide)
  have hkey' : P "'tab' => " := h.fixed (by decide)
  rw [Section.phpLines]
  simp only [List.forall_mem_append, List.forall_mem_cons, List.not_mem_nil, false_imp_iff,
    implies_true, and_true]
  refine ⟨⟨⟨h.fixedLine 0 (by decide),
    h.callLine 1 (h.append (h.crosses (crosses_word hid)) hcomma), h.fixedLine 1 (by decide),
    h.callLine 2 ?label, h.callLine 2 ?tab, h.fixedLine 1 (by decide), h.fixedLine 0 (by decide)⟩,
    ?controls⟩, h.crosses Crosses.nil, h.fixedLine 0 (by decide)⟩
  case label => exact h.append (h.append hkey (h.localized hdomain hlabel)) hcomma
  case tab => exact h.append (h.append hkey' (h.crosses (piece_tab sec.tab).crosses)) hcomma
  case controls =>
    intro l hl
    obtain ⟨c, hc, hl⟩ := List.mem_flatMap.1 hl
    rcases List.mem_cons.1 hl with rfl | hl
    · exact h.crosses Crosses.nil
    · exact h.control hdomain (hcontrols c hc) l hl

theorem allSections (h : Coding q P) {sections : List Section}
    (hsections : ∀ sec ∈ sections, ∀ l ∈ sec.phpLines domain, P l) :
    ∀ l ∈ Section.allPhpLines domain sections, P l := by
  fun_induction Section.allPhpLines domain sections with
  | case1 => simp
  | case2 sec => exact hsections sec List.mem_cons_self
  | case3 sec next rest ih =>
    obtain ⟨hsec, hrest⟩ := List.forall_mem_cons.1 hsections
    exact List.forall_mem_append.2
      ⟨hsec, List.forall_mem_cons.2 ⟨h.crosses Crosses.nil, ih hrest⟩⟩

end Coding

/-! ## The sections of a widget -/

section

variable {q : Char → Bool} {P : Text → Prop}

theorem PrintableField.madeOf (hq : ∀ {c}, isAscii c = true → q c = true) {f : Field}
    (h : PrintableField f) : f.MadeOf q where
  id := h.id
  label c hc := hq (h.label.isAscii c hc)
  default v hv c hc := hq ((h.default v hv).isAscii c hc)
  options options hoptions o ho c hc := hq ((h.options options hoptions o ho).isAscii c hc)
  selector s hs c hc := hq ((h.selector s hs).isAscii c hc)
  property p hp c hc := hq ((h.property p hp).isAscii c hc)

namespace Coding

theorem madeOf (h : Coding q P) (ht : IsAscii t) : MadeOf q t := fun c hc => h.ascii (ht c hc)

theorem holdsWords (h : Coding q P) : HoldsWords q where
  word hc := h.ascii (holdsWords_isAscii.word hc)
  space := h.ascii holdsWords_isAscii.space

/-- The sections of an element. -/
theorem elementSections (h : Coding q P) (hdomain : P (Php.singleQuoted domain)) {b : BoundElement}
    (hb : b.element.MadeOf q) (ht : PrintableTemplate b.template) {sec : Section}
    (hsec : sec ∈ elementSections b) : ∀ l ∈ sec.phpLines domain, P l := by
  obtain ⟨tab, -, rfl⟩ := List.mem_map.1 hsec
  have htab : tab ∈ Tab.all := by cases tab <;> decide
  refine h.sectionLines hdomain (isWord_tabSection b tab) ?_ fun c hc => ?_
  · exact madeOf_sectionLabel h.holdsWords (h.ascii (by decide)) (h.ascii (by decide)) tab
      (MadeOf.left (h.madeOf (ht.label tab htab).1.isAscii)) hb.selector
  · obtain ⟨f, hf, rfl⟩ := List.mem_map.1 hc
    exact madeOf_ofField h.holdsWords (h.madeOf (by decide)) hb
      (PrintableField.madeOf h.ascii (ht.fields tab htab f hf))

/-- The editors for the widget's own code. -/
theorem customCodeSection (h : Coding q P) (hdomain : P (Php.singleQuoted domain)) {css js : Text}
    (hcss : MadeOf q css) (hjs : MadeOf q js) :
    ∀ l ∈ (customCodeSection css js).phpLines domain, P l := by
  have hid : IsWord "section_custom_code" := by decide
  have hlabel : MadeOf q "Custom Code" := h.madeOf (by decide)
  refine h.sectionLines hdomain hid hlabel
    (List.forall_mem_cons.2 ⟨?_, List.forall_mem_singleton.2 ?_⟩)
  · exact madeOf_codeControl (by decide) (h.madeOf (by decide)) (by decide) hcss
      (h.madeOf (by decide))
  · exact madeOf_codeControl (by decide) (h.madeOf (by decide)) (by decide) hjs
      (h.madeOf (by decide))

/-- All sections of a widget whose elements, and whose own code, are made of the characters. -/
theorem widgetSections (h : Coding q P) (hdomain : P (Php.singleQuoted domain))
    {forest : List Element} (hforest : ∀ e ∈ Element.preorderAll forest, e.MadeOf q) {css js : Text}
    (hcss : MadeOf q css) (hjs : MadeOf q js) :
    ∀ l ∈ Section.allPhpLines domain ((bindForest Catalog.builtin forest).flatMap
      WidgetCompiler.elementSections ++ [WidgetCompiler.customCodeSection css js]), P l := by
  refine h.allSections (List.forall_mem_append.2 ⟨fun sec hsec => ?_, ?_⟩)
  · obtain ⟨b, hb, hsec⟩ := List.mem_flatMap.1 hsec
    obtain ⟨helement, htemplate⟩ := printable_of_mem_bindForest hb
    exact h.elementSections hdomain (hforest _ helement) htemplate hsec
  · exact List.forall_mem_singleton.2 (h.customCodeSection hdomain hcss hjs)

end Coding

end

/-- Every literal of the sections stands on one line if the elements and the widget's own code are in
ASCII. -/
theorem quotes_sections (hdomain : Quotable domain) {forest : List Element}
    (hforest : ∀ e ∈ Element.preorderAll forest, e.MadeOf isAscii) {css js : Text}
    (hcss : IsAscii css) (hjs : IsAscii js) :
    Quotes [] (printSections domain
      ((bindForest Catalog.builtin forest).flatMap elementSections ++ [customCodeSection css js])) :=
  quotes_of_crosses
    (coding_crosses.widgetSections (piece_singleQuoted hdomain).crosses hforest hcss hjs)

/-! ## The code before the method -/

section

variable {settings : Settings} {m : Identity} {className : Text} {keywords : List Text}

/-- The comment holds texts, but no literals. -/
theorem quotes_comment (hm : m.MadeOf isAscii) (hpackage : IsAscii settings.package) :
    Quotes [] (joinLines (commentLines settings m)) := by
  have hdoc {t : Text} (ht : IsAscii t) : IsAscii (docText t) :=
    MadeOf.replace (by decide) (ht.collapseBlanks (by decide))
  have hstar : IsAscii (" * " : Text) := by decide
  have hlines : ∀ l ∈ (["*", " * " ++ docText m.title, " *", " * " ++ docText m.description, " *",
      " * @package " ++ docText settings.package] : List Text), IsAscii l := by
    simp only [List.forall_mem_cons, List.not_mem_nil, false_imp_iff, implies_true, and_true]
    exact ⟨by decide, hstar.append (hdoc hm.title), by decide, hstar.append (hdoc hm.description),
      by decide, MadeOf.append (by decide) (hdoc hpackage)⟩
  have hbody : isRemark (commentBody settings m) = true := by
    refine isRemark_of_lacks ?_ (lacks_commentBody settings m) (by simp [commentBody])
    exact (MadeOf.joinLines (by decide) hlines).append (by decide)
  intro s
  rw [joinLines_commentLines, List.append_assoc, List.append_assoc, List.append_assoc,
    closed_beginComment, closed_remark hbody, closed_endComment]
  exact Quotes.newline s

theorem quotes_guard : Quotes [] (joinLines guardLines) := by
  have hasked : Quotes [] ("if (!defined('ABSPATH')) \x7b" : Text) := quotes_fixed (by decide)
  have hexit : Quotes [] ("    exit; " : Text) := quotes_fixed (by decide)
  have hremark : Quotes [] (("//" : Text) ++ (" Exit if accessed directly" : Text) ++ ['\n']) := by
    intro s
    have := @closed_lineComment s (" Exit if accessed directly" : Text) (by decide) (by decide)
    simpa using this
  have hclose : Quotes [] ("\x7d" : Text) := quotes_fixed (by decide)
  have hempty : Quotes [] (joinLines [[]]) := Quotes.newline
  exact ((hempty.append hasked.line).append (hexit.append hremark)).append
    (hclose.line.append hempty)

theorem quotes_keywords (keywords : List Text) :
    Quotes keywords (join ", " (keywords.map Php.singleQuoted)) := by
  have hcomma : Quotes [] (", " : Text) := quotes_fixed (by decide)
  induction keywords with
  | nil => exact Crosses.nil.quotes
  | cons word words ih =>
    cases words with
    | nil => exact quotes_singleQuoted word
    | cons => exact ((quotes_singleQuoted word).append hcomma).append ih

/-- A method that answers with a value quotes what the value does. -/
theorem quotes_getter {name value : Text}
    (hname : leadsToCode none (memberIndent ++ "public function " ++ name ++ "() \x7b") = true)
    (h : Quotes ts value) : Quotes ts (joinLines (getterLines name value)) := by
  have hempty : Quotes [] (joinLines [[]]) := Quotes.newline
  have hreturn : Quotes [] (bodyIndent ++ "return ") := quotes_fixed (by decide)
  have hend : Quotes [] (";" : Text) := quotes_fixed (by decide)
  have hclose : Quotes [] (memberIndent ++ ("\x7d" : Text)) := quotes_fixed (by decide)
  have hanswer := ((hreturn.append h).append hend).line
  have := Quotes.lines (Quotes.lines (Quotes.lines hempty (quotes_fixed hname).line) hanswer)
    hclose.line
  simp only [List.nil_append, List.append_nil] at this
  exact this

/-- The methods that answer with the identity quote all of it. -/
theorem quotes_identity (settings : Settings) (m : Identity) (keywords : List Text) :
    Quotes (m.words settings keywords) (joinLines (identityLines settings m keywords)) := by
  have hlist {t : Text} {ts : List Text} (h : Quotes ts t) : Quotes ts ("[" ++ t ++ ("]" : Text)) := by
    have hopen : Quotes [] ("[" : Text) := quotes_fixed (by decide)
    have hclose : Quotes [] ("]" : Text) := quotes_fixed (by decide)
    have := (hopen.append h).append hclose
    rwa [List.nil_append, List.append_nil] at this
  have htitle : Quotes [m.title, settings.textDomain] ("esc_html__(" ++ Php.singleQuoted m.title
      ++ ", " ++ Php.singleQuoted settings.textDomain ++ ")") := by
    have hcall : Quotes [] ("esc_html__(" : Text) := quotes_fixed (by decide)
    have hcomma : Quotes [] (", " : Text) := quotes_fixed (by decide)
    have hend : Quotes [] (")" : Text) := quotes_fixed (by decide)
    exact (((hcall.append (quotes_singleQuoted m.title)).append hcomma).append
      (quotes_singleQuoted settings.textDomain)).append hend
  have hnames : ∀ name ∈ (["get_name", "get_title", "get_icon", "get_categories",
      "get_keywords"] : List Text),
      leadsToCode none (memberIndent ++ "public function " ++ name ++ "() \x7b") = true := by
    decide
  exact Quotes.lines (Quotes.lines (Quotes.lines (Quotes.lines
    (quotes_getter (hnames "get_name" (by decide)) (quotes_singleQuoted m.name))
    (quotes_getter (hnames "get_title" (by decide)) htitle))
    (quotes_getter (hnames "get_icon" (by decide)) (quotes_singleQuoted m.icon)))
    (quotes_getter (hnames "get_categories" (by decide)) (hlist (quotes_singleQuoted m.category))))
    (quotes_getter (hnames "get_keywords" (by decide)) (hlist (quotes_keywords keywords)))

/-- The code before the method quotes the identity, and nothing else. -/
theorem quotes_codeBefore (hm : m.MadeOf isAscii) (hpackage : IsAscii settings.package)
    (hclass : IsWord className) {sections : List Section}
    (hsections : Quotes [] (printSections settings.textDomain sections)) :
    Quotes (m.words settings keywords) (codeBefore settings m className keywords sections) := by
  have hcls : Quotes [] (joinLines (classLines className)) := by
    have hfront : Quotes [] ("class " : Text) := quotes_fixed (by decide)
    have hend : Quotes [] (" extends \\Elementor\\Widget_Base \x7b" : Text) :=
      quotes_fixed (by decide)
    exact ((hfront.append (piece_of_isWord hclass).crosses.quotes).append hend).line
  have hfixed : ∀ l ∈ controlsOpening ++ [memberIndent ++ ("\x7d" : Text), []], Crosses l := by
    have hchecked : ∀ l ∈ controlsOpening ++ [memberIndent ++ ("\x7d" : Text), []],
        leadsToCode none l = true := by
      decide
    exact fun l hl => crosses_of_leadsToCode (hchecked l hl)
  obtain ⟨hopening, hclosing⟩ := List.forall_mem_append.1 hfixed
  have hlines := Quotes.lines (Quotes.lines (Quotes.lines (Quotes.lines
    (quotes_comment hm hpackage) quotes_guard) hcls) (quotes_identity settings m keywords))
    (quotes_of_crosses hopening)
  have := (hlines.append hsections).append (quotes_of_crosses hclosing)
  simp only [List.nil_append, List.append_nil] at this
  exact this

end

end

end WidgetCompiler.Validation
