import WidgetCompiler.Catalog.Builtin
import WidgetCompiler.Proofs.Identity.Plain
import WidgetCompiler.Proofs.Php.Spelling
import WidgetCompiler.Proofs.Text.Replace
import WidgetCompiler.Proofs.Widget.Parts
import WidgetCompiler.Widget.Basic

/-!
# The literals of a widget

Texts from outside get into the code before the method that shows the widget in many places, and at
all of them they stand in a literal or in the comment.  Going through the data in order gives the
texts that a reader of the code finds in its literals (`Identity.words`, `Control.words`,
`Section.words`), and nothing that stands in them changes what is found behind them
(`readLiterals_source`).
-/

namespace WidgetCompiler

open Text Php

/-! ## Walking the data -/

/-- The texts in the methods that answer with the identity. -/
def Identity.words (settings : Settings) (m : Identity) (keywords : List Text) : List Text :=
  m.name :: m.title :: settings.textDomain :: m.icon :: m.category :: keywords

/-- The texts of a value. -/
def DefaultValue.words : DefaultValue → List Text
  | text t => [spelled t]
  | url t => ["url", spelled t]
  | code t => [spelled t]

/-- The texts of a control, with the keys under which they stand. -/
def Control.words (domain : Text) (c : Control) : List Text :=
  let entry (key : Text) (words : List Text) : List Text := key :: words
  [c.id] ++ entry "label" [spelled c.label, domain] ++ entry "type" []
  ++ (match c.language with
    | some language => entry "language" [language] ++ entry "rows" []
    | none => [])
  ++ (match c.default with
    | some value => entry "default" value.words
    | none => [])
  ++ (if c.options.isEmpty then []
    else entry "options" (c.options.flatMap fun option => [spelled option, spelled option]))
  ++ (if c.kind.hasUnits then entry "size_units" ["px", "em", "rem", "%"] else [])
  ++ (if c.selectors.isEmpty then []
    else entry "selectors" (c.selectors.flatMap fun (selector, declaration) =>
      [spelled selector, spelled declaration]))
  ++ (match c.description with
    | some description => entry "description" [spelled description, domain]
    | none => [])
  ++ (if c.dynamic then entry "dynamic" ["active"] else [])

/-- The texts of a section and of its controls. -/
def Section.words (domain : Text) (s : Section) : List Text :=
  [s.id, "label", spelled s.label, domain, "tab"] ++ s.controls.flatMap (·.words domain)

section

variable {settings : Settings} {m : Identity} {className : Text} {keywords : List Text}
variable {s t domain : Text} {ls ls' : List Text} {ws vs : List Text}

/-! ## Lines -/

theorem spells_lines (h : Spells (joinLines ls) ws) (h' : Spells (joinLines ls') vs) :
    Spells (joinLines (ls ++ ls')) (ws ++ vs) := by
  rw [joinLines_append]
  exact h.append h'

/-- A line on its own. -/
theorem spells_line (h : Spells t ws) : Spells (joinLines [t]) ws := by
  have hnewline : Spells ['\n'] [] := spells_of_isPlainCode rfl
  have := h.append hnewline
  rwa [List.append_nil] at this

theorem spells_of_isWord (h : IsWord t) : Spells t [] := by
  refine spells_of_isPlainCode (List.all_eq_true.2 fun c hc => decide_eq_true fun hm => ?_)
  have hmarks : ∀ d ∈ specialInCode, (d.isAlphanum || d == '_') = false := by decide
  exact Bool.false_ne_true ((hmarks c hm).symm.trans (h c hc))

theorem spells_indentation (depth : Nat) :
    Spells (callIndent ++ (List.replicate depth ("    " : Text)).flatten) [] := by
  refine spells_of_isPlainCode (List.all_eq_true.2 fun c hc => ?_)
  have hspace : c = ' ' := by
    rcases List.mem_append.1 hc with hc | hc
    · exact List.eq_of_mem_replicate (n := 8) hc
    · obtain ⟨l, hl, hc⟩ := List.mem_flatten.1 hc
      rw [List.eq_of_mem_replicate hl] at hc
      exact List.eq_of_mem_replicate (n := 4) hc
  rw [hspace]
  rfl

theorem spells_callLine (depth : Nat) (h : Spells t ws) :
    Spells (joinLines [callLine depth t]) ws :=
  spells_line ((spells_indentation depth).append h)

theorem spells_localized (domain t : Text) : Spells (localized domain t) [spelled t, domain] := by
  have hcall : Spells "esc_html__(" [] := spells_of_isPlainCode (by decide)
  have hcomma : Spells ", " [] := spells_of_isPlainCode (by decide)
  have hend : Spells ")" [] := spells_of_isPlainCode (by decide)
  exact (((hcall.append (spells_literal t)).append hcomma).append
    (spells_singleQuoted domain)).append hend

theorem spells_constant (kind : FieldKind) : Spells (managerConstant kind.constant) [] := by
  cases kind <;> exact spells_of_isPlainCode (by decide)

theorem spells_default (v : DefaultValue) : Spells v.toPhp v.words := by
  cases v with
  | text t => exact spells_literal t
  | url t =>
    have hopen : Spells "['url' => " ["url"] := spells_of_read (by decide) (by decide)
    have hclose : Spells "]" [] := spells_of_isPlainCode (by decide)
    exact (hopen.append (spells_literal t)).append hclose
  | code t => exact spells_doubleQuoted t

/-! ## Controls -/

/-- An entry of a list: its key, and what is found in its value. -/
theorem spells_entry {key value : Text} (hkey : escapeSingle key = key) (h : Spells value ws) :
    Spells (joinLines [callLine 2 ('\'' :: key ++ "' => " ++ value ++ ",")]) (key :: ws) := by
  have harrow : Spells " => " [] := spells_of_isPlainCode (by decide)
  have hcomma : Spells "," [] := spells_of_isPlainCode (by decide)
  have := (((spells_singleQuoted key).append harrow).append h).append hcomma
  rw [singleQuoted, hkey] at this
  exact spells_callLine 2 (by simpa using this)

/-- A text in a list under a key that is a text. -/
theorem spells_pair (key value : Text) :
    Spells (joinLines [callLine 3 (literal key ++ " => " ++ literal value ++ ",")])
      [spelled key, spelled value] := by
  have harrow : Spells " => " [] := spells_of_isPlainCode (by decide)
  have hcomma : Spells "," [] := spells_of_isPlainCode (by decide)
  exact spells_callLine 3 ((((spells_literal key).append harrow).append
    (spells_literal value)).append hcomma)

theorem joinLines_map {α : Type} (f : α → Text) (as : List α) :
    joinLines (as.map f) = as.flatMap fun a => joinLines [f a] := by
  induction as with
  | nil => rfl
  | cons a as ih => rw [List.map_cons, joinLines, ih, List.flatMap_cons, joinLines, joinLines]; simp

/-- Pairs between a line that opens their list and one that closes it. -/
theorem spells_list {α : Type} {key : Text} {f g : α → Text} (as : List α)
    (hopen : Spells (joinLines [callLine 2 t]) [key]) :
    Spells (joinLines (callLine 2 t :: as.map (fun a =>
        callLine 3 (literal (f a) ++ " => " ++ literal (g a) ++ ",")) ++ [callLine 2 "],"]))
      (key :: as.flatMap fun a => [spelled (f a), spelled (g a)]) := by
  have hpairs : Spells (joinLines (as.map fun a =>
      callLine 3 (literal (f a) ++ " => " ++ literal (g a) ++ ",")))
      (as.flatMap fun a => [spelled (f a), spelled (g a)]) := by
    rw [joinLines_map]
    exact Spells.flatMap fun a _ => spells_pair (f a) (g a)
  have hclose : Spells "]," [] := spells_of_isPlainCode (by decide)
  have := spells_lines (spells_lines hopen hpairs) (spells_callLine 2 hclose)
  simpa using this

theorem spells_control (domain : Text) (c : Control) :
    Spells (joinLines (c.phpLines domain)) (c.words domain) := by
  have hcall : Spells (joinLines [callLine 0 "$this->add_control(",
      callLine 1 (singleQuoted c.id ++ ","), callLine 1 "["]) [c.id] := by
    have hadd : Spells "$this->add_control(" [] := spells_of_isPlainCode (by decide)
    have hcomma : Spells "," [] := spells_of_isPlainCode (by decide)
    have hbracket : Spells "[" [] := spells_of_isPlainCode (by decide)
    have hid := spells_callLine 1 ((spells_singleQuoted c.id).append hcomma)
    exact spells_lines (spells_lines (spells_callLine 0 hadd) hid) (spells_callLine 1 hbracket)
  have hkeys : escapeSingle "label" = "label" ∧ escapeSingle "type" = "type" := by decide
  have hlabel := spells_entry hkeys.1 (spells_localized domain c.label)
  have htype := spells_entry hkeys.2 (spells_constant c.kind)
  have hend : Spells (joinLines [callLine 1 "]", callLine 0 ");"]) [] := by
    have hbracket : Spells "]" [] := spells_of_isPlainCode (by decide)
    have hparenthesis : Spells ");" [] := spells_of_isPlainCode (by decide)
    exact spells_lines (spells_callLine 1 hbracket) (spells_callLine 0 hparenthesis)
  have hnone : Spells (joinLines []) [] := Spells.nil
  suffices h : Spells (joinLines (c.phpLines domain)) (c.words domain ++ []) by
    rwa [List.append_nil] at h
  rw [Control.phpLines, Control.words]
  refine spells_lines (spells_lines (spells_lines (spells_lines (spells_lines (spells_lines
    (spells_lines (spells_lines (spells_lines (spells_lines hcall hlabel) htype) ?language)
      ?default) ?options) ?units) ?selectors) ?description) ?dynamic) hend
  case language =>
    cases c.language with
    | none => exact hnone
    | some language =>
      have hrows : Spells "20" [] := spells_of_isPlainCode (by decide)
      exact spells_lines (spells_entry rfl (spells_singleQuoted language)) (spells_entry rfl hrows)
  case default =>
    cases c.default with
    | none => exact hnone
    | some value => exact spells_entry rfl (spells_default value)
  case options =>
    have hopen : Spells "'options' => [" ["options"] := spells_of_read (by decide) (by decide)
    split
    · exact hnone
    · exact spells_list c.options (spells_callLine 2 hopen)
  case units =>
    have hline : Spells "'size_units' => ['px', 'em', 'rem', '%'],"
        ["size_units", "px", "em", "rem", "%"] := spells_of_read (by decide) (by decide)
    split
    · exact spells_callLine 2 hline
    · exact hnone
  case selectors =>
    have hopen : Spells "'selectors' => [" ["selectors"] := spells_of_read (by decide) (by decide)
    split
    · exact hnone
    · exact spells_list c.selectors (spells_callLine 2 hopen)
  case description =>
    cases c.description with
    | none => exact hnone
    | some description => exact spells_entry rfl (spells_localized domain description)
  case dynamic =>
    have hline : Spells "'dynamic' => ['active' => true]," ["dynamic", "active"] :=
      spells_of_read (by decide) (by decide)
    split
    · exact spells_callLine 2 hline
    · exact hnone

/-! ## Sections -/

theorem spells_tab (tab : Tab) : Spells (managerConstant tab.constant) [] := by
  cases tab <;> exact spells_of_isPlainCode (by decide)

theorem spells_section (domain : Text) (s : Section) :
    Spells (joinLines (s.phpLines domain)) (s.words domain) := by
  have hhead : Spells (joinLines [callLine 0 "$this->start_controls_section(",
      callLine 1 (singleQuoted s.id ++ ","), callLine 1 "[",
      callLine 2 ("'label' => " ++ localized domain s.label ++ ","),
      callLine 2 ("'tab' => " ++ managerConstant s.tab.constant ++ ","), callLine 1 "]",
      callLine 0 ");"]) [s.id, "label", spelled s.label, domain, "tab"] := by
    have hstart : Spells "$this->start_controls_section(" [] := spells_of_isPlainCode (by decide)
    have hcomma : Spells "," [] := spells_of_isPlainCode (by decide)
    have hopen : Spells "[" [] := spells_of_isPlainCode (by decide)
    have hclose : Spells "]" [] := spells_of_isPlainCode (by decide)
    have hend : Spells ");" [] := spells_of_isPlainCode (by decide)
    have hkeys : escapeSingle "label" = "label" ∧ escapeSingle "tab" = "tab" := by decide
    have hid := spells_callLine 1 ((spells_singleQuoted s.id).append hcomma)
    exact spells_lines (spells_lines (spells_lines (spells_lines (spells_lines (spells_lines
      (spells_callLine 0 hstart) hid) (spells_callLine 1 hopen))
      (spells_entry hkeys.1 (spells_localized domain s.label)))
      (spells_entry hkeys.2 (spells_tab s.tab))) (spells_callLine 1 hclose)) (spells_callLine 0 hend)
  have hempty : Spells (joinLines [[]]) [] := spells_of_isPlainCode (by decide)
  have hcontrols : Spells (joinLines (s.controls.flatMap fun c => [] :: c.phpLines domain))
      (s.controls.flatMap (·.words domain)) := by
    induction s.controls with
    | nil => exact Spells.nil
    | cons c cs ih =>
      have hcontrol : Spells (joinLines ([[]] ++ c.phpLines domain)) ([] ++ c.words domain) :=
        spells_lines hempty (spells_control domain c)
      rw [List.flatMap_cons, List.flatMap_cons]
      exact spells_lines hcontrol ih
  have hend : Spells (joinLines [[], callLine 0 "$this->end_controls_section();"]) [] := by
    have hcall : Spells "$this->end_controls_section();" [] := spells_of_isPlainCode (by decide)
    exact spells_lines hempty (spells_callLine 0 hcall)
  have := spells_lines (spells_lines hhead hcontrols) hend
  rwa [List.append_nil] at this

theorem spells_sections (domain : Text) (sections : List Section) :
    Spells (printSections domain sections) (sections.flatMap (·.words domain)) := by
  have hempty : Spells (joinLines [[]]) [] := spells_of_isPlainCode (by decide)
  rw [printSections]
  fun_induction Section.allPhpLines domain sections with
  | case1 => exact Spells.nil
  | case2 s => simpa using spells_section domain s
  | case3 s t ss ih => exact spells_lines (spells_section domain s) (spells_lines hempty ih)

/-! ## The identity -/

theorem spells_keywords (keywords : List Text) :
    Spells (join ", " (keywords.map singleQuoted)) keywords := by
  have hcomma : Spells ", " [] := spells_of_isPlainCode (by decide)
  induction keywords with
  | nil => exact Spells.nil
  | cons word words ih =>
    cases words with
    | nil => exact spells_singleQuoted word
    | cons => exact ((spells_singleQuoted word).append hcomma).append ih

/-- In a method that answers with a value is found what is found in the value. -/
theorem spells_getter {name value : Text} (hname : isPlainCode name = true) (h : Spells value ws) :
    Spells (joinLines (getterLines name value)) ws := by
  have hempty : Spells (joinLines [[]]) [] := spells_of_isPlainCode (by decide)
  have hfunction : Spells (memberIndent ++ "public function ") [] :=
    spells_of_isPlainCode (by decide)
  have hopen : Spells "() \x7b" [] := spells_of_isPlainCode (by decide)
  have hreturn : Spells (bodyIndent ++ "return ") [] := spells_of_isPlainCode (by decide)
  have hend : Spells ";" [] := spells_of_isPlainCode (by decide)
  have hclose : Spells (memberIndent ++ "\x7d") [] := spells_of_isPlainCode (by decide)
  have hdeclared := spells_line ((hfunction.append (spells_of_isPlainCode hname)).append hopen)
  have hanswer := spells_line ((hreturn.append h).append hend)
  have := spells_lines (spells_lines (spells_lines hempty hdeclared) hanswer) (spells_line hclose)
  simp only [List.nil_append, List.append_nil] at this
  exact this

theorem spells_identity (settings : Settings) (m : Identity) (keywords : List Text) :
    Spells (joinLines (identityLines settings m keywords)) (m.words settings keywords) := by
  have hlist {t : Text} {ws : List Text} (h : Spells t ws) :
      Spells ("[" ++ t ++ ("]" : Text)) ws := by
    have hopen : Spells "[" [] := spells_of_isPlainCode (by decide)
    have hclose : Spells "]" [] := spells_of_isPlainCode (by decide)
    have := (hopen.append h).append hclose
    rwa [List.nil_append, List.append_nil] at this
  have htitle : Spells ("esc_html__(" ++ singleQuoted m.title ++ ", "
      ++ singleQuoted settings.textDomain ++ ")") [m.title, settings.textDomain] := by
    have hcall : Spells "esc_html__(" [] := spells_of_isPlainCode (by decide)
    have hcomma : Spells ", " [] := spells_of_isPlainCode (by decide)
    have hend : Spells ")" [] := spells_of_isPlainCode (by decide)
    exact (((hcall.append (spells_singleQuoted m.title)).append hcomma).append
      (spells_singleQuoted settings.textDomain)).append hend
  have hnames : ∀ name ∈ (["get_name", "get_title", "get_icon", "get_categories",
      "get_keywords"] : List Text), isPlainCode name = true := by
    decide
  exact spells_lines (spells_lines (spells_lines (spells_lines
    (spells_getter (hnames "get_name" (by decide)) (spells_singleQuoted m.name))
    (spells_getter (hnames "get_title" (by decide)) htitle))
    (spells_getter (hnames "get_icon" (by decide)) (spells_singleQuoted m.icon)))
    (spells_getter (hnames "get_categories" (by decide)) (hlist (spells_singleQuoted m.category))))
    (spells_getter (hnames "get_keywords" (by decide)) (hlist (spells_keywords keywords)))

/-! ## The comment and the guard -/

/-- What stands within the comment that names a widget. -/
def commentBody (settings : Settings) (m : Identity) : Text :=
  joinLines ["*", " * " ++ docText m.title, " *", " * " ++ docText m.description, " *",
    " * @package " ++ docText settings.package] ++ [' ']

theorem joinLines_commentLines (settings : Settings) (m : Identity) :
    joinLines (commentLines settings m) = "/*" ++ commentBody settings m ++ "*/" ++ ['\n'] := by
  simp [commentLines, commentBody, joinLines]

/-- A text in the comment does not end it: where it would, the characters stand apart. -/
theorem lacks_docText (t : Text) : Lacks "*/" (docText t) := by
  have hmark : ("*/" : Text) ≠ [] := by decide
  rw [docText]
  generalize collapseBlanks t = t
  generalize hlength : t.length = n
  induction n using Nat.strong_induction_on generalizing t with
  | _ n ih =>
    by_cases hprefix : ("*/" : Text) <+: t
    · obtain ⟨rest, rfl⟩ := hprefix
      rw [replace_append_self hmark]
      have hrest := ih rest.length (by simp at hlength; omega) rest rfl
      exact Lacks.append (by decide) hrest (apart_of_last (by decide))
    · cases t with
      | nil => rw [replace_of_lacks hmark _ (by decide)]; decide
      | cons c t =>
        have hrest := ih t.length (by simp at hlength; omega) t rfl
        rw [replace_cons hmark hprefix]
        intro hinfix
        rcases List.infix_cons_iff.1 hinfix with hbegins | hinfix
        · obtain ⟨rfl, hslash⟩ := List.cons_prefix_cons.1
            (show '*' :: ['/'] <+: c :: replace "*/" "* /" t from hbegins)
          have hhead : t.head? = some '/' := by
            rw [← head?_replace hmark (show ("* /" : Text).head? = ("*/" : Text).head? from rfl) t]
            obtain ⟨r, hr⟩ := hslash
            rw [← hr]
            rfl
          obtain ⟨t, rfl⟩ := List.head?_eq_some_iff.1 hhead
          exact hprefix ⟨t, rfl⟩
        · exact hrest hinfix

/-- The comment is not ended by a text in it. -/
theorem lacks_commentBody (settings : Settings) (m : Identity) :
    Lacks "*/" (commentBody settings m) := by
  have hdoc {front : Text} (hfront : Lacks "*/" front) (hspace : front.getLast? = some ' ')
      (t : Text) : Lacks "*/" (front ++ docText t) := by
    refine hfront.append (lacks_docText t) (apart_of_last fun c hc => ?_)
    obtain rfl : ' ' = c := Option.some.inj (hspace.symm.trans hc)
    decide
  have hlines : ∀ l ∈ (["*", " * " ++ docText m.title, " *", " * " ++ docText m.description, " *",
      " * @package " ++ docText settings.package] : List Text), Lacks "*/" l := by
    simp only [List.forall_mem_cons, List.not_mem_nil, false_imp_iff, implies_true, and_true]
    exact ⟨by decide, hdoc (by decide) rfl _, by decide, hdoc (by decide) rfl _, by decide,
      hdoc (by decide) rfl _⟩
  exact (lacks_joinLines (by decide) (by decide) hlines).append (by decide)
    (apart_of_head (by decide))

theorem spells_guard : Spells (joinLines guardLines) ["ABSPATH"] := by
  have hasked : Spells "\nif (!defined('ABSPATH')) \x7b\n    exit; " ["ABSPATH"] :=
    spells_of_read (by decide) (by decide)
  have hremark : Spells ("//" ++ " Exit if accessed directly" ++ ['\n']) [] :=
    spells_lineComment (by decide) (by decide)
  have hclose : Spells "\x7d\n\n" [] := spells_of_isPlainCode (by decide)
  exact (hasked.append hremark).append hclose

/-! ## All code before the method -/

/-- The code behind the comment that names the widget. -/
def codeBehindComment (settings : Settings) (m : Identity) (className : Text) (keywords : List Text)
    (sections : List Section) : Text :=
  joinLines (guardLines ++ classLines className ++ identityLines settings m keywords
      ++ controlsOpening)
    ++ printSections settings.textDomain sections ++ joinLines [memberIndent ++ "\x7d", []]

theorem spells_codeBehindComment (hclass : IsWord className) (sections : List Section) :
    Spells (codeBehindComment settings m className keywords sections)
      ("ABSPATH" :: (m.words settings keywords
        ++ sections.flatMap (·.words settings.textDomain))) := by
  have hdeclared : Spells (joinLines (classLines className)) [] := by
    have hfront : Spells "class " [] := spells_of_isPlainCode (by decide)
    have hbase : Spells " extends \\Elementor\\Widget_Base \x7b" [] :=
      spells_of_isPlainCode (by decide)
    exact spells_line ((hfront.append (spells_of_isWord hclass)).append hbase)
  have hopening : Spells (joinLines controlsOpening) [] := spells_of_isPlainCode (by decide)
  have hclosing : Spells (joinLines [memberIndent ++ "\x7d", []]) [] :=
    spells_of_isPlainCode (by decide)
  have hlines := spells_lines (spells_lines (spells_lines spells_guard hdeclared)
    (spells_identity settings m keywords)) hopening
  have := (hlines.append (spells_sections settings.textDomain sections)).append hclosing
  simpa [codeBehindComment] using this

theorem codeBefore_eq : codeBefore settings m className keywords sections =
    "/*" ++ commentBody settings m ++ "*/" ++ ['\n']
      ++ codeBehindComment settings m className keywords sections := by
  rw [codeBefore, codeBehindComment, ← joinLines_commentLines]
  simp only [joinLines_append, List.append_assoc]

/-- No text breaks out of where it stands in the code before the method that shows the widget.  The
comment goes on up to the end that is written for it; behind the code a reader is in code, and has
found just the texts that the data have, each in its place. -/
theorem readLiterals_source {raw : Text} (hname : normalizeName raw = some m.name)
    (catalog : Catalog) (settings : Settings) (forest : List Markup.Element)
    (markup style behavior : Text) :
    let w := Widget.generate catalog settings m forest markup style behavior
    let comment := commentBody settings m
    let code := codeBehindComment settings m w.className w.keywords w.sections
    w.source = openTag ++ ("\n/*" ++ comment ++ "*/\n" ++ code)
        ++ (memberIndent ++ "protected function render() \x7b\n" ++ renderBody w.plan
          ++ joinLines classEnd)
      ∧ (∀ a, a <+: comment → readLiterals .code [] ("\n/*" ++ a) = (.blockComment, []))
      ∧ readLiterals .code [] ("\n/*" ++ comment ++ "*/\n" ++ code)
        = (.code, ("ABSPATH" : Text) :: (m.words settings w.keywords
          ++ w.sections.flatMap (·.words settings.textDomain))) := by
  intro w comment code
  have hclass : IsWord w.className := (isName_className (isName_of_normalizeName hname)).word
  have hcomment : Spells ("\n" ++ ("/*" ++ comment ++ "*/") ++ "\n") [] := by
    have hnewline : Spells "\n" [] := spells_of_isPlainCode (by decide)
    have hlast : ∀ c ∈ comment.getLast?, c ≠ '*' := by simp [comment, commentBody]
    exact (hnewline.append (spells_comment (lacks_commentBody settings m) hlast)).append hnewline
  refine ⟨?_, fun a ha => ?_, ?_⟩
  · change classSource settings m w.className w.keywords w.sections w.plan = _
    rw [classSource_eq, codeBefore_eq]
    simp [methodLine, comment, code]
  · have hlacks : Lacks "*/" a := Lacks.of_infix (lacks_commentBody settings m) ha.isInfix
    exact readLiterals_blockComment hlacks []
  · have hcode : Spells code _ := spells_codeBehindComment hclass w.sections
    have := (hcomment.append hcode).read
    simpa using this

/-- A title that would end the comment and a literal, and a heading with both kinds of quotes. -/
theorem readLiterals_source_quotes :
    let m : Identity := ⟨"price_box", "*/ exit('now'); /*", "Don't \\", "general", "eicon-code"⟩
    let w := Widget.generate Catalog.builtin {} m
      [.make "h1" ["it's"] none (some "\"50%\"\r\n'$off'\\") [] []] "<h1></h1>" [] []
    readLiterals .code [] ("\n/*" ++ commentBody {} m ++ "*/\n"
        ++ codeBehindComment {} m w.className w.keywords w.sections)
      = (.code, ("ABSPATH" : Text) :: (m.words {} w.keywords
        ++ w.sections.flatMap (·.words ({} : Settings).textDomain))) :=
  have hname : normalizeName "Price box" = some "price_box" := by decide
  (readLiterals_source hname Catalog.builtin {} _ _ [] []).2.2

end

end WidgetCompiler
