import WidgetCompiler.Control.Printer
import WidgetCompiler.Proofs.Control.Defaults
import WidgetCompiler.Proofs.Text.Replace
import WidgetCompiler.Proofs.Validation.Code

/-!
# Printed sections

The calls that register sections are lines of pieces.  Only the list that a call is given opens on
a line of its own, and there it matters what stands on the line before: the id of a section or of a
control, which is never that of the control for the style sheet.

What is printed comes from templates and from elements.  What the built-in templates give can stand
in literals (`printable_builtin`), and so can what plain elements give.
-/

namespace WidgetCompiler.Validation

open Text Markup

section

variable {s t id domain : Text} {ls ls' : List Text}

/-! ## Lines -/

theorem quiet_append_lines (h : Quiet (joinLines ls)) (h' : Quiet (joinLines ls')) :
    Quiet (joinLines (ls ++ ls')) := by
  rw [joinLines_append]
  exact h.append h'

theorem quiet_of_pieces (h : ∀ l ∈ ls, Piece l) : Quiet (joinLines ls) :=
  Quiet.joinLines fun l hl => (h l hl).quiet

theorem piece_indentation (depth : Nat) :
    Piece (callIndent ++ (List.replicate depth ("    " : Text)).flatten) := by
  refine Piece.append (piece_of_isTame rfl rfl) ?_
  induction depth with
  | zero => exact piece_of_isTame rfl rfl
  | succ depth ih =>
    rw [List.replicate_succ, List.flatten_cons]
    exact Piece.append (piece_of_isTame rfl rfl) ih

theorem piece_callLine (depth : Nat) (h : Piece t) : Piece (callLine depth t) :=
  (piece_indentation depth).append h

theorem piece_localized (hdomain : Quotable domain) (h : Piece (Php.literal t)) :
    Piece (localized domain t) := by
  have hcall : Piece "esc_html__(" := piece_of_isTame (by decide) (by decide)
  have hcomma : Piece ", " := piece_of_isTame (by decide) (by decide)
  have hend : Piece ")" := piece_of_isTame (by decide) (by decide)
  exact (((hcall.append h).append hcomma).append (piece_singleQuoted hdomain)).append hend

theorem escapeSingle_of_isWord (h : IsWord t) : Php.escapeSingle t = t := by
  refine Php.escapeSingle_of_not_mem (fun hm => ?_) fun hm => ?_
  · exact absurd (h _ hm) (by decide)
  · exact absurd (h _ hm) (by decide)

/-- The key of an entry with its arrow. -/
theorem piece_key (h : IsWord t) : Piece ('\'' :: t ++ ("' => " : Text)) := by
  have hescape : Php.escapeSingle t = t := escapeSingle_of_isWord h
  have harrow : Piece " => " := piece_of_isTame (by decide) (by decide)
  have := (piece_singleQuoted (quotable_of_isPlain h.isPlain)).append harrow
  rw [Php.singleQuoted, hescape] at this
  simpa using this

/-! ## Lists in calls -/

/-- A word in quotes ends another text only if that ends in the same word in quotes. -/
theorem not_suffix_quoted {w : Text} (hw : '\'' ∉ w) (hid : '\'' ∉ id) (hne : w ≠ id)
    (front : Text) :
    ¬ ('\'' :: (w ++ ['\'', ','])) <:+ front ++ '\'' :: (id ++ ['\'', ',']) := by
  rintro ⟨r, hr⟩
  have hcut : (r ++ '\'' :: w) ++ ['\'', ','] = (front ++ '\'' :: id) ++ ['\'', ','] := by
    simpa using hr
  have hreverse : w.reverse ++ '\'' :: r.reverse = id.reverse ++ '\'' :: front.reverse := by
    simpa using congrArg List.reverse (List.append_cancel_right hcut)
  have hquote {u : Text} (hu : '\'' ∉ u) : ∀ c ∈ u.reverse, (c != '\'') = true := by
    intro c hc
    refine bne_iff_ne.2 ?_
    rintro rfl
    exact hu (List.mem_reverse.1 hc)
  have := run_inj (p := (· != '\'')) (hquote hw) (hquote hid) (by simp) (by simp) hreverse
  exact hne (List.reverse_injective this.1)

/-- The list of a call stands on the line behind its id, and it is no list of the style sheet's
control. -/
theorem opensList_of_isWord (hid : IsWord id) (hne : id ≠ ("custom_css" : Text)) {gap : Text}
    (hgap : allBlank gap = true) (front right : Text) :
    OpensList (front ++ Php.singleQuoted id ++ [','] ++ gap) right := by
  intro hends
  have hquoted : Php.singleQuoted id ++ [','] = '\'' :: (id ++ ['\'', ',']) := by
    rw [Php.singleQuoted, escapeSingle_of_isWord hid]
    simp
  rw [trimEnd_append_of_allBlank hgap, trimEnd_append_singleton (by decide), List.append_assoc,
    hquoted] at hends
  have hquote : '\'' ∉ id := fun hm => absurd (hid _ hm) (by decide)
  exact absurd hends (not_suffix_quoted (w := "custom_css") (by decide) hquote (Ne.symm hne) front)

/-- A call with an id has its list on the next line. -/
theorem quiet_opening (hid : IsWord id) (hne : id ≠ ("custom_css" : Text)) :
    Quiet (joinLines [callLine 1 (Php.singleQuoted id ++ ","), callLine 1 "["]) := by
  have hcomma : Piece [','] := piece_of_isTame rfl rfl
  have hfirst : Piece (callLine 1 (Php.singleQuoted id ++ ",")) :=
    piece_callLine 1 ((piece_singleQuoted (quotable_of_isPlain hid.isPlain)).append hcomma)
  have hindent : Piece (callLine 1 []) := piece_callLine 1 (piece_of_isTame rfl rfl)
  have hbracket : Crosses ['['] := crosses_of_isPlainInCode rfl
  have hbefore : Quiet (callLine 1 (Php.singleQuoted id ++ ",") ++ ['\n'] ++ callLine 1 []) :=
    hfirst.quiet.line.append hindent.quiet
  have hlines : joinLines [callLine 1 (Php.singleQuoted id ++ ","), callLine 1 "["]
      = callLine 1 (Php.singleQuoted id ++ ",") ++ ['\n'] ++ callLine 1 [] ++ '[' :: ['\n'] := by
    simp [joinLines, callLine]
  rw [hlines]
  refine ⟨?_, fun h => ?_⟩
  · refine Along.append hbefore.places (Along.cons (fun front rest => inCode_bracket ?_) ?_)
    · have := opensList_of_isWord hid hne
        (show allBlank (['\n'] ++ callLine 1 []) = true from rfl) (front ++ callLine 1 []) ('\n' :: rest)
      simpa [callLine] using this
    · exact Quiet.newline.places.along _
  · rw [List.append_assoc]
    exact hbefore.passes (hbracket.closed (Closed.newline rfl h))

/-! ## Controls -/

/-- What is printed of a control can stand in its call: the id is a word of its own, and all else
can stand in literals. -/
structure PrintableControl (c : Control) : Prop where
  id : IsWord c.id
  ne : c.id ≠ ("custom_css" : Text)
  label : Quotable c.label
  default : ∀ v ∈ c.default, ∃ t, Quotable t ∧ (v = .text t ∨ v = .url t)
  options : ∀ o ∈ c.options, Quotable o
  selectors : ∀ entry ∈ c.selectors, Quotable entry.1 ∧ Quotable entry.2
  language : c.language = none
  description : c.description = none

theorem piece_entry {key value : Text} (hkey : IsWord key) (hvalue : Piece value) :
    Piece (callLine 2 ('\'' :: key ++ "' => " ++ value ++ ",")) := by
  have hcomma : Piece "," := piece_of_isTame rfl rfl
  exact piece_callLine 2 (((piece_key hkey).append hvalue).append hcomma)

/-- A text in a list under a key that is a text. -/
theorem piece_pair {key value : Text} (hkey : Quotable key) (hvalue : Quotable value) :
    Piece (callLine 3 (Php.literal key ++ " => " ++ Php.literal value ++ ",")) := by
  have harrow : Piece " => " := piece_of_isTame (by decide) (by decide)
  have hcomma : Piece "," := piece_of_isTame rfl rfl
  exact piece_callLine 3 ((((piece_literal hkey).append harrow).append
    (piece_literal hvalue)).append hcomma)

/-- Entries between a line that opens their list and one that closes it. -/
theorem quiet_list (hopen : Piece t) (h : ∀ l ∈ ls, Piece l) :
    Quiet (joinLines (callLine 2 t :: ls ++ [callLine 2 "],"])) := by
  refine quiet_of_pieces fun l hl => ?_
  have hclose : Piece "]," := piece_of_isTame (by decide) (by decide)
  rcases List.mem_append.1 hl with hl | hl
  · rcases List.mem_cons.1 hl with rfl | hl
    · exact piece_callLine 2 hopen
    · exact h l hl
  · rw [List.mem_singleton.1 hl]
    exact piece_callLine 2 hclose

theorem piece_constant (kind : FieldKind) : Piece (managerConstant kind.constant) := by
  have hkinds : ∀ kind ∈ FieldKind.all, isTame [] (managerConstant kind.constant) = true
      ∧ leadsToCode none (managerConstant kind.constant) = true := by decide
  have hmem : kind ∈ FieldKind.all := by cases kind <;> decide
  exact piece_of_isTame (hkinds kind hmem).1 (hkinds kind hmem).2

/-- A value in a list of its own, whose bracket is told by the key before it. -/
theorem piece_record {key left value right stop : Text} (hopen : Piece (key ++ left))
    (hvalue : Piece value) (hclose : Piece (right ++ stop)) :
    Piece (callLine 2 (key ++ (left ++ value ++ right) ++ stop)) := by
  have := piece_callLine 2 ((hopen.append hvalue).append hclose)
  simpa using this

theorem piece_default {v : DefaultValue} (h : ∃ t, Quotable t ∧ (v = .text t ∨ v = .url t)) :
    Piece (callLine 2 ('\'' :: "default" ++ "' => " ++ v.toPhp ++ ",")) := by
  obtain ⟨t, ht, rfl | rfl⟩ := h
  · exact piece_entry (by decide) (piece_literal ht)
  · have hkey : ('\'' :: "default" ++ "' => " : Text) ++ ("['url' => " : Text)
        = "'default' => ['url' => " := by decide
    have hopen : Piece (('\'' :: "default" ++ "' => " : Text) ++ ("['url' => " : Text)) := by
      rw [hkey]
      exact piece_of_isTame (by decide) (by decide)
    have hclose : Piece (("]" : Text) ++ ("," : Text)) := piece_of_isTame (by decide) (by decide)
    exact piece_record hopen (piece_literal ht) hclose

theorem quiet_control (hdomain : Quotable domain) {c : Control} (h : PrintableControl c) :
    Quiet (joinLines (c.phpLines domain)) := by
  have hcall : Quiet (joinLines [callLine 0 "$this->add_control("]) := by
    have hadd : Piece "$this->add_control(" := piece_of_isTame (by decide) (by decide)
    exact quiet_of_pieces (by simpa using piece_callLine 0 hadd)
  have hentries : Quiet (joinLines [
      callLine 2 ('\'' :: "label" ++ "' => " ++ localized domain c.label ++ ","),
      callLine 2 ('\'' :: "type" ++ "' => " ++ managerConstant c.kind.constant ++ ",")]) := by
    refine quiet_of_pieces fun l hl => ?_
    rcases List.mem_cons.1 hl with rfl | hl
    · exact piece_entry (by decide) (piece_localized hdomain (piece_literal h.label))
    · rw [List.mem_singleton.1 hl]
      exact piece_entry (by decide) (piece_constant c.kind)
  have hhead : Quiet (joinLines [callLine 0 "$this->add_control(",
      callLine 1 (Php.singleQuoted c.id ++ ","), callLine 1 "[",
      callLine 2 ('\'' :: "label" ++ "' => " ++ localized domain c.label ++ ","),
      callLine 2 ('\'' :: "type" ++ "' => " ++ managerConstant c.kind.constant ++ ",")]) :=
    quiet_append_lines hcall (quiet_append_lines (quiet_opening h.id h.ne) hentries)
  have hoptions : Quiet (joinLines (if c.options.isEmpty then []
      else callLine 2 "'options' => [" :: c.options.map (fun option =>
        callLine 3 (Php.literal option ++ " => " ++ Php.literal option ++ ","))
          ++ [callLine 2 "],"])) := by
    split
    · exact Quiet.nil
    · refine quiet_list (piece_of_isTame (by decide) (by decide)) fun l hl => ?_
      obtain ⟨option, hoption, rfl⟩ := List.mem_map.1 hl
      exact piece_pair (h.options option hoption) (h.options option hoption)
  have hunits : Quiet (joinLines (if c.kind.hasUnits
      then [callLine 2 "'size_units' => ['px', 'em', 'rem', '%'],"] else [])) := by
    have hline : Piece "'size_units' => ['px', 'em', 'rem', '%']," :=
      piece_of_isTame (by decide) (by decide)
    split
    · exact quiet_of_pieces (by simpa using piece_callLine 2 hline)
    · exact Quiet.nil
  have hdynamic : Quiet (joinLines (if c.dynamic
      then [callLine 2 "'dynamic' => ['active' => true],"] else [])) := by
    have hline : Piece "'dynamic' => ['active' => true]," :=
      piece_of_isTame (by decide) (by decide)
    split
    · exact quiet_of_pieces (by simpa using piece_callLine 2 hline)
    · exact Quiet.nil
  have hend : Quiet (joinLines [callLine 1 "]", callLine 0 ");"]) := by
    have hbracket : Piece "]" := piece_of_isTame (by decide) (by decide)
    have hparenthesis : Piece ");" := piece_of_isTame (by decide) (by decide)
    exact quiet_of_pieces
      (by simpa using ⟨piece_callLine 1 hbracket, piece_callLine 0 hparenthesis⟩)
  rw [Control.phpLines, h.language, h.description]
  have hnone : Quiet (joinLines []) := Quiet.nil
  refine quiet_append_lines (quiet_append_lines (quiet_append_lines (quiet_append_lines
    (quiet_append_lines (quiet_append_lines (quiet_append_lines (quiet_append_lines hhead hnone)
      ?default) hoptions) hunits) ?selectors) hnone) hdynamic) hend
  case default =>
    cases hv : c.default with
    | none => exact Quiet.nil
    | some v => exact quiet_of_pieces (by simpa using piece_default (h.default v hv))
  case selectors =>
    split
    · exact Quiet.nil
    · refine quiet_list (piece_of_isTame (by decide) (by decide)) fun l hl => ?_
      obtain ⟨entry, hentry, rfl⟩ := List.mem_map.1 hl
      exact piece_pair (h.selectors entry hentry).1 (h.selectors entry hentry).2

/-! ## Sections -/

/-- A literal with a parenthesis in it, which does not look like a call of the method. -/
theorem piece_literal_parenthesis {a b : Text} (ha : Quotable a) (hb : Quotable b)
    (hends : EndsApart "render" (Php.escapeSingle a)) : Piece (Php.literal (a ++ '(' :: b)) := by
  have hmem {c : Char} (hc : c ∈ a ++ '(' :: b) : c ∈ a ∨ c = '(' ∨ c ∈ b := by simpa using hc
  have hnot {c : Char} (hc : c ∈ codeMarks ++ ['\n']) (hne : c ≠ '(') : c ∉ a ++ '(' :: b := by
    intro hm
    rcases hmem hm with hm | hm | hm
    · exact ha.not_mem hc hm
    · exact hne hm
    · exact hb.not_mem hc hm
  have hescape : Php.singleQuoted (a ++ '(' :: b)
      = ('\'' :: Php.escapeSingle a) ++ '(' :: (Php.escapeSingle b ++ ['\'']) := by
    simp [Php.singleQuoted, Php.escapeSingle, Php.escapeSingleChar]
  have hquote : Quotable ['\''] := by decide
  have hbefore : Everywhere InCode ('\'' :: Php.escapeSingle a) :=
    (hquote.append ha.escapeSingle).everywhere
  have hbehind : Everywhere InCode (Php.escapeSingle b ++ ['\'']) :=
    (hb.escapeSingle.append hquote).everywhere
  rw [literal_eq (hnot (by decide) (by decide)) (hnot (by decide) (by decide))]
  refine ⟨?_, crosses_singleQuoted (fun c hc => ?_) (hnot (by decide) (by decide))⟩
  · rw [hescape]
    refine Along.append hbefore (Along.cons (fun front rest => inCode_parenthesis ?_)
      (hbehind.along _))
    have := hends.not_suffix (front ++ ['\''])
    simpa using this
  · rcases hmem hc with hc | rfl | hc
    · exact ha.isAscii c hc
    · decide
    · exact hb.isAscii c hc

theorem piece_tab (tab : Tab) : Piece (managerConstant tab.constant) := by
  have htabs : ∀ tab ∈ Tab.all, isTame [] (managerConstant tab.constant) = true
      ∧ leadsToCode none (managerConstant tab.constant) = true := by decide
  have hmem : tab ∈ Tab.all := by cases tab <;> decide
  exact piece_of_isTame (htabs tab hmem).1 (htabs tab hmem).2

/-- A section is printed quietly if its controls are. -/
theorem quiet_section (hdomain : Quotable domain) {s : Section} (hid : IsWord s.id)
    (hne : s.id ≠ ("custom_css" : Text)) (hlabel : Piece (Php.literal s.label))
    (hcontrols : ∀ c ∈ s.controls, PrintableControl c) :
    Quiet (joinLines (s.phpLines domain)) := by
  have hstart : Quiet (joinLines [callLine 0 "$this->start_controls_section("]) := by
    have hcall : Piece "$this->start_controls_section(" := piece_of_isTame (by decide) (by decide)
    exact quiet_of_pieces (by simpa using piece_callLine 0 hcall)
  have hentries : Quiet (joinLines [callLine 2 ("'label' => " ++ localized domain s.label ++ ","),
      callLine 2 ("'tab' => " ++ managerConstant s.tab.constant ++ ","), callLine 1 "]",
      callLine 0 ");"]) := by
    have hkey : Piece "'label' => " := piece_of_isTame (by decide) (by decide)
    have hkey' : Piece "'tab' => " := piece_of_isTame (by decide) (by decide)
    have hcomma : Piece "," := piece_of_isTame rfl rfl
    have hbracket : Piece "]" := piece_of_isTame (by decide) (by decide)
    have hparenthesis : Piece ");" := piece_of_isTame (by decide) (by decide)
    refine quiet_of_pieces fun l hl => ?_
    simp only [List.mem_cons, List.not_mem_nil, or_false] at hl
    rcases hl with rfl | rfl | rfl | rfl
    · exact piece_callLine 2 ((hkey.append (piece_localized hdomain hlabel)).append hcomma)
    · exact piece_callLine 2 ((hkey'.append (piece_tab s.tab)).append hcomma)
    · exact piece_callLine 1 hbracket
    · exact piece_callLine 0 hparenthesis
  have hbody : Quiet (joinLines (s.controls.flatMap fun c => [] :: c.phpLines domain)) := by
    have hempty : Quiet (joinLines [[]]) := Quiet.newline
    generalize s.controls = controls at hcontrols
    induction controls with
    | nil => exact Quiet.nil
    | cons c cs ih =>
      rw [List.flatMap_cons]
      refine quiet_append_lines ?_ (ih fun c' hc' => hcontrols c' (by simp [hc']))
      exact quiet_append_lines hempty (quiet_control hdomain (hcontrols c (by simp)))
  have hend : Quiet (joinLines [[], callLine 0 "$this->end_controls_section();"]) := by
    have hcall : Piece "$this->end_controls_section();" := piece_of_isTame (by decide) (by decide)
    exact quiet_append_lines (show Quiet (joinLines [[]]) from Quiet.newline)
      (quiet_of_pieces (by simpa using piece_callLine 0 hcall))
  exact quiet_append_lines (quiet_append_lines (quiet_append_lines hstart
    (quiet_append_lines (quiet_opening hid hne) hentries)) hbody) hend

/-- Sections are printed quietly if each of them is. -/
theorem quiet_printSections {sections : List Section}
    (h : ∀ s ∈ sections, Quiet (joinLines (s.phpLines domain))) :
    Quiet (printSections domain sections) := by
  rw [printSections]
  fun_induction Section.allPhpLines domain sections with
  | case1 => exact Quiet.nil
  | case2 s => exact h s (by simp)
  | case3 s t ss ih =>
    refine quiet_append_lines (h s (by simp)) ?_
    exact quiet_append_lines (show Quiet (joinLines [[]]) from Quiet.newline) (ih fun u hu => h u (by simp [hu]))

end

end WidgetCompiler.Validation
