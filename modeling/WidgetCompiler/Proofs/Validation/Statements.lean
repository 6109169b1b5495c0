import WidgetCompiler.Proofs.Render.Outline
import WidgetCompiler.Proofs.Render.PlanValues
import WidgetCompiler.Proofs.Validation.Elements
import WidgetCompiler.Proofs.Validation.Turns

/-!
# The statements of a plan

A plan is written in two ways: its bindings as lines of code, and what its parts ask for as
statements between markup.  Both are pieces of code that no check minds (`piece_binding`,
`printing_of_mem_callsOf`), provided that names are those of locals, that settings are looked up
under identifiers, and that what stands in for a missing value can stand in a literal.

Two places in them depend on what stands before: a setting must not be printed as it is, and a
bracket must not open the list of the style sheet's control.
-/

namespace WidgetCompiler.Validation

open Text Markup Render

/-! ## Names of locals -/

/-- A word with an underscore in it. -/
structure IsLocal (name : Text) : Prop where
  word : IsWord name
  underscore : '_' ∈ name

section

variable {s t u v name id key : Text}

namespace IsLocal

theorem ne_nil (h : IsLocal name) : name ≠ [] := List.ne_nil_of_mem h.underscore

/-- No such name begins like the settings do. -/
theorem append_ne (h : IsLocal name) (rest s : Text) : name ++ rest ≠ ("settings[" : Text) ++ s := by
  intro heq
  rcases List.append_eq_append_iff.1 heq with ⟨r, hmark, -⟩ | ⟨r, hname, -⟩
  · have : '_' ∈ ("settings[" : Text) := by
      rw [hmark]
      exact List.mem_append_left r h.underscore
    exact absurd this (by decide)
  · have : '[' ∈ name := by
      rw [hname]
      exact List.mem_append_left r (by decide)
    exact absurd (h.word _ this) (by decide)

/-- A word with something in it does not end like the style sheet's control. -/
theorem endsApart (h : IsLocal name) : EndsApart ("'custom_css'," : Text) name := by
  obtain ⟨front, c, rfl⟩ := List.eq_nil_or_concat' name |>.resolve_left h.ne_nil
  have hc : (c.isAlphanum || c == '_') = true := h.word c (by simp)
  refine endsApart_of_concat ?_ (fun d hd => ?_) (by decide)
  · rcases Bool.or_eq_true_iff.1 hc with hc | hc
    · exact isBlank_of_isAlphanum hc
    · rw [eq_of_beq hc]
      decide
  · obtain rfl : ',' = d := by simpa using hd
    rintro rfl
    exact absurd hc (by decide)

end IsLocal

theorem isLocal_localName {stem : Text} (h : stem ∈ stems) (index : Nat) :
    IsLocal (localName stem index) where
  word := by
    have hstem : ∀ stem ∈ stems, IsWord stem := by decide
    have hline : IsWord ['_'] := by decide
    exact (hstem stem h).append (hline.append (isWord_decimal index))
  underscore := by simp [localName]

/-! ## Values -/

/-- A local. -/
theorem piece_variable (h : IsLocal name) : Piece ('$' :: name) where
  places := by
    refine Along.cons (fun front rest => ?_) ((piece_of_isWord h.word).places.along _)
    refine inCode_cons (by decide) (by decide) (fun e => absurd e (by decide))
      (fun e => absurd e (by decide)) (fun _ s hs => ?_) fun e => absurd e (by decide)
    exact absurd hs (h.append_ne rest s)
  crosses := by
    have hdollar : Crosses ['$'] := crosses_of_isPlainInCode rfl
    exact hdollar.append (piece_of_isWord h.word).crosses

/-- A bracket behind a text that does not end like the style sheet's control. -/
theorem piece_bracket (hs : Piece s) (hends : EndsApart ("'custom_css'," : Text) s)
    (ht : Piece t) : Piece (s ++ '[' :: t) where
  places := by
    refine Along.append hs.places (Along.cons (fun front rest => inCode_bracket fun hm => ?_)
      (ht.places.along _))
    exact absurd hm (by simpa using hends.not_suffix front)
  crosses := by
    have hbracket : Crosses ['['] := crosses_of_isPlainInCode rfl
    exact hs.crosses.append (hbracket.append ht.crosses)

/-- An entry of the record that a local holds. -/
theorem piece_entryOf (hs : Piece s) (hname : IsLocal name) (ht : Piece t) :
    Piece (s ++ ('$' :: name ++ '[' :: t)) := by
  have hends : EndsApart ("'custom_css'," : Text) (s ++ '$' :: name) := by
    have := hname.endsApart.behind (s ++ ['$'])
    rwa [List.append_assoc] at this
  have := piece_bracket (hs.append (piece_variable hname)) hends ht
  rwa [List.append_assoc] at this

/-- A setting behind a text that does not print it. -/
theorem piece_setting (hs : Piece s) (hends : EndsApart ("echo" : Text) s)
    (hid : isIdentifier id = true) : Piece (s ++ (Value.setting id).toPhp) := by
  have hword : IsWord id := ((isIdentifier_iff id).1 hid).2
  have hclose : Piece ("]" : Text) := piece_of_isTame (by decide) (by decide)
  have hquoted : Piece (Php.singleQuoted id ++ ("]" : Text)) :=
    (piece_singleQuoted (quotable_of_isPlain hword.isPlain)).append hclose
  have hshape : Php.singleQuoted id = '\'' :: (id ++ ['\'']) := by
    rw [Php.singleQuoted, escapeSingle_of_isWord hword]
  have hname : Along InCode ['$'] ("settings[" : Text) :=
    @along_of_isTame ['$'] _ (by decide)
  have hplaces : Along InCode s
      ('$' :: (("settings[" : Text) ++ (Php.singleQuoted id ++ ("]" : Text)))) := by
    refine Along.cons (fun front rest => ?_) ?_
    · refine inCode_cons (by decide) (by decide) (fun e => absurd e (by decide))
        (fun e => absurd e (by decide)) (fun _ r hr => ?_) fun e => absurd e (by decide)
      refine ⟨id, rest, hid, ?_, fun hm => absurd hm (hends.not_suffix front)⟩
      rw [hshape] at hr
      simpa using hr.symm
    · exact Along.append (hname.behind s) (hquoted.places.along _)
  have hcrosses : Crosses ('$' :: ("settings[" : Text)) := crosses_of_isPlainInCode (by decide)
  have hshape' : (Value.setting id).toPhp
      = '$' :: (("settings[" : Text) ++ (Php.singleQuoted id ++ ("]" : Text))) := by
    have hmark : ("$settings[" : Text) = '$' :: "settings[" := by decide
    change ("$settings[" : Text) ++ Php.singleQuoted id ++ ("]" : Text) = _
    rw [List.append_assoc, hmark, List.cons_append]
  rw [hshape']
  exact ⟨Along.append hs.places hplaces, hs.crosses.append (hcrosses.append hquoted.crosses)⟩

/-! ## Statements -/

/-- What is asked of the values that are printed. -/
abbrev SoundValue (value : Value) : Prop := value.Drawn IsLocal (isIdentifier · = true)

theorem piece_echoStatement {value : Value} (h : SoundValue value) (escape : Escape) :
    Piece (echoStatement value escape) := by
  have hfront : Piece (("echo " : Text) ++ escape.function ++ ("(" : Text)) := by
    cases escape <;> exact piece_of_isTame (by decide) (by decide)
  have hends : EndsApart ("echo" : Text) (("echo " : Text) ++ escape.function ++ ("(" : Text)) :=
    EndsApart.behind (by decide) _
  have hclose : Piece (");" : Text) := piece_of_isTame (by decide) (by decide)
  cases value with
  | setting id => exact (piece_setting hfront hends h).append hclose
  | var name => exact (hfront.append (piece_variable h)).append hclose
  | url name =>
    have hkey : Piece ("'url']" : Text) := piece_of_isTame (by decide) (by decide)
    exact (piece_entryOf hfront h hkey).append hclose

theorem piece_linkStatements (h : IsLocal name) : Piece (linkStatements name) := by
  have hfront : Piece ("echo !empty(" : Text) := piece_of_isTame (by decide) (by decide)
  have hexternal : Piece ("'is_external']) ? ' target=\"_blank\"' : ''; echo !empty(" : Text) :=
    piece_of_isTame (by decide) (by decide)
  have hfollow : Piece ("'nofollow']) ? ' rel=\"nofollow\"' : '';" : Text) :=
    piece_of_isTame (by decide) (by decide)
  have hasked : ("echo !empty($" : Text) = "echo !empty(" ++ ['$'] := by decide
  have hagain : ("['is_external']) ? ' target=\"_blank\"' : ''; echo !empty($" : Text)
      = '[' :: (("'is_external']) ? ' target=\"_blank\"' : ''; echo !empty(" : Text) ++ ['$']) := by
    decide
  have hlast : ("['nofollow']) ? ' rel=\"nofollow\"' : '';" : Text)
      = '[' :: "'nofollow']) ? ' rel=\"nofollow\"' : '';" := by decide
  have := piece_entryOf (piece_entryOf hfront h hexternal) h hfollow
  change Piece (("echo !empty($" : Text) ++ name
    ++ ("['is_external']) ? ' target=\"_blank\"' : ''; echo !empty($" : Text) ++ name
    ++ ("['nofollow']) ? ' rel=\"nofollow\"' : '';" : Text))
  rw [hasked, hagain, hlast]
  simpa only [List.append_assoc, List.cons_append, List.nil_append] using this

theorem piece_ifStatement (h : IsLocal name) : Piece ("if ($" ++ name ++ ") :") := by
  have hfront : Piece ("if (" : Text) := piece_of_isTame (by decide) (by decide)
  have hclose : Piece (") :" : Text) := piece_of_isTame (by decide) (by decide)
  have hasked : ("if ($" : Text) = "if (" ++ ['$'] := by decide
  have := (hfront.append (piece_variable h)).append hclose
  rw [hasked]
  simpa only [List.append_assoc, List.cons_append, List.nil_append] using this

/-- Whatever stands between the markup of parts may follow a delimiter. -/
theorem printing_of_mem_callsOf {ps : List Part} (h : ∀ value ∈ valuesIn ps, SoundValue value)
    {code : Text} (hc : .inlineCode code ∈ callsOf ps) : Printing code := by
  cases codeOf_of_mem_callsOf hc with
  | echo hvalue escape =>
    exact ⟨piece_echoStatement (h _ hvalue) escape, "echo", by decide, ' ', _, rfl, by decide⟩
  | @link name hvar =>
    have hname : IsLocal name := h (.var name) hvar
    exact ⟨piece_linkStatements hname, "echo", by decide, ' ', _, rfl, by decide⟩
  | @ifSet name hvar =>
    have hname : IsLocal name := h (.var name) hvar
    exact ⟨piece_ifStatement hname, "if", by decide, ' ', _, rfl, by decide⟩
  | endIf =>
    exact ⟨piece_of_isTame (by decide) (by decide), "endif", by decide, ';', [], rfl, by decide⟩

/-! ## Bindings -/

/-- What is asked of bindings. -/
abbrev SoundBinding (b : Binding) : Prop := b.Drawn IsLocal (isIdentifier · = true) Quotable

/-- The value of a binding, behind its sign. -/
theorem piece_source {source : Render.Source}
    (h : source.Drawn (isIdentifier · = true) Quotable) : Piece ((" = " : Text) ++ source.toPhp) := by
  have hassign : Piece (" = " : Text) := piece_of_isTame (by decide) (by decide)
  have hempty : Piece ("!empty(" : Text) := piece_of_isTame (by decide) (by decide)
  have helse : Piece (" : " : Text) := piece_of_isTame (by decide) (by decide)
  have hasked {id : Text} (hid : isIdentifier id = true) :
      Piece (("!empty(" : Text) ++ (Value.setting id).toPhp) :=
    piece_setting hempty (by decide) hid
  -- the value if it is there, and before that the question whether its address is
  have hlinked {id : Text} (hid : isIdentifier id = true) :
      Piece (("!empty(" : Text) ++ (Value.setting id).toPhp ++ ("['url']) ? " : Text)
        ++ (Value.setting id).toPhp) := by
    have hlist : EndsApart ("'custom_css'," : Text)
        (("!empty(" : Text) ++ (Value.setting id).toPhp) :=
      (EndsApart.behind (by decide : EndsApart ("'custom_css'," : Text) "]") _).behind _
    have hurl : Piece ("'url']) ? " : Text) := piece_of_isTame (by decide) (by decide)
    have hends : EndsApart ("echo" : Text) ("['url']) ? " : Text) := by decide
    exact piece_setting (piece_bracket (hasked hid) hlist hurl) (hends.behind _) hid
  cases source with
  | setting id => exact piece_setting hassign (by decide) h
  | settingOr id fallback =>
    have hthen : Piece (") ? " : Text) := piece_of_isTame (by decide) (by decide)
    have hends : EndsApart ("echo" : Text) (") ? " : Text) := by decide
    have htaken := piece_setting ((hasked h.1).append hthen) (hends.behind _) h.1
    exact hassign.append ((htaken.append helse).append (piece_singleQuoted h.2))
  | linkOrNull id =>
    have hnull : Piece (" : null" : Text) := piece_of_isTame (by decide) (by decide)
    exact hassign.append ((hlinked h).append hnull)
  | urlOr id fallback =>
    have hrecord : Piece (" : ['url' => " : Text) :=
      piece_of_isTame (by decide) (by decide)
    have hclose : Piece ("]" : Text) := piece_of_isTame (by decide) (by decide)
    exact hassign.append
      ((((hlinked h.1).append hrecord).append (piece_singleQuoted h.2)).append hclose)

theorem piece_binding {b : Binding} (h : SoundBinding b) : Piece b.toPhp := by
  have hend : Piece (";" : Text) := piece_of_isTame (by decide) (by decide)
  have := ((piece_variable h.1).append (piece_source h.2)).append hend
  rwa [← List.append_assoc] at this

/-! ## What elements supply -/

/-- With templates that can be printed, elements supply what they are made of. -/
theorem supplies_element {q : Char → Bool} (hhash : q '#' = true) {b : BoundElement}
    (hb : b.element.MadeOf q) (ht : PrintableTemplate b.template) :
    Supplies IsLocal (isIdentifier · = true) (MadeOf q) b where
  locals _ hstem := isLocal_localName hstem b.index
  control {field id} hid := by
    have hfield : b.template.hasField field = true ∧ b.controlId field = id := by
      simpa [BoundElement.control?] using hid
    obtain ⟨f, hf, rfl⟩ := Template.exists_of_hasField hfield.1
    obtain ⟨tab, htab, hf⟩ := List.mem_flatMap.1 hf
    rw [← hfield.2]
    exact isIdentifier_controlId _ _ (ht.fields tab htab f hf).id
  tag := hb.tag
  attributes ha := hb.attribute? ha
  empty := MadeOf.nil
  hash := MadeOf.cons hhash MadeOf.nil

/-- So do the elements of a forest that is bound to the built-in templates. -/
theorem supplies_bindForest {q : Char → Bool} (hhash : q '#' = true) {forest : List Element}
    (hforest : ∀ e ∈ Element.preorderAll forest, e.MadeOf q) :
    ∀ b ∈ bindForest Catalog.builtin forest,
      Supplies IsLocal (isIdentifier · = true) (MadeOf q) b := by
  intro b hb
  obtain ⟨helement, htemplate⟩ := printable_of_mem_bindForest hb
  exact supplies_element hhash (hforest _ helement) htemplate

end

end WidgetCompiler.Validation
