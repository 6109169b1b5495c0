import WidgetCompiler.Proofs.Control.Characters
import WidgetCompiler.Proofs.Validation.Sections
import WidgetCompiler.Widget.Source

/-!
# The sections of plain elements

What is printed of a control comes from a field of a template and from an element.  The fields of
the built-in templates can be printed (`printable_builtin`), which is checked template by template,
and so can the values of plain elements; so all sections of a widget are printed quietly
(`quiet_sections`).
-/

namespace WidgetCompiler.Validation

open Text Markup

/-! ## Templates -/

/-- What is printed of a field can stand in its control's call. -/
@[mk_iff]
structure PrintableField (f : Field) : Prop where
  id : IsWord f.id
  label : Quotable f.label
  default : ∀ v ∈ f.default, Quotable v
  options : ∀ options ∈ f.options, ∀ o ∈ options, Quotable o
  selector : ∀ s ∈ f.selector, Quotable s
  property : ∀ p ∈ f.property, Quotable p

instance (f : Field) : Decidable (PrintableField f) := decidable_of_iff' _ (printableField_iff f)

/-- What a section's label says of its tab, up to the parenthesis. -/
def tabWords : Tab → Text
  | .content => " "
  | .style => " Style "
  | .advanced => " Advanced "

/-- What is printed of a template can stand in its sections' calls, and its label does not name the
method that shows the widget. -/
@[mk_iff]
structure PrintableTemplate (t : Template) : Prop where
  label : ∀ tab ∈ Tab.all, Quotable (t.displayLabel ++ tabWords tab)
    ∧ EndsApart "render" (Php.escapeSingle (t.displayLabel ++ tabWords tab))
  fields : ∀ tab ∈ Tab.all, ∀ f ∈ t.fields tab, PrintableField f

instance (t : Template) : Decidable (PrintableTemplate t) :=
  decidable_of_iff' _ (printableTemplate_iff t)

theorem printable_builtin (tag : Text) : PrintableTemplate (Catalog.builtin.resolve tag) :=
  Catalog.of_keys (by decide) (by decide) (by decide +kernel) tag

/-- What the built-in catalog binds are elements of the forest, with templates that can be printed. -/
theorem printable_of_mem_bindForest {forest : List Element} {b : BoundElement}
    (hb : b ∈ bindForest Catalog.builtin forest) :
    b.element ∈ Element.preorderAll forest ∧ PrintableTemplate b.template := by
  constructor
  · rw [← map_element_bindFrom Catalog.builtin 0 (Element.preorderAll forest)]
    exact List.mem_map_of_mem hb
  · rw [(of_mem_bindFrom hb).1]
    exact printable_builtin _

/-! ## Elements -/

/-- All that an element supplies is plain. -/
structure PlainElement (e : Element) : Prop where
  tag : IsPlain e.tag
  classes : ∀ c ∈ e.classes, IsPlain c
  id : ∀ i ∈ e.id, IsPlain i
  text : ∀ t ∈ e.text, IsPlain t
  attributes : ∀ a ∈ e.attributes, IsPlain a.2
  selector : IsPlain e.selector

section

variable {e : Element} {b : BoundElement} {f : Field}

/-- A plain element supplies what can stand in literals. -/
theorem PlainElement.madeOf (h : PlainElement e) : e.MadeOf isQuotable where
  tag := quotable_of_isPlain h.tag
  classes c hc := quotable_of_isPlain (h.classes c hc)
  id i hi := quotable_of_isPlain (h.id i hi)
  text t ht := quotable_of_isPlain (h.text t ht)
  attributes a ha := quotable_of_isPlain (h.attributes a ha)
  selector := quotable_of_isPlain h.selector

theorem holdsWords_isQuotable : HoldsWords isQuotable where
  word {c} h := quotable_of_isPlain (holdsWords_isPlainChar.of_isWord (t := [c]) (by simpa [IsWord] using h))
    c List.mem_cons_self
  space := by decide

/-! ## Ids -/

theorem controlId_ne (tag : Text) (index : Nat) (fieldId : Text) :
    controlId tag index fieldId ≠ ("custom_css" : Text) := by
  intro h
  have hdigits := digitFree_controlId tag index fieldId
  rw [h] at hdigits
  exact absurd hdigits (by decide)

/-! ## Controls and sections -/

theorem printable_ofField (hb : PlainElement b.element) (hf : PrintableField f) :
    PrintableControl (Control.ofField b (styleSelector b.element) f) := by
  have hmade : (Control.ofField b (styleSelector b.element) f).MadeOf isQuotable :=
    madeOf_ofField holdsWords_isQuotable (by decide) hb.madeOf
      ⟨hf.id, hf.label, hf.default, hf.options, hf.selector, hf.property⟩
  refine ⟨hmade.id, controlId_ne _ _ _, hmade.label, fun v hv => ?_, hmade.options,
    hmade.selectors, rfl, rfl⟩
  have htext := hmade.default v hv
  obtain ⟨value, -, rfl⟩ := Option.map_eq_some_iff.1 hv
  split at htext
  · next hurl => exact ⟨value, htext, .inr (if_pos hurl)⟩
  · next hurl => exact ⟨value, htext, .inl (if_neg hurl)⟩

theorem sectionLabel_eq (tab : Tab) (label selector : Text) :
    sectionLabel tab label selector = (label ++ tabWords tab) ++ '(' :: (selector ++ [')']) := by
  have split {kind words : Text} (h : kind = words ++ ['(']) :
      label ++ kind ++ selector ++ [')'] = (label ++ words) ++ '(' :: (selector ++ [')']) := by
    rw [h]
    simp
  cases tab with
  | content => exact split (by decide)
  | style => exact split (by decide)
  | advanced => exact split (by decide)

theorem quiet_tabSection {domain : Text} (hdomain : Quotable domain)
    (hb : PlainElement b.element) (ht : PrintableTemplate b.template) (tab : Tab) :
    Quiet (joinLines ((tabSection b tab).phpLines domain)) := by
  have hmem : tab ∈ Tab.all := by cases tab <;> decide
  obtain ⟨hlabel, hends⟩ := ht.label tab hmem
  refine quiet_section hdomain (isWord_tabSection b tab) ?_ ?_ fun c hc => ?_
  · intro h
    have hhead : (tabSection b tab).id.head? = some 's' := rfl
    rw [h] at hhead
    exact absurd hhead (by decide)
  · have hclose : Quotable [')'] := by decide
    have hselector := (quotable_of_isPlain hb.selector).append hclose
    have := piece_literal_parenthesis hlabel hselector hends
    rwa [← sectionLabel_eq] at this
  · obtain ⟨f, hf, rfl⟩ := List.mem_map.1 hc
    exact printable_ofField hb (ht.fields tab hmem f hf)

/-! ## The widget's own code -/

/-- The lines of the section for the widget's own code, up to where the default of its script stands. -/
def scriptFront : List Text :=
  ((customCodeSection [] []).phpLines ({} : Settings).textDomain).take 26

/-- The lines from there on. -/
def scriptBack : List Text :=
  ((customCodeSection [] []).phpLines ({} : Settings).textDomain).drop 26

theorem inCode_scriptFront : Everywhere InCode (joinLines scriptFront) :=
  @along_of_isTame [] _ (by decide +kernel)

theorem inCode_scriptBack : Everywhere InCode (joinLines scriptBack) :=
  @along_of_isTame [] _ (by decide +kernel)

/-- The section for the widget's own code, as long as there is none. -/
theorem quiet_customCodeSection :
    Quiet (joinLines ((customCodeSection [] []).phpLines ({} : Settings).textDomain)) where
  places := by
    rw [← List.take_append_drop 26 (Section.phpLines _ _), joinLines_append]
    exact inCode_scriptFront.append inCode_scriptBack
  passes {s} h := by
    have hlines : ∀ l ∈ (customCodeSection [] []).phpLines ({} : Settings).textDomain,
        leadsToCode none l = true := by decide +kernel
    generalize (customCodeSection [] []).phpLines ({} : Settings).textDomain = ls at hlines
    induction ls with
    | nil => exact h
    | cons l ls ih =>
      have hl : Crosses l := crosses_of_leadsToCode (hlines l (by simp))
      have := hl.closed (Closed.newline rfl (ih fun l' hl' => hlines l' (by simp [hl'])))
      simpa [joinLines] using this

/-- All sections of a widget without code of its own. -/
theorem quiet_sections {forest : List Element}
    (h : ∀ e ∈ Element.preorderAll forest, PlainElement e) :
    Quiet (printSections ({} : Settings).textDomain
      ((bindForest Catalog.builtin forest).flatMap elementSections ++ [customCodeSection [] []])) := by
  refine quiet_printSections fun s hs => ?_
  rcases List.mem_append.1 hs with hs | hs
  · obtain ⟨b, hb, hs⟩ := List.mem_flatMap.1 hs
    obtain ⟨tab, -, rfl⟩ := List.mem_map.1 hs
    obtain ⟨helement, htemplate⟩ := printable_of_mem_bindForest hb
    exact quiet_tabSection (by decide) (h _ helement) htemplate tab
  · rw [List.mem_singleton.1 hs]
    exact quiet_customCodeSection

end

end WidgetCompiler.Validation
