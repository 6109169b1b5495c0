import WidgetCompiler.Control.Basic
import WidgetCompiler.Proofs.Control.Defaults
import WidgetCompiler.Proofs.Text.MadeOf

/-!
# What controls are made of

All that a control says comes from a field of a template and from an element, but for a few
characters that selectors and declarations are written with (`controlMarks`).  If the field, the
element and these are made of a kind of characters, the control is (`madeOf_ofField`), and so is the
label of its section (`madeOf_sectionLabel`).  Ids are words in any case.
-/

namespace WidgetCompiler

open Text Markup

/-- The characters that selectors and declarations are written with. -/
def controlMarks : Text := "#.\\:;\x7b\x7d"

/-- All that an element supplies is made of a kind of characters. -/
@[mk_iff]
structure Markup.Element.MadeOf (q : Char → Bool) (e : Element) : Prop where
  tag : Text.MadeOf q e.tag
  classes : ∀ c ∈ e.classes, Text.MadeOf q c
  id : ∀ i ∈ e.id, Text.MadeOf q i
  text : ∀ t ∈ e.text, Text.MadeOf q t
  attributes : ∀ a ∈ e.attributes, Text.MadeOf q a.2
  selector : Text.MadeOf q e.selector

instance (q : Char → Bool) (e : Element) : Decidable (e.MadeOf q) :=
  decidable_of_iff' _ (Element.madeOf_iff q e)

/-- A field has a word for an id, and all else that is printed of it is made of a kind of
characters. -/
structure Field.MadeOf (q : Char → Bool) (f : Field) : Prop where
  id : IsWord f.id
  label : Text.MadeOf q f.label
  default : ∀ v ∈ f.default, Text.MadeOf q v
  options : ∀ options ∈ f.options, ∀ o ∈ options, Text.MadeOf q o
  selector : ∀ s ∈ f.selector, Text.MadeOf q s
  property : ∀ p ∈ f.property, Text.MadeOf q p

/-- A control has a word for an id and for the language of its editor, and all else that is printed
of it is made of a kind of characters. -/
structure Control.MadeOf (q : Char → Bool) (c : Control) : Prop where
  id : IsWord c.id
  label : Text.MadeOf q c.label
  default : ∀ v ∈ c.default, Text.MadeOf q v.asText
  options : ∀ o ∈ c.options, Text.MadeOf q o
  selectors : ∀ entry ∈ c.selectors, Text.MadeOf q entry.1 ∧ Text.MadeOf q entry.2
  language : ∀ language ∈ c.language, IsWord language
  description : ∀ description ∈ c.description, Text.MadeOf q description

section

variable {q : Char → Bool} {e : Element} {f : Field} {b : BoundElement} {value name : Text}

/-! ## Elements -/

theorem Markup.Element.MadeOf.attribute? (h : e.MadeOf q) (ha : e.attribute? name = some value) :
    Text.MadeOf q value := by
  obtain ⟨front, rest, hsplit, -⟩ := List.lookup_eq_some_iff.1 ha
  exact h.attributes (name, value) (by rw [hsplit]; simp)

theorem madeOf_elementValue? (h : e.MadeOf q) (hvalue : elementValue? f e = some value) :
    MadeOf q value := by
  unfold elementValue? at hvalue
  repeat' split at hvalue
  · exact h.text value hvalue
  · exact h.attribute? hvalue
  · exact h.attribute? hvalue
  · exact h.attribute? hvalue
  · exact h.attribute? hvalue
  · obtain rfl := Option.some.inj hvalue
    exact h.tag
  · simp at hvalue
  · obtain rfl := Option.some.inj hvalue
    exact h.tag
  · simp at hvalue

section

variable (hq : HoldsWords q) (hmarks : Text.MadeOf q controlMarks)

include hmarks

theorem madeOf_escapeName (h : MadeOf q name) : MadeOf q (escapeName name) := by
  have hslash : q '\\' = true := hmarks _ (by decide)
  refine h.flatMap fun c _ hc => ?_
  split
  · exact MadeOf.cons hc MadeOf.nil
  · exact MadeOf.cons hslash (MadeOf.cons hc MadeOf.nil)

theorem madeOf_styleSelector (h : e.MadeOf q) : MadeOf q (styleSelector e) := by
  have hhash : q '#' = true := hmarks _ (by decide)
  have hdot : q '.' = true := hmarks _ (by decide)
  refine (h.tag.append ?_).append fun c hc => ?_
  · cases hid : e.id with
    | none => exact MadeOf.nil
    | some id => exact (madeOf_escapeName hmarks (h.id id hid)).cons hhash
  · obtain ⟨name, hname, hc⟩ := List.mem_flatMap.1 hc
    exact (madeOf_escapeName hmarks (h.classes name hname)).cons hdot c hc

include hq

/-- Words, spaces and the characters that controls are written with. -/
theorem madeOf_fixed {t : Text}
    (h : ∀ c ∈ t, ((c.isAlphanum || c == '_') = true ∨ c = ' ') ∨ c ∈ controlMarks) :
    MadeOf q t := by
  intro c hc
  rcases h c hc with h | h
  · exact hq.of_words (t := [c]) (by simpa using h) c List.mem_cons_self
  · exact hmarks c h

/-! ## Controls -/

theorem madeOf_ofField (hb : b.element.MadeOf q) (hf : f.MadeOf q) :
    (Control.ofField b (styleSelector b.element) f).MadeOf q where
  id := isWord_controlId _ _ hf.id
  label := hf.label
  default v hv := by
    obtain ⟨value, hvalue, rfl⟩ := Option.map_eq_some_iff.1 hv
    have hmade : MadeOf q value := by
      rw [Option.orElse_eq_orElse, Option.orElse_eq_or] at hvalue
      rcases Option.or_eq_some_iff.1 hvalue with h | ⟨-, h⟩
      · exact madeOf_elementValue? hb h
      · exact hf.default value h
    split <;> exact hmade
  options o ho := by
    cases hoptions : f.options with
    | none => simp [Control.ofField, hoptions] at ho
    | some options => exact hf.options options hoptions o (by simpa [Control.ofField, hoptions] using ho)
  selectors entry hentry := by
    cases hbinding : f.styleBinding? with
    | none => simp [Control.ofField, hbinding] at hentry
    | some binding =>
      obtain ⟨property, hproperty, rfl⟩ := Option.map_eq_some_iff.1 hbinding
      simp only [Control.ofField, hbinding, List.mem_singleton] at hentry
      subst hentry
      have hselector : MadeOf q (f.selector.getD selectorPlaceholder) :=
        MadeOf.getD hf.selector (madeOf_fixed hq hmarks (by decide))
      have hwrapper : MadeOf q (Style.wrapperPlaceholder ++ [' ']) :=
        madeOf_fixed hq hmarks (by decide)
      have hcolon : MadeOf q ": " := madeOf_fixed hq hmarks (by decide)
      have hend : MadeOf q ";" := madeOf_fixed hq hmarks (by decide)
      have hvalue : MadeOf q f.kind.styleValue := by
        cases f.kind <;> exact madeOf_fixed hq hmarks (by decide)
      have hreplaced : MadeOf q (replace selectorPlaceholder (styleSelector b.element)
          (f.selector.getD selectorPlaceholder)) :=
        (madeOf_styleSelector hmarks hb).replace hselector
      refine ⟨?_, (((hf.property property hproperty).append hcolon).append hvalue).append hend⟩
      have := hwrapper.append hreplaced
      rwa [List.append_assoc, List.singleton_append] at this
  language := by simp [Control.ofField]
  description := by simp [Control.ofField]

end

theorem isWord_tabSection (b : BoundElement) (tab : Tab) : IsWord (tabSection b tab).id := by
  have hname : IsWord tab.name := by cases tab <;> decide
  have hline : IsWord ['_'] := by decide
  have hsection : IsWord "section_" := by decide
  exact ((hsection.append (isWord_identifierPart b.element.tag)).append
    (hline.append (isWord_decimal b.index))).append (hline.append hname)

/-- The label of a section names the element in parentheses. -/
theorem madeOf_sectionLabel (hq : HoldsWords q) (hopen : q '(' = true) (hclose : q ')' = true)
    {label selector : Text} (tab : Tab) (hlabel : MadeOf q label) (hselector : MadeOf q selector) :
    MadeOf q (sectionLabel tab label selector) := by
  have hkind {t : Text} (ht : MadeOf q t) : MadeOf q (t ++ ['(']) :=
    ht.append (MadeOf.cons hopen MadeOf.nil)
  refine ((hlabel.append ?_).append hselector).append (MadeOf.cons hclose MadeOf.nil)
  cases tab with
  | content => exact hkind (hq.of_words (t := [' ']) (by decide))
  | style => exact hkind (hq.of_words (t := " Style ") (by decide))
  | advanced => exact hkind (hq.of_words (t := " Advanced ") (by decide))

/-- The editors for the widget's own code. -/
theorem madeOf_codeControl {id label language code description : Text} (hid : IsWord id)
    (hlabel : MadeOf q label) (hlanguage : IsWord language) (hcode : MadeOf q code)
    (hdescription : MadeOf q description) :
    (codeControl id label language code description).MadeOf q where
  id := hid
  label := hlabel
  default v hv := by
    rw [codeControl] at hv
    split at hv
    · simp at hv
    · obtain rfl := Option.some.inj hv
      exact hcode
  options := by simp [codeControl]
  selectors := by simp [codeControl]
  language l hl := by
    obtain rfl := Option.some.inj hl
    exact hlanguage
  description d hd := by
    obtain rfl := Option.some.inj hd
    exact hdescription

end

end WidgetCompiler
