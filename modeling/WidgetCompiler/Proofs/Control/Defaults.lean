import WidgetCompiler.Proofs.Catalog.Builtin
import WidgetCompiler.Proofs.Text.Dictionary
import WidgetCompiler.Proofs.Text.Plain
import Mathlib.Data.List.Nodup

/-!
# The defaults of the controls

The id of a control says which element and which field it is for (`controlId_inj`), so the controls
of a fragment have distinct ids (`nodup_ids`), and what the defaults hold under the id of a control
is the default of that control (`find?_defaults`).
-/

namespace WidgetCompiler

open Text Markup

/-! ## Ids of controls -/

theorem controlId_eq (tag : Text) (index : Nat) (fieldId : Text) :
    controlId tag index fieldId
      = identifierPart tag ++ ['_'] ++ decimal index ++ '_' :: fieldId := by
  simp [controlId]

/-- The number and the field can be read off an id. -/
theorem controlId_inj {tag tag' id id' : Text} {i i' : Nat} (hid : digitFree id = true)
    (hid' : digitFree id' = true) (h : controlId tag i id = controlId tag' i' id') :
    i = i' ∧ id = id' := by
  have hline : '_'.isDigit = false := by decide
  have hlast (s : Text) : ∀ c ∈ (s ++ ['_']).getLast?, c.isDigit = false := by
    simp [hline]
  have htail {t : Text} (ht : digitFree t = true) : digitFree ('_' :: t) = true := by
    simpa [digitFree, hline] using ht
  rw [controlId_eq, controlId_eq] at h
  obtain ⟨-, hi, he⟩ := append_decimal_append_inj (hlast _) (hlast _) (htail hid) (htail hid') h
  exact ⟨hi, (List.cons.inj he).2⟩

/-- There is a number in every id of a control of an element. -/
theorem digitFree_controlId (tag : Text) (index : Nat) (fieldId : Text) :
    digitFree (controlId tag index fieldId) = false := by
  obtain ⟨c, hc⟩ := List.exists_mem_of_ne_nil _ (decimal_ne_nil index)
  refine Bool.eq_false_iff.2 fun h => ?_
  have := List.all_eq_true.1 h c (by rw [controlId_eq]; simp [hc])
  rw [isDigit_of_mem_decimal hc] at this
  exact Bool.false_ne_true this

theorem isWord_identifierPart (t : Text) : IsWord (identifierPart t) := by
  intro c hc
  obtain ⟨d, -, rfl⟩ := List.mem_map.1 hc
  split
  · assumption
  · decide

theorem isWord_decimal (n : Nat) : IsWord (decimal n) := by
  intro c hc
  rw [Char.isAlphanum, isDigit_of_mem_decimal hc, Bool.or_true, Bool.true_or]

theorem isWord_controlId (tag : Text) (index : Nat) {fieldId : Text} (h : IsWord fieldId) :
    IsWord (controlId tag index fieldId) := by
  have hline : IsWord ['_'] := by decide
  rw [controlId_eq]
  exact (((isWord_identifierPart tag).append hline).append (isWord_decimal index)).append
    (hline.append h)

theorem isIdentifier_iff (t : Text) : isIdentifier t = true ↔ t ≠ [] ∧ IsWord t := by
  simp [isIdentifier, IsWord]

/-- The id of a control is an identifier if that of its field is made of the same characters. -/
theorem isIdentifier_controlId (tag : Text) (index : Nat) {fieldId : Text} (h : IsWord fieldId) :
    isIdentifier (controlId tag index fieldId) = true :=
  (isIdentifier_iff _).2 ⟨by simp [controlId_eq], isWord_controlId tag index h⟩

/-! ## Bound elements -/

/-- The ids of the controls of one element differ where those of the fields do. -/
theorem BoundElement.controlId_injective (b : BoundElement) : Function.Injective b.controlId := by
  intro id id' h
  rw [controlId, controlId, controlId_eq, controlId_eq] at h
  exact (List.cons.inj (List.append_cancel_left h)).2

theorem map_index_bindFrom (c : Catalog) (index : Nat) (es : List Element) :
    (bindFrom c index es).map (·.index) = List.range' index es.length := by
  induction es generalizing index with
  | nil => rfl
  | cons e es ih => rw [bindFrom, List.map_cons, ih, List.length_cons, List.range'_succ]

theorem map_element_bindFrom (c : Catalog) (index : Nat) (es : List Element) :
    (bindFrom c index es).map (·.element) = es := by
  induction es generalizing index with
  | nil => rfl
  | cons e es ih => rw [bindFrom, List.map_cons, ih]

theorem nodup_index_bindForest (c : Catalog) (forest : List Element) :
    ((bindForest c forest).map (·.index)).Nodup := by
  rw [bindForest, map_index_bindFrom]
  exact List.nodup_range'

theorem of_mem_bindFrom {c : Catalog} {index : Nat} {es : List Element} {b : BoundElement}
    (h : b ∈ bindFrom c index es) :
    b.template = c.resolve b.element.tag
      ∧ b.kind = ElementKind.classify b.element.tag b.template := by
  induction es generalizing index with
  | nil => simp [bindFrom] at h
  | cons e es ih =>
    rw [bindFrom] at h
    rcases List.mem_cons.1 h with rfl | h
    · exact ⟨rfl, rfl⟩
    · exact ih h

/-! ## The controls of a fragment -/

@[simp] theorem controls_tabSection (b : BoundElement) (tab : Tab) :
    (tabSection b tab).controls
      = (b.template.fields tab).map (Control.ofField b (styleSelector b.element)) := rfl

theorem controls_elementSections (b : BoundElement) :
    (elementSections b).flatMap (·.controls)
      = b.template.allFields.map (Control.ofField b (styleSelector b.element)) := by
  have hskip (tabs : List Tab) :
      ((tabs.filter fun tab => !(b.template.fields tab).isEmpty).map (tabSection b)).flatMap
          (·.controls)
        = (tabs.flatMap b.template.fields).map (Control.ofField b (styleSelector b.element)) := by
    induction tabs with
    | nil => rfl
    | cons tab tabs ih =>
      rw [List.filter_cons, List.flatMap_cons, List.map_append, ← ih]
      by_cases htab : b.template.fields tab = []
      · simp [htab]
      · rw [if_pos (by simpa using htab), List.map_cons, List.flatMap_cons, controls_tabSection]
  exact hskip Tab.all

/-- The ids of the controls in some sections. -/
def controlIdsOf (sections : List Section) : List Text :=
  (sections.flatMap (·.controls)).map (·.id)

theorem controlIdsOf_append (s t : List Section) :
    controlIdsOf (s ++ t) = controlIdsOf s ++ controlIdsOf t := by
  simp [controlIdsOf]

theorem controlIdsOf_elements (bs : List BoundElement) :
    controlIdsOf (bs.flatMap elementSections)
      = bs.flatMap fun b => b.template.fieldIds.map b.controlId := by
  rw [controlIdsOf, List.flatMap_assoc]
  simp [controls_elementSections, List.map_flatMap, Template.fieldIds, Control.ofField,
    Function.comp_def]

section

variable {bs : List BoundElement} {more : List Section}

/-- Elements with different numbers share no id, if the ids of their fields have no digits. -/
theorem disjoint_ids {b b' : BoundElement} (hb : ∀ id ∈ b.template.fieldIds, digitFree id = true)
    (hb' : ∀ id ∈ b'.template.fieldIds, digitFree id = true) (hne : b.index ≠ b'.index) :
    List.Disjoint (b.template.fieldIds.map b.controlId) (b'.template.fieldIds.map b'.controlId) := by
  intro id hid hid'
  obtain ⟨f, hf, rfl⟩ := List.mem_map.1 hid
  obtain ⟨f', hf', h⟩ := List.mem_map.1 hid'
  exact hne (controlId_inj (hb' f' hf') (hb f hf) h).1.symm

/-- Elements with distinct numbers and regular templates have controls with distinct ids, and so
they have together with controls whose ids have no digits. -/
theorem nodup_ids (hindex : (bs.map (·.index)).Nodup) (hregular : ∀ b ∈ bs, b.template.Regular)
    (hmore : (controlIdsOf more).Nodup) (hdigits : ∀ id ∈ controlIdsOf more, digitFree id = true) :
    (controlIdsOf (bs.flatMap elementSections ++ more)).Nodup := by
  have hdigit {b : BoundElement} (hb : b ∈ bs) : ∀ id ∈ b.template.fieldIds, digitFree id = true := by
    intro id hid
    obtain ⟨f, hf, rfl⟩ := List.mem_map.1 hid
    exact ((hregular b hb).fields f hf).digits
  rw [controlIdsOf_append, controlIdsOf_elements]
  refine List.Nodup.append (List.nodup_flatMap.2 ⟨fun b hb => ?_, ?_⟩) hmore ?_
  · exact (hregular b hb).distinct.map b.controlId_injective
  · refine (List.Nodup.of_map _ hindex).pairwise_of_forall_ne fun b hb b' hb' hne => ?_
    exact disjoint_ids (hdigit hb) (hdigit hb') fun h =>
      hne (List.inj_on_of_nodup_map hindex hb hb' h)
  · intro id hid hid'
    obtain ⟨b, -, hid⟩ := List.mem_flatMap.1 hid
    obtain ⟨f, -, rfl⟩ := List.mem_map.1 hid
    exact Bool.false_ne_true ((digitFree_controlId ..).symm.trans (hdigits _ hid'))

end

/-! ## What the defaults hold -/

/-- The defaults hold under the id of a control its default, if no other control has the id. -/
theorem find?_defaultsOf {sections : List Section} {c : Control}
    (hc : c ∈ sections.flatMap (·.controls))
    (h : ∀ c' ∈ sections.flatMap (·.controls), c'.id = c.id → c' = c) :
    (defaultsOf sections).find? c.id = c.default := by
  have hentry {value : DefaultValue}
      (hv : (c.id, value) ∈ (sections.flatMap (·.controls)).filterMap fun c =>
        c.default.map fun value => (c.id, value)) : c.default = some value := by
    obtain ⟨c', hc', hv⟩ := List.mem_filterMap.1 hv
    obtain ⟨v, hdefault, heq⟩ := Option.map_eq_some_iff.1 hv
    obtain ⟨hid, rfl⟩ := Prod.mk.inj heq
    rw [← h c' hc' hid, hdefault]
  rw [defaultsOf]
  cases hd : c.default with
  | some v =>
    refine Dictionary.find?_ofList_of_unique (List.mem_filterMap.2 ⟨c, hc, by simp [hd]⟩) ?_
    exact fun v' hv' => Option.some.inj ((hentry hv').symm.trans hd)
  | none =>
    refine Dictionary.find?_ofList_of_not_mem fun hm => ?_
    obtain ⟨⟨id, v⟩, hmem, rfl⟩ := List.mem_map.1 hm
    simp [hentry hmem] at hd

/-- The defaults of a fragment hold for each field of an element what the element gives. -/
theorem find?_defaults {bs : List BoundElement} {more : List Section}
    (h : (controlIdsOf (bs.flatMap elementSections ++ more)).Nodup) {b : BoundElement} (hb : b ∈ bs)
    {f : Field} (hf : f ∈ b.template.allFields) :
    (defaultsOf (bs.flatMap elementSections ++ more)).find? (b.controlId f.id)
      = defaultFor f b.element := by
  have hmem : Control.ofField b (styleSelector b.element) f
      ∈ (bs.flatMap elementSections ++ more).flatMap (·.controls) := by
    rw [List.flatMap_append, List.flatMap_assoc]
    refine List.mem_append_left _ (List.mem_flatMap.2 ⟨b, hb, ?_⟩)
    rw [controls_elementSections]
    exact List.mem_map.2 ⟨f, hf, rfl⟩
  exact find?_defaultsOf hmem fun c' hc' hid => List.inj_on_of_nodup_map h hc' hmem hid

end WidgetCompiler
