import WidgetCompiler.Proofs.Control.Defaults
import WidgetCompiler.Proofs.Markup.Written
import WidgetCompiler.Proofs.Render.Preview

/-!
# A preview of the defaults is the markup

A forest is written as markup, planned, and shown with every control at its default: what comes out
is the markup (`preview_defaults`).  It does not matter which elements the planner exchanges.  Where
it leaves an element alone the markup is copied, and where it puts values in, each of them is the
default that was taken from the element, escaped in the way in which it was written
(`shows_of_substitution?`).
-/

namespace WidgetCompiler.Render

open Text Markup

/-! ## Texts in elements -/

/-- The text that the planner finds in an element, if it is the one that was written. -/
theorem textSpan?_written {e : Element} {t : Text} (hchildren : e.hasChildren = false)
    (htext : e.text = some t) (before after : Text) (as : List (Text × Text)) :
    textSpan? (before
        ++ (startTagText e.tag as false ++ (escapeText t ++ (endTagText e.tag ++ after))))
        (writtenTag before.length e.tag as false) e
      = if decodeCommon (trim (escapeText t)) = t then
          some (before.length + (startTagText e.tag as false).length + (escapeText t).length,
            before.length + (startTagText e.tag as false).length + (escapeText t).length
              + (endTagText e.tag).length)
        else none := by
  have hdrop : (before
      ++ (startTagText e.tag as false ++ (escapeText t ++ (endTagText e.tag ++ after)))).drop
        (writtenTag before.length e.tag as false).stop
      = escapeText t ++ (endTagText e.tag ++ after) := by
    rw [← List.append_assoc]
    exact List.drop_left' (List.length_append ..)
  have hcut : cutAt? (· == '<') (escapeText t ++ (endTagText e.tag ++ after))
      = some (escapeText t, '/' :: (e.tag ++ ['>'] ++ after)) := by
    refine cutAt?_run (fun d hd => beq_eq_false_iff_ne.2 ?_) rfl
    rintro rfl
    exact not_mem_escapeText (by decide) hd
  have hend : endTagEnd? (before
        ++ (startTagText e.tag as false ++ (escapeText t ++ (endTagText e.tag ++ after))))
        (before.length + (startTagText e.tag as false).length + (escapeText t).length) e.tag
      = some (before.length + (startTagText e.tag as false).length + (escapeText t).length
          + (endTagText e.tag).length) := by
    have := endTagEnd?_endTagText (before ++ startTagText e.tag as false ++ escapeText t) e.tag after
    simpa only [List.append_assoc, List.length_append, Nat.add_assoc] using this
  have hopen : (writtenTag before.length e.tag as false).selfClosing = false := rfl
  rw [textSpan?, hopen, hchildren, hdrop, htext, hcut]
  simp only [Bool.or_false, Bool.false_eq_true, if_false]
  split
  · next stop hstop =>
    obtain rfl := Option.some.inj (hstop.symm.trans hend)
    rfl
  · next hnone => exact absurd (hnone.symm.trans hend) (by simp)

/-- A text without blanks around it is found, unless there is something like a reference in it. -/
theorem isSome_textSpan?_written {e : Element} {t : Text} (hchildren : e.hasChildren = false)
    (htext : e.text = some t) (htrim : trim t = t) (hreturn : '\r' ∉ t)
    (hreference : ReferenceFree t) (before after : Text) (as : List (Text × Text)) :
    (textSpan? (before
        ++ (startTagText e.tag as false ++ (escapeText t ++ (endTagText e.tag ++ after))))
        (writtenTag before.length e.tag as false) e).isSome = true := by
  have hread : decodeCommon (trim (escapeText t)) = t := by
    rw [trim_escapeText hreference htrim,
      decodeCommon_escapeText hreference (lacks_of_not_mem (by simp) hreturn)]
  rw [textSpan?_written hchildren htext, if_pos hread]
  rfl

section

variable {whole : Text} {e : Element} {tag : StartTag} {stop : Nat}

/-- The element stands with a text in it, which ends at `innerStop`. -/
structure Filled (whole : Text) (e : Element) (tag : StartTag) (innerStop stop : Nat) (t : Text)
    (as : List (Text × Text)) : Prop where
  text : e.text = some t
  carried : as.Perm e.carried
  rawName : tag.rawName = e.tag
  attributes : tag.attributes = as.map fun a => ⟨a.1, attributeText a⟩
  opening : slice whole tag.start tag.stop = startTagText e.tag as false
  ending : slice whole innerStop stop = endTagText e.tag
  markup : slice whole tag.start stop
    = startTagText e.tag as false ++ (escapeText t ++ endTagText e.tag)

/-- If the planner finds a text in an element, it is the element's own, as it was written. -/
theorem filled_of_textSpan? (he : e.Writable) (hs : Standing whole e tag stop)
    {innerStop stop' : Nat} (h : textSpan? whole tag e = some (innerStop, stop')) :
    stop' = stop ∧ ∃ t as, Filled whole e tag innerStop stop t as := by
  obtain ⟨-, hchildren, t, -, -, htext, -⟩ := exists_of_textSpan? h
  cases hs with
  | opening hopening _ _ =>
    -- an element without content has no text, one with children is not looked into
    rcases hopening with hvoid | hne
    · rw [(he.void hvoid).1] at htext
      simp at htext
    · simp [Element.hasChildren, hne] at hchildren
  | @leaf before after as hvoid has hwhole =>
    have hcontent : e.contentText = escapeText t := by
      rw [Element.contentText, htext]
      rfl
    rw [hcontent] at hwhole ⊢
    rw [hwhole, textSpan?_written hchildren htext] at h
    split at h
    · obtain ⟨rfl, rfl⟩ := Prod.mk.inj (Option.some.inj h)
      refine ⟨rfl, t, as, htext, has, rfl, rfl, ?_, ?_, ?_⟩
      · rw [hwhole, ← List.append_assoc]
        exact slice_append ..
      · have := slice_append (before ++ startTagText e.tag as false ++ escapeText t)
          (endTagText e.tag) after
        rw [hwhole]
        simpa only [List.append_assoc, List.length_append, Nat.add_assoc] using this
      · have := slice_append before
          (startTagText e.tag as false ++ (escapeText t ++ endTagText e.tag)) after
        rw [hwhole]
        change slice _ before.length _ = _
        simpa only [List.append_assoc, List.length_append, Nat.add_assoc] using this
    · simp at h

end

/-! ## Values that controls hold -/

/-- The controls of an element hold what the element gives. -/
structure Holds (values : Dictionary DefaultValue) (b : BoundElement) : Prop where
  regular : b.template.Regular
  default : ∀ f ∈ b.template.allFields,
    values.find? (b.controlId f.id) = defaultFor f b.element

section

variable {values : Dictionary DefaultValue} {b : BoundElement} {field id v : Text}

theorem exists_field (h : b.control? field = some id) :
    ∃ f ∈ b.template.allFields, f.id = field ∧ id = b.controlId f.id := by
  unfold BoundElement.control? at h
  split at h
  · next hfield =>
    obtain ⟨f, hf, rfl⟩ := Template.exists_of_hasField hfield
    exact ⟨f, hf, rfl, (Option.some.inj h).symm⟩
  · simp at h

theorem find?_of_plain (hb : Holds values b) (hid : b.control? field = some id)
    (hfield : field ∈ plainFieldIds)
    (hv : ∀ f ∈ b.template.allFields, f.id = field → elementValue? f b.element = some v) :
    values.find? id = some (.text v) := by
  obtain ⟨f, hf, rfl, rfl⟩ := exists_field hid
  rw [hb.default f hf, defaultFor, hv f hf rfl]
  simp [(hb.regular.fields f hf).plain hfield]

theorem find?_of_url (hb : Holds values b) (hid : b.control? field = some id)
    (hfield : field ∈ urlFieldIds)
    (hv : ∀ f ∈ b.template.allFields, f.id = field → elementValue? f b.element = some v) :
    values.find? id = some (.url v) := by
  obtain ⟨f, hf, rfl, rfl⟩ := exists_field hid
  rw [hb.default f hf, defaultFor, hv f hf rfl]
  simp [(hb.regular.fields f hf).url hfield]

theorem find?_of_unlinked (hb : Holds values b) (hid : b.control? field = some id)
    (hfield : field ∈ (["link", "button_link"] : List Text))
    (hv : ∀ f, f.id = field → elementValue? f b.element = none) : values.find? id = none := by
  obtain ⟨f, hf, rfl, rfl⟩ := exists_field hid
  rw [hb.default f hf, defaultFor, hv f rfl, (hb.regular.fields f hf).unlinked hfield]
  rfl

end

section

variable {values : Dictionary DefaultValue} {id v : Text}

theorem settingText_of_find? (h : values.find? id = some (.text v)) : settingText values id = v := by
  rw [settingText, h]
  rfl

theorem evaluate_setting (h : values.find? id = some (.text v)) :
    (Source.setting id).evaluate values = .text v := by
  rw [Source.evaluate, h]
  rfl

/-- A text that stands in for itself. -/
theorem evaluate_settingOr (h : values.find? id = some (.text v)) :
    (Source.settingOr id v).evaluate values = .text v := by
  rw [Source.evaluate, settingText_of_find? h]
  simp

theorem evaluate_linkOrNull (h : values.find? id = none) :
    (Source.linkOrNull id).evaluate values = .null := by
  simp only [Source.evaluate, settingUrl?, h]

/-- An address that stands in for itself. -/
theorem evaluate_urlOr (h : values.find? id = some (.url v)) :
    (Source.urlOr id v).evaluate values = .link v := by
  rw [Source.evaluate, settingUrl?, h]
  cases v <;> rfl

end

/-! ## Elements that can be shown as they are written -/

/-- The names and values of the element can be written, its addresses have no blanks, and it has the
attributes that its kind is about: an address where a link or an image needs one, and none where a
link would be added around it. -/
@[mk_iff]
structure Ordinary (e : Element) : Prop extends e.Writable where
  addresses : ∀ name ∈ (["href", "src"] : List Text), ∀ v ∈ e.attribute? name,
    ∀ c ∈ v, isBlank c = false
  anchor : e.tag = "a".toList → e.text ≠ none → e.attribute? "href" ≠ none
  image : e.tag = "img".toList → e.attribute? "src" ≠ none ∧ e.attribute? "alt" ≠ none
  button : e.tag = "button".toList → e.attribute? "href" = none

instance (e : Element) : Decidable (Ordinary e) := decidable_of_iff' _ (ordinary_iff e)

section

variable {e : Element} {as : List (Text × Text)} {tag : StartTag}

theorem mem_carried_iff {a : Text × Text} (hid : a.1 ≠ "id".toList) (hclass : a.1 ≠ "class".toList) :
    a ∈ e.carried ↔ a ∈ e.attributes := by
  have hown : a ∉ (e.id.map fun id => (("id" : Text), id)).toList := by
    intro h
    obtain ⟨id, -, rfl⟩ := Option.map_eq_some_iff.1 (Option.mem_toList.1 h)
    exact hid rfl
  have hclasses : a ∉ if e.classes.isEmpty then []
      else [(("class" : Text), join [' '] e.classes)] := by
    split
    · simp
    · intro h
      exact hclass (congrArg Prod.fst (List.mem_singleton.1 h))
  rw [Element.carried, List.mem_append, List.mem_append]
  exact ⟨fun h => (h.resolve_left fun h => h.elim hown hclasses), .inr⟩

/-- What a written attribute says is what the element says. -/
theorem attribute?_of_mem (he : e.Writable) (has : as.Perm e.carried) {a : Text × Text}
    (ha : a ∈ as) (hid : a.1 ≠ "id".toList) (hclass : a.1 ≠ "class".toList) :
    e.attribute? a.1 = some a.2 :=
  Dictionary.lookup_of_mem he.once ((mem_carried_iff hid hclass).1 (has.mem_iff.1 ha))

/-- What the element says is written. -/
theorem hasAttribute_of_attribute? (has : as.Perm e.carried)
    (htag : tag.attributes = as.map fun a => ⟨a.1, attributeText a⟩) {name v : Text}
    (h : e.attribute? name = some v) : tag.hasAttribute name = true := by
  obtain ⟨before, after, heq, -⟩ := List.lookup_eq_some_iff.1 h
  have hmem : (name, v) ∈ as := by
    refine has.mem_iff.2 (List.mem_append_right _ ?_)
    rw [heq]
    simp
  rw [StartTag.hasAttribute, htag, List.any_eq_true]
  exact ⟨_, List.mem_map.2 ⟨(name, v), hmem, rfl⟩, by simp⟩

theorem isPlainValue_of_attribute? (he : e.Writable) {name v : Text}
    (h : e.attribute? name = some v) : isPlainValue v = true := by
  obtain ⟨before, after, heq, -⟩ := List.lookup_eq_some_iff.1 h
  exact (he.carried (name, v) (List.mem_append_right _ (by rw [heq]; simp))).2

end

theorem escapeText_of_isPlainValue {v : Text} (h : isPlainValue v = true) : escapeText v = v :=
  escapeText_eq_self fun c hc => by
    have := List.all_eq_true.1 h c hc
    simp_all

theorem escapeUrl_of_isPlainValue {v : Text} (h : isPlainValue v = true)
    (hblank : ∀ c ∈ v, isBlank c = false) : escapeUrl v = v := by
  have hall (c : Char) (hc : c ∈ v) : c ∉ escaped ∧ c ≠ '\\' := by
    simpa using List.all_eq_true.1 h c hc
  exact escapeUrl_eq_self (fun c hc => (hall c hc).1) (fun hm => (hall _ hm).2 rfl) hblank

/-- An address is escaped to what is written. -/
theorem escapeUrl_of_mem {e : Element} {as : List (Text × Text)} (he : Ordinary e)
    (has : as.Perm e.carried) {a : Text × Text} (ha : a ∈ as) {v : Text}
    (hname : a.1 ∈ (["href", "src"] : List Text)) (hv : e.attribute? a.1 = some v) :
    escapeUrl v = a.2 := by
  have hown : ∀ name ∈ (["href", "src"] : List Text),
      name ≠ "id".toList ∧ name ≠ "class".toList := by decide
  have hsame := attribute?_of_mem he.toWritable has ha (hown _ hname).1 (hown _ hname).2
  rw [escapeUrl_of_isPlainValue (isPlainValue_of_attribute? he.toWritable hv)
    (he.addresses a.1 hname v hv)]
  exact Option.some.inj (hv.symm.trans hsame)

/-- So is a text. -/
theorem escapeText_of_mem {e : Element} {as : List (Text × Text)} (he : Ordinary e)
    (has : as.Perm e.carried) {a : Text × Text} (ha : a ∈ as) {v : Text}
    (hname : a.1 ∈ (["alt", "placeholder"] : List Text)) (hv : e.attribute? a.1 = some v) :
    escapeText v = a.2 := by
  have hown : ∀ name ∈ (["alt", "placeholder"] : List Text),
      name ≠ "id".toList ∧ name ≠ "class".toList := by decide
  have hsame := attribute?_of_mem he.toWritable has ha (hown _ hname).1 (hown _ hname).2
  rw [escapeText_of_isPlainValue (isPlainValue_of_attribute? he.toWritable hv)]
  exact Option.some.inj (hv.symm.trans hsame)

/-! ## What the parts show -/

section

variable {values : Dictionary DefaultValue} {env : Dictionary Slot} {whole : Text}
  {b : BoundElement} {tag : StartTag} {stop : Nat} {as : List (Text × Text)}

/-- A start tag with values in it is the one that was written if each value is what was written
there. -/
theorem previewParts_startTagWith {rs : List Replacement} {name : Text} (hname : tag.rawName = name)
    (htag : tag.attributes = as.map fun a => ⟨a.1, attributeText a⟩)
    (hrs : ∀ r ∈ rs, tag.hasAttribute r.name = true)
    (hvalue : ∀ r ∈ rs, ∀ a ∈ as, a.1 = r.name →
      r.escape.apply (r.value.evaluate values env) = a.2) :
    previewParts values env (startTagWith tag rs) = '<' :: (name ++ attributesText as) := by
  have hnone : rs.filter (!tag.hasAttribute ·.name) = [] :=
    List.filter_eq_nil_iff.2 fun r hr => by simp [hrs r hr]
  rw [startTagWith, hnone, htag, List.flatMap_nil, List.append_nil, previewParts,
    previewParts_flatMap, List.flatMap_map, hname, List.cons_append, attributesText]
  congr 2
  refine List.flatMap_congr fun a ha => ?_
  split
  · next r hr =>
    have hr' : r.name = a.1 := by simpa using List.find?_some hr
    have := hvalue r (List.mem_of_find?_eq_some hr) a ha hr'.symm
    simp [Replacement.parts, previewParts, attributeText, this, hr']
  · simp [previewParts]

theorem previewParts_textReplaced {innerStop : Nat} {t textId : Text}
    (h : Filled whole b.element tag innerStop stop t as)
    (htext : values.find? textId = some (.text t)) :
    previewParts values env (textReplaced whole tag innerStop stop textId)
      = slice whole tag.start stop := by
  rw [h.markup]
  simp [textReplaced, previewParts, h.opening, h.ending, Value.evaluate, settingText_of_find? htext,
    Escape.apply]

/-- Without a link only what is in it shows. -/
theorem previewParts_wrapInLink {var : Option Text} (h : ∀ n ∈ var, slotOf env n = .null)
    (inner : List Part) :
    previewParts values env (wrapInLink var inner) = previewParts values env inner := by
  cases var with
  | none => rfl
  | some n =>
    have hnull : (slotOf env n).asText = [] := by
      rw [h n rfl]
      rfl
    simp [wrapInLink, previewParts, previewParts_append, hnull]

/-! ## The kinds of elements -/

/-- The tags that go with a kind. -/
def tagsOf : ElementKind → Text → Prop
  | .heading, tag => tag ∈ ElementKind.headingTags
  | .anchor, tag => tag = "a".toList
  | .button, tag => tag = "button".toList
  | .image, tag => tag = "img".toList
  | .input, tag => tag = "input".toList ∨ tag = "textarea".toList
  | .textContainer, _ => True
  | .passthrough, _ => True

theorem tagsOf_ofTag (tag : Text) : tagsOf (ElementKind.ofTag tag) tag := by
  unfold ElementKind.ofTag
  split
  · next h => exact List.contains_iff_mem.1 h
  split
  · assumption
  split
  · assumption
  split
  · assumption
  split
  · assumption
  · trivial

theorem tagsOf_classify (tag : Text) (t : Template) :
    tagsOf (ElementKind.classify tag t) tag := by
  unfold ElementKind.classify
  split
  · split
    · exact tagsOf_ofTag tag
    · trivial
  · trivial

/-- The element stands in the markup, and the controls and the names have its values. -/
structure Settled (values : Dictionary DefaultValue) (env : Dictionary Slot) (whole : Text)
    (b : BoundElement) (tag : StartTag) (stop : Nat) (bindings : List Binding) : Prop where
  ordinary : Ordinary b.element
  holds : Holds values b
  standing : Standing whole b.element tag stop
  bound : ∀ bd ∈ bindings, slotOf env bd.var = bd.source.evaluate values

/-- What a kind of element has to show: its markup. -/
def Shows (values : Dictionary DefaultValue) (env : Dictionary Slot) (whole : Text)
    (tag : StartTag) (stop : Nat) (sub : Substitution) : Prop :=
  sub.stop = stop ∧ previewParts values env sub.parts = slice whole tag.start stop

variable {sub : Substitution}

theorem shows_textContainer (h : Settled values env whole b tag stop sub.bindings)
    (hsub : textContainerSubstitution? whole tag b = some sub) :
    Shows values env whole tag stop sub := by
  unfold textContainerSubstitution? at hsub
  split at hsub
  · next textId innerStop _ htext hspan =>
    obtain rfl := Option.some.inj hsub
    obtain ⟨hstop, t, as, hfilled⟩ :=
      filled_of_textSpan? h.ordinary.toWritable h.standing hspan
    refine ⟨hstop, ?_⟩
    rw [hstop]
    refine previewParts_textReplaced hfilled (find?_of_plain h.holds htext (by decide) ?_)
    intro f _ hf
    rw [elementValue?, hf]
    exact hfilled.text
  · simp at hsub

theorem escapeText_of_isSmallName {name : Text} (h : isSmallName name = true) :
    escapeText name = name :=
  escapeText_eq_self fun c hc he => by
    have hescaped : ∀ c ∈ escaped, isSmallNamePart c = false := by decide
    exact Bool.false_ne_true ((hescaped c he).symm.trans (all_of_isSmallName h c hc))

/-- A heading shows its tag twice and its text between. -/
theorem previewParts_heading {tagPart : Part} {textVar attributes t : Text} (name : Text)
    (htag : previewParts values env [tagPart] = name)
    (htext : (slotOf env textVar).asText = t) :
    previewParts values env [.markup "<", tagPart, .markup (attributes ++ ">"),
        .echo (.var textVar) .html, .markup "</", tagPart, .markup ">"]
      = '<' :: (name ++ attributes ++ ['>'] ++ (escapeText t ++ endTagText name)) := by
  have hcons (rest : List Part) : previewParts values env (tagPart :: rest)
      = name ++ previewParts values env rest := by
    rw [← htag, ← previewParts_append, List.singleton_append]
  simp [previewParts, hcons, Value.evaluate, htext, Escape.apply, endTagText]

theorem shows_heading (h : Settled values env whole b tag stop sub.bindings)
    (htag : b.element.tag ∈ ElementKind.headingTags)
    (hsub : headingSubstitution? whole tag b = some sub) :
    Shows values env whole tag stop sub := by
  unfold headingSubstitution? at hsub
  split at hsub
  · next textId _ _ htext hspan =>
    obtain rfl := Option.some.inj hsub
    obtain ⟨hstop, t, as, hfilled⟩ :=
      filled_of_textSpan? h.ordinary.toWritable h.standing hspan
    refine ⟨hstop, ?_⟩
    have hsetting : values.find? textId = some (.text t) := by
      refine find?_of_plain h.holds htext (by decide) fun f _ hf => ?_
      rw [elementValue?, hf]
      exact hfilled.text
    have htextVar : slotOf env (localName "heading_text" b.index) = .text t :=
      (h.bound ⟨_, .setting textId⟩ (List.mem_append_left _ (List.mem_cons_self ..))).trans
        (evaluate_setting hsetting)
    have htagVar {id : Text} (hid : b.control? "html_tag" = some id) :
        slotOf env (localName "html_tag" b.index) = .text b.element.tag := by
      refine (h.bound ⟨_, .settingOr id b.element.tag⟩ ?_).trans (evaluate_settingOr ?_)
      · refine List.mem_append_left _ (List.mem_cons_of_mem _ (Option.mem_toList.2 ?_))
        exact Option.map_eq_some_iff.2 ⟨id, hid, rfl⟩
      · refine find?_of_plain h.holds hid (by decide) fun f hf hfid => ?_
        have hoptions := (h.holds.regular.fields f hf).headings hfid
        rw [elementValue?, hfid, if_neg (by decide), if_neg (by decide), if_neg (by decide),
          if_neg (by decide), if_neg (by decide), if_pos rfl]
        split
        · next options ho => exact if_pos (by simpa using hoptions options ho htag)
        · rfl
    have hlink : ∀ n ∈ (b.control? "link").map fun _ => localName "link" b.index,
        slotOf env n = .null := by
      intro n hn
      obtain ⟨id, hid, rfl⟩ := Option.map_eq_some_iff.1 hn
      refine (h.bound ⟨_, .linkOrNull id⟩ ?_).trans (evaluate_linkOrNull ?_)
      · refine List.mem_append_right _ (Option.mem_toList.2 ?_)
        exact Option.map_eq_some_iff.2 ⟨id, hid, rfl⟩
      · refine find?_of_unlinked h.holds hid (by decide) fun f hf => ?_
        rw [elementValue?, hf]
        rfl
    have hattributes : tag.attributesText = attributesText as := by
      rw [StartTag.attributesText, hfilled.attributes, List.flatMap_map, attributesText]
    rw [previewParts_wrapInLink hlink, hfilled.markup, hattributes]
    refine (previewParts_heading b.element.tag ?_ (congrArg Slot.asText htextVar)).trans ?_
    · cases hid : b.control? "html_tag" with
      | none => simp [previewParts, hfilled.rawName]
      | some id =>
        have hname : escapeText b.element.tag = b.element.tag :=
          escapeText_of_isSmallName h.ordinary.name
        rw [previewParts, previewParts, Value.evaluate, htagVar hid, Slot.asText, Escape.apply,
          hname, List.append_nil]
    · simp [startTagText, tailText, Slot.asText]
  · simp at hsub

theorem shows_button (h : Settled values env whole b tag stop sub.bindings)
    (htag : b.element.tag = "button".toList) (hsub : buttonSubstitution? whole tag b = some sub) :
    Shows values env whole tag stop sub := by
  unfold buttonSubstitution? at hsub
  split at hsub
  · next textId _ _ htext hspan =>
    obtain rfl := Option.some.inj hsub
    obtain ⟨hstop, t, as, hfilled⟩ :=
      filled_of_textSpan? h.ordinary.toWritable h.standing hspan
    refine ⟨hstop, ?_⟩
    have hlink : ∀ n ∈ (b.control? "button_link").map fun _ => localName "button_link" b.index,
        slotOf env n = .null := by
      intro n hn
      obtain ⟨id, hid, rfl⟩ := Option.map_eq_some_iff.1 hn
      refine (h.bound ⟨_, .linkOrNull id⟩ ?_).trans (evaluate_linkOrNull ?_)
      · exact Option.mem_toList.2 (Option.map_eq_some_iff.2 ⟨id, hid, rfl⟩)
      · refine find?_of_unlinked h.holds hid (by decide) fun f hf => ?_
        rw [elementValue?, hf]
        exact h.ordinary.button htag
    rw [previewParts_wrapInLink hlink, hstop]
    refine previewParts_textReplaced hfilled (find?_of_plain h.holds htext (by decide) ?_)
    intro f _ hf
    rw [elementValue?, hf]
    exact hfilled.text
  · simp at hsub

theorem shows_anchor (h : Settled values env whole b tag stop sub.bindings)
    (htag : b.element.tag = "a".toList) (hsub : anchorSubstitution? whole tag b = some sub) :
    Shows values env whole tag stop sub := by
  unfold anchorSubstitution? at hsub
  split at hsub
  · next textId innerStop _ htext hspan =>
    obtain ⟨hstop, t, as, hfilled⟩ :=
      filled_of_textSpan? h.ordinary.toWritable h.standing hspan
    have hsetting : values.find? textId = some (.text t) := by
      refine find?_of_plain h.holds htext (by decide) fun f _ hf => ?_
      rw [elementValue?, hf]
      exact hfilled.text
    -- behind the attributes comes what is written there
    have hrest : previewParts values env
          [.markup ">", .echo (.setting textId) .html, .markup (slice whole innerStop stop)]
        = '>' :: (escapeText t ++ endTagText b.element.tag) := by
      simp [previewParts, Value.evaluate, settingText_of_find? hsetting, Escape.apply,
        hfilled.ending]
    have hwhole : '<' :: (b.element.tag ++ attributesText as)
          ++ '>' :: (escapeText t ++ endTagText b.element.tag) = slice whole tag.start stop := by
      rw [hfilled.markup]
      simp [startTagText, tailText]
    rw [hstop] at hsub
    split at hsub
    · next id hid =>
      obtain rfl := Option.some.inj hsub
      refine ⟨rfl, ?_⟩
      obtain ⟨address, haddress⟩ := Option.ne_none_iff_exists'.1
        (h.ordinary.anchor htag (by simp [hfilled.text]))
      have hslot : slotOf env (localName "link_url" b.index) = .link address := by
        refine (h.bound ⟨_, .urlOr id _⟩ (List.mem_singleton.2 rfl)).trans ?_
        rw [haddress]
        refine evaluate_urlOr (find?_of_url h.holds hid (by decide) fun f _ hf => ?_)
        rw [elementValue?, hf]
        exact haddress
      have hextra : previewParts values env
          (if tag.hasAttribute "target" || tag.hasAttribute "rel" then []
            else [.linkAttributes (localName "link_url" b.index)]) = [] := by
        split <;> simp [previewParts]
      rw [previewParts_append, previewParts_append, hextra, List.append_nil, hrest,
        previewParts_startTagWith hfilled.rawName hfilled.attributes, hwhole]
      · intro r hr
        obtain rfl := List.mem_singleton.1 hr
        exact hasAttribute_of_attribute? hfilled.carried hfilled.attributes haddress
      · intro r hr a ha hname
        obtain rfl := List.mem_singleton.1 hr
        change a.1 = "href".toList at hname
        change escapeUrl (slotOf env (localName "link_url" b.index)).asUrl = a.2
        rw [hslot]
        exact escapeUrl_of_mem h.ordinary hfilled.carried ha (by simp [hname]) (hname ▸ haddress)
    · obtain rfl := Option.some.inj hsub
      refine ⟨rfl, ?_⟩
      rw [previewParts_append, hrest,
        previewParts_startTagWith hfilled.rawName hfilled.attributes (by simp) (by simp), hwhole]
  · simp at hsub

/-- An element without content is its start tag. -/
theorem exists_of_void (h : Standing whole b.element tag stop) (hvoid : b.element.tag ∈ voidNames) :
    tag.stop = stop ∧ tag.rawName = b.element.tag ∧ ∃ as, as.Perm b.element.carried
      ∧ tag.attributes = as.map (fun a => ⟨a.1, attributeText a⟩)
      ∧ '<' :: (b.element.tag ++ attributesText as) ++ tag.tail = slice whole tag.start stop := by
  cases h with
  | @opening before after as closing _ has hwhole =>
    refine ⟨rfl, rfl, as, has, rfl, ?_⟩
    rw [hwhole, ← List.append_assoc]
    refine Eq.trans ?_ (slice_append ..).symm
    simp [startTagText, writtenTag, StartTag.tail, tailText]
  | leaf hother _ _ => exact absurd hvoid hother

theorem shows_image (h : Settled values env whole b tag stop sub.bindings)
    (htag : b.element.tag = "img".toList) (hsub : imageSubstitution? tag b = some sub) :
    Shows values env whole tag stop sub := by
  unfold imageSubstitution? at hsub
  split at hsub
  · next id hid =>
    obtain rfl := Option.some.inj hsub
    obtain ⟨hstop, hname, as, has, hattributes, hwhole⟩ :=
      exists_of_void h.standing (by rw [htag]; decide)
    refine ⟨hstop, ?_⟩
    obtain ⟨hsrc, halt⟩ := h.ordinary.image htag
    obtain ⟨address, haddress⟩ := Option.ne_none_iff_exists'.1 hsrc
    obtain ⟨alt, halt⟩ := Option.ne_none_iff_exists'.1 halt
    have himage : slotOf env (localName "image" b.index) = .link address := by
      refine (h.bound ⟨_, .urlOr id _⟩ (List.mem_cons_self ..)).trans ?_
      rw [haddress]
      refine evaluate_urlOr (find?_of_url h.holds hid (by decide) fun f _ hf => ?_)
      rw [elementValue?, hf]
      exact haddress
    have haltVar {altId : Text} (haltId : b.control? "alt_text" = some altId) :
        slotOf env (localName "alt_text" b.index) = .text alt := by
      refine (h.bound ⟨_, .settingOr altId _⟩ (List.mem_cons_of_mem _ (Option.mem_toList.2
        (Option.map_eq_some_iff.2 ⟨altId, haltId, rfl⟩)))).trans ?_
      rw [halt]
      refine evaluate_settingOr (find?_of_plain h.holds haltId (by decide) fun f _ hf => ?_)
      rw [elementValue?, hf]
      exact halt
    rw [previewParts_append, previewParts_startTagWith hname hattributes, ← hwhole]
    · simp [previewParts]
    · intro r hr
      rcases List.mem_cons.1 hr with rfl | hr
      · exact hasAttribute_of_attribute? has hattributes haddress
      · obtain ⟨_, _, rfl⟩ := Option.map_eq_some_iff.1 (Option.mem_toList.1 hr)
        exact hasAttribute_of_attribute? has hattributes halt
    · intro r hr a ha hname
      rcases List.mem_cons.1 hr with rfl | hr
      · change a.1 = "src".toList at hname
        change escapeUrl (slotOf env (localName "image" b.index)).asUrl = a.2
        rw [himage]
        exact escapeUrl_of_mem h.ordinary has ha (by simp [hname]) (hname ▸ haddress)
      · obtain ⟨altId, haltId, rfl⟩ := Option.map_eq_some_iff.1 (Option.mem_toList.1 hr)
        change a.1 = "alt".toList at hname
        change escapeText (slotOf env (localName "alt_text" b.index)).asText = a.2
        rw [haltVar haltId]
        exact escapeText_of_mem h.ordinary has ha (by simp [hname]) (hname ▸ halt)
  · simp at hsub

theorem shows_input (h : Settled values env whole b tag stop sub.bindings)
    (htag : b.element.tag = "input".toList) (hsub : inputSubstitution? tag b = some sub) :
    Shows values env whole tag stop sub := by
  unfold inputSubstitution? at hsub
  split at hsub
  · next id hid =>
    split at hsub
    · next hplaceholder =>
      obtain rfl := Option.some.inj hsub
      obtain ⟨hstop, hname, as, has, hattributes, hwhole⟩ :=
        exists_of_void h.standing (by rw [htag]; decide)
      refine ⟨hstop, ?_⟩
      rw [previewParts_append, previewParts_startTagWith hname hattributes, ← hwhole]
      · simp [previewParts]
      · intro r hr
        obtain rfl := List.mem_singleton.1 hr
        exact hplaceholder
      · intro r hr a ha hname
        obtain rfl := List.mem_singleton.1 hr
        change a.1 = "placeholder".toList at hname
        have hv : b.element.attribute? "placeholder" = some a.2 := by
          have := attribute?_of_mem h.ordinary.toWritable has ha (by rw [hname]; decide)
            (by rw [hname]; decide)
          rwa [hname] at this
        have hsetting : values.find? id = some (.text a.2) := by
          refine find?_of_plain h.holds hid (by decide) fun f _ hf => ?_
          rw [elementValue?, hf]
          exact hv
        change escapeText (settingText values id) = a.2
        rw [settingText_of_find? hsetting]
        exact escapeText_of_mem h.ordinary has ha (by simp [hname]) (hname ▸ hv)
    · simp at hsub
  · simp at hsub

/-- Whatever the planner puts in the place of an element shows what was written there. -/
theorem shows_of_substitution? (h : Settled values env whole b tag stop sub.bindings)
    (hkind : b.kind = ElementKind.classify b.element.tag b.template)
    (hsub : substitution? whole tag b = some sub) : Shows values env whole tag stop sub := by
  have htags := tagsOf_classify b.element.tag b.template
  rw [← hkind] at htags
  unfold substitution? at hsub
  cases hk : b.kind <;> rw [hk] at hsub htags
  case heading => exact shows_heading h htags hsub
  case anchor => exact shows_anchor h htags hsub
  case button => exact shows_button h htags hsub
  case image => exact shows_image h htags hsub
  case textContainer => exact shows_textContainer h hsub
  case input =>
    refine shows_input h (htags.resolve_right fun htextarea => ?_) hsub
    exact h.ordinary.notRaw (by rw [htextarea]; decide)
  case passthrough => simp at hsub

end

/-! ## The whole fragment -/

section

variable {values : Dictionary DefaultValue} {env : Dictionary Slot} {whole : Text}

/-- Where the elements stand as they are written, a plan shows the markup from where it begins. -/
theorem preview_planFrom {bs : List BoundElement}
    (hbs : ∀ b ∈ bs, Ordinary b.element ∧ Holds values b
      ∧ b.kind = ElementKind.classify b.element.tag b.template) {tags : List StartTag}
    {written a c : Nat} (hwritten : written ≤ a)
    (hsites : Sites whole a (bs.map (·.element)) tags c)
    (hbound : ∀ bd ∈ (planFrom whole written tags bs).bindings,
      slotOf env bd.var = bd.source.evaluate values) :
    previewParts values env (planFrom whole written tags bs).parts = whole.drop written := by
  induction bs generalizing tags written a with
  | nil => simp [planFrom, previewParts]
  | cons b bs ih =>
    rw [List.map_cons] at hsites
    cases hsites with
    | @cons _ _ stop _ _ tag tags hstart hstanding hrest =>
    have hbs' := fun b' hb' => hbs b' (List.mem_cons_of_mem b hb')
    have hnext : (tag :: tags).dropWhile (·.name != b.element.tag) = tag :: tags :=
      List.dropWhile_cons_of_neg (by simp [hstanding.name])
    have hahead : ¬ tag.start < written := Nat.not_lt.2 (Nat.le_trans hwritten hstart)
    rw [planFrom, hnext] at hbound ⊢
    simp only [if_neg hahead] at hbound ⊢
    cases hsub : substitution? whole tag b with
    | none =>
      rw [hsub] at hbound
      exact ih hbs' (Nat.le_trans (Nat.not_lt.1 hahead) hstanding.start_le) hrest hbound
    | some sub =>
      rw [hsub] at hbound
      obtain ⟨hordinary, hholds, hkind⟩ := hbs b (List.mem_cons_self ..)
      have hsettled : Settled values env whole b tag stop sub.bindings :=
        { ordinary := hordinary, holds := hholds, standing := hstanding
          bound := fun bd hbd => hbound bd (List.mem_append_left _ hbd) }
      obtain ⟨rfl, hshows⟩ := shows_of_substitution? hsettled hkind hsub
      have hothers := ih hbs' (Nat.le_refl _) hrest fun bd hbd =>
        hbound bd (List.mem_append_right _ hbd)
      simp only [List.cons_append, previewParts, previewParts_append]
      rw [hshows, hothers, slice_append_drop hstanding.start_le,
        slice_append_drop (Nat.not_lt.1 hahead)]

/-- A plan of a forest shows the markup as which the forest is written, whenever the controls hold
what the elements give. -/
theorem preview_of_holds {forest : List Element} (hwrites : Writes forest whole)
    (hforest : ∀ e ∈ Element.preorderAll forest, Ordinary e) (catalog : Catalog)
    (hholds : ∀ b ∈ bindForest catalog forest, Holds values b) :
    (planRender whole (bindForest catalog forest)).preview values = whole := by
  have hmap := map_element_bindFrom catalog 0 (Element.preorderAll forest)
  have hindex : ((bindForest catalog forest).map (·.index)).Nodup := by
    rw [bindForest, map_index_bindFrom]
    exact List.nodup_range'
  have hsites := sites_of_writes hwrites fun e he => (hforest e he).toWritable
  rw [← hmap] at hsites
  rw [Plan.preview, planRender, previewParts_mergeMarkup]
  refine (preview_planFrom (fun b hb => ⟨?_, hholds b hb, (of_mem_bindFrom hb).2⟩) (Nat.le_refl 0)
    hsites fun bd hbd => slotOf_environment values (nodup_bindings hindex) hbd).trans ?_
  · exact hforest _ (hmap ▸ List.mem_map_of_mem hb)
  · rfl

end

/-- With every control at its default, the plan of a forest shows the markup as which the forest is
written. -/
theorem preview_defaults {forest : List Element} {markup : Text} (hwrites : Writes forest markup)
    (hforest : ∀ e ∈ Element.preorderAll forest, Ordinary e) (css js : Text) :
    (planRender markup (bindForest Catalog.builtin forest)).preview
        (defaultsOf ((bindForest Catalog.builtin forest).flatMap elementSections)) = markup
      ∧ (planRender markup (bindForest Catalog.builtin forest)).preview
        (defaultsOf ((bindForest Catalog.builtin forest).flatMap elementSections
          ++ [customCodeSection css js])) = markup := by
  have hindex : ((bindForest Catalog.builtin forest).map (·.index)).Nodup := by
    rw [bindForest, map_index_bindFrom]
    exact List.nodup_range'
  have hregular : ∀ b ∈ bindForest Catalog.builtin forest, b.template.Regular := fun b hb =>
    (of_mem_bindFrom hb).1 ▸ Catalog.regular_builtin b.element.tag
  have holds (more : List Section) (hmore : (controlIdsOf more).Nodup)
      (hdigits : ∀ id ∈ controlIdsOf more, digitFree id = true) :
      ∀ b ∈ bindForest Catalog.builtin forest, Holds (defaultsOf
        ((bindForest Catalog.builtin forest).flatMap elementSections ++ more)) b := fun b hb =>
    ⟨hregular b hb, fun _ hf => find?_defaults (nodup_ids hindex hregular hmore hdigits) hb hf⟩
  constructor
  · have := holds [] (by simp [controlIdsOf]) (by simp [controlIdsOf])
    rw [List.append_nil] at this
    exact preview_of_holds hwrites hforest _ this
  · have hids : controlIdsOf [customCodeSection css js] = ["custom_css", "custom_js"] := rfl
    exact preview_of_holds hwrites hforest _
      (holds _ (by rw [hids]; decide) (by rw [hids]; decide))

/-- A card with a title, a link and an image. -/
def card : Element :=
  let title := Element.make "h3" [] none (some "Plan") [] []
  let link := Element.make "a" ["btn"] none (some "Fish & Chips") [("href", "/buy")] []
  let logo := Element.make "img" [] none none [("alt", "Logo"), ("src", "a.png")] []
  Element.make "div" ["card"] none none [] [title, link, logo]

/-- The card as it is written. -/
def cardMarkup : Text :=
  "<div class=\"card\">\n  <h3>Plan</h3><a href=\"/buy\" class=\"btn\">Fish &amp; Chips</a>".toList
    ++ "<img alt=\"Logo\" src=\"a.png\" />\n</div>".toList

theorem preview_defaults_card :
    (planRender cardMarkup (bindForest Catalog.builtin [card])).preview
        (defaultsOf ((bindForest Catalog.builtin [card]).flatMap elementSections)) = cardMarkup
      ∧ (planRender cardMarkup (bindForest Catalog.builtin [card])).preview
        (defaultsOf ((bindForest Catalog.builtin [card]).flatMap elementSections
          ++ [customCodeSection [] []])) = cardMarkup := by
  refine preview_defaults ?_ ?_ [] []
  · have htitle : List.Perm [] card.children[0]!.carried := by decide
    have hlink : List.Perm [("href".toList, "/buy".toList), ("class".toList, "btn".toList)]
      card.children[1]!.carried := by decide
    have hlogo : List.Perm [("alt".toList, "Logo".toList), ("src".toList, "a.png".toList)]
      card.children[2]!.carried := by decide
    have hcard : List.Perm [("class".toList, "card".toList)] card.carried := by decide
    have hinner := Writes.gap (t := "\n  ") (by decide) <|
      .leaf (by decide) (by decide) htitle <| .leaf (by decide) (by decide) hlink <|
      .void (by decide) hlogo true <| .gap (t := "\n") (by decide) .nil
    exact .parent (by decide) (by decide) hcard hinner .nil
  · decide

end WidgetCompiler.Render
