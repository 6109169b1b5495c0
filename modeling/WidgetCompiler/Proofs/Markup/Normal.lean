import WidgetCompiler.Proofs.Markup.Building
import WidgetCompiler.Proofs.Text.Pieces

/-!
# Elements in normal form

An element that was made by `Element.make` from what was read has distinct classes that are words, no
blank id, and a text without blanks around it.  `Element.Normal` asks this of an element, and that nothing
in it would be read as a tag or a reference.

`Element.carried` is what the start tag of an element has to carry; `Orders` allows any order of it.  From
such attributes the element is made again (`Element.Normal.make_eq`).
-/

namespace WidgetCompiler.Markup

open Text Construction

/-! ## Forests in normal form -/

/-- Attributes are those of an element in some order: its id, its classes and the others, which stay in
their order. -/
structure Orders (as : List (Text × Text)) (e : Element) : Prop where
  perm : as.Perm e.carried
  others : as.filter (fun a => a.1 != ("class" : Text) && a.1 != ("id" : Text)) = e.attributes

/-- A block that is read as it is written: in small letters, with distinct classes that are words, an id
and a text without blanks around them, and nothing that would be read as a tag or a reference. -/
@[mk_iff]
structure Element.Normal (e : Element) : Prop where
  tag : e.tag ∈ blocks
  classes : ∀ t ∈ e.classes, t ≠ [] ∧ (∀ c ∈ t, isBlank c = false) ∧ Literal t
  distinct : e.classes.Nodup
  id : ∀ t ∈ e.id, t ≠ [] ∧ trim t = t ∧ Literal t
  text : ∀ t ∈ e.text, t ≠ [] ∧ trim t = t ∧ Literal t
  attributes : ∀ a ∈ e.attributes, isSmallName a.1 = true ∧ a.1 ∉ [("class" : Text), "id"] ∧ Literal a.2
  once : (e.attributes.map (·.1)).Nodup
  selector : e.selector = e.derivedSelector

instance (e : Element) : Decidable e.Normal := decidable_of_iff' _ (Element.normal_iff e)

/-- Where every name stands once, attributes are found in any order. -/
theorem lookup_of_perm {as bs : List (Text × Text)} (h : as.Perm bs) (honce : (bs.map (·.1)).Nodup)
    (name : Text) : as.lookup name = bs.lookup name := by
  induction h with
  | nil => rfl
  | cons a _ ih =>
    rw [List.map_cons, List.nodup_cons] at honce
    rw [List.lookup_cons, List.lookup_cons, ih honce.2]
  | swap a b l =>
    have hne : a.1 ≠ b.1 := by
      rw [List.map_cons, List.map_cons, List.nodup_cons, List.mem_cons] at honce
      exact fun heq => honce.1 (.inl heq)
    rw [List.lookup_cons, List.lookup_cons, List.lookup_cons, List.lookup_cons]
    cases ha : name == a.1 with
    | false => rfl
    | true =>
      have hb : (name == b.1) = false :=
        beq_eq_false_iff_ne.2 fun heq => hne ((beq_iff_eq.1 ha).symm.trans heq)
      rw [hb]
  | trans _ h₂ ih₁ ih₂ =>
    have hmiddle := (h₂.map (·.1)).nodup_iff.2 honce
    rw [ih₁ hmiddle, ih₂ honce]

namespace Element.Normal

variable {e : Element} {as : List (Text × Text)}

/-- What a start tag carries can be read. -/
theorem carried (h : e.Normal) : ∀ a ∈ e.carried, isSmallName a.1 = true ∧ Literal a.2 := by
  intro a ha
  rw [Element.carried, List.mem_append, List.mem_append] at ha
  rcases ha with (ha | ha) | ha
  · cases hid : e.id with
    | none => simp [hid] at ha
    | some id =>
      obtain rfl : a = (("id" : Text), id) := by simpa [hid] using ha
      exact ⟨rfl, (h.id id (by simp [hid])).2.2⟩
  · by_cases hnone : e.classes = []
    · simp [hnone] at ha
    · obtain rfl : a = (("class" : Text), join [' '] e.classes) := by simpa [hnone] using ha
      refine ⟨rfl, fun c hc => ?_⟩
      rcases mem_join hc with hc | ⟨t, ht, hc⟩
      · obtain rfl := List.mem_singleton.1 hc
        decide
      · exact (h.classes t ht).2.2 c hc
  · exact ⟨(h.attributes a ha).1, (h.attributes a ha).2.2⟩

/-- Each name stands there once. -/
theorem nodup_carried (h : e.Normal) : (e.carried.map (·.1)).Nodup := by
  have hother : ∀ name : Text, name ∈ e.attributes.map (·.1) → name ≠ "id" ∧ name ≠ "class" := by
    intro name hname
    obtain ⟨a, ha, rfl⟩ := List.mem_map.1 hname
    have hnames := (h.attributes a ha).2.1
    exact ⟨fun hid => hnames (by rw [hid]; decide), fun hclass => hnames (by rw [hclass]; decide)⟩
  have hid : ∀ id : Option Text, ((id.map fun id => (("id" : Text), id)).toList).map (·.1)
      = if id.isSome then [("id" : Text)] else [] := by
    rintro (_ | _) <;> rfl
  have hclass : (if e.classes.isEmpty then [] else [(("class" : Text), join [' '] e.classes)]).map (·.1)
      = if e.classes.isEmpty then [] else [("class" : Text)] := by
    split <;> rfl
  rw [Element.carried, List.map_append, List.map_append, hid, hclass]
  refine List.nodup_append.2 ⟨?_, h.once, ?_⟩
  · split <;> split <;> simp
  · rintro name hname _ hname' rfl
    obtain ⟨hid, hclass⟩ := hother _ hname'
    rcases List.mem_append.1 hname with hname | hname
    · split at hname
      · exact hid (List.mem_singleton.1 hname)
      · simp at hname
    · split at hname
      · simp at hname
      · exact hclass (List.mem_singleton.1 hname)

theorem lookup_id_carried (h : e.Normal) : e.carried.lookup ("id" : Text) = e.id := by
  have hnone : e.attributes.lookup ("id" : Text) = none := by
    refine List.lookup_eq_none_iff.2 fun a ha => ?_
    have hname : a.1 ≠ "id" := fun hid => (h.attributes a ha).2.1 (by rw [hid]; decide)
    simpa using Ne.symm hname
  have hclass : (if e.classes.isEmpty then []
      else [(("class" : Text), join [' '] e.classes)]).lookup ("id" : Text) = none := by
    split <;> rfl
  rw [Element.carried, List.lookup_append, List.lookup_append, hnone, hclass]
  cases e.id <;> rfl

theorem lookup_class_carried (h : e.Normal) :
    ((e.carried.lookup ("class" : Text)).map words).getD [] = e.classes := by
  have hnone : e.attributes.lookup ("class" : Text) = none := by
    refine List.lookup_eq_none_iff.2 fun a ha => ?_
    have hname : a.1 ≠ "class" := fun hclass => (h.attributes a ha).2.1 (by rw [hclass]; decide)
    simpa using Ne.symm hname
  have hid : ((e.id.map fun id => (("id" : Text), id)).toList).lookup ("class" : Text) = none := by
    cases e.id <;> rfl
  have hwords : words (join [' '] e.classes) = e.classes :=
    words_join fun t ht => ⟨(h.classes t ht).1, (h.classes t ht).2.1⟩
  rw [Element.carried, List.lookup_append, List.lookup_append, hnone, hid]
  cases hclasses : e.classes with
  | nil => rfl
  | cons t ts =>
    rw [hclasses] at hwords
    exact hwords

/-- The parts of an element, as they are read, make the element. -/
theorem make_eq (h : e.Normal) (has : Orders as e) :
    make e.tag (((as.lookup "class".toList).map words).getD []) ((as.lookup "id".toList).map trim)
      (some (e.text.getD []))
      (as.filter fun a => a.1 != "class".toList && a.1 != "id".toList) e.children = e := by
  have htag : lowerAscii e.tag = e.tag := lowerAscii_of_isSmallName (isSmallName_of_mem_blocks h.tag)
  have hclasses : ((as.lookup ("class" : Text)).map words).getD [] = e.classes := by
    rw [lookup_of_perm has.perm h.nodup_carried, h.lookup_class_carried]
  have hkept : e.classes.filter (! ·.isEmpty) = e.classes :=
    List.filter_eq_self.2 fun t ht => by simpa using (h.classes t ht).1
  have hid : ((as.lookup ("id" : Text)).map trim).filter (! allBlank ·) = e.id := by
    rw [lookup_of_perm has.perm h.nodup_carried, h.lookup_id_carried]
    cases hid : e.id with
    | none => rfl
    | some t =>
      obtain ⟨hne, htrim, -⟩ := h.id t hid
      have hblank : allBlank t = false :=
        Bool.eq_false_iff.2 fun hblank => hne (htrim ▸ trim_of_allBlank hblank)
      simp [htrim, hblank]
  have htext : ((some (e.text.getD [])).map trim).filter (! ·.isEmpty) = e.text := by
    cases htext : e.text with
    | none => rfl
    | some t =>
      obtain ⟨hne, htrim, -⟩ := h.text t htext
      simp [htrim, hne]
  have hmade : make e.tag (((as.lookup "class".toList).map words).getD [])
      ((as.lookup "id".toList).map trim) (some (e.text.getD []))
      (as.filter fun a => a.1 != "class".toList && a.1 != "id".toList) e.children
      = ⟨e.tag, e.classes, e.id, e.text, e.attributes, e.children, e.derivedSelector⟩ := by
    rw [make, htag, hclasses, hkept, distinct_of_nodup h.distinct, hid, htext, has.others,
      derivedSelector]
  rw [hmade, ← h.selector]
  cases e
  rfl

/-- The order in which `Element.carried` lists the attributes is one. -/
theorem orders_carried (h : e.Normal) : Orders e.carried e where
  perm := .refl _
  others := by
    have hothers : e.attributes.filter (fun a => a.1 != ("class" : Text) && a.1 != ("id" : Text))
        = e.attributes := by
      refine List.filter_eq_self.2 fun a ha => ?_
      have hnames := (h.attributes a ha).2.1
      simp only [List.mem_cons, List.not_mem_nil, or_false, not_or] at hnames
      rw [Bool.and_eq_true, bne_iff_ne, bne_iff_ne]
      exact hnames
    have hid : ((e.id.map fun id => (("id" : Text), id)).toList).filter
        (fun a => a.1 != ("class" : Text) && a.1 != ("id" : Text)) = [] := by
      cases e.id <;> rfl
    have hclass : (if e.classes.isEmpty then []
        else [(("class" : Text), join [' '] e.classes)]).filter
        (fun a => a.1 != ("class" : Text) && a.1 != ("id" : Text)) = [] := by
      split <;> rfl
    rw [Element.carried, List.filter_append, List.filter_append, hid, hclass, hothers,
      List.nil_append, List.nil_append]

end Element.Normal

end WidgetCompiler.Markup
