import WidgetCompiler.Proofs.Render.Outline
import WidgetCompiler.Proofs.Render.Spans

/-!
# The values in a plan come from its elements

Whatever a plan asks for is drawn from an element: the names that it binds are made of a stem and
the number of the element, the ids are those of the element's controls, and what stands in for a
missing value is the tag of the element, the value of one of its attributes, or one of two fixed
texts.  `drawn_planRender` says so for any properties that these have.
-/

namespace WidgetCompiler.Render

open Text Markup

/-- The stems of the names that plans bind. -/
def stems : List Text :=
  ["heading_text", "html_tag", "link", "link_url", "button_link", "image", "alt_text"]

section

variable (name id fallback : Text → Prop)

/-- A value is made of names and ids of the given kinds. -/
def Value.Drawn : Value → Prop
  | .setting i => id i
  | .var n => name n
  | .url n => name n

/-- A source is made of ids and fallbacks of the given kinds. -/
def Source.Drawn : Source → Prop
  | .setting i => id i
  | .settingOr i f => id i ∧ fallback f
  | .linkOrNull i => id i
  | .urlOr i f => id i ∧ fallback f

/-- A binding is made of names, ids and fallbacks of the given kinds. -/
def Binding.Drawn (b : Binding) : Prop := name b.var ∧ b.source.Drawn id fallback

/-- All that an element supplies is of the given kinds. -/
structure Supplies (b : BoundElement) : Prop where
  locals : ∀ stem ∈ stems, name (localName stem b.index)
  control : ∀ {field i : Text}, b.control? field = some i → id i
  tag : fallback b.element.tag
  attributes : ∀ {a v : Text}, b.element.attribute? a = some v → fallback v
  empty : fallback []
  hash : fallback "#"

/-- All that parts and bindings are made of is of the given kinds. -/
structure Drawn (bindings : List Binding) (parts : List Part) : Prop where
  bindings : ∀ b ∈ bindings, b.Drawn name id fallback
  values : ∀ v ∈ valuesIn parts, v.Drawn name id

variable {name id fallback}

theorem valuesIn_flatMap {α : Type} (f : α → List Part) (l : List α) :
    valuesIn (l.flatMap f) = l.flatMap fun a => valuesIn (f a) := by
  induction l with
  | nil => simp [valuesIn]
  | cons a l ih => simp [valuesIn_append, ih]

theorem valuesIn_startTagWith {tag : StartTag} {rs : List Replacement} {v : Value}
    (hv : v ∈ valuesIn (startTagWith tag rs)) : ∃ r ∈ rs, v = r.value := by
  have hparts (r : Replacement) : valuesIn r.parts = [r.value] := by
    simp [Replacement.parts, valuesIn]
  rw [startTagWith, List.cons_append, valuesIn, valuesIn_append, valuesIn_flatMap,
    valuesIn_flatMap] at hv
  rcases List.mem_append.1 hv with hv | hv
  · obtain ⟨a, -, ha⟩ := List.mem_flatMap.1 hv
    split at ha
    · next r hr => exact ⟨r, List.mem_of_find?_eq_some hr, by simpa [hparts] using ha⟩
    · simp [valuesIn] at ha
  · obtain ⟨r, hr, hv⟩ := List.mem_flatMap.1 hv
    exact ⟨r, List.mem_of_mem_filter hr, by simpa [hparts] using hv⟩

theorem valuesIn_textReplaced (markup : Text) (tag : StartTag) (innerStop stop : Nat)
    (textId : Text) : valuesIn (textReplaced markup tag innerStop stop textId)
      = [.setting textId] := by
  simp [textReplaced, valuesIn]

/-- A link asks for the name that it is bound to. -/
theorem mem_valuesIn_wrapInLink {var : Option Text} {inner : List Part} {v : Value}
    (hv : v ∈ valuesIn (wrapInLink var inner)) :
    v ∈ valuesIn inner ∨ ∃ n ∈ var, v = .var n ∨ v = .url n := by
  cases var with
  | none => exact .inl hv
  | some n =>
    simp only [wrapInLink, linkOpen, List.cons_append, valuesIn, valuesIn_append, List.mem_cons,
      List.mem_append, List.not_mem_nil, or_false, false_or] at hv
    rcases hv with rfl | rfl | rfl | hv | rfl
    · exact .inr ⟨n, rfl, .inl rfl⟩
    · exact .inr ⟨n, rfl, .inr rfl⟩
    · exact .inr ⟨n, rfl, .inl rfl⟩
    · exact .inl hv
    · exact .inr ⟨n, rfl, .inl rfl⟩

/-- A heading asks for what stands in the place of its name, and for its text. -/
theorem mem_valuesIn_heading {s t u w : Text} {part text : Part} {v : Value}
    (hv : v ∈ valuesIn [.markup s, part, .markup t, text, .markup u, part, .markup w]) :
    v ∈ valuesIn [part] ∨ v ∈ valuesIn [text] := by
  have hcons (p : Part) (ps : List Part) : valuesIn (p :: ps) = valuesIn [p] ++ valuesIn ps :=
    valuesIn_append [p] ps
  have hmarkup (t : Text) : valuesIn [.markup t] = [] := by simp [valuesIn]
  rw [hcons, hcons part, hcons _ (text :: _), hcons text, hcons _ (part :: _),
    hcons part [.markup _]] at hv
  simp only [hmarkup, List.nil_append, List.append_nil, List.mem_append] at hv
  rcases hv with hv | hv | hv
  · exact .inl hv
  · exact .inr hv
  · exact .inl hv

/-! ## The kinds of elements -/

section Kinds

variable {markup : Text} {tag : StartTag} {b : BoundElement} {sub : Substitution}

theorem Supplies.getD (hb : Supplies name id fallback b) (a : Text) {d : Text} (hd : fallback d) :
    fallback ((b.element.attribute? a).getD d) := by
  cases ha : b.element.attribute? a with
  | none => exact hd
  | some v => exact hb.attributes ha

theorem drawn_textContainer (hb : Supplies name id fallback b)
    (h : textContainerSubstitution? markup tag b = some sub) :
    Drawn name id fallback sub.bindings sub.parts := by
  unfold textContainerSubstitution? at h
  split at h
  · next htext _ =>
    obtain rfl := Option.some.inj h
    refine ⟨by simp, fun v hv => ?_⟩
    rw [valuesIn_textReplaced, List.mem_singleton] at hv
    subst hv
    exact hb.control htext
  · simp at h

theorem drawn_heading (hb : Supplies name id fallback b)
    (h : headingSubstitution? markup tag b = some sub) :
    Drawn name id fallback sub.bindings sub.parts := by
  unfold headingSubstitution? at h
  split at h
  · next htext _ =>
    obtain rfl := Option.some.inj h
    refine ⟨fun bd hbd => ?_, fun v hv => ?_⟩
    · simp only [List.cons_append, List.mem_cons, List.mem_append, Option.mem_toList,
        Option.map_eq_some_iff] at hbd
      rcases hbd with rfl | ⟨i, hi, rfl⟩ | ⟨i, hi, rfl⟩
      · exact ⟨hb.locals _ (by decide), hb.control htext⟩
      · exact ⟨hb.locals _ (by decide), hb.control hi, hb.tag⟩
      · exact ⟨hb.locals _ (by decide), hb.control hi⟩
    · rcases mem_valuesIn_wrapInLink hv with hv | ⟨n, hn, hv⟩
      · rcases mem_valuesIn_heading hv with hv | hv
        · split at hv
          · obtain rfl : v = .var _ := by simpa [valuesIn] using hv
            exact hb.locals _ (by decide)
          · simp [valuesIn] at hv
        · obtain rfl : v = .var _ := by simpa [valuesIn] using hv
          exact hb.locals _ (by decide)
      · obtain ⟨_, _, rfl⟩ := Option.map_eq_some_iff.1 hn
        rcases hv with rfl | rfl <;> exact hb.locals _ (by decide)
  · simp at h

theorem drawn_anchor (hb : Supplies name id fallback b)
    (h : anchorSubstitution? markup tag b = some sub) :
    Drawn name id fallback sub.bindings sub.parts := by
  unfold anchorSubstitution? at h
  split at h
  · next textId _ _ htext _ =>
    split at h
    · next i hi =>
      obtain rfl := Option.some.inj h
      refine ⟨fun bd hbd => ?_, fun v hv => ?_⟩
      · obtain rfl := List.mem_singleton.1 hbd
        exact ⟨hb.locals _ (by decide), hb.control hi, hb.getD _ hb.hash⟩
      · simp only [valuesIn_append, List.mem_append] at hv
        rcases hv with (hv | hv) | hv
        · obtain ⟨r, hr, rfl⟩ := valuesIn_startTagWith hv
          obtain rfl := List.mem_singleton.1 hr
          exact hb.locals _ (by decide)
        · split at hv
          · simp [valuesIn] at hv
          · obtain rfl : v = .var (localName "link_url" b.index) := by simpa [valuesIn] using hv
            exact hb.locals _ (by decide)
        · obtain rfl : v = .setting textId := by simpa [valuesIn] using hv
          exact hb.control htext
    · obtain rfl := Option.some.inj h
      refine ⟨by simp, fun v hv => ?_⟩
      simp only [valuesIn_append, List.mem_append] at hv
      rcases hv with hv | hv
      · obtain ⟨r, hr, -⟩ := valuesIn_startTagWith hv
        simp at hr
      · obtain rfl : v = .setting textId := by simpa [valuesIn] using hv
        exact hb.control htext
  · simp at h

theorem drawn_button (hb : Supplies name id fallback b)
    (h : buttonSubstitution? markup tag b = some sub) :
    Drawn name id fallback sub.bindings sub.parts := by
  unfold buttonSubstitution? at h
  split at h
  · next htext _ =>
    obtain rfl := Option.some.inj h
    refine ⟨fun bd hbd => ?_, fun v hv => ?_⟩
    · simp only [Option.mem_toList, Option.map_eq_some_iff] at hbd
      obtain ⟨i, hi, rfl⟩ := hbd
      exact ⟨hb.locals _ (by decide), hb.control hi⟩
    · rcases mem_valuesIn_wrapInLink hv with hv | ⟨n, hn, hv⟩
      · rw [valuesIn_textReplaced, List.mem_singleton] at hv
        subst hv
        exact hb.control htext
      · obtain ⟨_, _, rfl⟩ := Option.map_eq_some_iff.1 hn
        rcases hv with rfl | rfl <;> exact hb.locals _ (by decide)
  · simp at h

theorem drawn_image (hb : Supplies name id fallback b)
    (h : imageSubstitution? tag b = some sub) :
    Drawn name id fallback sub.bindings sub.parts := by
  unfold imageSubstitution? at h
  split at h
  · next i hi =>
    obtain rfl := Option.some.inj h
    refine ⟨fun bd hbd => ?_, fun v hv => ?_⟩
    · simp only [List.mem_cons, Option.mem_toList, Option.map_eq_some_iff] at hbd
      rcases hbd with rfl | ⟨j, hj, rfl⟩
      · exact ⟨hb.locals _ (by decide), hb.control hi, hb.getD _ hb.empty⟩
      · exact ⟨hb.locals _ (by decide), hb.control hj, hb.getD _ hb.empty⟩
    · simp only [valuesIn_append, valuesIn, List.append_nil] at hv
      obtain ⟨r, hr, rfl⟩ := valuesIn_startTagWith hv
      simp only [List.mem_cons, Option.mem_toList, Option.map_eq_some_iff] at hr
      rcases hr with rfl | ⟨j, -, rfl⟩ <;> exact hb.locals _ (by decide)
  · simp at h

theorem drawn_input (hb : Supplies name id fallback b)
    (h : inputSubstitution? tag b = some sub) :
    Drawn name id fallback sub.bindings sub.parts := by
  unfold inputSubstitution? at h
  split at h
  · next i hi =>
    split at h
    · obtain rfl := Option.some.inj h
      refine ⟨by simp, fun v hv => ?_⟩
      simp only [valuesIn_append, valuesIn, List.append_nil] at hv
      obtain ⟨r, hr, rfl⟩ := valuesIn_startTagWith hv
      obtain rfl := List.mem_singleton.1 hr
      exact hb.control hi
    · simp at h
  · simp at h

theorem drawn_of_substitution? (hb : Supplies name id fallback b)
    (h : substitution? markup tag b = some sub) :
    Drawn name id fallback sub.bindings sub.parts := by
  unfold substitution? at h
  split at h
  · simp at h
  · exact drawn_textContainer hb h
  · exact drawn_heading hb h
  · exact drawn_anchor hb h
  · exact drawn_button hb h
  · exact drawn_image hb h
  · exact drawn_input hb h

end Kinds

/-! ## Whole plans -/

theorem valuesIn_woven {markup : Text} (written : Nat) (xs : List (Exchange markup)) :
    valuesIn (woven written xs) = xs.flatMap fun x => valuesIn x.result.parts := by
  induction xs generalizing written with
  | nil => simp [woven, valuesIn]
  | cons x xs ih => simp [woven, valuesIn, valuesIn_append, ih]

/-- All that the plan of a fragment is made of is drawn from its elements. -/
theorem drawn_planRender {markup : Text} {bs : List BoundElement}
    (hbs : ∀ b ∈ bs, Supplies name id fallback b) :
    Drawn name id fallback (planRender markup bs).bindings (planRender markup bs).parts := by
  obtain ⟨xs, hxs⟩ := exists_accounts_planRender markup bs
  have hdrawn (x : Exchange markup) (hx : x ∈ xs) :
      Drawn name id fallback x.result.bindings x.result.parts :=
    drawn_of_substitution? (hbs x.element (hxs.elements.subset (List.mem_map_of_mem hx))) x.made
  refine ⟨fun bd hbd => ?_, fun v hv => ?_⟩
  · rw [planRender, hxs.bindings] at hbd
    obtain ⟨x, hx, hbd⟩ := List.mem_flatMap.1 hbd
    exact (hdrawn x hx).bindings bd hbd
  · rw [planRender, valuesIn_mergeMarkup, hxs.parts, valuesIn_woven] at hv
    obtain ⟨x, hx, hv⟩ := List.mem_flatMap.1 hv
    exact (hdrawn x hx).values v hv

end

end WidgetCompiler.Render
