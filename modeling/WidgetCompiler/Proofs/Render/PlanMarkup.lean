import WidgetCompiler.Proofs.Render.Outline
import WidgetCompiler.Proofs.Render.Spans

/-!
# The markup in a plan comes from the fragment

A plan puts pieces of the fragment's markup together with a few fixed ones (`fixedMarkup`).  What
is said of markup here is any property that goes over to pieces of a text and that is kept where
two texts meet at the edge of a tag or at a space (`Inherited`).  If the fragment has such a
property, the outline of the fragment with exchanges in it has it too, and so has every piece of
markup in its plan (`outline_woven`, `of_mem_planRender`).
-/

namespace WidgetCompiler.Render

open Text Markup

/-- Two texts meet behind a tag or a space, or before something that ends a name. -/
def Neutral (s t : Text) : Prop :=
  (∀ c ∈ s.getLast?, c = '>' ∨ c = ' ') ∨ ∀ c ∈ t.head?, c = ' ' ∨ c = '<' ∨ c = '>'

/-- The markup that plans bring along, with a space for each value. -/
def fixedMarkup : List Text :=
  [" ", ">", " />", "</a>", "<a href=\" \" >", " href=\" \"", " src=\" \"", " alt=\" \"",
    " placeholder=\" \""]

/-- A property of markup that goes over from a fragment to what is made of it. -/
structure Inherited (P : Text → Prop) : Prop where
  of_infix : ∀ {s t : Text}, P t → s <:+: t → P s
  append : ∀ {s t : Text}, P s → P t → Neutral s t → P (s ++ t)
  fixed : ∀ t ∈ fixedMarkup, P t
  endTag : ∀ {name : Text}, name.all isTagNamePart = true → P ('<' :: name) →
    P ('<' :: '/' :: name)

/-- A text with a property that begins and ends at the edge of a tag, or with a space. -/
structure Framed (P : Text → Prop) (t : Text) : Prop where
  holds : P t
  head : ∃ c ∈ t.head?, c = '<' ∨ c = ' '
  last : ∃ c ∈ t.getLast?, c = '>' ∨ c = ' '

theorem outline_append (a b : List Part) : outline (a ++ b) = outline a ++ outline b := by
  induction a with
  | nil => simp [outline]
  | cons p ps ih => cases p <;> simp [outline, ih]

theorem outline_flatMap {α : Type} (f : α → List Part) (l : List α) :
    outline (l.flatMap f) = l.flatMap fun a => outline (f a) := by
  induction l with
  | nil => simp [outline]
  | cons a l ih => simp [outline_append, ih]

section

variable {P : Text → Prop} {s t u : Text} {markup : Text} {tag : StartTag} {b : BoundElement}

namespace Framed

theorem neutral_left (h : Framed P s) : Neutral s t := by
  refine .inl fun c hc => ?_
  obtain ⟨d, hd, hd'⟩ := h.last
  obtain rfl : d = c := Option.mem_unique hd hc
  exact hd'

theorem neutral_right (h : Framed P t) : Neutral s (t ++ u) := by
  refine .inr fun c hc => ?_
  obtain ⟨d, hd, hd'⟩ := h.head
  rw [List.head?_append, Option.mem_def.1 hd] at hc
  obtain rfl : d = c := by simpa using hc
  rcases hd' with h | h
  · exact .inr (.inl h)
  · exact .inl h

theorem append (hP : Inherited P) (hs : Framed P s) (ht : Framed P t) : Framed P (s ++ t) where
  holds := hP.append hs.holds ht.holds hs.neutral_left
  head := by
    obtain ⟨c, hc, hc'⟩ := hs.head
    exact ⟨c, by rw [List.head?_append, Option.mem_def.1 hc]; rfl, hc'⟩
  last := by
    obtain ⟨c, hc, hc'⟩ := ht.last
    exact ⟨c, by rw [List.getLast?_append, Option.mem_def.1 hc]; rfl, hc'⟩

theorem space (hP : Inherited P) : Framed P [' '] :=
  ⟨hP.fixed [' '] (by decide), ⟨' ', rfl, .inr rfl⟩, ⟨' ', rfl, .inr rfl⟩⟩

/-- A piece of the markup from a `<` to a `>`. -/
theorem of_infix (hP : Inherited P) (hm : P markup) (h : '<' :: (t ++ ['>']) <:+: markup) :
    Framed P ('<' :: (t ++ ['>'])) :=
  ⟨hP.of_infix hm h, ⟨'<', rfl, .inl rfl⟩,
    ⟨'>', by rw [← List.cons_append, List.getLast?_concat]; rfl, .inl rfl⟩⟩

end Framed

/-- A piece of markup is written behind a text as long as it begins with a space or the end of a
tag. -/
theorem Inherited.append_of_head (hP : Inherited P) (hs : P s) (ht : P t)
    (h : ∀ c ∈ t.head?, c = ' ' ∨ c = '>') : P (s ++ t) := by
  refine hP.append hs ht (.inr fun c hc => ?_)
  rcases h c hc with h | h
  · exact .inl h
  · exact .inr (.inr h)

/-- Pieces that each begin with a space. -/
theorem Inherited.append_flatMap {α : Type} {f : α → Text} {l : List α} (hP : Inherited P)
    (hs : P s) (hf : ∀ a ∈ l, P (f a) ∧ (f a).head? = some ' ') : P (s ++ l.flatMap f) := by
  induction l generalizing s with
  | nil => simpa using hs
  | cons a l ih =>
    obtain ⟨ha, hhead⟩ := hf a (by simp)
    rw [List.flatMap_cons, ← List.append_assoc]
    refine ih (hP.append_of_head hs ha fun c hc => .inl ?_) fun b hb => hf b (by simp [hb])
    exact (Option.some.inj (hhead.symm.trans hc)).symm

/-! ## Parts of tags -/

theorem Framed.slice_tag (hP : Inherited P) (hm : P markup) (hs : Stands markup tag) :
    Framed P (slice markup tag.start tag.stop) := by
  obtain ⟨inner, h⟩ := hs.opens
  have := slice_infix markup tag.start tag.stop
  rw [h] at this ⊢
  exact Framed.of_infix hP hm this

theorem Framed.slice_endTag (hP : Inherited P) (hm : P markup) {start stop : Nat} {name : Text}
    (h : endTagEnd? markup start name = some stop) : Framed P (slice markup start stop) := by
  obtain ⟨inner, he⟩ := slice_of_endTagEnd? h
  have := slice_infix markup start stop
  rw [he] at this ⊢
  exact Framed.of_infix hP hm (t := '/' :: inner) this

theorem openName (hP : Inherited P) (hm : P markup) (hs : Stands markup tag) :
    P ('<' :: tag.rawName) := by
  obtain ⟨inner, h⟩ := hs.opens
  refine hP.of_infix hm (List.IsInfix.trans ?_ ( slice_infix markup tag.start tag.stop))
  rw [h]
  exact ⟨[], inner ++ ['>'], by simp⟩

theorem attribute_raw (hP : Inherited P) (hm : P markup) (hs : Stands markup tag)
    {a : RawAttribute} (ha : a ∈ tag.attributes) : P (' ' :: a.raw) :=
  hP.append (s := [' ']) (Framed.space hP).holds (hP.of_infix hm (hs.raw a ha))
    (Framed.space hP).neutral_left

/-- The attributes that can be given a value. -/
def replaceable : List Text := ["href", "src", "alt", "placeholder"]

theorem outline_replacement (r : Replacement) :
    outline r.parts = ' ' :: r.name ++ ("=\"" ++ " " ++ "\"" : Text) := by
  simp [Replacement.parts, outline]

theorem replacement_outline (hP : Inherited P) {r : Replacement} (hr : r.name ∈ replaceable) :
    P (outline r.parts) ∧ (outline r.parts).head? = some ' ' := by
  rw [outline_replacement]
  refine ⟨hP.fixed _ ?_, rfl⟩
  simp only [replaceable, List.mem_cons, List.not_mem_nil, or_false] at hr
  rcases hr with h | h | h | h <;> rw [h] <;> decide

/-- A start tag with values has the property, up to its end. -/
theorem outline_startTagWith (hP : Inherited P) (hm : P markup) (hs : Stands markup tag)
    {rs : List Replacement} (hrs : ∀ r ∈ rs, r.name ∈ replaceable) :
    P (outline (startTagWith tag rs)) ∧ ∃ rest, outline (startTagWith tag rs) = '<' :: rest := by
  rw [startTagWith, List.cons_append, outline, outline_append, outline_flatMap, outline_flatMap,
    ← List.append_assoc]
  refine ⟨hP.append_flatMap (hP.append_flatMap (openName hP hm hs) fun a ha => ?_) fun r hr => ?_,
    ⟨_, rfl⟩⟩
  · split
    · next r hr => exact replacement_outline hP (hrs r (List.mem_of_find?_eq_some hr))
    · simpa [outline] using attribute_raw hP hm hs ha
  · exact replacement_outline hP (hrs r (List.mem_of_mem_filter hr))

/-- A tag that was begun is closed by what begins with a space or with its `>`. -/
theorem Framed.of_open (hP : Inherited P) (hs : P s) (hopen : ∃ rest, s = '<' :: rest)
    (hhead : ∃ c ∈ t.head?, c = ' ' ∨ c = '>') (ht : P t)
    (hlast : ∃ c ∈ t.getLast?, c = '>' ∨ c = ' ') : Framed P (s ++ t) where
  holds := by
    obtain ⟨d, hd, hd'⟩ := hhead
    refine hP.append_of_head hs ht fun c hc => ?_
    obtain rfl : d = c := Option.mem_unique hd hc
    exact hd'
  head := by
    obtain ⟨rest, rfl⟩ := hopen
    exact ⟨'<', rfl, .inl rfl⟩
  last := by
    obtain ⟨c, hc, hc'⟩ := hlast
    exact ⟨c, by rw [List.getLast?_append, Option.mem_def.1 hc]; rfl, hc'⟩

/-! ## What takes the place of an element -/

/-- A link around something framed is framed, and so is the thing alone. -/
theorem Framed.wrapInLink (hP : Inherited P) (var : Option Text) {inner : List Part}
    (h : Framed P (outline inner)) : Framed P (outline (wrapInLink var inner)) := by
  cases var with
  | none => exact h
  | some var =>
    have hopen : Framed P "<a href=\" \" >" :=
      ⟨hP.fixed _ (by decide), ⟨'<', rfl, .inl rfl⟩, ⟨'>', rfl, .inl rfl⟩⟩
    have hclose : Framed P "</a>" :=
      ⟨hP.fixed _ (by decide), ⟨'<', rfl, .inl rfl⟩, ⟨'>', rfl, .inl rfl⟩⟩
    have hspace := Framed.space hP
    have := (hspace.append hP hopen).append hP ((hspace.append hP h).append hP
      ((hspace.append hP hclose).append hP hspace))
    simpa [Render.wrapInLink, linkOpen, outline, outline_append] using this

theorem framed_textReplaced (hP : Inherited P) (hm : P markup) (hs : Stands markup tag)
    {e : Element} {innerStop stop : Nat} (h : textSpan? markup tag e = some (innerStop, stop))
    (textId : Text) : Framed P (outline (textReplaced markup tag innerStop stop textId)) := by
  have hend := Framed.slice_endTag hP hm (endTagEnd?_of_textSpan? h)
  have := (Framed.slice_tag hP hm hs).append hP ((Framed.space hP).append hP hend)
  simpa [textReplaced, outline] using this

/-- A start tag with values, closed and with a value and an end tag behind it. -/
theorem framed_startTagWith (hP : Inherited P) (hm : P markup) (hs : Stands markup tag)
    {rs : List Replacement} (hrs : ∀ r ∈ rs, r.name ∈ replaceable) {ps : List Part}
    (hhead : ∃ c ∈ (outline ps).head?, c = ' ' ∨ c = '>') (hps : P (outline ps))
    (hlast : ∃ c ∈ (outline ps).getLast?, c = '>' ∨ c = ' ') :
    Framed P (outline (startTagWith tag rs ++ ps)) := by
  obtain ⟨hopen, hbegin⟩ := outline_startTagWith hP hm hs hrs
  rw [outline_append]
  exact Framed.of_open hP hopen hbegin hhead hps hlast

/-- A start tag with values, closed as it was. -/
theorem framed_tail (hP : Inherited P) (hm : P markup) (hs : Stands markup tag)
    {rs : List Replacement} (hrs : ∀ r ∈ rs, r.name ∈ replaceable) :
    Framed P (outline (startTagWith tag rs ++ [.markup tag.tail])) := by
  have htail : tag.tail = " />".toList ∨ tag.tail = ">".toList := by
    unfold StartTag.tail
    split
    · exact .inl rfl
    · exact .inr rfl
  rcases htail with h | h <;> rw [h]
  · exact framed_startTagWith hP hm hs hrs ⟨' ', by simp [outline], .inl rfl⟩
      (by simpa [outline] using hP.fixed " />" (by decide)) ⟨'>', by simp [outline], .inl rfl⟩
  · exact framed_startTagWith hP hm hs hrs ⟨'>', by simp [outline], .inr rfl⟩
      (by simpa [outline] using hP.fixed ">" (by decide)) ⟨'>', by simp [outline], .inl rfl⟩

/-- A heading, with its name or a value in the place of that. -/
theorem framed_heading (hP : Inherited P) (hm : P markup) (hs : Stands markup tag) {part : Part}
    (hpart : part = .markup tag.rawName ∨ outline [part] = [' ']) (text : Part)
    (htext : outline [text] = [' ']) :
    Framed P (outline [.markup "<", part, .markup (tag.attributesText ++ ">"), text, .markup "</",
      part, .markup ">"]) := by
  have hspace := Framed.space hP
  have houtline (p : Part) (ps : List Part) : outline (p :: ps) = outline [p] ++ outline ps :=
    outline_append [p] ps
  obtain ⟨hopen, hclose⟩ : P ('<' :: outline [part]) ∧ P ('<' :: '/' :: outline [part]) := by
    rcases hpart with rfl | h
    · have hname := openName hP hm hs
      simp only [outline, List.append_nil]
      exact ⟨hname, hP.endTag hs.named hname⟩
    · rw [h]
      have hlt : P ['<'] := hP.of_infix (hP.fixed "</a>" (by decide)) (by decide)
      have hslash : P ['<', '/'] := hP.of_infix (hP.fixed "</a>" (by decide)) (by decide)
      exact ⟨hP.append_of_head hlt hspace.holds (by simp),
        hP.append_of_head hslash hspace.holds (by simp)⟩
  have hgt : P ['>'] := hP.fixed _ (by decide)
  have hattributes : P ('<' :: outline [part] ++ tag.attributesText) :=
    hP.append_flatMap hopen fun a ha => ⟨attribute_raw hP hm hs ha, rfl⟩
  have hstart : Framed P ('<' :: outline [part] ++ tag.attributesText ++ ['>']) :=
    Framed.of_open hP hattributes ⟨_, rfl⟩ ⟨'>', rfl, .inr rfl⟩ hgt ⟨'>', rfl, .inl rfl⟩
  have hend : Framed P ('<' :: '/' :: outline [part] ++ ['>']) :=
    Framed.of_open hP hclose ⟨_, rfl⟩ ⟨'>', rfl, .inr rfl⟩ hgt ⟨'>', rfl, .inl rfl⟩
  have := hstart.append hP (hspace.append hP hend)
  rw [houtline, houtline part, houtline _ (text :: _), houtline text, houtline _ (part :: _),
    houtline part [.markup _], htext]
  simpa [outline] using this

/-- A start tag with values, closed before a value and the end tag behind the text. -/
theorem framed_startTagWith_text (hP : Inherited P) (hm : P markup) (hs : Stands markup tag)
    {rs : List Replacement} (hrs : ∀ r ∈ rs, r.name ∈ replaceable) {e : Element}
    {innerStop stop : Nat} (hspan : textSpan? markup tag e = some (innerStop, stop))
    {ps : List Part}
    (hps : outline ps = '>' :: ' ' :: slice markup innerStop stop
      ∨ outline ps = ' ' :: '>' :: ' ' :: slice markup innerStop stop) :
    Framed P (outline (startTagWith tag rs ++ ps)) := by
  have hend := Framed.slice_endTag hP hm (endTagEnd?_of_textSpan? hspan)
  have hspace := (Framed.space hP).holds
  have hgt : P ['>'] := hP.fixed _ (by decide)
  have hrest : P ('>' :: ' ' :: slice markup innerStop stop) :=
    hP.append (s := ['>', ' ']) (hP.append_of_head hgt hspace (by simp)) hend.holds
      (.inl (by simp))
  obtain ⟨c, hc, hc'⟩ := hend.last
  rw [Option.mem_def] at hc
  rcases hps with h | h
  · exact framed_startTagWith hP hm hs hrs ⟨'>', by rw [h]; rfl, .inr rfl⟩ (h ▸ hrest)
      ⟨c, by simp [h, List.getLast?_cons, hc], hc'⟩
  · have hlater : P (' ' :: '>' :: ' ' :: slice markup innerStop stop) :=
      hP.append (s := [' ']) hspace hrest (.inl (by simp))
    exact framed_startTagWith hP hm hs hrs ⟨' ', by rw [h]; rfl, .inl rfl⟩ (h ▸ hlater)
      ⟨c, by simp [h, List.getLast?_cons, hc], hc'⟩

/-- An anchor, with the attributes of a link between its own and its text, or without them. -/
theorem framed_anchor {sub : Substitution} (hP : Inherited P) (hm : P markup)
    (hs : Stands markup tag) (h : anchorSubstitution? markup tag b = some sub) :
    Framed P (outline sub.parts) := by
  unfold anchorSubstitution? at h
  split at h
  · next hspan =>
    split at h
    · obtain rfl := Option.some.inj h
      rw [List.append_assoc]
      refine framed_startTagWith_text hP hm hs (by simp [replaceable]) hspan ?_
      split
      · exact .inl (by simp [outline])
      · exact .inr (by simp [outline])
    · obtain rfl := Option.some.inj h
      exact framed_startTagWith_text hP hm hs (by simp) hspan (.inl (by simp [outline]))
  · simp at h

theorem framed_of_substitution? {sub : Substitution} (hP : Inherited P) (hm : P markup)
    (hs : Stands markup tag) (h : substitution? markup tag b = some sub) :
    Framed P (outline sub.parts) := by
  unfold substitution? at h
  split at h
  · simp at h
  · -- a text container
    unfold textContainerSubstitution? at h
    split at h
    · obtain rfl := Option.some.inj h
      exact framed_textReplaced hP hm hs ‹_› _
    · simp at h
  · -- a heading
    unfold headingSubstitution? at h
    split at h
    · obtain rfl := Option.some.inj h
      refine Framed.wrapInLink hP _ (framed_heading hP hm hs ?_ _ (by simp [outline]))
      split
      · exact .inr (by simp [outline])
      · exact .inl rfl
    · simp at h
  · -- an anchor
    exact framed_anchor hP hm hs h
  · -- a button
    unfold buttonSubstitution? at h
    split at h
    · obtain rfl := Option.some.inj h
      exact Framed.wrapInLink hP _ (framed_textReplaced hP hm hs ‹_› _)
    · simp at h
  · -- an image
    unfold imageSubstitution? at h
    split at h
    · obtain rfl := Option.some.inj h
      exact framed_tail hP hm hs (by cases b.control? "alt_text" <;> simp [replaceable])
    · simp at h
  · -- an input field
    unfold inputSubstitution? at h
    split at h
    · split at h
      · obtain rfl := Option.some.inj h
        exact framed_tail hP hm hs (by simp [replaceable])
      · simp at h
    · simp at h

/-! ## The whole fragment -/

/-- The outline of markup with exchanges in it has what the markup has. -/
theorem outline_woven (hP : Inherited P) (hm : P markup) (written : Nat)
    {xs : List (Exchange markup)} (hxs : ∀ x ∈ xs, Stands markup x.tag) :
    P (outline (woven written xs)) := by
  induction xs generalizing written with
  | nil =>
    simpa [woven, outline] using hP.of_infix hm (List.drop_suffix written markup).isInfix
  | cons x xs ih =>
    have hframed := framed_of_substitution? hP hm (hxs x (List.mem_cons_self ..)) x.made
    have hrest := ih x.result.stop fun y hy => hxs y (List.mem_cons_of_mem _ hy)
    have hslice := hP.of_infix hm ( slice_infix markup written x.tag.start)
    have := hP.append hslice (hP.append hframed.holds hrest hframed.neutral_left)
      hframed.neutral_right
    simpa [woven, outline, outline_append] using this

/-- Each piece of markup in the plan of a fragment has what the fragment has. -/
theorem of_mem_planRender (hP : Inherited P) (hm : P markup) {bs : List BoundElement} {t : Text}
    (ht : t ∈ markupTexts (planRender markup bs).parts) : P t := by
  obtain ⟨xs, hxs⟩ := exists_accounts_planRender markup bs
  have hinfix := infix_outline_of_mem ht
  rw [planRender, outline_mergeMarkup, hxs.parts] at hinfix
  exact hP.of_infix (outline_woven hP hm 0 fun x hx =>
    stands_of_mem_scanStartTags _ (hxs.tags.subset (List.mem_map_of_mem hx))) hinfix

end

end WidgetCompiler.Render
