import WidgetCompiler.Proofs.Markup.StartTags
import WidgetCompiler.Render.Planner

/-!
# What is exchanged and what is copied

A plan is the markup of a fragment with some spans of it exchanged.  An `Exchange` is a start tag, an
element, and what takes the place of the markup from the tag on.  `planRender` makes a plan for any
markup and any elements, and there are exchanges that account for all of it
(`exists_accounts_planRender`): they use up tags and elements in the order of these, their spans stand
one behind the other (`Follow`), and the plan is what stands between the spans, with the parts of the
exchanges.  What holds of plans because it holds of what is exchanged is shown of the exchanges, and
not by going through the planner again.

Nothing is cut out of the markup but between two places of it, the first of which does not lie behind
the second (`bounds_of_textSpan?`).

## Implementation notes

Two places move through the markup: the tag that is looked at next, and the end of what is written.
A tag may lie before the end of what is written, so the induction on `planFrom`
(`exists_accounts_planFrom`) knows of the tags that are left no more than that each of them stands in
the markup; that an exchange begins behind the one before it is what `planFrom` tests.
-/

namespace WidgetCompiler

open Text

namespace Markup

/-! ## Spans -/

/-- Spans that are not empty and stand one behind the other, between two places. -/
def Follow (start stop : Nat) : List (Nat × Nat) → Prop
  | [] => start ≤ stop
  | (a, b) :: spans => start ≤ a ∧ a < b ∧ Follow b stop spans

namespace Follow

variable {start start' stop : Nat} {spans : List (Nat × Nat)}

theorem of_le (hstart : start ≤ start') (h : Follow start' stop spans) : Follow start stop spans := by
  cases spans with
  | nil => exact Nat.le_trans hstart h
  | cons s spans => exact ⟨Nat.le_trans hstart h.1, h.2⟩

/-- Spans of what stands behind some of a text are spans of the text. -/
theorem behind {reached n : Nat} (h : Follow reached (reached + n) spans) (hstart : start ≤ reached)
    (htotal : reached + n = stop) : Follow start stop spans :=
  htotal ▸ h.of_le hstart

/-- Each span lies between the two places. -/
theorem bounds (h : Follow start stop spans) :
    start ≤ stop ∧ ∀ s ∈ spans, start ≤ s.1 ∧ s.1 < s.2 ∧ s.2 ≤ stop := by
  induction spans generalizing start with
  | nil => exact ⟨h, by simp⟩
  | cons s spans ih =>
    obtain ⟨hstart, hs, hrest⟩ := h
    obtain ⟨hle, hspans⟩ := ih hrest
    refine ⟨by omega, fun t ht => ?_⟩
    rcases List.mem_cons.1 ht with rfl | ht
    · exact ⟨hstart, hs, hle⟩
    · obtain ⟨h₁, h₂, h₃⟩ := hspans t ht
      exact ⟨by omega, h₂, h₃⟩

end Follow

/-- The span of a tag. -/
def StartTag.span (tag : StartTag) : Nat × Nat := (tag.start, tag.stop)

/-- The tags of a text stand one behind the other in it. -/
theorem follow_scanFrom (offset : Nat) (s : Text) :
    Follow offset (offset + s.length) ((scanFrom offset s).map StartTag.span) := by
  fun_induction scanFrom offset s with
  | case1 => exact Nat.le_refl _
  | case2 offset s body _ _ rest _ hle ih =>
    exact ih.behind (by omega) (by rw [List.length_cons]; omega)
  | case3 => exact Nat.le_add_right _ _
  | case4 => exact Nat.le_add_right _ _
  | case5 offset s _ _ ih => exact ih.behind (by omega) (by rw [List.length_cons]; omega)
  | case6 offset s _ rawName _ _ rest h _ name stop _ _ _ =>
    rename_i ih
    have hread := length_of_readTag? h
    have hend := length_fromEndTag name rest
    have hstop : stop = offset + (s.length + 1 - rest.length) := rfl
    refine ⟨Nat.le_refl _, ?_, ih.behind (Nat.le_add_right _ _) ?_⟩
    · change offset < stop
      omega
    · rw [List.length_cons]
      omega
  | case7 offset s _ rawName _ _ rest h _ name stop _ _ =>
    rename_i ih
    have hread := length_of_readTag? h
    have hstop : stop = offset + (s.length + 1 - rest.length) := rfl
    refine ⟨Nat.le_refl _, ?_, ih.behind (Nat.le_refl _) ?_⟩
    · change offset < stop
      omega
    · rw [List.length_cons]
      omega
  | case8 offset c s _ ih => exact ih.behind (by omega) (by rw [List.length_cons]; omega)

/-- The tags of markup stand one behind the other in it. -/
theorem follow_scanStartTags (markup : Text) :
    Follow 0 markup.length ((scanStartTags markup).map StartTag.span) := by
  simpa [scanStartTags] using follow_scanFrom 0 markup

theorem bounds_of_mem_scanStartTags {markup : Text} {tag : StartTag}
    (h : tag ∈ scanStartTags markup) : tag.start < tag.stop ∧ tag.stop ≤ markup.length :=
  ((follow_scanStartTags markup).bounds.2 _ (List.mem_map_of_mem h)).2

/-- An end tag that is found stands in the markup. -/
theorem bounds_of_endTagEnd? {markup name : Text} {start stop : Nat}
    (h : endTagEnd? markup start name = some stop) : start < stop ∧ stop ≤ markup.length := by
  have hle : stop ≤ markup.length := by
    unfold endTagEnd? at h
    split at h
    · split at h
      · split at h
        · obtain rfl := Option.some.inj h
          exact Nat.sub_le _ _
        · simp at h
      · simp at h
    · simp at h
  obtain ⟨inner, hslice⟩ := slice_of_endTagEnd? h
  refine ⟨Nat.lt_of_not_le fun hlt => ?_, hle⟩
  have hempty : slice markup start stop = [] :=
    List.drop_eq_nil_of_le ((List.length_take_le _ _).trans hlt)
  simp [hempty] at hslice

end Markup

namespace Render

open Markup

variable {markup : Text} {tag : StartTag} {b : BoundElement}

/-! ## One exchange -/

/-- Where a text is found, the element has it and no children, its start tag is not closed, and what
stands behind this up to an end tag is the text. -/
theorem exists_of_textSpan? {e : Element} {innerStop stop : Nat}
    (h : textSpan? markup tag e = some (innerStop, stop)) :
    tag.selfClosing = false ∧ e.hasChildren = false
      ∧ ∃ t inner rest, e.text = some t
        ∧ cutAt? (· == '<') (markup.drop tag.stop) = some (inner, rest)
        ∧ innerStop = tag.stop + inner.length
        ∧ endTagEnd? markup innerStop tag.name = some stop ∧ decodeCommon (trim inner) = t := by
  unfold textSpan? at h
  split at h
  case isTrue => simp at h
  case isFalse hopen =>
    obtain ⟨hclosing, hchildren⟩ : tag.selfClosing = false ∧ e.hasChildren = false := by
      simpa using hopen
    split at h
    case h_2 => simp at h
    case h_1 t inner rest htext hcut =>
      cases hend : endTagEnd? markup (tag.stop + inner.length) tag.name with
      | none => simp [hend] at h
      | some stop' =>
        simp only [hend, Option.ite_none_right_eq_some, Option.some.injEq, Prod.mk.injEq] at h
        obtain ⟨hdecode, rfl, rfl⟩ := h
        exact ⟨hclosing, hchildren, t, inner, rest, htext, hcut, rfl, hend, hdecode⟩

theorem endTagEnd?_of_textSpan? {e : Element} {innerStop stop : Nat}
    (h : textSpan? markup tag e = some (innerStop, stop)) :
    endTagEnd? markup innerStop tag.name = some stop := by
  obtain ⟨-, -, t, inner, rest, -, -, -, hend, -⟩ := exists_of_textSpan? h
  exact hend

/-- Where the text of an element ends, and where its end tag does, lies in the markup behind the
start tag. -/
theorem bounds_of_textSpan? {e : Element} {innerStop stop : Nat}
    (h : textSpan? markup tag e = some (innerStop, stop)) :
    tag.stop ≤ innerStop ∧ innerStop < stop ∧ stop ≤ markup.length := by
  obtain ⟨-, -, t, inner, rest, -, -, rfl, hend, -⟩ := exists_of_textSpan? h
  exact ⟨Nat.le_add_right _ _, bounds_of_endTagEnd? hend⟩

/-- What takes the place of an element takes it up to the end of its start tag or of its end tag. -/
theorem stop_of_substitution? {sub : Substitution} (h : substitution? markup tag b = some sub) :
    sub.stop = tag.stop ∨ ∃ innerStop, textSpan? markup tag b.element = some (innerStop, sub.stop) := by
  unfold substitution? at h
  split at h
  case h_1 => simp at h
  case h_2 =>
    unfold textContainerSubstitution? at h
    split at h
    · obtain rfl := Option.some.inj h
      exact .inr ⟨_, ‹_›⟩
    · simp at h
  case h_3 =>
    unfold headingSubstitution? at h
    split at h
    · obtain rfl := Option.some.inj h
      exact .inr ⟨_, ‹_›⟩
    · simp at h
  case h_4 =>
    unfold anchorSubstitution? at h
    split at h
    · split at h <;> obtain rfl := Option.some.inj h <;> exact .inr ⟨_, ‹_›⟩
    · simp at h
  case h_5 =>
    unfold buttonSubstitution? at h
    split at h
    · obtain rfl := Option.some.inj h
      exact .inr ⟨_, ‹_›⟩
    · simp at h
  case h_6 =>
    unfold imageSubstitution? at h
    split at h
    · obtain rfl := Option.some.inj h
      exact .inl rfl
    · simp at h
  case h_7 =>
    unfold inputSubstitution? at h
    split at h
    · split at h
      · obtain rfl := Option.some.inj h
        exact .inl rfl
      · simp at h
    · simp at h

theorem bounds_of_substitution? {sub : Substitution} (htag : tag.stop ≤ markup.length)
    (h : substitution? markup tag b = some sub) :
    tag.stop ≤ sub.stop ∧ sub.stop ≤ markup.length := by
  rcases stop_of_substitution? h with hstop | ⟨innerStop, hspan⟩
  · omega
  · have := bounds_of_textSpan? hspan
    omega

/-- A start tag of markup and an element of its name, with what takes the place of the markup from
the tag on. -/
structure Exchange (markup : Text) where
  tag : StartTag
  element : BoundElement
  result : Substitution
  named : tag.name = element.element.tag
  made : substitution? markup tag element = some result

/-- The markup that is exchanged. -/
def Exchange.span (x : Exchange markup) : Nat × Nat := (x.tag.start, x.result.stop)

/-! ## A whole plan -/

/-- The markup from `written` on with the parts of exchanges in it. -/
def woven (written : Nat) : List (Exchange markup) → List Part
  | [] => [.markup (markup.drop written)]
  | x :: xs => .markup (slice markup written x.tag.start) :: x.result.parts ++ woven x.result.stop xs

/-- Exchanges that make the plan of the markup from `written` on, out of tags and elements, before
its parts are merged. -/
structure Accounts (written : Nat) (tags : List StartTag) (bs : List BoundElement) (plan : Plan)
    (xs : List (Exchange markup)) : Prop where
  tags : (xs.map (·.tag)).Sublist tags
  elements : (xs.map (·.element)).Sublist bs
  follow : Follow written markup.length (xs.map (·.span))
  bindings : plan.bindings = xs.flatMap (·.result.bindings)
  parts : plan.parts = woven written xs

/-- There are exchanges that make what is planned from any place of the markup on, for any elements
and for any tags that stand in the markup. -/
theorem exists_accounts_planFrom {written : Nat} {tags : List StartTag} {bs : List BoundElement}
    (hwritten : written ≤ markup.length)
    (htags : ∀ tag ∈ tags, tag.start < tag.stop ∧ tag.stop ≤ markup.length) :
    ∃ xs : List (Exchange markup),
      Accounts written tags bs (planFrom markup written tags bs) xs := by
  -- an element for which nothing is exchanged uses up tags and nothing else
  have passed {written : Nat} {b : BoundElement} {tags rest : List StartTag}
      {bs : List BoundElement} {plan : Plan} (hrest : rest.Sublist tags)
      (ih : ∃ xs : List (Exchange markup), Accounts written rest bs plan xs) :
      ∃ xs : List (Exchange markup), Accounts written tags (b :: bs) plan xs := by
    obtain ⟨xs, h⟩ := ih
    exact ⟨xs, { h with tags := h.tags.trans hrest, elements := h.elements.cons _ }⟩
  have behind {b : BoundElement} {tags rest : List StartTag} {tag : StartTag}
      (h : tags.dropWhile (·.name != b.element.tag) = tag :: rest) :
      (tag :: rest).Sublist tags := h ▸ List.dropWhile_sublist _
  fun_induction planFrom markup written tags bs with
  | case1 written tags => exact ⟨[], List.nil_sublist _, List.nil_sublist _, hwritten, rfl, rfl⟩
  | case2 written tags b bs _ ih => exact passed (List.Sublist.refl _) (ih hwritten htags)
  | case3 written tags b bs tag rest h _ ih =>
    have hrest := (List.sublist_cons_self tag rest).trans (behind h)
    exact passed hrest (ih hwritten fun t ht => htags t (hrest.subset ht))
  | case4 written tags b bs tag rest h _ _ ih =>
    have hrest := (List.sublist_cons_self tag rest).trans (behind h)
    exact passed hrest (ih hwritten fun t ht => htags t (hrest.subset ht))
  | case5 written tags b bs tag rest h hstart sub hsub plan ih =>
    have hnamed : tag.name = b.element.tag := by
      have := List.head?_dropWhile_not (·.name != b.element.tag) tags
      rw [h] at this
      simpa using this
    have hbounds := htags tag ((behind h).subset (List.mem_cons_self ..))
    have hsubBounds := bounds_of_substitution? hbounds.2 hsub
    obtain ⟨xs, hxs⟩ := ih hsubBounds.2 fun t ht =>
      htags t ((behind h).subset (List.mem_cons_of_mem tag ht))
    refine ⟨⟨tag, b, sub, hnamed, hsub⟩ :: xs, (hxs.tags.cons_cons tag).trans (behind h),
      hxs.elements.cons_cons b, ?_, ?_, ?_⟩
    · exact ⟨Nat.le_of_not_lt hstart, Nat.lt_of_lt_of_le hbounds.1 hsubBounds.1, hxs.follow⟩
    · rw [List.flatMap_cons, ← hxs.bindings]
    · rw [woven, ← hxs.parts]

/-- There are exchanges that make the plan of any markup for any elements. -/
theorem exists_accounts_planRender (markup : Text) (bs : List BoundElement) :
    ∃ xs : List (Exchange markup), Accounts 0 (scanStartTags markup) bs
      (planFrom markup 0 (scanStartTags markup) bs) xs :=
  exists_accounts_planFrom (Nat.zero_le markup.length) fun _ => bounds_of_mem_scanStartTags

end Render

end WidgetCompiler
