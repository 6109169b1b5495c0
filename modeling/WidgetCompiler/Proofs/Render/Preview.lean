import WidgetCompiler.Proofs.Render.PlanValues
import WidgetCompiler.Proofs.Text.Decimal
import WidgetCompiler.Proofs.Text.Dictionary
import WidgetCompiler.Render.Preview

/-!
# What a preview is made of

A preview goes through the parts of a plan one after the other (`previewParts_append`), and merging
neighbouring pieces of markup does not change it (`previewParts_mergeMarkup`).  The names in a plan
of differently numbered elements are bound once each (`nodup_bindings`), so that a name stands for
what its own binding gives (`slotOf_environment`).
-/

namespace WidgetCompiler.Render

open Text Markup

/-! ## Parts in turn -/

section

variable (values : Dictionary DefaultValue) (env : Dictionary Slot)

theorem previewParts_append (ps qs : List Part) :
    previewParts values env (ps ++ qs)
      = previewParts values env ps ++ previewParts values env qs := by
  induction ps with
  | nil => simp [previewParts]
  | cons p ps ih => cases p <;> simp [previewParts, ih]

theorem previewParts_flatMap {α : Type} (f : α → List Part) (l : List α) :
    previewParts values env (l.flatMap f) = l.flatMap fun a => previewParts values env (f a) := by
  induction l with
  | nil => simp [previewParts]
  | cons a l ih => rw [List.flatMap_cons, previewParts_append, ih, List.flatMap_cons]

/-- Merging does not change what parts show. -/
theorem previewParts_mergeMarkup (ps : List Part) :
    previewParts values env (mergeMarkup ps) = previewParts values env ps := by
  fun_induction mergeMarkup ps with
  | case1 => rfl
  | case2 t ps ht ih =>
    obtain rfl := List.isEmpty_iff.1 ht
    rw [ih, previewParts, List.nil_append]
  | case3 t ps _ u qs hqs ih =>
    rw [hqs] at ih
    rw [previewParts, List.append_assoc, previewParts, ← ih, previewParts]
  | case4 t ps _ _ ih => rw [previewParts, previewParts, ih]
  | case5 var body ps ihbody ih => rw [previewParts, previewParts, ihbody, ih]
  | case6 value escape ps ih => rw [previewParts, previewParts, ih]
  | case7 var ps ih => rw [previewParts, previewParts, ih]

end

/-! ## Names -/

/-- The stem and the number can be read off a name. -/
theorem localName_inj {stem stem' : Text} {i i' : Nat}
    (h : localName stem i = localName stem' i') : stem = stem' ∧ i = i' := by
  have hline (s : Text) : ∀ c ∈ (s ++ ['_']).getLast?, c.isDigit = false := by
    have : '_'.isDigit = false := by decide
    simp [this]
  have hsplit (s : Text) (k : Nat) : localName s k = s ++ ['_'] ++ decimal k := by
    simp [localName]
  rw [hsplit, hsplit] at h
  obtain ⟨hstem, hi⟩ := append_decimal_inj (hline _) (hline _) h
  exact ⟨List.append_cancel_right hstem, hi⟩

/-- An element binds names of different stems. -/
theorem nodup_of_substitution? {markup : Text} {tag : StartTag} {b : BoundElement}
    {sub : Substitution} (h : substitution? markup tag b = some sub) :
    (sub.bindings.map (·.var)).Nodup := by
  have named (own : List Text) (h : own.Nodup) : (own.map (localName · b.index)).Nodup :=
    h.map fun _ _ e => (localName_inj e).1
  unfold substitution? at h
  split at h
  · simp at h
  · unfold textContainerSubstitution? at h
    split at h
    · obtain rfl := Option.some.inj h
      simp
    · simp at h
  · unfold headingSubstitution? at h
    split at h
    · obtain rfl := Option.some.inj h
      refine (named ["heading_text", "html_tag", "link"] (by decide)).sublist ?_
      cases b.control? "html_tag" <;> cases b.control? "link"
      · exact .cons_cons _ (.cons _ (.cons _ .slnil))
      · exact .cons_cons _ (.cons _ (.cons_cons _ .slnil))
      · exact .cons_cons _ (.cons_cons _ (.cons _ .slnil))
      · exact .refl _
    · simp at h
  · unfold anchorSubstitution? at h
    split at h
    · split at h <;> obtain rfl := Option.some.inj h <;> simp
    · simp at h
  · unfold buttonSubstitution? at h
    split at h
    · obtain rfl := Option.some.inj h
      cases b.control? "button_link" <;> simp
    · simp at h
  · unfold imageSubstitution? at h
    split at h
    · obtain rfl := Option.some.inj h
      refine (named ["image", "alt_text"] (by decide)).sublist ?_
      cases b.control? "alt_text"
      · exact .cons_cons _ (.cons _ .slnil)
      · exact .refl _
    · simp at h
  · unfold inputSubstitution? at h
    split at h
    · split at h
      · obtain rfl := Option.some.inj h
        simp
      · simp at h
    · simp at h

/-- The names that are bound for an element carry its number. -/
theorem exists_localName_of_mem {markup : Text} {tag : StartTag} {b : BoundElement}
    {sub : Substitution} (h : substitution? markup tag b = some sub) {bd : Binding}
    (hbd : bd ∈ sub.bindings) : ∃ stem, bd.var = localName stem b.index := by
  have hdrawn : Drawn (fun n => ∃ stem, n = localName stem b.index) (fun _ => True)
      (fun _ => True) sub.bindings sub.parts := drawn_of_substitution?
    { locals := fun stem _ => ⟨stem, rfl⟩, control := fun _ => trivial, tag := trivial
      attributes := fun _ => trivial, empty := trivial, hash := trivial } h
  exact (hdrawn.bindings bd hbd).1

/-- Elements with different numbers bind different names. -/
theorem nodup_bindings {markup : Text} {bs : List BoundElement} (hbs : (bs.map (·.index)).Nodup) :
    ((planRender markup bs).bindings.map (·.var)).Nodup := by
  obtain ⟨xs, hxs⟩ := exists_accounts_planRender markup bs
  have hindex : (xs.map (·.element.index)).Nodup := by
    have := hbs.sublist (hxs.elements.map (·.index))
    rwa [List.map_map] at this
  rw [planRender, hxs.bindings, List.map_flatMap, List.nodup_flatMap]
  refine ⟨fun x _ => nodup_of_substitution? x.made, ?_⟩
  refine (List.pairwise_map.1 hindex).imp fun {x y} hne n hx hy => hne ?_
  obtain ⟨bd, hbd, rfl⟩ := List.mem_map.1 hx
  obtain ⟨bd', hbd', heq⟩ := List.mem_map.1 hy
  obtain ⟨stem, hstem⟩ := exists_localName_of_mem x.made hbd
  obtain ⟨stem', hstem'⟩ := exists_localName_of_mem y.made hbd'
  rw [hstem, hstem'] at heq
  exact (localName_inj heq).2.symm

/-- Where names are bound once, a name stands for what its binding gives. -/
theorem slotOf_environment (values : Dictionary DefaultValue) {bindings : List Binding}
    (h : (bindings.map (·.var)).Nodup) {bd : Binding} (hbd : bd ∈ bindings) :
    slotOf (environment values bindings) bd.var = bd.source.evaluate values := by
  have hkeys : (bindings.map fun b => (b.var, b.source.evaluate values)).map (·.1)
      = bindings.map (·.var) := by
    rw [List.map_map]
    rfl
  have hmem : (bd.var, bd.source.evaluate values)
      ∈ bindings.map fun b => (b.var, b.source.evaluate values) := List.mem_map.2 ⟨bd, hbd, rfl⟩
  rw [slotOf, environment, Dictionary.find?_ofList_of_mem (hkeys ▸ h) hmem, Option.getD_some]

end WidgetCompiler.Render
