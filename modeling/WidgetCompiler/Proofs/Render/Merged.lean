import WidgetCompiler.Proofs.Render.Preview

/-!
# Merged parts

Parts are a tree, whose levels are the parts themselves and the bodies of conditional parts, at any depth
(`Level`).  Parts are merged if on no level there is an empty piece of markup or one that follows another
(`IsMerged`).

`mergeMarkup` merges each level by itself: the levels of merged parts are the merged levels
(`exists_level_of_level_mergeMarkup`).  So what it makes is merged, and what is merged it leaves alone.
What parts show, how many values are put into them and whether there is anything to see is the same before
and after (`mergeMarkup_laws`).
-/

namespace WidgetCompiler.Render

open Text

variable {ps level : List Part} {p : Part}

/-! ## Levels -/

/-- The parts themselves are a level, and so are those of each level of a body. -/
inductive Level : List Part → List Part → Prop
  | top (ps : List Part) : Level ps ps
  | inside {level body ps : List Part} {var : Text} : .ifSet var body ∈ ps → Level level body →
      Level level ps

/-- Whether the part is literal markup. -/
def Part.isMarkup : Part → Bool
  | .markup _ => true
  | _ => false

/-- No piece of markup is empty or follows another one. -/
structure Alternates (ps : List Part) : Prop where
  nonempty : ∀ t, .markup t ∈ ps → t ≠ []
  apart : ps.IsChain fun p q => ¬ (p.isMarkup = true ∧ q.isMarkup = true)

/-- On every level no piece of markup is empty or follows another one. -/
def IsMerged (ps : List Part) : Prop := ∀ level, Level level ps → Alternates level

namespace Alternates

theorem nil : Alternates [] where
  nonempty := by simp
  apart := .nil

/-- Whatever is not markup can stand before anything. -/
theorem cons (hp : p.isMarkup = false) (h : Alternates ps) : Alternates (p :: ps) where
  nonempty t ht := by
    rcases List.mem_cons.1 ht with rfl | ht
    · simp [Part.isMarkup] at hp
    · exact h.nonempty t ht
  apart := List.isChain_cons.2 ⟨fun _ _ hm => by simp [hp] at hm, h.apart⟩

/-- Markup can stand before what does not begin with markup. -/
theorem markup {t : Text} (ht : t ≠ []) (hps : ∀ u qs, ps ≠ .markup u :: qs) (h : Alternates ps) :
    Alternates (.markup t :: ps) where
  nonempty u hu := by
    rcases List.mem_cons.1 hu with hu | hu
    · rwa [Part.markup.inj hu]
    · exact h.nonempty u hu
  apart := by
    refine List.isChain_cons.2 ⟨fun q hq hm => ?_, h.apart⟩
    obtain ⟨qs, rfl⟩ := List.head?_eq_some_iff.1 hq
    cases q with
    | markup u => exact hps u qs rfl
    | _ => simp [Part.isMarkup] at hm

/-- A piece of markup can go on. -/
theorem extend {t u : Text} (h : Alternates (.markup u :: ps)) : Alternates (.markup (t ++ u) :: ps) where
  nonempty v hv := by
    rcases List.mem_cons.1 hv with hv | hv
    · have hu := h.nonempty u List.mem_cons_self
      simp [Part.markup.inj hv, hu]
    · exact h.nonempty v (List.mem_cons_of_mem _ hv)
  apart := List.isChain_cons.2 ⟨fun q hq hm => (List.isChain_cons.1 h.apart).1 q hq hm,
    (List.isChain_cons.1 h.apart).2⟩

end Alternates

/-! ## What merging makes -/

theorem alternates_mergeMarkup (ps : List Part) : Alternates (mergeMarkup ps) := by
  fun_induction mergeMarkup ps with
  | case1 => exact .nil
  | case2 t ps _ ih => exact ih
  | case3 t ps _ u qs hqs ih => exact (hqs ▸ ih).extend
  | case4 t ps ht hqs ih => exact ih.markup (by simpa using ht) hqs
  | case5 var body ps _ ih => exact ih.cons rfl
  | case6 value escape ps ih => exact ih.cons rfl
  | case7 var ps ih => exact ih.cons rfl

/-- The bodies of merged parts are the merged bodies. -/
theorem exists_of_ifSet_mem_mergeMarkup {var : Text} {body : List Part}
    (h : .ifSet var body ∈ mergeMarkup ps) :
    ∃ body', .ifSet var body' ∈ ps ∧ body = mergeMarkup body' := by
  have behind {p : Part} {ps : List Part}
      (h : ∃ body', .ifSet var body' ∈ ps ∧ body = mergeMarkup body') :
      ∃ body', .ifSet var body' ∈ p :: ps ∧ body = mergeMarkup body' :=
    h.imp fun _ h => ⟨List.mem_cons_of_mem p h.1, h.2⟩
  fun_induction mergeMarkup ps with
  | case1 => simp at h
  | case2 t ps _ ih => exact behind (ih h)
  | case3 t ps _ u qs hqs ih =>
    rw [hqs] at ih
    exact behind (ih (by simpa using h))
  | case4 t ps _ _ ih => exact behind (ih (by simpa using h))
  | case5 var' body' ps _ ih =>
    rcases List.mem_cons.1 h with h | h
    · obtain ⟨rfl, rfl⟩ := Part.ifSet.inj h
      exact ⟨body', List.mem_cons_self, rfl⟩
    · exact behind (ih h)
  | case6 value escape ps ih => exact behind (ih (by simpa using h))
  | case7 var ps ih => exact behind (ih (by simpa using h))

/-- The levels of merged parts are the merged levels. -/
theorem exists_level_of_level_mergeMarkup (h : Level level (mergeMarkup ps)) :
    ∃ level', Level level' ps ∧ level = mergeMarkup level' := by
  generalize hqs : mergeMarkup ps = qs at h
  induction h generalizing ps with
  | top => exact ⟨ps, .top ps, hqs.symm⟩
  | inside hbody _ ih =>
    obtain ⟨body', hmem, rfl⟩ := exists_of_ifSet_mem_mergeMarkup (hqs ▸ hbody)
    obtain ⟨level', hlevel, he⟩ := ih rfl
    exact ⟨level', .inside hmem hlevel, he⟩

theorem isMerged_mergeMarkup (ps : List Part) : IsMerged (mergeMarkup ps) := by
  intro level h
  obtain ⟨level', -, rfl⟩ := exists_level_of_level_mergeMarkup h
  exact alternates_mergeMarkup level'

/-! ## What is merged -/

namespace IsMerged

theorem of_cons (h : IsMerged (p :: ps)) : IsMerged ps := by
  intro level hlevel
  cases hlevel with
  | top =>
    have htop := h (p :: ps) (.top _)
    exact ⟨fun t ht => htop.nonempty t (List.mem_cons_of_mem _ ht), (List.isChain_cons.1 htop.apart).2⟩
  | inside hbody hlevel => exact h level (.inside (List.mem_cons_of_mem _ hbody) hlevel)

theorem of_ifSet {var : Text} {body : List Part} (h : IsMerged (.ifSet var body :: ps)) :
    IsMerged body := fun level hlevel => h level (.inside List.mem_cons_self hlevel)

/-- What is merged is left alone. -/
theorem mergeMarkup_eq (h : IsMerged ps) : mergeMarkup ps = ps := by
  have htop := h ps (.top ps)
  fun_induction mergeMarkup ps with
  | case1 => rfl
  | case2 t ps ht _ => exact absurd (List.isEmpty_iff.1 ht) (htop.nonempty t List.mem_cons_self)
  | case3 t ps _ u qs hqs ih =>
    have hps := ih h.of_cons (h.of_cons ps (.top ps))
    rw [hqs] at hps
    subst hps
    exact absurd ⟨rfl, rfl⟩ ((List.isChain_cons.1 htop.apart).1 (.markup u) rfl)
  | case4 t ps _ _ ih => rw [ih h.of_cons (h.of_cons ps (.top ps))]
  | case5 var body ps ihbody ih =>
    rw [ihbody h.of_ifSet (h.of_ifSet body (.top body)), ih h.of_cons (h.of_cons ps (.top ps))]
  | case6 value escape ps ih => rw [ih h.of_cons (h.of_cons ps (.top ps))]
  | case7 var ps ih => rw [ih h.of_cons (h.of_cons ps (.top ps))]

end IsMerged

/-! ## What merging leaves alone -/

theorem substitutionsIn_mergeMarkup (ps : List Part) :
    substitutionsIn (mergeMarkup ps) = substitutionsIn ps := by
  fun_induction mergeMarkup ps <;> simp_all [substitutionsIn]

/-- Markup that is put together is blank only if its pieces are. -/
theorem any_isVisible_mergeMarkup (ps : List Part) :
    (mergeMarkup ps).any (·.isVisible) = ps.any (·.isVisible) := by
  fun_induction mergeMarkup ps with
  | case1 => rfl
  | case2 t ps ht ih =>
    obtain rfl := List.isEmpty_iff.1 ht
    rw [ih]
    rfl
  | case3 t ps _ u qs hqs ih =>
    rw [hqs, List.any_cons] at ih
    rw [List.any_cons, List.any_cons, ← ih, ← Bool.or_assoc]
    simp [Part.isVisible]
  | case4 t ps _ _ ih => rw [List.any_cons, ih, List.any_cons]
  | case5 var body ps _ ih => rw [List.any_cons, ih, List.any_cons]; rfl
  | case6 value escape ps ih => rw [List.any_cons, ih, List.any_cons]
  | case7 var ps ih => rw [List.any_cons, ih, List.any_cons]

/-- Merging makes parts that are merged on every level and leaves such parts alone.  Whatever the
bindings are, a plan with the merged parts shows what it shows with the parts themselves, and it has as
many values and as much to see. -/
theorem mergeMarkup_laws (ps : List Part) :
    IsMerged (mergeMarkup ps)
    ∧ mergeMarkup (mergeMarkup ps) = mergeMarkup ps
    ∧ ∀ bindings, (∀ values, Plan.preview ⟨bindings, mergeMarkup ps⟩ values
          = Plan.preview ⟨bindings, ps⟩ values)
        ∧ Plan.substitutions ⟨bindings, mergeMarkup ps⟩ = Plan.substitutions ⟨bindings, ps⟩
        ∧ Plan.hasMarkup ⟨bindings, mergeMarkup ps⟩ = Plan.hasMarkup ⟨bindings, ps⟩ := by
  have hmerged := isMerged_mergeMarkup ps
  refine ⟨hmerged, hmerged.mergeMarkup_eq, fun bindings => ⟨fun values => ?_, ?_, ?_⟩⟩
  · exact previewParts_mergeMarkup values (environment values bindings) ps
  · exact substitutionsIn_mergeMarkup ps
  · exact any_isVisible_mergeMarkup ps

/-- Where an empty piece goes, its neighbours meet. -/
example : mergeMarkup [.markup "<b>", .ifSet "link_1" [.markup [], .markup "a", .markup [], .markup "b"],
      .markup "<", .markup [], .markup "/b>"]
    = [.markup "<b>", .ifSet "link_1" [.markup "ab"], .markup "</b>"] := by
  simp [mergeMarkup]

end WidgetCompiler.Render
