import WidgetCompiler.Proofs.Style.Rereading

/-!
# Lists of selectors

`splitSelectors` takes a list of selectors apart at its commas.  The list may be any text, also one in
which quotes or brackets stay open or are closed without having been opened.  What it is taken apart into
are selectors, each for itself: they have no blanks around them and no comma that separates further, and
written with commas between them they are taken apart into the same selectors again.  Of the list nothing
but blanks and commas is lost (`splitSelectors_laws`).

The reason is that a comma separates only where the reader of selectors is in plain text, outside of all
brackets.  So each selector but the last leads from there back to there.  Blanks do not move the reader
(`run_selectors_trim`), and so a selector does so without the blanks around it as well.
-/

namespace WidgetCompiler.Style

open Text

variable {s t gap : Text} {c : Char} {m : ListMode}

/-! ## The reader of selectors -/

/-- The reader stops at a comma in plain text, and nowhere else. -/
theorem selectors_step_eq_none (h : selectors.step m c = none) : m = .plain 0 ∧ c = ',' := by
  cases m with
  | plain n =>
    simp only [selectors, ListMode.step] at h
    split at h
    · simp at h
    split at h
    · simp at h
    split at h
    · simp at h
    split at h
    · next hc => exact ⟨by rw [hc.2], hc.1⟩
    · simp at h
  | quoted q n => simp [selectors, ListMode.step] at h

/-- Blanks around a text do not move the reader. -/
theorem run_selectors_trim (m : ListMode) (t : Text) :
    selectors.run m (trim t) = selectors.run m t := by
  obtain ⟨gap, gap', hgap, hgap', ht⟩ := exists_trim t
  have hbehind : (fun m => selectors.run m gap') = some := funext fun _ => Scanner.run_gap rfl hgap'
  symm
  calc selectors.run m t
      = selectors.run m (gap ++ (trim t ++ gap')) := by rw [← List.append_assoc, ← ht]
    _ = selectors.run m (trim t ++ gap') := Scanner.run_append_of_run (Scanner.run_gap rfl hgap)
    _ = selectors.run m (trim t) := by rw [Scanner.run_append, hbehind, Option.bind_fun_some]

/-- What holds of a list that is one piece, and of a list with one piece more if it holds of the list,
holds of every list. -/
theorem splitSelectors_induction {P : Text → List Text → Prop}
    (last : ∀ t m, selectors.run (.plain 0) t = some m → P t (selectorOf t))
    (comma : ∀ t rest, selectors.run (.plain 0) t = some (.plain 0) → P rest (splitSelectors rest) →
      P (t ++ ',' :: rest) (selectorOf t ++ splitSelectors rest)) (s : Text) :
    P s (splitSelectors s) := by
  induction hlength : s.length using Nat.strong_induction_on generalizing s with
  | h n ih =>
    rw [splitSelectors_eq_stopAt]
    cases hstop : selectors.stopAt (.plain 0) s with
    | none =>
      obtain ⟨m, hrun⟩ := Scanner.stopAt_eq_none.1 hstop
      exact last s m hrun
    | some stop =>
      obtain ⟨t, c, rest⟩ := stop
      obtain ⟨rfl, m, hrun, hstep⟩ := Scanner.stopAt_eq_some.1 hstop
      obtain ⟨rfl, rfl⟩ := selectors_step_eq_none hstep
      have hshorter : rest.length < n := by
        simp only [← hlength, List.length_append, List.length_cons]
        omega
      exact comma t rest hrun (ih rest.length hshorter rest rfl)

/-! ## One piece of a list -/

/-- A piece of blanks holds no selector; any other holds what is left of it without the blanks. -/
theorem selectorOf_cases (t : Text) :
    (allBlank t = true ∧ selectorOf t = []) ∨ (trim t ≠ [] ∧ selectorOf t = [trim t]) := by
  cases h : trim t with
  | nil => exact .inl ⟨allBlank_of_trim_eq_nil h, by simp [selectorOf, h]⟩
  | cons c u => exact .inr ⟨by simp, by simp [selectorOf, h]⟩

theorem eq_trim_of_mem_selectorOf {u : Text} (h : u ∈ selectorOf t) : u = trim t :=
  List.mem_singleton.1 (List.mem_filter.1 h).1

/-- What a reader can be run through is a selector for itself, without the blanks around it. -/
theorem splitSelectors_selectorOf (h : selectors.run (.plain 0) t = some m) :
    splitSelectors (join ", " (selectorOf t)) = selectorOf t := by
  rcases selectorOf_cases t with ⟨-, ht⟩ | ⟨hne, ht⟩
  · rw [ht]
    rfl
  · rw [ht, join, splitSelectors_of_run ((run_selectors_trim _ t).trans h),
      selectorOf_of_trim (trim_trim t) hne]

/-! ## Whole lists -/

/-- No selector of a list has a comma that separates. -/
theorem run_of_mem_splitSelectors (s : Text) :
    ∀ t ∈ splitSelectors s, ∃ m, selectors.run (.plain 0) t = some m := by
  have hpiece {t : Text} {m : ListMode} (h : selectors.run (.plain 0) t = some m) :
      ∀ u ∈ selectorOf t, ∃ m, selectors.run (.plain 0) u = some m := fun u hu => by
    rw [eq_trim_of_mem_selectorOf hu, run_selectors_trim]
    exact ⟨m, h⟩
  induction s using splitSelectors_induction with
  | last t m hrun => exact hpiece hrun
  | comma t rest hrun ih => exact List.forall_mem_append.2 ⟨hpiece hrun, ih⟩

/-- Put together, the selectors of a list are taken apart again. -/
theorem splitSelectors_join_splitSelectors (s : Text) :
    splitSelectors (join ", " (splitSelectors s)) = splitSelectors s := by
  induction s using splitSelectors_induction with
  | last t m hrun => exact splitSelectors_selectorOf hrun
  | comma t rest hrun ih =>
    rcases selectorOf_cases t with ⟨-, ht⟩ | ⟨hne, ht⟩
    · rwa [ht, List.nil_append]
    cases hrest : splitSelectors rest with
    | nil =>
      rw [List.append_nil]
      exact splitSelectors_selectorOf hrun
    | cons second others =>
      rw [hrest] at ih
      have hblank : allBlank [' '] = true := rfl
      have hspace : splitSelectors (' ' :: join ", " (second :: others)) = second :: others :=
        (splitSelectors_blanks hblank _).trans ih
      have hshape : join ", " (trim t :: second :: others)
          = trim t ++ ',' :: ' ' :: join ", " (second :: others) := by simp [join]
      rw [ht, List.singleton_append, hshape,
        splitSelectors_append ((run_selectors_trim _ t).trans hrun), hspace,
        selectorOf_of_trim (trim_trim t) hne, List.singleton_append]

/-- What of a list is neither blank nor a comma. -/
def substance (t : Text) : Text := t.filter fun c => !(isBlank c || c == ',')

@[simp] theorem substance_append (s t : Text) : substance (s ++ t) = substance s ++ substance t :=
  List.filter_append ..

theorem substance_of_allBlank (h : allBlank t = true) : substance t = [] :=
  List.filter_eq_nil_iff.2 fun c hc => by simp [isBlank_of_mem h hc]

theorem substance_trim (t : Text) : substance (trim t) = substance t := by
  obtain ⟨gap, gap', hgap, hgap', ht⟩ := exists_trim t
  conv_rhs => rw [ht]
  simp [substance_of_allBlank hgap, substance_of_allBlank hgap']

theorem substance_join (ts : List Text) : substance (join ", " ts) = ts.flatMap substance := by
  have hcomma : substance ", " = [] := by decide
  fun_induction join ", " ts with
  | case1 => rfl
  | case2 t => simp
  | case3 t u ts ih =>
    rw [substance_append, substance_append, hcomma, List.append_nil, ih]
    simp

/-- The selectors of a list hold all of it but blanks and commas. -/
theorem flatMap_substance_splitSelectors (s : Text) :
    (splitSelectors s).flatMap substance = substance s := by
  have hpiece (t : Text) : (selectorOf t).flatMap substance = substance t := by
    rcases selectorOf_cases t with ⟨hblank, ht⟩ | ⟨-, ht⟩
    · rw [ht, substance_of_allBlank hblank, List.flatMap_nil]
    · rw [ht, List.flatMap_singleton, substance_trim]
  have hcomma (rest : Text) : substance (',' :: rest) = substance rest := rfl
  induction s using splitSelectors_induction with
  | last t m _ => exact hpiece t
  | comma t rest _ ih => rw [List.flatMap_append, hpiece, ih, substance_append, hcomma]

/-- A list of selectors is taken apart into texts that are not empty, that have no blanks around them and
that no comma separates further.  With commas between them they are taken apart into the same texts, and
the list has been kept up to blanks and commas. -/
theorem splitSelectors_laws (list : Text) :
    (∀ t ∈ splitSelectors list, t ≠ [] ∧ trim t = t
      ∧ ∃ m, selectors.run (.plain 0) t = some m)
    ∧ splitSelectors (join ", " (splitSelectors list)) = splitSelectors list
    ∧ substance list = substance (join ", " (splitSelectors list)) := by
  refine ⟨fun t ht => ?_, splitSelectors_join_splitSelectors list, ?_⟩
  · obtain ⟨htrim, hne⟩ := trim_of_mem_splitSelectors ht
    exact ⟨hne, htrim, run_of_mem_splitSelectors list t ht⟩
  · rw [substance_join, flatMap_substance_splitSelectors]

/-- Brackets and quotes that stay open keep the commas behind them. -/
example : splitSelectors ".a , :is(.b, .c),, [x='),', .d" = [".a", ":is(.b, .c)", "[x='),', .d"] := by
  decide

end WidgetCompiler.Style
